import Mathlib.Data.List.Count
import Spate.KafkaTracker

set_option autoImplicit false

/- Where the copies of delivered offsets are. A copy is open from its delivery until the
write that settles it is confirmed or a redelivery replaces it. The tracker counts the
open copies of every offset, and each of them is held by the reader's side or carried by
one write. -/
namespace Spate.Kafka

open Std (TreeMap)

/-- A count as a map keeps it, without entries for 0. -/
def stock (n : Nat) : Option Nat := if n = 0 then none else some n

variable {copy : Position}

theorem stock_succ (n : Nat) : stock (n + 1) = some (n + 1) := rfl

theorem getD_stock (n : Nat) : (stock n).getD 0 = n := by
  unfold stock
  split
  · rename_i zero
    exact zero.symm
  · rfl

theorem deliver_unfinished (p : Partition) (offset : Int) {n : Nat}
    (before : p.unfinished[offset]? = stock n) :
    (p.deliver offset).unfinished[offset]? = stock (n + 1) := by
  unfold Partition.deliver
  rw [before, getD_stock]
  exact TreeMap.getElem?_insert_self

theorem deliver_other (p : Partition) {offset other : Int} (different : other ≠ offset) :
    (p.deliver offset).unfinished[other]? = p.unfinished[other]? :=
  TreeMaps.insert_other different

theorem finish_unfinished (p : Partition) (offset : Int) {n : Nat}
    (before : p.unfinished[offset]? = stock (n + 1)) :
    (p.finish offset).unfinished[offset]? = stock n := by
  rw [stock_succ] at before
  unfold Partition.finish
  rw [before]
  change (if n = 0 then p.unfinished.erase offset else p.unfinished.insert offset n)[offset]? = _
  unfold stock
  split
  · exact TreeMap.getElem?_erase_self
  · exact TreeMap.getElem?_insert_self

theorem finish_other (p : Partition) {offset other : Int} (different : other ≠ offset) :
    (p.finish offset).unfinished[other]? = p.unfinished[other]? := by
  unfold Partition.finish
  split
  · rfl
  · rename_i copies found
    change (if copies - 1 = 0 then p.unfinished.erase offset
      else p.unfinished.insert offset (copies - 1))[other]? = _
    split
    · exact TreeMaps.erase_other different
    · exact TreeMaps.insert_other different

theorem finish_generation (p : Partition) (offset : Int) :
    (p.finish offset).generation = p.generation := by
  unfold Partition.finish
  split <;> rfl

theorem commitPoint_le {p : Partition} {point offset : Int} (commits : p.commitPoint = some point)
    (unfinished : offset ∈ p.unfinished) : point ≤ offset := by
  unfold Partition.commitPoint at commits
  split at commits
  · rename_i first least
    have lowest : first ≤ offset :=
      Std.isLE_compare.mp (Std.TreeMap.minKey?_le_of_mem unfinished (by simp [least]))
    cases next : p.next <;> simp only [next, Option.elim, Option.some.injEq] at commits <;> omega
  · rename_i empty
    rw [Std.TreeMap.minKey?_eq_none_iff, Std.TreeMap.isEmpty_iff_forall_not_mem] at empty
    exact absurd unfinished (empty offset)

/-- The copies of `offset` of `tp` that were delivered under `generation`. -/
def copiesAt (copies : List Position) (tp : Tp) (generation : Nat) (offset : Int) : Nat :=
  copies.countP fun copy => copy.tp = tp ∧ copy.generation = generation ∧ copy.offset = offset

/-- The tracker's count of every offset is the number of its open copies. -/
def Counted (t : Tracker) (opens : List Position) : Prop :=
  ∀ tp generation unfinished, t.ledger tp = some (generation, unfinished) →
    ∀ offset, unfinished[offset]? = stock (copiesAt opens tp generation offset)

/-- The copies that stay open when the copy of `receipt` is finished. -/
def without (opens : List Position) (receipt : Nat) : List Position :=
  opens.filter (·.receipt ≠ receipt)

theorem mem_without {opens : List Position} {receipt : Nat} :
    copy ∈ without opens receipt ↔ copy ∈ opens ∧ copy.receipt ≠ receipt := by
  simp [without]

theorem without_perm {opens : List Position} (distinct : (opens.map (·.receipt)).Nodup)
    (member : copy ∈ opens) : opens.Perm (copy :: without opens copy.receipt) := by
  induction opens with
  | nil => cases member
  | cons first rest ih =>
    rw [List.map_cons, List.nodup_cons] at distinct
    rcases List.mem_cons.mp member with rfl | later
    · have keep : without (copy :: rest) copy.receipt = rest := by
        unfold without
        rw [List.filter_cons_of_neg (by simp)]
        apply List.filter_eq_self.mpr
        intro other there
        have apart : other.receipt ≠ copy.receipt := by
          intro same
          exact distinct.1 (same ▸ List.mem_map_of_mem there)
        simpa using apart
      rw [keep]
    · have apart : first.receipt ≠ copy.receipt := by
        intro same
        exact distinct.1 (same ▸ List.mem_map_of_mem later)
      have keep : without (first :: rest) copy.receipt = first :: without rest copy.receipt :=
        List.filter_cons_of_pos (by simpa using apart)
      rw [keep]
      exact ((ih distinct.2 later).cons first).trans (List.Perm.swap _ _ _)

theorem copiesAt_cons (copy : Position) (rest : List Position) (tp : Tp) (generation : Nat)
    (offset : Int) :
    copiesAt (copy :: rest) tp generation offset =
      copiesAt rest tp generation offset +
        if copy.tp = tp ∧ copy.generation = generation ∧ copy.offset = offset then 1 else 0 := by
  unfold copiesAt
  rw [List.countP_cons]
  simp

theorem copiesAt_perm {left right : List Position} (same : left.Perm right) (tp : Tp)
    (generation : Nat) (offset : Int) :
    copiesAt left tp generation offset = copiesAt right tp generation offset :=
  same.countP_eq _

namespace Tracker

theorem complete_eq (t : Tracker) (position : Position) :
    (t.complete position).generation = t.generation ∧
      (t.complete position).nextReceipt = t.nextReceipt ∧
      (t.complete position).held = t.held := by
  unfold complete
  split
  · split <;> exact ⟨rfl, rfl, rfl⟩
  · exact ⟨rfl, rfl, rfl⟩

theorem complete_ledger (t : Tracker) (position : Position) (tp : Tp) :
    (∃ p, t.partitions.lookup tp = some p ∧ tp = position.tp ∧
        p.generation = position.generation ∧
        (t.complete position).ledger tp =
          some (p.generation, (p.finish position.offset).unfinished)) ∨
      ((t.complete position).ledger tp = t.ledger tp ∧
        (tp = position.tp → t.current position = false)) := by
  unfold complete current
  split
  · rename_i p found
    split
    · rename_i same
      rw [ledger_insert]
      by_cases here : tp = position.tp
      · exact .inl ⟨p, here ▸ found, here, same, by rw [if_pos here, finish_generation]⟩
      · exact .inr ⟨if_neg here, fun there => absurd there here⟩
    · rename_i other
      exact .inr ⟨rfl, fun _ => by simp [other]⟩
  · exact .inr ⟨rfl, fun _ => rfl⟩

theorem complete_generation (t : Tracker) (position : Position) (tp : Tp) :
    ((t.complete position).ledger tp).map (·.1) = (t.ledger tp).map (·.1) := by
  rcases complete_ledger t position tp with ⟨p, found, -, -, after⟩ | ⟨same, -⟩
  · rw [after, ledger, found]
    rfl
  · rw [same]

theorem complete_holds (t : Tracker) (position : Position) (receipt : Nat) :
    (t.complete position).holds receipt = t.holds receipt :=
  holds_congr (complete_eq t position).2.2 (complete_generation t position) receipt

theorem complete_current (t : Tracker) (position other : Position) :
    (t.complete position).current other = t.current other :=
  current_congr (complete_generation t position) other

end Tracker

theorem Counted.complete {t : Tracker} {opens : List Position} (counted : Counted t opens)
    (distinct : (opens.map (·.receipt)).Nodup) {position : Position} (isOpen : position ∈ opens) :
    Counted (t.complete position) (without opens position.receipt) := by
  intro tp generation unfinished owned offset
  have shuffled := without_perm distinct isOpen
  have total := copiesAt_perm shuffled tp generation offset
  rw [copiesAt_cons] at total
  rcases t.complete_ledger position tp with ⟨p, found, here, same, after⟩ | ⟨unchanged, stale⟩
  · rw [after] at owned
    obtain ⟨rfl, rfl⟩ := Prod.mk.inj (Option.some.inj owned)
    have before := counted tp p.generation p.unfinished (by simp [Tracker.ledger, found]) offset
    by_cases at_ : offset = position.offset
    · rw [if_pos ⟨here.symm, same.symm, at_.symm⟩] at total
      rw [total] at before
      subst at_
      exact finish_unfinished p position.offset before
    · rw [if_neg fun there => at_ there.2.2.symm] at total
      rw [finish_other p at_, before, total, Nat.add_zero]
  · rw [unchanged] at owned
    have elsewhere : ¬(position.tp = tp ∧ position.generation = generation ∧
        position.offset = offset) := by
      rintro ⟨rfl, rfl, -⟩
      have stale := stale rfl
      rw [Tracker.current_iff.mpr ⟨unfinished, owned⟩] at stale
      cases stale
    rw [if_neg elsewhere, Nat.add_zero] at total
    rw [counted tp generation unfinished owned offset, total]

/-- What holds of every receipt and every copy, whether or not the feed still runs.
`shelf` lists the receipts at the gate, in a gate pass, with an attempt write and in the
ready buffer, `handed` those the reader was given and has not settled, `returned` all it
was ever given. `writes` are the copies a move or a tombstone carries and `opens` the
copies not finished. -/
structure Kept (t : Tracker) (shelf handed returned : List Nat)
    (writes opens : List Position) : Prop where
  once : ∀ receipt, shelf.count receipt + returned.count receipt ≤ 1
  given : ∀ receipt ∈ handed, receipt ∈ returned
  minted : ∀ receipt, t.nextReceipt < receipt → receipt ∉ shelf ∧ receipt ∉ returned
  named : ∀ receipt copy, t.holds receipt = some copy → copy.receipt = receipt
  heldOpen : ∀ receipt copy, t.holds receipt = some copy → copy ∈ opens
  heldApart : ∀ receipt copy, t.holds receipt = some copy → copy ∉ writes
  carried : ∀ copy ∈ writes, copy ∈ opens
  apart : writes.Nodup
  distinct : (opens.map (·.receipt)).Nodup
  numbered : ∀ copy ∈ opens, copy.receipt ≤ t.nextReceipt
  dated : ∀ copy ∈ opens, copy.generation ≤ t.generation
  heldDated : ∀ receipt copy, t.held.lookup receipt = some copy → copy.generation ≤ t.generation
  assigned : ∀ tp generation unfinished, t.ledger tp = some (generation, unfinished) →
    generation ≤ t.generation
  counted : Counted t opens

/-- What holds while the feed has neither stopped nor latched: nothing is stranded. -/
structure Stocked (t : Tracker) (shelf handed : List Nat) (writes opens : List Position) :
    Prop where
  shelved : ∀ receipt copy, t.holds receipt = some copy → receipt ∈ shelf ∨ receipt ∈ handed
  carried : ∀ copy ∈ opens, t.current copy = true →
    t.holds copy.receipt = some copy ∨ copy ∈ writes

section Kept

variable {t t' : Tracker} {shelf shelf' handed handed' returned : List Nat}
  {writes writes' opens : List Position}

variable {copy : Position} {receipt : Nat} {tp : Tp} {offset : Int} {p : Partition}
  {receipts : List Nat}

theorem Kept.alike (kept : Kept t shelf handed returned writes opens)
    (alike : Tracker.Alike t t') : Kept t' shelf handed returned writes opens where
  once := kept.once
  given := kept.given
  minted := fun receipt => alike.nextReceipt ▸ kept.minted receipt
  named := fun receipt copy => alike.holds receipt ▸ kept.named receipt copy
  heldOpen := fun receipt copy => alike.holds receipt ▸ kept.heldOpen receipt copy
  heldApart := fun receipt copy => alike.holds receipt ▸ kept.heldApart receipt copy
  carried := kept.carried
  apart := kept.apart
  distinct := kept.distinct
  numbered := fun copy => alike.nextReceipt ▸ kept.numbered copy
  dated := fun copy => alike.generation ▸ kept.dated copy
  heldDated := fun receipt copy found =>
    alike.generation ▸ kept.heldDated receipt copy (alike.held receipt copy found)
  assigned := fun tp generation unfinished =>
    alike.generation ▸ alike.ledger tp ▸ kept.assigned tp generation unfinished
  counted := fun tp generation unfinished owned =>
    kept.counted tp generation unfinished (alike.ledger tp ▸ owned)

theorem Stocked.alike (stocked : Stocked t shelf handed writes opens)
    (alike : Tracker.Alike t t') : Stocked t' shelf handed writes opens where
  shelved := fun receipt copy => alike.holds receipt ▸ stocked.shelved receipt copy
  carried := fun copy isOpen now => by
    rw [alike.current] at now
    rw [alike.holds]
    exact stocked.carried copy isOpen now

/-- Receipts may leave the shelf and the reader's hands, and writes may be dropped. -/
theorem Kept.shed (kept : Kept t shelf handed returned writes opens)
    (fewer : ∀ receipt, shelf'.count receipt ≤ shelf.count receipt)
    (given : ∀ receipt ∈ handed', receipt ∈ handed)
    (dropped : writes'.Subperm writes) : Kept t shelf' handed' returned writes' opens where
  once := fun receipt => by
    have := kept.once receipt
    have := fewer receipt
    omega
  given := fun receipt member => kept.given receipt (given receipt member)
  minted := fun receipt new => by
    refine ⟨fun member => ?_, (kept.minted receipt new).2⟩
    have := fewer receipt
    have := List.count_pos_iff.mpr member
    exact (kept.minted receipt new).1 (List.count_pos_iff.mp (by omega))
  named := kept.named
  heldOpen := kept.heldOpen
  heldApart := fun receipt copy held member =>
    kept.heldApart receipt copy held (dropped.subset member)
  carried := fun copy member => kept.carried copy (dropped.subset member)
  apart := by
    obtain ⟨list, same, sub⟩ := dropped
    exact same.nodup_iff.mp (kept.apart.sublist sub)
  distinct := kept.distinct
  numbered := kept.numbered
  dated := kept.dated
  heldDated := kept.heldDated
  assigned := kept.assigned
  counted := kept.counted

/-- What a rebalance may do: partitions go, or come back empty under a newer generation. -/
structure Rebalanced (t t' : Tracker) : Prop where
  generation : t'.generation = t.generation + 1
  nextReceipt : t'.nextReceipt = t.nextReceipt
  held : t'.held = t.held
  ledger : ∀ tp generation unfinished, t'.ledger tp = some (generation, unfinished) →
    t.ledger tp = some (generation, unfinished) ∨
      (generation = t.generation + 1 ∧ unfinished = ∅)

theorem Rebalanced.current (rebalanced : Rebalanced t t') (dated : copy.generation ≤ t.generation)
    (now : t'.current copy = true) : t.current copy = true := by
  obtain ⟨unfinished, owned⟩ := Tracker.current_iff.mp now
  rcases rebalanced.ledger _ _ _ owned with before | ⟨newer, -⟩
  · exact Tracker.current_iff.mpr ⟨unfinished, before⟩
  · omega

/-- A rebalance makes no receipt current again. -/
theorem Rebalanced.holds (rebalanced : Rebalanced t t')
    (dated : ∀ copy, t.held.lookup receipt = some copy → copy.generation ≤ t.generation)
    (now : t'.holds receipt = some copy) : t.holds receipt = some copy := by
  obtain ⟨found, still⟩ := Tracker.holds_eq_some.mp now
  rw [rebalanced.held] at found
  exact Tracker.holds_eq_some.mpr ⟨found, rebalanced.current (dated copy found) still⟩

theorem Kept.rebalance (kept : Kept t shelf handed returned writes opens)
    (rebalanced : Rebalanced t t') : Kept t' shelf handed returned writes opens := by
  have holds {receipt copy} (now : t'.holds receipt = some copy) :
      t.holds receipt = some copy := rebalanced.holds (kept.heldDated receipt) now
  have older := rebalanced.generation
  refine ⟨kept.once, kept.given, ?_, ?_, ?_, ?_, kept.carried, kept.apart, kept.distinct,
    ?_, ?_, ?_, ?_, ?_⟩
  · intro receipt new
    rw [rebalanced.nextReceipt] at new
    exact kept.minted receipt new
  · exact fun receipt copy now => kept.named receipt copy (holds now)
  · exact fun receipt copy now => kept.heldOpen receipt copy (holds now)
  · exact fun receipt copy now => kept.heldApart receipt copy (holds now)
  · intro copy isOpen
    rw [rebalanced.nextReceipt]
    exact kept.numbered copy isOpen
  · intro copy isOpen
    have := kept.dated copy isOpen
    omega
  · intro receipt copy found
    rw [rebalanced.held] at found
    have := kept.heldDated receipt copy found
    omega
  · intro tp generation unfinished owned
    rcases rebalanced.ledger _ _ _ owned with before | ⟨newer, -⟩
    · have := kept.assigned _ _ _ before
      omega
    · omega
  · intro tp generation unfinished owned offset
    rcases rebalanced.ledger _ _ _ owned with before | ⟨rfl, rfl⟩
    · exact kept.counted tp generation unfinished before offset
    · have none : copiesAt opens tp (t.generation + 1) offset = 0 := by
        apply List.countP_eq_zero.mpr
        intro copy isOpen
        have := kept.dated copy isOpen
        simp only [decide_eq_true_eq, not_and]
        omega
      rw [none]
      rfl

theorem Stocked.rebalance (kept : Kept t shelf handed returned writes opens)
    (stocked : Stocked t shelf handed writes opens) (rebalanced : Rebalanced t t') :
    Stocked t' shelf handed writes opens where
  shelved := fun receipt copy now =>
    stocked.shelved receipt copy (rebalanced.holds (kept.heldDated receipt) now)
  carried := fun copy isOpen now => by
    have before := rebalanced.current (kept.dated copy isOpen) now
    rcases stocked.carried copy isOpen before with held | write
    · left
      rw [Tracker.holds_eq_some, rebalanced.held]
      exact ⟨(Tracker.holds_eq_some.mp held).1, now⟩
    · exact .inr write

/-- While nothing is lost of what is held, entries may move between the containers. -/
theorem Stocked.move (stocked : Stocked t shelf handed writes opens)
    (shelved : ∀ receipt, (t.holds receipt).isSome → receipt ∈ shelf ∨ receipt ∈ handed →
      receipt ∈ shelf' ∨ receipt ∈ handed')
    (carried : ∀ copy ∈ writes, t.current copy = true → copy ∈ writes') :
    Stocked t shelf' handed' writes' opens where
  shelved := fun receipt copy held =>
    shelved receipt (by rw [held]; rfl) (stocked.shelved receipt copy held)
  carried := fun copy isOpen now =>
    (stocked.carried copy isOpen now).imp_right fun write => carried copy write now

/-! ## Deliveries -/

theorem Tracker.deliver_some (delivered : t.deliver tp offset = some (receipt, t')) :
    ∃ p, t.partitions.lookup tp = some p ∧ receipt = t.nextReceipt + 1 ∧
      t' = { t with
        nextReceipt := t.nextReceipt + 1
        partitions := t.partitions.insert tp (p.deliver offset)
        held := t.held.insert (t.nextReceipt + 1)
          ⟨tp, offset, p.generation, t.nextReceipt + 1⟩ } := by
  unfold Tracker.deliver at delivered
  split at delivered
  · cases delivered
  · rename_i p found
    obtain ⟨rfl, rfl⟩ := Prod.mk.inj (Option.some.inj delivered)
    exact ⟨p, found, rfl, rfl⟩

theorem Tracker.deliver_ledger (found : t.partitions.lookup tp = some p)
    (delivered : t.deliver tp offset = some (receipt, t')) (other : Tp) :
    t'.ledger other = if other = tp then some (p.generation, (p.deliver offset).unfinished)
      else t.ledger other := by
  obtain ⟨p', found', -, rfl⟩ := Tracker.deliver_some delivered
  obtain rfl : p = p' := Option.some.inj (found.symm.trans found')
  exact Tracker.ledger_insert _ tp other (p.deliver offset)

theorem Tracker.deliver_current (delivered : t.deliver tp offset = some (receipt, t'))
    (copy : Position) : t'.current copy = t.current copy := by
  obtain ⟨p, found, -⟩ := Tracker.deliver_some delivered
  apply Tracker.current_congr
  intro other
  rw [Tracker.deliver_ledger found delivered]
  split
  · rename_i same
    rw [same]
    simp [Tracker.ledger, found]
  · rfl

theorem Tracker.deliver_holds (found : t.partitions.lookup tp = some p)
    (delivered : t.deliver tp offset = some (receipt, t')) (other : Nat) :
    t'.holds other = if other = receipt then some ⟨tp, offset, p.generation, receipt⟩
      else t.holds other := by
  have now := Tracker.deliver_current delivered
  obtain ⟨p', found', rfl, rfl⟩ := Tracker.deliver_some delivered
  obtain rfl : p = p' := Option.some.inj (found.symm.trans found')
  unfold Tracker.holds
  rw [funext now]
  by_cases same : other = t.nextReceipt + 1
  · rw [if_pos same, same, AList.lookup_insert, Option.filter, if_pos]
    simp [Tracker.current, found]
  · rw [if_neg same]
    change ((t.held.insert _ _).lookup other).filter t.current = _
    rw [AList.lookup_insert_ne same]

theorem Kept.deliver (kept : Kept t shelf handed returned writes opens)
    (found : t.partitions.lookup tp = some p)
    (delivered : t.deliver tp offset = some (receipt, t')) :
    Kept t' (receipt :: shelf) handed returned writes
      (⟨tp, offset, p.generation, receipt⟩ :: opens) := by
  have ledger := Tracker.deliver_ledger found delivered
  have holds := Tracker.deliver_holds found delivered
  obtain ⟨p', found', minted, made⟩ := Tracker.deliver_some delivered
  obtain rfl : p = p' := Option.some.inj (found.symm.trans found')
  have next : t'.nextReceipt = t.nextReceipt + 1 := by rw [made]
  have same : t'.generation = t.generation := by rw [made]
  have isNew := kept.minted receipt (by omega)
  have notOpen : ∀ copy ∈ opens, copy.receipt ≠ receipt := by
    intro copy isOpen
    have := kept.numbered copy isOpen
    omega
  refine ⟨?_, kept.given, ?_, ?_, ?_, ?_, ?_, kept.apart, ?_, ?_, ?_, ?_, ?_, ?_⟩
  · intro other
    have := kept.once other
    rw [List.count_cons]
    split
    · rename_i equal
      rw [beq_iff_eq] at equal
      subst equal
      have := List.count_eq_zero.mpr isNew.1
      have := List.count_eq_zero.mpr isNew.2
      omega
    · omega
  · intro other new
    have old := kept.minted other (by omega)
    refine ⟨?_, old.2⟩
    rw [List.mem_cons, not_or]
    exact ⟨by omega, old.1⟩
  · intro other copy held
    rw [holds] at held
    split at held
    · rename_i equal
      rw [← Option.some.inj held, equal]
    · exact kept.named other copy held
  · intro other copy held
    rw [holds] at held
    split at held
    · rw [← Option.some.inj held]
      exact List.mem_cons_self
    · exact List.mem_cons_of_mem _ (kept.heldOpen other copy held)
  · intro other copy held write
    rw [holds] at held
    split at held
    · rw [← Option.some.inj held] at write
      exact notOpen _ (kept.carried _ write) rfl
    · exact kept.heldApart other copy held write
  · exact fun copy write => List.mem_cons_of_mem _ (kept.carried copy write)
  · rw [List.map_cons, List.nodup_cons]
    refine ⟨fun member => ?_, kept.distinct⟩
    obtain ⟨copy, isOpen, equal⟩ := List.mem_map.mp member
    exact notOpen copy isOpen equal
  · intro copy isOpen
    rcases List.mem_cons.mp isOpen with rfl | isOpen
    · change receipt ≤ _
      omega
    · have := kept.numbered copy isOpen
      omega
  · intro copy isOpen
    rw [same]
    rcases List.mem_cons.mp isOpen with rfl | isOpen
    · exact kept.assigned tp p.generation p.unfinished (by simp [Tracker.ledger, found])
    · exact kept.dated copy isOpen
  · intro other copy here
    rw [made] at here
    rw [same]
    rcases FastMap.lookup_insert_cases here with ⟨-, rfl⟩ | ⟨-, before⟩
    · exact kept.assigned tp p.generation p.unfinished (by simp [Tracker.ledger, found])
    · exact kept.heldDated other copy before
  · intro other generation unfinished owned
    rw [same]
    rw [ledger] at owned
    split at owned
    · obtain ⟨rfl, -⟩ := Prod.mk.inj (Option.some.inj owned)
      exact kept.assigned tp p.generation p.unfinished (by simp [Tracker.ledger, found])
    · exact kept.assigned other generation unfinished owned
  · intro other generation unfinished owned place
    rw [ledger] at owned
    rw [copiesAt_cons]
    split at owned
    · rename_i equal
      subst equal
      obtain ⟨rfl, rfl⟩ := Prod.mk.inj (Option.some.inj owned)
      have before := kept.counted other p.generation p.unfinished
        (by simp [Tracker.ledger, found])
      by_cases here : place = offset
      · subst here
        rw [if_pos ⟨rfl, rfl, rfl⟩]
        exact deliver_unfinished p place (before place)
      · rw [if_neg fun there => here there.2.2.symm, deliver_other p here, before place,
          Nat.add_zero]
    · rename_i elsewhere
      rw [if_neg fun there => elsewhere there.1.symm, Nat.add_zero]
      exact kept.counted other generation unfinished owned place

theorem Stocked.deliver (kept : Kept t shelf handed returned writes opens)
    (stocked : Stocked t shelf handed writes opens) (found : t.partitions.lookup tp = some p)
    (delivered : t.deliver tp offset = some (receipt, t')) :
    Stocked t' (receipt :: shelf) handed writes
      (⟨tp, offset, p.generation, receipt⟩ :: opens) := by
  have holds := Tracker.deliver_holds found delivered
  obtain ⟨-, -, minted, -⟩ := Tracker.deliver_some delivered
  refine ⟨fun other copy held => ?_, fun copy isOpen now => ?_⟩
  · rw [holds] at held
    split at held
    · rename_i equal
      rw [equal]
      exact .inl List.mem_cons_self
    · exact (stocked.shelved other copy held).imp_left (List.mem_cons_of_mem _)
  · rw [holds]
    rcases List.mem_cons.mp isOpen with rfl | isOpen
    · exact .inl (if_pos rfl)
    · rw [Tracker.deliver_current delivered] at now
      have := kept.numbered copy isOpen
      rw [if_neg (by omega)]
      exact stocked.carried copy isOpen now

/-! ## Settling writes -/

theorem Kept.release (kept : Kept t shelf handed returned writes opens)
    (held : t.holds receipt = some copy) :
    Kept { t with held := t.held.erase receipt } shelf handed returned (copy :: writes)
      opens := by
  have holds {other found}
      (still : ({ t with held := t.held.erase receipt } : Tracker).holds other = some found) :
      other ≠ receipt ∧ t.holds other = some found := by
    rw [Tracker.holds_erase] at still
    split at still
    · cases still
    · rename_i different
      exact ⟨different, still⟩
  refine ⟨kept.once, kept.given, kept.minted, ?_, ?_, ?_, ?_, ?_, kept.distinct,
    kept.numbered, kept.dated, ?_, kept.assigned, kept.counted⟩
  · exact fun other found still => kept.named other found (holds still).2
  · exact fun other found still => kept.heldOpen other found (holds still).2
  · intro other found still write
    obtain ⟨different, before⟩ := holds still
    rcases List.mem_cons.mp write with rfl | write
    · exact different ((kept.named other found before).symm.trans
        (kept.named receipt found held))
    · exact kept.heldApart other found before write
  · intro other write
    rcases List.mem_cons.mp write with rfl | write
    · exact kept.heldOpen receipt other held
    · exact kept.carried other write
  · exact List.nodup_cons.mpr ⟨kept.heldApart receipt copy held, kept.apart⟩
  · intro other found here
    by_cases equal : other = receipt
    · subst equal
      simp at here
    · change (t.held.erase receipt).lookup other = _ at here
      rw [AList.lookup_erase_ne equal] at here
      exact kept.heldDated other found here

theorem Stocked.release (stocked : Stocked t shelf handed writes opens)
    (held : t.holds receipt = some copy)
    (others : ∀ other, other ≠ receipt → other ∈ shelf ∨ other ∈ handed →
      other ∈ shelf' ∨ other ∈ handed') :
    Stocked { t with held := t.held.erase receipt } shelf' handed' (copy :: writes) opens := by
  refine ⟨fun other found still => ?_, fun other isOpen now => ?_⟩
  · rw [Tracker.holds_erase] at still
    split at still
    · cases still
    · rename_i different
      exact others other different (stocked.shelved other found still)
  · rcases stocked.carried other isOpen now with before | write
    · rw [Tracker.holds_erase]
      split
      · rename_i equal
        rw [equal, held] at before
        rw [← Option.some.inj before]
        exact .inr List.mem_cons_self
      · exact .inl before
    · exact .inr (List.mem_cons_of_mem _ write)

theorem Kept.complete (kept : Kept t shelf handed returned (copy :: writes) opens) :
    Kept (t.complete copy) shelf handed returned writes (without opens copy.receipt) := by
  obtain ⟨generation, nextReceipt, heldSame⟩ := t.complete_eq copy
  have isOpen := kept.carried copy List.mem_cons_self
  have apart := List.nodup_cons.mp kept.apart
  have determined : ∀ other ∈ opens, other.receipt = copy.receipt → other = copy :=
    fun other there equal => List.inj_on_of_nodup_map kept.distinct there isOpen equal
  refine ⟨kept.once, kept.given, ?_, ?_, ?_, ?_, ?_, apart.2, ?_, ?_, ?_, ?_, ?_,
    kept.counted.complete kept.distinct isOpen⟩
  · rw [nextReceipt]
    exact kept.minted
  · intro receipt found held
    rw [Tracker.complete_holds] at held
    exact kept.named receipt found held
  · intro receipt found held
    rw [Tracker.complete_holds] at held
    refine mem_without.mpr ⟨kept.heldOpen receipt found held, fun equal => ?_⟩
    have same := determined found (kept.heldOpen receipt found held) equal
    exact kept.heldApart receipt found held (same ▸ List.mem_cons_self)
  · intro receipt found held write
    rw [Tracker.complete_holds] at held
    exact kept.heldApart receipt found held (List.mem_cons_of_mem _ write)
  · intro other write
    have there := kept.carried other (List.mem_cons_of_mem _ write)
    refine mem_without.mpr ⟨there, fun equal => ?_⟩
    exact apart.1 (determined other there equal ▸ write)
  · exact kept.distinct.sublist (List.filter_sublist.map _)
  · intro other there
    rw [nextReceipt]
    exact kept.numbered other (mem_without.mp there).1
  · intro other there
    rw [generation]
    exact kept.dated other (mem_without.mp there).1
  · rw [heldSame, generation]
    exact kept.heldDated
  · intro tp date unfinished owned
    have sameDate := t.complete_generation copy tp
    rw [owned] at sameDate
    rw [generation]
    cases before : t.ledger tp with
    | none => rw [before] at sameDate; cases sameDate
    | some entry =>
      rw [before] at sameDate
      have bound := kept.assigned tp entry.1 entry.2 before
      have equal : date = entry.1 := Option.some.inj sameDate
      omega

theorem Stocked.complete (kept : Kept t shelf handed returned (copy :: writes) opens)
    (stocked : Stocked t shelf handed (copy :: writes) opens) :
    Stocked (t.complete copy) shelf handed writes (without opens copy.receipt) := by
  refine ⟨fun receipt found held => ?_, fun other there now => ?_⟩
  · rw [Tracker.complete_holds] at held
    exact stocked.shelved receipt found held
  · obtain ⟨isOpen, different⟩ := mem_without.mp there
    rw [Tracker.complete_current] at now
    rw [Tracker.complete_holds]
    refine (stocked.carried other isOpen now).imp_right fun write => ?_
    rcases List.mem_cons.mp write with rfl | write
    · exact absurd rfl different
    · exact write

/-! ## Redeliveries -/

theorem Tracker.replaceOne_eq (held : t.holds receipt = some copy) :
    t.replaceOne receipt = Tracker.complete { t with held := t.held.erase receipt } copy := by
  unfold Tracker.replaceOne
  rw [(Tracker.holds_eq_some.mp held).1]

theorem Tracker.replaceOne_holds (held : t.holds receipt = some copy) (other : Nat) :
    (t.replaceOne receipt).holds other = if other = receipt then none else t.holds other := by
  rw [Tracker.replaceOne_eq held, Tracker.complete_holds, Tracker.holds_erase]

theorem Kept.replaceOne (kept : Kept t shelf handed returned writes opens)
    (held : t.holds receipt = some copy) :
    Kept (t.replaceOne receipt) shelf handed returned writes (without opens receipt) := by
  have finished := (kept.release held).complete
  rw [← Tracker.replaceOne_eq held, kept.named receipt copy held] at finished
  exact finished

/-- The copies that stay open when those of `receipts` are finished. -/
def withoutAll (opens : List Position) (receipts : List Nat) : List Position :=
  receipts.foldl without opens

theorem mem_withoutAll : ∀ {opens : List Position},
    copy ∈ withoutAll opens receipts ↔ copy ∈ opens ∧ copy.receipt ∉ receipts := by
  induction receipts with
  | nil => simp [withoutAll]
  | cons receipt receipts ih =>
    intro opens
    change copy ∈ withoutAll (without opens receipt) receipts ↔ _
    rw [ih, mem_without, List.mem_cons, not_or, and_assoc]

theorem Kept.replaceAll : ∀ {t : Tracker} {opens : List Position},
    Kept t shelf handed returned writes opens → receipts.Nodup →
    (∀ receipt ∈ receipts, (t.holds receipt).isSome) →
    Kept (receipts.foldl Tracker.replaceOne t) shelf handed returned writes
        (withoutAll opens receipts) ∧
      ∀ receipt, (receipts.foldl Tracker.replaceOne t).holds receipt =
        if receipt ∈ receipts then none else t.holds receipt := by
  induction receipts with
  | nil => exact fun kept _ _ => ⟨kept, fun _ => rfl⟩
  | cons receipt receipts ih =>
    intro t opens kept distinct held
    obtain ⟨copy, found⟩ := Option.isSome_iff_exists.mp (held receipt List.mem_cons_self)
    have apart := List.nodup_cons.mp distinct
    have once := Tracker.replaceOne_holds found
    have others : ∀ other ∈ receipts, ((t.replaceOne receipt).holds other).isSome := by
      intro other member
      have different : other ≠ receipt := fun equal => apart.1 (equal ▸ member)
      rw [once, if_neg different]
      exact held other (List.mem_cons_of_mem _ member)
    obtain ⟨after, holds⟩ := ih (kept.replaceOne found) apart.2 others
    refine ⟨after, fun other => ?_⟩
    rw [List.foldl_cons, holds, once]
    by_cases here : other = receipt <;> by_cases later : other ∈ receipts <;>
      simp [here, later]

theorem Tracker.replaceAll_same (receipts : List Nat) : ∀ t : Tracker,
    (receipts.foldl Tracker.replaceOne t).nextReceipt = t.nextReceipt ∧
      ∀ tp, ((receipts.foldl Tracker.replaceOne t).ledger tp).map (·.1) =
        (t.ledger tp).map (·.1) := by
  induction receipts with
  | nil => exact fun _ => ⟨rfl, fun _ => rfl⟩
  | cons receipt receipts ih =>
    intro t
    have once : (t.replaceOne receipt).nextReceipt = t.nextReceipt ∧
        ∀ tp, ((t.replaceOne receipt).ledger tp).map (·.1) = (t.ledger tp).map (·.1) := by
      unfold Tracker.replaceOne
      split
      · rename_i position found
        exact ⟨(Tracker.complete_eq _ position).2.1, Tracker.complete_generation _ position⟩
      · exact ⟨rfl, fun _ => rfl⟩
    obtain ⟨next, ledger⟩ := ih (t.replaceOne receipt)
    exact ⟨next.trans once.1, fun tp => (ledger tp).trans (once.2 tp)⟩

theorem Stocked.replaceAll (stocked : Stocked t shelf handed writes opens)
    (holds : ∀ receipt, (receipts.foldl Tracker.replaceOne t).holds receipt =
      if receipt ∈ receipts then none else t.holds receipt)
    (others : ∀ other, other ∉ receipts → other ∈ shelf ∨ other ∈ handed →
      other ∈ shelf' ∨ other ∈ handed') :
    Stocked (receipts.foldl Tracker.replaceOne t) shelf' handed' writes
      (withoutAll opens receipts) := by
  refine ⟨fun receipt copy held => ?_, fun copy isOpen now => ?_⟩
  · rw [holds] at held
    split at held
    · cases held
    · rename_i kept
      exact others receipt kept (stocked.shelved receipt copy held)
  · obtain ⟨before, kept⟩ := mem_withoutAll.mp isOpen
    rw [Tracker.current_congr (Tracker.replaceAll_same receipts t).2] at now
    rw [holds, if_neg kept]
    exact stocked.carried copy before now

theorem Tracker.replaceCopies_spec (t : Tracker) (tp : Tp) (offset : Int) :
    (t.replaceCopies tp offset).2 =
        (t.replaceCopies tp offset).1.foldl Tracker.replaceOne t ∧
      (t.replaceCopies tp offset).1.Nodup ∧
      ∀ receipt ∈ (t.replaceCopies tp offset).1, ∃ copy, t.holds receipt = some copy ∧
        copy.tp = tp ∧ copy.offset = offset := by
  unfold Tracker.replaceCopies
  split
  · exact ⟨rfl, List.nodup_nil, nofun⟩
  · rename_i p found
    split
    · refine ⟨rfl, ?_, ?_⟩
      · have keys : (t.held.entries.map (·.1)).Nodup := t.held.nodupKeys
        exact keys.sublist (List.filter_sublist.map _)
      · intro receipt member
        obtain ⟨entry, selected, rfl⟩ := List.mem_map.mp member
        obtain ⟨there, here⟩ := List.mem_filter.mp selected
        simp only [decide_eq_true_eq] at here
        refine ⟨entry.2, Tracker.holds_eq_some.mpr ⟨?_, ?_⟩, here.1, here.2.1⟩
        · exact (FastMap.lookup_eq_some_iff_mem t.held entry.1 entry.2).mpr there
        · rw [Tracker.current, here.1, found]
          simp [here.2.2]
    · exact ⟨rfl, List.nodup_nil, nofun⟩

theorem Kept.hand {out : List Nat} (kept : Kept t (out ++ shelf) handed returned writes opens)
    (given : ∀ receipt ∈ handed', receipt ∈ handed ∨ receipt ∈ out) :
    Kept t shelf handed' (returned ++ out) writes opens where
  once := fun receipt => by
    have := kept.once receipt
    rw [List.count_append] at this ⊢
    omega
  given := fun receipt member => by
    rw [List.mem_append]
    exact (given receipt member).imp_left (kept.given receipt)
  minted := fun receipt new => by
    obtain ⟨left, right⟩ := kept.minted receipt new
    rw [List.mem_append, not_or] at left ⊢
    exact ⟨left.2, right, left.1⟩
  named := kept.named
  heldOpen := kept.heldOpen
  heldApart := kept.heldApart
  carried := kept.carried
  apart := kept.apart
  distinct := kept.distinct
  numbered := kept.numbered
  dated := kept.dated
  heldDated := kept.heldDated
  assigned := kept.assigned
  counted := kept.counted

end Kept

end Spate.Kafka
