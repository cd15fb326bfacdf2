import Mathlib.Data.String.Basic
import Spate.FastMap
import Spate.TreeMaps

set_option autoImplicit false

/- The delivered offsets each owned partition has not finished, and how far each
partition may commit (`spate-kafka/src/feed/inflight.rs`). Offsets, `i64`s in the source,
are integers: a delivered one is taken to be below `i64::MAX`, so that the next one is one
more. A logical offset, such as `Offset::Invalid`, is `none`. -/
namespace Spate.Kafka

open Std (TreeMap)

structure Tp where
  topic : String
  partition : Int
  deriving DecidableEq, Repr

/-- One delivered message: where it lies and the generation of the assignment it was
delivered under. The number of its receipt is kept with it for the history alone: no
function of the feed reads it. -/
structure Position where
  tp : Tp
  offset : Int
  generation : Nat
  receipt : Nat
  deriving DecidableEq, Repr

/-- What the tracker keeps for one owned partition: the copies of each delivered offset
still unfinished, one past the offset delivered or retired last, and the commit point
taken last. -/
structure Partition where
  generation : Nat
  unfinished : TreeMap Int Nat
  next : Option Int
  taken : Option Int

def Partition.commitPoint (p : Partition) : Option Int :=
  match p.unfinished.minKey? with
  | some first => some (p.next.elim first fun n => min n first)
  | none => p.next

def Partition.fresh (generation : Nat) : Partition := ⟨generation, ∅, none, none⟩

/-- One more copy of `offset`, and the consumer reads on behind it. -/
def Partition.deliver (p : Partition) (offset : Int) : Partition :=
  { p with
    unfinished := p.unfinished.insert offset ((p.unfinished[offset]?).getD 0 + 1)
    next := some (offset + 1) }

def Partition.finish (p : Partition) (offset : Int) : Partition :=
  match p.unfinished[offset]? with
  | none => p
  | some copies =>
    { p with
      unfinished :=
        if copies - 1 = 0 then p.unfinished.erase offset
        else p.unfinished.insert offset (copies - 1) }

/-- The last offset no record holds when the position reads `position` and everything
below `coveredTo` is accounted for (`client.rs`). -/
def offsetToRetire (position coveredTo : Option Int) : Option Int :=
  match position with
  | none => none
  | some position => if coveredTo.getD 0 < position then some (position - 1) else none

/-- The delivered and unfinished offsets of every partition the feed owns, and the
deliveries the reader holds, by receipt. -/
structure Tracker where
  generation : Nat
  nextReceipt : Nat
  partitions : FastMap Tp Partition
  held : FastMap Nat Position

namespace Tracker

def empty : Tracker := ⟨0, 0, ∅, ∅⟩

/-- Takes ownership of `tps` under a new generation, with nothing delivered. -/
def assign (t : Tracker) (tps : List Tp) : Tracker :=
  { t with
    generation := t.generation + 1
    partitions := FastMap.insertAll tps (.fresh (t.generation + 1)) t.partitions }

def revokeEach : List Tp → FastMap Tp Partition → FastMap Tp Partition × List (Tp × Int)
  | [], partitions => (partitions, [])
  | tp :: tps, partitions =>
    match partitions.lookup tp with
    | none => revokeEach tps partitions
    | some p =>
      let rest := revokeEach tps (partitions.erase tp)
      match p.commitPoint with
      | some point => (rest.1, (tp, point) :: rest.2)
      | none => rest

def revoke (t : Tracker) (tps : List Tp) : List (Tp × Int) × Tracker :=
  ((revokeEach tps t.partitions).2,
    { t with
      generation := t.generation + 1
      partitions := (revokeEach tps t.partitions).1 })

def unassignAll (t : Tracker) : Tracker :=
  { t with generation := t.generation + 1, partitions := ∅ }

def deliver (t : Tracker) (tp : Tp) (offset : Int) : Option (Nat × Tracker) :=
  match t.partitions.lookup tp with
  | none => none
  | some p =>
    some (t.nextReceipt + 1,
      { t with
        nextReceipt := t.nextReceipt + 1
        partitions := t.partitions.insert tp (p.deliver offset)
        held := t.held.insert (t.nextReceipt + 1)
          ⟨tp, offset, p.generation, t.nextReceipt + 1⟩ })

/-- Whether `position` was delivered under its partition's current assignment. -/
def current (t : Tracker) (position : Position) : Bool :=
  match t.partitions.lookup position.tp with
  | some p => p.generation = position.generation
  | none => false

/-- The position a held receipt names (`Tracker::held`). A receipt whose partition was
revoked or reassigned since is dropped. -/
def heldBy (t : Tracker) (receipt : Nat) : Option Position × Tracker :=
  match t.held.lookup receipt with
  | none => (none, t)
  | some position =>
    if t.current position then (some position, t)
    else (none, { t with held := t.held.erase receipt })

/-- Takes a held delivery from the reader, for a write that finishes its offset. -/
def release (t : Tracker) (receipt : Nat) : Option Position × Tracker :=
  match t.held.lookup receipt with
  | none => (none, t)
  | some position =>
    (if t.current position then some position else none,
      { t with held := t.held.erase receipt })

/-- Finishes `position` once its write is confirmed, unless its partition was revoked or
reassigned since; the source's answer is `current`. -/
def complete (t : Tracker) (position : Position) : Tracker :=
  match t.partitions.lookup position.tp with
  | some p =>
    if p.generation = position.generation then
      { t with partitions := t.partitions.insert position.tp (p.finish position.offset) }
    else t
  | none => t

/-- Raises the next offset of `tp` to the consumer's position `readTo`. -/
def retireTo (t : Tracker) (tp : Tp) (readTo : Option Int) : Tracker :=
  match t.partitions.lookup tp with
  | none => t
  | some p =>
    match offsetToRetire readTo p.next with
    | none => t
    | some last =>
      { t with partitions := t.partitions.insert tp { p with next := some (last + 1) } }

/-- The commit point of `p`, if it moved since it was taken last. -/
def moved (p : Partition) : Option Int :=
  match p.commitPoint with
  | some point => if p.taken = some point then none else some point
  | none => none

def takeCommits (t : Tracker) : List (Tp × Int) × Tracker :=
  (t.partitions.entries.filterMap fun entry =>
      (moved entry.2).map fun point => (entry.1, point),
    { t with
      partitions := FastMap.mapValues
        (fun _ p =>
          match moved p with
          | some point => { p with taken := some point }
          | none => p)
        t.partitions })

def untakeOne (t : Tracker) (point : Tp × Int) : Tracker :=
  match t.partitions.lookup point.1 with
  | some p =>
    if p.taken = some point.2 then
      { t with partitions := t.partitions.insert point.1 { p with taken := none } }
    else t
  | none => t

def untake (t : Tracker) (points : List (Tp × Int)) : Tracker := points.foldl untakeOne t

def owned (t : Tracker) : List Tp := t.partitions.keys

/-- Removes a held receipt and finishes its copy. -/
def replaceOne (t : Tracker) (receipt : Nat) : Tracker :=
  match t.held.lookup receipt with
  | some position => complete { t with held := t.held.erase receipt } position
  | none => t

/-- Replaces every held copy of `offset` with the delivery about to be made, and returns
their receipts. -/
def replaceCopies (t : Tracker) (tp : Tp) (offset : Int) : List Nat × Tracker :=
  match t.partitions.lookup tp with
  | none => ([], t)
  | some p =>
    if p.unfinished.contains offset then
      let replaced := (t.held.entries.filter fun entry =>
        entry.2.tp = tp ∧ entry.2.offset = offset ∧
          entry.2.generation = p.generation).map (·.1)
      (replaced, replaced.foldl replaceOne t)
    else ([], t)

/-! ## What a receipt names -/

/-- The position a receipt holds under its partition's current assignment. -/
def holds (t : Tracker) (receipt : Nat) : Option Position :=
  (t.held.lookup receipt).filter t.current

variable {t t' : Tracker}

theorem holds_eq_some {receipt : Nat} {position : Position} :
    t.holds receipt = some position ↔
      t.held.lookup receipt = some position ∧ t.current position = true := by
  simp [holds, Option.filter_eq_some_iff]

/-- The generation of `tp`'s assignment, and the unfinished copies under it. -/
def ledger (t : Tracker) (tp : Tp) : Option (Nat × TreeMap Int Nat) :=
  (t.partitions.lookup tp).map fun p => (p.generation, p.unfinished)

theorem current_iff {position : Position} :
    t.current position = true ↔
      ∃ unfinished, t.ledger position.tp = some (position.generation, unfinished) := by
  unfold current ledger
  cases t.partitions.lookup position.tp with
  | none | some => simp

theorem current_eq (t : Tracker) (position : Position) :
    t.current position =
      decide ((t.ledger position.tp).map (·.1) = some position.generation) := by
  unfold current ledger
  cases t.partitions.lookup position.tp <;> simp

theorem current_congr (same : ∀ tp, (t'.ledger tp).map (·.1) = (t.ledger tp).map (·.1))
    (position : Position) : t'.current position = t.current position := by
  rw [current_eq, current_eq, same]

theorem holds_congr (held : t'.held = t.held)
    (same : ∀ tp, (t'.ledger tp).map (·.1) = (t.ledger tp).map (·.1)) (receipt : Nat) :
    t'.holds receipt = t.holds receipt := by
  unfold holds
  rw [held, funext (current_congr same)]

/-- Two trackers that answer every question about ownership, receipts and unfinished
copies alike. -/
structure Alike (t t' : Tracker) : Prop where
  generation : t'.generation = t.generation
  nextReceipt : t'.nextReceipt = t.nextReceipt
  ledger : ∀ tp, t'.ledger tp = t.ledger tp
  holds : ∀ receipt, t'.holds receipt = t.holds receipt
  held : ∀ receipt copy, t'.held.lookup receipt = some copy → t.held.lookup receipt = some copy

theorem Alike.refl (t : Tracker) : Alike t t :=
  ⟨rfl, rfl, fun _ => rfl, fun _ => rfl, fun _ _ => id⟩

theorem Alike.trans {t'' : Tracker} (first : Alike t t') (second : Alike t' t'') : Alike t t'' :=
  ⟨second.generation.trans first.generation, second.nextReceipt.trans first.nextReceipt,
    fun tp => (second.ledger tp).trans (first.ledger tp),
    fun receipt => (second.holds receipt).trans (first.holds receipt),
    fun receipt copy found => first.held receipt copy (second.held receipt copy found)⟩

theorem Alike.current (alike : Alike t t') (position : Position) :
    t'.current position = t.current position :=
  current_congr (fun tp => by rw [alike.ledger tp]) position

theorem alike_of_ledger (generation : t'.generation = t.generation)
    (nextReceipt : t'.nextReceipt = t.nextReceipt) (held : t'.held = t.held)
    (ledger : ∀ tp, t'.ledger tp = t.ledger tp) : Alike t t' :=
  ⟨generation, nextReceipt, ledger,
    holds_congr held fun tp => by rw [ledger tp], fun _ _ found => held ▸ found⟩

theorem ledger_insert (t : Tracker) (tp other : Tp) (p : Partition) :
    ({ t with partitions := t.partitions.insert tp p } : Tracker).ledger other =
      if other = tp then some (p.generation, p.unfinished) else t.ledger other := by
  unfold ledger
  by_cases same : other = tp
  · subst same
    simp
  · rw [if_neg same]
    change ((t.partitions.insert tp p).lookup other).map _ = _
    rw [AList.lookup_insert_ne same]

theorem alike_insert {tp : Tp} {p p' : Partition} (found : t.partitions.lookup tp = some p)
    (generation : p'.generation = p.generation) (unfinished : p'.unfinished = p.unfinished) :
    Alike t { t with partitions := t.partitions.insert tp p' } := by
  refine alike_of_ledger rfl rfl rfl fun other => ?_
  rw [ledger_insert]
  split
  · rename_i same
    rw [same, generation, unfinished]
    simp [ledger, found]
  · rfl

theorem retireTo_alike (t : Tracker) (tp : Tp) (readTo : Option Int) :
    Alike t (t.retireTo tp readTo) := by
  unfold retireTo
  split
  · exact .refl t
  · rename_i p found
    split
    · exact .refl t
    · exact alike_insert found rfl rfl

theorem takeCommits_alike (t : Tracker) : Alike t t.takeCommits.2 := by
  refine alike_of_ledger rfl rfl rfl fun tp => ?_
  unfold ledger takeCommits
  rw [FastMap.lookup_mapValues, Option.map_map]
  apply congrArg (fun f => Option.map f (t.partitions.lookup tp))
  funext p
  simp only [Function.comp_apply]
  split <;> rfl

theorem untakeOne_alike (t : Tracker) (point : Tp × Int) : Alike t (t.untakeOne point) := by
  unfold untakeOne
  split
  · rename_i p found
    split
    · exact alike_insert found rfl rfl
    · exact .refl t
  · exact .refl t

theorem untake_alike (points : List (Tp × Int)) : ∀ t : Tracker, Alike t (t.untake points) := by
  induction points with
  | nil => exact .refl
  | cons point points ih => exact fun t => (untakeOne_alike t point).trans (ih _)

theorem holds_erase (t : Tracker) (receipt other : Nat) :
    ({ t with held := t.held.erase receipt } : Tracker).holds other =
      if other = receipt then none else t.holds other := by
  unfold holds
  by_cases same : other = receipt
  · subst same
    simp
  · rw [if_neg same]
    change ((t.held.erase receipt).lookup other).filter t.current = _
    rw [AList.lookup_erase_ne same]

theorem erase_stale {receipt : Nat} (stale : t.holds receipt = none) :
    Alike t { t with held := t.held.erase receipt } := by
  refine ⟨rfl, rfl, fun _ => rfl, fun other => ?_, fun other copy found => ?_⟩
  · rw [holds_erase]
    split
    · rename_i same
      rw [same, stale]
    · rfl
  · by_cases same : other = receipt
    · subst same
      simp at found
    · change (t.held.erase receipt).lookup other = _ at found
      rwa [AList.lookup_erase_ne same] at found

theorem heldBy_fst (t : Tracker) (receipt : Nat) : (t.heldBy receipt).1 = t.holds receipt := by
  unfold heldBy holds
  cases t.held.lookup receipt with
  | none => rfl
  | some position => cases now : t.current position <;> simp [Option.filter, now]

theorem heldBy_alike (t : Tracker) (receipt : Nat) : Alike t (t.heldBy receipt).2 := by
  unfold heldBy
  split
  · exact .refl t
  · rename_i position found
    split
    · exact .refl t
    · rename_i stale
      apply erase_stale
      simp [holds, found, stale]

theorem release_fst (t : Tracker) (receipt : Nat) : (t.release receipt).1 = t.holds receipt := by
  unfold release holds
  cases t.held.lookup receipt with
  | none => rfl
  | some position => cases now : t.current position <;> simp [Option.filter, now]

theorem release_snd (t : Tracker) (receipt : Nat) :
    (t.release receipt).2 = { t with held := t.held.erase receipt } := by
  unfold release
  split
  · rename_i absent
    have same : t.held.erase receipt = t.held := by
      apply AList.ext
      exact List.kerase_of_notMem_keys (AList.lookup_eq_none.mp absent)
    rw [same]
  · rfl

/-- Keeps the elements whose receipt is held, dropping stale receipts on the way: a
`retain` with `Tracker::held` as its test. -/
def retain {α : Type} (receipt : α → Nat) : List α → Tracker → List α × Tracker
  | [], t => ([], t)
  | x :: xs, t =>
    match t.heldBy (receipt x) with
    | (some _, t) => (x :: (retain receipt xs t).1, (retain receipt xs t).2)
    | (none, t) => retain receipt xs t

theorem retain_spec {α : Type} (receipt : α → Nat) (xs : List α) : ∀ t : Tracker,
    (retain receipt xs t).1 = xs.filter (fun x => (t.holds (receipt x)).isSome) ∧
      Alike t (retain receipt xs t).2 := by
  induction xs with
  | nil => exact fun t => ⟨rfl, .refl t⟩
  | cons x xs ih =>
    intro t
    have answer := heldBy_fst t (receipt x)
    have alike := heldBy_alike t (receipt x)
    unfold retain
    generalize t.heldBy (receipt x) = asked at answer alike
    obtain ⟨found, t'⟩ := asked
    obtain ⟨kept, rest⟩ := ih t'
    have same : xs.filter (fun x => (t'.holds (receipt x)).isSome) =
        xs.filter (fun x => (t.holds (receipt x)).isSome) := by
      congr 1
      funext y
      rw [alike.holds]
    cases found with
    | none =>
      refine ⟨?_, alike.trans rest⟩
      change (retain receipt xs t').1 = _
      rw [kept, same, List.filter_cons, ← answer]
      rfl
    | some position =>
      refine ⟨?_, alike.trans rest⟩
      change x :: (retain receipt xs t').1 = _
      rw [kept, same, List.filter_cons, ← answer]
      rfl

end Tracker

end Spate.Kafka
