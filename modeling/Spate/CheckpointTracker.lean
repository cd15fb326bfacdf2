import Mathlib.Data.List.TakeWhile

set_option autoImplicit false

/- Per-partition contiguity tracking of batch acknowledgments
(`checkpoint/tracker.rs`). Sequence numbers are natural numbers, offsets are `i64` words:
one past `i64::MAX` is `i64::MIN`, as in a build without overflow checks (with them the
addition panics). An instant is the clock's reading at the call. -/
namespace Spate.Checkpoint

/-- Resolution status of a batch: once any record fails, the batch is failed. -/
inductive AckStatus
  | delivered
  | failed
  deriving DecidableEq, Repr

/-- Result of applying one resolution to the tracker. -/
inductive ResolveOutcome
  | applied
  | duplicate
  | alreadyAdvanced
  | unregistered
  deriving DecidableEq, Repr

inductive SlotState
  | pending
  | delivered
  | failed
  deriving DecidableEq, Repr

/-- The state a resolution moves a pending slot to. -/
def AckStatus.slotState : AckStatus → SlotState
  | .delivered => .delivered
  | .failed => .failed

@[simp] theorem AckStatus.slotState_ne_pending (status : AckStatus) :
    status.slotState ≠ .pending := by
  cases status <;> simp [AckStatus.slotState]

theorem AckStatus.slotState_injective {left right : AckStatus}
    (same : left.slotState = right.slotState) : left = right := by
  cases left <;> cases right <;> first | rfl | cases same

theorem SlotState.exists_status {state : SlotState} (settled : state ≠ .pending) :
    ∃ status : AckStatus, state = status.slotState := by
  cases state with
  | pending => exact absurd rfl settled
  | delivered => exact ⟨.delivered, rfl⟩
  | failed => exact ⟨.failed, rfl⟩

theorem toInt_add_one {offset : Int64} (below : offset < Int64.maxValue) :
    (offset + 1).toInt = offset.toInt + 1 := by
  rw [Int64.lt_iff_toInt_lt] at below
  have least := offset.le_toInt
  have one : (1 : Int64).toInt = 1 := rfl
  have most : Int64.maxValue.toInt = 9223372036854775807 := rfl
  rw [Int64.toInt_add]
  apply Int.bmod_eq_of_le <;> omega

structure Slot where
  lastOffset : Int64
  state : SlotState
  deriving DecidableEq, Repr

/-- What every tracker keeps: the window ends at the next expected sequence, a
stall has both its instant and its sequence, and a stall is at a failed head. -/
structure TrackerInvariant (headSeq nextSeq : Nat) (ring : List Slot)
    (stalledSince stalledSeq : Option Nat) : Prop where
  extent : nextSeq = headSeq + ring.length
  latched : stalledSince.isSome = stalledSeq.isSome
  blocked : ∀ seq, stalledSeq = some seq →
    seq = headSeq ∧ ∃ slot, ring.head? = some slot ∧ slot.state = .failed

theorem TrackerInvariant.push {headSeq nextSeq : Nat} {ring : List Slot}
    {since stalled : Option Nat} (valid : TrackerInvariant headSeq nextSeq ring since stalled)
    (slot : Slot) :
    TrackerInvariant headSeq (nextSeq + 1) (ring ++ [slot]) since stalled := by
  refine ⟨?_, valid.latched, ?_⟩
  · have extent := valid.extent
    simp only [List.length_append, List.length_singleton]
    omega
  · intro seq latched
    obtain ⟨same, first, atHead, failed⟩ := valid.blocked seq latched
    exact ⟨same, first, by simp [List.head?_append, atHead], failed⟩

theorem TrackerInvariant.set {headSeq nextSeq : Nat} {ring : List Slot}
    {since stalled : Option Nat} (valid : TrackerInvariant headSeq nextSeq ring since stalled)
    (index : Nat) (old new : Slot) (found : ring[index]? = some old)
    (isPending : old.state = .pending) :
    TrackerInvariant headSeq nextSeq (ring.set index new) since stalled := by
  refine ⟨by rw [List.length_set]; exact valid.extent, valid.latched, ?_⟩
  intro seq latched
  obtain ⟨same, first, atHead, failed⟩ := valid.blocked seq latched
  refine ⟨same, first, ?_, failed⟩
  cases index with
  | zero =>
    -- A pending head contradicts the stall.
    rw [List.head?_eq_getElem?, found] at atHead
    obtain rfl := Option.some.inj atHead
    rw [isPending] at failed
    cases failed
  | succ index => rw [List.head?_eq_getElem?, List.getElem?_set_ne (by omega),
      ← List.head?_eq_getElem?, atHead]

/-- Contiguity tracker for one partition within one assignment epoch. -/
structure PartitionTracker where
  headSeq : Nat
  nextSeq : Nat
  ring : List Slot
  /-- Set when a failed batch reaches the head of the ring; permanent. -/
  stalledSince : Option Nat
  /-- Sequence of the failed batch that caused the stall. -/
  stalledSeq : Option Nat
  valid : TrackerInvariant headSeq nextSeq ring stalledSince stalledSeq
  deriving DecidableEq

namespace PartitionTracker

variable {next : PartitionTracker} {seq k : Nat} {lastOffset : Int64} {slot : Slot}

theorem next_eq (t : PartitionTracker) : t.nextSeq = t.headSeq + t.ring.length :=
  t.valid.extent

def new : PartitionTracker :=
  ⟨0, 0, [], none, none, ⟨rfl, rfl, fun _ latched => nomatch latched⟩⟩

/-- Batches issued but not yet advanced through the watermark. -/
def pending (t : PartitionTracker) : Nat := t.ring.length

/-- Registers a newly issued batch; `none` is the panic on a sequence gap. -/
def register (t : PartitionTracker) (seq : Nat) (lastOffset : Int64) : Option PartitionTracker :=
  if seq = t.nextSeq then
    some { t with
      ring := t.ring ++ [⟨lastOffset, .pending⟩]
      nextSeq := t.nextSeq + 1
      valid := t.valid.push _ }
  else none

/-- Applies one resolution. An unknown or repeated sequence is reported and
changes nothing. -/
def resolve (t : PartitionTracker) (seq : Nat) (status : AckStatus) :
    ResolveOutcome × PartitionTracker :=
  if seq < t.headSeq then (.alreadyAdvanced, t)
  else
    match found : t.ring[seq - t.headSeq]? with
    | none => (.unregistered, t)
    | some slot =>
      if isPending : slot.state = .pending then
        (.applied, { t with
          ring := t.ring.set (seq - t.headSeq) { slot with state := status.slotState }
          valid := t.valid.set _ slot _ found isPending })
      else (.duplicate, t)

structure Advanced where
  committable : Option Int64
  headSeq : Nat
  ring : List Slot
  stalledSince : Option Nat
  stalledSeq : Option Nat

/-- The loop of `advance_on`: pops the delivered slots at the head, remembering
the offset past the last one, and latches the first stall. -/
def advanceLoop (now : Nat) (stalledSince stalledSeq : Option Nat) :
    Option Int64 → Nat → List Slot → Advanced
  | committable, headSeq, [] => ⟨committable, headSeq, [], stalledSince, stalledSeq⟩
  | committable, headSeq, slot :: rest =>
    match slot.state with
    | .delivered =>
      advanceLoop now stalledSince stalledSeq (some (slot.lastOffset + 1)) (headSeq + 1) rest
    | .failed =>
      if stalledSince.isNone then
        ⟨committable, headSeq, slot :: rest, some now, some headSeq⟩
      else ⟨committable, headSeq, slot :: rest, stalledSince, stalledSeq⟩
    | .pending => ⟨committable, headSeq, slot :: rest, stalledSince, stalledSeq⟩

theorem advanceLoop_valid (now : Nat) (since stalled : Option Nat) (ring : List Slot)
    (committable : Option Int64) (headSeq nextSeq : Nat)
    (valid : TrackerInvariant headSeq nextSeq ring since stalled) :
    let loop := advanceLoop now since stalled committable headSeq ring
    TrackerInvariant loop.headSeq nextSeq loop.ring loop.stalledSince loop.stalledSeq := by
  induction ring generalizing committable headSeq with
  | nil => exact valid
  | cons slot rest ih =>
    unfold advanceLoop
    cases kind : slot.state with
    | pending => exact valid
    | failed =>
      by_cases first : since.isNone
      · simp only [first, ↓reduceIte]
        refine ⟨valid.extent, rfl, ?_⟩
        intro seq latched
        exact ⟨(Option.some.inj latched).symm, slot, rfl, kind⟩
      · simp only [first, Bool.false_eq_true, ↓reduceIte]
        exact valid
    | delivered =>
      -- A stalled tracker has a failed head, so nothing is latched here.
      have unlatched : stalled = none := by
        cases latch : stalled with
        | none => rfl
        | some seq =>
          obtain ⟨_, first, atHead, failed⟩ := valid.blocked seq latch
          obtain rfl := Option.some.inj atHead
          rw [kind] at failed
          cases failed
      apply ih
      refine ⟨?_, valid.latched, ?_⟩
      · have extent := valid.extent
        simp only [List.length_cons] at extent
        omega
      · intro seq latched
        rw [unlatched] at latched
        cases latched

/-- Pops the contiguous delivered prefix and returns the new committable offset,
or `none` if the watermark did not move. -/
def advanceOn (t : PartitionTracker) (now : Nat) : Option Int64 × PartitionTracker :=
  let loop := advanceLoop now t.stalledSince t.stalledSeq none t.headSeq t.ring
  (loop.committable,
    { headSeq := loop.headSeq
      nextSeq := t.nextSeq
      ring := loop.ring
      stalledSince := loop.stalledSince
      stalledSeq := loop.stalledSeq
      valid := advanceLoop_valid now _ _ t.ring none t.headSeq t.nextSeq t.valid })

@[simp] theorem new_headSeq : new.headSeq = 0 := rfl

@[simp] theorem new_nextSeq : new.nextSeq = 0 := rfl

@[simp] theorem new_ring : new.ring = [] := rfl

theorem register_eq_some {t : PartitionTracker}
    (registered : t.register seq lastOffset = some next) :
    seq = t.nextSeq ∧ next.headSeq = t.headSeq ∧ next.nextSeq = t.nextSeq + 1 ∧
      next.ring = t.ring ++ [⟨lastOffset, .pending⟩] ∧
      next.stalledSince = t.stalledSince ∧ next.stalledSeq = t.stalledSeq := by
  unfold register at registered
  split at registered
  · rename_i expected
    obtain rfl := Option.some.inj registered
    exact ⟨expected, rfl, rfl, rfl, rfl, rfl⟩
  · cases registered

theorem register_eq_none {t : PartitionTracker} (gap : t.register seq lastOffset = none) :
    seq ≠ t.nextSeq := by
  unfold register at gap
  split at gap
  · cases gap
  · assumption

def slotAt (t : PartitionTracker) (seq : Nat) : Option Slot :=
  if seq < t.headSeq then none else t.ring[seq - t.headSeq]?

theorem slotAt_lt_nextSeq {t : PartitionTracker} (found : t.slotAt seq = some slot) :
    t.headSeq ≤ seq ∧ seq < t.nextSeq := by
  unfold slotAt at found
  split at found
  · cases found
  · have bound := (List.getElem?_eq_some_iff.mp found).1
    have := t.next_eq
    omega

theorem slotAt_isSome (t : PartitionTracker) (seq : Nat) (lower : t.headSeq ≤ seq)
    (upper : seq < t.nextSeq) : ∃ slot, t.slotAt seq = some slot := by
  have extent := t.next_eq
  have inside : seq - t.headSeq < t.ring.length := by omega
  refine ⟨t.ring[seq - t.headSeq], ?_⟩
  simp only [slotAt, show ¬ seq < t.headSeq by omega, ↓reduceIte]
  exact List.getElem?_eq_getElem inside

theorem slotAt_register {t : PartitionTracker}
    (registered : t.register seq lastOffset = some next) (k : Nat) :
    next.slotAt k = if k = t.nextSeq then some ⟨lastOffset, .pending⟩ else t.slotAt k := by
  obtain ⟨_, head, _, ring, _⟩ := register_eq_some registered
  have extent := t.next_eq
  simp only [slotAt, head, ring]
  by_cases same : k = t.nextSeq
  · have below : ¬ k < t.headSeq := by omega
    have index : k - t.headSeq = t.ring.length := by omega
    simp [same ▸ below, same ▸ index, same]
  · simp only [same, ↓reduceIte]
    split
    · rfl
    · by_cases inside : k - t.headSeq < t.ring.length
      · rw [List.getElem?_append_left inside]
      · rw [List.getElem?_eq_none (by simp only [List.length_append, List.length_singleton]; omega),
          List.getElem?_eq_none (by omega)]

theorem resolve_cases (t : PartitionTracker) (seq : Nat) (status : AckStatus) :
    ((t.resolve seq status).1 = .alreadyAdvanced ∧ (t.resolve seq status).2 = t ∧
        seq < t.headSeq) ∨
      ((t.resolve seq status).1 = .unregistered ∧ (t.resolve seq status).2 = t ∧
        t.nextSeq ≤ seq) ∨
      (∃ slot, (t.resolve seq status).1 = .duplicate ∧ (t.resolve seq status).2 = t ∧
        t.slotAt seq = some slot ∧ slot.state ≠ .pending) ∨
      (∃ slot, (t.resolve seq status).1 = .applied ∧ t.slotAt seq = some slot ∧
        slot.state = .pending ∧
        (t.resolve seq status).2.headSeq = t.headSeq ∧
        (t.resolve seq status).2.nextSeq = t.nextSeq ∧
        (t.resolve seq status).2.stalledSeq = t.stalledSeq ∧
        (t.resolve seq status).2.stalledSince = t.stalledSince ∧
        ∀ k, (t.resolve seq status).2.slotAt k =
          if k = seq then some { slot with state := status.slotState } else t.slotAt k) := by
  have extent := t.next_eq
  unfold resolve
  split
  · rename_i below
    exact Or.inl ⟨rfl, rfl, below⟩
  · rename_i inside
    split
    · rename_i missing
      have bound := List.getElem?_eq_none_iff.mp missing
      exact Or.inr (Or.inl ⟨rfl, rfl, by omega⟩)
    · rename_i slot found
      have located : t.slotAt seq = some slot := by
        simpa only [slotAt, inside, ↓reduceIte] using found
      split
      · rename_i isPending
        refine Or.inr (Or.inr (Or.inr ⟨slot, rfl, located, isPending, rfl, rfl, rfl, rfl, ?_⟩))
        intro k
        have bound := (List.getElem?_eq_some_iff.mp found).1
        by_cases same : k = seq
        · subst same
          simp [slotAt, inside, bound]
        · simp only [slotAt, same, ↓reduceIte]
          split
          · rfl
          · rw [List.getElem?_set_ne (by omega)]
      · rename_i resolved
        exact Or.inr (Or.inr (Or.inl ⟨slot, rfl, rfl, located, resolved⟩))

@[simp] theorem resolve_nextSeq (t : PartitionTracker) (seq : Nat) (status : AckStatus) :
    (t.resolve seq status).2.nextSeq = t.nextSeq := by
  rcases t.resolve_cases seq status with
    ⟨_, unchanged, _⟩ | ⟨_, unchanged, _⟩ | ⟨_, _, unchanged, _⟩ | ⟨_, _, _, _, _, next, _⟩
  · rw [unchanged]
  · rw [unchanged]
  · rw [unchanged]
  · exact next

@[simp] theorem resolve_headSeq (t : PartitionTracker) (seq : Nat) (status : AckStatus) :
    (t.resolve seq status).2.headSeq = t.headSeq := by
  rcases t.resolve_cases seq status with
    ⟨_, unchanged, _⟩ | ⟨_, unchanged, _⟩ | ⟨_, _, unchanged, _⟩ | ⟨_, _, _, _, head, _⟩
  · rw [unchanged]
  · rw [unchanged]
  · rw [unchanged]
  · exact head

theorem resolve_ahead {t : PartitionTracker} {status : AckStatus} (ahead : t.nextSeq ≤ seq) :
    t.resolve seq status = (.unregistered, t) := by
  rcases t.resolve_cases seq status with
    ⟨_, _, below⟩ | ⟨outcome, unchanged, _⟩ | ⟨slot, _, _, found, _⟩ | ⟨slot, _, found, _⟩
  · have := t.next_eq
    omega
  · exact Prod.ext outcome unchanged
  · have := (slotAt_lt_nextSeq found).2
    omega
  · have := (slotAt_lt_nextSeq found).2
    omega

def deliveredPrefix (ring : List Slot) : List Slot :=
  ring.takeWhile fun slot => slot.state = .delivered

theorem advanceLoop_eq (now : Nat) (since stalled : Option Nat) (ring : List Slot)
    (committable : Option Int64) (headSeq : Nat) :
    let popped := deliveredPrefix ring
    let rest := ring.drop popped.length
    let stops := rest.head?.any fun slot => slot.state = .failed
    advanceLoop now since stalled committable headSeq ring =
      ⟨(popped.getLast?.map fun slot => slot.lastOffset + 1).or committable,
        headSeq + popped.length, rest,
        if stops ∧ since.isNone then some now else since,
        if stops ∧ since.isNone then some (headSeq + popped.length) else stalled⟩ := by
  induction ring generalizing committable headSeq with
  | nil => simp [advanceLoop, deliveredPrefix]
  | cons slot rest ih =>
    cases kind : slot.state with
    | pending => simp [advanceLoop, deliveredPrefix, kind]
    | failed =>
      by_cases first : since.isNone
      · simp [advanceLoop, deliveredPrefix, kind, first]
      · simp [advanceLoop, deliveredPrefix, kind, first]
    | delivered =>
      have unfolded : advanceLoop now since stalled committable headSeq (slot :: rest) =
          advanceLoop now since stalled (some (slot.lastOffset + 1)) (headSeq + 1) rest := by
        simp [advanceLoop, kind]
      have popped : deliveredPrefix (slot :: rest) = slot :: deliveredPrefix rest := by
        simp [deliveredPrefix, kind]
      have last : ((slot :: deliveredPrefix rest).getLast?.map fun s => s.lastOffset + 1) =
          ((deliveredPrefix rest).getLast?.map fun s => s.lastOffset + 1).or
            (some (slot.lastOffset + 1)) := by
        cases deliveredPrefix rest with
        | nil => rfl
        | cons _ _ => simp [List.getLast?_cons]
      simp only [unfolded, ih, popped, List.length_cons, List.drop_succ_cons, last,
        Nat.add_assoc, Nat.add_comm 1]
      cases deliveredPrefix rest <;> simp

theorem deliveredPrefix_getElem {ring : List Slot} {index : Nat}
    (inside : index < (deliveredPrefix ring).length) (found : ring[index]? = some slot) :
    slot.state = .delivered := by
  have isPrefix : deliveredPrefix ring <+: ring := List.takeWhile_prefix _
  have same : (deliveredPrefix ring)[index]? = some slot := by
    rw [← found]
    exact (List.prefix_iff_getElem?.mp isPrefix index inside).symm ▸
      List.getElem?_eq_getElem inside
  have member : slot ∈ deliveredPrefix ring := List.mem_of_getElem? same
  simpa using List.mem_takeWhile_imp member

theorem deliveredPrefix_stop {ring : List Slot}
    (found : ring[(deliveredPrefix ring).length]? = some slot) : slot.state ≠ .delivered := by
  induction ring with
  | nil => simp at found
  | cons first rest ih =>
    by_cases kind : first.state = .delivered
    · apply ih
      simpa [deliveredPrefix, kind] using found
    · have here : first = slot := by simpa [deliveredPrefix, kind] using found
      exact here ▸ kind

section Advance

variable (t : PartitionTracker) (now : Nat)

@[simp] theorem advanceOn_nextSeq : (t.advanceOn now).2.nextSeq = t.nextSeq := rfl

theorem advanceOn_headSeq :
    (t.advanceOn now).2.headSeq = t.headSeq + (deliveredPrefix t.ring).length := by
  simp only [advanceOn, advanceLoop_eq]

theorem advanceOn_headSeq_le : t.headSeq ≤ (t.advanceOn now).2.headSeq := by
  rw [advanceOn_headSeq]
  omega

theorem advanceOn_headSeq_le_nextSeq : (t.advanceOn now).2.headSeq ≤ t.nextSeq := by
  have extent := (t.advanceOn now).2.next_eq
  rw [advanceOn_nextSeq] at extent
  omega

theorem advanceOn_slotAt (k : Nat) :
    (t.advanceOn now).2.slotAt k =
      if k < (t.advanceOn now).2.headSeq then none else t.slotAt k := by
  have head := advanceOn_headSeq t now
  have ring : (t.advanceOn now).2.ring = t.ring.drop (deliveredPrefix t.ring).length := by
    simp only [advanceOn, advanceLoop_eq]
  unfold slotAt
  split
  · rfl
  · rename_i above
    rw [if_neg (by omega), ring, List.getElem?_drop]
    congr 1
    omega

/-- Every batch the head moves past was delivered. -/
theorem advanceOn_popped {k : Nat} (lower : t.headSeq ≤ k)
    (upper : k < (t.advanceOn now).2.headSeq) :
    ∃ slot, t.slotAt k = some slot ∧ slot.state = .delivered := by
  have bound := advanceOn_headSeq_le_nextSeq t now
  obtain ⟨slot, found⟩ := t.slotAt_isSome k lower (by omega)
  refine ⟨slot, found, ?_⟩
  rw [advanceOn_headSeq] at upper
  rw [slotAt, if_neg (by omega)] at found
  exact deliveredPrefix_getElem (by omega) found

/-- The head stops at the first batch that is not delivered. -/
theorem advanceOn_stops {slot : Slot}
    (found : t.slotAt (t.advanceOn now).2.headSeq = some slot) : slot.state ≠ .delivered := by
  have head := advanceOn_headSeq t now
  rw [slotAt, if_neg (by omega), head, Nat.add_sub_cancel_left] at found
  exact deliveredPrefix_stop found

/-- The watermark is one past the last batch the head moved past. -/
theorem advanceOn_watermark :
    (t.advanceOn now).1 =
      if (t.advanceOn now).2.headSeq = t.headSeq then none
      else (t.slotAt ((t.advanceOn now).2.headSeq - 1)).map fun slot => slot.lastOffset + 1 := by
  have head := advanceOn_headSeq t now
  have returned : (t.advanceOn now).1 =
      (deliveredPrefix t.ring).getLast?.map fun slot => slot.lastOffset + 1 := by
    simp only [advanceOn, advanceLoop_eq, Option.or_none]
  have isPrefix : deliveredPrefix t.ring <+: t.ring := List.takeWhile_prefix _
  rw [returned]
  split
  · rename_i still
    have none : (deliveredPrefix t.ring).length = 0 := by omega
    rw [List.eq_nil_of_length_eq_zero none]
    rfl
  · rename_i moved
    have inside : (deliveredPrefix t.ring).length - 1 < (deliveredPrefix t.ring).length := by omega
    have index : (t.advanceOn now).2.headSeq - 1 - t.headSeq =
        (deliveredPrefix t.ring).length - 1 := by omega
    have sameSlot : t.slotAt ((t.advanceOn now).2.headSeq - 1) =
        (deliveredPrefix t.ring).getLast? := by
      rw [slotAt, if_neg (by omega), index, List.getLast?_eq_getElem?,
        List.getElem?_eq_getElem inside]
      exact List.prefix_iff_getElem?.mp isPrefix _ inside
    rw [sameSlot]

/-- After an advance the tracker is stalled exactly when its head has failed,
and then at its head. -/
theorem advanceOn_stalledSeq :
    (t.advanceOn now).2.stalledSeq =
      if (t.slotAt (t.advanceOn now).2.headSeq).any (fun slot => slot.state = .failed) then
        some (t.advanceOn now).2.headSeq
      else none := by
  have head := advanceOn_headSeq t now
  have front : t.slotAt (t.advanceOn now).2.headSeq = (t.advanceOn now).2.ring.head? := by
    have same := advanceOn_slotAt t now (t.advanceOn now).2.headSeq
    rw [if_neg (Nat.lt_irrefl _)] at same
    rw [← same, slotAt, if_neg (Nat.lt_irrefl _), Nat.sub_self, List.head?_eq_getElem?]
  have valid := (t.advanceOn now).2.valid
  rw [front]
  cases latched : (t.advanceOn now).2.stalledSeq with
  | some seq =>
    obtain ⟨same, slot, atHead, failed⟩ := valid.blocked seq latched
    simp [atHead, failed, same]
  | none =>
    have fresh : (t.advanceOn now).2.stalledSince = none := by
      have both := valid.latched
      rw [latched] at both
      exact Option.not_isSome_iff_eq_none.mp (by simp [both])
    split
    · rename_i blocked
      -- The loop would have latched the failed head it stopped at.
      exfalso
      simp only [advanceOn, advanceLoop_eq] at fresh blocked
      split at fresh
      · cases fresh
      · rename_i skipped
        exact skipped ⟨blocked, by simp [fresh]⟩
    · rfl

end Advance

/-- The batch is not passed and no resolution has been applied to it. -/
def Awaits (t : PartitionTracker) (seq : Nat) : Prop :=
  t.headSeq ≤ seq ∧ ∀ slot, t.slotAt seq = some slot → slot.state = .pending

theorem new_awaits (seq : Nat) : new.Awaits seq := by
  refine ⟨Nat.zero_le seq, ?_⟩
  intro slot found
  simp [slotAt] at found

theorem Awaits.register {t : PartitionTracker} (awaits : t.Awaits k)
    (registered : t.register seq lastOffset = some next) : next.Awaits k := by
  obtain ⟨_, head, _⟩ := register_eq_some registered
  refine ⟨by rw [head]; exact awaits.1, ?_⟩
  intro slot found
  rw [slotAt_register registered] at found
  split at found
  · obtain rfl := Option.some.inj found
    rfl
  · exact awaits.2 slot found

theorem Awaits.resolve {t : PartitionTracker} (awaits : t.Awaits k) (other : k ≠ seq)
    (status : AckStatus) : (t.resolve seq status).2.Awaits k := by
  rcases t.resolve_cases seq status with
    ⟨_, unchanged, _⟩ | ⟨_, unchanged, _⟩ | ⟨_, _, unchanged, _⟩ |
      ⟨slot, _, _, _, head, _, _, _, slots⟩
  · rwa [unchanged]
  · rwa [unchanged]
  · rwa [unchanged]
  · refine ⟨by rw [head]; exact awaits.1, ?_⟩
    intro slot found
    rw [slots, if_neg other] at found
    exact awaits.2 slot found

theorem Awaits.advanceOn {t : PartitionTracker} (awaits : t.Awaits k) (now : Nat) :
    (t.advanceOn now).2.Awaits k := by
  refine ⟨?_, ?_⟩
  · by_contra passed
    obtain ⟨slot, found, delivered⟩ := t.advanceOn_popped now awaits.1 (Nat.lt_of_not_le passed)
    rw [awaits.2 slot found] at delivered
    cases delivered
  · intro slot found
    rw [advanceOn_slotAt] at found
    split at found
    · cases found
    · exact awaits.2 slot found

theorem awaits_of_register {t : PartitionTracker}
    (registered : t.register seq lastOffset = some next) (awaits : next.Awaits k) : t.Awaits k := by
  obtain ⟨_, head, _⟩ := register_eq_some registered
  refine ⟨by rw [← head]; exact awaits.1, ?_⟩
  intro slot found
  apply awaits.2 slot
  have inside := (slotAt_lt_nextSeq found).2
  rw [slotAt_register registered, if_neg (by omega)]
  exact found

theorem awaits_of_resolve {t : PartitionTracker} {status : AckStatus}
    (applied : (t.resolve seq status).1 = .applied) (awaits : (t.resolve seq status).2.Awaits k) :
    t.Awaits k ∧ k ≠ seq := by
  rcases t.resolve_cases seq status with
    ⟨outcome, _⟩ | ⟨outcome, _⟩ | ⟨_, outcome, _⟩ | ⟨slot, _, located, _, head, _, _, _, slots⟩
  · rw [applied] at outcome
    cases outcome
  · rw [applied] at outcome
    cases outcome
  · rw [applied] at outcome
    cases outcome
  · have other : k ≠ seq := by
      rintro rfl
      have settled := awaits.2 _ (by rw [slots, if_pos rfl])
      exact status.slotState_ne_pending settled
    refine ⟨⟨by rw [← head]; exact awaits.1, ?_⟩, other⟩
    intro slot found
    exact awaits.2 slot (by rw [slots, if_neg other]; exact found)

theorem awaits_of_advanceOn {t : PartitionTracker} {now : Nat}
    (awaits : (t.advanceOn now).2.Awaits k) : t.Awaits k := by
  refine ⟨Nat.le_trans (t.advanceOn_headSeq_le now) awaits.1, ?_⟩
  intro slot found
  apply awaits.2 slot
  rw [advanceOn_slotAt, if_neg (Nat.not_lt_of_le awaits.1)]
  exact found

theorem Awaits.outcome {t : PartitionTracker} (awaits : t.Awaits seq) (status : AckStatus) :
    (t.resolve seq status).1 = .applied ∨ (t.resolve seq status).1 = .unregistered := by
  rcases t.resolve_cases seq status with
    ⟨_, _, below⟩ | ⟨outcome, _⟩ | ⟨slot, _, _, found, settled⟩ | ⟨slot, outcome, _⟩
  · exact absurd awaits.1 (Nat.not_le_of_lt below)
  · exact Or.inr outcome
  · exact absurd (awaits.2 slot found) settled
  · exact Or.inl outcome

end PartitionTracker

end Spate.Checkpoint
