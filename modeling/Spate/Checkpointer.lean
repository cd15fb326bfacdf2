import Mathlib.Data.List.Sort
import Spate.Core
import Spate.FastMap
import Spate.CheckpointTracker

set_option autoImplicit false

/- Acknowledgment handles, their issuers and the checkpointer
(`checkpoint/ack.rs`, `checkpoint/checkpointer.rs`). Each function is the body
of one source method; channels, threads and the shared epoch are composed over
them in `CheckpointWorld`. -/
namespace Spate.Checkpoint

/-- Message sent to the checkpointer when the last handle of a batch drops. -/
structure AckMsg where
  id : BatchId
  lastOffset : Int64
  status : AckStatus
  deriving DecidableEq

/-- Shared acknowledgment state of one batch, with the number of live handles. -/
structure AckState where
  id : BatchId
  lastOffset : Int64
  status : AckStatus
  refs : Nat
  deriving DecidableEq

namespace AckState

def new (id : BatchId) (lastOffset : Int64) : AckState := ⟨id, lastOffset, .delivered, 1⟩

def clone (state : AckState) : AckState := { state with refs := state.refs + 1 }

/-- Marks the batch failed; any single failure poisons it. -/
def fail (state : AckState) : AckState := { state with status := .failed }

/-- Drops one handle; the last drop sends the resolution message. -/
def drop (state : AckState) : AckState × Option AckMsg :=
  ({ state with refs := state.refs - 1 },
    if state.refs = 1 then some ⟨state.id, state.lastOffset, state.status⟩ else none)

end AckState

structure Registration where
  id : BatchId
  lastOffset : Int64
  deriving DecidableEq

structure AckIssuer where
  localEpoch : Nat
  seqs : FastMap PartitionId Nat
  deriving DecidableEq

namespace AckIssuer

/-- The part of `issue` before the registration is sent: reads the shared epoch,
restarts the sequences on an epoch change and takes the next sequence. -/
def issue (issuer : AckIssuer) (sharedEpoch : Nat) (partition : PartitionId)
    (lastOffset : Int64) : Registration × AckIssuer :=
  let current : AckIssuer :=
    if sharedEpoch = issuer.localEpoch then issuer else ⟨sharedEpoch, ∅⟩
  let seq := (current.seqs.lookup partition).getD 0
  (⟨⟨partition, sharedEpoch, seq⟩, lastOffset⟩,
    { current with seqs := current.seqs.insert partition (seq + 1) })

/-- A clone has fresh sequence state. -/
def clone (issuer : AckIssuer) : AckIssuer := ⟨issuer.localEpoch, ∅⟩

/-- The sequence the issuer would take next for a partition. -/
def nextSeq (issuer : AckIssuer) (sharedEpoch : Nat) (partition : PartitionId) : Nat :=
  if sharedEpoch = issuer.localEpoch then (issuer.seqs.lookup partition).getD 0 else 0

@[simp] theorem issue_id (issuer : AckIssuer) (sharedEpoch : Nat) (partition : PartitionId)
    (lastOffset : Int64) :
    (issuer.issue sharedEpoch partition lastOffset).1 =
      ⟨⟨partition, sharedEpoch, issuer.nextSeq sharedEpoch partition⟩, lastOffset⟩ := by
  unfold issue nextSeq
  split <;> rfl

@[simp] theorem issue_localEpoch (issuer : AckIssuer) (sharedEpoch : Nat)
    (partition : PartitionId) (lastOffset : Int64) :
    (issuer.issue sharedEpoch partition lastOffset).2.localEpoch = sharedEpoch := by
  unfold issue
  split
  · rename_i same
    exact same.symm
  · rfl

theorem issue_nextSeq (issuer : AckIssuer) (sharedEpoch : Nat) (partition other : PartitionId)
    (lastOffset : Int64) :
    (issuer.issue sharedEpoch partition lastOffset).2.nextSeq sharedEpoch other =
      issuer.nextSeq sharedEpoch other + if other = partition then 1 else 0 := by
  unfold nextSeq
  rw [issue_localEpoch, if_pos rfl]
  unfold issue
  by_cases same : other = partition
  · subst same
    split <;> simp only [AList.lookup_insert, Option.getD_some, ↓reduceIte, AList.lookup_empty,
      Option.getD_none]
  · split <;> simp only [AList.lookup_insert_ne same, Nat.add_zero, AList.lookup_empty,
      Option.getD_none]

@[simp] theorem clone_nextSeq (issuer : AckIssuer) (sharedEpoch : Nat)
    (partition : PartitionId) : issuer.clone.nextSeq sharedEpoch partition = 0 := by
  unfold nextSeq clone
  split <;> rfl

end AckIssuer

structure DrainStats where
  applied : Nat := 0
  staleEpoch : Nat := 0
  duplicates : Nat := 0
  unknown : Nat := 0
  deriving DecidableEq

structure AdvanceCounter where
  advanced : Nat
  deriving DecidableEq

def AdvanceCounter.new : AdvanceCounter := ⟨0⟩

def AdvanceCounter.add (counter : AdvanceCounter) (n : Nat) : AdvanceCounter :=
  ⟨counter.advanced + n⟩

structure Checkpointer where
  epoch : Nat
  trackers : FastMap PartitionId PartitionTracker
  gates : FastMap PartitionId AdvanceCounter
  /-- The highest partition admitted to the current epoch. -/
  admittedThrough : Option PartitionId
  deriving DecidableEq

namespace Checkpointer

def new : Checkpointer := ⟨0, ∅, ∅, none⟩

def handle (sharedEpoch : Nat) : AckIssuer := ⟨sharedEpoch, ∅⟩

/-- Starts a new assignment epoch covering exactly `partitions`; `none` is the
panic of the assertion that epochs strictly increase. -/
def beginEpoch (cp : Checkpointer) (partitions : List PartitionId) (epoch : Nat) :
    Option Checkpointer :=
  if cp.epoch < epoch ∨ (cp.epoch = 0 ∧ cp.trackers.keys = []) then
    some
      { epoch
        trackers := FastMap.ofKeys partitions .new
        gates := FastMap.ofKeys partitions .new
        admittedThrough := partitions.max? }
  else none

def extendRefusal (cp : Checkpointer) (partition : PartitionId) : Option String :=
  if (cp.trackers.lookup partition).isSome then some "is already tracked"
  else
    match cp.admittedThrough with
    | some mark =>
      if partition ≤ mark then
        some s!"is not above partition {mark}, the highest admitted in this epoch"
      else none
    | none => none

def extendError (partition : PartitionId) (why : String) : FatalError :=
  ⟨"checkpoint",
    s!"additive assignment added partition {partition} which {why}; every added " ++
      "lane must carry a partition above any already admitted in this " ++
      "epoch (a returning partition needs a new epoch)"⟩

/-- Adds partitions to the current epoch without disturbing existing trackers.
The whole list is checked before anything changes. -/
def extendEpoch (cp : Checkpointer) (partitions : List PartitionId) :
    Except FatalError Checkpointer :=
  match partitions.findSome? fun p => (cp.extendRefusal p).map (extendError p) with
  | some error => .error error
  | none =>
    .ok { cp with
      trackers := FastMap.insertAll partitions .new cp.trackers
      gates := FastMap.insertAll partitions .new cp.gates
      admittedThrough := max cp.admittedThrough partitions.max? }

def revoke (cp : Checkpointer) (partitions : List PartitionId) : Checkpointer :=
  { cp with
    trackers := FastMap.eraseAll partitions cp.trackers
    gates := FastMap.eraseAll partitions cp.gates }

def tracks (cp : Checkpointer) (partition : PartitionId) : Bool :=
  (cp.trackers.lookup partition).isSome

/-- One iteration of `drain_registrations`; `none` is the tracker's gap panic. -/
def drainRegistration (cp : Checkpointer) (reg : Registration) (stats : DrainStats) :
    Option (Checkpointer × DrainStats) :=
  if reg.id.epoch ≠ cp.epoch then
    some (cp, { stats with staleEpoch := stats.staleEpoch + 1 })
  else
    match cp.trackers.lookup reg.id.partition with
    | some tracker =>
      (tracker.register reg.id.seq reg.lastOffset).map fun next =>
        ({ cp with trackers := cp.trackers.insert reg.id.partition next }, stats)
    -- Revoked mid-epoch while the issuer still held the lane.
    | none => some (cp, { stats with staleEpoch := stats.staleEpoch + 1 })

/-- Applies one resolution. With a `deferred` list, a resolution ahead of its
registration is kept for the second pass; without one it is counted unknown. -/
def apply (cp : Checkpointer) (msg : AckMsg) (stats : DrainStats)
    (deferred : Option (List AckMsg)) : Checkpointer × DrainStats × Option (List AckMsg) :=
  if msg.id.epoch ≠ cp.epoch then
    (cp, { stats with staleEpoch := stats.staleEpoch + 1 }, deferred)
  else
    match cp.trackers.lookup msg.id.partition with
    | none => (cp, { stats with staleEpoch := stats.staleEpoch + 1 }, deferred)
    | some tracker =>
      let (outcome, next) := tracker.resolve msg.id.seq msg.status
      let cp := { cp with trackers := cp.trackers.insert msg.id.partition next }
      match outcome with
      | .applied => (cp, { stats with applied := stats.applied + 1 }, deferred)
      | .duplicate | .alreadyAdvanced =>
        (cp, { stats with duplicates := stats.duplicates + 1 }, deferred)
      | .unregistered =>
        match deferred with
        | some kept => (cp, stats, some (kept ++ [msg]))
        | none => (cp, { stats with unknown := stats.unknown + 1 }, none)

/-- Watermarks that advanced since the last call, in partition order, and the
advance counters raised by the batches each advance retired. -/
def takeWatermarks (cp : Checkpointer) (now : Nat) :
    List (PartitionId × Int64) × Checkpointer :=
  let out := cp.trackers.entries.filterMap fun entry =>
    (entry.2.advanceOn now).1.map fun watermark => (entry.1, watermark)
  let retired (p : PartitionId) : Nat :=
    match cp.trackers.lookup p with
    | some tracker => tracker.pending - (tracker.advanceOn now).2.pending
    | none => 0
  (out.insertionSort fun left right => left.1 ≤ right.1,
    { cp with
      trackers := cp.trackers.mapValues fun _ tracker => (tracker.advanceOn now).2
      gates := cp.gates.mapValues fun p gate => gate.add (retired p) })

def pending (cp : Checkpointer) (partition : PartitionId) : Nat :=
  match cp.trackers.lookup partition with
  | some tracker => tracker.pending
  | none => 0

variable {cp : Checkpointer}

theorem beginEpoch_eq_some {next : Checkpointer} {partitions : List PartitionId} {epoch : Nat}
    (begun : cp.beginEpoch partitions epoch = some next) :
    (cp.epoch < epoch ∨ (cp.epoch = 0 ∧ cp.trackers.keys = [])) ∧
      next = ⟨epoch, FastMap.ofKeys partitions .new, FastMap.ofKeys partitions .new,
        partitions.max?⟩ := by
  unfold beginEpoch at begun
  split at begun
  · rename_i asserted
    exact ⟨asserted, (Option.some.inj begun).symm⟩
  · cases begun

theorem extendEpoch_eq_ok {next : Checkpointer} {partitions : List PartitionId}
    (extended : cp.extendEpoch partitions = .ok next) :
    (∀ p ∈ partitions, cp.trackers.lookup p = none ∧
      ∀ mark, cp.admittedThrough = some mark → mark < p) ∧
      next = { cp with
        trackers := FastMap.insertAll partitions .new cp.trackers
        gates := FastMap.insertAll partitions .new cp.gates
        admittedThrough := max cp.admittedThrough partitions.max? } := by
  unfold extendEpoch at extended
  split at extended
  · cases extended
  · rename_i accepted
    refine ⟨?_, (Except.ok.inj extended).symm⟩
    intro p member
    have admitted : cp.extendRefusal p = none := by
      simpa using List.findSome?_eq_none_iff.mp accepted p member
    unfold extendRefusal at admitted
    split at admitted
    · cases admitted
    · rename_i untracked
      refine ⟨Option.not_isSome_iff_eq_none.mp untracked, ?_⟩
      intro mark isMark
      rw [isMark] at admitted
      by_contra low
      simp [Nat.not_lt.mp low] at admitted

theorem drainRegistration_cases (cp : Checkpointer) (reg : Registration) (stats : DrainStats) :
    ((reg.id.epoch ≠ cp.epoch ∨ cp.trackers.lookup reg.id.partition = none) ∧
        cp.drainRegistration reg stats =
          some (cp, { stats with staleEpoch := stats.staleEpoch + 1 })) ∨
      ∃ tracker, reg.id.epoch = cp.epoch ∧
        cp.trackers.lookup reg.id.partition = some tracker ∧
        cp.drainRegistration reg stats =
          (tracker.register reg.id.seq reg.lastOffset).map fun next =>
            ({ cp with trackers := cp.trackers.insert reg.id.partition next }, stats) := by
  unfold drainRegistration
  split
  · rename_i stale
    exact Or.inl ⟨Or.inl stale, rfl⟩
  · rename_i current
    split
    · rename_i tracker found
      exact Or.inr ⟨tracker, by simpa using current, found, rfl⟩
    · rename_i missing
      exact Or.inl ⟨Or.inr missing, rfl⟩

/-- What one applied resolution can do: nothing for a stale message, otherwise
the tracker's outcome decides the counter and whether the message is kept. -/
theorem apply_cases (cp : Checkpointer) (msg : AckMsg) (stats : DrainStats)
    (deferred : Option (List AckMsg)) :
    ((msg.id.epoch ≠ cp.epoch ∨ cp.trackers.lookup msg.id.partition = none) ∧
        cp.apply msg stats deferred =
          (cp, { stats with staleEpoch := stats.staleEpoch + 1 }, deferred)) ∨
      ∃ tracker, msg.id.epoch = cp.epoch ∧
        cp.trackers.lookup msg.id.partition = some tracker ∧
        (cp.apply msg stats deferred).1 = { cp with
          trackers := cp.trackers.insert msg.id.partition
            (tracker.resolve msg.id.seq msg.status).2 } ∧
        (cp.apply msg stats deferred).2 =
          match (tracker.resolve msg.id.seq msg.status).1 with
          | .applied => ({ stats with applied := stats.applied + 1 }, deferred)
          | .duplicate | .alreadyAdvanced =>
            ({ stats with duplicates := stats.duplicates + 1 }, deferred)
          | .unregistered =>
            match deferred with
            | some kept => (stats, some (kept ++ [msg]))
            | none => ({ stats with unknown := stats.unknown + 1 }, none) := by
  unfold apply
  split
  · rename_i stale
    exact Or.inl ⟨Or.inl stale, rfl⟩
  · rename_i current
    split
    · rename_i missing
      exact Or.inl ⟨Or.inr missing, rfl⟩
    · rename_i tracker found
      refine Or.inr ⟨tracker, by simpa using current, found, ?_⟩
      rcases tracker.resolve msg.id.seq msg.status with ⟨outcome, next⟩
      cases outcome <;> cases deferred <;> exact ⟨rfl, rfl⟩

theorem mem_takeWatermarks {now : Nat} {p : PartitionId} {w : Int64} :
    (p, w) ∈ (cp.takeWatermarks now).1 ↔
      ∃ tracker, cp.trackers.lookup p = some tracker ∧ (tracker.advanceOn now).1 = some w := by
  simp only [takeWatermarks, List.mem_insertionSort, List.mem_filterMap]
  constructor
  · rintro ⟨entry, member, produced⟩
    obtain ⟨watermark, advanced, same⟩ := Option.map_eq_some_iff.mp produced
    obtain ⟨rfl, rfl⟩ := Prod.mk.inj same
    exact ⟨entry.2, (FastMap.lookup_eq_some_iff_mem _ _ _).mpr member, advanced⟩
  · rintro ⟨tracker, found, advanced⟩
    exact ⟨⟨p, tracker⟩, (FastMap.lookup_eq_some_iff_mem _ _ _).mp found, by simp [advanced]⟩

private theorem filter_filterMap_dlookup (f : PartitionTracker → Option Int64) (p : PartitionId)
    (entries : List (Sigma fun _ : PartitionId => PartitionTracker))
    (distinct : entries.NodupKeys) :
    ((entries.filterMap fun entry => (f entry.2).map fun w => (entry.1, w)).filter
        fun entry => entry.1 = p) =
      (((entries.dlookup p : Option PartitionTracker).bind f).map fun w => (p, w)).toList := by
  induction entries with
  | nil => rfl
  | cons entry rest ih =>
    obtain ⟨key, tracker⟩ := entry
    obtain ⟨absent, distinct⟩ := List.nodupKeys_cons.mp distinct
    have ih := ih distinct
    by_cases here : p = key
    · subst here
      rw [List.dlookup_eq_none.mpr absent] at ih
      rw [List.dlookup_cons_eq]
      cases produced : f tracker with
      | none | some => simpa [List.filterMap_cons, produced] using ih
    · rw [List.dlookup_cons_ne _ _ here, ← ih]
      cases produced : f tracker with
      | none => simp [produced]
      | some w => simp [produced, Ne.symm here]

theorem takeWatermarks_filter (cp : Checkpointer) (now : Nat) (p : PartitionId) :
    ((cp.takeWatermarks now).1.filter fun entry => entry.1 = p) =
      (((cp.trackers.lookup p).bind fun tracker => (tracker.advanceOn now).1).map
        fun w => (p, w)).toList := by
  have sorted : (cp.takeWatermarks now).1.Perm
      (cp.trackers.entries.filterMap fun entry =>
        (entry.2.advanceOn now).1.map fun w => (entry.1, w)) := List.perm_insertionSort _ _
  have filtered := sorted.filter fun entry => decide (entry.1 = p)
  rw [filter_filterMap_dlookup (fun tracker => (tracker.advanceOn now).1) p _
    cp.trackers.nodupKeys] at filtered
  change _ = (((cp.trackers.entries.dlookup p : Option PartitionTracker).bind
    fun tracker => (tracker.advanceOn now).1).map fun w => (p, w)).toList
  cases produced : ((cp.trackers.entries.dlookup p : Option PartitionTracker).bind
      fun tracker => (tracker.advanceOn now).1).map fun w => (p, w) with
  | none =>
    rw [produced] at filtered
    exact List.perm_nil.mp filtered
  | some entry =>
    rw [produced] at filtered
    exact List.perm_singleton.mp filtered

theorem takeWatermarks_gates (cp : Checkpointer) (now : Nat) (p : PartitionId)
    {tracker : PartitionTracker} (found : cp.trackers.lookup p = some tracker) :
    (cp.takeWatermarks now).2.gates.lookup p =
      (cp.gates.lookup p).map fun gate =>
        gate.add (tracker.pending - (tracker.advanceOn now).2.pending) := by
  simp only [takeWatermarks, FastMap.lookup_mapValues, found]

theorem takeWatermarks_lookup (cp : Checkpointer) (now : Nat) (p : PartitionId) :
    (cp.takeWatermarks now).2.trackers.lookup p =
      (cp.trackers.lookup p).map fun tracker => (tracker.advanceOn now).2 :=
  FastMap.lookup_mapValues _ _ _

end Checkpointer

end Spate.Checkpoint
