import Spate.Transition
import Spate.Checkpointer

set_option autoImplicit false

/- The acknowledgment path as one system: any number of issuer threads, the
handles they created, the two unbounded channels and the checkpointer's thread.
A `drain` is one receive per step, so issues, clones, failures and drops fall
between any two of its receives; an `issue` is two steps, the epoch read and
the registration's send, so an epoch can be published in between. -/
namespace Spate.Checkpoint

inductive Panic
  | registrationGap
  | epochRegression
  deriving DecidableEq

/-- Where the checkpointer's thread is inside `drain`, with the resolutions it
has set aside. The registrations are received twice, before the resolutions and
`late`, before those set aside are applied again. -/
inductive DrainPhase
  | idle
  | registrations (late : Bool) (deferred : List AckMsg)
  | resolutions (deferred : List AckMsg)
  | lateResolutions (deferred : List AckMsg)
  | panicked (why : Panic)
  deriving DecidableEq

def DrainPhase.deferred : DrainPhase → List AckMsg
  | .registrations _ deferred | .resolutions deferred | .lateResolutions deferred => deferred
  | .idle | .panicked _ => []

structure IssuerThread where
  issuer : AckIssuer
  inFlight : Option Registration
  deriving DecidableEq

/-- The whole system. The last four fields are history: nothing reads them but
the promises of the environment and the theorems. -/
structure World where
  cp : Checkpointer
  sharedEpoch : Nat
  regs : List Registration
  acks : List AckMsg
  phase : DrainPhase
  stats : DrainStats
  issuers : List IssuerThread
  heap : List AckState
  admitted : List (PartitionId × Nat)
  /-- Every issue, as partition, epoch and issuer. -/
  issuedBy : List (PartitionId × Nat × Nat)
  /-- Every watermark returned, with the epoch it was returned in. -/
  returned : List (PartitionId × Nat × Int64)
  drained : List DrainStats
  deriving DecidableEq

inductive Op
  | handle
  | cloneIssuer (issuer : Nat)
  /-- The first half of `issue`: read the epoch and take a sequence. -/
  | load (issuer : Nat) (partition : PartitionId) (lastOffset : Int64)
  /-- The second half of `issue`: send the registration, create the handle. -/
  | send (issuer : Nat)
  | clone (handle : Nat)
  | fail (handle : Nat)
  | drop (handle : Nat)
  | beginEpoch (partitions : List PartitionId) (epoch : Nat)
  | extendEpoch (partitions : List PartitionId)
  | revoke (partitions : List PartitionId)
  /-- One receive of the running drain, or the start of a new one. -/
  | drain
  | takeWatermarks (now : Nat)
  deriving DecidableEq

namespace World

def start : World := ⟨.new, 0, [], [], .idle, {}, [], [], [], [], [], []⟩

def inFlight (s : World) : List Registration := s.issuers.filterMap (·.inFlight)

def ids (s : World) : List BatchId := s.inFlight.map (·.id) ++ s.heap.map (·.id)

def messages (s : World) : List AckMsg := s.acks ++ s.phase.deferred

def Known (s : World) (id : BatchId) (lastOffset : Int64) : Prop :=
  ∃ cell ∈ s.heap, cell.id = id ∧ cell.lastOffset = lastOffset

/-- The last handle of batch `id` was dropped, leaving this status. -/
def Resolved (s : World) (id : BatchId) (status : AckStatus) : Prop :=
  ∃ cell ∈ s.heap, cell.id = id ∧ cell.refs = 0 ∧ cell.status = status

def finishDrain (s : World) : World :=
  { s with phase := .idle, drained := s.drained ++ [s.stats] }

def drainStep (s : World) : Option World :=
  match s.phase with
  | .idle => some { s with phase := .registrations false [], stats := {} }
  | .registrations late deferred =>
    match s.regs with
    | reg :: rest =>
      match s.cp.drainRegistration reg s.stats with
      | some (cp, stats) => some { s with cp, stats, regs := rest }
      | none => some { s with regs := rest, phase := .panicked .registrationGap }
    | [] =>
      some { s with
        phase := if late then .lateResolutions deferred else .resolutions deferred }
  | .resolutions deferred =>
    match s.acks with
    | msg :: rest =>
      let (cp, stats, kept) := s.cp.apply msg s.stats (some deferred)
      some { s with cp, stats, acks := rest, phase := .resolutions (kept.getD deferred) }
    | [] =>
      if deferred = [] then some s.finishDrain
      else some { s with phase := .registrations true deferred }
  | .lateResolutions deferred =>
    match deferred with
    | msg :: rest =>
      let (cp, stats, _) := s.cp.apply msg s.stats none
      some { s with cp, stats, phase := .lateResolutions rest }
    | [] => some s.finishDrain
  | .panicked _ => none

def withHandle (s : World) (handle : Nat) (f : AckState → World) : Option World :=
  match s.heap[handle]? with
  | some cell => if 0 < cell.refs then some (f cell) else none
  | none => none

/-- One atomic step of one of the threads; `none` when it is not enabled. The
checkpointer's own methods are enabled only outside a running drain. -/
def step (s : World) : Op → Option World
  | .handle =>
    some { s with issuers := s.issuers ++ [⟨Checkpointer.handle s.sharedEpoch, none⟩] }
  | .cloneIssuer i =>
    match s.issuers[i]? with
    | some ⟨issuer, none⟩ => some { s with issuers := s.issuers ++ [⟨issuer.clone, none⟩] }
    | _ => none
  | .load i partition lastOffset =>
    match s.issuers[i]? with
    | some ⟨issuer, none⟩ =>
      let (reg, issuer) := issuer.issue s.sharedEpoch partition lastOffset
      some { s with
        issuers := s.issuers.set i ⟨issuer, some reg⟩
        issuedBy := s.issuedBy ++ [(partition, s.sharedEpoch, i)] }
    | _ => none
  | .send i =>
    match s.issuers[i]? with
    | some ⟨issuer, some reg⟩ =>
      some { s with
        issuers := s.issuers.set i ⟨issuer, none⟩
        regs := s.regs ++ [reg]
        heap := s.heap ++ [.new reg.id reg.lastOffset] }
    | _ => none
  | .clone handle => s.withHandle handle fun cell => { s with heap := s.heap.set handle cell.clone }
  | .fail handle => s.withHandle handle fun cell => { s with heap := s.heap.set handle cell.fail }
  | .drop handle => s.withHandle handle fun cell =>
    { s with
      heap := s.heap.set handle cell.drop.1
      acks := s.acks ++ cell.drop.2.toList }
  | .beginEpoch partitions epoch =>
    if s.phase = .idle then
      match s.cp.beginEpoch partitions epoch with
      | some cp => some { s with
          cp
          sharedEpoch := epoch
          admitted := s.admitted ++ partitions.map (·, epoch) }
      | none => some { s with phase := .panicked .epochRegression }
    else none
  | .extendEpoch partitions =>
    if s.phase = .idle then
      match s.cp.extendEpoch partitions with
      | .ok cp => some { s with
          cp
          admitted := s.admitted ++ partitions.map (·, s.cp.epoch) }
      | .error _ => some s
    else none
  | .revoke partitions =>
    if s.phase = .idle then some { s with cp := s.cp.revoke partitions } else none
  | .drain => s.drainStep
  | .takeWatermarks now =>
    if s.phase = .idle then
      let (out, cp) := s.cp.takeWatermarks now
      some { s with
        cp
        returned := s.returned ++ out.map fun entry => (entry.1, s.cp.epoch, entry.2) }
    else none

end World

/-- What the runtime promises about issuing: a partition is issued only after it
was admitted to the current epoch, and within an epoch from one issuer. -/
def IssuesOwned (s : World) : Op → Prop
  | .load i partition _ =>
    (partition, s.sharedEpoch) ∈ s.admitted ∧
      ∀ entry ∈ s.issuedBy, entry.1 = partition → entry.2.1 = s.sharedEpoch → entry.2.2 = i
  | _ => True

instance (s : World) : (op : Op) → Decidable (IssuesOwned s op)
  | .load _ _ _ => inferInstanceAs (Decidable (_ ∧ _))
  | .handle | .cloneIssuer _ | .send _ | .clone _ | .fail _ | .drop _ | .beginEpoch _ _
  | .extendEpoch _ | .revoke _ | .drain | .takeWatermarks _ => inferInstanceAs (Decidable True)

/-- The next resolution of a running drain, and the world without it: from the
channel in the first pass, from those set aside in the second. -/
inductive Pops (s : World) (msg : AckMsg) : World → Prop
  | channel {deferred rest : List AckMsg} (inPhase : s.phase = .resolutions deferred)
      (queued : s.acks = msg :: rest) : Pops s msg { s with acks := rest }
  | setAside {rest : List AckMsg} (inPhase : s.phase = .lateResolutions (msg :: rest)) :
      Pops s msg { s with phase := .lateResolutions rest }

inductive Move (s : World) : Op → World → Prop
  | handle : Move s .handle
      { s with issuers := s.issuers ++ [⟨Checkpointer.handle s.sharedEpoch, none⟩] }
  | cloneIssuer {i : Nat} {issuer : AckIssuer} (found : s.issuers[i]? = some ⟨issuer, none⟩) :
      Move s (.cloneIssuer i) { s with issuers := s.issuers ++ [⟨issuer.clone, none⟩] }
  | load {i : Nat} {issuer : AckIssuer} {partition : PartitionId} {lastOffset : Int64}
      (found : s.issuers[i]? = some ⟨issuer, none⟩) :
      Move s (.load i partition lastOffset)
        { s with
          issuers := s.issuers.set i
            ⟨(issuer.issue s.sharedEpoch partition lastOffset).2,
              some ⟨⟨partition, s.sharedEpoch, issuer.nextSeq s.sharedEpoch partition⟩,
                lastOffset⟩⟩
          issuedBy := s.issuedBy ++ [(partition, s.sharedEpoch, i)] }
  | send {i : Nat} {issuer : AckIssuer} {reg : Registration}
      (found : s.issuers[i]? = some ⟨issuer, some reg⟩) :
      Move s (.send i)
        { s with
          issuers := s.issuers.set i ⟨issuer, none⟩
          regs := s.regs ++ [reg]
          heap := s.heap ++ [.new reg.id reg.lastOffset] }
  | clone {handle : Nat} {cell : AckState} (found : s.heap[handle]? = some cell)
      (live : 0 < cell.refs) :
      Move s (.clone handle) { s with heap := s.heap.set handle cell.clone }
  | fail {handle : Nat} {cell : AckState} (found : s.heap[handle]? = some cell)
      (live : 0 < cell.refs) :
      Move s (.fail handle) { s with heap := s.heap.set handle cell.fail }
  | drop {handle : Nat} {cell : AckState} (found : s.heap[handle]? = some cell)
      (live : 0 < cell.refs) :
      Move s (.drop handle)
        { s with
          heap := s.heap.set handle cell.drop.1
          acks := s.acks ++ cell.drop.2.toList }
  | beginEpoch {partitions : List PartitionId} {epoch : Nat} (idle : s.phase = .idle)
      (asserted : s.cp.epoch < epoch ∨ (s.cp.epoch = 0 ∧ s.cp.trackers.keys = [])) :
      Move s (.beginEpoch partitions epoch)
        { s with
          cp := ⟨epoch, FastMap.ofKeys partitions .new, FastMap.ofKeys partitions .new,
            partitions.max?⟩
          sharedEpoch := epoch
          admitted := s.admitted ++ partitions.map (·, epoch) }
  | regress {partitions : List PartitionId} {epoch : Nat} (idle : s.phase = .idle) :
      Move s (.beginEpoch partitions epoch) { s with phase := .panicked .epochRegression }
  | extendEpoch {partitions : List PartitionId} (idle : s.phase = .idle)
      (fresh : ∀ p ∈ partitions, s.cp.trackers.lookup p = none ∧
        ∀ mark, s.cp.admittedThrough = some mark → mark < p) :
      Move s (.extendEpoch partitions)
        { s with
          cp := { s.cp with
            trackers := FastMap.insertAll partitions .new s.cp.trackers
            gates := FastMap.insertAll partitions .new s.cp.gates
            admittedThrough := max s.cp.admittedThrough partitions.max? }
          admitted := s.admitted ++ partitions.map (·, s.cp.epoch) }
  | refuse {partitions : List PartitionId} : Move s (.extendEpoch partitions) s
  | revoke {partitions : List PartitionId} (idle : s.phase = .idle) :
      Move s (.revoke partitions) { s with cp := s.cp.revoke partitions }
  | drainStart (idle : s.phase = .idle) :
      Move s .drain { s with phase := .registrations false [], stats := {} }
  | regStale {late : Bool} {deferred : List AckMsg} {reg : Registration}
      {rest : List Registration} (inPhase : s.phase = .registrations late deferred)
      (queued : s.regs = reg :: rest)
      (stale : reg.id.epoch ≠ s.cp.epoch ∨ s.cp.trackers.lookup reg.id.partition = none) :
      Move s .drain
        { s with stats := { s.stats with staleEpoch := s.stats.staleEpoch + 1 }, regs := rest }
  | regApplied {late : Bool} {deferred : List AckMsg} {reg : Registration}
      {rest : List Registration} {tracker next : PartitionTracker}
      (inPhase : s.phase = .registrations late deferred) (queued : s.regs = reg :: rest)
      (current : reg.id.epoch = s.cp.epoch)
      (found : s.cp.trackers.lookup reg.id.partition = some tracker)
      (registered : tracker.register reg.id.seq reg.lastOffset = some next) :
      Move s .drain
        { s with
          cp := { s.cp with trackers := s.cp.trackers.insert reg.id.partition next }
          regs := rest }
  | regGap {late : Bool} {deferred : List AckMsg} {reg : Registration}
      {rest : List Registration} {tracker : PartitionTracker}
      (inPhase : s.phase = .registrations late deferred) (queued : s.regs = reg :: rest)
      (current : reg.id.epoch = s.cp.epoch)
      (found : s.cp.trackers.lookup reg.id.partition = some tracker)
      (gap : tracker.register reg.id.seq reg.lastOffset = none) :
      Move s .drain { s with regs := rest, phase := .panicked .registrationGap }
  | regsDone {late : Bool} {deferred : List AckMsg}
      (inPhase : s.phase = .registrations late deferred) (empty : s.regs = []) :
      Move s .drain
        { s with phase := if late then .lateResolutions deferred else .resolutions deferred }
  | ackStale {msg : AckMsg} {popped : World} (pops : Pops s msg popped)
      (stale : msg.id.epoch ≠ s.cp.epoch ∨ s.cp.trackers.lookup msg.id.partition = none) :
      Move s .drain
        { popped with stats := { s.stats with staleEpoch := s.stats.staleEpoch + 1 } }
  | ackApplied {msg : AckMsg} {popped : World} {tracker : PartitionTracker}
      (pops : Pops s msg popped) (current : msg.id.epoch = s.cp.epoch)
      (found : s.cp.trackers.lookup msg.id.partition = some tracker)
      (applied : (tracker.resolve msg.id.seq msg.status).1 = .applied) :
      Move s .drain
        { popped with
          cp := { s.cp with
            trackers := s.cp.trackers.insert msg.id.partition
              (tracker.resolve msg.id.seq msg.status).2 }
          stats := { s.stats with applied := s.stats.applied + 1 } }
  | ackRepeated {msg : AckMsg} {popped : World} {tracker : PartitionTracker}
      (pops : Pops s msg popped) (current : msg.id.epoch = s.cp.epoch)
      (found : s.cp.trackers.lookup msg.id.partition = some tracker)
      (repeated : (tracker.resolve msg.id.seq msg.status).1 = .duplicate ∨
        (tracker.resolve msg.id.seq msg.status).1 = .alreadyAdvanced) :
      Move s .drain
        { popped with
          cp := { s.cp with trackers := s.cp.trackers.insert msg.id.partition tracker }
          stats := { s.stats with duplicates := s.stats.duplicates + 1 } }
  | ackDeferred {msg : AckMsg} {deferred rest : List AckMsg} {tracker : PartitionTracker}
      (inPhase : s.phase = .resolutions deferred) (queued : s.acks = msg :: rest)
      (current : msg.id.epoch = s.cp.epoch)
      (found : s.cp.trackers.lookup msg.id.partition = some tracker)
      (ahead : tracker.nextSeq ≤ msg.id.seq) :
      Move s .drain
        { s with
          cp := { s.cp with trackers := s.cp.trackers.insert msg.id.partition tracker }
          acks := rest
          phase := .resolutions (deferred ++ [msg]) }
  | ackUnknown {msg : AckMsg} {rest : List AckMsg} {tracker : PartitionTracker}
      (inPhase : s.phase = .lateResolutions (msg :: rest))
      (current : msg.id.epoch = s.cp.epoch)
      (found : s.cp.trackers.lookup msg.id.partition = some tracker)
      (ahead : tracker.nextSeq ≤ msg.id.seq) :
      Move s .drain
        { s with
          cp := { s.cp with trackers := s.cp.trackers.insert msg.id.partition tracker }
          stats := { s.stats with unknown := s.stats.unknown + 1 }
          phase := .lateResolutions rest }
  | acksRetry {deferred : List AckMsg} (inPhase : s.phase = .resolutions deferred)
      (empty : s.acks = []) :
      Move s .drain { s with phase := .registrations true deferred }
  | drainDone
      (done : (s.phase = .resolutions [] ∧ s.acks = []) ∨ s.phase = .lateResolutions []) :
      Move s .drain s.finishDrain
  | takeWatermarks {now : Nat} (idle : s.phase = .idle) :
      Move s (.takeWatermarks now)
        { s with
          cp := (s.cp.takeWatermarks now).2
          returned := s.returned ++
            (s.cp.takeWatermarks now).1.map fun entry => (entry.1, s.cp.epoch, entry.2) }

namespace World

variable {s s' : World} {msg : AckMsg}

private theorem withHandle_eq_some {handle : Nat} {f : AckState → World}
    (taken : s.withHandle handle f = some s') :
    ∃ cell, s.heap[handle]? = some cell ∧ 0 < cell.refs ∧ s' = f cell := by
  unfold withHandle at taken
  split at taken
  · rename_i cell found
    split at taken
    · rename_i live
      exact ⟨cell, found, live, (Option.some.inj taken).symm⟩
    · cases taken
  · cases taken

private theorem drainStep_registration {late : Bool} {deferred : List AckMsg} {reg : Registration}
    {rest : List Registration} (inPhase : s.phase = .registrations late deferred)
    (queued : s.regs = reg :: rest) (taken : s.drainStep = some s') : Move s .drain s' := by
  simp only [drainStep, inPhase, queued] at taken
  rcases s.cp.drainRegistration_cases reg s.stats with
    ⟨stale, result⟩ | ⟨tracker, current, found, result⟩
  · rw [result] at taken
    obtain rfl := Option.some.inj taken
    simpa only [inPhase] using Move.regStale inPhase queued stale
  · cases registered : tracker.register reg.id.seq reg.lastOffset with
    | none =>
      rw [result, registered] at taken
      obtain rfl := Option.some.inj taken
      exact Move.regGap inPhase queued current found registered
    | some next =>
      rw [result, registered] at taken
      obtain rfl := Option.some.inj taken
      simpa only [inPhase] using Move.regApplied inPhase queued current found registered

/-- The common part of the two resolution passes: what `apply` does to a popped
resolution that it does not find ahead of its registration. -/
private theorem move_of_apply {popped : World} (deferred : Option (List AckMsg))
    (pops : Pops s msg popped)
    (registered : msg.id.epoch = s.cp.epoch → ∀ tracker,
      s.cp.trackers.lookup msg.id.partition = some tracker → ¬ tracker.nextSeq ≤ msg.id.seq) :
    Move s .drain { popped with
      cp := (s.cp.apply msg s.stats deferred).1
      stats := (s.cp.apply msg s.stats deferred).2.1 } ∧
      (s.cp.apply msg s.stats deferred).2.2 = deferred := by
  rcases s.cp.apply_cases msg s.stats deferred with
    ⟨stale, same⟩ | ⟨tracker, current, found, left, right⟩
  · rw [same]
    refine ⟨?_, rfl⟩
    have move := Move.ackStale pops stale
    cases pops <;> exact move
  · rcases tracker.resolve_cases msg.id.seq msg.status with
      ⟨outcome, unchanged, _⟩ | ⟨_, _, ahead⟩ | ⟨slot, outcome, unchanged, _⟩ | ⟨slot, outcome, _⟩
    · rw [outcome] at right
      rw [right, left, unchanged]
      exact ⟨Move.ackRepeated pops current found (Or.inr outcome), rfl⟩
    · exact absurd ahead (registered current tracker found)
    · rw [outcome] at right
      rw [right, left, unchanged]
      exact ⟨Move.ackRepeated pops current found (Or.inl outcome), rfl⟩
    · rw [outcome] at right
      rw [right, left]
      exact ⟨Move.ackApplied pops current found outcome, rfl⟩

private theorem drainStep_resolution {deferred : List AckMsg} {rest : List AckMsg}
    (inPhase : s.phase = .resolutions deferred) (queued : s.acks = msg :: rest)
    (taken : s.drainStep = some s') : Move s .drain s' := by
  simp only [drainStep, inPhase, queued] at taken
  obtain rfl := Option.some.inj taken
  by_cases ahead : msg.id.epoch = s.cp.epoch ∧ ∃ tracker,
      s.cp.trackers.lookup msg.id.partition = some tracker ∧ tracker.nextSeq ≤ msg.id.seq
  · obtain ⟨current, tracker, found, ahead⟩ := ahead
    have result : s.cp.apply msg s.stats (some deferred) =
        ({ s.cp with trackers := s.cp.trackers.insert msg.id.partition tracker }, s.stats,
          some (deferred ++ [msg])) := by
      simp only [Checkpointer.apply, current, ne_eq, not_true_eq_false, ↓reduceIte, found,
        PartitionTracker.resolve_ahead ahead]
    rw [result]
    exact Move.ackDeferred inPhase queued current found ahead
  · obtain ⟨move, kept⟩ := move_of_apply (some deferred) (Pops.channel inPhase queued)
      (fun current tracker found behind => ahead ⟨current, tracker, found, behind⟩)
    rw [kept]
    simpa only [Option.getD_some, inPhase] using move

private theorem drainStep_lateResolution {rest : List AckMsg}
    (inPhase : s.phase = .lateResolutions (msg :: rest)) (taken : s.drainStep = some s') :
    Move s .drain s' := by
  simp only [drainStep, inPhase] at taken
  obtain rfl := Option.some.inj taken
  by_cases ahead : msg.id.epoch = s.cp.epoch ∧ ∃ tracker,
      s.cp.trackers.lookup msg.id.partition = some tracker ∧ tracker.nextSeq ≤ msg.id.seq
  · obtain ⟨current, tracker, found, ahead⟩ := ahead
    have result : s.cp.apply msg s.stats none =
        ({ s.cp with trackers := s.cp.trackers.insert msg.id.partition tracker },
          { s.stats with unknown := s.stats.unknown + 1 }, none) := by
      simp only [Checkpointer.apply, current, ne_eq, not_true_eq_false, ↓reduceIte, found,
        PartitionTracker.resolve_ahead ahead]
    rw [result]
    exact Move.ackUnknown inPhase current found ahead
  · exact (move_of_apply none (Pops.setAside inPhase)
      (fun current tracker found behind => ahead ⟨current, tracker, found, behind⟩)).1

private theorem move_of_drainStep (taken : s.drainStep = some s') : Move s .drain s' := by
  cases inPhase : s.phase with
  | idle =>
    simp only [drainStep, inPhase] at taken
    obtain rfl := Option.some.inj taken
    exact Move.drainStart inPhase
  | registrations late deferred =>
    cases queued : s.regs with
    | cons reg rest => exact drainStep_registration inPhase queued taken
    | nil =>
      simp only [drainStep, inPhase, queued] at taken
      obtain rfl := Option.some.inj taken
      simpa only [queued] using Move.regsDone inPhase queued
  | resolutions deferred =>
    cases queued : s.acks with
    | cons msg rest => exact drainStep_resolution inPhase queued taken
    | nil =>
      simp only [drainStep, inPhase, queued] at taken
      split at taken
      · rename_i none
        obtain rfl := Option.some.inj taken
        exact Move.drainDone (Or.inl ⟨none ▸ inPhase, queued⟩)
      · obtain rfl := Option.some.inj taken
        simpa only [queued] using Move.acksRetry inPhase queued
  | lateResolutions deferred =>
    cases deferred with
    | cons msg rest => exact drainStep_lateResolution inPhase taken
    | nil =>
      simp only [drainStep, inPhase] at taken
      obtain rfl := Option.some.inj taken
      exact Move.drainDone (Or.inr inPhase)
  | panicked why =>
    simp only [drainStep, inPhase] at taken
    cases taken

theorem move_of_step {op : Op} (taken : s.step op = some s') : Move s op s' := by
  cases op with
  | handle =>
    obtain rfl := Option.some.inj taken
    exact Move.handle
  | cloneIssuer i =>
    simp only [step] at taken
    split at taken
    · rename_i issuer found
      obtain rfl := Option.some.inj taken
      exact Move.cloneIssuer found
    · cases taken
  | load i partition lastOffset =>
    simp only [step] at taken
    split at taken
    · rename_i issuer found
      obtain rfl := Option.some.inj taken
      rw [AckIssuer.issue_id]
      exact Move.load found
    · cases taken
  | send i =>
    simp only [step] at taken
    split at taken
    · rename_i issuer reg found
      obtain rfl := Option.some.inj taken
      exact Move.send found
    · cases taken
  | clone handle =>
    obtain ⟨cell, found, live, rfl⟩ := withHandle_eq_some taken
    exact Move.clone found live
  | fail handle =>
    obtain ⟨cell, found, live, rfl⟩ := withHandle_eq_some taken
    exact Move.fail found live
  | drop handle =>
    obtain ⟨cell, found, live, rfl⟩ := withHandle_eq_some taken
    exact Move.drop found live
  | beginEpoch partitions epoch =>
    simp only [step] at taken
    split at taken
    · rename_i idle
      split at taken
      · rename_i cp begun
        obtain ⟨asserted, rfl⟩ := Checkpointer.beginEpoch_eq_some begun
        obtain rfl := Option.some.inj taken
        exact Move.beginEpoch idle asserted
      · obtain rfl := Option.some.inj taken
        exact Move.regress idle
    · cases taken
  | extendEpoch partitions =>
    simp only [step] at taken
    split at taken
    · rename_i idle
      split at taken
      · rename_i cp extended
        obtain ⟨fresh, rfl⟩ := Checkpointer.extendEpoch_eq_ok extended
        obtain rfl := Option.some.inj taken
        exact Move.extendEpoch idle fresh
      · obtain rfl := Option.some.inj taken
        exact Move.refuse
    · cases taken
  | revoke partitions =>
    simp only [step] at taken
    split at taken
    · rename_i idle
      obtain rfl := Option.some.inj taken
      exact Move.revoke idle
    · cases taken
  | drain => exact move_of_drainStep taken
  | takeWatermarks now =>
    simp only [step] at taken
    split at taken
    · rename_i idle
      obtain rfl := Option.some.inj taken
      exact Move.takeWatermarks idle
    · cases taken

end World

end Spate.Checkpoint
