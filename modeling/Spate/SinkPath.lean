import Spate.Transition
import Spate.AckBook
import Spate.SinkWorker

set_option autoImplicit false

/- The sink path as one system: pipeline threads with their terminal stages, the
shard queues and workers, the in-flight budget and the acknowledgment states.

Every step is one atomic action of one party, so a run is any interleaving of
them. A stage's call is cut where it touches shared memory: the work it still has
to do waits in `Stage.work`. What the operators before the terminal do to a record
(`ops/chain.rs`, `ops/split.rs`) is an event of its own. A record's own handle is
not counted: it lives only while the batch's handle does. -/
namespace Spate.Sink

variable {α : Type}

inductive Work (α : Type)
  | sealShard (shard : Nat)
  /-- A sealed chunk is in hand, its send is next. -/
  | send (shard : Nat) (chunk : EncodedChunk α)
  | drain
  deriving DecidableEq

def Work.chunk? : Work α → Option (EncodedChunk α)
  | .send _ chunk => some chunk
  | _ => none

namespace Work

variable (rest : List (Work α))

@[simp] theorem chunks_sealShard (shard : Nat) :
    (Work.sealShard shard :: rest).filterMap chunk? = rest.filterMap chunk? := rfl

@[simp] theorem chunks_send (shard : Nat) (chunk : EncodedChunk α) :
    (Work.send shard chunk :: rest).filterMap chunk? = chunk :: rest.filterMap chunk? := rfl

@[simp] theorem chunks_drain :
    (Work.drain :: rest).filterMap chunk? = rest.filterMap chunk? := rfl

end Work

structure Stage (E : RowEncoder α) (R : RecordRouter α) (K : FrameCodec) where
  thread : Nat
  handoff : SinkHandoff E R K
  /-- The stage's `ShardQueues`: the worker at the other end of each shard queue. -/
  queues : List Nat
  work : List (Work α)
  alive : Bool

structure Thread where
  batch : Option AckRef
  inPayload : Bool
  fatal : Bool
  deriving DecidableEq

structure PathLog (α : Type) where
  dropped : List (Record α)
  encoded : List (Record α)
  broken : List (Record α)
  /-- Bytes ever added to and subtracted from the budget. -/
  added : Nat
  released : Nat
  deriving DecidableEq

structure SinkPath (E : RowEncoder α) (R : RecordRouter α) (K : FrameCodec) where
  threads : List Thread
  stages : List (Stage E R K)
  workers : List (Worker α)
  budget : InflightBudget
  acks : AckBook
  log : PathLog α

structure StagePlan (E : RowEncoder α) (R : RecordRouter α) (K : FrameCodec) where
  thread : Nat
  encoder : E.State
  router : R.State
  queues : List Nat
  codec : Option K.State
  cfg : ChunkConfig
  component : String

def AckBook.after (book : AckBook) : List Effect → AckBook
  | [] => book
  | .deliver acks :: rest => (book.deliver acks).after rest
  | .discard acks :: rest => (book.discard acks).after rest
  | _ :: rest => book.after rest

def InflightBudget.after (budget : InflightBudget) : List Effect → InflightBudget
  | [] => budget
  | .release bytes :: rest => (budget.sub bytes).after rest
  | _ :: rest => budget.after rest

/-- The worker's task is aborted from outside and everything it owned is dropped.
The ledger's drop releases the budget of the batches still pending. -/
def Worker.abort (w : Worker α) : Worker α × List Effect :=
  ({ w with
      phase := .aborted
      queue := []
      recvBuf := []
      acc := .new
      ledger := { w.ledger with pending := ∅ }
      waiting := [] },
    w.recvBuf.map (fun chunk => .discard chunk.acks) ++ [.discard w.acc.acks] ++
      w.ledger.pending.entries.flatMap (fun entry =>
        [.release entry.2.bytes, .discard entry.2.acks]) ++
      w.queue.map fun chunk => .discard chunk.acks)

/-- `ShardQueues::try_send`: the workers after an accepted send, `none` when the
chunk is handed back. -/
def trySend (workers : List (Worker α)) (queues : List Nat) (shard : Nat)
    (chunk : EncodedChunk α) : Option (List (Worker α)) :=
  match queues[shard]? with
  | none => none
  | some idx =>
    match workers[idx]? with
    | none => none
    | some w => (w.offer chunk).map (workers.set idx)

namespace Stage

variable {E : RowEncoder α} {R : RecordRouter α} {K : FrameCodec}

def new (plan : StagePlan E R K) : Stage E R K :=
  ⟨plan.thread,
    .new plan.encoder plan.router plan.queues.length plan.codec plan.cfg plan.component,
    plan.queues, [], true⟩

def chunks (stage : Stage E R K) : List (EncodedChunk α) :=
  stage.handoff.parked.map (·.2) ++ stage.work.filterMap Work.chunk?

/-- One action of the call the stage is in, on the stage, the queues and the
budget: `seal_and_send` up to its send, the send, or one round of `drain_parked`. -/
def advance (stage : Stage E R K) (workers : List (Worker α)) (budget : InflightBudget) :
    Option (Stage E R K × List (Worker α) × InflightBudget) :=
  match stage.work with
  | [] => none
  | .sealShard idx :: rest =>
    match stage.handoff.sealChunk idx with
    | (h, none) => some ({ stage with handoff := h, work := rest }, workers, budget)
    | (h, some chunk) =>
      let budget := budget.add chunk.rawLen
      if h.backedUp idx then
        some ({ stage with handoff := h.park idx chunk, work := rest }, workers, budget)
      else some ({ stage with handoff := h, work := .send idx chunk :: rest }, workers, budget)
  | .send idx chunk :: rest =>
    match trySend workers stage.queues idx chunk with
    | some workers => some ({ stage with work := rest }, workers, budget)
    | none =>
      some ({ stage with handoff := stage.handoff.park idx chunk, work := rest }, workers,
        budget)
  | .drain :: rest =>
    match stage.handoff.parked with
    | [] => some ({ stage with work := rest }, workers, budget)
    | (idx, chunk) :: parked =>
      match trySend workers stage.queues idx chunk with
      | some workers =>
        some ({ stage with handoff := stage.handoff.unpark idx parked }, workers, budget)
      | none => some ({ stage with work := rest }, workers, budget)

def sealing (stage : Stage E R K) : Nat :=
  match stage.work with
  | .sealShard idx :: _ => (stage.handoff.sealChunk idx).2.elim 0 (·.rawLen)
  | _ => 0

/-- Everything one action of a stage's call can do; the chunk it sealed goes to the
budget. -/
inductive Advances (stage : Stage E R K) (workers : List (Worker α)) :
    Stage E R K → List (Worker α) → Option (EncodedChunk α) → Prop
  | unsealed {idx : Nat} {rest : List (Work α)} {h : SinkHandoff E R K}
      (head : stage.work = .sealShard idx :: rest) (seals : stage.handoff.Seals idx h none) :
      Advances stage workers { stage with handoff := h, work := rest } workers none
  | parked {idx : Nat} {rest : List (Work α)} {h : SinkHandoff E R K} {chunk : EncodedChunk α}
      (head : stage.work = .sealShard idx :: rest)
      (seals : stage.handoff.Seals idx h (some chunk)) :
      Advances stage workers { stage with handoff := h.park idx chunk, work := rest } workers
        (some chunk)
  | inHand {idx : Nat} {rest : List (Work α)} {h : SinkHandoff E R K} {chunk : EncodedChunk α}
      (head : stage.work = .sealShard idx :: rest)
      (seals : stage.handoff.Seals idx h (some chunk)) :
      Advances stage workers { stage with handoff := h, work := .send idx chunk :: rest } workers
        (some chunk)
  | sent {idx target : Nat} {rest : List (Work α)} {chunk : EncodedChunk α} {w : Worker α}
      (head : stage.work = .send idx chunk :: rest) (found : workers[target]? = some w)
      (live : w.phase.live) (listening : w.sendersLive) :
      Advances stage workers { stage with work := rest }
        (workers.set target { w with queue := w.queue ++ [chunk] }) none
  | handedBack {idx : Nat} {rest : List (Work α)} {chunk : EncodedChunk α}
      (head : stage.work = .send idx chunk :: rest) :
      Advances stage workers { stage with handoff := stage.handoff.park idx chunk, work := rest }
        workers none
  | drained {rest : List (Work α)} (head : stage.work = .drain :: rest) :
      Advances stage workers { stage with work := rest } workers none
  | unparked {idx target : Nat} {parked : List (Nat × EncodedChunk α)} {chunk : EncodedChunk α}
      {w : Worker α} (waiting : stage.handoff.parked = (idx, chunk) :: parked)
      (found : workers[target]? = some w) (live : w.phase.live) (listening : w.sendersLive) :
      Advances stage workers { stage with handoff := stage.handoff.unpark idx parked }
        (workers.set target { w with queue := w.queue ++ [chunk] }) none

theorem trySend_some {workers after : List (Worker α)} {queues : List Nat} {shard : Nat}
    {chunk : EncodedChunk α} (accepted : trySend workers queues shard chunk = some after) :
    ∃ (target : Nat) (w : Worker α), workers[target]? = some w ∧ w.phase.live ∧ w.sendersLive ∧
      after = workers.set target { w with queue := w.queue ++ [chunk] } := by
  unfold trySend at accepted
  split at accepted
  · cases accepted
  · rename_i target _
    split at accepted
    · cases accepted
    · rename_i w found
      obtain ⟨w', offered, rfl⟩ := Option.map_eq_some_iff.mp accepted
      unfold Worker.offer at offered
      split at offered
      · rename_i room
        cases offered
        exact ⟨target, w, found, room.1, room.2.1, rfl⟩
      · cases offered

theorem advances_advance {stage next : Stage E R K} {workers after : List (Worker α)}
    {budget later : InflightBudget}
    (taken : stage.advance workers budget = some (next, after, later)) :
    ∃ sealed, Advances stage workers next after sealed ∧
      later = sealed.elim budget (fun chunk => budget.add chunk.rawLen) ∧
      stage.sealing = sealed.elim 0 (·.rawLen) := by
  unfold advance at taken
  unfold sealing
  split at taken
  · cases taken
  · rename_i idx rest head
    have seals := SinkHandoff.seals_sealChunk stage.handoff idx
    rw [head]
    dsimp only
    split at taken
    · rename_i h same
      cases taken
      rw [same] at seals ⊢
      exact ⟨none, .unsealed head seals, rfl, rfl⟩
    · rename_i h chunk same
      rw [same] at seals ⊢
      dsimp only at taken
      split at taken
      · cases taken
        exact ⟨some chunk, .parked head seals, rfl, rfl⟩
      · cases taken
        exact ⟨some chunk, .inHand head seals, rfl, rfl⟩
  · rename_i idx chunk rest head
    rw [head]
    split at taken
    · rename_i accepted
      cases taken
      obtain ⟨target, w, found, live, listening, rfl⟩ := trySend_some accepted
      exact ⟨none, .sent head found live listening, rfl, rfl⟩
    · cases taken
      exact ⟨none, .handedBack head, rfl, rfl⟩
  · rename_i rest head
    rw [head]
    split at taken
    · cases taken
      exact ⟨none, .drained head, rfl, rfl⟩
    · rename_i idx chunk parked waiting
      split at taken
      · rename_i accepted
        cases taken
        obtain ⟨target, w, found, live, listening, rfl⟩ := trySend_some accepted
        exact ⟨none, .unparked waiting found live listening, rfl, rfl⟩
      · cases taken
        exact ⟨none, .drained head, rfl, rfl⟩

def dropped (stage : Stage E R K) : Stage E R K :=
  { stage with handoff := { stage.handoff with shards := [], parked := [] }, work := [],
               alive := false }

/-- What dropping the stage does to shared memory: its `Drop` releases the budget
of the parked chunks, and every handle it holds is in an `AckSet`. -/
def dropEffects (stage : Stage E R K) : List Effect :=
  stage.handoff.parked.flatMap (fun entry =>
      [.release entry.2.rawLen, .discard entry.2.acks]) ++
    (stage.work.filterMap Work.chunk?).map (fun chunk => .discard chunk.acks) ++
    stage.handoff.shards.map fun shard => .discard shard.acks

end Stage

inductive PathEvent (α : Type)
  | issue (thread : Nat) (id : BatchId) (lastOffset : Int64)
  | payload (thread : Nat)
  /-- A filter or a skip policy drops a record before the terminal. -/
  | filter (thread : Nat) (record : Record α)
  | raise (thread : Nat) (record : Record α)
  | swallow (thread : Nat) (record : Record α)
  | push (stage : Nat) (record : Record α)
  | endPayload (thread : Nat)
  | finish (thread : Nat)
  /-- `drive_batch` gives up on a blocked batch at shutdown. -/
  | abandon (thread : Nat)
  | unwind (thread : Nat)
  | takeFatal (thread : Nat)
  | relieve (stage : Nat)
  | flush (stage : Nat)
  | advance (stage : Nat)
  | dropStage (stage : Nat)
  | worker (idx : Nat) (event : WorkerEvent α)
  /-- `SinkPool::drain` force-aborts an overrunning worker. -/
  | abort (idx : Nat)
  deriving DecidableEq

namespace SinkPath

variable {E : RowEncoder α} {R : RecordRouter α} {K : FrameCodec}

def new (threads : Nat) (plans : List (StagePlan E R K)) (workers : List WorkerConfig) :
    SinkPath E R K where
  threads := List.replicate threads ⟨none, false, false⟩
  stages := plans.map .new
  workers := workers.map .new
  budget := ⟨0⟩
  acks := ⟨[], []⟩
  log := ⟨[], [], [], 0, 0⟩

def pendingFatal (s : SinkPath E R K) (t : Nat) : Bool :=
  s.threads[t]?.any (·.fatal) ||
    s.stages.any fun stage => stage.thread = t ∧ stage.handoff.fatal.isSome

def idle (s : SinkPath E R K) (t : Nat) : Bool :=
  s.stages.all fun stage => stage.thread = t → stage.work = []

def batch (s : SinkPath E R K) (t : Nat) : Option AckRef := s.threads[t]?.bind (·.batch)

def inPayload (s : SinkPath E R K) (t : Nat) : Bool := s.threads[t]?.any (·.inPayload)

def inside (s : SinkPath E R K) (t : Nat) (ack : AckRef) : Bool :=
  s.batch t = some ack ∧ s.inPayload t

def onStages (s : SinkPath E R K) (t : Nat) (f : Stage E R K → Stage E R K) :
    SinkPath E R K :=
  { s with stages := s.stages.map fun stage => if stage.thread = t then f stage else stage }

def clearFatals (s : SinkPath E R K) (t : Nat) : SinkPath E R K :=
  { s.onStages t fun stage => { stage with handoff := stage.handoff.takeFatal.1 } with
    threads := s.threads.modify t fun thread => { thread with fatal := false } }

/-- The thread is done with its batch: the handle is failed if `failed`, then
dropped. -/
def closeBatch (s : SinkPath E R K) (t : Nat) (ack : AckRef) (failed : Bool) :
    SinkPath E R K :=
  { s with
    acks := (if failed then s.acks.fail ack else s.acks).drop ack
    threads := s.threads.modify t fun thread => { thread with batch := none, inPayload := false } }

def apply (s : SinkPath E R K) (effects : List Effect) : SinkPath E R K :=
  { s with
    acks := s.acks.after effects
    budget := s.budget.after effects
    log := { s.log with released := s.log.released + (releases effects).sum } }

/-- Chunks arrive only from stages, and the senders of a queue are gone once no
stage holds a clone of them. -/
def mayHappen (s : SinkPath E R K) (idx : Nat) : WorkerEvent α → Bool
  | .arrive _ => false
  | .sendersGone => s.stages.all fun stage => ¬ (stage.alive ∧ idx ∈ stage.queues)
  | _ => true

/-- One step; `none` when it cannot happen. -/
def step (s : SinkPath E R K) : PathEvent α → Option (SinkPath E R K)
  | .issue t id lastOffset =>
    -- issuers never give out an id twice
    if t < s.threads.length ∧ s.batch t = none ∧ id ∉ s.acks.heap.map (·.id) then
      let (acks, ack) := s.acks.issue id lastOffset
      some { s with
        acks
        threads := s.threads.modify t fun thread =>
          { thread with batch := some ack, inPayload := false } }
    else none
  | .payload t =>
    if (s.batch t).isSome ∧ ¬ s.inPayload t then
      some { s with
        threads := s.threads.modify t fun thread => { thread with inPayload := true } }
    else none
  | .filter t record =>
    if s.inside t record.ack then
      some { s with log := { s.log with dropped := s.log.dropped ++ [record] } }
    else none
  | .raise t record =>
    if s.inside t record.ack then
      some { s with
        threads := s.threads.modify t fun thread => { thread with fatal := true }
        log := { s.log with broken := s.log.broken ++ [record] } }
    else none
  | .swallow t record =>
    if s.inside t record.ack ∧ s.pendingFatal t then
      some { s with log := { s.log with broken := s.log.broken ++ [record] } }
    else none
  | .push i record =>
    match s.stages[i]? with
    | none => none
    | some stage =>
      if stage.alive ∧ stage.work = [] ∧ 0 < stage.handoff.shards.length ∧
          s.inside stage.thread record.ack then
        match stage.handoff.accept record with
        | (h, .encoded shard cloned full) =>
          some { s with
            stages := s.stages.set i
              { stage with handoff := h, work := if full then [.sealShard shard] else [] }
            acks := if cloned then s.acks.clone record.ack else s.acks
            log := { s.log with encoded := s.log.encoded ++ [record] } }
        | (h, .skipped) =>
          some { s with
            stages := s.stages.set i { stage with handoff := h }
            log := { s.log with dropped := s.log.dropped ++ [record] } }
        | (h, _) =>
          some { s with
            stages := s.stages.set i { stage with handoff := h }
            log := { s.log with broken := s.log.broken ++ [record] } }
      else none
  | .endPayload t =>
    match s.batch t with
    | some ack =>
      if s.inPayload t ∧ s.idle t then
        if s.pendingFatal t then some ((s.clearFatals t).closeBatch t ack true)
        else some { s with
          threads := s.threads.modify t fun thread => { thread with inPayload := false } }
      else none
    | none => none
  | .finish t =>
    match s.batch t with
    | some ack => if s.inPayload t then none else some (s.closeBatch t ack false)
    | none => none
  | .abandon t =>
    match s.batch t with
    | some ack => if s.inPayload t then none else some (s.closeBatch t ack true)
    | none => none
  | .unwind t =>
    -- user code runs only while no chunk is in hand
    match s.batch t with
    | some ack =>
      if s.stages.all fun stage =>
          stage.thread = t → stage.work.all fun work => work.chunk? = none then
        some ((s.onStages t fun stage => { stage with work := [] }).closeBatch t ack true)
      else none
    | none => none
  | .takeFatal t =>
    if s.batch t = none ∧ s.idle t then some (s.clearFatals t) else none
  | .relieve i =>
    match s.stages[i]? with
    | some stage =>
      if stage.alive ∧ stage.work = [] then
        some { s with stages := s.stages.set i { stage with work := [.drain] } }
      else none
    | none => none
  | .flush i =>
    match s.stages[i]? with
    | some stage =>
      if stage.alive ∧ stage.work = [] then
        let seals := (List.range stage.handoff.shards.length).map Work.sealShard
        some { s with stages := s.stages.set i { stage with work := seals ++ [.drain] } }
      else none
    | none => none
  | .advance i =>
    match s.stages[i]? with
    | some stage =>
      match stage.advance s.workers s.budget with
      | some (next, workers, budget) =>
        some { s with
          stages := s.stages.set i next
          workers
          budget
          log := { s.log with added := s.log.added + stage.sealing } }
      | none => none
    | none => none
  | .dropStage i =>
    -- the chain outlives the batch it drives, and a seal and its send are one call
    match s.stages[i]? with
    | some stage =>
      if stage.alive ∧ s.batch stage.thread = none ∧
          stage.work.all fun work => work.chunk? = none then
        some ({ s with stages := s.stages.set i stage.dropped }.apply stage.dropEffects)
      else none
    | none => none
  | .worker idx event =>
    match s.workers[idx]? with
    | some w =>
      if s.mayHappen idx event then
        match w.step event with
        | some (next, effects) =>
          some ({ s with workers := s.workers.set idx next }.apply effects)
        | none => none
      else none
    | none => none
  | .abort idx =>
    match s.workers[idx]? with
    | some w =>
      if w.phase.live then
        some ({ s with workers := s.workers.set idx w.abort.1 }.apply w.abort.2)
      else none
    | none => none

inductive Move (s : SinkPath E R K) : PathEvent α → SinkPath E R K → Prop
  | issue {t : Nat} {id : BatchId} {lastOffset : Int64} (present : t < s.threads.length)
      (free : s.batch t = none) (fresh : id ∉ s.acks.heap.map (·.id)) :
      Move s (.issue t id lastOffset) { s with
        acks := (s.acks.issue id lastOffset).1
        threads := s.threads.modify t fun thread =>
          { thread with batch := some (s.acks.issue id lastOffset).2, inPayload := false } }
  | payload (t : Nat) :
      Move s (.payload t) { s with
        threads := s.threads.modify t fun thread => { thread with inPayload := true } }
  | filter (t : Nat) (record : Record α) :
      Move s (.filter t record)
        { s with log := { s.log with dropped := s.log.dropped ++ [record] } }
  | raise {t : Nat} {record : Record α} (inside : s.inside t record.ack) :
      Move s (.raise t record) { s with
        threads := s.threads.modify t fun thread => { thread with fatal := true }
        log := { s.log with broken := s.log.broken ++ [record] } }
  | swallow {t : Nat} {record : Record α} (inside : s.inside t record.ack)
      (pending : s.pendingFatal t) :
      Move s (.swallow t record) { s with log := { s.log with broken := s.log.broken ++ [record] } }
  | push {i shard : Nat} {stage : Stage E R K} {record : Record α} {h : SinkHandoff E R K}
      {cloned full : Bool} (found : s.stages[i]? = some stage) (ready : stage.work = [])
      (inside : s.inside stage.thread record.ack)
      (accepts : stage.handoff.Accepts record h (.encoded shard cloned full)) :
      Move s (.push i record) { s with
        stages := s.stages.set i
          { stage with handoff := h, work := if full then [.sealShard shard] else [] }
        acks := if cloned then s.acks.clone record.ack else s.acks
        log := { s.log with encoded := s.log.encoded ++ [record] } }
  | skip {i : Nat} {stage : Stage E R K} {record : Record α} {h : SinkHandoff E R K}
      (found : s.stages[i]? = some stage)
      (accepts : stage.handoff.Accepts record h .skipped) :
      Move s (.push i record) { s with
        stages := s.stages.set i { stage with handoff := h }
        log := { s.log with dropped := s.log.dropped ++ [record] } }
  | fail {i : Nat} {stage : Stage E R K} {record : Record α} {h : SinkHandoff E R K}
      {pushed : Pushed} (found : s.stages[i]? = some stage)
      (inside : s.inside stage.thread record.ack)
      (accepts : stage.handoff.Accepts record h pushed)
      (lost : pushed = .failed ∨ pushed = .swallowed) :
      Move s (.push i record) { s with
        stages := s.stages.set i { stage with handoff := h }
        log := { s.log with broken := s.log.broken ++ [record] } }
  | pass {t : Nat} (clear : s.pendingFatal t = false) :
      Move s (.endPayload t) { s with
        threads := s.threads.modify t fun thread => { thread with inPayload := false } }
  | fatal {t : Nat} {ack : AckRef} (driven : s.batch t = some ack) :
      Move s (.endPayload t) ((s.clearFatals t).closeBatch t ack true)
  | finish {t : Nat} {ack : AckRef} (driven : s.batch t = some ack)
      (between : s.inPayload t = false) : Move s (.finish t) (s.closeBatch t ack false)
  | abandon {t : Nat} {ack : AckRef} (driven : s.batch t = some ack) :
      Move s (.abandon t) (s.closeBatch t ack true)
  | unwind {t : Nat} {ack : AckRef} (driven : s.batch t = some ack)
      (empty : ∀ stage ∈ s.stages, stage.thread = t → stage.work.filterMap Work.chunk? = []) :
      Move s (.unwind t)
        ((s.onStages t fun stage => { stage with work := [] }).closeBatch t ack true)
  | takeFatal {t : Nat} (free : s.batch t = none) : Move s (.takeFatal t) (s.clearFatals t)
  | call {event : PathEvent α} {i : Nat} {stage : Stage E R K} {work : List (Work α)}
      (found : s.stages[i]? = some stage) (ready : stage.work = [])
      (empty : work.filterMap Work.chunk? = []) :
      Move s event { s with stages := s.stages.set i { stage with work } }
  | advance {i : Nat} {stage next : Stage E R K} {workers : List (Worker α)}
      {sealed : Option (EncodedChunk α)} (found : s.stages[i]? = some stage)
      (advances : stage.Advances s.workers next workers sealed)
      (charge : stage.sealing = sealed.elim 0 (·.rawLen)) :
      Move s (.advance i) { s with
        stages := s.stages.set i next
        workers
        budget := sealed.elim s.budget (fun chunk => s.budget.add chunk.rawLen)
        log := { s.log with added := s.log.added + sealed.elim 0 (·.rawLen) } }
  | dropStage {i : Nat} {stage : Stage E R K} (found : s.stages[i]? = some stage)
      (free : s.batch stage.thread = none) (empty : stage.work.filterMap Work.chunk? = []) :
      Move s (.dropStage i)
        ({ s with stages := s.stages.set i stage.dropped }.apply stage.dropEffects)
  | worker {idx : Nat} {w next : Worker α} {event : WorkerEvent α} {effects : List Effect}
      (found : s.workers[idx]? = some w) (inner : ∀ chunk, event ≠ .arrive chunk)
      (taken : w.step event = some (next, effects)) :
      Move s (.worker idx event) ({ s with workers := s.workers.set idx next }.apply effects)
  | abort {idx : Nat} {w : Worker α} (found : s.workers[idx]? = some w) (live : w.phase.live) :
      Move s (.abort idx) ({ s with workers := s.workers.set idx w.abort.1 }.apply w.abort.2)

variable {s next : SinkPath E R K}

theorem move_of_push {i : Nat} {record : Record α} (taken : s.step (.push i record) = some next) :
    Move s (.push i record) next := by
  simp only [step] at taken
  split at taken
  · cases taken
  · rename_i stage found
    split at taken
    · rename_i room
      obtain ⟨_, ready, nonempty, inside⟩ := room
      have accepts := SinkHandoff.accepts_accept stage.handoff record nonempty
      split at taken
      · rename_i h shard cloned full same
        rw [same] at accepts
        cases taken
        exact .push found ready inside accepts
      · rename_i h same
        rw [same] at accepts
        cases taken
        exact .skip found accepts
      · rename_i h pushed _ _ same
        rw [same] at accepts
        cases taken
        apply Move.fail found inside accepts
        cases pushed <;> simp_all
    · cases taken

theorem move_of_endPayload {t : Nat} (taken : s.step (.endPayload t) = some next) :
    Move s (.endPayload t) next := by
  simp only [step] at taken
  split at taken
  · rename_i ack driven
    split at taken
    · split at taken
      · cases taken
        exact .fatal driven
      · rename_i clear
        cases taken
        exact .pass (by simpa using clear)
    · cases taken
  · cases taken

theorem move_of_call {event : PathEvent α} {i : Nat} {work : Stage E R K → List (Work α)}
    (empty : ∀ stage, (work stage).filterMap Work.chunk? = [])
    (taken : (match s.stages[i]? with
      | some stage =>
        if stage.alive ∧ stage.work = [] then
          some { s with stages := s.stages.set i { stage with work := work stage } }
        else none
      | none => none) = some next) : Move s event next := by
  split at taken
  · rename_i stage found
    split at taken
    · rename_i room
      cases taken
      exact .call found room.2 (empty stage)
    · cases taken
  · cases taken

theorem move_of_worker {idx : Nat} {event : WorkerEvent α}
    (taken : s.step (.worker idx event) = some next) : Move s (.worker idx event) next := by
  simp only [step] at taken
  split at taken
  · rename_i w found
    split at taken
    · rename_i may
      split at taken
      · rename_i after effects stepped
        cases taken
        apply Move.worker found _ stepped
        rintro chunk rfl
        cases may
      · cases taken
    · cases taken
  · cases taken

theorem move_of_step {event : PathEvent α} (taken : s.step event = some next) :
    Move s event next := by
  cases event with
  | push i record => exact move_of_push taken
  | endPayload t => exact move_of_endPayload taken
  | worker idx event => exact move_of_worker taken
  | relieve i => exact move_of_call (fun _ => rfl) taken
  | flush i =>
    apply move_of_call (fun stage => ?_) taken
    rw [List.filterMap_append, List.filterMap_map]
    simp [Work.chunk?]
  | issue t id lastOffset =>
    simp only [step] at taken
    split at taken
    · rename_i room
      cases taken
      exact .issue room.1 room.2.1 room.2.2
    · cases taken
  | payload t =>
    simp only [step] at taken
    split at taken
    · cases taken
      exact .payload t
    · cases taken
  | filter t record =>
    simp only [step] at taken
    split at taken
    · cases taken
      exact .filter t record
    · cases taken
  | raise t record =>
    simp only [step] at taken
    split at taken
    · rename_i inside
      cases taken
      exact .raise inside
    · cases taken
  | swallow t record =>
    simp only [step] at taken
    split at taken
    · rename_i room
      cases taken
      exact .swallow room.1 room.2
    · cases taken
  | finish t =>
    simp only [step] at taken
    split at taken
    · rename_i ack driven
      split at taken
      · cases taken
      · rename_i between
        cases taken
        exact .finish driven (by simpa using between)
    · cases taken
  | abandon t =>
    simp only [step] at taken
    split at taken
    · rename_i ack driven
      split at taken
      · cases taken
      · cases taken
        exact .abandon driven
    · cases taken
  | unwind t =>
    simp only [step] at taken
    split at taken
    · rename_i ack driven
      split at taken
      · rename_i empty
        cases taken
        apply Move.unwind driven
        intro stage member owned
        rw [List.all_eq_true] at empty
        have none : ∀ work ∈ stage.work, work.chunk? = none := by
          simpa [owned] using empty stage member
        exact List.filterMap_eq_nil_iff.mpr none
      · cases taken
    · cases taken
  | takeFatal t =>
    simp only [step] at taken
    split at taken
    · rename_i room
      cases taken
      exact .takeFatal room.1
    · cases taken
  | advance i =>
    simp only [step] at taken
    split at taken
    · rename_i stage found
      split at taken
      · rename_i after workers budget stepped
        cases taken
        obtain ⟨sealed, advances, rfl, same⟩ := Stage.advances_advance stepped
        rw [same]
        exact .advance found advances same
      · cases taken
    · cases taken
  | dropStage i =>
    simp only [step] at taken
    split at taken
    · rename_i stage found
      split at taken
      · rename_i room
        obtain ⟨_, free, none⟩ := room
        cases taken
        apply Move.dropStage found free
        apply List.filterMap_eq_nil_iff.mpr
        simpa using none
      · cases taken
    · cases taken
  | abort idx =>
    simp only [step] at taken
    split at taken
    · rename_i w found
      split at taken
      · rename_i live
        cases taken
        exact .abort found live
      · cases taken
    · cases taken

end SinkPath

end Spate.Sink
