import Mathlib.Algebra.GroupWithZero.Nat
import Spate.FastMap
import Spate.Handoff

set_option autoImplicit false

/- The per-shard worker (`sink/worker.rs`). `run` is an event loop: each event
below is one poll that makes progress, of the worker's own task or of a write
task, a sender or the holder of the drain deadline. Clocks are left out: a timer
may fire whenever it is armed. The `log` is history. -/
namespace Spate.Sink

inductive FlushReason
  | rows
  | bytes
  | linger
  | drain
  deriving DecidableEq

structure WorkerConfig where
  maxPerShard : Nat
  maxRows : Nat
  maxBytes : Nat
  queueCapacity : Nat
  tokenPrefix : String
  deriving DecidableEq

structure WorkerReport where
  flushed : Nat
  abandoned : Nat
  deriving DecidableEq

/-- A batch sealed by a shard worker, ready to write; `chunks` is history. -/
structure SealedBatch (α : Type) where
  frames : List Bytes
  rows : Nat
  bytes : Nat
  dedupToken : String
  chunks : List (EncodedChunk α)
  deriving DecidableEq

/-- A batch awaiting resolution; `chunks` is history. -/
structure Pending (α : Type) where
  acks : AckSet
  rows : Nat
  bytes : Nat
  reason : FlushReason
  chunks : List (EncodedChunk α)
  deriving DecidableEq

inductive Outcome
  | written
  | failed (reason : String)
  | panicked (text : String)
  deriving DecidableEq

/-- A spawned write task; it holds a permit while it has no outcome. -/
structure Task (α : Type) where
  id : Nat
  seq : Nat
  batch : SealedBatch α
  outcome : Option Outcome
  deriving DecidableEq

/-- Chunks merged for the next batch; `chunks` is history. -/
structure Accumulator (α : Type) where
  frames : List Bytes
  rows : Nat
  bytes : Nat
  acks : AckSet
  chunks : List (EncodedChunk α)
  deriving DecidableEq

variable {α : Type}

namespace Accumulator

def new : Accumulator α := ⟨[], 0, 0, [], []⟩

def push (acc : Accumulator α) (chunk : EncodedChunk α) : Accumulator α where
  frames := acc.frames ++ [chunk.frame]
  rows := acc.rows + chunk.rows
  bytes := acc.bytes + chunk.rawLen
  acks := acc.acks ++ chunk.acks
  chunks := acc.chunks ++ [chunk]

def isEmpty (acc : Accumulator α) : Bool := acc.frames.isEmpty

end Accumulator

structure Ledger (α : Type) where
  pending : FastMap Nat (Pending α)
  ids : FastMap Nat Nat
  report : WorkerReport
  deriving DecidableEq

inductive Effect
  | deliver (acks : AckSet)
  /-- An `AckSet` is dropped, failing its handles. -/
  | discard (acks : AckSet)
  | release (bytes : Nat)
  | failure (reason : String)
  deriving DecidableEq

/-- The handle sets that were delivered, those that were dropped and so failed,
and the bytes handed back to the budget. -/
def deliveries (effects : List Effect) : List AckSet :=
  effects.filterMap fun
    | .deliver acks => some acks
    | _ => none

def discards (effects : List Effect) : List AckSet :=
  effects.filterMap fun
    | .discard acks => some acks
    | _ => none

def releases (effects : List Effect) : List Nat :=
  effects.filterMap fun
    | .release bytes => some bytes
    | _ => none

structure Resolution (α : Type) where
  seq : Nat
  delivered : Bool
  batch : Pending α
  deriving DecidableEq

structure WorkerLog (α : Type) where
  received : List (EncodedChunk α)
  batches : List (Nat × SealedBatch α)
  launched : List Nat
  written : List (Nat × SealedBatch α)
  /-- The sequences whose success was reported to the worker. -/
  succeeded : List Nat
  resolved : List (Resolution α)
  deriving DecidableEq

inductive Phase
  | intake
  | absorbing
  | receiving
  /-- In the drain's loop over waiting batches and write tasks. -/
  | draining
  | sweeping
  | returned
  | aborted
  deriving DecidableEq

def Phase.live : Phase → Bool
  | .returned | .aborted => false
  | _ => true

structure Worker (α : Type) where
  cfg : WorkerConfig
  queue : List (EncodedChunk α)
  sendersLive : Bool
  /-- The deadline watch: its value, whether that was seen, whether its sender lives. -/
  deadline : Option Nat
  deadlineUnseen : Bool
  deadlineSender : Bool
  deadlineWatchLive : Bool
  phase : Phase
  recvBuf : List (EncodedChunk α)
  acc : Accumulator α
  ledger : Ledger α
  tasks : List (Task α)
  permits : Nat
  waiting : List (Nat × SealedBatch α)
  seq : Nat
  log : WorkerLog α
  deriving DecidableEq

namespace Worker

def new (cfg : WorkerConfig) : Worker α where
  cfg
  queue := []
  sendersLive := true
  deadline := none
  deadlineUnseen := false
  deadlineSender := true
  deadlineWatchLive := true
  phase := .intake
  recvBuf := []
  acc := .new
  ledger := ⟨∅, ∅, ⟨0, 0⟩⟩
  tasks := []
  permits := cfg.maxPerShard
  waiting := []
  seq := 0
  log := ⟨[], [], [], [], [], []⟩

def sealReason (w : Worker α) : Option FlushReason :=
  if w.cfg.maxRows ≤ w.acc.rows then some .rows
  else if w.cfg.maxBytes ≤ w.acc.bytes then some .bytes
  else none

def token (w : Worker α) (seq : Nat) : String := w.cfg.tokenPrefix ++ toString seq

def sealedBatch (w : Worker α) : SealedBatch α :=
  ⟨w.acc.frames, w.acc.rows, w.acc.bytes, w.token w.seq, w.acc.chunks⟩

/-- Assigns a sequence to the accumulated batch and registers it in the ledger. -/
def sealBatch (w : Worker α) (reason : FlushReason) : Worker α :=
  { w with
    seq := w.seq + 1
    acc := .new
    ledger := { w.ledger with
      pending := w.ledger.pending.insert w.seq
        ⟨w.acc.acks, w.acc.rows, w.acc.bytes, reason, w.acc.chunks⟩ }
    log := { w.log with batches := w.log.batches ++ [(w.seq, w.sealedBatch)] } }

/-- Spawns the write task of a batch with a permit the caller took, under the id
the runtime gives it, and records the id. -/
def spawnWrite (w : Worker α) (id seq : Nat) (batch : SealedBatch α) : Worker α :=
  { w with
    permits := w.permits - 1
    tasks := w.tasks ++ [⟨id, seq, batch, none⟩]
    ledger := { w.ledger with ids := w.ledger.ids.insert id seq }
    log := { w.log with launched := w.log.launched ++ [seq] } }

def freshId (w : Worker α) (id : Nat) : Bool := w.tasks.all fun task => task.id ≠ id

/-- Seals the accumulated batch and starts writing it, or parks it in `waiting`.
Strict FIFO: a batch never overtakes one that waits. -/
def dispatch (w : Worker α) (reason : FlushReason) (id : Nat) : Option (Worker α) :=
  if w.acc.isEmpty then some w
  else
    let batch := w.sealedBatch
    let registered := w.sealBatch reason
    if w.waiting = [] ∧ 0 < w.permits then
      if w.freshId id then some (registered.spawnWrite id w.seq batch) else none
    else some { registered with waiting := w.waiting ++ [(w.seq, batch)] }

def launchWaiting (w : Worker α) (id : Nat) : Option (Worker α) :=
  match w.waiting with
  | [] => none
  | (seq, batch) :: rest =>
    if 0 < w.permits ∧ w.freshId id then
      some ({ w with waiting := rest }.spawnWrite id seq batch)
    else none

def resolve (w : Worker α) (seq : Nat) (delivered : Bool) (batch : Pending α)
    (report : WorkerReport) : Worker α :=
  { w with
    ledger := { w.ledger with pending := w.ledger.pending.erase seq, report }
    log := { w.log with resolved := w.log.resolved ++ [⟨seq, delivered, batch⟩] } }

def settle (w : Worker α) (seq : Nat) : Worker α × List Effect :=
  match w.ledger.pending.lookup seq with
  | none => (w, [])
  | some p =>
    (w.resolve seq true p { w.ledger.report with flushed := w.ledger.report.flushed + 1 },
      [.release p.bytes, .deliver p.acks])

def abandon (w : Worker α) (seq : Nat) (reason : String) : Worker α × List Effect :=
  match w.ledger.pending.lookup seq with
  | none => (w, [])
  | some p =>
    (w.resolve seq false p { w.ledger.report with abandoned := w.ledger.report.abandoned + 1 },
      [.failure reason, .discard p.acks, .release p.bytes])

/-- A panicked task has lost its sequence but not its id, which `ids` leads back
to the batch that died. -/
def handleJoin (w : Worker α) (id seq : Nat) : Outcome → Worker α × List Effect
  | .written =>
    { w with
      ledger := { w.ledger with ids := w.ledger.ids.erase id }
      log := { w.log with succeeded := w.log.succeeded ++ [seq] } }.settle seq
  | .failed reason =>
    { w with ledger := { w.ledger with ids := w.ledger.ids.erase id } }.abandon seq reason
  | .panicked text =>
    match w.ledger.ids.lookup id with
    | some seq =>
      { w with ledger := { w.ledger with ids := w.ledger.ids.erase id } }.abandon seq
        ("the write task panicked: " ++ text)
    | none => (w, [])

def joinTask (w : Worker α) (task : Task α) (outcome : Outcome) : Worker α × List Effect :=
  { w with tasks := w.tasks.filter (·.id ≠ task.id) }.handleJoin task.id task.seq outcome

def join (w : Worker α) (id : Nat) : Option (Worker α × List Effect) :=
  match w.tasks.find? (·.id = id) with
  | some task => task.outcome.map (w.joinTask task)
  | none => none

def abandonAll : List Nat → Worker α → Worker α × List Effect
  | [], w => (w, [])
  | seq :: rest, w =>
    let (w, effects) := w.abandon seq "the drain deadline passed before the write finished"
    let (w, more) := abandonAll rest w
    (w, effects ++ more)

/-- `run` returns and everything it owned is dropped, the receiver with the chunks
still queued among it. -/
def leave (w : Worker α) : Worker α × List Effect :=
  ({ w with phase := .returned, queue := [] }, w.queue.map fun chunk => .discard chunk.acks)

/-- The end of the sweep: tasks that stopped are gone, batches never spawned are
dropped and every batch still held fails. -/
def finishSweep (w : Worker α) : Worker α × List Effect :=
  let stopped := { w with tasks := w.tasks.filter (·.outcome = none), waiting := [] }
  let (w, effects) := abandonAll w.ledger.pending.keys stopped
  let (w, dropped) := { w with ledger := { w.ledger with ids := ∅ } }.leave
  (w, effects ++ dropped)

def ended (w : Worker α) (task : Task α) (outcome : Outcome) : Worker α :=
  { w with
    permits := w.permits + 1
    tasks := w.tasks.map fun other =>
      if other.id = task.id then { other with outcome := some outcome } else other
    log := { w.log with
      written := if outcome = .written then w.log.written ++ [(task.seq, task.batch)]
        else w.log.written } }

def endTask (w : Worker α) (id : Nat) (outcome : Outcome) : Option (Worker α) :=
  match w.tasks.find? (·.id = id) with
  | some task => if task.outcome = none then some (w.ended task outcome) else none
  | none => none

def offer (w : Worker α) (chunk : EncodedChunk α) : Option (Worker α) :=
  if w.phase.live ∧ w.sendersLive ∧ w.queue.length < w.cfg.queueCapacity then
    some { w with queue := w.queue ++ [chunk] }
  else none

/-- Moves the oldest chunk of a buffer into the accumulator, sealing on a crossed
threshold. -/
def absorb (w : Worker α) (chunk : EncodedChunk α) (id : Nat) : Option (Worker α) :=
  let merged := { w with acc := w.acc.push chunk }
  match merged.sealReason with
  | some reason => merged.dispatch reason id
  | none => some merged

end Worker

inductive WorkerEvent (α : Type)
  | arrive (chunk : EncodedChunk α)
  | sendersGone
  | publish (deadline : Option Nat)
  | deadlineSenderGone
  | finish (id : Nat) (outcome : Outcome)
  | join (id : Nat)
  | permit (id : Nat)
  | receive (count : Nat)
  | closed
  | absorb (id : Nat)
  | changed
  | linger (id : Nat)
  | tryReceive (id : Nat)
  | done
  /-- The sweep starts: the deadline is reached, or none will ever be published. -/
  | sweep
  | finishSweep
  deriving DecidableEq

namespace Worker

/-- What `changed` does: the watch was written, or its sender is gone for good. -/
def watchChanged (w : Worker α) : Option (Worker α) :=
  if ¬ w.deadlineWatchLive then none
  else if w.deadlineUnseen then
    let seen := { w with deadlineUnseen := false }
    if w.phase = .intake ∧ w.deadline.isSome then some { seen with phase := .receiving }
    else some seen
  else if ¬ w.deadlineSender then some { w with deadlineWatchLive := false }
  else none

/-- One event; `none` when it cannot happen. -/
def step (w : Worker α) : WorkerEvent α → Option (Worker α × List Effect)
  | .arrive chunk => (w.offer chunk).map (·, [])
  | .sendersGone => some ({ w with sendersLive := false }, [])
  | .publish deadline =>
    if w.deadlineSender then some ({ w with deadline, deadlineUnseen := true }, []) else none
  | .deadlineSenderGone => some ({ w with deadlineSender := false }, [])
  | .finish id outcome => (w.endTask id outcome).map (·, [])
  | .join id =>
    if w.phase = .intake ∨ w.phase = .draining then w.join id else none
  | .permit id =>
    if w.phase = .intake ∨ w.phase = .draining then (w.launchWaiting id).map (·, []) else none
  | .receive count =>
    if w.phase = .intake ∧ w.waiting = [] ∧ 0 < count ∧ count ≤ 64 ∧
        count ≤ w.queue.length then
      some ({ w with
        phase := .absorbing
        queue := w.queue.drop count
        recvBuf := w.queue.take count
        log := { w.log with received := w.log.received ++ w.queue.take count } }, [])
    else none
  | .closed =>
    if w.phase = .intake ∧ w.waiting = [] ∧ w.queue = [] ∧ ¬ w.sendersLive then
      some ({ w with phase := .receiving }, [])
    else none
  | .absorb id =>
    if w.phase = .absorbing then
      match w.recvBuf with
      | [] => some ({ w with phase := .intake }, [])
      | chunk :: rest => ({ w with recvBuf := rest }.absorb chunk id).map (·, [])
    else none
  | .changed =>
    if w.phase = .intake ∨ w.phase = .draining then w.watchChanged.map (·, []) else none
  | .linger id =>
    if w.phase = .intake ∧ ¬ w.acc.isEmpty ∧ w.waiting = [] then
      (w.dispatch .linger id).map (·, [])
    else none
  | .tryReceive id =>
    if w.phase = .receiving then
      match w.queue with
      | chunk :: rest =>
        ({ w with
          queue := rest
          log := { w.log with received := w.log.received ++ [chunk] } }.absorb chunk
            id).map (·, [])
      | [] =>
        -- what is left is force-sealed
        (w.dispatch .drain id).map fun w => ({ w with phase := .draining }, [])
    else none
  | .done =>
    if w.phase = .draining ∧ w.tasks = [] ∧ w.waiting = [] then some w.leave else none
  | .sweep =>
    if w.phase = .draining ∧ (w.deadline.isSome ∨ ¬ w.deadlineWatchLive) then
      some ({ w with phase := .sweeping }, [])
    else none
  | .finishSweep => if w.phase = .sweeping then some w.finishSweep else none

inductive Dispatched (w : Worker α) : Worker α → Prop
  | nothing (empty : w.acc.isEmpty) : Dispatched w w
  | spawned (reason : FlushReason) (id : Nat) (nonempty : w.acc.isEmpty = false)
      (first : w.waiting = []) (free : 0 < w.permits) (fresh : w.freshId id = true) :
      Dispatched w ((w.sealBatch reason).spawnWrite id w.seq w.sealedBatch)
  | parked (reason : FlushReason) (nonempty : w.acc.isEmpty = false) :
      Dispatched w { w.sealBatch reason with waiting := w.waiting ++ [(w.seq, w.sealedBatch)] }

section Dispatched

variable {w w' : Worker α}

theorem Dispatched.phase (dispatched : Dispatched w w') : w'.phase = w.phase := by
  cases dispatched <;> rfl

theorem Dispatched.cfg (dispatched : Dispatched w w') : w'.cfg = w.cfg := by
  cases dispatched <;> rfl

theorem Dispatched.queue (dispatched : Dispatched w w') : w'.queue = w.queue := by
  cases dispatched <;> rfl

theorem Dispatched.sendersLive (dispatched : Dispatched w w') :
    w'.sendersLive = w.sendersLive := by
  cases dispatched <;> rfl

theorem Dispatched.received (dispatched : Dispatched w w') :
    w'.log.received = w.log.received := by
  cases dispatched <;> rfl

theorem Dispatched.resolved (dispatched : Dispatched w w') :
    w'.log.resolved = w.log.resolved := by
  cases dispatched <;> rfl

end Dispatched

variable {next : Worker α} {id : Nat}

theorem dispatched_of_dispatch {w : Worker α} {reason : FlushReason}
    (taken : w.dispatch reason id = some next) : Dispatched w next := by
  unfold dispatch at taken
  split at taken
  · rename_i empty
    cases taken
    exact .nothing empty
  · rename_i nonempty
    have nonempty : w.acc.isEmpty = false := by simpa using nonempty
    dsimp only at taken
    split at taken
    · rename_i room
      split at taken
      · rename_i fresh
        cases taken
        exact .spawned reason id nonempty room.1 room.2 fresh
      · cases taken
    · cases taken
      exact .parked reason nonempty

theorem dispatched_of_absorb {w : Worker α} {chunk : EncodedChunk α}
    (taken : w.absorb chunk id = some next) :
    next = { w with acc := w.acc.push chunk } ∨
      Dispatched { w with acc := w.acc.push chunk } next := by
  unfold absorb at taken
  dsimp only at taken
  split at taken
  · exact Or.inr (dispatched_of_dispatch taken)
  · cases taken
    exact Or.inl rfl

inductive Move (w : Worker α) : WorkerEvent α → Worker α → List Effect → Prop
  | arrive (chunk : EncodedChunk α) (live : w.phase.live) :
      Move w (.arrive chunk) { w with queue := w.queue ++ [chunk] } []
  | signal {event : WorkerEvent α} {w' : Worker α} (inner : ∀ chunk, event ≠ .arrive chunk)
      (same : w' = { w with
        sendersLive := w'.sendersLive, deadline := w'.deadline
        deadlineUnseen := w'.deadlineUnseen, deadlineSender := w'.deadlineSender
        deadlineWatchLive := w'.deadlineWatchLive, phase := w'.phase })
      (phase : w'.phase = w.phase ∨ (w.phase = .intake ∧ w'.phase = .receiving) ∨
        (w.phase = .draining ∧ w'.phase = .sweeping))
      (senders : w'.sendersLive → w.sendersLive) : Move w event w' []
  | finish {task : Task α} (outcome : Outcome) (present : task ∈ w.tasks)
      (running : task.outcome = none) :
      Move w (.finish task.id outcome) (w.ended task outcome) []
  | join {task : Task α} {outcome : Outcome} (live : w.phase.live) (present : task ∈ w.tasks)
      (ended : task.outcome = some outcome) :
      Move w (.join task.id) (w.joinTask task outcome).1 (w.joinTask task outcome).2
  | launch {seq id : Nat} {batch : SealedBatch α} {rest : List (Nat × SealedBatch α)}
      (live : w.phase.live) (head : w.waiting = (seq, batch) :: rest) (free : 0 < w.permits)
      (fresh : w.freshId id = true) :
      Move w (.permit id) ({ w with waiting := rest }.spawnWrite id seq batch) []
  | receive (count : Nat) (intake : w.phase = .intake) :
      Move w (.receive count) { w with
        phase := .absorbing
        queue := w.queue.drop count
        recvBuf := w.queue.take count
        log := { w.log with received := w.log.received ++ w.queue.take count } } []
  | absorb {id : Nat} {chunk : EncodedChunk α} {rest : List (EncodedChunk α)} {w' : Worker α}
      (phase : w.phase = .absorbing) (head : w.recvBuf = chunk :: rest)
      (merged : w' = { w with recvBuf := rest, acc := w.acc.push chunk } ∨
        Dispatched { w with recvBuf := rest, acc := w.acc.push chunk } w') :
      Move w (.absorb id) w' []
  | absorbed {id : Nat} (phase : w.phase = .absorbing) (empty : w.recvBuf = []) :
      Move w (.absorb id) { w with phase := .intake } []
  | linger {id : Nat} {w' : Worker α} (live : w.phase.live) (sealed : Dispatched w w') :
      Move w (.linger id) w' []
  | tryReceive {id : Nat} {chunk : EncodedChunk α} {rest : List (EncodedChunk α)} {w' : Worker α}
      (phase : w.phase = .receiving) (head : w.queue = chunk :: rest)
      (merged : w' = { w with
            queue := rest
            log := { w.log with received := w.log.received ++ [chunk] }
            acc := w.acc.push chunk } ∨
        Dispatched { w with
            queue := rest
            log := { w.log with received := w.log.received ++ [chunk] }
            acc := w.acc.push chunk } w') : Move w (.tryReceive id) w' []
  | received {id : Nat} {w' : Worker α} (phase : w.phase = .receiving) (empty : w.queue = [])
      (sealed : Dispatched w w') : Move w (.tryReceive id) { w' with phase := .draining } []
  | done (phase : w.phase = .draining) (joined : w.tasks = []) (launched : w.waiting = []) :
      Move w .done w.leave.1 w.leave.2
  | finishSweep (phase : w.phase = .sweeping) : Move w .finishSweep w.finishSweep.1 w.finishSweep.2

theorem move_of_watchChanged {w : Worker α} (taken : w.watchChanged = some next) :
    Move w .changed next [] := by
  unfold watchChanged at taken
  split at taken
  · cases taken
  · split at taken
    · dsimp only at taken
      split at taken
      · rename_i intake
        cases taken
        exact .signal (by simp) rfl (Or.inr (Or.inl ⟨intake.1, rfl⟩)) (by simp)
      · cases taken
        exact .signal (by simp) rfl (Or.inl rfl) (by simp)
    · split at taken
      · cases taken
        exact .signal (by simp) rfl (Or.inl rfl) (by simp)
      · cases taken

theorem move_of_join {w : Worker α} {effects : List Effect} (live : w.phase.live)
    (taken : w.join id = some (next, effects)) : Move w (.join id) next effects := by
  unfold join at taken
  split at taken
  · rename_i task located
    obtain ⟨outcome, ended, moved⟩ := Option.map_eq_some_iff.mp taken
    have step := Move.join live (List.mem_of_find?_eq_some located) ended
    have same : task.id = id := by simpa using List.find?_some located
    rwa [moved, same] at step
  · cases taken

theorem move_of_launchWaiting {w : Worker α} (live : w.phase.live)
    (taken : w.launchWaiting id = some next) : Move w (.permit id) next [] := by
  unfold launchWaiting at taken
  split at taken
  · cases taken
  · rename_i seq batch rest head
    split at taken
    · rename_i room
      cases taken
      exact .launch live head room.1 room.2
    · cases taken

theorem move_of_endTask {w : Worker α} {outcome : Outcome}
    (taken : w.endTask id outcome = some next) : Move w (.finish id outcome) next [] := by
  unfold endTask at taken
  split at taken
  · rename_i task located
    split at taken
    · rename_i running
      cases taken
      obtain rfl : task.id = id := by simpa using List.find?_some located
      exact .finish outcome (List.mem_of_find?_eq_some located) running
    · cases taken
  · cases taken

theorem move_of_step {w : Worker α} {event : WorkerEvent α} {effects : List Effect}
    (taken : w.step event = some (next, effects)) : Move w event next effects := by
  cases event with
  | arrive chunk =>
    obtain ⟨w', offered, pair⟩ := Option.map_eq_some_iff.mp taken
    cases pair
    unfold offer at offered
    split at offered
    · rename_i room
      cases offered
      exact .arrive chunk room.1
    · cases offered
  | sendersGone | deadlineSenderGone =>
    cases taken
    exact .signal (by simp) rfl (Or.inl rfl) (by simp)
  | publish deadline =>
    simp only [step] at taken
    split at taken
    · cases taken
      exact .signal (by simp) rfl (Or.inl rfl) (by simp)
    · cases taken
  | finish id outcome =>
    obtain ⟨w', ended, pair⟩ := Option.map_eq_some_iff.mp taken
    cases pair
    exact move_of_endTask ended
  | join id =>
    simp only [step] at taken
    split at taken
    · rename_i phase
      apply move_of_join _ taken
      rcases phase with phase | phase <;> rw [phase] <;> rfl
    · cases taken
  | permit id =>
    simp only [step] at taken
    split at taken
    · rename_i phase
      obtain ⟨w', launched, pair⟩ := Option.map_eq_some_iff.mp taken
      cases pair
      apply move_of_launchWaiting _ launched
      rcases phase with phase | phase <;> rw [phase] <;> rfl
    · cases taken
  | receive count =>
    simp only [step] at taken
    split at taken
    · rename_i room
      cases taken
      exact .receive count room.1
    · cases taken
  | closed =>
    simp only [step] at taken
    split at taken
    · rename_i room
      cases taken
      exact .signal (by simp) rfl (Or.inr (Or.inl ⟨room.1, rfl⟩)) (by simp)
    · cases taken
  | absorb id =>
    simp only [step] at taken
    split at taken
    · rename_i phase
      split at taken
      · rename_i empty
        cases taken
        exact .absorbed phase empty
      · rename_i chunk rest head
        obtain ⟨w', merged, pair⟩ := Option.map_eq_some_iff.mp taken
        cases pair
        exact .absorb phase head (dispatched_of_absorb merged)
    · cases taken
  | changed =>
    simp only [step] at taken
    split at taken
    · obtain ⟨w', seen, pair⟩ := Option.map_eq_some_iff.mp taken
      cases pair
      exact move_of_watchChanged seen
    · cases taken
  | linger id =>
    simp only [step] at taken
    split at taken
    · rename_i room
      obtain ⟨w', sealed, pair⟩ := Option.map_eq_some_iff.mp taken
      cases pair
      exact .linger (by rw [room.1]; rfl) (dispatched_of_dispatch sealed)
    · cases taken
  | tryReceive id =>
    simp only [step] at taken
    split at taken
    · rename_i phase
      split at taken
      · rename_i chunk rest head
        obtain ⟨w', merged, pair⟩ := Option.map_eq_some_iff.mp taken
        cases pair
        exact .tryReceive phase head (dispatched_of_absorb merged)
      · rename_i empty
        obtain ⟨w', sealed, pair⟩ := Option.map_eq_some_iff.mp taken
        cases pair
        exact .received phase empty (dispatched_of_dispatch sealed)
    · cases taken
  | done =>
    simp only [step] at taken
    split at taken
    · rename_i room
      cases taken
      exact .done room.1 room.2.1 room.2.2
    · cases taken
  | sweep =>
    simp only [step] at taken
    split at taken
    · rename_i room
      cases taken
      exact .signal (by simp) rfl (Or.inr (Or.inr ⟨room.1, rfl⟩)) (by simp)
    · cases taken
  | finishSweep =>
    simp only [step] at taken
    split at taken
    · rename_i phase
      cases taken
      exact .finishSweep phase
    · cases taken

end Worker

end Spate.Sink
