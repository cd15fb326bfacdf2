import Spate.KafkaFeed
import Spate.Transition

set_option autoImplicit false

/- The threads of a Kafka feed, its producer and its reader as interleaved steps over the
shared state. A step is one locked section, or one call between two of them. The producer
holds every write it was given until its one report, in any order, and a write librdkafka
refuses at once is a failed report. The history records what was done, for the
properties alone: no step reads it. -/
namespace Spate.Kafka

open Spate.ByteCodec (Bytes)
open Spate.Feed (FeedError)

/-! ## Threads -/

/-- The last commit of a consumer thread that leaves: the close it serves and whether its
flush ended in time. -/
structure Exit where
  close : Option Nat
  flushed : Bool
  deriving DecidableEq

inductive Turn
  | polling
  /-- Partitions were given up, and their points are not committed yet. -/
  | revoking (points : List (Tp × Int))
  /-- Reading the positions of the owned partitions, before a commit. -/
  | reading (leaving : Option Exit) (owned : List Tp)
  | taking (leaving : Option Exit)
  | committing (leaving : Option Exit) (points : List (Tp × Int))
  | exiting (close : Option Nat)
  | resending (close : Option Nat)
  | flushing (close : Option Nat)
  | leaving (last : Exit)
  | settling (last : Exit) (committed : Bool)
  | left
  deriving DecidableEq

inductive Gate
  | idle
  /-- Reading the watermarks of `todo`, with those read, failed and late so far. Equal
  watermarks of its first partition are read `again`, the low one first. -/
  | reading (entries : List Gating) (started : Nat) (todo : List Nat)
      (again : Option (Option Int)) (marks : List (Nat × Int × Int)) (unread late : List Nat)
  /-- Waiting for the follower on `marks`. -/
  | waiting (entries : List Gating) (started : Nat) (marks : List (Nat × Int × Int))
      (parked : Bool) (unread : List Nat)
  /-- Putting `back` some entries before the others are admitted. -/
  | returning (back others : List Gating)
  | admitting (entries : List Gating)

def Gate.entries : Gate → List Gating
  | .idle => []
  | .reading entries _ _ _ _ _ _ => entries
  | .waiting entries _ _ _ _ => entries
  | .returning back others => back ++ others
  | .admitting entries => entries

/-- A write the producer holds, and whether its record is on the attempt topic. -/
structure Flight where
  write : Write
  landed : Bool

structure LogRecord where
  offset : Int
  key : Option Bytes
  value : Option Bytes
  deriving DecidableEq

/-- One attempt partition: its log start, its records and its high watermark. -/
structure Log where
  start : Int
  records : List LogRecord
  high : Int

/-! ## History -/

inductive Event
  | assigned (generation : Nat) (tps : List Tp)
  | delivered (copy : Position)
  | replaced (receipt successor : Nat)
  /-- A message that names no unit was sent to the dead-letter topic. -/
  | unnamed (receipt : Nat)
  | watermark (pass partition : Nat) (high : Int)
  /-- A gate pass decided on a delivery by its recorded count, and made `write`. -/
  | judged (pass : Nat) (entry : Gating) (count : Nat) (write : Option Write)
  | recorded (receipt : Nat) (identity : PublishId) (count : Nat)
  | returned (delivery : Ready)
  | acknowledged (receipt : Nat)
  | failed (delivery : Ready) (moving : Move)
  | moved (receipt : Nat) (finish : Finish)
  | tombstoned (receipt : Nat)
  | commit (points : List (Tp × Int))
  deriving DecidableEq

/-! ## The system -/

structure World where
  core : Core
  turn : Turn
  paused : List Tp
  gate : Gate
  pass : Nat
  flight : List Flight
  topic : Nat → Log
  /-- How many records of each attempt partition the follower has applied. -/
  followed : Nat → Nat
  history : List Event

namespace World

def initial (config : Config) (topic : Nat → Log) : World where
  core := ⟨.initial, false, .new config.attemptPartitions, []⟩
  turn := .polling
  paused := []
  gate := .idle
  pass := 0
  flight := []
  topic := topic
  followed := fun _ => 0
  history := []

def setState (w : World) (st : State) : World := { w with core := { w.core with state := st } }

def record (w : World) (events : List Event) : World :=
  { w with history := w.history ++ events }

def send (w : World) (writes : List Write) : World :=
  { w with flight := w.flight ++ writes.map fun write => ⟨write, false⟩ }

def latch (w : World) (reason : String) : World := { w with core := w.core.latch reason }

/-! ### The consumer thread -/

def message (config : Config) (w : World) (message : Message) : World :=
  let st := w.core.state
  let replaced := (st.tracker.replaceCopies message.tp message.offset).1
  let result := st.onMessage config message
  let receipt := st.tracker.nextReceipt + 1
  -- Nothing is delivered under a partition that was given up.
  match st.tracker.partitions.lookup message.tp with
  | none => w.setState result.1
  | some p =>
    ((w.setState result.1).record
      ((replaced.map fun old => .replaced old receipt) ++
        .delivered ⟨message.tp, message.offset, p.generation, receipt⟩ ::
          (result.2.toList.map fun _ => .unnamed receipt))).send
      (result.2.toList.map .move)

def pollError (w : World) (fatal : Bool) (reason : String) : World :=
  if fatal then w.latch reason
  else w.setState { w.core.state with retryable := some ⟨.retryable, reason⟩ }

/-- Pausing `tps`, which librdkafka took or refused. -/
def pause (w : World) (tps : List Tp) (taken : Bool) : World :=
  if taken then { w with paused := w.paused.union tps } else w

def assign (w : World) (tps : List Tp) (error : Option String) (pauseTaken : Bool) : World :=
  match error with
  | some e => w.latch s!"accepting an assignment: {e}"
  | none =>
    let st := { w.core.state with tracker := w.core.state.tracker.assign tps }
    let w := (w.setState st).record [.assigned st.tracker.generation tps]
    if st.stopping ∨ readyCapacity ≤ st.heldForReader then w.pause tps pauseTaken else w

def revoke (w : World) (tps : List Tp) : World :=
  let revoked := w.core.state.revoke tps
  { w.setState revoked.2 with
    turn := .revoking revoked.1
    paused := w.paused.filter (· ∉ tps) }

def commitRevoked (w : World) (points : List (Tp × Int)) : World :=
  let w := { w with turn := .polling }
  if points = [] ∨ w.core.latched then w else w.record [.commit points]

def loseAll (w : World) (fatal : Bool) (code : String) : World :=
  let w := { w.setState w.core.state.loseAll with paused := [] }
  if fatal then w.latch s!"rebalance error: {code}" else w

def backpressure (w : World) (taken : Bool) : World :=
  let st := w.core.state
  if st.stopping ∨ readyCapacity ≤ st.heldForReader then w.pause st.tracker.owned taken
  else if st.heldForReader ≤ readyCapacity / 2 then { w with paused := [] }
  else w

def resendDue (w : World) (now : Nat) : World :=
  let due := w.core.state.takeDue now
  (w.setState due.2).send due.1

def beginCommit (w : World) (leaving : Option Exit) : World :=
  if w.core.latched then
    match leaving with
    | none => { w with turn := .polling }
    | some last => { w with turn := .settling last false }
  else { w with turn := .reading leaving w.core.state.tracker.owned }

def retire (w : World) (leaving : Option Exit) (owned : List Tp) (position : Tp → Option Int) :
    World :=
  { w.setState (w.core.state.retireOffsets (owned.map fun tp => (tp, position tp))) with
    turn := .taking leaving }

def Turn.after (committed : Bool) : Option Exit → Turn
  | none => .polling
  | some last => .settling last committed

def takeCommits (w : World) (leaving : Option Exit) : World :=
  let taken := w.core.state.tracker.takeCommits
  let w := w.setState { w.core.state with tracker := taken.2 }
  if taken.1 = [] then { w with turn := Turn.after true leaving }
  else { w.record [.commit taken.1] with turn := .committing leaving taken.1 }

def committed (w : World) (leaving : Option Exit) (points : List (Tp × Int)) (ok : Bool) :
    World :=
  let w := { w with turn := Turn.after ok leaving }
  if ok then w
  else w.setState { w.core.state with tracker := w.core.state.tracker.untake points }

def exitLoop (w : World) : World :=
  { w.setState { w.core.state with close := none } with
    turn := .exiting w.core.state.close }

def settleClose (w : World) (last : Exit) (committed : Bool) : World :=
  let w := { w with turn := .left }
  match last.close with
  | none => w
  | some _ =>
    let result : Option FeedError :=
      match w.core.state.fatal with
      | some fatal => some fatal
      | none =>
        if !last.flushed then
          some ⟨.retryable, "the Kafka feed closed with writes still in flight; the units " ++
            "they would have finished are delivered again"⟩
        else if !committed then
          some ⟨.retryable, "the Kafka feed's last commit failed; the units it would have " ++
            "committed are delivered again"⟩
        else none
    { w with core := { w.core with answers := w.core.answers ++ [.closed result] } }

/-! ### The gate thread -/

/-- The attempt partitions of `entries`, ascending. -/
def gatePartitions (config : Config) (entries : List Gating) : List Nat :=
  ((entries.map fun entry => config.partition entry.identity).dedup).insertionSort (· ≤ ·)

def gateTake (config : Config) (w : World) (now : Nat) : World :=
  let st := w.core.state
  if st.stopping ∨ w.core.ended ∨ st.gating = [] then w
  else
    { w.setState
        { st with gating := [], admitting := st.admitting + st.gating.length } with
      pass := w.pass + 1
      gate := .reading st.gating now (gatePartitions config st.gating) none [] [] [] }

inductive Marks
  | both (low high : Int)
  | one (offset : Int)
  | error (fatal : Bool) (reason : String)

def afterRead (entries : List Gating) (started : Nat) (todo : List Nat)
    (marks : List (Nat × Int × Int)) (unread late : List Nat) : Gate :=
  match todo with
  | [] => .waiting entries started marks false (unread ++ late)
  | todo => .reading entries started todo none marks unread late

def gateRead (config : Config) (w : World) (entries : List Gating) (started : Nat)
    (partition : Nat) (todo : List Nat) (again : Option (Option Int))
    (marks : List (Nat × Int × Int)) (unread late : List Nat) (now : Nat) (answer : Marks) :
    Option World :=
  let marked (low high : Int) : World :=
    { w.record [.watermark w.pass partition high] with
      gate := afterRead entries started todo (marks ++ [(partition, low, high)]) unread late }
  if w.core.ended then some { w with gate := .returning entries [] }
  else if config.deliveryTimeout ≤ now - started then
    some { w with gate := afterRead entries started todo marks unread (late ++ [partition]) }
  else
    match again, answer with
    | none, .both low high =>
      if low ≠ high then some (marked low high)
      else
        some { w with
          gate := .reading entries started (partition :: todo) (some none) marks unread late }
    | some none, .one low =>
      some { w with
        gate := .reading entries started (partition :: todo) (some (some low)) marks unread
          late }
    | some (some low), .one high => some (marked low high)
    | _, .error true reason =>
      some { w.latch (s!"reading the watermarks of `{config.topics.attempt}` partition " ++
          s!"{partition}: {reason}") with
        gate := .returning entries [] }
    | _, .error false _ =>
      some { w with
        gate := afterRead entries started todo marks (unread ++ [partition]) late }
    | _, _ => none

/-- The watermarks are read and the follower has caught up on all of them. -/
def caughtUp (config : Config) (w : World) (entries : List Gating) (unread : List Nat) : World :=
  let isUnread (entry : Gating) : Bool := config.partition entry.identity ∈ unread
  { w with
    gate :=
      if unread = [] then .admitting entries
      else .returning (entries.filter isUnread) (entries.filter (!isUnread ·)) }

def gateWait (config : Config) (w : World) (entries : List Gating) (started : Nat)
    (marks : List (Nat × Int × Int)) (parked : Bool) (unread : List Nat) (now : Nat) : World :=
  match marks with
  | [] => caughtUp config w entries unread
  | (partition, low, high) :: rest =>
    if !parked then
      if w.core.stop then { w with gate := .returning entries [] }
      else if w.core.ledger.caughtUp partition low high then
        { w with gate := .waiting entries started rest false unread }
      else { w with gate := .waiting entries started marks true unread }
    else if w.core.ended ∨ config.deliveryTimeout ≤ now - started then
      { w with gate := .returning entries [] }
    else { w with gate := .waiting entries started marks false unread }

def gatePutBack (w : World) (back others : List Gating) : World :=
  { w.setState (w.core.state.putBack back) with gate := .admitting others }

def gateAdmit (config : Config) (w : World) (entry : Gating) (rest : List Gating) : World :=
  let count := w.core.ledger.count entry.identity.asBytes
  let result := w.core.state.admission config entry count
  let w' := { (w.setState result.2).send result.1.toList with gate := .admitting rest }
  -- A feed that stopped receiving decides on nothing.
  if w.core.state.stopping then w' else w'.record [.judged w.pass entry count result.1]

/-! ### The follower, the producer and the attempt topic -/

def follow (config : Config) (w : World) (partition : Nat) : Option World :=
  match (w.topic partition).records[w.followed partition]? with
  | none => none
  | some record =>
    match recordOf config.serde config.topics.attempt partition record.offset record.key
        record.value with
    | .error e => some (w.latch e.text)
    | .ok (identity, entry) =>
      some { w with
        core := { w.core with
          ledger := w.core.ledger.apply partition record.offset identity entry }
        followed := Function.update w.followed partition (w.followed partition + 1) }

def append (w : World) (partition : Nat) (record : LogRecord) : World :=
  { w with
    topic := Function.update w.topic partition
      { w.topic partition with
        records := (w.topic partition).records ++ [record]
        high := record.offset + 1 } }

def land (config : Config) (w : World) (i : Nat) (offset : Int) : Option World :=
  match w.flight[i]? with
  | none => none
  | some flight =>
    match flight.write.message.partition with
    | none => none
    | some partition =>
      if flight.write.message.topic = config.topics.attempt then
        some { w.append partition
            ⟨offset, flight.write.message.key, flight.write.message.payload⟩ with
          flight := w.flight.set i ⟨flight.write, true⟩ }
      else none

def confirmedEvents : Write → List Event
  | .publish _ _ => []
  | .move moving => [.moved moving.position.receipt moving.finish]
  | .attempt attempt => [.recorded attempt.receipt attempt.identity attempt.attempts]
  | .tombstone tombstone => [.tombstoned tombstone.position.receipt]

/-- The one report of a write: confirmed at `now`, or failed and, where it is sent again,
due at `now`. -/
def report (config : Config) (w : World) (i : Nat) (now : Nat) (failure : Option Failure) :
    Option World :=
  match w.flight[i]? with
  | none => none
  | some flight =>
    let w := { w with flight := w.flight.eraseIdx i }
    match failure with
    | none =>
      some ({ w with core := w.core.confirmed config now flight.write }.record
        (confirmedEvents flight.write))
    | some failure => some { w with core := w.core.failed now flight.write failure }

/-! ### The reader -/

def receive (w : World) (max : Nat) : World :=
  let result := w.core.state.receive max
  match result.1 with
  | .error _ => w.setState result.2
  | .ok out => (w.setState result.2).record (out.map .returned)

def renew (w : World) (receipt : Nat) : World := w.setState (w.core.state.renew receipt).2

def acknowledge (config : Config) (w : World) (receipt : Nat) : World :=
  let result := w.core.state.settle receipt
  match result.1 with
  | .error _ => w.setState result.2
  | .ok (handed, position) =>
    ((w.setState result.2).record [.acknowledged receipt]).send
      [acknowledgeWrite config handed position]

def fail (config : Config) (w : World) (receipt : Nat) : World :=
  let result := w.core.state.settle receipt
  match result.1 with
  | .error _ => w.setState result.2
  | .ok (handed, position) =>
    ((w.setState result.2).record [.failed handed (failMove config handed position)]).send
      [.move (failMove config handed position)]

def publish (config : Config) (w : World) (unit : FeedUnit) (confirmer : Nat) : World :=
  match w.core.state.fatal with
  | some fatal =>
    { w with
      core := { w.core with
        answers := w.core.answers ++ [.published confirmer (some fatal)] } }
  | none => w.send [.publish (.unit config.topics.work unit 0 none) confirmer]

def stopReceiving (w : World) : World :=
  if w.core.latched then w else w.setState { w.core.state with stopping := true }

def close (w : World) (within : Nat) : World :=
  match w.core.state.fatal with
  | some fatal =>
    { w with
      core := { w.core with answers := w.core.answers ++ [.closed (some fatal)] } }
  | none =>
    { w with
      core := { w.core with
        state := { w.core.state with stopping := true, close := some within } } }

def stop (w : World) : World := { w with core := { w.core with stop := true } }

end World

/-! ## Steps -/

inductive Action
  | message (message : Message)
  | pollError (fatal : Bool) (reason : String)
  | assign (tps : List Tp) (error : Option String) (pauseTaken : Bool)
  | revoke (tps : List Tp)
  | commitRevoked
  | loseAll (fatal : Bool) (code : String)
  | backpressure (taken : Bool)
  | resendDue (now : Nat)
  | beginCommit
  | retire (position : Tp → Option Int)
  | takeCommits
  | committed (ok : Bool)
  | exitLoop
  | exitCheck
  | flush (ok : Bool)
  | settleClose
  | gateTake (now : Nat)
  | gateRead (now : Nat) (answer : World.Marks)
  | gateWait (now : Nat)
  | gatePutBack
  | gateAdmit
  | follow (partition : Nat)
  | followError (reason : String)
  | land (i : Nat) (offset : Int)
  | report (i now : Nat) (failure : Option Failure)
  /-- Another worker of the group writes to the attempt topic. -/
  | foreign (partition : Nat) (record : LogRecord)
  /-- Offsets that hold no record, such as a transaction marker's. -/
  | marker (partition : Nat) (high : Int)
  | receive (max : Nat)
  | renew (receipt : Nat)
  | acknowledge (receipt : Nat)
  | fail (receipt : Nat)
  | publish (unit : FeedUnit) (confirmer : Nat)
  | stopReceiving
  | close (within : Nat)
  | stop
  | panicked (thread : String)

/-- One step, `none` when the thread is elsewhere. -/
def step (config : Config) (w : World) : Action → Option World
  | .message message => if w.turn = .polling then some (w.message config message) else none
  | .pollError fatal reason => if w.turn = .polling then some (w.pollError fatal reason) else none
  | .assign tps error pauseTaken =>
    if w.turn = .polling then some (w.assign tps error pauseTaken) else none
  | .revoke tps => if w.turn = .polling then some (w.revoke tps) else none
  | .commitRevoked =>
    match w.turn with
    | .revoking points => some (w.commitRevoked points)
    | _ => none
  | .loseAll fatal code => if w.turn = .polling then some (w.loseAll fatal code) else none
  | .backpressure taken => if w.turn = .polling then some (w.backpressure taken) else none
  | .resendDue now =>
    match w.turn with
    | .polling => some (w.resendDue now)
    | .resending close => some { w.resendDue now with turn := .flushing close }
    | _ => none
  | .beginCommit =>
    match w.turn with
    | .polling => some (w.beginCommit none)
    | .leaving last => some (w.beginCommit (some last))
    | _ => none
  | .retire position =>
    match w.turn with
    | .reading leaving owned => some (w.retire leaving owned position)
    | _ => none
  | .takeCommits =>
    match w.turn with
    | .taking leaving => some (w.takeCommits leaving)
    | _ => none
  | .committed ok =>
    match w.turn with
    | .committing leaving points => some (w.committed leaving points ok)
    | _ => none
  | .exitLoop => if w.turn = .polling ∧ w.core.ended then some w.exitLoop else none
  | .exitCheck =>
    match w.turn with
    | .exiting close =>
      some { w with
        turn := if w.core.latched then .leaving ⟨close, true⟩ else .resending close }
    | _ => none
  | .flush ok =>
    match w.turn with
    | .flushing close => some { w with turn := .leaving ⟨close, ok⟩ }
    | _ => none
  | .settleClose =>
    match w.turn with
    | .settling last committed => some (w.settleClose last committed)
    | _ => none
  | .gateTake now =>
    match w.gate with
    | .idle => some (w.gateTake config now)
    | _ => none
  | .gateRead now answer =>
    match w.gate with
    | .reading entries started (partition :: todo) again marks unread late =>
      w.gateRead config entries started partition todo again marks unread late now answer
    | _ => none
  | .gateWait now =>
    match w.gate with
    | .waiting entries started marks parked unread =>
      some (w.gateWait config entries started marks parked unread now)
    | _ => none
  | .gatePutBack =>
    match w.gate with
    | .returning back others => some (w.gatePutBack back others)
    | _ => none
  | .gateAdmit =>
    match w.gate with
    | .admitting [] => some { w with gate := .idle }
    | .admitting (entry :: rest) => some (w.gateAdmit config entry rest)
    | _ => none
  | .follow partition => w.follow config partition
  | .followError reason => some (w.latch reason)
  | .land i offset => w.land config i offset
  | .report i now failure => w.report config i now failure
  | .foreign partition record => some (w.append partition record)
  | .marker partition high =>
    some { w with
      topic := Function.update w.topic partition { w.topic partition with high := high } }
  | .receive max => some (w.receive max)
  | .renew receipt => some (w.renew receipt)
  | .acknowledge receipt => some (w.acknowledge config receipt)
  | .fail receipt => some (w.fail config receipt)
  | .publish unit confirmer => some (w.publish config unit confirmer)
  | .stopReceiving => some w.stopReceiving
  | .close within => some (w.close within)
  | .stop => some w.stop
  | .panicked thread => some (w.latch s!"the Kafka feed's {thread} thread panicked")

end Spate.Kafka
