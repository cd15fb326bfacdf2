import Spate.EndCheck
import Spate.KafkaAttempt
import Spate.KafkaTracker

set_option autoImplicit false

/- The work feed over Kafka topics (`spate-kafka/src/feed`): the writes it makes
(`write.rs`), its shared state with the calls of the reader and the settling of writes
(`mod.rs`), and the locked sections of its consumer thread (`consumer.rs`) and its gate
thread (`gate.rs`). Instants are numbers. A delivery report's code enters as its class,
and a resend is due when the report says. What only logs and metrics read is left out, as
are the wakers. -/
namespace Spate.Kafka

open Spate.ByteCodec (Bytes encodeUtf8 decodeUtf8)
open Spate.Feed (FeedError)

/-! ## Writes -/

structure FeedUnit where
  id : String
  body : Bytes
  deriving DecidableEq

structure Outgoing where
  topic : String
  partition : Option Nat
  key : Option Bytes
  payload : Option Bytes
  headers : Headers
  deriving DecidableEq

def deliveriesHeader : String := "spate.deliveries"

namespace Outgoing

def unit (topic : String) (unit : FeedUnit) (deliveries : Nat) (origin : Option PublishId) :
    Outgoing where
  topic := topic
  partition := none
  key := some (encodeUtf8 unit.id)
  payload := some unit.body
  headers :=
    (if deliveries ≠ 0 then [(deliveriesHeader, some (encodeUtf8 (toString deliveries)))]
      else []) ++
    match origin with
    | some origin => [(originHeader, some origin.asBytes)]
    | none => []

/-- The attempt record for `identity`: `attempts`, or a tombstone for `none`. -/
def attemptRecord (topic : String) (identity : PublishId) (partition : Nat)
    (attempts : Option Nat) : Outgoing :=
  ⟨topic, some partition, some identity.asBytes, attempts.map encode, []⟩

end Outgoing

inductive Cause
  | attemptCap
  | noUnit
  deriving DecidableEq

inductive Destination
  | retry
  | deadLetter (cause : Cause)
  deriving DecidableEq

/-- What finishes a moved message's offset once the move is confirmed. -/
inductive Finish
  | complete
  | tombstone (identity : PublishId)
  deriving DecidableEq

structure Move where
  message : Outgoing
  position : Position
  destination : Destination
  unit : Option String
  deliveries : Nat
  finish : Finish
  deriving DecidableEq

structure Attempt where
  message : Outgoing
  attempts : Nat
  receipt : Nat
  unit : FeedUnit
  identity : PublishId
  attemptPartition : Nat
  deriving DecidableEq

def Attempt.new (topic : String) (identity : PublishId) (partition attempts receipt : Nat)
    (unit : FeedUnit) : Attempt :=
  ⟨.attemptRecord topic identity partition (some attempts), attempts, receipt, unit, identity,
    partition⟩

/-- The tombstone of a unit's attempt record, which finishes the unit's offset. -/
structure Tombstone where
  message : Outgoing
  position : Position
  deriving DecidableEq

def Tombstone.new (topic : String) (identity : PublishId) (partition : Nat)
    (position : Position) : Tombstone :=
  ⟨.attemptRecord topic identity partition none, position⟩

inductive Write
  | publish (message : Outgoing) (confirmer : Nat)
  | move (moving : Move)
  | attempt (attempt : Attempt)
  | tombstone (tombstone : Tombstone)
  deriving DecidableEq

namespace Write

def message : Write → Outgoing
  | .publish message _ => message
  | .move moving => moving.message
  | .attempt record => record.message
  | .tombstone record => record.message

/-- What the write carries, for a latch reason. -/
def what : Write → String
  | .publish _ _ | .move _ => "a unit"
  | .attempt _ => "an attempt record"
  | .tombstone _ => "an attempt record's tombstone"

end Write

inductive WriteClass
  | refused
  | fatal
  | retryable
  deriving DecidableEq

structure Failure where
  writeClass : WriteClass
  reason : String
  deriving DecidableEq

/-- Where a unit failed on delivery `deliveries` goes under `cap`. -/
def route (deliveries : Nat) (cap : NonZero) : Destination :=
  if cap.value ≤ deliveries then .deadLetter .attemptCap else .retry

/-! ## State -/

structure Config where
  topics : Topics
  attemptCap : NonZero
  attemptPartitions : NonZero
  deliveryTimeout : Nat
  serde : Serde

def Config.partition (config : Config) (identity : PublishId) : Nat :=
  partitionOf identity.asBytes config.attemptPartitions

def readyCapacity : Nat := 128

structure Gating where
  receipt : Nat
  unit : FeedUnit
  identity : PublishId
  deriving DecidableEq

structure Ready where
  receipt : Nat
  unit : FeedUnit
  deliveries : Nat
  identity : PublishId
  attemptPartition : Nat
  deriving DecidableEq

structure State where
  tracker : Tracker
  gating : List Gating
  /-- Deliveries the gate took whose attempt write has not settled. -/
  admitting : Nat
  ready : List Ready
  handed : FastMap Nat Ready
  fatal : Option FeedError
  retryable : Option FeedError
  resends : List (Nat × Write)
  stopping : Bool
  close : Option Nat

namespace State

def initial : State := ⟨.empty, [], 0, [], ∅, none, none, [], false, none⟩

/-- Forgets the deliveries `receipts` name, at the gate, buffered or handed out. -/
def forget (st : State) (receipts : List Nat) : State :=
  { st with
    gating := st.gating.filter (·.receipt ∉ receipts)
    ready := st.ready.filter (·.receipt ∉ receipts)
    handed := FastMap.eraseAll receipts st.handed }

/-- Drops the deliveries at the gate and the buffered ones of partitions the tracker no
longer owns, and their receipts with them. -/
def dropUnowned (st : State) : State :=
  let gating := Tracker.retain Gating.receipt st.gating st.tracker
  let ready := Tracker.retain Ready.receipt st.ready gating.2
  { st with gating := gating.1, ready := ready.1, tracker := ready.2 }

def heldForReader (st : State) : Nat := st.ready.length + st.gating.length + st.admitting

end State

/-- The answer of a confirmation: `none` when it was confirmed. -/
inductive Answer
  | published (confirmer : Nat) (result : Option FeedError)
  | closed (result : Option FeedError)
  deriving DecidableEq

/-- What the feed's threads, its producer's reports and its calls share. -/
structure Core where
  state : State
  stop : Bool
  ledger : Ledger
  answers : List Answer

namespace Core

def latched (core : Core) : Bool := core.state.fatal.isSome

def ended (core : Core) : Bool := core.stop || core.latched

def latchError (core : Core) (reason : String) : FeedError :=
  core.state.fatal.getD ⟨.fatal, reason⟩

def latch (core : Core) (reason : String) : Core :=
  { core with
    state :=
      { core.state with fatal := some (core.latchError reason), resends := [], close := none }
    answers := core.answers ++
      match core.state.close with
      | some _ => [.closed (some (core.latchError reason))]
      | none => [] }

/-- Queues `write` to be sent at `due`, unless the feed has stopped or latched. -/
def queueResend (core : Core) (due : Nat) (write : Write) : Core :=
  if core.ended then core
  else { core with state := { core.state with resends := core.state.resends ++ [(due, write)] } }

def confirmed (config : Config) (core : Core) (now : Nat) : Write → Core
  | .publish _ confirmer =>
    { core with answers := core.answers ++ [.published confirmer none] }
  | .move moving =>
    match moving.finish with
    | .complete =>
      { core with
        state :=
          { core.state with tracker := core.state.tracker.complete moving.position } }
    | .tombstone identity =>
      core.queueResend now (.tombstone (.new config.topics.attempt identity
        (config.partition identity) moving.position))
  | .attempt attempt =>
    let st := { core.state with admitting := core.state.admitting - 1 }
    match st.tracker.heldBy attempt.receipt with
    | (some _, tracker) =>
      { core with
        state :=
          { st with
            tracker := tracker
            ready := st.ready ++ [⟨attempt.receipt, attempt.unit, attempt.attempts,
              attempt.identity, attempt.attemptPartition⟩] } }
    | (none, tracker) => { core with state := { st with tracker := tracker } }
  | .tombstone tombstone =>
    { core with
      state := { core.state with tracker := core.state.tracker.complete tombstone.position } }

/-- A write failed; one that is sent again is due at `due`. -/
def failed (core : Core) (due : Nat) (write : Write) (failure : Failure) : Core :=
  match write with
  | .publish _ confirmer =>
    match failure.writeClass with
    | .refused =>
      { core with
        answers := core.answers ++
          [.published confirmer (some ⟨.refused, failure.reason⟩)] }
    | .fatal =>
      let core := core.latch failure.reason
      { core with
        answers := core.answers ++
          [.published confirmer (some (core.latchError failure.reason))] }
    | .retryable =>
      { core with
        answers := core.answers ++ [.published confirmer
          (some (core.state.fatal.getD ⟨.retryable, failure.reason⟩))] }
  | write =>
    match failure.writeClass with
    | .refused | .fatal =>
      core.latch s!"writing {write.what} to `{write.message.topic}` failed: {failure.reason}"
    | .retryable => core.queueResend due write

end Core

/-! ## The reader's calls -/

structure Delivery where
  unit : FeedUnit
  receipt : Nat
  deliveries : Nat
  deriving DecidableEq

def gone (receipt : Nat) : FeedError :=
  ⟨.gone, s!"receipt {receipt} no longer names a delivery the feed holds"⟩

def Ready.delivery (ready : Ready) : Delivery := ⟨ready.unit, ready.receipt, ready.deliveries⟩

namespace State

/-- Up to `max` buffered deliveries, which the reader then holds. -/
def receive (st : State) (max : Nat) : Except FeedError (List Ready) × State :=
  match st.fatal with
  | some fatal => (.error fatal, st)
  | none =>
    match st.retryable with
    | some e => (.error e, { st with retryable := none })
    | none =>
      (.ok (st.ready.take max),
        { st with
          ready := st.ready.drop max
          handed := (st.ready.take max).foldl
            (fun handed ready => handed.insert ready.receipt ready) st.handed })

def renew (st : State) (receipt : Nat) : Option FeedError × State :=
  match st.fatal with
  | some fatal => (some fatal, st)
  | none =>
    match st.handed.lookup receipt with
    | none => (some (gone receipt), st)
    | some _ =>
      match st.tracker.heldBy receipt with
      | (some _, tracker) => (none, { st with tracker := tracker })
      | (none, tracker) =>
        (some (gone receipt),
          { st with tracker := tracker, handed := st.handed.erase receipt })

/-- Takes a handed delivery back from the reader, with its position. -/
def settle (st : State) (receipt : Nat) : Except FeedError (Ready × Position) × State :=
  match st.fatal with
  | some fatal => (.error fatal, st)
  | none =>
    match st.handed.lookup receipt with
    | none => (.error (gone receipt), st)
    | some handed =>
      let st := { st with handed := st.handed.erase receipt }
      match st.tracker.release receipt with
      | (none, tracker) => (.error (gone receipt), { st with tracker := tracker })
      | (some position, tracker) => (.ok (handed, position), { st with tracker := tracker })

end State

def acknowledgeWrite (config : Config) (handed : Ready) (position : Position) : Write :=
  .tombstone (.new config.topics.attempt handed.identity handed.attemptPartition position)

def failMove (config : Config) (handed : Ready) (position : Position) : Move :=
  let destination := route handed.deliveries config.attemptCap
  let target : String × Finish :=
    match destination with
    | .retry => (config.topics.retry, .complete)
    | .deadLetter _ => (config.topics.deadLetter, .tombstone handed.identity)
  ⟨.unit target.1 handed.unit handed.deliveries (some handed.identity), position, destination,
    some handed.unit.id, handed.deliveries, target.2⟩

/-! ## The consumer thread -/

structure Message where
  topic : String
  partition : Int
  offset : Int
  key : Option Bytes
  payload : Option Bytes
  headers : Headers
  deriving DecidableEq

def Message.tp (message : Message) : Tp := ⟨message.topic, message.partition⟩

/-- What one message read from the work or retry topic holds. -/
inductive Read
  | unit (unit : FeedUnit) (identity : PublishId)
  | noUnit (outgoing : Outgoing)
  deriving DecidableEq

/-- The unit a message names: its key as the id, or its position when it has no key. A
message whose key is not UTF-8 names no unit. -/
def read (message : Message) (topics : Topics) : Read :=
  let unit (id : String) : Read :=
    .unit ⟨id, message.payload.getD []⟩
      (.ofMessage message.topic message.partition message.offset message.headers topics)
  match message.key with
  | none => unit s!"{message.topic}/{message.partition}/{message.offset}"
  | some key =>
    match decodeUtf8 key with
    | some id => unit id
    | none =>
      .noUnit ⟨message.topic, none, message.key, message.payload, message.headers⟩

def noUnitMove (config : Config) (message : Outgoing) (position : Position) : Move :=
  ⟨{ message with topic := config.topics.deadLetter }, position, .deadLetter .noUnit, none, 1,
    .complete⟩

/-- A polled message: its held copies are replaced, and it goes to the gate, or to the
dead-letter topic when it names no unit. -/
def State.onMessage (config : Config) (st : State) (message : Message) : State × Option Move :=
  let replaced := st.tracker.replaceCopies message.tp message.offset
  let st := { st with tracker := replaced.2 }.forget replaced.1
  match st.tracker.deliver message.tp message.offset with
  | none => (st, none)
  | some (receipt, tracker) =>
    match read message config.topics with
    | .unit unit identity =>
      ({ st with tracker := tracker, gating := st.gating ++ [⟨receipt, unit, identity⟩] },
        none)
    | .noUnit outgoing =>
      match tracker.release receipt with
      -- A receipt minted under the lock is current.
      | (none, tracker) => ({ st with tracker := tracker }, none)
      | (some position, tracker) =>
        ({ st with tracker := tracker }, some (noUnitMove config outgoing position))

/-- Whether a write due now is sent. A write whose copy was given up or replaced since is
dropped, and a dropped attempt write gives back its share of `admitting`. -/
def State.keepDue (st : State) : Write → Bool × State
  | .move moving => (st.tracker.current moving.position, st)
  | .tombstone tombstone => (st.tracker.current tombstone.position, st)
  | .attempt attempt =>
    match st.tracker.heldBy attempt.receipt with
    | (some _, tracker) => (true, { st with tracker := tracker })
    | (none, tracker) =>
      (false, { st with tracker := tracker, admitting := st.admitting - 1 })
  | .publish _ _ => (true, st)

def State.keepAllDue : List Write → State → List Write × State
  | [], st => ([], st)
  | write :: writes, st =>
    let kept := st.keepDue write
    let rest := keepAllDue writes kept.2
    (if kept.1 then write :: rest.1 else rest.1, rest.2)

def State.takeDue (st : State) (now : Nat) : List Write × State :=
  let due := st.resends.filter (·.1 ≤ now)
  State.keepAllDue (due.map (·.2)) { st with resends := st.resends.filter (¬ ·.1 ≤ now) }

def State.revoke (st : State) (tps : List Tp) : List (Tp × Int) × State :=
  let revoked := st.tracker.revoke tps
  (revoked.1, { st with tracker := revoked.2 }.dropUnowned)

def State.loseAll (st : State) : State :=
  { st with tracker := st.tracker.unassignAll }.dropUnowned

def State.retireOffsets (st : State) (positions : List (Tp × Option Int)) : State :=
  { st with
    tracker := positions.foldl (fun tracker position => tracker.retireTo position.1 position.2)
      st.tracker }

/-! ## The gate -/

/-- Returns `entries` to the front of the gate's queue, in their order, and gives back
their share of `admitting`. An entry that is no longer held is dropped. -/
def State.putBack (st : State) (entries : List Gating) : State :=
  let st := { st with admitting := st.admitting - entries.length }
  entries.foldr
    (fun entry st =>
      match st.tracker.heldBy entry.receipt with
      | (some _, tracker) => { st with tracker := tracker, gating := entry :: st.gating }
      | (none, tracker) => { st with tracker := tracker })
    st

def capMove (config : Config) (entry : Gating) (count : Nat) (position : Position) : Move :=
  ⟨.unit config.topics.deadLetter entry.unit count (some entry.identity), position,
    .deadLetter .attemptCap, some entry.unit.id, count, .tombstone entry.identity⟩

/-- The write that admits `entry`, whose recorded count is `count`: its attempt record
below the cap, or its move to the dead-letter topic. -/
def State.admission (config : Config) (st : State) (entry : Gating) (count : Nat) :
    Option Write × State :=
  if st.stopping then
    let st := { st with admitting := st.admitting - 1 }
    match st.tracker.heldBy entry.receipt with
    | (some _, tracker) =>
      (none, { st with tracker := tracker, gating := st.gating ++ [entry] })
    | (none, tracker) => (none, { st with tracker := tracker })
  else if count < config.attemptCap.value then
    match st.tracker.heldBy entry.receipt with
    | (none, tracker) => (none, { st with tracker := tracker, admitting := st.admitting - 1 })
    | (some _, tracker) =>
      (some (.attempt (.new config.topics.attempt entry.identity
          (config.partition entry.identity) (count + 1) entry.receipt entry.unit)),
        { st with tracker := tracker })
  else
    let st := { st with admitting := st.admitting - 1 }
    match st.tracker.release entry.receipt with
    | (none, tracker) => (none, { st with tracker := tracker })
    | (some position, tracker) =>
      (some (.move (capMove config entry count position)), { st with tracker := tracker })

end Spate.Kafka
