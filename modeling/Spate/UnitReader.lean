import Mathlib.Data.String.Basic
import Spate.EndCheck
import Spate.S3Lane

set_option autoImplicit false

/- The unit reader and the end of a bounded job (`unit_reader.rs`, `job_end.rs`). The
reader shares two things with its lanes, which run on other threads: a channel of reports
and each lane's terminal watermark. Whatever the lanes do between two of the reader's
accesses to either happens just before the later one: `Environment.lanes` gives it by the
number of accesses and requests made so far, as the other fields give the feed's and the
store's answers. Reports are read in one go, since reading one touches nothing a lane
reads. The history is kept in `log`. Metrics, wakers and parks are left out. -/
namespace Spate.S3

open Spate.Feed
open Spate.Json (Bytes)
open Std (TreeMap)

structure SourceError where
  errorClass : Spate.ErrorClass
  reason : String
  deriving DecidableEq

end Spate.S3

namespace Spate.Feed

def FeedErrorKind.text : FeedErrorKind → String
  | .gone => "Gone"
  | .refused => "Refused"
  | .retryable => "Retryable"
  | .fatal => "Fatal"

def FeedError.text (error : FeedError) : String :=
  "feed error (" ++ error.kind.text ++ "): " ++ error.reason

def Depth.text (depth : Depth) : String :=
  depth.what ++ ": " ++ toString depth.visible ++ " visible, " ++ toString depth.delayed ++
    " delayed, " ++ toString depth.inFlight ++ " in flight, " ++ toString depth.unsent ++
    " unsent" ++ if depth.approximate then " (approximate)" else ""

end Spate.Feed

namespace Spate.S3

open Spate.Feed
open Spate.Json (Bytes)
open Std (TreeMap)

/-- What one lane reads: the objects of a unit, or one range of its only object. -/
structure Part where
  object : List ObjectEntry
  range : Option SplitRange
  origin : Origin
  deriving DecidableEq

/-- The re-enqueue count of a part's notification, 0 for a lister's. -/
def Part.reEnqueues (part : Part) : Nat :=
  match part.origin with
  | .notification _ reEnqueues => reEnqueues
  | .lister => 0

/-- The parts of one object still to open, at least one. -/
structure Cursor where
  entry : ObjectEntry
  others : List ObjectEntry
  origin : Origin
  range : Option SplitRange
  ranges : List (Option SplitRange)
  deriving DecidableEq

namespace Cursor

def key (cursor : Cursor) : String := cursor.entry.key

def part (cursor : Cursor) (range : Option SplitRange) : Part :=
  ⟨cursor.entry :: cursor.others, range, cursor.origin⟩

def parts (cursor : Cursor) : List Part := (cursor.range :: cursor.ranges).map cursor.part

/-- The next part, and the cursor unless it is exhausted. -/
def next (cursor : Cursor) : Part × List Cursor :=
  (cursor.part cursor.range,
    match cursor.ranges with
    | [] => []
    | range :: ranges => [{ cursor with range := range, ranges := ranges }])

end Cursor

inductive Decoded
  | read (cursors : List Cursor)
  | acknowledge (reason : String)
  | fail (reason : String)
  deriving DecidableEq

structure Delivery where
  receipt : Nat
  unit : String
  body : Bytes
  deriving DecidableEq

/-- The answer of a feed to a request: an error, or `none` when it was taken. -/
abbrev Reply := Option FeedError

/-- A publish, with its outcome once the reader has seen it. -/
structure Confirmation where
  outcome : Option Reply := none
  deriving DecidableEq

inductive ReEnqueue
  | publishing (confirmation : Confirmation)
  | done
  deriving DecidableEq

def ReEnqueue.isPublishing : ReEnqueue → Bool
  | .publishing _ => true
  | .done => false

structure HeldUnit where
  receipt : Nat
  unit : String
  pending : List Cursor
  lanes : List PartitionId := []
  failing : Option String := none
  overwritten : TreeMap String ReEnqueue := ∅

namespace HeldUnit

/-- No re-enqueue waits for its confirmation. -/
def confirmed (held : HeldUnit) : Bool :=
  held.overwritten.toList.all fun entry => !entry.2.isPublishing

def finished (held : HeldUnit) : Bool :=
  held.failing.isNone && held.pending.isEmpty && held.lanes.isEmpty && held.confirmed

def idle (held : HeldUnit) : Bool := held.lanes.isEmpty && held.pending.isEmpty

def readToItsEnd (held : HeldUnit) (ended : List PartitionId) : Bool :=
  held.failing.isNone && held.pending.isEmpty && held.confirmed &&
    held.lanes.all fun partition => ended.contains partition

end HeldUnit

structure LaneState where
  delivery : Nat
  lastCommitted : Option Int := none
  hinted : Bool := false
  reEnqueues : Nat

/-- What a lane's own thread has decided. -/
structure LaneThread where
  terminal : Option Int := none
  poisoned : Bool := false
  deriving DecidableEq

inductive LaneEvent
  | report (partition : PartitionId) (report : PoisonReport)
  | terminal (partition : PartitionId) (watermark : Int)
  deriving DecidableEq

inductive MarkerAnswer
  | ok (run : Option String)
  | err (error : SourceError)
  | unanswered
  deriving DecidableEq

/-- What surrounds the reader, by the number of its accesses so far. -/
structure Environment where
  decode : Bytes → Decoded
  backend : String
  /-- What the lanes do before an access. -/
  lanes : Nat → List LaneEvent
  reply : Nat → Reply
  /-- What a confirmation not yet seen settled holds. -/
  outcome : Nat → Option Reply
  receive : Nat → Except FeedError (List Delivery)
  clock : Nat → Nat
  stop : Nat → Bool
  marker : Nat → Option MarkerAnswer
  /-- What `read_depth` returns: no reading, a pending one or a settled one. -/
  depth : Nat → Option (Option DepthRead)
  /-- What a pending reading holds. -/
  reading : Nat → Option DepthRead
  steady : ∀ i j, i ≤ j → clock i ≤ clock j

inductive Finish
  | marker (window : Nat)
  | solo (finished : Bool)
  deriving DecidableEq

structure JobEnd where
  finish : Finish
  check : Option EndCheck := none
  /-- The outstanding marker read, by the instant it was asked for. -/
  markerRead : Option Nat := none
  /-- The outstanding depth read, and the instant it was asked for. -/
  depthRead : Option (DepthOf × Nat) := none
  depthOf : Option DepthOf := none
  due : Option Nat := none
  closed : Bool := false
  deriving DecidableEq

inductive Happening
  | received (receipts : List Nat)
  | receiveFailed
  | held (delivery receipt : Nat) (cursors : List Cursor)
  | opened (delivery : Nat) (partition : PartitionId) (part : Part)
  | reported (partition : PartitionId) (report : PoisonReport)
  | ended (partition : PartitionId) (watermark : Int)
  | committed (partition : PartitionId) (watermark : Int)
  | dropped (delivery : Nat) (cursors : List Cursor)
  | reEnqueued (delivery : Nat) (overwrite : Overwrite) (count : Nat)
  | confirmed (delivery : Nat) (key : String) (reply : Reply)
  | acknowledged (delivery receipt : Nat) (reply : Reply)
  | failed (receipt : Nat) (reply : Reply)
  | renewed (receipt : Nat) (reply : Reply)
  | handedBack (receipt : Nat) (reply : Reply)
  | failsTaken
  | left (lanes : List PartitionId)
  | listerFinished
  | asked (read : EndRead) (now : Nat)
  /-- The answer to a read asked for at `asked` is there. -/
  | consumed (read : EndRead) (asked : Nat)
  | checked (entry : EndEntry)
  deriving DecidableEq

/-- Something that happened, and whether the reader held work at that moment. -/
structure Moment where
  happening : Happening
  holds : Bool
  deriving DecidableEq

structure UnitReader where
  unitsHeld : Nat
  reEnqueueCap : Nat
  handsBack : Bool
  ending : Option JobEnd
  started : Bool := false
  nextDelivery : Nat := 0
  nextLane : Nat := 0
  deliveries : TreeMap Nat HeldUnit := ∅
  lanes : TreeMap PartitionId LaneState := ∅
  revoked : List PartitionId := []
  retired : List PartitionId := []
  renewError : Option SourceError := none
  unsentFails : List (Nat × String) := []
  stopping : Bool := false
  /-- An index or an `expect` panicked: the delivery is not held, or a `u32` sequence is
  exhausted. -/
  missing : Bool := false
  /-- What the threads of the lanes opened so far have decided. -/
  threads : PartitionId → LaneThread := fun _ => {}
  channel : List (PartitionId × PoisonReport) := []
  time : Nat := 0
  log : List Moment := []

inductive SourceEvent
  | lanesAssigned
  /-- Lanes that leave once `barrier` of them have arrived. -/
  | lanesRevoked (lanes : List PartitionId) (barrier : Nat)
  | lanesRetired (lanes : List PartitionId)
  | lanesAdded (lanes : List PartitionId)
  | commitReady (partitions : List PartitionId)
  | drained
  | idle
  deriving DecidableEq

def feedError (doing : String) (error : FeedError) : SourceError :=
  ⟨error.errorClass, doing ++ ": " ++ error.text⟩

/-- Whether a `fail` or `acknowledge` has settled the delivery. -/
inductive Settled
  | yes
  | later
  deriving DecidableEq

def settled (reply : Reply) : Except SourceError Settled :=
  match reply with
  | none => .ok .yes
  | some error =>
    match error.kind with
    | .gone => .ok .yes
    | .retryable => .ok .later
    | .refused | .fatal => .error (feedError "settling a unit" error)

namespace UnitReader

def holdsWork (r : UnitReader) : Bool :=
  !(r.deliveries.isEmpty && r.lanes.isEmpty && r.revoked.isEmpty && r.retired.isEmpty &&
    r.unsentFails.isEmpty)

def record (r : UnitReader) (happening : Happening) : UnitReader :=
  { r with log := r.log ++ [⟨happening, r.holdsWork⟩] }

def tick (r : UnitReader) : UnitReader := { r with time := r.time + 1 }

/-- Indexes a held delivery, which panics if there is none. -/
def expectHeld (r : UnitReader) (delivery : Nat) : UnitReader :=
  if r.deliveries.contains delivery then r else { r with missing := true }

/-! ## The lanes -/

/-- A lane reports before it sets its terminal watermark, and sets none after a poison;
an event no lane can do is ignored. -/
def laneEvent (r : UnitReader) : LaneEvent → UnitReader
  | .report partition report =>
    if partition < r.nextLane ∧ (r.threads partition).terminal = none then
      { r with
        channel := r.channel ++ [(partition, report)]
        threads := Function.update r.threads partition
          { r.threads partition with
            poisoned := (r.threads partition).poisoned || report.overwrite.isNone } }.record
        (.reported partition report)
    else r
  | .terminal partition watermark =>
    if partition < r.nextLane ∧ (r.threads partition).terminal = none ∧
        (r.threads partition).poisoned = false then
      { r with
        threads := Function.update r.threads partition
          { r.threads partition with terminal := some watermark } }.record
        (.ended partition watermark)
    else r

variable (env : Environment)

def interfere (r : UnitReader) : UnitReader := ((env.lanes r.time).foldl laneEvent r).tick

/-- The lanes among `entries` that `asks` names and whose terminal watermark, read one
after the other, is a `hit`. -/
def lanesEnded (asks : LaneState → Bool) (hit : LaneState → Int → Bool) :
    List (PartitionId × LaneState) → UnitReader → List PartitionId × UnitReader
  | [], r => ([], r)
  | (partition, lane) :: rest, r =>
    if asks lane then
      let r := r.interfere env
      let ended := (r.threads partition).terminal.any (hit lane)
      let (others, r) := lanesEnded asks hit rest r
      (if ended then partition :: others else others, r)
    else lanesEnded asks hit rest r

/-! ## Reports -/

def setHeld (r : UnitReader) (delivery : Nat) (f : HeldUnit → HeldUnit) : UnitReader :=
  { r with deliveries := r.deliveries.modify delivery f }

/-- `on_overwrite` on the delivery of the lane that reported. -/
def overwriteHeld (r : UnitReader) (lane : LaneState) (held : HeldUnit) (overwrite : Overwrite) :
    UnitReader :=
  let gone := held.pending.filter fun cursor => cursor.key = overwrite.key
  let done := held.failing.isSome || decide (overwrite.size = 0) ||
    decide (r.reEnqueueCap ≤ lane.reEnqueues)
  let reEnqueue := if done then .done else .publishing {}
  let r := (r.record (.dropped lane.delivery gone)).setHeld lane.delivery fun held => { held with
    pending := held.pending.filter fun cursor => cursor.key ≠ overwrite.key
    overwritten := held.overwritten.insert overwrite.key reEnqueue }
  if done then r else r.record (.reEnqueued lane.delivery overwrite (lane.reEnqueues + 1))

def onOverwrite (r : UnitReader) (partition : PartitionId) (overwrite : Overwrite) : UnitReader :=
  match r.lanes[partition]? with
  | none => r
  | some lane =>
    match r.deliveries[lane.delivery]? with
    | none => r
    | some held =>
      if held.overwritten.contains overwrite.key then r
      else r.overwriteHeld lane held overwrite

def readReport (r : UnitReader) (partition : PartitionId) (report : PoisonReport) : UnitReader :=
  match report.overwrite with
  | some overwrite => r.onOverwrite partition overwrite
  | none =>
    match r.lanes[partition]? with
    | none => r
    | some lane => r.setHeld lane.delivery fun held => { held with failing := some report.reason }

def drain : Nat → UnitReader → UnitReader
  | 0, r => r
  | count + 1, r =>
    match r.channel with
    | [] => r
    | (partition, report) :: rest =>
      drain count ({ r with channel := rest }.readReport partition report)

def readReports (r : UnitReader) : UnitReader :=
  let r := r.interfere env
  r.drain r.channel.length

/-! ## Settling -/

/-- Runs `f` on each of `items`, up to the first error. -/
def forEach {α : Type} (f : α → UnitReader → UnitReader × Option SourceError) :
    List α → UnitReader → UnitReader × Option SourceError
  | [], r => (r, none)
  | item :: rest, r =>
    match f item r with
    | (r, none) => forEach f rest r
    | (r, some error) => (r, some error)

def andThen (first : UnitReader × Option SourceError)
    (next : UnitReader → UnitReader × Option SourceError) : UnitReader × Option SourceError :=
  match first with
  | (r, none) => next r
  | (r, some error) => (r, some error)

def checkReEnqueue (item : Nat × String) (r : UnitReader) : UnitReader × Option SourceError :=
  let (delivery, key) := item
  match r.deliveries[delivery]? with
  | none => (r, none)
  | some held =>
    match held.overwritten[key]? with
    | some (.publishing confirmation) =>
      let outcome := confirmation.outcome.or (env.outcome r.time)
      let r := r.tick
      match outcome with
      | none => (r, none)
      | some none =>
        ((r.record (.confirmed delivery key none)).setHeld delivery fun held =>
          { held with overwritten := held.overwritten.insert key .done }, none)
      | some (some error) =>
        -- a fatal answer fails the pipeline, any other the unit
        let fatal := error.kind = .fatal
        let reason := "re-enqueueing an overwritten object failed: " ++ error.text
        let r := (r.record (.confirmed delivery key (some error))).setHeld delivery fun held =>
          { held with
            overwritten := held.overwritten.insert key (.publishing ⟨some (some error)⟩)
            failing := held.failing.or (if fatal then none else some reason) }
        (r, if fatal then some (feedError "re-enqueueing an overwritten object" error)
          else none)
    | _ => (r, none)

def checkReEnqueues (r : UnitReader) : UnitReader × Option SourceError :=
  forEach (checkReEnqueue env)
    (r.deliveries.toList.flatMap fun (delivery, held) =>
      held.overwritten.keys.map fun key => (delivery, key)) r

def release (r : UnitReader) (delivery : Nat) : UnitReader :=
  match r.deliveries[delivery]? with
  | none => r
  | some held =>
    { r with
      deliveries := r.deliveries.erase delivery
      lanes := held.lanes.foldl (fun lanes partition => lanes.erase partition) r.lanes
      revoked := r.revoked ++ held.lanes.filter fun partition => r.lanes.contains partition }

def retire (r : UnitReader) (partition : PartitionId) : UnitReader :=
  match r.lanes[partition]? with
  | none => r
  | some lane =>
    { r with
      lanes := r.lanes.erase partition
      retired := r.retired ++ [partition] }.setHeld lane.delivery fun held =>
        { held with lanes := held.lanes.filter fun other => other ≠ partition }

def acknowledge (delivery : Nat) (r : UnitReader) : UnitReader × Option SourceError :=
  match r.deliveries[delivery]? with
  | none => (r.expectHeld delivery, none)
  | some held =>
    let reply := env.reply r.time
    let r := r.tick.record (.acknowledged delivery held.receipt reply)
    match settled reply with
    | .ok .yes => ({ r with deliveries := r.deliveries.erase delivery }, none)
    | .ok .later => (r, none)
    | .error error => (r, some error)

def failHeld (delivery : Nat) (r : UnitReader) : UnitReader × Option SourceError :=
  match r.deliveries[delivery]? with
  | none => (r.expectHeld delivery, none)
  | some held =>
    let reply := env.reply r.time
    let r := r.tick.record (.failed held.receipt reply)
    match settled reply with
    | .ok .yes => (r.release delivery, none)
    | .ok .later => (r, none)
    | .error error => (r, some error)

def failUnread (fail : Nat × String) (r : UnitReader) : UnitReader × Option SourceError :=
  let reply := env.reply r.time
  let r := r.tick.record (.failed fail.1 reply)
  match settled reply with
  | .ok .yes => (r, none)
  | .ok .later => ({ r with unsentFails := r.unsentFails ++ [fail] }, none)
  | .error error => (r, some error)

def renew (item : Nat × Nat) (r : UnitReader) : UnitReader × Option SourceError :=
  let reply := env.reply r.time
  let r := r.tick.record (.renewed item.2 reply)
  match reply with
  | none => (r, none)
  | some error =>
    match error.kind with
    | .gone => (r.release item.1, none)
    | .retryable => (r, none)
    | .refused | .fatal => (r, some (feedError "renewing a held unit" error))

def renewEach (r : UnitReader) : UnitReader × Option SourceError :=
  forEach (renew env) (r.deliveries.toList.map fun (delivery, held) => (delivery, held.receipt)) r

def deliveriesWhere (r : UnitReader) (p : HeldUnit → Bool) : List Nat :=
  (r.deliveries.toList.filter fun entry => p entry.2).map Prod.fst

def reads (r : UnitReader) (lane : LaneState) : Bool :=
  r.deliveries[lane.delivery]?.any fun held => held.failing.isNone

def retireEnded (r : UnitReader) (partition : PartitionId) : UnitReader :=
  match r.lanes[partition]? with
  | none => r
  | some lane =>
    let r := r.expectHeld lane.delivery
    if r.reads lane then r.retire partition else r

def resendFails (r : UnitReader) : UnitReader × Option SourceError :=
  let fails := r.unsentFails
  let r := if fails.isEmpty then r else r.record .failsTaken
  forEach (failUnread env) fails { r with unsentFails := [] }

/-- Retires the lanes whose records are all committed, then acknowledges what is
finished. -/
def sweep (r : UnitReader) : UnitReader × Option SourceError :=
  let r := r.lanes.toList.foldl (fun r entry => r.expectHeld entry.2.delivery) r
  let (ended, r) := lanesEnded env r.reads
    (fun lane terminal => decide (terminal = 0) || decide (lane.lastCommitted = some terminal))
    r.lanes.toList r
  let r := r.readReports env
  let r := ended.foldl retireEnded r
  forEach (acknowledge env) (r.deliveriesWhere HeldUnit.finished) r

def settle (r : UnitReader) : UnitReader × Option SourceError :=
  match r.renewError with
  | some error => ({ r with renewError := none }, some error)
  | none =>
    let r := r.readReports env
    andThen (r.checkReEnqueues env) fun r =>
    andThen (forEach (failHeld env) (r.deliveriesWhere fun held => held.failing.isSome) r) fun r =>
    andThen (r.resendFails env) fun r =>
    andThen (r.sweep env) fun r =>
    r.renewEach env

def renewHeld (r : UnitReader) : UnitReader :=
  if r.renewError.isNone then
    let (r, error) := r.renewEach env
    { r with renewError := error }
  else r

def noteCommit (r : UnitReader) (partition : PartitionId) (lane : LaneState) (watermark : Int) :
    UnitReader :=
  let noted := { lane with lastCommitted := some watermark }
  { r with lanes := r.lanes.insert partition noted }.record (.committed partition watermark)

def commitOne (item : PartitionId × Int) (r : UnitReader) : UnitReader × Option SourceError :=
  let (partition, watermark) := item
  match r.lanes[partition]? with
  | none => (r, none)
  | some lane =>
    let r := (r.noteCommit partition lane watermark).interfere env
    if (r.threads partition).terminal ≠ some watermark then (r, none)
    else
      let r := (r.readReports env).expectHeld lane.delivery
      if r.reads lane then
        let r := (r.retire partition).expectHeld lane.delivery
        if r.deliveries[lane.delivery]?.any HeldUnit.finished then r.acknowledge env lane.delivery
        else (r, none)
      else (r, none)

def commit (watermarks : List (PartitionId × Int)) (r : UnitReader) :
    UnitReader × Option SourceError :=
  forEach (commitOne env) watermarks r

/-! ## Receiving and opening -/

def room (r : UnitReader) : Nat :=
  r.unitsHeld - (r.lanes.size + (r.deliveriesWhere HeldUnit.idle).length)

def openPart (r : UnitReader) (delivery : Nat) (part : Part) (pending : List Cursor) : UnitReader :=
  let r := (r.expectHeld delivery).setHeld delivery fun held =>
    { held with pending := pending, lanes := held.lanes ++ [r.nextLane] }
  { r with
    nextLane := r.nextLane + 1
    missing := r.missing || decide (UInt32.size ≤ r.nextLane + 1)
    lanes := r.lanes.insert r.nextLane
      { delivery := delivery, reEnqueues := part.reEnqueues } }.record
    (.opened delivery r.nextLane part)

/-- Opens up to `count` pending parts into the room left, oldest delivery first. -/
def openLoop : Nat → UnitReader → List PartitionId × UnitReader
  | 0, r => ([], r)
  | count + 1, r =>
    if r.room = 0 then ([], r)
    else
      match r.deliveries.toList.find? fun entry =>
          entry.2.failing.isNone && !entry.2.pending.isEmpty with
      | some (delivery, ⟨_, _, cursor :: rest, _, _, _⟩) =>
        let (part, left) := cursor.next
        let (others, opened) := openLoop count (r.openPart delivery part (left ++ rest))
        (r.nextLane :: others, opened)
      | _ => ([], r)

def openPending (r : UnitReader) : List PartitionId × UnitReader := openLoop r.room r

def hold (r : UnitReader) (delivery : Delivery) (cursors : List Cursor) : UnitReader :=
  { r with
    nextDelivery := r.nextDelivery + 1
    missing := r.missing || decide (UInt32.size ≤ r.nextDelivery + 1)
    deliveries := r.deliveries.insert r.nextDelivery
      { receipt := delivery.receipt, unit := delivery.unit, pending := cursors } }.record
    (.held r.nextDelivery delivery.receipt cursors)

def take (delivery : Delivery) (r : UnitReader) : UnitReader × Option SourceError :=
  match env.decode delivery.body with
  | .read cursors => (r.hold delivery cursors, none)
  | .acknowledge _ => (r.hold delivery [], none)
  | .fail reason => r.failUnread env (delivery.receipt, reason)

/-- Receives up to `room` units; how many the feed handed over, or `none` when the
receive failed retryably. -/
def receive (r : UnitReader) (room : Nat) : UnitReader × Except SourceError (Option Nat) :=
  match env.receive r.time with
  | .error error =>
    let r := r.tick.record .receiveFailed
    if error.kind = .retryable then (r, .ok none)
    else (r, .error (feedError "receiving from the feed" error))
  | .ok deliveries =>
    let deliveries := deliveries.take room
    let r := r.tick.record (.received (deliveries.map Delivery.receipt))
    match forEach (take env) deliveries r with
    | (r, none) => (r, .ok (some deliveries.length))
    | (r, some error) => (r, .error error)

/-! ## The end of a bounded job -/

def listerFinished (r : UnitReader) : UnitReader :=
  match r.ending with
  | none => r
  | some ending =>
    match ending.finish with
    | .marker _ => r
    | .solo _ =>
      let r := { r with ending := some { ending with finish := .solo true } }
      r.record .listerFinished

def tell (r : UnitReader) (call : EndCall) : UnitReader :=
  match r.ending.bind JobEnd.check with
  | none => r
  | some check =>
    (Watch.entry check call).toList.foldl (fun r entry => r.record (.checked entry))
      { r with ending := r.ending.map fun ending =>
          { ending with check := some (Watch.perform check call) } }

/-- The reader holds work: the check starts again, and reads outstanding are dropped. -/
def busy (r : UnitReader) : UnitReader :=
  match r.ending with
  | none => r
  | some ending =>
    let now := env.clock r.time
    let ending := { ending with due := none, closed := false }
    if ending.check.isSome then
      { r.tick with ending := some { ending with markerRead := none, depthRead := none } }.tell
        (.restart now)
    else { r.tick with ending := some ending }

def receiveFailed (r : UnitReader) : UnitReader :=
  if r.ending.any JobEnd.closed then r.busy env else r

def setEnding (r : UnitReader) (f : JobEnd → JobEnd) : UnitReader :=
  { r with ending := r.ending.map f }

def takeMarker (now : Nat) (r : UnitReader) : UnitReader × Option SourceError :=
  match r.ending.bind JobEnd.markerRead with
  | none => (r, none)
  | some asked =>
    match env.marker r.time with
    | none => (r.tick, none)
    | some answer =>
      let r := r.tick.setEnding fun ending => { ending with markerRead := none }
      let r := r.record (.consumed .marker asked)
      match answer with
      | .ok (some run) => (r.tell (.markerRead now (.present run)), none)
      | .ok none => (r.tell (.markerRead now .absent), none)
      | .err error =>
        if error.errorClass = .retryable then (r.tell (.markerRead now .failed), none)
        else (r, some error)
      | .unanswered => (r.tell (.markerRead now .failed), none)

def takeDepth (now : Nat) (r : UnitReader) : UnitReader :=
  match r.ending.bind JobEnd.depthRead with
  | none => r
  | some (of, asked) =>
    match env.reading r.time with
    | none => r.tick
    | some read =>
      let r := r.tick.setEnding fun ending => { ending with depthRead := none }
      (r.record (.consumed (.depth of) asked)).tell (.depthRead now read)

/-- The error a feed that cannot count gives a bounded job. -/
def noDepth (backend : String) : SourceError :=
  ⟨.fatal, "the `" ++ backend ++ "` feed reports no depth, so a bounded job on it cannot tell " ++
    "when its work is done; use a feed that counts its units, or run the job without `location`"⟩

def stalledError (finish : Finish) (depth : Depth) : SourceError :=
  let next := match finish with
    | .marker _ => "copy them into a re-run's feed"
    | .solo _ => "run the job again"
  ⟨.fatal, "bounded feed job stalled: the dead-letter destination holds units (" ++ depth.text ++
    "); fix their cause, then " ++ next⟩

def depthError (of : Option DepthOf) (error : FeedError) : SourceError :=
  ⟨.fatal, if of = some .deadLetters then
      "reading the depth of the feed's dead-letter destination: " ++ error.text
    else "reading the feed's depth: " ++ error.text⟩

/-- Whether a receive did not find the feed empty; a failed one did not. -/
def tookUnits : Option Nat → Bool
  | none => true
  | some taken => decide (0 < taken)

/-- Asks the check what to do until it waits or ends; one call asks at most five times. -/
def idleLoop (now : Nat) : Nat → UnitReader → UnitReader × Except SourceError Bool
  | 0, r => (r, .ok false)
  | count + 1, r =>
    match r.ending with
    | none => (r, .ok false)
    | some ending =>
      match ending.check with
      | none => (r, .ok false)
      | some check =>
        let r := { r with ending := some { ending with check := some (check.next now).1 } }
        match (check.next now).2 with
        | .readMarker =>
          idleLoop now count ((r.record (.asked .marker now)).setEnding fun ending =>
            { ending with markerRead := some now })
        | .readDepth of =>
          let r := (r.record (.asked (.depth of) now)).setEnding fun ending =>
            { ending with depthOf := some of }
          match env.depth r.time with
          | none => (r.tick, .error (noDepth env.backend))
          | some (some read) =>
            idleLoop now count ((r.tick.record (.consumed (.depth of) now)).tell
              (.depthRead now read))
          | some none =>
            idleLoop now count (r.tick.setEnding fun ending =>
              { ending with depthRead := some (of, now) })
        | .receive =>
          let r := r.record (.asked .receive now)
          match r.receive env r.room with
          | (r, .error error) => (r, .error error)
          | (r, .ok received) =>
            let r := (r.record (.consumed .receive now)).tell
              (.received now (tookUnits received))
            if tookUnits received then (r, .ok false)
            else
              idleLoop now count (r.setEnding fun ending => { ending with closed := true })
        | .ended .completed => (r, .ok true)
        | .ended (.stalled depth) => (r, .error (stalledError ending.finish depth))
        | .ended (.failed error) => (r, .error (depthError ending.depthOf error))
        | .wait due =>
          (r.setEnding fun ending => { ending with due := due }, .ok false)

def startCheck (now : Nat) (ending : JobEnd) : Option EndCheck :=
  match ending.check, ending.finish with
  | some check, _ => some check
  | none, .marker window => some (.windowed window now)
  | none, .solo true => some (.exact now)
  | none, .solo false => none

def advance (now : Nat) (r : UnitReader) : UnitReader × Except SourceError Bool :=
  let r := r.setEnding fun ending => { ending with check := startCheck now ending }
  if (r.ending.bind JobEnd.check).isNone then (r, .ok false)
  else
    match r.takeMarker env now with
    | (r, some error) => (r, .error error)
    | (r, none) => (r.takeDepth env now).idleLoop env now 5

/-- `JobEnd::idle`, the reader holding no work. -/
def idle (r : UnitReader) : UnitReader × Except SourceError Bool :=
  let r := r.setEnding fun ending => { ending with due := none }
  if env.stop r.time then (r.tick, .ok false) else r.tick.advance env (env.clock r.time)

/-! ## The calls of the controller -/

def pollIdle (r : UnitReader) : UnitReader × Except SourceError SourceEvent :=
  if !r.stopping && !r.holdsWork && r.ending.isSome then
    match r.idle env with
    | (r, .ok true) => (r, .ok .drained)
    | (r, .ok false) => (r, .ok .idle)
    | (r, .error error) => (r, .error error)
  else (r, .ok .idle)

/-- Reports lanes opened, or lanes newly at their end of input. -/
def pollLanes (r : UnitReader) (opened : List PartitionId) :
    UnitReader × Except SourceError SourceEvent :=
  if !opened.isEmpty then (r, .ok (.lanesAdded opened))
  else
    let (partitions, r) := lanesEnded env (fun lane => !lane.hinted) (fun _ _ => true)
      r.lanes.toList r
    let r := { r with lanes := partitions.foldl (fun lanes partition =>
      lanes.modify partition fun lane => { lane with hinted := true }) r.lanes }
    if !partitions.isEmpty then (r, .ok (.commitReady partitions))
    else r.pollIdle env

def pollReceive (r : UnitReader) : UnitReader × Except SourceError SourceEvent :=
  let (opened, r) := r.openPending
  if 0 < r.room ∧ r.stopping = false then
    match r.receive env r.room with
    | (r, .error error) => (r, .error error)
    | (r, .ok took) =>
      let r := match took with
        | some 0 => r
        | some _ => r.busy env
        | none => r.receiveFailed env
      let (more, r) := r.openPending
      r.pollLanes env (opened ++ more)
  else r.pollLanes env opened

def pollExits (r : UnitReader) : UnitReader × Except SourceError SourceEvent :=
  let r := if r.holdsWork then r.busy env else r
  if !r.revoked.isEmpty then
    let told := r.record (.left r.revoked)
    ({ told with revoked := [] }, .ok (.lanesRevoked r.revoked r.revoked.length))
  else if !r.retired.isEmpty then
    let told := r.record (.left r.retired)
    ({ told with retired := [] }, .ok (.lanesRetired r.retired))
  else r.pollReceive env

def pollEvents (r : UnitReader) : UnitReader × Except SourceError SourceEvent :=
  if !r.started then ({ r with started := true }, .ok .lanesAssigned)
  else
    match r.settle env with
    | (r, some error) => (r, .error error)
    | (r, none) => r.pollExits env

/-- The lanes that have decided end-of-input, then every report the lanes sent. -/
def endedThenReports (r : UnitReader) : List PartitionId × UnitReader :=
  let (ended, r) := lanesEnded env (fun _ => true) (fun _ _ => true) r.lanes.toList r
  (ended, r.readReports env)

def beginStop (r : UnitReader) : UnitReader := { r with stopping := true }

def readingOnStop (r : UnitReader) : UnitReader × Bool :=
  if !r.handsBack then (r, false)
  else
    let (ended, r) := r.beginStop.endedThenReports env
    (r, !r.unsentFails.isEmpty || !(r.deliveriesWhere fun held => !held.readToItsEnd ended).isEmpty)

def handBack (delivery : Nat) (r : UnitReader) : UnitReader × Option SourceError :=
  match r.deliveries[delivery]? with
  | none => (r.expectHeld delivery, none)
  | some held =>
    let reply := env.reply r.time
    let r := r.tick.record (.handedBack held.receipt reply)
    match reply.map FeedError.kind with
    | none | some .gone | some .retryable => (r.release delivery, none)
    | some .refused | some .fatal =>
      (r, reply.map (feedError "handing back a held unit"))

def stopReading (r : UnitReader) : UnitReader × Option SourceError :=
  if !r.handsBack then ({ r with renewError := none }, r.renewError)
  else
    let (ended, r) := r.beginStop.endedThenReports env
    let (r, first) := r.checkReEnqueues env
    andThen (forEach (handBack env)
      (r.deliveriesWhere fun held => held.failing.isNone && !held.readToItsEnd ended) r) fun r =>
    let (r, second) := r.settle env
    ((r.deliveriesWhere fun held => held.failing.isSome).foldl release r, first.or second)

/-- A call of the controller, or lanes running between two calls. -/
inductive Call
  | pollEvents
  | commit (watermarks : List (PartitionId × Int))
  | renewHeld
  | readingOnStop
  | stopReading
  | listerFinished
  | lane (event : LaneEvent)
  deriving DecidableEq

def call (r : UnitReader) : Call → UnitReader
  | .pollEvents => (r.pollEvents env).1
  | .commit watermarks => (commit env watermarks r).1
  | .renewHeld => r.renewHeld env
  | .readingOnStop => (r.readingOnStop env).1
  | .stopReading => (r.stopReading env).1
  | .listerFinished => r.listerFinished
  | .lane event => r.laneEvent event

end UnitReader

end Spate.S3
