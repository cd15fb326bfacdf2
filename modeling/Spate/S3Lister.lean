import Mathlib.Data.String.Basic
import Spate.S3Unit
import Spate.Transition

set_option autoImplicit false

/- The lister and its job location (`lister.rs`). A run is a list of requests to the
location's store, the listing and the feed, made one at a time; it can stop before any of
them and after any of them was applied, its answer lost. Runs follow each other at one
location. Only the objects at the location and the units the feed confirmed outlive a
run. Waits, logs and the counts a run reports are left out. -/
namespace Spate.S3

/-- What the job fingerprint holds: the listed URL and everything its units depend on. -/
structure JobFingerprint where
  url : String
  packing : Packing
  deriving DecidableEq

structure ListerConfig where
  fingerprint : JobFingerprint
  /-- Whether the store lists the keys after an offset. -/
  resume : Bool
  checkpointEvery : Nat
  deriving DecidableEq

structure Location where
  fingerprint : Option JobFingerprint
  checkpoint : Option String
  /-- The end marker, holding the id of the run that wrote it. Runs count from 1; 0 is an
  id from before them. -/
  ending : Option Nat
  deriving DecidableEq

/-- What a prefix holds: the objects the listing yields, in the order of their keys, and
those the S3 client takes out of its pages because `object_store` cannot address them. -/
structure Listing (addressable : String → Bool) where
  keys : List ObjectEntry
  unaddressable : List ObjectEntry
  ascending : keys.Pairwise fun earlier later => earlier.key < later.key
  hidden : ∀ entry ∈ unaddressable, addressable entry.key = false

/-- What a listing stream does next: fetch a page, recording its unaddressable objects, or
yield a key of the page. -/
inductive Listed
  | page (unaddressable : List ObjectEntry)
  | key (entry : ObjectEntry)
  deriving DecidableEq

def listerInFlight : Nat := 32

def listerPublishAttempts : Nat := 5

def locationObjectMaxBytes : Nat := 4096

inductive Request
  | publish (unit : SplitDescriptor)
  | settleAll
  | writeCheckpoint (key : String)
  | writeEnd
  deriving DecidableEq

structure Publishing where
  packer : Packer
  listing : List Listed
  recorded : List ObjectEntry := []
  seen : List String := []
  written : Option String
  candidate : Option String := none
  sinceWrite : Nat := 0
  pending : List SplitDescriptor := []
  /-- The publishes of the oldest pending unit. -/
  attempt : Nat := 1
  requests : List Request := []
  deriving DecidableEq

inductive ListerCtl
  | readFingerprint
  | deleteCheckpoint
  | createFingerprint (attempts : Nat)
  | readRefused (attempts : Nat)
  | readCheckpoint
  | deleteEnd (start : Option String)
  | list (start : Option String)
  | publishing (locals : Publishing)
  deriving DecidableEq

structure ListerRun where
  config : ListerConfig
  id : Nat
  ctl : ListerCtl
  deriving DecidableEq

/-- A job location, what the feed confirmed under each fingerprint, and the current run. -/
structure Job where
  location : Location
  confirmed : List (JobFingerprint × SplitDescriptor) := []
  run : Option ListerRun := none
  started : Nat := 0
  deriving DecidableEq

/-- A location without a fingerprint, with what else was left there. -/
def Job.fresh (checkpoint : Option String) (leftover : Bool) : Job :=
  { location := ⟨none, checkpoint, if leftover then some 0 else none⟩ }

def keepLargest (kept : List ObjectEntry) (entry : ObjectEntry) : List ObjectEntry :=
  if kept.any fun other => other.key == entry.key then
    kept.map fun other => if other.key = entry.key ∧ other.size < entry.size then entry else other
  else kept ++ [entry]

/-- `entries` with one entry per key, the largest, in the order of the first. -/
def largestPerKey (entries : List ObjectEntry) : List ObjectEntry :=
  entries.foldl keepLargest []

section

variable (addressable : String → Bool)

def unaddressableUnits (packing : Packing) :
    List ObjectEntry → List String → List SplitDescriptor × List String
  | [], seen => ([], seen)
  | entry :: rest, seen =>
    if entry.size = 0 || seen.contains entry.key then unaddressableUnits packing rest seen
    else
      let (units, seen) := unaddressableUnits packing rest (entry.key :: seen)
      (aloneUnits addressable packing entry ++ units, seen)

def writeCheckpoint (config : ListerConfig) : Option String → List Request
  | some key => if config.resume then [.writeCheckpoint key] else []
  | none => []

namespace Publishing

def publishUnaddressable (s : Publishing) : Publishing :=
  let (units, seen) :=
    unaddressableUnits addressable s.packer.packing (largestPerKey s.recorded) s.seen
  { s with recorded := [], seen := seen, requests := s.requests ++ units.map .publish }

def settleOpen (s : Publishing) : Publishing :=
  let (packer, units) := s.packer.close addressable
  { s with packer := packer, requests := s.requests ++ units.map .publish ++ [.settleAll] }

def checkpoint (config : ListerConfig) (s : Publishing) : Publishing :=
  if config.checkpointEvery ≤ s.sinceWrite ∧ s.candidate ≠ s.written then
    let s := s.settleOpen addressable
    { s with
      requests := s.requests ++ writeCheckpoint config s.candidate, written := s.candidate,
      sinceWrite := 0 }
  else s

def publishKey (s : Publishing) (entry : ObjectEntry) : Publishing :=
  let s := { s with sinceWrite := s.sinceWrite + 1 }
  if entry.size = 0 then s
  else
    let fits := addressable entry.key && decide (entry.key.utf8ByteSize ≤ locationObjectMaxBytes)
    let (packer, units) := s.packer.push addressable entry
    { s with
      packer := packer, requests := s.requests ++ units.map .publish,
      candidate := if fits then some entry.key else s.candidate }

def onKey (config : ListerConfig) (s : Publishing) (entry : ObjectEntry) : Publishing :=
  ((s.publishUnaddressable addressable).checkpoint addressable config).publishKey addressable entry

def onEnd (config : ListerConfig) (s : Publishing) : Publishing :=
  let s := (s.publishUnaddressable addressable).settleOpen addressable
  { s with
    requests := s.requests ++
      (if s.candidate.isSome ∧ s.candidate ≠ s.written then writeCheckpoint config s.candidate
      else []) ++ [.writeEnd] }

def next (config : ListerConfig) (s : Publishing) : Publishing :=
  match s.listing with
  | [] => s.onEnd addressable config
  | .page unaddressable :: rest =>
    { s with listing := rest, recorded := s.recorded ++ unaddressable }
  | .key entry :: rest => { s with listing := rest }.onKey addressable config entry

end Publishing

inductive FeedAnswer
  | ok
  | retryable
  | refused
  deriving DecidableEq

inductive ListerEvent
  | start (config : ListerConfig)
  /-- The run stops, or its request failed and was not applied. -/
  | stop
  | go
  | lost
  /-- The create of the fingerprint is answered that one exists, as its own retry is. -/
  | refused (applied : Bool)
  /-- The listing is opened on these pages. -/
  | list (pages : List Listed)
  | settled (answer : FeedAnswer)
  deriving DecidableEq

namespace Job

def stopped (job : Job) : Job := { job with run := none }

def goto (job : Job) (run : ListerRun) (ctl : ListerCtl) : Job :=
  { job with run := some { run with ctl := ctl } }

def matched (job : Job) (run : ListerRun) : Job :=
  job.goto run (if run.config.resume then .readCheckpoint else .deleteEnd none)

/-- `compare`: the stored fingerprint is the run's, or the run fails. -/
def compare (job : Job) (run : ListerRun) (stored : JobFingerprint) : Job :=
  if stored = run.config.fingerprint then job.matched run else job.stopped

def setFingerprint (job : Job) (mine : JobFingerprint) : Job :=
  { job with
    location := { job.location with fingerprint := job.location.fingerprint.or (some mine) } }

def setCheckpoint (job : Job) (key : Option String) : Job :=
  { job with location := { job.location with checkpoint := key } }

def setEnding (job : Job) (ending : Option Nat) : Job :=
  { job with location := { job.location with ending := ending } }

def settle (job : Job) (run : ListerRun) (s : Publishing) (answer : FeedAnswer) : Option Job :=
  match s.pending with
  | [] => none
  | unit :: rest =>
    match answer with
    | .ok =>
      some ({ job with confirmed := job.confirmed ++ [(run.config.fingerprint, unit)] }.goto run
        (.publishing { s with pending := rest, attempt := 1 }))
    | .retryable =>
      if s.attempt < listerPublishAttempts then
        some (job.goto run (.publishing { s with attempt := s.attempt + 1 }))
      else some job.stopped
    | .refused => some job.stopped

def publish (job : Job) (run : ListerRun) (s : Publishing) (event : ListerEvent) : Option Job :=
  match s.requests, event with
  | [], .go => some (job.goto run (.publishing (s.next addressable run.config)))
  | .publish unit :: rest, .go =>
    if s.pending.length = listerInFlight then none
    else
      some (job.goto run (.publishing { s with pending := s.pending ++ [unit], requests := rest }))
  | .publish _ :: _, .settled answer =>
    if s.pending.length = listerInFlight then job.settle run s answer else none
  | .settleAll :: rest, .go =>
    if s.pending = [] then some (job.goto run (.publishing { s with requests := rest })) else none
  | .settleAll :: _, .settled answer => job.settle run s answer
  | .writeCheckpoint key :: rest, .go =>
    some ((job.setCheckpoint (some key)).goto run (.publishing { s with requests := rest }))
  | .writeCheckpoint key :: _, .lost => some (job.setCheckpoint (some key)).stopped
  | .writeEnd :: _, .go => some (job.setEnding (some run.id)).stopped
  | .writeEnd :: _, .lost => some (job.setEnding (some run.id)).stopped
  | _, _ => none

/-- One request of `Lister::run`. `underPrefix` is whether a key read from the checkpoint
is addressable and under the listing prefix. -/
def request (underPrefix : String → Bool) (job : Job) (run : ListerRun) (event : ListerEvent) :
    Option Job :=
  match run.ctl, event with
  | .readFingerprint, .go =>
    match job.location.fingerprint with
    | some stored => some (job.compare run stored)
    | none => some (job.goto run .deleteCheckpoint)
  | .deleteCheckpoint, .go => some ((job.setCheckpoint none).goto run (.createFingerprint 1))
  | .deleteCheckpoint, .lost => some (job.setCheckpoint none).stopped
  | .createFingerprint _, .go =>
    if job.location.fingerprint = none then
      some ((job.setFingerprint run.config.fingerprint).goto run (.deleteEnd none))
    else none
  | .createFingerprint _, .lost => some (job.setFingerprint run.config.fingerprint).stopped
  | .createFingerprint attempts, .refused applied =>
    some ((if applied then job.setFingerprint run.config.fingerprint else job).goto run
      (.readRefused attempts))
  | .readRefused attempts, .go =>
    match job.location.fingerprint with
    | some stored => some (job.compare run stored)
    | none =>
      some (if attempts < 2 then job.goto run (.createFingerprint (attempts + 1))
        else job.stopped)
  | .readCheckpoint, .go =>
    match job.location.checkpoint with
    | none => some (job.goto run (.deleteEnd none))
    | some key =>
      some (if underPrefix key then job.goto run (.deleteEnd (some key)) else job.stopped)
  | .deleteEnd start, .go => some ((job.setEnding none).goto run (.list start))
  | .deleteEnd _, .lost => some (job.setEnding none).stopped
  | .list start, .list pages =>
    some (job.goto run (.publishing
      { packer := { packing := run.config.fingerprint.packing }, listing := pages,
        written := start }))
  | .publishing s, event => job.publish addressable run s event
  | _, _ => none

def step (underPrefix : String → Bool) (job : Job) (event : ListerEvent) : Option Job :=
  match job.run, event with
  | none, .start config =>
    some { job with
      run := some ⟨config, job.started + 1, .readFingerprint⟩, started := job.started + 1 }
  | none, _ => none
  | some _, .start _ => none
  | some _, .stop => some job.stopped
  | some run, event => job.request addressable underPrefix run event

end Job

end

/-! ## What the store promises of a listing -/

def listedAfter (start : Option String) (key : String) : Bool :=
  start.all fun start => decide (start < key)

def Listed.yields : Listed → Option ObjectEntry
  | .page _ => none
  | .key entry => some entry

def Listed.records : Listed → List ObjectEntry
  | .page unaddressable => unaddressable
  | .key _ => []

/-- A key is yielded before an unaddressable object is recorded only when it sorts before
it: a page records all of its own before its first key. -/
def Listed.Precedes : Listed → Listed → Prop
  | .key entry, .page unaddressable => ∀ other ∈ unaddressable, entry.key < other.key
  | _, _ => True

instance : DecidableRel Listed.Precedes
  | .key entry, .page unaddressable =>
    inferInstanceAs (Decidable (∀ other ∈ unaddressable, entry.key < other.key))
  | .page _, .page _ => isTrue trivial
  | .page _, .key _ => isTrue trivial
  | .key _, .key _ => isTrue trivial

variable {addressable : String → Bool}

/-- `pages` is the listing after `start`, in some division into pages. -/
structure Paged (listing : Listing addressable) (start : Option String) (pages : List Listed) :
    Prop where
  yields : pages.filterMap Listed.yields =
    listing.keys.filter fun entry => listedAfter start entry.key
  records : pages.flatMap Listed.records =
    listing.unaddressable.filter fun entry => listedAfter start entry.key
  precedes : pages.Pairwise Listed.Precedes

instance (listing : Listing addressable) (start : Option String) (pages : List Listed) :
    Decidable (Paged listing start pages) :=
  decidable_of_iff
    (pages.filterMap Listed.yields = listing.keys.filter
      (fun entry => listedAfter start entry.key) ∧
      pages.flatMap Listed.records =
        listing.unaddressable.filter (fun entry => listedAfter start entry.key) ∧
      pages.Pairwise Listed.Precedes)
    ⟨fun ⟨yields, records, precedes⟩ => ⟨yields, records, precedes⟩,
      fun ⟨yields, records, precedes⟩ => ⟨yields, records, precedes⟩⟩

def ListerEvent.pages : ListerEvent → Option (List Listed)
  | .list pages => some pages
  | _ => none

def Job.listsAfter (job : Job) : Option (Option String) :=
  job.run.bind fun run =>
    match run.ctl with
    | .list start => some start
    | _ => none

/-- Every listing of a job is of the same objects, after the offset it asked for. -/
def Consistent (listing : Listing addressable) (job : Job) (event : ListerEvent) : Prop :=
  ∀ pages ∈ event.pages, ∀ start ∈ job.listsAfter, Paged listing start pages

instance (listing : Listing addressable) (job : Job) (event : ListerEvent) :
    Decidable (Consistent listing job event) :=
  inferInstanceAs (Decidable (∀ pages ∈ event.pages, ∀ start ∈ job.listsAfter,
    Paged listing start pages))

end Spate.S3
