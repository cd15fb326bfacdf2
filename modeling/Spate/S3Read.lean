import Spate.RangeTrim

set_option autoImplicit false

/- Reading the member objects of a unit (`fetch.rs`, `error.rs`): one window's read with
its retries, and the messages of a reader that reads one window at a time. The store is
an oracle: what each request is answered. Waits and counters are left out. -/
namespace Spate.S3

open Spate.Json (Bytes)

structure ObjectEntry where
  key : String
  size : Nat
  etag : Option String
  lastModifiedMs : Int
  deriving DecidableEq

inductive PoisonKind
  | notFound
  | etagDrift
  | undecodable
  | retriesExhausted
  deriving DecidableEq

/-- The content a key holds after an overwrite, as a HEAD reports it. -/
structure Overwrite where
  key : String
  etag : Option String
  size : Nat
  lastModifiedMs : Int
  deriving DecidableEq

inductive SplitFailure
  | poison (kind : PoisonKind) (reason : String)
  | fatal (reason : String)
  | overwritten (overwrite : Overwrite)
  deriving DecidableEq

inductive Origin
  | lister
  | notification (version : Option String) (reEnqueues : Nat)
  deriving DecidableEq

inductive StoreErrorKind
  | generic
  | notFound
  | invalidPath
  | joinError
  | notSupported
  | alreadyExists
  | precondition
  | notModified
  | notImplemented
  | permissionDenied
  | unauthenticated
  | unknownConfigurationKey
  deriving DecidableEq

/-- A failed request: its variant, and what the source reads from its chain and text. -/
structure StoreError where
  kind : StoreErrorKind
  /-- `list_rejected` or `delete_rejected`. -/
  rejected : Bool
  tlsRejected : Bool
  rangeNotSatisfiable : Bool
  boundedReason : String
  deriving DecidableEq

inductive ErrorClass
  | retryable
  | fatal
  deriving DecidableEq

def classify (e : StoreError) : ErrorClass :=
  if e.rejected ∨ e.tlsRejected then .fatal
  else
    match e.kind with
    | .notFound | .precondition | .notModified | .alreadyExists | .invalidPath | .notSupported
    | .notImplemented | .permissionDenied | .unauthenticated | .unknownConfigurationKey => .fatal
    | .generic | .joinError => .retryable

def isPipelineFatal (e : StoreError) : Bool :=
  e.tlsRejected ||
    match e.kind with
    | .invalidPath | .notSupported | .notImplemented | .permissionDenied | .unauthenticated
    | .unknownConfigurationKey => true
    | _ => false

def isOverwrite (e : StoreError) (origin : Origin) : Bool :=
  (e.kind = .precondition || e.rangeNotSatisfiable) &&
    match origin with
    | .notification none _ => true
    | _ => false

def poisonKind (e : StoreError) : PoisonKind :=
  match e.kind with
  | .notFound => .notFound
  | .precondition | .notModified | .alreadyExists => .etagDrift
  | _ => .undecodable

def fatalOrPoison (e : StoreError) (fatal : String) (kind : PoisonKind) (poison : String) :
    SplitFailure :=
  if isPipelineFatal e then .fatal fatal else .poison kind poison

def quoted (etag : String) : String :=
  if 2 ≤ etag.length ∧ etag.toList.head? = some '"' ∧ etag.toList.getLast? = some '"' then etag
  else "\"" ++ etag ++ "\""

/-- One bounded GET of an ETag-pinned object, with the ordinal of the member it reads. -/
structure WindowRead where
  ordinal : Nat
  entry : ObjectEntry
  etag : String
  start : Nat
  stop : Nat
  deriving DecidableEq

structure ObjectMeta where
  etag : Option String
  size : Nat
  lastModifiedMs : Int
  deriving DecidableEq

/-- The answers of the store, by request and attempt. -/
structure Store where
  get : WindowRead → Nat → Except StoreError Bytes
  head : WindowRead → Nat → Except StoreError ObjectMeta
  /-- An unpinned GET of a member: the pieces its body yields, and the error that broke it. -/
  body : Nat → Nat → Except StoreError (List Bytes × Option StoreError)
  /-- Why a key is not one the store can address, if it is not. -/
  unaddressable : String → Option String

structure FetcherParams where
  split : String
  store : Store
  slice : List ObjectEntry
  startOrdinal : Nat
  resumeEtag : Option String
  chunkBytes : Nat
  rangeBytes : Nat
  range : Option SplitRange
  origin : Origin
  chunked : 0 < chunkBytes

def maxAttempts : Nat := 8

/-- A read loop on a budget: `attempt n again` is its `n`-th attempt, and `again` what
follows a retryable failure. -/
def retrying {α : Type} (attempt : Nat → (StoreError → α) → α) (exhausted : StoreError → α) :
    (spare : Nat) → (n : Nat) → α
  | 0, n => attempt n exhausted
  | spare + 1, n => attempt n fun _ => retrying attempt exhausted spare (n + 1)

namespace FetcherParams

variable (unit : FetcherParams)

/-- `retry_or_fail`, for an error that is not retryable. -/
def permanent (entry : ObjectEntry) (e : StoreError) (delivered : Nat) : Option SplitFailure :=
  if classify e = .retryable then none
  else
    let reason := "split " ++ unit.split ++ ": reading \"" ++ entry.key ++ "\" failed at byte " ++
      toString delivered ++ ": " ++ e.boundedReason
    some (fatalOrPoison e reason (poisonKind e) reason)

/-- `retry_or_fail`, once the budget is spent. -/
def exhausted (entry : ObjectEntry) (delivered : Nat) (e : StoreError) : SplitFailure :=
  .poison .retriesExhausted ("split " ++ unit.split ++ ": reading \"" ++ entry.key ++
    "\" still failing at byte " ++ toString delivered ++ " after " ++ toString maxAttempts ++
    " attempts: " ++ e.boundedReason)

def headed : SplitFailure → SplitFailure
  | .poison kind reason =>
    .poison kind (reason ++ " (the HEAD after the store refused the pinned read)")
  | .fatal reason => .fatal (reason ++ " (the HEAD after the store refused the pinned read)")
  | .overwritten overwrite => .overwritten overwrite

def headAfterOverwrite (read : WindowRead) : SplitFailure :=
  retrying
    (fun n again =>
      match unit.store.head read n with
      | .ok found =>
        let etag := found.etag.map quoted
        if etag = some read.etag then
          .poison .etagDrift ("split " ++ unit.split ++ ": the store refused reading \"" ++
            read.entry.key ++ "\" at byte " ++ toString read.start ++
            " under its ETag pin, and the object still reports the ETag " ++ read.etag)
        else .overwritten ⟨read.entry.key, etag, found.size, found.lastModifiedMs⟩
      | .error e =>
        match unit.permanent read.entry e read.start with
        | some failure => headed failure
        | none => again e)
    (fun e => headed (unit.exhausted read.entry read.start e)) (maxAttempts - 1) 0

def fetch (read : WindowRead) : Except SplitFailure Bytes :=
  retrying
    (fun n again =>
      match unit.store.get read n with
      | .ok bytes =>
        if bytes = [] then
          .error (.poison .undecodable ("split " ++ unit.split ++ ": ranged read of \"" ++
            read.entry.key ++ "\" at byte " ++ toString read.start ++ " returned no bytes"))
        else .ok bytes
      | .error e =>
        if isOverwrite e unit.origin then .error (unit.headAfterOverwrite read)
        else
          match unit.permanent read.entry e read.start with
          | some failure => .error failure
          | none => again e)
    (fun e => .error (unit.exhausted read.entry read.start e)) (maxAttempts - 1) 0

/-- `object_path`: the failure of a key that cannot be addressed. -/
def objectPath (entry : ObjectEntry) : Option SplitFailure :=
  (unit.store.unaddressable entry.key).map fun why =>
    .poison .notFound ("split " ++ unit.split ++ ": \"" ++ entry.key ++
      "\" is not an object key: " ++ why)

/-- The pieces of `stream_object_streaming`. An attempt that fails before a byte was
delivered is retried whole. -/
def streamObjectStreaming (ordinal : Nat) (entry : ObjectEntry) : Reading SplitFailure :=
  retrying
    (fun n again =>
      match unit.store.body ordinal n with
      | .ok (pieces, none) => ⟨[], pieces, none⟩
      | .ok (pieces, some e) =>
        let delivered := pieces.flatten.length
        if 0 < delivered then
          ⟨[], pieces, some (fatalOrPoison e
            ("split " ++ unit.split ++ ": reading \"" ++ entry.key ++
              "\" failed mid-object at byte " ++ toString delivered ++ ": " ++ e.boundedReason)
            .undecodable
            ("split " ++ unit.split ++ ": read of \"" ++ entry.key ++
              "\" failed mid-object at byte " ++ toString delivered ++
              " and the store reports no ETag to pin a resumed read to: " ++
              e.boundedReason))⟩
        else
          match unit.permanent entry e 0 with
          | some failure => ⟨[], [], some failure⟩
          | none => again e
      | .error e =>
        match unit.permanent entry e 0 with
        | some failure => ⟨[], [], some failure⟩
        | none => again e)
    (fun e => ⟨[], [], some (unit.exhausted entry 0 e)⟩) (maxAttempts - 1) 0

/-- The ETag a member's reads are pinned to: the committed one for the resume object. -/
def pinnedEtag (ordinal : Nat) (entry : ObjectEntry) : Option String :=
  if ordinal = unit.startOrdinal ∧ unit.resumeEtag.isSome then unit.resumeEtag else entry.etag

def trimOf (entry : ObjectEntry) : Option RangeTrim := unit.range.map (RangeTrim.new · entry.size)

def firstByteOf (trim : Option RangeTrim) : Nat := trim.elim 0 RangeTrim.firstByte

def windowEndOf (entry : ObjectEntry) (trim : Option RangeTrim) (pos : Nat) : Option Nat :=
  windowEnd trim entry.size unit.rangeBytes unit.chunkBytes pos

inductive Path
  | empty
  | refused (failure : SplitFailure)
  | ranged (etag : String)
  | streaming

def path (ordinal : Nat) (entry : ObjectEntry) : Path :=
  if entry.size = 0 ∧ unit.range = none then .empty
  else
    match unit.pinnedEtag ordinal entry with
    | some etag =>
      match unit.objectPath entry with
      | some failure => .refused failure
      | none => .ranged etag
    | none =>
      if unit.range.isSome then
        .refused (.fatal ("split " ++ unit.split ++ ": ranged read of \"" ++ entry.key ++
          "\" has no ETag pin — internal wiring bug"))
      else
        match unit.objectPath entry with
        | some failure => .refused failure
        | none => .streaming

end FetcherParams

/-- An attempt that answers a non-empty window or an error answers one with its retries. -/
theorem retrying_induction {α : Type} (P : α → Prop) {attempt : Nat → (StoreError → α) → α}
    {exhausted : StoreError → α} (last : ∀ e, P (exhausted e))
    (once : ∀ n again, (∀ e, P (again e)) → P (attempt n again)) :
    ∀ spare n, P (retrying attempt exhausted spare n) := by
  intro spare
  induction spare with
  | zero => exact fun n => once n _ last
  | succ spare ih => exact fun n => once n _ fun _ => ih (n + 1)

theorem fetch_nonempty (unit : FetcherParams) (read : WindowRead) {bytes : Bytes}
    (success : unit.fetch read = .ok bytes) : bytes ≠ [] := by
  revert bytes
  unfold FetcherParams.fetch
  apply retrying_induction fun window : Except SplitFailure Bytes =>
    ∀ {bytes : Bytes}, window = .ok bytes → bytes ≠ []
  · exact nofun
  · intro n again later bytes
    split
    · split
      · exact nofun
      · rename_i nonempty
        rintro ⟨⟩
        exact nonempty
    · split
      · exact nofun
      · split
        · exact nofun
        · exact later _

section Windows

variable {ε : Type}

def limit (trim : Option RangeTrim) (size : Nat) : Nat := trim.elim size RangeTrim.size

theorem windowEnd_some {trim : Option RangeTrim} {size rangeBytes chunkBytes pos stop : Nat}
    (window : windowEnd trim size rangeBytes chunkBytes pos = some stop) :
    pos < stop ∧ stop ≤ limit trim size := by
  cases trim with
  | some trim => exact RangeTrim.nextWindow_some window
  | none =>
    simp only [windowEnd] at window
    split at window
    · cases window
      refine ⟨?_, Nat.min_le_right _ _⟩
      omega
    · cases window

theorem forward_size (t : RangeTrim) (pos : Nat) (window : Bytes) (from' : Nat) :
    (t.forward pos window from').1.size = t.size := by
  unfold RangeTrim.forward
  dsimp only
  split <;> rfl

theorem limit_feedWindow (trim : Option RangeTrim) (size pos : Nat) (window : Bytes) :
    limit (feedWindow trim pos window).1 size = limit trim size := by
  cases trim with
  | none => rfl
  | some t =>
    change (t.feed pos window).1.size = t.size
    unfold RangeTrim.feed
    split
    · dsimp only
      split
      · exact forward_size _ _ _ _
      · split <;> rfl
    · exact forward_size _ _ _ _
    · rfl

variable {read : Nat → Nat → Except ε Bytes} (size rangeBytes chunkBytes : Nat)

theorem readWindows_total (nonempty : ∀ start stop bytes, read start stop = .ok bytes → bytes ≠ [])
    (bound : Nat) : ∀ (trim : Option RangeTrim) (pos : Nat), limit trim size - pos ≤ bound →
    ∃ reading, ∀ fuel, limit trim size - pos < fuel →
      readWindows read size rangeBytes chunkBytes fuel trim pos = some reading := by
  induction bound with
  | zero =>
    intro trim pos small
    refine ⟨⟨[], [], none⟩, fun fuel enough => ?_⟩
    obtain ⟨fuel, rfl⟩ := Nat.exists_eq_succ_of_ne_zero (Nat.ne_of_gt (Nat.zero_lt_of_lt enough))
    unfold readWindows
    cases window : windowEnd trim size rangeBytes chunkBytes pos with
    | none => rfl
    | some stop =>
      have inside := windowEnd_some window
      omega
  | succ bound ih =>
    intro trim pos small
    cases window : windowEnd trim size rangeBytes chunkBytes pos with
    | none =>
      refine ⟨⟨[], [], none⟩, fun fuel enough => ?_⟩
      obtain ⟨fuel, rfl⟩ :=
        Nat.exists_eq_succ_of_ne_zero (Nat.ne_of_gt (Nat.zero_lt_of_lt enough))
      simp only [readWindows, window]
    | some stop =>
      have inside := windowEnd_some window
      cases answer : read pos stop with
      | error failure =>
        refine ⟨⟨[(pos, stop)], [], some failure⟩, fun fuel enough => ?_⟩
        obtain ⟨fuel, rfl⟩ :=
          Nat.exists_eq_succ_of_ne_zero (Nat.ne_of_gt (Nat.zero_lt_of_lt enough))
        simp only [readWindows, window, answer]
      | ok bytes =>
        have positive := List.length_pos_iff.mpr (nonempty pos stop bytes answer)
        have same := limit_feedWindow trim size pos bytes
        obtain ⟨rest, total⟩ := ih (feedWindow trim pos bytes).1 (pos + bytes.length)
          (by rw [same]; omega)
        refine ⟨⟨(pos, stop) :: rest.windows, (feedWindow trim pos bytes).2 :: rest.pieces,
          rest.failure⟩, fun fuel enough => ?_⟩
        obtain ⟨fuel, rfl⟩ :=
          Nat.exists_eq_succ_of_ne_zero (Nat.ne_of_gt (Nat.zero_lt_of_lt enough))
        have fewer := total fuel (by rw [same]; omega)
        simp only [readWindows, window, answer, fewer, Option.map_some]

def readAll (read : Nat → Nat → Except ε Bytes) (size rangeBytes chunkBytes : Nat)
    (trim : Option RangeTrim) (pos : Nat) : Reading ε :=
  (readWindows read size rangeBytes chunkBytes (limit trim size + 1) trim pos).getD
    ⟨[], [], none⟩

theorem readAll_eq (nonempty : ∀ start stop bytes, read start stop = .ok bytes → bytes ≠ [])
    (trim : Option RangeTrim) (pos : Nat) :
    readAll read size rangeBytes chunkBytes trim pos =
      match windowEnd trim size rangeBytes chunkBytes pos with
      | none => ⟨[], [], none⟩
      | some stop =>
        match read pos stop with
        | .error failure => ⟨[(pos, stop)], [], some failure⟩
        | .ok bytes =>
          let rest := readAll read size rangeBytes chunkBytes (feedWindow trim pos bytes).1
            (pos + bytes.length)
          ⟨(pos, stop) :: rest.windows, (feedWindow trim pos bytes).2 :: rest.pieces,
            rest.failure⟩ := by
  cases window : windowEnd trim size rangeBytes chunkBytes pos with
  | none => simp only [readAll, readWindows, window, Option.getD_some]
  | some stop =>
    cases answer : read pos stop with
    | error failure => simp only [readAll, readWindows, window, answer, Option.getD_some]
    | ok bytes =>
      have inside := windowEnd_some window
      have positive := List.length_pos_iff.mpr (nonempty pos stop bytes answer)
      have same := limit_feedWindow trim size pos bytes
      obtain ⟨rest, total⟩ := readWindows_total size rangeBytes chunkBytes nonempty _
        (feedWindow trim pos bytes).1 (pos + bytes.length) (Nat.le_refl _)
      have here := total (limit trim size) (by rw [same]; omega)
      have tail : readAll read size rangeBytes chunkBytes (feedWindow trim pos bytes).1
          (pos + bytes.length) = rest := by
        unfold readAll
        rw [total _ (by omega), Option.getD_some]
      simp only [answer, tail]
      simp only [readAll, readWindows, window, answer, here, Option.map_some,
        Option.getD_some]

end Windows

def handOn (chunkBytes : Nat) : (fuel : Nat) → Bytes → List Bytes
  | 0, _ => []
  | fuel + 1, bytes =>
    if bytes = [] then []
    else bytes.take chunkBytes :: handOn chunkBytes fuel (bytes.drop chunkBytes)

def chunksOf (chunkBytes : Nat) (bytes : Bytes) : List Bytes :=
  handOn chunkBytes bytes.length bytes

theorem handOn_total {chunkBytes : Nat} (positive : 0 < chunkBytes) (fuel : Nat) :
    ∀ bytes : Bytes, bytes.length ≤ fuel →
      handOn chunkBytes fuel bytes = handOn chunkBytes bytes.length bytes := by
  induction fuel using Nat.strongRecOn with
  | ind fuel ih =>
    intro bytes enough
    cases fuel with
    | zero =>
      obtain rfl : bytes = [] := List.length_eq_zero_iff.mp (Nat.le_zero.mp enough)
      rfl
    | succ fuel =>
      by_cases empty : bytes = []
      · subst empty
        rfl
      · obtain ⟨rest, more⟩ :=
          Nat.exists_eq_succ_of_ne_zero (fun none => empty (List.length_eq_zero_iff.mp none))
        rw [more]
        simp only [handOn, empty, if_false]
        have shorter : (bytes.drop chunkBytes).length ≤ rest := by
          rw [List.length_drop]
          omega
        rw [ih fuel (Nat.lt_succ_self _) _ (by omega), ih rest (by omega) _ shorter]

theorem chunksOf_cons {chunkBytes : Nat} (positive : 0 < chunkBytes) {bytes : Bytes}
    (nonempty : bytes ≠ []) :
    chunksOf chunkBytes bytes =
      bytes.take chunkBytes :: chunksOf chunkBytes (bytes.drop chunkBytes) := by
  obtain ⟨rest, more⟩ :=
    Nat.exists_eq_succ_of_ne_zero (fun none => nonempty (List.length_eq_zero_iff.mp none))
  unfold chunksOf
  rw [more]
  simp only [handOn, nonempty, if_false]
  congr 1
  apply handOn_total positive
  rw [List.length_drop]
  omega

/-- The chunks of a buffer are not empty, at most `chunkBytes` long, and join to it. -/
theorem chunksOf_spec {chunkBytes : Nat} (positive : 0 < chunkBytes) (bytes : Bytes) :
    (∀ chunk ∈ chunksOf chunkBytes bytes, chunk ≠ [] ∧ chunk.length ≤ chunkBytes) ∧
      (chunksOf chunkBytes bytes).flatten = bytes := by
  generalize size : bytes.length = n
  induction n using Nat.strongRecOn generalizing bytes with
  | ind n ih =>
    by_cases empty : bytes = []
    · subst empty
      exact ⟨nofun, rfl⟩
    · have some := List.length_pos_iff.mpr empty
      obtain ⟨bounded, joined⟩ := ih (bytes.drop chunkBytes).length
        (by rw [List.length_drop]; omega) _ rfl
      rw [chunksOf_cons positive empty]
      refine ⟨?_, ?_⟩
      · intro chunk member
        rcases List.mem_cons.mp member with rfl | later
        · refine ⟨?_, ?_⟩
          · apply List.ne_nil_of_length_pos
            rw [List.length_take]
            omega
          · rw [List.length_take]
            omega
        · exact bounded chunk later
      · rw [List.flatten_cons, joined, List.take_append_drop]

inductive ChunkMsg
  | objectStart (ordinal : Nat) (key : String) (lastModifiedMs : Int)
  | chunk (bytes : Bytes)
  | objectEnd
  | laneFailed (failure : SplitFailure)
  deriving DecidableEq

/-- What a reader does, in order. -/
inductive Act
  | read (window : WindowRead)
  | send (message : ChunkMsg)
  deriving DecidableEq

def Act.sent? : Act → Option ChunkMsg
  | .send message => some message
  | .read _ => none

def Act.read? : Act → Option WindowRead
  | .read window => some window
  | .send _ => none

def sends (acts : List Act) : List ChunkMsg := acts.filterMap Act.sent?

def reads (acts : List Act) : List WindowRead := acts.filterMap Act.read?

namespace FetcherParams

variable (unit : FetcherParams)

def handed (bytes : Bytes) : List Act :=
  (chunksOf unit.chunkBytes bytes).map fun chunk => .send (.chunk chunk)

/-- The read loop of a pinned member from `pos` on. -/
def readFrom (ordinal : Nat) (entry : ObjectEntry) (etag : String) (trim : Option RangeTrim)
    (pos : Nat) : Reading SplitFailure :=
  readAll (fun start stop => unit.fetch ⟨ordinal, entry, etag, start, stop⟩) entry.size
    unit.rangeBytes unit.chunkBytes trim pos

/-- Each window is read once everything before it was sent. -/
def readActs (ordinal : Nat) (entry : ObjectEntry) (etag : String) :
    List (Nat × Nat) → List Bytes → List Act
  | (start, stop) :: windows, piece :: pieces =>
    .read ⟨ordinal, entry, etag, start, stop⟩ :: (unit.handed piece ++
      readActs ordinal entry etag windows pieces)
  | (start, stop) :: _, [] => [.read ⟨ordinal, entry, etag, start, stop⟩]
  | [], _ => []

/-- How a member ends, and what follows it. -/
def ending (failure : Option SplitFailure) (later : List Act) : List Act :=
  match failure with
  | none => .send .objectEnd :: later
  | some failure => [.send (.laneFailed failure)]

/-- The acts of a pinned member's read loop from `pos` on. -/
def rangedActs (ordinal : Nat) (entry : ObjectEntry) (etag : String) (trim : Option RangeTrim)
    (pos : Nat) (later : List Act) : List Act :=
  let reading := unit.readFrom ordinal entry etag trim pos
  unit.readActs ordinal entry etag reading.windows reading.pieces ++ ending reading.failure later

/-- A member's acts after its `ObjectStart`; `later` follows the member. -/
def memberActs (ordinal : Nat) (entry : ObjectEntry) (later : List Act) : List Act :=
  match unit.path ordinal entry with
  | .empty => ending none later
  | .refused failure => ending (some failure) later
  | .ranged etag =>
    unit.rangedActs ordinal entry etag (unit.trimOf entry) (firstByteOf (unit.trimOf entry))
      later
  | .streaming =>
    let reading := unit.streamObjectStreaming ordinal entry
    reading.pieces.flatMap unit.handed ++ ending reading.failure later

/-- The acts of a sequential reader over the members from `ordinal` on. -/
def actsFrom : (ordinal : Nat) → List ObjectEntry → List Act
  | _, [] => []
  | ordinal, entry :: later =>
    .send (.objectStart ordinal entry.key entry.lastModifiedMs) ::
      unit.memberActs ordinal entry (actsFrom (ordinal + 1) later)

def sequential : List Act :=
  unit.actsFrom unit.startOrdinal (unit.slice.drop unit.startOrdinal)

end FetcherParams

section Described

variable (unit : FetcherParams)

theorem rangedActs_eq (ordinal : Nat) (entry : ObjectEntry) (etag : String)
    (trim : Option RangeTrim) (pos : Nat) (later : List Act) :
    unit.rangedActs ordinal entry etag trim pos later =
      match unit.windowEndOf entry trim pos with
      | none => FetcherParams.ending none later
      | some stop =>
        .read ⟨ordinal, entry, etag, pos, stop⟩ ::
          match unit.fetch ⟨ordinal, entry, etag, pos, stop⟩ with
          | .error failure => FetcherParams.ending (some failure) later
          | .ok bytes =>
            unit.handed (feedWindow trim pos bytes).2 ++
              unit.rangedActs ordinal entry etag (feedWindow trim pos bytes).1
                (pos + bytes.length) later := by
  unfold FetcherParams.rangedActs FetcherParams.readFrom FetcherParams.windowEndOf
  rw [readAll_eq entry.size unit.rangeBytes unit.chunkBytes
    (fun start stop bytes => fetch_nonempty unit ⟨ordinal, entry, etag, start, stop⟩)]
  cases windowEnd trim entry.size unit.rangeBytes unit.chunkBytes pos with
  | none => rfl
  | some stop =>
    cases answer : unit.fetch ⟨ordinal, entry, etag, pos, stop⟩ with
    | error failure =>
      simp only [answer, FetcherParams.readActs, List.cons_append, List.nil_append]
    | ok bytes =>
      simp only [answer, FetcherParams.readActs, List.cons_append, List.append_assoc]

theorem sends_handed (bytes : Bytes) (later : List Act) :
    sends (unit.handed bytes ++ later) =
      (chunksOf unit.chunkBytes bytes).map .chunk ++ sends later := by
  unfold sends FetcherParams.handed
  rw [List.filterMap_append, List.filterMap_map]
  congr 1
  exact congrFun List.filterMap_eq_map _

/-- The bytes a read hands on in all. -/
def wanted (object : Bytes) (range : Option SplitRange) : Bytes :=
  match range with
  | none => object
  | some range => owned object range

/-- Those of them before `pos`. -/
def upTo (object : Bytes) (range : Option SplitRange) (pos : Nat) : Bytes :=
  match range with
  | none => object.take pos
  | some range => slice object (recordStart object range.delimiter range.start) pos

/-- Where the windows up to `pos` have brought a read, with the bytes handed on. -/
def Progressed (object : Bytes) (range : Option SplitRange) (trim : Option RangeTrim) (pos : Nat)
    (out : Bytes) : Prop :=
  match range, trim with
  | none, none => pos ≤ object.length ∧ out = object.take pos
  | some range, some trim => range.start < range.stop ∧ range.stop ≤ object.length ∧
      RangeTrim.Progress object range trim pos out
  | _, _ => False

section Progress

variable {object : Bytes} {range : Option SplitRange} {trim : Option RangeTrim} {pos : Nat}
  {out : Bytes}

theorem Progressed.limit (progress : Progressed object range trim pos out) :
    limit trim object.length = object.length := by
  cases range with
  | none =>
    cases trim with
    | none => rfl
    | some trim => cases progress
  | some range =>
    cases trim with
    | none => cases progress
    | some trim =>
      obtain ⟨_, _, ⟨phase, rfl⟩, _⟩ := progress
      rfl

theorem Progressed.feed (progress : Progressed object range trim pos out) (len : Nat)
    (inside : pos + len ≤ object.length) :
    Progressed object range (feedWindow trim pos (slice object pos (pos + len))).1 (pos + len)
      (out ++ (feedWindow trim pos (slice object pos (pos + len))).2) := by
  have length : (slice object pos (pos + len)).length = len := by
    simp only [slice, List.length_drop, List.length_take]
    omega
  cases range with
  | none =>
    cases trim with
    | none =>
      obtain ⟨_, rfl⟩ := progress
      refine ⟨inside, ?_⟩
      exact slice_append object (Nat.zero_le pos) (Nat.le_add_right pos len)
    | some trim => cases progress
  | some range =>
    cases trim with
    | none => cases progress
    | some trim =>
      obtain ⟨nonempty, fits, progress⟩ := progress
      refine ⟨nonempty, fits, ?_⟩
      have is : RangeTrim.IsWindow object pos (slice object pos (pos + len)) :=
        ⟨by omega, by rw [length]⟩
      have fed := RangeTrim.feed_progress nonempty progress is
      rw [length] at fed
      exact fed

variable {rangeBytes chunkBytes : Nat}

theorem Progressed.spent (progress : Progressed object range trim pos out)
    (spent : windowEnd trim object.length rangeBytes chunkBytes pos = none) :
    out = wanted object range := by
  cases range with
  | none =>
    cases trim with
    | none =>
      obtain ⟨_, rfl⟩ := progress
      simp only [windowEnd] at spent
      split at spent
      · cases spent
      · exact List.take_of_length_le (by omega)
    | some trim => cases progress
  | some range =>
    cases trim with
    | none => cases progress
    | some trim =>
      obtain ⟨nonempty, fits, progress⟩ := progress
      exact RangeTrim.progress_ended nonempty fits progress spent

theorem Progressed.upTo {stop : Nat} (progress : Progressed object range trim pos out)
    (more : windowEnd trim object.length rangeBytes chunkBytes pos = some stop) :
    out = upTo object range pos := by
  cases range with
  | none =>
    cases trim with
    | none => exact progress.2
    | some trim => cases progress
  | some range =>
    cases trim with
    | none => cases progress
    | some trim =>
      obtain ⟨nonempty, fits, ⟨phase, rfl⟩, state⟩ := progress
      cases phase with
      | done => cases more
      | emit => exact state.2.2.1
      | seek =>
        -- no owned record starts before `pos`
        obtain ⟨positive, early, rfl, same⟩ := state
        have start : recordStart object range.delimiter range.start =
            after object range.delimiter pos := by
          rw [← same]
          exact if_neg positive
        have beyond := le_after range.delimiter (show pos ≤ object.length by omega)
        symm
        apply List.drop_eq_nil_of_le
        rw [start, List.length_take]
        omega

end Progress

/-- The objects of a unit: their sizes are the listed ones, a window's read answers
bytes of it from its start, and an unpinned body yields the object or a front of it. -/
structure FetcherParams.Contents (object : Nat → Bytes) : Prop where
  listed : ∀ ordinal entry, unit.slice[ordinal]? = some entry →
    (object ordinal).length = entry.size
  window : ∀ window bytes, unit.slice[window.ordinal]? = some window.entry →
    window.start < window.stop → window.stop ≤ (object window.ordinal).length →
    unit.fetch window = .ok bytes → ∃ len, window.start + len ≤ window.stop ∧
      bytes = Spate.S3.slice (object window.ordinal) window.start (window.start + len)
  body : ∀ ordinal n pieces broken, unit.store.body ordinal n = .ok (pieces, broken) →
    pieces.flatten <+: object ordinal ∧ (broken = none → pieces.flatten = object ordinal)
  ranged : ∀ range, unit.range = some range →
    range.start < range.stop ∧ ∀ entry ∈ unit.slice, range.stop ≤ entry.size

/-- Why a member's messages end early, and the bytes handed on before. -/
inductive Broken (object : Nat → Bytes) (ordinal : Nat) (entry : ObjectEntry) :
    Bytes → SplitFailure → Prop
  /-- The read of the window at `pos` failed. -/
  | window {etag : String} {pos stop : Nat} {failure : SplitFailure}
      (pinned : unit.pinnedEtag ordinal entry = some etag)
      (failed : unit.fetch ⟨ordinal, entry, etag, pos, stop⟩ = .error failure) :
      Broken object ordinal entry (upTo (object ordinal) unit.range pos) failure
  | refused {failure : SplitFailure} (refused : unit.path ordinal entry = .refused failure) :
      Broken object ordinal entry [] failure
  | body {bytes : Bytes} {failure : SplitFailure} (unpinned : unit.path ordinal entry = .streaming)
      (front : bytes <+: object ordinal)
      (failed : (unit.streamObjectStreaming ordinal entry).failure = some failure) :
      Broken object ordinal entry bytes failure

/-- The messages of the members from `ordinal` on: each one's start, its bytes in chunks
and its end, up to the first that fails. -/
inductive Described (object : Nat → Bytes) : Nat → List ObjectEntry → List ChunkMsg → Prop
  | nil (ordinal : Nat) : Described object ordinal [] []
  | whole {ordinal : Nat} {entry : ObjectEntry} {later : List ObjectEntry} {chunks : List Bytes}
      {rest : List ChunkMsg}
      (sized : ∀ chunk ∈ chunks, chunk ≠ [] ∧ chunk.length ≤ unit.chunkBytes)
      (joined : chunks.flatten = wanted (object ordinal) unit.range)
      (more : Described object (ordinal + 1) later rest) :
      Described object ordinal (entry :: later)
        (.objectStart ordinal entry.key entry.lastModifiedMs ::
          (chunks.map .chunk ++ .objectEnd :: rest))
  | cut {ordinal : Nat} {entry : ObjectEntry} {later : List ObjectEntry} {chunks : List Bytes}
      {failure : SplitFailure}
      (sized : ∀ chunk ∈ chunks, chunk ≠ [] ∧ chunk.length ≤ unit.chunkBytes)
      (broken : Broken unit object ordinal entry chunks.flatten failure) :
      Described object ordinal (entry :: later)
        (.objectStart ordinal entry.key entry.lastModifiedMs ::
          (chunks.map .chunk ++ [.laneFailed failure]))

/-- The messages of one member, `later` those after it. -/
def OneMember (object : Nat → Bytes) (ordinal : Nat) (entry : ObjectEntry) (out : Bytes)
    (later : List Act) (messages : List ChunkMsg) : Prop :=
  ∃ (chunks : List Bytes) (failure : Option SplitFailure),
    messages = chunks.map .chunk ++ sends (FetcherParams.ending failure later) ∧
    (∀ chunk ∈ chunks, chunk ≠ [] ∧ chunk.length ≤ unit.chunkBytes) ∧
    match failure with
    | none => out ++ chunks.flatten = wanted (object ordinal) unit.range
    | some failure => Broken unit object ordinal entry (out ++ chunks.flatten) failure

variable {unit} {object : Nat → Bytes}

theorem ranged_described (contents : unit.Contents object) {ordinal : Nat} {entry : ObjectEntry}
    (listed : unit.slice[ordinal]? = some entry) {etag : String}
    (pinned : unit.pinnedEtag ordinal entry = some etag) (later : List Act)
    {trim : Option RangeTrim} {pos : Nat} {out : Bytes}
    (progress : Progressed (object ordinal) unit.range trim pos out) :
    OneMember unit object ordinal entry out later
      (sends (unit.rangedActs ordinal entry etag trim pos later)) := by
  have size := contents.listed ordinal entry listed
  generalize measure : (object ordinal).length - pos = n
  induction n using Nat.strongRecOn generalizing trim pos out with
  | ind n ih =>
    rw [rangedActs_eq]
    unfold FetcherParams.windowEndOf
    rw [← size]
    cases window : windowEnd trim (object ordinal).length unit.rangeBytes unit.chunkBytes pos with
    | none =>
      refine ⟨[], none, rfl, nofun, ?_⟩
      rw [List.flatten_nil, List.append_nil]
      exact progress.spent window
    | some stop =>
      have inside := windowEnd_some window
      rw [progress.limit] at inside
      cases answer : unit.fetch ⟨ordinal, entry, etag, pos, stop⟩ with
      | error failure =>
        simp only [answer]
        refine ⟨[], some failure, rfl, nofun, ?_⟩
        rw [List.flatten_nil, List.append_nil, progress.upTo window]
        exact .window pinned answer
      | ok bytes =>
        obtain ⟨len, short, rfl⟩ :=
          contents.window _ bytes listed inside.1 inside.2 answer
        dsimp only at short
        have nonempty := fetch_nonempty unit _ answer
        have length : (slice (object ordinal) pos (pos + len)).length = len := by
          simp only [slice, List.length_drop, List.length_take]
          omega
        have positive : 0 < len := by
          rw [← length]
          exact List.length_pos_iff.mpr nonempty
        obtain ⟨chunks, failure, more, sized, ended⟩ :=
          ih _ (by omega) (progress.feed len (by omega)) rfl
        have split := chunksOf_spec unit.chunked
          (feedWindow trim pos (slice (object ordinal) pos (pos + len))).2
        refine ⟨chunksOf unit.chunkBytes
          (feedWindow trim pos (slice (object ordinal) pos (pos + len))).2 ++ chunks,
          failure, ?_, ?_, ?_⟩
        · simp only [answer]
          change sends (unit.handed _ ++ _) = _
          rw [sends_handed, length, more, List.map_append, List.append_assoc]
        · intro chunk member
          rcases List.mem_append.mp member with here | there
          · exact split.1 chunk here
          · exact sized chunk there
        · rw [List.flatten_append, split.2, ← List.append_assoc]
          exact ended

/-- An unpinned body hands on the object, or a front of it before it breaks. -/
theorem streaming_pieces (contents : unit.Contents object) (ordinal : Nat) (entry : ObjectEntry) :
    (unit.streamObjectStreaming ordinal entry).pieces.flatten <+: object ordinal ∧
      ((unit.streamObjectStreaming ordinal entry).failure = none →
        (unit.streamObjectStreaming ordinal entry).pieces.flatten = object ordinal) := by
  unfold FetcherParams.streamObjectStreaming
  apply retrying_induction fun reading : Reading SplitFailure =>
    reading.pieces.flatten <+: object ordinal ∧
      (reading.failure = none → reading.pieces.flatten = object ordinal)
  · exact fun e => ⟨List.nil_prefix, nofun⟩
  · intro n again more
    split
    · rename_i pieces answer
      obtain ⟨front, whole⟩ := contents.body ordinal n pieces none answer
      exact ⟨front, fun _ => whole rfl⟩
    · rename_i pieces e answer
      dsimp only
      split
      · exact ⟨(contents.body ordinal n pieces (some e) answer).1, nofun⟩
      · split
        · exact ⟨List.nil_prefix, nofun⟩
        · exact more e
    · split
      · exact ⟨List.nil_prefix, nofun⟩
      · exact more _

theorem sends_pieces (pieces : List Bytes) (later : List Act) :
    sends (pieces.flatMap unit.handed ++ later) =
      (pieces.flatMap (chunksOf unit.chunkBytes)).map .chunk ++ sends later := by
  induction pieces with
  | nil => rfl
  | cons piece pieces ih =>
    rw [List.flatMap_cons, List.append_assoc, sends_handed, ih, List.flatMap_cons,
      List.map_append, List.append_assoc]

theorem pieces_chunks (unit : FetcherParams) (pieces : List Bytes) :
    (∀ chunk ∈ pieces.flatMap (chunksOf unit.chunkBytes),
      chunk ≠ [] ∧ chunk.length ≤ unit.chunkBytes) ∧
    (pieces.flatMap (chunksOf unit.chunkBytes)).flatten = pieces.flatten := by
  induction pieces with
  | nil => exact ⟨nofun, rfl⟩
  | cons piece pieces ih =>
    obtain ⟨sized, joined⟩ := chunksOf_spec unit.chunked piece
    rw [List.flatMap_cons, List.flatten_append, List.flatten_cons, ih.2, joined]
    refine ⟨fun chunk member => ?_, rfl⟩
    rcases List.mem_append.mp member with here | there
    · exact sized chunk here
    · exact ih.1 chunk there

theorem member_described (contents : unit.Contents object) {ordinal : Nat} {entry : ObjectEntry}
    (listed : unit.slice[ordinal]? = some entry) (later : List Act) :
    OneMember unit object ordinal entry [] later
      (sends (unit.memberActs ordinal entry later)) := by
  have size := contents.listed ordinal entry listed
  unfold FetcherParams.memberActs
  cases path : unit.path ordinal entry with
  | empty =>
    have none : entry.size = 0 ∧ unit.range = none := by
      unfold FetcherParams.path at path
      split at path
      · assumption
      · split at path
        · split at path <;> cases path
        · split at path
          · cases path
          · split at path <;> cases path
    refine ⟨[], Option.none, rfl, nofun, ?_⟩
    rw [none.2]
    exact (List.length_eq_zero_iff.mp (size.trans none.1)).symm
  | refused failure => exact ⟨[], some failure, rfl, nofun, .refused path⟩
  | ranged etag =>
    have pinned : unit.pinnedEtag ordinal entry = some etag := by
      unfold FetcherParams.path at path
      split at path
      · cases path
      · split at path
        · rename_i pin same
          split at path
          · cases path
          · cases path
            exact same
        · split at path
          · cases path
          · split at path <;> cases path
    apply ranged_described contents listed pinned
    unfold FetcherParams.trimOf FetcherParams.firstByteOf Progressed
    cases ranged : unit.range with
    | none => exact ⟨Nat.zero_le _, rfl⟩
    | some range =>
      obtain ⟨nonempty, fits⟩ := contents.ranged range ranged
      have inside := fits entry (List.mem_of_getElem? listed)
      rw [← size] at inside ⊢
      exact ⟨nonempty, inside, RangeTrim.new_progress nonempty⟩
  | streaming =>
    obtain ⟨front, whole⟩ := streaming_pieces contents ordinal entry
    obtain ⟨sized, joined⟩ := pieces_chunks unit
      (unit.streamObjectStreaming ordinal entry).pieces
    refine ⟨_, _, sends_pieces _ _, sized, ?_⟩
    rw [List.nil_append, joined]
    split
    · rename_i ended
      have unranged : unit.range = none := by
        unfold FetcherParams.path at path
        split at path
        · cases path
        · split at path
          · split at path <;> cases path
          · split at path
            · cases path
            · rename_i unranged
              simpa using unranged
      rw [unranged]
      exact whole ended
    · rename_i failure ended
      exact .body path front ended

theorem actsFrom_described (contents : unit.Contents object) (later : List ObjectEntry) :
    ∀ ordinal, unit.slice.drop ordinal = later →
      Described unit object ordinal later (sends (unit.actsFrom ordinal later)) := by
  induction later with
  | nil => exact fun ordinal _ => .nil ordinal
  | cons entry later ih =>
    intro ordinal here
    have listed : unit.slice[ordinal]? = some entry := by
      rw [← List.head?_drop, here]
      rfl
    have rest : unit.slice.drop (ordinal + 1) = later := by
      rw [← List.tail_drop, here]
      rfl
    obtain ⟨chunks, failure, messages, sized, ended⟩ :=
      member_described contents listed (unit.actsFrom (ordinal + 1) later)
    have whole : sends (unit.actsFrom ordinal (entry :: later)) =
        .objectStart ordinal entry.key entry.lastModifiedMs :: _ := congrArg _ messages
    rw [whole]
    cases failure with
    | none => exact .whole sized ended (ih (ordinal + 1) rest)
    | some failure => exact .cut sized ended

end Described

end Spate.S3
