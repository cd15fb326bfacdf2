import Spate.FastMap
import Spate.S3UnitBody

set_option autoImplicit false

/- The attempt record: how many times a unit was read, kept on a compacted attempt
topic, and what the follower has read of that topic
(`spate-kafka/src/feed/attempt.rs`). The texts of `serde_json` are parameters. -/
namespace Spate.Kafka

open Spate.ByteCodec (Bytes encodeUtf8 decodeUtf8 decodeUtf8_encodeUtf8)
open Spate.JsonText (Json)
open Spate.S3 (structFields required asUnsigned)

structure NonZero where
  value : Nat
  positive : 0 < value
  word : value < 2 ^ 32

structure Topics where
  work : String
  retry : String
  deadLetter : String
  attempt : String
  deriving DecidableEq, Repr

abbrev Headers : Type := List (String × Option Bytes)

/-- The publish identity a unit's attempts are counted under:
`<topic>/<partition>/<offset>` of the work-topic message a publish wrote. -/
abbrev PublishId : Type := String

def originHeader : String := "spate.origin"

def PublishId.new (topic : String) (partition offset : Int) : PublishId :=
  s!"{topic}/{partition}/{offset}"

/-- `str::parse` of a signed integer of `bits` bits. -/
def parseSigned (bits : Nat) (text : String) : Option Int :=
  let digits (sign : Int) (chars : List Char) : Option Int :=
    if chars.isEmpty ∨ !chars.all Char.isDigit then none
    else
      let n : Int := sign * (Nat.ofDigitChars 10 chars 0 : Int)
      if -2 ^ (bits - 1) ≤ n ∧ n < 2 ^ (bits - 1) then some n else none
  match text.toList with
  | '-' :: rest => digits (-1) rest
  | '+' :: rest => digits 1 rest
  | chars => digits 1 chars

/-- `origin` as an identity in canonical form. -/
def PublishId.parse (origin : Bytes) : Option PublishId := do
  let text ← decodeUtf8 origin
  match text.splitOn "/" with
  | [topic, partition, offset] =>
    if topic.isEmpty then none
    else
      let partition ← (parseSigned 32 partition).filter (0 ≤ ·)
      let offset ← (parseSigned 64 offset).filter (0 ≤ ·)
      some (PublishId.new topic partition offset)
  | _ => none

/-- The identity a message read from `topic` counts under. A work-topic message uses its
own coordinates whatever its headers say. -/
def PublishId.ofMessage (topic : String) (partition offset : Int) (headers : Headers)
    (topics : Topics) : PublishId :=
  let own := PublishId.new topic partition offset
  if topic = topics.work then own
  else
    let origin := (headers.reverse.find? (·.1 = originHeader)).bind (·.2)
    (origin.bind PublishId.parse).getD own

def PublishId.asBytes (identity : PublishId) : Bytes := encodeUtf8 identity

/-! ## The partition of an identity -/

def murmurMultiplier : UInt32 := 0x5bd1e995

def murmurWord (a b c d : UInt8) : UInt32 :=
  a.toUInt32 ||| (b.toUInt32 <<< 8) ||| (c.toUInt32 <<< 16) ||| (d.toUInt32 <<< 24)

def murmurMix (h word : UInt32) : UInt32 :=
  let k := word * murmurMultiplier
  let k := k ^^^ (k >>> 24)
  let k := k * murmurMultiplier
  (h * murmurMultiplier) ^^^ k

/-- The whole words of `data` mixed into `h`, and the tail of at most three bytes. -/
def murmurWords : Bytes → UInt32 → UInt32 × Bytes
  | a :: b :: c :: d :: rest, h => murmurWords rest (murmurMix h (murmurWord a b c d))
  | tail, h => (h, tail)

def murmurTail (h : UInt32) : Bytes → UInt32
  | [a, b, c] =>
    (h ^^^ (c.toUInt32 <<< 16) ^^^ (b.toUInt32 <<< 8) ^^^ a.toUInt32) * murmurMultiplier
  | [a, b] => (h ^^^ (b.toUInt32 <<< 8) ^^^ a.toUInt32) * murmurMultiplier
  | [a] => (h ^^^ a.toUInt32) * murmurMultiplier
  | _ => h

def murmur2 (data : Bytes) : UInt32 :=
  let mixed := murmurWords data (0x9747b28c ^^^ UInt32.ofNat data.length)
  let h := murmurTail mixed.1 mixed.2
  let h := h ^^^ (h >>> 13)
  let h := h * murmurMultiplier
  h ^^^ (h >>> 15)

def partitionOf (identity : Bytes) (partitions : NonZero) : Nat :=
  (murmur2 identity &&& 0x7fffffff).toNat % partitions.value

example : murmur2 (encodeUtf8 "kafka") = 0xd067cf64 := by decide +kernel

/-! ## The record -/

inductive Entry
  | count (attempts : Nat)
  | removed
  deriving DecidableEq, Repr

/-- What the JSON library decides: which float literals it reads, and its error texts. -/
structure Serde where
  finite : List Char → Bool
  versionError : Bytes → String
  recordError : Bytes → String

def recordVersion : Nat := 1

/-- The value of an attempt record holding `attempts`. -/
def recordTree (attempts : Nat) : Json :=
  .obj [("v", .int recordVersion), ("attempts", .int attempts)]

def encode (attempts : Nat) : Bytes :=
  encodeUtf8 (String.ofList (JsonText.render (recordTree attempts)))

structure RecordError where
  topic : String
  partition : Int
  offset : Int
  reason : String
  deriving DecidableEq

def RecordError.text (e : RecordError) : String :=
  s!"the attempt record at offset {e.offset} of `{e.topic}` partition {e.partition} cannot be " ++
    s!"read ({e.reason}); a newer release or another producer wrote it"

def recordJson (serde : Serde) (value : Bytes) : Option Json := do
  let text ← decodeUtf8 value
  JsonText.parse serde.finite text.toList

/-- The version field alone, whatever the other fields. -/
def versionOf (tree : Json) : Option Nat := do
  let field ← structFields true ["v"] 1 tree
  required (asUnsigned (2 ^ 64)) (field "v")

/-- A field the record does not know is refused. -/
def knownFields (names : List String) : Json → Bool
  | .obj entries => entries.all fun entry => entry.1 ∈ names
  | _ => true

def attemptsOf (tree : Json) : Option Nat := do
  let field ← structFields true ["v", "attempts"] 2 tree
  let _ ← required (asUnsigned (2 ^ 32)) (field "v")
  let attempts ← required (asUnsigned (2 ^ 32)) (field "attempts")
  if knownFields ["v", "attempts"] tree then some attempts else none

/-- Decodes the value of an attempt record. A null value is a tombstone. -/
def decode (serde : Serde) (topic : String) (partition offset : Int) (value : Option Bytes) :
    Except RecordError Entry :=
  let refuse (reason : String) : Except RecordError Entry :=
    .error ⟨topic, partition, offset, reason⟩
  match value with
  | none => .ok .removed
  | some value =>
    match (recordJson serde value).bind versionOf with
    | none => refuse s!"not an attempt record: {serde.versionError value}"
    | some version =>
      if version ≠ recordVersion then refuse s!"version {version}"
      else
        match (recordJson serde value).bind attemptsOf with
        | none => refuse s!"not an attempt record: {serde.recordError value}"
        | some attempts => .ok (.count attempts)

def recordOf (serde : Serde) (topic : String) (partition offset : Int)
    (identity value : Option Bytes) : Except RecordError (Bytes × Entry) :=
  match identity with
  | none => .error ⟨topic, partition, offset, "no key"⟩
  | some identity =>
    match decode serde topic partition offset value with
    | .ok entry => .ok (identity, entry)
    | .error e => .error e

theorem recordJson_encode (serde : Serde) {attempts : Nat} (word : attempts < 2 ^ 32) :
    recordJson serde (encode attempts) = some (recordTree attempts) := by
  have fits : JsonText.fits 128 (recordTree attempts) = true := by
    simp only [recordTree, recordVersion, JsonText.fits, JsonText.fitsEntries, JsonText.fitsInt]
    simp
    omega
  unfold recordJson encode
  rw [decodeUtf8_encodeUtf8]
  change JsonText.parse serde.finite (String.ofList _).toList = _
  rw [String.toList_ofList]
  exact JsonText.parse_render serde.finite fits

/-- What the gate writes reads back as the count it wrote. -/
theorem decode_encode (serde : Serde) (topic : String) (partition offset : Int) {attempts : Nat}
    (word : attempts < 2 ^ 32) :
    decode serde topic partition offset (some (encode attempts)) = .ok (.count attempts) := by
  have version : versionOf (recordTree attempts) = some recordVersion := by
    change required (asUnsigned (2 ^ 64)) (some (.int recordVersion)) = _
    rw [S3.required_unsigned (by decide)]
  have count : attemptsOf (recordTree attempts) = some attempts := by
    have fields : structFields true ["v", "attempts"] 2 (recordTree attempts) =
        some fun name => (([("v", Json.int recordVersion), ("attempts", .int attempts)] :
          List (String × Json)).reverse.find? (·.1 = name)).map (·.2) := rfl
    unfold attemptsOf
    rw [fields]
    change (required (asUnsigned (2 ^ 32)) (some (.int recordVersion))).bind (fun _ =>
      (required (asUnsigned (2 ^ 32)) (some (.int attempts))).bind fun attempts' =>
        if knownFields ["v", "attempts"] (recordTree attempts) then some attempts' else none) = _
    rw [S3.required_unsigned (by decide), S3.required_unsigned word]
    rfl
  simp only [decode, recordJson_encode serde word, Option.bind_some, version, count,
    ne_eq, not_true_eq_false, if_false]

theorem decode_encode_two : decode ⟨fun _ => true, fun _ => "", fun _ => ""⟩ "attempts" 0 7
    (some (encode 2)) = .ok (.count 2) :=
  decode_encode _ _ _ _ (by decide)

/-! ## The ledger -/

/-- The attempt counts the follower has read, and one past the last offset it has read of
each attempt partition. -/
structure Ledger where
  next : List (Option Int)
  counts : FastMap Bytes Nat

namespace Ledger

def new (partitions : NonZero) : Ledger := ⟨List.replicate partitions.value none, ∅⟩

/-- Takes in the record at `offset` of `partition`. -/
def apply (ledger : Ledger) (partition : Nat) (offset : Int) (identity : Bytes)
    (entry : Entry) : Ledger where
  next := ledger.next.set partition (some (offset + 1))
  counts :=
    match entry with
    | .count n => ledger.counts.insert identity n
    | .removed => ledger.counts.erase identity

def count (ledger : Ledger) (identity : Bytes) : Nat := (ledger.counts.lookup identity).getD 0

def readTo (ledger : Ledger) (partition : Nat) : Option Int := (ledger.next[partition]?).join

/-- Whether every record of `partition` below `high` is in, given its watermarks. -/
def caughtUp (ledger : Ledger) (partition : Nat) (low high : Int) : Bool :=
  decide (high ≤ low) ||
    match ledger.readTo partition with
    | some offset => decide (high ≤ offset)
    | none => false

end Ledger

end Spate.Kafka
