import Spate.S3UnitBody

set_option autoImplicit false

/- Storage notifications as units (`unit.rs`): the records of a message become the parts a
reader opens, and the message a worker publishes for a key that was overwritten while it
was read. Keys travel form-encoded inside JSON. -/
namespace Spate.S3

open Spate.Json (Bytes)
open Spate.ByteCodec (decodeUtf8 encodeUtf8)
open Spate.JsonText (Json)

/-! ## Form encoding -/

/-- A byte written as itself: an ASCII letter, a digit, `-`, `.`, `_`, `~` or `/`. -/
def isPlain (b : UInt8) : Bool :=
  (48 ≤ b && b ≤ 57) || (65 ≤ b && b ≤ 90) || (97 ≤ b && b ≤ 122) ||
    b = 45 || b = 46 || b = 95 || b = 126 || b = 47

def upperHex (n : Nat) : Char := (Nat.digitChar n).toUpper

def formByte (b : UInt8) : List Char :=
  if isPlain b then [Char.ofNat b.toNat]
  else ['%', upperHex (b.toNat / 16), upperHex (b.toNat % 16)]

def formEncoded (key : String) : String := String.ofList ((encodeUtf8 key).flatMap formByte)

/-- `char::from(b).to_digit(16)`. -/
def hexDigit (b : UInt8) : Option Nat :=
  if 48 ≤ b ∧ b ≤ 57 then some (b.toNat - 48)
  else if 97 ≤ b ∧ b ≤ 102 then some (b.toNat - 87)
  else if 65 ≤ b ∧ b ≤ 70 then some (b.toNat - 55)
  else none

/-- The bytes of a form-encoded key: `+` is a space and each `%HH` a byte; `none` at a
malformed escape. -/
def formBytes : Bytes → Option Bytes
  | [] => some []
  | b :: rest =>
    if b = 43 then (formBytes rest).map (32 :: ·)
    else if b = 37 then
      match rest with
      | high :: low :: rest =>
        match hexDigit high, hexDigit low with
        | some high, some low => (formBytes rest).map (UInt8.ofNat (high * 16 + low) :: ·)
        | _, _ => none
      | _ => none
    else (formBytes rest).map (b :: ·)

def formDecoded (key : String) : Except String String :=
  match formBytes (encodeUtf8 key) with
  | none => .error s!"the key \"{key}\" has a malformed `%` escape"
  | some bytes =>
    match decodeUtf8 bytes with
    | none => .error s!"the key \"{key}\" does not decode as UTF-8"
    | some key => .ok key

/-! ## The rule of form decoding -/

/-- Percent-decoding: each `%HH` is a byte, every other byte itself. -/
def percentDecoded : Bytes → Option Bytes
  | [] => some []
  | b :: rest =>
    if b = 37 then
      match rest with
      | high :: low :: rest =>
        match hexDigit high, hexDigit low with
        | some high, some low => (percentDecoded rest).map (UInt8.ofNat (high * 16 + low) :: ·)
        | _, _ => none
      | _ => none
    else (percentDecoded rest).map (b :: ·)

def plusIsSpace (b : UInt8) : UInt8 := if b = 43 then 32 else b

/-- `+` is a space, then percent-decoding, read as UTF-8. -/
def formRule (key : String) : Option String :=
  (percentDecoded ((encodeUtf8 key).map plusIsSpace)).bind decodeUtf8

/-! ## Records -/

/-- Where a notification's records must point: the source's bucket, and its prefix within
the bucket. -/
structure Scope where
  bucket : Option String
  under : String

def maxVersionBytes : Nat := 1024

def cephSource : String := "ceph:s3"

structure RecordObject where
  key : String
  size : Option Nat
  etag : Option String
  versionId : Option String
  deriving DecidableEq

/-- The fields of a notification record the source reads. -/
structure Record where
  eventSource : Option String
  eventTime : Option String
  reEnqueues : Option Nat
  bucket : String
  object : RecordObject
  deriving DecidableEq

def RecordObject.deserialize (tree : Json) : Option RecordObject := do
  let field ← structFields false ["key", "size", "eTag", "versionId"] 1 tree
  let key ← required asString (field "key")
  let size ← optional (asUnsigned (2 ^ 64)) (field "size")
  let etag ← optional asString (field "eTag")
  let versionId ← optional asString (field "versionId")
  some ⟨key, size, etag, versionId⟩

def bucketName (tree : Json) : Option String := do
  let field ← structFields false ["name"] 1 tree
  required asString (field "name")

def recordS3 (tree : Json) : Option (String × RecordObject) := do
  let field ← structFields false ["bucket", "object"] 2 tree
  let bucket ← required bucketName (field "bucket")
  let object ← required RecordObject.deserialize (field "object")
  some (bucket, object)

def Record.deserialize (tree : Json) : Option Record := do
  let field ← structFields false ["eventSource", "eventTime", "spateReEnqueues", "s3"] 4 tree
  let eventSource ← optional asString (field "eventSource")
  let eventTime ← optional asString (field "eventTime")
  let reEnqueues ← optional (asUnsigned (2 ^ 32)) (field "spateReEnqueues")
  let (bucket, object) ← required recordS3 (field "s3")
  some ⟨eventSource, eventTime, reEnqueues, bucket, object⟩

/-- `ObjectCreated:*`, with or without `s3:` before it. -/
def isCreated (event : String) : Bool :=
  let name := (JsonText.eatWord "s3:".toList event.toList).getD event.toList
  (JsonText.eatWord "ObjectCreated:".toList name).isSome

def Scope.holds (scope : Scope) (key : String) : Bool :=
  scope.under.isEmpty ||
    ((JsonText.eatWord scope.under.toList key.toList).any fun rest => rest.head? = some '/')

/-- The version a record names: none for an unversioned bucket. -/
def recordVersion (key : String) : Option String → Except String (Option String)
  | none => .ok none
  | some version =>
    if version.isEmpty ∨ version = "null" then .ok none
    else if maxVersionBytes < version.utf8ByteSize then
      .error (s!"the record for \"{key}\" has a `versionId` longer than " ++
        s!"{maxVersionBytes} bytes")
    else if version.toList.any fun c => c = ' ' || c.toNat < 32 || c.toNat = 127 then
      .error s!"the record for \"{key}\" has a `versionId` holding a space or a control byte"
    else .ok (some version)

/-- The key a record names: as written by Ceph RGW, form-decoded otherwise. -/
def Record.objectKey (record : Record) : Except String String :=
  if record.eventSource = some cephSource then .ok record.object.key
  else formDecoded record.object.key

section

variable (libraries : Libraries) (scope : Scope) (packing : Packing)

/-- What a record that was read names: no part, or the parts of one object. -/
def Record.parts (record : Record) : Except String (List Cursor) :=
  if scope.bucket ≠ some record.bucket then
    .error s!"the record names the bucket \"{record.bucket}\", which this source does not read"
  else
    match record.objectKey with
    | .error reason => .error reason
    | .ok key =>
      if !scope.holds key then
        .error s!"the key \"{key}\" is outside the source's prefix \"{scope.under}/\""
      else
        match record.object.size with
        | none => .error s!"the record for \"{key}\" has no size"
        | some 0 => .ok []
        | some size =>
          if !libraries.addressable key then
            .error (s!"the key \"{key}\" cannot be read under its own name through " ++
              "`object_store`")
          else if record.object.etag.any fun etag => !sendable etag then
            .error s!"the record for \"{key}\" has an ETag that cannot be sent in `If-Match`"
          else
            (recordVersion key record.object.versionId).map fun version =>
              partsCursor libraries.addressable packing
                ⟨key, size, record.object.etag.map quoted,
                  (record.eventTime.bind libraries.timestampMillis).getD 0⟩
                (.notification version (record.reEnqueues.getD 0))

/-- The parts one notification record names, or why the record fails its message. -/
def recordPart (record : Json) : Except String (List Cursor) :=
  match (getField "eventName" record).bind asString with
  | none => .error "the record's `eventName` is missing or not a string"
  | some event =>
    if !isCreated event then .ok []
    else
      match Record.deserialize record with
      | none => .error s!"the record is unreadable: {libraries.recordError record}"
      | some record => record.parts libraries scope packing

def recordsParts : Nat → List Json → Except String (List Cursor)
  | _, [] => .ok []
  | i, record :: records =>
    match recordPart libraries scope packing record with
    | .error reason => .error s!"notification record {i}: {reason}"
    | .ok cursors => (recordsParts (i + 1) records).map (cursors ++ ·)

/-- Reads a delivery's body: a descriptor a lister published, or a storage notification. -/
def decode (body : Bytes) : Decoded :=
  match treeOf libraries body with
  | none => .fail "the unit's body is neither a descriptor nor a storage notification"
  | some value =>
    if (getField "v" value).isSome then
      match descriptorParts libraries body packing with
      | .ok cursors => .read cursors
      | .error reason => .fail reason
    else if (getField "Event" value).bind asString = some "s3:TestEvent" then
      .acknowledge "a storage test event"
    else
      match getField "Records" value with
      | some (.arr records) =>
        match recordsParts libraries scope packing 0 records with
        | .error reason => .fail reason
        | .ok [] => .acknowledge "a notification that names no object to read"
        | .ok cursors => .read cursors
      | _ => .fail "the unit's body is neither a descriptor nor a storage notification"

end

/-- The object of a key overwritten while it was read. -/
def reEnqueueObject (overwrite : Overwrite) : Json :=
  .obj ((overwrite.etag.map fun etag => ("eTag", .str etag)).toList ++
    [("key", .str (formEncoded overwrite.key)), ("size", .int overwrite.size)])

/-- Its record: `ObjectCreated:Put` at the content `overwrite` names. `rfc3339` writes a time
in milliseconds, if it is one. -/
def reEnqueueRecord (rfc3339 : Int → Option String) (bucket : String) (overwrite : Overwrite)
    (reEnqueues : Nat) : Json :=
  .obj ([("eventName", .str "ObjectCreated:Put")] ++
    ((rfc3339 overwrite.lastModifiedMs).map fun time => ("eventTime", .str time)).toList ++
    [("s3", .obj [("bucket", .obj [("name", .str bucket)]), ("object", reEnqueueObject overwrite)]),
      ("spateReEnqueues", .int reEnqueues)])

def reEnqueueTree (rfc3339 : Int → Option String) (bucket : String) (overwrite : Overwrite)
    (reEnqueues : Nat) : Json :=
  .obj [("Records", .arr [reEnqueueRecord rfc3339 bucket overwrite reEnqueues])]

def reEnqueueBody (rfc3339 : Int → Option String) (bucket : String) (overwrite : Overwrite)
    (reEnqueues : Nat) : Bytes :=
  bodyOf (reEnqueueTree rfc3339 bucket overwrite reEnqueues)

/-! ## Form decoding inverts form encoding -/

theorem formByte_utf8 (b : UInt8) : (formByte b).flatMap String.utf8EncodeChar =
    if isPlain b then [b]
    else [37, (upperHex (b.toNat / 16)).toUInt8, (upperHex (b.toNat % 16)).toUInt8] := by
  have all : ∀ n < 256, (formByte (UInt8.ofNat n)).flatMap String.utf8EncodeChar =
      if isPlain (UInt8.ofNat n) then [UInt8.ofNat n]
      else [37, (upperHex ((UInt8.ofNat n).toNat / 16)).toUInt8,
        (upperHex ((UInt8.ofNat n).toNat % 16)).toUInt8] := by
    decide +kernel
  have this := all b.toNat b.toNat_lt
  rwa [UInt8.ofNat_toNat] at this

theorem hexDigit_upperHex {n : Nat} (small : n < 16) :
    hexDigit (upperHex n).toUInt8 = some n := by
  have all : ∀ n < 16, hexDigit (upperHex n).toUInt8 = some n := by decide
  exact all n small

theorem formBytes_plain {b : UInt8} (space : b ≠ 43) (escape : b ≠ 37) (rest : Bytes) :
    formBytes (b :: rest) = (formBytes rest).map (b :: ·) := by
  conv_lhs => unfold formBytes
  simp only [if_neg space, if_neg escape]

theorem formBytes_formByte (b : UInt8) (rest : Bytes) :
    formBytes ((formByte b).flatMap String.utf8EncodeChar ++ rest) =
      (formBytes rest).map (b :: ·) := by
  rw [formByte_utf8]
  split
  · rename_i plain
    have space : b ≠ 43 := by
      rintro rfl
      exact absurd plain (by decide)
    have escape : b ≠ 37 := by
      rintro rfl
      exact absurd plain (by decide)
    rw [List.singleton_append, formBytes_plain space escape]
  · have bound := b.toNat_lt
    have high := hexDigit_upperHex (n := b.toNat / 16) (by omega)
    have low := hexDigit_upperHex (n := b.toNat % 16) (by omega)
    have value : b.toNat / 16 * 16 + b.toNat % 16 = b.toNat := by omega
    simp only [List.cons_append, List.nil_append]
    rw [formBytes, if_neg (by decide), if_pos rfl]
    simp only [high, low, value, UInt8.ofNat_toNat]

theorem formBytes_encoded (bytes : Bytes) :
    formBytes ((bytes.flatMap formByte).flatMap String.utf8EncodeChar) = some bytes := by
  induction bytes with
  | nil => rfl
  | cons b bytes ih =>
    rw [List.flatMap_cons, List.flatMap_append, formBytes_formByte, ih]
    rfl

theorem formDecoded_formEncoded (key : String) : formDecoded (formEncoded key) = .ok key := by
  rw [formDecoded, formEncoded, ByteCodec.encodeUtf8_ofList, formBytes_encoded]
  dsimp only
  rw [ByteCodec.decodeUtf8_encodeUtf8]

theorem formBytes_length {bytes out : Bytes} (decoded : formBytes bytes = some out) :
    out.length ≤ bytes.length := by
  fun_induction formBytes bytes generalizing out with
  | case1 =>
    cases decoded
    exact Nat.le_refl 0
  | case2 _ ih | case6 _ _ _ _ ih =>
    obtain ⟨tail, found, rfl⟩ := Option.map_eq_some_iff.mp decoded
    exact Nat.succ_le_succ (ih found)
  | case3 _ _ rest _ _ _ _ _ ih =>
    obtain ⟨tail, found, rfl⟩ := Option.map_eq_some_iff.mp decoded
    have shorter := ih found
    simp only [List.length_cons]
    omega
  | case4 | case5 => cases decoded

theorem percentDecoded_plain {b : UInt8} (escape : b ≠ 37) (rest : Bytes) :
    percentDecoded (b :: rest) = (percentDecoded rest).map (b :: ·) := by
  conv_lhs => unfold percentDecoded
  simp only [if_neg escape]

/-- Neither a `+` nor a space is a digit, so an escape is well formed before and after. -/
theorem hexDigit_plusIsSpace (b : UInt8) : hexDigit (plusIsSpace b) = hexDigit b := by
  unfold plusIsSpace
  split
  · rename_i plus
    subst plus
    decide
  · rfl

theorem formBytes_eq (bytes : Bytes) :
    formBytes bytes = percentDecoded (bytes.map plusIsSpace) := by
  fun_induction formBytes bytes with
  | case1 => rfl
  | case2 rest ih =>
    rw [List.map_cons, ih]
    exact (percentDecoded_plain (by decide) _).symm
  | case3 high low rest _ _ foundLow foundHigh _ ih =>
    change _ = percentDecoded (37 :: plusIsSpace high :: plusIsSpace low :: rest.map plusIsSpace)
    conv_rhs => unfold percentDecoded
    simp only [↓reduceIte, hexDigit_plusIsSpace, foundLow, foundHigh, ih]
  | case4 high low rest malformed =>
    change _ = percentDecoded (37 :: plusIsSpace high :: plusIsSpace low :: rest.map plusIsSpace)
    conv_rhs => unfold percentDecoded
    simp only [↓reduceIte, hexDigit_plusIsSpace]
  | case5 rest short =>
    change _ = percentDecoded (37 :: rest.map plusIsSpace)
    rcases rest with - | ⟨high, - | ⟨low, rest⟩⟩
    · rfl
    · rfl
    · exact absurd rfl (short high low rest)
  | case6 b rest space escape ih =>
    have same : plusIsSpace b = b := if_neg space
    rw [List.map_cons, same, percentDecoded_plain escape, ih]

theorem formDecoded_rule (key : String) : (formDecoded key).toOption = formRule key := by
  rw [formDecoded, formRule, ← formBytes_eq]
  cases formBytes (encodeUtf8 key) with
  | none => rfl
  | some bytes =>
    dsimp only [Option.bind_some]
    cases decodeUtf8 bytes <;> rfl

theorem formDecoded_length {key out : String} (decoded : formDecoded key = .ok out) :
    (encodeUtf8 out).length ≤ (encodeUtf8 key).length := by
  unfold formDecoded at decoded
  split at decoded
  · cases decoded
  · rename_i bytes found
    split at decoded
    · cases decoded
    · rename_i text read
      cases decoded
      rw [ByteCodec.encodeUtf8_of_decodeUtf8 read]
      exact formBytes_length found

/-! ## A re-enqueued unit -/

section

variable (libraries : Libraries) (rfc3339 : Int → Option String) (scope : Scope)
  (packing : Packing) {bucket : String} {overwrite : Overwrite} {count : Nat}

theorem fits_reEnqueueObject (size : overwrite.size < 2 ^ 64) (depth : Nat) :
    JsonText.fits (depth + 2) (reEnqueueObject overwrite) = true := by
  have number := fitsInt_natCast size
  cases etag : overwrite.etag <;>
    simp only [reEnqueueObject, etag, Option.map_none, Option.map_some, Option.toList_none,
      Option.toList_some, List.nil_append, List.cons_append, JsonText.fits, JsonText.fitsEntries,
      number, Bool.and_true]

theorem fits_reEnqueueTree (bucket : String) (size : overwrite.size < 2 ^ 64)
    (few : count < 2 ^ 32) :
    JsonText.fits 128 (reEnqueueTree rfc3339 bucket overwrite count) = true := by
  have object := fits_reEnqueueObject size 122
  have times : JsonText.fitsInt count = true := fitsInt_natCast (Nat.lt_trans few (by decide))
  cases time : rfc3339 overwrite.lastModifiedMs <;>
    simp only [reEnqueueTree, reEnqueueRecord, time, Option.map_none, Option.map_some,
      Option.toList_none, Option.toList_some, List.append_nil, List.nil_append, List.cons_append,
      JsonText.fits, JsonText.fitsAll, JsonText.fitsEntries, object, times, Bool.and_true]

theorem optional_unsigned {bound n : Nat} (small : n < bound) :
    optional (asUnsigned bound) (some (.int n)) = some (some n) := by
  rw [optional, asUnsigned.eq_def]
  · exact congrArg (Option.map some) (if_pos small)
  · nofun

theorem optional_string (text : Option String) :
    optional asString (text.map Json.str) = some text := by
  cases text <;> rfl

theorem getField_reEnqueueObject (overwrite : Overwrite) :
    getField "key" (reEnqueueObject overwrite) = some (.str (formEncoded overwrite.key)) ∧
    getField "size" (reEnqueueObject overwrite) = some (.int overwrite.size) ∧
    getField "eTag" (reEnqueueObject overwrite) = overwrite.etag.map Json.str ∧
    getField "versionId" (reEnqueueObject overwrite) = (none : Option String).map Json.str := by
  cases etag : overwrite.etag <;> simp [reEnqueueObject, getField, etag]

theorem getField_reEnqueueRecord (bucket : String) (overwrite : Overwrite) (count : Nat) :
    getField "eventName" (reEnqueueRecord rfc3339 bucket overwrite count) =
      some (.str "ObjectCreated:Put") ∧
    getField "eventSource" (reEnqueueRecord rfc3339 bucket overwrite count) =
      (none : Option String).map Json.str ∧
    getField "eventTime" (reEnqueueRecord rfc3339 bucket overwrite count) =
      (rfc3339 overwrite.lastModifiedMs).map Json.str ∧
    getField "spateReEnqueues" (reEnqueueRecord rfc3339 bucket overwrite count) =
      some (.int count) ∧
    getField "s3" (reEnqueueRecord rfc3339 bucket overwrite count) =
      some (.obj [("bucket", .obj [("name", .str bucket)]),
        ("object", reEnqueueObject overwrite)]) := by
  cases time : rfc3339 overwrite.lastModifiedMs <;> simp [reEnqueueRecord, getField, time]

theorem deserialize_reEnqueueObject (size : overwrite.size < 2 ^ 64) :
    RecordObject.deserialize (reEnqueueObject overwrite) =
      some ⟨formEncoded overwrite.key, some overwrite.size, overwrite.etag, none⟩ := by
  obtain ⟨key, bytes, etag, version⟩ := getField_reEnqueueObject overwrite
  have fields : structFields false ["key", "size", "eTag", "versionId"] 1
      (reEnqueueObject overwrite) =
      some fun name => getField name (reEnqueueObject overwrite) := rfl
  simp only [RecordObject.deserialize, fields, Option.bind_eq_bind, Option.bind_some, key, bytes,
    etag, version, required_string, optional_unsigned size, optional_string]

theorem deserialize_reEnqueueRecord (bucket : String) (size : overwrite.size < 2 ^ 64)
    (few : count < 2 ^ 32) :
    Record.deserialize (reEnqueueRecord rfc3339 bucket overwrite count) =
      some ⟨none, rfc3339 overwrite.lastModifiedMs, some count, bucket,
        formEncoded overwrite.key, some overwrite.size, overwrite.etag, none⟩ := by
  obtain ⟨-, source, time, times, s3⟩ := getField_reEnqueueRecord rfc3339 bucket overwrite count
  have fields : structFields false ["eventSource", "eventTime", "spateReEnqueues", "s3"] 4
      (reEnqueueRecord rfc3339 bucket overwrite count) =
      some fun name => getField name (reEnqueueRecord rfc3339 bucket overwrite count) := rfl
  have inner : required recordS3 (some (.obj [("bucket", .obj [("name", .str bucket)]),
      ("object", reEnqueueObject overwrite)])) =
      some (bucket, ⟨formEncoded overwrite.key, some overwrite.size, overwrite.etag, none⟩) := by
    change (RecordObject.deserialize (reEnqueueObject overwrite)).bind
      (fun object => some (bucket, object)) = _
    rw [deserialize_reEnqueueObject size, Option.bind_some]
  simp only [Record.deserialize, fields, Option.bind_eq_bind, Option.bind_some, source, time, times,
    s3, inner, optional_string, optional_unsigned few]

theorem quoted_of_quotes {etag : String} (long : 2 ≤ etag.length)
    (first : etag.toList.head? = some '"') (last : etag.toList.getLast? = some '"') :
    quoted etag = etag :=
  if_pos ⟨long, first, last⟩

/-- What a reader may expect of an overwritten object: its key under the source's prefix and
readable, a size, and an ETag that is quoted and can be sent, if it has one. -/
structure Readable (overwrite : Overwrite) : Prop where
  under : scope.holds overwrite.key = true
  addressable : libraries.addressable overwrite.key = true
  size : 1 ≤ overwrite.size ∧ overwrite.size < 2 ^ 64
  etag : ∀ etag ∈ overwrite.etag, sendable etag = true ∧
    2 ≤ etag.length ∧ etag.toList.head? = some '"' ∧ etag.toList.getLast? = some '"'

/-- The object an overwrite names, at the time its notification carries. -/
def Overwrite.entry (overwrite : Overwrite) : ObjectEntry :=
  ⟨overwrite.key, overwrite.size, overwrite.etag,
    ((rfc3339 overwrite.lastModifiedMs).bind libraries.timestampMillis).getD 0⟩

theorem map_quoted {etag : Option String} (marks : ∀ e ∈ etag, sendable e = true ∧
    2 ≤ e.length ∧ e.toList.head? = some '"' ∧ e.toList.getLast? = some '"') :
    etag.map quoted = etag := by
  cases etag with
  | none => rfl
  | some etag =>
    obtain ⟨-, long, first, last⟩ := marks etag rfl
    rw [Option.map_some, quoted_of_quotes long first last]

variable {libraries scope}

theorem parts_reEnqueued (inScope : scope.bucket = some bucket)
    (readable : Readable libraries scope overwrite) :
    Record.parts libraries scope packing
      ⟨none, rfc3339 overwrite.lastModifiedMs, some count, bucket,
        formEncoded overwrite.key, some overwrite.size, overwrite.etag, none⟩ =
      .ok (partsCursor libraries.addressable packing (overwrite.entry libraries rfc3339)
        (.notification none count)) := by
  have sends : (overwrite.etag.any fun etag => !sendable etag) = false := by
    cases found : overwrite.etag with
    | none => rfl
    | some etag => simp [(readable.etag etag found).1]
  obtain ⟨size, positive⟩ : ∃ n, overwrite.size = n + 1 :=
    ⟨overwrite.size - 1, by have := readable.size.1; omega⟩
  have key (size : Option Nat) : Record.objectKey ⟨none, rfc3339 overwrite.lastModifiedMs,
      some count, bucket, formEncoded overwrite.key, size, overwrite.etag, none⟩ =
      .ok overwrite.key :=
    formDecoded_formEncoded overwrite.key
  simp only [Record.parts, inScope, key, readable.under, readable.addressable, sends,
    map_quoted readable.etag, recordVersion, Overwrite.entry, positive, ne_eq, not_true_eq_false,
    Bool.not_true, Bool.false_eq_true, ↓reduceIte]
  rfl

/-- The body a worker publishes for an overwritten object reads back as that object. -/
theorem decode_reEnqueueBody (target : 0 < packing.targetBytes)
    (inScope : scope.bucket = some bucket) (readable : Readable libraries scope overwrite)
    (few : count < 2 ^ 32) :
    decode libraries scope packing (reEnqueueBody rfc3339 bucket overwrite count) =
      .read (partsCursor libraries.addressable packing (overwrite.entry libraries rfc3339)
        (.notification none count)) := by
  have tree := treeOf_bodyOf libraries
    (fits_reEnqueueTree rfc3339 bucket readable.size.2 few)
  have event :
      (getField "eventName" (reEnqueueRecord rfc3339 bucket overwrite count)).bind asString =
      some "ObjectCreated:Put" := by
    rw [(getField_reEnqueueRecord rfc3339 bucket overwrite count).1]
    rfl
  have part : recordPart libraries scope packing (reEnqueueRecord rfc3339 bucket overwrite count) =
      .ok (partsCursor libraries.addressable packing (overwrite.entry libraries rfc3339)
        (.notification none count)) := by
    rw [recordPart, event]
    dsimp only
    rw [if_neg (by decide), deserialize_reEnqueueRecord rfc3339 bucket readable.size.2 few]
    exact parts_reEnqueued rfc3339 packing inScope readable
  have records : recordsParts libraries scope packing 0
      [reEnqueueRecord rfc3339 bucket overwrite count] =
      .ok (partsCursor libraries.addressable packing (overwrite.entry libraries rfc3339)
        (.notification none count)) := by
    rw [recordsParts, part]
    exact congrArg Except.ok (List.append_nil _)
  have named : getField "Records" (reEnqueueTree rfc3339 bucket overwrite count) =
      some (.arr [reEnqueueRecord rfc3339 bucket overwrite count]) := rfl
  have unversioned : getField "v" (reEnqueueTree rfc3339 bucket overwrite count) = none := by
    simp [reEnqueueTree, getField]
  have untested : getField "Event" (reEnqueueTree rfc3339 bucket overwrite count) = none := by
    simp [reEnqueueTree, getField]
  have parts := partsCursor_ne_nil libraries.addressable target
    (overwrite.entry libraries rfc3339) (.notification none count)
  rw [decode, reEnqueueBody, tree]
  simp only [unversioned, untested, named, records, Option.isSome_none, Option.bind_none,
    Bool.false_eq_true, reduceCtorEq, ↓reduceIte]

end

/-- Form encoding is undone, and the unit a worker publishes after an overwrite is read as
the overwritten object; form decoding follows its rule on every text and never lengthens
it. -/
theorem overwritten_reads_back :
    (∀ key : String, formDecoded (formEncoded key) = .ok key) ∧
    (∀ (libraries : Libraries) (rfc3339 : Int → Option String) (scope : Scope) (packing : Packing)
        (bucket : String) (overwrite : Overwrite) (count : Nat),
      0 < packing.targetBytes → scope.bucket = some bucket →
      Readable libraries scope overwrite → count < 2 ^ 32 →
      ∃ cursors, decode libraries scope packing (reEnqueueBody rfc3339 bucket overwrite count) =
          .read cursors ∧
        cursors.flatMap Cursor.parts =
          (partsOf libraries.addressable packing (overwrite.entry libraries rfc3339)).map
            fun range =>
            ⟨[overwrite.entry libraries rfc3339], range, .notification none count⟩) ∧
    (∀ key : String, (formDecoded key).toOption = formRule key) ∧
    (∀ key out : String, formDecoded key = .ok out →
      (encodeUtf8 out).length ≤ (encodeUtf8 key).length) := by
  refine ⟨formDecoded_formEncoded, ?_, formDecoded_rule, fun key out => formDecoded_length⟩
  intro libraries rfc3339 scope packing bucket overwrite count target inScope readable few
  exact ⟨_, decode_reEnqueueBody rfc3339 packing target inScope readable few,
    partsCursor_parts libraries.addressable packing _ _⟩

/-- A key with a space and a percent sign, overwritten and published for the third time. -/
theorem overwritten_reads_back_spaced :
    formDecoded (formEncoded "p/a b%") = .ok "p/a b%" ∧
    ∃ cursors, decode ⟨fun _ => true, fun _ => true, fun _ => "", fun _ => "", fun _ => "",
        fun _ => none⟩ ⟨some "b", "p"⟩ ⟨4, .none, some 10⟩
        (reEnqueueBody (fun _ => none) "b" ⟨"p/a b%", some "\"e\"", 5, 0⟩ 3) = .read cursors ∧
      cursors.flatMap Cursor.parts =
        [⟨[⟨"p/a b%", 5, some "\"e\"", 0⟩], some ⟨0, 2, 10⟩, .notification none 3⟩,
          ⟨[⟨"p/a b%", 5, some "\"e\"", 0⟩], some ⟨2, 5, 10⟩, .notification none 3⟩] :=
  ⟨overwritten_reads_back.1 "p/a b%",
    overwritten_reads_back.2.1 _ _ _ ⟨4, .none, some 10⟩ "b" ⟨"p/a b%", some "\"e\"", 5, 0⟩ 3
      (by decide) rfl
      ⟨by decide, rfl, by decide, by rintro etag ⟨⟩; decide⟩ (by decide)⟩

end Spate.S3
