import Spate.JsonText
import Spate.S3UnitId
import Spate.UnitReader

set_option autoImplicit false

/- The body of a unit a lister publishes (`SplitDescriptor` in `split.rs`) and how a reader
takes it apart (`decode` and `descriptor_parts` in `unit.rs`). -/
namespace Spate.S3

open Spate.Json (Bytes)
open Spate.ByteCodec (decodeUtf8 encodeUtf8)
open Spate.JsonText (Json)

def descriptorVersion : Nat := 2

def maxUnitMembers : Nat := 4096

/-! ## Writing a descriptor -/

/-- An `Option` is written as its value or `null`. -/
def orNull {α : Type} (write : α → Json) : Option α → Json
  | some value => write value
  | none => .null

def ObjectEntry.toJson (entry : ObjectEntry) : Json :=
  .obj [("key", .str entry.key), ("size", .int entry.size), ("etag", orNull .str entry.etag),
    ("last_modified_ms", .int entry.lastModifiedMs)]

def SplitRange.toJson (range : SplitRange) : Json :=
  .obj [("start", .int range.start), ("end", .int range.stop),
    ("delimiter", .int range.delimiter.toNat)]

/-- A descriptor carries its version, and its range only if it has one. -/
def SplitDescriptor.toJson (unit : SplitDescriptor) : Json :=
  .obj ([("v", .int descriptorVersion), ("objects", .arr (unit.objects.map ObjectEntry.toJson))] ++
    (unit.range.map fun range => ("range", range.toJson)).toList)

/-- Refuses a ranged descriptor unless it has exactly one member, that member has an ETag,
and the range is not empty and within the member. -/
def SplitDescriptor.validateRange (unit : SplitDescriptor) : Except SplitError Unit :=
  match unit.range with
  | none => .ok ()
  | some range =>
    match unit.objects with
    | [object] =>
      if object.etag.isNone then
        .error ⟨s!"ranged unit descriptor over \"{object.key}\" has no ETag to pin its reads to"⟩
      else if range.stop ≤ range.start ∨ object.size < range.stop then
        .error ⟨s!"ranged unit descriptor over \"{object.key}\" has range " ++
          s!"[{range.start}, {range.stop}), which is empty or extends past the object's " ++
          s!"{object.size} bytes"⟩
      else .ok ()
    | objects =>
      .error ⟨s!"a ranged unit descriptor has exactly one member, this one has {objects.length}"⟩

def bodyOf (tree : Json) : Bytes := encodeUtf8 (String.ofList (JsonText.render tree))

def SplitDescriptor.encode (unit : SplitDescriptor) : Except SplitError Bytes := do
  unit.validateRange
  .ok (bodyOf unit.toJson)

/-! ## Reading one -/

/-- What the libraries decide: the keys `object_store` reads under their own name, the
literals within a double's range, the texts of `serde`'s errors, and the milliseconds of an
RFC 3339 time. -/
structure Libraries where
  addressable : String → Bool
  finite : List Char → Bool
  probeError : Bytes → String
  descriptorError : Bytes → String
  recordError : Json → String
  timestampMillis : String → Option Int

/-- `serde_json::Value::get` by a name: the last value an object has under it. -/
def getField (name : String) : Json → Option Json
  | .obj entries => (entries.reverse.find? (·.1 = name)).map (·.2)
  | _ => none

/-- The named fields of a derived structure. `names` are its fields in order, the first
`least` of which an array must hold. `strict` refuses a repeated field, as the text's own
reader does; a `serde_json::Value` has kept the last one. -/
def structFields (strict : Bool) (names : List String) (least : Nat) :
    Json → Option (String → Option Json)
  | .obj entries =>
    if strict && names.any fun name => decide (1 < entries.countP (·.1 = name)) then none
    else some fun name => (entries.reverse.find? (·.1 = name)).map (·.2)
  | .arr elems =>
    if elems.length < least ∨ names.length < elems.length then none
    else some fun name => elems[names.idxOf name]?
  | _ => none

def asUnsigned (bound : Nat) : Json → Option Nat
  | .int (.ofNat n) => if n < bound then some n else none
  | _ => none

def asI64 : Json → Option Int
  | .int (.ofNat n) => if n < 2 ^ 63 then some (.ofNat n) else none
  | .int (.negSucc n) => if n < 2 ^ 63 then some (.negSucc n) else none
  | _ => none

def asString : Json → Option String
  | .str s => some s
  | _ => none

def required {α : Type} (read : Json → Option α) : Option Json → Option α
  | none => none
  | some value => read value

/-- An `Option`: absent and `null` are `none`. -/
def optional {α : Type} (read : Json → Option α) : Option Json → Option (Option α)
  | none => some none
  | some .null => some none
  | some value => (read value).map some

def ObjectEntry.fromJson (tree : Json) : Option ObjectEntry := do
  let field ← structFields true ["key", "size", "etag", "last_modified_ms"] 4 tree
  let key ← required asString (field "key")
  let size ← required (asUnsigned (2 ^ 64)) (field "size")
  let etag ← optional asString (field "etag")
  let lastModifiedMs ← required asI64 (field "last_modified_ms")
  some ⟨key, size, etag, lastModifiedMs⟩

def SplitRange.fromJson (tree : Json) : Option SplitRange := do
  let field ← structFields true ["start", "end", "delimiter"] 3 tree
  let start ← required (asUnsigned (2 ^ 64)) (field "start")
  let stop ← required (asUnsigned (2 ^ 64)) (field "end")
  let delimiter ← required (asUnsigned (2 ^ 8)) (field "delimiter")
  some ⟨start, stop, UInt8.ofNat delimiter⟩

def asArray {α : Type} (read : Json → Option α) : Json → Option (List α)
  | .arr elems => elems.mapM read
  | _ => none

/-- A descriptor and its version. -/
def SplitDescriptor.fromJson (tree : Json) : Option SplitDescriptor := do
  let field ← structFields true ["v", "objects", "range"] 2 tree
  let _ ← required (asUnsigned (2 ^ 32)) (field "v")
  let objects ← required (asArray ObjectEntry.fromJson) (field "objects")
  let range ← optional SplitRange.fromJson (field "range")
  some ⟨objects, range⟩

/-- The version probe decoded before the full descriptor. -/
def versionProbe (tree : Json) : Option Nat := do
  let field ← structFields true ["v"] 1 tree
  required (asUnsigned (2 ^ 32)) (field "v")

def treeOf (libraries : Libraries) (body : Bytes) : Option Json := do
  let text ← decodeUtf8 body
  JsonText.parse libraries.finite text.toList

def SplitDescriptor.decode (libraries : Libraries) (body : Bytes) :
    Except SplitError SplitDescriptor :=
  match (treeOf libraries body).bind versionProbe with
  | none => .error ⟨s!"unit descriptor is not valid JSON: {libraries.probeError body}"⟩
  | some version =>
    if version ≠ descriptorVersion then
      .error ⟨s!"unit descriptor version {version} is not this release's version " ++
        s!"{descriptorVersion}; the unit was written by an incompatible release"⟩
    else
      match (treeOf libraries body).bind SplitDescriptor.fromJson with
      | none => .error ⟨s!"unit descriptor failed to decode: {libraries.descriptorError body}"⟩
      | some unit => do
          unit.validateRange
          .ok unit

def partsCursor (addressable : String → Bool) (packing : Packing) (entry : ObjectEntry)
    (origin : Origin) : List Cursor :=
  match partsOf addressable packing entry with
  | [] => []
  | range :: ranges => [⟨entry, [], origin, range, ranges⟩]

def Codec.text : Codec → String
  | .plain => "plain"
  | .gzip => "gzip"
  | .zstd => "zstd"

/-- A byte as two hexadecimal digits after `0x`. -/
def hexByte (byte : UInt8) : String :=
  String.ofList ['0', 'x', Nat.digitChar (byte.toNat / 16), Nat.digitChar (byte.toNat % 16)]

/-- The parts of the objects a descriptor names, or why the unit cannot be read. -/
def descriptorParts (libraries : Libraries) (body : Bytes) (packing : Packing) :
    Except String (List Cursor) :=
  match SplitDescriptor.decode libraries body with
  | .error e => .error s!"the unit's body is not a descriptor: {e.reason}"
  | .ok unit =>
    if unit.objects.isEmpty ∨ maxUnitMembers < unit.objects.length then
      .error (s!"the unit names {unit.objects.length} objects; this source reads 1 to " ++
        s!"{maxUnitMembers} per unit")
    else
      match unit.objects.find? fun e => e.etag.any fun etag => !sendable etag with
      | some object => .error s!"the unit's ETag for \"{object.key}\" cannot be sent in `If-Match`"
      | none =>
        match unit.objects with
        | [] => .ok []
        | [object] =>
          match unit.range with
          | none => .ok (partsCursor libraries.addressable packing object .lister)
          | some range =>
            if packing.delimiter ≠ some range.delimiter then
              .error (s!"the unit splits its object on byte {hexByte range.delimiter}, " ++
                "but the source's framer " ++
                match packing.delimiter with
                | some d => s!"resyncs on byte {hexByte d}"
                | none => "declares no resync delimiter")
            else
              let codec := Codec.resolve packing.compression object.key
              if codec ≠ .plain then
                .error (s!"the unit names a byte range of \"{object.key}\", which the " ++
                  s!"source decodes as {codec.text}; a byte range needs an uncompressed " ++
                  "object")
              else .ok [⟨object, [], .lister, some range, []⟩]
        | first :: others => .ok [⟨first, others, .lister, none, []⟩]

variable {packing : Packing} {entry : ObjectEntry} {unit : SplitDescriptor}

theorem delimiterFor_some {delimiter : UInt8} (cut : packing.delimiterFor entry = some delimiter) :
    packing.delimiter = some delimiter ∧ packing.targetBytes < entry.size ∧
      entry.etag.isSome = true ∧ Codec.resolve packing.compression entry.key = .plain := by
  simp only [Packing.delimiterFor, Option.filter_eq_some_iff, Bool.and_eq_true,
    decide_eq_true_eq] at cut
  exact ⟨cut.1, cut.2.1.1.1, cut.2.1.2, cut.2.2⟩

/-- An object is read whole, or cut from its start to its end into ranges on the framer's
delimiter. -/
theorem partsOf_cases (addressable : String → Bool) (target : 0 < packing.targetBytes)
    (entry : ObjectEntry) :
    partsOf addressable packing entry = [none] ∨
      ∃ delimiter ranges, partsOf addressable packing entry = ranges.map some ∧
        packing.delimiterFor entry = some delimiter ∧ Cut delimiter 0 ranges entry.size := by
  unfold partsOf
  split
  · rename_i delimiter found
    have cut := (Option.filter_eq_some_iff.mp found).1
    exact .inr ⟨delimiter, _, rfl, cut,
      tile_cut (Nat.lt_trans target (delimiterFor_some cut).2.1) target delimiter⟩
  · exact .inl rfl

theorem partsOf_ne_nil (addressable : String → Bool) (target : 0 < packing.targetBytes)
    (entry : ObjectEntry) : partsOf addressable packing entry ≠ [] := by
  rcases partsOf_cases addressable target entry with whole | ⟨delimiter, ranges, ranged, found, cut⟩
  · simp [whole]
  · have large := (delimiterFor_some found).2.1
    rw [ranged]
    intro empty
    rw [List.map_eq_nil_iff.mp empty] at cut
    generalize entry.size = size at cut large
    cases cut
    omega

theorem partsCursor_ne_nil (addressable : String → Bool) (target : 0 < packing.targetBytes)
    (entry : ObjectEntry) (origin : Origin) :
    partsCursor addressable packing entry origin ≠ [] := by
  have some := partsOf_ne_nil addressable target entry
  unfold partsCursor
  split
  · contradiction
  · simp

theorem partsCursor_parts (addressable : String → Bool) (packing : Packing) (entry : ObjectEntry)
    (origin : Origin) : (partsCursor addressable packing entry origin).flatMap Cursor.parts =
      (partsOf addressable packing entry).map fun range => ⟨[entry], range, origin⟩ := by
  unfold partsCursor
  cases partsOf addressable packing entry with
  | nil => rfl
  | cons range ranges => simp [Cursor.parts, Cursor.part]

/-! ## Reading back what was written -/

section

variable (libraries : Libraries)

theorem treeOf_bodyOf {tree : Json} (fit : JsonText.fits 128 tree = true) :
    treeOf libraries (bodyOf tree) = some tree := by
  rw [treeOf, bodyOf, ByteCodec.decodeUtf8_encodeUtf8, Option.bind_eq_bind, Option.bind_some,
    String.toList_ofList, JsonText.parse_render libraries.finite fit]

end

/-- An entry of the source's types: a 64-bit size and a signed 64-bit time. -/
structure ObjectEntry.Sized (entry : ObjectEntry) : Prop where
  size : entry.size < 2 ^ 64
  modified : -2 ^ 63 ≤ entry.lastModifiedMs ∧ entry.lastModifiedMs < 2 ^ 63

theorem required_unsigned {bound n : Nat} (small : n < bound) :
    required (asUnsigned bound) (some (.int n)) = some n :=
  if_pos small

theorem required_i64 {n : Int} (inside : -2 ^ 63 ≤ n ∧ n < 2 ^ 63) :
    required asI64 (some (.int n)) = some n := by
  cases n with
  | ofNat n => exact if_pos (by have := inside.2; rw [Int.ofNat_eq_natCast] at this; omega)
  | negSucc n => exact if_pos (by have := inside.1; omega)

theorem required_string (s : String) : required asString (some (.str s)) = some s := rfl

/-- A field written as the value or `null` is read back. -/
theorem optional_written {α : Type} (read : Json → Option α) (write : α → Json)
    (value : Option α) (reads : ∀ x ∈ value, read (write x) = some x)
    (other : ∀ x ∈ value, write x ≠ .null) :
    optional read (some (orNull write value)) = some value := by
  cases value with
  | none => rfl
  | some x =>
    have plain := other x rfl
    unfold optional orNull
    split
    · cases ‹some _ = none›
    · exact absurd (Option.some.inj ‹_›) plain
    · cases ‹some _ = some _›
      rw [reads x rfl]
      rfl

theorem ObjectEntry.fromJson_toJson (sized : entry.Sized) :
    ObjectEntry.fromJson entry.toJson = some entry := by
  have fields : structFields true ["key", "size", "etag", "last_modified_ms"] 4 entry.toJson =
      some fun name => getField name entry.toJson := by
    simp [toJson, structFields, getField]
  have key : getField "key" entry.toJson = some (.str entry.key) := by
    simp [toJson, getField]
  have size : getField "size" entry.toJson = some (.int entry.size) := by
    simp [toJson, getField]
  have etag : getField "etag" entry.toJson = some (orNull .str entry.etag) := by
    simp [toJson, getField]
  have modified : getField "last_modified_ms" entry.toJson = some (.int entry.lastModifiedMs) := by
    simp [toJson, getField]
  have read : optional asString (getField "etag" entry.toJson) = some entry.etag := by
    rw [etag]
    exact optional_written asString .str entry.etag (fun _ _ => rfl) (fun _ _ => nofun)
  simp only [fromJson, fields, Option.bind_eq_bind, Option.bind_some, key, size, read, modified,
    required_string, required_unsigned sized.size, required_i64 sized.modified]

theorem SplitRange.fromJson_toJson {range : SplitRange} (start : range.start < 2 ^ 64)
    (stop : range.stop < 2 ^ 64) : SplitRange.fromJson range.toJson = some range := by
  have fields : structFields true ["start", "end", "delimiter"] 3 range.toJson =
      some fun name => getField name range.toJson := by
    simp [toJson, structFields, getField]
  have first : getField "start" range.toJson = some (.int range.start) := by
    simp [toJson, getField]
  have second : getField "end" range.toJson = some (.int range.stop) := by
    simp [toJson, getField]
  have third : getField "delimiter" range.toJson = some (.int range.delimiter.toNat) := by
    simp [toJson, getField]
  simp only [fromJson, fields, Option.bind_eq_bind, Option.bind_some, first, second, third,
    required_unsigned start, required_unsigned stop, required_unsigned range.delimiter.toNat_lt,
    UInt8.ofNat_toNat]

theorem mapM_fromJson {entries : List ObjectEntry} (sized : ∀ entry ∈ entries, entry.Sized) :
    (entries.map ObjectEntry.toJson).mapM ObjectEntry.fromJson = some entries := by
  induction entries with
  | nil => rfl
  | cons entry entries ih =>
    have first := ObjectEntry.fromJson_toJson (sized entry List.mem_cons_self)
    have later := ih fun other member => sized other (List.mem_cons_of_mem entry member)
    rw [List.map_cons, List.mapM_cons, first, Option.bind_eq_bind, Option.bind_some, later]
    rfl

theorem fitsInt_natCast {n : Nat} (small : n < 2 ^ 64) : JsonText.fitsInt n = true := by
  simp only [JsonText.fitsInt, decide_eq_true_eq]
  omega

theorem ObjectEntry.fits_toJson (sized : entry.Sized) (depth : Nat) :
    JsonText.fits (depth + 2) entry.toJson = true := by
  have time : JsonText.fitsInt entry.lastModifiedMs = true := by
    have inside := sized.modified
    simp only [JsonText.fitsInt, decide_eq_true_eq]
    omega
  have tag : JsonText.fits (depth + 1) (orNull .str entry.etag) = true := by
    cases entry.etag <;> rfl
  simp only [toJson, JsonText.fits, JsonText.fitsEntries, fitsInt_natCast sized.size, time, tag,
    Bool.and_self]

theorem fitsAll_toJson {entries : List ObjectEntry} (sized : ∀ entry ∈ entries, entry.Sized)
    (depth : Nat) : JsonText.fitsAll (depth + 2) (entries.map ObjectEntry.toJson) = true := by
  induction entries with
  | nil => rfl
  | cons entry entries ih =>
    rw [List.map_cons, JsonText.fitsAll, Bool.and_eq_true]
    exact ⟨ObjectEntry.fits_toJson (sized entry List.mem_cons_self) depth,
      ih fun other member => sized other (List.mem_cons_of_mem entry member)⟩

/-- A descriptor of the source's types. -/
structure SplitDescriptor.Sized (unit : SplitDescriptor) : Prop where
  objects : ∀ entry ∈ unit.objects, entry.Sized
  range : ∀ range ∈ unit.range, range.start < 2 ^ 64 ∧ range.stop < 2 ^ 64

theorem SplitDescriptor.fits_toJson (sized : unit.Sized) :
    JsonText.fits 128 unit.toJson = true := by
  have objects := fitsAll_toJson sized.objects 124
  obtain ⟨members, - | range⟩ := unit
  · simp only [toJson, Option.map_none, Option.toList_none, List.append_nil, JsonText.fits,
      JsonText.fitsEntries, objects, Bool.and_true]
    rfl
  · have bounds := sized.range range rfl
    have byte : JsonText.fitsInt range.delimiter.toNat = true :=
      fitsInt_natCast (Nat.lt_trans range.delimiter.toNat_lt (by decide))
    simp only [toJson, Option.map_some, Option.toList_some, List.cons_append, List.nil_append,
      SplitRange.toJson, JsonText.fits, JsonText.fitsEntries, objects, byte,
      fitsInt_natCast bounds.1, fitsInt_natCast bounds.2, Bool.and_true]
    rfl

theorem SplitDescriptor.structFields_toJson (unit : SplitDescriptor) {names : List String}
    {least : Nat} (known : names = ["v", "objects", "range"] ∨ names = ["v"]) :
    structFields true names least unit.toJson = some fun name => getField name unit.toJson := by
  obtain ⟨members, - | range⟩ := unit <;> rcases known with rfl | rfl <;>
    simp [toJson, structFields, getField]

theorem SplitDescriptor.version_toJson (unit : SplitDescriptor) :
    getField "v" unit.toJson = some (.int descriptorVersion) := by
  obtain ⟨members, - | range⟩ := unit <;> simp [toJson, getField]

theorem SplitDescriptor.objects_toJson (unit : SplitDescriptor) :
    getField "objects" unit.toJson = some (.arr (unit.objects.map ObjectEntry.toJson)) := by
  obtain ⟨members, - | range⟩ := unit <;> simp [toJson, getField]

theorem SplitDescriptor.range_toJson (unit : SplitDescriptor) :
    getField "range" unit.toJson = unit.range.map SplitRange.toJson := by
  obtain ⟨members, - | range⟩ := unit <;> simp [toJson, getField]

theorem versionProbe_toJson (unit : SplitDescriptor) :
    versionProbe unit.toJson = some descriptorVersion := by
  rw [versionProbe, unit.structFields_toJson (.inr rfl), Option.bind_eq_bind, Option.bind_some]
  dsimp only
  rw [unit.version_toJson]
  exact required_unsigned (by decide)

theorem SplitDescriptor.fromJson_toJson (sized : unit.Sized) :
    SplitDescriptor.fromJson unit.toJson = some unit := by
  have version : required (asUnsigned (2 ^ 32)) (some (.int descriptorVersion)) =
      some descriptorVersion := required_unsigned (by decide)
  have objects : required (asArray ObjectEntry.fromJson)
      (some (.arr (unit.objects.map ObjectEntry.toJson))) = some unit.objects :=
    mapM_fromJson sized.objects
  have range : optional SplitRange.fromJson (unit.range.map SplitRange.toJson) =
      some unit.range := by
    cases found : unit.range with
    | none => rfl
    | some range =>
      have bounds := sized.range range found
      exact optional_written SplitRange.fromJson SplitRange.toJson (some range)
        (fun other same => by
          cases same
          exact SplitRange.fromJson_toJson bounds.1 bounds.2)
        (fun _ _ => nofun)
  simp only [fromJson, unit.structFields_toJson (.inl rfl), Option.bind_eq_bind, Option.bind_some,
    unit.version_toJson, unit.objects_toJson, unit.range_toJson, version, objects, range]

theorem SplitDescriptor.decode_bodyOf (libraries : Libraries) (sized : unit.Sized)
    (valid : unit.validateRange = .ok ()) :
    SplitDescriptor.decode libraries (bodyOf unit.toJson) = .ok unit := by
  simp only [decode, treeOf_bodyOf libraries (fits_toJson sized), Option.bind_some,
    versionProbe_toJson, fromJson_toJson sized, ne_eq, not_true_eq_false, ↓reduceIte, valid]
  rfl

end Spate.S3
