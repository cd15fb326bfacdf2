import Spate.ClickHouseSchema
import Spate.FastMap

set_option autoImplicit false

/- How the Native encoder writes a row into its columns (`spate-clickhouse/src/native/column.rs`,
`lowcard.rs`, `leaf.rs`, `dispatch.rs`). Building the columns and emitting a block are left out.

A failed call leaves whatever it wrote behind, as the source does. The `u64` counters
`cum` and `dict_count` are natural numbers: they reach the wire only through the low eight
bytes, which is where a wrapping counter would stand. -/
namespace Spate.ClickHouse

open Serde (ScalarKind Scalar Slice Value)
open ByteCodec

/-- `NativeError`, without the refusals of a column and of a first record, which come before
anything is written. -/
inductive NativeError
  | typeMismatch (expected : String)
  | rawWidth (expected got : Nat)
  | fixedTooLong (width got : Nat)
  | rowArity (expected got : Nat)
  | tupleArity
  | notAStruct
  | internal (message : String)
  | custom (message : String)
  deriving DecidableEq, Repr

/-- A short label for type-mismatch errors. -/
def kindLabel : ScalarKind → String
  | .bool => "Bool"
  | .i8 => "Int8"
  | .i16 => "Int16"
  | .i32 => "Int32-width"
  | .i64 => "Int64-width"
  | .i128 => "Int128-width"
  | .u8 => "UInt8"
  | .u16 => "UInt16-width"
  | .u32 => "UInt32-width"
  | .u64 => "UInt64"
  | .u128 => "UInt128"
  | .f32 => "Float32"
  | .f64 => "Float64"

/-! ## Dictionaries -/

structure LowCard where
  nullable : Bool
  /-- Dictionary-entry raw bytes to the assigned index. -/
  map : FastMap Bytes Nat
  /-- Accumulated dictionary entries, each length-prefixed. -/
  dict : Bytes
  dictCount : Nat
  keys : List Nat

namespace LowCard

def intern (lc : LowCard) (value : Bytes) : LowCard :=
  match lc.map.lookup value with
  | some idx => { lc with keys := lc.keys ++ [idx] }
  | none =>
    { lc with
      dict := lc.dict ++ prefixed value
      dictCount := lc.dictCount + 1
      map := lc.map.insert value lc.dictCount
      keys := lc.keys ++ [lc.dictCount] }

def pushNull (lc : LowCard) : LowCard := { lc with keys := lc.keys ++ [0] }

def pushDefault (lc : LowCard) : LowCard := { lc with keys := lc.keys ++ [0] }

end LowCard

/-! ## Column writers -/

inductive ColumnWriter
  | scalar (kind : ScalarKind) (buf : Bytes)
  | str (buf : Bytes)
  | fixed (width : Nat) (buf : Bytes)
  | rawExact (width : Nat) (buf : Bytes)
  | nullable (nullmap : Bytes) (inner : ColumnWriter)
  | array (offsets : Bytes) (cum : Nat) (inner : ColumnWriter)
  | map (offsets : Bytes) (cum : Nat) (key val : ColumnWriter)
  | tuple (elems : List ColumnWriter)
  | lowCard (lc : LowCard)

namespace ColumnWriter

mutual

/-- The placeholder a `Nullable` dense stream writes at a NULL. -/
def pushDefault : ColumnWriter → ColumnWriter
  | .scalar kind buf => .scalar kind (buf ++ List.replicate kind.width 0)
  | .str buf => .str (buf ++ leb128 0)
  | .fixed width buf => .fixed width (buf ++ List.replicate width 0)
  | .rawExact width buf => .rawExact width (buf ++ List.replicate width 0)
  | .nullable nullmap inner => .nullable (nullmap ++ [1]) inner.pushDefault
  | .array offsets cum inner => .array (offsets ++ le 8 cum) cum inner
  | .map offsets cum key val => .map (offsets ++ le 8 cum) cum key val
  | .tuple elems => .tuple (pushDefaults elems)
  | .lowCard lc => .lowCard lc.pushDefault

def pushDefaults : List ColumnWriter → List ColumnWriter
  | [] => []
  | w :: ws => w.pushDefault :: pushDefaults ws

end

end ColumnWriter

/-! ## Fixed-width blobs -/

/-- What a serializer call leaves behind, and how it ended. -/
abbrev Outcome (σ : Type) : Type := σ × Except NativeError Unit

def scalarBytes (value : Scalar) : Bytes := le value.kind.width value.bits

mutual

/-- `ByteSink`: the raw bytes the value appends. -/
def byteSink : Value → Outcome Bytes
  | .scalar value => (scalarBytes value, .ok ())
  | .char utf8 | .str utf8 | .bytes utf8 => (utf8.bytes, .ok ())
  | .newtypeStruct _ value => byteSink value
  | .seq _ elems | .tuple elems | .tupleStruct elems => byteSinks elems
  | .none | .some _ => ([], .error (.internal "Option in a fixed-width blob column"))
  | .unit | .unitStruct => ([], .ok ())
  | .unitVariant | .newtypeVariant _ _ | .tupleVariant | .structVariant =>
    ([], .error (.internal "variant in a fixed-width blob column"))
  | .map _ _ => ([], .error (.internal "Map in a fixed-width blob column"))
  | .struct _ _ => ([], .error (.internal "struct in a fixed-width blob column"))
  | .custom message => ([], .error (.custom message))

def byteSinks : List Value → Outcome Bytes
  | [] => ([], .ok ())
  | elem :: rest =>
    match byteSink elem with
    | (bytes, .error error) => (bytes, .error error)
    | (bytes, .ok ()) =>
      let (more, result) := byteSinks rest
      (bytes ++ more, result)

end

/-! ## One value into one column -/

def mismatch (expected : String) : Except NativeError Unit := .error (.typeMismatch expected)

/-- `ColumnWriter::append`: the blob columns take raw bytes, the others serialize. -/
def appendWith (w : ColumnWriter) (value : Value)
    (serialize : ColumnWriter → Outcome ColumnWriter) :
    Outcome ColumnWriter :=
  match w with
  | .rawExact width buf =>
    match byteSink value with
    | (bytes, .error error) => (.rawExact width (buf ++ bytes), .error error)
    | (bytes, .ok ()) =>
      if bytes.length ≠ width then
        (.rawExact width buf, .error (.rawWidth width bytes.length))
      else (.rawExact width (buf ++ bytes), .ok ())
  | .fixed width buf =>
    match byteSink value with
    | (bytes, .error error) => (.fixed width (buf ++ bytes), .error error)
    | (bytes, .ok ()) =>
      if width < bytes.length then
        (.fixed width buf, .error (.fixedTooLong width bytes.length))
      else
        (.fixed width (buf ++ bytes ++ List.replicate (width - bytes.length) 0), .ok ())
  | w => serialize w

def serializeScalar (w : ColumnWriter) (value : Scalar) : Outcome ColumnWriter :=
  match w with
  | .scalar kind buf =>
    if kind = value.kind then (.scalar kind (buf ++ scalarBytes value), .ok ())
    else (w, mismatch (kindLabel value.kind))
  | _ => (w, mismatch (kindLabel value.kind))

def serializeBytes (w : ColumnWriter) (value : Slice) : Outcome ColumnWriter :=
  match w with
  | .str buf => (.str (buf ++ prefixed value.bytes), .ok ())
  | .lowCard lc => (.lowCard (lc.intern value.bytes), .ok ())
  | _ => (w, mismatch "String / LowCardinality(String) column")

def serializeNone (w : ColumnWriter) : Outcome ColumnWriter :=
  match w with
  | .nullable nullmap inner => (.nullable (nullmap ++ [1]) inner.pushDefault, .ok ())
  | .lowCard lc =>
    if lc.nullable then (.lowCard lc.pushNull, .ok ()) else (w, mismatch "Nullable column")
  | _ => (w, mismatch "Nullable column")

mutual

def serialize (w : ColumnWriter) : Value → Outcome ColumnWriter
  | .scalar value => serializeScalar w value
  | .str value | .bytes value => serializeBytes w value
  | .none => serializeNone w
  | .some value =>
    match w with
    | .nullable nullmap inner =>
      let (inner, result) := appendWith inner value fun w => serialize w value
      (.nullable (nullmap ++ [0]) inner, result)
    | .lowCard lc => serialize (.lowCard lc) value
    | _ => (w, mismatch "Nullable column")
  | .newtypeStruct _ value => serialize w value
  | .seq _ elems =>
    match w with
    | .array offsets cum inner =>
      match serializeElems inner elems with
      | (inner, _, .error error) => (.array offsets cum inner, .error error)
      | (inner, added, .ok ()) =>
        (.array (offsets ++ le 8 (cum + added)) (cum + added) inner, .ok ())
    | _ => (w, mismatch "Array column")
  | .tuple elems | .tupleStruct elems =>
    match w with
    | .tuple writers =>
      let (writers, result) := serializeFields writers elems
      (.tuple writers, result)
    | _ => (w, mismatch "Tuple column")
  | .struct _ fields =>
    match w with
    | .tuple writers =>
      let (writers, result) := serializeNamed writers fields
      (.tuple writers, result)
    | _ => (w, mismatch "Tuple column")
  | .map _ entries =>
    match w with
    | .map offsets cum key val =>
      match serializeEntries key val entries with
      | (key, val, _, .error error) => (.map offsets cum key val, .error error)
      | (key, val, added, .ok ()) =>
        (.map (offsets ++ le 8 (cum + added)) (cum + added) key val, .ok ())
    | _ => (w, mismatch "Map column")
  | .char _ => (w, mismatch "non-char column (use String)")
  | .unit => (w, mismatch "a column value, not unit")
  | .unitStruct => (w, mismatch "a column value, not a unit struct")
  | .unitVariant => (w, mismatch "a column value, not a unit enum variant")
  | .newtypeVariant _ _ => (w, mismatch "a column value (Variant is not supported)")
  | .tupleVariant => (w, mismatch "a column value (tuple variant unsupported)")
  | .structVariant => (w, mismatch "a column value (struct variant unsupported)")
  | .custom message => (w, .error (.custom message))

/-- `Compound::Seq`: the elements, and how many were added. -/
def serializeElems (w : ColumnWriter) :
    List Value → ColumnWriter × Nat × Except NativeError Unit
  | [] => (w, 0, .ok ())
  | elem :: rest =>
    match appendWith w elem fun w => serialize w elem with
    | (w, .error error) => (w, 0, .error error)
    | (w, .ok ()) =>
      let (w, added, result) := serializeElems w rest
      (w, added + 1, result)

/-- `Compound::Tuple`: one element to the next writer. Its `end` accepts whatever number of
elements has come. -/
def serializeFields : List ColumnWriter → List Value → Outcome (List ColumnWriter)
  | ws, [] => (ws, .ok ())
  | [], _ :: _ => ([], .error .tupleArity)
  | w :: ws, elem :: rest =>
    match appendWith w elem fun w => serialize w elem with
    | (w, .error error) => (w :: ws, .error error)
    | (w, .ok ()) =>
      let (ws, result) := serializeFields ws rest
      (w :: ws, result)

/-- `Compound::Tuple` fed by a struct, whose field names are not looked at. -/
def serializeNamed : List ColumnWriter → List (String × Value) → Outcome (List ColumnWriter)
  | ws, [] => (ws, .ok ())
  | [], _ :: _ => ([], .error .tupleArity)
  | w :: ws, (_, field) :: rest =>
    match appendWith w field fun w => serialize w field with
    | (w, .error error) => (w :: ws, .error error)
    | (w, .ok ()) =>
      let (ws, result) := serializeNamed ws rest
      (w :: ws, result)

/-- `Compound::Map`: keys and values to their own writers. -/
def serializeEntries (key val : ColumnWriter) :
    List (Value × Value) → ColumnWriter × ColumnWriter × Nat × Except NativeError Unit
  | [] => (key, val, 0, .ok ())
  | (k, v) :: rest =>
    match appendWith key k fun w => serialize w k with
    | (key, .error error) => (key, val, 0, .error error)
    | (key, .ok ()) =>
      match appendWith val v fun w => serialize w v with
      | (val, .error error) => (key, val, 0, .error error)
      | (val, .ok ()) =>
        let (key, val, added, result) := serializeEntries key val rest
        (key, val, added + 1, result)

end

def ColumnWriter.append (w : ColumnWriter) (value : Value) : Outcome ColumnWriter :=
  appendWith w value fun w => serialize w value

/-! ## Rows -/

/-- `RowFields`: field `done` of the row goes to the next of `total` columns, and the row
must fill them all. -/
def rowFields (total : Nat) (done : Nat) :
    List ColumnWriter → List Value → Outcome (List ColumnWriter)
  | ws, [] => (ws, if done = total then .ok () else .error (.rowArity total done))
  | [], _ :: _ => ([], .error (.rowArity total (done + 1)))
  | w :: ws, field :: rest =>
    match w.append field with
    | (w, .error error) => (w :: ws, .error error)
    | (w, .ok ()) =>
      let (ws, result) := rowFields total (done + 1) ws rest
      (w :: ws, result)

/-- `RowDispatchSer`: a row is a struct, a tuple or a sequence of its columns. -/
def dispatchRow (columns : List ColumnWriter) : Value → Outcome (List ColumnWriter)
  | .struct _ fields => rowFields columns.length 0 columns (fields.map Prod.snd)
  | .tuple elems | .tupleStruct elems | .seq _ elems => rowFields columns.length 0 columns elems
  | .newtypeStruct _ value => dispatchRow columns value
  | .custom message => (columns, .error (.custom message))
  | _ => (columns, .error .notAStruct)

end Spate.ClickHouse
