import Spate.NativeColumn

set_option autoImplicit false

/- The RowBinary serializer (`spate-clickhouse/src/rowbinary.rs`). A failed call leaves what
it wrote in the buffer, as the source does. -/
namespace Spate.ClickHouse.RowBinary

open Serde (Value)
open ByteCodec

inductive RowBinaryError
  | unsupported (what : String)
  | sequenceMustHaveLength
  | flattenUnsupported
  | nestedOption
  | fieldCountMismatch (expected got : Nat)
  | variantOutOfRange (index : UInt32)
  | custom (message : String)
  deriving DecidableEq, Repr

structure RowBinarySer where
  buf : Bytes
  /-- The next value is directly inside an `Option`. -/
  optionInner : Bool
  structDepth : Nat
  /-- What the outermost struct declared, and what it wrote. -/
  topExpected : Nat
  topWritten : Nat
  deriving DecidableEq, Repr

namespace RowBinarySer

def put (ser : RowBinarySer) (bytes : Bytes) : RowBinarySer := { ser with buf := ser.buf ++ bytes }

/-- Composite serializers clear the mark: an `Option` in them is a column of its own. -/
def composite (ser : RowBinarySer) : RowBinarySer := { ser with optionInner := false }

def openStruct (ser : RowBinarySer) (len : Nat) : RowBinarySer :=
  if ser.structDepth = 0 then
    { ser.composite with topExpected := len, topWritten := 0, structDepth := 1 }
  else { ser.composite with structDepth := ser.structDepth + 1 }

/-- Only the outermost struct's fields are counted. -/
def countField (ser : RowBinarySer) : RowBinarySer :=
  if ser.structDepth = 1 then { ser with topWritten := ser.topWritten + 1 } else ser

def endStruct (ser : RowBinarySer) : RowBinarySer × Except RowBinaryError Unit :=
  let after := { ser with structDepth := ser.structDepth - 1 }
  if after.structDepth = 0 ∧ after.topWritten ≠ after.topExpected then
    (after, .error (.fieldCountMismatch after.topExpected after.topWritten))
  else (after, .ok ())

end RowBinarySer

mutual

def serialize (ser : RowBinarySer) : Value → RowBinarySer × Except RowBinaryError Unit
  | .scalar value => (ser.put (scalarBytes value), .ok ())
  | .char _ => (ser, .error (.unsupported "char (use a String column instead)"))
  | .str value | .bytes value => (ser.put (prefixed value.bytes), .ok ())
  | .none => if ser.optionInner then (ser, .error .nestedOption) else (ser.put [1], .ok ())
  | .some value =>
    if ser.optionInner then (ser, .error .nestedOption)
    else
      let (after, result) := serialize { ser.put [0] with optionInner := true } value
      ({ after with optionInner := false }, result)
  | .unit => (ser, .error (.unsupported "() has no column type"))
  | .unitStruct => (ser, .error (.unsupported "unit struct"))
  | .unitVariant =>
    (ser, .error (.unsupported
      "unit enum variant (map enums to an integer or String column explicitly)"))
  | .newtypeStruct _ value => serialize ser value
  | .newtypeVariant index value =>
    if index.toNat < 256 then serialize (ser.composite.put [index.toUInt8]) value
    else (ser.composite, .error (.variantOutOfRange index))
  | .seq none _ => (ser.composite, .error .sequenceMustHaveLength)
  | .seq (some len) elems => serializeElems (ser.composite.put (leb128 len.toNat)) elems
  | .tuple elems | .tupleStruct elems => serializeElems ser.composite elems
  | .tupleVariant => (ser, .error (.unsupported "tuple enum variant"))
  | .map none _ => (ser.composite, .error .flattenUnsupported)
  | .map (some len) entries => serializeEntries (ser.composite.put (leb128 len.toNat)) entries
  | .struct declared fields =>
    match serializeFields (ser.openStruct declared) fields with
    | (after, .error error) => (after, .error error)
    | (after, .ok ()) => after.endStruct
  | .structVariant => (ser, .error (.unsupported "struct enum variant"))
  | .custom message => (ser, .error (.custom message))

def serializeElems (ser : RowBinarySer) : List Value → RowBinarySer × Except RowBinaryError Unit
  | [] => (ser, .ok ())
  | elem :: rest =>
    match serialize ser elem with
    | (after, .error error) => (after, .error error)
    | (after, .ok ()) => serializeElems after rest

def serializeEntries (ser : RowBinarySer) :
    List (Value × Value) → RowBinarySer × Except RowBinaryError Unit
  | [] => (ser, .ok ())
  | (key, val) :: rest =>
    match serialize ser key with
    | (after, .error error) => (after, .error error)
    | (after, .ok ()) =>
      match serialize after val with
      | (after, .error error) => (after, .error error)
      | (after, .ok ()) => serializeEntries after rest

def serializeFields (ser : RowBinarySer) :
    List (String × Value) → RowBinarySer × Except RowBinaryError Unit
  | [] => (ser, .ok ())
  | (_, field) :: rest =>
    match serialize ser.countField field with
    | (after, .error error) => (after, .error error)
    | (after, .ok ()) => serializeFields after rest

end

/-- `serialize_row`, appending to `buf`. -/
def serializeRow (row : Value) (buf : Bytes) : Bytes × Except RowBinaryError Unit :=
  let (after, result) := serialize ⟨buf, false, 0, 0, 0⟩ row
  (after.buf, result)

end Spate.ClickHouse.RowBinary
