import Spate.ByteCodec

set_option autoImplicit false

/- What a `Serialize` implementation hands to a serializer: the serde data model, one
constructor per serializer method. -/
namespace Spate.Serde

open ByteCodec (Bytes)

inductive ScalarKind
  | bool
  | i8
  | i16
  | i32
  | i64
  | i128
  | u8
  | u16
  | u32
  | u64
  | u128
  | f32
  | f64
  deriving DecidableEq, Repr

/-- The bytes of a value of this kind. -/
def ScalarKind.width : ScalarKind → Nat
  | .bool | .i8 | .u8 => 1
  | .i16 | .u16 => 2
  | .i32 | .u32 | .f32 => 4
  | .i64 | .u64 | .f64 => 8
  | .i128 | .u128 => 16

/-- How many values the kind has. -/
def ScalarKind.bound : ScalarKind → Nat
  | .bool => 2
  | kind => 256 ^ kind.width

/-- A primitive value by its bit pattern: integers in two's complement, floats as their IEEE
bits, `false` and `true` as 0 and 1. -/
structure Scalar where
  kind : ScalarKind
  bits : Nat
  fits : bits < kind.bound
  deriving DecidableEq, Repr

/-- A byte slice: its length is a `usize`. -/
structure Slice where
  bytes : Bytes
  sized : bytes.length < 2 ^ 64
  deriving DecidableEq, Repr

/-- `len` is the length the implementation announces, if it announces one; `declared` is the
field count it announces for a struct. `custom` is an error the implementation raises. -/
inductive Value
  | scalar (value : Scalar)
  | char (utf8 : Slice)
  | str (utf8 : Slice)
  | bytes (value : Slice)
  | none
  | some (value : Value)
  | unit
  | unitStruct
  | unitVariant
  | newtypeStruct (name : String) (value : Value)
  | newtypeVariant (index : UInt32) (value : Value)
  | seq (len : Option UInt64) (elems : List Value)
  | tuple (elems : List Value)
  | tupleStruct (elems : List Value)
  | tupleVariant
  | map (len : Option UInt64) (entries : List (Value × Value))
  | struct (declared : Nat) (fields : List (String × Value))
  | structVariant
  | custom (message : String)

end Spate.Serde
