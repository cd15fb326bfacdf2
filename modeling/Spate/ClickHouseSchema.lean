import Mathlib.Data.List.Forall2
import Spate.Serde
import Spate.TypeParse

set_option autoImplicit false

/- Checking the first record's struct against the declared columns: the recording serializer
and the class matrix (`spate-clickhouse/src/schema/probe.rs`), the check itself
(`schema/mod.rs`) and what the two encoders make of it (`encoder.rs`, `native/mod.rs`). -/
namespace Spate.ClickHouse

open Serde (ScalarKind Value)
open ByteCodec (Bytes)

/-- What the RowBinary serializer would write for one value. -/
inductive Shape
  | scalar (kind : ScalarKind)
  | str
  | bytes
  | option (inner : Shape)
  | seq (inner : Shape)
  | map (key val : Shape)
  | tuple (elems : List Shape)
  | struct (fields : List (String × Shape))
  | newtype (name : String) (inner : Shape)
  | unknown

inductive ProbeError
  | notAStruct (kind : String)
  | unsupported (what : String)
  | sequenceMustHaveLength
  | flatten
  | custom (message : String)
  deriving DecidableEq, Repr

def ProbeError.text : ProbeError → String
  | .notAStruct kind =>
    "row type must be a struct with named fields to validate against columns " ++
      "(got " ++ kind ++ ")"
  | .unsupported what => "type has no RowBinary representation: " ++ what
  | .sequenceMustHaveLength => "sequences must have a known length ahead of time"
  | .flatten => "#[serde(flatten)] is not supported by RowBinary rows"
  | .custom message => "serialize error: " ++ message

/-! ## The recording serializer -/

mutual

def shapeOf : Value → Except ProbeError Shape
  | .scalar value => .ok (.scalar value.kind)
  | .char _ => .error (.unsupported "char")
  | .str _ => .ok .str
  | .bytes _ => .ok .bytes
  | .none => .ok (.option .unknown)
  | .some value => do
      match ← shapeOf value with
      | .option _ => .error (.unsupported "nested Option (Option<Option<T>>)")
      | inner => .ok (.option inner)
  | .unit => .error (.unsupported "()")
  | .unitStruct => .error (.unsupported "unit struct")
  | .unitVariant => .error (.unsupported "unit enum variant")
  | .newtypeStruct name value => do
      let inner ← shapeOf value
      .ok (.newtype name inner)
  | .newtypeVariant _ _ => .ok .unknown
  | .seq none _ => .error .sequenceMustHaveLength
  | .seq (some _) elems => do
      let inner ← firstShape elems
      .ok (.seq inner)
  | .tuple elems | .tupleStruct elems => do
      let shapes ← shapesOf elems
      .ok (.tuple shapes)
  | .tupleVariant => .error (.unsupported "tuple enum variant")
  | .map none _ => .error .flatten
  | .map (some _) entries => do
      let (key, val) ← firstEntryShape entries
      .ok (.map key val)
  | .struct _ fields => do
      let shapes ← fieldShapes fields
      .ok (.struct shapes)
  | .structVariant => .error (.unsupported "struct enum variant")
  | .custom message => .error (.custom message)

/-- `SeqShape`: only the first element is recorded. -/
def firstShape : List Value → Except ProbeError Shape
  | [] => .ok .unknown
  | elem :: _ => shapeOf elem

/-- `MapShape`: only the first entry is recorded. -/
def firstEntryShape : List (Value × Value) → Except ProbeError (Shape × Shape)
  | [] => .ok (.unknown, .unknown)
  | (key, val) :: _ => do
      let key ← shapeOf key
      let val ← shapeOf val
      .ok (key, val)

def shapesOf : List Value → Except ProbeError (List Shape)
  | [] => .ok []
  | elem :: rest => do
      let shape ← shapeOf elem
      let shapes ← shapesOf rest
      .ok (shape :: shapes)

def fieldShapes : List (String × Value) → Except ProbeError (List (String × Shape))
  | [] => .ok []
  | (name, field) :: rest => do
      let shape ← shapeOf field
      let shapes ← fieldShapes rest
      .ok ((name, shape) :: shapes)

end

def kindName : Shape → String
  | .scalar .bool => "a bool"
  | .scalar .f32 | .scalar .f64 => "a float"
  | .scalar _ => "an integer"
  | .str | .bytes => "a string"
  | .option _ => "an Option"
  | .seq _ => "a sequence"
  | .map _ _ => "a map"
  | .tuple _ => "a tuple"
  | .struct _ => "a struct"
  | .newtype _ _ => "a newtype"
  | .unknown => "an opaque value"

def probeRow (row : Value) : Except ProbeError (List (String × Shape)) := do
  match ← shapeOf row with
  | .struct fields => .ok fields
  | shape => .error (.notAStruct (kindName shape))

/-! ## The class matrix -/

inductive Wire
  | rowBinary
  | native
  deriving DecidableEq, Repr

def isNamed (ty : ChType) (names : List String) : Bool :=
  match ty with
  | .named name => names.contains name
  | _ => false

def knownNamed : List String :=
  ["Bool", "Int8", "Int16", "Int32", "Int64", "Int128", "Int256", "UInt8", "UInt16", "UInt32",
    "UInt64", "UInt128", "UInt256", "Float32", "Float64", "String", "UUID", "IPv4", "IPv6",
    "Date", "Date32", "Time", "JSON", "Point", "Ring", "LineString", "Polygon",
    "MultiLineString", "MultiPolygon"]

def isUnknownType : ChType → Bool
  | .other _ => true
  | .named name => !knownNamed.contains name
  | _ => false

def point : ChType := .tuple [.named "Float64", .named "Float64"]

def geoEquiv (name : String) : Option ChType :=
  match name with
  | "Point" => some point
  | "Ring" | "LineString" => some (.array point)
  | "Polygon" | "MultiLineString" => some (.array (.array point))
  | "MultiPolygon" => some (.array (.array (.array point)))
  | _ => none

def isDecimal (ty : ChType) (low high : UInt8) : Bool :=
  match ty with
  | .decimal precision _ => low ≤ precision && precision ≤ high
  | _ => false

def isDateTime64 (ty : ChType) (precision : UInt8) : Bool :=
  match ty with
  | .dateTime64 p _ => p = precision
  | _ => false

def isTime64 (ty : ChType) (precision : UInt8) : Bool :=
  match ty with
  | .time64 p => p = precision
  | _ => false

def isDateTime : ChType → Bool
  | .dateTime _ => true
  | _ => false

/-- The column classes the crate's wire wrappers intend, by the name each writes. -/
def newtypeRule (name : String) : Option (ChType → Bool) :=
  match name with
  | "DateDays" => some fun ty => isNamed ty ["Date", "UInt16"]
  | "Date32Days" => some fun ty => isNamed ty ["Date32", "Int32"]
  | "DateTimeSeconds" => some fun ty => isNamed ty ["UInt32"] || isDateTime ty
  | "DateTime64Secs" => some fun ty => isNamed ty ["Int64"] || isDateTime64 ty 0
  | "DateTime64Millis" => some fun ty => isNamed ty ["Int64"] || isDateTime64 ty 3
  | "DateTime64Micros" => some fun ty => isNamed ty ["Int64"] || isDateTime64 ty 6
  | "DateTime64Nanos" => some fun ty => isNamed ty ["Int64"] || isDateTime64 ty 9
  | "TimeSeconds" => some fun ty => isNamed ty ["Time", "Int32"]
  | "Time64Secs" => some fun ty => isNamed ty ["Int64"] || isTime64 ty 0
  | "Time64Millis" => some fun ty => isNamed ty ["Int64"] || isTime64 ty 3
  | "Time64Micros" => some fun ty => isNamed ty ["Int64"] || isTime64 ty 6
  | "Time64Nanos" => some fun ty => isNamed ty ["Int64"] || isTime64 ty 9
  | "Int256" => some fun ty => isNamed ty ["Int256"] || isDecimal ty 39 76
  | "UInt256" => some fun ty => isNamed ty ["UInt256"]
  | _ => none

/-- The precision band and the scale a decimal wrapper's name carries. -/
def decimalWrapper (name : String) : Option ((UInt8 × UInt8) × UInt8) := do
  let (base, rest) ← splitOnce '<' name.toList
  let scale ← parseU8 (← stripSuffix '>' rest)
  match String.ofList base with
  | "Decimal32" => some ((1, 9), scale)
  | "Decimal64" => some ((10, 18), scale)
  | "Decimal128" => some ((19, 38), scale)
  | _ => none

/-- LowCardinality is wire-transparent on insert. -/
def ChType.transparent : ChType → ChType
  | .lowCardinality inner => inner.transparent
  | ty => ty

/-- Geo columns are structural aliases over tuples and arrays. -/
def ChType.expanded : ChType → ChType
  | .named name => (geoEquiv name).getD (.named name)
  | ty => ty

def scalarCompatible (kind : ScalarKind) (ty : ChType) : Bool :=
  match kind with
  | .bool => isNamed ty ["Bool", "UInt8", "Int8"]
  | .i8 => isNamed ty ["Int8"] || (ty matches .enum8)
  | .i16 => isNamed ty ["Int16"] || (ty matches .enum16)
  | .i32 => isNamed ty ["Int32", "Date32", "Time"] || isDecimal ty 1 9
  | .i64 =>
    isNamed ty ["Int64"] || (ty matches .dateTime64 _ _) || (ty matches .time64 _) ||
      isDecimal ty 10 18
  | .i128 => isNamed ty ["Int128"] || isDecimal ty 19 38
  | .u8 => isNamed ty ["UInt8", "Bool"]
  | .u16 => isNamed ty ["UInt16", "Date"]
  | .u32 => isNamed ty ["UInt32", "IPv4"] || isDateTime ty
  | .u64 => isNamed ty ["UInt64"]
  | .u128 => isNamed ty ["UInt128"]
  | .f32 => isNamed ty ["Float32"]
  | .f64 => isNamed ty ["Float64"]

/-- Native pads a short value into `FixedString(N)`; a RowBinary row has to supply exactly
`N` bytes. -/
def stringCompatible (wire : Wire) (ty : ChType) : Bool :=
  isNamed ty ["String", "JSON"] || (wire = .native && (ty matches .fixedString _))

def allU8 (elems : List Shape) : Bool :=
  elems.all fun shape => shape matches .scalar .u8

/-- The fixed-width columns a tuple may feed. -/
def rawCompatible (elems : List Shape) : ChType → Bool
  | .fixedString n => elems.length = n.toNat && allU8 elems
  | .named name => match name with
    | "IPv6" => elems.length = 16 && allU8 elems
    | "UUID" => (elems matches [.scalar .u64, .scalar .u64])
    | "Int256" | "UInt256" => elems.length = 32 && allU8 elems
    | _ => false
  | _ => false

mutual

def compatible (wire : Wire) (shape : Shape) (type : ChType) : Bool :=
  -- Option-ness must match exactly, before any permissiveness applies.
  match shape, type.transparent with
  | .option inner, .nullable t => compatible wire inner t
  | .option _, _ => false
  | _, .nullable _ => false
  | .unknown, _ => true
  | .newtype name inner, ty =>
    if isUnknownType ty then true
    else match decimalWrapper name with
      | some ((low, high), scale) =>
        match ty with
        | .decimal precision s => low ≤ precision && precision ≤ high && s = scale
        | _ => false
      | none => match newtypeRule name with
        | some rule => rule ty
        | none => compatible wire inner ty
  | .scalar kind, ty => isUnknownType ty || scalarCompatible kind ty.expanded
  | .str, ty | .bytes, ty => isUnknownType ty || stringCompatible wire ty.expanded
  | .seq inner, ty =>
    isUnknownType ty || match ty.expanded with
      | .array t => compatible wire inner t
      | _ => false
  | .map key val, ty =>
    isUnknownType ty || match ty.expanded with
      | .map kt vt => compatible wire key kt && compatible wire val vt
      | _ => false
  | .tuple elems, ty =>
    isUnknownType ty || match ty.expanded with
      | .tuple ts => tupleCompatible wire elems ts
      | ty => rawCompatible elems ty
  | .struct fields, ty =>
    isUnknownType ty || match ty.expanded with
      | .tuple ts => fieldsCompatible wire fields ts
      | ty => rawCompatible (fields.map Prod.snd) ty

/-- One shape per element of the tuple type, each compatible with it. -/
def tupleCompatible (wire : Wire) : List Shape → List ChType → Bool
  | [], [] => true
  | shape :: shapes, ty :: tys => compatible wire shape ty && tupleCompatible wire shapes tys
  | _, _ => false

def fieldsCompatible (wire : Wire) : List (String × Shape) → List ChType → Bool
  | [], [] => true
  | (_, shape) :: shapes, ty :: tys =>
    compatible wire shape ty && fieldsCompatible wire shapes tys
  | _, _ => false

end

/-! ## The first-record check -/

def utf8 (s : String) : Bytes := s.toUTF8.data.toList

/-- A column: its name, the type's raw text and what that parses to. -/
structure Column where
  name : String
  ty : ChType
  typeName : String
  parsed : ty = parse typeName
  nameSized : (utf8 name).length < 2 ^ 64
  typeSized : (utf8 typeName).length < 2 ^ 64

structure RowSchema where
  wire : Wire
  table : String
  columns : List Column
  sized : columns.length < 2 ^ 64

mutual

def shapeDesc : Shape → String
  | .scalar .bool => "bool"
  | .scalar .i8 => "i8"
  | .scalar .i16 => "i16"
  | .scalar .i32 => "i32"
  | .scalar .i64 => "i64"
  | .scalar .i128 => "i128"
  | .scalar .u8 => "u8"
  | .scalar .u16 => "u16"
  | .scalar .u32 => "u32"
  | .scalar .u64 => "u64"
  | .scalar .u128 => "u128"
  | .scalar .f32 => "f32"
  | .scalar .f64 => "f64"
  | .str => "String"
  | .bytes => "bytes"
  | .option inner => "Option<" ++ shapeDesc inner ++ ">"
  | .seq inner => "Vec<" ++ shapeDesc inner ++ ">"
  | .map key val => "Map<" ++ shapeDesc key ++ ", " ++ shapeDesc val ++ ">"
  | .tuple elems => "(" ++ ", ".intercalate (shapeDescs elems) ++ ")"
  | .struct fields => "struct \x7b " ++ ", ".intercalate (fields.map Prod.fst) ++ " \x7d"
  | .newtype name _ => name
  | .unknown => "_"

def shapeDescs : List Shape → List String
  | [] => []
  | shape :: shapes => shapeDesc shape :: shapeDescs shapes

end

/-- What is wrong position by position, from position `i` on; positions one side lacks are
not compared. -/
def positionFindings (wire : Wire) (i : Nat) : List (String × Shape) → List Column → List String
  | (name, shape) :: fields, col :: columns =>
    let rest := positionFindings wire (i + 1) fields columns
    if name ≠ col.name then
      ("position " ++ toString i ++ ": struct field `" ++ name ++ "` vs declared column `" ++
        col.name ++ "`") :: rest
    else if ¬ compatible wire shape col.ty then
      ("position " ++ toString i ++ ": struct field `" ++ name ++ "` (" ++ shapeDesc shape ++
        ") is not compatible with `" ++ col.name ++ "` " ++ col.typeName) :: rest
    else rest
  | _, _ => []

def findings (schema : RowSchema) (fields : List (String × Shape)) : List String :=
  (if fields.length ≠ schema.columns.length then
    ["row struct serialized " ++ toString fields.length ++ " field(s) but " ++
      toString schema.columns.length ++ " column(s) are declared " ++
      "(a #[serde(skip)] attribute shortens rows silently)"]
  else []) ++ positionFindings schema.wire 0 fields schema.columns

def checkFirstRecord (schema : RowSchema) (fields : List (String × Shape)) :
    Except String Unit :=
  match findings schema fields with
  | [] => .ok ()
  | found => .error
      ("row struct does not match declared columns for " ++ schema.table ++ ":\n" ++
        String.join (found.map fun finding => "  - " ++ finding ++ "\n") ++
        "  struct fields (declaration order): " ++ ", ".intercalate (fields.map Prod.fst) ++ "\n" ++
        "  declared columns:                  " ++
        ", ".intercalate (schema.columns.map Column.name))

/-- What `ClickHouseEncoder::encode` asks of its first record; the error is fatal. -/
def ClickHouseEncoder.checkFirst (expected : RowSchema) (row : Value) : Except String Unit :=
  match probeRow row with
  | .error error => .error ("schema validation could not probe the row struct: " ++ error.text)
  | .ok fields => checkFirstRecord expected fields

/-- What `NativeEncoder::encode` asks of its first record: a row that cannot be probed is not
checked. The error is fatal. -/
def NativeEncoder.checkFirst (expected : RowSchema) (row : Value) : Except String Unit :=
  match probeRow row with
  | .error _ => .ok ()
  | .ok fields => (checkFirstRecord expected fields).mapError ("native encoding failed: " ++ ·)

/-- The field carries the column's name and a shape its type takes. -/
def Answers (wire : Wire) (field : String × Shape) (col : Column) : Prop :=
  field.1 = col.name ∧ compatible wire field.2 col.ty = true

theorem positionFindings_nil {wire : Wire} {i : Nat} {fields : List (String × Shape)}
    {columns : List Column} (counts : fields.length = columns.length) :
    positionFindings wire i fields columns = [] ↔
      List.Forall₂ (Answers wire) fields columns := by
  induction fields generalizing i columns with
  | nil =>
    cases columns with
    | nil => simp [positionFindings]
    | cons col columns => simp at counts
  | cons field fields ih =>
    cases columns with
    | nil => simp at counts
    | cons col columns =>
      have rest := ih (i := i + 1) (Nat.succ.inj counts)
      by_cases name : field.1 = col.name
      · by_cases fits : compatible wire field.2 col.ty = true
        · simp [positionFindings, Answers, name, fits, rest]
        · simp [positionFindings, Answers, name, fits]
      · simp [positionFindings, Answers, name]

/-- The check passes exactly the structs that answer to the columns, field by field. -/
theorem checkFirstRecord_ok {schema : RowSchema} {fields : List (String × Shape)} :
    checkFirstRecord schema fields = .ok () ↔
      List.Forall₂ (Answers schema.wire) fields schema.columns := by
  have empty : checkFirstRecord schema fields = .ok () ↔ findings schema fields = [] := by
    unfold checkFirstRecord
    split
    · rename_i none
      simp [none]
    · rename_i found
      simpa using found
  rw [empty, findings, List.append_eq_nil_iff]
  constructor
  · rintro ⟨counts, positions⟩
    have same : fields.length = schema.columns.length := by
      by_contra differ
      simp [differ] at counts
    exact (positionFindings_nil same).mp positions
  · intro answers
    have same := answers.length_eq
    exact ⟨by simp [same], (positionFindings_nil same).mpr answers⟩

end Spate.ClickHouse
