import Spate.ClickHouseRecords
import Spate.RowBinary

set_option autoImplicit false

/- Newtypes the crate does not register: which of them the schema check sees, and that
neither serializer sees any. -/
namespace Spate.Serde.Value

open Spate.ClickHouse (registered)

mutual

/-- The value without its unregistered newtypes. What a registered wrapper holds is the
wrapper's own. -/
def bare : Value → Value
  | .some value => .some value.bare
  | .newtypeStruct name value =>
    if registered name then .newtypeStruct name value else value.bare
  | .newtypeVariant index value => .newtypeVariant index value.bare
  | .seq len elems => .seq len (bareElems elems)
  | .tuple elems => .tuple (bareElems elems)
  | .tupleStruct elems => .tupleStruct (bareElems elems)
  | .map len entries => .map len (bareEntries entries)
  | .struct declared fields => .struct declared (bareFields fields)
  | value => value

def bareElems : List Value → List Value
  | [] => []
  | elem :: rest => elem.bare :: bareElems rest

def bareEntries : List (Value × Value) → List (Value × Value)
  | [] => []
  | (key, val) :: rest => (key.bare, val.bare) :: bareEntries rest

def bareFields : List (String × Value) → List (String × Value)
  | [] => []
  | (name, field) :: rest => (name, field.bare) :: bareFields rest

end

end Spate.Serde.Value

namespace Spate.ClickHouse

open Serde (Value)
open Serde.Value (bare bareElems bareEntries bareFields)

/-! ## The bytes -/

namespace RowBinary

mutual

theorem serialize_bare (ser : RowBinarySer) : ∀ value : Value,
    serialize ser value.bare = serialize ser value
  | .some value => by simp only [bare, serialize, serialize_bare]
  | .newtypeStruct name value => by
    cases kept : registered name <;>
      simp only [bare, kept, Bool.false_eq_true, if_true, if_false, serialize, serialize_bare]
  | .newtypeVariant index value => by simp only [bare, serialize, serialize_bare]
  | .seq none elems => rfl
  | .seq (some len) elems => serializeElems_bare _ elems
  | .tuple elems | .tupleStruct elems => serializeElems_bare _ elems
  | .map none entries => rfl
  | .map (some len) entries => serializeEntries_bare _ entries
  | .struct declared fields => by simp only [bare, serialize, serializeFields_bare]
  | .scalar _ | .char _ | .str _ | .bytes _ | .none | .unit | .unitStruct | .unitVariant
  | .tupleVariant | .structVariant | .custom _ => rfl

theorem serializeElems_bare (ser : RowBinarySer) : ∀ elems : List Value,
    serializeElems ser (bareElems elems) = serializeElems ser elems
  | [] => rfl
  | elem :: rest => by
    simp only [bareElems, serializeElems, serialize_bare]
    split
    · rfl
    · exact serializeElems_bare _ rest

theorem serializeEntries_bare (ser : RowBinarySer) : ∀ entries : List (Value × Value),
    serializeEntries ser (bareEntries entries) = serializeEntries ser entries
  | [] => rfl
  | (key, val) :: rest => by
    simp only [bareEntries, serializeEntries, serialize_bare]
    split
    · rfl
    · split
      · rfl
      · exact serializeEntries_bare _ rest

theorem serializeFields_bare (ser : RowBinarySer) : ∀ fields : List (String × Value),
    serializeFields ser (bareFields fields) = serializeFields ser fields
  | [] => rfl
  | (name, field) :: rest => by
    simp only [bareFields, serializeFields, serialize_bare]
    split
    · rfl
    · exact serializeFields_bare _ rest

end

end RowBinary

mutual

theorem byteSink_bare : ∀ value : Value, byteSink value.bare = byteSink value
  | .newtypeStruct name value => by
    cases kept : registered name <;>
      simp only [bare, kept, Bool.false_eq_true, if_true, if_false, byteSink, byteSink_bare]
  | .seq len elems | .tuple elems | .tupleStruct elems => byteSinks_bare elems
  | .some _ | .newtypeVariant _ _ | .map _ _ | .struct _ _ | .scalar _ | .char _ | .str _
  | .bytes _ | .none | .unit | .unitStruct | .unitVariant | .tupleVariant | .structVariant
  | .custom _ => rfl

theorem byteSinks_bare : ∀ elems : List Value, byteSinks (bareElems elems) = byteSinks elems
  | [] => rfl
  | elem :: rest => by simp only [bareElems, byteSinks, byteSink_bare, byteSinks_bare]

end

theorem appendWith_bare (w : ColumnWriter) (value : Value)
    {serialize serialize' : ColumnWriter → Outcome ColumnWriter}
    (same : ∀ w, serialize' w = serialize w) :
    appendWith w value.bare serialize' = appendWith w value serialize := by
  obtain rfl : serialize' = serialize := funext same
  simp only [appendWith, byteSink_bare]

mutual

theorem serialize_bare (w : ColumnWriter) : ∀ value : Value,
    serialize w value.bare = serialize w value
  | .some value => by
    cases w with
    | nullable nullmap inner =>
      simp only [bare, serialize, appendWith_bare inner value fun w => serialize_bare w value]
    | lowCard lc => exact serialize_bare (.lowCard lc) value
    | _ => rfl
  | .newtypeStruct name value => by
    cases kept : registered name <;>
      simp only [bare, kept, Bool.false_eq_true, if_true, if_false, serialize, serialize_bare]
  | .seq len elems => by
    cases w <;> simp only [bare, serialize, serializeElems_bare]
  | .tuple elems | .tupleStruct elems => by
    cases w <;> simp only [bare, serialize, serializeFields_bare]
  | .map len entries => by
    cases w <;> simp only [bare, serialize, serializeEntries_bare]
  | .struct declared fields => by
    cases w <;> simp only [bare, serialize, serializeNamed_bare]
  | .newtypeVariant _ _ | .scalar _ | .char _ | .str _ | .bytes _ | .none | .unit | .unitStruct
  | .unitVariant | .tupleVariant | .structVariant | .custom _ => rfl

theorem serializeElems_bare (w : ColumnWriter) : ∀ elems : List Value,
    serializeElems w (bareElems elems) = serializeElems w elems
  | [] => rfl
  | elem :: rest => by
    simp only [bareElems, serializeElems,
      appendWith_bare w elem fun w => serialize_bare w elem, serializeElems_bare _ rest]

theorem serializeFields_bare : ∀ (ws : List ColumnWriter) (elems : List Value),
    serializeFields ws (bareElems elems) = serializeFields ws elems
  | [], [] | _ :: _, [] | [], _ :: _ => rfl
  | w :: ws, elem :: rest => by
    simp only [bareElems, serializeFields,
      appendWith_bare w elem fun w => serialize_bare w elem, serializeFields_bare ws rest]

theorem serializeNamed_bare : ∀ (ws : List ColumnWriter) (fields : List (String × Value)),
    serializeNamed ws (bareFields fields) = serializeNamed ws fields
  | [], [] | _ :: _, [] | [], _ :: _ => rfl
  | w :: ws, (name, field) :: rest => by
    simp only [bareFields, serializeNamed,
      appendWith_bare w field fun w => serialize_bare w field, serializeNamed_bare ws rest]

theorem serializeEntries_bare (key val : ColumnWriter) : ∀ entries : List (Value × Value),
    serializeEntries key val (bareEntries entries) = serializeEntries key val entries
  | [] => rfl
  | (k, v) :: rest => by
    simp only [bareEntries, serializeEntries,
      appendWith_bare key k fun w => serialize_bare w k,
      appendWith_bare val v fun w => serialize_bare w v, serializeEntries_bare _ _ rest]

end

theorem rowFields_bare (total : Nat) : ∀ (done : Nat) (ws : List ColumnWriter)
    (fields : List Value), rowFields total done ws (bareElems fields) =
      rowFields total done ws fields
  | _, [], [] | _, _ :: _, [] | _, [], _ :: _ => rfl
  | done, w :: ws, field :: rest => by
    simp only [bareElems, rowFields, ColumnWriter.append,
      appendWith_bare w field fun w => serialize_bare w field, rowFields_bare total _ ws rest]

theorem bareFields_values : ∀ fields : List (String × Value),
    (bareFields fields).map Prod.snd = bareElems (fields.map Prod.snd)
  | [] => rfl
  | (_, field) :: rest => congrArg (field.bare :: ·) (bareFields_values rest)

theorem dispatchRow_bare (columns : List ColumnWriter) : ∀ row : Value,
    dispatchRow columns row.bare = dispatchRow columns row
  | .struct declared fields => by
    simp only [bare, dispatchRow, bareFields_values, rowFields_bare]
  | .tuple elems | .tupleStruct elems | .seq len elems => rowFields_bare _ _ columns elems
  | .newtypeStruct name value => by
    cases kept : registered name <;>
      simp only [bare, kept, Bool.false_eq_true, if_true, if_false, dispatchRow, dispatchRow_bare]
  | .some _ | .newtypeVariant _ _ | .map _ _ | .scalar _ | .char _ | .str _ | .bytes _ | .none
  | .unit | .unitStruct | .unitVariant | .tupleVariant | .structVariant | .custom _ => rfl

/-! ## The shapes -/

namespace Shape

mutual

/-- The shape without its unregistered newtypes. -/
def bare : Shape → Shape
  | .option inner => .option inner.bare
  | .seq inner => .seq inner.bare
  | .map key val => .map key.bare val.bare
  | .tuple elems => .tuple (bares elems)
  | .struct fields => .struct (bareFields fields)
  | .newtype name inner => if registered name then .newtype name inner else inner.bare
  | shape => shape

def bares : List Shape → List Shape
  | [] => []
  | elem :: rest => elem.bare :: bares rest

def bareFields : List (String × Shape) → List (String × Shape)
  | [] => []
  | (name, shape) :: rest => (name, shape.bare) :: bareFields rest

end

def isOption : Shape → Bool
  | .option _ => true
  | _ => false

/-- If the elements without their newtypes feed a fixed-width column, none has one. -/
def RawClear (elems : List Shape) : Prop :=
  ∀ ty, rawCompatible (bares elems) ty = true → bares elems = elems

mutual

/-- No unregistered newtype holds an option, nor stands for an element of a tuple that feeds
a fixed-width column. -/
def Clear : Shape → Prop
  | .option inner => inner.Clear
  | .seq inner => inner.Clear
  | .map key val => key.Clear ∧ val.Clear
  | .tuple elems => AllClear elems ∧ RawClear elems
  | .struct fields => FieldsClear fields ∧ RawClear (fields.map Prod.snd)
  | .newtype name inner => registered name = true ∨ (inner.bare.isOption = false ∧ inner.Clear)
  | _ => True

def AllClear : List Shape → Prop
  | [] => True
  | elem :: rest => elem.Clear ∧ AllClear rest

def FieldsClear : List (String × Shape) → Prop
  | [] => True
  | (_, shape) :: rest => shape.Clear ∧ FieldsClear rest

end

theorem bares_fields : ∀ fields : List (String × Shape),
    (bareFields fields).map Prod.snd = bares (fields.map Prod.snd)
  | [] => rfl
  | (_, shape) :: rest => congrArg (shape.bare :: ·) (bares_fields rest)

theorem bares_scalars : ∀ {elems : List Shape},
    (∀ elem ∈ elems, ∃ kind, elem = .scalar kind) → bares elems = elems
  | [], _ => rfl
  | elem :: rest, scalars => by
    obtain ⟨kind, rfl⟩ := scalars elem List.mem_cons_self
    exact congrArg (Shape.scalar kind :: ·)
      (bares_scalars fun other member => scalars other (List.mem_cons_of_mem _ member))

theorem rawClear_iff {elems : List Shape} : RawClear elems ↔
    ∀ ty, rawCompatible (bares elems) ty = rawCompatible elems ty := by
  constructor
  · intro clear ty
    rw [Bool.eq_iff_iff]
    refine ⟨fun raw => clear ty raw ▸ raw, fun raw => ?_⟩
    rwa [bares_scalars (rawCompatible_scalars raw)]
  · intro same ty raw
    exact bares_scalars (rawCompatible_scalars ((same ty).symm.trans raw))

theorem isOption_of_bare : ∀ {shape : Shape}, shape.bare.isOption = false → shape.isOption = false
  | .scalar _, _ | .str, _ | .bytes, _ | .seq _, _ | .map _ _, _ | .tuple _, _ | .struct _, _
  | .newtype _ _, _ | .unknown, _ => rfl

/-- Stripping a clear shape makes no option of it. -/
theorem Clear.isOption_bare : ∀ {shape : Shape}, shape.Clear → shape.isOption = false →
    shape.bare.isOption = false
  | .newtype name inner, clear, _ => by
    unfold bare
    split
    · rfl
    · exact (clear.resolve_left ‹_›).1
  | .scalar _, _, _ | .str, _, _ | .bytes, _, _ | .seq _, _, _ | .map _ _, _, _
  | .tuple _, _, _ | .struct _, _, _ | .unknown, _, _ => rfl

end Shape

open Shape (bares RawClear AllClear FieldsClear)

variable {wire : Wire} {shape : Shape} {name : String}

theorem takes_unknownType {ty : ChType} (unknown : isUnknownType ty.transparent = true)
    (plain : shape.isOption = false) : compatible wire shape ty = true := by
  refine compatible_unknownType unknown fun inner => ?_
  rintro rfl
  cases plain

/-- Only an option is compatible with a `Nullable` type. -/
theorem compatible_nullable {ty t : ChType} (plain : shape.isOption = false)
    (nullable : ty.transparent = .nullable t) : compatible wire shape ty = false := by
  unfold compatible
  rw [nullable]
  cases shape with
  | option inner => cases plain
  | _ => rfl

/-- An unregistered newtype of anything but an option is transparent. -/
theorem compatible_wrapped (unregistered : registered name = false)
    (plain : shape.isOption = false) (ty : ChType) :
    compatible wire (.newtype name shape) ty = compatible wire shape ty := by
  cases known : isUnknownType ty.transparent with
  | true => rw [takes_unknownType known rfl, takes_unknownType known plain]
  | false =>
    by_cases filled : ∀ t, ty.transparent ≠ .nullable t
    · exact compatible_newtype known unregistered filled
    · push Not at filled
      obtain ⟨t, nullable⟩ := filled
      rw [compatible_nullable rfl nullable, compatible_nullable plain nullable]

theorem fieldsCompatible_shapes : ∀ (fields : List (String × Shape)) (tys : List ChType),
    fieldsCompatible wire fields tys = tupleCompatible wire (fields.map Prod.snd) tys
  | [], [] | [], _ :: _ | _ :: _, [] => rfl
  | (_, shape) :: rest, ty :: tys =>
    congrArg (compatible wire shape ty && ·) (fieldsCompatible_shapes rest tys)

/-- A struct is judged as the tuple of its fields. -/
theorem compatible_fields (fields : List (String × Shape)) (ty : ChType) :
    compatible wire (.struct fields) ty = compatible wire (.tuple (fields.map Prod.snd)) ty := by
  cases known : isUnknownType ty.transparent with
  | true => rw [takes_unknownType known rfl, takes_unknownType known rfl]
  | false =>
    rw [compatible_struct known, compatible_tuple known]
    simp only [fieldsCompatible_shapes]

/-! ### Shapes the matrix cannot tell apart -/

/-- A type that takes the shape. -/
def taking : Shape → ChType
  | .option inner => .nullable (taking inner)
  | _ => .other ""

theorem compatible_taking : ∀ shape : Shape, compatible wire shape (taking shape) = true
  | .option inner => by
    unfold taking compatible
    exact compatible_taking inner
  | .scalar _ | .str | .bytes | .seq _ | .map _ _ | .tuple _ | .struct _ | .newtype _ _
  | .unknown => takes_unknownType rfl rfl

theorem tupleCompatible_taking : ∀ elems : List Shape,
    tupleCompatible wire elems (elems.map taking) = true
  | [] => rfl
  | elem :: rest => Bool.and_eq_true_iff.mpr ⟨compatible_taking elem, tupleCompatible_taking rest⟩

/-- Two tests that pass together pass alike, if each can pass. -/
theorem alike_and {α β : Type} {p p' : α → Bool} {q q' : β → Bool} {x : α} {y : β}
    (first : p x = true) (second : q y = true) :
    (∀ x y, (p' x && q' y) = (p x && q y)) ↔ (∀ x, p' x = p x) ∧ ∀ y, q' y = q y := by
  refine ⟨fun both => ?_, fun ⟨left, right⟩ x y => by rw [left, right]⟩
  have passes := both x y
  rw [first, second, Bool.and_true, Bool.and_eq_true] at passes
  constructor
  · intro other
    have := both other y
    rwa [passes.2, second, Bool.and_true, Bool.and_true] at this
  · intro other
    have := both x other
    rwa [passes.1, first, Bool.true_and, Bool.true_and] at this

theorem alike_option {inner inner' : Shape} :
    (∀ ty, compatible wire (.option inner') ty = compatible wire (.option inner) ty) ↔
      ∀ t, compatible wire inner' t = compatible wire inner t := by
  refine ⟨fun same t => ?_, fun same ty => ?_⟩
  · have := same (.nullable t)
    unfold compatible at this
    exact this
  · unfold compatible
    cases ty.transparent with
    | nullable t => exact same t
    | _ => rfl

theorem alike_seq {inner inner' : Shape} :
    (∀ ty, compatible wire (.seq inner') ty = compatible wire (.seq inner) ty) ↔
      ∀ t, compatible wire inner' t = compatible wire inner t := by
  refine ⟨fun same t => ?_, fun same ty => ?_⟩
  · have := same (.array t)
    rwa [compatible_seq rfl, compatible_seq rfl] at this
  · cases known : isUnknownType ty.transparent with
    | true => rw [takes_unknownType known rfl, takes_unknownType known rfl]
    | false =>
      rw [compatible_seq known, compatible_seq known]
      simp only [same]

theorem alike_map {key key' val val' : Shape} :
    (∀ ty, compatible wire (.map key' val') ty = compatible wire (.map key val) ty) ↔
      (∀ t, compatible wire key' t = compatible wire key t) ∧
        ∀ t, compatible wire val' t = compatible wire val t := by
  rw [← alike_and (compatible_taking key) (compatible_taking val)]
  refine ⟨fun same kt vt => ?_, fun same ty => ?_⟩
  · have := same (.map kt vt)
    rwa [compatible_map rfl, compatible_map rfl] at this
  · cases known : isUnknownType ty.transparent with
    | true => rw [takes_unknownType known rfl, takes_unknownType known rfl]
    | false =>
      rw [compatible_map known, compatible_map known]
      simp only [same]

/-- The columns that take a tuple other than element by element. -/
theorem raw_columns {elems : List Shape} {ty : ChType} (raw : rawCompatible elems ty = true) :
    isUnknownType ty.transparent = false ∧ ty.transparent.expanded = ty ∧ ∀ ts, ty ≠ .tuple ts := by
  unfold rawCompatible at raw
  split at raw
  · exact ⟨rfl, rfl, by simp⟩
  · split at raw
    all_goals first | exact ⟨by decide, rfl, by simp⟩ | cases raw
  · cases raw

theorem rawCompatible_of_tuple {elems others : List Shape} {ty : ChType}
    (raw : rawCompatible elems ty = true)
    (same : compatible wire (.tuple others) ty = compatible wire (.tuple elems) ty) :
    rawCompatible others ty = true := by
  obtain ⟨known, expanded, noTuple⟩ := raw_columns raw
  rw [compatible_tuple known, compatible_tuple known, expanded] at same
  cases ty with
  | tuple ts => exact absurd rfl (noTuple ts)
  | _ => exact same.trans raw

theorem alike_tuple {elems elems' : List Shape} :
    (∀ ty, compatible wire (.tuple elems') ty = compatible wire (.tuple elems) ty) ↔
      (∀ ts, tupleCompatible wire elems' ts = tupleCompatible wire elems ts) ∧
        ∀ ty, rawCompatible elems' ty = rawCompatible elems ty := by
  refine ⟨fun same => ⟨fun ts => ?_, fun ty => ?_⟩, fun ⟨each, raw⟩ ty => ?_⟩
  · have := same (.tuple ts)
    rwa [compatible_tuple rfl, compatible_tuple rfl] at this
  · rw [Bool.eq_iff_iff]
    exact ⟨fun raw => rawCompatible_of_tuple raw (same ty).symm,
      fun raw => rawCompatible_of_tuple raw (same ty)⟩
  · cases known : isUnknownType ty.transparent with
    | true => rw [takes_unknownType known rfl, takes_unknownType known rfl]
    | false =>
      rw [compatible_tuple known, compatible_tuple known]
      simp only [each, raw]

theorem alike_cons {elem elem' : Shape} {rest rest' : List Shape} :
    (∀ tys, tupleCompatible wire (elem' :: rest') tys = tupleCompatible wire (elem :: rest) tys) ↔
      (∀ t, compatible wire elem' t = compatible wire elem t) ∧
        ∀ tys, tupleCompatible wire rest' tys = tupleCompatible wire rest tys := by
  rw [← alike_and (compatible_taking elem) (tupleCompatible_taking rest)]
  refine ⟨fun same ty tys => same (ty :: tys), fun same tys => ?_⟩
  cases tys with
  | nil => rfl
  | cons ty tys => exact same ty tys

mutual

/-- The matrix cannot tell a shape from what it is without newtypes exactly if it is clear. -/
theorem alike_bare : ∀ {shape : Shape},
    (∀ ty, compatible wire shape.bare ty = compatible wire shape ty) ↔ shape.Clear
  | .option inner => alike_option.trans alike_bare
  | .seq inner => alike_seq.trans alike_bare
  | .map key val => alike_map.trans (and_congr alike_bare alike_bare)
  | .tuple elems => alike_tuple.trans (and_congr alike_bares Shape.rawClear_iff.symm)
  | .struct fields => by
    simp only [Shape.bare, compatible_fields, Shape.bares_fields]
    exact alike_tuple.trans (and_congr alike_fields Shape.rawClear_iff.symm)
  | .newtype name inner => by
    cases kept : registered name with
    | true => simp [Shape.bare, Shape.Clear, kept]
    | false =>
      simp only [Shape.bare, Shape.Clear, kept, Bool.false_eq_true, if_false, false_or]
      have wrapped (plain : inner.bare.isOption = false) (ty : ChType) :
          compatible wire (.newtype name inner) ty = compatible wire inner ty :=
        compatible_wrapped kept (Shape.isOption_of_bare plain) ty
      refine ⟨fun same => ?_, fun ⟨plain, clear⟩ ty => ?_⟩
      · have taken : compatible wire inner.bare (.other "") = true :=
          (same (.other "")).trans (takes_unknownType rfl rfl)
        have plain : inner.bare.isOption = false := by
          cases stripped : inner.bare with
          | option deeper => rw [stripped] at taken; cases taken
          | _ => rfl
        exact ⟨plain, alike_bare.mp fun ty => (same ty).trans (wrapped plain ty)⟩
      · rw [wrapped plain, alike_bare.mpr clear]
  | .scalar _ | .str | .bytes | .unknown => ⟨fun _ => trivial, fun _ _ => rfl⟩

theorem alike_bares : ∀ {elems : List Shape},
    (∀ tys, tupleCompatible wire (bares elems) tys = tupleCompatible wire elems tys) ↔
      AllClear elems
  | [] => ⟨fun _ => trivial, fun _ _ => rfl⟩
  | _ :: _ => alike_cons.trans (and_congr alike_bare alike_bares)

theorem alike_fields : ∀ {fields : List (String × Shape)},
    (∀ tys, tupleCompatible wire (bares (fields.map Prod.snd)) tys =
      tupleCompatible wire (fields.map Prod.snd) tys) ↔ FieldsClear fields
  | [] => ⟨fun _ => trivial, fun _ _ => rfl⟩
  | (_, _) :: _ => alike_cons.trans (and_congr alike_bare alike_fields)

end

/-! ## The records -/

theorem bind_ok {ε α β : Type} {first : Except ε α} {next : α → Except ε β} {result : β}
    (done : first >>= next = .ok result) :
    ∃ middle, first = .ok middle ∧ next middle = .ok result := by
  cases first with
  | error e => cases done
  | ok middle => exact ⟨middle, rfl, done⟩

mutual

/-- A record that shows a clear shape shows, without its newtypes, that shape without its. -/
theorem shapeOf_bare : ∀ {value : Value} {shape : Shape}, shapeOf value = .ok shape →
    shape.Clear → shapeOf value.bare = .ok shape.bare
  | .some value, shape, shown, clear => by
    obtain ⟨inner, probed, shown⟩ := bind_ok shown
    split at shown
    · cases shown
    · rename_i plain
      cases shown
      have clear : inner.Clear := clear
      have held : inner.isOption = false := by
        cases inner with
        | option deeper => exact absurd rfl (plain deeper)
        | _ => rfl
      have stripped := clear.isOption_bare held
      simp only [bare, shapeOf, bind, Except.bind, shapeOf_bare probed clear]
      cases without : inner.bare with
      | option deeper => rw [without] at stripped; cases stripped
      | _ => simp only [Shape.bare, without]
  | .newtypeStruct name value, shape, shown, clear => by
    obtain ⟨inner, probed, shown⟩ := bind_ok shown
    cases shown
    unfold bare Shape.bare
    cases kept : registered name with
    | false => exact shapeOf_bare probed (clear.resolve_left (by simp [kept])).2
    | true => simp only [if_true, shapeOf, probed, bind, Except.bind]
  | .seq (some len) elems, shape, shown, clear => by
    obtain ⟨inner, probed, shown⟩ := bind_ok shown
    cases shown
    have clear : inner.Clear := clear
    cases elems with
    | nil =>
      cases probed
      rfl
    | cons elem rest =>
      simp only [bare, bareElems, shapeOf, firstShape, bind, Except.bind, Shape.bare,
        shapeOf_bare probed clear]
  | .tuple elems, shape, shown, clear | .tupleStruct elems, shape, shown, clear => by
    obtain ⟨shapes, probed, shown⟩ := bind_ok shown
    cases shown
    simp only [bare, shapeOf, bind, Except.bind, Shape.bare, shapesOf_bare probed clear.1]
  | .map (some len) entries, shape, shown, clear => by
    obtain ⟨⟨key, val⟩, probed, shown⟩ := bind_ok shown
    cases shown
    cases entries with
    | nil =>
      cases probed
      rfl
    | cons entry rest =>
      obtain ⟨k, probedKey, probed⟩ := bind_ok probed
      obtain ⟨v, probedVal, probed⟩ := bind_ok probed
      cases probed
      simp only [bare, bareEntries, shapeOf, firstEntryShape, bind, Except.bind, Shape.bare,
        shapeOf_bare probedKey clear.1, shapeOf_bare probedVal clear.2]
  | .struct declared fields, shape, shown, clear => by
    obtain ⟨shapes, probed, shown⟩ := bind_ok shown
    cases shown
    simp only [bare, shapeOf, bind, Except.bind, Shape.bare, fieldShapes_bare probed clear.1]
  | .newtypeVariant _ _, _, shown, _ | .scalar _, _, shown, _ | .str _, _, shown, _
  | .bytes _, _, shown, _ | .none, _, shown, _ => by
    cases shown
    rfl

theorem shapesOf_bare : ∀ {elems : List Value} {shapes : List Shape},
    shapesOf elems = .ok shapes → AllClear shapes → shapesOf (bareElems elems) = .ok (bares shapes)
  | [], _, shown, _ => by
    cases shown
    rfl
  | elem :: rest, _, shown, clear => by
    obtain ⟨shape, probed, shown⟩ := bind_ok shown
    obtain ⟨shapes, others, shown⟩ := bind_ok shown
    cases shown
    simp only [bareElems, shapesOf, bind, Except.bind, bares, shapeOf_bare probed clear.1,
      shapesOf_bare others clear.2]

theorem fieldShapes_bare : ∀ {fields : List (String × Value)} {shapes : List (String × Shape)},
    fieldShapes fields = .ok shapes → FieldsClear shapes →
      fieldShapes (bareFields fields) = .ok (Shape.bareFields shapes)
  | [], _, shown, _ => by
    cases shown
    rfl
  | (name, field) :: rest, _, shown, clear => by
    obtain ⟨shape, probed, shown⟩ := bind_ok shown
    obtain ⟨shapes, others, shown⟩ := bind_ok shown
    cases shown
    simp only [bareFields, fieldShapes, bind, Except.bind, Shape.bareFields,
      shapeOf_bare probed clear.1, fieldShapes_bare others clear.2]

end

mutual

/-- What can be probed without its newtypes can be probed with them, and is an option only if
it is one without. -/
theorem shapeOf_of_bare : ∀ {value : Value} {without : Shape}, shapeOf value.bare = .ok without →
    ∃ shape, shapeOf value = .ok shape ∧ (shape.isOption = true → without.isOption = true)
  | .some value, _, shown => by
    obtain ⟨inner, probed, shown⟩ := bind_ok shown
    obtain ⟨held, probes, option⟩ := shapeOf_of_bare probed
    refine ⟨.option held, ?_, fun _ => ?_⟩
    · simp only [shapeOf, probes, bind, Except.bind]
      cases held with
      | option deeper =>
        cases inner with
        | option _ => cases shown
        | _ => exact absurd (option rfl) Bool.false_ne_true
      | _ => rfl
    · cases inner with
      | option _ => cases shown
      | _ => cases shown; rfl
  | .newtypeStruct name value, without, shown => by
    unfold bare at shown
    cases kept : registered name with
    | true =>
      rw [kept, if_pos rfl] at shown
      exact ⟨without, shown, id⟩
    | false =>
      rw [kept, if_neg Bool.false_ne_true] at shown
      obtain ⟨shape, probes, -⟩ := shapeOf_of_bare shown
      exact ⟨.newtype name shape, by simp only [shapeOf, probes, bind, Except.bind], nofun⟩
  | .seq (some len) elems, _, shown => by
    obtain ⟨inner, probed, -⟩ := bind_ok shown
    cases elems with
    | nil => exact ⟨.seq .unknown, rfl, nofun⟩
    | cons elem rest =>
      obtain ⟨shape, probes, -⟩ := shapeOf_of_bare probed
      exact ⟨.seq shape, by simp only [shapeOf, firstShape, probes, bind, Except.bind], nofun⟩
  | .tuple elems, _, shown | .tupleStruct elems, _, shown => by
    obtain ⟨inner, probed, -⟩ := bind_ok shown
    obtain ⟨shapes, probes⟩ := shapesOf_of_bare probed
    exact ⟨.tuple shapes, by simp only [shapeOf, probes, bind, Except.bind], nofun⟩
  | .map (some len) entries, _, shown => by
    obtain ⟨inner, probed, -⟩ := bind_ok shown
    cases entries with
    | nil => exact ⟨.map .unknown .unknown, rfl, nofun⟩
    | cons entry rest =>
      obtain ⟨_, probedKey, probed⟩ := bind_ok probed
      obtain ⟨_, probedVal, -⟩ := bind_ok probed
      obtain ⟨key, keys, -⟩ := shapeOf_of_bare probedKey
      obtain ⟨val, vals, -⟩ := shapeOf_of_bare probedVal
      exact ⟨.map key val,
        by simp only [shapeOf, firstEntryShape, keys, vals, bind, Except.bind], nofun⟩
  | .struct declared fields, _, shown => by
    obtain ⟨inner, probed, -⟩ := bind_ok shown
    obtain ⟨shapes, probes⟩ := fieldShapes_of_bare probed
    exact ⟨.struct shapes, by simp only [shapeOf, probes, bind, Except.bind], nofun⟩
  | .newtypeVariant _ _, without, shown | .scalar _, without, shown | .str _, without, shown
  | .bytes _, without, shown | .none, without, shown => ⟨without, shown, id⟩

theorem shapesOf_of_bare : ∀ {elems : List Value} {without : List Shape},
    shapesOf (bareElems elems) = .ok without → ∃ shapes, shapesOf elems = .ok shapes
  | [], _, _ => ⟨[], rfl⟩
  | elem :: rest, _, shown => by
    obtain ⟨_, probed, shown⟩ := bind_ok shown
    obtain ⟨_, others, -⟩ := bind_ok shown
    obtain ⟨shape, probes, -⟩ := shapeOf_of_bare probed
    obtain ⟨shapes, each⟩ := shapesOf_of_bare others
    exact ⟨shape :: shapes, by simp only [shapesOf, probes, each, bind, Except.bind]⟩

theorem fieldShapes_of_bare : ∀ {fields : List (String × Value)} {without : List (String × Shape)},
    fieldShapes (bareFields fields) = .ok without → ∃ shapes, fieldShapes fields = .ok shapes
  | [], _, _ => ⟨[], rfl⟩
  | (name, field) :: rest, _, shown => by
    obtain ⟨_, probed, shown⟩ := bind_ok shown
    obtain ⟨_, others, -⟩ := bind_ok shown
    obtain ⟨shape, probes, -⟩ := shapeOf_of_bare probed
    obtain ⟨shapes, each⟩ := fieldShapes_of_bare others
    exact ⟨(name, shape) :: shapes, by simp only [fieldShapes, probes, each, bind, Except.bind]⟩

end

theorem answers_bare : ∀ {fields : List (String × Shape)}, FieldsClear fields →
    ∀ columns : List Column, List.Forall₂ (Answers wire) (Shape.bareFields fields) columns ↔
      List.Forall₂ (Answers wire) fields columns
  | [], _, columns => Iff.rfl
  | (name, shape) :: rest, clear, [] => by simp [Shape.bareFields]
  | (name, shape) :: rest, clear, col :: columns => by
    simp only [Shape.bareFields, List.forall₂_cons, Answers, alike_bare.mpr clear.1,
      answers_bare clear.2 columns]

/-- The row is a struct, and its fields are clear where they can be probed. -/
def RowClear : Value → Prop
  | .struct _ values => ∀ fields, fieldShapes values = .ok fields → FieldsClear fields
  | _ => False

/-- A clear row is probed alike with and without its newtypes, or neither way. -/
theorem RowClear.probed : ∀ {row : Value}, RowClear row →
    (∃ fields, FieldsClear fields ∧ probeRow row = .ok fields ∧
      probeRow row.bare = .ok (Shape.bareFields fields)) ∨
    (∃ error, probeRow row = .error error) ∧ ∃ error, probeRow row.bare = .error error
  | .struct declared values, clear => by
    cases probed : fieldShapes values with
    | ok fields =>
      have stripped := fieldShapes_bare probed (clear fields probed)
      exact .inl ⟨fields, clear fields probed,
        by simp only [probeRow, shapeOf, probed, bind, Except.bind],
        by simp only [probeRow, bare, shapeOf, stripped, bind, Except.bind]⟩
    | error error =>
      cases stripped : fieldShapes (bareFields values) with
      | ok without =>
        obtain ⟨fields, probes⟩ := fieldShapes_of_bare stripped
        rw [probed] at probes
        cases probes
      | error other =>
        exact .inr ⟨⟨error, by simp only [probeRow, shapeOf, probed, bind, Except.bind]⟩,
          other, by simp only [probeRow, bare, shapeOf, stripped, bind, Except.bind]⟩

theorem checkFirst_rowBinary {row : Value} (clear : RowClear row) (expected : RowSchema) :
    ClickHouseEncoder.checkFirst expected row.bare = .ok () ↔
      ClickHouseEncoder.checkFirst expected row = .ok () := by
  unfold ClickHouseEncoder.checkFirst
  rcases clear.probed with ⟨fields, clear, probed, stripped⟩ | ⟨⟨_, probed⟩, _, stripped⟩
  · simp only [probed, stripped, checkFirstRecord_ok, answers_bare clear]
  · simp only [probed, stripped, reduceCtorEq]

theorem mapError_ok {ε ε' : Type} {f : ε → ε'} {result : Except ε Unit} :
    result.mapError f = .ok () ↔ result = .ok () := by
  cases result <;> simp [Except.mapError]

theorem checkFirst_native {row : Value} (clear : RowClear row) (expected : RowSchema) :
    NativeEncoder.checkFirst expected row.bare = .ok () ↔
      NativeEncoder.checkFirst expected row = .ok () := by
  unfold NativeEncoder.checkFirst
  rcases clear.probed with ⟨fields, clear, probed, stripped⟩ | ⟨⟨_, probed⟩, _, stripped⟩
  · simp only [probed, stripped, mapError_ok, checkFirstRecord_ok, answers_bare clear]
  · simp only [probed, stripped]

/-- A row that is a newtype itself cannot be probed, whatever it holds. -/
theorem probeRow_wrapped (name : String) (row : Value) :
    ∃ error, probeRow (.newtypeStruct name row) = .error error := by
  cases shown : shapeOf row with
  | error error => exact ⟨error, by simp only [probeRow, shapeOf, shown, bind, Except.bind]⟩
  | ok shape =>
    exact ⟨.notAStruct "a newtype", by
      simp only [probeRow, shapeOf, shown, bind, Except.bind, kindName]⟩

/-- The class matrix sees through an unregistered newtype exactly if it holds no option, and
through all those of a shape exactly if, besides, none stands for an element of a tuple that
feeds a fixed-width column. A row that is a struct of clear fields is accepted with its
newtypes as without; one that is a newtype itself is refused by RowBinary and not checked by
Native. Neither serializer writes a newtype. -/
theorem newtypes_transparent_iff (name : String) (unregistered : registered name = false)
    (shape : Shape) (row : Value) :
    ((∀ wire ty, compatible wire (.newtype name shape) ty = compatible wire shape ty) ↔
      shape.isOption = false) ∧
    ((∀ wire ty, compatible wire shape.bare ty = compatible wire shape ty) ↔ shape.Clear) ∧
    (RowClear row → ∀ expected,
      (ClickHouseEncoder.checkFirst expected row.bare = .ok () ↔
        ClickHouseEncoder.checkFirst expected row = .ok ()) ∧
      (NativeEncoder.checkFirst expected row.bare = .ok () ↔
        NativeEncoder.checkFirst expected row = .ok ())) ∧
    (∀ expected, ClickHouseEncoder.checkFirst expected (.newtypeStruct name row) ≠ .ok () ∧
      NativeEncoder.checkFirst expected (.newtypeStruct name row) = .ok ()) ∧
    (∀ buf, RowBinary.serializeRow row.bare buf = RowBinary.serializeRow row buf) ∧
    ∀ columns, dispatchRow columns row.bare = dispatchRow columns row := by
  refine ⟨⟨fun same => ?_, fun plain wire => compatible_wrapped unregistered plain⟩,
    ⟨fun same => alike_bare.mp (same .native), fun clear wire => alike_bare.mpr clear⟩,
    fun clear expected => ⟨checkFirst_rowBinary clear expected, checkFirst_native clear expected⟩,
    fun expected => ?_, fun buf => ?_, fun columns => dispatchRow_bare columns row⟩
  · have taken : compatible .native shape (.other "") = true :=
      (same .native (.other "")).symm.trans (takes_unknownType rfl rfl)
    cases shape with
    | option inner => cases taken
    | _ => rfl
  · obtain ⟨error, unprobed⟩ := probeRow_wrapped name row
    simp [ClickHouseEncoder.checkFirst, NativeEncoder.checkFirst, unprobed]
  · rw [RowBinary.serializeRow, RowBinary.serialize_bare]
    rfl

/-- A table of one nullable column. -/
def agesTable (wire : Wire) : RowSchema :=
  ⟨wire, "`ages`", [⟨"age", .nullable (.named "UInt32"), "Nullable(UInt32)", rfl, by decide,
    by decide⟩], by decide⟩

/-- The row of a struct whose field is a user's newtype of a `u32`. -/
def wrappedAge : Value :=
  .struct 1 [("age", .some (.newtypeStruct "Age" (.scalar ⟨.u32, 7, by decide⟩)))]

theorem newtypes_transparent_age :
    registered "Age" = false ∧
    (∀ wire ty, compatible wire (.newtype "Age" (.scalar .u32)) ty =
      compatible wire (.scalar .u32) ty) ∧
    ClickHouseEncoder.checkFirst (agesTable .rowBinary) wrappedAge.bare = .ok () ∧
    ClickHouseEncoder.checkFirst (agesTable .rowBinary) wrappedAge = .ok () ∧
    (NativeEncoder.checkFirst (agesTable .native) wrappedAge.bare = .ok () ↔
      NativeEncoder.checkFirst (agesTable .native) wrappedAge = .ok ()) ∧
    RowBinary.serializeRow wrappedAge.bare [] = RowBinary.serializeRow wrappedAge [] := by
  have unregistered : registered "Age" = false := by decide
  obtain ⟨once, -, rows, -, written, -⟩ :=
    newtypes_transparent_iff "Age" unregistered (.scalar .u32) wrappedAge
  have clear : RowClear wrappedAge := by
    intro fields shown
    cases shown
    exact ⟨.inr ⟨rfl, trivial⟩, trivial⟩
  have accepted : ClickHouseEncoder.checkFirst (agesTable .rowBinary) wrappedAge = .ok () := rfl
  exact ⟨unregistered, once.mpr rfl, (rows clear _).1.mpr accepted, accepted, (rows clear _).2,
    written []⟩

/-- The rows of two structs that hold the same age, in a user's newtype of an option and as
the option; the second also wrapped as a whole. -/
def maybeAge : Value :=
  .struct 1 [("age", .newtypeStruct "Maybe" (.some (.scalar ⟨.u32, 7, by decide⟩)))]

def plainAge : Value := .struct 1 [("age", .some (.scalar ⟨.u32, 7, by decide⟩))]

def wrapperAge : Value := .newtypeStruct "Wrapper" plainAge

/-- A user's newtype of an option is refused where the option is accepted, and RowBinary
refuses a newtype of the whole row, though both serializers write the same bytes. -/
theorem newtyped_option_refused :
    registered "Maybe" = false ∧
    compatible .rowBinary (.option (.scalar .u32)) (.nullable (.named "UInt32")) = true ∧
    compatible .rowBinary (.newtype "Maybe" (.option (.scalar .u32)))
      (.nullable (.named "UInt32")) = false ∧
    compatible .native (.option (.scalar .u32)) (.nullable (.named "UInt32")) = true ∧
    compatible .native (.newtype "Maybe" (.option (.scalar .u32)))
      (.nullable (.named "UInt32")) = false ∧
    (ClickHouseEncoder.checkFirst (agesTable .rowBinary) plainAge).isOk = true ∧
    (ClickHouseEncoder.checkFirst (agesTable .rowBinary) maybeAge).isOk = false ∧
    (NativeEncoder.checkFirst (agesTable .native) plainAge).isOk = true ∧
    (NativeEncoder.checkFirst (agesTable .native) maybeAge).isOk = false ∧
    probeRow wrapperAge = .error (.notAStruct "a newtype") ∧
    (ClickHouseEncoder.checkFirst (agesTable .rowBinary) wrapperAge).isOk = false ∧
    RowBinary.serializeRow plainAge [] = ([0, 7, 0, 0, 0], .ok ()) ∧
    RowBinary.serializeRow maybeAge [] = ([0, 7, 0, 0, 0], .ok ()) ∧
    RowBinary.serializeRow wrapperAge [] = ([0, 7, 0, 0, 0], .ok ()) := by
  refine ⟨?_, ?_, ?_, ?_, ?_, ?_, ?_, ?_, ?_, rfl, ?_, rfl, rfl, rfl⟩
  all_goals decide

end Spate.ClickHouse
