import Spate.ClickHouseSchema

set_option autoImplicit false

/- The records of one row type: the shapes the recording serializer sees in them, and
whether the class matrix accepts them alike. -/
namespace Spate.ClickHouse

open Serde (ScalarKind Value)

mutual

/-- The value is of a type whose records, with every container filled, show this shape. A
length that is announced is the number of elements. -/
def HasShape : Value → Shape → Prop
  | .scalar value, .scalar kind => value.kind = kind
  | .str _, .str => True
  | .bytes _, .bytes => True
  | .none, .option _ => True
  | .some value, .option inner => HasShape value inner ∧ ∀ nested, inner ≠ .option nested
  | .newtypeStruct name value, .newtype named inner => name = named ∧ HasShape value inner
  | .newtypeVariant _ _, .unknown => True
  | .seq len elems, .seq inner =>
    len.map UInt64.toNat = some elems.length ∧ AllHaveShape elems inner
  | .tuple elems, .tuple shapes => HaveShapes elems shapes
  | .tupleStruct elems, .tuple shapes => HaveShapes elems shapes
  | .map len entries, .map key val =>
    len.map UInt64.toNat = some entries.length ∧ EntriesHaveShape entries key val
  | .struct _ fields, .struct shapes => FieldsHaveShapes fields shapes
  | _, _ => False

def AllHaveShape : List Value → Shape → Prop
  | [], _ => True
  | elem :: rest, shape => HasShape elem shape ∧ AllHaveShape rest shape

def EntriesHaveShape : List (Value × Value) → Shape → Shape → Prop
  | [], _, _ => True
  | (key, val) :: rest, k, v => HasShape key k ∧ HasShape val v ∧ EntriesHaveShape rest k v

def HaveShapes : List Value → List Shape → Prop
  | [], [] => True
  | elem :: rest, shape :: shapes => HasShape elem shape ∧ HaveShapes rest shapes
  | _, _ => False

def FieldsHaveShapes : List (String × Value) → List (String × Shape) → Prop
  | [], [] => True
  | (name, field) :: rest, (named, shape) :: shapes =>
    name = named ∧ HasShape field shape ∧ FieldsHaveShapes rest shapes
  | _, _ => False

end

mutual

/-- The second shape is the first with some sub-shapes under an option, a sequence or a map
replaced by `unknown`. -/
def Erased : Shape → Shape → Prop
  | .scalar kind, .scalar kind' => kind = kind'
  | .str, .str => True
  | .bytes, .bytes => True
  | .option inner, .option inner' => inner' = .unknown ∨ Erased inner inner'
  | .seq inner, .seq inner' => inner' = .unknown ∨ Erased inner inner'
  | .map key val, .map key' val' =>
    (key' = .unknown ∨ Erased key key') ∧ (val' = .unknown ∨ Erased val val')
  | .tuple shapes, .tuple shapes' => AllErased shapes shapes'
  | .struct fields, .struct fields' => FieldsErased fields fields'
  | .newtype name inner, .newtype name' inner' => name = name' ∧ Erased inner inner'
  | .unknown, .unknown => True
  | _, _ => False

def AllErased : List Shape → List Shape → Prop
  | [], [] => True
  | shape :: shapes, shape' :: shapes' => Erased shape shape' ∧ AllErased shapes shapes'
  | _, _ => False

def FieldsErased : List (String × Shape) → List (String × Shape) → Prop
  | [], [] => True
  | (name, shape) :: shapes, (name', shape') :: shapes' =>
    name = name' ∧ Erased shape shape' ∧ FieldsErased shapes shapes'
  | _, _ => False

end

mutual

/-- Every record of a row type can be probed, and shows the full shape or one with the
empty containers' parts unknown. -/
theorem shapeOf_erased : ∀ {value : Value} {shape : Shape}, HasShape value shape →
    ∃ shown, shapeOf value = .ok shown ∧ Erased shape shown
  | .scalar _, .scalar _, has => ⟨_, rfl, has.symm⟩
  | .str _, .str, _ => ⟨_, rfl, trivial⟩
  | .bytes _, .bytes, _ => ⟨_, rfl, trivial⟩
  | .none, .option _, _ => ⟨_, rfl, .inl rfl⟩
  | .some value, .option inner, ⟨has, plain⟩ => by
    obtain ⟨shown, probed, erased⟩ := shapeOf_erased has
    refine ⟨.option shown, ?_, .inr erased⟩
    cases shown with
    | option nested =>
      cases inner with
      | option deeper => exact absurd rfl (plain deeper)
      | _ => simp only [Erased] at erased
    | _ => simp only [shapeOf, probed, bind, Except.bind]
  | .newtypeStruct name value, .newtype _ inner, ⟨named, has⟩ => by
    obtain ⟨shown, probed, erased⟩ := shapeOf_erased has
    exact ⟨.newtype name shown, by simp only [shapeOf, probed, bind, Except.bind],
      named.symm, erased⟩
  | .newtypeVariant _ _, .unknown, _ => ⟨_, rfl, trivial⟩
  | .seq len elems, .seq inner, ⟨announced, has⟩ => by
    obtain ⟨n, rfl, -⟩ := Option.map_eq_some_iff.mp announced
    cases elems with
    | nil => exact ⟨_, rfl, .inl rfl⟩
    | cons elem rest =>
      obtain ⟨shown, probed, erased⟩ := shapeOf_erased has.1
      exact ⟨.seq shown, by simp only [shapeOf, firstShape, probed, bind, Except.bind],
        .inr erased⟩
  | .tuple elems, .tuple shapes, has => by
    obtain ⟨shown, probed, erased⟩ := shapesOf_erased has
    exact ⟨.tuple shown, by simp only [shapeOf, probed, bind, Except.bind], erased⟩
  | .tupleStruct elems, .tuple shapes, has => by
    obtain ⟨shown, probed, erased⟩ := shapesOf_erased has
    exact ⟨.tuple shown, by simp only [shapeOf, probed, bind, Except.bind], erased⟩
  | .map len entries, .map key val, ⟨announced, has⟩ => by
    obtain ⟨n, rfl, -⟩ := Option.map_eq_some_iff.mp announced
    cases entries with
    | nil => exact ⟨_, rfl, .inl rfl, .inl rfl⟩
    | cons entry rest =>
      obtain ⟨k, v⟩ := entry
      obtain ⟨shownKey, probedKey, erasedKey⟩ := shapeOf_erased has.1
      obtain ⟨shownVal, probedVal, erasedVal⟩ := shapeOf_erased has.2.1
      exact ⟨.map shownKey shownVal,
        by simp only [shapeOf, firstEntryShape, probedKey, probedVal, bind, Except.bind],
        .inr erasedKey, .inr erasedVal⟩
  | .struct _ fields, .struct shapes, has => by
    obtain ⟨shown, probed, erased⟩ := fieldShapes_erased has
    exact ⟨.struct shown, by simp only [shapeOf, probed, bind, Except.bind], erased⟩

theorem shapesOf_erased : ∀ {elems : List Value} {shapes : List Shape}, HaveShapes elems shapes →
    ∃ shown, shapesOf elems = .ok shown ∧ AllErased shapes shown
  | [], [], _ => ⟨[], rfl, trivial⟩
  | elem :: rest, shape :: shapes, ⟨first, others⟩ => by
    obtain ⟨shown, probed, erased⟩ := shapeOf_erased first
    obtain ⟨showns, probeds, eraseds⟩ := shapesOf_erased others
    exact ⟨shown :: showns, by simp only [shapesOf, probed, probeds, bind, Except.bind],
      erased, eraseds⟩

theorem fieldShapes_erased : ∀ {fields : List (String × Value)} {shapes : List (String × Shape)},
    FieldsHaveShapes fields shapes →
    ∃ shown, fieldShapes fields = .ok shown ∧ FieldsErased shapes shown
  | [], [], _ => ⟨[], rfl, trivial⟩
  | (name, field) :: rest, (_, shape) :: shapes, ⟨named, first, others⟩ => by
    obtain ⟨shown, probed, erased⟩ := shapeOf_erased first
    obtain ⟨showns, probeds, eraseds⟩ := fieldShapes_erased others
    exact ⟨(name, shown) :: showns,
      by simp only [fieldShapes, probed, probeds, bind, Except.bind],
      named.symm, erased, eraseds⟩

end

/-! ## Acceptance and emptied containers -/

/-- The name is one the crate's wire wrappers write. -/
def registered (name : String) : Bool :=
  (decimalWrapper name).isSome || (newtypeRule name).isSome

mutual

/-- Somewhere the shape says `unknown` where the class matrix compares it with a `Nullable`
type. -/
def unknownAtNullable : Shape → ChType → Bool
  | .unknown, ty => (ty.transparent matches .nullable _)
  | .option inner, ty => match ty.transparent with
    | .nullable t => unknownAtNullable inner t
    | _ => false
  | .newtype name inner, ty => !registered name && unknownAtNullable inner ty
  | .seq inner, ty => match ty.transparent.expanded with
    | .array t => unknownAtNullable inner t
    | _ => false
  | .map key val, ty => match ty.transparent.expanded with
    | .map kt vt => unknownAtNullable key kt || unknownAtNullable val vt
    | _ => false
  | .tuple elems, ty => match ty.transparent.expanded with
    | .tuple ts => anyUnknownAtNullable elems ts
    | _ => false
  | .struct fields, ty => match ty.transparent.expanded with
    | .tuple ts => fieldUnknownAtNullable fields ts
    | _ => false
  | _, _ => false

def anyUnknownAtNullable : List Shape → List ChType → Bool
  | shape :: shapes, ty :: tys =>
    unknownAtNullable shape ty || anyUnknownAtNullable shapes tys
  | _, _ => false

def fieldUnknownAtNullable : List (String × Shape) → List ChType → Bool
  | (_, shape) :: shapes, ty :: tys =>
    unknownAtNullable shape ty || fieldUnknownAtNullable shapes tys
  | _, _ => false

end

variable {shapes : List Shape}

theorem ChType.transparent_transparent : ∀ ty : ChType, ty.transparent.transparent = ty.transparent
  | .lowCardinality inner => ChType.transparent_transparent inner
  | .named _ | .nullable _ | .array _ | .map _ _ | .tuple _ | .fixedString _ | .dateTime _
  | .dateTime64 _ _ | .time64 _ | .decimal _ _ | .enum8 | .enum16 | .other _ => rfl

/-- The matrix sees the type with its LowCardinality taken off. -/
theorem compatible_transparent (wire : Wire) (shape : Shape) (ty : ChType) :
    compatible wire shape ty.transparent = compatible wire shape ty := by
  unfold compatible
  rw [ChType.transparent_transparent]

theorem compatible_unknown {wire : Wire} {ty : ChType} :
    compatible wire .unknown ty = !unknownAtNullable .unknown ty := by
  unfold compatible unknownAtNullable
  cases ty.transparent <;> rfl

theorem allErased_scalars : ∀ {shapes shown : List Shape}, AllErased shapes shown →
    (∀ shape ∈ shapes, ∃ kind, shape = .scalar kind) → shown = shapes
  | [], [], _, _ => rfl
  | shape :: shapes, shape' :: shown, ⟨first, rest⟩, scalars => by
    obtain ⟨kind, rfl⟩ := scalars shape List.mem_cons_self
    have others := allErased_scalars rest fun s member =>
      scalars s (List.mem_cons_of_mem _ member)
    cases shape' with
    | scalar kind' =>
      cases first
      rw [others]
    | _ => simp only [Erased] at first

theorem fieldsErased_shapes : ∀ {fields shown : List (String × Shape)}, FieldsErased fields shown →
    AllErased (fields.map Prod.snd) (shown.map Prod.snd)
  | [], [], _ => trivial
  | (_, _) :: _, (_, _) :: _, ⟨_, first, rest⟩ => ⟨first, fieldsErased_shapes rest⟩

theorem allU8_scalars (bytes : allU8 shapes = true) :
    ∀ shape ∈ shapes, ∃ kind, shape = .scalar kind := by
  intro shape member
  have byte := List.all_eq_true.mp bytes shape member
  cases shape with
  | scalar kind => exact ⟨kind, rfl⟩
  | _ => simp at byte

/-- The fixed-width columns take tuples of scalars only. -/
theorem rawCompatible_scalars {ty : ChType} (raw : rawCompatible shapes ty = true) :
    ∀ shape ∈ shapes, ∃ kind, shape = .scalar kind := by
  unfold rawCompatible at raw
  split at raw
  · exact allU8_scalars (Bool.and_eq_true_iff.mp raw).2
  · split at raw
    · exact allU8_scalars (Bool.and_eq_true_iff.mp raw).2
    · split at raw
      · intro shape member
        simp only [List.mem_cons, List.not_mem_nil, or_false, or_self] at member
        exact ⟨_, member⟩
      · cases raw
    · exact allU8_scalars (Bool.and_eq_true_iff.mp raw).2
    · exact allU8_scalars (Bool.and_eq_true_iff.mp raw).2
    · cases raw
  · cases raw

theorem rawCompatible_erased {shown : List Shape} {ty : ChType} (erased : AllErased shapes shown)
    (raw : rawCompatible shapes ty = true) : rawCompatible shown ty = true := by
  rw [allErased_scalars erased (rawCompatible_scalars raw)]
  exact raw

theorem expanded_unknownType {ty : ChType} (unknown : isUnknownType ty = true) :
    ty.expanded = ty := by
  cases ty with
  | named name =>
    have notGeo : geoEquiv name = none := by
      unfold geoEquiv
      split <;> first | rfl | (exfalso; revert unknown; decide)
    rw [ChType.expanded, notGeo, Option.getD_none]
  | _ => rfl

theorem unknownAtNullable_unknownType {ty : ChType}
    (unknown : isUnknownType ty.transparent = true) :
    ∀ shape : Shape, unknownAtNullable shape ty = false
  | .unknown => by
    unfold unknownAtNullable
    cases plain : ty.transparent <;> simp_all [isUnknownType]
  | .option inner => by
    unfold unknownAtNullable
    cases plain : ty.transparent <;> simp_all [isUnknownType]
  | .newtype name inner => by
    unfold unknownAtNullable
    rw [unknownAtNullable_unknownType unknown inner, Bool.and_false]
  | .seq _ | .map _ _ | .tuple _ | .struct _ => by
    unfold unknownAtNullable
    rw [expanded_unknownType unknown]
    cases plain : ty.transparent <;> simp_all [isUnknownType]
  | .scalar _ | .str | .bytes => rfl

/-- A type the matrix does not know takes everything but an option. -/
theorem compatible_unknownType {wire : Wire} {shape : Shape} {ty : ChType}
    (unknown : isUnknownType ty.transparent = true) (plain : ∀ inner, shape ≠ .option inner) :
    compatible wire shape ty = true := by
  unfold compatible
  generalize ty.transparent = t at unknown
  cases shape with
  | option inner => exact absurd rfl (plain inner)
  | _ => cases t <;> simp_all [isUnknownType]

section Known

variable {wire : Wire} {ty : ChType} (known : isUnknownType ty.transparent = false)

include known

theorem compatible_seq {inner : Shape} :
    compatible wire (.seq inner) ty = match ty.transparent.expanded with
      | .array t => compatible wire inner t
      | _ => false := by
  conv_lhs => unfold compatible
  generalize ty.transparent = t at known
  cases t <;> simp only [known, Bool.false_or]
  all_goals rfl

theorem compatible_map {key val : Shape} :
    compatible wire (.map key val) ty = match ty.transparent.expanded with
      | .map kt vt => compatible wire key kt && compatible wire val vt
      | _ => false := by
  conv_lhs => unfold compatible
  generalize ty.transparent = t at known
  cases t <;> simp only [known, Bool.false_or]
  all_goals rfl

theorem compatible_tuple {elems : List Shape} :
    compatible wire (.tuple elems) ty = match ty.transparent.expanded with
      | .tuple ts => tupleCompatible wire elems ts
      | t => rawCompatible elems t := by
  conv_lhs => unfold compatible
  generalize ty.transparent = t at known
  cases t <;> simp only [known, Bool.false_or]
  all_goals rfl

theorem compatible_struct {fields : List (String × Shape)} :
    compatible wire (.struct fields) ty = match ty.transparent.expanded with
      | .tuple ts => fieldsCompatible wire fields ts
      | t => rawCompatible (fields.map Prod.snd) t := by
  conv_lhs => unfold compatible
  generalize ty.transparent = t at known
  cases t <;> simp only [known, Bool.false_or]
  all_goals rfl

/-- A newtype the crate does not register is transparent. -/
theorem compatible_newtype {name : String} {inner : Shape} (plain : registered name = false)
    (filled : ∀ t, ty.transparent ≠ .nullable t) :
    compatible wire (.newtype name inner) ty = compatible wire inner ty := by
  obtain ⟨noDecimal, noRule⟩ := Bool.or_eq_false_iff.mp plain
  rw [Option.isSome_eq_false_iff, Option.isNone_iff_eq_none] at noDecimal noRule
  rw [← compatible_transparent wire inner ty]
  conv_lhs => unfold compatible
  generalize ty.transparent = t at known filled
  cases t with
  | nullable t => exact absurd rfl (filled t)
  | _ => simp only [known, noDecimal, noRule, Bool.false_eq_true, ↓reduceIte]

end Known

/-- A registered newtype is judged by its name. -/
theorem compatible_registered {wire : Wire} {name : String} {inner inner' : Shape} {ty : ChType}
    (wrapper : registered name = true) :
    compatible wire (.newtype name inner) ty = compatible wire (.newtype name inner') ty := by
  unfold registered at wrapper
  unfold compatible
  cases decimal : decimalWrapper name with
  | some band => cases ty.transparent <;> simp only [decimal]
  | none =>
    cases rule : newtypeRule name with
    | some judge => cases ty.transparent <;> simp only [decimal, rule]
    | none => simp [decimal, rule] at wrapper

theorem compatible_filled {wire : Wire} {name : String} {inner : Shape} {ty : ChType}
    (accepted : compatible wire (.newtype name inner) ty = true) :
    ∀ t, ty.transparent ≠ .nullable t := by
  intro t nullable
  unfold compatible at accepted
  rw [nullable] at accepted
  cases accepted

mutual

/-- Emptying a container changes what the matrix says of a shape it accepts only where an
`unknown` then stands at a `Nullable` type. -/
theorem compatible_erased {wire : Wire} : ∀ {shape shown : Shape} {ty : ChType},
    Erased shape shown → compatible wire shape ty = true →
    compatible wire shown ty = !unknownAtNullable shown ty
  | .scalar _, .scalar _, ty, erased, accepted => by
    cases erased
    rw [accepted]
    rfl
  | .str, .str, ty, _, accepted => by
    rw [accepted]
    rfl
  | .bytes, .bytes, ty, _, accepted => by
    rw [accepted]
    rfl
  | .option inner, .option inner', ty, erased, accepted => by
    unfold compatible at accepted ⊢
    unfold unknownAtNullable
    generalize ty.transparent = plain at accepted ⊢
    cases plain with
    | nullable t =>
      rcases erased with rfl | erased
      · exact compatible_unknown
      · exact compatible_erased erased accepted
    | _ => cases accepted
  | .seq inner, .seq inner', ty, erased, accepted => by
    cases known : isUnknownType ty.transparent with
    | true =>
      rw [unknownAtNullable_unknownType known, compatible_unknownType known (by simp)]
      rfl
    | false =>
      rw [compatible_seq known] at accepted ⊢
      unfold unknownAtNullable
      cases within : ty.transparent.expanded <;> rw [within] at accepted <;>
        simp only [Bool.false_eq_true] at accepted
      rcases erased with rfl | erased
      · exact compatible_unknown
      · exact compatible_erased erased accepted
  | .map key val, .map key' val', ty, ⟨erasedKey, erasedVal⟩, accepted => by
    cases known : isUnknownType ty.transparent with
    | true =>
      rw [unknownAtNullable_unknownType known, compatible_unknownType known (by simp)]
      rfl
    | false =>
      rw [compatible_map known] at accepted ⊢
      unfold unknownAtNullable
      cases within : ty.transparent.expanded <;> rw [within] at accepted <;>
        simp only [Bool.false_eq_true] at accepted
      obtain ⟨acceptedKey, acceptedVal⟩ := Bool.and_eq_true_iff.mp accepted
      have keys : ∀ t, compatible wire key t = true →
          compatible wire key' t = !unknownAtNullable key' t := by
        intro t takes
        rcases erasedKey with rfl | erased
        · exact compatible_unknown
        · exact compatible_erased erased takes
      have vals : ∀ t, compatible wire val t = true →
          compatible wire val' t = !unknownAtNullable val' t := by
        intro t takes
        rcases erasedVal with rfl | erased
        · exact compatible_unknown
        · exact compatible_erased erased takes
      simp only [keys _ acceptedKey, vals _ acceptedVal, Bool.not_or]
  | .tuple elems, .tuple elems', ty, erased, accepted => by
    cases known : isUnknownType ty.transparent with
    | true =>
      rw [unknownAtNullable_unknownType known, compatible_unknownType known (by simp)]
      rfl
    | false =>
      rw [compatible_tuple known] at accepted ⊢
      unfold unknownAtNullable
      cases within : ty.transparent.expanded <;> rw [within] at accepted <;>
        first
          | exact tupleCompatible_erased erased accepted
          | exact rawCompatible_erased erased accepted
  | .struct fields, .struct fields', ty, erased, accepted => by
    cases known : isUnknownType ty.transparent with
    | true =>
      rw [unknownAtNullable_unknownType known, compatible_unknownType known (by simp)]
      rfl
    | false =>
      rw [compatible_struct known] at accepted ⊢
      unfold unknownAtNullable
      cases within : ty.transparent.expanded <;> rw [within] at accepted <;>
        first
          | exact fieldsCompatible_erased erased accepted
          | exact rawCompatible_erased (fieldsErased_shapes erased) accepted
  | .newtype name inner, .newtype name' inner', ty, ⟨named, erased⟩, accepted => by
    subst named
    cases known : isUnknownType ty.transparent with
    | true =>
      rw [unknownAtNullable_unknownType known, compatible_unknownType known (by simp)]
      rfl
    | false =>
      unfold unknownAtNullable
      cases wrapper : registered name with
      | true =>
        rw [compatible_registered wrapper, accepted]
        rfl
      | false =>
        have filled := compatible_filled accepted
        rw [compatible_newtype known wrapper filled] at accepted ⊢
        exact compatible_erased erased accepted
  | .unknown, .unknown, ty, _, _ => compatible_unknown

theorem tupleCompatible_erased {wire : Wire} : ∀ {shapes shown : List Shape} {tys : List ChType},
    AllErased shapes shown → tupleCompatible wire shapes tys = true →
    tupleCompatible wire shown tys = !anyUnknownAtNullable shown tys
  | [], [], [], _, _ => rfl
  | shape :: shapes, shape' :: shown, ty :: tys, ⟨first, rest⟩, accepted => by
    obtain ⟨head, tail⟩ := Bool.and_eq_true_iff.mp accepted
    rw [tupleCompatible, anyUnknownAtNullable, compatible_erased first head,
      tupleCompatible_erased rest tail, Bool.not_or]

theorem fieldsCompatible_erased {wire : Wire} :
    ∀ {fields shown : List (String × Shape)} {tys : List ChType},
    FieldsErased fields shown → fieldsCompatible wire fields tys = true →
    fieldsCompatible wire shown tys = !fieldUnknownAtNullable shown tys
  | [], [], [], _, _ => rfl
  | (_, shape) :: fields, (_, shape') :: shown, ty :: tys, ⟨_, first, rest⟩, accepted => by
    obtain ⟨head, tail⟩ := Bool.and_eq_true_iff.mp accepted
    rw [fieldsCompatible, fieldUnknownAtNullable, compatible_erased first head,
      fieldsCompatible_erased rest tail, Bool.not_or]

end

/-- A record shows the full shape of its row type with the parts of its empty containers
unknown. Where the matrix accepts the full shape, it accepts what the record shows exactly if
no unknown part stands at a `Nullable` type. -/
theorem accepted_record_iff {wire : Wire} {shape : Shape} {ty : ChType}
    (accepted : compatible wire shape ty = true) :
    (∀ shown, Erased shape shown →
      (compatible wire shown ty = true ↔ unknownAtNullable shown ty = false)) ∧
    ∀ record, HasShape record shape → ∃ shown, shapeOf record = .ok shown ∧ Erased shape shown ∧
      (compatible wire shown ty = true ↔ unknownAtNullable shown ty = false) := by
  have iff : ∀ shown, Erased shape shown →
      (compatible wire shown ty = true ↔ unknownAtNullable shown ty = false) := by
    intro shown erased
    rw [compatible_erased erased accepted, Bool.not_eq_true']
  refine ⟨iff, ?_⟩
  intro record has
  obtain ⟨shown, probed, erased⟩ := shapeOf_erased has
  exact ⟨shown, probed, erased, iff shown erased⟩

/-- The shape of a `Vec<Option<i64>>` field. -/
def optionalScores : Shape := .seq (.option (.scalar .i64))

/-- The column such a field feeds. -/
def nullableScores : ChType := .array (.nullable (.named "Int64"))

theorem accepted_record_plain :
    compatible .native (.seq (.scalar .i64)) (.array (.named "Int64")) = true ∧
    compatible .native (.seq .unknown) (.array (.named "Int64")) = true ∧
    ∃ shown, shapeOf (.seq (some 0) []) = .ok shown ∧ Erased (.seq (.scalar .i64)) shown ∧
      (compatible .native shown (.array (.named "Int64")) = true ↔
        unknownAtNullable shown (.array (.named "Int64")) = false) := by
  have accepted : compatible .native (.seq (.scalar .i64)) (.array (.named "Int64")) = true := by
    decide
  refine ⟨accepted, ?_, ?_⟩
  · exact ((accepted_record_iff accepted).1 (.seq .unknown) (.inl rfl)).mpr (by decide)
  · exact (accepted_record_iff accepted).2 (.seq (some 0) []) ⟨rfl, trivial⟩

/-- The table whose first record holds an empty `Vec<Option<i64>>`. -/
def scoresTable (wire : Wire) : RowSchema :=
  ⟨wire, "`scores`",
    [⟨"scores", nullableScores, "Array(Nullable(Int64))", rfl, by decide, by decide⟩], by decide⟩

theorem empty_options_rejected :
    HasShape (.seq (some 0) []) optionalScores ∧
    HasShape (.seq (some 1) [.some (.scalar ⟨.i64, 7, by decide⟩)]) optionalScores ∧
    Erased optionalScores (.seq .unknown) ∧
    compatible .rowBinary optionalScores nullableScores = true ∧
    compatible .rowBinary (.seq .unknown) nullableScores = false ∧
    compatible .native optionalScores nullableScores = true ∧
    compatible .native (.seq .unknown) nullableScores = false ∧
    probeRow (.struct 1 [("scores", .seq (some 0) [])]) = .ok [("scores", .seq .unknown)] ∧
    (checkFirstRecord (scoresTable .rowBinary) [("scores", .seq .unknown)]).isOk = false ∧
    (checkFirstRecord (scoresTable .native) [("scores", .seq .unknown)]).isOk = false ∧
    (checkFirstRecord (scoresTable .native) [("scores", optionalScores)]).isOk = true := by
  refine ⟨⟨rfl, trivial⟩, ⟨rfl, ⟨rfl, ?_⟩, trivial⟩, .inl rfl, ?_, ?_, ?_, ?_, rfl, ?_, ?_, ?_⟩
  · intro nested differs
    cases differs
  all_goals decide

end Spate.ClickHouse
