import Spate.S3Read

set_option autoImplicit false

/- How listed objects become the feed's units (`unit.rs`, `Packing` in `split.rs`): an
object is cut into ranges or read whole, and small objects share a unit. A unit is its
descriptor: its id is a digest of it. `addressable` is `object_store`'s answer whether it
reads a key under that key. -/
namespace Spate.S3

inductive Compression
  | auto
  | none
  | gzip
  | zstd
  deriving DecidableEq

inductive Codec
  | plain
  | gzip
  | zstd
  deriving DecidableEq

/-- Whether `key` ends with the extension `suffix`. -/
def endsWith (key suffix : String) : Bool := suffix.toList.isSuffixOf key.toList

def Codec.resolve (config : Compression) (key : String) : Codec :=
  match config with
  | .none => .plain
  | .gzip => .gzip
  | .zstd => .zstd
  | .auto =>
    if endsWith key ".gz" || endsWith key ".gzip" then .gzip
    else if endsWith key ".zst" || endsWith key ".zstd" then .zstd
    else .plain

/-- What cutting a unit into ranges needs besides the object. -/
structure Packing where
  targetBytes : Nat
  compression : Compression
  delimiter : Option UInt8
  deriving DecidableEq

def maxSubdividableBytes : Nat := 50000 <<< 30

def packMembers : Nat := 16

def packKeyMaxBytes : Nat := 1024

def packEtagMaxBytes : Nat := 256

/-- The delimiter to cut `entry` on, or `none` when it is read whole. -/
def Packing.delimiterFor (packing : Packing) (entry : ObjectEntry) : Option UInt8 :=
  packing.delimiter.filter fun _ =>
    decide (packing.targetBytes < entry.size) && decide (entry.size ≤ maxSubdividableBytes) &&
      entry.etag.isSome && decide (Codec.resolve packing.compression entry.key = .plain)

/-- The body of a unit: the objects it names, and the range of its only one. -/
structure SplitDescriptor where
  objects : List ObjectEntry
  range : Option SplitRange
  deriving DecidableEq

/-- Whether `etag` can be an `If-Match` header value. A character above ASCII is bytes
above `0x7f`. -/
def sendable (etag : String) : Bool :=
  etag.toList.all fun c =>
    decide (c.toNat = 9) || (decide (0x20 ≤ c.toNat) && decide (c.toNat ≠ 0x7f))

section

variable (addressable : String → Bool)

/-- The parts of one object: the ranges it is cut into, or the whole object. -/
def partsOf (packing : Packing) (entry : ObjectEntry) : List (Option SplitRange) :=
  match (packing.delimiterFor entry).filter fun _ => addressable entry.key with
  | some delimiter => (tile entry.size packing.targetBytes delimiter).map some
  | none => [none]

/-- The units of one object, one per part. -/
def aloneUnits (packing : Packing) (entry : ObjectEntry) : List SplitDescriptor :=
  (partsOf addressable packing entry).map fun range => ⟨[entry], range⟩

def packedUnit (members : List ObjectEntry) : SplitDescriptor := ⟨members, none⟩

/-- `u64::saturating_add`. -/
def saturatingAdd (a b : Nat) : Nat := min (a + b) (2 ^ 64 - 1)

structure Packer where
  packing : Packing
  opened : List ObjectEntry := []
  openBytes : Nat := 0
  deriving DecidableEq

namespace Packer

def shares (p : Packer) (entry : ObjectEntry) : Bool :=
  (p.packing.delimiterFor entry).isNone && addressable entry.key &&
    decide (entry.key.utf8ByteSize ≤ packKeyMaxBytes) &&
    entry.etag.all fun etag => decide (etag.utf8ByteSize ≤ packEtagMaxBytes) && sendable etag

/-- Mints the open unit, if an object waits in it. -/
def close (p : Packer) : Packer × List SplitDescriptor :=
  ({ p with opened := [], openBytes := 0 },
    match p.opened with
    | [] => []
    | [entry] => (aloneUnits addressable p.packing entry).take 1
    | members => [packedUnit members])

/-- Adds `entry`; returns the units it closes or mints, in listing order. -/
def push (p : Packer) (entry : ObjectEntry) : Packer × List SplitDescriptor :=
  let shared := p.shares addressable entry
  let (p, before) :=
    if !shared || decide (p.packing.targetBytes < saturatingAdd p.openBytes entry.size) then
      p.close addressable
    else (p, [])
  if shared then
    let p := { p with
      opened := p.opened ++ [entry], openBytes := saturatingAdd p.openBytes entry.size }
    let (p, after) := if p.opened.length = packMembers then p.close addressable else (p, [])
    (p, before ++ after)
  else (p, before ++ aloneUnits addressable p.packing entry)

end Packer

end

/-- The unit reads `part` of `entry`. -/
def SplitDescriptor.Covers (unit : SplitDescriptor) (entry : ObjectEntry)
    (part : Option SplitRange) : Prop :=
  entry ∈ unit.objects ∧ unit.range = part

instance (unit : SplitDescriptor) (entry : ObjectEntry) (part : Option SplitRange) :
    Decidable (unit.Covers entry part) :=
  inferInstanceAs (Decidable (_ ∧ _))

section

variable {addressable : String → Bool} {packing : Packing}

variable {entry : ObjectEntry}

theorem aloneUnits_covers {part : Option SplitRange}
    (one : part ∈ partsOf addressable packing entry) :
    ∃ unit ∈ aloneUnits addressable packing entry, unit.Covers entry part :=
  ⟨⟨[entry], part⟩, List.mem_map.mpr ⟨part, one, rfl⟩, by simp [SplitDescriptor.Covers]⟩

theorem partsOf_whole (whole : packing.delimiterFor entry = none) :
    partsOf addressable packing entry = [none] := by
  simp [partsOf, whole]

theorem partsOf_unaddressable (hidden : addressable entry.key = false) :
    partsOf addressable packing entry = [none] := by
  simp [partsOf, hidden]

namespace Packer

variable {p : Packer}

def Whole (p : Packer) : Prop := ∀ entry ∈ p.opened, p.packing.delimiterFor entry = none

variable {entry : ObjectEntry}

theorem delimiterFor_of_shares (shared : p.shares addressable entry = true) :
    p.packing.delimiterFor entry = none := by
  simp only [shares, Bool.and_eq_true, Option.isNone_iff_eq_none] at shared
  exact shared.1.1.1

@[simp] theorem close_opened : (p.close addressable).1.opened = [] := rfl

@[simp] theorem close_packing : (p.close addressable).1.packing = p.packing := rfl

theorem close_covers (whole : p.Whole) (waits : entry ∈ p.opened) :
    ∃ unit ∈ (p.close addressable).2, unit.Covers entry none := by
  rcases opened : p.opened with - | ⟨first, - | ⟨second, rest⟩⟩
  · simp [opened] at waits
  · rw [opened, List.mem_singleton] at waits
    subst waits
    have alone : partsOf addressable p.packing entry = [none] :=
      partsOf_whole (whole entry (by simp [opened]))
    exact ⟨⟨[entry], none⟩, by simp [close, opened, aloneUnits, alone],
      by simp [SplitDescriptor.Covers]⟩
  · exact ⟨packedUnit p.opened, by simp [close, opened], waits, rfl⟩

/-- From `p` to `next` the packer lost no object: what waited in `p` waits in `next` or is
read by a minted unit. -/
structure Kept (p next : Packer) (minted : List SplitDescriptor) : Prop where
  packing : next.packing = p.packing
  whole : next.Whole
  waited : ∀ entry ∈ p.opened, entry ∈ next.opened ∨ ∃ unit ∈ minted, unit.Covers entry none

theorem Kept.refl (whole : p.Whole) : p.Kept p [] :=
  ⟨rfl, whole, fun _ waits => .inl waits⟩

theorem Kept.trans {q r : Packer} {first second : List SplitDescriptor}
    (left : p.Kept q first) (right : q.Kept r second) : p.Kept r (first ++ second) := by
  refine ⟨right.packing.trans left.packing, right.whole, fun entry waits => ?_⟩
  rcases left.waited entry waits with waits | ⟨unit, minted, covers⟩
  · rcases right.waited entry waits with waits | ⟨unit, minted, covers⟩
    · exact .inl waits
    · exact .inr ⟨unit, List.mem_append_right first minted, covers⟩
  · exact .inr ⟨unit, List.mem_append_left second minted, covers⟩

variable (addressable) in
theorem kept_close (whole : p.Whole) : p.Kept (p.close addressable).1 (p.close addressable).2 :=
  ⟨rfl, fun _ waits => absurd waits (by simp), fun _ waits => .inr (close_covers whole waits)⟩

variable (addressable) in
theorem kept_closeIf (whole : p.Whole) (closes : Prop) [Decidable closes] :
    p.Kept (if closes then p.close addressable else (p, [])).1
      (if closes then p.close addressable else (p, [])).2 := by
  by_cases closing : closes
  · simpa only [if_pos closing] using kept_close addressable whole
  · simpa only [if_neg closing] using Kept.refl whole

theorem kept_add (whole : p.Whole) (alone : p.packing.delimiterFor entry = none) (bytes : Nat) :
    p.Kept { p with opened := p.opened ++ [entry], openBytes := bytes } [] := by
  refine ⟨rfl, fun other waits => ?_, fun _ waits => .inl (List.mem_append_left _ waits)⟩
  rcases List.mem_append.mp waits with waits | new
  · exact whole other waits
  · rwa [List.mem_singleton.mp new]

variable (addressable) in
/-- Pushing an object loses none that waited, and mints a unit for each of the object's
parts unless it waits in the open unit. -/
theorem push_spec (whole : p.Whole) (entry : ObjectEntry) :
    p.Kept (p.push addressable entry).1 (p.push addressable entry).2 ∧
      (entry ∈ (p.push addressable entry).1.opened ∧ p.packing.delimiterFor entry = none ∨
        ∀ part ∈ partsOf addressable p.packing entry,
          ∃ unit ∈ (p.push addressable entry).2, unit.Covers entry part) := by
  have before := kept_closeIf addressable whole
    (!p.shares addressable entry || decide (p.packing.targetBytes <
      saturatingAdd p.openBytes entry.size))
  simp only [push]
  generalize (if (!p.shares addressable entry || decide (p.packing.targetBytes <
      saturatingAdd p.openBytes entry.size)) = true then p.close addressable else (p, [])) = room
    at before ⊢
  split
  · rename_i shared
    have alone := delimiterFor_of_shares shared
    have added := kept_add before.whole (before.packing ▸ alone)
      (saturatingAdd room.1.openBytes entry.size)
    have after := kept_closeIf addressable added.whole
      ((room.1.opened ++ [entry]).length = packMembers)
    refine ⟨by simpa using (before.trans added).trans after, ?_⟩
    rcases after.waited entry (by simp) with waits | ⟨unit, minted, covers⟩
    · exact .inl ⟨waits, alone⟩
    · right
      intro part one
      rw [partsOf_whole alone, List.mem_singleton] at one
      exact ⟨unit, List.mem_append_right _ minted, one ▸ covers⟩
  · refine ⟨⟨before.packing, before.whole, fun other waits => ?_⟩, .inr fun part one => ?_⟩
    · rcases before.waited other waits with waits | ⟨unit, minted, covers⟩
      · exact .inl waits
      · exact .inr ⟨unit, List.mem_append_left _ minted, covers⟩
    · obtain ⟨unit, minted, covers⟩ := aloneUnits_covers one
      exact ⟨unit, List.mem_append_right _ (before.packing ▸ minted), covers⟩

end Packer

end

end Spate.S3
