import Mathlib.Data.List.Sort
import Mathlib.Data.String.Basic
import Spate.ByteCodec
import Spate.S3Unit

set_option autoImplicit false

/- The identity of a unit (`split_id_for`, `split_id_for_range` and `digest_member` in
`split.rs`): a digest over a member set, or over one object's range. The byte strings the
digest is fed are the identity; SHA-256 is any function of them. -/
namespace Spate.S3

open Spate.Json (Bytes)
open Spate.ByteCodec (Reader Reads byte decoded decodeUtf8 encodeUtf8 le readLe take)

structure SplitError where
  reason : String
  deriving DecidableEq

/-- Version folded into every id. -/
def packingVersion : Nat := 2

abbrev Member : Type := String × Option String

def KeyOrder (a b : Member) : Prop := a.1 ≤ b.1

instance : DecidableRel KeyOrder := fun a b => inferInstanceAs (Decidable (a.1 ≤ b.1))

/-- `sort_unstable_by_key` on the key. Of members with equal keys it may put any first, but
it looks for a run in order before it moves anything, so what is sorted stays as it is. -/
structure KeySort where
  run : List Member → List Member
  perm : ∀ members, (run members).Perm members
  sorted : ∀ members, (run members).Pairwise KeyOrder
  kept : ∀ members, members.Pairwise KeyOrder → run members = members

instance : Std.Total KeyOrder := ⟨fun a b => le_total a.1 b.1⟩

instance : IsTrans Member KeyOrder := ⟨fun _ _ _ first second => le_trans first second⟩

/-- What the standard library runs on a slice of at most twenty elements. -/
def KeySort.insertion : KeySort where
  run := List.insertionSort KeyOrder
  perm := List.perm_insertionSort KeyOrder
  sorted := List.pairwise_insertionSort KeyOrder
  kept := fun _ sorted => sorted.insertionSort_eq

/-- `u32::try_from(text.len()).unwrap_or(u32::MAX)`, little-endian, then the text. -/
def digestText (text : String) : Bytes :=
  le 4 (min (encodeUtf8 text).length (2 ^ 32 - 1)) ++ encodeUtf8 text

/-- A member's key and ETag in the length-prefixed form both ids share. -/
def digestMember (member : Member) : Bytes :=
  digestText member.1 ++
    match member.2 with
    | some etag => 1 :: digestText etag
    | none => [0]

/-- What `split_id_with_version` feeds the digest for the members in sorted order. -/
def splitPreimage (sort : KeySort) (version : Nat) (members : List Member) : Bytes :=
  encodeUtf8 "spate-s3-split\n" ++ le 4 version ++ (sort.run members).flatMap digestMember

def rangePreimage (key etag : String) (range : SplitRange) : Bytes :=
  encodeUtf8 "spate-s3-range\n" ++ le 4 packingVersion ++ digestMember (key, some etag) ++
    le 8 range.start ++ le 8 range.stop ++ [range.delimiter]

/-- The character of six bits in the URL-safe alphabet. -/
def base64Char (sextet : Nat) : Char :=
  "ABCDEFGHIJKLMNOPQRSTUVWXYZabcdefghijklmnopqrstuvwxyz0123456789-_".toList.getD sextet 'A'

/-- `URL_SAFE_NO_PAD.encode`. -/
def base64Url : Bytes → List Char
  | [] => []
  | [a] => [base64Char (a.toNat / 4), base64Char (a.toNat % 4 * 16)]
  | [a, b] =>
    [base64Char (a.toNat / 4), base64Char (a.toNat % 4 * 16 + b.toNat / 16),
      base64Char (b.toNat % 16 * 4)]
  | a :: b :: c :: rest =>
    base64Char (a.toNat / 4) :: base64Char (a.toNat % 4 * 16 + b.toNat / 16) ::
      base64Char (b.toNat % 16 * 4 + c.toNat / 64) :: base64Char (c.toNat % 64) ::
      base64Url rest

def idFromDigest (digest : Bytes) : String := "s3-" ++ String.ofList (base64Url (digest.take 16))

section

variable (sha256 : Bytes → Bytes) (sort : KeySort)

def splitIdWithVersion (members : List Member) (version : Nat) : Except SplitError String :=
  if members.isEmpty then .error ⟨"cannot mint a unit id for an empty member set"⟩
  else .ok (idFromDigest (sha256 (splitPreimage sort version members)))

def splitIdFor (members : List Member) : Except SplitError String :=
  splitIdWithVersion sha256 sort members packingVersion

def splitIdForRange (key etag : String) (range : SplitRange) : Except SplitError String :=
  if range.stop ≤ range.start then
    .error ⟨s!"cannot mint a unit id for the empty range [{range.start}, {range.stop})"⟩
  else .ok (idFromDigest (sha256 (rangePreimage key etag range)))

end

/-! ## Reading the digested bytes back -/

def Short (text : String) : Prop := (encodeUtf8 text).length < 2 ^ 32

instance (text : String) : Decidable (Short text) := inferInstanceAs (Decidable (_ < _))

def ShortMember (member : Member) : Prop := Short member.1 ∧ ∀ etag ∈ member.2, Short etag

instance (member : Member) : Decidable (ShortMember member) :=
  inferInstanceAs (Decidable (_ ∧ _))

def readText : Reader String := do
  let length ← readLe 4
  let bytes ← take length
  decoded (decodeUtf8 bytes)

def readMember : Reader Member := do
  let key ← readText
  let present ← byte
  if present = 0 then pure (key, none)
  else do
    let etag ← readText
    pure (key, some etag)

def readRangeId : Reader (Member × Nat × Nat × UInt8) := do
  let member ← readMember
  let start ← readLe 8
  let stop ← readLe 8
  let delimiter ← byte
  pure (member, start, stop, delimiter)

theorem reads_text {text : String} (short : Short text) :
    Reads readText (digestText text) text := by
  have whole : min (encodeUtf8 text).length (2 ^ 32 - 1) = (encodeUtf8 text).length :=
    Nat.min_eq_left (by unfold Short at short; omega)
  rw [digestText, whole]
  refine ByteCodec.reads_bind (ByteCodec.reads_le short) ?_
  have text := ByteCodec.reads_bind (f := fun bytes => decoded (decodeUtf8 bytes))
    (ByteCodec.reads_take rfl) (ByteCodec.reads_decoded (ByteCodec.decodeUtf8_encodeUtf8 text))
  rwa [List.append_nil] at text

theorem reads_member {member : Member} (short : ShortMember member) :
    Reads readMember (digestMember member) member := by
  obtain ⟨key, etag⟩ := member
  refine ByteCodec.reads_bind (reads_text short.1) ?_
  cases etag with
  | none =>
    refine ByteCodec.reads_bind (ByteCodec.reads_byte 0) (?_ : Reads _ [] _)
    exact ByteCodec.reads_pure _
  | some etag =>
    refine ByteCodec.reads_bind (ByteCodec.reads_byte 1) ?_
    exact ByteCodec.reads_pure_bind (fun etag => (key, some etag)) (reads_text (short.2 etag rfl))

theorem digestMember_ne_nil (member : Member) : digestMember member ≠ [] := by
  obtain ⟨key, - | etag⟩ := member <;> simp [digestMember]

theorem digestMembers_inj {xs ys : List Member} (left : ∀ member ∈ xs, ShortMember member)
    (right : ∀ member ∈ ys, ShortMember member)
    (same : xs.flatMap digestMember = ys.flatMap digestMember) : xs = ys :=
  Reads.flatMap_inj digestMember_ne_nil (fun x member => reads_member (left x member))
    (fun y member => reads_member (right y member)) same

def ShortRange (range : SplitRange) : Prop := range.start < 2 ^ 64 ∧ range.stop < 2 ^ 64

theorem reads_rangeId {key etag : String} {range : SplitRange} (shortKey : Short key)
    (shortEtag : Short etag) (short : ShortRange range) :
    Reads readRangeId (digestMember (key, some etag) ++
      (le 8 range.start ++ (le 8 range.stop ++ [range.delimiter])))
      ((key, some etag), range.start, range.stop, range.delimiter) := by
  refine ByteCodec.reads_bind (reads_member ⟨shortKey, ?_⟩) ?_
  · intro other found
    cases found
    exact shortEtag
  refine ByteCodec.reads_bind (ByteCodec.reads_le short.1) ?_
  refine ByteCodec.reads_bind (ByteCodec.reads_le short.2) ?_
  exact ByteCodec.reads_pure_bind (fun delimiter => (_, _, _, delimiter))
    (ByteCodec.reads_byte range.delimiter)

theorem rangePreimage_inj {key etag other otherEtag : String} {range otherRange : SplitRange}
    (shortKey : Short key) (shortEtag : Short etag) (short : ShortRange range)
    (shortOther : Short other) (shortOtherEtag : Short otherEtag)
    (shortOtherRange : ShortRange otherRange)
    (same : rangePreimage key etag range = rangePreimage other otherEtag otherRange) :
    key = other ∧ etag = otherEtag ∧ range = otherRange := by
  simp only [rangePreimage, List.append_assoc] at same
  have rest := List.append_cancel_left (List.append_cancel_left same)
  have left := reads_rangeId shortKey shortEtag short
  rw [rest] at left
  have values := left.unique (reads_rangeId shortOther shortOtherEtag shortOtherRange)
  obtain ⟨start, stop, delimiter⟩ := range
  simp only [Prod.mk.injEq, Option.some.injEq] at values
  obtain ⟨⟨rfl, rfl⟩, rfl, rfl, rfl⟩ := values
  exact ⟨rfl, rfl, rfl⟩

/-- The domain tags keep the two kinds of id apart. -/
theorem splitPreimage_ne_rangePreimage (sort : KeySort) (version : Nat) (members : List Member)
    (key etag : String) (range : SplitRange) :
    splitPreimage sort version members ≠ rangePreimage key etag range := by
  intro same
  have tags := congrArg (List.take 15) same
  simp only [splitPreimage, rangePreimage, List.append_assoc] at tags
  rw [List.take_append_of_le_length (by decide), List.take_append_of_le_length (by decide)] at tags
  exact absurd tags (by decide)

section

variable (sort : KeySort) {members others : List Member}

/-- Lists that are digested alike are permutations of each other. -/
theorem splitPreimage_perm (version : Nat) (short : ∀ member ∈ members, ShortMember member)
    (shortOthers : ∀ member ∈ others, ShortMember member)
    (same : splitPreimage sort version others = splitPreimage sort version members) :
    others.Perm members := by
  simp only [splitPreimage, List.append_assoc] at same
  have lists : sort.run others = sort.run members :=
    digestMembers_inj (fun member one => shortOthers member ((sort.perm others).mem_iff.mp one))
      (fun member one => short member ((sort.perm members).mem_iff.mp one))
      (List.append_cancel_left (List.append_cancel_left same))
  exact (sort.perm others).symm.trans (lists ▸ sort.perm members)

def OneEtagPerKey (members : List Member) : Prop :=
  ∀ a ∈ members, ∀ b ∈ members, a.1 = b.1 → a = b

theorem splitPreimage_of_perm (version : Nat) (single : OneEtagPerKey members)
    (perm : others.Perm members) :
    splitPreimage sort version others = splitPreimage sort version members := by
  have sorted : sort.run others = sort.run members := by
    apply List.Perm.eq_of_pairwise _ (sort.sorted others) (sort.sorted members)
      (((sort.perm others).trans perm).trans (sort.perm members).symm)
    intro a b left right below above
    exact single a (perm.mem_iff.mp ((sort.perm others).mem_iff.mp left)) b
      ((sort.perm members).mem_iff.mp right) (le_antisymm below above)
  rw [splitPreimage, splitPreimage, sorted]

theorem sorted_around {a b : Member} (sameKey : a.1 = b.1) (rest : List Member) :
    ∃ lower upper : List Member, (lower ++ upper).Perm rest ∧
      (lower ++ a :: b :: upper).Pairwise KeyOrder ∧
      (lower ++ b :: a :: upper).Pairwise KeyOrder := by
  have sorted := KeySort.insertion.sorted rest
  have perm := KeySort.insertion.perm rest
  generalize KeySort.insertion.run rest = ordered at sorted perm
  refine ⟨ordered.filter fun m => decide (m.1 < a.1), ordered.filter fun m => !decide (m.1 < a.1),
    (List.filter_append_perm _ ordered).trans perm, ?_, ?_⟩
  all_goals
    simp only [List.pairwise_append, List.pairwise_cons, List.mem_cons, List.mem_filter,
      decide_eq_true_eq, Bool.not_eq_true', decide_eq_false_iff_not, not_lt, KeyOrder, ← sameKey]
    refine ⟨sorted.filter _, ⟨?_, fun m upper => upper.2, sorted.filter _⟩, ?_⟩
    · rintro m (same | ⟨-, above⟩)
      · simp only [same, sameKey, le_refl]
      · exact above
    · rintro m ⟨-, below⟩ n (same | same | ⟨-, above⟩)
      · simpa only [same, ← sameKey] using below.le
      · simpa only [same, ← sameKey] using below.le
      · exact below.le.trans above

/-- Two members of one key and different ETags are digested in the order they are given. -/
theorem oneEtagPerKey_of_invariant (version : Nat) (short : ∀ member ∈ members, ShortMember member)
    (invariant : ∀ others : List Member, others.Perm members →
      splitPreimage sort version others = splitPreimage sort version members) :
    OneEtagPerKey members := by
  intro a memberA b memberB sameKey
  by_contra different
  have first : members.Perm (a :: members.erase a) := List.perm_cons_erase memberA
  have second : (members.erase a).Perm (b :: (members.erase a).erase b) :=
    List.perm_cons_erase ((List.mem_erase_of_ne (Ne.symm different)).mpr memberB)
  obtain ⟨lower, upper, parts, forward, backward⟩ :=
    sorted_around sameKey ((members.erase a).erase b)
  have whole : (lower ++ a :: b :: upper).Perm members := by
    refine List.Perm.trans ?_ (first.trans (second.cons a)).symm
    refine List.perm_middle.trans (List.Perm.cons a ?_)
    exact List.perm_middle.trans (parts.cons b)
  have swapped : (lower ++ b :: a :: upper).Perm members :=
    (List.Perm.append_left lower (List.Perm.swap a b upper)).trans whole
  have same : splitPreimage sort version (lower ++ a :: b :: upper) =
      splitPreimage sort version (lower ++ b :: a :: upper) :=
    (invariant _ whole).trans (invariant _ swapped).symm
  simp only [splitPreimage, sort.kept _ forward, sort.kept _ backward, List.append_assoc] at same
  have lists := digestMembers_inj (fun m one => short m (whole.mem_iff.mp one))
    (fun m one => short m (swapped.mem_iff.mp one))
    (List.append_cancel_left (List.append_cancel_left same))
  simp only [List.append_cancel_left_eq, List.cons.injEq] at lists
  exact different lists.1

end

/-- The bytes a member set's id digests are the set's own, whatever its order, exactly when
no key comes with two ETags; a range's are its own. -/
theorem unit_identity (sort : KeySort) :
    (∀ members : List Member, members ≠ [] → (∀ member ∈ members, ShortMember member) →
      (((∀ others : List Member, others.Perm members →
            splitPreimage sort packingVersion others = splitPreimage sort packingVersion members) ∧
          (∀ others : List Member, others ≠ [] → (∀ member ∈ others, ShortMember member) →
            ¬ others.Perm members →
            splitPreimage sort packingVersion others ≠ splitPreimage sort packingVersion members) ∧
          (∀ key etag : String, ∀ range : SplitRange,
            splitPreimage sort packingVersion members ≠ rangePreimage key etag range)) ↔
        OneEtagPerKey members)) ∧
    (∀ key etag other otherEtag : String, ∀ range otherRange : SplitRange,
      Short key → Short etag → ShortRange range →
      Short other → Short otherEtag → ShortRange otherRange →
      rangePreimage key etag range = rangePreimage other otherEtag otherRange →
      key = other ∧ etag = otherEtag ∧ range = otherRange) := by
  refine ⟨fun members _ short => ⟨fun unit => ?_, fun single => ⟨?_, ?_, ?_⟩⟩, ?_⟩
  · exact oneEtagPerKey_of_invariant sort packingVersion short unit.1
  · exact fun others perm => splitPreimage_of_perm sort packingVersion single perm
  · exact fun others _ shortOthers apart same =>
      apart (splitPreimage_perm sort packingVersion short shortOthers same)
  · exact splitPreimage_ne_rangePreimage sort packingVersion members
  · exact fun _ _ _ _ _ _ shortKey shortEtag short shortOther shortOtherEtag shortOtherRange =>
      rangePreimage_inj shortKey shortEtag short shortOther shortOtherEtag shortOtherRange

/-- One key with two ETags: either order of the two members has bytes of its own. -/
theorem member_order_matters :
    [("k", some "\"a\""), ("k", some "\"b\"")].Perm [("k", some "\"b\""), ("k", some "\"a\"")] ∧
    splitPreimage .insertion packingVersion [("k", some "\"a\""), ("k", some "\"b\"")] ≠
      splitPreimage .insertion packingVersion [("k", some "\"b\""), ("k", some "\"a\"")] :=
  ⟨List.Perm.swap _ _ [], by decide⟩

/-- A set with a key once and a member without an ETag has one byte string in both orders. -/
theorem unit_identity_pair :
    splitPreimage .insertion packingVersion [("b", none), ("a", some "\"e\"")] =
      splitPreimage .insertion packingVersion [("a", some "\"e\""), ("b", none)] :=
  ((((unit_identity .insertion).1 [("a", some "\"e\""), ("b", none)] (by decide) (by decide)).mpr
    (by unfold OneEtagPerKey; decide)).1 _ (List.Perm.swap _ _ []))

end Spate.S3
