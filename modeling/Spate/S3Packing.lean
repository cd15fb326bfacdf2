import Mathlib.Data.List.Induction
import Spate.S3Notification

set_option autoImplicit false

/- What the lister's packer publishes (`Packer`, `units` and `packed_unit` in `unit.rs`): over
any sequence of pushes and closes the units cover the listing in order, and a reader finds
in each of them what the lister put there. -/
namespace Spate.S3

open Spate.Json (Bytes)
open Spate.ByteCodec (encodeUtf8)
open Spate.JsonText (Json)

/-- The largest body a packed unit carries. -/
def packedBodyMaxBytes : Nat := 48 * 1024

inductive PackerCall
  | push (entry : ObjectEntry)
  | close
  deriving DecidableEq

def pushed (calls : List PackerCall) : List ObjectEntry :=
  calls.filterMap fun
    | .push entry => some entry
    | .close => none

section

variable (addressable : String → Bool) (sha256 : Bytes → Bytes) (sort : KeySort)

def Packer.call (p : Packer) : PackerCall → Packer × List SplitDescriptor
  | .push entry => p.push addressable entry
  | .close => p.close addressable

/-- The packer after the calls, and the units they minted. -/
def packed (packing : Packing) (calls : List PackerCall) : Packer × List SplitDescriptor :=
  calls.foldl (fun (p, units) call =>
    ((p.call addressable call).1, units ++ (p.call addressable call).2)) ({ packing }, [])

/-- The id of a unit: its range's, or its members'. -/
def SplitDescriptor.unitId (unit : SplitDescriptor) : Except SplitError String :=
  match unit.range, unit.objects with
  | some range, [object] => splitIdForRange sha256 object.key (object.etag.getD "") range
  | _, objects => splitIdFor sha256 sort (objects.map fun o => (o.key, o.etag))

def SplitDescriptor.mint (unit : SplitDescriptor) : Except SplitError (String × Bytes) := do
  let id ← unit.unitId sha256 sort
  let body ← unit.encode
  .ok (id, body)

end

/-- `units` name `entries` in order: each whole in one unit, or cut from its start to its end
into the ranges of consecutive units. -/
inductive Covering : List SplitDescriptor → List ObjectEntry → Prop
  | nil : Covering [] []
  | whole {members entries : List ObjectEntry} {units : List SplitDescriptor}
      (some : members ≠ []) (rest : Covering units entries) :
      Covering (⟨members, none⟩ :: units) (members ++ entries)
  | cut {entry : ObjectEntry} {entries : List ObjectEntry} {units : List SplitDescriptor}
      {delimiter : UInt8} {ranges : List SplitRange} (tiles : Cut delimiter 0 ranges entry.size)
      (rest : Covering units entries) :
      Covering (ranges.map (fun range => ⟨[entry], some range⟩) ++ units) (entry :: entries)

variable {entry : ObjectEntry}

theorem Covering.append {front back : List SplitDescriptor} {first second : List ObjectEntry}
    (left : Covering front first) (right : Covering back second) :
    Covering (front ++ back) (first ++ second) := by
  induction left with
  | nil => exact right
  | whole some rest ih =>
    rw [List.cons_append, List.append_assoc]
    exact .whole some ih
  | cut tiles rest ih =>
    rw [List.append_assoc, List.cons_append]
    exact .cut tiles ih

theorem Covering.mem {units : List SplitDescriptor} {entries : List ObjectEntry}
    (covering : Covering units entries) {unit : SplitDescriptor} (one : unit ∈ units)
    (member : entry ∈ unit.objects) : entry ∈ entries := by
  induction covering with
  | nil => cases one
  | whole some rest ih =>
    rcases List.mem_cons.mp one with rfl | later
    · exact List.mem_append_left _ member
    · exact List.mem_append_right _ (ih later)
  | cut tiles rest ih =>
    rcases List.mem_append.mp one with here | later
    · obtain ⟨range, -, rfl⟩ := List.mem_map.mp here
      rw [List.mem_singleton.mp member]
      exact List.mem_cons_self
    · exact List.mem_cons_of_mem _ (ih later)

def totalSize (members : List ObjectEntry) : Nat := (members.map (·.size)).sum

/-- A unit the packer mints, by what decided it. -/
inductive Mintable (addressable : String → Bool) (packing : Packing) : SplitDescriptor → Prop
  | whole {entry : ObjectEntry} (alone : partsOf addressable packing entry = [none]) :
      Mintable addressable packing ⟨[entry], none⟩
  | range {entry : ObjectEntry} {range : SplitRange} {ranges : List SplitRange} {delimiter : UInt8}
      (cut : packing.delimiterFor entry = some delimiter)
      (tiles : Cut delimiter 0 ranges entry.size) (one : range ∈ ranges) :
      Mintable addressable packing ⟨[entry], some range⟩
  | shared {members : List ObjectEntry}
      (several : 2 ≤ members.length ∧ members.length ≤ packMembers)
      (share : ∀ entry ∈ members, Packer.shares addressable { packing } entry = true)
      (fits : min (totalSize members) (2 ^ 64 - 1) ≤ packing.targetBytes) :
      Mintable addressable packing ⟨members, none⟩

section

variable {addressable : String → Bool} {packing : Packing}

theorem aloneUnits_covering (addressable : String → Bool) (target : 0 < packing.targetBytes)
    (entry : ObjectEntry) :
    Covering (aloneUnits addressable packing entry) [entry] ∧
      ∀ unit ∈ aloneUnits addressable packing entry, Mintable addressable packing unit := by
  unfold aloneUnits
  rcases partsOf_cases addressable target entry with whole | ⟨delimiter, ranges, ranged, cut, tiles⟩
  · rw [whole]
    refine ⟨Covering.whole (List.cons_ne_nil entry []) .nil, ?_⟩
    intro unit minted
    rw [List.mem_singleton.mp minted]
    exact .whole whole
  · rw [ranged, List.map_map]
    constructor
    · have covers := Covering.cut tiles .nil
      rwa [List.append_nil] at covers
    · intro unit minted
      obtain ⟨range, one, rfl⟩ := List.mem_map.mp minted
      exact .range cut tiles one

/-- What holds between calls: the units minted so far cover the objects that no longer wait,
and those that wait belong together in one unit. -/
structure Packed (addressable : String → Bool) (packing : Packing) (limit : Nat)
    (s : Packer × List SplitDescriptor) (entries : List ObjectEntry) : Prop where
  config : s.1.packing = packing
  covers : ∃ done, entries = done ++ s.1.opened ∧ Covering s.2 done
  share : ∀ entry ∈ s.1.opened, Packer.shares addressable { packing } entry = true
  bytes : s.1.openBytes = min (totalSize s.1.opened) (2 ^ 64 - 1)
  fits : 2 ≤ s.1.opened.length → s.1.openBytes ≤ packing.targetBytes
  few : s.1.opened.length < limit
  minted : ∀ unit ∈ s.2, Mintable addressable packing unit

theorem Packer.shares_packing {p q : Packer} (same : p.packing = q.packing) (entry : ObjectEntry) :
    p.shares addressable entry = q.shares addressable entry := by
  rw [Packer.shares, Packer.shares, same]

theorem packed_start (addressable : String → Bool) (packing : Packing) :
    Packed addressable packing packMembers ({ packing }, []) [] where
  config := rfl
  covers := ⟨[], rfl, .nil⟩
  share := nofun
  bytes := rfl
  fits := nofun
  few := Nat.zero_lt_succ _
  minted := nofun

variable {limit : Nat} {s : Packer × List SplitDescriptor} {entries : List ObjectEntry}

theorem partsOf_of_shares {entry : ObjectEntry}
    (share : Packer.shares addressable { packing } entry = true) :
    partsOf addressable packing entry = [none] :=
  partsOf_whole (Packer.delimiterFor_of_shares share)

theorem Packed.closed (packed : Packed addressable packing limit s entries)
    (most : limit ≤ packMembers + 1) :
    Covering (s.1.close addressable).2 s.1.opened ∧
      ∀ unit ∈ (s.1.close addressable).2, Mintable addressable packing unit := by
  have share := packed.share
  have fits := packed.fits
  have few := packed.few
  have bytes := packed.bytes
  unfold Packer.close
  rcases opened : s.1.opened with - | ⟨entry, - | ⟨second, rest⟩⟩
  · exact ⟨.nil, nofun⟩
  · have whole := partsOf_of_shares (share entry (by rw [opened]; exact List.mem_cons_self))
    simp only [aloneUnits, packed.config, whole, List.map_cons, List.map_nil, List.take_succ_cons,
      List.take_nil]
    refine ⟨Covering.whole (List.cons_ne_nil entry []) .nil, ?_⟩
    intro unit minted
    rw [List.mem_singleton.mp minted]
    exact .whole whole
  · have several : 2 ≤ (entry :: second :: rest).length := by simp
    rw [opened] at share fits few bytes
    refine ⟨by simpa [packedUnit] using
      Covering.whole (List.cons_ne_nil entry (second :: rest)) .nil,
      ?_⟩
    intro unit minted
    rw [List.mem_singleton.mp minted]
    exact .shared ⟨several, by omega⟩ share (bytes ▸ fits several)

theorem Packed.close (packed : Packed addressable packing limit s entries)
    (most : limit ≤ packMembers + 1) :
    Packed addressable packing packMembers
      ((s.1.close addressable).1, s.2 ++ (s.1.close addressable).2) entries := by
  obtain ⟨done, whole, covering⟩ := packed.covers
  obtain ⟨closes, mintable⟩ := packed.closed most
  refine ⟨packed.config, ⟨entries, (List.append_nil entries).symm, ?_⟩, nofun, rfl, nofun,
    Nat.zero_lt_succ _, ?_⟩
  · rw [whole]
    exact covering.append closes
  · intro unit minted
    rcases List.mem_append.mp minted with before | after
    · exact packed.minted unit before
    · exact mintable unit after

theorem totalSize_append (front back : List ObjectEntry) :
    totalSize (front ++ back) = totalSize front + totalSize back := by
  simp [totalSize]

theorem Packed.add (packed : Packed addressable packing packMembers s entries)
    {entry : ObjectEntry} (share : s.1.shares addressable entry = true)
    (room : s.1.opened = [] ∨ saturatingAdd s.1.openBytes entry.size ≤ packing.targetBytes) :
    Packed addressable packing (packMembers + 1)
      ({ s.1 with opened := s.1.opened ++ [entry],
                  openBytes := saturatingAdd s.1.openBytes entry.size }, s.2)
      (entries ++ [entry]) := by
  obtain ⟨done, whole, covering⟩ := packed.covers
  refine ⟨packed.config, ⟨done, by rw [whole, List.append_assoc], covering⟩, ?_, ?_, ?_, ?_,
    packed.minted⟩
  · intro other waits
    rcases List.mem_append.mp waits with waits | new
    · exact packed.share other waits
    · rw [List.mem_singleton.mp new, ← share]
      exact Packer.shares_packing packed.config.symm entry
  · have bytes := packed.bytes
    simp only [saturatingAdd, totalSize_append] at bytes ⊢
    simp only [totalSize, List.map_cons, List.map_nil, List.sum_cons, List.sum_nil] at bytes ⊢
    omega
  · intro several
    rcases room with empty | room
    · simp [empty] at several
    · exact room
  · have few := packed.few
    simp only [List.length_append, List.length_singleton]
    omega

theorem Packed.alone (packed : Packed addressable packing packMembers s entries)
    (target : 0 < packing.targetBytes) (empty : s.1.opened = []) (entry : ObjectEntry) :
    Packed addressable packing packMembers
      (s.1, s.2 ++ aloneUnits addressable s.1.packing entry) (entries ++ [entry]) := by
  obtain ⟨done, whole, covering⟩ := packed.covers
  obtain ⟨covers, mintable⟩ := aloneUnits_covering addressable target entry
  rw [empty, List.append_nil] at whole
  rw [packed.config]
  refine ⟨packed.config, ⟨entries ++ [entry], ?_, ?_⟩, packed.share, packed.bytes, packed.fits,
    packed.few, ?_⟩
  · simp only [empty, List.append_nil]
  · rw [whole]
    exact covering.append covers
  · intro unit minted
    rcases List.mem_append.mp minted with before | after
    · exact packed.minted unit before
    · exact mintable unit after

theorem Packed.closeIf (packed : Packed addressable packing limit s entries)
    (most : limit ≤ packMembers + 1) (closes : Prop) [Decidable closes]
    (open' : ¬ closes → s.1.opened.length < packMembers) :
    Packed addressable packing packMembers
      ((if closes then s.1.close addressable else (s.1, [])).1,
        s.2 ++ (if closes then s.1.close addressable else (s.1, [])).2) entries := by
  by_cases closing : closes
  · simpa only [if_pos closing] using packed.close most
  · simp only [if_neg closing, List.append_nil]
    exact ⟨packed.config, packed.covers, packed.share, packed.bytes, packed.fits, open' closing,
      packed.minted⟩

theorem Packed.push (packed : Packed addressable packing packMembers s entries)
    (target : 0 < packing.targetBytes) (entry : ObjectEntry) :
    Packed addressable packing packMembers
      ((s.1.push addressable entry).1, s.2 ++ (s.1.push addressable entry).2)
      (entries ++ [entry]) := by
  have before := packed.closeIf (Nat.le_succ _)
    ((!s.1.shares addressable entry || decide (s.1.packing.targetBytes <
      saturatingAdd s.1.openBytes entry.size)) = true) (fun _ => packed.few)
  have room : ∀ next : Packer × List SplitDescriptor,
      next = (if (!s.1.shares addressable entry || decide (s.1.packing.targetBytes <
        saturatingAdd s.1.openBytes entry.size)) = true then s.1.close addressable
        else (s.1, [])) →
      (next.1.opened = [] ∨ s.1.shares addressable entry = true ∧
        saturatingAdd next.1.openBytes entry.size ≤ packing.targetBytes) := by
    rintro next rfl
    split
    · exact .inl rfl
    · rename_i stays
      rw [Bool.or_eq_true, not_or, Bool.not_eq_true', Bool.not_eq_false, decide_eq_true_eq,
        Nat.not_lt, packed.config] at stays
      exact .inr stays
  simp only [Packer.push]
  generalize (if (!s.1.shares addressable entry || decide (s.1.packing.targetBytes <
      saturatingAdd s.1.openBytes entry.size)) = true then s.1.close addressable
      else (s.1, [])) = next at before room ⊢
  have same := room next rfl
  split
  · rename_i shared
    have share : next.1.shares addressable entry = true := by
      rw [← shared]
      exact Packer.shares_packing (before.config.trans packed.config.symm) entry
    have added := before.add share (same.imp_right And.right)
    have after := added.closeIf (Nat.le_refl _)
      ((next.1.opened ++ [entry]).length = packMembers) (fun open' => by
        have few := added.few
        simp only at few ⊢
        omega)
    simpa only [List.append_assoc] using after
  · rename_i alone
    have empty : next.1.opened = [] := same.resolve_right fun shared => alone shared.1
    have follows := before.alone target empty entry
    simpa only [List.append_assoc] using follows

theorem packed_calls (addressable : String → Bool) (target : 0 < packing.targetBytes)
    (calls : List PackerCall) :
    Packed addressable packing packMembers (packed addressable packing calls) (pushed calls) := by
  induction calls using List.reverseRecOn with
  | nil => exact packed_start addressable packing
  | append_singleton calls call ih =>
    rw [packed, List.foldl_append]
    change Packed addressable packing packMembers
      (((packed addressable packing calls).1.call addressable call).1,
        (packed addressable packing calls).2 ++
          ((packed addressable packing calls).1.call addressable call).2) _
    rw [pushed, List.filterMap_append]
    cases call with
    | push entry => exact ih.push target entry
    | close =>
      have closed := ih.close (Nat.le_succ _)
      rw [← List.append_nil (pushed calls)] at closed
      exact closed

/-! ## What a reader finds -/

variable {unit : SplitDescriptor}

theorem Mintable.named (mintable : Mintable addressable packing unit) :
    ¬ (unit.objects.isEmpty = true ∨ maxUnitMembers < unit.objects.length) := by
  cases mintable with
  | whole | range => exact not_or.mpr ⟨nofun, (by decide : ¬ maxUnitMembers < 1)⟩
  | shared several =>
    have most : packMembers ≤ maxUnitMembers := by decide
    rw [not_or, List.isEmpty_iff]
    refine ⟨?_, by dsimp only; omega⟩
    rintro rfl
    exact absurd several.1 (by decide)

theorem Mintable.validateRange (mintable : Mintable addressable packing unit) :
    unit.validateRange = .ok () := by
  cases mintable with
  | whole | shared => rfl
  | range cut tiles one =>
    have bounds := tiles.mem one
    have etag := (delimiterFor_some cut).2.2.1
    simp only [SplitDescriptor.validateRange]
    rw [if_neg (by rw [Option.isNone_iff_eq_none]; exact Option.ne_none_iff_isSome.mpr etag),
      if_neg (by omega)]

theorem Mintable.sized (mintable : Mintable addressable packing unit)
    (objects : ∀ entry ∈ unit.objects, entry.Sized) : unit.Sized := by
  refine ⟨objects, ?_⟩
  cases mintable with
  | whole | shared => nofun
  | range cut tiles one =>
    rintro other ⟨⟩
    have bounds := tiles.mem one
    have size := (objects _ List.mem_cons_self).size
    omega

theorem Mintable.encode (mintable : Mintable addressable packing unit) :
    unit.encode = .ok (bodyOf unit.toJson) := by
  rw [SplitDescriptor.encode, mintable.validateRange]
  rfl

/-- A unit whose ETags can be sent is opened as the one part it names. -/
theorem Mintable.descriptorParts {libraries : Libraries}
    (mintable : Mintable libraries.addressable packing unit)
    (objects : ∀ entry ∈ unit.objects, entry.Sized)
    (sends : (unit.objects.find? fun e => e.etag.any fun etag => !sendable etag) = none) :
    ∃ cursor, descriptorParts libraries (bodyOf unit.toJson) packing = .ok [cursor] ∧
      cursor.parts = [⟨unit.objects, unit.range, .lister⟩] := by
  rw [S3.descriptorParts,
    SplitDescriptor.decode_bodyOf libraries (mintable.sized objects) mintable.validateRange]
  dsimp only
  rw [if_neg mintable.named, sends]
  cases mintable with
  | whole alone =>
    dsimp only
    rw [partsCursor, alone]
    exact ⟨_, rfl, rfl⟩
  | range cut tiles one =>
    obtain ⟨delimiter, -, -, plain⟩ := delimiterFor_some cut
    have same := (tiles.mem one).2.2
    dsimp only
    rw [if_neg (by rw [delimiter, same]; simp), if_neg (by simp [plain])]
    exact ⟨_, rfl, rfl⟩
  | @shared members several share fits =>
    obtain - | ⟨first, - | ⟨second, rest⟩⟩ := members
    · exact absurd several.1 (by simp)
    · exact absurd several.1 (by simp)
    · exact ⟨_, rfl, rfl⟩

/-- A reader of the same packing finds the part a unit names, unless an ETag in it cannot be
sent. -/
theorem Mintable.decode {libraries : Libraries} (scope : Scope)
    (mintable : Mintable libraries.addressable packing unit)
    (objects : ∀ entry ∈ unit.objects, entry.Sized) :
    (∃ cursor, decode libraries scope packing (bodyOf unit.toJson) = .read [cursor] ∧
        cursor.parts = [⟨unit.objects, unit.range, .lister⟩]) ∨
      ∃ entry ∈ unit.objects, ∃ etag ∈ entry.etag, sendable etag = false ∧
        decode libraries scope packing (bodyOf unit.toJson) =
          .fail s!"the unit's ETag for \"{entry.key}\" cannot be sent in `If-Match`" := by
  have tree := treeOf_bodyOf libraries (SplitDescriptor.fits_toJson (mintable.sized objects))
  have versioned : (getField "v" unit.toJson).isSome = true := by
    rw [unit.version_toJson]
    rfl
  simp only [S3.decode, tree, versioned, ↓reduceIte]
  cases sends : unit.objects.find? fun e => e.etag.any fun etag => !sendable etag with
  | none =>
    obtain ⟨cursor, opened, parts⟩ := mintable.descriptorParts objects sends
    rw [opened]
    exact .inl ⟨cursor, rfl, parts⟩
  | some entry =>
    have unsent := List.find?_some sends
    rw [Option.any_eq_true] at unsent
    obtain ⟨etag, found, refused⟩ := unsent
    refine .inr ⟨entry, List.mem_of_find?_eq_some sends, etag, found, by simpa using refused, ?_⟩
    rw [S3.descriptorParts,
      SplitDescriptor.decode_bodyOf libraries (mintable.sized objects) mintable.validateRange]
    dsimp only
    rw [if_neg mintable.named, sends]

end

/-! ## How long a body is -/

def textBytes (text : List Char) : Nat := (text.map Char.utf8Size).sum

theorem encodeUtf8_length (text : List Char) :
    (encodeUtf8 (String.ofList text)).length = textBytes text := by
  rw [ByteCodec.encodeUtf8_ofList, List.length_flatMap, textBytes]
  simp only [String.length_utf8EncodeChar]

@[simp] theorem textBytes_nil : textBytes [] = 0 := rfl

@[simp] theorem textBytes_cons (c : Char) (text : List Char) :
    textBytes (c :: text) = c.utf8Size + textBytes text := rfl

@[simp] theorem textBytes_append (front back : List Char) :
    textBytes (front ++ back) = textBytes front + textBytes back := by
  simp [textBytes]

theorem textBytes_toList (s : String) : textBytes s.toList = s.utf8ByteSize := by
  rw [← encodeUtf8_length, String.ofList_toList]
  rfl

/-- A character that no `\u` escape is written for takes at most twice its bytes. -/
theorem textBytes_escapeChar {c : Char} (visible : c = '\t' ∨ 32 ≤ c.toNat) :
    textBytes (JsonText.escapeChar c) ≤ 2 * c.utf8Size := by
  have one : 1 ≤ c.utf8Size := c.utf8Size_pos
  unfold JsonText.escapeChar
  split_ifs with quote backslash back tab line page carriage control
  · exact Nat.mul_le_mul_left 2 one
  · exact Nat.mul_le_mul_left 2 one
  · exact Nat.mul_le_mul_left 2 one
  · exact Nat.mul_le_mul_left 2 one
  · exact Nat.mul_le_mul_left 2 one
  · exact Nat.mul_le_mul_left 2 one
  · exact Nat.mul_le_mul_left 2 one
  · rcases visible with visible | visible
    · exact absurd visible tab
    · omega
  · simp only [textBytes_cons, textBytes_nil]
    omega

theorem textBytes_escaped {text : List Char} (visible : ∀ c ∈ text, c = '\t' ∨ 32 ≤ c.toNat) :
    textBytes (text.flatMap JsonText.escapeChar) ≤ 2 * textBytes text := by
  induction text with
  | nil => exact Nat.le_refl 0
  | cons c text ih =>
    have first := textBytes_escapeChar (visible c List.mem_cons_self)
    have later := ih fun d member => visible d (List.mem_cons_of_mem c member)
    rw [List.flatMap_cons, textBytes_append, textBytes_cons]
    omega

theorem textBytes_renderString {s : String} (visible : ∀ c ∈ s.toList, c = '\t' ∨ 32 ≤ c.toNat) :
    textBytes (JsonText.renderString s) ≤ 2 * s.utf8ByteSize + 2 := by
  have escaped := textBytes_escaped visible
  have quote : ('\x22').utf8Size = 1 := by decide
  rw [textBytes_toList] at escaped
  rw [JsonText.renderString, textBytes_cons, textBytes_append, textBytes_cons, textBytes_nil, quote]
  omega

theorem utf8Size_digit {c : Char} (digit : c.isDigit = true) : c.utf8Size = 1 := by
  rw [Char.utf8Size_eq_one_iff]
  simp only [Char.isDigit, Bool.and_eq_true, decide_eq_true_eq] at digit
  exact UInt32.le_trans digit.2 (by decide)

theorem textBytes_digits {digits : List Char} (all : ∀ c ∈ digits, c.isDigit = true) :
    textBytes digits = digits.length := by
  induction digits with
  | nil => rfl
  | cons c digits ih =>
    rw [textBytes_cons, utf8Size_digit (all c List.mem_cons_self),
      ih fun d member => all d (List.mem_cons_of_mem c member), List.length_cons, Nat.add_comm]

theorem textBytes_renderInt {n : Int} (fits : JsonText.fitsInt n = true) :
    textBytes (JsonText.renderInt n) ≤ 20 := by
  simp only [JsonText.fitsInt, decide_eq_true_eq] at fits
  cases n with
  | ofNat n =>
    rw [JsonText.renderInt, textBytes_digits (JsonText.toDigits_isDigit n),
      Nat.length_toDigits_le_iff (by decide) (by decide)]
    have bound := fits.2
    rw [Int.ofNat_eq_natCast] at bound
    omega
  | negSucc n =>
    have minus : ('-').utf8Size = 1 := by decide
    have digits : (Nat.toDigits 10 (n + 1)).length ≤ 19 := by
      rw [Nat.length_toDigits_le_iff (by decide) (by decide)]
      have bound := fits.1
      omega
    rw [JsonText.renderInt, textBytes_cons, minus,
      textBytes_digits (JsonText.toDigits_isDigit (n + 1))]
    omega

/-- A member whose texts are written with at most two bytes a byte. -/
structure PlainMember (entry : ObjectEntry) : Prop where
  sized : entry.Sized
  key : entry.key.utf8ByteSize ≤ packKeyMaxBytes
  keyVisible : ∀ c ∈ entry.key.toList, c = '\t' ∨ 32 ≤ c.toNat
  etag : ∀ etag ∈ entry.etag, etag.utf8ByteSize ≤ packEtagMaxBytes ∧
    ∀ c ∈ etag.toList, c = '\t' ∨ 32 ≤ c.toNat

theorem textBytes_member (plain : PlainMember entry) :
    textBytes (JsonText.render entry.toJson) ≤ 2648 := by
  have key := textBytes_renderString plain.keyVisible
  have keyMost : entry.key.utf8ByteSize ≤ 1024 := plain.key
  have size := textBytes_renderInt (fitsInt_natCast plain.sized.size)
  have modified : textBytes (JsonText.renderInt entry.lastModifiedMs) ≤ 20 := by
    apply textBytes_renderInt
    have inside := plain.sized.modified
    simp only [JsonText.fitsInt, decide_eq_true_eq]
    omega
  have etag : textBytes (JsonText.render (orNull .str entry.etag)) ≤ 514 := by
    cases found : entry.etag with
    | none => decide
    | some etag =>
      have few := plain.etag etag found
      have most : etag.utf8ByteSize ≤ 256 := few.1
      have string := textBytes_renderString few.2
      rw [orNull, JsonText.render]
      omega
  have names : textBytes (JsonText.renderString "key") = 5 ∧
      textBytes (JsonText.renderString "size") = 6 ∧ textBytes (JsonText.renderString "etag") = 6 ∧
      textBytes (JsonText.renderString "last_modified_ms") = 18 := by decide
  have marks : ('\x7b').utf8Size = 1 ∧ ('\x7d').utf8Size = 1 ∧ (':').utf8Size = 1 ∧
      (',').utf8Size = 1 := by decide
  simp only [ObjectEntry.toJson, JsonText.render, JsonText.renderEntries, List.isEmpty_cons,
    List.isEmpty_nil, Bool.false_eq_true, ↓reduceIte, List.append_nil, textBytes_append,
    textBytes_cons, textBytes_nil, names, marks]
  omega

theorem textBytes_members {members : List ObjectEntry}
    (plain : ∀ entry ∈ members, PlainMember entry) :
    textBytes (JsonText.renderElems (members.map ObjectEntry.toJson)) ≤ 2649 * members.length := by
  have comma : (',').utf8Size = 1 := by decide
  induction members with
  | nil => exact Nat.le_refl 0
  | cons entry members ih =>
    have first := textBytes_member (plain entry List.mem_cons_self)
    have later := ih fun other member => plain other (List.mem_cons_of_mem entry member)
    rw [List.map_cons, JsonText.renderElems, textBytes_append, List.length_cons]
    split
    · rw [textBytes_nil]
      omega
    · rw [textBytes_cons, comma]
      omega

theorem packedBody_length {members : List ObjectEntry} (few : members.length ≤ packMembers)
    (plain : ∀ entry ∈ members, PlainMember entry) :
    (bodyOf (SplitDescriptor.toJson ⟨members, none⟩)).length ≤ packedBodyMaxBytes := by
  have most : members.length ≤ 16 := few
  have bytes := textBytes_members plain
  have names : textBytes (JsonText.renderString "v") = 3 ∧
      textBytes (JsonText.renderString "objects") = 9 := by decide
  have version : textBytes (JsonText.renderInt descriptorVersion) = 1 := by decide
  have marks : ('\x7b').utf8Size = 1 ∧ ('\x7d').utf8Size = 1 ∧ (':').utf8Size = 1 ∧
      (',').utf8Size = 1 ∧ ('[').utf8Size = 1 ∧ (']').utf8Size = 1 := by decide
  rw [bodyOf, encodeUtf8_length]
  simp only [SplitDescriptor.toJson, Option.map_none, Option.toList_none, List.append_nil,
    JsonText.render, JsonText.renderEntries, List.isEmpty_cons, List.isEmpty_nil,
    Bool.false_eq_true, ↓reduceIte, textBytes_append, textBytes_cons, textBytes_nil, names, marks,
    version, packedBodyMaxBytes]
  omega

/-! ## The listing alone decides the ids -/

def ObjectEntry.unstamped (entry : ObjectEntry) : ObjectEntry := { entry with lastModifiedMs := 0 }

def SplitDescriptor.unstamped (unit : SplitDescriptor) : SplitDescriptor :=
  ⟨unit.objects.map ObjectEntry.unstamped, unit.range⟩

def Packer.unstamped (p : Packer) : Packer :=
  ⟨p.packing, p.opened.map ObjectEntry.unstamped, p.openBytes⟩

def PackerCall.unstamped : PackerCall → PackerCall
  | .push entry => .push entry.unstamped
  | .close => .close

section

variable (addressable : String → Bool) (sha256 : Bytes → Bytes) (sort : KeySort)

theorem aloneUnits_unstamped (packing : Packing) (entry : ObjectEntry) :
    aloneUnits addressable packing entry.unstamped =
      (aloneUnits addressable packing entry).map SplitDescriptor.unstamped := by
  rw [aloneUnits, aloneUnits, List.map_map]
  rfl

theorem close_unstamped (p : Packer) :
    p.unstamped.close addressable =
      ((p.close addressable).1.unstamped,
        (p.close addressable).2.map SplitDescriptor.unstamped) := by
  obtain ⟨packing, opened, bytes⟩ := p
  obtain - | ⟨first, - | ⟨second, rest⟩⟩ := opened
  · rfl
  · simp only [Packer.close, Packer.unstamped, List.map_cons, List.map_nil, aloneUnits_unstamped,
      List.map_take]
  · rfl

theorem closeIf_unstamped (p : Packer) (closes : Prop) [Decidable closes] :
    (if closes then p.unstamped.close addressable else (p.unstamped, [])) =
      ((if closes then p.close addressable else (p, [])).1.unstamped,
        (if closes then p.close addressable else (p, [])).2.map SplitDescriptor.unstamped) := by
  split
  · exact close_unstamped addressable p
  · rfl

/-- What a push does once the open unit was closed or left open. -/
def Packer.join (shared : Bool) (entry : ObjectEntry) (room : Packer × List SplitDescriptor) :
    Packer × List SplitDescriptor :=
  if shared then
    let p : Packer := ⟨room.1.packing, room.1.opened ++ [entry],
      saturatingAdd room.1.openBytes entry.size⟩
    let after := if p.opened.length = packMembers then p.close addressable else (p, [])
    (after.1, room.2 ++ after.2)
  else (room.1, room.2 ++ aloneUnits addressable room.1.packing entry)

theorem push_eq_join (p : Packer) (entry : ObjectEntry) :
    p.push addressable entry = Packer.join addressable (p.shares addressable entry) entry
      (if (!p.shares addressable entry || decide (p.packing.targetBytes <
        saturatingAdd p.openBytes entry.size)) = true then p.close addressable else (p, [])) :=
  rfl

theorem join_unstamped (shared : Bool) (entry : ObjectEntry)
    (room : Packer × List SplitDescriptor) :
    Packer.join addressable shared entry.unstamped
        (room.1.unstamped, room.2.map SplitDescriptor.unstamped) =
      ((Packer.join addressable shared entry room).1.unstamped,
        (Packer.join addressable shared entry room).2.map SplitDescriptor.unstamped) := by
  unfold Packer.join
  cases shared with
  | false =>
    simp only [Bool.false_eq_true, ↓reduceIte, List.map_append, ← aloneUnits_unstamped]
    rfl
  | true =>
    have waits : room.1.unstamped.opened ++ [entry.unstamped] =
        (room.1.opened ++ [entry]).map ObjectEntry.unstamped := by
      rw [List.map_append]
      rfl
    have closed := close_unstamped addressable
      ⟨room.1.packing, room.1.opened ++ [entry], saturatingAdd room.1.openBytes entry.size⟩
    simp only [↓reduceIte, waits, List.length_map]
    by_cases full : (room.1.opened ++ [entry]).length = packMembers
    · simp only [if_pos full, List.map_append (f := SplitDescriptor.unstamped)]
      have left := congrArg Prod.fst closed
      have right := congrArg Prod.snd closed
      exact Prod.ext left (congrArg (room.2.map SplitDescriptor.unstamped ++ ·) right)
    · simp only [if_neg full, List.append_nil]
      rfl

theorem push_unstamped (p : Packer) (entry : ObjectEntry) :
    p.unstamped.push addressable entry.unstamped =
      ((p.push addressable entry).1.unstamped,
        (p.push addressable entry).2.map SplitDescriptor.unstamped) := by
  have before := closeIf_unstamped addressable p ((!p.shares addressable entry ||
    decide (p.packing.targetBytes < saturatingAdd p.openBytes entry.size)) = true)
  rw [push_eq_join, push_eq_join, ← join_unstamped, ← before]
  rfl

theorem packed_unstamped (packing : Packing) (calls : List PackerCall) :
    packed addressable packing (calls.map PackerCall.unstamped) =
      ((packed addressable packing calls).1.unstamped,
        (packed addressable packing calls).2.map SplitDescriptor.unstamped) := by
  induction calls using List.reverseRecOn with
  | nil => rfl
  | append_singleton calls call ih =>
    have step (calls : List PackerCall) (call : PackerCall) :
        packed addressable packing (calls ++ [call]) =
          (((packed addressable packing calls).1.call addressable call).1,
            (packed addressable packing calls).2 ++
              ((packed addressable packing calls).1.call addressable call).2) := by
      rw [packed, List.foldl_append]
      rfl
    rw [List.map_append, List.map_singleton, step, step, ih, List.map_append]
    cases call with
    | push entry =>
      simp only [Packer.call, PackerCall.unstamped, push_unstamped]
    | close =>
      simp only [Packer.call, PackerCall.unstamped, close_unstamped]

theorem unitId_unstamped (unit : SplitDescriptor) :
    unit.unstamped.unitId sha256 sort = unit.unitId sha256 sort := by
  obtain ⟨objects, range⟩ := unit
  obtain - | ⟨first, - | ⟨second, rest⟩⟩ := objects <;> cases range <;>
    simp [SplitDescriptor.unitId, SplitDescriptor.unstamped, ObjectEntry.unstamped,
      Function.comp_def]

/-- The ids of what is minted do not depend on when the objects were last modified. -/
theorem unitIds_unstamped (packing : Packing) {calls others : List PackerCall}
    (same : others.map PackerCall.unstamped = calls.map PackerCall.unstamped) :
    (packed addressable packing others).2.map (SplitDescriptor.unitId sha256 sort) =
      (packed addressable packing calls).2.map (SplitDescriptor.unitId sha256 sort) := by
  have ids (calls : List PackerCall) :
      (packed addressable packing calls).2.map (SplitDescriptor.unitId sha256 sort) =
        (packed addressable packing (calls.map PackerCall.unstamped)).2.map
          (SplitDescriptor.unitId sha256 sort) := by
    rw [packed_unstamped, List.map_map]
    exact List.map_congr_left fun unit _ => (unitId_unstamped sha256 sort unit).symm
  rw [ids others, same, ← ids calls]

end

theorem Mintable.unitId {addressable : String → Bool} {packing : Packing} {unit : SplitDescriptor}
    (sha256 : Bytes → Bytes) (sort : KeySort) (mintable : Mintable addressable packing unit) :
    ∃ id, unit.unitId sha256 sort = .ok id := by
  cases mintable with
  | whole => exact ⟨_, rfl⟩
  | range cut tiles one =>
    have bounds := tiles.mem one
    refine ⟨_, if_neg (by omega)⟩
  | @shared members several share fits =>
    refine ⟨_, if_neg ?_⟩
    rw [List.isEmpty_iff, List.map_eq_nil_iff]
    rintro rfl
    exact absurd several.1 (by decide)

/-- Members that share a unit are written plainly, as far as an addressable key holds no
control character. -/
theorem plainMember_of_shares {addressable : String → Bool} {packing : Packing}
    (visible : ∀ key, addressable key = true → ∀ c ∈ key.toList, 32 ≤ c.toNat)
    (sized : entry.Sized) (share : Packer.shares addressable { packing } entry = true) :
    PlainMember entry := by
  simp only [Packer.shares, Bool.and_eq_true, decide_eq_true_eq] at share
  obtain ⟨⟨⟨-, named⟩, key⟩, etag⟩ := share
  refine ⟨sized, key, fun c member => .inr (visible _ named c member), ?_⟩
  intro tag found
  rw [found, Option.all_some, Bool.and_eq_true, decide_eq_true_eq, sendable] at etag
  refine ⟨etag.1, fun c member => ?_⟩
  have sends := List.all_eq_true.mp etag.2 c member
  simp only [Bool.or_eq_true, Bool.and_eq_true, decide_eq_true_eq] at sends
  rcases sends with tab | ⟨above, -⟩
  · left
    apply Char.toNat_inj.mp
    rw [tab]
    rfl
  · exact .inr above

/-- Whatever is pushed and wherever the open unit is closed, the units cover the listing in
order; a shared unit has two to sixteen members within the target and a small body; and a
reader of the same packing opens each unit as what it names, unless an ETag cannot be sent.
The ids depend on the keys, sizes and ETags alone. -/
theorem packing_covers (libraries : Libraries) (sha256 : Bytes → Bytes) (sort : KeySort)
    (scope : Scope) (packing : Packing) (calls : List PackerCall)
    (target : 1 ≤ packing.targetBytes)
    (visible : ∀ key, libraries.addressable key = true → ∀ c ∈ key.toList, 32 ≤ c.toNat)
    (listed : ∀ entry ∈ pushed calls, entry.Sized) :
    Covering ((packed libraries.addressable packing calls).2 ++
        ((packed libraries.addressable packing calls).1.close libraries.addressable).2)
      (pushed calls) ∧
    (∃ done, pushed calls = done ++ (packed libraries.addressable packing calls).1.opened ∧
      Covering (packed libraries.addressable packing calls).2 done) ∧
    (∀ unit ∈ (packed libraries.addressable packing calls).2, ∃ id body,
      unit.mint sha256 sort = .ok (id, body) ∧
      (1 < unit.objects.length → unit.range = none ∧ unit.objects.length ≤ 16 ∧
        min (totalSize unit.objects) (2 ^ 64 - 1) ≤ packing.targetBytes ∧
        body.length ≤ 48 * 1024) ∧
      ((∃ cursor, decode libraries scope packing body = .read [cursor] ∧
          cursor.parts = [⟨unit.objects, unit.range, .lister⟩]) ∨
        ∃ entry ∈ unit.objects, ∃ etag ∈ entry.etag, sendable etag = false ∧
          decode libraries scope packing body =
            .fail s!"the unit's ETag for \"{entry.key}\" cannot be sent in `If-Match`")) ∧
    (∀ others : List PackerCall,
      others.map PackerCall.unstamped = calls.map PackerCall.unstamped →
      (packed libraries.addressable packing others).2.map (SplitDescriptor.unitId sha256 sort) =
        (packed libraries.addressable packing calls).2.map
          (SplitDescriptor.unitId sha256 sort)) := by
  have state := packed_calls libraries.addressable target calls
  obtain ⟨done, whole, covering⟩ := state.covers
  refine ⟨?_, ⟨done, whole, covering⟩, ?_, fun others same =>
    unitIds_unstamped libraries.addressable sha256 sort packing same⟩
  · rw [whole]
    exact covering.append (state.closed (Nat.le_succ _)).1
  · intro unit minted
    have mintable := state.minted unit minted
    have objects (entry : ObjectEntry) (member : entry ∈ unit.objects) : entry.Sized :=
      listed entry (whole ▸ List.mem_append_left _ (covering.mem minted member))
    obtain ⟨id, named⟩ := mintable.unitId sha256 sort
    refine ⟨id, bodyOf unit.toJson, ?_, ?_, mintable.decode scope objects⟩
    · rw [SplitDescriptor.mint, named, mintable.encode]
      rfl
    · intro several
      cases mintable with
      | whole | range => exact absurd several (by simp)
      | shared members share fits =>
        exact ⟨rfl, members.2, fits, packedBody_length members.2 fun entry member =>
          plainMember_of_shares visible (objects entry member) (share entry member)⟩

/-- Two small objects and one that is cut: the two share a unit, the other has two ranges. -/
theorem packing_covers_three :
    (packed (fun key => key.toList.all fun c => decide (32 ≤ c.toNat)) ⟨4, .none, some 10⟩
        [.push ⟨"a", 1, none, 7⟩, .push ⟨"b", 2, some "\"e\"", 8⟩,
          .push ⟨"c", 6, some "\"f\"", 9⟩]).2 =
      [⟨[⟨"a", 1, none, 7⟩, ⟨"b", 2, some "\"e\"", 8⟩], none⟩,
        ⟨[⟨"c", 6, some "\"f\"", 9⟩], some ⟨0, 3, 10⟩⟩,
        ⟨[⟨"c", 6, some "\"f\"", 9⟩], some ⟨3, 6, 10⟩⟩] ∧
    Covering (packed (fun key => key.toList.all fun c => decide (32 ≤ c.toNat)) ⟨4, .none, some 10⟩
        [.push ⟨"a", 1, none, 7⟩, .push ⟨"b", 2, some "\"e\"", 8⟩,
          .push ⟨"c", 6, some "\"f\"", 9⟩]).2
      [⟨"a", 1, none, 7⟩, ⟨"b", 2, some "\"e\"", 8⟩, ⟨"c", 6, some "\"f\"", 9⟩] := by
  refine ⟨by decide, ?_⟩
  have covers := (packing_covers ⟨fun key => key.toList.all fun c => decide (32 ≤ c.toNat),
    fun _ => true, fun _ => "", fun _ => "", fun _ => "", fun _ => none⟩ id .insertion
    ⟨none, ""⟩ ⟨4, .none, some 10⟩ [.push ⟨"a", 1, none, 7⟩, .push ⟨"b", 2, some "\"e\"", 8⟩,
      .push ⟨"c", 6, some "\"f\"", 9⟩] (by decide) (by simp)
    (by
      intro entry member
      simp only [pushed, List.filterMap_cons, List.filterMap_nil, List.mem_cons,
        List.not_mem_nil, or_false] at member
      rcases member with rfl | rfl | rfl <;> exact ⟨by decide, by decide⟩)).1
  exact covers

/-- At the largest target two objects of half the number space each share a unit, and their
bytes together are past the target. -/
theorem saturated_target_exceeded :
    (packed (fun _ => true) ⟨2 ^ 64 - 1, .none, none⟩
        [.push ⟨"a", 2 ^ 63, none, 0⟩, .push ⟨"b", 2 ^ 63, none, 0⟩, .close]).2 =
      [⟨[⟨"a", 2 ^ 63, none, 0⟩, ⟨"b", 2 ^ 63, none, 0⟩], none⟩] ∧
    2 ^ 64 - 1 < totalSize [⟨"a", 2 ^ 63, none, 0⟩, ⟨"b", 2 ^ 63, none, 0⟩] := by
  decide

end Spate.S3
