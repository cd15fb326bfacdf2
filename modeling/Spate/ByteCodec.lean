import Mathlib.Algebra.GroupWithZero.Nat
import Mathlib.Data.List.Basic
import Mathlib.Data.Nat.Log

set_option autoImplicit false

/- Byte strings read from the front: little-endian and LEB128 numbers, counted and
length-prefixed sequences, and the rules by which a reader of a whole format is shown to
invert its writer. -/
namespace Spate.ByteCodec

abbrev Bytes : Type := List UInt8

/-- A reader takes bytes off the front of its input, or refuses it. -/
abbrev Reader (α : Type) : Type := StateT Bytes Option α

variable {α β γ : Type}

/-- `r` reads exactly `bytes` off any input that starts with them, and finds `x` there. -/
def Reads (r : Reader α) (bytes : Bytes) (x : α) : Prop :=
  ∀ rest : Bytes, r (bytes ++ rest) = some (x, rest)

variable {r : Reader α} {x : α} {bytes : Bytes} {n groups : Nat}

theorem reads_pure (x : α) : Reads (pure x) [] x := fun _ => rfl

theorem reads_bind {f : α → Reader β} {front back : Bytes} {y : β} (first : Reads r front x)
    (second : Reads (f x) back y) : Reads (r >>= f) (front ++ back) y := by
  intro rest
  change (r (front ++ back ++ rest)).bind (fun p => f p.1 p.2) = some (y, rest)
  rw [List.append_assoc, first, Option.bind_some]
  exact second rest

theorem reads_pure_bind (f : α → β) (reads : Reads r bytes x) :
    Reads (r >>= fun found => pure (f found)) bytes (f x) := by
  have both := reads_bind (f := fun found => pure (f found)) reads (reads_pure (f x))
  rwa [List.append_nil] at both

theorem reads_map {f : α → β} (reads : Reads r bytes x) : Reads (f <$> r) bytes (f x) := by
  intro rest
  change (r (bytes ++ rest)).bind (fun p => some (f p.1, p.2)) = some (f x, rest)
  rw [reads, Option.bind_some]

/-- A format is unambiguous: one input is read in one way. -/
theorem Reads.unique {y : α} (reads : Reads r bytes x) (also : Reads r bytes y) : x = y := by
  have same := (reads []).symm.trans (also [])
  cases same
  rfl

/-! ## Pieces -/

/-- The next byte. -/
def byte : Reader UInt8 := fun bytes =>
  match bytes with
  | [] => none
  | b :: rest => some (b, rest)

/-- The next `n` bytes. -/
def take (n : Nat) : Reader Bytes := fun bytes =>
  if n ≤ bytes.length then some (bytes.take n, bytes.drop n) else none

theorem reads_byte (b : UInt8) : Reads byte [b] b := fun _ => rfl

theorem reads_take (long : bytes.length = n) : Reads (take n) bytes bytes := by
  intro rest
  subst long
  simp only [take, List.length_append, Nat.le_add_right, ↓reduceIte, List.take_left',
    List.drop_left']

/-- An outcome of decoding what was read: `none` refuses the input. -/
def decoded (x : Option α) : Reader α := fun bytes => x.map (·, bytes)

theorem reads_decoded {x : Option α} {y : α} (found : x = some y) :
    Reads (decoded x) [] y := by
  intro rest
  simp only [decoded, found, Option.map_some, List.nil_append]

/-! ## Sequences -/

/-- Items each read off the front by one reader determine the sequence they were written
from, however many there are. -/
theorem Reads.flatMap_inj {put : α → Bytes} (written : ∀ x, put x ≠ []) {xs ys : List α}
    (left : ∀ x ∈ xs, Reads r (put x) x) (right : ∀ y ∈ ys, Reads r (put y) y)
    (same : xs.flatMap put = ys.flatMap put) : xs = ys := by
  induction xs generalizing ys with
  | nil =>
    cases ys with
    | nil => rfl
    | cons y ys =>
      rw [List.flatMap_nil, List.flatMap_cons] at same
      exact absurd (List.append_eq_nil_iff.mp same.symm).1 (written y)
  | cons x xs ih =>
    cases ys with
    | nil =>
      rw [List.flatMap_nil, List.flatMap_cons] at same
      exact absurd (List.append_eq_nil_iff.mp same).1 (written x)
    | cons y ys =>
      rw [List.flatMap_cons, List.flatMap_cons] at same
      have first := left x List.mem_cons_self (xs.flatMap put)
      rw [same, right y List.mem_cons_self] at first
      obtain ⟨rfl, rest⟩ := Prod.mk.inj (Option.some.inj first)
      rw [ih (fun z member => left z (List.mem_cons_of_mem _ member))
        (fun z member => right z (List.mem_cons_of_mem _ member)) rest.symm]

/-! ## Little-endian numbers -/

/-- The low `width` bytes of `n`, least significant first. -/
def le : Nat → Nat → Bytes
  | 0, _ => []
  | width + 1, n => UInt8.ofNat n :: le width (n / 256)

def fromLe : Bytes → Nat
  | [] => 0
  | b :: rest => b.toNat + 256 * fromLe rest

def readLe (width : Nat) : Reader Nat := fromLe <$> take width

@[simp] theorem le_length (width n : Nat) : (le width n).length = width := by
  induction width generalizing n with
  | zero => rfl
  | succ width ih => rw [le, List.length_cons, ih]

/-- What does not fit is cut off, as a cast to the width does. -/
theorem fromLe_le (width n : Nat) : fromLe (le width n) = n % 256 ^ width := by
  induction width generalizing n with
  | zero => rw [le, fromLe, Nat.pow_zero, Nat.mod_one]
  | succ width ih =>
    have low : (UInt8.ofNat n).toNat = n % 256 := UInt8.toNat_ofNat'
    have wider : 256 ^ (width + 1) = 256 * 256 ^ width := Nat.pow_succ'
    rw [le, fromLe, ih, low, wider, Nat.mod_mul]

theorem reads_le {width : Nat} (fits : n < 256 ^ width) : Reads (readLe width) (le width n) n := by
  have read := reads_map (f := fromLe) (reads_take (le_length width n))
  rwa [fromLe_le, Nat.mod_eq_of_lt fits] at read

/-! ## LEB128 -/

/-- At most `groups` groups of seven bits, least significant first; every group but the
last has its high bit set. -/
def lebGroups : Nat → Nat → Bytes
  | 0, _ => []
  | groups + 1, n =>
    if n / 128 = 0 then [UInt8.ofNat (n % 128)]
    else UInt8.ofNat (n % 128 + 128) :: lebGroups groups (n / 128)

/-- A 64-bit number takes one to ten groups. -/
def leb128 (n : Nat) : Bytes := lebGroups 10 n

/-- Length-prefixed bytes. -/
def prefixed (bytes : Bytes) : Bytes := leb128 bytes.length ++ bytes

/-! ## Text -/

/-- The UTF-8 bytes of a string. -/
def encodeUtf8 (s : String) : Bytes := s.toUTF8.data.toList

/-- The string whose UTF-8 bytes these are, if there is one. -/
def decodeUtf8 (bytes : Bytes) : Option String := String.fromUTF8? ⟨bytes.toArray⟩

theorem decodeUtf8_encodeUtf8 (s : String) : decodeUtf8 (encodeUtf8 s) = some s := by
  have valid : (⟨s.toUTF8.data⟩ : ByteArray).IsValidUTF8 := s.isValidUTF8
  rw [decodeUtf8, encodeUtf8, Array.toArray_toList, String.fromUTF8?, dif_pos valid]
  exact congrArg some (String.toByteArray_inj.mp rfl)

theorem encodeUtf8_of_decodeUtf8 {s : String} (found : decodeUtf8 bytes = some s) :
    encodeUtf8 s = bytes := by
  unfold decodeUtf8 String.fromUTF8? at found
  split at found
  · cases found
    rfl
  · cases found

theorem encodeUtf8_ofList (chars : List Char) :
    encodeUtf8 (String.ofList chars) = chars.flatMap String.utf8EncodeChar := by
  rw [encodeUtf8, String.toUTF8_eq_toByteArray, String.toByteArray_ofList, List.utf8Encode,
    List.toList_data_toByteArray]

end Spate.ByteCodec
