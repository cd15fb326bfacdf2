import Mathlib.Algebra.Order.Floor.Div
import Spate.RangeTrim

set_option autoImplicit false

/- The machine arithmetic of `tile` (`split.rs`): the number of ranges is a rounded 64-bit
quotient and every boundary a 128-bit product over it, cast back to 64 bits. -/
namespace Spate.S3

/-- `u64::div_ceil`. -/
def divCeil (a b : UInt64) : UInt64 := if a % b = 0 then a / b else a / b + 1

/-- `u128::from`. -/
def wide (a : UInt64) : BitVec 128 := a.toBitVec.setWidth 128

/-- Where range `i` of `n` starts: `(i * size / n) as u64`, in 128 bits before the cast. -/
def boundary (size n i : UInt64) : UInt64 := ⟨(wide i * wide size / wide n).setWidth 64⟩

/-- `tile` in the machine's words. -/
def tileWords (size target : UInt64) (delimiter : UInt8) : List SplitRange :=
  let n := divCeil size target
  (List.range n.toNat).map fun i =>
    let i := UInt64.ofNat i
    ⟨(boundary size n i).toNat, (boundary size n (i + 1)).toNat, delimiter⟩

theorem wide_toNat (a : UInt64) : (wide a).toNat = a.toNat := by
  have bound := a.toNat_lt
  simp only [wide, BitVec.toNat_setWidth, UInt64.toNat_toBitVec]
  omega

theorem product_lt {i size : Nat} (first : i < 2 ^ 64) (second : size < 2 ^ 64) :
    i * size < 2 ^ 128 :=
  calc i * size ≤ 2 ^ 64 * size := Nat.mul_le_mul_right _ (Nat.le_of_lt first)
    _ < 2 ^ 64 * 2 ^ 64 := Nat.mul_lt_mul_of_pos_left second (by decide)
    _ = 2 ^ 128 := by decide

theorem quotient_le {i n size : Nat} (inside : i ≤ n) : i * size / n ≤ size := by
  apply Nat.div_le_of_le_mul
  exact Nat.mul_le_mul_right size inside

/-- The product fits 128 bits, and the quotient of a boundary within the object fits 64. -/
theorem boundary_toNat {size n i : UInt64} (inside : i.toNat ≤ n.toNat) :
    (boundary size n i).toNat = i.toNat * size.toNat / n.toNat := by
  have product := product_lt i.toNat_lt size.toNat_lt
  have quotient : i.toNat * size.toNat / n.toNat < 2 ^ 64 :=
    Nat.lt_of_le_of_lt (quotient_le inside) size.toNat_lt
  change ((wide i * wide size / wide n).setWidth 64).toNat = _
  simp only [BitVec.toNat_setWidth, BitVec.toNat_udiv, BitVec.toNat_mul, wide_toNat,
    Nat.mod_eq_of_lt product, Nat.mod_eq_of_lt quotient]

section

variable {size target : Nat}

theorem ceilDiv_pos (nonempty : 0 < size) (positive : 0 < target) : 0 < size ⌈/⌉ target := by
  rw [Nat.ceilDiv_eq_add_pred_div]
  exact Nat.div_pos (by omega) positive

theorem ceilDiv_le (positive : 0 < target) : size ⌈/⌉ target ≤ size :=
  (ceilDiv_le_iff_le_mul positive).mpr (Nat.le_mul_of_pos_left size positive)

/-- The ranges are no more than enough: one fewer of the target's size leaves bytes over. -/
theorem ceilDiv_pred_mul_lt (nonempty : 0 < size) (positive : 0 < target) :
    (size ⌈/⌉ target - 1) * target < size := by
  have some := ceilDiv_pos nonempty positive
  by_contra short
  have less : size ⌈/⌉ target ≤ size ⌈/⌉ target - 1 :=
    (ceilDiv_le_iff_le_mul positive).mpr (by rw [Nat.mul_comm]; omega)
  omega

theorem tile_eq (delimiter : UInt8) :
    tile size target delimiter = (List.range (size ⌈/⌉ target)).map fun i =>
      ⟨i * size / (size ⌈/⌉ target), (i + 1) * size / (size ⌈/⌉ target), delimiter⟩ := by
  rw [tile, Nat.ceilDiv_eq_add_pred_div]

theorem step_le {n : Nat} (some : 0 < n) (room : size ≤ n * target) (i : Nat) :
    (i + 1) * size / n - i * size / n ≤ target := by
  have upper : (i + 1) * size / n ≤ i * size / n + target :=
    calc (i + 1) * size / n
      _ ≤ (i * size + n * target) / n := by
        apply Nat.div_le_div_right
        rw [Nat.succ_mul]
        omega
      _ = i * size / n + target := Nat.add_mul_div_left _ _ some
  omega

theorem le_step {n share : Nat} (some : 0 < n) (full : n * share ≤ size) (i : Nat) :
    share ≤ (i + 1) * size / n - i * size / n := by
  have lower : i * size / n + share ≤ (i + 1) * size / n :=
    calc i * size / n + share
      _ = (i * size + n * share) / n := (Nat.add_mul_div_left _ _ some).symm
      _ ≤ (i + 1) * size / n := by
        apply Nat.div_le_div_right
        rw [Nat.succ_mul]
        omega
  omega

/-- Half the target fits every share once the object is cut at all: with `n ≥ 2` ranges,
`n * (target / 2) ≤ (n - 1) * target < size`. -/
theorem ceilDiv_mul_half_le (positive : 0 < target) (large : target < size) :
    size ⌈/⌉ target * (target / 2) ≤ size := by
  have below := ceilDiv_pred_mul_lt (Nat.lt_trans positive large) positive
  have several : 2 ≤ size ⌈/⌉ target := by
    by_contra single
    have fits : size ≤ target * 1 := (ceilDiv_le_iff_le_mul positive).mp (by omega)
    omega
  generalize size ⌈/⌉ target = n at below several
  obtain ⟨k, rfl⟩ : ∃ k, n = k + 2 := ⟨n - 2, by omega⟩
  have halves : 2 * (target / 2) ≤ target := Nat.mul_div_le target 2
  calc (k + 2) * (target / 2)
    _ = k * (target / 2) + 2 * (target / 2) := Nat.add_mul ..
    _ ≤ k * target + target :=
      Nat.add_le_add (Nat.mul_le_mul_left k (Nat.div_le_self ..)) halves
    _ = (k + 1) * target := (Nat.succ_mul ..).symm
    _ ≤ size := Nat.le_of_lt below

theorem tile_length (delimiter : UInt8) :
    (tile size target delimiter).length = size ⌈/⌉ target := by
  rw [tile_eq, List.length_map, List.length_range]

theorem tile_le (nonempty : 0 < size) (positive : 0 < target) {delimiter : UInt8}
    {range : SplitRange} (one : range ∈ tile size target delimiter) :
    range.stop - range.start ≤ target := by
  rw [tile_eq] at one
  obtain ⟨i, -, rfl⟩ := List.mem_map.mp one
  have room : size ≤ target * (size ⌈/⌉ target) :=
    (ceilDiv_le_iff_le_mul positive).mp (Nat.le_refl _)
  exact step_le (ceilDiv_pos nonempty positive) (by rwa [Nat.mul_comm]) i

theorem le_tile (positive : 0 < target) (large : target < size) {delimiter : UInt8}
    {range : SplitRange} (one : range ∈ tile size target delimiter) :
    target / 2 ≤ range.stop - range.start := by
  rw [tile_eq] at one
  obtain ⟨i, -, rfl⟩ := List.mem_map.mp one
  exact le_step (ceilDiv_pos (Nat.lt_trans positive large) positive)
    (ceilDiv_mul_half_le positive large) i

end

section

variable {size target : UInt64}

theorem divCeil_toNat (positive : 0 < target) :
    (divCeil size target).toNat = size.toNat ⌈/⌉ target.toNat := by
  have divisor : 0 < target.toNat := by simpa [UInt64.lt_iff_toNat_lt] using positive
  have parts := Nat.div_add_mod size.toNat target.toNat
  have small := Nat.mod_lt size.toNat divisor
  have bound := size.toNat_lt
  rw [Nat.ceilDiv_eq_add_pred_div, divCeil]
  by_cases even : size % target = 0
  · have rest : size.toNat % target.toNat = 0 := by
      simpa [← UInt64.toNat_inj] using even
    rw [if_pos even, UInt64.toNat_div]
    symm
    apply Nat.div_eq_of_lt_le
    · rw [Nat.mul_comm]
      omega
    · rw [Nat.succ_mul, Nat.mul_comm]
      omega
  · have rest : size.toNat % target.toNat ≠ 0 := by
      simpa [← UInt64.toNat_inj] using even
    -- a remainder leaves the quotient below the size, so adding one cannot wrap
    have room : size.toNat / target.toNat < size.toNat := by
      apply Nat.div_lt_self (by omega)
      omega
    rw [if_neg even, UInt64.toNat_add, UInt64.toNat_div, UInt64.toNat_one,
      Nat.mod_eq_of_lt (by omega)]
    symm
    apply Nat.div_eq_of_lt_le
    · rw [Nat.succ_mul, Nat.mul_comm]
      omega
    · rw [Nat.succ_mul, Nat.succ_mul, Nat.mul_comm]
      omega

theorem divCeil_le (positive : 0 < target) : (divCeil size target).toNat ≤ size.toNat := by
  rw [divCeil_toNat positive]
  exact ceilDiv_le (by simpa [UInt64.lt_iff_toNat_lt] using positive)

/-- The words compute what the numbers do: no product and no cast loses a bit. -/
theorem tileWords_eq (positive : 0 < target) (delimiter : UInt8) :
    tileWords size target delimiter = tile size.toNat target.toNat delimiter := by
  have count : (divCeil size target).toNat = size.toNat ⌈/⌉ target.toNat := divCeil_toNat positive
  have few : (divCeil size target).toNat ≤ size.toNat := divCeil_le positive
  have bound := size.toNat_lt
  rw [tile_eq, ← count]
  apply List.map_congr_left
  intro i inside
  have below : i < (divCeil size target).toNat := List.mem_range.mp inside
  have word : (UInt64.ofNat i).toNat = i := by
    rw [UInt64.toNat_ofNat']
    exact Nat.mod_eq_of_lt (by omega)
  have next : (UInt64.ofNat i + 1).toNat = i + 1 := by
    rw [UInt64.toNat_add, word, UInt64.toNat_one]
    exact Nat.mod_eq_of_lt (by omega)
  dsimp only
  rw [boundary_toNat (by omega), boundary_toNat (by omega), word, next]

end

/-- Cutting an object gives as many ranges as the target needs, one after the other from
the object's start to its end, none longer than the target and, once there are two, none
shorter than half of it. Every product fits 128 bits and every boundary 64. -/
theorem tile_bounds (size target : UInt64) (delimiter : UInt8) (nonempty : 0 < size)
    (positive : 0 < target) :
    (tileWords size target delimiter).length = size.toNat ⌈/⌉ target.toNat ∧
    Cut delimiter 0 (tileWords size target delimiter) size.toNat ∧
    (divCeil size target).toNat = size.toNat ⌈/⌉ target.toNat ∧
    (∀ i < (divCeil size target).toNat, i + 1 < 2 ^ 64 ∧
      i * size.toNat < 2 ^ 128 ∧ (i + 1) * size.toNat < 2 ^ 128 ∧
      i * size.toNat / (divCeil size target).toNat < 2 ^ 64 ∧
      (i + 1) * size.toNat / (divCeil size target).toNat < 2 ^ 64) ∧
    (∀ range ∈ tileWords size target delimiter,
      range.stop - range.start ≤ target.toNat ∧
      (target < size → target.toNat / 2 ≤ range.stop - range.start)) := by
  have bytes : 0 < size.toNat := by simpa [UInt64.lt_iff_toNat_lt] using nonempty
  have divisor : 0 < target.toNat := by simpa [UInt64.lt_iff_toNat_lt] using positive
  have few : (divCeil size target).toNat ≤ size.toNat := divCeil_le positive
  have bound := size.toNat_lt
  refine ⟨?_, ?_, divCeil_toNat positive, ?_, ?_⟩
  · rw [tileWords_eq positive, tile_length]
  · rw [tileWords_eq positive]
    exact tile_cut bytes divisor delimiter
  · intro i inside
    refine ⟨by omega, product_lt (by omega) bound, product_lt (by omega) bound, ?_, ?_⟩
    · exact Nat.lt_of_le_of_lt (quotient_le (by omega)) bound
    · exact Nat.lt_of_le_of_lt (quotient_le (by omega)) bound
  · intro range one
    rw [tileWords_eq positive] at one
    exact ⟨tile_le bytes divisor one,
      fun large => le_tile divisor (UInt64.lt_iff_toNat_lt.mp large) one⟩

/-- Ten bytes in ranges of at most four: three ranges, of three, three and four bytes. -/
theorem tile_bounds_ten :
    tileWords 10 4 10 = [⟨0, 3, 10⟩, ⟨3, 6, 10⟩, ⟨6, 10, 10⟩] ∧
    Cut 10 0 (tileWords 10 4 10) 10 :=
  ⟨by decide, (tile_bounds 10 4 10 (by decide) (by decide)).2.1⟩

end Spate.S3
