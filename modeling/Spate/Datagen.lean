import Mathlib.Data.Fintype.EquivFin
import Mathlib.Data.List.Nodup
import Mathlib.Logic.Function.Iterate

set_option autoImplicit false

/- The random streams of the generated source (`spate-datagen/src/rng.rs`, `config.rs`). -/
namespace Spate.Datagen

/-- The increment of the generator. -/
def gamma : UInt64 := 0x9E3779B97F4A7C15

structure SplitMix64 where
  state : UInt64
  deriving DecidableEq, Repr

def laneSeed (seed : UInt64) (lane : UInt32) : UInt64 := seed ^^^ lane.toUInt64 * gamma

namespace SplitMix64

def finalize (state : UInt64) : UInt64 :=
  let z := (state ^^^ (state >>> 30)) * 0xBF58476D1CE4E5B9
  let z := (z ^^^ (z >>> 27)) * 0x94D049BB133111EB
  z ^^^ (z >>> 31)

def nextU64 (rng : SplitMix64) : UInt64 × SplitMix64 :=
  (finalize (rng.state + gamma), ⟨rng.state + gamma⟩)

/-- The draw with `n` draws before it. -/
def draw (rng : SplitMix64) (n : Nat) : UInt64 := ((·.nextU64.2)^[n] rng).nextU64.1

theorem draw_eq (rng : SplitMix64) (n : Nat) :
    rng.draw n = finalize (rng.state + UInt64.ofNat n * gamma + gamma) := by
  have moved : ((·.nextU64.2)^[n] rng).state = rng.state + UInt64.ofNat n * gamma := by
    induction n with
    | zero =>
      rw [Function.iterate_zero_apply]
      simp
    | succ n ih =>
      rw [Function.iterate_succ_apply', nextU64, ih, UInt64.ofNat_add, UInt64.add_mul,
        UInt64.ofNat_one, UInt64.one_mul, UInt64.add_assoc]
  rw [draw, nextU64, moved]

theorem gamma_inverse : gamma * 0xF1DE83E19937733D = 1 := by decide

theorem mul_inj {a b c d : UInt64} (inverse : c * d = 1) (same : a * c = b * c) : a = b := by
  have undone := congrArg (· * d) same
  simpa only [UInt64.mul_assoc, inverse, UInt64.mul_one] using undone

/-- The high bits stay, and each bit gives back the one `n` below it. -/
theorem shift_inj {a b : BitVec 64} {n : Nat} (positive : 0 < n)
    (same : a ^^^ (a >>> n) = b ^^^ (b >>> n)) : a = b := by
  have bits : ∀ k i, 64 ≤ i + k → a.getLsbD i = b.getLsbD i := by
    intro k
    induction k with
    | zero =>
      intro i high
      rw [BitVec.getLsbD_of_ge a i high, BitVec.getLsbD_of_ge b i high]
    | succ k ih =>
      intro i high
      have bit := congrArg (BitVec.getLsbD · i) same
      simp only [BitVec.getLsbD_xor, BitVec.getLsbD_ushiftRight, ih (n + i) (by omega)] at bit
      exact Bool.xor_left_inj.mp bit
  exact BitVec.eq_of_getLsbD_eq fun i _ => bits 64 i (by omega)

theorem finalize_inj {a b : UInt64} (same : finalize a = finalize b) : a = b := by
  have shift : ∀ {x y n : UInt64}, 0 < n.toNat % 64 →
      x ^^^ (x >>> n) = y ^^^ (y >>> n) → x = y := by
    intro x y n positive same
    have bits := congrArg UInt64.toBitVec same
    simp only [UInt64.toBitVec_xor, UInt64.toBitVec_shiftRight, BitVec.ushiftRight_eq'] at bits
    refine UInt64.toBitVec_inj.mp (shift_inj ?_ bits)
    simpa using positive
  unfold finalize at same
  have first := mul_inj (by decide : (0x94D049BB133111EB : UInt64) * 0x319642B2D24D8EC3 = 1)
    (shift (by decide) same)
  exact shift (by decide) (mul_inj
    (by decide : (0xBF58476D1CE4E5B9 : UInt64) * 0x96DE1B173F119089 = 1) (shift (by decide) first))

/-- A stream passes over every word before it repeats one: two of its draws are equal exactly
when whole periods of `2 ^ 64` draws lie between them, and every word is one of the first
`2 ^ 64` draws. -/
theorem draw_eq_iff (rng : SplitMix64) :
    (∀ m n : Nat, rng.draw m = rng.draw n ↔ m % UInt64.size = n % UInt64.size) ∧
      ∀ word, ∃ n < UInt64.size, rng.draw n = word := by
  have period : ∀ m n : Nat, rng.draw m = rng.draw n ↔ m % UInt64.size = n % UInt64.size := by
    intro m n
    have word : ∀ k : Nat, (UInt64.ofNat k).toNat = k % UInt64.size := fun _ => UInt64.toNat_ofNat'
    rw [← word, ← word, UInt64.toNat_inj, draw_eq, draw_eq]
    constructor
    · intro same
      have moved := (UInt64.add_left_inj _).mp (finalize_inj same)
      exact mul_inj gamma_inverse ((UInt64.add_right_inj _).mp moved)
    · intro same
      rw [same]
  refine ⟨period, fun word => ?_⟩
  -- as many draws as there are words, and no two alike
  have finite : Finite UInt64 := .of_injective UInt64.toFin fun _ _ => UInt64.toFin_inj.mp
  have distinct : Function.Injective fun x : UInt64 => rng.draw x.toNat := by
    intro x y same
    have numbers := (period _ _).mp same
    rw [Nat.mod_eq_of_lt x.toNat_lt_size, Nat.mod_eq_of_lt y.toNat_lt_size] at numbers
    exact UInt64.toNat_inj.mp numbers
  obtain ⟨x, drawn⟩ := Finite.surjective_of_injective distinct word
  exact ⟨x.toNat, x.toNat_lt_size, drawn⟩

/-- One lane's stream is another's from its `k`-th draw on exactly when its seed is `k` increments
after the other's. -/
theorem shifted_iff {a b : UInt64} {k : Nat} : (∀ n, draw ⟨b⟩ n = draw ⟨a⟩ (n + k)) ↔
    b = a + UInt64.ofNat k * gamma := by
  have moved : ∀ n, a + UInt64.ofNat (n + k) * gamma + gamma =
      a + UInt64.ofNat k * gamma + UInt64.ofNat n * gamma + gamma := by
    intro n
    rw [Nat.add_comm, UInt64.ofNat_add, UInt64.add_mul, ← UInt64.add_assoc a]
  constructor
  · intro same
    have first := finalize_inj (by simpa only [draw_eq, moved] using same 0)
    exact (UInt64.add_left_inj _).mp ((UInt64.add_left_inj _).mp first)
  · rintro rfl n
    rw [draw_eq, draw_eq, moved]

/-- A sum is the exclusive or and twice the carries. -/
theorem xor_add_and (a b : Nat) : (a ^^^ b) + 2 * (a &&& b) = a + b := by
  induction a using Nat.strongRecOn generalizing b with
  | ind a ih =>
    by_cases zero : a = 0
    · simp [zero]
    · have halves := ih (a / 2) (by omega) (b / 2)
      rw [← Nat.xor_div_two, ← Nat.and_div_two] at halves
      have last := @Nat.xor_mod_two_pow a b 1
      have carry := @Nat.and_mod_two_pow a b 1
      rcases Nat.mod_two_eq_zero_or_one a with left | left <;>
        rcases Nat.mod_two_eq_zero_or_one b with right | right <;>
        simp only [Nat.pow_one, left, right, Nat.reduceXor, Nat.reduceAnd] at last carry <;> omega

theorem add_eq_xor (a b : UInt64) : a + b = (a ^^^ b) + 2 * (a &&& b) := by
  apply UInt64.toNat_inj.mp
  have sum := xor_add_and a.toNat b.toNat
  simp only [UInt64.toNat_add, UInt64.toNat_mul, UInt64.toNat_xor, UInt64.toNat_and,
    UInt64.reduceToNat]
  omega

/-- The two lanes' seeds differ in the bits of `i * gamma ^^^ j * gamma`, and those of them set
in lane `i`'s are the carries. -/
theorem laneSeed_eq_add_iff (seed : UInt64) (i j : UInt32) (steps : UInt64) :
    laneSeed seed j = laneSeed seed i + steps ↔
      2 * ((seed ^^^ i.toUInt64 * gamma) &&& (i.toUInt64 * gamma ^^^ j.toUInt64 * gamma)) =
        (i.toUInt64 * gamma ^^^ j.toUInt64 * gamma) - steps := by
  unfold laneSeed
  generalize i.toUInt64 * gamma = a
  generalize j.toUInt64 * gamma = b
  have other : seed ^^^ b = (seed ^^^ a) ^^^ (a ^^^ b) := by
    rw [UInt64.xor_assoc, ← UInt64.xor_assoc a, UInt64.xor_self, UInt64.zero_xor]
  have sum := add_eq_xor (seed ^^^ a) (a ^^^ b)
  rw [← other] at sum
  generalize seed ^^^ a = x at sum ⊢
  generalize a ^^^ b = d at sum ⊢
  generalize 2 * (x &&& d) = carries at sum ⊢
  rw [UInt64.eq_sub_iff_add_eq]
  constructor
  · intro same
    rw [same, UInt64.add_assoc, UInt64.add_right_inj] at sum
    rw [sum, UInt64.add_comm]
  · rintro rfl
    rw [UInt64.add_comm carries, ← UInt64.add_assoc, UInt64.add_left_inj] at sum
    exact sum.symm

/-- The seeds that keep any two of 1024 lanes more than `2 ^ 20` draws apart: for no two lanes
and no such shift is twice what lane `i`'s seed has of the bits in which the lanes differ the
difference of these bits and the shift. -/
theorem lanes_apart_iff (seed : UInt64) :
    (∀ i j : UInt32, i < 1024 → j < 1024 → i ≠ j → ∀ k ≤ 1048576,
      ¬∀ n, draw ⟨laneSeed seed j⟩ n = draw ⟨laneSeed seed i⟩ (n + k)) ↔
    ∀ i j : UInt32, i < 1024 → j < 1024 → i ≠ j → ∀ k ≤ 1048576,
      2 * ((seed ^^^ i.toUInt64 * gamma) &&& (i.toUInt64 * gamma ^^^ j.toUInt64 * gamma)) ≠
        (i.toUInt64 * gamma ^^^ j.toUInt64 * gamma) - UInt64.ofNat k * gamma := by
  simp only [shifted_iff, laneSeed_eq_add_iff, ne_eq]

/-- How many draws after the state 0 a lane starts. -/
def position (seed : UInt64) (lane : UInt32) : Nat :=
  (laneSeed seed lane * 0xF1DE83E19937733D).toNat

theorem position_add {seed : UInt64} {i j : UInt32} {k : Nat}
    (shifted : laneSeed seed j = laneSeed seed i + UInt64.ofNat k * gamma) :
    position seed j = (position seed i + k) % UInt64.size := by
  unfold position
  rw [shifted, UInt64.add_mul, UInt64.mul_assoc, gamma_inverse, UInt64.mul_one, UInt64.toNat_add,
    UInt64.toNat_ofNat', Nat.add_mod_mod]

/-- The keys differ from each other and from those `seen`, a set of numbers as bits. -/
def apart : List Nat → Nat → Bool
  | [], _ => true
  | key :: rest, seen => !(seen.testBit key) && apart rest (seen ||| 1 <<< key)

theorem nodup_of_apart (keys : List Nat) : ∀ {seen : Nat}, apart keys seen = true →
    keys.Nodup ∧ ∀ key ∈ keys, seen.testBit key = false := by
  induction keys with
  | nil => simp
  | cons key rest ih =>
    intro seen checked
    obtain ⟨fresh, later⟩ := Bool.and_eq_true_iff.mp checked
    obtain ⟨distinct, unseen⟩ := ih later
    simp only [Nat.testBit_or, Bool.or_eq_false_iff] at unseen
    refine ⟨List.nodup_cons.mpr ⟨fun member => ?_, distinct⟩, ?_⟩
    · have own := (unseen key member).2
      simp [Nat.testBit_shiftLeft] at own
    · exact List.forall_mem_cons.mpr
        ⟨by simpa using fresh, fun other member => (unseen other member).1⟩

/-- The intervals of `2 ^ 45` draws the lanes start in, the first of them `offset` early. -/
def intervals (seed : UInt64) (offset : Nat) : List Nat :=
  (List.range 1024).map fun lane =>
    (position seed (UInt32.ofNat lane) + offset) / 35184372088832

theorem intervals_ne {seed : UInt64} {offset : Nat} {i j : UInt32}
    (spread : (intervals seed offset).Nodup) (low : i < 1024) (low' : j < 1024)
    (distinct : i ≠ j) : (position seed i + offset) / 35184372088832 ≠
      (position seed j + offset) / 35184372088832 := by
  intro same
  have inside {lane : UInt32} (low : lane < 1024) : lane.toNat ∈ List.range 1024 :=
    List.mem_range.mpr (UInt32.lt_iff_toNat_lt.mp low)
  apply distinct
  refine UInt32.toNat_inj.mp (List.inj_on_of_nodup_map spread (inside low) (inside low') ?_)
  simpa only [UInt32.ofNat_toNat] using same

/-- Lanes in different intervals, also when these are moved by half, and none in the first. -/
theorem shifted_ne {seed : UInt64} (grid : apart (intervals seed 0) 1 = true)
    (moved : apart (intervals seed 17592186044416) 0 = true) {i j : UInt32} (low : i < 1024)
    (low' : j < 1024) (distinct : i ≠ j) {k : Nat} (few : k ≤ 1048576) :
    laneSeed seed j ≠ laneSeed seed i + UInt64.ofNat k * gamma := by
  intro shifted
  obtain ⟨grid, unseen⟩ := nodup_of_apart _ grid
  obtain ⟨moved, -⟩ := nodup_of_apart _ moved
  have first : (position seed j + 0) / 35184372088832 ≠ 0 := by
    intro zero
    have member : 0 ∈ intervals seed 0 := by
      refine List.mem_map.mpr ⟨j.toNat, List.mem_range.mpr (UInt32.lt_iff_toNat_lt.mp low'), ?_⟩
      rw [UInt32.ofNat_toNat, zero]
    exact absurd (unseen 0 member) (by decide)
  have here := intervals_ne grid low low' distinct
  have there := intervals_ne moved low low' distinct
  -- at most `2 ^ 20` draws on, lane `j` is in the same interval of one of the two divisions
  have next := position_add shifted
  have inside : position seed i < UInt64.size := UInt64.toNat_lt_size _
  simp only [UInt64.size] at next inside
  omega

theorem lanes_apart_sample : ∀ i j : UInt32, i < 1024 → j < 1024 → i ≠ j → ∀ k ≤ 1048576,
    ¬∀ n, draw ⟨laneSeed 0x0123456789ABCDEF j⟩ n =
      draw ⟨laneSeed 0x0123456789ABCDEF i⟩ (n + k) := by
  refine (lanes_apart_iff 0x0123456789ABCDEF).mpr fun i j low low' distinct k few same => ?_
  exact shifted_ne (by decide +kernel) (by decide +kernel) low low' distinct few
    ((laneSeed_eq_add_iff _ i j _).mpr same)

/-- With the seed a configuration has by default, lane 1 is one draw after lane 0. -/
theorem lanes_overlap_default : laneSeed 0 0 ≠ laneSeed 0 1 ∧
    ∀ n, draw ⟨laneSeed 0 1⟩ n = draw ⟨laneSeed 0 0⟩ (n + 1) :=
  ⟨by decide, shifted_iff.mpr (by decide)⟩

end SplitMix64

end Spate.Datagen
