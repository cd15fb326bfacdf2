import Mathlib.Tactic.Ring

set_option autoImplicit false

/- Timestamps in `DateTime64` columns (`serde/chrono.rs` and `serde/time.rs`). An instant is
its count of nanoseconds since the epoch. `chrono`'s timestamp functions take the floor, and
`time` counts nanoseconds exactly and divides them as Rust divides, towards zero. -/
namespace Spate.ClickHouse.DateTime64

inductive Precision
  | secs
  | millis
  | micros
  | nanos
  deriving DecidableEq

def Precision.digits : Precision → Nat
  | .secs => 0
  | .millis => 3
  | .micros => 6
  | .nanos => 9

def Precision.nanosPerTick : Precision → Int
  | .secs => 1000000000
  | .millis => 1000000
  | .micros => 1000
  | .nanos => 1

theorem nanosPerTick_eq (p : Precision) : p.nanosPerTick = 10 ^ (9 - p.digits) := by
  cases p <;> rfl

def toI64 (n : Int) : Option Int :=
  if -9223372036854775808 ≤ n ∧ n < 9223372036854775808 then some n else none

/-! ## `serde::chrono::datetime64` -/

namespace Chrono

/-- The instants a `DateTime<Utc>` can be. -/
def InRange (dt : Int) : Prop :=
  -8334601228800 * 1000000000 ≤ dt ∧ dt < 8210266876800 * 1000000000

instance (dt : Int) : Decidable (InRange dt) := inferInstanceAs (Decidable (_ ∧ _))

/-- `timestamp`, `timestamp_millis`, `timestamp_micros` and `timestamp_nanos_opt`. Only
the last can fail on an instant in range. -/
def timestamp (p : Precision) (dt : Int) : Option Int := toI64 (dt / p.nanosPerTick)

def serialize (display : Int → String) (p : Precision) (dt : Int) : Except String Int :=
  match timestamp p dt with
  | some ts => .ok ts
  | none => .error s!"{display dt} cannot be represented as DateTime64(9)"

/-- `from_timestamp`, `from_timestamp_millis` and `from_timestamp_micros` answer in range;
`from_timestamp_nanos` always does. -/
def fromTimestamp (p : Precision) (ts : Int) : Option Int :=
  match p with
  | .nanos => some ts
  | p => if InRange (ts * p.nanosPerTick) then some (ts * p.nanosPerTick) else none

def deserialize (p : Precision) (ts : Int) : Except String Int :=
  match fromTimestamp p ts with
  | some dt => .ok dt
  | none => .error s!"can't create DateTime<Utc> from {ts}"

end Chrono

/-! ## `serde::time::datetime64` -/

namespace Time

/-- The instants an `OffsetDateTime` can be. -/
def InRange (dt : Int) : Prop :=
  -377705116800 * 1000000000 ≤ dt ∧ dt < 253402300800 * 1000000000

instance (dt : Int) : Decidable (InRange dt) := inferInstanceAs (Decidable (_ ∧ _))

def doSerialize (display : Int → String) (dt div : Int) : Except String Int :=
  match toI64 (dt.tdiv div) with
  | some ts => .ok ts
  | none => .error s!"{display dt} cannot be represented as DateTime64"

/-- `componentRange` is the text of the crate's own range error. -/
def doDeserialize (componentRange : Int → String) (ts mul : Int) : Except String Int :=
  if InRange (ts * mul) then .ok (ts * mul) else .error (componentRange (ts * mul))

def serialize (display : Int → String) (p : Precision) (dt : Int) : Except String Int :=
  doSerialize display dt p.nanosPerTick

def deserialize (componentRange : Int → String) (p : Precision) (ts : Int) : Except String Int :=
  doDeserialize componentRange ts p.nanosPerTick

end Time

/-! ## Rounding -/

/-- `ts` was written for an instant: it is read back and written as it was. -/
def RoundTrips (serialize deserialize : Int → Except String Int) (ts : Int) : Prop :=
  ∃ dt, deserialize ts = .ok dt ∧ serialize dt = .ok ts

/-- At `dt` the two modules both fail or both write the floor, and each writes again what
it has written and read. -/
structure Agree (display componentRange : Int → String) (p : Precision) (dt : Int) : Prop where
  same : (Time.serialize display p dt).toOption = (Chrono.serialize display p dt).toOption
  chronoFloor : ∀ ts, Chrono.serialize display p dt = .ok ts → ts = dt / 10 ^ (9 - p.digits)
  timeFloor : ∀ ts, Time.serialize display p dt = .ok ts → ts = dt / 10 ^ (9 - p.digits)
  chronoAgain : Chrono.InRange dt → ∀ ts, Chrono.serialize display p dt = .ok ts →
    RoundTrips (Chrono.serialize display p) (Chrono.deserialize p) ts
  timeAgain : Time.InRange dt → ∀ ts, Time.serialize display p dt = .ok ts →
    RoundTrips (Time.serialize display p) (Time.deserialize componentRange p) ts

section

variable {p : Precision} {display componentRange : Int → String} {dt ts : Int}

theorem toI64_eq_some : toI64 dt = some ts ↔
    dt = ts ∧ -9223372036854775808 ≤ ts ∧ ts < 9223372036854775808 := by
  unfold toI64
  split <;> simp <;> omega

theorem nanosPerTick_pos (p : Precision) : 0 < p.nanosPerTick := by
  cases p <;> decide

theorem chrono_ok : Chrono.serialize display p dt = .ok ts ↔
    toI64 (dt / p.nanosPerTick) = some ts := by
  unfold Chrono.serialize Chrono.timestamp
  split <;> rename_i answer <;> simp [answer]

theorem time_ok : Time.serialize display p dt = .ok ts ↔
    toI64 (dt.tdiv p.nanosPerTick) = some ts := by
  unfold Time.serialize Time.doSerialize
  split <;> rename_i answer <;> simp [answer]

theorem chrono_toOption : (Chrono.serialize display p dt).toOption =
    toI64 (dt / p.nanosPerTick) := by
  unfold Chrono.serialize Chrono.timestamp
  split <;> rename_i answer <;> simp [answer, Except.toOption]

theorem time_toOption : (Time.serialize display p dt).toOption =
    toI64 (dt.tdiv p.nanosPerTick) := by
  unfold Time.serialize Time.doSerialize
  split <;> rename_i answer <;> simp [answer, Except.toOption]

/-- Rust's division is the floor, or one above it. -/
theorem tdiv_eq (p : Precision) (dt : Int) : dt.tdiv p.nanosPerTick =
    dt / p.nanosPerTick + if 0 ≤ dt ∨ p.nanosPerTick ∣ dt then 0 else 1 := by
  rw [Int.tdiv_eq_ediv, Int.sign_eq_one_of_pos (nanosPerTick_pos p)]

/-- What is written is a whole number of ticks, which divides back exactly. -/
theorem ticks_div (p : Precision) (ts : Int) : ts * p.nanosPerTick / p.nanosPerTick = ts :=
  Int.mul_ediv_cancel ts (nanosPerTick_pos p).ne'

theorem ticks_tdiv (p : Precision) (ts : Int) : (ts * p.nanosPerTick).tdiv p.nanosPerTick = ts :=
  Int.mul_tdiv_cancel ts (nanosPerTick_pos p).ne'

theorem chrono_again (inside : Chrono.InRange dt)
    (written : Chrono.serialize display p dt = .ok ts) :
    RoundTrips (Chrono.serialize display p) (Chrono.deserialize p) ts := by
  obtain ⟨floor, low, high⟩ := toI64_eq_some.mp (chrono_ok.mp written)
  refine ⟨ts * p.nanosPerTick, ?_, chrono_ok.mpr (toI64_eq_some.mpr ⟨ticks_div p ts, low, high⟩)⟩
  -- The range ends on whole seconds, so the floor of an instant in range is in range.
  have ticks : Chrono.InRange (ts * p.nanosPerTick) := by
    unfold Chrono.InRange at inside ⊢
    cases p <;> simp only [Precision.nanosPerTick] at floor ⊢ <;> omega
  unfold Chrono.deserialize Chrono.fromTimestamp
  cases p with
  | nanos => simp [Precision.nanosPerTick]
  | _ => simp [ticks]

theorem time_again (inside : Time.InRange dt)
    (written : Time.serialize display p dt = .ok ts) :
    RoundTrips (Time.serialize display p) (Time.deserialize componentRange p) ts := by
  obtain ⟨quotient, low, high⟩ := toI64_eq_some.mp (time_ok.mp written)
  refine ⟨ts * p.nanosPerTick, ?_, time_ok.mpr (toI64_eq_some.mpr ⟨ticks_tdiv p ts, low, high⟩)⟩
  have ticks : Time.InRange (ts * p.nanosPerTick) := by
    rw [tdiv_eq] at quotient
    unfold Time.InRange at inside ⊢
    split at quotient <;> cases p <;>
      simp only [Precision.nanosPerTick] at quotient ⊢ <;> omega
  unfold Time.deserialize Time.doDeserialize
  rw [if_pos ticks]

/-- The two modules agree at an instant exactly when it is not before the epoch, is a whole
number of ticks, or has so many ticks that neither writes them. -/
theorem datetime64_modules_agree_iff (display componentRange : Int → String) (p : Precision)
    (dt : Int) : Agree display componentRange p dt ↔
      0 ≤ dt ∨ p.nanosPerTick ∣ dt ∨ dt ≤ -9223372036854775809 * p.nanosPerTick := by
  have positive := nanosPerTick_pos p
  constructor
  · intro agree
    by_contra different
    simp only [not_or, not_le] at different
    obtain ⟨early, within, room⟩ := different
    have above := tdiv_eq p dt
    rw [if_neg (by omega)] at above
    have bound : -9223372036854775809 ≤ dt / p.nanosPerTick :=
      (Int.le_ediv_iff_mul_le positive).mpr room.le
    have low : dt / p.nanosPerTick < 0 := Int.ediv_neg_of_neg_of_pos early positive
    have written : Time.serialize display p dt = .ok (dt / p.nanosPerTick + 1) :=
      time_ok.mpr (toI64_eq_some.mpr ⟨above, by omega, by omega⟩)
    have floor := agree.timeFloor _ written
    rw [← nanosPerTick_eq] at floor
    omega
  · intro condition
    have same : toI64 (dt.tdiv p.nanosPerTick) = toI64 (dt / p.nanosPerTick) := by
      rw [tdiv_eq]
      split
      · rw [Int.add_zero]
      · rename_i rounded
        have far : dt < -9223372036854775809 * p.nanosPerTick := by
          refine lt_of_le_of_ne (by tauto) fun whole => rounded (.inr ?_)
          exact ⟨-9223372036854775809, by rw [whole, Int.mul_comm]⟩
        have quotient : dt / p.nanosPerTick < -9223372036854775809 :=
          Int.ediv_lt_of_lt_mul positive far
        unfold toI64
        rw [if_neg (by omega), if_neg (by omega)]
    refine ⟨?_, ?_, ?_, fun inside ts => chrono_again inside, fun inside ts => time_again inside⟩
    · rw [time_toOption, chrono_toOption, same]
    · intro ts written
      rw [← nanosPerTick_eq]
      exact (toI64_eq_some.mp (chrono_ok.mp written)).1.symm
    · intro ts written
      have answer := time_ok.mp written
      rw [same] at answer
      rw [← nanosPerTick_eq]
      exact (toI64_eq_some.mp answer).1.symm

end

/-- A nanosecond before the epoch is a tick before it in one module and the epoch in the
other. -/
theorem datetime64_modules_differ_before_epoch :
    Chrono.serialize (fun _ => "") .millis (-1) = .ok (-1) ∧
      Time.serialize (fun _ => "") .millis (-1) = .ok 0 ∧
      ¬ Agree (fun _ => "") (fun _ => "") .millis (-1) := by
  refine ⟨by decide, by decide, fun agree => ?_⟩
  have floor := agree.timeFloor 0 (by decide)
  revert floor
  decide

end Spate.ClickHouse.DateTime64
