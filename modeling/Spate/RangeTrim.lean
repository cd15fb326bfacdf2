import Mathlib.Data.List.Forall2
import Spate.NdjsonFramer

set_option autoImplicit false

/- Reading an object in byte ranges (`trim.rs`, `tile` in `split.rs`, and the read
loop of `stream_object_ranged` in `fetch.rs`). Positions are natural numbers: the
source's additions saturate only above the object's size, where they are cut. -/
namespace Spate.S3

open Spate.Json (Bytes NdjsonFramer Within records)

structure SplitRange where
  start : Nat
  stop : Nat
  delimiter : UInt8
  deriving DecidableEq

inductive TrimPhase
  /-- Dropping bytes through the first delimiter in `[start - 1, stop - 1)`. -/
  | seek
  | emit
  | done
  deriving DecidableEq

structure RangeTrim where
  start : Nat
  stop : Nat
  delimiter : UInt8
  size : Nat
  phase : TrimPhase
  deriving DecidableEq

namespace RangeTrim

def new (range : SplitRange) (size : Nat) : RangeTrim :=
  ⟨range.start, range.stop, range.delimiter, size, if range.start = 0 then .emit else .seek⟩

def firstByte (t : RangeTrim) : Nat := t.start - 1

/-- The end of the next window to read from `pos`. -/
def nextWindow (t : RangeTrim) (pos rangeBytes chunkBytes : Nat) : Option Nat :=
  if t.phase = .done ∨ t.size ≤ pos then none
  else
    let rangeBytes := max rangeBytes 1
    let chunkBytes := max chunkBytes 1
    let stop :=
      if t.stop ≤ pos then pos + chunkBytes
      else if t.stop ≤ pos + rangeBytes then t.stop + chunkBytes
      else pos + rangeBytes
    some (min stop t.size)

/-- The owned bytes of a window from its index `from'` on, while forwarding. -/
def forward (t : RangeTrim) (pos : Nat) (window : Bytes) (from' : Nat) : RangeTrim × Bytes :=
  let tailFrom := max (min (t.stop - 1 - pos) window.length) from'
  match (window.drop tailFrom).findIdx? (· == t.delimiter) with
  | some idx => ({ t with phase := .done }, (window.take (tailFrom + idx + 1)).drop from')
  | none => (t, window.drop from')

/-- The owned bytes of `window`, the object's bytes from `pos`. -/
def feed (t : RangeTrim) (pos : Nat) (window : Bytes) : RangeTrim × Bytes :=
  match t.phase with
  | .seek =>
    let seekLen := min (t.stop - 1 - pos) window.length
    match (window.take seekLen).findIdx? (· == t.delimiter) with
    | some idx => ({ t with phase := .emit } : RangeTrim).forward pos window (idx + 1)
    | none =>
      if t.stop - 1 ≤ pos + window.length then ({ t with phase := .done }, [])
      else (t, [])
  | .emit => t.forward pos window 0
  | .done => (t, [])

end RangeTrim

def windowEnd (trim : Option RangeTrim) (size rangeBytes chunkBytes pos : Nat) : Option Nat :=
  match trim with
  | some trim => trim.nextWindow pos (max rangeBytes 1) chunkBytes
  | none => if pos < size then some (min (pos + max rangeBytes 1) size) else none

/-- The bytes of a window that are handed on, and the trim after it. -/
def feedWindow (trim : Option RangeTrim) (pos : Nat) (window : Bytes) :
    Option RangeTrim × Bytes :=
  match trim with
  | some trim => (some (trim.feed pos window).1, (trim.feed pos window).2)
  | none => (none, window)

/-- What the read loop did: the windows it asked for, the bytes it handed on for each,
and the failure that ended it. -/
structure Reading (ε : Type) where
  windows : List (Nat × Nat)
  pieces : List Bytes
  failure : Option ε
  deriving DecidableEq

variable {ε : Type}

/-- The loop of `stream_object_ranged` read window by window; `read start stop` is the
outcome of a window's read. It runs out of `fuel` only when that is below the number
of windows. -/
def readWindows (read : Nat → Nat → Except ε Bytes) (size rangeBytes chunkBytes : Nat) :
    (fuel : Nat) → Option RangeTrim → (pos : Nat) → Option (Reading ε)
  | 0, _, _ => none
  | fuel + 1, trim, pos =>
    match windowEnd trim size rangeBytes chunkBytes pos with
    | none => some ⟨[], [], none⟩
    | some stop =>
      match read pos stop with
      | .error failure => some ⟨[(pos, stop)], [], some failure⟩
      | .ok window =>
        let (trim, owned) := feedWindow trim pos window
        (readWindows read size rangeBytes chunkBytes fuel trim (pos + window.length)).map
          fun rest => ⟨(pos, stop) :: rest.windows, owned :: rest.pieces, rest.failure⟩

def readRange (read : Nat → Nat → Except ε Bytes) (size rangeBytes chunkBytes : Nat)
    (range : SplitRange) : Option (Reading ε) :=
  let trim := RangeTrim.new range size
  readWindows read size rangeBytes chunkBytes (size + 1) (some trim) trim.firstByte

/-- Cuts `[0, size)` into `ceil (size / target)` ranges. -/
def tile (size target : Nat) (delimiter : UInt8) : List SplitRange :=
  let n := (size + target - 1) / target
  (List.range n).map fun i => ⟨i * size / n, (i + 1) * size / n, delimiter⟩

def slice (object : Bytes) (from' to' : Nat) : Bytes := (object.take to').drop from'

/-- The position after the first delimiter at or after `pos`, or the object's end. -/
def after (object : Bytes) (delimiter : UInt8) (pos : Nat) : Nat :=
  match (object.drop pos).findIdx? (· == delimiter) with
  | some idx => pos + idx + 1
  | none => object.length

/-- The first byte at or after `pos` where a record starts, or the object's end. -/
def recordStart (object : Bytes) (delimiter : UInt8) (pos : Nat) : Nat :=
  if pos = 0 then 0 else after object delimiter (pos - 1)

/-- The bytes a range owns: the records that start inside it. -/
def owned (object : Bytes) (range : SplitRange) : Bytes :=
  slice object (recordStart object range.delimiter range.start)
    (recordStart object range.delimiter range.stop)

/-- Consecutive non-empty ranges from `start` to `stop`. -/
inductive Cut (delimiter : UInt8) : Nat → List SplitRange → Nat → Prop
  | nil (pos : Nat) : Cut delimiter pos [] pos
  | cons {start middle stop : Nat} {rest : List SplitRange} (nonempty : start < middle)
      (more : Cut delimiter middle rest stop) :
      Cut delimiter start (⟨start, middle, delimiter⟩ :: rest) stop

section Bounds

variable {object : Bytes} {delimiter : UInt8}

variable {low high pos : Nat}

theorem slice_append (object : Bytes) {middle : Nat} (first : low ≤ middle)
    (second : middle ≤ high) :
    slice object low middle ++ slice object middle high = slice object low high := by
  have whole : object.take high = object.take middle ++ (object.take high).drop middle := by
    conv_lhs => rw [← List.take_append_drop middle (object.take high)]
    rw [List.take_take, Nat.min_eq_left second]
  unfold slice
  conv_rhs => rw [whole, List.drop_append]
  congr 1
  by_cases inside : middle ≤ object.length
  · rw [List.length_take, Nat.min_eq_left inside, Nat.sub_eq_zero_of_le first, List.drop_zero]
  · have empty : (object.take high).drop middle = [] := by
      apply List.drop_eq_nil_of_le
      rw [List.length_take]
      omega
    rw [empty, List.drop_nil]

theorem slice_self (object : Bytes) (pos : Nat) : slice object pos pos = [] := by
  apply List.drop_eq_nil_of_le
  rw [List.length_take]
  exact Nat.min_le_left _ _

theorem drop_eq_slice (object : Bytes) (ordered : pos ≤ high) :
    object.drop pos = slice object pos high ++ object.drop high := by
  by_cases inside : high ≤ object.length
  · unfold slice
    conv_lhs => rw [← List.take_append_drop high object, List.drop_append]
    rw [List.length_take, Nat.min_eq_left inside, Nat.sub_eq_zero_of_le ordered, List.drop_zero]
  · have past : object.length ≤ high := by omega
    unfold slice
    rw [List.take_of_length_le past, List.drop_eq_nil_of_le past, List.append_nil]

theorem after_le (object : Bytes) (delimiter : UInt8) (pos : Nat) :
    after object delimiter pos ≤ object.length := by
  unfold after
  split
  · rename_i idx found
    have inside := (List.findIdx?_eq_some_iff_findIdx_eq.mp found).1
    rw [List.length_drop] at inside
    omega
  · exact Nat.le_refl _

theorem le_after (delimiter : UInt8) (inside : pos ≤ object.length) :
    pos ≤ after object delimiter pos := by
  unfold after
  split
  · omega
  · exact inside

theorem lt_after (delimiter : UInt8) (inside : pos < object.length) :
    pos < after object delimiter pos := by
  unfold after
  split
  · omega
  · exact inside

theorem after_found {idx : Nat} (ordered : pos ≤ high)
    (found : (slice object pos high).findIdx? (· == delimiter) = some idx) :
    after object delimiter pos = pos + idx + 1 := by
  unfold after
  rw [drop_eq_slice object ordered, List.findIdx?_append, found]
  rfl

theorem after_skip (ordered : pos ≤ high) (inside : high ≤ object.length)
    (missing : (slice object pos high).findIdx? (· == delimiter) = none) :
    after object delimiter pos = after object delimiter high := by
  have length : (slice object pos high).length = high - pos := by
    simp only [slice, List.length_drop, List.length_take, Nat.min_eq_left inside]
  unfold after
  rw [drop_eq_slice object ordered, List.findIdx?_append, missing, length]
  cases (object.drop high).findIdx? (· == delimiter) with
  | none => rfl
  | some idx =>
    simp only [Option.none_or, Option.map_some]
    omega

theorem after_mono (ordered : low ≤ high) (inside : high ≤ object.length) :
    after object delimiter low ≤ after object delimiter high := by
  cases found : (slice object low high).findIdx? (· == delimiter) with
  | none => exact Nat.le_of_eq (after_skip ordered inside found)
  | some idx =>
    have bound := (List.findIdx?_eq_some_iff_findIdx_eq.mp found).1
    simp only [slice, List.length_drop, List.length_take, Nat.min_eq_left inside] at bound
    have last := le_after delimiter inside
    rw [after_found ordered found]
    omega

theorem after_follows (object : Bytes) (delimiter : UInt8) (pos : Nat) :
    after object delimiter pos = object.length ∨
      ∃ before, after object delimiter pos = before + 1 ∧ object[before]? = some delimiter := by
  unfold after
  split
  · rename_i idx found
    right
    obtain ⟨inside, matched, _⟩ := List.findIdx?_eq_some_iff_getElem.mp found
    refine ⟨pos + idx, rfl, ?_⟩
    rw [← List.getElem?_drop, List.getElem?_eq_getElem inside]
    exact congrArg some (by simpa using matched)
  · exact Or.inl rfl

theorem recordStart_le (pos : Nat) : recordStart object delimiter pos ≤ object.length := by
  unfold recordStart
  split
  · exact Nat.zero_le _
  · exact after_le _ _ _

theorem recordStart_mono (ordered : low ≤ high) (inside : high ≤ object.length) :
    recordStart object delimiter low ≤ recordStart object delimiter high := by
  unfold recordStart
  split
  · exact Nat.zero_le _
  · rw [if_neg (by omega)]
    exact after_mono (by omega) (by omega)

theorem recordStart_size (object : Bytes) (delimiter : UInt8) :
    recordStart object delimiter object.length = object.length := by
  unfold recordStart
  split
  · omega
  · have low := lt_after delimiter (show object.length - 1 < object.length by omega)
    have high := after_le object delimiter (object.length - 1)
    omega

end Bounds

namespace RangeTrim

variable {object : Bytes}

structure IsWindow (object : Bytes) (pos : Nat) (window : Bytes) : Prop where
  inside : pos + window.length ≤ object.length
  bytes : window = slice object pos (pos + window.length)

variable {pos : Nat} {window : Bytes} {t : RangeTrim}

theorem IsWindow.take (is : IsWindow object pos window) {len : Nat} (short : len ≤ window.length) :
    window.take len = slice object pos (pos + len) := by
  have whole := is.bytes
  unfold slice at whole ⊢
  conv_lhs => rw [whole]
  rw [List.take_drop, List.take_take]
  congr 2
  omega

theorem IsWindow.drop (is : IsWindow object pos window) (len : Nat) :
    window.drop len = slice object (pos + len) (pos + window.length) := by
  have whole := is.bytes
  unfold slice at whole ⊢
  conv_lhs => rw [whole]
  rw [List.drop_drop]

theorem IsWindow.part (is : IsWindow object pos window) {from' len : Nat}
    (short : len ≤ window.length) :
    (window.take len).drop from' = slice object (pos + from') (pos + len) := by
  rw [is.take short]
  unfold slice
  rw [List.drop_drop]

/-- Forwarding from index `from'` of a window hands on everything up to the delimiter
that ends the last owned record. -/
theorem forward_spec {from' : Nat} (is : IsWindow object pos window)
    (from_le : from' ≤ min (t.stop - 1 - pos) window.length)
    (unpassed : after object t.delimiter (t.stop - 1) =
      after object t.delimiter (max pos (t.stop - 1))) :
    (t.forward pos window from' = ({ t with phase := .done },
        slice object (pos + from') (after object t.delimiter (t.stop - 1))) ∧
      pos + from' ≤ after object t.delimiter (t.stop - 1)) ∨
    (t.forward pos window from' = (t, slice object (pos + from') (pos + window.length)) ∧
      after object t.delimiter (t.stop - 1) =
        after object t.delimiter (max (pos + window.length) (t.stop - 1))) := by
  have inside := is.inside
  unfold forward
  dsimp only
  rw [Nat.max_eq_left from_le, is.drop]
  split
  · rename_i idx found
    left
    have bound := (List.findIdx?_eq_some_iff_findIdx_eq.mp found).1
    simp only [slice, List.length_drop, List.length_take, Nat.min_eq_left inside] at bound
    -- the delimiter is at or after `stop - 1`
    have reached : pos + min (t.stop - 1 - pos) window.length = max pos (t.stop - 1) := by omega
    have decided := after_found (by omega) found
    rw [reached] at decided
    rw [unpassed, decided, is.part (by omega)]
    refine ⟨?_, by omega⟩
    rw [← reached, Nat.add_assoc, Nat.add_assoc, Nat.add_assoc]
  · rename_i missing
    right
    rw [is.drop]
    refine ⟨rfl, ?_⟩
    by_cases reached : t.stop - 1 ≤ pos + window.length
    · have here : pos + min (t.stop - 1 - pos) window.length = max pos (t.stop - 1) := by omega
      rw [here] at missing
      rw [unpassed, after_skip (by omega) inside missing, Nat.max_eq_left reached]
    · rw [Nat.max_eq_right (by omega)]

/-- Where a trim is after the windows up to `pos`, with the bytes handed on so far. -/
def Progress (object : Bytes) (range : SplitRange) (t : RangeTrim) (pos : Nat) (out : Bytes) :
    Prop :=
  (∃ phase, t = ⟨range.start, range.stop, range.delimiter, object.length, phase⟩) ∧
    match t.phase with
    | .seek => range.start ≠ 0 ∧ pos < range.stop - 1 ∧ out = [] ∧
        after object range.delimiter (range.start - 1) = after object range.delimiter pos
    | .emit => recordStart object range.delimiter range.start ≤ pos ∧ pos ≤ object.length ∧
        out = slice object (recordStart object range.delimiter range.start) pos ∧
        after object range.delimiter (range.stop - 1) =
          after object range.delimiter (max pos (range.stop - 1))
    | .done => out = owned object range

variable {range : SplitRange}

theorem new_progress (nonempty : range.start < range.stop) :
    Progress object range (new range object.length) (new range object.length).firstByte [] := by
  refine ⟨⟨_, rfl⟩, ?_⟩
  unfold new firstByte
  by_cases first : range.start = 0
  · simp only [first, if_true]
    refine ⟨Nat.zero_le _, Nat.zero_le _, ?_, ?_⟩
    · exact (slice_self object 0).symm
    · rw [Nat.max_eq_right (Nat.zero_le _)]
  · simp only [first, if_false]
    exact ⟨first, by omega, trivial, trivial⟩

theorem feed_progress {out : Bytes} (nonempty : range.start < range.stop)
    (progress : Progress object range t pos out) (is : IsWindow object pos window) :
    Progress object range (t.feed pos window).1 (pos + window.length)
      (out ++ (t.feed pos window).2) := by
  obtain ⟨⟨phase, rfl⟩, state⟩ := progress
  have inside := is.inside
  -- what is owned, once forwarding has begun at `begin`
  have emitted (begin from' : Nat) (out : Bytes)
      (start : begin = recordStart object range.delimiter range.start)
      (before : out = slice object begin (pos + from')) (ordered : begin ≤ pos + from')
      (fits : from' ≤ min (range.stop - 1 - pos) window.length)
      (unpassed : after object range.delimiter (range.stop - 1) =
        after object range.delimiter (max pos (range.stop - 1))) :
      Progress object range
        (forward ⟨range.start, range.stop, range.delimiter, object.length, .emit⟩ pos window
          from').1 (pos + window.length)
        (out ++ (forward ⟨range.start, range.stop, range.delimiter, object.length, .emit⟩ pos
          window from').2) := by
    rcases forward_spec (t := ⟨range.start, range.stop, range.delimiter, object.length, .emit⟩)
      is fits unpassed with ⟨same, bound⟩ | ⟨same, later⟩
    · rw [same]
      refine ⟨⟨_, rfl⟩, ?_⟩
      dsimp only
      rw [before, slice_append object ordered bound, start]
      have stop : recordStart object range.delimiter range.stop =
          after object range.delimiter (range.stop - 1) := if_neg (by omega)
      unfold owned
      rw [stop]
    · rw [same]
      refine ⟨⟨_, rfl⟩, ?_⟩
      dsimp only
      refine ⟨by omega, inside, ?_, later⟩
      rw [before, slice_append object ordered (by omega), start]
  cases phase with
  | done =>
    refine ⟨⟨.done, rfl⟩, ?_⟩
    change out ++ [] = _
    rw [List.append_nil]
    exact state
  | emit =>
    obtain ⟨ordered, _, before, unpassed⟩ := state
    exact emitted _ 0 out rfl before ordered (Nat.zero_le _) unpassed
  | seek =>
    obtain ⟨positive, early, rfl, same⟩ := state
    have start : recordStart object range.delimiter range.start =
        after object range.delimiter (range.start - 1) := if_neg positive
    have seekLen : min (range.stop - 1 - pos) window.length ≤ window.length :=
      Nat.min_le_right _ _
    simp only [feed]
    rw [is.take seekLen]
    split
    · rename_i idx found
      have bound := (List.findIdx?_eq_some_iff_findIdx_eq.mp found).1
      simp only [slice, List.length_drop, List.length_take] at bound
      have first := after_found (by omega) found
      rw [← same, ← start] at first
      refine emitted _ (idx + 1) [] rfl ?_ (by omega) (by omega) ?_
      · rw [first, ← Nat.add_assoc, slice_self]
      · rw [Nat.max_eq_right (by omega)]
    · rename_i missing
      split
      · rename_i reached
        refine ⟨⟨_, rfl⟩, ?_⟩
        have here : pos + min (range.stop - 1 - pos) window.length = range.stop - 1 := by
          omega
        rw [here] at missing
        have stop : recordStart object range.delimiter range.stop =
            after object range.delimiter (range.stop - 1) := if_neg (by omega)
        change [] = owned object range
        unfold owned
        rw [start, stop, same, after_skip (by omega) (by omega) missing, slice_self]
      · rename_i unreached
        refine ⟨⟨_, rfl⟩, ?_⟩
        have here : pos + min (range.stop - 1 - pos) window.length = pos + window.length := by
          omega
        rw [here] at missing
        exact ⟨positive, by omega, rfl, same.trans (after_skip (by omega) inside missing)⟩

theorem progress_ended {rangeBytes chunkBytes : Nat} {out : Bytes}
    (nonempty : range.start < range.stop) (fits : range.stop ≤ object.length)
    (progress : Progress object range t pos out)
    (ended : t.nextWindow pos rangeBytes chunkBytes = none) : out = owned object range := by
  obtain ⟨⟨phase, rfl⟩, state⟩ := progress
  unfold nextWindow at ended
  split at ended
  · rename_i spent
    cases phase with
    | done => exact state
    | seek =>
      obtain ⟨_, early, _⟩ := state
      simp only [reduceCtorEq, false_or] at spent
      omega
    | emit =>
      obtain ⟨_, bound, same, unpassed⟩ := state
      simp only [reduceCtorEq, false_or] at spent
      obtain rfl : pos = object.length := by omega
      have stop : recordStart object range.delimiter range.stop =
          after object range.delimiter (range.stop - 1) := if_neg (by omega)
      have last : after object range.delimiter object.length = object.length := by
        have low := le_after range.delimiter (Nat.le_refl object.length)
        have high := after_le object range.delimiter object.length
        omega
      unfold owned
      rw [same, stop, unpassed, Nat.max_eq_left (by omega), last]
  · cases ended

theorem nextWindow_some {rangeBytes chunkBytes stop : Nat}
    (window : t.nextWindow pos rangeBytes chunkBytes = some stop) : pos < stop ∧ stop ≤ t.size := by
  unfold nextWindow at window
  split at window
  · cases window
  · rename_i going
    have inside : pos < t.size := by
      simp only [not_or] at going
      omega
    cases window
    refine ⟨?_, Nat.min_le_right _ _⟩
    apply Nat.lt_min.mpr
    refine ⟨?_, inside⟩
    split
    · omega
    · split <;> omega

end RangeTrim

/-- Each read answers a non-empty part of the window, from its start. -/
def Prefixes (object : Bytes) (read : Nat → Nat → Except ε Bytes) : Prop :=
  ∀ start stop, start < stop → stop ≤ object.length →
    ∃ len, 0 < len ∧ start + len ≤ stop ∧ read start stop = .ok (slice object start (start + len))

theorem readWindows_owned {object : Bytes} {read : Nat → Nat → Except ε Bytes}
    (prefixes : Prefixes object read) {range : SplitRange} (nonempty : range.start < range.stop)
    (fits : range.stop ≤ object.length) (rangeBytes chunkBytes : Nat) :
    ∀ (fuel : Nat) (t : RangeTrim) (pos : Nat) (out : Bytes),
      RangeTrim.Progress object range t pos out → object.length - pos < fuel →
      ∃ reading, readWindows read object.length rangeBytes chunkBytes fuel (some t) pos =
          some reading ∧
        out ++ reading.pieces.flatten = owned object range ∧ reading.failure = none ∧
        ∀ window ∈ reading.windows, window.1 < window.2 ∧ window.2 ≤ object.length := by
  intro fuel
  induction fuel with
  | zero =>
    intro t pos out _ enough
    omega
  | succ fuel ih =>
    intro t pos out progress enough
    have size : t.size = object.length := by
      obtain ⟨⟨phase, rfl⟩, _⟩ := progress
      rfl
    unfold readWindows
    cases window : windowEnd (some t) object.length rangeBytes chunkBytes pos with
    | none =>
      refine ⟨⟨[], [], none⟩, rfl, ?_, rfl, nofun⟩
      rw [List.flatten_nil, List.append_nil]
      exact RangeTrim.progress_ended nonempty fits progress window
    | some stop =>
      obtain ⟨forward, inside⟩ := RangeTrim.nextWindow_some window
      rw [size] at inside
      obtain ⟨len, positive, short, answer⟩ := prefixes pos stop forward inside
      have length : (slice object pos (pos + len)).length = len := by
        simp only [slice, List.length_drop, List.length_take]
        omega
      have is : RangeTrim.IsWindow object pos (slice object pos (pos + len)) :=
        ⟨by omega, by rw [length]⟩
      have fed := RangeTrim.feed_progress nonempty progress is
      obtain ⟨rest, more, joined, succeeded, bounded⟩ := ih _ _ _ fed (by omega)
      refine ⟨⟨(pos, stop) :: rest.windows,
        (t.feed pos (slice object pos (pos + len))).2 :: rest.pieces, rest.failure⟩,
        ?_, ?_, succeeded, ?_⟩
      · simp only [answer, feedWindow, more, Option.map_some]
      · rw [List.flatten_cons, ← List.append_assoc]
        exact joined
      · intro other member
        rcases List.mem_cons.mp member with rfl | later
        · exact ⟨forward, inside⟩
        · exact bounded other later

section Pieces

variable {object : Bytes} {delimiter : UInt8}

variable {start stop : Nat} {ranges : List SplitRange}

theorem Cut.le (cut : Cut delimiter start ranges stop) : start ≤ stop := by
  induction cut with
  | nil => exact Nat.le_refl _
  | cons nonempty more ih => omega

theorem Cut.mem (cut : Cut delimiter start ranges stop) {range : SplitRange}
    (member : range ∈ ranges) :
    range.start < range.stop ∧ range.stop ≤ stop ∧ range.delimiter = delimiter := by
  induction cut with
  | nil => cases member
  | cons nonempty more ih =>
    rcases List.mem_cons.mp member with rfl | later
    · exact ⟨nonempty, more.le, rfl⟩
    · exact ih later

theorem Cut.flatten (cut : Cut delimiter start ranges stop) (inside : stop ≤ object.length) :
    (ranges.map (owned object)).flatten =
      slice object (recordStart object delimiter start) (recordStart object delimiter stop) := by
  induction cut with
  | nil => exact (slice_self object _).symm
  | @cons start middle stop rest nonempty more ih =>
    rw [List.map_cons, List.flatten_cons, ih inside]
    have bound := more.le
    have first : recordStart object delimiter start ≤ recordStart object delimiter middle :=
      recordStart_mono (Nat.le_of_lt nonempty) (Nat.le_trans bound inside)
    exact slice_append object first (recordStart_mono bound inside)

theorem cut_steps (delimiter : UInt8) {boundary : Nat → Nat}
    (rises : ∀ i, boundary i < boundary (i + 1)) (count : Nat) : ∀ first,
    Cut delimiter (boundary first)
      ((List.range count).map fun i =>
        ⟨boundary (first + i), boundary (first + i + 1), delimiter⟩)
      (boundary (first + count)) := by
  induction count with
  | zero => exact fun first => .nil _
  | succ count ih =>
    intro first
    rw [List.range_succ_eq_map, List.map_cons, List.map_map]
    have later := ih (first + 1)
    have shift : first + 1 + count = first + (count + 1) := by omega
    rw [shift] at later
    apply Cut.cons (rises first)
    convert later using 3
    rename_i i
    simp only [Function.comp_apply, Nat.succ_eq_add_one, Nat.add_assoc, Nat.add_comm 1]

theorem tile_cut {size target : Nat} (nonempty : 0 < size) (positive : 0 < target)
    (delimiter : UInt8) : Cut delimiter 0 (tile size target delimiter) size := by
  unfold tile
  dsimp only
  generalize count : (size + target - 1) / target = n
  have some : 0 < n := by
    rw [← count]
    exact Nat.div_pos (by omega) positive
  have few : n ≤ size := by
    rw [← count]
    apply Nat.div_le_of_le_mul
    obtain ⟨a, rfl⟩ := Nat.exists_eq_succ_of_ne_zero (Nat.ne_of_gt nonempty)
    obtain ⟨b, rfl⟩ := Nat.exists_eq_succ_of_ne_zero (Nat.ne_of_gt positive)
    rw [Nat.succ_mul, Nat.mul_succ]
    omega
  have rises (i : Nat) : i * size / n < (i + 1) * size / n := by
    have step : (i * size + n) / n = i * size / n + 1 := Nat.add_div_right _ some
    have larger : (i * size + n) / n ≤ (i + 1) * size / n := by
      apply Nat.div_le_div_right
      rw [Nat.succ_mul]
      omega
    omega
  have steps := cut_steps delimiter rises n 0
  simp only [Nat.zero_mul, Nat.zero_div, Nat.zero_add, Nat.mul_div_cancel_left size some] at steps
  exact steps

/-- A piece starts a record and ends one. -/
structure WholeRecords (object : Bytes) (delimiter : UInt8) (piece : Bytes) : Prop where
  bounds : ∃ low high, piece = slice object low high ∧
    (low = 0 ∨ ∃ before, low = before + 1 ∧ object[before]? = some delimiter) ∧
    (high = object.length ∨ ∃ before, high = before + 1 ∧ object[before]? = some delimiter)

theorem owned_wholeRecords {range : SplitRange} (nonempty : owned object range ≠ [])
    (positive : range.start < range.stop) :
    WholeRecords object range.delimiter (owned object range) := by
  refine ⟨_, _, rfl, ?_, ?_⟩
  · unfold recordStart
    split
    · exact Or.inl rfl
    · right
      rename_i later
      rcases after_follows object range.delimiter (range.start - 1) with last | follows
      · apply absurd _ nonempty
        have empty : recordStart object range.delimiter range.start = object.length := by
          rw [recordStart, if_neg later, last]
        unfold owned slice
        apply List.drop_eq_nil_of_le
        rw [List.length_take, empty]
        exact Nat.min_le_right _ _
      · exact follows
  · unfold recordStart
    rw [if_neg (by omega)]
    exact after_follows object range.delimiter (range.stop - 1)

theorem slice_getLast? {low before : Nat} (ordered : low ≤ before) {byte : UInt8}
    (found : object[before]? = some byte) :
    (slice object low (before + 1)).getLast? = some byte := by
  have inside := (List.getElem?_eq_some_iff.mp found).1
  unfold slice
  rw [List.getLast?_drop, if_neg (by rw [List.length_take]; omega), List.getLast?_take,
    if_neg (by omega), Nat.add_sub_cancel, found]
  rfl

theorem seam {middle : Nat} (nonempty : start < middle) :
    let piece := owned object ⟨start, middle, delimiter⟩
    slice object (recordStart object delimiter middle) object.length = [] ∨
      piece = [] ∨ piece.getLast? = some delimiter := by
  intro piece
  have stop : recordStart object delimiter middle = after object delimiter (middle - 1) :=
    if_neg (by omega)
  rcases after_follows object delimiter (middle - 1) with last | ⟨before, same, found⟩
  · left
    rw [stop, last, slice_self]
  · right
    by_cases ordered : recordStart object delimiter start ≤ before
    · right
      change (slice object _ (recordStart object delimiter middle)).getLast? = _
      rw [stop, same]
      exact slice_getLast? ordered found
    · left
      change slice object _ (recordStart object delimiter middle) = []
      rw [stop, same]
      apply List.drop_eq_nil_of_le
      rw [List.length_take]
      dsimp only
      omega

/-- Framing piece by piece gives the records of what the pieces make up. -/
theorem Cut.frames {maxRecordBytes : Nat} (cut : Cut Json.newline start ranges stop)
    (whole : stop = object.length)
    (within : Within maxRecordBytes
      (slice object (recordStart object Json.newline start) object.length)) :
    ∀ chunks : List (List Bytes), chunks.map List.flatten = ranges.map (owned object) →
      ∃ framed, chunks.mapM (NdjsonFramer.frame maxRecordBytes) = .ok framed ∧
        framed.flatten = records (slice object (recordStart object Json.newline start)
          object.length) := by
  induction cut with
  | nil pos =>
    intro chunks same
    obtain rfl : chunks = [] := by simpa using same
    refine ⟨[], rfl, ?_⟩
    rw [whole, recordStart_size, slice_self]
    rfl
  | @cons start middle stop rest nonempty more ih =>
    intro chunks same
    obtain ⟨first, others, rfl⟩ : ∃ first others, chunks = first :: others := by
      cases chunks with
      | nil => simp at same
      | cons first others => exact ⟨first, others, rfl⟩
    obtain ⟨here, later⟩ := List.cons.inj same
    have bound := more.le
    have ordered : recordStart object Json.newline start ≤ recordStart object Json.newline middle :=
      recordStart_mono (Nat.le_of_lt nonempty) (by omega)
    have joined := slice_append object ordered (recordStart_le middle)
    have piece : first.flatten = slice object (recordStart object Json.newline start)
        (recordStart object Json.newline middle) := here
    rw [← joined, ← piece] at within ⊢
    have framedFirst := NdjsonFramer.frame_eq within.left
    have ends : slice object (recordStart object Json.newline middle) object.length = [] ∨
        first.flatten = [] ∨ first.flatten.getLast? = some Json.newline := by
      rw [piece]
      exact seam nonempty
    have parts : records (first.flatten ++
          slice object (recordStart object Json.newline middle) object.length) =
          records first.flatten ++
            records (slice object (recordStart object Json.newline middle) object.length) ∧
        Within maxRecordBytes
          (slice object (recordStart object Json.newline middle) object.length) := by
      rcases ends with empty | cut
      · rw [empty, List.append_nil]
        refine ⟨(List.append_nil _).symm, ?_⟩
        intro line member
        obtain rfl := List.mem_singleton.mp member
        exact Nat.zero_le _
      · exact ⟨Json.records_append cut, within.right cut⟩
    obtain ⟨framed, success, flat⟩ := ih whole parts.2 others later
    refine ⟨records first.flatten :: framed, ?_, ?_⟩
    · rw [List.mapM_cons, framedFirst, success]
      rfl
    · rw [List.flatten_cons, flat, parts.1]

end Pieces

/-- The read of a byte range, whatever its windows and however short their reads: it
ends, asks for no empty window and none past the object, and hands on the bytes. -/
def ReadsExactly (object : Bytes) (range : SplitRange) (piece : Bytes) : Prop :=
  ∀ (ε : Type) (read : Nat → Nat → Except ε Bytes) (rangeBytes chunkBytes : Nat),
    Prefixes object read →
    ∃ reading, readRange read object.length rangeBytes chunkBytes range = some reading ∧
      reading.pieces.flatten = piece ∧ reading.failure = none ∧
      ∀ window ∈ reading.windows, window.1 < window.2 ∧ window.2 ≤ object.length

theorem owned_reads {object : Bytes} {range : SplitRange} (nonempty : range.start < range.stop)
    (fits : range.stop ≤ object.length) : ReadsExactly object range (owned object range) := by
  intro ε read rangeBytes chunkBytes prefixes
  exact readWindows_owned prefixes nonempty fits rangeBytes chunkBytes _ _ _ _
    (RangeTrim.new_progress nonempty) (by omega)

/-- The ranges of any cut read the object's records, each once and in order. -/
theorem ranges_read_exactly {object : Bytes} {delimiter : UInt8} (nonempty : object ≠ []) :
    (∀ target, 0 < target →
      Cut delimiter 0 (tile object.length target delimiter) object.length) ∧
    ∀ ranges, Cut delimiter 0 ranges object.length →
      ∃ pieces, List.Forall₂ (ReadsExactly object) ranges pieces ∧ pieces.flatten = object ∧
        (∀ piece ∈ pieces, piece ≠ [] → WholeRecords object delimiter piece) ∧
        (delimiter = Json.newline → ∀ maxRecordBytes, Within maxRecordBytes object →
          ∀ chunks : List (List Bytes), chunks.map List.flatten = pieces →
            ∃ framed, chunks.mapM (NdjsonFramer.frame maxRecordBytes) = .ok framed ∧
              NdjsonFramer.frame maxRecordBytes [object] = .ok framed.flatten) := by
  constructor
  · intro target positive
    exact tile_cut (List.length_pos_iff.mpr nonempty) positive delimiter
  · intro ranges cut
    have everything : slice object (recordStart object delimiter 0) object.length = object := by
      change (object.take object.length).drop 0 = object
      rw [List.take_length, List.drop_zero]
    refine ⟨ranges.map (owned object), ?_, ?_, ?_, ?_⟩
    · apply List.forall₂_map_right_iff.mpr
      apply List.forall₂_same.mpr
      intro range member
      obtain ⟨positive, fits, _⟩ := cut.mem member
      exact owned_reads positive fits
    · rw [cut.flatten (Nat.le_refl _), recordStart_size, everything]
    · intro piece member some
      obtain ⟨range, present, rfl⟩ := List.mem_map.mp member
      obtain ⟨positive, _, rfl⟩ := cut.mem present
      exact owned_wholeRecords some positive
    · rintro rfl maxRecordBytes within chunks same
      obtain ⟨framed, success, flat⟩ := cut.frames rfl (by rwa [everything]) chunks same
      refine ⟨framed, success, ?_⟩
      rw [flat, everything]
      have single : [object].flatten = object := by simp
      rw [NdjsonFramer.frame_eq (by rwa [single]), single]

/-- Two lines and the start of a third; the first range ends on a delimiter, no record
starts in the second. -/
theorem ranges_read_exactly_three :
    ∃ pieces, List.Forall₂ (ReadsExactly [97, 10, 98, 98, 10, 99])
        [⟨0, 2, 10⟩, ⟨2, 3, 10⟩, ⟨3, 4, 10⟩, ⟨4, 6, 10⟩] pieces ∧
      pieces.flatten = [97, 10, 98, 98, 10, 99] ∧
      ∃ framed, (pieces.map ([·])).mapM (NdjsonFramer.frame 2) = .ok framed ∧
        NdjsonFramer.frame 2 [[97, 10, 98, 98, 10, 99]] = .ok framed.flatten := by
  have cut : Cut 10 0 [⟨0, 2, 10⟩, ⟨2, 3, 10⟩, ⟨3, 4, 10⟩, ⟨4, 6, 10⟩] 6 :=
    .cons (by decide) (.cons (by decide) (.cons (by decide) (.cons (by decide) (.nil _))))
  obtain ⟨pieces, reads, joined, _, frames⟩ :=
    (ranges_read_exactly (show ([97, 10, 98, 98, 10, 99] : Bytes) ≠ [] by decide)).2 _ cut
  have within : Within 2 [97, 10, 98, 98, 10, 99] := by unfold Within; decide
  have whole : (pieces.map ([·])).map List.flatten = pieces := by
    rw [List.map_map]
    exact (List.map_congr_left fun piece _ => List.flatten_singleton).trans (List.map_id _)
  exact ⟨pieces, reads, joined, frames rfl 2 within _ whole⟩

example : (readRange (fun start _ => .ok (slice [97, 10, 98, 98, 10, 99] start (start + 1)) :
    Nat → Nat → Except Unit Bytes) 6 1 1 ⟨1, 3, 10⟩).map (·.pieces.flatten) =
      some [98, 98, 10] := by decide

end Spate.S3
