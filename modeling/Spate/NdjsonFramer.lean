import Mathlib.Algebra.GroupWithZero.Nat
import Mathlib.Data.List.Basic

set_option autoImplicit false

/- Streaming NDJSON record framing (`spate-json/src/framing.rs`). -/
namespace Spate.Json

abbrev Bytes : Type := List UInt8

def newline : UInt8 := 10

def carriageReturn : UInt8 := 13

def isAsciiWhitespace (byte : UInt8) : Bool :=
  byte = 32 ∨ byte = 9 ∨ byte = 10 ∨ byte = 12 ∨ byte = 13

structure NdjsonFramer where
  /-- `partial`: the bytes of the current line, not yet terminated. -/
  unterminated : Bytes
  ready : List Bytes
  decodedBytes : Nat
  maxRecordBytes : Nat
  deriving DecidableEq

/-- The record a line is, if it is one: one `\r` is stripped, and a line of whitespace
is skipped. -/
def record? (line : Bytes) : Option Bytes :=
  let line := if line.getLast? = some carriageReturn then line.dropLast else line
  if line.all isAsciiWhitespace then none else some line

namespace NdjsonFramer

def new (maxRecordBytes : Nat) : NdjsonFramer := ⟨[], [], 0, maxRecordBytes⟩

/-- Extends the current line; an error is the text of an `InvalidData` error. -/
def pushPartial (f : NdjsonFramer) (bytes : Bytes) : NdjsonFramer × Except String Unit :=
  if f.maxRecordBytes < f.unterminated.length + bytes.length then
    (f, .error ("record line exceeds the configured max_record_bytes (" ++
      toString f.maxRecordBytes ++ "); is the stream really newline-delimited?"))
  else ({ f with unterminated := f.unterminated ++ bytes }, .ok ())

def completeLine (f : NdjsonFramer) : NdjsonFramer :=
  { f with unterminated := [], ready := f.ready ++ (record? f.unterminated).toList }

/-- The loop of `push` over the lines of its bytes: all but the last are terminated. -/
def pushLines : NdjsonFramer → List Bytes → NdjsonFramer × Except String Unit
  | f, [] => (f, .ok ())
  | f, [rest] => f.pushPartial rest
  | f, line :: rest =>
    match f.pushPartial line with
    | (f, .ok ()) => pushLines f.completeLine rest
    | (f, .error text) => (f, .error text)

def push (f : NdjsonFramer) (bytes : Bytes) : NdjsonFramer × Except String Unit :=
  pushLines { f with decodedBytes := f.decodedBytes + bytes.length } (bytes.splitOn newline)

def pushAll : NdjsonFramer → List Bytes → NdjsonFramer × Except String Unit
  | f, [] => (f, .ok ())
  | f, bytes :: rest =>
    match f.push bytes with
    | (f, .ok ()) => pushAll f rest
    | (f, .error text) => (f, .error text)

def finish (f : NdjsonFramer) : NdjsonFramer :=
  if f.unterminated = [] then f else f.completeLine

def pop (f : NdjsonFramer) : Option Bytes × NdjsonFramer :=
  (f.ready.head?, { f with ready := f.ready.tail })

inductive Call
  | push (bytes : Bytes)
  | pop
  deriving DecidableEq

def Call.bytes : Call → Bytes
  | .push bytes => bytes
  | .pop => []

/-- The calls in order, up to the first that fails, with the records popped so far. -/
def feed : List Call → NdjsonFramer × List Bytes → (NdjsonFramer × List Bytes) × Except String Unit
  | [], s => (s, .ok ())
  | .pop :: rest, (f, popped) => feed rest (f.pop.2, popped ++ f.pop.1.toList)
  | .push bytes :: rest, (f, popped) =>
    match f.push bytes with
    | (f, .ok ()) => feed rest (f, popped)
    | (f, .error text) => ((f, popped), .error text)

/-- The records a stream yields and whether it failed; it is finished after the calls. -/
def yields (maxRecordBytes : Nat) (calls : List Call) : List Bytes × Bool :=
  match feed calls (.new maxRecordBytes, []) with
  | ((f, popped), .ok ()) => (popped ++ f.finish.ready, false)
  | ((f, popped), .error _) => (popped ++ f.ready, true)

/-- A stream pushed in chunks, then finished; its records are popped in order. -/
def frame (maxRecordBytes : Nat) (chunks : List Bytes) : Except String (List Bytes) :=
  match (new maxRecordBytes).pushAll chunks with
  | (f, .ok ()) => .ok f.finish.ready
  | (_, .error text) => .error text

end NdjsonFramer

def records (bytes : Bytes) : List Bytes := (bytes.splitOn newline).filterMap record?

variable {first second : Bytes} {maxRecordBytes : Nat}

theorem splitOn_append {front : List Bytes} {tail line : Bytes} {rest : List Bytes}
    (left : first.splitOn newline = front ++ [tail])
    (right : second.splitOn newline = line :: rest) :
    (first ++ second).splitOn newline = front ++ (tail ++ line) :: rest := by
  induction first generalizing front tail with
  | nil =>
    rw [List.splitOn_nil] at left
    cases front with
    | nil =>
      cases left
      exact right
    | cons head more => simp at left
  | cons byte bytes ih =>
    rw [List.splitOn_cons_eq_if_modifyHead] at left
    rw [List.cons_append, List.splitOn_cons_eq_if_modifyHead]
    split
    · rename_i separator
      rw [if_pos separator] at left
      cases front with
      | nil =>
        have nonempty := List.splitOn_ne_nil newline bytes
        simp at left
      | cons head more =>
        obtain ⟨rfl, lines⟩ := List.cons.inj left
        rw [ih lines]
        rfl
    · rename_i inside
      rw [if_neg inside] at left
      obtain ⟨head, more, lines⟩ := List.exists_cons_of_ne_nil (List.splitOn_ne_nil newline bytes)
      rw [lines, List.modifyHead_cons] at left
      cases front with
      | nil =>
        obtain ⟨rfl, rfl⟩ := List.cons.inj left
        have lines : bytes.splitOn newline = [] ++ [head] := lines
        rw [ih lines]
        rfl
      | cons _ others =>
        obtain ⟨rfl, rfl⟩ := List.cons.inj left
        have lines : bytes.splitOn newline = (head :: others) ++ [tail] := lines
        rw [ih lines]
        rfl

def Within (maxRecordBytes : Nat) (bytes : Bytes) : Prop :=
  ∀ line ∈ bytes.splitOn newline, line.length ≤ maxRecordBytes

instance (maxRecordBytes : Nat) (bytes : Bytes) : Decidable (Within maxRecordBytes bytes) :=
  inferInstanceAs (Decidable (∀ line ∈ bytes.splitOn newline, line.length ≤ maxRecordBytes))

theorem Within.left (within : Within maxRecordBytes (first ++ second)) :
    Within maxRecordBytes first := by
  obtain ⟨line, rest, right⟩ := List.exists_cons_of_ne_nil (List.splitOn_ne_nil newline second)
  have lines := List.dropLast_concat_getLast (List.splitOn_ne_nil newline first)
  unfold Within at within
  rw [splitOn_append lines.symm right] at within
  intro l member
  rw [← lines] at member
  rcases List.mem_append.mp member with inside | last
  · exact within l (List.mem_append_left _ inside)
  · obtain rfl := List.mem_singleton.mp last
    have seam := within _ (List.mem_append_right _ List.mem_cons_self)
    rw [List.length_append] at seam
    omega

/-- The lines before the first that is longer than the cap. -/
def linesBefore (maxRecordBytes : Nat) (bytes : Bytes) : List Bytes :=
  (bytes.splitOn newline).takeWhile fun line => line.length ≤ maxRecordBytes

/-- What a stream frames to: its records, and whether framing it fails. A stream that is
not `whole` breaks off after `bytes`, and its last line is not a record. -/
def outcome (maxRecordBytes : Nat) (bytes : Bytes) (whole : Bool) : List Bytes × Bool :=
  if Within maxRecordBytes bytes then
    if whole then (records bytes, false)
    else ((bytes.splitOn newline).dropLast.filterMap record?, true)
  else ((linesBefore maxRecordBytes bytes).filterMap record?, true)

theorem takeWhile_seam {fits : Bytes → Bool} {tail longer : Bytes}
    (worse : fits tail = false → fits longer = false) (rest : List Bytes) {front : List Bytes}
    (long : ∃ line ∈ front ++ [tail], fits line = false) :
    (front ++ longer :: rest).takeWhile fits = (front ++ [tail]).takeWhile fits := by
  induction front with
  | nil =>
    obtain ⟨line, member, long⟩ := long
    obtain rfl := List.mem_singleton.mp member
    simp [long, worse long]
  | cons line more ih =>
    rw [List.cons_append, List.cons_append]
    cases short : fits line with
    | false => simp [short]
    | true =>
      rw [List.takeWhile_cons_of_pos short, List.takeWhile_cons_of_pos short, ih]
      obtain ⟨other, member, long⟩ := long
      rcases List.mem_cons.mp member with rfl | member
      · rw [short] at long
        cases long
      · exact ⟨other, member, long⟩

/-- A line that is too long stays too long, and comes after the same lines. -/
theorem linesBefore_append (long : ¬Within maxRecordBytes first) (second : Bytes) :
    ¬Within maxRecordBytes (first ++ second) ∧
      linesBefore maxRecordBytes (first ++ second) = linesBefore maxRecordBytes first := by
  refine ⟨fun within => long within.left, ?_⟩
  obtain ⟨line, rest, right⟩ := List.exists_cons_of_ne_nil (List.splitOn_ne_nil newline second)
  have lines := (List.dropLast_concat_getLast (List.splitOn_ne_nil newline first)).symm
  have some : ∃ line ∈ first.splitOn newline, decide (line.length ≤ maxRecordBytes) = false := by
    unfold Within at long
    simpa using long
  unfold linesBefore
  rw [splitOn_append lines right]
  rw [lines] at some
  refine (takeWhile_seam (fun tooLong => ?_) rest some).trans (by rw [← lines])
  rw [decide_eq_false_iff_not] at tooLong ⊢
  rw [List.length_append]
  omega

namespace NdjsonFramer

/-- `f` has taken `pushed`, every line of it within the cap; `popped` was popped before. -/
structure Framed (popped : List Bytes) (f : NdjsonFramer) (pushed : Bytes) : Prop where
  within : Within f.maxRecordBytes pushed
  lines : ∃ front, pushed.splitOn newline = front ++ [f.unterminated] ∧
    popped ++ f.ready = front.filterMap record?

structure Broken (popped : List Bytes) (maxRecordBytes : Nat) (f : NdjsonFramer) (pushed : Bytes) :
    Prop where
  long : ¬Within maxRecordBytes pushed
  records : popped ++ f.ready = (linesBefore maxRecordBytes pushed).filterMap record?

variable {popped : List Bytes} {maxRecordBytes : Nat} {f : NdjsonFramer} {pushed : Bytes}

theorem Broken.extend (broken : Broken popped maxRecordBytes f pushed) (more : Bytes) :
    Broken popped maxRecordBytes f (pushed ++ more) := by
  obtain ⟨long, same⟩ := linesBefore_append broken.long more
  exact ⟨long, by rw [same, broken.records]⟩

/-- The framer has yielded what it will of any stream that goes on from `pushed`. -/
theorem Broken.outcome (broken : Broken popped maxRecordBytes f pushed) (whole : Bool) :
    outcome maxRecordBytes pushed whole = (popped ++ f.ready, true) := by
  rw [Json.outcome, if_neg broken.long, broken.records]

/-- What pushing `lines` after the framer's own does, the first of them joined to its
unterminated line. -/
inductive Pushed (f : NdjsonFramer) (lines : List Bytes) : NdjsonFramer × Except String Unit → Prop
  | ok {next : NdjsonFramer} {front : List Bytes} (cap : next.maxRecordBytes = f.maxRecordBytes)
      (fits : ∀ line ∈ lines, line.length ≤ f.maxRecordBytes)
      (split : lines = front ++ [next.unterminated])
      (ready : next.ready = f.ready ++ front.filterMap record?) : Pushed f lines (next, .ok ())
  | error {next : NdjsonFramer} {text : String}
      (long : ∃ line ∈ lines, f.maxRecordBytes < line.length)
      (ready : next.ready = f.ready ++
        (lines.takeWhile fun line => line.length ≤ f.maxRecordBytes).filterMap record?) :
      Pushed f lines (next, .error text)

theorem pushed_long {line : Bytes} (long : f.maxRecordBytes < f.unterminated.length + line.length)
    (rest : List Bytes) (text : String) :
    Pushed f ((f.unterminated ++ line) :: rest) (f, .error text) := by
  rw [← List.length_append] at long
  refine .error ⟨_, List.mem_cons_self, long⟩ ?_
  rw [List.takeWhile_cons_of_neg (by simpa using long)]
  exact (List.append_nil _).symm

theorem pushed_lines (lines : List Bytes) : ∀ (f : NdjsonFramer) (line : Bytes),
    Pushed f ((f.unterminated ++ line) :: lines) (pushLines f (line :: lines)) := by
  induction lines with
  | nil =>
    intro f line
    simp only [pushLines, pushPartial]
    split
    · rename_i long
      exact pushed_long long [] _
    · rename_i short
      refine .ok rfl (fun other member => ?_) (List.nil_append _).symm (by simp)
      rw [List.mem_singleton.mp member, List.length_append]
      omega
  | cons next rest ih =>
    intro f line
    unfold pushLines pushPartial
    split
    · rename_i grown short
      split at short
      · cases short
      · rename_i fits
        cases short
        have first : (f.unterminated ++ line).length ≤ f.maxRecordBytes := by
          rw [List.length_append]
          omega
        have queued : ∀ more : List Bytes, (f.ready ++ (record? (f.unterminated ++ line)).toList) ++
            more.filterMap record? =
              f.ready ++ ((f.unterminated ++ line) :: more).filterMap record? := by
          intro more
          cases record : record? (f.unterminated ++ line) <;> simp [record]
        have later := ih (completeLine { f with unterminated := f.unterminated ++ line }) next
        generalize pushLines (completeLine { f with unterminated := f.unterminated ++ line })
          (next :: rest) = result at later
        cases later with
        | @ok last front cap fits split ready =>
          refine .ok cap ?_ (congrArg _ split) (ready.trans (queued front))
          exact List.forall_mem_cons.mpr ⟨first, fits⟩
        | @error last text long ready =>
          obtain ⟨other, member, long⟩ := long
          refine .error ⟨other, List.mem_cons_of_mem _ member, long⟩ ?_
          rw [List.takeWhile_cons_of_pos (by simpa using first)]
          exact ready.trans (queued _)
    · rename_i same text failed
      split at failed
      · rename_i long
        cases failed
        exact pushed_long long _ _
      · cases failed

inductive Takes (popped : List Bytes) (f : NdjsonFramer) (pushed bytes : Bytes) :
    NdjsonFramer × Except String Unit → Prop
  | ok {next : NdjsonFramer} (cap : next.maxRecordBytes = f.maxRecordBytes)
      (framed : Framed popped next (pushed ++ bytes)) : Takes popped f pushed bytes (next, .ok ())
  | error {next : NdjsonFramer} {text : String}
      (broken : Broken popped f.maxRecordBytes next (pushed ++ bytes)) :
      Takes popped f pushed bytes (next, .error text)

theorem takes_push (framed : Framed popped f pushed) (bytes : Bytes) :
    Takes popped f pushed bytes (f.push bytes) := by
  obtain ⟨within, front, lines, ready⟩ := framed
  obtain ⟨line, rest, right⟩ := List.exists_cons_of_ne_nil (List.splitOn_ne_nil newline bytes)
  have joined := splitOn_append lines right
  have before : ∀ l ∈ front, l.length ≤ f.maxRecordBytes := by
    intro l member
    exact within l (lines ▸ List.mem_append_left _ member)
  unfold push
  rw [right]
  have pushes := pushed_lines rest { f with decodedBytes := f.decodedBytes + bytes.length } line
  generalize pushLines { f with decodedBytes := f.decodedBytes + bytes.length } (line :: rest) =
    result
    at pushes
  cases pushes with
  | @ok next more cap fits split grown =>
    refine .ok cap ⟨?_, front ++ more, ?_, ?_⟩
    · intro l member
      rw [joined] at member
      rw [cap]
      rcases List.mem_append.mp member with member | member
      · exact before l member
      · exact fits l member
    · rw [joined, List.append_assoc]
      exact congrArg _ split
    · rw [grown, List.filterMap_append, ← ready, List.append_assoc]
  | @error next text long grown =>
    refine .error ⟨?_, ?_⟩
    · obtain ⟨l, member, long⟩ := long
      intro within
      exact absurd (within l (joined ▸ List.mem_append_right _ member)) (Nat.not_le.mpr long)
    · rw [grown, linesBefore, joined,
        List.takeWhile_append_of_pos fun l member => decide_eq_true (before l member),
        List.filterMap_append, ← ready, List.append_assoc]

theorem takes_pushAll (runs : List Bytes) :
    ∀ {popped : List Bytes} {f : NdjsonFramer} {pushed : Bytes},
    Framed popped f pushed → Takes popped f pushed runs.flatten (f.pushAll runs) := by
  induction runs with
  | nil =>
    intro popped f pushed framed
    exact .ok rfl (by rwa [List.flatten_nil, List.append_nil])
  | cons bytes rest ih =>
    intro popped f pushed framed
    have first := takes_push framed bytes
    unfold pushAll
    rw [List.flatten_cons]
    generalize f.push bytes = result at first
    cases first with
    | @ok next cap framed =>
      have later := ih framed
      dsimp only
      generalize next.pushAll rest = last at later
      cases later with
      | ok same framed =>
        rw [List.append_assoc] at framed
        exact .ok (same.trans cap) framed
      | error broken =>
        rw [List.append_assoc, cap] at broken
        exact .error broken
    | error broken =>
      have extended := broken.extend rest.flatten
      rw [List.append_assoc] at extended
      exact .error extended

theorem framed_new (maxRecordBytes : Nat) : Framed [] (.new maxRecordBytes) [] :=
  ⟨by simp [Within], [], rfl, rfl⟩

theorem finish_ready (framed : Framed popped f pushed) :
    popped ++ f.finish.ready = records pushed := by
  obtain ⟨-, front, lines, ready⟩ := framed
  unfold records finish
  rw [lines, List.filterMap_append, ← ready]
  split
  · rename_i empty
    rw [empty]
    exact (List.append_nil _).symm
  · unfold completeLine
    cases record : record? f.unterminated <;> simp [record]

theorem Framed.outcome (framed : Framed popped f pushed) :
    outcome f.maxRecordBytes pushed true = (popped ++ f.finish.ready, false) := by
  rw [Json.outcome, if_pos framed.within, if_pos rfl, finish_ready framed]

theorem Framed.outcome_broken (framed : Framed popped f pushed) :
    Json.outcome f.maxRecordBytes pushed false = (popped ++ f.ready, true) := by
  obtain ⟨within, front, lines, ready⟩ := framed
  rw [Json.outcome, if_pos within, if_neg (by decide), lines, List.dropLast_concat, ready]

theorem Framed.pop (framed : Framed popped f pushed) :
    Framed (popped ++ f.pop.1.toList) f.pop.2 pushed := by
  obtain ⟨within, front, lines, ready⟩ := framed
  refine ⟨within, front, lines, ?_⟩
  rw [← ready]
  change popped ++ f.ready.head?.toList ++ f.ready.tail = _
  cases f.ready <;> simp

theorem frame_eq {chunks : List Bytes} (within : Within maxRecordBytes chunks.flatten) :
    frame maxRecordBytes chunks = .ok (records chunks.flatten) := by
  have takes := takes_pushAll chunks (framed_new maxRecordBytes)
  unfold frame
  generalize (new maxRecordBytes).pushAll chunks = result at takes
  cases takes with
  | ok cap framed => exact congrArg Except.ok (finish_ready framed)
  | error broken => exact absurd within broken.long

end NdjsonFramer

/-- A stream cut right after a newline: the records of the parts, one after the other. -/
theorem records_append (cut : first = [] ∨ first.getLast? = some newline) :
    records (first ++ second) = records first ++ records second := by
  rcases cut with rfl | ends
  · rfl
  · obtain ⟨before, rfl⟩ := List.getLast?_eq_some_iff.mp ends
    unfold records
    rw [List.append_assoc, List.singleton_append, List.splitOn_append_cons_self,
      List.splitOn_append_cons_self, List.filterMap_append, List.filterMap_append]
    have empty : (List.splitOn newline ([] : Bytes)).filterMap record? = [] := rfl
    rw [empty, List.append_nil]

theorem Within.right (cut : first = [] ∨ first.getLast? = some newline)
    (within : Within maxRecordBytes (first ++ second)) : Within maxRecordBytes second := by
  rcases cut with rfl | ends
  · exact within
  · obtain ⟨before, rfl⟩ := List.getLast?_eq_some_iff.mp ends
    unfold Within at within
    rw [List.append_assoc, List.singleton_append, List.splitOn_append_cons_self] at within
    exact fun line member => within line (List.mem_append_right _ member)

end Spate.Json
