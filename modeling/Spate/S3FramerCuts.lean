import Spate.S3Framer

set_option autoImplicit false

/- Framing an object does not depend on how it was cut into chunks, nor on how its chunks
were pumped and its records popped. -/
namespace Spate.S3

open Spate.Json (Bytes NdjsonFramer Within record? records newline linesBefore outcome)

/-- A call to the framer while an object is in progress. -/
inductive FramerCall
  | pushChunk (chunk : Bytes)
  | pump
  | popRecord
  deriving DecidableEq

def FramerCall.chunk : FramerCall → Bytes
  | .pushChunk chunk => chunk
  | _ => []

def bytesOf (calls : List FramerCall) : Bytes := calls.flatMap FramerCall.chunk

namespace ObjectFramer

variable {σ : Type} (dec : Decoder σ)

def popRecord (f : ObjectFramer σ) : Option Bytes × ObjectFramer σ :=
  (f.ready.head?, { f with ready := f.ready.tail })

def call (s : ObjectFramer σ × List Bytes) : FramerCall →
    (ObjectFramer σ × List Bytes) × Except FramerFault Unit
  | .pushChunk chunk =>
    let (f, result) := s.1.pushChunk dec chunk
    ((f, s.2), result)
  | .pump =>
    let (f, result) := s.1.pump dec
    ((f, s.2), result)
  | .popRecord =>
    let (record, f) := s.1.popRecord
    ((f, s.2 ++ record.toList), .ok ())

def feed : List FramerCall → ObjectFramer σ × List Bytes →
    (ObjectFramer σ × List Bytes) × Except FramerFault Unit
  | [], s => (s, .ok ())
  | first :: rest, s =>
    match call dec s first with
    | (s, .ok ()) => feed rest s
    | (s, .error fault) => (s, .error fault)

/-- The records an object yields and whether it failed, its calls made after
`begin_object` and before `finish_object`; `none` when a call breaks a precondition. -/
def yields (key : String) (calls : List FramerCall) : Option (List Bytes × Bool) :=
  match (new : ObjectFramer σ).beginObject dec key with
  | (_, .error _) => none
  | (f, .ok ()) =>
    match feed dec calls (f, []) with
    | (_, .error .panicked) => none
    | ((f, popped), .error (.error _)) => some (popped ++ f.ready, true)
    | ((f, popped), .ok ()) =>
      match f.finishObject dec with
      | (_, .error .panicked) => none
      | (f, .error (.error _)) => some (popped ++ f.ready, true)
      | (f, .ok ()) => some (popped ++ f.ready, false)

end ObjectFramer

/-! ## Pumps -/

section

variable {σ : Type} {dec : Decoder σ} {key : String}

/-- The write with which a decoder fails on `rest`, after the bytes `consumed`. -/
structure Failing (dec : Decoder σ) (key : String) (consumed rest : Bytes) (out : List Bytes) :
    Prop where
  some : rest ≠ []
  failed : ∃ (sink next : σ) (before records : List Bytes) (result : Except String Nat),
    dec.Fed key consumed sink before ∧ dec.write sink rest = (next, records, result) ∧
      (result = .ok 0 ∨ ∃ text, result = .error text) ∧ out = before ++ records

theorem pumpLoop_error (queued start steps : Nat) :
    ∀ (pending : Bytes) {consumed : Bytes} {sink : σ} {emitted ready : List Bytes} {text : String},
      dec.Fed key consumed sink (emitted ++ ready) →
      (ObjectFramer.pumpLoop dec queued start steps sink ready pending).2 = .error (.error text) →
      ∃ done rest, done ++ rest = pending ∧ Failing dec key (consumed ++ done) rest
        (emitted ++ (ObjectFramer.pumpLoop dec queued start steps sink ready pending).1.ready) := by
  induction steps with
  | zero =>
    intro pending consumed sink emitted ready text fed failed
    cases failed
  | succ steps ih =>
    intro pending consumed sink emitted ready text fed failed
    unfold ObjectFramer.pumpLoop at failed ⊢
    by_cases empty : pending = []
    · rw [if_pos empty] at failed
      cases failed
    · rw [if_neg empty] at failed ⊢
      rcases wrote : dec.write sink pending with ⟨next, records, result⟩
      rw [wrote] at failed
      have here : ∀ {fault : Except String Nat}, result = fault →
          fault = .ok 0 ∨ (∃ text, fault = .error text) →
          ∃ done rest, done ++ rest = pending ∧
            Failing dec key (consumed ++ done) rest (emitted ++ (ready ++ records)) := by
        rintro fault rfl fails
        refine ⟨[], pending, rfl, empty, sink, next, emitted ++ ready, records, result, ?_, wrote,
          fails, (List.append_assoc _ _ _).symm⟩
        rw [List.append_nil]
        exact fed
      cases result with
      | error text => exact here rfl (.inr ⟨text, rfl⟩)
      | ok n =>
        dsimp only at failed ⊢
        split
        · rename_i zero
          exact here rfl (.inl (by rw [zero]))
        · rename_i positive
          rw [if_neg positive] at failed
          split at failed
          · cases failed
          · rename_i goes
            rw [if_neg goes]
            have grown := fed.write wrote
            rw [List.append_assoc] at grown
            obtain ⟨done, rest, joined, failing⟩ := ih (pending.drop n) grown failed
            refine ⟨pending.take n ++ done, rest, ?_, ?_⟩
            · rw [List.append_assoc, joined, List.take_append_drop]
            · rw [← List.append_assoc]
              exact failing

end

/-! ## Calls -/

/-- The framer between two calls: what its decoder consumed and what is pending make up
`fed`, and every record it yielded is popped or ready. -/
structure Feeding {σ : Type} (dec : Decoder σ) (key : String) (fed : Bytes)
    (s : ObjectFramer σ × List Bytes) : Prop where
  decoding : ∃ sink consumed, s.1.sink = some sink ∧
    dec.Fed key consumed sink (s.2 ++ s.1.ready) ∧ consumed ++ s.1.pending = fed

section

variable {σ : Type} {dec : Decoder σ} {key : String} {fed : Bytes}
  {s : ObjectFramer σ × List Bytes}

theorem Feeding.load {f : ObjectFramer σ} {popped : List Bytes}
    (feeding : Feeding dec key fed (f, popped))
    (idle : f.pending = []) (chunk : Bytes) :
    Feeding dec key (fed ++ chunk) ({ f with pending := chunk }, popped) := by
  obtain ⟨sink, consumed, opened, decoding, joined⟩ := feeding.decoding
  dsimp only at joined
  rw [idle, List.append_nil] at joined
  exact ⟨sink, consumed, opened, decoding, by rw [joined]⟩

end

/-! ## What an object yields -/

section

open Spate.Json.NdjsonFramer (takes_pushAll Framed.outcome Framed.outcome_broken Broken.extend
  Broken.outcome)

variable {κ : Type} {codec : StreamCodec κ} {decoded : Bytes → Bytes × Bool} {maxRecordBytes : Nat}
  {key : String}

/-- Framing fails where the whole object does, whatever follows in the object. -/
theorem failing_outcome (decodes : codec.Decodes decoded) {consumed rest : Bytes} {out : List Bytes}
    (failing : Failing (framing codec maxRecordBytes) key consumed rest out) (more : Bytes) :
    outcome maxRecordBytes (decoded (consumed ++ rest ++ more)).1
      (decoded (consumed ++ rest ++ more)).2 = (out, true) := by
  obtain ⟨some, sink, next, before, records, result, fed, wrote, failed, rfl⟩ := failing
  obtain ⟨written, ran, framed, drained, cap⟩ := decoding_fed fed
  rcases step : codec.write sink.1 rest with ⟨state, runs, ended⟩
  have takes := takes_pushAll runs framed
  simp only [framing, step] at wrote
  generalize sink.2.pushAll runs = pushed at takes wrote
  cases takes with
  | @ok f same framed =>
    cases wrote
    rw [decodes.fails ran some step failed more]
    have ends := framed.outcome_broken
    rw [same, cap] at ends
    exact ends
  | @error f text broken =>
    cases wrote
    rw [cap] at broken
    -- what the framer failed on is the start of what the codec writes
    obtain ⟨tail, whole⟩ : written ++ runs.flatten <+: (decoded (consumed ++ rest ++ more)).1 := by
      cases ended with
      | ok n =>
        have early := decodes.early (ran.write step) (rest.drop n ++ more)
        rwa [List.append_assoc, ← List.append_assoc (rest.take n), List.take_append_drop,
          ← List.append_assoc] at early
      | error text =>
        have stops := decodes.fails ran some step (.inr ⟨text, rfl⟩) more
        exact ⟨[], by rw [stops, List.append_nil]⟩
    rw [← whole]
    exact (broken.extend tail).outcome _

theorem finish_outcome (decodes : codec.Decodes decoded) {fed : Bytes}
    {f : ObjectFramer (κ × NdjsonFramer)} {popped : List Bytes}
    (feeding : Feeding (framing codec maxRecordBytes) key fed (f, popped))
    (consumed : f.pending = []) :
    ∃ g result, f.finishObject (framing codec maxRecordBytes) = (g, result) ∧
      result ≠ .error .panicked ∧
      outcome maxRecordBytes (decoded fed).1 (decoded fed).2 =
        (popped ++ g.ready, !result.isOk) := by
  obtain ⟨sink, bytes, opened, decoding, joined⟩ := feeding.decoding
  dsimp only at opened decoding joined
  rw [consumed, List.append_nil] at joined
  obtain ⟨written, ran, framed, drained, cap⟩ := decoding_fed decoding
  rcases step : codec.finish sink.1 with ⟨runs, ended⟩
  have takes := takes_pushAll runs framed
  have whole := decodes.whole ran step
  rw [joined] at whole
  unfold ObjectFramer.finishObject
  simp only [opened, consumed, framing, step, whole]
  generalize sink.2.pushAll runs = pushed at takes
  cases takes with
  | @ok g same framed =>
    have ends := framed.outcome
    have breaks := framed.outcome_broken
    rw [same, cap] at ends breaks
    cases ended with
    | ok =>
      refine ⟨_, _, rfl, by simp, ends.trans ?_⟩
      simp [Except.isOk, Except.toBool, List.append_assoc]
    | error text =>
      refine ⟨_, _, rfl, by simp, breaks.trans ?_⟩
      simp [Except.isOk, Except.toBool, List.append_assoc]
  | @error g text broken =>
    rw [cap] at broken
    refine ⟨_, _, rfl, by simp, (broken.outcome _).trans ?_⟩
    simp [Except.isOk, Except.toBool, List.append_assoc]

end

end Spate.S3
