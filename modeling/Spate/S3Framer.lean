import Spate.NdjsonFramer

set_option autoImplicit false

/- Chunk-fed record framing for a lane (`framer.rs`) and composite offsets (`offset.rs`).
A decoder is a codec around a record framer; its state is abstract. The decoded-bytes
metric of finished objects is left out. -/
namespace Spate.S3

open Spate.Json (Bytes NdjsonFramer records)

/-- One object's decode state: a codec writing into a record framer. -/
structure Decoder (σ : Type) where
  /-- `Sink::new`, for the codec of the key. -/
  start : String → Except String σ
  /-- One codec step: the records it completes, and how much of the buffer it consumed. -/
  write : σ → Bytes → σ × List Bytes × Except String Nat
  /-- `try_finish` and the framer's `finish`, with the records they complete. -/
  finish : σ → List Bytes × Except String Unit
  decodedBytes : σ → Nat
  bounded : ∀ sink bytes n, (write sink bytes).2.2 = .ok n → n ≤ bytes.length

def pumpDecodedBytes : Nat := 256 * 1024

def pumpSteps : Nat := 256

structure ObjectFramer (σ : Type) where
  sink : Option σ
  ready : List Bytes
  pending : Bytes

inductive FramerFault
  | error (text : String)
  | panicked
  deriving DecidableEq

variable {σ : Type}

namespace ObjectFramer

def new : ObjectFramer σ := ⟨none, [], []⟩

variable (dec : Decoder σ)

def beginObject (f : ObjectFramer σ) (key : String) : ObjectFramer σ × Except FramerFault Unit :=
  if f.sink.isSome then (f, .error .panicked)
  else
    match dec.start key with
    | .ok sink => ({ f with sink := some sink }, .ok ())
    | .error text => (f, .error (.error text))

/-- The loop of `pump`, with `steps` codec steps left. -/
def pumpLoop (queued start : Nat) :
    (steps : Nat) → σ → (ready : List Bytes) → (pending : Bytes) →
      ObjectFramer σ × Except FramerFault Unit
  | 0, sink, ready, pending => (⟨some sink, ready, pending⟩, .ok ())
  | steps + 1, sink, ready, pending =>
    if pending = [] then (⟨some sink, ready, pending⟩, .ok ())
    else
      match dec.write sink pending with
      | (sink, records, .error text) =>
        (⟨some sink, ready ++ records, []⟩, .error (.error text))
      | (sink, records, .ok n) =>
        if n = 0 then (⟨some sink, ready ++ records, []⟩, .error (.error "write zero"))
        else if queued < (ready ++ records).length ∨
            pumpDecodedBytes ≤ dec.decodedBytes sink - start then
          (⟨some sink, ready ++ records, pending.drop n⟩, .ok ())
        else pumpLoop queued start steps sink (ready ++ records) (pending.drop n)

def pump (f : ObjectFramer σ) : ObjectFramer σ × Except FramerFault Unit :=
  match f.sink with
  | none => (f, .error .panicked)
  | some sink =>
    pumpLoop dec f.ready.length (dec.decodedBytes sink) pumpSteps sink f.ready f.pending

def pushChunk (f : ObjectFramer σ) (chunk : Bytes) : ObjectFramer σ × Except FramerFault Unit :=
  if f.pending ≠ [] then (f, .error .panicked)
  else ({ f with pending := chunk } : ObjectFramer σ).pump dec

def finishObject (f : ObjectFramer σ) : ObjectFramer σ × Except FramerFault Unit :=
  match f.sink with
  | none => (f, .error .panicked)
  | some sink =>
    if f.pending ≠ [] then (f, .error .panicked)
    else
      match dec.finish sink with
      | (records, .ok ()) => (⟨none, f.ready ++ records, []⟩, .ok ())
      | (records, .error text) => (⟨none, f.ready ++ records, []⟩, .error (.error text))

end ObjectFramer

namespace Decoder

variable (dec : Decoder σ)

inductive Fed (key : String) : Bytes → σ → List Bytes → Prop
  | start {sink : σ} (opened : dec.start key = .ok sink) : Fed key [] sink []
  | write {bytes buffer : Bytes} {sink next : σ} {out records : List Bytes} {n : Nat}
      (fed : Fed key bytes sink out) (wrote : dec.write sink buffer = (next, records, .ok n)) :
      Fed key (bytes ++ buffer.take n) next (out ++ records)

/-- The records of an object depend on its bytes only, and come in stream order. -/
structure Frames (frames : String → Bytes → List Bytes) : Prop where
  early : ∀ {key bytes sink out}, dec.Fed key bytes sink out → ∀ more,
    out <+: frames key (bytes ++ more)
  whole : ∀ {key bytes sink out records}, dec.Fed key bytes sink out →
    dec.finish sink = (records, .ok ()) → out ++ records = frames key bytes

end Decoder

theorem pumpLoop_spec (dec : Decoder σ) {key : String} (queued start : Nat) (steps : Nat) :
    ∀ (pending : Bytes) {consumed : Bytes} {sink : σ} {emitted ready : List Bytes},
      dec.Fed key consumed sink (emitted ++ ready) →
      let pumped := ObjectFramer.pumpLoop dec queued start steps sink ready pending
      pumped.2 ≠ .error .panicked ∧ (pumped.2 ≠ .ok () → pumped.1.pending = []) ∧
      (pumped.2 = .ok () → ∃ sink more, pumped.1.sink = some sink ∧
        dec.Fed key (consumed ++ more) sink (emitted ++ pumped.1.ready) ∧
        more ++ pumped.1.pending = pending ∧ (steps ≠ 0 → pending ≠ [] → more ≠ [])) := by
  induction steps with
  | zero =>
    intro pending consumed sink emitted ready fed
    refine ⟨nofun, fun failed => absurd rfl failed,
      fun _ => ⟨sink, [], rfl, ?_, rfl, fun some => absurd rfl some⟩⟩
    rw [List.append_nil]
    exact fed
  | succ steps ih =>
    intro pending consumed sink emitted ready fed
    unfold ObjectFramer.pumpLoop
    by_cases empty : pending = []
    · rw [if_pos empty]
      refine ⟨nofun, fun failed => absurd rfl failed,
        fun _ => ⟨sink, [], rfl, ?_, rfl, fun _ more => absurd empty more⟩⟩
      rw [List.append_nil]
      exact fed
    · rw [if_neg empty]
      rcases wrote : dec.write sink pending with ⟨next, records, result⟩
      cases result with
      | error text => exact ⟨nofun, fun _ => rfl, nofun⟩
      | ok n =>
        dsimp only
        have fits := dec.bounded sink pending n (by rw [wrote])
        split
        · exact ⟨nofun, fun _ => rfl, nofun⟩
        · rename_i positive
          have grown := fed.write wrote
          rw [List.append_assoc] at grown
          have taken : pending.take n ≠ [] := by
            apply List.ne_nil_of_length_pos
            rw [List.length_take]
            omega
          split
          · refine ⟨nofun, fun failed => absurd rfl failed,
              fun _ => ⟨next, pending.take n, rfl, grown, ?_, fun _ _ => taken⟩⟩
            exact List.take_append_drop n pending
          · obtain ⟨fine, broken, success⟩ := ih (pending.drop n) grown
            refine ⟨fine, broken, fun ok => ?_⟩
            obtain ⟨last, more, same, fed, joined, _⟩ := success ok
            refine ⟨last, pending.take n ++ more, same, ?_, ?_, fun _ _ => ?_⟩
            · rw [← List.append_assoc]
              exact fed
            · rw [List.append_assoc, joined, List.take_append_drop]
            · exact List.append_ne_nil_of_left_ne_nil taken _

/-- A streaming codec. What it decodes is written on run by run; the runs are those it
writes when each is taken. -/
structure StreamCodec (κ : Type) where
  start : Except String κ
  /-- One step: the runs it writes, and how much of the buffer it consumed. -/
  write : κ → Bytes → κ × List Bytes × Except String Nat
  /-- Flushes what is left and validates the end of the stream. -/
  finish : κ → List Bytes × Except String Unit
  bounded : ∀ state bytes n, (write state bytes).2.2 = .ok n → n ≤ bytes.length

namespace StreamCodec

/-- No compression: the bytes go to the framer as they come. -/
def plain : StreamCodec Unit where
  start := .ok ()
  write _ bytes := ((), [bytes], .ok bytes.length)
  finish _ := ([], .ok ())
  bounded _ bytes n success := by
    cases success
    exact Nat.le_refl _

variable {κ : Type} (codec : StreamCodec κ)

inductive Ran : Bytes → κ → Bytes → Prop
  | start {state : κ} (opened : codec.start = .ok state) : Ran [] state []
  | write {bytes buffer out : Bytes} {state next : κ} {runs : List Bytes} {n : Nat}
      (ran : Ran bytes state out) (wrote : codec.write state buffer = (next, runs, .ok n)) :
      Ran (bytes ++ buffer.take n) next (out ++ runs.flatten)

/-- The codec is a function of its byte stream: what it writes of a stream, and whether it
takes the stream to its end, are `decoded`, in whatever steps. -/
structure Decodes (decoded : Bytes → Bytes × Bool) : Prop where
  early : ∀ {bytes state out}, codec.Ran bytes state out → ∀ more,
    out <+: (decoded (bytes ++ more)).1
  fails : ∀ {bytes state out buffer next runs result}, codec.Ran bytes state out → buffer ≠ [] →
    codec.write state buffer = (next, runs, result) →
    result = .ok 0 ∨ (∃ text, result = .error text) →
    ∀ more, decoded (bytes ++ buffer ++ more) = (out ++ runs.flatten, false)
  whole : ∀ {bytes state out runs result}, codec.Ran bytes state out →
    codec.finish state = (runs, result) → decoded bytes = (out ++ runs.flatten, result.isOk)

theorem plain_ran {bytes out : Bytes} {state : Unit} (ran : plain.Ran bytes state out) :
    out = bytes := by
  induction ran with
  | start => rfl
  | write _ wrote ih =>
    cases wrote
    rw [ih, List.take_length, List.flatten_singleton]

theorem plain_decodes : plain.Decodes fun bytes => (bytes, true) where
  early := by
    intro bytes state out ran more
    exact plain_ran ran ▸ List.prefix_append _ _
  fails := by
    intro bytes state out buffer next runs result ran some wrote failed
    cases wrote
    rcases failed with empty | ⟨text, failed⟩
    · exact absurd (List.length_eq_zero_iff.mp (Except.ok.inj empty)) some
    · cases failed
  whole := by
    intro bytes state out runs result ran finished
    cases finished
    rw [plain_ran ran, List.flatten_nil, List.append_nil]
    rfl

end StreamCodec

/-- A codec over a framer of newline-delimited records; a run the framer refuses stops
the codec. -/
def framing {κ : Type} (codec : StreamCodec κ) (maxRecordBytes : Nat) :
    Decoder (κ × NdjsonFramer) where
  start _ :=
    match codec.start with
    | .ok state => .ok (state, .new maxRecordBytes)
    | .error text => .error text
  write sink bytes :=
    let (state, runs, result) := codec.write sink.1 bytes
    match sink.2.pushAll runs with
    | (f, .ok ()) => ((state, { f with ready := [] }), f.ready, result)
    | (f, .error text) => ((state, { f with ready := [] }), f.ready, .error text)
  finish sink :=
    let (runs, result) := codec.finish sink.1
    match sink.2.pushAll runs with
    | (f, .ok ()) =>
      match result with
      | .ok () => (f.finish.ready, .ok ())
      | .error text => (f.ready, .error text)
    | (f, .error text) => (f.ready, .error text)
  decodedBytes sink := sink.2.decodedBytes
  bounded sink bytes n success := by
    have fits := codec.bounded sink.1 bytes n
    generalize codec.write sink.1 bytes = step at success fits
    obtain ⟨state, runs, result⟩ := step
    dsimp only at success fits
    split at success
    · exact fits success
    · cases success

def plainNdjson (maxRecordBytes : Nat) : Decoder (Unit × NdjsonFramer) :=
  framing .plain maxRecordBytes

section Framing

open Spate.Json (record? newline splitOn_append outcome)
open Spate.Json.NdjsonFramer (Framed Broken takes_pushAll framed_new finish_ready)

variable {κ : Type} {codec : StreamCodec κ} {maxRecordBytes : Nat} {key : String} {bytes : Bytes}
  {sink : κ × NdjsonFramer} {out : List Bytes}

structure Decoding (codec : StreamCodec κ) (maxRecordBytes : Nat) (bytes : Bytes)
    (sink : κ × NdjsonFramer)
    (out : List Bytes) (written : Bytes) : Prop where
  ran : codec.Ran bytes sink.1 written
  framed : Framed out sink.2 written
  drained : sink.2.ready = []
  cap : sink.2.maxRecordBytes = maxRecordBytes

theorem framed_drained {popped : List Bytes} {f : NdjsonFramer} {pushed : Bytes}
    (framed : Framed popped f pushed) :
    Framed (popped ++ f.ready) { f with ready := [] } pushed := by
  obtain ⟨within, front, lines, ready⟩ := framed
  exact ⟨within, front, lines, by rw [List.append_nil, ready]⟩

theorem decoding_fed (fed : (framing codec maxRecordBytes).Fed key bytes sink out) :
    ∃ written, Decoding codec maxRecordBytes bytes sink out written := by
  induction fed with
  | start opened =>
    simp only [framing] at opened
    split at opened
    · rename_i state started
      cases opened
      exact ⟨[], .start started, framed_new maxRecordBytes, rfl, rfl⟩
    · cases opened
  | @write bytes buffer sink next out records n fed wrote ih =>
    obtain ⟨written, ran, framed, drained, cap⟩ := ih
    rcases step : codec.write sink.1 buffer with ⟨state, runs, result⟩
    have takes := takes_pushAll runs framed
    simp only [framing, step] at wrote
    generalize sink.2.pushAll runs = pushed at takes wrote
    cases takes with
    | @ok f same framed =>
      cases wrote
      exact ⟨_, ran.write step, framed_drained framed, rfl, same.trans cap⟩
    | error broken => cases wrote

theorem framing_frames {decoded : Bytes → Bytes × Bool} (decodes : codec.Decodes decoded)
    (maxRecordBytes : Nat) :
    (framing codec maxRecordBytes).Frames fun _ bytes => records (decoded bytes).1 where
  early := by
    intro key bytes sink out fed more
    obtain ⟨written, decoding⟩ := decoding_fed fed
    obtain ⟨rest, whole⟩ := decodes.early decoding.ran more
    obtain ⟨-, front, lines, ready⟩ := decoding.framed
    rw [decoding.drained, List.append_nil] at ready
    obtain ⟨line, others, right⟩ := List.exists_cons_of_ne_nil (List.splitOn_ne_nil newline rest)
    unfold records
    rw [← whole, splitOn_append lines right, List.filterMap_append, ready]
    exact List.prefix_append _ _
  whole := by
    intro key bytes sink out tail fed finished
    obtain ⟨written, decoding⟩ := decoding_fed fed
    rcases step : codec.finish sink.1 with ⟨runs, result⟩
    have takes := takes_pushAll runs decoding.framed
    rw [decodes.whole decoding.ran step]
    simp only [framing, step] at finished
    generalize sink.2.pushAll runs = pushed at takes finished
    cases takes with
    | ok same framed =>
      cases result with
      | ok =>
        cases finished
        exact finish_ready framed
      | error text => cases finished
    | error broken => cases finished

theorem plainNdjson_frames (maxRecordBytes : Nat) :
    (plainNdjson maxRecordBytes).Frames fun _ bytes => records bytes :=
  framing_frames StreamCodec.plain_decodes maxRecordBytes

end Framing

/-- A position in a lane: the object and the record in it. -/
structure Position where
  ordinal : Nat
  record : Nat
  deriving DecidableEq

def recordBits : Nat := 40

def maxOrdinal : Nat := 2 ^ 23 - 1

def maxRecordIndex : Nat := 2 ^ 40 - 2

namespace Position

def overflow (what : String) (at' : Position) : String :=
  "composite offset overflow: " ++ what ++ " exhausted at ordinal " ++ toString at'.ordinal ++
    " record " ++ toString at'.record ++ " (limits: " ++ toString (maxOrdinal + 1) ++
    " objects per lane, " ++ toString (maxRecordIndex + 1) ++ " records per object)"

def encode (p : Position) : Except String Nat :=
  if maxOrdinal < p.ordinal then .error (p.overflow "object ordinal space")
  else if maxRecordIndex + 1 < p.record then .error (p.overflow "record index space")
  else .ok ((p.ordinal <<< recordBits) ||| p.record)

def decode (offset : Nat) : Position := ⟨offset >>> recordBits, offset % 2 ^ recordBits⟩

/-- Within the limits, an offset is the ordinal above the record index and fits an `i64`. -/
theorem encode_eq {p : Position} (ordinal : p.ordinal ≤ maxOrdinal)
    (record : p.record ≤ maxRecordIndex + 1) :
    p.encode = .ok (p.ordinal * 2 ^ 40 + p.record) ∧ p.ordinal * 2 ^ 40 + p.record < 2 ^ 63 := by
  have room : p.record < 2 ^ recordBits := by
    simp only [maxRecordIndex, recordBits] at record ⊢
    omega
  refine ⟨?_, ?_⟩
  · unfold encode
    rw [if_neg (by omega), if_neg (by omega), ← Nat.shiftLeft_add_eq_or_of_lt room,
      Nat.shiftLeft_eq]
    rfl
  · simp only [maxOrdinal, maxRecordIndex] at ordinal record
    omega

theorem decode_next {p : Position} (record : p.record ≤ maxRecordIndex) :
    decode (p.ordinal * 2 ^ 40 + p.record) = p ∧
      decode (p.ordinal * 2 ^ 40 + p.record + 1) = ⟨p.ordinal, p.record + 1⟩ := by
  have split (record : Nat) (room : record < 2 ^ 40) :
      decode (p.ordinal * 2 ^ 40 + record) = ⟨p.ordinal, record⟩ := by
    unfold decode recordBits
    have positive : 0 < 2 ^ 40 := by omega
    rw [Nat.shiftRight_eq_div_pow, Nat.mul_comm, Nat.mul_add_div positive,
      Nat.div_eq_of_lt room, Nat.add_zero, Nat.mul_add_mod, Nat.mod_eq_of_lt room]
  simp only [maxRecordIndex] at record
  rw [Nat.add_assoc]
  exact ⟨split p.record (by omega), split (p.record + 1) (by omega)⟩

end Position

end Spate.S3
