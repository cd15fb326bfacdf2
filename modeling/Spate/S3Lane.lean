import Spate.S3Framer
import Spate.S3Read
import Spate.Transition

set_option autoImplicit false

/- One lane of the S3 source (`lane.rs`): a poll takes the fetcher's messages, decodes and
frames them, and hands out records under composite offsets. What the clock and the
channel answer in each iteration of a poll is its input. Metrics, wake-ups and the count
of finished objects are left out. -/
namespace Spate.S3

open Spate.Json (Bytes)
open Spate.Transition (Run replay run_of_replay)

structure CurrentObject where
  ordinal : Nat
  key : String
  nextRecord : Nat
  eventTimeMs : Int
  deriving DecidableEq

structure HeldRecord where
  offset : Nat
  eventTimeMs : Int
  bytes : Bytes
  deriving DecidableEq

structure PoisonReport where
  kind : PoisonKind
  reason : String
  overwrite : Option Overwrite
  deriving DecidableEq

structure S3Lane (σ : Type) where
  /-- The messages the fetcher still delivers before it closes the channel. -/
  rx : List ChunkMsg
  framer : ObjectFramer σ
  resume : Option Position
  pendingDiscard : Nat
  current : Option CurrentObject
  pendingEnd : Bool
  held : List HeldRecord
  /-- The terminal watermark in the tracker. -/
  terminal : Option Nat
  reports : List PoisonReport
  poisoned : Bool
  truncated : Bool
  watermarkCandidate : Nat
  failed : Option (ErrorClass × String)
  /-- An assertion failed or an expected value was missing. -/
  panicked : Bool

/-- What the clock and the channel answer in one iteration of a poll. -/
structure Tick where
  late : Bool
  empty : Bool
  expired : Bool
  /-- The wait ends before a message comes. -/
  timedOut : Bool
  deriving DecidableEq

inductive Polled
  /-- A batch, with the offset its ack is issued for. -/
  | batch (records : List HeldRecord) (ack : Nat)
  | idle
  | error (class' : ErrorClass) (reason : String)
  | panicked
  deriving DecidableEq

variable {σ : Type}

namespace S3Lane

def new (rx : List ChunkMsg) : S3Lane σ where
  rx := rx
  framer := .new
  resume := none
  pendingDiscard := 0
  current := none
  pendingEnd := false
  held := []
  terminal := none
  reports := []
  poisoned := false
  truncated := false
  watermarkCandidate := 0
  failed := none
  panicked := false

def finished (lane : S3Lane σ) : Bool := lane.terminal.isSome

def fail (lane : S3Lane σ) (class' : ErrorClass) (reason : String) : S3Lane σ :=
  { lane with failed := some (class', reason) }

def panic (lane : S3Lane σ) : S3Lane σ := { lane with panicked := true }

def poison (lane : S3Lane σ) (kind : PoisonKind) (reason : String) : S3Lane σ :=
  { lane with
    held := [], current := none, pendingEnd := false, pendingDiscard := 0, poisoned := true
    reports := lane.reports ++ [⟨kind, reason, none⟩] }

def overwritten (lane : S3Lane σ) (overwrite : Overwrite) : S3Lane σ :=
  { lane with
    truncated := true, pendingEnd := false
    reports := lane.reports ++ [⟨.etagDrift,
      "\"" ++ overwrite.key ++ "\" was overwritten while it was read", some overwrite⟩] }

def drainLoop (maxRecords : Nat) : List Bytes → S3Lane σ → S3Lane σ
  | [], lane => { lane with framer := { lane.framer with ready := [] } }
  | bytes :: rest, lane =>
    if maxRecords ≤ lane.held.length then
      { lane with framer := { lane.framer with ready := bytes :: rest } }
    else if 0 < lane.pendingDiscard then
      drainLoop maxRecords rest { lane with pendingDiscard := lane.pendingDiscard - 1 }
    else
      let popped := { lane with framer := { lane.framer with ready := rest } }
      match lane.current with
      | none => popped.panic
      | some cur =>
        if maxRecordIndex < cur.nextRecord then
          popped.poison .undecodable ("object \"" ++ cur.key ++ "\" holds more than " ++
            toString (maxRecordIndex + 1) ++
            " records, the composite-offset limit per object")
        else
          match (⟨cur.ordinal, cur.nextRecord⟩ : Position).encode with
          | .error text => popped.fail .fatal text
          | .ok offset =>
            if offset < lane.watermarkCandidate then popped.panic
            else
              drainLoop maxRecords rest { lane with
                current := some { cur with nextRecord := cur.nextRecord + 1 }
                watermarkCandidate := offset + 1
                held := lane.held ++ [⟨offset, cur.eventTimeMs, bytes⟩] }

def drainFramer (lane : S3Lane σ) (maxRecords : Nat) : S3Lane σ :=
  drainLoop maxRecords lane.framer.ready lane

def finalizeObject (lane : S3Lane σ) : S3Lane σ :=
  match lane.current with
  | none => lane.panic
  | some cur =>
    let taken := { lane with current := none, pendingEnd := false }
    if 0 < lane.pendingDiscard then
      taken.poison .etagDrift ("object \"" ++ cur.key ++ "\" ended " ++
        toString lane.pendingDiscard ++ " records short of its committed position — " ++
        "its content changed under the checkpoint (the key set and object " ++
        "contents must stay frozen for the backfill's lifetime)")
    else taken

def currentKey (lane : S3Lane σ) : String := lane.current.elim "" CurrentObject.key

variable (dec : Decoder σ)

def poisonDecode (lane : S3Lane σ) (text : String) : S3Lane σ :=
  lane.poison .undecodable ("decoding \"" ++ lane.currentKey ++ "\": " ++ text ++
    " (corrupt or truncated object?)")

def onObjectStart (lane : S3Lane σ) (ordinal : Nat) (key : String) (lastModifiedMs : Int) :
    S3Lane σ :=
  if lane.current.isSome ∨ lane.pendingEnd then lane.panic
  else
    match lane.framer.beginObject dec key with
    | (framer, .error .panicked) => { lane with framer := framer }.panic
    | (framer, .error (.error text)) =>
      { lane with framer := framer }.poison .undecodable
        ("starting decode of \"" ++ key ++ "\": " ++ text)
    | (framer, .ok ()) =>
      match lane.resume with
      | some pos =>
        if pos.ordinal = ordinal then
          { lane with
            framer := framer, resume := none, pendingDiscard := pos.record
            current := some ⟨ordinal, key, pos.record, lastModifiedMs⟩ }
        else
          { lane with framer := framer, resume := none }.fail .fatal
            ("fetcher started at ordinal " ++ toString ordinal ++
              " but the committed resume position is ordinal " ++ toString pos.ordinal ++
              " — internal wiring bug")
      | none =>
        { lane with
          framer := framer, pendingDiscard := 0
          current := some ⟨ordinal, key, 0, lastModifiedMs⟩ }

/-- A chunk, or the rest of one, fed to the framer. -/
def onFramed (lane : S3Lane σ) : ObjectFramer σ × Except FramerFault Unit → S3Lane σ
  | (framer, .ok ()) => { lane with framer := framer }
  | (framer, .error .panicked) => { lane with framer := framer }.panic
  | (framer, .error (.error text)) => { lane with framer := framer }.poisonDecode text

def onObjectEnd (lane : S3Lane σ) : S3Lane σ :=
  match lane.framer.finishObject dec with
  | (framer, .error .panicked) => { lane with framer := framer }.panic
  | (framer, .error (.error text)) =>
    { lane with framer := framer }.poison .undecodable
      ("finishing decode of \"" ++ lane.currentKey ++ "\": " ++ text ++ " (truncated object?)")
  | (framer, .ok ()) => { lane with framer := framer, pendingEnd := true }

def onMsg (lane : S3Lane σ) : ChunkMsg → S3Lane σ
  | .objectStart ordinal key lastModifiedMs => lane.onObjectStart dec ordinal key lastModifiedMs
  | .chunk bytes => lane.onFramed (lane.framer.pushChunk dec bytes)
  | .objectEnd => lane.onObjectEnd dec
  | .laneFailed (.poison kind reason) => lane.poison kind reason
  | .laneFailed (.overwritten overwrite) => lane.overwritten overwrite
  | .laneFailed (.fatal reason) => lane.fail .fatal reason

/-- Completes an object end once its records have drained. -/
def closeEnded (lane : S3Lane σ) : S3Lane σ :=
  if lane.pendingEnd ∧ ¬lane.poisoned ∧ lane.framer.ready = [] then lane.finalizeObject else lane

/-- Leaves an overwritten object once its framed records have drained. -/
def closeTruncated (lane : S3Lane σ) : S3Lane σ :=
  if lane.truncated ∧ lane.framer.ready = [] then { lane with truncated := false, current := none }
  else lane

def settle (lane : S3Lane σ) (maxRecords : Nat) : S3Lane σ :=
  let drained := lane.drainFramer maxRecords
  if drained.failed.isSome ∨ drained.panicked then drained else drained.closeEnded.closeTruncated

def emit (lane : S3Lane σ) : Polled × S3Lane σ :=
  match lane.held.getLast? with
  | some last => (.batch lane.held last.offset, lane)
  | none => (.panicked, lane.panic)

/-- `set_terminal`, and the poll that decides the end of input. -/
def setTerminal (lane : S3Lane σ) : Polled × S3Lane σ :=
  if lane.terminal.isSome ∧ lane.terminal ≠ some lane.watermarkCandidate then
    (.panicked, lane.panic)
  else (.idle, { lane with terminal := some lane.watermarkCandidate })

/-- How a step that may stop the poll leaves it: stopped, or in the next iteration. -/
def check (lane : S3Lane σ) : (Polled × S3Lane σ) ⊕ S3Lane σ :=
  if lane.panicked then .inl (.panicked, lane)
  else
    match lane.failed with
    | some (class', reason) => .inl (.error class' reason, lane)
    | none => if lane.poisoned then .inl (.idle, lane) else .inr lane

def receive (lane : S3Lane σ) : (Polled × S3Lane σ) ⊕ S3Lane σ :=
  match lane.rx with
  | msg :: rest => ({ lane with rx := rest }.onMsg dec msg).check
  | [] =>
    if lane.current.isSome then
      (lane.fail .fatal
        "object stream ended mid-object: the fetcher terminated unexpectedly").check
    else if lane.framer.ready ≠ [] then .inr lane
    else if lane.held ≠ [] then .inl lane.emit
    else .inl lane.setTerminal

/-- A poll's iteration once the lane is settled. -/
def advance (lane : S3Lane σ) (maxRecords : Nat) (tick : Tick) (attempted : Bool) :
    (Polled × S3Lane σ) ⊕ S3Lane σ :=
  if maxRecords ≤ lane.held.length then .inl lane.emit
  else if lane.pendingEnd then .inl (.panicked, lane.panic)
  else if attempted ∧ tick.late then
    if lane.held = [] then .inl (.idle, lane) else .inl lane.emit
  else if lane.framer.pending ≠ [] then (lane.onFramed (lane.framer.pump dec)).check
  else if tick.empty ∧ lane.held ≠ [] then .inl lane.emit
  else if tick.empty ∧ (tick.expired ∨ tick.timedOut) then .inl (.idle, lane)
  else lane.receive dec

def iterate (lane : S3Lane σ) (maxRecords : Nat) (tick : Tick) (attempted : Bool) :
    (Polled × S3Lane σ) ⊕ S3Lane σ :=
  match (lane.settle maxRecords).check with
  | .inl stopped => .inl stopped
  | .inr settled => settled.advance dec maxRecords tick attempted

def pollLoop (maxRecords : Nat) (ticks : Nat → Tick) :
    (fuel : Nat) → (iteration : Nat) → S3Lane σ → Option (Polled × S3Lane σ)
  | 0, _, _ => none
  | fuel + 1, iteration, lane =>
    match lane.iterate dec maxRecords (ticks iteration) (0 < iteration) with
    | .inl stopped => some stopped
    | .inr next => pollLoop maxRecords ticks fuel (iteration + 1) next

def weight : ChunkMsg → Nat
  | .chunk bytes => 1 + bytes.length
  | _ => 1

/-- A bound on the iterations before a lane has no input left. -/
def load (lane : S3Lane σ) : Nat := (lane.rx.map weight).sum + lane.framer.pending.length

/-- `poll`, with more iterations than it can take. -/
def poll (lane : S3Lane σ) (maxRecords : Nat) (ticks : Nat → Tick) :
    Option (Polled × S3Lane σ) :=
  match lane.failed with
  | some (class', reason) => some (.error class' reason, lane)
  | none =>
    if lane.poisoned then some (.idle, lane)
    else pollLoop dec maxRecords ticks (lane.load + 2) 0 { lane with held := [] }

end S3Lane

end Spate.S3
