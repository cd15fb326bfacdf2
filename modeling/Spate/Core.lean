import Mathlib.Data.Nat.Notation

set_option autoImplicit false

/- The vocabulary shared by every stage: partitions, batch identities, the flow
signal and the error types with their texts (`record.rs`, `error.rs`,
`checkpoint/ack.rs`). -/
namespace Spate

/-- Identifier of a source partition. -/
abbrev PartitionId : Type := Nat

/-- Identity of one source poll batch within a partition and assignment epoch. -/
structure BatchId where
  partition : PartitionId
  epoch : Nat
  seq : Nat
  deriving DecidableEq, Repr

/-- A handle to a batch's acknowledgment state: where the state lives and the
batch it is for. -/
structure AckRef where
  cell : Nat
  batchId : BatchId
  deriving DecidableEq, Repr

/-- Per-record metadata. -/
structure RecordMeta where
  partition : PartitionId
  offset : Int
  eventTimeMs : Int
  keyHash : Option Nat
  deriving DecidableEq, Repr

/-- A record flowing through the chain. -/
structure Record (α : Type) where
  payload : α
  metadata : RecordMeta
  ack : AckRef
  deriving DecidableEq, Repr

/-- Flow-control result of pushing one record downstream. -/
inductive Flow
  | continue
  | blocked
  deriving DecidableEq, Repr

/-- What to do when a record fails in a stage. -/
inductive ErrorPolicy
  | skip
  | fail
  deriving DecidableEq, Repr

inductive ErrorClass
  | retryable
  | recordLevel
  | fatal
  deriving DecidableEq, Repr

/-- The class as it appears in an error's text. -/
def ErrorClass.text : ErrorClass → String
  | .retryable => "Retryable"
  | .recordLevel => "RecordLevel"
  | .fatal => "Fatal"

/-- An unrecoverable pipeline failure. -/
structure FatalError where
  component : String
  reason : String
  deriving DecidableEq, Repr

/-- A sink failed to encode, code or write. -/
structure SinkError where
  errorClass : ErrorClass
  reason : String
  deriving DecidableEq, Repr

def SinkError.text (error : SinkError) : String :=
  "sink error (" ++ error.errorClass.text ++ "): " ++ error.reason

end Spate
