import Spate.Core
import Spate.Lists

set_option autoImplicit false

/- The terminal stage (`ops/handoff.rs`) with the traits it is built on
(`sink/mod.rs`), the sending side of the shard queues (`sink/queue.rs`) and the
in-flight budget (`backpressure.rs`).

Metrics, log lines, latency stamps and buffer capacities are left out: nothing
the stage decides depends on them. The `records` of a buffer and of a chunk are
history, the records whose rows it is made of. Counts of rows and of parked chunks are
`u32`s in the source: a shard's buffer is taken to hold fewer than `2 ^ 32` rows, and fewer
than `2 ^ 32` of its chunks to be parked. -/
namespace Spate.Sink

abbrev Bytes : Type := List UInt8

abbrev AckSet : Type := List AckRef

/-- What a call that writes into a buffer leaves behind. -/
structure Wrote (σ : Type) where
  state : σ
  buf : Bytes
  result : Except SinkError Unit

structure RowEncoder (α : Type) where
  State : Type
  encode : State → Record α → Bytes → Wrote State
  bufferedBytes : State → Nat
  finishChunk : State → Bytes → Wrote State

/-- Routes records to shards; the index it returns is below `numShards`. -/
structure RecordRouter (α : Type) where
  State : Type
  routeRecord : State → Record α → Nat → State × Nat
  inside : ∀ state record numShards, 0 < numShards →
    (routeRecord state record numShards).2 < numShards

structure FrameCodec where
  State : Type
  encodeFrame : State → Bytes → State × Except SinkError Bytes

structure ChunkConfig where
  targetBytes : Nat
  encodePolicy : ErrorPolicy
  deriving DecidableEq

structure EncodedChunk (α : Type) where
  frame : Bytes
  /-- The frame's length before any codec. -/
  rawLen : Nat
  rows : Nat
  acks : AckSet
  records : List (Record α)
  deriving DecidableEq

def usizeMax : Nat := 2 ^ 64 - 1

/-- Bytes sealed and not yet acknowledged or abandoned; both directions saturate. -/
structure InflightBudget where
  usage : Nat
  deriving DecidableEq

def InflightBudget.add (budget : InflightBudget) (bytes : Nat) : InflightBudget :=
  ⟨min (budget.usage + bytes) usizeMax⟩

def InflightBudget.sub (budget : InflightBudget) (bytes : Nat) : InflightBudget :=
  ⟨budget.usage - bytes⟩

/-- `NonZeroU32::new`. -/
def nonZero (n : Nat) : Option Nat := if n = 0 then none else some n

variable {α : Type}

structure ShardBuf (E : RowEncoder α) where
  encoder : E.State
  buf : Bytes
  rows : Nat
  acks : AckSet
  lastBatch : Option BatchId
  /-- `rows` when a codec error left a block the encoder already finished. -/
  finishedRows : Option Nat
  /-- How many of this shard's chunks wait in `SinkHandoff.parked`. -/
  parked : Nat
  records : List (Record α)

namespace ShardBuf

variable {E : RowEncoder α}

def new (encoder : E.State) : ShardBuf E := ⟨encoder, [], 0, [], none, none, 0, []⟩

/-- Whether the handle pushed last is the record's. -/
def covers (shard : ShardBuf E) (record : Record α) : Bool :=
  shard.lastBatch = some record.ack.batchId

/-- Encodes one record. A failed call may have written a partial row, which is
rolled back; consecutive records of one batch share one handle. -/
def encode (shard : ShardBuf E) (record : Record α) : ShardBuf E × Except SinkError Unit :=
  let wrote := E.encode shard.encoder record shard.buf
  match wrote.result with
  | .ok () =>
    ({ shard with
        encoder := wrote.state
        buf := wrote.buf
        rows := shard.rows + 1
        acks := if shard.covers record then shard.acks else shard.acks ++ [record.ack]
        lastBatch := some record.ack.batchId
        records := shard.records ++ [record] }, .ok ())
  | .error error =>
    ({ shard with encoder := wrote.state, buf := wrote.buf.take shard.buf.length },
      .error error)

/-- Flushes the encoder's block into the buffer, unless a codec error left the
block of exactly these rows there. A partial block is rolled back. -/
def finish (shard : ShardBuf E) : ShardBuf E × Except SinkError Unit :=
  if shard.finishedRows = nonZero shard.rows then (shard, .ok ())
  else
    let wrote := E.finishChunk shard.encoder shard.buf
    match wrote.result with
    | .ok () => ({ shard with encoder := wrote.state, buf := wrote.buf }, .ok ())
    | .error error =>
      ({ shard with encoder := wrote.state, buf := wrote.buf.take shard.buf.length },
        .error error)

def chunk (shard : ShardBuf E) (frame : Bytes) : EncodedChunk α :=
  ⟨frame, shard.buf.length, shard.rows, shard.acks, shard.records⟩

def emptied (shard : ShardBuf E) : ShardBuf E :=
  { shard with buf := [], rows := 0, acks := [], lastBatch := none, records := [] }

end ShardBuf

inductive Pushed
  | swallowed
  /-- Its row is in the buffer of `shard`; `cloned` tells whether a handle was
  added for it, `full` whether the buffer reached its target. -/
  | encoded (shard : Nat) (cloned full : Bool)
  | skipped
  | failed
  deriving DecidableEq

/-- The chain's terminal stage, apart from the shared queues and budget. -/
structure SinkHandoff (E : RowEncoder α) (R : RecordRouter α) (K : FrameCodec) where
  router : R.State
  cfg : ChunkConfig
  shards : List (ShardBuf E)
  /-- Sealed chunks waiting for a queue slot, in seal order. -/
  parked : List (Nat × EncodedChunk α)
  codec : Option K.State
  fatal : Option FatalError
  component : String

/-- The shared queues and budget as one stage sees them. Whatever other threads
do between two sends shows only in whether a send finds a free slot, so the
queues are their answers; `accepted` is history. -/
structure Outlet (α : Type) where
  accepts : Nat → Bool
  attempts : Nat
  accepted : List (Nat × EncodedChunk α)
  budget : InflightBudget

/-- Sends without blocking; a full or closed queue hands the chunk back. -/
def Outlet.trySend (out : Outlet α) (shard : Nat) (chunk : EncodedChunk α) :
    Outlet α × Option (EncodedChunk α) :=
  let tried := { out with attempts := out.attempts + 1 }
  if out.accepts out.attempts then
    ({ tried with accepted := out.accepted ++ [(shard, chunk)] }, none)
  else (tried, some chunk)

namespace SinkHandoff

variable {E : RowEncoder α} {R : RecordRouter α} {K : FrameCodec}

def new (encoder : E.State) (router : R.State) (numShards : Nat) (codec : Option K.State)
    (cfg : ChunkConfig) (component : String) : SinkHandoff E R K :=
  ⟨router, cfg, List.replicate numShards (.new encoder), [], codec, none, component⟩

def latch (h : SinkHandoff E R K) (reason : String) : SinkHandoff E R K :=
  { h with fatal := some (h.fatal.getD ⟨h.component, reason⟩) }

def setShard (h : SinkHandoff E R K) (idx : Nat) (shard : ShardBuf E) : SinkHandoff E R K :=
  { h with shards := h.shards.set idx shard }

/-- `seal_and_send` up to the send: seals the shard's buffer into a chunk. -/
def sealChunk (h : SinkHandoff E R K) (idx : Nat) : SinkHandoff E R K × Option (EncodedChunk α) :=
  match h.shards[idx]? with
  | none => (h, none)
  | some shard =>
    if shard.rows = 0 then (h, none)
    else
      match shard.finish with
      | (shard, .error error) => ((h.setShard idx shard).latch error.text, none)
      | (shard, .ok ()) =>
        match h.codec with
        | none => (h.setShard idx shard.emptied, some (shard.chunk shard.buf))
        | some codec =>
          match K.encodeFrame codec shard.buf with
          | (codec, .ok frame) =>
            ({ h.setShard idx { shard.emptied with finishedRows := none } with
                codec := some codec }, some (shard.chunk frame))
          | (codec, .error error) =>
            ({ h.setShard idx { shard with finishedRows := nonZero shard.rows } with
                codec := some codec }.latch error.text, none)

def park (h : SinkHandoff E R K) (idx : Nat) (chunk : EncodedChunk α) : SinkHandoff E R K :=
  { h with
    shards := h.shards.modify idx fun shard => { shard with parked := shard.parked + 1 }
    parked := h.parked ++ [(idx, chunk)] }

def unpark (h : SinkHandoff E R K) (idx : Nat) (rest : List (Nat × EncodedChunk α)) :
    SinkHandoff E R K :=
  { h with
    shards := h.shards.modify idx fun shard => { shard with parked := shard.parked - 1 }
    parked := rest }

/-- Whether chunks of the shard are parked, which a new chunk must not overtake. -/
def backedUp (h : SinkHandoff E R K) (idx : Nat) : Bool :=
  h.shards[idx]?.any fun shard => 0 < shard.parked

/-- Seals a shard's buffer and tries to send the chunk. The budget grows at seal
time: a parked chunk is in-flight memory too. -/
def sealAndSend (h : SinkHandoff E R K) (out : Outlet α) (idx : Nat) :
    SinkHandoff E R K × Outlet α :=
  match h.sealChunk idx with
  | (h, none) => (h, out)
  | (h, some chunk) =>
    let out := { out with budget := out.budget.add chunk.rawLen }
    if h.backedUp idx then (h.park idx chunk, out)
    else
      match out.trySend idx chunk with
      | (out, none) => (h, out)
      | (out, some chunk) => (h.park idx chunk, out)

/-- Sends the chunks at the head of the deque until one is handed back. -/
def drainLoop : List (Nat × EncodedChunk α) → SinkHandoff E R K → Outlet α →
    SinkHandoff E R K × Outlet α × Bool
  | [], h, out => ({ h with parked := [] }, out, true)
  | (idx, chunk) :: rest, h, out =>
    match out.trySend idx chunk with
    | (out, none) => drainLoop rest (h.unpark idx rest) out
    | (out, some chunk) => ({ h with parked := (idx, chunk) :: rest }, out, false)

def drainParked (h : SinkHandoff E R K) (out : Outlet α) :
    SinkHandoff E R K × Outlet α × Bool :=
  drainLoop h.parked h out

/-- `push` up to the seal: routes and encodes the record. -/
def accept (h : SinkHandoff E R K) (record : Record α) : SinkHandoff E R K × Pushed :=
  if h.fatal.isSome then (h, .swallowed)
  else
    let (router, idx) := R.routeRecord h.router record h.shards.length
    let h := { h with router }
    match h.shards[idx]? with
    | none => (h, .swallowed) -- never taken: the router's index is inside
    | some shard =>
      match shard.encode record with
      | (after, .ok ()) =>
        (h.setShard idx after, .encoded idx (!shard.covers record)
          (h.cfg.targetBytes ≤ after.buf.length + E.bufferedBytes after.encoder))
      | (after, .error error) =>
        -- a fatal class means the component is broken, not the record
        if h.cfg.encodePolicy = .skip ∧ error.errorClass ≠ .fatal then
          (h.setShard idx after, .skipped)
        else ((h.setShard idx after).latch error.text, .failed)

/-- Never rejects a record: a chunk that cannot be sent is parked. -/
def push (h : SinkHandoff E R K) (out : Outlet α) (record : Record α) :
    SinkHandoff E R K × Outlet α × Flow :=
  match h.accept record with
  | (h, .encoded idx _ true) =>
    let (h, out) := h.sealAndSend out idx
    (h, out, .continue)
  | (h, _) => (h, out, .continue)

def takeFatal (h : SinkHandoff E R K) : SinkHandoff E R K × Option FatalError :=
  ({ h with fatal := none }, h.fatal)

def flowOf (cleared : Bool) : Flow := if cleared then .continue else .blocked

def relieve (h : SinkHandoff E R K) (out : Outlet α) : SinkHandoff E R K × Outlet α × Flow :=
  if h.parked = [] then (h, out, .continue)
  else
    let (h, out, cleared) := h.drainParked out
    (h, out, flowOf cleared)

def sealAll : List Nat → SinkHandoff E R K → Outlet α → SinkHandoff E R K × Outlet α
  | [], h, out => (h, out)
  | idx :: rest, h, out =>
    let (h, out) := h.sealAndSend out idx
    sealAll rest h out

def flushTerminal (h : SinkHandoff E R K) (out : Outlet α) :
    SinkHandoff E R K × Outlet α × Flow :=
  let (h, out) := sealAll (List.range h.shards.length) h out
  let (h, out, cleared) := h.drainParked out
  (h, out, flowOf cleared)

variable {idx i : Nat} {h : SinkHandoff E R K}

theorem getElem?_adjust {shards : List (ShardBuf E)} {shard : ShardBuf E} (f : Nat → Nat)
    (present : (shards.modify idx fun shard => { shard with parked := f shard.parked })[i]? =
      some shard) :
    ∃ before, shards[i]? = some before ∧
      shard = { before with parked := if i = idx then f before.parked else before.parked } := by
  rw [List.getElem?_modify] at present
  obtain ⟨before, found, rfl⟩ := Option.map_eq_some_iff.mp present
  refine ⟨before, found, ?_⟩
  by_cases same : idx = i
  · simp [same]
  · simp [same, Ne.symm same]

theorem park_shard {chunk : EncodedChunk α} {shard : ShardBuf E}
    (present : (h.park idx chunk).shards[i]? = some shard) :
    ∃ before, h.shards[i]? = some before ∧
      shard = { before with
        parked := if i = idx then before.parked + 1 else before.parked } :=
  getElem?_adjust (· + 1) present

theorem unpark_shard {rest : List (Nat × EncodedChunk α)} {shard : ShardBuf E}
    (present : (h.unpark idx rest).shards[i]? = some shard) :
    ∃ before, h.shards[i]? = some before ∧
      shard = { before with
        parked := if i = idx then before.parked - 1 else before.parked } :=
  getElem?_adjust (· - 1) present

/-- Everything a seal can do. -/
inductive Seals (h : SinkHandoff E R K) (idx : Nat) :
    SinkHandoff E R K → Option (EncodedChunk α) → Prop
  | nothing (idle : ∀ shard, h.shards[idx]? = some shard → shard.rows = 0) :
      Seals h idx h none
  | unfinished {shard after : ShardBuf E} {error : SinkError}
      (found : h.shards[idx]? = some shard) (rows : 0 < shard.rows)
      (finished : shard.finish = (after, .error error)) :
      Seals h idx ((h.setShard idx after).latch error.text) none
  | plain {shard after : ShardBuf E}
      (found : h.shards[idx]? = some shard) (rows : 0 < shard.rows)
      (finished : shard.finish = (after, .ok ())) (uncoded : h.codec = none) :
      Seals h idx (h.setShard idx after.emptied) (some (after.chunk after.buf))
  | coded {shard after : ShardBuf E} {codec next : K.State} {frame : Bytes}
      (found : h.shards[idx]? = some shard) (rows : 0 < shard.rows)
      (finished : shard.finish = (after, .ok ())) (coded : h.codec = some codec)
      (wire : K.encodeFrame codec after.buf = (next, .ok frame)) :
      Seals h idx
        { h.setShard idx { after.emptied with finishedRows := none } with codec := some next }
        (some (after.chunk frame))
  | uncodable {shard after : ShardBuf E} {codec next : K.State} {error : SinkError}
      (found : h.shards[idx]? = some shard) (rows : 0 < shard.rows)
      (finished : shard.finish = (after, .ok ())) (coded : h.codec = some codec)
      (wire : K.encodeFrame codec after.buf = (next, .error error)) :
      Seals h idx
        ({ h.setShard idx { after with finishedRows := nonZero after.rows } with
            codec := some next }.latch error.text) none

theorem seals_sealChunk (h : SinkHandoff E R K) (idx : Nat) :
    Seals h idx (h.sealChunk idx).1 (h.sealChunk idx).2 := by
  unfold sealChunk
  split
  · rename_i missing
    apply Seals.nothing
    intro shard found
    rw [missing] at found
    cases found
  · rename_i shard found
    by_cases empty : shard.rows = 0
    · rw [if_pos empty]
      apply Seals.nothing
      intro other present
      rw [found] at present
      cases present
      exact empty
    · have rows : 0 < shard.rows := by omega
      rw [if_neg empty]
      split
      · rename_i after error finished
        exact .unfinished found rows finished
      · rename_i after finished
        split
        · rename_i uncoded
          exact .plain found rows finished uncoded
        · rename_i codec coded
          split
          · rename_i next frame wire
            exact .coded found rows finished coded wire
          · rename_i next error wire
            exact .uncodable found rows finished coded wire

theorem Seals.shard {next : SinkHandoff E R K} {chunk : EncodedChunk α}
    (seals : Seals h idx next (some chunk)) : ∃ shard, next.shards[idx]? = some shard := by
  cases seals with
  | plain found | coded found =>
    have inside := (List.getElem?_eq_some_iff.mp found).1
    exact ⟨_, List.getElem?_set_self inside⟩

/-- Everything `push` can do before a seal. -/
inductive Accepts (h : SinkHandoff E R K) (record : Record α) :
    SinkHandoff E R K → Pushed → Prop
  | swallowed (pending : h.fatal.isSome) : Accepts h record h .swallowed
  | encoded {router : R.State} {idx : Nat} {shard after : ShardBuf E} (clear : h.fatal = none)
      (routed : R.routeRecord h.router record h.shards.length = (router, idx))
      (found : h.shards[idx]? = some shard)
      (row : shard.encode record = (after, .ok ())) :
      Accepts h record ({ h with router }.setShard idx after)
        (.encoded idx (!shard.covers record)
          (h.cfg.targetBytes ≤ after.buf.length + E.bufferedBytes after.encoder))
  | skipped {router : R.State} {idx : Nat} {shard after : ShardBuf E} {error : SinkError}
      (clear : h.fatal = none)
      (routed : R.routeRecord h.router record h.shards.length = (router, idx))
      (found : h.shards[idx]? = some shard)
      (row : shard.encode record = (after, .error error)) (policy : h.cfg.encodePolicy = .skip)
      (mild : error.errorClass ≠ .fatal) :
      Accepts h record ({ h with router }.setShard idx after) .skipped
  | failed {router : R.State} {idx : Nat} {shard after : ShardBuf E} {error : SinkError}
      (clear : h.fatal = none)
      (routed : R.routeRecord h.router record h.shards.length = (router, idx))
      (found : h.shards[idx]? = some shard)
      (row : shard.encode record = (after, .error error)) :
      Accepts h record (({ h with router }.setShard idx after).latch error.text) .failed

theorem accepts_accept (h : SinkHandoff E R K) (record : Record α)
    (nonempty : 0 < h.shards.length) :
    Accepts h record (h.accept record).1 (h.accept record).2 := by
  unfold accept
  by_cases pending : h.fatal.isSome
  · rw [if_pos pending]
    exact .swallowed pending
  · have clear : h.fatal = none := by simpa using pending
    rw [if_neg pending]
    rcases routed : R.routeRecord h.router record h.shards.length with ⟨router, idx⟩
    have inside : idx < h.shards.length := by
      have bound := R.inside h.router record h.shards.length nonempty
      rwa [routed] at bound
    have found : h.shards[idx]? = some (h.shards[idx]) := List.getElem?_eq_getElem inside
    dsimp only
    rw [found]
    dsimp only
    split
    · rename_i after row
      exact .encoded clear routed found row
    · rename_i after error row
      split
      · rename_i skips
        exact .skipped clear routed found row skips.1 skips.2
      · exact .failed clear routed found row

theorem Seals.cfg {next : SinkHandoff E R K} {chunk : Option (EncodedChunk α)}
    (seals : Seals h idx next chunk) : next.cfg = h.cfg := by
  cases seals <;> rfl

theorem Accepts.cfg {record : Record α} {next : SinkHandoff E R K} {pushed : Pushed}
    (accepts : Accepts h record next pushed) : next.cfg = h.cfg := by
  cases accepts <;> rfl

end SinkHandoff

end Spate.Sink
