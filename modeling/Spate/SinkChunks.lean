import Mathlib.Algebra.BigOperators.Group.Multiset.Basic
import Mathlib.Tactic.Abel
import Spate.SinkWorkerRun
import Spate.SinkPath

set_option autoImplicit false

/- Where the sealed chunks are. A chunk is made by one seal, is held by a stage and
then by a worker, and is given up once: with the batch that is resolved, or with
the queue, stage or worker it is dropped with. -/
namespace Spate.Sink

variable {α : Type}

namespace Worker

def pendingChunks (w : Worker α) : List (EncodedChunk α) :=
  w.ledger.pending.entries.flatMap (·.2.chunks)

def held (w : Worker α) : List (EncodedChunk α) :=
  w.queue ++ w.recvBuf ++ w.acc.chunks ++ w.pendingChunks

def resolvedChunks (w : Worker α) : List (EncodedChunk α) :=
  w.log.resolved.flatMap (·.batch.chunks)

/-- The chunks sealed under a sequence number. -/
def chunksOf (w : Worker α) (seq : Nat) : List (EncodedChunk α) :=
  w.log.batches[seq]?.elim [] (·.2.chunks)

variable {w w' : Worker α} {event : WorkerEvent α} {effects : List Effect}

theorem Recorded.chunksOf (recorded : w.Recorded) {seq : Nat} {batch : SealedBatch α}
    (member : (seq, batch) ∈ w.log.batches) : w.chunksOf seq = batch.chunks := by
  obtain ⟨i, found⟩ := List.mem_iff_getElem?.mp member
  have place : (List.range w.seq)[i]? = some seq := by
    rw [← recorded.numbered, List.getElem?_map, found]
    rfl
  obtain ⟨_, same⟩ := List.getElem?_eq_some_iff.mp place
  rw [List.getElem_range] at same
  subst same
  simp only [Worker.chunksOf, found, Option.elim_some]

/-- Every chunk of a sealed batch is in a resolved batch or in a pending one. -/
theorem Sound.batches_perm (sound : w.Sound) :
    (w.log.batches.flatMap (·.2.chunks)).Perm (w.resolvedChunks ++ w.pendingChunks) := by
  have batches : w.log.batches.flatMap (·.2.chunks) =
      (w.log.batches.map (·.1)).flatMap w.chunksOf := by
    rw [List.flatMap_map]
    apply List.flatMap_congr
    intro entry member
    exact (sound.recorded.chunksOf member).symm
  have resolved : w.resolvedChunks = (w.log.resolved.map (·.seq)).flatMap w.chunksOf := by
    rw [List.flatMap_map]
    apply List.flatMap_congr
    intro r member
    obtain ⟨batch, present, chunks, _⟩ := sound.resolving.resolved r member
    rw [sound.recorded.chunksOf present, chunks]
  have pending : w.pendingChunks = w.ledger.pending.keys.flatMap w.chunksOf := by
    change _ = (w.ledger.pending.entries.map Sigma.fst).flatMap w.chunksOf
    rw [List.flatMap_map]
    apply List.flatMap_congr
    intro entry member
    obtain ⟨batch, present, chunks, _⟩ :=
      sound.resolving.pending entry.1 entry.2 (AList.mem_lookup_iff.mpr member)
    rw [sound.recorded.chunksOf present, chunks]
  rw [batches, resolved, pending, ← List.flatMap_append, sound.recorded.numbered]
  exact (sound.resolving.once.flatMap_right _).symm

/-- What the worker holds or has resolved is what it received or has queued. -/
theorem Sound.held_perm (sound : w.Sound) :
    (w.held ++ w.resolvedChunks).Perm (w.queue ++ w.log.received) := by
  unfold held
  rw [sound.recorded.received]
  have moved := sound.batches_perm
  generalize w.log.batches.flatMap (·.2.chunks) = batches at moved ⊢
  generalize w.resolvedChunks = resolved at moved ⊢
  generalize w.pendingChunks = pending at moved ⊢
  simp only [List.append_assoc]
  apply List.Perm.append_left
  refine List.perm_append_comm.trans ?_
  rw [← List.append_assoc batches]
  apply List.Perm.append_right
  refine List.perm_append_comm.trans ?_
  exact (List.perm_append_comm.trans moved.symm).append_right _

/-- A step gives up the chunks of the batches it resolves and those it drops with the
queue; it keeps every other. -/
theorem move_held (sound : w.Sound) (move : Move w event w' effects) :
    ∃ fresh dropped, w'.log.resolved = w.log.resolved ++ fresh ∧
      Accounts effects fresh dropped ∧
      (w.held + event.arrivals : Multiset (EncodedChunk α)) =
        w'.held + (fresh.flatMap (·.batch.chunks) + dropped) ∧
      (dropped = [] ∨ (dropped = w.queue ∧ w'.phase = .returned)) := by
  obtain ⟨fresh, dropped, grown, accounts, intake, gone⟩ := move_accounts sound move
  refine ⟨fresh, dropped, grown, accounts, ?_, gone⟩
  have before : (w.held + w.resolvedChunks : Multiset (EncodedChunk α)) =
      (w.queue ++ w.log.received : List (EncodedChunk α)) :=
    Multiset.coe_eq_coe.mpr sound.held_perm
  have after : (w'.held + (w.resolvedChunks + fresh.flatMap (·.batch.chunks)) :
      Multiset (EncodedChunk α)) = (w'.queue ++ w'.log.received : List (EncodedChunk α)) := by
    have perm := (move_sound sound move).held_perm
    rw [resolvedChunks, grown, List.flatMap_append] at perm
    exact Multiset.coe_eq_coe.mpr perm
  have moved : ((w.queue ++ w.log.received : List (EncodedChunk α)) + event.arrivals :
      Multiset (EncodedChunk α)) =
      (w'.queue ++ w'.log.received : List (EncodedChunk α)) + dropped :=
    Multiset.coe_eq_coe.mpr intake
  rw [← before, ← after] at moved
  apply add_right_cancel (b := (w.resolvedChunks : Multiset (EncodedChunk α)))
  calc
    (w.held + event.arrivals + w.resolvedChunks : Multiset (EncodedChunk α))
      = w.held + w.resolvedChunks + event.arrivals := by abel
    _ = _ := moved
    _ = _ := by abel

def Backed (w : Worker α) : Prop :=
  ∀ r ∈ w.log.resolved, r.delivered = true →
    ∃ batch, (r.seq, batch) ∈ w.log.written ∧ batch.chunks = r.batch.chunks ∧
      batch.frames = batch.chunks.map (·.frame)

theorem Sound.backed (sound : w.Sound) : w.Backed := by
  intro r member delivered
  obtain ⟨batch, present, chunks, _⟩ := sound.resolving.resolved r member
  have reported := (sound.resolving.verdict r member).mp delivered
  obtain ⟨written, wrote⟩ := sound.writing.success r.seq reported
  refine ⟨written, wrote, ?_, sound.recorded.framed _ (sound.writing.written wrote)⟩
  rw [← sound.recorded.chunksOf (sound.writing.written wrote), sound.recorded.chunksOf present,
    chunks]

/-- A worker of the sink path: sound until it is aborted, empty afterwards. -/
structure Trusted (w : Worker α) : Prop where
  sound : w.phase ≠ .aborted → w.Sound
  empty : w.phase = .aborted → w.held = []
  backed : w.Backed

theorem new_trusted (cfg : WorkerConfig) : (new cfg : Worker α).Trusted :=
  ⟨fun _ => new_sound cfg, nofun, (new_sound cfg).backed⟩

theorem move_aborted (aborted : w.phase = .aborted) (move : Move w event w' effects) :
    effects = [] ∧ w'.phase = .aborted ∧ w'.held = w.held ∧ w'.log.resolved = w.log.resolved ∧
      w.log.written ⊆ w'.log.written ∧ event.arrivals = [] := by
  have dead (live : w.phase.live) : False := by
    rw [aborted] at live
    cases live
  cases move with
  | signal inner same phase =>
    rw [aborted] at phase
    have stays : w'.phase = .aborted := by simpa using phase
    refine ⟨rfl, stays, ?_, ?_, ?_, arrivals_eq_nil inner⟩
    · rw [same]
      rfl
    · rw [same]
    · rw [same]
      exact List.Subset.refl _
  | finish outcome =>
    refine ⟨rfl, aborted, rfl, rfl, ?_, rfl⟩
    simp only [ended]
    split
    · exact List.subset_append_left _ _
    · exact List.Subset.refl _
  | arrive _ live | join live | launch live | linger live => exact (dead live).elim
  | receive _ phase | absorb phase | absorbed phase | tryReceive phase | received phase
  | done phase | finishSweep phase => rw [aborted] at phase; cases phase

theorem move_not_aborted (running : w.phase ≠ .aborted) (move : Move w event w' effects) :
    w'.phase ≠ .aborted := by
  cases move with
  | arrive | finish | launch => exact running
  | signal inner same phase =>
    rcases phase with stays | ⟨_, next⟩ | ⟨_, next⟩
    · rwa [stays]
    · simp [next]
    · simp [next]
  | @join task outcome =>
    obtain ⟨ledger, succeeded, resolved, same⟩ := w.joinTask_frame task outcome
    rwa [same]
  | receive | absorbed | received | done => simp [leave]
  | absorb phase head merged | tryReceive phase head merged =>
    rcases merged with rfl | sealed
    · exact running
    · rwa [sealed.phase]
  | linger live sealed => rwa [sealed.phase]
  | finishSweep =>
    obtain ⟨ledger, resolved, same⟩ := w.finishSweep_frame
    simp [same]

/-- What a step of the worker gives up: the batches `fresh` it resolves and the
chunks `dropped` with the queue. -/
structure Yields (w w' : Worker α) (effects : List Effect) (fresh : List (Resolution α))
    (dropped : List (EncodedChunk α)) : Prop where
  resolved : w'.log.resolved = w.log.resolved ++ fresh
  accounts : Accounts effects fresh dropped
  held : (w.held : Multiset (EncodedChunk α)) =
    w'.held + (fresh.flatMap (·.batch.chunks) + dropped)
  merged : ∀ r ∈ fresh, Merged r.batch.chunks r.batch.rows r.batch.bytes r.batch.acks
  dropped : dropped = [] ∨ (dropped = w.queue ∧ w'.phase = .returned)

theorem Trusted.move (trusted : w.Trusted) (inner : ∀ chunk, event ≠ .arrive chunk)
    (move : Move w event w' effects) :
    w'.Trusted ∧ ∃ fresh dropped, Yields w w' effects fresh dropped := by
  by_cases aborted : w.phase = .aborted
  · obtain ⟨rfl, phase, held, resolved, written, _⟩ := move_aborted aborted move
    refine ⟨⟨fun running => absurd phase running, fun _ => held.trans (trusted.empty aborted), ?_⟩,
      [], [], by simp [resolved], accounts_nil, by simp [held], by simp, Or.inl rfl⟩
    intro r member delivered
    rw [resolved] at member
    obtain ⟨batch, wrote, same⟩ := trusted.backed r member delivered
    exact ⟨batch, written wrote, same⟩
  · have sound := trusted.sound aborted
    have after := move_sound sound move
    obtain ⟨fresh, dropped, grown, accounts, held, gone⟩ := move_held sound move
    rw [arrivals_eq_nil inner, Multiset.coe_nil, add_zero] at held
    refine ⟨⟨fun _ => after, fun stopped => absurd stopped (move_not_aborted aborted move),
      after.backed⟩, fresh, dropped, grown, accounts, held, ?_, gone⟩
    intro r member
    obtain ⟨_, _, _, merged⟩ := after.resolving.resolved r
      (by rw [grown]; exact List.mem_append_right _ member)
    exact merged

theorem Trusted.arrive (trusted : w.Trusted) (live : w.phase.live) (chunk : EncodedChunk α) :
    ({ w with queue := w.queue ++ [chunk] } : Worker α).Trusted := by
  have running : w.phase ≠ .aborted := by
    intro aborted
    rw [aborted] at live
    cases live
  have after := move_sound (trusted.sound running) (Move.arrive chunk live)
  exact ⟨fun _ => after, fun aborted => absurd aborted running, after.backed⟩

theorem Trusted.abort (trusted : w.Trusted) : w.abort.1.Trusted :=
  ⟨fun running => absurd rfl running, fun _ => rfl, trusted.backed⟩

end Worker

namespace ShardBuf

variable {E : RowEncoder α}

variable {shard after : ShardBuf E}

theorem finish_frame {result : Except SinkError Unit} (finished : shard.finish = (after, result)) :
    ∃ encoder buf, after = { shard with encoder, buf } := by
  unfold finish at finished
  split at finished
  · cases finished
    exact ⟨_, _, rfl⟩
  · dsimp only at finished
    split at finished <;> (cases finished; exact ⟨_, _, rfl⟩)

theorem encode_ok {record : Record α} (row : shard.encode record = (after, .ok ())) :
    after.acks = (if shard.covers record then shard.acks else shard.acks ++ [record.ack]) ∧
      after.lastBatch = some record.ack.batchId ∧ after.records = shard.records ++ [record] := by
  unfold encode at row
  dsimp only at row
  split at row
  · cases row
    exact ⟨rfl, rfl, rfl⟩
  · cases row

theorem encode_frame {record : Record α} {error : SinkError}
    (failed : shard.encode record = (after, .error error)) :
    ∃ encoder buf, after = { shard with encoder, buf } := by
  unfold encode at failed
  dsimp only at failed
  split at failed
  · cases failed
  · cases failed
    exact ⟨_, _, rfl⟩

end ShardBuf

namespace SinkHandoff

variable {E : RowEncoder α} {R : RecordRouter α} {K : FrameCodec}

theorem Seals.parked {h next : SinkHandoff E R K} {idx : Nat} {sealed : Option (EncodedChunk α)}
    (seals : h.Seals idx next sealed) : next.parked = h.parked := by
  cases seals <;> rfl

section Open

variable {M : Type} [AddCommMonoid M] (f : AckSet → List (Record α) → M)

/-- What `f` makes of the buffers that are not sealed yet. -/
def openSum (h : SinkHandoff E R K) : M :=
  (h.shards.map fun shard => f shard.acks shard.records).sum

/-- A seal moves the handles and the records of a buffer into the chunk. -/
theorem Seals.openSum (empty : f [] [] = 0) {h next : SinkHandoff E R K} {idx : Nat}
    {sealed : Option (EncodedChunk α)} (seals : h.Seals idx next sealed) :
    h.openSum f = sealed.elim 0 (fun chunk => f chunk.acks chunk.records) + next.openSum f := by
  -- a buffer that keeps its handles and records
  have kept {shard after : ShardBuf E} (found : h.shards[idx]? = some shard)
      (acks : after.acks = shard.acks) (records : after.records = shard.records) :
      h.openSum f = ((h.shards.set idx after).map fun shard => f shard.acks shard.records).sum := by
    rw [Lists.map_set_same found _ (by rw [acks, records])]
    rfl
  have moved {shard after : ShardBuf E} (found : h.shards[idx]? = some shard)
      (acks : after.acks = []) (records : after.records = []) :
      h.openSum f = f shard.acks shard.records +
        ((h.shards.set idx after).map fun shard => f shard.acks shard.records).sum := by
    have sums := Lists.sum_map_set found after fun shard => f shard.acks shard.records
    rw [acks, records, empty, add_zero] at sums
    rw [add_comm, sums]
    rfl
  cases seals with
  | nothing => simp
  | unfinished found _ finished | uncodable found _ finished =>
    obtain ⟨encoder, buf, rfl⟩ := ShardBuf.finish_frame finished
    rw [kept found rfl rfl]
    simp [SinkHandoff.openSum, latch, setShard]
  | plain found _ finished | coded found _ finished =>
    obtain ⟨encoder, buf, rfl⟩ := ShardBuf.finish_frame finished
    exact moved found rfl rfl

theorem park_openSum (h : SinkHandoff E R K) (idx : Nat) (chunk : EncodedChunk α) :
    (h.park idx chunk).openSum f = h.openSum f := by
  exact congrArg List.sum (Lists.map_modify_same _ fun _ => rfl)

theorem unpark_openSum (h : SinkHandoff E R K) (idx : Nat)
    (rest : List (Nat × EncodedChunk α)) : (h.unpark idx rest).openSum f = h.openSum f := by
  exact congrArg List.sum (Lists.map_modify_same _ fun _ => rfl)

end Open

end SinkHandoff

namespace Stage

variable {E : RowEncoder α} {R : RecordRouter α} {K : FrameCodec}

variable {workers : List (Worker α)}

theorem Advances.openSum {M : Type} [AddCommMonoid M] (f : AckSet → List (Record α) → M)
    (empty : f [] [] = 0) {stage next : Stage E R K} {after : List (Worker α)}
    {sealed : Option (EncodedChunk α)} (advances : stage.Advances workers next after sealed) :
    stage.handoff.openSum f =
      sealed.elim 0 (fun chunk => f chunk.acks chunk.records) + next.handoff.openSum f := by
  cases advances with
  | unsealed _ seals | inHand _ seals => exact seals.openSum f empty
  | parked head seals =>
    rw [SinkHandoff.park_openSum]
    exact seals.openSum f empty
  | sent | drained => simp
  | handedBack => simp [SinkHandoff.park_openSum]
  | unparked => simp [SinkHandoff.unpark_openSum]

def heldBy (workers : List (Worker α)) : Multiset (EncodedChunk α) :=
  (workers.map fun w => (w.held : Multiset (EncodedChunk α))).sum

theorem heldBy_sent {target : Nat} {w : Worker α} (found : workers[target]? = some w)
    (chunk : EncodedChunk α) :
    heldBy (workers.set target { w with queue := w.queue ++ [chunk] }) =
      heldBy workers + {chunk} := by
  have sums := Lists.sum_map_set found { w with queue := w.queue ++ [chunk] }
    fun w => (w.held : Multiset (EncodedChunk α))
  have grown : (({ w with queue := w.queue ++ [chunk] } : Worker α).held :
      Multiset (EncodedChunk α)) = w.held + {chunk} := by
    change ((w.queue ++ [chunk] ++ w.recvBuf ++ w.acc.chunks ++ w.pendingChunks :
      List (EncodedChunk α)) : Multiset (EncodedChunk α)) =
      (w.queue ++ w.recvBuf ++ w.acc.chunks ++ w.pendingChunks : List (EncodedChunk α)) + {chunk}
    simp only [← Multiset.coe_add, Multiset.coe_singleton]
    abel
  rw [grown, ← add_assoc] at sums
  apply add_right_cancel (b := (w.held : Multiset (EncodedChunk α)))
  refine sums.trans ?_
  unfold heldBy
  abel

/-- An action makes the chunk it seals and moves the others. -/
theorem Advances.chunks {stage next : Stage E R K} {after : List (Worker α)}
    {sealed : Option (EncodedChunk α)} (advances : stage.Advances workers next after sealed) :
    (stage.chunks : Multiset (EncodedChunk α)) + heldBy workers + sealed.elim 0 ({·}) =
      next.chunks + heldBy after := by
  cases advances with
  | unsealed head seals => simp [Stage.chunks, head, seals.parked]
  | parked head seals =>
    simp only [Stage.chunks, head, Work.chunks_sealShard, SinkHandoff.park, seals.parked,
      ← Multiset.coe_add, List.map_append, List.map_cons, List.map_nil, Option.elim_some,
      Multiset.coe_singleton]
    abel
  | inHand head seals =>
    simp only [Stage.chunks, head, Work.chunks_sealShard, Work.chunks_send, seals.parked,
      ← Multiset.coe_add, Option.elim_some, ← Multiset.cons_coe, ← Multiset.singleton_add]
    abel
  | sent head found =>
    rw [heldBy_sent found]
    simp only [Stage.chunks, head, Work.chunks_send, ← Multiset.coe_add, Option.elim_none,
      ← Multiset.cons_coe, ← Multiset.singleton_add]
    abel
  | handedBack head =>
    simp only [Stage.chunks, head, Work.chunks_send, SinkHandoff.park, ← Multiset.coe_add,
      List.map_append, List.map_cons, List.map_nil, Option.elim_none, ← Multiset.cons_coe,
      ← Multiset.singleton_add]
    abel
  | drained head => simp [Stage.chunks, head]
  | unparked waiting found =>
    rw [heldBy_sent found]
    simp only [Stage.chunks, waiting, SinkHandoff.unpark, ← Multiset.coe_add, List.map_cons,
      Option.elim_none, ← Multiset.cons_coe, ← Multiset.singleton_add]
    abel

end Stage

structure Sums (effects : List Effect) (delivered discarded : List AckSet) (released : List Nat) :
    Prop where
  deliveries : deliveries effects = delivered
  discards : discards effects = discarded
  releases : releases effects = released

theorem Sums.append {first second : List Effect}
    {delivered delivered' discarded discarded' : List AckSet}
    {released released' : List Nat} (left : Sums first delivered discarded released)
    (right : Sums second delivered' discarded' released') :
    Sums (first ++ second) (delivered ++ delivered') (discarded ++ discarded')
      (released ++ released') := by
  obtain ⟨rfl, rfl, rfl⟩ := left
  obtain ⟨rfl, rfl, rfl⟩ := right
  exact ⟨List.filterMap_append, List.filterMap_append, List.filterMap_append⟩

theorem sums_discard {β : Type} (entries : List β) (acks : β → AckSet) :
    Sums (entries.map fun entry => .discard (acks entry)) [] (entries.map acks) [] := by
  induction entries with
  | nil => exact ⟨rfl, rfl, rfl⟩
  | cons entry rest ih =>
    obtain ⟨delivered, discarded, released⟩ := ih
    exact ⟨delivered, congrArg (acks entry :: ·) discarded, released⟩

theorem sums_release_discard {β : Type} (entries : List β) (bytes : β → Nat) (acks : β → AckSet) :
    Sums (entries.flatMap fun entry => [.release (bytes entry), .discard (acks entry)]) []
      (entries.map acks) (entries.map bytes) := by
  induction entries with
  | nil => exact ⟨rfl, rfl, rfl⟩
  | cons entry rest ih =>
    obtain ⟨delivered, discarded, released⟩ := ih
    exact ⟨delivered, congrArg (acks entry :: ·) discarded,
      congrArg (bytes entry :: ·) released⟩

theorem Stage.sums_dropEffects {E : RowEncoder α} {R : RecordRouter α} {K : FrameCodec}
    (stage : Stage E R K) :
    Sums stage.dropEffects []
      (stage.chunks.map (·.acks) ++ stage.handoff.shards.map (·.acks))
      (stage.handoff.parked.map (·.2.rawLen)) := by
  have all := ((sums_release_discard stage.handoff.parked (·.2.rawLen) (·.2.acks)).append
    (sums_discard (stage.work.filterMap Work.chunk?) (·.acks))).append
    (sums_discard stage.handoff.shards (·.acks))
  simpa [Stage.chunks, Stage.dropEffects, Function.comp_def] using all

theorem Worker.sums_abort (w : Worker α) :
    Sums w.abort.2 []
      (w.recvBuf.map (·.acks) ++ [w.acc.acks] ++ w.ledger.pending.entries.map (·.2.acks) ++
        w.queue.map (·.acks))
      (w.ledger.pending.entries.map (·.2.bytes)) := by
  have all := (((sums_discard w.recvBuf (·.acks)).append (sums_discard [w.acc.acks] id)).append
    (sums_release_discard w.ledger.pending.entries (·.2.bytes) (·.2.acks))).append
    (sums_discard w.queue (·.acks))
  simpa [Worker.abort] using all

/-- What custody needs to know of a shard's buffer. -/
structure Buffer (α : Type) where
  acks : AckSet
  records : List (Record α)
  last : Option BatchId

structure Content (α : Type) where
  chunks : List (EncodedChunk α)
  buffers : List (Buffer α)

def ShardBuf.buffer {E : RowEncoder α} (shard : ShardBuf E) : Buffer α :=
  ⟨shard.acks, shard.records, shard.lastBatch⟩

def Stage.content {E : RowEncoder α} {R : RecordRouter α} {K : FrameCodec}
    (stage : Stage E R K) : Content α :=
  ⟨stage.chunks, stage.handoff.shards.map ShardBuf.buffer⟩

/-- What `f` makes of buffers. -/
def Content.opens {M : Type} [AddCommMonoid M] (f : AckSet → List (Record α) → M)
    (content : Content α) : M :=
  (content.buffers.map fun buffer => f buffer.acks buffer.records).sum

namespace SinkPath

variable {E : RowEncoder α} {R : RecordRouter α} {K : FrameCodec}

def contents (s : SinkPath E R K) : List (Content α) := s.stages.map Stage.content

def chunks (s : SinkPath E R K) : Multiset (EncodedChunk α) :=
  (s.contents.map fun content => (content.chunks : Multiset (EncodedChunk α))).sum +
    Stage.heldBy s.workers

/-- What `f` makes of all buffers. -/
def opens {M : Type} [AddCommMonoid M] (f : AckSet → List (Record α) → M)
    (s : SinkPath E R K) : M := (s.contents.map (Content.opens f)).sum

end SinkPath

theorem Stage.opens_content {E : RowEncoder α} {R : RecordRouter α} {K : FrameCodec} {M : Type}
    [AddCommMonoid M] (f : AckSet → List (Record α) → M) (stage : Stage E R K) :
    stage.content.opens f = stage.handoff.openSum f := by
  simp only [Content.opens, Stage.content, SinkHandoff.openSum, List.map_map]
  rfl

section Steps

variable {E : RowEncoder α} {R : RecordRouter α} {K : FrameCodec} {s s' : SinkPath E R K}

variable {i : Nat} {stage next : Stage E R K}

theorem content_at (found : s.stages[i]? = some stage) : s.contents[i]? = some stage.content := by
  rw [SinkPath.contents, List.getElem?_map, found]
  rfl

theorem contents_set (stages : s'.stages = s.stages.set i next) :
    s'.contents = s.contents.set i next.content := by
  rw [SinkPath.contents, stages, List.map_set]
  rfl

theorem chunks_setStage (found : s.stages[i]? = some stage)
    (stages : s'.stages = s.stages.set i next) :
    s'.chunks + (stage.chunks + Stage.heldBy s.workers) =
      s.chunks + (next.chunks + Stage.heldBy s'.workers) := by
  have sums := Lists.sum_map_set (content_at found) next.content
    fun content => (content.chunks : Multiset (EncodedChunk α))
  rw [← contents_set stages] at sums
  change _ + (stage.chunks : Multiset (EncodedChunk α)) =
    _ + (next.chunks : Multiset (EncodedChunk α)) at sums
  unfold SinkPath.chunks
  calc
    _ = ((s'.contents.map fun content => (content.chunks : Multiset (EncodedChunk α))).sum +
        stage.chunks) + (Stage.heldBy s'.workers + Stage.heldBy s.workers) := by abel
    _ = _ := by
      rw [sums]
      abel

theorem opens_setStage {M : Type} [AddCommMonoid M] (f : AckSet → List (Record α) → M)
    (found : s.stages[i]? = some stage) (stages : s'.stages = s.stages.set i next) :
    s'.opens f + stage.handoff.openSum f = s.opens f + next.handoff.openSum f := by
  have sums := Lists.sum_map_set (content_at found) next.content (Content.opens f)
  rwa [← contents_set stages, Stage.opens_content, Stage.opens_content] at sums

theorem chunks_advance {sealed : Option (EncodedChunk α)} (found : s.stages[i]? = some stage)
    (stages : s'.stages = s.stages.set i next)
    (advances : stage.Advances s.workers next s'.workers sealed) :
    s'.chunks = s.chunks + sealed.elim 0 ({·}) := by
  have outer := chunks_setStage found stages
  have inner := advances.chunks
  apply add_right_cancel (b := stage.chunks + Stage.heldBy s.workers)
  rw [outer, ← inner]
  abel

theorem chunks_dropStage (found : s.stages[i]? = some stage)
    (stages : s'.stages = s.stages.set i stage.dropped) (workers : s'.workers = s.workers) :
    s.chunks = s'.chunks + stage.chunks := by
  have moved := chunks_setStage found stages
  have empty : stage.dropped.chunks = [] := rfl
  rw [workers, empty, Multiset.coe_nil, zero_add, ← add_assoc] at moved
  exact (add_right_cancel moved).symm

theorem chunks_setWorker {idx : Nat} {w next : Worker α} (found : s.workers[idx]? = some w)
    (stages : s'.stages = s.stages) (workers : s'.workers = s.workers.set idx next) :
    s'.chunks + w.held = s.chunks + next.held := by
  have sums := Lists.sum_map_set found next fun w => (w.held : Multiset (EncodedChunk α))
  rw [← workers] at sums
  unfold SinkPath.chunks SinkPath.contents Stage.heldBy
  rw [stages, add_assoc, sums, add_assoc]

end Steps

end Spate.Sink
