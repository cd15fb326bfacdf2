import Mathlib.Data.Multiset.Bind
import Spate.SinkChunks

set_option autoImplicit false

/- Custody of acknowledgment handles along the sink path. Every handle is in one
place, every row is covered by a handle in the same place, and a place gives its
handles up as delivered only after its rows were written. -/
namespace Spate.Sink

variable {α : Type}

namespace AckBook

theorem after_grows (effects : List Effect) :
    ∀ book : AckBook, book.Grows (book.after effects) := by
  induction effects with
  | nil => exact Grows.refl
  | cons effect rest ih =>
    intro book
    cases effect with
    | deliver acks => exact (deliver_grows acks book).trans (ih _)
    | discard acks => exact (discard_grows acks book).trans (ih _)
    | release | failure => exact ih book

/-- Effects give up the handles they deliver and those they discard, and poison the
latter. -/
theorem Keeps.after {effects : List Effect} : ∀ {book : AckBook} {handles : Multiset AckRef},
    book.Keeps ((deliveries effects).flatten + (discards effects).flatten + handles) →
    (book.after effects).Keeps handles ∧
      ∀ ack ∈ (discards effects).flatten, (book.after effects).Poisoned ack := by
  induction effects with
  | nil =>
    intro book handles keeps
    exact ⟨by simpa [deliveries, discards, AckBook.after] using keeps, by simp [discards]⟩
  | cons effect rest ih =>
    intro book handles keeps
    cases effect with
    | deliver acks =>
      change book.Keeps ((acks ++ (deliveries rest).flatten : List AckRef) +
        (discards rest).flatten + handles) at keeps
      rw [← Multiset.coe_add, add_assoc, add_assoc] at keeps
      exact ih (by rw [add_assoc]; exact keeps.deliver)
    | discard acks =>
      change book.Keeps ((deliveries rest).flatten +
        (acks ++ (discards rest).flatten : List AckRef) + handles) at keeps
      rw [← Multiset.coe_add, add_left_comm, add_assoc (acks : Multiset AckRef)] at keeps
      obtain ⟨kept, poisoned⟩ := ih keeps.discard
      refine ⟨kept, fun ack member => ?_⟩
      rcases List.mem_append.mp member with here | later
      · exact (keeps.discard_poisoned here).mono (after_grows rest _)
      · exact poisoned ack later
    | release | failure => exact ih keeps

end AckBook

def acksOf (chunks : Multiset (EncodedChunk α)) : Multiset AckRef :=
  chunks.bind fun chunk => (chunk.acks : Multiset AckRef)

def recordsIn (chunks : Multiset (EncodedChunk α)) : Multiset (Record α) :=
  chunks.bind fun chunk => (chunk.records : Multiset (Record α))

@[simp] theorem acksOf_add (left right : Multiset (EncodedChunk α)) :
    acksOf (left + right) = acksOf left + acksOf right := Multiset.add_bind ..

@[simp] theorem recordsIn_add (left right : Multiset (EncodedChunk α)) :
    recordsIn (left + right) = recordsIn left + recordsIn right := Multiset.add_bind ..

theorem acksOf_coe (chunks : List (EncodedChunk α)) :
    acksOf (chunks : Multiset (EncodedChunk α)) = (chunks.flatMap (·.acks) : List AckRef) :=
  Multiset.coe_bind ..

/-- What the effects of a step give up are the handles of the chunks it gives up. -/
theorem Accounts.handles {effects : List Effect} {fresh : List (Resolution α)}
    {dropped : List (EncodedChunk α)} (accounts : Accounts effects fresh dropped)
    (merged : ∀ r ∈ fresh, Merged r.batch.chunks r.batch.rows r.batch.bytes r.batch.acks) :
    ((Sink.deliveries effects).flatten + (Sink.discards effects).flatten : Multiset AckRef) =
      acksOf (fresh.flatMap (·.batch.chunks) + dropped : Multiset (EncodedChunk α)) := by
  have parts : ((fresh.filter (·.delivered)).flatMap (·.batch.acks) ++
      (fresh.filter (!·.delivered)).flatMap (·.batch.acks)).Perm
        (fresh.flatMap (·.batch.acks)) := by
    rw [← List.flatMap_append]
    exact (List.filter_append_perm _ fresh).flatMap_right _
  have chunks : fresh.flatMap (·.batch.acks) =
      (fresh.flatMap (·.batch.chunks)).flatMap (·.acks) := by
    rw [List.flatMap_assoc]
    exact List.flatMap_congr fun r member => (merged r member).acks
  rw [accounts.deliveries, accounts.discards, acksOf_add, acksOf_coe, acksOf_coe, ← chunks,
    Multiset.coe_add, Multiset.coe_add, List.flatten_append]
  apply Multiset.coe_eq_coe.mpr
  simp only [← List.flatMap_def, ← List.append_assoc]
  exact parts.append_right _

namespace SinkHandoff

variable {E : RowEncoder α} {R : RecordRouter α} {K : FrameCodec} {h next : SinkHandoff E R K}

variable {record : Record α} {pushed : Pushed} {idx : Nat}

theorem Accepts.buffers (accepts : h.Accepts record next pushed)
    (lost : pushed = .skipped ∨ pushed = .failed ∨ pushed = .swallowed) :
    next.shards.map ShardBuf.buffer = h.shards.map ShardBuf.buffer := by
  cases accepts with
  | swallowed => rfl
  | encoded => simp at lost
  | skipped clear routed found row | failed clear routed found row =>
    obtain ⟨encoder, buf, rfl⟩ := ShardBuf.encode_frame row
    exact Lists.map_set_same found _ rfl

theorem Accepts.parked (accepts : h.Accepts record next pushed) : next.parked = h.parked := by
  cases accepts <;> rfl

theorem Accepts.content {stage : Stage E R K} (accepts : stage.handoff.Accepts record h pushed)
    (lost : pushed = .skipped ∨ pushed = .failed ∨ pushed = .swallowed) :
    ({ stage with handoff := h } : Stage E R K).content = stage.content := by
  simp only [Stage.content, Stage.chunks, accepts.parked, accepts.buffers lost]

theorem Accepts.fatal (accepts : h.Accepts record next pushed) :
    h.fatal.isSome → next.fatal.isSome := by
  intro pending
  cases accepts with
  | swallowed => exact pending
  | encoded clear | skipped clear | failed clear =>
    rw [clear] at pending
    cases pending

/-- A record is lost only with a fatal in the slot. -/
theorem Accepts.latched (accepts : h.Accepts record next pushed)
    (lost : pushed = .failed ∨ pushed = .swallowed) : next.fatal.isSome := by
  cases accepts with
  | swallowed pending => exact pending
  | failed => rfl
  | encoded | skipped => simp at lost

theorem Seals.fatal {sealed : Option (EncodedChunk α)} (seals : h.Seals idx next sealed) :
    h.fatal.isSome → next.fatal.isSome := by
  intro pending
  cases seals with
  | nothing | plain | coded => exact pending
  | unfinished | uncodable => rfl

theorem Seals.chunk {chunk : EncodedChunk α} (seals : h.Seals idx next (some chunk)) :
    ∃ buffer ∈ h.shards.map ShardBuf.buffer,
      chunk.acks = buffer.acks ∧ chunk.records = buffer.records := by
  cases seals with
  | plain found rows finished | coded found rows finished =>
    obtain ⟨encoder, buf, rfl⟩ := ShardBuf.finish_frame finished
    exact ⟨_, List.mem_map_of_mem (List.mem_of_getElem? found), rfl, rfl⟩

theorem Seals.buffers {sealed : Option (EncodedChunk α)} (seals : h.Seals idx next sealed)
    {buffer : Buffer α} (member : buffer ∈ next.shards.map ShardBuf.buffer) :
    buffer ∈ h.shards.map ShardBuf.buffer ∨ buffer = ⟨[], [], none⟩ := by
  have placed {shard after : ShardBuf E} (found : h.shards[idx]? = some shard)
      (inside : buffer ∈ (h.shards.set idx after).map ShardBuf.buffer)
      (same : after.buffer = shard.buffer ∨ after.buffer = ⟨[], [], none⟩) :
      buffer ∈ h.shards.map ShardBuf.buffer ∨ buffer = ⟨[], [], none⟩ := by
    obtain ⟨other, present, rfl⟩ := List.mem_map.mp inside
    rcases List.mem_or_eq_of_mem_set present with old | rfl
    · exact Or.inl (List.mem_map_of_mem old)
    · refine same.imp (fun kept => ?_) id
      rw [kept]
      exact List.mem_map_of_mem (List.mem_of_getElem? found)
  cases seals with
  | nothing => exact Or.inl member
  | unfinished found rows finished | uncodable found rows finished =>
    obtain ⟨encoder, buf, rfl⟩ := ShardBuf.finish_frame finished
    exact placed found member (Or.inl rfl)
  | plain found | coded found => exact placed found member (Or.inr rfl)

theorem park_buffers (h : SinkHandoff E R K) (idx : Nat) (chunk : EncodedChunk α) :
    (h.park idx chunk).shards.map ShardBuf.buffer = h.shards.map ShardBuf.buffer :=
  Lists.map_modify_same _ fun _ => rfl

theorem unpark_buffers (h : SinkHandoff E R K) (idx : Nat) (rest : List (Nat × EncodedChunk α)) :
    (h.unpark idx rest).shards.map ShardBuf.buffer = h.shards.map ShardBuf.buffer :=
  Lists.map_modify_same _ fun _ => rfl

end SinkHandoff

namespace Stage

variable {E : RowEncoder α} {R : RecordRouter α} {K : FrameCodec} {stage next : Stage E R K}
  {workers after : List (Worker α)} {sealed : Option (EncodedChunk α)}

theorem Advances.owner (advances : stage.Advances workers next after sealed) :
    next.thread = stage.thread := by
  cases advances <;> rfl

theorem Advances.fatal (advances : stage.Advances workers next after sealed) :
    stage.handoff.fatal.isSome → next.handoff.fatal.isSome := by
  cases advances with
  | unsealed head seals | parked head seals | inHand head seals => exact seals.fatal
  | sent | handedBack | drained | unparked => exact id

theorem Advances.chunk {chunk : EncodedChunk α}
    (advances : stage.Advances workers next after (some chunk)) :
    ∃ buffer ∈ stage.content.buffers,
      chunk.acks = buffer.acks ∧ chunk.records = buffer.records := by
  cases advances with
  | parked head seals | inHand head seals => exact seals.chunk

theorem Advances.buffers (advances : stage.Advances workers next after sealed)
    {buffer : Buffer α} (member : buffer ∈ next.content.buffers) :
    buffer ∈ stage.content.buffers ∨ buffer = ⟨[], [], none⟩ := by
  cases advances with
  | unsealed head seals | inHand head seals => exact seals.buffers member
  | parked head seals =>
    change buffer ∈ (SinkHandoff.park _ _ _).shards.map ShardBuf.buffer at member
    rw [SinkHandoff.park_buffers] at member
    exact seals.buffers member
  | sent | drained => exact Or.inl member
  | handedBack =>
    change buffer ∈ (SinkHandoff.park _ _ _).shards.map ShardBuf.buffer at member
    rw [SinkHandoff.park_buffers] at member
    exact Or.inl member
  | unparked =>
    change buffer ∈ (SinkHandoff.unpark _ _ _).shards.map ShardBuf.buffer at member
    rw [SinkHandoff.unpark_buffers] at member
    exact Or.inl member

theorem Advances.queues (advances : stage.Advances workers next after sealed) :
    after = workers ∨ ∃ target w chunk, workers[target]? = some w ∧ w.phase.live ∧ w.sendersLive ∧
      after = workers.set target { w with queue := w.queue ++ [chunk] } := by
  cases advances with
  | unsealed | parked | inHand | handedBack | drained => exact Or.inl rfl
  | sent head found live listening | unparked waiting found live listening =>
    exact Or.inr ⟨_, _, _, found, live, listening, rfl⟩

end Stage

/-- Every row of the chunk is covered by a handle that travels with it. -/
def EncodedChunk.Covered (chunk : EncodedChunk α) : Prop :=
  ∀ record ∈ chunk.records, record.ack ∈ chunk.acks

/-- Every row of the buffer is covered, and the batch pushed last still has its
handle here: a record is never taken for covered by a chunk that is gone. -/
structure Buffer.Covered (buffer : Buffer α) : Prop where
  records : ∀ record ∈ buffer.records, record.ack ∈ buffer.acks
  last : ∀ id, buffer.last = some id → ∃ ack ∈ buffer.acks, ack.batchId = id

def Worker.settled (w : Worker α) : Multiset (Record α) :=
  recordsIn ((w.log.resolved.filter (·.delivered)).flatMap (·.batch.chunks))

namespace SinkPath

variable {E : RowEncoder α} {R : RecordRouter α} {K : FrameCodec}

def roots (s : SinkPath E R K) : Multiset AckRef :=
  (s.threads.map fun thread => thread.batch.elim 0 ({·})).sum

/-- The handles that cover rows. -/
def stored (s : SinkPath E R K) : Multiset AckRef :=
  s.opens (fun acks _ => (acks : Multiset AckRef)) + acksOf s.chunks

/-- The records whose rows are somewhere on the path. -/
def rows (s : SinkPath E R K) : Multiset (Record α) :=
  s.opens (fun _ records => (records : Multiset (Record α))) + recordsIn s.chunks

def settled (s : SinkPath E R K) : Multiset (Record α) := (s.workers.map Worker.settled).sum

/-- A payload of the handle's batch is in the chain of a thread that will find a
fatal when the payload ends. -/
def Doomed (s : SinkPath E R K) (ack : AckRef) : Prop :=
  ∃ t, s.inside t ack ∧ s.pendingFatal t

structure Custody (s : SinkPath E R K) : Prop where
  keeps : s.acks.Keeps (s.roots + s.stored)
  workers : ∀ w ∈ s.workers, w.Trusted
  buffers : ∀ content ∈ s.contents, ∀ buffer ∈ content.buffers, buffer.Covered
  chunks : ∀ chunk ∈ s.chunks, chunk.Covered
  encoded : ∀ record ∈ s.log.encoded, s.acks.Known record.ack
  /-- A row is on the path, in a delivered batch, or its batch is poisoned. -/
  conserved : ∃ lost : Multiset (Record α), s.log.encoded = s.rows + s.settled + lost ∧
    ∀ record ∈ lost, s.acks.Poisoned record.ack
  broken : ∀ record ∈ s.log.broken, s.acks.Known record.ack ∧
    (s.acks.Poisoned record.ack ∨ s.Doomed record.ack)
  abandoned : ∀ w ∈ s.workers, ∀ r ∈ w.log.resolved, r.delivered = false →
    ∀ chunk ∈ r.batch.chunks, ∀ record ∈ chunk.records, s.acks.Poisoned record.ack

theorem new_content (plan : StagePlan E R K) {content : Content α}
    (same : (Stage.new plan).content = content) :
    content.chunks = [] ∧ ∀ buffer ∈ content.buffers, buffer = ⟨[], [], none⟩ := by
  subst same
  refine ⟨rfl, fun buffer member => ?_⟩
  obtain ⟨shard, present, rfl⟩ := List.mem_map.mp member
  obtain rfl : shard = .new plan.encoder := List.eq_of_mem_replicate present
  rfl

theorem new_contents {threads : Nat} {plans : List (StagePlan E R K)}
    {workers : List WorkerConfig} {content : Content α}
    (member : content ∈ (SinkPath.new threads plans workers).contents) :
    content.chunks = [] ∧ ∀ buffer ∈ content.buffers, buffer = ⟨[], [], none⟩ := by
  obtain ⟨stage, present, same⟩ := List.mem_map.mp member
  obtain ⟨plan, _, rfl⟩ := List.mem_map.mp present
  exact new_content plan same

theorem new_chunks (threads : Nat) (plans : List (StagePlan E R K))
    (workers : List WorkerConfig) : (SinkPath.new threads plans workers).chunks = 0 := by
  apply Multiset.eq_zero_of_forall_notMem
  intro chunk member
  rcases Multiset.mem_add.mp member with staged | held
  · obtain ⟨content, present, inside⟩ := Lists.mem_sum_map.mp staged
    rw [(new_contents present).1] at inside
    cases inside
  · obtain ⟨w, present, inside⟩ := Lists.mem_sum_map.mp held
    obtain ⟨cfg, _, rfl⟩ := List.mem_map.mp present
    cases inside

section Still

variable {s s' : SinkPath E R K}

variable {t : Nat} {ack : AckRef} {g : Thread → Thread}

theorem chunks_congr (contents : s'.contents = s.contents) (workers : s'.workers = s.workers) :
    s'.chunks = s.chunks := by
  unfold SinkPath.chunks
  rw [contents, workers]

theorem opens_congr {M : Type} [AddCommMonoid M] (f : AckSet → List (Record α) → M)
    (contents : s'.contents = s.contents) : s'.opens f = s.opens f := by
  unfold SinkPath.opens
  rw [contents]

theorem stored_congr (contents : s'.contents = s.contents) (workers : s'.workers = s.workers) :
    s'.stored = s.stored := by
  unfold stored
  rw [chunks_congr contents workers, opens_congr _ contents]

theorem Custody.still (custody : s.Custody) (contents : s'.contents = s.contents)
    (workers : s'.workers = s.workers) (grows : s.acks.Grows s'.acks)
    (keeps : s'.acks.Keeps (s'.roots + s.stored)) (encoded : s'.log.encoded = s.log.encoded)
    (broken : ∀ record ∈ s'.log.broken, s'.acks.Known record.ack ∧
      (s'.acks.Poisoned record.ack ∨ s'.Doomed record.ack)) : s'.Custody where
  keeps := by rwa [stored_congr contents workers]
  workers := by rw [workers]; exact custody.workers
  buffers := by rw [contents]; exact custody.buffers
  chunks := by rw [chunks_congr contents workers]; exact custody.chunks
  encoded := by
    rw [encoded]
    exact fun record member => (custody.encoded record member).mono grows
  conserved := by
    obtain ⟨lost, total, poisoned⟩ := custody.conserved
    refine ⟨lost, ?_, fun record member => (poisoned record member).mono grows⟩
    unfold rows settled at total ⊢
    rw [encoded, workers, chunks_congr contents workers, opens_congr _ contents]
    exact total
  broken := broken
  abandoned := by
    rw [workers]
    intro w member r resolved failed chunk inside record row
    exact (custody.abandoned w member r resolved failed chunk inside record row).mono grows

theorem inside_iff :
    s.inside t ack = true ↔
      ∃ thread, s.threads[t]? = some thread ∧ thread.batch = some ack ∧
        thread.inPayload = true := by
  unfold inside batch inPayload
  cases s.threads[t]? <;> simp

theorem pendingFatal_iff :
    s.pendingFatal t = true ↔
      (∃ thread, s.threads[t]? = some thread ∧ thread.fatal = true) ∨
        ∃ stage ∈ s.stages, stage.thread = t ∧ stage.handoff.fatal.isSome := by
  unfold pendingFatal
  cases s.threads[t]? <;> simp

/-- A thread that the step did not touch keeps its batch and its fatal. -/
theorem doomed_of_kept (inside : s.inside t ack) (pending : s.pendingFatal t)
    (threads : s'.threads[t]? = s.threads[t]?)
    (stages : ∀ stage ∈ s.stages, stage.thread = t → stage.handoff.fatal.isSome →
      ∃ stage' ∈ s'.stages, stage'.thread = t ∧ stage'.handoff.fatal.isSome) : s'.Doomed ack := by
  refine ⟨t, ?_, ?_⟩
  · rw [inside_iff] at inside ⊢
    rwa [threads]
  · rw [pendingFatal_iff] at pending ⊢
    rw [threads]
    rcases pending with own | ⟨stage, member, owned, fatal⟩
    · exact Or.inl own
    · exact Or.inr (stages stage member owned fatal)

theorem batch_of_inside (inside : s.inside t ack) : s.batch t = some ack := by
  obtain ⟨thread, found, driven, _⟩ := inside_iff.mp inside
  simpa [batch, found] using driven

theorem mem_roots (driven : s.batch t = some ack) : ack ∈ s.roots := by
  obtain ⟨thread, found, open'⟩ := Option.bind_eq_some_iff.mp driven
  apply Lists.mem_sum_map.mpr
  exact ⟨thread, List.mem_of_getElem? found, by simp [open']⟩

/-- The thread's batch ends: its handle is dropped, failed before if `failed`. -/
theorem Custody.close (custody : s.Custody) (failed : Bool) (driven : s.batch t = some ack)
    (between : failed = false → s.inPayload t = false) (contents : s'.contents = s.contents)
    (workers : s'.workers = s.workers)
    (acks : s'.acks = (if failed then s.acks.fail ack else s.acks).drop ack)
    (log : s'.log = s.log) (roots : s.roots = ack ::ₘ s'.roots)
    (threads : ∀ other, other ≠ t → s'.threads[other]? = s.threads[other]?)
    (stages : ∀ stage ∈ s.stages, stage.thread ≠ t → stage.handoff.fatal.isSome →
      ∃ stage' ∈ s'.stages, stage'.thread = stage.thread ∧ stage'.handoff.fatal.isSome) :
    s'.Custody := by
  have keeps := custody.keeps
  have held : ack ∈ s.roots + s.stored := Multiset.mem_add.mpr (Or.inl (mem_roots driven))
  have middle : (if failed then s.acks.fail ack else s.acks).Keeps (s.roots + s.stored) := by
    split
    · exact keeps.fail held
    · exact keeps
  have grows : s.acks.Grows s'.acks := by
    rw [acks]
    refine AckBook.Grows.trans ?_ (AckBook.drop_grows _ ack)
    split
    · exact AckBook.fail_grows _ ack
    · exact AckBook.Grows.refl _
  apply custody.still contents workers grows
  · rw [roots, Multiset.cons_add] at middle
    rw [acks]
    exact middle.drop
  · rw [log]
  · rw [log]
    intro record member
    obtain ⟨known, fate⟩ := custody.broken record member
    refine ⟨known.mono grows, ?_⟩
    rcases fate with poisoned | ⟨other, inside, pending⟩
    · exact Or.inl (poisoned.mono grows)
    · by_cases same : other = t
      · subst same
        -- the doomed payload is of the batch that ends, so the batch is failed
        have own : record.ack = ack := by
          have driven' := batch_of_inside inside
          rw [driven] at driven'
          exact (Option.some.inj driven').symm
        cases failed with
        | false =>
          obtain ⟨thread, found, _, busy⟩ := inside_iff.mp inside
          have idle := between rfl
          simp [inPayload, found, busy] at idle
        | true =>
          left
          rw [own, acks]
          exact (keeps.fail_poisoned held).mono (AckBook.drop_grows _ ack)
      · right
        apply doomed_of_kept inside pending (threads other same)
        intro stage present owned fatal
        obtain ⟨stage', there, kept, latched⟩ := stages stage present (owned ▸ same) fatal
        exact ⟨stage', there, kept.trans owned, latched⟩

theorem batch_modify {other : Nat} (threads : s'.threads = s.threads.modify t g)
    (same : ∀ thread, (g thread).batch = thread.batch) : s'.batch other = s.batch other := by
  unfold batch
  rw [threads, List.getElem?_modify]
  cases s.threads[other]? with
  | none => rfl
  | some thread =>
    by_cases here : t = other <;> simp [here, same]

theorem roots_modify (threads : s'.threads = s.threads.modify t g)
    (same : ∀ thread, (g thread).batch = thread.batch) : s'.roots = s.roots := by
  unfold roots
  rw [threads]
  exact congrArg List.sum (Lists.map_modify_same _ fun thread => by rw [same])

theorem threads_modify_ne {other : Nat} (threads : s'.threads = s.threads.modify t g)
    (apart : other ≠ t) : s'.threads[other]? = s.threads[other]? := by
  rw [threads, List.getElem?_modify]
  simp [Ne.symm apart]

theorem closeBatch_roots (driven : s.batch t = some ack) (failed : Bool) :
    s.roots = ack ::ₘ (s.closeBatch t ack failed).roots := by
  obtain ⟨thread, found, open'⟩ := Option.bind_eq_some_iff.mp driven
  have sums := Lists.sum_map_set found { thread with batch := none, inPayload := false }
    fun thread => (thread.batch.elim 0 ({·}) : Multiset AckRef)
  rw [open'] at sums
  simp only [Option.elim_some, Option.elim_none, add_zero] at sums
  unfold roots closeBatch
  dsimp only
  rw [Lists.modify_eq_set found, ← sums, add_comm, Multiset.singleton_add]

theorem onStages_contents {f : Stage E R K → Stage E R K}
    (same : ∀ stage ∈ s.stages, stage.thread = t → (f stage).content = stage.content) :
    (s.onStages t f).contents = s.contents := by
  unfold contents onStages
  dsimp only
  rw [List.map_map]
  apply List.map_congr_left
  intro stage member
  simp only [Function.comp_apply]
  split
  · rename_i owned
    exact same stage member owned
  · rfl

theorem onStages_other {f : Stage E R K → Stage E R K} {stage : Stage E R K}
    (member : stage ∈ s.stages) (apart : stage.thread ≠ t) : stage ∈ (s.onStages t f).stages := by
  apply List.mem_map.mpr
  exact ⟨stage, member, if_neg apart⟩

theorem content_work {stage : Stage E R K} {work : List (Work α)}
    (ready : stage.work.filterMap Work.chunk? = []) (empty : work.filterMap Work.chunk? = []) :
    ({ stage with work } : Stage E R K).content = stage.content := by
  simp only [Stage.content, Stage.chunks, empty, ready]

theorem unwound_contents
    (empty : ∀ stage ∈ s.stages, stage.thread = t → stage.work.filterMap Work.chunk? = []) :
    (s.onStages t fun stage => { stage with work := [] }).contents = s.contents :=
  onStages_contents fun stage member owned => content_work (empty stage member owned) rfl

theorem clearFatals_contents (t : Nat) : (s.clearFatals t).contents = s.contents :=
  onStages_contents (f := fun stage => { stage with handoff := stage.handoff.takeFatal.1 })
    fun _ _ _ => rfl

/-- The record, in a payload of the thread, was dropped with a fatal pending. -/
theorem Custody.breaks (custody : s.Custody) (contents : s'.contents = s.contents)
    (workers : s'.workers = s.workers) (acks : s'.acks = s.acks) (roots : s'.roots = s.roots)
    (encoded : s'.log.encoded = s.log.encoded) {record : Record α}
    (broken : s'.log.broken = s.log.broken ++ [record]) (inside : s.inside t record.ack)
    (doomed : s'.Doomed record.ack) (kept : ∀ ack, s.Doomed ack → s'.Doomed ack) : s'.Custody := by
  apply custody.still contents workers (acks ▸ AckBook.Grows.refl _) _ encoded
  · rw [broken, acks]
    intro other member
    rcases List.mem_append.mp member with old | new
    · obtain ⟨known, fate⟩ := custody.broken other old
      exact ⟨known, fate.imp id (kept _)⟩
    · obtain rfl := List.mem_singleton.mp new
      have held : other.ack ∈ s.roots + s.stored :=
        Multiset.mem_add.mpr (Or.inl (mem_roots (batch_of_inside inside)))
      exact ⟨custody.keeps.known _ held, Or.inr doomed⟩
  · rw [acks, roots]
    exact custody.keeps

/-- Nothing that custody is about changed but for fatals, which are still there. -/
theorem Custody.quiet (custody : s.Custody) (contents : s'.contents = s.contents)
    (workers : s'.workers = s.workers) (acks : s'.acks = s.acks) (roots : s'.roots = s.roots)
    (encoded : s'.log.encoded = s.log.encoded) (broken : s'.log.broken = s.log.broken)
    (kept : ∀ ack, s.Doomed ack → s'.Doomed ack) : s'.Custody := by
  apply custody.still contents workers (acks ▸ AckBook.Grows.refl _) _ encoded
  · rw [broken, acks]
    intro record member
    obtain ⟨known, fate⟩ := custody.broken record member
    exact ⟨known, fate.imp id (kept _)⟩
  · rw [acks, roots]
    exact custody.keeps

theorem doomed_modify (threads : s'.threads = s.threads.modify t g)
    (stages : s'.stages = s.stages) (batch : ∀ thread, (g thread).batch = thread.batch)
    (busy : ∀ thread, thread.inPayload → (g thread).inPayload)
    (fatal : ∀ thread, thread.fatal → (g thread).fatal) (doomed : s.Doomed ack) :
    s'.Doomed ack := by
  obtain ⟨other, inside, pending⟩ := doomed
  by_cases here : other = t
  · subst here
    obtain ⟨thread, found, driven, inPayload⟩ := inside_iff.mp inside
    have after : s'.threads[other]? = some (g thread) := by
      rw [threads, List.getElem?_modify, found]
      simp
    refine ⟨other, inside_iff.mpr ⟨_, after, (batch thread).trans driven, busy thread inPayload⟩,
      pendingFatal_iff.mpr ?_⟩
    rcases pendingFatal_iff.mp pending with ⟨thread', found', own⟩ | below
    · rw [found] at found'
      cases found'
      exact Or.inl ⟨_, after, fatal thread own⟩
    · rw [stages]
      exact Or.inr below
  · apply doomed_of_kept inside pending (threads_modify_ne threads here)
    rw [stages]
    exact fun stage member owned latched => ⟨stage, member, owned, latched⟩

theorem doomed_setStage {i : Nat} {stage next : Stage E R K} (found : s.stages[i]? = some stage)
    (stages : s'.stages = s.stages.set i next) (threads : s'.threads = s.threads)
    (owner : next.thread = stage.thread)
    (fatal : stage.handoff.fatal.isSome → next.handoff.fatal.isSome) (doomed : s.Doomed ack) :
    s'.Doomed ack := by
  obtain ⟨t, inside, pending⟩ := doomed
  apply doomed_of_kept inside pending (by rw [threads])
  intro other member owned latched
  rw [stages]
  obtain ⟨j, present⟩ := List.mem_iff_getElem?.mp member
  by_cases here : i = j
  · subst here
    rw [found] at present
    cases present
    have inRange := (List.getElem?_eq_some_iff.mp found).1
    exact ⟨next, List.mem_of_getElem? (List.getElem?_set_self inRange), owner.trans owned,
      fatal latched⟩
  · exact ⟨other, List.mem_of_getElem? ((List.getElem?_set_ne here).trans present), owned, latched⟩

theorem Custody.issue (custody : s.Custody) {id : BatchId} {lastOffset : Int64}
    (present : t < s.threads.length) (free : s.batch t = none)
    (fresh : id ∉ s.acks.heap.map (·.id)) :
    ({ s with
        acks := (s.acks.issue id lastOffset).1
        threads := s.threads.modify t fun thread =>
          { thread with batch := some (s.acks.issue id lastOffset).2, inPayload := false } } :
      SinkPath E R K).Custody := by
  have found : s.threads[t]? = some s.threads[t] := List.getElem?_eq_getElem present
  have idle : s.threads[t].batch = none := by simpa [batch, found] using free
  have grows := s.acks.issue_grows id lastOffset
  refine custody.still (by rfl) (by rfl) grows ?_ (by rfl) ?_
  · have sums := Lists.sum_map_set found
      { s.threads[t] with batch := some (s.acks.issue id lastOffset).2, inPayload := false }
      fun thread => (thread.batch.elim 0 ({·}) : Multiset AckRef)
    simp only [idle, Option.elim_some, Option.elim_none, add_zero] at sums
    unfold roots
    dsimp only
    rw [Lists.modify_eq_set found, sums, add_right_comm, add_comm _ {_}, Multiset.singleton_add]
    exact custody.keeps.issue fresh lastOffset
  · intro record member
    obtain ⟨known, fate⟩ := custody.broken record member
    refine ⟨known.mono grows, ?_⟩
    rcases fate with poisoned | ⟨other, inside, pending⟩
    · exact Or.inl (poisoned.mono grows)
    · have apart : other ≠ t := by
        rintro rfl
        rw [batch_of_inside inside] at free
        cases free
      right
      apply doomed_of_kept inside pending (threads_modify_ne (by rfl) apart)
      exact fun stage inStages owned latched => ⟨stage, inStages, owned, latched⟩

end Still

section Moving

variable {s s' : SinkPath E R K}

variable {i idx : Nat} {record : Record α} {w : Worker α}

theorem buffers_setStage (custody : s.Custody) {next : Stage E R K}
    (stages : s'.stages = s.stages.set i next)
    (covered : ∀ buffer ∈ next.content.buffers, buffer.Covered) :
    ∀ content ∈ s'.contents, ∀ buffer ∈ content.buffers, buffer.Covered := by
  intro content member
  rw [contents_set stages] at member
  rcases List.mem_or_eq_of_mem_set member with old | rfl
  · exact custody.buffers content old
  · exact covered

theorem mem_opens {M : Type} {f : AckSet → List (Record α) → Multiset M} {content : Content α}
    (inPath : content ∈ s.contents) {buffer : Buffer α} (member : buffer ∈ content.buffers) {x : M}
    (inside : x ∈ f buffer.acks buffer.records) : x ∈ s.opens f := by
  apply Lists.mem_sum_map.mpr
  refine ⟨content, inPath, ?_⟩
  apply Lists.mem_sum_map.mpr
  exact ⟨buffer, member, inside⟩

theorem chunks_push {shard : Nat} {stage : Stage E R K} {h : SinkHandoff E R K}
    {cloned full : Bool} (found : s.stages[i]? = some stage) (ready : stage.work = [])
    (accepts : stage.handoff.Accepts record h (.encoded shard cloned full))
    (stages : s'.stages = s.stages.set i
      { stage with handoff := h, work := if full then [.sealShard shard] else [] })
    (workers : s'.workers = s.workers) : s'.chunks = s.chunks := by
  have moved := chunks_setStage found stages
  have same : (⟨stage.thread, h, stage.queues, if full then [.sealShard shard] else [],
      stage.alive⟩ : Stage E R K).chunks = stage.chunks := by
    unfold Stage.chunks
    rw [accepts.parked, ready]
    cases full <;> rfl
  rw [same, workers] at moved
  exact add_right_cancel moved

/-- A row goes into a buffer, with a handle unless the batch pushed last is its own. -/
theorem Custody.push (custody : s.Custody) {shard : Nat} {stage : Stage E R K}
    {h : SinkHandoff E R K} {cloned full : Bool} (found : s.stages[i]? = some stage)
    (ready : stage.work = []) (inside : s.inside stage.thread record.ack)
    (accepts : stage.handoff.Accepts record h (.encoded shard cloned full))
    (stages : s'.stages = s.stages.set i
      { stage with handoff := h, work := if full then [.sealShard shard] else [] })
    (threads : s'.threads = s.threads) (workers : s'.workers = s.workers)
    (acks : s'.acks = if cloned then s.acks.clone record.ack else s.acks)
    (encoded : s'.log.encoded = s.log.encoded ++ [record]) (broken : s'.log.broken = s.log.broken) :
    s'.Custody := by
  have chunks := chunks_push found ready accepts stages workers
  have root : record.ack ∈ s.roots + s.stored :=
    Multiset.mem_add.mpr (Or.inl (mem_roots (batch_of_inside inside)))
  have known := custody.keeps.known _ root
  have grows : s.acks.Grows s'.acks := by
    rw [acks]
    split
    · exact AckBook.clone_grows _ _
    · exact AckBook.Grows.refl _
  cases accepts with
  | @encoded router _ before after clear routed located row =>
    obtain ⟨afterAcks, afterLast, afterRecords⟩ := ShardBuf.encode_ok row
    have gained {M : Type} (f : AckSet → List (Record α) → Multiset M) (extra : Multiset M)
        (more : f after.acks after.records = f before.acks before.records + extra) :
        s'.opens f = s.opens f + extra := by
      have outer := opens_setStage f found stages
      have inner := Lists.sum_map_set located after fun shard => f shard.acks shard.records
      rw [more] at inner
      apply add_right_cancel (b := stage.handoff.openSum f + f before.acks before.records)
      calc
        _ = (s'.opens f + stage.handoff.openSum f) + f before.acks before.records := by abel
        _ = s.opens f + ((stage.handoff.setShard shard after).openSum f +
            f before.acks before.records) := by
          rw [outer, add_assoc]
          rfl
        _ = s.opens f + (stage.handoff.openSum f +
            (f before.acks before.records + extra)) := congrArg (s.opens f + ·) inner
        _ = _ := by abel
    have inContent : before.buffer ∈ stage.content.buffers :=
      List.mem_map_of_mem (List.mem_of_getElem? located)
    have inPath : stage.content ∈ s.contents :=
      List.mem_map_of_mem (List.mem_of_getElem? found)
    have covered := custody.buffers _ inPath _ inContent
    -- the handle pushed last, when it is for the record's batch, is the record's
    have own : before.covers record = true → record.ack ∈ before.acks := by
      intro covers
      obtain ⟨ack, member, same⟩ := covered.last record.ack.batchId (by
        simpa [ShardBuf.covers, ShardBuf.buffer] using covers)
      have held : ack ∈ s.roots + s.stored := by
        apply Multiset.mem_add.mpr
        right
        apply Multiset.mem_add.mpr
        left
        exact mem_opens inPath inContent member
      exact custody.keeps.same (custody.keeps.known _ held) known same ▸ member
    have acksCovered : record.ack ∈ after.acks ∧ before.acks ⊆ after.acks := by
      rw [afterAcks]
      split
      · rename_i covers
        exact ⟨own covers, List.Subset.refl _⟩
      · exact ⟨by simp, List.subset_append_left _ _⟩
    obtain ⟨lost, total, poisoned⟩ := custody.conserved
    refine ⟨?_, ?_, ?_, ?_, ?_, ⟨lost, ?_, ?_⟩, ?_, ?_⟩
    · have roots : s'.roots = s.roots := by rw [SinkPath.roots, threads]; rfl
      have stored : s'.stored =
          s.stored + if before.covers record then 0 else {record.ack} := by
        unfold SinkPath.stored
        rw [chunks, gained _ (if before.covers record then 0 else {record.ack})]
        · abel
        · rw [afterAcks]
          split
          · simp
          · rw [← Multiset.coe_add]
            rfl
      rw [roots, stored, acks]
      cases covers : before.covers record with
      | true => simpa using custody.keeps
      | false =>
        have more := custody.keeps.clone root
        rw [← Multiset.singleton_add, add_comm, add_assoc] at more
        exact more
    · rw [workers]
      exact custody.workers
    · apply buffers_setStage custody stages
      intro buffer member
      obtain ⟨other, present, rfl⟩ := List.mem_map.mp member
      rcases List.mem_or_eq_of_mem_set present with old | rfl
      · exact custody.buffers _ inPath _ (List.mem_map_of_mem old)
      · refine ⟨fun r inRecords => ?_, fun id last => ?_⟩
        · change r ∈ other.records at inRecords
          rw [afterRecords] at inRecords
          rcases List.mem_append.mp inRecords with earlier | new
          · exact acksCovered.2 (covered.records r earlier)
          · rw [List.mem_singleton.mp new]
            exact acksCovered.1
        · change other.lastBatch = some id at last
          rw [afterLast] at last
          exact ⟨record.ack, acksCovered.1, Option.some.inj last⟩
    · rw [chunks]
      exact custody.chunks
    · rw [encoded]
      intro r member
      rcases List.mem_append.mp member with old | new
      · exact (custody.encoded r old).mono grows
      · rw [List.mem_singleton.mp new]
        exact known.mono grows
    · have rows : s'.rows = s.rows + {record} := by
        unfold SinkPath.rows
        rw [chunks, gained _ {record}]
        · abel
        · rw [afterRecords, ← Multiset.coe_add]
          rfl
      have settled : s'.settled = s.settled := by rw [SinkPath.settled, workers]; rfl
      rw [encoded, ← Multiset.coe_add, total, rows, settled, Multiset.coe_singleton]
      abel
    · exact fun r member => (poisoned r member).mono grows
    · rw [broken]
      intro r member
      obtain ⟨seen, fate⟩ := custody.broken r member
      refine ⟨seen.mono grows, fate.imp (·.mono grows) ?_⟩
      exact doomed_setStage found stages threads rfl fun pending => by
        rw [clear] at pending
        cases pending
    · rw [workers]
      intro w member r resolved failed chunk inside record row
      exact (custody.abandoned w member r resolved failed chunk inside record row).mono grows

theorem sent_worker {workers after : List (Worker α)}
    (queues : after = workers ∨ ∃ target w chunk, workers[target]? = some w ∧ w.phase.live ∧
      w.sendersLive ∧ after = workers.set target { w with queue := w.queue ++ [chunk] })
    (trusted : ∀ w ∈ workers, w.Trusted) :
    (∀ w ∈ after, w.Trusted) ∧ after.map (·.log) = workers.map (·.log) := by
  rcases queues with rfl | ⟨target, w, chunk, found, live, _, rfl⟩
  · exact ⟨trusted, rfl⟩
  · refine ⟨fun other member => ?_, Lists.map_set_same found _ rfl⟩
    rcases List.mem_or_eq_of_mem_set member with old | rfl
    · exact trusted other old
    · exact (trusted w (List.mem_of_getElem? found)).arrive live chunk

theorem settled_eq (s : SinkPath E R K) :
    s.settled = ((s.workers.map (·.log)).map fun log =>
      recordsIn ((log.resolved.filter (·.delivered)).flatMap (·.batch.chunks))).sum := by
  rw [List.map_map]
  rfl

/-- A stage's action moves rows with the handles that cover them. -/
theorem Custody.advance (custody : s.Custody) {stage next : Stage E R K}
    {sealed : Option (EncodedChunk α)} (found : s.stages[i]? = some stage)
    (advances : stage.Advances s.workers next s'.workers sealed)
    (stages : s'.stages = s.stages.set i next) (threads : s'.threads = s.threads)
    (acks : s'.acks = s.acks) (encoded : s'.log.encoded = s.log.encoded)
    (broken : s'.log.broken = s.log.broken) : s'.Custody := by
  have chunks := chunks_advance found stages advances
  have opens {M : Type} (f : AckSet → List (Record α) → Multiset M) (empty : f [] [] = 0) :
      s.opens f = s'.opens f + sealed.elim 0 (fun chunk => f chunk.acks chunk.records) := by
    have outer := opens_setStage f found stages
    have inner := advances.openSum f empty
    apply add_right_cancel (b := next.handoff.openSum f)
    rw [← outer, inner]
    abel
  have stored : s'.stored = s.stored := by
    unfold SinkPath.stored
    rw [opens (fun acks _ => (acks : Multiset AckRef)) rfl, chunks, acksOf_add]
    cases sealed with
    | none => simp [acksOf]
    | some chunk =>
      simp only [Option.elim_some, acksOf, Multiset.singleton_bind]
      abel
  have rows : s'.rows = s.rows := by
    unfold SinkPath.rows
    rw [opens (fun _ records => (records : Multiset (Record α))) rfl, chunks, recordsIn_add]
    cases sealed with
    | none => simp [recordsIn]
    | some chunk =>
      simp only [Option.elim_some, recordsIn, Multiset.singleton_bind]
      abel
  obtain ⟨trusted, logs⟩ := sent_worker advances.queues custody.workers
  have settled : s'.settled = s.settled := by rw [settled_eq, settled_eq, logs]
  have inPath : stage.content ∈ s.contents := List.mem_map_of_mem (List.mem_of_getElem? found)
  have covered := custody.buffers _ inPath
  obtain ⟨lost, total, poisoned⟩ := custody.conserved
  refine ⟨?_, trusted, ?_, ?_, ?_, ⟨lost, ?_, ?_⟩, ?_, ?_⟩
  · have roots : s'.roots = s.roots := by rw [SinkPath.roots, threads]; rfl
    rw [roots, stored, acks]
    exact custody.keeps
  · apply buffers_setStage custody stages
    intro buffer member
    rcases advances.buffers member with old | rfl
    · exact covered buffer old
    · exact ⟨by simp, by simp⟩
  · rw [chunks]
    intro chunk member
    rcases Multiset.mem_add.mp member with old | new
    · exact custody.chunks chunk old
    · cases sealed with
      | none => simp at new
      | some fresh =>
        obtain rfl : chunk = fresh := by simpa using new
        obtain ⟨buffer, inside, sameAcks, sameRecords⟩ := advances.chunk
        intro record row
        rw [sameRecords] at row
        rw [sameAcks]
        exact (covered buffer inside).records record row
  · rw [encoded, acks]
    exact custody.encoded
  · rw [encoded, rows, settled]
    exact total
  · rw [acks]
    exact poisoned
  · rw [broken, acks]
    intro record member
    obtain ⟨known, fate⟩ := custody.broken record member
    exact ⟨known, fate.imp id
      (doomed_setStage found stages threads advances.owner advances.fatal)⟩
  · rw [acks]
    intro w member r resolved
    have logged : w.log ∈ s.workers.map (·.log) := logs ▸ List.mem_map_of_mem member
    obtain ⟨before, present, same⟩ := List.mem_map.mp logged
    exact custody.abandoned before present r (same ▸ resolved)

/-- Part of what the path holds is given up: rows that are settled, and rows whose
handles are discarded. -/
theorem Custody.yield (custody : s.Custody) (effects : List Effect)
    (written lost : Multiset (Record α)) (acks : s'.acks = s.acks.after effects)
    (roots : s'.roots = s.roots) (encoded : s'.log.encoded = s.log.encoded)
    (broken : s'.log.broken = s.log.broken)
    (stored : s.stored = (deliveries effects).flatten + (discards effects).flatten + s'.stored)
    (rows : s.rows = s'.rows + written + lost) (settled : s'.settled = s.settled + written)
    (discarded : ∀ record ∈ lost, record.ack ∈ (discards effects).flatten)
    (workers : ∀ w ∈ s'.workers, w.Trusted)
    (contents : ∀ content ∈ s'.contents, ∀ buffer ∈ content.buffers, buffer.Covered)
    (chunks : ∀ chunk ∈ s'.chunks, chunk ∈ s.chunks)
    (abandoned : ∀ w ∈ s'.workers, ∀ r ∈ w.log.resolved, r.delivered = false →
      (∃ before ∈ s.workers, r ∈ before.log.resolved) ∨
        ∀ chunk ∈ r.batch.chunks, ∀ record ∈ chunk.records,
          record.ack ∈ (discards effects).flatten)
    (kept : ∀ ack, s.Doomed ack → s'.Doomed ack) : s'.Custody := by
  have grows : s.acks.Grows s'.acks := acks ▸ AckBook.after_grows effects s.acks
  have keeps := custody.keeps
  rw [stored, add_left_comm] at keeps
  obtain ⟨after, poisoned⟩ := keeps.after
  rw [← acks] at after poisoned
  obtain ⟨gone, total, earlier⟩ := custody.conserved
  refine ⟨roots ▸ after, workers, contents,
    fun chunk member => custody.chunks chunk (chunks chunk member),
    ?_, ⟨gone + lost, ?_, ?_⟩, ?_, ?_⟩
  · rw [encoded]
    exact fun record member => (custody.encoded record member).mono grows
  · rw [encoded, total, rows, settled]
    abel
  · intro record member
    rcases Multiset.mem_add.mp member with old | new
    · exact (earlier record old).mono grows
    · exact poisoned _ (discarded record new)
  · rw [broken]
    intro record member
    obtain ⟨known, fate⟩ := custody.broken record member
    exact ⟨known.mono grows, fate.imp (·.mono grows) (kept _)⟩
  · intro w member r resolved failed chunk inside record row
    rcases abandoned w member r resolved failed with ⟨before, present, seen⟩ | fresh
    · exact (custody.abandoned before present r seen failed chunk inside record row).mono grows
    · exact poisoned _ (fresh chunk inside record row)

theorem mem_recordsIn {chunks : Multiset (EncodedChunk α)} :
    record ∈ recordsIn chunks ↔ ∃ chunk ∈ chunks, record ∈ chunk.records := by
  simp [recordsIn]

theorem Custody.dropStage (custody : s.Custody) {stage : Stage E R K}
    (found : s.stages[i]? = some stage) (free : s.batch stage.thread = none) :
    ({ s with stages := s.stages.set i stage.dropped }.apply stage.dropEffects).Custody := by
  generalize next : ({ s with stages := s.stages.set i stage.dropped }.apply
    stage.dropEffects : SinkPath E R K) = s'
  have stages : s'.stages = s.stages.set i stage.dropped := by rw [← next]; rfl
  have workers : s'.workers = s.workers := by rw [← next]; rfl
  have chunks := chunks_dropStage found stages workers
  have opens {M : Type} (f : AckSet → List (Record α) → Multiset M) :
      s.opens f = s'.opens f + stage.handoff.openSum f := by
    have moved := opens_setStage f found stages
    exact (moved.trans (add_zero _)).symm
  have inPath : stage.content ∈ s.contents := List.mem_map_of_mem (List.mem_of_getElem? found)
  obtain ⟨delivered, discarded, _⟩ := stage.sums_dropEffects
  have buffered : stage.handoff.openSum (fun acks _ => (acks : Multiset AckRef)) =
      ((stage.handoff.shards.map (·.acks)).flatten : List AckRef) := by
    unfold SinkHandoff.openSum
    induction stage.handoff.shards with
    | nil => rfl
    | cons shard rest ih =>
      simp only [List.map_cons, List.sum_cons, List.flatten_cons, ih, Multiset.coe_add]
  apply custody.yield stage.dropEffects 0
    (stage.handoff.openSum (fun _ records => (records : Multiset (Record α))) +
      recordsIn stage.chunks)
  · rw [← next]; rfl
  · rw [← next]; rfl
  · rw [← next]; rfl
  · rw [← next]; rfl
  · unfold SinkPath.stored
    rw [delivered, discarded, chunks, opens, buffered, acksOf_add, acksOf_coe, List.flatten_append,
      ← Multiset.coe_add, ← List.flatMap_def]
    simp only [List.flatten_nil, Multiset.coe_nil]
    abel
  · unfold SinkPath.rows
    rw [chunks, opens, recordsIn_add]
    abel
  · rw [SinkPath.settled, workers, add_zero]
    rfl
  · intro record member
    rw [discarded, List.flatten_append]
    rcases Multiset.mem_add.mp member with open' | sealed
    · obtain ⟨shard, present, row⟩ := Lists.mem_sum_map.mp open'
      apply List.mem_append_right
      have covered := custody.buffers _ inPath _ (List.mem_map_of_mem present)
      exact List.mem_flatten.mpr ⟨shard.acks, List.mem_map_of_mem present,
        covered.records record row⟩
    · obtain ⟨chunk, present, row⟩ := mem_recordsIn.mp sealed
      apply List.mem_append_left
      have covered := custody.chunks chunk (by
        rw [chunks]
        exact Multiset.mem_add.mpr (Or.inr present))
      exact List.mem_flatten.mpr ⟨chunk.acks, List.mem_map_of_mem present, covered record row⟩
  · rw [workers]
    exact custody.workers
  · apply buffers_setStage custody stages
    intro buffer member
    cases member
  · intro chunk member
    rw [chunks]
    exact Multiset.mem_add.mpr (Or.inl member)
  · rw [workers]
    exact fun w member r resolved _ => Or.inl ⟨w, member, resolved⟩
  · rintro ack ⟨t, inside, pending⟩
    have apart : stage.thread ≠ t := by
      rintro rfl
      rw [batch_of_inside inside] at free
      cases free
    apply doomed_of_kept inside pending (by rw [← next]; rfl)
    intro other member owned latched
    obtain ⟨j, present⟩ := List.mem_iff_getElem?.mp member
    have elsewhere : i ≠ j := by
      rintro rfl
      rw [found] at present
      cases present
      exact apart owned
    rw [stages]
    exact ⟨other, List.mem_of_getElem? ((List.getElem?_set_ne elsewhere).trans present), owned,
      latched⟩

theorem Custody.setWorker (custody : s.Custody) {next : Worker α} {effects : List Effect}
    {gone : Multiset (EncodedChunk α)} (written lost : Multiset (Record α))
    (found : s.workers[idx]? = some w) (trusted : next.Trusted)
    (held : (w.held : Multiset (EncodedChunk α)) = next.held + gone)
    (handles : ((deliveries effects).flatten + (discards effects).flatten : Multiset AckRef) =
      acksOf gone) (rows : recordsIn gone = written + lost)
    (settled : next.settled = w.settled + written)
    (discarded : ∀ record ∈ lost, (∀ chunk ∈ gone, chunk.Covered) →
      record.ack ∈ (discards effects).flatten)
    (abandoned : ∀ r ∈ next.log.resolved, r.delivered = false → r ∈ w.log.resolved ∨
      ∀ chunk ∈ r.batch.chunks, ∀ record ∈ chunk.records, record ∈ lost) :
    ({ s with workers := s.workers.set idx next }.apply effects).Custody := by
  generalize reached : ({ s with workers := s.workers.set idx next }.apply effects :
    SinkPath E R K) = s'
  have stages : s'.stages = s.stages := by rw [← reached]; rfl
  have contents : s'.contents = s.contents := by rw [SinkPath.contents, stages]; rfl
  have workers : s'.workers = s.workers.set idx next := by rw [← reached]; rfl
  have chunks : s.chunks = s'.chunks + gone := by
    have moved := chunks_setWorker found stages workers
    rw [held, add_comm (next.held : Multiset (EncodedChunk α)), ← add_assoc] at moved
    exact (add_right_cancel moved).symm
  have covered : ∀ chunk ∈ gone, chunk.Covered := by
    intro chunk member
    apply custody.chunks
    rw [chunks]
    exact Multiset.mem_add.mpr (Or.inr member)
  apply custody.yield effects written lost
  · rw [← reached]; rfl
  · rw [← reached]; rfl
  · rw [← reached]; rfl
  · rw [← reached]; rfl
  · unfold SinkPath.stored
    rw [handles, chunks, opens_congr _ contents, acksOf_add]
    abel
  · unfold SinkPath.rows
    rw [chunks, opens_congr _ contents, recordsIn_add, rows]
    abel
  · have sums := Lists.sum_map_set found next Worker.settled
    rw [← workers, settled, add_comm w.settled, ← add_assoc] at sums
    exact add_right_cancel sums
  · exact fun record member => discarded record member covered
  · rw [workers]
    intro other member
    rcases List.mem_or_eq_of_mem_set member with old | rfl
    · exact custody.workers other old
    · exact trusted
  · rw [contents]
    exact custody.buffers
  · intro chunk member
    rw [chunks]
    exact Multiset.mem_add.mpr (Or.inl member)
  · rw [workers]
    intro other member r resolved failed
    rcases List.mem_or_eq_of_mem_set member with old | rfl
    · exact Or.inl ⟨other, old, resolved⟩
    · rcases abandoned r resolved failed with earlier | fresh
      · exact Or.inl ⟨w, List.mem_of_getElem? found, earlier⟩
      · right
        intro chunk inside record row
        exact discarded record (fresh chunk inside record row) covered
  · rintro ack ⟨t, inside, pending⟩
    apply doomed_of_kept inside pending (by rw [← reached]; rfl)
    rw [stages]
    exact fun stage member owned latched => ⟨stage, member, owned, latched⟩

theorem Custody.worker (custody : s.Custody) {next : Worker α} {event : WorkerEvent α}
    {effects : List Effect} (found : s.workers[idx]? = some w)
    (inner : ∀ chunk, event ≠ .arrive chunk) (move : w.Move event next effects) :
    ({ s with workers := s.workers.set idx next }.apply effects).Custody := by
  obtain ⟨trusted, fresh, dropped, yields⟩ :=
    (custody.workers w (List.mem_of_getElem? found)).move inner move
  have parts : (((fresh.filter (·.delivered)).flatMap (·.batch.chunks) +
      (fresh.filter (!·.delivered)).flatMap (·.batch.chunks) : Multiset (EncodedChunk α))) =
      (fresh.flatMap (·.batch.chunks) : List (EncodedChunk α)) := by
    rw [Multiset.coe_add, ← List.flatMap_append]
    exact Multiset.coe_eq_coe.mpr ((List.filter_append_perm _ fresh).flatMap_right _)
  apply custody.setWorker
    (recordsIn ((fresh.filter (·.delivered)).flatMap (·.batch.chunks)))
    (recordsIn ((fresh.filter (!·.delivered)).flatMap (·.batch.chunks) + dropped))
    found trusted yields.held (yields.accounts.handles yields.merged)
  · rw [← parts, recordsIn_add, recordsIn_add, recordsIn_add, add_assoc]
  · unfold Worker.settled
    rw [yields.resolved, List.filter_append, List.flatMap_append, ← Multiset.coe_add, recordsIn_add]
  · intro record member covered
    obtain ⟨chunk, present, row⟩ := mem_recordsIn.mp member
    rw [yields.accounts.discards, List.flatten_append]
    rcases Multiset.mem_add.mp present with failed | queued
    · obtain ⟨r, rejected, inside⟩ := List.mem_flatMap.mp failed
      have inFresh := (List.mem_filter.mp rejected).1
      have own : record.ack ∈ chunk.acks := covered chunk (by
        apply Multiset.mem_add.mpr
        exact Or.inl (List.mem_flatMap.mpr ⟨r, inFresh, inside⟩)) record row
      apply List.mem_append_left
      apply List.mem_flatten.mpr
      refine ⟨r.batch.acks, List.mem_map_of_mem rejected, ?_⟩
      rw [(yields.merged r inFresh).acks]
      exact List.mem_flatMap.mpr ⟨chunk, inside, own⟩
    · have own : record.ack ∈ chunk.acks :=
        covered chunk (Multiset.mem_add.mpr (Or.inr queued)) record row
      apply List.mem_append_right
      exact List.mem_flatten.mpr ⟨chunk.acks, List.mem_map_of_mem queued, own⟩
  · intro r resolved failed
    rw [yields.resolved] at resolved
    refine (List.mem_append.mp resolved).imp id fun inFresh chunk inside record row => ?_
    apply mem_recordsIn.mpr
    refine ⟨chunk, Multiset.mem_add.mpr (Or.inl ?_), row⟩
    exact List.mem_flatMap.mpr ⟨r, List.mem_filter.mpr ⟨inFresh, by simp [failed]⟩, inside⟩

theorem Custody.abort (custody : s.Custody) (found : s.workers[idx]? = some w)
    (live : w.phase.live) :
    ({ s with workers := s.workers.set idx w.abort.1 }.apply w.abort.2).Custody := by
  have trusted := custody.workers w (List.mem_of_getElem? found)
  have running : w.phase ≠ .aborted := by
    intro aborted
    rw [aborted] at live
    cases live
  have sound := trusted.sound running
  obtain ⟨delivered, discarded, _⟩ := w.sums_abort
  have handles : ((deliveries w.abort.2).flatten + (discards w.abort.2).flatten :
      Multiset AckRef) = acksOf (w.held : Multiset (EncodedChunk α)) := by
    have pending : (w.ledger.pending.entries.map (·.2.acks)).flatten =
        w.pendingChunks.flatMap (·.acks) := by
      rw [← List.flatMap_def, Worker.pendingChunks, List.flatMap_assoc]
      apply List.flatMap_congr
      intro entry member
      obtain ⟨_, _, _, merged⟩ :=
        sound.resolving.pending entry.1 entry.2 (AList.mem_lookup_iff.mpr member)
      exact merged.acks
    rw [delivered, discarded, acksOf_coe, Worker.held]
    simp only [List.flatten_append, List.flatten_nil, List.flatten_cons, List.append_nil, pending,
      sound.recorded.merged.acks, ← List.flatMap_def, List.flatMap_append, ← Multiset.coe_add,
      Multiset.coe_nil]
    abel
  apply custody.setWorker 0 (recordsIn w.held) found trusted.abort (by simp [Worker.abort]; rfl)
    handles (zero_add _).symm (add_zero _).symm
  · intro record member covered
    obtain ⟨chunk, present, row⟩ := mem_recordsIn.mp member
    rw [delivered, List.flatten_nil, Multiset.coe_nil, zero_add] at handles
    apply Multiset.mem_coe.mp
    rw [handles]
    apply Multiset.mem_bind.mpr
    exact ⟨chunk, present, covered chunk present record row⟩
  · exact fun r resolved _ => Or.inl resolved

end Moving

end SinkPath

end Spate.Sink
