import Spate.HandoffOrder
import Spate.SinkCustody

set_option autoImplicit false

/- Runs of the sink path: what a resolution says about the rows of its batch. -/
namespace Spate.Sink

variable {α : Type} {E : RowEncoder α} {R : RecordRouter α} {K : FrameCodec}

theorem Stage.Advances.cfg {stage next : Stage E R K} {before after : List (Worker α)}
    {sealed : Option (EncodedChunk α)} (advances : stage.Advances before next after sealed) :
    next.handoff.cfg = stage.handoff.cfg := by
  cases advances with
  | unsealed _ seals | parked _ seals | inHand _ seals => exact seals.cfg
  | _ => rfl

namespace SinkPath

variable {record : Record α}

theorem new_custody (threads : Nat) (plans : List (StagePlan E R K))
    (workers : List WorkerConfig) : (SinkPath.new threads plans workers).Custody := by
  have chunks := new_chunks threads plans workers
  have opens {M : Type} (f : AckSet → List (Record α) → Multiset M) (empty : f [] [] = 0) :
      (SinkPath.new threads plans workers).opens f = 0 := by
    apply Multiset.eq_zero_of_forall_notMem
    intro x member
    obtain ⟨content, present, inside⟩ := Lists.mem_sum_map.mp member
    obtain ⟨buffer, there, inside⟩ := Lists.mem_sum_map.mp inside
    rw [(new_contents present).2 buffer there, empty] at inside
    cases inside
  refine ⟨?_, ?_, ?_, ?_, ?_, ⟨0, ?_, ?_⟩, ?_, ?_⟩
  · have roots : (SinkPath.new threads plans workers).roots = 0 := by
      apply Multiset.eq_zero_of_forall_notMem
      intro ack member
      obtain ⟨thread, present, inside⟩ := Lists.mem_sum_map.mp member
      rw [List.eq_of_mem_replicate present] at inside
      cases inside
    rw [roots, stored, chunks, opens _ rfl]
    exact AckBook.keeps_empty
  · intro w member
    obtain ⟨cfg, _, rfl⟩ := List.mem_map.mp member
    exact Worker.new_trusted cfg
  · intro content present buffer member
    rw [(new_contents present).2 buffer member]
    exact ⟨by simp, by simp⟩
  · rw [chunks]
    simp
  · simp [SinkPath.new]
  · have settled : (SinkPath.new threads plans workers).settled = 0 := by
      apply Multiset.eq_zero_of_forall_notMem
      intro record member
      obtain ⟨w, present, inside⟩ := Lists.mem_sum_map.mp member
      obtain ⟨cfg, _, rfl⟩ := List.mem_map.mp present
      cases inside
    rw [rows, chunks, opens _ rfl, settled]
    rfl
  · simp
  · simp [SinkPath.new]
  · intro w member r resolved
    obtain ⟨cfg, _, rfl⟩ := List.mem_map.mp member
    cases resolved

theorem move_custody {s s' : SinkPath E R K} {event : PathEvent α} (custody : s.Custody)
    (move : Move s event s') : s'.Custody := by
  cases move with
  | issue present free fresh => exact custody.issue present free fresh
  | payload t =>
    refine custody.quiet rfl rfl rfl (roots_modify rfl fun _ => rfl) rfl rfl fun ack => ?_
    exact doomed_modify (g := fun thread => { thread with inPayload := true })
      (by rfl) (by rfl) (fun _ => rfl) (fun _ _ => rfl) fun _ latched => latched
  | filter t record => exact custody.quiet rfl rfl rfl rfl rfl rfl fun _ doomed => doomed
  | @raise t record inside =>
    refine custody.breaks rfl rfl rfl (roots_modify rfl fun _ => rfl) rfl rfl inside ?_
      fun ack => doomed_modify (g := fun thread => { thread with fatal := true })
        (by rfl) (by rfl) (fun _ => rfl) (fun _ busy => busy) fun _ _ => rfl
    obtain ⟨thread, found, driven, busy⟩ := inside_iff.mp inside
    have after : (s.threads.modify t fun thread => { thread with fatal := true })[t]? =
        some { thread with fatal := true } := by
      rw [List.getElem?_modify, found]
      simp
    exact ⟨t, inside_iff.mpr ⟨_, after, driven, busy⟩,
      pendingFatal_iff.mpr (Or.inl ⟨_, after, rfl⟩)⟩
  | @swallow t record inside pending =>
    exact custody.breaks rfl rfl rfl rfl rfl rfl inside ⟨t, inside, pending⟩ fun _ doomed => doomed
  | push found ready inside accepts =>
    exact custody.push found ready inside accepts rfl rfl rfl rfl rfl rfl
  | skip found accepts =>
    have same := accepts.content (Or.inl rfl)
    refine custody.quiet (Lists.map_set_same found _ same) rfl rfl rfl rfl rfl fun ack => ?_
    exact doomed_setStage found (by rfl) (by rfl) (by rfl) accepts.fatal
  | @fail i stage record h pushed found inside accepts lost =>
    have same := accepts.content (Or.inr lost)
    refine custody.breaks (Lists.map_set_same found _ same) rfl rfl rfl rfl rfl inside ?_
      fun ack => doomed_setStage found (by rfl) (by rfl) (by rfl) accepts.fatal
    have inRange := (List.getElem?_eq_some_iff.mp found).1
    refine ⟨stage.thread, inside, pendingFatal_iff.mpr (Or.inr
      ⟨{ stage with handoff := h }, ?_, rfl, accepts.latched lost⟩)⟩
    exact List.mem_of_getElem? (List.getElem?_set_self inRange)
  | @pass t clear =>
    refine custody.quiet rfl rfl rfl (roots_modify rfl fun _ => rfl) rfl rfl ?_
    rintro ack ⟨other, inside, pending⟩
    have apart : other ≠ t := by
      rintro rfl
      rw [clear] at pending
      cases pending
    exact doomed_of_kept inside pending (threads_modify_ne rfl apart)
      fun stage member owned latched => ⟨stage, member, owned, latched⟩
  | @fatal t ack driven =>
    have same : (s.clearFatals t).batch t = some ack :=
      (batch_modify (g := fun thread => { thread with fatal := false }) rfl fun _ => rfl).trans
        driven
    have roots : (s.clearFatals t).roots = s.roots := roots_modify rfl fun _ => rfl
    refine custody.close true driven nofun (clearFatals_contents t) rfl rfl rfl ?_ ?_ ?_
    · exact roots.symm.trans (closeBatch_roots same true)
    · intro other apart
      exact (threads_modify_ne rfl apart).trans (threads_modify_ne rfl apart)
    · intro stage member apart latched
      exact ⟨stage, onStages_other member apart, rfl, latched⟩
  | @finish t ack driven between =>
    refine custody.close false driven (fun _ => between) rfl rfl rfl rfl
      (closeBatch_roots driven false)
      (fun other apart => threads_modify_ne rfl apart) ?_
    exact fun stage member _ latched => ⟨stage, member, rfl, latched⟩
  | @abandon t ack driven =>
    refine custody.close true driven nofun rfl rfl rfl rfl (closeBatch_roots driven true)
      (fun other apart => threads_modify_ne rfl apart) ?_
    exact fun stage member _ latched => ⟨stage, member, rfl, latched⟩
  | @unwind t ack driven empty =>
    refine custody.close true driven nofun (unwound_contents empty) rfl rfl rfl ?_
      (fun other apart => threads_modify_ne rfl apart) ?_
    · exact closeBatch_roots driven true
    · intro stage member apart latched
      exact ⟨stage, onStages_other member apart, rfl, latched⟩
  | @takeFatal t free =>
    refine custody.quiet (clearFatals_contents t) rfl rfl (roots_modify rfl fun _ => rfl) rfl rfl ?_
    rintro ack ⟨other, inside, pending⟩
    have apart : other ≠ t := by
      rintro rfl
      rw [batch_of_inside inside] at free
      cases free
    apply doomed_of_kept inside pending (threads_modify_ne rfl apart)
    intro stage member owned latched
    exact ⟨stage, onStages_other member (owned ▸ apart), owned, latched⟩
  | @call event i stage work found ready empty =>
    have idle : stage.work.filterMap Work.chunk? = [] := by
      rw [ready]
      rfl
    have same := content_work idle empty
    refine custody.quiet (Lists.map_set_same found _ same) rfl rfl rfl rfl rfl fun ack => ?_
    exact doomed_setStage found (by rfl) (by rfl) (by rfl) (by exact id)
  | advance found advances => exact custody.advance found advances rfl rfl rfl rfl rfl
  | dropStage found free _ => exact custody.dropStage found free
  | worker found inner taken => exact custody.worker found inner (Worker.move_of_step taken)
  | abort found live => exact custody.abort found live

/-! ## Records dropped before a row -/

def configs (s : SinkPath E R K) : List ChunkConfig := s.stages.map (·.handoff.cfg)

theorem onStages_configs (s : SinkPath E R K) (t : Nat) {f : Stage E R K → Stage E R K}
    (same : ∀ stage, (f stage).handoff.cfg = stage.handoff.cfg) :
    (s.onStages t f).configs = s.configs := by
  unfold configs onStages
  rw [List.map_map]
  refine List.map_congr_left fun stage _ => ?_
  dsimp only [Function.comp]
  split
  · exact same stage
  · rfl

theorem move_configs {s s' : SinkPath E R K} {event : PathEvent α} (move : Move s event s') :
    s'.configs = s.configs := by
  cases move with
  | push found _ _ accepts | skip found accepts | fail found _ accepts =>
    exact Lists.map_set_same found _ accepts.cfg
  | fatal | takeFatal => exact onStages_configs s _ fun _ => rfl
  | unwind => exact onStages_configs s _ fun _ => rfl
  | call found | dropStage found => exact Lists.map_set_same found _ rfl
  | advance found advances => exact Lists.map_set_same found _ advances.cfg
  | _ => rfl

/-- A filter dropped the record, or it was pushed to a stage that skips records and whose
encoder failed on it, the failure not being fatal. -/
def Excused (plans : List (StagePlan E R K)) (events : List (PathEvent α)) (record : Record α) :
    Prop :=
  (∃ t, .filter t record ∈ events) ∨
    ∃ (i : Nat) (plan : StagePlan E R K) (state : E.State) (buf : Bytes) (error : SinkError),
      .push i record ∈ events ∧ plans[i]? = some plan ∧ plan.cfg.encodePolicy = .skip ∧
      (E.encode state record buf).result = .error error ∧ error.errorClass ≠ .fatal

theorem Excused.later {plans : List (StagePlan E R K)} {events : List (PathEvent α)}
    (excused : Excused plans events record) (event : PathEvent α) :
    Excused plans (events ++ [event]) record := by
  rcases excused with ⟨t, filtered⟩ | ⟨i, plan, state, buf, error, pushed, reasons⟩
  · exact .inl ⟨t, List.mem_append_left _ filtered⟩
  · exact .inr ⟨i, plan, state, buf, error, List.mem_append_left _ pushed, reasons⟩

theorem move_dropped {s s' : SinkPath E R K} {event : PathEvent α} (move : Move s event s')
    (member : record ∈ s'.log.dropped) :
    record ∈ s.log.dropped ∨ (∃ t, event = .filter t record) ∨
      ∃ i stage h, event = .push i record ∧ s.stages[i]? = some stage ∧
        stage.handoff.Accepts record h .skipped := by
  cases move with
  | filter t dropped =>
    rcases List.mem_append.mp member with before | here
    · exact .inl before
    · exact .inr (.inl ⟨t, by rw [List.mem_singleton.mp here]⟩)
  | skip found accepts =>
    rcases List.mem_append.mp member with before | here
    · exact .inl before
    · obtain rfl := List.mem_singleton.mp here
      exact .inr (.inr ⟨_, _, _, rfl, found, accepts⟩)
  | _ => exact .inl member

theorem excused_of_run {threads : Nat} {plans : List (StagePlan E R K)}
    {workers : List WorkerConfig} {events : List (PathEvent α)} {s : SinkPath E R K}
    (run : Transition.Run SinkPath.step (fun _ _ => True) (.new threads plans workers) events s) :
    s.configs = plans.map (·.cfg) ∧ ∀ record ∈ s.log.dropped, Excused plans events record := by
  induction run with
  | nil =>
    refine ⟨?_, nofun⟩
    simp only [configs, SinkPath.new, List.map_map]
    rfl
  | @snoc events before after event earlier permitted taken ih =>
    obtain ⟨configs, excused⟩ := ih
    have move := move_of_step taken
    refine ⟨(move_configs move).trans configs, fun record member => ?_⟩
    rcases move_dropped move member with before | ⟨t, rfl⟩ | ⟨i, stage, h, rfl, found, accepts⟩
    · exact (excused record before).later event
    · exact .inl ⟨t, List.mem_append_right _ List.mem_cons_self⟩
    · have listed : (plans.map (·.cfg))[i]? = some stage.handoff.cfg := by
        rw [← configs, SinkPath.configs, List.getElem?_map, found]
        rfl
      rw [List.getElem?_map] at listed
      obtain ⟨plan, planned, same⟩ := Option.map_eq_some_iff.mp listed
      cases accepts with
      | skipped clear routed found row policy mild =>
        exact .inr ⟨i, plan, _, _, _, List.mem_append_right _ List.mem_cons_self, planned,
          same ▸ policy, ShardBuf.encode_result row, mild⟩

/-- The row of the record is in a sealed batch whose write returned `Ok`. -/
def Durable (s : SinkPath E R K) (record : Record α) : Prop :=
  ∃ w ∈ s.workers, ∃ entry ∈ w.log.written, entry.2.frames = entry.2.chunks.map (·.frame) ∧
    ∃ chunk ∈ entry.2.chunks, record ∈ chunk.records

variable {s : SinkPath E R K}

theorem Custody.stored_of_rows (custody : s.Custody) (member : record ∈ s.rows) :
    record.ack ∈ s.stored := by
  apply Multiset.mem_add.mpr
  rcases Multiset.mem_add.mp member with open' | sealed
  · left
    obtain ⟨content, present, inside⟩ := Lists.mem_sum_map.mp open'
    obtain ⟨buffer, there, row⟩ := Lists.mem_sum_map.mp inside
    exact mem_opens present there
      ((custody.buffers content present buffer there).records record row)
  · right
    obtain ⟨chunk, present, row⟩ := mem_recordsIn.mp sealed
    exact Multiset.mem_bind.mpr ⟨chunk, present, custody.chunks chunk present record row⟩

theorem Custody.durable (custody : s.Custody) (member : record ∈ s.settled) : s.Durable record := by
  obtain ⟨w, present, inside⟩ := Lists.mem_sum_map.mp member
  obtain ⟨chunk, there, row⟩ := mem_recordsIn.mp inside
  obtain ⟨r, kept, inChunks⟩ := List.mem_flatMap.mp there
  obtain ⟨resolved, delivered⟩ := List.mem_filter.mp kept
  obtain ⟨batch, written, chunks, frames⟩ := (custody.workers w present).backed r resolved delivered
  exact ⟨w, present, _, written, frames, chunk, chunks ▸ inChunks, row⟩

/-- The rows of a batch that resolved as delivered are those of delivered batches. -/
theorem Custody.settled_of_delivered (custody : s.Custody) {msg : Checkpoint.AckMsg}
    (sent : msg ∈ s.acks.sent) (delivered : msg.status = .delivered) :
    (s.log.encoded : Multiset (Record α)).filter (·.ack.batchId = msg.id) =
      s.settled.filter (·.ack.batchId = msg.id) := by
  obtain ⟨lost, total, poisoned⟩ := custody.conserved
  have onPath : s.rows.filter (·.ack.batchId = msg.id) = 0 := by
    rw [Multiset.filter_eq_nil]
    intro record member same
    have held : record.ack ∈ s.roots + s.stored :=
      Multiset.mem_add.mpr (Or.inr (custody.stored_of_rows member))
    exact custody.keeps.unresolved held sent same.symm
  have gone : lost.filter (·.ack.batchId = msg.id) = 0 := by
    rw [Multiset.filter_eq_nil]
    intro record member same
    have failed := custody.keeps.failed (poisoned record member) sent same.symm
    rw [delivered] at failed
    cases failed
  rw [total, Multiset.filter_add, Multiset.filter_add, onPath, gone, zero_add, add_zero]

theorem Custody.unbroken (custody : s.Custody) {msg : Checkpoint.AckMsg}
    (sent : msg ∈ s.acks.sent) (delivered : msg.status = .delivered)
    (member : record ∈ s.log.broken) : record.ack.batchId ≠ msg.id := by
  intro same
  rcases (custody.broken record member).2 with poisoned | ⟨t, inside, _⟩
  · have failed := custody.keeps.failed poisoned sent same.symm
    rw [delivered] at failed
    cases failed
  · have held : record.ack ∈ s.roots + s.stored :=
      Multiset.mem_add.mpr (Or.inl (mem_roots (batch_of_inside inside)))
    exact custody.keeps.unresolved held sent same.symm

end SinkPath

/-- A batch resolves as delivered only if each of its records was dropped by a filter
or a skip policy, or its row was written, and what a skip policy dropped its encoder had
failed on; any other batch that resolves resolves as
failed, and a batch nothing holds any more has resolved, once. -/
theorem delivered_only_if_written {threads : Nat} {plans : List (StagePlan E R K)}
    {workers : List WorkerConfig} {events : List (PathEvent α)} {s : SinkPath E R K}
    (run : Transition.Run SinkPath.step (fun _ _ => True) (.new threads plans workers) events s) :
    (∀ msg ∈ s.acks.sent, msg.status = .delivered →
      (∀ record ∈ s.log.broken, record.ack.batchId ≠ msg.id) ∧
      (∀ record ∈ s.log.encoded, record.ack.batchId = msg.id → s.Durable record) ∧
      -- row for row, the batch is in batches that were written and then delivered
      (s.log.encoded : Multiset (Record α)).filter (·.ack.batchId = msg.id) =
        s.settled.filter (·.ack.batchId = msg.id)) ∧
    (∀ msg ∈ s.acks.sent,
      -- a record was lost to a fatal
      (∃ record ∈ s.log.broken, record.ack.batchId = msg.id) ∨
      -- a row was never written
      (∃ record ∈ s.log.encoded, record.ack.batchId = msg.id ∧ ¬ s.Durable record) ∨
      -- a row was torn down with what held it
      (s.log.encoded : Multiset (Record α)).filter (·.ack.batchId = msg.id) ≠
        s.settled.filter (·.ack.batchId = msg.id) ∨
      -- a row is in an abandoned batch
      (∃ w ∈ s.workers, ∃ r ∈ w.log.resolved, r.delivered = false ∧
        ∃ chunk ∈ r.batch.chunks, ∃ record ∈ chunk.records, record.ack.batchId = msg.id) →
      msg.status = .failed) ∧
    (s.acks.sent.map (·.id)).Nodup ∧
    (∀ state ∈ s.acks.heap, (∀ ack ∈ s.roots + s.stored, ack.batchId ≠ state.id) →
      ∃ msg ∈ s.acks.sent, msg.id = state.id) ∧
    ∀ record ∈ s.log.dropped, SinkPath.Excused plans events record := by
  have custody : s.Custody := run.invariant SinkPath.Custody
    (SinkPath.new_custody threads plans workers)
    fun custody _ taken => SinkPath.move_custody custody (SinkPath.move_of_step taken)
  have delivered : ∀ msg ∈ s.acks.sent, msg.status = .delivered →
      (∀ record ∈ s.log.broken, record.ack.batchId ≠ msg.id) ∧
      (∀ record ∈ s.log.encoded, record.ack.batchId = msg.id → s.Durable record) ∧
      (s.log.encoded : Multiset (Record α)).filter (·.ack.batchId = msg.id) =
        s.settled.filter (·.ack.batchId = msg.id) := by
    intro msg sent good
    have rows := custody.settled_of_delivered sent good
    refine ⟨fun record member => custody.unbroken sent good member, ?_, rows⟩
    intro record member same
    have settled : record ∈ s.settled.filter (·.ack.batchId = msg.id) := by
      rw [← rows]
      exact Multiset.mem_filter.mpr ⟨member, same⟩
    exact custody.durable (Multiset.mem_filter.mp settled).1
  refine ⟨delivered, ?_, custody.keeps.once, fun state => custody.keeps.resolves,
    (SinkPath.excused_of_run run).2⟩
  intro msg sent trouble
  rcases trouble with ⟨record, member, same⟩ | ⟨record, member, same, lost⟩ | unequal |
    ⟨w, present, r, resolved, abandoned, chunk, inside, record, row, same⟩
  · cases status : msg.status with
    | delivered => exact absurd same ((delivered msg sent status).1 record member)
    | failed => rfl
  · cases status : msg.status with
    | delivered => exact absurd ((delivered msg sent status).2.1 record member same) lost
    | failed => rfl
  · cases status : msg.status with
    | delivered => exact absurd (delivered msg sent status).2.2 unequal
    | failed => rfl
  · have poisoned := custody.abandoned w present r resolved abandoned chunk inside record row
    exact custody.keeps.failed poisoned sent same.symm

/-- A record of the batch `seq`, whose state is in the cell of that number. -/
def batchRecord (seq : Nat) (payload : UInt8) : Record UInt8 :=
  ⟨payload, ⟨0, 0, 0, none⟩, ⟨seq, ⟨0, 1, seq⟩⟩⟩

def skippingStage : StagePlan blockEncoder parityRouter markerCodec :=
  ⟨0, ([], true), (), [0, 1], none, ⟨64, .skip⟩, "sink"⟩

/-- One thread with one stage over two workers. -/
def twoShards : SinkPath blockEncoder parityRouter markerCodec :=
  .new 1 [skippingStage] [⟨1, 1, 10, 4, "a-"⟩, ⟨1, 1, 10, 4, "b-"⟩]

/-- The first batch has a skipped record and one that is written; the stage is dropped
with the row of the second. -/
def writtenThenDropped : List (PathEvent UInt8) :=
  [.issue 0 ⟨0, 1, 0⟩ 9, .payload 0, .push 0 (batchRecord 0 2), .push 0 (batchRecord 0 0),
    .endPayload 0, .finish 0, .flush 0, .advance 0, .advance 0, .advance 0, .advance 0,
    .worker 0 (.receive 1), .worker 0 (.absorb 5), .worker 0 (.finish 5 .written),
    .worker 0 (.absorb 6), .worker 0 (.join 5), .issue 0 ⟨0, 1, 1⟩ 19, .payload 0,
    .push 0 (batchRecord 1 4), .endPayload 0, .finish 0, .dropStage 0]

open Transition in
theorem delivered_only_if_written_run :
    ∃ s : SinkPath blockEncoder parityRouter markerCodec,
      s.acks.sent.map (fun msg => (msg.id.seq, msg.status)) = [(0, .delivered), (1, .failed)] ∧
      s.log.encoded.map (·.payload) = [2, 4] ∧ s.log.dropped.map (·.payload) = [0] ∧
      s.Durable (batchRecord 0 2) ∧ (s.acks.sent.map (·.id)).Nodup ∧
      ∀ record ∈ s.log.dropped, SinkPath.Excused [skippingStage] writtenThenDropped record := by
  have executes : ((replay SinkPath.step (fun _ _ => True) twoShards writtenThenDropped).any
      fun s => decide (
        s.acks.sent.map (fun msg => (msg.id.seq, msg.status)) = [(0, .delivered), (1, .failed)] ∧
        s.log.encoded.map (·.payload) = [2, 4] ∧ s.log.dropped.map (·.payload) = [0] ∧
        batchRecord 0 2 ∈ s.log.encoded ∧
        (⟨⟨0, 1, 0⟩, 9, .delivered⟩ : Checkpoint.AckMsg) ∈ s.acks.sent)) = true := by
    decide
  obtain ⟨s, reached, facts⟩ := (Option.any_eq_true _ _).mp executes
  obtain ⟨sent, encoded, dropped, row, msg⟩ := of_decide_eq_true facts
  obtain ⟨delivered, -, once, -, excused⟩ := delivered_only_if_written (run_of_replay _ _ s reached)
  exact ⟨s, sent, encoded, dropped, (delivered _ msg rfl).2.1 _ row rfl, once, excused⟩

end Spate.Sink
