import Mathlib.Data.List.Range
import Spate.Transition
import Spate.SinkWorker

set_option autoImplicit false

/- Whole runs of the shard worker: every chunk received is sealed, every sealed
batch is resolved once, and only a reported success delivers. -/
namespace Spate.Sink

variable {α : Type}

/-- These totals and handles are those of the chunks. -/
structure Merged (chunks : List (EncodedChunk α)) (rows bytes : Nat) (acks : AckSet) : Prop where
  rows : rows = (chunks.map (·.rows)).sum
  bytes : bytes = (chunks.map (·.rawLen)).sum
  acks : acks = chunks.flatMap (·.acks)

namespace Worker

/-- The intake side: what was received is sealed, accumulated or still buffered. -/
structure Recorded (w : Worker α) : Prop where
  received : w.log.received = w.log.batches.flatMap (·.2.chunks) ++ w.acc.chunks ++ w.recvBuf
  numbered : w.log.batches.map (·.1) = List.range w.seq
  tokens : ∀ entry ∈ w.log.batches, entry.2.dedupToken = w.token entry.1
  framed : ∀ entry ∈ w.log.batches, entry.2.frames = entry.2.chunks.map (·.frame)
  frames : w.acc.frames = w.acc.chunks.map (·.frame)
  merged : Merged w.acc.chunks w.acc.rows w.acc.bytes w.acc.acks
  buffer : w.phase ≠ .absorbing → w.recvBuf = []
  drained : w.phase = .draining ∨ w.phase = .sweeping ∨ w.phase = .returned → w.acc.chunks = []

variable {w' : Worker α} {event : WorkerEvent α} {effects : List Effect} {id seq : Nat}
  {batch : SealedBatch α} {task : Task α} {outcome : Outcome}

theorem Recorded.empty {w : Worker α} (recorded : w.Recorded) (empty : w.acc.isEmpty) :
    w.acc.chunks = [] := by
  have none : w.acc.frames = [] := by simpa [Accumulator.isEmpty] using empty
  rw [recorded.frames] at none
  simpa using none

theorem new_recorded (cfg : WorkerConfig) : (new cfg : Worker α).Recorded :=
  ⟨rfl, rfl, by simp [new], by simp [new], rfl, ⟨rfl, rfl, rfl⟩, fun _ => rfl, fun _ => rfl⟩

theorem Recorded.frame {w : Worker α} (recorded : w.Recorded)
    (received : w'.log.received = w.log.received) (batches : w'.log.batches = w.log.batches)
    (seq : w'.seq = w.seq) (cfg : w'.cfg = w.cfg) (acc : w'.acc = w.acc)
    (recvBuf : w'.recvBuf = w.recvBuf) (buffer : w'.phase ≠ .absorbing → w.recvBuf = [])
    (drained : w'.phase = .draining ∨ w'.phase = .sweeping ∨ w'.phase = .returned →
      w.acc.chunks = []) : w'.Recorded := by
  refine ⟨?_, ?_, ?_, ?_, ?_, ?_, ?_, ?_⟩
  · rw [received, batches, acc, recvBuf]
    exact recorded.received
  · rw [batches, seq]
    exact recorded.numbered
  · unfold token
    rw [batches, cfg]
    exact recorded.tokens
  · rw [batches]
    exact recorded.framed
  · rw [acc]
    exact recorded.frames
  · rw [acc]
    exact recorded.merged
  · rw [recvBuf]
    exact buffer
  · rw [acc]
    exact drained

theorem settle_frame (w : Worker α) (seq : Nat) :
    ∃ ledger resolved, (w.settle seq).1 = { w with ledger, log := { w.log with resolved } } := by
  unfold settle
  split
  · exact ⟨w.ledger, w.log.resolved, rfl⟩
  · exact ⟨_, _, rfl⟩

theorem abandon_frame (w : Worker α) (seq : Nat) (reason : String) :
    ∃ ledger resolved,
      (w.abandon seq reason).1 = { w with ledger, log := { w.log with resolved } } := by
  unfold abandon
  split
  · exact ⟨w.ledger, w.log.resolved, rfl⟩
  · exact ⟨_, _, rfl⟩

private theorem handleJoin_frame (w : Worker α) (id seq : Nat) (outcome : Outcome) :
    ∃ ledger succeeded resolved, (w.handleJoin id seq outcome).1 =
      { w with ledger, log := { w.log with succeeded, resolved } } := by
  cases outcome with
  | written =>
    obtain ⟨ledger, resolved, same⟩ := settle_frame { w with
      ledger := { w.ledger with ids := w.ledger.ids.erase id }
      log := { w.log with succeeded := w.log.succeeded ++ [seq] } } seq
    exact ⟨ledger, _, resolved, same⟩
  | failed reason =>
    obtain ⟨ledger, resolved, same⟩ := abandon_frame
      { w with ledger := { w.ledger with ids := w.ledger.ids.erase id } } seq reason
    exact ⟨ledger, _, resolved, same⟩
  | panicked text =>
    simp only [handleJoin]
    split
    · rename_i found _
      obtain ⟨ledger, resolved, same⟩ := abandon_frame
        { w with ledger := { w.ledger with ids := w.ledger.ids.erase id } } found
        ("the write task panicked: " ++ text)
      exact ⟨ledger, _, resolved, same⟩
    · exact ⟨w.ledger, _, w.log.resolved, rfl⟩

theorem joinTask_frame (w : Worker α) (task : Task α) (outcome : Outcome) :
    ∃ ledger succeeded resolved, (w.joinTask task outcome).1 =
      { w with
        tasks := w.tasks.filter (·.id ≠ task.id), ledger
        log := { w.log with succeeded, resolved } } :=
  handleJoin_frame { w with tasks := w.tasks.filter (·.id ≠ task.id) } task.id task.seq outcome

theorem abandonAll_frame (seqs : List Nat) : ∀ w : Worker α,
    ∃ ledger resolved, (abandonAll seqs w).1 =
      { w with ledger, log := { w.log with resolved } } := by
  induction seqs with
  | nil => exact fun w => ⟨w.ledger, w.log.resolved, rfl⟩
  | cons seq rest ih =>
    intro w
    obtain ⟨ledger, resolved, first⟩ :=
      abandon_frame w seq "the drain deadline passed before the write finished"
    obtain ⟨ledger', resolved', others⟩ := ih
      (w.abandon seq "the drain deadline passed before the write finished").1
    refine ⟨ledger', resolved', ?_⟩
    change (abandonAll rest (w.abandon seq _).1).1 = _
    rw [others, first]

theorem finishSweep_frame (w : Worker α) :
    ∃ ledger resolved, w.finishSweep.1 = { w with
      tasks := w.tasks.filter (·.outcome = none), waiting := [], phase := .returned, queue := []
      ledger, log := { w.log with resolved } } := by
  obtain ⟨ledger, resolved, swept⟩ := abandonAll_frame w.ledger.pending.keys
    { w with tasks := w.tasks.filter (·.outcome = none), waiting := [] }
  refine ⟨{ ledger with ids := ∅ }, resolved, ?_⟩
  simp only [finishSweep, leave, swept]

theorem Recorded.sealed {w : Worker α} (recorded : w.Recorded) (reason : FlushReason)
    (received : w'.log.received = w.log.received)
    (batches : w'.log.batches = (w.sealBatch reason).log.batches) (seq : w'.seq = w.seq + 1)
    (cfg : w'.cfg = w.cfg) (acc : w'.acc = .new) (recvBuf : w'.recvBuf = w.recvBuf)
    (phase : w'.phase = w.phase) : w'.Recorded := by
  refine ⟨?_, ?_, ?_, ?_, ?_, ?_, ?_, ?_⟩
  · rw [received, batches, acc, recvBuf, recorded.received]
    simp [sealBatch, sealedBatch, Accumulator.new]
  · rw [batches, seq, List.range_succ, ← recorded.numbered]
    simp [sealBatch]
  · intro entry member
    unfold token
    rw [cfg]
    rw [batches] at member
    rcases List.mem_append.mp member with before | here
    · exact recorded.tokens entry before
    · obtain rfl := List.mem_singleton.mp here
      rfl
  · rw [batches]
    intro entry member
    rcases List.mem_append.mp member with before | here
    · exact recorded.framed entry before
    · obtain rfl := List.mem_singleton.mp here
      exact recorded.frames
  · rw [acc]
    rfl
  · rw [acc]
    exact ⟨rfl, rfl, rfl⟩
  · rw [phase, recvBuf]
    exact recorded.buffer
  · rw [acc]
    exact fun _ => rfl

theorem Recorded.dispatched {w : Worker α} (recorded : w.Recorded) (dispatched : Dispatched w w') :
    w'.Recorded ∧ w'.acc.chunks = [] := by
  cases dispatched with
  | nothing empty => exact ⟨recorded, recorded.empty empty⟩
  | spawned reason | parked reason =>
    exact ⟨recorded.sealed reason rfl rfl rfl rfl rfl rfl rfl, rfl⟩

theorem Recorded.merge {w : Worker α} {chunk : EncodedChunk α} (recorded : w.Recorded)
    (received : w'.log.received =
      w.log.batches.flatMap (·.2.chunks) ++ w.acc.chunks ++ chunk :: w'.recvBuf)
    (batches : w'.log.batches = w.log.batches) (seq : w'.seq = w.seq) (cfg : w'.cfg = w.cfg)
    (acc : w'.acc = w.acc.push chunk) (buffer : w'.phase ≠ .absorbing → w'.recvBuf = [])
    (early : w'.phase = .absorbing ∨ w'.phase = .receiving) : w'.Recorded := by
  refine ⟨?_, ?_, ?_, ?_, ?_, ?_, buffer, ?_⟩
  · rw [received, batches, acc]
    simp [Accumulator.push]
  · rw [batches, seq]
    exact recorded.numbered
  · unfold token
    rw [batches, cfg]
    exact recorded.tokens
  · rw [batches]
    exact recorded.framed
  · rw [acc]
    simp [Accumulator.push, recorded.frames]
  · rw [acc]
    obtain ⟨rows, bytes, acks⟩ := recorded.merged
    exact ⟨by simp [Accumulator.push, rows], by simp [Accumulator.push, bytes],
      by simp [Accumulator.push, acks]⟩
  · intro late
    rcases early with phase | phase <;> simp [phase] at late

theorem Recorded.merged_or {middle : Worker α} (recorded : middle.Recorded)
    (merged : w' = middle ∨ Dispatched middle w') : w'.Recorded := by
  rcases merged with rfl | dispatched
  · exact recorded
  · exact (recorded.dispatched dispatched).1

theorem move_recorded {w : Worker α} (recorded : w.Recorded) (move : Move w event w' effects) :
    w'.Recorded := by
  cases move with
  | arrive | finish | launch =>
    exact recorded.frame rfl rfl rfl rfl rfl rfl recorded.buffer recorded.drained
  | signal inner same phase =>
    rw [same]
    refine recorded.frame rfl rfl rfl rfl rfl rfl ?_ ?_
    · intro other
      apply recorded.buffer
      rcases phase with phase | ⟨phase, -⟩ | ⟨phase, -⟩
      · exact phase ▸ other
      · simp [phase]
      · simp [phase]
    · intro late
      apply recorded.drained
      rcases phase with phase | ⟨-, phase⟩ | ⟨phase, -⟩
      · exact phase ▸ late
      · simp [phase] at late
      · exact Or.inl phase
  | @join task outcome =>
    obtain ⟨ledger, succeeded, resolved, same⟩ := w.joinTask_frame task outcome
    rw [same]
    exact recorded.frame rfl rfl rfl rfl rfl rfl recorded.buffer recorded.drained
  | receive count intake =>
    have empty : w.recvBuf = [] := recorded.buffer (by simp [intake])
    have received := recorded.received
    rw [empty, List.append_nil] at received
    refine ⟨?_, recorded.numbered, recorded.tokens, recorded.framed, recorded.frames,
      recorded.merged, ?_, ?_⟩
    · rw [received]
    · exact fun other => absurd rfl other
    · rintro (late | late | late) <;> cases late
  | @absorb id chunk rest w' phase head merged =>
    refine Recorded.merged_or ?_ merged
    refine recorded.merge ?_ rfl rfl rfl rfl ?_ (by exact Or.inl phase)
    · rw [recorded.received, head]
    · exact fun other => absurd phase other
  | absorbed phase empty =>
    refine recorded.frame rfl rfl rfl rfl rfl rfl (fun _ => empty) ?_
    rintro (late | late | late) <;> cases late
  | linger live dispatched => exact (recorded.dispatched dispatched).1
  | @tryReceive id chunk rest w' phase head merged =>
    have empty : w.recvBuf = [] := recorded.buffer (by simp [phase])
    refine Recorded.merged_or ?_ merged
    refine recorded.merge ?_ rfl rfl rfl rfl (fun _ => empty) (by exact Or.inr phase)
    rw [recorded.received, empty, List.append_nil]
  | @received id w' phase empty dispatched =>
    obtain ⟨sealed, drained⟩ := recorded.dispatched dispatched
    have buffer : w'.recvBuf = [] := by
      apply sealed.buffer
      simp [dispatched.phase, phase]
    exact sealed.frame rfl rfl rfl rfl rfl rfl (fun _ => buffer) (fun _ => drained)
  | done phase =>
    refine recorded.frame rfl rfl rfl rfl rfl rfl (fun _ => ?_) (fun _ => ?_)
    · exact recorded.buffer (by simp [phase])
    · exact recorded.drained (Or.inl phase)
  | finishSweep phase =>
    obtain ⟨ledger, resolved, same⟩ := w.finishSweep_frame
    rw [same]
    refine recorded.frame rfl rfl rfl rfl rfl rfl (fun _ => ?_) (fun _ => ?_)
    · exact recorded.buffer (by simp [phase])
    · exact recorded.drained (Or.inr (Or.inl phase))

def running (w : Worker α) : Nat := w.tasks.countP (·.outcome = none)

/-- The tasks of the set have distinct ids, and the permits not free are those of
the tasks still running. -/
structure Permitted (w : Worker α) : Prop where
  ids : (w.tasks.map (·.id)).Nodup
  permits : w.permits + w.running = w.cfg.maxPerShard

theorem new_permitted (cfg : WorkerConfig) : (new cfg : Worker α).Permitted :=
  ⟨List.nodup_nil, rfl⟩

theorem freshId_iff {w : Worker α} : w.freshId id = true ↔ id ∉ w.tasks.map (·.id) := by
  simp only [freshId, List.all_eq_true, decide_eq_true_eq, List.mem_map, not_exists, not_and]

theorem Permitted.spawned {w : Worker α} (permitted : w.Permitted) (free : 0 < w.permits)
    (fresh : w.freshId id = true) (tasks : w'.tasks = w.tasks ++ [⟨id, seq, batch, none⟩])
    (permits : w'.permits = w.permits - 1) (cfg : w'.cfg = w.cfg) : w'.Permitted := by
  refine ⟨?_, ?_⟩
  · rw [tasks, List.map_append, List.map_singleton, List.nodup_append]
    refine ⟨permitted.ids, List.nodup_singleton _, ?_⟩
    intro a member b single same
    rw [List.mem_singleton.mp single] at same
    change a = id at same
    exact freshId_iff.mp fresh (same ▸ member)
  · have before := permitted.permits
    have more : w'.running = w.running + 1 := by simp [running, tasks]
    rw [permits, cfg, more]
    omega

theorem Permitted.dispatched {w : Worker α} (permitted : w.Permitted)
    (dispatched : Dispatched w w') : w'.Permitted := by
  cases dispatched with
  | nothing => exact permitted
  | spawned reason id _ _ free fresh => exact permitted.spawned free fresh rfl rfl rfl
  | parked => exact ⟨permitted.ids, permitted.permits⟩

theorem ended_map {β : Type} (w : Worker α) (task : Task α) (outcome : Outcome) (f : Task α → β)
    (same : ∀ other : Task α, f { other with outcome := some outcome } = f other) :
    (w.ended task outcome).tasks.map f = w.tasks.map f := by
  simp only [ended, List.map_map]
  apply List.map_congr_left
  intro other _
  simp only [Function.comp_apply]
  split
  · exact same other
  · rfl

theorem mem_ended {w : Worker α} {other : Task α} (permitted : w.Permitted)
    (present : task ∈ w.tasks) (member : other ∈ (w.ended task outcome).tasks) :
    other = { task with outcome := some outcome } ∨ other ∈ w.tasks := by
  have shuffled := (Lists.map_update_perm permitted.ids present
    (fun other => { other with outcome := some outcome })).mem_iff.mp member
  rcases List.mem_cons.mp shuffled with here | before
  · exact Or.inl here
  · exact Or.inr (List.mem_filter.mp before).1

theorem Permitted.ended {w : Worker α} (permitted : w.Permitted) (present : task ∈ w.tasks)
    (active : task.outcome = none) (outcome : Outcome) : (w.ended task outcome).Permitted := by
  refine ⟨?_, ?_⟩
  · rw [w.ended_map task outcome (·.id) (fun _ => rfl)]
    exact permitted.ids
  · have before := permitted.permits
    have was := (Lists.perm_cons_filter_key permitted.ids present).countP_eq (·.outcome = none)
    have now := (Lists.map_update_perm permitted.ids present
      (fun other => { other with outcome := some outcome })).countP_eq (·.outcome = none)
    simp only [List.countP_cons, active, decide_true, ↓reduceIte, reduceCtorEq, decide_false,
      Bool.false_eq_true] at was now
    have less : (w.ended task outcome).running + 1 = w.running := by
      unfold running Worker.ended
      rw [now, was]
    change w.permits + 1 + (w.ended task outcome).running = w.cfg.maxPerShard
    omega

theorem Permitted.joined {w : Worker α} (permitted : w.Permitted) (present : task ∈ w.tasks)
    (ended : task.outcome = some outcome) (tasks : w'.tasks = w.tasks.filter (·.id ≠ task.id))
    (permits : w'.permits = w.permits) (cfg : w'.cfg = w.cfg) : w'.Permitted := by
  refine ⟨?_, ?_⟩
  · rw [tasks]
    exact (List.filter_sublist.map _).nodup permitted.ids
  · have was := (Lists.perm_cons_filter_key permitted.ids present).countP_eq (·.outcome = none)
    simp only [List.countP_cons, ended, reduceCtorEq, decide_false, Bool.false_eq_true,
      ↓reduceIte, Nat.add_zero] at was
    rw [permits, cfg, ← permitted.permits]
    unfold running
    rw [tasks, was]

theorem move_permitted {w : Worker α} (permitted : w.Permitted) (move : Move w event w' effects) :
    w'.Permitted := by
  cases move with
  | arrive | receive | absorbed | done => exact ⟨permitted.ids, permitted.permits⟩
  | signal inner same =>
    rw [same]
    exact ⟨permitted.ids, permitted.permits⟩
  | finish outcome present active => exact permitted.ended present active outcome
  | @join task outcome live present ended =>
    obtain ⟨ledger, succeeded, resolved, same⟩ := w.joinTask_frame task outcome
    rw [same]
    exact permitted.joined present ended rfl rfl rfl
  | launch live head free fresh => exact permitted.spawned free fresh rfl rfl rfl
  | @absorb id chunk rest w' phase head merged =>
    have middle : { w with recvBuf := rest, acc := w.acc.push chunk }.Permitted :=
      ⟨permitted.ids, permitted.permits⟩
    rcases merged with rfl | dispatched
    · exact middle
    · exact middle.dispatched dispatched
  | linger live dispatched => exact permitted.dispatched dispatched
  | @tryReceive id chunk rest w' phase head merged =>
    have middle : { w with
        queue := rest
        log := { w.log with received := w.log.received ++ [chunk] }
        acc := w.acc.push chunk }.Permitted := ⟨permitted.ids, permitted.permits⟩
    rcases merged with rfl | dispatched
    · exact middle
    · exact middle.dispatched dispatched
  | received phase empty dispatched =>
    have sealed := permitted.dispatched dispatched
    exact ⟨sealed.ids, sealed.permits⟩
  | finishSweep =>
    obtain ⟨ledger, resolved, same⟩ := w.finishSweep_frame
    rw [same]
    refine ⟨(List.filter_sublist.map _).nodup permitted.ids, ?_⟩
    rw [← permitted.permits]
    simp [running, List.countP_filter]

/-- What became of each sealed batch so far. -/
structure Resolving (w : Worker α) : Prop where
  /-- Every sealed batch was resolved or is pending, and only one of the two. -/
  once : (w.log.resolved.map (·.seq) ++ w.ledger.pending.keys).Perm (List.range w.seq)
  pending : ∀ seq p, w.ledger.pending.lookup seq = some p →
    ∃ batch, (seq, batch) ∈ w.log.batches ∧ batch.chunks = p.chunks ∧
      Merged p.chunks p.rows p.bytes p.acks
  resolved : ∀ r ∈ w.log.resolved,
    ∃ batch, (r.seq, batch) ∈ w.log.batches ∧ batch.chunks = r.batch.chunks ∧
      Merged r.batch.chunks r.batch.rows r.batch.bytes r.batch.acks
  reported : ∀ seq ∈ w.log.succeeded, seq ∈ w.log.resolved.map (·.seq)
  verdict : ∀ r ∈ w.log.resolved, r.delivered = true ↔ r.seq ∈ w.log.succeeded
  flushed : w.ledger.report.flushed = w.log.resolved.countP (·.delivered)
  abandoned : w.ledger.report.abandoned = w.log.resolved.countP (!·.delivered)

theorem new_resolving (cfg : WorkerConfig) : (new cfg : Worker α).Resolving :=
  ⟨.nil, by simp [new], by simp [new], by simp [new], by simp [new], rfl, rfl⟩

theorem Resolving.unused {w : Worker α} (resolving : w.Resolving) :
    w.seq ∉ w.ledger.pending.keys := by
  intro member
  have known := resolving.once.mem_iff.mp (List.mem_append_right _ member)
  simp at known

theorem Resolving.unresolved {w : Worker α} (resolving : w.Resolving)
    (member : seq ∈ w.ledger.pending.keys) : seq ∉ w.log.resolved.map (·.seq) := by
  have distinct := resolving.once.nodup_iff.mpr List.nodup_range
  intro earlier
  exact (List.nodup_append.mp distinct).2.2 seq earlier seq member rfl

theorem Resolving.frame {w : Worker α} (resolving : w.Resolving)
    (resolved : w'.log.resolved = w.log.resolved) (succeeded : w'.log.succeeded = w.log.succeeded)
    (batches : w'.log.batches = w.log.batches) (pending : w'.ledger.pending = w.ledger.pending)
    (report : w'.ledger.report = w.ledger.report) (seq : w'.seq = w.seq) : w'.Resolving := by
  obtain ⟨once, known, settled, reported, verdict, flushed, abandoned⟩ := resolving
  refine ⟨?_, ?_, ?_, ?_, ?_, ?_, ?_⟩
  · rwa [resolved, pending, seq]
  · rwa [pending, batches]
  · rwa [resolved, batches]
  · rwa [succeeded, resolved]
  · rwa [resolved, succeeded]
  · rwa [report, resolved]
  · rwa [report, resolved]

theorem Resolving.sealed {w : Worker α} (resolving : w.Resolving) (recorded : w.Recorded)
    (reason : FlushReason) (resolved : w'.log.resolved = w.log.resolved)
    (succeeded : w'.log.succeeded = w.log.succeeded)
    (batches : w'.log.batches = (w.sealBatch reason).log.batches)
    (pending : w'.ledger.pending = (w.sealBatch reason).ledger.pending)
    (report : w'.ledger.report = w.ledger.report) (seq : w'.seq = w.seq + 1) : w'.Resolving := by
  refine ⟨?_, ?_, ?_, ?_, ?_, ?_, ?_⟩
  · rw [resolved, pending, seq, List.range_succ]
    simp only [sealBatch, AList.keys_insert, List.erase_of_not_mem resolving.unused]
    exact List.perm_middle.trans ((List.perm_append_singleton _ _).symm.trans
      (resolving.once.append_right _))
  · intro s p found
    rw [pending] at found
    rw [batches]
    rcases FastMap.lookup_insert_cases found with ⟨rfl, rfl⟩ | ⟨-, before⟩
    · exact ⟨w.sealedBatch, by simp [sealBatch], rfl, recorded.merged⟩
    · obtain ⟨batch, member, same⟩ := resolving.pending s p before
      exact ⟨batch, List.mem_append_left _ member, same⟩
  · intro r member
    rw [resolved] at member
    rw [batches]
    obtain ⟨batch, present, same⟩ := resolving.resolved r member
    exact ⟨batch, List.mem_append_left _ present, same⟩
  · rw [succeeded, resolved]
    exact resolving.reported
  · rw [resolved, succeeded]
    exact resolving.verdict
  · rw [report, resolved]
    exact resolving.flushed
  · rw [report, resolved]
    exact resolving.abandoned

theorem Resolving.dispatched {w : Worker α} (resolving : w.Resolving) (recorded : w.Recorded)
    (dispatched : Dispatched w w') : w'.Resolving := by
  cases dispatched with
  | nothing => exact resolving
  | spawned reason | parked reason => exact resolving.sealed recorded reason rfl rfl rfl rfl rfl rfl

/-- A pending batch is resolved; a success was reported for it if it is delivered. -/
theorem Resolving.resolve {w : Worker α} {p : Pending α} {delivered : Bool}
    (resolving : w.Resolving) (found : w.ledger.pending.lookup seq = some p)
    (resolved : w'.log.resolved = w.log.resolved ++ [⟨seq, delivered, p⟩])
    (succeeded : w'.log.succeeded =
      if delivered then w.log.succeeded ++ [seq] else w.log.succeeded)
    (batches : w'.log.batches = w.log.batches)
    (pending : w'.ledger.pending = w.ledger.pending.erase seq)
    (flushed : w'.ledger.report.flushed = w.ledger.report.flushed + if delivered then 1 else 0)
    (abandoned : w'.ledger.report.abandoned =
      w.ledger.report.abandoned + if delivered then 0 else 1) (same : w'.seq = w.seq) :
    w'.Resolving := by
  have member : seq ∈ w.ledger.pending.keys :=
    AList.mem_keys.mp (AList.lookup_isSome.mp (by rw [found]; rfl))
  have unresolved := resolving.unresolved member
  have unreported : seq ∉ w.log.succeeded := fun early =>
    unresolved (resolving.reported seq early)
  have onlyNew (s : Nat) : s ∈ w'.log.succeeded ↔
      s ∈ w.log.succeeded ∨ (delivered = true ∧ s = seq) := by
    rw [succeeded]
    cases delivered <;> simp
  refine ⟨?_, ?_, ?_, ?_, ?_, ?_, ?_⟩
  · rw [resolved, pending, same, AList.keys_erase]
    have split := (List.perm_cons_erase member).symm.append_left (w.log.resolved.map (·.seq))
    simpa using split.trans resolving.once
  · intro s q present
    rw [pending] at present
    rw [batches]
    by_cases here : s = seq
    · rw [here, AList.lookup_erase] at present
      cases present
    · rw [AList.lookup_erase_ne here] at present
      exact resolving.pending s q present
  · intro r present
    rw [batches]
    rw [resolved] at present
    rcases List.mem_append.mp present with before | here
    · exact resolving.resolved r before
    · obtain rfl := List.mem_singleton.mp here
      exact resolving.pending seq p found
  · intro s reported
    rw [resolved, List.map_append]
    rcases (onlyNew s).mp reported with before | ⟨-, rfl⟩
    · exact List.mem_append_left _ (resolving.reported s before)
    · simp
  · intro r present
    rw [resolved] at present
    rw [onlyNew]
    rcases List.mem_append.mp present with before | here
    · have other : r.seq ≠ seq := fun clash =>
        unresolved (clash ▸ List.mem_map_of_mem before)
      rw [resolving.verdict r before]
      simp [other]
    · obtain rfl := List.mem_singleton.mp here
      simp [unreported]
  · rw [flushed, resolved, resolving.flushed]
    simp [List.countP_append, List.countP_cons]
  · rw [abandoned, resolved, resolving.abandoned]
    cases delivered <;> simp [List.countP_append]

theorem abandon_resolving {w : Worker α} (resolving : w.Resolving) (seq : Nat)
    (reason : String) : (w.abandon seq reason).1.Resolving := by
  unfold abandon
  split
  · exact resolving
  · rename_i p found
    exact resolving.resolve found rfl rfl rfl rfl rfl rfl rfl

theorem abandonAll_resolving (seqs : List Nat) :
    ∀ w : Worker α, w.Resolving → (abandonAll seqs w).1.Resolving := by
  induction seqs with
  | nil => exact fun w resolving => resolving
  | cons seq rest ih => exact fun w resolving => ih _ (abandon_resolving resolving seq _)

theorem abandon_lookup (w : Worker α) (seq : Nat) (reason : String) (s : Nat) :
    (w.abandon seq reason).1.ledger.pending.lookup s =
      if s = seq then none else w.ledger.pending.lookup s := by
  unfold abandon
  split
  · rename_i missing
    split
    · rename_i same
      rw [same, missing]
    · rfl
  · split
    · rename_i same
      subst same
      exact AList.lookup_erase _ _
    · rename_i apart
      exact AList.lookup_erase_ne apart

theorem abandonAll_lookup (seqs : List Nat) : ∀ (w : Worker α) (s : Nat),
    (abandonAll seqs w).1.ledger.pending.lookup s =
      if s ∈ seqs then none else w.ledger.pending.lookup s := by
  induction seqs with
  | nil => exact fun w s => rfl
  | cons seq rest ih =>
    intro w s
    change (abandonAll rest (w.abandon seq _).1).1.ledger.pending.lookup s = _
    rw [ih, abandon_lookup]
    by_cases here : s = seq
    · simp [here]
    · simp [here]

theorem finishSweep_pending (w : Worker α) : w.finishSweep.1.ledger.pending.keys = [] := by
  apply List.eq_nil_iff_forall_not_mem.mpr
  intro s member
  have present := AList.lookup_isSome.mpr (AList.mem_keys.mpr member)
  have gone : w.finishSweep.1.ledger.pending.lookup s =
      (abandonAll w.ledger.pending.keys
        { w with
          tasks := w.tasks.filter (·.outcome = none)
          waiting := [] }).1.ledger.pending.lookup s := rfl
  rw [gone, abandonAll_lookup] at present
  split at present
  · cases present
  · rename_i absent
    exact absent (AList.mem_keys.mp (AList.lookup_isSome.mp present))

theorem finishSweep_resolving {w : Worker α} (resolving : w.Resolving) :
    w.finishSweep.1.Resolving := by
  have swept := abandonAll_resolving w.ledger.pending.keys
    { w with tasks := w.tasks.filter (·.outcome = none), waiting := [] }
    (resolving.frame rfl rfl rfl rfl rfl rfl)
  exact swept.frame rfl rfl rfl rfl rfl rfl

/-- While the loop runs, the pending batches are those that wait and those whose
task is in the set, which `ids` leads back to; permits were taken in seal order. -/
structure Owned (w : Worker α) : Prop where
  known : ∀ task ∈ w.tasks, w.ledger.ids.lookup task.id = some task.seq
  held : (w.tasks.map (·.seq) ++ w.waiting.map (·.1)).Perm w.ledger.pending.keys
  order : w.log.launched ++ w.waiting.map (·.1) = List.range w.seq

theorem new_owned (cfg : WorkerConfig) : (new cfg : Worker α).Owned :=
  ⟨by simp [new], .nil, rfl⟩

theorem Owned.frame {w : Worker α} (owned : w.Owned) (tasks : w'.tasks = w.tasks)
    (waiting : w'.waiting = w.waiting) (ledger : w'.ledger = w.ledger)
    (launched : w'.log.launched = w.log.launched) (seq : w'.seq = w.seq) : w'.Owned := by
  obtain ⟨known, held, order⟩ := owned
  refine ⟨?_, ?_, ?_⟩
  · rwa [tasks, ledger]
  · rwa [tasks, waiting, ledger]
  · rwa [launched, waiting, seq]

theorem Owned.spawned {w : Worker α} (owned : w.Owned) (fresh : w.freshId id = true)
    (tasks : w'.tasks = w.tasks ++ [⟨id, seq, batch, none⟩])
    (ids : w'.ledger.ids = w.ledger.ids.insert id seq)
    (held : (w.tasks.map (·.seq) ++ seq :: w'.waiting.map (·.1)).Perm w'.ledger.pending.keys)
    (order : w'.log.launched ++ w'.waiting.map (·.1) = List.range w'.seq) : w'.Owned := by
  refine ⟨?_, ?_, order⟩
  · intro task member
    rw [ids]
    rw [tasks] at member
    rcases List.mem_append.mp member with before | here
    · have apart : task.id ≠ id := fun same =>
        freshId_iff.mp fresh (same ▸ List.mem_map_of_mem before)
      rw [AList.lookup_insert_ne apart]
      exact owned.known task before
    · obtain rfl := List.mem_singleton.mp here
      exact AList.lookup_insert _
  · rw [tasks]
    simpa using held

theorem Owned.dispatched {w : Worker α} (owned : w.Owned) (resolving : w.Resolving)
    (dispatched : Dispatched w w') : w'.Owned := by
  have keys (reason : FlushReason) : (w.sealBatch reason).ledger.pending.keys =
      w.seq :: w.ledger.pending.keys := by
    simp only [sealBatch, AList.keys_insert, List.erase_of_not_mem resolving.unused]
  have ordered := owned.order
  cases dispatched with
  | nothing => exact owned
  | spawned reason id nonempty first free fresh =>
    have held := owned.held
    rw [first] at ordered held
    apply owned.spawned fresh rfl rfl
    · change (w.tasks.map (·.seq) ++ w.seq :: w.waiting.map (·.1)).Perm
        (w.sealBatch reason).ledger.pending.keys
      rw [keys, first]
      exact List.perm_middle.trans (held.cons _)
    · change w.log.launched ++ [w.seq] ++ w.waiting.map (·.1) = List.range (w.seq + 1)
      rw [first, List.range_succ, ← ordered]
      simp
  | parked reason nonempty =>
    refine ⟨owned.known, ?_, ?_⟩
    · change (w.tasks.map (·.seq) ++ (w.waiting ++ [(w.seq, w.sealedBatch)]).map (·.1)).Perm
        (w.sealBatch reason).ledger.pending.keys
      rw [keys, List.map_append, ← List.append_assoc]
      exact (List.perm_append_singleton _ _).trans (owned.held.cons _)
    · change w.log.launched ++ (w.waiting ++ [(w.seq, w.sealedBatch)]).map (·.1) =
        List.range (w.seq + 1)
      rw [List.range_succ, ← ordered]
      simp

def joined (w : Worker α) (task : Task α) (success : Bool) (p : Pending α) : Worker α :=
  { w with
    tasks := w.tasks.filter (·.id ≠ task.id)
    ledger := {
      pending := w.ledger.pending.erase task.seq
      ids := w.ledger.ids.erase task.id
      report := {
        flushed := w.ledger.report.flushed + if success then 1 else 0
        abandoned := w.ledger.report.abandoned + if success then 0 else 1 } }
    log := { w.log with
      succeeded := if success then w.log.succeeded ++ [task.seq] else w.log.succeeded
      resolved := w.log.resolved ++ [⟨task.seq, success, p⟩] } }

/-- The result of a task in the set resolves the batch it wrote, which is pending. -/
theorem joinTask_eq {w : Worker α} (owned : w.Owned) (present : task ∈ w.tasks)
    (outcome : Outcome) :
    ∃ p reason, w.ledger.pending.lookup task.seq = some p ∧
      w.joinTask task outcome =
        (w.joined task (outcome = .written) p,
          if outcome = .written then [.release p.bytes, .deliver p.acks]
          else [.failure reason, .discard p.acks, .release p.bytes]) := by
  have member : task.seq ∈ w.ledger.pending.keys :=
    owned.held.mem_iff.mp (List.mem_append_left _ (List.mem_map_of_mem present))
  obtain ⟨p, found⟩ := Option.isSome_iff_exists.mp
    (AList.lookup_isSome.mpr (AList.mem_keys.mpr member))
  cases outcome with
  | written =>
    refine ⟨p, "", found, ?_⟩
    simp only [joinTask, handleJoin, settle, found, resolve, joined, decide_true, ↓reduceIte,
      Nat.add_zero]
  | failed reason =>
    refine ⟨p, reason, found, ?_⟩
    simp [joinTask, handleJoin, abandon, found, resolve, joined]
  | panicked text =>
    refine ⟨p, "the write task panicked: " ++ text, found, ?_⟩
    simp [joinTask, handleJoin, abandon, found, resolve, joined, owned.known task present]

theorem Owned.joined {w : Worker α} (owned : w.Owned) (permitted : w.Permitted)
    (present : task ∈ w.tasks) (success : Bool) (p : Pending α) :
    (w.joined task success p).Owned := by
  refine ⟨?_, ?_, owned.order⟩
  · intro other member
    obtain ⟨before, differs⟩ := List.mem_filter.mp member
    have apart : other.id ≠ task.id := by simpa using differs
    change (w.ledger.ids.erase task.id).lookup other.id = some other.seq
    rw [AList.lookup_erase_ne apart]
    exact owned.known other before
  · have split := (Lists.perm_cons_filter_key permitted.ids present).map (·.seq)
    have all := (split.append_right (w.waiting.map (·.1))).symm.trans owned.held
    have member : task.seq ∈ w.ledger.pending.keys :=
      owned.held.mem_iff.mp (List.mem_append_left _ (List.mem_map_of_mem present))
    change ((w.tasks.filter (·.id ≠ task.id)).map (·.seq) ++ w.waiting.map (·.1)).Perm
      (w.ledger.pending.erase task.seq).keys
    rw [AList.keys_erase]
    exact (all.trans (List.perm_cons_erase member)).cons_inv

/-- What is written are sealed batches, and a reported success is of one whose
write returned `Ok`. -/
structure Writing (w : Worker α) : Prop where
  tasks : ∀ task ∈ w.tasks, (task.seq, task.batch) ∈ w.log.batches
  waiting : w.waiting ⊆ w.log.batches
  ended : ∀ task ∈ w.tasks, task.outcome = some .written →
    (task.seq, task.batch) ∈ w.log.written
  written : w.log.written ⊆ w.log.batches
  success : ∀ seq ∈ w.log.succeeded, ∃ batch, (seq, batch) ∈ w.log.written

theorem new_writing (cfg : WorkerConfig) : (new cfg : Worker α).Writing :=
  ⟨by simp [new], by simp [new], by simp [new], by simp [new], by simp [new]⟩

theorem Writing.frame {w : Worker α} (writing : w.Writing) (tasks : w'.tasks ⊆ w.tasks)
    (waiting : w'.waiting ⊆ w.waiting) (batches : w.log.batches ⊆ w'.log.batches)
    (written : w'.log.written = w.log.written) (succeeded : w'.log.succeeded = w.log.succeeded) :
    w'.Writing := by
  refine ⟨?_, ?_, ?_, ?_, ?_⟩
  · exact fun task member => batches (writing.tasks task (tasks member))
  · exact fun entry member => batches (writing.waiting (waiting member))
  · rw [written]
    exact fun task member => writing.ended task (tasks member)
  · rw [written]
    exact fun entry member => batches (writing.written member)
  · rw [written, succeeded]
    exact writing.success

theorem Writing.spawned {w : Worker α} (writing : w.Writing)
    (tasks : w'.tasks = w.tasks ++ [⟨id, seq, batch, none⟩]) (waiting : w'.waiting ⊆ w.waiting)
    (batches : w.log.batches ⊆ w'.log.batches) (known : (seq, batch) ∈ w'.log.batches)
    (written : w'.log.written = w.log.written) (succeeded : w'.log.succeeded = w.log.succeeded) :
    w'.Writing := by
  refine ⟨?_, ?_, ?_, ?_, ?_⟩
  · intro task member
    rw [tasks] at member
    rcases List.mem_append.mp member with before | here
    · exact batches (writing.tasks task before)
    · obtain rfl := List.mem_singleton.mp here
      exact known
  · exact fun entry member => batches (writing.waiting (waiting member))
  · intro task member ended
    rw [written]
    rw [tasks] at member
    rcases List.mem_append.mp member with before | here
    · exact writing.ended task before ended
    · obtain rfl := List.mem_singleton.mp here
      cases ended
  · rw [written]
    exact fun entry member => batches (writing.written member)
  · rw [written, succeeded]
    exact writing.success

theorem Writing.dispatched {w : Worker α} (writing : w.Writing) (dispatched : Dispatched w w') :
    w'.Writing := by
  cases dispatched with
  | nothing => exact writing
  | spawned reason id =>
    refine writing.spawned rfl ?_ ?_ ?_ ?_ ?_
    · exact List.Subset.refl _
    · exact List.subset_append_left _ _
    · exact List.mem_append_right _ (List.mem_singleton.mpr rfl)
    · rfl
    · rfl
  | parked reason =>
    have sealed : (w.sealBatch reason).Writing :=
      writing.frame (List.Subset.refl _) (List.Subset.refl _) (List.subset_append_left _ _)
        rfl rfl
    refine ⟨sealed.tasks, ?_, sealed.ended, sealed.written, sealed.success⟩
    intro entry member
    rcases List.mem_append.mp member with before | here
    · exact sealed.waiting before
    · exact List.mem_append_right _ here

theorem Writing.ending {w : Worker α} (writing : w.Writing) (permitted : w.Permitted)
    (present : task ∈ w.tasks) (outcome : Outcome) : (w.ended task outcome).Writing := by
  have grown : w.log.written ⊆ (w.ended task outcome).log.written := by
    simp only [Worker.ended]
    split
    · exact List.subset_append_left _ _
    · exact List.Subset.refl _
  refine ⟨?_, writing.waiting, ?_, ?_, ?_⟩
  · intro other member
    rcases mem_ended permitted present member with rfl | before
    · exact writing.tasks task present
    · exact writing.tasks other before
  · intro other member ended
    rcases mem_ended permitted present member with rfl | before
    · obtain rfl := Option.some.inj ended
      simp [Worker.ended]
    · exact grown (writing.ended other before ended)
  · intro entry member
    simp only [Worker.ended] at member
    split at member
    · rcases List.mem_append.mp member with before | here
      · exact writing.written before
      · obtain rfl := List.mem_singleton.mp here
        exact writing.tasks task present
    · exact writing.written member
  · intro seq reported
    obtain ⟨batch, member⟩ := writing.success seq reported
    exact ⟨batch, grown member⟩

theorem Writing.joined {w : Worker α} (writing : w.Writing) (present : task ∈ w.tasks)
    (ended : task.outcome = some outcome) (p : Pending α) :
    (w.joined task (outcome = .written) p).Writing := by
  have fewer : w.tasks.filter (·.id ≠ task.id) ⊆ w.tasks := List.filter_subset_self _
  refine ⟨fun other member => writing.tasks other (fewer member), writing.waiting,
    fun other member => writing.ended other (fewer member), writing.written, ?_⟩
  intro seq reported
  by_cases written : outcome = .written
  · simp only [Worker.joined, written, decide_true, ↓reduceIte, List.mem_append,
      List.mem_singleton] at reported
    rcases reported with before | rfl
    · exact writing.success seq before
    · exact ⟨task.batch, writing.ended task present (written ▸ ended)⟩
  · simp only [Worker.joined, written, decide_false, Bool.false_eq_true, ↓reduceIte]
      at reported
    exact writing.success seq reported

structure Sound (w : Worker α) : Prop where
  recorded : w.Recorded
  permitted : w.Permitted
  resolving : w.Resolving
  writing : w.Writing
  owned : w.phase.live → w.Owned
  launched : w.log.launched <+: List.range w.seq
  closed : w.phase = .returned → w.ledger.pending.keys = []

theorem new_sound (cfg : WorkerConfig) : (new cfg : Worker α).Sound :=
  ⟨new_recorded cfg, new_permitted cfg, new_resolving cfg, new_writing cfg,
    fun _ => new_owned cfg, List.prefix_rfl, fun phase => by cases phase⟩

/-- A live worker's batches took permits in seal order. -/
theorem Owned.launched {w : Worker α} (owned : w.Owned) :
    w.log.launched <+: List.range w.seq :=
  ⟨w.waiting.map (·.1), owned.order⟩

theorem Owned.ended {w : Worker α} (owned : w.Owned) (outcome : Outcome) :
    (w.ended task outcome).Owned := by
  refine ⟨?_, ?_, owned.order⟩
  · intro other member
    obtain ⟨before, present, rfl⟩ := List.mem_map.mp member
    have known := owned.known before present
    by_cases here : before.id = task.id
    · rw [if_pos here]
      exact known
    · rw [if_neg here]
      exact known
  · rw [w.ended_map task outcome (·.seq) (fun _ => rfl)]
    exact owned.held

theorem Sound.dispatched {w : Worker α} (sound : w.Sound) (live : w.phase.live)
    (dispatched : Dispatched w w') : w'.Sound := by
  have same := dispatched.phase
  have owned := (sound.owned live).dispatched sound.resolving dispatched
  refine ⟨(sound.recorded.dispatched dispatched).1, sound.permitted.dispatched dispatched,
    sound.resolving.dispatched sound.recorded dispatched, sound.writing.dispatched dispatched,
    fun _ => owned, owned.launched, ?_⟩
  intro returned
  rw [same] at returned
  rw [returned] at live
  cases live

/-- Nothing but the intake side and the queue changed, and the loop still runs. -/
theorem Sound.taken {w : Worker α} (sound : w.Sound) (live : w.phase.live)
    (recorded : w'.Recorded) (phase : w'.phase.live) (tasks : w'.tasks = w.tasks)
    (permits : w'.permits = w.permits) (cfg : w'.cfg = w.cfg) (waiting : w'.waiting = w.waiting)
    (ledger : w'.ledger = w.ledger) (seq : w'.seq = w.seq)
    (log : w'.log = { w.log with received := w'.log.received }) : w'.Sound := by
  have owned : w'.Owned := (sound.owned live).frame tasks waiting ledger (by rw [log]) seq
  refine ⟨recorded, ⟨?_, ?_⟩, ?_, ?_, fun _ => owned, owned.launched, ?_⟩
  · rw [tasks]
    exact sound.permitted.ids
  · unfold running
    rw [tasks, permits, cfg]
    exact sound.permitted.permits
  · exact sound.resolving.frame (by rw [log]) (by rw [log]) (by rw [log]) (by rw [ledger])
      (by rw [ledger]) seq
  · apply sound.writing.frame
    · rw [tasks]
      exact List.Subset.refl _
    · rw [waiting]
      exact List.Subset.refl _
    · rw [log]
      exact List.Subset.refl _
    · rw [log]
    · rw [log]
  · intro returned
    rw [returned] at phase
    cases phase

theorem move_sound {w : Worker α} (sound : w.Sound) (move : Move w event w' effects) :
    w'.Sound := by
  have recorded := move_recorded sound.recorded move
  have permitted := move_permitted sound.permitted move
  cases move with
  | arrive chunk live => exact sound.taken live recorded live rfl rfl rfl rfl rfl rfl rfl
  | @signal event w' inner same phase =>
    have kept : w'.phase.live → w.phase.live := by
      rcases phase with phase | ⟨phase, -⟩ | ⟨phase, -⟩
      · exact fun live => phase ▸ live
      · exact fun _ => by rw [phase]; rfl
      · exact fun _ => by rw [phase]; rfl
    refine ⟨recorded, permitted, ?_, ?_, ?_, ?_, ?_⟩
    · rw [same]
      exact sound.resolving.frame rfl rfl rfl rfl rfl rfl
    · rw [same]
      exact sound.writing.frame (List.Subset.refl _) (List.Subset.refl _)
        (List.Subset.refl _) rfl rfl
    · intro live
      have owned := sound.owned (kept live)
      rw [same]
      exact owned.frame rfl rfl rfl rfl rfl
    · rw [same]
      exact sound.launched
    · intro returned
      have was : w.phase = .returned := by
        rcases phase with phase | ⟨-, phase⟩ | ⟨-, phase⟩
        · rw [← phase, returned]
        · simp [phase] at returned
        · simp [phase] at returned
      rw [same]
      exact sound.closed was
  | @finish task outcome present active =>
    refine ⟨recorded, permitted, sound.resolving.frame rfl rfl rfl rfl rfl rfl,
      sound.writing.ending sound.permitted present outcome, ?_, sound.launched, sound.closed⟩
    exact fun live => (sound.owned live).ended outcome
  | @join task outcome live present ended =>
    obtain ⟨p, reason, found, result⟩ := joinTask_eq (sound.owned live) present outcome
    rw [result] at recorded permitted ⊢
    have owned := (sound.owned live).joined sound.permitted present (outcome = .written) p
    refine ⟨recorded, permitted, sound.resolving.resolve found rfl rfl rfl rfl rfl rfl rfl,
      sound.writing.joined present ended p, fun _ => owned, owned.launched, ?_⟩
    intro returned
    change w.phase = .returned at returned
    rw [returned] at live
    cases live
  | @launch seq id batch rest live head free fresh =>
    have owned : ({ w with waiting := rest }.spawnWrite id seq batch).Owned := by
      have held := (sound.owned live).held
      have order := (sound.owned live).order
      rw [head] at held order
      refine (sound.owned live).spawned fresh rfl rfl held ?_
      change w.log.launched ++ [seq] ++ rest.map (·.1) = List.range w.seq
      simpa using order
    refine ⟨recorded, permitted, sound.resolving.frame rfl rfl rfl rfl rfl rfl, ?_,
      fun _ => owned, owned.launched, sound.closed⟩
    refine sound.writing.spawned rfl ?_ (List.Subset.refl _) ?_ rfl rfl
    · rw [head]
      exact List.subset_cons_self _ _
    · apply sound.writing.waiting
      rw [head]
      exact List.mem_cons_self
  | receive count intake =>
    have live : w.phase.live := by rw [intake]; rfl
    exact sound.taken live recorded rfl rfl rfl rfl rfl rfl rfl rfl
  | @absorb id chunk rest w' phase head merged =>
    have live : w.phase.live := by rw [phase]; rfl
    have taken : Move w (.absorb id) { w with recvBuf := rest, acc := w.acc.push chunk } [] :=
      .absorb phase head (Or.inl rfl)
    have middle := sound.taken live (move_recorded sound.recorded taken) live
      rfl rfl rfl rfl rfl rfl rfl
    rcases merged with rfl | dispatched
    · exact middle
    · exact middle.dispatched live dispatched
  | absorbed phase =>
    have live : w.phase.live := by rw [phase]; rfl
    exact sound.taken live recorded rfl rfl rfl rfl rfl rfl rfl rfl
  | linger live dispatched => exact sound.dispatched live dispatched
  | @tryReceive id chunk rest w' phase head merged =>
    have live : w.phase.live := by rw [phase]; rfl
    have taken : Move w (.tryReceive id) _ [] := .tryReceive phase head (Or.inl rfl)
    have middle := sound.taken live (move_recorded sound.recorded taken) live
      rfl rfl rfl rfl rfl rfl rfl
    rcases merged with rfl | dispatched
    · exact middle
    · exact middle.dispatched live dispatched
  | @received id w' phase empty dispatched =>
    have live : w.phase.live := by rw [phase]; rfl
    have sealed := sound.dispatched live dispatched
    exact sealed.taken (by rw [dispatched.phase, phase]; rfl) recorded rfl rfl rfl rfl rfl rfl rfl
      rfl
  | done phase joined launched =>
    have live : w.phase.live := by rw [phase]; rfl
    have held := (sound.owned live).held
    rw [joined, launched] at held
    refine ⟨recorded, permitted, sound.resolving.frame rfl rfl rfl rfl rfl rfl,
      sound.writing.frame (List.Subset.refl _) (List.Subset.refl _) (List.Subset.refl _)
        rfl rfl, ?_, sound.launched, fun _ => held.symm.eq_nil⟩
    intro live
    cases live
  | finishSweep phase =>
    have resolving := finishSweep_resolving sound.resolving
    have pending := w.finishSweep_pending
    obtain ⟨ledger, resolved, same⟩ := w.finishSweep_frame
    rw [same] at recorded permitted resolving pending ⊢
    refine ⟨recorded, permitted, resolving, ?_, ?_, sound.launched, fun _ => pending⟩
    · exact sound.writing.frame (List.filter_subset_self _) (List.nil_subset _)
        (List.Subset.refl _) rfl rfl
    · intro live
      cases live

end Worker

/-- What a step does to shared memory: it resolves the batches `fresh` and drops
the queued chunks `dropped`. -/
structure Accounts (effects : List Effect) (fresh : List (Resolution α))
    (dropped : List (EncodedChunk α)) : Prop where
  deliveries : deliveries effects = (fresh.filter (·.delivered)).map (·.batch.acks)
  discards : discards effects =
    (fresh.filter (!·.delivered)).map (·.batch.acks) ++ dropped.map (·.acks)
  releases : releases effects = fresh.map (·.batch.bytes)

theorem accounts_nil : Accounts [] ([] : List (Resolution α)) [] := ⟨rfl, rfl, rfl⟩

theorem Accounts.append {first second : List Effect} {fresh more : List (Resolution α)}
    {dropped : List (EncodedChunk α)} (left : Accounts first fresh [])
    (right : Accounts second more dropped) :
    Accounts (first ++ second) (fresh ++ more) dropped := by
  obtain ⟨delivered, discarded, released⟩ := left
  obtain ⟨delivered', discarded', released'⟩ := right
  refine ⟨?_, ?_, ?_⟩
  · simp only [Sink.deliveries, List.filterMap_append, List.filter_append,
      List.map_append] at delivered delivered' ⊢
    rw [delivered, delivered']
  · simp only [Sink.discards, List.filterMap_append, List.filter_append, List.map_append,
      List.map_nil, List.append_nil, List.append_assoc] at discarded discarded' ⊢
    rw [discarded, discarded']
  · simp only [Sink.releases, List.filterMap_append, List.map_append] at released released' ⊢
    rw [released, released']

theorem accounts_dropped (chunks : List (EncodedChunk α)) :
    Accounts (chunks.map fun chunk => .discard chunk.acks) ([] : List (Resolution α)) chunks := by
  induction chunks with
  | nil => exact accounts_nil
  | cons chunk rest ih =>
    obtain ⟨delivered, discarded, released⟩ := ih
    exact ⟨delivered, congrArg (chunk.acks :: ·) discarded, released⟩

def WorkerEvent.arrivals : WorkerEvent α → List (EncodedChunk α)
  | .arrive chunk => [chunk]
  | _ => []

namespace Worker

variable {event : WorkerEvent α} {effects : List Effect}

theorem abandon_accounts (w : Worker α) (seq : Nat) (reason : String) :
    ∃ fresh, (w.abandon seq reason).1.log.resolved = w.log.resolved ++ fresh ∧
      Accounts (w.abandon seq reason).2 fresh [] := by
  unfold abandon
  split
  · exact ⟨[], by simp, accounts_nil⟩
  · rename_i p found
    exact ⟨[⟨seq, false, p⟩], rfl, rfl, rfl, rfl⟩

theorem abandonAll_accounts (seqs : List Nat) : ∀ w : Worker α,
    ∃ fresh, (abandonAll seqs w).1.log.resolved = w.log.resolved ++ fresh ∧
      Accounts (abandonAll seqs w).2 fresh [] := by
  induction seqs with
  | nil => exact fun w => ⟨[], by simp [abandonAll], accounts_nil⟩
  | cons seq rest ih =>
    intro w
    obtain ⟨first, grown, accounts⟩ :=
      w.abandon_accounts seq "the drain deadline passed before the write finished"
    obtain ⟨others, grown', accounts'⟩ := ih
      (w.abandon seq "the drain deadline passed before the write finished").1
    refine ⟨first ++ others, ?_, accounts.append accounts'⟩
    change (abandonAll rest (w.abandon seq _).1).1.log.resolved = _
    rw [grown', grown, List.append_assoc]

theorem arrivals_eq_nil (inner : ∀ chunk, event ≠ .arrive chunk) : event.arrivals = [] := by
  cases event with
  | arrive chunk => exact absurd rfl (inner chunk)
  | _ => rfl

/-- The effects of an event are those of the batches it resolved, and of the
chunks still queued when `run` returns. Chunks enter the queue only by arriving and
leave it by being received or dropped. -/
theorem move_accounts {w w' : Worker α} (sound : w.Sound) (move : Move w event w' effects) :
    ∃ fresh dropped, w'.log.resolved = w.log.resolved ++ fresh ∧
      Accounts effects fresh dropped ∧
      (w.queue ++ w.log.received ++ event.arrivals).Perm
        (w'.queue ++ w'.log.received ++ dropped) ∧
      (dropped = [] ∨ (dropped = w.queue ∧ w'.phase = .returned)) := by
  have quiet (same : w'.log.resolved = w.log.resolved) (silent : effects = [])
      (intake : (w.queue ++ w.log.received ++ event.arrivals).Perm
        (w'.queue ++ w'.log.received)) :
      ∃ fresh dropped, w'.log.resolved = w.log.resolved ++ fresh ∧
        Accounts effects fresh dropped ∧
        (w.queue ++ w.log.received ++ event.arrivals).Perm
          (w'.queue ++ w'.log.received ++ dropped) ∧
        (dropped = [] ∨ (dropped = w.queue ∧ w'.phase = .returned)) :=
    ⟨[], [], by simp [same], silent ▸ accounts_nil, by simpa using intake, Or.inl rfl⟩
  -- events that leave the queue and the record of what was received alone
  have still : event.arrivals = [] → w'.queue = w.queue → w'.log.received = w.log.received →
      (w.queue ++ w.log.received ++ event.arrivals).Perm (w'.queue ++ w'.log.received) := by
    intro none queue received
    rw [none, queue, received, List.append_nil]
  cases move with
  | arrive chunk =>
    apply quiet rfl rfl
    simp only [WorkerEvent.arrivals, List.append_assoc]
    exact List.Perm.append_left _ List.perm_append_comm
  | finish | launch | absorbed => exact quiet rfl rfl (still rfl rfl rfl)
  | signal inner same =>
    exact quiet (by rw [same]) rfl (still (arrivals_eq_nil inner) (by rw [same]) (by rw [same]))
  | receive count =>
    apply quiet rfl rfl
    have parts := List.take_append_drop count w.queue
    change (w.queue ++ w.log.received ++ []).Perm
      (w.queue.drop count ++ (w.log.received ++ w.queue.take count))
    rw [List.append_nil, ← List.append_assoc]
    refine List.Perm.trans ?_ List.perm_append_comm
    rw [← List.append_assoc, parts]
  | @join task outcome live present ended =>
    obtain ⟨p, reason, found, result⟩ := joinTask_eq (sound.owned live) present outcome
    rw [result]
    refine ⟨[⟨task.seq, decide (outcome = .written), p⟩], [], rfl, ?_, ?_, Or.inl rfl⟩
    swap
    · simp [joined, WorkerEvent.arrivals]
    by_cases written : outcome = .written
    · simp only [written, ↓reduceIte, decide_true]
      exact ⟨rfl, rfl, rfl⟩
    · simp only [written, ↓reduceIte, decide_false]
      exact ⟨rfl, rfl, rfl⟩
  | absorb phase head merged =>
    rcases merged with rfl | sealed
    · exact quiet rfl rfl (still rfl rfl rfl)
    · exact quiet sealed.resolved rfl (still rfl sealed.queue sealed.received)
  | linger live sealed =>
    exact quiet sealed.resolved rfl (still rfl sealed.queue sealed.received)
  | @tryReceive id chunk rest w' phase head merged =>
    have intake : (w.queue ++ w.log.received ++ []).Perm
        (rest ++ (w.log.received ++ [chunk])) := by
      rw [head, List.append_nil, ← List.append_assoc]
      exact (List.perm_append_singleton _ _).symm
    rcases merged with rfl | sealed
    · exact quiet rfl rfl intake
    · exact quiet sealed.resolved rfl (by rw [sealed.queue, sealed.received]; exact intake)
  | received phase empty sealed =>
    exact quiet sealed.resolved rfl (still rfl sealed.queue sealed.received)
  | done =>
    refine ⟨[], w.queue, by simp [leave], accounts_dropped w.queue, ?_, Or.inr ⟨rfl, rfl⟩⟩
    simpa [leave, WorkerEvent.arrivals] using List.perm_append_comm
  | finishSweep =>
    obtain ⟨fresh, grown, accounts⟩ := abandonAll_accounts w.ledger.pending.keys
      { w with tasks := w.tasks.filter (·.outcome = none), waiting := [] }
    have queue : (abandonAll w.ledger.pending.keys
        { w with tasks := w.tasks.filter (·.outcome = none), waiting := [] }).1.queue =
        w.queue := by
      obtain ⟨ledger, resolved, same⟩ := abandonAll_frame w.ledger.pending.keys
        { w with tasks := w.tasks.filter (·.outcome = none), waiting := [] }
      rw [same]
    refine ⟨fresh, w.queue, grown, ?_, ?_, Or.inr ⟨rfl, rfl⟩⟩
    swap
    · obtain ⟨ledger, resolved, same⟩ := w.finishSweep_frame
      rw [same]
      simpa [WorkerEvent.arrivals] using List.perm_append_comm
    have all := accounts.append (accounts_dropped w.queue)
    rw [List.append_nil] at all
    simpa only [finishSweep, leave, queue] using all

/-- A worker with everything it has done to shared memory so far. -/
def next (s : Worker α × List Effect) (event : WorkerEvent α) :
    Option (Worker α × List Effect) :=
  (s.1.step event).map fun (w, effects) => (w, s.2 ++ effects)

abbrev Runs (cfg : WorkerConfig) (events : List (WorkerEvent α)) (w : Worker α)
    (effects : List Effect) : Prop :=
  Transition.Run next (fun _ _ => True) (new cfg, []) events (w, effects)

end Worker

namespace Worker.Sound

variable {w : Worker α}

/-- A worker that returned resolved every batch it sealed. -/
theorem all_resolved (sound : w.Sound) (returned : w.phase = .returned) :
    (w.log.resolved.map (·.seq)).Perm (w.log.batches.map (·.1)) := by
  have once := sound.resolving.once
  rwa [sound.closed returned, List.append_nil, ← sound.recorded.numbered] at once

theorem counted (sound : w.Sound) (returned : w.phase = .returned) :
    w.ledger.report.flushed + w.ledger.report.abandoned = w.log.batches.length := by
  have total := (sound.all_resolved returned).length_eq
  have parts := List.length_eq_countP_add_countP (·.delivered) (l := w.log.resolved)
  simp only [List.length_map] at total
  rw [sound.resolving.flushed, sound.resolving.abandoned, ← total, parts]
  simp

theorem received (sound : w.Sound) (returned : w.phase = .returned) :
    w.log.received = w.log.batches.flatMap (·.2.chunks) := by
  have complete := sound.recorded.received
  rwa [sound.recorded.drained (Or.inr (Or.inr returned)),
    sound.recorded.buffer (by simp [returned]), List.append_nil, List.append_nil] at complete

end Worker.Sound

end Spate.Sink
