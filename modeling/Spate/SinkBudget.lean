import Spate.SinkDelivery

set_option autoImplicit false

/- Conservation of the in-flight byte budget along the sink path. -/
namespace Spate.Sink

variable {α : Type} {E : RowEncoder α} {R : RecordRouter α} {K : FrameCodec}

def bytesOf (chunks : Multiset (EncodedChunk α)) : Nat := (chunks.map (·.rawLen)).sum

@[simp] theorem bytesOf_add (left right : Multiset (EncodedChunk α)) :
    bytesOf (left + right) = bytesOf left + bytesOf right := by
  simp [bytesOf]

theorem bytesOf_coe (chunks : List (EncodedChunk α)) :
    bytesOf (chunks : Multiset (EncodedChunk α)) = (chunks.map (·.rawLen)).sum := rfl

theorem InflightBudget.after_usage (effects : List Effect) : ∀ budget : InflightBudget,
    (budget.after effects).usage = budget.usage - (releases effects).sum := by
  induction effects with
  | nil => exact fun budget => (Nat.sub_zero _).symm
  | cons effect rest ih =>
    intro budget
    cases effect with
    | release bytes =>
      change ((budget.sub bytes).after rest).usage = _
      rw [ih]
      change budget.usage - bytes - _ = budget.usage - (bytes + (releases rest).sum)
      omega
    | deliver acks | discard acks | failure reason => exact ih budget

/-- Every sender of the worker's queue is gone before the worker returns. -/
def Worker.closedAtReturn (w : Worker α) : WorkerEvent α → Bool
  | .done | .finishSweep => !w.sendersLive
  | _ => true

/-- Every sender of the worker's queue is gone before the drain finds it empty. -/
def Worker.closedWhenEmpty (w : Worker α) : WorkerEvent α → Bool
  | .tryReceive _ => w.queue ≠ [] || !w.sendersLive
  | _ => true

/-- No worker is aborted, the budget never exceeds a machine word, and the senders of
each queue are gone in time. -/
def SinkPath.orderly (closed : Worker α → WorkerEvent α → Bool) (s : SinkPath E R K) :
    PathEvent α → Bool
  | .abort _ => false
  | .advance i => s.stages[i]?.all fun stage => s.budget.usage + stage.sealing ≤ usizeMax
  | .worker idx event => s.workers[idx]?.all fun w => closed w event
  | _ => true

namespace Worker

def past (w : Worker α) : Prop := w.phase = .draining ∨ w.phase = .sweeping ∨ w.phase = .returned

/-- Nothing is queued and nothing can arrive once the receive pass is over. -/
structure Settled (w : Worker α) : Prop where
  sound : w.Sound
  running : w.phase ≠ .aborted
  closed : w.past → w.queue = [] ∧ w.sendersLive = false

variable {w w' : Worker α} {event : WorkerEvent α} {effects : List Effect}

theorem new_settled (cfg : WorkerConfig) : (new cfg : Worker α).Settled :=
  ⟨new_sound cfg, nofun, by rintro (late | late | late) <;> cases late⟩

private theorem not_past (early : w.phase = .intake ∨ w.phase = .absorbing ∨ w.phase = .receiving) :
    ¬ w.past := by
  unfold past
  rcases early with phase | phase | phase <;> simp [phase]

theorem Settled.move (settled : w.Settled) (prompt : w.closedWhenEmpty event = true)
    (inner : ∀ chunk, event ≠ .arrive chunk) (move : Move w event w' effects) : w'.Settled := by
  refine ⟨move_sound settled.sound move, move_not_aborted settled.running move, ?_⟩
  have frame (phase : w'.phase = w.phase) (queue : w'.queue = w.queue)
      (senders : w'.sendersLive = w.sendersLive) :
      w'.past → w'.queue = [] ∧ w'.sendersLive = false := by
    intro late
    unfold past at late
    rw [phase] at late
    rw [queue, senders]
    exact settled.closed late
  cases move with
  | arrive chunk => exact absurd rfl (inner chunk)
  | finish | launch => exact frame rfl rfl rfl
  | signal inner same phase senders =>
    intro late
    have before : w.past := by
      rcases phase with stays | ⟨_, receiving⟩ | ⟨draining, _⟩
      · unfold past at late
        rwa [stays] at late
      · exact absurd late (not_past (Or.inr (Or.inr receiving)))
      · exact Or.inl draining
    obtain ⟨empty, gone⟩ := settled.closed before
    refine ⟨by rw [same]; exact empty, ?_⟩
    rw [gone] at senders
    simpa using senders
  | @join task outcome =>
    obtain ⟨ledger, succeeded, resolved, same⟩ := w.joinTask_frame task outcome
    exact frame (by rw [same]) (by rw [same]) (by rw [same])
  | receive count intake => exact fun late => absurd late (not_past (Or.inr (Or.inl rfl)))
  | absorb phase head merged =>
    have stays : w'.phase = .absorbing := by
      rcases merged with rfl | sealed
      · exact phase
      · exact sealed.phase.trans phase
    exact fun late => absurd late (not_past (Or.inr (Or.inl stays)))
  | absorbed phase empty => exact fun late => absurd late (not_past (Or.inl rfl))
  | linger live sealed => exact frame sealed.phase sealed.queue sealed.sendersLive
  | tryReceive phase head merged =>
    have stays : w'.phase = .receiving := by
      rcases merged with rfl | sealed
      · exact phase
      · exact sealed.phase.trans phase
    exact fun late => absurd late (not_past (Or.inr (Or.inr stays)))
  | @received id w' phase empty sealed =>
    intro _
    refine ⟨sealed.queue.trans empty, sealed.sendersLive.trans ?_⟩
    simpa [closedWhenEmpty, empty] using prompt
  | done phase joined launched => exact fun _ => ⟨rfl, (settled.closed (Or.inl phase)).2⟩
  | finishSweep phase =>
    obtain ⟨ledger, resolved, same⟩ := w.finishSweep_frame
    intro _
    rw [same]
    exact ⟨rfl, (settled.closed (Or.inr (Or.inl phase))).2⟩

theorem move_returned (move : Move w event w' effects) (returned : w'.phase = .returned) :
    w.past := by
  cases move with
  | arrive | finish | launch => exact Or.inr (Or.inr returned)
  | signal inner same phase =>
    rcases phase with stays | ⟨_, other⟩ | ⟨_, other⟩
    · exact Or.inr (Or.inr (stays.symm.trans returned))
    · rw [returned] at other
      cases other
    · rw [returned] at other
      cases other
  | @join task outcome =>
    obtain ⟨ledger, succeeded, resolved, same⟩ := w.joinTask_frame task outcome
    rw [same] at returned
    exact Or.inr (Or.inr returned)
  | receive | absorbed | received => cases returned
  | absorb phase head merged | tryReceive phase head merged =>
    rcases merged with rfl | sealed
    · exact Or.inr (Or.inr returned)
    · exact Or.inr (Or.inr (sealed.phase.symm.trans returned))
  | linger live sealed => exact Or.inr (Or.inr (sealed.phase.symm.trans returned))
  | done phase => exact Or.inl phase
  | finishSweep phase => exact Or.inr (Or.inl phase)

theorem Settled.arrive (settled : w.Settled) (live : w.phase.live) (listening : w.sendersLive)
    (chunk : EncodedChunk α) : ({ w with queue := w.queue ++ [chunk] } : Worker α).Settled := by
  refine ⟨move_sound settled.sound (Move.arrive chunk live), settled.running, fun late => ?_⟩
  have gone := (settled.closed late).2
  rw [listening] at gone
  cases gone

/-- What a step releases is what the chunks it gives up were charged. -/
theorem Settled.releases (settled : w.Settled) (inner : ∀ chunk, event ≠ .arrive chunk)
    (move : Move w event w' effects) :
    ∃ gone : Multiset (EncodedChunk α), (w.held : Multiset (EncodedChunk α)) = w'.held + gone ∧
      (releases effects).sum = bytesOf gone := by
  obtain ⟨fresh, dropped, grown, accounts, held, lost⟩ := move_held settled.sound move
  rw [arrivals_eq_nil inner, Multiset.coe_nil, add_zero] at held
  have nothing : dropped = [] := by
    rcases lost with none | ⟨queued, returned⟩
    · exact none
    · rw [queued]
      exact (settled.closed (move_returned move returned)).1
  have merged : ∀ r ∈ fresh, r.batch.bytes = (r.batch.chunks.map (·.rawLen)).sum := by
    have after := (move_sound settled.sound move).resolving.resolved
    rw [grown] at after
    intro r member
    obtain ⟨_, _, _, merged⟩ := after r (List.mem_append_right _ member)
    exact merged.bytes
  rw [nothing, Multiset.coe_nil, add_zero] at held
  refine ⟨_, held, ?_⟩
  rw [accounts.releases, List.map_congr_left merged, bytesOf_coe]
  clear accounts held grown merged
  induction fresh with
  | nil => rfl
  | cons r rest ih => simp [ih]

end Worker

namespace SinkPath

variable {s s' : SinkPath E R K}

/-- The chunks that came to the path and those that left it, with what they did to
the budget. -/
structure Flow (s s' : SinkPath E R K) (sealed gone : Multiset (EncodedChunk α)) : Prop where
  apart : sealed = 0 ∨ gone = 0
  chunks : s.chunks + sealed = s'.chunks + gone
  usage : s'.budget.usage = s.budget.usage + bytesOf sealed - bytesOf gone
  added : s'.log.added = s.log.added + bytesOf sealed
  released : s'.log.released = s.log.released + bytesOf gone

variable {gone : Multiset (EncodedChunk α)} {event : PathEvent α}

theorem Flow.still (chunks : s'.chunks = s.chunks) (budget : s'.budget = s.budget)
    (added : s'.log.added = s.log.added) (released : s'.log.released = s.log.released) :
    s.Flow s' 0 0 :=
  ⟨Or.inl rfl, by rw [chunks], by rw [budget]; rfl, added, released⟩

theorem Flow.yield {effects : List Effect} (chunks : s.chunks = s'.chunks + gone)
    (bytes : (releases effects).sum = bytesOf gone) (budget : s'.budget = s.budget.after effects)
    (added : s'.log.added = s.log.added)
    (released : s'.log.released = s.log.released + (releases effects).sum) : s.Flow s' 0 gone := by
  refine ⟨Or.inl rfl, by rw [add_zero, chunks], ?_, added, by rw [released, bytes]⟩
  rw [budget, InflightBudget.after_usage, bytes]
  rfl

/-- A sealed chunk is charged to the budget, which has room for it. -/
theorem Flow.advance {i : Nat} {stage next : Stage E R K} {sealed : Option (EncodedChunk α)}
    (found : s.stages[i]? = some stage)
    (advances : stage.Advances s.workers next s'.workers sealed)
    (fits : s.budget.usage + sealed.elim 0 (·.rawLen) ≤ usizeMax)
    (stages : s'.stages = s.stages.set i next)
    (budget : s'.budget = sealed.elim s.budget (fun chunk => s.budget.add chunk.rawLen))
    (added : s'.log.added = s.log.added + sealed.elim 0 (·.rawLen))
    (released : s'.log.released = s.log.released) : s.Flow s' (sealed.elim 0 ({·})) 0 := by
  have charged : bytesOf (sealed.elim 0 ({·}) : Multiset (EncodedChunk α)) =
      sealed.elim 0 (·.rawLen) := by
    cases sealed <;> simp [bytesOf]
  refine ⟨Or.inr rfl, ?_, ?_, by rw [added, charged], released⟩
  · rw [add_zero, chunks_advance found stages advances]
  · rw [budget, charged]
    cases sealed with
    | none => rfl
    | some chunk => exact Nat.min_eq_left fits

theorem Flow.dropStage {i : Nat} {stage : Stage E R K} (found : s.stages[i]? = some stage)
    (empty : stage.work.filterMap Work.chunk? = []) :
    s.Flow ({ s with stages := s.stages.set i stage.dropped }.apply stage.dropEffects) 0
      stage.chunks := by
  refine Flow.yield (chunks_dropStage found (by rfl) (by rfl)) ?_ rfl rfl rfl
  rw [stage.sums_dropEffects.releases, bytesOf_coe, Stage.chunks, empty, List.append_nil,
    List.map_map]
  rfl

theorem Flow.worker {idx : Nat} {w next : Worker α} {event : WorkerEvent α}
    {effects : List Effect} (found : s.workers[idx]? = some w) (settled : w.Settled)
    (inner : ∀ chunk, event ≠ .arrive chunk) (move : w.Move event next effects) :
    ∃ gone, s.Flow ({ s with workers := s.workers.set idx next }.apply effects) 0 gone := by
  obtain ⟨gone, held, bytes⟩ := settled.releases inner move
  refine ⟨gone, Flow.yield ?_ bytes rfl rfl rfl⟩
  generalize reached : ({ s with workers := s.workers.set idx next }.apply effects :
    SinkPath E R K) = s'
  have workers : s'.workers = s.workers.set idx next := by
    rw [← reached]
    rfl
  have moved := chunks_setWorker found (by rw [← reached]; rfl) workers
  apply add_right_cancel (b := (next.held : Multiset (EncodedChunk α)))
  rw [← moved, held]
  abel

/-- Along orderly runs the bytes charged are those of the chunks on the path. -/
structure Balanced (s : SinkPath E R K) : Prop where
  usage : s.budget.usage = bytesOf s.chunks
  workers : ∀ w ∈ s.workers, w.Settled
  ledger : s.log.added = s.budget.usage + s.log.released

theorem new_balanced (threads : Nat) (plans : List (StagePlan E R K))
    (workers : List WorkerConfig) : (SinkPath.new threads plans workers).Balanced := by
  refine ⟨?_, ?_, rfl⟩
  · rw [new_chunks]
    rfl
  · intro w member
    obtain ⟨cfg, _, rfl⟩ := List.mem_map.mp member
    exact Worker.new_settled cfg

theorem Balanced.enough (balanced : s.Balanced) {sealed : Multiset (EncodedChunk α)}
    (flow : s.Flow s' sealed gone) : bytesOf gone ≤ s.budget.usage := by
  rcases flow.apart with rfl | rfl
  · have bytes := congrArg bytesOf flow.chunks
    rw [add_zero, bytesOf_add] at bytes
    rw [balanced.usage]
    omega
  · exact Nat.zero_le _

theorem Balanced.flow (balanced : s.Balanced) {sealed : Multiset (EncodedChunk α)}
    (flow : s.Flow s' sealed gone) (workers : ∀ w ∈ s'.workers, w.Settled) : s'.Balanced := by
  have enough := balanced.enough flow
  have bytes := congrArg bytesOf flow.chunks
  rw [bytesOf_add, bytesOf_add] at bytes
  have before := balanced.usage
  have ledger := balanced.ledger
  have after := flow.usage
  have added := flow.added
  have released := flow.released
  exact ⟨by omega, workers, by omega⟩

theorem move_flow (balanced : s.Balanced)
    (permitted : s.orderly Worker.closedWhenEmpty event = true) (move : Move s event s') :
    ∃ sealed gone, s.Flow s' sealed gone := by
  have still (contents : s'.contents = s.contents) (workers : s'.workers = s.workers)
      (budget : s'.budget = s.budget) (added : s'.log.added = s.log.added)
      (released : s'.log.released = s.log.released) : ∃ sealed gone, s.Flow s' sealed gone :=
    ⟨0, 0, Flow.still (chunks_congr contents workers) budget added released⟩
  cases move with
  | issue | payload | filter | raise | swallow | pass | finish | abandon =>
    exact still rfl rfl rfl rfl rfl
  | push found ready inside accepts =>
    exact ⟨0, 0, Flow.still (chunks_push found ready accepts rfl rfl) rfl rfl rfl⟩
  | skip found accepts =>
    exact still (Lists.map_set_same found _ (accepts.content (Or.inl rfl))) rfl rfl rfl rfl
  | fail found inside accepts lost =>
    exact still (Lists.map_set_same found _ (accepts.content (Or.inr lost))) rfl rfl rfl rfl
  | fatal driven => exact still (clearFatals_contents _) rfl rfl rfl rfl
  | takeFatal free => exact still (clearFatals_contents _) rfl rfl rfl rfl
  | unwind driven empty => exact still (unwound_contents empty) rfl rfl rfl rfl
  | call found ready empty =>
    have same := content_work (by rw [ready]; rfl) empty
    exact still (Lists.map_set_same found _ same) rfl rfl rfl rfl
  | @advance i stage next workers sealed found advances charge =>
    have fits : s.budget.usage + stage.sealing ≤ usizeMax := by
      simpa [orderly, found] using permitted
    rw [charge] at fits
    exact ⟨_, _, Flow.advance found advances fits rfl rfl rfl rfl⟩
  | dropStage found free empty => exact ⟨_, _, Flow.dropStage found empty⟩
  | worker found inner taken =>
    have settled := balanced.workers _ (List.mem_of_getElem? found)
    obtain ⟨gone, flow⟩ := Flow.worker found settled inner (Worker.move_of_step taken)
    exact ⟨0, gone, flow⟩
  | abort => cases permitted

theorem move_settled (balanced : s.Balanced)
    (permitted : s.orderly Worker.closedWhenEmpty event = true) (move : Move s event s') :
    ∀ w ∈ s'.workers, w.Settled := by
  cases move with
  | issue | payload | filter | raise | swallow | pass | finish | abandon | push | skip | fail |
    fatal | takeFatal | unwind | call | dropStage => exact balanced.workers
  | advance found advances =>
    intro w member
    rcases advances.queues with same | ⟨target, old, chunk, located, live, listening, same⟩
    · rw [same] at member
      exact balanced.workers w member
    · rw [same] at member
      rcases List.mem_or_eq_of_mem_set member with earlier | rfl
      · exact balanced.workers w earlier
      · exact (balanced.workers old (List.mem_of_getElem? located)).arrive live listening chunk
  | @worker idx w next event effects found inner taken =>
    have prompt : w.closedWhenEmpty event = true := by simpa [orderly, found] using permitted
    have settled := balanced.workers w (List.mem_of_getElem? found)
    intro v member
    rcases List.mem_or_eq_of_mem_set member with earlier | rfl
    · exact balanced.workers v earlier
    · exact settled.move prompt inner (Worker.move_of_step taken)
  | abort => cases permitted

theorem move_balanced (balanced : s.Balanced)
    (permitted : s.orderly Worker.closedWhenEmpty event = true) (move : Move s event s') :
    s'.Balanced := by
  obtain ⟨sealed, gone, flow⟩ := move_flow balanced permitted move
  exact balanced.flow flow (move_settled balanced permitted move)

end SinkPath

/-- If no worker is aborted, the senders of each queue are gone before its worker's
drain finds it empty and sums fit a machine word, the usage is what the chunks on the
path were charged: every chunk is charged when it is sealed, released when it leaves
the path, and no release saturates. -/
theorem budget_conserved {threads : Nat} {plans : List (StagePlan E R K)}
    {workers : List WorkerConfig} {events : List (PathEvent α)} {s : SinkPath E R K}
    (run : Transition.Run SinkPath.step
      (fun s event => s.orderly Worker.closedWhenEmpty event = true)
      (.new threads plans workers) events s) :
    s.budget.usage = bytesOf s.chunks ∧
    s.log.added = s.budget.usage + s.log.released ∧
    (∀ event s', s.orderly Worker.closedWhenEmpty event = true → s.step event = some s' →
      ∃ sealed gone, s.Flow s' sealed gone ∧ bytesOf gone ≤ s.budget.usage) ∧
    (s.chunks = 0 → s.budget.usage = 0 ∧ s.log.released = s.log.added) := by
  have balanced : s.Balanced := run.invariant SinkPath.Balanced
    (SinkPath.new_balanced threads plans workers)
    fun balanced permitted taken =>
      SinkPath.move_balanced balanced permitted (SinkPath.move_of_step taken)
  refine ⟨balanced.usage, balanced.ledger, ?_, ?_⟩
  · intro event s' permitted taken
    obtain ⟨sealed, gone, flow⟩ :=
      SinkPath.move_flow balanced permitted (SinkPath.move_of_step taken)
    exact ⟨sealed, gone, flow, balanced.enough flow⟩
  · intro resolved
    have usage : s.budget.usage = 0 := by
      rw [balanced.usage, resolved]
      rfl
    have ledger := balanced.ledger
    exact ⟨usage, by omega⟩

/-- One thread with one stage over one worker, whose queue holds one chunk. -/
def narrowQueue : SinkPath blockEncoder parityRouter markerCodec :=
  .new 1 [⟨0, ([], true), (), [0], none, ⟨64, .skip⟩, "sink"⟩] [⟨1, 1, 10, 1, "a-"⟩]

/-- One chunk is written; the next finds the queue full, is parked and dropped with its
stage. -/
def writtenAndParked : List (PathEvent UInt8) :=
  [.issue 0 ⟨0, 1, 0⟩ 9, .payload 0, .push 0 (batchRecord 0 2), .endPayload 0, .flush 0,
    .advance 0, .advance 0, .advance 0, .payload 0, .push 0 (batchRecord 0 4),
    .endPayload 0, .finish 0, .flush 0, .advance 0, .advance 0, .advance 0,
    .dropStage 0, .worker 0 .sendersGone, .worker 0 (.receive 1), .worker 0 (.absorb 5),
    .worker 0 (.finish 5 .written), .worker 0 (.absorb 6), .worker 0 (.join 5)]

open Transition in
theorem budget_conserved_run :
    ∃ s : SinkPath blockEncoder parityRouter markerCodec,
      s.chunks = 0 ∧ s.log.added = 2 ∧ s.budget.usage = 0 ∧ s.log.released = s.log.added := by
  have executes : ((replay SinkPath.step
      (fun s event => s.orderly Worker.closedWhenEmpty event = true) narrowQueue
      writtenAndParked).any fun s => decide (s.chunks = 0 ∧ s.log.added = 2)) = true := by
    decide
  obtain ⟨s, reached, facts⟩ := (Option.any_eq_true _ _).mp executes
  obtain ⟨resolved, added⟩ := of_decide_eq_true facts
  obtain ⟨-, -, -, final⟩ := budget_conserved (run_of_replay _ _ s reached)
  exact ⟨s, resolved, added, final resolved⟩

/-- A chunk is queued after the drain found the queue empty; its senders are gone when
the worker returns. -/
def sentDuringDrain : List (PathEvent UInt8) :=
  [.issue 0 ⟨0, 1, 0⟩ 9, .payload 0, .push 0 (batchRecord 0 2), .endPayload 0, .finish 0,
    .worker 0 (.publish (some 1)), .worker 0 .changed, .worker 0 (.tryReceive 0), .flush 0,
    .advance 0, .advance 0, .advance 0, .advance 0, .dropStage 0, .worker 0 .sendersGone,
    .worker 0 .done]

open Transition in
theorem closed_at_return_leaks :
    ∃ s : SinkPath blockEncoder parityRouter markerCodec,
      Run SinkPath.step (fun s event => s.orderly Worker.closedAtReturn event = true) twoShards
        sentDuringDrain s ∧
      s.chunks = 0 ∧ s.budget.usage = 1 := by
  have executes : ((replay SinkPath.step
      (fun s event => s.orderly Worker.closedAtReturn event = true) twoShards
      sentDuringDrain).any fun s => decide (s.chunks = 0 ∧ s.budget.usage = 1)) = true := by
    decide
  obtain ⟨s, reached, facts⟩ := (Option.any_eq_true _ _).mp executes
  exact ⟨s, run_of_replay _ _ s reached, of_decide_eq_true facts⟩

end Spate.Sink
