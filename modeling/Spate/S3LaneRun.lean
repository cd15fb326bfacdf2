import Spate.S3LaneRecords

set_option autoImplicit false

/- The polls of a lane, one after the other. -/
namespace Spate.S3

open Spate.Json (Bytes)
open Spate.Transition (Run replay run_of_replay)

structure PollCall where
  maxRecords : Nat
  ticks : Nat → Tick
  positive : 0 < maxRecords

/-- Messages that are waited for come in time. -/
def PollCall.Prompt (call : PollCall) : Prop :=
  ∀ i, ¬((call.ticks i).empty = true ∧
    ((call.ticks i).expired = true ∨ (call.ticks i).timedOut = true))

/-- A lane with the batches it handed out. -/
structure LaneWorld (σ : Type) where
  lane : S3Lane σ
  batches : List (List HeldRecord)

def Polled.batches : Polled → List (List HeldRecord)
  | .batch records _ => [records]
  | _ => []

namespace LaneWorld

variable {σ : Type}

def start (rx : List ChunkMsg) : LaneWorld σ := ⟨.new rx, []⟩

def log (w : LaneWorld σ) : List HeldRecord := w.batches.flatten

/-- A poll; none follows a panic. -/
def step (dec : Decoder σ) (w : LaneWorld σ) (call : PollCall) : Option (LaneWorld σ) :=
  if w.lane.panicked then none
  else
    (w.lane.poll dec call.maxRecords call.ticks).map fun result =>
      ⟨result.2, w.batches ++ result.1.batches⟩

def Reaches (dec : Decoder σ) (rx : List ChunkMsg) (calls : List PollCall) (w : LaneWorld σ) :
    Prop :=
  Run (step dec) (fun _ _ => True) (start rx) calls w

end LaneWorld

section Quiet

variable {σ : Type} {dec : Decoder σ}

/-- A lane that neither failed nor was poisoned nor decided its end. -/
structure Fresh (lane : S3Lane σ) : Prop where
  failed : lane.failed = none
  poisoned : lane.poisoned = false
  terminal : lane.terminal = none
  panicked : lane.panicked = false

/-- What a part of a poll leaves of a fresh lane: at most one way it stopped. -/
structure Tame (lane : S3Lane σ) : Prop where
  terminal : lane.terminal = none
  single : lane.failed = none ∨ lane.poisoned = false

/-- Nothing is left to read or to hand out. -/
structure Over (lane : S3Lane σ) : Prop where
  rx : lane.rx = []
  ready : lane.framer.ready = []
  pending : lane.framer.pending = []
  current : lane.current = none
  open' : lane.pendingEnd = false
  poisoned : lane.poisoned = false
  failed : lane.failed = none
  panicked : lane.panicked = false

/-- A poisoned lane has not failed and never ends; one that ended has nothing left. -/
structure Quiet (lane : S3Lane σ) : Prop where
  poisoned : lane.poisoned = true → lane.failed = none ∧ lane.terminal = none
  ended : ∀ mark, lane.terminal = some mark → mark = lane.watermarkCandidate ∧ Over lane

variable {maxRecords : Nat}

theorem Fresh.tame {lane : S3Lane σ} (fresh : Fresh lane) : Tame lane :=
  ⟨fresh.terminal, .inl fresh.failed⟩

theorem Tame.quiet {lane : S3Lane σ} (tame : Tame lane) : Quiet lane where
  poisoned := fun poisoned => by
    rcases tame.single with failed | clean
    · exact ⟨failed, tame.terminal⟩
    · rw [clean] at poisoned
      cases poisoned
  ended := fun mark ended => by
    rw [tame.terminal] at ended
    cases ended

theorem drainLoop_tame (ready : List Bytes) : ∀ {lane : S3Lane σ},
    Fresh lane → Tame (S3Lane.drainLoop maxRecords ready lane) := by
  induction ready with
  | nil => exact fun fresh => ⟨fresh.terminal, .inl fresh.failed⟩
  | cons bytes rest ih =>
    intro lane fresh
    unfold S3Lane.drainLoop
    split
    · exact ⟨fresh.terminal, .inl fresh.failed⟩
    · split
      · exact ih ⟨fresh.failed, fresh.poisoned, fresh.terminal, fresh.panicked⟩
      · dsimp only
        split
        · exact ⟨fresh.terminal, .inl fresh.failed⟩
        · split
          · exact ⟨fresh.terminal, .inl fresh.failed⟩
          · split
            · exact ⟨fresh.terminal, .inr fresh.poisoned⟩
            · split
              · exact ⟨fresh.terminal, .inl fresh.failed⟩
              · exact ih ⟨fresh.failed, fresh.poisoned, fresh.terminal, fresh.panicked⟩

theorem settle_tame {lane : S3Lane σ} (maxRecords : Nat) (fresh : Fresh lane) :
    Tame (lane.settle maxRecords) := by
  have drained : Tame (lane.drainFramer maxRecords) := drainLoop_tame _ fresh
  unfold S3Lane.settle
  generalize lane.drainFramer maxRecords = lane at drained ⊢
  dsimp only
  split
  · exact drained
  · rename_i sound
    have closed : Tame lane.closeEnded := by
      unfold S3Lane.closeEnded
      split
      · unfold S3Lane.finalizeObject
        have failed : lane.failed = none := by simpa using (not_or.mp sound).1
        split
        · exact ⟨drained.terminal, .inl failed⟩
        · dsimp only
          split
          · exact ⟨drained.terminal, .inl failed⟩
          · exact ⟨drained.terminal, .inl failed⟩
      · exact drained
    unfold S3Lane.closeTruncated
    split
    · exact ⟨closed.terminal, closed.single⟩
    · exact closed

theorem onFramed_tame {lane : S3Lane σ} (fresh : Fresh lane)
    (framed : ObjectFramer σ × Except FramerFault Unit) : Tame (lane.onFramed framed) := by
  unfold S3Lane.onFramed
  split
  · exact ⟨fresh.terminal, .inl fresh.failed⟩
  · exact ⟨fresh.terminal, .inl fresh.failed⟩
  · exact ⟨fresh.terminal, .inl fresh.failed⟩

theorem onMsg_tame {lane : S3Lane σ} (fresh : Fresh lane) (message : ChunkMsg) :
    Tame (lane.onMsg dec message) := by
  unfold S3Lane.onMsg
  split
  · unfold S3Lane.onObjectStart
    split
    · exact ⟨fresh.terminal, .inl fresh.failed⟩
    · split
      · exact ⟨fresh.terminal, .inl fresh.failed⟩
      · exact ⟨fresh.terminal, .inl fresh.failed⟩
      · split
        · split
          · exact ⟨fresh.terminal, .inl fresh.failed⟩
          · exact ⟨fresh.terminal, .inr fresh.poisoned⟩
        · exact ⟨fresh.terminal, .inl fresh.failed⟩
  · exact onFramed_tame fresh _
  · unfold S3Lane.onObjectEnd
    split
    · exact ⟨fresh.terminal, .inl fresh.failed⟩
    · exact ⟨fresh.terminal, .inl fresh.failed⟩
    · exact ⟨fresh.terminal, .inl fresh.failed⟩
  · exact ⟨fresh.terminal, .inl fresh.failed⟩
  · exact ⟨fresh.terminal, .inl fresh.failed⟩
  · exact ⟨fresh.terminal, .inr fresh.poisoned⟩

def Quieted : (Polled × S3Lane σ) ⊕ S3Lane σ → Prop
  | .inl (_, lane) => Quiet lane
  | .inr lane => Fresh lane

theorem check_quieted {lane : S3Lane σ} (tame : Tame lane) : Quieted lane.check := by
  unfold S3Lane.check
  split
  · exact tame.quiet
  · rename_i sound
    split
    · exact tame.quiet
    · rename_i failed
      split
      · exact tame.quiet
      · rename_i clean
        exact ⟨failed, by simpa using clean, tame.terminal, by simpa using sound⟩

theorem emit_quiet {lane : S3Lane σ} (fresh : Fresh lane) : Quiet lane.emit.2 := by
  unfold S3Lane.emit
  split
  · exact fresh.tame.quiet
  · exact Tame.quiet ⟨fresh.terminal, .inl fresh.failed⟩

theorem receive_quieted {lane : S3Lane σ} (fresh : Fresh lane) (pending : lane.framer.pending = [])
    (open' : lane.pendingEnd = false) : Quieted (lane.receive dec) := by
  unfold S3Lane.receive
  split
  · apply check_quieted
    apply onMsg_tame
    exact ⟨fresh.failed, fresh.poisoned, fresh.terminal, fresh.panicked⟩
  · rename_i rx
    split
    · exact check_quieted ⟨fresh.terminal, .inr fresh.poisoned⟩
    · rename_i outside
      split
      · exact fresh
      · rename_i drained
        split
        · exact emit_quiet fresh
        · unfold S3Lane.setTerminal
          split
          · exact Tame.quiet ⟨fresh.terminal, .inl fresh.failed⟩
          · refine ⟨fun poisoned => ?_, ?_⟩
            · change lane.poisoned = true at poisoned
              rw [fresh.poisoned] at poisoned
              cases poisoned
            · rintro mark ⟨⟩
              exact ⟨rfl, rx, by simpa using drained, pending, by simpa using outside, open',
                fresh.poisoned, fresh.failed, fresh.panicked⟩

theorem iterate_quieted (dec : Decoder σ) {lane : S3Lane σ} (fresh : Fresh lane)
    (maxRecords : Nat) (tick : Tick) (attempted : Bool) :
    Quieted (lane.iterate dec maxRecords tick attempted) := by
  have checked := check_quieted (settle_tame maxRecords fresh)
  unfold S3Lane.iterate
  generalize (lane.settle maxRecords).check = outcome at checked ⊢
  cases outcome with
  | inl stopped => exact checked
  | inr lane =>
    have fresh : Fresh lane := checked
    dsimp only
    unfold S3Lane.advance
    split
    · exact emit_quiet fresh
    · split
      · exact Tame.quiet ⟨fresh.terminal, .inl fresh.failed⟩
      · rename_i open'
        split
        · split
          · exact fresh.tame.quiet
          · exact emit_quiet fresh
        · split
          · exact check_quieted (onFramed_tame fresh _)
          · rename_i empty
            split
            · exact emit_quiet fresh
            · split
              · exact fresh.tame.quiet
              · exact receive_quieted fresh (by simpa using empty) (by simpa using open')

/-- What a lane that decided its end keeps. -/
structure Same (lane last : S3Lane σ) : Prop where
  spent : Over last
  held : last.held = lane.held
  terminal : last.terminal = lane.terminal
  watermark : last.watermarkCandidate = lane.watermarkCandidate

theorem over_settle {lane : S3Lane σ} (spent : Over lane) (maxRecords : Nat) :
    Same lane (lane.settle maxRecords) := by
  unfold S3Lane.settle S3Lane.drainFramer
  rw [spent.ready]
  unfold S3Lane.drainLoop
  dsimp only
  rw [if_neg (by simp [spent.failed, spent.panicked])]
  unfold S3Lane.closeEnded
  rw [if_neg (by simp [spent.open'])]
  unfold S3Lane.closeTruncated
  split
  · exact ⟨⟨spent.rx, rfl, spent.pending, rfl, spent.open', spent.poisoned, spent.failed,
      spent.panicked⟩, rfl, rfl, rfl⟩
  · exact ⟨⟨spent.rx, rfl, spent.pending, spent.current, spent.open', spent.poisoned, spent.failed,
      spent.panicked⟩, rfl, rfl, rfl⟩

/-- A lane that decided its end decides it again, and nothing else. -/
theorem over_iterate (dec : Decoder σ) {lane : S3Lane σ} (spent : Over lane)
    (held : lane.held = []) (ended : lane.terminal = some lane.watermarkCandidate)
    (positive : 0 < maxRecords) (tick : Tick) (attempted : Bool) :
    ∃ last, lane.iterate dec maxRecords tick attempted = .inl (.idle, last) ∧ Same lane last := by
  obtain ⟨spent, none, terminal, watermark⟩ := over_settle spent maxRecords
  unfold S3Lane.iterate
  generalize lane.settle maxRecords = settled at spent none terminal watermark ⊢
  have passed : settled.check = .inr settled := by
    unfold S3Lane.check
    rw [if_neg (by simp [spent.panicked]), spent.failed]
    dsimp only
    rw [if_neg (by simp [spent.poisoned])]
  have nothing : settled.held = [] := none.trans held
  rw [passed]
  dsimp only
  unfold S3Lane.advance
  rw [if_neg (by simp [nothing]; omega), if_neg (by simp [spent.open'])]
  split
  · exact ⟨settled, rfl, spent, none, terminal, watermark⟩
  · rw [if_neg (by simp [spent.pending]), if_neg (by simp [nothing])]
    split
    · exact ⟨settled, rfl, spent, none, terminal, watermark⟩
    · unfold S3Lane.receive
      rw [spent.rx]
      dsimp only
      rw [if_neg (by simp [spent.current]), if_neg (by simp [spent.ready]),
        if_neg (by simp [nothing])]
      unfold S3Lane.setTerminal
      rw [if_neg (by rw [terminal, ended, watermark]; simp)]
      refine ⟨_, rfl,
        ⟨spent.rx, spent.ready, spent.pending, spent.current, spent.open', spent.poisoned,
        spent.failed, spent.panicked⟩, none, ?_, watermark⟩
      rw [ended, ← watermark]

theorem poll_eq (dec : Decoder σ) (lane : S3Lane σ) (failed : lane.failed = none)
    (poisoned : lane.poisoned = false) (maxRecords : Nat) (ticks : Nat → Tick) :
    lane.poll dec maxRecords ticks = S3Lane.pollLoop dec maxRecords ticks (lane.load + 2) 0
      { lane with held := [] } := by
  unfold S3Lane.poll
  split
  · rename_i same
    rw [failed] at same
    cases same
  · exact if_neg (by simp [poisoned])

theorem poll_poisoned (dec : Decoder σ) {lane : S3Lane σ} (failed : lane.failed = none)
    (poisoned : lane.poisoned = true) (maxRecords : Nat) (ticks : Nat → Tick) :
    lane.poll dec maxRecords ticks = some (.idle, lane) := by
  unfold S3Lane.poll
  rw [failed]
  exact if_pos poisoned

theorem unfinished {lane : S3Lane σ} (unset : lane.terminal = none) : lane.finished = false := by
  rw [S3Lane.finished, unset, Option.isSome_none]

/-- Whatever its fetcher sends, a poisoned lane stays so: it never ends, and its polls idle. -/
theorem poll_quiet {lane last : S3Lane σ} {polled : Polled} {ticks : Nat → Tick}
    (positive : 0 < maxRecords) (sound : lane.panicked = false) (quiet : Quiet lane)
    (result : lane.poll dec maxRecords ticks = some (polled, last)) :
    Quiet last ∧ (∀ mark, lane.terminal = some mark → polled = .idle ∧ last.terminal = some mark) ∧
      (lane.poisoned = true → polled = .idle ∧ last = lane) := by
  have loops (fuel : Nat) : ∀ (iteration : Nat) (lane : S3Lane σ), Fresh lane →
      S3Lane.pollLoop dec maxRecords ticks fuel iteration lane = some (polled, last) →
      Quiet last := by
    induction fuel with
    | zero =>
      intro _ _ _ result
      cases result
    | succ fuel ih =>
      intro iteration lane fresh result
      have quieted := iterate_quieted dec fresh maxRecords (ticks iteration)
        (decide (0 < iteration))
      unfold S3Lane.pollLoop at result
      generalize lane.iterate dec maxRecords (ticks iteration) (decide (0 < iteration)) = outcome
        at quieted result
      cases outcome with
      | inl stopped =>
        cases result
        exact quieted
      | inr next => exact ih _ next quieted result
  cases failed : lane.failed with
  | some failure =>
    unfold S3Lane.poll at result
    rw [failed] at result
    cases result
    refine ⟨quiet, fun mark ended => ?_, fun poisoned => ?_⟩
    · have spent := (quiet.ended mark ended).2
      rw [spent.failed] at failed
      cases failed
    · rw [(quiet.poisoned poisoned).1] at failed
      cases failed
  | none =>
    cases poisoned : lane.poisoned with
    | true =>
      unfold S3Lane.poll at result
      rw [failed] at result
      dsimp only at result
      rw [if_pos poisoned] at result
      cases result
      refine ⟨quiet, fun mark ended => ?_, fun _ => ⟨rfl, rfl⟩⟩
      rw [(quiet.poisoned poisoned).2] at ended
      cases ended
    | false =>
      rw [poll_eq dec lane failed poisoned] at result
      cases ended : lane.terminal with
      | none =>
        refine ⟨loops _ 0 _ ?_ result, by simp, by simp⟩
        exact ⟨failed, poisoned, ended, sound⟩
      | some mark =>
        obtain ⟨rfl, spent⟩ := quiet.ended mark ended
        have emptied : Over { lane with held := [] } :=
          ⟨spent.rx, spent.ready, spent.pending, spent.current, spent.open', spent.poisoned,
            spent.failed, spent.panicked⟩
        obtain ⟨final, stops, spent, _, terminal, watermark⟩ :=
          over_iterate dec emptied rfl ended positive (ticks 0) false
        unfold S3Lane.pollLoop at result
        rw [show decide (0 < 0) = false from rfl, stops] at result
        cases result
        dsimp only at terminal watermark
        rw [ended] at terminal
        refine ⟨⟨fun poisoned => ?_, ?_⟩, ?_, by simp⟩
        · rw [spent.poisoned] at poisoned
          cases poisoned
        · rw [terminal]
          rintro other ⟨⟩
          exact ⟨watermark.symm, spent⟩
        · rintro other ⟨⟩
          exact ⟨rfl, terminal⟩

theorem reaches_quiet {rx : List ChunkMsg} {calls : List PollCall} {w : LaneWorld σ}
    (run : LaneWorld.Reaches dec rx calls w) : Quiet w.lane := by
  refine Run.invariant (fun w => Quiet w.lane) run ⟨nofun, nofun⟩ ?_
  intro before after call quiet _ taken
  unfold LaneWorld.step at taken
  split at taken
  · cases taken
  · rename_i sound
    obtain ⟨⟨polled, last⟩, result, rfl⟩ := Option.map_eq_some_iff.mp taken
    exact (poll_quiet call.positive (by simpa using sound) quiet result).1

end Quiet

section Records

variable {σ : Type} {dec : Decoder σ} {frames : String → Bytes → List Bytes}
  {objects : List LaneObject} {log : List HeldRecord} {lane : S3Lane σ}

/-- The lane between polls. -/
def Ready (dec : Decoder σ) (frames : String → Bytes → List Bytes) (objects : List LaneObject)
    (w : LaneWorld σ) : Prop :=
  Live dec frames objects w.log { w.lane with held := [] } ∨ Dead dec frames objects w.log w.lane

variable {w : LaneWorld σ}

theorem Live.handed (live : Live dec frames objects log lane) :
    Live dec frames objects (log ++ lane.held) { lane with held := [] } := by
  obtain ⟨failed, panicked, poisoned, truncated, resume, discard, marked, stage, terminal⟩ := live
  refine ⟨failed, panicked, poisoned, truncated, resume, discard, ?_, ?_, ?_⟩
  · rw [List.append_nil]
    exact marked
  · rw [List.append_nil]
    cases stage with
    | between done rest whole input outside framer open' records later =>
      exact .between done rest whole input outside framer open' records later
    | inside done o rest emitted whole current count mark records body =>
      exact .inside done o rest emitted whole current count mark records body
  · rcases terminal with unset | ⟨rx, current, _, set⟩
    · exact .inl unset
    · exact .inr ⟨rx, current, rfl, set⟩

theorem Live.complete (live : Live dec frames objects log lane) {mark : Nat}
    (ended : lane.terminal = some mark) :
    log = expected frames objects ∧ mark = log.getLast?.elim 0 (·.offset + 1) := by
  obtain ⟨_, _, _, _, _, _, marked, stage, terminal⟩ := live
  rcases terminal with unset | ⟨rx, current, held, set⟩
  · rw [unset] at ended
    cases ended
  · rw [set] at ended
    cases ended
    rw [held, List.append_nil] at marked stage
    refine ⟨?_, marked.last⟩
    cases stage with
    | between done rest whole input _ _ _ records _ =>
      rw [input, wire_nil_iff] at rx
      rw [whole, rx, List.append_nil]
      exact records
    | inside _ _ _ _ _ busy _ _ _ _ =>
      rw [current] at busy
      cases busy

theorem ended_complete (live : Live dec frames objects log lane) (spent : lane.finished = true) :
    Polled.idle = .idle ∧ log = expected frames objects ∧
      lane.terminal = some (log.getLast?.elim 0 (·.offset + 1)) := by
  obtain ⟨mark, set⟩ := Option.isSome_iff_exists.mp spent
  obtain ⟨whole, same⟩ := live.complete set
  exact ⟨rfl, whole, by rw [set, same]⟩

variable (lawful : dec.Frames frames) (few : ∀ o ∈ objects, o.ordinal ≤ maxOrdinal)
  (ordered : objects.Pairwise fun a b => a.ordinal < b.ordinal)

include lawful few ordered

theorem poll_spec (live : Live dec frames objects log { lane with held := [] })
    (call : PollCall) :
    ∃ polled last, lane.poll dec call.maxRecords call.ticks = some (polled, last) ∧
      Ends dec frames objects log call.maxRecords (last.load < lane.load ∨ ¬call.Prompt)
        polled last ∧ last.load ≤ lane.load := by
  obtain ⟨polled, last, result, ends, less⟩ := pollLoop_spec lawful few ordered call.positive
    call.ticks (lane.load + 2) 0 { lane with held := [] } live (Nat.zero_le _)
    (Nat.lt_succ_of_lt (Nat.lt_succ_self _))
  refine ⟨polled, last, ?_, ?_, less⟩
  · rw [poll_eq dec lane live.failed live.poisoned]
    exact result
  · cases ends with
    | batch live ack fits => exact .batch live ack fits
    | finished live empty spent => exact .finished live empty spent
    | poisoned dead => exact .poisoned dead
    | waits live empty why =>
      refine .waits live empty ?_
      rcases why with impossible | fewer | ⟨i, starved⟩
      · omega
      · exact .inl fewer
      · exact .inr fun prompt => prompt i starved

/-- A bound on the polls before the lane ends, when its messages come in time. -/
def LaneWorld.left (frames : String → Bytes → List Bytes) (objects : List LaneObject)
    (w : LaneWorld σ) : Nat :=
  w.lane.load + ((expected frames objects).length - w.log.length)

omit lawful few ordered in
theorem start_ready : Ready dec frames objects (LaneWorld.start (wire objects)) := by
  refine .inl ⟨rfl, rfl, rfl, rfl, rfl, rfl, ?_, ?_, .inl rfl⟩
  · exact ⟨rfl, nofun, List.Pairwise.nil, nofun⟩
  · exact .between [] objects rfl rfl rfl rfl rfl rfl fun o _ => Nat.zero_le _

omit few ordered in
theorem ready_front (ready : Ready dec frames objects w) :
    ∃ mark seen, Marked mark seen ∧ w.log <+: seen ∧ seen <+: expected frames objects := by
  rcases ready with live | dead
  · exact ⟨_, _, live.marked, List.prefix_append _ _, live.stage.front lawful⟩
  · obtain ⟨done, o, rest, mark, seen, whole, -, marked, front, early⟩ := dead.stopped
    exact ⟨mark, seen, marked, front, early.trans (expected_earlier whole)⟩

omit lawful few ordered in
theorem ready_finished (ready : Ready dec frames objects w) (ended : w.lane.finished = true) :
    w.log = expected frames objects := by
  rcases ready with live | dead
  · exact (ended_complete live ended).2.1
  · exact absurd ended (Bool.eq_false_iff.mp (unfinished dead.terminal))

omit lawful few ordered in
theorem ready_poisoned (ready : Ready dec frames objects w) (poisoned : w.lane.poisoned = true) :
    ∃ done o rest, objects = done ++ o :: rest ∧ Spoiled dec frames o ∧
      w.log <+: expected frames (done ++ [o]) := by
  rcases ready with live | dead
  · have clean : w.lane.poisoned = false := live.poisoned
    rw [clean] at poisoned
    cases poisoned
  · obtain ⟨done, o, rest, mark, seen, whole, spoiled, -, front, early⟩ := dead.stopped
    exact ⟨done, o, rest, whole, spoiled, front.trans early⟩

omit lawful few ordered in
theorem world_idle (batches : List (List HeldRecord)) :
    (⟨lane, batches ++ Polled.batches .idle⟩ : LaneWorld σ) = ⟨lane, batches⟩ := by
  rw [show Polled.batches .idle = [] from rfl, List.append_nil]

theorem step_ready {next : LaneWorld σ} {call : PollCall} (ready : Ready dec frames objects w)
    (quiet : Quiet w.lane) (taken : w.step dec call = some next) :
    Ready dec frames objects next ∧
      ((∀ batch ∈ w.batches, batch ≠ []) → ∀ batch ∈ next.batches, batch ≠ []) ∧
      (call.Prompt → next.lane.finished = true ∨ next.lane.poisoned = true ∨
        next.left frames objects < w.left frames objects) := by
  unfold LaneWorld.step at taken
  split at taken
  · cases taken
  · rename_i sound
    obtain ⟨⟨polled, last⟩, result, rfl⟩ := Option.map_eq_some_iff.mp taken
    rcases ready with live | dead
    · obtain ⟨polled, last, same, ends, less⟩ := poll_spec lawful few ordered live call
      rw [result] at same
      cases same
      cases ends with
      | @batch _ final live ack fits =>
        have some : last.held ≠ [] := by
          intro empty
          rw [empty] at ack
          cases ack
        have handed := live.handed
        have log : (⟨last, w.batches ++ [last.held]⟩ : LaneWorld σ).log = w.log ++ last.held := by
          unfold LaneWorld.log
          rw [List.flatten_append, List.flatten_singleton]
        refine ⟨.inl ?_, ?_, fun _ => .inr (.inr ?_)⟩
        · change Live dec frames objects (LaneWorld.log ⟨last, w.batches ++ [last.held]⟩) _
          rw [log]
          exact handed
        · intro nonempty batch member
          rcases List.mem_append.mp member with earlier | here
          · exact nonempty batch earlier
          · rw [List.mem_singleton.mp here]
            exact some
        · have front := (live.stage.front lawful).length_le
          have positive := List.length_pos_iff.mpr some
          rw [List.length_append] at front
          change last.load + ((expected frames objects).length -
            (LaneWorld.log ⟨last, w.batches ++ [last.held]⟩).length) < w.left frames objects
          unfold LaneWorld.left
          rw [log, List.length_append]
          omega
      | waits live empty why =>
        rw [world_idle]
        have handed := live.handed
        rw [empty, List.append_nil] at handed
        refine ⟨.inl handed, id, fun prompt => .inr (.inr ?_)⟩
        have fewer := why.resolve_right fun unprompt => unprompt prompt
        exact Nat.add_lt_add_right fewer _
      | finished live empty spent =>
        rw [world_idle]
        have handed := live.handed
        rw [empty, List.append_nil] at handed
        exact ⟨.inl handed, id, fun _ => .inl spent⟩
      | poisoned dead =>
        rw [world_idle]
        exact ⟨.inr dead, id, fun _ => .inr (.inl dead.poisoned)⟩
    · obtain ⟨_, _, stays⟩ := poll_quiet call.positive dead.panicked quiet result
      obtain ⟨rfl, rfl⟩ := stays dead.poisoned
      rw [world_idle]
      exact ⟨.inr dead, id, fun _ => .inr (.inl dead.poisoned)⟩

theorem reaches_ready {calls : List PollCall} (run : LaneWorld.Reaches dec (wire objects) calls w) :
    Ready dec frames objects w ∧ (∀ batch ∈ w.batches, batch ≠ []) ∧
      ((∀ call ∈ calls, call.Prompt) → w.lane.finished = true ∨ w.lane.poisoned = true ∨
        calls.length + w.left frames objects ≤
          (LaneWorld.start (wire objects) : LaneWorld σ).left frames objects) := by
  induction run with
  | nil => exact ⟨start_ready, nofun, fun _ => .inr (.inr (by simp))⟩
  | @snoc calls state next call earlier permitted taken ih =>
    obtain ⟨ready, nonempty, bound⟩ := ih
    have quiet := reaches_quiet earlier
    obtain ⟨kept, batches, progress⟩ := step_ready lawful few ordered ready quiet taken
    refine ⟨kept, batches nonempty, fun prompt => ?_⟩
    have stays : state.lane.finished = true ∨ state.lane.poisoned = true →
        next.lane.finished = true ∨ next.lane.poisoned = true := by
      intro stopped
      unfold LaneWorld.step at taken
      split at taken
      · cases taken
      · rename_i sound
        obtain ⟨⟨polled, last⟩, result, rfl⟩ := Option.map_eq_some_iff.mp taken
        obtain ⟨_, finished, poisoned⟩ :=
          poll_quiet call.positive (by simpa using sound) quiet result
        rcases stopped with spent | quiet
        · obtain ⟨mark, set⟩ := Option.isSome_iff_exists.mp spent
          left
          unfold S3Lane.finished
          rw [(finished mark set).2]
          rfl
        · right
          obtain ⟨_, rfl⟩ := poisoned quiet
          exact quiet
    rcases bound fun other member => prompt other (List.mem_append_left _ member) with
      spent | quiet | less
    · rcases stays (.inl spent) with spent | quiet
      · exact .inl spent
      · exact .inr (.inl quiet)
    · rcases stays (.inr quiet) with spent | quiet
      · exact .inl spent
      · exact .inr (.inl quiet)
    · rcases progress (prompt call (List.mem_append_right _ List.mem_cons_self)) with
        spent | quiet | fewer
      · exact .inl spent
      · exact .inr (.inl quiet)
      · refine .inr (.inr ?_)
        rw [List.length_append, List.length_singleton]
        omega

/-- What the next poll answers, and when it decides the end. -/
theorem ready_poll (ready : Ready dec frames objects w) (quiet : Quiet w.lane) (call : PollCall) :
    ∃ polled last, w.lane.poll dec call.maxRecords call.ticks = some (polled, last) ∧
      (polled = .idle ∨ ∃ records r, polled = .batch records r.offset ∧
        records.getLast? = some r ∧ records.length ≤ call.maxRecords ∧ last.finished = false) ∧
      (w.lane.finished = true → last.terminal = w.lane.terminal) ∧
      (last.finished = true → polled = .idle ∧ w.log = expected frames objects ∧
        last.terminal = some (w.log.getLast?.elim 0 (·.offset + 1))) := by
  rcases ready with live | dead
  · obtain ⟨polled, last, result, ends, _⟩ := poll_spec lawful few ordered live call
    have stays : w.lane.finished = true → last.terminal = w.lane.terminal := by
      intro spent
      obtain ⟨mark, set⟩ := Option.isSome_iff_exists.mp spent
      have sound : w.lane.panicked = false := live.panicked
      rw [set]
      exact ((poll_quiet call.positive sound quiet result).2.1 mark set).2
    refine ⟨polled, last, result, ?_⟩
    cases ends with
    | @batch _ final live ack fits =>
      have unset : last.finished = false := by
        rcases live.terminal with unset | ⟨_, _, empty, _⟩
        · exact unfinished unset
        · rw [empty] at ack
          cases ack
      exact ⟨.inr ⟨last.held, final, rfl, ack, fits, unset⟩, stays,
        fun spent => absurd spent (Bool.eq_false_iff.mp unset)⟩
    | waits live | finished live => exact ⟨.inl rfl, stays, ended_complete live⟩
    | poisoned dead =>
      exact ⟨.inl rfl, stays,
        fun spent => absurd spent (Bool.eq_false_iff.mp (unfinished dead.terminal))⟩
  · exact ⟨.idle, w.lane, poll_poisoned dec dead.failed dead.poisoned _ _, .inl rfl, fun _ => rfl,
      fun spent => absurd spent (Bool.eq_false_iff.mp (unfinished dead.terminal))⟩

end Records

theorem decode_succ {offset : Nat} (index : offset % 2 ^ 40 ≤ maxRecordIndex) :
    (Position.decode (offset + 1)).ordinal = (Position.decode offset).ordinal := by
  have split := Position.decode_next (p := ⟨offset / 2 ^ 40, offset % 2 ^ 40⟩) index
  dsimp only at split
  rw [Nat.div_add_mod'] at split
  rw [split.1, split.2]

/-- A lane's batches are the framing of its objects under exact offsets. It ends once, on
a poll that hands out nothing after all was handed out. Only a spoiled object poisons it, and
then it never ends. -/
theorem lane_emits_exactly {σ : Type} (dec : Decoder σ) (frames : String → Bytes → List Bytes)
    (objects : List LaneObject) (lawful : dec.Frames frames)
    (few : ∀ o ∈ objects, o.ordinal ≤ maxOrdinal)
    (ordered : objects.Pairwise fun a b => a.ordinal < b.ordinal) {calls : List PollCall}
    {w : LaneWorld σ} (run : LaneWorld.Reaches dec (wire objects) calls w) :
    -- the records handed out
    w.log <+: expected frames objects ∧ (∀ batch ∈ w.batches, batch ≠ []) ∧
    w.log.Pairwise (fun a b => a.offset < b.offset) ∧
    (∀ r ∈ w.log, (Position.decode (r.offset + 1)).ordinal = (Position.decode r.offset).ordinal) ∧
    -- any next poll
    (∀ call : PollCall, ∃ polled last,
      w.lane.poll dec call.maxRecords call.ticks = some (polled, last) ∧
      (polled = .idle ∨ ∃ records r, polled = .batch records r.offset ∧
        records.getLast? = some r ∧ records.length ≤ call.maxRecords ∧ last.finished = false) ∧
      (w.lane.finished = true → last.terminal = w.lane.terminal) ∧
      (last.finished = true → polled = .idle ∧ w.log = expected frames objects ∧
        last.terminal = some (w.log.getLast?.elim 0 (·.offset + 1)))) ∧
    -- it ends, when its messages come in time
    ((∀ call ∈ calls, call.Prompt) → w.lane.finished = true ∨ w.lane.poisoned = true ∨
      calls.length ≤ ((wire objects).map S3Lane.weight).sum + (expected frames objects).length) ∧
    -- it ends only when all was handed out, and is poisoned only by a spoiled object
    (w.lane.finished = true → w.log = expected frames objects) ∧
    (w.lane.poisoned = true → ∃ done o rest, objects = done ++ o :: rest ∧
      Spoiled dec frames o ∧ w.log <+: expected frames (done ++ [o])) ∧
    ((∀ o ∈ objects, ¬Spoiled dec frames o) → (∀ call ∈ calls, call.Prompt) →
      ((wire objects).map S3Lane.weight).sum + (expected frames objects).length < calls.length →
      w.lane.finished = true ∧ w.log = expected frames objects) ∧
    -- a poisoned lane, whatever it was sent
    (∀ rx calls (w : LaneWorld σ), LaneWorld.Reaches dec rx calls w → w.lane.poisoned = true →
      w.lane.finished = false ∧ ∀ call : PollCall,
        w.lane.poll dec call.maxRecords call.ticks = some (.idle, w.lane)) := by
  obtain ⟨ready, nonempty, bound⟩ := reaches_ready lawful few ordered run
  have quiet := reaches_quiet run
  obtain ⟨mark, seen, marked, front, early⟩ := ready_front lawful ready
  have bounded : (∀ call ∈ calls, call.Prompt) → w.lane.finished = true ∨ w.lane.poisoned = true ∨
      calls.length ≤
        ((wire objects).map S3Lane.weight).sum + (expected frames objects).length := by
    intro prompt
    have start : (LaneWorld.start (wire objects) : LaneWorld σ).left frames objects =
        ((wire objects).map S3Lane.weight).sum + (expected frames objects).length := by
      simp [LaneWorld.left, LaneWorld.start, S3Lane.load, S3Lane.new, LaneWorld.log,
        ObjectFramer.new]
    have bound := bound prompt
    rw [start] at bound
    exact bound.imp_right (Or.imp_right (Nat.le_trans (Nat.le_add_right _ _)))
  have finished := ready_finished ready
  have spoils := ready_poisoned ready
  refine ⟨front.trans early, nonempty, marked.rising.sublist front.sublist,
    fun r member => decode_succ (marked.inside r (front.subset member)),
    ready_poll lawful few ordered ready quiet, bounded, finished, spoils, ?_, ?_⟩
  · intro sound prompt long
    have ended : w.lane.finished = true := by
      rcases bounded prompt with ended | poisoned | few
      · exact ended
      · obtain ⟨done, o, rest, whole, spoiled, -⟩ := spoils poisoned
        exact absurd spoiled (sound o (whole ▸ List.mem_append_right _ List.mem_cons_self))
      · omega
    exact ⟨ended, finished ended⟩
  · intro rx calls w run poisoned
    obtain ⟨failed, terminal⟩ := (reaches_quiet run).poisoned poisoned
    exact ⟨unfinished terminal, fun call => poll_poisoned dec failed poisoned _ _⟩

/-- Two objects of lines, cut inside a line and with an empty chunk. -/
def twoObjects : List LaneObject :=
  [⟨0, "a", 5, [[49, 10, 50], [], [51]]⟩, ⟨3, "b", 6, [[52, 10]]⟩]

/-- A poll that finds every message ready. -/
def readyPoll (maxRecords : Nat) (positive : 0 < maxRecords) : PollCall :=
  ⟨maxRecords, fun _ => ⟨false, false, false, false⟩, positive⟩

/-- A zero-timeout poll: the deadline has passed after the first attempt. -/
def zeroPoll : PollCall := ⟨8, fun _ => ⟨true, false, false, false⟩, by decide⟩

/-- Their lines are short, so nothing spoils them. -/
theorem twoObjects_unspoiled : ∀ o ∈ twoObjects,
    ¬Spoiled (plainNdjson 100) (fun _ bytes => Spate.Json.records bytes) o := by
  have sound : ∀ o ∈ twoObjects, (Spate.Json.outcome 100 o.bytes true).2 = false ∧
      (Spate.Json.records o.bytes).length ≤ maxRecordIndex + 1 := by decide
  intro o member spoiled
  obtain ⟨fine, few⟩ := sound o member
  rcases spoiled_outcome StreamCodec.plain_decodes rfl spoiled with failed | many
  · exact Bool.false_ne_true (fine.symm.trans failed)
  · exact absurd few (Nat.not_le.mpr many)

theorem lane_emits_exactly_run :
    ∃ calls w, LaneWorld.Reaches (plainNdjson 100) (wire twoObjects) calls w ∧
      w.lane.finished = true ∧
      w.log.map HeldRecord.offset = [0, 1, 3 * 2 ^ 40] ∧
      w.log = expected (fun _ bytes => Spate.Json.records bytes) twoObjects := by
  have executes : ((replay (LaneWorld.step (plainNdjson 100)) (fun _ _ => True)
      (LaneWorld.start (wire twoObjects))
      (zeroPoll :: zeroPoll :: List.replicate 18 (readyPoll 2 (by decide)))).any fun w =>
      decide (w.log.map HeldRecord.offset = [0, 1, 3 * 2 ^ 40])) = true := by
    decide
  obtain ⟨w, reached, offsets⟩ := (Option.any_eq_true _ _).mp executes
  have run := run_of_replay _ _ w reached
  obtain ⟨-, -, -, -, -, -, -, -, ends, -⟩ :=
    lane_emits_exactly (plainNdjson 100) (fun _ bytes => Spate.Json.records bytes)
      twoObjects (plainNdjson_frames 100) (by decide) (by decide) run
  have prompt : ∀ call ∈ zeroPoll :: zeroPoll :: List.replicate 18 (readyPoll 2 (by decide)),
      call.Prompt := by
    intro call member
    simp only [List.mem_cons, List.mem_replicate] at member
    rcases member with rfl | rfl | ⟨-, rfl⟩ <;> exact fun i starved => Bool.false_ne_true starved.1
  obtain ⟨finished, whole⟩ := ends twoObjects_unspoiled prompt (by decide)
  exact ⟨_, w, run, finished, of_decide_eq_true offsets, whole⟩

end Spate.S3
