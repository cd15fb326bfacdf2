import Mathlib.Data.List.Induction
import Spate.Handoff

set_option autoImplicit false

/- The watermark pause/resume controller (`backpressure.rs`) and the histories of one
pipeline thread that drives it. Instants and durations are nanoseconds. -/
namespace Spate.Backpressure

open Sink (InflightBudget)

structure BackpressureParams where
  highBytes : Nat
  lowBytes : Nat
  minPause : Nat
  deriving DecidableEq, Repr

inductive Transition
  | pause
  | resume
  deriving DecidableEq, Repr

inductive State
  | normal
  | paused (since : Nat)
  deriving DecidableEq, Repr

structure WatermarkController where
  params : BackpressureParams
  state : State
  /-- A `try_send` rejection observed since the last `tick`. -/
  rejected : Bool
  deriving DecidableEq, Repr

namespace WatermarkController

def withClock (params : BackpressureParams) : WatermarkController := ⟨params, .normal, false⟩

/-- While paused, a rejection restarts the minimum-pause timer. -/
def onSendRejected (c : WatermarkController) (now : Nat) : WatermarkController :=
  match c.state with
  | .normal => { c with rejected := true }
  | .paused _ => { c with rejected := true, state := .paused now }

def tick (c : WatermarkController) (now : Nat) (budget : InflightBudget) (queuesBelowLow : Bool) :
    WatermarkController × Option Transition :=
  match c.state with
  | .normal =>
    if c.rejected ∨ c.params.highBytes ≤ budget.usage then
      ({ c with rejected := false, state := .paused now }, some .pause)
    else (c, none)
  | .paused since =>
    if c.rejected then ({ c with rejected := false }, none)
    else if (budget.usage ≤ c.params.lowBytes ∧ queuesBelowLow) ∧
      c.params.minPause ≤ now - since then
      ({ c with state := .normal }, some .resume)
    else (c, none)

def isPaused (c : WatermarkController) : Bool := c.state matches .paused _

end WatermarkController

/-! ## Histories -/

inductive Op
  | add (bytes : Nat)
  | sub (bytes : Nat)
  | reject
  | advance (duration : Nat)
  | tick (queuesBelowLow : Bool)
  deriving DecidableEq, Repr

/-- The controller, the budget it reads and the clock. -/
structure World where
  controller : WatermarkController
  budget : InflightBudget
  clock : Nat
  deriving DecidableEq

def World.step (w : World) : Op → World × Option Transition
  | .add bytes => ({ w with budget := w.budget.add bytes }, none)
  | .sub bytes => ({ w with budget := w.budget.sub bytes }, none)
  | .reject => ({ w with controller := w.controller.onSendRejected w.clock }, none)
  | .advance d => ({ w with clock := w.clock + d }, none)
  | .tick queuesBelowLow =>
    let (controller, made) := w.controller.tick w.clock w.budget queuesBelowLow
    ({ w with controller }, made)

structure Entry where
  op : Op
  time : Nat
  made : Option Transition
  deriving DecidableEq, Repr

/-- The world and its history after one more operation. -/
def take (s : World × List Entry) (op : Op) : World × List Entry :=
  let (w, made) := s.1.step op
  (w, s.2 ++ [⟨op, s.1.clock, made⟩])

def start (params : BackpressureParams) (clock : Nat) : World × List Entry :=
  (⟨.withClock params, ⟨0⟩, clock⟩, [])

def after (params : BackpressureParams) (clock : Nat) (ops : List Op) : World × List Entry :=
  ops.foldl take (start params clock)

def transitions (history : List Entry) : List Transition := history.filterMap Entry.made

/-- A rejection was recorded after the last tick, and nothing since made a transition. -/
def FreshRejection (history : List Entry) : Prop :=
  ∃ early entry rest, history = early ++ entry :: rest ∧ entry.op = .reject ∧
    ∀ e ∈ rest, e.made = none ∧ ∀ low, e.op ≠ .tick low

/-- The last transition is the pause `since` dates from: it and every later rejection are no
younger than `since`. -/
def PausedSince (since : Nat) (history : List Entry) : Prop :=
  ∃ early pause rest, history = early ++ pause :: rest ∧ pause.made = some .pause ∧
    pause.time ≤ since ∧ ∀ e ∈ rest, e.made = none ∧ (e.op = .reject → e.time ≤ since)

/-- `Pause`, `Resume`, `Pause`, ... -/
def Alternates (ts : List Transition) : Prop :=
  ∀ i t, ts[i]? = some t → t = if i % 2 = 0 then .pause else .resume

/-! ## What a history says of the controller -/

structure Told (params : BackpressureParams) (s : World × List Entry) : Prop where
  params : s.1.controller.params = params
  past : ∀ e ∈ s.2, e.time ≤ s.1.clock
  alternates : Alternates (transitions s.2)
  normal : s.1.controller.state = .normal → (transitions s.2).length % 2 = 0
  paused : ∀ since, s.1.controller.state = .paused since →
    since ≤ s.1.clock ∧ (transitions s.2).length % 2 = 1 ∧ PausedSince since s.2
  rejected : s.1.controller.rejected = true ↔ FreshRejection s.2

variable {history : List Entry} {entry : Entry} {since : Nat} {t : Transition}
  {params : BackpressureParams} {s : World × List Entry} {w : World}

theorem freshRejection_reject (history : List Entry) (time : Nat) (made : Option Transition) :
    FreshRejection (history ++ [⟨.reject, time, made⟩]) :=
  ⟨history, ⟨.reject, time, made⟩, [], rfl, rfl, by simp⟩

/-- An operation other than a rejection leaves a fresh rejection fresh, unless it is a tick. -/
theorem freshRejection_snoc (other : entry.op ≠ .reject) :
    FreshRejection (history ++ [entry]) ↔
      FreshRejection history ∧ entry.made = none ∧ ∀ low, entry.op ≠ .tick low := by
  constructor
  · rintro ⟨early, reject, rest, same, isReject, quiet⟩
    rcases Lists.split_last same with ⟨rfl, -, -⟩ | ⟨rest', rfl, front⟩
    · exact absurd isReject other
    · have last := quiet entry (by simp)
      exact ⟨⟨early, reject, rest', front, isReject, fun e member => quiet e (by simp [member])⟩,
        last⟩
  · rintro ⟨⟨early, reject, rest, same, isReject, quiet⟩, silent, noTick⟩
    refine ⟨early, reject, rest ++ [entry], by simp [same], isReject, ?_⟩
    intro e member
    rcases List.mem_append.mp member with inside | last
    · exact quiet e inside
    · rw [List.mem_singleton.mp last]
      exact ⟨silent, noTick⟩

theorem PausedSince.snoc (paused : PausedSince since history) (silent : entry.made = none)
    (before : entry.op = .reject → entry.time ≤ since) :
    PausedSince since (history ++ [entry]) := by
  obtain ⟨early, pause, rest, same, isPause, young, quiet⟩ := paused
  refine ⟨early, pause, rest ++ [entry], by simp [same], isPause, young, ?_⟩
  intro e member
  rcases List.mem_append.mp member with inside | last
  · exact quiet e inside
  · rw [List.mem_singleton.mp last]
    exact ⟨silent, before⟩

theorem PausedSince.later {now : Nat} (paused : PausedSince since history) (later : since ≤ now) :
    PausedSince now history := by
  obtain ⟨early, pause, rest, same, isPause, young, quiet⟩ := paused
  exact ⟨early, pause, rest, same, isPause, Nat.le_trans young later, fun e member =>
    ⟨(quiet e member).1, fun reject => Nat.le_trans ((quiet e member).2 reject) later⟩⟩

theorem transitions_silent (silent : entry.made = none) :
    transitions (history ++ [entry]) = transitions history := by
  simp [transitions, silent]

theorem transitions_made (made : entry.made = some t) :
    transitions (history ++ [entry]) = transitions history ++ [t] := by
  simp [transitions, made]

theorem Alternates.snoc {ts : List Transition} (alternates : Alternates ts)
    (next : t = if ts.length % 2 = 0 then .pause else .resume) : Alternates (ts ++ [t]) := by
  intro i found at_i
  rcases Nat.lt_or_ge i ts.length with inside | outside
  · rw [List.getElem?_append_left inside] at at_i
    exact alternates i found at_i
  · rw [List.getElem?_append_right outside] at at_i
    have last : i - ts.length = 0 := by
      by_contra further
      rw [List.getElem?_eq_none (by simp; omega)] at at_i
      cases at_i
    have same : i = ts.length := by omega
    rw [last] at at_i
    cases at_i
    rw [same, next]

theorem Told.silent (told : Told params s) (none' : entry.made = none)
    (now : entry.time = s.1.clock) (same : w.controller.params = s.1.controller.params)
    (clock : s.1.clock ≤ w.clock)
    (normal : w.controller.state = .normal → s.1.controller.state = .normal)
    (paused : ∀ since, w.controller.state = .paused since → ∃ earlier,
      s.1.controller.state = .paused earlier ∧ earlier ≤ since ∧ since ≤ w.clock ∧
        (entry.op = .reject → s.1.clock ≤ since))
    (rejected : w.controller.rejected = true ↔ FreshRejection (s.2 ++ [entry])) :
    Told params (w, s.2 ++ [entry]) := by
  refine ⟨same.trans told.params, ?_, ?_, ?_, ?_, rejected⟩
  · intro e member
    rcases List.mem_append.mp member with inside | last
    · exact Nat.le_trans (told.past e inside) clock
    · rw [List.mem_singleton.mp last, now]
      exact clock
  · rw [transitions_silent none']
    exact told.alternates
  · intro isNormal
    rw [transitions_silent none']
    exact told.normal (normal isNormal)
  · intro since isPaused
    obtain ⟨earlier, was, later, within, restarted⟩ := paused since isPaused
    obtain ⟨-, odd, history⟩ := told.paused earlier was
    rw [transitions_silent none']
    refine ⟨within, odd, (history.later later).snoc none' ?_⟩
    intro reject
    rw [now]
    exact restarted reject

theorem told_start (params : BackpressureParams) (clock : Nat) :
    Told params (start params clock) := by
  refine ⟨rfl, by simp [start], ?_, fun _ => rfl, ?_, ?_⟩
  · intro i t found
    simp [start, transitions] at found
  · intro since paused
    cases paused
  · refine ⟨nofun, ?_⟩
    rintro ⟨early, entry, rest, same, -⟩
    simp [start] at same

/-- An operation that leaves the controller alone and takes no time off the clock. -/
theorem told_idle {op : Op} (told : Told params s) (same : w.controller = s.1.controller)
    (clock : s.1.clock ≤ w.clock) (notReject : op ≠ .reject) (notTick : ∀ low, op ≠ .tick low) :
    Told params (w, s.2 ++ [⟨op, s.1.clock, none⟩]) := by
  refine told.silent rfl rfl (by rw [same]) clock (by rw [same]; exact id) ?_ ?_
  · intro since paused
    rw [same] at paused
    exact ⟨since, paused, Nat.le_refl _, Nat.le_trans (told.paused since paused).1 clock,
      fun reject => absurd reject notReject⟩
  · rw [same, freshRejection_snoc notReject, told.rejected]
    exact ⟨fun fresh => ⟨fresh, rfl, notTick⟩, fun fresh => fresh.1⟩

theorem told_reject (told : Told params s) : Told params (take s .reject) := by
  have fresh := freshRejection_reject s.2 s.1.clock none
  cases state : s.1.controller.state with
  | normal =>
    have now : s.1.controller.onSendRejected s.1.clock =
        ⟨s.1.controller.params, .normal, true⟩ := by
      simp only [WatermarkController.onSendRejected, state]
    refine told.silent rfl rfl ?_ (Nat.le_refl _) ?_ ?_ ?_
    · change (s.1.controller.onSendRejected s.1.clock).params = _
      rw [now]
    · intro _
      exact state
    · intro since paused
      have still := (congrArg WatermarkController.state now).symm.trans paused
      cases still
    · exact ⟨fun _ => fresh, fun _ => congrArg WatermarkController.rejected now⟩
  | paused since =>
    have now : s.1.controller.onSendRejected s.1.clock =
        ⟨s.1.controller.params, .paused s.1.clock, true⟩ := by
      simp only [WatermarkController.onSendRejected, state]
    refine told.silent rfl rfl ?_ (Nat.le_refl _) ?_ ?_ ?_
    · change (s.1.controller.onSendRejected s.1.clock).params = _
      rw [now]
    · intro normal
      have still := (congrArg WatermarkController.state now).symm.trans normal
      cases still
    · intro restarted paused
      have still := (congrArg WatermarkController.state now).symm.trans paused
      cases still
      exact ⟨since, state, (told.paused since state).1, Nat.le_refl _, fun _ => Nat.le_refl _⟩
    · exact ⟨fun _ => fresh, fun _ => congrArg WatermarkController.rejected now⟩

inductive Ticked (w : World) (low : Bool) : WatermarkController × Option Transition → Prop
  | pauses (normal : w.controller.state = .normal)
      (pressed : w.controller.rejected = true ∨ w.controller.params.highBytes ≤ w.budget.usage) :
      Ticked w low (⟨w.controller.params, .paused w.clock, false⟩, some .pause)
  | runs (normal : w.controller.state = .normal) (accepted : w.controller.rejected = false)
      (room : w.budget.usage < w.controller.params.highBytes) : Ticked w low (w.controller, none)
  | consumes (since : Nat) (paused : w.controller.state = .paused since)
      (rejected : w.controller.rejected = true) :
      Ticked w low (⟨w.controller.params, w.controller.state, false⟩, none)
  | resumes (since : Nat) (paused : w.controller.state = .paused since)
      (accepted : w.controller.rejected = false)
      (drained : w.budget.usage ≤ w.controller.params.lowBytes) (queues : low = true)
      (elapsed : w.controller.params.minPause ≤ w.clock - since) :
      Ticked w low (⟨w.controller.params, .normal, w.controller.rejected⟩, some .resume)
  | waits (since : Nat) (paused : w.controller.state = .paused since)
      (accepted : w.controller.rejected = false) : Ticked w low (w.controller, none)

theorem ticked (w : World) (low : Bool) :
    Ticked w low (w.controller.tick w.clock w.budget low) := by
  unfold WatermarkController.tick
  split
  · rename_i normal
    split
    · rename_i pressed
      exact .pauses normal pressed
    · rename_i calm
      rw [not_or] at calm
      exact .runs normal (by simpa using calm.1) (by omega)
  · rename_i since paused
    split
    · rename_i rejected
      exact .consumes since paused rejected
    · rename_i accepted
      split
      · rename_i ready
        exact .resumes since paused (by simpa using accepted) ready.1.1 ready.1.2 ready.2
      · exact .waits since paused (by simpa using accepted)

theorem not_freshRejection_tick {time : Nat} {low : Bool} {made : Option Transition} :
    ¬ FreshRejection (history ++ [⟨.tick low, time, made⟩]) := by
  rw [freshRejection_snoc (by simp)]
  rintro ⟨-, -, noTick⟩
  exact noTick low rfl

theorem Told.made {low : Bool} (told : Told params s)
    (same : w.controller.params = s.1.controller.params) (clock : w.clock = s.1.clock)
    (accepted : w.controller.rejected = false)
    (turn : t = if (transitions s.2).length % 2 = 0 then .pause else .resume)
    (normal : w.controller.state = .normal → t = .resume)
    (paused : ∀ since, w.controller.state = .paused since → t = .pause ∧ since = s.1.clock) :
    Told params (w, s.2 ++ [⟨.tick low, s.1.clock, some t⟩]) := by
  have more : transitions (s.2 ++ [⟨.tick low, s.1.clock, some t⟩]) = transitions s.2 ++ [t] :=
    transitions_made rfl
  refine ⟨same.trans told.params, ?_, ?_, ?_, ?_, ?_⟩
  · intro e member
    rw [clock]
    rcases List.mem_append.mp member with inside | last
    · exact told.past e inside
    · rw [List.mem_singleton.mp last]
  · rw [more]
    exact told.alternates.snoc turn
  · intro isNormal
    rw [more, List.length_append, List.length_singleton]
    rw [normal isNormal] at turn
    split at turn
    · cases turn
    · omega
  · intro since isPaused
    obtain ⟨isPause, now⟩ := paused since isPaused
    rw [more, List.length_append, List.length_singleton, clock, now]
    rw [isPause] at turn ⊢
    refine ⟨Nat.le_refl _, ?_, s.2, _, [], rfl, rfl, Nat.le_refl _, by simp⟩
    split at turn
    · omega
    · cases turn
  · rw [accepted]
    exact ⟨nofun, fun fresh => absurd fresh not_freshRejection_tick⟩

theorem told_tick (told : Told params s) (low : Bool) : Told params (take s (.tick low)) := by
  have spec := ticked s.1 low
  change Told params (⟨(s.1.controller.tick s.1.clock s.1.budget low).1, s.1.budget, s.1.clock⟩,
    s.2 ++ [⟨.tick low, s.1.clock, (s.1.controller.tick s.1.clock s.1.budget low).2⟩])
  generalize s.1.controller.tick s.1.clock s.1.budget low = result at spec ⊢
  -- A tick that makes no transition and leaves no rejection behind.
  have quiet : ∀ c : WatermarkController, c.params = s.1.controller.params →
      c.state = s.1.controller.state → c.rejected = false →
      Told params (⟨c, s.1.budget, s.1.clock⟩, s.2 ++ [⟨.tick low, s.1.clock, none⟩]) := by
    intro c same state accepted
    refine told.silent rfl rfl same (Nat.le_refl _) (by rw [← state]; exact id) ?_ ?_
    · intro since paused
      have was := state.symm.trans paused
      exact ⟨since, was, Nat.le_refl _, (told.paused since was).1, nofun⟩
    · rw [accepted]
      exact ⟨nofun, fun fresh => absurd fresh not_freshRejection_tick⟩
  cases spec with
  | pauses normal _ =>
    have even := told.normal normal
    refine told.made rfl rfl rfl (by rw [if_pos even]) nofun ?_
    intro since paused
    cases paused
    exact ⟨rfl, rfl⟩
  | runs _ accepted | waits _ _ accepted => exact quiet s.1.controller rfl rfl accepted
  | consumes since paused _ => exact quiet _ rfl rfl rfl
  | resumes since paused accepted _ _ _ =>
    have odd := (told.paused since paused).2.1
    exact told.made rfl rfl accepted (by rw [if_neg (by omega)]) (fun _ => rfl)
      nofun

theorem told_take (told : Told params s) (op : Op) : Told params (take s op) := by
  cases op with
  | add | sub => exact told_idle told rfl (Nat.le_refl _) (by simp) (by simp)
  | advance d => exact told_idle told rfl (Nat.le_add_right _ d) (by simp) (by simp)
  | reject => exact told_reject told
  | tick low => exact told_tick told low

theorem told_after (params : BackpressureParams) (clock : Nat) (ops : List Op) :
    Told params (after params clock ops) := by
  induction ops using List.reverseRecOn with
  | nil => exact told_start params clock
  | append_singleton ops op ih =>
    rw [after, List.foldl_append]
    exact told_take ih op

theorem PausedSince.last (paused : PausedSince since history) :
    (transitions history).getLast? = some .pause := by
  obtain ⟨early, pause, rest, rfl, isPause, -, quiet⟩ := paused
  have silent : transitions rest = [] :=
    List.filterMap_eq_nil_iff.mpr fun e member => (quiet e member).1
  have split : transitions (early ++ pause :: rest) = transitions early ++ [.pause] := by
    unfold transitions at silent ⊢
    rw [List.filterMap_append, List.filterMap_cons_some isPause, silent]
  rw [split, List.getLast?_concat]

/-- The controller is paused exactly when its last transition is a pause. -/
theorem Told.isPaused_iff (told : Told params s) :
    s.1.controller.isPaused = true ↔ (transitions s.2).getLast? = some .pause := by
  cases state : s.1.controller.state with
  | normal =>
    have even := told.normal state
    rw [WatermarkController.isPaused, state]
    refine ⟨nofun, fun last => ?_⟩
    rw [List.getLast?_eq_getElem?] at last
    have turn := told.alternates _ _ last
    have some' : (transitions s.2).length ≠ 0 := by
      intro empty
      rw [List.length_eq_zero_iff.mp empty] at last
      cases last
    rw [if_neg (by omega)] at turn
    cases turn
  | paused since =>
    rw [WatermarkController.isPaused, state]
    exact ⟨fun _ => (told.paused since state).2.2.last, fun _ => rfl⟩

/-- The hysteresis law at any tick of any history: what the transitions before it look like,
when it resumes, when it pauses, and when it has to. -/
theorem hysteresis (params : BackpressureParams) (clock : Nat) (ops : List Op) (low : Bool) :
    let s := after params clock ops
    let next := s.1.step (.tick low)
    Alternates (transitions s.2) ∧
    (s.1.controller.isPaused = true ↔ (transitions s.2).getLast? = some .pause) ∧
    (next.2 = some .resume →
      s.1.budget.usage ≤ params.lowBytes ∧ low = true ∧
      (∃ early pause rest, s.2 = early ++ pause :: rest ∧ pause.made = some .pause ∧
        pause.time + params.minPause ≤ s.1.clock ∧
        ∀ e ∈ rest, e.made = none ∧ (e.op = .reject → e.time + params.minPause ≤ s.1.clock)) ∧
      ¬ FreshRejection s.2 ∧ next.1.controller.rejected = false) ∧
    (next.2 = some .pause → s.1.controller.isPaused = false ∧
      (params.highBytes ≤ s.1.budget.usage ∨ FreshRejection s.2)) ∧
    (s.1.controller.isPaused = false →
      params.highBytes ≤ s.1.budget.usage ∨ FreshRejection s.2 → next.2 = some .pause) := by
  intro s next
  have told : Told params s := told_after params clock ops
  have spec := ticked s.1 low
  have made : next.2 = (s.1.controller.tick s.1.clock s.1.budget low).2 := rfl
  have then' : next.1.controller = (s.1.controller.tick s.1.clock s.1.budget low).1 := rfl
  rw [made, then', ← told.params, ← told.rejected]
  refine ⟨told.alternates, told.isPaused_iff, ?_⟩
  generalize s.1.controller.tick s.1.clock s.1.budget low = result at spec ⊢
  cases spec with
  | pauses normal pressed =>
    refine ⟨nofun, fun _ => ⟨by rw [WatermarkController.isPaused, normal], pressed.symm⟩,
      fun _ _ => rfl⟩
  | runs normal accepted room =>
    refine ⟨nofun, nofun, fun _ pressed => ?_⟩
    rcases pressed with high | rejected
    · omega
    · rw [accepted] at rejected
      cases rejected
  | consumes _ paused | waits _ paused =>
    refine ⟨nofun, nofun, fun unpaused => ?_⟩
    rw [WatermarkController.isPaused, paused] at unpaused
    cases unpaused
  | resumes since paused accepted drained queues elapsed =>
    obtain ⟨past, -, early, pause, rest, same, isPause, young, quiet⟩ := told.paused since paused
    refine ⟨fun _ => ⟨drained, queues, ⟨early, pause, rest, same, isPause, by omega, ?_⟩,
      by simp [accepted], accepted⟩, nofun, fun unpaused => ?_⟩
    · intro e member
      refine ⟨(quiet e member).1, fun reject => ?_⟩
      have old := (quiet e member).2 reject
      omega
    · rw [WatermarkController.isPaused, paused] at unpaused
      cases unpaused

/-- A thread that is pressed twice: it pauses over the high mark, sees a rejection while
paused, drains and waits. -/
def pressed : List Op :=
  [.add 900, .tick false, .advance 300, .reject, .tick true, .sub 900, .advance 500]

theorem hysteresis_pressed :
    let s := after ⟨800, 500, 500⟩ 0 pressed
    (s.1.step (.tick true)).2 = some .resume ∧ ¬ FreshRejection s.2 ∧
    (s.1.step (.tick true)).1.controller.rejected = false ∧
    ((after ⟨800, 500, 500⟩ 0 [.reject]).1.step (.tick true)).2 = some .pause := by
  have resumes : ((after ⟨800, 500, 500⟩ 0 pressed).1.step (.tick true)).2 = some .resume := by
    decide
  have law := (hysteresis ⟨800, 500, 500⟩ 0 pressed true).2.2.1 resumes
  refine ⟨resumes, law.2.2.2.1, law.2.2.2.2, ?_⟩
  exact (hysteresis ⟨800, 500, 500⟩ 0 [.reject] true).2.2.2.2 (by decide)
    (.inr (freshRejection_reject [] 0 none))

end Spate.Backpressure
