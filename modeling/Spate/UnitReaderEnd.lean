import Spate.UnitReaderApart
import Spate.UnitReaderReceipts

set_option autoImplicit false

/- A bounded job drains only on a worker with nothing in hand. What the end check has
counted lies in the recent part of the log: since it last started over the reader held
nothing and received nothing, and every answer was asked for there. -/
namespace Spate.S3

open Spate.Feed
open Std (TreeMap)

/-- The reader held nothing, and received nothing. -/
def Moment.quiet (moment : Moment) : Bool := !moment.holds && moment.happening.receives.isEmpty

/-- The read an entry answers. -/
def EndRead.of : EndEntry → Option EndRead
  | .marker .. => some .marker
  | .depth of .. => some (.depth of)
  | .receive .. => some .receive
  | .restart _ => none

def Happening.told : Happening → Option EndEntry
  | .checked entry => some entry
  | _ => none

/-- What the check was told. -/
def told (recent : List Moment) : List EndEntry :=
  (recent.map Moment.happening).filterMap Happening.told

/-- Every answer was asked for and consumed before it was counted. -/
def Asked (history : List Happening) : Prop :=
  ∀ before after entry, history = before ++ .checked entry :: after →
    ∃ read, EndRead.of entry = some read ∧ .asked read entry.requested ∈ before ∧
      .consumed read entry.requested ∈ before

/-- Once the check's closing receive took nothing, no receive failed. -/
def Undisturbed (history : List Happening) : Prop :=
  ∀ before after requested answered,
    history = before ++ .checked (.receive requested answered false) :: after →
    .receiveFailed ∉ after

structure Watched (window : Option Nat) (check : EndCheck) (closed : Bool) (now : Nat)
    (recent : List Moment) : Prop where
  consistent : (⟨check, now, told recent⟩ : Watch).Consistent window
  quiet : ∀ moment ∈ recent, moment.quiet = true
  pending : ∀ read requested, check.pending = some (read, requested) →
    .asked read requested ∈ recent.map Moment.happening
  asked : Asked (recent.map Moment.happening)
  closing : closed = false → ∀ requested answered,
    .checked (.receive requested answered false) ∉ recent.map Moment.happening
  undisturbed : Undisturbed (recent.map Moment.happening)

section

variable {window : Option Nat} {check : EndCheck} {closed : Bool} {now : Nat}
  {recent : List Moment} {moment : Moment}

theorem Asked.append {history : List Happening} (asked : Asked history) {happening : Happening}
    (last : ∀ entry, happening = .checked entry → ∃ read, EndRead.of entry = some read ∧
      .asked read entry.requested ∈ history ∧ .consumed read entry.requested ∈ history) :
    Asked (history ++ [happening]) := by
  intro before after entry same
  rcases Lists.split_last same with ⟨new, rfl, -⟩ | ⟨rest, -, same⟩
  · exact last entry new
  · exact asked before rest entry same

theorem Undisturbed.append {history : List Happening} (undisturbed : Undisturbed history)
    {happening : Happening} (harmless : happening = .receiveFailed →
      ∀ requested answered, .checked (.receive requested answered false) ∉ history) :
    Undisturbed (history ++ [happening]) := by
  intro before after requested answered same failed
  rcases Lists.split_last same with ⟨-, -, rfl⟩ | ⟨rest, rfl, earlier⟩
  · cases failed
  · rcases List.mem_append.mp failed with failed | last
    · exact undisturbed before rest requested answered earlier failed
    · refine harmless (List.mem_singleton.mp last).symm requested answered ?_
      rw [earlier]
      simp

theorem Watched.start {due : Nat} (mode : check.window = window) (idle : check.pending = none)
    (opening : check.phase = .opening due) (closed : Bool) (now : Nat) :
    Watched window check closed now [] where
  consistent := {
    mode := mode
    supported := by
      change Supported window check.phase _
      rw [opening]
      trivial
    pending := fun read requested outstanding => by
      change check.pending = _ at outstanding
      rw [idle] at outstanding
      cases outstanding
    past := nofun
    ordered := .nil }
  quiet := nofun
  pending := fun read requested outstanding => by
    rw [idle] at outstanding
    cases outstanding
  asked := fun before after entry same => by simp at same
  closing := by simp
  undisturbed := fun before after requested answered same => by simp at same

theorem Watched.later (watched : Watched window check closed now recent) {next : Nat}
    (later : now ≤ next) : Watched window check closed next recent :=
  { watched with
    consistent := watched.consistent.silent later rfl watched.consistent.supported (by
      intro read requested outstanding
      obtain ⟨asks, asked, after⟩ := watched.consistent.pending read requested outstanding
      exact ⟨asks, Nat.le_trans asked later, after⟩) }

theorem Watched.append (watched : Watched window check closed now recent)
    (quiet : moment.quiet = true) (silent : moment.happening.told = none)
    (harmless : moment.happening = .receiveFailed → closed = false) :
    Watched window check closed now (recent ++ [moment]) := by
  have same : told (recent ++ [moment]) = told recent := by
    simp [told, silent]
  have unchecked : ∀ entry, moment.happening ≠ .checked entry := by
    intro entry is
    rw [is] at silent
    cases silent
  exact {
    consistent := same ▸ watched.consistent
    quiet := by
      intro other member
      rcases List.mem_append.mp member with member | last
      · exact watched.quiet other member
      · exact List.mem_singleton.mp last ▸ quiet
    pending := fun read requested outstanding => by
      rw [List.map_append]
      exact List.mem_append_left _ (watched.pending read requested outstanding)
    asked := by
      rw [List.map_append]
      exact watched.asked.append fun entry is => absurd is (unchecked entry)
    closing := fun open' requested answered member => by
      rw [List.map_append] at member
      rcases List.mem_append.mp member with member | last
      · exact watched.closing open' requested answered member
      · exact unchecked _ (List.mem_singleton.mp last).symm
    undisturbed := by
      rw [List.map_append]
      exact watched.undisturbed.append fun failed => watched.closing (harmless failed) }

theorem Watched.appendAll (watched : Watched window check closed now recent)
    {extra : List Moment} (quiet : ∀ moment ∈ extra, moment.quiet = true)
    (silent : ∀ moment ∈ extra, moment.happening.told = none)
    (harmless : ∀ moment ∈ extra, moment.happening ≠ .receiveFailed) :
    Watched window check closed now (recent ++ extra) := by
  induction extra using List.reverseRecOn with
  | nil => simpa using watched
  | append_singleton extra last ih =>
    rw [← List.append_assoc]
    refine (ih ?_ ?_ ?_).append (quiet last (by simp)) (silent last (by simp))
      fun failed => absurd failed (harmless last (by simp))
    · exact fun moment member => quiet moment (List.mem_append_left _ member)
    · exact fun moment member => silent moment (List.mem_append_left _ member)
    · exact fun moment member => harmless moment (List.mem_append_left _ member)

/-- The check moves on; a read it asks for is asked for in the log. -/
theorem Watched.next (watched : Watched window check closed now recent)
    (asked : ∀ read requested, (check.next now).1.pending = some (read, requested) →
      .asked read requested ∈ recent.map Moment.happening) :
    Watched window (check.next now).1 closed now recent :=
  { watched with
    consistent := watched.consistent.next (Nat.le_refl now)
    pending := asked }

theorem Watched.answered (watched : Watched window check closed now recent) {entry : EndEntry}
    {read : EndRead} (is : EndRead.of entry = some read)
    (outstanding : check.pending = some (read, entry.requested))
    (consumed : .consumed read entry.requested ∈ recent.map Moment.happening) {after : EndCheck}
    (consistent : (⟨after, now, told recent ++ [entry]⟩ : Watch).Consistent window)
    (idle : after.pending = none) {shut : Bool} (closes : shut = false → closed = false ∧
      ∀ requested answered, entry ≠ .receive requested answered false) :
    Watched window after shut now (recent ++ [⟨.checked entry, false⟩]) where
  consistent := by
    have same : told (recent ++ [⟨.checked entry, false⟩]) = told recent ++ [entry] := by
      simp [told, Happening.told]
    rw [same]
    exact consistent
  quiet := by
    intro other member
    rcases List.mem_append.mp member with member | last
    · exact watched.quiet other member
    · rw [List.mem_singleton.mp last]
      rfl
  pending := fun read requested outstanding => by
    rw [idle] at outstanding
    cases outstanding
  asked := by
    rw [List.map_append]
    refine watched.asked.append fun other same => ?_
    obtain rfl := Happening.checked.inj same
    exact ⟨read, is, watched.pending _ _ outstanding, consumed⟩
  closing := fun open' requested answered member => by
    rw [List.map_append] at member
    rcases List.mem_append.mp member with member | last
    · exact watched.closing (closes open').1 requested answered member
    · exact (closes open').2 requested answered
        (Happening.checked.inj (List.mem_singleton.mp last)).symm
  undisturbed := by
    rw [List.map_append]
    exact watched.undisturbed.append nofun

end

/-! ## The check asks a bounded number of times -/

section

variable {window : Option Nat} {check : EndCheck} {now : Nat} {log : List EndEntry}

/-- How often the check can still be asked at `now` before it waits or ends. -/
def rank (check : EndCheck) (now : Nat) : Nat :=
  if check.pending.isSome then 1
  else
    match check.phase with
    | .ended _ => 1
    | .opening due => if now < due then 1 else if check.window = none then 4 else 2
    | .window _ _ last due =>
        if last + endCheckInterval < now then 2 else if now < due then 1 else 3
    | .closing _ => 2
    | .receiving => 3
    | .deadLetters due => if now < due then 1 else 2

/-- What the check does when it is asked at `now`. -/
inductive Turn (check : EndCheck) (now : Nat) : EndCheck → EndAction → Prop
  | outstanding {pending : EndRead × Nat} (is : check.pending = some pending) :
      Turn check now check (.wait none)
  | wait {after : EndCheck} {due : Option Nat} (idle : check.pending = none)
      (waits : after.pending = none) (live : after.outcome = none) :
      Turn check now after (.wait due)
  | ended {after : EndCheck} {outcome : EndOutcome} (idle : check.pending = none)
      (waits : after.pending = none) (is : after.outcome = some outcome) :
      Turn check now after (.ended outcome)
  | marker {after : EndCheck} (idle : check.pending = none)
      (pending : after.pending = some (.marker, now)) (more : 1 < rank check now) :
      Turn check now after .readMarker
  | depth {after : EndCheck} {of : DepthOf} (idle : check.pending = none)
      (pending : after.pending = some (.depth of, now)) (more : 1 < rank check now)
      (fewer : ∀ read, rank (after.depthRead now read) now < rank check now) :
      Turn check now after (.readDepth of)
  | receive {after : EndCheck} (idle : check.pending = none)
      (pending : after.pending = some (.receive, now)) (more : 2 < rank check now) :
      Turn check now after .receive

end

/-! ## A reader that holds nothing -/

namespace UnitReader

structure Free (r : UnitReader) : Prop where
  deliveries : r.deliveries.isEmpty = true
  lanes : r.lanes.isEmpty = true
  revoked : r.revoked = []
  retired : r.retired = []
  unsentFails : r.unsentFails = []

theorem free_iff {r : UnitReader} : r.holdsWork = false ↔ r.Free := by
  simp only [holdsWork, Bool.not_eq_false', Bool.and_eq_true, List.isEmpty_iff]
  constructor
  · rintro ⟨⟨⟨⟨deliveries, lanes⟩, revoked⟩, retired⟩, unsentFails⟩
    exact ⟨deliveries, lanes, revoked, retired, unsentFails⟩
  · rintro ⟨deliveries, lanes, revoked, retired, unsentFails⟩
    exact ⟨⟨⟨⟨deliveries, lanes⟩, revoked⟩, retired⟩, unsentFails⟩

theorem Free.fields {r next : UnitReader} (free : r.Free)
    (deliveries : next.deliveries = r.deliveries)
    (lanes : next.lanes = r.lanes) (revoked : next.revoked = r.revoked)
    (retired : next.retired = r.retired) (unsentFails : next.unsentFails = r.unsentFails) :
    next.Free :=
  ⟨deliveries ▸ free.deliveries, lanes ▸ free.lanes, revoked ▸ free.revoked, retired ▸ free.retired,
    unsentFails ▸ free.unsentFails⟩

theorem Free.noDeliveries {r : UnitReader} (free : r.Free) : r.deliveries.toList = [] :=
  List.isEmpty_iff.mp (TreeMap.isEmpty_toList.trans free.deliveries)

theorem Free.noLanes {r : UnitReader} (free : r.Free) : r.lanes.toList = [] :=
  List.isEmpty_iff.mp (TreeMap.isEmpty_toList.trans free.lanes)

theorem Free.noLane {r : UnitReader} (free : r.Free) (partition : PartitionId) :
    r.lanes[partition]? = none :=
  TreeMap.getElem?_of_isEmpty free.lanes

/-- Nothing but the lanes of earlier deliveries ran. -/
structure Still (r next : UnitReader) : Prop where
  ending : next.ending = r.ending
  free : next.Free
  time : r.time ≤ next.time
  log : ∃ extra, next.log = r.log ++ extra ∧ ∀ moment ∈ extra, moment.quiet = true ∧
    moment.happening.told = none ∧ moment.happening ≠ .receiveFailed

theorem Still.refl {r : UnitReader} (free : r.Free) : r.Still r :=
  ⟨rfl, free, Nat.le_refl _, [], by simp, by simp⟩

theorem Still.trans {r middle next : UnitReader} (first : r.Still middle)
    (second : middle.Still next) : r.Still next := by
  obtain ⟨left, leftLog, leftQuiet⟩ := first.log
  obtain ⟨right, rightLog, rightQuiet⟩ := second.log
  refine ⟨second.ending.trans first.ending, second.free, Nat.le_trans first.time second.time,
    left ++ right, by rw [rightLog, leftLog, List.append_assoc], fun moment member => ?_⟩
  exact (List.mem_append.mp member).elim (leftQuiet moment) (rightQuiet moment)

theorem still_record {r : UnitReader} (free : r.Free) {happening : Happening}
    (empty : happening.receives = []) (silent : happening.told = none)
    (harmless : happening ≠ .receiveFailed) : r.Still (r.record happening) := by
  refine ⟨rfl, free.fields rfl rfl rfl rfl rfl, Nat.le_refl _, [⟨happening, r.holdsWork⟩], rfl,
    fun moment member => ?_⟩
  rw [List.mem_singleton.mp member]
  refine ⟨?_, silent, harmless⟩
  simp [Moment.quiet, free_iff.mpr free, empty]

theorem still_same {r next : UnitReader} (free : next.Free) (ending : next.ending = r.ending)
    (time : r.time ≤ next.time) (log : next.log = r.log) : r.Still next :=
  ⟨ending, free, time, [], by simpa using log, by simp⟩

theorem still_laneEvent {r : UnitReader} (free : r.Free) (event : LaneEvent) :
    r.Still (r.laneEvent event) := by
  cases event with
  | report | terminal =>
    rw [laneEvent]
    split
    · refine Still.trans ?_ (still_record ?_ (by rfl) (by rfl) (by simp))
      · exact still_same (free.fields rfl rfl rfl rfl rfl) rfl (Nat.le_refl _) rfl
      · exact free.fields rfl rfl rfl rfl rfl
    · exact .refl free

theorem still_laneEvents (events : List LaneEvent) :
    ∀ {r : UnitReader}, r.Free → r.Still (events.foldl laneEvent r) := by
  induction events with
  | nil => exact fun free => .refl free
  | cons event rest ih =>
    intro r free
    have first := still_laneEvent free event
    exact first.trans (ih first.free)

variable (env : Environment)

theorem still_tick {r : UnitReader} (free : r.Free) : r.Still r.tick :=
  still_same (free.fields rfl rfl rfl rfl rfl) rfl (Nat.le_succ _) rfl

theorem still_interfere {r : UnitReader} (free : r.Free) : r.Still (r.interfere env) :=
  have ran := still_laneEvents (env.lanes r.time) free
  ran.trans (still_tick ran.free)

theorem readReport_free {r : UnitReader} (free : r.Free) (partition : PartitionId)
    (report : PoisonReport) : r.readReport partition report = r := by
  unfold readReport onOverwrite
  rw [free.noLane]
  split <;> rfl

theorem still_drain (count : Nat) :
    ∀ {r : UnitReader}, r.Free → r.Still (drain count r) := by
  induction count with
  | zero => exact fun free => .refl free
  | succ count ih =>
    intro r free
    rw [drain]
    split
    · exact .refl free
    · rename_i partition report rest _
      have popped : Free { r with channel := rest } := free.fields rfl rfl rfl rfl rfl
      have same : r.Still { r with channel := rest } := still_same popped rfl (Nat.le_refl _) rfl
      rw [readReport_free popped]
      exact same.trans (ih popped)

theorem still_readReports {r : UnitReader} (free : r.Free) : r.Still (r.readReports env) :=
  have ran := still_interfere env free
  ran.trans (still_drain _ ran.free)

theorem deliveriesWhere_free {r : UnitReader} (free : r.Free) (p : HeldUnit → Bool) :
    r.deliveriesWhere p = [] := by
  rw [deliveriesWhere, free.noDeliveries]
  rfl

theorem checkReEnqueues_free {r : UnitReader} (free : r.Free) :
    r.checkReEnqueues env = (r, none) := by
  rw [checkReEnqueues, free.noDeliveries]
  rfl

theorem renewEach_free {r : UnitReader} (free : r.Free) : r.renewEach env = (r, none) := by
  rw [renewEach, free.noDeliveries]
  rfl

theorem resendFails_free {r : UnitReader} (free : r.Free) :
    r.resendFails env = ({ r with unsentFails := [] }, none) := by
  rw [resendFails, free.unsentFails]
  rfl

theorem sweep_free {r : UnitReader} (free : r.Free) : r.sweep env = (r.readReports env, none) := by
  rw [sweep, free.noLanes, List.foldl_nil, free.noLanes]
  simp only [lanesEnded, List.foldl_nil]
  rw [deliveriesWhere_free (still_readReports env free).free]
  rfl

theorem still_settle {r : UnitReader} (free : r.Free) (ok : (r.settle env).2 = none) :
    r.Still (r.settle env).1 := by
  unfold settle at ok ⊢
  split
  · rename_i error failed
    rw [failed] at ok
    cases ok
  · dsimp only
    have read := still_readReports env free
    rw [checkReEnqueues_free env read.free]
    simp only [andThen]
    rw [deliveriesWhere_free read.free]
    simp only [forEach]
    rw [resendFails_free env read.free]
    have emptied : Free { r.readReports env with unsentFails := [] } :=
      ⟨read.free.deliveries, read.free.lanes, read.free.revoked, read.free.retired, rfl⟩
    have again := still_readReports env emptied
    simp only
    rw [sweep_free env emptied]
    simp only
    rw [renewEach_free env again.free]
    exact (read.trans (still_same emptied rfl (Nat.le_refl _) rfl)).trans again

theorem openLoop_free {r : UnitReader} (free : r.Free) (count : Nat) :
    openLoop count r = ([], r) := by
  cases count with
  | zero => rfl
  | succ count =>
    rw [openLoop, free.noDeliveries]
    split <;> rfl

/-! ## Calls of the end check -/

/-- What the reader holds does not change. -/
structure Beside (r next : UnitReader) : Prop where
  deliveries : next.deliveries = r.deliveries
  lanes : next.lanes = r.lanes
  revoked : next.revoked = r.revoked
  retired : next.retired = r.retired
  unsentFails : next.unsentFails = r.unsentFails
  stopping : next.stopping = r.stopping

theorem Beside.refl (r : UnitReader) : r.Beside r := ⟨rfl, rfl, rfl, rfl, rfl, rfl⟩

theorem Beside.free {r next : UnitReader} (beside : r.Beside next) (free : r.Free) : next.Free :=
  free.fields beside.deliveries beside.lanes beside.revoked beside.retired beside.unsentFails

theorem Beside.trans {r middle next : UnitReader} (first : r.Beside middle)
    (second : middle.Beside next) : r.Beside next :=
  ⟨second.deliveries.trans first.deliveries, second.lanes.trans first.lanes,
    second.revoked.trans first.revoked, second.retired.trans first.retired,
    second.unsentFails.trans first.unsentFails, second.stopping.trans first.stopping⟩

theorem beside_record (r : UnitReader) (happening : Happening) : r.Beside (r.record happening) :=
  ⟨rfl, rfl, rfl, rfl, rfl, rfl⟩

theorem beside_setEnding (r : UnitReader) (ending : Option JobEnd) :
    r.Beside { r with ending := ending } :=
  ⟨rfl, rfl, rfl, rfl, rfl, rfl⟩

theorem tell_entry {r : UnitReader} {ending : JobEnd} {check : EndCheck}
    (is : r.ending = some ending) (running : ending.check = some check) {call : EndCall}
    {entry : EndEntry} (logged : Watch.entry check call = some entry) :
    r.tell call = record { r with
      ending := some { ending with check := some (Watch.perform check call) } }
        (.checked entry) := by
  have found : r.ending.bind JobEnd.check = some check := by
    rw [is]
    exact running
  unfold tell
  rw [found]
  simp [logged, is]

/-! ## The check started over -/

/-- What tells the job that its lister has finished, as a window. -/
def finishWindow : Finish → Option Nat
  | .marker window => some window
  | .solo _ => none

structure Fits (window : Option Nat) (ending : JobEnd) (history : List Happening) : Prop where
  mode : finishWindow ending.finish = window
  listed : ending.finish = .solo true → .listerFinished ∈ history
  started : ∀ check, ending.check = some check → check.window = window ∧
    ending.finish ≠ .solo false

theorem Fits.extend {window : Option Nat} {ending : JobEnd} {history longer : List Happening}
    (fits : Fits window ending history) (more : history <+: longer) : Fits window ending longer :=
  { fits with listed := fun finished => more.subset (fits.listed finished) }

/-- The check starts from its first read, and none is outstanding. -/
structure Reset (window : Option Nat) (r : UnitReader) (ending : JobEnd) : Prop where
  is : r.ending = some ending
  fits : Fits window ending r.history
  marker : ending.markerRead = none
  depth : ending.depthRead = none
  fresh : ∀ check, ending.check = some check → check.pending = none ∧
    ∃ due, check.phase = .opening due

/-- The reader holds nothing, and the check has counted what the recent log shows. -/
structure Watching (window : Option Nat) (now : Nat) (r : UnitReader) (ending : JobEnd)
    (check : EndCheck) : Prop where
  is : r.ending = some ending
  running : ending.check = some check
  free : r.Free
  fits : Fits window ending r.history
  marker : ∀ asked, ending.markerRead = some asked → check.pending = some (.marker, asked)
  depth : ∀ of asked, ending.depthRead = some (of, asked) →
    check.pending = some (.depth of, asked)
  recent : ∃ earlier recent, r.log = earlier ++ recent ∧
    Watched window check ending.closed now recent

section

variable {window : Option Nat} {now : Nat} {r next : UnitReader} {ending : JobEnd}
  {check : EndCheck}

theorem history_grows (log : r.log <+: next.log) : r.history <+: next.history := by
  obtain ⟨extra, log⟩ := log
  exact ⟨extra.map Moment.happening, by simp [history, ← log]⟩

theorem Reset.apart (reset : Reset window r ending) (apart : r.Apart next) :
    Reset window next ending :=
  { reset with
    is := apart.ending.trans reset.is
    fits := reset.fits.extend (history_grows apart.log) }

theorem Reset.watching (reset : Reset window r ending) (running : ending.check = some check)
    (free : r.Free) (now : Nat) : Watching window now r ending check := by
  obtain ⟨idle, due, opening⟩ := reset.fresh check running
  refine ⟨reset.is, running, free, reset.fits, ?_, ?_, r.log, [], by simp, ?_⟩
  · simp [reset.marker]
  · simp [reset.depth]
  · exact .start (reset.fits.started check running).1 idle opening _ _

theorem Watching.still (watching : Watching window now r ending check) (still : r.Still next) :
    Watching window now next ending check := by
  obtain ⟨earlier, recent, log, watched⟩ := watching.recent
  obtain ⟨extra, more, quiet⟩ := still.log
  refine { watching with
    is := still.ending.trans watching.is
    free := still.free
    fits := watching.fits.extend (history_grows ⟨extra, more.symm⟩)
    recent := ⟨earlier, recent ++ extra, ?_, ?_⟩ }
  · rw [more, log, List.append_assoc]
  · exact watched.appendAll (fun moment member => (quiet moment member).1)
      (fun moment member => (quiet moment member).2.1)
      fun moment member => (quiet moment member).2.2

theorem Watching.later (watching : Watching window now r ending check) {after : Nat}
    (later : now ≤ after) : Watching window after r ending check := by
  obtain ⟨earlier, recent, log, watched⟩ := watching.recent
  exact { watching with recent := ⟨earlier, recent, log, watched.later later⟩ }

end

/-- Between two calls: the check started over, or the reader holds nothing and the check
goes on. -/
def Tends (env : Environment) (window : Option Nat) (r : UnitReader) : Prop :=
  (∃ ending, Reset window r ending) ∨
    ∃ ending check, Watching window (env.clock r.time) r ending check ∧ check.outcome = none

theorem reset_busy {window : Option Nat} {r : UnitReader} {ending : JobEnd}
    (is : r.ending = some ending) (fits : Fits window ending r.history)
    (idle : ending.check = none → ending.markerRead = none ∧ ending.depthRead = none)
    (live : ∀ check, ending.check = some check → check.outcome = none) :
    ∃ after, Reset window (r.busy env) after := by
  unfold busy
  rw [is]
  dsimp only
  cases running : ending.check with
  | none =>
    simp only [Option.isSome_none]
    refine ⟨_, rfl, ?_, (idle running).1, (idle running).2, ?_⟩
    · exact ⟨fits.mode, fits.listed, by simp⟩
    · simp
  | some check =>
    simp only [Option.isSome_some, if_true]
    have logged : Watch.entry check (.restart (env.clock r.time)) =
      some (.restart (env.clock r.time)) := rfl
    rw [tell_entry (by rfl) (by rfl) logged]
    have restarted : (check.restart (env.clock r.time)).pending = none ∧
        (∃ due, (check.restart (env.clock r.time)).phase = .opening due) ∧
        (check.restart (env.clock r.time)).window = check.window := by
      have live := live check running
      unfold EndCheck.restart
      split
      · rename_i outcome phase
        simp [EndCheck.outcome, phase] at live
      · exact ⟨rfl, ⟨_, rfl⟩, rfl⟩
    obtain ⟨mode, unfinished⟩ := fits.started check running
    refine ⟨_, rfl, ⟨fits.mode, fun finished => ?_, ?_⟩, rfl, rfl, ?_⟩
    · exact (history_grows ⟨[_], rfl⟩).subset (fits.listed finished)
    · rintro after ⟨⟩
      exact ⟨restarted.2.2.trans mode, unfinished⟩
    · rintro after ⟨⟩
      exact ⟨restarted.1, restarted.2.1⟩

theorem Tends.busy {env : Environment} {window : Option Nat} {r next : UnitReader}
    (tends : Tends env window r) (apart : r.Apart next) :
    ∃ ending, Reset window (next.busy env) ending := by
  rcases tends with ⟨ending, reset⟩ | ⟨ending, check, watching, live⟩
  · refine reset_busy env (apart.ending.trans reset.is)
      (reset.fits.extend (history_grows apart.log)) (fun _ => ⟨reset.marker, reset.depth⟩) ?_
    intro check running
    obtain ⟨-, due, opening⟩ := reset.fresh check running
    simp [EndCheck.outcome, opening]
  · refine reset_busy env (apart.ending.trans watching.is)
      (watching.fits.extend (history_grows apart.log)) (fun none => ?_) fun other running => ?_
    · exact absurd (none.symm.trans watching.running) (by simp)
    · obtain rfl := Option.some.inj (watching.running.symm.trans running)
      exact live

theorem beside_tell (r : UnitReader) (call : EndCall) : r.Beside (r.tell call) := by
  unfold tell
  split
  · exact .refl r
  · rename_i check _
    cases Watch.entry check call with
    | none => exact beside_setEnding r _
    | some entry => exact (beside_setEnding r _).trans (beside_record _ _)

section

variable {env : Environment} {window : Option Nat} {now : Nat} {r next : UnitReader}
  {ending : JobEnd} {check : EndCheck}

variable {call : EndCall} {entry : EndEntry}

/-- Fields of the end check the reads do not depend on. -/
theorem Watching.set (watching : Watching window now r ending check) (f : JobEnd → JobEnd)
    (running : (f ending).check = some check) (finish : (f ending).finish = ending.finish)
    (closed : (f ending).closed = ending.closed)
    (marker : ∀ asked, (f ending).markerRead = some asked → check.pending = some (.marker, asked))
    (depth : ∀ of asked, (f ending).depthRead = some (of, asked) →
      check.pending = some (.depth of, asked)) :
    Watching window now (r.setEnding f) (f ending) check where
  is := congrArg (Option.map f) watching.is
  running := running
  free := watching.free.fields rfl rfl rfl rfl rfl
  fits := by
    refine ⟨finish ▸ watching.fits.mode, finish ▸ watching.fits.listed, fun other same => ?_⟩
    obtain rfl := Option.some.inj (running.symm.trans same)
    exact finish ▸ watching.fits.started check watching.running
  marker := marker
  depth := depth
  recent := by
    rw [closed]
    exact watching.recent

theorem Watching.record (watching : Watching window now r ending check) {happening : Happening}
    (empty : happening.receives = []) (silent : happening.told = none)
    (harmless : happening = .receiveFailed → ending.closed = false) :
    Watching window now (r.record happening) ending check := by
  obtain ⟨earlier, recent, log, watched⟩ := watching.recent
  refine { watching with
    is := watching.is
    free := watching.free.fields rfl rfl rfl rfl rfl
    fits := watching.fits.extend (history_grows ⟨[_], rfl⟩)
    recent := ⟨earlier, recent ++ [⟨happening, r.holdsWork⟩], ?_, ?_⟩ }
  · change r.log ++ _ = _
    rw [log, List.append_assoc]
  · refine watched.append ?_ silent harmless
    simp [Moment.quiet, free_iff.mpr watching.free, empty]

theorem Watching.tick (watching : Watching window now r ending check) :
    Watching window now r.tick ending check :=
  watching.still (still_tick watching.free)

theorem Watching.unread (watching : Watching window now r ending check)
    (idle : check.pending = none) : ending.markerRead = none ∧ ending.depthRead = none := by
  constructor
  · cases outstanding : ending.markerRead with
    | none => rfl
    | some asked => exact absurd ((watching.marker asked outstanding).symm.trans idle) (by simp)
  · cases outstanding : ending.depthRead with
    | none => rfl
    | some asked => exact absurd ((watching.depth _ _ outstanding).symm.trans idle) (by simp)

/-- The check is asked, and wants no read. -/
theorem Watching.turn (watching : Watching window now r ending check)
    (idle : check.pending = none) (waits : (check.next now).1.pending = none) :
    Watching window now { r with ending := some { ending with check := some (check.next now).1 } }
      { ending with check := some (check.next now).1 } (check.next now).1 := by
  obtain ⟨earlier, recent, log, watched⟩ := watching.recent
  obtain ⟨unmarked, unmeasured⟩ := watching.unread idle
  obtain ⟨mode, unfinished⟩ := watching.fits.started check watching.running
  refine ⟨rfl, rfl, watching.free.fields rfl rfl rfl rfl rfl,
    ⟨watching.fits.mode, watching.fits.listed, ?_⟩, ?_, ?_, earlier, recent, log, watched.next ?_⟩
  · rintro after ⟨⟩
    exact ⟨(watched.consistent.next (Nat.le_refl now)).mode, unfinished⟩
  · simp [unmarked]
  · simp [unmeasured]
  · simp [waits]

/-- What a call does to the check, and to what it has counted. -/
theorem consistent_perform (instant : call.instant = now)
    (logged : Watch.entry check call = some entry) {log : List EndEntry}
    (consistent : (⟨check, now, log⟩ : Watch).Consistent window) :
    (⟨Watch.perform check call, now, log ++ [entry]⟩ : Watch).Consistent window := by
  have taken : Watch.step ⟨check, now, log⟩ call =
      some ⟨Watch.perform check call, now, log ++ [entry]⟩ := by
    simp [Watch.step, instant, logged]
  exact Watch.step_consistent consistent taken

/-- The answer to a read is counted; the reader holds nothing. -/
theorem Watching.answer (watching : Watching window now r ending check) {read : EndRead}
    (of : EndRead.of entry = some read)
    (outstanding : check.pending = some (read, entry.requested)) (instant : call.instant = now)
    (logged : Watch.entry check call = some entry)
    (idle : (Watch.perform check call).pending = none) {after : JobEnd}
    (is : next.ending = some after) (running : after.check = some (Watch.perform check call))
    (finish : after.finish = ending.finish) (unmarked : after.markerRead = none)
    (unmeasured : after.depthRead = none)
    (closes : after.closed = false → ending.closed = false ∧
      ∀ requested answered, entry ≠ .receive requested answered false) (beside : r.Beside next)
    (log : next.log = r.log ++
      [⟨.consumed read entry.requested, r.holdsWork⟩, ⟨.checked entry, r.holdsWork⟩]) :
    Watching window now next after (Watch.perform check call) := by
  obtain ⟨earlier, recent, before, watched⟩ := watching.recent
  have holds : r.holdsWork = false := free_iff.mpr watching.free
  have quiet : Moment.quiet ⟨.consumed read entry.requested, false⟩ = true := rfl
  have noted := watched.append quiet rfl (by simp)
  have consistent := consistent_perform instant logged noted.consistent
  have counted := noted.answered of outstanding (by simp) consistent idle closes
  obtain ⟨mode, unfinished⟩ := watching.fits.started check watching.running
  refine ⟨is, running, beside.free watching.free, ⟨finish ▸ watching.fits.mode, ?_, ?_⟩, ?_, ?_,
    earlier, _, ?_, counted⟩
  · intro finished
    exact (history_grows ⟨_, log.symm⟩).subset (watching.fits.listed (finish ▸ finished))
  · intro check' running'
    obtain rfl := Option.some.inj (running.symm.trans running')
    exact ⟨consistent.mode, finish ▸ unfinished⟩
  · simp [unmarked]
  · simp [unmeasured]
  · rw [log, before, holds]
    simp

/-- A read consumed and told to the check. -/
theorem tell_consumed (is : r.ending = some ending) (running : ending.check = some check)
    (read : EndRead) (logged : Watch.entry check call = some entry) :
    ((r.record (.consumed read entry.requested)).tell call).ending =
        some { ending with check := some (Watch.perform check call) } ∧
      ((r.record (.consumed read entry.requested)).tell call).log = r.log ++
        [⟨.consumed read entry.requested, r.holdsWork⟩, ⟨.checked entry, r.holdsWork⟩] := by
  rw [tell_entry (by exact is) running logged]
  exact ⟨rfl, List.append_assoc _ _ _⟩

theorem beside_consumed (r : UnitReader) (read : EndRead) (asked : Nat) (call : EndCall) :
    r.Beside ((r.record (.consumed read asked)).tell call) :=
  (beside_record r _).trans (beside_tell _ _)

theorem markerAnswer_pending (idle : check.pending = none) (requested : Nat) (read : MarkerRead) :
    (check.markerAnswer requested now read).pending = none := by
  unfold EndCheck.markerAnswer
  split
  · exact idle
  · split
    · split <;> exact idle
    · exact idle
    · exact idle

theorem depthAnswer_pending (idle : check.pending = none) (of : DepthOf) (requested : Nat)
    (read : DepthRead) : (check.depthAnswer of requested now read).pending = none := by
  unfold EndCheck.depthAnswer EndCheck.advance
  dsimp only
  repeat' split
  all_goals exact idle

theorem Watching.marked (watching : Watching window now r ending check) {asked : Nat}
    (outstanding : check.pending = some (.marker, asked)) (unmarked : ending.markerRead = none)
    (read : MarkerRead) : ∃ after, Watching window now
      ((r.record (.consumed .marker asked)).tell (.markerRead now read))
      { ending with check := some after } after := by
  have taken : check.takePending .marker = some ({ check with pending := none }, asked) := by
    simp [EndCheck.takePending, outstanding]
  have logged : Watch.entry check (.markerRead now read) = some (.marker asked now read) := by
    simp [Watch.entry, taken]
  have unmeasured : ending.depthRead = none := by
    cases measured : ending.depthRead with
    | none => rfl
    | some pending => exact absurd (outstanding.symm.trans (watching.depth _ _ measured)) (by simp)
  obtain ⟨is, log⟩ := tell_consumed watching.is watching.running .marker logged
  refine ⟨_, watching.answer rfl outstanding rfl logged ?_ is rfl rfl unmarked unmeasured
    (fun closed => ⟨closed, by simp⟩) (beside_consumed r _ _ _) log⟩
  simp only [Watch.perform, EndCheck.markerRead, taken]
  exact markerAnswer_pending rfl _ _

theorem Watching.measured (watching : Watching window now r ending check) {of : DepthOf}
    {asked : Nat} (outstanding : check.pending = some (.depth of, asked))
    (unmeasured : ending.depthRead = none) (read : DepthRead) :
    Watching window now ((r.record (.consumed (.depth of) asked)).tell (.depthRead now read))
      { ending with check := some (check.depthRead now read) } (check.depthRead now read) := by
  have logged : Watch.entry check (.depthRead now read) = some (.depth of asked now read) := by
    simp [Watch.entry, outstanding]
  have unmarked : ending.markerRead = none := by
    cases marked : ending.markerRead with
    | none => rfl
    | some pending => exact absurd (outstanding.symm.trans (watching.marker _ marked)) (by simp)
  obtain ⟨is, log⟩ := tell_consumed watching.is watching.running (.depth of) logged
  refine watching.answer rfl outstanding rfl logged ?_ is rfl rfl unmarked unmeasured
    (fun closed => ⟨closed, by simp⟩) (beside_consumed r _ _ _) log
  simp only [Watch.perform, EndCheck.depthRead, outstanding]
  exact depthAnswer_pending rfl _ _ _

theorem Watching.closed (watching : Watching window now r ending check)
    (outstanding : check.pending = some (.receive, now))
    (unread : ending.markerRead = none ∧ ending.depthRead = none) :
    Watching window now (((r.record (.consumed .receive now)).tell (.received now false)).setEnding
        fun ending => { ending with closed := true })
      { ending with check := some (check.received now false), closed := true }
      (check.received now false) := by
  have taken : check.takePending .receive = some ({ check with pending := none }, now) := by
    simp [EndCheck.takePending, outstanding]
  have logged : Watch.entry check (.received now false) = some (.receive now now false) := by
    simp [Watch.entry, taken]
  obtain ⟨is, log⟩ := tell_consumed watching.is watching.running .receive logged
  refine watching.answer rfl outstanding rfl logged ?_ ?_ rfl rfl unread.1 unread.2 (by simp)
    ((beside_consumed r _ _ _).trans (beside_setEnding _ _)) log
  · simp only [Watch.perform, EndCheck.received, taken]
    rfl
  · exact congrArg (Option.map _) is

theorem receive_none {room : Nat} (result : r.receive env room = (next, .ok none)) :
    next = r.tick.record .receiveFailed := by
  unfold receive at result
  split at result
  · dsimp only at result
    split at result
    · exact (Prod.mk.inj result).1.symm
    · cases (Prod.mk.inj result).2
  · dsimp only at result
    split at result
    · cases (Prod.mk.inj result).2
    · cases (Prod.mk.inj result).2

theorem receive_zero {room : Nat} (result : r.receive env room = (next, .ok (some 0))) :
    next = r.tick.record (.received []) := by
  unfold receive at result
  split at result
  · dsimp only at result
    split at result
    · cases (Prod.mk.inj result).2
    · cases (Prod.mk.inj result).2
  · rename_i deliveries _
    dsimp only at result
    generalize deliveries.take room = taken at result
    cases taken with
    | nil => exact (Prod.mk.inj result).1.symm
    | cons delivery rest =>
      split at result
      · cases (Prod.mk.inj result).2
      · cases (Prod.mk.inj result).2

/-! ## One idle poll -/

/-- How an idle poll leaves the reader. -/
def Advanced (env : Environment) (window : Option Nat) (now : Nat) :
    UnitReader × Except SourceError Bool → Prop
  | (next, .ok true) => ∃ ending check, Watching window now next ending check ∧
      check.outcome = some .completed
  | (next, .ok false) => Tends env window next
  | (_, .error _) => True

theorem Watching.tends (watching : Watching window now r ending check)
    (live : check.outcome = none) (past : now ≤ env.clock r.time) : Tends env window r :=
  .inr ⟨ending, check, watching.later past, live⟩

theorem Watching.windowed (watching : Watching window now r ending check) :
    ∀ run start last due, check.phase = .window run start last due → check.window ≠ none := by
  intro run start last due phase
  obtain ⟨-, recent, -, watched⟩ := watching.recent
  have supported := watched.consistent.supported
  have mode := watched.consistent.mode
  dsimp only at supported mode
  rw [phase] at supported
  rw [mode]
  exact Option.isSome_iff_ne_none.mp supported.1

end

end UnitReader

end Spate.S3
