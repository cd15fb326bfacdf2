import Spate.UnitReaderAck

set_option autoImplicit false

/- Each call of the controller is a course of acts, receives and resends of fails, in which
every delivery the reader indexes is held. What is acknowledged has been read follows. -/
namespace Spate.S3

open Spate.Feed
open Spate.TreeMaps
open Std (TreeMap)

namespace UnitReader

variable (env : Environment)

/-! ## Settling and committing -/

variable {r : UnitReader}

theorem expectHeld_lane (sound : Sound r) {partition : PartitionId} {lane : LaneState}
    (found : r.lanes[partition]? = some lane) : r.expectHeld lane.delivery = r := by
  obtain ⟨⟨held, there, -⟩, -⟩ := sound.opening.lane partition lane found
  exact expectHeld_found there

theorem expectHeld_lanes (sound : Sound r) (entries : List (PartitionId × LaneState))
    (listed : ∀ entry ∈ entries, entry ∈ r.lanes.toList) :
    entries.foldl (fun r entry => r.expectHeld entry.2.delivery) r = r := by
  induction entries with
  | nil => rfl
  | cons entry rest ih =>
    have found := TreeMap.mem_toList_iff_getElem?_eq_some.mp (listed entry List.mem_cons_self)
    rw [List.foldl_cons, expectHeld_lane sound found]
    exact ih fun other member => listed other (List.mem_cons_of_mem _ member)

theorem acts_retireEnded (ended : List PartitionId) :
    ∀ r : UnitReader, Sound r → (∀ partition ∈ ended, r.Spent partition) → r.channel = [] →
      Acts r (ended.foldl retireEnded r) := by
  induction ended with
  | nil => exact fun r _ _ _ => .refl
  | cons partition rest ih =>
    intro r sound spent read
    rw [List.foldl_cons]
    have others := fun other member => spent other (List.mem_cons_of_mem partition member)
    unfold retireEnded
    split
    · exact ih r sound others read
    · rename_i lane found
      rw [expectHeld_lane sound found]
      dsimp only
      split
      · obtain ⟨threads, channel, lanes⟩ := retire_fields r partition
        have first := acts_retire (spent partition List.mem_cons_self) read
        refine first.trans (ih _ (sound_acts first sound) ?_ (channel.trans read))
        intro other member lane found
        rw [threads]
        exact others other member lane (lanes other lane found)
      · exact ih r sound others read

theorem acts_sweep (sound : Sound r) : Acts r (r.sweep env).1 := by
  unfold sweep
  rw [expectHeld_lanes sound r.lanes.toList fun _ member => member]
  dsimp only
  have reads := acts_lanesEnded env r.reads
    (fun lane terminal => decide (terminal = 0) || decide (lane.lastCommitted = some terminal))
    r.lanes.toList r
  obtain ⟨ran, found⟩ := lanesEnded_spec env r.reads
    (fun lane terminal => decide (terminal = 0) || decide (lane.lastCommitted = some terminal))
    r.lanes.toList r
  generalize lanesEnded env r.reads _ r.lanes.toList r = scan at reads ran found
  obtain ⟨lanes, channel, terminal⟩ := readReports_spec env scan.2
  have spent : ∀ partition ∈ scan.1, (scan.2.readReports env).Spent partition := by
    intro partition member lane listed
    obtain ⟨other, watermark, entry, hit, set⟩ := found partition member
    rw [TreeMap.mem_toList_iff_getElem?_eq_some] at entry
    rw [lanes, ran.lanes, entry] at listed
    obtain rfl := Option.some.inj listed
    exact ⟨watermark, terminal set, by simpa using hit⟩
  have read := reads.trans (acts_readReports env _)
  have retired := read.trans (acts_retireEnded scan.1 _ (sound_acts read sound) spent channel)
  exact retired.trans (acts_acknowledgeEach env _)

theorem acts_renewHeld (r : UnitReader) : Acts r (r.renewHeld env) := by
  unfold renewHeld
  split
  · exact (acts_renewEach env r).trans (acts_same rfl rfl)
  · exact .refl

theorem acts_commitOne (item : PartitionId × Int) (sound : Sound r) :
    Acts r (commitOne env item r).1 := by
  obtain ⟨partition, watermark⟩ := item
  simp only [commitOne]
  split
  · exact .refl
  · rename_i lane found
    have noted : Acts r (r.noteCommit partition lane watermark) :=
      .single (.committed found watermark)
    have listed : (r.noteCommit partition lane watermark).lanes[partition]? =
        some { lane with lastCommitted := some watermark } := by
      simp [noteCommit, record]
    generalize r.noteCommit partition lane watermark = s at noted listed
    have ran := ran_interfere env s
    have run := noted.trans (acts_interfere env s)
    split
    · exact run
    · rename_i ended
      rw [ne_eq, not_not] at ended
      obtain ⟨lanes, channel, terminal⟩ := readReports_spec env (s.interfere env)
      have read := run.trans (acts_readReports env _)
      have there : ((s.interfere env).readReports env).lanes[partition]? =
          some { lane with lastCommitted := some watermark } := by
        rw [lanes, ran.lanes, listed]
      have spent : ((s.interfere env).readReports env).Spent partition := by
        intro other found
        obtain rfl := Option.some.inj (there.symm.trans found)
        exact ⟨watermark, terminal ended, .inr rfl⟩
      generalize (s.interfere env).readReports env = t at channel read there spent
      obtain ⟨⟨held, has, -⟩, -⟩ := (sound_acts read sound).opening.lane partition _ there
      rw [expectHeld_found has]
      split
      · have retired := read.trans (acts_retire spent channel)
        -- the delivery stays when one of its lanes leaves
        obtain ⟨held, kept⟩ :
            ∃ held, (t.retire partition).deliveries[lane.delivery]? = some held := by
          rw [retire, there]
          exact ⟨_, modify_there has rfl⟩
        rw [expectHeld_found kept, kept, Option.any_some]
        split
        · rename_i finished
          exact retired.trans (acts_acknowledge env kept finished)
        · exact retired
      · exact read

theorem acts_commit (watermarks : List (PartitionId × Int)) :
    ∀ {r : UnitReader}, Sound r → Acts r (commit env watermarks r).1 := by
  unfold commit
  induction watermarks with
  | nil => exact fun _ => .refl
  | cons item rest ih =>
    intro r sound
    have first := acts_commitOne env item sound
    rw [forEach]
    split <;> rename_i result <;> rw [result] at first
    · exact first.trans (ih (sound_acts first sound))
    · exact first

/-- What the calls are made of; `lossy` and `stops` are as for deeds. -/
inductive Course (lossy stops : Bool) : UnitReader → UnitReader → Prop
  | act {r next : UnitReader} (act : Act r next) : Course lossy stops r next
  | release (r : UnitReader) (delivery : Nat) (may : stops = true) :
      Course lossy stops r (r.release delivery)
  | receive (r : UnitReader) (room : Nat)
      (fine : (∃ took, (r.receive env room).2 = .ok took) ∨ lossy = true) :
      Course lossy stops r (r.receive env room).1
  | resend (r : UnitReader) (fine : (r.resendFails env).2 = none ∨ lossy = true) :
      Course lossy stops r (r.resendFails env).1

abbrev Courses (lossy stops : Bool) : UnitReader → UnitReader → Prop :=
  Relation.ReflTransGen (Course env lossy stops)

section

variable {env} {lossy stops : Bool} {hand : Multiset Nat}

variable {r next : UnitReader} {α : Type}

theorem Acts.courses (acts : Acts r next) : Courses env lossy stops r next := by
  induction acts with
  | refl => exact .refl
  | tail _ act ih => exact ih.tail (.act act)

theorem Courses.deeds (courses : Courses env lossy stops r next) :
    Deeds lossy stops (hand, r) (hand, next) := by
  induction courses with
  | refl => exact .refl
  | tail _ course ih =>
    refine ih.trans ?_
    cases course with
    | act act => exact .single (.act act)
    | release delivery may => exact .single (.release hand _ delivery may)
    | receive room fine => exact deeds_receive env fine
    | resend fine => exact deeds_resendFails env fine

theorem sound_courses (courses : Courses env lossy stops r next) (sound : Sound r) : Sound next :=
  sound_deeds (courses.deeds : Deeds lossy stops (0, r) (0, next)) sound

/-- One step after the other, the second only if the first did not fail. -/
theorem courses_andThen {first : UnitReader × Option SourceError}
    {next : UnitReader → UnitReader × Option SourceError}
    (before : first.2 = none ∨ lossy = true → Courses env lossy stops r first.1)
    (after : ∀ r, Sound r → (next r).2 = none ∨ lossy = true → Courses env lossy stops r (next r).1)
    (sound : Sound r) (fine : (andThen first next).2 = none ∨ lossy = true) :
    Courses env lossy stops r (andThen first next).1 := by
  obtain ⟨middle, error⟩ := first
  cases error with
  | none =>
    have begun := before (.inl rfl)
    exact begun.trans (after middle (sound_courses begun sound) fine)
  | some error => exact before (.inr (fine.resolve_left (by simp [andThen])))

variable (env) in
theorem courses_settle (sound : Sound r) (fine : (r.settle env).2 = none ∨ lossy = true) :
    Courses env lossy stops r (r.settle env).1 := by
  unfold settle at fine ⊢
  split
  · have cleared : Acts r { r with renewError := none } := acts_same rfl rfl
    exact cleared.courses
  · rename_i unfailed
    simp only [unfailed] at fine
    refine courses_andThen (fun _ => ?_) (fun r sound fine => ?_) sound fine
    · exact Acts.courses ((acts_readReports env r).trans (acts_checkReEnqueues env _))
    refine courses_andThen (fun _ => (acts_failEach env r _).courses) (fun r sound fine => ?_)
      sound fine
    refine courses_andThen (fun ok => .single (.resend r ok)) (fun r sound fine => ?_) sound fine
    exact courses_andThen (fun _ => (acts_sweep env sound).courses)
      (fun r _ _ => (acts_renewEach env r).courses) sound fine

/-! ## The end check -/

/-- The result is reached on a course; a receipt may be lost where it is an error. -/
def Done (env : Environment) (lossy stops : Bool) (r : UnitReader) {α : Type}
    (result : UnitReader × Except SourceError α) : Prop :=
  (∃ value, result.2 = .ok value) ∨ lossy = true → Courses env lossy stops r result.1

theorem Done.acts (acts : Acts r next) (outcome : Except SourceError α) :
    Done env lossy stops r (next, outcome) :=
  fun _ => acts.courses

theorem Done.after {middle : UnitReader} {result : UnitReader × Except SourceError α}
    (acts : Acts r middle) (rest : Done env lossy stops middle result) :
    Done env lossy stops r result :=
  fun fine => acts.courses.trans (rest fine)

/-- A receive, then what is made of it. -/
theorem Done.received {room : Nat} {took : Option Nat}
    (result : r.receive env room = (next, .ok took)) {outcome : UnitReader × Except SourceError α}
    (rest : Done env lossy stops next outcome) : Done env lossy stops r outcome := by
  intro fine
  have received : Course env lossy stops r (r.receive env room).1 :=
    .receive r room (.inl ⟨took, by rw [result]⟩)
  rw [result] at received
  exact .head received (rest fine)

theorem Done.unreceived {room : Nat} {error : SourceError}
    (result : r.receive env room = (next, .error error)) :
    Done env lossy stops r (next, (.error error : Except SourceError α)) := by
  intro fine
  have may : lossy = true := fine.resolve_left (by simp)
  have received : Course env lossy stops r (r.receive env room).1 := .receive r room (.inr may)
  rw [result] at received
  exact .single received

variable (env)

theorem done_idleLoop (now count : Nat) : ∀ r : UnitReader,
    Done env lossy stops r (idleLoop env now count r) := by
  induction count with
  | zero => exact fun r => .acts .refl _
  | succ count ih =>
    intro r
    rw [idleLoop]
    split
    · exact .acts .refl _
    · rename_i ending _
      split
      · exact .acts .refl _
      · rename_i check _
        dsimp only
        have asked : r.Aside { r with
            ending := some { ending with check := some (check.next now).1 } } :=
          aside_same rfl rfl
        split
        · refine .after (Aside.acts ?_) (ih _)
          refine Aside.trans ?_ (aside_setEnding _ _)
          exact asked.trans (aside_record _ (by rfl))
        · rename_i of _
          have noted : r.Aside ((record { r with ending := some { ending with
              check := some (check.next now).1 } } (.asked (.depth of) now)).setEnding
                fun ending => { ending with depthOf := some of }) :=
            (asked.trans (aside_record _ (by rfl))).trans (aside_setEnding _ _)
          split
          · exact .acts (noted.trans (aside_tick _)).acts _
          · exact .after (((noted.trans (aside_tick _)).trans (aside_record _ (by rfl))).trans
              (aside_tell _ _)).acts (ih _)
          · exact .after ((noted.trans (aside_tick _)).trans (aside_setEnding _ _)).acts (ih _)
        · have noted : r.Aside (record { r with ending := some { ending with
              check := some (check.next now).1 } } (.asked .receive now)) :=
            asked.trans (aside_record _ (by rfl))
          generalize record { r with ending := some { ending with
              check := some (check.next now).1 } } (.asked .receive now) = noting at noted ⊢
          refine .after noted.acts ?_
          split <;> rename_i result
          · exact .unreceived result
          · have told : ∀ (arrived : UnitReader) (call : EndCall),
                arrived.Aside ((arrived.record (.consumed .receive now)).tell call) :=
              fun arrived call => (aside_record arrived rfl).trans (aside_tell _ call)
            refine .received result ?_
            split
            · exact .acts (told _ _).acts _
            · exact .after ((told _ _).trans (aside_setEnding _ _)).acts (ih _)
        · exact .acts asked.acts _
        · exact .acts asked.acts _
        · exact .acts asked.acts _
        · exact .acts (asked.trans (aside_setEnding _ _)).acts _

theorem done_advance (now : Nat) (r : UnitReader) : Done env lossy stops r (r.advance env now) := by
  unfold advance
  dsimp only
  have started := aside_setEnding r fun ending => { ending with check := startCheck now ending }
  generalize (r.setEnding fun ending => { ending with check := startCheck now ending }) = begun
    at started ⊢
  have taken := (started.trans (aside_takeMarker env now begun)).acts
  split
  · exact .acts started.acts _
  · split <;> rename_i result <;> rw [result] at taken
    · exact .acts taken _
    · exact .after (taken.trans (aside_takeDepth env _ _).acts) (done_idleLoop env _ _ _)

theorem done_idle (r : UnitReader) : Done env lossy stops r (r.idle env) := by
  unfold idle
  dsimp only
  have begun := (aside_setEnding r fun ending => { ending with due := none }).trans (aside_tick _)
  split
  · exact .acts begun.acts _
  · exact .after begun.acts (done_advance env _ _)

/-! ## Polls -/

theorem done_pollIdle (r : UnitReader) : Done env lossy stops r (r.pollIdle env) := by
  have idle : Done env lossy stops r (r.idle env) := done_idle env r
  unfold pollIdle
  split
  · split <;> rename_i result <;> rw [result] at idle
    · exact fun _ => idle (.inl ⟨_, rfl⟩)
    · exact fun _ => idle (.inl ⟨_, rfl⟩)
    · exact fun fine => idle (.inr (fine.resolve_left (by simp)))
  · exact .acts .refl _

theorem acts_hints (partitions : List PartitionId) : ∀ r : UnitReader,
    Acts r { r with lanes := partitions.foldl (fun lanes partition =>
      lanes.modify partition fun lane => { lane with hinted := true }) r.lanes } := by
  induction partitions with
  | nil => exact fun r => .refl
  | cons partition rest ih => exact fun r => .head (.hint r partition) (ih _)

theorem done_pollLanes (opened : List PartitionId) (r : UnitReader) :
    Done env lossy stops r (r.pollLanes env opened) := by
  unfold pollLanes
  split
  · exact .acts .refl _
  · dsimp only
    have scanned := acts_lanesEnded env (fun lane => !lane.hinted) (fun _ _ => true)
      r.lanes.toList r
    generalize lanesEnded env (fun lane => !lane.hinted) (fun _ _ => true) r.lanes.toList r = scan
      at scanned
    have hinted := scanned.trans (acts_hints scan.1 scan.2)
    split
    · exact .acts hinted _
    · exact .after hinted (done_pollIdle env _)

theorem done_pollReceive (r : UnitReader) : Done env lossy stops r (r.pollReceive env) := by
  have opened := acts_openPending r
  unfold pollReceive
  dsimp only
  refine .after opened ?_
  split
  · split <;> rename_i result
    · exact .unreceived result
    · refine .received result (.after ?_ (done_pollLanes env _ _))
      refine Relation.ReflTransGen.trans ?_ (acts_openPending _)
      split
      · exact .refl
      · exact (aside_busy env _).acts
      · exact (aside_receiveFailed env _).acts
  · exact done_pollLanes env _ _

theorem acts_busy (r : UnitReader) : Acts r (if r.holdsWork then r.busy env else r) := by
  split
  · exact (aside_busy env r).acts
  · exact .refl

theorem done_pollExits (r : UnitReader) : Done env lossy stops r (r.pollExits env) := by
  have told := acts_busy env r
  unfold pollExits
  generalize (if r.holdsWork then r.busy env else r) = s at told ⊢
  dsimp only
  split
  · exact .acts ((told.trans (acts_record _ rfl)).tail
      (.left _ [] _ (List.nil_sublist _) (List.Sublist.refl _))) _
  · split
    · exact .acts ((told.trans (acts_record _ rfl)).tail
        (.left _ _ [] (List.Sublist.refl _) (List.nil_sublist _))) _
    · exact .after told (done_pollReceive env s)

theorem done_pollEvents (sound : Sound r) : Done env lossy stops r (r.pollEvents env) := by
  have settles : (r.settle env).2 = none ∨ lossy = true →
      Courses env lossy stops r (r.settle env).1 := courses_settle env sound
  unfold pollEvents
  split
  · exact .acts (acts_same (by rfl) (by rfl)) _
  · split <;> rename_i result <;> rw [result] at settles
    · exact fun fine => settles (.inr (fine.resolve_left (by simp)))
    · exact fun fine => (settles (.inl rfl)).trans (done_pollExits env _ fine)

/-! ## The other calls -/

theorem acts_endedThenReports (r : UnitReader) : Acts r (r.beginStop.endedThenReports env).2 := by
  have stopped : Acts r r.beginStop := acts_same rfl rfl
  exact (stopped.trans (acts_lanesEnded env _ _ _ _)).trans (acts_readReports env _)

theorem courses_releases (deliveries : List Nat) : ∀ r : UnitReader,
    Courses env lossy true r (deliveries.foldl release r) := by
  induction deliveries with
  | nil => exact fun r => .refl
  | cons delivery rest ih => exact fun r => .head (.release r delivery rfl) (ih _)

theorem courses_stopReading (sound : Sound r) : Courses env true true r (r.stopReading env).1 := by
  unfold stopReading
  split <;> rename_i hands
  · have cleared : Acts r { r with renewError := none } := acts_same rfl rfl
    exact cleared.courses
  · have checked := (acts_endedThenReports env r).trans (acts_checkReEnqueues env _)
    refine courses_andThen (fun _ => ?_) (fun r sound _ => ?_) sound (.inr rfl)
    · exact Acts.courses (checked.trans (acts_handBackEach env _ _))
    · exact (courses_settle env sound (.inr rfl)).trans (courses_releases env _ _)

theorem acts_listerFinished (r : UnitReader) : Acts r r.listerFinished := by
  unfold listerFinished
  split
  · exact .refl
  · split
    · exact .refl
    · exact Relation.ReflTransGen.trans (acts_same (by rfl) (by rfl)) (acts_record _ rfl)

theorem courses_call (sound : Sound r) (call : Call) :
    Courses env true true r (r.call env call) := by
  cases call with
  | pollEvents => exact done_pollEvents env sound (.inr rfl)
  | commit watermarks => exact (acts_commit env watermarks sound).courses
  | renewHeld => exact (acts_renewHeld env r).courses
  | readingOnStop =>
    change Courses env true true r (r.readingOnStop env).1
    unfold readingOnStop
    split
    · exact .refl
    · exact (acts_endedThenReports env r).courses
  | stopReading => exact courses_stopReading env sound
  | listerFinished => exact (acts_listerFinished r).courses
  | lane event => exact .single (.act (.lane r event))

end

theorem deeds_call (sound : Sound r) (call : Call) :
    Deeds true true (0, r) (0, r.call env call) :=
  (courses_call env sound call).deeds

theorem sound_call (sound : Sound r) (call : Call) : Sound (r.call env call) :=
  sound_courses (courses_call env sound call) sound

/-- Whatever calls the controller makes. -/
theorem courses_calls (calls : List Call) : ∀ {r : UnitReader}, Sound r →
    Courses env true true r (calls.foldl (call env) r) := by
  induction calls with
  | nil => exact fun _ => .refl
  | cons first rest ih =>
    intro r sound
    have one := courses_call env sound first
    exact one.trans (ih (sound_courses one sound))

/-! ## What is acknowledged has been read -/

/-- What no deed changes, and that it makes a panic only of a sequence that ran out. -/
structure Kept (r next : UnitReader) : Prop where
  reEnqueueCap : next.reEnqueueCap = r.reEnqueueCap
  unitsHeld : next.unitsHeld = r.unitsHeld
  lanes : r.nextLane ≤ next.nextLane
  deliveries : r.nextDelivery ≤ next.nextDelivery
  missing : next.missing = true →
    r.missing = true ∨ UInt32.size ≤ next.nextLane ∨ UInt32.size ≤ next.nextDelivery

theorem kept_same {next : UnitReader} (cap : next.reEnqueueCap = r.reEnqueueCap)
    (units : next.unitsHeld = r.unitsHeld) (lanes : next.nextLane = r.nextLane)
    (deliveries : next.nextDelivery = r.nextDelivery) (missing : next.missing = r.missing) :
    Kept r next :=
  ⟨cap, units, lanes.ge, deliveries.ge, fun panicked => .inl (missing ▸ panicked)⟩

theorem Kept.trans {middle next : UnitReader} (first : Kept r middle) (second : Kept middle next) :
    Kept r next where
  reEnqueueCap := second.reEnqueueCap.trans first.reEnqueueCap
  unitsHeld := second.unitsHeld.trans first.unitsHeld
  lanes := first.lanes.trans second.lanes
  deliveries := first.deliveries.trans second.deliveries
  missing panicked := by
    rcases second.missing panicked with earlier | later
    · exact (first.missing earlier).imp_right
        (Or.imp (·.trans second.lanes) (·.trans second.deliveries))
    · exact .inr later

theorem kept_release (r : UnitReader) (delivery : Nat) : Kept r (r.release delivery) := by
  unfold release
  split <;> exact kept_same rfl rfl rfl rfl rfl

theorem kept_hold (r : UnitReader) (delivery : Delivery) (cursors : List Cursor) :
    Kept r (r.hold delivery cursors) := by
  refine ⟨rfl, rfl, Nat.le_refl _, Nat.le_succ _, fun panicked => ?_⟩
  rcases Bool.or_eq_true_iff.mp panicked with earlier | spent
  · exact .inl earlier
  · exact .inr (.inr (of_decide_eq_true spent))

theorem act_kept {next : UnitReader} (act : Act r next) :
    Kept r next ∧ next.unsentFails = r.unsentFails := by
  cases act with
  | lane event =>
    cases event <;> rw [laneEvent] <;> split <;> exact ⟨kept_same rfl rfl rfl rfl rfl, rfl⟩
  | report =>
    unfold readReport onOverwrite overwriteHeld
    dsimp only
    repeat' split
    all_goals exact ⟨kept_same rfl rfl rfl rfl rfl, rfl⟩
  | retire found =>
    unfold retire
    rw [found]
    exact ⟨kept_same rfl rfl rfl rfl rfl, rfl⟩
  | settle => unfold release; split <;> exact ⟨kept_same rfl rfl rfl rfl rfl, rfl⟩
  | openPart room found =>
    unfold openPart
    rw [expectHeld_found found]
    refine ⟨⟨rfl, rfl, Nat.le_succ _, Nat.le_refl _, fun panicked => ?_⟩, rfl⟩
    rcases Bool.or_eq_true_iff.mp panicked with earlier | spent
    · exact .inl earlier
    · exact .inr (.inl (of_decide_eq_true spent))
  | neutral same =>
    exact ⟨kept_same (congrArg Holdings.reEnqueueCap same) (congrArg Holdings.unitsHeld same)
      (congrArg Holdings.nextLane same) (congrArg Holdings.nextDelivery same)
      (congrArg Holdings.missing same), congrArg Holdings.unsentFails same⟩
  | _ => exact ⟨kept_same rfl rfl rfl rfl rfl, rfl⟩

theorem deeds_kept {lossy stops : Bool} {before after : Multiset Nat × UnitReader}
    (deeds : Deeds lossy stops before after) : Kept before.2 after.2 := by
  induction deeds with
  | refl => exact kept_same rfl rfl rfl rfl rfl
  | tail _ deed ih =>
    refine ih.trans ?_
    cases deed with
    | act act => exact (act_kept act).1
    | release hand r delivery => exact kept_release r delivery
    | hold hand r delivery cursors => exact kept_hold r delivery cursors
    | _ => exact kept_same rfl rfl rfl rfl rfl

-- a unit of one object, acknowledged once the lane's last watermark is committed
example :
    let entry : ObjectEntry := ⟨"a", 1, none, 0⟩
    let env : Environment := {
      decode := fun _ => .read [⟨entry, [], .lister, none, []⟩]
      backend := ""
      lanes := fun _ => []
      reply := fun _ => none
      outcome := fun _ => none
      receive := fun time => .ok (if time < 3 then [⟨7, "u", []⟩] else [])
      clock := fun _ => 0
      stop := fun _ => false
      marker := fun _ => none
      depth := fun _ => none
      reading := fun _ => none
      steady := fun _ _ _ => Nat.le_refl 0 }
    let calls := [.pollEvents, .pollEvents, .lane (.terminal 0 5), .commit [(0, 5)]]
    let r := calls.foldl (call env)
      { unitsHeld := 1, reEnqueueCap := 3, handsBack := true, ending := none }
    .acknowledged 0 7 none ∈ r.history := by
  decide

end UnitReader

end Spate.S3
