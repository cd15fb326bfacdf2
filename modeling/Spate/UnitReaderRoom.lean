import Mathlib.Data.List.Perm.Subperm
import Spate.UnitReaderCalls

set_option autoImplicit false

/- How many deliveries and lanes a unit reader holds. Each lane in progress and each idle
delivery takes one of its units; a delivery that is failing, has parts pending and no lane
takes none. -/
namespace Spate.S3

open Spate.Feed
open Spate.TreeMaps
open Spate.Transition
open Std (TreeMap)

/-- The delivery opens no lane and is not idle. -/
def HeldUnit.stranded (held : HeldUnit) : Bool :=
  held.failing.isSome && held.lanes.isEmpty && !held.pending.isEmpty

namespace UnitReader

/-- The reader as a poll finds it when it asks the feed for units, if it does. -/
def asking (env : Environment) (r : UnitReader) : Option UnitReader :=
  if !r.started then none
  else
    match r.settle env with
    | (_, some _) => none
    | (r, none) =>
      let r := if r.holdsWork then r.busy env else r
      if !r.revoked.isEmpty || !r.retired.isEmpty then none
      else
        let r := r.openPending.2
        if 0 < r.room ∧ r.stopping = false then some r else none

/-- The call asks the feed for no unit while a delivery is stranded. -/
def unstranded (env : Environment) (r : UnitReader) : Call → Bool
  | .pollEvents =>
    (r.asking env).all fun r => r.deliveries.toList.all fun entry => !entry.2.stranded
  | _ => true

/-! ## How far the books grow -/

/-- `next` holds at most `count` deliveries more than `r`, and lanes within its units if
`r` does. -/
structure Grows (count : Nat) (r next : UnitReader) : Prop where
  deliveries : next.deliveries.size ≤ r.deliveries.size + count
  lanes : r.lanes.size ≤ r.unitsHeld → next.lanes.size ≤ r.unitsHeld
  unitsHeld : next.unitsHeld = r.unitsHeld

section

variable {count more : Nat} {r middle next : UnitReader}

theorem Grows.trans (first : Grows count r middle) (second : Grows more middle next) :
    Grows (count + more) r next := by
  refine ⟨?_, fun fits => ?_, second.unitsHeld.trans first.unitsHeld⟩
  · have := first.deliveries
    have := second.deliveries
    omega
  · have := second.lanes
    rw [first.unitsHeld] at this
    exact this (first.lanes fits)

theorem Grows.mono (grows : Grows count r next) (fewer : count ≤ more) : Grows more r next :=
  ⟨Nat.le_trans grows.deliveries (Nat.add_le_add_left fewer _), grows.lanes, grows.unitsHeld⟩

theorem Grows.then (first : Grows 0 r middle) (second : Grows count middle next) :
    Grows count r next :=
  (first.trans second).mono (Nat.le_of_eq (Nat.zero_add _))

theorem grows_same (deliveries : next.deliveries = r.deliveries) (lanes : next.lanes = r.lanes)
    (unitsHeld : next.unitsHeld = r.unitsHeld) : Grows 0 r next :=
  ⟨by rw [deliveries, Nat.add_zero], fun fits => by rwa [lanes], unitsHeld⟩

theorem Grows.refl (r : UnitReader) : Grows 0 r r := grows_same rfl rfl rfl

theorem grows_setHeld (r : UnitReader) (delivery : Nat) (f : HeldUnit → HeldUnit) :
    Grows 0 r (r.setHeld delivery f) :=
  ⟨Nat.le_of_eq TreeMap.size_modify, id, rfl⟩

theorem size_eraseAll (gone : List PartitionId) : ∀ lanes : TreeMap PartitionId LaneState,
    (gone.foldl (fun lanes partition => lanes.erase partition) lanes).size ≤ lanes.size := by
  induction gone with
  | nil => exact fun lanes => Nat.le_refl _
  | cons partition rest ih => exact fun lanes => Nat.le_trans (ih _) TreeMap.size_erase_le

theorem grows_release (r : UnitReader) (delivery : Nat) : Grows 0 r (r.release delivery) := by
  unfold release
  split
  · exact .refl r
  · exact ⟨TreeMap.size_erase_le, Nat.le_trans (size_eraseAll _ _), rfl⟩

theorem grows_laneEvent (r : UnitReader) (event : LaneEvent) : Grows 0 r (r.laneEvent event) := by
  cases event <;> rw [laneEvent] <;> split <;> exact grows_same rfl rfl rfl

theorem grows_readReport (r : UnitReader) (partition : PartitionId) (report : PoisonReport) :
    Grows 0 r (r.readReport partition report) := by
  unfold readReport onOverwrite
  split
  · split
    · exact .refl r
    · split
      · exact .refl r
      · split
        · exact .refl r
        · unfold overwriteHeld
          dsimp only
          split <;> exact ⟨Nat.le_of_eq TreeMap.size_modify, id, rfl⟩
  · split
    · exact .refl r
    · exact grows_setHeld r _ _

theorem grows_act (act : Act r next) : Grows 0 r next := by
  cases act with
  | lane event => exact grows_laneEvent r event
  | @report partition report rest =>
    have popped : Grows 0 r { r with channel := rest } := grows_same rfl rfl rfl
    exact popped.trans (grows_readReport _ partition report)
  | confirmed | refused => exact ⟨Nat.le_of_eq TreeMap.size_modify, id, rfl⟩
  | retire found =>
    unfold retire
    rw [found]
    exact ⟨Nat.le_of_eq TreeMap.size_modify, Nat.le_trans TreeMap.size_erase_le, rfl⟩
  | request | left => exact grows_same rfl rfl rfl
  | settle =>
    refine Grows.trans ?_ (grows_release _ _)
    exact grows_same rfl rfl rfl
  | openPart room found =>
    unfold openPart
    rw [expectHeld_found found]
    refine ⟨Nat.le_of_eq TreeMap.size_modify, fun _ => ?_, rfl⟩
    -- there is room for one lane more
    refine Nat.le_trans TreeMap.size_insert_le ?_
    unfold UnitReader.room at room
    change r.lanes.size + 1 ≤ r.unitsHeld
    omega
  | @committed partition lane found watermark =>
    refine ⟨Nat.le_refl _, fun fits => ?_, rfl⟩
    have there : partition ∈ r.lanes := TreeMap.mem_iff_isSome_getElem?.mpr (by rw [found]; rfl)
    have same : (r.noteCommit partition lane watermark).lanes.size = r.lanes.size :=
      TreeMap.size_insert.trans (if_pos there)
    exact same ▸ fits
  | hint =>
    exact ⟨Nat.le_refl _, fun fits => Nat.le_trans (Nat.le_of_eq TreeMap.size_modify) fits, rfl⟩
  | neutral same =>
    exact grows_same (congrArg Holdings.deliveries same) (congrArg Holdings.lanes same)
      (congrArg Holdings.unitsHeld same)

theorem grows_acts (acts : Acts r next) : Grows 0 r next := by
  induction acts with
  | refl => exact .refl _
  | tail _ act ih => exact ih.trans (grows_act act)

end

variable (env : Environment)

/-! ## Settling -/

theorem grows_forEach {α : Type} {count : Nat}
    {f : α → UnitReader → UnitReader × Option SourceError}
    (each : ∀ item r, Grows count r (f item r).1) (items : List α) : ∀ r : UnitReader,
    Grows (items.length * count) r (forEach f items r).1 := by
  induction items with
  | nil => exact fun r => (Grows.refl r).mono (Nat.zero_le _)
  | cons item rest ih =>
    intro r
    have first := each item r
    rw [forEach, List.length_cons, Nat.succ_mul]
    split <;> rename_i result <;> rw [result] at first
    · exact (first.trans (ih _)).mono (Nat.le_of_eq (Nat.add_comm _ _))
    · exact first.mono (Nat.le_add_left _ _)

theorem grows_failUnread (fail : Nat × String) (r : UnitReader) :
    Grows 0 r (failUnread env fail r).1 := by
  unfold failUnread
  dsimp only
  split <;> exact grows_same rfl rfl rfl

/-- A sound reader stays sound and takes no delivery. -/
def Settles (r next : UnitReader) : Prop := Sound r → Grows 0 r next ∧ Sound next

section

variable {r middle next : UnitReader}

theorem settles_acts (acts : Acts r next) : Settles r next :=
  fun sound => ⟨grows_acts acts, sound_acts acts sound⟩

theorem Settles.trans (first : Settles r middle) (second : Settles middle next) :
    Settles r next := by
  intro sound
  obtain ⟨fewer, after⟩ := first sound
  obtain ⟨less, last⟩ := second after
  exact ⟨fewer.trans less, last⟩

theorem settles_andThen {first : UnitReader × Option SourceError}
    {after : UnitReader → UnitReader × Option SourceError} (before : Settles r first.1)
    (then' : ∀ s, Settles s (after s).1) : Settles r (andThen first after).1 := by
  obtain ⟨middle, error⟩ := first
  cases error with
  | none => exact before.trans (then' middle)
  | some error => exact before

theorem settles_resendFails (r : UnitReader) : Settles r (r.resendFails env).1 := by
  intro sound
  have deeds : Deeds true true (0, r) (0, (r.resendFails env).1) := deeds_resendFails env (.inr rfl)
  refine ⟨?_, sound_deeds deeds sound⟩
  unfold resendFails
  have told : Grows 0 r
      { (if r.unsentFails.isEmpty then r else r.record .failsTaken) with unsentFails := [] } := by
    split <;> exact grows_same rfl rfl rfl
  exact told.trans (grows_forEach (grows_failUnread env) r.unsentFails _)

theorem settles_settle (r : UnitReader) : Settles r (r.settle env).1 := by
  unfold settle
  split
  · exact settles_acts (acts_same (by rfl) (by rfl))
  · refine settles_andThen (settles_acts ?_) fun r => ?_
    · exact (acts_readReports env _).trans (acts_checkReEnqueues env _)
    refine settles_andThen (settles_acts (acts_failEach env r _)) fun r => ?_
    refine settles_andThen (settles_resendFails env r) fun r => ?_
    refine settles_andThen (fun sound => settles_acts (acts_sweep env sound) sound) fun r => ?_
    exact settles_acts (acts_renewEach env r)

theorem settles_releases (deliveries : List Nat) : ∀ r : UnitReader,
    Settles r (deliveries.foldl release r) := by
  induction deliveries with
  | nil => exact fun r => settles_acts .refl
  | cons delivery rest ih =>
    intro r sound
    have released := sound_release sound delivery
    obtain ⟨fewer, after⟩ := ih (r.release delivery) released
    exact ⟨(grows_release r delivery).trans fewer, after⟩

theorem settles_stopReading (r : UnitReader) : Settles r (r.stopReading env).1 := by
  unfold stopReading
  split
  · exact settles_acts (acts_same (by rfl) (by rfl))
  · have checked := (acts_endedThenReports env r).trans (acts_checkReEnqueues env _)
    generalize r.beginStop.endedThenReports env = ended at checked ⊢
    dsimp only at checked ⊢
    refine settles_andThen ?_ fun r => ?_
    · exact settles_acts (checked.trans (acts_handBackEach env _ _))
    · exact (settles_settle env r).trans (settles_releases _ _)

end

/-! ## Receiving -/

theorem grows_take (delivery : Delivery) (r : UnitReader) : Grows 1 r (take env delivery r).1 := by
  have held : ∀ cursors, Grows 1 r (r.hold delivery cursors) :=
    fun cursors => ⟨TreeMap.size_insert_le, id, rfl⟩
  unfold take
  split
  · exact held _
  · exact held _
  · exact (grows_failUnread env _ r).mono (Nat.zero_le _)

/-- A receive holds at most `room` deliveries, and at most those it took. -/
theorem grows_receive (r : UnitReader) (room : Nat) : Grows room r (r.receive env room).1 ∧
    ∀ took, (r.receive env room).2 = .ok took → Grows (took.getD 0) r (r.receive env room).1 := by
  unfold receive
  split
  · have same : Grows 0 r (r.tick.record .receiveFailed) := grows_same rfl rfl rfl
    dsimp only
    split
    · refine ⟨same.mono (Nat.zero_le _), ?_⟩
      rintro took ⟨⟩
      exact same
    · exact ⟨same.mono (Nat.zero_le _), nofun⟩
  · rename_i deliveries answer
    dsimp only
    generalize taken : deliveries.take room = batch
    have few : batch.length ≤ room := taken ▸ List.length_take_le _ _
    have told : Grows 0 r (r.tick.record (.received (batch.map Delivery.receipt))) :=
      grows_same rfl rfl rfl
    have all := told.then (grows_forEach (grows_take env) batch _)
    rw [Nat.mul_one] at all
    split <;> rename_i result <;> rw [result] at all
    · refine ⟨all.mono few, ?_⟩
      rintro took ⟨⟩
      exact all
    · exact ⟨all.mono few, nofun⟩

theorem grows_idleLoop (now count : Nat) : ∀ r : UnitReader,
    Grows r.unitsHeld r (idleLoop env now count r).1 := by
  induction count with
  | zero => exact fun r => (Grows.refl r).mono (Nat.zero_le _)
  | succ count ih =>
    intro r
    have after : ∀ next : UnitReader, r.Aside next →
        Grows r.unitsHeld r (idleLoop env now count next).1 :=
      fun next aside => by
        have same := grows_acts aside.acts
        exact same.then (same.unitsHeld ▸ ih next)
    have last : ∀ next : UnitReader, r.Aside next → Grows r.unitsHeld r next :=
      fun next aside => (grows_acts aside.acts).mono (Nat.zero_le _)
    rw [idleLoop]
    split
    · exact last r (aside_same rfl rfl)
    · rename_i ending _
      split
      · exact last r (aside_same rfl rfl)
      · rename_i check _
        dsimp only
        have asked : r.Aside { r with
            ending := some { ending with check := some (check.next now).1 } } :=
          aside_same rfl rfl
        split
        · exact after _ ((asked.trans (aside_record _ (by rfl))).trans (aside_setEnding _ _))
        · rename_i of _
          have noted :=
            (asked.trans (aside_record _ (by rfl : Happening.neutral (.asked (.depth of) now)
            = true))).trans (aside_setEnding _ fun ending => { ending with depthOf := some of })
          split
          · exact last _ (noted.trans (aside_tick _))
          · exact after _ (((noted.trans (aside_tick _)).trans (aside_record _ (by rfl))).trans
              (aside_tell _ _))
          · exact after _ ((noted.trans (aside_tick _)).trans (aside_setEnding _ _))
        · have noted := asked.trans
            (aside_record _ (by rfl : Happening.neutral (.asked .receive now)
            = true))
          generalize record { r with ending := some { ending with
              check := some (check.next now).1 } } (.asked .receive now) = noting at noted ⊢
          have begun := grows_acts noted.acts
          obtain ⟨within, took⟩ := grows_receive env noting noting.room
          have few : noting.room ≤ r.unitsHeld := begun.unitsHeld ▸ Nat.sub_le _ _
          have told : ∀ (arrived : UnitReader) (call : EndCall),
              Grows 0 arrived ((arrived.record (.consumed .receive now)).tell call) :=
            fun arrived call => grows_acts
              ((aside_record arrived rfl).trans (aside_tell _ call)).acts
          split <;> rename_i result <;> rw [result] at within took
          · exact begun.then (within.mono few)
          · rename_i next received
            split
            · have some := (begun.then (within.mono few)).trans
                (told next (.received now (tookUnits received)))
              exact some.mono (Nat.le_refl _)
            · rename_i nothing
              have none : received.getD 0 = 0 := by
                rcases received with _ | _ | taken
                · rfl
                · rfl
                · simp [tookUnits] at nothing
              have same := took received rfl
              rw [none] at same
              have before := (begun.trans same).trans
                (told next (.received now (tookUnits received)))
              have closing := before.trans (grows_acts (aside_setEnding _ fun ending =>
                { ending with closed := true }).acts)
              exact closing.then (closing.unitsHeld ▸ ih _)
        · exact last _ asked
        · exact last _ asked
        · exact last _ asked
        · exact last _ (asked.trans (aside_setEnding _ _))

theorem grows_idle (r : UnitReader) : Grows r.unitsHeld r (r.idle env).1 := by
  unfold idle advance
  dsimp only
  have begun := (aside_setEnding r fun ending => { ending with due := none }).trans (aside_tick _)
  generalize (r.setEnding fun ending => { ending with due := none }).tick = s at begun ⊢
  generalize env.clock _ = now
  split
  · exact (grows_acts begun.acts).mono (Nat.zero_le _)
  · have started := begun.trans (aside_setEnding s fun ending =>
      { ending with check := startCheck now ending })
    generalize (s.setEnding fun ending => { ending with check := startCheck now ending }) = t
      at started ⊢
    have taken := started.trans (aside_takeMarker env now t)
    split
    · exact (grows_acts started.acts).mono (Nat.zero_le _)
    · split <;> rename_i result <;> rw [result] at taken
      · exact (grows_acts taken.acts).mono (Nat.zero_le _)
      · have read := grows_acts (taken.trans (aside_takeDepth env now _)).acts
        exact read.then (read.unitsHeld ▸ grows_idleLoop env now 5 _)

/-! ## Room for what is received -/

/-- Deliveries and lanes are within the units. -/
structure Within (r : UnitReader) : Prop where
  deliveries : r.deliveries.size ≤ r.unitsHeld
  lanes : r.lanes.size ≤ r.unitsHeld

section

variable {r next : UnitReader}

theorem Grows.within (grows : Grows 0 r next) (fits : Within r) : Within next := by
  refine ⟨?_, ?_⟩
  · rw [grows.unitsHeld]
    exact Nat.le_trans grows.deliveries fits.deliveries
  · rw [grows.unitsHeld]
    exact grows.lanes fits.lanes

/-- Either there is no room, or only failing deliveries have parts pending. -/
def Opened (r : UnitReader) : Prop :=
  r.room = 0 ∨ ∀ (delivery : Nat) held, r.deliveries[delivery]? = some held →
    held.failing.isSome = true ∨ held.pending = []

theorem length_idle_modify {delivery : Nat} {held : HeldUnit} {f : HeldUnit → HeldUnit}
    (found : r.deliveries[delivery]? = some held) (busy : held.idle = false)
    (stays : (f held).idle = false) :
    ((r.setHeld delivery f).deliveriesWhere HeldUnit.idle).length =
      (r.deliveriesWhere HeldUnit.idle).length := by
  unfold deliveriesWhere
  rw [List.length_map, List.length_map]
  have before := ((toList_erase found).filter fun entry => entry.2.idle).length_eq
  have after := ((toList_modify (f := f) found).filter fun entry => entry.2.idle).length_eq
  rw [List.filter_cons_of_neg (by simp [busy])] at before
  rw [List.filter_cons_of_neg (by simp [stays])] at after
  exact after.trans before.symm

theorem room_openPart (sound : Sound r) {delivery : Nat} {held : HeldUnit} {cursor : Cursor}
    {rest : List Cursor} (found : r.deliveries[delivery]? = some held)
    (pending : held.pending = cursor :: rest) (part : Part) (left : List Cursor) :
    (r.openPart delivery part left).room = r.room - 1 := by
  have new : ¬r.lanes.contains r.nextLane = true := by
    intro member
    obtain ⟨lane, there⟩ := Option.isSome_iff_exists.mp
      (TreeMap.mem_iff_isSome_getElem?.mp (TreeMap.contains_iff_mem.mp member))
    obtain ⟨-, part, opened, -⟩ := sound.opening.lane r.nextLane lane there
    exact absurd (sound.opening.opened _ _ _ opened).1 (Nat.lt_irrefl _)
  have idle := length_idle_modify (f := fun held =>
    { held with pending := left, lanes := held.lanes ++ [r.nextLane] }) found
    (by simp [HeldUnit.idle, pending]) (by simp [HeldUnit.idle])
  unfold openPart
  rw [expectHeld_found found]
  change r.unitsHeld - ((r.lanes.insert r.nextLane _).size +
    ((r.setHeld delivery _).deliveriesWhere HeldUnit.idle).length) = _
  rw [TreeMap.size_insert, if_neg new, idle, room]
  omega

theorem opened_openLoop (count : Nat) : ∀ {r : UnitReader}, Sound r → r.room ≤ count →
    Opened (openLoop count r).2 := by
  induction count with
  | zero => exact fun _ few => .inl (Nat.le_zero.mp few)
  | succ count ih =>
    intro r sound few
    rw [openLoop]
    split
    · rename_i full
      exact .inl full
    · rename_i room
      split
      · rename_i delivery receipt unit cursor rest lanes failing overwritten found
        have member := List.mem_of_find?_eq_some found
        rw [TreeMap.mem_toList_iff_getElem?_eq_some] at member
        refine ih (sound_act (.openPart room member rfl) sound) ?_
        rw [room_openPart sound member rfl]
        omega
      · rename_i none
        refine .inr fun delivery held there => ?_
        by_contra open'
        rw [not_or] at open'
        -- the search finds a delivery, and one with a part to open
        have entry : (delivery, held) ∈ r.deliveries.toList :=
          TreeMap.mem_toList_iff_getElem?_eq_some.mpr there
        obtain ⟨⟨other, found⟩, search⟩ := Option.isSome_iff_exists.mp
          (List.find?_isSome (p := fun entry : Nat × HeldUnit =>
            entry.2.failing.isNone && !entry.2.pending.isEmpty) |>.mpr
              ⟨_, entry, by simpa using open'⟩)
        have holds := List.find?_some search
        obtain ⟨receipt, unit, pending, lanes, failing, overwritten⟩ := found
        cases pending with
        | nil => simp at holds
        | cons cursor rest => exact none _ _ _ _ _ _ _ _ search

/-- With every part open that may be, the deliveries held are within the units in use. -/
theorem size_of_opened (sound : Sound r)
    (opened : ∀ (delivery : Nat) held, r.deliveries[delivery]? = some held →
      held.failing.isSome = true ∨ held.pending = [])
    (unstranded : ∀ (delivery : Nat) held, r.deliveries[delivery]? = some held →
      held.stranded = false) :
    r.deliveries.size ≤ r.lanes.size + (r.deliveriesWhere HeldUnit.idle).length := by
  -- a delivery that is not idle is named by a lane
  have named : r.deliveriesWhere (fun held => !held.idle) ⊆
      r.lanes.toList.map fun entry => entry.2.delivery := by
    intro delivery member
    obtain ⟨held, found, busy⟩ := mem_deliveriesWhere member
    have some : held.lanes ≠ [] := by
      intro none
      have parts : held.pending ≠ [] := by simpa [HeldUnit.idle, none] using busy
      have failing := (opened delivery held found).resolve_right parts
      have whole := unstranded delivery held found
      simp [HeldUnit.stranded, failing, none, parts] at whole
    obtain ⟨partition, owned⟩ := List.exists_mem_of_ne_nil _ some
    obtain ⟨lane, there, same⟩ := sound.opening.held delivery held found partition owned
    exact List.mem_map.mpr ⟨(partition, lane), TreeMap.mem_toList_iff_getElem?_eq_some.mpr there,
      same⟩
  have fewer :=
    (List.Nodup.subperm (distinct_deliveriesWhere r fun held => !held.idle) named).length_le
  rw [List.length_map, TreeMap.length_toList] at fewer
  have parts := List.length_eq_length_filter_add (l := r.deliveries.toList)
    fun entry => entry.2.idle
  rw [TreeMap.length_toList] at parts
  unfold deliveriesWhere at fewer ⊢
  rw [List.length_map] at fewer ⊢
  dsimp only at fewer parts ⊢
  omega

/-! ## Polls -/

theorem within_pollIdle (fits : Within r) : Within (r.pollIdle env).1 := by
  have grows := grows_idle env r
  have idle : (r.idle env).1.lanes.size ≤ (r.idle env).1.unitsHeld :=
    grows.unitsHeld ▸ grows.lanes fits.lanes
  unfold pollIdle
  split
  · rename_i free
    have none : r.deliveries.size = 0 := by
      simp only [holdsWork, Bool.and_eq_true, Bool.not_eq_true', Bool.not_eq_false'] at free
      have empty := free.1.2.1.1.1.1
      rw [TreeMap.isEmpty_eq_size_eq_zero] at empty
      exact eq_of_beq empty
    have within : Within (r.idle env).1 := by
      have few := grows.deliveries
      rw [none, Nat.zero_add] at few
      exact ⟨grows.unitsHeld ▸ few, idle⟩
    split <;> rename_i result <;> rw [result] at within <;> exact within
  · exact fits

theorem within_pollLanes (opened : List PartitionId) (fits : Within r) :
    Within (r.pollLanes env opened).1 := by
  unfold pollLanes
  split
  · exact fits
  · dsimp only
    have scanned := acts_lanesEnded env (fun lane => !lane.hinted) (fun _ _ => true)
      r.lanes.toList r
    generalize lanesEnded env (fun lane => !lane.hinted) (fun _ _ => true) r.lanes.toList r = scan
      at scanned
    have hinted := (grows_acts (scanned.trans (acts_hints scan.1 scan.2))).within fits
    split
    · exact hinted
    · exact within_pollIdle env hinted

theorem within_receive (sound : Sound r) (fits : Within r) (opened : Opened r) (room : 0 < r.room)
    (unstranded : ∀ (delivery : Nat) held, r.deliveries[delivery]? = some held →
      held.stranded = false) : Within (r.receive env r.room).1 := by
  have grows := (grows_receive env r r.room).1
  have parts := opened.resolve_left (Nat.ne_of_gt room)
  have size := size_of_opened sound parts unstranded
  refine ⟨?_, grows.unitsHeld ▸ grows.lanes fits.lanes⟩
  rw [grows.unitsHeld]
  refine Nat.le_trans grows.deliveries ?_
  unfold UnitReader.room at room ⊢
  omega

theorem within_pollReceive (sound : Sound r) (fits : Within r)
    (unstranded : 0 < r.openPending.2.room ∧ r.openPending.2.stopping = false →
      ∀ (delivery : Nat) held, r.openPending.2.deliveries[delivery]? = some held →
        held.stranded = false) : Within (r.pollReceive env).1 := by
  have opens := acts_openPending r
  have opened : Opened r.openPending.2 := opened_openLoop r.room sound (Nat.le_refl _)
  unfold pollReceive
  generalize r.openPending = result at opens opened unstranded ⊢
  obtain ⟨lanes, s⟩ := result
  dsimp only at opens opened unstranded ⊢
  replace fits := (grows_acts opens).within fits
  split
  · rename_i asks
    have received := within_receive env (sound_acts opens sound) fits opened asks.1
      (unstranded asks)
    split <;> rename_i result <;> rw [result] at received
    · exact received
    · rename_i next took
      refine within_pollLanes env _ ((grows_acts ?_).within received)
      refine Relation.ReflTransGen.trans ?_ (acts_openPending _)
      split
      · exact .refl
      · exact (aside_busy env _).acts
      · exact (aside_receiveFailed env _).acts
  · exact within_pollLanes env _ fits

theorem within_pollEvents (sound : Sound r) (fits : Within r)
    (unstranded : ∀ s, r.asking env = some s → ∀ (delivery : Nat) held,
      s.deliveries[delivery]? = some held → held.stranded = false) :
    Within (r.pollEvents env).1 := by
  have settles := settles_settle env r sound
  unfold pollEvents
  unfold asking at unstranded
  split
  · exact ⟨fits.deliveries, fits.lanes⟩
  · rename_i started
    rw [if_neg started] at unstranded
    generalize r.settle env = result at settles unstranded ⊢
    obtain ⟨s, error⟩ := result
    obtain ⟨fewer, sound⟩ := settles
    replace fits := fewer.within fits
    cases error with
    | some error => exact fits
    | none =>
      have told := acts_busy env s
      unfold pollExits
      dsimp only at unstranded ⊢
      generalize (if s.holdsWork then s.busy env else s) = t at told unstranded ⊢
      replace fits := (grows_acts told).within fits
      split
      · exact ⟨fits.deliveries, fits.lanes⟩
      · rename_i unrevoked
        split
        · exact ⟨fits.deliveries, fits.lanes⟩
        · rename_i unretired
          refine within_pollReceive env (sound_acts told sound) fits fun asks => ?_
          refine unstranded _ ?_
          rw [if_neg (by simp_all), if_pos asks]

/-! ## Whole runs -/

theorem within_call (sound : Sound r) (fits : Within r) {call : Call}
    (allowed : r.unstranded env call = true) : Within (r.call env call) := by
  cases call with
  | pollEvents =>
    refine within_pollEvents env sound fits fun s asks delivery held found => ?_
    rw [unstranded, asks, Option.all_some, List.all_eq_true] at allowed
    have entry := allowed (delivery, held) (TreeMap.mem_toList_iff_getElem?_eq_some.mpr found)
    simpa using entry
  | commit watermarks => exact (grows_acts (acts_commit env watermarks sound)).within fits
  | renewHeld => exact (grows_acts (acts_renewHeld env r)).within fits
  | readingOnStop =>
    change Within (r.readingOnStop env).1
    unfold readingOnStop
    split
    · exact fits
    · exact (grows_acts (acts_endedThenReports env r)).within fits
  | stopReading => exact (settles_stopReading env r sound).1.within fits
  | listerFinished => exact (grows_acts (acts_listerFinished r)).within fits
  | lane event => exact (grows_laneEvent r event).within fits

end

/-- The deliveries and the lanes held never exceed the units, in a run that asks for no
unit while a delivery is stranded. -/
theorem held_within_units (unitsHeld cap : Nat) (handsBack : Bool) (ending : Option JobEnd)
    (env : Environment) (calls : List Call) (r : UnitReader)
    (run : Run (fun r call => some (r.call env call)) (fun r call => r.unstranded env call = true)
      { unitsHeld := unitsHeld, reEnqueueCap := cap, handsBack := handsBack, ending := ending }
        calls r) :
    r.deliveries.size ≤ unitsHeld ∧ r.lanes.size ≤ unitsHeld := by
  have kept := run.invariant (fun r => Sound r ∧ Within r ∧ r.unitsHeld = unitsHeld)
    ⟨sound_start unitsHeld cap handsBack ending, ⟨Nat.zero_le _, Nat.zero_le _⟩, rfl⟩ ?_
  · obtain ⟨-, fits, rfl⟩ := kept
    exact ⟨fits.deliveries, fits.lanes⟩
  · rintro before _ call ⟨sound, fits, units⟩ allowed ⟨⟩
    exact ⟨sound_call env sound call, within_call env sound fits allowed,
      (deeds_kept (deeds_call env sound call)).unitsHeld.trans units⟩

/-- A notification of two objects, then one of a third; a busy feed that settles the
re-enqueue of an overwritten object with `outcome`. -/
def notifications (outcome : Reply) : Environment :=
  let cursor := fun key => ⟨⟨key, 1, some "1", 0⟩, [], .notification none 0, none, []⟩
  { decode := fun body => .read (if body = [] then [cursor "a", cursor "b"] else [cursor "c"])
    backend := ""
    lanes := fun _ => []
    reply := fun _ => some ⟨.retryable, "busy"⟩
    outcome := fun time => if time < 9 then none else some outcome
    receive := fun time =>
      .ok (if time < 4 then [⟨7, "u", []⟩] else if time < 10 then [] else [⟨8, "v", [0]⟩])
    clock := fun _ => 0
    stop := fun _ => false
    marker := fun _ => none
    depth := fun _ => none
    reading := fun _ => none
    steady := fun _ _ _ => Nat.le_refl 0 }

/-- The first object is overwritten while its lane reads it, and the lane's last watermark
is committed before the second object opens. -/
def overwrittenFirst : List Call :=
  [.pollEvents, .pollEvents, .lane (.report 0 ⟨.etagDrift, "changed", some ⟨"a", some "2", 2, 1⟩⟩),
    .lane (.terminal 0 5), .commit [(0, 5)], .pollEvents, .pollEvents]

/-- The feed takes the re-enqueue, and the second object takes the unit that is free. -/
theorem held_within_units_confirmed :
    ∃ r : UnitReader, Run (fun r call => some (r.call (notifications none) call))
      (fun r call => r.unstranded (notifications none) call = true)
      { unitsHeld := 1, reEnqueueCap := 3, handsBack := true, ending := none } overwrittenFirst r ∧
      (r.deliveries.size ≤ 1 ∧ r.lanes.size ≤ 1) := by
  have executes : ((replay (fun (r : UnitReader) call => some (r.call (notifications none) call))
      (fun r call => r.unstranded (notifications none) call = true)
      { unitsHeld := 1, reEnqueueCap := 3, handsBack := true, ending := none }
      overwrittenFirst).any fun r => r.lanes.size == 1) = true := by
    decide
  obtain ⟨r, ran, -⟩ := (Option.any_eq_true _ _).mp executes
  have run := run_of_replay _ _ _ ran
  exact ⟨r, run, held_within_units 1 3 true none (notifications none) overwrittenFirst r run⟩

/-- The feed refuses the re-enqueue and is too busy to take the fail: the reader of one
unit holds two deliveries. -/
theorem held_beyond_units :
    let env := notifications (some ⟨.refused, "too long"⟩)
    let r := overwrittenFirst.foldl (call env)
      { unitsHeld := 1, reEnqueueCap := 3, handsBack := true, ending := none }
    r.deliveries.size = 2 ∧ r.unitsHeld = 1 := by
  decide

end UnitReader

end Spate.S3
