import Spate.UnitReaderActs

set_option autoImplicit false

/- Calls that leave the end of a bounded job alone. -/
namespace Spate.S3

open Spate.Feed

namespace UnitReader

/-- `next` is later than `r`, and neither the end check nor a stop has moved. -/
structure Apart (r next : UnitReader) : Prop where
  ending : next.ending = r.ending
  stopping : next.stopping = r.stopping
  time : r.time ≤ next.time
  log : r.log <+: next.log

theorem Apart.refl (r : UnitReader) : r.Apart r := ⟨rfl, rfl, Nat.le_refl _, List.prefix_rfl⟩

theorem Apart.trans {r middle next : UnitReader} (first : r.Apart middle)
    (second : middle.Apart next) : r.Apart next :=
  ⟨second.ending.trans first.ending, second.stopping.trans first.stopping,
    Nat.le_trans first.time second.time, first.log.trans second.log⟩

theorem apart_record (r : UnitReader) (happening : Happening) : r.Apart (r.record happening) :=
  ⟨rfl, rfl, Nat.le_refl _, List.prefix_append _ _⟩

theorem apart_tick (r : UnitReader) : r.Apart r.tick := ⟨rfl, rfl, Nat.le_succ _, List.prefix_rfl⟩

theorem apart_request (r : UnitReader) (happening : Happening) :
    r.Apart (r.tick.record happening) :=
  (apart_tick r).trans (apart_record _ _)

theorem apart_setHeld (r : UnitReader) (delivery : Nat) (f : HeldUnit → HeldUnit) :
    r.Apart (r.setHeld delivery f) :=
  ⟨rfl, rfl, Nat.le_refl _, List.prefix_rfl⟩

theorem apart_expectHeld (r : UnitReader) (delivery : Nat) : r.Apart (r.expectHeld delivery) := by
  unfold expectHeld
  split <;> exact ⟨rfl, rfl, Nat.le_refl _, List.prefix_rfl⟩

theorem apart_release (r : UnitReader) (delivery : Nat) : r.Apart (r.release delivery) := by
  unfold release
  split <;> exact ⟨rfl, rfl, Nat.le_refl _, List.prefix_rfl⟩

theorem apart_retire (r : UnitReader) (partition : PartitionId) : r.Apart (r.retire partition) := by
  unfold retire
  split <;> exact ⟨rfl, rfl, Nat.le_refl _, List.prefix_rfl⟩

theorem apart_foldl {α : Type} {f : UnitReader → α → UnitReader}
    (each : ∀ r item, Apart r (f r item)) (items : List α) :
    ∀ r : UnitReader, r.Apart (items.foldl f r) := by
  induction items with
  | nil => exact Apart.refl
  | cons item rest ih => exact fun r => (each r item).trans (ih _)

/-! ## The lanes run, reports are read -/

theorem apart_laneEvent (r : UnitReader) (event : LaneEvent) : r.Apart (r.laneEvent event) := by
  cases event <;> rw [laneEvent] <;> split
  · exact ⟨rfl, rfl, Nat.le_refl _, List.prefix_append _ _⟩
  · exact .refl r
  · exact ⟨rfl, rfl, Nat.le_refl _, List.prefix_append _ _⟩
  · exact .refl r

variable (env : Environment)

theorem apart_interfere (r : UnitReader) : r.Apart (r.interfere env) :=
  (apart_foldl apart_laneEvent _ r).trans (apart_tick _)

theorem apart_lanesEnded (asks : LaneState → Bool) (hit : LaneState → Int → Bool)
    (entries : List (PartitionId × LaneState)) :
    ∀ r : UnitReader, r.Apart (lanesEnded env asks hit entries r).2 := by
  induction entries with
  | nil => exact Apart.refl
  | cons entry rest ih =>
    intro r
    rw [lanesEnded]
    split
    · exact (apart_interfere env r).trans (ih _)
    · exact ih r

theorem apart_readReport (r : UnitReader) (partition : PartitionId) (report : PoisonReport) :
    r.Apart (r.readReport partition report) := by
  unfold readReport onOverwrite overwriteHeld
  split
  · split
    · exact .refl r
    · split
      · exact .refl r
      · split
        · exact .refl r
        · have dropped := fun happening delivery f =>
            (apart_record r happening).trans (apart_setHeld _ delivery f)
          dsimp only
          split
          · exact dropped _ _ _
          · exact (dropped _ _ _).trans (apart_record _ _)
  · split
    · exact .refl r
    · exact apart_setHeld r _ _

theorem apart_drain (count : Nat) : ∀ r : UnitReader, r.Apart (drain count r) := by
  induction count with
  | zero => exact Apart.refl
  | succ count ih =>
    intro r
    rw [drain]
    split
    · exact .refl r
    · rename_i partition report rest _
      have popped : r.Apart { r with channel := rest } :=
        ⟨rfl, rfl, Nat.le_refl _, List.prefix_rfl⟩
      exact (popped.trans (apart_readReport _ partition report)).trans (ih _)

theorem apart_readReports (r : UnitReader) : r.Apart (r.readReports env) :=
  (apart_interfere env r).trans (apart_drain _ _)

/-! ## Sequences of calls -/

section

variable {env} {α : Type} {f : α → UnitReader → UnitReader × Option SourceError}

theorem apart_forEach (each : ∀ item r, Apart r (f item r).1) (items : List α) :
    ∀ r : UnitReader, r.Apart (forEach f items r).1 := by
  induction items with
  | nil => exact Apart.refl
  | cons item rest ih =>
    intro r
    have first := each item r
    rw [forEach]
    split <;> rename_i result <;> rw [result] at first
    · exact first.trans (ih _)
    · exact first

theorem apart_andThen {r : UnitReader} {first : UnitReader × Option SourceError}
    {next : UnitReader → UnitReader × Option SourceError} (before : r.Apart first.1)
    (after : ∀ r : UnitReader, r.Apart (next r).1) : r.Apart (andThen first next).1 := by
  unfold andThen
  split
  · exact before.trans (after _)
  · exact before

end

/-! ## Settling -/

theorem apart_checkReEnqueue (item : Nat × String) (r : UnitReader) :
    r.Apart (checkReEnqueue env item r).1 := by
  obtain ⟨delivery, key⟩ := item
  simp only [checkReEnqueue]
  split
  · exact .refl r
  · split
    · split
      · exact apart_tick r
      · exact (apart_request r _).trans (apart_setHeld _ _ _)
      · exact (apart_request r _).trans (apart_setHeld _ _ _)
    · exact .refl r

theorem apart_checkReEnqueues (r : UnitReader) : r.Apart (r.checkReEnqueues env).1 :=
  apart_forEach (apart_checkReEnqueue env) _ r

theorem apart_acknowledge (delivery : Nat) (r : UnitReader) :
    r.Apart (acknowledge env delivery r).1 := by
  unfold acknowledge
  split
  · exact apart_expectHeld r delivery
  · dsimp only
    split <;> exact ⟨rfl, rfl, Nat.le_succ _, List.prefix_append _ _⟩

theorem apart_failHeld (delivery : Nat) (r : UnitReader) : r.Apart (failHeld env delivery r).1 := by
  unfold failHeld
  split
  · exact apart_expectHeld r delivery
  · dsimp only
    split
    · exact (apart_request r _).trans (apart_release _ _)
    · exact apart_request r _
    · exact apart_request r _

theorem apart_failUnread (fail : Nat × String) (r : UnitReader) :
    r.Apart (failUnread env fail r).1 := by
  unfold failUnread
  dsimp only
  split <;> exact ⟨rfl, rfl, Nat.le_succ _, List.prefix_append _ _⟩

theorem apart_renew (item : Nat × Nat) (r : UnitReader) : r.Apart (renew env item r).1 := by
  unfold renew
  dsimp only
  split
  · exact apart_request r _
  · split
    · exact (apart_request r _).trans (apart_release _ _)
    · exact apart_request r _
    · exact apart_request r _
    · exact apart_request r _

theorem apart_renewEach (r : UnitReader) : r.Apart (r.renewEach env).1 :=
  apart_forEach (apart_renew env) _ r

theorem apart_resendFails (r : UnitReader) : r.Apart (r.resendFails env).1 := by
  unfold resendFails
  dsimp only
  refine Apart.trans ?_ (apart_forEach (apart_failUnread env) _ _)
  split
  · exact ⟨rfl, rfl, Nat.le_refl _, List.prefix_rfl⟩
  · exact ⟨rfl, rfl, Nat.le_refl _, List.prefix_append _ _⟩

theorem apart_retireEnded (r : UnitReader) (partition : PartitionId) :
    r.Apart (r.retireEnded partition) := by
  unfold retireEnded
  split
  · exact .refl r
  · rename_i lane _
    have indexed := apart_expectHeld r lane.delivery
    dsimp only
    split
    · exact indexed.trans (apart_retire _ _)
    · exact indexed

theorem apart_sweep (r : UnitReader) : r.Apart (r.sweep env).1 := by
  have indexed : r.Apart
      (r.lanes.toList.foldl (fun r entry => r.expectHeld entry.2.delivery) r) :=
    apart_foldl (fun r (entry : PartitionId × LaneState) => apart_expectHeld r entry.2.delivery) _ r
  unfold sweep
  generalize r.lanes.toList.foldl (fun r entry => r.expectHeld entry.2.delivery) r = s at indexed
  exact ((indexed.trans (apart_lanesEnded env _ _ _ s)).trans (apart_readReports env _)).trans
    ((apart_foldl apart_retireEnded _ _).trans (apart_forEach (apart_acknowledge env) _ _))

theorem apart_settle (r : UnitReader) : r.Apart (r.settle env).1 := by
  unfold settle
  split
  · exact ⟨rfl, rfl, Nat.le_refl _, List.prefix_rfl⟩
  · dsimp only
    refine apart_andThen ((apart_readReports env r).trans (apart_checkReEnqueues env _)) fun r => ?_
    refine apart_andThen (apart_forEach (apart_failHeld env) _ _) fun r => ?_
    refine apart_andThen (apart_resendFails env r) fun r => ?_
    exact apart_andThen (apart_sweep env r) fun r => apart_renewEach env r

theorem apart_renewHeld (r : UnitReader) : r.Apart (r.renewHeld env) := by
  unfold renewHeld
  split
  · exact (apart_renewEach env r).trans ⟨rfl, rfl, Nat.le_refl _, List.prefix_rfl⟩
  · exact .refl r

/-! ## Receiving and opening -/

theorem apart_openPart (r : UnitReader) (delivery : Nat) (part : Part) (pending : List Cursor) :
    r.Apart (r.openPart delivery part pending) := by
  unfold openPart
  refine Apart.trans ?_ (apart_record _ _)
  exact (apart_expectHeld r delivery).trans ⟨rfl, rfl, Nat.le_refl _, List.prefix_rfl⟩

theorem apart_openLoop (count : Nat) : ∀ r : UnitReader, r.Apart (openLoop count r).2 := by
  induction count with
  | zero => exact Apart.refl
  | succ count ih =>
    intro r
    rw [openLoop]
    split
    · exact .refl r
    · split
      · exact (apart_openPart r _ _ _).trans (ih _)
      · exact .refl r

theorem apart_openPending (r : UnitReader) : r.Apart r.openPending.2 := apart_openLoop _ r

theorem apart_take (delivery : Delivery) (r : UnitReader) : r.Apart (take env delivery r).1 := by
  unfold take
  split
  · exact ⟨rfl, rfl, Nat.le_refl _, List.prefix_append _ _⟩
  · exact ⟨rfl, rfl, Nat.le_refl _, List.prefix_append _ _⟩
  · exact apart_failUnread env _ r

theorem apart_receive (room : Nat) (r : UnitReader) : r.Apart (r.receive env room).1 := by
  unfold receive
  split
  · dsimp only
    split <;> exact apart_request r _
  · rename_i deliveries _
    dsimp only
    have told := apart_request r (.received ((deliveries.take room).map Delivery.receipt))
    have taken := told.trans (apart_forEach (apart_take env) (deliveries.take room) _)
    split <;> rename_i result <;> rw [result] at taken
    · exact taken
    · exact taken

/-! ## The other calls -/

theorem apart_commitOne (item : PartitionId × Int) (r : UnitReader) :
    r.Apart (commitOne env item r).1 := by
  obtain ⟨partition, watermark⟩ := item
  simp only [commitOne]
  split
  · exact .refl r
  · rename_i lane _
    have noted : r.Apart ((r.noteCommit partition lane watermark).interfere env) := by
      refine Apart.trans ?_ (apart_interfere env _)
      exact ⟨rfl, rfl, Nat.le_refl _, List.prefix_append _ _⟩
    split
    · exact noted
    · have read := noted.trans ((apart_readReports env _).trans (apart_expectHeld _ lane.delivery))
      split
      · have retired := read.trans ((apart_retire _ partition).trans
          (apart_expectHeld _ lane.delivery))
        split
        · exact retired.trans (apart_acknowledge env _ _)
        · exact retired
      · exact read

theorem apart_commit (watermarks : List (PartitionId × Int)) (r : UnitReader) :
    r.Apart (commit env watermarks r).1 :=
  apart_forEach (apart_commitOne env) watermarks r

end UnitReader

end Spate.S3
