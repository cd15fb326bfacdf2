import Spate.UnitReaderEnd

set_option autoImplicit false

/- The polls of a bounded job. A poll leaves the end check either started over or watching a
reader with nothing in hand, so that a job drains only over a recent log in which nothing
was held or received. -/
namespace Spate.S3

open Spate.Feed

namespace UnitReader

section

variable {env : Environment} {window : Option Nat} {now : Nat} {r next : UnitReader}
  {ending : JobEnd} {check : EndCheck}

/-! ## The end check -/

theorem Tends.tick (tends : Tends env window r) : Tends env window r.tick := by
  rcases tends with ⟨ending, reset⟩ | ⟨ending, check, watching, live⟩
  · exact .inl ⟨ending, reset.apart (apart_tick r)⟩
  · exact .inr ⟨ending, check, watching.tick.later (env.steady _ _ (Nat.le_succ _)), live⟩

/-- How a poll leaves the reader of a job that has not drained. -/
inductive Polled (env : Environment) (window : Option Nat) :
    UnitReader × Except SourceError SourceEvent → Prop
  | drained {next : UnitReader} {now : Nat} {ending : JobEnd} {check : EndCheck}
      (watching : Watching window now next ending check)
      (completed : check.outcome = some .completed) : Polled env window (next, .ok .drained)
  | goesOn {next : UnitReader} {event : SourceEvent} (other : event ≠ .drained)
      (tends : Tends env window next) : Polled env window (next, .ok event)
  | failed (next : UnitReader) (error : SourceError) : Polled env window (next, .error error)

theorem Tends.openPending (tends : Tends env window r) : Tends env window r.openPending.2 := by
  rcases tends with ⟨ending, reset⟩ | ⟨ending, check, watching, live⟩
  · exact .inl ⟨ending, reset.apart (apart_openPending r)⟩
  · have same : r.openPending = ([], r) := openLoop_free watching.free _
    rw [same]
    exact .inr ⟨ending, check, watching, live⟩

theorem Tends.received (tends : Tends env window r) {room : Nat} {took : Option Nat} :
    r.receive env room = (next, .ok took) → Tends env window (match took with
      | some 0 => next
      | some _ => next.busy env
      | none => next.receiveFailed env) := by
  intro result
  have apart := apart_receive env room r
  rw [result] at apart
  rcases took with _ | _ | count
  · obtain rfl := receive_none result
    change Tends env window (receiveFailed env _)
    unfold receiveFailed
    split
    · exact .inl (tends.busy apart)
    · rename_i opened
      rcases tends with ⟨ending, reset⟩ | ⟨ending, check, watching, live⟩
      · exact .inl ⟨ending, reset.apart apart⟩
      · have unclosed : ending.closed = false := by
          have is : (r.tick.record .receiveFailed).ending = some ending := watching.is
          rw [is] at opened
          simpa using opened
        exact .inr ⟨ending, check, (watching.tick.record rfl rfl fun _ => unclosed).later
          (env.steady _ _ (Nat.le_succ _)), live⟩
  · obtain rfl := receive_zero result
    rcases tends with ⟨ending, reset⟩ | ⟨ending, check, watching, live⟩
    · exact .inl ⟨ending, reset.apart apart⟩
    · exact .inr ⟨ending, check, (watching.tick.record rfl rfl (by simp)).later
        (env.steady _ _ (Nat.le_succ _)), live⟩
  · exact .inl (tends.busy apart)

theorem Tends.settle (tends : Tends env window r) (ok : (r.settle env).2 = none) :
    Tends env window (r.settle env).1 := by
  rcases tends with ⟨ending, reset⟩ | ⟨ending, check, watching, live⟩
  · exact .inl ⟨ending, reset.apart (apart_settle env r)⟩
  · have still := still_settle env watching.free ok
    exact .inr ⟨ending, check, (watching.still still).later (env.steady _ _ still.time), live⟩

/-- A call that does not touch what the reader holds when it holds nothing. -/
theorem Tends.besides (tends : Tends env window r) (apart : r.Apart next)
    (still : r.Free → r.Still next) : Tends env window next := by
  rcases tends with ⟨ending, reset⟩ | ⟨ending, check, watching, live⟩
  · exact .inl ⟨ending, reset.apart apart⟩
  · exact .inr ⟨ending, check, (watching.still (still watching.free)).later
      (env.steady _ _ apart.time), live⟩

theorem commit_free (free : r.Free) (watermarks : List (PartitionId × Int)) :
    commit env watermarks r = (r, none) := by
  unfold commit
  induction watermarks with
  | nil => rfl
  | cons watermark rest ih =>
    have none : commitOne env watermark r = (r, none) := by
      rw [commitOne, free.noLane]
    rw [forEach, none]
    exact ih

theorem Tends.commit (tends : Tends env window r) (watermarks : List (PartitionId × Int)) :
    Tends env window (commit env watermarks r).1 := by
  refine tends.besides (apart_commit env watermarks r) fun free => ?_
  rw [commit_free free]
  exact .refl free

theorem Tends.renewHeld (tends : Tends env window r) : Tends env window (r.renewHeld env) := by
  refine tends.besides (apart_renewHeld env r) fun free => ?_
  unfold UnitReader.renewHeld
  rw [renewEach_free env free]
  split
  · exact still_same (free.fields rfl rfl rfl rfl rfl) rfl (Nat.le_refl _) rfl
  · exact .refl free

/-- The lister of a solo job has finished. -/
theorem Fits.finish {history : List Happening} (fits : Fits window ending history)
    (solo : finishWindow ending.finish = none) :
    Fits window { ending with finish := .solo true } (history ++ [.listerFinished]) where
  mode := solo.symm.trans fits.mode
  listed := by simp
  started := fun check running => ⟨(fits.started check running).1, by simp⟩

theorem Tends.listerFinished (tends : Tends env window r) : Tends env window r.listerFinished := by
  have noted : ∀ ending, ({ r with ending := ending }.record .listerFinished).history =
      r.history ++ [.listerFinished] := fun ending => history_record _ _
  unfold UnitReader.listerFinished
  rcases tends with ⟨ending, reset⟩ | ⟨ending, check, watching, live⟩
  · rw [reset.is]
    dsimp only
    split
    · exact .inl ⟨ending, reset⟩
    · rename_i finished solo
      refine .inl ⟨{ ending with finish := .solo true }, rfl, ?_, reset.marker, reset.depth,
        reset.fresh⟩
      rw [noted]
      exact reset.fits.finish (by rw [solo]; rfl)
  · rw [watching.is]
    dsimp only
    split
    · exact .inr ⟨ending, check, watching, live⟩
    · rename_i finished solo
      obtain ⟨earlier, recent, log, watched⟩ := watching.recent
      refine .inr ⟨{ ending with finish := .solo true }, check, ⟨rfl, watching.running,
        watching.free.fields rfl rfl rfl rfl rfl, ?_, watching.marker, watching.depth, earlier,
        recent ++ [⟨.listerFinished, r.holdsWork⟩], ?_, watched.append ?_ rfl nofun⟩, live⟩
      · rw [noted]
        exact watching.fits.finish (by rw [solo]; rfl)
      · change r.log ++ _ = _
        rw [log, List.append_assoc]
        rfl
      · simp [Moment.quiet, free_iff.mpr watching.free, Happening.receives]

/-! ## A stopping reader -/

/-- One call of the controller. Every error of a poll is fatal: a poll that fails is the
last one, as is one that drains the job. -/
def step (env : Environment) (r : UnitReader) : Call → Option UnitReader
  | .pollEvents =>
    match r.pollEvents env with
    | (_, .error _) | (_, .ok .drained) => none
    | (next, .ok _) => some next
  | other => some (r.call env other)

/-- What a run of a job that has not drained keeps. -/
structure Runs (env : Environment) (window : Option Nat) (r : UnitReader) : Prop where
  sound : Sound r
  tends : r.stopping = true ∨
    Tends env window r ∧ r.owed = receivedReceipts r.history

/-- A call that is a sequence of acts. -/
theorem Runs.acts (runs : Runs env window r) (acts : Acts r next)
    (stopping : r.stopping = true → next.stopping = true)
    (tends : Tends env window r → Tends env window next) : Runs env window next where
  sound := sound_acts acts runs.sound
  tends := runs.tends.imp stopping fun ⟨goes, balanced⟩ =>
    ⟨tends goes, balanced_deeds acts.deeds runs.sound balanced⟩

end

/-- The reader of a bounded job as it is built: a marker job with its window, or a solo
one. -/
def bounded (unitsHeld cap : Nat) (handsBack : Bool) (window : Option Nat) : UnitReader :=
  { unitsHeld := unitsHeld
    reEnqueueCap := cap
    handsBack := handsBack
    ending := some { finish := (window.map Finish.marker).getD (.solo false) } }

end UnitReader

end Spate.S3
