import Mathlib.Data.List.Perm.Basic
import Spate.KafkaCustody
import Spate.KafkaWorld
import Spate.Lists

set_option autoImplicit false

/- The books of a Kafka feed: every delivery the tracker holds is in one container, every
unfinished copy that is not held is carried by one write, and `admitting` counts the
deliveries in a gate pass and those with an attempt write, in every reachable state of a
feed that has neither stopped nor latched. -/
namespace Spate.Kafka

/-! ## Locked sections -/

namespace State

theorem dropUnowned_spec (st : State) : ∃ tracker, Tracker.Alike st.tracker tracker ∧
    st.dropUnowned =
      { st with
        tracker := tracker
        gating := st.gating.filter fun entry => (st.tracker.holds entry.receipt).isSome
        ready := st.ready.filter fun entry => (st.tracker.holds entry.receipt).isSome } := by
  obtain ⟨gating, first⟩ := Tracker.retain_spec Gating.receipt st.gating st.tracker
  obtain ⟨ready, second⟩ := Tracker.retain_spec Ready.receipt st.ready
    (Tracker.retain Gating.receipt st.gating st.tracker).2
  refine ⟨_, first.trans second, ?_⟩
  simp only [dropUnowned, gating, ready, first.holds]

theorem putBack_spec (st : State) (entries : List Gating) :
    ∃ tracker, Tracker.Alike st.tracker tracker ∧
      st.putBack entries =
        { st with
          tracker := tracker
          admitting := st.admitting - entries.length
          gating := (entries.filter fun entry => (st.tracker.holds entry.receipt).isSome) ++
            st.gating } := by
  unfold putBack
  -- The entries are put back from the last to the first, so the tail is done first.
  generalize st.admitting - entries.length = admitting
  induction entries with
  | nil => exact ⟨st.tracker, .refl _, rfl⟩
  | cons entry entries ih =>
    obtain ⟨tracker, alike, done⟩ := ih
    have answer := Tracker.heldBy_fst tracker entry.receipt
    have dropped := Tracker.heldBy_alike tracker entry.receipt
    rw [alike.holds] at answer
    simp only [List.foldr_cons, done]
    generalize tracker.heldBy entry.receipt = asked at answer dropped
    obtain ⟨found, tracker'⟩ := asked
    refine ⟨tracker', alike.trans dropped, ?_⟩
    change found = _ at answer
    rw [List.filter_cons, ← answer]
    cases found <;> rfl

def stillDue (t : Tracker) : Write → Bool
  | .move moving => t.current moving.position
  | .tombstone tombstone => t.current tombstone.position
  | .attempt attempt => (t.holds attempt.receipt).isSome
  | .publish _ _ => true

end State

/-- The receipt an attempt write admits. -/
def Write.admits : Write → Option Nat
  | .attempt record => some record.receipt
  | _ => none

/-- The copy a move or a tombstone settles. -/
def Write.settles : Write → Option Position
  | .move moving => some moving.position
  | .tombstone record => some record.position
  | _ => none

namespace State

theorem keepDue_spec (st : State) (write : Write) :
    ∃ tracker, Tracker.Alike st.tracker tracker ∧
      st.keepDue write =
        (stillDue st.tracker write,
          { st with
            tracker := tracker
            admitting :=
              if stillDue st.tracker write then st.admitting
              else st.admitting - write.admits.toList.length }) := by
  cases write with
  | publish message confirmer => exact ⟨st.tracker, .refl _, rfl⟩
  | move moving =>
    refine ⟨st.tracker, .refl _, ?_⟩
    cases due : st.tracker.current moving.position <;> simp [keepDue, stillDue, Write.admits, due]
  | tombstone record =>
    refine ⟨st.tracker, .refl _, ?_⟩
    cases due : st.tracker.current record.position <;> simp [keepDue, stillDue, Write.admits, due]
  | attempt record =>
    have answer := Tracker.heldBy_fst st.tracker record.receipt
    have dropped := Tracker.heldBy_alike st.tracker record.receipt
    simp only [keepDue, stillDue, ← answer]
    generalize st.tracker.heldBy record.receipt = asked at dropped
    obtain ⟨found, tracker⟩ := asked
    refine ⟨tracker, dropped, ?_⟩
    cases found <;> rfl

theorem stillDue_alike {t t' : Tracker} (alike : Tracker.Alike t t') (write : Write) :
    stillDue t' write = stillDue t write := by
  cases write with
  | publish message confirmer => rfl
  | move moving => exact alike.current moving.position
  | tombstone tombstone => exact alike.current tombstone.position
  | attempt attempt => simp only [stillDue, alike.holds]

def lapsed (t : Tracker) (writes : List Write) : Nat :=
  ((writes.filter fun write => !stillDue t write).filterMap Write.admits).length

theorem keepAllDue_spec (writes : List Write) : ∀ st : State,
    ∃ tracker, Tracker.Alike st.tracker tracker ∧
      keepAllDue writes st =
        (writes.filter (stillDue st.tracker),
          { st with
            tracker := tracker
            admitting := st.admitting - lapsed st.tracker writes }) := by
  induction writes with
  | nil => exact fun st => ⟨st.tracker, .refl _, rfl⟩
  | cons write writes ih =>
    intro st
    obtain ⟨first, alike, kept⟩ := keepDue_spec st write
    obtain ⟨tracker, later, rest⟩ := ih (st.keepDue write).2
    rw [kept] at later rest
    have same : ∀ write, stillDue first write = stillDue st.tracker write :=
      stillDue_alike alike
    refine ⟨tracker, alike.trans later, ?_⟩
    unfold keepAllDue
    simp only [kept, rest]
    have sameLapsed : lapsed first writes = lapsed st.tracker writes := by
      unfold lapsed
      simp only [same]
    have sameKept : writes.filter (stillDue first) = writes.filter (stillDue st.tracker) := by
      rw [funext same]
    rw [sameLapsed, sameKept]
    cases due : stillDue st.tracker write with
    | true => simp [lapsed, due]
    | false =>
      have more : lapsed st.tracker (write :: writes) =
          write.admits.toList.length + lapsed st.tracker writes := by
        unfold lapsed
        rw [List.filter_cons_of_pos (by simp [due]), List.filterMap_cons]
        cases write.admits with
        | none => simp
        | some receipt => simp [Nat.add_comm]
      simp [due, more, Nat.sub_sub]

theorem takeDue_spec (st : State) (now : Nat) :
    ∃ tracker, Tracker.Alike st.tracker tracker ∧
      st.takeDue now =
        (((st.resends.filter (·.1 ≤ now)).map (·.2)).filter (stillDue st.tracker),
          { st with
            tracker := tracker
            resends := st.resends.filter (¬ ·.1 ≤ now)
            admitting := st.admitting -
              lapsed st.tracker ((st.resends.filter (·.1 ≤ now)).map (·.2)) }) := by
  unfold takeDue
  exact keepAllDue_spec _ { st with resends := st.resends.filter (¬ ·.1 ≤ now) }

end State

/-! ## The books -/

/-- What an event leaves open of the delivered copies. -/
def openStep (opens : List Position) : Event → List Position
  | .delivered copy => copy :: opens
  | .replaced receipt _ => without opens receipt
  | .moved receipt .complete => without opens receipt
  | .tombstoned receipt => without opens receipt
  | _ => opens

def openCopies (history : List Event) : List Position := history.foldl openStep []

theorem openCopies_append (history events : List Event) :
    openCopies (history ++ events) = events.foldl openStep (openCopies history) :=
  List.foldl_append

def Event.returnedReceipt : Event → Option Nat
  | .returned delivery => some delivery.receipt
  | _ => none

namespace World

/-- The writes in flight and those waiting to be sent again. -/
def pending (w : World) : List Write :=
  w.flight.map (·.write) ++ w.core.state.resends.map (·.2)

def atGate (w : World) : List Nat := w.core.state.gating.map (·.receipt)

def inPass (w : World) : List Nat := w.gate.entries.map (·.receipt)

/-- The receipts with an attempt write in flight or waiting. -/
def attempts (w : World) : List Nat := w.pending.filterMap Write.admits

def buffered (w : World) : List Nat := w.core.state.ready.map (·.receipt)

def handedOut (w : World) : List Nat := w.core.state.handed.keys

/-- The copies of the moves and tombstones in flight or waiting. -/
def writes (w : World) : List Position := w.pending.filterMap Write.settles

/-- The receipts not handed out yet. -/
def shelf (w : World) : List Nat := w.atGate ++ w.inPass ++ w.attempts ++ w.buffered

def returned (w : World) : List Nat := w.history.filterMap Event.returnedReceipt

def opens (w : World) : List Position := openCopies w.history

def tracker (w : World) : Tracker := w.core.state.tracker

theorem mem_shelf {w : World} {receipt : Nat} :
    receipt ∈ w.shelf ↔ receipt ∈ w.atGate ∨ receipt ∈ w.inPass ∨ receipt ∈ w.attempts ∨
      receipt ∈ w.buffered := by
  simp only [shelf, List.mem_append]
  tauto

theorem count_shelf (w : World) (receipt : Nat) :
    w.shelf.count receipt = w.atGate.count receipt + w.inPass.count receipt +
      w.attempts.count receipt + w.buffered.count receipt := by
  simp only [shelf, List.count_append]

end World

structure Books (w : World) : Prop where
  kept : Kept w.tracker w.shelf w.handedOut w.returned w.writes w.opens
  stocked : w.core.ended = false → Stocked w.tracker w.shelf w.handedOut w.writes w.opens
  admitting : w.core.ended = false →
    w.core.state.admitting = w.inPass.length + w.attempts.length

theorem books_initial (config : Config) (topic : Nat → Log) :
    Books (World.initial config topic) := by
  refine ⟨⟨?_, nofun, ?_, ?_, ?_, ?_, nofun, List.nodup_nil, List.nodup_nil, nofun, nofun, ?_,
    ?_, ?counted⟩, fun _ => ⟨?_, nofun⟩, fun _ => rfl⟩
  case counted =>
    intro tp generation unfinished owned
    cases owned
  · intro receipt
    exact Nat.zero_le _
  · intro receipt _
    exact ⟨nofun, nofun⟩
  all_goals intros; contradiction

section Books

variable {w w' : World}

variable {α : Type} {t : Tracker} {receipt i : Nat} {write : Write} {flight : List Flight}
  {config : Config} {p : Partition} {offset : Int} {entries : List Gating}

/-- A step that moves deliveries between the containers, and loses only what is no longer
held and writes of copies that were given up. -/
theorem Books.shift (books : Books w) (tracker : Tracker.Alike w.tracker w'.tracker)
    (handed : w'.handedOut = w.handedOut) (returned : w'.returned = w.returned)
    (opens : w'.opens = w.opens) (lostShelf : List Nat) (lostWrites : List Position)
    (shelf : ∀ receipt,
      w.shelf.count receipt = lostShelf.count receipt + w'.shelf.count receipt)
    (writes : ∀ copy, w.writes.count copy = lostWrites.count copy + w'.writes.count copy)
    (live : w'.core.ended = false → w.core.ended = false ∧
      (∀ receipt ∈ lostShelf, w.tracker.holds receipt = none) ∧
      (∀ copy ∈ lostWrites, w.tracker.current copy = false) ∧
      w'.core.state.admitting = w'.inPass.length + w'.attempts.length) : Books w' := by
  have shuffled : w.writes.Perm (lostWrites ++ w'.writes) := by
    rw [List.perm_iff_count]
    intro copy
    rw [writes, List.count_append]
  refine ⟨?_, fun running => ?_, fun running => (live running).2.2.2⟩
  · rw [handed, returned, opens]
    refine Kept.alike (books.kept.shed (fun receipt => ?_) (fun _ => id) ?_) tracker
    · rw [shelf]
      exact Nat.le_add_left _ _
    · exact (List.sublist_append_right _ _).subperm.trans shuffled.symm.subperm
  · obtain ⟨before, unheld, stale, -⟩ := live running
    rw [handed, opens]
    refine Stocked.alike ((books.stocked before).move (fun receipt held there => ?_)
      (fun copy member now => ?_)) tracker
    · refine there.imp_left fun member => ?_
      have some := List.count_pos_iff.mpr member
      rw [shelf] at some
      have none : lostShelf.count receipt = 0 := by
        apply List.count_eq_zero.mpr
        intro lost
        rw [unheld receipt lost] at held
        cases held
      rw [none, Nat.zero_add] at some
      exact List.count_pos_iff.mp some
    · rcases List.mem_append.mp (shuffled.mem_iff.mp member) with lost | kept
      · rw [stale copy lost] at now
        cases now
      · exact kept

theorem Books.same (books : Books w) (tracker : Tracker.Alike w.tracker w'.tracker)
    (shelf : w'.shelf = w.shelf) (handed : w'.handedOut = w.handedOut)
    (returned : w'.returned = w.returned) (writes : w'.writes = w.writes)
    (opens : w'.opens = w.opens)
    (admitting : w'.core.ended = false → w.core.ended = false ∧
      w'.core.state.admitting = w.core.state.admitting ∧
      w'.inPass.length + w'.attempts.length = w.inPass.length + w.attempts.length) :
    Books w' := by
  refine books.shift tracker handed returned opens [] [] (fun receipt => ?_) (fun copy => ?_)
    fun live => ?_
  · rw [shelf, List.count_nil, Nat.zero_add]
  · rw [writes, List.count_nil, Nat.zero_add]
  · obtain ⟨before, same, lengths⟩ := admitting live
    exact ⟨before, nofun, nofun, by rw [same, lengths, books.admitting before]⟩

theorem Core.latch_ended (core : Core) (reason : String) : (core.latch reason).ended = true := by
  simp [Core.ended, Core.latched, Core.latch]

theorem Books.latch (books : Books w) (reason : String) : Books (w.latch reason) := by
  have ended := Core.latch_ended w.core reason
  refine books.shift (.refl _) rfl rfl rfl
    ((w.core.state.resends.map (·.2)).filterMap Write.admits)
    ((w.core.state.resends.map (·.2)).filterMap Write.settles) (fun receipt => ?_)
    (fun copy => ?_) fun live => absurd (ended.symm.trans live) nofun
  · rw [World.count_shelf, World.count_shelf]
    simp only [World.attempts, World.pending, List.filterMap_append, List.count_append]
    simp only [World.atGate, World.inPass, World.buffered, World.latch, Core.latch,
      List.map_nil, List.filterMap_nil, List.count_nil]
    omega
  · simp only [World.writes, World.pending, List.filterMap_append, List.count_append]
    simp only [World.latch, Core.latch, List.map_nil, List.filterMap_nil, List.count_nil]
    omega

/-! ### Rebalances -/

theorem Tracker.assign_rebalanced (t : Tracker) (tps : List Tp) :
    Rebalanced t (t.assign tps) := by
  refine ⟨rfl, rfl, rfl, fun tp generation unfinished owned => ?_⟩
  unfold Tracker.ledger Tracker.assign at owned
  rw [FastMap.lookup_insertAll] at owned
  split at owned
  · obtain ⟨rfl, rfl⟩ := Prod.mk.inj (Option.some.inj owned)
    exact .inr ⟨rfl, rfl⟩
  · exact .inl owned

theorem Tracker.revokeEach_lookup (tps : List Tp) : ∀ (partitions : FastMap Tp Partition) (tp : Tp)
    (p : Partition), (Tracker.revokeEach tps partitions).1.lookup tp = some p →
    partitions.lookup tp = some p := by
  induction tps with
  | nil => exact fun _ _ _ => id
  | cons first rest ih =>
    intro partitions tp p found
    unfold Tracker.revokeEach at found
    split at found
    · exact ih partitions tp p found
    · have there : (partitions.erase first).lookup tp = some p := by
        apply ih
        split at found <;> exact found
      by_cases same : tp = first
      · subst same
        simp at there
      · rwa [AList.lookup_erase_ne same] at there

theorem Tracker.revokeEach_points {tp : Tp} {point : Int} {tps : List Tp}
    {partitions : FastMap Tp Partition}
    (member : (tp, point) ∈ (Tracker.revokeEach tps partitions).2) :
    ∃ p, partitions.lookup tp = some p ∧ p.commitPoint = some point := by
  fun_induction Tracker.revokeEach tps partitions with
  | case1 => cases member
  | case2 _ _ _ _ ih => exact ih member
  | case3 | case4 =>
    by_cases tp = ‹Tp› <;> grind [AList.lookup_erase, AList.lookup_erase_ne]

theorem Tracker.revoke_rebalanced (t : Tracker) (tps : List Tp) :
    Rebalanced t (t.revoke tps).2 := by
  refine ⟨rfl, rfl, rfl, fun tp generation unfinished owned => ?_⟩
  unfold Tracker.ledger at owned ⊢
  obtain ⟨p, found, same⟩ := Option.map_eq_some_iff.mp owned
  left
  rw [Tracker.revokeEach_lookup tps t.partitions tp p found]
  exact congrArg some same

theorem Tracker.unassignAll_rebalanced (t : Tracker) : Rebalanced t t.unassignAll :=
  ⟨rfl, rfl, rfl, nofun⟩

theorem Books.rebalance (books : Books w) {tracker : Tracker}
    (rebalanced : Rebalanced w.tracker tracker) :
    Books (w.setState { w.core.state with tracker := tracker }) :=
  ⟨books.kept.rebalance rebalanced,
    fun live => Stocked.rebalance books.kept (books.stocked live) rebalanced,
    books.admitting⟩

theorem count_held (receipt : α → Nat) (t : Tracker) (xs : List α) (r : Nat) :
    (xs.map receipt).count r =
      ((xs.filter fun x => !(t.holds (receipt x)).isSome).map receipt).count r +
        ((xs.filter fun x => (t.holds (receipt x)).isSome).map receipt).count r := by
  have split := (List.filter_append_perm (fun x => (t.holds (receipt x)).isSome) xs).map receipt
  rw [← split.count_eq r, List.map_append, List.count_append, Nat.add_comm]

theorem unheld_of_mem {receipt : α → Nat} {xs : List α} {r : Nat}
    (member : r ∈ (xs.filter fun x => !(t.holds (receipt x)).isSome).map receipt) :
    t.holds r = none := by
  obtain ⟨x, selected, rfl⟩ := List.mem_map.mp member
  have := (List.mem_filter.mp selected).2
  simpa using this

theorem Books.dropUnowned (books : Books w) : Books (w.setState w.core.state.dropUnowned) := by
  obtain ⟨tracker, alike, done⟩ := w.core.state.dropUnowned_spec
  rw [done]
  refine books.shift alike rfl rfl rfl
    ((w.core.state.gating.filter fun x => !(w.tracker.holds x.receipt).isSome).map (·.receipt) ++
      (w.core.state.ready.filter fun x => !(w.tracker.holds x.receipt).isSome).map (·.receipt))
    [] (fun receipt => ?_) (fun copy => ?_) fun live => ⟨live, fun receipt lost => ?_, nofun, ?_⟩
  · have gating : w.atGate.count receipt = _ :=
      count_held Gating.receipt w.tracker w.core.state.gating receipt
    have ready : w.buffered.count receipt = _ :=
      count_held Ready.receipt w.tracker w.core.state.ready receipt
    have shuffle : ∀ a b c d e f : Nat, a + b + e + f + (c + d) = a + c + (b + e + f + d) := by
      omega
    rw [World.count_shelf, World.count_shelf, List.count_append, gating, ready]
    exact shuffle _ _ _ _ _ _
  · rw [List.count_nil, Nat.zero_add]
    rfl
  · rcases List.mem_append.mp lost with lost | lost <;> exact unheld_of_mem lost
  · exact books.admitting live

/-! ### The gate and resends -/

theorem resendDue_pending (w : World) (now : Nat) :
    w.pending.Perm
      ((((w.core.state.resends.filter (·.1 ≤ now)).map (·.2)).filter
        fun write => !State.stillDue w.tracker write) ++ (w.resendDue now).pending) := by
  obtain ⟨tracker, -, done⟩ := w.core.state.takeDue_spec now
  have after : (w.resendDue now).pending = w.flight.map (·.write) ++
      ((w.core.state.resends.filter (·.1 ≤ now)).map (·.2)).filter (State.stillDue w.tracker) ++
      (w.core.state.resends.filter (¬ ·.1 ≤ now)).map (·.2) := by
    unfold World.resendDue World.pending
    rw [done]
    simp [World.send, World.setState, Function.comp_def, World.tracker]
  have due := (List.filter_append_perm (·.1 ≤ now) w.core.state.resends).map
    fun resend : Nat × Write => resend.2
  have kept := List.filter_append_perm (State.stillDue w.tracker)
    ((w.core.state.resends.filter (·.1 ≤ now)).map (·.2))
  rw [List.perm_iff_count] at due kept ⊢
  intro write
  have due := due write
  have kept := kept write
  rw [after]
  simp only [World.pending, List.count_append, List.map_append] at due kept ⊢
  simp only [decide_not] at due ⊢
  omega

theorem World.lost_count (dropped : List Write) (split : w.pending.Perm (dropped ++ w'.pending)) :
    (∀ receipt, w.attempts.count receipt =
        (dropped.filterMap Write.admits).count receipt + w'.attempts.count receipt) ∧
      (∀ copy, w.writes.count copy =
        (dropped.filterMap Write.settles).count copy + w'.writes.count copy) ∧
      w.attempts.length = (dropped.filterMap Write.admits).length + w'.attempts.length := by
  refine ⟨fun receipt => ?_, fun copy => ?_, ?_⟩
  · rw [World.attempts, (split.filterMap Write.admits).count_eq, List.filterMap_append,
      List.count_append]
    rfl
  · rw [World.writes, (split.filterMap Write.settles).count_eq, List.filterMap_append,
      List.count_append]
    rfl
  · rw [World.attempts, (split.filterMap Write.admits).length_eq, List.filterMap_append,
      List.length_append]
    rfl

theorem Books.resendDue (books : Books w) (now : Nat) : Books (w.resendDue now) := by
  obtain ⟨attempts, writes, length⟩ := World.lost_count _ (resendDue_pending w now)
  obtain ⟨tracker, alike, done⟩ := w.core.state.takeDue_spec now
  have ended : (w.resendDue now).core.ended = w.core.ended := by
    change (w.core.stop || (w.core.state.takeDue now).2.fatal.isSome) = _
    rw [done]
    rfl
  refine books.shift ?_ ?_ rfl rfl
    ((((w.core.state.resends.filter (·.1 ≤ now)).map (·.2)).filter
      fun write => !State.stillDue w.tracker write).filterMap Write.admits)
    ((((w.core.state.resends.filter (·.1 ≤ now)).map (·.2)).filter
      fun write => !State.stillDue w.tracker write).filterMap Write.settles)
    (fun receipt => ?_) writes fun live =>
      ⟨ended ▸ live, fun receipt lost => ?_, fun copy lost => ?_, ?_⟩
  · change Tracker.Alike w.core.state.tracker (w.core.state.takeDue now).2.tracker
    rw [done]
    exact alike
  · change (w.core.state.takeDue now).2.handed.keys = _
    rw [done]
    rfl
  · have gate : (w.resendDue now).atGate = w.atGate := by
      change (w.core.state.takeDue now).2.gating.map _ = _
      rw [done]
      rfl
    have buffer : (w.resendDue now).buffered = w.buffered := by
      change (w.core.state.takeDue now).2.ready.map _ = _
      rw [done]
      rfl
    have pass : (w.resendDue now).inPass = w.inPass := rfl
    have := attempts receipt
    rw [World.count_shelf, World.count_shelf, gate, buffer, pass]
    omega
  · obtain ⟨write, there, admits⟩ := List.mem_filterMap.mp lost
    have stale := (List.mem_filter.mp there).2
    cases write with
    | attempt record =>
      obtain rfl : record.receipt = receipt := Option.some.inj admits
      simpa [State.stillDue] using stale
    | publish | move | tombstone => cases admits
  · obtain ⟨write, there, settles⟩ := List.mem_filterMap.mp lost
    have stale := (List.mem_filter.mp there).2
    cases write with
    | attempt | publish => cases settles
    | move moving =>
      obtain rfl : moving.position = copy := Option.some.inj settles
      simpa [State.stillDue] using stale
    | tombstone record =>
      obtain rfl : record.position = copy := Option.some.inj settles
      simpa [State.stillDue] using stale
  · have before := books.admitting (ended ▸ live)
    have pass : (w.resendDue now).inPass = w.inPass := rfl
    change (w.core.state.takeDue now).2.admitting = _
    rw [done, pass]
    change w.core.state.admitting - State.lapsed _ _ = _
    unfold State.lapsed
    change _ - (((((w.core.state.resends.filter (·.1 ≤ now)).map (·.2)).filter
      fun write => !State.stillDue w.tracker write).filterMap Write.admits).length) = _
    omega

theorem Books.gateTake (books : Books w) (config : Config) (idle : w.gate = .idle) (now : Nat) :
    Books (w.gateTake config now) := by
  unfold World.gateTake
  dsimp only
  split
  · exact books
  · have empty : w.inPass = [] := by simp [World.inPass, idle, Gate.entries]
    refine books.shift (.refl _) rfl rfl rfl [] [] (fun receipt => ?_) (fun copy => ?_)
      fun live => ⟨live, nofun, nofun, ?_⟩
    · rw [World.count_shelf, World.count_shelf, empty]
      have shuffle : ∀ a b c : Nat, a + 0 + b + c = 0 + (0 + a + b + c) := by omega
      exact shuffle _ _ _
    · rw [List.count_nil, Nat.zero_add]
      rfl
    · have before := books.admitting live
      rw [empty] at before
      change w.core.state.admitting + w.core.state.gating.length =
        (w.core.state.gating.map (·.receipt)).length + w.attempts.length
      rw [before, List.length_map, List.length_nil, Nat.zero_add, Nat.add_comm]

theorem Books.gatePutBack (books : Books w) {back others : List Gating}
    (returning : w.gate = .returning back others) : Books (w.gatePutBack back others) := by
  obtain ⟨tracker, alike, done⟩ := w.core.state.putBack_spec back
  have pass : w.inPass = back.map (·.receipt) ++ others.map (·.receipt) := by
    simp [World.inPass, returning, Gate.entries]
  unfold World.gatePutBack
  rw [done]
  refine books.shift alike rfl rfl rfl
    ((back.filter fun x => !(w.tracker.holds x.receipt).isSome).map (·.receipt)) []
    (fun receipt => ?_) (fun copy => ?_) fun live =>
      ⟨live, fun receipt lost => unheld_of_mem lost, nofun, ?_⟩
  · have held := count_held Gating.receipt w.tracker back receipt
    have gate : (((back.filter fun x => (w.tracker.holds x.receipt).isSome) ++
        w.core.state.gating).map Gating.receipt).count receipt =
          ((back.filter fun x => (w.tracker.holds x.receipt).isSome).map
            Gating.receipt).count receipt + w.atGate.count receipt := by
      rw [List.map_append, List.count_append]
      rfl
    have shuffle : ∀ g l k a t b : Nat, g + (l + k + a) + t + b = l + (k + g + a + t + b) := by
      omega
    rw [World.count_shelf, World.count_shelf, pass, List.count_append, held]
    exact (shuffle _ _ _ _ _ _).trans (congrArg (fun n => _ + (n + _ + _ + _)) gate.symm)
  · rw [List.count_nil, Nat.zero_add]
    rfl
  · have before := books.admitting live
    rw [pass, List.length_append, List.length_map] at before
    change w.core.state.admitting - back.length =
      (others.map (·.receipt)).length + w.attempts.length
    omega

/-- What admitting an entry can do. -/
inductive State.Admission (config : Config) (st : State) (entry : Gating) (count : Nat) :
    Option Write × State → Prop
  | stopped (tracker : Tracker) (alike : Tracker.Alike st.tracker tracker)
      (stopping : st.stopping = true) :
      Admission config st entry count
        (none, { st with
          admitting := st.admitting - 1, tracker := tracker, gating := st.gating ++ [entry] })
  | dropped (tracker : Tracker) (alike : Tracker.Alike st.tracker tracker)
      (unheld : st.tracker.holds entry.receipt = none) :
      Admission config st entry count
        (none, { st with admitting := st.admitting - 1, tracker := tracker })
  | attempting (tracker : Tracker) (alike : Tracker.Alike st.tracker tracker)
      (running : st.stopping = false) (below : count < config.attemptCap.value) :
      Admission config st entry count
        (some (.attempt (.new config.topics.attempt entry.identity
            (config.partition entry.identity) (count + 1) entry.receipt entry.unit)),
          { st with tracker := tracker })
  | capped (position : Position) (held : st.tracker.holds entry.receipt = some position)
      (running : st.stopping = false) (reached : config.attemptCap.value ≤ count) :
      Admission config st entry count
        (some (.move (capMove config entry count position)),
          { st with
            admitting := st.admitting - 1
            tracker := { st.tracker with held := st.tracker.held.erase entry.receipt } })

theorem State.admission_cases (config : Config) (st : State) (entry : Gating) (count : Nat) :
    State.Admission config st entry count (st.admission config entry count) := by
  have answer := Tracker.heldBy_fst st.tracker entry.receipt
  have alike := Tracker.heldBy_alike st.tracker entry.receipt
  unfold State.admission
  dsimp only
  split
  · rename_i stopping
    generalize st.tracker.heldBy entry.receipt = asked at answer alike
    obtain ⟨found, tracker⟩ := asked
    cases found with
    | none => exact .dropped tracker alike answer.symm
    | some position => exact .stopped tracker alike stopping
  · rename_i going
    have running : st.stopping = false := Bool.eq_false_iff.mpr going
    split
    · rename_i below
      generalize st.tracker.heldBy entry.receipt = asked at answer alike
      obtain ⟨found, tracker⟩ := asked
      cases found with
      | none => exact .dropped tracker alike answer.symm
      | some position => exact .attempting tracker alike running below
    · rename_i reached
      have released := Tracker.release_fst st.tracker entry.receipt
      have erased := Tracker.release_snd st.tracker entry.receipt
      generalize st.tracker.release entry.receipt = asked at released erased
      obtain ⟨found, tracker⟩ := asked
      obtain rfl : tracker = { st.tracker with held := st.tracker.held.erase entry.receipt } :=
        erased
      cases found with
      | none => exact .dropped _ (Tracker.erase_stale released.symm) released.symm
      | some position => exact .capped position released.symm running (by omega)

theorem Books.release (books : Books w) {copy : Position}
    (held : w.tracker.holds receipt = some copy)
    (tracker : w'.tracker = { w.tracker with held := w.tracker.held.erase receipt })
    (fewer : ∀ other, w'.shelf.count other ≤ w.shelf.count other)
    (given : ∀ other ∈ w'.handedOut, other ∈ w.handedOut)
    (others : ∀ other, other ≠ receipt → other ∈ w.shelf ∨ other ∈ w.handedOut →
      other ∈ w'.shelf ∨ other ∈ w'.handedOut) (writes : w'.writes.Perm (copy :: w.writes))
    (returned : w'.returned = w.returned) (opens : w'.opens = w.opens)
    (live : w'.core.ended = false → w.core.ended = false ∧
      w'.core.state.admitting = w'.inPass.length + w'.attempts.length) : Books w' := by
  refine ⟨?_, fun running => ?_, fun running => (live running).2⟩
  · rw [tracker, returned, opens]
    exact (books.kept.release held).shed fewer given writes.subperm
  · have released := (books.stocked (live running).1).release held others
    rw [tracker, opens]
    exact released.move (fun _ _ => id) fun copy member _ => writes.mem_iff.mpr member

theorem World.pending_send (w : World) (writes : List Write) :
    (w.send writes).pending.Perm (writes ++ w.pending) := by
  unfold World.pending World.send
  rw [List.map_append, List.map_map]
  change (_ ++ writes.map id ++ _).Perm _
  rw [List.map_id]
  refine (List.perm_append_comm.append_right _).trans ?_
  rw [List.append_assoc]

theorem World.count_shelf_eq (w : World) (receipt : Nat) :
    w.shelf.count receipt =
      (w.core.state.gating.map (·.receipt)).count receipt +
        (w.gate.entries.map (·.receipt)).count receipt +
        (((w.flight.map (·.write)).filterMap Write.admits).count receipt +
          ((w.core.state.resends.map (·.2)).filterMap Write.admits).count receipt) +
        (w.core.state.ready.map (·.receipt)).count receipt := by
  rw [World.count_shelf, World.attempts, World.pending, List.filterMap_append,
    List.count_append]
  rfl

theorem World.count_writes_eq (w : World) (copy : Position) :
    w.writes.count copy =
      ((w.flight.map (·.write)).filterMap Write.settles).count copy +
        ((w.core.state.resends.map (·.2)).filterMap Write.settles).count copy := by
  rw [World.writes, World.pending, List.filterMap_append, List.count_append]

theorem World.length_attempts_eq (w : World) :
    w.attempts.length =
      ((w.flight.map (·.write)).filterMap Write.admits).length +
        ((w.core.state.resends.map (·.2)).filterMap Write.admits).length := by
  rw [World.attempts, World.pending, List.filterMap_append, List.length_append]

/-- What the history records of a decision finishes and hands out nothing. -/
theorem Books.judged (books : Books w) (pass : Nat) (entry : Gating) (count : Nat)
    (write : Option Write) : Books (w.record [.judged pass entry count write]) := by
  refine books.same (.refl _) rfl rfl ?_ rfl ?_ fun live => ⟨live, rfl, rfl⟩
  · simp [World.returned, World.record, Event.returnedReceipt]
  · simp [World.opens, World.record, openCopies_append, openStep]

theorem Books.admission (books : Books w) (config : Config) {entry : Gating}
    {rest : List Gating} (admitting : w.gate = .admitting (entry :: rest)) (count : Nat) :
    Books { (w.setState (w.core.state.admission config entry count).2).send
        (w.core.state.admission config entry count).1.toList with
      gate := .admitting rest } := by
  have spec := State.admission_cases config w.core.state entry count
  have pass : w.inPass = entry.receipt :: rest.map (·.receipt) := by
    simp [World.inPass, admitting, Gate.entries]
  have before := books.admitting
  rw [World.length_attempts_eq, pass, List.length_cons] at before
  generalize w.core.state.admission config entry count = result at spec
  cases spec with
  | stopped tracker alike stopping =>
    refine books.shift alike rfl rfl rfl [] [] (fun receipt => ?_) (fun copy => ?_)
      fun live => ⟨live, nofun, nofun, ?_⟩
    · simp only [World.count_shelf_eq, World.send, World.setState, Gate.entries, admitting,
        Option.toList_none, List.map_nil, List.append_nil, List.map_append, List.map_cons,
        List.count_append, List.count_cons, List.count_nil]
      omega
    · simp [World.count_writes_eq, World.send, World.setState]
    · have before := before live
      rw [World.length_attempts_eq]
      simp only [World.send, World.setState, World.inPass, Gate.entries, Option.toList_none,
        List.map_nil, List.append_nil]
      omega
  | dropped tracker alike unheld =>
    refine books.shift alike rfl rfl rfl [entry.receipt] [] (fun receipt => ?_)
      (fun copy => ?_) fun live => ⟨live, ?_, nofun, ?_⟩
    · simp only [World.count_shelf_eq, World.send, World.setState, Gate.entries, admitting,
        Option.toList_none, List.map_nil, List.append_nil, List.map_cons,
        List.count_cons, List.count_nil]
      omega
    · simp [World.count_writes_eq, World.send, World.setState]
    · intro receipt lost
      rw [List.mem_singleton] at lost
      rw [lost]
      exact unheld
    · have before := before live
      rw [World.length_attempts_eq]
      simp only [World.send, World.setState, World.inPass, Gate.entries, Option.toList_none,
        List.map_nil, List.append_nil]
      omega
  | attempting tracker alike running below =>
    refine books.shift alike rfl rfl rfl [] [] (fun receipt => ?_) (fun copy => ?_)
      fun live => ⟨live, nofun, nofun, ?_⟩
    · simp only [World.count_shelf_eq, World.send, World.setState, Gate.entries, admitting,
        Option.toList_some, List.map_nil, List.map_append, List.map_cons,
        List.filterMap_append, List.filterMap_cons, List.filterMap_nil, Write.admits,
        Attempt.new, List.count_append, List.count_cons, List.count_nil]
      omega
    · simp [World.count_writes_eq, World.send, World.setState, Write.settles,
        List.filterMap_cons]
    · have before := before live
      rw [World.length_attempts_eq]
      simp only [World.send, World.setState, World.inPass, Gate.entries, Option.toList_some,
        List.map_nil, List.map_append, List.map_cons, List.filterMap_append,
        List.filterMap_cons, List.filterMap_nil, Write.admits, Attempt.new,
        List.length_append, List.length_cons, List.length_nil]
      omega
  | capped position held running reached =>
    have fewer : ∀ other, w.shelf.count other = [entry.receipt].count other +
        (World.shelf { (w.setState { w.core.state with
            admitting := w.core.state.admitting - 1
            tracker := { w.core.state.tracker with
              held := w.core.state.tracker.held.erase entry.receipt } }).send
          (some (Write.move (capMove config entry count position))).toList with
          gate := .admitting rest }).count other := by
      intro other
      simp only [World.count_shelf_eq, World.send, World.setState, Gate.entries, admitting,
        Option.toList_some, List.map_nil, List.map_append, List.map_cons,
        List.filterMap_append, List.filterMap_cons, List.filterMap_nil, Write.admits,
        List.count_append, List.count_cons, List.count_nil]
      omega
    refine books.release held rfl (fun other => ?_) (fun _ => id) (fun other different => ?_)
      ?_ rfl rfl fun live => ⟨live, ?_⟩
    · rw [fewer]
      exact Nat.le_add_left _ _
    · refine Or.imp_left fun member => ?_
      have some := List.count_pos_iff.mpr member
      rw [fewer, List.count_eq_zero.mpr (by simpa using different), Nat.zero_add] at some
      exact List.count_pos_iff.mp some
    · exact (World.pending_send _ _).filterMap Write.settles
    · have before := before live
      rw [World.length_attempts_eq]
      simp only [World.send, World.setState, World.inPass, Gate.entries, Option.toList_some,
        List.map_nil, List.map_append, List.map_cons, List.filterMap_append,
        List.filterMap_cons, List.filterMap_nil, Write.admits, List.append_nil]
      omega

theorem Books.gateAdmit (books : Books w) (config : Config) {entry : Gating}
    {rest : List Gating} (admitting : w.gate = .admitting (entry :: rest)) :
    Books (w.gateAdmit config entry rest) := by
  have admitted := books.admission config admitting (w.core.ledger.count entry.identity.asBytes)
  unfold World.gateAdmit
  dsimp only
  split
  · exact admitted
  · exact admitted.judged _ _ _ _

/-! ### Reports -/

/-- A step on the pending writes alone. While the feed runs it drops none that admits or
settles a delivery. -/
theorem Books.requeue (books : Books w) (tracker : Tracker.Alike w.tracker w'.tracker)
    (gate : w'.atGate = w.atGate) (pass : w'.inPass = w.inPass)
    (buffer : w'.buffered = w.buffered) (handed : w'.handedOut = w.handedOut)
    (returned : w'.returned = w.returned) (opens : w'.opens = w.opens) (dropped : List Write)
    (pending : w.pending.Perm (dropped ++ w'.pending))
    (live : w'.core.ended = false → w.core.ended = false ∧
      dropped.filterMap Write.admits = [] ∧ dropped.filterMap Write.settles = [] ∧
      w'.core.state.admitting = w.core.state.admitting) : Books w' := by
  obtain ⟨attempts, writes, length⟩ := World.lost_count dropped pending
  refine books.shift tracker handed returned opens (dropped.filterMap Write.admits)
    (dropped.filterMap Write.settles) (fun receipt => ?_) writes fun running => ?_
  · have := attempts receipt
    rw [World.count_shelf, World.count_shelf, gate, pass, buffer]
    omega
  · obtain ⟨before, noAttempt, noWrite, same⟩ := live running
    refine ⟨before, by simp [noAttempt], by simp [noWrite], ?_⟩
    rw [noAttempt, List.length_nil, Nat.zero_add] at length
    rw [same, pass, books.admitting before, length]

theorem World.pending_erase {flight : Flight} (found : w.flight[i]? = some flight) :
    w.pending.Perm (flight.write :: World.pending { w with flight := w.flight.eraseIdx i }) := by
  obtain ⟨inside, rfl⟩ := List.getElem?_eq_some_iff.mp found
  have shuffled := ((List.getElem_cons_eraseIdx_perm inside).symm.map (·.write)).append_right
    (w.core.state.resends.map (·.2))
  exact shuffled

theorem Books.queueResend (books : Books w) (due : Nat) (again : Write)
    (admits : again.admits = write.admits) (settles : again.settles = write.settles)
    (taken : w.pending.Perm (write :: World.pending { w with flight := flight }))
    (core : w'.core = w.core.queueResend due again) (flew : w'.flight = flight)
    (gate : w'.gate = w.gate) (returned : w'.returned = w.returned) (opens : w'.opens = w.opens) :
    Books w' := by
  have attempts := taken.filterMap Write.admits
  have carried := taken.filterMap Write.settles
  rw [List.filterMap_cons] at attempts carried
  have pass : w'.inPass = w.inPass := by simp only [World.inPass, gate]
  cases ended : w.core.ended with
  | true =>
    have unchanged : w'.core = w.core := by rw [core, Core.queueResend, if_pos ended]
    have pending : w'.pending = World.pending { w with flight := flight } := by
      simp only [World.pending, unchanged, flew]
    refine books.requeue (by simp only [World.tracker, unchanged]; exact .refl _)
      (by simp only [World.atGate, unchanged]) pass (by simp only [World.buffered, unchanged])
      (by simp only [World.handedOut, unchanged]) returned opens [write]
      (by rw [pending]; exact taken) fun live => ?_
    rw [unchanged, ended] at live
    cases live
  | false =>
    have queued : w'.core = { w.core with state := { w.core.state with
        resends := w.core.state.resends ++ [(due, again)] } } := by
      rw [core, Core.queueResend, if_neg (by simp [ended])]
    have pending : w'.pending = World.pending { w with flight := flight } ++ [again] := by
      simp only [World.pending, queued, flew, List.map_append, List.map_cons, List.map_nil,
        List.append_assoc]
    have sameAttempts : w'.attempts.Perm w.attempts := by
      refine List.Perm.trans ?_ attempts.symm
      rw [World.attempts, pending, List.filterMap_append, List.filterMap_cons, admits]
      cases write.admits with
      | none => simp
      | some receipt => exact List.perm_append_comm
    have sameWrites : w'.writes.Perm w.writes := by
      refine List.Perm.trans ?_ carried.symm
      rw [World.writes, pending, List.filterMap_append, List.filterMap_cons, settles]
      cases write.settles with
      | none => simp
      | some copy => exact List.perm_append_comm
    refine books.shift (by simp only [World.tracker, queued]; exact .refl _)
      (by simp only [World.handedOut, queued]) returned opens [] []
      (fun receipt => ?_) (fun copy => ?_) fun live => ⟨ended, nofun, nofun, ?_⟩
    · rw [World.count_shelf, World.count_shelf, pass, sameAttempts.count_eq, List.count_nil,
        Nat.zero_add]
      simp only [World.atGate, World.buffered, queued]
    · rw [sameWrites.count_eq, List.count_nil, Nat.zero_add]
    · rw [pass, sameAttempts.length_eq, ← books.admitting ended, queued]

theorem World.returned_record {w : World} {events : List Event}
    (none : events.filterMap Event.returnedReceipt = []) :
    (w.record events).returned = w.returned := by
  unfold World.returned World.record
  rw [List.filterMap_append, none, List.append_nil]

theorem World.opens_record (w : World) (events : List Event) :
    (w.record events).opens = events.foldl openStep w.opens :=
  openCopies_append _ _

/-- A confirmed attempt write: the delivery goes to the ready buffer if it is still held. -/
theorem Books.recorded (books : Books w) {attempt : Attempt}
    (taken : w.pending.Perm (.attempt attempt :: World.pending { w with flight := flight }))
    (config : Config) (now : Nat) :
    Books ({ w with
      flight := flight, core := w.core.confirmed config now (.attempt attempt) }.record
        [.recorded attempt.receipt attempt.identity attempt.attempts]) := by
  obtain ⟨attempts, writes, length⟩ := World.lost_count [.attempt attempt] taken
  have answer := Tracker.heldBy_fst w.core.state.tracker attempt.receipt
  have alike := Tracker.heldBy_alike w.core.state.tracker attempt.receipt
  have before := books.admitting
  simp only [List.filterMap_cons, Write.admits, Write.settles, List.filterMap_nil,
    List.length_cons, List.length_nil, List.count_nil, Nat.zero_add] at attempts writes length
  unfold Core.confirmed
  dsimp only
  generalize w.core.state.tracker.heldBy attempt.receipt = asked at answer alike
  obtain ⟨found, tracker⟩ := asked
  cases found with
  | none =>
    refine books.shift alike rfl (World.returned_record rfl) (World.opens_record _ _)
      [attempt.receipt] [] (fun receipt => ?_) (fun copy => ?_)
      fun live => ⟨live, ?_, nofun, ?_⟩
    · have := attempts receipt
      have shuffle : ∀ g p a a' b l : Nat, a = l + a' → g + p + a + b = l + (g + p + a' + b) := by
        omega
      rw [World.count_shelf, World.count_shelf]
      exact shuffle _ _ _ _ _ _ this
    · rw [writes, List.count_nil, Nat.zero_add]
      rfl
    · intro receipt lost
      rw [List.mem_singleton] at lost
      rw [lost]
      exact answer.symm
    · have before := before live
      change w.core.state.admitting - 1 =
        w.inPass.length + (World.attempts { w with flight := flight }).length
      omega
  | some position =>
    refine books.shift alike rfl (World.returned_record rfl) (World.opens_record _ _)
      [] [] (fun receipt => ?_) (fun copy => ?_) fun live => ⟨live, nofun, nofun, ?_⟩
    · have := attempts receipt
      have buffer : ((w.core.state.ready ++ [(⟨attempt.receipt, attempt.unit,
          attempt.attempts, attempt.identity, attempt.attemptPartition⟩ : Ready)]).map
            (·.receipt)).count receipt =
          w.buffered.count receipt + [attempt.receipt].count receipt := by
        rw [List.map_append, List.count_append]
        rfl
      have shuffle : ∀ g p a a' b b' l : Nat, a = l + a' → b' = b + l →
          g + p + a + b = 0 + (g + p + a' + b') := by
        omega
      rw [World.count_shelf, World.count_shelf]
      exact shuffle _ _ _ _ _ _ _ this buffer
    · rw [writes, List.count_nil, Nat.zero_add]
      rfl
    · have before := before live
      change w.core.state.admitting - 1 =
        w.inPass.length + (World.attempts { w with flight := flight }).length
      omega

theorem Books.finished (books : Books w) {copy : Position} {event : Event}
    (taken : w.pending.Perm (write :: World.pending { w with flight := flight }))
    (admits : write.admits = none) (settles : write.settles = some copy)
    (quiet : event.returnedReceipt = none)
    (closes : ∀ opens, openStep opens event = without opens copy.receipt) :
    Books ({ w.setState { w.core.state with tracker := w.core.state.tracker.complete copy } with
      flight := flight }.record [event]) := by
  have attempts := taken.filterMap Write.admits
  have carried := taken.filterMap Write.settles
  rw [List.filterMap_cons, admits] at attempts
  rw [List.filterMap_cons, settles] at carried
  have before := books.admitting
  -- The attempts keep their order, so the shelf is the same up to a permutation.
  have shuffled : ∀ receipt, w.shelf.count receipt = ([] : List Nat).count receipt +
      (World.shelf { w with flight := flight }).count receipt := by
    intro receipt
    have := attempts.count_eq receipt
    have shuffle : ∀ g p a a' b : Nat, a = a' → g + p + a + b = 0 + (g + p + a' + b) := by
      omega
    rw [World.count_shelf, World.count_shelf]
    exact shuffle _ _ _ _ _ this
  have length := attempts.length_eq
  have fewer : ∀ receipt, (World.shelf { w with flight := flight }).count receipt ≤
      w.shelf.count receipt := by
    intro receipt
    rw [shuffled receipt]
    exact Nat.le_add_left _ _
  have kept := books.kept.shed fewer (fun _ => id) carried.symm.subperm
  refine ⟨?_, fun live => ?_, fun live => ?_⟩
  · rw [World.opens_record, World.returned_record (by simp [quiet]), List.foldl_cons, closes]
    exact kept.complete
  · rw [World.opens_record, List.foldl_cons, closes]
    refine Stocked.complete kept ((books.stocked live).move (fun receipt _ => ?_)
      fun copy member _ => carried.mem_iff.mp member)
    refine Or.imp_left fun member => ?_
    have some := List.count_pos_iff.mpr member
    rw [shuffled receipt, List.count_nil, Nat.zero_add] at some
    exact List.count_pos_iff.mp some
  · have before := before live
    change w.core.state.admitting = w.inPass.length +
      (World.attempts { w with flight := flight }).length
    rw [before]
    exact congrArg (w.inPass.length + ·) length

theorem Books.refused (books : Books w)
    (taken : w.pending.Perm (write :: World.pending { w with flight := flight }))
    (reason : String) (answers : List Answer) :
    Books { w with
      flight := flight, core := { w.core.latch reason with answers := answers } } := by
  refine books.requeue (.refl _) rfl rfl rfl rfl rfl rfl
    (write :: w.core.state.resends.map (·.2)) ?_ fun live => ?_
  · refine taken.trans (List.Perm.cons write ?_)
    unfold World.pending Core.latch
    rw [List.map_nil, List.append_nil]
    exact List.perm_append_comm
  · exact absurd ((Core.latch_ended w.core reason).symm.trans live) nofun

theorem Books.answered (books : Books w) {message : Outgoing} {confirmer : Nat}
    (taken : w.pending.Perm
      (.publish message confirmer :: World.pending { w with flight := flight }))
    (answers : List Answer) :
    Books { w with flight := flight, core := { w.core with answers := answers } } :=
  books.requeue (.refl _) rfl rfl rfl rfl rfl rfl [.publish message confirmer] taken
    fun live => ⟨live, rfl, rfl, rfl⟩

theorem Books.report (books : Books w) {now : Nat} {failure : Option Failure}
    (reported : w.report config i now failure = some w') : Books w' := by
  unfold World.report at reported
  split at reported
  · cases reported
  · rename_i flight found
    have taken := World.pending_erase found
    obtain ⟨write, landed⟩ := flight
    cases failure with
    | none =>
      obtain rfl := Option.some.inj reported
      cases write with
      | publish message confirmer =>
        have settled := books.answered taken (w.core.answers ++ [.published confirmer none])
        exact settled.same (.refl _) rfl rfl (World.returned_record rfl) rfl
          (World.opens_record _ _) fun live => ⟨live, rfl, rfl⟩
      | attempt attempt => exact books.recorded taken config now
      | tombstone tombstone =>
        exact books.finished taken rfl rfl rfl fun _ => rfl
      | move moving =>
        obtain ⟨message, position, destination, unit, deliveries, finish⟩ := moving
        cases finish with
        | complete => exact books.finished taken rfl rfl rfl fun _ => rfl
        | tombstone identity =>
          refine books.queueResend now (.tombstone (.new config.topics.attempt identity
            (config.partition identity) position)) ?_ ?_ taken rfl rfl rfl
            (World.returned_record rfl) (World.opens_record _ _) <;> rfl
    | some failure =>
      obtain rfl := Option.some.inj reported
      obtain ⟨writeClass, reason⟩ := failure
      cases write with
      | publish message confirmer =>
        cases writeClass with
        | refused | retryable => exact books.answered taken _
        | fatal => exact books.refused taken reason _
      | attempt attempt =>
        cases writeClass with
        | retryable =>
          exact books.queueResend now (.attempt attempt) rfl rfl taken rfl rfl rfl rfl rfl
        | refused | fatal => exact books.refused taken _ _
      | tombstone tombstone =>
        cases writeClass with
        | retryable =>
          exact books.queueResend now (.tombstone tombstone) rfl rfl taken rfl rfl rfl rfl rfl
        | refused | fatal => exact books.refused taken _ _
      | move moving =>
        cases writeClass with
        | retryable =>
          exact books.queueResend now (.move moving) rfl rfl taken rfl rfl rfl rfl rfl
        | refused | fatal => exact books.refused taken _ _

/-! ### The reader -/

def State.handOut (st : State) (max : Nat) : State :=
  { st with
    ready := st.ready.drop max
    handed := (st.ready.take max).foldl
      (fun handed ready => handed.insert ready.receipt ready) st.handed }

theorem State.receive_cases (st : State) (max : Nat) :
    (∃ e, st.receive max = (.error e, st)) ∨
      (∃ e, st.receive max = (.error e, { st with retryable := none })) ∨
      st.receive max = (.ok (st.ready.take max), st.handOut max) := by
  unfold State.receive State.handOut
  split
  · exact .inl ⟨_, rfl⟩
  · split
    · exact .inr (.inl ⟨_, rfl⟩)
    · exact .inr (.inr rfl)

theorem mem_keys_handOut (out : List Ready) : ∀ (handed : FastMap Nat Ready) (receipt : Nat),
    receipt ∈ (out.foldl (fun handed ready => handed.insert ready.receipt ready) handed).keys ↔
      receipt ∈ handed.keys ∨ receipt ∈ out.map Ready.receipt := by
  induction out with
  | nil => simp
  | cons ready out ih =>
    intro handed receipt
    rw [List.foldl_cons, ih, List.map_cons, List.mem_cons]
    have inserted : receipt ∈ (handed.insert ready.receipt ready).keys ↔
        receipt = ready.receipt ∨ receipt ∈ handed.keys := AList.mem_insert handed
    rw [inserted]
    tauto

theorem World.returned_handOut (w : World) (out : List Ready) :
    (w.record (out.map .returned)).returned = w.returned ++ out.map Ready.receipt := by
  unfold World.returned World.record
  rw [List.filterMap_append, List.filterMap_map]
  congr 1
  induction out with
  | nil => rfl
  | cons ready out ih => exact congrArg (ready.receipt :: ·) ih

theorem World.opens_handOut (w : World) (out : List Ready) :
    (w.record (out.map .returned)).opens = w.opens := by
  rw [World.opens_record]
  induction out with
  | nil => rfl
  | cons ready out ih => exact ih

theorem Books.handOut (books : Books w) (max : Nat) :
    Books ((w.setState (w.core.state.handOut max)).record
      ((w.core.state.ready.take max).map .returned)) := by
  have taken : ∀ receipt, w.shelf.count receipt =
      (((w.core.state.ready.take max).map Ready.receipt) ++
        (w.atGate ++ w.inPass ++ w.attempts ++
          (w.core.state.ready.drop max).map Ready.receipt)).count receipt := by
    intro receipt
    have split : w.buffered.count receipt = _ :=
      congrArg (fun xs => (xs.map Ready.receipt).count receipt)
        (List.take_append_drop max w.core.state.ready).symm
    simp only [List.map_append, List.count_append] at split
    rw [World.count_shelf, split]
    simp only [List.count_append]
    omega
  have given := mem_keys_handOut (w.core.state.ready.take max) w.core.state.handed
  have kept := (books.kept.shed (fun receipt => (taken receipt).ge) (fun _ => id)
    (List.Subperm.refl _)).hand fun receipt member => (given receipt).mp member
  refine ⟨?_, fun live => ?_, books.admitting⟩
  · rw [World.opens_handOut, World.returned_handOut]
    exact kept
  · rw [World.opens_handOut]
    refine (books.stocked live).move (fun receipt _ there => ?_) fun _ member _ => member
    rcases there with member | member
    · have some := List.count_pos_iff.mpr member
      rw [taken receipt] at some
      rcases List.mem_append.mp (List.count_pos_iff.mp some) with out | rest
      · exact .inr ((given receipt).mpr (.inr out))
      · exact .inl rest
    · exact .inr ((given receipt).mpr (.inl member))

theorem Books.receive (books : Books w) (max : Nat) : Books (w.receive max) := by
  unfold World.receive
  rcases State.receive_cases w.core.state max with ⟨e, done⟩ | ⟨e, done⟩ | done
  · rw [done]
    exact books
  · rw [done]
    exact books.same (.refl _) rfl rfl rfl rfl rfl fun live => ⟨live, rfl, rfl⟩
  · rw [done]
    exact books.handOut max

/-- What renewing can do: drop a stale receipt, and forget a delivery that is not held. -/
theorem State.renew_cases (st : State) (receipt : Nat) :
    ∃ tracker, Tracker.Alike st.tracker tracker ∧
      ((st.renew receipt).2 = { st with tracker := tracker } ∨
        (st.tracker.holds receipt = none ∧
          (st.renew receipt).2 =
            { st with tracker := tracker, handed := st.handed.erase receipt })) := by
  have answer := Tracker.heldBy_fst st.tracker receipt
  have alike := Tracker.heldBy_alike st.tracker receipt
  unfold State.renew
  split
  · exact ⟨st.tracker, .refl _, .inl rfl⟩
  · split
    · exact ⟨st.tracker, .refl _, .inl rfl⟩
    · generalize st.tracker.heldBy receipt = asked at answer alike
      obtain ⟨found, tracker⟩ := asked
      cases found with
      | none => exact ⟨tracker, alike, .inr ⟨answer.symm, rfl⟩⟩
      | some position => exact ⟨tracker, alike, .inl rfl⟩

theorem mem_keys_erase {handed : FastMap Nat Ready} {other : Nat} :
    other ∈ (handed.erase receipt).keys ↔ other ≠ receipt ∧ other ∈ handed.keys :=
  AList.mem_erase

/-- A delivery that is not held leaves the reader's hands. -/
theorem Books.discard (books : Books w) (unheld : w.tracker.holds receipt = none)
    {tracker : Tracker} (alike : Tracker.Alike w.tracker tracker) :
    Books (w.setState { w.core.state with
      tracker := tracker, handed := w.core.state.handed.erase receipt }) := by
  refine ⟨?_, fun live => ?_, books.admitting⟩
  · exact (books.kept.shed (fun _ => le_refl _)
      (fun other member => (mem_keys_erase.mp member).2) (List.Subperm.refl _)).alike alike
  · refine ((books.stocked live).move (fun other held there => ?_) fun _ member _ => member).alike
      alike
    refine there.imp_right fun member => mem_keys_erase.mpr ⟨?_, member⟩
    rintro rfl
    rw [unheld] at held
    cases held

theorem Books.renew (books : Books w) (receipt : Nat) : Books (w.renew receipt) := by
  obtain ⟨tracker, alike, done | ⟨unheld, done⟩⟩ := w.core.state.renew_cases receipt
  · unfold World.renew
    rw [done]
    exact books.same alike rfl rfl rfl rfl rfl fun live => ⟨live, rfl, rfl⟩
  · unfold World.renew
    rw [done]
    exact books.discard unheld alike

/-- What settling a delivery can do. -/
inductive State.Settling (st : State) (receipt : Nat) :
    Except Feed.FeedError (Ready × Position) × State → Prop
  | refused (e : Feed.FeedError) : Settling st receipt (.error e, st)
  | gone (e : Feed.FeedError) (unheld : st.tracker.holds receipt = none) :
      Settling st receipt (.error e, { st with
        tracker := { st.tracker with held := st.tracker.held.erase receipt }
        handed := st.handed.erase receipt })
  | settled (handed : Ready) (position : Position)
      (found : st.handed.lookup receipt = some handed)
      (held : st.tracker.holds receipt = some position) :
      Settling st receipt (.ok (handed, position), { st with
        tracker := { st.tracker with held := st.tracker.held.erase receipt }
        handed := st.handed.erase receipt })

theorem State.settle_cases (st : State) (receipt : Nat) :
    State.Settling st receipt (st.settle receipt) := by
  have released := Tracker.release_fst st.tracker receipt
  have erased := Tracker.release_snd st.tracker receipt
  unfold State.settle
  split
  · exact .refused _
  · split
    · exact .refused _
    · rename_i handed found
      dsimp only
      generalize st.tracker.release receipt = asked at released erased
      obtain ⟨answer, tracker⟩ := asked
      obtain rfl : tracker = { st.tracker with held := st.tracker.held.erase receipt } := erased
      cases answer with
      | none => exact .gone _ released.symm
      | some position => exact .settled handed position found released.symm

theorem Books.settled (books : Books w) {position : Position} {event : Event}
    (held : w.tracker.holds receipt = some position) (admits : write.admits = none)
    (settles : write.settles = some position) (quiet : event.returnedReceipt = none)
    (opens : openStep w.opens event = w.opens)
    (after : w' = ((w.setState { w.core.state with
        tracker := { w.core.state.tracker with held := w.core.state.tracker.held.erase receipt }
        handed := w.core.state.handed.erase receipt }).record [event]).send [write]) :
    Books w' := by
  have sent : w'.pending.Perm (write :: w.pending) := by
    rw [after]
    exact World.pending_send _ [write]
  have attempts : w'.attempts.Perm w.attempts := by
    have := sent.filterMap Write.admits
    rwa [List.filterMap_cons, admits] at this
  have shelf : ∀ other, w'.shelf.count other = w.shelf.count other := by
    intro other
    rw [World.count_shelf, World.count_shelf, attempts.count_eq, after]
    rfl
  have handed : ∀ other, other ∈ w'.handedOut ↔ other ≠ receipt ∧ other ∈ w.handedOut := by
    intro other
    rw [after]
    exact mem_keys_erase
  refine books.release held (by rw [after]; rfl) (fun other => (shelf other).le)
    (fun other member => ((handed other).mp member).2) (fun other different there => ?_) ?_ ?_ ?_
    fun live => ⟨by rwa [after] at live, ?_⟩
  · rcases there with member | member
    · left
      rw [← List.count_pos_iff, shelf]
      exact List.count_pos_iff.mpr member
    · exact .inr ((handed other).mpr ⟨different, member⟩)
  · have := sent.filterMap Write.settles
    rwa [List.filterMap_cons, settles] at this
  · rw [after]
    exact World.returned_record (by simp [quiet])
  · rw [after]
    exact (World.opens_record _ _).trans opens
  · rw [attempts.length_eq, after]
    rw [after] at live
    exact books.admitting live

theorem Books.acknowledge (books : Books w) (config : Config) (receipt : Nat) :
    Books (w.acknowledge config receipt) := by
  have spec := w.core.state.settle_cases receipt
  unfold World.acknowledge
  dsimp only
  generalize w.core.state.settle receipt = result at spec ⊢
  cases spec with
  | refused e => exact books
  | gone e unheld => exact books.discard unheld (Tracker.erase_stale unheld)
  | settled handed position found held => exact books.settled held rfl rfl rfl rfl rfl

theorem Books.fail (books : Books w) (config : Config) (receipt : Nat) :
    Books (w.fail config receipt) := by
  have spec := w.core.state.settle_cases receipt
  unfold World.fail
  dsimp only
  generalize w.core.state.settle receipt = result at spec ⊢
  cases spec with
  | refused e => exact books
  | gone e unheld => exact books.discard unheld (Tracker.erase_stale unheld)
  | settled handed position found held => exact books.settled held rfl rfl rfl rfl rfl

/-! ### Messages -/

theorem mem_keys_eraseAll (receipts : List Nat) (other : Nat) : ∀ handed : FastMap Nat Ready,
    other ∈ (FastMap.eraseAll receipts handed).keys ↔
      other ∉ receipts ∧ other ∈ handed.keys := by
  induction receipts with
  | nil => simp [FastMap.eraseAll]
  | cons receipt receipts ih =>
    intro handed
    change other ∈ (FastMap.eraseAll receipts (handed.erase receipt)).keys ↔ _
    rw [ih, mem_keys_erase, List.mem_cons, not_or]
    tauto

/-- What a message of an owned partition does: its held copies are replaced, and the new
one goes to the gate or to the dead-letter topic. -/
theorem State.onMessage_owned (config : Config) (st : State) (message : Message)
    (found : st.tracker.partitions.lookup message.tp = some p) :
    ∃ p' t, (st.tracker.replaceCopies message.tp message.offset).2.partitions.lookup
        message.tp = some p' ∧ p'.generation = p.generation ∧
      (st.tracker.replaceCopies message.tp message.offset).2.deliver message.tp message.offset =
        some (st.tracker.nextReceipt + 1, t) ∧
      st.onMessage config message =
        match read message config.topics with
        | .unit unit identity =>
          ({ st.forget (st.tracker.replaceCopies message.tp message.offset).1 with
            tracker := t
            gating := (st.forget
              (st.tracker.replaceCopies message.tp message.offset).1).gating ++
                [⟨st.tracker.nextReceipt + 1, unit, identity⟩] }, none)
        | .noUnit outgoing =>
          ({ st.forget (st.tracker.replaceCopies message.tp message.offset).1 with
            tracker := { t with held := t.held.erase (st.tracker.nextReceipt + 1) } },
            some (noUnitMove config outgoing
              ⟨message.tp, message.offset, p.generation, st.tracker.nextReceipt + 1⟩)) := by
  obtain ⟨fold, -, -⟩ := st.tracker.replaceCopies_spec message.tp message.offset
  obtain ⟨next, ledger⟩ := Tracker.replaceAll_same
    (st.tracker.replaceCopies message.tp message.offset).1 st.tracker
  rw [← fold] at next ledger
  have same := ledger message.tp
  cases owned : (st.tracker.replaceCopies message.tp message.offset).2.partitions.lookup
      message.tp with
  | none =>
    simp only [Tracker.ledger, owned, found, Option.map_none, Option.map_some] at same
    cases same
  | some p' =>
    simp only [Tracker.ledger, owned, found, Option.map_some, Option.some.injEq] at same
    have delivered : ∃ t, (st.tracker.replaceCopies message.tp message.offset).2.deliver
        message.tp message.offset = some (st.tracker.nextReceipt + 1, t) := by
      unfold Tracker.deliver
      rw [owned, next]
      exact ⟨_, rfl⟩
    obtain ⟨t, delivered⟩ := delivered
    refine ⟨p', t, rfl, same, delivered, ?_⟩
    have holds := Tracker.deliver_holds owned delivered (st.tracker.nextReceipt + 1)
    rw [if_pos rfl, same] at holds
    have released := Tracker.release_fst t (st.tracker.nextReceipt + 1)
    have erased := Tracker.release_snd t (st.tracker.nextReceipt + 1)
    rw [holds] at released
    have both : t.release (st.tracker.nextReceipt + 1) =
        (some ⟨message.tp, message.offset, p.generation, st.tracker.nextReceipt + 1⟩,
          { t with held := t.held.erase (st.tracker.nextReceipt + 1) }) :=
      Prod.ext released erased
    unfold State.onMessage State.forget
    dsimp only
    rw [delivered]
    dsimp only
    cases read message config.topics with
    | unit unit identity => rfl
    | noUnit outgoing =>
      dsimp only
      rw [both]

theorem State.onMessage_unowned (config : Config) (st : State) (message : Message)
    (absent : st.tracker.partitions.lookup message.tp = none) :
    st.onMessage config message = (st, none) := by
  have nothing : st.tracker.replaceCopies message.tp message.offset = ([], st.tracker) := by
    unfold Tracker.replaceCopies
    rw [absent]
  have forgets : ({ st with tracker := st.tracker } : State).forget [] = st := by
    simp [State.forget, FastMap.eraseAll]
  unfold State.onMessage
  rw [nothing]
  dsimp only
  rw [forgets, Tracker.deliver, absent]

theorem foldl_replaced (receipts : List Nat) (successor : Nat) : ∀ opens : List Position,
    (receipts.map fun old => Event.replaced old successor).foldl openStep opens =
      withoutAll opens receipts := by
  induction receipts with
  | nil => exact fun _ => rfl
  | cons receipt receipts ih => exact fun opens => ih (without opens receipt)

theorem quiet_replaced (receipts : List Nat) (successor : Nat) :
    (receipts.map fun old => Event.replaced old successor).filterMap Event.returnedReceipt =
      [] := by
  rw [List.filterMap_map]
  exact List.filterMap_eq_nil_iff.mpr fun _ _ => rfl

theorem count_forget (receipt : α → Nat) (receipts : List Nat) (xs : List α) (other : Nat) :
    ((xs.filter fun x => receipt x ∉ receipts).map receipt).count other ≤
      (xs.map receipt).count other :=
  (List.filter_sublist.map receipt).count_le other

theorem mem_forget {receipt : α → Nat} {receipts : List Nat} {xs : List α} {other : Nat}
    (kept : other ∉ receipts) (member : other ∈ xs.map receipt) :
    other ∈ (xs.filter fun x => receipt x ∉ receipts).map receipt := by
  obtain ⟨x, there, rfl⟩ := List.mem_map.mp member
  exact List.mem_map_of_mem (List.mem_filter.mpr ⟨there, by simpa using kept⟩)

theorem Books.replaced (books : Books w) {receipts : List Nat} (distinct : receipts.Nodup)
    (held : ∀ receipt ∈ receipts, (w.tracker.holds receipt).isSome) (successor : Nat) :
    Books ((w.setState { w.core.state.forget receipts with
        tracker := receipts.foldl Tracker.replaceOne w.tracker }).record
      (receipts.map fun old => .replaced old successor)) := by
  obtain ⟨kept, holds⟩ := books.kept.replaceAll distinct held
  refine ⟨?_, fun live => ?_, books.admitting⟩
  · rw [World.opens_record, foldl_replaced, World.returned_record (quiet_replaced _ _)]
    refine kept.shed (fun other => ?_) (fun other member => ?_) (List.Subperm.refl _)
    · rw [World.count_shelf, World.count_shelf]
      have gate := count_forget Gating.receipt receipts w.core.state.gating other
      have buffer := count_forget Ready.receipt receipts w.core.state.ready other
      have add : ∀ g g' p a b b' : Nat, g' ≤ g → b' ≤ b →
          g' + p + a + b' ≤ g + p + a + b := by
        omega
      exact add _ _ _ _ _ _ gate buffer
    · exact ((mem_keys_eraseAll _ _ _).mp member).2
  · rw [World.opens_record, foldl_replaced]
    refine (books.stocked live).replaceAll holds fun other kept there => ?_
    rcases there with member | member
    · left
      rw [World.mem_shelf] at member ⊢
      rcases member with member | member | member | member
      · exact .inl (mem_forget kept member)
      · exact .inr (.inl member)
      · exact .inr (.inr (.inl member))
      · exact .inr (.inr (.inr (mem_forget kept member)))
    · exact .inr ((mem_keys_eraseAll _ _ _).mpr ⟨kept, member⟩)

theorem Books.gated (books : Books w) {tp : Tp} (found : w.tracker.partitions.lookup tp = some p)
    (delivered : w.tracker.deliver tp offset = some (receipt, t)) (unit : FeedUnit)
    (identity : PublishId)
    (after : w' = (w.setState { w.core.state with
        tracker := t, gating := w.core.state.gating ++ [⟨receipt, unit, identity⟩] }).record
      [.delivered ⟨tp, offset, p.generation, receipt⟩]) : Books w' := by
  have shelf : ∀ other, w'.shelf.count other = (receipt :: w.shelf).count other := by
    intro other
    rw [after]
    simp only [World.count_shelf_eq, World.record, World.setState, List.map_append,
      List.map_cons, List.map_nil, List.count_append, List.count_cons, List.count_nil]
    omega
  have opens : w'.opens = ⟨tp, offset, p.generation, receipt⟩ :: w.opens := by
    rw [after]
    exact World.opens_record _ _
  have returned : w'.returned = w.returned := by
    rw [after]
    exact World.returned_record rfl
  refine ⟨?_, fun live => ?_, ?_⟩
  · have kept := (books.kept.deliver found delivered).shed (fun other => (shelf other).le)
      (fun _ => id) (List.Subperm.refl _)
    rw [opens, returned, after]
    rw [after] at kept
    exact kept
  · have stocked := (Stocked.deliver books.kept (books.stocked (by rwa [after] at live)) found
      delivered).move (fun other _ there => there.imp_left fun member => by
        rw [← List.count_pos_iff, shelf]
        exact List.count_pos_iff.mpr member) fun _ member _ => member
    rw [opens, after]
    rw [after] at stocked
    exact stocked
  · rw [after]
    exact books.admitting

/-- A message that names no unit is carried by its move from the start. -/
theorem Books.unnamed (books : Books w) {tp : Tp}
    (found : w.tracker.partitions.lookup tp = some p)
    (delivered : w.tracker.deliver tp offset = some (receipt, t)) (config : Config)
    (outgoing : Outgoing)
    (after : w' = ((w.setState { w.core.state with
        tracker := { t with held := t.held.erase receipt } }).record
      [.delivered ⟨tp, offset, p.generation, receipt⟩, .unnamed receipt]).send
        [.move (noUnitMove config outgoing ⟨tp, offset, p.generation, receipt⟩)]) : Books w' := by
  have held := Tracker.deliver_holds found delivered receipt
  rw [if_pos rfl] at held
  have kept := (books.kept.deliver found delivered).release held
  have sent : w'.pending.Perm
      (.move (noUnitMove config outgoing ⟨tp, offset, p.generation, receipt⟩) :: w.pending) := by
    rw [after]
    exact World.pending_send _ _
  have attempts : w'.attempts.Perm w.attempts := sent.filterMap Write.admits
  have writes : w'.writes.Perm (⟨tp, offset, p.generation, receipt⟩ :: w.writes) :=
    sent.filterMap Write.settles
  have shelf : ∀ other, w'.shelf.count other = w.shelf.count other := by
    intro other
    rw [World.count_shelf, World.count_shelf, attempts.count_eq, after]
    rfl
  have opens : w'.opens = ⟨tp, offset, p.generation, receipt⟩ :: w.opens := by
    rw [after]
    exact World.opens_record _ _
  have returned : w'.returned = w.returned := by
    rw [after]
    exact World.returned_record rfl
  have handed : w'.handedOut = w.handedOut := by rw [after]; rfl
  have tracker : w'.tracker = { t with held := t.held.erase receipt } := by rw [after]; rfl
  refine ⟨?_, fun live => ?_, fun live => ?_⟩
  · rw [opens, returned, handed, tracker]
    refine kept.shed (fun other => ?_) (fun _ => id) writes.subperm
    rw [shelf, List.count_cons]
    exact Nat.le_add_right _ _
  · rw [opens, handed, tracker]
    have stocked := Stocked.deliver books.kept (books.stocked (by rwa [after] at live)) found
      delivered
    refine (stocked.release held
      fun other different there => there.imp_left fun member => ?_).move (fun _ _ => id)
        fun _ member _ => writes.mem_iff.mpr member
    rcases List.mem_cons.mp member with same | member
    · exact absurd same different
    · rw [← List.count_pos_iff, shelf]
      exact List.count_pos_iff.mpr member
  · rw [attempts.length_eq, after]
    rw [after] at live
    exact books.admitting live

theorem Books.message (books : Books w) (config : Config) (message : Message) :
    Books (w.message config message) := by
  unfold World.message
  dsimp only
  split
  · rename_i absent
    rw [State.onMessage_unowned config w.core.state message absent]
    exact books
  · rename_i p found
    obtain ⟨fold, distinct, held⟩ :=
      w.core.state.tracker.replaceCopies_spec message.tp message.offset
    obtain ⟨p', t, owned, generation, delivered, done⟩ :=
      State.onMessage_owned config w.core.state message found
    have replaced := books.replaced distinct
      (fun receipt member => by
        obtain ⟨copy, holds, -⟩ := held receipt member
        rw [World.tracker, holds]
        rfl) (w.core.state.tracker.nextReceipt + 1)
    rw [fold] at owned delivered
    rw [done]
    cases read message config.topics with
    | unit unit identity =>
      refine replaced.gated owned delivered unit identity ?_
      rw [generation]
      simp only [World.record, World.send, World.setState, List.append_assoc,
        Option.toList_none, List.map_nil, List.append_nil]
    | noUnit outgoing =>
      refine replaced.unnamed owned delivered config outgoing ?_
      rw [generation]
      simp only [World.record, World.send, World.setState, List.append_assoc,
        Option.toList_some, List.map_nil, List.map_cons]

/-! ### Every step -/

theorem Books.record (books : Books w) {events : List Event}
    (quiet : events.filterMap Event.returnedReceipt = [])
    (opens : events.foldl openStep w.opens = w.opens) : Books (w.record events) :=
  books.same (.refl _) rfl rfl (World.returned_record quiet) rfl
    ((World.opens_record _ _).trans opens) fun live => ⟨live, rfl, rfl⟩

theorem Books.retrack (books : Books w) {tracker : Tracker}
    (alike : Tracker.Alike w.tracker tracker) :
    Books (w.setState { w.core.state with tracker := tracker }) :=
  books.same alike rfl rfl rfl rfl rfl fun live => ⟨live, rfl, rfl⟩

/-- The thread of the consumer and the paused partitions are not in the books. -/
theorem Books.turn (books : Books w) (turn : Turn) (paused : List Tp) :
    Books { w with turn := turn, paused := paused } :=
  ⟨books.kept, books.stocked, books.admitting⟩

theorem Books.pause (books : Books w) (tps : List Tp) (taken : Bool) :
    Books (w.pause tps taken) := by
  unfold World.pause
  split
  · exact books.turn _ _
  · exact books

theorem Books.assign (books : Books w) (tps : List Tp) (error : Option String)
    (pauseTaken : Bool) : Books (w.assign tps error pauseTaken) := by
  unfold World.assign
  split
  · exact books.latch _
  · have assigned : Books ((w.setState
        { w.core.state with tracker := w.tracker.assign tps }).record
          [.assigned (w.tracker.generation + 1) tps]) :=
      (books.rebalance (Tracker.assign_rebalanced w.tracker tps)).record rfl rfl
    dsimp only
    split
    · exact assigned.pause tps pauseTaken
    · exact assigned

theorem Books.revoke (books : Books w) (tps : List Tp) : Books (w.revoke tps) :=
  (books.rebalance (Tracker.revoke_rebalanced w.tracker tps)).dropUnowned.turn _ _

theorem Books.loseAll (books : Books w) (fatal : Bool) (code : String) :
    Books (w.loseAll fatal code) := by
  have lost := (books.rebalance (Tracker.unassignAll_rebalanced w.tracker)).dropUnowned.turn
    w.turn []
  unfold World.loseAll
  dsimp only
  split
  · exact lost.latch _
  · exact lost

theorem Books.commitRevoked (books : Books w) (points : List (Tp × Int)) :
    Books (w.commitRevoked points) := by
  unfold World.commitRevoked
  dsimp only
  split
  · exact books.turn _ _
  · exact (books.turn .polling w.paused).record rfl rfl

theorem Books.backpressure (books : Books w) (taken : Bool) : Books (w.backpressure taken) := by
  unfold World.backpressure
  dsimp only
  split
  · exact books.pause _ _
  · split
    · exact books.turn _ _
    · exact books

theorem Books.pollError (books : Books w) (fatal : Bool) (reason : String) :
    Books (w.pollError fatal reason) := by
  unfold World.pollError
  split
  · exact books.latch _
  · exact books.same (.refl _) rfl rfl rfl rfl rfl fun live => ⟨live, rfl, rfl⟩

theorem Books.beginCommit (books : Books w) (leaving : Option Exit) :
    Books (w.beginCommit leaving) := by
  unfold World.beginCommit
  split
  · split <;> exact books.turn _ _
  · exact books.turn _ _

theorem retireOffsets_alike (positions : List (Tp × Option Int)) : ∀ t : Tracker,
    Tracker.Alike t
      (positions.foldl (fun tracker position => tracker.retireTo position.1 position.2) t) := by
  induction positions with
  | nil => exact .refl
  | cons position positions ih =>
    exact fun t => (Tracker.retireTo_alike t position.1 position.2).trans (ih _)

theorem Books.takeCommits (books : Books w) (leaving : Option Exit) :
    Books (w.takeCommits leaving) := by
  have taken := books.retrack (Tracker.takeCommits_alike w.tracker)
  unfold World.takeCommits
  dsimp only
  split
  · exact taken.turn _ _
  · exact (taken.record rfl rfl).turn _ _

theorem Books.committed (books : Books w) (leaving : Option Exit) (points : List (Tp × Int))
    (ok : Bool) : Books (w.committed leaving points ok) := by
  have turned := books.turn (World.Turn.after ok leaving) w.paused
  unfold World.committed
  dsimp only
  split
  · exact turned
  · exact turned.retrack (Tracker.untake_alike points w.tracker)

theorem Books.settleClose (books : Books w) (last : Exit) (committed : Bool) :
    Books (w.settleClose last committed) := by
  unfold World.settleClose
  dsimp only
  split
  · exact books.turn _ _
  · exact ⟨books.kept, books.stocked, books.admitting⟩

/-- A pass that keeps its entries changes nothing in the books. -/
theorem Books.regate (books : Books w) {gate : Gate} (entries : gate.entries = w.gate.entries) :
    Books { w with gate := gate } := by
  have pass : World.inPass { w with gate := gate } = w.inPass := by
    simp only [World.inPass, entries]
  refine books.same (.refl _) ?_ rfl rfl rfl rfl fun live => ⟨live, rfl, ?_⟩
  · simp only [World.shelf, pass]
    rfl
  · rw [pass]
    rfl

theorem afterRead_entries (entries : List Gating) (started : Nat) (todo : List Nat)
    (marks : List (Nat × Int × Int)) (unread late : List Nat) :
    (World.afterRead entries started todo marks unread late).entries = entries := by
  unfold World.afterRead
  split <;> rfl

theorem Books.gateRead (books : Books w) {started partition : Nat} {todo : List Nat}
    {again : Option (Option Int)} {marks : List (Nat × Int × Int)} {unread late : List Nat}
    {now : Nat} {answer : World.Marks} (reading : w.gate.entries = entries)
    (taken : w.gateRead config entries started partition todo again marks unread late now
      answer = some w') : Books w' := by
  have same (gate : Gate) (kept : gate.entries = entries) : Books { w with gate := gate } :=
    books.regate (kept.trans reading.symm)
  have back : (Gate.returning entries []).entries = entries := List.append_nil _
  have marked (low high : Int) : Books { w.record [.watermark w.pass partition high] with
      gate := World.afterRead entries started todo (marks ++ [(partition, low, high)]) unread
        late } := by
    have recorded : Books (w.record [.watermark w.pass partition high]) :=
      books.record rfl rfl
    exact recorded.regate ((afterRead_entries _ _ _ _ _ _).trans reading.symm)
  unfold World.gateRead at taken
  dsimp only at taken
  split at taken
  · obtain rfl := Option.some.inj taken
    exact same _ back
  · split at taken
    · obtain rfl := Option.some.inj taken
      exact same _ (afterRead_entries _ _ _ _ _ _)
    · split at taken
      · split at taken
        · obtain rfl := Option.some.inj taken
          exact marked _ _
        · obtain rfl := Option.some.inj taken
          exact same _ rfl
      · obtain rfl := Option.some.inj taken
        exact same _ rfl
      · obtain rfl := Option.some.inj taken
        exact marked _ _
      · obtain rfl := Option.some.inj taken
        exact (books.latch _).regate (back.trans reading.symm)
      · obtain rfl := Option.some.inj taken
        exact same _ (afterRead_entries _ _ _ _ _ _)
      · cases taken

theorem count_partition (entries : List Gating) (p : Gating → Bool) (receipt : Nat) :
    (entries.map (·.receipt)).count receipt =
      ((entries.filter p ++ entries.filter (!p ·)).map (·.receipt)).count receipt :=
  (((List.filter_append_perm p entries).map _).count_eq receipt).symm

theorem Books.caughtUp (books : Books w) (config : Config) (waiting : w.gate.entries = entries)
    (unread : List Nat) : Books (w.caughtUp config entries unread) := by
  unfold World.caughtUp
  split
  · exact books.regate waiting.symm
  · refine books.shift (.refl _) rfl rfl rfl [] [] (fun receipt => ?_) (fun copy => ?_)
      fun live => ⟨live, nofun, nofun, ?_⟩
    · have split := count_partition entries
        (fun entry => decide (config.partition entry.identity ∈ unread)) receipt
      have pass : w.inPass.count receipt = (entries.map (·.receipt)).count receipt := by
        rw [World.inPass, waiting]
      rw [World.count_shelf, World.count_shelf, pass, split, List.count_nil, Nat.zero_add]
      rfl
    · rw [List.count_nil, Nat.zero_add]
      rfl
    · have length := (List.filter_append_perm
        (fun entry => decide (config.partition entry.identity ∈ unread)) entries).length_eq
      have before := books.admitting live
      rw [World.inPass, waiting, List.length_map, ← length] at before
      rw [World.inPass, List.length_map]
      exact before

theorem Books.gateWait (books : Books w) (config : Config) (waiting : w.gate.entries = entries)
    (started : Nat) (marks : List (Nat × Int × Int)) (parked : Bool) (unread : List Nat)
    (now : Nat) : Books (w.gateWait config entries started marks parked unread now) := by
  have same (gate : Gate) (kept : gate.entries = entries) : Books { w with gate := gate } :=
    books.regate (kept.trans waiting.symm)
  have back : (Gate.returning entries []).entries = entries := List.append_nil _
  unfold World.gateWait
  split
  · exact books.caughtUp config waiting unread
  · split
    · split
      · exact same _ back
      · split <;> exact same _ rfl
    · split
      · exact same _ back
      · exact same _ rfl

theorem Books.follow (books : Books w) {partition : Nat}
    (taken : w.follow config partition = some w') : Books w' := by
  unfold World.follow at taken
  split at taken
  · cases taken
  · split at taken
    · obtain rfl := Option.some.inj taken
      exact books.latch _
    · obtain rfl := Option.some.inj taken
      exact ⟨books.kept, books.stocked, books.admitting⟩

theorem Books.land (books : Books w) (taken : w.land config i offset = some w') : Books w' := by
  unfold World.land at taken
  split at taken
  · cases taken
  · rename_i flight found
    split at taken
    · cases taken
    · split at taken
      · obtain rfl := Option.some.inj taken
        have same : ((w.flight.set i ⟨flight.write, true⟩).map (·.write)) =
            w.flight.map (·.write) := Lists.map_set_same found Flight.write rfl
        refine books.same (.refl _) ?_ rfl rfl ?_ rfl fun live => ⟨live, rfl, ?_⟩
        · simp only [World.shelf, World.attempts, World.pending, same]
          rfl
        · simp only [World.writes, World.pending, same]
          rfl
        · simp only [World.attempts, World.pending, same]
          rfl
      · cases taken

theorem Books.publish (books : Books w) (config : Config) (unit : FeedUnit) (confirmer : Nat) :
    Books (w.publish config unit confirmer) := by
  unfold World.publish
  split
  · exact ⟨books.kept, books.stocked, books.admitting⟩
  · refine books.same (.refl _) ?_ rfl rfl ?_ rfl fun live => ⟨live, rfl, ?_⟩
    · simp [World.shelf, World.attempts, World.pending, World.send, Write.admits,
        World.atGate, World.inPass, World.buffered, List.filterMap_cons]
    · simp [World.writes, World.pending, World.send, Write.settles, List.filterMap_cons]
    · simp [World.attempts, World.pending, World.send, Write.admits, World.inPass,
        List.filterMap_cons]

theorem Books.close (books : Books w) (within : Nat) : Books (w.close within) := by
  unfold World.close
  split
  · exact ⟨books.kept, books.stocked, books.admitting⟩
  · exact books.same (.refl _) rfl rfl rfl rfl rfl fun live => ⟨live, rfl, rfl⟩

theorem Books.stop (books : Books w) : Books w.stop := by
  refine books.same (.refl _) rfl rfl rfl rfl rfl fun live => ?_
  simp [World.stop, Core.ended] at live

theorem Books.stopReceiving (books : Books w) : Books w.stopReceiving := by
  unfold World.stopReceiving
  split
  · exact books
  · exact books.same (.refl _) rfl rfl rfl rfl rfl fun live => ⟨live, rfl, rfl⟩

theorem Books.exitLoop (books : Books w) : Books w.exitLoop := by
  have closed : Books (w.setState { w.core.state with close := none }) :=
    books.same (.refl _) rfl rfl rfl rfl rfl fun live => ⟨live, rfl, rfl⟩
  exact closed.turn _ _

theorem Books.step (books : Books w) {action : Action}
    (taken : Kafka.step config w action = some w') : Books w' := by
  have polling {next : World} {after : World}
      (guarded : (if w.turn = .polling then some next else none) = some after)
      (kept : Books next) : Books after := by
    split at guarded
    · exact Option.some.inj guarded ▸ kept
    · cases guarded
  have always {next after : World} (done : some next = some after) (kept : Books next) :
      Books after := Option.some.inj done ▸ kept
  cases action with
  | message message => exact polling taken (books.message config message)
  | pollError fatal reason => exact polling taken (books.pollError fatal reason)
  | assign tps error pauseTaken => exact polling taken (books.assign tps error pauseTaken)
  | revoke tps => exact polling taken (books.revoke tps)
  | loseAll fatal code => exact polling taken (books.loseAll fatal code)
  | backpressure ok => exact polling taken (books.backpressure ok)
  | commitRevoked =>
    simp only [Kafka.step] at taken
    split at taken
    · exact always taken (books.commitRevoked _)
    · cases taken
  | resendDue now =>
    simp only [Kafka.step] at taken
    split at taken
    · exact always taken (books.resendDue now)
    · exact always taken ((books.resendDue now).turn _ _)
    · cases taken
  | beginCommit =>
    simp only [Kafka.step] at taken
    split at taken
    · exact always taken (books.beginCommit _)
    · exact always taken (books.beginCommit _)
    · cases taken
  | retire position =>
    simp only [Kafka.step] at taken
    split at taken
    · exact always taken ((books.retrack (retireOffsets_alike _ w.tracker)).turn _ _)
    · cases taken
  | takeCommits =>
    simp only [Kafka.step] at taken
    split at taken
    · exact always taken (books.takeCommits _)
    · cases taken
  | committed ok =>
    simp only [Kafka.step] at taken
    split at taken
    · exact always taken (books.committed _ _ ok)
    · cases taken
  | exitLoop =>
    simp only [Kafka.step] at taken
    split at taken
    · exact always taken books.exitLoop
    · cases taken
  | exitCheck | flush =>
    simp only [Kafka.step] at taken
    split at taken
    · exact always taken (books.turn _ _)
    · cases taken
  | settleClose =>
    simp only [Kafka.step] at taken
    split at taken
    · exact always taken (books.settleClose _ _)
    · cases taken
  | gateTake now =>
    simp only [Kafka.step] at taken
    split at taken
    · rename_i idle
      exact always taken (books.gateTake config idle now)
    · cases taken
  | gateRead now answer =>
    simp only [Kafka.step] at taken
    split at taken
    · rename_i reading
      exact books.gateRead (congrArg Gate.entries reading) taken
    · cases taken
  | gateWait now =>
    simp only [Kafka.step] at taken
    split at taken
    · rename_i waiting
      exact always taken (books.gateWait config (congrArg Gate.entries waiting) _ _ _ _ now)
    · cases taken
  | gatePutBack =>
    simp only [Kafka.step] at taken
    split at taken
    · rename_i returning
      exact always taken (books.gatePutBack returning)
    · cases taken
  | gateAdmit =>
    simp only [Kafka.step] at taken
    split at taken
    · rename_i admitting
      exact always taken (books.regate (congrArg Gate.entries admitting).symm)
    · rename_i admitting
      exact always taken (books.gateAdmit config admitting)
    · cases taken
  | follow partition => exact books.follow taken
  | followError reason => exact always taken (books.latch reason)
  | land i offset => exact books.land taken
  | report i now failure => exact books.report taken
  | foreign | marker =>
    exact always taken ⟨books.kept, books.stocked, books.admitting⟩
  | receive max => exact always taken (books.receive max)
  | renew receipt => exact always taken (books.renew receipt)
  | acknowledge receipt => exact always taken (books.acknowledge config receipt)
  | fail receipt => exact always taken (books.fail config receipt)
  | publish unit confirmer => exact always taken (books.publish config unit confirmer)
  | stopReceiving => exact always taken books.stopReceiving
  | close within => exact always taken (books.close within)
  | stop => exact always taken books.stop
  | panicked thread => exact always taken (books.latch _)

end Books

open Transition (Run)

theorem books_run {config : Config} {topic : Nat → Log} {allowed : World → Action → Prop}
    {actions : List Action} {w : World}
    (run : Run (step config) allowed (World.initial config topic) actions w) : Books w :=
  run.invariant Books (books_initial config topic) fun books _ taken => books.step taken

/-- In every reachable state a delivery was returned at most once. Until the feed latches
or stops, each receipt the tracker holds under its partition's current assignment is in
exactly one container; the tracker counts the copies that are delivered and unfinished,
and each of those that is not held is carried by exactly one move or tombstone;
`admitting` is the number of deliveries in a gate pass and with an attempt write, so that
`heldForReader` is the number of deliveries not handed out. -/
theorem feed_strands_nothing {config : Config} {topic : Nat → Log}
    {allowed : World → Action → Prop} {actions : List Action} {w : World}
    (run : Run (step config) allowed (World.initial config topic) actions w) :
    w.returned.Nodup ∧
      (w.core.ended = false →
        (∀ receipt copy, w.tracker.holds receipt = some copy →
          w.atGate.count receipt + w.inPass.count receipt + w.attempts.count receipt +
            w.buffered.count receipt + w.handedOut.count receipt = 1) ∧
        (∀ tp generation unfinished, w.tracker.ledger tp = some (generation, unfinished) →
          ∀ offset, (unfinished[offset]?).getD 0 = copiesAt w.opens tp generation offset) ∧
        (∀ copy ∈ w.opens, w.tracker.current copy = true →
          w.tracker.holds copy.receipt ≠ some copy → w.writes.count copy = 1) ∧
        w.core.state.admitting = w.inPass.length + w.attempts.length ∧
        w.core.state.heldForReader =
          w.buffered.length + w.atGate.length + w.inPass.length + w.attempts.length) := by
  have books := books_run run
  refine ⟨?_, fun live => ⟨?_, ?_, ?_, books.admitting live, ?_⟩⟩
  · rw [List.nodup_iff_count_le_one]
    intro receipt
    have := books.kept.once receipt
    omega
  · intro receipt copy held
    have once := books.kept.once receipt
    rw [← World.count_shelf]
    have distinct : w.handedOut.Nodup := AList.keys_nodup _
    rcases (books.stocked live).shelved receipt copy held with member | member
    · have here := List.count_pos_iff.mpr member
      have absent : receipt ∉ w.handedOut := by
        intro there
        have := List.count_pos_iff.mpr (books.kept.given receipt there)
        omega
      rw [List.count_eq_zero.mpr absent]
      omega
    · have here := List.count_pos_iff.mpr (books.kept.given receipt member)
      rw [List.count_eq_one_of_mem distinct member]
      omega
  · intro tp generation unfinished owned offset
    rw [books.kept.counted tp generation unfinished owned offset, getD_stock]
  · intro copy isOpen now unheld
    rcases (books.stocked live).carried copy isOpen now with held | write
    · exact absurd held unheld
    · exact List.count_eq_one_of_mem books.kept.apart write
  · rw [State.heldForReader, books.admitting live, World.buffered, World.atGate,
      List.length_map, List.length_map]
    omega

/-- A feed with one attempt partition and a cap of two reads. -/
def smallFeed : Config where
  topics := ⟨"units", "units-retry", "units-dead", "units-attempts"⟩
  attemptCap := ⟨2, Nat.two_pos, by decide⟩
  attemptPartitions := ⟨1, by decide, by decide⟩
  deliveryTimeout := 10
  serde := ⟨fun _ => true, fun _ => "", fun _ => ""⟩

def emptyTopic : Nat → Log := fun _ => ⟨0, [], 0⟩

def unitAt (offset : Int) : Message := ⟨"units", 0, offset, none, some [1], []⟩

/-- A unit is polled, its attempt is recorded, and it is handed to the reader. -/
def firstRead : List Action :=
  [.assign [⟨"units", 0⟩] none true, .message (unitAt 5), .gateTake 0,
    .gateRead 0 (.both 0 0), .gateRead 0 (.one 0), .gateRead 0 (.one 0), .gateWait 0,
    .gateWait 0, .gateAdmit, .gateAdmit, .land 0 0, .report 0 0 none, .receive 1]

theorem feed_strands_nothing_first_read :
    ∃ w, Run (step smallFeed) (fun _ _ => True) (World.initial smallFeed emptyTopic)
        (firstRead ++ [.message (unitAt 6)]) w ∧
      w.core.ended = false ∧ w.handedOut = [1] ∧ w.atGate = [2] ∧ w.returned.Nodup ∧
      w.core.state.admitting = w.inPass.length + w.attempts.length := by
  have reached : ((Transition.replay (step smallFeed) (fun _ _ => True)
      (World.initial smallFeed emptyTopic) (firstRead ++ [.message (unitAt 6)])).map fun w =>
        (w.core.ended, w.handedOut, w.atGate)) = some (false, [1], [2]) := by
    decide +kernel
  obtain ⟨w, executes, seen⟩ := Option.map_eq_some_iff.mp reached
  simp only [Prod.mk.injEq] at seen
  have run := Transition.run_of_replay _ _ _ executes
  obtain ⟨distinct, live⟩ := feed_strands_nothing run
  exact ⟨w, run, seen.1, seen.2.1, seen.2.2, distinct, (live seen.1).2.2.2.1⟩

/-- The feed commits past no open copy: in every reachable state, what a commit would take and
what a revocation would hand back stay at or below every copy delivered under the
partition's current assignment and not finished. -/
theorem commits_pass_no_open_copy {config : Config} {topic : Nat → Log}
    {allowed : World → Action → Prop} {actions : List Action} {w : World} {copy : Position}
    {point : Int} (tps : List Tp)
    (run : Run (step config) allowed (World.initial config topic) actions w)
    (isOpen : copy ∈ w.opens) (now : w.tracker.current copy = true)
    (commits : (copy.tp, point) ∈ w.tracker.takeCommits.1 ++ (w.tracker.revoke tps).1) :
    point ≤ copy.offset := by
  obtain ⟨p, found, commits⟩ : ∃ p, w.tracker.partitions.lookup copy.tp = some p ∧
      p.commitPoint = some point := by
    rcases List.mem_append.mp commits with taken | revoked
    · obtain ⟨entry, listed, moves⟩ := List.mem_filterMap.mp taken
      obtain ⟨moved, moves, same⟩ := Option.map_eq_some_iff.mp moves
      obtain ⟨here, rfl⟩ := Prod.mk.inj same
      rw [← here]
      refine ⟨_, (FastMap.lookup_eq_some_iff_mem _ _ _).mpr listed, ?_⟩
      unfold Tracker.moved at moves
      grind
    · exact Tracker.revokeEach_points revoked
  have here : p.generation = copy.generation := by simpa [Tracker.current, found] using now
  have counted := (books_run run).kept.counted copy.tp p.generation p.unfinished
    (by simp [Tracker.ledger, found]) copy.offset
  have positive : copiesAt w.opens copy.tp p.generation copy.offset ≠ 0 :=
    Nat.pos_iff_ne_zero.mp (List.countP_pos_iff.mpr ⟨copy, isOpen, by simp [here]⟩)
  apply commitPoint_le commits
  rw [← Std.TreeMap.isSome_getElem?_iff_mem, counted, stock, if_neg positive]
  rfl

/-- The first unit is acknowledged and its tombstone confirmed, with two more polled. -/
def firstFinished : List Action :=
  firstRead ++ [.acknowledge 1, .message (unitAt 6), .message (unitAt 8), .land 0 1,
    .report 0 0 none]

theorem firstFinished_executes : (Transition.replay (step smallFeed) (fun _ _ => True)
    (World.initial smallFeed emptyTopic) firstFinished).isSome = true := by decide +kernel

theorem commits_pass_no_open_copy_finished :
    ∃ w, Run (step smallFeed) (fun _ _ => True) (World.initial smallFeed emptyTopic)
        firstFinished w ∧
      (⟨"units", 0⟩, 6) ∈ w.tracker.takeCommits.1 ∧
      ⟨⟨"units", 0⟩, 8, 1, 3⟩ ∈ w.opens ∧ (6 : Int) ≤ 8 := by
  have run := Transition.run_of_replay _ _ _ (Option.some_get firstFinished_executes).symm
  have isOpen : ⟨⟨"units", 0⟩, 8, 1, 3⟩ ∈ (Option.get _ firstFinished_executes).opens := by
    decide +kernel
  have taken : (⟨"units", 0⟩, 6) ∈
      (Option.get _ firstFinished_executes).tracker.takeCommits.1 := by
    have partition : ((Option.get _ firstFinished_executes).tracker.partitions.lookup
        ⟨"units", 0⟩).map (fun p => (p.unfinished.keys, p.next, p.taken)) =
          some ([6, 8], some 9, none) := by
      decide +kernel
    obtain ⟨p, found, same⟩ := Option.map_eq_some_iff.mp partition
    simp only [Prod.mk.injEq] at same
    obtain ⟨keys, next, taken⟩ := same
    have first : p.unfinished.minKey? = some 6 := by
      rw [Std.TreeMap.minKey?_eq_head?_keys, keys]
      rfl
    refine List.mem_filterMap.mpr ⟨_, (FastMap.lookup_eq_some_iff_mem _ _ _).mp found, ?_⟩
    simp [Tracker.moved, Partition.commitPoint, first, next, taken]
  refine ⟨_, run, taken, isOpen, ?_⟩
  exact commits_pass_no_open_copy [] run isOpen (by decide +kernel) (List.mem_append_left _ taken)

end Spate.Kafka
