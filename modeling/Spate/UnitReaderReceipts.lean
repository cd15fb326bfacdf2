import Mathlib.Tactic.Abel
import Spate.UnitReaderCalls

set_option autoImplicit false

/- No delivery is lost: every receipt the reader received is settled for good, held, waits
for its fail to be sent again, or is in its hand. -/
namespace Spate.S3

open Spate.Feed
open Spate.TreeMaps
open Std (TreeMap)

def settledReceipts (history : List Happening) : Multiset Nat :=
  (history.filterMap Happening.settles : List Nat)

def receivedReceipts (history : List Happening) : Multiset Nat :=
  (history.flatMap Happening.receives : List Nat)

theorem settled_append (history extra : List Happening) :
    settledReceipts (history ++ extra) = settledReceipts history + settledReceipts extra := by
  rw [settledReceipts, List.filterMap_append, ← Multiset.coe_add]
  rfl

theorem received_append (history extra : List Happening) :
    receivedReceipts (history ++ extra) = receivedReceipts history + receivedReceipts extra := by
  rw [receivedReceipts, List.flatMap_append, ← Multiset.coe_add]
  rfl

/-- The happening neither settles a receipt nor receives one. -/
def Happening.mute (happening : Happening) : Prop :=
  happening.settles = none ∧ happening.receives = []

theorem Happening.mute_of_neutral {happening : Happening} (neutral : happening.neutral = true) :
    happening.mute := by
  cases happening <;> first | exact ⟨rfl, rfl⟩ | cases neutral

theorem receives_of_names {happening : Happening} {receipt : Nat}
    (names : happening.names = some receipt) : happening.receives = [] := by
  cases happening <;> first | rfl | cases names

theorem settled_mute {extra : List Happening} (mute : ∀ happening ∈ extra, happening.mute) :
    settledReceipts extra = 0 := by
  have none : extra.filterMap Happening.settles = [] :=
    List.filterMap_eq_nil_iff.mpr fun happening member => (mute happening member).1
  rw [settledReceipts, none]
  rfl

theorem received_mute {extra : List Happening} (mute : ∀ happening ∈ extra, happening.mute) :
    receivedReceipts extra = 0 := by
  have none : extra.flatMap Happening.receives = [] :=
    List.flatMap_eq_nil_iff.mpr fun happening member => (mute happening member).2
  rw [receivedReceipts, none]
  rfl

namespace UnitReader

def heldReceipts (r : UnitReader) : Multiset Nat :=
  (r.deliveries.toList.map fun entry => entry.2.receipt : List Nat)

/-- The receipts the reader accounts for. -/
def owed (r : UnitReader) : Multiset Nat :=
  settledReceipts r.history + r.heldReceipts + (r.unsentFails.map Prod.fst : List Nat)

variable {r next : UnitReader} {delivery : Nat} {held : HeldUnit}
  {before after : Multiset Nat × UnitReader} {hand : Multiset Nat} {lossy stops : Bool}

theorem heldReceipts_erase (found : r.deliveries[delivery]? = some held) :
    r.heldReceipts = held.receipt ::ₘ
      ((r.deliveries.erase delivery).toList.map fun entry => entry.2.receipt : List Nat) :=
  Multiset.coe_eq_coe.mpr ((toList_erase found).map _)

theorem heldReceipts_modify (r : UnitReader) (delivery : Nat) {f : HeldUnit → HeldUnit}
    (keeps : ∀ held, (f held).receipt = held.receipt) :
    (r.setHeld delivery f).heldReceipts = r.heldReceipts := by
  cases found : r.deliveries[delivery]? with
  | none =>
    change (((r.deliveries.modify delivery f).toList.map _ : List Nat) : Multiset Nat) = _
    rw [toList_modify_absent found]
    rfl
  | some held =>
    refine (Multiset.coe_eq_coe.mpr ((toList_modify found).map _)).trans ?_
    rw [heldReceipts_erase found, List.map_cons, ← Multiset.cons_coe, keeps]

/-! ## One act -/

/-- `next` owes what `r` does, and has received what `r` has. -/
structure Level (r next : UnitReader) : Prop where
  owed : next.owed = r.owed
  received : receivedReceipts next.history = receivedReceipts r.history

theorem Level.refl (r : UnitReader) : Level r r := ⟨rfl, rfl⟩

theorem Level.trans {middle : UnitReader} (first : Level r middle) (second : Level middle next) :
    Level r next :=
  ⟨second.owed.trans first.owed, second.received.trans first.received⟩

theorem level_mute (held : next.heldReceipts = r.heldReceipts)
    (unsent : next.unsentFails = r.unsentFails) {extra : List Happening}
    (history : next.history = r.history ++ extra) (mute : ∀ happening ∈ extra, happening.mute) :
    Level r next := by
  constructor
  · unfold UnitReader.owed
    rw [held, unsent, history, settled_append, settled_mute mute, add_zero]
  · rw [history, received_append, received_mute mute, add_zero]

theorem level_record (r : UnitReader) {happening : Happening} (mute : happening.mute) :
    Level r (r.record happening) :=
  level_mute rfl rfl (history_record r happening) (by simpa using mute)

theorem level_same (held : next.heldReceipts = r.heldReceipts)
    (unsent : next.unsentFails = r.unsentFails) (log : next.log = r.log) : Level r next := by
  have same : next.history = r.history ++ [] := by
    rw [history, history, log, List.append_nil]
  exact level_mute held unsent same (by simp)

theorem level_setHeld (r : UnitReader) (delivery : Nat) {f : HeldUnit → HeldUnit}
    (keeps : ∀ held, (f held).receipt = held.receipt) : Level r (r.setHeld delivery f) :=
  level_same (heldReceipts_modify r delivery keeps) rfl rfl

theorem level_laneEvent (r : UnitReader) (event : LaneEvent) : Level r (r.laneEvent event) := by
  cases event with
  | report | terminal =>
    rw [laneEvent]
    split
    · exact (level_same (by rfl) (by rfl) (by rfl)).trans (level_record _ ⟨rfl, rfl⟩)
    · exact .refl r

theorem level_overwriteHeld (r : UnitReader) (lane : LaneState) (held : HeldUnit)
    (overwrite : Overwrite) : Level r (r.overwriteHeld lane held overwrite) := by
  have dropped : ∀ reEnqueue, Level r ((r.record (.dropped lane.delivery
      (held.pending.filter fun cursor => cursor.key = overwrite.key))).setHeld lane.delivery
        fun held => { held with
          pending := held.pending.filter fun cursor => cursor.key ≠ overwrite.key
          overwritten := held.overwritten.insert overwrite.key reEnqueue }) := fun reEnqueue =>
    (level_record r ⟨rfl, rfl⟩).trans (level_setHeld _ _ fun _ => rfl)
  unfold overwriteHeld
  dsimp only
  split
  · exact dropped _
  · exact (dropped _).trans (level_record _ ⟨rfl, rfl⟩)

theorem level_readReport (r : UnitReader) (partition : PartitionId) (report : PoisonReport) :
    Level r (r.readReport partition report) := by
  unfold readReport onOverwrite
  split
  · split
    · exact .refl r
    · split
      · exact .refl r
      · split
        · exact .refl r
        · exact level_overwriteHeld r _ _ _
  · split
    · exact .refl r
    · exact level_setHeld r _ fun _ => rfl

/-- A delivery is let go of: its receipt is no longer held. -/
theorem owed_release (found : r.deliveries[delivery]? = some held) :
    (r.release delivery).owed + {held.receipt} = r.owed ∧
      (r.release delivery).history = r.history := by
  have same : (r.release delivery).history = r.history ∧
      (r.release delivery).unsentFails = r.unsentFails ∧
      (r.release delivery).deliveries = r.deliveries.erase delivery := by
    rw [release, found]
    exact ⟨rfl, rfl, rfl⟩
  obtain ⟨history, unsent, deliveries⟩ := same
  refine ⟨?_, history⟩
  unfold owed
  rw [history, unsent, heldReceipts, deliveries, heldReceipts_erase found, ← Multiset.singleton_add]
  abel

/-- A request that settles a delivery keeps its receipt accounted for. -/
theorem level_settle {happening : Happening} (found : r.deliveries[delivery]? = some held)
    (names : happening.names = some held.receipt)
    (settles : happening.settles = some held.receipt) :
    Level r ((r.record happening).release delivery) := by
  have there : (r.record happening).deliveries[delivery]? = some held := found
  obtain ⟨released, same⟩ := owed_release there
  constructor
  · have told : (r.record happening).owed = r.owed + {held.receipt} := by
      have one : settledReceipts [happening] = {held.receipt} := by
        simp [settledReceipts, settles]
      unfold owed
      rw [history_record, settled_append, one]
      change _ + _ + r.heldReceipts + (r.unsentFails.map Prod.fst : List Nat) = _
      abel
    rw [told] at released
    exact add_right_cancel released
  · rw [same, history_record, received_append]
    simp [receivedReceipts, receives_of_names names]

theorem level_act (act : Act r next) : Level r next := by
  cases act with
  | lane event => exact level_laneEvent r event
  | @report partition report rest =>
    have popped : Level r { r with channel := rest } := level_same rfl rfl rfl
    exact popped.trans (level_readReport _ partition report)
  | confirmed | refused => exact (level_record r ⟨rfl, rfl⟩).trans (level_setHeld _ _ fun _ => rfl)
  | retire found =>
    unfold retire
    rw [found]
    exact (level_same (by rfl) (by rfl) (by rfl)).trans (level_setHeld _ _ fun _ => rfl)
  | request _ _ names unsettled => exact level_record r ⟨unsettled, receives_of_names names⟩
  | settle found _ names settles => exact level_settle found names settles
  | openPart room found =>
    unfold openPart
    rw [expectHeld_found found]
    refine Level.trans ?_ (level_record _ ⟨rfl, rfl⟩)
    exact level_same (heldReceipts_modify r _ fun _ => rfl) rfl rfl
  | committed =>
    unfold noteCommit
    exact (level_same (by rfl) (by rfl) (by rfl)).trans (level_record _ ⟨rfl, rfl⟩)
  | hint | left => exact level_same rfl rfl rfl
  | neutral same history silent =>
    have deliveries : next.deliveries = r.deliveries := congrArg Holdings.deliveries same
    have held : next.heldReceipts = r.heldReceipts := by
      rw [heldReceipts, deliveries]
      rfl
    exact level_mute held (congrArg Holdings.unsentFails same) history fun happening member =>
      Happening.mute_of_neutral (silent happening member)

/-! ## One deed -/

/-- What the reader accounts for, its hand included. -/
def account (desk : Multiset Nat × UnitReader) : Multiset Nat := desk.2.owed + desk.1

/-- From one desk to the next the receipts `gained` were received, and those `lost` are
accounted for no more. -/
structure Moved (gained lost : Multiset Nat) (before after : Multiset Nat × UnitReader) : Prop where
  account : account after + lost = account before + gained
  received : receivedReceipts after.2.history = receivedReceipts before.2.history + gained

theorem Moved.trans {first second lost missing : Multiset Nat}
    {middle : Multiset Nat × UnitReader} (left : Moved first lost before middle)
    (right : Moved second missing middle after) :
    Moved (first + second) (lost + missing) before after := by
  constructor
  · calc UnitReader.account after + (lost + missing)
        = UnitReader.account after + missing + lost := by abel
      _ = UnitReader.account middle + lost + second := by rw [right.account]; abel
      _ = UnitReader.account before + (first + second) := by rw [left.account]; abel
  · rw [right.received, left.received, add_assoc]

theorem moved_hold (sound : Sound r) (delivery : Delivery) (cursors : List Cursor) :
    Moved 0 0 (delivery.receipt ::ₘ hand, r) (hand, r.hold delivery cursors) := by
  have absent : r.deliveries[r.nextDelivery]? = none := by
    cases found : r.deliveries[r.nextDelivery]? with
    | none => rfl
    | some held => exact absurd (sound.opening.deliveries _ held found) (Nat.lt_irrefl _)
  have receipts : (r.hold delivery cursors).heldReceipts = delivery.receipt ::ₘ r.heldReceipts :=
    Multiset.coe_eq_coe.mpr ((toList_insert_new absent).map _)
  have same : (r.hold delivery cursors).history =
      r.history ++ [.held r.nextDelivery delivery.receipt cursors] := history_record _ _
  have mute : ∀ happening ∈ [Happening.held r.nextDelivery delivery.receipt cursors],
      happening.mute := by
    simp [Happening.mute, Happening.settles, Happening.receives]
  constructor
  · unfold account owed
    dsimp only
    have unsent : (r.hold delivery cursors).unsentFails = r.unsentFails := rfl
    rw [same, settled_append, settled_mute mute, receipts, unsent]
    simp only [← Multiset.singleton_add]
    abel
  · dsimp only
    rw [same, received_append, received_mute mute]

theorem moved_failed (r : UnitReader) (receipt : Nat) (reply : Reply) :
    Moved 0 (if settled reply = .ok .yes then 0 else {receipt}) (receipt ::ₘ hand, r)
      (hand, r.record (.failed receipt reply)) := by
  have received : receivedReceipts [Happening.failed receipt reply] = 0 := rfl
  constructor
  · unfold account owed
    dsimp only
    rw [history_record, settled_append]
    change _ + _ + r.heldReceipts + (r.unsentFails.map Prod.fst : List Nat) + _ + _ = _
    split
    · rename_i yes
      have one : settledReceipts [Happening.failed receipt reply] = {receipt} := by
        simp [settledReceipts, Happening.settles, names_settled yes]
      rw [one, ← Multiset.singleton_add]
      abel
    · rename_i no
      have none : settledReceipts [Happening.failed receipt reply] = 0 := by
        simp [settledReceipts, Happening.settles, names_unsettled no]
      rw [none, ← Multiset.singleton_add]
      abel
  · dsimp only
    rw [history_record, received_append, received]

theorem moved_later (r : UnitReader) (fail : Nat × String) {reply : Reply}
    (retryable : settled reply = .ok .later) :
    Moved 0 0 (fail.1 ::ₘ hand, r)
      (hand, { r.record (.failed fail.1 reply) with unsentFails := r.unsentFails ++ [fail] }) := by
  have same : UnitReader.history { r.record (.failed fail.1 reply) with
      unsentFails := r.unsentFails ++ [fail] } = r.history ++ [.failed fail.1 reply] :=
    history_record r _
  have mute : ∀ happening ∈ [Happening.failed fail.1 reply], happening.mute := by
    have no : settledReceipt fail.1 reply = none := names_unsettled (by simp [retryable])
    simp [Happening.mute, Happening.settles, Happening.receives, no]
  constructor
  · unfold account owed
    dsimp only
    rw [same, settled_append, settled_mute mute, List.map_append, ← Multiset.coe_add]
    change _ + _ + r.heldReceipts + (_ + ({fail.1} : Multiset Nat)) + _ + _ = _
    rw [← Multiset.singleton_add]
    abel
  · dsimp only
    rw [same, received_append, received_mute mute]

/-- What a deed does to the account. -/
theorem moved_deed (deed : Deed lossy stops before after) (sound : Sound before.2) :
    ∃ gained lost, Moved gained lost before after ∧
      (lossy = false → stops = false → lost = 0) := by
  cases deed with
  | @act hand r next act =>
    obtain ⟨owed, received⟩ := level_act act
    refine ⟨0, 0, ⟨?_, by rw [received, add_zero]⟩, fun _ _ => rfl⟩
    simp [account, owed]
  | release hand r delivery may =>
    cases found : r.deliveries[delivery]? with
    | none =>
      rw [release, found]
      exact ⟨0, 0, ⟨rfl, by rw [add_zero]⟩, fun _ _ => rfl⟩
    | some held =>
      obtain ⟨released, same⟩ := owed_release found
      refine ⟨0, {held.receipt}, ⟨?_, by rw [same, add_zero]⟩, fun _ never => ?_⟩
      · simp only [account, ← released]
        abel
      · rw [never] at may
        cases may
  | receive hand r receipts =>
    refine ⟨receipts, 0, ⟨?_, ?_⟩, fun _ _ => rfl⟩
    · have settled : settledReceipts [Happening.received receipts] = 0 := rfl
      unfold account owed
      dsimp only
      rw [history_record, settled_append, settled]
      change _ + _ + r.heldReceipts + (r.unsentFails.map Prod.fst : List Nat) + _ + _ = _
      abel
    · dsimp only
      rw [history_record, received_append]
      simp [receivedReceipts, Happening.receives]
  | hold hand r delivery cursors =>
    exact ⟨0, 0, moved_hold sound delivery cursors, fun _ _ => rfl⟩
  | @failed hand r receipt reply taken =>
    refine ⟨0, _, moved_failed r receipt reply, fun never _ => ?_⟩
    rcases taken with yes | ⟨may, -⟩
    · rw [if_pos yes]
    · rw [never] at may
      cases may
  | @later hand r fail reply retryable => exact ⟨0, 0, moved_later r fail retryable, fun _ _ => rfl⟩
  | resend hand r =>
    refine ⟨0, 0, ⟨?_, by rw [add_zero]; rfl⟩, fun _ _ => rfl⟩
    change settledReceipts r.history + r.heldReceipts + (([] : List Nat) : Multiset Nat) + _ + _ =
      settledReceipts r.history + r.heldReceipts + _ + _ + _
    dsimp only
    rw [Multiset.coe_nil]
    abel
  | @lose hand r lost may =>
    refine ⟨0, lost, ⟨?_, by rw [add_zero]⟩, fun never _ => ?_⟩
    · simp only [account]
      abel
    · rw [never] at may
      cases may

theorem moved_deeds (deeds : Deeds lossy stops before after) (sound : Sound before.2) :
    ∃ gained lost, Moved gained lost before after ∧
      (lossy = false → stops = false → lost = 0) := by
  induction deeds with
  | refl => exact ⟨0, 0, ⟨rfl, by rw [add_zero]⟩, fun _ _ => rfl⟩
  | tail earlier deed ih =>
    obtain ⟨first, lost, moved, none⟩ := ih
    obtain ⟨second, missing, moves, nothing⟩ := moved_deed deed (sound_deeds earlier sound)
    refine ⟨first + second, lost + missing, moved.trans moves, fun lossless goes => ?_⟩
    rw [none lossless goes, nothing lossless goes, add_zero]

/-- Every receipt received is accounted for. -/
theorem balanced_deeds (deeds : Deeds false false (0, r) (0, next)) (sound : Sound r)
    (balanced : r.owed = receivedReceipts r.history) :
    next.owed = receivedReceipts next.history := by
  obtain ⟨gained, lost, moved, none⟩ := moved_deeds deeds sound
  have account := moved.account
  have received := moved.received
  simp only [UnitReader.account, none rfl rfl, add_zero] at account received
  rw [account, received, balanced]

/-- Only receipts received are accounted for. -/
theorem covered_deeds (deeds : Deeds lossy stops before after) (sound : Sound before.2)
    (covered : account before ≤ receivedReceipts before.2.history) :
    account after ≤ receivedReceipts after.2.history := by
  obtain ⟨gained, lost, moved, -⟩ := moved_deeds deeds sound
  calc account after ≤ account after + lost := Multiset.le_add_right _ _
    _ = account before + gained := moved.account
    _ ≤ receivedReceipts before.2.history + gained := by gcongr
    _ = receivedReceipts after.2.history := moved.received.symm

end UnitReader

end Spate.S3
