import Spate.UnitReaderExits

set_option autoImplicit false

/- The calls a unit reader makes to its feed: none names a receipt that is settled, and the
fail of a unit no lane read is sent at every poll until the feed takes it. -/
namespace Spate.S3

open Spate.Feed
open Spate.TreeMaps
open Std (TreeMap)

namespace UnitReader

/-! ## What an act adds to the history -/

/-- No call to the feed that names a receipt is added. -/
def Unnamed (r next : UnitReader) : Prop :=
  ∃ extra, next.history = r.history ++ extra ∧ ∀ happening ∈ extra, happening.names = none

section

variable {r middle next : UnitReader}

theorem unnamed_same (log : next.log = r.log) : Unnamed r next :=
  ⟨[], by rw [history, history, log, List.append_nil], by simp⟩

theorem unnamed_record (r : UnitReader) {happening : Happening} (silent : happening.names = none) :
    Unnamed r (r.record happening) :=
  ⟨[happening], history_record r happening, by simpa using silent⟩

theorem Unnamed.trans (first : Unnamed r middle) (second : Unnamed middle next) :
    Unnamed r next := by
  obtain ⟨extra, grown, silent⟩ := first
  obtain ⟨more, grows, quiet⟩ := second
  refine ⟨extra ++ more, by rw [grows, grown, List.append_assoc], fun happening member => ?_⟩
  rcases List.mem_append.mp member with member | member
  · exact silent happening member
  · exact quiet happening member

theorem names_of_neutral {happening : Happening} (neutral : happening.neutral = true) :
    happening.names = none := by
  cases happening <;> first | rfl | cases neutral

theorem unnamed_laneEvent (r : UnitReader) (event : LaneEvent) : Unnamed r (r.laneEvent event) := by
  cases event with
  | report | terminal =>
    rw [laneEvent]
    split
    · exact (unnamed_same (by rfl)).trans (unnamed_record _ rfl)
    · exact unnamed_same rfl

theorem unnamed_readReport (r : UnitReader) (partition : PartitionId) (report : PoisonReport) :
    Unnamed r (r.readReport partition report) := by
  unfold readReport onOverwrite
  split
  · split
    · exact unnamed_same rfl
    · split
      · exact unnamed_same rfl
      · split
        · exact unnamed_same rfl
        · rename_i lane _ _ held _ _
          have dropped : ∀ cursors (f : HeldUnit → HeldUnit),
              Unnamed r ((r.record (.dropped lane.delivery cursors)).setHeld lane.delivery f) :=
            fun cursors f => (unnamed_record r rfl).trans (unnamed_same rfl)
          unfold overwriteHeld
          dsimp only
          split
          · exact dropped _ _
          · exact (dropped _ _).trans (unnamed_record _ rfl)
  · split
    · exact unnamed_same rfl
    · exact unnamed_same rfl

theorem release_history (r : UnitReader) (delivery : Nat) :
    (r.release delivery).history = r.history := by
  unfold release
  split <;> rfl

theorem act_names (act : Act r next) : Unnamed r next ∨
    ∃ (happening : Happening) (delivery : Nat) (held : HeldUnit),
      r.deliveries[delivery]? = some held ∧ happening.names = some held.receipt ∧
        next.history = r.history ++ [happening] := by
  cases act with
  | lane event => exact .inl (unnamed_laneEvent r event)
  | @report partition report rest =>
    have popped : Unnamed r { r with channel := rest } := unnamed_same rfl
    exact .inl (popped.trans (unnamed_readReport _ partition report))
  | @confirmed delivery held key =>
    have told : Unnamed r (r.record (.confirmed delivery key none)) := unnamed_record r rfl
    exact .inl (told.trans (unnamed_same rfl))
  | @refused delivery held key confirmation _ _ error =>
    have told : Unnamed r (r.record (.confirmed delivery key (some error))) := unnamed_record r rfl
    exact .inl (told.trans (unnamed_same rfl))
  | retire found =>
    unfold retire
    rw [found]
    exact .inl (unnamed_same rfl)
  | request found _ names => exact .inr ⟨_, _, _, found, names, history_record _ _⟩
  | settle found _ names =>
    refine .inr ⟨_, _, _, found, names, ?_⟩
    rw [release_history]
    exact history_record _ _
  | openPart room found =>
    unfold openPart
    rw [expectHeld_found found]
    exact .inl ((unnamed_same (by rfl)).trans (unnamed_record _ (by rfl)))
  | committed => exact .inl ((unnamed_same (by rfl)).trans (unnamed_record _ (by rfl)))
  | hint | left => exact .inl (unnamed_same rfl)
  | neutral same history silent =>
    exact .inl ⟨_, history, fun happening member => names_of_neutral (silent happening member)⟩

end

/-! ## A settled receipt is named no more -/

/-- Each call names a receipt received more often than it was settled before. -/
def Open (history : List Happening) : Prop :=
  ∀ before happening after receipt, history = before ++ happening :: after →
    happening.names = some receipt →
    (settledReceipts before).count receipt < (receivedReceipts before).count receipt

section

variable {past : List Happening} {happening : Happening}

theorem Open.append (unsettled : Open past)
    (names : ∀ receipt, happening.names = some receipt →
      (settledReceipts past).count receipt < (receivedReceipts past).count receipt) :
    Open (past ++ [happening]) := by
  intro before named after receipt split is
  rcases Lists.split_last split with ⟨rfl, rfl, rfl⟩ | ⟨rest, rfl, whole⟩
  · exact names receipt is
  · exact unsettled before named rest receipt whole is

theorem Open.appendAll (unsettled : Open past) {extra : List Happening}
    (silent : ∀ happening ∈ extra, happening.names = none) : Open (past ++ extra) := by
  induction extra using List.reverseRecOn with
  | nil => rwa [List.append_nil]
  | append_singleton extra last ih =>
    rw [← List.append_assoc]
    refine (ih fun happening member => silent happening (List.mem_append_left _ member)).append ?_
    intro receipt names
    rw [silent last (by simp)] at names
    cases names

/-- A receipt still accounted for besides those settled was received more often. -/
theorem unsettled_of_covered {desk : Multiset Nat × UnitReader} {receipt : Nat}
    (covered : account desk ≤ receivedReceipts desk.2.history)
    (kept : receipt ∈ desk.2.heldReceipts + desk.1) :
    (settledReceipts desk.2.history).count receipt <
      (receivedReceipts desk.2.history).count receipt := by
  have counts := Multiset.count_le_of_le receipt covered
  have some := Multiset.count_pos.mpr kept
  simp only [account, owed, Multiset.count_add] at counts some
  omega

theorem held_receipt {r : UnitReader} {delivery : Nat} {held : HeldUnit}
    (found : r.deliveries[delivery]? = some held) : held.receipt ∈ r.heldReceipts := by
  rw [heldReceipts_erase found]
  exact Multiset.mem_cons_self _ _

theorem open_deed {lossy stops : Bool} {before after : Multiset Nat × UnitReader}
    (deed : Deed lossy stops before after)
    (covered : account before ≤ receivedReceipts before.2.history)
    (unsettled : Open before.2.history) : Open after.2.history := by
  cases deed with
  | @act hand r next act =>
    rcases act_names act with ⟨extra, grown, silent⟩ |
      ⟨happening, delivery, held, found, names, grown⟩
    · dsimp only
      rw [grown]
      exact unsettled.appendAll silent
    · dsimp only
      rw [grown]
      refine unsettled.append fun receipt is => ?_
      obtain rfl := Option.some.inj (names.symm.trans is)
      exact unsettled_of_covered covered (Multiset.mem_add.mpr (.inl (held_receipt found)))
  | release hand r delivery =>
    dsimp only
    rw [release_history]
    exact unsettled
  | receive hand r receipts =>
    dsimp only
    rw [history_record]
    exact unsettled.append (by simp [Happening.names])
  | hold hand r delivery cursors =>
    exact (history_record _ _ : (r.hold delivery cursors).history = _) ▸
      unsettled.append (by simp [Happening.names])
  | @failed hand r receipt reply =>
    dsimp only
    rw [history_record]
    refine unsettled.append fun named is => ?_
    obtain rfl := Option.some.inj is
    exact unsettled_of_covered covered (Multiset.mem_add.mpr (.inr (Multiset.mem_cons_self _ _)))
  | @later hand r fail reply =>
    change Open (r.record (.failed fail.1 reply)).history
    rw [history_record]
    refine unsettled.append fun named is => ?_
    obtain rfl := Option.some.inj is
    exact unsettled_of_covered covered (Multiset.mem_add.mpr (.inr (Multiset.mem_cons_self _ _)))
  | resend | lose => exact unsettled

theorem open_deeds {lossy stops : Bool} {before after : Multiset Nat × UnitReader}
    (deeds : Deeds lossy stops before after) (sound : Sound before.2)
    (covered : account before ≤ receivedReceipts before.2.history)
    (unsettled : Open before.2.history) : Open after.2.history := by
  induction deeds with
  | refl => exact unsettled
  | tail earlier deed ih => exact open_deed deed (covered_deeds earlier sound covered) ih

/-- A receipt received once is not named after it is settled. -/
theorem Open.once (unsettled : Open past) {before between after : List Happening}
    {settling naming : Happening} {receipt : Nat}
    (received : (receivedReceipts past).count receipt ≤ 1)
    (split : past = before ++ settling :: between ++ naming :: after)
    (settles : settling.settles = some receipt) : naming.names ≠ some receipt := by
  intro names
  have later := unsettled _ naming after receipt split names
  have settled : 1 ≤ (settledReceipts (before ++ settling :: between)).count receipt := by
    refine Multiset.count_pos.mpr ?_
    rw [settledReceipts, Multiset.mem_coe, List.mem_filterMap]
    exact ⟨settling, by simp, settles⟩
  have counted : (receivedReceipts (before ++ settling :: between)).count receipt ≤
      (receivedReceipts past).count receipt := by
    rw [split, received_append _ (naming :: after), Multiset.count_add]
    exact Nat.le_add_right _ _
  omega

end

/-! ## A fail not taken is sent again -/

/-- The last fail of `receipt` was to be sent again, and a fail sent before it in the same
pass was answered with an error, which ended the pass. -/
def CutOff (history : List Happening) (receipt : Nat) : Prop :=
  ∃ before sent other reply error after,
    history = before ++ .failsTaken :: sent ++ .failed other reply :: after ∧
    (∃ answer, .failed receipt answer ∈ before) ∧
    (∀ happening ∈ sent, ∃ named answer, happening = .failed named answer) ∧
    settled reply = .error error ∧
    ∀ answer, .failed receipt answer ∉ sent ++ .failed other reply :: after

/-- The unit was held, or its fail was answered for good, cut off, or waits to be sent. -/
def Accounted (r : UnitReader) (receipt : Nat) : Prop :=
  (∃ delivery cursors, .held delivery receipt cursors ∈ r.history) ∨
  (∃ other, .failed receipt other ∈ r.history ∧ settled other ≠ .ok .later) ∨
  CutOff r.history receipt ∨ receipt ∈ r.unsentFails.map Prod.fst

def Waits (r : UnitReader) : Prop :=
  ∀ receipt reply, .failed receipt reply ∈ r.history → Accounted r receipt

section

variable {r next : UnitReader} {receipt : Nat} {extra : List Happening}

theorem CutOff.append {history : List Happening} (cut : CutOff history receipt)
    (fresh : ∀ answer, .failed receipt answer ∉ extra) : CutOff (history ++ extra) receipt := by
  obtain ⟨before, sent, other, reply, error, after, rfl, failed, fails, refused, last⟩ := cut
  refine ⟨before, sent, other, reply, error, after ++ extra, ?_, failed, fails, refused, ?_⟩
  · simp only [List.append_assoc, List.cons_append]
  · intro answer member
    rw [← List.cons_append, ← List.append_assoc] at member
    exact (List.mem_append.mp member).elim (last answer) (fresh answer)

theorem Accounted.grow (accounted : Accounted r receipt)
    (history : next.history = r.history ++ extra) (unsent : r.unsentFails ⊆ next.unsentFails)
    (fresh : ∀ answer, .failed receipt answer ∉ extra) : Accounted next receipt := by
  have grown : r.history ⊆ next.history := history ▸ List.subset_append_left _ _
  rcases accounted with ⟨delivery, cursors, held⟩ | ⟨other, failed, answer⟩ | cut | waiting
  · exact .inl ⟨delivery, cursors, grown held⟩
  · exact .inr (.inl ⟨other, grown failed, answer⟩)
  · exact .inr (.inr (.inl (history ▸ cut.append fresh)))
  · exact .inr (.inr (.inr (List.map_subset _ unsent waiting)))

/-- A longer history, in which each new fail is accounted for. -/
theorem Waits.grow (waits : Waits r) (history : next.history = r.history ++ extra)
    (unsent : r.unsentFails ⊆ next.unsentFails)
    (fails : ∀ receipt reply, .failed receipt reply ∈ extra → Accounted next receipt) :
    Waits next := by
  intro receipt reply member
  by_cases fresh : ∀ answer, .failed receipt answer ∉ extra
  · rw [history] at member
    have earlier := (List.mem_append.mp member).resolve_right (fresh reply)
    exact (waits receipt reply earlier).grow history unsent fresh
  · push Not at fresh
    obtain ⟨answer, new⟩ := fresh
    exact fails receipt answer new

theorem waits_act (act : Act r next) (sound : Sound r) (waits : Waits r) : Waits next := by
  have unsent : r.unsentFails ⊆ next.unsentFails := (act_kept act).2 ▸ List.Subset.refl _
  rcases act_names act with ⟨extra, grown, silent⟩ |
    ⟨happening, delivery, held, found, names, grown⟩
  · refine waits.grow grown unsent fun receipt reply member => ?_
    have := silent _ member
    cases this
  · refine waits.grow grown unsent fun receipt reply member => .inl ?_
    rw [← List.mem_singleton.mp member] at names
    obtain ⟨cursors, held, -⟩ := (sound.held delivery held found).parts
    rw [grown, Option.some.inj names]
    exact ⟨delivery, cursors, List.mem_append_left _ held⟩

theorem waits_release (waits : Waits r) (delivery : Nat) : Waits (r.release delivery) := by
  have unsent : (r.release delivery).unsentFails = r.unsentFails := by
    unfold release
    split <;> rfl
  refine waits.grow ((release_history r delivery).trans (List.append_nil _).symm) ?_ (by simp)
  exact unsent ▸ List.Subset.refl _

variable (env : Environment)

theorem failUnread_history (fail : Nat × String) (r : UnitReader) :
    (failUnread env fail r).1.history = r.history ++ [.failed fail.1 (env.reply r.time)] := by
  unfold failUnread
  dsimp only
  split <;> exact history_record r.tick _

theorem failUnread_unsent (fail : Nat × String) (r : UnitReader) :
    r.unsentFails ⊆ (failUnread env fail r).1.unsentFails := by
  unfold failUnread
  dsimp only
  split
  · exact List.Subset.refl _
  · exact List.subset_append_left _ _
  · exact List.Subset.refl _

theorem accounted_failUnread (fail : Nat × String) (r : UnitReader) :
    Accounted (failUnread env fail r).1 fail.1 := by
  have told : .failed fail.1 (env.reply r.time) ∈ (failUnread env fail r).1.history := by
    rw [failUnread_history]
    exact List.mem_append_right _ List.mem_cons_self
  cases answer : settled (env.reply r.time) with
  | error error => exact .inr (.inl ⟨_, told, by simp [answer]⟩)
  | ok result =>
    cases result with
    | yes => exact .inr (.inl ⟨_, told, by simp [answer]⟩)
    | later =>
      refine .inr (.inr (.inr ?_))
      simp [failUnread, answer]

theorem waits_take (delivery : Delivery) (waits : Waits r) : Waits (take env delivery r).1 := by
  have held (cursors : List Cursor) : Waits (r.hold delivery cursors) :=
    waits.grow (history_record _ (.held _ _ cursors)) (List.Subset.refl _) (by simp)
  unfold take
  split
  · exact held _
  · exact held _
  · refine waits.grow (failUnread_history env _ r) (failUnread_unsent env _ r) ?_
    intro receipt reply member
    obtain ⟨rfl, -⟩ := Happening.failed.inj (List.mem_singleton.mp member)
    exact accounted_failUnread env _ r

theorem waits_takes (deliveries : List Delivery) : ∀ {r : UnitReader}, Waits r →
    Waits (forEach (take env) deliveries r).1 := by
  induction deliveries with
  | nil => exact id
  | cons delivery rest ih =>
    intro r waits
    have first := waits_take env delivery waits
    rw [forEach]
    split <;> rename_i result <;> rw [result] at first
    · exact ih first
    · exact first

theorem waits_receive (waits : Waits r) (room : Nat) : Waits (r.receive env room).1 := by
  have told (happening : Happening) (silent : ∀ receipt reply, happening ≠ .failed receipt reply) :
      Waits (r.tick.record happening) :=
    waits.grow (history_record _ _) (List.Subset.refl _) fun receipt reply member =>
      absurd (List.mem_singleton.mp member).symm (silent receipt reply)
  unfold receive
  split
  · dsimp only
    split <;> exact told _ nofun
  · rename_i deliveries _
    have all := waits_takes env (deliveries.take room)
      (told (.received ((deliveries.take room).map Delivery.receipt)) nofun)
    dsimp only
    split <;> rename_i result <;> rw [result] at all <;> exact all

theorem failUnread_error {fail : Nat × String} {r : UnitReader} {error : SourceError}
    (failed : (failUnread env fail r).2 = some error) :
    settled (env.reply r.time) = .error error := by
  unfold failUnread at failed
  dsimp only at failed
  split at failed <;> cases failed
  assumption

/-- The pass over the `fails` left, after those `sent`: what waits for its turn is sent, or cut
off by an error. -/
theorem waits_resending {before : List Happening} (fails : List (Nat × String)) :
    ∀ {sent : List Happening} {r : UnitReader}, r.history = before ++ .failsTaken :: sent →
    (∀ happening ∈ sent, ∃ named answer, happening = .failed named answer) →
    (∀ receipt reply, .failed receipt reply ∈ r.history → Accounted r receipt ∨
      receipt ∈ fails.map Prod.fst ∧ (∃ answer, .failed receipt answer ∈ before) ∧
        ∀ answer, .failed receipt answer ∉ sent) →
    Waits (forEach (failUnread env) fails r).1 := by
  induction fails with
  | nil =>
    intro sent r _ _ known receipt reply member
    exact (known receipt reply member).resolve_right fun ⟨waiting, _⟩ => List.not_mem_nil waiting
  | cons fail rest ih =>
    intro sent r history fails known
    have told := failUnread_history env fail r
    have unsent := failUnread_unsent env fail r
    have own := accounted_failUnread env fail r
    -- every other fail is accounted for as before, or waits behind this one
    have others : ∀ receipt reply, .failed receipt reply ∈ (failUnread env fail r).1.history →
        Accounted (failUnread env fail r).1 receipt ∨
        receipt ∈ rest.map Prod.fst ∧ (∃ answer, .failed receipt answer ∈ before) ∧
          ∀ answer, .failed receipt answer ∉ sent ++ [.failed fail.1 (env.reply r.time)] := by
      intro receipt reply member
      by_cases same : receipt = fail.1
      · exact .inl (same ▸ own)
      · have fresh :
            ∀ answer, .failed receipt answer ∉ [Happening.failed fail.1 (env.reply r.time)] := by
          simp [same]
        rw [told] at member
        rcases known receipt reply ((List.mem_append.mp member).resolve_right (fresh reply)) with
          accounted | ⟨waiting, failed, unsent⟩
        · exact .inl (accounted.grow told unsent fresh)
        · refine .inr ⟨(List.mem_cons.mp waiting).resolve_left same, failed,
            fun answer member => ?_⟩
          exact (List.mem_append.mp member).elim (unsent answer) (fresh answer)
    have grown : (failUnread env fail r).1.history =
        before ++ .failsTaken :: (sent ++ [.failed fail.1 (env.reply r.time)]) := by
      rw [told, history, List.append_assoc, List.cons_append]
    have refused := @failUnread_error env fail r
    rw [forEach]
    split <;> rename_i result <;> rw [result] at others grown refused
    · refine ih grown (fun happening member => ?_) others
      rcases List.mem_append.mp member with member | member
      · exact fails happening member
      · exact ⟨_, _, List.mem_singleton.mp member⟩
    · rename_i error
      intro receipt reply member
      rcases others receipt reply member with accounted | ⟨-, failed, unsent⟩
      · exact accounted
      · refine .inr (.inr (.inl ⟨before, sent, fail.1, _, error, [], ?_, failed, fails,
          refused rfl, unsent⟩))
        rw [grown, List.append_assoc, List.cons_append]

theorem resendFails_eq (some : r.unsentFails ≠ []) : ∃ taken : UnitReader,
    taken.history = r.history ++ [.failsTaken] ∧
      r.resendFails env = forEach (failUnread env) r.unsentFails taken := by
  unfold resendFails
  dsimp only
  rw [if_neg (by simpa using some)]
  exact ⟨{ r.record .failsTaken with unsentFails := [] }, history_record r .failsTaken, rfl⟩

theorem waits_resend (waits : Waits r) : Waits (r.resendFails env).1 := by
  by_cases empty : r.unsentFails = []
  · unfold resendFails
    rw [empty]
    refine waits.grow (List.append_nil _).symm ?_ (by simp)
    rw [empty]
    exact List.nil_subset _
  · obtain ⟨taken, told, is⟩ := resendFails_eq env empty
    rw [is]
    refine waits_resending env r.unsentFails told (by simp) fun receipt reply member => ?_
    rw [told] at member
    have earlier : .failed receipt reply ∈ r.history := by simpa using member
    rcases waits receipt reply earlier with ⟨delivery, cursors, held⟩ | ⟨other, failed, answer⟩ |
      cut | waiting
    · exact .inl (.inl ⟨delivery, cursors, told ▸ List.mem_append_left _ held⟩)
    · exact .inl (.inr (.inl ⟨other, told ▸ List.mem_append_left _ failed, answer⟩))
    · exact .inl (.inr (.inr (.inl (told ▸ cut.append (by simp)))))
    · exact .inr ⟨waiting, ⟨reply, earlier⟩, by simp⟩

variable {env} {lossy stops : Bool}

theorem waits_courses (courses : Courses env lossy stops r next) (sound : Sound r)
    (waits : Waits r) : Waits next := by
  induction courses with
  | refl => exact waits
  | tail earlier course ih =>
    cases course with
    | act act => exact waits_act act (sound_courses earlier sound) ih
    | release delivery => exact waits_release ih delivery
    | receive room => exact waits_receive env ih room
    | resend => exact waits_resend env ih

end

section

variable {lossy stops : Bool} {before after : Multiset Nat × UnitReader}

theorem deeds_history (deeds : Deeds lossy stops before after) :
    before.2.history <+: after.2.history := by
  induction deeds with
  | refl => exact List.prefix_rfl
  | tail _ deed ih =>
    refine ih.trans ?_
    cases deed with
    | act act =>
      rcases act_names act with ⟨extra, grown, -⟩ | ⟨_, _, _, _, _, grown⟩
      · exact ⟨extra, grown.symm⟩
      · exact ⟨_, grown.symm⟩
    | release hand r delivery =>
      dsimp only
      rw [release_history]
    | receive | failed => exact ⟨_, (history_record _ _).symm⟩
    | hold hand r delivery cursors =>
      have grown : (r.hold delivery cursors).history =
          r.history ++ [.held r.nextDelivery delivery.receipt cursors] := history_record _ _
      exact ⟨_, grown.symm⟩
    | @later hand r fail reply => exact ⟨_, (history_record r (.failed fail.1 reply)).symm⟩
    | resend | lose => exact List.prefix_rfl

end

/-- From `r` to `next` each of the receipts' fails is sent. -/
def Sends (receipts : List Nat) (r next : UnitReader) : Prop :=
  ∃ extra, next.history = r.history ++ extra ∧
    ∀ receipt ∈ receipts, ∃ reply, .failed receipt reply ∈ extra

section

variable (env : Environment) {receipts : List Nat} {r middle next : UnitReader}

theorem Sends.between {first last : UnitReader} (sends : Sends receipts r next)
    (before : first.history <+: r.history) (after : next.history <+: last.history) :
    Sends receipts first last := by
  obtain ⟨extra, grown, sent⟩ := sends
  obtain ⟨earlier, before⟩ := before
  obtain ⟨later, after⟩ := after
  refine ⟨earlier ++ extra ++ later, ?_, fun receipt member => ?_⟩
  · rw [← after, grown, ← before]
    simp only [List.append_assoc]
  · obtain ⟨reply, failed⟩ := sent receipt member
    exact ⟨reply, by simp [failed]⟩

theorem sends_failEach (fails : List (Nat × String)) : ∀ {r : UnitReader},
    (forEach (failUnread env) fails r).2 = none →
    Sends (fails.map Prod.fst) r (forEach (failUnread env) fails r).1 := by
  induction fails with
  | nil => exact fun _ => ⟨[], (List.append_nil _).symm, by simp⟩
  | cons fail rest ih =>
    intro r fine
    have first := failUnread_history env fail r
    rw [forEach] at fine ⊢
    split <;> rename_i result <;> rw [result] at first fine
    · obtain ⟨extra, grown, sent⟩ := ih fine
      refine ⟨.failed fail.1 (env.reply r.time) :: extra, ?_, ?_⟩
      · rw [grown, first, List.append_assoc]
        rfl
      · rw [List.map_cons, List.forall_mem_cons]
        refine ⟨⟨_, List.mem_cons_self⟩, fun receipt member => ?_⟩
        obtain ⟨reply, failed⟩ := sent receipt member
        exact ⟨reply, List.mem_cons_of_mem _ failed⟩
    · cases fine

theorem sends_resendFails (fine : (r.resendFails env).2 = none) :
    Sends (r.unsentFails.map Prod.fst) r (r.resendFails env).1 := by
  by_cases empty : r.unsentFails = []
  · unfold resendFails
    rw [empty]
    exact ⟨[], (List.append_nil _).symm, by simp⟩
  · obtain ⟨taken, told, is⟩ := resendFails_eq env empty
    rw [is] at fine ⊢
    exact (sends_failEach env r.unsentFails fine).between ⟨_, told.symm⟩ List.prefix_rfl

theorem andThen_none {first : UnitReader × Option SourceError}
    {after : UnitReader → UnitReader × Option SourceError} (fine : (andThen first after).2 = none) :
    first.2 = none ∧ andThen first after = after first.1 := by
  obtain ⟨middle, error⟩ := first
  cases error with
  | none => exact ⟨rfl, rfl⟩
  | some error => cases fine

theorem acts_unsent (acts : Acts r next) : next.unsentFails = r.unsentFails := by
  induction acts with
  | refl => rfl
  | tail _ act ih => exact (act_kept act).2.trans ih

theorem acts_history (acts : Acts r next) : r.history <+: next.history := by
  have deeds : Deeds false false (0, r) (0, next) := acts.deeds
  exact deeds_history deeds

theorem sends_settle (sound : Sound r) (fine : (r.settle env).2 = none) :
    Sends (r.unsentFails.map Prod.fst) r (r.settle env).1 := by
  unfold settle at fine ⊢
  split at fine
  · cases fine
  · rename_i unfailed
    dsimp only
    -- the steps before the fails are sent again
    have checked := (acts_readReports env r).trans (acts_checkReEnqueues env _)
    obtain ⟨-, is⟩ := andThen_none fine
    rw [is] at fine ⊢
    generalize ((r.readReports env).checkReEnqueues env).1 = s at checked fine ⊢
    have failed := checked.trans (acts_failEach env s fun held => held.failing.isSome)
    obtain ⟨-, is⟩ := andThen_none fine
    rw [is] at fine ⊢
    generalize (forEach (failHeld env) (s.deliveriesWhere fun held => held.failing.isSome) s).1 = t
      at failed fine ⊢
    obtain ⟨ok, is⟩ := andThen_none fine
    rw [is] at fine ⊢
    have sends := sends_resendFails env ok
    rw [acts_unsent failed] at sends
    have resent : Courses env true true t (t.resendFails env).1 := .single (.resend t (.inr rfl))
    have after := sound_courses resent (sound_acts failed sound)
    generalize (t.resendFails env).1 = u at sends after fine ⊢
    -- and those after
    have swept := acts_sweep env after
    obtain ⟨-, is⟩ := andThen_none fine
    rw [is]
    exact sends.between (acts_history failed) (acts_history (swept.trans (acts_renewEach env _)))

/-- A poll that reports no error sends every fail the feed has not taken. -/
theorem sends_pollEvents (sound : Sound r) (started : r.started = true) {event : SourceEvent}
    (ok : (r.pollEvents env).2 = .ok event) :
    Sends (r.unsentFails.map Prod.fst) r (r.pollEvents env).1 := by
  have sends := @sends_settle env r sound
  unfold pollEvents at ok ⊢
  simp only [started, Bool.not_true, Bool.false_eq_true, if_false] at ok ⊢
  generalize r.settle env = result at sends ok ⊢
  obtain ⟨next, error⟩ := result
  cases error with
  | some error => cases ok
  | none =>
    have polled : Deeds true true (0, next) (0, (next.pollExits env).1) :=
      (done_pollExits env next (.inr rfl)).deeds
    exact (sends rfl).between List.prefix_rfl (deeds_history polled)

/-- So does a stop that hands units back. -/
theorem sends_stopReading (sound : Sound r) (hands : r.handsBack = true)
    (fine : (r.stopReading env).2 = none) :
    Sends (r.unsentFails.map Prod.fst) r (r.stopReading env).1 := by
  unfold stopReading at fine ⊢
  simp only [hands, Bool.not_true, Bool.false_eq_true, if_false] at fine ⊢
  have checked := (acts_endedThenReports env r).trans (acts_checkReEnqueues env _)
  generalize (r.beginStop.endedThenReports env).2.checkReEnqueues env = checks at checked fine ⊢
  obtain ⟨-, is⟩ := andThen_none fine
  rw [is] at fine ⊢
  have handed := checked.trans (acts_handBackEach env checks.1 fun held =>
    held.failing.isNone && !held.readToItsEnd (r.beginStop.endedThenReports env).1)
  generalize (forEach (handBack env) _ checks.1).1 = s at handed fine ⊢
  dsimp only at fine ⊢
  have settled : (s.settle env).2 = none := by
    cases first : checks.2 with
    | some error => simp [first] at fine
    | none => simpa [first] using fine
  have sends := sends_settle env (sound_acts handed sound) settled
  rw [acts_unsent handed] at sends
  have released (deliveries : List Nat) (r : UnitReader) :
      Deeds true true (0, r) (0, deliveries.foldl release r) := (courses_releases env _ r).deeds
  exact sends.between (acts_history handed) (deeds_history (released _ _))

end

/-! ## The books of a whole run -/

theorem exits_start (unitsHeld cap : Nat) (handsBack : Bool) (ending : Option JobEnd) :
    Exits [] []
      { unitsHeld := unitsHeld, reEnqueueCap := cap, handsBack := handsBack,
        ending := ending } where
  distinct := List.nodup_nil
  left := by simp
  own := by simp
  committed := by simp
  unopened := fun _ _ => rfl
  clean := by simp

theorem sends_waiting (env : Environment) {r : UnitReader} (sound : Sound r) (waits : Waits r)
    {receipt : Nat} {reply : Reply} (failed : .failed receipt reply ∈ r.history)
    (unread : ∀ delivery cursors, .held delivery receipt cursors ∉ r.history)
    (retryable : ∀ other, .failed receipt other ∈ r.history → settled other = .ok .later)
    (uncut : ¬CutOff r.history receipt) : receipt ∈ r.unsentFails.map Prod.fst ∧
      (r.started = true → ∀ event, (r.pollEvents env).2 = .ok event →
        Sends [receipt] r (r.pollEvents env).1) ∧
      (r.handsBack = true → (r.stopReading env).2 = none →
        Sends [receipt] r (r.stopReading env).1) := by
  have waiting : receipt ∈ r.unsentFails.map Prod.fst := by
    rcases waits receipt reply failed with ⟨delivery, cursors, held⟩ | ⟨other, member, answer⟩ |
      cut | unsent
    · exact absurd held (unread delivery cursors)
    · exact absurd (retryable other member) answer
    · exact absurd cut uncut
    · exact unsent
  have one {next : UnitReader} : Sends (r.unsentFails.map Prod.fst) r next →
      Sends [receipt] r next := by
    rintro ⟨extra, grown, sent⟩
    exact ⟨extra, grown, fun named member => List.mem_singleton.mp member ▸ sent receipt waiting⟩
  exact ⟨waiting, fun started event ok => one (sends_pollEvents env sound started ok),
    fun hands fine => one (sends_stopReading env sound hands fine)⟩

/-- The reader's books in any run: lanes and deliveries name each other, nothing panics before
a sequence runs out, each lane leaves at most once and retires only at a committed end, each
barrier has the size of its lanes, no call names a receipt as often settled as received, and a
fail answered retryably is sent again at every poll and at a stop, unless an error cut it
off. -/
theorem bookkeeping (unitsHeld cap : Nat) (handsBack : Bool) (ending : Option JobEnd)
    (env : Environment) (calls : List Call) :
    let start : UnitReader :=
      { unitsHeld := unitsHeld, reEnqueueCap := cap, handsBack := handsBack, ending := ending }
    let r := calls.foldl (call env) start
    (∀ (partition : PartitionId) (delivery : Nat),
      (∃ lane, r.lanes[partition]? = some lane ∧ lane.delivery = delivery) ↔
        ∃ held, r.deliveries[delivery]? = some held ∧ partition ∈ held.lanes) ∧
    (r.nextLane < UInt32.size → r.nextDelivery < UInt32.size → r.missing = false) ∧
    ((events env calls start).flatMap SourceEvent.exits).Nodup ∧
    (∀ lanes, .lanesRetired lanes ∈ events env calls start → ∀ partition ∈ lanes,
      r.Clean partition) ∧
    (∀ lanes barrier, .lanesRevoked lanes barrier ∈ events env calls start →
      barrier = lanes.length) ∧
    (∀ before happening after receipt, r.history = before ++ happening :: after →
      happening.names = some receipt →
      (settledReceipts before).count receipt < (receivedReceipts before).count receipt) ∧
    (∀ before settling between naming after receipt,
      r.history = before ++ settling :: between ++ naming :: after →
      settling.settles = some receipt → (receivedReceipts r.history).count receipt ≤ 1 →
      naming.names ≠ some receipt) ∧
    ∀ receipt reply, .failed receipt reply ∈ r.history →
      (∀ delivery cursors, .held delivery receipt cursors ∉ r.history) →
      (∀ other, .failed receipt other ∈ r.history → settled other = .ok .later) →
      ¬CutOff r.history receipt → receipt ∈ r.unsentFails.map Prod.fst ∧
        (r.started = true → ∀ event, (r.pollEvents env).2 = .ok event →
          Sends [receipt] r (r.pollEvents env).1) ∧
        (r.handsBack = true → (r.stopReading env).2 = none →
          Sends [receipt] r (r.stopReading env).1) := by
  intro start r
  have begun : Sound start := sound_start unitsHeld cap handsBack ending
  have courses : Courses env true true start r := courses_calls env calls begun
  have deeds : Deeds true true (0, start) (0, r) := courses.deeds
  have sound : Sound r := sound_courses courses begun
  obtain ⟨exits, barriers⟩ :=
    exits_calls env calls begun (exits_start unitsHeld cap handsBack ending)
  rw [List.nil_append, List.nil_append] at exits
  have unsettled : Open r.history := by
    refine open_deeds deeds begun (Multiset.zero_le _)
      fun before happening after receipt empty => ?_
    cases before <;> cases empty
  have waits : Waits r := waits_courses courses begun fun _ _ member => by cases member
  refine ⟨fun partition delivery => ⟨?_, ?_⟩, fun lanes deliveries => ?_, ?_, ?_, barriers,
    unsettled, ?_, ?_⟩
  · rintro ⟨lane, found, rfl⟩
    exact (sound.opening.lane partition lane found).1
  · rintro ⟨held, found, member⟩
    exact sound.opening.held delivery held found partition member
  · by_contra panicked
    rcases (deeds_kept deeds).missing (by simpa using panicked) with earlier | many | many
    · cases earlier
    · exact absurd lanes (Nat.not_lt.mpr many)
    · exact absurd deliveries (Nat.not_lt.mpr many)
  · have distinct := exits.distinct
    refine (List.flatMap_append_perm _ SourceEvent.revoked SourceEvent.retired).nodup_iff.mp ?_
    refine distinct.sublist ?_
    exact (List.sublist_append_left _ _).append (List.sublist_append_left _ _)
  · intro lanes member partition named
    exact exits.clean partition (List.mem_append_left _ (List.mem_flatMap.mpr ⟨_, member, named⟩))
  · intro before settling between naming after receipt split settles received
    exact unsettled.once received split settles
  · intro receipt reply failed unread retryable uncut
    exact sends_waiting env sound waits failed unread retryable uncut

/-- A feed with two units no lane can read, that answers each request as `reply` says. -/
def unreadable (reply : Nat → Reply) : Environment where
  decode := fun _ => .fail "not a unit"
  backend := ""
  lanes := fun _ => []
  reply := reply
  outcome := fun _ => none
  receive := fun time => .ok (if time < 4 then [⟨7, "u", []⟩, ⟨8, "v", []⟩] else [])
  clock := id
  stop := fun _ => false
  marker := fun _ => none
  depth := fun _ => none
  reading := fun _ => none
  steady := fun _ _ => id

/-- A feed that is busy takes neither fail; the next poll sends both again, and so does a
stop. -/
theorem bookkeeping_busy :
    let env := unreadable fun _ => some ⟨.retryable, "busy"⟩
    let r := [.pollEvents, .pollEvents].foldl (call env)
      { unitsHeld := 2, reEnqueueCap := 3, handsBack := true, ending := none }
    r.missing = false ∧ Sends [8] r (r.pollEvents env).1 ∧ Sends [8] r (r.stopReading env).1 := by
  intro env r
  have told : r.history = [.received [7, 8], .failed 7 (some ⟨.retryable, "busy"⟩),
      .failed 8 (some ⟨.retryable, "busy"⟩)] := by
    decide
  obtain ⟨-, sane, -, -, -, -, -, sends⟩ :=
    bookkeeping 2 3 true none env [.pollEvents, .pollEvents]
  have uncut : ¬CutOff r.history 8 := by
    rintro ⟨before, sent, other, reply, error, after, history, -⟩
    have taken : .failsTaken ∈ r.history := by
      rw [history]
      simp
    rw [told] at taken
    revert taken
    decide
  obtain ⟨-, polls, stops⟩ := sends 8 (some ⟨.retryable, "busy"⟩) (by rw [told]; simp)
    (by rw [told]; simp) (by
      rw [told]
      intro other member
      obtain rfl : other = some ⟨.retryable, "busy"⟩ := by simpa using member
      rfl) uncut
  have polled : (r.pollEvents env).2 = .ok .idle := by decide
  have stopped : (r.stopReading env).2 = none := by decide
  have few : r.nextLane < UInt32.size ∧ r.nextDelivery < UInt32.size := by decide
  have begun : r.started = true ∧ r.handsBack = true := by decide
  exact ⟨sane few.1 few.2, polls begun.1 .idle polled, stops begun.2 stopped⟩

/-- The fail of 8 was answered retryably; once the fail of 7 is answered with an error, it
is sent no more. -/
theorem fail_dropped_beside_refused :
    let busy : Reply := some ⟨.retryable, "busy"⟩
    let env := unreadable fun time =>
      if time < 6 then busy else if time = 6 then some ⟨.fatal, "denied"⟩ else none
    let r := [.pollEvents, .pollEvents, .pollEvents].foldl (call env)
      { unitsHeld := 2, reEnqueueCap := 3, handsBack := true, ending := none }
    let calls := fun r : UnitReader => r.history.filter fun happening => happening.names = some 8
    calls r = [.failed 8 busy] ∧ settled busy = .ok .later ∧
      (r.pollEvents env).2 = .ok .idle ∧ calls (r.call env .pollEvents) = [.failed 8 busy] ∧
      calls (r.call env .stopReading) = [.failed 8 busy] ∧ r.unsentFails = [] := by
  decide

end UnitReader

end Spate.S3
