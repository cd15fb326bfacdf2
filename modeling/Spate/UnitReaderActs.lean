import Mathlib.Algebra.BigOperators.Group.Multiset.Basic
import Mathlib.Logic.Relation
import Spate.TreeMaps
import Spate.UnitReader

set_option autoImplicit false

/- Everything a unit reader and its lanes can do to the deliveries and lanes it holds, one
small act at a time. Receipts the reader has received and not yet dealt with are in its
hand. -/
namespace Spate.S3

open Spate.Feed
open Spate.TreeMaps
open Std (TreeMap)

/-- The happening says nothing about a delivery, its lanes or its receipt. -/
def Happening.neutral : Happening → Bool
  | .receiveFailed | .reEnqueued .. | .failsTaken | .left _ | .listerFinished | .asked ..
  | .consumed .. | .checked _ => true
  | _ => false

/-- The receipt a request names. -/
def Happening.names : Happening → Option Nat
  | .acknowledged _ receipt _ | .failed receipt _ | .renewed receipt _ | .handedBack receipt _ =>
    some receipt
  | _ => none

def settledReceipt (receipt : Nat) (reply : Reply) : Option Nat :=
  match settled reply with
  | .ok .yes => some receipt
  | _ => none

/-- The receipt the happening settles for good. -/
def Happening.settles : Happening → Option Nat
  | .acknowledged _ receipt reply | .failed receipt reply => settledReceipt receipt reply
  | .renewed receipt reply =>
    if reply.any fun error => error.kind = .gone then some receipt else none
  | .handedBack receipt reply =>
    if reply.any fun error => error.kind = .refused ∨ error.kind = .fatal then none
    else some receipt
  | _ => none

def Happening.receives : Happening → List Nat
  | .received receipts => receipts
  | _ => []

/-- The request may be made about `delivery`: an acknowledgement only once it is
finished. -/
def Happening.Due (happening : Happening) (delivery : Nat) (held : HeldUnit) : Prop :=
  ∀ named receipt reply, happening = .acknowledged named receipt reply →
    named = delivery ∧ held.finished = true

namespace UnitReader

/-- What happened, without the moments. -/
def history (r : UnitReader) : List Happening := r.log.map Moment.happening

variable {r next : UnitReader} {delivery other : Nat} {held : HeldUnit}

@[simp] theorem history_record (r : UnitReader) (happening : Happening) :
    (r.record happening).history = r.history ++ [happening] := by
  simp [history, record]

/-- All but the requests and the end check. -/
structure Holdings where
  unitsHeld : Nat
  reEnqueueCap : Nat
  nextDelivery : Nat
  nextLane : Nat
  deliveries : TreeMap Nat HeldUnit
  lanes : TreeMap PartitionId LaneState
  revoked : List PartitionId
  retired : List PartitionId
  unsentFails : List (Nat × String)
  missing : Bool
  threads : PartitionId → LaneThread
  channel : List (PartitionId × PoisonReport)

def holdings (r : UnitReader) : Holdings where
  unitsHeld := r.unitsHeld
  reEnqueueCap := r.reEnqueueCap
  nextDelivery := r.nextDelivery
  nextLane := r.nextLane
  deliveries := r.deliveries
  lanes := r.lanes
  revoked := r.revoked
  retired := r.retired
  unsentFails := r.unsentFails
  missing := r.missing
  threads := r.threads
  channel := r.channel

inductive Act : UnitReader → UnitReader → Prop
  | lane (r : UnitReader) (event : LaneEvent) : Act r (r.laneEvent event)
  | report {r : UnitReader} {partition : PartitionId} {report : PoisonReport}
      {rest : List (PartitionId × PoisonReport)} (next : r.channel = (partition, report) :: rest) :
      Act r ({ r with channel := rest }.readReport partition report)
  | confirmed {r : UnitReader} {delivery : Nat} {held : HeldUnit} {key : String}
      {confirmation : Confirmation} (found : r.deliveries[delivery]? = some held)
      (published : held.overwritten[key]? = some (.publishing confirmation))
      (unrefused : ∀ error, confirmation.outcome ≠ some (some error)) :
      Act r ((r.record (.confirmed delivery key none)).setHeld delivery fun held =>
        { held with overwritten := held.overwritten.insert key .done })
  | refused {r : UnitReader} {delivery : Nat} {held : HeldUnit} {key : String}
      {confirmation : Confirmation} (found : r.deliveries[delivery]? = some held)
      (published : held.overwritten[key]? = some (.publishing confirmation)) (error : FeedError)
      (reason : Option String) :
      Act r ((r.record (.confirmed delivery key (some error))).setHeld delivery fun held =>
        { held with
          overwritten := held.overwritten.insert key (.publishing ⟨some (some error)⟩)
          failing := held.failing.or reason })
  /-- A lane leaves at its terminal watermark, committed and with its reports read. -/
  | retire {r : UnitReader} {partition : PartitionId} {lane : LaneState} {watermark : Int}
      (found : r.lanes[partition]? = some lane)
      (terminal : (r.threads partition).terminal = some watermark)
      (committed : watermark = 0 ∨ lane.lastCommitted = some watermark)
      (read : ∀ report, (partition, report) ∉ r.channel) : Act r (r.retire partition)
  /-- A request that leaves the delivery held. -/
  | request {r : UnitReader} {delivery : Nat} {held : HeldUnit} {happening : Happening}
      (found : r.deliveries[delivery]? = some held) (due : happening.Due delivery held)
      (names : happening.names = some held.receipt) (unsettled : happening.settles = none) :
      Act r (r.record happening)
  /-- A request that settles the delivery. -/
  | settle {r : UnitReader} {delivery : Nat} {held : HeldUnit} {happening : Happening}
      (found : r.deliveries[delivery]? = some held) (due : happening.Due delivery held)
      (names : happening.names = some held.receipt)
      (settles : happening.settles = some held.receipt) :
      Act r ((r.record happening).release delivery)
  | openPart {r : UnitReader} {delivery : Nat} {held : HeldUnit} {cursor : Cursor}
      {rest : List Cursor} (room : r.room ≠ 0) (found : r.deliveries[delivery]? = some held)
      (pending : held.pending = cursor :: rest) :
      Act r (r.openPart delivery cursor.next.1 (cursor.next.2 ++ rest))
  | committed {r : UnitReader} {partition : PartitionId} {lane : LaneState}
      (found : r.lanes[partition]? = some lane) (watermark : Int) :
      Act r (r.noteCommit partition lane watermark)
  | hint (r : UnitReader) (partition : PartitionId) :
      Act r { r with lanes := r.lanes.modify partition fun lane => { lane with hinted := true } }
  /-- Exits are reported. -/
  | left (r : UnitReader) (revoked retired : List PartitionId) (fewer : revoked.Sublist r.revoked)
      (less : retired.Sublist r.retired) : Act r { r with revoked := revoked, retired := retired }
  | neutral {r next : UnitReader} (same : next.holdings = r.holdings) {extra : List Happening}
      (history : next.history = r.history ++ extra)
      (silent : ∀ happening ∈ extra, happening.neutral = true) : Act r next

/-- Some acts, in order. -/
abbrev Acts : UnitReader → UnitReader → Prop := Relation.ReflTransGen Act

/-- What a reader with receipts in its hand can do. A receipt is lost from the hand only
where `lossy`, which is where a fail is answered with an error; a delivery is let go of
without a request only where `stops`, which is at the end of a stop. -/
inductive Deed (lossy stops : Bool) :
    Multiset Nat × UnitReader → Multiset Nat × UnitReader → Prop
  | act {hand : Multiset Nat} {r next : UnitReader} (act : Act r next) :
      Deed lossy stops (hand, r) (hand, next)
  | release (hand : Multiset Nat) (r : UnitReader) (delivery : Nat) (may : stops = true) :
      Deed lossy stops (hand, r) (hand, r.release delivery)
  | receive (hand : Multiset Nat) (r : UnitReader) (receipts : List Nat) :
      Deed lossy stops (hand, r) (receipts + hand, r.record (.received receipts))
  | hold (hand : Multiset Nat) (r : UnitReader) (delivery : Delivery) (cursors : List Cursor) :
      Deed lossy stops (delivery.receipt ::ₘ hand, r) (hand, r.hold delivery cursors)
  | failed {hand : Multiset Nat} {r : UnitReader} {receipt : Nat} {reply : Reply}
      (taken : settled reply = .ok .yes ∨ lossy = true ∧ settled reply ≠ .ok .later) :
      Deed lossy stops (receipt ::ₘ hand, r) (hand, r.record (.failed receipt reply))
  | later {hand : Multiset Nat} {r : UnitReader} {fail : Nat × String} {reply : Reply}
      (retryable : settled reply = .ok .later) :
      Deed lossy stops (fail.1 ::ₘ hand, r)
        (hand, { r.record (.failed fail.1 reply) with unsentFails := r.unsentFails ++ [fail] })
  | resend (hand : Multiset Nat) (r : UnitReader) :
      Deed lossy stops (hand, r)
        ((r.unsentFails.map Prod.fst : List Nat) + hand, { r with unsentFails := [] })
  | lose {hand : Multiset Nat} {r : UnitReader} (lost : Multiset Nat) (may : lossy = true) :
      Deed lossy stops (lost + hand, r) (hand, r)

abbrev Deeds (lossy stops : Bool) : Multiset Nat × UnitReader → Multiset Nat × UnitReader → Prop :=
  Relation.ReflTransGen (Deed lossy stops)

theorem Acts.deeds {lossy stops : Bool} {hand : Multiset Nat} (acts : Acts r next) :
    Deeds lossy stops (hand, r) (hand, next) := by
  induction acts with
  | refl => exact .refl
  | tail _ act ih => exact ih.tail (.act act)

theorem acts_neutral (same : next.holdings = r.holdings) {extra : List Happening}
    (history : next.history = r.history ++ extra)
    (silent : ∀ happening ∈ extra, happening.neutral = true) : Acts r next :=
  .single (.neutral same history silent)

theorem acts_same (same : next.holdings = r.holdings) (log : next.log = r.log) : Acts r next := by
  have silent : next.history = r.history ++ [] := by
    rw [history, history, log, List.append_nil]
  exact acts_neutral same silent (by simp)

theorem acts_tick (r : UnitReader) : Acts r r.tick := acts_same rfl rfl

theorem acts_record (r : UnitReader) {happening : Happening} (silent : happening.neutral = true) :
    Acts r (r.record happening) :=
  acts_neutral rfl (history_record r happening) (by simpa using silent)

/-! ## The lanes run -/

theorem acts_laneEvents (events : List LaneEvent) :
    ∀ r : UnitReader, Acts r (events.foldl laneEvent r) := by
  induction events with
  | nil => exact fun r => .refl
  | cons event rest ih => exact fun r => .head (.lane r event) (ih _)

variable (env : Environment)

theorem acts_interfere (r : UnitReader) : Acts r (r.interfere env) :=
  (acts_laneEvents _ r).trans (acts_tick _)

theorem acts_lanesEnded (asks : LaneState → Bool) (hit : LaneState → Int → Bool)
    (entries : List (PartitionId × LaneState)) :
    ∀ r, Acts r (lanesEnded env asks hit entries r).2 := by
  induction entries with
  | nil => exact fun r => .refl
  | cons entry rest ih =>
    intro r
    rw [lanesEnded]
    split
    · exact (acts_interfere env r).trans (ih _)
    · exact ih r

theorem acts_drain (count : Nat) : ∀ r, Acts r (drain count r) := by
  induction count with
  | zero => exact fun r => .refl
  | succ count ih =>
    intro r
    rw [drain]
    split
    · exact .refl
    · rename_i partition report rest next
      exact .head (.report next) (ih _)

theorem acts_readReports (r : UnitReader) : Acts r (r.readReports env) :=
  (acts_interfere env r).trans (acts_drain _ _)

/-! ## Sequences of calls -/

section

variable {env}

theorem acts_forEach {α : Type} {f : α → UnitReader → UnitReader × Option SourceError}
    (each : ∀ item r, Acts r (f item r).1) (items : List α) :
    ∀ r, Acts r (forEach f items r).1 := by
  induction items with
  | nil => exact fun r => .refl
  | cons item rest ih =>
    intro r
    have first := each item r
    rw [forEach]
    split <;> rename_i result <;> rw [result] at first
    · exact first.trans (ih _)
    · exact first

end

theorem acts_checkReEnqueue (item : Nat × String) (r : UnitReader) :
    Acts r (checkReEnqueue env item r).1 := by
  obtain ⟨delivery, key⟩ := item
  simp only [checkReEnqueue]
  split
  · exact .refl
  · rename_i held found
    split
    · rename_i confirmation published
      refine (acts_tick r).trans ?_
      have found : r.tick.deliveries[delivery]? = some held := found
      split
      · exact .refl
      · rename_i answer
        refine .single (.confirmed found published fun error refused => ?_)
        rw [refused] at answer
        cases answer
      · rename_i error _
        exact .single (.refused found published error _)
    · exact .refl

theorem acts_checkReEnqueues (r : UnitReader) : Acts r (r.checkReEnqueues env).1 :=
  acts_forEach (acts_checkReEnqueue env) _ r

/-! ## Requests about a delivery -/

/-- The delivery indexed is held. -/
theorem expectHeld_found (found : r.deliveries[delivery]? = some held) :
    r.expectHeld delivery = r := by
  have there : r.deliveries.contains delivery = true := by
    rw [TreeMap.contains_eq_isSome_getElem?, found]
    rfl
  rw [expectHeld, if_pos there]

theorem release_other (different : other ≠ delivery) :
    (r.release delivery).deliveries[other]? = r.deliveries[other]? := by
  unfold release
  split
  · rfl
  · exact erase_other different

theorem names_settled {receipt : Nat} {reply : Reply} (yes : settled reply = .ok .yes) :
    settledReceipt receipt reply = some receipt := by
  rw [settledReceipt, yes]

theorem names_unsettled {receipt : Nat} {reply : Reply} (no : settled reply ≠ .ok .yes) :
    settledReceipt receipt reply = none := by
  unfold settledReceipt
  split
  · rename_i yes
    exact absurd yes no
  · rfl

theorem acts_acknowledge (found : r.deliveries[delivery]? = some held)
    (finished : held.finished = true) : Acts r (acknowledge env delivery r).1 := by
  have due :
      (Happening.acknowledged delivery held.receipt (env.reply r.time)).Due delivery held := by
    rintro named receipt reply ⟨⟩
    exact ⟨rfl, finished⟩
  have there : r.tick.deliveries[delivery]? = some held := found
  unfold acknowledge
  rw [found]
  dsimp only
  split
  · rename_i yes
    have empty : held.lanes = [] := by
      simp only [HeldUnit.finished, Bool.and_eq_true, List.isEmpty_iff] at finished
      exact finished.1.2
    have gone := Act.settle there due rfl (names_settled yes)
    have still : (r.tick.record (.acknowledged delivery held.receipt
      (env.reply r.time))).deliveries[delivery]? = some held := found
    rw [release, still] at gone
    simp only [empty, List.foldl_nil, List.filter_nil, List.append_nil] at gone
    exact (acts_tick r).tail gone
  · rename_i later
    exact (acts_tick r).tail (.request there due rfl (names_unsettled (by simp [later])))
  · rename_i refused
    exact (acts_tick r).tail (.request there due rfl (names_unsettled (by simp [refused])))

theorem acts_failHeld (found : r.deliveries[delivery]? = some held) :
    Acts r (failHeld env delivery r).1 := by
  have due : (Happening.failed held.receipt (env.reply r.time)).Due delivery held := nofun
  have there : r.tick.deliveries[delivery]? = some held := found
  unfold failHeld
  rw [found]
  dsimp only
  split
  · rename_i yes
    exact (acts_tick r).tail (.settle there due rfl (names_settled yes))
  · rename_i later
    exact (acts_tick r).tail (.request there due rfl (names_unsettled (by simp [later])))
  · rename_i refused
    exact (acts_tick r).tail (.request there due rfl (names_unsettled (by simp [refused])))

theorem acts_renew {item : Nat × Nat} (found : r.deliveries[item.1]? = some held)
    (same : held.receipt = item.2) : Acts r (renew env item r).1 := by
  have due : (Happening.renewed item.2 (env.reply r.time)).Due item.1 held := nofun
  have names : (Happening.renewed item.2 (env.reply r.time)).names = some held.receipt := by
    rw [same]
    rfl
  have there : r.tick.deliveries[item.1]? = some held := found
  unfold renew
  dsimp only
  split
  · rename_i ok
    exact (acts_tick r).tail (.request there due names (by simp [Happening.settles, ok]))
  · rename_i error answer
    split
    · rename_i gone
      refine (acts_tick r).tail (.settle there due names ?_)
      simp [Happening.settles, answer, gone, same]
    · rename_i kind
      exact (acts_tick r).tail
        (.request there due names (by simp [Happening.settles, answer, kind]))
    · rename_i kind
      exact (acts_tick r).tail
        (.request there due names (by simp [Happening.settles, answer, kind]))
    · rename_i kind
      exact (acts_tick r).tail
        (.request there due names (by simp [Happening.settles, answer, kind]))

theorem acts_handBack (found : r.deliveries[delivery]? = some held) :
    Acts r (handBack env delivery r).1 := by
  have due : (Happening.handedBack held.receipt (env.reply r.time)).Due delivery held := nofun
  have there : r.tick.deliveries[delivery]? = some held := found
  have settles : ∀ kind, (env.reply r.time).map FeedError.kind = kind →
      kind ≠ some .refused ∧ kind ≠ some .fatal →
      (Happening.handedBack held.receipt (env.reply r.time)).settles = some held.receipt := by
    rintro kind rfl ⟨unrefused, unfatal⟩
    cases answer : env.reply r.time with
    | none => rfl
    | some error => simp_all [Happening.settles]
  unfold handBack
  rw [found]
  dsimp only
  split
  · rename_i kind
    exact (acts_tick r).tail (.settle there due rfl (settles _ kind (by simp)))
  · rename_i kind
    exact (acts_tick r).tail (.settle there due rfl (settles _ kind (by simp)))
  · rename_i kind
    exact (acts_tick r).tail (.settle there due rfl (settles _ kind (by simp)))
  · rename_i kind
    obtain ⟨error, answer, is⟩ := Option.map_eq_some_iff.mp kind
    exact (acts_tick r).tail (.request there due rfl (by simp [Happening.settles, answer, is]))
  · rename_i kind
    obtain ⟨error, answer, is⟩ := Option.map_eq_some_iff.mp kind
    exact (acts_tick r).tail (.request there due rfl (by simp [Happening.settles, answer, is]))

theorem failHeld_other (different : other ≠ delivery) :
    (failHeld env delivery r).1.deliveries[other]? = r.deliveries[other]? := by
  unfold failHeld
  split
  · unfold expectHeld
    split <;> rfl
  · dsimp only
    split
    · exact release_other different
    · rfl
    · rfl

theorem acknowledge_other (different : other ≠ delivery) :
    (acknowledge env delivery r).1.deliveries[other]? = r.deliveries[other]? := by
  unfold acknowledge
  split
  · unfold expectHeld
    split <;> rfl
  · dsimp only
    split
    · exact erase_other different
    · rfl
    · rfl

theorem renew_other {item : Nat × Nat} (different : other ≠ item.1) :
    (renew env item r).1.deliveries[other]? = r.deliveries[other]? := by
  unfold renew
  dsimp only
  split
  · rfl
  · split
    · exact release_other different
    · rfl
    · rfl
    · rfl

theorem handBack_other (different : other ≠ delivery) :
    (handBack env delivery r).1.deliveries[other]? = r.deliveries[other]? := by
  unfold handBack
  split
  · unfold expectHeld
    split <;> rfl
  · dsimp only
    split
    · exact release_other different
    · exact release_other different
    · exact release_other different
    · rfl
    · rfl

/-- A loop over a snapshot of deliveries: a turn touches the delivery it is about and no
other, so each is still held at its turn. -/
theorem acts_eachHeld {α : Type} {f : α → UnitReader → UnitReader × Option SourceError}
    (key : α → Nat) (P : α → HeldUnit → Prop)
    (each : ∀ item r held, r.deliveries[key item]? = some held → P item held → Acts r (f item r).1)
    (others : ∀ item r other, other ≠ key item →
      (f item r).1.deliveries[other]? = r.deliveries[other]?)
    (items : List α) : ∀ r : UnitReader,
    items.Pairwise (fun first second => key first ≠ key second) →
    (∀ item ∈ items, ∃ held, r.deliveries[key item]? = some held ∧ P item held) →
    Acts r (forEach f items r).1 := by
  induction items with
  | nil => exact fun r _ _ => .refl
  | cons item rest ih =>
    intro r distinct there
    obtain ⟨different, distinct⟩ := List.pairwise_cons.mp distinct
    obtain ⟨held, found, holds⟩ := there item List.mem_cons_self
    have first := each item r held found holds
    have kept := others item r
    rw [forEach]
    split <;> rename_i result <;> rw [result] at first kept
    · refine first.trans (ih _ distinct fun other member => ?_)
      obtain ⟨held, found, holds⟩ := there other (List.mem_cons_of_mem _ member)
      exact ⟨held, (kept _ (different other member).symm).trans found, holds⟩
    · exact first

theorem distinct_deliveries (r : UnitReader) :
    r.deliveries.toList.Pairwise (fun first second => first.1 ≠ second.1) :=
  TreeMap.distinct_keys_toList.imp fun different same => different (Nat.compare_eq_eq.mpr same)

theorem distinct_deliveriesWhere (r : UnitReader) (p : HeldUnit → Bool) :
    (r.deliveriesWhere p).Pairwise (fun first second => first ≠ second) :=
  List.pairwise_map.mpr ((distinct_deliveries r).sublist List.filter_sublist)

theorem mem_deliveriesWhere {p : HeldUnit → Bool} (member : delivery ∈ r.deliveriesWhere p) :
    ∃ held, r.deliveries[delivery]? = some held ∧ p held = true := by
  obtain ⟨⟨other, held⟩, entry, rfl⟩ := List.mem_map.mp member
  obtain ⟨entry, holds⟩ := List.mem_filter.mp entry
  exact ⟨held, TreeMap.mem_toList_iff_getElem?_eq_some.mp entry, holds⟩

theorem acts_failEach (r : UnitReader) (p : HeldUnit → Bool) :
    Acts r (forEach (failHeld env) (r.deliveriesWhere p) r).1 := by
  refine acts_eachHeld id (fun _ _ => True) (fun delivery r held found _ => acts_failHeld env found)
    (fun delivery r other different => failHeld_other env different) _ r
    (distinct_deliveriesWhere r p) fun delivery member => ?_
  obtain ⟨held, found, -⟩ := mem_deliveriesWhere member
  exact ⟨held, found, trivial⟩

theorem acts_acknowledgeEach (r : UnitReader) :
    Acts r (forEach (acknowledge env) (r.deliveriesWhere HeldUnit.finished) r).1 :=
  acts_eachHeld id (fun _ held => held.finished = true)
    (fun _ _ _ found finished => acts_acknowledge env found finished)
    (fun _ _ _ different => acknowledge_other env different) _ r
    (distinct_deliveriesWhere r _) fun _ member => mem_deliveriesWhere member

theorem acts_handBackEach (r : UnitReader) (p : HeldUnit → Bool) :
    Acts r (forEach (handBack env) (r.deliveriesWhere p) r).1 := by
  refine acts_eachHeld id (fun _ _ => True) (fun delivery r held found _ => acts_handBack env found)
    (fun delivery r other different => handBack_other env different) _ r
    (distinct_deliveriesWhere r p) fun delivery member => ?_
  obtain ⟨held, found, -⟩ := mem_deliveriesWhere member
  exact ⟨held, found, trivial⟩

theorem acts_renewEach (r : UnitReader) : Acts r (r.renewEach env).1 := by
  refine acts_eachHeld Prod.fst (fun item held => held.receipt = item.2)
    (fun item r held found same => acts_renew env found same)
    (fun item r other different => renew_other env different) _ r
    (List.pairwise_map.mpr (distinct_deliveries r)) fun item member => ?_
  obtain ⟨⟨delivery, held⟩, entry, rfl⟩ := List.mem_map.mp member
  exact ⟨held, TreeMap.mem_toList_iff_getElem?_eq_some.mp entry, rfl⟩

/-! ## Receipts in the hand -/

theorem acts_openLoop (count : Nat) : ∀ r, Acts r (openLoop count r).2 := by
  induction count with
  | zero => exact fun r => .refl
  | succ count ih =>
    intro r
    rw [openLoop]
    split
    · exact .refl
    · rename_i room
      split
      · rename_i delivery receipt unit cursor rest lanes failing overwritten found
        have member := List.mem_of_find?_eq_some found
        rw [TreeMap.mem_toList_iff_getElem?_eq_some] at member
        exact .head (.openPart room member rfl) (ih _)
      · exact .refl

theorem acts_openPending (r : UnitReader) : Acts r r.openPending.2 := acts_openLoop _ r

section

variable {lossy stops : Bool} {hand : Multiset Nat}

variable {r : UnitReader}

theorem deeds_failUnread {fail : Nat × String}
    (fine : (failUnread env fail r).2 = none ∨ lossy = true) :
    Deeds lossy stops (fail.1 ::ₘ hand, r) (hand, (failUnread env fail r).1) := by
  unfold failUnread at fine ⊢
  dsimp only at fine ⊢
  refine (acts_tick r).deeds.tail ?_
  split
  · rename_i yes
    exact .failed (.inl yes)
  · rename_i later
    exact .later later
  · rename_i error refused
    rw [refused] at fine
    exact .failed (.inr ⟨fine.resolve_left (by simp), by simp [refused]⟩)

/-- A loop that deals with one receipt of the hand at each turn. -/
theorem deeds_forEach {α : Type} {f : α → UnitReader → UnitReader × Option SourceError}
    (receipt : α → Nat)
    (each : ∀ item r (hand : Multiset Nat), (f item r).2 = none ∨ lossy = true →
      Deeds lossy stops (receipt item ::ₘ hand, r) (hand, (f item r).1))
    (items : List α) (hand : Multiset Nat) : ∀ r : UnitReader,
      (forEach f items r).2 = none ∨ lossy = true →
      Deeds lossy stops ((items.map receipt : List Nat) + hand, r)
        (hand, (forEach f items r).1) := by
  induction items with
  | nil =>
    intro r _
    rw [List.map_nil, Multiset.coe_nil, zero_add]
    exact .refl
  | cons item rest ih =>
    intro r fine
    have first := each item r ((rest.map receipt : List Nat) + hand)
    rw [List.map_cons, ← Multiset.cons_coe, Multiset.cons_add]
    rw [forEach] at fine ⊢
    split <;> rename_i result <;> rw [result] at first fine
    · exact (first (.inl rfl)).trans (ih _ fine)
    · have may : lossy = true := fine.resolve_left (by simp)
      exact (first (.inr may)).tail (.lose _ may)

theorem deeds_resendFails (fine : (r.resendFails env).2 = none ∨ lossy = true) :
    Deeds lossy stops (hand, r) (hand, (r.resendFails env).1) := by
  unfold resendFails at fine ⊢
  dsimp only at fine ⊢
  have told : Acts r (if r.unsentFails.isEmpty then r else r.record .failsTaken) ∧
      (if r.unsentFails.isEmpty then r else r.record .failsTaken).unsentFails = r.unsentFails := by
    split
    · exact ⟨.refl, rfl⟩
    · exact ⟨acts_record r rfl, rfl⟩
  generalize (if r.unsentFails.isEmpty then r else r.record .failsTaken) = noted at told fine ⊢
  have begun : Deeds lossy stops (hand, r) ((noted.unsentFails.map Prod.fst : List Nat) + hand,
      { noted with unsentFails := [] }) := told.1.deeds.tail (.resend hand noted)
  rw [told.2] at begun
  exact begun.trans (deeds_forEach Prod.fst
    (fun fail r hand fine => deeds_failUnread env fine) _ _ _ fine)

theorem deeds_take {delivery : Delivery} (fine : (take env delivery r).2 = none ∨ lossy = true) :
    Deeds lossy stops (delivery.receipt ::ₘ hand, r) (hand, (take env delivery r).1) := by
  unfold take at fine ⊢
  split
  · exact .single (.hold hand r delivery _)
  · exact .single (.hold hand r delivery _)
  · rename_i reason body
    rw [body] at fine
    exact deeds_failUnread env fine

theorem deeds_receive {room : Nat}
    (fine : (∃ took, (r.receive env room).2 = .ok took) ∨ lossy = true) :
    Deeds lossy stops (hand, r) (hand, (r.receive env room).1) := by
  unfold receive at fine ⊢
  split
  · dsimp only
    have told : Acts r (r.tick.record .receiveFailed) := (acts_tick r).trans (acts_record _ rfl)
    split
    · exact told.deeds
    · exact told.deeds
  · rename_i deliveries answer
    simp only [answer] at fine ⊢
    generalize deliveries.take room = taken at fine ⊢
    have told : Deeds lossy stops (hand, r) ((taken.map Delivery.receipt : List Nat) + hand,
        r.tick.record (.received (taken.map Delivery.receipt))) :=
      (acts_tick r).deeds.tail (.receive hand _ _)
    have each : ∀ (delivery : Delivery) (r : UnitReader) (hand : Multiset Nat),
        (take env delivery r).2 = none ∨ lossy = true →
        Deeds lossy stops (delivery.receipt ::ₘ hand, r) (hand, (take env delivery r).1) :=
      fun delivery r hand fine => deeds_take env fine
    have all := deeds_forEach Delivery.receipt each taken hand
      (r.tick.record (.received (taken.map Delivery.receipt)))
    split <;> rename_i result <;> rw [result] at all fine
    · exact told.trans (all (.inl rfl))
    · refine told.trans (all (.inr (fine.resolve_left ?_)))
      rintro ⟨took, ok⟩
      cases ok

end

/-! ## The end check -/

/-- `next` differs from `r` by requests and the end check only. -/
structure Aside (r next : UnitReader) : Prop where
  same : next.holdings = r.holdings
  history : ∃ extra, next.history = r.history ++ extra ∧
    ∀ happening ∈ extra, happening.neutral = true

theorem Aside.acts (aside : r.Aside next) : Acts r next := by
  obtain ⟨extra, history, silent⟩ := aside.history
  exact acts_neutral aside.same history silent

theorem aside_same (same : next.holdings = r.holdings) (log : next.log = r.log) : r.Aside next :=
  ⟨same, [], by rw [history, history, log, List.append_nil], by simp⟩

theorem aside_record (r : UnitReader) {happening : Happening} (silent : happening.neutral = true) :
    r.Aside (r.record happening) :=
  ⟨rfl, [happening], history_record r happening, by simpa using silent⟩

theorem Aside.trans {middle : UnitReader} (first : r.Aside middle) (second : middle.Aside next) :
    r.Aside next := by
  obtain ⟨left, leftHistory, leftSilent⟩ := first.history
  obtain ⟨right, rightHistory, rightSilent⟩ := second.history
  refine ⟨second.same.trans first.same, left ++ right, ?_, ?_⟩
  · rw [rightHistory, leftHistory, List.append_assoc]
  · intro happening member
    exact (List.mem_append.mp member).elim (leftSilent happening) (rightSilent happening)

theorem aside_setEnding (r : UnitReader) (f : JobEnd → JobEnd) : r.Aside (r.setEnding f) :=
  aside_same rfl rfl

theorem aside_tick (r : UnitReader) : r.Aside r.tick :=
  aside_same rfl rfl

theorem aside_tell (r : UnitReader) (call : EndCall) : r.Aside (r.tell call) := by
  unfold tell
  split
  · exact aside_same rfl rfl
  · rename_i check _
    have told : ∀ r : UnitReader, r.Aside ((Watch.entry check call).toList.foldl
        (fun r entry => r.record (.checked entry)) r) := by
      intro r
      cases Watch.entry check call with
      | none => exact aside_same rfl rfl
      | some entry => exact aside_record r rfl
    refine Aside.trans ?_ (told _)
    exact aside_same rfl rfl

theorem aside_busy (r : UnitReader) : r.Aside (r.busy env) := by
  unfold busy
  split
  · exact aside_same rfl rfl
  · dsimp only
    split
    · refine Aside.trans ?_ (aside_tell _ _)
      exact aside_same rfl rfl
    · exact aside_same rfl rfl

theorem aside_receiveFailed (r : UnitReader) : r.Aside (r.receiveFailed env) := by
  unfold receiveFailed
  split
  · exact aside_busy env r
  · exact aside_same rfl rfl

theorem aside_takeMarker (now : Nat) (r : UnitReader) : r.Aside (r.takeMarker env now).1 := by
  unfold takeMarker
  split
  · exact aside_same rfl rfl
  · rename_i asked _
    split
    · exact aside_tick r
    · dsimp only
      have taken :
          r.Aside (record (r.tick.setEnding fun ending => { ending with markerRead := none })
          (.consumed .marker asked)) :=
        ((aside_tick r).trans (aside_setEnding _ _)).trans (aside_record _ rfl)
      split
      · exact taken.trans (aside_tell _ _)
      · exact taken.trans (aside_tell _ _)
      · split
        · exact taken.trans (aside_tell _ _)
        · exact taken
      · exact taken.trans (aside_tell _ _)

theorem aside_takeDepth (now : Nat) (r : UnitReader) : r.Aside (r.takeDepth env now) := by
  unfold takeDepth
  split
  · exact aside_same rfl rfl
  · split
    · exact aside_tick r
    · refine Aside.trans ?_ (aside_tell _ _)
      exact ((aside_tick r).trans (aside_setEnding _ _)).trans (aside_record _ (by rfl))

/-! ## What a retired lane has behind it -/

theorem laneEvent_lanes (r : UnitReader) (event : LaneEvent) :
    (r.laneEvent event).lanes = r.lanes ∧ (r.laneEvent event).deliveries = r.deliveries := by
  cases event <;> simp only [laneEvent] <;> split <;> exact ⟨rfl, rfl⟩

/-- A terminal watermark is set once. -/
theorem laneEvent_terminal {partition : PartitionId} {watermark : Int}
    (set : (r.threads partition).terminal = some watermark) (event : LaneEvent) :
    ((r.laneEvent event).threads partition).terminal = some watermark := by
  cases event with
  | report other report =>
    rw [laneEvent]
    split
    · by_cases same : partition = other
      · subst same
        simpa [record] using set
      · simpa [record, Function.update_of_ne same] using set
    · exact set
  | terminal other later =>
    rw [laneEvent]
    split
    · rename_i first
      by_cases same : partition = other
      · subst same
        rw [first.2.1] at set
        cases set
      · simpa [record, Function.update_of_ne same] using set
    · exact set

/-- The lanes run without the reader's own state changing. -/
structure Ran (r next : UnitReader) : Prop where
  lanes : next.lanes = r.lanes
  deliveries : next.deliveries = r.deliveries
  terminal : ∀ {partition watermark}, (r.threads partition).terminal = some watermark →
    (next.threads partition).terminal = some watermark

theorem Ran.refl (r : UnitReader) : r.Ran r := ⟨rfl, rfl, id⟩

theorem Ran.trans {middle : UnitReader} (first : r.Ran middle) (second : middle.Ran next) :
    r.Ran next :=
  ⟨second.lanes.trans first.lanes, second.deliveries.trans first.deliveries,
    fun set => second.terminal (first.terminal set)⟩

theorem ran_laneEvents (events : List LaneEvent) :
    ∀ r : UnitReader, r.Ran (events.foldl laneEvent r) := by
  induction events with
  | nil => exact Ran.refl
  | cons event rest ih =>
    intro r
    have one : r.Ran (r.laneEvent event) :=
      ⟨(laneEvent_lanes r event).1, (laneEvent_lanes r event).2,
        fun set => laneEvent_terminal set event⟩
    exact one.trans (ih _)

theorem ran_interfere (r : UnitReader) : r.Ran (r.interfere env) :=
  have ran := ran_laneEvents (env.lanes r.time) r
  ⟨ran.lanes, ran.deliveries, ran.terminal⟩

/-- The lanes found ended had a terminal watermark that is a hit, and still have it. -/
theorem lanesEnded_spec (asks : LaneState → Bool) (hit : LaneState → Int → Bool)
    (entries : List (PartitionId × LaneState)) :
    ∀ r : UnitReader, r.Ran (lanesEnded env asks hit entries r).2 ∧
      ∀ partition ∈ (lanesEnded env asks hit entries r).1, ∃ lane watermark,
        (partition, lane) ∈ entries ∧ hit lane watermark = true ∧
        ((lanesEnded env asks hit entries r).2.threads partition).terminal = some watermark := by
  induction entries with
  | nil => exact fun r => ⟨Ran.refl r, by simp [lanesEnded]⟩
  | cons entry rest ih =>
    obtain ⟨partition, lane⟩ := entry
    intro r
    rw [lanesEnded]
    split
    · dsimp only
      obtain ⟨ran, found⟩ := ih (r.interfere env)
      refine ⟨(ran_interfere env r).trans ran, fun other member => ?_⟩
      have later : ∀ other ∈ (lanesEnded env asks hit rest (r.interfere env)).1,
          ∃ found watermark, (other, found) ∈ (partition, lane) :: rest ∧
            hit found watermark = true ∧
            ((lanesEnded env asks hit rest (r.interfere env)).2.threads other).terminal =
              some watermark := by
        intro other member
        obtain ⟨lane, watermark, listed, hits, set⟩ := found other member
        exact ⟨lane, watermark, List.mem_cons_of_mem _ listed, hits, set⟩
      split at member
      · rename_i ended
        rcases List.mem_cons.mp member with rfl | member
        · obtain ⟨watermark, set, hits⟩ := (Option.any_eq_true _ _).mp ended
          exact ⟨lane, watermark, List.mem_cons_self, hits, ran.terminal set⟩
        · exact later other member
      · exact later other member
    · obtain ⟨ran, found⟩ := ih r
      refine ⟨ran, fun other member => ?_⟩
      obtain ⟨lane, watermark, listed, rest⟩ := found other member
      exact ⟨lane, watermark, List.mem_cons_of_mem _ listed, rest⟩

theorem overwriteHeld_fields (r : UnitReader) (lane : LaneState) (held : HeldUnit)
    (overwrite : Overwrite) :
    (r.overwriteHeld lane held overwrite).lanes = r.lanes ∧
      (r.overwriteHeld lane held overwrite).threads = r.threads ∧
      (r.overwriteHeld lane held overwrite).channel = r.channel := by
  unfold overwriteHeld
  dsimp only
  split <;> exact ⟨rfl, rfl, rfl⟩

theorem readReport_fields (r : UnitReader) (partition : PartitionId) (report : PoisonReport) :
    (r.readReport partition report).lanes = r.lanes ∧
      (r.readReport partition report).threads = r.threads ∧
      (r.readReport partition report).channel = r.channel := by
  unfold readReport onOverwrite
  split
  · split
    · exact ⟨rfl, rfl, rfl⟩
    · split
      · exact ⟨rfl, rfl, rfl⟩
      · split
        · exact ⟨rfl, rfl, rfl⟩
        · exact overwriteHeld_fields r _ _ _
  · split <;> exact ⟨rfl, rfl, rfl⟩

theorem drain_fields (count : Nat) : ∀ r : UnitReader,
    (drain count r).lanes = r.lanes ∧ (drain count r).threads = r.threads ∧
      (drain count r).channel = r.channel.drop count := by
  induction count with
  | zero => exact fun r => ⟨rfl, rfl, rfl⟩
  | succ count ih =>
    intro r
    rw [drain]
    split
    · rename_i empty
      exact ⟨rfl, rfl, by simp [empty]⟩
    · rename_i partition report rest next
      obtain ⟨lanes, threads, channel⟩ :=
        readReport_fields { r with channel := rest } partition report
      obtain ⟨lanes', threads', channel'⟩ :=
        ih ({ r with channel := rest }.readReport partition report)
      refine ⟨lanes'.trans lanes, threads'.trans threads, ?_⟩
      rw [channel', channel, next, List.drop_succ_cons]

/-- Once the reports are read the channel is empty, and the reader's lanes are the same. -/
theorem readReports_spec (r : UnitReader) :
    (r.readReports env).lanes = r.lanes ∧ (r.readReports env).channel = [] ∧
      ∀ {partition watermark}, (r.threads partition).terminal = some watermark →
        ((r.readReports env).threads partition).terminal = some watermark := by
  have ran := ran_interfere env r
  obtain ⟨lanes, threads, channel⟩ :=
    drain_fields (r.interfere env).channel.length (r.interfere env)
  refine ⟨lanes.trans ran.lanes, ?_, fun set => ?_⟩
  · exact channel.trans (by simp)
  · change ((drain _ _).threads _).terminal = _
    rw [threads]
    exact ran.terminal set

/-- The lane may leave: it ended, its last watermark is committed and its reports are
read. -/
def Spent (r : UnitReader) (partition : PartitionId) : Prop :=
  ∀ lane, r.lanes[partition]? = some lane → ∃ watermark,
    (r.threads partition).terminal = some watermark ∧
      (watermark = 0 ∨ lane.lastCommitted = some watermark)

theorem retire_fields (r : UnitReader) (partition : PartitionId) :
    (r.retire partition).threads = r.threads ∧ (r.retire partition).channel = r.channel ∧
      ∀ (other : PartitionId) (lane : LaneState), (r.retire partition).lanes[other]? = some lane →
        r.lanes[other]? = some lane := by
  unfold retire
  split
  · exact ⟨rfl, rfl, fun _ _ found => found⟩
  · refine ⟨rfl, rfl, fun other lane found => ?_⟩
    simp only [setHeld, TreeMap.getElem?_erase] at found
    split at found
    · cases found
    · exact found

theorem acts_retire {partition : PartitionId} (spent : r.Spent partition) (read : r.channel = []) :
    Acts r (r.retire partition) := by
  cases found : r.lanes[partition]? with
  | none =>
    rw [retire, found]
  | some lane =>
    obtain ⟨watermark, terminal, committed⟩ := spent lane found
    exact .single (.retire found terminal committed (by simp [read]))

end UnitReader

end Spate.S3
