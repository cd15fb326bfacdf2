import Spate.Lists
import Spate.TreeMaps
import Spate.UnitReaderActs

set_option autoImplicit false

/- The ack rule: what is behind every acknowledgement the unit reader sends. The
invariant has one part for the lanes' threads, one for the lanes the reader holds, one
for each delivery it holds and one for what it acknowledged; each act keeps all four. -/
namespace Spate.S3

open Spate.Feed
open Spate.TreeMaps
open Std (TreeMap)

variable {history : List Happening}

/-- The parts of `delivery` a lane was opened for. -/
def openedParts (delivery : Nat) (history : List Happening) : List Part :=
  history.filterMap fun
    | .opened other _ part => if other = delivery then some part else none
    | _ => none

/-- The parts of `delivery` dropped unopened. -/
def droppedParts (delivery : Nat) (history : List Happening) : List Part :=
  history.flatMap fun
    | .dropped other cursors => if other = delivery then cursors.flatMap Cursor.parts else []
    | _ => []

/-- The lane that read `part` of `delivery` reported `overwrite`. -/
def Overwrote (history : List Happening) (delivery : Nat) (part : Part) (overwrite : Overwrite) :
    Prop :=
  ∃ partition report, .opened delivery partition part ∈ history ∧
    .reported partition report ∈ history ∧ report.overwrite = some overwrite

/-- What must have happened before `delivery` is acknowledged. -/
structure AckRule (cap : Nat) (history : List Happening) (delivery receipt : Nat) : Prop where
  /-- Every part was opened, or dropped. -/
  parts : ∃ cursors, .held delivery receipt cursors ∈ history ∧
    (openedParts delivery history ++ droppedParts delivery history).Perm
      (cursors.flatMap Cursor.parts)
  /-- Every lane ended, at 0 or at a watermark that was committed. -/
  lanes : ∀ partition part, .opened delivery partition part ∈ history → ∃ watermark,
    .ended partition watermark ∈ history ∧
      (watermark = 0 ∨ .committed partition watermark ∈ history)
  dropped : ∀ cursors, .dropped delivery cursors ∈ history → ∀ cursor ∈ cursors,
    ∃ part overwrite, Overwrote history delivery part overwrite ∧ overwrite.key = cursor.key
  unpoisoned : ∀ partition part report, .opened delivery partition part ∈ history →
    .reported partition report ∈ history → report.overwrite ≠ none
  /-- An overwritten key is in the feed again, is empty, or was re-enqueued often enough. -/
  reEnqueued : ∀ part overwrite, Overwrote history delivery part overwrite →
    .confirmed delivery overwrite.key none ∈ history ∨ ∃ other last,
      Overwrote history delivery other last ∧ last.key = overwrite.key ∧
        (last.size = 0 ∨ cap ≤ other.reEnqueues)

section

variable {happening : Happening}

theorem openedParts_append {delivery : Nat}
    (other : ∀ partition part, happening ≠ .opened delivery partition part) :
    openedParts delivery (history ++ [happening]) = openedParts delivery history := by
  rw [openedParts, List.filterMap_append, ← openedParts]
  cases happening with
  | opened delivery' partition part =>
    have different : delivery' ≠ delivery := by
      rintro rfl
      exact other _ _ rfl
    simp [different]
  | _ => simp

theorem droppedParts_append {delivery : Nat}
    (other : ∀ cursors, happening ≠ .dropped delivery cursors) :
    droppedParts delivery (history ++ [happening]) = droppedParts delivery history := by
  rw [droppedParts, List.flatMap_append, ← droppedParts]
  cases happening with
  | dropped delivery' cursors =>
    have different : delivery' ≠ delivery := by
      rintro rfl
      exact other _ rfl
    simp [different]
  | _ => simp

end

/-! ## The lanes' threads -/

/-- A thread's terminal watermark and poison are in the history, a poisoned thread has no
terminal watermark, and what waits in the channel was sent. -/
structure ThreadsSound (history : List Happening) (threads : PartitionId → LaneThread)
    (channel : List (PartitionId × PoisonReport)) (nextLane : Nat) : Prop where
  ended : ∀ partition watermark, (threads partition).terminal = some watermark →
    .ended partition watermark ∈ history
  poisoned : ∀ partition report, .reported partition report ∈ history → report.overwrite = none →
    (threads partition).poisoned = true
  exclusive : ∀ partition, (threads partition).poisoned = true →
    (threads partition).terminal = none
  reported : ∀ partition report, .reported partition report ∈ history → partition < nextLane
  sent : ∀ partition report, (partition, report) ∈ channel →
    .reported partition report ∈ history

/-- The lane of `partition` reported all it will and left at a committed watermark. -/
structure Retired (history : List Happening) (threads : PartitionId → LaneThread)
    (channel : List (PartitionId × PoisonReport)) (partition : PartitionId) : Prop where
  watermark : ∃ watermark, (threads partition).terminal = some watermark ∧
    (watermark = 0 ∨ .committed partition watermark ∈ history)
  read : ∀ report, (partition, report) ∉ channel

/-! ## The lanes the reader holds -/

structure LanesSound (history : List Happening) (deliveries : TreeMap Nat HeldUnit)
    (lanes : TreeMap PartitionId LaneState) (nextDelivery nextLane : Nat) : Prop where
  opened : ∀ delivery partition part, .opened delivery partition part ∈ history →
    partition < nextLane ∧ delivery < nextDelivery
  unique : ∀ delivery other partition part part', .opened delivery partition part ∈ history →
    .opened other partition part' ∈ history → delivery = other
  lane : ∀ (partition : PartitionId) lane, lanes[partition]? = some lane →
    (∃ held, deliveries[lane.delivery]? = some held ∧ partition ∈ held.lanes) ∧
      ∃ part, .opened lane.delivery partition part ∈ history ∧ part.reEnqueues = lane.reEnqueues
  held : ∀ (delivery : Nat) held, deliveries[delivery]? = some held → ∀ partition ∈ held.lanes,
    ∃ lane, lanes[partition]? = some lane ∧ lane.delivery = delivery
  committed : ∀ (partition : PartitionId) lane watermark, lanes[partition]? = some lane →
    lane.lastCommitted = some watermark → .committed partition watermark ∈ history
  deliveries : ∀ (delivery : Nat) held, deliveries[delivery]? = some held → delivery < nextDelivery

/-! ## A delivery the reader holds -/

structure HeldSound (cap : Nat) (history : List Happening) (threads : PartitionId → LaneThread)
    (channel : List (PartitionId × PoisonReport)) (delivery : Nat) (held : HeldUnit) : Prop where
  parts : ∃ cursors, .held delivery held.receipt cursors ∈ history ∧
    (openedParts delivery history ++ droppedParts delivery history ++
      held.pending.flatMap Cursor.parts).Perm (cursors.flatMap Cursor.parts)
  lanes : ∀ partition part, .opened delivery partition part ∈ history →
    partition ∈ held.lanes ∨ Retired history threads channel partition
  /-- A report of an overwrite waits in the channel or was read. -/
  overwritten : ∀ partition part report overwrite, .opened delivery partition part ∈ history →
    .reported partition report ∈ history → report.overwrite = some overwrite →
    (partition, report) ∈ channel ∨ overwrite.key ∈ held.overwritten
  done : ∀ key, held.overwritten[key]? = some .done → held.failing.isSome = true ∨
    .confirmed delivery key none ∈ history ∨ ∃ part overwrite,
      Overwrote history delivery part overwrite ∧ overwrite.key = key ∧
        (overwrite.size = 0 ∨ cap ≤ part.reEnqueues)
  /-- A refused re-enqueue never counts as done. -/
  refused : ∀ key error, .confirmed delivery key (some error) ∈ history →
    ∃ confirmation last, held.overwritten[key]? = some (.publishing confirmation) ∧
      confirmation.outcome = some (some last)

/-- What the history says of deliveries, held or not. -/
structure KnownSound (history : List Happening) (nextDelivery : Nat) : Prop where
  dropped : ∀ delivery cursors, .dropped delivery cursors ∈ history → delivery < nextDelivery ∧
    ∀ cursor ∈ cursors, ∃ part overwrite,
      Overwrote history delivery part overwrite ∧ overwrite.key = cursor.key
  confirmed : ∀ delivery key reply, .confirmed delivery key reply ∈ history →
    delivery < nextDelivery

/-! ## What was acknowledged -/

structure AcksSound (cap : Nat) (history : List Happening) (deliveries : TreeMap Nat HeldUnit)
    (threads : PartitionId → LaneThread) (nextDelivery : Nat) : Prop where
  rule : ∀ before after delivery receipt reply,
    history = before ++ .acknowledged delivery receipt reply :: after →
    AckRule cap before delivery receipt
  known : ∀ delivery receipt reply, .acknowledged delivery receipt reply ∈ history →
    delivery < nextDelivery
  /-- A delivery still held after its acknowledgement has nothing left to do. -/
  finished : ∀ delivery receipt reply, .acknowledged delivery receipt reply ∈ history →
    ∀ held, deliveries[delivery]? = some held → held.finished = true
  ended : ∀ delivery receipt reply, .acknowledged delivery receipt reply ∈ history →
    ∀ partition part, .opened delivery partition part ∈ history →
      (threads partition).terminal.isSome = true
  confirmed : ∀ delivery receipt reply, .acknowledged delivery receipt reply ∈ history →
    ∀ key error, .confirmed delivery key (some error) ∉ history

/-- The whole invariant. -/
structure SoundAt (cap : Nat) (history : List Happening) (deliveries : TreeMap Nat HeldUnit)
    (lanes : TreeMap PartitionId LaneState) (threads : PartitionId → LaneThread)
    (channel : List (PartitionId × PoisonReport)) (nextDelivery nextLane : Nat) : Prop where
  running : ThreadsSound history threads channel nextLane
  opening : LanesSound history deliveries lanes nextDelivery nextLane
  held : ∀ (delivery : Nat) held, deliveries[delivery]? = some held →
    HeldSound cap history threads channel delivery held
  known : KnownSound history nextDelivery
  acks : AcksSound cap history deliveries threads nextDelivery

def Sound (r : UnitReader) : Prop :=
  SoundAt r.reEnqueueCap r.history r.deliveries r.lanes r.threads r.channel r.nextDelivery
    r.nextLane

/-! ## A longer history -/

/-- The happening brings no new obligation. -/
def Happening.plain : Happening → Bool
  | .opened .. | .reported .. | .dropped .. | .confirmed .. | .acknowledged .. => false
  | _ => true

theorem Happening.plain_of_neutral {happening : Happening} (neutral : happening.neutral = true) :
    happening.plain = true := by
  cases happening <;> first | rfl | cases neutral

section

variable {cap nextDelivery nextLane delivery : Nat} {deliveries : TreeMap Nat HeldUnit}
  {lanes : TreeMap PartitionId LaneState} {threads : PartitionId → LaneThread}
  {channel : List (PartitionId × PoisonReport)} {held : HeldUnit} {happening : Happening}
  {partition : PartitionId}

variable {other : Happening} {watermark : Int} {key : String} {confirmation : Confirmation}
  {report : PoisonReport} {lane : LaneState} {reEnqueue : ReEnqueue}

theorem mem_cases {α : Type} {item last : α} {items : List α} (member : item ∈ items ++ [last]) :
    item ∈ items ∨ item = last := by
  simpa using member

theorem mem_before (member : other ∈ history ++ [happening]) (different : happening ≠ other) :
    other ∈ history :=
  (mem_cases member).resolve_right different.symm

theorem mem_after (member : other ∈ history) (happening : Happening) :
    other ∈ history ++ [happening] :=
  List.mem_append_left _ member

theorem mem_last (history : List Happening) (happening : Happening) :
    happening ∈ history ++ [happening] := by
  simp

theorem Overwrote.append {part : Part} {overwrite : Overwrite}
    (overwrote : Overwrote history delivery part overwrite) (happening : Happening) :
    Overwrote (history ++ [happening]) delivery part overwrite := by
  obtain ⟨partition, report, opened, reported, same⟩ := overwrote
  exact ⟨partition, report, mem_after opened _, mem_after reported _, same⟩

theorem Retired.append (retired : Retired history threads channel partition)
    (happening : Happening) : Retired (history ++ [happening]) threads channel partition := by
  obtain ⟨watermark, terminal, committed⟩ := retired.watermark
  exact ⟨⟨watermark, terminal, committed.imp_right (mem_after · _)⟩, retired.read⟩

theorem ThreadsSound.append (sound : ThreadsSound history threads channel nextLane)
    (other : ∀ partition report, happening ≠ .reported partition report) :
    ThreadsSound (history ++ [happening]) threads channel nextLane where
  ended partition watermark set := mem_after (sound.ended partition watermark set) _
  poisoned partition report member :=
    sound.poisoned partition report (mem_before member (other _ _))
  exclusive := sound.exclusive
  reported partition report member :=
    sound.reported partition report (mem_before member (other _ _))
  sent partition report member := mem_after (sound.sent partition report member) _

theorem LanesSound.append (sound : LanesSound history deliveries lanes nextDelivery nextLane)
    (other : ∀ delivery partition part, happening ≠ .opened delivery partition part) :
    LanesSound (history ++ [happening]) deliveries lanes nextDelivery nextLane where
  opened _ _ _ member := sound.opened _ _ _ (mem_before member (other _ _ _))
  unique _ _ _ _ _ left right :=
    sound.unique _ _ _ _ _ (mem_before left (other _ _ _)) (mem_before right (other _ _ _))
  lane partition lane found := by
    obtain ⟨held, part, opened, same⟩ := sound.lane partition lane found
    exact ⟨held, part, mem_after opened _, same⟩
  held := sound.held
  committed partition lane watermark found last :=
    mem_after (sound.committed partition lane watermark found last) _
  deliveries := sound.deliveries

theorem HeldSound.done_append (sound : HeldSound cap history threads channel delivery held)
    (same : held.overwritten[key]? = some .done) : held.failing.isSome = true ∨
      .confirmed delivery key none ∈ history ++ [happening] ∨ ∃ part overwrite,
        Overwrote (history ++ [happening]) delivery part overwrite ∧ overwrite.key = key ∧
          (overwrite.size = 0 ∨ cap ≤ part.reEnqueues) := by
  rcases sound.done key same with failing | confirmed | ⟨part, overwrite, overwrote, rest⟩
  · exact .inl failing
  · exact .inr (.inl (mem_after confirmed _))
  · exact .inr (.inr ⟨part, overwrite, overwrote.append _, rest⟩)

theorem HeldSound.append (sound : HeldSound cap history threads channel delivery held)
    (unopened : ∀ partition part, happening ≠ .opened delivery partition part)
    (kept : ∀ cursors, happening ≠ .dropped delivery cursors)
    (unreported : ∀ partition report, happening ≠ .reported partition report)
    (refused : ∀ key error, happening = .confirmed delivery key (some error) →
      ∃ confirmation last, held.overwritten[key]? = some (.publishing confirmation) ∧
        confirmation.outcome = some (some last)) :
    HeldSound cap (history ++ [happening]) threads channel delivery held where
  parts := by
    obtain ⟨cursors, started, same⟩ := sound.parts
    refine ⟨cursors, mem_after started _, ?_⟩
    rw [openedParts_append unopened, droppedParts_append kept]
    exact same
  lanes partition part opened :=
    (sound.lanes partition part (mem_before opened (unopened _ _))).imp_right (·.append _)
  overwritten partition part report overwrite opened reported :=
    sound.overwritten partition part report overwrite (mem_before opened (unopened _ _))
      (mem_before reported (unreported _ _))
  done _ same := sound.done_append same
  refused key error member := by
    rcases List.mem_append.mp member with member | last
    · exact sound.refused key error member
    · exact refused key error (List.mem_singleton.mp last).symm

theorem KnownSound.dropped_append (sound : KnownSound history nextDelivery) {cursors : List Cursor}
    (member : .dropped delivery cursors ∈ history) : delivery < nextDelivery ∧
      ∀ cursor ∈ cursors, ∃ part overwrite,
        Overwrote (history ++ [happening]) delivery part overwrite ∧
          overwrite.key = cursor.key := by
  obtain ⟨known, dropped⟩ := sound.dropped delivery cursors member
  refine ⟨known, fun cursor mem => ?_⟩
  obtain ⟨part, overwrite, overwrote, same⟩ := dropped cursor mem
  exact ⟨part, overwrite, overwrote.append _, same⟩

theorem KnownSound.append (sound : KnownSound history nextDelivery)
    (kept : ∀ delivery cursors, happening ≠ .dropped delivery cursors)
    (unconfirmed : ∀ delivery key reply, happening ≠ .confirmed delivery key reply) :
    KnownSound (history ++ [happening]) nextDelivery where
  dropped _ _ member := sound.dropped_append (mem_before member (kept _ _))
  confirmed delivery key reply member :=
    sound.confirmed delivery key reply (mem_before member (unconfirmed _ _ _))

/-- An acknowledgement in a longer history is an old one or the last happening. -/
theorem acks_append {P : List Happening → Prop}
    (earlier : ∀ before after, history = before ++ other :: after → P before)
    (last : happening = other → P history) :
    ∀ before after, history ++ [happening] = before ++ other :: after → P before := by
  intro before after same
  rcases Lists.split_last same with ⟨new, rfl, -⟩ | ⟨rest, -, same⟩
  · exact last new
  · exact earlier before rest same

/-- Nothing happens to an acknowledged delivery any more. -/
theorem AcksSound.append (sound : AcksSound cap history deliveries threads nextDelivery)
    (unacknowledged : ∀ delivery receipt reply, happening ≠ .acknowledged delivery receipt reply)
    (opened : ∀ delivery partition part, happening = .opened delivery partition part →
      ∀ receipt reply, .acknowledged delivery receipt reply ∉ history)
    (refused : ∀ delivery key error, happening = .confirmed delivery key (some error) →
      ∀ receipt reply, .acknowledged delivery receipt reply ∉ history) :
    AcksSound cap (history ++ [happening]) deliveries threads nextDelivery where
  rule before after delivery receipt reply :=
    acks_append (fun before after => sound.rule before after delivery receipt reply)
      (fun same => absurd same (unacknowledged _ _ _)) before after
  known delivery receipt reply member :=
    sound.known delivery receipt reply (mem_before member (unacknowledged _ _ _))
  finished delivery receipt reply member :=
    sound.finished delivery receipt reply (mem_before member (unacknowledged _ _ _))
  ended delivery receipt reply later partition part member := by
    have acked := mem_before later (unacknowledged _ _ _)
    rcases mem_cases member with member | new
    · exact sound.ended delivery receipt reply acked partition part member
    · exact absurd acked (opened _ _ _ new.symm receipt reply)
  confirmed delivery receipt reply later key error member := by
    have acked := mem_before later (unacknowledged _ _ _)
    rcases mem_cases member with member | new
    · exact sound.confirmed delivery receipt reply acked key error member
    · exact refused _ _ _ new.symm receipt reply acked

theorem SoundAt.append
    (sound : SoundAt cap history deliveries lanes threads channel nextDelivery nextLane)
    (plain : happening.plain = true) :
    SoundAt cap (history ++ [happening]) deliveries lanes threads channel nextDelivery
      nextLane := by
  have other : ∀ special : Happening, special.plain = false → happening ≠ special := by
    rintro special not rfl
    rw [plain] at not
    cases not
  exact {
    running := sound.running.append fun _ _ => other _ rfl
    opening := sound.opening.append fun _ _ _ => other _ rfl
    held := fun delivery held found => (sound.held delivery held found).append
      (fun _ _ => other _ rfl) (fun _ => other _ rfl) (fun _ _ => other _ rfl)
      (fun _ _ same => absurd same (other _ rfl))
    known := sound.known.append (fun _ _ => other _ rfl) (fun _ _ _ => other _ rfl)
    acks := sound.acks.append (fun _ _ _ => other _ rfl)
      (fun _ _ _ same => absurd same (other _ rfl)) (fun _ _ _ same => absurd same (other _ rfl)) }

theorem SoundAt.appendAll
    (sound : SoundAt cap history deliveries lanes threads channel nextDelivery nextLane)
    {extra : List Happening} (plain : ∀ happening ∈ extra, happening.plain = true) :
    SoundAt cap (history ++ extra) deliveries lanes threads channel nextDelivery nextLane := by
  induction extra using List.reverseRecOn with
  | nil => simpa using sound
  | append_singleton extra last ih =>
    rw [← List.append_assoc]
    exact (ih fun happening member => plain happening (List.mem_append_left _ member)).append
      (plain last (by simp))

/-! ## The lanes run -/

theorem SoundAt.reported
    (sound : SoundAt cap history deliveries lanes threads channel nextDelivery nextLane)
    (opened : partition < nextLane) (unset : (threads partition).terminal = none)
    (report : PoisonReport) :
    SoundAt cap (history ++ [.reported partition report]) deliveries lanes
      (Function.update threads partition { threads partition with
        poisoned := (threads partition).poisoned || report.overwrite.isNone })
      (channel ++ [(partition, report)]) nextDelivery nextLane := by
  have terminal : ∀ other, (Function.update threads partition { threads partition with
      poisoned := (threads partition).poisoned || report.overwrite.isNone } other).terminal =
      (threads other).terminal := by
    intro other
    by_cases same : other = partition
    · subst same
      simp
    · rw [Function.update_of_ne same]
  exact {
    running := {
      ended := fun other watermark set =>
        mem_after (sound.running.ended other watermark ((terminal other).symm.trans set)) _
      poisoned := by
        intro other earlier member poison
        by_cases same : other = partition
        · subst same
          rcases mem_cases member with member | new
          · simp [sound.running.poisoned _ _ member poison]
          · cases new
            simp [poison]
        · rw [Function.update_of_ne same]
          refine sound.running.poisoned other earlier (mem_before member ?_) poison
          rintro ⟨⟩
          exact same rfl
      exclusive := by
        intro other poisoned
        rw [terminal]
        by_cases same : other = partition
        · rwa [same]
        · rw [Function.update_of_ne same] at poisoned
          exact sound.running.exclusive other poisoned
      reported := by
        intro other earlier member
        rcases mem_cases member with member | new
        · exact sound.running.reported other earlier member
        · cases new
          exact opened
      sent := by
        intro other earlier member
        rcases mem_cases member with member | new
        · exact mem_after (sound.running.sent other earlier member) _
        · cases new
          exact mem_last _ _ }
    opening := sound.opening.append (by simp)
    held := by
      intro delivery held found
      have before := sound.held delivery held found
      refine {
        parts := by
          obtain ⟨cursors, started, same⟩ := before.parts
          refine ⟨cursors, mem_after started _, ?_⟩
          rw [openedParts_append (by simp), droppedParts_append (by simp)]
          exact same
        lanes := fun other part member => ?_
        overwritten := fun other part earlier overwrite member sent is => ?_
        done := fun _ same => before.done_append same
        refused := fun key error member => before.refused key error (mem_before member (by simp)) }
      · refine (before.lanes other part (mem_before member (by simp))).imp_right fun retired => ?_
        obtain ⟨watermark, set, committed⟩ := retired.watermark
        refine ⟨⟨watermark, (terminal other).trans set, committed.imp_right (mem_after · _)⟩, ?_⟩
        intro earlier waits
        rcases mem_cases waits with waits | new
        · exact retired.read earlier waits
        · cases new
          rw [unset] at set
          cases set
      · rcases mem_cases sent with sent | new
        · exact (before.overwritten other part earlier overwrite
            (mem_before member (by simp)) sent is).imp_left
            (List.mem_append_left _)
        · cases new
          exact .inl (List.mem_append_right _ (by simp))
    known := sound.known.append (by simp) (by simp)
    acks := by
      have acks : AcksSound cap (history ++ [.reported partition report]) deliveries threads
          nextDelivery := sound.acks.append (by simp) (by simp) (by simp)
      exact { acks with
        ended := fun delivery receipt reply acked other part member => by
          rw [terminal]
          exact acks.ended delivery receipt reply acked other part member } }

theorem SoundAt.terminal
    (sound : SoundAt cap history deliveries lanes threads channel nextDelivery nextLane)
    (unset : (threads partition).terminal = none) (clean : (threads partition).poisoned = false)
    (ended : .ended partition watermark ∈ history) :
    SoundAt cap history deliveries lanes
      (Function.update threads partition { threads partition with terminal := some watermark })
      channel nextDelivery nextLane := by
  have earlier : ∀ other old, (threads other).terminal = some old →
      (Function.update threads partition { threads partition with terminal := some watermark }
        other).terminal = some old := by
    intro other old set
    have different : other ≠ partition := by
      rintro rfl
      rw [unset] at set
      cases set
    rwa [Function.update_of_ne different]
  exact {
    running := {
      ended := by
        intro other last set
        by_cases same : other = partition
        · subst same
          rw [Function.update_self] at set
          exact Option.some.inj set ▸ ended
        · rw [Function.update_of_ne same] at set
          exact sound.running.ended other last set
      poisoned := by
        intro other report member poison
        have poisoned := sound.running.poisoned other report member poison
        by_cases same : other = partition
        · subst same
          rw [clean] at poisoned
          cases poisoned
        · rwa [Function.update_of_ne same]
      exclusive := by
        intro other poisoned
        by_cases same : other = partition
        · subst same
          rw [Function.update_self, clean] at poisoned
          cases poisoned
        · rw [Function.update_of_ne same] at poisoned ⊢
          exact sound.running.exclusive other poisoned
      reported := sound.running.reported
      sent := sound.running.sent }
    opening := sound.opening
    held := by
      intro delivery held found
      have before := sound.held delivery held found
      refine { before with lanes := fun other part member => ?_ }
      refine (before.lanes other part member).imp_right fun retired => ?_
      obtain ⟨last, set, committed⟩ := retired.watermark
      exact ⟨⟨last, earlier other last set, committed⟩, retired.read⟩
    known := sound.known
    acks := { sound.acks with
      ended := fun delivery receipt reply acked other part member => by
        obtain ⟨last, set⟩ := Option.isSome_iff_exists.mp
          (sound.acks.ended delivery receipt reply acked other part member)
        rw [earlier other last set]
        rfl } }

/-! ## Changes to one delivery -/

/-- A delivery changes in place; its lanes stay. The history may be longer, as long as
every other part of the invariant holds of it. -/
theorem SoundAt.replace (running : ThreadsSound history threads channel nextLane)
    (opening : LanesSound history deliveries lanes nextDelivery nextLane)
    (known : KnownSound history nextDelivery)
    (acks : AcksSound cap history deliveries threads nextDelivery)
    (found : deliveries[delivery]? = some held)
    (others : ∀ (other : Nat) unit, other ≠ delivery → deliveries[other]? = some unit →
      HeldSound cap history threads channel other unit) {f : HeldUnit → HeldUnit}
    (lanesKept : (f held).lanes = held.lanes)
    (fits : HeldSound cap history threads channel delivery (f held))
    (unfinished : held.finished ≠ true) :
    SoundAt cap history (deliveries.modify delivery f) lanes threads channel nextDelivery
      nextLane := by
  exact {
    running := running
    opening := { opening with
      lane := by
        intro partition lane there
        obtain ⟨⟨old, at', mem⟩, rest⟩ := opening.lane partition lane there
        by_cases same : lane.delivery = delivery
        · rw [same, found] at at'
          obtain rfl := Option.some.inj at'
          exact ⟨⟨f held, modify_there found same, lanesKept ▸ mem⟩, rest⟩
        · exact ⟨⟨old, (modify_other same).trans at', mem⟩, rest⟩
      held := by
        intro other changed there partition mem
        rcases lookup_modify found there with ⟨rfl, rfl⟩ | ⟨-, there⟩
        · exact opening.held other held found partition (lanesKept ▸ mem)
        · exact opening.held other changed there partition mem
      deliveries := by
        intro other changed there
        rcases lookup_modify found there with ⟨rfl, rfl⟩ | ⟨-, there⟩
        · exact opening.deliveries other held found
        · exact opening.deliveries other changed there }
    held := by
      intro other changed there
      rcases lookup_modify found there with ⟨rfl, rfl⟩ | ⟨different, there⟩
      · exact fits
      · exact others other changed different there
    known := known
    acks := { acks with
      finished := by
        intro other receipt reply acked changed there
        rcases lookup_modify found there with ⟨rfl, rfl⟩ | ⟨-, there⟩
        · exact absurd (acks.finished other receipt reply acked held found) unfinished
        · exact acks.finished other receipt reply acked changed there } }

theorem not_finished_of_lane (mem : partition ∈ held.lanes) : held.finished ≠ true := by
  intro finished
  simp only [HeldUnit.finished, Bool.and_eq_true, List.isEmpty_iff] at finished
  simp [finished.1.2] at mem

theorem not_finished_of_publishing
    (published : held.overwritten[key]? = some (.publishing confirmation)) :
    held.finished ≠ true := by
  intro finished
  simp only [HeldUnit.finished, HeldUnit.confirmed, Bool.and_eq_true, List.all_eq_true] at finished
  rw [← TreeMap.mem_toList_iff_getElem?_eq_some] at published
  have settled := finished.2 _ published
  simp [ReEnqueue.isPublishing] at settled

/-! ## Reports are read -/

/-- A report leaves the channel once every delivery it concerns knows of it. -/
theorem SoundAt.pop {rest : List (PartitionId × PoisonReport)}
    (sound : SoundAt cap history deliveries lanes threads ((partition, report) :: rest) nextDelivery
      nextLane)
    (read : ∀ (delivery : Nat) held part overwrite, deliveries[delivery]? = some held →
      .opened delivery partition part ∈ history → report.overwrite = some overwrite →
      overwrite.key ∈ held.overwritten) :
    SoundAt cap history deliveries lanes threads rest nextDelivery nextLane where
  running := { sound.running with
    sent := fun other earlier mem => sound.running.sent other earlier (List.mem_cons_of_mem _ mem) }
  opening := sound.opening
  held delivery held found := by
    have before := sound.held delivery held found
    refine { before with
      lanes := fun other part mem => ?_
      overwritten := fun other part earlier overwrite mem sent is => ?_ }
    · refine (before.lanes other part mem).imp_right fun retired => ⟨retired.watermark, ?_⟩
      exact fun earlier waits => retired.read earlier (List.mem_cons_of_mem _ waits)
    · rcases before.overwritten other part earlier overwrite mem sent is with waits | known
      · rcases List.mem_cons.mp waits with same | waits
        · obtain ⟨rfl, rfl⟩ := Prod.mk.inj same
          exact .inr (read delivery held part overwrite found mem is)
        · exact .inl waits
      · exact .inr known
  known := sound.known
  acks := sound.acks

/-- A report of a lane the reader no longer holds concerns no delivery. -/
theorem SoundAt.pop_unheld {rest : List (PartitionId × PoisonReport)}
    (sound : SoundAt cap history deliveries lanes threads ((partition, report) :: rest) nextDelivery
      nextLane) (gone : lanes[partition]? = none) :
    SoundAt cap history deliveries lanes threads rest nextDelivery nextLane := by
  refine sound.pop fun delivery held part overwrite found mem is => ?_
  rcases (sound.held delivery held found).lanes partition part mem with held' | retired
  · obtain ⟨lane, there, -⟩ := sound.opening.held delivery held found partition held'
    rw [gone] at there
    cases there
  · exact absurd List.mem_cons_self (retired.read report)

theorem SoundAt.poison {reason : String}
    (sound : SoundAt cap history deliveries lanes threads channel nextDelivery nextLane)
    (found : lanes[partition]? = some lane) :
    SoundAt cap history (deliveries.modify lane.delivery fun held =>
      { held with failing := some reason }) lanes threads channel nextDelivery nextLane := by
  obtain ⟨⟨held, there, mem⟩, -⟩ := sound.opening.lane partition lane found
  have before := sound.held _ held there
  exact .replace sound.running sound.opening sound.known sound.acks there
    (fun other unit _ at' => sound.held other unit at') rfl
    { before with done := fun _ _ => .inl rfl } (not_finished_of_lane mem)

theorem mem_insert {other : String} {overwritten : TreeMap String ReEnqueue}
    (mem : other ∈ overwritten) : other ∈ overwritten.insert key reEnqueue := by
  simp [mem]

theorem partition_parts (pending : List Cursor) (key : String) :
    ((pending.filter fun cursor => cursor.key = key).flatMap Cursor.parts ++
      (pending.filter fun cursor => cursor.key ≠ key).flatMap Cursor.parts).Perm
        (pending.flatMap Cursor.parts) := by
  rw [← List.flatMap_append]
  refine List.Perm.flatMap_right _ ?_
  have split := List.filter_append_perm (fun cursor : Cursor => decide (cursor.key = key)) pending
  simpa using split

theorem HeldSound.insert (sound : HeldSound cap history threads channel delivery held)
    (done : reEnqueue = .done →
      held.failing.isSome = true ∨ .confirmed delivery key none ∈ history ∨
      ∃ part overwrite, Overwrote history delivery part overwrite ∧ overwrite.key = key ∧
        (overwrite.size = 0 ∨ cap ≤ part.reEnqueues))
    (refused : ∀ error, .confirmed delivery key (some error) ∈ history → ∃ confirmation last,
      reEnqueue = .publishing confirmation ∧ confirmation.outcome = some (some last)) :
    HeldSound cap history threads channel delivery
      { held with overwritten := held.overwritten.insert key reEnqueue } where
  parts := sound.parts
  lanes := sound.lanes
  overwritten partition part report overwrite opened sent is :=
    (sound.overwritten partition part report overwrite opened sent is).imp_right mem_insert
  done other same := by
    rcases lookup_insert same with ⟨rfl, settled⟩ | ⟨-, same⟩
    · exact done settled.symm
    · exact sound.done other same
  refused other error member := by
    by_cases same : other = key
    · subst same
      obtain ⟨confirmation, last, same, outcome⟩ := refused error member
      exact ⟨confirmation, last, TreeMap.getElem?_insert_self.trans (congrArg some same), outcome⟩
    · rw [insert_other same]
      exact sound.refused other error member

theorem HeldSound.drop (sound : HeldSound cap history threads channel delivery held)
    (key : String) :
    HeldSound cap
      (history ++ [.dropped delivery (held.pending.filter fun cursor => cursor.key = key)])
      threads channel delivery
      { held with pending := held.pending.filter fun cursor => cursor.key ≠ key } where
  parts := by
    obtain ⟨cursors, started, same⟩ := sound.parts
    refine ⟨cursors, mem_after started _, List.Perm.trans ?_ same⟩
    rw [openedParts_append (by simp), droppedParts, List.flatMap_append, ← droppedParts]
    simp only [List.flatMap_cons, List.flatMap_nil, if_true, List.append_nil, List.append_assoc]
    exact ((partition_parts held.pending key).append_left _).append_left _
  lanes partition part member :=
    (sound.lanes partition part (mem_before member (by simp))).imp_right (·.append _)
  overwritten partition part report overwrite member sent :=
    sound.overwritten partition part report overwrite (mem_before member (by simp))
      (mem_before sent (by simp))
  done _ same := sound.done_append same
  refused key error member := sound.refused key error (mem_before member (by simp))

/-- A key is overwritten: its unopened parts are dropped, and its re-enqueue is published
unless there is no need. -/
theorem SoundAt.overwrite {overwrite : Overwrite}
    (sound : SoundAt cap history deliveries lanes threads channel nextDelivery nextLane)
    (found : lanes[partition]? = some lane) (there : deliveries[lane.delivery]? = some held)
    (new : overwrite.key ∉ held.overwritten) (sent : .reported partition report ∈ history)
    (is : report.overwrite = some overwrite)
    (needless : reEnqueue = .done → held.failing.isSome = true ∨ overwrite.size = 0 ∨
      cap ≤ lane.reEnqueues) :
    SoundAt cap (history ++ [.dropped lane.delivery
        (held.pending.filter fun cursor => cursor.key = overwrite.key)])
      (deliveries.modify lane.delivery fun held => { held with
        pending := held.pending.filter fun cursor => cursor.key ≠ overwrite.key
        overwritten := held.overwritten.insert overwrite.key reEnqueue })
      lanes threads channel nextDelivery nextLane := by
  obtain ⟨⟨held', at', mem⟩, part, opened, count⟩ := sound.opening.lane partition lane found
  obtain rfl := Option.some.inj (there.symm.trans at')
  have before := sound.held _ held there
  have overwrote : Overwrote history lane.delivery part overwrite :=
    ⟨partition, report, opened, sent, is⟩
  refine .replace (sound.running.append (by simp)) (sound.opening.append (by simp)) ?_
    (sound.acks.append (by simp) (by simp) (by simp)) there ?_ rfl ?_ (not_finished_of_lane mem)
  · refine ⟨fun delivery cursors member => ?_, fun delivery key reply member =>
      sound.known.confirmed delivery key reply (mem_before member (by simp))⟩
    rcases mem_cases member with member | last
    · exact sound.known.dropped_append member
    · cases last
      refine ⟨sound.opening.deliveries _ held there, fun cursor mem => ?_⟩
      refine ⟨part, overwrite, overwrote.append _, ?_⟩
      simpa [eq_comm] using (List.mem_filter.mp mem).2
  · intro other unit different at'
    refine (sound.held other unit at').append (by simp) (fun cursors same => ?_) (by simp) (by simp)
    exact different (Happening.dropped.inj same).1.symm
  · refine (before.drop overwrite.key).insert (fun done => ?_) fun error member => ?_
    · rcases needless done with failing | rest
      · exact .inl failing
      · exact .inr (.inr ⟨part, overwrite, overwrote.append _, rfl, count ▸ rest⟩)
    · obtain ⟨confirmation, last, there, -⟩ :=
        before.refused overwrite.key error (mem_before member (by simp))
      rw [TreeMap.mem_iff_isSome_getElem?, there] at new
      exact absurd rfl new

/-! ## Re-enqueues are answered -/

theorem KnownSound.answered (sound : KnownSound history nextDelivery)
    (there : delivery < nextDelivery) (key : String) (reply : Reply) :
    KnownSound (history ++ [.confirmed delivery key reply]) nextDelivery where
  dropped _ _ member := sound.dropped_append (mem_before member (by simp))
  confirmed other key reply member := by
    rcases mem_cases member with member | last
    · exact sound.confirmed other key reply member
    · cases last
      exact there

theorem SoundAt.confirmed
    (sound : SoundAt cap history deliveries lanes threads channel nextDelivery nextLane)
    (there : deliveries[delivery]? = some held)
    (published : held.overwritten[key]? = some (.publishing confirmation))
    (unrefused : ∀ error, confirmation.outcome ≠ some (some error)) :
    SoundAt cap (history ++ [.confirmed delivery key none])
      (deliveries.modify delivery fun held =>
        { held with overwritten := held.overwritten.insert key .done })
      lanes threads channel nextDelivery nextLane := by
  have before := sound.held _ held there
  refine .replace (sound.running.append (by simp)) (sound.opening.append (by simp))
    (sound.known.answered (sound.opening.deliveries _ held there) key none)
    (sound.acks.append (by simp) (by simp) (by simp)) there
    (fun other unit _ at' => (sound.held other unit at').append (by simp) (by simp) (by simp)
      (by simp))
    rfl ?_ (not_finished_of_publishing published)
  refine (before.append (by simp) (by simp) (by simp) (by simp)).insert
    (fun _ => .inr (.inl (mem_last _ _))) fun error member => ?_
  obtain ⟨last, reply, same, outcome⟩ := before.refused key error (mem_before member (by simp))
  rw [published] at same
  cases same
  exact absurd outcome (unrefused reply)

theorem SoundAt.refused
    (sound : SoundAt cap history deliveries lanes threads channel nextDelivery nextLane)
    (there : deliveries[delivery]? = some held)
    (published : held.overwritten[key]? = some (.publishing confirmation)) (error : FeedError)
    (reason : Option String) :
    SoundAt cap (history ++ [.confirmed delivery key (some error)])
      (deliveries.modify delivery fun held => { held with
        overwritten := held.overwritten.insert key (.publishing ⟨some (some error)⟩)
        failing := held.failing.or reason })
      lanes threads channel nextDelivery nextLane := by
  have before := sound.held _ held there
  have unacked : ∀ receipt reply, .acknowledged delivery receipt reply ∉ history :=
    fun receipt reply acked => absurd (sound.acks.finished delivery receipt reply acked held there)
      (not_finished_of_publishing published)
  refine .replace (sound.running.append (by simp)) (sound.opening.append (by simp))
    (sound.known.answered (sound.opening.deliveries _ held there) key (some error))
    ?_ there ?_ rfl ?_ (not_finished_of_publishing published)
  · refine sound.acks.append (by simp) (by simp) fun other key' error' same => ?_
    cases same
    exact unacked
  · intro other unit different at'
    refine (sound.held other unit at').append (by simp) (by simp) (by simp) ?_
    intro key' error' same
    exact absurd (Happening.confirmed.inj same).1.symm different
  · have settled : HeldSound cap history threads channel delivery { held with
        overwritten := held.overwritten.insert key (.publishing ⟨some (some error)⟩) } :=
      before.insert (by simp) fun _ _ => ⟨_, error, rfl, rfl⟩
    have answered : HeldSound cap (history ++ [.confirmed delivery key (some error)]) threads
      channel
        delivery { held with
          overwritten := held.overwritten.insert key (.publishing ⟨some (some error)⟩) } := by
      refine settled.append (by simp) (by simp) (by simp) fun key' error' same => ?_
      obtain ⟨-, rfl, -⟩ := Happening.confirmed.inj same
      exact ⟨_, error, TreeMap.getElem?_insert_self, rfl⟩
    exact { answered with
      done := fun other same => (answered.done other same).imp_left fun failing => by
        rw [Option.isSome_or, failing, Bool.true_or] }

/-! ## Lanes and deliveries leave -/

theorem SoundAt.retire
    (sound : SoundAt cap history deliveries lanes threads channel nextDelivery nextLane)
    (found : lanes[partition]? = some lane)
    (terminal : (threads partition).terminal = some watermark)
    (committed : watermark = 0 ∨ lane.lastCommitted = some watermark)
    (read : ∀ report, (partition, report) ∉ channel) :
    SoundAt cap history
      (deliveries.modify lane.delivery fun held =>
        { held with lanes := held.lanes.filter fun other => other ≠ partition })
      (lanes.erase partition) threads channel nextDelivery nextLane := by
  obtain ⟨⟨held, there, mem⟩, -⟩ := sound.opening.lane partition lane found
  exact {
    running := sound.running
    opening := { sound.opening with
      lane := by
        intro other state present
        obtain ⟨different, present⟩ := lookup_erase present
        obtain ⟨⟨unit, at', mem⟩, rest⟩ := sound.opening.lane other state present
        by_cases same : state.delivery = lane.delivery
        · rw [same, there] at at'
          obtain rfl := Option.some.inj at'
          have stays : other ∈ held.lanes.filter fun other => other ≠ partition :=
            List.mem_filter.mpr ⟨mem, by simpa using different⟩
          exact ⟨⟨_, modify_there there same, stays⟩, rest⟩
        · exact ⟨⟨unit, (modify_other same).trans at', mem⟩, rest⟩
      held := by
        intro other unit present partition' mem'
        rcases lookup_modify there present with ⟨rfl, rfl⟩ | ⟨different, present⟩
        · obtain ⟨mem', different⟩ := List.mem_filter.mp mem'
          rw [erase_other (by simpa using different)]
          exact sound.opening.held _ held there partition' mem'
        · obtain ⟨state, at', same⟩ := sound.opening.held other unit present partition' mem'
          refine ⟨state, ?_, same⟩
          rw [erase_other]
          · exact at'
          · rintro rfl
            obtain rfl := Option.some.inj (found.symm.trans at')
            exact different same.symm
      committed := fun other state last present =>
        sound.opening.committed other state last (lookup_erase present).2
      deliveries := by
        intro other unit present
        rcases lookup_modify there present with ⟨rfl, rfl⟩ | ⟨-, present⟩
        · exact sound.opening.deliveries _ held there
        · exact sound.opening.deliveries other unit present }
    held := by
      intro other unit present
      rcases lookup_modify there present with ⟨rfl, rfl⟩ | ⟨-, present⟩
      · have before := sound.held _ held there
        refine { before with lanes := fun partition' part member => ?_ }
        by_cases same : partition' = partition
        · subst same
          refine .inr ⟨⟨watermark, terminal, committed.imp_right ?_⟩, read⟩
          exact sound.opening.committed partition' lane watermark found
        · refine (before.lanes partition' part member).imp_left fun mem => ?_
          exact List.mem_filter.mpr ⟨mem, by simpa⟩
      · exact sound.held other unit present
    known := sound.known
    acks := { sound.acks with
      finished := by
        intro other receipt reply acked unit present
        rcases lookup_modify there present with ⟨rfl, rfl⟩ | ⟨-, present⟩
        · exact absurd (sound.acks.finished _ receipt reply acked held there)
            (not_finished_of_lane mem)
        · exact sound.acks.finished other receipt reply acked unit present } }

theorem SoundAt.release
    (sound : SoundAt cap history deliveries lanes threads channel nextDelivery nextLane)
    (there : deliveries[delivery]? = some held) :
    SoundAt cap history (deliveries.erase delivery)
      (held.lanes.foldl (fun lanes partition => lanes.erase partition) lanes) threads channel
      nextDelivery nextLane := by
  have left : ∀ partition state,
      (held.lanes.foldl (fun lanes partition => lanes.erase partition) lanes)[partition]? =
        some state → partition ∉ held.lanes ∧ lanes[partition]? = some state := by
    intro partition state present
    rw [getElem?_eraseAll] at present
    split at present
    · cases present
    · exact ⟨‹_›, present⟩
  exact {
    running := sound.running
    opening := { sound.opening with
      lane := by
        intro partition state present
        obtain ⟨out, present⟩ := left partition state present
        obtain ⟨⟨unit, at', mem⟩, rest⟩ := sound.opening.lane partition state present
        refine ⟨⟨unit, ?_, mem⟩, rest⟩
        rw [erase_other]
        · exact at'
        · rintro rfl
          obtain rfl := Option.some.inj (there.symm.trans at')
          exact out mem
      held := by
        intro other unit present partition mem
        obtain ⟨different, present⟩ := lookup_erase present
        obtain ⟨state, at', same⟩ := sound.opening.held other unit present partition mem
        refine ⟨state, ?_, same⟩
        rw [getElem?_eraseAll, if_neg]
        · exact at'
        · intro ours
          obtain ⟨state', at'', same'⟩ := sound.opening.held delivery held there partition ours
          obtain rfl := Option.some.inj (at'.symm.trans at'')
          exact different (same.symm.trans same')
      committed := fun partition state last present =>
        sound.opening.committed partition state last (left partition state present).2
      deliveries := fun other unit present =>
        sound.opening.deliveries other unit (lookup_erase present).2 }
    held := fun other unit present => sound.held other unit (lookup_erase present).2
    known := sound.known
    acks := { sound.acks with
      finished := fun other receipt reply acked unit present =>
        sound.acks.finished other receipt reply acked unit (lookup_erase present).2 } }

/-! ## A finished delivery is acknowledged -/

theorem finished_iff : held.finished = true ↔ held.failing = none ∧ held.pending = [] ∧
    held.lanes = [] ∧ ∀ (key : String) reEnqueue, held.overwritten[key]? = some reEnqueue →
      reEnqueue = .done := by
  have done : ∀ reEnqueue : ReEnqueue, (!reEnqueue.isPublishing) = true ↔ reEnqueue = .done := by
    intro reEnqueue
    cases reEnqueue <;> simp [ReEnqueue.isPublishing]
  simp only [HeldUnit.finished, HeldUnit.confirmed, Bool.and_eq_true, List.isEmpty_iff,
    Option.isNone_iff_eq_none, List.all_eq_true, Prod.forall, done,
    TreeMap.mem_toList_iff_getElem?_eq_some, and_assoc]

theorem HeldSound.retired (sound : HeldSound cap history threads channel delivery held)
    (empty : held.lanes = []) {part : Part} (opened : .opened delivery partition part ∈ history) :
    Retired history threads channel partition := by
  rcases sound.lanes partition part opened with mem | retired
  · rw [empty] at mem
    cases mem
  · exact retired

theorem HeldSound.ackRule (sound : HeldSound cap history threads channel delivery held)
    (running : ThreadsSound history threads channel nextLane)
    (known : KnownSound history nextDelivery) (finished : held.finished = true) :
    AckRule cap history delivery held.receipt := by
  obtain ⟨unfailing, opened, empty, settled⟩ := finished_iff.mp finished
  exact {
    parts := by
      obtain ⟨cursors, started, same⟩ := sound.parts
      rw [opened, List.flatMap_nil, List.append_nil] at same
      exact ⟨cursors, started, same⟩
    lanes := by
      intro partition part member
      obtain ⟨watermark, terminal, committed⟩ := (sound.retired empty member).watermark
      exact ⟨watermark, running.ended partition watermark terminal, committed⟩
    dropped := fun cursors member => (known.dropped delivery cursors member).2
    unpoisoned := by
      intro partition part report member sent poison
      obtain ⟨watermark, terminal, -⟩ := (sound.retired empty member).watermark
      have unset := running.exclusive partition (running.poisoned partition report sent poison)
      rw [terminal] at unset
      cases unset
    reEnqueued := by
      rintro part overwrite ⟨partition, report, member, sent, is⟩
      rcases sound.overwritten partition part report overwrite member sent is with waits | read
      · exact absurd waits ((sound.retired empty member).read report)
      · rw [TreeMap.mem_iff_isSome_getElem?, Option.isSome_iff_exists] at read
        obtain ⟨reEnqueue, present⟩ := read
        obtain rfl := settled _ reEnqueue present
        rcases sound.done overwrite.key present with failing | rest
        · rw [unfailing] at failing
          cases failing
        · exact rest }

theorem SoundAt.acknowledge
    (sound : SoundAt cap history deliveries lanes threads channel nextDelivery nextLane)
    (there : deliveries[delivery]? = some held) (finished : held.finished = true) (reply : Reply) :
    SoundAt cap (history ++ [.acknowledged delivery held.receipt reply]) deliveries lanes threads
      channel nextDelivery nextLane := by
  have before := sound.held delivery held there
  obtain ⟨-, -, empty, settled⟩ := finished_iff.mp finished
  exact {
    running := sound.running.append (by simp)
    opening := sound.opening.append (by simp)
    held := fun other unit at' =>
      (sound.held other unit at').append (by simp) (by simp) (by simp) (by simp)
    known := sound.known.append (by simp) (by simp)
    acks := {
      rule := fun earlier after other receipt answer =>
        acks_append (fun earlier after => sound.acks.rule earlier after other receipt answer)
          (fun same => by
            obtain ⟨rfl, rfl, -⟩ := Happening.acknowledged.inj same
            exact before.ackRule sound.running sound.known finished) earlier after
      known := by
        intro other receipt answer member
        rcases mem_cases member with member | last
        · exact sound.acks.known other receipt answer member
        · cases last
          exact sound.opening.deliveries _ held there
      finished := by
        intro other receipt answer member unit at'
        rcases mem_cases member with member | last
        · exact sound.acks.finished other receipt answer member unit at'
        · cases last
          obtain rfl := Option.some.inj (there.symm.trans at')
          exact finished
      ended := by
        intro other receipt answer member partition part later
        have opened := mem_before later (by simp)
        rcases mem_cases member with member | last
        · exact sound.acks.ended other receipt answer member partition part opened
        · cases last
          obtain ⟨watermark, terminal, -⟩ := (before.retired empty opened).watermark
          rw [terminal]
          rfl
      confirmed := by
        intro other receipt answer member key error later
        have refused := mem_before later (by simp)
        rcases mem_cases member with member | last
        · exact sound.acks.confirmed other receipt answer member key error refused
        · cases last
          obtain ⟨confirmation, last, present, -⟩ := before.refused key error refused
          cases settled key _ present } }

/-! ## Deliveries and lanes start -/

theorem openedParts_unknown
    (unknown : ∀ partition part, .opened delivery partition part ∉ history) :
    openedParts delivery history = [] := by
  refine List.filterMap_eq_nil_iff.mpr fun happening member => ?_
  cases happening with
  | opened other partition part =>
    refine if_neg ?_
    rintro rfl
    exact unknown partition part member
  | _ => rfl

theorem droppedParts_unknown (unknown : ∀ cursors, .dropped delivery cursors ∉ history) :
    droppedParts delivery history = [] := by
  refine List.flatMap_eq_nil_iff.mpr fun happening member => ?_
  cases happening with
  | dropped other cursors =>
    refine if_neg ?_
    rintro rfl
    exact unknown cursors member
  | _ => rfl

theorem SoundAt.hold {receipt : Nat} {unit : String} {cursors : List Cursor}
    (sound : SoundAt cap history deliveries lanes threads channel nextDelivery nextLane)
    (started : .held nextDelivery receipt cursors ∈ history) :
    SoundAt cap history
      (deliveries.insert nextDelivery { receipt := receipt, unit := unit, pending := cursors })
      lanes threads channel (nextDelivery + 1) nextLane := by
  have unopened : ∀ partition part, .opened nextDelivery partition part ∉ history :=
    fun partition part member => Nat.lt_irrefl _ (sound.opening.opened _ partition part member).2
  have undropped : ∀ cursors, .dropped nextDelivery cursors ∉ history :=
    fun cursors member => Nat.lt_irrefl _ (sound.known.dropped _ cursors member).1
  exact {
    running := sound.running
    opening := { sound.opening with
      opened := fun delivery partition part member =>
        (sound.opening.opened delivery partition part member).imp_right (Nat.lt_succ_of_lt ·)
      lane := by
        intro partition lane found
        obtain ⟨⟨held, there, mem⟩, rest⟩ := sound.opening.lane partition lane found
        refine ⟨⟨held, ?_, mem⟩, rest⟩
        rw [insert_other (Nat.ne_of_lt (sound.opening.deliveries _ held there))]
        exact there
      held := by
        intro other held present partition mem
        rcases lookup_insert present with ⟨rfl, rfl⟩ | ⟨-, present⟩
        · cases mem
        · exact sound.opening.held other held present partition mem
      deliveries := by
        intro other held present
        rcases lookup_insert present with ⟨rfl, -⟩ | ⟨-, present⟩
        · exact Nat.lt_succ_self _
        · exact Nat.lt_succ_of_lt (sound.opening.deliveries other held present) }
    held := by
      intro other held present
      rcases lookup_insert present with ⟨rfl, rfl⟩ | ⟨-, present⟩
      · exact {
          parts := ⟨cursors, started, by
            rw [openedParts_unknown unopened, droppedParts_unknown undropped]
            exact List.Perm.refl _⟩
          lanes := fun partition part member => absurd member (unopened partition part)
          overwritten := fun partition part report overwrite member =>
            absurd member (unopened partition part)
          done := fun key same => by simp at same
          refused := fun key error member =>
            absurd (sound.known.confirmed _ key _ member) (Nat.lt_irrefl _) }
      · exact sound.held other held present
    known := {
      dropped := fun delivery cursors member =>
        (sound.known.dropped delivery cursors member).imp_left (Nat.lt_succ_of_lt ·)
      confirmed := fun delivery key reply member =>
        Nat.lt_succ_of_lt (sound.known.confirmed delivery key reply member) }
    acks := { sound.acks with
      known := fun delivery receipt reply member =>
        Nat.lt_succ_of_lt (sound.acks.known delivery receipt reply member)
      finished := by
        intro other receipt reply acked held present
        rcases lookup_insert present with ⟨rfl, -⟩ | ⟨-, present⟩
        · exact absurd (sound.acks.known _ receipt reply acked) (Nat.lt_irrefl _)
        · exact sound.acks.finished other receipt reply acked held present } }

theorem Cursor.parts_next (cursor : Cursor) :
    cursor.parts = cursor.next.1 :: cursor.next.2.flatMap Cursor.parts := by
  unfold Cursor.next
  cases h : cursor.ranges with
  | nil => simp [Cursor.parts, h]
  | cons range ranges => simp [Cursor.parts, h, Cursor.part]

theorem openedParts_opened (part : Part) :
    openedParts delivery (history ++ [.opened delivery partition part]) =
      openedParts delivery history ++ [part] := by
  simp [openedParts]

theorem HeldSound.openPart (sound : HeldSound cap history threads channel delivery held)
    (running : ThreadsSound history threads channel nextLane) {cursor : Cursor} {rest : List Cursor}
    (pending : held.pending = cursor :: rest) :
    HeldSound cap (history ++ [.opened delivery nextLane cursor.next.1]) threads channel delivery
      { held with pending := cursor.next.2 ++ rest, lanes := held.lanes ++ [nextLane] } where
  parts := by
    obtain ⟨cursors, started, same⟩ := sound.parts
    refine ⟨cursors, mem_after started _, List.Perm.trans ?_ same⟩
    rw [openedParts_opened, droppedParts_append (by simp), pending, List.flatMap_append,
      List.flatMap_cons, cursor.parts_next]
    simp only [List.append_assoc, List.cons_append, List.nil_append]
    exact List.Perm.append_left _ List.perm_middle.symm
  lanes partition part member := by
    rcases mem_cases member with member | last
    · exact (sound.lanes partition part member).imp (List.mem_append_left _) (·.append _)
    · cases last
      exact .inl (List.mem_append_right _ (by simp))
  overwritten partition part report overwrite member later is := by
    have sent := mem_before later (by simp)
    rcases mem_cases member with member | last
    · exact sound.overwritten partition part report overwrite member sent is
    · cases last
      exact absurd (running.reported _ report sent) (Nat.lt_irrefl _)
  done _ same := sound.done_append same
  refused key error member := sound.refused key error (mem_before member (by simp))

theorem LanesSound.openPart
    (sound : LanesSound history deliveries lanes nextDelivery nextLane)
    (there : deliveries[delivery]? = some held) (part : Part) (pending : List Cursor) :
    LanesSound (history ++ [.opened delivery nextLane part])
      (deliveries.modify delivery fun held =>
        { held with pending := pending, lanes := held.lanes ++ [nextLane] })
      (lanes.insert nextLane { delivery := delivery, reEnqueues := part.reEnqueues })
      nextDelivery (nextLane + 1) := by
  have older : ∀ other partition part', .opened other partition part' ∈ history →
      partition ≠ nextLane := fun other partition part' member =>
    Nat.ne_of_lt (sound.opened other partition part' member).1
  have kept : ∀ (partition : PartitionId) lane, lanes[partition]? = some lane →
      (lanes.insert nextLane { delivery := delivery, reEnqueues := part.reEnqueues })[partition]? =
        some lane := by
    intro partition lane found
    obtain ⟨-, part', opened, -⟩ := sound.lane partition lane found
    rw [insert_other (older _ _ _ opened)]
    exact found
  exact {
    opened := by
      intro other partition part' member
      rcases mem_cases member with member | last
      · exact (sound.opened other partition part' member).imp_left (Nat.lt_succ_of_lt ·)
      · cases last
        exact ⟨Nat.lt_succ_self _, sound.deliveries _ held there⟩
    unique := by
      intro left right partition part' part'' first second
      rcases List.mem_append.mp first with first | last <;>
        rcases List.mem_append.mp second with second | last'
      · exact sound.unique left right partition part' part'' first second
      · obtain ⟨-, same, -⟩ := Happening.opened.inj (List.mem_singleton.mp last')
        exact absurd same (older _ _ _ ‹_›)
      · obtain ⟨-, same, -⟩ := Happening.opened.inj (List.mem_singleton.mp last)
        exact absurd same (older _ _ _ ‹_›)
      · obtain ⟨rfl, -, -⟩ := Happening.opened.inj (List.mem_singleton.mp last)
        obtain ⟨rfl, -, -⟩ := Happening.opened.inj (List.mem_singleton.mp last')
        rfl
    lane := by
      intro partition lane present
      rcases lookup_insert present with ⟨rfl, rfl⟩ | ⟨-, present⟩
      · exact ⟨⟨_, modify_there there rfl, List.mem_append_right _ (by simp)⟩,
          part, mem_last _ _, rfl⟩
      · obtain ⟨⟨unit, at', mem⟩, part', opened, count⟩ := sound.lane partition lane present
        refine ⟨?_, part', mem_after opened _, count⟩
        by_cases same : lane.delivery = delivery
        · rw [same, there] at at'
          obtain rfl := Option.some.inj at'
          exact ⟨_, modify_there there same, List.mem_append_left _ mem⟩
        · exact ⟨unit, (modify_other same).trans at', mem⟩
    held := by
      intro other unit present partition mem
      rcases lookup_modify there present with ⟨rfl, rfl⟩ | ⟨-, present⟩
      · rcases List.mem_append.mp mem with mem | last
        · obtain ⟨lane, found, same⟩ := sound.held other held there partition mem
          exact ⟨lane, kept partition lane found, same⟩
        · obtain rfl := List.mem_singleton.mp last
          exact ⟨_, TreeMap.getElem?_insert_self, rfl⟩
      · obtain ⟨lane, found, same⟩ := sound.held other unit present partition mem
        exact ⟨lane, kept partition lane found, same⟩
    committed := by
      intro partition lane watermark present last
      rcases lookup_insert present with ⟨rfl, rfl⟩ | ⟨-, present⟩
      · cases last
      · exact mem_after (sound.committed partition lane watermark present last) _
    deliveries := by
      intro other unit present
      rcases lookup_modify there present with ⟨rfl, rfl⟩ | ⟨-, present⟩
      · exact sound.deliveries other held there
      · exact sound.deliveries other unit present }

theorem SoundAt.openPart {cursor : Cursor} {rest : List Cursor}
    (sound : SoundAt cap history deliveries lanes threads channel nextDelivery nextLane)
    (there : deliveries[delivery]? = some held) (pending : held.pending = cursor :: rest) :
    SoundAt cap (history ++ [.opened delivery nextLane cursor.next.1])
      (deliveries.modify delivery fun held =>
        { held with pending := cursor.next.2 ++ rest, lanes := held.lanes ++ [nextLane] })
      (lanes.insert nextLane { delivery := delivery, reEnqueues := cursor.next.1.reEnqueues })
      threads channel nextDelivery (nextLane + 1) := by
  have unfinished : held.finished ≠ true := by
    intro finished
    rw [(finished_iff.mp finished).2.1] at pending
    cases pending
  exact {
    running := { sound.running.append (by simp) with
      reported := fun partition report member =>
        Nat.lt_succ_of_lt (sound.running.reported partition report (mem_before member (by simp))) }
    opening := sound.opening.openPart there cursor.next.1 (cursor.next.2 ++ rest)
    held := by
      intro other unit present
      rcases lookup_modify there present with ⟨rfl, rfl⟩ | ⟨different, present⟩
      · exact (sound.held other held there).openPart sound.running pending
      · refine (sound.held other unit present).append ?_ (by simp) (by simp) (by simp)
        intro partition part same
        exact different (Happening.opened.inj same).1.symm
    known := sound.known.append (by simp) (by simp)
    acks := by
      have acks : AcksSound cap (history ++ [.opened delivery nextLane cursor.next.1]) deliveries
          threads nextDelivery := by
        refine sound.acks.append (by simp) (fun other partition part same => ?_) (by simp)
        cases same
        exact fun receipt reply acked =>
          absurd (sound.acks.finished delivery receipt reply acked held there) unfinished
      refine { acks with finished := fun other receipt reply acked unit present => ?_ }
      rcases lookup_modify there present with ⟨rfl, rfl⟩ | ⟨-, present⟩
      · exact absurd (acks.finished other receipt reply acked held there) unfinished
      · exact acks.finished other receipt reply acked unit present }

/-! ## Lanes change in place -/

/-- The reader notes something about its lanes; each stays with its delivery. -/
theorem SoundAt.relane {noted : TreeMap PartitionId LaneState}
    (sound : SoundAt cap history deliveries lanes threads channel nextDelivery nextLane)
    (kept : ∀ (partition : PartitionId) lane, lanes[partition]? = some lane →
      ∃ state, noted[partition]? = some state ∧ state.delivery = lane.delivery)
    (old : ∀ (partition : PartitionId) state, noted[partition]? = some state →
      ∃ lane, lanes[partition]? = some lane ∧ state.delivery = lane.delivery ∧
        state.reEnqueues = lane.reEnqueues ∧ ∀ watermark, state.lastCommitted = some watermark →
          lane.lastCommitted = some watermark ∨ .committed partition watermark ∈ history) :
    SoundAt cap history deliveries noted threads channel nextDelivery nextLane :=
  { sound with
    opening := { sound.opening with
      lane := by
        intro partition state present
        obtain ⟨lane, found, same, count, -⟩ := old partition state present
        rw [same, count]
        exact sound.opening.lane partition lane found
      held := by
        intro delivery held there partition mem
        obtain ⟨lane, found, same⟩ := sound.opening.held delivery held there partition mem
        obtain ⟨state, present, kept⟩ := kept partition lane found
        exact ⟨state, present, kept.trans same⟩
      committed := by
        intro partition state watermark present last
        obtain ⟨lane, found, -, -, committed⟩ := old partition state present
        rcases committed watermark last with last | committed
        · exact sound.opening.committed partition lane watermark found last
        · exact committed } }

theorem SoundAt.noteCommit
    (sound : SoundAt cap history deliveries lanes threads channel nextDelivery nextLane)
    (found : lanes[partition]? = some lane) (committed : .committed partition watermark ∈ history) :
    SoundAt cap history deliveries
      (lanes.insert partition { lane with lastCommitted := some watermark }) threads channel
      nextDelivery nextLane := by
  refine sound.relane (fun other state present => ?_) fun other state present => ?_
  · by_cases same : other = partition
    · subst same
      obtain rfl := Option.some.inj (found.symm.trans present)
      exact ⟨_, TreeMap.getElem?_insert_self, rfl⟩
    · refine ⟨state, ?_, rfl⟩
      rw [insert_other same]
      exact present
  · rcases lookup_insert present with ⟨rfl, rfl⟩ | ⟨-, present⟩
    · refine ⟨lane, found, rfl, rfl, fun last same => .inr ?_⟩
      exact Option.some.inj same ▸ committed
    · exact ⟨state, present, rfl, rfl, fun _ => .inl⟩

theorem SoundAt.hint
    (sound : SoundAt cap history deliveries lanes threads channel nextDelivery nextLane)
    (partition : PartitionId) :
    SoundAt cap history deliveries
      (lanes.modify partition fun lane => { lane with hinted := true }) threads channel nextDelivery
      nextLane := by
  refine sound.relane (fun other state present => ?_) fun other state present => ?_
  · by_cases same : other = partition
    · subst same
      exact ⟨{ state with hinted := true }, modify_there present rfl, rfl⟩
    · exact ⟨state, (modify_other same).trans present, rfl⟩
  · by_cases same : other = partition
    · subst same
      rw [TreeMap.getElem?_modify_self] at present
      obtain ⟨lane, found, rfl⟩ := Option.map_eq_some_iff.mp present
      exact ⟨lane, found, rfl, rfl, fun _ => .inl⟩
    · exact ⟨state, (modify_other same).symm.trans present, rfl, rfl, fun _ => .inl⟩

end

/-! ## Every act, every call -/

namespace UnitReader

variable {r next : UnitReader}

theorem sound_laneEvent (sound : Sound r) (event : LaneEvent) : Sound (r.laneEvent event) := by
  cases event with
  | report partition report =>
    rw [laneEvent]
    split
    · rename_i runs
      unfold Sound
      rw [history_record]
      exact SoundAt.reported sound runs.1 runs.2 report
    · exact sound
  | terminal partition watermark =>
    rw [laneEvent]
    split
    · rename_i runs
      unfold Sound
      rw [history_record]
      exact SoundAt.terminal (SoundAt.append sound rfl) runs.2.1 runs.2.2 (mem_last _ _)
    · exact sound

theorem sound_overwriteHeld {partition : PartitionId} {report : PoisonReport}
    {rest : List (PartitionId × PoisonReport)} {lane : LaneState} {held : HeldUnit}
    {overwrite : Overwrite}
    (sound : SoundAt r.reEnqueueCap r.history r.deliveries r.lanes r.threads
      ((partition, report) :: rest) r.nextDelivery r.nextLane)
    (found : r.lanes[partition]? = some lane) (there : r.deliveries[lane.delivery]? = some held)
    (new : overwrite.key ∉ held.overwritten) (is : report.overwrite = some overwrite)
    (ours : ∀ delivery part, .opened delivery partition part ∈ r.history →
      delivery = lane.delivery) :
    Sound ({ r with channel := rest }.overwriteHeld lane held overwrite) := by
  have sent := sound.running.sent partition report List.mem_cons_self
  have told : ∀ reEnqueue : ReEnqueue, (reEnqueue = .done → held.failing.isSome = true ∨
      overwrite.size = 0 ∨ r.reEnqueueCap ≤ lane.reEnqueues) →
      Sound (({ r with channel := rest }.record (.dropped lane.delivery
        (held.pending.filter fun cursor => cursor.key = overwrite.key))).setHeld lane.delivery
          fun held => { held with
            pending := held.pending.filter fun cursor => cursor.key ≠ overwrite.key
            overwritten := held.overwritten.insert overwrite.key reEnqueue }) := by
    intro reEnqueue needless
    have read := (sound.overwrite found there new sent is needless).pop (by
      intro delivery unit part last present member same
      obtain rfl := Option.some.inj (is.symm.trans same)
      obtain rfl := ours delivery part (mem_before member (by simp))
      rcases lookup_modify there present with ⟨-, rfl⟩ | ⟨different, -⟩
      · simp
      · exact absurd rfl different)
    unfold Sound
    exact history_record { r with channel := rest } _ ▸ read
  unfold overwriteHeld
  dsimp only
  split
  · rename_i done
    exact told .done fun _ => by simpa [or_assoc] using done
  · have published := told (.publishing {}) (by simp)
    unfold Sound at published ⊢
    rw [history_record]
    exact published.append rfl

theorem sound_readReport {partition : PartitionId} {report : PoisonReport}
    {rest : List (PartitionId × PoisonReport)} (next : r.channel = (partition, report) :: rest)
    (sound : Sound r) : Sound ({ r with channel := rest }.readReport partition report) := by
  have queued : SoundAt r.reEnqueueCap r.history r.deliveries r.lanes r.threads
      ((partition, report) :: rest) r.nextDelivery r.nextLane := next ▸ sound
  unfold readReport
  split
  · rename_i overwrite is
    unfold onOverwrite
    split
    · rename_i gone
      exact queued.pop_unheld gone
    · rename_i lane found
      obtain ⟨⟨held, there, mem⟩, part, opened, -⟩ := queued.opening.lane partition lane found
      have ours : ∀ delivery part', .opened delivery partition part' ∈ r.history →
          delivery = lane.delivery := fun delivery part' member =>
        queued.opening.unique delivery lane.delivery partition part' part member opened
      split
      · rename_i absent
        exact absurd (absent.symm.trans there) (by simp)
      · rename_i held' there'
        obtain rfl := Option.some.inj (there.symm.trans there')
        split
        · rename_i known
          refine queued.pop fun delivery unit part' overwrite' there'' member is' => ?_
          obtain rfl := ours delivery part' member
          obtain rfl := Option.some.inj (there.symm.trans there'')
          obtain rfl := Option.some.inj (is.symm.trans is')
          simpa using known
        · rename_i unknown
          exact sound_overwriteHeld queued found there (by simpa using unknown) is ours
  · rename_i is
    split
    · rename_i gone
      exact queued.pop_unheld gone
    · rename_i lane found
      refine SoundAt.poison (queued.pop fun _ _ _ overwrite _ _ some => ?_) found
      rw [is] at some
      cases some

theorem sound_request {delivery : Nat} {held : HeldUnit} {happening : Happening} (sound : Sound r)
    (found : r.deliveries[delivery]? = some held) (due : happening.Due delivery held)
    (names : happening.names = some held.receipt) : Sound (r.record happening) := by
  unfold Sound
  rw [history_record]
  cases happening with
  | acknowledged named receipt reply =>
    obtain ⟨rfl, finished⟩ := due named receipt reply rfl
    obtain rfl := Option.some.inj names
    exact SoundAt.acknowledge sound found finished reply
  | failed | renewed | handedBack => exact SoundAt.append sound rfl
  | _ => cases names

theorem sound_release (sound : Sound r) (delivery : Nat) : Sound (r.release delivery) := by
  unfold release
  split
  · exact sound
  · rename_i held there
    exact SoundAt.release sound there

theorem sound_holdings (sound : Sound r) (same : next.holdings = r.holdings)
    {extra : List Happening} (history : next.history = r.history ++ extra)
    (silent : ∀ happening ∈ extra, happening.plain = true) : Sound next := by
  have cap := congrArg Holdings.reEnqueueCap same
  have nextDelivery := congrArg Holdings.nextDelivery same
  have nextLane := congrArg Holdings.nextLane same
  have deliveries := congrArg Holdings.deliveries same
  have lanes := congrArg Holdings.lanes same
  have threads := congrArg Holdings.threads same
  have channel := congrArg Holdings.channel same
  simp only [holdings] at cap nextDelivery nextLane deliveries lanes threads channel
  unfold Sound
  rw [history, cap, nextDelivery, nextLane, deliveries, lanes, threads, channel]
  exact SoundAt.appendAll sound silent

theorem sound_act (act : Act r next) (sound : Sound r) : Sound next := by
  cases act with
  | lane event => exact sound_laneEvent sound event
  | report queued => exact sound_readReport queued sound
  | confirmed found published unrefused =>
    unfold Sound
    exact history_record r _ ▸ SoundAt.confirmed sound found published unrefused
  | refused found published error reason =>
    unfold Sound
    exact history_record r _ ▸ SoundAt.refused sound found published error reason
  | retire found terminal committed read =>
    unfold retire
    rw [found]
    exact SoundAt.retire sound found terminal committed read
  | request found due names => exact sound_request sound found due names
  | settle found due names => exact sound_release (sound_request sound found due names) _
  | openPart room found pending =>
    unfold Sound openPart
    rw [expectHeld_found found, history_record]
    exact SoundAt.openPart sound found pending
  | committed found watermark =>
    unfold Sound noteCommit
    rw [history_record]
    exact SoundAt.noteCommit (SoundAt.append sound rfl) found (mem_last _ _)
  | hint partition => exact SoundAt.hint sound partition
  | left => exact sound
  | neutral same history silent =>
    exact sound_holdings sound same history fun happening member =>
      happening.plain_of_neutral (silent happening member)

theorem sound_acts (acts : Acts r next) (sound : Sound r) : Sound next := by
  induction acts with
  | refl => exact sound
  | tail _ act ih => exact sound_act act ih

theorem sound_deed {lossy stops : Bool} {before after : Multiset Nat × UnitReader}
    (deed : Deed lossy stops before after) (sound : Sound before.2) : Sound after.2 := by
  cases deed with
  | act act => exact sound_act act sound
  | release hand r delivery => exact sound_release sound delivery
  | receive _ r | @failed _ r _ _ =>
    exact sound_holdings sound rfl (history_record r _) (by simp [Happening.plain])
  | hold hand r delivery cursors =>
    unfold Sound hold
    rw [history_record]
    exact SoundAt.hold (SoundAt.append sound rfl) (mem_last _ _)
  | @later _ r fail reply retryable =>
    unfold Sound
    exact history_record r (.failed fail.1 reply) ▸ SoundAt.append sound rfl
  | resend | lose => exact sound

theorem sound_deeds {lossy stops : Bool} {before after : Multiset Nat × UnitReader}
    (deeds : Deeds lossy stops before after) (sound : Sound before.2) : Sound after.2 := by
  induction deeds with
  | refl => exact sound
  | tail _ deed ih => exact sound_deed deed ih

theorem sound_start (unitsHeld cap : Nat) (handsBack : Bool) (ending : Option JobEnd) :
    Sound
      { unitsHeld := unitsHeld, reEnqueueCap := cap, handsBack := handsBack,
        ending := ending } where
  running := ⟨by simp, by simp [history], by simp, by simp [history], by simp⟩
  opening := ⟨by simp [history], by simp [history], by simp, by simp, by simp, by simp⟩
  held := by simp
  known := ⟨by simp [history], by simp [history]⟩
  acks := ⟨by simp [history], by simp [history], by simp [history], by simp [history],
    by simp [history]⟩

end UnitReader

end Spate.S3
