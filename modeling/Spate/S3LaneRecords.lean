import Spate.S3FramerCuts
import Spate.S3Lane

set_option autoImplicit false

/- The records a lane hands out are the framing of its objects, in order and under exact
offsets, and its terminal watermark is one past the last of them. -/
namespace Spate.S3

open Spate.Json (Bytes)
open Spate.Transition (Run)

/-- An object as the fetcher sends it. -/
structure LaneObject where
  ordinal : Nat
  key : String
  lastModifiedMs : Int
  chunks : List Bytes
  deriving DecidableEq

namespace LaneObject

def bytes (o : LaneObject) : Bytes := o.chunks.flatten

def messages (o : LaneObject) : List ChunkMsg :=
  .objectStart o.ordinal o.key o.lastModifiedMs :: (o.chunks.map .chunk ++ [.objectEnd])

/-- Records of the object from its first on, under their offsets. -/
def stamp (o : LaneObject) (records : List Bytes) : List HeldRecord :=
  records.mapIdx fun i bytes => ⟨o.ordinal * 2 ^ 40 + i, o.lastModifiedMs, bytes⟩

theorem stamp_snoc (o : LaneObject) (records : List Bytes) (bytes : Bytes) :
    o.stamp (records ++ [bytes]) =
      o.stamp records ++ [⟨o.ordinal * 2 ^ 40 + records.length, o.lastModifiedMs, bytes⟩] :=
  List.mapIdx_concat

theorem stamp_front (o : LaneObject) {first second : List Bytes} (front : first <+: second) :
    o.stamp first <+: o.stamp second := by
  obtain ⟨more, rfl⟩ := front
  unfold stamp
  rw [List.mapIdx_append]
  exact List.prefix_append _ _

end LaneObject

def wire (objects : List LaneObject) : List ChunkMsg := objects.flatMap LaneObject.messages

/-- The framing of the objects in order. -/
def expected (frames : String → Bytes → List Bytes) (objects : List LaneObject) :
    List HeldRecord :=
  objects.flatMap fun o => o.stamp (frames o.key o.bytes)

/-- The watermark past the records seen, whose offsets rise within their objects. -/
structure Marked (mark : Nat) (seen : List HeldRecord) : Prop where
  last : mark = seen.getLast?.elim 0 (·.offset + 1)
  below : ∀ r ∈ seen, r.offset < mark
  rising : seen.Pairwise fun a b => a.offset < b.offset
  inside : ∀ r ∈ seen, r.offset % 2 ^ 40 ≤ maxRecordIndex

theorem Marked.snoc {mark : Nat} {seen : List HeldRecord} (marked : Marked mark seen)
    (r : HeldRecord) (past : mark ≤ r.offset) (index : r.offset % 2 ^ 40 ≤ maxRecordIndex) :
    Marked (r.offset + 1) (seen ++ [r]) where
  last := by
    rw [List.getLast?_concat]
    rfl
  below := by
    intro other member
    rcases List.mem_append.mp member with earlier | last
    · have less := marked.below other earlier
      omega
    · rw [List.mem_singleton.mp last]
      omega
  rising := by
    refine List.pairwise_append.mpr ⟨marked.rising, List.pairwise_singleton _ _, ?_⟩
    intro other earlier last member
    rw [List.mem_singleton.mp member]
    have less := marked.below other earlier
    omega
  inside := by
    intro other member
    rcases List.mem_append.mp member with earlier | last
    · exact marked.inside other earlier
    · rw [List.mem_singleton.mp last]
      exact index

theorem mark_le {mark ordinal later count : Nat} (here : mark ≤ ordinal * 2 ^ 40 + count)
    (few : count ≤ maxRecordIndex + 1) (above : ordinal < later) : mark ≤ later * 2 ^ 40 := by
  have room : maxRecordIndex + 1 < 2 ^ 40 := by decide
  have next : (ordinal + 1) * 2 ^ 40 ≤ later * 2 ^ 40 := Nat.mul_le_mul_right _ above
  rw [Nat.succ_mul] at next
  generalize maxRecordIndex = limit at few room
  generalize 2 ^ 40 = size at here room next ⊢
  omega

section Stages

variable {σ : Type} (dec : Decoder σ) (frames : String → Bytes → List Bytes)

/-- Where the lane is in the object `o`, of which `emitted` were handed out or are held:
the messages left, the framer's state and whether the object ended. -/
inductive Body (o : LaneObject) (rest : List LaneObject) (emitted : List Bytes) :
    List ChunkMsg → ObjectFramer σ → Bool → Prop
  | within {chunks : List Bytes} {consumed pending : Bytes} {sink : σ} {ready : List Bytes}
      (fed : dec.Fed o.key consumed sink (emitted ++ ready))
      (bytes : consumed ++ pending ++ chunks.flatten = o.bytes) :
      Body o rest emitted (chunks.map .chunk ++ .objectEnd :: wire rest)
        ⟨some sink, ready, pending⟩ false
  | ended {ready : List Bytes} (records : emitted ++ ready = frames o.key o.bytes) :
      Body o rest emitted (wire rest) ⟨none, ready, []⟩ true

inductive Stage (objects : List LaneObject) (lane : S3Lane σ) (seen : List HeldRecord) : Prop
  | between (done rest : List LaneObject) (whole : objects = done ++ rest)
      (input : lane.rx = wire rest) (outside : lane.current = none)
      (framer : lane.framer = .new) (open' : lane.pendingEnd = false)
      (records : seen = expected frames done)
      (later : ∀ o ∈ rest, lane.watermarkCandidate ≤ o.ordinal * 2 ^ 40)
  | inside (done : List LaneObject) (o : LaneObject) (rest : List LaneObject)
      (emitted : List Bytes) (whole : objects = done ++ o :: rest)
      (current : lane.current = some ⟨o.ordinal, o.key, emitted.length, o.lastModifiedMs⟩)
      (count : emitted.length ≤ maxRecordIndex + 1)
      (mark : lane.watermarkCandidate ≤ o.ordinal * 2 ^ 40 + emitted.length)
      (records : seen = expected frames done ++ o.stamp emitted)
      (body : Body dec frames o rest emitted lane.rx lane.framer lane.pendingEnd)

/-- A lane that reads on: `log` is what its batches held before this poll. -/
structure Live (objects : List LaneObject) (log : List HeldRecord) (lane : S3Lane σ) : Prop where
  failed : lane.failed = none
  panicked : lane.panicked = false
  poisoned : lane.poisoned = false
  truncated : lane.truncated = false
  resume : lane.resume = none
  discard : lane.pendingDiscard = 0
  marked : Marked lane.watermarkCandidate (log ++ lane.held)
  stage : Stage dec frames objects lane (log ++ lane.held)
  terminal : lane.terminal = none ∨ lane.rx = [] ∧ lane.current = none ∧ lane.held = [] ∧
    lane.terminal = some lane.watermarkCandidate

/-- The object cannot be handed out whole: its codec does not start, fails on some of its
bytes or at its end, or it holds more records than the offsets of an object count. -/
inductive Spoiled (o : LaneObject) : Prop
  | unopened {text : String} (refused : dec.start o.key = .error text)
  | undecodable {consumed rest more : Bytes} {out : List Bytes}
      (failing : Failing dec o.key consumed rest out) (bytes : consumed ++ rest ++ more = o.bytes)
  | unfinished {sink : σ} {out records : List Bytes} {text : String}
      (fed : dec.Fed o.key o.bytes sink out) (refused : dec.finish sink = (records, .error text))
  | overfull (many : maxRecordIndex + 1 < (frames o.key o.bytes).length)

/-- A poisoned lane met a spoiled object; what it handed out before stands. -/
structure Dead (objects : List LaneObject) (log : List HeldRecord) (lane : S3Lane σ) : Prop where
  failed : lane.failed = none
  panicked : lane.panicked = false
  poisoned : lane.poisoned = true
  held : lane.held = []
  terminal : lane.terminal = none
  stopped : ∃ done o rest mark seen, objects = done ++ o :: rest ∧ Spoiled dec frames o ∧
    Marked mark seen ∧ log <+: seen ∧ seen <+: expected frames (done ++ [o])

variable {dec frames}

variable {lane : S3Lane σ}

theorem wire_cons (o : LaneObject) (rest : List LaneObject) :
    wire (o :: rest) = .objectStart o.ordinal o.key o.lastModifiedMs ::
      (o.chunks.map .chunk ++ .objectEnd :: wire rest) := by
  unfold wire
  rw [List.flatMap_cons]
  simp only [LaneObject.messages, List.cons_append, List.append_assoc, List.nil_append]

theorem wire_nil_iff {objects : List LaneObject} : wire objects = [] ↔ objects = [] := by
  cases objects with
  | nil => exact ⟨fun _ => rfl, fun _ => rfl⟩
  | cons o rest =>
    rw [wire_cons]
    exact ⟨nofun, nofun⟩

theorem expected_append (first second : List LaneObject) :
    expected frames (first ++ second) = expected frames first ++ expected frames second :=
  List.flatMap_append

theorem expected_snoc (done : List LaneObject) (o : LaneObject) :
    expected frames (done ++ [o]) = expected frames done ++ o.stamp (frames o.key o.bytes) := by
  rw [expected_append]
  simp only [expected, List.flatMap_cons, List.flatMap_nil, List.append_nil]

theorem expected_front {done : List LaneObject} {o : LaneObject} {emitted : List Bytes}
    (early : emitted <+: frames o.key o.bytes) :
    expected frames done ++ o.stamp emitted <+: expected frames (done ++ [o]) := by
  rw [expected_snoc]
  exact (List.prefix_append_right_inj _).mpr (o.stamp_front early)

theorem expected_earlier {objects done : List LaneObject} {o : LaneObject} {rest : List LaneObject}
    (whole : objects = done ++ o :: rest) :
    expected frames (done ++ [o]) <+: expected frames objects := by
  rw [whole.trans (List.append_cons done o rest), expected_append (done ++ [o])]
  exact List.prefix_append _ _

theorem Body.pop {o : LaneObject} {rest : List LaneObject} {emitted ready : List Bytes}
    {rx : List ChunkMsg} {sink : Option σ} {pending bytes : Bytes} {ended : Bool}
    (body : Body dec frames o rest emitted rx ⟨sink, bytes :: ready, pending⟩ ended) :
    Body dec frames o rest (emitted ++ [bytes]) rx ⟨sink, ready, pending⟩ ended := by
  cases body with
  | within fed joined =>
    refine .within ?_ joined
    rw [List.append_assoc]
    exact fed
  | ended records =>
    refine .ended ?_
    rw [List.append_assoc]
    exact records

theorem Body.front (lawful : dec.Frames frames) {o : LaneObject} {rest : List LaneObject}
    {emitted : List Bytes} {rx : List ChunkMsg} {framer : ObjectFramer σ} {ended : Bool}
    (body : Body dec frames o rest emitted rx framer ended) :
    emitted <+: frames o.key o.bytes := by
  cases body with
  | within fed joined =>
    have early := lawful.early fed
    rw [← joined, List.append_assoc]
    exact (List.prefix_append _ _).trans (early _)
  | ended records =>
    rw [← records]
    exact List.prefix_append _ _

theorem Stage.front (lawful : dec.Frames frames) {objects : List LaneObject}
    {seen : List HeldRecord} (stage : Stage dec frames objects lane seen) :
    seen <+: expected frames objects := by
  cases stage with
  | between done rest whole _ _ _ _ records _ =>
    rw [whole, records, expected_append]
    exact List.prefix_append _ _
  | inside done o rest emitted whole _ _ _ records body =>
    rw [records]
    exact (expected_front (body.front lawful)).trans (expected_earlier whole)

/-- A lane that meets a spoiled object with `emitted` of its records made is poisoned. -/
theorem Live.dead {objects done rest : List LaneObject} {o : LaneObject} {log : List HeldRecord}
    {emitted : List Bytes} (live : Live dec frames objects log lane)
    (unfinished : lane.terminal = none) (whole : objects = done ++ o :: rest)
    (records : log ++ lane.held = expected frames done ++ o.stamp emitted)
    (early : emitted <+: frames o.key o.bytes) (spoiled : Spoiled dec frames o)
    {poisoned : S3Lane σ} (failed : poisoned.failed = none) (panicked : poisoned.panicked = false)
    (quiet : poisoned.poisoned = true) (held : poisoned.held = [])
    (terminal : poisoned.terminal = lane.terminal) :
    Dead dec frames objects log poisoned where
  failed := failed
  panicked := panicked
  poisoned := quiet
  held := held
  terminal := terminal.trans unfinished
  stopped := ⟨done, o, rest, _, _, whole, spoiled, live.marked, List.prefix_append _ _,
    records ▸ expected_front early⟩

theorem Live.unfinished {objects : List LaneObject} {log : List HeldRecord}
    (live : Live dec frames objects log lane) (some : lane.current.isSome) :
    lane.terminal = none := by
  rcases live.terminal with unset | ⟨_, outside, _⟩
  · exact unset
  · rw [outside] at some
    cases some

/-- What a part of a poll leaves: a lane that reads on, or a poisoned one. -/
def Kept (dec : Decoder σ) (frames : String → Bytes → List Bytes) (objects : List LaneObject)
    (log : List HeldRecord) (maxRecords : Nat) (lane : S3Lane σ) : Prop :=
  Live dec frames objects log lane ∧ lane.held.length ≤ maxRecords ∨
    Dead dec frames objects log lane

section Drain

variable (lawful : dec.Frames frames) {objects : List LaneObject} {log : List HeldRecord}
  (few : ∀ o ∈ objects, o.ordinal ≤ maxOrdinal) {maxRecords : Nat}

include lawful few

theorem drainLoop_spec (ready : List Bytes) : ∀ {lane : S3Lane σ},
    Live dec frames objects log { lane with framer := { lane.framer with ready := ready } } →
    lane.held.length ≤ maxRecords →
    (S3Lane.drainLoop maxRecords ready lane).rx = lane.rx ∧
    (S3Lane.drainLoop maxRecords ready lane).framer.pending = lane.framer.pending ∧
    Kept dec frames objects log maxRecords (S3Lane.drainLoop maxRecords ready lane) ∧
    ((S3Lane.drainLoop maxRecords ready lane).poisoned = true ∨
      (S3Lane.drainLoop maxRecords ready lane).framer.ready = [] ∨
      maxRecords ≤ (S3Lane.drainLoop maxRecords ready lane).held.length) := by
  induction ready with
  | nil =>
    intro lane live fits
    exact ⟨rfl, rfl, .inl ⟨live, fits⟩, .inr (.inl rfl)⟩
  | cons bytes rest ih =>
    intro lane live fits
    unfold S3Lane.drainLoop
    by_cases full : maxRecords ≤ lane.held.length
    · rw [if_pos full]
      exact ⟨rfl, rfl, .inl ⟨live, fits⟩, .inr (.inr full)⟩
    · rw [if_neg full, if_neg (by have none := live.discard; dsimp only at none; omega)]
      cases live.stage with
      | between _ _ _ _ _ framer _ _ _ => cases congrArg ObjectFramer.ready framer
      | inside done o after emitted whole current count mark records body =>
        dsimp only at current mark body
        rw [current]
        dsimp only
        by_cases spent : maxRecordIndex < emitted.length
        · rw [if_pos spent]
          have unset := live.unfinished (by dsimp only; rw [current]; rfl)
          have many := (body.pop.front lawful).length_le
          rw [List.length_append, List.length_singleton] at many
          exact ⟨rfl, rfl, .inr (live.dead unset whole records (body.front lawful)
            (.overfull (by omega)) live.failed live.panicked rfl rfl rfl), .inl rfl⟩
        · have listed : o ∈ objects := by
            rw [whole]
            exact List.mem_append_right _ List.mem_cons_self
          have encoded := (Position.encode_eq (p := ⟨o.ordinal, emitted.length⟩)
            (few o listed) (by dsimp only; omega)).1
          dsimp only at encoded
          rw [if_neg spent, encoded]
          dsimp only
          rw [if_neg (by omega)]
          refine ih ⟨live.failed, live.panicked, live.poisoned, live.truncated, live.resume,
            live.discard, ?_, ?_, ?_⟩ ?_
          · have marked := live.marked
            dsimp only at marked ⊢
            rw [← List.append_assoc]
            apply marked.snoc
              ⟨o.ordinal * 2 ^ 40 + emitted.length, o.lastModifiedMs, bytes⟩ mark
            dsimp only
            rw [Nat.mul_comm, Nat.mul_add_mod]
            exact Nat.le_trans (Nat.mod_le _ _) (by omega)
          · refine .inside done o after (emitted ++ [bytes]) whole ?_ ?_ ?_ ?_ body.pop
            · dsimp only
              rw [List.length_append]
              rfl
            · rw [List.length_append, List.length_singleton]
              omega
            · dsimp only
              rw [List.length_append, List.length_singleton]
              omega
            · dsimp only at records ⊢
              rw [← List.append_assoc, records, LaneObject.stamp_snoc, List.append_assoc]
          · exact .inl (live.unfinished (by dsimp only; rw [current]; rfl))
          · dsimp only
            rw [List.length_append, List.length_singleton]
            omega

omit lawful few in
theorem finalizeObject_live (ordered : objects.Pairwise fun a b => a.ordinal < b.ordinal)
    {lane : S3Lane σ} (live : Live dec frames objects log lane) (ended : lane.pendingEnd = true)
    (drained : lane.framer.ready = []) :
    lane.finalizeObject = { lane with current := none, pendingEnd := false } ∧
      Live dec frames objects log { lane with current := none, pendingEnd := false } := by
  cases live.stage with
  | between _ _ _ _ _ _ open' _ _ =>
    rw [open'] at ended
    cases ended
  | inside done o rest emitted whole current count mark records body =>
    have unset := live.unfinished (by rw [current]; rfl)
    have nothing := live.discard
    refine ⟨?_, live.failed, live.panicked, live.poisoned, live.truncated, live.resume,
      live.discard, live.marked, ?_, .inl unset⟩
    · unfold S3Lane.finalizeObject
      rw [current]
      dsimp only
      rw [if_neg (by omega)]
    · obtain ⟨rx, framer, _⟩ := lane
      dsimp only at ended drained body mark
      subst ended
      cases body with
      | @ended ready framed =>
        dsimp only at drained
        subst drained
        rw [List.append_nil] at framed
        refine .between (done ++ [o]) rest ?_ rfl rfl rfl rfl ?_ ?_
        · rw [whole, List.append_assoc]
          rfl
        · rw [expected_snoc, ← framed]
          exact records
        · intro later member
          rw [whole] at ordered
          have above := (List.pairwise_cons.mp (List.pairwise_append.mp ordered).2.1).1
            later member
          exact mark_le mark count above

theorem settle_spec (ordered : objects.Pairwise fun a b => a.ordinal < b.ordinal)
    {lane : S3Lane σ} (live : Live dec frames objects log lane)
    (fits : lane.held.length ≤ maxRecords) :
    (lane.settle maxRecords).rx = lane.rx ∧
    (lane.settle maxRecords).framer.pending = lane.framer.pending ∧
    Kept dec frames objects log maxRecords (lane.settle maxRecords) ∧
    ((lane.settle maxRecords).poisoned = true ∨ maxRecords ≤ (lane.settle maxRecords).held.length ∨
      (lane.settle maxRecords).framer.ready = [] ∧
        (lane.settle maxRecords).pendingEnd = false) := by
  obtain ⟨rx, pending, kept, settled⟩ := drainLoop_spec lawful few lane.framer.ready live fits
  unfold S3Lane.settle
  change (S3Lane.drainFramer lane maxRecords).rx = _ at rx
  change (S3Lane.drainFramer lane maxRecords).framer.pending = _ at pending
  change Kept dec frames objects log maxRecords (S3Lane.drainFramer lane maxRecords) at kept
  change (S3Lane.drainFramer lane maxRecords).poisoned = true ∨
    (S3Lane.drainFramer lane maxRecords).framer.ready = [] ∨
    maxRecords ≤ (S3Lane.drainFramer lane maxRecords).held.length at settled
  generalize S3Lane.drainFramer lane maxRecords = drained at rx pending kept settled ⊢
  dsimp only
  rcases kept with ⟨live, fits⟩ | dead
  · rw [if_neg (by simp [live.failed, live.panicked])]
    have whole {lane : S3Lane σ} (untruncated : lane.truncated = false) :
        lane.closeTruncated = lane := by
      unfold S3Lane.closeTruncated
      rw [if_neg (by simp [untruncated])]
    by_cases closing : drained.pendingEnd = true ∧ drained.framer.ready = []
    · obtain ⟨same, closed⟩ := finalizeObject_live ordered live closing.1 closing.2
      have first : drained.closeEnded = { drained with current := none, pendingEnd := false } := by
        unfold S3Lane.closeEnded
        rw [if_pos ⟨closing.1, by simp [live.poisoned], closing.2⟩, same]
      rw [first, whole closed.truncated]
      exact ⟨rx, pending, .inl ⟨closed, fits⟩, .inr (.inr ⟨closing.2, rfl⟩)⟩
    · have first : drained.closeEnded = drained := by
        unfold S3Lane.closeEnded
        exact if_neg fun all => closing ⟨all.1, all.2.2⟩
      rw [first, whole live.truncated]
      refine ⟨rx, pending, .inl ⟨live, fits⟩, ?_⟩
      rcases settled with quiet | empty | full
      · exact .inl quiet
      · refine .inr (.inr ⟨empty, ?_⟩)
        cases same : drained.pendingEnd with
        | false => rfl
        | true => exact absurd ⟨same, empty⟩ closing
      · exact .inr (.inl full)
  · have first : drained.closeEnded = drained := by
      unfold S3Lane.closeEnded
      exact if_neg (by simp [dead.poisoned])
    rw [if_neg (by simp [dead.failed, dead.panicked]), first]
    unfold S3Lane.closeTruncated
    split
    · exact ⟨rx, pending,
        .inr ⟨dead.failed, dead.panicked, dead.poisoned, dead.held, dead.terminal, dead.stopped⟩,
        .inl dead.poisoned⟩
    · exact ⟨rx, pending, .inr dead, .inl dead.poisoned⟩

end Drain

section Input

variable {objects : List LaneObject} {log : List HeldRecord} {maxRecords : Nat}

variable {sink : σ} {emitted : List Bytes} {lane : S3Lane σ} {waited : Prop}
  {done later : List LaneObject} {o : LaneObject}

theorem pump_spec {key : String} {consumed : Bytes} {queue : List Bytes} (pending : Bytes)
    (fed : dec.Fed key consumed sink (emitted ++ queue)) :
    (∃ framer text done rest out, ObjectFramer.pump dec ⟨some sink, queue, pending⟩ =
        (framer, .error (.error text)) ∧ framer.pending = [] ∧ done ++ rest = pending ∧
      Failing dec key (consumed ++ done) rest out) ∨
    ∃ next more left ready, ObjectFramer.pump dec ⟨some sink, queue, pending⟩ =
        (⟨some next, ready, left⟩, .ok ()) ∧
      dec.Fed key (consumed ++ more) next (emitted ++ ready) ∧ more ++ left = pending ∧
      (pending ≠ [] → more ≠ []) := by
  have spec := pumpLoop_spec dec queue.length (dec.decodedBytes sink) pumpSteps pending fed
  have fails := @pumpLoop_error σ dec key queue.length (dec.decodedBytes sink) pumpSteps pending
    consumed sink emitted queue
  unfold ObjectFramer.pump
  dsimp only at spec ⊢
  obtain ⟨fine, broken, success⟩ := spec
  generalize ObjectFramer.pumpLoop dec queue.length (dec.decodedBytes sink) pumpSteps sink queue
    pending = pumped at fine broken success fails ⊢
  obtain ⟨⟨sink', ready, left⟩, result⟩ := pumped
  cases result with
  | error fault =>
    cases fault with
    | panicked => exact absurd rfl fine
    | error text =>
      obtain ⟨done, rest, split, failing⟩ := fails fed rfl
      exact .inl ⟨_, text, done, rest, _, rfl, broken nofun, split, failing⟩
  | ok ok =>
    obtain ⟨next, more, same, grown, joined, some⟩ := success rfl
    dsimp only at same grown joined
    subst same
    exact .inr ⟨next, more, left, ready, rfl, grown, joined, some (by decide)⟩

variable (lawful : dec.Frames frames)

include lawful

theorem onFramed_spec (lane : S3Lane σ) {queue : List Bytes} {pending : Bytes}
    (live : Live dec frames objects log { lane with framer := ⟨some sink, queue, pending⟩ })
    (fits : lane.held.length ≤ maxRecords) :
    Kept dec frames objects log maxRecords
        (lane.onFramed (ObjectFramer.pump dec ⟨some sink, queue, pending⟩)) ∧
      (lane.onFramed (ObjectFramer.pump dec ⟨some sink, queue, pending⟩)).rx = lane.rx ∧
      (lane.onFramed (ObjectFramer.pump dec ⟨some sink, queue, pending⟩)).framer.pending.length +
        min 1 pending.length ≤ pending.length := by
  cases live.stage with
  | between _ _ _ _ _ framer _ _ _ => cases congrArg ObjectFramer.sink framer
  | inside done o rest emitted whole current count mark records body =>
    have unset := live.unfinished (by rw [current]; rfl)
    dsimp only at current body mark records
    generalize input : lane.rx = rx at body
    generalize open' : lane.pendingEnd = ended at body
    cases body with
    | @within chunks consumed _ _ _ fed joined =>
      rcases pump_spec pending fed with
        ⟨framer, text, first, refused, out, failed, nothing, split, failing⟩ |
          ⟨next, more, left, ready, success, grown, split, some⟩
      · rw [failed]
        have early := (List.prefix_append emitted queue).trans
          (lawful.early fed (pending ++ chunks.flatten))
        rw [← List.append_assoc, joined] at early
        have bytes : consumed ++ first ++ refused ++ chunks.flatten = o.bytes := by
          rw [← joined, ← split, ← List.append_assoc consumed]
        refine ⟨.inr (live.dead unset whole records early (.undecodable failing bytes) live.failed
          live.panicked rfl rfl rfl), input, ?_⟩
        change framer.pending.length + _ ≤ _
        rw [nothing]
        simp only [List.length_nil]
        omega
      · rw [success]
        refine ⟨.inl ⟨⟨live.failed, live.panicked, live.poisoned, live.truncated, live.resume,
          live.discard, live.marked, ?_, .inl unset⟩, fits⟩, input, ?_⟩
        · refine .inside done o rest emitted whole current count mark records ?_
          change Body dec frames o rest emitted lane.rx _ lane.pendingEnd
          rw [input, open']
          refine .within grown ?_
          rw [List.append_assoc consumed, split]
          exact joined
        · change left.length + _ ≤ _
          by_cases empty : pending = []
          · subst empty
            rw [(List.append_eq_nil_iff.mp split).2]
            exact Nat.le_refl _
          · have positive := List.length_pos_iff.mpr (some empty)
            rw [← split, List.length_append]
            omega

/-- How a poll ends; `waited` when it had nothing to hand out and time ran out. -/
inductive Ends (dec : Decoder σ) (frames : String → Bytes → List Bytes)
    (objects : List LaneObject) (log : List HeldRecord) (maxRecords : Nat) (waited : Prop) :
    Polled → S3Lane σ → Prop
  | batch {lane : S3Lane σ} {last : HeldRecord} (live : Live dec frames objects log lane)
      (ack : lane.held.getLast? = some last) (fits : lane.held.length ≤ maxRecords) :
      Ends dec frames objects log maxRecords waited (.batch lane.held last.offset) lane
  | waits {lane : S3Lane σ} (live : Live dec frames objects log lane) (empty : lane.held = [])
      (why : waited) : Ends dec frames objects log maxRecords waited .idle lane
  | finished {lane : S3Lane σ} (live : Live dec frames objects log lane) (empty : lane.held = [])
      (spent : lane.finished = true) : Ends dec frames objects log maxRecords waited .idle lane
  | poisoned {lane : S3Lane σ} (dead : Dead dec frames objects log lane) :
      Ends dec frames objects log maxRecords waited .idle lane

/-- An iteration ends the poll, or goes on with less to do. -/
def Iterated (dec : Decoder σ) (frames : String → Bytes → List Bytes) (objects : List LaneObject)
    (log : List HeldRecord) (maxRecords : Nat) (waited : Prop) (load : Nat) :
    (Polled × S3Lane σ) ⊕ S3Lane σ → Prop
  | .inl (polled, lane) =>
    Ends dec frames objects log maxRecords waited polled lane ∧ lane.load ≤ load
  | .inr lane =>
    Live dec frames objects log lane ∧ lane.held.length ≤ maxRecords ∧ lane.load < load

omit lawful in
theorem emit_ends {load : Nat} (live : Live dec frames objects log lane) (some : lane.held ≠ [])
    (fits : lane.held.length ≤ maxRecords) (less : lane.load ≤ load) :
    Iterated dec frames objects log maxRecords waited load (.inl lane.emit) := by
  have last := List.getLast?_eq_some_getLast some
  unfold S3Lane.emit
  rw [last]
  exact ⟨.batch live last fits, less⟩

omit lawful in
theorem Live.check (live : Live dec frames objects log lane) : lane.check = .inr lane := by
  unfold S3Lane.check
  rw [if_neg (by simp [live.panicked]), live.failed]
  dsimp only
  rw [if_neg (by simp [live.poisoned])]

omit lawful in
theorem Dead.check (dead : Dead dec frames objects log lane) : lane.check = .inl (.idle, lane) := by
  unfold S3Lane.check
  rw [if_neg (by simp [dead.panicked]), dead.failed]
  dsimp only
  rw [if_pos dead.poisoned]

omit lawful in
theorem check_iterated {load : Nat} (kept : Kept dec frames objects log maxRecords lane)
    (less : lane.load < load) :
    Iterated dec frames objects log maxRecords waited load lane.check := by
  rcases kept with ⟨live, fits⟩ | dead
  · rw [live.check]
    exact ⟨live, fits, less⟩
  · rw [dead.check]
    exact ⟨.poisoned dead, Nat.le_of_lt less⟩

/-- What a message leaves: the rest of the channel, and less than the message pending. -/
def Received (dec : Decoder σ) (frames : String → Bytes → List Bytes) (objects : List LaneObject)
    (log : List HeldRecord) (maxRecords : Nat) (message : ChunkMsg) (rest : List ChunkMsg)
    (lane : S3Lane σ) : Prop :=
  Kept dec frames objects log maxRecords lane ∧ lane.rx = rest ∧
    lane.framer.pending.length < S3Lane.weight message

omit lawful in
theorem onObjectStart_received (live : Live dec frames objects log lane)
    (fits : lane.held.length ≤ maxRecords) {rest : List ChunkMsg}
    (whole : objects = done ++ o :: later) (records : log ++ lane.held = expected frames done)
    (outside : lane.current = none) (framer : lane.framer = .new)
    (open' : lane.pendingEnd = false) (mark : lane.watermarkCandidate ≤ o.ordinal * 2 ^ 40)
    (unset : lane.terminal = none) (tail : rest = o.chunks.map .chunk ++ .objectEnd :: wire later) :
    Received dec frames objects log maxRecords (.objectStart o.ordinal o.key o.lastModifiedMs) rest
      ({ lane with rx := rest }.onObjectStart dec o.ordinal o.key o.lastModifiedMs) := by
  unfold S3Lane.onObjectStart ObjectFramer.beginObject
  rw [if_neg (by simp [outside, open'])]
  dsimp only
  rw [framer, if_neg (by simp [ObjectFramer.new])]
  cases opened : dec.start o.key with
  | error text =>
    dsimp only
    have none : log ++ lane.held = expected frames done ++ o.stamp [] :=
      records.trans (List.append_nil _).symm
    exact ⟨.inr (live.dead unset whole none (List.nil_prefix) (.unopened opened) live.failed
      live.panicked rfl rfl rfl), rfl, Nat.one_pos⟩
  | ok sink =>
    dsimp only
    rw [live.resume]
    refine ⟨.inl ⟨⟨live.failed, live.panicked, live.poisoned, live.truncated, rfl, rfl,
      live.marked, ?_, .inl unset⟩, fits⟩, rfl, Nat.one_pos⟩
    refine .inside done o later [] whole rfl (Nat.zero_le _) (Nat.le_add_right_of_le mark) ?_ ?_
    · rw [records]
      exact (List.append_nil _).symm
    · have fed : dec.Fed o.key [] sink ([] ++ []) := .start opened
      dsimp only
      rw [tail, open']
      exact .within fed (show [] ++ [] ++ o.chunks.flatten = o.bytes from rfl)

theorem onObjectEnd_received (live : Live dec frames objects log lane)
    (fits : lane.held.length ≤ maxRecords) {ready : List Bytes}
    (whole : objects = done ++ o :: later)
    (current : lane.current = some ⟨o.ordinal, o.key, emitted.length, o.lastModifiedMs⟩)
    (count : emitted.length ≤ maxRecordIndex + 1)
    (mark : lane.watermarkCandidate ≤ o.ordinal * 2 ^ 40 + emitted.length)
    (records : log ++ lane.held = expected frames done ++ o.stamp emitted)
    (framer : lane.framer = ⟨some sink, ready, []⟩)
    (fed : dec.Fed o.key o.bytes sink (emitted ++ ready)) :
    Received dec frames objects log maxRecords .objectEnd (wire later)
      ({ lane with rx := wire later }.onObjectEnd dec) := by
  have unset := live.unfinished (by rw [current]; rfl)
  unfold S3Lane.onObjectEnd ObjectFramer.finishObject
  dsimp only
  rw [framer]
  dsimp only
  rw [if_neg (by simp)]
  rcases finished : dec.finish sink with ⟨tail, result⟩
  cases result with
  | error text =>
    have early := (List.prefix_append emitted ready).trans (lawful.early fed [])
    rw [List.append_nil] at early
    exact ⟨.inr (live.dead unset whole records early (.unfinished fed finished) live.failed
      live.panicked rfl rfl rfl), rfl, Nat.one_pos⟩
  | ok ok =>
    refine ⟨.inl ⟨⟨live.failed, live.panicked, live.poisoned, live.truncated, live.resume,
      live.discard, live.marked, ?_, .inl unset⟩, fits⟩, rfl, Nat.one_pos⟩
    refine .inside done o later emitted whole current count mark records (.ended ?_)
    rw [← List.append_assoc]
    exact lawful.whole fed finished

theorem onChunk_received (live : Live dec frames objects log lane)
    (fits : lane.held.length ≤ maxRecords) {ready : List Bytes} {chunk consumed : Bytes}
    {chunks : List Bytes} (whole : objects = done ++ o :: later)
    (current : lane.current = some ⟨o.ordinal, o.key, emitted.length, o.lastModifiedMs⟩)
    (count : emitted.length ≤ maxRecordIndex + 1)
    (mark : lane.watermarkCandidate ≤ o.ordinal * 2 ^ 40 + emitted.length)
    (records : log ++ lane.held = expected frames done ++ o.stamp emitted)
    (open' : lane.pendingEnd = false) (framer : lane.framer = ⟨some sink, ready, []⟩)
    (fed : dec.Fed o.key consumed sink (emitted ++ ready))
    (bytes : consumed ++ chunk ++ chunks.flatten = o.bytes) :
    Received dec frames objects log maxRecords (.chunk chunk)
      (chunks.map .chunk ++ .objectEnd :: wire later)
      (S3Lane.onMsg dec { lane with rx := chunks.map .chunk ++ .objectEnd :: wire later }
        (.chunk chunk)) := by
  have unset := live.unfinished (by rw [current]; rfl)
  have pushed : lane.framer.pushChunk dec chunk =
      ObjectFramer.pump dec ⟨some sink, ready, chunk⟩ := by
    unfold ObjectFramer.pushChunk
    rw [framer, if_neg (by simp)]
  unfold S3Lane.onMsg
  dsimp only
  rw [pushed]
  have fedLive : Live dec frames objects log
      { lane with
        rx := chunks.map .chunk ++ .objectEnd :: wire later
        framer := ⟨some sink, ready, chunk⟩ } := by
    refine ⟨live.failed, live.panicked, live.poisoned, live.truncated, live.resume, live.discard,
      live.marked, ?_, .inl unset⟩
    refine .inside done o later emitted whole current count mark records ?_
    dsimp only
    rw [open']
    exact .within fed bytes
  obtain ⟨kept, rx, less⟩ := onFramed_spec lawful
    ({ lane with rx := chunks.map .chunk ++ .objectEnd :: wire later } : S3Lane σ) fedLive fits
  refine ⟨kept, rx, ?_⟩
  simp only [S3Lane.weight]
  omega

theorem receive_spec (live : Live dec frames objects log lane)
    (fits : lane.held.length ≤ maxRecords) (open' : lane.pendingEnd = false)
    (empty : lane.framer.pending = []) (drained : lane.framer.ready = []) :
    Iterated dec frames objects log maxRecords waited lane.load (lane.receive dec) := by
  have received {message : ChunkMsg} {rest : List ChunkMsg} (input : lane.rx = message :: rest)
      (received : Received dec frames objects log maxRecords message rest
        ({ lane with rx := rest }.onMsg dec message)) :
      Iterated dec frames objects log maxRecords waited lane.load (lane.receive dec) := by
    obtain ⟨kept, left, less⟩ := received
    unfold S3Lane.receive
    rw [input]
    apply check_iterated kept
    unfold S3Lane.load
    rw [left, input, List.map_cons, List.sum_cons]
    omega
  cases live.stage with
  | between done rest whole input outside framer _ records later =>
    cases rest with
    | cons o rest =>
      rw [wire_cons] at input
      have unset : lane.terminal = none := by
        rcases live.terminal with unset | ⟨spent, _⟩
        · exact unset
        · rw [input] at spent
          cases spent
      exact received input (onObjectStart_received live fits whole records outside framer
        open' (later o List.mem_cons_self) unset rfl)
    | nil =>
      have none : lane.rx = [] := input
      unfold S3Lane.receive
      rw [none]
      dsimp only
      rw [if_neg (by simp [outside]), if_neg (by simp [drained])]
      by_cases nothing : lane.held = []
      · rw [if_neg (by simp [nothing])]
        unfold S3Lane.setTerminal
        rw [if_neg ?_]
        · refine ⟨.finished ⟨live.failed, live.panicked, live.poisoned, live.truncated,
            live.resume, live.discard, live.marked, ?_,
            .inr ⟨none, outside, nothing, rfl⟩⟩ nothing rfl, Nat.le_refl _⟩
          exact .between done [] whole input outside framer open' records nofun
        · rintro ⟨set, other⟩
          rcases live.terminal with unset | ⟨_, _, _, same⟩
          · rw [unset] at set
            cases set
          · exact other same
      · rw [if_pos nothing]
        exact emit_ends live nothing fits (Nat.le_refl _)
  | inside done o later emitted whole current count mark records body =>
    rcases framed : lane.framer with ⟨sink, ready, pending⟩
    rw [framed] at empty body drained
    dsimp only at empty
    generalize input : lane.rx = rx at body
    rw [open'] at body
    cases body with
    | @within chunks consumed _ sink _ fed bytes =>
      subst empty
      cases chunks with
      | nil =>
        apply received input
        have all : consumed = o.bytes := by simpa using bytes
        rw [all] at fed
        exact onObjectEnd_received lawful live fits whole current count mark records framed fed
      | cons chunk chunks =>
        apply received input
        rw [List.append_nil, List.flatten_cons, ← List.append_assoc] at bytes
        exact onChunk_received lawful live fits whole current count mark records open' framed
          fed bytes

/-- An iteration that waits came after another one, or found the channel empty. -/
def Tick.Waits (tick : Tick) (attempted : Bool) : Prop :=
  attempted = true ∨ tick.empty = true ∧ (tick.expired = true ∨ tick.timedOut = true)

theorem advance_spec (live : Live dec frames objects log lane) (positive : 0 < maxRecords)
    (fits : lane.held.length ≤ maxRecords)
    (settled : maxRecords ≤ lane.held.length ∨ lane.framer.ready = [] ∧ lane.pendingEnd = false)
    (tick : Tick) (attempted : Bool) :
    Iterated dec frames objects log maxRecords (tick.Waits attempted) lane.load
      (lane.advance dec maxRecords tick attempted) := by
  unfold S3Lane.advance
  by_cases full : maxRecords ≤ lane.held.length
  · rw [if_pos full]
    exact emit_ends live (List.ne_nil_of_length_pos (by omega)) fits (Nat.le_refl _)
  · obtain ⟨drained, open'⟩ := settled.resolve_left full
    rw [if_neg full, if_neg (by simp [open'])]
    split
    · rename_i late
      split
      · rename_i nothing
        exact ⟨.waits live nothing (.inl late.1), Nat.le_refl _⟩
      · rename_i some
        exact emit_ends live some fits (Nat.le_refl _)
    · split
      · rename_i more
        rcases framed : lane.framer with ⟨sink, ready, pending⟩
        cases sink with
        | none =>
          -- only an open object has input pending
          exfalso
          cases live.stage with
          | between _ _ _ _ _ framer _ _ _ =>
            rw [framer] at more
            exact more rfl
          | inside _ _ _ _ _ _ _ _ _ body =>
            rw [framed, open'] at body
            generalize lane.rx = rx at body
            cases body
        | some sink =>
          have fed : Live dec frames objects log
              { lane with framer := ⟨some sink, ready, pending⟩ } := by
            rw [← framed]
            exact live
          obtain ⟨kept, rx, less⟩ := onFramed_spec lawful lane fed fits
          apply check_iterated kept
          rw [framed] at more
          have some := List.length_pos_iff.mpr more
          unfold S3Lane.load
          rw [rx, framed]
          dsimp only at some ⊢
          omega
      · rename_i none
        simp only [ne_eq, not_not] at none
        split
        · rename_i nothing
          exact emit_ends live nothing.2 fits (Nat.le_refl _)
        · rename_i unheld
          split
          · rename_i late
            refine ⟨.waits live ?_ (.inr late), Nat.le_refl _⟩
            by_contra some
            exact unheld ⟨late.1, some⟩
          · exact receive_spec lawful live fits open' none drained

variable (few : ∀ o ∈ objects, o.ordinal ≤ maxOrdinal)
  (ordered : objects.Pairwise fun a b => a.ordinal < b.ordinal)

include few ordered

theorem iterate_spec (live : Live dec frames objects log lane) (positive : 0 < maxRecords)
    (fits : lane.held.length ≤ maxRecords) (tick : Tick) (attempted : Bool) :
    Iterated dec frames objects log maxRecords (tick.Waits attempted) lane.load
      (lane.iterate dec maxRecords tick attempted) := by
  obtain ⟨rx, pending, kept, settled⟩ := settle_spec lawful few ordered live fits
  have same : (lane.settle maxRecords).load = lane.load := by
    unfold S3Lane.load
    rw [rx, pending]
  unfold S3Lane.iterate
  rw [← same]
  rcases kept with ⟨live, fits⟩ | dead
  · rw [live.check]
    refine advance_spec lawful live positive fits ?_ tick attempted
    rcases settled with quiet | settled
    · rw [live.poisoned] at quiet
      cases quiet
    · exact settled
  · rw [dead.check]
    exact ⟨.poisoned dead, Nat.le_refl _⟩

/-- A poll returns, and ends well. It leaves no more to do than before, and less when it
waited although messages came in time. -/
theorem pollLoop_spec (positive : 0 < maxRecords) (ticks : Nat → Tick) (fuel : Nat) :
    ∀ (iteration : Nat) (lane : S3Lane σ), Live dec frames objects log lane →
      lane.held.length ≤ maxRecords → lane.load < fuel →
      ∃ polled last, S3Lane.pollLoop dec maxRecords ticks fuel iteration lane =
          some (polled, last) ∧
        Ends dec frames objects log maxRecords
          (0 < iteration ∨ last.load < lane.load ∨
            ∃ i, (ticks i).empty = true ∧ ((ticks i).expired = true ∨ (ticks i).timedOut = true))
          polled last ∧ last.load ≤ lane.load := by
  induction fuel with
  | zero =>
    intro iteration lane _ _ enough
    omega
  | succ fuel ih =>
    intro iteration lane live fits enough
    have iterated := iterate_spec lawful few ordered live positive fits (ticks iteration)
      (decide (0 < iteration))
    unfold S3Lane.pollLoop
    generalize lane.iterate dec maxRecords (ticks iteration) (decide (0 < iteration)) = outcome
      at iterated ⊢
    cases outcome with
    | inl stopped =>
      obtain ⟨polled, last⟩ := stopped
      obtain ⟨ends, less⟩ := iterated
      refine ⟨polled, last, rfl, ?_, less⟩
      cases ends with
      | batch live ack fits => exact .batch live ack fits
      | finished live empty spent => exact .finished live empty spent
      | poisoned dead => exact .poisoned dead
      | waits live empty why =>
        refine .waits live empty ?_
        rcases why with attempted | starved
        · exact .inl (of_decide_eq_true attempted)
        · exact .inr (.inr ⟨iteration, starved⟩)
    | inr next =>
      obtain ⟨live, fits, less⟩ := iterated
      obtain ⟨polled, last, same, ends, fewer⟩ := ih (iteration + 1) next live fits (by omega)
      refine ⟨polled, last, same, ?_, by omega⟩
      cases ends with
      | batch live ack fits => exact .batch live ack fits
      | finished live empty spent => exact .finished live empty spent
      | poisoned dead => exact .poisoned dead
      | waits live empty why => exact .waits live empty (.inr (.inl (by omega)))

end Input

end Stages

/-- An object of lines is spoiled only if framing what its codec decodes fails, or for its
number of records. -/
theorem spoiled_outcome {κ : Type} {codec : StreamCodec κ} {decoded : Bytes → Bytes × Bool}
    {maxRecordBytes : Nat} {frames : String → Bytes → List Bytes} {o : LaneObject} {state : κ}
    (decodes : codec.Decodes decoded) (started : codec.start = .ok state)
    (spoiled : Spoiled (framing codec maxRecordBytes) frames o) :
    (Json.outcome maxRecordBytes (decoded o.bytes).1 (decoded o.bytes).2).2 = true ∨
      maxRecordIndex + 1 < (frames o.key o.bytes).length := by
  cases spoiled with
  | unopened refused =>
    simp only [framing, started] at refused
    cases refused
  | undecodable failing bytes =>
    rw [← bytes, failing_outcome decodes failing]
    exact .inl rfl
  | @unfinished sink out records text fed refused =>
    have feeding : Feeding (framing codec maxRecordBytes) o.key o.bytes
        (⟨some sink, [], []⟩, out) :=
      ⟨sink, o.bytes, rfl, (List.append_nil out).symm ▸ fed, List.append_nil _⟩
    obtain ⟨g, result, finished, -, outcome⟩ := finish_outcome decodes feeding rfl
    simp only [ObjectFramer.finishObject, refused, ne_eq, not_true_eq_false, if_false] at finished
    cases finished
    rw [outcome]
    exact .inl rfl
  | overfull many => exact .inr many

end Spate.S3
