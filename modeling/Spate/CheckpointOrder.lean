import Spate.CheckpointCausality

set_option autoImplicit false

/- What a settled partition comes to depends on its batches alone: not on the
order they resolved in, nor on when the checkpointer drained or advanced. -/
namespace Spate.Checkpoint

/-- What is left of a partition's batches once all of them are resolved. -/
@[ext] structure Settlement where
  retired : Nat
  watermark : Option Int64
  pending : Nat
  stalledSeq : Option Nat
  deriving DecidableEq

/-- The reference: the longest delivered prefix is retired, its last offset is
the watermark, and a failed batch behind it stalls the partition. -/
def settlement (batches : List (Int64 × AckStatus)) : Settlement :=
  let delivered := batches.takeWhile fun batch => batch.2 = .delivered
  let rest := batches.drop delivered.length
  { retired := delivered.length
    watermark := delivered.getLast?.map fun batch => batch.1 + 1
    pending := rest.length
    stalledSeq :=
      if rest.head?.any fun batch => batch.2 = .failed then some delivered.length else none }

namespace World

/-- The acknowledgment states of a partition's batches in the current epoch, in
the order they were issued. -/
def sent (s : World) (p : PartitionId) : List AckState :=
  s.heap.filter fun cell => cell.id.partition = p ∧ cell.id.epoch = s.cp.epoch

def batches (s : World) (p : PartitionId) : List (Int64 × AckStatus) :=
  (s.sent p).map fun cell => (cell.lastOffset, cell.status)

/-- The watermarks returned for a partition in the current epoch, oldest first. -/
def watermarks (s : World) (p : PartitionId) : List Int64 :=
  (s.returned.filter fun entry => entry.1 = p ∧ entry.2.1 = s.cp.epoch).map (·.2.2)

def observed (s : World) (p : PartitionId) : Option Settlement :=
  (s.cp.trackers.lookup p).map fun tracker =>
    { retired := tracker.headSeq
      watermark := (s.watermarks p).getLast?
      pending := s.cp.pending p
      stalledSeq := tracker.stalledSeq }

/-- Every batch of the partition's current epoch is resolved and drained. -/
structure Settled (s : World) (p : PartitionId) : Prop where
  tracked : s.cp.tracks p = true
  resolved : ∀ cell ∈ s.sent p, cell.refs = 0
  registered : ∀ reg ∈ s.regs, ¬ (reg.id.partition = p ∧ reg.id.epoch = s.cp.epoch)
  applied : ∀ msg ∈ s.messages, ¬ (msg.id.partition = p ∧ msg.id.epoch = s.cp.epoch)

instance (s : World) (p : PartitionId) : Decidable (s.Settled p) :=
  decidable_of_iff
    (s.cp.tracks p = true ∧ (∀ cell ∈ s.sent p, cell.refs = 0) ∧
      (∀ reg ∈ s.regs, ¬ (reg.id.partition = p ∧ reg.id.epoch = s.cp.epoch)) ∧
      ∀ msg ∈ s.messages, ¬ (msg.id.partition = p ∧ msg.id.epoch = s.cp.epoch))
    ⟨fun ⟨tracked, resolved, registered, applied⟩ => ⟨tracked, resolved, registered, applied⟩,
      fun ⟨tracked, resolved, registered, applied⟩ => ⟨tracked, resolved, registered, applied⟩⟩

def sentIds (s : World) (p : PartitionId) : List BatchId :=
  (s.heap.map (·.id)).filter fun id => id.partition = p ∧ id.epoch = s.cp.epoch

/-- The batches of the epoch were sent in the order of their sequences. -/
def Numbered (s : World) : Prop :=
  ∀ p, (s.sentIds p).map (·.seq) = List.range (s.sentIds p).length ∧
    ∀ (i : Nat) (thread : IssuerThread), (p, s.cp.epoch, i) ∈ s.issuedBy →
      s.issuers[i]? = some thread → thread.sendsNext s.cp.epoch p = (s.sentIds p).length

variable {s s' : World} {p : PartitionId} {cell : AckState} {op : Op} {k : Nat}
  {t : PartitionTracker}

theorem sentIds_unissued (issued : Issued s) (unissued : ∀ i, (p, s.cp.epoch, i) ∉ s.issuedBy) :
    s.sentIds p = [] := by
  rw [sentIds, List.filter_eq_nil_iff]
  intro id member same
  obtain ⟨samePartition, sameEpoch⟩ := of_decide_eq_true same
  obtain ⟨i, recorded⟩ := issued.owned id (List.mem_append_right _ member)
  rw [samePartition, sameEpoch] at recorded
  exact unissued i recorded

theorem Numbered.frame (numbered : Numbered s) (epoch : s'.cp.epoch = s.cp.epoch)
    (history : s'.issuedBy = s.issuedBy) (threads : s'.issuers = s.issuers)
    (cells : s'.heap.map (·.id) = s.heap.map (·.id)) : Numbered s' := by
  intro p
  have same : s'.sentIds p = s.sentIds p := by rw [sentIds, sentIds, cells, epoch]
  rw [same, history, threads, epoch]
  exact numbered p

theorem sentIds_append (s : World) {id : BatchId} (own : cell.id = id) (p : PartitionId) :
    ({ s with heap := s.heap ++ [cell] } : World).sentIds p = s.sentIds p ++
      if id.partition = p ∧ id.epoch = s.cp.epoch then [id] else [] := by
  subst own
  by_cases same : cell.id.partition = p ∧ cell.id.epoch = s.cp.epoch
  · simp [sentIds, same]
  · simp only [sentIds, List.map_append, List.filter_append, if_neg same, List.map_cons,
      List.map_nil]
    rw [List.filter_cons_of_neg (by simpa using same), List.filter_nil]

theorem Numbered.send (numbered : Numbered s) (issued : Issued s) (counters : Counters s)
    {i : Nat} {issuer : AckIssuer} {reg : Registration}
    (found : s.issuers[i]? = some ⟨issuer, some reg⟩) (regs : List Registration) :
    Numbered { s with
      issuers := s.issuers.set i ⟨issuer, none⟩
      regs
      heap := s.heap ++ [.new reg.id reg.lastOffset] } := by
  intro p
  have own : (AckState.new reg.id reg.lastOffset).id = reg.id := rfl
  have grown := sentIds_append s own p
  have owned := counters.flight_owned i _ reg found rfl
  by_cases here : reg.id.partition = p ∧ reg.id.epoch = s.cp.epoch
  · rw [here.1, here.2] at owned
    have owed := (numbered p).2 i _ owned found
    simp only [IssuerThread.sendsNext, here, and_self, ↓reduceIte] at owed
    rw [if_pos here] at grown
    refine ⟨?_, ?_⟩
    · refine (congrArg _ grown).trans (Eq.trans ?_ (congrArg (List.range ·.length) grown).symm)
      simp only [List.map_append, List.length_append, List.length_singleton, List.map_cons,
        List.map_nil]
      rw [(numbered p).1, owed, List.range_succ]
    · intro j thread recorded present
      obtain ⟨old, earlier, paid⟩ := sendsNext_send issued counters found recorded present
      rw [if_pos here, (numbered p).2 j old recorded earlier] at paid
      refine paid.trans (Eq.trans ?_ (congrArg List.length grown).symm)
      simp
  · rw [if_neg here, List.append_nil] at grown
    refine ⟨?_, ?_⟩
    · refine (congrArg _ grown).trans (Eq.trans ?_ (congrArg (List.range ·.length) grown).symm)
      exact (numbered p).1
    · intro j thread recorded present
      obtain ⟨old, earlier, paid⟩ := sendsNext_send issued counters found recorded present
      rw [if_neg here, (numbered p).2 j old recorded earlier] at paid
      exact paid.trans (congrArg List.length grown).symm

theorem move_numbered (move : Move s op s') (allowed : IssuesOwned s op) (issued : Issued s)
    (counters : Counters s) (numbered : Numbered s) : Numbered s' := by
  have issued' := move_issued move allowed issued
  have added (thread : IssuerThread) :
      Numbered { s with issuers := s.issuers ++ [thread] } := by
    intro p
    refine ⟨(numbered p).1, ?_⟩
    intro i other recorded present
    rw [List.getElem?_append_left (issued.issuer_valid _ recorded)] at present
    exact (numbered p).2 i other recorded present
  cases move with
  | handle | cloneIssuer => exact added _
  | load found =>
    intro p
    refine ⟨(numbered p).1, ?_⟩
    intro j thread recorded present
    rcases sendsNext_load issued counters found allowed.2 recorded present with
      ⟨old, known, earlier, same⟩ | ⟨unissued, zero⟩
    · exact same.trans ((numbered p).2 j old known earlier)
    · have nothing : s.sentIds p = [] := sentIds_unissued issued unissued
      exact zero.trans (congrArg List.length nothing).symm
  | send found => exact numbered.send issued counters found _
  | clone found | fail found | drop found =>
    exact numbered.frame rfl rfl rfl (Lists.map_set_same found (·.id) rfl)
  | @beginEpoch partitions epoch idle asserted =>
    rcases Nat.eq_or_lt_of_le (epoch_le_of_asserted asserted) with same | above
    · exact numbered.frame same.symm rfl rfl rfl
    · intro p
      have unissued : ∀ i, (p, epoch, i) ∉ s.issuedBy := by
        intro i recorded
        have bound := issued.issued_epoch _ recorded
        have published := issued.published
        dsimp only at bound
        omega
      have nothing := sentIds_unissued issued' unissued
      rw [nothing]
      exact ⟨rfl, fun i _ recorded => absurd recorded (unissued i)⟩
  | ackStale pops | ackApplied pops | ackRepeated pops =>
    cases pops <;> exact numbered.frame rfl rfl rfl rfl
  | _ => exact numbered.frame rfl rfl rfl rfl

/-- A batch whose handles are gone is on its way, or the tracker has it. -/
def Delivering (s : World) : Prop :=
  ∀ cell ∈ s.heap, cell.refs = 0 → cell.id.epoch = s.cp.epoch → ∀ t,
    s.cp.trackers.lookup cell.id.partition = some t → t.Awaits cell.id.seq →
      ∃ msg ∈ s.messages, msg.id = cell.id

/-- A resolution leaves the queues only when no tracker waits for it any more. -/
theorem Delivering.frame (delivering : Delivering s) (move : Move s op s') (causal : Causal s op)
    (causality : Causality s) (cells : ∀ cell ∈ s'.heap, cell.refs = 0 → cell ∈ s.heap)
    (messages : ∀ msg ∈ s.messages, msg ∈ s'.messages ∨
      (msg.id.epoch = s.cp.epoch → ∀ t', s'.cp.trackers.lookup msg.id.partition = some t' →
        ¬ t'.Awaits msg.id.seq)) : Delivering s' := by
  intro cell member dropped current t' found awaits
  have member := cells cell member dropped
  rcases move_tracked move found with ⟨rfl, fresh⟩ | ⟨epoch, tracked⟩
  · obtain ⟨i, recorded⟩ := causality.issued.cell_owned ⟨cell, member, rfl⟩
    rw [current] at recorded
    exact absurd recorded (causality.admission.unissued causal fresh i)
  · have current := current.trans epoch
    obtain ⟨t, before, awaited⟩ : ∃ t, s.cp.trackers.lookup cell.id.partition = some t ∧
        t.Awaits cell.id.seq := by
      cases tracked with
      | kept before => exact ⟨t', before, awaits⟩
      | registered before _ _ registered =>
        exact ⟨_, before, PartitionTracker.awaits_of_register registered awaits⟩
      | resolved before _ _ applied =>
        exact ⟨_, before, (PartitionTracker.awaits_of_resolve applied awaits).1⟩
      | advanced before => exact ⟨_, before, PartitionTracker.awaits_of_advanceOn awaits⟩
    obtain ⟨msg, sent, sameId⟩ := delivering cell member dropped current t before awaited
    rcases messages msg sent with kept | settled
    · exact ⟨msg, kept, sameId⟩
    · rw [sameId] at settled
      exact absurd awaits (settled current t' found)

theorem Delivering.drop (delivering : Delivering s) {handle : Nat} (live : 0 < cell.refs) :
    Delivering { s with
      heap := s.heap.set handle cell.drop.1
      acks := s.acks ++ cell.drop.2.toList } := by
  intro other member dropped current t tracked awaits
  rcases List.mem_or_eq_of_mem_set member with earlier | rfl
  · obtain ⟨msg, sent, sameId⟩ := delivering other earlier dropped current t tracked awaits
    refine ⟨msg, ?_, sameId⟩
    simp only [messages, List.mem_append] at sent ⊢
    tauto
  · have last : cell.refs = 1 := by
      simp only [AckState.drop] at dropped
      omega
    refine ⟨⟨cell.id, cell.lastOffset, cell.status⟩, ?_, rfl⟩
    simp [messages, AckState.drop, last]

theorem move_delivering (move : Move s op s') (causal : Causal s op) (causality : Causality s)
    (delivering : Delivering s) : Delivering s' := by
  have frame := delivering.frame move causal causality
  have kept : ∀ cell ∈ s.heap, cell.refs = 0 → cell ∈ s.heap := fun _ member _ => member
  have updated {handle : Nat} {new : AckState} (live : 0 < new.refs) :
      ∀ cell ∈ s.heap.set handle new, cell.refs = 0 → cell ∈ s.heap := by
    intro cell member dropped
    rcases List.mem_or_eq_of_mem_set member with earlier | rfl
    · exact earlier
    · omega
  have all {s' : World} (same : s'.messages = s.messages) (msg : AckMsg)
      (member : msg ∈ s.messages) : msg ∈ s'.messages := same ▸ member
  cases move with
  | send found =>
    refine frame ?_ fun _ => .inl
    intro cell member dropped
    rcases List.mem_append.mp member with earlier | now
    · exact earlier
    · obtain rfl := List.mem_singleton.mp now
      cases dropped
  | clone found live => exact frame (updated (Nat.succ_pos _)) fun _ => .inl
  | fail found live => exact frame (updated live) fun _ => .inl
  | drop found live => exact delivering.drop live
  | regGap inPhase queued current found gap =>
    exact absurd (causality.sequenced.front queued current found).1
      (PartitionTracker.register_eq_none gap)
  | @ackStale msg popped pops stale =>
    have fewer := messages_of_pops pops
    have unchanged : popped.cp = s.cp := by cases pops <;> rfl
    have cells : popped.heap = s.heap := by cases pops <;> rfl
    refine frame (cells ▸ kept) ?_
    intro other member
    rcases List.mem_cons.mp (fewer.mem_iff.mp member) with rfl | waiting
    · refine .inr fun current t found => ?_
      rw [unchanged] at found
      rcases stale with old | untracked
      · exact absurd current old
      · simp [untracked] at found
    · exact .inl waiting
  | @ackApplied msg popped tracker pops current before applied =>
    have fewer := messages_of_pops pops
    have cells : popped.heap = s.heap := by cases pops <;> rfl
    refine frame (cells ▸ kept) ?_
    intro other member
    rcases List.mem_cons.mp (fewer.mem_iff.mp member) with rfl | waiting
    · refine .inr fun _ t found awaits => ?_
      rcases FastMap.lookup_insert_cases found with ⟨_, rfl⟩ | ⟨elsewhere, _⟩
      · exact (PartitionTracker.awaits_of_resolve applied awaits).2 rfl
      · exact elsewhere rfl
    · exact .inl waiting
  | @ackRepeated msg popped tracker pops current found repeated =>
    have member := (messages_of_pops pops).mem_iff.mpr List.mem_cons_self
    rcases causality.awaited member current found with outcome | outcome <;>
      simp [outcome] at repeated
  | ackDeferred inPhase queued current found ahead =>
    refine frame kept fun msg member => .inl ?_
    simp only [messages, inPhase, queued, DrainPhase.deferred, List.mem_append, List.mem_cons,
      List.not_mem_nil, or_false] at member ⊢
    tauto
  | ackUnknown inPhase current found ahead =>
    have below := causality.registered _ inPhase _ List.mem_cons_self current _ found
    omega
  | regress inPhase | drainStart inPhase | acksRetry inPhase =>
    refine frame kept fun msg member => .inl (all ?_ msg member)
    simp [messages, inPhase, DrainPhase.deferred]
  | @regsDone late deferred inPhase empty =>
    refine frame kept fun msg member => .inl (all ?_ msg member)
    cases late <;> simp [messages, inPhase, DrainPhase.deferred]
  | drainDone done =>
    refine frame kept fun msg member => .inl (all ?_ msg member)
    rcases done with ⟨inPhase, _⟩ | inPhase <;>
      simp [messages, inPhase, finishDrain, DrainPhase.deferred]
  | _ => exact frame kept fun _ => .inl

theorem Tracked.headSeq (tracked : Tracked s s' p op t) (steady : ∀ now, op ≠ .takeWatermarks now) :
    ∃ before, s.cp.trackers.lookup p = some before ∧ t.headSeq = before.headSeq := by
  cases tracked with
  | kept before => exact ⟨t, before, rfl⟩
  | registered before _ _ registered =>
    exact ⟨_, before, (PartitionTracker.register_eq_some registered).2.1⟩
  | resolved before => exact ⟨_, before, PartitionTracker.resolve_headSeq _ _ _⟩
  | @advanced _ now => exact absurd rfl (steady now)

/-- The advance counter of a tracked partition is the number of batches retired. -/
def Gated (s : World) : Prop :=
  ∀ p t, s.cp.trackers.lookup p = some t → s.cp.gates.lookup p = some ⟨t.headSeq⟩

theorem move_gated (move : Move s op s') (gated : Gated s) : Gated s' := by
  intro p t found
  have drained (drains : op = .drain) : s.cp.gates.lookup p = some ⟨t.headSeq⟩ := by
    subst drains
    rcases move_tracked move found with ⟨_, fresh⟩ | ⟨_, tracked⟩
    · cases fresh
    · obtain ⟨before, present, same⟩ := tracked.headSeq (by simp)
      rw [same]
      exact gated p before present
  cases move with
  | beginEpoch idle _ =>
    rw [FastMap.lookup_ofKeys] at found ⊢
    split at found
    · rename_i listed
      obtain rfl := Option.some.inj found
      rw [if_pos listed]
      rfl
    · cases found
  | extendEpoch idle _ =>
    rw [FastMap.lookup_insertAll] at found ⊢
    split at found
    · rename_i listed
      obtain rfl := Option.some.inj found
      rw [if_pos listed]
      rfl
    · rename_i unlisted
      rw [if_neg unlisted]
      exact gated p t found
  | @revoke partitions idle =>
    have present : (FastMap.eraseAll partitions s.cp.trackers).lookup p = some t := found
    change (FastMap.eraseAll partitions s.cp.gates).lookup p = some ⟨t.headSeq⟩
    rw [FastMap.lookup_eraseAll] at present ⊢
    split at present
    · cases present
    · rename_i unlisted
      rw [if_neg unlisted]
      exact gated p t present
  | regApplied | ackApplied | ackRepeated | ackDeferred | ackUnknown => exact drained rfl
  | ackStale pops => cases pops <;> exact gated p t found
  | @takeWatermarks now idle =>
    rw [Checkpointer.takeWatermarks_lookup] at found
    obtain ⟨before, present, rfl⟩ := Option.map_eq_some_iff.mp found
    rw [Checkpointer.takeWatermarks_gates _ _ _ present, gated p before present]
    have extent := before.next_eq
    have extent' := (before.advanceOn now).2.next_eq
    have forward := before.advanceOn_headSeq_le now
    rw [PartitionTracker.advanceOn_nextSeq] at extent'
    simp only [Option.map_some, AdvanceCounter.add, PartitionTracker.pending, Option.some.injEq,
      AdvanceCounter.mk.injEq]
    omega
  | _ => exact gated p t found

/-- The watermark is one past the last offset of batch `k` of the epoch. -/
def Backed (s : World) (p : PartitionId) (w : Int64) (k : Nat) : Prop :=
  ∃ lastOffset, s.Known ⟨p, s.cp.epoch, k⟩ lastOffset ∧ w = lastOffset + 1

/-- The watermarks of the epoch belong to batches further and further on, the
last of them to the batch before the tracker's head. -/
structure Marked (s : World) : Prop where
  past : ∀ entry ∈ s.returned, entry.2.1 ≤ s.cp.epoch
  backed : ∀ p, ∃ ks : List Nat, ks.Pairwise (· < ·) ∧
    List.Forall₂ (s.Backed p) (s.watermarks p) ks ∧
    ∀ t, s.cp.trackers.lookup p = some t →
      ks.getLast? = if t.headSeq = 0 then none else some (t.headSeq - 1)

theorem Marked.unissued (marked : Marked s) (issued : Issued s)
    (unissued : ∀ i, (p, s.cp.epoch, i) ∉ s.issuedBy) : s.watermarks p = [] := by
  obtain ⟨ks, _, backed, _⟩ := marked.backed p
  generalize s.watermarks p = returned at backed ⊢
  cases backed with
  | nil => rfl
  | cons first _ =>
    obtain ⟨_, ⟨cell, stored, sameId, _⟩, _⟩ := first
    obtain ⟨i, recorded⟩ := issued.cell_owned ⟨cell, stored, sameId⟩
    exact absurd recorded (unissued i)

theorem Marked.frame (marked : Marked s) (move : Move s op s') (causal : Causal s op)
    (causality : Causality s) (later : s.cp.epoch ≤ s'.cp.epoch)
    (returned : s'.returned = s.returned) (steady : ∀ now, op ≠ .takeWatermarks now) :
    Marked s' := by
  refine ⟨?_, ?_⟩
  · rw [returned]
    exact fun entry member => Nat.le_trans (marked.past entry member) later
  intro p
  by_cases epoch : s'.cp.epoch = s.cp.epoch
  · have same : s'.watermarks p = s.watermarks p := by
      rw [watermarks, watermarks, epoch, returned]
    obtain ⟨ks, increasing, backed, last⟩ := marked.backed p
    refine ⟨ks, increasing, ?_, ?_⟩
    · rw [same]
      refine backed.imp ?_
      rintro w k ⟨lastOffset, known, rfl⟩
      exact ⟨lastOffset, by rw [epoch]; exact known.grow (move_heapGrows move), rfl⟩
    · intro t found
      rcases move_tracked move found with ⟨rfl, fresh⟩ | ⟨_, tracked⟩
      · have unissued := causality.admission.unissued causal fresh
        rw [epoch] at unissued
        rw [marked.unissued causality.issued unissued] at backed
        cases backed
        rfl
      · obtain ⟨before, present, head⟩ := tracked.headSeq steady
        rw [head]
        exact last before present
  · have empty : s'.watermarks p = [] := by
      rw [watermarks, returned, List.filter_eq_nil_iff.mpr, List.map_nil]
      intro entry member matches'
      have bound := marked.past entry member
      have := (of_decide_eq_true matches').2
      omega
    refine ⟨[], List.Pairwise.nil, ?_, ?_⟩
    · rw [empty]
      exact List.Forall₂.nil
    · intro t found
      rcases move_tracked move found with ⟨rfl, _⟩ | ⟨same, _⟩
      · rfl
      · exact absurd same epoch

private theorem le_getLast {ks : List Nat} (increasing : ks.Pairwise (· < ·)) {last : Nat}
    (isLast : ks.getLast? = some last) (member : k ∈ ks) : k ≤ last := by
  obtain ⟨front, rfl⟩ := List.getLast?_eq_some_iff.mp isLast
  rcases List.mem_append.mp member with earlier | now
  · exact Nat.le_of_lt ((List.pairwise_append.mp increasing).2.2 k earlier last (by simp))
  · exact Nat.le_of_eq (List.mem_singleton.mp now)

theorem watermarks_append (s : World) (entries : List (PartitionId × Int64)) (cp : Checkpointer)
    (same : cp.epoch = s.cp.epoch) (p : PartitionId) :
    ({ s with
        cp
        returned := s.returned ++ entries.map fun entry => (entry.1, s.cp.epoch, entry.2) } :
      World).watermarks p =
      s.watermarks p ++ (entries.filter fun entry => entry.1 = p).map (·.2) := by
  simp only [watermarks, same, List.filter_append, List.map_append, List.filter_map,
    List.map_map]
  congr 2
  simp [Function.comp_def]

theorem Marked.take (marked : Marked s) (evidence : Evidence s) (now : Nat) :
    Marked { s with
      cp := (s.cp.takeWatermarks now).2
      returned := s.returned ++
        (s.cp.takeWatermarks now).1.map fun entry => (entry.1, s.cp.epoch, entry.2) } := by
  refine ⟨?_, ?_⟩
  · intro entry member
    rcases List.mem_append.mp member with earlier | now
    · exact marked.past entry earlier
    · obtain ⟨_, _, rfl⟩ := List.mem_map.mp now
      exact Nat.le_refl _
  · intro p
    obtain ⟨ks, increasing, backed, last⟩ := marked.backed p
    have appended := watermarks_append s (s.cp.takeWatermarks now).1 (s.cp.takeWatermarks now).2
      rfl p
    rw [Checkpointer.takeWatermarks_filter] at appended
    cases found : s.cp.trackers.lookup p with
    | none =>
      rw [found] at appended
      refine ⟨ks, increasing, ?_, ?_⟩
      · rw [appended]
        simp only [Option.bind_none, Option.map_none, Option.toList_none, List.map_nil,
          List.append_nil]
        exact backed
      · intro t present
        rw [Checkpointer.takeWatermarks_lookup, found] at present
        cases present
    | some tracker =>
      have sound := evidence.trackers p tracker found
      have forward := tracker.advanceOn_headSeq_le now
      have last := last tracker found
      have present : (s.cp.takeWatermarks now).2.trackers.lookup p =
          some (tracker.advanceOn now).2 := by
        rw [Checkpointer.takeWatermarks_lookup, found]
        rfl
      rw [found] at appended
      simp only [Option.bind_some] at appended
      rw [PartitionTracker.advanceOn_watermark] at appended
      split at appended
      · rename_i still
        refine ⟨ks, increasing, ?_, ?_⟩
        · rw [appended]
          simp only [Option.map_none, Option.toList_none, List.map_nil, List.append_nil]
          exact backed
        · intro t located
          obtain rfl := Option.some.inj (present.symm.trans located)
          rw [still]
          exact last
      · rename_i moved
        obtain ⟨slot, located⟩ := tracker.slotAt_isSome ((tracker.advanceOn now).2.headSeq - 1)
          (by omega) (by have := tracker.advanceOn_headSeq_le_nextSeq now; omega)
        rw [located] at appended
        refine ⟨ks ++ [(tracker.advanceOn now).2.headSeq - 1], ?_, ?_, ?_⟩
        · refine List.pairwise_append.mpr ⟨increasing, List.pairwise_singleton _ _, ?_⟩
          intro k member new isNew
          obtain rfl := List.mem_singleton.mp isNew
          split at last
          · rw [List.getLast?_eq_none_iff] at last
            subst last
            cases member
          · have := le_getLast increasing last member
            omega
        · rw [appended]
          refine List.rel_append backed ?_
          exact List.Forall₂.cons ⟨slot.lastOffset, sound.known _ slot located, rfl⟩
            List.Forall₂.nil
        · intro t isNext
          obtain rfl := Option.some.inj (present.symm.trans isNext)
          rw [List.getLast?_append, if_neg (by omega)]
          rfl

theorem move_marked (move : Move s op s') (causal : Causal s op) (causality : Causality s)
    (marked : Marked s) : Marked s' := by
  have frame := marked.frame move causal causality
  cases move with
  | beginEpoch idle asserted => exact frame (epoch_le_of_asserted asserted) rfl (by simp)
  | ackStale pops | ackApplied pops | ackRepeated pops =>
    cases pops <;> exact frame (Nat.le_refl _) rfl (by simp)
  | takeWatermarks idle => exact marked.take causality.evidence _
  | _ => exact frame (Nat.le_refl _) rfl (by simp)

structure Ordered (s : World) : Prop where
  causality : Causality s
  numbered : Numbered s
  delivering : Delivering s
  gated : Gated s
  marked : Marked s

open Transition

theorem ordered_of_run {events : List Op} (run : Run World.step Causal World.start events s) :
    Ordered s := by
  refine run.invariant Ordered ?_ ?_
  · refine ⟨causality_of_run .nil, ?_, ?_, ?_, ⟨by simp [start], ?_⟩⟩
    · intro p
      exact ⟨rfl, by simp [start]⟩
    · intro cell member
      cases member
    · intro p t found
      cases found
    · intro p
      refine ⟨[], List.Pairwise.nil, List.Forall₂.nil, ?_⟩
      intro t found
      cases found
  · intro before after event ordered causal taken
    have move := move_of_step taken
    obtain ⟨causality, numbered, delivering, gated, marked⟩ := ordered
    exact ⟨move_causality move causal causality,
      move_numbered move causal.issuesOwned causality.issued causality.counters numbered,
      move_delivering move causal causality delivering, move_gated move gated,
      move_marked move causal causality marked⟩

theorem sent_ids (s : World) (p : PartitionId) : (s.sent p).map (·.id) = s.sentIds p := by
  simp only [sent, sentIds, List.filter_map]
  rfl

theorem Numbered.sent_id (numbered : Numbered s) (found : (s.sent p)[k]? = some cell) :
    cell.id = ⟨p, s.cp.epoch, k⟩ := by
  have filtered := (List.mem_filter.mp (List.mem_of_getElem? found)).2
  obtain ⟨samePartition, sameEpoch⟩ := of_decide_eq_true filtered
  have seqs := (numbered p).1
  rw [← sent_ids] at seqs
  have here : (((s.sent p).map (·.id)).map (·.seq))[k]? = some cell.id.seq := by
    simp [found]
  rw [seqs] at here
  obtain ⟨_, sameSeq⟩ := List.getElem?_eq_some_iff.mp here
  rw [List.getElem_range] at sameSeq
  rw [← samePartition, ← sameEpoch, sameSeq]

theorem Ordered.sent_of_mem (ordered : Ordered s) (member : cell ∈ s.heap)
    (own : cell.id = ⟨p, s.cp.epoch, k⟩) : (s.sent p)[k]? = some cell := by
  have listed : cell ∈ s.sent p := List.mem_filter.mpr ⟨member, by simp [own]⟩
  obtain ⟨j, found⟩ := List.mem_iff_getElem?.mp listed
  have sameId := (ordered.numbered.sent_id found).symm.trans own
  have sameSeq : j = k := congrArg BatchId.seq sameId
  exact sameSeq ▸ found

theorem Ordered.settled_nextSeq (ordered : Ordered s) (settled : Settled s p)
    (found : s.cp.trackers.lookup p = some t) : t.nextSeq = (s.sent p).length := by
  obtain ⟨causality, numbered, _⟩ := ordered
  have sameLength : (s.sent p).length = (s.sentIds p).length := by
    rw [← sent_ids, List.length_map]
  by_cases unissued : ∀ i, (p, s.cp.epoch, i) ∉ s.issuedBy
  · rw [sameLength, sentIds_unissued causality.issued unissued]
    exact nextSeq_unissued causality.issued causality.evidence found unissued
  · simp only [not_forall, not_not] at unissued
    obtain ⟨i, recorded⟩ := unissued
    have present := List.getElem?_eq_getElem (causality.issued.issuer_valid _ recorded)
    obtain ⟨m, waiting, next⟩ := causality.sequenced p t found
    rw [queuedSeqs_nil settled.registered] at waiting
    have nothing : m = 0 := by
      have := congrArg List.length waiting
      simpa using this.symm
    have expected := next i _ recorded present
    have counted := (numbered p).2 i _ recorded present
    omega

theorem Ordered.settled_slot (ordered : Ordered s) (settled : Settled s p)
    (found : s.cp.trackers.lookup p = some t) (located : (s.sent p)[k]? = some cell) :
    (k < t.headSeq ∧ cell.status = .delivered) ∨
      (t.headSeq ≤ k ∧ t.slotAt k = some ⟨cell.lastOffset, cell.status.slotState⟩) := by
  have own := ordered.numbered.sent_id located
  have listed := List.mem_of_getElem? located
  have member := (List.mem_filter.mp listed).1
  have issued := ordered.causality.issued
  have sound := ordered.causality.evidence.trackers p t found
  by_cases passed : k < t.headSeq
  · refine Or.inl ⟨passed, ?_⟩
    obtain ⟨other, stored, sameId, _, delivered⟩ := sound.passed k passed
    rwa [issued.cell_unique stored member (sameId.trans own.symm)] at delivered
  · have above := Nat.le_of_not_lt passed
    have inside := (List.getElem?_eq_some_iff.mp located).1
    rw [← ordered.settled_nextSeq settled found] at inside
    obtain ⟨slot, atSlot⟩ := t.slotAt_isSome k above inside
    have answered : slot.state ≠ .pending := by
      intro waiting
      have awaits : t.Awaits k := by
        refine ⟨above, ?_⟩
        intro other atOther
        rw [atSlot] at atOther
        rw [← Option.some.inj atOther, waiting]
      have sameSeq : cell.id.seq = k := by rw [own]
      have samePartition : cell.id.partition = p := by rw [own]
      have sameEpoch : cell.id.epoch = s.cp.epoch := by rw [own]
      obtain ⟨msg, sent, sameId⟩ := ordered.delivering cell member (settled.resolved cell listed)
        sameEpoch t (samePartition ▸ found) (sameSeq ▸ awaits)
      exact settled.applied msg sent ⟨sameId ▸ samePartition, sameId ▸ sameEpoch⟩
    obtain ⟨status, state⟩ := SlotState.exists_status answered
    obtain ⟨other, stored, sameId, _, sameStatus⟩ := sound.resolved k slot status atSlot state
    obtain ⟨known, storedToo, knownId, knownOffset⟩ := sound.known k slot atSlot
    rw [issued.cell_unique stored member (sameId.trans own.symm)] at sameStatus
    rw [issued.cell_unique storedToo member (knownId.trans own.symm)] at knownOffset
    refine Or.inr ⟨above, ?_⟩
    rw [atSlot, knownOffset, sameStatus, ← state]

theorem Ordered.settled_delivered (ordered : Ordered s) (settled : Settled s p)
    (found : s.cp.trackers.lookup p = some t) (now : Nat) :
    ((s.batches p).takeWhile fun batch => batch.2 = .delivered) =
      (s.batches p).take (t.advanceOn now).2.headSeq := by
  have located {k : Nat} {batch : Int64 × AckStatus} (inBatches : (s.batches p)[k]? = some batch) :
      ∃ cell, (s.sent p)[k]? = some cell ∧ batch = (cell.lastOffset, cell.status) := by
    rw [batches, List.getElem?_map] at inBatches
    obtain ⟨cell, present, same⟩ := Option.map_eq_some_iff.mp inBatches
    exact ⟨cell, present, same.symm⟩
  apply Lists.takeWhile_eq_take
  · intro k batch below inBatches
    obtain ⟨cell, present, rfl⟩ := located inBatches
    rcases ordered.settled_slot settled found present with ⟨_, delivered⟩ | ⟨above, atSlot⟩
    · simpa using delivered
    · obtain ⟨slot, atSame, delivered⟩ := t.advanceOn_popped now above below
      rw [atSlot] at atSame
      obtain rfl := Option.some.inj atSame
      have same : cell.status = .delivered := AckStatus.slotState_injective
        (show cell.status.slotState = AckStatus.delivered.slotState from delivered)
      simpa using same
  · intro batch inBatches
    obtain ⟨cell, present, rfl⟩ := located inBatches
    have forward := t.advanceOn_headSeq_le now
    rcases ordered.settled_slot settled found present with ⟨below, _⟩ | ⟨_, atSlot⟩
    · omega
    · have stops := t.advanceOn_stops now atSlot
      simp only [decide_eq_false_iff_not]
      intro delivered
      rw [delivered] at stops
      exact stops rfl

theorem Ordered.known_offset (ordered : Ordered s) {lastOffset : Int64}
    (known : s.Known ⟨p, s.cp.epoch, k⟩ lastOffset) :
    ((s.batches p).map (·.1))[k]? = some lastOffset := by
  obtain ⟨cell, member, own, rfl⟩ := known
  simp [batches, ordered.sent_of_mem member own]

theorem Ordered.watermark_eq (ordered : Ordered s) (found : s.cp.trackers.lookup p = some t) :
    (s.watermarks p).getLast? =
      ((s.batches p).take t.headSeq).getLast?.map fun batch => batch.1 + 1 := by
  obtain ⟨ks, _, backed, last⟩ := ordered.marked.backed p
  have last := last t found
  split at last
  · rename_i zero
    rw [List.getLast?_eq_none_iff] at last
    subst last
    rw [List.forall₂_nil_right_iff.mp backed, zero]
    rfl
  · rename_i positive
    obtain ⟨w, isLast, lastOffset, known, rfl⟩ := Lists.forall₂_getLast? backed last
    have offset := ordered.known_offset known
    rw [List.getElem?_map] at offset
    obtain ⟨batch, located, rfl⟩ := Option.map_eq_some_iff.mp offset
    have inside := (List.getElem?_eq_some_iff.mp located).1
    rw [isLast, List.getLast?_take, if_neg positive, located]
    rfl

/-- Strictly increasing offsets below `i64::MAX` give strictly increasing watermarks. -/
theorem Ordered.watermarks_increasing (ordered : Ordered s)
    (offsets : ((s.batches p).map (·.1)).Pairwise (· < ·))
    (below : ∀ offset ∈ (s.batches p).map (·.1), offset < Int64.maxValue) :
    (s.watermarks p).Pairwise (· < ·) := by
  obtain ⟨ks, increasing, backed, _⟩ := ordered.marked.backed p
  refine Lists.pairwise_of_forall₂ backed increasing ?_
  rintro w w' k k' ⟨offset, known, rfl⟩ ⟨offset', known', rfl⟩ before
  obtain ⟨inside, rfl⟩ := List.getElem?_eq_some_iff.mp (ordered.known_offset known)
  obtain ⟨inside', rfl⟩ := List.getElem?_eq_some_iff.mp (ordered.known_offset known')
  have less := List.pairwise_iff_getElem.mp offsets k k' inside inside' before
  rw [Int64.lt_iff_toInt_lt] at less ⊢
  rw [toInt_add_one (below _ (List.getElem_mem inside)),
    toInt_add_one (below _ (List.getElem_mem inside'))]
  omega

/-- The stall is at the first batch behind the delivered prefix, if it failed. -/
theorem Ordered.settled_stalled (ordered : Ordered s) (settled : Settled s p)
    (found : s.cp.trackers.lookup p = some t) (now : Nat) :
    (t.advanceOn now).2.stalledSeq = (settlement (s.batches p)).stalledSeq := by
  have length := ordered.settled_nextSeq settled found
  have bound := t.advanceOn_headSeq_le_nextSeq now
  have forward := t.advanceOn_headSeq_le now
  have batchCount : (s.batches p).length = t.nextSeq := by
    rw [length, batches, List.length_map]
  have first : (t.slotAt (t.advanceOn now).2.headSeq).any (fun slot => slot.state = .failed) =
      (((s.batches p).drop (t.advanceOn now).2.headSeq).head?.any
        fun batch => batch.2 = .failed) := by
    rw [List.head?_drop, batches, List.getElem?_map]
    cases present : (s.sent p)[(t.advanceOn now).2.headSeq]? with
    | none =>
      have outside := List.getElem?_eq_none_iff.mp present
      cases atSlot : t.slotAt (t.advanceOn now).2.headSeq with
      | none => rfl
      | some slot =>
        have := (PartitionTracker.slotAt_lt_nextSeq atSlot).2
        omega
    | some cell =>
      rcases ordered.settled_slot settled found present with ⟨below, _⟩ | ⟨_, atSlot⟩
      · omega
      · rw [atSlot, Option.map_some]
        cases cell.status <;> simp [AckStatus.slotState]
  rw [PartitionTracker.advanceOn_stalledSeq, first]
  simp only [settlement, ordered.settled_delivered settled found now, List.length_take, batchCount,
    Nat.min_eq_left bound]

/-- After an advance a settled partition shows exactly its settlement. -/
theorem Ordered.observed_eq {now : Nat} (ordered : Ordered s) (ordered' : Ordered s')
    (settled : Settled s p) (taken : s.step (.takeWatermarks now) = some s') :
    s'.observed p = some (settlement (s.batches p)) ∧
      s'.cp.gates.lookup p = some ⟨(settlement (s.batches p)).retired⟩ := by
  obtain ⟨t, found⟩ := Option.isSome_iff_exists.mp settled.tracked
  have advanced : s'.cp.trackers.lookup p = some (t.advanceOn now).2 := by
    cases move_of_step taken with
    | takeWatermarks idle =>
      rw [Checkpointer.takeWatermarks_lookup, found]
      rfl
  have sameBatches : s'.batches p = s.batches p := by
    cases move_of_step taken
    rfl
  have delivered := ordered.settled_delivered settled found now
  have length := ordered.settled_nextSeq settled found
  have batchCount : (s.batches p).length = t.nextSeq := by
    rw [length, batches, List.length_map]
  have bound := t.advanceOn_headSeq_le_nextSeq now
  have retired : (settlement (s.batches p)).retired = (t.advanceOn now).2.headSeq := by
    simp only [settlement, delivered, List.length_take]
    omega
  have rest : (settlement (s.batches p)).pending =
      ((s.batches p).drop (t.advanceOn now).2.headSeq).length := by
    simp only [settlement, delivered, List.length_take, batchCount, Nat.min_eq_left bound]
  refine ⟨?_, ?_⟩
  · simp only [observed, advanced, Option.map_some, Option.some.injEq]
    ext1
    · exact retired.symm
    · simp only [ordered'.watermark_eq advanced, sameBatches, settlement, delivered]
    · have extent := (t.advanceOn now).2.next_eq
      rw [PartitionTracker.advanceOn_nextSeq] at extent
      rw [rest, List.length_drop, batchCount]
      simp only [Checkpointer.pending, advanced, PartitionTracker.pending]
      omega
    · exact ordered.settled_stalled settled found now
  · rw [ordered'.gated p _ advanced, retired]

end World

open Transition in
/-- Two runs whose partition settled with the same batches show the same after
their next `take_watermarks`: the longest delivered prefix is retired, its last
offset is the last watermark, the rest is pending, and a failed batch at its
front is the stall. -/
theorem watermarks_order_independent {events₁ events₂ : List Op} {s₁ s₂ s₁' s₂' : World}
    {p : PartitionId} {now₁ now₂ : Nat} (run₁ : Run World.step Causal World.start events₁ s₁)
    (run₂ : Run World.step Causal World.start events₂ s₂) (settled₁ : s₁.Settled p)
    (settled₂ : s₂.Settled p) (taken₁ : s₁.step (.takeWatermarks now₁) = some s₁')
    (taken₂ : s₂.step (.takeWatermarks now₂) = some s₂') (same : s₁.batches p = s₂.batches p) :
    s₁'.observed p = some (settlement (s₁.batches p)) ∧
      s₂'.observed p = s₁'.observed p ∧
      s₁'.cp.gates.lookup p = some ⟨(settlement (s₁.batches p)).retired⟩ ∧
      s₂'.cp.gates.lookup p = s₁'.cp.gates.lookup p ∧
      (((s₁.batches p).map (·.1)).Pairwise (· < ·) →
        (∀ offset ∈ (s₁.batches p).map (·.1), offset < Int64.maxValue) →
        (s₁'.watermarks p).Pairwise (· < ·) ∧ (s₂'.watermarks p).Pairwise (· < ·)) := by
  have allowed (s : World) (now : Nat) : Causal s (.takeWatermarks now) := trivial
  have ordered₁' := World.ordered_of_run (Run.snoc run₁ (allowed s₁ now₁) taken₁)
  have ordered₂' := World.ordered_of_run (Run.snoc run₂ (allowed s₂ now₂) taken₂)
  obtain ⟨observed₁, gate₁⟩ := (World.ordered_of_run run₁).observed_eq ordered₁' settled₁ taken₁
  obtain ⟨observed₂, gate₂⟩ := (World.ordered_of_run run₂).observed_eq ordered₂' settled₂ taken₂
  have kept₁ : s₁'.batches p = s₁.batches p := by cases World.move_of_step taken₁; rfl
  have kept₂ : s₂'.batches p = s₂.batches p := by cases World.move_of_step taken₂; rfl
  refine ⟨observed₁, ?_, gate₁, ?_, ?_⟩
  · rw [observed₁, observed₂, same]
  · rw [gate₁, gate₂, same]
  · intro offsets below
    rw [← kept₁] at offsets below
    refine ⟨ordered₁'.watermarks_increasing offsets below, ?_⟩
    rw [kept₁, same, ← kept₂] at offsets below
    exact ordered₂'.watermarks_increasing offsets below

open Transition in
/-- One delivered and one failed batch, resolved in both orders. -/
theorem watermarks_order_independent_two_batches :
    ∃ s₁ s₂ : World, s₁.observed 0 = some ⟨1, some 4, 1, some 1⟩ ∧
      s₂.observed 0 = s₁.observed 0 ∧ (s₂.watermarks 0).Pairwise (· < ·) := by
  have first : ((replay World.step Causal World.start
      [.beginEpoch [0] 1, .handle, .load 0 0 3, .send 0, .load 0 0 9, .send 0, .drop 0, .drain,
        .drain, .drain, .drain, .drain, .drain, .takeWatermarks 0, .fail 1, .drop 1, .drain, .drain,
        .drain, .drain]).any fun s => decide (s.phase = .idle ∧ s.Settled 0 ∧
          s.batches 0 = [(3, .delivered), (9, .failed)])) = true := by
    decide
  have second : ((replay World.step Causal World.start
      [.beginEpoch [0] 1, .handle, .load 0 0 3, .send 0, .load 0 0 9, .send 0, .fail 1, .drop 1,
        .drop 0, .drain, .drain, .drain, .drain, .drain, .drain, .drain]).any
        fun s => decide (s.phase = .idle ∧ s.Settled 0 ∧
          s.batches 0 = [(3, .delivered), (9, .failed)])) = true := by
    decide
  obtain ⟨s₁, reached₁, facts₁⟩ := (Option.any_eq_true _ _).mp first
  obtain ⟨s₂, reached₂, facts₂⟩ := (Option.any_eq_true _ _).mp second
  obtain ⟨idle₁, settled₁, batches₁⟩ := of_decide_eq_true facts₁
  obtain ⟨idle₂, settled₂, batches₂⟩ := of_decide_eq_true facts₂
  obtain ⟨s₁', taken₁⟩ : ∃ s', s₁.step (.takeWatermarks 0) = some s' := ⟨_, if_pos idle₁⟩
  obtain ⟨s₂', taken₂⟩ : ∃ s', s₂.step (.takeWatermarks 0) = some s' := ⟨_, if_pos idle₂⟩
  obtain ⟨shown, agree, _, _, increasing⟩ := watermarks_order_independent
    (run_of_replay _ _ s₁ reached₁)
    (run_of_replay _ _ s₂ reached₂) settled₁ settled₂ taken₁ taken₂
    (batches₁.trans batches₂.symm)
  rw [batches₁] at shown increasing
  exact ⟨s₁', s₂', shown, agree, (increasing (by decide) (by simp; decide)).2⟩

open Transition in
/-- Draining alone does not make two runs agree: before the next call of
`take_watermarks` the delivered batch of the first is still pending. And the watermark of
a batch that ends at `i64::MAX` is the smallest. -/
theorem settled_before_take_differs :
    ∃ (events₁ events₂ : List Op) (s₁ s₂ : World),
      Run World.step Causal World.start events₁ s₁ ∧ Run World.step Causal World.start events₂ s₂ ∧
      s₁.phase = .idle ∧ s₂.phase = .idle ∧ s₁.Settled 0 ∧ s₂.Settled 0 ∧
      s₁.batches 0 = s₂.batches 0 ∧ s₁.cp.pending 0 = 1 ∧ s₂.cp.pending 0 = 0 ∧
      (s₁.watermarks 0).getLast? = none ∧ (s₂.watermarks 0).getLast? = some 8 ∧
      ∃ (events₃ : List Op) (s₃ : World), Run World.step Causal World.start events₃ s₃ ∧
        s₃.batches 0 = [(5, .delivered), (Int64.maxValue, .delivered)] ∧
        s₃.watermarks 0 = [6, Int64.minValue] := by
  have first : ((replay World.step Causal World.start
      [.beginEpoch [0] 1, .handle, .load 0 0 7, .send 0, .drop 0, .drain, .drain, .drain, .drain,
        .drain]).any fun s => decide (s.phase = .idle ∧ s.Settled 0 ∧
          s.batches 0 = [(7, .delivered)] ∧ s.cp.pending 0 = 1 ∧
          (s.watermarks 0).getLast? = none)) = true := by
    decide
  have second : ((replay World.step Causal World.start
      [.beginEpoch [0] 1, .handle, .load 0 0 7, .send 0, .drop 0, .drain, .drain, .drain, .drain,
        .drain, .takeWatermarks 0]).any fun s => decide (s.phase = .idle ∧ s.Settled 0 ∧
          s.batches 0 = [(7, .delivered)] ∧ s.cp.pending 0 = 0 ∧
          (s.watermarks 0).getLast? = some 8)) = true := by
    decide
  have third : ((replay World.step Causal World.start
      [.beginEpoch [0] 1, .handle, .load 0 0 5, .send 0, .drop 0, .drain, .drain, .drain, .drain,
        .drain, .takeWatermarks 0, .load 0 0 Int64.maxValue, .send 0, .drop 1, .drain, .drain,
        .drain, .drain, .drain, .takeWatermarks 0]).any fun s => decide (
          s.batches 0 = [(5, .delivered), (Int64.maxValue, .delivered)] ∧
          s.watermarks 0 = [6, Int64.minValue])) = true := by
    decide
  obtain ⟨s₁, reached₁, facts₁⟩ := (Option.any_eq_true _ _).mp first
  obtain ⟨s₂, reached₂, facts₂⟩ := (Option.any_eq_true _ _).mp second
  obtain ⟨s₃, reached₃, facts₃⟩ := (Option.any_eq_true _ _).mp third
  obtain ⟨idle₁, settled₁, batches₁, pending₁, last₁⟩ := of_decide_eq_true facts₁
  obtain ⟨idle₂, settled₂, batches₂, pending₂, last₂⟩ := of_decide_eq_true facts₂
  exact ⟨_, _, s₁, s₂, run_of_replay _ _ s₁ reached₁, run_of_replay _ _ s₂ reached₂, idle₁, idle₂,
    settled₁, settled₂, batches₁.trans batches₂.symm, pending₁, pending₂, last₁, last₂,
    _, s₃, run_of_replay _ _ s₃ reached₃, of_decide_eq_true facts₃⟩

open Transition (Run replay run_of_replay)

/-- No batch is lost between the issuers and the watermarks: of a tracked partition, the
batches sent in the epoch are those the advance counter has counted off, those pending in
the tracker and those whose registration is still queued. -/
theorem sent_batches_accounted {events : List Op} {s : World} {p : PartitionId}
    (run : Run World.step Causal World.start events s) (tracked : s.cp.tracks p = true) :
    ∃ counter, s.cp.gates.lookup p = some counter ∧
      (s.sent p).length = counter.advanced + s.cp.pending p + (s.queuedSeqs p).length := by
  have ordered := World.ordered_of_run run
  have issued := ordered.causality.issued
  obtain ⟨t, found⟩ := Option.isSome_iff_exists.mp tracked
  obtain ⟨m, queued, next⟩ := ordered.causality.sequenced p t found
  have extent := t.next_eq
  have held : s.cp.pending p = t.ring.length := by
    simp [Checkpointer.pending, PartitionTracker.pending, found]
  refine ⟨_, ordered.gated p t found, ?_⟩
  rw [← List.length_map (·.id), World.sent_ids, held, queued, List.length_range']
  by_cases unissued : ∀ i, (p, s.cp.epoch, i) ∉ s.issuedBy
  · have first := World.nextSeq_unissued issued ordered.causality.evidence found unissued
    rw [World.queuedSeqs_unissued issued ordered.causality.evidence unissued] at queued
    have empty := congrArg List.length queued
    rw [World.sentIds_unissued issued unissued]
    simp only [List.length_nil, List.length_range'] at empty ⊢
    omega
  · simp only [not_forall, not_not] at unissued
    obtain ⟨i, recorded⟩ := unissued
    have present := List.getElem?_eq_getElem (issued.issuer_valid _ recorded)
    have expected := next i _ recorded present
    have counted := (ordered.numbered p).2 i _ recorded present
    dsimp only
    omega

theorem sent_batches_accounted_queued : ∃ s : World, (s.sent 0).length = 4 ∧
    ∃ counter, s.cp.gates.lookup 0 = some counter ∧ 4 = counter.advanced + 2 + 1 := by
  have executes : ((replay World.step Causal World.start
      [.beginEpoch [0] 1, .handle, .load 0 0 3, .send 0, .drop 0, .drain, .drain, .drain, .drain,
        .drain, .takeWatermarks 0, .load 0 0 5, .send 0, .load 0 0 7, .send 0, .drain, .drain,
        .drain, .drain, .drain, .load 0 0 9, .send 0]).map fun s =>
        ((s.sent 0).length, s.cp.tracks 0, s.cp.pending 0, (s.queuedSeqs 0).length)) =
          some (4, true, 2, 1) := by
    decide
  obtain ⟨s, reached, seen⟩ := Option.map_eq_some_iff.mp executes
  simp only [Prod.mk.injEq] at seen
  obtain ⟨four, tracked, pending, queued⟩ := seen
  obtain ⟨counter, found, counted⟩ := sent_batches_accounted (run_of_replay _ _ s reached) tracked
  rw [four, pending, queued] at counted
  exact ⟨s, four, counter, found, counted⟩

end Spate.Checkpoint
