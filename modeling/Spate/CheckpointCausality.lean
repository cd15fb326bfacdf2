import Spate.CheckpointSafety

set_option autoImplicit false

/- No registration gap and no orphan resolution. The registrations of a tracked
partition that are still on their way are numbered consecutively from the
sequence its tracker expects, so whatever was dropped was registered before. -/
namespace Spate.Checkpoint

/-- The issuing promise together with: an epoch is begun before any partition is
admitted to it. The epochs of `begin_epoch` increase, so this only rules out
beginning epoch 0 after partitions were added to the initial epoch. -/
def Causal (s : World) : Op → Prop
  | .beginEpoch _ epoch => ∀ entry ∈ s.admitted, entry.2 ≠ epoch
  | op => IssuesOwned s op

instance (s : World) : (op : Op) → Decidable (Causal s op)
  | .beginEpoch _ epoch => inferInstanceAs (Decidable (∀ entry ∈ s.admitted, entry.2 ≠ epoch))
  | .load i p off => inferInstanceAs (Decidable (IssuesOwned s (.load i p off)))
  | .handle | .cloneIssuer _ | .send _ | .clone _ | .fail _ | .drop _
  | .extendEpoch _ | .revoke _ | .drain | .takeWatermarks _ => inferInstanceAs (Decidable True)

theorem Causal.issuesOwned {s : World} {op : Op} (causal : Causal s op) : IssuesOwned s op := by
  cases op <;> first | exact causal | trivial

/-- The sequence an issuer will send next for a partition of an epoch. -/
def IssuerThread.sendsNext (thread : IssuerThread) (epoch : Nat) (partition : PartitionId) : Nat :=
  match thread.inFlight with
  | some reg =>
    if reg.id.partition = partition ∧ reg.id.epoch = epoch then reg.id.seq
    else thread.issuer.nextSeq epoch partition
  | none => thread.issuer.nextSeq epoch partition

namespace World

def queuedSeqs (s : World) (p : PartitionId) : List Nat :=
  (s.regs.filter fun reg => reg.id.partition = p ∧ reg.id.epoch = s.cp.epoch).map (·.id.seq)

/-- Every issue had its admission, and the admission mark covers the epoch. -/
structure Admission (s : World) : Prop where
  issued_admitted : ∀ entry ∈ s.issuedBy, (entry.1, entry.2.1) ∈ s.admitted
  marked : ∀ entry ∈ s.admitted, entry.2 = s.cp.epoch →
    ∃ mark, s.cp.admittedThrough = some mark ∧ entry.1 ≤ mark

/-- What the counters of the issuers say about what they have numbered. -/
structure Counters (s : World) : Prop where
  local_epoch : ∀ (i : Nat) (thread : IssuerThread), s.issuers[i]? = some thread →
    thread.issuer.localEpoch ≤ s.sharedEpoch
  strangers : ∀ (i : Nat) (thread : IssuerThread) (p : PartitionId),
    s.issuers[i]? = some thread → (p, s.sharedEpoch, i) ∉ s.issuedBy →
    thread.issuer.nextSeq s.sharedEpoch p = 0
  flight_owned : ∀ (i : Nat) (thread : IssuerThread) (reg : Registration),
    s.issuers[i]? = some thread → thread.inFlight = some reg →
    (reg.id.partition, reg.id.epoch, i) ∈ s.issuedBy
  flight_counted : ∀ (i : Nat) (thread : IssuerThread) (reg : Registration),
    s.issuers[i]? = some thread → thread.inFlight = some reg → reg.id.epoch = s.sharedEpoch →
    thread.issuer.nextSeq s.sharedEpoch reg.id.partition = reg.id.seq + 1

/-- The registrations on their way to a tracker continue where it stands. -/
def Sequenced (s : World) : Prop :=
  ∀ p t, s.cp.trackers.lookup p = some t → ∃ m, s.queuedSeqs p = List.range' t.nextSeq m ∧
    ∀ (i : Nat) (thread : IssuerThread), (p, s.cp.epoch, i) ∈ s.issuedBy →
      s.issuers[i]? = some thread →
      thread.sendsNext s.cp.epoch p = t.nextSeq + m

/-- A resolution on its way is the only one of its batch and still awaited. -/
structure Outstanding (s : World) : Prop where
  once : (s.messages.map (·.id)).Nodup
  awaited : ∀ msg ∈ s.messages, msg.id.epoch = s.cp.epoch → ∀ t,
    s.cp.trackers.lookup msg.id.partition = some t → t.Awaits msg.id.seq

/-- A resolution applied in the second pass has its registration behind it. -/
def Registered (s : World) : Prop :=
  ∀ deferred, s.phase = .lateResolutions deferred → ∀ msg ∈ deferred,
    msg.id.epoch = s.cp.epoch → ∀ t, s.cp.trackers.lookup msg.id.partition = some t →
      msg.id.seq < t.nextSeq

variable {s s' : World} {p partition : PartitionId} {op : Op} {issuer : AckIssuer} {i : Nat}
  {lastOffset : Int64} {reg : Registration} {rest : List Registration} {t : PartitionTracker}
  {msg : AckMsg}

theorem Admission.unissued (admission : Admission s) (causal : Causal s op)
    (fresh : Fresh s s' p op) (i : Nat) : (p, s'.cp.epoch, i) ∉ s.issuedBy := by
  intro recorded
  have admitted := admission.issued_admitted _ recorded
  cases fresh with
  | begun => exact causal _ admitted rfl
  | added same above =>
    obtain ⟨mark, isMark, below⟩ := admission.marked _ admitted same
    exact absurd below (Nat.not_le_of_lt (above mark isMark))

private theorem exists_le_max {left right : Option Nat} {p : Nat}
    (below : (∃ mark, left = some mark ∧ p ≤ mark) ∨ (∃ mark, right = some mark ∧ p ≤ mark)) :
    ∃ mark, max left right = some mark ∧ p ≤ mark := by
  rcases below with ⟨mark, rfl, below⟩ | ⟨mark, rfl, below⟩
  · cases right with
    | none => exact ⟨mark, rfl, below⟩
    | some other => exact ⟨max mark other, rfl, Nat.le_trans below (Nat.le_max_left _ _)⟩
  · cases left with
    | none => exact ⟨mark, rfl, below⟩
    | some other => exact ⟨max other mark, rfl, Nat.le_trans below (Nat.le_max_right _ _)⟩

theorem move_admission (move : Move s op s') (causal : Causal s op) (admission : Admission s) :
    Admission s' := by
  cases move with
  | load found =>
    refine ⟨?_, admission.marked⟩
    intro entry member
    rcases List.mem_append.mp member with earlier | now
    · exact admission.issued_admitted entry earlier
    · obtain rfl := List.mem_singleton.mp now
      exact causal.1
  | @beginEpoch partitions epoch idle asserted =>
    refine ⟨?_, ?_⟩
    · exact fun entry member => List.mem_append_left _ (admission.issued_admitted entry member)
    · intro entry member current
      rcases List.mem_append.mp member with earlier | now
      · exact absurd current (causal entry earlier)
      · obtain ⟨p, listed, rfl⟩ := List.mem_map.mp now
        exact Lists.le_max?_of_mem listed
  | @extendEpoch partitions idle fresh =>
    refine ⟨?_, ?_⟩
    · exact fun entry member => List.mem_append_left _ (admission.issued_admitted entry member)
    · intro entry member current
      rcases List.mem_append.mp member with earlier | now
      · obtain ⟨mark, isMark, below⟩ := admission.marked entry earlier current
        exact exists_le_max (Or.inl ⟨mark, isMark, below⟩)
      · obtain ⟨p, listed, rfl⟩ := List.mem_map.mp now
        exact exists_le_max (Or.inr (Lists.le_max?_of_mem listed))
  | ackStale pops | ackApplied pops | ackRepeated pops =>
    cases pops <;> exact ⟨admission.issued_admitted, admission.marked⟩
  | _ => exact ⟨admission.issued_admitted, admission.marked⟩

theorem Counters.frame (counters : Counters s) (shared : s'.sharedEpoch = s.sharedEpoch)
    (history : s'.issuedBy = s.issuedBy) (threads : s'.issuers = s.issuers) : Counters s' := by
  refine ⟨?_, ?_, ?_, ?_⟩ <;> simp only [shared, history, threads]
  · exact counters.local_epoch
  · exact counters.strangers
  · exact counters.flight_owned
  · exact counters.flight_counted

theorem Counters.add (counters : Counters s) (epoch : issuer.localEpoch ≤ s.sharedEpoch)
    (fresh : ∀ p, issuer.nextSeq s.sharedEpoch p = 0) :
    Counters { s with issuers := s.issuers ++ [⟨issuer, none⟩] } := by
  refine ⟨?_, ?_, ?_, ?_⟩
  · intro i thread found
    rcases Lists.getElem?_concat_cases found with earlier | ⟨_, rfl⟩
    · exact counters.local_epoch i thread earlier
    · exact epoch
  · intro i thread p found stranger
    rcases Lists.getElem?_concat_cases found with earlier | ⟨_, rfl⟩
    · exact counters.strangers i thread p earlier stranger
    · exact fresh p
  · intro i thread reg found flying
    rcases Lists.getElem?_concat_cases found with earlier | ⟨_, rfl⟩
    · exact counters.flight_owned i thread reg earlier flying
    · cases flying
  · intro i thread reg found flying
    rcases Lists.getElem?_concat_cases found with earlier | ⟨_, rfl⟩
    · exact counters.flight_counted i thread reg earlier flying
    · cases flying

theorem Counters.load (counters : Counters s) (found : s.issuers[i]? = some ⟨issuer, none⟩) :
    Counters { s with
      issuers := s.issuers.set i
        ⟨(issuer.issue s.sharedEpoch partition lastOffset).2,
          some ⟨⟨partition, s.sharedEpoch, issuer.nextSeq s.sharedEpoch partition⟩, lastOffset⟩⟩
      issuedBy := s.issuedBy ++ [(partition, s.sharedEpoch, i)] } := by
  refine ⟨?_, ?_, ?_, ?_⟩
  · intro j thread present
    rcases Lists.getElem?_set_cases present with ⟨rfl, rfl⟩ | ⟨_, earlier⟩
    · exact Nat.le_of_eq (AckIssuer.issue_localEpoch issuer s.sharedEpoch partition lastOffset)
    · exact counters.local_epoch j thread earlier
  · intro j thread p present stranger
    have unrecorded : (p, s.sharedEpoch, j) ∉ s.issuedBy :=
      fun member => stranger (List.mem_append_left _ member)
    rcases Lists.getElem?_set_cases present with ⟨rfl, rfl⟩ | ⟨_, earlier⟩
    · have other : p ≠ partition := by
        rintro rfl
        exact stranger (List.mem_append_right _ List.mem_cons_self)
      have zero := counters.strangers j _ p found unrecorded
      rw [AckIssuer.issue_nextSeq, if_neg other, Nat.add_zero]
      exact zero
    · exact counters.strangers j thread p earlier unrecorded
  · intro j thread reg present flying
    rcases Lists.getElem?_set_cases present with ⟨rfl, rfl⟩ | ⟨_, earlier⟩
    · obtain rfl := Option.some.inj flying
      exact List.mem_append_right _ List.mem_cons_self
    · exact List.mem_append_left _ (counters.flight_owned j thread reg earlier flying)
  · intro j thread reg present flying current
    rcases Lists.getElem?_set_cases present with ⟨rfl, rfl⟩ | ⟨_, earlier⟩
    · obtain rfl := Option.some.inj flying
      rw [AckIssuer.issue_nextSeq, if_pos rfl]
    · exact counters.flight_counted j thread reg earlier flying current

theorem Counters.send (counters : Counters s) (found : s.issuers[i]? = some ⟨issuer, some reg⟩)
    (shared : s'.sharedEpoch = s.sharedEpoch) (history : s'.issuedBy = s.issuedBy)
    (threads : s'.issuers = s.issuers.set i ⟨issuer, none⟩) : Counters s' := by
  refine ⟨?_, ?_, ?_, ?_⟩ <;> simp only [shared, history, threads]
  · intro j thread present
    rcases Lists.getElem?_set_cases present with ⟨rfl, rfl⟩ | ⟨_, earlier⟩
    · exact counters.local_epoch j ⟨issuer, some reg⟩ found
    · exact counters.local_epoch j thread earlier
  · intro j thread p present stranger
    rcases Lists.getElem?_set_cases present with ⟨rfl, rfl⟩ | ⟨_, earlier⟩
    · exact counters.strangers j ⟨issuer, some reg⟩ p found stranger
    · exact counters.strangers j thread p earlier stranger
  · intro j thread other present flying
    rcases Lists.getElem?_set_cases present with ⟨rfl, rfl⟩ | ⟨_, earlier⟩
    · cases flying
    · exact counters.flight_owned j thread other earlier flying
  · intro j thread other present flying
    rcases Lists.getElem?_set_cases present with ⟨rfl, rfl⟩ | ⟨_, earlier⟩
    · cases flying
    · exact counters.flight_counted j thread other earlier flying

/-- Publishing an epoch restarts every counter, unless it is the same epoch. -/
theorem Counters.publish (counters : Counters s) (issued : Issued s)
    (later : s.sharedEpoch ≤ s'.sharedEpoch) (history : s'.issuedBy = s.issuedBy)
    (threads : s'.issuers = s.issuers) : Counters s' := by
  rcases Nat.eq_or_lt_of_le later with same | above
  · exact counters.frame same.symm history threads
  · refine ⟨?_, ?_, ?_, ?_⟩ <;> simp only [history, threads]
    · exact fun i thread found => Nat.le_trans (counters.local_epoch i thread found) later
    · intro i thread p found stranger
      have old := counters.local_epoch i thread found
      rw [AckIssuer.nextSeq, if_neg (by omega)]
    · exact counters.flight_owned
    · intro i thread reg found flying current
      have bound := issued.issued_epoch _ (counters.flight_owned i thread reg found flying)
      dsimp only at bound
      omega

theorem move_counters (move : Move s op s') (issued : Issued s) (counters : Counters s) :
    Counters s' := by
  cases move with
  | handle => exact counters.add (Nat.le_refl _) fun p => by simp [AckIssuer.nextSeq,
      Checkpointer.handle]
  | cloneIssuer found =>
    exact counters.add (counters.local_epoch _ _ found) fun p => AckIssuer.clone_nextSeq _ _ p
  | load found => exact counters.load found
  | send found => exact counters.send found rfl rfl rfl
  | beginEpoch idle asserted =>
    refine counters.publish issued ?_ rfl rfl
    rw [issued.published]
    exact epoch_le_of_asserted asserted
  | ackStale pops | ackApplied pops | ackRepeated pops =>
    cases pops <;> exact counters.frame rfl rfl rfl
  | _ => exact counters.frame rfl rfl rfl

theorem Issued.cell_owned (issued : Issued s) {id : BatchId}
    (stored : ∃ cell ∈ s.heap, cell.id = id) : ∃ i, (id.partition, id.epoch, i) ∈ s.issuedBy := by
  obtain ⟨cell, member, rfl⟩ := stored
  exact issued.owned cell.id (List.mem_append_right _ (List.mem_map_of_mem member))

theorem queuedSeqs_nil
    (none : ∀ reg ∈ s.regs, ¬ (reg.id.partition = p ∧ reg.id.epoch = s.cp.epoch)) :
    s.queuedSeqs p = [] := by
  have empty : (s.regs.filter fun reg => reg.id.partition = p ∧ reg.id.epoch = s.cp.epoch) =
      [] := by
    rw [List.filter_eq_nil_iff]
    intro reg member
    simpa using none reg member
  rw [queuedSeqs, empty, List.map_nil]

theorem queuedSeqs_cons (queued : s.regs = reg :: rest) (p : PartitionId) :
    s.queuedSeqs p =
      if reg.id.partition = p ∧ reg.id.epoch = s.cp.epoch then
        reg.id.seq :: ({ s with regs := rest } : World).queuedSeqs p
      else ({ s with regs := rest } : World).queuedSeqs p := by
  rw [queuedSeqs, queued, List.filter_cons]
  simp only [decide_eq_true_eq]
  split <;> rfl

theorem queuedSeqs_unissued (issued : Issued s) (evidence : Evidence s)
    (unissued : ∀ i, (p, s.cp.epoch, i) ∉ s.issuedBy) : s.queuedSeqs p = [] := by
  apply queuedSeqs_nil
  rintro reg member ⟨samePartition, sameEpoch⟩
  obtain ⟨cell, stored, sameId, _⟩ := evidence.registrations reg member
  obtain ⟨i, recorded⟩ := issued.cell_owned ⟨cell, stored, sameId⟩
  rw [samePartition, sameEpoch] at recorded
  exact unissued i recorded

theorem nextSeq_unissued (issued : Issued s) (evidence : Evidence s)
    (found : s.cp.trackers.lookup p = some t) (unissued : ∀ i, (p, s.cp.epoch, i) ∉ s.issuedBy) :
    t.nextSeq = 0 := by
  by_contra positive
  have sound := evidence.trackers p t found
  have stored : ∃ cell ∈ s.heap, cell.id = ⟨p, s.cp.epoch, 0⟩ := by
    by_cases passed : 0 < t.headSeq
    · obtain ⟨cell, member, sameId, _⟩ := sound.passed 0 passed
      exact ⟨cell, member, sameId⟩
    · obtain ⟨slot, located⟩ := t.slotAt_isSome 0 (by omega) (by omega)
      obtain ⟨cell, member, sameId, _⟩ := sound.known 0 slot located
      exact ⟨cell, member, sameId⟩
  obtain ⟨i, recorded⟩ := issued.cell_owned stored
  exact unissued i recorded

theorem Sequenced.frame (sequenced : Sequenced s) (move : Move s op s') (causal : Causal s op)
    (issued : Issued s) (evidence : Evidence s) (admission : Admission s)
    (regs : s'.regs = s.regs) (history : s'.issuedBy = s.issuedBy)
    (threads : s'.issuers = s.issuers) : Sequenced s' := by
  intro p t found
  rcases move_tracked move found with ⟨rfl, fresh⟩ | ⟨epoch, tracked⟩
  · have unissued := admission.unissued causal fresh
    rw [← history] at unissued
    refine ⟨0, queuedSeqs_nil ?_, fun i _ recorded _ => absurd recorded (unissued i)⟩
    rw [regs]
    rintro reg member ⟨samePartition, sameEpoch⟩
    obtain ⟨cell, stored, sameId, _⟩ := evidence.registrations reg member
    obtain ⟨i, recorded⟩ := issued.cell_owned ⟨cell, stored, sameId⟩
    rw [samePartition, sameEpoch, ← history] at recorded
    exact unissued i recorded
  · have earlier : ∃ before, s.cp.trackers.lookup p = some before ∧ t.nextSeq = before.nextSeq := by
      cases tracked with
      | kept before => exact ⟨t, before, rfl⟩
      | registered _ queued => simp [regs] at queued
      | resolved before => exact ⟨_, before, PartitionTracker.resolve_nextSeq _ _ _⟩
      | advanced before => exact ⟨_, before, PartitionTracker.advanceOn_nextSeq _ _⟩
    obtain ⟨before, present, sameNext⟩ := earlier
    obtain ⟨m, queued, next⟩ := sequenced p before present
    refine ⟨m, ?_, ?_⟩
    · rw [sameNext, ← queued, queuedSeqs, queuedSeqs, regs, epoch]
    · rw [sameNext, history, threads, epoch]
      exact next

theorem Sequenced.add (sequenced : Sequenced s) (issued : Issued s) (thread : IssuerThread) :
    Sequenced { s with issuers := s.issuers ++ [thread] } := by
  intro p t found
  obtain ⟨m, queued, next⟩ := sequenced p t found
  refine ⟨m, queued, ?_⟩
  intro i other recorded present
  have inside := issued.issuer_valid _ recorded
  rw [List.getElem?_append_left inside] at present
  exact next i other recorded present

/-- Numbering a batch does not change what its issuer sends next: either it had
issued for the partition before, or this is the epoch's first number. -/
theorem sendsNext_load (issued : Issued s) (counters : Counters s)
    (found : s.issuers[i]? = some ⟨issuer, none⟩)
    (owner : ∀ entry ∈ s.issuedBy, entry.1 = partition → entry.2.1 = s.sharedEpoch →
      entry.2.2 = i) {j : Nat} {thread : IssuerThread}
    (recorded : (p, s.cp.epoch, j) ∈ s.issuedBy ++ [(partition, s.sharedEpoch, i)])
    (present : (s.issuers.set i
      ⟨(issuer.issue s.sharedEpoch partition lastOffset).2,
        some ⟨⟨partition, s.sharedEpoch, issuer.nextSeq s.sharedEpoch partition⟩,
          lastOffset⟩⟩)[j]? = some thread) :
    (∃ old, (p, s.cp.epoch, j) ∈ s.issuedBy ∧ s.issuers[j]? = some old ∧
        thread.sendsNext s.cp.epoch p = old.sendsNext s.cp.epoch p) ∨
      (∀ k, (p, s.cp.epoch, k) ∉ s.issuedBy) ∧ thread.sendsNext s.cp.epoch p = 0 := by
  have published := issued.published
  rcases Lists.getElem?_set_cases present with ⟨rfl, rfl⟩ | ⟨elsewhere, earlier⟩
  · by_cases known : (p, s.cp.epoch, j) ∈ s.issuedBy
    · refine Or.inl ⟨_, known, found, ?_⟩
      simp only [IssuerThread.sendsNext]
      rw [published]
      split
      · rename_i same
        rw [same.1]
      · rename_i other
        have different : p ≠ partition := fun same => other ⟨same.symm, rfl⟩
        rw [AckIssuer.issue_nextSeq, if_neg different, Nat.add_zero]
    · have here : p = partition := by
        rcases List.mem_append.mp recorded with old | now
        · exact absurd old known
        · exact (Prod.mk.inj (List.mem_singleton.mp now)).1
      subst here
      refine Or.inr ⟨?_, ?_⟩
      · intro k member
        obtain rfl : k = j := owner _ member rfl published.symm
        exact known member
      · have counter := counters.strangers j _ p found (by rw [published]; exact known)
        simp only [IssuerThread.sendsNext, published] at counter ⊢
        simpa only [true_and, ↓reduceIte] using counter
  · have old : (p, s.cp.epoch, j) ∈ s.issuedBy := by
      rcases List.mem_append.mp recorded with old | now
      · exact old
      · simp only [List.mem_singleton, Prod.mk.injEq] at now
        exact absurd now.2.2 elsewhere
    exact Or.inl ⟨thread, old, earlier, rfl⟩

theorem sendsNext_send (issued : Issued s) (counters : Counters s)
    (found : s.issuers[i]? = some ⟨issuer, some reg⟩) {j : Nat} {thread : IssuerThread}
    (recorded : (p, s.cp.epoch, j) ∈ s.issuedBy)
    (present : (s.issuers.set i ⟨issuer, none⟩)[j]? = some thread) :
    ∃ old, s.issuers[j]? = some old ∧ thread.sendsNext s.cp.epoch p =
      old.sendsNext s.cp.epoch p +
        if reg.id.partition = p ∧ reg.id.epoch = s.cp.epoch then 1 else 0 := by
  have published := issued.published
  rcases Lists.getElem?_set_cases present with ⟨rfl, rfl⟩ | ⟨elsewhere, earlier⟩
  · refine ⟨_, found, ?_⟩
    by_cases here : reg.id.partition = p ∧ reg.id.epoch = s.cp.epoch
    · have counted := counters.flight_counted j _ reg found rfl (here.2.trans published.symm)
      rw [published, here.1] at counted
      simpa only [IssuerThread.sendsNext, here, and_self, ↓reduceIte] using counted
    · simp only [IssuerThread.sendsNext, here, ↓reduceIte, Nat.add_zero]
  · refine ⟨thread, earlier, ?_⟩
    rw [if_neg, Nat.add_zero]
    rintro ⟨samePartition, sameEpoch⟩
    have owned := counters.flight_owned i _ reg found rfl
    rw [samePartition, sameEpoch] at owned
    exact elsewhere (issued.one_owner _ recorded _ owned rfl rfl)

theorem Sequenced.load (sequenced : Sequenced s) (issued : Issued s) (evidence : Evidence s)
    (counters : Counters s) (found : s.issuers[i]? = some ⟨issuer, none⟩)
    (owner : ∀ entry ∈ s.issuedBy, entry.1 = partition → entry.2.1 = s.sharedEpoch →
      entry.2.2 = i) :
    Sequenced { s with
      issuers := s.issuers.set i
        ⟨(issuer.issue s.sharedEpoch partition lastOffset).2,
          some ⟨⟨partition, s.sharedEpoch, issuer.nextSeq s.sharedEpoch partition⟩, lastOffset⟩⟩
      issuedBy := s.issuedBy ++ [(partition, s.sharedEpoch, i)] } := by
  intro p t tracked
  obtain ⟨m, queued, next⟩ := sequenced p t tracked
  refine ⟨m, queued, ?_⟩
  intro j thread recorded present
  rcases sendsNext_load issued counters found owner recorded present with
    ⟨old, known, earlier, same⟩ | ⟨unissued, zero⟩
  · exact same.trans (next j old known earlier)
  · -- Nothing was issued, so the tracker and the channel are at zero as well.
    have expected := nextSeq_unissued issued evidence tracked unissued
    have nothing : m = 0 := by
      rw [queuedSeqs_unissued issued evidence unissued] at queued
      have := congrArg List.length queued
      simpa using this.symm
    rw [expected, nothing]
    exact zero

theorem Sequenced.send (sequenced : Sequenced s) (issued : Issued s) (counters : Counters s)
    (found : s.issuers[i]? = some ⟨issuer, some reg⟩) (heap : List AckState) :
    Sequenced { s with
      issuers := s.issuers.set i ⟨issuer, none⟩
      regs := s.regs ++ [reg]
      heap } := by
  intro p t tracked
  obtain ⟨m, queued, next⟩ := sequenced p t tracked
  have owned := counters.flight_owned i _ reg found rfl
  have grown : ({ s with regs := s.regs ++ [reg] } : World).queuedSeqs p =
      s.queuedSeqs p ++
        if reg.id.partition = p ∧ reg.id.epoch = s.cp.epoch then [reg.id.seq] else [] := by
    by_cases same : reg.id.partition = p ∧ reg.id.epoch = s.cp.epoch
    · simp [queuedSeqs, same]
    · simp only [queuedSeqs, List.filter_append, List.map_append, if_neg same]
      rw [List.filter_cons_of_neg (by simpa using same), List.filter_nil, List.map_nil]
  by_cases here : reg.id.partition = p ∧ reg.id.epoch = s.cp.epoch
  · -- The sent registration is the one the issuer owed the channel.
    rw [here.1, here.2] at owned
    have owed := next i _ owned found
    simp only [IssuerThread.sendsNext, here, and_self, ↓reduceIte] at owed
    refine ⟨m + 1, ?_, ?_⟩
    · refine grown.trans ?_
      rw [if_pos here, queued, owed, List.range'_concat, Nat.one_mul]
    · intro j thread recorded present
      obtain ⟨old, earlier, paid⟩ := sendsNext_send issued counters found recorded present
      rw [if_pos here, next j old recorded earlier] at paid
      exact paid
  · refine ⟨m, ?_, ?_⟩
    · refine grown.trans ?_
      rw [if_neg here, List.append_nil, queued]
    · intro j thread recorded present
      obtain ⟨old, earlier, paid⟩ := sendsNext_send issued counters found recorded present
      rw [if_neg here, next j old recorded earlier] at paid
      exact paid

theorem Sequenced.front (sequenced : Sequenced s) (queued : s.regs = reg :: rest)
    (current : reg.id.epoch = s.cp.epoch) (found : s.cp.trackers.lookup reg.id.partition = some t) :
    reg.id.seq = t.nextSeq ∧ ∃ m,
      ({ s with regs := rest } : World).queuedSeqs reg.id.partition =
        List.range' (t.nextSeq + 1) m ∧
      ∀ i thread, (reg.id.partition, s.cp.epoch, i) ∈ s.issuedBy → s.issuers[i]? = some thread →
        thread.sendsNext s.cp.epoch reg.id.partition = t.nextSeq + (m + 1) := by
  obtain ⟨m, waiting, next⟩ := sequenced _ t found
  rw [queuedSeqs_cons queued, if_pos ⟨rfl, current⟩] at waiting
  cases m with
  | zero => cases waiting
  | succ m =>
    rw [List.range'_succ] at waiting
    obtain ⟨first, others⟩ := List.cons.inj waiting
    exact ⟨first, m, others, next⟩

theorem Sequenced.register (sequenced : Sequenced s) {t' : PartitionTracker}
    (queued : s.regs = reg :: rest) (current : reg.id.epoch = s.cp.epoch)
    (found : s.cp.trackers.lookup reg.id.partition = some t)
    (registered : t.register reg.id.seq reg.lastOffset = some t') :
    Sequenced { s with
      cp := { s.cp with trackers := s.cp.trackers.insert reg.id.partition t' }
      regs := rest } := by
  intro p other present
  rcases FastMap.lookup_insert_cases present with ⟨rfl, rfl⟩ | ⟨different, earlier⟩
  · obtain ⟨_, m, waiting, next⟩ := sequenced.front queued current found
    obtain ⟨_, _, advanced, _⟩ := PartitionTracker.register_eq_some registered
    refine ⟨m, ?_, ?_⟩
    · rw [advanced]
      exact waiting
    · intro i thread recorded located
      have owed := next i thread recorded located
      rw [advanced]
      dsimp only
      omega
  · obtain ⟨m, waiting, next⟩ := sequenced p other earlier
    rw [queuedSeqs_cons queued, if_neg (fun same => different same.1.symm)] at waiting
    exact ⟨m, waiting, next⟩

theorem Sequenced.discard (sequenced : Sequenced s) (queued : s.regs = reg :: rest)
    (stale : reg.id.epoch ≠ s.cp.epoch ∨ s.cp.trackers.lookup reg.id.partition = none)
    (stats : DrainStats) : Sequenced { s with stats, regs := rest } := by
  intro p t found
  obtain ⟨m, waiting, next⟩ := sequenced p t found
  have unmatched : ¬ (reg.id.partition = p ∧ reg.id.epoch = s.cp.epoch) := by
    rintro ⟨rfl, current⟩
    rcases stale with old | untracked
    · exact old current
    · have found : s.cp.trackers.lookup reg.id.partition = some t := found
      rw [untracked] at found
      cases found
  rw [queuedSeqs_cons queued, if_neg unmatched] at waiting
  exact ⟨m, waiting, next⟩

theorem move_sequenced (move : Move s op s') (causal : Causal s op) (issued : Issued s)
    (evidence : Evidence s) (admission : Admission s) (counters : Counters s)
    (sequenced : Sequenced s) : Sequenced s' := by
  have frame := sequenced.frame move causal issued evidence admission
  cases move with
  | handle | cloneIssuer => exact sequenced.add issued _
  | load found => exact sequenced.load issued evidence counters found causal.2
  | send found => exact sequenced.send issued counters found _
  | regStale inPhase queued stale => exact sequenced.discard queued stale _
  | regApplied inPhase queued current found registered =>
    exact sequenced.register queued current found registered
  | regGap inPhase queued current found gap =>
    exact absurd (sequenced.front queued current found).1
      (PartitionTracker.register_eq_none gap)
  | ackStale pops | ackApplied pops | ackRepeated pops => cases pops <;> exact frame rfl rfl rfl
  | _ => exact frame rfl rfl rfl

theorem awaits_of_unresolved (evidence : Evidence s) {id : BatchId}
    (unresolved : ∀ status, ¬ s.Resolved id status) (current : id.epoch = s.cp.epoch)
    (tracked : s.cp.trackers.lookup id.partition = some t) : t.Awaits id.seq := by
  have sound := evidence.trackers id.partition t tracked
  rw [show id = ⟨id.partition, s.cp.epoch, id.seq⟩ by rw [← current]] at unresolved
  refine ⟨?_, ?_⟩
  · by_contra passed
    exact unresolved .delivered (sound.passed id.seq (Nat.lt_of_not_le passed))
  · intro slot located
    cases state : slot.state with
    | pending => rfl
    | delivered => exact absurd (sound.resolved _ slot .delivered located state) (unresolved _)
    | failed => exact absurd (sound.resolved _ slot .failed located state) (unresolved _)

/-- The last drop of a batch sends its first resolution. -/
theorem Outstanding.drop (outstanding : Outstanding s) (issued : Issued s) (evidence : Evidence s)
    {handle : Nat} {cell : AckState} (found : s.heap[handle]? = some cell) (live : 0 < cell.refs) :
    Outstanding { s with
      heap := s.heap.set handle cell.drop.1
      acks := s.acks ++ cell.drop.2.toList } := by
  have member := List.mem_of_getElem? found
  have unresolved (status : AckStatus) : ¬ s.Resolved cell.id status := by
    rintro ⟨other, stored, sameId, dropped, _⟩
    rw [issued.cell_unique stored member sameId] at dropped
    omega
  cases sent : cell.drop.2 with
  | none =>
    rw [Option.toList_none, List.append_nil]
    exact ⟨outstanding.once, outstanding.awaited⟩
  | some msg =>
    have own : msg.id = cell.id := by
      simp only [AckState.drop] at sent
      split at sent
      · obtain rfl := Option.some.inj sent
        rfl
      · cases sent
    have moved : (s.acks ++ [msg] ++ s.phase.deferred).Perm (msg :: s.messages) := by
      rw [List.append_assoc]
      exact List.perm_middle
    refine ⟨?_, ?_⟩
    · refine (moved.map (·.id)).nodup_iff.mpr (List.nodup_cons.mpr ⟨?_, outstanding.once⟩)
      intro repeated
      obtain ⟨other, earlier, sameId⟩ := List.mem_map.mp repeated
      have resolved := evidence.resolutions other earlier
      rw [show other.id = cell.id from sameId.trans own] at resolved
      exact unresolved _ resolved
    · intro other present current t tracked
      rcases List.mem_cons.mp (moved.mem_iff.mp present) with rfl | earlier
      · exact awaits_of_unresolved evidence (own ▸ unresolved) current tracked
      · exact outstanding.awaited other earlier current t tracked

theorem move_outstanding (move : Move s op s') (issued : Issued s) (evidence : Evidence s)
    (outstanding : Outstanding s) : Outstanding s' := by
  by_cases drops : ∃ handle, op = .drop handle
  · obtain ⟨handle, rfl⟩ := drops
    cases move with
    | drop found live => exact outstanding.drop issued evidence found live
  have fewer := move_messages move fun handle same => drops ⟨handle, same⟩
  refine ⟨?_, ?_⟩
  · obtain ⟨kept, same, sublist⟩ := fewer
    exact (same.map (·.id)).nodup_iff.mp (outstanding.once.sublist (sublist.map (·.id)))
  · intro msg member current t found
    rcases move_tracked move found with ⟨rfl, _⟩ | ⟨epoch, tracked⟩
    · exact PartitionTracker.new_awaits _
    have awaits := outstanding.awaited msg (fewer.subset member) (current.trans epoch)
    cases tracked with
    | kept before => exact awaits t before
    | registered before _ _ registered => exact (awaits _ before).register registered
    | @resolved other _ before popped own =>
      refine (awaits _ before).resolve (fun sameSeq => ?_) _
      -- The popped resolution would be a second one of the same batch.
      have sameId : msg.id = other.id := by rw [own, ← sameSeq, ← epoch, ← current]
      have once := List.nodup_cons.mp ((popped.map (·.id)).nodup_iff.mp outstanding.once)
      exact once.1 (List.mem_map.mpr ⟨msg, member, sameId⟩)
    | advanced before => exact (awaits _ before).advanceOn _

/-- With the registration channel empty, whatever resolved was registered: the
only number its issuer may still owe the channel belongs to no handle yet. -/
theorem registered_of_empty (issued : Issued s) (evidence : Evidence s) (counters : Counters s)
    (sequenced : Sequenced s) (empty : s.regs = []) (member : msg ∈ s.messages)
    (current : msg.id.epoch = s.cp.epoch)
    (tracked : s.cp.trackers.lookup msg.id.partition = some t) : msg.id.seq < t.nextSeq := by
  have published := issued.published
  obtain ⟨cell, stored, sameId, _⟩ := evidence.resolutions msg member
  have issuedId : msg.id ∈ s.ids :=
    List.mem_append_right _ (List.mem_map.mpr ⟨cell, stored, sameId⟩)
  obtain ⟨i, recorded⟩ := issued.owned _ issuedId
  obtain ⟨thread, found⟩ : ∃ thread, s.issuers[i]? = some thread :=
    ⟨_, List.getElem?_eq_getElem (issued.issuer_valid _ recorded)⟩
  have below := issued.counted _ issuedId (current.trans published.symm) i thread recorded found
  obtain ⟨m, waiting, next⟩ := sequenced _ t tracked
  have nothing : m = 0 := by
    rw [queuedSeqs_nil (by simp [empty])] at waiting
    have := congrArg List.length waiting
    simpa using this.symm
  rw [current] at recorded
  have owed := next i thread recorded found
  rw [published] at below
  cases flying : thread.inFlight with
  | none =>
    simp only [IssuerThread.sendsNext, flying] at owed
    omega
  | some reg =>
    simp only [IssuerThread.sendsNext, flying] at owed
    split at owed
    · rename_i same
      have counted := counters.flight_counted i thread reg found flying
        (same.2.trans published.symm)
      rw [published, same.1] at counted
      have different : msg.id.seq ≠ reg.id.seq := by
        intro sameSeq
        have loaded : reg.id ∈ s.inFlight.map (·.id) := by
          apply List.mem_map_of_mem
          exact List.mem_filterMap.mpr ⟨thread, List.mem_of_getElem? found, flying⟩
        have disjoint := (List.nodup_append.mp issued.distinct).2.2
        apply disjoint reg.id loaded cell.id (List.mem_map_of_mem stored)
        rw [sameId]
        rcases hreg : reg.id with ⟨p, e, k⟩
        rcases hmsg : msg.id with ⟨p', e', k'⟩
        rw [hreg, hmsg] at same sameSeq
        rw [hmsg] at current
        dsimp only at same sameSeq current
        rw [same.1, same.2, current, sameSeq]
      omega
    · omega

theorem move_registered (move : Move s op s') (issued : Issued s) (evidence : Evidence s)
    (counters : Counters s) (sequenced : Sequenced s) (registered : Registered s) :
    Registered s' := by
  intro deferred inSecond msg member current t found
  have tracked := move_tracked move found
  -- A resolution set aside stays behind its registration through the second pass.
  have later {popped : List AckMsg} (inPhase : s.phase = .lateResolutions popped)
      (waiting : msg ∈ popped) (regs : s'.regs = s.regs) (drains : op = .drain) :
      msg.id.seq < t.nextSeq := by
    subst drains
    rcases tracked with ⟨_, fresh⟩ | ⟨epoch, tracked⟩
    · cases fresh
    have below := registered _ inPhase msg waiting (current.trans epoch)
    cases tracked with
    | kept before => exact below t before
    | registered _ queued => simp [regs] at queued
    | resolved before =>
      rw [PartitionTracker.resolve_nextSeq]
      exact below _ before
  cases move with
  -- Only an idle checkpointer changes its assignment, and an idle one has no second pass.
  | beginEpoch inPhase | extendEpoch inPhase | revoke inPhase | takeWatermarks inPhase
  | regStale inPhase | regApplied inPhase => simp [inPhase] at inSecond
  | regress | drainStart | regGap | ackDeferred | acksRetry | drainDone => cases inSecond
  | @regsDone late deferred' inPhase empty =>
    cases late with
    | false => cases inSecond
    | true =>
      obtain rfl := DrainPhase.lateResolutions.inj inSecond
      refine registered_of_empty issued evidence counters sequenced empty ?_ current found
      simp only [messages, inPhase, DrainPhase.deferred, List.mem_append]
      exact Or.inr member
  | ackStale pops | ackApplied pops | ackRepeated pops =>
    cases pops with
    | channel inPhase _ => simp [inPhase] at inSecond
    | setAside inPhase =>
      obtain rfl := DrainPhase.lateResolutions.inj inSecond
      exact later inPhase (List.mem_cons_of_mem _ member) rfl rfl
  | ackUnknown inPhase =>
    obtain rfl := DrainPhase.lateResolutions.inj inSecond
    exact later inPhase (List.mem_cons_of_mem _ member) rfl rfl
  | _ => exact registered deferred inSecond msg member current t found

/-- Everything the causal argument carries from step to step. -/
structure Causality (s : World) : Prop where
  issued : Issued s
  evidence : Evidence s
  admission : Admission s
  counters : Counters s
  sequenced : Sequenced s
  outstanding : Outstanding s
  registered : Registered s

theorem move_causality (move : Move s op s') (causal : Causal s op) (causality : Causality s) :
    Causality s' := by
  obtain ⟨issued, evidence, admission, counters, sequenced, outstanding, registered⟩ := causality
  exact ⟨move_issued move causal.issuesOwned issued, move_evidence move evidence,
    move_admission move causal admission, move_counters move issued counters,
    move_sequenced move causal issued evidence admission counters sequenced,
    move_outstanding move issued evidence outstanding,
    move_registered move issued evidence counters sequenced registered⟩

theorem Causality.awaited (causality : Causality s) (member : msg ∈ s.messages)
    (current : msg.id.epoch = s.cp.epoch)
    (tracked : s.cp.trackers.lookup msg.id.partition = some t) :
    (t.resolve msg.id.seq msg.status).1 = .applied ∨
      (t.resolve msg.id.seq msg.status).1 = .unregistered :=
  (causality.outstanding.awaited msg member current t tracked).outcome msg.status

/-- What the counters of the drains and the checkpointer's thread show. -/
structure Clean (s : World) : Prop where
  noGap : s.phase ≠ .panicked .registrationGap
  running : s.stats.duplicates = 0 ∧ s.stats.unknown = 0
  finished : ∀ stats ∈ s.drained, stats.duplicates = 0 ∧ stats.unknown = 0

theorem move_clean (move : Move s op s') (causality : Causality s) (clean : Clean s) :
    Clean s' := by
  obtain ⟨noGap, running, finished⟩ := clean
  cases move with
  | regGap inPhase queued current found gap =>
    exact absurd (causality.sequenced.front queued current found).1
      (PartitionTracker.register_eq_none gap)
  | @ackRepeated msg popped tracker pops current found repeated =>
    have member := (messages_of_pops pops).mem_iff.mpr List.mem_cons_self
    rcases causality.awaited member current found with outcome | outcome <;>
      simp [outcome] at repeated
  | ackUnknown inPhase current found ahead =>
    have below := causality.registered _ inPhase _ List.mem_cons_self current _ found
    omega
  | ackStale pops | ackApplied pops =>
    cases pops with
    | channel inPhase queued => exact ⟨noGap, running, finished⟩
    | setAside inPhase => exact ⟨by simp, running, finished⟩
  | regress | ackDeferred | acksRetry => exact ⟨by simp, running, finished⟩
  | drainStart idle => exact ⟨by simp, ⟨rfl, rfl⟩, finished⟩
  | @regsDone late deferred inPhase empty =>
    exact ⟨by cases late <;> simp, running, finished⟩
  | drainDone done =>
    refine ⟨by simp [finishDrain], running, ?_⟩
    intro stats member
    rcases List.mem_append.mp member with earlier | now
    · exact finished stats earlier
    · obtain rfl := List.mem_singleton.mp now
      exact running
  | _ => exact ⟨noGap, running, finished⟩

open Transition

theorem causality_of_run {events : List Op} (run : Run World.step Causal World.start events s) :
    Causality s := by
  refine run.invariant Causality ?_ ?_
  · refine ⟨issued_of_run .nil,
      evidence_of_run (.nil : Run World.step Causal World.start [] World.start), ?_, ?_, ?_, ?_, ?_⟩
    · exact ⟨by simp [start], by simp [start]⟩
    · exact ⟨by simp [start], by simp [start], by simp [start], by simp [start]⟩
    · intro p t found
      cases found
    · exact ⟨by simp [start, messages, DrainPhase.deferred],
        by simp [start, messages, DrainPhase.deferred]⟩
    · intro deferred inPhase
      cases inPhase
  · intro before after event causality causal taken
    exact move_causality (move_of_step taken) causal causality

theorem clean_of_run {events : List Op} (run : Run World.step Causal World.start events s) :
    Clean s := by
  induction run with
  | nil => exact ⟨by simp [start], ⟨rfl, rfl⟩, by simp [start]⟩
  | snoc earlier permitted taken ih =>
    exact move_clean (move_of_step taken) (causality_of_run earlier) ih

end World

open Transition in
/-- In every state of every run the next registration is the expected one, a
resolution on its way is applied or precedes its registration, and no drain has
met a gap, a repeated resolution or an unknown one. -/
theorem drain_no_gap_no_orphan {events : List Op} {s : World}
    (run : Run World.step Causal World.start events s) :
    s.phase ≠ .panicked .registrationGap ∧
      (∀ reg rest t, s.regs = reg :: rest → reg.id.epoch = s.cp.epoch →
        s.cp.trackers.lookup reg.id.partition = some t →
        (t.register reg.id.seq reg.lastOffset).isSome = true) ∧
      (∀ msg ∈ s.messages, msg.id.epoch = s.cp.epoch → ∀ t,
        s.cp.trackers.lookup msg.id.partition = some t →
        (t.resolve msg.id.seq msg.status).1 ≠ .duplicate ∧
          (t.resolve msg.id.seq msg.status).1 ≠ .alreadyAdvanced) ∧
      ∀ stats ∈ s.stats :: s.drained, stats.duplicates = 0 ∧ stats.unknown = 0 := by
  have causality := World.causality_of_run run
  have clean := World.clean_of_run run
  refine ⟨clean.noGap, ?_, ?_, ?_⟩
  · intro reg rest t queued current found
    have expected := (causality.sequenced.front queued current found).1
    simp [PartitionTracker.register, expected]
  · intro msg member current t found
    rcases causality.awaited member current found with outcome | outcome <;> simp [outcome]
  · intro stats member
    rcases List.mem_cons.mp member with rfl | earlier
    · exact clean.running
    · exact clean.finished stats earlier

open Transition in
/-- A batch issued and dropped between the two passes of one drain is registered
and applied by the second. -/
theorem drain_no_gap_no_orphan_between_passes :
    ∃ s : World, s.drained = [{ applied := 1 }] ∧ s.phase ≠ .panicked .registrationGap ∧
      ∀ stats ∈ s.drained, stats.duplicates = 0 ∧ stats.unknown = 0 := by
  have executes : ((replay World.step Causal World.start
      [.beginEpoch [0] 1, .handle, .drain, .drain, .load 0 0 7, .send 0, .drop 0, .drain, .drain,
        .drain, .drain, .drain, .drain]).any fun s => decide (s.drained = [{ applied := 1 }])) =
      true := by
    decide
  obtain ⟨s, reached, counted⟩ := (Option.any_eq_true _ _).mp executes
  obtain ⟨noGap, _, _, clean⟩ := drain_no_gap_no_orphan (run_of_replay _ _ s reached)
  exact ⟨s, of_decide_eq_true counted, noGap,
    fun stats member => clean stats (List.mem_cons_of_mem _ member)⟩

def epochsBegun (events : List Op) : List Nat :=
  events.filterMap fun
    | .beginEpoch _ epoch => some epoch
    | _ => none

open Transition in
/-- Without the promise about admissions the assertion of `begin_epoch` is too
weak: partition 0 is added to the initial epoch, issued, revoked, and admitted
again by beginning epoch 0. Its issuer goes on numbering at 1. -/
theorem begin_epoch_zero_gap :
    ∃ (events : List Op) (s : World), Run World.step IssuesOwned World.start events s ∧
      (epochsBegun events).Pairwise (· < ·) ∧ s.phase = .panicked .registrationGap := by
  have executes : ((replay World.step IssuesOwned World.start
      [.handle, .extendEpoch [0], .load 0 0 7, .send 0, .drain, .drain, .drain, .drain,
        .revoke [0], .beginEpoch [0] 0, .load 0 0 9, .send 0, .drain, .drain]).any
        fun s => decide (s.phase = .panicked .registrationGap)) = true := by
    decide
  obtain ⟨s, reached, panicked⟩ := (Option.any_eq_true _ _).mp executes
  exact ⟨_, s, run_of_replay _ _ s reached, by decide, of_decide_eq_true panicked⟩

end Spate.Checkpoint
