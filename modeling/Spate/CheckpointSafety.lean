import Spate.Lists
import Spate.CheckpointWorld

set_option autoImplicit false

/- At-least-once safety of the watermarks: what a returned watermark covers has
been delivered. The evidence for every tracked slot is an acknowledgment state
of the same partition, epoch and sequence, and such a state is unique. -/
namespace Spate.Checkpoint

namespace World

/-- Acknowledgment states stay where they are, keep their identity and a failure,
and are never touched again once the last handle is gone. -/
def HeapGrows (s s' : World) : Prop :=
  ∀ (handle : Nat) (cell : AckState), s.heap[handle]? = some cell → ∃ cell' : AckState,
    s'.heap[handle]? = some cell' ∧ cell'.id = cell.id ∧ cell'.lastOffset = cell.lastOffset ∧
      (cell.status = .failed → cell'.status = .failed) ∧ (cell.refs = 0 → cell' = cell)

variable {s s' : World} {op : Op} {lastOffset : Int64} {p : PartitionId} {t : PartitionTracker}
  {events : List Op}

theorem HeapGrows.of_eq (same : s'.heap = s.heap) : HeapGrows s s' := by
  intro handle cell found
  exact ⟨cell, same ▸ found, rfl, rfl, id, fun _ => rfl⟩

theorem HeapGrows.of_append {new : List AckState} (grown : s'.heap = s.heap ++ new) :
    HeapGrows s s' := by
  intro handle cell found
  have inside := (List.getElem?_eq_some_iff.mp found).1
  exact ⟨cell, by rw [grown, List.getElem?_append_left inside, found], rfl, rfl, id, fun _ => rfl⟩

theorem HeapGrows.of_set {handle : Nat} {old new : AckState} (found : s.heap[handle]? = some old)
    (live : 0 < old.refs) (replaced : s'.heap = s.heap.set handle new) (sameId : new.id = old.id)
    (sameOffset : new.lastOffset = old.lastOffset)
    (poisoned : old.status = .failed → new.status = .failed) : HeapGrows s s' := by
  intro other cell present
  by_cases here : handle = other
  · subst here
    obtain rfl : old = cell := Option.some.inj (found.symm.trans present)
    have inside := (List.getElem?_eq_some_iff.mp found).1
    refine ⟨new, by rw [replaced, List.getElem?_set_self inside], sameId, sameOffset,
      poisoned, ?_⟩
    intro resolved
    omega
  · exact ⟨cell, by rw [replaced, List.getElem?_set_ne here, present], rfl, rfl, id, fun _ => rfl⟩

theorem move_heapGrows (move : Move s op s') : HeapGrows s s' := by
  cases move with
  | send => exact HeapGrows.of_append rfl
  | clone found live | drop found live => exact HeapGrows.of_set found live rfl rfl rfl id
  | fail found live => exact HeapGrows.of_set found live rfl rfl rfl fun _ => rfl
  | ackStale pops | ackApplied pops | ackRepeated pops => cases pops <;> exact HeapGrows.of_eq rfl
  | _ => exact HeapGrows.of_eq rfl

theorem Known.grow {id : BatchId} (known : s.Known id lastOffset) (grows : HeapGrows s s') :
    s'.Known id lastOffset := by
  obtain ⟨cell, member, sameId, sameOffset⟩ := known
  obtain ⟨handle, found⟩ := List.mem_iff_getElem?.mp member
  obtain ⟨cell', found', id', offset', _, _⟩ := grows handle cell found
  exact ⟨cell', List.mem_of_getElem? found', id'.trans sameId, offset'.trans sameOffset⟩

theorem Resolved.grow {id : BatchId} {status : AckStatus} (resolved : s.Resolved id status)
    (grows : HeapGrows s s') : s'.Resolved id status := by
  obtain ⟨cell, member, sameId, dropped, sameStatus⟩ := resolved
  obtain ⟨handle, found⟩ := List.mem_iff_getElem?.mp member
  obtain ⟨cell', found', _, _, _, kept⟩ := grows handle cell found
  obtain rfl := kept dropped
  exact ⟨cell', List.mem_of_getElem? found', sameId, dropped, sameStatus⟩

/-- Identities are handed out once: within the current epoch a batch's sequence
is below the counter of the one issuer that owns its partition. -/
structure Issued (s : World) : Prop where
  published : s.sharedEpoch = s.cp.epoch
  issuer_valid : ∀ entry ∈ s.issuedBy, entry.2.2 < s.issuers.length
  issued_epoch : ∀ entry ∈ s.issuedBy, entry.2.1 ≤ s.sharedEpoch
  one_owner : ∀ left ∈ s.issuedBy, ∀ right ∈ s.issuedBy,
    left.1 = right.1 → left.2.1 = right.2.1 → left.2.2 = right.2.2
  owned : ∀ id ∈ s.ids, ∃ i, (id.partition, id.epoch, i) ∈ s.issuedBy
  counted : ∀ id ∈ s.ids, id.epoch = s.sharedEpoch → ∀ i thread,
    (id.partition, id.epoch, i) ∈ s.issuedBy → s.issuers[i]? = some thread →
      id.seq < thread.issuer.nextSeq s.sharedEpoch id.partition
  distinct : s.ids.Nodup

/-- A step that publishes no epoch and numbers no batch keeps `Issued`: it may
add issuers at the end and move identities between the two places they live. -/
theorem Issued.frame (issued : Issued s) (extra : List AckIssuer)
    (shared : s'.sharedEpoch = s.sharedEpoch) (epoch : s'.cp.epoch = s.cp.epoch)
    (history : s'.issuedBy = s.issuedBy)
    (threads : s'.issuers.map (·.issuer) = s.issuers.map (·.issuer) ++ extra)
    (moved : s'.ids.Perm s.ids) : Issued s' := by
  have longer : s.issuers.length ≤ s'.issuers.length := by
    have lengths := congrArg List.length threads
    simp only [List.length_map, List.length_append] at lengths
    omega
  refine ⟨by rw [shared, epoch, issued.published], ?_, ?_, ?_, ?_, ?_, ?_⟩
  · intro entry member
    rw [history] at member
    exact Nat.lt_of_lt_of_le (issued.issuer_valid entry member) longer
  · rw [history, shared]
    exact issued.issued_epoch
  · rw [history]
    exact issued.one_owner
  · intro id member
    rw [history]
    exact issued.owned id (moved.mem_iff.mp member)
  · intro id member current i thread owner found
    rw [history] at owner
    rw [shared] at current ⊢
    have inside := issued.issuer_valid _ owner
    have same : (s.issuers.map (·.issuer))[i]? = some thread.issuer := by
      have left : i < (s.issuers.map (·.issuer)).length := by simpa using inside
      rw [← (List.getElem?_append_left left : (_ ++ extra)[i]? = _), ← threads,
        List.getElem?_map, found, Option.map_some]
    rw [List.getElem?_map] at same
    obtain ⟨before, located, sameIssuer⟩ := Option.map_eq_some_iff.mp same
    rw [← sameIssuer]
    exact issued.counted id (moved.mem_iff.mp member) current i before owner located
  · exact moved.nodup_iff.mpr issued.distinct

theorem Issued.same (issued : Issued s) (shared : s'.sharedEpoch = s.sharedEpoch)
    (epoch : s'.cp.epoch = s.cp.epoch) (history : s'.issuedBy = s.issuedBy)
    (threads : s'.issuers = s.issuers) (cells : s'.heap.map (·.id) = s.heap.map (·.id)) :
    Issued s' := by
  apply issued.frame [] shared epoch history
  · rw [threads, List.append_nil]
  · rw [World.ids, World.inFlight, threads, cells]
    exact List.Perm.refl _

/-- Loading a registration adds one identity, sending it moves it to the heap. -/
theorem ids_set {threads : List IssuerThread} {i : Nat} {old : IssuerThread}
    (found : threads[i]? = some old) (new : IssuerThread) (rest : List BatchId) :
    (old.inFlight.toList.map (·.id) ++
        (((threads.set i new).filterMap (·.inFlight)).map (·.id) ++ rest)).Perm
      (new.inFlight.toList.map (·.id) ++
        ((threads.filterMap (·.inFlight)).map (·.id) ++ rest)) := by
  have moved := ((Lists.filterMap_set_perm found new (·.inFlight)).map (·.id)).append_right rest
  simpa only [List.map_append, List.append_assoc] using moved

theorem Issued.load (issued : Issued s) {i : Nat} {issuer : AckIssuer} {partition : PartitionId}
    (found : s.issuers[i]? = some ⟨issuer, none⟩)
    (owner : ∀ entry ∈ s.issuedBy, entry.1 = partition → entry.2.1 = s.sharedEpoch →
      entry.2.2 = i) :
    Issued { s with
      issuers := s.issuers.set i
        ⟨(issuer.issue s.sharedEpoch partition lastOffset).2,
          some ⟨⟨partition, s.sharedEpoch, issuer.nextSeq s.sharedEpoch partition⟩, lastOffset⟩⟩
      issuedBy := s.issuedBy ++ [(partition, s.sharedEpoch, i)] } := by
  have inside := (List.getElem?_eq_some_iff.mp found).1
  have fresh : (⟨partition, s.sharedEpoch, issuer.nextSeq s.sharedEpoch partition⟩ : BatchId) ∉
      s.ids := by
    intro member
    obtain ⟨j, entry⟩ := issued.owned _ member
    obtain rfl : j = i := owner _ entry rfl rfl
    have below := issued.counted _ member rfl j _ entry found
    exact Nat.lt_irrefl _ below
  have ids := ids_set found
    ⟨(issuer.issue s.sharedEpoch partition lastOffset).2,
      some ⟨⟨partition, s.sharedEpoch, issuer.nextSeq s.sharedEpoch partition⟩, lastOffset⟩⟩
    (s.heap.map (·.id))
  refine ⟨issued.published, ?_, ?_, ?_, ?_, ?_, ?_⟩
  · intro entry member
    rw [List.length_set]
    rcases List.mem_append.mp member with earlier | now
    · exact issued.issuer_valid entry earlier
    · obtain rfl := List.mem_singleton.mp now
      exact inside
  · intro entry member
    rcases List.mem_append.mp member with earlier | now
    · exact issued.issued_epoch entry earlier
    · obtain rfl := List.mem_singleton.mp now
      exact Nat.le_refl _
  · intro left leftMember right rightMember samePartition sameEpoch
    rcases List.mem_append.mp leftMember with left' | left' <;>
      rcases List.mem_append.mp rightMember with right' | right'
    · exact issued.one_owner left left' right right' samePartition sameEpoch
    · obtain rfl := List.mem_singleton.mp right'
      exact owner left left' samePartition sameEpoch
    · obtain rfl := List.mem_singleton.mp left'
      exact (owner right right' samePartition.symm sameEpoch.symm).symm
    · obtain rfl := List.mem_singleton.mp left'
      obtain rfl := List.mem_singleton.mp right'
      rfl
  · intro id member
    rcases List.mem_cons.mp (ids.mem_iff.mp member) with rfl | earlier
    · exact ⟨i, by simp⟩
    · obtain ⟨j, entry⟩ := issued.owned id earlier
      exact ⟨j, List.mem_append_left _ entry⟩
  · intro id member current j thread entry located
    -- Whoever is recorded for this identity's partition and epoch, an earlier
    -- record or this step's, it is the issuer that numbered the identity.
    have counter (numbered : j = i) : thread.issuer.nextSeq s.sharedEpoch id.partition =
        issuer.nextSeq s.sharedEpoch id.partition + if id.partition = partition then 1 else 0 := by
      subst numbered
      rw [List.getElem?_set_self inside] at located
      obtain rfl := Option.some.inj located
      exact AckIssuer.issue_nextSeq issuer s.sharedEpoch partition id.partition lastOffset
    rcases List.mem_cons.mp (ids.mem_iff.mp member) with rfl | earlier
    · have numbered : j = i := by
        rcases List.mem_append.mp entry with old | now
        · exact owner _ old rfl rfl
        · cases List.mem_singleton.mp now
          rfl
      rw [counter numbered]
      simp
    · obtain ⟨k, recorded⟩ := issued.owned id earlier
      by_cases numbered : j = i
      · have recordedHere : (id.partition, id.epoch, i) ∈ s.issuedBy := by
          rcases List.mem_append.mp entry with old | now
          · exact numbered ▸ old
          · have same : k = i := by
              have := List.mem_singleton.mp now
              simp only [Prod.mk.injEq] at this
              exact owner _ recorded this.1 this.2.1
            exact same ▸ recorded
        have below := issued.counted id earlier current i _ recordedHere found
        rw [counter numbered]
        exact Nat.lt_of_lt_of_le below (Nat.le_add_right _ _)
      · rw [List.getElem?_set_ne (Ne.symm numbered)] at located
        rcases List.mem_append.mp entry with old | now
        · exact issued.counted id earlier current j thread old located
        · simp only [List.mem_singleton, Prod.mk.injEq] at now
          exact absurd now.2.2 numbered
  · exact ids.nodup_iff.mpr (List.nodup_cons.mpr ⟨fresh, issued.distinct⟩)

theorem epoch_le_of_asserted {cp : Checkpointer} {epoch : Nat}
    (asserted : cp.epoch < epoch ∨ (cp.epoch = 0 ∧ cp.trackers.keys = [])) : cp.epoch ≤ epoch := by
  rcases asserted with above | ⟨zero, _⟩
  · exact Nat.le_of_lt above
  · rw [zero]
    exact Nat.zero_le epoch

theorem Issued.publish (issued : Issued s) (published : s'.sharedEpoch = s'.cp.epoch)
    (later : s.sharedEpoch ≤ s'.sharedEpoch) (history : s'.issuedBy = s.issuedBy)
    (threads : s'.issuers = s.issuers) (cells : s'.heap = s.heap) : Issued s' := by
  have ids : s'.ids = s.ids := by simp only [World.ids, World.inFlight, threads, cells]
  refine ⟨published, ?_, ?_, ?_, ?_, ?_, ?_⟩
  · rw [history, threads]
    exact issued.issuer_valid
  · rw [history]
    exact fun entry member => Nat.le_trans (issued.issued_epoch entry member) later
  · rw [history]
    exact issued.one_owner
  · rw [history, ids]
    exact issued.owned
  · intro id member current i thread owner found
    rw [history] at owner
    rw [ids] at member
    rw [threads] at found
    -- A batch of the published epoch was issued before only if it is the old one.
    have unchanged : s'.sharedEpoch = s.sharedEpoch := by
      have bound := issued.issued_epoch _ owner
      dsimp only at bound
      omega
    rw [unchanged] at current ⊢
    exact issued.counted id member current i thread owner found
  · rw [ids]
    exact issued.distinct

theorem move_issued (move : Move s op s') (allowed : IssuesOwned s op) (issued : Issued s) :
    Issued s' := by
  cases move with
  | handle =>
    exact issued.frame [Checkpointer.handle s.sharedEpoch] rfl rfl rfl (by simp)
      (by simp [World.ids, World.inFlight])
  | @cloneIssuer _ issuer _ =>
    exact issued.frame [issuer.clone] rfl rfl rfl (by simp)
      (by simp [World.ids, World.inFlight])
  | load found => exact issued.load found allowed.2
  | @send _ issuer _ found =>
    refine issued.frame [] rfl rfl rfl ?_ ?_
    · rw [List.append_nil]
      exact Lists.map_set_same found (·.issuer) rfl
    · have moved := ids_set found ⟨issuer, none⟩ (s.heap.map (·.id))
      refine List.Perm.trans ?_ moved
      simp only [World.ids, World.inFlight, List.map_append, List.map_cons, List.map_nil,
        AckState.new, Option.toList_some]
      rw [← List.append_assoc]
      exact List.perm_append_comm
  | clone found | fail found | drop found =>
    exact issued.same rfl rfl rfl rfl (Lists.map_set_same found (·.id) rfl)
  | beginEpoch _ asserted =>
    refine issued.publish rfl ?_ rfl rfl rfl
    rw [issued.published]
    exact epoch_le_of_asserted asserted
  | ackStale pops | ackApplied pops | ackRepeated pops =>
    cases pops <;> exact issued.same rfl rfl rfl rfl rfl
  | _ => exact issued.same rfl rfl rfl rfl rfl

/-- The evidence behind a tracker of the current epoch: every slot is an issued
batch, a resolved slot one whose last handle is gone, and what the head has
passed was delivered. -/
structure TrackerSound (s : World) (p : PartitionId) (t : PartitionTracker) : Prop where
  known : ∀ k slot, t.slotAt k = some slot → s.Known ⟨p, s.cp.epoch, k⟩ slot.lastOffset
  resolved : ∀ k slot status, t.slotAt k = some slot → slot.state = status.slotState →
    s.Resolved ⟨p, s.cp.epoch, k⟩ status
  passed : ∀ k, k < t.headSeq → s.Resolved ⟨p, s.cp.epoch, k⟩ .delivered

theorem trackerSound_new (s : World) (p : PartitionId) : TrackerSound s p .new := by
  have empty (k : Nat) : PartitionTracker.new.slotAt k = none := by
    simp [PartitionTracker.slotAt]
  refine ⟨?_, ?_, ?_⟩
  · intro k slot found
    rw [empty] at found
    cases found
  · intro k slot status found
    rw [empty] at found
    cases found
  · intro k below
    cases below

theorem TrackerSound.grow (sound : TrackerSound s p t) (grows : HeapGrows s s')
    (epoch : s'.cp.epoch = s.cp.epoch) : TrackerSound s' p t := by
  refine ⟨?_, ?_, ?_⟩ <;> rw [epoch]
  · exact fun k slot found => (sound.known k slot found).grow grows
  · exact fun k slot status found state => (sound.resolved k slot status found state).grow grows
  · exact fun k below => (sound.passed k below).grow grows

theorem TrackerSound.register {next : PartitionTracker} {seq : Nat} (sound : TrackerSound s p t)
    (registered : t.register seq lastOffset = some next)
    (known : s.Known ⟨p, s.cp.epoch, seq⟩ lastOffset) : TrackerSound s p next := by
  obtain ⟨expected, head, _⟩ := PartitionTracker.register_eq_some registered
  refine ⟨?_, ?_, ?_⟩
  · intro k slot found
    rw [PartitionTracker.slotAt_register registered] at found
    split at found
    · rename_i here
      obtain rfl := Option.some.inj found
      rw [here, ← expected]
      exact known
    · exact sound.known k slot found
  · intro k slot status found state
    rw [PartitionTracker.slotAt_register registered] at found
    split at found
    · obtain rfl := Option.some.inj found
      exact absurd state.symm status.slotState_ne_pending
    · exact sound.resolved k slot status found state
  · intro k below
    rw [head] at below
    exact sound.passed k below

theorem TrackerSound.resolve {seq : Nat} {status : AckStatus} (sound : TrackerSound s p t)
    (resolved : s.Resolved ⟨p, s.cp.epoch, seq⟩ status) :
    TrackerSound s p (t.resolve seq status).2 := by
  rcases t.resolve_cases seq status with
    ⟨_, unchanged, _⟩ | ⟨_, unchanged, _⟩ | ⟨_, _, unchanged, _⟩ |
      ⟨slot, _, located, _, head, _, _, _, slots⟩
  · rwa [unchanged]
  · rwa [unchanged]
  · rwa [unchanged]
  · refine ⟨?_, ?_, ?_⟩
    · intro k other found
      rw [slots] at found
      split at found
      · rename_i here
        obtain rfl := Option.some.inj found
        rw [here]
        exact sound.known seq slot located
      · exact sound.known k other found
    · intro k other otherStatus found state
      rw [slots] at found
      split at found
      · rename_i here
        obtain rfl := Option.some.inj found
        rw [here, ← AckStatus.slotState_injective state]
        exact resolved
      · exact sound.resolved k other otherStatus found state
    · rw [head]
      exact sound.passed

theorem TrackerSound.advanceOn (sound : TrackerSound s p t) (now : Nat) :
    TrackerSound s p (t.advanceOn now).2 := by
  have later {k : Nat} {slot : Slot} (found : (t.advanceOn now).2.slotAt k = some slot) :
      t.slotAt k = some slot := by
    rw [PartitionTracker.advanceOn_slotAt] at found
    split at found
    · cases found
    · exact found
  refine ⟨?_, ?_, ?_⟩
  · exact fun k slot found => sound.known k slot (later found)
  · exact fun k slot status found state => sound.resolved k slot status (later found) state
  · intro k below
    by_cases already : k < t.headSeq
    · exact sound.passed k already
    · obtain ⟨slot, found, delivered⟩ :=
        t.advanceOn_popped now (Nat.le_of_not_lt already) below
      exact sound.resolved k slot .delivered found delivered

/-- Everything the checkpointer holds or is about to receive is backed by the
acknowledgment states themselves. -/
structure Evidence (s : World) : Prop where
  registrations : ∀ reg ∈ s.regs, s.Known reg.id reg.lastOffset
  resolutions : ∀ msg ∈ s.messages, s.Resolved msg.id msg.status
  trackers : ∀ p t, s.cp.trackers.lookup p = some t → TrackerSound s p t

theorem messages_of_pops {popped : World} {msg : AckMsg} (pops : Pops s msg popped) :
    s.messages.Perm (msg :: popped.messages) := by
  cases pops with
  | channel inPhase queued => simp [World.messages, queued]
  | setAside inPhase =>
    simp only [World.messages, inPhase, DrainPhase.deferred]
    exact List.perm_middle

/-- A partition that a move creates the tracker of. -/
inductive Fresh (s s' : World) (p : PartitionId) : Op → Prop
  | begun {partitions : List PartitionId} : Fresh s s' p (.beginEpoch partitions s'.cp.epoch)
  | added {partitions : List PartitionId} (same : s'.cp.epoch = s.cp.epoch)
      (above : ∀ mark, s.cp.admittedThrough = some mark → mark < p) :
      Fresh s s' p (.extendEpoch partitions)

/-- What a move makes of the trackers it finds. -/
inductive Tracked (s s' : World) (p : PartitionId) : Op → PartitionTracker → Prop
  | kept {op : Op} {t : PartitionTracker} (before : s.cp.trackers.lookup p = some t) :
      Tracked s s' p op t
  | registered {reg : Registration} {t next : PartitionTracker}
      (before : s.cp.trackers.lookup p = some t) (queued : s.regs = reg :: s'.regs)
      (own : reg.id = ⟨p, s.cp.epoch, reg.id.seq⟩)
      (registered : t.register reg.id.seq reg.lastOffset = some next) : Tracked s s' p .drain next
  | resolved {msg : AckMsg} {t : PartitionTracker} (before : s.cp.trackers.lookup p = some t)
      (popped : s.messages.Perm (msg :: s'.messages)) (own : msg.id = ⟨p, s.cp.epoch, msg.id.seq⟩)
      (applied : (t.resolve msg.id.seq msg.status).1 = .applied) :
      Tracked s s' p .drain (t.resolve msg.id.seq msg.status).2
  | advanced {t : PartitionTracker} {now : Nat} (before : s.cp.trackers.lookup p = some t) :
      Tracked s s' p (.takeWatermarks now) (t.advanceOn now).2

theorem move_tracked (move : Move s op s') (found : s'.cp.trackers.lookup p = some t) :
    (t = .new ∧ Fresh s s' p op) ∨ (s'.cp.epoch = s.cp.epoch ∧ Tracked s s' p op t) := by
  have reinserted {key : PartitionId} {old : PartitionTracker}
      (before : s.cp.trackers.lookup key = some old)
      (present : (s.cp.trackers.insert key old).lookup p = some t) : Tracked s s' p op t := by
    rcases FastMap.lookup_insert_cases present with ⟨rfl, rfl⟩ | ⟨_, earlier⟩
    · exact .kept before
    · exact .kept earlier
  cases move with
  | beginEpoch idle asserted =>
    rw [FastMap.lookup_ofKeys] at found
    split at found
    · exact .inl ⟨(Option.some.inj found).symm, .begun⟩
    · cases found
  | extendEpoch idle fresh =>
    rw [FastMap.lookup_insertAll] at found
    split at found
    · rename_i listed
      exact .inl ⟨(Option.some.inj found).symm, .added rfl (fresh p listed).2⟩
    · exact .inr ⟨rfl, .kept found⟩
  | revoke idle =>
    have present : (FastMap.eraseAll _ s.cp.trackers).lookup p = some t := found
    rw [FastMap.lookup_eraseAll] at present
    split at present
    · cases present
    · exact .inr ⟨rfl, .kept present⟩
  | regApplied inPhase queued current before registered =>
    refine .inr ⟨rfl, ?_⟩
    rcases FastMap.lookup_insert_cases found with ⟨rfl, rfl⟩ | ⟨_, earlier⟩
    · exact .registered before queued (by rw [← current]) registered
    · exact .kept earlier
  | ackStale pops => cases pops <;> exact .inr ⟨rfl, .kept found⟩
  | ackApplied pops current before applied =>
    have fewer := messages_of_pops pops
    refine .inr ⟨rfl, ?_⟩
    rcases FastMap.lookup_insert_cases found with ⟨rfl, rfl⟩ | ⟨_, earlier⟩
    · exact .resolved before fewer (by rw [← current]) applied
    · exact .kept earlier
  | ackRepeated _ _ before | ackDeferred _ _ _ before | ackUnknown _ _ before =>
    exact .inr ⟨rfl, reinserted before found⟩
  | takeWatermarks idle =>
    rw [Checkpointer.takeWatermarks_lookup] at found
    obtain ⟨before, present, rfl⟩ := Option.map_eq_some_iff.mp found
    exact .inr ⟨rfl, .advanced present⟩
  | _ => exact .inr ⟨rfl, .kept found⟩

theorem move_regs (move : Move s op s') {reg : Registration} (member : reg ∈ s'.regs) :
    reg ∈ s.regs ∨ s'.Known reg.id reg.lastOffset := by
  cases move with
  | send found =>
    rcases List.mem_append.mp member with earlier | now
    · exact .inl earlier
    · obtain rfl := List.mem_singleton.mp now
      exact .inr ⟨.new reg.id reg.lastOffset, by simp, rfl, rfl⟩
  | regStale _ queued | regApplied _ queued | regGap _ queued =>
    exact .inl (queued ▸ List.mem_cons_of_mem _ member)
  | ackStale pops | ackApplied pops | ackRepeated pops => cases pops <;> exact .inl member
  | _ => exact .inl member

/-- Only the last drop of a handle sends a resolution. -/
theorem move_messages (move : Move s op s') (kept : ∀ handle, op ≠ .drop handle) :
    s'.messages.Subperm s.messages := by
  have ended {s' : World} (channel : s'.acks = s.acks) (ended : s'.phase.deferred = []) :
      s'.messages.Subperm s.messages := by
    rw [messages, messages, channel, ended, List.append_nil]
    exact (List.sublist_append_left _ _).subperm
  have popped {msg : AckMsg} {popped : World} (pops : Pops s msg popped) :
      popped.messages.Subperm s.messages :=
    ((List.sublist_cons_self msg _).subperm).trans (messages_of_pops pops).symm.subperm
  cases move with
  | @drop handle => exact absurd rfl (kept handle)
  | regress | regGap | drainDone | drainStart => exact ended rfl rfl
  | ackStale pops | ackApplied pops | ackRepeated pops =>
    have fewer := popped pops
    exact fewer
  | ackUnknown inPhase =>
    have fewer := popped (.setAside inPhase)
    exact fewer
  | ackDeferred inPhase queued =>
    refine List.Perm.subperm ?_
    simp only [messages, inPhase, queued, DrainPhase.deferred]
    rw [← List.append_assoc]
    exact List.perm_append_singleton _ _
  | @regsDone late deferred inPhase empty =>
    refine (List.Perm.of_eq ?_).subperm
    cases late <;> simp [messages, inPhase, DrainPhase.deferred]
  | acksRetry inPhase empty =>
    refine (List.Perm.of_eq ?_).subperm
    simp [messages, inPhase, DrainPhase.deferred]
  | _ => exact List.Subperm.refl _

theorem move_resolutions (move : Move s op s') {msg : AckMsg} (member : msg ∈ s'.messages) :
    msg ∈ s.messages ∨ s'.Resolved msg.id msg.status := by
  by_cases dropped : ∃ handle, op = .drop handle
  · obtain ⟨handle, rfl⟩ := dropped
    cases move with
    | @drop handle cell found live =>
      have split : msg ∈ s.messages ∨ msg ∈ cell.drop.2 := by
        simp only [World.messages, List.mem_append, Option.mem_toList, Option.mem_def] at member ⊢
        tauto
      refine split.imp_right fun sent => ?_
      have inside := (List.getElem?_eq_some_iff.mp found).1
      have stored : cell.drop.1 ∈ s.heap.set handle cell.drop.1 := List.mem_set inside _
      simp only [AckState.drop, Option.mem_def] at sent
      split at sent
      · rename_i last
        obtain rfl := Option.some.inj sent
        refine ⟨cell.drop.1, stored, rfl, ?_, rfl⟩
        simp [AckState.drop, last]
      · cases sent
  · exact .inl ((move_messages move fun handle same => dropped ⟨handle, same⟩).subset member)

theorem move_evidence (move : Move s op s') (evidence : Evidence s) : Evidence s' := by
  have grows := move_heapGrows move
  refine ⟨?_, ?_, ?_⟩
  · intro reg member
    rcases move_regs move member with earlier | known
    · exact (evidence.registrations reg earlier).grow grows
    · exact known
  · intro msg member
    rcases move_resolutions move member with earlier | resolved
    · exact (evidence.resolutions msg earlier).grow grows
    · exact resolved
  · intro p t found
    rcases move_tracked move found with ⟨rfl, _⟩ | ⟨epoch, tracked⟩
    · exact trackerSound_new s' p
    · refine TrackerSound.grow ?_ grows epoch
      cases tracked with
      | kept before => exact evidence.trackers p t before
      | registered before queued own registered =>
        refine (evidence.trackers p _ before).register registered ?_
        exact own ▸ evidence.registrations _ (queued ▸ List.mem_cons_self)
      | resolved before popped own =>
        refine (evidence.trackers p _ before).resolve ?_
        exact own ▸ evidence.resolutions _ (popped.mem_iff.mpr List.mem_cons_self)
      | advanced before => exact (evidence.trackers p _ before).advanceOn _

open Transition

theorem issued_of_run (run : Run World.step IssuesOwned World.start events s) : Issued s := by
  refine run.invariant Issued ?_ ?_
  · exact ⟨rfl, by simp [start], by simp [start], by simp [start], by simp [start, ids, inFlight],
      by simp [start, ids, inFlight], by simp [start, ids, inFlight]⟩
  · intro before after event issued allowed taken
    exact move_issued (move_of_step taken) allowed issued

theorem evidence_of_run {allowed : World → Op → Prop}
    (run : Run World.step allowed World.start events s) : Evidence s := by
  refine run.invariant Evidence ?_ ?_
  · refine ⟨by simp [start], by simp [start, messages, DrainPhase.deferred], ?_⟩
    intro p t found
    cases found
  · intro before after event evidence _ taken
    exact move_evidence (move_of_step taken) evidence

/-- A `fail` anywhere in the run is still visible in the batch's state. -/
theorem failed_of_run {allowed : World → Op → Prop}
    (run : Run World.step allowed World.start events s) {handle : Nat}
    (called : Op.fail handle ∈ events) :
    ∃ cell, s.heap[handle]? = some cell ∧ cell.status = .failed := by
  induction run with
  | nil => cases called
  | snoc earlier permitted taken ih =>
    have move := move_of_step taken
    rcases List.mem_append.mp called with before | now
    · obtain ⟨cell, found, failed⟩ := ih before
      obtain ⟨cell', found', _, _, poisoned, _⟩ := move_heapGrows move handle cell found
      exact ⟨cell', found', poisoned failed⟩
    · obtain rfl := List.mem_singleton.mp now
      cases move with
      | @fail _ cell found live =>
        have inside := (List.getElem?_eq_some_iff.mp found).1
        exact ⟨cell.fail, List.getElem?_set_self inside, rfl⟩

theorem Issued.cell_unique (issued : Issued s) {left right : AckState}
    (leftMember : left ∈ s.heap) (rightMember : right ∈ s.heap) (same : left.id = right.id) :
    left = right := by
  have distinct : (s.heap.map (·.id)).Nodup := (List.nodup_append.mp issued.distinct).2.1
  exact List.inj_on_of_nodup_map distinct leftMember rightMember same

end World

open Transition in
/-- Whenever `take_watermarks` returns a watermark, it is one past a batch of the
partition's current epoch, and that batch and every earlier one of the epoch has
lost its last handle with `fail` never called on it. -/
theorem takeWatermarks_delivered {events : List Op} {s : World} {now : Nat} {p : PartitionId}
    {w : Int64} (run : Run World.step IssuesOwned World.start events s)
    (returned : (p, w) ∈ (s.cp.takeWatermarks now).1) :
    s.cp.tracks p = true ∧ ∃ k : Nat,
      (∃ cell ∈ s.heap, cell.id = ⟨p, s.cp.epoch, k⟩ ∧ w = cell.lastOffset + 1 ∧
        (cell.lastOffset < Int64.maxValue → w.toInt = cell.lastOffset.toInt + 1)) ∧
      (∀ j ≤ k, ∃ cell ∈ s.heap, cell.id = ⟨p, s.cp.epoch, j⟩) ∧
      (∀ handle cell, s.heap[handle]? = some cell → cell.id.partition = p →
        cell.id.epoch = s.cp.epoch → cell.id.seq ≤ k →
        cell.refs = 0 ∧ cell.status = .delivered ∧ Op.fail handle ∉ events) ∧
      ∀ reg ∈ s.inFlight, reg.id.partition = p → reg.id.epoch = s.cp.epoch → k < reg.id.seq := by
  have issued := World.issued_of_run run
  obtain ⟨tracker, found, advanced⟩ := Checkpointer.mem_takeWatermarks.mp returned
  have sound := (World.evidence_of_run run).trackers p tracker found
  have passed := (sound.advanceOn now).passed
  rw [PartitionTracker.advanceOn_watermark] at advanced
  split at advanced
  · cases advanced
  · rename_i moved
    obtain ⟨slot, located, rfl⟩ := Option.map_eq_some_iff.mp advanced
    have head := tracker.advanceOn_headSeq_le now
    generalize (tracker.advanceOn now).2.headSeq = headSeq at *
    refine ⟨by simp [Checkpointer.tracks, found], headSeq - 1, ?_, ?_, ?_, ?_⟩
    · obtain ⟨cell, member, sameId, sameOffset⟩ := sound.known _ slot located
      rw [← sameOffset]
      exact ⟨cell, member, sameId, rfl, toInt_add_one⟩
    · intro j bound
      obtain ⟨cell, member, sameId, _⟩ := passed j (by omega)
      exact ⟨cell, member, sameId⟩
    · intro handle cell present samePartition sameEpoch bound
      obtain ⟨other, member, sameId, dropped, delivered⟩ := passed cell.id.seq (by omega)
      have same : other = cell := by
        apply issued.cell_unique member (List.mem_of_getElem? present)
        rw [sameId, ← samePartition, ← sameEpoch]
      subst same
      refine ⟨dropped, delivered, ?_⟩
      intro called
      obtain ⟨failed, here, poisoned⟩ := World.failed_of_run run called
      obtain rfl : failed = other := Option.some.inj (here.symm.trans present)
      rw [delivered] at poisoned
      cases poisoned
    · intro reg member samePartition sameEpoch
      by_contra bound
      obtain ⟨other, stored, sameId, _⟩ := passed reg.id.seq (by omega)
      have same : other.id = reg.id := by rw [sameId, ← samePartition, ← sameEpoch]
      have disjoint := (List.nodup_append.mp issued.distinct).2.2
      exact disjoint reg.id (List.mem_map_of_mem member) other.id (List.mem_map_of_mem stored)
        same.symm

open Transition in
/-- One batch, issued, dropped and drained: its watermark is returned and backed. -/
theorem takeWatermarks_delivered_one_batch :
    ∃ s : World, (0, 8) ∈ (s.cp.takeWatermarks 0).1 ∧ s.cp.tracks 0 = true ∧
      ∃ k, ∃ cell ∈ s.heap, cell.id = ⟨0, s.cp.epoch, k⟩ ∧ (8 : Int64) = cell.lastOffset + 1 ∧
        (cell.lastOffset < Int64.maxValue → (8 : Int64).toInt = cell.lastOffset.toInt + 1) := by
  have executes : ((replay World.step IssuesOwned World.start
      [.beginEpoch [0] 1, .handle, .load 0 0 7, .send 0, .drop 0, .drain, .drain, .drain, .drain,
        .drain]).any fun s => decide ((0, 8) ∈ (s.cp.takeWatermarks 0).1)) = true := by
    decide
  obtain ⟨s, reached, returned⟩ := (Option.any_eq_true _ _).mp executes
  have returned := of_decide_eq_true returned
  obtain ⟨tracked, k, covered, _⟩ := takeWatermarks_delivered (run_of_replay _ _ s reached) returned
  exact ⟨s, returned, tracked, k, covered⟩

end Spate.Checkpoint
