import Mathlib.Algebra.Order.Group.Multiset
import Spate.Checkpointer
import Spate.Handoff

set_option autoImplicit false

/- The acknowledgment states of all batches with the handles that point to them
(`checkpoint/ack.rs`). A handle names the cell its state lives in; a state counts
its handles, and the drop of the last one sends the resolution. -/
namespace Spate.Sink

open Spate.Checkpoint (AckState AckMsg)

structure AckBook where
  heap : List AckState
  /-- The resolutions sent to the checkpointer, oldest first. -/
  sent : List AckMsg
  deriving DecidableEq

namespace AckBook

def resolution (state : AckState) : AckMsg := ⟨state.id, state.lastOffset, state.status⟩

/-- Updates the state behind a handle and sends what the update sends. -/
def update (book : AckBook) (ack : AckRef) (f : AckState → AckState × Option AckMsg) : AckBook :=
  match book.heap[ack.cell]? with
  | none => book
  | some state =>
    ⟨book.heap.set ack.cell (f state).1, book.sent ++ (f state).2.toList⟩

/-- `AckRef::new`: the first handle of a batch. -/
def issue (book : AckBook) (id : BatchId) (lastOffset : Int64) : AckBook × AckRef :=
  ({ book with heap := book.heap ++ [.new id lastOffset] }, ⟨book.heap.length, id⟩)

def clone (book : AckBook) (ack : AckRef) : AckBook :=
  book.update ack fun state => (state.clone, none)

def fail (book : AckBook) (ack : AckRef) : AckBook :=
  book.update ack fun state => (state.fail, none)

def drop (book : AckBook) (ack : AckRef) : AckBook := book.update ack AckState.drop

def failAll (book : AckBook) : AckSet → AckBook
  | [] => book
  | ack :: rest => (book.fail ack).failAll rest

/-- `AckSet::deliver`: the handles drop as they are. -/
def deliver (book : AckBook) : AckSet → AckBook
  | [] => book
  | ack :: rest => (book.drop ack).deliver rest

/-- An `AckSet` drops: it fails its handles before they go. -/
def discard (book : AckBook) (acks : AckSet) : AckBook := (book.failAll acks).deliver acks

def Known (book : AckBook) (ack : AckRef) : Prop :=
  ∃ state, book.heap[ack.cell]? = some state ∧ state.id = ack.batchId

/-- The batch behind the handle is poisoned. -/
def Poisoned (book : AckBook) (ack : AckRef) : Prop :=
  ∃ state, book.heap[ack.cell]? = some state ∧ state.id = ack.batchId ∧ state.status = .failed

/-- States stay where they are, for the same batch, and never turn from failed to
delivered. -/
def Grows (book later : AckBook) : Prop :=
  ∀ (cell : Nat) (state : AckState), book.heap[cell]? = some state →
    ∃ after, later.heap[cell]? = some after ∧ after.id = state.id ∧
      (state.status = .failed → after.status = .failed)

variable {book : AckBook} {ack : AckRef} {handles : Multiset AckRef} {state : AckState}
  {acks : AckSet}

theorem Grows.refl (book : AckBook) : book.Grows book :=
  fun _ state found => ⟨state, found, rfl, id⟩

theorem Grows.trans {first second third : AckBook} (left : first.Grows second)
    (right : second.Grows third) : first.Grows third := by
  intro cell state found
  obtain ⟨middle, present, same, failed⟩ := left cell state found
  obtain ⟨after, last, same', failed'⟩ := right cell middle present
  exact ⟨after, last, same'.trans same, fun bad => failed' (failed bad)⟩

theorem Known.mono {later : AckBook} (known : book.Known ack) (grows : book.Grows later) :
    later.Known ack := by
  obtain ⟨state, found, same⟩ := known
  obtain ⟨after, present, kept, _⟩ := grows _ _ found
  exact ⟨after, present, kept.trans same⟩

theorem Poisoned.mono {later : AckBook} (poisoned : book.Poisoned ack) (grows : book.Grows later) :
    later.Poisoned ack := by
  obtain ⟨state, found, same, failed⟩ := poisoned
  obtain ⟨after, present, batch, kept⟩ := grows _ _ found
  exact ⟨after, present, batch.trans same, kept failed⟩

theorem update_grows (book : AckBook) (ack : AckRef) {f : AckState → AckState × Option AckMsg}
    (same : ∀ state, (f state).1.id = state.id)
    (kept : ∀ state, state.status = .failed → (f state).1.status = .failed) :
    book.Grows (book.update ack f) := by
  intro cell state found
  unfold update
  split
  · exact ⟨state, found, rfl, id⟩
  · rename_i old present
    by_cases here : ack.cell = cell
    · subst here
      rw [present] at found
      cases found
      have inside := (List.getElem?_eq_some_iff.mp present).1
      exact ⟨(f state).1, List.getElem?_set_self inside, same state, kept state⟩
    · exact ⟨state, (List.getElem?_set_ne here).trans found, rfl, id⟩

theorem issue_grows (book : AckBook) (id : BatchId) (lastOffset : Int64) :
    book.Grows (book.issue id lastOffset).1 := by
  intro cell state found
  have inside := (List.getElem?_eq_some_iff.mp found).1
  exact ⟨state, (List.getElem?_append_left inside).trans found, rfl, fun bad => bad⟩

theorem clone_grows (book : AckBook) (ack : AckRef) : book.Grows (book.clone ack) :=
  update_grows book ack (fun _ => rfl) fun _ bad => bad

theorem fail_grows (book : AckBook) (ack : AckRef) : book.Grows (book.fail ack) :=
  update_grows book ack (fun _ => rfl) fun _ _ => rfl

theorem drop_grows (book : AckBook) (ack : AckRef) : book.Grows (book.drop ack) :=
  update_grows book ack (fun _ => rfl) fun _ bad => bad

theorem failAll_grows (acks : AckSet) : ∀ book : AckBook, book.Grows (book.failAll acks) := by
  induction acks with
  | nil => exact Grows.refl
  | cons ack rest ih => exact fun book => (fail_grows book ack).trans (ih _)

theorem deliver_grows (acks : AckSet) : ∀ book : AckBook, book.Grows (book.deliver acks) := by
  induction acks with
  | nil => exact Grows.refl
  | cons ack rest ih => exact fun book => (drop_grows book ack).trans (ih _)

theorem discard_grows (acks : AckSet) (book : AckBook) : book.Grows (book.discard acks) :=
  (failAll_grows acks book).trans (deliver_grows acks _)

/-- The book counts exactly the handles in `handles`, and has sent the resolution
of every batch that has none. -/
structure Keeps (book : AckBook) (handles : Multiset AckRef) : Prop where
  ids : (book.heap.map (·.id)).Nodup
  known : ∀ ack ∈ handles, book.Known ack
  counted : ∀ (cell : Nat) (state : AckState), book.heap[cell]? = some state →
    state.refs = handles.countP (·.cell = cell)
  sent : ∀ msg ∈ book.sent, ∃ (cell : Nat) (state : AckState),
    book.heap[cell]? = some state ∧ state.refs = 0 ∧ msg = resolution state
  resolved : ∀ state ∈ book.heap, state.refs = 0 → resolution state ∈ book.sent
  once : (book.sent.map (·.id)).Nodup

theorem keeps_empty : Keeps ⟨[], []⟩ 0 :=
  ⟨List.nodup_nil, by simp, by simp, by simp, by simp, List.nodup_nil⟩

theorem Keeps.cell_eq (keeps : book.Keeps handles) {cell other : Nat} {state' : AckState}
    (found : book.heap[cell]? = some state) (found' : book.heap[other]? = some state')
    (same : state.id = state'.id) : cell = other := by
  have inside : cell < (book.heap.map (·.id)).length := by
    simpa using (List.getElem?_eq_some_iff.mp found).1
  apply (List.getElem?_inj inside keeps.ids).mp
  rw [List.getElem?_map, List.getElem?_map, found, found']
  exact congrArg some same

theorem Keeps.same (keeps : book.Keeps handles) {left right : AckRef} (known : book.Known left)
    (other : book.Known right) (batch : left.batchId = right.batchId) : left = right := by
  obtain ⟨state, found, same⟩ := known
  obtain ⟨state', found', same'⟩ := other
  have cells := keeps.cell_eq found found' (same.trans (batch.trans same'.symm))
  cases left
  cases right
  exact (AckRef.mk.injEq ..).mpr ⟨cells, batch⟩

/-- One state changes and with it the handles that point to it. The update either
leaves a handle and sends nothing, or takes the last one and sends the resolution. -/
theorem Keeps.set {after : Multiset AckRef} {cell : Nat} {next : AckState}
    (keeps : book.Keeps handles) (found : book.heap[cell]? = some state) (id : next.id = state.id)
    (known : ∀ ack ∈ after, book.Known ack) (refs : next.refs = after.countP (·.cell = cell))
    (others : ∀ other, other ≠ cell →
      after.countP (·.cell = other) = handles.countP (·.cell = other)) (live : 0 < state.refs)
    {msg : Option AckMsg} (mail : msg = if next.refs = 0 then some (resolution next) else none) :
    Keeps ⟨book.heap.set cell next, book.sent ++ msg.toList⟩ after := by
  have inside := (List.getElem?_eq_some_iff.mp found).1
  -- a batch that was resolved before is another one
  have earlier : ∀ msg ∈ book.sent, msg.id ≠ state.id := by
    intro msg member same
    obtain ⟨place, old, present, none, rfl⟩ := keeps.sent msg member
    obtain rfl := keeps.cell_eq present found same
    rw [found] at present
    cases present
    omega
  refine ⟨?_, ?_, ?_, ?_, ?_, ?_⟩
  · rw [Lists.map_set_same found _ id]
    exact keeps.ids
  · intro ack member
    obtain ⟨old, present, same⟩ := known ack member
    by_cases here : cell = ack.cell
    · subst here
      rw [found] at present
      cases present
      exact ⟨next, List.getElem?_set_self inside, id.trans same⟩
    · exact ⟨old, (List.getElem?_set_ne here).trans present, same⟩
  · intro place other present
    rcases Lists.getElem?_set_cases present with ⟨rfl, rfl⟩ | ⟨apart, old⟩
    · exact refs
    · rw [others place apart]
      exact keeps.counted place other old
  · intro sentMsg member
    rcases List.mem_append.mp member with before | fresh
    · obtain ⟨place, old, present, none, rfl⟩ := keeps.sent sentMsg before
      have apart : cell ≠ place := by
        rintro rfl
        rw [found] at present
        cases present
        omega
      exact ⟨place, old, (List.getElem?_set_ne apart).trans present, none, rfl⟩
    · rw [Option.mem_toList, mail] at fresh
      split at fresh
      · rename_i gone
        cases fresh
        exact ⟨cell, next, List.getElem?_set_self inside, gone, rfl⟩
      · cases fresh
  · intro other member gone
    rcases List.mem_or_eq_of_mem_set member with old | rfl
    · exact List.mem_append_left _ (keeps.resolved other old gone)
    · apply List.mem_append_right
      rw [Option.mem_toList, mail, if_pos gone]
  · rw [List.map_append, mail]
    split
    · apply List.Nodup.append keeps.once (List.nodup_singleton _)
      intro seen member fresh
      obtain ⟨msg, present, rfl⟩ := List.mem_map.mp member
      have same : msg.id = next.id := List.mem_singleton.mp fresh
      exact earlier msg present (same.trans id)
    · simpa using keeps.once

theorem Keeps.live (keeps : book.Keeps handles) (member : ack ∈ handles)
    (found : book.heap[ack.cell]? = some state) : 0 < state.refs := by
  rw [keeps.counted _ _ found]
  exact Multiset.countP_pos.mpr ⟨ack, member, rfl⟩

theorem Keeps.unresolved (keeps : book.Keeps handles) (member : ack ∈ handles) {msg : AckMsg}
    (sent : msg ∈ book.sent) : msg.id ≠ ack.batchId := by
  intro same
  obtain ⟨cell, state, found, none, rfl⟩ := keeps.sent msg sent
  obtain ⟨own, present, batch⟩ := keeps.known ack member
  obtain rfl := keeps.cell_eq found present (same.trans batch.symm)
  have live := keeps.live member found
  omega

theorem Keeps.failed (keeps : book.Keeps handles) (poisoned : book.Poisoned ack) {msg : AckMsg}
    (sent : msg ∈ book.sent) (same : msg.id = ack.batchId) : msg.status = .failed := by
  obtain ⟨cell, state, found, _, rfl⟩ := keeps.sent msg sent
  obtain ⟨own, present, batch, failed⟩ := poisoned
  obtain rfl := keeps.cell_eq found present (same.trans batch.symm)
  rw [found] at present
  cases present
  exact failed

theorem Keeps.resolves (keeps : book.Keeps handles) (member : state ∈ book.heap)
    (gone : ∀ ack ∈ handles, ack.batchId ≠ state.id) : ∃ msg ∈ book.sent, msg.id = state.id := by
  obtain ⟨cell, found⟩ := List.mem_iff_getElem?.mp member
  refine ⟨resolution state, keeps.resolved state member ?_, rfl⟩
  rw [keeps.counted cell state found, Multiset.countP_eq_zero]
  rintro ack held rfl
  obtain ⟨own, present, batch⟩ := keeps.known ack held
  rw [found] at present
  cases present
  exact gone ack held batch.symm

theorem Keeps.issue (keeps : book.Keeps handles) {id : BatchId}
    (fresh : id ∉ book.heap.map (·.id)) (lastOffset : Int64) :
    (book.issue id lastOffset).1.Keeps ((book.issue id lastOffset).2 ::ₘ handles) := by
  have bounded : ∀ ack ∈ handles, ack.cell < book.heap.length := by
    intro ack member
    obtain ⟨state, found, _⟩ := keeps.known ack member
    exact (List.getElem?_eq_some_iff.mp found).1
  refine ⟨?_, ?_, ?_, ?_, ?_, keeps.once⟩
  · change ((book.heap ++ [AckState.new id lastOffset]).map (·.id)).Nodup
    rw [List.map_append]
    apply List.Nodup.append keeps.ids (List.nodup_singleton _)
    intro seen member last
    obtain rfl : seen = id := List.mem_singleton.mp last
    exact fresh member
  · intro ack member
    rcases Multiset.mem_cons.mp member with rfl | old
    · exact ⟨.new id lastOffset, List.getElem?_concat_length, rfl⟩
    · exact (keeps.known ack old).mono (issue_grows book id lastOffset)
  · intro cell state found
    rw [Multiset.countP_cons]
    rcases Lists.getElem?_concat_cases found with old | ⟨rfl, rfl⟩
    · have inside := (List.getElem?_eq_some_iff.mp old).1
      have apart : book.heap.length ≠ cell := by omega
      rw [keeps.counted cell state old]
      simp [AckBook.issue, apart]
    · have none : handles.countP (·.cell = book.heap.length) = 0 := by
        rw [Multiset.countP_eq_zero]
        intro ack member here
        have below := bounded ack member
        omega
      simp [AckBook.issue, AckState.new, none]
  · intro msg member
    obtain ⟨cell, state, found, gone, same⟩ := keeps.sent msg member
    have inside := (List.getElem?_eq_some_iff.mp found).1
    exact ⟨cell, state, (List.getElem?_append_left inside).trans found, gone, same⟩
  · intro state member gone
    rcases List.mem_append.mp member with old | new
    · exact keeps.resolved state old gone
    · obtain rfl := List.mem_singleton.mp new
      cases gone

theorem update_eq (found : book.heap[ack.cell]? = some state)
    (f : AckState → AckState × Option AckMsg) :
    book.update ack f = ⟨book.heap.set ack.cell (f state).1, book.sent ++ (f state).2.toList⟩ := by
  unfold update
  rw [found]

private theorem countP_cell_cons (ack : AckRef) (handles : Multiset AckRef) :
    (ack ::ₘ handles).countP (·.cell = ack.cell) = handles.countP (·.cell = ack.cell) + 1 :=
  Multiset.countP_cons_of_pos _ rfl

theorem Keeps.clone (keeps : book.Keeps handles) (member : ack ∈ handles) :
    (book.clone ack).Keeps (ack ::ₘ handles) := by
  obtain ⟨state, found, _⟩ := keeps.known ack member
  unfold AckBook.clone
  rw [update_eq found]
  refine keeps.set found ?_ ?_ ?_ ?_ (keeps.live member found) ?_
  · rfl
  · intro other present
    rcases Multiset.mem_cons.mp present with rfl | old
    · exact keeps.known other member
    · exact keeps.known other old
  · rw [countP_cell_cons, ← keeps.counted _ _ found]
    rfl
  · intro other apart
    exact Multiset.countP_cons_of_neg _ (Ne.symm apart)
  · rfl

theorem Keeps.fail (keeps : book.Keeps handles) (member : ack ∈ handles) :
    (book.fail ack).Keeps handles := by
  obtain ⟨state, found, _⟩ := keeps.known ack member
  have live := keeps.live member found
  unfold AckBook.fail
  rw [update_eq found]
  refine keeps.set found ?_ keeps.known ?_ (fun _ _ => rfl) live ?_
  · rfl
  · change state.refs = _
    exact keeps.counted _ _ found
  · rw [if_neg]
    change ¬ state.refs = 0
    omega

theorem Keeps.fail_poisoned (keeps : book.Keeps handles) (member : ack ∈ handles) :
    (book.fail ack).Poisoned ack := by
  obtain ⟨state, found, same⟩ := keeps.known ack member
  have inside := (List.getElem?_eq_some_iff.mp found).1
  unfold AckBook.fail
  rw [update_eq found]
  exact ⟨state.fail, List.getElem?_set_self inside, same, rfl⟩

theorem Keeps.drop (keeps : book.Keeps (ack ::ₘ handles)) : (book.drop ack).Keeps handles := by
  obtain ⟨state, found, _⟩ := keeps.known ack (Multiset.mem_cons_self _ _)
  have counted := keeps.counted _ _ found
  rw [countP_cell_cons] at counted
  unfold AckBook.drop
  rw [update_eq found]
  refine keeps.set found ?_ ?_ ?_ ?_ (by omega) ?_
  · rfl
  · exact fun other present => keeps.known other (Multiset.mem_cons_of_mem present)
  · change state.refs - 1 = _
    omega
  · intro other apart
    symm
    exact Multiset.countP_cons_of_neg _ (Ne.symm apart)
  · change (if state.refs = 1 then _ else _) = if state.refs - 1 = 0 then _ else _
    have last : state.refs = 1 ↔ state.refs - 1 = 0 := by omega
    simp only [last, AckState.drop, resolution]

theorem Keeps.deliver : ∀ {book : AckBook} {handles : Multiset AckRef},
    book.Keeps ((acks : Multiset AckRef) + handles) → (book.deliver acks).Keeps handles := by
  induction acks with
  | nil => exact fun keeps => by simpa [AckBook.deliver] using keeps
  | cons ack rest ih =>
    intro book handles keeps
    rw [← Multiset.cons_coe, Multiset.cons_add] at keeps
    exact ih keeps.drop

theorem Keeps.failAll : ∀ {book : AckBook} {handles : Multiset AckRef},
    book.Keeps handles → (∀ ack ∈ acks, ack ∈ handles) → (book.failAll acks).Keeps handles := by
  induction acks with
  | nil => exact fun keeps _ => keeps
  | cons ack rest ih =>
    intro book handles keeps inside
    rw [List.forall_mem_cons] at inside
    exact ih (keeps.fail inside.1) inside.2

theorem Keeps.failAll_poisoned : ∀ {book : AckBook} {handles : Multiset AckRef},
    book.Keeps handles → (∀ ack ∈ acks, ack ∈ handles) →
      ∀ ack ∈ acks, (book.failAll acks).Poisoned ack := by
  induction acks with
  | nil => exact fun _ _ ack member => by cases member
  | cons head rest ih =>
    intro book handles keeps inside ack member
    rw [List.forall_mem_cons] at inside
    have failed := keeps.fail inside.1
    rcases List.mem_cons.mp member with rfl | later
    · exact (keeps.fail_poisoned inside.1).mono (failAll_grows rest _)
    · exact ih failed inside.2 ack later

theorem Keeps.discard (keeps : book.Keeps ((acks : Multiset AckRef) + handles)) :
    (book.discard acks).Keeps handles :=
  (keeps.failAll fun _ member => Multiset.mem_add.mpr (Or.inl member)).deliver

theorem Keeps.discard_poisoned (keeps : book.Keeps ((acks : Multiset AckRef) + handles))
    (member : ack ∈ acks) : (book.discard acks).Poisoned ack :=
  (keeps.failAll_poisoned (fun _ inside => Multiset.mem_add.mpr (Or.inl inside)) ack member).mono
    (deliver_grows acks _)

end AckBook

end Spate.Sink
