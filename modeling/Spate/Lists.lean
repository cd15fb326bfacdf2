import Mathlib.Algebra.BigOperators.Group.Multiset.Basic
import Mathlib.Data.List.Perm.Basic

set_option autoImplicit false

/- Lists in which one element is replaced: what a projection of the list gains
and loses. -/
namespace Spate.Lists

variable {α β : Type}

variable {xs : List α} {i : Nat} {old new x : α}

theorem set_perm (found : xs[i]? = some old) (new : α) :
    (old :: xs.set i new).Perm (new :: xs) := by
  obtain ⟨inside, same⟩ := List.getElem?_eq_some_iff.mp found
  have left := (List.set_perm_cons_eraseIdx inside new).cons old
  have right := (List.getElem_cons_eraseIdx_perm inside).cons new
  rw [same] at right
  exact left.trans ((List.Perm.swap new old _).trans right)

/-- Replacing an element changes what `f` selects by that element alone. -/
theorem filterMap_set_perm (found : xs[i]? = some old) (new : α) (f : α → Option β) :
    ((f old).toList ++ (xs.set i new).filterMap f).Perm
      ((f new).toList ++ xs.filterMap f) := by
  have shuffled := (set_perm found new).filterMap f
  have split (x : α) (rest : List α) :
      (x :: rest).filterMap f = (f x).toList ++ rest.filterMap f := by
    cases selected : f x <;> simp [selected]
  rwa [split, split] at shuffled

theorem map_set_same (found : xs[i]? = some old) (f : α → β) (same : f new = f old) :
    (xs.set i new).map f = xs.map f := by
  obtain ⟨inside, rfl⟩ := List.getElem?_eq_some_iff.mp found
  have image : f xs[i] = (xs.map f).get ⟨i, by simpa using inside⟩ := by simp
  rw [List.map_set, same, image, List.get_eq_getElem, List.set_getElem_self]

/-- Replacing an element changes a sum by the difference of the two. -/
theorem sum_map_set {M : Type} [AddCommMonoid M] (found : xs[i]? = some old) (new : α) (f : α → M) :
    ((xs.set i new).map f).sum + f old = (xs.map f).sum + f new := by
  have shuffled := ((set_perm found new).map f).sum_eq
  simp only [List.map_cons, List.sum_cons] at shuffled
  rw [add_comm, shuffled, add_comm]

theorem map_modify_same {g : α → α} (f : α → β) (same : ∀ x, f (g x) = f x) :
    (xs.modify i g).map f = xs.map f := by
  apply List.ext_getElem?
  intro j
  rw [List.getElem?_map, List.getElem?_map, List.getElem?_modify, Option.map_eq_map,
    Option.map_map]
  apply congrArg (fun image => Option.map image xs[j]?)
  funext x
  by_cases here : i = j <;> simp [here, same]

theorem mem_sum_map {f : α → Multiset β} {y : β} : y ∈ (xs.map f).sum ↔ ∃ x ∈ xs, y ∈ f x := by
  induction xs with
  | nil => simp
  | cons x xs ih => simp [ih]

theorem modify_eq_set (found : xs[i]? = some x) (g : α → α) : xs.modify i g = xs.set i (g x) := by
  rw [List.modify_eq_set_getElem?, found]
  rfl

theorem getElem?_set_cases {j : Nat} (present : (xs.set i new)[j]? = some x) :
    (j = i ∧ x = new) ∨ (j ≠ i ∧ xs[j]? = some x) := by
  by_cases here : j = i
  · subst here
    have inside : j < xs.length := by
      have := (List.getElem?_eq_some_iff.mp present).1
      simpa using this
    rw [List.getElem?_set_self inside] at present
    exact Or.inl ⟨rfl, (Option.some.inj present).symm⟩
  · rw [List.getElem?_set_ne (Ne.symm here)] at present
    exact Or.inr ⟨here, present⟩

theorem getElem?_concat_cases {j : Nat} (present : (xs ++ [new])[j]? = some x) :
    xs[j]? = some x ∨ (j = xs.length ∧ x = new) := by
  rcases Nat.lt_trichotomy j xs.length with inside | here | beyond
  · rw [List.getElem?_append_left inside] at present
    exact Or.inl present
  · rw [here, List.getElem?_concat_length] at present
    exact Or.inr ⟨here, (Option.some.inj present).symm⟩
  · have := (List.getElem?_eq_some_iff.mp present).1
    simp only [List.length_append, List.length_singleton] at this
    omega

/-- The longest run of elements that satisfy `q` is where the first fails. -/
theorem takeWhile_eq_take {q : α → Bool} {n : Nat}
    (before : ∀ k x, k < n → xs[k]? = some x → q x = true)
    (stop : ∀ x, xs[n]? = some x → q x = false) : xs.takeWhile q = xs.take n := by
  induction xs generalizing n with
  | nil => simp
  | cons x rest ih =>
    cases n with
    | zero =>
      have fails := stop x rfl
      simp [fails]
    | succ n =>
      have holds := before 0 x (Nat.succ_pos n) rfl
      rw [List.takeWhile_cons, holds, List.take_succ_cons, if_pos rfl]
      rw [ih (fun k y below found => before (k + 1) y (by omega) found) stop]

theorem pairwise_of_forall₂ {R : α → β → Prop} {S : β → β → Prop} {T : α → α → Prop} {ys : List β}
    (related : List.Forall₂ R xs ys) (ordered : ys.Pairwise S)
    (transfer : ∀ x x' y y', R x y → R x' y' → S y y' → T x x') : xs.Pairwise T := by
  have sameLength := related.length_eq
  rw [List.pairwise_iff_getElem] at ordered ⊢
  intro i j insideLeft insideRight before
  exact transfer _ _ _ _ (related.get insideLeft (by omega)) (related.get insideRight (by omega))
    (ordered i j (by omega) (by omega) before)

theorem forall₂_getLast? {R : α → β → Prop} {ys : List β} (related : List.Forall₂ R xs ys) {y : β}
    (last : ys.getLast? = some y) : ∃ x, xs.getLast? = some x ∧ R x y := by
  have sameLength := related.length_eq
  rw [List.getLast?_eq_getElem?] at last ⊢
  obtain ⟨inside, rfl⟩ := List.getElem?_eq_some_iff.mp last
  have insideLeft : xs.length - 1 < xs.length := by omega
  refine ⟨xs[xs.length - 1], List.getElem?_eq_getElem insideLeft, ?_⟩
  have both := related.get insideLeft (by omega)
  simpa only [List.get_eq_getElem, sameLength] using both

section Keyed

variable {κ : Type} [DecidableEq κ] {key : α → κ}

/-- A list whose elements have distinct keys is one of them and those with other
keys. -/
theorem perm_cons_filter_key {xs : List α} (distinct : (xs.map key).Nodup) {x : α}
    (member : x ∈ xs) : xs.Perm (x :: xs.filter fun y => key y ≠ key x) := by
  induction xs with
  | nil => cases member
  | cons head rest ih =>
    rw [List.map_cons, List.nodup_cons] at distinct
    obtain ⟨apart, tail⟩ := distinct
    rcases List.mem_cons.mp member with rfl | inRest
    · have kept : rest.filter (fun y => key y ≠ key x) = rest := by
        apply List.filter_eq_self.mpr
        intro y present
        have differs : key y ≠ key x := by
          intro same
          exact apart (same ▸ List.mem_map_of_mem present)
        simpa using differs
      rw [List.filter_cons_of_neg (by simp), kept]
    · have differs : key head ≠ key x := by
        intro same
        exact apart (same ▸ List.mem_map_of_mem inRest)
      rw [List.filter_cons_of_pos (by simpa using differs)]
      exact ((ih tail inRest).cons head).trans (List.Perm.swap x head _)

theorem map_update_perm {xs : List α} (distinct : (xs.map key).Nodup) {x : α}
    (member : x ∈ xs) (update : α → α) :
    (xs.map fun y => if key y = key x then update y else y).Perm
      (update x :: xs.filter fun y => key y ≠ key x) := by
  have shuffled := (perm_cons_filter_key distinct member).map
    fun y => if key y = key x then update y else y
  have others : (xs.filter fun y => key y ≠ key x).map
      (fun y => if key y = key x then update y else y) = xs.filter fun y => key y ≠ key x := by
    have fixed : ∀ y ∈ xs.filter (fun y => key y ≠ key x),
        (if key y = key x then update y else y) = id y := by
      intro y present
      have differs : key y ≠ key x := by simpa using (List.mem_filter.mp present).2
      exact if_neg differs
    rw [List.map_congr_left fixed, List.map_id]
  rw [List.map_cons, others, if_pos rfl] at shuffled
  exact shuffled

end Keyed

theorem le_max?_of_mem {xs : List Nat} {x : Nat} (member : x ∈ xs) :
    ∃ mark, xs.max? = some mark ∧ x ≤ mark := by
  cases marked : xs.max? with
  | none =>
    rw [List.max?_eq_none_iff] at marked
    subst marked
    cases member
  | some mark => exact ⟨mark, rfl, (List.max?_eq_some_iff.mp marked).2 x member⟩

/-- An element of a list with one more at its end is that one, or was there before. -/
theorem split_last {before after : List α} {last : α} (same : xs ++ [last] = before ++ x :: after) :
    (last = x ∧ xs = before ∧ after = []) ∨
      ∃ rest, after = rest ++ [last] ∧ xs = before ++ x :: rest := by
  rcases List.eq_nil_or_concat after with rfl | ⟨rest, final, rfl⟩
  · obtain ⟨rfl, one⟩ := List.append_inj' same rfl
    exact .inl ⟨List.singleton_inj.mp one, rfl, rfl⟩
  · rw [List.concat_eq_append, ← List.cons_append, ← List.append_assoc] at same
    obtain ⟨rfl, one⟩ := List.append_inj' same rfl
    exact .inr ⟨rest, by rw [List.singleton_inj.mp one, List.concat_eq_append], rfl⟩

end Spate.Lists
