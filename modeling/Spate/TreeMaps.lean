import Mathlib.Data.String.Basic

set_option autoImplicit false

/- Ordered maps: what a lookup finds after an update, and what an update does to the list
of entries. -/
namespace Spate.TreeMaps

open Std (TreeMap TransCmp LawfulEqCmp)

variable {α β : Type} {cmp : α → α → Ordering} [TransCmp cmp] [LawfulEqCmp cmp]
  {m m' : TreeMap α β cmp} {k other : α} {v w : β} {f : β → β}

/-! ## Lookups -/

theorem insert_other (different : other ≠ k) : (m.insert k v)[other]? = m[other]? := by
  rw [TreeMap.getElem?_insert, if_neg]
  intro equal
  exact different (LawfulEqCmp.eq_of_compare equal).symm

theorem lookup_insert (present : (m.insert k v)[other]? = some w) :
    (other = k ∧ w = v) ∨ (other ≠ k ∧ m[other]? = some w) := by
  by_cases same : other = k
  · subst same
    rw [TreeMap.getElem?_insert_self] at present
    exact .inl ⟨rfl, (Option.some.inj present).symm⟩
  · rw [insert_other same] at present
    exact .inr ⟨same, present⟩

theorem erase_other (different : other ≠ k) : (m.erase k)[other]? = m[other]? := by
  rw [TreeMap.getElem?_erase, if_neg]
  intro equal
  exact different (LawfulEqCmp.eq_of_compare equal).symm

theorem lookup_erase (present : (m.erase k)[other]? = some w) :
    other ≠ k ∧ m[other]? = some w := by
  by_cases same : other = k
  · subst same
    simp at present
  · rw [erase_other same] at present
    exact ⟨same, present⟩

theorem modify_other (different : other ≠ k) : (m.modify k f)[other]? = m[other]? := by
  rw [TreeMap.getElem?_modify, if_neg]
  intro equal
  exact different (LawfulEqCmp.eq_of_compare equal).symm

omit [LawfulEqCmp cmp] in
theorem modify_there (found : m[k]? = some v) (same : other = k) :
    (m.modify k f)[other]? = some (f v) := by
  rw [same, TreeMap.getElem?_modify_self, found]
  rfl

theorem lookup_modify (found : m[k]? = some v) (present : (m.modify k f)[other]? = some w) :
    (other = k ∧ w = f v) ∨ (other ≠ k ∧ m[other]? = some w) := by
  by_cases same : other = k
  · rw [modify_there found same] at present
    exact .inl ⟨same, (Option.some.inj present).symm⟩
  · rw [modify_other same] at present
    exact .inr ⟨same, present⟩

theorem getElem?_eraseAll [DecidableEq α] (gone : List α) (k : α) : ∀ m : TreeMap α β cmp,
    (gone.foldl (fun m k => m.erase k) m)[k]? = if k ∈ gone then none else m[k]? := by
  induction gone with
  | nil => simp
  | cons first rest ih =>
    intro m
    rw [List.foldl_cons, ih]
    by_cases later : k ∈ rest
    · simp [later]
    · by_cases same : k = first
      · simp [same]
      · rw [erase_other same]
        simp [later, same]

/-! ## Entries -/

theorem toList_congr (same : ∀ k : α, m[k]? = m'[k]?) : m.toList = m'.toList :=
  TreeMap.equiv_iff_toList_eq.mp (TreeMap.Equiv.of_forall_constGet?_eq same)

theorem toList_insert_new (absent : m[k]? = none) :
    (m.insert k v).toList.Perm ((k, v) :: m.toList) := by
  classical
  refine (TreeMap.toList_insert_perm).trans (List.Perm.cons _ ?_)
  rw [List.filter_eq_self.mpr]
  rintro ⟨other, value⟩ member
  have found := TreeMap.mem_toList_iff_getElem?_eq_some.mp member
  have different : k ≠ other := by
    rintro rfl
    rw [absent] at found
    cases found
  simpa using different

theorem toList_erase (found : m[k]? = some v) :
    m.toList.Perm ((k, v) :: (m.erase k).toList) := by
  have back : m.toList = ((m.erase k).insert k v).toList := by
    refine toList_congr fun other => ?_
    by_cases same : other = k
    · rw [same, TreeMap.getElem?_insert_self, found]
    · rw [insert_other same, erase_other same]
  rw [back]
  exact toList_insert_new (by simp)

theorem toList_modify (found : m[k]? = some v) :
    (m.modify k f).toList.Perm ((k, f v) :: (m.erase k).toList) := by
  have rest : ((m.modify k f).erase k).toList = (m.erase k).toList := by
    refine toList_congr fun other => ?_
    by_cases same : other = k
    · simp [same]
    · rw [erase_other same, erase_other same, modify_other same]
  rw [← rest]
  exact toList_erase (modify_there found rfl)

theorem toList_modify_absent (absent : m[k]? = none) : (m.modify k f).toList = m.toList := by
  refine toList_congr fun other => ?_
  by_cases same : other = k
  · rw [same, TreeMap.getElem?_modify_self, absent]
    rfl
  · exact modify_other same

end Spate.TreeMaps
