import Mathlib.Data.List.AList

set_option autoImplicit false

/- Finite maps with distinct keys. Iteration visits the entries in an order the
caller may not rely on; every lemma is therefore about `lookup`. -/
namespace Spate

/-- A hash map: the distinctness of its keys is part of the value. -/
abbrev FastMap (κ ν : Type) : Type := AList (fun _ : κ => ν)

namespace FastMap

variable {κ ν : Type} [DecidableEq κ]

/-- The map that sends every key of `keys` to `value`. -/
def ofKeys (keys : List κ) (value : ν) : FastMap κ ν :=
  keys.foldr (fun key map => map.insert key value) ∅

theorem lookup_ofKeys (keys : List κ) (value : ν) (key : κ) :
    (ofKeys keys value).lookup key = if key ∈ keys then some value else none := by
  induction keys with
  | nil => rfl
  | cons first rest ih =>
    by_cases same : key = first
    · subst same
      simp [ofKeys]
    · have step : (ofKeys (first :: rest) value).lookup key =
          (ofKeys rest value).lookup key := AList.lookup_insert_ne same
      simp only [step, ih, List.mem_cons, same, false_or]

/-- Inserts `value` at every key of `keys`. -/
def insertAll (keys : List κ) (value : ν) (map : FastMap κ ν) : FastMap κ ν :=
  keys.foldl (fun map key => map.insert key value) map

theorem lookup_insertAll (keys : List κ) (value : ν) (map : FastMap κ ν) (key : κ) :
    (insertAll keys value map).lookup key =
      if key ∈ keys then some value else map.lookup key := by
  induction keys generalizing map with
  | nil => rfl
  | cons first rest ih =>
    have step : insertAll (first :: rest) value map =
        insertAll rest value (map.insert first value) := rfl
    rw [step, ih]
    by_cases same : key = first
    · subst same
      simp
    · simp [same, AList.lookup_insert_ne same]

/-- Removes every key of `keys`. -/
def eraseAll (keys : List κ) (map : FastMap κ ν) : FastMap κ ν :=
  keys.foldl (fun map key => map.erase key) map

theorem lookup_eraseAll (keys : List κ) (map : FastMap κ ν) (key : κ) :
    (eraseAll keys map).lookup key = if key ∈ keys then none else map.lookup key := by
  induction keys generalizing map with
  | nil => rfl
  | cons first rest ih =>
    have step : eraseAll (first :: rest) map = eraseAll rest (map.erase first) := rfl
    rw [step, ih]
    by_cases same : key = first
    · subst same
      simp
    · simp [same, AList.lookup_erase_ne same]

omit [DecidableEq κ] in
private theorem keys_mapEntries (entries : List (Sigma fun _ : κ => ν)) (f : κ → ν → ν) :
    (entries.map fun entry => (⟨entry.1, f entry.1 entry.2⟩ : Sigma fun _ : κ => ν)).keys =
      entries.keys := by
  simp [List.keys, Function.comp_def]

/-- Rewrites every value in place. -/
def mapValues (f : κ → ν → ν) (map : FastMap κ ν) : FastMap κ ν :=
  ⟨map.entries.map fun entry => ⟨entry.1, f entry.1 entry.2⟩, by
    have distinct := map.nodupKeys
    unfold List.NodupKeys at distinct ⊢
    rwa [keys_mapEntries]⟩

theorem lookup_mapValues (f : κ → ν → ν) (map : FastMap κ ν) (key : κ) :
    (mapValues f map).lookup key = (map.lookup key).map (f key) := by
  obtain ⟨entries, distinct⟩ := map
  change List.dlookup key (entries.map fun entry =>
      (⟨entry.1, f entry.1 entry.2⟩ : Sigma fun _ : κ => ν)) =
    Option.map (f key) (List.dlookup key entries : Option ν)
  clear distinct
  induction entries with
  | nil => rfl
  | cons entry rest ih =>
    obtain ⟨first, value⟩ := entry
    by_cases same : key = first
    · subst same
      simp
    · simp only [List.map_cons]
      rw [List.dlookup_cons_ne _ _ same, List.dlookup_cons_ne _ _ same, ih]

theorem lookup_insert_cases {map : FastMap κ ν} {key other : κ} {value found : ν}
    (present : (map.insert key value).lookup other = some found) :
    (other = key ∧ found = value) ∨ (other ≠ key ∧ map.lookup other = some found) := by
  by_cases same : other = key
  · subst same
    rw [AList.lookup_insert] at present
    exact Or.inl ⟨rfl, (Option.some.inj present).symm⟩
  · rw [AList.lookup_insert_ne same] at present
    exact Or.inr ⟨same, present⟩

theorem lookup_eq_some_iff_mem (map : FastMap κ ν) (key : κ) (value : ν) :
    map.lookup key = some value ↔ (⟨key, value⟩ : Sigma fun _ : κ => ν) ∈ map.entries := by
  rw [← Option.mem_def]
  exact List.mem_dlookup_iff map.nodupKeys

end FastMap

end Spate
