import Mathlib.Data.Nat.Periodic
import Mathlib.Data.List.Basic

set_option autoImplicit false

/- Shard placement (`router.rs`) and the startup check of the cluster's weights
(`distributed.rs`). Sums of weights are `u64`s, which wrap as they do in a release build.
The key's hash is given: only its use is modelled. -/
namespace Spate.ClickHouse

/-! ## The router -/

/-- `ends` are the ends of the shards' intervals of remainders. -/
structure DistributedRouter where
  ends : List UInt64
  uniform : Bool

namespace DistributedRouter

def endsFrom (acc : UInt64) : List UInt32 → List UInt64
  | [] => []
  | w :: weights => (acc + w.toUInt64) :: endsFrom (acc + w.toUInt64) weights

def new (weights : List UInt32) : Except String DistributedRouter :=
  if weights = [] then .error "DistributedRouter requires at least one shard weight"
  else
    match weights.findIdx? (· = 0) with
    | some i =>
      .error (s!"DistributedRouter shard {i} has weight 0; ClickHouse weights are " ++
        "interval widths and must be at least 1")
    | none => .ok ⟨endsFrom 0 weights, weights.all (· = 1)⟩

/-- The shard of a hash; `none` is a panic. -/
def shardForHash (router : DistributedRouter) (hash : UInt64) : Option Nat :=
  match router.ends.getLast? with
  | none => none
  | some total =>
    if router.uniform then some (hash % total).toNat
    else router.ends.findIdx? (hash % total < ·)

end DistributedRouter

/-! ## The slot table of a `Distributed` table -/

/-- Shard `first` and those after it, each as often as it weighs. -/
def slotsFrom (first : Nat) : List UInt32 → List Nat
  | [] => []
  | w :: weights => List.replicate w.toNat first ++ slotsFrom (first + 1) weights

def slotTable (weights : List UInt32) : List Nat := slotsFrom 0 weights

def slotShard (weights : List UInt32) (hash : UInt64) : Option Nat :=
  (slotTable weights)[hash.toNat % (slotTable weights).length]?

def totalWeight (weights : List UInt32) : Nat := (weights.map UInt32.toNat).sum

/-! ## Placement -/

section Placement

open DistributedRouter

variable {weights : List UInt32}

variable {router : DistributedRouter}

theorem totalWeight_cons (w : UInt32) (weights : List UInt32) :
    totalWeight (w :: weights) = w.toNat + totalWeight weights := by
  simp [totalWeight]

theorem slotsFrom_length (weights : List UInt32) :
    ∀ first, (slotsFrom first weights).length = totalWeight weights := by
  induction weights with
  | nil => exact fun _ => rfl
  | cons w weights ih =>
    intro first
    rw [slotsFrom, List.length_append, List.length_replicate, ih, totalWeight_cons]

theorem add_toUInt64_toNat {acc : UInt64} {w : UInt32} (room : acc.toNat + w.toNat < 2 ^ 64) :
    (acc + w.toUInt64).toNat = acc.toNat + w.toNat := by
  rw [UInt64.toNat_add, UInt32.toNat_toUInt64, Nat.mod_eq_of_lt room]

/-- The first end above a remainder is that of the shard in the remainder's slot. -/
theorem findIdx_endsFrom (weights : List UInt32) : ∀ (acc r : UInt64) (first : Nat),
    acc.toNat + totalWeight weights < 2 ^ 64 → acc ≤ r → r.toNat < acc.toNat + totalWeight weights →
    ((endsFrom acc weights).findIdx? (r < ·)).map (first + ·) =
      (slotsFrom first weights)[r.toNat - acc.toNat]? := by
  induction weights with
  | nil =>
    intro acc r first _ low high
    have := UInt64.le_iff_toNat_le.mp low
    simp only [totalWeight, List.map_nil, List.sum_nil] at high
    omega
  | cons w weights ih =>
    intro acc r first room low high
    rw [totalWeight_cons] at room high
    have below := UInt64.le_iff_toNat_le.mp low
    have sum : (acc + w.toUInt64).toNat = acc.toNat + w.toNat := add_toUInt64_toNat (by omega)
    rw [endsFrom, List.findIdx?_cons, slotsFrom]
    by_cases inside : r < acc + w.toUInt64
    · have here := UInt64.lt_iff_toNat_lt.mp inside
      rw [if_pos (by simpa using inside), List.getElem?_append_left (by simp; omega),
        List.getElem?_replicate_of_lt (by omega)]
      rfl
    · have beyond := UInt64.le_iff_toNat_le.mp (UInt64.not_lt.mp inside)
      rw [if_neg (by simpa using inside), List.getElem?_append_right (by simp; omega),
        List.length_replicate]
      have rest := ih (acc + w.toUInt64) r (first + 1) (by omega) (UInt64.not_lt.mp inside)
        (by omega)
      rw [sum, ← Nat.sub_sub] at rest
      rw [← rest, Option.map_map]
      congr 1
      funext i
      simp only [Function.comp_apply]
      omega

theorem endsFrom_getLast (weights : List UInt32) : ∀ (acc : UInt64) (w : UInt32),
    (endsFrom acc (w :: weights)).getLast? =
      some (acc + UInt64.ofNat (totalWeight (w :: weights))) := by
  induction weights with
  | nil =>
    intro acc w
    simp [endsFrom, totalWeight]
  | cons next weights ih =>
    intro acc w
    rw [endsFrom, endsFrom, List.getLast?_cons_cons, ← endsFrom, ih, totalWeight_cons w,
      UInt64.ofNat_add, ← UInt64.add_assoc, UInt64.ofNat_uInt32ToNat]

theorem slotsFrom_ones (weights : List UInt32) (ones : ∀ w ∈ weights, w = 1) :
    ∀ first, slotsFrom first weights = List.range' first weights.length := by
  induction weights with
  | nil => exact fun _ => rfl
  | cons w weights ih =>
    intro first
    obtain ⟨rfl, rest⟩ := List.forall_mem_cons.mp ones
    rw [slotsFrom, ih rest, List.length_cons, List.range'_succ]
    rfl

theorem slotsFrom_count (weights : List UInt32) : ∀ first i,
    (slotsFrom first weights).count (first + i) = (weights[i]?.map UInt32.toNat).getD 0 := by
  have later (weights : List UInt32) : ∀ first i, i < first →
      (slotsFrom first weights).count i = 0 := by
    induction weights with
    | nil => exact fun _ _ _ => rfl
    | cons w weights ih =>
      intro first i before
      rw [slotsFrom, List.count_append, ih (first + 1) i (by omega), List.count_replicate,
        if_neg (by simp; omega)]
  induction weights with
  | nil => exact fun _ _ => rfl
  | cons w weights ih =>
    intro first i
    rw [slotsFrom, List.count_append, List.count_replicate]
    cases i with
    | zero => simp [later]
    | succ i =>
      have rest := ih (first + 1) i
      rw [show first + 1 + i = first + (i + 1) by omega] at rest
      rw [rest, if_neg (by simp)]
      simp

theorem count_getElem {α : Type} [DecidableEq α] (xs : List α) (x : α) :
    Nat.count (fun k => xs[k]? = some x) xs.length = xs.count x := by
  induction xs using List.reverseRecOn with
  | nil => rfl
  | append_singleton xs last ih =>
    have before : Nat.count (fun k => (xs ++ [last])[k]? = some x) xs.length =
        Nat.count (fun k => xs[k]? = some x) xs.length := by
      rw [Nat.count_eq_card_filter_range, Nat.count_eq_card_filter_range]
      congr 1
      apply Finset.filter_congr
      intro k inside
      rw [List.getElem?_append_left (Finset.mem_range.mp inside)]
    rw [List.length_append, List.length_singleton, Nat.count_succ, before, ih,
      List.getElem?_concat_length, List.count_append]
    simp [List.count_singleton]

theorem new_ok : new weights = .ok router ↔
    weights ≠ [] ∧ (∀ w ∈ weights, w ≠ 0) ∧
      router = ⟨endsFrom 0 weights, weights.all (· = 1)⟩ := by
  unfold new
  constructor
  · intro built
    split at built
    · cases built
    · rename_i some
      split at built
      · cases built
      · rename_i positive
        refine ⟨some, ?_, (Except.ok.inj built).symm⟩
        simpa using positive
  · rintro ⟨some, positive, rfl⟩
    have none : weights.findIdx? (· = 0) = none := by simpa using positive
    rw [if_neg some, none]

theorem totalWeight_pos (some : weights ≠ []) (positive : ∀ w ∈ weights, w ≠ 0) :
    0 < totalWeight weights := by
  match weights with
  | w :: weights =>
    have first : w.toNat ≠ 0 := fun zero =>
      positive w List.mem_cons_self (UInt32.toNat_inj.mp zero)
    rw [totalWeight_cons]
    omega

/-- The router's shard is the one in the hash's slot, and there is one. -/
theorem shardForHash_eq (built : new weights = .ok router) (room : totalWeight weights < 2 ^ 64)
    (hash : UInt64) :
    router.shardForHash hash = slotShard weights hash ∧ (slotShard weights hash).isSome := by
  obtain ⟨some, positive, rfl⟩ := new_ok.mp built
  have total := totalWeight_pos some positive
  have inside := Nat.mod_lt hash.toNat total
  have length : (slotTable weights).length = totalWeight weights := slotsFrom_length weights 0
  refine ⟨?_, by simpa [slotShard, length] using inside⟩
  have last : (endsFrom 0 weights).getLast? = .some (UInt64.ofNat (totalWeight weights)) := by
    match weights with
    | w :: weights => rw [endsFrom_getLast, UInt64.zero_add]
  have remainder : (hash % UInt64.ofNat (totalWeight weights)).toNat =
      hash.toNat % totalWeight weights := by
    rw [UInt64.toNat_mod, UInt64.toNat_ofNat', Nat.mod_eq_of_lt room]
  unfold shardForHash slotShard
  rw [last, length]
  dsimp only
  split
  · rename_i uniform
    have ones : ∀ w ∈ weights, w = 1 := by simpa using uniform
    have shards : totalWeight weights = weights.length := by
      rw [← slotsFrom_length weights 0, slotsFrom_ones weights ones, List.length_range']
    rw [shards] at inside remainder
    rw [slotTable, slotsFrom_ones weights ones, shards, remainder, List.getElem?_range' inside]
    simp
  · have found := findIdx_endsFrom weights 0 (hash % UInt64.ofNat (totalWeight weights)) 0
      (by simpa using room) (UInt64.le_iff_toNat_le.mpr (by simp))
      (by simpa [remainder] using inside)
    rw [remainder, UInt64.toNat_zero, Nat.sub_zero] at found
    rw [slotTable, ← found]
    simp

theorem shardForHash_card (built : new weights = .ok router) (room : totalWeight weights < 2 ^ 64)
    (start i : Nat) (fits : start + totalWeight weights ≤ 2 ^ 64) :
    ((Finset.Ico start (start + totalWeight weights)).filter fun hash =>
      router.shardForHash (UInt64.ofNat hash) = some i).card =
        (weights[i]?.map UInt32.toNat).getD 0 := by
  have length : (slotTable weights).length = totalWeight weights := slotsFrom_length weights 0
  have same : ((Finset.Ico start (start + totalWeight weights)).filter fun hash =>
      router.shardForHash (UInt64.ofNat hash) = some i) =
        (Finset.Ico start (start + totalWeight weights)).filter fun hash =>
          (slotTable weights)[hash % totalWeight weights]? = some i := by
    apply Finset.filter_congr
    intro hash member
    have small : hash < 2 ^ 64 := (Finset.mem_Ico.mp member).2.trans_le fits
    rw [(shardForHash_eq built room _).1, slotShard, UInt64.toNat_ofNat',
      Nat.mod_eq_of_lt small, length]
  have periodic : Function.Periodic
      (fun hash => (slotTable weights)[hash % totalWeight weights]? = some i)
      (totalWeight weights) := by
    intro hash
    simp
  rw [same, Nat.filter_Ico_card_eq_of_periodic _ _ _ periodic]
  have counted := count_getElem (slotTable weights) i
  rw [length] at counted
  have each : Nat.count (fun hash => (slotTable weights)[hash % totalWeight weights]? = some i)
      (totalWeight weights) =
        Nat.count (fun hash => (slotTable weights)[hash]? = some i) (totalWeight weights) := by
    rw [Nat.count_eq_card_filter_range, Nat.count_eq_card_filter_range]
    congr 1
    apply Finset.filter_congr
    intro hash inside
    rw [Nat.mod_eq_of_lt (Finset.mem_range.mp inside)]
  have slots := slotsFrom_count weights 0 i
  rw [Nat.zero_add] at slots
  rw [each, counted, slotTable, slots]

end Placement

/-! ## The startup check -/

structure ClusterReplicaRow where
  shardNum : UInt32
  shardWeight : UInt32

/-- What the check was configured with: the cluster's name and the weights of the sink's
shards. -/
structure DistributedCheck where
  cluster : String
  url : String
  weights : List UInt32

namespace DistributedCheck

def mismatch (detail : String) : String := s!"sink.clickhouse.distributed_check: {detail}"

/-- Collapses `count` replica rows to weights by shard. -/
def collapse (check : DistributedCheck) (count : Nat) :
    List ClusterReplicaRow → List UInt32 → Except String (List UInt32)
  | [], shardWeights => .ok shardWeights
  | row :: rows, shardWeights =>
    let idx := row.shardNum.toNat
    if idx = 0 ∨ count < idx then
      .error (mismatch (s!"cluster `{check.cluster}` reports an unexpected shard_num {idx} " ++
        "— cannot map shards positionally"))
    else if idx = shardWeights.length + 1 then
      collapse check count rows (shardWeights ++ [row.shardWeight])
    else if idx ≤ shardWeights.length then
      if shardWeights[idx - 1]? ≠ some row.shardWeight then
        .error (mismatch
          s!"cluster `{check.cluster}` shard_num {idx} reports inconsistent weights")
      else collapse check count rows shardWeights
    else
      .error (mismatch (s!"cluster `{check.cluster}` shard numbering is not consecutive at " ++
        s!"shard_num {idx}"))

def compareFrom (i : Nat) : List UInt32 → List UInt32 → Except String Unit
  | configured :: weights, live :: shardWeights =>
    if configured ≠ live then
      .error (mismatch (s!"config shard {i} has weight {configured} but cluster shard_num " ++
        s!"{i + 1} has weight {live}"))
    else compareFrom (i + 1) weights shardWeights
  | _, _ => .ok ()

/-- Checks a replica listing. `table` is the answer of the check of the table's DDL, which
is made after it. -/
def verify (check : DistributedCheck) (replicas : List ClusterReplicaRow)
    (table : Except String Unit) : Except String Unit :=
  if replicas = [] then
    .error (mismatch s!"cluster `{check.cluster}` not found in system.clusters on {check.url}")
  else
    match collapse check replicas.length replicas [] with
    | .error e => .error e
    | .ok shardWeights =>
      if shardWeights.length ≠ check.weights.length then
        .error (mismatch (s!"the sink config has {check.weights.length} shard(s) but cluster " ++
          s!"`{check.cluster}` has {shardWeights.length}"))
      else
        match compareFrom 0 check.weights shardWeights with
        | .error e => .error e
        | .ok () => table

theorem getElem?_of_prefix {before after : List UInt32} {i : Nat} {w : UInt32}
    (grown : before <+: after) (found : before[i]? = some w) : after[i]? = some w := by
  obtain ⟨more, rfl⟩ := grown
  rw [List.getElem?_append_left (List.getElem?_eq_some_iff.mp found).1, found]

/-- Collapsing only adds weights, and every row agrees with its shard's. -/
theorem collapse_ok {check : DistributedCheck} {count : Nat} (rows : List ClusterReplicaRow) :
    ∀ {before after : List UInt32}, collapse check count rows before = .ok after →
      before <+: after ∧ (∀ row ∈ rows, 0 < row.shardNum.toNat ∧
        after[row.shardNum.toNat - 1]? = some row.shardWeight) ∧
      ∀ i, before.length ≤ i → i < after.length →
        ∃ row ∈ rows, row.shardNum.toNat = i + 1 := by
  induction rows with
  | nil =>
    intro before after done
    obtain rfl := Except.ok.inj done
    exact ⟨List.prefix_refl _, List.forall_mem_nil _, fun i low high => by omega⟩
  | cons row rows ih =>
    intro before after done
    unfold collapse at done
    dsimp only at done
    split at done
    · cases done
    · rename_i numbered
      split at done
      · rename_i new
        obtain ⟨grown, agree, named⟩ := ih done
        have here : after[row.shardNum.toNat - 1]? = some row.shardWeight := by
          rw [new, Nat.add_sub_cancel]
          exact getElem?_of_prefix grown List.getElem?_concat_length
        refine ⟨(List.prefix_append _ _).trans grown,
          List.forall_mem_cons.mpr ⟨⟨by omega, here⟩, agree⟩, fun i low high => ?_⟩
        by_cases first : i = before.length
        · exact ⟨row, List.mem_cons_self, by omega⟩
        · obtain ⟨other, member, num⟩ := named i (by simp; omega) high
          exact ⟨other, List.mem_cons_of_mem _ member, num⟩
      · split at done
        · split at done
          · cases done
          · rename_i seen same
            obtain ⟨grown, agree, named⟩ := ih done
            have here : after[row.shardNum.toNat - 1]? = some row.shardWeight :=
              getElem?_of_prefix grown (not_not.mp same)
            refine ⟨grown, List.forall_mem_cons.mpr ⟨⟨by omega, here⟩, agree⟩,
              fun i low high => ?_⟩
            obtain ⟨other, member, num⟩ := named i low high
            exact ⟨other, List.mem_cons_of_mem _ member, num⟩
        · cases done

theorem compareFrom_ok (weights : List UInt32) : ∀ {shardWeights : List UInt32} {i : Nat},
    compareFrom i weights shardWeights = .ok () → shardWeights.length = weights.length →
    shardWeights = weights := by
  induction weights with
  | nil =>
    intro shardWeights i _ length
    exact List.length_eq_zero_iff.mp length
  | cons configured weights ih =>
    intro shardWeights i done length
    match shardWeights with
    | live :: shardWeights =>
      unfold compareFrom at done
      split at done
      · cases done
      · rename_i same
        rw [ih done (by simpa using length), not_not.mp same]

end DistributedCheck

/-- For weights whose sum is below `2 ^ 64` there is a router. It places every hash where the
slot table does, of consecutive hashes gives every shard its weight, and an accepted listing
has the router's shards with the router's weights in every row. -/
theorem router_places_as_distributed {weights : List UInt32} (some : weights ≠ [])
    (positive : ∀ w ∈ weights, w ≠ 0) (room : totalWeight weights < 2 ^ 64) :
    ∃ router, DistributedRouter.new weights = .ok router ∧
    (∀ hash, router.shardForHash hash = slotShard weights hash ∧
      (slotShard weights hash).isSome) ∧
    (∀ start i, start + totalWeight weights ≤ 2 ^ 64 →
      ((Finset.Ico start (start + totalWeight weights)).filter fun hash =>
        router.shardForHash (UInt64.ofNat hash) = .some i).card =
          (weights[i]?.map UInt32.toNat).getD 0) ∧
    ∀ (check : DistributedCheck) replicas table, check.weights = weights →
      check.verify replicas table = .ok () →
      (∀ i, i < weights.length → ∃ row ∈ replicas, row.shardNum.toNat = i + 1) ∧
      ∀ row ∈ replicas, 0 < row.shardNum.toNat ∧
        weights[row.shardNum.toNat - 1]? = .some row.shardWeight := by
  have built := new_ok.mpr ⟨some, positive, rfl⟩
  refine ⟨_, built, shardForHash_eq built room,
    fun start i => shardForHash_card built room start i, ?_⟩
  intro check replicas table same accepted
  unfold DistributedCheck.verify at accepted
  split at accepted
  · cases accepted
  · split at accepted
    · cases accepted
    · rename_i shardWeights collapsed
      split at accepted
      · cases accepted
      · rename_i length
        split at accepted
        · cases accepted
        · rename_i compared
          have live := DistributedCheck.compareFrom_ok check.weights compared (not_not.mp length)
          rw [live, same] at collapsed
          obtain ⟨-, agree, named⟩ := DistributedCheck.collapse_ok replicas collapsed
          exact ⟨fun i inside => named i (Nat.zero_le _) inside, agree⟩

/-- Weights 9 and 10 on two shards, the second with two replicas. -/
theorem router_places_as_distributed_nine_ten :
    ∃ router, DistributedRouter.new [9, 10] = .ok router ∧
      router.shardForHash 28 = slotShard [9, 10] 28 ∧ slotShard [9, 10] 28 = some 1 ∧
      DistributedCheck.verify ⟨"main", "http://a", [9, 10]⟩ [⟨1, 9⟩, ⟨2, 10⟩, ⟨2, 10⟩] (.ok ()) =
        .ok () := by
  obtain ⟨router, built, placed, -⟩ :=
    router_places_as_distributed (by simp : [(9 : UInt32), 10] ≠ []) (by simp) (by decide)
  exact ⟨router, built, (placed 28).1, by decide, by decide⟩

theorem totalWeight_replicate (n : Nat) (w : UInt32) :
    totalWeight (List.replicate n w) = n * w.toNat := by
  simp [totalWeight]

/-- Two shards of weight `w` and `n` more, whose sum wraps to `total`: a hash of the second
interval whose remainder by `total` is in the first goes to the first shard. -/
theorem shardForHash_wrapped {n : Nat} {w : UInt32} {hash total : UInt64} (weighs : w ≠ 0)
    (several : w ≠ 1) (wraps : UInt64.ofNat ((n + 2) * w.toNat) = total)
    (first : hash % total < w.toUInt64) (low : w.toNat ≤ hash.toNat)
    (high : hash.toNat < 2 * w.toNat) :
    ∃ router, DistributedRouter.new (List.replicate (n + 2) w) = .ok router ∧
      router.shardForHash hash = some 0 ∧ slotShard (List.replicate (n + 2) w) hash = some 1 := by
  have weight : totalWeight (List.replicate (n + 2) w) = (n + 2) * w.toNat :=
    totalWeight_replicate (n + 2) w
  have last := endsFrom_getLast (List.replicate (n + 1) w) 0 w
  rw [← List.replicate_succ, weight, wraps, UInt64.zero_add] at last
  have uneven : (List.replicate (n + 2) w).all (· = 1) = false := by
    simp [several]
  have built : DistributedRouter.new (List.replicate (n + 2) w) =
      .ok ⟨DistributedRouter.endsFrom 0 (List.replicate (n + 2) w), false⟩ :=
    new_ok.mpr ⟨by simp, by simp [weighs], by rw [uneven]⟩
  refine ⟨_, built, ?_, ?_⟩
  · unfold DistributedRouter.shardForHash
    dsimp only
    rw [last]
    dsimp only
    rw [if_neg (by simp), List.replicate_succ, DistributedRouter.endsFrom, List.findIdx?_cons,
      UInt64.zero_add, if_pos (by simpa using first)]
  · have wide : 2 * w.toNat ≤ (n + 2) * w.toNat := Nat.mul_le_mul_right _ (by omega)
    unfold slotShard slotTable
    rw [slotsFrom_length, weight, Nat.mod_eq_of_lt (by omega), List.replicate_succ,
      List.replicate_succ, slotsFrom, slotsFrom, List.getElem?_append_right (by simpa using low),
      List.length_replicate, List.getElem?_append_left (by simp; omega),
      List.getElem?_replicate_of_lt (by omega)]

/-- A sum of `2 ^ 64` or more wraps, and a hash is placed elsewhere than by the slot
table. -/
theorem router_wraps_beyond_words :
    ∃ router, DistributedRouter.new (List.replicate 4294967298 4294967295) = .ok router ∧
      router.shardForHash 4294967296 = some 0 ∧
      slotShard (List.replicate 4294967298 4294967295) 4294967296 = some 1 := by
  have wraps : UInt64.ofNat ((4294967296 + 2) * (4294967295 : UInt32).toNat) = 4294967294 := by
    decide
  have remainder : (4294967296 : UInt64) % 4294967294 < (4294967295 : UInt32).toUInt64 := by
    decide
  exact shardForHash_wrapped (by decide) (by decide) wraps remainder (by decide) (by decide)

end Spate.ClickHouse
