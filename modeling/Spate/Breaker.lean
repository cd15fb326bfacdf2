import Mathlib.Data.List.Basic
import Spate.Transition

set_option autoImplicit false

/- Circuit breakers of one shard's replicas (`sink/breaker.rs`) and the write
attempts that pick from them (`spawn_write`, `ProbeGuard` in `sink/worker.rs`).
Instants are numbers. The gauges are left out: nothing reads them. -/
namespace Spate.Sink

inductive BreakerState
  | closed (consecutiveFailures : Nat)
  | opened (deadline : Nat)
  | halfOpen (probesInFlight episode : Nat)
  deriving DecidableEq

structure BreakerConfig where
  failureThreshold : Nat
  openFor : Nat
  halfOpenProbes : Nat
  deriving DecidableEq

/-- `BreakerConfig::MAX_OPEN_FOR`, a year in nanoseconds. -/
def BreakerConfig.maxOpenFor : Nat := 365 * 24 * 60 * 60 * 1000000000

/-- What `BreakerSet::new` makes of a configuration that skipped `validate`. -/
def BreakerConfig.clamped (cfg : BreakerConfig) : BreakerConfig :=
  { cfg with
    halfOpenProbes := max cfg.halfOpenProbes 1
    openFor := min cfg.openFor maxOpenFor }

/-- One replica handed out, with the episode whose probe slot it spent. -/
structure Pick where
  replica : Nat
  probe : Option Nat
  deriving DecidableEq

inductive ShardHealthTransition
  | recovered
  | allQuarantined
  deriving DecidableEq

structure BreakerSet where
  cfg : BreakerConfig
  states : List BreakerState
  cursor : Nat
  shardHealthy : Bool
  wake : Nat
  nextEpisode : Nat
  deriving DecidableEq

namespace BreakerSet

/-- `none` is the assertion that a shard has a replica. -/
def new (replicas : Nat) (cfg : BreakerConfig) : Option BreakerSet :=
  if 0 < replicas then
    some {
      cfg := cfg.clamped
      states := List.replicate replicas (.closed 0)
      cursor := 0
      shardHealthy := true
      wake := 0
      nextEpisode := 0 }
  else none

def publishWake (b : BreakerSet) : BreakerSet := { b with wake := b.wake + 1 }

def setState (b : BreakerSet) (replica : Nat) (state : BreakerState) : BreakerSet :=
  { b with states := b.states.set replica state }

/-- The pick of `idx`, if it is usable: one round of the loop in `next_replica`. -/
def offer (b : BreakerSet) (now idx : Nat) : Option (BreakerSet × Pick) :=
  let cursor := (idx + 1) % b.states.length
  match b.states[idx]? with
  | some (.closed _) => some ({ b with cursor }, ⟨idx, none⟩)
  | some (.opened deadline) =>
    if deadline ≤ now then
      -- a fresh half-open run
      let episode := b.nextEpisode + 1
      some ({ b.setState idx (.halfOpen 1 episode) with nextEpisode := episode, cursor },
        ⟨idx, some episode⟩)
    else none
  | some (.halfOpen probes episode) =>
    if probes < b.cfg.halfOpenProbes then
      some ({ b.setState idx (.halfOpen (probes + 1) episode) with cursor },
        ⟨idx, some episode⟩)
    else none
  | none => none

/-- `none` when nothing is pickable; the set is then unchanged. -/
def nextReplica (b : BreakerSet) (now : Nat) : Option (BreakerSet × Pick) :=
  (List.range b.states.length).findSome? fun step =>
    b.offer now ((b.cursor + step) % b.states.length)

def releaseProbe (b : BreakerSet) (replica episode : Nat) : BreakerSet :=
  match b.states[replica]? with
  | some (.halfOpen probes current) =>
    if current ≠ episode then b
    else (b.setState replica (.halfOpen (probes - 1) current)).publishWake
  | _ => b

def nextProbeAt (b : BreakerSet) (now : Nat) : Option Nat :=
  let deadlines := b.states.filterMap fun
    | .opened deadline => some deadline
    | _ => none
  deadlines.min?.map (max · now)

def refreshShardHealth (b : BreakerSet) : BreakerSet × Option ShardHealthTransition :=
  let up := b.states.any fun
    | .closed _ => true
    | _ => false
  if up = b.shardHealthy then (b, none)
  else ({ b with shardHealthy := up }, some (if up then .recovered else .allQuarantined))

def onSuccess (b : BreakerSet) (replica : Nat) : BreakerSet × Option ShardHealthTransition :=
  (b.setState replica (.closed 0)).publishWake.refreshShardHealth

def failed (cfg : BreakerConfig) (now : Nat) : BreakerState → BreakerState
  | .closed consecutiveFailures =>
    let failures := consecutiveFailures + 1
    if cfg.failureThreshold ≤ failures then .opened (now + cfg.openFor) else .closed failures
  | .halfOpen _ _ => .opened (now + cfg.openFor)
  | .opened deadline => .opened deadline

def onFailure (b : BreakerSet) (replica now : Nat) :
    BreakerSet × Option ShardHealthTransition :=
  { b with states := b.states.modify replica (failed b.cfg now) }.publishWake.refreshShardHealth

/-- `next_replica` would hand the replica out. -/
def Pickable (b : BreakerSet) (now idx : Nat) : Prop :=
  match b.states[idx]? with
  | some (.closed _) => True
  | some (.opened deadline) => deadline ≤ now
  | some (.halfOpen probes _) => probes < b.cfg.halfOpenProbes
  | none => False

variable {b : BreakerSet} {now idx : Nat}

theorem refreshShardHealth_frame (b : BreakerSet) :
    ∃ healthy, b.refreshShardHealth.1 = { b with shardHealthy := healthy } := by
  unfold refreshShardHealth
  dsimp only
  split
  · exact ⟨b.shardHealthy, rfl⟩
  · exact ⟨_, rfl⟩

theorem offer_some {b' : BreakerSet} {pick : Pick} (offered : b.offer now idx = some (b', pick)) :
    b.Pickable now idx ∧ pick.replica = idx ∧ idx < b.states.length ∧
      b'.cursor = (idx + 1) % b.states.length ∧ b'.cfg = b.cfg ∧ b'.wake = b.wake ∧
      ((b'.states = b.states ∧ b'.nextEpisode = b.nextEpisode ∧ pick.probe = none) ∨
        (b'.nextEpisode = b.nextEpisode + 1 ∧ pick.probe = some (b.nextEpisode + 1) ∧
          (∃ deadline, b.states[idx]? = some (.opened deadline)) ∧
          b'.states = b.states.set idx (.halfOpen 1 (b.nextEpisode + 1))) ∨
        ∃ probes episode, b.states[idx]? = some (.halfOpen probes episode) ∧
          probes < b.cfg.halfOpenProbes ∧ b'.nextEpisode = b.nextEpisode ∧
          pick.probe = some episode ∧
          b'.states = b.states.set idx (.halfOpen (probes + 1) episode)) := by
  unfold offer at offered
  unfold Pickable
  dsimp only at offered
  split at offered
  · rename_i failures found
    cases offered
    rw [found]
    exact ⟨trivial, rfl, (List.getElem?_eq_some_iff.mp found).1, rfl, rfl, rfl,
      Or.inl ⟨rfl, rfl, rfl⟩⟩
  · rename_i deadline found
    split at offered
    · rename_i due
      cases offered
      rw [found]
      exact ⟨due, rfl, (List.getElem?_eq_some_iff.mp found).1, rfl, rfl, rfl,
        Or.inr (Or.inl ⟨rfl, rfl, ⟨deadline, rfl⟩, rfl⟩)⟩
    · cases offered
  · rename_i probes episode found
    split at offered
    · rename_i room
      cases offered
      rw [found]
      exact ⟨room, rfl, (List.getElem?_eq_some_iff.mp found).1, rfl, rfl, rfl,
        Or.inr (Or.inr ⟨probes, episode, rfl, room, rfl, rfl, rfl⟩)⟩
    · cases offered
  · cases offered

theorem offer_none : b.offer now idx = none ↔ ¬ b.Pickable now idx := by
  unfold offer Pickable
  dsimp only
  split <;> simp

theorem round_reaches (inside : b.cursor < b.states.length) (present : idx < b.states.length) :
    ∃ step < b.states.length, (b.cursor + step) % b.states.length = idx := by
  by_cases ahead : b.cursor ≤ idx
  · refine ⟨idx - b.cursor, by omega, ?_⟩
    rw [Nat.add_sub_cancel' ahead, Nat.mod_eq_of_lt present]
  · refine ⟨idx + b.states.length - b.cursor, by omega, ?_⟩
    have whole : b.cursor + (idx + b.states.length - b.cursor) = idx + b.states.length := by omega
    rw [whole, Nat.add_mod_right, Nat.mod_eq_of_lt present]

/-- The first pickable replica from the cursor is handed out. -/
theorem nextReplica_first {b' : BreakerSet} {pick : Pick}
    (picked : b.nextReplica now = some (b', pick)) :
    ∃ step < b.states.length,
      b.offer now ((b.cursor + step) % b.states.length) = some (b', pick) ∧
      ∀ earlier < step, ¬ b.Pickable now ((b.cursor + earlier) % b.states.length) := by
  unfold nextReplica at picked
  obtain ⟨before, step, after, split, offered, skipped⟩ :=
    List.findSome?_eq_some_iff.mp picked
  have range : step = before.length ∧ before = List.range step := by
    have inside : before.length < (List.range b.states.length).length := by simp [split]
    have here : (List.range b.states.length).get ⟨before.length, inside⟩ = step := by
      simp [split]
    have same : step = before.length := by simpa using here.symm
    refine ⟨same, ?_⟩
    have taken : (List.range b.states.length).take before.length = before := by simp [split]
    rw [← taken, List.take_range, same]
    congr 1
    simp only [List.length_range] at inside
    omega
  have bound : step < b.states.length := by
    have member : step ∈ List.range b.states.length := by simp [split]
    simpa using member
  refine ⟨step, bound, offered, fun earlier below => ?_⟩
  apply offer_none.mp
  apply skipped
  rw [range.2]
  exact List.mem_range.mpr below

theorem nextReplica_none (inside : b.cursor < b.states.length)
    (nothing : b.nextReplica now = none) (present : idx < b.states.length) :
    ¬ b.Pickable now idx := by
  obtain ⟨step, bound, rfl⟩ := round_reaches inside present
  apply offer_none.mp
  exact List.findSome?_eq_none_iff.mp nothing step (List.mem_range.mpr bound)

theorem nextProbeAt_isSome {deadline : Nat} (now : Nat)
    (found : b.states[idx]? = some (.opened deadline)) : (b.nextProbeAt now).isSome := by
  unfold nextProbeAt
  dsimp only
  rw [Option.isSome_map, List.isSome_min?_iff]
  apply List.ne_nil_of_mem
  exact List.mem_filterMap.mpr ⟨_, List.mem_of_getElem? found, rfl⟩

theorem releaseProbe_ended {replica episode : Nat}
    (ended : ∀ probes, b.states[replica]? ≠ some (.halfOpen probes episode)) :
    b.releaseProbe replica episode = b := by
  unfold releaseProbe
  split
  · rename_i probes current found
    apply if_pos
    rintro rfl
    exact ended probes found
  · rfl

theorem releaseProbe_current {replica probes episode : Nat}
    (found : b.states[replica]? = some (.halfOpen probes episode)) :
    b.releaseProbe replica episode =
      (b.setState replica (.halfOpen (probes - 1) episode)).publishWake := by
  unfold releaseProbe
  rw [found]
  exact if_neg (by simp)

/-- What reporting an outcome on a replica does, whatever the outcome. -/
structure Reports (b b' : BreakerSet) (replica : Nat) : Prop where
  cfg : b'.cfg = b.cfg
  cursor : b'.cursor = b.cursor
  wake : b'.wake = b.wake + 1
  episode : b'.nextEpisode = b.nextEpisode
  length : b'.states.length = b.states.length
  others : ∀ idx, idx ≠ replica → b'.states[idx]? = b.states[idx]?
  /-- A report ends the episode. -/
  ended : ∀ probes episode, b'.states[replica]? ≠ some (.halfOpen probes episode)

theorem onSuccess_reports (b : BreakerSet) (replica : Nat) :
    b.Reports (b.onSuccess replica).1 replica := by
  unfold onSuccess
  obtain ⟨healthy, same⟩ := refreshShardHealth_frame (b.setState replica (.closed 0)).publishWake
  rw [same]
  refine ⟨rfl, rfl, rfl, rfl, List.length_set, ?_, ?_⟩
  · intro idx apart
    exact List.getElem?_set_ne apart.symm
  · intro probes episode found
    obtain ⟨inside, value⟩ := List.getElem?_eq_some_iff.mp found
    simp [setState, publishWake] at value

theorem failed_not_halfOpen (cfg : BreakerConfig) (now : Nat) (state : BreakerState)
    (probes episode : Nat) : failed cfg now state ≠ .halfOpen probes episode := by
  cases state with
  | closed failures =>
    unfold failed
    dsimp only
    split <;> nofun
  | opened | halfOpen => nofun

theorem onFailure_reports (b : BreakerSet) (replica now : Nat) :
    b.Reports (b.onFailure replica now).1 replica := by
  unfold onFailure
  obtain ⟨healthy, same⟩ := refreshShardHealth_frame
    ({ b with states := b.states.modify replica (failed b.cfg now) } : BreakerSet).publishWake
  rw [same]
  refine ⟨rfl, rfl, rfl, rfl, List.length_modify .., ?_, ?_⟩
  · intro idx apart
    change (b.states.modify replica (failed b.cfg now))[idx]? = _
    rw [List.getElem?_modify]
    simp [apart.symm]
  · intro probes episode found
    change (b.states.modify replica (failed b.cfg now))[replica]? = _ at found
    rw [List.getElem?_modify] at found
    obtain ⟨state, _, value⟩ := Option.map_eq_some_iff.mp found
    rw [if_pos rfl] at value
    exact failed_not_halfOpen _ _ _ _ _ value

end BreakerSet

/-- The set and the picks that write attempts hold, each under its attempt. -/
structure Attempts where
  set : BreakerSet
  held : List (Nat × Pick)
  started : Nat
  deriving DecidableEq

inductive AttemptEvent
  /-- A write task picks a replica; it parks when nothing is pickable. -/
  | pick (now : Nat)
  | success (attempt : Nat)
  | failure (attempt now : Nat)
  /-- The attempt dies with no outcome and its `ProbeGuard`, if it has one, drops. -/
  | release (attempt : Nat)
  deriving DecidableEq

namespace Attempts

def new (set : BreakerSet) : Attempts := ⟨set, [], 0⟩

/-- The attempt gives its pick up with an effect on the set. -/
def close (s : Attempts) (attempt : Nat) (effect : Pick → BreakerSet) : Option Attempts :=
  (s.held.find? (·.1 = attempt)).map fun entry =>
    { s with set := effect entry.2, held := s.held.erase entry }

def step (s : Attempts) : AttemptEvent → Option Attempts
  | .pick now =>
    match s.set.nextReplica now with
    | some (set, pick) =>
      some { s with set, held := s.held ++ [(s.started, pick)], started := s.started + 1 }
    | none => some s
  | .success attempt => s.close attempt fun pick => (s.set.onSuccess pick.replica).1
  | .failure attempt now => s.close attempt fun pick => (s.set.onFailure pick.replica now).1
  | .release attempt =>
    s.close attempt fun pick => pick.probe.elim s.set (s.set.releaseProbe pick.replica)

def slots (s : Attempts) (replica episode : Nat) : Nat :=
  s.held.countP fun entry => entry.2 = ⟨replica, some episode⟩

inductive Move (s : Attempts) : Attempts → Prop
  | park : Move s s
  | pick {now step : Nat} {set : BreakerSet} {pick : Pick}
      (offered : s.set.offer now ((s.set.cursor + step) % s.set.states.length) = some (set, pick)) :
      Move s { s with set, held := s.held ++ [(s.started, pick)], started := s.started + 1 }
  | report {attempt : Nat} {pick : Pick} {set : BreakerSet} (held : (attempt, pick) ∈ s.held)
      (reports : s.set.Reports set pick.replica) :
      Move s { s with set, held := s.held.erase (attempt, pick) }
  | release {attempt replica episode : Nat} (held : (attempt, ⟨replica, some episode⟩) ∈ s.held) :
      Move s { s with
        set := s.set.releaseProbe replica episode
        held := s.held.erase (attempt, ⟨replica, some episode⟩) }
  | forget {attempt replica : Nat} (held : (attempt, ⟨replica, none⟩) ∈ s.held) :
      Move s { s with held := s.held.erase (attempt, ⟨replica, none⟩) }

variable {s s' : Attempts} {cfg : BreakerConfig} {set : BreakerSet} {entry : Nat × Pick}

theorem close_some {attempt : Nat} {effect : Pick → BreakerSet}
    (closed : s.close attempt effect = some s') :
    ∃ pick, (attempt, pick) ∈ s.held ∧
      s' = { s with set := effect pick, held := s.held.erase (attempt, pick) } := by
  obtain ⟨⟨id, pick⟩, found, rfl⟩ := Option.map_eq_some_iff.mp closed
  have same : id = attempt := by simpa using List.find?_some found
  subst same
  exact ⟨pick, List.mem_of_find?_eq_some found, rfl⟩

theorem move_of_step {event : AttemptEvent} (taken : s.step event = some s') : Move s s' := by
  cases event with
  | pick now =>
    simp only [step] at taken
    split at taken
    · rename_i set pick picked
      cases taken
      obtain ⟨round, _, offered, _⟩ := BreakerSet.nextReplica_first picked
      exact .pick offered
    · cases taken
      exact .park
  | success attempt =>
    simp only [step] at taken
    obtain ⟨pick, held, rfl⟩ := close_some taken
    exact .report held (s.set.onSuccess_reports pick.replica)
  | failure attempt now =>
    simp only [step] at taken
    obtain ⟨pick, held, rfl⟩ := close_some taken
    exact .report held (s.set.onFailure_reports pick.replica now)
  | release attempt =>
    simp only [step] at taken
    obtain ⟨⟨replica, probe⟩, held, rfl⟩ := close_some taken
    cases probe with
    | none => exact .forget held
    | some episode => exact .release held

/-- Every half-open replica's counter is the number of picks that hold its slots. -/
structure Counted (cfg : BreakerConfig) (s : Attempts) : Prop where
  config : s.set.cfg = cfg.clamped
  cursor : s.set.cursor < s.set.states.length
  probing : ∀ replica probes episode : Nat,
    s.set.states[replica]? = some (.halfOpen probes episode) →
      probes = s.slots replica episode ∧ probes ≤ cfg.clamped.halfOpenProbes
  begun : ∀ replica probes episode : Nat,
    s.set.states[replica]? = some (.halfOpen probes episode) → episode ≤ s.set.nextEpisode
  /-- The next episode was never given out. -/
  fresh : ∀ entry ∈ s.held, ∀ episode, entry.2.probe = some episode →
    episode ≤ s.set.nextEpisode

theorem new_counted {replicas : Nat} (built : BreakerSet.new replicas cfg = some set) :
    (new set).Counted cfg := by
  unfold BreakerSet.new at built
  split at built
  · rename_i positive
    cases built
    have closed (replica probes episode : Nat) :
        (List.replicate replicas (BreakerState.closed 0))[replica]? ≠
          some (.halfOpen probes episode) := by
      intro found
      cases List.eq_of_mem_replicate (List.mem_of_getElem? found)
    refine ⟨rfl, by simpa [new] using positive, ?_, ?_, by simp [new]⟩
    · intro replica probes episode found
      exact absurd found (closed replica probes episode)
    · intro replica probes episode found
      exact absurd found (closed replica probes episode)
  · cases built

theorem slots_append (s : Attempts) (set : BreakerSet) (attempt started : Nat) (pick : Pick)
    (replica episode : Nat) :
    (⟨set, s.held ++ [(attempt, pick)], started⟩ : Attempts).slots replica episode =
      s.slots replica episode + if pick = ⟨replica, some episode⟩ then 1 else 0 := by
  simp [slots, List.countP_append, List.countP_cons]

theorem slots_erase (held : entry ∈ s.held) (set : BreakerSet) (replica episode : Nat) :
    ({ s with set, held := s.held.erase entry } : Attempts).slots replica episode +
      (if entry.2 = ⟨replica, some episode⟩ then 1 else 0) = s.slots replica episode := by
  unfold slots
  rw [(List.perm_cons_erase held).countP_eq, List.countP_cons]
  simp

theorem Counted.pick (counted : s.Counted cfg) {now idx : Nat} {pick : Pick}
    (offered : s.set.offer now idx = some (set, pick)) :
    ({ s with set, held := s.held ++ [(s.started, pick)], started := s.started + 1 } :
      Attempts).Counted cfg := by
  obtain ⟨_, same, inside, cursor, sameCfg, _, change⟩ := BreakerSet.offer_some offered
  obtain ⟨replica, probe⟩ := pick
  subst same
  dsimp only at inside change cursor
  -- at another replica nothing changes
  have elsewhere {state : BreakerState} (states : set.states = s.set.states.set replica state)
      {other probes episode : Nat} (apart : other ≠ replica)
      (found : set.states[other]? = some (.halfOpen probes episode)) :
      probes = (⟨set, s.held ++ [(s.started, ⟨replica, probe⟩)], s.started + 1⟩ :
        Attempts).slots other episode ∧
      probes ≤ cfg.clamped.halfOpenProbes ∧ episode ≤ s.set.nextEpisode := by
    rw [states, List.getElem?_set_ne apart.symm] at found
    rw [slots_append, if_neg (by simp [apart.symm]), Nat.add_zero]
    obtain ⟨count, bound⟩ := counted.probing other probes episode found
    exact ⟨count, bound, counted.begun other probes episode found⟩
  rcases change with ⟨states, next, rfl⟩ | ⟨next, rfl, _, states⟩ |
    ⟨before, current, located, room, next, rfl, states⟩
  · refine ⟨sameCfg.trans counted.config, ?_, ?_, ?_, ?_⟩
    · rw [cursor, states]
      exact Nat.mod_lt _ (by omega)
    · intro other probes episode found
      rw [slots_append, if_neg (by simp), Nat.add_zero]
      rw [states] at found
      exact counted.probing other probes episode found
    · rw [states, next]
      exact counted.begun
    · intro entry member episode named
      rw [next]
      rcases List.mem_append.mp member with old | new
      · exact counted.fresh entry old episode named
      · obtain rfl := List.mem_singleton.mp new
        cases named
  · -- a new episode has one slot, just taken
    have unused : s.slots replica (s.set.nextEpisode + 1) = 0 := by
      apply List.countP_eq_zero.mpr
      intro entry member same
      have late := counted.fresh entry member (s.set.nextEpisode + 1)
        (by rw [of_decide_eq_true same])
      omega
    refine ⟨sameCfg.trans counted.config, ?_, ?_, ?_, ?_⟩
    · rw [cursor, states, List.length_set]
      exact Nat.mod_lt _ (by omega)
    · intro other probes episode found
      by_cases here : other = replica
      · subst here
        rw [states, List.getElem?_set_self inside] at found
        cases found
        rw [slots_append, unused, if_pos rfl]
        exact ⟨rfl, Nat.le_max_right _ _⟩
      · obtain ⟨count, bound, _⟩ := elsewhere states here found
        exact ⟨count, bound⟩
    · intro other probes episode found
      rw [next]
      by_cases here : other = replica
      · subst here
        rw [states, List.getElem?_set_self inside] at found
        cases found
        exact Nat.le_refl _
      · have known := (elsewhere states here found).2.2
        omega
    · intro entry member episode named
      rw [next]
      rcases List.mem_append.mp member with old | new
      · have known := counted.fresh entry old episode named
        omega
      · obtain rfl := List.mem_singleton.mp new
        cases named
        exact Nat.le_refl _
  · refine ⟨sameCfg.trans counted.config, ?_, ?_, ?_, ?_⟩
    · rw [cursor, states, List.length_set]
      exact Nat.mod_lt _ (by omega)
    · intro other probes episode found
      by_cases here : other = replica
      · subst here
        rw [states, List.getElem?_set_self inside] at found
        cases found
        have earlier := (counted.probing other before current located).1
        rw [slots_append, if_pos rfl]
        rw [counted.config] at room
        exact ⟨by omega, room⟩
      · obtain ⟨count, bound, _⟩ := elsewhere states here found
        exact ⟨count, bound⟩
    · intro other probes episode found
      rw [next]
      by_cases here : other = replica
      · subst here
        rw [states, List.getElem?_set_self inside] at found
        cases found
        exact counted.begun other before current located
      · exact (elsewhere states here found).2.2
    · intro entry member episode named
      rw [next]
      rcases List.mem_append.mp member with old | new
      · exact counted.fresh entry old episode named
      · obtain rfl := List.mem_singleton.mp new
        cases named
        exact counted.begun replica before current located

/-- An attempt gives its pick up and the replica it was of is not left half-open, or
not in the pick's episode, or its counter goes down with the pick. -/
theorem Counted.closes (counted : s.Counted cfg) {attempt : Nat} {pick : Pick}
    (held : (attempt, pick) ∈ s.held) (config : set.cfg = s.set.cfg)
    (cursor : set.cursor = s.set.cursor) (episodes : set.nextEpisode = s.set.nextEpisode)
    (length : set.states.length = s.set.states.length)
    (others : ∀ idx, idx ≠ pick.replica → set.states[idx]? = s.set.states[idx]?)
    (own : ∀ probes episode, set.states[pick.replica]? = some (.halfOpen probes episode) →
      ∃ before, s.set.states[pick.replica]? = some (.halfOpen before episode) ∧
        before = probes + if pick.probe = some episode then 1 else 0) :
    ({ s with set, held := s.held.erase (attempt, pick) } : Attempts).Counted cfg := by
  refine ⟨config.trans counted.config, by rw [cursor, length]; exact counted.cursor, ?_, ?_, ?_⟩
  · intro idx probes episode found
    have erased := slots_erase held set idx episode
    by_cases here : idx = pick.replica
    · subst here
      obtain ⟨before, located, lost⟩ := own probes episode found
      obtain ⟨count, bound⟩ := counted.probing _ _ _ located
      have match' : (pick = ⟨pick.replica, some episode⟩) ↔ pick.probe = some episode := by
        cases pick
        simp
      simp only [match'] at erased
      exact ⟨by omega, by omega⟩
    · rw [others idx here] at found
      rw [if_neg (fun same => here (congrArg Pick.replica same).symm), Nat.add_zero] at erased
      rw [erased]
      exact counted.probing idx probes episode found
  · intro idx probes episode found
    rw [episodes]
    by_cases here : idx = pick.replica
    · subst here
      obtain ⟨before, located, _⟩ := own probes episode found
      exact counted.begun _ _ _ located
    · rw [others idx here] at found
      exact counted.begun idx probes episode found
  · intro entry member episode named
    rw [episodes]
    exact counted.fresh entry (List.mem_of_mem_erase member) episode named

theorem move_counted (counted : s.Counted cfg) (move : Move s s') : s'.Counted cfg := by
  cases move with
  | park => exact counted
  | pick offered => exact counted.pick offered
  | report held reports =>
    apply counted.closes held reports.cfg reports.cursor reports.episode reports.length
      reports.others
    intro probes episode found
    exact absurd found (reports.ended probes episode)
  | @release attempt replica episode held =>
    by_cases current : ∃ probes, s.set.states[replica]? = some (.halfOpen probes episode)
    · obtain ⟨probes, located⟩ := current
      have positive : 0 < probes := by
        rw [(counted.probing replica probes episode located).1]
        exact List.countP_pos_iff.mpr ⟨_, held, by simp⟩
      have inside := (List.getElem?_eq_some_iff.mp located).1
      rw [BreakerSet.releaseProbe_current located]
      refine counted.closes held rfl rfl rfl List.length_set ?_ ?_
      · intro idx apart
        exact List.getElem?_set_ne (Ne.symm apart)
      · intro after named found
        change (s.set.states.set replica (.halfOpen (probes - 1) episode))[replica]? = _ at found
        rw [List.getElem?_set_self inside] at found
        cases found
        exact ⟨probes, located, by rw [if_pos rfl]; omega⟩
    · have ended : ∀ probes, s.set.states[replica]? ≠ some (.halfOpen probes episode) :=
        fun probes located => current ⟨probes, located⟩
      rw [BreakerSet.releaseProbe_ended ended]
      refine counted.closes held rfl rfl rfl rfl (fun _ _ => rfl) ?_
      intro probes other found
      have apart : some episode ≠ some other := by
        rintro same
        cases same
        exact ended probes found
      exact ⟨probes, found, by rw [if_neg apart, Nat.add_zero]⟩
  | forget held =>
    refine counted.closes held rfl rfl rfl rfl (fun _ _ => rfl) ?_
    intro probes episode found
    exact ⟨probes, found, by simp⟩

theorem move_wake (move : Move s s') : s.set.wake ≤ s'.set.wake := by
  cases move with
  | park | forget => exact Nat.le_refl _
  | pick offered =>
    obtain ⟨_, _, _, _, _, wake, _⟩ := BreakerSet.offer_some offered
    exact Nat.le_of_eq wake.symm
  | report held reports =>
    have bumped := reports.wake
    dsimp only
    omega
  | @release attempt replica episode held =>
    by_cases current : ∃ probes, s.set.states[replica]? = some (.halfOpen probes episode)
    · obtain ⟨probes, located⟩ := current
      rw [BreakerSet.releaseProbe_current located]
      exact Nat.le_succ _
    · have same := BreakerSet.releaseProbe_ended fun probes located => current ⟨probes, located⟩
      exact Nat.le_of_eq (by rw [same])

/-- The entry still holds a slot of its replica's current episode, or a wake was
published since the version `since`. -/
def Watched (since : Nat) (entry : Nat × Pick) (s : Attempts) : Prop :=
  since < s.set.wake ∨ entry ∈ s.held ∧
    ∃ probes episode, entry.2.probe = some episode ∧
      s.set.states[entry.2.replica]? = some (.halfOpen probes episode)

theorem move_watched {since : Nat} (known : since ≤ s.set.wake) (watched : s.Watched since entry)
    (move : Move s s') : s'.Watched since entry := by
  rcases watched with woken | ⟨member, probes, episode, named, located⟩
  · exact Or.inl (Nat.lt_of_lt_of_le woken (move_wake move))
  cases move with
  | park => exact Or.inr ⟨member, probes, episode, named, located⟩
  | pick offered =>
    right
    refine ⟨List.mem_append_left _ member, ?_⟩
    obtain ⟨_, _, inside, _, _, _, change⟩ := BreakerSet.offer_some offered
    generalize at_ : (s.set.cursor + _) % s.set.states.length = idx at offered inside change
    rcases change with ⟨states, _⟩ | ⟨_, _, ⟨deadline, opened⟩, states⟩ |
      ⟨before, current, found, _, _, _, states⟩
    · rw [states]
      exact ⟨probes, episode, named, located⟩
    · have apart : idx ≠ entry.2.replica := by
        rintro rfl
        rw [located] at opened
        cases opened
      rw [states, List.getElem?_set_ne apart]
      exact ⟨probes, episode, named, located⟩
    · by_cases here : idx = entry.2.replica
      · subst here
        rw [located] at found
        cases found
        rw [states, List.getElem?_set_self inside]
        exact ⟨_, _, named, rfl⟩
      · rw [states, List.getElem?_set_ne here]
        exact ⟨probes, episode, named, located⟩
  | report held reports =>
    left
    have bumped := reports.wake
    dsimp only
    omega
  | @release attempt replica named' held =>
    by_cases current : ∃ probes, s.set.states[replica]? = some (.halfOpen probes named')
    · obtain ⟨before, found⟩ := current
      left
      rw [BreakerSet.releaseProbe_current found]
      exact Nat.lt_succ_of_le known
    · right
      rw [BreakerSet.releaseProbe_ended fun probes located => current ⟨probes, located⟩]
      have apart : entry ≠ (attempt, ⟨replica, some named'⟩) := by
        rintro rfl
        cases named
        exact current ⟨probes, located⟩
      exact ⟨(List.mem_erase_of_ne apart).mpr member, probes, episode, named, located⟩
  | @forget attempt replica held =>
    right
    have apart : entry ≠ (attempt, ⟨replica, none⟩) := by
      rintro rfl
      cases named
    exact ⟨(List.mem_erase_of_ne apart).mpr member, probes, episode, named, located⟩

/-- A wake is published no later than the attempt gives its pick up. -/
theorem run_wakes {probes episode : Nat} (held : entry ∈ s.held)
    (named : entry.2.probe = some episode)
    (located : s.set.states[entry.2.replica]? = some (.halfOpen probes episode))
    {events : List AttemptEvent} (run : Transition.Run step (fun _ _ => True) s events s')
    (gone : entry ∉ s'.held) : s.set.wake < s'.set.wake := by
  have kept := run.invariant
    (fun later => s.set.wake ≤ later.set.wake ∧ later.Watched s.set.wake entry)
    ⟨Nat.le_refl _, Or.inr ⟨held, probes, episode, named, located⟩⟩
    fun kept _ taken => ⟨Nat.le_trans kept.1 (move_wake (move_of_step taken)),
      move_watched kept.1 kept.2 (move_of_step taken)⟩
  exact kept.2.resolve_right fun still => gone still.1

theorem Counted.parked (counted : s.Counted cfg) {now : Nat}
    (nothing : s.set.nextReplica now = none) :
    ((∃ (replica deadline : Nat), s.set.states[replica]? = some (.opened deadline)) ∧
      (s.set.nextProbeAt now).isSome) ∨
    ∀ replica < s.set.states.length, ∃ probes episode attempt,
      s.set.states[replica]? = some (.halfOpen probes episode) ∧
      (attempt, ⟨replica, some episode⟩) ∈ s.held := by
  by_cases quarantined :
      ∃ (replica deadline : Nat), s.set.states[replica]? = some (.opened deadline)
  · obtain ⟨replica, deadline, found⟩ := quarantined
    exact Or.inl ⟨⟨replica, deadline, found⟩, BreakerSet.nextProbeAt_isSome now found⟩
  · right
    intro replica inside
    have refused := BreakerSet.nextReplica_none counted.cursor nothing inside
    obtain ⟨state, found⟩ : ∃ state, s.set.states[replica]? = some state :=
      ⟨_, List.getElem?_eq_getElem inside⟩
    unfold BreakerSet.Pickable at refused
    rw [found] at refused
    cases state with
    | closed failures => exact absurd trivial refused
    | opened deadline => exact absurd ⟨replica, deadline, found⟩ quarantined
    | halfOpen probes episode =>
      obtain ⟨count, _⟩ := counted.probing replica probes episode found
      have budget : 1 ≤ s.set.cfg.halfOpenProbes := by
        rw [counted.config]
        exact Nat.le_max_right _ _
      have positive : 0 < s.slots replica episode := by
        dsimp only at refused
        omega
      obtain ⟨⟨attempt, pick⟩, member, same⟩ := List.countP_pos_iff.mp positive
      obtain rfl : pick = ⟨replica, some episode⟩ := of_decide_eq_true same
      exact ⟨probes, episode, attempt, found, member⟩

end Attempts

/-- A half-open replica's counter is the number of its outstanding slots, within the
budget; a late release does nothing; when nothing is pickable there is a deadline to
wait for, or every replica has an outstanding probe that gives a wake no later than it
ends; and a pick is the first pickable replica from the cursor. -/
theorem breakers_never_strand {replicas : Nat} {cfg : BreakerConfig} {set : BreakerSet}
    (built : BreakerSet.new replicas cfg = some set) {events : List AttemptEvent} {s : Attempts}
    (run : Transition.Run Attempts.step (fun _ _ => True) (.new set) events s) :
    (∀ replica probes episode : Nat,
      s.set.states[replica]? = some (.halfOpen probes episode) →
        probes = s.slots replica episode ∧ probes ≤ max cfg.halfOpenProbes 1) ∧
    (∀ replica episode : Nat,
      (∀ probes, s.set.states[replica]? ≠ some (.halfOpen probes episode)) →
        s.set.releaseProbe replica episode = s.set) ∧
    (∀ now, s.set.nextReplica now = none →
      ((∃ (replica deadline : Nat), s.set.states[replica]? = some (.opened deadline)) ∧
        (s.set.nextProbeAt now).isSome) ∨
      ∀ replica < s.set.states.length, ∃ probes episode attempt,
        s.set.states[replica]? = some (.halfOpen probes episode) ∧
        (attempt, ⟨replica, some episode⟩) ∈ s.held ∧
        ∀ later s', Transition.Run Attempts.step (fun _ _ => True) s later s' →
          (attempt, ⟨replica, some episode⟩) ∉ s'.held → s.set.wake < s'.set.wake) ∧
    (∀ now set' pick, s.set.nextReplica now = some (set', pick) →
      ∃ step < s.set.states.length,
        pick.replica = (s.set.cursor + step) % s.set.states.length ∧
        s.set.Pickable now pick.replica ∧
        (∀ earlier < step,
          ¬ s.set.Pickable now ((s.set.cursor + earlier) % s.set.states.length)) ∧
        set'.cursor = (pick.replica + 1) % s.set.states.length) := by
  have counted : s.Counted cfg := run.invariant (Attempts.Counted cfg)
    (Attempts.new_counted built)
    fun counted _ taken => Attempts.move_counted counted (Attempts.move_of_step taken)
  refine ⟨counted.probing, fun replica episode => BreakerSet.releaseProbe_ended, ?_, ?_⟩
  · intro now nothing
    rcases counted.parked nothing with deadline | probing
    · exact Or.inl deadline
    · right
      intro replica inside
      obtain ⟨probes, episode, attempt, found, member⟩ := probing replica inside
      refine ⟨probes, episode, attempt, found, member, ?_⟩
      intro later s' continued gone
      exact Attempts.run_wakes member rfl found continued gone
  · intro now set' pick picked
    obtain ⟨step, bound, offered, earlier⟩ := BreakerSet.nextReplica_first picked
    obtain ⟨pickable, same, _, cursor, _⟩ := BreakerSet.offer_some offered
    exact ⟨step, bound, same, same ▸ pickable, earlier, same ▸ cursor⟩

open Transition in
/-- An attempt from before the quarantine reopens the only replica while a probe of the
first episode is out; the probe's late release leaves the second episode alone. -/
theorem breakers_never_strand_late_release :
    ∃ set s, BreakerSet.new 1 ⟨1, 5, 0⟩ = some set ∧
      Run Attempts.step (fun _ _ => True) (.new set)
        [.pick 0, .pick 0, .failure 0 1, .pick 6, .failure 1 7, .pick 12, .release 2] s ∧
      s.set.states = [.halfOpen 1 2] ∧ s.slots 0 2 = 1 ∧
      s.set.nextReplica 20 = none ∧ s.set.releaseProbe 0 1 = s.set := by
  have executes : ((BreakerSet.new 1 ⟨1, 5, 0⟩).bind fun set =>
      (replay Attempts.step (fun _ _ => True) (.new set)
        [.pick 0, .pick 0, .failure 0 1, .pick 6, .failure 1 7, .pick 12, .release 2])).any
      (fun s => decide (s.set.states = [.halfOpen 1 2] ∧ s.set.nextReplica 20 = none)) = true := by
    decide
  obtain ⟨s, reached, facts⟩ := (Option.any_eq_true _ _).mp executes
  obtain ⟨set, built, executed⟩ := Option.bind_eq_some_iff.mp reached
  obtain ⟨states, nothing⟩ := of_decide_eq_true facts
  have run := run_of_replay _ _ s executed
  obtain ⟨probing, ended, -, -⟩ := breakers_never_strand built run
  have found : s.set.states[0]? = some (.halfOpen 1 2) := by rw [states]; rfl
  refine ⟨set, s, built, run, states, (probing 0 1 2 found).1.symm, nothing, ended 0 1 ?_⟩
  intro probes located
  rw [found] at located
  cases located

end Spate.Sink
