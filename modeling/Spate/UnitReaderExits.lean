import Spate.UnitReaderReceipts

set_option autoImplicit false

/- The unit reader's bookkeeping: each lane leaves at most once, a retired one at its
committed terminal watermark, no receipt is named once it is settled, and the fail of a unit
no lane read is sent until the feed takes it. -/
namespace Spate.S3

open Spate.Feed
open Spate.TreeMaps
open Std (TreeMap)

def Happening.commits : Happening → Option (PartitionId × Int)
  | .committed partition watermark => some (partition, watermark)
  | _ => none

/-- The last watermark committed for `partition`. -/
def lastCommit (history : List Happening) (partition : PartitionId) : Option Int :=
  (((history.filterMap Happening.commits).filter fun commit => commit.1 = partition).getLast?).map
    Prod.snd

section

variable {history extra : List Happening} {partition : PartitionId} {watermark : Int}

theorem lastCommit_append (other : ∀ happening ∈ extra, ∀ watermark,
    happening.commits ≠ some (partition, watermark)) :
    lastCommit (history ++ extra) partition = lastCommit history partition := by
  have none :
      (extra.filterMap Happening.commits).filter (fun commit => commit.1 = partition) = [] := by
    refine List.filter_eq_nil_iff.mpr fun commit member => ?_
    obtain ⟨happening, listed, is⟩ := List.mem_filterMap.mp member
    intro same
    refine other happening listed commit.2 ?_
    rw [is, ← of_decide_eq_true same]
  rw [lastCommit, List.filterMap_append, List.filter_append, none, List.append_nil]
  rfl

theorem lastCommit_silent (silent : ∀ happening ∈ extra, happening.commits = none) :
    lastCommit (history ++ extra) partition = lastCommit history partition :=
  lastCommit_append fun happening member watermark is => by
    rw [silent happening member] at is
    cases is

theorem lastCommit_last :
    lastCommit (history ++ [.committed partition watermark]) partition = some watermark := by
  simp [lastCommit, Happening.commits]

theorem commits_of_neutral {happening : Happening} (neutral : happening.neutral = true) :
    happening.commits = none := by
  cases happening <;> first | rfl | cases neutral

theorem commits_of_names {happening : Happening} {receipt : Nat}
    (names : happening.names = some receipt) : happening.commits = none := by
  cases happening <;> first | rfl | cases names

end

namespace UnitReader

/-! ## Lanes leave once -/

/-- The lane's terminal watermark is committed, or it emitted nothing. -/
def Clean (r : UnitReader) (partition : PartitionId) : Prop :=
  ∃ watermark, (r.threads partition).terminal = some watermark ∧
    (watermark = 0 ∨ lastCommit r.history partition = some watermark)

/-- The lanes reported revoked and retired so far are `away` and `done`. -/
structure Exits (away done : List PartitionId) (r : UnitReader) : Prop where
  distinct : ((away ++ r.revoked) ++ (done ++ r.retired)).Nodup
  left : ∀ partition ∈ (away ++ r.revoked) ++ (done ++ r.retired),
    partition < r.nextLane ∧ r.lanes[partition]? = none
  own : ∀ (delivery : Nat) held, r.deliveries[delivery]? = some held → held.lanes.Nodup
  committed : ∀ (partition : PartitionId) lane, r.lanes[partition]? = some lane →
    lane.lastCommitted = lastCommit r.history partition
  unopened : ∀ partition, r.nextLane ≤ partition → lastCommit r.history partition = none
  clean : ∀ partition ∈ done ++ r.retired, r.Clean partition

section

variable {away done : List PartitionId} {r next : UnitReader}

variable {lane : LaneState}

theorem lane_opened (sound : Sound r) {partition : PartitionId}
    (found : r.lanes[partition]? = some lane) : partition < r.nextLane := by
  obtain ⟨-, part, opened, -⟩ := sound.opening.lane partition lane found
  exact (sound.opening.opened _ _ _ opened).1

theorem Clean.keep {partition : PartitionId} (clean : r.Clean partition)
    (terminal : ∀ watermark, (r.threads partition).terminal = some watermark →
      (next.threads partition).terminal = some watermark)
    (commit : lastCommit next.history partition = lastCommit r.history partition) :
    next.Clean partition := by
  obtain ⟨watermark, set, committed⟩ := clean
  exact ⟨watermark, terminal watermark set, commit ▸ committed⟩

/-- Steps in which no lane opens, leaves or is committed. -/
theorem Exits.same (exits : Exits away done r) (revoked : next.revoked = r.revoked)
    (retired : next.retired = r.retired) (nextLane : next.nextLane = r.nextLane)
    (lanes : next.lanes = r.lanes)
    (deliveries : ∀ (delivery : Nat) held, next.deliveries[delivery]? = some held →
      held.lanes = [] ∨ ∃ before, r.deliveries[delivery]? = some before ∧ held.lanes = before.lanes)
    (terminal : ∀ partition watermark, (r.threads partition).terminal = some watermark →
      (next.threads partition).terminal = some watermark) {extra : List Happening}
    (history : next.history = r.history ++ extra)
    (silent : ∀ happening ∈ extra, happening.commits = none) : Exits away done next := by
  have commit : ∀ partition, lastCommit next.history partition = lastCommit r.history partition :=
    fun partition => history ▸ lastCommit_silent silent
  refine ⟨?_, ?_, fun delivery held found => ?_, ?_, ?_, ?_⟩
  · rw [revoked, retired]
    exact exits.distinct
  · rw [revoked, retired, nextLane, lanes]
    exact exits.left
  · rcases deliveries delivery held found with none | ⟨before, there, same⟩
    · rw [none]
      exact List.nodup_nil
    · rw [same]
      exact exits.own delivery before there
  · intro partition lane found
    rw [commit]
    exact exits.committed partition lane (lanes ▸ found)
  · intro partition later
    rw [commit]
    exact exits.unopened partition (nextLane ▸ later)
  · intro partition member
    rw [retired] at member
    exact (exits.clean partition member).keep (terminal partition) (commit partition)

theorem Exits.record (exits : Exits away done r) {happening : Happening}
    (silent : happening.commits = none) : Exits away done (r.record happening) :=
  exits.same rfl rfl rfl rfl (fun delivery held found => .inr ⟨held, found, rfl⟩)
    (fun _ _ set => set) (history_record r happening) (by simpa using silent)

theorem Exits.setHeld (exits : Exits away done r) (delivery : Nat) {f : HeldUnit → HeldUnit}
    (keeps : ∀ held, (f held).lanes = held.lanes) : Exits away done (r.setHeld delivery f) := by
  refine exits.same rfl rfl rfl rfl (fun other held found => .inr ?_) (fun _ _ set => set)
    (List.append_nil _).symm (by simp)
  change (r.deliveries.modify delivery f)[other]? = some held at found
  cases there : r.deliveries[delivery]? with
  | none =>
    refine ⟨held, ?_, rfl⟩
    by_cases same : other = delivery
    · rw [same, TreeMap.getElem?_modify_self, there] at found
      cases found
    · rwa [modify_other same] at found
  | some before =>
    rcases lookup_modify there found with ⟨rfl, rfl⟩ | ⟨-, found⟩
    · exact ⟨before, there, keeps before⟩
    · exact ⟨held, found, rfl⟩

theorem exits_laneEvent (exits : Exits away done r) (event : LaneEvent) :
    Exits away done (r.laneEvent event) := by
  have terminal : ∀ partition watermark, (r.threads partition).terminal = some watermark →
      ((r.laneEvent event).threads partition).terminal = some watermark :=
    fun partition watermark set => laneEvent_terminal set event
  cases event with
  | report | terminal =>
    rw [laneEvent] at terminal ⊢
    split at terminal
    · rename_i runs
      rw [if_pos runs]
      exact exits.same rfl rfl rfl rfl (fun delivery held found => .inr ⟨held, found, rfl⟩) terminal
        (history_record _ _) (by simp [Happening.commits])
    · rename_i idle
      rw [if_neg idle]
      exact exits

theorem exits_readReport (exits : Exits away done r) (partition : PartitionId)
    (report : PoisonReport) : Exits away done (r.readReport partition report) := by
  unfold readReport onOverwrite overwriteHeld
  split
  · split
    · exact exits
    · split
      · exact exits
      · split
        · exact exits
        · rename_i lane _ held _ _
          dsimp only
          split
          · exact (exits.record (by rfl)).setHeld _ fun _ => rfl
          · refine Exits.record ?_ (by rfl)
            exact (exits.record (by rfl)).setHeld _ fun _ => rfl
  · split
    · exact exits
    · exact exits.setHeld _ fun _ => rfl

/-- A lane retires. -/
theorem Exits.retire (exits : Exits away done r) (sound : Sound r) {partition : PartitionId}
    {watermark : Int} (found : r.lanes[partition]? = some lane)
    (terminal : (r.threads partition).terminal = some watermark)
    (committed : watermark = 0 ∨ lane.lastCommitted = some watermark) :
    Exits away done (r.retire partition) := by
  have new : partition ∉ (away ++ r.revoked) ++ (done ++ r.retired) := by
    intro member
    have gone := (exits.left partition member).2
    rw [found] at gone
    cases gone
  unfold UnitReader.retire
  rw [found]
  have lists : (away ++ r.revoked) ++ (done ++ (r.retired ++ [partition])) =
      ((away ++ r.revoked) ++ (done ++ r.retired)) ++ [partition] := by
    simp only [List.append_assoc]
  refine ⟨?_, ?_, ?_, ?_, exits.unopened, ?_⟩
  · change ((away ++ r.revoked) ++ (done ++ (r.retired ++ [partition]))).Nodup
    rw [lists]
    refine List.nodup_append.mpr ⟨exits.distinct, List.nodup_singleton _, ?_⟩
    rintro other member _ last rfl
    exact new (List.mem_singleton.mp last ▸ member)
  · change ∀ other ∈ (away ++ r.revoked) ++ (done ++ (r.retired ++ [partition])),
      other < r.nextLane ∧ (r.lanes.erase partition)[other]? = none
    rw [lists]
    intro other member
    rcases List.mem_append.mp member with member | last
    · have different : other ≠ partition := fun same => new (same ▸ member)
      rw [erase_other different]
      exact exits.left other member
    · rw [List.mem_singleton.mp last]
      exact ⟨lane_opened sound found, TreeMap.getElem?_erase_self⟩
  · intro delivery held present
    obtain ⟨⟨before, there, -⟩, -⟩ := sound.opening.lane partition lane found
    rcases lookup_modify there present with ⟨rfl, rfl⟩ | ⟨-, present⟩
    · exact (exits.own _ before there).filter _
    · exact exits.own delivery held present
  · intro other lane' present
    obtain ⟨-, present⟩ := lookup_erase present
    exact exits.committed other lane' present
  · change ∀ other ∈ done ++ (r.retired ++ [partition]), r.Clean other
    rw [← List.append_assoc]
    intro other member
    rcases List.mem_append.mp member with member | last
    · exact exits.clean other member
    · rw [List.mem_singleton.mp last]
      exact ⟨watermark, terminal, exits.committed partition lane found ▸ committed⟩

/-- A delivery is let go of with its lanes. -/
theorem exits_release (exits : Exits away done r) (sound : Sound r) (delivery : Nat) :
    Exits away done (r.release delivery) := by
  unfold release
  split
  · exact exits
  · rename_i held found
    -- every lane of the delivery is in the lane map
    have all : held.lanes.filter (fun partition => r.lanes.contains partition) = held.lanes := by
      refine List.filter_eq_self.mpr fun partition member => ?_
      obtain ⟨lane, there, -⟩ := sound.opening.held delivery held found partition member
      rw [TreeMap.contains_eq_isSome_getElem?, there]
      rfl
    rw [all]
    have lists : ((away ++ (r.revoked ++ held.lanes)) ++ (done ++ r.retired)).Perm
        (((away ++ r.revoked) ++ (done ++ r.retired)) ++ held.lanes) := by
      simp only [List.append_assoc]
      refine List.Perm.append_left _ (List.Perm.append_left _ ?_)
      rw [← List.append_assoc done]
      exact List.perm_append_comm
    have lookup : ∀ other : PartitionId, (held.lanes.foldl (fun lanes partition =>
        lanes.erase partition) r.lanes)[other]? =
          if other ∈ held.lanes then none else r.lanes[other]? :=
      fun other => getElem?_eraseAll held.lanes other r.lanes
    refine ⟨?_, ?_, ?_, ?_, exits.unopened, exits.clean⟩
    · refine lists.nodup_iff.mpr
        (List.nodup_append.mpr ⟨exits.distinct, exits.own delivery held found, ?_⟩)
      rintro partition member _ leaves rfl
      obtain ⟨lane, there, -⟩ := sound.opening.held delivery held found partition leaves
      have gone := (exits.left partition member).2
      rw [there] at gone
      cases gone
    · intro partition member
      change _ < r.nextLane ∧ (held.lanes.foldl (fun lanes partition => lanes.erase partition)
        r.lanes)[partition]? = none
      rw [lookup]
      rcases List.mem_append.mp (lists.subset member) with member | leaves
      · refine ⟨(exits.left partition member).1, ?_⟩
        split
        · rfl
        · exact (exits.left partition member).2
      · obtain ⟨lane, there, -⟩ := sound.opening.held delivery held found partition leaves
        exact ⟨lane_opened sound there, if_pos leaves⟩
    · intro other before present
      obtain ⟨-, present⟩ := lookup_erase present
      exact exits.own other before present
    · intro other lane present
      change (held.lanes.foldl (fun lanes partition => lanes.erase partition) r.lanes)[other]? =
        some lane at present
      rw [lookup] at present
      split at present
      · cases present
      · exact exits.committed other lane present

/-- A lane opens. -/
theorem Exits.openPart (exits : Exits away done r) (sound : Sound r) {delivery : Nat}
    {held : HeldUnit} (found : r.deliveries[delivery]? = some held) (part : Part)
    (pending : List Cursor) : Exits away done (r.openPart delivery part pending) := by
  unfold UnitReader.openPart
  rw [expectHeld_found found]
  refine Exits.record ?_ rfl
  refine ⟨exits.distinct, ?_, ?_, ?_, ?_, exits.clean⟩
  · intro partition member
    obtain ⟨opened, gone⟩ := exits.left partition member
    refine ⟨Nat.lt_succ_of_lt opened, ?_⟩
    change (r.lanes.insert r.nextLane _)[partition]? = none
    rw [insert_other (Nat.ne_of_lt opened)]
    exact gone
  · intro other held' present
    rcases lookup_modify found present with ⟨rfl, rfl⟩ | ⟨-, present⟩
    · refine List.nodup_append.mpr ⟨exits.own _ held found, List.nodup_singleton _, ?_⟩
      rintro partition member _ last rfl
      obtain ⟨lane, there, -⟩ := sound.opening.held _ held found partition member
      have opened := lane_opened sound there
      rw [List.mem_singleton.mp last] at opened
      exact absurd opened (Nat.lt_irrefl _)
    · exact exits.own other held' present
  · intro partition lane present
    change _ = lastCommit r.history partition
    rcases lookup_insert present with ⟨rfl, rfl⟩ | ⟨-, present⟩
    · exact (exits.unopened _ (Nat.le_refl _)).symm
    · exact exits.committed partition lane present
  · intro partition later
    exact exits.unopened partition (Nat.le_of_succ_le later)

/-- A watermark is committed. -/
theorem Exits.noteCommit (exits : Exits away done r) (sound : Sound r) {partition : PartitionId}
    (found : r.lanes[partition]? = some lane) (watermark : Int) :
    Exits away done (r.noteCommit partition lane watermark) := by
  have same : (r.noteCommit partition lane watermark).history =
      r.history ++ [.committed partition watermark] := history_record _ _
  have other : ∀ other, other ≠ partition →
      lastCommit (r.noteCommit partition lane watermark).history other =
        lastCommit r.history other := by
    intro other different
    rw [same]
    refine lastCommit_append fun happening member committed is => ?_
    rw [List.mem_singleton.mp member] at is
    exact different (Prod.mk.inj (Option.some.inj is)).1.symm
  have gone : ∀ left ∈ (away ++ r.revoked) ++ (done ++ r.retired), left ≠ partition := by
    rintro _ member rfl
    have none := (exits.left _ member).2
    rw [found] at none
    cases none
  refine ⟨exits.distinct, ?_, exits.own, ?_, ?_, ?_⟩
  · intro left member
    refine ⟨(exits.left left member).1, ?_⟩
    change (r.lanes.insert partition _)[left]? = none
    rw [insert_other (gone left member)]
    exact (exits.left left member).2
  · intro named present there
    rcases lookup_insert there with ⟨rfl, rfl⟩ | ⟨different, there⟩
    · rw [same, lastCommit_last]
    · rw [other named different]
      exact exits.committed named present there
  · intro named later
    have different : named ≠ partition := by
      rintro rfl
      exact absurd (lane_opened sound found) (Nat.not_lt.mpr later)
    rw [other named different]
    exact exits.unopened named later
  · intro named member
    exact (exits.clean named member).keep (fun _ set => set)
      (other named (gone named (List.mem_append_right _ member)))

theorem exits_act (exits : Exits away done r) (sound : Sound r) (act : Act r next) :
    Exits away done next := by
  cases act with
  | lane event => exact exits_laneEvent exits event
  | @report partition report rest queued =>
    have popped : Exits away done { r with channel := rest } :=
      exits.same rfl rfl rfl rfl (fun delivery held found => .inr ⟨held, found, rfl⟩)
        (fun _ _ set => set) (List.append_nil _).symm (by simp)
    exact exits_readReport popped partition report
  | confirmed | refused => exact (exits.record rfl).setHeld _ fun _ => rfl
  | retire found terminal committed read => exact exits.retire sound found terminal committed
  | request _ _ names => exact exits.record (commits_of_names names)
  | settle found due names =>
    exact exits_release (exits.record (commits_of_names names))
      (sound_request sound found due names) _
  | openPart room found => exact exits.openPart sound found _ _
  | committed found watermark => exact exits.noteCommit sound found watermark
  | hint partition =>
    refine ⟨exits.distinct, ?_, exits.own, ?_, exits.unopened, exits.clean⟩
    · intro left member
      obtain ⟨opened, gone⟩ := exits.left left member
      refine ⟨opened, ?_⟩
      change (r.lanes.modify partition _)[left]? = none
      by_cases same : left = partition
      · rw [same, TreeMap.getElem?_modify_self, ← same, gone]
        rfl
      · rw [modify_other same, gone]
    · intro named lane found
      change (r.lanes.modify partition _)[named]? = some lane at found
      by_cases same : named = partition
      · rw [same, TreeMap.getElem?_modify_self] at found
        obtain ⟨before, there, rfl⟩ := Option.map_eq_some_iff.mp found
        exact same ▸ exits.committed partition before there
      · rw [modify_other same] at found
        exact exits.committed named lane found
  | left revoked retired fewer less =>
    have kept : ((away ++ revoked) ++ (done ++ retired)).Sublist
        ((away ++ r.revoked) ++ (done ++ r.retired)) :=
      ((List.Sublist.refl _).append fewer).append ((List.Sublist.refl _).append less)
    refine ⟨exits.distinct.sublist kept, ?_, exits.own, exits.committed, exits.unopened, ?_⟩
    · exact fun partition member => exits.left partition (kept.subset member)
    · exact fun partition member =>
        exits.clean partition (((List.Sublist.refl _).append less).subset member)
  | neutral same history silent =>
    have deliveries : next.deliveries = r.deliveries := congrArg Holdings.deliveries same
    have threads : next.threads = r.threads := congrArg Holdings.threads same
    refine exits.same (congrArg Holdings.revoked same) (congrArg Holdings.retired same)
      (congrArg Holdings.nextLane same) (congrArg Holdings.lanes same)
      (fun delivery held found => .inr ⟨held, deliveries ▸ found, rfl⟩)
      (fun _ _ set => threads ▸ set) history
      fun happening member => commits_of_neutral (silent happening member)

theorem exits_deed {lossy stops : Bool} {before after : Multiset Nat × UnitReader}
    (deed : Deed lossy stops before after) (sound : Sound before.2)
    (exits : Exits away done before.2) : Exits away done after.2 := by
  cases deed with
  | act act => exact exits_act exits sound act
  | release hand r delivery => exact exits_release exits sound delivery
  | receive | failed => exact exits.record rfl
  | hold hand r delivery cursors =>
    refine Exits.record ?_ rfl
    refine exits.same rfl rfl rfl rfl (fun other held found => ?_) (fun _ _ set => set)
      (List.append_nil _).symm (by simp)
    rcases lookup_insert found with ⟨-, rfl⟩ | ⟨-, found⟩
    · exact .inl rfl
    · exact .inr ⟨held, found, rfl⟩
  | @later hand r fail reply =>
    exact exits.same rfl rfl rfl rfl (fun delivery held found => .inr ⟨held, found, rfl⟩)
      (fun _ _ set => set) (history_record r (.failed fail.1 reply)) (by simp [Happening.commits])
  | resend hand r =>
    exact exits.same rfl rfl rfl rfl (fun delivery held found => .inr ⟨held, found, rfl⟩)
      (fun _ _ set => set) (List.append_nil _).symm (by simp)
  | lose => exact exits

theorem exits_deeds {lossy stops : Bool} {before after : Multiset Nat × UnitReader}
    (deeds : Deeds lossy stops before after) (sound : Sound before.2)
    (exits : Exits away done before.2) : Exits away done after.2 := by
  induction deeds with
  | refl => exact exits
  | tail earlier deed ih => exact exits_deed deed (sound_deeds earlier sound) ih

end

/-! ## What the polls report -/

end UnitReader

def SourceEvent.revoked : SourceEvent → List PartitionId
  | .lanesRevoked lanes _ => lanes
  | _ => []

def SourceEvent.retired : SourceEvent → List PartitionId
  | .lanesRetired lanes => lanes
  | _ => []

/-- The lanes the event takes away. -/
def SourceEvent.exits (event : SourceEvent) : List PartitionId := event.revoked ++ event.retired

namespace UnitReader

variable (env : Environment)

/-- The event the call reports. -/
def reported (r : UnitReader) : Call → List SourceEvent
  | .pollEvents =>
    match (r.pollEvents env).2 with
    | .ok event => [event]
    | .error _ => []
  | _ => []

def events : List Call → UnitReader → List SourceEvent
  | [], _ => []
  | call :: rest, r => r.reported env call ++ events rest (r.call env call)

/-- The outcome reports no exit. -/
def Quiet (outcome : Except SourceError SourceEvent) : Prop :=
  ∀ event, outcome = .ok event →
    (∀ lanes barrier, event ≠ .lanesRevoked lanes barrier) ∧ ∀ lanes, event ≠ .lanesRetired lanes

theorem quiet_pollIdle (r : UnitReader) : Quiet (r.pollIdle env).2 := by
  unfold pollIdle
  split
  · split <;> rintro event ⟨⟩ <;> exact ⟨nofun, nofun⟩
  · rintro event ⟨⟩
    exact ⟨nofun, nofun⟩

theorem quiet_pollLanes (opened : List PartitionId) (r : UnitReader) :
    Quiet (r.pollLanes env opened).2 := by
  unfold pollLanes
  split
  · rintro event ⟨⟩
    exact ⟨nofun, nofun⟩
  · dsimp only
    split
    · rintro event ⟨⟩
      exact ⟨nofun, nofun⟩
    · exact quiet_pollIdle env _

theorem quiet_pollReceive (r : UnitReader) : Quiet (r.pollReceive env).2 := by
  unfold pollReceive
  dsimp only
  split
  · split
    · rintro event ⟨⟩
    · exact quiet_pollLanes env _ _
  · exact quiet_pollLanes env _ _

section

variable {away done : List PartitionId} {r : UnitReader}

theorem exits_acts {next : UnitReader} (exits : Exits away done r) (sound : Sound r)
    (acts : Acts r next) : Exits away done next := by
  have deeds : Deeds false false (0, r) (0, next) := acts.deeds
  exact exits_deeds deeds sound exits

/-- Lanes reported as revoked or retired are no longer waiting to be. -/
theorem Exits.report (exits : Exits away done r) (revoked retired : List PartitionId)
    {next : UnitReader} (kept : r.revoked = revoked ++ next.revoked)
    (keeps : r.retired = retired ++ next.retired) (nextLane : next.nextLane = r.nextLane)
    (lanes : next.lanes = r.lanes) (deliveries : next.deliveries = r.deliveries)
    (threads : next.threads = r.threads) (log : next.log = r.log) :
    Exits (away ++ revoked) (done ++ retired) next := by
  have history : next.history = r.history := congrArg (List.map _) log
  have same : (away ++ revoked) ++ next.revoked = away ++ r.revoked := by
    rw [kept, List.append_assoc]
  have alike : (done ++ retired) ++ next.retired = done ++ r.retired := by
    rw [keeps, List.append_assoc]
  refine ⟨?_, ?_, ?_, ?_, ?_, ?_⟩
  · rw [same, alike]
    exact exits.distinct
  · rw [same, alike, nextLane, lanes]
    exact exits.left
  · rw [deliveries]
    exact exits.own
  · rw [lanes, history]
    exact exits.committed
  · rw [nextLane, history]
    exact exits.unopened
  · rw [alike]
    exact fun partition member => (exits.clean partition member).keep
      (fun _ set => threads ▸ set) (by rw [history])

/-- What a poll's outcome says of lanes that leave. -/
structure Reports (away done : List PartitionId)
    (result : UnitReader × Except SourceError SourceEvent) :
    Prop where
  ok : ∀ event, result.2 = .ok event →
    Exits (away ++ event.revoked) (done ++ event.retired) result.1
  error : ∀ error, result.2 = .error error → Exits away done result.1
  barrier : ∀ lanes barrier, result.2 = .ok (.lanesRevoked lanes barrier) → barrier = lanes.length

theorem Quiet.reports {result : UnitReader × Except SourceError SourceEvent}
    (quiet : Quiet result.2)
    (exits : Exits away done result.1) : Reports away done result := by
  refine ⟨fun event ok => ?_, fun _ _ => exits, fun lanes barrier ok => ?_⟩
  · obtain ⟨unrevoked, unretired⟩ := quiet event ok
    have none : event.revoked = [] ∧ event.retired = [] := by
      cases event with
      | lanesRevoked lanes barrier => exact absurd rfl (unrevoked lanes barrier)
      | lanesRetired lanes => exact absurd rfl (unretired lanes)
      | _ => exact ⟨rfl, rfl⟩
    rw [none.1, none.2, List.append_nil, List.append_nil]
    exact exits
  · exact absurd rfl ((quiet _ ok).1 lanes barrier)

theorem reports_pollExits (sound : Sound r) (exits : Exits away done r) :
    Reports away done (r.pollExits env) := by
  have told := acts_busy env r
  unfold pollExits
  generalize (if r.holdsWork then r.busy env else r) = s at told ⊢
  replace exits := exits_acts exits sound told
  dsimp only
  split
  · refine ⟨?_, nofun, ?_⟩
    · rintro event ⟨⟩
      have noted : Exits away done (s.record (.left s.revoked)) := exits.record rfl
      exact noted.report s.revoked [] (List.append_nil _).symm rfl rfl rfl rfl rfl rfl
    · rintro lanes barrier ⟨⟩
      rfl
  · split
    · refine ⟨?_, nofun, nofun⟩
      rintro event ⟨⟩
      have noted : Exits away done (s.record (.left s.retired)) := exits.record rfl
      exact noted.report [] s.retired rfl (List.append_nil _).symm rfl rfl rfl rfl rfl
    · have quiet := quiet_pollReceive env s
      have deeds : Deeds true true (0, s) (0, (s.pollReceive env).1) :=
        (done_pollReceive env s (.inr rfl)).deeds
      generalize s.pollReceive env = result at quiet deeds ⊢
      exact quiet.reports (exits_deeds deeds (sound_acts told sound) exits)

theorem reports_pollEvents (sound : Sound r) (exits : Exits away done r) :
    Reports away done (r.pollEvents env) := by
  have settles : Deeds true true (0, r) (0, (r.settle env).1) :=
    (courses_settle env sound (.inr rfl)).deeds
  unfold pollEvents
  split
  · refine Quiet.reports ?_ (exits_acts exits sound (acts_same (by rfl) (by rfl)))
    rintro event ⟨⟩
    exact ⟨nofun, nofun⟩
  · split <;> rename_i result <;> rw [result] at settles
    · exact ⟨nofun, fun _ _ => exits_deeds settles sound exits, nofun⟩
    · exact reports_pollExits env (sound_deeds settles sound) (exits_deeds settles sound exits)

theorem exits_call (sound : Sound r) (exits : Exits away done r) (call : Call) :
    Exits (away ++ (r.reported env call).flatMap SourceEvent.revoked)
      (done ++ (r.reported env call).flatMap SourceEvent.retired) (r.call env call) ∧
    ∀ lanes barrier, .lanesRevoked lanes barrier ∈ r.reported env call →
      barrier = lanes.length := by
  have deeds := deeds_call env sound call
  have other : r.reported env call = [] →
      Exits (away ++ (r.reported env call).flatMap SourceEvent.revoked)
        (done ++ (r.reported env call).flatMap SourceEvent.retired) (r.call env call) ∧
      ∀ lanes barrier, .lanesRevoked lanes barrier ∈ r.reported env call →
        barrier = lanes.length := by
    intro none
    rw [none]
    simpa using exits_deeds deeds sound exits
  cases call with
  | pollEvents =>
    obtain ⟨ok, error, barrier⟩ := reports_pollEvents env sound exits
    cases outcome : (r.pollEvents env).2 with
    | error error => exact other (by simp [reported, outcome])
    | ok event =>
      have is : r.reported env .pollEvents = [event] := by simp [reported, outcome]
      rw [is]
      have exits := ok event outcome
      refine ⟨by simpa [call] using exits, fun lanes size member => ?_⟩
      rw [← List.mem_singleton.mp member] at outcome
      exact barrier lanes size outcome
  | _ => exact other rfl

theorem exits_calls (calls : List Call) : ∀ {r : UnitReader} {away done : List PartitionId},
    Sound r → Exits away done r →
    Exits (away ++ (events env calls r).flatMap SourceEvent.revoked)
      (done ++ (events env calls r).flatMap SourceEvent.retired) (calls.foldl (call env) r) ∧
    ∀ lanes barrier, .lanesRevoked lanes barrier ∈ events env calls r → barrier = lanes.length := by
  induction calls with
  | nil =>
    intro r away done _ exits
    simpa [events] using exits
  | cons first rest ih =>
    intro r away done sound exits
    obtain ⟨after, barrier⟩ := exits_call env sound exits first
    obtain ⟨last, barriers⟩ := ih (sound_call env sound first) after
    rw [events, List.flatMap_append, List.flatMap_append, ← List.append_assoc, ← List.append_assoc]
    refine ⟨last, fun lanes size member => ?_⟩
    rcases List.mem_append.mp member with member | member
    · exact barrier lanes size member
    · exact barriers lanes size member

end

end UnitReader

end Spate.S3
