import Mathlib.Data.List.Chain
import Spate.Core
import Spate.Transition

set_option autoImplicit false

/- When a bounded job on a feed has read all of its work (`feed/end_check.rs`).
Instants and durations are numbers of nanoseconds. What only logs read is left
out. -/
namespace Spate.Feed

inductive FeedErrorKind
  | gone
  | refused
  | retryable
  | fatal
  deriving DecidableEq

structure FeedError where
  kind : FeedErrorKind
  reason : String
  deriving DecidableEq

def FeedError.errorClass (error : FeedError) : ErrorClass :=
  match error.kind with
  | .retryable => .retryable
  | .gone | .refused | .fatal => .fatal

structure Depth where
  what : String
  visible : Nat
  delayed : Nat
  inFlight : Nat
  unsent : Nat
  approximate : Bool
  deriving DecidableEq

/-- A reading with every count zero. -/
def Depth.new (what : String) (approximate : Bool) : Depth := ⟨what, 0, 0, 0, 0, approximate⟩

def Depth.isEmpty (depth : Depth) : Bool :=
  depth.visible = 0 ∧ depth.delayed = 0 ∧ depth.inFlight = 0 ∧ depth.unsent = 0

inductive DepthOf
  | feed
  | deadLetters
  deriving DecidableEq

inductive DepthRead
  | ok (depth : Depth)
  | err (error : FeedError)
  deriving DecidableEq

def endCheckInterval : Nat := 20 * 1000000000

def readEvery : Nat := 15 * 1000000000

inductive MarkerRead
  | present (run : String)
  | absent
  | failed
  deriving DecidableEq

inductive EndOutcome
  | completed
  | stalled (depth : Depth)
  | failed (error : FeedError)
  deriving DecidableEq

inductive EndAction
  | wait (due : Option Nat)
  | readMarker
  | readDepth (of : DepthOf)
  | receive
  | ended (outcome : EndOutcome)
  deriving DecidableEq

inductive EndRead
  | marker
  | depth (of : DepthOf)
  | receive
  deriving DecidableEq

def EndRead.action : EndRead → EndAction
  | .marker => .readMarker
  | .depth of => .readDepth of
  | .receive => .receive

inductive EndPhase
  | opening (due : Nat)
  | window (run : String) (start : Option Nat) (last due : Nat)
  | closing (run : String)
  | receiving
  | deadLetters (due : Nat)
  | ended (outcome : EndOutcome)
  deriving DecidableEq

structure EndCheck where
  /-- `none` on an exact check. -/
  window : Option Nat
  phase : EndPhase
  pending : Option (EndRead × Nat)
  lastRequest : Option Nat
  deriving DecidableEq

namespace EndCheck

def windowed (window now : Nat) : EndCheck := ⟨some window, .opening now, none, none⟩

def exact (now : Nat) : EndCheck := ⟨none, .opening now, none, none⟩

def reopen (c : EndCheck) (due : Nat) : EndCheck := { c with phase := .opening due }

/-- A window whose last read is too long ago is reopened before the next read. -/
def expire (c : EndCheck) (now : Nat) : EndCheck :=
  match c.phase with
  | .window _ _ last _ => if last + endCheckInterval < now then c.reopen now else c
  | _ => c

/-- The read a phase asks for at `now`, or what to answer instead. -/
def wanted (c : EndCheck) (now : Nat) : EndRead ⊕ EndAction :=
  match c.phase with
  | .ended outcome => .inr (.ended outcome)
  | .opening due =>
    if now < due then .inr (.wait (some due))
    else if c.window = none then .inl (.depth .feed) else .inl .marker
  | .window _ _ _ due => if now < due then .inr (.wait (some due)) else .inl (.depth .feed)
  | .closing _ => .inl .marker
  | .receiving => .inl .receive
  | .deadLetters due =>
    if now < due then .inr (.wait (some due)) else .inl (.depth .deadLetters)

def next (c : EndCheck) (now : Nat) : EndCheck × EndAction :=
  match c.pending with
  | some _ => (c, .wait none)
  | none =>
    let c := c.expire now
    match c.wanted now with
    | .inr action => (c, action)
    | .inl read =>
      ({ c with
          pending := some (read, now)
          lastRequest :=
            match read with
            | .marker | .depth .feed => some now
            | _ => c.lastRequest },
        read.action)

/-- Takes the outstanding read if it is `read`, with the instant of its request. -/
def takePending (c : EndCheck) (read : EndRead) : Option (EndCheck × Nat) :=
  match c.pending with
  | some (pending, requested) =>
    if pending = read then some ({ c with pending := none }, requested) else none
  | none => none

/-- What an answer to a marker read requested at `requested` does. -/
def markerAnswer (c : EndCheck) (requested now : Nat) (read : MarkerRead) : EndCheck :=
  if requested + endCheckInterval < now then c.reopen now
  else
    match read with
    | .present seen =>
      if c.phase = .closing seen then { c with phase := .receiving }
      else { c with phase := .window seen none requested now }
    | .absent | .failed => c.reopen (requested + readEvery)

def markerRead (c : EndCheck) (now : Nat) (read : MarkerRead) : EndCheck :=
  match c.takePending .marker with
  | some (c, requested) => c.markerAnswer requested now read
  | none => c

def advance (c : EndCheck) (requested : Nat) : EndCheck :=
  match c.phase, c.window with
  | .opening _, none => { c with phase := .receiving }
  | .window run start _ _, some window =>
    let start := start.getD requested
    if start + window ≤ requested then { c with phase := .closing run }
    else { c with phase := .window run (some start) requested (requested + readEvery) }
  | _, _ => c

/-- What an answer to a depth read requested at `requested` does. -/
def depthAnswer (c : EndCheck) (of : DepthOf) (requested now : Nat) (read : DepthRead) :
    EndCheck :=
  let due := requested + readEvery
  match read with
  | .err error =>
    if error.errorClass = .fatal then { c with phase := .ended (.failed error) }
    else
      match of with
      | .deadLetters => { c with phase := .deadLetters due }
      | .feed => c.reopen due
  | .ok depth =>
    match of with
    | .deadLetters =>
      { c with phase := .ended (if depth.isEmpty then .completed else .stalled depth) }
    | .feed =>
      if !depth.isEmpty then c.reopen due
      else if c.window.isSome ∧ requested + endCheckInterval < now then c.reopen now
      else c.advance requested

def depthRead (c : EndCheck) (now : Nat) (read : DepthRead) : EndCheck :=
  match c.pending with
  | some (.depth of, requested) =>
    ({ c with pending := none } : EndCheck).depthAnswer of requested now read
  | _ => c

def restart (c : EndCheck) (now : Nat) : EndCheck :=
  match c.phase with
  | .ended _ => c
  | _ =>
    let due :=
      match c.window, c.lastRequest with
      | some _, some last => max (last + readEvery) now
      | _, _ => now
    { c with pending := none, phase := .opening due }

def received (c : EndCheck) (now : Nat) (took : Bool) : EndCheck :=
  match c.takePending .receive with
  | some (c, _) => if took then c.restart now else { c with phase := .deadLetters now }
  | none => c

def outcome (c : EndCheck) : Option EndOutcome :=
  match c.phase with
  | .ended outcome => some outcome
  | _ => none

end EndCheck

/-- A read that was asked for and answered, with the instants of its request and its
answer, or a restart. -/
inductive EndEntry
  | marker (requested answered : Nat) (read : MarkerRead)
  | depth (of : DepthOf) (requested answered : Nat) (read : DepthRead)
  | receive (requested answered : Nat) (took : Bool)
  | restart (now : Nat)
  deriving DecidableEq

def EndEntry.requested : EndEntry → Nat
  | .marker requested _ _ | .depth _ requested _ _ | .receive requested _ _ => requested
  | .restart now => now

def EndEntry.answered : EndEntry → Nat
  | .marker _ answered _ | .depth _ _ answered _ | .receive _ answered _ => answered
  | .restart now => now

structure Watch where
  check : EndCheck
  clock : Nat
  log : List EndEntry
  deriving DecidableEq

inductive EndCall
  | next (now : Nat)
  | markerRead (now : Nat) (read : MarkerRead)
  | depthRead (now : Nat) (read : DepthRead)
  | received (now : Nat) (took : Bool)
  | restart (now : Nat)
  deriving DecidableEq

def EndCall.instant : EndCall → Nat
  | .next now | .markerRead now _ | .depthRead now _ | .received now _ | .restart now => now

namespace Watch

def new (check : EndCheck) (now : Nat) : Watch := ⟨check, now, []⟩

def perform (c : EndCheck) : EndCall → EndCheck
  | .next now => (c.next now).1
  | .markerRead now read => c.markerRead now read
  | .depthRead now read => c.depthRead now read
  | .received now took => c.received now took
  | .restart now => c.restart now

/-- What a call adds to the history. An answer nothing asked for is ignored. -/
def entry (c : EndCheck) : EndCall → Option EndEntry
  | .next _ => none
  | .markerRead now read => (c.takePending .marker).map fun taken => .marker taken.2 now read
  | .depthRead now read =>
    match c.pending with
    | some (.depth of, requested) => some (.depth of requested now read)
    | _ => none
  | .received now took => (c.takePending .receive).map fun taken => .receive taken.2 now took
  | .restart now => some (.restart now)

/-- Instants never decrease. -/
def step (s : Watch) (call : EndCall) : Option Watch :=
  if s.clock ≤ call.instant then
    some ⟨perform s.check call, call.instant, s.log ++ (entry s.check call).toList⟩
  else none

end Watch

/-- The history ends with a read of `run`'s marker and then empty, timely reads of the
feed: the first of them at `start`, the last read of all at `last`. -/
inductive Opened (run : String) : List EndEntry → Option Nat → Nat → Prop
  | marker {log : List EndEntry} {requested answered : Nat}
      (timely : answered ≤ requested + endCheckInterval) :
      Opened run (log ++ [.marker requested answered (.present run)]) none requested
  | feed {log : List EndEntry} {start : Option Nat} {last requested answered : Nat}
      {depth : Depth} (earlier : Opened run log start last)
      (gap : requested ≤ last + endCheckInterval)
      (timely : answered ≤ requested + endCheckInterval) (empty : depth.isEmpty) :
      Opened run (log ++ [.depth .feed requested answered (.ok depth)])
        (some (start.getD requested)) requested

/-- The feed was seen empty over the window, or once by an exact check. -/
inductive Passed : Option Nat → List EndEntry → Prop
  | windowed {window start last requested answered : Nat} {run : String} {log : List EndEntry}
      (opened : Opened run log (some start) last) (spans : start + window ≤ last)
      (timely : answered ≤ requested + endCheckInterval) :
      Passed (some window) (log ++ [.marker requested answered (.present run)])
  | exact {log : List EndEntry} {requested answered : Nat} {depth : Depth}
      (empty : depth.isEmpty) :
      Passed none (log ++ [.depth .feed requested answered (.ok depth)])

/-- Then a receive took nothing, and reads of the dead letters may have failed. -/
inductive Drained (window : Option Nat) : List EndEntry → Prop
  | received {log : List EndEntry} {requested answered : Nat} (passed : Passed window log) :
      Drained window (log ++ [.receive requested answered false])
  | retry {log : List EndEntry} {requested answered : Nat} {error : FeedError}
      (earlier : Drained window log) (retryable : error.errorClass ≠ .fatal) :
      Drained window (log ++ [.depth .deadLetters requested answered (.err error)])

/-- The last read decided the outcome. -/
inductive Decided (window : Option Nat) : EndOutcome → List EndEntry → Prop
  | read {log : List EndEntry} {requested answered : Nat} {depth : Depth}
      (drained : Drained window log) :
      Decided window (if depth.isEmpty then .completed else .stalled depth)
        (log ++ [.depth .deadLetters requested answered (.ok depth)])
  | failed {log : List EndEntry} {of : DepthOf} {requested answered : Nat} {error : FeedError} :
      Decided window (.failed error) (log ++ [.depth of requested answered (.err error)])

/-- What the history says in each phase. -/
def Supported (window : Option Nat) : EndPhase → List EndEntry → Prop
  | .opening _, _ => True
  | .window run start last _, log => window.isSome ∧ Opened run log start last
  | .closing run, log => ∃ span start last, window = some span ∧
      Opened run log (some start) last ∧ start + span ≤ last
  | .receiving, log => Passed window log
  | .deadLetters _, log => Drained window log
  -- an ended check ignores restarts
  | .ended outcome, log => ∃ trace restarts, log = trace ++ restarts ∧
      Decided window outcome trace ∧ ∀ entry ∈ restarts, ∃ now, entry = .restart now

/-- The read a phase may have outstanding. -/
def Asks (window : Option Nat) : EndPhase → EndRead → Nat → Prop
  | .opening _, .marker, _ => window.isSome
  | .opening _, .depth .feed, _ => window = none
  | .window _ _ last _, .depth .feed, requested => requested ≤ last + endCheckInterval
  | .closing _, .marker, _ => True
  | .receiving, .receive, _ => True
  | .deadLetters _, .depth .deadLetters, _ => True
  | _, _, _ => False

namespace Watch

structure Consistent (window : Option Nat) (s : Watch) : Prop where
  mode : s.check.window = window
  supported : Supported window s.check.phase s.log
  /-- An outstanding read was requested after every answer so far. -/
  pending : ∀ read requested, s.check.pending = some (read, requested) →
    Asks window s.check.phase read requested ∧ requested ≤ s.clock ∧
      ∀ entry ∈ s.log, entry.answered ≤ requested
  past : ∀ entry ∈ s.log, entry.answered ≤ s.clock
  ordered : s.log.Pairwise fun earlier later => earlier.answered ≤ later.requested

variable {window : Option Nat} {s : Watch} {now : Nat}

theorem Consistent.silent (consistent : s.Consistent window) (later : s.clock ≤ now)
    {check : EndCheck} (same : check.window = s.check.window)
    (supported : Supported window check.phase s.log)
    (pending : ∀ read requested, check.pending = some (read, requested) →
      Asks window check.phase read requested ∧ requested ≤ now ∧
        ∀ entry ∈ s.log, entry.answered ≤ requested) :
    (⟨check, now, s.log⟩ : Watch).Consistent window where
  mode := same.trans consistent.mode
  supported := supported
  pending := pending
  past entry member := Nat.le_trans (consistent.past entry member) later
  ordered := consistent.ordered

theorem Consistent.logged (consistent : s.Consistent window) (later : s.clock ≤ now)
    (entry : EndEntry) (answered : entry.answered = now)
    (after : ∀ old ∈ s.log, old.answered ≤ entry.requested) {check : EndCheck}
    (same : check.window = s.check.window) (idle : check.pending = none)
    (supported : Supported window check.phase (s.log ++ [entry])) :
    (⟨check, now, s.log ++ [entry]⟩ : Watch).Consistent window where
  mode := same.trans consistent.mode
  supported := supported
  pending read requested outstanding := by
    rw [idle] at outstanding
    cases outstanding
  past old member := by
    rcases List.mem_append.mp member with earlier | new
    · exact Nat.le_trans (consistent.past old earlier) later
    · rw [List.mem_singleton.mp new]
      exact Nat.le_of_eq answered
  ordered := by
    apply List.pairwise_append.mpr
    refine ⟨consistent.ordered, List.pairwise_singleton .., ?_⟩
    intro old member new present
    rw [List.mem_singleton.mp present]
    exact after old member

theorem Consistent.next (consistent : s.Consistent window) (later : s.clock ≤ now) :
    (⟨(s.check.next now).1, now, s.log⟩ : Watch).Consistent window := by
  unfold EndCheck.next
  split
  · refine consistent.silent later rfl consistent.supported ?_
    intro read requested outstanding
    obtain ⟨asks, asked, after⟩ := consistent.pending read requested outstanding
    exact ⟨asks, Nat.le_trans asked later, after⟩
  · rename_i idle
    dsimp only
    -- the phase after the window's expiry is still the history's
    have expired : (s.check.expire now).window = s.check.window ∧
        (s.check.expire now).pending = none ∧
        Supported window (s.check.expire now).phase s.log ∧
        ∀ run start last due, (s.check.expire now).phase = .window run start last due →
          now ≤ last + endCheckInterval := by
      unfold EndCheck.expire
      split
      · rename_i run start last due phase
        split
        · exact ⟨rfl, idle, trivial, nofun⟩
        · rename_i timely
          refine ⟨rfl, idle, consistent.supported, ?_⟩
          intro run' start' last' due' same
          rw [phase] at same
          cases same
          omega
      · rename_i other
        refine ⟨rfl, idle, consistent.supported, ?_⟩
        intro run start last due same
        exact absurd same (other run start last due)
    obtain ⟨same, none, supported, timely⟩ := expired
    split
    · refine consistent.silent later same supported ?_
      intro read requested outstanding
      rw [none] at outstanding
      cases outstanding
    · rename_i read wanted
      refine consistent.silent later same supported ?_
      rintro _ _ ⟨⟩
      refine ⟨?_, Nat.le_refl _, fun entry member =>
        Nat.le_trans (consistent.past entry member) later⟩
      dsimp only
      unfold EndCheck.wanted at wanted
      split at wanted
      · cases wanted
      · rename_i due phase
        rw [phase]
        split at wanted
        · cases wanted
        · split at wanted
          · rename_i exact'
            cases wanted
            exact (same.trans consistent.mode).symm.trans exact'
          · rename_i windowed
            cases wanted
            rw [same, consistent.mode] at windowed
            exact Option.isSome_iff_ne_none.mpr windowed
      · rename_i run start last due phase
        split at wanted
        · cases wanted
        · cases wanted
          rw [phase]
          exact timely run start last due phase
      · rename_i run phase
        cases wanted
        rw [phase]
        trivial
      · rename_i phase
        cases wanted
        rw [phase]
        trivial
      · rename_i due phase
        split at wanted
        · cases wanted
        · cases wanted
          rw [phase]
          trivial

theorem takePending_some {c taken : EndCheck} {read : EndRead} {requested : Nat}
    (took : c.takePending read = some (taken, requested)) :
    c.pending = some (read, requested) ∧ taken = { c with pending := none } := by
  unfold EndCheck.takePending at took
  split at took
  · rename_i pending at' outstanding
    split at took
    · rename_i same
      cases took
      exact ⟨by rw [outstanding, same], rfl⟩
    · cases took
  · cases took

theorem Consistent.marker (consistent : s.Consistent window) (later : s.clock ≤ now)
    {requested : Nat} (asked : s.check.pending = some (.marker, requested)) (read : MarkerRead) :
    (⟨({ s.check with pending := none } : EndCheck).markerAnswer requested now read, now,
      s.log ++ [.marker requested now read]⟩ : Watch).Consistent window := by
  obtain ⟨asks, _, after⟩ := consistent.pending _ _ asked
  have supported := consistent.supported
  unfold EndCheck.markerAnswer
  split
  · exact consistent.logged later (.marker requested now _) rfl after rfl rfl trivial
  · rename_i timely
    split
    · rename_i seen
      split
      · rename_i phase
        refine consistent.logged later (.marker requested now _) rfl after rfl rfl ?_
        dsimp only at phase
        rw [phase] at supported
        obtain ⟨span, start, last, rfl, opened, spans⟩ := supported
        exact .windowed opened spans (by omega)
      · refine consistent.logged later (.marker requested now _) rfl after rfl rfl
          ⟨?_, .marker (by omega)⟩
        cases phase : s.check.phase with
        | opening due =>
          rw [phase] at asks
          exact asks
        | closing run =>
          rw [phase] at supported
          obtain ⟨span, start, last, rfl, _⟩ := supported
          rfl
        | window | receiving | deadLetters | ended =>
          rw [phase] at asks
          exact asks.elim
    · exact consistent.logged later (.marker requested now _) rfl after rfl rfl trivial
    · exact consistent.logged later (.marker requested now _) rfl after rfl rfl trivial

theorem Consistent.depth (consistent : s.Consistent window) (later : s.clock ≤ now)
    {of : DepthOf} {requested : Nat} (asked : s.check.pending = some (.depth of, requested))
    (read : DepthRead) :
    (⟨({ s.check with pending := none } : EndCheck).depthAnswer of requested now read, now,
      s.log ++ [.depth of requested now read]⟩ : Watch).Consistent window := by
  obtain ⟨asks, _, after⟩ := consistent.pending _ _ asked
  have supported := consistent.supported
  unfold EndCheck.depthAnswer
  dsimp only
  split
  · rename_i error
    split
    · exact consistent.logged later _ rfl (by exact after) rfl rfl
        ⟨_, [], (List.append_nil _).symm, .failed, nofun⟩
    · rename_i retryable
      split
      · refine consistent.logged later _ rfl (by exact after) rfl rfl (.retry ?_ retryable)
        cases phase : s.check.phase with
        | deadLetters due => rwa [phase] at supported
        | opening | window | closing | receiving | ended =>
          rw [phase] at asks
          exact asks.elim
      · exact consistent.logged later _ rfl (by exact after) rfl rfl trivial
  · rename_i depth
    split
    · refine consistent.logged later _ rfl (by exact after) rfl rfl
        ⟨_, [], (List.append_nil _).symm, .read ?_, nofun⟩
      cases phase : s.check.phase with
      | deadLetters due => rwa [phase] at supported
      | opening | window | closing | receiving | ended =>
        rw [phase] at asks
        exact asks.elim
    · split
      · exact consistent.logged later _ rfl (by exact after) rfl rfl trivial
      · rename_i empty
        have empty : depth.isEmpty := by simpa using empty
        split
        · exact consistent.logged later _ rfl (by exact after) rfl rfl trivial
        · rename_i timely
          have mode := consistent.mode
          rw [mode] at timely
          unfold EndCheck.advance
          cases phase : s.check.phase with
          | opening due =>
            rw [phase] at asks
            obtain rfl : window = none := asks
            dsimp only
            rw [mode]
            exact consistent.logged later _ rfl (by exact after) mode.symm rfl (.exact empty)
          | window run start last due =>
            rw [phase] at asks supported
            obtain ⟨windowed, opened⟩ := supported
            obtain ⟨span, rfl⟩ := Option.isSome_iff_exists.mp windowed
            have answered : now ≤ requested + endCheckInterval := by
              simp only [Option.isSome_some, true_and] at timely
              omega
            have extended := opened.feed asks answered empty
            dsimp only
            rw [mode]
            dsimp only
            split
            · rename_i spans
              exact consistent.logged later _ rfl (by exact after) mode.symm rfl
                ⟨span, _, _, rfl, extended, spans⟩
            · exact consistent.logged later _ rfl (by exact after) mode.symm rfl ⟨rfl, extended⟩
          | closing | receiving | deadLetters | ended =>
            rw [phase] at asks
            exact asks.elim

theorem Consistent.restart (consistent : s.Consistent window) (later : s.clock ≤ now) :
    (⟨s.check.restart now, now, s.log ++ [.restart now]⟩ : Watch).Consistent window := by
  have after : ∀ old ∈ s.log, old.answered ≤ now :=
    fun old member => Nat.le_trans (consistent.past old member) later
  unfold EndCheck.restart
  split
  · rename_i outcome phase
    have supported := consistent.supported
    rw [phase] at supported
    obtain ⟨trace, restarts, same, decided, only⟩ := supported
    refine consistent.logged later (.restart now) rfl after rfl ?_ ?_
    rotate_left
    · rw [phase]
      refine ⟨trace, restarts ++ [.restart now], by rw [same, List.append_assoc], decided, ?_⟩
      intro entry member
      rcases List.mem_append.mp member with earlier | new
      · exact only entry earlier
      · exact ⟨now, List.mem_singleton.mp new⟩
    cases outstanding : s.check.pending with
    | none => rfl
    | some asked =>
      obtain ⟨asks, _⟩ := consistent.pending asked.1 asked.2 outstanding
      rw [phase] at asks
      exact asks.elim
  · exact consistent.logged later (.restart now) rfl after rfl rfl trivial

theorem Consistent.received (consistent : s.Consistent window) (later : s.clock ≤ now)
    {requested : Nat} (asked : s.check.pending = some (.receive, requested)) (took : Bool) :
    (⟨if took then ({ s.check with pending := none } : EndCheck).restart now
        else { s.check with pending := none, phase := .deadLetters now }, now,
      s.log ++ [.receive requested now took]⟩ : Watch).Consistent window := by
  obtain ⟨asks, _, after⟩ := consistent.pending _ _ asked
  have supported := consistent.supported
  have phase : s.check.phase = .receiving := by
    cases phase : s.check.phase with
    | receiving => rfl
    | opening | window | closing | deadLetters | ended =>
      rw [phase] at asks
      exact asks.elim
  cases took with
  | true =>
    simp only [if_true, EndCheck.restart, phase]
    exact consistent.logged later _ rfl (by exact after) rfl rfl trivial
  | false =>
    rw [phase] at supported
    exact consistent.logged later _ rfl (by exact after) rfl rfl (.received supported)

theorem step_consistent {s s' : Watch} {call : EndCall} (consistent : s.Consistent window)
    (taken : s.step call = some s') : s'.Consistent window := by
  unfold step at taken
  split at taken
  · rename_i later
    cases taken
    have still (same : perform s.check call = s.check) :
        (⟨perform s.check call, call.instant, s.log⟩ : Watch).Consistent window := by
      rw [same]
      refine consistent.silent later rfl consistent.supported ?_
      intro read requested outstanding
      obtain ⟨asks, asked, after⟩ := consistent.pending read requested outstanding
      exact ⟨asks, Nat.le_trans asked later, after⟩
    cases call with
    | next now =>
      simp only [entry, Option.toList_none, List.append_nil]
      exact consistent.next later
    | markerRead now read =>
      cases took : s.check.takePending .marker with
      | none =>
        simp only [entry, took, Option.map_none, Option.toList_none, List.append_nil]
        exact still (by simp only [perform, EndCheck.markerRead, took])
      | some answer =>
        obtain ⟨asked, same⟩ := takePending_some took
        simp only [entry, perform, EndCheck.markerRead, took, same, Option.map_some,
          Option.toList_some]
        exact consistent.marker later asked read
    | depthRead now read =>
      cases asked : s.check.pending with
      | none =>
        simp only [entry, asked, Option.toList_none, List.append_nil]
        exact still (by simp only [perform, EndCheck.depthRead, asked])
      | some outstanding =>
        obtain ⟨read', requested⟩ := outstanding
        cases read' with
        | depth of =>
          simp only [entry, perform, EndCheck.depthRead, asked, Option.toList_some]
          exact consistent.depth later asked read
        | marker | receive =>
          simp only [entry, asked, Option.toList_none, List.append_nil]
          exact still (by simp only [perform, EndCheck.depthRead, asked])
    | received now took =>
      cases took' : s.check.takePending .receive with
      | none =>
        simp only [entry, took', Option.map_none, Option.toList_none, List.append_nil]
        exact still (by simp only [perform, EndCheck.received, took'])
      | some answer =>
        obtain ⟨asked, same⟩ := takePending_some took'
        simp only [entry, perform, EndCheck.received, took', same, Option.map_some,
          Option.toList_some]
        exact consistent.received later asked took
    | restart now => exact consistent.restart later
  · cases taken

end Watch

structure FeedRead where
  requested : Nat
  answered : Nat
  depth : Depth
  deriving DecidableEq

def FeedRead.entry (read : FeedRead) : EndEntry :=
  .depth .feed read.requested read.answered (.ok read.depth)

theorem Opened.reads {run : String} {log : List EndEntry} {start : Option Nat} {last : Nat}
    (opened : Opened run log start last) :
    ∃ before requested answered, ∃ feed : List FeedRead,
      log = before ++ .marker requested answered (.present run) :: feed.map FeedRead.entry ∧
      answered ≤ requested + endCheckInterval ∧
      (∀ read ∈ feed, read.depth.isEmpty ∧ read.answered ≤ read.requested + endCheckInterval) ∧
      (requested :: feed.map (·.requested)).IsChain
        (fun earlier later => later ≤ earlier + endCheckInterval) ∧
      start = feed.head?.map (·.requested) ∧
      (requested :: feed.map (·.requested)).getLast? = some last := by
  induction opened with
  | @marker log requested answered timely =>
    exact ⟨log, requested, answered, [], rfl, timely, nofun, .singleton _, rfl, rfl⟩
  | @feed log start last requested answered depth earlier gap timely empty ih =>
    obtain ⟨before, q, a, feed, same, first, empties, chain, head, tail⟩ := ih
    refine ⟨before, q, a, feed ++ [⟨requested, answered, depth⟩], ?_, first, ?_, ?_, ?_, ?_⟩
    · simp [same, FeedRead.entry]
    · intro read member
      rcases List.mem_append.mp member with old | new
      · exact empties read old
      · rw [List.mem_singleton.mp new]
        exact ⟨empty, timely⟩
    · rw [List.map_append, ← List.cons_append]
      apply List.isChain_append.mpr
      refine ⟨chain, .singleton _, ?_⟩
      intro x inLast y inHead
      rw [tail] at inLast
      cases inLast
      cases inHead
      exact gap
    · rw [head]
      cases feed <;> rfl
    · rw [List.map_append, ← List.cons_append]
      exact List.getLast?_concat

theorem Drained.reads {window : Option Nat} {log : List EndEntry} (drained : Drained window log) :
    ∃ passed requested answered, ∃ retries : List EndEntry,
      log = passed ++ .receive requested answered false :: retries ∧ Passed window passed ∧
      ∀ entry ∈ retries, ∃ asked answered error,
        entry = .depth .deadLetters asked answered (.err error) := by
  induction drained with
  | @received log requested answered passed =>
    exact ⟨log, requested, answered, [], rfl, passed, nofun⟩
  | @retry log requested answered error earlier retryable ih =>
    obtain ⟨before, q, a, retries, same, passed, only⟩ := ih
    refine ⟨before, q, a,
      retries ++ [.depth .deadLetters requested answered (.err error)], ?_, passed, ?_⟩
    · rw [same, List.append_assoc]
      rfl
    · intro entry member
      rcases List.mem_append.mp member with old | new
      · exact only entry old
      · exact ⟨requested, answered, error, List.mem_singleton.mp new⟩

theorem Watch.Consistent.decided {window : Option Nat} {s : Watch} {outcome : EndOutcome}
    (consistent : s.Consistent window) (ended : s.check.outcome = some outcome) :
    ∃ trace restarts, s.log = trace ++ restarts ∧ Decided window outcome trace ∧
      ∀ entry ∈ restarts, ∃ now, entry = .restart now := by
  have supported := consistent.supported
  unfold EndCheck.outcome at ended
  split at ended
  · rename_i phase
    cases ended
    rwa [phase] at supported
  · cases ended

end Spate.Feed
