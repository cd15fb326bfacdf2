import Spate.S3Read
import Spate.Transition

set_option autoImplicit false

/- The fetcher task (`run_fetcher` in `fetch.rs`) with its one window of read-ahead, its
pause gate and the bounded channel to its lane. A step is what the task does between two
of its awaits. -/
namespace Spate.S3

open Spate.Json (Bytes)
open Spate.Transition (Run replay run_of_replay)

inductive Ahead
  | reading (window : WindowRead)
  | read (window : WindowRead) (result : Except SplitFailure Bytes)

def Ahead.window : Ahead → WindowRead
  | .reading window => window
  | .read window _ => window

/-- Where the task is. `ordinal` and `later` are the member in hand and those after it. -/
inductive Ctl
  /-- Before the `ObjectStart` of the next member. -/
  | members (ordinal : Nat) (later : List ObjectEntry)
  | opened (ordinal : Nat) (entry : ObjectEntry) (later : List ObjectEntry)
  /-- Waiting for the window at `pos`, the member's first or one started before. -/
  | take (ordinal : Nat) (entry : ObjectEntry) (later : List ObjectEntry) (etag : String)
      (trim : Option RangeTrim) (pos : Nat) (first : Bool)
  /-- At the pause gate, before the next window is started. -/
  | fed (ordinal : Nat) (entry : ObjectEntry) (later : List ObjectEntry) (etag : String)
      (trim : Option RangeTrim) (following : Nat) (bytes : Bytes)
  | chunks (ordinal : Nat) (entry : ObjectEntry) (later : List ObjectEntry) (etag : String)
      (trim : Option RangeTrim) (following : Nat) (bytes : Bytes)
  | streaming (ordinal : Nat) (later : List ObjectEntry) (pieces : List Bytes)
      (failure : Option SplitFailure)
  | finish (ordinal : Nat) (later : List ObjectEntry)
  | failing (failure : SplitFailure)
  | done
  | failed
  | stopped
  /-- A second window started ahead, or the `unreachable!` of the read loop. -/
  | panicked

structure Fetcher where
  ctl : Ctl
  ahead : Option Ahead
  /-- The pause gate of the send in progress was passed. -/
  passed : Bool
  paused : Bool
  queued : Nat
  closed : Bool
  sent : List ChunkMsg
  asked : List WindowRead

inductive FetchEvent
  | main
  | aheadDone
  | pause (on : Bool)
  | receive
  | close
  deriving DecidableEq

namespace FetcherParams

variable (unit : FetcherParams) (capacity : Nat)

/-- The first window of the next member that has bytes, if it can be read ahead. -/
def nextRead : (ordinal : Nat) → List ObjectEntry → Option WindowRead
  | _, [] => none
  | ordinal, entry :: later =>
    if unit.range.isSome then none
    else if entry.size = 0 then nextRead (ordinal + 1) later
    else
      match entry.etag, unit.objectPath entry with
      | some etag, none =>
        some ⟨ordinal, entry, etag, 0, min (max unit.rangeBytes 1) entry.size⟩
      | _, _ => none

def start : Fetcher where
  ctl := .members unit.startOrdinal (unit.slice.drop unit.startOrdinal)
  ahead := none
  passed := false
  paused := false
  queued := 0
  closed := false
  sent := []
  asked := []

end FetcherParams

namespace Fetcher

variable (unit : FetcherParams) (capacity : Nat)

/-- `tx.send`. It waits for room, and fails when the lane is gone. -/
def send (f : Fetcher) (message : ChunkMsg) (next : Ctl) : Option Fetcher :=
  if f.closed then some { f with ctl := .stopped }
  else if f.queued < capacity then
    some { f with
      ctl := next, passed := false, queued := f.queued + 1, sent := f.sent ++ [message] }
  else none

def gate (f : Fetcher) (go : Fetcher) : Option Fetcher :=
  if f.paused then if f.closed then some { f with ctl := .stopped } else none else some go

/-- `gated_send`: the gate is passed first. -/
def gatedSend (f : Fetcher) (message : ChunkMsg) (next : Ctl) : Option Fetcher :=
  if f.passed then f.send capacity message next else f.gate { f with passed := true }

def startAhead (f : Fetcher) (window : WindowRead) : Fetcher :=
  match f.ahead with
  | some _ => { f with ctl := .panicked }
  | none => { f with ahead := some (.reading window), asked := f.asked ++ [window] }

/-- What a member's window does: it is fed to the trim, or fails the lane. -/
def taken (ordinal : Nat) (entry : ObjectEntry) (later : List ObjectEntry) (etag : String)
    (trim : Option RangeTrim) (pos : Nat) : Except SplitFailure Bytes → Ctl
  | .error failure => .failing failure
  | .ok buffered =>
    .fed ordinal entry later etag (feedWindow trim pos buffered).1 (pos + buffered.length)
      (feedWindow trim pos buffered).2

def opening (ordinal : Nat) (entry : ObjectEntry) (later : List ObjectEntry) : Ctl :=
  match unit.path ordinal entry with
  | .empty => .finish ordinal later
  | .refused failure => .failing failure
  | .ranged etag =>
    .take ordinal entry later etag (unit.trimOf entry)
      (FetcherParams.firstByteOf (unit.trimOf entry)) true
  | .streaming =>
    let reading := unit.streamObjectStreaming ordinal entry
    .streaming ordinal later (reading.pieces.flatMap (chunksOf unit.chunkBytes)) reading.failure

/-- The window read while this one is handed on: the member's own next window, or after
its last the first window of the next member. -/
def planned (ordinal : Nat) (entry : ObjectEntry) (later : List ObjectEntry) (etag : String)
    (trim : Option RangeTrim) (following : Nat) : Option WindowRead :=
  match unit.windowEndOf entry trim following with
  | some stop => some ⟨ordinal, entry, etag, following, stop⟩
  | none => unit.nextRead (ordinal + 1) later

def main (f : Fetcher) : Option Fetcher :=
  match f.ctl with
  | .members _ [] => some { f with ctl := .done }
  | .members ordinal (entry :: later) =>
    f.gatedSend capacity (.objectStart ordinal entry.key entry.lastModifiedMs)
      (.opened ordinal entry later)
  | .opened ordinal entry later => some { f with ctl := opening unit ordinal entry later }
  | .take ordinal entry later etag trim pos first =>
    match f.ahead with
    | some (.reading window) =>
      some { f with
        ctl := taken ordinal entry later etag trim pos (unit.fetch window), ahead := none }
    | some (.read _ result) =>
      some { f with ctl := taken ordinal entry later etag trim pos result, ahead := none }
    | none =>
      if first then
        match unit.windowEndOf entry trim pos with
        | none => some { f with ctl := .finish ordinal later }
        | some stop =>
          let window : WindowRead := ⟨ordinal, entry, etag, pos, stop⟩
          some { f with
            ctl := taken ordinal entry later etag trim pos (unit.fetch window)
            asked := f.asked ++ [window] }
      else some { f with ctl := .panicked }
  | .fed ordinal entry later etag trim following bytes =>
    let handing := { f with ctl := .chunks ordinal entry later etag trim following bytes }
    f.gate
      (match planned unit ordinal entry later etag trim following with
      | some window => handing.startAhead window
      | none => handing)
  | .chunks ordinal entry later etag trim following bytes =>
    if bytes = [] then
      match unit.windowEndOf entry trim following with
      | some _ => some { f with ctl := .take ordinal entry later etag trim following false }
      | none => some { f with ctl := .finish ordinal later }
    else
      f.gatedSend capacity (.chunk (bytes.take unit.chunkBytes))
        (.chunks ordinal entry later etag trim following (bytes.drop unit.chunkBytes))
  | .streaming ordinal later [] none => some { f with ctl := .finish ordinal later }
  | .streaming _ _ [] (some failure) => some { f with ctl := .failing failure }
  | .streaming ordinal later (chunk :: pieces) failure =>
    f.gatedSend capacity (.chunk chunk) (.streaming ordinal later pieces failure)
  | .finish ordinal later => f.send capacity .objectEnd (.members (ordinal + 1) later)
  | .failing failure => f.send capacity (.laneFailed failure) .failed
  | .done | .failed | .stopped | .panicked => none

def step (f : Fetcher) : FetchEvent → Option Fetcher
  | .main => f.main unit capacity
  | .aheadDone =>
    match f.ahead with
    | some (.reading window) => some { f with ahead := some (.read window (unit.fetch window)) }
    | _ => none
  | .pause on => some { f with paused := on }
  | .receive => if 0 < f.queued then some { f with queued := f.queued - 1 } else none
  | .close => some { f with closed := true }

end Fetcher

def Ctl.ended : Ctl → Bool
  | .done | .failed | .stopped | .panicked => true
  | _ => false

section Rest

variable (unit : FetcherParams)

def Ctl.rest : Ctl → List Act
  | .members ordinal later => unit.actsFrom ordinal later
  | .opened ordinal entry later => unit.memberActs ordinal entry (unit.actsFrom (ordinal + 1) later)
  | .take ordinal entry later etag trim pos _ =>
    unit.rangedActs ordinal entry etag trim pos (unit.actsFrom (ordinal + 1) later)
  | .fed ordinal entry later etag trim following bytes
  | .chunks ordinal entry later etag trim following bytes =>
    unit.handed bytes ++
      unit.rangedActs ordinal entry etag trim following (unit.actsFrom (ordinal + 1) later)
  | .streaming ordinal later pieces failure =>
    pieces.map (fun chunk => .send (.chunk chunk)) ++
      FetcherParams.ending failure (unit.actsFrom (ordinal + 1) later)
  | .finish ordinal later => FetcherParams.ending none (unit.actsFrom (ordinal + 1) later)
  | .failing failure => FetcherParams.ending (some failure) []
  | .done | .failed | .stopped | .panicked => []

theorem handed_cons {bytes : Bytes} (nonempty : bytes ≠ []) :
    unit.handed bytes = .send (.chunk (bytes.take unit.chunkBytes)) ::
      unit.handed (bytes.drop unit.chunkBytes) := by
  unfold FetcherParams.handed
  rw [chunksOf_cons unit.chunked nonempty, List.map_cons]

theorem nextRead_head {window : WindowRead} (later : List ObjectEntry) : ∀ ordinal,
    unit.startOrdinal < ordinal → unit.nextRead ordinal later = some window →
      (reads (unit.actsFrom ordinal later)).head? = some window := by
  induction later with
  | nil => exact fun ordinal _ => nofun
  | cons entry later ih =>
    intro ordinal past found
    unfold FetcherParams.nextRead at found
    split at found
    · cases found
    · rename_i whole
      rw [Option.not_isSome_iff_eq_none] at whole
      unfold FetcherParams.actsFrom FetcherParams.memberActs FetcherParams.path
      split at found
      · rename_i empty
        rw [if_pos ⟨empty, whole⟩]
        exact ih (ordinal + 1) (by omega) found
      · rename_i nonempty
        rw [if_neg (fun both => nonempty both.1)]
        have pinned : unit.pinnedEtag ordinal entry = entry.etag :=
          if_neg (fun both => Nat.ne_of_gt past both.1)
        split at found
        · rename_i etag listed addressed
          simp only [pinned, listed, addressed]
          cases found
          rw [rangedActs_eq]
          have trim : unit.trimOf entry = none := by
            unfold FetcherParams.trimOf
            rw [whole, Option.map_none]
          have window : unit.windowEndOf entry none 0 =
              some (min (max unit.rangeBytes 1) entry.size) := by
            unfold FetcherParams.windowEndOf windowEnd
            rw [if_pos (Nat.pos_of_ne_zero nonempty), Nat.zero_add]
          simp only [trim, FetcherParams.firstByteOf, Option.elim_none, window]
          rfl
        · cases found

end Rest

section Moves

variable (unit : FetcherParams) (capacity : Nat)

/-- The sends of the task, each with where it goes on. -/
inductive Ctl.Sends : Ctl → ChunkMsg → Ctl → Prop
  | objectStart (ordinal : Nat) (entry : ObjectEntry) (later : List ObjectEntry) :
      Sends (.members ordinal (entry :: later))
        (.objectStart ordinal entry.key entry.lastModifiedMs) (.opened ordinal entry later)
  | chunk (ordinal : Nat) (entry : ObjectEntry) (later : List ObjectEntry) (etag : String)
      (trim : Option RangeTrim) (following : Nat) {bytes : Bytes} (nonempty : bytes ≠ []) :
      Sends (.chunks ordinal entry later etag trim following bytes)
        (.chunk (bytes.take unit.chunkBytes))
        (.chunks ordinal entry later etag trim following (bytes.drop unit.chunkBytes))
  | piece (ordinal : Nat) (later : List ObjectEntry) (chunk : Bytes) (pieces : List Bytes)
      (failure : Option SplitFailure) :
      Sends (.streaming ordinal later (chunk :: pieces) failure) (.chunk chunk)
        (.streaming ordinal later pieces failure)
  | objectEnd (ordinal : Nat) (later : List ObjectEntry) :
      Sends (.finish ordinal later) .objectEnd (.members (ordinal + 1) later)
  | laneFailed (failure : SplitFailure) : Sends (.failing failure) (.laneFailed failure) .failed

inductive Ctl.Goes (ahead : Bool) : Ctl → Ctl → Prop
  | done (ordinal : Nat) : Goes ahead (.members ordinal []) .done
  | opened (ordinal : Nat) (entry : ObjectEntry) (later : List ObjectEntry) :
      Goes ahead (.opened ordinal entry later) (Fetcher.opening unit ordinal entry later)
  | unread (ordinal : Nat) {entry : ObjectEntry} (later : List ObjectEntry) (etag : String)
      {trim : Option RangeTrim} {pos : Nat} (spent : unit.windowEndOf entry trim pos = none) :
      Goes ahead (.take ordinal entry later etag trim pos true) (.finish ordinal later)
  | next (ordinal : Nat) {entry : ObjectEntry} (later : List ObjectEntry) (etag : String)
      {trim : Option RangeTrim} {following stop : Nat}
      (more : unit.windowEndOf entry trim following = some stop) :
      Goes ahead (.chunks ordinal entry later etag trim following [])
        (.take ordinal entry later etag trim following false)
  | last (ordinal : Nat) {entry : ObjectEntry} (later : List ObjectEntry) (etag : String)
      {trim : Option RangeTrim} {following : Nat}
      (spent : unit.windowEndOf entry trim following = none) :
      Goes ahead (.chunks ordinal entry later etag trim following []) (.finish ordinal later)
  | unplanned (ordinal : Nat) {entry : ObjectEntry} {later : List ObjectEntry} {etag : String}
      {trim : Option RangeTrim} {following : Nat} (bytes : Bytes)
      (nothing : Fetcher.planned unit ordinal entry later etag trim following = none) :
      Goes ahead (.fed ordinal entry later etag trim following bytes)
        (.chunks ordinal entry later etag trim following bytes)
  | streamed (ordinal : Nat) (later : List ObjectEntry) :
      Goes ahead (.streaming ordinal later [] none) (.finish ordinal later)
  | broken (ordinal : Nat) (later : List ObjectEntry) (failure : SplitFailure) :
      Goes ahead (.streaming ordinal later [] (some failure)) (.failing failure)
  | missing (ordinal : Nat) (entry : ObjectEntry) (later : List ObjectEntry) (etag : String)
      (trim : Option RangeTrim) (pos : Nat) (absent : ahead = false) :
      Goes ahead (.take ordinal entry later etag trim pos false) .panicked
  | second (ordinal : Nat) (entry : ObjectEntry) (later : List ObjectEntry) (etag : String)
      (trim : Option RangeTrim) (following : Nat) (bytes : Bytes) (present : ahead = true) :
      Goes ahead (.fed ordinal entry later etag trim following bytes) .panicked

/-- What an await of the read ahead yields. -/
def Ahead.answer : Ahead → Except SplitFailure Bytes
  | .reading window => unit.fetch window
  | .read _ result => result

inductive Move (f : Fetcher) : Fetcher → Prop
  | stop (closed : f.closed = true) (live : f.main unit capacity ≠ none) :
      Move f { f with ctl := .stopped }
  | pass {message : ChunkMsg} {next : Ctl} (waiting : f.passed = false)
      (sending : f.ctl.Sends unit message next) : Move f { f with passed := true }
  | send {message : ChunkMsg} {next : Ctl} (sending : f.ctl.Sends unit message next) :
      Move f { f with
        ctl := next, passed := false, queued := f.queued + 1, sent := f.sent ++ [message] }
  | goes {next : Ctl} (going : f.ctl.Goes unit f.ahead.isSome next) :
      Move f { f with ctl := next }
  | take (ahead : Ahead) {ordinal : Nat} {entry : ObjectEntry} {later : List ObjectEntry}
      {etag : String} {trim : Option RangeTrim} {pos : Nat} {first : Bool}
      (waiting : f.ctl = .take ordinal entry later etag trim pos first)
      (started : f.ahead = some ahead) :
      Move f { f with
        ctl := Fetcher.taken ordinal entry later etag trim pos (ahead.answer unit), ahead := none }
  | read {ordinal : Nat} {entry : ObjectEntry} {later : List ObjectEntry} {etag : String}
      {trim : Option RangeTrim} {pos stop : Nat} {first : Bool}
      (waiting : f.ctl = .take ordinal entry later etag trim pos first)
      (absent : f.ahead = none) (window : unit.windowEndOf entry trim pos = some stop) :
      Move f { f with
        ctl := Fetcher.taken ordinal entry later etag trim pos
          (unit.fetch ⟨ordinal, entry, etag, pos, stop⟩)
        asked := f.asked ++ [⟨ordinal, entry, etag, pos, stop⟩] }
  | start {ordinal : Nat} {entry : ObjectEntry} {later : List ObjectEntry} {etag : String}
      {trim : Option RangeTrim} {following : Nat} {bytes : Bytes} {window : WindowRead}
      (waiting : f.ctl = .fed ordinal entry later etag trim following bytes)
      (absent : f.ahead = none)
      (plan : Fetcher.planned unit ordinal entry later etag trim following = some window) :
      Move f { f with
        ctl := .chunks ordinal entry later etag trim following bytes
        ahead := some (.reading window), asked := f.asked ++ [window] }

variable {unit capacity} {f g : Fetcher}

theorem move_of_send {message : ChunkMsg} {next : Ctl} (sending : f.ctl.Sends unit message next)
    (live : f.main unit capacity ≠ none) (taken : f.send capacity message next = some g) :
    Move unit capacity f g := by
  unfold Fetcher.send at taken
  split at taken
  · rename_i closed
    cases taken
    exact .stop closed live
  · split at taken
    · cases taken
      exact .send sending
    · cases taken

theorem move_of_gatedSend {message : ChunkMsg} {next : Ctl}
    (sending : f.ctl.Sends unit message next) (live : f.main unit capacity ≠ none)
    (taken : f.gatedSend capacity message next = some g) : Move unit capacity f g := by
  unfold Fetcher.gatedSend at taken
  split at taken
  · exact move_of_send sending live taken
  · rename_i waiting
    unfold Fetcher.gate at taken
    split at taken
    · split at taken
      · rename_i closed
        cases taken
        exact .stop closed live
      · cases taken
    · cases taken
      exact .pass (by simpa using waiting) sending

theorem move_of_main (taken : f.main unit capacity = some g) : Move unit capacity f g := by
  have live : f.main unit capacity ≠ none := by
    rw [taken]
    exact nofun
  obtain ⟨ctl, ahead, passed, paused, queued, closed, sent, asked⟩ := f
  unfold Fetcher.main at taken
  dsimp only at taken
  split at taken
  · cases taken
    exact .goes (.done _)
  · exact move_of_gatedSend (.objectStart _ _ _) live taken
  · cases taken
    exact .goes (.opened _ _ _)
  · split at taken
    · rename_i window
      cases taken
      exact .take (.reading window) rfl rfl
    · rename_i window result
      cases taken
      exact .take (.read window result) rfl rfl
    · split at taken
      · rename_i first
        subst first
        split at taken
        · rename_i spent
          cases taken
          exact .goes (.unread _ _ _ spent)
        · rename_i stop window
          cases taken
          exact .read rfl rfl window
      · rename_i other
        cases taken
        simp only [Bool.not_eq_true] at other
        subst other
        exact .goes (.missing _ _ _ _ _ _ rfl)
  · rename_i ordinal entry later etag trim following bytes
    unfold Fetcher.gate at taken
    split at taken
    · split at taken
      · rename_i gone
        cases taken
        exact .stop gone live
      · cases taken
    · split at taken
      · rename_i window plan
        unfold Fetcher.startAhead at taken
        split at taken
        · rename_i present
          cases taken
          exact .goes (.second _ _ _ _ _ _ _ (by rw [present]; rfl))
        · rename_i absent
          cases taken
          exact .start rfl absent plan
      · rename_i nothing
        cases taken
        exact .goes (.unplanned _ _ nothing)
  · split at taken
    · rename_i empty
      subst empty
      split at taken
      · rename_i stop more
        cases taken
        exact .goes (.next _ _ _ more)
      · rename_i spent
        cases taken
        exact .goes (.last _ _ _ spent)
    · rename_i nonempty
      exact move_of_gatedSend (.chunk _ _ _ _ _ _ nonempty) live taken
  · cases taken
    exact .goes (.streamed _ _)
  · cases taken
    exact .goes (.broken _ _ _)
  · exact move_of_gatedSend (.piece _ _ _ _ _) live taken
  · exact move_of_send (.objectEnd _ _) live taken
  · exact move_of_send (.laneFailed _) live taken
  all_goals cases taken

end Moves

section Tracking

variable {unit : FetcherParams} {capacity : Nat} {f g : Fetcher}

variable {ctl next : Ctl} {message : ChunkMsg} {ahead : Bool} {ordinal pos : Nat}
  {entry : ObjectEntry} {etag : String} {trim : Option RangeTrim} {later : List ObjectEntry}
  {done : List Act}

theorem sends_snoc (acts : List Act) (act : Act) :
    sends (acts ++ [act]) = sends acts ++ act.sent?.toList := by
  unfold sends
  rw [List.filterMap_append]
  cases act <;> rfl

theorem reads_snoc (acts : List Act) (act : Act) :
    reads (acts ++ [act]) = reads acts ++ act.read?.toList := by
  unfold reads
  rw [List.filterMap_append]
  cases act <;> rfl

theorem sends_rest (sending : ctl.Sends unit message next) :
    ctl.rest unit = .send message :: next.rest unit := by
  cases sending with
  | objectStart | piece | objectEnd | laneFailed => rfl
  | chunk ordinal entry later etag trim following nonempty =>
    simp only [Ctl.rest, handed_cons unit nonempty, List.cons_append]

theorem goes_rest (going : ctl.Goes unit ahead next) (fine : next ≠ .panicked) :
    ctl.rest unit = next.rest unit := by
  cases going with
  | done | next | unplanned | streamed | broken => rfl
  | opened ordinal entry later =>
    unfold Fetcher.opening
    simp only [Ctl.rest, FetcherParams.memberActs]
    cases unit.path ordinal entry with
    | empty => rfl
    | refused failure => rfl
    | ranged etag => rfl
    | streaming =>
      simp only [List.map_flatMap]
      rfl
  | unread ordinal later etag spent => simp only [Ctl.rest, rangedActs_eq, spent]
  | last ordinal later etag spent => simp only [Ctl.rest, rangedActs_eq, spent]; rfl
  | missing | second => exact absurd rfl fine

theorem taken_rest (later : List ObjectEntry) {stop : Nat} (first : Bool)
    (window : unit.windowEndOf entry trim pos = some stop) :
    (Ctl.take ordinal entry later etag trim pos first).rest unit =
      .read ⟨ordinal, entry, etag, pos, stop⟩ ::
        (Fetcher.taken ordinal entry later etag trim pos
          (unit.fetch ⟨ordinal, entry, etag, pos, stop⟩)).rest unit := by
  simp only [Ctl.rest, rangedActs_eq unit ordinal entry etag trim pos, window]
  cases unit.fetch ⟨ordinal, entry, etag, pos, stop⟩ with
  | error | ok => rfl

/-- What the slot of the read ahead is, by where the task is. -/
def Ctl.Held (unit : FetcherParams) (ahead : Bool) : Ctl → Prop
  | .members ordinal _ | .opened ordinal _ _ | .finish ordinal _ =>
    unit.startOrdinal ≤ ordinal ∧ (unit.range.isSome → ahead = false)
  | .take ordinal entry _ _ trim pos first =>
    unit.startOrdinal ≤ ordinal ∧ (first = false → ahead = true) ∧
      (ahead = true → (unit.windowEndOf entry trim pos).isSome)
  | .fed ordinal _ _ _ _ _ _ => unit.startOrdinal ≤ ordinal ∧ ahead = false
  | .chunks ordinal entry _ _ trim following _ =>
    unit.startOrdinal ≤ ordinal ∧
      (if (unit.windowEndOf entry trim following).isSome then ahead = true
      else unit.range.isSome → ahead = false)
  | .streaming ordinal _ _ _ => unit.startOrdinal ≤ ordinal ∧ unit.range = none
  | .failing _ | .done | .failed | .stopped => True
  | .panicked => False

/-- The task against the sequential reader, which has done `done` and has `rest` to do:
it sent the same messages and started the same reads, and the one ahead of them. -/
structure Tracks (unit : FetcherParams) (f : Fetcher) (done rest : List Act) : Prop where
  whole : done ++ rest = unit.sequential
  live : f.ctl ≠ .stopped → rest = f.ctl.rest unit
  sent : f.sent = sends done
  asked : f.asked = reads done ++ (f.ahead.map Ahead.window).toList
  ahead : ∀ ahead ∈ f.ahead, (reads rest).head? = some ahead.window ∧
    ahead.answer unit = unit.fetch ahead.window
  held : f.ctl.Held unit f.ahead.isSome

theorem start_tracks (unit : FetcherParams) : Tracks unit unit.start [] unit.sequential where
  whole := rfl
  live := fun _ => rfl
  sent := rfl
  asked := rfl
  ahead := nofun
  held := ⟨Nat.le_refl _, fun _ => rfl⟩

theorem sends_held (sending : ctl.Sends unit message next) (held : ctl.Held unit ahead) :
    next.Held unit ahead := by
  cases sending with
  | objectStart | chunk | piece => exact held
  | objectEnd ordinal later => exact ⟨Nat.le_succ_of_le held.1, held.2⟩
  | laneFailed failure => trivial

theorem opening_held (held : (Ctl.opened ordinal entry later).Held unit ahead) :
    (Fetcher.opening unit ordinal entry later).Held unit ahead := by
  obtain ⟨past, unranged⟩ := held
  unfold Fetcher.opening
  cases same : unit.path ordinal entry with
  | empty => exact ⟨past, unranged⟩
  | refused failure => trivial
  | ranged etag =>
    refine ⟨past, nofun, fun present => ?_⟩
    -- a window is ahead only in a unit of whole objects, and this one has bytes
    have whole : unit.range = none := by
      rw [← Option.not_isSome_iff_eq_none]
      intro ranged
      rw [unranged ranged] at present
      cases present
    have nonempty : entry.size ≠ 0 := by
      intro empty
      unfold FetcherParams.path at same
      rw [if_pos ⟨empty, whole⟩] at same
      cases same
    unfold FetcherParams.windowEndOf FetcherParams.trimOf
    rw [whole]
    simp only [Option.map_none, FetcherParams.firstByteOf, Option.elim_none, windowEnd,
      Nat.pos_of_ne_zero nonempty, if_true, Option.isSome_some]
  | streaming =>
    refine ⟨past, ?_⟩
    unfold FetcherParams.path at same
    split at same
    · cases same
    · split at same
      · split at same <;> cases same
      · split at same
        · cases same
        · rename_i whole
          simpa using whole

theorem goes_held (going : ctl.Goes unit ahead next) (held : ctl.Held unit ahead) :
    next.Held unit ahead := by
  cases going with
  | done | broken => trivial
  | opened ordinal entry later => exact opening_held held
  | unread ordinal later etag spent =>
    obtain ⟨past, _, window⟩ := held
    refine ⟨past, fun _ => ?_⟩
    rw [spent] at window
    simpa using window
  | next ordinal later etag more =>
    obtain ⟨past, started⟩ := held
    rw [more] at started
    refine ⟨past, fun _ => started, fun _ => ?_⟩
    rw [more]
    rfl
  | last ordinal later etag spent =>
    obtain ⟨past, started⟩ := held
    rw [spent] at started
    exact ⟨past, started⟩
  | unplanned ordinal bytes nothing =>
    obtain ⟨past, absent⟩ := held
    refine ⟨past, ?_⟩
    unfold Fetcher.planned at nothing
    split at nothing
    · cases nothing
    · rename_i spent
      rw [spent]
      exact fun _ => absent
  | streamed ordinal later =>
    obtain ⟨past, whole⟩ := held
    refine ⟨past, fun ranged => ?_⟩
    rw [whole] at ranged
    cases ranged
  | missing ordinal entry later etag trim pos absent =>
    have present := held.2.1 rfl
    rw [absent] at present
    cases present
  | second ordinal entry later etag trim following bytes present =>
    have absent := held.2
    rw [present] at absent
    cases absent

theorem taken_held (past : unit.startOrdinal ≤ ordinal) (window : Except SplitFailure Bytes) :
    (Fetcher.taken ordinal entry later etag trim pos window).Held unit false := by
  cases window with
  | error failure => trivial
  | ok bytes => exact ⟨past, rfl⟩

theorem take_window {rest : List Act} {first : Bool} {ahead : Ahead}
    (tracks : Tracks unit f done rest)
    (waiting : f.ctl = .take ordinal entry later etag trim pos first)
    (started : f.ahead = some ahead) :
    ∃ stop, unit.windowEndOf entry trim pos = some stop ∧
      ahead.window = ⟨ordinal, entry, etag, pos, stop⟩ := by
  have held := tracks.held
  rw [waiting, started] at held
  obtain ⟨_, _, window⟩ := held
  obtain ⟨stop, window⟩ := Option.isSome_iff_exists.mp (window rfl)
  refine ⟨stop, window, ?_⟩
  have same := tracks.live (by rw [waiting]; exact nofun)
  rw [waiting, taken_rest later first window] at same
  have next := (tracks.ahead ahead started).1
  rw [same] at next
  exact (Option.some.inj next).symm

theorem planned_head {following : Nat} {bytes : Bytes} {window : WindowRead}
    (past : unit.startOrdinal ≤ ordinal)
    (plan : Fetcher.planned unit ordinal entry later etag trim following = some window) :
    (reads ((Ctl.chunks ordinal entry later etag trim following bytes).rest unit)).head? =
      some window := by
  have silent : reads (unit.handed bytes) = [] := by
    unfold reads FetcherParams.handed
    rw [List.filterMap_map]
    exact List.filterMap_eq_nil_iff.mpr fun _ _ => rfl
  have split (later : List Act) : reads (unit.handed bytes ++ later) = reads later := by
    unfold reads at silent ⊢
    rw [List.filterMap_append, silent, List.nil_append]
  simp only [Ctl.rest]
  rw [split, rangedActs_eq]
  unfold Fetcher.planned at plan
  cases own : unit.windowEndOf entry trim following with
  | some stop =>
    rw [own] at plan
    cases plan
    rfl
  | none =>
    rw [own] at plan
    exact nextRead_head unit later (ordinal + 1) (by omega) plan

theorem move_tracks {rest : List Act} (move : Move unit capacity f g)
    (tracks : Tracks unit f done rest) : ∃ done rest, Tracks unit g done rest := by
  obtain ⟨whole, live, sent, asked, ahead, held⟩ := tracks
  cases move with
  | stop closed moving =>
    exact ⟨done, rest, whole, fun moving => absurd rfl moving, sent, asked, ahead, trivial⟩
  | pass waiting sending => exact ⟨done, rest, whole, live, sent, asked, ahead, held⟩
  | @send message next sending =>
    have same : rest = .send message :: next.rest unit := by
      rw [← sends_rest sending]
      apply live
      rintro stopped
      rw [stopped] at sending
      cases sending
    rw [same] at whole ahead
    refine ⟨done ++ [.send message], next.rest unit, ?_, fun _ => rfl, ?_, ?_, ahead,
      sends_held sending held⟩
    · rw [List.append_assoc]
      exact whole
    · change f.sent ++ [message] = _
      rw [sent, sends_snoc]
      rfl
    · rw [reads_snoc]
      change f.asked = _
      rw [asked]
      simp only [Act.read?, Option.toList_none, List.append_nil]
  | @goes next going =>
    have kept := goes_held going held
    have same : rest = next.rest unit := by
      rw [← goes_rest going (fun panicked => by rw [panicked] at kept; exact kept)]
      apply live
      rintro stopped
      rw [stopped] at going
      cases going
    exact ⟨done, rest, whole, fun _ => same, sent, asked, ahead, kept⟩
  | @take taken ordinal entry later etag trim pos first waiting started =>
    obtain ⟨stop, window, own⟩ :=
      take_window ⟨whole, live, sent, asked, ahead, held⟩ waiting started
    have same := live (by rw [waiting]; exact nofun)
    rw [waiting, taken_rest later first window] at same
    rw [same] at whole
    rw [started] at asked
    have answer := (ahead taken started).2
    rw [answer, own]
    rw [waiting] at held
    refine ⟨done ++ [.read ⟨ordinal, entry, etag, pos, stop⟩], _, ?_, fun _ => rfl, ?_, ?_, nofun,
      taken_held held.1 _⟩
    · rw [List.append_assoc]
      exact whole
    · rw [sends_snoc]
      change f.sent = _
      rw [sent]
      simp only [Act.sent?, Option.toList_none, List.append_nil]
    · rw [reads_snoc]
      change f.asked = _
      rw [asked, Option.map_some, own]
      simp only [Act.read?, Option.toList_some, Option.map_none, Option.toList_none,
        List.append_nil]
  | @read ordinal entry later etag trim pos stop first waiting absent window =>
    have same := live (by rw [waiting]; exact nofun)
    rw [waiting, taken_rest later first window] at same
    rw [same] at whole
    rw [absent] at asked held
    rw [waiting] at held
    refine ⟨done ++ [.read ⟨ordinal, entry, etag, pos, stop⟩], _, ?_, fun _ => rfl, ?_, ?_, ?_, ?_⟩
    · rw [List.append_assoc]
      exact whole
    · rw [sends_snoc]
      change f.sent = _
      rw [sent]
      simp only [Act.sent?, Option.toList_none, List.append_nil]
    · rw [reads_snoc]
      change f.asked ++ [_] = reads done ++ _ ++ (f.ahead.map Ahead.window).toList
      rw [asked, absent]
      simp only [Act.read?, Option.toList_some, Option.map_none, Option.toList_none,
        List.append_nil]
    · intro other started
      change f.ahead = some other at started
      rw [absent] at started
      cases started
    · change Ctl.Held unit f.ahead.isSome _
      rw [absent]
      exact taken_held held.1 _
  | @start ordinal entry later etag trim following bytes window waiting absent plan =>
    have same := live (by rw [waiting]; exact nofun)
    rw [waiting] at same held
    obtain ⟨past, _⟩ := held
    have next : (reads rest).head? = some window := by
      rw [same]
      exact planned_head past plan
    rw [absent] at asked
    refine ⟨done, rest, whole, fun _ => same, sent, ?_, ?_, past, ?_⟩
    · change f.asked ++ [window] = reads done ++ [window]
      rw [asked]
      simp only [Option.map_none, Option.toList_none, List.append_nil]
    · rintro other ⟨⟩
      exact ⟨next, rfl⟩
    · split
      · rfl
      · rename_i spent
        unfold Fetcher.planned at plan
        split at plan
        · rename_i stop own
          rw [own] at spent
          exact absurd rfl spent
        · intro ranged
          -- nothing is read ahead across the members of a range
          cases later with
          | nil => cases plan
          | cons entry later =>
            unfold FetcherParams.nextRead at plan
            rw [if_pos ranged] at plan
            cases plan

theorem move_stopped (move : Move unit capacity f g) (stopped : g.ctl = .stopped) :
    g.closed = true ∨ f.ctl = .stopped := by
  have reading (ordinal : Nat) (entry : ObjectEntry) (later : List ObjectEntry) (etag : String)
      (trim : Option RangeTrim) (pos : Nat) (window : Except SplitFailure Bytes) :
      Fetcher.taken ordinal entry later etag trim pos window ≠ .stopped := by
    cases window <;> exact nofun
  cases move with
  | stop closed moving => exact .inl closed
  | pass waiting sending => exact .inr stopped
  | send sending =>
    generalize f.ctl = ctl at sending
    cases sending <;> cases stopped
  | goes going =>
    generalize f.ctl = ctl at going
    cases going with
    | opened ordinal entry later =>
      dsimp only at stopped
      unfold Fetcher.opening at stopped
      split at stopped <;> cases stopped
    | _ => cases stopped
  | take | read => exact absurd stopped (reading _ _ _ _ _ _ _)
  | start waiting absent plan => cases stopped

def Ctl.overhead : Ctl → Nat
  | .finish _ _ | .failing _ => 1
  | .members _ _ | .take _ _ _ _ _ _ _ | .streaming _ _ _ _ => 2
  | .opened _ _ _ | .chunks _ _ _ _ _ _ _ => 3
  | .fed _ _ _ _ _ _ _ => 4
  | .done | .failed | .stopped | .panicked => 0

/-- A bound on the steps the task still takes. -/
def Fetcher.cost (unit : FetcherParams) (f : Fetcher) : Nat :=
  if f.ctl.ended then 0
  else 2 * (4 * (f.ctl.rest unit).length + f.ctl.overhead) + if f.passed then 0 else 1

theorem overhead_pos (live : ctl.ended = false) : 0 < ctl.overhead := by
  cases ctl <;> simp_all [Ctl.overhead, Ctl.ended]

theorem sends_overhead (sending : ctl.Sends unit message next) :
    ctl.ended = false ∧ next.overhead < ctl.overhead + 3 := by
  cases sending <;> exact ⟨rfl, by simp [Ctl.overhead]⟩

theorem opening_overhead (ordinal : Nat) (entry : ObjectEntry) (later : List ObjectEntry) :
    (Fetcher.opening unit ordinal entry later).overhead < 3 := by
  unfold Fetcher.opening
  cases unit.path ordinal entry <;> simp [Ctl.overhead]

theorem goes_overhead (going : ctl.Goes unit ahead next) :
    ctl.ended = false ∧ next.overhead < ctl.overhead := by
  cases going with
  | opened ordinal entry later => exact ⟨rfl, opening_overhead ordinal entry later⟩
  | _ => exact ⟨rfl, by simp [Ctl.overhead]⟩

theorem cost_le (f : Fetcher) :
    f.cost unit ≤ 2 * (4 * (f.ctl.rest unit).length + f.ctl.overhead) + 1 := by
  unfold Fetcher.cost
  split
  · omega
  · split <;> omega

theorem le_cost (unit : FetcherParams) {f : Fetcher} (live : f.ctl.ended = false) :
    2 * (4 * (f.ctl.rest unit).length + f.ctl.overhead) ≤ f.cost unit := by
  unfold Fetcher.cost
  rw [live]
  simp only [Bool.false_eq_true, if_false]
  omega

theorem taken_overhead (ordinal : Nat) (entry : ObjectEntry) (later : List ObjectEntry)
    (etag : String) (trim : Option RangeTrim) (pos : Nat) (window : Except SplitFailure Bytes) :
    (Fetcher.taken ordinal entry later etag trim pos window).overhead ≤ 4 := by
  cases window <;> simp [Fetcher.taken, Ctl.overhead]

theorem move_cost {rest : List Act} (move : Move unit capacity f g)
    (tracks : Tracks unit f done rest) : g.cost unit < f.cost unit := by
  cases move with
  | stop closed moving =>
    have live : f.ctl.ended = false := by
      cases same : f.ctl.ended with
      | false => rfl
      | true =>
        refine absurd ?_ moving
        unfold Fetcher.main
        cases ctl : f.ctl <;> rw [ctl] at same <;> first | rfl | cases same
    have bound := le_cost unit live
    have positive := overhead_pos live
    change 0 < f.cost unit
    omega
  | pass waiting sending =>
    have live := (sends_overhead sending).1
    unfold Fetcher.cost
    simp only [live, waiting, Bool.false_eq_true, if_false, if_true]
    omega
  | @send message next sending =>
    obtain ⟨live, less⟩ := sends_overhead sending
    have before := le_cost unit live
    rw [sends_rest sending, List.length_cons] at before
    apply Nat.lt_of_le_of_lt (cost_le _)
    dsimp only
    omega
  | @goes next going =>
    obtain ⟨live, less⟩ := goes_overhead going
    have kept := goes_held going tracks.held
    have same := goes_rest going (fun panicked => by rw [panicked] at kept; exact kept)
    have before := le_cost unit live
    rw [same] at before
    apply Nat.lt_of_le_of_lt (cost_le _)
    dsimp only
    omega
  | @take taken ordinal entry later etag trim pos first waiting started =>
    obtain ⟨stop, window, own⟩ := take_window tracks waiting started
    have before := le_cost unit (f := f) (by rw [waiting]; rfl)
    rw [waiting, taken_rest later first window, List.length_cons] at before
    have answer := (tracks.ahead taken started).2
    have after := taken_overhead ordinal entry later etag trim pos
      (unit.fetch ⟨ordinal, entry, etag, pos, stop⟩)
    rw [answer, own]
    apply Nat.lt_of_le_of_lt (cost_le _)
    simp only [Ctl.overhead] at before
    dsimp only
    omega
  | @read ordinal entry later etag trim pos stop first waiting absent window =>
    have before := le_cost unit (f := f) (by rw [waiting]; rfl)
    rw [waiting, taken_rest later first window, List.length_cons] at before
    have after := taken_overhead ordinal entry later etag trim pos
      (unit.fetch ⟨ordinal, entry, etag, pos, stop⟩)
    apply Nat.lt_of_le_of_lt (cost_le _)
    simp only [Ctl.overhead] at before
    dsimp only
    omega
  | @start ordinal entry later etag trim following bytes window waiting absent plan =>
    unfold Fetcher.cost
    rw [waiting]
    simp only [Ctl.ended, Ctl.rest, Ctl.overhead, Bool.false_eq_true, if_false]
    omega

theorem main_none (blocked : f.main unit capacity = none) :
    f.ctl.ended = true ∨ f.closed = false ∧ (f.paused = true ∨ capacity ≤ f.queued) := by
  have sending (message : ChunkMsg) (next : Ctl) (blocked : f.send capacity message next = none) :
      f.closed = false ∧ (f.paused = true ∨ capacity ≤ f.queued) := by
    unfold Fetcher.send at blocked
    split at blocked
    · cases blocked
    · rename_i opened
      split at blocked
      · cases blocked
      · rename_i full
        exact ⟨by simpa using opened, .inr (by omega)⟩
  have gating (go : Fetcher) (blocked : f.gate go = none) :
      f.closed = false ∧ (f.paused = true ∨ capacity ≤ f.queued) := by
    unfold Fetcher.gate at blocked
    split at blocked
    · rename_i paused
      split at blocked
      · cases blocked
      · rename_i opened
        exact ⟨by simpa using opened, .inl paused⟩
    · cases blocked
  have gated (message : ChunkMsg) (next : Ctl)
      (blocked : f.gatedSend capacity message next = none) :
      f.closed = false ∧ (f.paused = true ∨ capacity ≤ f.queued) := by
    unfold Fetcher.gatedSend at blocked
    split at blocked
    · exact sending _ _ blocked
    · exact gating _ blocked
  unfold Fetcher.main at blocked
  split at blocked
  · cases blocked
  · exact .inr (gated _ _ blocked)
  · cases blocked
  · split at blocked
    · cases blocked
    · cases blocked
    · split at blocked
      · split at blocked <;> cases blocked
      · cases blocked
  · exact .inr (gating _ blocked)
  · split at blocked
    · split at blocked <;> cases blocked
    · exact .inr (gated _ _ blocked)
  · cases blocked
  · cases blocked
  · exact .inr (gated _ _ blocked)
  · exact .inr (sending _ _ blocked)
  · exact .inr (sending _ _ blocked)
  all_goals
    rename_i same
    rw [same]
    exact .inl rfl

/-- Any event keeps the task on the sequential reader's track, and only its own steps,
each nearer the end, change what it costs. -/
theorem step_tracks {rest : List Act} {event : FetchEvent} (tracks : Tracks unit f done rest)
    (taken : f.step unit capacity event = some g) :
    (∃ done rest, Tracks unit g done rest) ∧
      g.cost unit + (if event = .main then 1 else 0) ≤ f.cost unit := by
  obtain ⟨whole, live, sent, asked, ahead, held⟩ := tracks
  cases event with
  | main =>
    have move := move_of_main taken
    have tracks : Tracks unit f done rest := ⟨whole, live, sent, asked, ahead, held⟩
    exact ⟨move_tracks move tracks, move_cost move tracks⟩
  | aheadDone =>
    simp only [Fetcher.step] at taken
    split at taken
    · rename_i window started
      cases taken
      rw [started] at asked ahead held
      refine ⟨⟨done, rest, whole, live, sent, asked, ?_, held⟩, Nat.le_refl _⟩
      rintro other ⟨⟩
      exact ⟨(ahead _ rfl).1, rfl⟩
    · cases taken
  | pause | close =>
    cases taken
    exact ⟨⟨done, rest, whole, live, sent, asked, ahead, held⟩, Nat.le_refl _⟩
  | receive =>
    simp only [Fetcher.step] at taken
    split at taken
    · cases taken
      exact ⟨⟨done, rest, whole, live, sent, asked, ahead, held⟩, Nat.le_refl _⟩
    · cases taken

theorem step_stopped {event : FetchEvent} (taken : f.step unit capacity event = some g)
    (earlier : f.ctl = .stopped → f.closed = true) (stopped : g.ctl = .stopped) :
    g.closed = true := by
  cases event with
  | main =>
    rcases move_stopped (move_of_main taken) stopped with closed | before
    · exact closed
    · simp only [Fetcher.step, Fetcher.main, before] at taken
      cases taken
  | aheadDone | receive =>
    simp only [Fetcher.step] at taken
    split at taken
    · cases taken
      exact earlier stopped
    · cases taken
  | pause on =>
    cases taken
    exact earlier stopped
  | close =>
    cases taken
    rfl

/-- The runs of the fetcher, whatever its lane and the pauses do. -/
def FetcherParams.Reaches (unit : FetcherParams) (capacity : Nat) (events : List FetchEvent)
    (f : Fetcher) : Prop :=
  Run (fun f event => f.step unit capacity event) (fun _ _ => True) unit.start events f

theorem reaches_tracks {events : List FetchEvent} (run : unit.Reaches capacity events f) :
    (∃ done rest, Tracks unit f done rest) ∧
      f.cost unit + events.count .main ≤ unit.start.cost unit := by
  induction run with
  | nil => exact ⟨⟨_, _, start_tracks unit⟩, Nat.le_refl _⟩
  | @snoc events state next event earlier permitted taken ih =>
    obtain ⟨⟨done, rest, tracks⟩, bound⟩ := ih
    obtain ⟨kept, less⟩ := step_tracks tracks taken
    refine ⟨kept, ?_⟩
    rw [List.count_append, List.count_singleton]
    simp only [beq_iff_eq] at less ⊢
    omega

end Tracking

/-- Whatever the lane, the pauses and the reads do, the task sends what a sequential
reader sends and reads what it reads, at most one window ahead of it. -/
theorem read_ahead_invisible (unit : FetcherParams) (capacity : Nat) {events : List FetchEvent}
    {f : Fetcher} (run : unit.Reaches capacity events f) :
    -- the sequential reader
    (∀ object, unit.Contents object → Described unit object unit.startOrdinal
      (unit.slice.drop unit.startOrdinal) (sends unit.sequential)) ∧
    -- where the task is on its way, and the one window ahead
    (∃ done rest, done ++ rest = unit.sequential ∧ f.sent = sends done ∧
      f.asked = reads done ++ (f.ahead.map Ahead.window).toList ∧
      (∀ ahead, f.ahead = some ahead → (reads rest).head? = some ahead.window) ∧
      (f.ctl = .done ∨ f.ctl = .failed → rest = [])) ∧
    (∀ ordinal entry later etag trim pos first ahead,
      f.ctl = .take ordinal entry later etag trim pos first → f.ahead = some ahead →
      ∃ stop, unit.windowEndOf entry trim pos = some stop ∧
        ahead.window = ⟨ordinal, entry, etag, pos, stop⟩) ∧
    f.ctl ≠ .panicked ∧
    -- it ends: its steps are bounded, and it waits only for a pause or for room
    events.count .main ≤ unit.start.cost unit ∧
    (f.main unit capacity = none → f.ctl = .done ∨ f.ctl = .failed ∨
      f.ctl = .stopped ∧ f.closed = true ∨
      f.closed = false ∧ (f.paused = true ∨ capacity ≤ f.queued)) := by
  obtain ⟨⟨done, rest, tracks⟩, bound⟩ := reaches_tracks run
  have fine : f.ctl ≠ .panicked := by
    intro panicked
    have held := tracks.held
    rw [panicked] at held
    exact held
  have gone : f.ctl = .stopped → f.closed = true :=
    Run.invariant (fun f => f.ctl = .stopped → f.closed = true) run nofun
      fun earlier _ taken => step_stopped taken earlier
  refine ⟨fun object contents => actsFrom_described contents _ _ rfl, ?_, ?_, fine, by omega, ?_⟩
  · refine ⟨done, rest, tracks.whole, tracks.sent, tracks.asked,
      fun ahead started => (tracks.ahead ahead started).1, ?_⟩
    rintro (ended | ended)
    all_goals
      have same := tracks.live (by rw [ended]; exact nofun)
      rw [ended] at same
      exact same
  · intro ordinal entry later etag trim pos first ahead waiting started
    exact take_window tracks waiting started
  · intro blocked
    rcases main_none blocked with ended | waits
    · cases same : f.ctl <;> rw [same] at ended fine
      case done => exact .inl rfl
      case failed => exact .inr (.inl rfl)
      case stopped => exact .inr (.inr (.inl ⟨rfl, gone same⟩))
      case panicked => exact absurd rfl fine
      all_goals cases ended
    · exact .inr (.inr (.inr waits))

def threeObjects : Nat → Bytes
  | 0 => [1, 10, 2]
  | 2 => [3, 4]
  | _ => []

def threeMembers : FetcherParams where
  split := "unit"
  store :=
    { get := fun window _ => .ok (slice (threeObjects window.ordinal) window.start window.stop)
      head := fun _ _ => .ok ⟨none, 0, 0⟩
      body := fun ordinal _ => .ok ([threeObjects ordinal], none)
      unaddressable := fun _ => none }
  slice := [⟨"a", 3, some "\"1\"", 0⟩, ⟨"b", 0, none, 0⟩, ⟨"c", 2, some "\"2\"", 0⟩]
  startOrdinal := 0
  resumeEtag := none
  chunkBytes := 2
  rangeBytes := 2
  range := none
  origin := .lister
  chunked := by decide

theorem threeMembers_contents : threeMembers.Contents threeObjects where
  listed := by
    intro ordinal entry listed
    match ordinal, listed with
    | 0, rfl => rfl
    | 1, rfl => rfl
    | 2, rfl => rfl
  window := by
    intro window bytes listed ordered inside success
    refine ⟨window.stop - window.start, by omega, ?_⟩
    have stop : window.start + (window.stop - window.start) = window.stop := by omega
    rw [stop]
    change (if slice _ _ _ = [] then _ else Except.ok (slice _ _ _)) = _ at success
    split at success
    · cases success
    · exact (Except.ok.inj success).symm
  body := by
    rintro ordinal n pieces broken ⟨⟩
    rw [List.flatten_singleton]
    exact ⟨List.prefix_refl _, fun _ => rfl⟩
  ranged := nofun

/-- A run with a pause while the last window of the first member is handed on. -/
theorem read_ahead_invisible_run :
    ∃ f, threeMembers.Reaches 9
      (List.replicate 11 .main ++ [.pause true, .aheadDone, .pause false] ++
        List.replicate 17 .main) f ∧ f.ctl = .done ∧
      Described threeMembers threeObjects 0 threeMembers.slice (sends threeMembers.sequential) ∧
      ∃ done rest, done ++ rest = threeMembers.sequential ∧ f.sent = sends done := by
  have executes : ((replay (fun f event => Fetcher.step threeMembers 9 f event) (fun _ _ => True)
      threeMembers.start (List.replicate 11 .main ++ [.pause true, .aheadDone, .pause false] ++
        List.replicate 17 .main)).any fun f => f.ctl matches .done) = true := by
    decide
  obtain ⟨f, reached, ended⟩ := (Option.any_eq_true _ _).mp executes
  have run := run_of_replay _ _ f reached
  obtain ⟨described, ⟨done, rest, whole, sent, _⟩, _⟩ := read_ahead_invisible threeMembers 9 run
  refine ⟨f, run, ?_, described threeObjects threeMembers_contents, done, rest, whole, sent⟩
  cases same : f.ctl <;> rw [same] at ended <;> first | rfl | cases ended

end Spate.S3
