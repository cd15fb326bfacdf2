import Spate.Handoff

set_option autoImplicit false

/- Per-shard order in the terminal stage: no row is lost, repeated or overtaken
between the encoder and the shard's queue, whatever the queues, the encoder's
`finish_chunk` and the codec answer. -/
namespace Spate.Sink

variable {α : Type} {E : RowEncoder α} {R : RecordRouter α} {K : FrameCodec}

/-- What a sink's wire format means and what its encoder and codec promise. An
encoder appends rows to the buffer or holds them, and writes what it holds in
order; a failed call may leave a partial block but neither adds nor forgets a
row. -/
structure WireFormat (E : RowEncoder α) (K : FrameCodec) where
  Row : Type
  row : Record α → Row
  /-- The rows the encoder has accepted and not yet written. -/
  held : E.State → List Row
  /-- The rows of a stretch of encoder output. -/
  rows : Bytes → Option (List Row)
  /-- The rows of one frame the codec made. -/
  coded : Bytes → Option (List Row)
  rows_nil : rows [] = some []
  rows_append : ∀ {front back : Bytes} {left right : List Row}, rows front = some left →
    rows back = some right → rows (front ++ back) = some (left ++ right)
  encode_ok : ∀ state record buf, (E.encode state record buf).result = .ok () →
    ∃ added written, (E.encode state record buf).buf = buf ++ added ∧
      rows added = some written ∧
      written ++ held (E.encode state record buf).state = held state ++ [row record]
  encode_error : ∀ state record buf error, (E.encode state record buf).result = .error error →
    (∃ added, (E.encode state record buf).buf = buf ++ added) ∧
      held (E.encode state record buf).state = held state
  finish_ok : ∀ state buf, (E.finishChunk state buf).result = .ok () →
    ∃ added, (E.finishChunk state buf).buf = buf ++ added ∧ rows added = some (held state) ∧
      held (E.finishChunk state buf).state = []
  finish_error : ∀ state buf error, (E.finishChunk state buf).result = .error error →
    (∃ added, (E.finishChunk state buf).buf = buf ++ added) ∧
      held (E.finishChunk state buf).state = held state
  encodeFrame_ok : ∀ {codec next : K.State} {buf frame : Bytes} {found : List Row},
    K.encodeFrame codec buf = (next, .ok frame) → rows buf = some found →
    coded frame = some found

namespace WireFormat

def frameRows (W : WireFormat E K) (isCoded : Bool) (frame : Bytes) : Option (List W.Row) :=
  if isCoded then W.coded frame else W.rows frame

def framesRows (W : WireFormat E K) (isCoded : Bool) : List Bytes → Option (List W.Row)
  | [] => some []
  | frame :: rest =>
    match W.frameRows isCoded frame, W.framesRows isCoded rest with
    | some first, some others => some (first ++ others)
    | _, _ => none

/-- The rows of an open buffer: those written and those the encoder holds. -/
def openRows (W : WireFormat E K) (shard : ShardBuf E) : Option (List W.Row) :=
  (W.rows shard.buf).map (· ++ W.held shard.encoder)

theorem framesRows_of_forall (W : WireFormat E K) (isCoded : Bool)
    (chunks : List (EncodedChunk α))
    (each : ∀ chunk ∈ chunks,
      W.frameRows isCoded chunk.frame = some (chunk.records.map W.row)) :
    W.framesRows isCoded (chunks.map (·.frame)) =
      some ((chunks.flatMap (·.records)).map W.row) := by
  induction chunks with
  | nil => rfl
  | cons chunk rest ih =>
    have head := each chunk (by simp)
    have tail := ih (fun other member => each other (by simp [member]))
    simp only [List.map_cons, framesRows, head, tail, List.flatMap_cons, List.map_append]

end WireFormat

def forShard {β : Type} (idx : Nat) (entries : List (Nat × β)) : List β :=
  entries.filterMap fun entry => if entry.1 = idx then some entry.2 else none

section forShard

variable {β : Type} {idx other : Nat} {entry : β} {entries more : List (Nat × β)}

@[simp] theorem forShard_nil : forShard idx ([] : List (Nat × β)) = [] := rfl

@[simp] theorem forShard_append :
    forShard idx (entries ++ more) = forShard idx entries ++ forShard idx more :=
  List.filterMap_append

@[simp] theorem forShard_cons_self :
    forShard idx ((idx, entry) :: entries) = entry :: forShard idx entries := by
  simp [forShard]

theorem forShard_cons_ne (apart : other ≠ idx) :
    forShard idx ((other, entry) :: entries) = forShard idx entries := by
  simp [forShard, apart]

theorem mem_of_mem_forShard (member : entry ∈ forShard idx entries) :
    (idx, entry) ∈ entries := by
  obtain ⟨⟨shard, value⟩, present, selected⟩ := List.mem_filterMap.mp member
  by_cases same : shard = idx
  · simp only [same, ↓reduceIte, Option.some.injEq] at selected
    rwa [← selected, ← same]
  · simp [same] at selected

end forShard

/-- A shard's buffer holds the rows of its records, and a finished block is still
complete while no row has been added to it. -/
structure ShardBuf.Holds (shard : ShardBuf E) (W : WireFormat E K) (isCoded : Bool) : Prop where
  content : ∃ written, W.rows shard.buf = some written ∧
    written ++ W.held shard.encoder = shard.records.map W.row
  finished : ∀ n, shard.finishedRows = some n →
    isCoded = true ∧ 0 < n ∧ n ≤ shard.rows ∧ (n = shard.rows → W.held shard.encoder = [])

namespace ShardBuf.Holds

variable {W : WireFormat E K} {isCoded : Bool} {shard after : ShardBuf E} {record : Record α}
  {error : SinkError}

theorem openRows (holds : shard.Holds W isCoded) :
    W.openRows shard = some (shard.records.map W.row) := by
  obtain ⟨written, decoded, complete⟩ := holds.content
  simp [WireFormat.openRows, decoded, complete]

theorem encode_ok (holds : shard.Holds W isCoded)
    (row : shard.encode record = (after, .ok ())) :
    after.Holds W isCoded ∧ after.records = shard.records ++ [record] ∧
      after.parked = shard.parked := by
  unfold ShardBuf.encode at row
  dsimp only at row
  split at row
  · rename_i success
    obtain ⟨rfl, -⟩ := Prod.mk.inj row
    obtain ⟨added, fresh, appended, decoded, owed⟩ := W.encode_ok _ _ _ success
    obtain ⟨written, before, complete⟩ := holds.content
    refine ⟨⟨⟨written ++ fresh, ?_, ?_⟩, ?_⟩, rfl, rfl⟩
    · dsimp only
      rw [appended]
      exact W.rows_append before decoded
    · dsimp only
      rw [List.append_assoc, owed, ← List.append_assoc, complete, List.map_append,
        List.map_singleton]
    · intro n marked
      obtain ⟨compressed, positive, within, -⟩ := holds.finished n marked
      refine ⟨compressed, positive, ?_, ?_⟩
      · show n ≤ shard.rows + 1
        omega
      · intro full
        change n = shard.rows + 1 at full
        omega
  · cases row

theorem encode_error (holds : shard.Holds W isCoded)
    (row : shard.encode record = (after, .error error)) :
    after.Holds W isCoded ∧ after.records = shard.records ∧ after.parked = shard.parked := by
  unfold ShardBuf.encode at row
  dsimp only at row
  split at row
  · cases row
  · rename_i failure
    obtain ⟨rfl, -⟩ := Prod.mk.inj row
    obtain ⟨⟨added, appended⟩, owed⟩ := W.encode_error _ _ _ _ failure
    refine ⟨⟨?_, ?_⟩, rfl, rfl⟩
    · simpa only [appended, List.take_left, owed] using holds.content
    · simpa only [owed] using holds.finished

theorem finish_ok (holds : shard.Holds W isCoded) (nonempty : 0 < shard.rows)
    (finished : shard.finish = (after, .ok ())) :
    after.Holds W isCoded ∧ W.rows after.buf = some (shard.records.map W.row) ∧
      W.held after.encoder = [] ∧ after.records = shard.records ∧
      after.parked = shard.parked ∧ after.finishedRows = shard.finishedRows := by
  unfold ShardBuf.finish at finished
  obtain ⟨written, before, complete⟩ := holds.content
  split at finished
  · rename_i complete'
    obtain ⟨rfl, -⟩ := Prod.mk.inj finished
    have marked : shard.finishedRows = some shard.rows := by
      rw [complete', nonZero, if_neg (by omega)]
    have nothing := (holds.finished _ marked).2.2.2 rfl
    rw [nothing, List.append_nil] at complete
    exact ⟨holds, by rw [before, complete], nothing, rfl, rfl, rfl⟩
  · dsimp only at finished
    split at finished
    · rename_i success
      obtain ⟨rfl, -⟩ := Prod.mk.inj finished
      obtain ⟨added, appended, decoded, nothing⟩ := W.finish_ok _ _ success
      have whole : W.rows (E.finishChunk shard.encoder shard.buf).buf =
          some (shard.records.map W.row) := by
        rw [appended, ← complete]
        exact W.rows_append before decoded
      refine ⟨⟨⟨_, whole, ?_⟩, ?_⟩, whole, nothing, rfl, rfl, rfl⟩
      · dsimp only
        rw [nothing, List.append_nil]
      · intro n marked
        obtain ⟨compressed, positive, within, -⟩ := holds.finished n marked
        exact ⟨compressed, positive, within, fun _ => nothing⟩
    · cases finished

theorem finish_error (holds : shard.Holds W isCoded)
    (finished : shard.finish = (after, .error error)) :
    after.Holds W isCoded ∧ after.records = shard.records ∧ after.parked = shard.parked := by
  unfold ShardBuf.finish at finished
  split at finished
  · cases finished
  · dsimp only at finished
    split at finished
    · cases finished
    · rename_i failure
      obtain ⟨rfl, -⟩ := Prod.mk.inj finished
      obtain ⟨⟨added, appended⟩, owed⟩ := W.finish_error _ _ _ failure
      refine ⟨⟨?_, ?_⟩, rfl, rfl⟩
      · simpa only [appended, List.take_left, owed] using holds.content
      · simpa only [owed] using holds.finished

/-- A block that is complete in the buffer may be marked as finished. -/
theorem mark (holds : shard.Holds W true) (nothing : W.held shard.encoder = []) :
    { shard with finishedRows := nonZero shard.rows }.Holds W true := by
  refine ⟨holds.content, ?_⟩
  intro n marked
  change nonZero shard.rows = some n at marked
  unfold nonZero at marked
  split at marked
  · cases marked
  · obtain rfl := Option.some.inj marked
    refine ⟨rfl, by omega, Nat.le_refl _, fun _ => nothing⟩

theorem emptied (nothing : W.held shard.encoder = []) :
    { shard.emptied with finishedRows := none }.Holds W isCoded := by
  refine ⟨⟨[], W.rows_nil, ?_⟩, ?_⟩
  · simpa only [ShardBuf.emptied, List.nil_append, List.map_nil] using nothing
  · intro n marked
    cases marked

end ShardBuf.Holds

def recordsOf (chunks : List (EncodedChunk α)) : List (Record α) := chunks.flatMap (·.records)

@[simp] theorem recordsOf_nil : recordsOf ([] : List (EncodedChunk α)) = [] := rfl

@[simp] theorem recordsOf_cons (chunk : EncodedChunk α) (rest : List (EncodedChunk α)) :
    recordsOf (chunk :: rest) = chunk.records ++ recordsOf rest := rfl

@[simp] theorem recordsOf_append (front back : List (EncodedChunk α)) :
    recordsOf (front ++ back) = recordsOf front ++ recordsOf back :=
  List.flatMap_append

/-- The state of a stage against the log of what it encoded: for every shard the
accepted chunks, the parked ones, the one `hand` holds and the open buffer are
the log in order. -/
structure Ordered (W : WireFormat E K) (n : Nat) (h : SinkHandoff E R K) (out : Outlet α)
    (hand : List (Nat × EncodedChunk α)) (log : List (Nat × Record α)) : Prop where
  width : h.shards.length = n
  frames : ∀ entry ∈ out.accepted ++ h.parked ++ hand,
    W.frameRows h.codec.isSome entry.2.frame = some (entry.2.records.map W.row)
  buffers : ∀ (idx : Nat) (shard : ShardBuf E), h.shards[idx]? = some shard →
    shard.Holds W h.codec.isSome
  counts : ∀ (idx : Nat) (shard : ShardBuf E), h.shards[idx]? = some shard →
    shard.parked = (forShard idx h.parked).length
  order : ∀ (idx : Nat) (shard : ShardBuf E), h.shards[idx]? = some shard →
    recordsOf (forShard idx out.accepted) ++ recordsOf (forShard idx h.parked) ++
      recordsOf (forShard idx hand) ++ shard.records = forShard idx log

namespace Ordered

variable {W : WireFormat E K} {n : Nat} {h : SinkHandoff E R K} {out : Outlet α}
  {hand : List (Nat × EncodedChunk α)} {log : List (Nat × Record α)}

variable {chunk : EncodedChunk α}

theorem latch (ordered : Ordered W n h out hand log) (reason : String) :
    Ordered W n (h.latch reason) out hand log :=
  ⟨ordered.width, ordered.frames, ordered.buffers, ordered.counts, ordered.order⟩

/-- A shard's buffer was rewritten without gaining or losing a record. -/
theorem rewrite {idx : Nat} {shard after : ShardBuf E} {codec : Option K.State}
    (ordered : Ordered W n h out hand log) (found : h.shards[idx]? = some shard)
    (same : codec.isSome = h.codec.isSome) (holds : after.Holds W h.codec.isSome)
    (records : after.records = shard.records) (parked : after.parked = shard.parked) :
    Ordered W n { h.setShard idx after with codec } out hand log := by
  refine ⟨by simpa [SinkHandoff.setShard] using ordered.width, ?_, ?_, ?_, ?_⟩
  · simpa only [SinkHandoff.setShard, same] using ordered.frames
  · intro i other present
    rcases Lists.getElem?_set_cases present with ⟨rfl, rfl⟩ | ⟨-, before⟩
    · simpa only [same] using holds
    · simpa only [same] using ordered.buffers i other before
  · intro i other present
    rcases Lists.getElem?_set_cases present with ⟨rfl, rfl⟩ | ⟨-, before⟩
    · rw [parked]
      exact ordered.counts i shard found
    · exact ordered.counts i other before
  · intro i other present
    rcases Lists.getElem?_set_cases present with ⟨rfl, rfl⟩ | ⟨-, before⟩
    · rw [records]
      exact ordered.order i shard found
    · exact ordered.order i other before

/-- A shard's records left its buffer as one well-formed chunk. -/
theorem ship {idx : Nat} {shard after : ShardBuf E} {codec : Option K.State}
    (ordered : Ordered W n h out [] log) (found : h.shards[idx]? = some shard)
    (same : codec.isSome = h.codec.isSome) (holds : after.Holds W h.codec.isSome)
    (empty : after.records = []) (parked : after.parked = shard.parked)
    (records : chunk.records = shard.records)
    (frame : W.frameRows h.codec.isSome chunk.frame = some (shard.records.map W.row)) :
    Ordered W n { h.setShard idx after with codec } out [(idx, chunk)] log := by
  refine ⟨by simpa [SinkHandoff.setShard] using ordered.width, ?_, ?_, ?_, ?_⟩
  · intro entry member
    change entry ∈ out.accepted ++ h.parked ++ [(idx, chunk)] at member
    dsimp only
    rw [same]
    rcases List.mem_append.mp member with before | here
    · exact ordered.frames entry (by simpa using before)
    · obtain rfl := List.mem_singleton.mp here
      rw [frame, records]
  · intro i other present
    rcases Lists.getElem?_set_cases present with ⟨rfl, rfl⟩ | ⟨-, before⟩
    · simpa only [same] using holds
    · simpa only [same] using ordered.buffers i other before
  · intro i other present
    rcases Lists.getElem?_set_cases present with ⟨rfl, rfl⟩ | ⟨-, before⟩
    · rw [parked]
      exact ordered.counts i shard found
    · exact ordered.counts i other before
  · intro i other present
    rcases Lists.getElem?_set_cases present with ⟨rfl, rfl⟩ | ⟨apart, before⟩
    · have sorted := ordered.order i shard found
      simpa [SinkHandoff.setShard, empty, records] using sorted
    · have sorted := ordered.order i other before
      simpa [SinkHandoff.setShard, forShard_cons_ne (Ne.symm apart)] using sorted

theorem sealChunk {idx : Nat} {next : SinkHandoff E R K} {chunk : Option (EncodedChunk α)}
    (ordered : Ordered W n h out [] log) (seals : SinkHandoff.Seals h idx next chunk) :
    Ordered W n next out (chunk.toList.map (idx, ·)) log := by
  cases seals with
  | nothing => exact ordered
  | unfinished found rows finished =>
    obtain ⟨holds, records, parked⟩ := (ordered.buffers _ _ found).finish_error finished
    exact (ordered.rewrite found rfl holds records parked).latch _
  | @plain shard after found rows finished uncoded =>
    obtain ⟨holds, whole, nothing, records, parked, marked⟩ :=
      (ordered.buffers _ _ found).finish_ok rows finished
    have unmarked : after.finishedRows = none := by
      cases mark : after.finishedRows with
      | none => rfl
      | some n =>
        have compressed := (holds.finished n mark).1
        simp [uncoded] at compressed
    have same : after.emptied = { after.emptied with finishedRows := none } := by
      simp only [ShardBuf.emptied, unmarked]
    have kept : { after.emptied with finishedRows := none }.parked = shard.parked := parked
    rw [same]
    refine ordered.ship found rfl (.emptied nothing) rfl kept records ?_
    simpa [WireFormat.frameRows, uncoded, ShardBuf.chunk] using whole
  | @coded shard after codec next frame found rows finished compressed wire =>
    obtain ⟨holds, whole, nothing, records, parked, -⟩ :=
      (ordered.buffers _ _ found).finish_ok rows finished
    have kept : { after.emptied with finishedRows := none }.parked = shard.parked := parked
    refine ordered.ship found (by simp [compressed]) (.emptied nothing) rfl kept records ?_
    simpa [WireFormat.frameRows, compressed, ShardBuf.chunk] using W.encodeFrame_ok wire whole
  | @uncodable shard after codec next error found rows finished compressed wire =>
    obtain ⟨holds, whole, nothing, records, parked, -⟩ :=
      (ordered.buffers _ _ found).finish_ok rows finished
    have isCoded : h.codec.isSome = true := by simp [compressed]
    rw [isCoded] at holds
    have marked := holds.mark nothing
    rw [← isCoded] at marked
    have kept : ({ after with finishedRows := nonZero after.rows } : ShardBuf E).records =
      shard.records := records
    exact (ordered.rewrite found (by simp [compressed]) marked kept parked).latch _

theorem park {idx : Nat} (ordered : Ordered W n h out [(idx, chunk)] log) :
    Ordered W n (h.park idx chunk) out [] log := by
  refine ⟨by simpa [SinkHandoff.park] using ordered.width, ?_, ?_, ?_, ?_⟩
  · simpa [SinkHandoff.park] using ordered.frames
  · intro i other present
    obtain ⟨before, found, rfl⟩ := SinkHandoff.park_shard present
    have holds := ordered.buffers i before found
    exact ⟨holds.content, holds.finished⟩
  · intro i other present
    obtain ⟨before, found, rfl⟩ := SinkHandoff.park_shard present
    have counted := ordered.counts i before found
    by_cases same : i = idx
    · subst same
      simpa [SinkHandoff.park] using counted
    · simpa [SinkHandoff.park, same, forShard_cons_ne (Ne.symm same)] using counted
  · intro i other present
    obtain ⟨before, found, rfl⟩ := SinkHandoff.park_shard present
    have sorted := ordered.order i before found
    simpa [SinkHandoff.park] using sorted

/-- The chunk in hand is accepted while none of its shard is parked. -/
theorem send {idx : Nat} (sent : Outlet α) (ordered : Ordered W n h out [(idx, chunk)] log)
    (accepted : sent.accepted = out.accepted ++ [(idx, chunk)])
    (free : forShard idx h.parked = []) : Ordered W n h sent [] log := by
  refine ⟨ordered.width, ?_, ordered.buffers, ordered.counts, ?_⟩
  · intro entry member
    apply ordered.frames entry
    simp only [accepted, List.mem_append, List.mem_singleton, List.not_mem_nil, or_false]
      at member ⊢
    tauto
  · intro i other present
    have sorted := ordered.order i other present
    by_cases same : i = idx
    · subst same
      simpa [accepted, free] using sorted
    · simpa [accepted, forShard_cons_ne (Ne.symm same)] using sorted

theorem unpark {idx : Nat} {rest : List (Nat × EncodedChunk α)} (sent : Outlet α)
    (ordered : Ordered W n h out [] log) (head : h.parked = (idx, chunk) :: rest)
    (accepted : sent.accepted = out.accepted ++ [(idx, chunk)]) :
    Ordered W n (h.unpark idx rest) sent [] log := by
  refine ⟨by simpa [SinkHandoff.unpark] using ordered.width, ?_, ?_, ?_, ?_⟩
  · simpa [SinkHandoff.unpark, accepted, head] using ordered.frames
  · intro i other present
    obtain ⟨before, found, rfl⟩ := SinkHandoff.unpark_shard present
    have holds := ordered.buffers i before found
    exact ⟨holds.content, holds.finished⟩
  · intro i other present
    obtain ⟨before, found, rfl⟩ := SinkHandoff.unpark_shard present
    have counted := ordered.counts i before found
    rw [head] at counted
    by_cases same : i = idx
    · simp [SinkHandoff.unpark, same] at counted ⊢
      omega
    · simpa [SinkHandoff.unpark, same, forShard_cons_ne (Ne.symm same)] using counted
  · intro i other present
    obtain ⟨before, found, rfl⟩ := SinkHandoff.unpark_shard present
    have sorted := ordered.order i before found
    rw [head] at sorted
    by_cases same : i = idx
    · subst same
      simpa [SinkHandoff.unpark, accepted] using sorted
    · simpa [SinkHandoff.unpark, accepted, forShard_cons_ne (Ne.symm same)] using sorted

theorem outlet (ordered : Ordered W n h out hand log) (other : Outlet α)
    (same : other.accepted = out.accepted) : Ordered W n h other hand log := by
  refine ⟨ordered.width, ?_, ordered.buffers, ordered.counts, ?_⟩
  · simpa only [same] using ordered.frames
  · simpa only [same] using ordered.order

end Ordered

/-- A send is refused and changes nothing but the count of attempts, or the chunk
is accepted. -/
theorem Outlet.trySend_cases (out : Outlet α) (shard : Nat) (chunk : EncodedChunk α) :
    (∃ sent : Outlet α, out.trySend shard chunk = (sent, none) ∧
      sent.accepted = out.accepted ++ [(shard, chunk)]) ∨
    (∃ tried : Outlet α, out.trySend shard chunk = (tried, some chunk) ∧
      tried.accepted = out.accepted) := by
  unfold Outlet.trySend
  split
  · exact Or.inl ⟨_, rfl, rfl⟩
  · exact Or.inr ⟨_, rfl, rfl⟩

namespace Ordered

variable {W : WireFormat E K} {n : Nat} {h : SinkHandoff E R K} {out : Outlet α}
  {log : List (Nat × Record α)}

theorem not_backedUp {idx : Nat} {hand : List (Nat × EncodedChunk α)} {shard : ShardBuf E}
    (ordered : Ordered W n h out hand log) (found : h.shards[idx]? = some shard)
    (clear : h.backedUp idx = false) : forShard idx h.parked = [] := by
  have counted := ordered.counts idx shard found
  have unparked : shard.parked = 0 := by simpa [SinkHandoff.backedUp, found] using clear
  apply List.eq_nil_of_length_eq_zero
  omega

theorem sealAndSend (ordered : Ordered W n h out [] log) (idx : Nat) :
    Ordered W n (h.sealAndSend out idx).1 (h.sealAndSend out idx).2 [] log := by
  have seals := h.seals_sealChunk idx
  unfold SinkHandoff.sealAndSend
  rcases sealed : h.sealChunk idx with ⟨next, _ | chunk⟩
  · rw [sealed] at seals
    exact ordered.sealChunk seals
  · rw [sealed] at seals
    have inHand := ordered.sealChunk seals
    obtain ⟨shard, found⟩ := seals.shard
    have charged := inHand.outlet { out with budget := out.budget.add chunk.rawLen } rfl
    dsimp only
    split
    · exact charged.park
    · rename_i clear
      have free := inHand.not_backedUp found (by simpa using clear)
      rcases Outlet.trySend_cases { out with budget := out.budget.add chunk.rawLen } idx chunk
        with ⟨sent, tried, accepted⟩ | ⟨refused, tried, accepted⟩
      · rw [tried]
        exact charged.send sent accepted free
      · rw [tried]
        exact (charged.outlet refused accepted).park

theorem drainLoop (chunks : List (Nat × EncodedChunk α)) :
    ∀ (h : SinkHandoff E R K) (out : Outlet α), h.parked = chunks → Ordered W n h out [] log →
      Ordered W n (SinkHandoff.drainLoop chunks h out).1 (SinkHandoff.drainLoop chunks h out).2.1
        [] log := by
  induction chunks with
  | nil =>
    intro h out empty ordered
    rw [SinkHandoff.drainLoop]
    simpa only [← empty] using ordered
  | cons entry rest ih =>
    intro h out head ordered
    obtain ⟨idx, chunk⟩ := entry
    rw [SinkHandoff.drainLoop]
    rcases out.trySend_cases idx chunk with ⟨sent, tried, accepted⟩ | ⟨refused, tried, accepted⟩
    · rw [tried]
      apply ih _ sent rfl
      exact ordered.unpark sent head accepted
    · rw [tried]
      simpa only [← head] using ordered.outlet refused accepted

theorem drainParked (ordered : Ordered W n h out [] log) :
    Ordered W n (h.drainParked out).1 (h.drainParked out).2.1 [] log :=
  drainLoop h.parked h out rfl ordered

theorem relieve (ordered : Ordered W n h out [] log) :
    Ordered W n (h.relieve out).1 (h.relieve out).2.1 [] log := by
  unfold SinkHandoff.relieve
  split
  · exact ordered
  · exact ordered.drainParked

theorem sealAll (shards : List Nat) : ∀ (h : SinkHandoff E R K) (out : Outlet α),
    Ordered W n h out [] log →
      Ordered W n (SinkHandoff.sealAll shards h out).1 (SinkHandoff.sealAll shards h out).2
        [] log := by
  induction shards with
  | nil => exact fun h out ordered => ordered
  | cons idx rest ih =>
    intro h out ordered
    exact ih _ _ (ordered.sealAndSend idx)

theorem flushTerminal (ordered : Ordered W n h out [] log) :
    Ordered W n (h.flushTerminal out).1 (h.flushTerminal out).2.1 [] log :=
  (sealAll _ h out ordered).drainParked

end Ordered

/-- The entry a pushed record owes the log: the router's index, `router` being its state,
if no fatal is pending and the shard's encoder takes the record. -/
def SinkHandoff.due (h : SinkHandoff E R K) (router : R.State) (record : Record α) :
    List (Nat × Record α) :=
  if h.fatal.isSome then []
  else
    let idx := (R.routeRecord router record h.shards.length).2
    match h.shards[idx]? with
    | none => []
    | some shard =>
      match (E.encode shard.encoder record shard.buf).result with
      | .ok () => [(idx, record)]
      | .error _ => []

theorem ShardBuf.encode_result {shard after : ShardBuf E} {record : Record α}
    {result : Except SinkError Unit} (row : shard.encode record = (after, result)) :
    (E.encode shard.encoder record shard.buf).result = result := by
  unfold ShardBuf.encode at row
  dsimp only at row
  split at row <;> rename_i answer <;> cases row <;> exact answer

theorem SinkHandoff.due_routed {h : SinkHandoff E R K} {router : R.State} {idx : Nat}
    {shard after : ShardBuf E} {record : Record α} {result : Except SinkError Unit}
    (clear : h.fatal = none)
    (routed : R.routeRecord h.router record h.shards.length = (router, idx))
    (found : h.shards[idx]? = some shard) (row : shard.encode record = (after, result)) :
    h.due h.router record = if result.isOk then [(idx, record)] else [] := by
  unfold due
  simp only [clear, routed, found, ShardBuf.encode_result row]
  cases result <;> rfl

namespace Ordered

variable {W : WireFormat E K} {n : Nat} {h : SinkHandoff E R K} {out : Outlet α}
  {log : List (Nat × Record α)}

theorem encoded {idx : Nat} {shard after : ShardBuf E} {record : Record α}
    (ordered : Ordered W n h out [] log) (found : h.shards[idx]? = some shard)
    (row : shard.encode record = (after, .ok ())) :
    Ordered W n (h.setShard idx after) out [] (log ++ [(idx, record)]) := by
  obtain ⟨holds, records, parked⟩ := (ordered.buffers idx shard found).encode_ok row
  refine ⟨by simpa [SinkHandoff.setShard] using ordered.width, ordered.frames, ?_, ?_, ?_⟩
  · intro i other present
    rcases Lists.getElem?_set_cases present with ⟨rfl, rfl⟩ | ⟨-, before⟩
    · exact holds
    · exact ordered.buffers i other before
  · intro i other present
    rcases Lists.getElem?_set_cases present with ⟨rfl, rfl⟩ | ⟨-, before⟩
    · rw [parked]
      exact ordered.counts i shard found
    · exact ordered.counts i other before
  · intro i other present
    rcases Lists.getElem?_set_cases present with ⟨rfl, rfl⟩ | ⟨apart, before⟩
    · have sorted := ordered.order i shard found
      simp only [records, forShard_append, forShard_cons_self, forShard_nil, ← sorted,
        List.append_assoc]
      rfl
    · have sorted := ordered.order i other before
      simpa [SinkHandoff.setShard, forShard_cons_ne (Ne.symm apart)] using sorted

theorem accept {record : Record α} {next : SinkHandoff E R K} {pushed : Pushed}
    (ordered : Ordered W n h out [] log) (accepts : SinkHandoff.Accepts h record next pushed) :
    Ordered W n next out [] (log ++ h.due h.router record) := by
  have rerouted (router : R.State) : Ordered W n { h with router } out [] log :=
    ⟨ordered.width, ordered.frames, ordered.buffers, ordered.counts, ordered.order⟩
  cases accepts with
  | swallowed pending =>
    rw [SinkHandoff.due, if_pos pending, List.append_nil]
    exact ordered
  | encoded clear routed found row =>
    rw [SinkHandoff.due_routed clear routed found row]
    exact (rerouted _).encoded found row
  | skipped clear routed found row =>
    obtain ⟨holds, records, parked⟩ := (ordered.buffers _ _ found).encode_error row
    have nothing : h.due h.router record = [] := SinkHandoff.due_routed clear routed found row
    rw [nothing, List.append_nil]
    exact (rerouted _).rewrite found rfl holds records parked
  | @failed router idx shard after error clear routed found row =>
    obtain ⟨holds, records, parked⟩ := (ordered.buffers _ _ found).encode_error row
    have nothing : h.due h.router record = [] := SinkHandoff.due_routed clear routed found row
    rw [nothing, List.append_nil]
    exact ((rerouted router).rewrite found rfl holds records parked).latch _

theorem push {record : Record α} (ordered : Ordered W n h out [] log) (nonempty : 0 < n) :
    Ordered W n (h.push out record).1 (h.push out record).2.1 []
      (log ++ h.due h.router record) := by
  have taken := ordered.accept (h.accepts_accept record (by rwa [ordered.width]))
  unfold SinkHandoff.push
  rcases accepted : h.accept record with ⟨next, _ | ⟨idx, cloned, _ | _⟩ | _ | _⟩
  all_goals rw [accepted] at taken
  case encoded.true => exact taken.sealAndSend idx
  all_goals exact taken

end Ordered

/-! ## The router -/

namespace SinkHandoff

variable {h next : SinkHandoff E R K} {out : Outlet α}

/-- The router's state after a record was routed, which a pending fatal prevents. -/
def routed (h : SinkHandoff E R K) (router : R.State) (record : Record α) : R.State :=
  if h.fatal.isSome then router else (R.routeRecord router record h.shards.length).1

theorem Seals.router {idx : Nat} {chunk : Option (EncodedChunk α)}
    (seals : Seals h idx next chunk) :
    next.router = h.router := by
  cases seals <;> rfl

theorem sealAndSend_router (h : SinkHandoff E R K) (out : Outlet α) (idx : Nat) :
    (h.sealAndSend out idx).1.router = h.router := by
  have seals := (seals_sealChunk h idx).router
  unfold sealAndSend
  generalize h.sealChunk idx = sealed at seals ⊢
  obtain ⟨next, chunk⟩ := sealed
  cases chunk with
  | none => exact seals
  | some chunk =>
    dsimp only
    split
    · exact seals
    · split <;> exact seals

theorem drainLoop_router (chunks : List (Nat × EncodedChunk α)) :
    ∀ (h : SinkHandoff E R K) (out : Outlet α), (drainLoop chunks h out).1.router = h.router := by
  induction chunks with
  | nil => exact fun _ _ => rfl
  | cons entry rest ih =>
    intro h out
    unfold drainLoop
    split
    · exact ih _ _
    · rfl

theorem sealAll_router (shards : List Nat) :
    ∀ (h : SinkHandoff E R K) (out : Outlet α), (sealAll shards h out).1.router = h.router := by
  induction shards with
  | nil => exact fun _ _ => rfl
  | cons idx rest ih => exact fun h out => (ih _ _).trans (sealAndSend_router h out idx)

theorem flushTerminal_router : (h.flushTerminal out).1.router = h.router :=
  (drainLoop_router _ _ _).trans (sealAll_router _ h out)

theorem relieve_router : (h.relieve out).1.router = h.router := by
  unfold relieve
  split
  · rfl
  · exact drainLoop_router _ h out

theorem accept_router (h : SinkHandoff E R K) (record : Record α) :
    (h.accept record).1.router = h.routed h.router record := by
  unfold accept routed
  split
  · rfl
  · dsimp only
    split
    · rfl
    · split
      · rfl
      · split <;> rfl

theorem push_router (record : Record α) :
    (h.push out record).1.router = h.routed h.router record := by
  rw [← accept_router]
  unfold push
  split
  · rename_i next idx cloned accepted
    rw [accepted]
    exact sealAndSend_router next out idx
  · rename_i accepted
    rw [accepted]

end SinkHandoff

/-! ## Runs -/

/-- A stage with the outlet it sends through. The rest is history: `router`, the state the
records pushed leave the router in, and `encoded`, every record the encoder took, under
the index the router gave it, in push order. -/
structure Session (E : RowEncoder α) (R : RecordRouter α) (K : FrameCodec) where
  handoff : SinkHandoff E R K
  outlet : Outlet α
  router : R.State
  encoded : List (Nat × Record α)

/-- What the chain calls on its terminal stage. -/
inductive Call (α : Type)
  | push (record : Record α)
  | relieve
  | flushTerminal
  | takeFatal

namespace Session

/-- A fresh stage over queues that will answer as `accepts` says. -/
def new (handoff : SinkHandoff E R K) (accepts : Nat → Bool) : Session E R K :=
  ⟨handoff, ⟨accepts, 0, [], ⟨0⟩⟩, handoff.router, []⟩

def call (s : Session E R K) : Call α → Session E R K
  | .push record =>
    let (handoff, outlet, _) := s.handoff.push s.outlet record
    ⟨handoff, outlet, s.handoff.routed s.router record,
      s.encoded ++ s.handoff.due s.router record⟩
  | .relieve =>
    let (handoff, outlet, _) := s.handoff.relieve s.outlet
    { s with handoff, outlet }
  | .flushTerminal =>
    let (handoff, outlet, _) := s.handoff.flushTerminal s.outlet
    { s with handoff, outlet }
  | .takeFatal => { s with handoff := s.handoff.takeFatal.1 }

def run (s : Session E R K) (calls : List (Call α)) : Session E R K := calls.foldl call s

def Ordered (W : WireFormat E K) (n : Nat) (s : Session E R K) : Prop :=
  Sink.Ordered W n s.handoff s.outlet [] s.encoded ∧ s.router = s.handoff.router

theorem call_ordered {W : WireFormat E K} {n : Nat} {s : Session E R K} (ordered : s.Ordered W n)
    (nonempty : 0 < n) (next : Call α) : (s.call next).Ordered W n := by
  obtain ⟨ordered, same⟩ := ordered
  cases next with
  | push record =>
    simp only [call, Session.Ordered, same]
    exact ⟨ordered.push nonempty, (SinkHandoff.push_router record).symm⟩
  | relieve => exact ⟨ordered.relieve, same.trans SinkHandoff.relieve_router.symm⟩
  | flushTerminal => exact ⟨ordered.flushTerminal, same.trans SinkHandoff.flushTerminal_router.symm⟩
  | takeFatal =>
    exact ⟨⟨ordered.width, ordered.frames, ordered.buffers, ordered.counts, ordered.order⟩, same⟩

theorem run_ordered {W : WireFormat E K} {n : Nat} (calls : List (Call α)) :
    ∀ s : Session E R K, s.Ordered W n → 0 < n → (s.run calls).Ordered W n := by
  induction calls with
  | nil => exact fun s ordered _ => ordered
  | cons next rest ih =>
    intro s ordered nonempty
    exact ih _ (call_ordered ordered nonempty next) nonempty

theorem new_ordered (W : WireFormat E K) {encoder : E.State} (router : R.State) (n : Nat)
    (codec : Option K.State) (cfg : ChunkConfig) (component : String) (accepts : Nat → Bool)
    (fresh : W.held encoder = []) :
    (new (SinkHandoff.new encoder router n codec cfg component) accepts :
      Session E R K).Ordered W n := by
  have initial (idx : Nat) (shard : ShardBuf E)
      (found : (SinkHandoff.new encoder router n codec cfg component :
        SinkHandoff E R K).shards[idx]? = some shard) : shard = .new encoder :=
    List.eq_of_mem_replicate (List.mem_of_getElem? found)
  refine ⟨⟨List.length_replicate, by simp [new, SinkHandoff.new], ?_, ?_, ?_⟩, rfl⟩
  · intro idx shard found
    obtain rfl := initial idx shard found
    refine ⟨⟨[], W.rows_nil, by simpa [ShardBuf.new] using fresh⟩, ?_⟩
    intro m marked
    cases marked
  · intro idx shard found
    obtain rfl := initial idx shard found
    rfl
  · intro idx shard found
    obtain rfl := initial idx shard found
    rfl

end Session

/-- Per-shard order, no loss and no duplication in the terminal stage. Whatever
is called on a fresh stage and whatever the queues answer, for each shard the
rows of the chunks its queue accepted, then of its parked chunks, then of its
open buffer are the rows the encoder took of the records routed to it, in push order. -/
theorem shard_rows_exact (W : WireFormat E K) (encoder : E.State) (router : R.State)
    (numShards : Nat) (codec : Option K.State) (cfg : ChunkConfig) (component : String)
    (accepts : Nat → Bool) (calls : List (Call α)) (s : Session E R K)
    (ran : s = (Session.new (.new encoder router numShards codec cfg component)
      accepts).run calls)
    (fresh : W.held encoder = []) (idx : Nat) (inside : idx < numShards) :
    ∃ shard sent waiting unsealed, s.handoff.shards[idx]? = some shard ∧
      W.framesRows s.handoff.codec.isSome
        ((forShard idx s.outlet.accepted).map (·.frame)) = some sent ∧
      W.framesRows s.handoff.codec.isSome
        ((forShard idx s.handoff.parked).map (·.frame)) = some waiting ∧
      W.openRows shard = some unsealed ∧
      sent ++ waiting ++ unsealed = (forShard idx s.encoded).map W.row ∧
      shard.parked = (forShard idx s.handoff.parked).length := by
  obtain ⟨ordered, -⟩ : s.Ordered W numShards := by
    rw [ran]
    apply Session.run_ordered calls _ _ (by omega)
    exact Session.new_ordered W router numShards codec cfg component accepts fresh
  have present : idx < s.handoff.shards.length := by
    rw [ordered.width]
    exact inside
  have found := List.getElem?_eq_getElem present
  have framed (chunks : List (Nat × EncodedChunk α))
      (among : ∀ entry ∈ chunks, entry ∈ s.outlet.accepted ++ s.handoff.parked ++ []) :
      W.framesRows s.handoff.codec.isSome ((forShard idx chunks).map (·.frame)) =
        some ((recordsOf (forShard idx chunks)).map W.row) := by
    apply W.framesRows_of_forall
    intro chunk member
    exact ordered.frames (idx, chunk) (among _ (mem_of_mem_forShard member))
  refine ⟨_, _, _, _, found, framed _ (by simp +contextual), framed _ (by simp +contextual),
    (ordered.buffers idx _ found).openRows, ?_, ordered.counts idx _ found⟩
  have sorted := ordered.order idx _ found
  simp only [forShard_nil, recordsOf_nil, List.append_nil] at sorted
  rw [← sorted]
  simp only [List.map_append]

/-- A columnar encoder of byte records: rows are held until the chunk is finished,
and the first attempt to finish fails halfway. -/
def blockEncoder : RowEncoder UInt8 where
  State := List UInt8 × Bool
  encode state record buf :=
    if record.payload = 0 then ⟨state, buf ++ [0], .error ⟨.recordLevel, "empty row"⟩⟩
    else ⟨(state.1 ++ [record.payload], state.2), buf, .ok ()⟩
  bufferedBytes state := state.1.length
  finishChunk state buf :=
    if state.2 then ⟨([], true), buf ++ state.1, .ok ()⟩
    else ⟨(state.1, true), buf ++ state.1.take 1, .error ⟨.fatal, "short write"⟩⟩

/-- A codec that puts a marker before each chunk and fails on the first. -/
def markerCodec : FrameCodec where
  State := Bool
  encodeFrame ready buf :=
    if ready then (true, .ok (7 :: buf)) else (true, .error ⟨.retryable, "no context"⟩)

def parityRouter : RecordRouter UInt8 where
  State := Unit
  routeRecord _ record numShards := ((), record.payload.toNat % numShards)
  inside _ _ _ positive := Nat.mod_lt _ positive

/-- In this format every byte is a row, and a coded frame starts with its marker. -/
def blockFormat : WireFormat blockEncoder markerCodec where
  Row := UInt8
  row := (·.payload)
  held := Prod.fst
  rows := some
  coded frame := frame.tail?
  rows_nil := rfl
  rows_append := by
    rintro front back left right ⟨⟩ ⟨⟩
    rfl
  encode_ok := by
    intro state record buf success
    simp only [blockEncoder] at success ⊢
    split at success
    · cases success
    · rename_i nonzero
      exact ⟨[], [], by simp [nonzero], rfl, by simp [nonzero]⟩
  encode_error := by
    intro state record buf error failure
    simp only [blockEncoder] at failure ⊢
    split at failure
    · rename_i zero
      exact ⟨⟨[0], by simp [zero]⟩, by simp [zero]⟩
    · cases failure
  finish_ok := by
    intro state buf success
    simp only [blockEncoder] at success ⊢
    split at success
    · rename_i ready
      exact ⟨state.1, by simp [ready], rfl, by simp [ready]⟩
    · cases success
  finish_error := by
    intro state buf error failure
    simp only [blockEncoder] at failure ⊢
    split at failure
    · cases failure
    · rename_i unready
      exact ⟨⟨state.1.take 1, by simp [unready]⟩, by simp [unready]⟩
  encodeFrame_ok := by
    rintro codec next buf frame found coded ⟨⟩
    simp only [markerCodec] at coded
    split at coded
    · cases coded
      rfl
    · cases coded

/-- Records of one batch for the two-shard stage over `blockEncoder`. -/
def byteRecord (payload : UInt8) : Record UInt8 :=
  ⟨payload, ⟨0, 0, 0, none⟩, ⟨0, ⟨0, 1, 0⟩⟩⟩

/-- The first flush fails to finish both shards and the second fails in the codec; the
records pushed before each fatal is taken are dropped. The third flush finds the queue of
shard 0 full. -/
def troubledCalls : List (Call UInt8) :=
  [.push (byteRecord 2), .push (byteRecord 3), .push (byteRecord 4), .flushTerminal,
    .push (byteRecord 14), .takeFatal, .push (byteRecord 6), .push (byteRecord 5), .flushTerminal,
    .push (byteRecord 15), .takeFatal, .push (byteRecord 0), .push (byteRecord 8), .flushTerminal,
    .push (byteRecord 10), .push (byteRecord 7), .flushTerminal, .push (byteRecord 12),
    .push (byteRecord 9)]

def troubledSession : Session blockEncoder parityRouter markerCodec :=
  (Session.new (.new ([], false) () 2 (some false) ⟨64, .skip⟩ "sink") (fun k => k == 1)).run
    troubledCalls

theorem shard_rows_exact_troubled :
    (forShard 0 troubledSession.encoded).map (·.payload) = [2, 4, 6, 8, 10, 12] ∧
    (forShard 1 troubledSession.encoded).map (·.payload) = [3, 5, 7, 9] ∧
    ∀ idx < 2, ∃ shard sent waiting unsealed, troubledSession.handoff.shards[idx]? = some shard ∧
      blockFormat.framesRows troubledSession.handoff.codec.isSome
        ((forShard idx troubledSession.outlet.accepted).map (·.frame)) = some sent ∧
      blockFormat.framesRows troubledSession.handoff.codec.isSome
        ((forShard idx troubledSession.handoff.parked).map (·.frame)) = some waiting ∧
      blockFormat.openRows shard = some unsealed ∧
      sent ++ waiting ++ unsealed = (forShard idx troubledSession.encoded).map blockFormat.row ∧
      shard.parked = (forShard idx troubledSession.handoff.parked).length :=
  ⟨by decide, by decide, shard_rows_exact (R := parityRouter) blockFormat ([], false) () 2
    (some false) ⟨64, .skip⟩ "sink" (fun k => k == 1) troubledCalls troubledSession rfl rfl⟩

end Spate.Sink
