import Spate.S3Lister

set_option autoImplicit false

/- What outlives a lister run is sound: a checkpoint passes no object whose units the feed
has not confirmed, and an end marker stands for the whole listing. -/
namespace Spate.S3

variable {addressable : String → Bool}

def SplitDescriptor.Names (unit : SplitDescriptor) (key : String) : Prop :=
  unit.range = none ∧ ∃ entry ∈ unit.objects, entry.key = key

/-- The units in `has` read every part of every non-empty object whose key is in
`bound`. An unaddressable object is one whole part of its own key. -/
structure Covered (listing : Listing addressable) (packing : Packing)
    (has : SplitDescriptor → Prop) (bound : String → Prop) : Prop where
  keys : ∀ entry ∈ listing.keys, 0 < entry.size → bound entry.key →
    ∀ part ∈ partsOf addressable packing entry, ∃ unit, has unit ∧ unit.Covers entry part
  unaddressable : ∀ entry ∈ listing.unaddressable, 0 < entry.size → bound entry.key →
    ∃ unit, has unit ∧ unit.Names entry.key

theorem Covered.mono {listing : Listing addressable} {packing : Packing}
    {has more : SplitDescriptor → Prop} {bound : String → Prop}
    (covered : Covered listing packing has bound) (includes : ∀ unit, has unit → more unit) :
    Covered listing packing more bound := by
  refine ⟨fun entry listed size bounded part one => ?_, fun entry listed size bounded => ?_⟩
  · obtain ⟨unit, held, covers⟩ := covered.keys entry listed size bounded part one
    exact ⟨unit, includes unit held, covers⟩
  · obtain ⟨unit, held, names⟩ := covered.unaddressable entry listed size bounded
    exact ⟨unit, includes unit held, names⟩

/-! ## The unaddressable objects of a page -/

theorem mem_keepLargest {kept : List ObjectEntry} {entry other : ObjectEntry}
    (mem : other ∈ keepLargest kept entry) : other ∈ kept ∨ other = entry := by
  unfold keepLargest at mem
  split at mem
  · obtain ⟨earlier, inKept, same⟩ := List.mem_map.mp mem
    split at same
    · exact .inr same.symm
    · exact .inl (same ▸ inKept)
  · simpa using mem

/-- An entry leaves the list only for a larger one of its key. -/
theorem keepLargest_keeps {kept : List ObjectEntry} {entry other : ObjectEntry}
    (either : other ∈ kept ∨ other = entry) :
    ∃ largest ∈ keepLargest kept entry, largest.key = other.key ∧ other.size ≤ largest.size := by
  unfold keepLargest
  split
  · rename_i known
    have replaced : ∀ earlier ∈ kept, ∃ largest ∈ kept.map (fun other =>
        if other.key = entry.key ∧ other.size < entry.size then entry else other),
        largest.key = earlier.key ∧ earlier.size ≤ largest.size ∧
          (earlier.key = entry.key → entry.size ≤ largest.size) := by
      intro earlier mem
      refine ⟨_, List.mem_map.mpr ⟨earlier, mem, rfl⟩, ?_⟩
      split
      · rename_i larger
        exact ⟨larger.1.symm, larger.2.le, fun _ => le_rfl⟩
      · rename_i smaller
        exact ⟨rfl, le_rfl, fun same => not_lt.mp fun larger => smaller ⟨same, larger⟩⟩
    rcases either with mem | rfl
    · obtain ⟨largest, mem, same, size, -⟩ := replaced other mem
      exact ⟨largest, mem, same, size⟩
    · obtain ⟨earlier, mem, same⟩ := List.any_eq_true.mp known
      obtain ⟨largest, mem, key, -, size⟩ := replaced earlier mem
      exact ⟨largest, mem, key.trans (beq_iff_eq.mp same), size (beq_iff_eq.mp same)⟩
  · exact ⟨other, by simpa using either, rfl, le_rfl⟩

theorem mem_foldl_keepLargest (entries : List ObjectEntry) :
    ∀ kept, ∀ other ∈ entries.foldl keepLargest kept, other ∈ kept ∨ other ∈ entries := by
  induction entries with
  | nil => exact fun kept other mem => .inl mem
  | cons entry rest ih =>
    intro kept other mem
    rcases ih _ other mem with mem | mem
    · rcases mem_keepLargest mem with mem | rfl
      · exact .inl mem
      · exact .inr (by simp)
    · exact .inr (List.mem_cons_of_mem _ mem)

theorem foldl_keepLargest_keeps (entries : List ObjectEntry) :
    ∀ kept, ∀ other, other ∈ kept ∨ other ∈ entries →
      ∃ largest ∈ entries.foldl keepLargest kept,
        largest.key = other.key ∧ other.size ≤ largest.size := by
  induction entries with
  | nil =>
    rintro kept other (mem | mem)
    · exact ⟨other, mem, rfl, le_rfl⟩
    · simp at mem
  | cons entry rest ih =>
    intro kept other either
    rw [List.mem_cons, ← or_assoc] at either
    rcases either with early | late
    · obtain ⟨larger, mem, key, size⟩ := keepLargest_keeps early
      obtain ⟨largest, mem, key', size'⟩ := ih _ larger (.inl mem)
      exact ⟨largest, mem, key'.trans key, size.trans size'⟩
    · exact ih _ other (.inr late)

theorem unaddressableUnits_seen (packing : Packing) (entries : List ObjectEntry) :
    ∀ seen, (∀ entry ∈ entries, addressable entry.key = false) →
      ∀ key ∈ (unaddressableUnits addressable packing entries seen).2,
        key ∈ seen ∨ ∃ unit ∈ (unaddressableUnits addressable packing entries seen).1,
          unit.Names key := by
  induction entries with
  | nil => exact fun seen _ key known => .inl known
  | cons entry rest ih =>
    intro seen hidden key known
    have later := ih
    rw [unaddressableUnits] at known ⊢
    split at known
    · rename_i skipped
      rw [if_pos skipped]
      exact ih seen (fun other mem => hidden other (List.mem_cons_of_mem _ mem)) key known
    · rename_i fresh
      rw [if_neg fresh]
      rcases ih (entry.key :: seen) (fun other mem => hidden other (List.mem_cons_of_mem _ mem))
        key known with earlier | ⟨unit, minted, names⟩
      · rcases List.mem_cons.mp earlier with rfl | earlier
        · have whole : partsOf addressable packing entry = [none] :=
            partsOf_unaddressable (hidden entry (by simp))
          exact .inr ⟨⟨[entry], none⟩, by simp [aloneUnits, whole],
            by simp [SplitDescriptor.Names]⟩
        · exact .inl earlier
      · exact .inr ⟨unit, List.mem_append_right _ minted, names⟩

theorem unaddressableUnits_mono (packing : Packing) (entries : List ObjectEntry) :
    ∀ seen, ∀ key ∈ seen, key ∈ (unaddressableUnits addressable packing entries seen).2 := by
  induction entries with
  | nil => exact fun seen key known => known
  | cons entry rest ih =>
    intro seen key known
    rw [unaddressableUnits]
    split
    · exact ih seen key known
    · exact ih (entry.key :: seen) key (List.mem_cons_of_mem _ known)

variable (addressable) in
theorem unaddressableUnits_sees (packing : Packing) (entries : List ObjectEntry) :
    ∀ seen, ∀ entry ∈ entries, 0 < entry.size →
      entry.key ∈ (unaddressableUnits addressable packing entries seen).2 := by
  induction entries with
  | nil => simp
  | cons first rest ih =>
    intro seen entry mem size
    rw [unaddressableUnits]
    rcases List.mem_cons.mp mem with rfl | mem
    · split
      · rename_i skipped
        simp only [Bool.or_eq_true, decide_eq_true_eq, List.contains_iff_mem] at skipped
        rcases skipped with empty | known
        · omega
        · exact unaddressableUnits_mono packing rest seen entry.key known
      · exact unaddressableUnits_mono packing rest _ entry.key (by simp)
    · split
      · exact ih seen entry mem size
      · exact ih _ entry mem size

/-! ## What a run still has to ask for -/

/-- The units confirmed, and those still pending, once `requests` were made. -/
def settledBy (has : SplitDescriptor → Prop) (pending : List SplitDescriptor) :
    List Request → (SplitDescriptor → Prop) × List SplitDescriptor
  | [] => (has, pending)
  | .publish unit :: rest => settledBy has (pending ++ [unit]) rest
  | .settleAll :: rest => settledBy (fun unit => has unit ∨ unit ∈ pending) [] rest
  | .writeCheckpoint _ :: rest => settledBy has pending rest
  | .writeEnd :: rest => settledBy has pending rest

/-- Every write among `requests` is of something the units confirmed by then cover. -/
def Backed (listing : Listing addressable) (packing : Packing) (has : SplitDescriptor → Prop)
    (pending : List SplitDescriptor) : List Request → Prop
  | [] => True
  | .publish unit :: rest => Backed listing packing has (pending ++ [unit]) rest
  | .settleAll :: rest => Backed listing packing (fun unit => has unit ∨ unit ∈ pending) [] rest
  | .writeCheckpoint key :: rest =>
    Covered listing packing has (· ≤ key) ∧ Backed listing packing has pending rest
  | .writeEnd :: rest =>
    Covered listing packing has (fun _ => True) ∧ Backed listing packing has pending rest

/-- The unit is confirmed, or is and will be published. -/
def Underway (has : SplitDescriptor → Prop) (pending : List SplitDescriptor)
    (requests : List Request) (unit : SplitDescriptor) : Prop :=
  has unit ∨ unit ∈ pending ∨ .publish unit ∈ requests

section

variable {listing : Listing addressable} {packing : Packing}

variable {start : Option String} {pages : List Listed}

theorem settledBy_iff (requests : List Request) :
    ∀ (has : SplitDescriptor → Prop) (pending : List SplitDescriptor) (unit : SplitDescriptor),
      (settledBy has pending requests).1 unit ∨ unit ∈ (settledBy has pending requests).2 ↔
        Underway has pending requests unit := by
  induction requests with
  | nil => simp [settledBy, Underway]
  | cons request rest ih =>
    intro has pending unit
    cases request with
    | publish other =>
      rw [settledBy, ih]
      simp only [Underway, List.mem_append, List.mem_cons,
        Request.publish.injEq]
      tauto
    | settleAll =>
      rw [settledBy, ih]
      simp only [Underway, List.mem_cons, reduceCtorEq, List.not_mem_nil, false_or]
      tauto
    | writeCheckpoint | writeEnd =>
      rw [settledBy, ih]
      simp only [Underway, List.mem_cons, reduceCtorEq, false_or]

theorem settledBy_append (requests more : List Request) :
    ∀ (has : SplitDescriptor → Prop) (pending : List SplitDescriptor),
      settledBy has pending (requests ++ more) =
        settledBy (settledBy has pending requests).1 (settledBy has pending requests).2 more := by
  induction requests with
  | nil => exact fun _ _ => rfl
  | cons request rest ih =>
    intro has pending
    cases request <;> exact ih _ _

theorem backed_append (requests more : List Request) :
    ∀ (has : SplitDescriptor → Prop) (pending : List SplitDescriptor),
      Backed listing packing has pending (requests ++ more) ↔
        Backed listing packing has pending requests ∧
          Backed listing packing (settledBy has pending requests).1
            (settledBy has pending requests).2 more := by
  induction requests with
  | nil => simp [Backed, settledBy]
  | cons request rest ih =>
    intro has pending
    cases request with
    | publish | settleAll => exact ih _ _
    | writeCheckpoint | writeEnd =>
      simp only [List.cons_append, Backed, settledBy, ih, and_assoc]

theorem backed_publishes (units : List SplitDescriptor) :
    ∀ (has : SplitDescriptor → Prop) (pending : List SplitDescriptor),
      Backed listing packing has pending (units.map .publish) := by
  induction units with
  | nil => exact fun _ _ => trivial
  | cons unit rest ih => exact fun has pending => ih has (pending ++ [unit])

theorem Backed.mono {requests : List Request} :
    ∀ {has more : SplitDescriptor → Prop} {pending fewer : List SplitDescriptor},
      Backed listing packing has pending requests → (∀ unit, has unit → more unit) →
      (∀ unit ∈ pending, more unit ∨ unit ∈ fewer) →
        Backed listing packing more fewer requests := by
  induction requests with
  | nil => exact fun _ _ _ => trivial
  | cons request rest ih =>
    intro has more pending fewer backed includes settles
    cases request with
    | publish unit =>
      refine ih backed includes fun other mem => ?_
      rcases List.mem_append.mp mem with mem | new
      · exact (settles other mem).imp_right (List.mem_append_left _)
      · exact .inr (List.mem_append_right _ new)
    | settleAll =>
      refine ih backed (fun other held => ?_) (by simp)
      rcases held with held | mem
      · exact .inl (includes other held)
      · exact settles other mem
    | writeCheckpoint | writeEnd => exact ⟨backed.1.mono includes, ih backed.2 includes settles⟩

/-! ## The invariant of a listing -/

/-- What the listing yields or records next sorts after `key`. -/
def Listed.After (key : String) : Listed → Prop
  | .page unaddressable => ∀ entry ∈ unaddressable, key < entry.key
  | .key entry => key < entry.key

/-- Everything the listing brings after a key sorts after it. -/
def Listed.Before : Listed → Listed → Prop
  | .page _, _ => True
  | .key entry, later => later.After entry.key

/-- Every listed object is still to come, waits in the open unit, or is in units the feed
confirmed or the run asks it to; nothing up to the candidate is still to come. -/
structure Progress (listing : Listing addressable) (packing : Packing)
    (has : SplitDescriptor → Prop) (s : Publishing) : Prop where
  cuts : s.packer.packing = packing
  whole : s.packer.Whole
  backed : Backed listing packing has s.pending s.requests
  keys : ∀ entry ∈ listing.keys, 0 < entry.size →
    .key entry ∈ s.listing ∨ entry ∈ s.packer.opened ∨
      ∀ part ∈ partsOf addressable packing entry,
        ∃ unit, Underway has s.pending s.requests unit ∧ unit.Covers entry part
  unaddressable : ∀ entry ∈ listing.unaddressable, 0 < entry.size →
    (∃ page, .page page ∈ s.listing ∧ entry ∈ page) ∨ entry ∈ s.recorded ∨
      ∃ unit, Underway has s.pending s.requests unit ∧ unit.Names entry.key
  seen : ∀ key ∈ s.seen, ∃ unit, Underway has s.pending s.requests unit ∧ unit.Names key
  recorded : ∀ entry ∈ s.recorded, addressable entry.key = false
  pages : ∀ page, .page page ∈ s.listing → ∀ entry ∈ page, addressable entry.key = false
  candidate : ∀ key, s.candidate = some key → ∀ item ∈ s.listing, item.After key
  ordered : s.listing.Pairwise Listed.Before

namespace Progress

variable {has : SplitDescriptor → Prop} {s : Publishing}

variable {entry : ObjectEntry} {rest : List Listed}

/-- The invariant speaks of a unit only as underway. -/
theorem reframe (progress : Progress listing packing has s) {more : SplitDescriptor → Prop}
    {pending : List SplitDescriptor} {requests : List Request}
    (backed : Backed listing packing more pending requests)
    (underway : ∀ unit, Underway has s.pending s.requests unit →
      Underway more pending requests unit) (written : Option String) (sinceWrite attempt : Nat) :
    Progress listing packing more { s with
      pending := pending, requests := requests, written := written, sinceWrite := sinceWrite,
      attempt := attempt } where
  cuts := progress.cuts
  whole := progress.whole
  backed := backed
  keys entry listed size := by
    refine (progress.keys entry listed size).imp_right (.imp_right fun covered part one => ?_)
    obtain ⟨unit, way, covers⟩ := covered part one
    exact ⟨unit, underway unit way, covers⟩
  unaddressable entry listed size := by
    refine (progress.unaddressable entry listed size).imp_right (.imp_right ?_)
    rintro ⟨unit, way, names⟩
    exact ⟨unit, underway unit way, names⟩
  seen key known := by
    obtain ⟨unit, way, names⟩ := progress.seen key known
    exact ⟨unit, underway unit way, names⟩
  recorded := progress.recorded
  pages := progress.pages
  candidate := progress.candidate
  ordered := progress.ordered

theorem append (progress : Progress listing packing has s) {more : List Request}
    (backed : Backed listing packing (settledBy has s.pending s.requests).1
      (settledBy has s.pending s.requests).2 more) (written : Option String) (sinceWrite : Nat) :
    Progress listing packing has { s with
      requests := s.requests ++ more, written := written, sinceWrite := sinceWrite } := by
  refine progress.reframe ((backed_append _ _ _ _).mpr ⟨progress.backed, backed⟩)
    (fun unit way => ?_) written sinceWrite s.attempt
  exact way.imp_right (.imp_right (List.mem_append_left _))

theorem publishUnaddressable (progress : Progress listing packing has s) :
    Progress listing packing has (s.publishUnaddressable addressable) := by
  have kept : ∀ entry ∈ largestPerKey s.recorded, addressable entry.key = false := fun entry mem =>
    progress.recorded entry ((mem_foldl_keepLargest _ [] entry mem).resolve_left (by simp))
  have seen := unaddressableUnits_seen s.packer.packing (largestPerKey s.recorded) s.seen kept
  have sees := unaddressableUnits_sees addressable s.packer.packing
    (largestPerKey s.recorded) s.seen
  simp only [Publishing.publishUnaddressable]
  generalize unaddressableUnits addressable s.packer.packing (largestPerKey s.recorded) s.seen =
    minted at seen sees ⊢
  have added := progress.append (backed_publishes minted.1 _ _) s.written s.sinceWrite
  have known : ∀ key ∈ minted.2, ∃ unit,
      Underway has s.pending (s.requests ++ minted.1.map .publish) unit ∧ unit.Names key := by
    intro key mem
    rcases seen key mem with earlier | ⟨unit, new, names⟩
    · exact added.seen key earlier
    · exact ⟨unit, .inr (.inr (List.mem_append_right _ (List.mem_map_of_mem new))), names⟩
  refine { added with
    unaddressable := fun entry listed size => ?_, seen := known, recorded := by simp }
  rcases added.unaddressable entry listed size with coming | waits | published
  · exact .inl coming
  · obtain ⟨largest, mem, key, larger⟩ := foldl_keepLargest_keeps s.recorded [] entry (.inr waits)
    exact .inr (.inr (key ▸ known largest.key (sees largest mem (size.trans_le larger))))
  · exact .inr (.inr published)

/-- Once every publish is settled, the units confirmed cover what the listing has passed. -/
theorem covered (progress : Progress listing packing has s) (closed : s.packer.opened = [])
    (published : s.recorded = [])
    (settled : (settledBy has s.pending s.requests).2 = []) {bound : String → Prop}
    (past : ∀ item ∈ s.listing, ∀ key, bound key → item.After key) :
    Covered listing packing (settledBy has s.pending s.requests).1 bound := by
  have confirmed : ∀ unit, Underway has s.pending s.requests unit →
      (settledBy has s.pending s.requests).1 unit := by
    intro unit way
    rcases (settledBy_iff s.requests has s.pending unit).mpr way with held | waits
    · exact held
    · simp [settled] at waits
  refine ⟨fun entry listed size bounded part one => ?_, fun entry listed size bounded => ?_⟩
  · rcases progress.keys entry listed size with coming | waits | covered
    · exact absurd (past _ coming entry.key bounded) (lt_irrefl entry.key)
    · simp [closed] at waits
    · obtain ⟨unit, way, covers⟩ := covered part one
      exact ⟨unit, confirmed unit way, covers⟩
  · rcases progress.unaddressable entry listed size with ⟨page, coming, mem⟩ | waits | covered
    · exact absurd (past _ coming entry.key bounded entry mem) (lt_irrefl entry.key)
    · simp [published] at waits
    · obtain ⟨unit, way, names⟩ := covered
      exact ⟨unit, confirmed unit way, names⟩

theorem repack (progress : Progress listing packing has s) {packer : Packer}
    {minted : List SplitDescriptor} (kept : s.packer.Kept packer minted) :
    Progress listing packing has { s with
      packer := packer, requests := s.requests ++ minted.map .publish } := by
  have added := progress.append (backed_publishes minted _ _) s.written s.sinceWrite
  refine { added with
    cuts := kept.packing.trans progress.cuts, whole := kept.whole,
    keys := fun entry listed size => ?_ }
  rcases added.keys entry listed size with coming | waits | covered
  · exact .inl coming
  · rcases kept.waited entry waits with waits | ⟨unit, new, covers⟩
    · exact .inr (.inl waits)
    · refine .inr (.inr fun part one => ?_)
      rw [partsOf_whole (progress.cuts ▸ progress.whole entry waits), List.mem_singleton] at one
      exact ⟨unit, .inr (.inr (List.mem_append_right _ (List.mem_map_of_mem new))), one ▸ covers⟩
  · exact .inr (.inr covered)

theorem settleOpen (progress : Progress listing packing has s) :
    Progress listing packing has (s.settleOpen addressable) := by
  have closed := progress.repack (Packer.kept_close addressable progress.whole)
  have settles : ∀ has pending, Backed listing packing has pending [.settleAll] :=
    fun _ _ => trivial
  exact closed.append (settles _ _) s.written s.sinceWrite

theorem settledBy_settleOpen :
    (settledBy has (s.settleOpen addressable).pending
      (s.settleOpen addressable).requests).2 = [] := by
  simp only [Publishing.settleOpen, settledBy_append, settledBy]

/-- Writing the candidate is backed once the open unit is closed and all is settled. -/
theorem backed_candidate (progress : Progress listing packing has s)
    (closed : s.packer.opened = []) (published : s.recorded = [])
    (settled : (settledBy has s.pending s.requests).2 = []) (config : ListerConfig) :
    Backed listing packing (settledBy has s.pending s.requests).1
      (settledBy has s.pending s.requests).2 (writeCheckpoint config s.candidate) := by
  cases candidate : s.candidate with
  | none => trivial
  | some key =>
    rw [writeCheckpoint]
    split
    · refine ⟨progress.covered closed published settled fun item mem other bounded => ?_, trivial⟩
      have after := progress.candidate key candidate item mem
      cases item with
      | page page => exact fun entry inPage => bounded.trans_lt (after entry inPage)
      | key entry => exact bounded.trans_lt after
    · trivial

theorem checkpoint (progress : Progress listing packing has s) (published : s.recorded = [])
    (config : ListerConfig) :
    Progress listing packing has (s.checkpoint addressable config) := by
  unfold Publishing.checkpoint
  split
  · have closed := progress.settleOpen
    exact closed.append (closed.backed_candidate rfl published settledBy_settleOpen config) _ _
  · exact progress

theorem yielded (progress : Progress listing packing has s)
    (next : s.listing = .key entry :: rest)
    (taken : 0 < entry.size → entry ∈ s.packer.opened ∨
      ∀ part ∈ partsOf addressable packing entry,
        ∃ unit, Underway has s.pending s.requests unit ∧ unit.Covers entry part) :
    Progress listing packing has { s with listing := rest } := by
  have later : ∀ item ∈ rest, item ∈ s.listing := fun item mem => by simp [next, mem]
  refine { progress with
    keys := fun other listed size => ?_, unaddressable := fun other listed size => ?_,
    pages := fun page mem => progress.pages page (later _ mem),
    candidate := fun key same item mem => progress.candidate key same item (later item mem),
    ordered := (List.pairwise_cons.mp (next ▸ progress.ordered)).2 }
  · rcases progress.keys other listed size with coming | covered
    · rw [next, List.mem_cons, Listed.key.injEq] at coming
      rcases coming with rfl | coming
      · exact .inr (taken size)
      · exact .inl coming
    · exact .inr covered
  · refine (progress.unaddressable other listed size).imp_left ?_
    rintro ⟨page, coming, mem⟩
    rw [next, List.mem_cons] at coming
    exact ⟨page, coming.resolve_left (by simp), mem⟩

theorem publishKey (progress : Progress listing packing has s)
    (next : s.listing = .key entry :: rest) :
    Progress listing packing has
      { s.publishKey addressable entry with listing := rest } := by
  simp only [Publishing.publishKey]
  split
  · rename_i empty
    have yielded := progress.yielded next fun size => absurd empty (by omega)
    exact yielded.reframe yielded.backed (fun _ way => way) s.written (s.sinceWrite + 1) s.attempt
  · obtain ⟨kept, taken⟩ := Packer.push_spec addressable progress.whole entry
    have pushed := progress.repack kept
    have yielded := pushed.yielded next fun _ => by
      rcases taken with ⟨waits, -⟩ | covered
      · exact .inl waits
      · refine .inr fun part one => ?_
        obtain ⟨unit, new, covers⟩ := covered part (progress.cuts.symm ▸ one)
        exact ⟨unit, .inr (.inr (List.mem_append_right _ (List.mem_map_of_mem new))), covers⟩
    have counted := yielded.reframe yielded.backed (fun _ way => way) s.written
      (s.sinceWrite + 1) s.attempt
    have after : ∀ item ∈ rest, item.After entry.key :=
      (List.pairwise_cons.mp (next ▸ progress.ordered)).1
    refine { counted with candidate := fun key same => ?_ }
    dsimp only at same
    split at same
    · obtain rfl := Option.some.inj same
      exact after
    · exact counted.candidate key same

theorem checkpoint_listing (s : Publishing) (config : ListerConfig) (rest : List Listed) :
    { s with listing := rest }.checkpoint addressable config =
      { s.checkpoint addressable config with listing := rest } := by
  by_cases due : config.checkpointEvery ≤ s.sinceWrite ∧ s.candidate ≠ s.written
  · simp only [Publishing.checkpoint, if_pos due]
    rfl
  · simp only [Publishing.checkpoint, if_neg due]

theorem publishKey_listing (s : Publishing) (entry : ObjectEntry) (rest : List Listed) :
    { s with listing := rest }.publishKey addressable entry =
      { s.publishKey addressable entry with listing := rest } := by
  by_cases empty : entry.size = 0
  · simp only [Publishing.publishKey, if_pos empty]
  · simp only [Publishing.publishKey, if_neg empty]

/-- What a yielded key does depends on nothing that is still to come. -/
theorem onKey_listing (s : Publishing) (config : ListerConfig) (entry : ObjectEntry)
    (rest : List Listed) :
    { s with listing := rest }.onKey addressable config entry =
      { s.onKey addressable config entry with listing := rest } := by
  rw [Publishing.onKey, Publishing.onKey, ← publishKey_listing, ← checkpoint_listing]
  rfl

theorem onKey (progress : Progress listing packing has s) (next : s.listing = .key entry :: rest)
    (config : ListerConfig) :
    Progress listing packing has
      { s.onKey addressable config entry with listing := rest } := by
  have checked := progress.publishUnaddressable.checkpoint rfl config
  refine checked.publishKey ?_
  unfold Publishing.checkpoint
  split <;> exact next

end Progress

theorem settledBy_writeCheckpoint (has : SplitDescriptor → Prop) (pending : List SplitDescriptor)
    (config : ListerConfig) (key : Option String) :
    settledBy has pending (writeCheckpoint config key) = (has, pending) := by
  unfold writeCheckpoint
  split
  · split <;> rfl
  · rfl

namespace Progress

variable {has : SplitDescriptor → Prop} {s : Publishing}

theorem onEnd (progress : Progress listing packing has s) (ended : s.listing = [])
    (config : ListerConfig) : Progress listing packing has (s.onEnd addressable config) := by
  have closed := progress.publishUnaddressable.settleOpen
  generalize same : (s.publishUnaddressable addressable).settleOpen addressable = last at closed
  have settled : (settledBy has last.pending last.requests).2 = [] :=
    same ▸ settledBy_settleOpen
  have all : Covered listing packing (settledBy has last.pending last.requests).1 fun _ => True :=
    closed.covered (same ▸ rfl) (same ▸ rfl) settled fun item mem => absurd mem (by
      simp [← same, Publishing.settleOpen, Publishing.publishUnaddressable, ended])
  have writes := closed.backed_candidate (same ▸ rfl) (same ▸ rfl) settled config
  rw [Publishing.onEnd, same]
  simp only [List.append_assoc]
  refine closed.append ((backed_append _ _ _ _).mpr ?_) last.written last.sinceWrite
  split
  · exact ⟨writes, by rw [settledBy_writeCheckpoint]; exact ⟨all, trivial⟩⟩
  · exact ⟨trivial, all, trivial⟩

theorem next (progress : Progress listing packing has s) (config : ListerConfig) :
    Progress listing packing has (s.next addressable config) := by
  unfold Publishing.next
  split
  · rename_i ended
    exact progress.onEnd ended config
  · rename_i page rest coming
    have later : ∀ item ∈ rest, item ∈ s.listing := fun item mem => by simp [coming, mem]
    refine { progress with
      keys := fun entry listed size => ?_, unaddressable := fun entry listed size => ?_,
      recorded := fun entry mem => ?_,
      pages := fun page mem => progress.pages page (later _ mem),
      candidate := fun key same item mem => progress.candidate key same item (later item mem),
      ordered := (List.pairwise_cons.mp (coming ▸ progress.ordered)).2 }
    · refine (progress.keys entry listed size).imp_left fun mem => ?_
      rw [coming, List.mem_cons] at mem
      exact mem.resolve_left (by simp)
    · rcases progress.unaddressable entry listed size with ⟨other, mem, inPage⟩ | waits | covered
      · rw [coming, List.mem_cons, Listed.page.injEq] at mem
        rcases mem with rfl | mem
        · exact .inr (.inl (List.mem_append_right _ inPage))
        · exact .inl ⟨other, mem, inPage⟩
      · exact .inr (.inl (List.mem_append_left _ waits))
      · exact .inr (.inr covered)
    · rcases List.mem_append.mp mem with mem | mem
      · exact progress.recorded entry mem
      · exact progress.pages page (by simp [coming]) entry mem
  · rename_i entry rest coming
    rw [onKey_listing]
    exact progress.onKey coming config

end Progress

theorem mem_pages_of_listed (paged : Paged listing start pages) {entry : ObjectEntry}
    (listed : entry ∈ listing.keys) (after : listedAfter start entry.key = true) :
    .key entry ∈ pages := by
  have mem : entry ∈ pages.filterMap Listed.yields := by
    rw [paged.yields]
    exact List.mem_filter.mpr ⟨listed, after⟩
  obtain ⟨item, inPages, yields⟩ := List.mem_filterMap.mp mem
  cases item with
  | page page => cases yields
  | key other => exact Option.some.inj yields ▸ inPages

theorem le_of_not_listedAfter {key : String} (before : listedAfter start key ≠ true) :
    ∃ offset, start = some offset ∧ key ≤ offset := by
  cases start with
  | none => simp [listedAfter] at before
  | some offset =>
    have passed : ¬ offset < key := fun after => before (decide_eq_true after)
    exact ⟨offset, rfl, not_lt.mp passed⟩

theorem ordered_of_paged (paged : Paged listing start pages) : pages.Pairwise Listed.Before := by
  have ascending : (pages.filterMap Listed.yields).Pairwise
      fun earlier later => earlier.key < later.key := by
    rw [paged.yields]
    exact listing.ascending.filter _
  rw [List.pairwise_filterMap] at ascending
  refine (paged.precedes.and ascending).imp fun {earlier later} both => ?_
  cases earlier with
  | page page => trivial
  | key entry =>
    cases later with
    | page page => exact both.1
    | key other => exact both.2 entry rfl other rfl

/-- A listing starts after a checkpoint whose objects are confirmed. -/
theorem progress_start {has : SplitDescriptor → Prop} (paged : Paged listing start pages)
    (resumed : ∀ key, start = some key → Covered listing packing has (· ≤ key)) :
    Progress listing packing has
      { packer := { packing := packing }, listing := pages, written := start } where
  cuts := rfl
  whole := fun entry waits => by simp at waits
  backed := trivial
  keys entry listed size := by
    by_cases after : listedAfter start entry.key = true
    · exact .inl (mem_pages_of_listed paged listed after)
    · obtain ⟨offset, same, before⟩ := le_of_not_listedAfter after
      refine .inr (.inr fun part one => ?_)
      obtain ⟨unit, held, covers⟩ := (resumed offset same).keys entry listed size before part one
      exact ⟨unit, .inl held, covers⟩
  unaddressable entry listed size := by
    by_cases after : listedAfter start entry.key = true
    · have mem : entry ∈ pages.flatMap Listed.records := by
        rw [paged.records]
        exact List.mem_filter.mpr ⟨listed, after⟩
      obtain ⟨item, inPages, records⟩ := List.mem_flatMap.mp mem
      cases item with
      | page page => exact .inl ⟨page, inPages, records⟩
      | key other => simp [Listed.records] at records
    · obtain ⟨offset, same, before⟩ := le_of_not_listedAfter after
      obtain ⟨unit, held, names⟩ := (resumed offset same).unaddressable entry listed size before
      exact .inr (.inr ⟨unit, .inl held, names⟩)
  seen := by simp
  recorded := by simp
  pages page mem entry inPage := by
    have recorded : entry ∈ pages.flatMap Listed.records := List.mem_flatMap.mpr ⟨_, mem, inPage⟩
    rw [paged.records] at recorded
    exact listing.hidden entry (List.mem_filter.mp recorded).1
  candidate := by simp
  ordered := ordered_of_paged paged

end

/-! ## Runs at one location -/

def Job.Confirmed (job : Job) (fingerprint : JobFingerprint) (unit : SplitDescriptor) : Prop :=
  (fingerprint, unit) ∈ job.confirmed

structure Job.LocationSound (listing : Listing addressable) (job : Job) : Prop where
  checkpoint : ∀ key fingerprint, job.location.checkpoint = some key →
    job.location.fingerprint = some fingerprint →
    Covered listing fingerprint.packing (job.Confirmed fingerprint) (· ≤ key)
  ending : ∀ id, job.location.ending = some id → 0 < id →
    ∃ fingerprint, job.location.fingerprint = some fingerprint ∧
      Covered listing fingerprint.packing (job.Confirmed fingerprint) fun _ => True

/-- What a run knows where it is. -/
def Job.Holds (listing : Listing addressable) (job : Job) (run : ListerRun) : Prop :=
  let mine := run.config.fingerprint
  let resumed := fun start : Option String => ∀ key, start = some key →
    Covered listing mine.packing (job.Confirmed mine) (· ≤ key)
  match run.ctl with
  | .readFingerprint | .deleteCheckpoint => True
  | .createFingerprint _ | .readRefused _ => job.location.checkpoint = none
  | .readCheckpoint => job.location.fingerprint = some mine
  | .deleteEnd start => job.location.fingerprint = some mine ∧ resumed start
  | .list start =>
    job.location.fingerprint = some mine ∧ job.location.ending = none ∧ resumed start
  | .publishing s =>
    job.location.fingerprint = some mine ∧ job.location.ending = none ∧
      Progress listing mine.packing (job.Confirmed mine) s

structure Job.Sound (listing : Listing addressable) (job : Job) : Prop where
  location : job.LocationSound listing
  run : ∀ run, job.run = some run → job.Holds listing run

namespace Job

variable {listing : Listing addressable} {job : Job} {run : ListerRun}

theorem LocationSound.stopped (sound : job.LocationSound listing) : job.stopped.Sound listing :=
  ⟨⟨sound.checkpoint, sound.ending⟩, fun _ active => by cases active⟩

theorem LocationSound.goto (sound : job.LocationSound listing) {ctl : ListerCtl}
    (holds : job.Holds listing { run with ctl := ctl }) : (job.goto run ctl).Sound listing := by
  refine ⟨⟨sound.checkpoint, sound.ending⟩, fun other active => ?_⟩
  obtain rfl := Option.some.inj active
  exact holds

theorem LocationSound.compare (sound : job.LocationSound listing) {stored : JobFingerprint}
    (found : job.location.fingerprint = some stored) : (job.compare run stored).Sound listing := by
  unfold Job.compare
  split
  · rename_i same
    subst same
    unfold matched
    split
    · exact sound.goto found
    · exact sound.goto ⟨found, by simp⟩
  · exact sound.stopped

theorem LocationSound.setFingerprint (sound : job.LocationSound listing)
    (fresh : job.location.checkpoint = none) (mine : JobFingerprint) :
    (job.setFingerprint mine).LocationSound listing := by
  refine ⟨fun key fingerprint written => ?_, fun id marked runs => ?_⟩
  · simp [Job.setFingerprint, fresh] at written
  · obtain ⟨fingerprint, found, covered⟩ := sound.ending id marked runs
    exact ⟨fingerprint, by simp [Job.setFingerprint, found], covered⟩

theorem LocationSound.deleteCheckpoint (sound : job.LocationSound listing) :
    (job.setCheckpoint none).LocationSound listing :=
  ⟨fun _ _ written => (by cases written), sound.ending⟩

theorem LocationSound.deleteEnd (sound : job.LocationSound listing) :
    (job.setEnding none).LocationSound listing :=
  ⟨sound.checkpoint, fun _ marked => (by cases marked)⟩

theorem LocationSound.writeCheckpoint (sound : job.LocationSound listing)
    {mine : JobFingerprint} (found : job.location.fingerprint = some mine) {key : String}
    (covered : Covered listing mine.packing (job.Confirmed mine) (· ≤ key)) :
    (job.setCheckpoint (some key)).LocationSound listing := by
  refine ⟨fun other fingerprint written stored => ?_, sound.ending⟩
  obtain rfl := Option.some.inj written
  obtain rfl := Option.some.inj (found.symm.trans stored)
  exact covered

theorem LocationSound.writeEnd (sound : job.LocationSound listing)
    {mine : JobFingerprint} (found : job.location.fingerprint = some mine)
    (covered : Covered listing mine.packing (job.Confirmed mine) fun _ => True) (id : Nat) :
    (job.setEnding (some id)).LocationSound listing :=
  ⟨sound.checkpoint, fun _ _ _ => ⟨mine, found, covered⟩⟩

theorem LocationSound.confirm (sound : job.LocationSound listing)
    (confirmation : JobFingerprint × SplitDescriptor) :
    LocationSound listing { job with confirmed := job.confirmed ++ [confirmation] } := by
  refine ⟨fun key fingerprint written stored => ?_, fun id marked runs => ?_⟩
  · exact (sound.checkpoint key fingerprint written stored).mono
      fun unit held => List.mem_append_left _ held
  · obtain ⟨fingerprint, found, covered⟩ := sound.ending id marked runs
    exact ⟨fingerprint, found, covered.mono fun unit held => List.mem_append_left _ held⟩

section

variable {s : Publishing} {next : Job}

variable {event : ListerEvent}

theorem sound_settle (sound : job.LocationSound listing)
    (found : job.location.fingerprint = some run.config.fingerprint)
    (unmarked : job.location.ending = none)
    (progress : Progress listing run.config.fingerprint.packing
      (job.Confirmed run.config.fingerprint) s) {answer : FeedAnswer}
    (taken : job.settle run s answer = some next) : next.Sound listing := by
  unfold settle at taken
  split at taken
  · cases taken
  · rename_i unit rest pending
    split at taken
    · obtain rfl := Option.some.inj taken
      refine (sound.confirm _).goto ⟨found, unmarked, ?_⟩
      refine progress.reframe (progress.backed.mono (fun _ => List.mem_append_left _)
        fun other mem => ?_) (fun other way => ?_) s.written s.sinceWrite 1
      · rcases List.mem_cons.mp (pending ▸ mem) with rfl | mem
        · exact .inl (List.mem_append_right _ (by simp))
        · exact .inr mem
      · rcases way with held | mem | asked
        · exact .inl (List.mem_append_left _ held)
        · rcases List.mem_cons.mp (pending ▸ mem) with rfl | mem
          · exact .inl (List.mem_append_right _ (by simp))
          · exact .inr (.inl mem)
        · exact .inr (.inr asked)
    · split at taken
      · obtain rfl := Option.some.inj taken
        exact sound.goto ⟨found, unmarked, progress.reframe progress.backed (fun _ way => way)
          s.written s.sinceWrite (s.attempt + 1)⟩
      · obtain rfl := Option.some.inj taken
        exact sound.stopped
    · obtain rfl := Option.some.inj taken
      exact sound.stopped

theorem sound_publish (sound : job.LocationSound listing)
    (found : job.location.fingerprint = some run.config.fingerprint)
    (unmarked : job.location.ending = none)
    (progress : Progress listing run.config.fingerprint.packing
      (job.Confirmed run.config.fingerprint) s)
    (taken : job.publish addressable run s event = some next) : next.Sound listing := by
  have backed := progress.backed
  unfold publish at taken
  split at taken
  · obtain rfl := Option.some.inj taken
    exact sound.goto ⟨found, unmarked, progress.next run.config⟩
  · rename_i unit rest requests
    split at taken
    · cases taken
    · obtain rfl := Option.some.inj taken
      simp only [requests, Backed] at backed
      refine sound.goto ⟨found, unmarked,
        progress.reframe backed (fun other way => ?_) s.written s.sinceWrite s.attempt⟩
      rw [requests] at way
      simp only [Underway, List.mem_cons, Request.publish.injEq, List.mem_append,
        List.not_mem_nil, or_false] at way ⊢
      tauto
  · split at taken
    · exact sound_settle sound found unmarked progress taken
    · cases taken
  · rename_i rest requests
    split at taken
    · rename_i settled
      obtain rfl := Option.some.inj taken
      simp only [requests, Backed] at backed
      refine sound.goto ⟨found, unmarked, progress.reframe (backed.mono (fun other held => ?_) ?_)
        (fun other way => ?_) s.written s.sinceWrite s.attempt⟩
      · rcases held with held | mem
        · exact held
        · simp [settled] at mem
      · simp
      · simpa [Underway, requests] using way
    · cases taken
  · exact sound_settle sound found unmarked progress taken
  · rename_i key rest requests
    obtain rfl := Option.some.inj taken
    simp only [requests, Backed] at backed
    refine (sound.writeCheckpoint found backed.1).goto ⟨found, unmarked,
      progress.reframe backed.2 (fun other way => ?_) s.written s.sinceWrite s.attempt⟩
    simpa [Underway, requests] using way
  · rename_i key rest requests
    obtain rfl := Option.some.inj taken
    simp only [requests, Backed] at backed
    exact (sound.writeCheckpoint found backed.1).stopped
  · rename_i rest requests
    obtain rfl := Option.some.inj taken
    simp only [requests, Backed] at backed
    exact (sound.writeEnd found backed.1 run.id).stopped
  · rename_i rest requests
    obtain rfl := Option.some.inj taken
    simp only [requests, Backed] at backed
    exact (sound.writeEnd found backed.1 run.id).stopped
  · cases taken

/-- A request of a sound job, made on a consistent listing, leaves it sound. -/
theorem sound_request (sound : job.Sound listing) (active : job.run = some run)
    {underPrefix : String → Bool} (consistent : Consistent listing job event)
    (taken : job.request addressable underPrefix run event = some next) : next.Sound listing := by
  have location := sound.location
  have holds := sound.run run active
  unfold request at taken
  split at taken <;> rename_i at' <;> simp only [Holds, at'] at holds
  · split at taken <;> rename_i found <;> obtain rfl := Option.some.inj taken
    · exact location.compare found
    · exact location.goto trivial
  · obtain rfl := Option.some.inj taken
    exact location.deleteCheckpoint.goto rfl
  · obtain rfl := Option.some.inj taken
    exact location.deleteCheckpoint.stopped
  · split at taken
    · rename_i absent
      obtain rfl := Option.some.inj taken
      refine (location.setFingerprint holds _).goto ⟨?_, by simp⟩
      simp [setFingerprint, absent]
    · cases taken
  · obtain rfl := Option.some.inj taken
    exact (location.setFingerprint holds _).stopped
  · obtain rfl := Option.some.inj taken
    split
    · exact (location.setFingerprint holds _).goto holds
    · exact location.goto holds
  · split at taken <;> rename_i found <;> obtain rfl := Option.some.inj taken
    · exact location.compare found
    · split
      · exact location.goto holds
      · exact location.stopped
  · split at taken <;> rename_i found <;> obtain rfl := Option.some.inj taken
    · exact location.goto ⟨holds, by simp⟩
    · split
      · refine location.goto ⟨holds, fun key same => ?_⟩
        exact Option.some.inj same ▸ location.checkpoint _ _ found holds
      · exact location.stopped
  · obtain rfl := Option.some.inj taken
    exact location.deleteEnd.goto ⟨holds.1, rfl, holds.2⟩
  · obtain rfl := Option.some.inj taken
    exact location.deleteEnd.stopped
  · rename_i start pages
    obtain rfl := Option.some.inj taken
    have paged := consistent pages rfl start (by simp [listsAfter, active, at'])
    exact location.goto ⟨holds.1, holds.2.1, progress_start paged holds.2.2⟩
  · exact sound_publish location holds.1 holds.2.1 holds.2.2 taken
  · cases taken

end

end Job

end Spate.S3
