import Trpi.Sqlite.BranchInserts

/-!
# Runs of inserts

Every insert that its parent and its id permit goes through, in any order and below any
entry, and leaves each stored entry on the branch of its ancestors.
-/

namespace Trpi.Sqlite

open BranchIndex List
open Library (Machine)
open Trpi.Session (Entry EntryType)

variable {β : Type}

/-- What the schema and the sequence numbers promise of an entry that is inserted. -/
structure Permitted (tables : EntryTables β) (e : Entry β) : Prop where
  fresh : ∀ other ∈ tables.entries, other.id ≠ e.id
  parent : ∀ parentId, e.parentId = some parentId → ∃ other ∈ tables.entries, other.id = parentId
  positive : 0 < e.seq
  newer : ∀ other ∈ tables.entries, other.seq < e.seq

section

variable {entries path : List (Entry β)} {rows : List BranchEntry} {branch : BranchMeta}

theorem Based.lowerSeq_lt (based : Based rows branch path) {seq : Nat} (positive : 0 < seq)
    (newer : ∀ other ∈ path, other.seq < seq) : branch.lowerSeq < seq := by
  rw [BranchMeta.lowerSeq]
  cases based with
  | root _ noSeq =>
    rw [noSeq]
    exact positive
  | onto _ boundary mem _ seq _ =>
    rw [seq]
    exact newer boundary mem

theorem Based.grow (based : Based rows branch path) (added : List BranchEntry)
    (longer : List (Entry β)) : Based (rows ++ added) branch (path ++ longer) := by
  cases based with
  | root noBranch noSeq => exact .root noBranch noSeq
  | onto baseBranchId boundary mem branchId seq row =>
    exact .onto baseBranchId boundary (mem_append_left _ mem) branchId seq (mem_append_left _ row)

theorem Holds.grow (holds : Holds entries rows branch path) {more : List (Entry β)}
    (grown : ∀ e ∈ entries, e ∈ more) {added : List BranchEntry}
    (elsewhere : ∀ row ∈ added, row.branchId ≠ branch.branchId) :
    Holds more (rows ++ added) branch path where
  tip := by
    obtain ⟨tip, lineage, id, seq⟩ := holds.tip
    exact ⟨tip, lineage.mono grown, id, seq⟩
  held row := by
    rw [← holds.held row, mem_append, or_and_right]
    constructor
    · rintro (inside | ⟨inside, own⟩)
      · exact inside
      · exact absurd own (elsewhere row inside)
    · exact .inl
  based := by
    rw [← append_nil path]
    exact holds.based.grow added []

end

namespace Indexed

variable {tables : EntryTables β} {e : Entry β} {branch : BranchMeta} {path : List (Entry β)}

section

variable (indexed : Indexed tables) (fresh : ∀ other ∈ tables.entries, other.id ≠ e.id)

include indexed fresh

theorem branch_ne : ∀ branch ∈ tables.branches.branchMeta, branch.branchId ≠ e.id := by
  intro branch inside same
  obtain ⟨other, stored, own⟩ := indexed.named branch inside
  exact fresh other stored (own.trans same)

theorem tip_ne : ∀ branch ∈ tables.branches.branchMeta, branch.tipEntryId ≠ e.id := by
  intro branch inside same
  obtain ⟨path, holds⟩ := indexed.branches branch inside
  obtain ⟨tip, lineage, id, -⟩ := holds.tip
  exact fresh tip lineage.stored (id.trans same)

theorem row_branch_ne : ∀ row ∈ tables.branches.branchEntries, row.branchId ≠ e.id := by
  intro row inside same
  obtain ⟨branch, known, own⟩ := indexed.known row inside
  exact indexed.branch_ne fresh branch known (own.trans same)

theorem row_entry_ne : ∀ row ∈ tables.branches.branchEntries, row.entryId ≠ e.id := by
  intro row inside same
  obtain ⟨branch, known, own⟩ := indexed.known row inside
  obtain ⟨path, holds⟩ := indexed.branches branch known
  obtain ⟨other, mem, -, rfl⟩ := (holds.held row).mp ⟨inside, own.symm⟩
  obtain ⟨tip, lineage, -, -⟩ := holds.tip
  exact fresh other (lineage.mem_stored other mem) same

end

theorem stored (indexed : Indexed tables) (permitted : Permitted tables e) :
    Stored (tables.entries ++ [e]) :=
  indexed.store.insert permitted.fresh permitted.positive permitted.newer permitted.parent

theorem openBranch (indexed : Indexed tables) (permitted : Permitted tables e)
    {added : List BranchEntry}
    (own : branch.branchId = e.id) (tipId : branch.tipEntryId = e.id)
    (tipSeq : branch.tipSeq = e.seq)
    (lineage : Lineage (tables.entries ++ [e]) e path)
    (above : branch.lowerSeq < e.seq)
    (held : ∀ row, row ∈ added ↔ ∃ other ∈ path, branch.lowerSeq < other.seq ∧
      branchRow e.id other = row)
    (keys : (added.map BranchEntry.key).Nodup)
    (based : Based tables.branches.branchEntries branch path) :
    Indexed {
      entries := tables.entries ++ [e]
      branches := {
        branchMeta := tables.branches.branchMeta ++ [branch]
        branchEntries := tables.branches.branchEntries ++ added } } := by
  have target : ∀ row ∈ added, row.branchId = e.id := by
    intro row inside
    obtain ⟨other, -, -, rfl⟩ := (held row).mp inside
    rfl
  have grown : ∀ other ∈ tables.entries, other ∈ tables.entries ++ [e] :=
    fun other mem => mem_append_left _ mem
  constructor
  · exact indexed.stored permitted
  · rw [forall_mem_append, forall_mem_singleton]
    constructor
    · intro old inside
      obtain ⟨oldPath, holds⟩ := indexed.branches old inside
      refine ⟨oldPath, holds.grow grown fun row mem same => ?_⟩
      exact indexed.branch_ne permitted.fresh old inside (same.symm.trans (target row mem))
    · refine ⟨path, ⟨e, lineage, tipId.symm, tipSeq.symm⟩, fun row => ?_, ?_⟩
      · rw [mem_append, own, ← held row]
        constructor
        · rintro ⟨inside | inside, same⟩
          · exact absurd same (indexed.row_branch_ne permitted.fresh row inside)
          · exact inside
        · exact fun inside => ⟨.inr inside, target row inside⟩
      · have wider := based.grow added []
        rwa [append_nil] at wider
  · rw [forall_mem_append]
    constructor
    · intro row inside
      obtain ⟨old, known, same⟩ := indexed.known row inside
      exact ⟨old, mem_append_left _ known, same⟩
    · intro row inside
      exact ⟨branch, mem_append_right _ (mem_singleton_self _), own.trans (target row inside).symm⟩
  · rw [map_append, nodup_append]
    refine ⟨indexed.keys, keys, ?_⟩
    intro old oldIn new newIn same
    obtain ⟨row, inside, rfl⟩ := mem_map.mp oldIn
    obtain ⟨addedRow, addedIn, rfl⟩ := mem_map.mp newIn
    exact indexed.row_branch_ne permitted.fresh row inside
      ((congrArg Prod.fst same).trans (target addedRow addedIn))
  · rw [map_append, nodup_append]
    refine ⟨indexed.branchIds, nodup_singleton _, ?_⟩
    intro id oldIn new newIn same
    obtain ⟨old, inside, rfl⟩ := mem_map.mp oldIn
    rw [map_singleton, mem_singleton] at newIn
    exact indexed.branch_ne permitted.fresh old inside (same.trans (newIn.trans own))
  · rw [map_append, nodup_append]
    refine ⟨indexed.tips, nodup_singleton _, ?_⟩
    intro id oldIn new newIn same
    obtain ⟨old, inside, rfl⟩ := mem_map.mp oldIn
    rw [map_singleton, mem_singleton] at newIn
    exact indexed.tip_ne permitted.fresh old inside (same.trans (newIn.trans tipId))
  · rw [forall_mem_append, forall_mem_singleton]
    constructor
    · intro old inside
      obtain ⟨other, mem, same⟩ := indexed.named old inside
      exact ⟨other, grown other mem, same⟩
    · exact ⟨e, mem_append_right _ (mem_singleton_self _), own.symm⟩
  · rw [forall_mem_append, forall_mem_singleton]
    constructor
    · intro other mem
      obtain ⟨branchId, inside⟩ := indexed.covered other mem
      exact ⟨branchId, mem_append_left _ inside⟩
    · exact ⟨e.id, mem_append_right _ ((held _).mpr ⟨e, lineage.mem_self, above, rfl⟩)⟩

def moveTip (branches : List BranchMeta) (branchId : String) (e : Entry β) :
    List BranchMeta :=
  branches.map fun branch =>
    if branch.branchId = branchId then
      { branch with tipEntryId := e.id, tipSeq := e.seq }
    else branch

theorem moveTip_branchIds (branches : List BranchMeta) (branchId : String) (e : Entry β) :
    (moveTip branches branchId e).map BranchMeta.branchId = branches.map BranchMeta.branchId := by
  rw [moveTip, map_map]
  refine map_congr_left fun branch _ => ?_
  rw [Function.comp_apply]
  split <;> rfl

theorem extendBranch (indexed : Indexed tables) (permitted : Permitted tables e)
    (inside : branch ∈ tables.branches.branchMeta) (below : e.parentId = some branch.tipEntryId) :
    Indexed {
      entries := tables.entries ++ [e]
      branches := {
        branchMeta := moveTip tables.branches.branchMeta branch.branchId e
        branchEntries := tables.branches.branchEntries ++ [branchRow branch.branchId e] } } := by
  have grown : ∀ other ∈ tables.entries, other ∈ tables.entries ++ [e] :=
    fun other mem => mem_append_left _ mem
  have moved : ∀ old ∈ tables.branches.branchMeta,
      ∃ new ∈ moveTip tables.branches.branchMeta branch.branchId e,
        new.branchId = old.branchId := by
    intro old known
    refine ⟨_, mem_map_of_mem known, ?_⟩
    split <;> rfl
  have self : e ∈ tables.entries ++ [e] :=
    mem_append_right _ (mem_singleton_self _)
  obtain ⟨path, holds⟩ := indexed.branches branch inside
  obtain ⟨tip, lineage, tipId, -⟩ := holds.tip
  have newerPath : ∀ other ∈ path, other.seq < e.seq :=
    fun other mem => permitted.newer other (lineage.mem_stored other mem)
  have above := holds.based.lowerSeq_lt permitted.positive newerPath
  have longer : Lineage (tables.entries ++ [e]) e (path ++ [e]) :=
    .child self (below.trans (congrArg some tipId.symm)) (lineage.mono grown)
  constructor
  · exact indexed.stored permitted
  · intro new mem
    obtain ⟨old, known, rfl⟩ := mem_map.mp mem
    split_ifs with same
    · cases inj_on_of_nodup_map indexed.branchIds known inside same
      refine ⟨path ++ [e], ⟨e, longer, rfl, rfl⟩, fun row => ?_, ?_⟩
      · have lower : { branch with
            tipEntryId := e.id, tipSeq := e.seq : BranchMeta }.lowerSeq =
              branch.lowerSeq := rfl
        rw [lower, mem_append, or_and_right, holds.held row, mem_singleton]
        constructor
        · rintro (⟨other, onPath, low, rfl⟩ | ⟨rfl, -⟩)
          · exact ⟨other, mem_append_left _ onPath, low, rfl⟩
          · exact ⟨e, longer.mem_self, above, rfl⟩
        · rintro ⟨other, onPath, low, rfl⟩
          rcases mem_append.mp onPath with earlier | last
          · exact .inl ⟨other, earlier, low, rfl⟩
          · cases mem_singleton.mp last
            exact .inr ⟨rfl, rfl⟩
      · cases holds.based.grow [branchRow branch.branchId e] [e] with
        | root noBranch noSeq => exact .root noBranch noSeq
        | onto baseBranchId boundary onPath branchId seq row =>
          exact .onto baseBranchId boundary onPath branchId seq row
    · obtain ⟨oldPath, oldHolds⟩ := indexed.branches old known
      refine ⟨oldPath, oldHolds.grow grown ?_⟩
      rw [forall_mem_singleton]
      exact Ne.symm same
  · rw [forall_mem_append, forall_mem_singleton]
    constructor
    · intro row mem
      obtain ⟨old, known, same⟩ := indexed.known row mem
      obtain ⟨new, isNew, kept⟩ := moved old known
      exact ⟨new, isNew, kept.trans same⟩
    · exact moved branch inside
  · rw [map_append, nodup_append]
    refine ⟨indexed.keys, nodup_singleton _, ?_⟩
    intro key oldIn new newIn same
    obtain ⟨row, mem, rfl⟩ := mem_map.mp oldIn
    rw [map_singleton, mem_singleton] at newIn
    exact indexed.row_entry_ne permitted.fresh row mem (congrArg Prod.snd (same.trans newIn))
  · rw [moveTip_branchIds]
    exact indexed.branchIds
  · rw [moveTip, map_map]
    refine List.Nodup.map_on ?_ (indexed.branchIds.of_map _)
    intro left leftIn right rightIn same
    rw [Function.comp_apply, Function.comp_apply] at same
    split_ifs at same with leftOwn rightOwn rightOwn
    · exact inj_on_of_nodup_map indexed.branchIds leftIn rightIn (leftOwn.trans rightOwn.symm)
    · exact absurd same.symm (indexed.tip_ne permitted.fresh right rightIn)
    · exact absurd same (indexed.tip_ne permitted.fresh left leftIn)
    · exact inj_on_of_nodup_map indexed.tips leftIn rightIn same
  · intro new mem
    obtain ⟨old, known, rfl⟩ := mem_map.mp mem
    obtain ⟨other, stored, same⟩ := indexed.named old known
    refine ⟨other, grown other stored, ?_⟩
    split <;> exact same
  · rw [forall_mem_append, forall_mem_singleton]
    constructor
    · intro other mem
      obtain ⟨branchId, row⟩ := indexed.covered other mem
      exact ⟨branchId, mem_append_left _ row⟩
    · exact ⟨branch.branchId, mem_append_right _ (mem_singleton_self _)⟩

theorem createRootBranchForEntry (indexed : Indexed tables) (permitted : Permitted tables e)
    (root : e.parentId = none) :
    ∃ branches, tables.branches.createRootBranchForEntry e = .ok branches ∧
      Indexed { entries := tables.entries ++ [e], branches := branches } := by
  have lineage : Lineage (tables.entries ++ [e]) e [e] :=
    .root (mem_append_right _ (mem_singleton_self _)) root
  rw [BranchIndex.createRootBranchForEntry,
    insertBranchMeta_eq (indexed.branch_ne permitted.fresh) (indexed.tip_ne permitted.fresh)]
  dsimp only
  rw [insertBranchRow_eq]
  · refine ⟨_, rfl, ?_⟩
    refine indexed.openBranch permitted rfl rfl rfl lineage permitted.positive ?_
      (nodup_singleton _) (.root rfl rfl)
    intro row
    rw [mem_singleton]
    constructor
    · rintro rfl
      exact ⟨e, mem_singleton_self _, permitted.positive, rfl⟩
    · rintro ⟨other, mem, -, rfl⟩
      rw [mem_singleton.mp mem]
  · intro row inside same
    exact indexed.row_branch_ne permitted.fresh row inside (congrArg Prod.fst same)

theorem based_divergentBranch (e : Entry β) {upper : Nat} {segments : List BranchSegment}
    (covers : Covers tables.branches path upper segments) :
    Based tables.branches.branchEntries (tables.branches.divergentBranch segments e) path := by
  cases found : tables.branches.readNewestCompactionBoundary segments with
  | none =>
    exact .root (by rw [divergentBranch, found]; rfl) (by rw [divergentBranch, found]; rfl)
  | some compaction =>
    obtain ⟨boundary, mem, seq, row⟩ :=
      readNewestCompactionBoundary_some covers found
    exact .onto compaction.1 boundary mem (by rw [divergentBranch, found]; rfl)
      (by rw [divergentBranch, found, seq]; rfl) row

section

variable (indexed : Indexed tables) (permitted : Permitted tables e)

include indexed permitted

theorem createDivergentBranchForEntry
    {parent : Entry β} (stored : parent ∈ tables.entries) (below : e.parentId = some parent.id) :
    ∃ branches, tables.branches.createDivergentBranchForEntry parent.id e = .ok branches ∧
      Indexed { entries := tables.entries ++ [e], branches := branches } := by
  obtain ⟨path, lineage⟩ := indexed.store.lineage parent stored
  obtain ⟨segments, read, covers⟩ := indexed.readBranchSegmentsNewestFirst lineage
  have positive : ∀ other ∈ path, 0 < other.seq :=
    fun other mem => indexed.store.positive other (lineage.mem_stored other mem)
  have newer : ∀ other ∈ path, other.seq < e.seq :=
    fun other mem => permitted.newer other (lineage.mem_stored other mem)
  have upTo : ∀ other ∈ path, other.seq ≤ parent.seq := lineage.le_seq indexed.store
  have longer : Lineage (tables.entries ++ [e]) e (path ++ [e]) :=
    .child (mem_append_right _ (mem_singleton_self _)) below
      (lineage.mono fun other mem => mem_append_left _ mem)
  have based := based_divergentBranch e covers
  have above := based.lowerSeq_lt permitted.positive newer
  generalize opened : tables.branches.divergentBranch segments e = branch at based above
  -- The new branch has no rows yet, so what is copied does not meet it.
  have elsewhere : ∀ segment ∈ segments.reverse, segment.branchId ≠ e.id := by
    intro segment mem same
    obtain ⟨branch, known, own⟩ := covers.known segment (mem_reverse.mp mem)
    exact indexed.branch_ne permitted.fresh branch known (own.trans same)
  generalize copy : tables.branches.copiedRows e.id branch.lowerSeq segments.reverse = copied
  have held : ∀ row, row ∈ copied ↔
      ∃ other ∈ path, branch.lowerSeq < other.seq ∧ branchRow e.id other = row := by
    intro row
    rw [← copy, mem_copiedRows covers positive]
    constructor
    · exact fun ⟨other, mem, range, own⟩ => ⟨other, mem, range.1, own⟩
    · exact fun ⟨other, mem, low, own⟩ => ⟨other, mem, ⟨low, upTo other mem⟩, own⟩
  have addedHeld : ∀ row, row ∈ copied ++ [branchRow e.id e] ↔
      ∃ other ∈ path ++ [e], branch.lowerSeq < other.seq ∧ branchRow e.id other = row := by
    intro row
    rw [mem_append, held row, mem_singleton]
    constructor
    · rintro (⟨other, mem, low, own⟩ | rfl)
      · exact ⟨other, mem_append_left _ mem, low, own⟩
      · exact ⟨e, longer.mem_self, above, rfl⟩
    · rintro ⟨other, mem, low, rfl⟩
      rcases mem_append.mp mem with earlier | last
      · exact .inl ⟨other, earlier, low, rfl⟩
      · exact .inr (mem_singleton.mp last ▸ rfl)
  have once : ((copied ++ [branchRow e.id e]).map BranchEntry.key).Nodup := by
    refine List.Nodup.of_map Prod.snd ?_
    rw [map_map, map_append, nodup_append]
    refine ⟨?_, nodup_singleton _, ?_⟩
    · rw [← copy]
      exact nodup_copiedRows covers indexed.keys (lineage.unique indexed.store) positive _ _
    · intro old oldIn new newIn same
      obtain ⟨row, inside, rfl⟩ := mem_map.mp oldIn
      rw [map_singleton, mem_singleton] at newIn
      obtain ⟨other, mem, -, rfl⟩ := (held row).mp inside
      exact permitted.fresh other (lineage.mem_stored other mem) (same.trans newIn)
  have keys : ((tables.branches.branchEntries ++
      (copied ++ [branchRow e.id e])).map BranchEntry.key).Nodup := by
    rw [map_append, nodup_append]
    refine ⟨indexed.keys, once, ?_⟩
    intro old oldIn new newIn same
    obtain ⟨row, inside, rfl⟩ := mem_map.mp oldIn
    obtain ⟨added, addedIn, rfl⟩ := mem_map.mp newIn
    obtain ⟨other, -, -, rfl⟩ := (addedHeld added).mp addedIn
    exact indexed.row_branch_ne permitted.fresh row inside (congrArg Prod.fst same)
  subst opened copy
  refine ⟨_, createDivergentBranchForEntry_eq read (indexed.branch_ne permitted.fresh)
    (indexed.tip_ne permitted.fresh) elsewhere keys, ?_⟩
  refine indexed.openBranch permitted rfl rfl rfl longer above addedHeld once ?_
  cases based with
  | root noBranch noSeq => exact .root noBranch noSeq
  | onto baseBranchId boundary mem branchId seq row =>
    exact .onto baseBranchId boundary (mem_append_left _ mem) branchId seq row

theorem appendEntryToExistingBranch
    (inside : branch ∈ tables.branches.branchMeta) (below : e.parentId = some branch.tipEntryId) :
    ∃ branches, tables.branches.appendEntryToExistingBranch branch.branchId e = .ok branches ∧
      Indexed { entries := tables.entries ++ [e], branches := branches } := by
  have one : tables.branches.branchMeta.filter (fun other => other.branchId = branch.branchId) =
      [branch] := by
    refine perm_singleton.mp ?_
    refine (perm_ext_iff_of_nodup ((indexed.branchIds.of_map _).filter _)
      (nodup_singleton _)).mpr fun other => ?_
    rw [mem_filter, mem_singleton, decide_eq_true_eq]
    constructor
    · exact fun ⟨known, same⟩ => inj_on_of_nodup_map indexed.branchIds known inside same
    · rintro rfl
      exact ⟨inside, rfl⟩
  rw [BranchIndex.appendEntryToExistingBranch, BranchIndex.insertBranchRow_eq]
  · dsimp only
    rw [one, if_neg (by simp), if_neg]
    · exact ⟨_, rfl, indexed.extendBranch permitted inside below⟩
    · rw [any_eq_true]
      rintro ⟨other, known, tip⟩
      rw [Bool.and_eq_true] at tip
      exact indexed.tip_ne permitted.fresh other known (of_decide_eq_true tip.2)
  · intro row known same
    exact indexed.row_entry_ne permitted.fresh row known (congrArg Prod.snd same)

theorem insertEntry : ∃ next, tables.insertEntry e = .ok next ∧ Indexed next := by
  have noParent : ¬(e.parentId.any fun parentId =>
      !tables.entries.any fun other => other.id = parentId) = true := by
    intro missing
    obtain ⟨parentId, below, absent⟩ := (Option.any_eq_true _ _).mp missing
    obtain ⟨other, stored, own⟩ := permitted.parent parentId below
    rw [Bool.not_eq_true', any_eq_false] at absent
    exact absent other stored (decide_eq_true own)
  have noDuplicate : ¬(tables.entries.any fun other => other.id = e.id) = true := by
    rw [any_eq_true]
    rintro ⟨other, stored, same⟩
    exact permitted.fresh other stored (of_decide_eq_true same)
  rw [EntryTables.insertEntry, if_neg noParent, if_neg noDuplicate]
  have appended : ∃ branches, tables.branches.appendEntryToBranchIndex e = .ok branches ∧
      Indexed { entries := tables.entries ++ [e], branches := branches } := by
    rw [appendEntryToBranchIndex]
    cases below : e.parentId with
    | none => exact indexed.createRootBranchForEntry permitted below
    | some parentId =>
      dsimp only
      cases found : tables.branches.readBranchTipForParent parentId with
      | none =>
        obtain ⟨parent, stored, rfl⟩ := permitted.parent parentId below
        exact indexed.createDivergentBranchForEntry permitted stored below
      | some branch =>
        rw [readBranchTipForParent] at found
        have tip : branch.tipEntryId = parentId := by simpa using find?_some found
        subst tip
        exact indexed.appendEntryToExistingBranch permitted (mem_of_find?_eq_some found) below
  obtain ⟨branches, ok, kept⟩ := appended
  rw [ok]
  exact ⟨_, rfl, kept⟩

end

end Indexed

theorem indexed_empty : Indexed (EntryTables.empty : EntryTables β) := by
  constructor
  · exact stored_nil
  · exact forall_mem_nil _
  · exact forall_mem_nil _
  · exact nodup_nil
  · exact nodup_nil
  · exact nodup_nil
  · exact forall_mem_nil _
  · exact forall_mem_nil _

/-- Entries put in one after another. -/
def insertMachine : Machine (EntryTables β) (Entry β) where
  start tables := tables = .empty
  step tables e := (tables.insertEntry e).toOption

/-- Sequence numbers start at one and are given out in order. -/
def Numbered (tables : EntryTables β) (e : Entry β) : Prop :=
  0 < e.seq ∧ ∀ other ∈ tables.entries, other.seq < e.seq

instance (tables : EntryTables β) (e : Entry β) : Decidable (Numbered tables e) :=
  inferInstanceAs (Decidable (_ ∧ _))

/-- An insert goes through only when its parent is there and its id is not. -/
theorem permitted_of_inserted {tables next : EntryTables β} {e : Entry β}
    (numbered : Numbered tables e) (ok : tables.insertEntry e = .ok next) : Permitted tables e := by
  rw [EntryTables.insertEntry] at ok
  split_ifs at ok with missing duplicate
  refine ⟨fun other stored same => ?_, fun parentId below => ?_, numbered.1, numbered.2⟩
  · exact duplicate (any_eq_true.mpr ⟨other, stored, decide_eq_true same⟩)
  · by_contra absent
    refine missing ((Option.any_eq_true _ _).mpr ⟨parentId, below, ?_⟩)
    rw [Bool.not_eq_true', any_eq_false]
    exact fun other stored same => absent ⟨other, stored, of_decide_eq_true same⟩

theorem indexed_inductive :
    Machine.Inductive (insertMachine : Machine (EntryTables β) (Entry β)) Numbered Indexed where
  start := by
    rintro tables rfl
    exact indexed_empty
  step := by
    intro tables e next indexed numbered taken
    have ok : tables.insertEntry e = .ok next := by
      change (tables.insertEntry e).toOption = some next at taken
      cases inserted : tables.insertEntry e with
      | error reason =>
        rw [inserted] at taken
        cases taken
      | ok tables =>
        rw [inserted] at taken
        cases taken
        rfl
    obtain ⟨kept, again, held⟩ := indexed.insertEntry (permitted_of_inserted numbered ok)
    rw [ok] at again
    cases again
    exact held

/-- After any inserts, an entry's segments hold the path from its root to itself, in order and
each entry once, and no permitted insert meets an error. -/
theorem branch_index_exact {tables : EntryTables β}
    (reached : (insertMachine : Machine (EntryTables β) (Entry β)).Reached Numbered tables) :
    (∀ e ∈ tables.entries, ∃ path, Lineage tables.entries e path ∧
      path.Pairwise (fun older newer => older.seq < newer.seq) ∧ (path.map Entry.id).Nodup ∧
        tables.readBranchIds e.id = .ok (path.map Entry.id)) ∧
      ∀ e, Permitted tables e → ∃ next, tables.insertEntry e = .ok next := by
  have indexed := indexed_inductive.reached reached
  constructor
  · intro e stored
    obtain ⟨path, lineage⟩ := indexed.store.lineage e stored
    exact ⟨path, lineage, lineage.ordered indexed.store, lineage.unique indexed.store,
      indexed.readBranchIds lineage⟩
  · intro e permitted
    obtain ⟨next, ok, -⟩ := indexed.insertEntry permitted
    exact ⟨next, ok⟩

def sampleEntry (id : String) (parentId : Option String) (seq : Nat) (type : EntryType) :
    Entry Unit where
  id := id
  parentId := parentId
  seq := seq
  timestamp := 0
  type := type
  customType := none
  body := ()

/-- Appends, a compaction with two forks below it, a fork above it and a second root. -/
def sampleInserts : List (Entry Unit) :=
  [sampleEntry "r" none 1 .message, sampleEntry "a" (some "r") 2 .message,
    sampleEntry "c" (some "a") 3 .compaction, sampleEntry "d" (some "c") 4 .message,
    sampleEntry "e" (some "c") 5 .message, sampleEntry "f" (some "a") 6 .message,
    sampleEntry "g" (some "e") 7 .message, sampleEntry "s" none 8 .message,
    sampleEntry "h" (some "d") 9 .message, sampleEntry "i" (some "d") 10 .message]

theorem branch_index_exact_sample : ∃ tables : EntryTables Unit,
    tables.entries = sampleInserts ∧ tables.branches.branchMeta.length = 5 ∧
      ∀ e ∈ tables.entries, ∃ path, Lineage tables.entries e path ∧
        tables.readBranchIds e.id = .ok (path.map Entry.id) := by
  have started : (insertMachine : Machine (EntryTables Unit) (Entry Unit)).Reached Numbered
      EntryTables.empty := .start rfl
  have ran : (insertMachine.exec Numbered EntryTables.empty sampleInserts).isSome := by decide
  obtain ⟨tables, last⟩ := Option.isSome_iff_exists.mp ran
  have held : (insertMachine.exec Numbered EntryTables.empty sampleInserts).map (fun tables =>
      (tables.entries, tables.branches.branchMeta.length)) = some (sampleInserts, 5) := by decide
  rw [last, Option.map_some, Option.some_inj, Prod.mk.injEq] at held
  refine ⟨tables, held.1, held.2, fun e stored => ?_⟩
  obtain ⟨path, lineage, -, -, read⟩ := (branch_index_exact (started.exec last)).1 e stored
  exact ⟨path, lineage, read⟩

end Trpi.Sqlite
