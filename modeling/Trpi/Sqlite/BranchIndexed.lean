import Trpi.Sqlite.BranchEntries
import Trpi.Sqlite.BranchLineage

/-!
# What the branch index holds

A branch holds the lineage of its tip: the part above its base in rows of its own, the part
below it in rows of the branch it is based on. So whichever branch an entry is looked up in,
the segments found there cover its lineage.
-/

namespace Trpi.Sqlite

open BranchIndex List
open Library (filter_le_append orderedBy orderedBy_eq)
open Trpi.Session (Entry)

variable {β : Type}

/-- Where the rows of a branch begin. -/
def BranchMeta.lowerSeq (branch : BranchMeta) : Nat := branch.baseSeq.getD 0

def BranchEntry.key (row : BranchEntry) : String × String := (row.branchId, row.entryId)

/-- A branch without a base, or one based on an entry of its path that has a row elsewhere. -/
inductive Based (rows : List BranchEntry) (branch : BranchMeta) (path : List (Entry β)) : Prop where
  | root (noBranch : branch.baseBranchId = none) (noSeq : branch.baseSeq = none)
  | onto (baseBranchId : String) (boundary : Entry β) (member : boundary ∈ path)
      (branchId : branch.baseBranchId = some baseBranchId)
      (seq : branch.baseSeq = some boundary.seq)
      (row : branchRow baseBranchId boundary ∈ rows)

/-- The path a branch holds. -/
structure Holds (entries : List (Entry β)) (rows : List BranchEntry) (branch : BranchMeta)
    (path : List (Entry β)) : Prop where
  tip : ∃ tip, Lineage entries tip path ∧ tip.id = branch.tipEntryId ∧ tip.seq = branch.tipSeq
  held : ∀ row, (row ∈ rows ∧ row.branchId = branch.branchId) ↔
    ∃ e ∈ path, branch.lowerSeq < e.seq ∧ branchRow branch.branchId e = row
  based : Based rows branch path

structure Indexed (tables : EntryTables β) : Prop where
  store : Stored tables.entries
  branches : ∀ branch ∈ tables.branches.branchMeta,
    ∃ path, Holds tables.entries tables.branches.branchEntries branch path
  known : ∀ row ∈ tables.branches.branchEntries,
    ∃ branch ∈ tables.branches.branchMeta, branch.branchId = row.branchId
  keys : (tables.branches.branchEntries.map BranchEntry.key).Nodup
  branchIds : (tables.branches.branchMeta.map BranchMeta.branchId).Nodup
  tips : (tables.branches.branchMeta.map BranchMeta.tipEntryId).Nodup
  named : ∀ branch ∈ tables.branches.branchMeta, ∃ e ∈ tables.entries, e.id = branch.branchId
  covered : ∀ e ∈ tables.entries, ∃ branchId, branchRow branchId e ∈ tables.branches.branchEntries

/-- Segments that hold a path up to a sequence number, newest first. -/
def Covers (i : BranchIndex) (path : List (Entry β)) : Nat → List BranchSegment → Prop
  | upper, [] => upper = 0
  | upper, segment :: older =>
    (∃ branch ∈ i.branchMeta, branch.branchId = segment.branchId) ∧
      segment.upperSeq = upper ∧ segment.lowerSeq < upper ∧
      (∀ row, row ∈ i.segmentRows segment segment.lowerSeq ↔
        ∃ e ∈ path, (segment.lowerSeq < e.seq ∧ e.seq ≤ upper) ∧
          branchRow segment.branchId e = row) ∧ Covers i path segment.lowerSeq older

section

variable {entries : List (Entry β)} {rows : List BranchEntry}

variable {i : BranchIndex} {segments : List BranchSegment} {row : BranchEntry} {upper : Nat}
  {path : List (Entry β)}

theorem mem_segmentRows {segment : BranchSegment} {lowerSeq : Nat} :
    row ∈ i.segmentRows segment lowerSeq ↔
      (row ∈ i.branchEntries ∧ row.branchId = segment.branchId) ∧
        lowerSeq < row.entrySeq ∧ row.entrySeq ≤ segment.upperSeq := by
  rw [segmentRows, mem_filter]
  simp only [Bool.and_eq_true, decide_eq_true_eq, and_assoc]

theorem inMembership_iff {branch : BranchMeta} :
    inMembership row branch = true ↔
      branch.lowerSeq < row.entrySeq ∧ row.entrySeq ≤ branch.tipSeq := by
  rw [inMembership, BranchMeta.lowerSeq]
  cases branch.baseSeq <;> simp

theorem Covers.congr {other : List (Entry β)}
    (same : ∀ e : Entry β, e.seq ≤ upper → (e ∈ path ↔ e ∈ other))
    (covers : Covers i path upper segments) : Covers i other upper segments := by
  induction segments generalizing upper with
  | nil => exact covers
  | cons segment older ih =>
    obtain ⟨known, upperSeq, less, held, rest⟩ := covers
    refine ⟨known, upperSeq, less, ?_, ih (fun e le => same e (by omega)) rest⟩
    intro row
    rw [held row]
    constructor
    · rintro ⟨e, mem, range, own⟩
      exact ⟨e, (same e range.2).mp mem, range, own⟩
    · rintro ⟨e, mem, range, own⟩
      exact ⟨e, (same e range.2).mpr mem, range, own⟩

theorem Covers.known (covers : Covers i path upper segments) :
    ∀ segment ∈ segments, ∃ branch ∈ i.branchMeta, branch.branchId = segment.branchId := by
  induction segments generalizing upper with
  | nil => exact forall_mem_nil _
  | cons segment older ih =>
    obtain ⟨known, -, -, -, rest⟩ := covers
    rw [forall_mem_cons]
    exact ⟨known, ih rest⟩

theorem mem_iff_of_shared (store : Stored entries) {first second shared : Entry β}
    {left right : List (Entry β)} (leftLineage : Lineage entries first left)
    (rightLineage : Lineage entries second right) (inLeft : shared ∈ left)
    (inRight : shared ∈ right) {e : Entry β} (le : e.seq ≤ shared.seq) : e ∈ left ↔ e ∈ right := by
  have agree := (leftLineage.upTo store inLeft).eq store.unique (rightLineage.upTo store inRight)
  have members := congrArg (e ∈ ·) agree
  simpa only [mem_filter, decide_eq_true_eq, le, and_true, eq_iff_iff] using members

namespace Holds

variable {branch : BranchMeta} {path : List (Entry β)} {e : Entry β}

theorem row_ids (holds : Holds entries rows branch path) (store : Stored entries)
    {row : BranchEntry} (inside : row ∈ rows) (own : row.branchId = branch.branchId)
    (stored : e ∈ entries) (same : row.entryId = e.id) :
    e ∈ path ∧ branch.lowerSeq < e.seq ∧ branchRow branch.branchId e = row := by
  obtain ⟨other, mem, above, rfl⟩ := (holds.held row).mp ⟨inside, own⟩
  obtain ⟨tip, lineage, -, -⟩ := holds.tip
  cases eq_of_id store.unique (lineage.mem_stored other mem) stored same
  exact ⟨mem, above, rfl⟩

theorem le_tipSeq (holds : Holds entries rows branch path) (store : Stored entries)
    (mem : e ∈ path) : e.seq ≤ branch.tipSeq := by
  obtain ⟨tip, lineage, -, seq⟩ := holds.tip
  exact seq ▸ lineage.le_seq store e mem

end Holds

end

namespace Indexed

variable {tables : EntryTables β}

variable {e : Entry β} {path : List (Entry β)}

section

variable (indexed : Indexed tables)

include indexed

theorem readBranchMeta {branch : BranchMeta} (inside : branch ∈ tables.branches.branchMeta) :
    tables.branches.readBranchMeta branch.branchId = .ok branch := by
  rw [BranchIndex.readBranchMeta]
  cases found : tables.branches.branchMeta.find? fun other => other.branchId = branch.branchId with
  | none =>
    have none := find?_eq_none.mp found branch inside
    simp at none
  | some other =>
    have own : other.branchId = branch.branchId := by simpa using find?_some found
    have same := inj_on_of_nodup_map indexed.branchIds (mem_of_find?_eq_some found)
      inside own
    rw [same]

theorem readBranchMembership (stored : e ∈ tables.entries) :
    ∃ row branch, tables.branches.readBranchMembership e.id = .ok row ∧
      row ∈ tables.branches.branchEntries ∧ row.entryId = e.id ∧
      branch ∈ tables.branches.branchMeta ∧ row.branchId = branch.branchId := by
  have found : ∃ pair, pair ∈ tables.branches.memberships e.id := by
    obtain ⟨branchId, inside⟩ := indexed.covered e stored
    obtain ⟨branch, known, own⟩ := indexed.known _ inside
    obtain ⟨path, holds⟩ := indexed.branches branch known
    obtain ⟨mem, above, -⟩ := holds.row_ids indexed.store inside own.symm stored rfl
    have window : inMembership (branchRow branchId e) branch = true :=
      inMembership_iff.mpr ⟨above, holds.le_tipSeq indexed.store mem⟩
    refine ⟨(branchRow branchId e, branch), mem_flatMap.mpr ⟨branchRow branchId e, ?_, ?_⟩⟩
    · exact mem_filter.mpr ⟨inside, decide_eq_true rfl⟩
    · refine mem_map.mpr ⟨branch, mem_filter.mpr ⟨known, ?_⟩, rfl⟩
      rw [Bool.and_eq_true]
      exact ⟨by simpa using own, window⟩
  have only : ∀ pair ∈ tables.branches.memberships e.id,
      pair.1 ∈ tables.branches.branchEntries ∧ pair.1.entryId = e.id ∧
        pair.2 ∈ tables.branches.branchMeta ∧ pair.1.branchId = pair.2.branchId := by
    intro pair mem
    obtain ⟨row, inside, joined⟩ := mem_flatMap.mp mem
    obtain ⟨branch, known, rfl⟩ := mem_map.mp joined
    obtain ⟨rowIn, rowId⟩ := mem_filter.mp inside
    obtain ⟨branchIn, matched⟩ := mem_filter.mp known
    rw [Bool.and_eq_true] at matched
    exact ⟨rowIn, of_decide_eq_true rowId, branchIn, (of_decide_eq_true matched.1).symm⟩
  rw [BranchIndex.readBranchMembership]
  cases sorted : (tables.branches.memberships e.id).insertionSort
      membershipBefore with
  | nil =>
    obtain ⟨pair, mem⟩ := found
    rw [← mem_insertionSort membershipBefore, sorted] at mem
    cases mem
  | cons pair rest =>
    have mem : pair ∈ tables.branches.memberships e.id := by
      rw [← mem_insertionSort membershipBefore, sorted]
      exact mem_cons_self
    obtain ⟨inside, own, known, joined⟩ := only pair mem
    exact ⟨pair.1, pair.2, rfl, inside, own, known, joined⟩

/-- Down the bases of a branch, each of which ends below the one before. -/
theorem segmentsNewestFirst (fuel : Nat) :
    ∀ {branch : BranchMeta} {path : List (Entry β)} {e : Entry β},
      branch ∈ tables.branches.branchMeta →
      Holds tables.entries tables.branches.branchEntries branch path →
      e ∈ path → branch.lowerSeq < e.seq → e.seq < fuel →
      ∃ segments, tables.branches.segmentsNewestFirst fuel branch.branchId e.seq = .ok segments ∧
        Covers tables.branches path e.seq segments := by
  induction fuel with
  | zero =>
    intro branch path e _ _ _ _ enough
    omega
  | succ fuel ih =>
    intro branch path e inside holds mem above enough
    have held : ∀ row,
        row ∈ tables.branches.segmentRows
          { branchId := branch.branchId, lowerSeq := branch.lowerSeq, upperSeq := e.seq }
          branch.lowerSeq ↔
        ∃ other ∈ path, (branch.lowerSeq < other.seq ∧ other.seq ≤ e.seq) ∧
          branchRow branch.branchId other = row := by
      intro row
      rw [mem_segmentRows, holds.held row]
      constructor
      · rintro ⟨⟨other, inPath, low, rfl⟩, -, high⟩
        exact ⟨other, inPath, ⟨low, high⟩, rfl⟩
      · rintro ⟨other, inPath, ⟨low, high⟩, rfl⟩
        exact ⟨⟨other, inPath, low, rfl⟩, low, high⟩
    rw [BranchIndex.segmentsNewestFirst, indexed.readBranchMeta inside]
    dsimp only
    cases holds.based with
    | root noBranch noSeq =>
      rw [noBranch]
      refine ⟨_, rfl, ⟨branch, inside, rfl⟩, rfl, above, held, ?_⟩
      rw [Covers, noSeq]
      rfl
    | onto baseBranchId boundary onPath branchId seq row =>
      have lower : branch.lowerSeq = boundary.seq := by rw [BranchMeta.lowerSeq, seq]; rfl
      obtain ⟨base, baseInside, baseId⟩ := indexed.known _ row
      obtain ⟨basePath, baseHolds⟩ := indexed.branches base baseInside
      obtain ⟨tip, lineage, -, -⟩ := holds.tip
      obtain ⟨baseTip, baseLineage, -, -⟩ := baseHolds.tip
      obtain ⟨onBase, aboveBase, -⟩ := baseHolds.row_ids indexed.store row baseId.symm
        (lineage.mem_stored boundary onPath) rfl
      obtain ⟨segments, read, covers⟩ :=
        ih baseInside baseHolds onBase aboveBase (by omega)
      have own : base.branchId = baseBranchId := baseId
      rw [branchId, seq]
      dsimp only
      rw [← own, read]
      refine ⟨_, rfl, ⟨branch, inside, rfl⟩, rfl, ?_, ?_, ?_⟩
      · rw [Option.getD_some, ← lower]
        exact above
      · simpa only [BranchMeta.lowerSeq, seq, Option.getD_some] using held
      · rw [Option.getD_some]
        exact covers.congr fun other le =>
          mem_iff_of_shared indexed.store baseLineage lineage onBase onPath le

theorem readBranchSegmentsNewestFirst (lineage : Lineage tables.entries e path) :
    ∃ segments, tables.branches.readBranchSegmentsNewestFirst e.id = .ok segments ∧
      Covers tables.branches path e.seq segments := by
  obtain ⟨row, branch, read, inside, own, known, joined⟩ :=
    indexed.readBranchMembership lineage.stored
  obtain ⟨held, holds⟩ := indexed.branches branch known
  obtain ⟨mem, above, same⟩ :=
    holds.row_ids indexed.store inside joined lineage.stored own
  have seq : row.entrySeq = e.seq := by rw [← same]; rfl
  obtain ⟨segments, walked, covers⟩ :=
    indexed.segmentsNewestFirst (e.seq + 1) known holds mem above (by omega)
  obtain ⟨tip, tipLineage, -, -⟩ := holds.tip
  rw [BranchIndex.readBranchSegmentsNewestFirst, read]
  dsimp only
  rw [seq, joined]
  exact ⟨segments, walked, covers.congr fun other le =>
    mem_iff_of_shared indexed.store tipLineage lineage mem lineage.mem_self le⟩

theorem nodup_segmentRows (segment : BranchSegment) (lowerSeq : Nat) :
    (tables.branches.segmentRows segment lowerSeq).Nodup :=
  (indexed.keys.of_map _).filter _

theorem ids_of_covers (sorted : path.Pairwise fun older newer => older.seq < newer.seq)
    (positive : ∀ e ∈ path, 0 < e.seq) {upper : Nat} {segments : List BranchSegment}
    (covers : Covers tables.branches path upper segments) : (segments.reverse.flatMap fun segment =>
      (orderedBy BranchEntry.entrySeq
        (tables.branches.segmentRows segment segment.lowerSeq)).map BranchEntry.entryId) =
      (path.filter fun e => e.seq ≤ upper).map Entry.id := by
  induction segments generalizing upper with
  | nil =>
    have none : path.filter (fun e => decide (e.seq ≤ upper)) = [] := by
      refine filter_eq_nil_iff.mpr fun e mem => ?_
      have above := positive e mem
      have zero : upper = 0 := covers
      rw [decide_eq_true_eq]
      omega
    rw [none]
    rfl
  | cons segment older ih =>
    obtain ⟨-, -, less, held, rest⟩ := covers
    have ordered : orderedBy BranchEntry.entrySeq
        (tables.branches.segmentRows segment segment.lowerSeq) =
        (path.filter fun e => segment.lowerSeq < e.seq ∧ e.seq ≤ upper).map
          (branchRow segment.branchId) := by
      refine orderedBy_eq (indexed.nodup_segmentRows _ _) ?_ fun row => ?_
      · rw [pairwise_map]
        exact sorted.filter _
      · rw [held row, mem_map]
        simp only [mem_filter, decide_eq_true_eq, and_assoc]
    rw [reverse_cons, flatMap_append, ih rest, flatMap_singleton, ordered,
      map_map, ← filter_le_append sorted (Nat.le_of_lt less), map_append]
    rfl

theorem readBranchIds (lineage : Lineage tables.entries e path) :
    tables.readBranchIds e.id = .ok (path.map Entry.id) := by
  obtain ⟨segments, read, covers⟩ := indexed.readBranchSegmentsNewestFirst lineage
  have positive : ∀ other ∈ path, 0 < other.seq :=
    fun other mem => indexed.store.positive other (lineage.mem_stored other mem)
  have all : path.filter (fun other => decide (other.seq ≤ e.seq)) = path :=
    filter_eq_self.mpr fun other mem =>
      decide_eq_true (lineage.le_seq indexed.store other mem)
  have ids := indexed.ids_of_covers (lineage.ordered indexed.store) positive covers
  rw [all] at ids
  rw [EntryTables.readBranchIds, read]
  exact congrArg Except.ok ids

end

end Indexed

end Trpi.Sqlite
