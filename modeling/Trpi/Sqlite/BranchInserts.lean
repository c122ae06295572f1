import Trpi.Library.Machine
import Trpi.Sqlite.BranchIndexed

/-!
# Inserts into the branch index

An insert either moves a tip or opens a branch, and a branch that is opened gets the part of
its path above its base. Either way every branch holds its path, so the index stays right for
every entry that was there and the insert meets no missing row and no key twice.
-/

namespace Trpi.Sqlite

open List
open Library (Machine)
open Trpi.Session (Entry)

variable {β : Type}

namespace BranchIndex

variable {i : BranchIndex} {added : List BranchEntry}

theorem insertBranchRow_eq {row : BranchEntry}
    (fresh : ∀ other ∈ i.branchEntries, other.key ≠ row.key) :
    i.insertBranchRow row = .ok { i with branchEntries := i.branchEntries ++ [row] } := by
  rw [insertBranchRow, if_neg]
  rw [any_eq_true]
  rintro ⟨other, inside, same⟩
  rw [Bool.and_eq_true, decide_eq_true_eq, decide_eq_true_eq] at same
  exact fresh other inside (Prod.ext same.1 same.2)

theorem insertBranchRows_eq {rows : List BranchEntry}
    (keys : ((i.branchEntries ++ rows).map BranchEntry.key).Nodup) :
    i.insertBranchRows rows = .ok { i with branchEntries := i.branchEntries ++ rows } := by
  induction rows generalizing i with
  | nil =>
    rw [insertBranchRows, append_nil]
  | cons row rows ih =>
    have fresh : ∀ other ∈ i.branchEntries, other.key ≠ row.key := by
      intro other inside same
      rw [map_append, nodup_append] at keys
      exact keys.2.2 _ (mem_map_of_mem inside) _ (mem_map_of_mem mem_cons_self) same
    rw [insertBranchRows, insertBranchRow_eq fresh]
    dsimp only
    rw [ih, append_assoc, singleton_append]
    rw [append_assoc, singleton_append]
    exact keys

theorem insertBranchMeta_eq {branch : BranchMeta}
    (freshId : ∀ other ∈ i.branchMeta, other.branchId ≠ branch.branchId)
    (freshTip : ∀ other ∈ i.branchMeta, other.tipEntryId ≠ branch.tipEntryId) :
    i.insertBranchMeta branch = .ok { i with branchMeta := i.branchMeta ++ [branch] } := by
  rw [insertBranchMeta, if_neg, if_neg]
  · rw [any_eq_true]
    rintro ⟨other, inside, same⟩
    exact freshTip other inside (of_decide_eq_true same)
  · rw [any_eq_true]
    rintro ⟨other, inside, same⟩
    exact freshId other inside (of_decide_eq_true same)

def copiedRows (i : BranchIndex) (targetBranchId : String) (afterSeq : Nat)
    (segments : List BranchSegment) : List BranchEntry :=
  segments.flatMap fun segment =>
    (i.segmentRows segment (max segment.lowerSeq afterSeq)).map fun row =>
      { row with branchId := targetBranchId }

theorem segmentRows_append {segment : BranchSegment} {lowerSeq : Nat}
    (other : ∀ row ∈ added, row.branchId ≠ segment.branchId) :
    { i with branchEntries := i.branchEntries ++ added }.segmentRows segment lowerSeq =
      i.segmentRows segment lowerSeq := by
  have none : added.filter (fun row => row.branchId = segment.branchId &&
      lowerSeq < row.entrySeq && row.entrySeq ≤ segment.upperSeq) = [] := by
    refine filter_eq_nil_iff.mpr fun row mem => ?_
    simp [other row mem]
  rw [segmentRows, segmentRows, filter_append, none, append_nil]

variable {segments : List BranchSegment} {targetBranchId : String} {afterSeq : Nat}

theorem copiedRows_append (target : ∀ row ∈ added, row.branchId = targetBranchId)
    (other : ∀ segment ∈ segments, segment.branchId ≠ targetBranchId) :
    { i with branchEntries := i.branchEntries ++ added }.copiedRows targetBranchId afterSeq
      segments = i.copiedRows targetBranchId afterSeq segments := by
  refine flatMap_congr fun segment mem => ?_
  rw [segmentRows_append]
  intro row inside same
  exact other segment mem (same.symm.trans (target row inside))

theorem copyBranchEntries_eq (i : BranchIndex)
    (other : ∀ segment ∈ segments, segment.branchId ≠ targetBranchId)
    (keys : ((i.branchEntries ++ i.copiedRows targetBranchId afterSeq segments).map
      BranchEntry.key).Nodup) :
    i.copyBranchEntriesAfterSeqThroughParent targetBranchId afterSeq segments =
      .ok { i with
        branchEntries := i.branchEntries ++ i.copiedRows targetBranchId afterSeq segments } := by
  induction segments generalizing i with
  | nil =>
    rw [copyBranchEntriesAfterSeqThroughParent, copiedRows, flatMap_nil, append_nil]
  | cons segment newer ih =>
    have later : ∀ segment ∈ newer, segment.branchId ≠ targetBranchId :=
      fun segment mem => other segment (mem_cons_of_mem _ mem)
    have split : i.copiedRows targetBranchId afterSeq (segment :: newer) =
        ((i.segmentRows segment (max segment.lowerSeq afterSeq)).map fun row =>
          { row with branchId := targetBranchId }) ++
            i.copiedRows targetBranchId afterSeq newer := flatMap_cons
    rw [split] at keys ⊢
    rw [copyBranchEntriesAfterSeqThroughParent]
    split_ifs with below
    · have none : i.segmentRows segment (max segment.lowerSeq afterSeq) = [] := by
        refine filter_eq_nil_iff.mpr fun row _ => ?_
        simp only [Bool.and_eq_true, decide_eq_true_eq]
        omega
      rw [none, map_nil, nil_append] at keys ⊢
      exact ih i later keys
    · rw [← append_assoc] at keys ⊢
      have own : ∀ row ∈ (i.segmentRows segment (max segment.lowerSeq afterSeq)).map
          (fun row => { row with branchId := targetBranchId }), row.branchId = targetBranchId := by
        rw [forall_mem_map]
        exact fun _ _ => rfl
      rw [insertBranchRows_eq (keys.sublist ((sublist_append_left _ _).map _))]
      dsimp only
      rw [ih _ later, copiedRows_append own later]
      rw [copiedRows_append own later]
      exact keys

def divergentBranch (i : BranchIndex) (segments : List BranchSegment) (entry : Entry β) :
    BranchMeta where
  branchId := entry.id
  tipEntryId := entry.id
  tipSeq := entry.seq
  baseBranchId := (i.readNewestCompactionBoundary segments).map Prod.fst
  baseSeq := (i.readNewestCompactionBoundary segments).map Prod.snd

theorem createDivergentBranchForEntry_eq {parentId : String} {e : Entry β}
    (read : i.readBranchSegmentsNewestFirst parentId = .ok segments)
    (freshId : ∀ other ∈ i.branchMeta, other.branchId ≠ e.id)
    (freshTip : ∀ other ∈ i.branchMeta, other.tipEntryId ≠ e.id)
    (other : ∀ segment ∈ segments.reverse, segment.branchId ≠ e.id)
    (keys : ((i.branchEntries ++ (i.copiedRows e.id
      (i.divergentBranch segments e).lowerSeq segments.reverse ++
        [branchRow e.id e])).map BranchEntry.key).Nodup) :
    i.createDivergentBranchForEntry parentId e =
      .ok {
        branchMeta := i.branchMeta ++ [i.divergentBranch segments e]
        branchEntries := i.branchEntries ++ (i.copiedRows e.id
          (i.divergentBranch segments e).lowerSeq segments.reverse ++ [branchRow e.id e]) } := by
  rw [← append_assoc] at keys ⊢
  have copied := keys.sublist ((sublist_append_left _ _).map _)
  rw [createDivergentBranchForEntry, read]
  dsimp only
  rw [insertBranchMeta_eq freshId freshTip]
  have copy := copyBranchEntries_eq
    { i with branchMeta := i.branchMeta ++ [i.divergentBranch segments e] } other
    copied
  rw [divergentBranch, BranchMeta.lowerSeq] at copy
  dsimp only at copy ⊢
  rw [copy]
  dsimp only
  rw [insertBranchRow_eq]
  · rfl
  · intro row inside same
    rw [map_append, nodup_append] at keys
    exact keys.2.2 _ (mem_map_of_mem inside) _ (mem_map_of_mem (mem_singleton_self _)) same

theorem readNewestCompactionBoundary_some {path : List (Entry β)} {upper : Nat}
    (covers : Covers i path upper segments) {branchId : String} {seq : Nat}
    (found : i.readNewestCompactionBoundary segments = some (branchId, seq)) :
    ∃ boundary ∈ path, boundary.seq = seq ∧ branchRow branchId boundary ∈ i.branchEntries := by
  induction segments generalizing upper with
  | nil => cases found
  | cons segment older ih =>
    obtain ⟨-, -, -, held, rest⟩ := covers
    rw [readNewestCompactionBoundary] at found
    cases newest : maxSeq ((i.segmentRows segment segment.lowerSeq).filter fun row =>
        row.entryType = .compaction) with
    | none =>
      rw [newest] at found
      exact ih rest found
    | some most =>
      rw [newest] at found
      cases found
      obtain ⟨row, inside, own⟩ := mem_map.mp (max?_mem newest)
      have inRows := (mem_filter.mp inside).1
      obtain ⟨boundary, mem, -, rfl⟩ := (held row).mp inRows
      exact ⟨boundary, mem, own, (mem_segmentRows.mp inRows).1.1⟩

end BranchIndex

open BranchIndex (copiedRows)

section

variable {i : BranchIndex} {path : List (Entry β)} {upper : Nat} {segments : List BranchSegment}

/-- The copied rows are those of the path above a sequence number. -/
theorem mem_copiedRows (covers : Covers i path upper segments) (positive : ∀ e ∈ path, 0 < e.seq)
    (targetBranchId : String) (afterSeq : Nat) {row : BranchEntry} :
    row ∈ i.copiedRows targetBranchId afterSeq segments.reverse ↔
      ∃ e ∈ path, (afterSeq < e.seq ∧ e.seq ≤ upper) ∧ branchRow targetBranchId e = row := by
  induction segments generalizing upper with
  | nil =>
    have zero : upper = 0 := covers
    constructor
    · exact fun inside => nomatch inside
    · rintro ⟨e, mem, ⟨-, le⟩, -⟩
      have above := positive e mem
      omega
  | cons segment older ih =>
    obtain ⟨-, -, less, held, rest⟩ := covers
    rw [copiedRows, reverse_cons, flatMap_append, mem_append, ← copiedRows, ih rest,
      flatMap_singleton, mem_map]
    have inside : ∀ other, other ∈ i.segmentRows segment (max segment.lowerSeq afterSeq) ↔
        other ∈ i.segmentRows segment segment.lowerSeq ∧ afterSeq < other.entrySeq := by
      intro other
      rw [mem_segmentRows, mem_segmentRows, Nat.max_lt]
      constructor
      · exact fun ⟨known, ⟨low, after⟩, high⟩ => ⟨⟨known, low, high⟩, after⟩
      · exact fun ⟨⟨known, low, high⟩, after⟩ => ⟨known, ⟨low, after⟩, high⟩
    constructor
    · rintro (⟨e, mem, ⟨after, le⟩, rfl⟩ | ⟨other, found, rfl⟩)
      · exact ⟨e, mem, ⟨after, by omega⟩, rfl⟩
      · obtain ⟨own, after⟩ := (inside other).mp found
        obtain ⟨e, mem, ⟨-, high⟩, rfl⟩ := (held other).mp own
        exact ⟨e, mem, ⟨after, high⟩, rfl⟩
    · rintro ⟨e, mem, ⟨after, high⟩, rfl⟩
      by_cases low : e.seq ≤ segment.lowerSeq
      · exact .inl ⟨e, mem, ⟨after, low⟩, rfl⟩
      · have own := (held _).mpr ⟨e, mem, ⟨Nat.lt_of_not_le low, high⟩, rfl⟩
        exact .inr ⟨_, (inside _).mpr ⟨own, after⟩, rfl⟩

theorem nodup_copiedRows (covers : Covers i path upper segments)
    (keys : (i.branchEntries.map BranchEntry.key).Nodup) (unique : (path.map Entry.id).Nodup)
    (positive : ∀ e ∈ path, 0 < e.seq) (targetBranchId : String) (afterSeq : Nat) :
    ((i.copiedRows targetBranchId afterSeq segments.reverse).map BranchEntry.entryId).Nodup := by
  induction segments generalizing upper with
  | nil => exact nodup_nil
  | cons segment older ih =>
    obtain ⟨-, -, less, held, rest⟩ := covers
    have olderRows : ∀ row ∈ i.copiedRows targetBranchId afterSeq older.reverse, ∃ e ∈ path,
        (afterSeq < e.seq ∧ e.seq ≤ segment.lowerSeq) ∧
          branchRow targetBranchId e = row :=
      fun row => (mem_copiedRows rest positive targetBranchId afterSeq).mp
    rw [copiedRows, reverse_cons, flatMap_append, ← copiedRows, flatMap_singleton,
      map_append, nodup_append, map_map]
    refine ⟨ih rest, ?_, ?_⟩
    · refine List.Nodup.map_on ?_ ((keys.of_map _).filter _)
      intro left leftIn right rightIn same
      have leftKnown := (mem_segmentRows.mp leftIn).1
      have rightKnown := (mem_segmentRows.mp rightIn).1
      exact inj_on_of_nodup_map keys leftKnown.1 rightKnown.1
        (Prod.ext (leftKnown.2.trans rightKnown.2.symm) same)
    · intro leftId leftIn rightId rightIn same
      obtain ⟨left, leftRow, rfl⟩ := mem_map.mp leftIn
      obtain ⟨right, rightRow, rfl⟩ := mem_map.mp rightIn
      obtain ⟨first, firstIn, ⟨-, low⟩, rfl⟩ := olderRows left leftRow
      obtain ⟨known, range⟩ := mem_segmentRows.mp rightRow
      have high := (Nat.max_lt.mp range.1).1
      obtain ⟨second, secondIn, -, rfl⟩ :=
        (held right).mp (mem_segmentRows.mpr ⟨known, high, range.2⟩)
      cases inj_on_of_nodup_map unique firstIn secondIn same
      exact absurd high (Nat.not_lt.mpr low)

end

end Trpi.Sqlite
