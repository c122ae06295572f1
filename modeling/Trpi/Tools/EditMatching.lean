import Mathlib.Data.List.Chain
import Trpi.Library.Runs
import Trpi.Tools.EditDiff

/-!
# Edits matched exactly

What `applyEditsToNormalizedContent` accepts when every old text is in the content
as it is, and what it makes of it: the regions of the old texts, replaced at once.
That an accepted old text occurs once is another matter, `countOccurrences` looks
for it in the normalized copy and leaves out overlapping occurrences.
-/

namespace Trpi.Tools

open Library List
open Library.Utf16 (Units)

variable {nfkc : Units → Units} {content : Units}

def Exact (content : Units) (edits : List Edit) : Prop :=
  ∀ edit ∈ edits, (indexOf edit.oldText content).isSome

instance (edits : List Edit) : Decidable (Exact content edits) :=
  inferInstanceAs (Decidable (∀ edit ∈ edits, (indexOf edit.oldText content).isSome))

def regionOf (content : Units) (edit : Edit) : TextReplacement where
  start := (indexOf edit.oldText content).getD 0
  length := edit.oldText.length
  text := edit.newText

def Apart (first second : TextReplacement) : Prop := first.stop ≤ second.start

/-- What the checks of an exact call come to. -/
structure Accepts (nfkc : Units → Units) (content : Units) (edits : List Edit) : Prop where
  nonempty : ∀ edit ∈ edits, edit.oldText ≠ []
  counted : ∀ edit ∈ edits, countOccurrences nfkc content edit.oldText ≤ 1
  apart : (sortReplacements (edits.map (regionOf content))).IsChain Apart
  changed : content ≠ applyReplacements content (sortReplacements (edits.map (regionOf content))) 0

variable {edits : List Edit} {edit : Edit} {size position : Nat} {regions : List TextReplacement}
  {matched : List MatchedEdit}

theorem checkOldTexts_ok_iff {totalEdits editIndex : Nat} :
    checkOldTexts totalEdits editIndex edits = .ok () ↔ ∀ edit ∈ edits, edit.oldText ≠ [] := by
  induction edits generalizing editIndex with
  | nil => simp [checkOldTexts]
  | cons edit rest ih =>
    rw [checkOldTexts]
    by_cases empty : edit.oldText = []
    · simp [empty]
    · simp [empty, ih]

theorem fuzzyFindText_exact {oldText : Units} {i : Nat} (found : indexOf oldText content = some i) :
    fuzzyFindText nfkc content oldText =
      { found := true, index := i, matchLength := oldText.length, usedFuzzyMatch := false,
        contentForReplacement := content } := by
  rw [fuzzyFindText, found]

theorem matchEdit_exact (exact : (indexOf edit.oldText content).isSome)
    (totalEdits editIndex : Nat) :
    matchEdit nfkc content totalEdits editIndex edit =
      if 1 < countOccurrences nfkc content edit.oldText then
        .error (.duplicate editIndex totalEdits (countOccurrences nfkc content edit.oldText))
      else .ok { editIndex := editIndex, replacement := regionOf content edit } := by
  obtain ⟨i, found⟩ := Option.isSome_iff_exists.mp exact
  simp [matchEdit, fuzzyFindText_exact found, regionOf, found]

theorem matchEdits_exact_ok {totalEdits editIndex : Nat} (exact : Exact content edits)
    (ok : matchEdits nfkc content totalEdits editIndex edits = .ok matched) :
    (∀ edit ∈ edits, countOccurrences nfkc content edit.oldText ≤ 1) ∧
      matched.map MatchedEdit.replacement = edits.map (regionOf content) := by
  induction edits generalizing editIndex matched with
  | nil =>
    cases ok
    simp
  | cons edit rest ih =>
    obtain ⟨first, firstOk, ok⟩ := bind_eq_ok ok
    obtain ⟨others, othersOk, ok⟩ := bind_eq_ok ok
    cases ok
    rw [matchEdit_exact (exact edit mem_cons_self)] at firstOk
    obtain ⟨counted, regions⟩ := ih (fun other mem => exact other (.tail _ mem)) othersOk
    by_cases twice : 1 < countOccurrences nfkc content edit.oldText
    · rw [if_pos twice] at firstOk
      cases firstOk
    · rw [if_neg twice] at firstOk
      cases firstOk
      simp only [forall_mem_cons, map_cons, regions]
      exact ⟨⟨by omega, counted⟩, trivial⟩

theorem matchEdits_exact (totalEdits editIndex : Nat) (exact : Exact content edits)
    (counted : ∀ edit ∈ edits, countOccurrences nfkc content edit.oldText ≤ 1) :
    ∃ matched, matchEdits nfkc content totalEdits editIndex edits = .ok matched := by
  induction edits generalizing editIndex with
  | nil => exact ⟨[], rfl⟩
  | cons edit rest ih =>
    have once := counted edit mem_cons_self
    obtain ⟨others, othersOk⟩ := ih (editIndex + 1)
      (fun other mem => exact other (.tail _ mem))
      (fun other mem => counted other (.tail _ mem))
    refine ⟨⟨editIndex, regionOf content edit⟩ :: others, ?_⟩
    rw [matchEdits, matchEdit_exact (exact edit mem_cons_self), if_neg (by omega), ok_bind,
      othersOk, ok_bind]

theorem checkOverlaps_ok_iff :
    checkOverlaps matched = .ok () ↔ (matched.map MatchedEdit.replacement).IsChain Apart := by
  induction matched with
  | nil => simp [checkOverlaps]
  | cons previous rest ih =>
    cases rest with
    | nil => simp [checkOverlaps]
    | cons current rest =>
      rw [checkOverlaps, map_cons, map_cons, isChain_cons_cons, ← map_cons, ← ih, Apart]
      by_cases overlap : current.replacement.start < previous.replacement.stop
      · simp [overlap]
      · simp [overlap, Nat.not_lt.mp overlap]

theorem sortMatches_replacement (matched : List MatchedEdit) :
    (sortMatches matched).map MatchedEdit.replacement =
      sortReplacements (matched.map MatchedEdit.replacement) := by
  apply map_insertionSort
  intro first _ second _
  rfl

/-- An exact call succeeds exactly when its checks do, with the regions spliced. -/
theorem applyEdits_exact_iff {result : AppliedEditsResult}
    (exact : Exact content (edits.map Edit.normalize)) :
    applyEditsToNormalizedContent nfkc content edits = .ok result ↔
      Accepts nfkc content (edits.map Edit.normalize) ∧
        result = { baseContent := content
                   newContent := applyReplacements content (sortReplacements
                     ((edits.map Edit.normalize).map (regionOf content))) 0 } := by
  have plain : (edits.map Edit.normalize).any (fun edit =>
      (fuzzyFindText nfkc content edit.oldText).usedFuzzyMatch) = false := by
    rw [any_eq_false]
    intro edit mem
    obtain ⟨i, found⟩ := Option.isSome_iff_exists.mp (exact edit mem)
    simp [fuzzyFindText_exact found]
  simp only [applyEditsToNormalizedContent, plain, Bool.false_eq_true, if_false]
  generalize edits.map Edit.normalize = edits at exact
  constructor
  · intro ok
    obtain ⟨_, nonempty, ok⟩ := bind_eq_ok ok
    obtain ⟨matched, matchedOk, ok⟩ := bind_eq_ok ok
    obtain ⟨_, apart, ok⟩ := bind_eq_ok ok
    rw [ok_bind] at ok
    obtain ⟨counted, regions⟩ := matchEdits_exact_ok exact matchedOk
    rw [checkOverlaps_ok_iff] at apart
    rw [sortMatches_replacement, regions] at apart ok
    by_cases same : content = applyReplacements content
        (sortReplacements (edits.map (regionOf content))) 0
    · rw [if_pos same] at ok
      cases ok
    · rw [if_neg same] at ok
      cases ok
      exact ⟨⟨checkOldTexts_ok_iff.mp nonempty, counted, apart, same⟩, rfl⟩
  · rintro ⟨accepts, rfl⟩
    obtain ⟨matched, matchedOk⟩ := matchEdits_exact edits.length 0 exact accepts.counted
    have regions := (matchEdits_exact_ok exact matchedOk).2
    have apart : checkOverlaps (sortMatches matched) = .ok () := by
      rw [checkOverlaps_ok_iff, sortMatches_replacement, regions]
      exact accepts.apart
    rw [checkOldTexts_ok_iff.mpr accepts.nonempty, ok_bind, matchedOk, ok_bind, apart, ok_bind,
      sortMatches_replacement, regions, ok_bind, if_neg accepts.changed]

theorem regionOf_spec (exact : (indexOf edit.oldText content).isSome) :
    (regionOf content edit).start ∈ positions edit.oldText content := by
  obtain ⟨i, found⟩ := Option.isSome_iff_exists.mp exact
  rw [regionOf, found]
  exact mem_positions_of_indexOf found

theorem regionOf_stop_le (exact : (indexOf edit.oldText content).isSome) :
    (regionOf content edit).stop ≤ content.length :=
  (take_of_mem_positions (regionOf_spec exact)).2

theorem ordered_of_isChain (chain : regions.IsChain Apart)
    (inside : ∀ region ∈ regions, region.stop ≤ size)
    (first : ∀ region ∈ regions.head?, position ≤ region.start) (start : position ≤ size) :
    Ordered size position regions := by
  induction regions generalizing position with
  | nil => exact start
  | cons region rest ih =>
    obtain ⟨next, chain⟩ := isChain_cons.mp chain
    constructor
    · exact first region rfl
    · exact ih chain (fun other mem => inside other (.tail _ mem)) next
        (inside region mem_cons_self)

theorem mem_sortReplacements {region : TextReplacement} :
    region ∈ sortReplacements regions ↔ region ∈ regions :=
  (perm_insertionSort _ regions).mem_iff

theorem Accepts.ordered (accepts : Accepts nfkc content edits) (exact : Exact content edits) :
    Ordered content.length 0 (sortReplacements (edits.map (regionOf content))) := by
  apply ordered_of_isChain accepts.apart
  · intro region mem
    obtain ⟨edit, isEdit, rfl⟩ := mem_map.mp (mem_sortReplacements.mp mem)
    exact regionOf_stop_le (exact edit isEdit)
  · intro region _
    exact Nat.zero_le _
  · exact Nat.zero_le _

theorem le_start_of_ordered (ordered : Ordered size position regions) :
    ∀ region ∈ regions, position ≤ region.start := by
  induction regions generalizing position with
  | nil => simp
  | cons region rest ih =>
    intro other mem
    have behind : region.start ≤ region.stop := Nat.le_add_right ..
    rcases mem_cons.mp mem with rfl | mem
    · exact ordered.1
    · exact ordered.1.trans (behind.trans (ih ordered.2 other mem))

theorem pairwise_of_ordered (ordered : Ordered size position regions) : regions.Pairwise Apart := by
  induction regions generalizing position with
  | nil => exact .nil
  | cons region rest ih => exact .cons (le_start_of_ordered ordered.2) (ih ordered.2)

theorem sortReplacements_perm {others : List TextReplacement} (perm : others.Perm regions)
    (apart : (sortReplacements regions).Pairwise Apart)
    (nonempty : ∀ region ∈ regions, 0 < region.length) :
    sortReplacements others = sortReplacements regions := by
  have sorted (regions : List TextReplacement) : (sortReplacements regions).Pairwise
      fun first second => first.start ≤ second.start := pairwise_insertionSort _ regions
  have same : (sortReplacements others).Perm (sortReplacements regions) :=
    (perm_insertionSort _ others).trans (perm.trans (perm_insertionSort _ regions).symm)
  apply List.Perm.eq_of_pairwise _ (sorted others) (sorted regions) same
  intro first second isFirst isSecond le ge
  have positive : ∀ region ∈ sortReplacements regions, 0 < region.length :=
    fun region mem => nonempty region (mem_sortReplacements.mp mem)
  have far : (sortReplacements regions).Pairwise fun a b => a.start < b.start := by
    apply apart.imp_of_mem
    intro a b isA _ behind
    have longer := positive a isA
    unfold Apart Region.stop at behind
    omega
  have injective : ∀ a ∈ sortReplacements regions, ∀ b ∈ sortReplacements regions,
      a.start = b.start → a = b := by
    apply List.Pairwise.forall_of_forall_of_flip
    · intro a _ _
      rfl
    · exact far.imp fun less same => absurd same (Nat.ne_of_lt less)
    · exact far.imp fun less same => absurd same (Nat.ne_of_gt less)
  exact injective first (same.mem_iff.mp isFirst) second isSecond (Nat.le_antisymm le ge)

/-- Each old text stands at one position, the regions are disjoint and replaced at
once, and the order of the edits does not matter. -/
structure Unambiguous (nfkc : Units → Units) (content : Units) (edits : List Edit)
    (result : AppliedEditsResult) : Prop where
  once : ∀ edit ∈ edits.map Edit.normalize, (positions edit.oldText content).length = 1
  disjoint : (edits.map Edit.normalize).Pairwise fun first second =>
    ∀ i ∈ positions first.oldText content, ∀ j ∈ positions second.oldText content,
      i + first.oldText.length ≤ j ∨ j + second.oldText.length ≤ i
  simultaneous : ∃ pieces last, Rewrites content result.newContent pieces last ∧
    (pieces.map fun piece => (⟨piece.old, piece.new⟩ : Edit)).Perm (edits.map Edit.normalize)
  order : ∀ others : List Edit, others.Perm edits →
    applyEditsToNormalizedContent nfkc content others = .ok result

/-- The old texts that occur more than once are counted more than once. -/
def RepeatsCounted (nfkc : Units → Units) (content : Units) (edits : List Edit) : Prop :=
  ∀ edit ∈ edits.map Edit.normalize, 1 < (positions edit.oldText content).length →
    1 < countOccurrences nfkc content edit.oldText

section

variable (accepts : Accepts nfkc content edits)

include accepts

theorem Accepts.simultaneous (exact : Exact content edits) : ∃ pieces last, Rewrites content
      (applyReplacements content (sortReplacements (edits.map (regionOf content))) 0) pieces last ∧
      (pieces.map fun piece => (⟨piece.old, piece.new⟩ : Edit)).Perm edits := by
  refine ⟨_, _, rewrites_splice (accepts.ordered exact), ?_⟩
  have named (position : Nat) (regions : List TextReplacement) :
      (piecesFrom content position regions).map (fun piece => (⟨piece.old, piece.new⟩ : Edit)) =
        regions.map fun region =>
          ⟨(content.drop region.start).take region.length, region.text⟩ := by
    induction regions generalizing position with
    | nil => rfl
    | cons region rest ih => rw [piecesFrom, map_cons, map_cons, ih]
  rw [named]
  have perm := (perm_insertionSort (fun first second : TextReplacement =>
    first.start ≤ second.start) (edits.map (regionOf content))).map fun region =>
      (⟨(content.drop region.start).take region.length, region.text⟩ : Edit)
  refine perm.trans (.of_eq ?_)
  rw [map_map]
  conv_rhs => rw [← map_id edits]
  apply map_congr_left
  intro edit mem
  have taken := (take_of_mem_positions (regionOf_spec (exact edit mem))).1
  exact congrArg (fun old => (⟨old, edit.newText⟩ : Edit)) taken

theorem Accepts.perm {others : List Edit} (exact : Exact content edits) (perm : others.Perm edits) :
    Accepts nfkc content others ∧ sortReplacements (others.map (regionOf content)) =
      sortReplacements (edits.map (regionOf content)) := by
  have same : sortReplacements (others.map (regionOf content)) =
      sortReplacements (edits.map (regionOf content)) := by
    apply sortReplacements_perm (perm.map _) (pairwise_of_ordered (accepts.ordered exact))
    intro region mem
    obtain ⟨edit, isEdit, rfl⟩ := mem_map.mp mem
    exact length_pos_of_ne_nil (accepts.nonempty edit isEdit)
  refine ⟨?_, same⟩
  constructor
  · intro edit mem
    exact accepts.nonempty edit (perm.mem_iff.mp mem)
  · intro edit mem
    exact accepts.counted edit (perm.mem_iff.mp mem)
  · rw [same]
    exact accepts.apart
  · rw [same]
    exact accepts.changed

theorem length_positions_of_counted (exact : Exact content edits) (mem : edit ∈ edits)
    (counted : 1 < (positions edit.oldText content).length →
      1 < countOccurrences nfkc content edit.oldText) :
    (positions edit.oldText content).length = 1 := by
  have least := accepts.counted edit mem
  have found := length_pos_of_mem (regionOf_spec (exact edit mem))
  by_contra many
  have twice := counted (by omega)
  omega

/-- Where each old text stands once, the regions of two edits do not overlap. -/
theorem Accepts.disjoint (exact : Exact content edits)
    (once : ∀ edit ∈ edits, (positions edit.oldText content).length = 1) :
    edits.Pairwise fun first second =>
      ∀ i ∈ positions first.oldText content, ∀ j ∈ positions second.oldText content,
        i + first.oldText.length ≤ j ∨ j + second.oldText.length ≤ i := by
  have apart := (pairwise_of_ordered (accepts.ordered exact)).imp
    (S := fun first second => Apart first second ∨ Apart second first) fun behind => .inl behind
  rw [sortReplacements, (perm_insertionSort _ _).pairwise_iff fun either => either.symm,
    pairwise_map] at apart
  apply apart.imp_of_mem
  intro first second isFirst isSecond either i isI j isJ
  have only : ∀ edit ∈ edits, ∀ i ∈ positions edit.oldText content,
      i = (regionOf content edit).start := by
    intro edit mem i isI
    obtain ⟨position, single⟩ := length_eq_one_iff.mp (once edit mem)
    have start := regionOf_spec (exact edit mem)
    rw [single, mem_singleton] at isI start
    rw [isI, start]
  rw [only first isFirst i isI, only second isSecond j isJ]
  exact either

end

end Trpi.Tools
