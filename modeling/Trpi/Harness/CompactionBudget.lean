import Trpi.Harness.CompactionPartition

/-!
# How much a cut keeps

The walk backwards stops at the last message whose suffix reaches the budget. The cut is at or
after every cut point that reaches it where one lies there, and is the first of all elsewhere.
-/

namespace Trpi.Harness

open Library List

variable {N : Type} [JsonNumber N] {entries : List (PathEntry N)} {endIndex : Nat}

def tokensAt (entries : List (PathEntry N)) (i : Nat) : Nat :=
  match entries[i]?.map PathEntry.content with
  | some (.message message) => estimateTokens message
  | _ => 0

/-- The estimated tokens of the messages from an index to the end of a range. -/
def suffixTokens (entries : List (PathEntry N)) (index endIndex : Nat) : Nat :=
  ((indexRange index endIndex).map (tokensAt entries)).sum

theorem suffixTokens_end (entries : List (PathEntry N)) (endIndex : Nat) :
    suffixTokens entries endIndex endIndex = 0 := by
  rw [suffixTokens, indexRange_empty (Nat.le_refl _)]
  rfl

theorem suffixTokens_cons {i : Nat} (below : i < endIndex) :
    suffixTokens entries i endIndex =
      suffixTokens entries (i + 1) endIndex + tokensAt entries i := by
  rw [suffixTokens, indexRange_cons below, map_cons, sum_cons, Nat.add_comm]
  rfl

/-- The last message of a range whose suffix reaches the budget. -/
structure LastReaching (entries : List (PathEntry N)) (startIndex endIndex : Nat)
    (keepRecentTokens : Int) (index : Nat) : Prop where
  low : startIndex ≤ index
  high : index < endIndex
  message : entries[index]?.any PathEntry.isMessage = true
  reaches : keepRecentTokens ≤ suffixTokens entries index endIndex
  last : ∀ later, index < later → later < endIndex →
    entries[later]?.any PathEntry.isMessage = true →
    (suffixTokens entries later endIndex : Int) < keepRecentTokens

theorem LastReaching.unique {startIndex : Nat} {keepRecentTokens : Int} {first second : Nat}
    (one : LastReaching entries startIndex endIndex keepRecentTokens first)
    (other : LastReaching entries startIndex endIndex keepRecentTokens second) :
    first = second := by
  rcases Nat.lt_trichotomy first second with less | same | more
  · have under := one.last second less other.high other.message
    have reaches := other.reaches
    omega
  · exact same
  · have under := other.last first more one.high one.message
    have reaches := one.reaches
    omega

theorem findBudgetIndex_cons (entries : List (PathEntry N)) (keepRecentTokens : Int)
    (i : Nat) (indices : List Nat) (accumulated : Nat) :
    findBudgetIndex entries keepRecentTokens (i :: indices) accumulated =
      if entries[i]?.any PathEntry.isMessage = true ∧
          keepRecentTokens ≤ (accumulated + tokensAt entries i : Nat) then some i
      else findBudgetIndex entries keepRecentTokens indices (accumulated + tokensAt entries i) := by
  rw [findBudgetIndex, tokensAt]
  cases entries[i]? with
  | none => rfl
  | some e =>
    obtain ⟨id, parentId, seq, timestamp, content⟩ := e
    cases content with
    | message message =>
      by_cases reached : keepRecentTokens ≤ (accumulated + estimateTokens message : Nat)
      · exact (if_pos reached).trans (if_pos ⟨rfl, reached⟩).symm
      · exact (if_neg reached).trans (if_neg fun both => reached both.2).symm
    | compaction compaction => rfl
    | branchSummary fromId summary => rfl
    | custom customType => rfl

omit [JsonNumber N] in
theorem indexRange_reverse_succ {startIndex middle : Nat} (low : startIndex ≤ middle) :
    (indexRange startIndex (middle + 1)).reverse =
      middle :: (indexRange startIndex middle).reverse := by
  rw [← indexRange_append low (Nat.le_succ middle), indexRange_cons (Nat.lt_succ_self middle),
    indexRange_empty (Nat.le_refl _), reverse_append]
  rfl

/-- What the walk over the front of a range finds once it has summed up the rest. -/
theorem findBudgetIndex_range (entries : List (PathEntry N)) (startIndex : Nat)
    (keepRecentTokens : Int) {middle : Nat} (within : middle ≤ endIndex) :
    (findBudgetIndex entries keepRecentTokens (indexRange startIndex middle).reverse
        (suffixTokens entries middle endIndex) = none ∧
      ∀ i, startIndex ≤ i → i < middle → entries[i]?.any PathEntry.isMessage = true →
        (suffixTokens entries i endIndex : Int) < keepRecentTokens) ∨
    ∃ i, findBudgetIndex entries keepRecentTokens (indexRange startIndex middle).reverse
        (suffixTokens entries middle endIndex) = some i ∧
      startIndex ≤ i ∧ i < middle ∧ entries[i]?.any PathEntry.isMessage = true ∧
      keepRecentTokens ≤ suffixTokens entries i endIndex ∧
      ∀ later, i < later → later < middle → entries[later]?.any PathEntry.isMessage = true →
        (suffixTokens entries later endIndex : Int) < keepRecentTokens := by
  induction middle with
  | zero =>
    rw [indexRange_empty (Nat.zero_le _)]
    exact .inl ⟨rfl, fun i _ below => absurd below (Nat.not_lt_zero i)⟩
  | succ middle ih =>
    by_cases low : startIndex ≤ middle
    · rw [indexRange_reverse_succ low, findBudgetIndex_cons,
        ← suffixTokens_cons (by omega : middle < endIndex)]
      by_cases reached : entries[middle]?.any PathEntry.isMessage = true ∧
          keepRecentTokens ≤ suffixTokens entries middle endIndex
      · rw [if_pos reached]
        refine .inr ⟨middle, rfl, low, Nat.lt_succ_self _, reached.1, reached.2, ?_⟩
        intro later above below
        omega
      · rw [if_neg reached]
        have under : entries[middle]?.any PathEntry.isMessage = true →
            (suffixTokens entries middle endIndex : Int) < keepRecentTokens :=
          fun m => lt_of_not_ge fun reaches => reached ⟨m, reaches⟩
        rcases ih (by omega) with ⟨absent, all⟩ | ⟨i, found, start, high, m, reaches, last⟩
        · refine .inl ⟨absent, ?_⟩
          intro i from_ below m
          by_cases same : i = middle
          · rw [same] at m ⊢
            exact under m
          · exact all i from_ (by omega) m
        · refine .inr ⟨i, found, start, Nat.lt_succ_of_lt high, m, reaches, ?_⟩
          intro later above below isMessage
          by_cases same : later = middle
          · rw [same] at isMessage ⊢
            exact under isMessage
          · exact last later above (by omega) isMessage
    · rw [indexRange_empty (by omega)]
      exact .inl ⟨rfl, fun i _ _ => by omega⟩

theorem findBudgetIndex_spec (entries : List (PathEntry N)) (startIndex endIndex : Nat)
    (keepRecentTokens : Int) :
    (findBudgetIndex entries keepRecentTokens (indexRange startIndex endIndex).reverse 0 = none ∧
      ∀ i, ¬LastReaching entries startIndex endIndex keepRecentTokens i) ∨
    ∃ i, findBudgetIndex entries keepRecentTokens (indexRange startIndex endIndex).reverse 0 =
        some i ∧ LastReaching entries startIndex endIndex keepRecentTokens i := by
  have walk := findBudgetIndex_range entries startIndex keepRecentTokens (Nat.le_refl endIndex)
  rw [suffixTokens_end] at walk
  rcases walk with ⟨absent, all⟩ | ⟨i, found, low, high, m, reaches, last⟩
  · refine .inl ⟨absent, ?_⟩
    intro i found
    have under := all i found.low found.high found.message
    have reaches := found.reaches
    omega
  · exact .inr ⟨i, found, low, high, m, reaches, last⟩

omit [JsonNumber N] in
theorem find?_least {indices : List Nat} {bound found : Nat} (sorted : indices.Pairwise (· < ·))
    (first : indices.find? (fun i => bound ≤ i) = some found) :
    bound ≤ found ∧ ∀ i ∈ indices, bound ≤ i → found ≤ i := by
  obtain ⟨reaches, before, after, rfl, skipped⟩ := find?_eq_some_iff_append.mp first
  refine ⟨of_decide_eq_true reaches, ?_⟩
  intro i mem above
  rcases mem_append.mp mem with earlier | later
  · have under := skipped i earlier
    rw [Bool.not_eq_true', decide_eq_false_iff_not] at under
    exact absurd above under
  · rcases mem_cons.mp later with rfl | later
    · exact Nat.le_refl _
    · exact Nat.le_of_lt (rel_of_pairwise_cons (pairwise_append.mp sorted).2.1 later)

/-- No valid cut point that reaches the budget lies after the selected one, just where each such
cut point is the first of all, or is not after the cut points from the last reaching message
on and there is one. -/
theorem findCutPoint_latest_iff (entries : List (PathEntry N)) (startIndex endIndex : Nat)
    (keepRecentTokens : Int) (first : Nat) (cutPoints : List Nat)
    (valid : findValidCutPoints entries startIndex endIndex = some (first :: cutPoints)) :
    ((findCutPoint entries startIndex endIndex keepRecentTokens).map
        CutPointResult.firstKeptEntryIndex =
      some (moveBack entries startIndex
        (selectCutPoint entries startIndex endIndex keepRecentTokens first cutPoints))) ∧
    ((∀ cut ∈ first :: cutPoints, keepRecentTokens ≤ suffixTokens entries cut endIndex →
        cut ≤ selectCutPoint entries startIndex endIndex keepRecentTokens first cutPoints) ↔
      ∀ cut ∈ first :: cutPoints, keepRecentTokens ≤ suffixTokens entries cut endIndex →
        cut = first ∨ ∃ last, LastReaching entries startIndex endIndex keepRecentTokens last ∧
          (∃ later ∈ first :: cutPoints, last ≤ later) ∧
          ∀ later ∈ first :: cutPoints, last ≤ later → cut ≤ later) := by
  have sorted := findValidCutPoints_sorted valid
  have least : ∀ cut ∈ first :: cutPoints, first ≤ cut := by
    intro cut mem
    rcases mem_cons.mp mem with rfl | mem
    · exact Nat.le_refl _
    · exact Nat.le_of_lt (rel_of_pairwise_cons sorted mem)
  constructor
  · rw [findCutPoint, valid]
    rfl
  · rw [selectCutPoint]
    rcases findBudgetIndex_spec entries startIndex endIndex keepRecentTokens with
      ⟨absent, none⟩ | ⟨i, found, last⟩
    · rw [absent]
      constructor
      · intro latest cut mem reaches
        exact .inl (Nat.le_antisymm (latest cut mem reaches) (least cut mem))
      · intro condition cut mem reaches
        rcases condition cut mem reaches with rfl | ⟨last, reaching, -⟩
        · exact Nat.le_refl _
        · exact absurd reaching (none last)
    · rw [found]
      dsimp only
      cases chosen : (first :: cutPoints).find? fun cut => decide (i ≤ cut) with
      | none =>
        have before : ∀ cut ∈ first :: cutPoints, ¬i ≤ cut := by
          intro cut mem above
          exact find?_eq_none.mp chosen cut mem (decide_eq_true above)
        constructor
        · intro latest cut mem reaches
          exact .inl (Nat.le_antisymm (latest cut mem reaches) (least cut mem))
        · intro condition cut mem reaches
          rcases condition cut mem reaches with
            rfl | ⟨other, reaching, ⟨later, inside, above⟩, -⟩
          · exact Nat.le_refl _
          · rw [reaching.unique last] at above
            exact absurd above (before later inside)
      | some selected =>
        obtain ⟨above, minimal⟩ := find?_least sorted chosen
        constructor
        · intro latest cut mem reaches
          refine .inr ⟨i, last, ⟨selected, mem_of_find?_eq_some chosen, above⟩, ?_⟩
          intro later inside after
          exact Nat.le_trans (latest cut mem reaches) (minimal later inside after)
        · intro condition cut mem reaches
          rcases condition cut mem reaches with rfl | ⟨other, reaching, -, bounded⟩
          · exact least selected (mem_of_find?_eq_some chosen)
          · rw [reaching.unique last] at bounded
            exact bounded selected (mem_of_find?_eq_some chosen) above

theorem findCutPoint_latest_iff_sample :
    findValidCutPoints (samplePath plainTurn) 0 6 = some (0 :: [1, 4, 5]) ∧
      ∀ cut ∈ [0, 1, 4, 5], (3 : Int) ≤ suffixTokens (samplePath plainTurn) cut 6 →
        cut ≤ selectCutPoint (samplePath plainTurn) 0 6 3 0 [1, 4, 5] := by
  have valid : findValidCutPoints (samplePath plainTurn) 0 6 = some (0 :: [1, 4, 5]) := by decide
  have latest := (findCutPoint_latest_iff (samplePath plainTurn) 0 6 3 0 [1, 4, 5] valid).2
  have last : LastReaching (samplePath plainTurn) 0 6 3 2 := by
    refine ⟨by decide, by decide, by decide, by decide, ?_⟩
    intro later above below _
    obtain rfl | rfl | rfl : later = 3 ∨ later = 4 ∨ later = 5 := by omega
    all_goals decide
  refine ⟨valid, latest.mpr ?_⟩
  intro cut mem reaches
  simp only [mem_cons, not_mem_nil, or_false] at mem
  rcases mem with rfl | rfl | rfl | rfl
  · exact .inl rfl
  · exact .inr ⟨2, last, ⟨4, by decide, by decide⟩, by decide⟩
  · exact absurd reaches (by decide)
  · exact absurd reaches (by decide)

def longResult : List (LaneMessage Int) :=
  [sampleUser, sampleAssistant ["a"],
    .message (.toolResult (sampleResult "a" (List.replicate 40 97)))]

/-- Everything is kept although the call's message alone would reach the budget. -/
theorem findCutPoint_keeps_all :
    findValidCutPoints (samplePath longResult) 0 3 = some [0, 1] ∧
      (5 : Int) ≤ suffixTokens (samplePath longResult) 1 3 ∧
      selectCutPoint (samplePath longResult) 0 3 5 0 [1] = 0 ∧
      findCutPoint (samplePath longResult) 0 3 5 = some ⟨0, none, false⟩ := by
  decide

end Trpi.Harness
