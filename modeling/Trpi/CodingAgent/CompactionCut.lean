import Trpi.CodingAgent.Compaction

/-!
# Where a branch is cut

The indices of the search described over the list of entries: the cut is at the first cut point
of the shortest end of the branch that fills the budget, or of the whole if that has none.
-/

namespace Trpi.CodingAgent

open Library List Option

variable {N : Type}

section

variable {α β : Type}

theorem indicesFrom_cons {startIndex endIndex : Nat} (below : startIndex < endIndex) :
    indicesFrom startIndex endIndex = startIndex :: indicesFrom (startIndex + 1) endIndex := by
  obtain ⟨n, rfl⟩ := Nat.exists_eq_add_of_lt below
  rw [indicesFrom, indicesFrom, show startIndex + n + 1 - startIndex = n + 1 by omega,
    show startIndex + n + 1 - (startIndex + 1) = n by omega, range'_succ]

theorem indicesFrom_self (i : Nat) : indicesFrom i i = [] := by
  rw [indicesFrom, Nat.sub_self, range'_zero]

theorem indicesFrom_append {first second third : Nat} (low : first ≤ second)
    (high : second ≤ third) :
    indicesFrom first second ++ indicesFrom second third = indicesFrom first third := by
  obtain ⟨m, rfl⟩ := Nat.exists_eq_add_of_le low
  obtain ⟨n, rfl⟩ := Nat.exists_eq_add_of_le high
  rw [indicesFrom, indicesFrom, indicesFrom, show first + m - first = m by omega,
    show first + m + n - (first + m) = n by omega, show first + m + n - first = m + n by omega,
    ← range'_append_1]

/-- A range up to the end is the list without its beginning. -/
theorem filterMap_indices {f : α → Option β} (entries : List α) {startIndex : Nat}
    (within : startIndex ≤ entries.length) :
    (indicesFrom startIndex entries.length).filterMap (fun i => entries[i]?.bind f) =
      (entries.drop startIndex).filterMap f := by
  induction size : entries.length - startIndex generalizing startIndex with
  | zero =>
    obtain rfl : startIndex = entries.length := by omega
    rw [indicesFrom_self, drop_length]
    rfl
  | succ n ih =>
    have below : startIndex < entries.length := by omega
    rw [indicesFrom_cons below, drop_eq_getElem_cons below, filterMap_cons,
      filterMap_cons, getElem?_eq_getElem below, ih (by omega) (by omega)]
    rfl

theorem find?_indices {p : α → Bool} (entries : List α) {startIndex : Nat}
    (within : startIndex ≤ entries.length) :
    ((entries.drop startIndex).any p = false ∧
      (indicesFrom startIndex entries.length).find? (fun i => entries[i]?.any p) = none) ∨
    ∃ i, (indicesFrom startIndex entries.length).find? (fun i => entries[i]?.any p) = some i ∧
      startIndex ≤ i ∧ i < entries.length ∧
      entries.drop i = (entries.drop startIndex).dropWhile fun e => !p e := by
  induction size : entries.length - startIndex generalizing startIndex with
  | zero =>
    obtain rfl : startIndex = entries.length := by omega
    rw [indicesFrom_self, drop_length]
    exact .inl ⟨rfl, rfl⟩
  | succ n ih =>
    have below : startIndex < entries.length := by omega
    have shape := drop_eq_getElem_cons below
    rw [indicesFrom_cons below]
    cases holds : p entries[startIndex] with
    | true =>
      refine .inr ⟨startIndex, ?_, Nat.le_refl _, below, ?_⟩
      · rw [find?_cons_of_pos]
        rw [getElem?_eq_getElem below]
        exact holds
      · rw [shape, dropWhile_cons_of_neg]
        rw [holds]
        exact Bool.false_ne_true
    | false =>
      rw [find?_cons_of_neg, shape]
      · rcases ih (by omega : startIndex + 1 ≤ entries.length) (by omega) with ⟨none, absent⟩ |
          ⟨i, found, low, high, same⟩
        · refine .inl ⟨?_, absent⟩
          rw [any_cons, holds, none]
          rfl
        · refine .inr ⟨i, found, by omega, high, ?_⟩
          rw [same, dropWhile_cons_of_pos]
          rw [holds]
          rfl
      · rw [getElem?_eq_getElem below]
        exact Bool.eq_false_iff.mp holds

end

variable [JsonNumber N] (time : Option (Json N) → Json N)

def tokensOf (entries : List (FileEntry N)) : Nat := (entries.map (entryTokens time)).sum

/-- The shortest end of the entries that fills the budget and begins with an entry of some
tokens. -/
def recentEntries (keepRecentTokens : Int) : List (FileEntry N) → Option (List (FileEntry N))
  | [] => none
  | entry :: rest =>
    match recentEntries keepRecentTokens rest with
    | some recent => some recent
    | none =>
      if entryTokens time entry ≠ 0 ∧ keepRecentTokens ≤ (tokensOf time (entry :: rest) : Nat) then
        some (entry :: rest)
      else none

/-- The entries from the cut on, before it moves back over what shows in no context. -/
def keptFrom (keepRecentTokens : Int) (entries : List (FileEntry N)) : List (FileEntry N) :=
  ((recentEntries time keepRecentTokens entries).filter
    (·.any (isCutPointEntry time))).getD entries |>.dropWhile fun entry =>
      !isCutPointEntry time entry

variable {time} {startIndex : Nat}

def tokensAt (time : Option (Json N) → Json N) (entries : List (FileEntry N)) (i : Nat) : Nat :=
  (entries[i]?.map (entryTokens time)).getD 0

theorem keptFrom_head {keepRecentTokens : Int} {entries rest : List (FileEntry N)}
    {e : FileEntry N} (same : keptFrom time keepRecentTokens entries = e :: rest) :
    isCutPointEntry time e = true := by
  have head := head?_dropWhile_not (fun e => !isCutPointEntry time e)
    (((recentEntries time keepRecentTokens entries).filter
      (·.any (isCutPointEntry time))).getD entries)
  rw [keptFrom] at same
  rw [same] at head
  simpa using head

section

variable (entries : List (FileEntry N))

theorem findBudgetIndex_cons (keepRecentTokens : Int)
    (i : Nat) (rest : List Nat) (accumulated : Nat) :
    findBudgetIndex time entries keepRecentTokens (i :: rest) accumulated =
      if tokensAt time entries i ≠ 0 ∧
          keepRecentTokens ≤ (accumulated + tokensAt time entries i : Nat) then some i
      else findBudgetIndex time entries keepRecentTokens rest
        (accumulated + tokensAt time entries i) := by
  rw [findBudgetIndex]
  split
  · rename_i zero
    rw [tokensAt, zero]
    simp
  · rename_i tokens nonzero
    have some_ : tokensAt time entries i ≠ 0 := nonzero
    rw [← tokensAt]
    simp only [some_, ne_eq, not_false_eq_true, true_and, ge_iff_le]

theorem findBudgetIndex_concat (keepRecentTokens : Int)
    (indices : List Nat) (i accumulated : Nat) :
    findBudgetIndex time entries keepRecentTokens (indices ++ [i]) accumulated =
      (findBudgetIndex time entries keepRecentTokens indices accumulated).or
        (if tokensAt time entries i ≠ 0 ∧ keepRecentTokens ≤
            (accumulated + (indices.map (tokensAt time entries)).sum + tokensAt time entries i : Nat)
          then some i else none) := by
  induction indices generalizing accumulated with
  | nil =>
    rw [nil_append, findBudgetIndex_cons, findBudgetIndex, findBudgetIndex]
    rfl
  | cons j rest ih =>
    rw [cons_append, findBudgetIndex_cons, findBudgetIndex_cons, map_cons, sum_cons]
    by_cases reached : tokensAt time entries j ≠ 0 ∧
        keepRecentTokens ≤ (accumulated + tokensAt time entries j : Nat)
    · rw [if_pos reached, if_pos reached]
      rfl
    · rw [if_neg reached, if_neg reached, ih, Nat.add_assoc accumulated]

theorem tokens_indices (within : startIndex ≤ entries.length) :
    ((indicesFrom startIndex entries.length).reverse.map (tokensAt time entries)).sum =
      tokensOf time (entries.drop startIndex) := by
  induction size : entries.length - startIndex generalizing startIndex with
  | zero =>
    obtain rfl : startIndex = entries.length := by omega
    rw [indicesFrom_self, drop_length]
    rfl
  | succ n ih =>
    have below : startIndex < entries.length := by omega
    have whole := ih (by omega : startIndex + 1 ≤ entries.length) (by omega)
    have own : tokensAt time entries startIndex = entryTokens time entries[startIndex] := by
      rw [tokensAt, getElem?_eq_getElem below]
      rfl
    rw [indicesFrom_cons below, reverse_cons, map_append, sum_append, whole,
      drop_eq_getElem_cons below, map_singleton, sum_singleton, own, tokensOf,
      tokensOf, map_cons, sum_cons, Nat.add_comm]

theorem findBudgetIndex_eq (keepRecentTokens : Int)
    (within : startIndex ≤ entries.length) :
    (recentEntries time keepRecentTokens (entries.drop startIndex) = none ∧
      findBudgetIndex time entries keepRecentTokens
        (indicesFrom startIndex entries.length).reverse 0 = none) ∨
    ∃ i, findBudgetIndex time entries keepRecentTokens
        (indicesFrom startIndex entries.length).reverse 0 = some i ∧
      startIndex ≤ i ∧ i < entries.length ∧
      recentEntries time keepRecentTokens (entries.drop startIndex) = some (entries.drop i) := by
  induction size : entries.length - startIndex generalizing startIndex with
  | zero =>
    obtain rfl : startIndex = entries.length := by omega
    rw [indicesFrom_self, drop_length]
    exact .inl ⟨rfl, rfl⟩
  | succ n ih =>
    have below : startIndex < entries.length := by omega
    have shape := drop_eq_getElem_cons below
    have own : tokensAt time entries startIndex = entryTokens time entries[startIndex] := by
      rw [tokensAt, getElem?_eq_getElem below]
      rfl
    rw [indicesFrom_cons below, reverse_cons, findBudgetIndex_concat,
      tokens_indices entries (by omega : startIndex + 1 ≤ entries.length), Nat.zero_add, own,
      shape, recentEntries]
    have total : tokensOf time (entries[startIndex] :: entries.drop (startIndex + 1)) =
        tokensOf time (entries.drop (startIndex + 1)) + entryTokens time entries[startIndex] := by
      rw [tokensOf, tokensOf, map_cons, sum_cons, Nat.add_comm]
    rw [total]
    rcases ih (by omega : startIndex + 1 ≤ entries.length) (by omega) with ⟨none, absent⟩ |
      ⟨i, found, low, high, same⟩
    · rw [absent, none, none_or]
      dsimp only
      split_ifs with reached
      · exact .inr ⟨startIndex, rfl, Nat.le_refl _, below, by rw [shape]⟩
      · exact .inl ⟨rfl, rfl⟩
    · rw [found, same, some_or]
      exact .inr ⟨i, rfl, by omega, high, rfl⟩

end

/-- The search among the cut points starts where the tokens reached the budget. -/
theorem find?_cutPoints {p : Nat → Bool} {first middle last : Nat} (low : first ≤ middle)
    (high : middle ≤ last) :
    ((indicesFrom first last).filter p).find? (fun cut => middle ≤ cut) =
      (indicesFrom middle last).find? p := by
  have before : ((indicesFrom first middle).filter p).find? (fun cut => middle ≤ cut) = none := by
    rw [find?_eq_none]
    intro cut inside
    have within := mem_of_mem_filter inside
    rw [indicesFrom, mem_range'_1] at within
    rw [decide_eq_true_eq]
    omega
  rw [← indicesFrom_append low high, filter_append, find?_append, before, none_or]
  have after : ∀ cut ∈ indicesFrom middle last, middle ≤ cut := by
    intro cut inside
    rw [indicesFrom, mem_range'_1] at inside
    exact inside.1
  generalize indicesFrom middle last = later at after
  induction later with
  | nil => rfl
  | cons cut rest ih =>
    have rest_ := ih fun other inside => after other (mem_cons_of_mem _ inside)
    have own := decide_eq_true (after cut mem_cons_self)
    rw [filter_cons, find?_cons]
    cases p cut with
    | true => exact find?_cons_of_pos own
    | false => exact rest_

theorem skipInvisible_spec (entries : List (FileEntry N)) {startIndex found : Nat}
    (low : startIndex ≤ found) (high : found ≤ entries.length) :
    startIndex ≤ skipInvisible time entries startIndex found ∧
    skipInvisible time entries startIndex found ≤ found ∧
    ∃ hidden, entries.drop (skipInvisible time entries startIndex found) =
        hidden ++ entries.drop found ∧ ∀ e ∈ hidden, isInvisible time e = true := by
  induction found with
  | zero => exact ⟨low, Nat.le_refl _, [], rfl, forall_mem_nil _⟩
  | succ previous ih =>
    rw [skipInvisible]
    split_ifs with skips
    · obtain ⟨less, invisible⟩ := skips
      have below : previous < entries.length := by omega
      obtain ⟨above, under, hidden, same, each⟩ := ih (by omega) (by omega)
      refine ⟨above, by omega, hidden ++ [entries[previous]], ?_, ?_⟩
      · rw [same, append_assoc, drop_eq_getElem_cons below]
        rfl
      · intro e inside
        rcases mem_append.mp inside with earlier | last
        · exact each e earlier
        · rw [mem_singleton.mp last]
          rw [getElem?_eq_getElem below] at invisible
          exact invisible
    · exact ⟨low, Nat.le_refl _, [], rfl, forall_mem_nil _⟩

theorem cut_found (entries : List (FileEntry N)) (keepRecentTokens : Int) {startIndex first : Nat}
    {more : List Nat} (within : startIndex ≤ entries.length)
    (cutPoints : findValidCutPoints time entries startIndex entries.length = first :: more) :
    ∃ found, closestCutPoint first more (findBudgetIndex time entries keepRecentTokens
        (indicesFrom startIndex entries.length).reverse 0) = found ∧
      startIndex ≤ found ∧ found < entries.length ∧
      entries.drop found = keptFrom time keepRecentTokens (entries.drop startIndex) := by
  have head : (indicesFrom startIndex entries.length).find?
      (fun i => entries[i]?.any (isCutPointEntry time)) = some first := by
    rw [← head?_filter]
    exact congrArg head? cutPoints
  have whole : startIndex ≤ first ∧ first < entries.length ∧
      entries.drop first = (entries.drop startIndex).dropWhile
        fun e => !isCutPointEntry time e := by
    rcases find?_indices entries within with ⟨-, none⟩ | ⟨i, found, low, high, same⟩
    · rw [head] at none
      cases none
    · rw [head] at found
      cases found
      exact ⟨low, high, same⟩
  rcases findBudgetIndex_eq entries keepRecentTokens within with ⟨none, absent⟩ |
    ⟨i, found, low, high, recent⟩
  · rw [absent]
    refine ⟨first, rfl, whole.1, whole.2.1, ?_⟩
    rw [whole.2.2, keptFrom, none]
    rfl
  · rw [found, keptFrom, recent, closestCutPoint, ← cutPoints,
      findValidCutPoints, find?_cutPoints low (Nat.le_of_lt high)]
    rcases find?_indices entries (Nat.le_of_lt high) with ⟨none, absent⟩ |
      ⟨cut, isCut, above, below, same⟩
    · rw [absent]
      refine ⟨first, rfl, whole.1, whole.2.1, ?_⟩
      rw [whole.2.2, filter_some, none]
      rfl
    · rw [isCut]
      refine ⟨cut, rfl, by omega, below, ?_⟩
      have some_ : (entries.drop i).any (isCutPointEntry time) = true := by
        have inside : entries[cut] ∈ entries.drop i := by
          rw [mem_drop_iff_getElem]
          refine ⟨cut - i, by omega, ?_⟩
          congr 1
          omega
        have point := find?_some isCut
        rw [getElem?_eq_getElem below] at point
        exact any_eq_true.mpr ⟨_, inside, point⟩
      rw [same, filter_some, some_]
      rfl

/-- The cut is at the first cut point, less what shows in no context before it. -/
theorem findCutPoint_spec (entries : List (FileEntry N)) (keepRecentTokens : Int)
    (within : startIndex ≤ entries.length) {result : CutPointResult}
    (cut : findCutPoint time entries startIndex entries.length keepRecentTokens = result) :
    (result.firstKeptEntryIndex = startIndex ∧ result.isSplitTurn = false) ∨
    ∃ found hidden, startIndex ≤ result.firstKeptEntryIndex ∧
      entries.drop result.firstKeptEntryIndex =
        hidden ++ keptFrom time keepRecentTokens (entries.drop startIndex) ∧
      keptFrom time keepRecentTokens (entries.drop startIndex) = entries.drop found ∧
      found < entries.length ∧
      (∀ e ∈ hidden, isInvisible time e = true) ∧
      (result.isSplitTurn = true → ∃ turn, result.turnStartIndex = some turn ∧
        startIndex ≤ turn ∧ turn ≤ result.firstKeptEntryIndex) := by
  unfold findCutPoint at cut
  split at cut
  · subst cut
    exact .inl ⟨rfl, rfl⟩
  · rename_i first more cutPoints
    obtain ⟨found, isFound, low, high, same⟩ := cut_found entries keepRecentTokens within
      cutPoints
    dsimp only at cut
    rw [isFound] at cut
    obtain ⟨above, -, hidden, kept, invisible⟩ := @skipInvisible_spec _ _ time entries _ _ low
      (Nat.le_of_lt high)
    subst cut
    refine .inr ⟨found, hidden, above, ?_, same.symm, high, invisible, fun splits => ?_⟩
    · rw [← same]
      exact kept
    · dsimp only at splits ⊢
      rw [Bool.and_eq_true, Bool.not_eq_true'] at splits
      obtain ⟨starts, some_⟩ := splits
      rw [starts, if_neg Bool.false_ne_true] at some_ ⊢
      obtain ⟨turn, isTurn⟩ := isSome_iff_exists.mp some_
      refine ⟨turn, isTurn, ?_⟩
      have inside := mem_of_find?_eq_some isTurn
      rw [mem_reverse, indicesFrom, mem_range'_1] at inside
      omega

end Trpi.CodingAgent
