import Mathlib.Algebra.Order.Floor.Ring
import Mathlib.Data.Rat.Floor
import Mathlib.Algebra.Ring.Nat
import Mathlib.Tactic.SplitIfs

/-!
# Sizes in a stack

`allocateStackSizes` of tui/src/components/stack.ts, with the options of an entry as `addChild`
normalizes them. Numbers are exact. What is left to distribute is handed out round by round until
nothing is left or no entry can take any more.
-/

namespace Trpi.Tui

open List

def MAX_SAFE_INTEGER : Nat := 9007199254740991

/-- `basis` is `none` where it is `"auto"` or missing. -/
structure StackLayoutEntry where
  basis : Option ℚ
  grow : Option Nat
  shrink : Option Nat
  minSize : Option Nat
  maxSize : Option Nat

namespace StackLayoutEntry

def least (entry : StackLayoutEntry) : Nat := entry.minSize.getD 0

def most (entry : StackLayoutEntry) : Nat := entry.maxSize.getD MAX_SAFE_INTEGER

def growing (entry : StackLayoutEntry) : Nat := entry.grow.getD 0

def shrinking (entry : StackLayoutEntry) : Nat := entry.shrink.getD 1

end StackLayoutEntry

def clampSize (size : ℚ) (entry : StackLayoutEntry) : Nat :=
  let min := entry.least
  let max := Nat.max min entry.most
  Nat.max min (Nat.min max ⌊size⌋.toNat)

inductive DistributeMode where
  | grow | shrink

/-- An entry with its size so far. -/
abbrev Sized := StackLayoutEntry × Nat

namespace DistributeMode

def isCandidate : DistributeMode → Sized → Bool
  | .grow, (entry, size) => 0 < entry.growing && size < entry.most
  | .shrink, (entry, size) => 0 < entry.shrinking && entry.least < size

def weight : DistributeMode → Sized → Nat
  | .grow, (entry, _) => entry.growing
  | .shrink, (entry, size) => entry.shrinking * Nat.max 1 size

def capacity : DistributeMode → Sized → Nat
  | .grow, (entry, size) => entry.most - size
  | .shrink, (entry, size) => size - entry.least

def resize : DistributeMode → Nat → Nat → Nat
  | .grow, size, delta => size + delta
  | .shrink, size, delta => size - delta

end DistributeMode

def candidates (mode : DistributeMode) (items : List Sized) : List Sized :=
  items.filter mode.isCandidate

def totalWeight (mode : DistributeMode) (items : List Sized) : Nat :=
  ((candidates mode items).map mode.weight).sum

/-- What a candidate takes: its share rounded down, at least one, within what is left. -/
def delta (mode : DistributeMode) (weights remaining : Nat) (item : Sized) : Nat :=
  let proposed := Nat.max 1 (remaining * mode.weight item / weights)
  Nat.min remaining (Nat.min proposed (mode.capacity item))

/-- One round over the entries, with what is left after it. The size of an entry changes only in
its own turn, so an entry is still the candidate it was when the round began. -/
def distributeRound (mode : DistributeMode) (weights : Nat) : Nat → List Sized → List Sized × Nat
  | remaining, [] => ([], remaining)
  | remaining, item :: rest =>
    if 0 < remaining ∧ mode.isCandidate item = true then
      let taken := delta mode weights remaining item
      let later := distributeRound mode weights (remaining - taken) rest
      ((item.1, mode.resize item.2 taken) :: later.1, later.2)
    else
      let later := distributeRound mode weights remaining rest
      (item :: later.1, later.2)

/-- The loop of `distribute`, which returns after a round that distributes nothing. -/
def distribute (mode : DistributeMode) (remaining : Nat) (items : List Sized) : List Sized :=
  if remaining = 0 ∨ candidates mode items = [] then items
  else
    let round := distributeRound mode (totalWeight mode items) remaining items
    if _distributed : round.2 < remaining then distribute mode round.2 round.1 else round.1
termination_by remaining
decreasing_by assumption

def initialSizes (entries : List StackLayoutEntry) (intrinsicSizes : List ℚ) : List Nat :=
  entries.mapIdx fun index entry =>
    clampSize (entry.basis.getD (intrinsicSizes.getD index 0)) entry

def gaps (entries : List StackLayoutEntry) (gap : Nat) : Nat := (entries.length - 1) * gap

def allocateStackSizes (entries : List StackLayoutEntry) (intrinsicSizes : List ℚ)
    (availableSize : Option ℚ) (gap : Nat) : List Nat :=
  let sizes := initialSizes entries intrinsicSizes
  match availableSize with
  | none => sizes
  | some availableSize =>
    let contentSize := (⌊availableSize⌋ - gaps entries gap).toNat
    let total := sizes.sum
    let items := entries.zip sizes
    if total < contentSize then
      (distribute .grow (contentSize - total) items).map Prod.snd
    else if contentSize < total then
      (distribute .shrink (total - contentSize) items).map Prod.snd
    else sizes

def Sized.Within (item : Sized) : Prop := item.1.least ≤ item.2 ∧ item.2 ≤ item.1.most

def totalSize (items : List Sized) : Nat := (items.map Prod.snd).sum

/-- What a distribution that leaves `left` of `remaining` has made of the sizes. -/
structure Distributes (mode : DistributeMode) (items after : List Sized) (remaining left : Nat) :
    Prop where
  entries : after.map Prod.fst = items.map Prod.fst
  within : ∀ item ∈ after, item.Within
  le : left ≤ remaining
  grown : mode = .grow → totalSize after + left = totalSize items + remaining
  shrunk : mode = .shrink → totalSize after + remaining = totalSize items + left

section

variable {mode : DistributeMode} {items after last : List Sized} {remaining left rest : Nat}
  {item : Sized}

theorem Distributes.refl (within : ∀ item ∈ items, item.Within) :
    Distributes mode items items remaining remaining :=
  ⟨rfl, within, Nat.le_refl _, fun _ => rfl, fun _ => rfl⟩

theorem Distributes.trans (first : Distributes mode items after remaining left)
    (second : Distributes mode after last left rest) :
    Distributes mode items last remaining rest where
  entries := second.entries.trans first.entries
  within := second.within
  le := Nat.le_trans second.le first.le
  grown is := by
    have one := first.grown is
    have two := second.grown is
    omega
  shrunk is := by
    have one := first.shrunk is
    have two := second.shrunk is
    omega

theorem Distributes.cons (within : item.Within) {delta : Nat} (room : delta ≤ mode.capacity item)
    (some : delta ≤ remaining) (later : Distributes mode items after (remaining - delta) left) :
    Distributes mode (item :: items) ((item.1, mode.resize item.2 delta) :: after)
      remaining left := by
  obtain ⟨e, size⟩ := item
  obtain ⟨atLeast, atMost⟩ := within
  have bound := later.le
  refine ⟨congrArg (e :: ·) later.entries, ?_, by omega, fun is => ?_, fun is => ?_⟩
  · refine forall_mem_cons.mpr ⟨?_, later.within⟩
    cases mode <;> simp only [DistributeMode.capacity] at room <;>
      simp only [Sized.Within, DistributeMode.resize] at atLeast atMost ⊢ <;> omega
  · subst is
    have grown := later.grown rfl
    simp only [totalSize, map_cons, sum_cons, DistributeMode.resize] at grown ⊢
    omega
  · subst is
    have shrunk := later.shrunk rfl
    simp only [DistributeMode.capacity] at room
    simp only [totalSize, map_cons, sum_cons, DistributeMode.resize] at shrunk ⊢
    omega

theorem distributeRound_spec (mode : DistributeMode) (weights remaining : Nat)
    (within : ∀ item ∈ items, item.Within) :
    Distributes mode items (distributeRound mode weights remaining items).1 remaining
      (distributeRound mode weights remaining items).2 := by
  induction items generalizing remaining with
  | nil => exact .refl within
  | cons item items ih =>
    obtain ⟨first, others⟩ := forall_mem_cons.mp within
    rw [distributeRound]
    split
    · exact .cons first (Nat.le_trans (Nat.min_le_right _ _) (Nat.min_le_right _ _))
        (Nat.min_le_left _ _) (ih _ others)
    · have kept := Distributes.cons first (Nat.zero_le _) (Nat.zero_le remaining) (ih _ others)
      have same : mode.resize item.2 0 = item.2 := by cases mode <;> rfl
      rwa [same] at kept

theorem delta_pos (weights : Nat) (some : 0 < remaining)
    (candidate : mode.isCandidate item = true) : 0 < delta mode weights remaining item := by
  have room : 0 < mode.capacity item := by
    obtain ⟨e, size⟩ := item
    cases mode <;>
      simp only [DistributeMode.isCandidate, DistributeMode.capacity, Bool.and_eq_true,
        decide_eq_true_eq] at candidate ⊢ <;> omega
  exact Nat.lt_min.mpr ⟨some, Nat.lt_min.mpr ⟨Nat.le_max_left _ _, room⟩⟩

theorem distributeRound_lt (weights : Nat) (within : ∀ item ∈ items, item.Within)
    (some : 0 < remaining) (takers : candidates mode items ≠ []) :
    (distributeRound mode weights remaining items).2 < remaining := by
  induction items with
  | nil => exact absurd rfl takers
  | cons item items ih =>
    obtain ⟨-, others⟩ := forall_mem_cons.mp within
    rw [distributeRound]
    by_cases candidate : mode.isCandidate item = true
    · rw [if_pos ⟨some, candidate⟩]
      exact Nat.lt_of_le_of_lt (distributeRound_spec mode weights _ others).le
        (Nat.sub_lt some (delta_pos weights some candidate))
    · rw [if_neg fun both => candidate both.2]
      rw [candidates, filter_cons_of_neg candidate] at takers
      exact ih others takers

/-- The loop ends when nothing is left or no entry can take any more. -/
theorem distribute_spec (mode : DistributeMode) (remaining : Nat)
    (within : ∀ item ∈ items, item.Within) :
    ∃ left, Distributes mode items (distribute mode remaining items) remaining left ∧
      (left = 0 ∨ candidates mode (distribute mode remaining items) = []) := by
  induction remaining using Nat.strong_induction_on generalizing items with
  | h remaining ih =>
    rw [distribute]
    split
    · rename_i ended
      exact ⟨remaining, .refl within, ended⟩
    · rename_i going
      obtain ⟨some, takers⟩ := not_or.mp going
      have less := distributeRound_lt (totalWeight mode items) within (Nat.pos_of_ne_zero some)
        takers
      have round := distributeRound_spec mode (totalWeight mode items) remaining within
      rw [dif_pos less]
      obtain ⟨left, later, ended⟩ := ih _ less round.within
      exact ⟨left, round.trans later, ended⟩

end

/-- The sizes fill the target, or fall short of it with every entry that grows at its maximum, or
exceed it with every entry that shrinks at its minimum. -/
def Settled (items : List Sized) (target : ℤ) : Prop :=
  (totalSize items : ℤ) = target ∨
  ((totalSize items : ℤ) < target ∧
    ∀ item ∈ items, 0 < item.1.growing → item.2 = item.1.most) ∨
  (target < totalSize items ∧ ∀ item ∈ items, 0 < item.1.shrinking → item.2 = item.1.least)

section

variable {items after : List Sized} {left : Nat} {target : ℤ}

theorem settled_empty (within : ∀ item ∈ items, item.Within) (empty : totalSize items = 0)
    (short : target ≤ 0) : Settled items target := by
  rcases Int.lt_or_eq_of_le short with less | rfl
  · refine .inr (.inr ⟨by omega, fun item inside _ => ?_⟩)
    have none : item.2 = 0 :=
      List.sum_eq_zero_iff_forall_eq_nat.mp empty item.2 (List.mem_map_of_mem inside)
    have least := (within item inside).1
    omega
  · exact .inl (by omega)

theorem settled_grown (grows : totalSize items < target.toNat)
    (shared : Distributes .grow items after (target.toNat - totalSize items) left)
    (ended : left = 0 ∨ candidates .grow after = []) : Settled after target := by
  have sum := shared.grown rfl
  rcases Nat.eq_zero_or_pos left with none | some
  · exact .inl (by omega)
  · refine .inr (.inl ⟨by omega, fun item inside growing => ?_⟩)
    have full := filter_eq_nil_iff.mp (ended.resolve_left (by omega)) item inside
    have most := (shared.within item inside).2
    simp only [DistributeMode.isCandidate, Bool.and_eq_true, decide_eq_true_eq] at full
    omega

theorem settled_shrunk (shrinks : target.toNat < totalSize items)
    (shared : Distributes .shrink items after (totalSize items - target.toNat) left)
    (ended : left = 0 ∨ candidates .shrink after = []) : Settled after target := by
  have sum := shared.shrunk rfl
  rcases Nat.eq_zero_or_pos left with none | some
  · rcases lt_or_ge (0 : ℤ) target with positive | negative
    · exact .inl (by omega)
    · exact settled_empty shared.within (by omega) negative
  · refine .inr (.inr ⟨by omega, fun item inside shrinking => ?_⟩)
    have full := filter_eq_nil_iff.mp (ended.resolve_left (by omega)) item inside
    have least := (shared.within item inside).1
    simp only [DistributeMode.isCandidate, Bool.and_eq_true, decide_eq_true_eq] at full
    omega

end

section

variable {entries : List StackLayoutEntry} (intrinsicSizes : List ℚ)

theorem clampSize_within {e : StackLayoutEntry} (ordered : e.least ≤ e.most)
    (size : ℚ) : Sized.Within (e, clampSize size e) := by
  have most : Nat.max e.least e.most = e.most := Nat.max_eq_right ordered
  simp only [Sized.Within, clampSize, most]
  exact ⟨Nat.le_max_left _ _, Nat.max_le.mpr ⟨ordered, Nat.min_le_left _ _⟩⟩

theorem initialSizes_within (ordered : ∀ e ∈ entries, e.least ≤ e.most) :
    ∀ item ∈ entries.zip (initialSizes entries intrinsicSizes), Sized.Within item := by
  intro item inside
  obtain ⟨i, bound, rfl⟩ := mem_iff_getElem.mp inside
  simp only [getElem_zip, initialSizes, getElem_mapIdx]
  exact clampSize_within (ordered _ (getElem_mem _)) _

theorem totalSize_initial :
    totalSize (entries.zip (initialSizes entries intrinsicSizes)) =
      (initialSizes entries intrinsicSizes).sum := by
  rw [totalSize, map_snd_zip (by simp [initialSizes])]

theorem allocateStackSizes_spec (ordered : ∀ e ∈ entries, e.least ≤ e.most)
    (availableSize : Option ℚ) (gap : Nat) :
    ∃ items : List Sized, items.map Prod.fst = entries ∧
      items.map Prod.snd = allocateStackSizes entries intrinsicSizes availableSize gap ∧
      (∀ item ∈ items, item.Within) ∧
      ∀ available ∈ availableSize, Settled items (⌊available⌋ - gaps entries gap) := by
  have within := initialSizes_within intrinsicSizes ordered
  have firsts : (entries.zip (initialSizes entries intrinsicSizes)).map Prod.fst = entries :=
    map_fst_zip (by simp [initialSizes])
  have sizes : (entries.zip (initialSizes entries intrinsicSizes)).map Prod.snd =
      initialSizes entries intrinsicSizes := map_snd_zip (by simp [initialSizes])
  have total := @totalSize_initial entries intrinsicSizes
  cases availableSize with
  | none => exact ⟨_, firsts, sizes, within, by simp⟩
  | some available =>
    simp only [allocateStackSizes, Option.mem_some_iff, forall_eq']
    rw [← total]
    split_ifs with grows shrinks
    · obtain ⟨left, shared, ended⟩ := distribute_spec .grow
        ((⌊available⌋ - gaps entries gap).toNat - totalSize _) within
      exact ⟨_, shared.entries.trans firsts, rfl, shared.within, settled_grown grows shared ended⟩
    · obtain ⟨left, shared, ended⟩ := distribute_spec .shrink
        (totalSize _ - (⌊available⌋ - gaps entries gap).toNat) within
      exact ⟨_, shared.entries.trans firsts, rfl, shared.within,
        settled_shrunk shrinks shared ended⟩
    · refine ⟨_, firsts, sizes, within, ?_⟩
      rcases lt_or_ge (0 : ℤ) (⌊available⌋ - gaps entries gap) with positive | negative
      · exact .inl (by omega)
      · exact settled_empty within (by omega) negative

end

/-- Two entries share five columns and a gap, and one of them reaches its maximum. -/
def sampleEntries : List StackLayoutEntry :=
  [{ basis := none, grow := some 1, shrink := none, minSize := none, maxSize := some 2 },
    { basis := some 1, grow := some 2, shrink := none, minSize := some 1, maxSize := none }]

end Trpi.Tui
