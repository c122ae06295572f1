import Mathlib.Data.List.Nodup
import Mathlib.Data.List.Sort

/-!
# Rows read in an order

A table is a list of rows in no particular order. A query that orders by a key whose values
are distinct reads the one list that is sorted by it.
-/

namespace Trpi.Library

open List

variable {α : Type}

/-- `ORDER BY key ASC`. -/
def orderedBy (key : α → Nat) (rows : List α) : List α :=
  rows.insertionSort fun left right => key left ≤ key right

theorem pairwise_orderedBy (key : α → Nat) (rows : List α) :
    (orderedBy key rows).Pairwise fun left right => key left ≤ key right := by
  have total : Std.Total fun left right : α => key left ≤ key right :=
    ⟨fun left right => Nat.le_total _ _⟩
  have trans : IsTrans α fun left right => key left ≤ key right :=
    ⟨fun first second third => Nat.le_trans⟩
  exact pairwise_insertionSort _ rows

variable {key : α → Nat} {rows : List α}

theorem key_inj_of_pairwise (sorted : rows.Pairwise fun left right => key left < key right) :
    ∀ left ∈ rows, ∀ right ∈ rows, key left = key right → left = right := by
  induction rows with
  | nil => exact fun _ inside => nomatch inside
  | cons row rest ih =>
    obtain ⟨first, later⟩ := pairwise_cons.mp sorted
    intro left inLeft right inRight same
    rcases mem_cons.mp inLeft with rfl | leftLater <;>
      rcases mem_cons.mp inRight with rfl | rightLater
    · rfl
    · have less := first right rightLater
      omega
    · have less := first left leftLater
      omega
    · exact ih later left leftLater right rightLater same

theorem orderedBy_eq {target : List α} (nodup : rows.Nodup)
    (sorted : target.Pairwise fun left right => key left < key right)
    (same : ∀ row, row ∈ rows ↔ row ∈ target) : orderedBy key rows = target := by
  have unique : target.Nodup := sorted.imp fun less same => by rw [same] at less; omega
  have perm : (orderedBy key rows).Perm target :=
    (perm_insertionSort _ _).trans ((perm_ext_iff_of_nodup nodup unique).mpr same)
  refine perm.eq_of_pairwise ?_ (pairwise_orderedBy key rows)
    (sorted.imp fun less => Nat.le_of_lt less)
  intro left right first second le ge
  exact key_inj_of_pairwise sorted left (perm.mem_iff.mp first) right second (Nat.le_antisymm le ge)

theorem filter_le_append (sorted : rows.Pairwise fun left right => key left < key right)
    {lower upper : Nat} (le : lower ≤ upper) :
    rows.filter (fun row => key row ≤ lower) ++
        rows.filter (fun row => lower < key row ∧ key row ≤ upper) =
      rows.filter fun row => key row ≤ upper := by
  induction rows with
  | nil => rfl
  | cons row rest ih =>
    obtain ⟨first, later⟩ := pairwise_cons.mp sorted
    have tail := ih later
    by_cases low : key row ≤ lower
    · have inside : key row ≤ upper := low.trans le
      have outside : ¬(lower < key row ∧ key row ≤ upper) := by omega
      rw [filter_cons_of_pos (by simpa using low), filter_cons_of_neg (by simpa using outside),
        filter_cons_of_pos (by simpa using inside), cons_append, tail]
    · have none : rest.filter (fun row => decide (key row ≤ lower)) = [] := by
        refine filter_eq_nil_iff.mpr fun other mem => ?_
        have less := first other mem
        rw [decide_eq_true_eq]
        omega
      rw [none, nil_append] at tail
      rw [filter_cons_of_neg (by simpa using low), none, nil_append, filter_cons, filter_cons, tail]
      simp only [Nat.lt_of_not_le low, true_and]

end Trpi.Library
