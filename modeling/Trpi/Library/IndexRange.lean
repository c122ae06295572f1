import Mathlib.Algebra.Ring.Nat
import Mathlib.Data.List.Basic

/-!
# Indices and places of a list

The indices a loop visits, and what a loop over them collects from a list. What holds of each
member of a list, given what the members before it lead to and the members after it.
-/

namespace Trpi.Library

open List

variable {α β : Type}

/-- The indices of a range, from the first on. -/
def indexRange (startIndex endIndex : Nat) : List Nat :=
  List.range' startIndex (endIndex - startIndex)

variable {startIndex endIndex : Nat}

theorem mem_indexRange {i : Nat} :
    i ∈ indexRange startIndex endIndex ↔ startIndex ≤ i ∧ i < endIndex := by
  rw [indexRange, mem_range'_1]
  omega

theorem indexRange_cons (below : startIndex < endIndex) :
    indexRange startIndex endIndex = startIndex :: indexRange (startIndex + 1) endIndex := by
  obtain ⟨n, rfl⟩ := Nat.exists_eq_add_of_lt below
  rw [indexRange, indexRange, show startIndex + n + 1 - startIndex = n + 1 by omega,
    show startIndex + n + 1 - (startIndex + 1) = n by omega, range'_succ]

theorem indexRange_empty (reached : endIndex ≤ startIndex) :
    indexRange startIndex endIndex = [] := by
  rw [indexRange, Nat.sub_eq_zero_of_le reached, range'_zero]

theorem indexRange_append {first second third : Nat} (low : first ≤ second)
    (high : second ≤ third) :
    indexRange first second ++ indexRange second third = indexRange first third := by
  obtain ⟨m, rfl⟩ := Nat.exists_eq_add_of_le low
  obtain ⟨n, rfl⟩ := Nat.exists_eq_add_of_le high
  rw [indexRange, indexRange, indexRange, show first + m - first = m by omega,
    show first + m + n - (first + m) = n by omega, show first + m + n - first = m + n by omega,
    ← range'_append_1]

theorem indexRange_sorted (startIndex endIndex : Nat) :
    (indexRange startIndex endIndex).Pairwise (· < ·) :=
  pairwise_lt_range'

theorem filterMap_indexRange {f : α → Option β} (entries : List α)
    (within : startIndex ≤ entries.length) :
    (indexRange startIndex entries.length).filterMap (fun i => entries[i]?.bind f) =
      (entries.drop startIndex).filterMap f := by
  induction size : entries.length - startIndex generalizing startIndex with
  | zero =>
    obtain rfl : startIndex = entries.length := by omega
    rw [indexRange_empty (Nat.le_refl _), drop_length]
    rfl
  | succ n ih =>
    have below : startIndex < entries.length := by omega
    rw [indexRange_cons below, drop_eq_getElem_cons below, filterMap_cons,
      filterMap_cons, getElem?_eq_getElem below, ih (by omega) (by omega)]
    rfl

variable {σ : Type}

/-- `P` holds at every place; `next` follows the members before it. -/
def EachPlace (next : σ → α → σ) (P : σ → α → List α → Prop) : σ → List α → Prop
  | _, [] => True
  | s, member :: after => P s member after ∧ EachPlace next P (next s member) after

variable {next : σ → α → σ} {P : σ → α → List α → Prop}

theorem eachPlace_iff {s : σ} {members : List α} :
    EachPlace next P s members ↔
      ∀ before mem after, members = before ++ mem :: after → P (before.foldl next s) mem after := by
  induction members generalizing s with
  | nil =>
    refine ⟨fun _ before mem after split => ?_, fun _ => trivial⟩
    exact absurd split.symm (by simp)
  | cons first rest ih =>
    rw [EachPlace, ih]
    constructor
    · rintro ⟨here, later⟩ before mem after split
      rcases List.cons_eq_append_iff.mp split with ⟨rfl, same⟩ | ⟨front, rfl, inner⟩
      · cases same
        exact here
      · exact later front mem after inner
    · intro each
      refine ⟨each [] first rest rfl, fun before mem after split => ?_⟩
      exact each (first :: before) mem after (by rw [split]; rfl)

end Trpi.Library
