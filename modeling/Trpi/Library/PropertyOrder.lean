import Mathlib.Algebra.Ring.Nat
import Trpi.Library.Utf16

/-!
# The order of own properties

An object lists the properties that are array indices first, ascending, and the others in the
order they were defined.
-/

namespace Trpi.Library

open List
open Utf16 (Units)

variable {α β : Type}

def digit (unit : UInt16) : Option Nat :=
  if 48 ≤ unit.toNat ∧ unit.toNat ≤ 57 then some (unit.toNat - 48) else none

/-- The number written by decimal digits. -/
def digitsValue : Units → Nat → Option Nat
  | [], value => some value
  | unit :: units, value => (digit unit).bind fun d => digitsValue units (value * 10 + d)

/-- The array index that a property key is, written without leading zeros. -/
def arrayIndex (key : Units) : Option Nat :=
  match key with
  | [] => none
  | first :: rest =>
    if digit first = some 0 ∧ rest ≠ [] then none
    else (digitsValue key 0).filter fun index => index < 2 ^ 32 - 1

def indexBefore (one other : Units × α) : Bool :=
  decide ((arrayIndex one.1).getD 0 ≤ (arrayIndex other.1).getD 0)

/-- Properties in the order of `Object.keys`, from the order they were defined in. -/
def ownPropertyOrder (entries : List (Units × α)) : List (Units × α) :=
  (entries.filter fun entry => (arrayIndex entry.1).isSome).mergeSort indexBefore ++
    entries.filter fun entry => !(arrayIndex entry.1).isSome

theorem ownPropertyOrder_perm (entries : List (Units × α)) :
    (ownPropertyOrder entries).Perm entries :=
  ((mergeSort_perm _ _).append_right _).trans (filter_append_perm _ entries)

theorem ownPropertyOrder_map (f : α → β) (entries : List (Units × α)) :
    ownPropertyOrder (entries.map fun e => (e.1, f e.2)) =
      (ownPropertyOrder entries).map fun e => (e.1, f e.2) := by
  rw [ownPropertyOrder, ownPropertyOrder, map_append, filter_map, filter_map, map_mergeSort]
  · rfl
  · intro _ _ _ _
    rfl

theorem filter_of_all {p : α → Bool} {entries : List α} (all : ∀ e ∈ entries, p e = true) :
    entries.filter p = entries ∧ entries.filter (fun e => !p e) = [] := by
  refine ⟨filter_eq_self.mpr all, filter_eq_nil_iff.mpr ?_⟩
  intro e mem
  rw [all e mem]
  exact Bool.false_ne_true

theorem ownPropertyOrder_idem (entries : List (Units × α)) :
    ownPropertyOrder (ownPropertyOrder entries) = ownPropertyOrder entries := by
  have indices : ∀ e ∈ (entries.filter fun e => (arrayIndex e.1).isSome).mergeSort
      indexBefore, (arrayIndex e.1).isSome = true := by
    intro e mem
    exact (mem_filter.mp ((mergeSort_perm _ _).subset mem)).2
  have others : ∀ e ∈ entries.filter fun e => !(arrayIndex e.1).isSome,
      (!(arrayIndex e.1).isSome) = true := fun e mem => (mem_filter.mp mem).2
  have sorted : ((entries.filter fun e => (arrayIndex e.1).isSome).mergeSort
      indexBefore).Pairwise (indexBefore · ·) := by
    refine pairwise_mergeSort ?_ ?_ _
    · intro one two three before after
      exact decide_eq_true (Nat.le_trans (of_decide_eq_true before) (of_decide_eq_true after))
    · intro one other
      rw [indexBefore, indexBefore, Bool.or_eq_true, decide_eq_true_eq, decide_eq_true_eq]
      exact Nat.le_total _ _
  have kept := filter_of_all indices
  have dropped := filter_of_all others
  rw [ownPropertyOrder, ownPropertyOrder, filter_append, filter_append, kept.1, kept.2,
    dropped.1, nil_append]
  have none : (entries.filter fun e => !(arrayIndex e.1).isSome).filter
      (fun e => (arrayIndex e.1).isSome) = [] := by
    have absent := dropped.2
    simp only [Bool.not_not] at absent
    exact absent
  rw [none, append_nil, mergeSort_of_pairwise sorted]

end Trpi.Library
