import Mathlib.Data.List.Nodup
import Mathlib.Data.List.Basic

/-!
# Insertion-ordered finite maps

A map that remembers the order in which its keys were first bound: rebinding a
key keeps its position, deleting and binding it again moves it to the end. The
order is part of the value, so two maps are equal exactly when they list the
same bindings in the same order.
-/

namespace Trpi.Library

open List

/-- Bindings in insertion order; no key is bound twice. -/
structure InsertionMap (K α : Type) where
  toList : List (K × α)
  nodup : (toList.map Prod.fst).Nodup

namespace InsertionMap

variable {K α : Type}

@[ext] theorem ext {m n : InsertionMap K α} (same : m.toList = n.toList) : m = n := by
  cases m
  cases n
  simp_all

def empty : InsertionMap K α := ⟨[], List.nodup_nil⟩

def keys (m : InsertionMap K α) : List K := m.toList.map Prod.fst

def values (m : InsertionMap K α) : List α := m.toList.map Prod.snd

@[simp] theorem toList_empty : (empty : InsertionMap K α).toList = [] := rfl

@[simp] theorem values_empty : (empty : InsertionMap K α).values = [] := rfl

@[simp] theorem keys_empty : (empty : InsertionMap K α).keys = [] := rfl

variable [DecidableEq K]

/-- Rebind `key` in place, or add the binding at the end. -/
def setList (key : K) (value : α) : List (K × α) → List (K × α)
  | [] => [(key, value)]
  | (k, v) :: rest =>
    if k = key then (key, value) :: rest else (k, v) :: setList key value rest

theorem map_fst_setList (key : K) (value : α) (bindings : List (K × α)) :
    (setList key value bindings).map Prod.fst =
      if key ∈ bindings.map Prod.fst then bindings.map Prod.fst
      else bindings.map Prod.fst ++ [key] := by
  induction bindings with
  | nil => simp [setList]
  | cons head tail ih =>
    obtain ⟨k, v⟩ := head
    by_cases same : k = key
    · simp [setList, same]
    · have other : key ≠ k := Ne.symm same
      simp only [setList, if_neg same, map_cons, ih, mem_cons, other, false_or]
      split <;> simp

def get? (m : InsertionMap K α) (key : K) : Option α :=
  (m.toList.find? fun binding => binding.1 = key).map Prod.snd

def contains (m : InsertionMap K α) (key : K) : Bool := (m.get? key).isSome

def set (m : InsertionMap K α) (key : K) (value : α) : InsertionMap K α where
  toList := setList key value m.toList
  nodup := by
    rw [map_fst_setList]
    split
    · exact m.nodup
    · next absent =>
      rw [List.nodup_append]
      refine ⟨m.nodup, List.nodup_singleton key, ?_⟩
      intro k member other single
      rw [List.mem_singleton.mp single]
      rintro rfl
      exact absent member

def erase (m : InsertionMap K α) (key : K) : InsertionMap K α where
  toList := m.toList.filter fun binding => binding.1 ≠ key
  nodup := m.nodup.sublist (List.filter_sublist.map Prod.fst)

def filter (m : InsertionMap K α) (keep : K → α → Bool) : InsertionMap K α where
  toList := m.toList.filter fun binding => keep binding.1 binding.2
  nodup := m.nodup.sublist (List.filter_sublist.map Prod.fst)

@[simp] theorem get?_empty (key : K) : (empty : InsertionMap K α).get? key = none := rfl

theorem find?_setList (key other : K) (value : α) (bindings : List (K × α)) :
    ((setList key value bindings).find? fun binding => binding.1 = other).map Prod.snd =
      if key = other then some value
      else (bindings.find? fun binding => binding.1 = other).map Prod.snd := by
  induction bindings with
  | nil => by_cases same : key = other <;> simp [setList, same]
  | cons head tail ih =>
    obtain ⟨k, v⟩ := head
    by_cases bound : k = key
    · subst bound
      by_cases same : k = other <;> simp [setList, same]
    · by_cases hit : k = other
      · have differs : ¬ key = other := fun same => bound (hit.trans same.symm)
        simp [setList, hit, differs, Ne.symm differs]
      · simp only [setList, if_neg bound, find?_cons, decide_eq_false hit]
        exact ih

section

variable (m : InsertionMap K α)

theorem get?_set (key other : K) (v : α) :
    (m.set key v).get? other = if key = other then some v else m.get? other :=
  find?_setList key other v m.toList

@[simp] theorem get?_set_self (key : K) (v : α) : (m.set key v).get? key = some v := by
  simp [get?_set]

theorem get?_set_of_ne {key other : K} (v : α) (differs : key ≠ other) :
    (m.set key v).get? other = m.get? other := by
  simp [get?_set, differs]

theorem get?_erase (key other : K) :
    (m.erase key).get? other = if key = other then none else m.get? other := by
  simp only [get?, erase, find?_filter]
  by_cases same : key = other
  · subst same
    simp [Option.map_eq_none_iff, find?_eq_none]
  · rw [if_neg same]
    congr 2
    funext binding
    by_cases hit : binding.1 = other
    · simp [hit, Ne.symm same]
    · simp [hit]

@[simp] theorem get?_erase_self (key : K) : (m.erase key).get? key = none := by
  simp [get?_erase]

theorem get?_erase_of_ne {key other : K} (differs : key ≠ other) :
    (m.erase key).get? other = m.get? other := by
  simp [get?_erase, differs]

theorem get?_eq_some_iff (key : K) (value : α) :
    m.get? key = some value ↔ (key, value) ∈ m.toList := by
  obtain ⟨bindings, nodup⟩ := m
  simp only [get?]
  induction bindings with
  | nil => simp
  | cons head tail ih =>
    obtain ⟨k, v⟩ := head
    obtain ⟨fresh, rest⟩ := nodup_cons.mp nodup
    by_cases same : k = key
    · subst same
      have absent : (k, value) ∉ tail := fun mem =>
        fresh (mem_map.mpr ⟨(k, value), mem, rfl⟩)
      simp [absent, eq_comm]
    · have differs : ¬ key = k := Ne.symm same
      simp only [find?_cons, decide_eq_false same, mem_cons, Prod.mk.injEq, differs,
        false_and, false_or]
      exact ih rest

theorem get?_eq_none_iff (key : K) : m.get? key = none ↔ key ∉ m.keys := by
  simp only [get?, keys, Option.map_eq_none_iff, find?_eq_none, decide_eq_true_eq,
    mem_map, not_exists, not_and]

theorem contains_iff (key : K) : m.contains key = true ↔ key ∈ m.keys := by
  rw [contains, Option.isSome_iff_ne_none, ne_eq, get?_eq_none_iff, not_not]

theorem contains_set (key other : K) (v : α) :
    (m.set key v).contains other = (m.contains other || decide (other = key)) := by
  by_cases same : key = other
  · simp [contains, same]
  · simp [contains, get?_set, same, Ne.symm same]

theorem mem_values_iff (v : α) : v ∈ m.values ↔ ∃ key, m.get? key = some v := by
  simp only [values, mem_map, get?_eq_some_iff]
  constructor
  · rintro ⟨⟨key, bound⟩, mem, rfl⟩
    exact ⟨key, mem⟩
  · rintro ⟨key, mem⟩
    exact ⟨(key, v), mem, rfl⟩

theorem map_values_eq_keys (keyOf : α → K)
    (keyed : ∀ key v, m.get? key = some v → keyOf v = key) : m.values.map keyOf = m.keys := by
  rw [values, keys, map_map]
  refine map_congr_left fun binding mem => ?_
  exact keyed binding.1 binding.2 ((get?_eq_some_iff m _ _).mpr mem)

theorem find?_values (keyOf : α → K)
    (keyed : ∀ key v, m.get? key = some v → keyOf v = key) (key : K) :
    (m.values.find? fun v => keyOf v = key) = m.get? key := by
  cases found : m.values.find? fun v => keyOf v = key with
  | some v =>
    have matched : keyOf v = key := by simpa using find?_some found
    obtain ⟨other, bound⟩ := (mem_values_iff m v).mp (mem_of_find?_eq_some found)
    rw [← matched, keyed other v bound, bound]
  | none =>
    rw [find?_eq_none] at found
    cases bound : m.get? key with
    | none => rfl
    | some v =>
      have mem := (mem_values_iff m v).mpr ⟨key, bound⟩
      exact absurd (decide_eq_true (keyed key v bound)) (found v mem)

theorem toList_set_of_fresh (key : K) (value : α)
    (fresh : m.get? key = none) : (m.set key value).toList = m.toList ++ [(key, value)] := by
  rw [get?_eq_none_iff] at fresh
  obtain ⟨bindings, nodup⟩ := m
  simp only [keys, set] at fresh ⊢
  induction bindings with
  | nil => rfl
  | cons head tail ih =>
    obtain ⟨k, v⟩ := head
    simp only [map_cons, mem_cons, not_or] at fresh
    have differs : ¬ k = key := fun same => fresh.1 same.symm
    simp only [setList, if_neg differs, cons_append]
    rw [ih (nodup_cons.mp nodup).2 fresh.2]

theorem values_set_of_fresh (key : K) (v : α)
    (fresh : m.get? key = none) : (m.set key v).values = m.values ++ [v] := by
  simp [values, toList_set_of_fresh m key v fresh]

end

/-- Same lookups, whatever the order of insertion. -/
def Agree (m n : InsertionMap K α) : Prop := ∀ key, m.get? key = n.get? key

end InsertionMap

end Trpi.Library
