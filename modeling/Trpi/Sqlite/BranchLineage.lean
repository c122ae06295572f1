import Mathlib.Data.List.Nodup
import Trpi.Session.Types

/-!
# Lineages

The lineage of an entry is the path from its root to itself. Where ids are unique it is the
only one, and where parents are older it is ordered; the lineage of an entry on it is what
it has up to that entry.
-/

namespace Trpi.Sqlite

open List
open Trpi.Session (Entry)

variable {β : Type}

inductive Lineage (entries : List (Entry β)) : Entry β → List (Entry β) → Prop where
  | root {e : Entry β} (stored : e ∈ entries) (noParent : e.parentId = none) :
      Lineage entries e [e]
  | child {e parent : Entry β} {path : List (Entry β)} (stored : e ∈ entries)
      (below : e.parentId = some parent.id) (above : Lineage entries parent path) :
      Lineage entries e (path ++ [e])

/-- Entries with ids of their own, in the order of their sequence numbers, below parents that
are older. -/
structure Stored (entries : List (Entry β)) : Prop where
  unique : (entries.map Entry.id).Nodup
  positive : ∀ e ∈ entries, 0 < e.seq
  ordered : entries.Pairwise fun older newer => older.seq < newer.seq
  older : ∀ e ∈ entries, ∀ parent ∈ entries, e.parentId = some parent.id → parent.seq < e.seq
  lineage : ∀ e ∈ entries, ∃ path, Lineage entries e path

section

variable {entries : List (Entry β)}

theorem eq_of_id (unique : (entries.map Entry.id).Nodup) {e other : Entry β}
    (stored : e ∈ entries) (otherStored : other ∈ entries) (same : e.id = other.id) :
    e = other :=
  inj_on_of_nodup_map unique stored otherStored same

namespace Lineage

variable {e : Entry β} {path : List (Entry β)}

section

variable (lineage : Lineage entries e path)

include lineage

theorem stored : e ∈ entries := by
  cases lineage <;> assumption

theorem mem_stored : ∀ other ∈ path, other ∈ entries := by
  induction lineage with
  | root stored _ => exact fun other mem => mem_singleton.mp mem ▸ stored
  | child stored _ _ ih =>
    rw [forall_mem_append, forall_mem_singleton]
    exact ⟨ih, stored⟩

theorem last : ∃ front, path = front ++ [e] := by
  cases lineage with
  | root => exact ⟨[], rfl⟩
  | child => exact ⟨_, rfl⟩

theorem mem_self : e ∈ path := by
  obtain ⟨front, rfl⟩ := lineage.last
  exact mem_append_right _ (mem_singleton_self _)

theorem mono {more : List (Entry β)}
    (grown : ∀ other ∈ entries, other ∈ more) : Lineage more e path := by
  induction lineage with
  | root stored noParent => exact .root (grown _ stored) noParent
  | child stored below _ ih => exact .child (grown _ stored) below ih

end

theorem eq (unique : (entries.map Entry.id).Nodup) {other : List (Entry β)}
    (lineage : Lineage entries e path) (second : Lineage entries e other) : path = other := by
  induction lineage generalizing other with
  | root _ noParent =>
    cases second with
    | root => rfl
    | child _ below _ =>
      rw [noParent] at below
      cases below
  | child _ below above ih =>
    cases second with
    | root _ noParent =>
      rw [noParent] at below
      cases below
    | child _ otherBelow otherAbove =>
      have same := eq_of_id unique above.stored otherAbove.stored
        (Option.some.inj (below.symm.trans otherBelow))
      subst same
      rw [ih otherAbove]

section

variable (store : Stored entries) (lineage : Lineage entries e path)

include store lineage

/-- A lineage is ordered and ends in the entry. -/
theorem le_seq : ∀ other ∈ path, other.seq ≤ e.seq := by
  induction lineage with
  | root => exact fun other mem => mem_singleton.mp mem ▸ Nat.le_refl _
  | child stored below above ih =>
    have less := store.older _ stored _ above.stored below
    rw [forall_mem_append, forall_mem_singleton]
    refine ⟨fun other mem => ?_, Nat.le_refl _⟩
    have le := ih other mem
    omega

theorem ordered :
    path.Pairwise fun older newer => older.seq < newer.seq := by
  induction lineage with
  | root => exact pairwise_singleton _ _
  | child stored below above ih =>
    have less := store.older _ stored _ above.stored below
    rw [pairwise_append]
    refine ⟨ih, pairwise_singleton _ _, ?_⟩
    intro older mem newer last
    have le := above.le_seq store older mem
    rw [mem_singleton.mp last]
    omega

theorem unique : (path.map Entry.id).Nodup := by
  have nodup : path.Nodup := (lineage.ordered store).imp fun less same => by
    rw [same] at less
    omega
  refine nodup.map_on fun left leftIn right rightIn same => ?_
  exact eq_of_id store.unique (lineage.mem_stored left leftIn) (lineage.mem_stored right rightIn)
    same

theorem upTo {other : Entry β}
    (mem : other ∈ path) :
    Lineage entries other (path.filter fun e => e.seq ≤ other.seq) := by
  induction lineage with
  | root stored noParent =>
    cases mem_singleton.mp mem
    have self : [other].filter (fun e => decide (e.seq ≤ other.seq)) = [other] := by simp
    rw [self]
    exact .root stored noParent
  | child stored below above ih =>
    rename_i e parent path
    have less := store.older _ stored _ above.stored below
    rw [filter_append]
    rcases mem_append.mp mem with inside | last
    · have le := above.le_seq store other inside
      have later : [e].filter (fun e => decide (e.seq ≤ other.seq)) = [] :=
        filter_cons_of_neg (by simp only [decide_eq_true_eq]; omega)
      rw [later, append_nil]
      exact ih inside
    · cases mem_singleton.mp last
      have all : path.filter (fun e => decide (e.seq ≤ other.seq)) = path := by
        refine filter_eq_self.mpr ?_
        intro older inside
        have le := above.le_seq store older inside
        rw [decide_eq_true_eq]
        omega
      have self : [other].filter (fun e => decide (e.seq ≤ other.seq)) = [other] := by
        simp
      rw [all, self]
      exact .child stored below above

end

end Lineage

theorem Stored.insert (store : Stored entries) {e : Entry β}
    (fresh : ∀ other ∈ entries, other.id ≠ e.id) (positive : 0 < e.seq)
    (newer : ∀ other ∈ entries, other.seq < e.seq)
    (parent : ∀ parentId, e.parentId = some parentId → ∃ other ∈ entries, other.id = parentId) :
    Stored (entries ++ [e]) := by
  have grown : ∀ other ∈ entries, other ∈ entries ++ [e] :=
    fun other mem => mem_append_left _ mem
  have stored : e ∈ entries ++ [e] := mem_append_right _ (mem_singleton_self _)
  constructor
  · rw [map_append, nodup_append]
    refine ⟨store.unique, nodup_singleton _, ?_⟩
    intro id mem other last same
    obtain ⟨old, inside, own⟩ := mem_map.mp mem
    rw [map_singleton, mem_singleton] at last
    exact fresh old inside (own.trans (same.trans last))
  · rw [forall_mem_append, forall_mem_singleton]
    exact ⟨store.positive, positive⟩
  · rw [pairwise_append]
    refine ⟨store.ordered, pairwise_singleton _ _, ?_⟩
    intro older mem last same
    rw [mem_singleton.mp same]
    exact newer older mem
  · intro child childIn above aboveIn below
    rcases mem_append.mp childIn with inside | last
    · rcases mem_append.mp aboveIn with aboveInside | aboveLast
      · exact store.older child inside above aboveInside below
      · obtain ⟨path, lineage⟩ := store.lineage child inside
        cases mem_singleton.mp aboveLast
        cases lineage with
        | root _ noParent =>
          rw [noParent] at below
          cases below
        | child _ otherBelow otherAbove =>
          have same := Option.some.inj (otherBelow.symm.trans below)
          exact absurd same (fresh _ otherAbove.stored)
    · cases mem_singleton.mp last
      rcases mem_append.mp aboveIn with aboveInside | aboveLast
      · exact newer above aboveInside
      · cases mem_singleton.mp aboveLast
        obtain ⟨other, inside, own⟩ := parent _ below
        exact absurd own (fresh other inside)
  · rw [forall_mem_append, forall_mem_singleton]
    constructor
    · intro other inside
      obtain ⟨path, lineage⟩ := store.lineage other inside
      exact ⟨path, lineage.mono grown⟩
    · cases below : e.parentId with
      | none => exact ⟨_, .root stored below⟩
      | some parentId =>
        obtain ⟨other, inside, own⟩ := parent parentId below
        obtain ⟨path, lineage⟩ := store.lineage other inside
        exact ⟨_, .child stored (below.trans (congrArg some own.symm)) (lineage.mono grown)⟩

theorem stored_nil : Stored ([] : List (Entry β)) := by
  constructor
  · exact nodup_nil
  · exact forall_mem_nil _
  · exact .nil
  · exact forall_mem_nil _
  · exact forall_mem_nil _

end

end Trpi.Sqlite
