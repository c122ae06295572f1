import Mathlib.Data.Set.Finite.Basic
import Mathlib.Order.WellFounded
import Mathlib.Data.Fintype.Card
import Mathlib.Order.RelClasses

/-!
# Cycles of relations

A relation in which every member of a finite set is related to a member of it has a cycle, and a
relation that a rank follows has none.
-/

namespace Trpi.Library

open Relation

variable {α : Type} {r : α → α → Prop}

theorem exists_cycle {s : Set α} (finite : s.Finite) (inhabited : s.Nonempty)
    (next : ∀ a ∈ s, ∃ b ∈ s, r a b) : ∃ a, TransGen r a a := by
  by_contra acyclic
  have : Finite s := finite
  let below : s → s → Prop := fun b a => TransGen r a.1 b.1
  have : IsTrans s below := ⟨fun _ _ _ second first => first.trans second⟩
  have : Std.Irrefl below := ⟨fun a cycle => acyclic ⟨a.1, cycle⟩⟩
  have founded : WellFounded below := Finite.wellFounded_of_trans_of_irrefl below
  obtain ⟨start, inside⟩ := inhabited
  obtain ⟨last, -, least⟩ := founded.has_min Set.univ ⟨⟨start, inside⟩, trivial⟩
  obtain ⟨b, inside, related⟩ := next last.1 last.2
  exact least ⟨b, inside⟩ trivial (.single related)

theorem wellFounded_of_acyclic {s : Set α} (finite : s.Finite) (inside : ∀ a b, r a b → a ∈ s)
    (acyclic : ∀ a, ¬ TransGen r a a) : WellFounded (flip r) := by
  refine ⟨fun start => Classical.byContradiction fun bad => ?_⟩
  have next : ∀ a ∈ {a | ¬ Acc (flip r) a}, ∃ b ∈ {a | ¬ Acc (flip r) a}, r a b := by
    intro a bad
    apply Classical.byContradiction
    intro none_
    refine bad ⟨a, fun b related => Classical.byContradiction fun worse => ?_⟩
    exact none_ ⟨b, worse, related⟩
  have enclosed : {a | ¬ Acc (flip r) a} ⊆ s := by
    intro a bad
    obtain ⟨b, -, related⟩ := next a bad
    exact inside a b related
  obtain ⟨a, cycle⟩ := exists_cycle (finite.subset enclosed) ⟨start, bad⟩ next
  exact acyclic a cycle

/-- Along a relation that a rank follows nothing comes back to where it started. -/
theorem acyclic_of_rank (rank : α → Nat) (falls : ∀ a b, r a b → rank b < rank a) (a : α) :
    ¬ TransGen r a a := by
  intro cycle
  have lower : ∀ b, TransGen r a b → rank b < rank a := by
    intro b path
    induction path with
    | single related => exact falls _ _ related
    | tail _ related ih => exact (falls _ _ related).trans ih
  exact Nat.lt_irrefl _ (lower a cycle)

end Trpi.Library
