import Mathlib.Data.List.Basic

/-!
# Machines driven by events

A machine takes an event or refuses it. A state is reached by a run of events
each of which is allowed in the state before it; an inductive property holds in
every such state. Finite runs can be computed, which gives reached states.
-/

namespace Trpi.Library

variable {σ ε : Type}

structure Machine (σ ε : Type) where
  start : σ → Prop
  step : σ → ε → Option σ

namespace Machine

/-- Reached by a run whose steps are all allowed. -/
inductive Reached (machine : Machine σ ε) (allowed : σ → ε → Prop) : σ → Prop where
  | start {state : σ} (initial : machine.start state) : Reached machine allowed state
  | step {state next : σ} {event : ε} (reached : Reached machine allowed state)
      (ok : allowed state event) (taken : machine.step state event = some next) :
      Reached machine allowed next

/-- It holds at the start, and every allowed step keeps it. -/
structure Inductive (machine : Machine σ ε) (allowed : σ → ε → Prop) (P : σ → Prop) : Prop where
  start : ∀ state, machine.start state → P state
  step : ∀ state event next, P state → allowed state event →
    machine.step state event = some next → P next

variable {machine : Machine σ ε} {allowed : σ → ε → Prop} {state : σ}

theorem Inductive.reached {P : σ → Prop} (inductive_ : Inductive machine allowed P)
    (reached : Reached machine allowed state) : P state := by
  induction reached with
  | start initial => exact inductive_.start _ initial
  | step _ ok taken ih => exact inductive_.step _ _ _ ih ok taken

theorem Inductive.and {P Q : σ → Prop} (first : Inductive machine allowed P)
    (second : Inductive machine allowed Q) :
    Inductive machine allowed fun state => P state ∧ Q state where
  start state initial := ⟨first.start state initial, second.start state initial⟩
  step state ev next holds ok taken :=
    ⟨first.step state ev next holds.1 ok taken, second.step state ev next holds.2 ok taken⟩

theorem Reached.mono {strict loose : σ → ε → Prop}
    (weaker : ∀ state ev, strict state ev → loose state ev)
    (reached : Reached machine strict state) : Reached machine loose state := by
  induction reached with
  | start initial => exact .start initial
  | step _ ok taken ih => exact .step ih (weaker _ _ ok) taken

/-- Run the events, each only where it is allowed. -/
def exec (machine : Machine σ ε) (allowed : σ → ε → Prop) [∀ s e, Decidable (allowed s e)] :
    σ → List ε → Option σ
  | state, [] => some state
  | state, event :: events =>
    if allowed state event then
      match machine.step state event with
      | some next => exec machine allowed next events
      | none => none
    else none

theorem Reached.exec [∀ s e, Decidable (allowed s e)] {events : List ε} {last : σ}
    (reached : Reached machine allowed state)
    (ran : Machine.exec machine allowed state events = some last) :
    Reached machine allowed last := by
  induction events generalizing state with
  | nil =>
    cases ran
    exact reached
  | cons ev events ih =>
    rw [Machine.exec] at ran
    split at ran
    · rename_i ok
      split at ran
      · rename_i next taken
        exact ih (.step reached ok taken) ran
      · cases ran
    · cases ran

end Machine

end Trpi.Library
