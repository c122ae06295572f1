import Mathlib.Data.List.Basic

/-!
# Runs of fallible steps

A run folds a fallible step over a list of inputs and stops at the first error.
The rules below carry a step property to whole runs.
-/

namespace Trpi.Library

open List

variable {ε σ α : Type}

/-- Run `step` over the inputs, stopping at the first error. -/
def run (step : σ → α → Except ε σ) : σ → List α → Except ε σ
  | state, [] => .ok state
  | state, input :: rest =>
    match step state input with
    | .error reason => .error reason
    | .ok next => run step next rest

theorem ok_bind {β : Type} (v : α) (next : α → Except ε β) :
    ((Except.ok v : Except ε α) >>= next) = next v := rfl

theorem bind_eq_ok {β : Type} {first : Except ε α} {next : α → Except ε β} {result : β}
    (success : (first >>= next) = .ok result) : ∃ v, first = .ok v ∧ next v = .ok result := by
  cases first with
  | error reason => cases success
  | ok v => exact ⟨v, rfl, success⟩

theorem mapError_eq_ok {ε' : Type} {f : ε → ε'} {computation : Except ε α} {v : α}
    (success : computation.mapError f = .ok v) : computation = .ok v := by
  cases computation with
  | error reason => cases success
  | ok result =>
    cases success
    rfl

@[simp] theorem run_nil (step : σ → α → Except ε σ) (state : σ) : run step state [] = .ok state :=
  rfl

variable {step : σ → α → Except ε σ} {state : σ} {input : α} {inputs : List α} {reason : ε}

theorem run_cons_ok {next : σ} (stepped : step state input = .ok next) (rest : List α) :
    run step state (input :: rest) = run step next rest := by
  rw [run, stepped]

theorem run_cons_error (stepped : step state input = .error reason) (rest : List α) :
    run step state (input :: rest) = .error reason := by
  rw [run, stepped]

theorem run_cons_eq_ok {last : σ} {rest : List α} :
    run step state (input :: rest) = .ok last ↔
      ∃ next, step state input = .ok next ∧ run step next rest = .ok last := by
  cases stepped : step state input with
  | error reason => simp [run_cons_error stepped]
  | ok next => simp [run_cons_ok stepped]

theorem run_append (state : σ) (first second : List α) :
    run step state (first ++ second) =
      match run step state first with
      | .error reason => .error reason
      | .ok next => run step next second := by
  induction first generalizing state with
  | nil => rfl
  | cons input rest ih =>
    rw [cons_append]
    cases stepped : step state input with
    | error reason => rw [run_cons_error stepped, run_cons_error stepped]
    | ok next => rw [run_cons_ok stepped, run_cons_ok stepped, ih]

theorem run_append_ok {next : σ} {first : List α} (ran : run step state first = .ok next)
    (second : List α) : run step state (first ++ second) = run step next second := by
  rw [run_append, ran]

theorem run_invariant (P : σ → Prop) {last : σ}
    (preserved : ∀ s input t, input ∈ inputs → P s → step s input = .ok t → P t)
    (initially : P state) (ran : run step state inputs = .ok last) : P last := by
  induction inputs generalizing state with
  | nil => rwa [← Except.ok.inj ran]
  | cons input rest ih =>
    obtain ⟨next, stepped, ran⟩ := run_cons_eq_ok.mp ran
    exact ih (fun s other t mem => preserved s other t (mem_cons_of_mem _ mem))
      (preserved state input next mem_cons_self initially stepped) ran

/-- When the success of a step depends on its input alone, a run succeeds exactly
when every input is good. -/
theorem run_succeeds_iff (P : σ → Prop) (good : α → Prop)
    (decided : ∀ s input, input ∈ inputs → P s → ((∃ t, step s input = .ok t) ↔ good input))
    (preserved : ∀ s input t, input ∈ inputs → P s → step s input = .ok t → P t)
    (initially : P state) :
    (∃ last, run step state inputs = .ok last) ↔ ∀ input ∈ inputs, good input := by
  induction inputs generalizing state with
  | nil => simp
  | cons input rest ih =>
    have first := decided state input mem_cons_self initially
    cases stepped : step state input with
    | error reason =>
      have bad : ¬ good input := fun isGood => by
        obtain ⟨t, ok⟩ := first.mpr isGood
        rw [stepped] at ok
        cases ok
      simp [run_cons_error stepped, bad]
    | ok next =>
      have isGood := first.mp ⟨next, stepped⟩
      have others := ih
        (fun s other mem => decided s other (mem_cons_of_mem _ mem))
        (fun s other t mem => preserved s other t (mem_cons_of_mem _ mem))
        (preserved state input next mem_cons_self initially stepped)
      simp [run_cons_ok stepped, others, isGood]

theorem run_eq_error (ran : run step state inputs = .error reason) :
    ∃ reached, ∃ input ∈ inputs, step reached input = .error reason := by
  induction inputs generalizing state with
  | nil => cases ran
  | cons input rest ih =>
    cases stepped : step state input with
    | error cause =>
      rw [run_cons_error stepped] at ran
      exact ⟨state, input, mem_cons_self, stepped.trans ran⟩
    | ok next =>
      rw [run_cons_ok stepped] at ran
      obtain ⟨reached, other, mem, failed⟩ := ih ran
      exact ⟨reached, other, mem_cons_of_mem _ mem, failed⟩

theorem run_flatten (state : σ) (parts : List (List α)) :
    run (run step) state parts = run step state parts.flatten := by
  induction parts generalizing state with
  | nil => rfl
  | cons part rest ih =>
    rw [flatten_cons, run_append]
    cases ran : run step state part with
    | error reason => rw [run_cons_error ran]
    | ok next => rw [run_cons_ok ran, ih]

theorem run_filter {keep : α → Bool}
    (skipped : ∀ state input, keep input = false → step state input = .ok state) (state : σ)
    (inputs : List α) : run step state (inputs.filter keep) = run step state inputs := by
  induction inputs generalizing state with
  | nil => rfl
  | cons input rest ih =>
    cases kept : keep input with
    | false => rw [filter_cons_of_neg (by simp [kept]), run_cons_ok (skipped state input kept), ih]
    | true =>
      rw [filter_cons_of_pos kept]
      cases stepped : step state input with
      | error reason => rw [run_cons_error stepped, run_cons_error stepped]
      | ok next => rw [run_cons_ok stepped, run_cons_ok stepped, ih]

end Trpi.Library
