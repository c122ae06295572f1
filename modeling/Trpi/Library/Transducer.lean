import Mathlib.Data.List.Basic

/-!
# Transducers

A transducer turns inputs into outputs one input at a time and may fail. What a
component makes of chunks of input does not depend on the chunks as soon as each
chunk has the effect of transducing its inputs.
-/

namespace Trpi.Library

open List

variable {ε σ α ω : Type}

/-- The state after the inputs and everything they put out, or the first failure. -/
def transduce (step : σ → α → Except ε (σ × List ω)) : σ → List α → Except ε (σ × List ω)
  | s, [] => .ok (s, [])
  | s, input :: rest =>
    match step s input with
    | .error reason => .error reason
    | .ok (next, out) => (transduce step next rest).map fun done => (done.1, out ++ done.2)

variable {step : σ → α → Except ε (σ × List ω)} {collect : List α → σ} {first : List α}
  {out : List ω} {reason : ε} {bound : ℕ} {s : σ}

@[simp] theorem transduce_nil (s : σ) : transduce step s [] = .ok (s, []) := rfl

theorem transduce_cons_ok {next : σ} {input : α} (stepped : step s input = .ok (next, out))
    (rest : List α) :
    transduce step s (input :: rest) =
      (transduce step next rest).map fun done => (done.1, out ++ done.2) := by
  rw [transduce, stepped]

theorem transduce_cons_error {input : α} (stepped : step s input = .error reason) (rest : List α) :
    transduce step s (input :: rest) = .error reason := by
  rw [transduce, stepped]

theorem transduce_singleton (s : σ) (input : α) : transduce step s [input] = step s input := by
  rw [transduce]
  cases step s input with
  | error reason => rfl
  | ok reached => simp [Except.map]

theorem transduce_append_ok {next : σ} (done : transduce step s first = .ok (next, out))
    (second : List α) :
    transduce step s (first ++ second) =
      (transduce step next second).map fun later => (later.1, out ++ later.2) := by
  induction first generalizing s out with
  | nil =>
    obtain ⟨rfl, rfl⟩ := Prod.mk.inj (Except.ok.inj done)
    rw [nil_append]
    cases transduce step s second <;> rfl
  | cons input rest ih =>
    cases stepped : step s input with
    | error reason =>
      rw [transduce_cons_error stepped] at done
      cases done
    | ok reached =>
      rw [transduce_cons_ok stepped] at done
      cases tail : transduce step reached.1 rest with
      | error reason =>
        rw [tail] at done
        cases done
      | ok last =>
        rw [tail] at done
        cases done
        rw [cons_append, transduce_cons_ok stepped, ih tail]
        cases transduce step last.1 second <;> simp [Except.map]

theorem transduce_append_error (failed : transduce step s first = .error reason) (second : List α) :
    transduce step s (first ++ second) = .error reason := by
  induction first generalizing s with
  | nil => cases failed
  | cons input rest ih =>
    cases stepped : step s input with
    | error cause =>
      rw [transduce_cons_error stepped] at failed
      rw [cons_append, transduce_cons_error stepped, failed]
    | ok reached =>
      rw [transduce_cons_ok stepped] at failed
      cases tail : transduce step reached.1 rest with
      | error cause =>
        rw [tail] at failed
        rw [cons_append, transduce_cons_ok stepped, ih (tail.trans failed)]
        rfl
      | ok last =>
        rw [tail] at failed
        cases failed

theorem transduce_collect
    (collects : ∀ held input, held.length + 1 < bound →
      step (collect held) input = .ok (collect (held ++ [input]), []))
    {held inputs : List α} (short : held.length + inputs.length < bound) :
    transduce step (collect held) inputs = .ok (collect (held ++ inputs), []) := by
  induction inputs generalizing held with
  | nil => simp
  | cons input rest ih =>
    rw [length_cons] at short
    rw [transduce_cons_ok (collects held input (by omega)),
      ih (by rw [length_append, length_singleton]; omega)]
    simp [Except.map]

theorem transduce_collect_full
    (finish : List α → Except ε (σ × List ω))
    (collects : ∀ held input, held.length + 1 < bound →
      step (collect held) input = .ok (collect (held ++ [input]), []))
    (finishes : ∀ held input, held.length + 1 = bound →
      step (collect held) input = finish (held ++ [input]))
    {held inputs : List α} (pending : held.length < bound)
    (full : held.length + inputs.length = bound) :
    transduce step (collect held) inputs = finish (held ++ inputs) := by
  obtain rfl | ⟨most, last, rfl⟩ := eq_nil_or_concat' inputs
  · rw [length_nil] at full
    omega
  · rw [length_append, length_singleton] at full
    rw [transduce_append_ok (transduce_collect collects (by omega)), transduce_singleton,
      finishes _ _ (by rw [length_append]; omega), append_assoc]
    cases finish (held ++ (most ++ [last])) <;> rfl

end Trpi.Library
