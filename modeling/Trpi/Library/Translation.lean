import Trpi.Library.Runs

/-!
# Translations and what undoes them

A translator with a state of its own gives one output for each input, and may fail.
-/

namespace Trpi.Library

open List

variable {ε σ τ α ω : Type}

/-- One output for each input, or the first failure. -/
def translate (step : σ → α → Except ε (σ × ω)) : σ → List α → Except ε (σ × List ω)
  | s, [] => .ok (s, [])
  | s, input :: rest => do
    let (s, out) ← step s input
    let (s, others) ← translate step s rest
    .ok (s, out :: others)

/-- What `step` puts out `back` reads as it was put in, and both ends stay related. -/
structure Undoes (Good : α → Prop) (Related : σ → τ → Prop) (step : σ → α → Except ε (σ × ω))
    (back : τ → ω → Except ε (τ × α)) : Prop where
  read : ∀ {s t next input out}, Related s t → Good input → step s input = .ok (next, out) →
    ∃ mirror, back t out = .ok (mirror, input) ∧ Related next mirror

variable {Good : α → Prop} {Related : σ → τ → Prop} {step : σ → α → Except ε (σ × ω)}
  {back : τ → ω → Except ε (τ × α)}

/-- What is undone is so as a part of something. -/
theorem Undoes.part {β : Type} {wrap : ω → β} {s next : σ} {t : τ} {input : α} {out : β}
    (undoes : Undoes Good Related step back) (related : Related s t) (good : Good input)
    (done : (step s input).map (fun done => (done.1, wrap done.2)) = .ok (next, out)) :
    ∃ mirror coded, out = wrap coded ∧ back t coded = .ok (mirror, input) ∧ Related next mirror := by
  cases stepped : step s input with
  | error reason =>
    rw [stepped] at done
    cases done
  | ok reached =>
    rw [stepped] at done
    cases done
    obtain ⟨mirror, read, related⟩ := undoes.read related good stepped
    exact ⟨mirror, reached.2, rfl, read, related⟩

theorem Undoes.translate (undoes : Undoes Good Related step back) :
    Undoes (∀ input ∈ ·, Good input) Related (translate step) (translate back) := by
  constructor
  intro s t last inputs outs related good done
  induction inputs generalizing s t outs with
  | nil =>
    cases done
    exact ⟨t, rfl, related⟩
  | cons input rest ih =>
    obtain ⟨⟨next, out⟩, stepped, done⟩ := bind_eq_ok done
    obtain ⟨⟨last, others⟩, later, done⟩ := bind_eq_ok done
    cases done
    obtain ⟨middle, read, related⟩ := undoes.read related (good input mem_cons_self) stepped
    obtain ⟨mirror, reread, related⟩ :=
      ih related (fun other mem => good other (mem_cons_of_mem _ mem)) later
    refine ⟨mirror, ?_, related⟩
    simp only [Library.translate, read, reread, bind, Except.bind]

end Trpi.Library
