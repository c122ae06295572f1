import Trpi.Harness.Runtime.Drive

/-!
# Overflow compactions of a run

A run that has been compacted for an overflow owes something new before it is compacted for
an overflow again. The marker of a generation is abstracted to where the run stands; every
step of a drive is a move between standings, and the moves keep the debt.
-/

namespace Trpi.Harness.Runtime

open Library Ai

variable {N : Type}

/-- Where a run stands. A generation may start an overflow compaction unless recovery was
used; a run that is closing needs something new before it generates again. -/
inductive Standing where
  | generation (used : Bool)
  | closing
  | recovering
  | ended
  deriving DecidableEq

/-- Where a run is going on without a compaction for an overflow. -/
def Standing.free : Standing → Bool
  | .generation _ | .closing => true
  | .recovering | .ended => false

/-- The moves of a run, with what each marks. -/
inductive Moves : Standing → List Mark → Standing → Prop where
  | stay (standing : Standing) : Moves standing [] standing
  | finish (standing : Standing) : Moves standing [] .ended
  | finishCompacted (standing : Standing) (reason : Option CompactionReason) :
      Moves standing [.compacted reason] .ended
  | overflow (taskId : String) :
      Moves (.generation false) [.overflowCompaction taskId] .recovering
  | answered (used : Bool) : Moves (.generation used) [] .closing
  | placed {standing : Standing} (entryId : String) (free : standing.free) :
      Moves standing [.inputPlaced entryId] (.generation false)
  | settled (turnId : String) : Moves .closing [.toolBatchSettled turnId] (.generation false)
  | settledLast (turnId : String) : Moves .closing [.toolBatchSettled turnId] .closing
  | compacted {standing : Standing} (reason : Option CompactionReason)
      (free : standing.free) : Moves standing [.compacted reason] standing
  | compactedPlaced {standing : Standing} (reason : Option CompactionReason)
      (entryId : String) (free : standing.free) :
      Moves standing [.compacted reason, .inputPlaced entryId] (.generation false)
  | recovered : Moves .recovering [.compacted (some .overflow)] (.generation true)
  | recoveredPlaced (entryId : String) :
      Moves .recovering [.compacted (some .overflow), .inputPlaced entryId] (.generation false)

def Mark.isNew : Mark → Bool
  | .inputPlaced _ | .toolBatchSettled _ => true
  | _ => false

/-- What a run owes: nothing, the compaction that it has started, or something new. -/
inductive Debt where
  | clear | compacting | owed
  deriving DecidableEq

/-- An overflow compaction may start only where nothing is owed. -/
def Debt.after : Debt → Mark → Option Debt
  | .clear, .overflowCompaction _ => some .compacting
  | _, .overflowCompaction _ => none
  | .compacting, .compacted (some .overflow) => some .owed
  | .owed, .inputPlaced _ => some .clear
  | .owed, .toolBatchSettled _ => some .clear
  | debt, _ => some debt

def debt (marks : List Mark) : Option Debt := marks.foldlM Debt.after .clear

/-- What a run may owe where it stands. -/
def Debt.Allows : Debt → Standing → Prop
  | .clear, standing => standing ≠ .recovering
  | .compacting, standing => standing = .recovering ∨ standing = .ended
  | .owed, standing =>
    standing = .generation true ∨ standing = .closing ∨ standing = .ended

variable {owing : Debt} {marks : List Mark} {standing : Standing}

theorem Debt.allows_free (free : standing.free)
    (allowed : owing.Allows standing) : owing = .clear ∨ owing = .owed := by
  cases owing with
  | clear => exact .inl rfl
  | owed => exact .inr rfl
  | compacting =>
    obtain rfl | rfl := allowed
    · cases free
    · cases free

theorem Moves.debt {next : Standing} (moves : Moves standing marks next)
    (allowed : owing.Allows standing) :
    ∃ later : Debt, marks.foldlM Debt.after owing = some later ∧ later.Allows next := by
  cases moves with
  | stay => exact ⟨owing, rfl, allowed⟩
  | finish =>
    refine ⟨owing, rfl, ?_⟩
    cases owing <;> simp [Debt.Allows]
  | finishCompacted _ reason =>
    cases owing with
    | clear => exact ⟨.clear, rfl, by simp [Debt.Allows]⟩
    | owed => exact ⟨.owed, rfl, by simp [Debt.Allows]⟩
    | compacting =>
      by_cases isOverflow : reason = some .overflow
      · subst isOverflow
        exact ⟨.owed, rfl, by simp [Debt.Allows]⟩
      · refine ⟨.compacting, ?_, by simp [Debt.Allows]⟩
        simp [Debt.after, isOverflow]
  | overflow taskId =>
    cases owing with
    | clear => exact ⟨.compacting, rfl, .inl rfl⟩
    | compacting => simp [Debt.Allows] at allowed
    | owed => simp [Debt.Allows] at allowed
  | answered used =>
    obtain rfl | rfl := Debt.allows_free rfl allowed
    · exact ⟨.clear, rfl, by simp [Debt.Allows]⟩
    · exact ⟨.owed, rfl, by simp [Debt.Allows]⟩
  | placed entryId free =>
    obtain rfl | rfl := Debt.allows_free free allowed
    all_goals exact ⟨.clear, rfl, by simp [Debt.Allows]⟩
  | settled turnId =>
    obtain rfl | rfl := Debt.allows_free rfl allowed
    all_goals exact ⟨.clear, rfl, by simp [Debt.Allows]⟩
  | settledLast turnId =>
    obtain rfl | rfl := Debt.allows_free rfl allowed
    all_goals exact ⟨.clear, rfl, by simp [Debt.Allows]⟩
  | compacted reason free =>
    obtain rfl | rfl := Debt.allows_free free allowed
    · exact ⟨.clear, rfl, allowed⟩
    · exact ⟨.owed, rfl, allowed⟩
  | compactedPlaced reason entryId free =>
    obtain rfl | rfl := Debt.allows_free free allowed
    all_goals exact ⟨.clear, rfl, by simp [Debt.Allows]⟩
  | recovered =>
    cases owing with
    | clear => exact absurd rfl allowed
    | compacting => exact ⟨.owed, rfl, .inl rfl⟩
    | owed => simp [Debt.Allows] at allowed
  | recoveredPlaced entryId =>
    cases owing with
    | clear => exact absurd rfl allowed
    | compacting => exact ⟨.clear, rfl, by simp [Debt.Allows]⟩
    | owed => simp [Debt.Allows] at allowed

theorem Debt.after_overflow {later : Debt} {taskId : String}
    (paid : owing.after (.overflowCompaction taskId) = some later) : owing = .clear := by
  cases owing with
  | clear => rfl
  | compacting => cases paid
  | owed => cases paid

theorem new_of_owed (paid : marks.foldlM Debt.after .owed = some .clear) :
    ∃ mark ∈ marks, mark.isNew := by
  induction marks with
  | nil => cases paid
  | cons mark marks ih =>
    cases mark with
    | inputPlaced entryId => exact ⟨_, List.mem_cons_self, rfl⟩
    | toolBatchSettled turnId => exact ⟨_, List.mem_cons_self, rfl⟩
    | overflowCompaction taskId => cases paid
    | compacted reason =>
      obtain ⟨mark, mem, new⟩ := ih paid
      exact ⟨mark, List.mem_cons_of_mem _ mem, new⟩

theorem new_of_compacting (paid : marks.foldlM Debt.after .compacting = some .clear) :
    ∃ first rest : List Mark, marks = first ++ .compacted (some .overflow) :: rest ∧
      ∃ mark ∈ rest, mark.isNew := by
  induction marks with
  | nil => cases paid
  | cons mark marks ih =>
    by_cases completes : mark = .compacted (some .overflow)
    · subst completes
      exact ⟨[], marks, rfl, new_of_owed paid⟩
    · have still : Debt.after .compacting mark = some .compacting ∨
          Debt.after .compacting mark = none := by
        cases mark with
        | overflowCompaction taskId => exact .inr rfl
        | inputPlaced entryId => exact .inl rfl
        | toolBatchSettled turnId => exact .inl rfl
        | compacted reason =>
          refine .inl ?_
          have other : reason ≠ some .overflow := by
            rintro rfl
            exact completes rfl
          simp [Debt.after, other]
      rw [List.foldlM_cons] at paid
      obtain same | refused := still
      · rw [same] at paid
        obtain ⟨first, rest, rfl, new⟩ := ih paid
        exact ⟨mark :: first, rest, rfl, new⟩
      · rw [refused] at paid
        cases paid

theorem new_between {before between after : List Mark} {first second : String}
    (paid : debt (before ++ .overflowCompaction first ::
      (between ++ .overflowCompaction second :: after)) = some owing) :
    ∃ done rest : List Mark, between = done ++ .compacted (some .overflow) :: rest ∧
      ∃ mark ∈ rest, mark.isNew := by
  rw [debt, List.foldlM_append] at paid
  obtain ⟨reached, _, paid⟩ := Option.bind_eq_some_iff.mp paid
  rw [List.foldlM_cons] at paid
  obtain ⟨started, starts, paid⟩ := Option.bind_eq_some_iff.mp paid
  obtain rfl := Debt.after_overflow starts
  cases starts
  rw [List.foldlM_append] at paid
  obtain ⟨reached, onward, paid⟩ := Option.bind_eq_some_iff.mp paid
  rw [List.foldlM_cons] at paid
  obtain ⟨again, starts, _⟩ := Option.bind_eq_some_iff.mp paid
  obtain rfl := Debt.after_overflow starts
  exact new_of_compacting onward

end Trpi.Harness.Runtime
