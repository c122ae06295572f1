import Trpi.Session.StoreSafety

/-!
# Frames of a pending response

agent/src/harness/runtime/progress.ts reads them page by page, while more may be appended.
-/

namespace Trpi.Harness.Runtime

open Session InMemoryStorageState List

section

variable {β V N : Type}

/-- `reads n` is the state that the page behind `n` frames is read from. -/
def readAssistantFrames (reads : Nat → InMemoryStorageState β V N) (frameList : ValueList) :
    Nat → Option Nat → List V → Option (List V)
  | 0, _, _ => none
  | fuel + 1, cursor, frames =>
    let page := (reads frames.length).readList frameList cursor .asc 1000
    let frames := frames ++ page.map (·.value)
    if page.length < 1000 then some frames
    else readAssistantFrames reads frameList fuel (page.getLast?.map (·.seq)) frames

theorem filter_behind {front back : List (ListElement V)}
    (increasing : (front ++ back).Pairwise fun first second => first.seq < second.seq) :
    (front ++ back).filter (fun element => (front.getLast?.map (·.seq)).all (· < element.seq)) =
      back := by
  obtain ⟨ordered, -, apart⟩ := pairwise_append.mp increasing
  rcases eq_nil_or_concat' front with rfl | ⟨others, last, rfl⟩
  · simp
  · have before := (pairwise_append.mp ordered).2.2
    rw [filter_append, filter_eq_nil_iff.mpr, filter_eq_self.mpr, nil_append]
    · intro element mem
      simpa using apart last (by simp) element mem
    · intro element mem
      rcases mem_append.mp mem with other | same
      · simpa using Nat.le_of_lt (before element other last (mem_singleton_self _))
      · simp [mem_singleton.mp same]

variable [Add N] [Zero N] [ForkValue V] {reads : Nat → InMemoryStorageState β V N}
  {frameList : ValueList} (reached : ∀ n, (reads n).Reachable)
  (grows : ∀ first second, first ≤ second →
    (reads first).listElements frameList <+: (reads second).listElements frameList)
  {bound : Nat} (bounded : ∀ n, ((reads n).listElements frameList).length ≤ bound)

include reached grows bounded

theorem readAssistantFrames_behind {fuel : Nat} (front : List (ListElement V))
    (there : front <+: (reads front.length).listElements frameList)
    (enough : (bound - front.length) / 1000 < fuel) :
    ∃ n, readAssistantFrames reads frameList fuel (front.getLast?.map (·.seq))
      (front.map (·.value)) = some (((reads n).listElements frameList).map (·.value)) := by
  induction fuel generalizing front with
  | zero => cases enough
  | succ fuel ih =>
    obtain ⟨back, whole⟩ := there
    have increasing : ((reads front.length).listElements frameList).Pairwise _ :=
      (elementsAt_increasing (reached front.length).invariant.lists _).1
    have page : (reads front.length).readList frameList (front.getLast?.map (·.seq)) .asc 1000 =
        back.take 1000 := by
      rw [← whole] at increasing
      rw [readList, ← whole]
      exact congrArg (take 1000) (filter_behind increasing)
    rw [readAssistantFrames, length_map, page]
    split_ifs with short
    · rw [take_of_length_le (by rw [length_take] at short; omega), ← map_append, whole]
      exact ⟨front.length, rfl⟩
    · have full : (back.take 1000).length = 1000 := by
        rw [length_take] at short ⊢
        omega
      have fits := bounded front.length
      rw [← whole, length_append] at fits
      have later := ih (front ++ back.take 1000) ?_ ?_
      · rw [map_append, getLast?_append_of_ne_nil _ (ne_nil_of_length_pos (by omega))] at later
        exact later
      · refine IsPrefix.trans ?_ (grows front.length _ (by rw [length_append]; omega))
        rw [← whole]
        exact (prefix_append_right_inj front).mpr ⟨_, take_append_drop ..⟩
      · rw [length_append, full]
        rw [length_take] at full
        omega

end

def oneFrame : InMemoryStorageState Unit (Option String) Nat :=
  (initial.commit [.listAppend "pi.pending.assistant_frame" "1:2" (some "delta")] 7).1

end Trpi.Harness.Runtime
