import Mathlib.Data.List.TakeDrop
import Trpi.Harness.OutputCapture

/-!
# Updates of a shell output view

A view is sent as what has changed since the one before: nothing but its metadata, more
text at the end, a window that has slid over the text, or all of it. The overlap of a slide
is searched at a few candidate positions only; what is found is compared in full.
-/

namespace Trpi.Harness

open Library
open Library.Utf16 (Units)

/-- What a view has besides its text. -/
structure ShellOutputMetadata where
  truncation : Truncation
  spillPath : Option String
  lastLineBytes : Option Nat

structure SpilledOutputView extends ShellOutputView where
  spillPath : Option String

inductive ShellOutputUpdate where
  | replace (output : SpilledOutputView)
  | append (text : Units) (metadata : ShellOutputMetadata)
  | slide (drop : Nat) (text : Units) (metadata : ShellOutputMetadata)
  | metadata (metadata : ShellOutputMetadata)

namespace SpilledOutputView

def metadata (view : SpilledOutputView) : ShellOutputMetadata where
  truncation := view.truncation
  spillPath := view.spillPath
  lastLineBytes := view.lastLineBytes

/-- `{ text, ...metadata }`. -/
def ofText (text : Units) (metadata : ShellOutputMetadata) : SpilledOutputView where
  text := text
  truncation := metadata.truncation
  lastLineBytes := metadata.lastLineBytes
  spillPath := metadata.spillPath

@[simp] theorem ofText_metadata (view : SpilledOutputView) :
    ofText view.text view.metadata = view := rfl

end SpilledOutputView

open SpilledOutputView (ofText)

def currentText (current : Option SpilledOutputView) : Units :=
  match current with
  | none => []
  | some view => view.text

def applyShellOutputUpdate (current : Option SpilledOutputView) :
    ShellOutputUpdate → SpilledOutputView
  | .replace output => output
  | .append text metadata => ofText (currentText current ++ text) metadata
  | .slide drop text metadata => ofText ((currentText current).drop drop ++ text) metadata
  | .metadata metadata => ofText (currentText current) metadata

/-- How much of `after` the end of `tail` from an index is, if it is a beginning of it. -/
def overlapAt (tail after : Units) (index : Nat) : Option Nat :=
  let overlapLength := tail.length - index
  if overlapLength ≤ after.length ∧ tail.drop index = after.take overlapLength then
    some overlapLength
  else none

/-- The loop over the first eight places where the probe occurs. -/
def probeOverlap (tail after : Units) (probeLength : Nat) : Option Nat :=
  ((positions (after.take probeLength) tail).take 8).findSome? (overlapAt tail after)

def suffixPrefixOverlap (before after : Units) (scan : Nat) : Nat :=
  if before = [] ∨ after = [] ∨ scan = 0 then 0
  else
    let tail := if scan < before.length then before.drop (before.length - scan) else before
    let probeLength := min 64 after.length
    match probeOverlap tail after probeLength with
    | some overlap => overlap
    | none => if probeLength = 1 then 0 else (probeOverlap tail after 1).getD 0

theorem probeOverlap_eq_some {tail after : Units} {probeLength overlap : Nat}
    (found : probeOverlap tail after probeLength = some overlap) :
    overlap ≤ tail.length ∧ tail.drop (tail.length - overlap) = after.take overlap := by
  obtain ⟨i, mem, hit⟩ := List.exists_of_findSome?_eq_some found
  have inside := (mem_positions.mp (List.mem_of_mem_take mem)).1
  rw [overlapAt] at hit
  split at hit
  · rename_i matching
    cases hit
    refine ⟨Nat.sub_le _ _, ?_⟩
    rw [Nat.sub_sub_self inside]
    exact matching.2
  · cases hit

/-- What is returned is an overlap, though maybe not the longest. -/
theorem suffixPrefixOverlap_spec (before after : Units) (scan : Nat) :
    suffixPrefixOverlap before after scan ≤ before.length ∧
      before.drop (before.length - suffixPrefixOverlap before after scan) =
        after.take (suffixPrefixOverlap before after scan) := by
  have nothing : (0 : Nat) ≤ before.length ∧ before.drop (before.length - 0) = after.take 0 := by
    simp
  rw [suffixPrefixOverlap]
  split
  · exact nothing
  -- the end that is searched is an end of the whole text
  have searched : ∃ cut, (if scan < before.length then before.drop (before.length - scan)
      else before) = before.drop cut := by
    split
    · exact ⟨_, rfl⟩
    · exact ⟨0, rfl⟩
  obtain ⟨cut, tail⟩ := searched
  rw [tail]
  have whole : ∀ {probeLength overlap : Nat},
      probeOverlap (before.drop cut) after probeLength = some overlap →
      overlap ≤ before.length ∧ before.drop (before.length - overlap) = after.take overlap := by
    intro probeLength overlap found
    obtain ⟨short, same⟩ := probeOverlap_eq_some found
    rw [List.length_drop] at short same
    refine ⟨short.trans (Nat.sub_le _ _), ?_⟩
    rw [List.drop_drop] at same
    by_cases none_ : overlap = 0
    · subst none_
      exact nothing.2
    · rw [← same]
      congr 1
      omega
  dsimp only
  split
  · rename_i overlap found
    exact whole found
  · split
    · exact nothing
    · cases found : probeOverlap (before.drop cut) after 1 with
      | none => exact nothing
      | some overlap => exact whole found

def updateFrom (previous : Option SpilledOutputView) (current : SpilledOutputView) :
    ShellOutputUpdate :=
  match previous with
  | none => .replace current
  | some previous =>
    if current.text = previous.text then .metadata current.metadata
    else if previous.text.length < current.text.length ∧
        current.text.take previous.text.length = previous.text then
      .append (current.text.drop previous.text.length) current.metadata
    else
      let shared := suffixPrefixOverlap previous.text current.text
        (min (min previous.text.length current.text.length) (current.truncation.maxBytes * 2))
      if 0 < shared then
        .slide (previous.text.length - shared) (current.text.drop shared) current.metadata
      else .replace current

theorem apply_updateFrom (previous : Option SpilledOutputView) (current : SpilledOutputView) :
    applyShellOutputUpdate previous (updateFrom previous current) = current := by
  cases previous with
  | none => rfl
  | some previous =>
    rw [updateFrom]
    dsimp only
    split
    · rename_i same
      rw [applyShellOutputUpdate, currentText, ← same, SpilledOutputView.ofText_metadata]
    split
    · rename_i longer
      have grown : previous.text ++ current.text.drop previous.text.length = current.text := by
        calc previous.text ++ current.text.drop previous.text.length
            = current.text.take previous.text.length ++
                current.text.drop previous.text.length := by rw [longer.2]
          _ = current.text := List.take_append_drop _ _
      rw [applyShellOutputUpdate, currentText, grown, SpilledOutputView.ofText_metadata]
    split
    · have spec := suffixPrefixOverlap_spec previous.text current.text
        (min (min previous.text.length current.text.length) (current.truncation.maxBytes * 2))
      rw [applyShellOutputUpdate, currentText, spec.2, List.take_append_drop,
        SpilledOutputView.ofText_metadata]
    · rfl

end Trpi.Harness
