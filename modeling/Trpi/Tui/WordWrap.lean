import Trpi.Tools.EditDiff
import Trpi.Tui.StdinBuffer

/-!
# Word wrap

`wordWrapLine` of tui/src/components/editor.ts. How wide a text is and where its graphemes end is
given; `calls` bounds how deep the function calls itself. A segment wider than the line is wrapped
by itself, and one that is a single grapheme comes back as it was.
-/

namespace Trpi.Tui

open Library
open Library.Utf16 (Units)

/-- `visibleWidth`, the grapheme segmenter and `cjkBreakRegex.test`. -/
structure TextRules where
  visibleWidth : Units → Nat
  graphemes : Units → List Units
  cjkBreak : Units → Bool
  visibleWidth_nil : visibleWidth [] = 0
  graphemes_nonempty {text : Units} : [] ∉ graphemes text
  /-- A grapheme is the only grapheme in it. -/
  graphemes_self {text grapheme : Units} : grapheme ∈ graphemes text →
    graphemes grapheme = [grapheme]

def dropPrefix? (expected units : Units) : Option Units :=
  if expected <+: units then some (units.drop expected.length) else none

/-- What follows `\d+`. -/
def dropDigits? (units : Units) : Option Units :=
  if units.takeWhile isDigit = [] then none else some (units.dropWhile isDigit)

/-- `PASTE_MARKER_SINGLE`. -/
def isPasteMarker (segment : Units) : Bool :=
  10 ≤ segment.length && ((dropPrefix? (text "[paste #") segment).bind dropDigits?).any fun rest =>
    rest = text "]" || (dropPrefix? (text " +") rest).bind dropDigits? = some (text " lines]") ||
      (dropPrefix? (text " ") rest).bind dropDigits? = some (text " chars]")

def isWhitespaceChar (char : Units) : Bool := char.any Tools.isWhitespace

structure Segment where
  segment : Units
  index : Nat

def segmentsFrom : Nat → List Units → List Segment
  | _, [] => []
  | index, segment :: segments =>
    { segment, index } :: segmentsFrom (index + segment.length) segments

structure TextChunk where
  text : Units
  startIndex : Nat
  endIndex : Nat

/-- The chunks of a line; there always is a last one. -/
structure Wrapped where
  before : List TextChunk
  last : TextChunk

/-- `wrapOpp` is the index and the width of a break that is allowed. -/
structure WrapState where
  chunks : List TextChunk
  currentWidth : Nat
  chunkStart : Nat
  wrapOpp : Option (Nat × Nat)

def slice (line : Units) (start endIndex : Nat) : Units := (line.take endIndex).drop start

def WrapState.cut (s : WrapState) (line : Units) (index currentWidth : Nat) : WrapState :=
  { chunks := s.chunks ++
      [{ text := slice line s.chunkStart index, startIndex := s.chunkStart
         endIndex := index }]
    currentWidth, chunkStart := index, wrapOpp := none }

/-- The overflow check before a segment of this width. -/
def WrapState.makeRoom (s : WrapState) (line : Units) (maxWidth charIndex gWidth : Nat) :
    WrapState :=
  if s.currentWidth + gWidth ≤ maxWidth then s
  else
    match s.wrapOpp.filter fun opp => s.currentWidth - opp.2 + gWidth ≤ maxWidth with
    | some (wrapOppIndex, wrapOppWidth) =>
      s.cut line wrapOppIndex (s.currentWidth - wrapOppWidth)
    | none =>
      if s.chunkStart < charIndex then s.cut line charIndex 0
      else { s with wrapOpp := none }

section

variable (rules : TextRules)

def TextRules.isCjk (grapheme : Units) : Bool := !isPasteMarker grapheme && rules.cjkBreak grapheme

/-- Whether a line may be broken between two segments. -/
def TextRules.breaks (grapheme next : Units) : Bool :=
  if !isPasteMarker grapheme && isWhitespaceChar grapheme then
    isPasteMarker next || !isWhitespaceChar next
  else !isWhitespaceChar next && (rules.isCjk grapheme || rules.isCjk next)

/-- One round of the loop; `inner` wraps a segment that is wider than the line. -/
def wrapSegment (inner : Units → Option Wrapped) (line : Units) (maxWidth : Nat)
    (s : WrapState) (seg : Segment) (next : Option Segment) : Option WrapState :=
  let gWidth := rules.visibleWidth seg.segment
  let s := s.makeRoom line maxWidth seg.index gWidth
  if maxWidth < gWidth then
    (inner seg.segment).map fun subChunks =>
      { chunks := s.chunks ++ subChunks.before.map fun chunk =>
          { chunk with
            startIndex := seg.index + chunk.startIndex, endIndex := seg.index + chunk.endIndex }
        currentWidth := rules.visibleWidth subChunks.last.text
        chunkStart := seg.index + subChunks.last.startIndex, wrapOpp := none }
  else
    let currentWidth := s.currentWidth + gWidth
    let wrapOpp := next.filter fun next => rules.breaks seg.segment next.segment
    some { s with
      currentWidth
      wrapOpp := (wrapOpp.map fun next => (next.index, currentWidth)).or s.wrapOpp }

def wrapSegments (inner : Units → Option Wrapped) (line : Units) (maxWidth : Nat) :
    WrapState → List Segment → Option WrapState
  | s, [] => some s
  | s, seg :: segments =>
    (wrapSegment rules inner line maxWidth s seg segments.head?).bind fun s =>
      wrapSegments inner line maxWidth s segments

def wordWrapLine : Nat → Units → Nat → Option (List Segment) → Option Wrapped
  | 0, _, _, _ => none
  | calls + 1, line, maxWidth, preSegmented =>
    if line = [] ∨ maxWidth = 0 then some { before := [], last := ⟨[], 0, 0⟩ }
    else if rules.visibleWidth line ≤ maxWidth then
      some { before := [], last := ⟨line, 0, line.length⟩ }
    else
      (wrapSegments rules (fun grapheme => wordWrapLine calls grapheme maxWidth none) line maxWidth
        { chunks := [], currentWidth := 0, chunkStart := 0, wrapOpp := none }
        (preSegmented.getD (segmentsFrom 0 (rules.graphemes line)))).map fun s =>
          { before := s.chunks
            last := ⟨line.drop s.chunkStart, s.chunkStart, line.length⟩ }

end

section

variable {rules : TextRules} {inner : Units → Option Wrapped} {line : Units} {maxWidth : Nat}

theorem wrapSegments_isSome_iff (s : WrapState) (segments : List Segment) :
    (wrapSegments rules inner line maxWidth s segments).isSome ↔ ∀ seg ∈ segments,
      maxWidth < rules.visibleWidth seg.segment → (inner seg.segment).isSome := by
  induction segments generalizing s with
  | nil => simp [wrapSegments]
  | cons seg segments ih =>
    rw [wrapSegments, List.forall_mem_cons]
    by_cases wide : maxWidth < rules.visibleWidth seg.segment
    · cases wraps : inner seg.segment with
      | none => simp [wrapSegment, wide, wraps]
      | some subChunks => simp [wrapSegment, wide, wraps, ih]
    · simp [wrapSegment, wide, ih]

theorem segment_of_segmentsFrom (i : Nat) (texts : List Units) :
    (segmentsFrom i texts).map Segment.segment = texts := by
  induction texts generalizing i with
  | nil => rfl
  | cons text texts ih => rw [segmentsFrom, List.map_cons, ih]

/-- A call with the default segmenter ends when the wide graphemes do. -/
theorem wordWrapLine_isSome_iff {calls : Nat} (some_ : line ≠ []) (room : 0 < maxWidth)
    (wide : maxWidth < rules.visibleWidth line) :
    (wordWrapLine rules (calls + 1) line maxWidth none).isSome ↔
      ∀ grapheme ∈ rules.graphemes line, maxWidth < rules.visibleWidth grapheme →
        (wordWrapLine rules calls grapheme maxWidth none).isSome := by
  rw [wordWrapLine, if_neg (by simp [some_]; omega), if_neg (by omega), Option.isSome_map,
    wrapSegments_isSome_iff]
  have same := segment_of_segmentsFrom 0 (rules.graphemes line)
  constructor
  · intro each grapheme inside
    rw [← same] at inside
    obtain ⟨seg, isSegment, rfl⟩ := List.mem_map.mp inside
    exact each seg isSegment
  · intro each seg isSegment
    exact each seg.segment (same ▸ List.mem_map_of_mem isSegment)

theorem wide_grapheme_never_ends {grapheme : Units} (room : 0 < maxWidth)
    (inside : grapheme ∈ rules.graphemes line)
    (wide : maxWidth < rules.visibleWidth grapheme) (calls : Nat) :
    wordWrapLine rules calls grapheme maxWidth none = none := by
  induction calls with
  | zero => rfl
  | succ calls ih =>
    rw [← Option.not_isSome_iff_eq_none]
    have some_ : grapheme ≠ [] := fun empty => rules.graphemes_nonempty (empty ▸ inside)
    rw [wordWrapLine_isSome_iff some_ room wide, rules.graphemes_self inside]
    simp [wide, ih]

theorem wide_segment_ends_iff {segment : Units} (room : 0 < maxWidth)
    (wide : maxWidth < rules.visibleWidth segment) (calls : Nat) :
    (wordWrapLine rules (calls + 1) segment maxWidth none).isSome ↔
      ∀ grapheme ∈ rules.graphemes segment, rules.visibleWidth grapheme ≤ maxWidth := by
  have some_ : segment ≠ [] := by
    rintro rfl
    rw [rules.visibleWidth_nil] at wide
    omega
  rw [wordWrapLine_isSome_iff some_ room wide]
  constructor
  · intro each grapheme inside
    by_contra over_
    have ends := each grapheme inside (by omega)
    rw [wide_grapheme_never_ends room inside (by omega)] at ends
    cases ends
  · intro each grapheme inside over_
    exact absurd (each grapheme inside) (by omega)

end

/-- A call ends when the line is empty or fits, or when no segment that is wider than the line has
a grapheme that is. -/
theorem wordWrapLine_ends_iff (rules : TextRules) (line : Units) (maxWidth : Nat)
    (preSegmented : Option (List Segment)) (room : 1 ≤ maxWidth) :
    (∃ calls, (wordWrapLine rules calls line maxWidth preSegmented).isSome) ↔
      line = [] ∨ rules.visibleWidth line ≤ maxWidth ∨
      ∀ seg ∈ preSegmented.getD (segmentsFrom 0 (rules.graphemes line)),
        maxWidth < rules.visibleWidth seg.segment →
        ∀ grapheme ∈ rules.graphemes seg.segment, rules.visibleWidth grapheme ≤ maxWidth := by
  by_cases empty : line = []
  · exact iff_of_true ⟨1, by rw [wordWrapLine, if_pos (.inl empty)]; rfl⟩ (.inl empty)
  · by_cases fits : rules.visibleWidth line ≤ maxWidth
    · refine iff_of_true ⟨1, ?_⟩ (.inr (.inl fits))
      rw [wordWrapLine, if_neg (by simp [empty]; omega), if_pos fits]
      rfl
    · have turns : ∀ calls, (wordWrapLine rules (calls + 1) line maxWidth preSegmented).isSome ↔
          ∀ seg ∈ preSegmented.getD (segmentsFrom 0 (rules.graphemes line)),
            maxWidth < rules.visibleWidth seg.segment →
              (wordWrapLine rules calls seg.segment maxWidth none).isSome := by
        intro calls
        rw [wordWrapLine, if_neg (by simp [empty]; omega), if_neg fits, Option.isSome_map,
          wrapSegments_isSome_iff]
      rw [or_iff_right empty, or_iff_right fits]
      constructor
      · rintro ⟨_ | _ | calls, ends⟩ seg isSegment wide
        · cases ends
        · have inner := (turns 0).mp ends seg isSegment wide
          cases inner
        · exact (wide_segment_ends_iff room wide calls).mp
            ((turns (calls + 1)).mp ends seg isSegment wide)
      · exact fun each => ⟨2, (turns 1).mpr fun seg isSegment wide =>
          (wide_segment_ends_iff room wide 0).mpr (each seg isSegment wide)⟩

/-- Each code unit is a grapheme; those from U+1100 on take two columns. -/
def unitRules : TextRules where
  visibleWidth text := text.length + text.countP (0x1100 ≤ ·)
  graphemes text := text.map ([·])
  cjkBreak text := text.any (0x1100 ≤ ·)
  visibleWidth_nil := rfl
  graphemes_nonempty := by simp
  graphemes_self := by
    intro _ _ inside
    obtain ⟨unit, -, rfl⟩ := List.mem_map.mp inside
    rfl

/-- A marker that is wider than the line. -/
theorem wordWrapLine_ends_iff_sample :
    ∃ calls, (wordWrapLine unitRules calls (text "a [paste #1]") 4
      (some [⟨text "a", 0⟩, ⟨text " ", 1⟩, ⟨text "[paste #1]", 2⟩])).isSome :=
  (wordWrapLine_ends_iff unitRules _ 4 _ (by decide)).mpr (.inr (.inr (by decide)))

/-- U+4F60 in a line of one column. -/
theorem wide_character_never_ends :
    ¬ ∃ calls, (wordWrapLine unitRules calls [0x4F60] 1 none).isSome := by
  rintro ⟨calls, ends⟩
  rw [@wide_grapheme_never_ends unitRules [0x4F60] 1 _ (by decide) (by decide) (by decide)] at ends
  cases ends

end Trpi.Tui
