import Mathlib.Data.List.Sort
import Trpi.Library.TextSearch
import Trpi.Library.Utf16

/-!
# Edit matching

agent/src/harness/tools/edit-diff.ts, from line endings to
`applyEditsToNormalizedContent`. Texts are UTF-16 code units; the Unicode
normalization NFKC is a parameter. Coding-agent carries the same algorithm.
-/

namespace Trpi.Tools

open Library
open Library.Utf16 (Units)

def cr : UInt16 := 13

def lf : UInt16 := 10

inductive LineEnding where
  | crlf | lf

def detectLineEnding (content : Units) : LineEnding :=
  match indexOf [lf] content with
  | none => .lf
  | some lfIdx =>
    match indexOf [cr, lf] content with
    | none => .lf
    | some crlfIdx => if crlfIdx < lfIdx then .crlf else .lf

/-- The first replacement of `normalizeToLF`. -/
def replaceCrLf : Units → Units
  | [] => []
  | [unit] => [unit]
  | unit :: next :: rest =>
    if unit = cr ∧ next = lf then lf :: replaceCrLf rest else unit :: replaceCrLf (next :: rest)

def normalizeToLF (text : Units) : Units :=
  (replaceCrLf text).map fun unit => if unit = cr then lf else unit

def restoreLineEndings (text : Units) : LineEnding → Units
  | .crlf => text.flatMap fun unit => if unit = lf then [cr, lf] else [unit]
  | .lf => text

def byteOrderMark : Units := [0xFEFF]

structure BomText where
  bom : Units
  text : Units

def stripBom (content : Units) : BomText :=
  if byteOrderMark.isPrefixOf content then { bom := byteOrderMark, text := content.drop 1 }
  else { bom := [], text := content }

def isWhitespace (unit : UInt16) : Bool :=
  unit ∈ ([9, 10, 11, 12, 13, 32, 0xA0, 0x1680, 0x2028, 0x2029, 0x202F, 0x205F, 0x3000, 0xFEFF] :
    Units) || (0x2000 ≤ unit && unit ≤ 0x200A)

def trimEnd (line : Units) : Units := (line.reverse.dropWhile isWhitespace).reverse

def singleQuotes : Units := [0x2018, 0x2019, 0x201A, 0x201B]

def doubleQuotes : Units := [0x201C, 0x201D, 0x201E, 0x201F]

def dashes : Units := [0x2010, 0x2011, 0x2012, 0x2013, 0x2014, 0x2015, 0x2212]

def isSpecialSpace (unit : UInt16) : Bool :=
  unit ∈ ([0xA0, 0x202F, 0x205F, 0x3000] : Units) || (0x2002 ≤ unit && unit ≤ 0x200A)

/-- The four replacements after the lines are joined; no unit is in two classes. -/
def plainUnit (unit : UInt16) : UInt16 :=
  if unit ∈ singleQuotes then 39
  else if unit ∈ doubleQuotes then 34
  else if unit ∈ dashes then 45
  else if isSpecialSpace unit then 32
  else unit

def normalizeForFuzzyMatch (nfkc : Units → Units) (text : Units) : Units :=
  (((split [lf] (nfkc text)).map trimEnd).intersperse [lf]).flatten.map plainUnit

structure FuzzyMatchResult where
  found : Bool
  index : Nat
  matchLength : Nat
  usedFuzzyMatch : Bool
  contentForReplacement : Units

def fuzzyFindText (nfkc : Units → Units) (content oldText : Units) : FuzzyMatchResult :=
  match indexOf oldText content with
  | some exactIndex =>
    { found := true, index := exactIndex, matchLength := oldText.length, usedFuzzyMatch := false,
      contentForReplacement := content }
  | none =>
    let fuzzyContent := normalizeForFuzzyMatch nfkc content
    let fuzzyOldText := normalizeForFuzzyMatch nfkc oldText
    match indexOf fuzzyOldText fuzzyContent with
    | none =>
      { found := false, index := 0, matchLength := 0, usedFuzzyMatch := false,
        contentForReplacement := content }
    | some fuzzyIndex =>
      { found := true, index := fuzzyIndex, matchLength := fuzzyOldText.length,
        usedFuzzyMatch := true, contentForReplacement := fuzzyContent }

def countOccurrences (nfkc : Units → Units) (content oldText : Units) : Int :=
  (split (normalizeForFuzzyMatch nfkc oldText) (normalizeForFuzzyMatch nfkc content)).length - 1

inductive EditFault where
  | notFound (editIndex totalEdits : Nat)
  | duplicate (editIndex totalEdits : Nat) (occurrences : Int)
  | emptyOldText (editIndex totalEdits : Nat)
  | noChange (totalEdits : Nat)
  | overlap (previous current : Nat)
  | outsideBase
  | lineCount

def EditFault.message (path : String) : EditFault → String
  | .notFound editIndex totalEdits =>
    if totalEdits = 1 then
      "Could not find the exact text in " ++ path ++
        ". The old text must match exactly including all whitespace and newlines."
    else
      "Could not find edits[" ++ toString editIndex ++ "] in " ++ path ++
        ". The oldText must match exactly including all whitespace and newlines."
  | .duplicate editIndex totalEdits occurrences =>
    if totalEdits = 1 then
      "Found " ++ toString occurrences ++ " occurrences of the text in " ++ path ++
        ". The text must be unique. Please provide more context to make it unique."
    else
      "Found " ++ toString occurrences ++ " occurrences of edits[" ++ toString editIndex ++
        "] in " ++ path ++
        ". Each oldText must be unique. Please provide more context to make it unique."
  | .emptyOldText editIndex totalEdits =>
    if totalEdits = 1 then "oldText must not be empty in " ++ path ++ "."
    else "edits[" ++ toString editIndex ++ "].oldText must not be empty in " ++ path ++ "."
  | .noChange totalEdits =>
    if totalEdits = 1 then
      "No changes made to " ++ path ++ ". The replacement produced identical content. " ++
        "This might indicate an issue with special characters or the text not existing as expected."
    else "No changes made to " ++ path ++ ". The replacements produced identical content."
  | .overlap previous current =>
    "edits[" ++ toString previous ++ "] and edits[" ++ toString current ++ "] overlap in " ++
      path ++ ". Merge them into one edit or target disjoint regions."
  | .outsideBase => "Replacement range is outside the base content."
  | .lineCount =>
    "Cannot preserve unchanged lines because the base content has a different line count."

abbrev TextReplacement := Region UInt16

structure MatchedEdit where
  editIndex : Nat
  replacement : TextReplacement

def applyReplacements (content : Units) (replacements : List TextReplacement) (offset : Nat) :
    Units :=
  replacements.foldr
    (fun replacement => Region.splice { replacement with start := replacement.start - offset })
    content

/-- The lines of a text, each with its line feed; `line` is the one being read. -/
def linesFrom (line : Units) : Units → List Units
  | [] => if line = [] then [] else [line]
  | unit :: rest =>
    if unit = lf then (line ++ [unit]) :: linesFrom [] rest else linesFrom (line ++ [unit]) rest

def splitLinesWithEndings (content : Units) : List Units := linesFrom [] content

structure LineSpan where
  start : Nat
  stop : Nat

def spansFrom : Nat → List Units → List LineSpan
  | _, [] => []
  | offset, line :: rest =>
    { start := offset, stop := offset + line.length } :: spansFrom (offset + line.length) rest

def getLineSpans (content : Units) : List LineSpan := spansFrom 0 (splitLinesWithEndings content)

structure LineRange where
  startLine : Nat
  endLine : Nat

def getReplacementLineRange (lines : List LineSpan) (replacement : TextReplacement) :
    Except EditFault LineRange :=
  match lines.findIdx? fun line =>
      line.start ≤ replacement.start && replacement.start < line.stop with
  | none => .error .outsideBase
  | some startLine =>
    match (lines.drop startLine).findIdx? fun line => replacement.stop ≤ line.stop with
    | none => .error .outsideBase
    | some later => .ok { startLine := startLine, endLine := startLine + later + 1 }

structure LineGroup where
  range : LineRange
  replacements : List TextReplacement

/-- One round of the grouping loop; the current group is the last of `groups`. -/
def addToGroups (lines : List LineSpan) (groups : List LineGroup) (replacement : TextReplacement) :
    Except EditFault (List LineGroup) := do
  let range ← getReplacementLineRange lines replacement
  match groups.getLast? with
  | some current =>
    if range.startLine < current.range.endLine then
      .ok (groups.dropLast ++
        [{ range := { current.range with endLine := max current.range.endLine range.endLine }
           replacements := current.replacements ++ [replacement] }])
    else .ok (groups ++ [{ range := range, replacements := [replacement] }])
  | none => .ok [{ range := range, replacements := [replacement] }]

/-- The output loop, from the line `originalLineIndex` on. -/
def writeGroups (originalLines : List Units) (baseContent : Units) (baseLines : List LineSpan) :
    Nat → List LineGroup → Units
  | originalLineIndex, [] => (originalLines.drop originalLineIndex).flatten
  | originalLineIndex, group :: rest =>
    let groupStart := (baseLines[group.range.startLine]?.map LineSpan.start).getD 0
    let groupEnd := (baseLines[group.range.endLine - 1]?.map LineSpan.stop).getD 0
    ((originalLines.take group.range.startLine).drop originalLineIndex).flatten ++
      applyReplacements ((baseContent.take groupEnd).drop groupStart) group.replacements
        groupStart ++ writeGroups originalLines baseContent baseLines group.range.endLine rest

def sortReplacements (replacements : List TextReplacement) : List TextReplacement :=
  replacements.insertionSort fun first second => first.start ≤ second.start

def applyReplacementsPreservingUnchangedLines (originalContent baseContent : Units)
    (replacements : List TextReplacement) : Except EditFault Units := do
  let originalLines := splitLinesWithEndings originalContent
  let baseLines := getLineSpans baseContent
  if originalLines.length ≠ baseLines.length then .error .lineCount
  else
    let groups ← (sortReplacements replacements).foldlM (addToGroups baseLines) []
    .ok (writeGroups originalLines baseContent baseLines 0 groups)

structure Edit where
  oldText : Units
  newText : Units
  deriving DecidableEq

def Edit.normalize (edit : Edit) : Edit :=
  { oldText := normalizeToLF edit.oldText, newText := normalizeToLF edit.newText }

structure AppliedEditsResult where
  baseContent : Units
  newContent : Units

def checkOldTexts (totalEdits : Nat) : Nat → List Edit → Except EditFault Unit
  | _, [] => .ok ()
  | editIndex, edit :: rest =>
    if edit.oldText = [] then .error (.emptyOldText editIndex totalEdits)
    else checkOldTexts totalEdits (editIndex + 1) rest

def matchEdit (nfkc : Units → Units) (base : Units) (totalEdits editIndex : Nat) (edit : Edit) :
    Except EditFault MatchedEdit :=
  let matchResult := fuzzyFindText nfkc base edit.oldText
  if matchResult.found = false then .error (.notFound editIndex totalEdits)
  else
    let occurrences := countOccurrences nfkc base edit.oldText
    if 1 < occurrences then .error (.duplicate editIndex totalEdits occurrences)
    else
      .ok { editIndex := editIndex
            replacement := { start := matchResult.index, length := matchResult.matchLength,
                             text := edit.newText } }

def matchEdits (nfkc : Units → Units) (base : Units) (totalEdits : Nat) :
    Nat → List Edit → Except EditFault (List MatchedEdit)
  | _, [] => .ok []
  | editIndex, edit :: rest => do
    let matched ← matchEdit nfkc base totalEdits editIndex edit
    let others ← matchEdits nfkc base totalEdits (editIndex + 1) rest
    .ok (matched :: others)

def sortMatches (matched : List MatchedEdit) : List MatchedEdit :=
  matched.insertionSort fun first second => first.replacement.start ≤ second.replacement.start

def checkOverlaps : List MatchedEdit → Except EditFault Unit
  | previous :: current :: rest =>
    if current.replacement.start < previous.replacement.stop then
      .error (.overlap previous.editIndex current.editIndex)
    else checkOverlaps (current :: rest)
  | _ => .ok ()

def applyEditsToNormalizedContent (nfkc : Units → Units) (normalizedContent : Units)
    (edits : List Edit) : Except EditFault AppliedEditsResult := do
  let normalizedEdits := edits.map Edit.normalize
  checkOldTexts normalizedEdits.length 0 normalizedEdits
  let usedFuzzyMatch := normalizedEdits.any fun edit =>
    (fuzzyFindText nfkc normalizedContent edit.oldText).usedFuzzyMatch
  let base :=
    if usedFuzzyMatch then normalizeForFuzzyMatch nfkc normalizedContent else normalizedContent
  let found ← matchEdits nfkc base normalizedEdits.length 0 normalizedEdits
  let matched := sortMatches found
  checkOverlaps matched
  let replacements := matched.map MatchedEdit.replacement
  let newContent ←
    if usedFuzzyMatch then
      applyReplacementsPreservingUnchangedLines normalizedContent base replacements
    else .ok (applyReplacements base replacements 0)
  if normalizedContent = newContent then .error (.noChange normalizedEdits.length)
  else .ok { baseContent := normalizedContent, newContent := newContent }

end Trpi.Tools
