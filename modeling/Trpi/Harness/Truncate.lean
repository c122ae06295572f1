import Trpi.Library.TextSearch
import Trpi.Library.Utf16

/-!
# Truncating tool output

Strings are UTF-16. Content is kept from its head or from its tail in whole lines, up to
a number of lines and a number of UTF-8 bytes. From the tail a last line that is too long
by itself is kept in part. Both directions collect lines by one loop; from the tail it
runs over the lines backwards.
-/

namespace Trpi.Harness

open Library
open Library.Utf16 (Units isLead isTrail)

def DEFAULT_MAX_LINES : Nat := 2000

def DEFAULT_MAX_BYTES : Nat := 51200

inductive Limit where
  | lines
  | bytes
  deriving DecidableEq

/-- A truncation result without its content. -/
structure Truncation where
  truncated : Bool
  truncatedBy : Option Limit
  totalLines : Nat
  totalBytes : Nat
  outputLines : Nat
  outputBytes : Nat
  lastLinePartial : Bool
  firstLineExceedsLimit : Bool
  maxLines : Nat
  maxBytes : Nat

structure TruncationResult extends Truncation where
  content : Units

structure TruncationOptions where
  maxLines : Option Nat
  maxBytes : Option Nat

def newline : UInt16 := 0x0A

def replacementUnit : UInt16 := 0xFFFD

/-- The bytes of a unit that is not half of a surrogate pair. -/
def unitBytes (unit : UInt16) : Nat :=
  if unit.toNat ≤ 0x7f then 1 else if unit.toNat ≤ 0x7ff then 2 else 3

def utf8ByteLength : Units → Nat
  | [] => 0
  | [unit] => unitBytes unit
  | unit :: next :: rest =>
    if isLead unit && isTrail next then 4 + utf8ByteLength rest
    else unitBytes unit + utf8ByteLength (next :: rest)

def splitLinesForCounting (content : Units) : List Units :=
  if content = [] then []
  else if content.getLast? = some newline then (split [newline] content).dropLast
  else split [newline] content

def isSurrogate (unit : UInt16) : Bool := isLead unit || isTrail unit

def replaceUnpairedSurrogates : Units → Units
  | [] => []
  | [unit] => [if isSurrogate unit then replacementUnit else unit]
  | unit :: next :: rest =>
    if isLead unit && isTrail next then unit :: next :: replaceUnpairedSurrogates rest
    else (if isSurrogate unit then replacementUnit else unit) ::
      replaceUnpairedSurrogates (next :: rest)

/-- The loop from the end of a string, over its units backwards: what fits and whether
that has an unpaired surrogate. -/
def fitFromEnd (maxBytes : Nat) : Nat → Units → Units → Bool → Units × Bool
  | _, [], output, needsReplacement => (output, needsReplacement)
  | outputBytes, [code], output, needsReplacement =>
    if maxBytes < outputBytes + unitBytes code then (output, needsReplacement)
    else (code :: output, needsReplacement || isSurrogate code)
  | outputBytes, code :: previous :: rest, output, needsReplacement =>
    if isTrail code && isLead previous then
      if maxBytes < outputBytes + 4 then (output, needsReplacement)
      else fitFromEnd maxBytes (outputBytes + 4) rest (previous :: code :: output) needsReplacement
    else if maxBytes < outputBytes + unitBytes code then (output, needsReplacement)
    else fitFromEnd maxBytes (outputBytes + unitBytes code) (previous :: rest) (code :: output)
      (needsReplacement || isSurrogate code)

def truncateStringToBytesFromEnd (str : Units) (maxBytes : Nat) : Units :=
  if maxBytes = 0 then []
  else
    let fit := fitFromEnd maxBytes 0 str.reverse [] false
    if fit.2 then replaceUnpairedSurrogates fit.1 else fit.1

/-- The lines taken, in the order they were taken, their bytes, and the line at which the
loop broke. -/
structure Collected where
  lines : List Units
  bytes : Nat
  overflow : Option Units

def Collected.none : Collected := { lines := [], bytes := 0, overflow := Option.none }

/-- The bytes of a line and of the newline between it and the lines there are. -/
def Collected.cost (collected : Collected) (line : Units) : Nat :=
  utf8ByteLength line + if collected.lines = [] then 0 else 1

def Collected.push (collected : Collected) (line : Units) : Collected where
  lines := collected.lines ++ [line]
  bytes := collected.bytes + collected.cost line
  overflow := collected.overflow

def collectLines (maxLines maxBytes : Nat) : Collected → List Units → Collected
  | collected, [] => collected
  | collected, line :: rest =>
    if maxLines ≤ collected.lines.length then collected
    else if maxBytes < collected.bytes + collected.cost line then
      { collected with overflow := some line }
    else collectLines maxLines maxBytes (collected.push line) rest

/-- `truncatedBy` after the loop. -/
def Collected.truncatedBy (collected : Collected) (maxLines maxBytes : Nat)
    (outputLines : List Units) (outputBytesCount : Nat) : Limit :=
  if maxLines ≤ outputLines.length ∧ outputBytesCount ≤ maxBytes then .lines
  else if collected.overflow.isSome then .bytes
  else .lines

def join (lines : List Units) : Units := List.intercalate [newline] lines

def untruncated (content : Units) (totalLines totalBytes maxLines maxBytes : Nat) :
    TruncationResult where
  content := content
  truncated := false
  truncatedBy := none
  totalLines := totalLines
  totalBytes := totalBytes
  outputLines := totalLines
  outputBytes := totalBytes
  lastLinePartial := false
  firstLineExceedsLimit := false
  maxLines := maxLines
  maxBytes := maxBytes

def truncateHead (content : Units) (options : TruncationOptions) : TruncationResult :=
  let maxLines := options.maxLines.getD DEFAULT_MAX_LINES
  let maxBytes := options.maxBytes.getD DEFAULT_MAX_BYTES
  let totalBytes := utf8ByteLength content
  let lines := splitLinesForCounting content
  let totalLines := lines.length
  if totalLines ≤ maxLines ∧ totalBytes ≤ maxBytes then
    untruncated content totalLines totalBytes maxLines maxBytes
  else if maxBytes < utf8ByteLength (lines.headD []) then
    { content := []
      truncated := true
      truncatedBy := some .bytes
      totalLines := totalLines
      totalBytes := totalBytes
      outputLines := 0
      outputBytes := 0
      lastLinePartial := false
      firstLineExceedsLimit := true
      maxLines := maxLines
      maxBytes := maxBytes }
  else
    let collected := collectLines maxLines maxBytes .none lines
    let outputContent := join collected.lines
    { content := outputContent
      truncated := true
      truncatedBy := some (collected.truncatedBy maxLines maxBytes collected.lines collected.bytes)
      totalLines := totalLines
      totalBytes := totalBytes
      outputLines := collected.lines.length
      outputBytes := utf8ByteLength outputContent
      lastLinePartial := false
      firstLineExceedsLimit := false
      maxLines := maxLines
      maxBytes := maxBytes }

/-- The lines the loop from the tail leaves and their bytes: with no line yet, the end of
the one that is too long. -/
def Collected.tailLines (collected : Collected) (maxBytes : Nat) : List Units × Nat × Bool :=
  match collected.lines, collected.overflow with
  | [], some line =>
    let truncatedLine := truncateStringToBytesFromEnd line maxBytes
    ([truncatedLine], utf8ByteLength truncatedLine, true)
  | lines, _ => (lines.reverse, collected.bytes, false)

def truncateTail (content : Units) (options : TruncationOptions) : TruncationResult :=
  let maxLines := options.maxLines.getD DEFAULT_MAX_LINES
  let maxBytes := options.maxBytes.getD DEFAULT_MAX_BYTES
  let totalBytes := utf8ByteLength content
  let lines := splitLinesForCounting content
  let totalLines := lines.length
  if totalLines ≤ maxLines ∧ totalBytes ≤ maxBytes then
    untruncated content totalLines totalBytes maxLines maxBytes
  else
    let collected := collectLines maxLines maxBytes .none lines.reverse
    let output := collected.tailLines maxBytes
    let outputContent := join output.1
    { content := outputContent
      truncated := true
      truncatedBy := some (collected.truncatedBy maxLines maxBytes output.1 output.2.1)
      totalLines := totalLines
      totalBytes := totalBytes
      outputLines := output.1.length
      outputBytes := utf8ByteLength outputContent
      lastLinePartial := output.2.2
      firstLineExceedsLimit := false
      maxLines := maxLines
      maxBytes := maxBytes }

end Trpi.Harness
