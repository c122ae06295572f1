import Trpi.Harness.Truncate
import Trpi.Library.TextCut

/-!
# Bounded capture of shell output

The capture keeps part of the text it was given and counters of all of it. The view it
reports is the truncation of the part it kept, with the totals of the counters. Only what
the view is made of is modelled here: publication and the spill file are not.
-/

namespace Trpi.Harness

open Library
open Library.Utf16 (Units units scalars textEncode)

inductive Retention where
  | head
  | tail
  deriving DecidableEq

structure ShellOutputLimits where
  maxBytes : Option Nat
  maxLines : Option Nat
  retain : Option Retention

structure ShellOutputView where
  text : Units
  truncation : Truncation
  lastLineBytes : Option Nat

structure OutputCapture where
  maxBytes : Nat
  maxLines : Nat
  retain : Retention
  decoder : TextDecoder
  buffer : Units
  bufferBytes : Nat
  totalBytes : Nat
  newlines : Nat
  endsWithNewline : Bool
  currentLineBytes : Nat
  disposed : Bool

namespace OutputCapture

/-- The constructor. -/
def create (limits : Option ShellOutputLimits) : Except String OutputCapture :=
  let maxBytes := (limits.bind (·.maxBytes)).getD DEFAULT_MAX_BYTES
  let maxLines := (limits.bind (·.maxLines)).getD DEFAULT_MAX_LINES
  if maxBytes = 0 then .error "Output maxBytes must be a positive finite number"
  else if maxLines = 0 then .error "Output maxLines must be a positive integer"
  else .ok
    { maxBytes := maxBytes
      maxLines := maxLines
      retain := (limits.bind (·.retain)).getD .tail
      decoder := .new
      buffer := []
      bufferBytes := 0
      totalBytes := 0
      newlines := 0
      endsWithNewline := true
      currentLineBytes := 0
      disposed := false }

end OutputCapture

/-- The control units outside tab and newline, and the annotation units. -/
def isInvalidShellOutput (unit : UInt16) : Bool :=
  unit.toNat ≤ 0x08 || (0x0b ≤ unit.toNat && unit.toNat ≤ 0x1f) ||
    (0xfff9 ≤ unit.toNat && unit.toNat ≤ 0xfffb)

def sanitizeShellOutput (text : Units) : Units := text.filter fun unit => !isInvalidShellOutput unit

def countNewlines (text : Units) : Nat := text.count newline

/-- `text.slice(text.lastIndexOf("\n") + 1)`. -/
def afterLastNewline (text : Units) : Units :=
  (text.reverse.takeWhile fun unit => unit != newline).reverse

def trimToLastUtf8Bytes (text : Units) (maxBytes : Nat) : Units :=
  let bytes := textEncode text
  if bytes.length ≤ maxBytes then text
  else units (decodeText ((bytes.drop (bytes.length - maxBytes)).dropWhile Utf8.isContinuation))

def trimToFirstUtf8Bytes (text : Units) (maxBytes : Nat) : Units :=
  let bytes := textEncode text
  if bytes.length ≤ maxBytes then text
  else units (decodeText (bytes.take (Utf8.backUp bytes maxBytes)))

namespace OutputCapture

def trim (capture : OutputCapture) (text : Units) (guard : Nat) : Units :=
  if capture.retain = .tail then trimToLastUtf8Bytes text guard else trimToFirstUtf8Bytes text guard

def count (capture : OutputCapture) (text : Units) : OutputCapture :=
  let textBytes := utf8ByteLength text
  { capture with
    totalBytes := capture.totalBytes + textBytes
    newlines := capture.newlines + countNewlines text
    endsWithNewline := text.getLast? == some newline
    currentLineBytes :=
      if newline ∈ text then utf8ByteLength (afterLastNewline text)
      else capture.currentLineBytes + textBytes
    buffer := capture.buffer ++ text
    bufferBytes := capture.bufferBytes + textBytes }

/-- Cut the buffer when it holds more than twice the guard. -/
def bound (capture : OutputCapture) : OutputCapture :=
  let guard := capture.maxBytes * 2
  if guard * 2 < capture.bufferBytes then
    let buffer := capture.trim capture.buffer guard
    { capture with buffer := buffer, bufferBytes := utf8ByteLength buffer }
  else capture

def appendText (capture : OutputCapture) (text : Units) : OutputCapture :=
  if text = [] then capture else (capture.count text).bound

/-- The decoder's `decode()`, appended. -/
def flushDecoder (capture : OutputCapture) : OutputCapture :=
  { capture with decoder := .new }.appendText (units capture.decoder.flush)

def totalLines (capture : OutputCapture) : Nat :=
  capture.newlines + if capture.endsWithNewline ∨ capture.totalBytes = 0 then 0 else 1

def truncated (capture : OutputCapture) : Bool :=
  capture.maxBytes < capture.totalBytes || capture.maxLines < capture.totalLines

end OutputCapture

inductive Chunk where
  | text (chunk : Units)
  | bytes (chunk : List UInt8)

namespace OutputCapture

def push (capture : OutputCapture) (chunk : Chunk) : OutputCapture :=
  if capture.disposed then capture
  else
    match chunk with
    | .text chunk => capture.flushDecoder.appendText chunk
    | .bytes chunk =>
      { capture with decoder := (capture.decoder.stream chunk).1 }.appendText
        (units (capture.decoder.stream chunk).2)

def finish (capture : OutputCapture) : OutputCapture :=
  if capture.disposed then capture else capture.flushDecoder

def dispose (capture : OutputCapture) : OutputCapture := { capture with disposed := true }

def retained (capture : OutputCapture) : TruncationResult :=
  let options := { maxBytes := some capture.maxBytes, maxLines := some capture.maxLines }
  match capture.retain with
  | .head => truncateHead capture.buffer options
  | .tail => truncateTail capture.buffer options

def snapshot (capture : OutputCapture) : ShellOutputView :=
  let retained := capture.retained
  let totalLines := capture.totalLines
  let truncated := capture.truncated
  { text := sanitizeShellOutput retained.content
    truncation :=
      { retained.toTruncation with
        truncated := truncated
        truncatedBy :=
          if truncated then some (if capture.maxLines < totalLines then .lines else .bytes)
          else none
        totalBytes := capture.totalBytes
        totalLines := totalLines }
    lastLineBytes := if retained.lastLinePartial then some capture.currentLineBytes else none }

end OutputCapture

end Trpi.Harness
