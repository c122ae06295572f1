import Trpi.Library.TextSearch
import Trpi.Library.Utf16

/-!
# Stdin buffer

tui/src/stdin-buffer.ts. Input arrives as UTF-16 strings; a sequence is emitted once
it is complete, a bracketed paste as one event. The timer is left out: `flush` is
what it runs. Events are kept in the order they are emitted.
-/

namespace Trpi.Tui

open Library List
open Library.Utf16 (Units)

def esc : UInt16 := 0x1B

def bel : UInt16 := 7

/-- A code unit of plain ASCII text. -/
def ascii (c : Char) : UInt16 := UInt16.ofNat c.toNat

def text (chars : String) : Units := chars.toList.map ascii

def bracketedPasteStart : Units := text "\x1b[200~"

def bracketedPasteEnd : Units := text "\x1b[201~"

/-- `ESC \`. -/
def stringTerminator : Units := [esc, ascii '\\']

inductive SequenceStatus where
  | complete | incomplete | notEscape
  deriving DecidableEq

def isDigit (unit : UInt16) : Bool := ascii '0' ≤ unit && unit ≤ ascii '9'

/-- `/^\d+$/`. -/
def isDigits (part : Units) : Bool := part ≠ [] && part.all isDigit

/-- A CSI sequence ends with a byte of this range. -/
def isFinalByte (unit : UInt16) : Bool := 0x40 ≤ unit && unit ≤ 0x7E

/-- `<B;X;YM` or `<B;X;Ym`; the expression and the parts say the same. -/
def isMouseReport (payload : Units) : Bool :=
  let parts := split [ascii ';'] (payload.dropLast.drop 1)
  payload.head? = some (ascii '<') &&
    (payload.getLast? = some (ascii 'M') || payload.getLast? = some (ascii 'm')) &&
    parts.length = 3 && parts.all isDigits

/-- `isCompleteCsiSequence` on what follows `ESC [`. -/
def isCompleteCsiSequence (payload : Units) : SequenceStatus :=
  match payload.getLast? with
  | none => .incomplete
  | some last =>
    if isFinalByte last then
      if payload.head? = some (ascii '<') then
        if isMouseReport payload then .complete else .incomplete
      else .complete
    else .incomplete

def isCompleteOscSequence (data : Units) : SequenceStatus :=
  if stringTerminator.isSuffixOf data || [bel].isSuffixOf data then .complete else .incomplete

def isCompleteDcsSequence (data : Units) : SequenceStatus :=
  if stringTerminator.isSuffixOf data then .complete else .incomplete

def isCompleteApcSequence (data : Units) : SequenceStatus :=
  if stringTerminator.isSuffixOf data then .complete else .incomplete

def isCompleteSequence (data : Units) : SequenceStatus :=
  match data with
  | [] => .notEscape
  | first :: afterEsc =>
    if first ≠ esc then .notEscape
    else match afterEsc with
      | [] => .incomplete
      | introducer :: rest =>
        if introducer = ascii '[' then
          if rest.head? = some (ascii 'M') then
            if 6 ≤ data.length then .complete else .incomplete
          else isCompleteCsiSequence rest
        else if introducer = ascii ']' then isCompleteOscSequence data
        else if introducer = ascii 'P' then isCompleteDcsSequence data
        else if introducer = ascii '_' then isCompleteApcSequence data
        else if introducer = ascii 'O' then
          if rest = [] then .incomplete else .complete
        else .complete

/-- `/^\x1b\[(\d+)(?::\d*)?(?::\d+)?u$/`: the fields between the colons. -/
def kittyFields (sequence : Units) : Option Units :=
  if (text "\x1b[").isPrefixOf sequence && sequence.getLast? = some (ascii 'u') then
    match split [ascii ':'] (sequence.dropLast.drop 2) with
    | [codepoint] => if isDigits codepoint then some codepoint else none
    | [codepoint, shifted] =>
      if isDigits codepoint && shifted.all isDigit then some codepoint else none
    | [codepoint, shifted, base] =>
      if isDigits codepoint && shifted.all isDigit && isDigits base then some codepoint else none
    | _ => none
  else none

/-- `parseInt(digits, 10)`. -/
def parseDecimal (digits : Units) : Nat :=
  digits.foldl (fun value digit => value * 10 + (digit.toNat - 48)) 0

def parseUnmodifiedKittyPrintableCodepoint (sequence : Units) : Option Nat :=
  (kittyFields sequence).bind fun digits =>
    let codepoint := parseDecimal digits
    if 32 ≤ codepoint then some codepoint else none

/-- What begins a new escape sequence behind `ESC`. -/
def introducers : Units := text "[]OP_"

/-- The shortest complete prefix of what begins with `ESC`. -/
def sequenceEnd (remaining : Units) : Option Nat :=
  (List.range' 1 remaining.length).find? fun seqEnd =>
    isCompleteSequence (remaining.take seqEnd) ≠ .incomplete

/-- How much of a nonempty rest is the next sequence; a doubled `ESC` in front of an
introducer is only its first half. -/
def nextLength (remaining : Units) : Option Nat :=
  if remaining.head? = some esc then
    (sequenceEnd remaining).map fun seqEnd =>
      if remaining.take seqEnd = [esc, esc] ∧
          ((remaining.drop seqEnd).head?.any fun next => next ∈ introducers) then 1
      else seqEnd
  else some 1

variable {remaining : Units} {length : Nat}

theorem one_le_nextLength (next : nextLength remaining = some length) : 1 ≤ length := by
  unfold nextLength at next
  split at next
  · obtain ⟨seqEnd, found, rfl⟩ := Option.map_eq_some_iff.mp next
    have mem := mem_of_find?_eq_some found
    rw [mem_range'_1] at mem
    split
    · exact Nat.le_refl 1
    · exact mem.1
  · cases next
    exact Nat.le_refl 1

structure Extracted where
  sequences : List Units
  remainder : Units

/-- The loop of `extractCompleteSequences`; every round takes at least one unit. -/
def extractRounds : Nat → Units → Extracted
  | 0, remaining => { sequences := [], remainder := remaining }
  | rounds + 1, remaining =>
    if remaining = [] then { sequences := [], remainder := [] }
    else match nextLength remaining with
      | none => { sequences := [], remainder := remaining }
      | some length =>
        let later := extractRounds rounds (remaining.drop length)
        { later with sequences := remaining.take length :: later.sequences }

def extractCompleteSequences (buffer : Units) : Extracted := extractRounds buffer.length buffer

theorem extractRounds_of_le {rounds : Nat} (enough : remaining.length ≤ rounds) :
    extractRounds rounds remaining = extractCompleteSequences remaining := by
  have same (more : Nat) : ∀ (rounds : Nat) (remaining : Units), remaining.length ≤ rounds →
      extractRounds (rounds + more) remaining = extractRounds rounds remaining := by
    intro rounds
    induction rounds with
    | zero =>
      intro remaining empty
      rw [length_eq_zero_iff.mp (Nat.le_zero.mp empty)]
      cases more <;> rfl
    | succ rounds ih =>
      intro remaining enough
      rw [Nat.succ_add, extractRounds, extractRounds]
      split
      · rfl
      · cases next : nextLength remaining with
        | none => rfl
        | some length =>
          have shorter := one_le_nextLength next
          have fewer : (remaining.drop length).length ≤ rounds := by
            rw [length_drop]
            omega
          simp only [ih _ fewer]
  obtain ⟨more, rfl⟩ := Nat.exists_eq_add_of_le enough
  exact same more _ _ (Nat.le_refl _)

theorem extractCompleteSequences_incomplete (next : nextLength remaining = none) :
    extractCompleteSequences remaining = { sequences := [], remainder := remaining } := by
  cases remaining with
  | nil => rfl
  | cons unit rest =>
    rw [extractCompleteSequences, length_cons, extractRounds, if_neg (cons_ne_nil _ _), next]

theorem extractCompleteSequences_next (nonempty : remaining ≠ [])
    (next : nextLength remaining = some length) :
    extractCompleteSequences remaining =
      { extractCompleteSequences (remaining.drop length) with
        sequences := remaining.take length ::
          (extractCompleteSequences (remaining.drop length)).sequences } := by
  have shorter := one_le_nextLength next
  obtain ⟨rounds, size⟩ := Nat.exists_eq_succ_of_ne_zero
    (Nat.ne_of_gt (length_pos_of_ne_nil nonempty))
  have fewer : (remaining.drop length).length ≤ rounds := by
    rw [length_drop]
    omega
  rw [extractCompleteSequences, size, extractRounds, if_neg nonempty, next]
  simp only [extractRounds_of_le fewer]

inductive StdinEvent where
  | data (sequence : Units)
  | paste (content : Units)
  deriving DecidableEq

structure StdinBuffer where
  buffer : Units
  pasteMode : Bool
  pasteBuffer : Units
  pendingKittyPrintableCodepoint : Option Nat
  events : List StdinEvent

namespace StdinBuffer

def create : StdinBuffer where
  buffer := []
  pasteMode := false
  pasteBuffer := []
  pendingKittyPrintableCodepoint := none
  events := []

def emitDataSequence (s : StdinBuffer) (sequence : Units) : StdinBuffer :=
  let rawCodepoint := if sequence.length = 1 then sequence.head?.map UInt16.toNat else none
  if rawCodepoint ≠ none ∧ rawCodepoint = s.pendingKittyPrintableCodepoint then
    { s with pendingKittyPrintableCodepoint := none }
  else
    { s with
      pendingKittyPrintableCodepoint := parseUnmodifiedKittyPrintableCodepoint sequence
      events := s.events ++ [.data sequence] }

/-- What ends a paste: its event, and the text behind the end marker. -/
def finishPaste (s : StdinBuffer) (pastedContent : Units) : StdinBuffer :=
  { s with
    pasteMode := false
    pasteBuffer := []
    pendingKittyPrintableCodepoint := none
    events := s.events ++ [.paste pastedContent] }

/-- What `process` does with a buffer in paste mode: the state, and what it processes
next if the paste has ended with text behind it. -/
def processPaste (s : StdinBuffer) : StdinBuffer × Units :=
  match indexOf bracketedPasteEnd s.pasteBuffer with
  | none => (s, [])
  | some endIndex =>
    (s.finishPaste (s.pasteBuffer.take endIndex),
      s.pasteBuffer.drop (endIndex + bracketedPasteEnd.length))

/-- `process` up to the call it makes of itself. -/
def processOnce (s : StdinBuffer) (str : Units) : StdinBuffer × Units :=
  if str = [] ∧ s.buffer = [] then (s.emitDataSequence [], [])
  else
    let buffer := s.buffer ++ str
    if s.pasteMode then
      processPaste { s with pasteBuffer := s.pasteBuffer ++ buffer, buffer := [] }
    else match indexOf bracketedPasteStart buffer with
      | some startIndex =>
        let before := extractCompleteSequences (buffer.take startIndex)
        let emitted := before.sequences.foldl emitDataSequence s
        processPaste
          { emitted with
            pendingKittyPrintableCodepoint := none
            pasteMode := true
            pasteBuffer := buffer.drop (startIndex + bracketedPasteStart.length)
            buffer := [] }
      | none =>
        let result := extractCompleteSequences buffer
        (result.sequences.foldl emitDataSequence { s with buffer := result.remainder }, [])

/-- Every call of itself has lost a paste end marker. -/
def processCalls : Nat → StdinBuffer → Units → StdinBuffer
  | 0, s, _ => s
  | calls + 1, s, str =>
    let (next, remaining) := s.processOnce str
    if remaining = [] then next else processCalls calls next remaining

def process (s : StdinBuffer) (str : Units) : StdinBuffer :=
  processCalls (s.pasteBuffer.length + s.buffer.length + str.length + 1) s str

/-- Strings delivered one after the other, before any timeout. -/
def processAll (s : StdinBuffer) (chunks : List Units) : StdinBuffer :=
  chunks.foldl process s

def flush (s : StdinBuffer) : StdinBuffer × List Units :=
  if s.buffer = [] then (s, [])
  else ({ s with buffer := [], pendingKittyPrintableCodepoint := none }, [s.buffer])

def clear (s : StdinBuffer) : StdinBuffer := { create with events := s.events }

def size (s : StdinBuffer) : Nat := s.pasteBuffer.length + s.buffer.length

variable {s : StdinBuffer}

theorem processPaste_shrinks (waits : s.buffer = []) (more : (processPaste s).2 ≠ []) :
    (processPaste s).1.size = 0 ∧ (processPaste s).2.length < s.pasteBuffer.length := by
  unfold processPaste at more ⊢
  split
  · rename_i absent
    rw [absent] at more
    exact absurd rfl more
  · rename_i endIndex found
    rw [found] at more
    have rest := length_pos_of_ne_nil more
    have marker : bracketedPasteEnd.length = 6 := rfl
    simp only [length_drop] at rest ⊢
    refine ⟨by simp [size, finishPaste, waits], by omega⟩

theorem processOnce_shrinks {str : Units} (more : (s.processOnce str).2 ≠ []) :
    (s.processOnce str).1.size = 0 ∧ (s.processOnce str).2.length < s.size + str.length := by
  unfold processOnce at more ⊢
  split
  · rename_i empty
    rw [if_pos empty] at more
    exact absurd rfl more
  · rename_i nonempty
    rw [if_neg nonempty] at more
    simp only at more ⊢
    split
    · rename_i mode
      rw [if_pos mode] at more
      have shrinks := processPaste_shrinks rfl more
      simp only [length_append] at shrinks
      refine ⟨shrinks.1, ?_⟩
      have bound := shrinks.2
      unfold size
      omega
    · rename_i mode
      rw [if_neg mode] at more
      split
      · rename_i startIndex found
        rw [found] at more
        have shrinks := processPaste_shrinks rfl more
        simp only [length_drop, length_append] at shrinks
        refine ⟨shrinks.1, ?_⟩
        have bound := shrinks.2
        unfold size
        omega
      · rename_i found
        rw [found] at more
        exact absurd rfl more

theorem processCalls_enough (more : Nat) : ∀ (calls : Nat) (s : StdinBuffer) (str : Units),
    s.size + str.length < calls → processCalls (calls + more) s str = processCalls calls s str := by
  intro calls
  induction calls with
  | zero =>
    intro s str few
    cases few
  | succ calls ih =>
    intro s str few
    rw [Nat.succ_add, processCalls, processCalls]
    by_cases last : (s.processOnce str).2 = []
    · simp only [if_pos last]
    · have shrinks := processOnce_shrinks last
      simp only [if_neg last]
      exact ih _ _ (by omega)

theorem process_eq (s : StdinBuffer) (str : Units) :
    s.process str =
      if (s.processOnce str).2 = [] then (s.processOnce str).1
      else (s.processOnce str).1.process (s.processOnce str).2 := by
  rw [process, processCalls]
  by_cases last : (s.processOnce str).2 = []
  · simp only [if_pos last]
  · have shrinks := processOnce_shrinks last
    simp only [if_neg last]
    obtain ⟨more, enough⟩ := Nat.exists_eq_add_of_lt shrinks.2
    have size : s.pasteBuffer.length + s.buffer.length + str.length =
        (s.processOnce str).1.size + (s.processOnce str).2.length + 1 + more := by
      unfold StdinBuffer.size at enough shrinks ⊢
      omega
    rw [size, process]
    exact processCalls_enough more _ _ _ (Nat.lt_succ_self _)

end StdinBuffer

end Trpi.Tui
