import Trpi.Tui.StdinUnits

/-!
# Framing of terminal input

However a stream of units is cut into strings, the buffer emits one event for each
unit, in order. Between two strings it holds either the beginning of a unit or, in a
paste, what has come of its content; what it makes of the next string depends on
nothing else.
-/

namespace Trpi.Tui

open Library InputUnit StdinBuffer List
open Library.Utf16 (Units)

/-- One character, or a framed sequence. -/
def Whole (bytes : Units) : Prop := (∃ c, c ≠ esc ∧ bytes = [c]) ∨ Framed bytes

/-- The beginning of something framed. -/
def Begun (bytes : Units) : Prop :=
  bytes = [] ∨ ∃ whole : Units, whole.head? = some esc ∧
    (∀ n, 0 < n → n < whole.length → isCompleteSequence (whole.take n) = .incomplete) ∧
    bytes <+: whole ∧ bytes.length < whole.length

variable {bytes last content : Units} {sequences : List Units} {position : Nat}

theorem Framed.sequenceEnd (framed : Framed bytes) (rest : Units) :
    sequenceEnd (bytes ++ rest) = some bytes.length := by
  have long : 0 < bytes.length := by
    cases bytes with
    | nil => exact absurd framed.starts (by simp)
    | cons unit rest => exact Nat.succ_pos _
  rw [Tui.sequenceEnd, find?_range'_eq_some]
  refine ⟨?_, ?_, ?_⟩
  · rw [take_left, framed.complete]
    rfl
  · rw [mem_range'_1, length_append]
    omega
  · intro n first inside
    rw [take_append_of_le_length (Nat.le_of_lt inside), framed.partials n first inside]
    rfl

theorem sequenceEnd_begun {whole : Units}
    (partials : ∀ n, 0 < n → n < whole.length → isCompleteSequence (whole.take n) = .incomplete)
    (isPrefix : bytes <+: whole) (shorter : bytes.length < whole.length) :
    sequenceEnd bytes = none := by
  rw [sequenceEnd, find?_eq_none]
  intro n mem
  rw [mem_range'_1] at mem
  obtain ⟨more, rfl⟩ := isPrefix
  have incomplete := partials n (by omega) (by omega)
  rw [take_append_of_le_length (by omega)] at incomplete
  rw [incomplete]
  decide

theorem Whole.ne_nil (whole : Whole bytes) : bytes ≠ [] := by
  rcases whole with ⟨c, _, rfl⟩ | framed
  · exact cons_ne_nil _ _
  · rintro rfl
    exact absurd framed.starts (by simp)

theorem Whole.nextLength (whole : Whole bytes) (rest : Units) :
    nextLength (bytes ++ rest) = some bytes.length := by
  rcases whole with ⟨c, plain, rfl⟩ | framed
  · have other : ([c] ++ rest).head? ≠ some esc := fun same => plain (Option.some.inj same)
    rw [Tui.nextLength, if_neg other]
    rfl
  · have starts : (bytes ++ rest).head? = some esc := by
      rw [head?_append, framed.starts]
      rfl
    rw [Tui.nextLength, if_pos starts, framed.sequenceEnd]
    simp only [Option.map_some, take_left]
    rw [if_neg fun double => framed.single double.1]

/-- Whole sequences with the beginning of another behind them come apart as they are. -/
theorem extractCompleteSequences_flatten (wholes : ∀ bytes ∈ sequences, Whole bytes)
    (begun : Begun last) :
    extractCompleteSequences (sequences.flatten ++ last) =
      { sequences := sequences, remainder := last } := by
  induction sequences with
  | nil =>
    rw [flatten_nil, nil_append]
    rcases begun with rfl | ⟨whole, starts, partials, isPrefix, shorter⟩
    · rfl
    · cases last with
      | nil => rfl
      | cons unit rest =>
        apply extractCompleteSequences_incomplete
        have head : (unit :: rest).head? = some esc := by
          obtain ⟨more, rfl⟩ := isPrefix
          exact starts
        rw [nextLength, if_pos head, sequenceEnd_begun partials isPrefix shorter]
        rfl
  | cons bytes rest ih =>
    have whole := wholes bytes mem_cons_self
    have later := ih fun other mem => wholes other (.tail _ mem)
    have next := whole.nextLength (rest.flatten ++ last)
    have nonempty : bytes ++ (rest.flatten ++ last) ≠ [] :=
      append_ne_nil_of_left_ne_nil whole.ne_nil _
    rw [flatten_cons, append_assoc, extractCompleteSequences_next nonempty next,
      drop_left, take_left, later]

section

variable (wholes : ∀ bytes ∈ sequences, Whole bytes)

include wholes

theorem unmarked_flatten (inside : position < sequences.flatten.length) (rest : Units) :
    ¬ bracketedPasteStart <+: (sequences.flatten ++ rest).drop position := by
  induction sequences generalizing position with
  | nil => cases inside
  | cons bytes sequences ih =>
    rw [flatten_cons, append_assoc]
    rw [flatten_cons, length_append] at inside
    by_cases early : position < bytes.length
    · rw [drop_append_of_le_length (Nat.le_of_lt early)]
      rcases wholes bytes mem_cons_self with ⟨c, plain, rfl⟩ | framed
      · cases position with
        | zero =>
          intro marker
          exact plain (cons_prefix_cons.mp marker).1.symm
        | succ position => exact absurd early (by simp)
      · exact framed.unmarked position early _
    · obtain ⟨later, rfl⟩ := Nat.exists_eq_add_of_le (Nat.not_lt.mp early)
      rw [drop_append, drop_of_length_le (Nat.le_add_right _ _), nil_append,
        Nat.add_sub_cancel_left]
      exact ih (fun other mem => wholes other (.tail _ mem)) (by omega)

theorem indexOf_marker (rest : Units) :
    indexOf bracketedPasteStart (sequences.flatten ++ (bracketedPasteStart ++ rest)) =
      some sequences.flatten.length := by
  apply indexOf_eq_some
  · rw [length_append]
    omega
  · rw [drop_left]
    exact prefix_append _ _
  · intro earlier before
    exact unmarked_flatten wholes before _

theorem indexOf_no_marker
    (unmarked : ∀ position, ¬ bracketedPasteStart <+: last.drop position) :
    indexOf bracketedPasteStart (sequences.flatten ++ last) = none := by
  apply indexOf_eq_none
  intro position
  by_cases inside : position < sequences.flatten.length
  · exact unmarked_flatten wholes inside _
  · obtain ⟨later, rfl⟩ := Nat.exists_eq_add_of_le (Nat.not_lt.mp inside)
    rw [drop_append, drop_of_length_le (Nat.le_add_right _ _), nil_append, Nat.add_sub_cancel_left]
    exact unmarked later

end

theorem Framed.unmarked_prefix (framed : Framed bytes) (isPrefix : last <+: bytes) :
    ∀ position, ¬ bracketedPasteStart <+: last.drop position := by
  intro position marker
  obtain ⟨more, rfl⟩ := isPrefix
  have inside : position < last.length := by
    have long := marker.length_le
    rw [length_drop, show bracketedPasteStart.length = 6 from rfl] at long
    omega
  have within : position < (last ++ more).length := by
    rw [length_append]
    omega
  apply framed.unmarked position within []
  rw [append_nil, drop_append_of_le_length (Nat.le_of_lt inside)]
  exact marker.trans (prefix_append _ _)

theorem unmarked_short (short : last.length < bracketedPasteStart.length) :
    ∀ position, ¬ bracketedPasteStart <+: last.drop position := by
  intro position marker
  have long := marker.length_le
  rw [length_drop] at long
  omega

theorem end_not_before (lacks : ¬ bracketedPasteEnd <:+: content)
    (before : position < content.length) (rest : Units) :
    ¬ bracketedPasteEnd <+: (content ++ (bracketedPasteEnd ++ rest)).drop position := by
  rw [drop_append_of_le_length (Nat.le_of_lt before)]
  intro marker
  have suffix : content.drop position <:+ content := drop_suffix _ _
  rcases prefix_or_prefix_of_prefix marker (prefix_append _ _) with inner | outer
  · exact lacks (inner.isInfix.trans suffix.isInfix)
  · obtain ⟨tail, same⟩ := outer
    cases dropped : content.drop position with
    | nil =>
      have length := congrArg length dropped
      rw [length_drop, length_nil] at length
      omega
    | cons unit front =>
      rw [dropped] at same marker suffix
      have tailPlain : esc ∉ front ++ tail := by
        have back : front ++ tail = text "[201~" := (cons.inj same).2
        rw [back]
        decide
      rw [← same, prefix_append_right_inj] at marker
      cases tail with
      | nil =>
        rw [append_nil] at same
        exact lacks (same ▸ suffix.isInfix)
      | cons first tail =>
        have starts : first = esc := by
          have head : unit = esc := (cons.inj same).1
          rw [head] at marker
          exact (cons_prefix_cons.mp marker).1
        exact tailPlain (mem_append_right _ (starts ▸ mem_cons_self))

theorem indexOf_end {rest : Units} (lacks : ¬ bracketedPasteEnd <:+: content) :
    indexOf bracketedPasteEnd (content ++ (bracketedPasteEnd ++ rest)) = some content.length := by
  apply indexOf_eq_some
  · rw [length_append]
    omega
  · rw [drop_left]
    exact prefix_append _ _
  · intro earlier before
    exact end_not_before lacks before _

/-- As long as the end marker has not come whole, it is not found. -/
theorem indexOf_end_begun {seen : Units} (lacks : ¬ bracketedPasteEnd <:+: content)
    (isPrefix : seen <+: content ++ bracketedPasteEnd)
    (shorter : seen.length < (content ++ bracketedPasteEnd).length) :
    indexOf bracketedPasteEnd seen = none := by
  apply indexOf_eq_none
  intro position marker
  obtain ⟨more, same⟩ := isPrefix
  have long := marker.length_le
  have six : bracketedPasteEnd.length = 6 := rfl
  rw [length_drop, six] at long
  rw [length_append, six] at shorter
  apply end_not_before lacks (show position < content.length by omega) []
  rw [append_nil, ← same, drop_append_of_le_length (by omega)]
  exact marker.trans (prefix_append _ _)

namespace InputUnit

def event : InputUnit → StdinEvent
  | .paste content => .paste content
  | unit => .data unit.units

def reports : InputUnit → Option Nat
  | .paste _ => none
  | unit => parseUnmodifiedKittyPrintableCodepoint unit.units

/-- A character that the sequence before it has already reported. -/
def repeats (pending : Option Nat) : InputUnit → Bool
  | .char unit => pending = some unit.toNat
  | _ => false

end InputUnit

/-- One event for each unit, except for a repeated character. -/
def deliver : Option Nat → List InputUnit → List StdinEvent
  | _, [] => []
  | pending, unit :: rest =>
    if unit.repeats pending then deliver none rest else unit.event :: deliver unit.reports rest

def pendingAfter : Option Nat → List InputUnit → Option Nat
  | pending, [] => pending
  | pending, unit :: rest =>
    if unit.repeats pending then pendingAfter none rest else pendingAfter unit.reports rest

theorem deliver_append (pending : Option Nat) (first second : List InputUnit) :
    deliver pending (first ++ second) =
      deliver pending first ++ deliver (pendingAfter pending first) second := by
  induction first generalizing pending with
  | nil => rfl
  | cons unit rest ih =>
    rw [cons_append, deliver, deliver, pendingAfter]
    split
    · exact ih _
    · rw [ih, cons_append]

theorem pendingAfter_append (pending : Option Nat) (first second : List InputUnit) :
    pendingAfter pending (first ++ second) = pendingAfter (pendingAfter pending first) second := by
  induction first generalizing pending with
  | nil => rfl
  | cons unit rest ih =>
    rw [cons_append, pendingAfter, pendingAfter]
    split
    · exact ih _
    · exact ih _

namespace StdinBuffer

def delivered (s : StdinBuffer) (units : List InputUnit) : StdinBuffer :=
  { s with
    pendingKittyPrintableCodepoint := pendingAfter s.pendingKittyPrintableCodepoint units
    events := s.events ++ deliver s.pendingKittyPrintableCodepoint units }

theorem Framed.two_le {bytes : Units} (framed : Framed bytes) : 2 ≤ bytes.length := by
  have starts := framed.starts
  have complete := framed.complete
  rcases bytes with _ | ⟨first, _ | ⟨second, rest⟩⟩
  · cases starts
  · rw [Option.some.inj starts] at complete
    cases complete
  · simp

theorem emit_long (s : StdinBuffer) {sequence : Units} (long : 2 ≤ sequence.length) :
    s.emitDataSequence sequence =
      { s with
        pendingKittyPrintableCodepoint := parseUnmodifiedKittyPrintableCodepoint sequence
        events := s.events ++ [.data sequence] } := by
  have several : ¬ sequence.length = 1 := by omega
  simp [emitDataSequence, several]

variable {unit : InputUnit} {units : List InputUnit} {s : StdinBuffer}

theorem emit_unit (s : StdinBuffer) (wellFormed : unit.WellFormed)
    (sequence : unit.isPaste = false) : s.emitDataSequence unit.units = s.delivered [unit] := by
  cases unit with
  | char c =>
    have raw : (if [c].length = 1 then [c].head?.map UInt16.toNat else none) = some c.toNat := rfl
    have units : (char c).units = [c] := rfl
    rw [emitDataSequence, units, raw]
    by_cases pending : s.pendingKittyPrintableCodepoint = some c.toNat
    · simp [delivered, deliver, pendingAfter, repeats, pending]
    · have other : ¬ some c.toNat = s.pendingKittyPrintableCodepoint := fun same =>
        pending same.symm
      simp [delivered, deliver, pendingAfter, repeats, pending, other, event, reports, units]
  | paste content => cases sequence
  | _ =>
    have long := Framed.two_le (framed_of_wellFormed wellFormed (by simp) rfl)
    rw [emit_long s long]
    rfl

theorem emit_units (s : StdinBuffer) (wellFormed : ∀ unit ∈ units, unit.WellFormed)
    (sequences : ∀ unit ∈ units, unit.isPaste = false) :
    (units.map InputUnit.units).foldl emitDataSequence s = s.delivered units := by
  induction units generalizing s with
  | nil => simp [delivered, deliver, pendingAfter]
  | cons unit rest ih =>
    rw [map_cons, foldl_cons,
      emit_unit s (wellFormed _ mem_cons_self) (sequences _ mem_cons_self),
      ih _ (fun other mem => wellFormed other (.tail _ mem))
        (fun other mem => sequences other (.tail _ mem))]
    rw [show unit :: rest = [unit] ++ rest from rfl, delivered, delivered, delivered,
      deliver_append, pendingAfter_append]
    simp

def stream (units : List InputUnit) : Units := (units.map InputUnit.units).flatten

/-- The buffer holds the beginning of the next unit. -/
structure Between (s : StdinBuffer) (units : List InputUnit) (ahead : Units) : Prop where
  mode : s.pasteMode = false
  pasteBuffer : s.pasteBuffer = []
  stream : s.buffer ++ ahead = stream units
  waiting : s.buffer = [] ∨ ∃ unit rest, units = unit :: rest ∧ s.buffer.length < unit.units.length

/-- The paste buffer holds what has come of the paste behind its start marker. -/
structure Inside (s : StdinBuffer) (content : Units) (rest : List InputUnit) (ahead : Units) :
    Prop where
  mode : s.pasteMode = true
  buffer : s.buffer = []
  stream : s.pasteBuffer ++ ahead = content ++ (bracketedPasteEnd ++ stream rest)
  waiting : s.pasteBuffer.length < (content ++ bracketedPasteEnd).length

/-- `units` are still to be delivered, and with them all events are the expected ones. -/
structure Holds (expected : List StdinEvent) (s : StdinBuffer) (units : List InputUnit)
    (ahead : Units) : Prop where
  wellFormed : ∀ unit ∈ units, unit.WellFormed
  accounted : s.events ++ deliver s.pendingKittyPrintableCodepoint units = expected
  place : Between s units ahead ∨
    ∃ content rest, units = .paste content :: rest ∧ Inside s content rest ahead

theorem stream_append (first second : List InputUnit) :
    stream (first ++ second) = stream first ++ stream second := by
  simp [stream]

theorem stream_cons (unit : InputUnit) (rest : List InputUnit) :
    stream (unit :: rest) = unit.units ++ stream rest := rfl

theorem units_ne_nil (unit : InputUnit) : unit.units ≠ [] := by
  cases unit <;> simp [units, bracketedPasteStart, text]

theorem deliver_paste (pending : Option Nat) (content : Units) (rest : List InputUnit) :
    deliver pending (.paste content :: rest) = .paste content :: deliver none rest := rfl

theorem processPaste_holds {expected : List StdinEvent} {content ahead : Units}
    {rest : List InputUnit} (mode : s.pasteMode = true) (buffer : s.buffer = [])
    (wellFormed : ∀ unit ∈ paste content :: rest, unit.WellFormed)
    (accounted : s.events ++ .paste content :: deliver none rest = expected)
    (coming : s.pasteBuffer ++ ahead = content ++ (bracketedPasteEnd ++ stream rest)) :
    ∃ units, Holds expected (processPaste s).1 units ((processPaste s).2 ++ ahead) := by
  have lacks : ¬ bracketedPasteEnd <:+: content := wellFormed _ mem_cons_self
  have seen : s.pasteBuffer <+: (content ++ bracketedPasteEnd) ++ stream rest := by
    rw [append_assoc]
    exact ⟨ahead, coming⟩
  by_cases shorter : s.pasteBuffer.length < (content ++ bracketedPasteEnd).length
  · have isPrefix : s.pasteBuffer <+: content ++ bracketedPasteEnd :=
      prefix_of_prefix_length_le seen (prefix_append _ _) (Nat.le_of_lt shorter)
    refine ⟨.paste content :: rest, wellFormed, ?_, .inr ⟨content, rest, rfl, ?_⟩⟩
    · rw [processPaste, indexOf_end_begun lacks isPrefix shorter, deliver_paste]
      exact accounted
    · rw [processPaste, indexOf_end_begun lacks isPrefix shorter]
      exact ⟨mode, buffer, coming, shorter⟩
  · have whole : content ++ bracketedPasteEnd <+: s.pasteBuffer :=
      prefix_of_prefix_length_le (prefix_append _ _) seen (Nat.not_lt.mp shorter)
    obtain ⟨more, same⟩ := whole
    rw [append_assoc] at same
    rw [← same, append_assoc, append_assoc, append_cancel_left_eq, append_cancel_left_eq] at coming
    refine ⟨rest, fun unit mem => wellFormed unit (.tail _ mem), ?_, .inl ?_⟩
    · rw [processPaste, ← same, indexOf_end lacks]
      simp only [finishPaste, take_left, append_assoc, singleton_append]
      exact accounted
    · rw [processPaste, ← same, indexOf_end lacks]
      simp only [finishPaste, ← drop_drop, drop_left]
      exact ⟨rfl, rfl, by simpa [buffer] using coming, .inl buffer⟩

/-- A prefix of joined texts is some of them and a proper part of the next. -/
theorem cut_flatten {sequences : List Units} {seen ahead : Units}
    (cut : seen ++ ahead = sequences.flatten) (nonempty : ∀ bytes ∈ sequences, bytes ≠ []) :
    ∃ before after last, sequences = before ++ after ∧ seen = before.flatten ++ last ∧
      (last = [] ∨ ∃ bytes rest, after = bytes :: rest ∧ last <+: bytes ∧
        last.length < bytes.length) := by
  induction sequences generalizing seen with
  | nil =>
    obtain ⟨rfl, _⟩ := append_eq_nil_iff.mp cut
    exact ⟨[], [], [], rfl, rfl, .inl rfl⟩
  | cons bytes rest ih =>
    by_cases shorter : seen.length < bytes.length
    · refine ⟨[], bytes :: rest, seen, rfl, rfl, .inr ⟨bytes, rest, rfl, ?_, shorter⟩⟩
      apply prefix_of_prefix_length_le _ (prefix_append bytes rest.flatten) (Nat.le_of_lt shorter)
      exact ⟨ahead, cut⟩
    · have whole : bytes <+: seen := by
        apply prefix_of_prefix_length_le (prefix_append bytes rest.flatten) _
          (Nat.not_lt.mp shorter)
        exact ⟨ahead, cut⟩
      obtain ⟨more, rfl⟩ := whole
      rw [append_assoc, flatten_cons, append_cancel_left_eq] at cut
      obtain ⟨before, after, last, rfl, rfl, part⟩ :=
        ih cut fun other mem => nonempty other (.tail _ mem)
      refine ⟨bytes :: before, after, last, rfl, ?_, part⟩
      rw [flatten_cons, append_assoc]

theorem whole_of_wellFormed (wellFormed : unit.WellFormed) (sequence : unit.isPaste = false) :
    Whole unit.units := by
  by_cases single : ∃ c, unit = .char c
  · obtain ⟨c, rfl⟩ := single
    exact .inl ⟨c, wellFormed, rfl⟩
  · exact .inr (framed_of_wellFormed wellFormed (fun c same => single ⟨c, same⟩) sequence)

theorem marker_partials : ∀ n, 0 < n → n < bracketedPasteStart.length →
    isCompleteSequence (bracketedPasteStart.take n) = .incomplete := by
  have all : ∀ n < 6, 0 < n → isCompleteSequence (bracketedPasteStart.take n) = .incomplete := by
    decide
  exact fun n positive inside => all n inside positive

theorem processOnce_plain {str last : Units} (mode : s.pasteMode = false) (given : str ≠ [])
    (wellFormed : ∀ unit ∈ units, unit.WellFormed)
    (sequences : ∀ unit ∈ units, unit.isPaste = false)
    (seen : s.buffer ++ str = stream units ++ last) (begun : Begun last)
    (unmarked : ∀ position, ¬ bracketedPasteStart <+: last.drop position) :
    s.processOnce str = ({ s.delivered units with buffer := last }, []) := by
  have wholes : ∀ bytes ∈ units.map InputUnit.units, Whole bytes := by
    intro bytes mem
    obtain ⟨unit, isUnit, rfl⟩ := mem_map.mp mem
    exact whole_of_wellFormed (wellFormed unit isUnit) (sequences unit isUnit)
  rw [processOnce, if_neg fun both => given both.1]
  simp only [mode, Bool.false_eq_true, if_false]
  rw [seen, stream, indexOf_no_marker wholes unmarked]
  simp only [extractCompleteSequences_flatten wholes begun]
  rw [emit_units _ wellFormed sequences]
  simp only [delivered, mode]

theorem processOnce_marker {str more : Units} (mode : s.pasteMode = false) (given : str ≠ [])
    (wellFormed : ∀ unit ∈ units, unit.WellFormed)
    (sequences : ∀ unit ∈ units, unit.isPaste = false)
    (seen : s.buffer ++ str = stream units ++ (bracketedPasteStart ++ more)) :
    s.processOnce str = processPaste
      { s.delivered units with
        pendingKittyPrintableCodepoint := none
        pasteMode := true
        pasteBuffer := more
        buffer := [] } := by
  have wholes : ∀ bytes ∈ units.map InputUnit.units, Whole bytes := by
    intro bytes mem
    obtain ⟨unit, isUnit, rfl⟩ := mem_map.mp mem
    exact whole_of_wellFormed (wellFormed unit isUnit) (sequences unit isUnit)
  have before := extractCompleteSequences_flatten wholes (.inl rfl : Begun [])
  rw [append_nil] at before
  rw [processOnce, if_neg fun both => given both.1]
  simp only [mode, Bool.false_eq_true, if_false]
  rw [seen, stream, indexOf_marker wholes]
  simp only [take_left, before, ← drop_drop, drop_left]
  rw [emit_units _ wellFormed sequences]

theorem split_at_paste (units : List InputUnit) :
    ∃ plain, (∀ unit ∈ plain, unit.isPaste = false) ∧
      (units = plain ∨ ∃ content rest, units = plain ++ .paste content :: rest) := by
  induction units with
  | nil => exact ⟨[], by simp, .inl rfl⟩
  | cons unit rest ih =>
    cases isPaste : unit.isPaste with
    | true =>
      cases unit with
      | paste content => exact ⟨[], by simp, .inr ⟨content, rest, rfl⟩⟩
      | _ => cases isPaste
    | false =>
      obtain ⟨plain, sequences, split⟩ := ih
      refine ⟨unit :: plain, forall_mem_cons.mpr ⟨isPaste, sequences⟩, ?_⟩
      rcases split with rfl | ⟨content, rest, rfl⟩
      · exact .inl rfl
      · exact .inr ⟨content, rest, rfl⟩

theorem delivered_accounted (s : StdinBuffer) (units rest : List InputUnit) :
    (s.delivered units).events ++
        deliver (s.delivered units).pendingKittyPrintableCodepoint rest =
      s.events ++ deliver s.pendingKittyPrintableCodepoint (units ++ rest) := by
  simp only [delivered, deliver_append, append_assoc]

theorem marker_shorter (content : Units) :
    bracketedPasteStart.length < (paste content).units.length := by
  simp [units, bracketedPasteEnd, text]

theorem begun_of_unit {last : Units} (wellFormed : unit.WellFormed)
    (sequence : unit.isPaste = false) (isPrefix : last <+: unit.units)
    (shorter : last.length < unit.units.length) :
    Begun last ∧ ∀ position, ¬ bracketedPasteStart <+: last.drop position := by
  rcases whole_of_wellFormed wellFormed sequence with ⟨c, _, single⟩ | framed
  · rw [single, length_singleton, Nat.lt_one_iff, length_eq_zero_iff] at shorter
    subst shorter
    exact ⟨.inl rfl, unmarked_short (by decide)⟩
  · exact ⟨.inr ⟨_, framed.starts, framed.partials, isPrefix, shorter⟩,
      framed.unmarked_prefix isPrefix⟩

section

variable {expected : List StdinEvent} {s : StdinBuffer} {str ahead last : Units}

theorem Between.ordinary {before after : List InputUnit}
    (between : Between s (before ++ after) (str ++ ahead)) (given : str ≠ [])
    (wellFormed : ∀ unit ∈ before ++ after, unit.WellFormed)
    (accounted : s.events ++ deliver s.pendingKittyPrintableCodepoint (before ++ after) = expected)
    (plain : ∀ unit ∈ before, unit.isPaste = false)
    (seen : s.buffer ++ str = StdinBuffer.stream before ++ last) (begun : Begun last)
    (unmarked : ∀ position, ¬ bracketedPasteStart <+: last.drop position)
    (waiting : last = [] ∨ ∃ unit rest, after = unit :: rest ∧ last.length < unit.units.length) :
    ∃ rest, Holds expected (s.processOnce str).1 rest ((s.processOnce str).2 ++ ahead) := by
  have stream := between.stream
  rw [← append_assoc, seen, stream_append, append_assoc, append_cancel_left_eq]
    at stream
  rw [processOnce_plain between.mode given
    (fun unit mem => wellFormed unit (mem_append_left _ mem)) plain seen begun unmarked]
  refine ⟨after, fun unit mem => wellFormed unit (mem_append_right _ mem), ?_, .inl ?_⟩
  · rw [← accounted]
    exact delivered_accounted s before after
  · exact ⟨between.mode, between.pasteBuffer, stream, waiting⟩

variable {units : List InputUnit}

theorem Between.plain (between : Between s units (str ++ ahead)) (given : str ≠ [])
    (wellFormed : ∀ unit ∈ units, unit.WellFormed)
    (accounted : s.events ++ deliver s.pendingKittyPrintableCodepoint units = expected)
    (plain : ∀ unit ∈ units, unit.isPaste = false) :
    ∃ rest, Holds expected (s.processOnce str).1 rest ((s.processOnce str).2 ++ ahead) := by
  have stream := between.stream
  rw [← append_assoc] at stream
  obtain ⟨before, after, last, isUnits, seen, part⟩ := cut_flatten stream fun bytes mem => by
    obtain ⟨unit, _, rfl⟩ := mem_map.mp mem
    exact units_ne_nil unit
  obtain ⟨before, after, rfl, rfl, rfl⟩ := map_eq_append_iff.mp isUnits
  have plainBefore : ∀ unit ∈ before, unit.isPaste = false :=
    fun unit mem => plain unit (mem_append_left _ mem)
  rcases part with rfl | ⟨bytes, rest, isAfter, isPrefix, shorter⟩
  · exact between.ordinary given wellFormed accounted plainBefore seen (.inl rfl)
      (unmarked_short (by decide)) (.inl rfl)
  · obtain ⟨unit, rest, rfl, rfl, rfl⟩ := map_eq_cons_iff.mp isAfter
    have mem : unit ∈ before ++ unit :: rest := mem_append_right _ mem_cons_self
    have begun := begun_of_unit (wellFormed unit mem) (plain unit mem) isPrefix shorter
    exact between.ordinary given wellFormed accounted plainBefore seen begun.1 begun.2
      (.inr ⟨unit, rest, rfl, shorter⟩)

theorem Between.beforeMarker {plain rest : List InputUnit} {content : Units}
    (between : Between s (plain ++ .paste content :: rest) (str ++ ahead)) (given : str ≠ [])
    (wellFormed : ∀ unit ∈ plain ++ .paste content :: rest, unit.WellFormed)
    (accounted : s.events ++ deliver s.pendingKittyPrintableCodepoint
      (plain ++ .paste content :: rest) = expected)
    (sequences : ∀ unit ∈ plain, unit.isPaste = false)
    (shorter : (s.buffer ++ str).length < (StdinBuffer.stream plain ++ bracketedPasteStart).length)
    (isPrefix : s.buffer ++ str <+: StdinBuffer.stream plain ++ bracketedPasteStart) :
    ∃ rest, Holds expected (s.processOnce str).1 rest ((s.processOnce str).2 ++ ahead) := by
  obtain ⟨more, cut⟩ := isPrefix
  have all : StdinBuffer.stream plain ++ bracketedPasteStart =
      (plain.map units ++ [bracketedPasteStart]).flatten := by
    rw [flatten_append, flatten_singleton, StdinBuffer.stream]
  rw [all] at cut shorter
  obtain ⟨before, after, last, isSequences, seen, part⟩ := cut_flatten cut fun bytes mem => by
    rcases mem_append.mp mem with mem | mem
    · obtain ⟨unit, _, rfl⟩ := mem_map.mp mem
      exact units_ne_nil unit
    · rw [mem_singleton.mp mem]
      decide
  rcases eq_nil_or_concat after with rfl | ⟨front, final, rfl⟩
  · rcases part with rfl | ⟨bytes, rest, isAfter, _⟩
    · rw [append_nil] at seen isSequences
      rw [seen, isSequences] at shorter
      exact absurd shorter (Nat.lt_irrefl _)
    · cases isAfter
  · rw [concat_eq_append] at isSequences part
    rw [← append_assoc] at isSequences
    obtain ⟨isPlain, isMarker⟩ := append_inj' isSequences rfl
    obtain ⟨before, middle, rfl, rfl, rfl⟩ := map_eq_append_iff.mp isPlain
    rw [← (cons.inj isMarker).1] at part
    rw [append_assoc] at between wellFormed accounted
    have plainBefore : ∀ unit ∈ before, unit.isPaste = false :=
      fun unit mem => sequences unit (mem_append_left _ mem)
    rcases part with rfl | ⟨bytes, others, isAfter, isPrefix, shorter⟩
    · exact between.ordinary given wellFormed accounted plainBefore seen (.inl rfl)
        (unmarked_short (by decide)) (.inl rfl)
    · cases middle with
      | nil =>
        obtain ⟨rfl, _⟩ := cons.inj isAfter
        exact between.ordinary given wellFormed accounted plainBefore seen
          (.inr ⟨bracketedPasteStart, rfl, marker_partials, isPrefix, shorter⟩)
          (unmarked_short shorter)
          (.inr ⟨_, rest, rfl, Nat.lt_trans shorter (marker_shorter content)⟩)
      | cons unit middle =>
        obtain ⟨rfl, _⟩ := cons.inj isAfter
        have isUnit : unit ∈ before ++ unit :: middle := mem_append_right _ mem_cons_self
        have begun := begun_of_unit
          (wellFormed unit (mem_append_right _ mem_cons_self))
          (sequences unit isUnit) isPrefix shorter
        exact between.ordinary given wellFormed accounted plainBefore seen begun.1 begun.2
          (.inr ⟨unit, _, rfl, shorter⟩)

theorem Between.processOnce (between : Between s units (str ++ ahead)) (given : str ≠ [])
    (wellFormed : ∀ unit ∈ units, unit.WellFormed)
    (accounted : s.events ++ deliver s.pendingKittyPrintableCodepoint units = expected) :
    ∃ rest, Holds expected (s.processOnce str).1 rest ((s.processOnce str).2 ++ ahead) := by
  obtain ⟨plain, sequences, rfl | ⟨content, rest, rfl⟩⟩ := split_at_paste units
  · exact between.plain given wellFormed accounted sequences
  · have stream : (s.buffer ++ str) ++ ahead = StdinBuffer.stream plain ++
        (bracketedPasteStart ++ (content ++ (bracketedPasteEnd ++ StdinBuffer.stream rest))) := by
      rw [append_assoc, between.stream, stream_append, stream_cons, units,
        append_assoc, append_assoc]
    have seen : s.buffer ++ str <+: (StdinBuffer.stream plain ++ bracketedPasteStart) ++
        (content ++ (bracketedPasteEnd ++ StdinBuffer.stream rest)) := by
      rw [append_assoc]
      exact ⟨ahead, stream⟩
    by_cases shorter : (s.buffer ++ str).length <
        (StdinBuffer.stream plain ++ bracketedPasteStart).length
    · exact between.beforeMarker given wellFormed accounted sequences shorter
        (prefix_of_prefix_length_le seen (prefix_append _ _) (Nat.le_of_lt shorter))
    · obtain ⟨more, same⟩ := prefix_of_prefix_length_le (prefix_append _ _) seen
        (Nat.not_lt.mp shorter)
      rw [append_assoc] at same
      rw [← same, append_assoc, append_cancel_left_eq, append_assoc,
        append_cancel_left_eq] at stream
      rw [processOnce_marker between.mode given
        (fun unit mem => wellFormed unit (mem_append_left _ mem)) sequences same.symm]
      apply processPaste_holds rfl rfl
        (fun unit mem => wellFormed unit (mem_append_right _ mem)) _ stream
      rw [← accounted, ← delivered_accounted]
      rfl

theorem Holds.processOnce (holds : Holds expected s units (str ++ ahead)) (given : str ≠ []) :
    ∃ rest, Holds expected (s.processOnce str).1 rest ((s.processOnce str).2 ++ ahead) := by
  rcases holds.place with between | ⟨content, rest, rfl, inside⟩
  · exact between.processOnce given holds.wellFormed holds.accounted
  · rw [processOnce, if_neg fun both => given both.1]
    simp only [inside.mode, if_true, inside.buffer, nil_append]
    apply processPaste_holds
    · rfl
    · rfl
    · exact holds.wellFormed
    · exact holds.accounted
    · rw [append_assoc]
      exact inside.stream

theorem Holds.process (holds : Holds expected s units (str ++ ahead)) (given : str ≠ []) :
    ∃ rest, Holds expected (s.process str) rest ahead := by
  induction measure : s.size + str.length using Nat.strongRecOn generalizing s units str with
  | ind total ih =>
    obtain ⟨rest, next⟩ := holds.processOnce given
    rw [process_eq]
    by_cases last : (s.processOnce str).2 = []
    · rw [if_pos last]
      rw [last] at next
      exact ⟨rest, next⟩
    · rw [if_neg last]
      have shrinks := processOnce_shrinks last
      exact ih _ (by omega) next last rfl

theorem Holds.processAll {chunks : List Units} (holds : Holds expected s units chunks.flatten)
    (given : ∀ chunk ∈ chunks, chunk ≠ []) :
    ∃ rest, Holds expected (s.processAll chunks) rest [] := by
  induction chunks generalizing s units with
  | nil => exact ⟨units, holds⟩
  | cons chunk chunks ih =>
    rw [flatten_cons] at holds
    obtain ⟨rest, next⟩ := holds.process (given chunk mem_cons_self)
    exact ih next fun other mem => given other (.tail _ mem)

/-- With nothing ahead, everything is delivered. -/
theorem Holds.finished (holds : Holds expected s units []) :
    s.events = expected ∧ s.buffer = [] ∧ s.pasteMode = false := by
  rcases holds.place with between | ⟨content, rest, rfl, inside⟩
  · have all := between.stream
    rw [append_nil] at all
    rcases between.waiting with empty | ⟨unit, rest, rfl, shorter⟩
    · cases units with
      | nil =>
        have accounted := holds.accounted
        rw [deliver, append_nil] at accounted
        exact ⟨accounted, empty, between.mode⟩
      | cons unit rest =>
        rw [empty, stream_cons] at all
        exact absurd (append_eq_nil_iff.mp all.symm).1 (units_ne_nil unit)
    · rw [all, stream_cons, length_append] at shorter
      omega
  · have all := inside.stream
    have shorter := inside.waiting
    rw [append_nil, ← append_assoc] at all
    rw [all, length_append] at shorter
    omega

end

/-- However the stream of well-formed units is cut, each is delivered as one event. -/
theorem processAll_framed {units : List InputUnit} {chunks : List Units}
    (wellFormed : ∀ unit ∈ units, unit.WellFormed) (given : ∀ chunk ∈ chunks, chunk ≠ [])
    (cut : chunks.flatten = stream units) :
    (create.processAll chunks).events = deliver none units ∧
      (create.processAll chunks).buffer = [] ∧ (create.processAll chunks).pasteMode = false := by
  have start : Holds (deliver none units) create units chunks.flatten := by
    constructor
    · exact wellFormed
    · rfl
    · left
      constructor
      · rfl
      · rfl
      · exact cut
      · exact .inl rfl
  obtain ⟨rest, holds⟩ := start.processAll given
  exact holds.finished

theorem processAll_framed_sample :
    (create.processAll [text "a\x1b[<0;1", text ";2Mb\x1b[20", text "0~x\x1b[20", text "1~c"]).events =
        deliver none [.char (ascii 'a'), .mouseSgr (text "0") (text "1") (text "2") (ascii 'M'),
          .char (ascii 'b'), .paste (text "x"), .char (ascii 'c')] ∧
      (create.processAll
        [text "a\x1b[<0;1", text ";2Mb\x1b[20", text "0~x\x1b[20", text "1~c"]).buffer = [] ∧
      (create.processAll
        [text "a\x1b[<0;1", text ";2Mb\x1b[20", text "0~x\x1b[20", text "1~c"]).pasteMode = false :=
  processAll_framed (by simp [InputUnit.WellFormed]; decide) (by decide) (by decide)

/-- A CSI sequence whose first parameter byte is `<` waits for a mouse report. -/
theorem private_csi_held :
    ∃ parameters final, (∀ unit ∈ parameters, isParameterByte unit = true) ∧
      isFinalByte final = true ∧
      (create.processAll [(InputUnit.csi parameters final).units]).events = [] :=
  ⟨[ascii '<'], ascii 'u', List.forall_mem_singleton.mpr rfl, rfl, by decide⟩

end StdinBuffer

end Trpi.Tui
