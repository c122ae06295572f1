import Trpi.Harness.OutputCapture
import Trpi.Harness.TruncateLines

/-!
# Bounded capture against truncating everything

Whatever the chunks are and whenever the buffer is cut, the counters are those of the
whole text and the buffer agrees with it where truncation reads: from the head it shares
the first bytes with the text, from the tail it is an end of the text.
-/

namespace Trpi.Harness

open Library OutputCapture List
open Library.Utf16 (Units units scalars textEncode Seam)

namespace OutputCapture

inductive Action where
  | push (chunk : Chunk)
  | finish
  | dispose

def step (capture : OutputCapture) : Action → OutputCapture
  | .push chunk => capture.push chunk
  | .finish => capture.finish
  | .dispose => capture.dispose

def run (capture : OutputCapture) (actions : List Action) : OutputCapture :=
  actions.foldl step capture

def decodedText : TextDecoder → List Action → Units
  | _, [] => []
  | d, .push (.text chunk) :: rest => units d.flush ++ chunk ++ decodedText .new rest
  | d, .push (.bytes chunk) :: rest =>
    units (d.stream chunk).2 ++ decodedText (d.stream chunk).1 rest
  | d, .finish :: rest => units d.flush ++ decodedText .new rest
  | _, .dispose :: _ => []

/-- Strings have no lone surrogates. -/
def Action.WellFormed : Action → Prop
  | .push (.text chunk) => ∃ text, chunk = units text
  | _ => True

structure Counts (capture : OutputCapture) (text : List Char) (parts : List Units) (last : Units) :
    Prop where
  parted : LinesOf (units text) parts last
  totalBytes : capture.totalBytes = utf8ByteLength (units text)
  newlines : capture.newlines = parts.length
  endsWithNewline : capture.endsWithNewline = true ↔ last = []
  currentLineBytes : capture.currentLineBytes = utf8ByteLength last
  bufferBytes : capture.bufferBytes = utf8ByteLength capture.buffer

def Counted (capture : OutputCapture) (text : List Char) : Prop :=
  ∃ parts last, capture.Counts text parts last

theorem utf8ByteLength_units (front back : List Char) :
    utf8ByteLength (units (front ++ back)) =
      utf8ByteLength (units front) + utf8ByteLength (units back) := by
  rw [Utf16.units_append, utf8ByteLength_append (Utf16.seam_units _ back)]

variable {parts : List Units} {last : Units}

theorem afterLastNewline_lines {text : Units}
    (parted : LinesOf text parts last) : afterLastNewline text = last :=
  parted.takeWhile

theorem newline_mem_lines {text : Units}
    (parted : LinesOf text parts last) : newline ∈ text ↔ parts ≠ [] := by
  rw [← count_pos_iff, parted.count, length_pos_iff]

variable {capture : OutputCapture} {maxBytes : Nat} {retain : Retention} {buffer text : List Char}

theorem Counted.count {text more : List Char} (counted : capture.Counted text)
    (nonempty : units more ≠ []) : (capture.count (units more)).Counted (text ++ more) := by
  obtain ⟨parts, last, counts⟩ := counted
  obtain ⟨others, final, then_⟩ := exists_parts newline (units more)
  have ends := then_.getLast? nonempty
  refine ⟨parts ++ others.modifyHead (last ++ ·), if others = [] then last ++ final else final, ?_⟩
  constructor
  · rw [Utf16.units_append]
    exact counts.parted.append then_
  · rw [utf8ByteLength_units, ← counts.totalBytes]
    rfl
  · rw [length_append, length_modifyHead, ← counts.newlines, ← then_.count]
    rfl
  · change ((units more).getLast? == some newline) = true ↔ _
    rw [beq_iff_eq, ends]
    split
    · rename_i unbroken
      have same : units more = final := by
        rw [unbroken] at then_
        exact then_.nil
      rw [same] at nonempty
      exact iff_of_false nonempty (append_ne_nil_of_right_ne_nil _ nonempty)
    · exact Iff.rfl
  · change (if newline ∈ units more then utf8ByteLength (afterLastNewline (units more))
      else capture.currentLineBytes + utf8ByteLength (units more)) = _
    by_cases unbroken : others = []
    · have same : units more = final := by
        rw [unbroken] at then_
        exact then_.nil
      rw [if_neg (by rw [newline_mem_lines then_]; exact not_not_intro unbroken), if_pos unbroken,
        counts.currentLineBytes, ← same, utf8ByteLength_append (Utf16.seam_units last more)]
    · rw [if_pos ((newline_mem_lines then_).mpr unbroken), if_neg unbroken,
        afterLastNewline_lines then_]
  · change capture.bufferBytes + utf8ByteLength (units more) =
      utf8ByteLength (capture.buffer ++ units more)
    rw [utf8ByteLength_append (Utf16.seam_units capture.buffer more), counts.bufferBytes]

theorem Counted.bound (counted : capture.Counted text) : capture.bound.Counted text := by
  obtain ⟨parts, last, counts⟩ := counted
  refine ⟨parts, last, ?_⟩
  unfold OutputCapture.bound
  dsimp only
  split
  · exact { counts with bufferBytes := rfl }
  · exact counts

theorem Counted.appendText (counted : capture.Counted text) (more : List Char) :
    (capture.appendText (units more)).Counted (text ++ more) := by
  rw [OutputCapture.appendText]
  split
  · rename_i empty
    have none_ : more = [] := by
      have read := congrArg scalars empty
      rwa [Utf16.scalars_units] at read
    rw [none_, append_nil]
    exact counted
  · rename_i nonempty
    exact (counted.count nonempty).bound

theorem Counted.totalLines (counted : capture.Counted text) :
    capture.totalLines = (splitLinesForCounting (units text)).length := by
  obtain ⟨parts, last, counts⟩ := counted
  rw [splitLinesForCounting_lines counts.parted, length_append, length_openLine,
    OutputCapture.totalLines, counts.newlines]
  by_cases done : last = []
  · rw [if_pos done, if_pos (.inl (counts.endsWithNewline.mpr done))]
  · have nonempty : 0 < capture.totalBytes := by
      have some_ := utf8ByteLength_pos done
      have bytes := utf8ByteLength_lines counts.parted
      rw [counts.totalBytes]
      omega
    rw [if_neg done, if_neg]
    rintro (ended | empty)
    · exact done (counts.endsWithNewline.mp ended)
    · omega

theorem utf8ByteLength_encode (text : List Char) :
    utf8ByteLength (units text) = (Utf8.encode text).length := by
  rw [utf8ByteLength_eq, textEncode, Utf16.scalars_units]

theorem trimToFirstUtf8Bytes_units (long : maxBytes < utf8ByteLength (units text)) :
    ∃ front back, text = front ++ back ∧
      trimToFirstUtf8Bytes (units text) maxBytes = units (decodeText (Utf8.encode front)) ∧
      utf8ByteLength (units front) ≤ maxBytes ∧ maxBytes ≤ utf8ByteLength (units front) + 3 := by
  rw [utf8ByteLength_encode] at long
  obtain ⟨front, back, split, taken, atMost, atLeast⟩ := Utf8.take_cut text (Nat.le_of_lt long)
  refine ⟨front, back, split, ?_, ?_, ?_⟩
  · rw [trimToFirstUtf8Bytes, textEncode, Utf16.scalars_units]
    rw [if_neg (Nat.not_le.mpr long), taken]
  · rw [utf8ByteLength_encode]
    exact atMost
  · rw [utf8ByteLength_encode]
    exact atLeast

theorem trimToLastUtf8Bytes_units (long : maxBytes < utf8ByteLength (units text)) :
    ∃ front back, text = front ++ back ∧
      trimToLastUtf8Bytes (units text) maxBytes = units (decodeText (Utf8.encode back)) ∧
      maxBytes ≤ utf8ByteLength (units back) + 3 := by
  have total := utf8ByteLength_encode text
  rw [total] at long
  obtain ⟨front, back, split, dropped, -, atMost⟩ :=
    Utf8.drop_cut text (Nat.sub_le (Utf8.encode text).length maxBytes)
  refine ⟨front, back, split, ?_, ?_⟩
  · rw [trimToLastUtf8Bytes, textEncode, Utf16.scalars_units]
    rw [if_neg (Nat.not_le.mpr long), dropped]
  · have parts := utf8ByteLength_units front back
    rw [← split, total, utf8ByteLength_encode front] at parts
    omega

theorem utf8ByteLength_mark : utf8ByteLength (units [byteOrderMark]) = 3 := by decide

/-- What a cut inside a character and a byte order mark taken for one may cost. -/
def slack (text : List Char) : Nat := 3 + if byteOrderMark ∈ text then 3 else 0

/-- From the head the buffer shares the first bytes with the text. -/
def KeepsHead (maxBytes : Nat) (text buffer : List Char) : Prop :=
  text.head? = some byteOrderMark ∨
    ∃ front rest more, buffer = front ++ rest ∧ text = front ++ more ∧
      maxBytes * 2 ≤ utf8ByteLength (units front) + 3

/-- From the tail it is an end of the text. -/
def KeepsTail (maxBytes : Nat) (text buffer : List Char) : Prop :=
  ∃ dropped, text = dropped ++ buffer ∧ maxBytes * 2 ≤ utf8ByteLength (units buffer) + slack text

def Keeps : Retention → Nat → List Char → List Char → Prop
  | .head => KeepsHead
  | .tail => KeepsTail

section

variable {maxBytes : Nat} {text buffer : List Char}

theorem KeepsHead.append (keeps : KeepsHead maxBytes text buffer) (more : List Char) :
    KeepsHead maxBytes (text ++ more) (buffer ++ more) := by
  rcases keeps with marked | ⟨front, rest, others, rfl, rfl, long⟩
  · left
    rw [head?_append, marked]
    rfl
  · right
    exact ⟨front, rest ++ more, others ++ more, by simp, by simp, long⟩

theorem slack_append (more : List Char) : slack text ≤ slack (text ++ more) := by
  unfold slack
  by_cases marked : byteOrderMark ∈ text
  · rw [if_pos marked, if_pos (mem_append_left _ marked)]
  · rw [if_neg marked]
    omega

theorem KeepsTail.append (keeps : KeepsTail maxBytes text buffer) (more : List Char) :
    KeepsTail maxBytes (text ++ more) (buffer ++ more) := by
  obtain ⟨dropped, rfl, long⟩ := keeps
  refine ⟨dropped, append_assoc .., ?_⟩
  have wider := @slack_append (dropped ++ buffer) more
  rw [utf8ByteLength_units]
  omega

theorem KeepsHead.whole (long : maxBytes * 2 < utf8ByteLength (units text)) :
    KeepsHead maxBytes text text :=
  .inr ⟨text, [], [], (append_nil _).symm, (append_nil _).symm, by omega⟩

theorem KeepsTail.whole (long : maxBytes * 2 < utf8ByteLength (units text)) :
    KeepsTail maxBytes text text :=
  ⟨[], rfl, by omega⟩

theorem KeepsHead.trim (keeps : KeepsHead maxBytes text buffer) (room : 2 ≤ maxBytes)
    (beyond : maxBytes * 2 < utf8ByteLength (units buffer)) :
    ∃ cut, trimToFirstUtf8Bytes (units buffer) (maxBytes * 2) = units cut ∧
      KeepsHead maxBytes text cut := by
  obtain ⟨kept, back, split, trimmed, atMost, atLeast⟩ := trimToFirstUtf8Bytes_units beyond
  refine ⟨_, trimmed, ?_⟩
  by_cases marked : text.head? = some byteOrderMark
  · exact .inl marked
  obtain ⟨front, rest, more, rfl, rfl, long⟩ := keeps.resolve_left marked
  right
  have nonempty : front ≠ [] := by
    rintro rfl
    have zero : utf8ByteLength (units []) = 0 := rfl
    omega
  have unmarked : kept.head? ≠ some byteOrderMark := by
    cases front with
    | nil => exact absurd rfl nonempty
    | cons c front =>
      cases kept with
      | nil => exact nofun
      | cons d kept =>
        have same : c = d := (cons.inj split).1
        rw [head?_cons, ← same]
        exact marked
  rw [decodeText_encode unmarked]
  rcases append_eq_append_iff.mp split with ⟨middle, here, -⟩ | ⟨middle, here, -⟩
  · exact ⟨front, middle, more, here, rfl, long⟩
  · exact ⟨kept, [], middle ++ more, (append_nil _).symm, by rw [here, append_assoc], atLeast⟩

theorem KeepsTail.trim (keeps : KeepsTail maxBytes text buffer)
    (beyond : maxBytes * 2 < utf8ByteLength (units buffer)) :
    ∃ cut, trimToLastUtf8Bytes (units buffer) (maxBytes * 2) = units cut ∧
      KeepsTail maxBytes text cut := by
  obtain ⟨dropped, rfl, -⟩ := keeps
  obtain ⟨front, back, split, trimmed, atLeast⟩ := trimToLastUtf8Bytes_units beyond
  refine ⟨_, trimmed, ?_⟩
  rcases decodeText_encode_cases back with same | marked
  · rw [same]
    refine ⟨dropped ++ front, by rw [split, append_assoc], ?_⟩
    unfold slack
    omega
  · refine ⟨dropped ++ front ++ [byteOrderMark], ?_, ?_⟩
    · rw [append_assoc, append_assoc, singleton_append, ← marked, ← split]
    · have mem : byteOrderMark ∈ dropped ++ buffer := by
        rw [split, marked]
        simp
      have width := utf8ByteLength_units [byteOrderMark] (decodeText (Utf8.encode back))
      rw [singleton_append, ← marked, utf8ByteLength_mark] at width
      rw [slack, if_pos mem]
      omega

end

theorem Keeps.append (keeps : Keeps retain maxBytes text buffer)
    (more : List Char) : Keeps retain maxBytes (text ++ more) (buffer ++ more) := by
  cases retain with
  | head => exact KeepsHead.append keeps more
  | tail => exact KeepsTail.append keeps more

theorem Keeps.whole (long : maxBytes * 2 < utf8ByteLength (units text)) :
    Keeps retain maxBytes text text := by
  cases retain with
  | head => exact KeepsHead.whole long
  | tail => exact KeepsTail.whole long

theorem Keeps.trim (keeps : Keeps capture.retain capture.maxBytes text buffer)
    (room : 2 ≤ capture.maxBytes) (beyond : capture.maxBytes * 2 < utf8ByteLength (units buffer)) :
    ∃ cut, capture.trim (units buffer) (capture.maxBytes * 2) = units cut ∧
      Keeps capture.retain capture.maxBytes text cut := by
  unfold OutputCapture.trim
  cases retained : capture.retain with
  | head =>
    rw [retained] at keeps
    exact KeepsHead.trim keeps room beyond
  | tail =>
    rw [retained] at keeps
    exact KeepsTail.trim keeps beyond

/-- The buffer holds the whole text while that is short, and later agrees with it. -/
def Kept (capture : OutputCapture) (text : List Char) : Prop :=
  ∃ buffer, capture.buffer = units buffer ∧
    (buffer = text ∨ (capture.maxBytes * 4 < utf8ByteLength (units text) ∧
      Keeps capture.retain capture.maxBytes text buffer))

theorem kept_bound (same : capture.buffer = units buffer)
    (counted : capture.bufferBytes = utf8ByteLength capture.buffer) (room : 2 ≤ capture.maxBytes)
    (keeps : buffer = text ∨ (capture.maxBytes * 4 < utf8ByteLength (units text) ∧
      Keeps capture.retain capture.maxBytes text buffer)) : capture.bound.Kept text := by
  rw [same] at counted
  unfold bound
  dsimp only
  split
  · rename_i beyond
    have long : capture.maxBytes * 2 < utf8ByteLength (units buffer) := by omega
    have agrees : capture.maxBytes * 4 < utf8ByteLength (units text) ∧
        Keeps capture.retain capture.maxBytes text buffer := by
      rcases keeps with rfl | agrees
      · exact ⟨by omega, .whole long⟩
      · exact agrees
    obtain ⟨cut, trimmed, kept⟩ := agrees.2.trim room long
    exact ⟨cut, by rw [← trimmed, ← same], .inr ⟨agrees.1, kept⟩⟩
  · exact ⟨buffer, same, keeps⟩

/-- What the limits are, the counters and the buffer. -/
structure Holds (created capture : OutputCapture) (text : List Char) : Prop where
  maxBytes : capture.maxBytes = created.maxBytes
  maxLines : capture.maxLines = created.maxLines
  retain : capture.retain = created.retain
  counted : capture.Counted text
  kept : capture.Kept text

section

variable {created capture : OutputCapture} {text : List Char}

theorem appendText_limits (capture : OutputCapture) (text : Units) :
    (capture.appendText text).maxBytes = capture.maxBytes ∧
      (capture.appendText text).maxLines = capture.maxLines ∧
      (capture.appendText text).retain = capture.retain ∧
      (capture.appendText text).decoder = capture.decoder ∧
      (capture.appendText text).disposed = capture.disposed := by
  unfold appendText bound count
  dsimp only
  repeat' split
  all_goals exact ⟨rfl, rfl, rfl, rfl, rfl⟩

theorem Kept.appendText (kept : capture.Kept text) (counted : capture.Counted text)
    (room : 2 ≤ capture.maxBytes) (more : List Char) :
    (capture.appendText (units more)).Kept (text ++ more) := by
  obtain ⟨buffer, same, keeps⟩ := kept
  rw [OutputCapture.appendText]
  split
  · rename_i empty
    have none_ : more = [] := by
      have read := congrArg scalars empty
      rwa [Utf16.scalars_units] at read
    rw [none_, append_nil]
    exact ⟨buffer, same, keeps⟩
  · rename_i nonempty
    obtain ⟨parts, last, counts⟩ := counted.count nonempty
    have grown : (capture.count (units more)).buffer = units (buffer ++ more) := by
      rw [Utf16.units_append, ← same]
      rfl
    apply kept_bound grown counts.bufferBytes room
    rcases keeps with rfl | ⟨long, agrees⟩
    · exact .inl rfl
    · refine .inr ⟨?_, agrees.append more⟩
      rw [utf8ByteLength_units]
      exact Nat.lt_add_right _ long

section

variable (holds : Holds created capture text)

include holds

theorem Holds.appendText (room : 2 ≤ created.maxBytes)
    (more : List Char) : Holds created (capture.appendText (units more)) (text ++ more) := by
  obtain ⟨maxBytes, maxLines, retain, -, -⟩ := appendText_limits capture (units more)
  exact {
    maxBytes := maxBytes.trans holds.maxBytes
    maxLines := maxLines.trans holds.maxLines
    retain := retain.trans holds.retain
    counted := holds.counted.appendText more
    kept := holds.kept.appendText holds.counted (holds.maxBytes ▸ room) more }

theorem Holds.disposed : Holds created capture.dispose text := by
  obtain ⟨parts, last, counts⟩ := holds.counted
  exact {
    maxBytes := holds.maxBytes
    maxLines := holds.maxLines
    retain := holds.retain
    counted := ⟨parts, last, { counts with }⟩
    kept := holds.kept }

theorem Holds.decoder (d : TextDecoder) : Holds created { capture with decoder := d } text := by
  obtain ⟨parts, last, counts⟩ := holds.counted
  exact {
    maxBytes := holds.maxBytes
    maxLines := holds.maxLines
    retain := holds.retain
    counted := ⟨parts, last, { counts with }⟩
    kept := holds.kept }

theorem Holds.flushDecoder (room : 2 ≤ created.maxBytes) :
    Holds created capture.flushDecoder (text ++ capture.decoder.flush) :=
  (holds.decoder .new).appendText room capture.decoder.flush

end

theorem flushDecoder_live (capture : OutputCapture) :
    capture.flushDecoder.decoder = .new ∧ capture.flushDecoder.disposed = capture.disposed := by
  obtain ⟨-, -, -, d, disposed⟩ :=
    appendText_limits { capture with decoder := .new } (units capture.decoder.flush)
  exact ⟨d, disposed⟩

theorem run_disposed (disposed : capture.disposed = true) (actions : List Action) :
    capture.run actions = capture := by
  induction actions with
  | nil => rfl
  | cons action rest ih =>
    have same : capture.step action = capture := by
      cases action with
      | push chunk => exact if_pos disposed
      | finish => exact if_pos disposed
      | dispose => exact congrArg (fun flag => { capture with disposed := flag }) disposed.symm
    rw [run, foldl_cons, same]
    exact ih

theorem run_cons (capture : OutputCapture) (action : Action) (rest : List Action) :
    capture.run (action :: rest) = (capture.step action).run rest := rfl

theorem Holds.run (holds : Holds created capture text) (room : 2 ≤ created.maxBytes)
    (live : capture.disposed = false) {actions : List Action}
    (wellFormed : ∀ action ∈ actions, action.WellFormed) :
    ∃ more, decodedText capture.decoder actions = units more ∧
      Holds created (capture.run actions) (text ++ more) := by
  induction actions generalizing capture text with
  | nil =>
    refine ⟨[], rfl, ?_⟩
    rw [append_nil]
    exact holds
  | cons action rest ih =>
    obtain ⟨here, later⟩ := forall_mem_cons.mp wellFormed
    have alive : ¬ capture.disposed = true := by simp [live]
    rw [run_cons]
    cases action with
    | push chunk =>
      cases chunk with
      | text chunk =>
        obtain ⟨chunkText, rfl⟩ := here
        obtain ⟨d, disposed⟩ := flushDecoder_live capture
        obtain ⟨-, -, -, kept, still⟩ := appendText_limits capture.flushDecoder (units chunkText)
        have appended := (holds.flushDecoder room).appendText room chunkText
        obtain ⟨more, decoded, grown⟩ := ih appended (still.trans (disposed.trans live)) later
        rw [kept, d] at decoded
        refine ⟨capture.decoder.flush ++ chunkText ++ more, ?_, ?_⟩
        · rw [decodedText, decoded, Utf16.units_append, Utf16.units_append]
        · rw [step, push, if_neg alive]
          simpa using grown
      | bytes chunk =>
        obtain ⟨-, -, -, kept, still⟩ :=
          appendText_limits { capture with decoder := (capture.decoder.stream chunk).1 }
            (units (capture.decoder.stream chunk).2)
        have appended := (holds.decoder (capture.decoder.stream chunk).1).appendText room
          (capture.decoder.stream chunk).2
        obtain ⟨more, decoded, grown⟩ := ih appended (still.trans live) later
        rw [kept] at decoded
        refine ⟨(capture.decoder.stream chunk).2 ++ more, ?_, ?_⟩
        · rw [decodedText, decoded, Utf16.units_append]
        · rw [step, push, if_neg alive]
          simpa using grown
    | finish =>
      obtain ⟨d, disposed⟩ := flushDecoder_live capture
      obtain ⟨more, decoded, grown⟩ :=
        ih (holds.flushDecoder room) (disposed.trans live) later
      rw [d] at decoded
      refine ⟨capture.decoder.flush ++ more, ?_, ?_⟩
      · rw [decodedText, decoded, Utf16.units_append]
      · rw [step, finish, if_neg alive]
        simpa using grown
    | dispose =>
      refine ⟨[], rfl, ?_⟩
      rw [step, run_disposed rfl, append_nil]
      exact holds.disposed

end

theorem holds_create {limits : Option ShellOutputLimits} {created : OutputCapture}
    (made : create limits = .ok created) :
    Holds created created [] ∧ created.decoder = .new ∧ created.disposed = false := by
  unfold create at made
  dsimp only at made
  split at made
  · cases made
  split at made
  · cases made
  · cases made
    refine ⟨⟨rfl, rfl, rfl, ⟨[], [], ?_⟩, ⟨[], rfl, .inl rfl⟩⟩, rfl, rfl⟩
    exact ⟨⟨rfl, by simp, by simp⟩, rfl, rfl, by simp, rfl, rfl⟩

/-- Truncating everything, in the direction of the capture. -/
def truncateWhole : Retention → Units → TruncationOptions → TruncationResult
  | .head => truncateHead
  | .tail => truncateTail

/-- A text so long that the buffer was cut leaves truncation enough to read: from the head
it does not begin with a byte order mark, from the tail the limit is above what cuts may
cost. -/
def LeavesEnough (retain : Retention) (maxBytes : Nat) (text : Units) : Prop :=
  maxBytes * 4 < utf8ByteLength text →
    match retain with
    | .head => text.head? ≠ some 0xFEFF
    | .tail => (3 + if 0xFEFF ∈ text then 3 else 0) + (if text.getLast? = some newline then 1 else 0) <
        maxBytes

private theorem mark_units : Utf16.unitsOf byteOrderMark = [0xFEFF] := by decide

theorem mark_mem_units (mem : byteOrderMark ∈ text) :
    (0xFEFF : UInt16) ∈ units text :=
  mem_flatMap.mpr ⟨byteOrderMark, mem, by rw [mark_units]; exact mem_singleton_self _⟩

theorem mark_head_units (marked : text.head? = some byteOrderMark) :
    (units text).head? = some 0xFEFF := by
  cases text with
  | nil => cases marked
  | cons c rest =>
    rw [Option.some.inj marked, Utf16.units_cons, mark_units]
    rfl

theorem sameOutput_of_keeps {maxLines : Nat} (keeps : Keeps retain maxBytes text buffer)
    (room : 4 ≤ maxBytes) (long : maxBytes * 4 < utf8ByteLength (units text))
    (enough : LeavesEnough retain maxBytes (units text)) :
    SameOutput
      (truncateWhole retain (units buffer) { maxBytes := some maxBytes, maxLines := some maxLines })
      (truncateWhole retain (units text) { maxBytes := some maxBytes, maxLines := some maxLines }) := by
  have fits := enough long
  cases retain with
  | head =>
    rcases keeps with marked | ⟨front, rest, more, rfl, rfl, wide⟩
    · exact absurd (mark_head_units marked) fits
    · have beyond : maxBytes < utf8ByteLength (units front) := by omega
      rw [Utf16.units_append, Utf16.units_append]
      exact (truncateHead_extend rfl rfl beyond (Utf16.seam_units _ rest)).trans
        (truncateHead_extend rfl rfl beyond (Utf16.seam_units _ more)).symm
  | tail =>
    obtain ⟨dropped, rfl, wide⟩ := keeps
    have cost : slack (dropped ++ buffer) ≤
        3 + if (0xFEFF : UInt16) ∈ units (dropped ++ buffer) then 3 else 0 := by
      unfold slack
      by_cases marked : byteOrderMark ∈ dropped ++ buffer
      · rw [if_pos marked, if_pos (mark_mem_units marked)]
      · rw [if_neg marked]
        omega
    have nonempty : units buffer ≠ [] := by
      intro empty
      rw [empty, utf8ByteLength] at wide
      dsimp only at fits
      omega
    have last : (units (dropped ++ buffer)).getLast? = (units buffer).getLast? := by
      rw [Utf16.units_append, getLast?_append_of_ne_nil _ nonempty]
    dsimp only at fits
    rw [last] at fits
    rw [Utf16.units_append]
    exact (truncateTail_extend rfl rfl (Utf16.head_units buffer) (by omega)).symm

theorem truncateWhole_totals (retain : Retention) (content : Units) (maxLines maxBytes : Nat) :
    Totals (truncateWhole retain content { maxBytes := some maxBytes, maxLines := some maxLines })
      content maxLines maxBytes := by
  cases retain with
  | head => exact truncateHead_totals rfl rfl content
  | tail => exact truncateTail_totals rfl rfl content

section

variable {created capture : OutputCapture} {text : List Char}

theorem retained_eq (capture : OutputCapture) : capture.retained =
    truncateWhole capture.retain capture.buffer
      { maxBytes := some capture.maxBytes, maxLines := some capture.maxLines } := by
  unfold retained truncateWhole
  cases capture.retain with
  | head => rfl
  | tail => rfl

theorem retained_totals (capture : OutputCapture) :
    Totals capture.retained capture.buffer capture.maxLines capture.maxBytes := by
  rw [retained_eq]
  exact truncateWhole_totals capture.retain capture.buffer capture.maxLines capture.maxBytes

theorem Holds.sameOutput (holds : Holds created capture text) (room : 4 ≤ created.maxBytes)
    (enough : LeavesEnough created.retain created.maxBytes (units text)) :
    SameOutput capture.retained (truncateWhole created.retain (units text)
      { maxBytes := some created.maxBytes, maxLines := some created.maxLines }) := by
  obtain ⟨buffer, same, kept⟩ := holds.kept
  rw [retained_eq, same, holds.maxBytes, holds.maxLines, holds.retain]
  rw [holds.maxBytes, holds.retain] at kept
  rcases kept with rfl | ⟨long, keeps⟩
  · exact .refl _
  · exact sameOutput_of_keeps keeps room long enough

theorem Holds.truncated (holds : Holds created capture text) {whole : TruncationResult}
    (totals : Totals whole (units text) created.maxLines created.maxBytes) :
    capture.totalBytes = whole.totalBytes ∧ capture.totalLines = whole.totalLines ∧
      capture.truncated = whole.truncated := by
  have lines := holds.counted.totalLines
  obtain ⟨parts, last, counts⟩ := holds.counted
  refine ⟨counts.totalBytes.trans totals.totalBytes.symm, lines.trans totals.totalLines.symm, ?_⟩
  rw [Bool.eq_iff_iff, totals.truncated, OutputCapture.truncated, Bool.or_eq_true,
    decide_eq_true_eq, decide_eq_true_eq, holds.maxBytes, holds.maxLines, counts.totalBytes, lines]

theorem Holds.currentLineBytes (holds : Holds created capture text) (nonempty : units text ≠ [])
    (open_ : (units text).getLast? ≠ some newline) :
    (splitLinesForCounting (units text)).getLast?.map utf8ByteLength =
      some capture.currentLineBytes := by
  obtain ⟨parts, last, counts⟩ := holds.counted
  have unfinished : last ≠ [] := (counts.parted.getLast? nonempty).not.mp open_
  rw [splitLinesForCounting_lines counts.parted, openLine, if_neg unfinished, getLast?_concat,
    Option.map_some, counts.currentLineBytes]

end

/-- Of well-formed chunks that leave truncation enough to read, the view is the truncation
of the whole decoded text; which limit it names is read off the number of lines, and of an
open last line cut in part it has the length. -/
theorem snapshot_truncates {limits : Option ShellOutputLimits} {created : OutputCapture}
    (made : create limits = .ok created) (room : 4 ≤ created.maxBytes) {actions : List Action}
    (wellFormed : ∀ action ∈ actions, action.WellFormed)
    (enough : LeavesEnough created.retain created.maxBytes (decodedText .new actions)) :
    let text := decodedText .new actions
    let whole := truncateWhole created.retain text
      { maxBytes := some created.maxBytes, maxLines := some created.maxLines }
    let view := (created.run actions).snapshot
    view.text = sanitizeShellOutput whole.content ∧
      view.truncation = { whole.toTruncation with
        truncatedBy := if whole.truncated then
          some (if created.maxLines < whole.totalLines then .lines else .bytes) else none } ∧
      (view.lastLineBytes.isSome ↔ whole.lastLinePartial = true) ∧
      (whole.lastLinePartial = true → text.getLast? ≠ some newline →
        view.lastLineBytes = (splitLinesForCounting text).getLast?.map utf8ByteLength) := by
  obtain ⟨start, fresh, live⟩ := holds_create made
  obtain ⟨decoded, same, holds⟩ := start.run (by omega) live wellFormed
  rw [fresh] at same
  rw [List.nil_append] at holds
  rw [same] at enough ⊢
  intro text whole view
  have totals : Totals whole text created.maxLines created.maxBytes :=
    truncateWhole_totals created.retain text created.maxLines created.maxBytes
  have output : SameOutput (created.run actions).retained whole := holds.sameOutput room enough
  have kept := retained_totals (created.run actions)
  obtain ⟨totalBytes, totalLines, truncated⟩ := holds.truncated totals
  have partial_ : (created.run actions).retained.lastLinePartial = whole.lastLinePartial :=
    output.lastLinePartial
  have lastLineBytes : view.lastLineBytes =
      if whole.lastLinePartial then some (created.run actions).currentLineBytes else none := by
    rw [← partial_]
    rfl
  refine ⟨congrArg sanitizeShellOutput output.content, ?_, ?_, ?_⟩
  · change Truncation.mk (created.run actions).truncated
      (if (created.run actions).truncated then some (if (created.run actions).maxLines <
        (created.run actions).totalLines then .lines else .bytes) else none)
      (created.run actions).totalLines (created.run actions).totalBytes
      (created.run actions).retained.outputLines (created.run actions).retained.outputBytes
      (created.run actions).retained.lastLinePartial
      (created.run actions).retained.firstLineExceedsLimit
      (created.run actions).retained.maxLines (created.run actions).retained.maxBytes = _
    rw [truncated, totalLines, totalBytes, output.outputLines, output.outputBytes, partial_,
      output.firstLineExceedsLimit, kept.limitLines, kept.limitBytes, holds.maxLines,
      holds.maxBytes, ← totals.limitLines, ← totals.limitBytes]
  · rw [lastLineBytes]
    split
    · rename_i cut
      exact iff_of_true rfl cut
    · rename_i whole_
      exact iff_of_false Bool.false_ne_true whole_
  · intro cut open_
    have nonempty : text ≠ [] := by
      intro empty
      have none_ : whole.lastLinePartial = false := by
        change (truncateWhole created.retain text _).lastLinePartial = false
        rw [empty]
        cases created.retain with
        | head => rfl
        | tail => rfl
      exact absurd cut (by rw [none_]; exact Bool.false_ne_true)
    rw [lastLineBytes, if_pos cut]
    exact (holds.currentLineBytes nonempty open_).symm

def sampleCapture (retain : Retention) (maxBytes maxLines : Nat) : OutputCapture where
  maxBytes := maxBytes
  maxLines := maxLines
  retain := retain
  decoder := .new
  buffer := []
  bufferBytes := 0
  totalBytes := 0
  newlines := 0
  endsWithNewline := true
  currentLineBytes := 0
  disposed := false

def sampleText (text : String) : Action := .push (.text (units text.toList))

def sampleActions : List Action :=
  [sampleText "one\n", .push (.bytes [0xC3]), .push (.bytes [0xA9]), .finish,
    sampleText "0123456789abcdefghijklmnopqrstuvwxyz"]

/-- An accent in two reads, then a long open line: its end is kept and its length reported. -/
theorem snapshot_truncates_sample :
    ((sampleCapture .tail 8 2).run sampleActions).snapshot.text = units "stuvwxyz".toList ∧
      ((sampleCapture .tail 8 2).run sampleActions).snapshot.lastLineBytes = some 38 := by
  have wellFormed : ∀ action ∈ sampleActions, action.WellFormed := by
    intro action mem
    simp only [sampleActions, List.mem_cons, List.not_mem_nil, or_false] at mem
    rcases mem with rfl | rfl | rfl | rfl | rfl
    · exact ⟨_, rfl⟩
    · exact trivial
    · exact trivial
    · exact trivial
    · exact ⟨_, rfl⟩
  have enough : LeavesEnough .tail 8 (decodedText .new sampleActions) :=
    fun _ => by decide +kernel
  obtain ⟨text, -, -, lastLineBytes⟩ :=
    @snapshot_truncates (some { maxBytes := some 8, maxLines := some 2, retain := some .tail })
      (sampleCapture .tail 8 2) rfl (by decide) sampleActions wellFormed enough
  refine ⟨text.trans (by decide +kernel), ?_⟩
  exact (lastLineBytes (by decide +kernel) (by decide +kernel)).trans (by decide +kernel)

/-- The view says of a text what a truncation of all of it says. -/
abbrev Reports (view : ShellOutputView) (whole : TruncationResult) (text : Units) : Prop :=
  view.text = sanitizeShellOutput whole.content ∧
    view.truncation.truncated = whole.truncated ∧
    view.truncation.truncatedBy = whole.truncatedBy ∧
    view.truncation.totalLines = whole.totalLines ∧
    view.truncation.totalBytes = whole.totalBytes ∧
    view.truncation.outputLines = whole.outputLines ∧
    view.truncation.outputBytes = whole.outputBytes ∧
    view.truncation.lastLinePartial = whole.lastLinePartial ∧
    (whole.lastLinePartial = true →
      view.lastLineBytes = (splitLinesForCounting text).getLast?.map utf8ByteLength)

instance (view : ShellOutputView) (whole : TruncationResult) (text : Units) :
    Decidable (Reports view whole text) := inferInstance

abbrev ReportsWhole (created : OutputCapture) (actions : List Action) : Prop :=
  Reports (created.run actions).snapshot
    (truncateWhole created.retain (decodedText .new actions)
      { maxBytes := some created.maxBytes, maxLines := some created.maxLines })
    (decodedText .new actions)

/-- The limit named when both are passed; the length of a last line that is ended; a pair of
surrogates in two chunks; a lone surrogate in a buffer that is cut; a byte order mark in front
of one, from the head and from the tail; and an ended line at the smallest limit. -/
theorem whole_not_reported :
    ¬ ReportsWhole (sampleCapture .head 4 1) [sampleText "abcde\nf"] ∧
      ¬ ReportsWhole (sampleCapture .tail 4 9) [sampleText "abcdefgh\n"] ∧
      ¬ ReportsWhole (sampleCapture .tail 9 9)
        [.push (.text [0xD83D]), .push (.text [0xDE00])] ∧
      ¬ ReportsWhole (sampleCapture .head 4 9)
        [.push (.text (0xD800 :: units "\nabcdefghijklmnopq".toList))] ∧
      ¬ ReportsWhole (sampleCapture .head 4 9) [sampleText "\uFEFFa\nabcdefghijklmnopq"] ∧
      ¬ ReportsWhole (sampleCapture .tail 6 9) [sampleText "abcdefghijkl😀\uFEFFabcdef"] ∧
      ¬ ReportsWhole (sampleCapture .tail 4 9) [sampleText "abcdefgh😀abcd\n"] := by
  decide +kernel

end OutputCapture

end Trpi.Harness
