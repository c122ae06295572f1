import Trpi.Harness.Truncate

/-!
# What truncation reads of its content

The loop over the lines takes no more than the byte limit. So content that agrees on the
lines up to there, whatever is behind them, is truncated to the same lines.
-/

namespace Trpi.Harness

open Library List Option

open Bool hiding not_or
open Library.Utf16 (Units isLead isTrail single pair scalars Seam textEncode)

private theorem scalar_toNat {n : Nat} (valid : n.isValidChar) : (Char.ofNat n).toNat = n := by
  rw [Char.ofNat, dif_pos valid]
  rfl

private theorem encodeChar_length (c : Char) :
    (String.utf8EncodeChar c).length =
      if c.toNat ≤ 0x7f then 1 else if c.toNat ≤ 0x7ff then 2 else if c.toNat ≤ 0xffff then 3
      else 4 := by
  unfold String.utf8EncodeChar
  change (if c.toNat ≤ 0x7f then _ else if c.toNat ≤ 0x7ff then _ else
    if c.toNat ≤ 0xffff then _ else _ : List UInt8).length = _
  split
  · rfl
  split
  · rfl
  split
  · rfl
  · rfl

theorem encodeChar_single (unit : UInt16) :
    (String.utf8EncodeChar (single unit)).length = unitBytes unit := by
  have small := unit.toNat_lt
  rw [single]
  by_cases surrogate : (isLead unit || isTrail unit) = true
  · rw [if_pos surrogate, encodeChar_length, unitBytes]
    have large : 0x7ff < unit.toNat := by
      simp only [isLead, isTrail, or_eq_true, and_eq_true, decide_eq_true_eq] at surrogate
      omega
    have code : Utf8.replacement.toNat = 0xFFFD := scalar_toNat (by unfold Nat.isValidChar; omega)
    rw [code, if_neg (by omega), if_neg (by omega), if_pos (by omega), if_neg (by omega),
      if_neg (by omega)]
  · have valid : unit.toNat.isValidChar := by
      simp only [isLead, isTrail, or_eq_true, and_eq_true, decide_eq_true_eq] at surrogate
      unfold Nat.isValidChar
      omega
    rw [if_neg surrogate, encodeChar_length, scalar_toNat valid, unitBytes]
    rw [if_pos (show unit.toNat ≤ 0xffff by omega)]

theorem encodeChar_pair {lead trail : UInt16} (isPair : isLead lead = true ∧ isTrail trail = true) :
    (String.utf8EncodeChar (pair lead trail)).length = 4 := by
  obtain ⟨first, second⟩ := isPair
  simp only [isLead, isTrail, and_eq_true, decide_eq_true_eq] at first second
  have valid : (0x10000 + (lead.toNat - 0xD800) * 0x400 + (trail.toNat - 0xDC00)).isValidChar := by
    unfold Nat.isValidChar
    omega
  rw [pair, encodeChar_length, scalar_toNat valid, if_neg (by omega), if_neg (by omega),
    if_neg (by omega)]

theorem utf8ByteLength_eq (text : Units) : utf8ByteLength text = (textEncode text).length := by
  induction text using Utf16.pairs_induction with
  | nil => rfl
  | last unit =>
    rw [utf8ByteLength, ← encodeChar_single]
    simp [textEncode, scalars, Utf8.encode]
  | paired unit next rest paired ih =>
    rw [utf8ByteLength, if_pos paired, ih, textEncode, textEncode, scalars, if_pos paired,
      Utf8.encode_cons, length_append, encodeChar_pair (and_eq_true_iff.mp paired)]
  | alone unit next rest apart ih =>
    rw [utf8ByteLength, if_neg apart, ih, textEncode, textEncode, scalars, if_neg apart,
      Utf8.encode_cons, length_append, encodeChar_single]

variable {front back text last : Units} {parts : List Units} {maxBytes maxLines : Nat}
  {opts : TruncationOptions} {collected : Collected}

theorem utf8ByteLength_append (seam : Seam front back) :
    utf8ByteLength (front ++ back) = utf8ByteLength front + utf8ByteLength back := by
  rw [utf8ByteLength_eq, utf8ByteLength_eq, utf8ByteLength_eq, textEncode, textEncode, textEncode,
    Utf16.scalars_append seam, Utf8.encode_append, length_append]

theorem one_le_unitBytes (unit : UInt16) : 1 ≤ unitBytes unit := by
  unfold unitBytes
  split
  · exact Nat.le_refl _
  split <;> omega

theorem utf8ByteLength_pos (nonempty : text ≠ []) : 1 ≤ utf8ByteLength text := by
  induction text using Utf16.pairs_induction with
  | nil => exact absurd rfl nonempty
  | last unit => exact one_le_unitBytes unit
  | paired unit next rest paired ih =>
    rw [utf8ByteLength, if_pos paired]
    omega
  | alone unit next rest apart ih =>
    rw [utf8ByteLength, if_neg apart]
    have first := one_le_unitBytes unit
    omega

abbrev LinesOf (text : Units) (parts : List Units) (last : Units) : Prop :=
  Parts newline text parts last

theorem newline_plain : isLead newline = false ∧ isTrail newline = false := by decide

theorem seam_newline (front rest : Units) : Seam front (newline :: rest) :=
  fun _ => newline_plain.2

theorem newline_seam (rest : Units) : Seam [newline] rest :=
  fun lead => absurd lead (by rw [getLast?_singleton, any_some, newline_plain.1]; decide)

theorem utf8ByteLength_line (line rest : Units) :
    utf8ByteLength (line ++ newline :: rest) = utf8ByteLength line + 1 + utf8ByteLength rest := by
  have ended := utf8ByteLength_append (newline_seam rest)
  rw [singleton_append] at ended
  rw [utf8ByteLength_append (seam_newline line rest), ended, ← Nat.add_assoc]
  rfl

def linesBytes : List Units → Nat
  | [] => 0
  | line :: rest => utf8ByteLength line + 1 + linesBytes rest

theorem utf8ByteLength_lines (parted : LinesOf text parts last) :
    utf8ByteLength text = linesBytes parts + utf8ByteLength last := by
  induction parts generalizing text with
  | nil => rw [parted.nil, linesBytes, Nat.zero_add]
  | cons first parts ih =>
    obtain ⟨-, rest, rfl, later⟩ := parted.of_cons
    rw [utf8ByteLength_line, ih later, linesBytes]
    omega

def openLine (last : Units) : List Units := if last = [] then [] else [last]

theorem splitLinesForCounting_lines (parted : LinesOf text parts last) :
    splitLinesForCounting text = parts ++ openLine last := by
  unfold splitLinesForCounting
  by_cases empty : text = []
  · have flat := parted.same
    rw [empty, eq_comm, append_eq_nil_iff] at flat
    have none_ : parts = [] := by
      cases parts with
      | nil => rfl
      | cons first parts => simp at flat
    rw [if_pos empty, none_, openLine, if_pos flat.2]
    rfl
  · have ends := parted.getLast? empty
    rw [if_neg empty, parted.split, openLine]
    by_cases done : last = []
    · rw [if_pos (ends.mpr done), if_pos done, dropLast_concat, append_nil]
    · rw [if_neg (ends.not.mpr done), if_neg done]

theorem length_openLine (last : Units) : (openLine last).length = if last = [] then 0 else 1 := by
  unfold openLine
  split <;> rfl

theorem linesBytes_openLine (last : Units) :
    linesBytes (openLine last) = if last = [] then 0 else utf8ByteLength last + 1 := by
  unfold openLine
  split <;> rfl

theorem linesBytes_append (first second : List Units) :
    linesBytes (first ++ second) = linesBytes first + linesBytes second := by
  induction first with
  | nil => exact (Nat.zero_add _).symm
  | cons line rest ih =>
    rw [cons_append, linesBytes, linesBytes, ih]
    omega

theorem linesBytes_reverse (lines : List Units) : linesBytes lines.reverse = linesBytes lines := by
  induction lines with
  | nil => rfl
  | cons line rest ih =>
    rw [reverse_cons, linesBytes_append, ih, linesBytes, linesBytes, linesBytes]
    omega

/-- The bytes are those of the lines and of the newlines between them. -/
def Collected.Counted (collected : Collected) : Prop :=
  collected.bytes + (if collected.lines = [] then 0 else 1) = linesBytes collected.lines

theorem Collected.none_counted : Collected.none.Counted := rfl

theorem Collected.Counted.cost (counted : collected.Counted) (line : Units) :
    collected.bytes + collected.cost line = linesBytes collected.lines + utf8ByteLength line := by
  unfold Counted at counted
  unfold Collected.cost
  omega

theorem Collected.Counted.push (counted : collected.Counted)
    (line : Units) : (collected.push line).Counted := by
  have bytes : (collected.push line).bytes = linesBytes collected.lines + utf8ByteLength line :=
    counted.cost line
  have lines : (collected.push line).lines = collected.lines ++ [line] := rfl
  unfold Collected.Counted
  rw [bytes, lines, if_neg (append_ne_nil_of_right_ne_nil _ (cons_ne_nil _ _)), linesBytes_append]
  simp [linesBytes, Nat.add_assoc]

section

variable {maxLines maxBytes : Nat} {collected : Collected}

theorem collectLines_full (full : maxLines ≤ collected.lines.length) (lines : List Units) :
    collectLines maxLines maxBytes collected lines = collected := by
  cases lines with
  | nil => rfl
  | cons line rest => rw [collectLines, if_pos full]

theorem collectLines_append (going : collected.overflow = none) (front back : List Units) :
    collectLines maxLines maxBytes collected (front ++ back) =
      if (collectLines maxLines maxBytes collected front).overflow = none then
        collectLines maxLines maxBytes (collectLines maxLines maxBytes collected front) back
      else collectLines maxLines maxBytes collected front := by
  induction front generalizing collected with
  | nil =>
    rw [collectLines, if_pos going]
    rfl
  | cons line front ih =>
    by_cases full : maxLines ≤ collected.lines.length
    · rw [collectLines_full full, collectLines_full full, collectLines_full full, if_pos going]
    · rw [cons_append, collectLines, collectLines, if_neg full, if_neg full]
      split
      · rw [if_neg]
        exact some_ne_none line
      · exact ih going

/-- A loop that neither broke nor was full took every line. -/
theorem collectLines_all {lines : List Units} (counted : collected.Counted)
    (going : (collectLines maxLines maxBytes collected lines).overflow = none)
    (room : (collectLines maxLines maxBytes collected lines).lines.length < maxLines) :
    (collectLines maxLines maxBytes collected lines).lines = collected.lines ++ lines ∧
      (collectLines maxLines maxBytes collected lines).Counted := by
  induction lines generalizing collected with
  | nil => exact ⟨(append_nil _).symm, counted⟩
  | cons line rest ih =>
    rw [collectLines] at going room ⊢
    by_cases full : maxLines ≤ collected.lines.length
    · rw [if_pos full] at room
      omega
    rw [if_neg full] at going room ⊢
    split at going
    · cases going
    · rename_i fits
      rw [if_neg fits] at room ⊢
      obtain ⟨lines, kept⟩ := ih (counted.push line) going room
      refine ⟨?_, kept⟩
      rw [lines, Collected.push, append_assoc, singleton_append]

/-- The loop has ended, whatever lines follow. -/
def Collected.Ended (maxLines : Nat) (collected : Collected) : Prop :=
  collected.overflow ≠ Option.none ∨ maxLines ≤ collected.lines.length

variable {front : List Units} {line : Units}

theorem collectLines_ended (ended : (collectLines maxLines maxBytes .none front).Ended maxLines)
    (more : List Units) :
    collectLines maxLines maxBytes .none (front ++ more) =
      collectLines maxLines maxBytes .none front := by
  rw [collectLines_append rfl]
  rcases ended with broke | full
  · rw [if_neg broke]
  · split
    · exact collectLines_full full more
    · rfl

/-- A line that passes the limit together with the lines before it is not taken, nor is
any line behind it. -/
theorem collectLines_cross (going : ¬ (collectLines maxLines maxBytes .none front).Ended maxLines)
    (long : maxBytes < linesBytes front + utf8ByteLength line) (more : List Units) :
    (collectLines maxLines maxBytes .none front).lines = front ∧
      collectLines maxLines maxBytes .none (front ++ line :: more) =
        { collectLines maxLines maxBytes .none front with overflow := some line } := by
  rw [Collected.Ended, not_or, ne_eq, Decidable.not_not] at going
  obtain ⟨unbroken, room⟩ := going
  obtain ⟨lines, counted⟩ :=
    collectLines_all Collected.none_counted unbroken (Nat.lt_of_not_le room)
  have cost := counted.cost line
  rw [lines] at cost
  refine ⟨lines, ?_⟩
  rw [collectLines_append rfl, if_pos unbroken, collectLines, if_neg room, if_pos]
  rw [cost]
  exact long

theorem collectLines_same (long : maxBytes < linesBytes front + utf8ByteLength line)
    (more : List Units) :
    (collectLines maxLines maxBytes .none (front ++ line :: more)).lines =
      (collectLines maxLines maxBytes .none front).lines := by
  by_cases ended : (collectLines maxLines maxBytes .none front).Ended maxLines
  · rw [collectLines_ended ended]
  · rw [(collectLines_cross ended long more).2]

end

structure SameOutput (first second : TruncationResult) : Prop where
  content : first.content = second.content
  outputLines : first.outputLines = second.outputLines
  outputBytes : first.outputBytes = second.outputBytes
  lastLinePartial : first.lastLinePartial = second.lastLinePartial
  firstLineExceedsLimit : first.firstLineExceedsLimit = second.firstLineExceedsLimit

theorem SameOutput.refl (result : TruncationResult) : SameOutput result result :=
  ⟨rfl, rfl, rfl, rfl, rfl⟩

theorem SameOutput.symm {first second : TruncationResult} (same : SameOutput first second) :
    SameOutput second first :=
  ⟨same.content.symm, same.outputLines.symm, same.outputBytes.symm, same.lastLinePartial.symm,
    same.firstLineExceedsLimit.symm⟩

theorem SameOutput.trans {first second third : TruncationResult} (same : SameOutput first second)
    (next : SameOutput second third) : SameOutput first third :=
  ⟨same.content.trans next.content, same.outputLines.trans next.outputLines,
    same.outputBytes.trans next.outputBytes, same.lastLinePartial.trans next.lastLinePartial,
    same.firstLineExceedsLimit.trans next.firstLineExceedsLimit⟩

/-- What a result says of all of the content. -/
structure Totals (result : TruncationResult) (content : Units) (maxLines maxBytes : Nat) : Prop where
  totalLines : result.totalLines = (splitLinesForCounting content).length
  totalBytes : result.totalBytes = utf8ByteLength content
  limitLines : result.maxLines = maxLines
  limitBytes : result.maxBytes = maxBytes
  truncated : result.truncated = true ↔
    maxBytes < utf8ByteLength content ∨ maxLines < (splitLinesForCounting content).length

section

variable {opts : TruncationOptions} {maxLines maxBytes : Nat}

section

variable (limitLines : opts.maxLines = some maxLines) (limitBytes : opts.maxBytes = some maxBytes)
  (content : Units)

include limitLines limitBytes

theorem truncateHead_totals : Totals (truncateHead content opts) content maxLines maxBytes := by
  unfold truncateHead
  simp only [limitLines, limitBytes, getD_some]
  split
  · rename_i fits
    exact ⟨rfl, rfl, rfl, rfl, by simp only [untruncated, false_eq_true, false_iff]; omega⟩
  split
  · exact ⟨rfl, rfl, rfl, rfl, by simp only [true_iff]; omega⟩
  · exact ⟨rfl, rfl, rfl, rfl, by simp only [true_iff]; omega⟩

theorem truncateTail_totals : Totals (truncateTail content opts) content maxLines maxBytes := by
  unfold truncateTail
  simp only [limitLines, limitBytes, getD_some]
  split
  · rename_i fits
    exact ⟨rfl, rfl, rfl, rfl, by simp only [untruncated, false_eq_true, false_iff]; omega⟩
  · exact ⟨rfl, rfl, rfl, rfl, by simp only [true_iff]; omega⟩

end

end

theorem utf8ByteLength_le_append (seam : Seam front back) :
    utf8ByteLength front ≤ utf8ByteLength (front ++ back) := by
  rw [utf8ByteLength_append seam]
  exact Nat.le_add_right _ _

theorem seam_line (seam : Seam front back) {line rest : Units} (starts : back = line ++ rest)
    (parted : LinesOf front parts last) : Seam last line := by
  intro lead
  have nonempty : last ≠ [] := by
    rintro rfl
    cases lead
  have final : front.getLast? = last.getLast? := by
    rw [parted.same, getLast?_append_of_ne_nil _ nonempty]
  have trail := seam (by rw [final]; exact lead)
  cases line with
  | nil => rfl
  | cons unit line =>
    rw [starts] at trail
    exact trail

theorem lines_extend {shared more : Units} (parted : LinesOf shared parts last)
    (seam : Seam shared more) :
    (last = [] ∧ splitLinesForCounting (shared ++ more) = parts) ∨
      ∃ line rest, splitLinesForCounting (shared ++ more) = parts ++ line :: rest ∧
        utf8ByteLength last ≤ utf8ByteLength line := by
  obtain ⟨others, final, then_⟩ := exists_parts newline more
  rw [splitLinesForCounting_lines (parted.append then_)]
  cases others with
  | nil =>
    rw [if_pos rfl, modifyHead_nil, append_nil, openLine]
    split
    · rename_i empty
      exact .inl ⟨(append_eq_nil_iff.mp empty).1, append_nil _⟩
    · have close := seam_line seam (show more = final ++ [] by rw [then_.nil, append_nil]) parted
      exact .inr ⟨last ++ final, [], rfl, utf8ByteLength_le_append close⟩
  | cons first others =>
    obtain ⟨-, rest, starts, -⟩ := then_.of_cons
    have close := seam_line seam starts parted
    refine .inr ⟨last ++ first, others ++ openLine final, ?_, utf8ByteLength_le_append close⟩
    rw [if_neg (cons_ne_nil _ _), modifyHead_cons, append_assoc, cons_append]

section

variable {opts : TruncationOptions} {maxLines maxBytes : Nat}

theorem beyond_limit {content : Units} (lines : Nat) (long : maxBytes < utf8ByteLength content) :
    ¬ (lines ≤ maxLines ∧ utf8ByteLength content ≤ maxBytes) :=
  fun fits => absurd fits.2 (Nat.not_le.mpr long)

theorem truncateHead_same {first second : Units}
    (limitLines : opts.maxLines = some maxLines) (limitBytes : opts.maxBytes = some maxBytes)
    (longFirst : maxBytes < utf8ByteLength first) (longSecond : maxBytes < utf8ByteLength second)
    (head : maxBytes < utf8ByteLength ((splitLinesForCounting first).headD []) ↔
      maxBytes < utf8ByteLength ((splitLinesForCounting second).headD []))
    (lines : (collectLines maxLines maxBytes .none (splitLinesForCounting first)).lines =
      (collectLines maxLines maxBytes .none (splitLinesForCounting second)).lines) :
    SameOutput (truncateHead first opts) (truncateHead second opts) := by
  unfold truncateHead
  simp only [limitLines, limitBytes, getD_some]
  rw [if_neg (beyond_limit _ longFirst), if_neg (beyond_limit _ longSecond)]
  by_cases exceeds : maxBytes < utf8ByteLength ((splitLinesForCounting first).headD [])
  · rw [if_pos exceeds, if_pos (head.mp exceeds)]
    exact ⟨rfl, rfl, rfl, rfl, rfl⟩
  · rw [if_neg exceeds, if_neg (head.not.mp exceeds)]
    exact ⟨congrArg join lines, congrArg length lines,
      congrArg (fun kept => utf8ByteLength (join kept)) lines, rfl, rfl⟩

theorem truncateHead_extend {shared more : Units}
    (limitLines : opts.maxLines = some maxLines) (limitBytes : opts.maxBytes = some maxBytes)
    (long : maxBytes < utf8ByteLength shared) (seam : Seam shared more) :
    SameOutput (truncateHead (shared ++ more) opts) (truncateHead shared opts) := by
  obtain ⟨parts, last, parted⟩ := exists_parts newline shared
  have bytes := utf8ByteLength_lines parted
  have here : splitLinesForCounting shared = parts ++ openLine last :=
    splitLinesForCounting_lines parted
  have longer : maxBytes < utf8ByteLength (shared ++ more) :=
    Nat.lt_of_lt_of_le long (utf8ByteLength_le_append seam)
  rcases lines_extend parted seam with ⟨empty, there⟩ | ⟨line, rest, there, wide⟩
  · rw [openLine, if_pos empty, append_nil] at here
    apply truncateHead_same limitLines limitBytes longer long
    · rw [here, there]
    · rw [here, there]
  · have crossing : maxBytes < linesBytes parts + utf8ByteLength line := by omega
    apply truncateHead_same limitLines limitBytes longer long
    · rw [here, there]
      cases parts with
      | nil =>
        have alone : maxBytes < utf8ByteLength last := by
          rw [bytes] at long
          simpa [linesBytes] using long
        have nonempty : last ≠ [] := by
          rintro rfl
          exact absurd alone (Nat.not_lt_zero _)
        rw [openLine, if_neg nonempty]
        exact iff_of_true (Nat.lt_of_lt_of_le alone wide) alone
      | cons first parts => exact Iff.rfl
    · rw [here, there, collectLines_same crossing, openLine]
      split
      · rw [append_nil]
      · exact (collectLines_same (by omega) []).symm

end

theorem utf8ByteLength_snoc_pair {lead trail : UInt16}
    (paired : isTrail trail = true ∧ isLead lead = true) :
    utf8ByteLength (front ++ [lead, trail]) = utf8ByteLength front + 4 := by
  have lone : isTrail lead = false := by
    have isLead_ := paired.2
    simp only [isLead, isTrail, and_eq_true, decide_eq_true_eq, and_eq_false_iff,
      decide_eq_false_iff_not] at isLead_ ⊢
    omega
  have seam : Seam front [lead, trail] := fun _ => lone
  rw [utf8ByteLength_append seam, utf8ByteLength, if_pos (and_eq_true_iff.mpr ⟨paired.2, paired.1⟩)]
  rfl

theorem utf8ByteLength_snoc {unit : UInt16} (seam : Seam front [unit]) :
    utf8ByteLength (front ++ [unit]) = utf8ByteLength front + unitBytes unit :=
  utf8ByteLength_append seam

theorem fitFromEnd_append (front backwards : Units)
    (starts : backwards.getLast?.any isTrail = false) {used : Nat} (fits : used ≤ maxBytes)
    (long : maxBytes < used + utf8ByteLength backwards.reverse) (output : Units) (replaced : Bool) :
    fitFromEnd maxBytes used (backwards ++ front) output replaced =
      fitFromEnd maxBytes used backwards output replaced := by
  induction used, backwards, output, replaced using fitFromEnd.induct maxBytes with
  | case1 used output replaced =>
    rw [reverse_nil, utf8ByteLength] at long
    omega
  | case2 used code output replaced wide =>
    have plain : isTrail code = false := starts
    cases front with
    | nil => rfl
    | cons previous front =>
      have single : ¬ (isTrail code && isLead previous) = true := by simp [plain]
      rw [singleton_append, fitFromEnd.eq_3, if_neg single, if_pos wide, fitFromEnd, if_pos wide]
  | case3 used code output replaced narrow => exact absurd long narrow
  | case4 used code previous rest output replaced paired wide =>
    rw [cons_append, cons_append, fitFromEnd, if_pos paired, if_pos wide, fitFromEnd,
      if_pos paired, if_pos wide]
  | case5 used code previous rest output replaced paired narrow ih =>
    have both := and_eq_true_iff.mp paired
    rw [reverse_cons, reverse_cons, append_assoc, singleton_append,
      utf8ByteLength_snoc_pair both] at long
    rw [cons_append, cons_append, fitFromEnd, if_pos paired, if_neg narrow, fitFromEnd,
      if_pos paired, if_neg narrow]
    refine ih ?_ (by omega) (by omega)
    cases rest with
    | nil => rfl
    | cons => exact starts
  | case6 used code previous rest output replaced single wide =>
    rw [cons_append, cons_append, fitFromEnd, if_neg single, if_pos wide, fitFromEnd,
      if_neg single, if_pos wide]
  | case7 used code previous rest output replaced single narrow ih =>
    have seam : Seam (previous :: rest).reverse [code] := by
      intro lead
      rw [getLast?_reverse, head?_cons, any_some] at lead
      simpa [lead] using single
    rw [reverse_cons, utf8ByteLength_snoc seam] at long
    rw [cons_append, cons_append, fitFromEnd, if_neg single, if_neg narrow, fitFromEnd,
      if_neg single, if_neg narrow]
    exact ih starts (by omega) (by omega)

theorem truncateStringToBytesFromEnd_append (front : Units)
    (starts : last.head?.any isTrail = false) (long : maxBytes < utf8ByteLength last) :
    truncateStringToBytesFromEnd (front ++ last) maxBytes =
      truncateStringToBytesFromEnd last maxBytes := by
  have stops : fitFromEnd maxBytes 0 (front ++ last).reverse [] false =
      fitFromEnd maxBytes 0 last.reverse [] false := by
    rw [reverse_append]
    apply fitFromEnd_append
    · rw [getLast?_reverse, starts]
    · exact Nat.zero_le _
    · rw [reverse_reverse, Nat.zero_add]
      exact long
  rw [truncateStringToBytesFromEnd, truncateStringToBytesFromEnd, stops]

/-- What the loop from the tail leaves is cut out of the kept end alone. -/
theorem tailLines_extend (front : Units) (starts : last.head?.any isTrail = false)
    {kept : List Units} (long : maxBytes < linesBytes kept + utf8ByteLength last)
    (more others : List Units) :
    (collectLines maxLines maxBytes .none (kept ++ (front ++ last) :: more)).tailLines maxBytes =
      (collectLines maxLines maxBytes .none (kept ++ last :: others)).tailLines maxBytes := by
  by_cases ended : (collectLines maxLines maxBytes .none kept).Ended maxLines
  · rw [collectLines_ended ended, collectLines_ended ended]
  · have seam : Seam front last := fun _ => starts
    have wide := utf8ByteLength_append seam
    obtain ⟨lines, same⟩ := collectLines_cross ended long others
    obtain ⟨-, extended⟩ :=
      collectLines_cross ended (show maxBytes < linesBytes kept + utf8ByteLength (front ++ last) by
        omega) more
    rw [same, extended]
    unfold Collected.tailLines
    dsimp only
    rw [lines]
    cases kept with
    | nil =>
      have alone : maxBytes < utf8ByteLength last := by simpa [linesBytes] using long
      simp only [truncateStringToBytesFromEnd_append front starts alone]
    | cons line kept => rfl

theorem truncateTail_same {first second : Units}
    (limitLines : opts.maxLines = some maxLines)
    (limitBytes : opts.maxBytes = some maxBytes) (longFirst : maxBytes < utf8ByteLength first)
    (longSecond : maxBytes < utf8ByteLength second)
    (lines : (collectLines maxLines maxBytes .none
        (splitLinesForCounting first).reverse).tailLines maxBytes =
      (collectLines maxLines maxBytes .none
        (splitLinesForCounting second).reverse).tailLines maxBytes) :
    SameOutput (truncateTail first opts) (truncateTail second opts) := by
  unfold truncateTail
  simp only [limitLines, limitBytes, getD_some]
  rw [if_neg (beyond_limit _ longFirst), if_neg (beyond_limit _ longSecond), lines]
  exact ⟨rfl, rfl, rfl, rfl, rfl⟩

theorem truncateTail_extend {dropped kept : Units} (limitLines : opts.maxLines = some maxLines)
    (limitBytes : opts.maxBytes = some maxBytes) (starts : kept.head?.any isTrail = false)
    (long : maxBytes + (if kept.getLast? = some newline then 1 else 0) < utf8ByteLength kept) :
    SameOutput (truncateTail (dropped ++ kept) opts) (truncateTail kept opts) := by
  have seam : Seam dropped kept := fun _ => starts
  have nonempty : kept ≠ [] := by
    rintro rfl
    exact absurd long (Nat.not_lt_zero _)
  have whole := utf8ByteLength_append seam
  apply truncateTail_same limitLines limitBytes (by omega) (by omega)
  obtain ⟨parts, last, parted⟩ := exists_parts newline kept
  obtain ⟨before, open_, split⟩ := exists_parts newline dropped
  have ends := parted.getLast? nonempty
  have bytes := utf8ByteLength_lines parted
  rw [splitLinesForCounting_lines parted, splitLinesForCounting_lines (split.append parted)]
  cases parts with
  | nil =>
    have same : kept = last := parted.nil
    have none_ : last ≠ [] := same ▸ nonempty
    have joined : open_ ++ last ≠ [] := append_ne_nil_of_right_ne_nil _ none_
    rw [if_pos rfl, modifyHead_nil, append_nil, openLine, if_neg joined, openLine,
      if_neg none_, reverse_append]
    have wide : maxBytes < linesBytes [] + utf8ByteLength last := by
      rw [← same]
      rw [linesBytes]
      omega
    exact tailLines_extend open_ (same ▸ starts) wide before.reverse []
  | cons first parts =>
    obtain ⟨-, rest, begins, -⟩ := parted.of_cons
    have head : first.head?.any isTrail = false := by
      cases first with
      | nil => rfl
      | cons unit first =>
        rw [begins] at starts
        exact starts
    have wide : maxBytes < linesBytes (parts ++ openLine last).reverse + utf8ByteLength first := by
      rw [linesBytes_reverse, linesBytes_append, linesBytes_openLine]
      rw [linesBytes] at bytes
      by_cases done : last = []
      · rw [if_pos (ends.mpr done)] at long
        rw [if_pos done]
        rw [done, utf8ByteLength] at bytes
        omega
      · rw [if_neg (ends.not.mpr done)] at long
        rw [if_neg done]
        omega
    rw [if_neg (cons_ne_nil _ _), modifyHead_cons, append_assoc, cons_append,
      cons_append, reverse_append, reverse_cons, reverse_cons, append_assoc, singleton_append]
    exact tailLines_extend open_ head wide before.reverse []

end Trpi.Harness
