import Trpi.Harness.TruncateLines

/-!
# How much truncation keeps

Both directions keep as many complete lines as the two limits let. A last line that is too long by
itself is cut at a character. The label names the line limit when it ended the loop, except in two
cases: nothing but the final newline is beyond the byte limit, or the one line allowed is cut.
-/

namespace Trpi.Harness

open Library List Option

open Collected hiding none
open Library.Utf16 (Units isLead isTrail single scalars Seam scalars_single scalars_pair)

variable {maxLines maxBytes : Nat} {lines kept other : List Units} {content : Units}
  {kind : List Units → Prop}

theorem join_cons_cons (line next : Units) (rest : List Units) :
    join (line :: next :: rest) = line ++ newline :: join (next :: rest) := by
  simp [join, List.intercalate]

theorem utf8ByteLength_join (lines : List Units) :
    utf8ByteLength (join lines) + (if lines = [] then 0 else 1) = linesBytes lines := by
  induction lines with
  | nil => rfl
  | cons line rest ih =>
    cases rest with
    | nil => simp [join, linesBytes]
    | cons next rest =>
      rw [if_neg (cons_ne_nil _ _)] at ih ⊢
      rw [join_cons_cons, utf8ByteLength_line, linesBytes, ← ih]
      omega

structure Within (maxLines maxBytes : Nat) (run : List Units) : Prop where
  lines : run.length ≤ maxLines
  bytes : utf8ByteLength (join run) ≤ maxBytes

theorem within_reverse : Within maxLines maxBytes lines.reverse ↔ Within maxLines maxBytes lines := by
  have same := utf8ByteLength_join lines.reverse
  rw [linesBytes_reverse, ← utf8ByteLength_join lines] at same
  simp only [reverse_eq_nil_iff] at same
  constructor
  · intro within
    exact ⟨by simpa using within.lines, by have := within.bytes; omega⟩
  · intro within
    exact ⟨by simpa using within.lines, by have := within.bytes; omega⟩

/-- The longest run within the limits among those of one kind. -/
structure Longest (kind : List Units → Prop) (maxLines maxBytes : Nat) (kept : List Units) : Prop where
  isKind : kind kept
  within : Within maxLines maxBytes kept
  longest : ∀ other, kind other → Within maxLines maxBytes other → other.length ≤ kept.length

theorem Longest.length_eq (first : Longest kind maxLines maxBytes kept)
    (second : Longest kind maxLines maxBytes other) : kept.length = other.length :=
  Nat.le_antisymm (second.longest kept first.isKind first.within)
    (first.longest other second.isKind second.within)

theorem Longest.reverse (longest : Longest (· <+: lines.reverse) maxLines maxBytes kept) :
    Longest (· <:+ lines) maxLines maxBytes kept.reverse := by
  refine ⟨?_, within_reverse.mpr longest.within, fun other suffix within => ?_⟩
  · rw [← reverse_prefix, reverse_reverse]
    exact longest.isKind
  · have length := longest.longest other.reverse (List.reverse_prefix.mpr suffix)
      (within_reverse.mpr within)
    simpa using length

/-- What the loop took of the lines, and why it took no more. -/
structure Taken (maxLines maxBytes : Nat) (lines : List Units) (collected : Collected)
    (left : List Units) : Prop where
  parts : lines = collected.lines ++ left
  counted : collected.Counted
  few : collected.lines.length ≤ maxLines
  short : collected.bytes ≤ maxBytes
  stopped : (collected.overflow = none ∧ (left = [] ∨ collected.lines.length = maxLines)) ∨
    ∃ line rest, collected.overflow = some line ∧ left = line :: rest ∧
      collected.lines.length < maxLines ∧
      maxBytes < linesBytes collected.lines + utf8ByteLength line

theorem collectLines_taken {collected : Collected} (counted : collected.Counted)
    (going : collected.overflow = none) (few : collected.lines.length ≤ maxLines)
    (short : collected.bytes ≤ maxBytes) (lines : List Units) :
    ∃ left, Taken maxLines maxBytes (collected.lines ++ lines)
      (collectLines maxLines maxBytes collected lines) left := by
  induction lines generalizing collected with
  | nil => exact ⟨[], rfl, counted, few, short, .inl ⟨going, .inl rfl⟩⟩
  | cons line rest ih =>
    rw [collectLines]
    by_cases full : maxLines ≤ collected.lines.length
    · rw [if_pos full]
      exact ⟨line :: rest, rfl, counted, few, short, .inl ⟨going, .inr (by omega)⟩⟩
    rw [if_neg full]
    by_cases wide : maxBytes < collected.bytes + collected.cost line
    · rw [if_pos wide]
      refine ⟨line :: rest, rfl, counted, few, short, .inr ⟨line, rest, rfl, rfl, ?_, ?_⟩⟩
      · exact Nat.lt_of_not_le full
      · rw [← counted.cost line]
        exact wide
    · rw [if_neg wide]
      have more : (collected.push line).lines.length ≤ maxLines := by
        simp only [push, length_append, length_singleton]
        omega
      obtain ⟨left, taken⟩ := ih (counted.push line) going more (Nat.le_of_not_lt wide)
      refine ⟨left, ?_, taken.counted, taken.few, taken.short, taken.stopped⟩
      rw [← taken.parts, push, append_assoc, singleton_append]

theorem taken_collectLines (maxLines maxBytes : Nat) (lines : List Units) :
    ∃ left, Taken maxLines maxBytes lines (collectLines maxLines maxBytes .none lines) left :=
  collectLines_taken none_counted rfl (Nat.zero_le _) (Nat.zero_le _) lines

variable {collected : Collected} {left : List Units}

theorem Taken.longest (taken : Taken maxLines maxBytes lines collected left) :
    Longest (· <+: lines) maxLines maxBytes collected.lines := by
  have bytes := utf8ByteLength_join collected.lines
  have counted := taken.counted
  have short := taken.short
  rw [Collected.Counted, ← bytes] at counted
  refine ⟨⟨left, taken.parts.symm⟩, ⟨taken.few, by omega⟩, fun other start within => ?_⟩
  apply Nat.le_of_not_lt
  intro longer
  have enclosed : collected.lines <+: other :=
    prefix_of_prefix_length_le ⟨left, taken.parts.symm⟩ start (by omega)
  obtain ⟨more, rfl⟩ := enclosed
  rw [length_append] at longer
  rcases taken.stopped with ⟨-, rfl | full⟩ | ⟨line, rest, -, rfl, -, wide⟩
  · have length := start.length_le
    rw [taken.parts, length_append, length_append, length_nil] at length
    omega
  · have few := within.lines
    rw [length_append] at few
    omega
  · have split := start
    rw [taken.parts, prefix_append_right_inj] at split
    cases more with
    | nil => simp at longer
    | cons first more =>
      obtain ⟨rfl, -⟩ := cons_prefix_cons.mp split
      have whole := utf8ByteLength_join (collected.lines ++ first :: more)
      have limit := within.bytes
      rw [if_neg (append_ne_nil_of_right_ne_nil _ (cons_ne_nil _ _)), linesBytes_append,
        linesBytes] at whole
      omega

theorem scalars_replaceUnpairedSurrogates (text : Units) :
    scalars (replaceUnpairedSurrogates text) = scalars text := by
  have replaced (unit : UInt16) :
      isLead (if isSurrogate unit then replacementUnit else unit) = false ∧
        single (if isSurrogate unit then replacementUnit else unit) = single unit := by
    by_cases surrogate : isSurrogate unit = true
    · rw [if_pos surrogate]
      have char : single unit = Utf8.replacement := if_pos surrogate
      exact ⟨by decide, char.symm ▸ by decide⟩
    · rw [if_neg surrogate]
      rw [isSurrogate, Bool.or_eq_true, not_or] at surrogate
      exact ⟨Bool.eq_false_iff.mpr surrogate.1, rfl⟩
  induction text using Utf16.pairs_induction with
  | nil => rfl
  | last unit =>
    rw [replaceUnpairedSurrogates, scalars, scalars, (replaced unit).2]
  | paired unit next rest paired ih =>
    have both := Bool.and_eq_true_iff.mp paired
    rw [replaceUnpairedSurrogates, if_pos paired, scalars_pair both, scalars_pair both, ih]
  | alone unit next rest apart ih =>
    have seam (rest : Units) :
        Seam [if isSurrogate unit then replacementUnit else unit] rest := by
      intro lead
      rw [getLast?_singleton, any_some, (replaced unit).1] at lead
      cases lead
    rw [replaceUnpairedSurrogates, if_neg apart, scalars_single (seam _), (replaced unit).2, ih,
      scalars, if_neg apart]

/-- The longest end of a text that fits and begins with a character. -/
def LongestEnd (maxBytes : Nat) (text : Units) (back : Units) : Prop :=
  (∃ front, text = front ++ back ∧ Seam front back) ∧ utf8ByteLength back ≤ maxBytes ∧
    ∀ front other, text = front ++ other → Seam front other → utf8ByteLength other ≤ maxBytes →
      other.length ≤ back.length

/-- The text is the longest end, its unpaired surrogates replaced. -/
def EndOf (maxBytes : Nat) (text out : Units) : Prop :=
  ∃ back, LongestEnd maxBytes text back ∧ scalars out = scalars back

theorem seam_of_append {start middle piece : Units} (seam : Seam (start ++ middle) piece) :
    Seam middle piece := by
  intro lead
  have nonempty : middle ≠ [] := by
    rintro rfl
    cases lead
  exact seam (by rw [getLast?_append_of_ne_nil _ nonempty]; exact lead)

theorem seam_append {front middle piece : Units} (seam : Seam front middle)
    (next : Seam (front ++ middle) piece) : Seam front (middle ++ piece) := by
  cases middle with
  | nil => simpa using next
  | cons unit middle => exact seam

variable {text piece back : Units} {used : Nat} {result : TruncationResult}

theorem LongestEnd.snoc (room : utf8ByteLength piece ≤ maxBytes) (seam : Seam text piece)
    (ends : LongestEnd (maxBytes - utf8ByteLength piece) text back) :
    LongestEnd maxBytes (text ++ piece) (back ++ piece) := by
  obtain ⟨⟨front, rfl, apart⟩, fits, longest⟩ := ends
  refine ⟨⟨front, append_assoc .., seam_append apart seam⟩, ?_, fun start other same cut fitting => ?_⟩
  · rw [utf8ByteLength_append (seam_of_append seam)]
    omega
  · rw [length_append]
    rcases append_eq_append_iff.mp same with ⟨inside, -, split⟩ | ⟨inside, split, rfl⟩
    · have length := congrArg length split
      rw [length_append] at length
      omega
    · have close : Seam inside piece := seam_of_append (split ▸ seam)
      rw [utf8ByteLength_append close] at fitting
      have cutBefore : Seam start inside := by
        intro lead
        cases inside with
        | nil => rfl
        | cons unit inside => exact cut lead
      have shorter := longest start inside split cutBefore (by omega)
      rw [length_append]
      omega

theorem LongestEnd.nil (wide : maxBytes < utf8ByteLength piece) (seam : Seam text piece)
    (solid : ∀ start rest, piece = start ++ rest → start ≠ [] → rest ≠ [] →
      ¬ Seam (text ++ start) rest) : LongestEnd maxBytes (text ++ piece) [] := by
  refine ⟨⟨text ++ piece, (append_nil _).symm, fun _ => rfl⟩, Nat.zero_le _,
    fun start other same cut fitting => ?_⟩
  rcases append_eq_append_iff.mp same with ⟨inside, rfl, split⟩ | ⟨inside, rfl, rfl⟩
  · by_cases none_ : other = []
    · rw [none_]
    · by_cases whole : inside = []
      · rw [whole, nil_append] at split
        rw [← split] at fitting
        omega
      · exact absurd cut (solid inside other split whole none_)
  · rw [utf8ByteLength_append (seam_of_append seam)] at fitting
    omega

theorem solid_single {unit : UInt16} (start rest : Units) (same : [unit] = start ++ rest)
    (first : start ≠ []) (second : rest ≠ []) : ¬ Seam (text ++ start) rest := by
  have length := congrArg length same
  have one := length_pos_of_ne_nil first
  have two := length_pos_of_ne_nil second
  rw [length_append, length_singleton] at length
  omega

theorem solid_pair {lead trail : UInt16} (both : isTrail trail = true ∧ isLead lead = true)
    (start rest : Units) (same : [lead, trail] = start ++ rest)
    (first : start ≠ []) (second : rest ≠ []) : ¬ Seam (text ++ start) rest := by
  obtain ⟨unit, start, rfl⟩ := exists_cons_of_ne_nil first
  obtain ⟨next, rest, rfl⟩ := exists_cons_of_ne_nil second
  cases start with
  | cons => simp at same
  | nil =>
    obtain ⟨rfl, rfl, rfl⟩ : lead = unit ∧ trail = next ∧ rest = [] := by simpa using same
    intro seam
    have plain := seam (by simp [both.2])
    simp [both.1] at plain

theorem last_pair {front : Units} {lead trail : UInt16}
    (both : isTrail trail = true ∧ isLead lead = true) :
    Seam front [lead, trail] ∧ utf8ByteLength [lead, trail] = 4 := by
  have bytes := @utf8ByteLength_snoc_pair [] _ _ both
  refine ⟨fun _ => ?_, by simpa [utf8ByteLength] using bytes⟩
  have leads := both.2
  simp only [isLead, Bool.and_eq_true, decide_eq_true_eq] at leads
  simp only [head?_cons, any_some, isTrail, Bool.and_eq_false_iff, decide_eq_false_iff_not]
  omega

theorem last_single {code previous : UInt16} {rest : Units}
    (single : ¬ (isTrail code && isLead previous) = true) :
    Seam (previous :: rest).reverse [code] := by
  intro lead
  rw [getLast?_reverse, head?_cons, any_some] at lead
  simpa [lead] using single

theorem fitFromEnd_longest (backwards : Units) (fits : used ≤ maxBytes) (output : Units)
    (replaced : Bool) :
    ∃ back, (fitFromEnd maxBytes used backwards output replaced).1 = back ++ output ∧
      LongestEnd (maxBytes - used) backwards.reverse back := by
  induction used, backwards, output, replaced using fitFromEnd.induct maxBytes with
  | case1 used output replaced =>
    refine ⟨[], rfl, ⟨[], rfl, fun _ => rfl⟩, Nat.zero_le _, fun front other same _ _ => ?_⟩
    rw [(append_eq_nil_iff.mp same.symm).2]
  | case2 used code output replaced wide =>
    rw [fitFromEnd, if_pos wide]
    have alone : utf8ByteLength [code] = unitBytes code := rfl
    refine ⟨[], rfl, @LongestEnd.nil _ [] _ (by omega) (fun lead => ?_) solid_single⟩
    cases lead
  | case3 used code output replaced narrow =>
    rw [fitFromEnd, if_neg narrow]
    have alone : utf8ByteLength [code] = unitBytes code := rfl
    refine ⟨[code], rfl, ⟨[], rfl, fun lead => ?_⟩, by omega, fun front other same _ _ => ?_⟩
    · cases lead
    · have length := congrArg length same
      simp only [reverse_singleton, length_singleton, length_append] at length ⊢
      omega
  | case4 used code previous rest output replaced paired wide =>
    have both := Bool.and_eq_true_iff.mp paired
    obtain ⟨seam, bytes⟩ := @last_pair rest.reverse _ _ both
    rw [fitFromEnd, if_pos paired, if_pos wide, reverse_cons, reverse_cons, append_assoc,
      singleton_append]
    exact ⟨[], rfl, LongestEnd.nil (by omega) seam (solid_pair both)⟩
  | case5 used code previous rest output replaced paired narrow ih =>
    have both := Bool.and_eq_true_iff.mp paired
    obtain ⟨seam, bytes⟩ := @last_pair rest.reverse _ _ both
    obtain ⟨back, same, ends⟩ := ih (by omega)
    rw [fitFromEnd, if_pos paired, if_neg narrow, reverse_cons, reverse_cons, append_assoc,
      singleton_append, same]
    rw [Nat.sub_add_eq, ← bytes] at ends
    exact ⟨back ++ [previous, code], by simp, ends.snoc (by omega) seam⟩
  | case6 used code previous rest output replaced single wide =>
    have alone : utf8ByteLength [code] = unitBytes code := rfl
    rw [fitFromEnd, if_neg single, if_pos wide, reverse_cons]
    exact ⟨[], rfl, LongestEnd.nil (by omega) (last_single single) solid_single⟩
  | case7 used code previous rest output replaced single narrow ih =>
    have alone : utf8ByteLength [code] = unitBytes code := rfl
    obtain ⟨back, same, ends⟩ := ih (by omega)
    rw [fitFromEnd, if_neg single, if_neg narrow, reverse_cons, same]
    rw [Nat.sub_add_eq, ← alone] at ends
    exact ⟨back ++ [code], by simp, ends.snoc (by omega) (last_single single)⟩

theorem truncateStringToBytesFromEnd_end (text : Units) (maxBytes : Nat) :
    EndOf maxBytes text (truncateStringToBytesFromEnd text maxBytes) := by
  unfold truncateStringToBytesFromEnd
  by_cases none_ : maxBytes = 0
  · rw [if_pos none_, none_]
    refine ⟨[], ⟨⟨text, (append_nil _).symm, fun _ => rfl⟩, Nat.le_refl _,
      fun front other same cut fits => ?_⟩, rfl⟩
    by_cases empty : other = []
    · rw [empty]
    · have bytes := utf8ByteLength_pos empty
      omega
  · obtain ⟨back, same, ends⟩ := fitFromEnd_longest text.reverse (Nat.zero_le maxBytes) [] false
    rw [append_nil] at same
    rw [reverse_reverse] at ends
    rw [if_neg none_]
    dsimp only
    rw [same]
    refine ⟨back, ends, ?_⟩
    split
    · exact scalars_replaceUnpairedSurrogates back
    · rfl

theorem EndOf.bytes {out : Units} (ends : EndOf maxBytes text out) :
    utf8ByteLength out ≤ maxBytes := by
  obtain ⟨back, longest, same⟩ := ends
  rw [utf8ByteLength_eq, Utf16.textEncode, same, ← Utf16.textEncode, ← utf8ByteLength_eq]
  exact longest.2.1

/-- What ended the run: as many lines as there may be, and there are more. -/
def stoppedBy (maxLines kept total : Nat) : Limit :=
  if kept = maxLines ∧ kept < total then .lines else .bytes

/-- The run that is kept of lines that do not all fit, and its label. -/
structure Cut (kind : List Units → Prop) (lines : List Units) (maxLines maxBytes : Nat)
    (result : TruncationResult) (kept : List Units) : Prop where
  longest : Longest kind maxLines maxBytes kept
  label : result.truncatedBy = some (stoppedBy maxLines kept.length lines.length)

theorem Cut.label_of (cut : Cut kind lines maxLines maxBytes result other)
    (longest : Longest kind maxLines maxBytes kept) :
    result.truncatedBy = some (stoppedBy maxLines kept.length lines.length) := by
  rw [cut.label, longest.length_eq cut.longest]

/-- Nothing is changed. -/
structure Whole (content : Units) (result : TruncationResult) : Prop where
  same : result.content = content
  outputLines : result.outputLines = (splitLinesForCounting content).length
  label : result.truncatedBy = none
  complete : result.lastLinePartial = false ∧ result.firstLineExceedsLimit = false

structure HeadCorrect (content : Units) (maxLines maxBytes : Nat) (result : TruncationResult) :
    Prop where
  totals : Totals result content maxLines maxBytes
  outputBytes : result.outputBytes = utf8ByteLength result.content
  whole : result.truncated = false → Whole content result
  cut : result.truncated = true →
    ∃ kept, Cut (· <+: splitLinesForCounting content) (splitLinesForCounting content)
        maxLines maxBytes result kept ∧
      result.content = join kept ∧ result.outputLines = kept.length ∧
      result.lastLinePartial = false ∧
      (result.firstLineExceedsLimit = true ↔
        maxBytes < utf8ByteLength ((splitLinesForCounting content).headD []))

/-- From the tail a last line that is too long by itself is kept in part. -/
structure TailCorrect (content : Units) (maxLines maxBytes : Nat) (result : TruncationResult) :
    Prop where
  totals : Totals result content maxLines maxBytes
  outputBytes : result.outputBytes = utf8ByteLength result.content
  whole : result.truncated = false → Whole content result
  cut : result.truncated = true →
    ∃ kept, Cut (· <:+ splitLinesForCounting content) (splitLinesForCounting content)
        maxLines maxBytes result kept ∧
      result.firstLineExceedsLimit = false ∧
      if maxBytes < utf8ByteLength ((splitLinesForCounting content).getLastD []) then
        result.lastLinePartial = true ∧ result.outputLines = 1 ∧
          EndOf maxBytes ((splitLinesForCounting content).getLastD []) result.content
      else
        result.lastLinePartial = false ∧ result.content = join kept ∧
          result.outputLines = kept.length

/-- All lines fit, and only the newline behind the last one is beyond the byte limit. -/
def NewlineBeyond (content : Units) (maxLines maxBytes : Nat) : Prop :=
  content.getLast? = some newline ∧ utf8ByteLength content = maxBytes + 1 ∧
    (splitLinesForCounting content).length ≤ maxLines

theorem splitLinesForCounting_nil {parts : List Units} {last : Units}
    (parted : LinesOf content parts last) (none_ : splitLinesForCounting content = []) :
    parts = [] ∧ last = [] := by
  rw [splitLinesForCounting_lines parted, append_eq_nil_iff, openLine] at none_
  by_cases done : last = []
  · exact ⟨none_.1, done⟩
  · simp [done] at none_

theorem lines_of_cut (cut : ¬ ((splitLinesForCounting content).length ≤ maxLines ∧
    utf8ByteLength content ≤ maxBytes)) : splitLinesForCounting content ≠ [] := by
  intro none_
  obtain ⟨parts, last, parted⟩ := exists_parts newline content
  obtain ⟨rfl, rfl⟩ := splitLinesForCounting_nil parted none_
  have bytes := utf8ByteLength_lines parted
  rw [none_, bytes] at cut
  simp [linesBytes, utf8ByteLength] at cut

theorem newlineBeyond_iff (content : Units) (maxLines maxBytes : Nat) :
    NewlineBeyond content maxLines maxBytes ↔
      Within maxLines maxBytes (splitLinesForCounting content) ∧
        ¬ ((splitLinesForCounting content).length ≤ maxLines ∧
          utf8ByteLength content ≤ maxBytes) := by
  obtain ⟨parts, last, parted⟩ := exists_parts newline content
  have lines := splitLinesForCounting_lines parted
  have bytes := utf8ByteLength_lines parted
  have joined := utf8ByteLength_join (splitLinesForCounting content)
  rw [lines, linesBytes_append, linesBytes_openLine, ← lines] at joined
  have ends (nonempty : content ≠ []) := parted.getLast? nonempty
  constructor
  · rintro ⟨final, size, few⟩
    have nonempty : content ≠ [] := by
      rintro rfl
      cases final
    have done := (ends nonempty).mp final
    rw [if_pos done] at joined
    rw [done, utf8ByteLength] at bytes
    refine ⟨⟨few, ?_⟩, by omega⟩
    split at joined
    · rename_i same
      rw [(splitLinesForCounting_nil parted same).1, linesBytes] at bytes
      omega
    · omega
  · rintro ⟨⟨few, short⟩, cut⟩
    have long : maxBytes < utf8ByteLength content := by omega
    by_cases done : last = []
    · rw [if_pos done] at joined
      rw [done, utf8ByteLength] at bytes
      have nonempty : content ≠ [] := by
        rintro rfl
        simp [utf8ByteLength] at long
      refine ⟨(ends nonempty).mpr done, ?_, few⟩
      split at joined
      · omega
      · omega
    · rw [if_neg done, if_neg (lines_of_cut cut)] at joined
      omega

theorem Taken.left_iff (taken : Taken maxLines maxBytes lines collected left) :
    left = [] ↔ Within maxLines maxBytes lines := by
  have whole := congrArg length taken.parts
  rw [length_append] at whole
  constructor
  · rintro rfl
    rw [taken.parts, append_nil]
    exact taken.longest.within
  · intro within
    have length := taken.longest.longest lines prefix_rfl within
    exact length_eq_zero_iff.mp (by omega)

theorem Taken.label (taken : Taken maxLines maxBytes lines collected left) :
    collected.truncatedBy maxLines maxBytes collected.lines collected.bytes =
      stoppedBy maxLines collected.lines.length lines.length ↔ left ≠ [] := by
  have short := taken.short
  have whole := congrArg length taken.parts
  rw [length_append] at whole
  unfold truncatedBy stoppedBy
  rcases taken.stopped with ⟨going, ended⟩ | ⟨line, rest, broke, rfl, room, -⟩
  · by_cases all : left = []
    · have nothing : ¬ (collected.lines.length = maxLines ∧
          collected.lines.length < lines.length) := by
        rw [all, length_nil] at whole
        omega
      rw [if_neg nothing, going]
      simp [all]
    · have more := length_pos_of_ne_nil all
      have full : collected.lines.length = maxLines := by
        rcases ended with none_ | full
        · exact absurd none_ all
        · exact full
      rw [if_pos ⟨full.ge, short⟩, if_pos ⟨full, by omega⟩]
      simp [all]
  · have under : ¬ (maxLines ≤ collected.lines.length ∧ collected.bytes ≤ maxBytes) := by omega
    have apart : ¬ (collected.lines.length = maxLines ∧ collected.lines.length < lines.length) := by
      omega
    rw [if_neg under, if_neg apart, broke]
    simp

theorem Taken.first_exceeds (taken : Taken maxLines maxBytes lines collected left)
    (room : 0 < maxLines) (nonempty : lines ≠ []) (none_ : collected.lines = []) :
    maxBytes < utf8ByteLength (lines.headD []) := by
  have parts := taken.parts
  rw [none_, nil_append] at parts
  rcases taken.stopped with ⟨-, ended | full⟩ | ⟨first, others, -, same, -, wide⟩
  · exact absurd (parts.trans ended) nonempty
  · rw [none_, length_nil] at full
    omega
  · rw [none_, linesBytes, Nat.zero_add] at wide
    rw [parts, same]
    exact wide

/-- Nothing is taken when the first line is too long by itself. -/
theorem collectLines_first (room : 0 < maxLines) (nonempty : lines ≠ []) :
    maxBytes < utf8ByteLength (lines.headD []) ↔
      collectLines maxLines maxBytes .none lines =
        { Collected.none with overflow := some (lines.headD []) } := by
  obtain ⟨line, rest, rfl⟩ := exists_cons_of_ne_nil nonempty
  obtain ⟨left, taken⟩ := taken_collectLines maxLines maxBytes (line :: rest)
  constructor
  · intro wide
    rw [headD_cons] at wide
    have over_ : maxBytes < Collected.none.bytes + Collected.none.cost line := by
      simpa [Collected.none, cost] using wide
    rw [collectLines, if_neg (show ¬ maxLines ≤ Collected.none.lines.length by
      simpa [Collected.none] using Nat.ne_of_gt room), if_pos over_]
    rfl
  · intro same
    rw [same] at taken
    exact taken.first_exceeds room nonempty rfl

/-- A result that is cut, from what the loop took. -/
structure HeadCut (content : Units) (maxLines maxBytes : Nat) (collected : Collected)
    (result : TruncationResult) : Prop where
  truncated : result.truncated = true
  same : result.content = join collected.lines
  outputLines : result.outputLines = collected.lines.length
  outputBytes : result.outputBytes = utf8ByteLength result.content
  complete : result.lastLinePartial = false
  exceeds : result.firstLineExceedsLimit = true ↔
    maxBytes < utf8ByteLength ((splitLinesForCounting content).headD [])
  label : result.truncatedBy =
    some (collected.truncatedBy maxLines maxBytes collected.lines collected.bytes)

section

variable {options : TruncationOptions} (limitLines : options.maxLines.getD DEFAULT_MAX_LINES = maxLines)
  (limitBytes : options.maxBytes.getD DEFAULT_MAX_BYTES = maxBytes)

include limitLines limitBytes

theorem truncateHead_fits (fits : (splitLinesForCounting content).length ≤ maxLines ∧
    utf8ByteLength content ≤ maxBytes) :
    truncateHead content options = untruncated content (splitLinesForCounting content).length
      (utf8ByteLength content) maxLines maxBytes := by
  unfold truncateHead
  dsimp only
  rw [limitLines, limitBytes, if_pos fits]

theorem truncateHead_cut (room : 0 < maxLines)
    (cut : ¬ ((splitLinesForCounting content).length ≤ maxLines ∧
      utf8ByteLength content ≤ maxBytes)) :
    HeadCut content maxLines maxBytes
      (collectLines maxLines maxBytes .none (splitLinesForCounting content))
      (truncateHead content options) := by
  unfold truncateHead
  dsimp only
  rw [limitLines, limitBytes, if_neg cut]
  by_cases exceeds : maxBytes < utf8ByteLength ((splitLinesForCounting content).headD [])
  · rw [if_pos exceeds, (collectLines_first room (lines_of_cut cut)).mp exceeds]
    refine ⟨rfl, rfl, rfl, rfl, rfl, iff_of_true rfl exceeds, ?_⟩
    simp [truncatedBy, Collected.none, Nat.ne_of_gt room]
  · rw [if_neg exceeds]
    exact ⟨rfl, rfl, rfl, rfl, rfl, iff_of_false (by simp) exceeds, rfl⟩

end

theorem truncateHead_correct (content : Units) (maxBytes : Nat) (room : 0 < maxLines) :
    HeadCorrect content maxLines maxBytes
        (truncateHead content ⟨some maxLines, some maxBytes⟩) ↔
      ¬ NewlineBeyond content maxLines maxBytes := by
  have totals := @truncateHead_totals ⟨some maxLines, some maxBytes⟩ _ _ rfl rfl content
  obtain ⟨left, taken⟩ := taken_collectLines maxLines maxBytes (splitLinesForCounting content)
  rw [newlineBeyond_iff, ← taken.left_iff]
  by_cases fits : (splitLinesForCounting content).length ≤ maxLines ∧
      utf8ByteLength content ≤ maxBytes
  · rw [truncateHead_fits rfl rfl fits] at totals ⊢
    refine iff_of_true ⟨totals, rfl, fun _ => ⟨rfl, rfl, rfl, rfl, rfl⟩, fun cut => ?_⟩
      fun beyond => beyond.2 fits
    cases cut
  have cut := @truncateHead_cut _ _ _ ⟨some maxLines, some maxBytes⟩ rfl rfl room fits
  simp only [fits, not_false_eq_true, and_true]
  rw [← ne_eq, ← taken.label]
  constructor
  · intro correct
    obtain ⟨kept, kept_, -⟩ := correct.cut cut.truncated
    exact some.inj (cut.label.symm.trans (kept_.label_of taken.longest))
  · intro named
    refine ⟨totals, cut.outputBytes, fun whole => ?_, fun _ => ⟨_, ⟨taken.longest, ?_⟩, cut.same,
      cut.outputLines, cut.complete, cut.exceeds⟩⟩
    · rw [cut.truncated] at whole
      cases whole
    · exact cut.label.trans (congrArg some named)

theorem lastLine_le (content : Units) :
    utf8ByteLength ((splitLinesForCounting content).getLastD []) ≤ utf8ByteLength content := by
  obtain ⟨parts, last, parted⟩ := exists_parts newline content
  have lines := splitLinesForCounting_lines parted
  have bytes := utf8ByteLength_lines parted
  have whole := congrArg linesBytes lines
  rw [linesBytes_append, linesBytes_openLine] at whole
  rcases eq_nil_or_concat (splitLinesForCounting content) with none_ | ⟨front, line, same⟩
  · rw [none_]
    exact Nat.zero_le _
  · rw [same, concat_eq_append, linesBytes_append, linesBytes, linesBytes] at whole
    rw [same, concat_eq_append, getLastD_concat]
    split at whole
    · omega
    · omega

/-- With a line that fits, the loop leaves the lines it took. -/
theorem tailLines_of_lines (some_ : collected.lines ≠ []) :
    collected.tailLines maxBytes = (collected.lines.reverse, collected.bytes, false) := by
  unfold tailLines
  split
  · rename_i none_ _
    exact absurd none_ some_
  · rfl

theorem headD_reverse (lines : List Units) : lines.reverse.headD [] = lines.getLastD [] := by
  rw [headD_eq_head?_getD, head?_reverse, getLastD_eq_getLast?]

theorem tailCorrect_iff {named : Limit}
    (taken : Taken maxLines maxBytes (splitLinesForCounting content).reverse collected left)
    (totals : Totals result content maxLines maxBytes) (cut : result.truncated = true)
    (outputBytes : result.outputBytes = utf8ByteLength result.content)
    (inside : result.firstLineExceedsLimit = false)
    (label : result.truncatedBy = some named)
    (output : if maxBytes < utf8ByteLength ((splitLinesForCounting content).getLastD []) then
        result.lastLinePartial = true ∧ result.outputLines = 1 ∧
          EndOf maxBytes ((splitLinesForCounting content).getLastD []) result.content
      else
        result.lastLinePartial = false ∧ result.content = join collected.lines.reverse ∧
          result.outputLines = collected.lines.reverse.length) :
    TailCorrect content maxLines maxBytes result ↔
      named = stoppedBy maxLines collected.lines.length (splitLinesForCounting content).length := by
  have longest := taken.longest.reverse
  constructor
  · intro correct
    obtain ⟨kept, kept_, -⟩ := correct.cut cut
    rw [kept_.label_of longest, length_reverse] at label
    exact (some.inj label).symm
  · intro right
    refine ⟨totals, outputBytes, fun whole => ?_, fun _ => ⟨_, ⟨longest, ?_⟩, inside, output⟩⟩
    · rw [cut] at whole
      cases whole
    · rw [label, right, length_reverse]

theorem truncateTail_correct (content : Units) (maxBytes : Nat) (room : 0 < maxLines) :
    TailCorrect content maxLines maxBytes
        (truncateTail content ⟨some maxLines, some maxBytes⟩) ↔
      ¬ NewlineBeyond content maxLines maxBytes ∧
        ¬ (maxLines = 1 ∧
          maxBytes < utf8ByteLength ((splitLinesForCounting content).getLastD [])) := by
  have totals := @truncateTail_totals ⟨some maxLines, some maxBytes⟩ _ _ rfl rfl content
  obtain ⟨left, taken⟩ :=
    taken_collectLines maxLines maxBytes (splitLinesForCounting content).reverse
  rw [newlineBeyond_iff, ← within_reverse, ← taken.left_iff]
  revert totals
  unfold truncateTail
  simp only [getD_some]
  by_cases fits : (splitLinesForCounting content).length ≤ maxLines ∧
      utf8ByteLength content ≤ maxBytes
  · have short := Nat.le_trans (lastLine_le content) fits.2
    rw [if_pos fits]
    intro totals
    refine iff_of_true ⟨totals, rfl, fun _ => ⟨rfl, rfl, rfl, rfl, rfl⟩, fun cut => ?_⟩
      ⟨fun beyond => beyond.2 fits, fun cut => by omega⟩
    cases cut
  rw [if_neg fits]
  simp only [fits, not_false_eq_true, and_true]
  have nonempty := reverse_ne_nil_iff.mpr (lines_of_cut fits)
  have first := @collectLines_first _ maxBytes _ room nonempty
  have last_ := taken.first_exceeds room nonempty
  have label := taken.label
  rw [headD_reverse] at first last_
  rw [length_reverse] at label
  intro totals
  generalize collectLines maxLines maxBytes .none (splitLinesForCounting content).reverse =
    collected at *
  by_cases exceeds : maxBytes < utf8ByteLength ((splitLinesForCounting content).getLastD [])
  · have ends := truncateStringToBytesFromEnd_end ((splitLinesForCounting content).getLastD [])
      maxBytes
    have broke := first.mp exceeds
    have more : left ≠ [] := by
      rintro rfl
      exact nonempty (by rw [taken.parts, broke]; rfl)
    rw [tailCorrect_iff taken totals rfl rfl rfl rfl]
    · have single : maxLines ≤ 1 ↔ maxLines = 1 := by omega
      simp only [broke, tailLines, truncatedBy, Collected.none, stoppedBy,
        length_singleton, length_nil, ends.bytes, single, and_true, isSome_some, if_true,
        Nat.ne_of_lt room, false_and, if_false, more, exceeds, not_false_eq_true, true_and]
      by_cases only : maxLines = 1
      · simp [only]
      · simp [only]
    · rw [if_pos exceeds, broke]
      exact ⟨rfl, rfl, by simpa [tailLines, Collected.none, join] using ends⟩
  · have tail := @tailLines_of_lines maxBytes _ fun none_ => exceeds (last_ none_)
    rw [tailCorrect_iff taken totals rfl rfl rfl rfl]
    · simp only [exceeds, and_false, not_false_eq_true, and_true, tail]
      rw [← ne_eq, ← label, truncatedBy, truncatedBy, length_reverse]
    · rw [if_neg exceeds, tail]
      exact ⟨rfl, rfl, rfl⟩

theorem truncate_correct (content : Units) (maxLines maxBytes : Nat) (room : 0 < maxLines) :
    (HeadCorrect content maxLines maxBytes
        (truncateHead content ⟨some maxLines, some maxBytes⟩) ↔
      ¬ NewlineBeyond content maxLines maxBytes) ∧
    (TailCorrect content maxLines maxBytes
        (truncateTail content ⟨some maxLines, some maxBytes⟩) ↔
      ¬ NewlineBeyond content maxLines maxBytes ∧
        ¬ (maxLines = 1 ∧
          maxBytes < utf8ByteLength ((splitLinesForCounting content).getLastD []))) :=
  ⟨truncateHead_correct content maxBytes room, truncateTail_correct content maxBytes room⟩

theorem truncate_correct_sample :
    HeadCorrect [0x61, 0x62, newline, 0x63] 1 3
      (truncateHead [0x61, 0x62, newline, 0x63] ⟨some 1, some 3⟩) :=
  (truncate_correct [0x61, 0x62, newline, 0x63] 1 3 (by decide)).1.mpr fun beyond => by
    cases beyond.1

/-- One line and its newline, where the line alone is as long as may be: no line is beyond the line
limit, but the label names it. -/
theorem newline_mislabelled :
    ¬ (HeadCorrect [0x61, newline] 2000 1 (truncateHead [0x61, newline] ⟨some 2000, some 1⟩) ∧
      TailCorrect [0x61, newline] 2000 1 (truncateTail [0x61, newline] ⟨some 2000, some 1⟩)) := by
  rintro ⟨head, -⟩
  have beyond : NewlineBeyond [0x61, newline] 2000 1 := by
    have parted : LinesOf [0x61, newline] [[0x61]] [] := ⟨rfl, by decide, by decide⟩
    refine ⟨rfl, by decide, ?_⟩
    rw [splitLinesForCounting_lines parted]
    decide
  exact (truncateHead_correct [0x61, newline] 1 (by decide)).mp head beyond

end Trpi.Harness
