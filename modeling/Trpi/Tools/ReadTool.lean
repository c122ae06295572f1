import Trpi.Harness.TruncationLimits

/-!
# Read tool

The text branch of `execute` in agent/src/harness/tools/read.ts, for a file that is no image. Its
output is the content of the truncation and a notice that names the next offset; the offset and the
limit count lines. Whoever follows the notices reads every line once.
-/

namespace Trpi.Tools

open Library Harness List
open Library.Utf16 (Units units textEncode)

/-- A number of units with one decimal. -/
def toFixed (bytes unit : Nat) : String :=
  let tenths := (bytes * 20 + unit) / (unit * 2)
  toString (tenths / 10) ++ "." ++ toString (tenths % 10)

def formatSize (bytes : Nat) : String :=
  if bytes < 1024 then toString bytes ++ "B"
  else if bytes < 1024 * 1024 then toFixed bytes 1024 ++ "KB"
  else toFixed bytes (1024 * 1024) ++ "MB"

/-- What the output says behind its content. -/
inductive ReadNotice where
  | lineExceeds (line firstLineSize : Nat)
  | showing (startLine endLine totalFileLines : Nat) (truncatedBy : Option Limit)
  | remaining (lines nextOffset : Nat)

namespace ReadNotice

def nextOffset : ReadNotice → Option Nat
  | .lineExceeds _ _ => none
  | .showing _ endLine _ _ => some (endLine + 1)
  | .remaining _ nextOffset => some nextOffset

def text (path : String) : ReadNotice → String
  | .lineExceeds line firstLineSize =>
    "[Line " ++ toString line ++ " is " ++ formatSize firstLineSize ++ ", exceeds " ++
      formatSize DEFAULT_MAX_BYTES ++ " limit. Use bash: sed -n '" ++ toString line ++ "p' " ++ path ++
      " | head -c " ++ toString DEFAULT_MAX_BYTES ++ "]"
  | .showing startLine endLine totalFileLines truncatedBy =>
    "\n\n[Showing lines " ++ toString startLine ++ "-" ++ toString endLine ++ " of " ++
      toString totalFileLines ++
      (if truncatedBy = some .lines then "" else " (" ++ formatSize DEFAULT_MAX_BYTES ++ " limit)") ++
      ". Use offset=" ++ toString (endLine + 1) ++ " to continue.]"
  | .remaining lines nextOffset =>
    "\n\n[" ++ toString lines ++ " more lines in file. Use offset=" ++ toString nextOffset ++
      " to continue.]"

end ReadNotice

structure ReadPage where
  content : Units
  notice : Option ReadNotice
  details : Option TruncationResult

def ReadPage.outputText (path : String) (page : ReadPage) : Units :=
  page.content ++ units ((page.notice.map (·.text path)).getD "").toList

def ReadPage.nextOffset (page : ReadPage) : Option Nat := page.notice.bind ReadNotice.nextOffset

structure BeyondEnd where
  offset : Nat
  lines : Nat

def BeyondEnd.message (error : BeyondEnd) : String :=
  "Offset " ++ toString error.offset ++ " is beyond end of file (" ++ toString error.lines ++
    " lines total)"

/-- `endLine`, without a limit the end of the file. -/
def endOf (startLine totalFileLines : Nat) : Option Nat → Nat
  | some limit => min (startLine + limit) totalFileLines
  | none => totalFileLines

def readLines (allLines : List Units) (offset limit : Option Nat) : Except BeyondEnd ReadPage :=
  let startLine := offset.getD 0 - 1
  if allLines.length ≤ startLine then .error ⟨offset.getD 0, allLines.length⟩
  else
    let endLine := endOf startLine allLines.length limit
    let truncation := truncateHead (join ((allLines.take endLine).drop startLine)) ⟨none, none⟩
    if truncation.firstLineExceedsLimit then .ok {
      content := truncation.content
      notice := some (.lineExceeds (startLine + 1)
        (textEncode ((allLines.drop startLine).headD [])).length)
      details := some truncation }
    else if truncation.truncated then .ok {
      content := truncation.content
      notice := some (.showing (startLine + 1) (startLine + 1 + truncation.outputLines - 1)
        allLines.length truncation.truncatedBy)
      details := some truncation }
    else if limit.isSome ∧ endLine < allLines.length then .ok {
      content := truncation.content
      notice := some (.remaining (allLines.length - endLine) (endLine + 1))
      details := none }
    else .ok { content := truncation.content, notice := none, details := none }

def textContent (bytes : List UInt8) : Units := units (decodeText bytes)

def read (bytes : List UInt8) (offset limit : Option Nat) : Except BeyondEnd ReadPage :=
  readLines (split [newline] (textContent bytes)) offset limit

def readPages (bytes : List UInt8) (limit : Option Nat) : Nat → Nat → Option (List Units)
  | 0, _ => none
  | fuel + 1, offset =>
    match read bytes (some offset) limit with
    | .error _ => none
    | .ok page =>
      match page.nextOffset with
      | none => some [page.content]
      | some next => (readPages bytes limit fuel next).map (page.content :: ·)

variable {lines chunk rest : List Units} {last : Units} {limit : Option Nat} {start : Nat}

theorem join_concat (lines : List Units) (last : Units) :
    join (lines ++ [last]) = lines.flatMap (· ++ [newline]) ++ last := by
  induction lines with
  | nil => simp [join]
  | cons line lines ih =>
    obtain ⟨next, others, same⟩ : ∃ next others, lines ++ [last] = next :: others :=
      exists_cons_of_ne_nil (append_ne_nil_of_right_ne_nil _ (cons_ne_nil _ _))
    rw [cons_append, same, join_cons_cons, ← same, ih]
    simp

theorem linesOf_join (plain : ∀ line ∈ lines ++ [last], newline ∉ line) :
    LinesOf (join (lines ++ [last])) lines last :=
  ⟨join_concat lines last, fun line mem => plain line (mem_append_left _ mem),
    plain last (mem_append_right _ mem_cons_self)⟩

theorem split_join (nonempty : lines ≠ []) (plain : ∀ line ∈ lines, newline ∉ line) :
    split [newline] (join lines) = lines := by
  rcases eq_nil_or_concat lines with rfl | ⟨front, last, rfl⟩
  · exact absurd rfl nonempty
  · rw [concat_eq_append] at plain ⊢
    exact (linesOf_join plain).split

theorem join_append (first : chunk ≠ []) (second : rest ≠ []) :
    join (chunk ++ rest) = join chunk ++ newline :: join rest := by
  obtain ⟨next, others, rfl⟩ := exists_cons_of_ne_nil second
  induction chunk with
  | nil => exact absurd rfl first
  | cons line chunk ih =>
    cases chunk with
    | nil => simp [join, List.intercalate]
    | cons line' chunk =>
      rw [cons_append, cons_append, join_cons_cons, ← cons_append, ih (cons_ne_nil _ _),
        join_cons_cons, append_assoc, cons_append]

/-- The page takes some of the lines from its offset on, and names the next one if there is one. -/
structure PageOf (lines : List Units) (start : Nat) (page : ReadPage) (taken : Nat) : Prop where
  some_ : 0 < taken
  inside : start + taken ≤ lines.length
  content : page.content = join ((lines.drop start).take taken)
  next : page.nextOffset = if start + taken < lines.length then some (start + taken + 1) else none

/-- A cut page keeps less than it was asked for: the final newline is a line of the tool's. -/
theorem truncateHead_page (nonempty : chunk ≠ []) (plain : ∀ line ∈ chunk, newline ∉ line)
    (short : ∀ line ∈ chunk, utf8ByteLength line ≤ DEFAULT_MAX_BYTES)
    (cut : (truncateHead (join chunk) ⟨none, none⟩).truncated = true) :
    ∃ taken, 0 < taken ∧ taken < chunk.length ∧
      (truncateHead (join chunk) ⟨none, none⟩).firstLineExceedsLimit = false ∧
      (truncateHead (join chunk) ⟨none, none⟩).content = join (chunk.take taken) ∧
      (truncateHead (join chunk) ⟨none, none⟩).outputLines = taken := by
  rcases eq_nil_or_concat chunk with rfl | ⟨front, last, rfl⟩
  · exact absurd rfl nonempty
  rw [concat_eq_append] at *
  have parted := linesOf_join plain
  have counted := splitLinesForCounting_lines parted
  have begins : splitLinesForCounting (join (front ++ [last])) <+: front ++ [last] := by
    rw [counted, prefix_append_right_inj, openLine]
    split
    · exact nil_prefix
    · exact prefix_rfl
  by_cases fits : (splitLinesForCounting (join (front ++ [last]))).length ≤ DEFAULT_MAX_LINES ∧
      utf8ByteLength (join (front ++ [last])) ≤ DEFAULT_MAX_BYTES
  · rw [truncateHead_fits rfl rfl fits] at cut
    cases cut
  obtain ⟨left, taken⟩ := taken_collectLines DEFAULT_MAX_LINES DEFAULT_MAX_BYTES
    (splitLinesForCounting (join (front ++ [last])))
  have head : HeadCut (join (front ++ [last])) DEFAULT_MAX_LINES DEFAULT_MAX_BYTES
      (collectLines DEFAULT_MAX_LINES DEFAULT_MAX_BYTES .none
        (splitLinesForCounting (join (front ++ [last]))))
      (truncateHead (join (front ++ [last])) ⟨none, none⟩) :=
    truncateHead_cut rfl rfl (by decide) fits
  have first : utf8ByteLength ((splitLinesForCounting (join (front ++ [last]))).headD []) ≤
      DEFAULT_MAX_BYTES := by
    obtain ⟨line, rest, same⟩ := exists_cons_of_ne_nil (lines_of_cut fits)
    rw [same] at begins ⊢
    exact short line (begins.subset mem_cons_self)
  refine ⟨_, length_pos_iff.mpr fun none_ => ?_, ?_, ?_, ?_, head.outputLines⟩
  · have wide := taken.first_exceeds (by decide) (lines_of_cut fits) none_
    omega
  · apply Nat.lt_of_not_le
    intro all
    have whole := congrArg length taken.parts
    have few := begins.length_le
    rw [length_append] at whole
    have done : left = [] := length_eq_zero_iff.mp (by omega)
    have beyond := (newlineBeyond_iff _ _ _).mpr ⟨taken.left_iff.mp done, fits⟩
    have open_ := congrArg length counted
    have joined : join (front ++ [last]) ≠ [] := by
      intro empty
      rw [empty] at beyond
      cases beyond.1
    rw [length_append, openLine, if_pos ((parted.getLast? joined).mp beyond.1), length_nil] at open_
    rw [length_append, length_singleton] at all
    omega
  · exact Bool.eq_false_iff.mpr fun exceeds => by
      have wide := head.exceeds.mp exceeds
      omega
  · have prefix_ := IsPrefix.trans ⟨left, taken.parts.symm⟩ begins
    rw [head.same, ← prefix_iff_eq_take.mp prefix_]

theorem read_page (plain : ∀ line ∈ lines, newline ∉ line)
    (short : ∀ line ∈ lines, utf8ByteLength line ≤ DEFAULT_MAX_BYTES)
    (positive : ∀ n ∈ limit, 1 ≤ n) (inside : start < lines.length) :
    ∃ page taken, readLines lines (some (start + 1)) limit = .ok page ∧
      PageOf lines start page taken := by
  obtain ⟨endLine, same, after, before, whole⟩ : ∃ endLine, endOf start lines.length limit = endLine ∧
      start < endLine ∧ endLine ≤ lines.length ∧ (limit = none → endLine = lines.length) := by
    cases limit with
    | none => exact ⟨_, rfl, inside, Nat.le_refl _, fun _ => rfl⟩
    | some n =>
      have one := positive n rfl
      refine ⟨_, rfl, ?_, Nat.min_le_right _ _, fun none_ => by cases none_⟩
      rw [endOf]
      omega
  have asked : (lines.take endLine).drop start = (lines.drop start).take (endLine - start) :=
    drop_take
  have length : ((lines.take endLine).drop start).length = endLine - start := by
    rw [length_drop, length_take]
    omega
  have within : ∀ line ∈ (lines.take endLine).drop start, line ∈ lines := fun line mem =>
    mem_of_mem_take (mem_of_mem_drop mem)
  have nonempty : (lines.take endLine).drop start ≠ [] := by
    intro none_
    rw [none_, length_nil] at length
    omega
  have cut := truncateHead_page nonempty (fun line mem => plain line (within line mem))
    (fun line mem => short line (within line mem))
  have unread : ¬ lines.length ≤ (some (start + 1)).getD 0 - 1 := Nat.not_le.mpr inside
  unfold readLines
  rw [if_neg unread]
  simp only [Option.getD_some, Nat.add_sub_cancel]
  rw [same]
  by_cases truncated : (truncateHead (join ((lines.take endLine).drop start))
      ⟨none, none⟩).truncated = true
  · obtain ⟨taken, some_, fewer, exceeds, content, outputLines⟩ := cut truncated
    rw [if_neg (Bool.eq_false_iff.mp exceeds), if_pos truncated]
    refine ⟨_, taken, rfl, some_, by omega, ?_, ?_⟩
    · rw [content, asked, take_take, Nat.min_eq_left (by omega)]
    · rw [if_pos (by omega), ← outputLines]
      exact congrArg some (by omega)
  · have fits : (splitLinesForCounting (join ((lines.take endLine).drop start))).length ≤
          DEFAULT_MAX_LINES ∧
        utf8ByteLength (join ((lines.take endLine).drop start)) ≤ DEFAULT_MAX_BYTES := by
      refine Decidable.not_not.mp fun over_ => truncated ?_
      exact (truncateHead_cut rfl rfl (by decide) over_).truncated
    rw [truncateHead_fits rfl rfl fits]
    simp only [untruncated, Bool.false_eq_true, if_false]
    by_cases more : limit.isSome ∧ endLine < lines.length
    · rw [if_pos more]
      refine ⟨_, endLine - start, rfl, by omega, by omega, by rw [asked], ?_⟩
      rw [if_pos (by omega)]
      exact congrArg some (by omega)
    · have all : endLine = lines.length := by
        cases limit with
        | none => exact whole rfl
        | some n => simp at more; omega
      rw [if_neg more]
      refine ⟨_, endLine - start, rfl, by omega, by omega, by rw [asked], ?_⟩
      rw [if_neg (by omega)]
      rfl

variable {bytes : List UInt8}

theorem readPages_from (short : ∀ line ∈ split [newline] (textContent bytes),
      utf8ByteLength line ≤ DEFAULT_MAX_BYTES)
    (positive : ∀ n ∈ limit, 1 ≤ n) (fuel : Nat)
    (inside : start < (split [newline] (textContent bytes)).length)
    (enough : (split [newline] (textContent bytes)).length - start ≤ fuel) :
    ∃ pages, readPages bytes limit fuel (start + 1) = some pages ∧ pages ≠ [] ∧
      join pages = join ((split [newline] (textContent bytes)).drop start) ∧
      pages.flatMap (split [newline]) = (split [newline] (textContent bytes)).drop start := by
  have plain : ∀ line ∈ split [newline] (textContent bytes), newline ∉ line := by
    obtain ⟨parts, last, parted⟩ := exists_parts newline (textContent bytes)
    rw [parted.split]
    intro line mem
    rcases mem_append.mp mem with early | final
    · exact parted.plain line early
    · rw [mem_singleton.mp final]
      exact parted.plainLast
  induction fuel generalizing start with
  | zero => omega
  | succ fuel ih =>
    obtain ⟨page, taken, ran, page_⟩ := read_page plain short positive inside
    have some_ := page_.some_
    have room := page_.inside
    have next := page_.next
    have parts := take_append_drop taken ((split [newline] (textContent bytes)).drop start)
    have chunk : ((split [newline] (textContent bytes)).drop start).take taken ≠ [] := by
      intro none_
      have length := congrArg length none_
      rw [length_take, length_drop, length_nil] at length
      omega
    have content : split [newline] page.content =
        ((split [newline] (textContent bytes)).drop start).take taken := by
      rw [page_.content]
      exact split_join chunk fun line mem => plain line (mem_of_mem_drop (mem_of_mem_take mem))
    unfold readPages
    rw [read, ran]
    dsimp only
    rw [next]
    by_cases more : start + taken < (split [newline] (textContent bytes)).length
    · rw [if_pos more]
      obtain ⟨pages, later, nonempty, joined, kept⟩ := ih more (by omega)
      rw [← drop_drop] at joined kept
      have rest : ((split [newline] (textContent bytes)).drop start).drop taken ≠ [] := by
        intro none_
        have length := congrArg length none_
        rw [length_drop, length_drop, length_nil] at length
        omega
      refine ⟨page.content :: pages, ?_, cons_ne_nil _ _, ?_, ?_⟩
      · dsimp only
        rw [later]
        rfl
      · rw [← singleton_append, join_append (cons_ne_nil _ _) nonempty, joined]
        rw [← parts, join_append chunk rest, parts, page_.content]
        simp [join]
      · rw [flatMap_cons, content, kept, parts]
    · rw [if_neg more]
      have all : ((split [newline] (textContent bytes)).drop start).take taken =
          (split [newline] (textContent bytes)).drop start :=
        take_of_length_le (by rw [length_drop]; omega)
      rw [all] at content
      refine ⟨[page.content], rfl, cons_ne_nil _ _, ?_, by simp [content]⟩
      rw [page_.content, all]
      simp [join]

end Trpi.Tools
