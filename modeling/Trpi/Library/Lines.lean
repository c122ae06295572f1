import Trpi.Library.Utf8

/-!
# Line files

Text made of lines that end in a line feed, and what remains of it when the
bytes of the file are cut somewhere: the complete lines before the cut, and a
tail without a line feed.
-/

namespace Trpi.Library

open List
open Utf8 (encode decode newlineByte)

/-- Every line followed by its line feed. -/
def joinLines (lines : List (List Char)) : List Char := lines.flatMap (· ++ ['\n'])

@[simp] theorem joinLines_nil : joinLines [] = [] := rfl

theorem joinLines_cons (line : List Char) (lines : List (List Char)) :
    joinLines (line :: lines) = line ++ '\n' :: joinLines lines := by
  simp [joinLines]

@[simp] theorem joinLines_append (first second : List (List Char)) :
    joinLines (first ++ second) = joinLines first ++ joinLines second := flatMap_append

/-- The complete lines of a text and the unterminated rest. -/
def splitLines : List Char → List (List Char) × List Char
  | [] => ([], [])
  | c :: rest =>
    if c = '\n' then ([] :: (splitLines rest).1, (splitLines rest).2)
    else
      match splitLines rest with
      | ([], tail) => ([], c :: tail)
      | (line :: lines, tail) => ((c :: line) :: lines, tail)

variable {tail : List Char}

theorem splitLines_tail (unterminated : '\n' ∉ tail) : splitLines tail = ([], tail) := by
  induction tail with
  | nil => rfl
  | cons c tail ih =>
    rw [mem_cons, not_or] at unterminated
    obtain ⟨head, rest⟩ := unterminated
    simp [splitLines, ih rest, Ne.symm head]

theorem splitLines_line {line : List Char} (single : '\n' ∉ line) (rest : List Char) :
    splitLines (line ++ '\n' :: rest) = (line :: (splitLines rest).1, (splitLines rest).2) := by
  induction line with
  | nil => simp [splitLines]
  | cons c line ih =>
    rw [mem_cons, not_or] at single
    obtain ⟨head, others⟩ := single
    simp [splitLines, ih others, Ne.symm head]

variable {lines : List (List Char)}

theorem splitLines_joinLines (single : ∀ line ∈ lines, '\n' ∉ line)
    (unterminated : '\n' ∉ tail) : splitLines (joinLines lines ++ tail) = (lines, tail) := by
  induction lines with
  | nil => exact splitLines_tail unterminated
  | cons line lines ih =>
    rw [joinLines_cons, append_assoc, cons_append, splitLines_line (single line mem_cons_self),
      ih fun other mem => single other (mem_cons_of_mem _ mem)]

theorem getLast?_joinLines (nonempty : lines ≠ []) : (joinLines lines).getLast? = some '\n' := by
  obtain ⟨first, last, rfl⟩ := (eq_nil_or_concat lines).resolve_left nonempty
  simp [joinLines]

def lineBytes (lines : List (List Char)) : List UInt8 := encode (joinLines lines)

@[simp] theorem lineBytes_nil : lineBytes [] = [] := rfl

@[simp] theorem lineBytes_append (first second : List (List Char)) :
    lineBytes (first ++ second) = lineBytes first ++ lineBytes second := by
  simp [lineBytes]

theorem lineBytes_singleton (line : List Char) : lineBytes [line] = encode line ++ [newlineByte] := by
  simp [lineBytes, joinLines, Utf8.encode_newline]

theorem take_lineBytes {kept more : List (List Char)} (single : ∀ line ∈ more, '\n' ∉ line)
    {cut : Nat} (after : (lineBytes kept).length ≤ cut)
    (before : ∀ line ∈ more.head?, cut < (lineBytes (kept ++ [line])).length) :
    ∃ tail, (lineBytes (kept ++ more)).take cut = lineBytes kept ++ tail ∧ newlineByte ∉ tail := by
  refine ⟨(lineBytes more).take (cut - (lineBytes kept).length), ?_, ?_⟩
  · rw [lineBytes_append, take_append, take_of_length_le after]
  · cases more with
    | nil => simp
    | cons line more =>
      have short := before line rfl
      rw [lineBytes_append, lineBytes_singleton, length_append, length_append,
        length_singleton] at short
      rw [← singleton_append, lineBytes_append, lineBytes_singleton, append_assoc,
        take_append_of_le_length (by omega)]
      intro mem
      exact single line mem_cons_self (Utf8.newlineByte_mem_encode (mem_of_mem_take mem))

theorem splitLines_decode_cut (single : ∀ line ∈ lines, '\n' ∉ line) {tail : List UInt8}
    (unterminated : newlineByte ∉ tail) :
    splitLines (decode (lineBytes lines ++ tail)) = (lines, decode tail) := by
  rw [lineBytes, Utf8.decode_encode_append]
  exact splitLines_joinLines single fun mem => unterminated (Utf8.newline_of_decode mem)

theorem splitLines_append_prefix (shared : List Char) {first second : List Char}
    (grows : (splitLines first).1 <+: (splitLines second).1) :
    (splitLines (shared ++ first)).1 <+: (splitLines (shared ++ second)).1 := by
  induction shared with
  | nil => exact grows
  | cons c shared ih =>
    rw [cons_append, cons_append, splitLines, splitLines]
    split
    · exact cons_prefix_cons.mpr ⟨rfl, ih⟩
    · cases before : splitLines (shared ++ first) with
      | mk lines tail =>
        cases after : splitLines (shared ++ second) with
        | mk later rest =>
          rw [before, after] at ih
          cases lines with
          | nil => exact nil_prefix
          | cons line lines =>
            obtain ⟨more, rfl⟩ := ih
            exact ⟨more, rfl⟩

theorem splitLines_decode_append (file more : List UInt8) :
    (splitLines (decode file)).1 <+: (splitLines (decode (file ++ more))).1 := by
  unfold decode
  generalize Utf8.Decoder.ready = d
  induction file generalizing d with
  | nil =>
    have none : (splitLines (d.decode [])).1 = [] := by
      rw [Utf8.Decoder.decode]
      split <;> rfl
    rw [none]
    exact nil_prefix
  | cons byte rest ih => exact splitLines_append_prefix _ (ih _)

end Trpi.Library

/-!
## Files that end in a line feed

A line feed byte is never part of a longer sequence, so behind it decoding starts anew. A file
whose text has no unterminated line ends in that byte, and what is appended to it is read as
lines of its own.
-/

namespace Trpi.Library

open List

namespace Utf8

variable {d : Decoder}

theorem feed_newline (multibyte : d.Multibyte) : (d.feed newlineByte.toNat).1 = .ready := by
  have small : newlineByte.toNat = 10 := rfl
  rw [small, Decoder.feed]
  split
  · rfl
  split
  · rfl
  rename_i inside
  have high := (multibyte 10 (by omega) (by omega)).2.2
  omega

theorem decodeFrom_append_newline (multibyte : d.Multibyte) (front rest : List UInt8) :
    d.decode (front ++ newlineByte :: rest) = d.decode (front ++ [newlineByte]) ++ decode rest := by
  induction front generalizing d with
  | nil =>
    rw [nil_append, nil_append, Decoder.decode, Decoder.decode, feed_newline multibyte,
      append_assoc]
    rfl
  | cons byte front ih =>
    rw [cons_append, cons_append, Decoder.decode, Decoder.decode,
      ih (feed_multibyte multibyte byte.toNat).1, append_assoc]

theorem decode_append_newline (front rest : List UInt8) :
    decode (front ++ newlineByte :: rest) = decode (front ++ [newlineByte]) ++ decode rest :=
  decodeFrom_append_newline ready_multibyte front rest

/-- A line feed ends what is pending as the end of the bytes does. -/
theorem decodeFrom_newline (multibyte : d.Multibyte) (bytes : List UInt8) :
    d.decode (bytes ++ [newlineByte]) = d.decode bytes ++ ['\n'] := by
  induction bytes generalizing d with
  | nil =>
    have fed : d.decode [newlineByte] = (d.feed 10).2 := by
      rw [Decoder.decode, feed_newline multibyte]
      exact append_nil _
    rw [nil_append, fed, Decoder.decode, Decoder.feed]
    split
    · rfl
    split
    · rfl
    rename_i inside
    have high := (multibyte 10 (by omega) (by omega)).2.2
    omega
  | cons byte rest ih =>
    rw [cons_append, Decoder.decode, Decoder.decode,
      ih (feed_multibyte multibyte byte.toNat).1, append_assoc]

theorem newline_of_getLast?_decodeFrom (multibyte : d.Multibyte) {front : List UInt8}
    {last : UInt8} (ends : (d.decode (front ++ [last])).getLast? = some '\n') :
    last = newlineByte := by
  induction front generalizing d with
  | nil =>
    rw [nil_append, Decoder.decode, Decoder.decode] at ends
    split at ends
    · rename_i settled
      have mem := mem_of_getLast? ends
      rw [append_nil] at mem
      exact UInt8.toNat_inj.mp ((feed_multibyte multibyte last.toNat).2 mem)
    · rw [getLast?_concat] at ends
      exact absurd (Option.some.inj ends) (by decide)
  | cons byte front ih =>
    rw [cons_append, Decoder.decode] at ends
    have rest := decodeFrom_ne_nil (d.feed byte.toNat).1 (front ++ [last])
      (.inr (append_ne_nil_of_right_ne_nil _ (cons_ne_nil _ _)))
    rw [getLast?_append_of_ne_nil _ rest] at ends
    exact ih (feed_multibyte multibyte byte.toNat).1 ends

end Utf8

open Utf8 (encode decode newlineByte)

theorem getLast?_of_ended {text : List Char} (ended : (splitLines text).2 = []) :
    text = [] ∨ text.getLast? = some '\n' := by
  induction text with
  | nil => exact Or.inl rfl
  | cons c rest ih =>
    right
    rw [splitLines] at ended
    split at ended
    · rename_i newline
      rcases ih ended with rfl | last
      · rw [newline]
        rfl
      · rw [getLast?_cons, last]
        rfl
    · split at ended
      · cases ended
      · rename_i line lines tail split_
        have rest_ : (splitLines rest).2 = [] := by rw [split_]; exact ended
        rcases ih rest_ with rfl | last
        · cases split_
        · rw [getLast?_cons, last]
          rfl

/-- Text goes on with the unterminated line. -/
theorem splitLines_append (first second : List Char) :
    splitLines (first ++ second) =
      ((splitLines first).1 ++ (splitLines ((splitLines first).2 ++ second)).1,
        (splitLines ((splitLines first).2 ++ second)).2) := by
  induction first with
  | nil => rfl
  | cons c first ih =>
    rw [cons_append, splitLines, splitLines]
    split
    · rw [ih]
      rfl
    · rename_i plain
      cases before : splitLines first with
      | mk lines tail =>
        rw [before] at ih
        cases lines with
        | nil =>
          rw [nil_append] at ih
          rw [ih, nil_append, cons_append, splitLines, if_neg plain]
        | cons line lines =>
          rw [ih]
          rfl

theorem splitLines_rest (text : List Char) : '\n' ∉ (splitLines text).2 := by
  induction text with
  | nil => exact not_mem_nil
  | cons c rest ih =>
    rw [splitLines]
    split
    · exact ih
    · rename_i plain
      cases before : splitLines rest with
      | mk lines tail =>
        rw [before] at ih
        cases lines with
        | nil => exact not_mem_cons_of_ne_of_not_mem (Ne.symm plain) ih
        | cons line lines => exact ih

theorem splitLines_newline (text : List Char) :
    splitLines (text ++ ['\n']) = ((splitLines text).1 ++ [(splitLines text).2], []) := by
  rw [splitLines_append, splitLines_line (splitLines_rest text)]
  rfl

theorem splitLines_decode_newline (bytes : List UInt8) :
    splitLines (decode (bytes ++ [newlineByte])) =
      ((splitLines (decode bytes)).1 ++ [(splitLines (decode bytes)).2], []) := by
  rw [decode, Utf8.decodeFrom_newline Utf8.ready_multibyte, splitLines_newline]
  rfl

/-- A file whose text has no unterminated line. -/
def Ended (bytes : List UInt8) : Prop := (splitLines (decode bytes)).2 = []

variable {bytes : List UInt8}

theorem Ended.cases (ended : Ended bytes) :
    bytes = [] ∨ ∃ front, bytes = front ++ [newlineByte] := by
  rcases eq_nil_or_concat bytes with rfl | ⟨front, last, rfl⟩
  · exact Or.inl rfl
  · right
    rw [concat_eq_append] at ended ⊢
    rcases getLast?_of_ended ended with none_ | newline
    · exact absurd none_ (Utf8.decode_ne_nil (append_ne_nil_of_right_ne_nil _ (by simp)))
    · exact ⟨front, by rw [Utf8.newline_of_getLast?_decodeFrom Utf8.ready_multibyte newline]⟩

theorem Ended.decode_append (ended : Ended bytes) (more : List UInt8) :
    decode (bytes ++ more) = decode bytes ++ decode more := by
  rcases ended.cases with rfl | ⟨front, rfl⟩
  · rfl
  · rw [append_assoc, singleton_append, Utf8.decode_append_newline]

theorem splitLines_decode_lineBytes {lines : List (List Char)}
    (single : ∀ line ∈ lines, '\n' ∉ line) : splitLines (decode (lineBytes lines)) = (lines, []) := by
  have whole : splitLines (decode (lineBytes lines ++ [])) = (lines, decode []) :=
    splitLines_decode_cut single not_mem_nil
  rw [append_nil] at whole
  exact whole

theorem Ended.append (ended : Ended bytes) {lines : List (List Char)}
    (single : ∀ line ∈ lines, '\n' ∉ line) :
    splitLines (decode (bytes ++ lineBytes lines)) =
      ((splitLines (decode bytes)).1 ++ lines, []) := by
  rw [ended.decode_append, splitLines_append, show (splitLines (decode bytes)).2 = [] from ended,
    nil_append, splitLines_decode_lineBytes single]

end Trpi.Library
