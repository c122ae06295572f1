import Mathlib.Data.List.TakeWhile
import Trpi.Library.Json

/-!
# Parsing undoes printing

`parseChars (stringifyChars document) = some document` for every document, and a printed
document never contains a line feed, so documents can be stored one per line.
-/

namespace Trpi.Library.Json

open JsonNumber List

theorem hex4_control : ∀ n < 32, hex4 '0' '0' (hexDigit (n / 16)) (hexDigit (n % 16)) = some n := by
  decide

theorem isValidChar_of_lt {n : Nat} (small : n < 32) : n.isValidChar :=
  Or.inl (by omega)

theorem parseStringBody_quote (rest : List Char) :
    parseStringBody ('"' :: rest) = some ([], rest) := by
  rw [parseStringBody.eq_def]
  simp

theorem parseStringBody_escaped {escaped plain : Char} (rest : List Char)
    (known : unescape escaped = some plain) :
    parseStringBody ('\\' :: escaped :: rest) = consResult plain (parseStringBody rest) := by
  have short : escaped ≠ 'u' := by
    rintro rfl
    simp [unescape] at known
  rw [parseStringBody.eq_def]
  simp [short, known]

theorem parseStringBody_unicode {a b c d : Char} {unit : Nat} (rest : List Char)
    (code : hex4 a b c d = some unit) (scalar : unit.isValidChar) :
    parseStringBody ('\\' :: 'u' :: a :: b :: c :: d :: rest) =
      consResult (Char.ofNat unit) (parseStringBody rest) := by
  rw [parseStringBody.eq_def]
  simp [code, scalar]

theorem parseStringBody_plain {c : Char} (rest : List Char) (plain : c ≠ '"') (escapeless : c ≠ '\\')
    (visible : ¬ c.toNat < 32) : parseStringBody (c :: rest) = consResult c (parseStringBody rest) := by
  rw [parseStringBody.eq_def]
  simp [plain, escapeless, visible]

theorem parseStringBody_escapeChar (c : Char) (rest : List Char) :
    parseStringBody (escapeChar c ++ rest) = consResult c (parseStringBody rest) := by
  unfold escapeChar
  split
  · next quote =>
    subst quote
    exact parseStringBody_escaped rest rfl
  split
  · next slash =>
    subst slash
    exact parseStringBody_escaped rest rfl
  split
  · next control =>
    split
    · next newline => exact newline ▸ parseStringBody_escaped rest rfl
    split
    · next carriage => exact carriage ▸ parseStringBody_escaped rest rfl
    split
    · next tab => exact tab ▸ parseStringBody_escaped rest rfl
    split
    · next backspace =>
      have code : c = Char.ofNat 8 := by rw [← backspace, Char.ofNat_toNat]
      exact code ▸ parseStringBody_escaped rest rfl
    split
    · next feed =>
      have code : c = Char.ofNat 12 := by rw [← feed, Char.ofNat_toNat]
      exact code ▸ parseStringBody_escaped rest rfl
    · have read := parseStringBody_unicode rest (hex4_control c.toNat control)
        (isValidChar_of_lt control)
      rw [Char.ofNat_toNat] at read
      exact read
  · next plain escapeless visible => exact parseStringBody_plain rest plain escapeless visible

theorem parseStringBody_flatMap (text rest : List Char) :
    parseStringBody (text.flatMap escapeChar ++ '"' :: rest) = some (text, rest) := by
  induction text with
  | nil => exact parseStringBody_quote rest
  | cons c text ih =>
    simp only [flatMap_cons, append_assoc]
    rw [parseStringBody_escapeChar, ih]
    rfl

theorem quoteChars_append (text rest : List Char) :
    quoteChars text ++ rest = '"' :: (text.flatMap escapeChar ++ '"' :: rest) := by
  simp [quoteChars]

/-- What follows a number must not extend it. -/
def Boundary (rest : List Char) : Prop := ∀ c ∈ rest.head?, isNumberChar c = false

theorem boundary_nil : Boundary [] := by simp [Boundary]

section

variable {N : Type} [JsonNumber N]

theorem parseNumber_print (number : N) (rest : List Char) (boundary : Boundary rest) :
    parseNumber (print number ++ rest) = some (.num number, rest) := by
  have chars := print_chars number
  have token : (print number ++ rest).takeWhile isNumberChar = print number := by
    rw [takeWhile_append_of_pos chars]
    cases rest with
    | nil => simp
    | cons c rest => simp [boundary c (by simp)]
  have remaining : (print number ++ rest).dropWhile isNumberChar = rest := by
    rw [dropWhile_append_of_pos chars]
    cases rest with
    | nil => rfl
    | cons c rest => simp [boundary c (by simp)]
  simp [parseNumber, token, remaining, read_print]

theorem digit_dispatch {c : Char} (head : c.isDigit ∨ c = '-') :
    isWhitespace c = false ∧ c ≠ '"' ∧ c ≠ '[' ∧ c ≠ '{' ∧ c ≠ 'n' ∧ c ≠ 't' ∧ c ≠ 'f' := by
  rcases head with digit | rfl
  · refine ⟨?_, ?_, ?_, ?_, ?_, ?_, ?_⟩
    · simp only [isWhitespace, Bool.or_eq_false_iff, beq_eq_false_iff_ne]
      refine ⟨⟨⟨?_, ?_⟩, ?_⟩, ?_⟩ <;> rintro rfl <;> exact absurd digit (by decide)
    all_goals
      rintro rfl
      exact absurd digit (by decide)
  · decide

theorem skipWhitespace_cons {c : Char} (rest : List Char) (visible : isWhitespace c = false) :
    skipWhitespace (c :: rest) = c :: rest := by
  simp [skipWhitespace, visible]

theorem parseValue_number (number : N) (fuel : Nat) (rest : List Char) (boundary : Boundary rest) :
    parseValue (fuel + 1) (print number ++ rest) = some (.num number, rest) := by
  have token := parseNumber_print number rest boundary
  obtain ⟨c, tail, printed, head⟩ := print_head number
  obtain ⟨visible, quote, bracket, brace, n, t, f⟩ := digit_dispatch head
  rw [printed, cons_append] at token ⊢
  simp only [parseValue, skipWhitespace_cons _ visible, quote, bracket, brace, n, t, f, if_false]
  exact token

theorem stringifyItems_boundary (items : List (Json N)) (rest : List Char) :
    Boundary (stringifyItems items ++ rest) := by
  cases items <;> simp [Boundary, stringifyItems, isNumberChar]

theorem stringifyMembers_boundary (members : List (String × Json N)) (rest : List Char) :
    Boundary (stringifyMembers members ++ rest) := by
  cases members <;> simp [Boundary, stringifyMembers, isNumberChar]

/-- A printed document starts with a visible character other than a closing bracket. -/
theorem stringifyChars_head (document : Json N) :
    ∃ c rest, stringifyChars document = c :: rest ∧ isWhitespace c = false ∧ c ≠ ']' := by
  match document with
  | .null => exact ⟨_, _, rfl, by decide⟩
  | .bool true => exact ⟨_, _, rfl, by decide⟩
  | .bool false => exact ⟨_, _, rfl, by decide⟩
  | .num number =>
    obtain ⟨c, tail, printed, head⟩ := print_head number
    refine ⟨c, tail, printed, (digit_dispatch head).1, ?_⟩
    rintro rfl
    rcases head with digit | minus
    · exact absurd digit (by decide)
    · exact absurd minus (by decide)
  | .str text => exact ⟨_, _, rfl, by decide⟩
  | .arr [] => exact ⟨_, _, rfl, by decide⟩
  | .arr (item :: items) => exact ⟨_, _, rfl, by decide⟩
  | .obj [] => exact ⟨_, _, rfl, by decide⟩
  | .obj (mem :: members) => exact ⟨_, _, rfl, by decide⟩

mutual

theorem parseValue_stringifyChars (document : Json N) (fuel : Nat) (rest : List Char)
    (enough : (stringifyChars document).length ≤ fuel) (boundary : Boundary rest) :
    parseValue fuel (stringifyChars document ++ rest) = some (document, rest) := by
  match fuel, document with
  | 0, document =>
    obtain ⟨c, tail, printed, -, -⟩ := stringifyChars_head document
    rw [printed] at enough
    exact absurd enough (Nat.not_succ_le_zero _)
  | fuel + 1, .null => simp [stringifyChars, parseValue, skipWhitespace, isWhitespace, expect]
  | fuel + 1, .bool true => simp [stringifyChars, parseValue, skipWhitespace, isWhitespace, expect]
  | fuel + 1, .bool false => simp [stringifyChars, parseValue, skipWhitespace, isWhitespace, expect]
  | fuel + 1, .num number => exact parseValue_number number fuel rest boundary
  | fuel + 1, .str text =>
    rw [stringifyChars, quoteChars_append, parseValue, skipWhitespace_cons _ (by decide)]
    simp only [if_true, parseStringBody_flatMap, String.ofList_toList]
  | fuel + 1, .arr [] => simp [stringifyChars, parseValue, skipWhitespace, isWhitespace]
  | fuel + 1, .arr (item :: items) =>
    simp only [stringifyChars, length_cons, cons_append] at enough ⊢
    have parsed := parseItems_stringifyItems item items fuel rest (by omega)
    obtain ⟨c, tail, printed, visible, opening⟩ := stringifyChars_head item
    rw [parseValue, skipWhitespace_cons _ (by decide)]
    simp only [printed, cons_append, skipWhitespace_cons _ visible, opening] at parsed ⊢
    rw [parsed]
    simp
  | fuel + 1, .obj [] => simp [stringifyChars, parseValue, skipWhitespace, isWhitespace]
  | fuel + 1, .obj (mem :: members) =>
    simp only [stringifyChars, length_cons, cons_append] at enough ⊢
    have parsed := parseMembers_stringifyMembers mem members fuel rest (by omega)
    rw [parseValue, skipWhitespace_cons _ (by decide)]
    obtain ⟨name, v⟩ := mem
    simp only [stringifyMember, quoteChars, cons_append] at parsed ⊢
    rw [skipWhitespace_cons _ (by decide), parsed]
    simp

theorem parseItems_stringifyItems (item : Json N) (items : List (Json N)) (fuel : Nat)
    (rest : List Char) (enough : (stringifyChars item ++ stringifyItems items).length ≤ fuel) :
    parseItems fuel (stringifyChars item ++ stringifyItems items ++ rest) =
      some (item :: items, rest) := by
  obtain ⟨c, tail, printed, -, -⟩ := stringifyChars_head item
  have nonempty : 0 < (stringifyChars item).length := by
    rw [printed]
    exact Nat.succ_pos _
  rw [length_append] at enough
  match fuel, items with
  | 0, items => omega
  | fuel + 1, [] =>
    simp only [stringifyItems, length_singleton] at enough
    have parsed := parseValue_stringifyChars item fuel (stringifyItems (N := N) [] ++ rest)
      (by omega) (stringifyItems_boundary [] rest)
    rw [append_assoc, parseItems, parsed]
    simp [stringifyItems, skipWhitespace, isWhitespace]
  | fuel + 1, next :: items =>
    simp only [stringifyItems, length_cons, length_append] at enough
    have parsed := parseValue_stringifyChars item fuel (stringifyItems (next :: items) ++ rest)
      (by omega) (stringifyItems_boundary (next :: items) rest)
    have others := parseItems_stringifyItems next items fuel rest (by rw [length_append]; omega)
    rw [append_assoc, parseItems, parsed]
    simp only [append_assoc] at others
    simp [stringifyItems, skipWhitespace, isWhitespace, others]

theorem parseMembers_stringifyMembers (member : String × Json N) (members : List (String × Json N))
    (fuel : Nat) (rest : List Char)
    (enough : (stringifyMember member ++ stringifyMembers members).length ≤ fuel) :
    parseMembers fuel (stringifyMember member ++ stringifyMembers members ++ rest) =
      some (member :: members, rest) := by
  match fuel, member with
  | 0, (name, v) => simp [stringifyMember, quoteChars] at enough
  | fuel + 1, (name, v) =>
    simp only [length_append, stringifyMember, length_cons] at enough
    have opened : stringifyMember (name, v) ++ stringifyMembers members ++ rest =
        '"' :: (name.toList.flatMap escapeChar ++
          '"' :: ':' :: (stringifyChars v ++ (stringifyMembers members ++ rest))) := by
      simp [stringifyMember, quoteChars]
    have parsed := parseValue_stringifyChars v fuel (stringifyMembers members ++ rest)
      (by omega) (stringifyMembers_boundary members rest)
    rw [opened, parseMembers, skipWhitespace_cons _ (by decide)]
    simp only [if_true, parseStringBody_flatMap]
    rw [skipWhitespace_cons _ (by decide)]
    simp only [if_true, parsed]
    match members with
    | [] => simp [stringifyMembers, skipWhitespace, isWhitespace]
    | next :: members =>
      simp only [stringifyMembers, length_cons, length_append] at enough
      have others := parseMembers_stringifyMembers next members fuel rest
        (by rw [length_append]; omega)
      simp only [append_assoc] at others
      simp [stringifyMembers, skipWhitespace, isWhitespace, others]

end

theorem parseChars_stringifyChars (document : Json N) :
    parseChars (stringifyChars document) = some document := by
  have parsed := parseValue_stringifyChars document ((stringifyChars document).length + 1) []
    (Nat.le_succ _) boundary_nil
  simp only [append_nil] at parsed
  simp [parseChars, parsed, skipWhitespace]

/-- Two documents that print alike are the same. -/
theorem stringifyChars_inj {first second : Json N}
    (same : stringifyChars first = stringifyChars second) : first = second := by
  have parsed := parseChars_stringifyChars first
  rw [same, parseChars_stringifyChars] at parsed
  exact (Option.some.inj parsed).symm

theorem escapeChar_no_newline (c : Char) : '\n' ∉ escapeChar c := by
  have digits : ∀ n < 16, hexDigit n ≠ '\n' := by decide
  unfold escapeChar
  split
  · decide
  split
  · decide
  split
  · next control =>
    split
    · decide
    split
    · decide
    split
    · decide
    split
    · decide
    split
    · decide
    · have high := digits (c.toNat / 16) (by omega)
      have low := digits (c.toNat % 16) (Nat.mod_lt _ (by decide))
      simp [high.symm, low.symm]
  · next visible =>
    rw [mem_singleton]
    rintro rfl
    exact visible (by decide)

theorem quoteChars_no_newline (text : List Char) : '\n' ∉ quoteChars text := by
  simp [quoteChars, escapeChar_no_newline]

theorem print_no_newline (number : N) : '\n' ∉ print number := fun mem =>
  absurd (print_chars number _ mem) (by decide)

mutual

theorem stringifyChars_no_newline (document : Json N) : '\n' ∉ stringifyChars document := by
  match document with
  | .null => simp [stringifyChars]
  | .bool true => simp [stringifyChars]
  | .bool false => simp [stringifyChars]
  | .num number => exact print_no_newline number
  | .str text => exact quoteChars_no_newline text.toList
  | .arr [] => simp [stringifyChars]
  | .arr (item :: items) =>
    simp [stringifyChars, stringifyChars_no_newline item, stringifyItems_no_newline items]
  | .obj [] => simp [stringifyChars]
  | .obj (mem :: members) =>
    simp [stringifyChars, stringifyMember_no_newline mem, stringifyMembers_no_newline members]

theorem stringifyItems_no_newline (items : List (Json N)) : '\n' ∉ stringifyItems items := by
  match items with
  | [] => simp [stringifyItems]
  | item :: items =>
    simp [stringifyItems, stringifyChars_no_newline item, stringifyItems_no_newline items]

theorem stringifyMembers_no_newline (members : List (String × Json N)) :
    '\n' ∉ stringifyMembers members := by
  match members with
  | [] => simp [stringifyMembers]
  | mem :: members =>
    simp [stringifyMembers, stringifyMember_no_newline mem, stringifyMembers_no_newline members]

theorem stringifyMember_no_newline (member : String × Json N) : '\n' ∉ stringifyMember member := by
  match member with
  | (name, v) =>
    simp [stringifyMember, quoteChars_no_newline, stringifyChars_no_newline v]

end

end

end Trpi.Library.Json
