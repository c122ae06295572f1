import Trpi.Library.Json
import Trpi.Library.Utf16

/-!
# JSON text of host strings

`JSON.stringify` of a string and `JSON.parse` on UTF-16 units. A string may hold
lone surrogates: they are written as escapes, and every escape is read as one unit.
What is written piece by piece therefore reads as the whole, also where a piece
ends within a surrogate pair.
-/

namespace Trpi.Library.JsonText

open Library.Utf16

inductive Document (N : Type) where
  | null
  | bool (flag : Bool)
  | num (number : N)
  | str (text : Units)
  | arr (items : List (Document N))
  | obj (members : List (Units × Document N))

def hexDigit (n : Nat) : UInt16 := if n < 10 then UInt16.ofNat (48 + n) else UInt16.ofNat (87 + n)

def unicodeEscape (unit : UInt16) : Units :=
  [0x5C, 0x75, hexDigit (unit.toNat / 4096), hexDigit (unit.toNat / 256 % 16),
    hexDigit (unit.toNat / 16 % 16), hexDigit (unit.toNat % 16)]

/-- A unit that is not half of a surrogate pair. -/
def escapeAlone (unit : UInt16) : Units :=
  if unit = 0x22 then [0x5C, 0x22]
  else if unit = 0x5C then [0x5C, 0x5C]
  else if unit = 8 then [0x5C, 0x62]
  else if unit = 12 then [0x5C, 0x66]
  else if unit = 10 then [0x5C, 0x6E]
  else if unit = 13 then [0x5C, 0x72]
  else if unit = 9 then [0x5C, 0x74]
  else if unit.toNat < 32 || isLead unit || isTrail unit then unicodeEscape unit
  else [unit]

/-- `JSON.stringify(text).slice(1, -1)`. -/
def escapeText : Units → Units
  | [] => []
  | [unit] => escapeAlone unit
  | unit :: next :: rest =>
    if isLead unit && isTrail next then unit :: next :: escapeText rest
    else escapeAlone unit ++ escapeText (next :: rest)

/-- `JSON.stringify(text)`. -/
def quote (text : Units) : Units := 0x22 :: (escapeText text ++ [0x22])

def hexValue (unit : UInt16) : Option Nat :=
  if 48 ≤ unit.toNat ∧ unit.toNat ≤ 57 then some (unit.toNat - 48)
  else if 97 ≤ unit.toNat ∧ unit.toNat ≤ 102 then some (unit.toNat - 87)
  else if 65 ≤ unit.toNat ∧ unit.toNat ≤ 70 then some (unit.toNat - 55)
  else none

def hex4 (a b c d : UInt16) : Option UInt16 :=
  match hexValue a, hexValue b, hexValue c, hexValue d with
  | some a, some b, some c, some d => some (UInt16.ofNat (((a * 16 + b) * 16 + c) * 16 + d))
  | _, _, _, _ => none

def unescape (unit : UInt16) : Option UInt16 :=
  if unit = 0x22 then some 0x22
  else if unit = 0x5C then some 0x5C
  else if unit = 0x2F then some 0x2F
  else if unit = 0x62 then some 8
  else if unit = 0x66 then some 12
  else if unit = 0x6E then some 10
  else if unit = 0x72 then some 13
  else if unit = 0x74 then some 9
  else none

/-- `text` before what was read. -/
def before (text : Units) (read : Option (Units × Units)) : Option (Units × Units) :=
  read.map fun result => (text ++ result.1, result.2)

/-- Read a string after its opening quote: its units and what follows. -/
def readString : Units → Option (Units × Units)
  | [] => none
  | unit :: rest =>
    if unit = 0x22 then some ([], rest)
    else if unit = 0x5C then
      match rest with
      | [] => none
      | escaped :: tail =>
        if escaped = 0x75 then
          match tail with
          | a :: b :: c :: d :: more =>
            match hex4 a b c d with
            | none => none
            | some unit => before [unit] (readString more)
          | _ => none
        else
          match unescape escaped with
          | none => none
          | some plain => before [plain] (readString tail)
    else if unit.toNat < 32 then none
    else before [unit] (readString rest)

@[simp] theorem before_nil (read : Option (Units × Units)) : before [] read = read := by
  cases read <;> rfl

theorem before_before (first second : Units) (read : Option (Units × Units)) :
    before first (before second read) = before (first ++ second) read := by
  cases read <;> simp [before]

theorem hexValue_hexDigit {n : Nat} (small : n < 16) : hexValue (hexDigit n) = some n := by
  have all : ∀ n : Fin 16, hexValue (hexDigit n.val) = some n.val := by decide
  exact all ⟨n, small⟩

theorem hex4_hexDigits (unit : UInt16) :
    hex4 (hexDigit (unit.toNat / 4096)) (hexDigit (unit.toNat / 256 % 16))
      (hexDigit (unit.toNat / 16 % 16)) (hexDigit (unit.toNat % 16)) = some unit := by
  have bound := unit.toNat_lt
  rw [hex4, hexValue_hexDigit (by omega), hexValue_hexDigit (Nat.mod_lt _ (by decide)),
    hexValue_hexDigit (Nat.mod_lt _ (by decide)), hexValue_hexDigit (Nat.mod_lt _ (by decide))]
  have v : ((unit.toNat / 4096 * 16 + unit.toNat / 256 % 16) * 16 + unit.toNat / 16 % 16) * 16 +
      unit.toNat % 16 = unit.toNat := by omega
  simp only [v, UInt16.ofNat_toNat]

theorem readString_unicodeEscape (unit : UInt16) (rest : Units) :
    readString (unicodeEscape unit ++ rest) = before [unit] (readString rest) := by
  rw [unicodeEscape, readString.eq_def]
  simp [hex4_hexDigits]

variable {unit : UInt16}

theorem readString_raw (plain : unit ≠ 0x22) (unslashed : unit ≠ 0x5C)
    (printable : ¬ unit.toNat < 32) (rest : Units) :
    readString (unit :: rest) = before [unit] (readString rest) := by
  rw [readString.eq_def]
  simp only [if_neg plain, if_neg unslashed, if_neg printable]

theorem readString_escaped {escaped plain : UInt16} (known : unescape escaped = some plain)
    (rest : Units) : readString (0x5C :: escaped :: rest) = before [plain] (readString rest) := by
  have letter : escaped ≠ 0x75 := by
    rintro rfl
    simp [unescape] at known
  rw [readString.eq_def]
  simp [letter, known]

theorem readString_escapeAlone (unit : UInt16) (rest : Units) :
    readString (escapeAlone unit ++ rest) = before [unit] (readString rest) := by
  unfold escapeAlone
  split_ifs with quoted slash back feed line carriage tab control
  · subst quoted
    exact readString_escaped (by decide) rest
  · subst slash
    exact readString_escaped (by decide) rest
  · subst back
    exact readString_escaped (by decide) rest
  · subst feed
    exact readString_escaped (by decide) rest
  · subst line
    exact readString_escaped (by decide) rest
  · subst carriage
    exact readString_escaped (by decide) rest
  · subst tab
    exact readString_escaped (by decide) rest
  · exact readString_unicodeEscape unit rest
  · have printable : ¬ unit.toNat < 32 := by
      intro low
      exact control (by simp [low])
    exact readString_raw quoted slash printable rest

theorem readString_surrogate (surrogate : isLead unit = true ∨ isTrail unit = true)
    (rest : Units) : readString (unit :: rest) = before [unit] (readString rest) := by
  have high : 0xD800 ≤ unit.toNat := by
    rcases surrogate with lead | trail
    · simp [isLead] at lead
      omega
    · simp [isTrail] at trail
      omega
  refine readString_raw ?_ ?_ (by omega) rest
  · rintro rfl
    exact absurd high (by decide)
  · rintro rfl
    exact absurd high (by decide)

theorem readString_escapeText (text rest : Units) :
    readString (escapeText text ++ rest) = before text (readString rest) := by
  induction text using pairs_induction with
  | nil => simp [escapeText]
  | last unit => exact readString_escapeAlone unit rest
  | paired unit next text both ih =>
    have halves := Bool.and_eq_true_iff.mp both
    rw [escapeText, if_pos both, List.cons_append, List.cons_append,
      readString_surrogate (.inl halves.1), readString_surrogate (.inr halves.2), ih,
      before_before, before_before]
    rfl
  | alone unit next text apart ih =>
    rw [escapeText, if_neg apart, List.append_assoc, readString_escapeAlone, ih, before_before]
    rfl

theorem readString_pieces (pieces : List Units) (rest : Units) :
    readString ((pieces.map escapeText).flatten ++ rest) =
      before pieces.flatten (readString rest) := by
  induction pieces with
  | nil => simp
  | cons piece pieces ih =>
    rw [List.map_cons, List.flatten_cons, List.append_assoc, readString_escapeText, ih,
      before_before, List.flatten_cons]

theorem readString_close (rest : Units) : readString (0x22 :: rest) = some ([], rest) := by
  rw [readString.eq_def]
  rfl

section

variable {N : Type}

def isSpace (unit : UInt16) : Bool := unit == 0x20 || unit == 9 || unit == 10 || unit == 13

def skipSpace (text : Units) : Units := text.dropWhile isSpace

def letters (text : Units) : List Char := text.map Utf16.single

def isNumberUnit (unit : UInt16) : Bool := isNumberChar (single unit)

def expect (word : Units) (result : Document N) (text : Units) : Option (Document N × Units) :=
  if word.isPrefixOf text then some (result, text.drop word.length) else none

def parseNumber [JsonNumber N] (text : Units) : Option (Document N × Units) :=
  match @JsonNumber.read N _ (letters (text.takeWhile isNumberUnit)) with
  | none => none
  | some number => some (.num number, text.dropWhile isNumberUnit)

mutual

def parseValue [JsonNumber N] : Nat → Units → Option (Document N × Units)
  | 0, _ => none
  | fuel + 1, text =>
    match skipSpace text with
    | [] => none
    | unit :: rest =>
      if unit = 0x22 then
        match readString rest with
        | none => none
        | some (text, more) => some (.str text, more)
      else if unit = 0x5B then
        match skipSpace rest with
        | [] => none
        | next :: more =>
          if next = 0x5D then some (.arr [], more)
          else
            match parseItems fuel rest with
            | none => none
            | some (items, more) => some (.arr items, more)
      else if unit = 0x7B then
        match skipSpace rest with
        | [] => none
        | next :: more =>
          if next = 0x7D then some (.obj [], more)
          else
            match parseMembers fuel rest with
            | none => none
            | some (members, more) => some (.obj members, more)
      else if unit = 0x6E then expect [0x6E, 0x75, 0x6C, 0x6C] .null (unit :: rest)
      else if unit = 0x74 then expect [0x74, 0x72, 0x75, 0x65] (.bool true) (unit :: rest)
      else if unit = 0x66 then expect [0x66, 0x61, 0x6C, 0x73, 0x65] (.bool false) (unit :: rest)
      else parseNumber (unit :: rest)

def parseItems [JsonNumber N] : Nat → Units → Option (List (Document N) × Units)
  | 0, _ => none
  | fuel + 1, text =>
    match parseValue fuel text with
    | none => none
    | some (item, rest) =>
      match skipSpace rest with
      | [] => none
      | unit :: more =>
        if unit = 0x5D then some ([item], more)
        else if unit = 0x2C then
          match parseItems fuel more with
          | none => none
          | some (items, more) => some (item :: items, more)
        else none

def parseMembers [JsonNumber N] : Nat → Units → Option (List (Units × Document N) × Units)
  | 0, _ => none
  | fuel + 1, text =>
    match skipSpace text with
    | [] => none
    | unit :: rest =>
      if unit = 0x22 then
        match readString rest with
        | none => none
        | some (name, rest) =>
          match skipSpace rest with
          | [] => none
          | colon :: rest =>
            if colon = 0x3A then
              match parseValue fuel rest with
              | none => none
              | some (value, rest) =>
                match skipSpace rest with
                | [] => none
                | unit :: more =>
                  if unit = 0x7D then some ([(name, value)], more)
                  else if unit = 0x2C then
                    match parseMembers fuel more with
                    | none => none
                    | some (members, more) => some ((name, value) :: members, more)
                  else none
            else none
      else none

end

/-- `JSON.parse`, where it does not throw. -/
def parse [JsonNumber N] (text : Units) : Option (Document N) :=
  match parseValue (text.length + 1) text with
  | none => none
  | some (document, rest) => if skipSpace rest = [] then some document else none

theorem parse_member [JsonNumber N] (name : Units) (pieces : List Units) :
    parse (0x7B ::
        (quote name ++ [0x3A, 0x22] ++ (pieces.map escapeText).flatten ++ [0x22, 0x7D])) =
      some (.obj [(name, .str pieces.flatten)] : Document N) := by
  have named (rest : Units) : readString (escapeText name ++ 0x22 :: rest) = some (name, rest) := by
    rw [readString_escapeText, readString_close]
    simp [before]
  have valued : readString ((pieces.map escapeText).flatten ++ [0x22, 0x7D]) =
      some (pieces.flatten, [0x7D]) := by
    rw [readString_pieces, readString_close]
    simp [before]
  have string (fuel : Nat) : @parseValue N _ (fuel + 1)
      (0x22 :: ((pieces.map escapeText).flatten ++ [0x22, 0x7D])) =
        some (.str pieces.flatten, [0x7D]) := by
    simp [parseValue, skipSpace, isSpace, valued]
  have members (fuel : Nat) : @parseMembers N _ (fuel + 2)
      (0x22 :: (escapeText name ++ 0x22 :: 0x3A :: 0x22 ::
        ((pieces.map escapeText).flatten ++ [0x22, 0x7D]))) =
        some ([(name, .str pieces.flatten)], []) := by
    simp [parseMembers, skipSpace, isSpace, named, string]
  have object (fuel : Nat) : @parseValue N _ (fuel + 3)
      (0x7B :: 0x22 :: (escapeText name ++ 0x22 :: 0x3A :: 0x22 ::
        ((pieces.map escapeText).flatten ++ [0x22, 0x7D]))) =
        some (.obj [(name, .str pieces.flatten)], []) := by
    simp [parseValue, skipSpace, isSpace, members]
  simp [parse, quote, object, skipSpace]

end

end Trpi.Library.JsonText
