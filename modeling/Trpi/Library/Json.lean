import Mathlib.Data.List.Basic

/-!
# JSON values, printing and parsing

JSON documents over a number type `N`, printed compactly the way
`JSON.stringify` does and read the way `JSON.parse` does. How a number is
printed and read is a parameter with its laws (`JsonNumber`). Strings are
sequences of Unicode scalar values, so an escaped lone surrogate is refused.
Objects are lists of members; a later member of the same name wins a lookup.
The reader takes fuel, and any fuel above the length of the text is enough for
every printed document.
-/

namespace Trpi.Library

inductive Json (N : Type) where
  | null
  | bool (flag : Bool)
  | num (number : N)
  | str (text : String)
  | arr (items : List (Json N))
  | obj (members : List (String × Json N))

/-- Characters that can occur in a JSON number. -/
def isNumberChar (c : Char) : Bool :=
  c.isDigit || c == '-' || c == '+' || c == '.' || c == 'e' || c == 'E'

/-- Printing and reading of JSON numbers, and the naturals among them. -/
class JsonNumber (N : Type) where
  print : N → List Char
  read : List Char → Option N
  ofNat : Nat → N
  toNat? : N → Option Nat
  print_head : ∀ number, ∃ c rest, print number = c :: rest ∧ (c.isDigit ∨ c = '-')
  print_chars : ∀ number, ∀ c ∈ print number, isNumberChar c = true
  read_print : ∀ number, read (print number) = some number
  toNat?_ofNat : ∀ n, toNat? (ofNat n) = some n

namespace Json

def hexDigit (n : Nat) : Char :=
  if n < 10 then Char.ofNat (48 + n) else Char.ofNat (87 + n)

def escapeChar (c : Char) : List Char :=
  if c = '"' then ['\\', '"']
  else if c = '\\' then ['\\', '\\']
  else if c.toNat < 32 then
    if c = '\n' then ['\\', 'n']
    else if c = '\r' then ['\\', 'r']
    else if c = '\t' then ['\\', 't']
    else if c.toNat = 8 then ['\\', 'b']
    else if c.toNat = 12 then ['\\', 'f']
    else ['\\', 'u', '0', '0', hexDigit (c.toNat / 16), hexDigit (c.toNat % 16)]
  else [c]

def quoteChars (text : List Char) : List Char := '"' :: (text.flatMap escapeChar ++ ['"'])

def quote (text : String) : String := String.ofList (quoteChars text.toList)

def hexValue (c : Char) : Option Nat :=
  if '0' ≤ c ∧ c ≤ '9' then some (c.toNat - 48)
  else if 'a' ≤ c ∧ c ≤ 'f' then some (c.toNat - 87)
  else if 'A' ≤ c ∧ c ≤ 'F' then some (c.toNat - 55)
  else none

def hex4 (a b c d : Char) : Option Nat :=
  match hexValue a, hexValue b, hexValue c, hexValue d with
  | some a, some b, some c, some d => some (((a * 16 + b) * 16 + c) * 16 + d)
  | _, _, _, _ => none

def unescape (c : Char) : Option Char :=
  if c = '"' then some '"'
  else if c = '\\' then some '\\'
  else if c = '/' then some '/'
  else if c = 'b' then some (Char.ofNat 8)
  else if c = 'f' then some (Char.ofNat 12)
  else if c = 'n' then some '\n'
  else if c = 'r' then some '\r'
  else if c = 't' then some '\t'
  else none

def surrogatePair (high low : Nat) : Option Char :=
  if 0xD800 ≤ high ∧ high < 0xDC00 ∧ 0xDC00 ≤ low ∧ low < 0xE000 then
    some (Char.ofNat (0x10000 + (high - 0xD800) * 0x400 + (low - 0xDC00)))
  else none

def consResult (c : Char) : Option (List Char × List Char) → Option (List Char × List Char)
  | none => none
  | some (text, rest) => some (c :: text, rest)

/-- Read a string after its opening quote; returns its characters and what follows. -/
def parseStringBody : List Char → Option (List Char × List Char)
  | [] => none
  | c :: rest =>
    if c = '"' then some ([], rest)
    else if c = '\\' then
      match rest with
      | [] => none
      | escaped :: tail =>
        if escaped = 'u' then
          match tail with
          | a :: b :: c :: d :: more =>
            match hex4 a b c d with
            | none => none
            | some unit =>
              if unit.isValidChar then consResult (Char.ofNat unit) (parseStringBody more)
              else
                match more with
                | slash :: u :: a :: b :: c :: d :: more =>
                  if slash = '\\' ∧ u = 'u' then
                    match (hex4 a b c d).bind (surrogatePair unit) with
                    | none => none
                    | some pair => consResult pair (parseStringBody more)
                  else none
                | _ => none
          | _ => none
        else
          match unescape escaped with
          | none => none
          | some plain => consResult plain (parseStringBody tail)
    else if c.toNat < 32 then none
    else consResult c (parseStringBody rest)

section

variable {N : Type} [JsonNumber N]

mutual

def stringifyChars : Json N → List Char
  | .null => ['n', 'u', 'l', 'l']
  | .bool true => ['t', 'r', 'u', 'e']
  | .bool false => ['f', 'a', 'l', 's', 'e']
  | .num number => JsonNumber.print number
  | .str text => quoteChars text.toList
  | .arr [] => ['[', ']']
  | .arr (item :: items) => '[' :: (stringifyChars item ++ stringifyItems items)
  | .obj [] => ['{', '}']
  | .obj (member :: members) => '{' :: (stringifyMember member ++ stringifyMembers members)

def stringifyItems : List (Json N) → List Char
  | [] => [']']
  | item :: items => ',' :: (stringifyChars item ++ stringifyItems items)

def stringifyMembers : List (String × Json N) → List Char
  | [] => ['}']
  | member :: members => ',' :: (stringifyMember member ++ stringifyMembers members)

def stringifyMember : String × Json N → List Char
  | (name, value) => quoteChars name.toList ++ ':' :: stringifyChars value

end

def isWhitespace (c : Char) : Bool := c == ' ' || c == '\t' || c == '\n' || c == '\r'

def skipWhitespace (text : List Char) : List Char := text.dropWhile isWhitespace

def expect (word : List Char) (result : Json N) (text : List Char) :
    Option (Json N × List Char) :=
  if word.isPrefixOf text then some (result, text.drop word.length) else none

def parseNumber (text : List Char) : Option (Json N × List Char) :=
  match JsonNumber.read (N := N) (text.takeWhile isNumberChar) with
  | none => none
  | some number => some (.num number, text.dropWhile isNumberChar)

mutual

def parseValue : Nat → List Char → Option (Json N × List Char)
  | 0, _ => none
  | fuel + 1, text =>
    match skipWhitespace text with
    | [] => none
    | c :: rest =>
      if c = '"' then
        match parseStringBody rest with
        | none => none
        | some (chars, more) => some (.str (String.ofList chars), more)
      else if c = '[' then
        match skipWhitespace rest with
        | [] => none
        | next :: more =>
          if next = ']' then some (.arr [], more)
          else
            match parseItems fuel rest with
            | none => none
            | some (items, more) => some (.arr items, more)
      else if c = '{' then
        match skipWhitespace rest with
        | [] => none
        | next :: more =>
          if next = '}' then some (.obj [], more)
          else
            match parseMembers fuel rest with
            | none => none
            | some (members, more) => some (.obj members, more)
      else if c = 'n' then expect ['n', 'u', 'l', 'l'] .null (c :: rest)
      else if c = 't' then expect ['t', 'r', 'u', 'e'] (.bool true) (c :: rest)
      else if c = 'f' then expect ['f', 'a', 'l', 's', 'e'] (.bool false) (c :: rest)
      else parseNumber (c :: rest)

def parseItems : Nat → List Char → Option (List (Json N) × List Char)
  | 0, _ => none
  | fuel + 1, text =>
    match parseValue fuel text with
    | none => none
    | some (item, rest) =>
      match skipWhitespace rest with
      | [] => none
      | c :: more =>
        if c = ']' then some ([item], more)
        else if c = ',' then
          match parseItems fuel more with
          | none => none
          | some (items, more) => some (item :: items, more)
        else none

def parseMembers : Nat → List Char → Option (List (String × Json N) × List Char)
  | 0, _ => none
  | fuel + 1, text =>
    match skipWhitespace text with
    | [] => none
    | c :: rest =>
      if c = '"' then
        match parseStringBody rest with
        | none => none
        | some (name, rest) =>
          match skipWhitespace rest with
          | [] => none
          | colon :: rest =>
            if colon = ':' then
              match parseValue fuel rest with
              | none => none
              | some (value, rest) =>
                match skipWhitespace rest with
                | [] => none
                | c :: more =>
                  if c = '}' then some ([(String.ofList name, value)], more)
                  else if c = ',' then
                    match parseMembers fuel more with
                    | none => none
                    | some (members, more) => some ((String.ofList name, value) :: members, more)
                  else none
            else none
      else none

end

def parseChars (text : List Char) : Option (Json N) :=
  match parseValue (text.length + 1) text with
  | none => none
  | some (document, rest) => if skipWhitespace rest = [] then some document else none

end

section

variable {N : Type}

/-- The value of the last member called `name`. -/
def lookup (name : String) : List (String × Json N) → Option (Json N)
  | [] => none
  | (candidate, value) :: rest =>
    match lookup name rest with
    | some later => some later
    | none => if candidate = name then some value else none

theorem lookup_append (name : String) (first second : List (String × Json N)) :
    lookup name (first ++ second) = (lookup name second).or (lookup name first) := by
  induction first with
  | nil => simp [lookup]
  | cons mem rest ih =>
    simp only [List.cons_append, lookup, ih]
    cases lookup name second <;> simp

theorem lookup_eq_none {name : String} {members : List (String × Json N)}
    (absent : ∀ mem ∈ members, mem.1 ≠ name) : lookup name members = none := by
  induction members with
  | nil => rfl
  | cons mem rest ih =>
    simp [lookup, ih fun other inside => absent other (List.mem_cons_of_mem _ inside),
      absent mem List.mem_cons_self]

def get? (document : Json N) (name : String) : Option (Json N) :=
  match document with
  | .obj members => lookup name members
  | _ => none

def string? : Json N → Option String
  | .str text => some text
  | _ => none

def bool? : Json N → Option Bool
  | .bool flag => some flag
  | _ => none

def number? : Json N → Option N
  | .num number => some number
  | _ => none

def nat? [JsonNumber N] : Json N → Option Nat
  | .num number => JsonNumber.toNat? number
  | _ => none

def ofNat [JsonNumber N] (n : Nat) : Json N := .num (JsonNumber.ofNat n)

@[simp] theorem nat?_ofNat [JsonNumber N] (n : Nat) : (ofNat n : Json N).nat? = some n :=
  JsonNumber.toNat?_ofNat n

end

end Json

end Trpi.Library
