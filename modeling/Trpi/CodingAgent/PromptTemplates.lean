import Trpi.Tools.EditDiff

/-!
# Arguments of prompt templates

The text behind a command is parsed into arguments, and the placeholders of a template stand for
them. Quoting each argument is undone by parsing, unless an argument is empty: an empty quoted
argument is dropped, and the positions behind it shift.
-/

namespace Trpi.CodingAgent

open Library List Tools
open Library.Utf16 (Units units)

def doubleQuote : UInt16 := 34

def singleQuote : UInt16 := 39

/-- The arguments so far, the current one, and the quote it is in. -/
def parseFrom : List Units → Units → Option UInt16 → Units → List Units
  | args, current, _, [] => if current = [] then args else args ++ [current]
  | args, current, some inQuote, char :: rest =>
    if char = inQuote then parseFrom args current none rest
    else parseFrom args (current ++ [char]) (some inQuote) rest
  | args, current, none, char :: rest =>
    if char = doubleQuote ∨ char = singleQuote then parseFrom args current (some char) rest
    else if isWhitespace char then
      parseFrom (if current = [] then args else args ++ [current]) [] none rest
    else parseFrom args (current ++ [char]) none rest

def parseCommandArgs (argsString : Units) : List Units := parseFrom [] [] none argsString

inductive Placeholder where
  | default (target : Option Nat) (defaultValue : Units)
  | slice (sliceStart : Nat) (sliceLength : Option Nat)
  | simple (target : Option Nat)

def joinArgs (args : List Units) : Units := intercalate [32] args

def targetValue (args : List Units) : Option Nat → Units
  | none => joinArgs args
  | some 0 => []
  | some (index + 1) => args[index]?.getD []

def Placeholder.replacement (args : List Units) : Placeholder → Units
  | .default target defaultValue =>
    if targetValue args target = [] then defaultValue else targetValue args target
  | .slice sliceStart none => joinArgs (args.drop (sliceStart - 1))
  | .slice sliceStart (some length) => joinArgs ((args.drop (sliceStart - 1)).take length)
  | .simple target => targetValue args target

/-- What follows a text that stands in front. -/
def stripLead (lead : String) (text : Units) : Option Units :=
  if units lead.toList <+: text then some (text.drop (units lead.toList).length) else none

def isDecimal (unit : UInt16) : Bool := 48 ≤ unit && unit ≤ 57

/-- `\d+`, read as a decimal number. -/
def decimal? (text : Units) : Option (Nat × Units) :=
  let digits := text.takeWhile isDecimal
  if digits = [] then none
  else some (digits.foldl (fun n digit => 10 * n + (digit.toNat - 48)) 0, text.dropWhile isDecimal)

/-- `\d+|ARGUMENTS|@`. -/
def target? (text : Units) : Option (Option Nat × Units) :=
  match decimal? text with
  | some (n, rest) => some (some n, rest)
  | none => (((stripLead "ARGUMENTS" text).or (stripLead "@" text)).map fun rest => (none, rest))

/-- `${N:-default}`. -/
def defaultAt (text : Units) : Option (Placeholder × Units) := do
  let (target, text) ← target? (← stripLead "$\x7b" text)
  let text ← stripLead ":-" text
  let rest ← stripLead "\x7d" (text.dropWhile (· != 125))
  some (.default target (text.takeWhile (· != 125)), rest)

/-- `${@:N}` and `${@:N:L}`. -/
def sliceAt (text : Units) : Option (Placeholder × Units) := do
  let (start, text) ← decimal? (← stripLead "$\x7b@:" text)
  match (stripLead ":" text).bind decimal? with
  | some (length, text) => some (.slice start (some length), ← stripLead "\x7d" text)
  | none => some (.slice start none, ← stripLead "\x7d" text)

def simpleAt (text : Units) : Option (Placeholder × Units) := do
  let (target, rest) ← target? (← stripLead "$" text)
  some (.simple target, rest)

/-- The alternatives of the pattern, in its order. -/
def placeholderAt (text : Units) : Option (Placeholder × Units) :=
  ((defaultAt text).or (sliceAt text)).or (simpleAt text)

/-- The matches from the left; the units of a match are left out. -/
def substituteFrom (args : List Units) : Nat → Units → Units
  | _, [] => []
  | matched + 1, _ :: rest => substituteFrom args matched rest
  | 0, unit :: rest =>
    match placeholderAt (unit :: rest) with
    | some (placeholder, behind) =>
      placeholder.replacement args ++ substituteFrom args (rest.length - behind.length) rest
    | none => unit :: substituteFrom args 0 rest

def substituteArgs (content : Units) (args : List Units) : Units := substituteFrom args 0 content

/-- An argument and the quote it is wrapped in. -/
structure QuotedArg where
  text : Units
  quote : UInt16
  isQuote : quote = doubleQuote ∨ quote = singleQuote
  avoids : quote ∉ text

structure Separator where
  text : Units
  nonempty : text ≠ []
  blank : ∀ unit ∈ text, isWhitespace unit = true

def QuotedArg.wrap (arg : QuotedArg) : Units := arg.quote :: arg.text ++ [arg.quote]

def joinQuoted (separator : Nat → Separator) : List QuotedArg → Units
  | [] => []
  | [arg] => arg.wrap
  | arg :: next :: rest =>
    arg.wrap ++ (separator rest.length).text ++ joinQuoted separator (next :: rest)

variable {args : List Units} {current : Units}

theorem parseFrom_quoted {quote : UInt16} {text : Units} (avoids : quote ∉ text) (rest : Units) :
    parseFrom args current (some quote) (text ++ quote :: rest) =
      parseFrom args (current ++ text) none rest := by
  induction text generalizing current with
  | nil => simp [parseFrom]
  | cons char text ih =>
    rw [mem_cons, not_or] at avoids
    rw [cons_append, parseFrom, if_neg (Ne.symm avoids.1), ih avoids.2, append_assoc]
    rfl

theorem parseFrom_wrap (arg : QuotedArg) (rest : Units) :
    parseFrom args current none (arg.wrap ++ rest) =
      parseFrom args (current ++ arg.text) none rest := by
  rw [QuotedArg.wrap, append_assoc, cons_append, parseFrom, if_pos arg.isQuote]
  exact parseFrom_quoted arg.avoids rest

theorem parseFrom_blank {text : Units} (blank : ∀ unit ∈ text, isWhitespace unit = true)
    (rest : Units) : parseFrom args [] none (text ++ rest) = parseFrom args [] none rest := by
  induction text with
  | nil => rfl
  | cons char text ih =>
    obtain ⟨here, later⟩ := forall_mem_cons.mp blank
    have plain : ¬(char = doubleQuote ∨ char = singleQuote) := by
      rintro (rfl | rfl) <;> exact absurd here (by decide)
    rw [cons_append, parseFrom, if_neg plain, if_pos here, if_pos rfl, ih later]

theorem parseFrom_separator (separator : Separator) (rest : Units) :
    parseFrom args current none (separator.text ++ rest) =
      parseFrom (args ++ [current].filter (· ≠ [])) [] none rest := by
  have blank := separator.blank
  cases shape : separator.text with
  | nil => exact absurd shape separator.nonempty
  | cons char text =>
    rw [shape] at blank
    obtain ⟨here, later⟩ := forall_mem_cons.mp blank
    have plain : ¬(char = doubleQuote ∨ char = singleQuote) := by
      rintro (rfl | rfl) <;> exact absurd here (by decide)
    rw [cons_append, parseFrom, if_neg plain, if_pos here, parseFrom_blank later]
    by_cases empty : current = [] <;> simp [empty]

theorem parseFrom_joinQuoted (separator : Nat → Separator) (list : List QuotedArg) :
    parseFrom args [] none (joinQuoted separator list) =
      args ++ (list.map QuotedArg.text).filter (· ≠ []) := by
  induction list using joinQuoted.induct generalizing args with
  | case1 => simp [joinQuoted, parseFrom]
  | case2 arg =>
    rw [joinQuoted, ← append_nil arg.wrap, parseFrom_wrap]
    by_cases empty : arg.text = [] <;> simp [parseFrom, empty]
  | case3 arg next rest ih =>
    rw [joinQuoted, append_assoc, parseFrom_wrap, parseFrom_separator, ih]
    by_cases empty : arg.text = [] <;> simp [empty]

/-- The placeholders refer to the arguments at their own positions. -/
structure RefersTo (parsed list : List Units) : Prop where
  positional : ∀ position arg, list[position]? = some arg →
    (Placeholder.simple (some (position + 1))).replacement parsed = arg
  default : ∀ position arg defaultValue, list[position]? = some arg →
    (Placeholder.default (some (position + 1)) defaultValue).replacement parsed =
      if arg = [] then defaultValue else arg
  slice : ∀ position, (Placeholder.slice (position + 1) none).replacement parsed =
    joinArgs (list.drop position)
  sliceLength : ∀ position length,
    (Placeholder.slice (position + 1) (some length)).replacement parsed =
      joinArgs ((list.drop position).take length)
  template : ∀ content, substituteArgs content parsed = substituteArgs content list

theorem refersTo_self (list : List Units) : RefersTo list list where
  positional position arg here := by simp [Placeholder.replacement, targetValue, here]
  default position arg defaultValue here := by simp [Placeholder.replacement, targetValue, here]
  slice _ := rfl
  sliceLength _ _ := rfl
  template _ := rfl

def emptyArg : QuotedArg where
  text := []
  quote := doubleQuote
  isQuote := .inl rfl
  avoids := not_mem_nil

def oneSpace : Separator where
  text := [32]
  nonempty := cons_ne_nil _ _
  blank := forall_mem_singleton.mpr rfl

end Trpi.CodingAgent
