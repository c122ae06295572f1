import Trpi.Library.JsonText
import Trpi.Tools.EditDiff

/-!
# Reading tool arguments while they arrive

ai/src/utils/json-parse.ts, and the piecewise JSON of grammar tools from
ai/src/api/constrained-sampling.ts. The reader of incomplete JSON is the package
partial-json: a parameter, `none` where it throws.
-/

namespace Trpi.Ai

open Library List
open Library.Utf16 (Units)
open Library.JsonText (Document parse escapeText quote isSpace skipSpace)

variable {N : Type} {unit : UInt16} {text : Units}

def isControlCharacter (unit : UInt16) : Bool := unit.toNat ≤ 0x1F

def escapeControlCharacter (unit : UInt16) : Units :=
  if unit = 8 then [0x5C, 0x62]
  else if unit = 12 then [0x5C, 0x66]
  else if unit = 10 then [0x5C, 0x6E]
  else if unit = 13 then [0x5C, 0x72]
  else if unit = 9 then [0x5C, 0x74]
  else JsonText.unicodeEscape unit

/-- `VALID_JSON_ESCAPES`. -/
def isValidEscape (unit : UInt16) : Bool :=
  unit ∈ ([0x22, 0x5C, 0x2F, 0x62, 0x66, 0x6E, 0x72, 0x74, 0x75] : Units)

def isHexUnit (unit : UInt16) : Bool := (JsonText.hexValue unit).isSome

/-- How many units after a backslash belong to a valid escape. -/
def escapeLength : Units → Option Nat
  | [] => none
  | next :: tail =>
    if next = 0x75 ∧ 4 ≤ tail.length ∧ (tail.take 4).all isHexUnit then some 5
    else if isValidEscape next then some 1
    else none

/-- The loop of `repairJson`: the units of an escape that are copied as they are,
and whether it is in a string. -/
def repairFrom : Nat → Bool → Units → Units
  | _, _, [] => []
  | copied + 1, inString, unit :: rest => unit :: repairFrom copied inString rest
  | 0, false, unit :: rest => unit :: repairFrom 0 (unit == 0x22) rest
  | 0, true, unit :: rest =>
    if unit = 0x22 then unit :: repairFrom 0 false rest
    else if unit = 0x5C then
      match escapeLength rest with
      | some length => unit :: repairFrom length true rest
      | none => 0x5C :: 0x5C :: repairFrom 0 true rest
    else if isControlCharacter unit then escapeControlCharacter unit ++ repairFrom 0 true rest
    else unit :: repairFrom 0 true rest

def repairJson (json : Units) : Units := repairFrom 0 false json

def parseJsonWithRepair [JsonNumber N] (json : Units) : Option (Document N) :=
  match parse json with
  | some value => some value
  | none => if repairJson json ≠ json then parse (repairJson json) else none

/-- `result ?? {}`. -/
def orEmptyObject : Document N → Document N
  | .null => .obj []
  | value => value

def parseStreamingJson [JsonNumber N] (partialParse : Units → Option (Document N))
    (partialJson : Units) : Document N :=
  if partialJson.all Tools.isWhitespace then .obj []
  else
    match parseJsonWithRepair partialJson with
    | some value => value
    | none =>
      match partialParse partialJson with
      | some result => orEmptyObject result
      | none =>
        match partialParse (repairJson partialJson) with
        | some result => orEmptyObject result
        | none => .obj []

theorem parseValue_blank [JsonNumber N] (blank : Tools.isWhitespace unit = true)
    (dense : isSpace unit = false) (fuel : Nat) (rest : Units) :
    @JsonText.parseValue N _ (fuel + 1) (unit :: rest) = JsonText.parseNumber (unit :: rest) := by
  have other : unit ∉ ([0x22, 0x5B, 0x7B, 0x6E, 0x74, 0x66] : Units) := by
    intro mem
    have none : ([0x22, 0x5B, 0x7B, 0x6E, 0x74, 0x66] : Units).all
        (fun unit => !Tools.isWhitespace unit) = true := by decide
    have plain := all_eq_true.mp none unit mem
    simp [blank] at plain
  simp only [mem_cons, not_mem_nil, or_false, not_or] at other
  have kept : skipSpace (unit :: rest) = unit :: rest := by simp [skipSpace, dense]
  rw [JsonText.parseValue, kept]
  simp [other]

theorem isNumberUnit_blank (blank : Tools.isWhitespace unit = true) :
    JsonText.isNumberUnit unit = false := by
  rcases Bool.or_eq_true_iff.mp blank with listed | ranged
  · have none : ([9, 10, 11, 12, 13, 32, 0xA0, 0x1680, 0x2028, 0x2029, 0x202F, 0x205F, 0x3000,
        0xFEFF] : Units).all (fun unit => !JsonText.isNumberUnit unit) = true := by decide
    have plain := all_eq_true.mp none unit (of_decide_eq_true listed)
    simpa using plain
  · have all : ∀ k : Fin 11, JsonText.isNumberUnit (UInt16.ofNat (0x2000 + k.val)) = false := by
      decide
    obtain ⟨atLeast, atMost⟩ := Bool.and_eq_true_iff.mp ranged
    have low : 0x2000 ≤ unit.toNat := of_decide_eq_true atLeast
    have high : unit.toNat ≤ 0x200A := of_decide_eq_true atMost
    have named := all ⟨unit.toNat - 0x2000, by omega⟩
    rwa [Nat.add_sub_cancel' low, UInt16.ofNat_toNat] at named

theorem parse_blank [JsonNumber N] (blank : text.all Tools.isWhitespace = true) :
    parse text = (none : Option (Document N)) := by
  cases left : skipSpace text with
  | nil => simp [parse, JsonText.parseValue, left]
  | cons unit rest =>
    have mem : unit ∈ text :=
      (dropWhile_sublist _).subset (show unit ∈ skipSpace text by simp [left])
    have white := all_eq_true.mp blank unit mem
    have dense : isSpace unit = false := by
      have := head?_dropWhile_not isSpace text
      rw [skipSpace] at left
      simpa [left] using this
    have kept : skipSpace (unit :: rest) = unit :: rest := by simp [skipSpace, dense]
    have v : @JsonText.parseValue N _ (text.length + 1) text =
        JsonText.parseNumber (unit :: rest) := by
      rw [← parseValue_blank white dense text.length rest, JsonText.parseValue, JsonText.parseValue,
        left, kept]
    -- A number text that ends at once leaves the white space behind.
    rw [parse, v, JsonText.parseNumber]
    cases read : @JsonNumber.read N _
        (JsonText.letters ((unit :: rest).takeWhile JsonText.isNumberUnit)) with
    | none => rfl
    | some number => simp [isNumberUnit_blank white, kept]

theorem parseStreamingJson_parse [JsonNumber N] {partialParse : Units → Option (Document N)}
    {v : Document N} (parsed : parse text = some v) : parseStreamingJson partialParse text = v := by
  have dense : ¬ text.all Tools.isWhitespace = true := by
    intro blank
    rw [parse_blank blank] at parsed
    cases parsed
  simp [parseStreamingJson, dense, parseJsonWithRepair, parsed]

structure GrammarToolInputJsonBuffer where
  input : Units
  started : Bool
  closed : Bool

def GrammarToolInputJsonBuffer.fresh : GrammarToolInputJsonBuffer := ⟨[], false, false⟩

inductive GrammarInputError where
  | changedAfterClosed (inputProperty : String)
  | changedNonMonotonically (inputProperty : String)

def GrammarInputError.message : GrammarInputError → String
  | .changedAfterClosed inputProperty =>
    "grammar tool input for property \"" ++ inputProperty ++ "\" changed after it was closed"
  | .changedNonMonotonically inputProperty =>
    "grammar tool input for property \"" ++ inputProperty ++ "\" changed non-monotonically"

def propertyUnits (property : String) : Units := Utf16.units property.toList

def inputOpening (inputProperty : String) : Units :=
  0x7B :: (quote (propertyUnits inputProperty) ++ [0x3A, 0x22])

def inputClosing : Units := [0x22, 0x7D]

/-- The buffer is changed in place: it comes back with the delta, if there is one. -/
def appendGrammarToolInputJsonDelta (buffer : GrammarToolInputJsonBuffer) (inputProperty : String)
    (nextInput : Units) (close : Bool) :
    Except GrammarInputError (GrammarToolInputJsonBuffer × Option Units) :=
  if buffer.closed then
    if close ∧ nextInput = buffer.input then .ok (buffer, none)
    else .error (.changedAfterClosed inputProperty)
  else if buffer.input.isPrefixOf nextInput then
    let inputDelta := nextInput.drop buffer.input.length
    if ¬ close ∧ inputDelta = [] then .ok (buffer, none)
    else
      let opening := if buffer.started then [] else inputOpening inputProperty
      let delta := opening ++ escapeText inputDelta
      if close then .ok (⟨nextInput, true, true⟩, some (delta ++ inputClosing))
      else .ok (⟨nextInput, true, buffer.closed⟩, some delta)
  else .error (.changedNonMonotonically inputProperty)

/-- What the deltas of a buffer come to: the opening once it is started, its input in
pieces, the closing once it is closed. -/
structure Written (inputProperty : String) (buffer : GrammarToolInputJsonBuffer)
    (deltas : List Units) : Prop where
  pieces : ∃ pieces : List Units, pieces.flatten = buffer.input ∧
    deltas.flatten = if buffer.started then inputOpening inputProperty ++
      (pieces.map escapeText).flatten ++ (if buffer.closed then inputClosing else []) else []
  unstarted : buffer.started = false → buffer.input = [] ∧ buffer.closed = false

theorem Written.fresh (inputProperty : String) :
    Written inputProperty GrammarToolInputJsonBuffer.fresh [] where
  pieces := ⟨[], rfl, rfl⟩
  unstarted _ := ⟨rfl, rfl⟩

variable {buffer : GrammarToolInputJsonBuffer} {inputProperty : String} {deltas : List Units}

theorem Written.append (written : Written inputProperty buffer deltas)
    (unclosed : buffer.closed = false) {nextInput : Units} (grows : buffer.input <+: nextInput)
    (close : Bool) :
    ∃ next delta, appendGrammarToolInputJsonDelta buffer inputProperty nextInput close =
        .ok (next, delta) ∧ next.input = nextInput ∧ next.closed = close ∧
      Written inputProperty next (deltas ++ delta.toList) := by
  obtain ⟨rest, rfl⟩ := grows
  have taken : buffer.input.isPrefixOf (buffer.input ++ rest) = true := by simp
  rw [appendGrammarToolInputJsonDelta, unclosed, if_neg (by decide), if_pos taken, drop_left]
  by_cases idle : ¬ close ∧ rest = []
  · obtain ⟨opened, rfl⟩ := idle
    refine ⟨buffer, none, by simp [opened], by simp, ?_, ?_⟩
    · rw [unclosed]
      simpa using opened
    · simpa using written
  · have after : Written inputProperty ⟨buffer.input ++ rest, true, close⟩
        (deltas ++ [(if buffer.started then [] else inputOpening inputProperty) ++
          escapeText rest ++ (if close then inputClosing else [])]) := by
      refine ⟨?_, nofun⟩
      obtain ⟨pieces, whole, emitted⟩ := written.pieces
      refine ⟨pieces ++ [rest], by simp [whole], ?_⟩
      cases started : buffer.started with
      | true =>
        simp only [started, unclosed, if_true, Bool.false_eq_true, if_false] at emitted
        simp [emitted]
      | false =>
        -- Nothing was written before: the pieces so far are empty.
        have nothing : (pieces.map escapeText).flatten = [] := by
          have empty : ∀ piece ∈ pieces, piece = [] :=
            flatten_eq_nil_iff.mp (whole.trans (written.unstarted started).1)
          refine flatten_eq_nil_iff.mpr fun text mem => ?_
          obtain ⟨piece, inside, rfl⟩ := mem_map.mp mem
          rw [empty piece inside]
          rfl
        simp only [started, Bool.false_eq_true, if_false] at emitted
        simp [emitted, nothing]
    rw [if_neg idle]
    cases close with
    | true => exact ⟨_, _, rfl, rfl, rfl, by simpa using after⟩
    | false => exact ⟨_, _, rfl, rfl, rfl, by simpa using after⟩

theorem append_closed (closed : buffer.closed = true) (inputProperty : String) :
    appendGrammarToolInputJsonDelta buffer inputProperty buffer.input true =
      .ok (buffer, none) := by
  simp [appendGrammarToolInputJsonDelta, closed]

theorem Written.parses [JsonNumber N] (written : Written inputProperty buffer deltas)
    (closed : buffer.closed = true) :
    parse deltas.flatten =
      some (.obj [(propertyUnits inputProperty, .str buffer.input)] : Document N) := by
  obtain ⟨pieces, whole, emitted⟩ := written.pieces
  have started : buffer.started = true := by
    by_contra never
    have unclosed := (written.unstarted (Bool.eq_false_iff.mpr never)).2
    rw [closed] at unclosed
    cases unclosed
  rw [emitted, started, if_pos rfl, closed, if_pos rfl, ← whole]
  exact JsonText.parse_member (propertyUnits inputProperty) pieces

end Trpi.Ai
