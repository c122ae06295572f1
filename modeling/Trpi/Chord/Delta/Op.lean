import Trpi.Library.JsonRoundTrip

/-!
# Delta operations

The operation vocabulary of chord/src/delta/index.ts. An operation is `["r", value]`
or a verb with a path and what follows the path in its tuple (`Edit`). Array
indices, counts and lengths are natural numbers, so what `assertValidOp` still has
to check is that a path is safe and that only `p` may address the root.
-/

namespace Trpi.Chord.Delta

open Library

inductive Seg where
  | key (name : String)
  | index (position : Nat)

abbrev Path := List Seg

/-- The verbs with a path, each with what its tuple holds after the path. -/
inductive Edit (V : Type) where
  | s (value : V)
  | d
  | a (text : String)
  | t (count : Nat)
  | p (index remove : Nat) (items : List V)

inductive Op (V : Type) where
  | r (value : V)
  | edit (path : Path) (edit : Edit V)

section

variable {V : Type}

def isReplace : Op V → Bool
  | .r _ => true
  | .edit .. => false

/-- A batch begins with a replacement. -/
def isBase (ops : List (Op V)) : Bool := ops.head?.any isReplace

end

/-- `RESERVED_SEGMENTS`: segments that reach the prototype chain. -/
def reservedSegments : List String := ["__proto__", "constructor", "prototype"]

def Seg.safe : Seg → Bool
  | .key name => decide (name ∉ reservedSegments)
  | .index _ => true

/-- The errors of this module, `UnsafePathError`, `PathError` and `TypeError`. -/
inductive DeltaError (N : Type) where
  | unsafeSegment (segment : Json N)
  | unresolvable (path : Json N)
  | shape (message : String)

section

variable {N : Type} [JsonNumber N]

/-- A segment as it is printed: a string or a number. -/
def Seg.toJson : Seg → Json N
  | .key name => .str name
  | .index position => .num (JsonNumber.ofNat position)

def pathToJson (path : Path) : Json N := .arr (path.map Seg.toJson)

def DeltaError.message : DeltaError N → String
  | .unsafeSegment segment =>
    "unsafe path segment: " ++ segment.string?.getD (String.ofList (Json.stringifyChars segment))
  | .unresolvable path => "unresolvable path: " ++ String.ofList (Json.stringifyChars path)
  | .shape message => message

/-- One segment of `assertSafePath`, read as a string or an index. -/
def readSeg : Json N → Except (DeltaError N) Seg
  | .str name =>
    if name ∈ reservedSegments then .error (.unsafeSegment (.str name)) else .ok (.key name)
  | .num number =>
    match JsonNumber.toNat? number with
    | some position => .ok (.index position)
    | none => .error (.unsafeSegment (.num number))
  | segment => .error (.unsafeSegment segment)

/-- `assertSafePath` with the path it accepts. -/
def readPath : List (Json N) → Except (DeltaError N) Path
  | [] => .ok []
  | segment :: rest => do
    let seg ← readSeg segment
    let path ← readPath rest
    .ok (seg :: path)

/-- Only `p` may address the root, since a tracked value can itself be an array. -/
def Edit.mayAddressRoot {V : Type} : Edit V → Bool
  | .p .. => true
  | _ => false

/-- What `assertValidOp` accepts. -/
def Op.Valid {V : Type} : Op V → Prop
  | .r _ => True
  | .edit path payload =>
    (∀ seg ∈ path, seg.safe = true) ∧ (path = [] → payload.mayAddressRoot = true)

instance {V : Type} : (op : Op V) → Decidable op.Valid
  | .r _ => inferInstanceAs (Decidable True)
  | .edit path payload =>
    inferInstanceAs (Decidable ((∀ seg ∈ path, seg.safe = true) ∧
      (path = [] → payload.mayAddressRoot = true)))

theorem readSeg_toJson {seg : Seg} (safe : seg.safe = true) :
    readSeg (seg.toJson : Json N) = .ok seg := by
  cases seg with
  | key name =>
    have unreserved : name ∉ reservedSegments := by simpa [Seg.safe] using safe
    simp only [Seg.toJson, readSeg, if_neg unreserved]
  | index position => simp only [Seg.toJson, readSeg, JsonNumber.toNat?_ofNat]

theorem readPath_toJson {path : Path} (safe : ∀ seg ∈ path, seg.safe = true) :
    readPath (path.map Seg.toJson : List (Json N)) = .ok path := by
  induction path with
  | nil => rfl
  | cons seg rest ih =>
    simp only [List.map_cons, readPath, readSeg_toJson (safe seg List.mem_cons_self),
      ih fun other mem => safe other (List.mem_cons_of_mem _ mem), bind, Except.bind]

theorem Seg.toJson_inj {first second : Seg} (same : (first.toJson : Json N) = second.toJson) :
    first = second := by
  cases first with
  | key name =>
    cases second with
    | key other => rw [Json.str.inj same]
    | index position => cases same
  | index position =>
    cases second with
    | key other => cases same
    | index other =>
      have numbers := congrArg JsonNumber.toNat? (Json.num.inj same)
      rw [JsonNumber.toNat?_ofNat, JsonNumber.toNat?_ofNat] at numbers
      rw [Option.some.inj numbers]

def pathKey (N : Type) [JsonNumber N] (path : Path) : String :=
  String.ofList (Json.stringifyChars (pathToJson path : Json N))

theorem pathKey_inj {first second : Path} (same : pathKey N first = pathKey N second) :
    first = second := by
  have printed := congrArg (fun key => Json.parseChars (N := N) key.toList) same
  simp only [pathKey, String.toList_ofList, Json.parseChars_stringifyChars] at printed
  have items := Json.arr.inj (Option.some.inj printed)
  exact List.map_injective_iff.mpr (fun _ _ equal => Seg.toJson_inj equal) items

end

end Trpi.Chord.Delta
