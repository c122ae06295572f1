import Trpi.Library.Binary64
import Trpi.Library.Runs
import Trpi.Library.Utf16

/-!
# CBOR options and values

protocol/src/cbor/options.ts, and the values the codec reads and returns. What
is encoded is a graph of host objects, so an object is a reference into a heap:
sharing and cycles are then what they are in the host. What is decoded is fresh,
so it is a tree.
-/

namespace Trpi.Protocol.Cbor

open Library

abbrev Bytes := List UInt8

abbrev JsString := Utf16.Units

def uint32Base : Nat := 0x100000000
def maxUint32 : Nat := 0xffffffff
def maxConfiguredDepth : Nat := 512
def defaultMaxCborByteLength : Nat := 16 * 1024 * 1024
def defaultMaxCborContainerLength : Nat := 1000000
def defaultMaxCborDepth : Nat := 64

inductive Failure where
  | cborError (message : String)
  | rangeError (message : String)
  deriving DecidableEq

structure CborOptions where
  maxByteLength : Option Binary64
  maxContainerLength : Option Binary64
  maxDepth : Option Binary64

structure ResolvedCborOptions where
  maxByteLength : Nat
  maxContainerLength : Nat
  maxDepth : Nat

def resolveLimit (name : String) (value : Option Binary64) (default maximum : Nat) :
    Except Failure Nat :=
  match value with
  | none => .ok default
  | some limit =>
    if limit.isSafeInteger = false ∨ limit.toInt < 0 ∨ (maximum : Int) < limit.toInt then
      .error (.rangeError (name ++ " must be an integer between 0 and " ++ toString maximum))
    else .ok limit.toInt.toNat

def CborOptions.none : CborOptions := ⟨Option.none, Option.none, Option.none⟩

def resolveOptions (options : CborOptions) : Except Failure ResolvedCborOptions := do
  let maxByteLength ←
    resolveLimit "maxByteLength" options.maxByteLength defaultMaxCborByteLength maxUint32
  let maxContainerLength ←
    resolveLimit "maxContainerLength" options.maxContainerLength defaultMaxCborContainerLength
      maxUint32
  let maxDepth ← resolveLimit "maxDepth" options.maxDepth defaultMaxCborDepth maxConfiguredDepth
  return { maxByteLength, maxContainerLength, maxDepth }

def lengthFailure (kind : String) (limit : Nat) : Failure :=
  .cborError ("CBOR " ++ kind ++ " length exceeds configured limit of " ++ toString limit)

def depthFailure (options : ResolvedCborOptions) : Failure :=
  .cborError ("CBOR nesting depth exceeds configured limit of " ++ toString options.maxDepth)

/-- A limit in force is within its maximum, its default included. -/
theorem resolveLimit_le {name : String} {v : Option Binary64} {default maximum limit : Nat}
    (default_le : default ≤ maximum)
    (resolved : resolveLimit name v default maximum = .ok limit) : limit ≤ maximum := by
  cases v with
  | none =>
    cases resolved
    exact default_le
  | some number =>
    simp only [resolveLimit] at resolved
    split at resolved
    · cases resolved
    · cases resolved
      omega

theorem resolveOptions_le {opts : CborOptions} {resolved : ResolvedCborOptions}
    (ok : resolveOptions opts = .ok resolved) :
    resolved.maxByteLength ≤ maxUint32 ∧ resolved.maxContainerLength ≤ maxUint32 ∧
      resolved.maxDepth ≤ maxConfiguredDepth := by
  obtain ⟨maxByteLength, bytes, ok⟩ := bind_eq_ok ok
  obtain ⟨maxContainerLength, c, ok⟩ := bind_eq_ok ok
  obtain ⟨maxDepth, depth, ok⟩ := bind_eq_ok ok
  cases ok
  refine ⟨?_, ?_, ?_⟩
  · exact resolveLimit_le (by decide) bytes
  · exact resolveLimit_le (by decide) c
  · exact resolveLimit_le (by decide) depth

abbrev Ref := Nat

/-- A host value; `unsupported` is a bigint, a symbol or a function. -/
inductive Value where
  | undefined
  | null
  | boolean (flag : Bool)
  | number (number : Binary64)
  | string (text : JsString)
  | object (ref : Ref)
  | unsupported (typeName : String)
  deriving DecidableEq

/-- The own enumerable string properties of an object, in `Object.keys` order. -/
structure Members where
  entries : List (JsString × Value)
  nodup : (entries.map Prod.fst).Nodup

/-- An array has no element at a hole; `other` is an object that is not plain. -/
inductive HeapObject where
  | bytes (contents : Bytes)
  | array (elements : List (Option Value))
  | plain (enumerableSymbol : Bool) (members : Members)
  | other

abbrev Heap := Ref → HeapObject

inductive Item where
  | null
  | boolean (flag : Bool)
  | number (number : Binary64)
  | string (text : JsString)
  | bytes (contents : Bytes)
  | array (elements : List Item)
  | object (entries : List (JsString × Item))

mutual

/-- A decoded item is the host value: the same primitive, or an object of the same
kind whose parts are the same, entries that are undefined left out. -/
inductive SameValue (heap : Heap) : Value → Item → Prop where
  | null : SameValue heap .null .null
  | boolean (flag : Bool) : SameValue heap (.boolean flag) (.boolean flag)
  | number (number : Binary64) : SameValue heap (.number number) (.number number)
  | string (text : JsString) : SameValue heap (.string text) (.string text)
  | bytes {ref : Ref} {contents : Bytes} (stored : heap ref = .bytes contents) :
      SameValue heap (.object ref) (.bytes contents)
  | array {ref : Ref} {elements : List (Option Value)} {items : List Item}
      (stored : heap ref = .array elements) (same : SameElements heap elements items) :
      SameValue heap (.object ref) (.array items)
  | object {ref : Ref} {enumerableSymbol : Bool} {members : Members}
      {entries : List (JsString × Item)} (stored : heap ref = .plain enumerableSymbol members)
      (same : SameEntries heap members.entries entries) :
      SameValue heap (.object ref) (.object entries)

inductive SameElements (heap : Heap) : List (Option Value) → List Item → Prop where
  | nil : SameElements heap [] []
  | cons {value : Value} {item : Item} {elements : List (Option Value)} {items : List Item}
      (head : SameValue heap value item) (tail : SameElements heap elements items) :
      SameElements heap (some value :: elements) (item :: items)

inductive SameEntries (heap : Heap) : List (JsString × Value) → List (JsString × Item) → Prop where
  | nil : SameEntries heap [] []
  | undefined (key : JsString) {members : List (JsString × Value)}
      {entries : List (JsString × Item)} (tail : SameEntries heap members entries) :
      SameEntries heap ((key, .undefined) :: members) entries
  | cons (key : JsString) {value : Value} {item : Item} {members : List (JsString × Value)}
      {entries : List (JsString × Item)} (head : SameValue heap value item)
      (tail : SameEntries heap members entries) :
      SameEntries heap ((key, value) :: members) ((key, item) :: entries)

end

end Trpi.Protocol.Cbor
