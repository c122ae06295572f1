import Trpi.Protocol.Cbor.Options

/-!
# CBOR decoder

protocol/src/cbor/decoder.ts. The reader's offset into its bytes is here the
bytes from there on; the depth limit is again counted in levels left.
-/

namespace Trpi.Protocol.Cbor

open Library

/-- A read takes the bytes that are left and leaves fewer. -/
abbrev Read (α : Type) := Bytes → Except Failure (α × Bytes)

def truncatedFailure : Failure := .cborError "Truncated CBOR payload"

def rangeFailure : Failure :=
  .cborError "Decoded CBOR integer or length is outside the safe range"

def integerFailure : Failure := .cborError "Decoded CBOR integer is outside the safe range"

def readByte : Read Nat
  | [] => .error truncatedFailure
  | byte :: rest => .ok (byte.toNat, rest)

def readBytes (length : Nat) : Read Bytes := fun bytes =>
  if bytes.length < length then .error truncatedFailure
  else .ok (bytes.take length, bytes.drop length)

def uint16Value (bytes : Bytes) : Nat :=
  (bytes.getD 0 0).toNat * 0x100 + (bytes.getD 1 0).toNat

def uint32Value (bytes : Bytes) : Nat :=
  (bytes.getD 0 0).toNat * 0x1000000 + (bytes.getD 1 0).toNat * 0x10000 +
    (bytes.getD 2 0).toNat * 0x100 + (bytes.getD 3 0).toNat

/-- `readArgument(25)`. -/
def readUint16 : Read Nat := fun bytes => do
  let (field, bytes) ← readBytes 2 bytes
  return (uint16Value field, bytes)

/-- `readArgument(26)`. -/
def readUint32 : Read Nat := fun bytes => do
  let (field, bytes) ← readBytes 4 bytes
  return (uint32Value field, bytes)

/-- `readArgument(27)`. -/
def readUint64 : Read Nat := fun bytes => do
  let (high, bytes) ← readUint32 bytes
  let (low, bytes) ← readUint32 bytes
  if 0x1fffff < high then .error rangeFailure else .ok (high * uint32Base + low, bytes)

def readArgument (additionalInformation : Nat) : Read Nat := fun bytes =>
  if additionalInformation < 24 then .ok (additionalInformation, bytes)
  else match additionalInformation with
    | 24 => readByte bytes
    | 25 => readUint16 bytes
    | 26 => readUint32 bytes
    | 27 => readUint64 bytes
    | 31 => .error (.cborError "Indefinite-length CBOR items are not supported")
    | _ => .error (.cborError "Malformed CBOR additional information")

def readLength (additionalInformation : Nat) (kind : String) (limit : Nat) : Read Nat :=
  fun bytes => do
    if additionalInformation = 31 then
      throw (.cborError ("Indefinite-length CBOR " ++ kind ++ "s are not supported"))
    else
      let (length, bytes) ← readArgument additionalInformation bytes
      if limit < length then throw (lengthFailure kind limit)
      else return (length, bytes)

def readSimple (additionalInformation : Nat) : Read Item := fun bytes =>
  match additionalInformation with
  | 20 => .ok (.boolean false, bytes)
  | 21 => .ok (.boolean true, bytes)
  | 22 => .ok (.null, bytes)
  | 27 => do
    let (field, bytes) ← readBytes 8 bytes
    let value := Binary64.ofBytes field
    if value.isFinite = false then throw (.cborError "Decoded CBOR number must be finite")
    else if value.isInteger = true ∧ value.isSafeInteger = false then throw integerFailure
    else return (.number value, bytes)
  | 31 => .error (.cborError "CBOR break marker is not supported")
  | _ => .error (.cborError "Unsupported CBOR simple value or floating-point width")

/-- The loop over the elements of an array. -/
def readElements (read : Read Item) : Nat → Read (List Item)
  | 0, bytes => .ok ([], bytes)
  | length + 1, bytes => do
    let (item, bytes) ← read bytes
    let (items, bytes) ← readElements read length bytes
    return (item :: items, bytes)

def readEntries (read : Read Item) : Nat → List JsString → Read (List (JsString × Item))
  | 0, _, bytes => .ok ([], bytes)
  | length + 1, keys, bytes => do
    let (key, bytes) ← read bytes
    match key with
    | .string key =>
      if key ∈ keys then throw (.cborError "CBOR map contains a duplicate key")
      else
        let (value, bytes) ← read bytes
        let (entries, bytes) ← readEntries read length (keys ++ [key]) bytes
        return ((key, value) :: entries, bytes)
    | _ => .error (.cborError "CBOR map keys must be strings")

/-- The switch of `readItem`; `read` reads an item one level down. -/
def readMajor (options : ResolvedCborOptions) (read : Read Item)
    (majorType additionalInformation : Nat) : Read Item := fun bytes =>
  match majorType with
  | 0 => do
    let (value, bytes) ← readArgument additionalInformation bytes
    return (.number (Binary64.ofInt value), bytes)
  | 1 => do
    let (argument, bytes) ← readArgument additionalInformation bytes
    let value : Int := -1 - argument
    if Binary64.maxSafeInteger < value.natAbs then throw integerFailure
    else return (.number (Binary64.ofInt value), bytes)
  | 2 => do
    let (length, bytes) ←
      readLength additionalInformation "byte string" options.maxByteLength bytes
    let (contents, bytes) ← readBytes length bytes
    return (.bytes contents, bytes)
  | 3 => do
    let (length, bytes) ←
      readLength additionalInformation "text string" options.maxByteLength bytes
    let (contents, bytes) ← readBytes length bytes
    match Utf16.textDecode contents with
    | some text => return (.string text, bytes)
    | none => throw (.cborError "CBOR text string contains invalid UTF-8")
  | 4 => do
    let (length, bytes) ←
      readLength additionalInformation "array" options.maxContainerLength bytes
    let (items, bytes) ← readElements read length bytes
    return (.array items, bytes)
  | 5 => do
    let (length, bytes) ←
      readLength additionalInformation "map" options.maxContainerLength bytes
    let (entries, bytes) ← readEntries read length [] bytes
    return (.object entries, bytes)
  | 6 => .error (.cborError "CBOR tags are not supported")
  | 7 => readSimple additionalInformation bytes
  | _ => .error (.cborError "Malformed CBOR major type")

def readItem (options : ResolvedCborOptions) : Nat → Read Item
  | 0, _ => .error (depthFailure options)
  | levels + 1, bytes => do
    let (initial, bytes) ← readByte bytes
    readMajor options (readItem options levels) (initial >>> 5) (initial &&& 0x1f) bytes

def decodeCbor (bytes : Bytes) (options : CborOptions) : Except Failure Item := do
  let resolved ← resolveOptions options
  if resolved.maxByteLength < bytes.length then
    throw (.cborError ("CBOR byte length exceeds configured limit of " ++
      toString resolved.maxByteLength))
  let (value, bytes) ← readItem resolved (resolved.maxDepth + 1) bytes
  if bytes ≠ [] then throw (.cborError "CBOR payload contains trailing data")
  return value

end Trpi.Protocol.Cbor
