import Trpi.Protocol.Cbor.Options

/-!
# CBOR encoder

protocol/src/cbor/encoder.ts. The writer owns a buffer that grows up to the byte
limit; the encoder walks the heap with the objects it is inside of, and counts
the levels the depth limit leaves rather than the depth.
-/

namespace Trpi.Protocol.Cbor

open Library List

structure CborWriter where
  buffer : Bytes
  offset : Nat
  maxByteLength : Nat

namespace CborWriter

def create (maxByteLength : Nat) : CborWriter where
  buffer := List.replicate (min 256 maxByteLength) 0
  offset := 0
  maxByteLength := maxByteLength

/-- The loop of `ensureCapacity`. -/
def growCapacity (maxByteLength required : Nat) (fits : required ≤ maxByteLength)
    (capacity : Nat) : Nat :=
  if capacity < required then
    growCapacity maxByteLength required fits (min maxByteLength (max required (capacity * 2)))
  else capacity
termination_by required - capacity
decreasing_by omega

def ensureCapacity (writer : CborWriter) (additionalBytes : Nat) : Except Failure CborWriter :=
  if fits : writer.offset + additionalBytes ≤ writer.maxByteLength then
    if writer.offset + additionalBytes ≤ writer.buffer.length then .ok writer
    else
      let capacity := growCapacity writer.maxByteLength (writer.offset + additionalBytes) fits
        (max 1 writer.buffer.length)
      .ok { writer with
        buffer := writer.buffer ++ List.replicate (capacity - writer.buffer.length) 0 }
  else
    .error (.cborError ("CBOR byte length exceeds configured limit of " ++
      toString writer.maxByteLength))

def store (writer : CborWriter) (bytes : Bytes) : CborWriter :=
  { writer with
    buffer := writer.buffer.take writer.offset ++ bytes ++
      writer.buffer.drop (writer.offset + bytes.length)
    offset := writer.offset + bytes.length }

def writeByte (writer : CborWriter) (value : Nat) : Except Failure CborWriter := do
  let writer ← writer.ensureCapacity 1
  return writer.store [UInt8.ofNat value]

def writeBytes (writer : CborWriter) (bytes : Bytes) : Except Failure CborWriter := do
  let writer ← writer.ensureCapacity bytes.length
  return writer.store bytes

/-- A byte store keeps the low eight bits. -/
def uint16Bytes (value : Nat) : Bytes := [UInt8.ofNat (value >>> 8), UInt8.ofNat value]

def uint32Bytes (value : Nat) : Bytes :=
  [UInt8.ofNat (value >>> 24), UInt8.ofNat (value >>> 16), UInt8.ofNat (value >>> 8),
    UInt8.ofNat value]

def writeUint16 (writer : CborWriter) (value : Nat) : Except Failure CborWriter := do
  let writer ← writer.ensureCapacity 2
  return writer.store (uint16Bytes value)

def writeUint32 (writer : CborWriter) (value : Nat) : Except Failure CborWriter := do
  let writer ← writer.ensureCapacity 4
  return writer.store (uint32Bytes value)

def writeUint64 (writer : CborWriter) (value : Nat) : Except Failure CborWriter := do
  let high := value / uint32Base
  let low := value - high * uint32Base
  let writer ← writer.writeUint32 high
  writer.writeUint32 low

def writeFloat64 (writer : CborWriter) (value : Binary64) : Except Failure CborWriter := do
  let writer ← writer.ensureCapacity 9
  return writer.store (0xfb :: value.toBytes)

def finish (writer : CborWriter) : Bytes := writer.buffer.take writer.offset

end CborWriter

def writeArgument (writer : CborWriter) (majorType value : Nat) : Except Failure CborWriter := do
  let head := majorType <<< 5
  if value < 24 then writer.writeByte (head ||| value)
  else if value ≤ 0xff then
    let writer ← writer.writeByte (head ||| 24)
    writer.writeByte value
  else if value ≤ 0xffff then
    let writer ← writer.writeByte (head ||| 25)
    writer.writeUint16 value
  else if value ≤ maxUint32 then
    let writer ← writer.writeByte (head ||| 26)
    writer.writeUint32 value
  else
    let writer ← writer.writeByte (head ||| 27)
    writer.writeUint64 value

def encodeText (writer : CborWriter) (value : JsString) (options : ResolvedCborOptions) :
    Except Failure CborWriter := do
  let bytes := Utf16.textEncode value
  if options.maxByteLength < bytes.length then
    throw (lengthFailure "text string" options.maxByteLength)
  else if Utf16.textDecode bytes ≠ some value then
    throw (.cborError "CBOR text strings must contain valid Unicode scalar values")
  else
    let writer ← writeArgument writer 3 bytes.length
    writer.writeBytes bytes

def encodeNumber (writer : CborWriter) (value : Binary64) : Except Failure CborWriter :=
  if value.isFinite = false then .error (.cborError "CBOR numbers must be finite")
  else if value.isInteger = true ∧ value ≠ Binary64.negativeZero then
    if value.isSafeInteger = false then
      .error (.cborError "CBOR integers must be safe JavaScript integers")
    else if 0 ≤ value.toInt then writeArgument writer 0 value.toInt.toNat
    else writeArgument writer 1 (-1 - value.toInt).toNat
  else writer.writeFloat64 value

/-- The loop over the elements of an array; `encode` writes one of them. -/
def encodeElements (encode : Value → CborWriter → Except Failure CborWriter) :
    List (Option Value) → CborWriter → Except Failure CborWriter
  | [], writer => .ok writer
  | none :: _, _ =>
    .error (.cborError "CBOR arrays must not contain holes or undefined values")
  | some .undefined :: _, _ =>
    .error (.cborError "CBOR arrays must not contain holes or undefined values")
  | some value :: elements, writer => do
    let writer ← encode value writer
    encodeElements encode elements writer

/-- The loop over the entries of a map. -/
def encodeEntries (options : ResolvedCborOptions)
    (encode : Value → CborWriter → Except Failure CborWriter) :
    List (JsString × Value) → CborWriter → Except Failure CborWriter
  | [], writer => .ok writer
  | (key, value) :: entries, writer => do
    let writer ← encodeText writer key options
    let writer ← encode value writer
    encodeEntries options encode entries writer

def definedEntries (members : Members) : List (JsString × Value) :=
  members.entries.filter fun entry => entry.2 ≠ .undefined

def cycleFailure : Failure := .cborError "CBOR values must not contain cycles"

/-- `levels` is one more than the limit less the depth. -/
def encodeValue (heap : Heap) (options : ResolvedCborOptions) :
    Nat → List Ref → Value → CborWriter → Except Failure CborWriter
  | 0, _, _, _ => .error (depthFailure options)
  | levels + 1, ancestors, value, writer =>
    match value with
    | .null => writer.writeByte 0xf6
    | .boolean flag => writer.writeByte (if flag then 0xf5 else 0xf4)
    | .number number => encodeNumber writer number
    | .string text => encodeText writer text options
    | .object ref =>
      match heap ref with
      | .bytes contents => do
        if options.maxByteLength < contents.length then
          throw (lengthFailure "byte string" options.maxByteLength)
        else
          let writer ← writeArgument writer 2 contents.length
          writer.writeBytes contents
      | .array elements => do
        if ref ∈ ancestors then throw cycleFailure
        else if options.maxContainerLength < elements.length then
          throw (lengthFailure "array" options.maxContainerLength)
        else
          let writer ← writeArgument writer 4 elements.length
          encodeElements (encodeValue heap options levels (ref :: ancestors)) elements writer
      | .plain enumerableSymbol members => do
        if ref ∈ ancestors then throw cycleFailure
        else if enumerableSymbol then throw (.cborError "CBOR map keys must be strings")
        else if options.maxContainerLength < (definedEntries members).length then
          throw (lengthFailure "map" options.maxContainerLength)
        else
          let writer ← writeArgument writer 5 (definedEntries members).length
          encodeEntries options (encodeValue heap options levels (ref :: ancestors))
            (definedEntries members) writer
      | .other => .error (.cborError "Unsupported CBOR value type: object")
    | .undefined => .error (.cborError "Unsupported CBOR value type: undefined")
    | .unsupported typeName => .error (.cborError ("Unsupported CBOR value type: " ++ typeName))

def encodeCbor (heap : Heap) (value : Value) (options : CborOptions) : Except Failure Bytes := do
  let resolved ← resolveOptions options
  let writer ← encodeValue heap resolved (resolved.maxDepth + 1) [] value
    (CborWriter.create resolved.maxByteLength)
  return writer.finish

namespace CborWriter

/-- The bytes written so far lie inside the buffer, which is within the limit. -/
structure Sound (writer : CborWriter) : Prop where
  offset_le : writer.offset ≤ writer.buffer.length
  offset_le_max : writer.offset ≤ writer.maxByteLength

/-- A writer that has got exactly these bytes more. -/
structure Appends (before after : CborWriter) (bytes : Bytes) : Prop where
  sound : after.Sound
  max_eq : after.maxByteLength = before.maxByteLength
  finish_eq : after.finish = before.finish ++ bytes

theorem create_sound (maxByteLength : Nat) : (create maxByteLength).Sound :=
  ⟨Nat.zero_le _, Nat.zero_le _⟩

variable {writer written : CborWriter} {bytes : Bytes}

theorem Sound.appends_nil (sound : writer.Sound) : Appends writer writer [] :=
  ⟨sound, rfl, (append_nil _).symm⟩

theorem Appends.trans {first second third : CborWriter} {left right : Bytes}
    (head : Appends first second left) (tail : Appends second third right) :
    Appends first third (left ++ right) := by
  refine ⟨tail.sound, tail.max_eq.trans head.max_eq, ?_⟩
  rw [tail.finish_eq, head.finish_eq, append_assoc]

theorem le_growCapacity {maxByteLength required : Nat} (fits : required ≤ maxByteLength)
    (capacity : Nat) : required ≤ growCapacity maxByteLength required fits capacity := by
  induction capacity using growCapacity.induct maxByteLength required fits with
  | case1 capacity short ih =>
    rw [growCapacity, if_pos short]
    exact ih
  | case2 capacity enough =>
    rw [growCapacity, if_neg enough]
    omega

theorem ensureCapacity_ok {grown : CborWriter} {additionalBytes : Nat} (sound : writer.Sound)
    (ok : writer.ensureCapacity additionalBytes = .ok grown) :
    grown.offset = writer.offset ∧ grown.maxByteLength = writer.maxByteLength ∧
      grown.finish = writer.finish ∧ grown.offset + additionalBytes ≤ grown.buffer.length ∧
      grown.offset + additionalBytes ≤ grown.maxByteLength := by
  unfold ensureCapacity at ok
  split at ok
  · rename_i fits
    split at ok
    · cases ok
      exact ⟨rfl, rfl, rfl, by assumption, fits⟩
    · cases ok
      have enough := le_growCapacity fits (max 1 writer.buffer.length)
      have kept := sound.offset_le
      refine ⟨rfl, rfl, ?_, ?_, fits⟩
      · exact take_append_of_le_length kept
      · simp only [length_append, length_replicate]
        omega
  · cases ok

theorem store_appends (room : writer.offset + bytes.length ≤ writer.buffer.length)
    (fits : writer.offset + bytes.length ≤ writer.maxByteLength) :
    Appends writer (writer.store bytes) bytes := by
  have front : (writer.buffer.take writer.offset).length = writer.offset := by
    rw [length_take]
    omega
  refine ⟨⟨?_, fits⟩, rfl, ?_⟩
  · simp only [store, length_append, front, length_drop]
    omega
  · have size : (writer.buffer.take writer.offset ++ bytes).length =
        writer.offset + bytes.length := by
      rw [length_append, front]
    simp only [finish, store]
    rw [← size, take_left' rfl]

theorem write_appends (sound : writer.Sound)
    (ok : (do let grown ← writer.ensureCapacity bytes.length
              return grown.store bytes) = Except.ok written) : Appends writer written bytes := by
  obtain ⟨grown, reserved, ok⟩ := bind_eq_ok ok
  cases ok
  obtain ⟨-, max_eq, finish_eq, room, fits⟩ := ensureCapacity_ok sound reserved
  have stored := store_appends room fits
  exact ⟨stored.sound, max_eq, finish_eq ▸ stored.finish_eq⟩

theorem writeUint64_appends {v : Nat} (sound : writer.Sound)
    (ok : writer.writeUint64 v = .ok written) :
    Appends writer written
      (uint32Bytes (v / uint32Base) ++ uint32Bytes (v - v / uint32Base * uint32Base)) := by
  obtain ⟨middle, first, ok⟩ := bind_eq_ok ok
  have high : Appends writer middle (uint32Bytes (v / uint32Base)) :=
    write_appends sound first
  exact high.trans (write_appends high.sound ok)

end CborWriter

end Trpi.Protocol.Cbor
