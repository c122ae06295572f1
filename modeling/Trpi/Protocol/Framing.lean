import Trpi.Library.Transducer

/-!
# Frames

protocol/src/framing.ts: payloads behind an unsigned 32-bit big-endian length,
and the incremental decoder that splits arbitrary chunks into payloads again. A
typed array is the list of its bytes. A typed array that is filled from the front
is its filled part: the decoder's `header` stands for the first `headerLength`
bytes of the source's, and a block for its length and the bytes set so far.
-/

namespace Trpi.Protocol

open Library

abbrev Bytes := List UInt8

def frameHeaderLength : Nat := 4
def maxUint32 : Nat := 0xffffffff
def payloadBlockSize : Nat := 64 * 1024
def defaultMaxFrameLength : Nat := 16 * 1024 * 1024

inductive FrameError where
  | invalidMaxFrameLength
  | payloadTooLong
  | ended
  | failed
  | frameTooLong (frameLength maxFrameLength : Nat)
  | truncated

def FrameError.message : FrameError → String
  | .invalidMaxFrameLength => "maxFrameLength must be an integer between 0 and " ++ toString maxUint32
  | .payloadTooLong => "Frame payload exceeds the unsigned 32-bit length limit"
  | .ended => "Frame decoder has ended"
  | .failed => "Frame decoder has failed"
  | .frameTooLong frameLength maxFrameLength =>
    "Frame length " ++ toString frameLength ++ " exceeds configured limit of " ++
      toString maxFrameLength
  | .truncated => "Truncated frame at end of stream"

def resolveMaxFrameLength (maxFrameLength : Option Int) : Except FrameError Nat :=
  let value := maxFrameLength.getD defaultMaxFrameLength
  if value < 0 ∨ (maxUint32 : Int) < value then .error .invalidMaxFrameLength else .ok value.toNat

/-- The first four bytes of a frame; a byte store keeps the low eight bits. -/
def frameHeader (length : Nat) : Bytes :=
  [UInt8.ofNat (length >>> 24), UInt8.ofNat (length >>> 16), UInt8.ofNat (length >>> 8),
    UInt8.ofNat length]

/-- Prefixes a payload with its unsigned 32-bit big-endian byte length. -/
def encodeFrame (payload : Bytes) : Except FrameError Bytes :=
  if maxUint32 < payload.length then .error .payloadTooLong
  else .ok (frameHeader payload.length ++ payload)

inductive DecoderState where
  | «open» | ended | failed

structure PayloadBlock where
  byteLength : Nat
  filled : Bytes

/-- The whole typed array; what is not filled yet is zero. -/
def PayloadBlock.bytes (block : PayloadBlock) : Bytes :=
  block.filled ++ List.replicate (block.byteLength - block.filled.length) 0

/-- `currentPayloadBlock` is the last of the source's `payloadBlocks`; here
`payloadBlocks` holds the ones before it. -/
structure FrameDecoder where
  header : Bytes
  maxFrameLength : Nat
  payloadBlocks : List PayloadBlock
  currentPayloadBlock : Option PayloadBlock
  expectedPayloadLength : Option Nat
  payloadLength : Nat
  state : DecoderState

namespace FrameDecoder

def create (maxFrameLength : Option Int) : Except FrameError FrameDecoder :=
  (resolveMaxFrameLength maxFrameLength).map fun limit =>
    { header := []
      maxFrameLength := limit
      payloadBlocks := []
      currentPayloadBlock := none
      expectedPayloadLength := none
      payloadLength := 0
      state := .open }

/-- The state `fail` leaves behind; its caller throws. -/
def fail (d : FrameDecoder) : FrameDecoder :=
  { d with
    state := .failed
    header := []
    payloadBlocks := []
    currentPayloadBlock := none
    expectedPayloadLength := none
    payloadLength := 0 }

def frameLength (header : Bytes) : Nat :=
  (header.getD 0 0).toNat * 0x1000000 + (header.getD 1 0).toNat * 0x10000 +
    (header.getD 2 0).toNat * 0x100 + (header.getD 3 0).toNat

/-- The block the next bytes go into, and the blocks before it. -/
def openBlock (d : FrameDecoder) (expectedPayloadLength : Nat) :
    List PayloadBlock × PayloadBlock :=
  let fresh : PayloadBlock :=
    { byteLength := min payloadBlockSize (expectedPayloadLength - d.payloadLength)
      filled := [] }
  match d.currentPayloadBlock with
  | none => (d.payloadBlocks, fresh)
  | some block =>
    if block.filled.length = block.byteLength then (d.payloadBlocks ++ [block], fresh)
    else (d.payloadBlocks, block)

/-- The inner loop of `push`: the decoder and what it leaves of the chunk. Every
round takes a byte, so the length of the chunk is fuel enough. -/
def fillPayload : Nat → FrameDecoder → Nat → Bytes → FrameDecoder × Bytes
  | 0, d, _, chunk => (d, chunk)
  | fuel + 1, d, expectedPayloadLength, chunk =>
    if chunk = [] ∨ expectedPayloadLength ≤ d.payloadLength then (d, chunk)
    else
      let (blocks, block) := d.openBlock expectedPayloadLength
      let payloadBytes := min (block.byteLength - block.filled.length) chunk.length
      fillPayload fuel
        { d with
          payloadBlocks := blocks
          currentPayloadBlock := some { block with filled := block.filled ++ chunk.take payloadBytes }
          payloadLength := d.payloadLength + payloadBytes }
        expectedPayloadLength (chunk.drop payloadBytes)

def joinBlocks : List PayloadBlock → Bytes
  | [block] => block.bytes
  | blocks => blocks.flatMap PayloadBlock.bytes

/-- The payload part of one round of `push`: the decoder, the rest of the chunk
and the frame that is complete, if one is. -/
def readPayload (d : FrameDecoder) (expectedPayloadLength : Nat) (chunk : Bytes) :
    FrameDecoder × Bytes × List Bytes :=
  let (d, rest) := fillPayload chunk.length d expectedPayloadLength chunk
  if d.payloadLength = expectedPayloadLength then
    ({ d with
        payloadBlocks := []
        currentPayloadBlock := none
        expectedPayloadLength := none
        payloadLength := 0 },
      rest, [joinBlocks (d.payloadBlocks ++ d.currentPayloadBlock.toList)])
  else (d, rest, [])

/-- The outer loop of `push`, with fuel as for `fillPayload`. -/
def pushLoop : Nat → FrameDecoder → Bytes → List Bytes → FrameDecoder × Except FrameError (List Bytes)
  | 0, d, _, frames => (d, .ok frames)
  | fuel + 1, d, chunk, frames =>
    if chunk = [] then (d, .ok frames)
    else
      match d.expectedPayloadLength with
      | some expectedPayloadLength =>
        let (d, rest, complete) := d.readPayload expectedPayloadLength chunk
        pushLoop fuel d rest (frames ++ complete)
      | none =>
        let headerBytes := min (frameHeaderLength - d.header.length) chunk.length
        let header := d.header ++ chunk.take headerBytes
        let rest := chunk.drop headerBytes
        if header.length < frameHeaderLength then
          pushLoop fuel { d with header := header } rest frames
        else
          let d := { d with header := [] }
          let length := frameLength header
          if d.maxFrameLength < length then
            (d.fail, .error (.frameTooLong length d.maxFrameLength))
          else if length = 0 then pushLoop fuel d rest (frames ++ [[]])
          else
            let (d, rest, complete) :=
              { d with
                expectedPayloadLength := some length
                payloadBlocks := []
                currentPayloadBlock := none
                payloadLength := 0 }.readPayload length rest
            pushLoop fuel d rest (frames ++ complete)

def push (d : FrameDecoder) (chunk : Bytes) : FrameDecoder × Except FrameError (List Bytes) :=
  match d.state with
  | .ended => (d, .error .ended)
  | .failed => (d, .error .failed)
  | .open => pushLoop chunk.length d chunk []

def «end» (d : FrameDecoder) : FrameDecoder × Except FrameError Unit :=
  match d.state with
  | .ended => (d, .error .ended)
  | .failed => (d, .error .failed)
  | .open =>
    if d.header.length ≠ 0 ∨ d.expectedPayloadLength ≠ none then
      (d.fail, .error .truncated)
    else ({ d with state := .ended }, .ok ())

/-- Push the chunks one after the other, also after a push that threw. -/
def pushes (d : FrameDecoder) : List Bytes → FrameDecoder × List (Except FrameError (List Bytes))
  | [] => (d, [])
  | chunk :: rest =>
    let (d, result) := d.push chunk
    let (d, results) := pushes d rest
    (d, result :: results)

end FrameDecoder

end Trpi.Protocol
