import Trpi.Ai.Types
import Trpi.Library.InsertionMap
import Trpi.Library.Runs

/-!
# Assistant message frames

ai/src/utils/assistant-message-frame.ts. The encoder turns the events of one stream into
frames and leaves out of the deltas what the snapshot of the block's start already
contains; the reducer rebuilds the message from the frames. The streaming JSON parser is
a parameter.
-/

namespace Trpi.Ai

open Library
open Library.Utf16 (Units)

variable {N : Type}

inductive AssistantMessageFrame (N : Type) where
  | start (message : AssistantMessage N)
  | textStart (contentIndex : Nat) (content : TextContent)
  | textDelta (contentIndex : Nat) (delta : Units)
  | textEnd (contentIndex : Nat) (content : Units) (textSignature : Option String)
  | thinkingStart (contentIndex : Nat) (content : ThinkingContent)
  | thinkingDelta (contentIndex : Nat) (delta : Units)
  | thinkingEnd (contentIndex : Nat) (content : Units) (thinkingSignature : Option String)
      (redacted : Option Bool)
  | toolcallStart (contentIndex : Nat) (toolCall : ToolCall N)
  | toolcallCheckpoint (contentIndex : Nat) (json : Units)
  | toolcallDelta (contentIndex : Nat) (delta : Units)
  | toolcallEnd (contentIndex : Nat) (id name : String) (arguments : Json N)
      (thoughtSignature toolNamespace : Option String)

def AssistantMessageFrame.type : AssistantMessageFrame N → String
  | .start _ => "start"
  | .textStart _ _ => "text_start"
  | .textDelta _ _ => "text_delta"
  | .textEnd _ _ _ => "text_end"
  | .thinkingStart _ _ => "thinking_start"
  | .thinkingDelta _ _ => "thinking_delta"
  | .thinkingEnd _ _ _ _ => "thinking_end"
  | .toolcallStart _ _ => "toolcall_start"
  | .toolcallCheckpoint _ _ => "toolcall_checkpoint"
  | .toolcallDelta _ _ => "toolcall_delta"
  | .toolcallEnd _ _ _ _ _ _ => "toolcall_end"

/-- The content and what is known only of a settled message are left out. -/
def cloneStartMessage (message : AssistantMessage N) : AssistantMessage N :=
  { message with
    content := []
    stopReason := .pending
    deferred := none
    errorMessage := none
    rawStopReason := none
    endTurn := none }

def MAX_SAFE_INTEGER : Nat := 9007199254740991

def assertContentIndex (contentIndex : Nat) : Except String Unit :=
  if contentIndex ≤ MAX_SAFE_INTEGER then .ok ()
  else .error s!"Invalid assistant message frame contentIndex: {contentIndex}"

section

variable [JsonNumber N] [DecidableEq N]

mutual

def isJsonPrefix : Json N → Json N → Bool
  | .str snapshot, current =>
    match current with
    | .str text => snapshot.toList.isPrefixOf text.toList
    | _ => false
  | .arr items, current =>
    match current with
    | .arr others => isItemsPrefix items others
    | _ => false
  | .obj members, current =>
    match current with
    | .obj others => isMembersPrefix members others
    | _ => false
  | .null, current =>
    match current with
    | .null => true
    | _ => false
  | .bool flag, current =>
    match current with
    | .bool other => flag == other
    | _ => false
  | .num number, current =>
    match current with
    | .num other => number = other
    | _ => false

def isItemsPrefix : List (Json N) → List (Json N) → Bool
  | [], _ => true
  | _ :: _, [] => false
  | item :: items, other :: others => isJsonPrefix item other && isItemsPrefix items others

def isMembersPrefix : List (String × Json N) → List (String × Json N) → Bool
  | [], _ => true
  | (key, value) :: members, others =>
    (match Json.lookup key others with
      | some other => isJsonPrefix value other
      | none => false) && isMembersPrefix members others

end

inductive EncoderBlockState where
  | chars (kind : CharKind) (coveredChars deltaChars : Nat)
  | toolCall (caughtUp : Bool) (catchupJson snapshotArguments : Units)

def EncoderBlockState.kind : EncoderBlockState → BlockKind
  | .chars kind _ _ => .chars kind
  | .toolCall _ _ _ => .toolCall

structure AssistantMessageFrameEncoder where
  started : Bool
  terminal : Bool
  blocks : InsertionMap Nat EncoderBlockState

def serializedArguments (argumentsValue : Json N) : Units :=
  Utf16.units argumentsValue.stringifyChars

/-- `event.partial.content[event.contentIndex]`. -/
def eventBlock (event : AssistantMessageEvent N) (contentIndex : Nat) (message : AssistantMessage N) :
    Except String (AssistantContent N) := do
  assertContentIndex contentIndex
  match message.content[contentIndex]? with
  | some block => .ok block
  | none => .error s!"{event.type} event has no content block at index {contentIndex}"

namespace AssistantMessageFrameEncoder

def create : AssistantMessageFrameEncoder where
  started := false
  terminal := false
  blocks := .empty

def startBlock (encoder : AssistantMessageFrameEncoder) (contentIndex : Nat)
    (state : EncoderBlockState) : Except String AssistantMessageFrameEncoder := do
  assertContentIndex contentIndex
  if encoder.blocks.contains contentIndex then
    .error s!"Assistant message block {contentIndex} starts more than once"
  else .ok { encoder with blocks := encoder.blocks.set contentIndex state }

def block (encoder : AssistantMessageFrameEncoder) (contentIndex : Nat) (kind : BlockKind) :
    Except String EncoderBlockState := do
  assertContentIndex contentIndex
  match encoder.blocks.get? contentIndex with
  | none => .error s!"Assistant message {kind.type} block {contentIndex} has not started"
  | some state =>
    if state.kind = kind then .ok state
    else .error s!"Assistant message block {contentIndex} is {state.kind.type}, not {kind.type}"

def endBlock (encoder : AssistantMessageFrameEncoder) (contentIndex : Nat) (kind : BlockKind) :
    Except String AssistantMessageFrameEncoder := do
  let _ ← encoder.block contentIndex kind
  .ok { encoder with blocks := encoder.blocks.erase contentIndex }

def uncovered (coveredChars deltaStart : Nat) (delta : Units) : Option Units :=
  let covered := coveredChars - deltaStart
  if delta.length ≤ covered then none else some (delta.drop covered)

def encodeTextDelta (encoder : AssistantMessageFrameEncoder) (contentIndex : Nat) (delta : Units)
    (kind : CharKind) :
    Except String (AssistantMessageFrameEncoder × Option (AssistantMessageFrame N)) := do
  match ← encoder.block contentIndex (.chars kind) with
  | .toolCall _ _ _ => .error "Unreachable text encoder state"
  | .chars kind coveredChars deltaStart =>
    let s := EncoderBlockState.chars kind coveredChars (deltaStart + delta.length)
    .ok ({ encoder with blocks := encoder.blocks.set contentIndex s },
      (uncovered coveredChars deltaStart delta).map fun uncovered =>
        match kind with
        | .text => .textDelta contentIndex uncovered
        | .thinking => .thinkingDelta contentIndex uncovered)

/-- The parsed arguments have reached the snapshot, or extend it. -/
def reachesSnapshot (parseStreamingJson : Units → Json N) (catchupJson snapshotArguments : Units) :
    Bool :=
  let argumentsValue := parseStreamingJson catchupJson
  serializedArguments argumentsValue = snapshotArguments ||
    isJsonPrefix (parseStreamingJson snapshotArguments) argumentsValue

def encodeToolcallDelta (parseStreamingJson : Units → Json N) (encoder : AssistantMessageFrameEncoder)
    (contentIndex : Nat) (delta : Units) :
    Except String (AssistantMessageFrameEncoder × Option (AssistantMessageFrame N)) := do
  match ← encoder.block contentIndex .toolCall with
  | .chars _ _ _ => .error "Unreachable tool-call encoder state"
  | .toolCall caughtUp catchupJson snapshotArguments =>
    if caughtUp then
      .ok (encoder, if delta = [] then none else some (.toolcallDelta contentIndex delta))
    else
      let json := catchupJson ++ delta
      if reachesSnapshot parseStreamingJson json snapshotArguments then
        let s := EncoderBlockState.toolCall true [] []
        .ok ({ encoder with blocks := encoder.blocks.set contentIndex s },
          if json = [] then none else some (.toolcallCheckpoint contentIndex json))
      else
        let s := EncoderBlockState.toolCall false json snapshotArguments
        .ok ({ encoder with blocks := encoder.blocks.set contentIndex s }, none)

/-- The cases behind `start`, `done` and `error`. -/
def encodeBlockEvent (parseStreamingJson : Units → Json N) (encoder : AssistantMessageFrameEncoder)
    (event : AssistantMessageEvent N) (message : AssistantMessage N) :
    Except String (AssistantMessageFrameEncoder × Option (AssistantMessageFrame N)) := do
  match event with
  | .textStart contentIndex =>
    match ← eventBlock event contentIndex message with
    | .text content =>
      let next ← encoder.startBlock contentIndex (.chars .text content.text.length 0)
      .ok (next, some (.textStart contentIndex content))
    | other => .error s!"text_start event points to {other.kind.type} block at index {contentIndex}"
  | .textDelta contentIndex delta => encoder.encodeTextDelta contentIndex delta .text
  | .textEnd contentIndex text =>
    match ← eventBlock event contentIndex message with
    | .text content =>
      let next ← encoder.endBlock contentIndex (.chars .text)
      .ok (next, some (.textEnd contentIndex text content.textSignature))
    | other => .error s!"text_end event points to {other.kind.type} block at index {contentIndex}"
  | .thinkingStart contentIndex =>
    match ← eventBlock event contentIndex message with
    | .thinking content =>
      let next ← encoder.startBlock contentIndex (.chars .thinking content.thinking.length 0)
      .ok (next, some (.thinkingStart contentIndex content))
    | other =>
      .error s!"thinking_start event points to {other.kind.type} block at index {contentIndex}"
  | .thinkingDelta contentIndex delta => encoder.encodeTextDelta contentIndex delta .thinking
  | .thinkingEnd contentIndex thinking =>
    match ← eventBlock event contentIndex message with
    | .thinking content =>
      let next ← encoder.endBlock contentIndex (.chars .thinking)
      .ok (next,
        some (.thinkingEnd contentIndex thinking content.thinkingSignature content.redacted))
    | other =>
      .error s!"thinking_end event points to {other.kind.type} block at index {contentIndex}"
  | .toolcallStart contentIndex =>
    match ← eventBlock event contentIndex message with
    | .toolCall content =>
      let snapshotArguments := serializedArguments content.arguments
      let caughtUp := snapshotArguments = serializedArguments (parseStreamingJson [])
      let next ← encoder.startBlock contentIndex
        (.toolCall caughtUp [] (if caughtUp then [] else snapshotArguments))
      .ok (next, some (.toolcallStart contentIndex content))
    | other =>
      .error s!"toolcall_start event points to {other.kind.type} block at index {contentIndex}"
  | .toolcallDelta contentIndex delta =>
    encoder.encodeToolcallDelta parseStreamingJson contentIndex delta
  | .toolcallEnd contentIndex toolCall =>
    match ← eventBlock event contentIndex message with
    | .toolCall _ =>
      let next ← encoder.endBlock contentIndex .toolCall
      .ok (next, some (.toolcallEnd contentIndex toolCall.id toolCall.name toolCall.arguments
        toolCall.thoughtSignature toolCall.toolNamespace))
    | other =>
      .error s!"toolcall_end event points to {other.kind.type} block at index {contentIndex}"
  | .start | .done | .error => .ok (encoder, none)

def encode (parseStreamingJson : Units → Json N) (encoder : AssistantMessageFrameEncoder)
    (event : AssistantMessageEvent N) (message : AssistantMessage N) :
    Except String (AssistantMessageFrameEncoder × Option (AssistantMessageFrame N)) :=
  if encoder.terminal then .error s!"Assistant message event {event.type} follows a terminal event"
  else match event with
    | .start =>
      if encoder.started then .error "Assistant message stream contains more than one start event"
      else .ok ({ encoder with started := true }, some (.start (cloneStartMessage message)))
    | .done =>
      if encoder.started then .ok ({ encoder with terminal := true }, none)
      else .error "Assistant message done event appears before start"
    | .error => .ok ({ encoder with terminal := true }, none)
    | event =>
      if encoder.started then encoder.encodeBlockEvent parseStreamingJson event message
      else .error s!"Assistant message {event.type} event appears before start"

end AssistantMessageFrameEncoder

end

inductive ReducerBlockState where
  | chars (kind : CharKind) (ended : Bool)
  | toolCall (ended : Bool) (json : Units)

namespace ReducerBlockState

def kind : ReducerBlockState → BlockKind
  | .chars kind _ => .chars kind
  | .toolCall _ _ => .toolCall

def ended : ReducerBlockState → Bool
  | .chars _ ended => ended
  | .toolCall ended _ => ended

def markEnded : ReducerBlockState → ReducerBlockState
  | .chars kind _ => .chars kind true
  | .toolCall _ json => .toolCall true json

end ReducerBlockState

/-- What the loop over the frames keeps. -/
structure Reduction (N : Type) where
  message : Option (AssistantMessage N)
  frameBeforeStart : Option String
  states : InsertionMap Nat ReducerBlockState

namespace Reduction

def initial : Reduction N where
  message := none
  frameBeforeStart := none
  states := .empty

def appendBlock (reduction : Reduction N) (message : AssistantMessage N) (contentIndex : Nat)
    (block : AssistantContent N) (state : ReducerBlockState) : Except String (Reduction N) := do
  assertContentIndex contentIndex
  if contentIndex ≠ message.content.length then
    let reason := if contentIndex < message.content.length then "already exists" else "would leave a gap"
    .error s!"Cannot start assistant message block at index {contentIndex}: {reason}"
  else
    .ok { reduction with
      message := some { message with content := message.content ++ [block] }
      states := reduction.states.set contentIndex state }

def activeBlock (reduction : Reduction N) (message : AssistantMessage N) (contentIndex : Nat)
    (expectedKind : BlockKind) (frameType : String) :
    Except String (AssistantContent N × ReducerBlockState) := do
  assertContentIndex contentIndex
  match reduction.states.get? contentIndex, message.content[contentIndex]? with
  | some state, some block =>
    if state.kind ≠ expectedKind ∨ block.kind ≠ expectedKind then
      .error s!"{frameType} frame expected {expectedKind.type} block at index {contentIndex}, found {block.kind.type}"
    else if state.ended then
      .error s!"{frameType} frame follows the end of block at index {contentIndex}"
    else .ok (block, state)
  | _, _ => .error s!"{frameType} frame has no started block at index {contentIndex}"

def put (reduction : Reduction N) (message : AssistantMessage N) (contentIndex : Nat)
    (block : AssistantContent N) (s : ReducerBlockState) : Reduction N :=
  { reduction with
    message := some { message with content := message.content.set contentIndex block }
    states := reduction.states.set contentIndex s }

/-- The cases behind `start`, once there is a message. -/
def reduceBlockFrame (parseStreamingJson : Units → Json N) (reduction : Reduction N)
    (message : AssistantMessage N) (frame : AssistantMessageFrame N) : Except String (Reduction N) := do
  match frame with
  | .textStart contentIndex content =>
    reduction.appendBlock message contentIndex (.text content) (.chars .text false)
  | .textDelta contentIndex delta =>
    match ← reduction.activeBlock message contentIndex (.chars .text) frame.type with
    | (.text block, s) =>
      .ok (reduction.put message contentIndex (.text { block with text := block.text ++ delta }) s)
    | _ => .error "Unreachable text frame state"
  | .textEnd contentIndex content textSignature =>
    match ← reduction.activeBlock message contentIndex (.chars .text) frame.type with
    | (.text _, s) =>
      .ok (reduction.put message contentIndex
        (.text { text := content, textSignature := textSignature }) s.markEnded)
    | _ => .error "Unreachable text frame state"
  | .thinkingStart contentIndex content =>
    reduction.appendBlock message contentIndex (.thinking content) (.chars .thinking false)
  | .thinkingDelta contentIndex delta =>
    match ← reduction.activeBlock message contentIndex (.chars .thinking) frame.type with
    | (.thinking block, s) =>
      .ok (reduction.put message contentIndex
        (.thinking { block with thinking := block.thinking ++ delta }) s)
    | _ => .error "Unreachable thinking frame state"
  | .thinkingEnd contentIndex content thinkingSignature redacted =>
    match ← reduction.activeBlock message contentIndex (.chars .thinking) frame.type with
    | (.thinking _, s) =>
      .ok (reduction.put message contentIndex
        (.thinking
          { thinking := content, thinkingSignature := thinkingSignature, redacted := redacted })
        s.markEnded)
    | _ => .error "Unreachable thinking frame state"
  | .toolcallStart contentIndex toolCall =>
    reduction.appendBlock message contentIndex (.toolCall toolCall) (.toolCall false [])
  | .toolcallCheckpoint contentIndex json =>
    match ← reduction.activeBlock message contentIndex .toolCall frame.type with
    | (.toolCall block, .toolCall ended _) =>
      .ok (reduction.put message contentIndex
        (.toolCall { block with arguments := parseStreamingJson json }) (.toolCall ended json))
    | _ => .error "Unreachable tool-call checkpoint state"
  | .toolcallDelta contentIndex delta =>
    match ← reduction.activeBlock message contentIndex .toolCall frame.type with
    | (.toolCall block, .toolCall ended json) =>
      .ok (reduction.put message contentIndex (.toolCall block) (.toolCall ended (json ++ delta)))
    | _ => .error "Unreachable tool-call frame state"
  | .toolcallEnd contentIndex id name arguments thoughtSignature toolNamespace =>
    match ← reduction.activeBlock message contentIndex .toolCall frame.type with
    | (.toolCall _, s) =>
      .ok (reduction.put message contentIndex
        (.toolCall
          { id := id, name := name, arguments := arguments, thoughtSignature := thoughtSignature
            toolNamespace := toolNamespace })
        s.markEnded)
    | _ => .error "Unreachable tool-call frame state"
  | .start _ => .ok reduction

def reduceFrame (parseStreamingJson : Units → Json N) (reduction : Reduction N)
    (frame : AssistantMessageFrame N) : Except String (Reduction N) :=
  match frame, reduction.message with
  | .start _, some _ =>
    .error "Assistant message frame sequence contains more than one start frame"
  | .start message, none =>
    match reduction.frameBeforeStart with
    | some type => .error s!"{type} frame appears before the start frame"
    | none => .ok { reduction with message := some message }
  | frame, none =>
    .ok { reduction with frameBeforeStart := reduction.frameBeforeStart.or (some frame.type) }
  | frame, some message => reduction.reduceBlockFrame parseStreamingJson message frame

def settleBlock (parseStreamingJson : Units → Json N) (content : List (AssistantContent N))
    (entry : Nat × ReducerBlockState) : Except String (List (AssistantContent N)) :=
  match entry.2 with
  | .toolCall false json =>
    if json = [] then .ok content
    else match content[entry.1]? with
      | some (.toolCall block) =>
        .ok (content.set entry.1 (.toolCall { block with arguments := parseStreamingJson json }))
      | _ => .error "Unreachable tool-call frame state"
  | _ => .ok content

end Reduction

def reduceAssistantMessageFrames (parseStreamingJson : Units → Json N)
    (frames : List (AssistantMessageFrame N)) : Except String (Option (AssistantMessage N)) := do
  let reduction ← run (Reduction.reduceFrame parseStreamingJson) .initial frames
  match reduction.message with
  | none => .ok none
  | some message =>
    let content ← run (Reduction.settleBlock parseStreamingJson) message.content
      reduction.states.toList
    .ok (some { message with content := content })

end Trpi.Ai
