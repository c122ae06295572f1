import Mathlib.Logic.Function.Basic
import Trpi.Ai.Types
import Trpi.Tools.EditDiff

/-!
# Messages made ready for another model

ai/src/api/transform-messages.ts. A first pass rewrites contents and the ids of tool calls made
by other models, a second one drops failed messages and makes up the tool results that are
missing.
-/

namespace Trpi.Ai

open Library
open Library.Utf16 (Units)

variable {N : Type}

inductive MediaContent where
  | text (content : TextContent)
  | image (data mimeType : String)

inductive UserContent where
  | text (text : Units)
  | blocks (blocks : List MediaContent)

structure UserMessage (N : Type) where
  content : UserContent
  timestamp : N

structure ToolResultHeader (N : Type) where
  toolCallId : String
  toolName : String
  details : Option (Json N)
  usage : Option (Json N)
  addedToolNames : Option (List String)
  isError : Bool
  timestamp : N

structure ToolResultMessage (N : Type) extends ToolResultHeader N where
  content : List MediaContent

inductive Message (N : Type) where
  | user (message : UserMessage N)
  | assistant (message : AssistantMessage N)
  | toolResult (message : ToolResultMessage N)

/-- A message of an untyped caller, whose content may be missing. -/
inductive LaxMessage (N : Type) where
  | user (content : Option UserContent) (timestamp : N)
  | assistant (header : MessageHeader N) (content : Option (List (AssistantContent N)))
  | toolResult (header : ToolResultHeader N) (content : Option (List MediaContent))

def LaxMessage.typed : LaxMessage N → Message N
  | .user content timestamp => .user ⟨content.getD (.blocks []), timestamp⟩
  | .assistant header content => .assistant ⟨header, content.getD []⟩
  | .toolResult header content => .toolResult ⟨header, content.getD []⟩

inductive InputKind where
  | text | image
  deriving DecidableEq

structure Model where
  id : String
  api : String
  provider : String
  input : List InputKind

def AssistantContent.toolCall? : AssistantContent N → Option (ToolCall N)
  | .toolCall call => some call
  | _ => none

def AssistantMessage.toolCalls (message : AssistantMessage N) : List (ToolCall N) :=
  message.content.filterMap AssistantContent.toolCall?

/-- `stopReason` is `error` or `aborted`. -/
def AssistantMessage.failed (message : AssistantMessage N) : Bool :=
  message.stopReason = .error || message.stopReason = .aborted

def NON_VISION_USER_IMAGE_PLACEHOLDER : String := "(image omitted: model does not support images)"

def NON_VISION_TOOL_IMAGE_PLACEHOLDER : String :=
  "(tool image omitted: model does not support images)"

def replaceImages (placeholder : Units) (previousWasPlaceholder : Bool) :
    List MediaContent → List MediaContent
  | [] => []
  | .image _ _ :: rest =>
    if previousWasPlaceholder then replaceImages placeholder true rest
    else .text ⟨placeholder, none⟩ :: replaceImages placeholder true rest
  | .text content :: rest =>
    .text content :: replaceImages placeholder (content.text = placeholder) rest

def replaceImagesWithPlaceholder (content : List MediaContent) (placeholder : String) :
    List MediaContent :=
  replaceImages (Utf16.units placeholder.toList) false content

def downgradeImages : Message N → Message N
  | .user ⟨.blocks blocks, timestamp⟩ =>
    .user ⟨.blocks (replaceImagesWithPlaceholder blocks NON_VISION_USER_IMAGE_PLACEHOLDER), timestamp⟩
  | .user ⟨.text text, timestamp⟩ => .user ⟨.text text, timestamp⟩
  | .toolResult message =>
    .toolResult { message with
      content := replaceImagesWithPlaceholder message.content NON_VISION_TOOL_IMAGE_PLACEHOLDER }
  | .assistant message => .assistant message

def downgradeUnsupportedImages (model : Model) (messages : List (Message N)) : List (Message N) :=
  if .image ∈ model.input then messages else messages.map downgradeImages

abbrev ToolCallIdMap := String → Option String

def renameResult (toolCallIdMap : ToolCallIdMap) (id : String) : String :=
  match toolCallIdMap id with
  | none => id
  | some normalizedId => if normalizedId ≠ "" ∧ normalizedId ≠ id then normalizedId else id

abbrev NormalizeToolCallId (N : Type) := String → Model → AssistantMessage N → String

def isSameModel (model : Model) (message : AssistantMessage N) : Bool :=
  message.provider = model.provider && message.api = model.api && message.model = model.id

/-- A thinking block is kept, dropped or made text. -/
def transformThinking (sameModel : Bool) (content : ThinkingContent) : List (AssistantContent N) :=
  if content.redacted = some true then
    if sameModel then [.thinking content] else []
  else if sameModel && (content.thinkingSignature.any (· ≠ "")) then [.thinking content]
  else if content.thinking.all Tools.isWhitespace then []
  else if sameModel then [.thinking content]
  else [.text ⟨content.thinking, none⟩]

def transformToolCall (sameModel : Bool) (normalize : Option (String → String))
    (toolCallIdMap : ToolCallIdMap) (toolCall : ToolCall N) : ToolCall N × ToolCallIdMap :=
  let kept :=
    if !sameModel && toolCall.thoughtSignature.any (· ≠ "") then
      { toolCall with thoughtSignature := none }
    else toolCall
  match sameModel, normalize with
  | false, some normalize =>
    let normalizedId := normalize toolCall.id
    if normalizedId ≠ toolCall.id then
      ({ kept with id := normalizedId },
        Function.update toolCallIdMap toolCall.id (some normalizedId))
    else (kept, toolCallIdMap)
  | _, _ => (kept, toolCallIdMap)

def transformContent (sameModel : Bool) (normalize : Option (String → String)) :
    ToolCallIdMap → List (AssistantContent N) → List (AssistantContent N) × ToolCallIdMap
  | toolCallIdMap, [] => ([], toolCallIdMap)
  | toolCallIdMap, .thinking content :: rest =>
    let (transformed, last) := transformContent sameModel normalize toolCallIdMap rest
    (transformThinking sameModel content ++ transformed, last)
  | toolCallIdMap, .text content :: rest =>
    let (transformed, last) := transformContent sameModel normalize toolCallIdMap rest
    (.text (if sameModel then content else ⟨content.text, none⟩) :: transformed, last)
  | toolCallIdMap, .toolCall toolCall :: rest =>
    let (normalized, next) := transformToolCall sameModel normalize toolCallIdMap toolCall
    let (transformed, last) := transformContent sameModel normalize next rest
    (.toolCall normalized :: transformed, last)

section

variable (model : Model) (normalizeToolCallId : Option (NormalizeToolCallId N))

def normalizerOf (message : AssistantMessage N) : Option (String → String) :=
  normalizeToolCallId.map fun normalize id => normalize id model message

def firstPass : ToolCallIdMap → List (Message N) → List (Message N)
  | _, [] => []
  | toolCallIdMap, .user message :: rest => .user message :: firstPass toolCallIdMap rest
  | toolCallIdMap, .toolResult message :: rest =>
    .toolResult { message with toolCallId := renameResult toolCallIdMap message.toolCallId } ::
      firstPass toolCallIdMap rest
  | toolCallIdMap, .assistant message :: rest =>
    let (content, next) := transformContent (isSameModel model message)
      (normalizerOf model normalizeToolCallId message) toolCallIdMap message.content
    .assistant { message with content := content } :: firstPass next rest

end

/-- The made-up result of a call; `now` is the time it is made up at. -/
def syntheticToolResult (now : ToolCall N → N) (toolCall : ToolCall N) : ToolResultMessage N where
  toolCallId := toolCall.id
  toolName := toolCall.name
  details := none
  usage := none
  addedToolNames := none
  isError := true
  timestamp := now toolCall
  content := [.text ⟨Utf16.units "No result provided".toList, none⟩]

/-- The calls that wait for results, and the ids of the results that came. -/
structure Unanswered (N : Type) where
  pendingToolCalls : List (ToolCall N)
  existingToolResultIds : List String

namespace Unanswered

def insertSyntheticToolResults (now : ToolCall N → N) (unanswered : Unanswered N) :
    List (Message N) :=
  (unanswered.pendingToolCalls.filter fun toolCall =>
      toolCall.id ∉ unanswered.existingToolResultIds).map fun toolCall =>
    .toolResult (syntheticToolResult now toolCall)

def cleared (unanswered : Unanswered N) : Unanswered N :=
  match unanswered.pendingToolCalls with
  | [] => unanswered
  | _ :: _ => ⟨[], []⟩

/-- The calls of an assistant message that is kept. -/
def track (unanswered : Unanswered N) (toolCalls : List (ToolCall N)) : Unanswered N :=
  match toolCalls with
  | [] => unanswered
  | _ :: _ => ⟨toolCalls, []⟩

def addResult (unanswered : Unanswered N) (id : String) : Unanswered N :=
  { unanswered with existingToolResultIds := id :: unanswered.existingToolResultIds }

end Unanswered

def secondPass (now : ToolCall N → N) : Unanswered N → List (Message N) → List (Message N)
  | unanswered, [] => unanswered.insertSyntheticToolResults now
  | unanswered, .assistant message :: rest =>
    unanswered.insertSyntheticToolResults now ++
      if message.failed then secondPass now unanswered.cleared rest
      else .assistant message :: secondPass now (unanswered.cleared.track message.toolCalls) rest
  | unanswered, .toolResult message :: rest =>
    .toolResult message :: secondPass now (unanswered.addResult message.toolCallId) rest
  | unanswered, .user message :: rest =>
    unanswered.insertSyntheticToolResults now ++
      .user message :: secondPass now unanswered.cleared rest

def transformMessages (now : ToolCall N → N) (messages : List (LaxMessage N)) (model : Model)
    (normalizeToolCallId : Option (NormalizeToolCallId N)) : List (Message N) :=
  secondPass now ⟨[], []⟩ (firstPass model normalizeToolCallId (fun _ => none)
    (downgradeUnsupportedImages model (messages.map LaxMessage.typed)))

end Trpi.Ai
