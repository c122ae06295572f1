import Trpi.Library.Json
import Trpi.Library.Utf16

/-!
# Assistant messages and their event streams

The part of ai/src/types.ts that streaming uses. Text is a host string of UTF-16
units; tool arguments, usage and diagnostics are JSON documents. An event's `partial`
is the one live message and not part of the event: it is whatever the producer has made
of it when the event is read.
-/

namespace Trpi.Ai

open Library
open Library.Utf16 (Units)

variable {N : Type}

structure TextContent where
  text : Units
  textSignature : Option String

structure ThinkingContent where
  thinking : Units
  thinkingSignature : Option String
  redacted : Option Bool

structure ToolCall (N : Type) where
  id : String
  name : String
  arguments : Json N
  thoughtSignature : Option String
  toolNamespace : Option String

/-- The two kinds of block that grow by characters. -/
inductive CharKind where
  | text | thinking
  deriving DecidableEq

inductive BlockKind where
  | chars (kind : CharKind)
  | toolCall
  deriving DecidableEq

def BlockKind.type : BlockKind → String
  | .chars .text => "text"
  | .chars .thinking => "thinking"
  | .toolCall => "toolCall"

inductive AssistantContent (N : Type) where
  | text (content : TextContent)
  | thinking (content : ThinkingContent)
  | toolCall (content : ToolCall N)

namespace AssistantContent

def kind : AssistantContent N → BlockKind
  | .text _ => .chars .text
  | .thinking _ => .chars .thinking
  | .toolCall _ => .toolCall

def chars : AssistantContent N → Units
  | .text content => content.text
  | .thinking content => content.thinking
  | .toolCall _ => []

end AssistantContent

inductive StopReason where
  | pending | stop | length | toolUse | error | aborted | deferred
  deriving DecidableEq

/-- An assistant message without its content. -/
structure MessageHeader (N : Type) where
  api : String
  provider : String
  model : String
  responseModel : Option String
  responseId : Option String
  providerThinkingLevel : Option String
  diagnostics : Option (Json N)
  usage : Json N
  stopReason : StopReason
  deferred : Option (Json N)
  errorMessage : Option String
  rawStopReason : Option String
  endTurn : Option Bool
  timestamp : N

structure AssistantMessage (N : Type) extends MessageHeader N where
  content : List (AssistantContent N)

inductive AssistantMessageEvent (N : Type) where
  | start
  | textStart (contentIndex : Nat)
  | textDelta (contentIndex : Nat) (delta : Units)
  | textEnd (contentIndex : Nat) (content : Units)
  | thinkingStart (contentIndex : Nat)
  | thinkingDelta (contentIndex : Nat) (delta : Units)
  | thinkingEnd (contentIndex : Nat) (content : Units)
  | toolcallStart (contentIndex : Nat)
  | toolcallDelta (contentIndex : Nat) (delta : Units)
  | toolcallEnd (contentIndex : Nat) (toolCall : ToolCall N)
  | done
  | error

def AssistantMessageEvent.type : AssistantMessageEvent N → String
  | .start => "start"
  | .textStart _ => "text_start"
  | .textDelta _ _ => "text_delta"
  | .textEnd _ _ => "text_end"
  | .thinkingStart _ => "thinking_start"
  | .thinkingDelta _ _ => "thinking_delta"
  | .thinkingEnd _ _ => "thinking_end"
  | .toolcallStart _ => "toolcall_start"
  | .toolcallDelta _ _ => "toolcall_delta"
  | .toolcallEnd _ _ => "toolcall_end"
  | .done => "done"
  | .error => "error"

end Trpi.Ai
