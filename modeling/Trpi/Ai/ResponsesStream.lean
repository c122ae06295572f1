import Mathlib.Logic.Function.Basic
import Trpi.Ai.JsonParse
import Trpi.Ai.Types
import Trpi.Library.Runs

/-!
# Assembling a message from a Responses stream

`processResponsesStream` of ai/src/api/openai-responses-shared.ts. A block lives in the
message and everything else refers to it by its content index: the slots, by output
index, and the reasoning blocks, by item id. A signature that is the JSON of an item is
held as the item. Costs are floating point: computing them is a parameter.
-/

namespace Trpi.Ai.Responses

open Library
open Library.Utf16 (Units)
open Library.JsonText (Document)

variable {N : Type}

structure ReasoningItem where
  id : String
  summary : List Units
  content : Option (List Units)
  encryptedContent : Option String

/-- The parts of a message: output texts and refusals. -/
structure MessageItem where
  id : String
  content : List Units
  phase : Option String

structure FunctionCallItem where
  id : Option String
  callId : String
  name : String
  toolNamespace : Option String
  arguments : Units

structure CustomToolCallItem where
  id : Option String
  callId : String
  name : String
  toolNamespace : Option String
  input : Option Units

inductive ResponseItem where
  | reasoning (item : ReasoningItem)
  | message (item : MessageItem)
  | functionCall (item : FunctionCallItem)
  | customToolCall (item : CustomToolCallItem)
  | other

inductive ResponseStatus where
  | completed | incomplete | failed | cancelled | inProgress | queued

def ResponseStatus.text : ResponseStatus → String
  | .completed => "completed"
  | .incomplete => "incomplete"
  | .failed => "failed"
  | .cancelled => "cancelled"
  | .inProgress => "in_progress"
  | .queued => "queued"

structure ResponseUsage where
  inputTokens : Nat
  cachedTokens : Nat
  cacheWriteTokens : Nat
  outputTokens : Nat
  reasoningTokens : Nat
  totalTokens : Nat

structure ResponseError where
  code : Option String
  message : Option String

structure Response where
  id : Option String
  output : List ResponseItem
  usage : Option ResponseUsage
  serviceTier : Option String
  status : Option ResponseStatus
  incompleteReason : Option String
  error : Option ResponseError

inductive Event where
  | created (id : String)
  | outputItemAdded (outputIndex : Nat) (item : ResponseItem)
  | reasoningSummaryTextDelta (outputIndex : Nat) (delta : Units)
  | reasoningSummaryPartDone (outputIndex : Nat)
  | reasoningTextDelta (outputIndex : Nat) (delta : Units)
  | outputTextDelta (outputIndex : Nat) (delta : Units)
  | refusalDelta (outputIndex : Nat) (delta : Units)
  | functionCallArgumentsDelta (outputIndex : Nat) (delta : Units)
  | functionCallArgumentsDone (outputIndex : Nat) (arguments : Units)
  | customToolCallInputDelta (outputIndex : Nat) (delta : Units)
  | customToolCallInputDone (outputIndex : Nat) (input : Units)
  | outputItemDone (outputIndex : Nat) (item : ResponseItem)
  | completed (response : Response)
  | incomplete (response : Response)
  | error (code : Option String) (message : String)
  | failed (response : Option Response)
  | other

structure CustomInput where
  property : String
  jsonBuffer : GrammarToolInputJsonBuffer

structure StreamingToolCall (N : Type) where
  id : String
  name : String
  arguments : Document N
  toolNamespace : Option String
  partialJson : Option Units
  customInput : Option CustomInput

/-- `TextSignatureV1`, before it is made JSON. -/
structure TextSignature where
  id : String
  phase : Option String

inductive Block (N : Type) where
  | thinking (thinking : Units) (thinkingSignature : Option ReasoningItem)
  | text (text : Units) (textSignature : Option TextSignature)
  | toolCall (call : StreamingToolCall N)

structure Cost (N : Type) where
  input : N
  output : N
  cacheRead : N
  cacheWrite : N
  total : N

structure Usage (N : Type) where
  input : Nat
  output : Nat
  cacheRead : Nat
  cacheWrite : Nat
  reasoning : Option Nat
  totalTokens : Nat
  cost : Cost N

structure Message (N : Type) where
  content : List (Block N)
  responseId : Option String
  usage : Usage N
  rawStopReason : Option String
  stopReason : StopReason
  errorMessage : Option String

/-- The events pushed to the consumer; `partial` is the message itself. -/
inductive Pushed (N : Type) where
  | thinkingStart (contentIndex : Nat)
  | thinkingDelta (contentIndex : Nat) (delta : Units)
  | thinkingEnd (contentIndex : Nat) (content : Units)
  | textStart (contentIndex : Nat)
  | textDelta (contentIndex : Nat) (delta : Units)
  | textEnd (contentIndex : Nat) (content : Units)
  | toolcallStart (contentIndex : Nat)
  | toolcallDelta (contentIndex : Nat) (delta : Units)
  | toolcallEnd (contentIndex : Nat) (toolCall : StreamingToolCall N)

def Pushed.contentIndex : Pushed N → Nat
  | .thinkingStart k | .thinkingDelta k _ | .thinkingEnd k _ | .textStart k | .textDelta k _
  | .textEnd k _ | .toolcallStart k | .toolcallDelta k _ | .toolcallEnd k _ => k

structure StreamOptions (N : Type) where
  serviceTier : Option String
  grammarToolInputProperties : String → Option String
  resolveServiceTier : Option (Option String → Option String → Option String)
  applyServiceTierPricing : Option (Usage N → Option String → Usage N)
  /-- `calculateCost(model, usage)`. -/
  calculateCost : Usage N → Usage N
  /-- `parse` of partial-json. -/
  partialParse : Units → Option (Document N)

structure State (N : Type) where
  output : Message N
  sawTerminalResponseEvent : Bool
  outputSlots : Nat → Option Nat
  reasoningBlocksById : String → Option Nat
  pushed : List (Pushed N)

inductive StreamError where
  | grammarInput (error : GrammarInputError)
  | event (code : Option String) (message : String)
  | failed (response : Option Response)
  | noTerminalEvent

/-- `a || b` on texts that may be missing. -/
def orText (text : Option String) (default : String) : String :=
  match text with
  | some text => if text = "" then default else text
  | none => default

def StreamError.message : StreamError → String
  | .grammarInput error => error.message
  | .event code message => "Error Code " ++ code.getD "null" ++ ": " ++ message
  | .failed response =>
    match response.bind Response.error with
    | some error => orText error.code "unknown" ++ ": " ++ orText error.message "no message"
    | none =>
      let reason := orText (response.bind Response.incompleteReason) ""
      if reason = "" then "Unknown error (no error details in response)"
      else "incomplete: " ++ reason
  | .noTerminalEvent => "OpenAI Responses stream ended before a terminal response event"

namespace State

def push (s : State N) (event : Pushed N) : State N :=
  { s with pushed := s.pushed ++ [event] }

def setBlock (s : State N) (contentIndex : Nat) (block : Block N) : State N :=
  { s with
    output := { s.output with content := s.output.content.set contentIndex block } }

/-- The content index of the slot at an output index, with its block. -/
def getSlot (s : State N) (outputIndex : Nat) : Option (Nat × Block N) :=
  match s.outputSlots outputIndex with
  | none => none
  | some contentIndex => s.output.content[contentIndex]?.map fun block => (contentIndex, block)

def deleteSlot (s : State N) (outputIndex : Nat) : State N :=
  { s with outputSlots := Function.update s.outputSlots outputIndex none }

def addBlock (s : State N) (outputIndex : Nat) (block : Block N) : State N :=
  { s with
    output := { s.output with content := s.output.content ++ [block] }
    outputSlots :=
      Function.update s.outputSlots outputIndex (some s.output.content.length) }

end State

def applyMessagePhaseStopReason (s : State N) (item : ResponseItem) : State N :=
  match item with
  | .message message =>
    if message.phase = some "final_answer" then
      { s with output := { s.output with stopReason := .stop } }
    else s
  | _ => s

/-- The text of a template's hole. -/
def hole (text : Option String) : String := text.getD "undefined"

def toolCallId (callId : String) (id : Option String) : String := callId ++ "|" ++ hole id

def inputProperty (options : StreamOptions N) (name : String) : String :=
  (options.grammarToolInputProperties name).getD "input"

def inputArguments (property : String) (input : Units) : Document N :=
  .obj [(propertyUnits property, .str input)]

def createSlot (options : StreamOptions N) (s : State N) (outputIndex : Nat)
    (item : ResponseItem) : State N :=
  let contentIndex := s.output.content.length
  match item with
  | .reasoning _ =>
    (s.addBlock outputIndex (.thinking [] none)).push (.thinkingStart contentIndex)
  | .message _ =>
    ((applyMessagePhaseStopReason s item).addBlock outputIndex (.text [] none)).push
      (.textStart contentIndex)
  | .functionCall call =>
    (s.addBlock outputIndex (.toolCall
      { id := toolCallId call.callId call.id
        name := call.name
        arguments := .obj []
        toolNamespace := call.toolNamespace
        partialJson := some call.arguments
        customInput := none })).push (.toolcallStart contentIndex)
  | .customToolCall call =>
    let property := inputProperty options call.name
    (s.addBlock outputIndex (.toolCall
      { id := toolCallId call.callId call.id
        name := call.name
        arguments := inputArguments property (call.input.getD [])
        toolNamespace := call.toolNamespace
        partialJson := none
        customInput := some ⟨property, .fresh⟩ })).push (.toolcallStart contentIndex)
  | .other => s

def getOrCreateSlot (options : StreamOptions N) (s : State N) (outputIndex : Nat)
    (item : ResponseItem) : State N :=
  if (s.outputSlots outputIndex).isSome then s
  else createSlot options s outputIndex item

def memberOf (document : Document N) (name : Units) : Option (Document N) :=
  match document with
  | .obj members => (members.reverse.find? (·.1 == name)).map (·.2)
  | _ => none

def getCustomToolCallInput (call : StreamingToolCall N) : Units :=
  match call.customInput with
  | none => []
  | some custom =>
    match memberOf call.arguments (propertyUnits custom.property) with
    | some (.str text) => text
    | _ => []

def appendCustomToolCallInput (call : StreamingToolCall N) (nextInput : Units) (close : Bool) :
    Except StreamError (StreamingToolCall N × Option Units) :=
  match call.customInput with
  | none => .ok (call, none)
  | some custom =>
    match appendGrammarToolInputJsonDelta custom.jsonBuffer custom.property nextInput close with
    | .error error => .error (.grammarInput error)
    | .ok (buffer, delta) =>
      .ok ({ call with
        arguments := inputArguments custom.property nextInput
        customInput := some ⟨custom.property, buffer⟩ }, delta)

def pushToolCallDelta (s : State N) (contentIndex : Nat) (delta : Option Units) : State N :=
  match delta with
  | none => s
  | some delta => s.push (.toolcallDelta contentIndex delta)

def thinkingDelta (s : State N) (outputIndex : Nat) (delta : Units) : State N :=
  match s.getSlot outputIndex with
  | some (k, .thinking thinking signature) =>
    (s.setBlock k (.thinking (thinking ++ delta) signature)).push (.thinkingDelta k delta)
  | _ => s

def textDelta (s : State N) (outputIndex : Nat) (delta : Units) : State N :=
  match s.getSlot outputIndex with
  | some (k, .text text signature) =>
    (s.setBlock k (.text (text ++ delta) signature)).push (.textDelta k delta)
  | _ => s

section

variable [JsonNumber N]

def StreamingToolCall.withPartialJson (options : StreamOptions N) (call : StreamingToolCall N)
    (json : Units) : StreamingToolCall N :=
  { call with
    partialJson := some json
    arguments := parseStreamingJson options.partialParse json }

def functionCallArgumentsDelta (options : StreamOptions N) (s : State N) (outputIndex : Nat)
    (delta : Units) : State N :=
  match s.getSlot outputIndex with
  | some (k, .toolCall call) =>
    match call.partialJson with
    | none => s
    | some partialJson =>
      pushToolCallDelta
        (s.setBlock k (.toolCall (call.withPartialJson options (partialJson ++ delta)))) k
        (some delta)
  | _ => s

def functionCallArgumentsDone (options : StreamOptions N) (s : State N) (outputIndex : Nat)
    (arguments : Units) : State N :=
  match s.getSlot outputIndex with
  | some (k, .toolCall call) =>
    match call.partialJson with
    | none => s
    | some previousPartialJson =>
      let s := s.setBlock k (.toolCall (call.withPartialJson options arguments))
      if previousPartialJson.isPrefixOf arguments then
        let delta := arguments.drop previousPartialJson.length
        if delta.length > 0 then pushToolCallDelta s k (some delta) else s
      else s
  | _ => s

end

/-- Both events of a custom call's input: `nextInput` from the call. -/
def customToolCallInput (s : State N) (outputIndex : Nat)
    (nextInput : StreamingToolCall N → Units) (close : Bool) : Except StreamError (State N) :=
  match s.getSlot outputIndex with
  | some (k, .toolCall call) =>
    match call.customInput with
    | none => .ok s
    | some _ =>
      match appendCustomToolCallInput call (nextInput call) close with
      | .error error => .error error
      | .ok (call, delta) => .ok (pushToolCallDelta (s.setBlock k (.toolCall call)) k delta)
  | _ => .ok s

def customToolCallInputDelta (s : State N) (outputIndex : Nat) (delta : Units) :
    Except StreamError (State N) :=
  customToolCallInput s outputIndex (fun call => getCustomToolCallInput call ++ delta) false

def customToolCallInputDone (s : State N) (outputIndex : Nat) (input : Units) :
    Except StreamError (State N) :=
  customToolCallInput s outputIndex (fun _ => input) true

def blankLine : Units := [10, 10]

/-- `first || second`. -/
def orElse (first second : Units) : Units := if first = [] then second else first

/-- The text of a reasoning item, `received` where the item has none. -/
def reasoningText (item : ReasoningItem) (received : Units) : Units :=
  orElse (blankLine.intercalate item.summary)
    (orElse (blankLine.intercalate (item.content.getD [])) received)

def messageText (item : MessageItem) : Units := item.content.flatten

/-- The end of a tool call: its namespace, its block and its slot. -/
def endToolCall (s : State N) (outputIndex k : Nat) (call : StreamingToolCall N)
    (toolNamespace : Option String) : State N :=
  let call := { call with toolNamespace := toolNamespace.or call.toolNamespace }
  ((s.setBlock k (.toolCall call)).push (.toolcallEnd k call)).deleteSlot outputIndex

def outputItemDone [JsonNumber N] (options : StreamOptions N) (before : State N)
    (outputIndex : Nat) (item : ResponseItem) : Except StreamError (State N) :=
  let s := getOrCreateSlot options (applyMessagePhaseStopReason before item) outputIndex item
  match item, s.getSlot outputIndex with
  | .reasoning reasoning, some (k, .thinking thinking _) =>
    let content := reasoningText reasoning thinking
    let s := s.setBlock k (.thinking content (some reasoning))
    let s :=
      { s with
        reasoningBlocksById := Function.update s.reasoningBlocksById reasoning.id (some k) }
    .ok ((s.push (.thinkingEnd k content)).deleteSlot outputIndex)
  | .message message, some (k, .text _ _) =>
    let content := messageText message
    let s := s.setBlock k (.text content (some ⟨message.id, message.phase⟩))
    .ok ((s.push (.textEnd k content)).deleteSlot outputIndex)
  | .functionCall done, some (k, .toolCall call) =>
    match call.partialJson with
    | none => .ok s
    | some partialJson =>
      let arguments := parseStreamingJson options.partialParse
        (orElse done.arguments (orElse partialJson [0x7B, 0x7D]))
      .ok (endToolCall s outputIndex k
        { call with arguments := arguments, partialJson := none } done.toolNamespace)
  | .customToolCall done, some (k, .toolCall call) =>
    match call.customInput with
    | none => .ok s
    | some _ =>
      match appendCustomToolCallInput call (done.input.getD (getCustomToolCallInput call)) true with
      | .error error => .error error
      | .ok (call, delta) =>
        .ok (endToolCall (pushToolCallDelta (s.setBlock k (.toolCall call)) k delta)
          outputIndex k { call with customInput := none } done.toolNamespace)
  | _, _ => .ok s

/-- What `||` and `!` take for missing. -/
def isMissing (text : Option String) : Bool := text.all (· = "")

def backfillReasoningSignature (s : State N) (item : ResponseItem) : State N :=
  match item with
  | .reasoning item =>
    if isMissing item.encryptedContent then s
    else
      match s.reasoningBlocksById item.id with
      | none => s
      | some k =>
        match s.output.content[k]? with
        | some (.thinking thinking (some storedItem)) =>
          if isMissing storedItem.encryptedContent then
            s.setBlock k (.thinking thinking
              (some { storedItem with encryptedContent := item.encryptedContent }))
          else s
        | _ => s
  | _ => s

def backfillReasoningSignatures (s : State N) (responseOutput : List ResponseItem) : State N :=
  responseOutput.foldl backfillReasoningSignature s

def mapStopReason (status : Option ResponseStatus) (incompleteReason : Option String) :
    StopReason × Option String :=
  match status with
  | none => (.stop, none)
  | some .completed => (.stop, none)
  | some .incomplete =>
    if incompleteReason = some "max_output_tokens" then (.length, none)
    else
      (.error, some (
        if isMissing incompleteReason then "Response incomplete without a provider reason"
        else "Response incomplete: " ++ hole incompleteReason))
  | some .failed | some .cancelled => (.error, none)
  | some .inProgress | some .queued => (.stop, none)

def Block.isToolCall : Block N → Bool
  | .toolCall _ => true
  | _ => false

section

variable [JsonNumber N]

def Cost.zero : Cost N :=
  ⟨JsonNumber.ofNat 0, JsonNumber.ofNat 0, JsonNumber.ofNat 0, JsonNumber.ofNat 0,
    JsonNumber.ofNat 0⟩

/-- Cached and written tokens are among the input tokens. -/
def usageOf (usage : ResponseUsage) : Usage N where
  input := usage.inputTokens - usage.cachedTokens - usage.cacheWriteTokens
  output := usage.outputTokens
  cacheRead := usage.cachedTokens
  cacheWrite := usage.cacheWriteTokens
  reasoning := some usage.reasoningTokens
  totalTokens := usage.totalTokens
  cost := .zero

def priced (options : StreamOptions N) (response : Response) (usage : Usage N) : Usage N :=
  let usage := options.calculateCost usage
  match options.applyServiceTierPricing with
  | none => usage
  | some pricing =>
    pricing usage (match options.resolveServiceTier with
      | some resolve => resolve response.serviceTier options.serviceTier
      | none => response.serviceTier.or options.serviceTier)

def finalizeResponse (options : StreamOptions N) (before : State N) (response : Response) :
    State N :=
  let s := backfillReasoningSignatures { before with sawTerminalResponseEvent := true }
    response.output
  let output := s.output
  let mappedStop := mapStopReason response.status response.incompleteReason
  { s with
    output :=
      { output with
        responseId := if isMissing response.id then output.responseId else response.id
        usage := priced options response ((response.usage.map usageOf).getD output.usage)
        rawStopReason :=
          if isMissing response.incompleteReason then response.status.map ResponseStatus.text
          else some (hole (response.status.map ResponseStatus.text) ++ "." ++
            hole response.incompleteReason)
        stopReason :=
          if output.content.any Block.isToolCall ∧ mappedStop.1 = .stop then .toolUse
          else mappedStop.1
        errorMessage := mappedStop.2 } }

def processEvent (options : StreamOptions N) (s : State N) : Event → Except StreamError (State N)
  | .created id => .ok { s with output := { s.output with responseId := some id } }
  | .outputItemAdded outputIndex item => .ok (createSlot options s outputIndex item)
  | .reasoningSummaryTextDelta outputIndex delta => .ok (thinkingDelta s outputIndex delta)
  | .reasoningSummaryPartDone outputIndex => .ok (thinkingDelta s outputIndex blankLine)
  | .reasoningTextDelta outputIndex delta => .ok (thinkingDelta s outputIndex delta)
  | .outputTextDelta outputIndex delta => .ok (textDelta s outputIndex delta)
  | .refusalDelta outputIndex delta => .ok (textDelta s outputIndex delta)
  | .functionCallArgumentsDelta outputIndex delta =>
    .ok (functionCallArgumentsDelta options s outputIndex delta)
  | .functionCallArgumentsDone outputIndex arguments =>
    .ok (functionCallArgumentsDone options s outputIndex arguments)
  | .customToolCallInputDelta outputIndex delta => customToolCallInputDelta s outputIndex delta
  | .customToolCallInputDone outputIndex input => customToolCallInputDone s outputIndex input
  | .outputItemDone outputIndex item => outputItemDone options s outputIndex item
  | .completed response => .ok (finalizeResponse options s response)
  | .incomplete response => .ok (finalizeResponse options s response)
  | .error code message => .error (.event code message)
  | .failed response => .error (.failed response)
  | .other => .ok s

def State.start (output : Message N) : State N where
  output := { output with content := [] }
  sawTerminalResponseEvent := false
  outputSlots := fun _ => none
  reasoningBlocksById := fun _ => none
  pushed := []

def processResponsesStream (options : StreamOptions N) (output : Message N) (events : List Event) :
    Except StreamError (State N) :=
  match run (processEvent options) (State.start output) events with
  | .error error => .error error
  | .ok s => if s.sawTerminalResponseEvent then .ok s else .error .noTerminalEvent

end

end Trpi.Ai.Responses
