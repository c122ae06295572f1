import Trpi.Ai.TransformMessages

/-!
# Messages, tools and events of the agent

The part of agent/src/types.ts that the loop uses. A message of an application is of a type of
its own. What a hook or a tool does is an answer to the loop, so of a tool there is only what
the loop looks at.
-/

namespace Trpi.Agent

open Library Ai

variable {N K : Type}

/-- How a message object came to be known; `steer` and `followUp` number what they are given.
The code never looks at it. -/
inductive Origin where
  | prompt
  | steering (serial : Nat)
  | followUp (serial : Nat)
  | produced

inductive MessageBody (N K : Type) where
  | message (message : Message N)
  | custom (message : K)

structure AgentMessage (N K : Type) where
  origin : Origin
  body : MessageBody N K

namespace AgentMessage

def assistant (message : AssistantMessage N) : AgentMessage N K :=
  { origin := .produced, body := .message (.assistant message) }

def toolResult (message : ToolResultMessage N) : AgentMessage N K :=
  { origin := .produced, body := .message (.toolResult message) }

/-- `role === "assistant"`. -/
def isAssistant (message : AgentMessage N K) : Bool :=
  match message.body with
  | .message (.assistant _) => true
  | _ => false

end AgentMessage

inductive ToolExecutionMode where
  | sequential | parallel
  deriving DecidableEq

structure AgentTool (N : Type) where
  name : String
  executionMode : Option ToolExecutionMode
  /-- The arguments of a call prepared and validated; either may throw. -/
  validate : ToolCall N → Except String (Json N)

/-- Untyped tools may leave out the content. -/
structure AgentToolResult (N : Type) where
  content : Option (List MediaContent)
  details : Option (Json N)
  usage : Option (Json N)
  addedToolNames : Option (List String)
  terminate : Option Bool

structure BeforeToolCallResult where
  block : Bool
  reason : Option String
  terminate : Option Bool

structure AfterToolCallResult (N : Type) where
  content : Option (List MediaContent)
  details : Option (Json N)
  isError : Option Bool
  usage : Option (Json N)
  terminate : Option Bool

structure AgentContext (N K : Type) where
  systemPrompt : String
  messages : List (AgentMessage N K)
  tools : List (AgentTool N)

inductive ThinkingLevel where
  | off | minimal | low | medium | high | xhigh | max
  deriving DecidableEq

structure AgentLoopConfig where
  model : Model
  reasoning : Option ThinkingLevel
  apiKey : Option String
  toolExecution : Option ToolExecutionMode

/-- `PrepareNextTurnContext`. -/
structure CompletedTurn (N K : Type) where
  message : AssistantMessage N
  toolResults : List (ToolResultMessage N)
  context : AgentContext N K
  newMessages : List (AgentMessage N K)

structure AgentLoopTurnUpdate (N K : Type) where
  context : Option (AgentContext N K)
  model : Option Model
  thinkingLevel : Option ThinkingLevel

inductive AgentEvent (N K : Type) where
  | agentStart
  | agentEnd (messages : List (AgentMessage N K))
  | turnStart
  | turnEnd (message : AssistantMessage N) (toolResults : List (ToolResultMessage N))
  | messageStart (message : AgentMessage N K)
  | messageUpdate (message : AgentMessage N K) (event : AssistantMessageEvent N)
  | messageEnd (message : AgentMessage N K)
  | toolExecutionStart (toolCallId toolName : String) (args : Json N)
  | toolExecutionUpdate (toolCallId toolName : String) (args : Json N)
      (partialResult : AgentToolResult N)
  | toolExecutionEnd (toolCallId toolName : String) (result : AgentToolResult N) (isError : Bool)

/-!
## The agent loop

`runAgentLoop`, `runAgentLoopContinue` and what they call in agent/src/agent-loop.ts, as a
machine. It waits for an answer of a hook, a queue, the response stream or a tool, and a step
goes from one answer to the next question; the abort signal may come at any time. A hook that
is not there answers as one that changes nothing. Where the signal is looked at again after
listeners were awaited, the loop goes on by a step of its own.
-/

structure FinalizedToolCallOutcome (N : Type) where
  toolCall : ToolCall N
  result : AgentToolResult N
  isError : Bool

def createErrorToolResult (message : String) : AgentToolResult N where
  content := some [.text ⟨Utf16.units message.toList, none⟩]
  details := some (.obj [])
  usage := none
  addedToolNames := none
  terminate := none

def createToolResultMessage (finalized : FinalizedToolCallOutcome N) (now : N) :
    ToolResultMessage N where
  toolCallId := finalized.toolCall.id
  toolName := finalized.toolCall.name
  content := finalized.result.content.getD []
  details := finalized.result.details
  usage := finalized.result.usage
  addedToolNames := finalized.result.addedToolNames.filter (· ≠ [])
  isError := finalized.isError
  timestamp := now

def shouldTerminateToolBatch (finalizedCalls : List (FinalizedToolCallOutcome N)) : Bool :=
  !finalizedCalls.isEmpty &&
    finalizedCalls.all fun finalized => finalized.result.terminate = some true

def truncatedText (toolName : String) : String :=
  "Tool call \"" ++ toolName ++ "\" was not executed: the response hit the output token limit, " ++
    "so its arguments may be truncated. Re-issue the tool call with complete arguments."

/-- The part of `prepareToolCall` before the hook: why the call is not prepared. -/
def preparationError (tools : List (AgentTool N)) (toolCall : ToolCall N) : Option String :=
  match tools.find? (·.name = toolCall.name) with
  | none => some ("Tool " ++ toolCall.name ++ " not found")
  | some tool =>
    match tool.validate toolCall with
    | .error message => some message
    | .ok _ => none

/-- The rest of `prepareToolCall`: the result of a call that is not executed. -/
def afterBeforeToolCall (aborted : Bool) (answer : Except String (Option BeforeToolCallResult)) :
    Option (AgentToolResult N) :=
  match answer with
  | .error message => some (createErrorToolResult message)
  | .ok beforeResult =>
    if aborted then some (createErrorToolResult "Operation aborted")
    else
      match beforeResult with
      | some { block := true, reason, terminate } =>
        let reason := (reason.filter (· ≠ "")).getD "Tool execution was blocked"
        let result := createErrorToolResult reason
        some (if terminate = some true then { result with terminate := some true } else result)
      | _ => none

/-- `executePreparedToolCall`. -/
def executedResult (answer : Except String (AgentToolResult N)) : AgentToolResult N × Bool :=
  match answer with
  | .ok result => (result, false)
  | .error message => (createErrorToolResult message, true)

def finalizeExecutedToolCall (toolCall : ToolCall N) (result : AgentToolResult N) (isError : Bool)
    (answer : Except String (Option (AfterToolCallResult N))) : FinalizedToolCallOutcome N :=
  match answer with
  | .error message => { toolCall, result := createErrorToolResult message, isError := true }
  | .ok none => { toolCall, result, isError }
  | .ok (some afterResult) =>
    { toolCall
      result :=
        { result with
          content := afterResult.content.or result.content
          details := afterResult.details.or result.details
          usage := afterResult.usage.or result.usage
          terminate := afterResult.terminate.or result.terminate }
      isError := afterResult.isError.getD isError }

/-- How far a call has come after its preparation. -/
inductive CallStage (N : Type) where
  | prepared
  | executing
  | executed (result : AgentToolResult N) (isError : Bool)
  | finalized (result : AgentToolResult N) (isError : Bool)

structure CallEntry (N : Type) where
  toolCall : ToolCall N
  stage : CallStage N

def CallEntry.outcome? (entry : CallEntry N) : Option (FinalizedToolCallOutcome N) :=
  match entry.stage with
  | .finalized result isError => some { toolCall := entry.toolCall, result, isError }
  | _ => none

/-- Where the loop is among the tool calls of a message. `sequential`, `preflight` and
`truncated` are about to take the next call. -/
inductive Batch (N : Type) where
  | truncated (messages : List (ToolResultMessage N)) (toolCalls : List (ToolCall N))
  | sequential (finalizedCalls : List (FinalizedToolCallOutcome N))
      (messages : List (ToolResultMessage N)) (toolCalls : List (ToolCall N))
  | sequentialAsked (finalizedCalls : List (FinalizedToolCallOutcome N))
      (messages : List (ToolResultMessage N)) (toolCall : ToolCall N)
      (toolCalls : List (ToolCall N))
  | sequentialCall (finalizedCalls : List (FinalizedToolCallOutcome N))
      (messages : List (ToolResultMessage N)) (entry : CallEntry N) (toolCalls : List (ToolCall N))
  | preflight (finalizedCalls : List (CallEntry N)) (toolCalls : List (ToolCall N))
  | preflightAsked (finalizedCalls : List (CallEntry N)) (toolCall : ToolCall N)
      (toolCalls : List (ToolCall N))
  | running (finalizedCalls : List (CallEntry N))
  | reporting (orderedFinalizedCalls : List (FinalizedToolCallOutcome N))
      (messages : List (ToolResultMessage N)) (rest : List (FinalizedToolCallOutcome N))

/-- What the loop waits for. -/
inductive Control (N K : Type) where
  | polling
  | preparing
  | repolling
  | transforming
  | converting (messages : List (AgentMessage N K))
  | resolvingKey (llmMessages : List (Message N))
  | requesting
  | streaming (partialMessage : Option (AssistantMessage N))
  | tools (message : AssistantMessage N) (batch : Batch N)
  | stopping (hasMoreToolCalls : Bool)
  | turnPolling (hasMoreToolCalls : Bool)
  | followUpPolling
  | ended
  | failed (error : String)

structure LoopState (N K : Type) where
  currentContext : AgentContext N K
  newMessages : List (AgentMessage N K)
  config : AgentLoopConfig
  lastCompletedTurn : Option (CompletedTurn N K)
  pendingMessages : List (AgentMessage N K)
  aborted : Bool
  control : Control N K

/-- An answer. A stream event comes with its partial message or, when it is the last, with the
result; `index` is the place of a tool call among the calls of its message. -/
inductive Input (N K : Type) where
  | abort
  | polled (messages : List (AgentMessage N K))
  | prepared (answer : Except String (Option (AgentLoopTurnUpdate N K)))
  | transformed (answer : Except String (List (AgentMessage N K)))
  | converted (answer : Except String (List (Message N)))
  | keyResolved (answer : Except String (Option String))
  | responded (answer : Except String Unit)
  | streamed (event : AssistantMessageEvent N) (message : AssistantMessage N)
  | streamEnded (message : AssistantMessage N)
  | streamThrew (error : String)
  | proceed (now : N)
  | beforeToolCall (answer : Except String (Option BeforeToolCallResult)) (now : N)
  | launch (index : Nat)
  | toolUpdate (index : Nat) (partialResult : AgentToolResult N)
  | executed (index : Nat) (answer : Except String (AgentToolResult N))
  | afterToolCall (index : Nat) (answer : Except String (Option (AfterToolCallResult N))) (now : N)
  | stopDecided (answer : Except String Bool)

structure Request (N : Type) where
  model : Model
  systemPrompt : String
  messages : List (Message N)
  tools : List (AgentTool N)
  reasoning : Option ThinkingLevel
  apiKey : Option String

/-- What happens in a run. `requested` has the messages of the context that the request was made
from, `updated` the context of a `prepareNextTurn` that answers one. -/
inductive Item (N K : Type) where
  | event (event : AgentEvent N K)
  | polled (messages : List (AgentMessage N K))
  | updated (context : AgentContext N K)
  | requested (seen : List (AgentMessage N K)) (request : Request N)
  | aborted

def announce (message : AgentMessage N K) : List (Item N K) :=
  [.event (.messageStart message), .event (.messageEnd message)]

def emitToolExecutionStart (toolCall : ToolCall N) : Item N K :=
  .event (.toolExecutionStart toolCall.id toolCall.name toolCall.arguments)

def emitToolExecutionEnd (finalized : FinalizedToolCallOutcome N) : Item N K :=
  .event (.toolExecutionEnd finalized.toolCall.id finalized.toolCall.name finalized.result
    finalized.isError)

def emitToolResultMessage (message : ToolResultMessage N) : List (Item N K) :=
  announce (.toolResult message)

namespace AgentContext

def push (context : AgentContext N K) (messages : List (AgentMessage N K)) : AgentContext N K :=
  { context with messages := context.messages ++ messages }

/-- `messages[messages.length - 1] = message`. -/
def setLast (context : AgentContext N K) (message : AgentMessage N K) : AgentContext N K :=
  { context with messages := context.messages.dropLast ++ [message] }

end AgentContext

namespace LoopState

def fail (s : LoopState N K) (error : String) : LoopState N K × List (Item N K) :=
  ({ s with control := .failed error }, [])

def goTo (s : LoopState N K) (control : Control N K) : LoopState N K × List (Item N K) :=
  ({ s with control }, [])

/-- An answer that may be an error, which leaves the loop. -/
def answered {α : Type} (s : LoopState N K) (answer : Except String α)
    (next : α → LoopState N K × List (Item N K)) : LoopState N K × List (Item N K) :=
  match answer with
  | .error error => s.fail error
  | .ok value => next value

/-- The pending messages go in before the next response. -/
def injectPending (s : LoopState N K) : LoopState N K × List (Item N K) :=
  ({ s with
      currentContext := s.currentContext.push s.pendingMessages
      newMessages := s.newMessages ++ s.pendingMessages
      pendingMessages := []
      control := .transforming },
    s.pendingMessages.flatMap announce)

def startTurn (s : LoopState N K) : LoopState N K × List (Item N K) :=
  let (next, items) := s.injectPending
  (next, .event .turnStart :: items)

def enterTurn (s : LoopState N K) : LoopState N K × List (Item N K) :=
  if s.lastCompletedTurn.isSome then s.goTo .preparing else s.injectPending

def applyUpdate (s : LoopState N K) (update : AgentLoopTurnUpdate N K) : LoopState N K :=
  { s with
    currentContext := update.context.getD s.currentContext
    config :=
      { s.config with
        model := update.model.getD s.config.model
        reasoning :=
          match update.thinkingLevel with
          | none => s.config.reasoning
          | some .off => none
          | some level => some level } }

def afterPreparation (s : LoopState N K) : LoopState N K × List (Item N K) :=
  if s.pendingMessages.isEmpty then s.goTo .repolling else s.startTurn

def prepareNextTurn (s : LoopState N K) (update : Option (AgentLoopTurnUpdate N K)) :
    LoopState N K × List (Item N K) :=
  match update with
  | none => s.afterPreparation
  | some update =>
    let (next, items) := (s.applyUpdate update).afterPreparation
    (next, (update.context.map Item.updated).toList ++ items)

def request (s : LoopState N K) (llmMessages : List (Message N)) (apiKey : Option String) :
    Request N where
  model := s.config.model
  systemPrompt := s.currentContext.systemPrompt
  messages := llmMessages
  tools := s.currentContext.tools
  reasoning := s.config.reasoning
  -- An empty key counts as none.
  apiKey := (apiKey.filter (· ≠ "")).or s.config.apiKey

def finish (s : LoopState N K) : LoopState N K × List (Item N K) :=
  ({ s with control := .ended }, [.event (.agentEnd s.newMessages)])

def finishTurn (s : LoopState N K) (message : AssistantMessage N)
    (toolResults : List (ToolResultMessage N)) (hasMoreToolCalls : Bool) :
    LoopState N K × List (Item N K) :=
  let currentContext := s.currentContext.push (toolResults.map .toolResult)
  let newMessages := s.newMessages ++ toolResults.map .toolResult
  ({ s with
      currentContext
      newMessages
      lastCompletedTurn := some { message, toolResults, context := currentContext, newMessages }
      control := .stopping hasMoreToolCalls },
    [.event (.turnEnd message toolResults)])

/-- `executeToolCalls`: whether to go through the calls one by one or in parallel. -/
def executeToolCalls (s : LoopState N K) (toolCalls : List (ToolCall N)) : Batch N :=
  let hasSequentialToolCall := toolCalls.any fun toolCall =>
    (s.currentContext.tools.find? (·.name = toolCall.name)).any (·.executionMode = some .sequential)
  if s.config.toolExecution = some .sequential ∨ hasSequentialToolCall = true then
    .sequential [] [] toolCalls
  else .preflight [] toolCalls

def afterResponse (s : LoopState N K) (message : AssistantMessage N) :
    LoopState N K × List (Item N K) :=
  if message.failed then
    let (next, items) := s.finish
    (next, .event (.turnEnd message []) :: items)
  else if message.toolCalls.isEmpty then s.finishTurn message [] false
  else if message.stopReason = .length then
    s.goTo (.tools message (.truncated [] message.toolCalls))
  else s.goTo (.tools message (s.executeToolCalls message.toolCalls))

def finishResponse (s : LoopState N K) (partialMessage : Option (AssistantMessage N))
    (finalMessage : AssistantMessage N) : LoopState N K × List (Item N K) :=
  let currentContext :=
    if partialMessage.isSome then s.currentContext.setLast (.assistant finalMessage)
    else s.currentContext.push [.assistant finalMessage]
  let start := if partialMessage.isSome then [] else
    [Item.event (.messageStart (.assistant finalMessage))]
  let (next, items) := afterResponse
    { s with currentContext, newMessages := s.newMessages ++ [.assistant finalMessage] }
    finalMessage
  (next, start ++ .event (.messageEnd (.assistant finalMessage)) :: items)

def streamEvent (s : LoopState N K) (partialMessage : Option (AssistantMessage N))
    (event : AssistantMessageEvent N) (message : AssistantMessage N) :
    LoopState N K × List (Item N K) :=
  match event with
  | .start =>
    ({ s with
        currentContext := s.currentContext.push [.assistant message]
        control := .streaming (some message) },
      [.event (.messageStart (.assistant message))])
  | .done => s.finishResponse partialMessage message
  | .error => s.finishResponse partialMessage message
  | _ =>
    if partialMessage.isSome then
      ({ s with
          currentContext := s.currentContext.setLast (.assistant message)
          control := .streaming (some message) },
        [.event (.messageUpdate (.assistant message) event)])
    else (s, [])

/-- The next question among the tool calls, after these items. -/
def goOn (s : LoopState N K) (message : AssistantMessage N) (batch : Batch N)
    (items : List (Item N K)) : LoopState N K × List (Item N K) :=
  ({ s with control := .tools message batch }, items)

/-- `failToolCallsFromTruncatedMessage`. -/
def failTruncated (s : LoopState N K) (message : AssistantMessage N)
    (messages : List (ToolResultMessage N)) (toolCalls : List (ToolCall N)) (now : N) :
    LoopState N K × List (Item N K) :=
  match toolCalls with
  | [] => s.finishTurn message messages true
  | toolCall :: toolCalls =>
    let finalized :=
      { toolCall, result := createErrorToolResult (truncatedText toolCall.name), isError := true }
    let toolResultMessage := createToolResultMessage finalized now
    s.goOn message (.truncated (messages ++ [toolResultMessage]) toolCalls)
      (emitToolExecutionStart toolCall :: emitToolExecutionEnd finalized ::
        emitToolResultMessage toolResultMessage)

/-- The end of the body of `executeToolCallsSequential`. -/
def reportSequential (s : LoopState N K) (message : AssistantMessage N)
    (finalizedCalls : List (FinalizedToolCallOutcome N)) (messages : List (ToolResultMessage N))
    (finalized : FinalizedToolCallOutcome N) (toolCalls : List (ToolCall N)) (now : N) :
    LoopState N K × List (Item N K) :=
  let toolResultMessage := createToolResultMessage finalized now
  s.goOn message
    (.sequential (finalizedCalls ++ [finalized]) (messages ++ [toolResultMessage]) toolCalls)
    (emitToolExecutionEnd finalized :: emitToolResultMessage toolResultMessage)

/-- `executeToolCallsSequential` between two calls. -/
def nextSequential (s : LoopState N K) (message : AssistantMessage N)
    (finalizedCalls : List (FinalizedToolCallOutcome N)) (messages : List (ToolResultMessage N))
    (toolCalls : List (ToolCall N)) (now : N) : LoopState N K × List (Item N K) :=
  match toolCalls with
  | [] => s.finishTurn message messages (!shouldTerminateToolBatch finalizedCalls)
  | toolCall :: toolCalls =>
    if s.aborted ∧ finalizedCalls ≠ [] then
      s.finishTurn message messages (!shouldTerminateToolBatch finalizedCalls)
    else
      match preparationError s.currentContext.tools toolCall with
      | none =>
        s.goOn message (.sequentialAsked finalizedCalls messages toolCall toolCalls)
          [emitToolExecutionStart toolCall]
      | some error =>
        let (next, items) := s.reportSequential message finalizedCalls messages
          { toolCall, result := createErrorToolResult error, isError := true } toolCalls now
        (next, emitToolExecutionStart toolCall :: items)

/-- `executeToolCallsParallel` before `Promise.all`, between two calls. -/
def nextPreflight (s : LoopState N K) (message : AssistantMessage N)
    (finalizedCalls : List (CallEntry N)) (toolCalls : List (ToolCall N)) :
    LoopState N K × List (Item N K) :=
  match toolCalls with
  | [] => s.goOn message (.running finalizedCalls) []
  | toolCall :: toolCalls =>
    if s.aborted ∧ finalizedCalls ≠ [] then s.goOn message (.running finalizedCalls) []
    else
      match preparationError s.currentContext.tools toolCall with
      | none =>
        s.goOn message (.preflightAsked finalizedCalls toolCall toolCalls)
          [emitToolExecutionStart toolCall]
      | some error =>
        let result := createErrorToolResult error
        s.goOn message
          (.preflight (finalizedCalls ++ [⟨toolCall, .finalized result true⟩]) toolCalls)
          [emitToolExecutionStart toolCall,
            emitToolExecutionEnd { toolCall, result, isError := true }]

def stepEntry (s : LoopState N K) (entry : CallEntry N) (input : Input N K) :
    Option (CallStage N × List (Item N K)) :=
  match entry.stage, input with
  | .prepared, .launch _ =>
    if s.aborted then
      let result := createErrorToolResult "Operation aborted"
      some (.finalized result true,
        [emitToolExecutionEnd { toolCall := entry.toolCall, result, isError := true }])
    else some (.executing, [])
  | .executing, .toolUpdate _ partialResult =>
    some (.executing, [.event (.toolExecutionUpdate entry.toolCall.id entry.toolCall.name
      entry.toolCall.arguments partialResult)])
  | .executing, .executed _ answer =>
    let (result, isError) := executedResult answer
    some (.executed result isError, [])
  | .executed result isError, .afterToolCall _ answer _ =>
    let finalized := finalizeExecutedToolCall entry.toolCall result isError answer
    some (.finalized finalized.result finalized.isError, [emitToolExecutionEnd finalized])
  | _, _ => none

def allFinalized (entries : List (CallEntry N)) : Option (List (FinalizedToolCallOutcome N)) :=
  entries.mapM CallEntry.outcome?

def stepRunning (s : LoopState N K) (message : AssistantMessage N)
    (entries : List (CallEntry N)) (index : Nat) (input : Input N K) :
    Option (LoopState N K × List (Item N K)) :=
  match entries[index]? with
  | none => none
  | some entry =>
    (s.stepEntry entry input).map fun (stage, items) =>
      s.goOn message (.running (entries.set index { entry with stage })) items

def nextReport (s : LoopState N K) (message : AssistantMessage N)
    (finalizedCalls : List (FinalizedToolCallOutcome N)) (messages : List (ToolResultMessage N))
    (rest : List (FinalizedToolCallOutcome N)) (now : N) : LoopState N K × List (Item N K) :=
  match rest with
  | [] => s.finishTurn message messages (!shouldTerminateToolBatch finalizedCalls)
  | finalized :: rest =>
    let toolResultMessage := createToolResultMessage finalized now
    s.goOn message (.reporting finalizedCalls (messages ++ [toolResultMessage]) rest)
      (emitToolResultMessage toolResultMessage)

def stepTools (s : LoopState N K) (message : AssistantMessage N) (batch : Batch N)
    (input : Input N K) : Option (LoopState N K × List (Item N K)) :=
  match batch, input with
  | .truncated messages toolCalls, .proceed now =>
    some (s.failTruncated message messages toolCalls now)
  | .sequential finalizedCalls messages toolCalls, .proceed now =>
    some (s.nextSequential message finalizedCalls messages toolCalls now)
  | .sequentialAsked finalizedCalls messages toolCall toolCalls, .beforeToolCall answer now =>
    match afterBeforeToolCall s.aborted answer with
    | some result =>
      some (s.reportSequential message finalizedCalls messages
        { toolCall, result, isError := true } toolCalls now)
    | none =>
      some (s.goOn message
        (.sequentialCall finalizedCalls messages ⟨toolCall, .executing⟩ toolCalls) [])
  | .sequentialCall finalizedCalls messages entry toolCalls, .toolUpdate index partialResult =>
    if index ≠ finalizedCalls.length then none
    else
      (s.stepEntry entry (.toolUpdate index partialResult)).map fun (stage, items) =>
        s.goOn message
          (.sequentialCall finalizedCalls messages { entry with stage } toolCalls) items
  | .sequentialCall finalizedCalls messages entry toolCalls, .executed index answer =>
    if index ≠ finalizedCalls.length then none
    else
      (s.stepEntry entry (.executed index answer)).map fun (stage, items) =>
        s.goOn message
          (.sequentialCall finalizedCalls messages { entry with stage } toolCalls) items
  | .sequentialCall finalizedCalls messages ⟨toolCall, .executed result isError⟩ toolCalls,
      .afterToolCall index answer now =>
    if index ≠ finalizedCalls.length then none
    else
      some (s.reportSequential message finalizedCalls messages
        (finalizeExecutedToolCall toolCall result isError answer) toolCalls now)
  | .preflight finalizedCalls toolCalls, .proceed _ =>
    some (s.nextPreflight message finalizedCalls toolCalls)
  | .preflightAsked finalizedCalls toolCall toolCalls, .beforeToolCall answer _ =>
    match afterBeforeToolCall s.aborted answer with
    | some result =>
      some (s.goOn message
        (.preflight (finalizedCalls ++ [⟨toolCall, .finalized result true⟩]) toolCalls)
        [emitToolExecutionEnd { toolCall, result, isError := true }])
    | none =>
      some (s.goOn message (.preflight (finalizedCalls ++ [⟨toolCall, .prepared⟩]) toolCalls) [])
  | .running finalizedCalls, .proceed _ =>
    (allFinalized finalizedCalls).map fun orderedFinalizedCalls =>
      s.goOn message (.reporting orderedFinalizedCalls [] orderedFinalizedCalls) []
  | .running finalizedCalls, .launch index =>
    s.stepRunning message finalizedCalls index (.launch index)
  | .running finalizedCalls, .toolUpdate index partialResult =>
    s.stepRunning message finalizedCalls index (.toolUpdate index partialResult)
  | .running finalizedCalls, .executed index answer =>
    s.stepRunning message finalizedCalls index (.executed index answer)
  | .running finalizedCalls, .afterToolCall index answer now =>
    s.stepRunning message finalizedCalls index (.afterToolCall index answer now)
  | .reporting finalizedCalls messages rest, .proceed now =>
    some (s.nextReport message finalizedCalls messages rest now)
  | _, _ => none

/-- What a queue handed out, with what it does next. -/
def polled (s : LoopState N K) (messages : List (AgentMessage N K))
    (next : LoopState N K → LoopState N K × List (Item N K)) : LoopState N K × List (Item N K) :=
  let (next, items) := next { s with pendingMessages := messages }
  (next, .polled messages :: items)

/-- The conditions of the inner loop and the outer one. -/
def afterTurn (hasMoreToolCalls : Bool) (s : LoopState N K) : LoopState N K × List (Item N K) :=
  if hasMoreToolCalls = true ∨ s.pendingMessages ≠ [] then s.enterTurn
  else s.goTo .followUpPolling

def afterFollowUps (s : LoopState N K) : LoopState N K × List (Item N K) :=
  if s.pendingMessages ≠ [] then s.enterTurn else s.finish

def abort (s : LoopState N K) : LoopState N K × List (Item N K) :=
  ({ s with aborted := true }, [.aborted])

def step (s : LoopState N K) (input : Input N K) : Option (LoopState N K × List (Item N K)) :=
  match s.control, input with
  | _, .abort => some s.abort
  | .polling, .polled messages => some (s.polled messages enterTurn)
  | .preparing, .prepared answer => some (s.answered answer s.prepareNextTurn)
  | .repolling, .polled messages => some (s.polled messages startTurn)
  | .transforming, .transformed answer =>
    some (s.answered answer fun messages => s.goTo (.converting messages))
  | .converting _, .converted answer =>
    some (s.answered answer fun llmMessages => s.goTo (.resolvingKey llmMessages))
  | .resolvingKey llmMessages, .keyResolved answer =>
    some (s.answered answer fun apiKey =>
      ({ s with control := .requesting },
        [.requested s.currentContext.messages (s.request llmMessages apiKey)]))
  | .requesting, .responded answer =>
    some (s.answered answer fun _ => s.goTo (.streaming none))
  | .streaming partialMessage, .streamed event message =>
    some (s.streamEvent partialMessage event message)
  | .streaming partialMessage, .streamEnded message =>
    some (s.finishResponse partialMessage message)
  | .streaming _, .streamThrew error => some (s.fail error)
  | .tools message batch, input => s.stepTools message batch input
  | .stopping hasMoreToolCalls, .stopDecided answer =>
    some (s.answered answer fun stop =>
      if stop then s.finish else s.goTo (.turnPolling hasMoreToolCalls))
  | .turnPolling hasMoreToolCalls, .polled messages =>
    some (s.polled messages (afterTurn hasMoreToolCalls))
  | .followUpPolling, .polled messages => some (s.polled messages afterFollowUps)
  | _, _ => none

end LoopState

def runAgentLoop (prompts : List (AgentMessage N K)) (context : AgentContext N K)
    (config : AgentLoopConfig) : LoopState N K × List (Item N K) :=
  ({ currentContext := context.push prompts
     newMessages := prompts
     config
     lastCompletedTurn := none
     pendingMessages := []
     aborted := false
     control := .polling },
    .event .agentStart :: .event .turnStart :: prompts.flatMap announce)

def runAgentLoopContinue (context : AgentContext N K) (config : AgentLoopConfig) :
    Except String (LoopState N K × List (Item N K)) :=
  match context.messages.getLast? with
  | none => .error "Cannot continue: no messages in context"
  | some last =>
    if last.isAssistant then .error "Cannot continue from message role: assistant"
    else .ok (runAgentLoop [] context config)

end Trpi.Agent
