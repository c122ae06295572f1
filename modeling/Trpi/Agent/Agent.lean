import Trpi.Agent.Loop
import Trpi.Library.Machine

/-!
# The agent

agent/src/agent.ts: the queues for steering and follow-ups around the loop, the transcript that
its events lead to, and how a run ends. Messages that are queued are numbered. An event reaches
the state when it is emitted, listeners do nothing, and a call that throws changes nothing.
-/

set_option linter.dupNamespace false

namespace Trpi.Agent

open Library Ai

variable {N K : Type}

inductive QueueMode where
  | all | oneAtATime

structure PendingMessageQueue (N K : Type) where
  messages : List (AgentMessage N K)
  mode : QueueMode

namespace PendingMessageQueue

def enqueue (queue : PendingMessageQueue N K) (message : AgentMessage N K) :
    PendingMessageQueue N K :=
  { queue with messages := queue.messages ++ [message] }

def drain (queue : PendingMessageQueue N K) : List (AgentMessage N K) × PendingMessageQueue N K :=
  match queue.mode with
  | .all => (queue.messages, { queue with messages := [] })
  | .oneAtATime => (queue.messages.take 1, { queue with messages := queue.messages.drop 1 })

def clear (queue : PendingMessageQueue N K) : PendingMessageQueue N K :=
  { queue with messages := [] }

end PendingMessageQueue

structure AgentState (N K : Type) where
  systemPrompt : String
  model : Model
  thinkingLevel : ThinkingLevel
  tools : List (AgentTool N)
  messages : List (AgentMessage N K)
  isStreaming : Bool
  streamingMessage : Option (AgentMessage N K)
  pendingToolCalls : List String
  errorMessage : Option String

structure ActiveRun (N K : Type) where
  loop : LoopState N K
  skipInitialSteeringPoll : Bool

/-- The agent, with the numbers of messages ever steered and queued to follow. -/
structure Agent (N K : Type) where
  state : AgentState N K
  steeringQueue : PendingMessageQueue N K
  followUpQueue : PendingMessageQueue N K
  toolExecution : ToolExecutionMode
  activeRun : Option (ActiveRun N K)
  steered : Nat
  followedUp : Nat

/-- What an agent is made with, defaults filled in. -/
structure AgentOptions (N K : Type) where
  systemPrompt : String
  model : Model
  thinkingLevel : ThinkingLevel
  tools : List (AgentTool N)
  messages : List (MessageBody N K)
  steeringMode : QueueMode
  followUpMode : QueueMode
  toolExecution : ToolExecutionMode

def Agent.new (options : AgentOptions N K) : Agent N K where
  state :=
    { systemPrompt := options.systemPrompt
      model := options.model
      thinkingLevel := options.thinkingLevel
      tools := options.tools
      messages := options.messages.map fun body => { origin := .prompt, body }
      isStreaming := false
      streamingMessage := none
      pendingToolCalls := []
      errorMessage := none }
  steeringQueue := { messages := [], mode := options.steeringMode }
  followUpQueue := { messages := [], mode := options.followUpMode }
  toolExecution := options.toolExecution
  activeRun := none
  steered := 0
  followedUp := 0

namespace AgentState

/-- The part of `processEvents` before the listeners. -/
def processEvent (s : AgentState N K) (event : AgentEvent N K) : AgentState N K :=
  match event with
  | .messageStart message => { s with streamingMessage := some message }
  | .messageUpdate message _ => { s with streamingMessage := some message }
  | .messageEnd message =>
    { s with streamingMessage := none, messages := s.messages ++ [message] }
  | .toolExecutionStart id _ _ =>
    { s with pendingToolCalls := if id ∈ s.pendingToolCalls then s.pendingToolCalls
        else s.pendingToolCalls ++ [id] }
  | .toolExecutionEnd id _ _ _ =>
    { s with pendingToolCalls := s.pendingToolCalls.filter (· ≠ id) }
  | .turnEnd message _ =>
    -- An empty text is no error.
    { s with errorMessage := (message.errorMessage.filter (· ≠ "")).or s.errorMessage }
  | .agentEnd _ => { s with streamingMessage := none }
  | _ => s

def processItem (s : AgentState N K) : Item N K → AgentState N K
  | .event event => s.processEvent event
  | _ => s

def processItems (s : AgentState N K) (items : List (Item N K)) : AgentState N K :=
  items.foldl processItem s

end AgentState

namespace Agent

def EMPTY_USAGE [JsonNumber N] : Json N :=
  .obj [("input", .num (JsonNumber.ofNat 0)), ("output", .num (JsonNumber.ofNat 0)),
    ("cacheRead", .num (JsonNumber.ofNat 0)), ("cacheWrite", .num (JsonNumber.ofNat 0)),
    ("totalTokens", .num (JsonNumber.ofNat 0)),
    ("cost", .obj [("input", .num (JsonNumber.ofNat 0)), ("output", .num (JsonNumber.ofNat 0)),
      ("cacheRead", .num (JsonNumber.ofNat 0)), ("cacheWrite", .num (JsonNumber.ofNat 0)),
      ("total", .num (JsonNumber.ofNat 0))])]

def createContextSnapshot (agent : Agent N K) : AgentContext N K where
  systemPrompt := agent.state.systemPrompt
  messages := agent.state.messages
  tools := agent.state.tools

def createLoopConfig (agent : Agent N K) : AgentLoopConfig where
  model := agent.state.model
  reasoning := if agent.state.thinkingLevel = .off then none else some agent.state.thinkingLevel
  apiKey := none
  toolExecution := some agent.toolExecution

def advance (agent : Agent N K) (skipInitialSteeringPoll : Bool)
    (result : LoopState N K × List (Item N K)) : Agent N K :=
  { agent with
    state := agent.state.processItems result.2
    activeRun := some { loop := result.1, skipInitialSteeringPoll } }

/-- `runWithLifecycle` up to the first question of the loop. -/
def runWithLifecycle (agent : Agent N K) (skipInitialSteeringPoll : Bool)
    (started : LoopState N K × List (Item N K)) : Agent N K :=
  { agent with
    state :=
      { agent.state with isStreaming := true, streamingMessage := none, errorMessage := none } }.advance
    skipInitialSteeringPoll started

def runPromptMessages (agent : Agent N K) (messages : List (AgentMessage N K))
    (skipInitialSteeringPoll : Bool) : Agent N K :=
  agent.runWithLifecycle skipInitialSteeringPoll
    (runAgentLoop messages agent.createContextSnapshot agent.createLoopConfig)

inductive PromptInput (N K : Type) where
  | text (text : Utf16.Units) (images : List MediaContent)
  | messages (messages : List (MessageBody N K))

def normalizePromptInput (input : PromptInput N K) (now : N) : List (AgentMessage N K) :=
  match input with
  | .text text images =>
    [{ origin := .prompt, body := .message (.user ⟨.blocks (.text ⟨text, none⟩ :: images), now⟩) }]
  | .messages messages => messages.map fun body => { origin := .prompt, body }

def prompt (agent : Agent N K) (input : PromptInput N K) (now : N) : Except String (Agent N K) :=
  if agent.activeRun.isSome then
    .error ("Agent is already processing a prompt. Use steer() or followUp() to queue messages, " ++
      "or wait for completion.")
  else .ok (agent.runPromptMessages (normalizePromptInput input now) false)

def runContinuation (agent : Agent N K) : Except String (Agent N K) :=
  match runAgentLoopContinue agent.createContextSnapshot agent.createLoopConfig with
  | .error error => .error error
  | .ok started => .ok (agent.runWithLifecycle false started)

/-- From an assistant message only queued messages go on. -/
def continueQueued (agent : Agent N K) : Except String (Agent N K) :=
  let (queuedSteering, steeringQueue) := agent.steeringQueue.drain
  if queuedSteering ≠ [] then
    .ok ({ agent with steeringQueue }.runPromptMessages queuedSteering true)
  else
    let (queuedFollowUps, followUpQueue) := agent.followUpQueue.drain
    if queuedFollowUps ≠ [] then
      .ok ({ agent with followUpQueue }.runPromptMessages queuedFollowUps false)
    else .error "Cannot continue from message role: assistant"

def «continue» (agent : Agent N K) : Except String (Agent N K) :=
  if agent.activeRun.isSome then
    .error "Agent is already processing. Wait for completion before continuing."
  else
    match agent.state.messages.getLast? with
    | none => .error "No messages to continue from"
    | some lastMessage =>
      if lastMessage.isAssistant then agent.continueQueued else agent.runContinuation

def steer (agent : Agent N K) (message : MessageBody N K) : Agent N K :=
  { agent with
    steeringQueue := agent.steeringQueue.enqueue ⟨.steering agent.steered, message⟩
    steered := agent.steered + 1 }

def followUp (agent : Agent N K) (message : MessageBody N K) : Agent N K :=
  { agent with
    followUpQueue := agent.followUpQueue.enqueue ⟨.followUp agent.followedUp, message⟩
    followedUp := agent.followedUp + 1 }

def abort (agent : Agent N K) : Agent N K :=
  { agent with
    activeRun := agent.activeRun.map fun run => { run with loop := run.loop.abort.1 } }

/-- `getSteeringMessages` and `getFollowUpMessages`. -/
def poll (agent : Agent N K) : Option (Agent N K) :=
  match agent.activeRun with
  | none => none
  | some run =>
    match run.loop.control with
    | .followUpPolling =>
      let (messages, followUpQueue) := agent.followUpQueue.drain
      (run.loop.step (.polled messages)).map
        ({ agent with followUpQueue }.advance run.skipInitialSteeringPoll)
    | _ =>
      if run.skipInitialSteeringPoll then
        (run.loop.step (.polled [])).map (agent.advance false)
      else
        let (messages, steeringQueue) := agent.steeringQueue.drain
        (run.loop.step (.polled messages)).map ({ agent with steeringQueue }.advance false)

def answer (agent : Agent N K) (input : Input N K) : Option (Agent N K) :=
  match agent.activeRun, input with
  | none, _ => none
  | some _, .polled _ => none
  | some _, .abort => none
  | some run, input => (run.loop.step input).map (agent.advance run.skipInitialSteeringPoll)

def finishRun (agent : Agent N K) : Agent N K :=
  { agent with
    state :=
      { agent.state with isStreaming := false, streamingMessage := none, pendingToolCalls := [] }
    activeRun := none }

def failureMessage [JsonNumber N] (agent : Agent N K) (error : String) (aborted : Bool) (now : N) :
    AssistantMessage N where
  api := agent.state.model.api
  provider := agent.state.model.provider
  model := agent.state.model.id
  responseModel := none
  responseId := none
  providerThinkingLevel := none
  diagnostics := none
  usage := EMPTY_USAGE
  stopReason := if aborted then .aborted else .error
  deferred := none
  errorMessage := some error
  rawStopReason := none
  endTurn := none
  timestamp := now
  content := [.text ⟨[], none⟩]

def handleRunFailure [JsonNumber N] (agent : Agent N K) (error : String) (aborted : Bool) (now : N) :
    Agent N K :=
  let failureMessage := agent.failureMessage error aborted now
  { agent with
    state := agent.state.processItems (announce (.assistant failureMessage) ++
      [.event (.turnEnd failureMessage []), .event (.agentEnd [.assistant failureMessage])]) }

/-- The executor has returned or thrown. -/
def settle [JsonNumber N] (agent : Agent N K) (now : N) : Option (Agent N K) :=
  match agent.activeRun with
  | none => none
  | some run =>
    match run.loop.control with
    | .ended => some agent.finishRun
    | .failed error => some (agent.handleRunFailure error run.loop.aborted now).finishRun
    | _ => none

end Agent

end Trpi.Agent
