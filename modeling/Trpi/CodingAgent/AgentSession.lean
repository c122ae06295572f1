import Trpi.Agent.AgentRuns

/-!
# Messages of a session

The part of coding-agent/src/core/agent-session.ts that messages go through: the queues on
display, the lists of messages that wait for a turn to end, a run to end or a prompt, and the
entries of the session. Custom messages and results of bash commands are numbered as they are
sent. The events of the loop are handled one by one and calls may come between them; listeners
and appends may throw. A text is taken after commands, input handlers and templates, and what
else changes the transcript of the agent is one step.
-/

namespace Trpi.CodingAgent

open Library Ai Agent
open Library.Utf16 (Units)

variable {N K : Type}

structure ImageContent where
  data : String
  mimeType : String

def textOf : MediaContent → Option Units
  | .text content => some content.text
  | .image _ _ => none

/-- From ai/src/utils/text.ts. -/
def contentText (content : UserContent) (separator : Units) : Units :=
  match content with
  | .text text => text
  | .blocks blocks => separator.intercalate (blocks.filterMap textOf)

/-- The text and images of `prompt`, `_queueSteer` and `_queueFollowUp`. -/
def userMessage (text : Units) (images : List ImageContent) (timestamp : N) : UserMessage N where
  content := .blocks (.text ⟨text, none⟩ ::
    images.map fun image => .image image.data image.mimeType)
  timestamp := timestamp

def userText? (message : AgentMessage N K) : Option Units :=
  match message.body with
  | .message (.user message) => some (contentText message.content [])
  | _ => none

/-- Where a custom message goes when it is sent. -/
inductive Delivery where
  | steer | followUp | nextTurn | turnEnd | atOnce
  deriving DecidableEq

/-- With its number among the messages that were sent to go the same way, if it has to wait. -/
structure CustomMessage (K : Type) where
  delivery : Delivery
  serial : Nat
  content : K

/-- With its number among the recorded ones. -/
structure BashExecutionMessage (β : Type) where
  serial : Nat
  result : β

inductive MessageEntry (N K β : Type) where
  | message (message : Message N)
  | custom (message : CustomMessage K)
  | bash (message : BashExecutionMessage β)

/-- `checked` and `prompts` are calls of `prompt` before and after they took the messages for the
next turn, `afterRun` counts the calls of `_runAgentPrompt` between two runs of the agent, and
`unhandled` is what was emitted and no listener has seen, at the end of a run while `failing`.
The numbers of what was cleared, sent and recorded are only noted. -/
structure AgentSession (N K β : Type) where
  agent : Agent N (CustomMessage K)
  entries : List (MessageEntry N K β)
  steeringMessages : List Units
  followUpMessages : List Units
  pendingNextTurnMessages : List (CustomMessage K)
  pendingCustomMessages : List (CustomMessage K)
  pendingBashMessages : List (BashExecutionMessage β)
  isAgentRunActive : Bool
  checked : List (UserMessage N)
  prompts : List (List (MessageBody N (CustomMessage K)))
  afterRun : Nat
  unhandled : List (Item N (CustomMessage K))
  failing : Bool
  cleared : QueueKind → Nat
  sent : Delivery → Nat
  recorded : Nat

/-- What throws in a call: a listener before anything is kept, what follows the append of the
message that ended, or what follows the append of a message that was pending. -/
structure Faults (K β : Type) where
  listener : Bool
  append : Bool
  custom : CustomMessage K → Bool
  bash : BashExecutionMessage β → Bool

def noFaults {β : Type} : Faults K β where
  listener := false
  append := false
  custom _ := false
  bash _ := false

inductive StreamingBehavior where
  | steer | followUp

inductive DeliverAs where
  | steer | followUp | nextTurn
  deriving DecidableEq

/-- What `_handlePostAgentRun` finds. -/
inductive PostAgentRun where
  | nothing
  | retry
  | compaction (goesOn : Bool)
  | done

/-- Messages are appended in a loop until one throws, which is appended still. -/
def appendUntil {α : Type} (fails : α → Bool) : List α → List α × Bool
  | [] => ([], false)
  | message :: rest =>
    if fails message then ([message], true)
    else (message :: (appendUntil fails rest).1, (appendUntil fails rest).2)

namespace AgentSession

variable {β : Type}

def new (options : AgentOptions N (CustomMessage K)) : AgentSession N K β where
  agent := .new options
  entries := []
  steeringMessages := []
  followUpMessages := []
  pendingNextTurnMessages := []
  pendingCustomMessages := []
  pendingBashMessages := []
  isAgentRunActive := false
  checked := []
  prompts := []
  afterRun := 0
  unhandled := []
  failing := false
  cleared _ := 0
  sent _ := 0
  recorded := 0

/-- `isIdle`, but for compaction. -/
def isIdle (s : AgentSession N K β) : Bool :=
  !s.isAgentRunActive

/-- Whether it throws comes second. -/
def flushPendingBashMessages (s : AgentSession N K β)
    (fails : BashExecutionMessage β → Bool) : AgentSession N K β × Bool :=
  let (appended, threw) := appendUntil fails s.pendingBashMessages
  ({ s with
      entries := s.entries ++ appended.map .bash
      -- The list is emptied after the loop.
      pendingBashMessages := if threw then s.pendingBashMessages else [] },
    threw)

def flushPendingCustomMessages (s : AgentSession N K β) (fails : CustomMessage K → Bool) :
    AgentSession N K β × Bool :=
  let (appended, threw) := appendUntil fails s.pendingCustomMessages
  ({ s with
      pendingCustomMessages := []
      entries := s.entries ++ appended.map .custom },
    threw)

/-- Both lists, as before a prompt and at the end of a run. -/
def flushPending (s : AgentSession N K β) (faults : Faults K β) :
    AgentSession N K β × Bool :=
  let (s, threw) := s.flushPendingBashMessages faults.bash
  if threw then (s, true) else s.flushPendingCustomMessages faults.custom

def recordBashResult (s : AgentSession N K β) (result : β) : AgentSession N K β :=
  let bashMessage := { serial := s.recorded, result }
  let s := { s with recorded := s.recorded + 1 }
  if s.isAgentRunActive then
    { s with pendingBashMessages := s.pendingBashMessages ++ [bashMessage] }
  else { s with entries := s.entries ++ [.bash bashMessage] }

def queueSteer (s : AgentSession N K β) (text : Units) (images : List ImageContent)
    (now : N) : AgentSession N K β :=
  { s with
    steeringMessages := s.steeringMessages ++ [text]
    agent := s.agent.steer (.message (.user (userMessage text images now))) }

def queueFollowUp (s : AgentSession N K β) (text : Units) (images : List ImageContent)
    (now : N) : AgentSession N K β :=
  { s with
    followUpMessages := s.followUpMessages ++ [text]
    agent := s.agent.followUp (.message (.user (userMessage text images now))) }

def clearQueue (s : AgentSession N K β) : AgentSession N K β :=
  { s with
    steeringMessages := []
    followUpMessages := []
    agent :=
      { s.agent with
        steeringQueue := s.agent.steeringQueue.clear
        followUpQueue := s.agent.followUpQueue.clear }
    cleared := s.agent.count }

/-- The end of `_runAgentPrompt`. -/
def finishAgentPrompt (s : AgentSession N K β) (faults : Faults K β) : AgentSession N K β :=
  let (s, threw) := s.flushPending faults
  if threw then s else { s with isAgentRunActive := false }

/-- What the loop emits when it starts with these messages. -/
def startItems (agent : Agent N (CustomMessage K))
    (messages : List (AgentMessage N (CustomMessage K))) : List (Item N (CustomMessage K)) :=
  (runAgentLoop messages agent.createContextSnapshot agent.createLoopConfig).2

def runAgentPrompt (s : AgentSession N K β)
    (messages : List (MessageBody N (CustomMessage K))) (now : N) (faults : Faults K β) :
    AgentSession N K β :=
  let s := { s with isAgentRunActive := true }
  match s.agent.prompt (.messages messages) now with
  | .error _ => s.finishAgentPrompt faults
  | .ok agent =>
    { s with
      agent
      unhandled :=
        startItems s.agent (Agent.normalizePromptInput (.messages messages) now) }

/-- `prompt` up to the checks of the model. -/
def prompt (s : AgentSession N K β) (text : Units) (images : List ImageContent)
    (streamingBehavior : Option StreamingBehavior) (now : N) (faults : Faults K β) :
    AgentSession N K β :=
  if s.isAgentRunActive then
    match streamingBehavior with
    | none => s
    | some .followUp => s.queueFollowUp text images now
    | some .steer => s.queueSteer text images now
  else
    let (s, threw) := s.flushPending faults
    if threw then s
    else { s with checked := s.checked ++ [userMessage text images now] }

def takeNextTurn (s : AgentSession N K β) (index : Nat) : Option (AgentSession N K β) :=
  (s.checked[index]?).map fun message =>
    { s with
      checked := s.checked.eraseIdx index
      prompts := s.prompts ++
        [.message (.user message) :: s.pendingNextTurnMessages.map .custom]
      pendingNextTurnMessages := [] }

/-- The extensions have answered `before_agent_start`, and the run starts. -/
def startPrompt (s : AgentSession N K β) (index : Nat) (context : List K) (now : N)
    (faults : Faults K β) : Option (AgentSession N K β) :=
  (s.prompts[index]?).map fun messages =>
    let context : List (MessageBody N (CustomMessage K)) :=
      context.map fun content => .custom ⟨.atOnce, 0, content⟩
    { s with prompts := s.prompts.eraseIdx index }.runAgentPrompt (messages ++ context) now faults

def count (sent : Delivery → Nat) (delivery : Delivery) : Delivery → Nat :=
  fun other => if other = delivery then sent delivery + 1 else sent other

def sendCustomMessage (s : AgentSession N K β) (content : K) (triggerTurn : Option Bool)
    (deliverAs : Option DeliverAs) (now : N) (faults : Faults K β) : AgentSession N K β :=
  let appMessage (delivery : Delivery) : CustomMessage K :=
    { delivery, serial := s.sent delivery, content }
  if deliverAs = some .nextTurn then
    { s with
      pendingNextTurnMessages := s.pendingNextTurnMessages ++ [appMessage .nextTurn]
      sent := count s.sent .nextTurn }
  else if s.isAgentRunActive ∧ triggerTurn ≠ some false then
    if deliverAs = some .followUp then
      { s with
        agent := s.agent.followUp (.custom (appMessage .followUp))
        sent := count s.sent .followUp }
    else
      { s with
        agent := s.agent.steer (.custom (appMessage .steer))
        sent := count s.sent .steer }
  else if triggerTurn = some true then
    s.runAgentPrompt [.custom (appMessage .atOnce)] now faults
  else if s.isAgentRunActive then
    { s with
      pendingCustomMessages := s.pendingCustomMessages ++ [appMessage .turnEnd]
      sent := count s.sent .turnEnd }
  else { s with entries := s.entries ++ [.custom (appMessage .atOnce)] }

/-- The messages that `continue` takes from a queue. -/
def continued (agent : Agent N (CustomMessage K)) : List (AgentMessage N (CustomMessage K)) :=
  match agent.state.messages.getLast? with
  | none => []
  | some lastMessage =>
    if lastMessage.isAssistant then
      if agent.steeringQueue.drain.1 ≠ [] then agent.steeringQueue.drain.1
      else agent.followUpQueue.drain.1
    else []

def goesOn (s : AgentSession N K β) : PostAgentRun → Bool
  | .nothing => false
  | .retry => true
  | .compaction goesOn => goesOn
  | .done => !s.agent.steeringQueue.messages.isEmpty ||
      !s.agent.followUpQueue.messages.isEmpty

/-- `_handlePostAgentRun`, which finds nothing when it throws or when the run threw, and what
follows in `_runAgentPrompt`. -/
def handlePostAgentRun (s : AgentSession N K β) (found : PostAgentRun)
    (faults : Faults K β) : Option (AgentSession N K β) :=
  match s.afterRun with
  | 0 => none
  | afterRun + 1 =>
    if s.goesOn found then
      match s.agent.continue with
      | .error _ => some ({ s with afterRun }.finishAgentPrompt faults)
      | .ok agent =>
        some
          { s with
            afterRun, agent, unhandled := startItems s.agent (continued s.agent) }
    else some ({ s with afterRun }.finishAgentPrompt faults)

def handsOut (agent : Agent N (CustomMessage K)) : List (AgentMessage N (CustomMessage K)) :=
  match agent.activeRun with
  | none => []
  | some run =>
    match run.loop.control with
    | .followUpPolling => agent.followUpQueue.drain.1
    | _ => if run.skipInitialSteeringPoll then [] else agent.steeringQueue.drain.1

def emitted (agent : Agent N (CustomMessage K)) (input : Input N (CustomMessage K)) :
    List (Item N (CustomMessage K)) :=
  match agent.activeRun with
  | none => []
  | some run => ((run.loop.step input).map Prod.snd).getD []

def removeQueued (s : AgentSession N K β) (messageText : Units) : AgentSession N K β :=
  if messageText = [] then s
  else if messageText ∈ s.steeringMessages then
    { s with steeringMessages := s.steeringMessages.erase messageText }
  else { s with followUpMessages := s.followUpMessages.erase messageText }

/-- The first part of `_handleAgentEvent`. -/
def removeStarted (s : AgentSession N K β) (event : AgentEvent N (CustomMessage K)) :
    AgentSession N K β :=
  match event with
  | .messageStart message =>
    match userText? message with
    | some messageText => s.removeQueued messageText
    | none => s
  | _ => s

def entryOf (message : AgentMessage N (CustomMessage K)) : MessageEntry N K β :=
  match message.body with
  | .message message => .message message
  | .custom message => .custom message

def handleAgentEvent (s : AgentSession N K β) (event : AgentEvent N (CustomMessage K))
    (faults : Faults K β) : AgentSession N K β × Bool :=
  let s := s.removeStarted event
  if faults.listener then (s, true)
  else
    match event with
    | .messageEnd message =>
      ({ s with entries := s.entries ++ [entryOf message] }, faults.append)
    | .turnEnd _ _ => s.flushPendingCustomMessages faults.custom
    | _ => (s, false)

def handleItem (s : AgentSession N K β) (faults : Faults K β) :
    Item N (CustomMessage K) → AgentSession N K β × Bool
  | .event event => s.handleAgentEvent event faults
  | _ => (s, false)

/-- The run that emitted the event ends; what it announced last is not emitted. -/
def abandon (s : AgentSession N K β) (error : String) : AgentSession N K β :=
  { s with
    unhandled := []
    agent :=
      { s.agent with
        activeRun := s.agent.activeRun.map fun run =>
          { run with
            loop :=
              { run.loop with control := if s.failing then .ended else .failed error } } } }

def handle (s : AgentSession N K β) (faults : Faults K β) (error : String) :
    Option (AgentSession N K β) :=
  match s.unhandled with
  | [] => none
  | item :: unhandled =>
    let (next, threw) := s.handleItem faults item
    let next := { next with unhandled }
    some (if threw then next.abandon error else next)

/-- `runWithLifecycle` goes on when the loop is over: a failure is announced first. -/
def settle [JsonNumber N] (s : AgentSession N K β) (now : N) :
    Option (AgentSession N K β) :=
  match s.agent.activeRun with
  | none => none
  | some run =>
    match run.loop.control with
    | .ended =>
      some
        { s with
          agent := s.agent.finishRun, failing := false, afterRun := s.afterRun + 1 }
    | .failed error =>
      let failureMessage := s.agent.failureMessage error run.loop.aborted now
      some
        { s with
          agent :=
            { s.agent.handleRunFailure error run.loop.aborted now with
              activeRun := some { run with loop := { run.loop with control := .ended } } }
          failing := true
          unhandled := announce (.assistant failureMessage) ++
            [.event (.turnEnd failureMessage []), .event (.agentEnd [.assistant failureMessage])] }
    | _ => none

end AgentSession

/-- What happens to a session. `setMessages` is a retry, a compaction or an append, and
`discardPrompt` an extension or a caller that throws before the run of a prompt. -/
inductive SessionAct (N K β : Type) where
  | prompt (text : Units) (images : List ImageContent)
      (streamingBehavior : Option StreamingBehavior) (now : N) (faults : Faults K β)
  | takeNextTurn (index : Nat)
  | discardPrompt (index : Nat)
  | startPrompt (index : Nat) (context : List K) (now : N) (faults : Faults K β)
  | steer (text : Units) (images : List ImageContent) (now : N)
  | followUp (text : Units) (images : List ImageContent) (now : N)
  | sendCustomMessage (content : K) (triggerTurn : Option Bool) (deliverAs : Option DeliverAs)
      (now : N) (faults : Faults K β)
  | recordBashResult (result : β)
  | clearQueue
  | setMode (kind : QueueKind) (mode : QueueMode)
  | setMessages (messages : List (AgentMessage N (CustomMessage K)))
  | abort
  | handle (faults : Faults K β) (error : String)
  | poll
  | answer (input : Input N (CustomMessage K))
  | settle (now : N)
  | handlePostAgentRun (found : PostAgentRun) (faults : Faults K β)

namespace AgentSession

variable {β : Type}

/-- The loop goes on when its events have been handled. -/
def step [JsonNumber N] (s : AgentSession N K β) : SessionAct N K β → Option (AgentSession N K β)
  | .prompt text images streamingBehavior now faults =>
    some (s.prompt text images streamingBehavior now faults)
  | .takeNextTurn index => s.takeNextTurn index
  | .discardPrompt index => some { s with prompts := s.prompts.eraseIdx index }
  | .startPrompt index context now faults => s.startPrompt index context now faults
  | .steer text images now => some (s.queueSteer text images now)
  | .followUp text images now => some (s.queueFollowUp text images now)
  | .sendCustomMessage content triggerTurn deliverAs now faults =>
    some (s.sendCustomMessage content triggerTurn deliverAs now faults)
  | .recordBashResult result => some (s.recordBashResult result)
  | .clearQueue => some s.clearQueue
  | .setMode kind mode =>
    some
      { s with
        agent := s.agent.withQueue kind { s.agent.queue kind with mode } }
  | .setMessages messages =>
    some
      { s with
        agent := { s.agent with state := { s.agent.state with messages } } }
  | .abort => some { s with agent := s.agent.abort }
  | .handle faults error => s.handle faults error
  | .poll =>
    if s.unhandled = [] then
      s.agent.poll.map fun agent =>
        { s with
          agent
          unhandled := emitted s.agent (.polled (handsOut s.agent)) }
    else none
  | .answer input =>
    if s.unhandled = [] then
      (s.agent.answer input).map fun agent =>
        { s with agent, unhandled := emitted s.agent input }
    else none
  | .settle now => if s.unhandled = [] then s.settle now else none
  | .handlePostAgentRun found faults => s.handlePostAgentRun found faults

end AgentSession

def agentSessionMachine {β : Type} [JsonNumber N] :
    Machine (AgentSession N K β) (SessionAct N K β) where
  start s := ∃ options, s = .new options
  step := AgentSession.step

end Trpi.CodingAgent
