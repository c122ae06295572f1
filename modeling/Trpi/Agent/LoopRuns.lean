import Trpi.Agent.LoopSimulation

/-!
# Runs of the agent loop

The trace of every run: brackets, turns, the end, what queues hand out and what requests see.
-/

namespace Trpi.Agent

open Library Ai

variable {N K : Type}

structure LoopRun (N K : Type) where
  state : LoopState N K
  trace : List (Item N K)

def loopMachine (prompts : List (AgentMessage N K)) (context : AgentContext N K)
    (config : AgentLoopConfig) : Machine (LoopRun N K) (Input N K) where
  start run := (run.state, run.trace) = runAgentLoop prompts context config
  step run input := (run.state.step input).map fun (state, items) =>
    { state, trace := run.trace ++ items }

/-- The runs whose hooks do not throw and whose response streams start at most once. -/
abbrev OrderlyRun (prompts : List (AgentMessage N K)) (context : AgentContext N K)
    (config : AgentLoopConfig) : LoopRun N K → Prop :=
  (loopMachine prompts context config).Reached fun run input => orderly run.state input = true

section

variable {prompts messages seen : List (AgentMessage N K)} {context : AgentContext N K}
  {config : AgentLoopConfig} {trace : List (Item N K)} {request : Request N}

theorem started_told :
    Told prompts context.messages (runAgentLoop prompts context config).1.conversation
      (runAgentLoop prompts context config).2 := by
  have first : TraceSpec prompts context.messages [.event .agentStart] :=
    (TraceSpec.nil _ _).concat ⟨by simp, trivial⟩
  have opened : Told prompts context.messages
      { context := context.messages, ended := [], pending := prompts, aborted := false,
        phase := .opened }
      [.event .agentStart, .event .turnStart] :=
    { spec := first.concat ⟨by simp, trivial⟩
      ended := rfl
      context := rfl
      handed := by simp [handedIn, Conversation.current]
      brackets := ⟨[], ⟨[], by simp, rfl⟩, rfl⟩
      turns := ⟨0, rfl⟩
      aborted := by simp
      working := by simp
      finished := by simp
      failed := by simp }
  exact opened.moves (LoopState.inject_moves _ _ _ _)

theorem started_proper : (runAgentLoop prompts context config).1.Proper := by
  constructor <;> simp [runAgentLoop, Control.betweenTurns]

theorem told_inductive : (loopMachine prompts context config).Inductive
    (fun run input => orderly run.state input = true)
    fun run => run.state.Proper ∧ Told prompts context.messages run.state.conversation run.trace where
  start run started := by
    obtain ⟨s, trace⟩ := run
    cases started
    exact ⟨started_proper, started_told⟩
  step run input next holds ok taken := by
    obtain ⟨result, stepped, rfl⟩ := Option.map_eq_some_iff.mp taken
    obtain ⟨moves, proper⟩ := LoopState.step_moved holds.1 ok stepped
    exact ⟨proper, holds.2.moves moves⟩

/-- What a run tells. The request after a turn with tool calls is made from a context that has
each result, unless the run was aborted or the context replaced. -/
structure RunSpec (prompts context : List (AgentMessage N K)) (trace : List (Item N K)) : Prop where
  brackets : ∃ unclosed, Bracketed (messageMarks trace) unclosed ∧ unclosed.length ≤ 1
  turns : ∃ isOpen, Alternating (turnMarks trace) isOpen
  /-- Nothing is emitted after `agent_end`, and everything has ended before it. -/
  ending : ∀ before messages after, trace = before ++ .event (.agentEnd messages) :: after →
    (∀ event, .event event ∉ after) ∧ Bracketed (messageMarks before) [] ∧
    Alternating (turnMarks before) false ∧ messages = endedIn before ∧
    messages = prompts ++ handedIn before
  /-- Up to the next request exactly what was handed out ends. -/
  polls : ∀ before messages between seen request after,
    trace = before ++ .polled messages :: between ++ .requested seen request :: after →
    endedIn before = prompts ++ handedIn before ∧ endedIn between = messages ++ handedIn between
  results : ∀ before message toolResults between seen request after,
    trace = before ++ .event (.turnEnd message toolResults) :: between ++
      .requested seen request :: after →
    .aborted ∉ before → (∀ context, .updated context ∉ between) →
    toolResults.map (·.toolCallId) = message.toolCalls.map (·.id) ∧
    ∃ earlier, seen =
      earlier ++ .assistant message :: toolResults.map .toolResult ++ endedIn between

section

variable {prompts context : List (AgentMessage N K)} (spec : TraceSpec prompts context trace)

include spec

theorem TraceSpec.ending {before after : List (Item N K)}
    (split : trace = before ++ .event (.agentEnd messages) :: after) :
    (∀ ev, .event ev ∉ after) ∧ Bracketed (messageMarks before) [] ∧
    Alternating (turnMarks before) false ∧ messages = endedIn before ∧
    messages = prompts ++ handedIn before := by
  obtain ⟨-, same, all, brackets, turns⟩ := spec _ _ _ split
  refine ⟨fun ev inside => ?_, brackets, turns, same, same.trans all⟩
  obtain ⟨front, back, rfl⟩ := List.append_of_mem inside
  have later := spec (before ++ .event (.agentEnd messages) :: front) (.event ev) back
    (by simp [split])
  exact later.1 messages (by simp)

theorem TraceSpec.polls {before between after : List (Item N K)}
    (split : trace = before ++ .polled messages :: between ++ .requested seen request :: after) :
    endedIn before = prompts ++ handedIn before ∧
    endedIn between = messages ++ handedIn between := by
  have first : endedIn before = prompts ++ handedIn before :=
    spec before (.polled messages) (between ++ .requested seen request :: after) (by simp [split])
  have last := (spec _ _ _ split).1
  refine ⟨first, ?_⟩
  rw [endedIn_append, handedIn_append, first, ← List.append_assoc prompts] at last
  exact List.append_cancel_left last

theorem TraceSpec.results {before between after : List (Item N K)}
    {m : AssistantMessage N} {toolResults : List (ToolResultMessage N)}
    (split : trace = before ++ .event (.turnEnd m toolResults) :: between ++
      .requested seen request :: after)
    (unaborted : .aborted ∉ before) (kept : ∀ context, .updated context ∉ between) :
    toolResults.map (·.toolCallId) = m.toolCalls.map (·.id) ∧
    ∃ earlier, seen =
      earlier ++ .assistant m :: toolResults.map .toolResult ++ endedIn between := by
  obtain ⟨-, ⟨earlier, eq⟩, answered⟩ := spec before (.event (.turnEnd m toolResults))
    (between ++ .requested seen request :: after) (by simp [split])
  obtain ⟨-, rfl, fine⟩ := spec _ _ _ split
  refine ⟨answered (fine m toolResults (by simp)) unaborted, earlier, ?_⟩
  rw [contextAfter_append, eq]
  exact contextAfter_kept kept _

end

/-- Every run of the loop whose hooks do not throw and whose streams are well formed. -/
theorem runAgentLoop_spec {run : LoopRun N K} (reached : OrderlyRun prompts context config run) :
    RunSpec prompts context.messages run.trace := by
  have told := (told_inductive.reached reached).2
  refine ⟨?_, ⟨_, told.turns⟩, fun _ _ _ => told.spec.ending, fun _ _ _ _ _ _ => told.spec.polls,
    fun _ _ _ _ _ _ _ => told.spec.results⟩
  obtain ⟨unclosed, bracketed, are⟩ := told.brackets
  refine ⟨unclosed, bracketed, ?_⟩
  unfold Conversation.Unclosed at are
  split at are
  · obtain ⟨start, rfl⟩ := are
    exact Nat.le_refl 1
  · rw [are]
    exact Nat.zero_le 1

end

def sampleCall : ToolCall Nat where
  id := "call"
  name := "read"
  arguments := .obj []
  thoughtSignature := none
  toolNamespace := none

def sampleResponse : AssistantMessage Nat where
  api := "api"
  provider := "provider"
  model := "model"
  responseModel := none
  responseId := none
  providerThinkingLevel := none
  diagnostics := none
  usage := .null
  stopReason := .toolUse
  deferred := none
  errorMessage := none
  rawStopReason := none
  endTurn := none
  timestamp := 0
  content := [.toolCall sampleCall]

def samplePrompt : AgentMessage Nat Empty where
  origin := .prompt
  body := .message (.user ⟨.text [], 0⟩)

def sampleContext : AgentContext Nat Empty where
  systemPrompt := ""
  messages := []
  tools := []

def sampleConfig : AgentLoopConfig where
  model := { id := "model", api := "api", provider := "provider", input := [] }
  reasoning := none
  apiKey := none
  toolExecution := none

/-- A request after hooks that change nothing. -/
def sampleRequest : List (Input Nat Empty) :=
  [.transformed (.ok []), .converted (.ok []), .keyResolved (.ok none)]

/-- A turn with one tool call, and the next request after this answer of `prepareNextTurn`. -/
def sampleInputs (update : Option (AgentLoopTurnUpdate Nat Empty)) : List (Input Nat Empty) :=
  .polled [] :: sampleRequest ++
    [.responded (.ok ()), .streamEnded sampleResponse, .proceed 0, .proceed 0, .proceed 0,
      .proceed 0, .proceed 0, .stopDecided (.ok false), .polled [], .prepared (.ok update),
      .polled []] ++ sampleRequest

def sampleRun (update : Option (AgentLoopTurnUpdate Nat Empty)) : Option (LoopRun Nat Empty) :=
  (loopMachine [samplePrompt] sampleContext sampleConfig).exec
    (fun run input => orderly run.state input = true)
    { state := (runAgentLoop [samplePrompt] sampleContext sampleConfig).1
      trace := (runAgentLoop [samplePrompt] sampleContext sampleConfig).2 }
    (sampleInputs update)

theorem sampleRun_isSome (update : Option (AgentLoopTurnUpdate Nat Empty)) :
    (sampleRun update).isSome = true := by
  cases update <;> rfl

def sample (update : Option (AgentLoopTurnUpdate Nat Empty)) : LoopRun Nat Empty :=
  (sampleRun update).get (sampleRun_isSome update)

theorem sample_reached (update : Option (AgentLoopTurnUpdate Nat Empty)) :
    OrderlyRun [samplePrompt] sampleContext sampleConfig (sample update) := by
  have started : OrderlyRun [samplePrompt] sampleContext sampleConfig
      { state := (runAgentLoop [samplePrompt] sampleContext sampleConfig).1
        trace := (runAgentLoop [samplePrompt] sampleContext sampleConfig).2 } := .start rfl
  exact started.exec (Option.some_get (sampleRun_isSome update)).symm

theorem runAgentLoop_spec_sample :
    (endedIn (sample none).trace).length = 3 ∧ RunSpec [samplePrompt] [] (sample none).trace :=
  ⟨rfl, runAgentLoop_spec (sample_reached none)⟩

def Item.isAborted : Item N K → Bool
  | .aborted => true
  | _ => false

/-- The request after a turn with a tool call sees no message when `prepareNextTurn` answers an
empty context. -/
theorem results_replaced :
    ∃ run before m toolResults between seen request,
      OrderlyRun [samplePrompt] sampleContext sampleConfig run ∧
      run.trace = before ++ .event (.turnEnd m toolResults) :: between ++
        [.requested seen request] ∧ m.toolCalls ≠ [] ∧ .aborted ∉ run.trace ∧ seen = [] := by
  let run := sample (some ⟨some sampleContext, none, none⟩)
  have unaborted : run.trace.all (fun item => !item.isAborted) = true := by decide
  refine ⟨run, run.trace.take 12, sampleResponse, _, (run.trace.drop 13).take 4, _, _,
    sample_reached _, rfl, by decide, fun inside => ?_, rfl⟩
  exact absurd (List.all_eq_true.mp unaborted _ inside) (by decide)

end Trpi.Agent
