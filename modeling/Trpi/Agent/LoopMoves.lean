import Trpi.Agent.LoopTrace

/-!
# The conversation of a loop

What a run of the loop does to a conversation: messages go in and end, the context grows or is
replaced, requests are made and turns are closed. The trace of any sequence of such moves is as
it should be.
-/

namespace Trpi.Agent

open Library Ai List

variable {N K : Type}

/-- `closed` says whether the last response failed. -/
inductive Phase (N : Type) where
  | opened
  | responding
  | working (message : AssistantMessage N) (toolResults : List (ToolResultMessage N))
  | closed (failed : Bool)
  | finished

structure Conversation (N K : Type) where
  context : List (AgentMessage N K)
  ended : List (AgentMessage N K)
  pending : List (AgentMessage N K)
  aborted : Bool
  phase : Phase N

namespace Conversation

/-- The messages of the turn so far that ended. -/
def current (talk : Conversation N K) : List (AgentMessage N K) :=
  match talk.phase with
  | .working message toolResults => .assistant message :: toolResults.map .toolResult
  | _ => []

/-- The response has started and has not ended. -/
def Unclosed (talk : Conversation N K) (unclosed : List (AgentMessage N K)) : Prop :=
  match talk.phase with
  | .responding => ∃ start, unclosed = [.assistant start]
  | _ => unclosed = []

def inTurn (talk : Conversation N K) : Bool :=
  match talk.phase with
  | .closed _ => false
  | .finished => false
  | _ => true

def add (talk : Conversation N K) (message : AgentMessage N K) (phase : Phase N) :
    Conversation N K :=
  { talk with context := talk.context ++ [message], ended := talk.ended ++ [message], phase }

end Conversation

inductive Move : Conversation N K → List (Item N K) → Conversation N K → Prop where
  | abort (talk : Conversation N K) : Move talk [.aborted] { talk with aborted := true }
  | poll {talk : Conversation N K} (messages : List (AgentMessage N K))
      (waits : talk.phase = .opened ∨ talk.phase = .closed false) (none : talk.pending = []) :
      Move talk [.polled messages] { talk with pending := messages }
  | update {talk : Conversation N K} (context : AgentContext N K)
      (closed : talk.phase = .closed false) :
      Move talk [.updated context] { talk with context := context.messages }
  | startTurn {talk : Conversation N K} (closed : talk.phase = .closed false) :
      Move talk [.event .turnStart] { talk with phase := .opened }
  | inject {talk : Conversation N K} {message : AgentMessage N K} {rest : List (AgentMessage N K)}
      (opened : talk.phase = .opened) (next : talk.pending = message :: rest) :
      Move talk (announce message) { talk.add message .opened with pending := rest }
  | request {talk : Conversation N K} (request : Request N) (opened : talk.phase = .opened)
      (none : talk.pending = []) : Move talk [.requested talk.context request] talk
  | respond {talk : Conversation N K} (start : AssistantMessage N) (opened : talk.phase = .opened)
      (none : talk.pending = []) :
      Move talk [.event (.messageStart (.assistant start))] { talk with phase := .responding }
  | amend {talk : Conversation N K} (message : AssistantMessage N)
      (event : AssistantMessageEvent N) (responding : talk.phase = .responding) :
      Move talk [.event (.messageUpdate (.assistant message) event)] talk
  | response {talk : Conversation N K} (message : AssistantMessage N)
      (responding : talk.phase = .responding) (none : talk.pending = []) :
      Move talk [.event (.messageEnd (.assistant message))]
        (talk.add (.assistant message) (.working message []))
  | toolStart {talk : Conversation N K} {message : AssistantMessage N}
      {toolResults : List (ToolResultMessage N)} (toolCall : ToolCall N)
      (working : talk.phase = .working message toolResults) :
      Move talk [emitToolExecutionStart toolCall] talk
  | toolUpdate {talk : Conversation N K} {message : AssistantMessage N}
      {toolResults : List (ToolResultMessage N)} (id name : String) (args : Json N)
      (result : AgentToolResult N) (working : talk.phase = .working message toolResults) :
      Move talk [.event (.toolExecutionUpdate id name args result)] talk
  | toolEnd {talk : Conversation N K} {message : AssistantMessage N}
      {toolResults : List (ToolResultMessage N)} (finalized : FinalizedToolCallOutcome N)
      (working : talk.phase = .working message toolResults) :
      Move talk [emitToolExecutionEnd finalized] talk
  | result {talk : Conversation N K} {message : AssistantMessage N}
      {toolResults : List (ToolResultMessage N)} (toolResult : ToolResultMessage N)
      (working : talk.phase = .working message toolResults) (none : talk.pending = []) :
      Move talk (emitToolResultMessage toolResult)
        (talk.add (.toolResult toolResult) (.working message (toolResults ++ [toolResult])))
  | close {talk : Conversation N K} {message : AssistantMessage N}
      {toolResults : List (ToolResultMessage N)} (working : talk.phase = .working message toolResults)
      (none : talk.pending = [])
      (answered : message.failed = false → talk.aborted = false →
        toolResults.map (·.toolCallId) = message.toolCalls.map (·.id)) :
      Move talk [.event (.turnEnd message toolResults)]
        { talk with phase := .closed message.failed }
  | finish {talk : Conversation N K} {failed : Bool} (closed : talk.phase = .closed failed)
      (none : talk.pending = []) :
      Move talk [.event (.agentEnd talk.ended)] { talk with phase := .finished }

/-- Moves one after the other. -/
inductive Moves : Conversation N K → List (Item N K) → Conversation N K → Prop where
  | done (talk : Conversation N K) : Moves talk [] talk
  | step {talk between last : Conversation N K} {items rest : List (Item N K)}
      (move : Move talk items between) (moves : Moves between rest last) :
      Moves talk (items ++ rest) last

section

variable {talk next : Conversation N K} {items : List (Item N K)} {marks : List (Mark N K)}

theorem Move.ended (move : Move talk items next) : next.ended = talk.ended ++ endedIn items := by
  cases move <;>
    simp [endedIn, Conversation.add, announce, emitToolExecutionStart, emitToolExecutionEnd,
      emitToolResultMessage]

theorem Move.context (move : Move talk items next) :
    next.context = contextAfter talk.context items := by
  cases move <;>
    simp [contextAfter, Conversation.add, announce, emitToolExecutionStart, emitToolExecutionEnd,
      emitToolResultMessage]

theorem Move.handed {before : List (AgentMessage N K)} (move : Move talk items next)
    (handed : before ++ talk.current = talk.ended ++ talk.pending) :
    before ++ handedIn items ++ next.current = next.ended ++ next.pending := by
  cases move with
  | poll messages waits none =>
    rcases waits with phase | phase <;> simp_all [handedIn, Conversation.current]
  | result toolResult working none =>
    have all : before ++ talk.current = talk.ended := by rw [handed, none, append_nil]
    simp [← all, working, none, handedIn, Conversation.current, Conversation.add,
      emitToolResultMessage, announce]
  | _ =>
    simp_all [handedIn, Conversation.current, Conversation.add, announce, emitToolExecutionStart,
      emitToolExecutionEnd]

theorem Move.aborted (move : Move talk items next) :
    next.aborted = true → talk.aborted = true ∨ .aborted ∈ items := by
  cases move <;> simp [Conversation.add] <;> exact Or.inl

theorem Bracketed.announce (bracketed : Bracketed marks [])
    (m : AgentMessage N K) : Bracketed (marks ++ [.start m, .stop m]) [] := by
  obtain ⟨pairs, same, eq⟩ := bracketed
  refine ⟨pairs ++ [(m, m)], fun pair inside => ?_, by simp [eq]⟩
  rcases mem_append.mp inside with earlier | last
  · exact same pair earlier
  · rw [mem_singleton.mp last]
    exact Or.inl rfl

theorem Bracketed.close {start : AgentMessage N K} (bracketed : Bracketed marks [start])
    {m : AgentMessage N K} (same : SameMessage start m) : Bracketed (marks ++ [.stop m]) [] := by
  obtain ⟨pairs, all, eq⟩ := bracketed
  refine ⟨pairs ++ [(start, m)], fun pair inside => ?_, by simp [eq]⟩
  rcases mem_append.mp inside with earlier | last
  · exact all pair earlier
  · rwa [mem_singleton.mp last]

theorem Bracketed.open (bracketed : Bracketed marks [])
    (m : AgentMessage N K) : Bracketed (marks ++ [.start m]) [m] := by
  obtain ⟨pairs, all, eq⟩ := bracketed
  exact ⟨pairs, all, by simp [eq]⟩

theorem Move.bracketed (move : Move talk items next)
    (bracketed : ∃ unclosed, Bracketed marks unclosed ∧ talk.Unclosed unclosed) :
    ∃ unclosed, Bracketed (marks ++ messageMarks items) unclosed ∧ next.Unclosed unclosed := by
  obtain ⟨unclosed, bracketed, are⟩ := bracketed
  cases move with
  | inject opened _ =>
    rw [Conversation.Unclosed, opened] at are
    cases are
    exact ⟨[], bracketed.announce _, rfl⟩
  | result toolResult working none =>
    rw [Conversation.Unclosed, working] at are
    cases are
    exact ⟨[], bracketed.announce _, rfl⟩
  | respond start opened none =>
    rw [Conversation.Unclosed, opened] at are
    cases are
    exact ⟨_, bracketed.open _, start, rfl⟩
  | response m responding none =>
    rw [Conversation.Unclosed, responding] at are
    obtain ⟨start, rfl⟩ := are
    exact ⟨[], bracketed.close (Or.inr ⟨rfl, rfl⟩), rfl⟩
  | _ =>
    refine ⟨unclosed, ?_, ?_⟩
    · simpa [messageMarks, emitToolExecutionStart, emitToolExecutionEnd] using bracketed
    · simp_all [Conversation.Unclosed]

theorem Move.alternating {marks : List Bool} (move : Move talk items next)
    (alternating : Alternating marks talk.inTurn) :
    Alternating (marks ++ turnMarks items) next.inTurn := by
  obtain ⟨turns, eq⟩ := alternating
  cases move with
  | abort => exact ⟨turns, (append_nil marks).trans eq⟩
  | poll => exact ⟨turns, (append_nil marks).trans eq⟩
  | startTurn closed => exact ⟨turns, by simp [eq, turnMarks, Conversation.inTurn, closed]⟩
  | close working none answered =>
    refine ⟨turns + 1, ?_⟩
    rw [replicate_succ', flatten_append]
    simp [eq, turnMarks, Conversation.inTurn, working]
  | _ =>
    refine ⟨turns, ?_⟩
    simp_all [turnMarks, Conversation.inTurn, Conversation.add, announce, emitToolExecutionStart,
      emitToolExecutionEnd, emitToolResultMessage]

/-- What a trace tells of the conversation that it led to. -/
structure Told (prompts context : List (AgentMessage N K)) (talk : Conversation N K)
    (trace : List (Item N K)) : Prop where
  spec : TraceSpec prompts context trace
  ended : endedIn trace = talk.ended
  context : contextAfter context trace = talk.context
  handed : prompts ++ handedIn trace ++ talk.current = talk.ended ++ talk.pending
  brackets : ∃ unclosed, Bracketed (messageMarks trace) unclosed ∧ talk.Unclosed unclosed
  turns : Alternating (turnMarks trace) talk.inTurn
  aborted : talk.aborted = true → .aborted ∈ trace
  working : ∀ message toolResults, talk.phase = .working message toolResults →
    ∃ earlier, talk.context = earlier ++ .assistant message :: toolResults.map .toolResult
  finished : ∀ messages, .event (.agentEnd messages) ∈ trace → talk.phase = .finished
  failed : ∀ message toolResults, .event (.turnEnd message toolResults) ∈ trace →
    message.failed = true → talk.phase = .closed true ∨ talk.phase = .finished

variable {prompts context : List (AgentMessage N K)} {trace : List (Item N K)}

theorem Move.working (move : Move talk items next)
    (working : ∀ m toolResults, talk.phase = .working m toolResults →
      ∃ earlier, talk.context = earlier ++ .assistant m :: toolResults.map .toolResult) :
    ∀ m toolResults, next.phase = .working m toolResults →
      ∃ earlier, next.context = earlier ++ .assistant m :: toolResults.map .toolResult := by
  intro m toolResults phase
  cases move with
  | abort => exact working _ _ phase
  | poll => exact working _ _ phase
  | request => exact working _ _ phase
  | amend => exact working _ _ phase
  | toolStart => exact working _ _ phase
  | toolUpdate => exact working _ _ phase
  | toolEnd => exact working _ _ phase
  | response response responding none =>
    cases phase
    exact ⟨talk.context, rfl⟩
  | result toolResult during none =>
    cases phase
    obtain ⟨earlier, eq⟩ := working _ _ during
    exact ⟨earlier, by simp [Conversation.add, eq]⟩
  | update _ closed => exact absurd (closed.symm.trans phase) (by simp)
  | startTurn => cases phase
  | inject => cases phase
  | respond => cases phase
  | close => cases phase
  | finish => cases phase

theorem Move.after_failed (move : Move talk items next) (phase : talk.phase = .closed true) :
    next.phase = .closed true ∨ next.phase = .finished := by
  cases move with
  | abort => exact Or.inl phase
  | finish => exact Or.inr rfl
  | poll messages waits none => exact absurd waits (by simp [phase])
  | _ => simp_all

section

variable (told : Told prompts context talk trace)

include told

theorem Told.not_ended (phase : talk.phase ≠ .finished) :
    ∀ messages, .event (.agentEnd messages) ∉ trace :=
  fun messages inside => phase (told.finished messages inside)

theorem Told.all_ended (none : talk.pending = [])
    (current : talk.current = []) : endedIn trace = prompts ++ handedIn trace := by
  have handed := told.handed
  rw [none, current, append_nil, append_nil] at handed
  rw [told.ended, handed]

theorem Told.announced (phase : talk.phase ≠ .finished)
    (m : AgentMessage N K) : TraceSpec prompts context (trace ++ announce m) := by
  have first : TraceSpec prompts context (trace ++ [.event (.messageStart m)]) :=
    told.spec.concat ⟨told.not_ended phase, trivial⟩
  have second : TraceSpec prompts context
      (trace ++ [.event (.messageStart m)] ++ [.event (.messageEnd m)]) :=
    first.concat ⟨by simpa using told.not_ended phase, trivial⟩
  rwa [append_assoc] at second

theorem Told.move_spec (move : Move talk items next) :
    TraceSpec prompts context (trace ++ items) := by
  cases move with
  | abort => exact told.spec.concat trivial
  | poll messages waits none =>
    refine told.spec.concat (told.all_ended none ?_)
    rcases waits with phase | phase <;> simp [Conversation.current, phase]
  | update => exact told.spec.concat trivial
  | startTurn closed => exact told.spec.concat ⟨told.not_ended (by simp [closed]), trivial⟩
  | inject opened => exact told.announced (by simp [opened]) _
  | request request opened none =>
    refine told.spec.concat ⟨told.all_ended none (by simp [Conversation.current, opened]),
      told.context.symm, fun m toolResults inside => ?_⟩
    by_contra failed
    have phase := told.failed m toolResults inside (by simpa using failed)
    simp [opened] at phase
  | respond start opened => exact told.spec.concat ⟨told.not_ended (by simp [opened]), trivial⟩
  | amend m ev responding =>
    exact told.spec.concat ⟨told.not_ended (by simp [responding]), trivial⟩
  | response m responding =>
    exact told.spec.concat ⟨told.not_ended (by simp [responding]), trivial⟩
  | toolStart toolCall working =>
    exact told.spec.concat ⟨told.not_ended (by simp [working]), trivial⟩
  | toolUpdate id name args result working =>
    exact told.spec.concat ⟨told.not_ended (by simp [working]), trivial⟩
  | toolEnd finalized working =>
    exact told.spec.concat ⟨told.not_ended (by simp [working]), trivial⟩
  | result toolResult working => exact told.announced (by simp [working]) _
  | close working none answered =>
    refine told.spec.concat ⟨told.not_ended (by simp [working]), ?_, fun fine unaborted => ?_⟩
    · rw [told.context]
      exact told.working _ _ working
    · exact answered fine (by simpa using mt told.aborted unaborted)
  | finish closed none =>
    refine told.spec.concat ⟨told.not_ended (by simp [closed]), told.ended.symm,
      told.all_ended none (by simp [Conversation.current, closed]), ?_, ?_⟩
    · obtain ⟨unclosed, bracketed, are⟩ := told.brackets
      rw [Conversation.Unclosed, closed] at are
      rwa [are] at bracketed
    · simpa [Conversation.inTurn, closed] using told.turns

theorem Told.move (move : Move talk items next) : Told prompts context next (trace ++ items) where
  spec := told.move_spec move
  ended := by rw [endedIn_append, told.ended, move.ended]
  context := by rw [contextAfter_append, told.context, move.context]
  handed := by
    rw [handedIn_append, ← append_assoc prompts]
    exact move.handed told.handed
  brackets := by
    rw [messageMarks_append]
    exact move.bracketed told.brackets
  turns := by
    rw [turnMarks_append]
    exact move.alternating told.turns
  aborted aborted := by
    rcases move.aborted aborted with earlier | now
    · exact mem_append_left _ (told.aborted earlier)
    · exact mem_append_right _ now
  working := move.working told.working
  finished messages inside := by
    rcases mem_append.mp inside with earlier | now
    · have phase := told.finished messages earlier
      cases move with
      | abort => exact phase
      | _ => simp_all
    · cases move <;>
        simp_all [announce, emitToolExecutionStart, emitToolExecutionEnd, emitToolResultMessage]
  failed m toolResults inside failed := by
    rcases mem_append.mp inside with earlier | now
    · rcases told.failed m toolResults earlier failed with phase | phase
      · exact move.after_failed phase
      · cases move with
        | abort => exact Or.inr phase
        | _ => simp_all
    · cases move <;>
        simp_all [announce, emitToolExecutionStart, emitToolExecutionEnd, emitToolResultMessage]

theorem Told.moves {last : Conversation N K}
    (moves : Moves talk items last) : Told prompts context last (trace ++ items) := by
  induction moves generalizing trace with
  | done => rwa [append_nil]
  | step move _ ih =>
    rw [← append_assoc]
    exact ih (told.move move)

end

end

end Trpi.Agent
