import Trpi.Agent.LoopMoves

/-!
# The loop moves its conversation

Every step of the loop is a sequence of moves of the conversation that its state stands for, as
long as no hook throws and response streams start at most once.
-/

namespace Trpi.Agent

open Library Ai List Option

variable {N K : Type} {items : List (Item N K)}

def Batch.messages : Batch N → List (ToolResultMessage N)
  | .truncated messages _ => messages
  | .sequential _ messages _ => messages
  | .sequentialAsked _ messages _ _ => messages
  | .sequentialCall _ messages _ _ => messages
  | .preflight _ _ => []
  | .preflightAsked _ _ _ => []
  | .running _ => []
  | .reporting _ messages _ => messages

/-- The ids of the calls that have a result or will have one, if the batch is not aborted. -/
def Batch.ids : Batch N → List String
  | .truncated messages toolCalls => messages.map (·.toolCallId) ++ toolCalls.map (·.id)
  | .sequential _ messages toolCalls => messages.map (·.toolCallId) ++ toolCalls.map (·.id)
  | .sequentialAsked _ messages toolCall toolCalls =>
    messages.map (·.toolCallId) ++ toolCall.id :: toolCalls.map (·.id)
  | .sequentialCall _ messages entry toolCalls =>
    messages.map (·.toolCallId) ++ entry.toolCall.id :: toolCalls.map (·.id)
  | .preflight entries toolCalls => entries.map (·.toolCall.id) ++ toolCalls.map (·.id)
  | .preflightAsked entries toolCall toolCalls =>
    entries.map (·.toolCall.id) ++ toolCall.id :: toolCalls.map (·.id)
  | .running entries => entries.map (·.toolCall.id)
  | .reporting _ messages rest => messages.map (·.toolCallId) ++ rest.map (·.toolCall.id)

/-- One turn is over and the next has not started. -/
def Control.betweenTurns : Control N K → Bool
  | .preparing => true
  | .repolling => true
  | .stopping _ => true
  | .turnPolling _ => true
  | .followUpPolling => true
  | _ => false

namespace LoopState

/-- The conversation of a state without a partial message and results of the turn. -/
def plain (s : LoopState N K) (phase : Phase N) : Conversation N K where
  context := s.currentContext.messages
  ended := s.newMessages
  pending := s.pendingMessages
  aborted := s.aborted
  phase

def responding (s : LoopState N K) : Conversation N K :=
  { s.plain .responding with context := s.currentContext.messages.dropLast }

def working (s : LoopState N K) (m : AssistantMessage N)
    (messages : List (ToolResultMessage N)) : Conversation N K :=
  { s.plain (.working m messages) with
    context := s.currentContext.messages ++ messages.map .toolResult
    ended := s.newMessages ++ messages.map .toolResult }

def conversation (s : LoopState N K) : Conversation N K :=
  match s.control with
  | .polling => s.plain .opened
  | .preparing => s.plain (.closed false)
  | .repolling => s.plain (.closed false)
  | .transforming => s.plain .opened
  | .converting _ => s.plain .opened
  | .resolvingKey _ => s.plain .opened
  | .requesting => s.plain .opened
  | .streaming none => s.plain .opened
  | .streaming (some _) => s.responding
  | .tools m batch => s.working m batch.messages
  | .stopping _ => s.plain (.closed false)
  | .turnPolling _ => s.plain (.closed false)
  | .followUpPolling => s.plain (.closed false)
  | .ended => s.plain .finished
  | .failed _ => s.plain .finished

/-- What holds of a state at every question. -/
structure Proper (s : LoopState N K) : Prop where
  pending : s.control ≠ .preparing → s.pendingMessages = []
  first : s.control = .polling → s.lastCompletedTurn = none
  later : s.control.betweenTurns = true → s.lastCompletedTurn.isSome = true
  batch : ∀ m batch, s.control = .tools m batch → m.failed = false ∧
    (s.aborted = false → batch.ids = m.toolCalls.map (·.id))

end LoopState

def Control.awaitsStart : Control N K → Bool
  | .streaming none => true
  | _ => false

/-- No hook throws, no stream breaks off and none starts twice. -/
def orderly (s : LoopState N K) : Input N K → Bool
  | .prepared answer => answer.isOk
  | .transformed answer => answer.isOk
  | .converted answer => answer.isOk
  | .keyResolved answer => answer.isOk
  | .responded answer => answer.isOk
  | .stopDecided answer => answer.isOk
  | .streamed .start _ => s.control.awaitsStart
  | .streamThrew _ => false
  | _ => true

/-- Moves lead to the conversation of the next state. -/
def Moved (talk : Conversation N K) (result : LoopState N K × List (Item N K)) : Prop :=
  Moves talk result.2 result.1.conversation ∧ result.1.Proper

theorem Moved.step {talk between : Conversation N K} {next : LoopState N K} {rest : List (Item N K)}
    (move : Move talk items between) (moved : Moved between (next, rest)) :
    Moved talk (next, items ++ rest) :=
  ⟨.step move moved.1, moved.2⟩

theorem Moves.one {talk next : Conversation N K}
    (move : Move talk items next) : Moves talk items next := by
  have moves := Moves.step move (.done next)
  rwa [append_nil] at moves

namespace LoopState

variable {s : LoopState N K} {control : Control N K} {phase : Phase N}

theorem inject_moves (context ended pending : List (AgentMessage N K)) (aborted : Bool) :
    Moves { context, ended, pending, aborted, phase := .opened } (pending.flatMap announce)
      { context := context ++ pending, ended := ended ++ pending, pending := [], aborted,
        phase := .opened } := by
  induction pending generalizing context ended with
  | nil =>
    rw [append_nil, append_nil]
    exact .done _
  | cons m rest ih =>
    have moves := ih (context ++ [m]) (ended ++ [m])
    rw [append_assoc, append_assoc] at moves
    exact .step (.inject rfl rfl) moves

theorem injectPending_moved (s : LoopState N K) : Moved (s.plain .opened) s.injectPending := by
  refine ⟨inject_moves _ _ _ _, ?_⟩
  constructor <;> simp [injectPending, Control.betweenTurns]

theorem startTurn_moved (s : LoopState N K) :
    Moved (s.plain (.closed false)) s.startTurn :=
  .step (.startTurn rfl) s.injectPending_moved

theorem goTo_proper (none : s.pendingMessages = []) (first : control ≠ .polling)
    (later : control.betweenTurns = true → s.lastCompletedTurn.isSome = true)
    (tools : ∀ m batch, control ≠ .tools m batch) : (s.goTo control).1.Proper where
  pending _ := none
  first polling := absurd polling first
  later := later
  batch m batch eq := absurd eq (tools m batch)

theorem enterTurn_moved (later : s.lastCompletedTurn.isSome = true) :
    Moved (s.plain (.closed false)) s.enterTurn := by
  rw [enterTurn, if_pos later]
  refine ⟨.done _, ?_⟩
  constructor <;> simp [goTo, later]

theorem enterTurn_first (first : s.lastCompletedTurn = none) :
    Moved (s.plain .opened) s.enterTurn := by
  rw [enterTurn, if_neg (by simp [first])]
  exact s.injectPending_moved

theorem afterPreparation_moved (later : s.lastCompletedTurn.isSome = true) :
    Moved (s.plain (.closed false)) s.afterPreparation := by
  rw [afterPreparation]
  split
  · rename_i none
    exact ⟨.done _, goTo_proper (isEmpty_iff.mp none) (by simp) (fun _ => later) (by simp)⟩
  · exact s.startTurn_moved

theorem prepareNextTurn_moved (later : s.lastCompletedTurn.isSome = true)
    (update : Option (AgentLoopTurnUpdate N K)) :
    Moved (s.plain (.closed false)) (s.prepareNextTurn update) := by
  cases update with
  | none => exact afterPreparation_moved later
  | some update =>
    have moved : Moved ((s.applyUpdate update).plain (.closed false))
        (s.applyUpdate update).afterPreparation := afterPreparation_moved later
    cases context : update.context with
    | none =>
      have same : (s.applyUpdate update).plain (.closed false) = s.plain (.closed false) := by
        simp [applyUpdate, plain, context]
      rw [same] at moved
      simp only [prepareNextTurn, context]
      exact moved
    | some replacement =>
      have same : (s.applyUpdate update).plain (.closed false) =
          { s.plain (.closed false) with context := replacement.messages } := by
        simp [applyUpdate, plain, context]
      rw [same] at moved
      simp only [prepareNextTurn, context]
      exact .step (.update replacement rfl) moved

theorem finish_moved {failed : Bool} (none : s.pendingMessages = []) :
    Moved (s.plain (.closed failed)) s.finish := by
  refine ⟨.one (.finish rfl none), ?_⟩
  constructor <;> simp [finish, none, Control.betweenTurns]

theorem polled_moved {next : LoopState N K → LoopState N K × List (Item N K)}
    (waits : phase = .opened ∨ phase = .closed false) (none : s.pendingMessages = [])
    {messages : List (AgentMessage N K)}
    (moved : Moved ({ s with pendingMessages := messages }.plain phase)
      (next { s with pendingMessages := messages })) :
    Moved (s.plain phase) (s.polled messages next) :=
  .step (.poll messages waits none) moved

theorem afterTurn_moved (s : LoopState N K) (later : s.lastCompletedTurn.isSome = true) (hasMoreToolCalls : Bool) :
    Moved (s.plain (.closed false)) (s.afterTurn hasMoreToolCalls) := by
  rw [afterTurn]
  split
  · exact enterTurn_moved later
  · rename_i stops
    refine ⟨.done _, goTo_proper ?_ (by simp) (fun _ => later) (by simp)⟩
    by_contra some
    exact stops (Or.inr some)

theorem afterFollowUps_moved (s : LoopState N K) (later : s.lastCompletedTurn.isSome = true) :
    Moved (s.plain (.closed false)) s.afterFollowUps := by
  rw [afterFollowUps]
  split
  · exact enterTurn_moved later
  · rename_i none
    exact finish_moved (not_not.mp none)

variable {m : AssistantMessage N} {input : Input N K} {result : LoopState N K × List (Item N K)}
  {talk : Conversation N K} {items : List (Item N K)} {batch : Batch N}

theorem finishTurn_moved (none : s.pendingMessages = []) (fine : m.failed = false)
    {messages : List (ToolResultMessage N)}
    (answered : s.aborted = false → messages.map (·.toolCallId) = m.toolCalls.map (·.id))
    (hasMoreToolCalls : Bool) :
    Moved (s.working m messages) (s.finishTurn m messages hasMoreToolCalls) := by
  have close : Move (s.working m messages) [.event (.turnEnd m messages)] _ :=
    .close rfl none fun _ => answered
  rw [fine] at close
  refine ⟨.one close, ?_⟩
  constructor <;> simp [finishTurn, none]

theorem goOn_moved (none : s.pendingMessages = []) (fine : m.failed = false)
    (covered : s.aborted = false → batch.ids = m.toolCalls.map (·.id))
    (moves : Moves talk items (s.working m batch.messages)) :
    Moved talk (s.goOn m batch items) := by
  refine ⟨moves, fun _ => none, by simp [goOn], by simp [goOn, Control.betweenTurns], ?_⟩
  rintro _ _ ⟨⟩
  exact ⟨fine, covered⟩

theorem executeToolCalls_ids (s : LoopState N K) (toolCalls : List (ToolCall N)) :
    (s.executeToolCalls toolCalls).ids = toolCalls.map (·.id) ∧
    (s.executeToolCalls toolCalls).messages = [] := by
  rw [executeToolCalls]
  split
  · exact ⟨rfl, rfl⟩
  · exact ⟨rfl, rfl⟩

theorem working_nil (m : AssistantMessage N) : s.working m [] = s.plain (.working m []) := by
  simp [working, plain]

theorem afterResponse_moved (s : LoopState N K) (none : s.pendingMessages = []) (m : AssistantMessage N) :
    Moved (s.working m []) (s.afterResponse m) := by
  rw [afterResponse]
  split
  · rename_i failed
    rw [working_nil]
    have close : Move (s.plain (.working m [])) [.event (.turnEnd m [])] _ :=
      .close rfl none fun fine => absurd failed (by simp [fine])
    have moved : Moved (s.plain (.closed m.failed)) s.finish := finish_moved none
    exact .step close moved
  · rename_i fine
    have fine : m.failed = false := by simpa using fine
    split
    · rename_i calls
      refine finishTurn_moved none fine (fun _ => ?_) false
      rw [isEmpty_iff.mp calls]
      rfl
    · split
      · exact goOn_moved none fine (fun _ => rfl) (.done _)
      · obtain ⟨ids, messages⟩ := executeToolCalls_ids s m.toolCalls
        refine goOn_moved none fine (fun _ => ids) ?_
        rw [messages]
        exact .done _

theorem finishResponse_started (empty : s.pendingMessages = [])
    (start m : AssistantMessage N) : Moved (s.responding) (s.finishResponse (some start) m) := by
  have response : Move (s.responding) [.event (.messageEnd (.assistant m))] _ :=
    .response m rfl empty
  have moved := afterResponse_moved
    { s with
      currentContext := s.currentContext.setLast (.assistant m)
      newMessages := s.newMessages ++ [.assistant m] } empty m
  rw [working_nil] at moved
  have whole := Moved.step response moved
  exact whole

theorem finishResponse_moved (empty : s.pendingMessages = []) (m : AssistantMessage N) :
    Moved (s.plain .opened) (s.finishResponse none m) := by
  have respond : Move (s.plain .opened) [.event (.messageStart (.assistant m))] _ :=
    .respond m rfl empty
  have moved := afterResponse_moved
    { s with
      currentContext := s.currentContext.push [.assistant m]
      newMessages := s.newMessages ++ [.assistant m] } empty m
  rw [working_nil] at moved
  exact .step respond (.step (.response m rfl empty) moved)

theorem streamEvent_opened (proper : s.Proper) (control : s.control = .streaming none)
    (ev : AssistantMessageEvent N) (m : AssistantMessage N) :
    Moved (s.plain .opened) (s.streamEvent none ev m) := by
  have empty : s.pendingMessages = [] := proper.pending (by simp [control])
  have stays : Moved (s.plain .opened) (s, []) := by
    refine ⟨?_, proper⟩
    rw [conversation, control]
    exact .done _
  cases ev with
  | start =>
    have moves : Moves (s.plain .opened) [.event (.messageStart (.assistant m))]
        (LoopState.responding
          { s with currentContext := s.currentContext.push [.assistant m] }) := by
      have move : Move (s.plain .opened) [.event (.messageStart (.assistant m))] _ :=
        .respond m rfl empty
      simpa [responding, plain, AgentContext.push] using Moves.one move
    exact ⟨moves, fun _ => empty, by simp [streamEvent], by simp [streamEvent, Control.betweenTurns],
      by simp [streamEvent]⟩
  | done => exact finishResponse_moved empty m
  | error => exact finishResponse_moved empty m
  | _ => exact stays

theorem streamEvent_started (proper : s.Proper) {start : AssistantMessage N}
    (control : s.control = .streaming (some start)) {ev : AssistantMessageEvent N}
    (once : ev ≠ .start) (m : AssistantMessage N) :
    Moved (s.responding) (s.streamEvent (some start) ev m) := by
  have empty : s.pendingMessages = [] := proper.pending (by simp [control])
  have amended : Moved (s.responding)
      ({ s with
          currentContext := s.currentContext.setLast (.assistant m)
          control := .streaming (some m) },
        [.event (.messageUpdate (.assistant m) ev)]) := by
    have move : Move s.responding [.event (.messageUpdate (.assistant m) ev)] _ :=
      .amend m ev rfl
    refine ⟨?_, fun _ => empty, by simp, by simp [Control.betweenTurns], by simp⟩
    simpa [conversation, responding, plain, AgentContext.setLast] using Moves.one move
  cases ev with
  | start => exact absurd rfl once
  | done => exact finishResponse_started empty start m
  | error => exact finishResponse_started empty start m
  | _ => exact amended

theorem finalizeExecutedToolCall_toolCall (toolCall : ToolCall N) (result : AgentToolResult N)
    (isError : Bool) (answer : Except String (Option (AfterToolCallResult N))) :
    (finalizeExecutedToolCall toolCall result isError answer).toolCall = toolCall := by
  unfold finalizeExecutedToolCall
  split <;> rfl

theorem result_move (empty : s.pendingMessages = []) (m : AssistantMessage N)
    (messages : List (ToolResultMessage N)) (result : ToolResultMessage N) :
    Move (s.working m messages) (emitToolResultMessage result)
      (s.working m (messages ++ [result])) := by
  have move : Move (s.working m messages) (emitToolResultMessage result) _ :=
    .result result rfl empty
  simpa [Conversation.add, working, plain] using move

theorem stepEntry_moves {e : CallEntry N} {stage : CallStage N}
    (stepped : s.stepEntry e input = some (stage, items)) (m : AssistantMessage N)
    (messages : List (ToolResultMessage N)) :
    Moves (s.working m messages) items (s.working m messages) := by
  unfold stepEntry at stepped
  split at stepped
  · split at stepped
    · cases stepped
      exact .one (.toolEnd _ rfl)
    · cases stepped
      exact .done _
  · cases stepped
    exact .one (.toolUpdate _ _ _ _ rfl)
  · cases stepped
    exact .done _
  · cases stepped
    exact .one (.toolEnd _ rfl)
  · cases stepped

section

variable {m : AssistantMessage N} {messages : List (ToolResultMessage N)}

variable {toolCalls : List (ToolCall N)} {entries : List (CallEntry N)}

section

variable (empty : s.pendingMessages = [])

include empty

section

variable (fine : m.failed = false)

include fine

theorem failTruncated_moved
    (covered : s.aborted = false → (Batch.truncated messages toolCalls).ids =
      m.toolCalls.map (·.id)) (now : N) : Moved (s.working m messages)
      (s.failTruncated m messages toolCalls now) := by
  cases toolCalls with
  | nil =>
    refine finishTurn_moved empty fine (fun unaborted => ?_) true
    simpa [Batch.ids] using covered unaborted
  | cons toolCall toolCalls =>
    refine .step (.toolStart toolCall rfl) (.step (.toolEnd _ rfl) (goOn_moved empty fine ?_ (.one ?_)))
    · intro unaborted
      simpa [Batch.ids, createToolResultMessage] using covered unaborted
    · exact result_move empty m messages _

theorem reportSequential_moved (finalizedCalls : List (FinalizedToolCallOutcome N))
    {finalized : FinalizedToolCallOutcome N}
    (covered : s.aborted = false → messages.map (·.toolCallId) ++ finalized.toolCall.id ::
      toolCalls.map (·.id) = m.toolCalls.map (·.id)) (now : N) :
    Moved (s.working m messages)
      (s.reportSequential m finalizedCalls messages finalized toolCalls now) := by
  refine .step (.toolEnd finalized rfl) (goOn_moved empty fine (fun unaborted => ?_) (.one ?_))
  · simpa [Batch.ids, createToolResultMessage] using covered unaborted
  · exact result_move empty m messages _

theorem nextSequential_moved (finalizedCalls : List (FinalizedToolCallOutcome N))
    (covered : s.aborted = false → (Batch.sequential finalizedCalls messages toolCalls).ids =
      m.toolCalls.map (·.id)) (now : N) : Moved (s.working m messages)
      (s.nextSequential m finalizedCalls messages toolCalls now) := by
  cases toolCalls with
  | nil =>
    refine finishTurn_moved empty fine (fun unaborted => ?_) _
    simpa [Batch.ids] using covered unaborted
  | cons toolCall toolCalls =>
    rw [nextSequential]
    split
    · rename_i stops
      exact finishTurn_moved empty fine (fun unaborted => absurd stops.1 (by simp [unaborted])) _
    · split
      · exact .step (.toolStart toolCall rfl)
          (goOn_moved empty fine (fun unaborted => by simpa [Batch.ids] using covered unaborted)
            (.done _))
      · exact .step (.toolStart toolCall rfl) (reportSequential_moved empty fine finalizedCalls
          (fun unaborted => by simpa [Batch.ids] using covered unaborted) now)

theorem nextPreflight_moved
    (covered : s.aborted = false → (Batch.preflight entries toolCalls).ids =
      m.toolCalls.map (·.id)) : Moved (s.working m []) (s.nextPreflight m entries toolCalls) := by
  cases toolCalls with
  | nil =>
    refine goOn_moved empty fine (fun unaborted => ?_) (.done _)
    simpa [Batch.ids] using covered unaborted
  | cons toolCall toolCalls =>
    rw [nextPreflight]
    split
    · rename_i stops
      exact goOn_moved empty fine (fun unaborted => absurd stops.1 (by simp [unaborted])) (.done _)
    · split
      · exact .step (.toolStart toolCall rfl)
          (goOn_moved empty fine (fun unaborted => by simpa [Batch.ids] using covered unaborted)
            (.done _))
      · refine .step (.toolStart toolCall rfl) (.step (.toolEnd _ rfl)
          (goOn_moved empty fine (fun unaborted => ?_) (.done _)))
        simpa [Batch.ids] using covered unaborted

theorem stepRunning_moved
    (covered : s.aborted = false → (Batch.running entries).ids = m.toolCalls.map (·.id))
    {i : Nat} {input : Input N K} {result : LoopState N K × List (Item N K)}
    (stepped : s.stepRunning m entries i input = some result) : Moved (s.working m []) result := by
  rw [stepRunning] at stepped
  split at stepped
  · cases stepped
  · rename_i e at_
    obtain ⟨⟨stage, items⟩, taken, rfl⟩ := map_eq_some_iff.mp stepped
    refine goOn_moved empty fine (fun unaborted => ?_) (stepEntry_moves taken m [])
    rw [← covered unaborted]
    obtain ⟨inside, rfl⟩ := List.getElem?_eq_some_iff.mp at_
    have bound : i < (entries.map (·.toolCall.id)).length := by simpa using inside
    have same : (entries.map (·.toolCall.id))[i] = entries[i].toolCall.id := by simp
    rw [Batch.ids, map_set, ← same, set_getElem_self]
    rfl

end

end

theorem outcome?_toolCall {e : CallEntry N} {outcome : FinalizedToolCallOutcome N}
    (is : e.outcome? = some outcome) : outcome.toolCall = e.toolCall := by
  rw [CallEntry.outcome?] at is
  split at is
  · cases is
    rfl
  · cases is

theorem allFinalized_ids {outcomes : List (FinalizedToolCallOutcome N)}
    (all : allFinalized entries = some outcomes) :
    outcomes.map (·.toolCall.id) = entries.map (·.toolCall.id) := by
  induction entries generalizing outcomes with
  | nil =>
    cases all
    rfl
  | cons e entries ih =>
    simp only [allFinalized, mapM_cons, Option.pure_def, Option.bind_eq_bind,
      bind_eq_some_iff] at all
    obtain ⟨outcome, first, others, rest, eq⟩ := all
    cases eq
    rw [map_cons, map_cons, ih rest, outcome?_toolCall first]

theorem nextReport_moved (empty : s.pendingMessages = []) (fine : m.failed = false)
    (finalizedCalls : List (FinalizedToolCallOutcome N))
    {rest : List (FinalizedToolCallOutcome N)}
    (covered : s.aborted = false → (Batch.reporting finalizedCalls messages rest).ids =
      m.toolCalls.map (·.id)) (now : N) :
    Moved (s.working m messages) (s.nextReport m finalizedCalls messages rest now) := by
  cases rest with
  | nil =>
    refine finishTurn_moved empty fine (fun unaborted => ?_) _
    simpa [Batch.ids] using covered unaborted
  | cons finalized rest =>
    refine goOn_moved empty fine (fun unaborted => ?_) (.one (result_move empty m messages _))
    simpa [Batch.ids, createToolResultMessage] using covered unaborted

end

theorem stepTools_moved (empty : s.pendingMessages = []) (fine : m.failed = false)
    (covered : s.aborted = false → batch.ids = m.toolCalls.map (·.id))
    (stepped : s.stepTools m batch input = some result) :
    Moved (s.working m batch.messages) result := by
  unfold stepTools at stepped
  split at stepped
  · cases stepped
    exact failTruncated_moved empty fine covered _
  · cases stepped
    exact nextSequential_moved empty fine _ covered _
  · split at stepped
    · cases stepped
      refine reportSequential_moved empty fine _ ?_ _
      exact covered
    · cases stepped
      refine goOn_moved empty fine ?_ (.done _)
      exact covered
  · split at stepped
    · cases stepped
    · obtain ⟨⟨stage, items⟩, taken, rfl⟩ := map_eq_some_iff.mp stepped
      refine goOn_moved empty fine ?_ (stepEntry_moves taken m _)
      exact covered
  · split at stepped
    · cases stepped
    · obtain ⟨⟨stage, items⟩, taken, rfl⟩ := map_eq_some_iff.mp stepped
      refine goOn_moved empty fine ?_ (stepEntry_moves taken m _)
      exact covered
  · split at stepped
    · cases stepped
    · cases stepped
      refine reportSequential_moved empty fine _ (fun unaborted => ?_) _
      rw [finalizeExecutedToolCall_toolCall]
      exact covered unaborted
  · cases stepped
    exact nextPreflight_moved empty fine covered
  · split at stepped
    · cases stepped
      refine .step (.toolEnd _ rfl) (goOn_moved empty fine (fun unaborted => ?_) (.done _))
      simpa [Batch.ids] using covered unaborted
    · cases stepped
      refine goOn_moved empty fine (fun unaborted => ?_) (.done _)
      simpa [Batch.ids] using covered unaborted
  · obtain ⟨outcomes, all, rfl⟩ := map_eq_some_iff.mp stepped
    refine goOn_moved empty fine (fun unaborted => ?_) (.done _)
    simpa [Batch.ids, allFinalized_ids all] using covered unaborted
  · exact stepRunning_moved empty fine covered stepped
  · exact stepRunning_moved empty fine covered stepped
  · exact stepRunning_moved empty fine covered stepped
  · exact stepRunning_moved empty fine covered stepped
  · cases stepped
    exact nextReport_moved empty fine _ covered _
  · cases stepped

theorem goTo_moved (empty : s.pendingMessages = []) (first : control ≠ .polling)
    (later : control.betweenTurns = true → s.lastCompletedTurn.isSome = true)
    (tools : ∀ m batch, control ≠ .tools m batch)
    (same : (s.goTo control).1.conversation = s.plain phase) :
    Moved (s.plain phase) (s.goTo control) := by
  refine ⟨?_, goTo_proper empty first later tools⟩
  rw [same]
  exact .done _

theorem answered_moved {α : Type} {answer : Except String α} (ok : answer.isOk = true)
    {next : α → LoopState N K × List (Item N K)}
    (each : ∀ v, Moved talk (next v)) : Moved talk (s.answered answer next) := by
  cases answer with
  | error => cases ok
  | ok v => exact each v

theorem abort_moved (proper : s.Proper) : Moved s.conversation s.abort := by
  have same : { s.conversation with aborted := true } = s.abort.1.conversation := by
    rw [conversation, conversation]
    cases control : s.control with
    | streaming start => cases start <;> simp [abort, control, plain, responding]
    | _ => simp [abort, control, plain, working]
  have move := Move.abort s.conversation
  rw [same] at move
  refine ⟨.one move, proper.pending, proper.first, proper.later, fun m batch control => ?_⟩
  exact ⟨(proper.batch m batch control).1, fun unaborted => by cases unaborted⟩

theorem step_moved (proper : s.Proper) (ok : orderly s input = true)
    (stepped : s.step input = some result) : Moved s.conversation result := by
  unfold step at stepped
  split at stepped
  · cases stepped
    exact abort_moved proper
  · rename_i control
    cases stepped
    have empty := proper.pending (by simp [control])
    rw [conversation, control]
    exact polled_moved (Or.inl rfl) empty (enterTurn_first (proper.first control))
  · rename_i control
    cases stepped
    rw [conversation, control]
    exact answered_moved ok (prepareNextTurn_moved (proper.later (by rw [control]; rfl)))
  · rename_i control
    cases stepped
    have empty := proper.pending (by simp [control])
    rw [conversation, control]
    exact polled_moved (Or.inr rfl) empty (startTurn_moved _)
  · rename_i control
    cases stepped
    have empty := proper.pending (by simp [control])
    rw [conversation, control]
    exact answered_moved ok fun _ =>
      goTo_moved empty (by simp) (by simp [Control.betweenTurns]) (by simp) rfl
  · rename_i control
    cases stepped
    have empty := proper.pending (by simp [control])
    rw [conversation, control]
    exact answered_moved ok fun _ =>
      goTo_moved empty (by simp) (by simp [Control.betweenTurns]) (by simp) rfl
  · rename_i control
    cases stepped
    have empty := proper.pending (by simp [control])
    rw [conversation, control]
    refine answered_moved ok fun apiKey => ?_
    have moved : Moved (s.plain .opened) (s.goTo .requesting) :=
      goTo_moved empty (by simp) (by simp [Control.betweenTurns]) (by simp) rfl
    exact .step (.request _ rfl empty) moved
  · rename_i control
    cases stepped
    have empty := proper.pending (by simp [control])
    rw [conversation, control]
    exact answered_moved ok fun _ =>
      goTo_moved empty (by simp) (by simp [Control.betweenTurns]) (by simp) rfl
  · rename_i start ev m control
    cases stepped
    rw [conversation, control]
    cases start with
    | none => exact streamEvent_opened proper control ev m
    | some start =>
      refine streamEvent_started proper control (fun again => ?_) m
      rw [again, orderly, control] at ok
      cases ok
  · rename_i start m control
    cases stepped
    have empty := proper.pending (by simp [control])
    rw [conversation, control]
    cases start with
    | none => exact finishResponse_moved empty m
    | some start => exact finishResponse_started empty start m
  · cases ok
  · rename_i m batch control _
    obtain ⟨fine, covered⟩ := proper.batch m batch control
    rw [conversation, control]
    exact stepTools_moved (proper.pending (by simp [control])) fine covered stepped
  · rename_i control
    cases stepped
    have empty := proper.pending (by simp [control])
    have later := proper.later (by rw [control]; rfl)
    rw [conversation, control]
    refine answered_moved ok fun stop => ?_
    cases stop with
    | true => exact finish_moved empty
    | false => exact goTo_moved empty (by simp) (fun _ => later) (by simp) rfl
  · rename_i hasMoreToolCalls messages control
    cases stepped
    have empty := proper.pending (by simp [control])
    have later := proper.later (by rw [control]; rfl)
    rw [conversation, control]
    exact polled_moved (Or.inr rfl) empty
      (afterTurn_moved { s with pendingMessages := messages } later hasMoreToolCalls)
  · rename_i messages control
    cases stepped
    have empty := proper.pending (by simp [control])
    have later := proper.later (by rw [control]; rfl)
    rw [conversation, control]
    exact polled_moved (Or.inr rfl) empty
      (afterFollowUps_moved { s with pendingMessages := messages } later)
  · cases stepped

end LoopState

end Trpi.Agent
