import Trpi.Agent.Agent
import Trpi.Agent.LoopTrace

/-!
# What the loop does with queued messages

Queued messages are told apart by the numbers they got. A step of the loop ends the messages
that were pending or were just handed out, in their order, or leaves them pending.
-/

namespace Trpi.Agent

open Library Ai List

variable {N K : Type}

inductive QueueKind where
  | steering | followUp
  deriving DecidableEq

def QueueKind.origin : QueueKind → Nat → Origin
  | .steering, serial => .steering serial
  | .followUp, serial => .followUp serial

/-- The number that a message got in this queue. -/
def QueueKind.serial? : QueueKind → Origin → Option Nat
  | .steering, .steering serial => some serial
  | .followUp, .followUp serial => some serial
  | _, _ => none

@[simp] theorem QueueKind.serial?_origin (kind : QueueKind) (serial : Nat) :
    kind.serial? (kind.origin serial) = some serial := by
  cases kind <;> rfl

theorem QueueKind.serial?_other {kind other : QueueKind} (differ : kind ≠ other) (serial : Nat) :
    other.serial? (kind.origin serial) = none := by
  cases kind <;> cases other <;> first | rfl | exact absurd rfl differ

def serials (kind : QueueKind) (messages : List (AgentMessage N K)) : List Nat :=
  messages.filterMap fun message => kind.serial? message.origin

section

variable (kind : QueueKind)

@[simp] theorem serials_nil : serials kind ([] : List (AgentMessage N K)) = [] := rfl

@[simp] theorem serials_append (front back : List (AgentMessage N K)) :
    serials kind (front ++ back) = serials kind front ++ serials kind back := by
  rw [serials, filterMap_append, serials, serials]

@[simp] theorem serials_assistant (m : AssistantMessage N) (messages : List (AgentMessage N K)) :
    serials kind (.assistant m :: messages) = serials kind messages := by
  cases kind <;> rfl

end

@[simp] theorem endedIn_announce (m : AgentMessage N K) : endedIn (announce m) = [m] := rfl

/-- What is seen in the marks of a trace is what there is to see in a message that is announced;
responses and tool results have nothing. -/
structure Views {β : Type} (view : Mark N K → Option β) (pick : AgentMessage N K → Option β) :
    Prop where
  announced : ∀ message, [Mark.start message, .stop message].filterMap view = (pick message).toList
  started : ∀ message : AssistantMessage N, view (.start (.assistant message)) = none
  stopped : ∀ message : AssistantMessage N, view (.stop (.assistant message)) = none
  toolResult : ∀ message : ToolResultMessage N, pick (.toolResult message) = none

section

variable {β : Type} {view : Mark N K → Option β} {pick : AgentMessage N K → Option β}

theorem Views.announce (views : Views view pick) (messages : List (AgentMessage N K)) :
    (messageMarks (messages.flatMap announce)).filterMap view = messages.filterMap pick := by
  induction messages with
  | nil => rfl
  | cons m messages ih =>
    have first : (messageMarks (Agent.announce m)).filterMap view = (pick m).toList :=
      views.announced m
    rw [flatMap_cons, messageMarks_append, filterMap_append, ih, first]
    cases seen : pick m <;> simp [seen]

theorem Views.toolResults (views : Views view pick) (m : ToolResultMessage N) :
    (messageMarks (emitToolResultMessage (K := K) m)).filterMap view = [] := by
  have first : (messageMarks (emitToolResultMessage (K := K) m)).filterMap view =
      (pick (.toolResult m)).toList := views.announced _
  rw [first, views.toolResult, Option.toList_none]

end

/-- What there is to see in these messages is in the trace or pending. -/
def Hands {β : Type} (view : Mark N K → Option β) (pick : AgentMessage N K → Option β)
    (given : List (AgentMessage N K)) (result : LoopState N K × List (Item N K)) : Prop :=
  (messageMarks result.2).filterMap view ++ result.1.pendingMessages.filterMap pick =
    given.filterMap pick

namespace LoopState

variable {β : Type} {view : Mark N K → Option β} {pick : AgentMessage N K → Option β}
  {s : LoopState N K}

theorem fail_hands (error : String) : Hands view pick s.pendingMessages (s.fail error) := rfl

theorem goTo_hands (control : Control N K) :
    Hands view pick s.pendingMessages (s.goTo control) := rfl

theorem answered_hands {α : Type} {answer : Except String α}
    {next : α → LoopState N K × List (Item N K)}
    (each : ∀ v, Hands view pick s.pendingMessages (next v)) :
    Hands view pick s.pendingMessages (s.answered answer next) := by
  cases answer with
  | error => exact fail_hands _
  | ok v => exact each v

theorem finish_hands : Hands view pick s.pendingMessages s.finish := rfl

theorem finishTurn_hands (m : AssistantMessage N)
    (toolResults : List (ToolResultMessage N)) (hasMoreToolCalls : Bool) :
    Hands view pick s.pendingMessages (s.finishTurn m toolResults hasMoreToolCalls) := rfl

theorem polled_hands {messages : List (AgentMessage N K)}
    {next : LoopState N K → LoopState N K × List (Item N K)}
    (hands : Hands view pick messages (next { s with pendingMessages := messages })) :
    Hands view pick messages (s.polled messages next) :=
  hands

theorem afterResponse_hands (m : AssistantMessage N) :
    Hands view pick s.pendingMessages (s.afterResponse m) := by
  rw [afterResponse]
  split
  · exact finish_hands
  · split
    · exact finishTurn_hands _ _ _
    · split
      · exact goTo_hands _
      · exact goTo_hands _

variable {items : List (Item N K)} {input : Input N K} {stage : CallStage N} {e : CallEntry N}

theorem goOn_hands (none : (messageMarks items).filterMap view = [])
    (m : AssistantMessage N) (batch : Batch N) :
    Hands view pick s.pendingMessages (s.goOn m batch items) := by
  rw [Hands, goOn, none, nil_append]

theorem nextPreflight_hands (m : AssistantMessage N) (entries : List (CallEntry N))
    (toolCalls : List (ToolCall N)) :
    Hands view pick s.pendingMessages (s.nextPreflight m entries toolCalls) := by
  cases toolCalls with
  | nil => exact goOn_hands rfl _ _
  | cons toolCall toolCalls =>
    rw [nextPreflight]
    split
    · exact goOn_hands rfl _ _
    · split
      · exact goOn_hands rfl _ _
      · exact goOn_hands rfl _ _

theorem stepEntry_marks
    (stepped : s.stepEntry e input = some (stage, items)) : messageMarks items = [] := by
  unfold stepEntry at stepped
  split at stepped
  · split at stepped
    · cases stepped
      rfl
    · cases stepped
      rfl
  · cases stepped
    rfl
  · cases stepped
    rfl
  · cases stepped
    rfl
  · cases stepped

theorem stepEntry_hands (stepped : s.stepEntry e input = some (stage, items))
    (m : AssistantMessage N)
    (batch : Batch N) : Hands view pick s.pendingMessages (s.goOn m batch items) :=
  goOn_hands (by rw [stepEntry_marks stepped]; rfl) _ _

theorem stepRunning_hands {m : AssistantMessage N} {entries : List (CallEntry N)}
    {i : Nat} {result : LoopState N K × List (Item N K)}
    (stepped : s.stepRunning m entries i input = some result) :
    Hands view pick s.pendingMessages result := by
  rw [stepRunning] at stepped
  split at stepped
  · cases stepped
  · obtain ⟨⟨stage, items⟩, taken, rfl⟩ := Option.map_eq_some_iff.mp stepped
    exact stepEntry_hands taken _ _

section

variable (views : Views view pick)

include views

theorem injectPending_hands : Hands view pick s.pendingMessages s.injectPending := by
  rw [Hands, injectPending, views.announce]
  exact append_nil _

theorem startTurn_hands : Hands view pick s.pendingMessages s.startTurn :=
  injectPending_hands views

theorem enterTurn_hands : Hands view pick s.pendingMessages s.enterTurn := by
  rw [enterTurn]
  split
  · exact goTo_hands _
  · exact injectPending_hands views

theorem afterPreparation_hands : Hands view pick s.pendingMessages s.afterPreparation := by
  rw [afterPreparation]
  split
  · exact goTo_hands _
  · exact startTurn_hands views

theorem prepareNextTurn_hands (update : Option (AgentLoopTurnUpdate N K)) :
    Hands view pick s.pendingMessages (s.prepareNextTurn update) := by
  cases update with
  | none => exact afterPreparation_hands views
  | some update =>
    have hands :
        Hands view pick s.pendingMessages (s.applyUpdate update).afterPreparation :=
      afterPreparation_hands views
    cases context : update.context <;>
      simpa [Hands, prepareNextTurn, context, messageMarks] using hands

theorem finishResponse_hands (partialMessage : Option (AssistantMessage N))
    (m : AssistantMessage N) :
    Hands view pick s.pendingMessages (s.finishResponse partialMessage m) := by
  have hands := @afterResponse_hands _ _ _ view pick
    { s with
      currentContext :=
        if partialMessage.isSome then s.currentContext.setLast (.assistant m)
        else s.currentContext.push [.assistant m]
      newMessages := s.newMessages ++ [.assistant m] } m
  cases partialMessage <;>
    simpa [Hands, finishResponse, messageMarks, views.started, views.stopped] using hands

theorem streamEvent_hands (partialMessage : Option (AssistantMessage N))
    (ev : AssistantMessageEvent N) (m : AssistantMessage N) :
    Hands view pick s.pendingMessages (s.streamEvent partialMessage ev m) := by
  unfold streamEvent
  split
  · simp [Hands, messageMarks, views.started]
  · exact finishResponse_hands views _ _
  · exact finishResponse_hands views _ _
  · split
    · exact goTo_hands (.streaming (some m))
    · exact goTo_hands s.control

section

variable (m : AssistantMessage N) (finalizedCalls : List (FinalizedToolCallOutcome N))
  (messages : List (ToolResultMessage N))

theorem reportSequential_hands
    (finalized : FinalizedToolCallOutcome N) (toolCalls : List (ToolCall N)) (now : N) :
    Hands view pick s.pendingMessages
      (s.reportSequential m finalizedCalls messages finalized toolCalls now) :=
  goOn_hands (views.toolResults _) _ _

theorem nextSequential_hands
    (toolCalls : List (ToolCall N)) (now : N) : Hands view pick s.pendingMessages
      (s.nextSequential m finalizedCalls messages toolCalls now) := by
  cases toolCalls with
  | nil => exact finishTurn_hands _ _ _
  | cons toolCall toolCalls =>
    rw [nextSequential]
    split
    · exact finishTurn_hands _ _ _
    · split
      · exact goOn_hands rfl _ _
      · exact reportSequential_hands views _ _ _ _ _ _

end

theorem failTruncated_hands (m : AssistantMessage N)
    (messages : List (ToolResultMessage N)) (toolCalls : List (ToolCall N)) (now : N) :
    Hands view pick s.pendingMessages (s.failTruncated m messages toolCalls now) := by
  cases toolCalls with
  | nil => exact finishTurn_hands _ _ _
  | cons toolCall toolCalls => exact goOn_hands (views.toolResults _) _ _

theorem nextReport_hands (m : AssistantMessage N)
    (finalizedCalls : List (FinalizedToolCallOutcome N)) (messages : List (ToolResultMessage N))
    (rest : List (FinalizedToolCallOutcome N)) (now : N) :
    Hands view pick s.pendingMessages (s.nextReport m finalizedCalls messages rest now) := by
  cases rest with
  | nil => exact finishTurn_hands _ _ _
  | cons finalized rest => exact goOn_hands (views.toolResults _) _ _

theorem stepTools_hands {m : AssistantMessage N} {batch : Batch N} {input : Input N K}
    {result : LoopState N K × List (Item N K)} (stepped : s.stepTools m batch input = some result) :
    Hands view pick s.pendingMessages result := by
  unfold stepTools at stepped
  split at stepped
  · cases stepped
    exact failTruncated_hands views _ _ _ _
  · cases stepped
    exact nextSequential_hands views _ _ _ _ _
  · split at stepped
    · cases stepped
      exact reportSequential_hands views _ _ _ _ _ _
    · cases stepped
      exact goOn_hands rfl _ _
  · split at stepped
    · cases stepped
    · obtain ⟨⟨stage, items⟩, taken, rfl⟩ := Option.map_eq_some_iff.mp stepped
      exact stepEntry_hands taken _ _
  · split at stepped
    · cases stepped
    · obtain ⟨⟨stage, items⟩, taken, rfl⟩ := Option.map_eq_some_iff.mp stepped
      exact stepEntry_hands taken _ _
  · split at stepped
    · cases stepped
    · cases stepped
      exact reportSequential_hands views _ _ _ _ _ _
  · cases stepped
    exact nextPreflight_hands _ _ _
  · split at stepped
    · cases stepped
      exact goOn_hands rfl _ _
    · cases stepped
      exact goOn_hands rfl _ _
  · obtain ⟨outcomes, all, rfl⟩ := Option.map_eq_some_iff.mp stepped
    exact goOn_hands rfl _ _
  · exact stepRunning_hands stepped
  · exact stepRunning_hands stepped
  · exact stepRunning_hands stepped
  · exact stepRunning_hands stepped
  · cases stepped
    exact nextReport_hands views _ _ _ _ _
  · cases stepped

end

end LoopState

theorem runAgentLoop_hands {β : Type} {view : Mark N K → Option β}
    {pick : AgentMessage N K → Option β} (views : Views view pick)
    (prompts : List (AgentMessage N K)) (context : AgentContext N K) (config : AgentLoopConfig) :
    Hands view pick prompts (runAgentLoop prompts context config) := by
  have announced := views.announce prompts
  rw [← append_nil (filterMap view _)] at announced
  exact announced

/-- What the step is handed out. -/
def Input.handed : Input N K → List (AgentMessage N K)
  | .polled messages => messages
  | _ => []

theorem Input.handed_eq_nil {input : Input N K}
    (notPolled : ∀ messages, input = .polled messages → False) : input.handed = [] := by
  cases input with
  | polled messages => exact absurd rfl (notPolled messages)
  | _ => rfl

section

variable {β : Type} {view : Mark N K → Option β} {pick : AgentMessage N K → Option β}

namespace LoopState

variable {s : LoopState N K}

variable {input : Input N K} {result : LoopState N K × List (Item N K)}

theorem stepTools_handed {m : AssistantMessage N} {batch : Batch N}
    (stepped : s.stepTools m batch input = some result) : input.handed = [] := by
  cases input with
  | polled messages =>
    unfold stepTools at stepped
    cases batch <;> cases stepped
  | _ => rfl

/-- A step announces what was pending or what it is handed out, or leaves it pending. Nothing is
handed out while a turn is prepared. -/
theorem step_given (views : Views view pick) (stepped : s.step input = some result) :
    input.handed = [] ∧ Hands view pick s.pendingMessages result ∨
      s.control ≠ .preparing ∧ Hands view pick input.handed result := by
  unfold step at stepped
  split at stepped
  · cases stepped
    exact Or.inl ⟨rfl, goTo_hands s.control⟩
  · rename_i control
    cases stepped
    exact Or.inr ⟨by simp [control], polled_hands (enterTurn_hands views)⟩
  · cases stepped
    exact Or.inl ⟨rfl, answered_hands (prepareNextTurn_hands views)⟩
  · rename_i control
    cases stepped
    exact Or.inr ⟨by simp [control], polled_hands (startTurn_hands views)⟩
  · cases stepped
    exact Or.inl ⟨rfl, answered_hands fun _ => goTo_hands _⟩
  · cases stepped
    exact Or.inl ⟨rfl, answered_hands fun _ => goTo_hands _⟩
  · cases stepped
    exact Or.inl ⟨rfl, answered_hands fun _ => goTo_hands .requesting⟩
  · cases stepped
    exact Or.inl ⟨rfl, answered_hands fun _ => goTo_hands _⟩
  · cases stepped
    exact Or.inl ⟨rfl, streamEvent_hands views _ _ _⟩
  · cases stepped
    exact Or.inl ⟨rfl, finishResponse_hands views _ _⟩
  · cases stepped
    exact Or.inl ⟨rfl, fail_hands _⟩
  · exact Or.inl ⟨stepTools_handed stepped, stepTools_hands views stepped⟩
  · cases stepped
    refine Or.inl ⟨rfl, answered_hands fun stop => ?_⟩
    cases stop with
    | true => exact finish_hands
    | false => exact goTo_hands _
  · rename_i control
    cases stepped
    refine Or.inr ⟨by simp [control], polled_hands ?_⟩
    rw [afterTurn]
    split
    · exact enterTurn_hands views
    · exact goTo_hands _
  · rename_i control
    cases stepped
    refine Or.inr ⟨by simp [control], polled_hands ?_⟩
    rw [afterFollowUps]
    split
    · exact enterTurn_hands views
    · exact finish_hands
  · cases stepped

/-- Messages with something to see are pending only while a turn is prepared. -/
def Expects (pick : AgentMessage N K → Option β) (s : LoopState N K) : Prop :=
  s.control = .preparing ∨ s.pendingMessages.filterMap pick = []

theorem step_hands (views : Views view pick) (stepped : s.step input = some result)
    (expects : s.Expects pick) : Hands view pick (s.pendingMessages ++ input.handed) result := by
  rcases step_given views stepped with ⟨none, hands⟩ | ⟨control, hands⟩
  · rwa [none, append_nil]
  · rw [Hands, hands, filterMap_append, expects.resolve_left control, nil_append]

theorem step_subset (views : Views view pick) (stepped : s.step input = some result) :
    (messageMarks result.2).filterMap view ++ result.1.pendingMessages.filterMap pick ⊆
      (s.pendingMessages ++ input.handed).filterMap pick := by
  rw [filterMap_append]
  rcases step_given views stepped with ⟨-, hands⟩ | ⟨-, hands⟩
  · rw [hands]
    exact subset_append_left _ _
  · rw [hands]
    exact subset_append_right _ _

theorem enterTurn_expects : s.enterTurn.1.Expects pick := by
  rw [enterTurn]
  split
  · exact Or.inl rfl
  · exact Or.inr rfl

theorem afterPreparation_expects : s.afterPreparation.1.Expects pick := by
  rw [afterPreparation]
  split
  · rename_i empty
    have none : s.pendingMessages = [] := isEmpty_iff.mp empty
    exact Or.inr (by simp [goTo, none])
  · exact Or.inr rfl

theorem prepareNextTurn_expects (update : Option (AgentLoopTurnUpdate N K)) :
    (s.prepareNextTurn update).1.Expects pick := by
  cases update with
  | none => exact afterPreparation_expects
  | some update => exact afterPreparation_expects

theorem afterTurn_expects (s : LoopState N K) (hasMoreToolCalls : Bool) :
    (s.afterTurn hasMoreToolCalls).1.Expects pick := by
  rw [afterTurn]
  split
  · exact enterTurn_expects
  · rename_i stops
    have none : s.pendingMessages = [] := by
      by_contra some
      exact stops (Or.inr some)
    exact Or.inr (by simp [goTo, none])

theorem afterFollowUps_expects (s : LoopState N K) : s.afterFollowUps.1.Expects pick := by
  rw [afterFollowUps]
  split
  · exact enterTurn_expects
  · rename_i some
    exact Or.inr (by simp [finish, not_not.mp some])

theorem Expects.other (_ : Views view pick) (expects : s.Expects pick)
    (control : s.control ≠ .preparing) (hands : Hands view pick s.pendingMessages result) :
    result.1.Expects pick := by
  rw [Hands, expects.resolve_left control] at hands
  exact Or.inr (append_eq_nil_iff.mp hands).2

/-- Nothing to see is left behind unless the preparation of a turn throws. -/
theorem step_expects (views : Views view pick) (stepped : s.step input = some result)
    (expects : s.Expects pick)
    (kept : ∀ error, input = .prepared (.error error) → s.pendingMessages.filterMap pick = []) :
    result.1.Expects pick := by
  unfold step at stepped
  split at stepped
  · cases stepped
    exact expects
  · cases stepped
    exact enterTurn_expects
  · rename_i answer control
    cases stepped
    cases answer with
    | ok update => exact prepareNextTurn_expects update
    | error error => exact Or.inr (kept error rfl)
  · cases stepped
    exact Or.inr rfl
  · rename_i control
    cases stepped
    exact expects.other views (by simp [control]) (answered_hands fun _ => goTo_hands _)
  · rename_i control
    cases stepped
    exact expects.other views (by simp [control]) (answered_hands fun _ => goTo_hands _)
  · rename_i control
    cases stepped
    exact expects.other views (by simp [control])
      (answered_hands fun _ => goTo_hands .requesting)
  · rename_i control
    cases stepped
    exact expects.other views (by simp [control]) (answered_hands fun _ => goTo_hands _)
  · rename_i control
    cases stepped
    exact expects.other views (by simp [control]) (streamEvent_hands views _ _ _)
  · rename_i control
    cases stepped
    exact expects.other views (by simp [control]) (finishResponse_hands views _ _)
  · rename_i control
    cases stepped
    exact expects.other views (by simp [control]) (fail_hands _)
  · rename_i control _
    exact expects.other views (by simp [control]) (stepTools_hands views stepped)
  · rename_i control
    cases stepped
    refine expects.other views (by simp [control]) (answered_hands fun stop => ?_)
    cases stop with
    | true => exact finish_hands
    | false => exact goTo_hands _
  · cases stepped
    exact afterTurn_expects _ _
  · cases stepped
    exact afterFollowUps_expects _
  · cases stepped

end LoopState

end

/-- These messages, as far as they were queued, ended or are pending. -/
def Delivers (given : List (AgentMessage N K)) (result : LoopState N K × List (Item N K)) : Prop :=
  ∀ kind, serials kind (endedIn result.2) ++ serials kind result.1.pendingMessages =
    serials kind given

def QueueKind.ended? (kind : QueueKind) : Mark N K → Option Nat
  | .start _ => none
  | .stop message => kind.serial? message.origin

theorem QueueKind.views (kind : QueueKind) :
    Views kind.ended? fun m : AgentMessage N K => kind.serial? m.origin where
  announced m := by
    cases seen : kind.serial? m.origin <;> simp [ended?, seen, filterMap_cons]
  started _ := rfl
  stopped _ := by cases kind <;> rfl
  toolResult _ := by cases kind <;> rfl

theorem serials_endedIn (kind : QueueKind) (items : List (Item N K)) :
    serials kind (endedIn items) = (messageMarks items).filterMap kind.ended? := by
  induction items using messageMarks.induct with
  | case1 => rfl
  | case2 m items ih =>
    simpa [endedIn, messageMarks, QueueKind.ended?, filterMap_cons] using ih
  | case3 m items ih =>
    simp [endedIn, messageMarks, QueueKind.ended?, serials, filterMap_cons, ← ih]
  | case4 item items notStart notStop ih => simpa [endedIn, messageMarks] using ih

theorem delivers_iff {given : List (AgentMessage N K)} {result : LoopState N K × List (Item N K)} :
    Delivers given result ↔
      ∀ kind : QueueKind,
        Hands kind.ended? (fun m => kind.serial? m.origin) given result := by
  simp only [Delivers, serials_endedIn]
  exact Iff.rfl

namespace LoopState

variable {s : LoopState N K} {result : LoopState N K × List (Item N K)} {input : Input N K}

/-- Queued messages are pending only while a turn is prepared. -/
def Waits (s : LoopState N K) : Prop :=
  s.control = .preparing ∨ ∀ kind, serials kind s.pendingMessages = []

/-- `prepareNextTurn` throws while messages are pending. -/
def loses (s : LoopState N K) : Input N K → Bool
  | .prepared answer => !answer.isOk && !s.pendingMessages.isEmpty
  | _ => false

theorem waits_iff : s.Waits ↔
    ∀ kind : QueueKind, s.Expects fun m => kind.serial? m.origin := by
  constructor
  · rintro (preparing | none) kind
    · exact Or.inl preparing
    · exact Or.inr (none kind)
  · intro expects
    by_cases preparing : s.control = .preparing
    · exact Or.inl preparing
    · exact Or.inr fun kind => (expects kind).resolve_left preparing

theorem step_delivers (stepped : s.step input = some result) (waits : s.Waits) :
    Delivers (s.pendingMessages ++ input.handed) result :=
  delivers_iff.mpr fun kind => step_hands kind.views stepped (waits_iff.mp waits kind)

/-- Nothing that was queued is left behind unless the preparation of a turn throws. -/
theorem step_waits (stepped : s.step input = some result) (waits : s.Waits)
    (kept : s.loses input = false) : result.1.Waits := by
  refine waits_iff.mpr fun kind =>
    step_expects kind.views stepped (waits_iff.mp waits kind) fun error threw => ?_
  subst threw
  have none : s.pendingMessages = [] := by
    simpa [loses, Except.isOk, Except.toBool] using kept
  rw [none, filterMap_nil]

end LoopState

end Trpi.Agent
