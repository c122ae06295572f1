import Trpi.Agent.Loop
import Trpi.Library.Machine

/-!
# Traces of the agent loop

What a trace says: which messages ended, which were handed out by the queues or belong to a
finished turn, and which the loop's context consists of.
-/

namespace Trpi.Agent

open Library Ai

variable {N K : Type} {trace : List (Item N K)}

theorem runAgentLoopContinue_eq {context : AgentContext N K} {config : AgentLoopConfig}
    {started : LoopState N K × List (Item N K)}
    (continues : runAgentLoopContinue context config = .ok started) :
    started = runAgentLoop [] context config := by
  unfold runAgentLoopContinue at continues
  split at continues
  · cases continues
  · split at continues
    · cases continues
    · cases continues
      rfl

/-- The messages whose `message_end` was emitted. -/
def endedIn : List (Item N K) → List (AgentMessage N K)
  | [] => []
  | .event (.messageEnd message) :: trace => message :: endedIn trace
  | _ :: trace => endedIn trace

/-- The messages that polls of the queues handed out and that turns consist of. -/
def handedIn : List (Item N K) → List (AgentMessage N K)
  | [] => []
  | .polled messages :: trace => messages ++ handedIn trace
  | .event (.turnEnd message toolResults) :: trace =>
    .assistant message :: toolResults.map .toolResult ++ handedIn trace
  | _ :: trace => handedIn trace

/-- The context is what it started with and every message ended since, unless it is replaced. -/
def contextAfter (messages : List (AgentMessage N K)) : List (Item N K) → List (AgentMessage N K)
  | [] => messages
  | .event (.messageEnd message) :: trace => contextAfter (messages ++ [message]) trace
  | .updated context :: trace => contextAfter context.messages trace
  | _ :: trace => contextAfter messages trace

inductive Mark (N K : Type) where
  | start (message : AgentMessage N K)
  | stop (message : AgentMessage N K)

def messageMarks : List (Item N K) → List (Mark N K)
  | [] => []
  | .event (.messageStart message) :: trace => .start message :: messageMarks trace
  | .event (.messageEnd message) :: trace => .stop message :: messageMarks trace
  | _ :: trace => messageMarks trace

def turnMarks : List (Item N K) → List Bool
  | [] => []
  | .event .turnStart :: trace => true :: turnMarks trace
  | .event (.turnEnd _ _) :: trace => false :: turnMarks trace
  | _ :: trace => turnMarks trace

section

variable (front back : List (Item N K))

@[simp] theorem endedIn_append : endedIn (front ++ back) = endedIn front ++ endedIn back := by
  induction front using endedIn.induct <;> simp_all [endedIn]

@[simp] theorem handedIn_append : handedIn (front ++ back) = handedIn front ++ handedIn back := by
  induction front using handedIn.induct <;> simp_all [handedIn]

@[simp] theorem contextAfter_append (messages : List (AgentMessage N K)) :
    contextAfter messages (front ++ back) = contextAfter (contextAfter messages front) back := by
  induction messages, front using contextAfter.induct <;> simp_all [contextAfter]

@[simp] theorem messageMarks_append :
    messageMarks (front ++ back) = messageMarks front ++ messageMarks back := by
  induction front using messageMarks.induct <;> simp_all [messageMarks]

@[simp] theorem turnMarks_append : turnMarks (front ++ back) = turnMarks front ++ turnMarks back := by
  induction front using turnMarks.induct <;> simp_all [turnMarks]

end

theorem contextAfter_kept (kept : ∀ context, .updated context ∉ trace)
    (messages : List (AgentMessage N K)) :
    contextAfter messages trace = messages ++ endedIn trace := by
  induction messages, trace using contextAfter.induct with
  | case3 messages context trace ih => exact absurd List.mem_cons_self (kept context)
  | _ => simp_all [contextAfter, endedIn]

/-- A start and the end that closes it. A response may start as a part of what it becomes. -/
def SameMessage (start stop : AgentMessage N K) : Prop :=
  start = stop ∨ start.isAssistant = true ∧ stop.isAssistant = true

/-- Each end closes the start right before it; one start may be left open. -/
def Bracketed (marks : List (Mark N K)) (unclosed : List (AgentMessage N K)) : Prop :=
  ∃ pairs : List (AgentMessage N K × AgentMessage N K),
    (∀ pair ∈ pairs, SameMessage pair.1 pair.2) ∧
    marks = (pairs.flatMap fun pair => [.start pair.1, .stop pair.2]) ++ unclosed.map .start

def Alternating (marks : List Bool) (isOpen : Bool) : Prop :=
  ∃ turns : Nat, marks = (List.replicate turns [true, false]).flatten ++ if isOpen then [true] else []

/-- What holds where an item comes after others, in a run that started with these prompts and
this context. -/
def ItemSpec (prompts context : List (AgentMessage N K)) (before : List (Item N K)) :
    Item N K → Prop
  | .requested seen _ =>
    endedIn before = prompts ++ handedIn before ∧ seen = contextAfter context before ∧
      ∀ message toolResults, .event (.turnEnd message toolResults) ∈ before → message.failed = false
  | .polled _ => endedIn before = prompts ++ handedIn before
  | .event event => (∀ messages, .event (.agentEnd messages) ∉ before) ∧
    match event with
    | .agentEnd messages =>
      messages = endedIn before ∧ endedIn before = prompts ++ handedIn before ∧
        Bracketed (messageMarks before) [] ∧ Alternating (turnMarks before) false
    | .turnEnd message toolResults =>
      (∃ earlier, contextAfter context before =
        earlier ++ .assistant message :: toolResults.map .toolResult) ∧
      (message.failed = false → .aborted ∉ before →
        toolResults.map (·.toolCallId) = message.toolCalls.map (·.id))
    | _ => True
  | _ => True

/-- Every item of a trace as it should be. -/
def TraceSpec (prompts context : List (AgentMessage N K)) (trace : List (Item N K)) : Prop :=
  ∀ before item after, trace = before ++ item :: after → ItemSpec prompts context before item

theorem TraceSpec.nil (prompts context : List (AgentMessage N K)) :
    TraceSpec prompts context [] := by
  intro before item after split
  exact absurd split.symm (by simp)

theorem TraceSpec.concat {prompts context : List (AgentMessage N K)} {item : Item N K}
    (spec : TraceSpec prompts context trace)
    (last : ItemSpec prompts context trace item) : TraceSpec prompts context (trace ++ [item]) := by
  intro before other after split
  rcases after.eq_nil_or_concat with rfl | ⟨front, final, rfl⟩
  · obtain ⟨rfl, same⟩ := List.append_inj' split rfl
    cases same
    exact last
  · have split : trace ++ [item] = (before ++ other :: front) ++ [final] := by
      rw [split, List.concat_eq_append, List.append_assoc, List.cons_append]
    exact spec before other front (List.append_inj' split rfl).1

end Trpi.Agent
