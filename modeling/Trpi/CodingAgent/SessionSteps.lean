import Trpi.CodingAgent.AgentSession

/-!
# What the steps of a session do

Messages that leave a queue or a prompt are on their way until the session has handled their
events. A step of the loop sends messages on their way and loses none of them, unless the
preparation of a turn throws; and what is handled, flushed or finished changes no queue.
-/

namespace Trpi.CodingAgent

open Library Ai Agent AgentSession

variable {N K β : Type}

/-- These messages come out of a queue, or they are those of a prompt. -/
inductive Drained (agent : Agent N K) :
    List (MessageBody N K) → Agent N K → List (AgentMessage N K) → Prop where
  | prompts (bodies : List (MessageBody N K)) :
      Drained agent bodies agent (bodies.map fun body => { origin := .prompt, body })
  | queued (kind : QueueKind) :
      Drained agent [] (agent.withQueue kind (agent.queue kind).drain.2) (agent.queue kind).drain.1

section

variable {agent drained : Agent N K} {bodies : List (MessageBody N K)}
  {messages : List (AgentMessage N K)}

theorem Drained.count (taken : Drained agent bodies drained messages) (kind : QueueKind) :
    drained.count kind = agent.count kind := by
  cases taken with
  | prompts => rfl
  | queued other => exact Agent.count_withQueue other kind _

theorem Drained.subset (taken : Drained agent bodies drained messages) (kind : QueueKind) :
    (drained.queue kind).messages ⊆ (agent.queue kind).messages := by
  cases taken with
  | prompts => exact List.Subset.refl _
  | queued queue => exact Agent.drain_subset queue kind

end

namespace AgentSession

variable {γ : Type}

/-- What there is to see in the messages that are announced next or wait in the loop. -/
def flying (view : Mark N (CustomMessage K) → Option γ)
    (pick : AgentMessage N (CustomMessage K) → Option γ) (s : AgentSession N K β) : List γ :=
  (messageMarks s.unhandled).filterMap view ++ s.agent.held.filterMap pick

/-- The loop holds messages with something to see only while it prepares a turn. -/
def Expects (pick : AgentMessage N (CustomMessage K) → Option γ) (s : AgentSession N K β) :
    Prop :=
  ∀ run, s.agent.activeRun = some run → run.loop.Expects pick

end AgentSession

/-- The loop has gone on with what it held and with these messages. -/
structure Advances (threw : Prop) (s : AgentSession N K β)
    (bodies : List (MessageBody N (CustomMessage K)))
    (messages : List (AgentMessage N (CustomMessage K))) (next : AgentSession N K β) : Prop where
  handled : s.unhandled = []
  queues : ∃ drained, Drained s.agent bodies drained messages ∧
    ∀ kind, next.agent.queue kind = drained.queue kind
  count : ∀ kind, next.agent.count kind = s.agent.count kind
  active : next.agent.activeRun.isSome = true
  flies : ∀ {γ : Type} {view : Mark N (CustomMessage K) → Option γ}
    {pick : AgentMessage N (CustomMessage K) → Option γ}, Views view pick → s.Expects pick →
      next.flying view pick = s.flying view pick ++ messages.filterMap pick
  seen : ∀ {γ : Type} {view : Mark N (CustomMessage K) → Option γ}
    {pick : AgentMessage N (CustomMessage K) → Option γ}, Views view pick →
      next.flying view pick ⊆ s.flying view pick ++ messages.filterMap pick
  expects : ∀ {γ : Type} {view : Mark N (CustomMessage K) → Option γ}
    {pick : AgentMessage N (CustomMessage K) → Option γ}, Views view pick → s.Expects pick →
      (threw → s.flying view pick = []) → next.Expects pick

section

variable {s : AgentSession N K β}

theorem flying_held (handled : s.unhandled = []) {γ : Type}
    {view : Mark N (CustomMessage K) → Option γ}
    {pick : AgentMessage N (CustomMessage K) → Option γ} :
    s.flying view pick = s.agent.held.filterMap pick := by
  rw [flying, handled]
  rfl

variable {next : AgentSession N K β} {bodies : List (MessageBody N (CustomMessage K))}
  {agent drained : Agent N (CustomMessage K)} {messages : List (AgentMessage N (CustomMessage K))}
  {input : Input N (CustomMessage K)} {skip : Bool}

/-- What flies does not change where neither the events nor the run do. -/
theorem flying_eq (unhandled : next.unhandled = s.unhandled) (held : next.agent.held = s.agent.held)
    {γ : Type} (view : Mark N (CustomMessage K) → Option γ)
    (pick : AgentMessage N (CustomMessage K) → Option γ) :
    next.flying view pick = s.flying view pick := by
  rw [flying, flying, unhandled, held]

theorem started_advances (handled : s.unhandled = []) (inactive : s.agent.activeRun = none)
    (taken : Drained s.agent bodies drained messages) {context : AgentContext N (CustomMessage K)}
    {config : AgentLoopConfig}
    (agent : next.agent = drained.runWithLifecycle skip (runAgentLoop messages context config))
    (unhandled : next.unhandled = (runAgentLoop messages context config).2) :
    Advances False s bodies messages next := by
  have held : s.agent.held = [] := by rw [Agent.held, inactive]
  have flies : ∀ {γ : Type} {view : Mark N (CustomMessage K) → Option γ}
      {pick : AgentMessage N (CustomMessage K) → Option γ}, Views view pick →
      next.flying view pick = s.flying view pick ++ messages.filterMap pick := by
    intro γ view pick views
    rw [flying_held handled, held, flying, agent, unhandled]
    exact runAgentLoop_hands views messages context config
  refine ⟨handled, ⟨drained, taken, fun kind => ?_⟩, fun kind => ?_, ?_,
    fun views _ => flies views, fun views v inside => ?_, fun _ _ _ run active => ?_⟩
  · rw [agent]
    cases kind <;> rfl
  · rw [agent, ← taken.count kind]
    cases kind <;> rfl
  · rw [agent]
    rfl
  · rw [← flies views]
    exact inside
  · rw [agent] at active
    cases active
    exact Or.inr rfl

theorem stepped_advances (handled : s.unhandled = []) {run : ActiveRun N (CustomMessage K)}
    (active : s.agent.activeRun = some run)
    {result : LoopState N (CustomMessage K) × List (Item N (CustomMessage K))}
    (stepped : run.loop.step input = some result)
    (taken : Drained s.agent bodies drained input.handed)
    (agent : next.agent = drained.advance skip result) (unhandled : next.unhandled = result.2) :
    Advances (∃ error, input = .prepared (.error error)) s bodies input.handed next := by
  have held : s.agent.held = run.loop.pendingMessages := by rw [Agent.held, active]
  refine ⟨handled, ⟨drained, taken, fun kind => ?_⟩, fun kind => ?_, ?_,
    fun views expects => ?_, fun views => ?_, fun views expects kept => ?_⟩
  · rw [agent]
    cases kind <;> rfl
  · rw [agent, ← taken.count kind]
    cases kind <;> rfl
  · rw [agent]
    rfl
  · rw [flying_held handled, held, flying, agent, unhandled, ← List.filterMap_append]
    exact LoopState.step_hands views stepped (expects run active)
  · rw [flying_held handled, held, flying, agent, unhandled, ← List.filterMap_append]
    exact LoopState.step_subset views stepped
  · intro other is
    rw [agent] at is
    cases is
    refine LoopState.step_expects views stepped (expects run active) fun error threw => ?_
    have none := kept ⟨error, threw⟩
    rwa [flying_held handled, held] at none

theorem runAgentPrompt_cases (s : AgentSession N K β)
    (messages : List (MessageBody N (CustomMessage K))) (now : N) (faults : Faults K β) :
    s.agent.activeRun.isSome = true ∧ s.runAgentPrompt messages now faults =
        { s with isAgentRunActive := true }.finishAgentPrompt faults ∨
      s.agent.activeRun = none ∧ ∃ agent unhandled,
        s.runAgentPrompt messages now faults =
          { s with isAgentRunActive := true, agent, unhandled } ∧
        (s.unhandled = [] → Advances False s messages
          (messages.map fun body => { origin := .prompt, body })
          { s with isAgentRunActive := true, agent, unhandled }) := by
  cases active : s.agent.activeRun with
  | some run =>
    refine Or.inl ⟨rfl, ?_⟩
    simp [runAgentPrompt, Agent.prompt, active]
  | none =>
    refine Or.inr ⟨rfl, s.agent.runPromptMessages _ false,
      startItems s.agent _, ?_,
      fun handled => started_advances handled active (.prompts messages) rfl rfl⟩
    rw [runAgentPrompt, Agent.prompt, if_neg (by simp [active])]
    rfl

theorem continue_advances (continued : s.agent.continue = .ok agent) :
    s.agent.activeRun = none ∧ (s.unhandled = [] → ∀ afterRun,
      Advances False s [] (AgentSession.continued s.agent)
        { s with
          afterRun, agent,
          unhandled :=
            AgentSession.startItems s.agent (AgentSession.continued s.agent) }) := by
  unfold Agent.continue at continued
  split at continued
  · cases continued
  · rename_i inactive
    have inactive : s.agent.activeRun = none := by simpa using inactive
    refine ⟨inactive, fun handled afterRun => ?_⟩
    split at continued
    · cases continued
    · rename_i lastMessage last
      rw [AgentSession.continued, last]
      dsimp only
      split at continued
      · rename_i response
        rw [if_pos response]
        unfold Agent.continueQueued at continued
        simp only at continued
        split at continued
        · rename_i some
          cases continued
          rw [if_pos some]
          exact started_advances handled inactive (.queued .steering) rfl rfl
        · rename_i none
          rw [if_neg none]
          split at continued
          · cases continued
            exact started_advances handled inactive (.queued .followUp) rfl rfl
          · cases continued
      · rename_i other
        rw [if_neg other]
        unfold Agent.runContinuation at continued
        split at continued
        · cases continued
        · rename_i started continues
          cases continued
          rw [runAgentLoopContinue_eq continues]
          exact started_advances handled inactive (.prompts []) rfl rfl

theorem Advances.loses_nothing {threw : Prop} (advances : Advances threw s bodies messages next)
    (not : ¬threw) :
    Advances False s bodies messages next :=
  { advances with
    expects := fun views expects _ => advances.expects views expects fun threw => absurd threw not }

theorem poll_advances (handled : s.unhandled = []) (polled : s.agent.poll = some agent) :
    Advances False s [] (handsOut s.agent)
      { s with
        agent
        unhandled := emitted s.agent
          (.polled (handsOut s.agent)) } := by
  have kept : ∀ messages : List (AgentMessage N (CustomMessage K)),
      ¬∃ error, Input.polled messages = .prepared (.error error) := fun _ => nofun
  unfold Agent.poll at polled
  split at polled
  · cases polled
  · rename_i run active
    simp only at polled
    split at polled
    · rename_i control
      have handsOut : handsOut s.agent = s.agent.followUpQueue.drain.1 := by
        rw [handsOut, active]
        simp only [control]
      rw [handsOut]
      obtain ⟨result, stepped, rfl⟩ := Option.map_eq_some_iff.mp polled
      exact (stepped_advances handled active stepped (.queued .followUp) rfl
        (by simp [emitted, active, stepped])).loses_nothing (kept _)
    · rename_i control
      have handsOut : handsOut s.agent =
          if run.skipInitialSteeringPoll then [] else s.agent.steeringQueue.drain.1 := by
        rw [handsOut, active]
        dsimp only
        split
        · rename_i followUp
          exact absurd followUp control
        · rfl
      split at polled
      · rename_i skip
        rw [handsOut, if_pos skip]
        obtain ⟨result, stepped, rfl⟩ := Option.map_eq_some_iff.mp polled
        exact (stepped_advances handled active stepped (.prompts []) rfl
          (by simp [emitted, active, stepped])).loses_nothing (kept _)
      · rename_i goes
        rw [handsOut, if_neg goes]
        obtain ⟨result, stepped, rfl⟩ := Option.map_eq_some_iff.mp polled
        exact (stepped_advances handled active stepped (.queued .steering) rfl
          (by simp [emitted, active, stepped])).loses_nothing (kept _)

theorem answer_advances (handled : s.unhandled = [])
    (answered : s.agent.answer input = some agent) :
    Advances (∃ error, input = .prepared (.error error)) s [] []
      { s with agent, unhandled := emitted s.agent input } := by
  unfold Agent.answer at answered
  split at answered
  · cases answered
  · cases answered
  · cases answered
  · rename_i run active notPolled _
    have none := Input.handed_eq_nil notPolled
    obtain ⟨result, stepped, rfl⟩ := Option.map_eq_some_iff.mp answered
    rw [← none]
    refine stepped_advances handled active stepped ?_ rfl (by simp [emitted, active, stepped])
    rw [none]
    exact .prompts []

theorem flushPending_frame (s : AgentSession N K β) (faults : Faults K β) :
    ∃ entries pendingBashMessages pendingCustomMessages, (s.flushPending faults).1 =
      { s with entries, pendingBashMessages, pendingCustomMessages } := by
  unfold flushPending
  dsimp only
  split
  · exact ⟨_, _, _, rfl⟩
  · exact ⟨_, _, _, rfl⟩

theorem finishAgentPrompt_frame (s : AgentSession N K β) (faults : Faults K β) :
    ∃ entries pendingBashMessages pendingCustomMessages isAgentRunActive,
      s.finishAgentPrompt faults =
        { s with
          entries, pendingBashMessages, pendingCustomMessages, isAgentRunActive } := by
  obtain ⟨entries, bash, custom, flushed⟩ := flushPending_frame s faults
  unfold finishAgentPrompt
  dsimp only
  rw [flushed]
  split
  · exact ⟨_, _, _, _, rfl⟩
  · exact ⟨_, _, _, _, rfl⟩

namespace AgentSession

/-- The queues on display when an item has been emitted. -/
def started (s : AgentSession N K β) : Item N (CustomMessage K) → AgentSession N K β
  | .event event => s.removeStarted event
  | _ => s

end AgentSession

theorem handleItem_frame (s : AgentSession N K β) (faults : Faults K β)
    (item : Item N (CustomMessage K)) :
    ∃ entries pendingCustomMessages, (s.handleItem faults item).1 =
      { s.started item with entries, pendingCustomMessages } := by
  unfold handleItem
  split
  · rename_i event
    unfold handleAgentEvent
    dsimp only
    split
    · exact ⟨_, _, rfl⟩
    · split
      · exact ⟨_, _, rfl⟩
      · exact ⟨_, _, rfl⟩
      · exact ⟨_, _, rfl⟩
  · rename_i other
    cases item with
    | event event => exact absurd rfl (other event)
    | _ => exact ⟨_, _, rfl⟩

theorem removeStarted_frame (s : AgentSession N K β) (ev : AgentEvent N (CustomMessage K)) :
    ∃ steeringMessages followUpMessages, s.removeStarted ev =
      { s with steeringMessages, followUpMessages } := by
  unfold removeStarted
  split
  · split
    · unfold removeQueued
      split
      · exact ⟨_, _, rfl⟩
      · split
        · exact ⟨_, _, rfl⟩
        · exact ⟨_, _, rfl⟩
    · exact ⟨_, _, rfl⟩
  · exact ⟨_, _, rfl⟩

theorem started_frame (s : AgentSession N K β) (item : Item N (CustomMessage K)) :
    ∃ steeringMessages followUpMessages, s.started item =
      { s with steeringMessages, followUpMessages } := by
  cases item with
  | event event => exact removeStarted_frame s event
  | _ => exact ⟨_, _, rfl⟩

theorem settle_cases [JsonNumber N] {now : N} (settled : s.settle now = some next) :
    ∃ run, s.agent.activeRun = some run ∧
      (run.loop.control = .ended ∧ next =
        { s with
          agent := s.agent.finishRun, failing := false, afterRun := s.afterRun + 1 } ∨
      ∃ error failureMessage state, run.loop.control = .failed error ∧ next =
        { s with
          agent :=
            { s.agent with
              state, activeRun := some { run with loop := { run.loop with control := .ended } } }
          failing := true
          unhandled := announce (.assistant failureMessage) ++
            [.event (.turnEnd failureMessage []),
              .event (.agentEnd [.assistant failureMessage])] }) := by
  unfold settle at settled
  split at settled
  · cases settled
  · rename_i run active
    refine ⟨run, active, ?_⟩
    split at settled
    · rename_i control
      cases settled
      exact Or.inl ⟨control, rfl⟩
    · rename_i error control
      cases settled
      exact Or.inr ⟨error, _, _, control, rfl⟩
    · cases settled

namespace AgentSession

def handles (s : AgentSession N K β) (faults : Faults K β) : Item N (CustomMessage K) → Bool
  | .event (.messageEnd _) => !faults.listener && !faults.append
  | .event (.turnEnd _ _) =>
    !faults.listener && !(appendUntil faults.custom s.pendingCustomMessages).2
  | .event _ => !faults.listener
  | _ => true

end AgentSession

theorem handleItem_threw (s : AgentSession N K β) (faults : Faults K β)
    (item : Item N (CustomMessage K)) : (s.handleItem faults item).2 = !s.handles faults item := by
  cases item with
  | event event =>
    unfold handleItem handleAgentEvent
    cases throws : faults.listener
    · cases event <;>
        simp [handles, throws, removeStarted, flushPendingCustomMessages]
    · cases event <;> simp [handles, throws]
  | _ => rfl

theorem handle_cases {faults : Faults K β} {error : String}
    (handled : s.handle faults error = some next) :
    ∃ item unhandled, s.unhandled = item :: unhandled ∧
      (s.handles faults item = true ∧
          next = { (s.handleItem faults item).1 with unhandled } ∨
        s.handles faults item = false ∧
          next = { (s.handleItem faults item).1 with unhandled }.abandon error) := by
  cases is : s.unhandled with
  | nil => simp [handle, is] at handled
  | cons item unhandled =>
    refine ⟨item, unhandled, rfl, ?_⟩
    simp only [handle, is, handleItem_threw, Option.some.injEq] at handled
    cases handles : s.handles faults item with
    | true =>
      rw [handles] at handled
      exact Or.inl ⟨rfl, handled.symm⟩
    | false =>
      rw [handles] at handled
      exact Or.inr ⟨rfl, handled.symm⟩

end

end Trpi.CodingAgent
