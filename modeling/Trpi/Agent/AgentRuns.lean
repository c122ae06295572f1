import Trpi.Agent.AgentDelivery
import Trpi.Library.JsonInt

/-!
# Queued messages over whole runs

Callers prompt, continue, queue, clear, abort and change the modes in any order while the loop
goes on and its hooks answer or throw. Each queued message is in one place: in the transcript,
pending in the loop or in its queue, and those of one queue stand in the order of their numbers.
-/

set_option linter.dupNamespace false

namespace Trpi.Agent

open Library Ai Agent List Option

variable {N K : Type}

/-- What is done to an agent. `poll`, `answer` and `settle` are the active run going on. -/
inductive Act (N K : Type) where
  | prompt (input : Agent.PromptInput N K) (now : N)
  | continue
  | steer (message : MessageBody N K)
  | followUp (message : MessageBody N K)
  | clearQueue (kind : QueueKind)
  | setMode (kind : QueueKind) (mode : QueueMode)
  | abort
  | poll
  | answer (input : Input N K)
  | settle (now : N)

/-- An agent with the numbers of the messages that were cleared. -/
structure AgentRun (N K : Type) where
  agent : Agent N K
  cleared : QueueKind → List Nat

namespace Agent

def queue (agent : Agent N K) : QueueKind → PendingMessageQueue N K
  | .steering => agent.steeringQueue
  | .followUp => agent.followUpQueue

def count (agent : Agent N K) : QueueKind → Nat
  | .steering => agent.steered
  | .followUp => agent.followedUp

def withQueue (agent : Agent N K) (kind : QueueKind) (queue : PendingMessageQueue N K) :
    Agent N K :=
  match kind with
  | .steering => { agent with steeringQueue := queue }
  | .followUp => { agent with followUpQueue := queue }

/-- A call that throws changes nothing. -/
def orUnchanged (agent : Agent N K) : Except String (Agent N K) → Agent N K
  | .ok next => next
  | .error _ => agent

end Agent

def AgentRun.step [JsonNumber N] (run : AgentRun N K) : Act N K → Option (AgentRun N K)
  | .prompt input now => some { run with agent := run.agent.orUnchanged (run.agent.prompt input now) }
  | .continue => some { run with agent := run.agent.orUnchanged run.agent.continue }
  | .steer message => some { run with agent := run.agent.steer message }
  | .followUp message => some { run with agent := run.agent.followUp message }
  | .clearQueue kind =>
    some
      { agent := run.agent.withQueue kind (run.agent.queue kind).clear
        cleared := fun other =>
          if other = kind then run.cleared kind ++ serials kind (run.agent.queue kind).messages
          else run.cleared other }
  | .setMode kind mode =>
    some { run with agent := run.agent.withQueue kind { run.agent.queue kind with mode } }
  | .abort => some { run with agent := run.agent.abort }
  | .poll => run.agent.poll.map fun agent => { run with agent }
  | .answer input => (run.agent.answer input).map fun agent => { run with agent }
  | .settle now => (run.agent.settle now).map fun agent => { run with agent }

def agentMachine [JsonNumber N] : Machine (AgentRun N K) (Act N K) where
  start run := ∃ options, run = { agent := .new options, cleared := fun _ => [] }
  step := AgentRun.step

/-- `prepareNextTurn` does not throw while a message waits for the turn. -/
def AgentRun.keeps (run : AgentRun N K) : Act N K → Bool
  | .answer input =>
    match run.agent.activeRun with
    | some active => !active.loop.loses input
    | none => true
  | _ => true

namespace Agent

variable {agent : Agent N K}

def held (agent : Agent N K) : List (AgentMessage N K) :=
  match agent.activeRun with
  | some run => run.loop.pendingMessages
  | none => []

def line (agent : Agent N K) (kind : QueueKind) : List Nat :=
  serials kind agent.state.messages ++ serials kind agent.held ++
    serials kind (agent.queue kind).messages

structure Lined (agent : Agent N K) (cleared : QueueKind → List Nat) : Prop where
  waits : ∀ run, agent.activeRun = some run → run.loop.Waits
  own : ∀ kind, ∀ message ∈ (agent.queue kind).messages,
    ∃ serial, message.origin = kind.origin serial
  ordered : ∀ kind, (agent.line kind).Pairwise (· < ·)
  bounded : ∀ kind, ∀ serial ∈ agent.line kind, serial < agent.count kind
  complete : ∀ kind, ∀ serial < agent.count kind, serial ∉ cleared kind → serial ∈ agent.line kind

theorem Lined.of_line {cleared : QueueKind → List Nat} (lined : agent.Lined cleared)
    {next : Agent N K} (waits : ∀ run, next.activeRun = some run → run.loop.Waits)
    (own : ∀ kind, (next.queue kind).messages ⊆ (agent.queue kind).messages)
    (line : ∀ kind, next.line kind = agent.line kind)
    (count : ∀ kind, next.count kind = agent.count kind) : next.Lined cleared where
  waits := waits
  own kind m inside := lined.own kind m (own kind inside)
  ordered kind := line kind ▸ lined.ordered kind
  bounded kind := by
    rw [line, count]
    exact lined.bounded kind
  complete kind := by
    rw [line, count]
    exact lined.complete kind

theorem processItems_messages (s : AgentState N K) (items : List (Item N K)) :
    (s.processItems items).messages = s.messages ++ endedIn items := by
  induction items generalizing s with
  | nil => exact (append_nil _).symm
  | cons item items ih =>
    have first : (s.processItem item).messages = s.messages ++ endedIn [item] := by
      cases item with
      | event event => cases event <;> simp [AgentState.processItem, AgentState.processEvent, endedIn]
      | _ => exact (append_nil _).symm
    have all := ih (s.processItem item)
    rw [first, append_assoc, ← endedIn_append] at all
    exact all

theorem advance_line {given : List (AgentMessage N K)} {result : LoopState N K × List (Item N K)}
    (delivers : Delivers given result) (skip : Bool) (kind : QueueKind) :
    (agent.advance skip result).line kind = serials kind agent.state.messages ++
      serials kind given ++ serials kind (agent.queue kind).messages := by
  have messages := processItems_messages agent.state result.2
  rw [line, ← delivers kind]
  have queue : (agent.advance skip result).queue kind = agent.queue kind := by cases kind <;> rfl
  rw [queue]
  simp [advance, held, messages]

theorem drain_messages (queue : PendingMessageQueue N K) :
    queue.drain.1 ++ queue.drain.2.messages = queue.messages := by
  rw [PendingMessageQueue.drain]
  split
  · exact append_nil _
  · exact take_append_drop 1 _

@[simp] theorem queue_withQueue_self (kind : QueueKind) (queue : PendingMessageQueue N K) :
    (agent.withQueue kind queue).queue kind = queue := by
  cases kind <;> rfl

variable {kind other : QueueKind}

theorem queue_withQueue_other (differ : kind ≠ other) (queue : PendingMessageQueue N K) :
    (agent.withQueue kind queue).queue other = agent.queue other := by
  cases kind <;> cases other <;> first | rfl | exact absurd rfl differ

theorem serials_other {messages : List (AgentMessage N K)}
    (own : ∀ m ∈ messages, ∃ serial, m.origin = kind.origin serial)
    (differ : kind ≠ other) : serials other messages = [] := by
  rw [serials, filterMap_eq_nil_iff]
  intro m inside
  obtain ⟨serial, eq⟩ := own m inside
  rw [eq, QueueKind.serial?_other differ]

theorem drain_serials
    (own : ∀ m ∈ (agent.queue kind).messages, ∃ serial, m.origin = kind.origin serial)
    (other : QueueKind) :
    serials other (agent.queue kind).drain.1 ++
      serials other ((agent.withQueue kind (agent.queue kind).drain.2).queue other).messages =
    serials other (agent.queue other).messages := by
  have whole := drain_messages (agent.queue kind)
  by_cases same : kind = other
  · subst same
    rw [queue_withQueue_self, ← serials_append, whole]
  · rw [queue_withQueue_other same, serials_other _ same, nil_append]
    intro m inside
    exact own m (by rw [← whole]; exact mem_append_left _ inside)

theorem drain_subset (kind other : QueueKind) :
    ((agent.withQueue kind (agent.queue kind).drain.2).queue other).messages ⊆
      (agent.queue other).messages := by
  have whole := drain_messages (agent.queue kind)
  by_cases same : kind = other
  · subst same
    rw [queue_withQueue_self, ← whole]
    exact subset_append_right _ _
  · rw [queue_withQueue_other same]
    exact List.Subset.refl _

section

variable {cleared : QueueKind → List Nat}

theorem runAgentLoop_delivers (prompts : List (AgentMessage N K)) (context : AgentContext N K)
    (config : AgentLoopConfig) : Delivers prompts (runAgentLoop prompts context config) :=
  delivers_iff.mpr fun kind => runAgentLoop_hands kind.views prompts context config

theorem advance_waits {result : LoopState N K × List (Item N K)} (waits : result.1.Waits)
    (skip : Bool) : ∀ run, (agent.advance skip result).activeRun = some run → run.loop.Waits := by
  rintro run ⟨⟩
  exact waits

theorem Lined.started (lined : agent.Lined cleared) (idle : agent.activeRun = none)
    (drained : Agent N K) (s : drained.state = agent.state)
    (own : ∀ kind, (drained.queue kind).messages ⊆ (agent.queue kind).messages)
    (count : ∀ kind, drained.count kind = agent.count kind) {messages : List (AgentMessage N K)}
    (taken : ∀ kind, serials kind messages ++ serials kind (drained.queue kind).messages =
      serials kind (agent.queue kind).messages)
    (context : AgentContext N K) (config : AgentLoopConfig) (skip : Bool) :
    (drained.runWithLifecycle skip (runAgentLoop messages context config)).Lined cleared := by
  refine lined.of_line (advance_waits (Or.inr fun _ => rfl) skip) own (fun kind => ?_) count
  rw [runWithLifecycle, advance_line (runAgentLoop_delivers _ _ _), line, held, idle, ← taken kind,
    ← s]
  simp [queue]

theorem serials_prompts (kind : QueueKind) (bodies : List (MessageBody N K)) :
    serials kind (bodies.map fun body => { origin := .prompt, body }) = [] := by
  rw [serials, filterMap_eq_nil_iff]
  intro m inside
  obtain ⟨body, -, rfl⟩ := mem_map.mp inside
  cases kind <;> rfl

theorem normalizePromptInput_serials (kind : QueueKind) (input : PromptInput N K) (now : N) :
    serials kind (normalizePromptInput input now) = [] := by
  cases input with
  | text text images => exact serials_prompts kind [_]
  | messages messages => exact serials_prompts kind messages

variable {next : Agent N K}

theorem Lined.prompt {input : PromptInput N K} {now : N} (lined : agent.Lined cleared)
    (prompted : agent.prompt input now = .ok next) : next.Lined cleared := by
  unfold Agent.prompt at prompted
  split at prompted
  · cases prompted
  · rename_i idle
    cases prompted
    refine lined.started (by simpa using idle) agent rfl (fun _ => List.Subset.refl _)
      (fun _ => rfl) (fun kind => ?_) _ _ _
    rw [normalizePromptInput_serials, nil_append]

theorem count_withQueue (kind other : QueueKind) (queue : PendingMessageQueue N K) :
    (agent.withQueue kind queue).count other = agent.count other := by
  cases kind <;> rfl

section

variable (lined : agent.Lined cleared)

include lined

theorem Lined.continueQueued (idle : agent.activeRun = none)
    (continued : agent.continueQueued = .ok next) : next.Lined cleared := by
  unfold Agent.continueQueued at continued
  simp only at continued
  split at continued
  · cases continued
    exact lined.started idle (agent.withQueue .steering agent.steeringQueue.drain.2) rfl
      (drain_subset .steering) (count_withQueue .steering · _) (drain_serials (lined.own .steering))
      _ _ _
  · split at continued
    · cases continued
      exact lined.started idle (agent.withQueue .followUp agent.followUpQueue.drain.2) rfl
        (drain_subset .followUp) (count_withQueue .followUp · _)
        (drain_serials (lined.own .followUp)) _ _ _
    · cases continued

theorem Lined.continue (continued : agent.continue = .ok next) : next.Lined cleared := by
  unfold Agent.continue at continued
  split at continued
  · cases continued
  · rename_i idle
    have idle : agent.activeRun = none := by simpa using idle
    split at continued
    · cases continued
    · split at continued
      · exact lined.continueQueued idle continued
      · unfold runContinuation at continued
        split at continued
        · cases continued
        · rename_i started continues
          cases continued
          rw [runAgentLoopContinue_eq continues]
          exact lined.started idle agent rfl (fun _ => List.Subset.refl _) (fun _ => rfl)
            (fun _ => rfl) _ _ _

theorem Lined.advanced {run : ActiveRun N K}
    (active : agent.activeRun = some run) (drained : Agent N K) (s : drained.state = agent.state)
    (own : ∀ kind, (drained.queue kind).messages ⊆ (agent.queue kind).messages)
    (count : ∀ kind, drained.count kind = agent.count kind) (input : Input N K)
    (taken : ∀ kind, serials kind input.handed ++ serials kind (drained.queue kind).messages =
      serials kind (agent.queue kind).messages)
    {result : LoopState N K × List (Item N K)} (stepped : run.loop.step input = some result)
    (kept : run.loop.loses input = false) (skip : Bool) :
    (drained.advance skip result).Lined cleared := by
  have waits := lined.waits run active
  refine lined.of_line (advance_waits (LoopState.step_waits stepped waits kept) skip) own
    (fun kind => ?_) count
  rw [advance_line (LoopState.step_delivers stepped waits), line, held, active, ← taken kind, s]
  simp

theorem Lined.poll (polled : agent.poll = some next) : next.Lined cleared := by
  unfold Agent.poll at polled
  split at polled
  · cases polled
  · rename_i run active
    simp only at polled
    split at polled
    · obtain ⟨result, stepped, rfl⟩ := map_eq_some_iff.mp polled
      exact lined.advanced active (agent.withQueue .followUp agent.followUpQueue.drain.2) rfl
        (drain_subset .followUp) (count_withQueue .followUp · _) (.polled _)
        (drain_serials (lined.own .followUp)) stepped rfl _
    · split at polled
      · obtain ⟨result, stepped, rfl⟩ := map_eq_some_iff.mp polled
        exact lined.advanced active agent rfl (fun _ => List.Subset.refl _) (fun _ => rfl)
          (.polled []) (fun _ => rfl) stepped rfl _
      · obtain ⟨result, stepped, rfl⟩ := map_eq_some_iff.mp polled
        exact lined.advanced active (agent.withQueue .steering agent.steeringQueue.drain.2) rfl
          (drain_subset .steering) (count_withQueue .steering · _) (.polled _)
          (drain_serials (lined.own .steering)) stepped rfl _

theorem Lined.answer {input : Input N K}
    (kept : ∀ run, agent.activeRun = some run → run.loop.loses input = false)
    (answered : agent.answer input = some next) : next.Lined cleared := by
  unfold Agent.answer at answered
  split at answered
  · cases answered
  · cases answered
  · cases answered
  · rename_i run active notPolled _
    obtain ⟨result, stepped, rfl⟩ := map_eq_some_iff.mp answered
    refine lined.advanced active agent rfl (fun _ => List.Subset.refl _) (fun _ => rfl) _
      (fun kind => ?_) stepped (kept run active) _
    rw [Input.handed_eq_nil notPolled, serials_nil, nil_append]

theorem Lined.settle [JsonNumber N] {now : N}
    (settled : agent.settle now = some next) : next.Lined cleared := by
  unfold Agent.settle at settled
  split at settled
  · cases settled
  · rename_i run active
    have waits := lined.waits run active
    split at settled
    · rename_i control
      cases settled
      refine lined.of_line (by rintro _ ⟨⟩) (fun _ => List.Subset.refl _) (fun kind => ?_)
        (fun _ => rfl)
      have none := waits.resolve_left (by simp [control]) kind
      simp [line, held, active, none, finishRun, queue]
    · rename_i error control
      cases settled
      refine lined.of_line (by rintro _ ⟨⟩) (fun _ => List.Subset.refl _) (fun kind => ?_)
        (fun _ => rfl)
      have none := waits.resolve_left (by simp [control]) kind
      simp [line, held, active, none, finishRun, handleRunFailure, queue, processItems_messages,
        endedIn]
    · cases settled

theorem Lined.enqueue (kind : QueueKind) (body : MessageBody N K)
    (s : next.state = agent.state) (active : next.activeRun = agent.activeRun)
    (queue : (next.queue kind).messages =
      (agent.queue kind).messages ++ [⟨kind.origin (agent.count kind), body⟩])
    (count : next.count kind = agent.count kind + 1) (others : ∀ other, kind ≠ other →
      next.queue other = agent.queue other ∧ next.count other = agent.count other) :
    next.Lined cleared := by
  have held : next.held = agent.held := by rw [held, active, held]
  have line : next.line kind = agent.line kind ++ [agent.count kind] := by
    rw [line, line, s, held, queue, serials_append]
    simp [serials]
  have otherLine : ∀ other, kind ≠ other → next.line other = agent.line other := by
    intro other differ
    rw [Agent.line, Agent.line, s, held, (others other differ).1]
  refine ⟨by rw [active]; exact lined.waits, fun other => ?_, fun other => ?_, fun other => ?_,
    fun other => ?_⟩
  all_goals by_cases same : kind = other
  · subst same
    intro m inside
    rw [queue] at inside
    rcases mem_append.mp inside with earlier | last
    · exact lined.own _ m earlier
    · exact ⟨_, by rw [mem_singleton.mp last]⟩
  · rw [(others other same).1]
    exact lined.own other
  · subst same
    rw [line, pairwise_append]
    refine ⟨lined.ordered _, pairwise_singleton _ _, fun serial inside last isLast => ?_⟩
    rw [mem_singleton.mp isLast]
    exact lined.bounded _ serial inside
  · rw [otherLine other same]
    exact lined.ordered other
  · subst same
    intro serial inside
    rw [line] at inside
    rw [count]
    rcases mem_append.mp inside with earlier | last
    · exact Nat.lt_succ_of_lt (lined.bounded _ serial earlier)
    · rw [mem_singleton.mp last]
      exact Nat.lt_succ_self _
  · rw [otherLine other same, (others other same).2]
    exact lined.bounded other
  · subst same
    intro serial below kept
    rw [line, mem_append, mem_singleton]
    rw [count] at below
    rcases Nat.lt_succ_iff_lt_or_eq.mp below with earlier | last
    · exact Or.inl (lined.complete _ serial earlier kept)
    · exact Or.inr last
  · rw [otherLine other same, (others other same).2]
    exact lined.complete other

theorem Lined.steer (m : MessageBody N K) : (agent.steer m).Lined cleared :=
  lined.enqueue .steering m rfl rfl rfl rfl fun other differ => by
    cases other
    · exact absurd rfl differ
    · exact ⟨rfl, rfl⟩

theorem Lined.followUp (m : MessageBody N K) : (agent.followUp m).Lined cleared :=
  lined.enqueue .followUp m rfl rfl rfl rfl fun other differ => by
    cases other
    · exact ⟨rfl, rfl⟩
    · exact absurd rfl differ

end

theorem line_withQueue (kind : QueueKind) (queue : PendingMessageQueue N K) :
    (agent.withQueue kind queue).line kind =
      serials kind agent.state.messages ++ serials kind agent.held ++ serials kind queue.messages := by
  cases kind <;> rfl

theorem line_withQueue_other {kind other : QueueKind} (differ : kind ≠ other)
    (queue : PendingMessageQueue N K) :
    (agent.withQueue kind queue).line other = agent.line other := by
  cases kind <;> cases other <;> first | rfl | exact absurd rfl differ

section

variable (lined : agent.Lined cleared)

include lined

theorem withQueue_waits (kind : QueueKind)
    (queue : PendingMessageQueue N K) :
    ∀ run, (agent.withQueue kind queue).activeRun = some run → run.loop.Waits := by
  cases kind <;> exact lined.waits

theorem Lined.setMode (kind : QueueKind) (mode : QueueMode) :
    (agent.withQueue kind { agent.queue kind with mode }).Lined cleared := by
  refine lined.of_line (withQueue_waits lined kind _) (fun other => ?_) (fun other => ?_)
    (count_withQueue kind · _)
  all_goals by_cases same : kind = other
  · subst same
    rw [queue_withQueue_self]
    exact List.Subset.refl _
  · rw [queue_withQueue_other same]
    exact List.Subset.refl _
  · subst same
    exact line_withQueue kind _
  · exact line_withQueue_other same _

theorem Lined.abort : agent.abort.Lined cleared := by
  refine lined.of_line ?_ (fun _ => List.Subset.refl _) (fun kind => ?_) (fun _ => rfl)
  · intro run active
    obtain ⟨earlier, was, rfl⟩ := map_eq_some_iff.mp active
    exact lined.waits earlier was
  · have held : agent.abort.held = agent.held := by
      cases active : agent.activeRun <;> simp [Agent.held, Agent.abort, LoopState.abort, active]
    rw [line, line, held]
    rfl

theorem Lined.clear (kind : QueueKind) :
    (agent.withQueue kind (agent.queue kind).clear).Lined fun other =>
      if other = kind then cleared kind ++ serials kind (agent.queue kind).messages
      else cleared other := by
  have line : (agent.withQueue kind (agent.queue kind).clear).line kind =
      serials kind agent.state.messages ++ serials kind agent.held := by
    rw [line_withQueue]
    exact append_nil _
  have front : agent.line kind =
      (serials kind agent.state.messages ++ serials kind agent.held) ++
        serials kind (agent.queue kind).messages := rfl
  refine ⟨withQueue_waits lined kind _, fun other => ?_, fun other => ?_, fun other => ?_,
    fun other => ?_⟩
  all_goals by_cases same : kind = other
  · subst same
    rw [queue_withQueue_self]
    exact fun m inside => absurd inside not_mem_nil
  · rw [queue_withQueue_other same]
    exact lined.own other
  · subst same
    rw [line]
    exact (lined.ordered kind).sublist (by rw [front]; exact sublist_append_left _ _)
  · rw [line_withQueue_other same]
    exact lined.ordered other
  · subst same
    intro serial inside
    rw [line] at inside
    rw [count_withQueue]
    exact lined.bounded kind serial (by rw [front]; exact mem_append_left _ inside)
  · rw [line_withQueue_other same, count_withQueue]
    exact lined.bounded other
  · subst same
    intro serial below kept
    rw [if_pos rfl, mem_append, not_or] at kept
    rw [count_withQueue] at below
    rw [line]
    have inside := lined.complete kind serial below kept.1
    rw [front] at inside
    exact (mem_append.mp inside).resolve_right kept.2
  · rw [if_neg fun eq => same eq.symm, line_withQueue_other same, count_withQueue]
    exact lined.complete other

end

end

end Agent

theorem new_lined (opts : AgentOptions N K) : (new opts).Lined fun _ => [] := by
  have line : ∀ kind, (new opts).line kind = [] := by
    intro kind
    have none := serials_prompts kind opts.messages
    cases kind <;> simp [line, new, held, queue, none]
  refine ⟨?_, fun kind => ?_, fun kind => ?_, fun kind => ?_, fun kind => ?_⟩
  · rintro run ⟨⟩
  · cases kind <;> exact fun m inside => absurd inside not_mem_nil
  · rw [line]
    exact List.Pairwise.nil
  · rw [line]
    exact fun serial inside => absurd inside not_mem_nil
  · cases kind <;> exact fun serial below => absurd below (Nat.not_lt_zero serial)

section

variable [JsonNumber N]

theorem AgentRun.step_lined {run next : AgentRun N K} {act : Act N K}
    (lined : run.agent.Lined run.cleared) (kept : run.keeps act = true)
    (stepped : run.step act = some next) : next.agent.Lined next.cleared := by
  cases act with
  | prompt input now =>
    cases stepped
    cases prompted : run.agent.prompt input now with
    | error => simpa [orUnchanged, prompted] using lined
    | ok agent => simpa [orUnchanged, prompted] using lined.prompt prompted
  | «continue» =>
    cases stepped
    cases continued : run.agent.continue with
    | error => simpa [orUnchanged, continued] using lined
    | ok agent => simpa [orUnchanged, continued] using lined.continue continued
  | steer m =>
    cases stepped
    exact lined.steer m
  | followUp m =>
    cases stepped
    exact lined.followUp m
  | clearQueue kind =>
    cases stepped
    exact lined.clear kind
  | setMode kind mode =>
    cases stepped
    exact lined.setMode kind mode
  | abort =>
    cases stepped
    exact lined.abort
  | poll =>
    obtain ⟨agent, polled, rfl⟩ := map_eq_some_iff.mp stepped
    exact lined.poll polled
  | answer input =>
    obtain ⟨agent, answered, rfl⟩ := map_eq_some_iff.mp stepped
    refine lined.answer (fun active is => ?_) answered
    simpa [AgentRun.keeps, is] using kept
  | settle now =>
    obtain ⟨agent, settled, rfl⟩ := map_eq_some_iff.mp stepped
    exact lined.settle settled

theorem lined_inductive : (agentMachine : Machine (AgentRun N K) (Act N K)).Inductive
    (fun run act => run.keeps act = true) fun run => run.agent.Lined run.cleared where
  start run started := by
    obtain ⟨opts, rfl⟩ := started
    exact new_lined opts
  step _ _ _ lined kept taken := AgentRun.step_lined lined kept taken

/-- While no `prepareNextTurn` throws with a message waiting for its turn, every queued message
that was not cleared is once in the transcript or in its queue when the agent is idle, and those
of one queue appear in their order. -/
theorem queued_survive {run : AgentRun N K}
    (reached : agentMachine.Reached (fun run act => run.keeps act = true) run)
    (idle : run.agent.activeRun = none) (kind : QueueKind) :
    (∀ serial < run.agent.count kind, serial ∉ run.cleared kind →
      (serials kind run.agent.state.messages ++
        serials kind (run.agent.queue kind).messages).count serial = 1) ∧
    (serials kind run.agent.state.messages).Pairwise (· < ·) := by
  have lined := lined_inductive.reached reached
  have line : run.agent.line kind = serials kind run.agent.state.messages ++
      serials kind (run.agent.queue kind).messages := by
    rw [Agent.line, Agent.held, idle, serials_nil, List.append_nil]
  have ordered := lined.ordered kind
  rw [line] at ordered
  refine ⟨fun serial below kept => ?_, (List.pairwise_append.mp ordered).1⟩
  have inside := lined.complete kind serial below kept
  rw [line] at inside
  exact List.count_eq_one_of_mem (ordered.imp Nat.ne_of_lt) inside

end

def sampleOptions : AgentOptions Int Empty where
  systemPrompt := ""
  model := { id := "model", api := "api", provider := "provider", input := [] }
  thinkingLevel := .off
  tools := []
  messages := []
  steeringMode := .oneAtATime
  followUpMode := .oneAtATime
  toolExecution := .parallel

def sampleText (text : String) : MessageBody Int Empty :=
  .message (.user ⟨.text (Utf16.units text.toList), 0⟩)

/-- A response without tool calls. -/
def sampleAnswer : AssistantMessage Int where
  api := "api"
  provider := "provider"
  model := "model"
  responseModel := none
  responseId := none
  providerThinkingLevel := none
  diagnostics := none
  usage := .null
  stopReason := .stop
  deferred := none
  errorMessage := none
  rawStopReason := none
  endTurn := none
  timestamp := 0
  content := []

def sampleTurn : List (Act Int Empty) :=
  [.answer (.transformed (.ok [])), .answer (.converted (.ok [])),
    .answer (.keyResolved (.ok none)), .answer (.responded (.ok ())),
    .answer (.streamEnded sampleAnswer), .answer (.stopDecided (.ok false)), .poll]

/-- A message is steered before the first turn is over, and then `prepareNextTurn` answers. -/
def sampleActs (answer : Except String (Option (AgentLoopTurnUpdate Int Empty))) :
    List (Act Int Empty) :=
  [.prompt (.messages [sampleText "hello"]) 0, .poll, .steer (sampleText "wait")] ++ sampleTurn ++
    [.answer (.prepared answer)]

def sampleStart : AgentRun Int Empty where
  agent := .new sampleOptions
  cleared _ := []

theorem sampleStart_reached {allowed : AgentRun Int Empty → Act Int Empty → Prop} :
    agentMachine.Reached allowed sampleStart := .start ⟨sampleOptions, rfl⟩

def sampleDelivered : Option (AgentRun Int Empty) :=
  agentMachine.exec (fun run act => run.keeps act = true) sampleStart
    (sampleActs (.ok none) ++ sampleTurn ++ [.poll, .settle 0])

theorem queued_survive_sample :
    ∃ run, sampleDelivered = some run ∧
      (serials .steering run.agent.state.messages ++
        serials .steering (run.agent.queue .steering).messages).count 0 = 1 := by
  have ran : sampleDelivered.isSome = true := by rfl
  obtain ⟨run, ran⟩ := Option.isSome_iff_exists.mp ran
  have reached := sampleStart_reached.exec ran
  have idle : sampleDelivered.map (·.agent.activeRun.isNone) = some true := rfl
  have steered : sampleDelivered.map (·.agent.steered) = some 1 := rfl
  have cleared : sampleDelivered.map (·.cleared .steering) = some [] := rfl
  rw [ran] at idle steered cleared
  refine ⟨run, ran, (queued_survive reached ?_ .steering).1 0 ?_ ?_⟩
  · simpa using idle
  · have one : run.agent.steered = 1 := Option.some.inj steered
    simp [Agent.count, one]
  · have none : run.cleared .steering = [] := Option.some.inj cleared
    simp [none]

def sampleLost : Option (AgentRun Int Empty) :=
  agentMachine.exec (fun _ _ => True) sampleStart (sampleActs (.error "no context") ++ [.settle 0])

/-- The steered message is neither in its queue nor in the transcript when the turn that it waits
for is not prepared. -/
theorem steered_lost :
    ∃ run : AgentRun Int Empty, agentMachine.Reached (fun _ _ => True) run ∧
      run.agent.activeRun.isNone = true ∧ run.agent.steered = 1 ∧ run.cleared .steering = [] ∧
      serials .steering run.agent.state.messages = [] ∧
      serials .steering (run.agent.queue .steering).messages = [] := by
  have ran : sampleLost.isSome = true := by rfl
  exact ⟨sampleLost.get ran, sampleStart_reached.exec (Option.some_get ran).symm, rfl, rfl, rfl, rfl,
    rfl⟩

end Trpi.Agent
