import Trpi.CodingAgent.SessionSteps

/-!
# When the displayed queues are right

An entry is right as long as the message it was made for is the one it is removed by. While the
agent runs, the entries are those of messages that left their queue and have not started, and
then those of the messages in the queue.
-/

namespace Trpi.CodingAgent

open Library Ai Agent AgentSession List Option
open Library.Utf16 (Units)

variable {N K β : Type}

def listed? (cleared : QueueKind → Nat) (kind : QueueKind) (message : AgentMessage N K) :
    Option Units :=
  match kind.serial? message.origin with
  | some serial => if cleared kind ≤ serial then userText? message else none
  | none => none

def started? {β : Type} (pick : AgentMessage N K → Option β) : Mark N K → Option β
  | .start message => pick message
  | .stop _ => none

theorem started_views {β : Type} {pick : AgentMessage N K → Option β}
    (response : ∀ m, pick (.assistant m) = none)
    (toolResult : ∀ m, pick (.toolResult m) = none) : Views (started? pick) pick where
  announced m := by cases seen : pick m <;> simp [started?, seen, filterMap_cons]
  started := response
  stopped _ := rfl
  toolResult := toolResult

theorem entry_views (cleared : QueueKind → Nat) (kind : QueueKind) :
    Views (started? (listed? cleared kind)) (listed? (N := N) (K := K) cleared kind) :=
  started_views (fun _ => by cases kind <;> rfl) fun _ => by cases kind <;> rfl

theorem serial_views (kind : QueueKind) :
    Views (started? fun m => kind.serial? m.origin)
      fun m : AgentMessage N K => kind.serial? m.origin :=
  started_views (fun _ => by cases kind <;> rfl) fun _ => by cases kind <;> rfl

namespace AgentSession

def displayed (s : AgentSession N K β) : QueueKind → List Units
  | .steering => s.steeringMessages
  | .followUp => s.followUpMessages

/-- The entries of messages that left their queue and have not started. -/
def inFlight (s : AgentSession N K β) (kind : QueueKind) : List Units :=
  s.flying (started? (listed? s.cleared kind)) (listed? s.cleared kind)

end AgentSession

def waiting (agent : Agent N K) (kind : QueueKind) : List Units :=
  (agent.queue kind).messages.filterMap userText?

/-- The start of a user message removes its own entry and no other one. -/
def StartsClean (s : AgentSession N K β) (message : AgentMessage N (CustomMessage K))
    (text : Units) : Prop :=
  if (listed? s.cleared .steering message).isSome then text ≠ []
  else if (listed? s.cleared .followUp message).isSome then
    text ≠ [] ∧ text ∉ s.steeringMessages
  else text = [] ∨ text ∉ s.steeringMessages ∧ text ∉ s.followUpMessages

instance (s : AgentSession N K β) (message : AgentMessage N (CustomMessage K))
    (text : Units) : Decidable (StartsClean s message text) :=
  inferInstanceAs (Decidable (ite _ _ _))

def startsClean (s : AgentSession N K β) : Item N (CustomMessage K) → Bool
  | .event (.messageStart message) =>
    (userText? message).all fun text => decide (StartsClean s message text)
  | _ => true

namespace AgentSession

/-- No message with an entry is on its way. -/
def landed (s : AgentSession N K β) : Bool :=
  (s.inFlight .steering).isEmpty && (s.inFlight .followUp).isEmpty

/-- While the session counts as idle, no message with a text is taken. -/
def mayTake (s : AgentSession N K β)
    (messages : List (AgentMessage N (CustomMessage K))) : Bool :=
  !s.isIdle || messages.all fun message => (userText? message).isNone

/-- A message that starts removes its own entry only; and no run is refused, and none fails or is
given up as finished, while a displayed message is on its way; and none takes one while the
session counts as idle. -/
def shows (s : AgentSession N K β) : SessionAct N K β → Bool
  | .handle faults _ =>
    match s.unhandled with
    | [] => true
    | item :: unhandled => startsClean s item &&
        (s.handles faults item || { s with unhandled }.landed)
  | .answer (.prepared (.error _)) => s.landed
  | .poll => s.mayTake (handsOut s.agent)
  | .startPrompt _ _ _ _ => s.agent.activeRun.isNone || s.landed
  | .handlePostAgentRun found _ =>
    if s.agent.activeRun.isSome then s.landed
    else !s.goesOn found || s.mayTake (continued s.agent)
  | _ => true

variable {s : AgentSession N K β}

theorem landed_iff : s.landed = true ↔ ∀ kind, s.inFlight kind = [] := by
  rw [landed, Bool.and_eq_true, List.isEmpty_iff, List.isEmpty_iff]
  constructor
  · rintro ⟨steering, followUp⟩ kind
    cases kind with
    | steering => exact steering
    | followUp => exact followUp
  · exact fun none => ⟨none .steering, none .followUp⟩

theorem mayTake_iff
    {messages : List (AgentMessage N (CustomMessage K))} : s.mayTake messages = true ↔
      (s.isIdle = true → ∀ m ∈ messages, userText? m = none) := by
  simp [mayTake, imp_iff_not_or]

end AgentSession

structure Mirrored (s : AgentSession N K β) : Prop where
  displayed : ∀ kind, s.displayed kind = s.inFlight kind ++ waiting s.agent kind
  own : ∀ kind, ∀ message ∈ (s.agent.queue kind).messages, ∃ serial,
    message.origin = kind.origin serial ∧ s.cleared kind ≤ serial ∧ serial < s.agent.count kind
  bounded : ∀ kind : QueueKind, ∀ serial ∈ s.flying
    (started? fun message => kind.serial? message.origin)
      (fun message => kind.serial? message.origin), serial < s.agent.count kind
  fresh : ∀ kind, s.cleared kind ≤ s.agent.count kind
  expects : ∀ kind, s.Expects (listed? s.cleared kind)
  handled : s.agent.activeRun = none → s.unhandled = []
  idle : s.isIdle = true → ∀ kind, s.inFlight kind = []

section

variable {cleared : QueueKind → Nat} {messages : List (AgentMessage N K)}

theorem entries_own {kind : QueueKind}
    (own : ∀ m ∈ messages, ∃ serial, m.origin = kind.origin serial ∧
      cleared kind ≤ serial) :
    messages.filterMap (listed? cleared kind) = messages.filterMap userText? := by
  refine filterMap_congr fun m inside => ?_
  obtain ⟨serial, origin, displayed⟩ := own m inside
  rw [listed?, origin, QueueKind.serial?_origin]
  exact if_pos displayed

theorem entries_other {kind other : QueueKind} (differ : kind ≠ other)
    (own : ∀ m ∈ messages, ∃ serial, m.origin = kind.origin serial) :
    messages.filterMap (listed? cleared other) = [] := by
  rw [filterMap_eq_nil_iff]
  intro m inside
  obtain ⟨serial, origin⟩ := own m inside
  rw [listed?, origin, QueueKind.serial?_other differ]

theorem entries_none (kind : QueueKind) (none : ∀ m ∈ messages, userText? m = none) :
    messages.filterMap (listed? cleared kind) = [] := by
  rw [filterMap_eq_nil_iff]
  intro m inside
  rw [listed?, none m inside]
  split
  · exact ite_self _
  · rfl

end

section

variable {s : AgentSession N K β}

variable {bodies : List (MessageBody N (CustomMessage K))} {next : AgentSession N K β}
  {kind : QueueKind} {text : Units} {messages : List (AgentMessage N (CustomMessage K))}
  {agent drained : Agent N (CustomMessage K)} {cleared : QueueKind → Nat} {m : AgentMessage N K}
  {others : QueueKind → List Units} {item : Item N (CustomMessage K)} {faults : Faults K β}

section

variable (mirrored : Mirrored s) (taken : Drained s.agent bodies drained messages)
  (kind : QueueKind)

include mirrored taken

theorem Mirrored.texts :
    messages.filterMap (listed? s.cleared kind) ++ waiting drained kind = waiting s.agent kind := by
  cases taken with
  | prompts bodies =>
    have none : (bodies.map fun body =>
        ({ origin := .prompt, body } : AgentMessage N (CustomMessage K))).filterMap
          (listed? s.cleared kind) = [] := by
      rw [filterMap_eq_nil_iff]
      intro m inside
      obtain ⟨body, -, rfl⟩ := mem_map.mp inside
      cases kind <;> rfl
    rw [none, nil_append]
  | queued queue =>
    have whole := Agent.drain_messages (s.agent.queue queue)
    have own : ∀ m ∈ (s.agent.queue queue).drain.1, ∃ serial,
        m.origin = queue.origin serial ∧ s.cleared queue ≤ serial := by
      intro m inside
      obtain ⟨serial, origin, displayed, -⟩ := mirrored.own queue m (by
        rw [← whole]
        exact mem_append_left _ inside)
      exact ⟨serial, origin, displayed⟩
    by_cases same : queue = kind
    · subst same
      rw [waiting, waiting, Agent.queue_withQueue_self, entries_own own, ← filterMap_append, whole]
    · rw [waiting, waiting, Agent.queue_withQueue_other same,
        entries_other same fun m inside => (own m inside).imp fun _ => And.left, nil_append]

theorem Mirrored.serials : ∀ serial ∈ Agent.serials kind messages, serial < s.agent.count kind := by
  cases taken with
  | prompts bodies =>
    rw [Agent.serials_prompts]
    exact fun serial inside => absurd inside not_mem_nil
  | queued queue =>
    intro serial inside
    obtain ⟨m, taken, numbered⟩ := mem_filterMap.mp inside
    obtain ⟨number, origin, -, below⟩ := mirrored.own queue m (by
      rw [← Agent.drain_messages (s.agent.queue queue)]
      exact mem_append_left _ taken)
    rw [origin] at numbered
    by_cases same : queue = kind
    · subst same
      rw [QueueKind.serial?_origin] at numbered
      exact some.inj numbered ▸ below
    · rw [QueueKind.serial?_other same] at numbered
      cases numbered

end

/-- The loop has gone on. -/
theorem Mirrored.advances (mirrored : Mirrored s) {threw : Prop}
    (advances : Advances threw s bodies messages next)
    (kept : threw → ∀ kind, s.inFlight kind = [])
    (displayed : next.displayed = s.displayed) (cleared : next.cleared = s.cleared)
    (idle : next.isIdle = true → s.isIdle = true ∧
      ∀ m ∈ messages, userText? m = none) : Mirrored next := by
  obtain ⟨drained, taken, queue⟩ := advances.queues
  have flight : ∀ kind, next.inFlight kind =
      s.inFlight kind ++ messages.filterMap (listed? s.cleared kind) := by
    intro kind
    rw [inFlight, cleared]
    exact advances.flies (entry_views _ kind) (mirrored.expects kind)
  refine ⟨fun kind => ?_, fun kind => ?_, fun kind serial inside => ?_, fun kind => ?_,
    fun kind => ?_, fun inactive => ?_, fun isIdle kind => ?_⟩
  · rw [displayed, mirrored.displayed, flight, append_assoc, ← mirrored.texts taken kind,
      waiting, waiting, queue]
  · rw [queue, advances.count, cleared]
    exact fun m inside => mirrored.own kind m (taken.subset kind inside)
  · rw [advances.count]
    rcases mem_append.mp (advances.seen (serial_views kind) inside) with earlier | given
    · exact mirrored.bounded kind serial earlier
    · exact mirrored.serials taken kind serial given
  · rw [advances.count, cleared]
    exact mirrored.fresh kind
  · rw [cleared]
    exact advances.expects (entry_views _ kind) (mirrored.expects kind) fun threw => kept threw kind
  · have active := advances.active
    rw [inactive] at active
    cases active
  · obtain ⟨was, none⟩ := idle isIdle
    rw [flight, mirrored.idle was, entries_none kind none, append_nil]

/-- Only the queues and the loop matter, and whether the session counts as idle. -/
theorem Mirrored.of_eq (mirrored : Mirrored s) (agent : next.agent = s.agent)
    (unhandled : next.unhandled = s.unhandled)
    (displayed : next.displayed = s.displayed) (cleared : next.cleared = s.cleared)
    (idle : next.isIdle = true → ∀ kind, s.inFlight kind = []) : Mirrored next := by
  have flying : ∀ {γ : Type} (view : Mark N (CustomMessage K) → Option γ)
      (pick : AgentMessage N (CustomMessage K) → Option γ),
      next.flying view pick = s.flying view pick := by
    intro γ view pick
    rw [flying, flying, unhandled, agent]
  have flight : ∀ kind, next.inFlight kind = s.inFlight kind := by
    intro kind
    rw [inFlight, flying, cleared, inFlight]
  refine ⟨fun kind => ?_, ?_, fun kind => ?_, ?_, fun kind => ?_, ?_, fun isIdle kind => ?_⟩
  · rw [displayed, mirrored.displayed, flight, agent]
  · rw [agent, cleared]
    exact mirrored.own
  · rw [flying, agent]
    exact mirrored.bounded kind
  · rw [agent, cleared]
    exact mirrored.fresh
  · rw [AgentSession.Expects, agent, cleared]
    exact mirrored.expects kind
  · rw [agent, unhandled]
    exact mirrored.handled
  · rw [flight]
    exact idle isIdle kind

theorem Mirrored.landed (mirrored : Mirrored s) (inactive : s.agent.activeRun = none)
    (kind : QueueKind) : s.inFlight kind = [] := by
  rw [inFlight, flying_held (mirrored.handled inactive), Agent.held, inactive]
  rfl

/-- What the session keeps besides its queues is of no concern. -/
theorem Mirrored.finishAgentPrompt (mirrored : Mirrored s)
    (landed : ∀ kind, s.inFlight kind = []) (faults : Faults K β) :
    Mirrored (s.finishAgentPrompt faults) := by
  obtain ⟨entries, bash, custom, active, finished⟩ := finishAgentPrompt_frame s faults
  rw [finished]
  exact mirrored.of_eq rfl rfl rfl rfl fun _ => landed

theorem Mirrored.runAgentPrompt (mirrored : Mirrored s)
    (landed : s.agent.activeRun.isSome = true → ∀ kind, s.inFlight kind = [])
    (messages : List (MessageBody N (CustomMessage K))) (now : N) (faults : Faults K β) :
    Mirrored (s.runAgentPrompt messages now faults) := by
  rcases runAgentPrompt_cases s messages now faults with
    ⟨active, refused⟩ | ⟨inactive, agent, unhandled, started, advances⟩
  · rw [refused]
    have still : Mirrored { s with isAgentRunActive := true } :=
      mirrored.of_eq rfl rfl rfl rfl nofun
    exact still.finishAgentPrompt (landed active) faults
  · rw [started]
    exact mirrored.advances (advances (mirrored.handled inactive)) False.elim rfl rfl nofun

theorem Mirrored.handlePostAgentRun (mirrored : Mirrored s) {found : PostAgentRun}
    (shows : s.shows (.handlePostAgentRun found faults) = true)
    (handled : s.handlePostAgentRun found faults = some next) : Mirrored next := by
  have landed : ∀ kind, s.inFlight kind = [] := by
    cases active : s.agent.activeRun with
    | none => exact mirrored.landed active
    | some run =>
      rw [AgentSession.shows, if_pos (by rw [active]; rfl)] at shows
      exact landed_iff.mp shows
  have gone : s.agent.activeRun = none → s.isIdle = true →
      s.goesOn found = true → ∀ m ∈ continued s.agent, userText? m = none := by
    intro inactive idle goesOn
    rw [AgentSession.shows, inactive, if_neg (by simp), goesOn] at shows
    exact mayTake_iff.mp shows idle
  unfold AgentSession.handlePostAgentRun at handled
  split at handled
  · cases handled
  · rename_i afterRun _
    have left : Mirrored { s with afterRun } :=
      mirrored.of_eq rfl rfl rfl rfl mirrored.idle
    split at handled
    · rename_i goesOn
      split at handled
      · cases handled
        exact left.finishAgentPrompt landed faults
      · rename_i agent continued
        cases handled
        obtain ⟨inactive, advances⟩ := continue_advances continued
        exact mirrored.advances (advances (mirrored.handled inactive) afterRun) False.elim rfl rfl
          fun idle => ⟨idle, gone inactive idle goesOn⟩
    · cases handled
      exact left.finishAgentPrompt landed faults

theorem Mirrored.poll (mirrored : Mirrored s) (handled : s.unhandled = [])
    (shows : s.shows .poll = true) (polled : s.agent.poll = some agent) :
    Mirrored { s with
      agent
      unhandled := emitted s.agent
        (.polled (handsOut s.agent)) } :=
  mirrored.advances (poll_advances handled polled) False.elim rfl rfl
    fun idle => ⟨idle, mayTake_iff.mp shows idle⟩

theorem Mirrored.answer (mirrored : Mirrored s) (handled : s.unhandled = [])
    {input : Input N (CustomMessage K)} (shows : s.shows (.answer input) = true)
    (answered : s.agent.answer input = some agent) :
    Mirrored { s with agent, unhandled := emitted s.agent input } := by
  refine mirrored.advances (answer_advances handled answered) ?_ rfl rfl
    fun idle => ⟨idle, fun m inside => absurd inside not_mem_nil⟩
  rintro ⟨error, rfl⟩
  exact landed_iff.mp shows

theorem Mirrored.of_landed (mirrored : Mirrored s)
    (landed : ∀ kind, s.inFlight kind = []) (queue : next.agent.queue = s.agent.queue)
    (count : next.agent.count = s.agent.count)
    (displayed : next.displayed = s.displayed) (cleared : next.cleared = s.cleared)
    (seen : ∀ {γ : Type} {pick : AgentMessage N (CustomMessage K) → Option γ},
      Views (started? pick) pick → next.flying (started? pick) pick ⊆ s.flying (started? pick) pick)
    (handled : next.agent.activeRun = none → next.unhandled = []) : Mirrored next := by
  have flight : ∀ kind, next.inFlight kind = [] := by
    intro kind
    have none := landed kind
    rw [inFlight] at none
    rw [inFlight, cleared]
    exact eq_nil_of_subset_nil (none ▸ seen (entry_views _ kind))
  refine ⟨fun kind => ?_, fun kind => ?_, fun kind serial inside => ?_, fun kind => ?_,
    fun kind run active => ?_, handled, fun _ => flight⟩
  · rw [displayed, mirrored.displayed, landed, flight, waiting, waiting, queue]
  · rw [queue, count, cleared]
    exact mirrored.own kind
  · rw [count]
    exact mirrored.bounded kind serial (seen (serial_views kind) inside)
  · rw [count, cleared]
    exact mirrored.fresh kind
  · have none := flight kind
    rw [inFlight, flying, Agent.held, active] at none
    exact Or.inr (append_eq_nil_iff.mp none).2

theorem Mirrored.settle [JsonNumber N] (mirrored : Mirrored s)
    (handled : s.unhandled = []) {now : N} (settled : s.settle now = some next) :
    Mirrored next := by
  obtain ⟨run, active, cases⟩ := settle_cases settled
  have landed : run.loop.control ≠ .preparing → ∀ kind, s.inFlight kind = [] := by
    intro control kind
    rw [inFlight, flying_held handled, Agent.held, active]
    exact (mirrored.expects kind run active).resolve_left control
  rcases cases with ⟨control, rfl⟩ | ⟨error, failureMessage, state, control, rfl⟩
  · refine mirrored.of_landed (landed (by simp [control])) rfl rfl rfl rfl (fun _ => ?_)
      fun _ => handled
    rw [flying, handled]
    exact nil_subset _
  · refine mirrored.of_landed (landed (by simp [control])) rfl rfl rfl rfl (fun views => ?_)
      fun absurd => by cases absurd
    rw [flying_held handled, flying, Agent.held, Agent.held, active]
    simp [messageMarks, announce, views.started, views.stopped]

theorem Mirrored.abandon (mirrored : Mirrored s)
    (landed : ∀ kind, s.inFlight kind = []) (error : String) : Mirrored (s.abandon error) := by
  refine mirrored.of_landed landed rfl rfl rfl rfl (fun _ => ?_) fun _ => rfl
  have held : (s.abandon error).agent.held = s.agent.held := by
    rw [AgentSession.abandon, Agent.held, Agent.held]
    cases s.agent.activeRun <;> rfl
  rw [flying, flying, held]
  exact subset_append_right _ _

theorem listed?_text (shown : listed? cleared kind m = some text) : userText? m = some text := by
  unfold listed? at shown
  split at shown
  · split at shown
    · exact shown
    · cases shown
  · cases shown

theorem listed?_other {other : QueueKind} (differ : kind ≠ other)
    (shown : listed? cleared kind m = some text) : listed? cleared other m = none := by
  obtain ⟨origin, body⟩ := m
  cases kind <;> cases other <;> cases origin <;>
    first | rfl | exact absurd rfl differ | cases shown

theorem Mirrored.shown (mirrored : Mirrored s)
    {rest : List (Item N (CustomMessage K))} (unhandled : s.unhandled = item :: rest)
    (agent : next.agent = s.agent) (left : next.unhandled = rest)
    (cleared : next.cleared = s.cleared)
    (active : next.isAgentRunActive = s.isAgentRunActive)
    (erased : ∀ others : QueueKind → List Units,
      (∀ kind, s.displayed kind = (messageMarks [item]).filterMap
        (started? (listed? s.cleared kind)) ++ others kind) → next.displayed = others) :
    Mirrored next := by
  have split : ∀ {γ : Type} (view : Mark N (CustomMessage K) → Option γ)
      (pick : AgentMessage N (CustomMessage K) → Option γ), s.flying view pick =
        (messageMarks [item]).filterMap view ++ next.flying view pick := by
    intro γ view pick
    rw [flying, flying, unhandled, agent, left, ← append_assoc,
      ← filterMap_append, ← messageMarks_append, singleton_append]
  have flight : ∀ kind, s.inFlight kind = (messageMarks [item]).filterMap
      (started? (listed? s.cleared kind)) ++ next.inFlight kind := by
    intro kind
    rw [inFlight, split, inFlight, cleared]
  have displayed : next.displayed = fun kind => next.inFlight kind ++ waiting next.agent kind :=
    erased _ fun kind => by rw [mirrored.displayed, flight, append_assoc, agent]
  refine ⟨fun kind => by rw [displayed], ?_, fun kind serial inside => ?_, ?_, fun kind => ?_, ?_,
    ?_⟩
  · rw [agent, cleared]
    exact mirrored.own
  · rw [agent]
    exact mirrored.bounded kind serial (by rw [split]; exact mem_append_right _ inside)
  · rw [agent, cleared]
    exact mirrored.fresh
  · rw [AgentSession.Expects, agent, cleared]
    exact mirrored.expects kind
  · intro inactive
    rw [agent] at inactive
    have none := mirrored.handled inactive
    rw [unhandled] at none
    cases none
  · intro idle kind
    have none := mirrored.idle (by rw [isIdle, ← active]; exact idle) kind
    rw [flight] at none
    exact (append_eq_nil_iff.mp none).2

theorem removeQueued_displayed {m : AgentMessage N (CustomMessage K)}
    (is : userText? m = some text) (clean : StartsClean s m text)
    (shown : ∀ kind, s.displayed kind =
      (listed? s.cleared kind m).toList ++ others kind) :
    (s.removeQueued text).displayed = others := by
  have steering : s.steeringMessages = _ := shown .steering
  have followUp : s.followUpMessages = _ := shown .followUp
  funext kind
  rw [StartsClean] at clean
  cases first : listed? s.cleared .steering m with
  | some own =>
    have same : own = text := by
      have told := listed?_text first
      rw [is] at told
      exact (some.inj told).symm
    subst same
    rw [first] at clean steering
    rw [listed?_other (by decide) first] at followUp
    have inside : own ∈ s.steeringMessages := by rw [steering]; exact mem_cons_self
    rw [removeQueued, if_neg clean, if_pos inside]
    cases kind with
    | steering =>
      have left : s.steeringMessages.erase own = others .steering := by
        rw [steering]
        exact erase_cons_head own _
      exact left
    | followUp => exact followUp
  | none =>
    rw [first] at clean steering
    rw [if_neg (by simp)] at clean
    cases second : listed? s.cleared .followUp m with
    | some own =>
      have same : own = text := by
        have told := listed?_text second
        rw [is] at told
        exact (some.inj told).symm
      subst same
      rw [second] at clean followUp
      obtain ⟨some, outside⟩ : own ≠ [] ∧ own ∉ s.steeringMessages := clean
      rw [removeQueued, if_neg some, if_neg outside]
      cases kind with
      | steering => exact steering
      | followUp =>
        have left : s.followUpMessages.erase own = others .followUp := by
          rw [followUp]
          exact erase_cons_head own _
        exact left
    | none =>
      rw [second] at clean followUp
      rw [if_neg (by simp)] at clean
      have same : s.displayed kind = others kind := by
        cases kind with
        | steering => exact steering
        | followUp => exact followUp
      rcases clean with empty | ⟨outside, absent⟩
      · rw [removeQueued, if_pos empty, same]
      · rw [removeQueued, if_neg outside, erase_of_not_mem absent, ite_self]
        exact same

theorem started_displayed
    (clean : startsClean s item = true)
    (shown : ∀ kind, s.displayed kind =
      (messageMarks [item]).filterMap (started? (listed? s.cleared kind)) ++ others kind) :
    (s.started item).displayed = others := by
  cases item with
  | event event =>
    cases event with
    | messageStart m =>
      have entries : ∀ kind, s.displayed kind =
          (listed? s.cleared kind m).toList ++ others kind := by
        intro kind
        rw [shown]
        cases seen : listed? s.cleared kind m <;> simp [messageMarks, started?, seen]
      cases told : userText? m with
      | some text =>
        have start : s.started (.event (.messageStart m)) = s.removeQueued text := by
          simp only [started, removeStarted, told]
        rw [start]
        refine removeQueued_displayed told ?_ entries
        simpa [startsClean, told] using clean
      | none =>
        have same : s.started (.event (.messageStart m)) = s := by
          simp only [started, removeStarted, told]
        have none : ∀ kind, listed? s.cleared kind m = none := by
          intro kind
          cases seen : listed? s.cleared kind m with
          | none => rfl
          | some text =>
            rw [listed?_text seen] at told
            cases told
        funext kind
        rw [same, entries, none]
        rfl
    | _ => exact funext shown
  | _ => exact funext shown

theorem Mirrored.handle (mirrored : Mirrored s) {error : String}
    (shows : s.shows (.handle faults error) = true)
    (handled : s.handle faults error = some next) : Mirrored next := by
  obtain ⟨item, unhandled, is, cases⟩ := handle_cases handled
  rw [AgentSession.shows, is] at shows
  obtain ⟨clean, kept⟩ := Bool.and_eq_true_iff.mp shows
  obtain ⟨entries, custom, frame⟩ := handleItem_frame s faults item
  obtain ⟨steering, followUp, started⟩ := started_frame s item
  have left : Mirrored { (s.handleItem faults item).1 with unhandled } := by
    refine mirrored.shown is ?_ rfl ?_ ?_ fun others shown => ?_
    · rw [frame, started]
    · rw [frame, started]
    · rw [frame, started]
    · rw [frame, ← started_displayed clean shown]
      rfl
  rcases cases with ⟨-, rfl⟩ | ⟨threw, rfl⟩
  · exact left
  · refine left.abandon (fun kind => ?_) error
    rw [threw, Bool.false_or] at kept
    rw [frame, started]
    exact landed_iff.mp kept kind

theorem Mirrored.enqueue (mirrored : Mirrored s) (kind : QueueKind)
    (body : MessageBody N (CustomMessage K)) (unhandled : next.unhandled = s.unhandled)
    (cleared : next.cleared = s.cleared)
    (active : next.isAgentRunActive = s.isAgentRunActive)
    (run : next.agent.activeRun = s.agent.activeRun)
    (queue : (next.agent.queue kind).messages =
      (s.agent.queue kind).messages ++ [⟨kind.origin (s.agent.count kind), body⟩])
    (count : next.agent.count kind = s.agent.count kind + 1)
    (displayed : next.displayed kind = s.displayed kind ++ (userText? ⟨.prompt, body⟩).toList)
    (others : ∀ other, kind ≠ other → next.agent.queue other = s.agent.queue other ∧
      next.agent.count other = s.agent.count other ∧
      next.displayed other = s.displayed other) : Mirrored next := by
  have held : next.agent.held = s.agent.held := by rw [Agent.held, Agent.held, run]
  have flight : ∀ other, next.inFlight other = s.inFlight other := by
    intro other
    rw [inFlight, flying_eq unhandled held, cleared, inFlight]
  have grows : ∀ other, s.agent.count other ≤ next.agent.count other := by
    intro other
    by_cases same : kind = other
    · subst same
      omega
    · rw [(others other same).2.1]
  refine ⟨fun other => ?_, fun other => ?_, fun other serial inside => ?_, fun other => ?_,
    fun other => ?_, ?_, ?_⟩
  · by_cases same : kind = other
    · subst same
      have text : userText? ⟨kind.origin (s.agent.count kind), body⟩ =
          userText? (K := CustomMessage K) ⟨.prompt, body⟩ := rfl
      rw [displayed, mirrored.displayed, flight, waiting, waiting, queue, filterMap_append,
        append_assoc]
      cases told : userText? (K := CustomMessage K) ⟨.prompt, body⟩ <;> simp [text, told]
    · obtain ⟨queue, -, displayed⟩ := others other same
      rw [displayed, mirrored.displayed, flight, waiting, waiting, queue]
  · rw [cleared]
    by_cases same : kind = other
    · subst same
      intro m inside
      rw [queue] at inside
      rw [count]
      rcases mem_append.mp inside with earlier | last
      · obtain ⟨serial, origin, fresh, below⟩ := mirrored.own _ m earlier
        exact ⟨serial, origin, fresh, Nat.lt_succ_of_lt below⟩
      · rw [mem_singleton.mp last]
        exact ⟨_, rfl, mirrored.fresh _, Nat.lt_succ_self _⟩
    · obtain ⟨queue, count, -⟩ := others other same
      rw [queue, count]
      exact mirrored.own other
  · rw [flying_eq unhandled held] at inside
    exact Nat.lt_of_lt_of_le (mirrored.bounded other serial inside) (grows other)
  · rw [cleared]
    exact Nat.le_trans (mirrored.fresh other) (grows other)
  · rw [AgentSession.Expects, run, cleared]
    exact mirrored.expects other
  · rw [run, unhandled]
    exact mirrored.handled
  · intro idle other
    rw [flight]
    exact mirrored.idle (by rw [isIdle, ← active]; exact idle) other

theorem userText?_userMessage (text : Units) (images : List ImageContent) (now : N) :
    userText? (K := K) ⟨.prompt, .message (.user (userMessage text images now))⟩ = some text := by
  have none : (images.map fun image => MediaContent.image image.data image.mimeType).filterMap
      textOf = [] := by
    rw [filterMap_eq_nil_iff]
    intro content inside
    obtain ⟨image, -, rfl⟩ := mem_map.mp inside
    rfl
  simp [userText?, userMessage, contentText, textOf, none]

section

variable (mirrored : Mirrored s) (text : Units) (images : List ImageContent)

include mirrored

theorem Mirrored.queueSteer (now : N) : Mirrored (s.queueSteer text images now) := by
  refine mirrored.enqueue .steering (.message (.user (userMessage text images now)))
    rfl rfl rfl rfl rfl rfl ?_ fun other differ => ?_
  · rw [userText?_userMessage]
    rfl
  · cases other
    · exact absurd rfl differ
    · exact ⟨rfl, rfl, rfl⟩

theorem Mirrored.queueFollowUp (now : N) : Mirrored (s.queueFollowUp text images now) := by
  refine mirrored.enqueue .followUp (.message (.user (userMessage text images now)))
    rfl rfl rfl rfl rfl rfl ?_ fun other differ => ?_
  · rw [userText?_userMessage]
    rfl
  · cases other
    · exact ⟨rfl, rfl, rfl⟩
    · exact absurd rfl differ

theorem Mirrored.prompt
    (streamingBehavior : Option StreamingBehavior) (now : N) (faults : Faults K β) :
    Mirrored (s.prompt text images streamingBehavior now faults) := by
  obtain ⟨entries, bash, custom, flushed⟩ := flushPending_frame s faults
  unfold AgentSession.prompt
  split
  · cases streamingBehavior with
    | none => exact mirrored
    | some behavior =>
      cases behavior with
      | followUp => exact mirrored.queueFollowUp text images now
      | steer => exact mirrored.queueSteer text images now
  · dsimp only
    rw [flushed]
    split
    · exact mirrored.of_eq rfl rfl rfl rfl mirrored.idle
    · exact mirrored.of_eq rfl rfl rfl rfl mirrored.idle

end

theorem Mirrored.sendCustomMessage (mirrored : Mirrored s) (m : K)
    (triggerTurn : Option Bool) (deliverAs : Option DeliverAs) (now : N) (faults : Faults K β) :
    Mirrored (s.sendCustomMessage m triggerTurn deliverAs now faults) := by
  unfold AgentSession.sendCustomMessage
  dsimp only
  split
  · exact mirrored.of_eq rfl rfl rfl rfl mirrored.idle
  · split
    · split
      · refine mirrored.enqueue .followUp (.custom _) rfl rfl rfl rfl rfl rfl
          (append_nil _).symm fun other differ => ?_
        cases other
        · exact ⟨rfl, rfl, rfl⟩
        · exact absurd rfl differ
      · refine mirrored.enqueue .steering (.custom _) rfl rfl rfl rfl rfl rfl
          (append_nil _).symm fun other differ => ?_
        cases other
        · exact absurd rfl differ
        · exact ⟨rfl, rfl, rfl⟩
    · rename_i still
      split
      · rename_i triggers
        refine mirrored.runAgentPrompt (fun _ => mirrored.idle ?_) _ _ _
        simpa [isIdle, triggers] using still
      · split
        · exact mirrored.of_eq rfl rfl rfl rfl mirrored.idle
        · exact mirrored.of_eq rfl rfl rfl rfl mirrored.idle

theorem mem_flying {γ : Type} {pick : AgentMessage N (CustomMessage K) → Option γ} {v : γ} :
    v ∈ s.flying (started? pick) pick ↔ ∃ m,
      (.start m ∈ messageMarks s.unhandled ∨ m ∈ s.agent.held) ∧ pick m = some v := by
  rw [flying, mem_append, mem_filterMap, mem_filterMap]
  constructor
  · rintro (⟨mark, inside, seen⟩ | ⟨m, inside, seen⟩)
    · cases mark with
      | start m => exact ⟨m, Or.inl inside, seen⟩
      | stop m => cases seen
    · exact ⟨m, Or.inr inside, seen⟩
  · rintro ⟨m, inside | inside, seen⟩
    · exact Or.inl ⟨.start m, inside, seen⟩
    · exact Or.inr ⟨m, inside, seen⟩

theorem listed?_serial (shown : listed? cleared kind m = some text) :
    ∃ serial, kind.serial? m.origin = some serial ∧ cleared kind ≤ serial := by
  unfold listed? at shown
  split at shown
  · rename_i serial numbered
    split at shown
    · rename_i fresh
      exact ⟨serial, numbered, fresh⟩
    · cases shown
  · cases shown

/-- No message that is in flight has an entry any more. -/
theorem Mirrored.clearQueue (mirrored : Mirrored s) : Mirrored s.clearQueue := by
  have count : s.clearQueue.agent.count = s.agent.count := by
    funext kind
    cases kind <;> rfl
  have queue : ∀ kind, (s.clearQueue.agent.queue kind).messages = [] := by
    intro kind
    cases kind <;> rfl
  have flight : ∀ kind, s.clearQueue.inFlight kind = [] := by
    intro kind
    rw [eq_nil_iff_forall_not_mem]
    intro text inside
    obtain ⟨m, flies, shown⟩ := mem_flying.mp inside
    obtain ⟨serial, numbered, fresh⟩ := listed?_serial shown
    have below := mirrored.bounded kind serial (mem_flying.mpr ⟨m, flies, numbered⟩)
    exact absurd fresh (Nat.not_le_of_lt below)
  refine ⟨fun kind => ?_, fun kind => ?_, fun kind => ?_, fun kind => ?_, fun kind => ?_,
    mirrored.handled, fun _ => flight⟩
  · rw [flight, waiting, queue]
    cases kind <;> rfl
  · rw [queue]
    exact fun m inside => absurd inside not_mem_nil
  · rw [count]
    exact mirrored.bounded kind
  · rw [count]
    exact Nat.le_refl _
  · intro run active
    have none := flight kind
    rw [inFlight, flying, Agent.held, active] at none
    exact Or.inr (append_eq_nil_iff.mp none).2

theorem Mirrored.of_same (mirrored : Mirrored s)
    (queue : ∀ kind, (agent.queue kind).messages = (s.agent.queue kind).messages)
    (count : agent.count = s.agent.count) (held : agent.held = s.agent.held)
    (expects : ∀ kind, AgentSession.Expects (listed? s.cleared kind) { s with agent })
    (inactive : agent.activeRun = none → s.agent.activeRun = none) : Mirrored { s with agent } := by
  have flying : ∀ {γ : Type} (view : Mark N (CustomMessage K) → Option γ)
      (pick : AgentMessage N (CustomMessage K) → Option γ),
      flying view pick { s with agent } = s.flying view pick := by
    intro γ view pick
    rw [flying, flying, held]
  refine ⟨fun kind => ?_, fun kind => ?_, fun kind => ?_, fun kind => ?_, expects,
    fun none => mirrored.handled (inactive none), fun idle kind => ?_⟩
  · have shown := mirrored.displayed kind
    rw [waiting, queue, inFlight, flying]
    exact shown
  · rw [queue, count]
    exact mirrored.own kind
  · rw [flying, count]
    exact mirrored.bounded kind
  · rw [count]
    exact mirrored.fresh kind
  · rw [inFlight, flying]
    exact mirrored.idle idle kind

theorem Mirrored.setMode (mirrored : Mirrored s) (kind : QueueKind) (mode : QueueMode) :
    Mirrored { s with
      agent := s.agent.withQueue kind { s.agent.queue kind with mode } } := by
  have run : (s.agent.withQueue kind { s.agent.queue kind with mode }).activeRun =
      s.agent.activeRun := by cases kind <;> rfl
  refine mirrored.of_same (fun other => ?_) (funext fun other => Agent.count_withQueue kind other _)
    (by rw [Agent.held, Agent.held, run]) (fun kind => ?_) fun none => ?_
  · by_cases same : kind = other
    · subst same
      rw [Agent.queue_withQueue_self]
    · rw [Agent.queue_withQueue_other same]
  · rw [AgentSession.Expects, run]
    exact mirrored.expects kind
  · rw [run] at none
    exact none

theorem Mirrored.abort (mirrored : Mirrored s) : Mirrored { s with agent := s.agent.abort } := by
  refine mirrored.of_same (fun _ => rfl) rfl ?_ (fun kind run active => ?_) fun none => ?_
  · cases active : s.agent.activeRun <;>
      simp [Agent.held, Agent.abort, LoopState.abort, active]
  · obtain ⟨earlier, was, rfl⟩ := map_eq_some_iff.mp active
    exact mirrored.expects kind earlier was
  · exact map_eq_none_iff.mp none

theorem new_mirrored (opts : AgentOptions N (CustomMessage K)) :
    Mirrored (.new opts : AgentSession N K β) := by
  have queue : ∀ kind, ((.new opts : AgentSession N K β).agent.queue kind).messages = [] := by
    intro kind
    cases kind <;> rfl
  refine ⟨fun kind => ?_, fun kind => ?_, fun kind => ?_, fun kind => Nat.zero_le _,
    fun kind run active => ?_, fun _ => rfl, fun _ kind => rfl⟩
  · rw [waiting, queue]
    cases kind <;> rfl
  · rw [queue]
    exact fun m inside => absurd inside not_mem_nil
  · exact fun serial inside => absurd inside not_mem_nil
  · cases active

variable [JsonNumber N]

theorem step_mirrored {act : SessionAct N K β} (mirrored : Mirrored s)
    (shows : s.shows act = true) (stepped : s.step act = some next) : Mirrored next := by
  cases act with
  | prompt text images streamingBehavior now faults =>
    cases stepped
    exact mirrored.prompt text images streamingBehavior now faults
  | takeNextTurn i =>
    obtain ⟨m, -, rfl⟩ := map_eq_some_iff.mp stepped
    exact mirrored.of_eq rfl rfl rfl rfl mirrored.idle
  | discardPrompt i =>
    cases stepped
    exact mirrored.of_eq rfl rfl rfl rfl mirrored.idle
  | startPrompt i context now faults =>
    obtain ⟨messages, -, rfl⟩ := map_eq_some_iff.mp stepped
    have left : Mirrored { s with prompts := s.prompts.eraseIdx i } :=
      mirrored.of_eq rfl rfl rfl rfl mirrored.idle
    refine left.runAgentPrompt (fun active => landed_iff.mp ?_) _ now faults
    have inactive : s.agent.activeRun.isNone = false := by simpa using active
    rwa [AgentSession.shows, inactive, Bool.false_or] at shows
  | steer text images now =>
    cases stepped
    exact mirrored.queueSteer text images now
  | followUp text images now =>
    cases stepped
    exact mirrored.queueFollowUp text images now
  | sendCustomMessage m triggerTurn deliverAs now faults =>
    cases stepped
    exact mirrored.sendCustomMessage m triggerTurn deliverAs now faults
  | recordBashResult result =>
    cases stepped
    unfold recordBashResult
    dsimp only
    split
    · exact mirrored.of_eq rfl rfl rfl rfl mirrored.idle
    · exact mirrored.of_eq rfl rfl rfl rfl mirrored.idle
  | clearQueue =>
    cases stepped
    exact mirrored.clearQueue
  | setMode kind mode =>
    cases stepped
    exact mirrored.setMode kind mode
  | setMessages messages =>
    cases stepped
    exact mirrored.of_same (fun kind => by cases kind <;> rfl) (by funext kind; cases kind <;> rfl)
      rfl mirrored.expects id
  | abort =>
    cases stepped
    exact mirrored.abort
  | handle faults error => exact mirrored.handle shows stepped
  | poll =>
    rw [step] at stepped
    split at stepped
    · rename_i handled
      obtain ⟨agent, polled, rfl⟩ := map_eq_some_iff.mp stepped
      exact mirrored.poll handled shows polled
    · cases stepped
  | answer input =>
    rw [step] at stepped
    split at stepped
    · rename_i handled
      obtain ⟨agent, answered, rfl⟩ := map_eq_some_iff.mp stepped
      exact mirrored.answer handled shows answered
    · cases stepped
  | settle now =>
    rw [step] at stepped
    split at stepped
    · rename_i handled
      exact mirrored.settle handled stepped
    · cases stepped
  | handlePostAgentRun found faults => exact mirrored.handlePostAgentRun shows stepped

theorem mirrored_inductive :
    (agentSessionMachine : Machine (AgentSession N K β) (SessionAct N K β)).Inductive
    (fun s act => s.shows act = true) Mirrored where
  start s started := by
    obtain ⟨opts, rfl⟩ := started
    exact new_mirrored opts
  step _ _ _ mirrored shows taken := step_mirrored mirrored shows taken

/-- In a run in which every user message that starts removes its own entry and no other, and in
which none is lost on its way, or on its way while the session counts as idle, the displayed
texts of an idle session are those of the user messages in the queues. -/
theorem displayed_waiting
    (reached : agentSessionMachine.Reached (fun s act => s.shows act = true) s)
    (idle : s.isIdle = true) :
    s.steeringMessages = waiting s.agent .steering ∧
      s.followUpMessages = waiting s.agent .followUp := by
  have mirrored := mirrored_inductive.reached reached
  have shown : ∀ kind, s.displayed kind = waiting s.agent kind := by
    intro kind
    rw [mirrored.displayed, mirrored.idle idle, List.nil_append]
  exact ⟨shown .steering, shown .followUp⟩

end

def sampleSessionOptions : AgentOptions Int (CustomMessage Empty) :=
  { sampleOptions with messages := [] }

def sampleSession : AgentSession Int Empty Empty := .new sampleSessionOptions

theorem sampleSession_reached
    {allowed : AgentSession Int Empty Empty → SessionAct Int Empty Empty → Prop} :
    agentSessionMachine.Reached allowed sampleSession := .start ⟨sampleSessionOptions, rfl⟩

def sampleImage : ImageContent := ⟨"data", "image/png"⟩

/-- A message is steered before a run that fails at its first request; another one follows it. -/
def sampleQueueActs (steered : String) : List (SessionAct Int Empty Empty) :=
  [.steer (Utf16.units steered.toList) [sampleImage] 0,
    .prompt (Utf16.units "hello".toList) [] none 0 noFaults, .takeNextTurn 0,
    .startPrompt 0 [] 0 noFaults] ++
  List.replicate 4 (.handle noFaults "") ++ [.poll] ++ List.replicate 3 (.handle noFaults "") ++
  [.followUp (Utf16.units "later".toList) [] 0, .answer (.transformed (.error "no context")),
    .settle 0] ++
  List.replicate 4 (.handle noFaults "") ++ [.settle 0, .handlePostAgentRun .nothing noFaults]

def sampleShown : Option (AgentSession Int Empty Empty) :=
  agentSessionMachine.exec (fun s act => s.shows act = true) sampleSession (sampleQueueActs "wait")

theorem displayed_waiting_sample :
    ∃ s, sampleShown = some s ∧
      s.followUpMessages = [Utf16.units "later".toList] ∧
      (s.steeringMessages = waiting s.agent .steering ∧
        s.followUpMessages = waiting s.agent .followUp) := by
  have ran : sampleShown.isSome = true := by rfl
  obtain ⟨s, ran⟩ := Option.isSome_iff_exists.mp ran
  have later : sampleShown.map (·.followUpMessages) = some [Utf16.units "later".toList] := by rfl
  have idle : sampleShown.map (·.isIdle) = some true := by rfl
  rw [ran] at later idle
  exact ⟨s, ran, Option.some.inj later,
    displayed_waiting (sampleSession_reached.exec ran) (Option.some.inj idle)⟩

def sampleStale : Option (AgentSession Int Empty Empty) :=
  agentSessionMachine.exec (fun _ _ => True) sampleSession (sampleQueueActs "")

/-- An image without a text stays on display after it was delivered. -/
theorem displayed_stale :
    ∃ s : AgentSession Int Empty Empty,
      agentSessionMachine.Reached (fun _ _ => True) s ∧ s.isIdle = true ∧
        s.steeringMessages = [[]] ∧ waiting s.agent .steering = [] := by
  have ran : sampleStale.isSome = true := by rfl
  exact ⟨sampleStale.get ran, sampleSession_reached.exec (Option.some_get ran).symm, rfl, rfl, rfl⟩

end Trpi.CodingAgent
