import Trpi.CodingAgent.SessionSteps

/-!
# When deferred messages arrive once

Messages that have to wait are numbered within their kind. What the session has of a kind, what
the loop has of it and what still waits are together the numbers that were given out, in order,
unless an append throws before the last message of a list, a message is dropped on its way, or
one overtakes another.
-/

namespace Trpi.CodingAgent

open Library Ai Agent AgentSession List Option
open Library.Utf16 (Units)

variable {N K β : Type}

/-- The kinds of messages that are deferred. -/
inductive Kind where
  | steer | followUp | nextTurn | turnEnd | bash
  deriving DecidableEq

def Delivery.kind? : Delivery → Option Kind
  | .steer => some .steer
  | .followUp => some .followUp
  | .nextTurn => some .nextTurn
  | .turnEnd => some .turnEnd
  | .atOnce => none

def Kind.of : QueueKind → Kind
  | .steering => .steer
  | .followUp => .followUp

def CustomMessage.serial? (kind : Kind) (message : CustomMessage K) : Option Nat :=
  if message.delivery.kind? = some kind then some message.serial else none

def bodySerial? (kind : Kind) : MessageBody N (CustomMessage K) → Option Nat
  | .message _ => none
  | .custom message => message.serial? kind

def messageSerial? (kind : Kind) (message : AgentMessage N (CustomMessage K)) : Option Nat :=
  bodySerial? kind message.body

def entrySerial? (kind : Kind) : MessageEntry N K β → Option Nat
  | .message _ => none
  | .custom message => message.serial? kind
  | .bash message => if kind = .bash then some message.serial else none

def ended? {γ : Type} (pick : AgentMessage N K → Option γ) : Mark N K → Option γ
  | .start _ => none
  | .stop message => pick message

theorem number_views (kind : Kind) :
    Views (ended? (messageSerial? kind)) (messageSerial? (N := N) (K := K) kind) where
  announced m := by
    cases seen : messageSerial? kind m <;> simp [ended?, seen, filterMap_cons]
  started _ := rfl
  stopped _ := rfl
  toolResult _ := rfl

namespace AgentSession

def arrived (s : AgentSession N K β) (kind : Kind) : List Nat :=
  s.entries.filterMap (entrySerial? kind)

/-- The numbers of this kind in the loop and among its events. -/
def travelling (s : AgentSession N K β) (kind : Kind) : List Nat :=
  s.flying (ended? (messageSerial? kind)) (messageSerial? kind)

def waitingAt (s : AgentSession N K β) (place kind : Kind) : List Nat :=
  match place with
  | .steer => s.agent.steeringQueue.messages.filterMap (messageSerial? kind)
  | .followUp => s.agent.followUpQueue.messages.filterMap (messageSerial? kind)
  | .nextTurn => s.prompts.flatten.filterMap (bodySerial? kind) ++
      s.pendingNextTurnMessages.filterMap (CustomMessage.serial? kind)
  | .turnEnd => s.pendingCustomMessages.filterMap (CustomMessage.serial? kind)
  | .bash =>
    if kind = .bash then s.pendingBashMessages.map BashExecutionMessage.serial else []

/-- How many messages of this kind there were. -/
def counted (s : AgentSession N K β) : Kind → Nat
  | .steer => s.sent .steer
  | .followUp => s.sent .followUp
  | .nextTurn => s.sent .nextTurn
  | .turnEnd => s.sent .turnEnd
  | .bash => s.recorded

end AgentSession

/-- The message was sent to arrive later. -/
def isDeferred : MessageBody N (CustomMessage K) → Bool
  | .message _ => false
  | .custom message => message.delivery ≠ .atOnce

namespace AgentSession

def noneTravels (s : AgentSession N K β) : Bool :=
  [Kind.steer, .followUp, .nextTurn].all fun kind => (s.travelling kind).isEmpty

def flushes (s : AgentSession N K β) (faults : Faults K β) : Bool :=
  s.pendingBashMessages.all (fun message => !faults.bash message) &&
    s.pendingCustomMessages.dropLast.all fun message => !faults.custom message

/-- What an item brings to the entries gets there. -/
def keeps (s : AgentSession N K β) (faults : Faults K β) : Item N (CustomMessage K) → Bool
  | .event (.messageEnd message) => !faults.listener || !isDeferred message.body
  | .event (.turnEnd _ _) =>
    faults.listener || s.pendingCustomMessages.dropLast.all fun message =>
      !faults.custom message
  | _ => true

/-- Whether the run goes on after it ended. -/
def continues (s : AgentSession N K β) (found : PostAgentRun) : Bool :=
  s.goesOn found && s.agent.continue.isOk

/-- Every list is flushed up to its last message; no deferred message is cleared, in a prompt that
is given up, behind a later one, or on its way when a run fails, is refused or is given up as
finished; and none leaves a queue while the session counts as idle. -/
def delivers (s : AgentSession N K β) : SessionAct N K β → Bool
  | .discardPrompt i =>
    (s.prompts[i]?).all fun messages => messages.all fun body => !isDeferred body
  | .startPrompt i _ _ faults =>
    (s.prompts[i]?).all fun messages =>
      (messages.all (fun body => !isDeferred body) ||
        (s.prompts.take i).flatten.all fun body => !isDeferred body) &&
      (s.agent.activeRun.isNone ||
        messages.all (fun body => !isDeferred body) && s.noneTravels &&
          s.flushes faults)
  | .clearQueue =>
    (s.agent.steeringQueue.messages ++ s.agent.followUpQueue.messages).all
      fun message => !isDeferred message.body
  | .handle faults _ =>
    match s.unhandled with
    | [] => true
    | item :: unhandled => s.keeps faults item &&
        (s.handles faults item || { s with unhandled }.noneTravels)
  | .answer (.prepared (.error _)) => s.noneTravels
  | .poll => !s.isIdle ||
      (handsOut s.agent).all fun message => !isDeferred message.body
  | .handlePostAgentRun found faults =>
    (s.agent.activeRun.isNone || s.noneTravels) &&
      if s.continues found then
        !s.isIdle || (continued s.agent).all fun message => !isDeferred message.body
      else s.flushes faults
  | _ => true

end AgentSession

/-- The messages of a prompt that is about to start count after those on their way. -/
structure Deferred (bodies : List (MessageBody N (CustomMessage K)))
    (s : AgentSession N K β) : Prop where
  told : ∀ kind, s.arrived kind ++ s.travelling kind ++
    bodies.filterMap (bodySerial? kind) ++ s.waitingAt kind kind = List.range (s.counted kind)
  own : ∀ {place kind}, place ≠ kind → s.waitingAt place kind = []
  flushed : ∀ {kind}, kind = .turnEnd ∨ kind = .bash →
    s.travelling kind ++ bodies.filterMap (bodySerial? kind) = []
  expects : ∀ kind, s.Expects (messageSerial? kind)
  handled : s.agent.activeRun = none → s.unhandled = []
  idle : s.isIdle = true → (∀ kind, s.travelling kind = []) ∧
    s.pendingBashMessages = [] ∧ s.pendingCustomMessages = []

section

variable {s : AgentSession N K β} {bodies : List (MessageBody N (CustomMessage K))}
  {messages : List (AgentMessage N (CustomMessage K))}

theorem waitingAt_queue (s : AgentSession N K β) (queue : QueueKind) (kind : Kind) :
    s.waitingAt (Kind.of queue) kind =
      (s.agent.queue queue).messages.filterMap (messageSerial? kind) := by
  cases queue <;> rfl

theorem bodySerial?_isDeferred {body : MessageBody N (CustomMessage K)}
    (plain : (!isDeferred body) = true) (kind : Kind) : bodySerial? kind body = none := by
  cases body with
  | message => rfl
  | custom message =>
    have atOnce : message.delivery = .atOnce := by simpa [isDeferred] using plain
    rw [bodySerial?, CustomMessage.serial?, atOnce]
    exact if_neg nofun

theorem bodies_none (plain : (bodies.all fun body => !isDeferred body) = true) (kind : Kind) :
    bodies.filterMap (bodySerial? kind) = [] := by
  rw [filterMap_eq_nil_iff]
  exact fun body inside => bodySerial?_isDeferred (all_eq_true.mp plain body inside) kind

theorem messages_none (plain : (messages.all fun m => !isDeferred m.body) = true) (kind : Kind) :
    messages.filterMap (messageSerial? kind) = [] := by
  rw [filterMap_eq_nil_iff]
  exact fun m inside =>
    bodySerial?_isDeferred (all_eq_true.mp plain m inside) kind

theorem prompts_serials (bodies : List (MessageBody N (CustomMessage K))) (kind : Kind) :
    (bodies.map fun body =>
      ({ origin := .prompt, body } : AgentMessage N (CustomMessage K))).filterMap
        (messageSerial? kind) = bodies.filterMap (bodySerial? kind) := by
  rw [filterMap_map]
  rfl

theorem noneTravels_iff (deferred : Deferred bodies s) :
    s.noneTravels = true ↔ ∀ kind, s.travelling kind = [] := by
  simp only [noneTravels, List.all_cons, List.all_nil, Bool.and_true,
    Bool.and_eq_true, List.isEmpty_iff]
  constructor
  · rintro ⟨steer, followUp, nextTurn⟩ kind
    cases kind with
    | steer => exact steer
    | followUp => exact followUp
    | nextTurn => exact nextTurn
    | turnEnd => exact (List.append_eq_nil_iff.mp (deferred.flushed (.inl rfl))).1
    | bash => exact (List.append_eq_nil_iff.mp (deferred.flushed (.inr rfl))).1
  · exact fun none => ⟨none .steer, none .followUp, none .nextTurn⟩

variable {next : AgentSession N K β} {faults : Faults K β} {i : Nat}
  {rest : List (Item N (CustomMessage K))} {agent : Agent N (CustomMessage K)}
  {item : Item N (CustomMessage K)} {place : Kind}

theorem Deferred.taken (deferred : Deferred bodies s) {drained : Agent N (CustomMessage K)}
    (taken : Drained s.agent bodies drained messages)
    (queue : ∀ kind, next.agent.queue kind = drained.queue kind)
    (frame : ∀ {kind}, (∀ queue : QueueKind, Kind.of queue ≠ kind) →
      next.waitingAt kind kind = s.waitingAt kind kind)
    (kind : Kind) :
    messages.filterMap (messageSerial? kind) ++ next.waitingAt kind kind =
      bodies.filterMap (bodySerial? kind) ++ s.waitingAt kind kind := by
  have same : (∀ place : QueueKind, Kind.of place = kind → drained.queue place =
      s.agent.queue place) → next.waitingAt kind kind = s.waitingAt kind kind := by
    intro kept
    by_cases queued : ∃ place : QueueKind, Kind.of place = kind
    · obtain ⟨place, rfl⟩ := queued
      rw [waitingAt_queue, waitingAt_queue, queue, kept place rfl]
    · exact frame fun place is => queued ⟨place, is⟩
  cases taken with
  | prompts =>
    rw [prompts_serials, same fun _ _ => rfl]
  | queued from_ =>
    have whole := Agent.drain_messages (s.agent.queue from_)
    by_cases is : Kind.of from_ = kind
    · subst is
      rw [waitingAt_queue, waitingAt_queue, queue, Agent.queue_withQueue_self,
        ← filterMap_append, whole]
      rfl
    · have none := deferred.own is
      rw [waitingAt_queue, ← whole, filterMap_append] at none
      rw [(append_eq_nil_iff.mp none).1, same fun place other => ?_]
      · rfl
      · refine Agent.queue_withQueue_other (fun eq => is ?_) _
        rw [eq, other]

/-- The loop has gone on, with the messages of a prompt if it was given one. -/
theorem Deferred.advances (deferred : Deferred bodies s) {threw : Prop}
    (advances : Advances threw s bodies messages next)
    (kept : threw → ∀ kind, s.travelling kind = [])
    (frame : next = { s with
      agent := next.agent, unhandled := next.unhandled
      isAgentRunActive := next.isAgentRunActive, afterRun := next.afterRun })
    (idle : next.isIdle = true → s.isIdle = true ∧
      ∀ kind, messages.filterMap (messageSerial? kind) = []) : Deferred [] next := by
  obtain ⟨drained, taken, queue⟩ := advances.queues
  have travelling : ∀ kind, next.travelling kind =
      s.travelling kind ++ messages.filterMap (messageSerial? kind) := fun kind =>
    advances.flies (number_views kind) (deferred.expects kind)
  have still : ∀ {place kind}, (∀ queue, Kind.of queue ≠ place) →
      next.waitingAt place kind = s.waitingAt place kind := by
    intro place kind other
    cases place with
    | steer => exact absurd rfl (other .steering)
    | followUp => exact absurd rfl (other .followUp)
    | _ => rw [frame]; rfl
  have waits := deferred.taken taken queue still
  have counted : next.counted = s.counted := by
    rw [frame]
    funext kind
    cases kind <;> rfl
  refine ⟨fun kind => ?_, fun {place kind} differ => ?_, fun {kind} flushed => ?_, fun kind => ?_,
    fun inactive => ?_, fun isIdle => ?_⟩
  · have arrived : next.arrived kind = s.arrived kind := by rw [frame]; rfl
    rw [arrived, counted, ← deferred.told, travelling, filterMap_nil, append_nil,
      append_assoc _ _ (s.waitingAt kind kind), ← waits kind]
    simp only [append_assoc]
  · have none := deferred.own differ
    by_cases queued : ∃ place', Kind.of place' = place
    · obtain ⟨place, rfl⟩ := queued
      rw [waitingAt_queue, filterMap_eq_nil_iff] at none ⊢
      rw [queue]
      exact fun m inside => none m (taken.subset place inside)
    · rw [still fun place is => queued ⟨place, is⟩, none]
  · obtain ⟨flies, given⟩ := append_eq_nil_iff.mp (deferred.flushed flushed)
    have first := waits kind
    have other : ∀ queue : QueueKind, Kind.of queue ≠ kind := by
      intro queue is
      cases queue <;> rcases flushed with rfl | rfl <;> cases is
    rw [given, still other, nil_append, append_left_eq_self] at first
    rw [travelling, flies, first]
    rfl
  · exact advances.expects (number_views kind) (deferred.expects kind) fun threw => kept threw kind
  · have active := advances.active
    rw [inactive] at active
    cases active
  · obtain ⟨was, none⟩ := idle isIdle
    obtain ⟨flies, pending⟩ := deferred.idle was
    refine ⟨fun kind => by rw [travelling, flies, none kind]; rfl, ?_⟩
    rw [frame]
    exact pending

/-- A step that leaves the loop alone. -/
structure Rests (s next : AgentSession N K β) : Prop where
  unhandled : next.unhandled = s.unhandled
  run : next.agent.activeRun = s.agent.activeRun
  idle : next.isIdle = true → (∀ kind, s.travelling kind = []) ∧
    next.pendingBashMessages = [] ∧ next.pendingCustomMessages = []

theorem Deferred.of_run (deferred : Deferred bodies s) (rests : Rests s next)
    (told : ∀ kind, next.arrived kind ++ s.travelling kind ++ next.waitingAt kind kind =
      range (next.counted kind))
    (own : ∀ {place kind}, place ≠ kind → next.waitingAt place kind = []) : Deferred [] next := by
  have travelling : ∀ kind, next.travelling kind = s.travelling kind := fun kind =>
    flying_eq rests.unhandled (by rw [Agent.held, Agent.held, rests.run]) _ _
  refine ⟨fun kind => ?_, own, fun {kind} flushed => ?_, fun kind => ?_, ?_, fun isIdle => ?_⟩
  · rw [travelling, filterMap_nil, append_nil, told]
  · rw [travelling, (append_eq_nil_iff.mp (deferred.flushed flushed)).1]
    rfl
  · rw [AgentSession.Expects, rests.run]
    exact deferred.expects kind
  · rw [rests.run, rests.unhandled]
    exact deferred.handled
  · obtain ⟨flies, pending⟩ := rests.idle isIdle
    exact ⟨fun kind => by rw [travelling, flies], pending⟩

theorem Deferred.of_eq (deferred : Deferred [] s) (rests : Rests s next)
    (arrived : ∀ kind, next.arrived kind = s.arrived kind)
    (waits : ∀ place kind, next.waitingAt place kind = s.waitingAt place kind)
    (counted : ∀ kind, next.counted kind = s.counted kind) : Deferred [] next := by
  refine deferred.of_run rests (fun kind => ?_) fun {place kind} differ => ?_
  · have told := deferred.told kind
    rw [filterMap_nil, append_nil] at told
    rw [arrived, waits, told, counted]
  · rw [waits, deferred.own differ]

theorem appendUntil_all {α : Type} {fails : α → Bool} {messages : List α}
    (fine : (messages.all fun m => !fails m) = true) :
    appendUntil fails messages = (messages, false) := by
  induction messages with
  | nil => rfl
  | cons m messages ih =>
    obtain ⟨first, rest⟩ := Bool.and_eq_true_iff.mp fine
    have goes : fails m = false := by simpa using first
    rw [appendUntil, if_neg (by simp [goes]), ih rest]

theorem appendUntil_dropLast {α : Type} {fails : α → Bool} {messages : List α}
    (fine : (messages.dropLast.all fun m => !fails m) = true) :
    (appendUntil fails messages).1 = messages := by
  induction messages with
  | nil => rfl
  | cons m messages ih =>
    cases messages with
    | nil =>
      rw [appendUntil]
      split
      · rfl
      · rfl
    | cons other messages =>
      obtain ⟨first, rest⟩ := Bool.and_eq_true_iff.mp fine
      have goes : fails m = false := by simpa using first
      rw [appendUntil, if_neg (by simp [goes]), ih rest]

theorem Deferred.lands (deferred : Deferred [] s)
    (flushed : place = .turnEnd ∨ place = .bash) (rests : Rests s next)
    (arrived : ∀ kind, next.arrived kind = s.arrived kind ++ s.waitingAt place kind)
    (empty : ∀ kind, next.waitingAt place kind = [])
    (others : ∀ other kind, place ≠ other → next.waitingAt other kind = s.waitingAt other kind)
    (counted : ∀ kind, next.counted kind = s.counted kind) : Deferred [] next := by
  refine deferred.of_run rests (fun kind => ?_) fun {other kind} differ => ?_
  · have told := deferred.told kind
    rw [filterMap_nil, append_nil] at told
    rw [counted, ← told, arrived]
    by_cases same : place = kind
    · subst same
      rw [(append_eq_nil_iff.mp (deferred.flushed flushed)).1, empty]
      simp only [append_nil]
    · rw [deferred.own same, others kind kind same, append_nil]
  · by_cases same : place = other
    · subst same
      exact empty kind
    · rw [others other kind same, deferred.own differ]

theorem bash_arrive (messages : List (BashExecutionMessage β)) (kind : Kind) :
    (messages.map (MessageEntry.bash (N := N) (K := K))).filterMap (entrySerial? kind) =
      if kind = .bash then messages.map BashExecutionMessage.serial else [] := by
  rw [filterMap_map]
  split
  · rename_i is
    rw [← filterMap_eq_map]
    exact filterMap_congr fun m _ => if_pos is
  · rename_i not
    rw [filterMap_eq_nil_iff]
    exact fun m _ => if_neg not

theorem custom_arrive (messages : List (CustomMessage K)) (kind : Kind) :
    (messages.map (MessageEntry.custom (N := N) (β := β))).filterMap (entrySerial? kind) =
      messages.filterMap (CustomMessage.serial? kind) := by
  rw [filterMap_map]
  rfl

theorem Deferred.flushBash (deferred : Deferred [] s) {fails : BashExecutionMessage β → Bool}
    (fine : (s.pendingBashMessages.all fun m => !fails m) = true) :
    Deferred [] (s.flushPendingBashMessages fails).1 := by
  have flushed : (s.flushPendingBashMessages fails).1 = { s with
      entries := s.entries ++ s.pendingBashMessages.map .bash
      pendingBashMessages := [] } := by
    rw [flushPendingBashMessages, appendUntil_all fine]
    rfl
  rw [flushed]
  refine deferred.lands (.inr rfl) ⟨rfl, rfl, fun idle =>
    ⟨(deferred.idle idle).1, rfl, (deferred.idle idle).2.2⟩⟩ (fun kind => ?_) (fun kind => ?_)
    (fun other kind differ => ?_) fun kind => by cases kind <;> rfl
  · rw [arrived, filterMap_append, bash_arrive]
    rfl
  · exact ite_self _
  · cases other with
    | bash => exact absurd rfl differ
    | _ => rfl

theorem Deferred.flushCustom (deferred : Deferred [] s) {fails : CustomMessage K → Bool}
    (fine : (s.pendingCustomMessages.dropLast.all fun m => !fails m) = true) :
    Deferred [] (s.flushPendingCustomMessages fails).1 := by
  have flushed : (s.flushPendingCustomMessages fails).1 = { s with
      pendingCustomMessages := []
      entries := s.entries ++ s.pendingCustomMessages.map .custom } := by
    simp only [flushPendingCustomMessages, appendUntil_dropLast fine]
  rw [flushed]
  refine deferred.lands (.inl rfl) ⟨rfl, rfl, fun idle =>
    ⟨(deferred.idle idle).1, (deferred.idle idle).2.1, rfl⟩⟩ (fun kind => ?_) (fun _ => rfl)
    (fun other kind differ => ?_) fun kind => by cases kind <;> rfl
  · rw [arrived, filterMap_append, custom_arrive]
    rfl
  · cases other with
    | turnEnd => exact absurd rfl differ
    | _ => rfl

theorem flushPending_eq (fine : s.flushes faults = true) :
    s.flushPending faults =
      (s.flushPendingBashMessages faults.bash).1.flushPendingCustomMessages
        faults.custom := by
  have none : (s.flushPendingBashMessages faults.bash).2 = false := by
    rw [flushPendingBashMessages, appendUntil_all (Bool.and_eq_true_iff.mp fine).1]
  rw [flushPending]
  simp [none]

theorem Deferred.flushPending (deferred : Deferred [] s)
    (fine : s.flushes faults = true) : Deferred [] (s.flushPending faults).1 := by
  obtain ⟨bash, custom⟩ := Bool.and_eq_true_iff.mp fine
  rw [flushPending_eq fine]
  refine (deferred.flushBash bash).flushCustom ?_
  rw [flushPendingBashMessages]
  exact custom

/-- Nothing is left to wait for the end of the run. -/
theorem Deferred.finishAgentPrompt (deferred : Deferred [] s)
    (fine : s.flushes faults = true) (landed : ∀ kind, s.travelling kind = []) :
    Deferred [] (s.finishAgentPrompt faults) := by
  have flushed := deferred.flushPending fine
  obtain ⟨entries, bash, custom, frame⟩ := flushPending_frame s faults
  have still : ∀ kind, (s.flushPending faults).1.travelling kind = [] := by
    intro kind
    rw [frame]
    exact landed kind
  unfold AgentSession.finishAgentPrompt
  dsimp only
  split
  · exact flushed
  · refine flushed.of_eq ⟨rfl, rfl, fun _ => ⟨still, ?_⟩⟩ (fun _ => rfl) (fun _ _ => rfl)
      fun kind => by cases kind <;> rfl
    rw [flushPending_eq fine, flushPendingBashMessages,
      appendUntil_all (Bool.and_eq_true_iff.mp fine).1]
    exact ⟨rfl, rfl⟩

/-- Only the numbers of what is about to start matter. -/
theorem Deferred.holding (deferred : Deferred bodies s)
    {others : List (MessageBody N (CustomMessage K))}
    (same : ∀ kind, others.filterMap (bodySerial? kind) = bodies.filterMap (bodySerial? kind)) :
    Deferred others s where
  told kind := by rw [same, deferred.told]
  own := deferred.own
  flushed is := by rw [same, deferred.flushed is]
  expects := deferred.expects
  handled := deferred.handled
  idle := deferred.idle

theorem Deferred.runAgentPrompt (deferred : Deferred bodies s)
    (refused : s.agent.activeRun.isSome = true →
      (∀ kind, bodies.filterMap (bodySerial? kind) = []) ∧
        (∀ kind, s.travelling kind = []) ∧ s.flushes faults = true)
    (now : N) : Deferred [] (s.runAgentPrompt bodies now faults) := by
  rcases runAgentPrompt_cases s bodies now faults with
    ⟨active, refuses⟩ | ⟨inactive, agent, unhandled, started, advances⟩
  · obtain ⟨none, landed, fine⟩ := refused active
    rw [refuses]
    have left : Deferred [] s := deferred.holding fun kind => (none kind).symm
    have still : Deferred [] { s with isAgentRunActive := true } :=
      left.of_eq ⟨rfl, rfl, nofun⟩ (fun _ => rfl) (fun _ _ => rfl)
        fun kind => by cases kind <;> rfl
    exact still.finishAgentPrompt fine landed
  · rw [started]
    exact deferred.advances (advances (deferred.handled inactive)) False.elim rfl nofun

theorem Deferred.landed (deferred : Deferred bodies s)
    (inactive : s.agent.activeRun = none) (kind : Kind) : s.travelling kind = [] := by
  rw [travelling, flying_held (deferred.handled inactive), Agent.held, inactive]
  rfl

theorem Deferred.handlePostAgentRun (deferred : Deferred [] s) {found : PostAgentRun}
    (fine : s.delivers (.handlePostAgentRun found faults) = true)
    (handled : s.handlePostAgentRun found faults = some next) : Deferred [] next := by
  obtain ⟨over_, fine⟩ := Bool.and_eq_true_iff.mp fine
  have landed : ∀ kind, s.travelling kind = [] := by
    cases active : s.agent.activeRun with
    | none => exact deferred.landed active
    | some run =>
      rw [active, isNone_some, Bool.false_or] at over_
      exact (noneTravels_iff deferred).mp over_
  unfold AgentSession.handlePostAgentRun at handled
  split at handled
  · cases handled
  · rename_i afterRun _
    have left : Deferred [] { s with afterRun } :=
      deferred.of_eq ⟨rfl, rfl, deferred.idle⟩ (fun _ => rfl) (fun _ _ => rfl)
        fun kind => by cases kind <;> rfl
    split at handled
    · rename_i goesOn
      split at handled
      · rename_i error refused
        cases handled
        rw [if_neg (by simp [continues, refused, Except.isOk, Except.toBool])] at fine
        exact left.finishAgentPrompt fine landed
      · rename_i agent continued
        cases handled
        rw [if_pos (by
          simp [continues, goesOn, continued, Except.isOk, Except.toBool])] at fine
        obtain ⟨inactive, advances⟩ := continue_advances continued
        refine deferred.advances (advances (deferred.handled inactive) afterRun) False.elim rfl
          fun idle => ⟨idle, messages_none ?_⟩
        have idle : s.isIdle = true := idle
        rwa [idle, Bool.not_true, Bool.false_or] at fine
    · rename_i stops
      cases handled
      rw [if_neg (by simp [continues, stops])] at fine
      exact left.finishAgentPrompt fine landed

theorem Deferred.poll (deferred : Deferred [] s) (handled : s.unhandled = [])
    (fine : s.delivers .poll = true) (polled : s.agent.poll = some agent) :
    Deferred [] { s with
      agent
      unhandled := emitted s.agent
        (.polled (handsOut s.agent)) } := by
  refine deferred.advances (poll_advances handled polled) False.elim rfl
    fun idle => ⟨idle, messages_none ?_⟩
  have idle : s.isIdle = true := idle
  rwa [delivers, idle, Bool.not_true, Bool.false_or] at fine

theorem Deferred.answer (deferred : Deferred [] s) (handled : s.unhandled = [])
    {input : Input N (CustomMessage K)} (fine : s.delivers (.answer input) = true)
    (answered : s.agent.answer input = some agent) :
    Deferred [] { s with agent, unhandled := emitted s.agent input } := by
  refine deferred.advances (answer_advances handled answered) ?_ rfl
    fun idle => ⟨idle, fun _ => rfl⟩
  rintro ⟨error, rfl⟩
  exact (noneTravels_iff deferred).mp fine

/-- Nothing is on its way, and nothing that waits changes. -/
theorem Deferred.of_landed (deferred : Deferred [] s)
    (landed : ∀ kind, s.travelling kind = [])
    (frame : next = { s with
      agent := next.agent, unhandled := next.unhandled
      failing := next.failing, afterRun := next.afterRun })
    (queue : next.agent.queue = s.agent.queue)
    (seen : ∀ kind, next.travelling kind ⊆ s.travelling kind)
    (handled : next.agent.activeRun = none → next.unhandled = []) : Deferred [] next := by
  have still : ∀ kind, next.travelling kind = [] := fun kind =>
    eq_nil_of_subset_nil (landed kind ▸ seen kind)
  have waits : ∀ place kind, next.waitingAt place kind = s.waitingAt place kind := by
    intro place kind
    cases place with
    | steer => exact (waitingAt_queue next .steering kind).trans (by rw [queue]; rfl)
    | followUp => exact (waitingAt_queue next .followUp kind).trans (by rw [queue]; rfl)
    | _ => rw [frame]; rfl
  refine ⟨fun kind => ?_, fun differ => ?_, fun _ => ?_, fun kind run active => ?_, handled,
    fun idle => ⟨still, ?_⟩⟩
  · have arrived : next.arrived kind = s.arrived kind := by rw [frame]; rfl
    have counted : next.counted kind = s.counted kind := by rw [frame]; cases kind <;> rfl
    rw [arrived, waits, counted, still, ← deferred.told, landed]
  · rw [waits, deferred.own differ]
  · rw [still]
    rfl
  · have none := still kind
    rw [travelling, flying, Agent.held, active] at none
    exact Or.inr (append_eq_nil_iff.mp none).2
  · have was : s.isIdle = true := by rw [frame] at idle; exact idle
    rw [frame]
    exact (deferred.idle was).2

theorem Deferred.settle [JsonNumber N] (deferred : Deferred [] s)
    (handled : s.unhandled = []) {now : N} (settled : s.settle now = some next) :
    Deferred [] next := by
  obtain ⟨run, active, cases⟩ := settle_cases settled
  have landed : run.loop.control ≠ .preparing → ∀ kind, s.travelling kind = [] := by
    intro control kind
    rw [travelling, flying_held handled, Agent.held, active]
    exact (deferred.expects kind run active).resolve_left control
  rcases cases with ⟨control, rfl⟩ | ⟨error, failureMessage, state, control, rfl⟩
  · refine deferred.of_landed (landed (by simp [control])) rfl rfl (fun kind => ?_)
      fun _ => handled
    rw [travelling, flying, handled]
    exact nil_subset _
  · refine deferred.of_landed (landed (by simp [control])) rfl rfl (fun kind => ?_)
      fun absurd => by cases absurd
    rw [travelling, travelling, flying_held handled, flying, Agent.held, Agent.held, active]
    exact List.Subset.refl _

section

variable (deferred : Deferred [] s)

include deferred

theorem Deferred.abandon
    (landed : ∀ kind, s.travelling kind = []) (error : String) : Deferred [] (s.abandon error) := by
  refine deferred.of_landed landed rfl rfl (fun kind => ?_) fun _ => rfl
  have held : (s.abandon error).agent.held = s.agent.held := by
    rw [AgentSession.abandon, Agent.held, Agent.held]
    cases s.agent.activeRun <;> rfl
  rw [travelling, travelling, flying, flying, held]
  exact subset_append_right _ _

theorem Deferred.pops (unhandled : s.unhandled = item :: rest)
    (agent : next.agent = s.agent) (left : next.unhandled = rest)
    (arrived : ∀ kind, next.arrived kind = s.arrived kind ++
      (messageMarks [item]).filterMap (ended? (messageSerial? kind)))
    (waits : ∀ place kind, next.waitingAt place kind = s.waitingAt place kind)
    (counted : ∀ kind, next.counted kind = s.counted kind)
    (idle : next.isIdle = true → s.isIdle = true ∧
      next.pendingBashMessages = s.pendingBashMessages ∧
      next.pendingCustomMessages = s.pendingCustomMessages) : Deferred [] next := by
  have split : ∀ kind, s.travelling kind =
      (messageMarks [item]).filterMap (ended? (messageSerial? kind)) ++ next.travelling kind := by
    intro kind
    rw [travelling, flying, unhandled, travelling, flying, agent, left, ← append_assoc,
      ← filterMap_append, ← messageMarks_append, singleton_append]
  refine ⟨fun kind => ?_, fun differ => ?_, fun {kind} flushed => ?_, fun kind => ?_,
    fun inactive => ?_, fun isIdle => ?_⟩
  · rw [arrived, waits, counted, ← deferred.told, split]
    simp only [append_assoc]
  · rw [waits, deferred.own differ]
  · have none := (append_eq_nil_iff.mp (deferred.flushed flushed)).1
    rw [split] at none
    rw [(append_eq_nil_iff.mp none).2]
    rfl
  · rw [AgentSession.Expects, agent]
    exact deferred.expects kind
  · rw [agent] at inactive
    have none := deferred.handled inactive
    rw [unhandled] at none
    cases none
  · obtain ⟨was, bash, custom⟩ := idle isIdle
    obtain ⟨none, pending⟩ := deferred.idle was
    refine ⟨fun kind => ?_, by rwa [bash, custom]⟩
    have none := none kind
    rw [split] at none
    exact (append_eq_nil_iff.mp none).2

theorem Deferred.handleItem (unhandled : s.unhandled = item :: rest)
    (keeps : s.keeps faults item = true) :
    Deferred [] { (s.handleItem faults item).1 with unhandled := rest } := by
  have idle : ∀ {P Q : Prop}, P → Q → s.isIdle = true → s.isIdle = true ∧ P ∧ Q :=
    fun left right idle => ⟨idle, left, right⟩
  have silent : (∀ kind, (messageMarks [item]).filterMap
      (ended? (messageSerial? kind)) = []) →
      Deferred [] { s.started item with unhandled := rest } := by
    intro none
    obtain ⟨steering, followUp, frame⟩ := started_frame s item
    rw [frame]
    refine deferred.pops unhandled rfl rfl (fun kind => ?_)
      (fun place kind => by cases place <;> rfl) (fun kind => by cases kind <;> rfl)
      (idle rfl rfl)
    rw [none, append_nil]
    rfl
  cases item with
  | event event =>
    cases throws : faults.listener with
    | true =>
      have same : s.handleItem faults (.event event) = (s.started (.event event), true) := by
        simp [AgentSession.handleItem, AgentSession.handleAgentEvent, throws, AgentSession.started]
      rw [same]
      refine silent fun kind => ?_
      cases event with
      | messageEnd m =>
        have plain : (!isDeferred m.body) = true := by
          simpa [AgentSession.keeps, throws] using keeps
        have none : messageSerial? kind m = none := bodySerial?_isDeferred plain kind
        simp [messageMarks, ended?, none]
      | _ => rfl
    | false =>
      cases event with
      | messageEnd m =>
        have appended : (s.handleItem faults (.event (.messageEnd m))).1 =
            { s with entries := s.entries ++ [AgentSession.entryOf m] } := by
          simp [AgentSession.handleItem, AgentSession.handleAgentEvent, throws,
            AgentSession.removeStarted]
        rw [appended]
        refine deferred.pops unhandled rfl rfl (fun kind => ?_)
          (fun place kind => by cases place <;> rfl) (fun kind => by cases kind <;> rfl)
          (idle rfl rfl)
        have told : entrySerial? (β := β) kind (AgentSession.entryOf m) =
            messageSerial? kind m := by
          rw [AgentSession.entryOf, messageSerial?]
          cases m.body <;> rfl
        rw [AgentSession.arrived, filterMap_append, AgentSession.arrived]
        cases seen : messageSerial? kind m <;>
          simp [told, seen, messageMarks, ended?]
      | turnEnd m toolResults =>
        have fine : (s.pendingCustomMessages.dropLast.all fun m =>
            !faults.custom m) = true := by
          simpa [AgentSession.keeps, throws] using keeps
        have flushed : (s.handleItem faults (.event (.turnEnd m toolResults))).1 =
            (s.flushPendingCustomMessages faults.custom).1 := by
          simp [AgentSession.handleItem, AgentSession.handleAgentEvent, throws,
            AgentSession.removeStarted]
        rw [flushed]
        have left : Deferred [] { s with unhandled := rest } := silent fun _ => rfl
        exact left.flushCustom fine
      | _ =>
        have left := silent fun _ => rfl
        simpa only [AgentSession.handleItem, AgentSession.handleAgentEvent, throws,
          AgentSession.started, Bool.false_eq_true, if_false] using left
  | _ => exact silent fun _ => rfl

theorem Deferred.handle {error : String}
    (fine : s.delivers (.handle faults error) = true)
    (handled : s.handle faults error = some next) : Deferred [] next := by
  obtain ⟨item, unhandled, is, cases⟩ := handle_cases handled
  rw [delivers, is] at fine
  obtain ⟨keeps, kept⟩ := Bool.and_eq_true_iff.mp fine
  have left := deferred.handleItem is keeps
  rcases cases with ⟨-, rfl⟩ | ⟨threw, rfl⟩
  · exact left
  · rw [threw, Bool.false_or] at kept
    obtain ⟨entries, custom, frame⟩ := handleItem_frame s faults item
    obtain ⟨steering, followUp, started⟩ := started_frame s item
    refine left.abandon ((noneTravels_iff left).mp ?_) error
    rw [frame, started]
    exact kept

end

theorem Deferred.enqueued (deferred : Deferred [] s) (place : Kind) (rests : Rests s next)
    (arrived : ∀ kind, next.arrived kind = s.arrived kind)
    (waits : ∀ other kind, next.waitingAt other kind = s.waitingAt other kind ++
      if other = place ∧ kind = place then [s.counted place] else [])
    (counted : ∀ kind, next.counted kind = s.counted kind + if kind = place then 1 else 0) :
    Deferred [] next := by
  refine deferred.of_run rests (fun kind => ?_) fun {other kind} differ => ?_
  · have told := deferred.told kind
    rw [filterMap_nil, append_nil] at told
    rw [arrived, waits, ← append_assoc, told, counted]
    by_cases same : kind = place
    · subst same
      rw [if_pos ⟨rfl, rfl⟩, if_pos rfl, range_succ]
    · rw [if_neg fun both => same both.1, if_neg same, append_nil, Nat.add_zero]
  · rw [waits, deferred.own differ, if_neg fun both => differ (both.1.trans both.2.symm)]
    rfl

theorem serial?_own {delivery : Delivery} (own : delivery.kind? = some place) (serial : Nat)
    (content : K) (kind : Kind) :
    [CustomMessage.mk delivery serial content].filterMap (CustomMessage.serial? kind) =
      if kind = place then [serial] else [] := by
  rw [filterMap_cons, CustomMessage.serial?, own]
  by_cases same : kind = place
  · subst same
    rw [if_pos rfl, if_pos rfl]
    rfl
  · rw [if_neg fun eq => same (some.inj eq).symm, if_neg same]
    rfl

section

variable (deferred : Deferred [] s)

include deferred

theorem Deferred.queueCustom (queue : QueueKind)
    {delivery : Delivery} (own : delivery.kind? = some (Kind.of queue)) (content : K)
    (rests : Rests s next)
    (arrived : next.entries = s.entries)
    (queued : ∃ origin, (next.agent.queue queue).messages = (s.agent.queue queue).messages ++
      [⟨origin, .custom ⟨delivery, s.counted (Kind.of queue), content⟩⟩])
    (others : ∀ place kind, place ≠ Kind.of queue →
      next.waitingAt place kind = s.waitingAt place kind)
    (counted : ∀ kind, next.counted kind =
      s.counted kind + if kind = Kind.of queue then 1 else 0) : Deferred [] next := by
  refine deferred.enqueued (Kind.of queue) rests (fun kind => ?_) (fun place kind => ?_) counted
  · rw [AgentSession.arrived, arrived, AgentSession.arrived]
  · by_cases same : place = Kind.of queue
    · subst same
      obtain ⟨origin, messages⟩ := queued
      rw [waitingAt_queue, waitingAt_queue, messages, filterMap_append]
      have last := serial?_own own (s.counted (Kind.of queue)) content kind
      simp only [true_and]
      rw [← last]
      rfl
    · rw [others place kind same, if_neg fun both => same both.1, append_nil]

theorem Deferred.sendCustomMessage (content : K)
    (triggerTurn : Option Bool) (deliverAs : Option DeliverAs) (now : N) (faults : Faults K β) :
    Deferred [] (s.sendCustomMessage content triggerTurn deliverAs now faults) := by
  unfold AgentSession.sendCustomMessage
  dsimp only
  split
  · refine deferred.enqueued .nextTurn ⟨rfl, rfl, deferred.idle⟩ (fun _ => rfl)
      (fun place kind => ?_) fun kind => by cases kind <;> rfl
    cases place with
    | nextTurn =>
      simp only [waitingAt, true_and]
      rw [filterMap_append, serial?_own rfl, append_assoc]
      rfl
    | _ => exact (append_nil _).symm
  · split
    · split
      · refine deferred.queueCustom .followUp rfl content ⟨rfl, rfl, deferred.idle⟩ rfl ⟨_, rfl⟩
          (fun place kind differ => ?_) fun kind => by cases kind <;> rfl
        cases place with
        | followUp => exact absurd rfl differ
        | _ => rfl
      · refine deferred.queueCustom .steering rfl content ⟨rfl, rfl, deferred.idle⟩ rfl ⟨_, rfl⟩
          (fun place kind differ => ?_) fun kind => by cases kind <;> rfl
        cases place with
        | steer => exact absurd rfl differ
        | _ => rfl
    · rename_i still
      split
      · rename_i triggers
        have idle : s.isIdle = true := by
          simpa [isIdle, triggers] using still
        obtain ⟨landed, bash, custom⟩ := deferred.idle idle
        have none : ∀ kind, [(.custom ⟨.atOnce, s.sent .atOnce, content⟩ :
            MessageBody N (CustomMessage K))].filterMap (bodySerial? kind) = [] :=
          bodies_none rfl
        exact (deferred.holding none).runAgentPrompt
          (fun _ => ⟨none, landed, by simp [flushes, bash, custom]⟩) now
      · split
        · rename_i active
          have active : s.isIdle = false := by simp [isIdle, active]
          refine deferred.enqueued .turnEnd ⟨rfl, rfl, fun idle => by cases active.symm.trans idle⟩
            (fun _ => rfl) (fun place kind => ?_) fun kind => by cases kind <;> rfl
          · cases place with
            | turnEnd =>
              simp only [waitingAt, true_and]
              rw [filterMap_append, serial?_own rfl]
              rfl
            | _ => exact (append_nil _).symm
        · refine deferred.of_eq ⟨rfl, rfl, deferred.idle⟩ (fun kind => ?_)
            (fun place kind => by cases place <;> rfl) fun kind => by cases kind <;> rfl
          rw [arrived, filterMap_append]
          exact append_nil _

theorem Deferred.recordBashResult (result : β) : Deferred [] (s.recordBashResult result) := by
  unfold AgentSession.recordBashResult
  dsimp only
  split
  · rename_i active
    have active : s.isIdle = false := by simp [isIdle, active]
    refine deferred.enqueued .bash ⟨rfl, rfl, fun idle => by cases active.symm.trans idle⟩
      (fun _ => rfl) (fun place kind => ?_) fun kind => by cases kind <;> rfl
    · cases place with
      | bash =>
        simp only [waitingAt, true_and]
        split
        · exact map_append
        · rfl
      | _ => exact (append_nil _).symm
  · rename_i inactive
    have idle : s.isIdle = true := by simpa [isIdle] using inactive
    obtain ⟨landed, bash, -⟩ := deferred.idle idle
    refine deferred.of_run ⟨rfl, rfl, deferred.idle⟩ (fun kind => ?_)
      fun {place kind} differ => (by cases place <;> rfl : _ = _).trans (deferred.own differ)
    have told := deferred.told kind
    rw [landed, filterMap_nil, append_nil, append_nil] at told
    rw [landed, append_nil, arrived, filterMap_append]
    by_cases same : kind = .bash
    · subst same
      have none : s.waitingAt .bash .bash = [] := by
        rw [waitingAt, bash]
        rfl
      rw [none, append_nil] at told
      have last : filterMap (entrySerial? (N := N) (K := K) .bash)
          [.bash { serial := s.recorded, result }] = [s.recorded] := rfl
      have waits : waitingAt { s with
          recorded := s.recorded + 1
          entries := s.entries ++ [.bash { serial := s.recorded, result }] }
          .bash .bash = [] := none
      rw [waits, append_nil, last]
      have counted : s.arrived .bash = range s.recorded := told
      exact (congrArg (· ++ [s.recorded]) counted).trans range_succ.symm
    · have none : filterMap (entrySerial? (N := N) (K := K) kind)
          [.bash { serial := s.recorded, result }] = [] := by
        rw [filterMap_eq_nil_iff]
        intro e inside
        rw [mem_singleton.mp inside]
        exact if_neg same
      rw [none, append_nil]
      cases kind with
      | bash => exact absurd rfl same
      | _ => exact told

theorem Deferred.queueSteer (text : Units) (images : List ImageContent) (now : N) :
    Deferred [] (s.queueSteer text images now) := by
  refine deferred.of_eq ⟨rfl, rfl, deferred.idle⟩ (fun _ => rfl) (fun place kind => ?_)
    fun kind => by cases kind <;> rfl
  cases place with
  | steer => exact filterMap_append.trans (append_nil _)
  | _ => rfl

theorem Deferred.queueFollowUp (text : Units) (images : List ImageContent) (now : N) :
    Deferred [] (s.queueFollowUp text images now) := by
  refine deferred.of_eq ⟨rfl, rfl, deferred.idle⟩ (fun _ => rfl) (fun place kind => ?_)
    fun kind => by cases kind <;> rfl
  cases place with
  | followUp => exact filterMap_append.trans (append_nil _)
  | _ => rfl

end

theorem Deferred.prompt (deferred : Deferred [] s) (text : Units)
    (images : List ImageContent) (streamingBehavior : Option StreamingBehavior) (now : N)
    (faults : Faults K β) : Deferred [] (s.prompt text images streamingBehavior now faults) := by
  unfold AgentSession.prompt
  split
  · cases streamingBehavior with
    | none => exact deferred
    | some behavior =>
      cases behavior with
      | followUp => exact deferred.queueFollowUp text images now
      | steer => exact deferred.queueSteer text images now
  · rename_i inactive
    obtain ⟨-, bash, custom⟩ := deferred.idle (by simpa [isIdle] using inactive)
    have fine : s.flushes faults = true := by simp [flushes, bash, custom]
    have flushed := deferred.flushPending fine
    dsimp only
    split
    · exact flushed
    · exact flushed.of_eq ⟨rfl, rfl, flushed.idle⟩ (fun _ => rfl)
        (fun place _ => by cases place <;> rfl) fun kind => by cases kind <;> rfl

theorem Deferred.takeNextTurn (deferred : Deferred [] s)
    (taken : s.takeNextTurn i = some next) : Deferred [] next := by
  obtain ⟨m, -, rfl⟩ := map_eq_some_iff.mp taken
  refine deferred.of_eq ⟨rfl, rfl, deferred.idle⟩ (fun _ => rfl) (fun place kind => ?_)
    fun kind => by cases kind <;> rfl
  cases place with
  | nextTurn =>
    have given : (s.pendingNextTurnMessages.map
        (MessageBody.custom (N := N))).filterMap (bodySerial? kind) =
          s.pendingNextTurnMessages.filterMap (CustomMessage.serial? kind) := by
      rw [filterMap_map]
      rfl
    rw [waitingAt, waitingAt, flatten_append,
      filterMap_append, ← given, flatten_singleton, filterMap_nil, append_nil]
    rfl
  | _ => rfl

theorem prompts_take {prompts : List (List (MessageBody N (CustomMessage K)))}
    {messages : List (MessageBody N (CustomMessage K))} (is : prompts[i]? = some messages)
    {kind : Kind}
    (first : messages.filterMap (bodySerial? kind) = [] ∨
      (prompts.take i).flatten.filterMap (bodySerial? kind) = []) :
    prompts.flatten.filterMap (bodySerial? kind) =
      messages.filterMap (bodySerial? kind) ++
        (prompts.eraseIdx i).flatten.filterMap (bodySerial? kind) := by
  obtain ⟨inside, rfl⟩ := List.getElem?_eq_some_iff.mp is
  have whole : prompts = prompts.take i ++ prompts[i] :: prompts.drop (i + 1) := by
    rw [← drop_eq_getElem_cons inside, take_append_drop]
  have parts : prompts.flatten.filterMap (bodySerial? kind) =
      (prompts.take i).flatten.filterMap (bodySerial? kind) ++
        (prompts[i].filterMap (bodySerial? kind) ++
          (prompts.drop (i + 1)).flatten.filterMap (bodySerial? kind)) := by
    conv_lhs => rw [whole]
    rw [flatten_append, flatten_cons, filterMap_append, filterMap_append]
  rw [parts, eraseIdx_eq_take_drop_succ, flatten_append, filterMap_append]
  rcases first with none | none
  · rw [none, nil_append, nil_append]
  · rw [none, nil_append, nil_append]

theorem Deferred.discardPrompt (deferred : Deferred [] s)
    (fine : s.delivers (.discardPrompt i) = true) :
    Deferred [] { s with prompts := s.prompts.eraseIdx i } := by
  refine deferred.of_eq ⟨rfl, rfl, deferred.idle⟩ (fun _ => rfl) (fun place kind => ?_)
    fun kind => by cases kind <;> rfl
  cases place with
  | nextTurn =>
    rw [waitingAt, waitingAt]
    cases is : s.prompts[i]? with
    | none =>
      rw [eraseIdx_of_length_le (getElem?_eq_none_iff.mp is)]
    | some messages =>
      rw [delivers, is] at fine
      have none := bodies_none fine kind
      rw [prompts_take is (.inl none), none]
      rfl
  | _ => rfl

theorem Deferred.startPrompt (deferred : Deferred [] s) {context : List K} {now : N}
    (fine : s.delivers (.startPrompt i context now faults) = true)
    (started : s.startPrompt i context now faults = some next) : Deferred [] next := by
  obtain ⟨messages, is, rfl⟩ := map_eq_some_iff.mp started
  rw [delivers, is] at fine
  obtain ⟨first, refused⟩ := Bool.and_eq_true_iff.mp fine
  have taken : ∀ kind, s.prompts.flatten.filterMap (bodySerial? kind) =
      messages.filterMap (bodySerial? kind) ++
        (s.prompts.eraseIdx i).flatten.filterMap (bodySerial? kind) := fun kind =>
    prompts_take is ((Bool.or_eq_true_iff.mp first).imp (bodies_none · kind) (bodies_none · kind))
  have empty : ∀ {kind}, Kind.nextTurn ≠ kind → messages.filterMap (bodySerial? kind) = [] ∧
      waitingAt { s with prompts := s.prompts.eraseIdx i }
        .nextTurn kind = [] := by
    intro kind differ
    have none := deferred.own differ
    rw [waitingAt, taken, append_assoc] at none
    exact append_eq_nil_iff.mp none
  have left : Deferred messages { s with prompts := s.prompts.eraseIdx i } := by
    refine ⟨fun kind => ?_, fun {place kind} differ => ?_, fun {kind} flushed => ?_,
      deferred.expects, deferred.handled, deferred.idle⟩
    · have told := deferred.told kind
      have counted : counted
          { s with prompts := s.prompts.eraseIdx i } kind = s.counted kind := by cases kind <;> rfl
      rw [counted, ← told, filterMap_nil, append_nil, append_assoc]
      refine congrArg _ ?_
      by_cases same : Kind.nextTurn = kind
      · subst same
        rw [waitingAt, waitingAt, taken, append_assoc]
      · rw [(empty same).1]
        cases kind with
        | nextTurn => exact absurd rfl same
        | _ => rfl
    · cases place with
      | nextTurn => exact (empty differ).2
      | _ => exact deferred.own differ
    · have none := (append_eq_nil_iff.mp (deferred.flushed flushed)).1
      have travelling : travelling { s with prompts := s.prompts.eraseIdx i } kind = [] := none
      rw [travelling, (empty (by rcases flushed with rfl | rfl <;> decide)).1]
      rfl
  have given : ∀ kind, (messages ++ context.map fun content =>
      (.custom ⟨.atOnce, 0, content⟩ : MessageBody N (CustomMessage K))).filterMap
        (bodySerial? kind) = messages.filterMap (bodySerial? kind) := by
    intro kind
    have none : (context.map fun content =>
        (.custom ⟨.atOnce, 0, content⟩ : MessageBody N (CustomMessage K))).filterMap
          (bodySerial? kind) = [] := bodies_none (by simp [isDeferred]) kind
    rw [filterMap_append, none, append_nil]
  refine (left.holding given).runAgentPrompt (fun active => ?_) now
  have active : s.agent.activeRun.isNone = false := by simpa using active
  rw [active, Bool.false_or, Bool.and_eq_true_iff, Bool.and_eq_true_iff] at refused
  obtain ⟨⟨plain, none⟩, flushes⟩ := refused
  exact ⟨fun kind => (given kind).trans (bodies_none plain kind),
    (noneTravels_iff deferred).mp none, flushes⟩

theorem Deferred.clearQueue (deferred : Deferred [] s)
    (fine : s.delivers .clearQueue = true) : Deferred [] s.clearQueue := by
  rw [delivers, all_append, Bool.and_eq_true_iff] at fine
  refine deferred.of_eq ⟨rfl, rfl, deferred.idle⟩ (fun _ => rfl) (fun place kind => ?_)
    fun kind => by cases kind <;> rfl
  cases place with
  | steer => exact (messages_none fine.1 kind).symm
  | followUp => exact (messages_none fine.2 kind).symm
  | _ => rfl

theorem Deferred.setMode (deferred : Deferred [] s) (kind : QueueKind) (mode : QueueMode) :
    Deferred [] { s with
      agent := s.agent.withQueue kind { s.agent.queue kind with mode } } :=
  deferred.of_eq ⟨rfl, by cases kind <;> rfl, deferred.idle⟩ (fun _ => rfl)
    (fun place _ => by cases kind <;> cases place <;> rfl) fun kind => by cases kind <;> rfl

theorem Deferred.abort (deferred : Deferred [] s) :
    Deferred [] { s with agent := s.agent.abort } := by
  have held : s.agent.abort.held = s.agent.held := by
    cases active : s.agent.activeRun <;>
      simp [Agent.held, Agent.abort, LoopState.abort, active]
  have travelling : ∀ kind, AgentSession.travelling
      { s with agent := s.agent.abort } kind = s.travelling kind := by
    intro kind
    rw [AgentSession.travelling, AgentSession.travelling, AgentSession.flying,
      AgentSession.flying, held]
  refine ⟨fun kind => ?_, fun {place kind} differ => ?_, fun flushed => ?_,
    fun kind run active => ?_, fun none => ?_, fun idle => ⟨fun kind => ?_, ?_⟩⟩
  · rw [travelling]
    exact (by cases kind <;> rfl : _ = _).trans ((deferred.told kind).trans (by cases kind <;> rfl))
  · exact (by cases place <;> rfl : _ = _).trans (deferred.own differ)
  · rw [travelling, deferred.flushed flushed]
  · obtain ⟨earlier, was, rfl⟩ := map_eq_some_iff.mp active
    exact deferred.expects kind earlier was
  · exact deferred.handled (map_eq_none_iff.mp none)
  · rw [travelling, (deferred.idle idle).1]
  · exact (deferred.idle idle).2

theorem new_deferred (opts : AgentOptions N (CustomMessage K)) :
    Deferred [] (.new opts : AgentSession N K β) := by
  have travelling : ∀ kind, (.new opts : AgentSession N K β).travelling kind = [] :=
    fun _ => rfl
  have waits : ∀ place kind, (.new opts : AgentSession N K β).waitingAt place kind = [] := by
    intro place kind
    cases place with
    | bash => exact ite_self _
    | _ => rfl
  have counted : ∀ kind, (.new opts : AgentSession N K β).counted kind = 0 := by
    intro kind
    cases kind <;> rfl
  refine ⟨fun kind => ?_, fun _ => waits _ _, fun _ => ?_, fun kind run active => ?_,
    fun _ => rfl, fun _ => ⟨travelling, rfl, rfl⟩⟩
  · rw [travelling, waits, counted]
    rfl
  · rw [travelling]
    rfl
  · cases active

variable [JsonNumber N]

theorem step_deferred {act : SessionAct N K β} (deferred : Deferred [] s)
    (fine : s.delivers act = true) (stepped : s.step act = some next) : Deferred [] next := by
  cases act with
  | prompt text images streamingBehavior now faults =>
    cases stepped
    exact deferred.prompt text images streamingBehavior now faults
  | takeNextTurn i => exact deferred.takeNextTurn stepped
  | discardPrompt i =>
    cases stepped
    exact deferred.discardPrompt fine
  | startPrompt i context now faults => exact deferred.startPrompt fine stepped
  | steer text images now =>
    cases stepped
    exact deferred.queueSteer text images now
  | followUp text images now =>
    cases stepped
    exact deferred.queueFollowUp text images now
  | sendCustomMessage m triggerTurn deliverAs now faults =>
    cases stepped
    exact deferred.sendCustomMessage m triggerTurn deliverAs now faults
  | recordBashResult result =>
    cases stepped
    exact deferred.recordBashResult result
  | clearQueue =>
    cases stepped
    exact deferred.clearQueue fine
  | setMode kind mode =>
    cases stepped
    exact deferred.setMode kind mode
  | setMessages messages =>
    cases stepped
    exact deferred.of_eq ⟨rfl, rfl, deferred.idle⟩ (fun _ => rfl)
      (fun place _ => by cases place <;> rfl) fun kind => by cases kind <;> rfl
  | abort =>
    cases stepped
    exact deferred.abort
  | handle faults error => exact deferred.handle fine stepped
  | poll =>
    rw [step] at stepped
    split at stepped
    · rename_i handled
      obtain ⟨agent, polled, rfl⟩ := map_eq_some_iff.mp stepped
      exact deferred.poll handled fine polled
    · cases stepped
  | answer input =>
    rw [step] at stepped
    split at stepped
    · rename_i handled
      obtain ⟨agent, answered, rfl⟩ := map_eq_some_iff.mp stepped
      exact deferred.answer handled fine answered
    · cases stepped
  | settle now =>
    rw [step] at stepped
    split at stepped
    · rename_i handled
      exact deferred.settle handled stepped
    · cases stepped
  | handlePostAgentRun found faults => exact deferred.handlePostAgentRun fine stepped

theorem deferred_inductive :
    (agentSessionMachine : Machine (AgentSession N K β) (SessionAct N K β)).Inductive
    (fun s act => s.delivers act = true) (Deferred []) where
  start s started := by
    obtain ⟨opts, rfl⟩ := started
    exact new_deferred opts
  step _ _ _ deferred fine taken := step_deferred deferred fine taken

/-- In a run of such steps, an idle session has the first messages of each kind among its entries,
once and in the order sent, and the others wait, in that order. -/
theorem deferred_once
    (reached : agentSessionMachine.Reached (fun s act => s.delivers act = true) s)
    (idle : s.isIdle = true) (kind : Kind) :
    s.arrived kind ++ s.waitingAt kind kind = List.range (s.counted kind) := by
  have deferred := deferred_inductive.reached reached
  have told := deferred.told kind
  rw [(deferred.idle idle).1] at told
  simpa only [List.filterMap_nil, List.append_nil] using told

end

def sampleBusyOptions : AgentOptions Int (CustomMessage Nat) :=
  { sampleOptions with messages := [] }

def sampleBusy : AgentSession Int Nat Nat := .new sampleBusyOptions

theorem sampleBusy_reached {allowed : AgentSession Int Nat Nat → SessionAct Int Nat Nat → Prop} :
    agentSessionMachine.Reached allowed sampleBusy := .start ⟨sampleBusyOptions, rfl⟩

/-- Four messages are deferred, and the run fails at its first request, up to the end of the turn
that tells of it. -/
def sampleBusyActs : List (SessionAct Int Nat Nat) :=
  [.sendCustomMessage 5 none (some .nextTurn) 0 noFaults,
    .prompt (Utf16.units "hello".toList) [] none 0 noFaults, .takeNextTurn 0,
    .startPrompt 0 [] 0 noFaults] ++
  List.replicate 6 (.handle noFaults "") ++
  [.poll, .handle noFaults "", .sendCustomMessage 6 (some false) none 0 noFaults,
    .sendCustomMessage 7 (some false) none 0 noFaults, .recordBashResult 8,
    .answer (.transformed (.error "no context")), .settle 0] ++
  List.replicate 2 (.handle noFaults "")

def sampleOnce : Option (AgentSession Int Nat Nat) :=
  agentSessionMachine.exec (fun s act => s.delivers act = true) sampleBusy
    (sampleBusyActs ++ List.replicate 2 (.handle noFaults "") ++
      [.settle 0, .handlePostAgentRun .nothing noFaults])

theorem deferred_once_sample :
    ∃ s, sampleOnce = some s ∧ s.counted .turnEnd = 2 ∧
      s.arrived .turnEnd ++ s.waitingAt .turnEnd .turnEnd = List.range (s.counted .turnEnd) := by
  have ran : sampleOnce.isSome = true := by rfl
  obtain ⟨s, ran⟩ := Option.isSome_iff_exists.mp ran
  have two : sampleOnce.map (·.counted .turnEnd) = some 2 := by rfl
  have idle : sampleOnce.map (·.isIdle) = some true := by rfl
  rw [ran] at two idle
  exact ⟨s, ran, Option.some.inj two,
    deferred_once (sampleBusy_reached.exec ran) (Option.some.inj idle) .turnEnd⟩

/-- The first append at the end of the turn throws. -/
def sampleFull : Faults Nat Nat where
  listener := false
  append := false
  custom message := message.serial = 0
  bash _ := false

def sampleDropped : Option (AgentSession Int Nat Nat) :=
  agentSessionMachine.exec (fun _ _ => True) sampleBusy
    (sampleBusyActs ++
      [.handle sampleFull "full", .settle 0, .handlePostAgentRun .nothing noFaults])

/-- The message after the one whose append threw is gone. -/
theorem deferred_lost :
    ∃ s : AgentSession Int Nat Nat, agentSessionMachine.Reached (fun _ _ => True) s ∧
      s.isIdle = true ∧ s.counted .turnEnd = 2 ∧
      s.arrived .turnEnd = [0] ∧ s.waitingAt .turnEnd .turnEnd = [] := by
  have ran : sampleDropped.isSome = true := by rfl
  exact ⟨sampleDropped.get ran, sampleBusy_reached.exec (Option.some_get ran).symm,
    rfl, rfl, rfl, rfl⟩

end Trpi.CodingAgent
