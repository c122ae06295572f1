import Trpi.Remote.ServerAnswers

/-!
# Steps of a server that keep a connection

What a connection is after a step of the server, if the step does not close it: one description
for each way a request or an update can go.
-/

namespace Trpi.Remote

open List

variable {S U W V E D : Type}

/-- A message about no request and no subscription. -/
def ServerMessage.isPlain : ServerMessage W V → Bool
  | .response .. | .serviceUpdate .. => false
  | _ => true

/-- What a handler is for and where it waits. -/
def Handler.key (handler : Handler) : RpcTarget × ServiceCall × HandlerStage :=
  (handler.target, handler.call, handler.stage)

def Publisher.note (publisher : Publisher S U) (update : U) : Publisher S U :=
  { publisher with published := publisher.published ++ [update] }

namespace Link

/-- What the client sent and the server has not dispatched. -/
def waiting (link : Link S U W V E) : List ClientMessage :=
  link.deferred ++ link.toServer

def put (link : Link S U W V E) (m : ServerMessage W V) : Link S U W V E :=
  { link with toClient := link.toClient ++ [m] }

/-- Nothing about requests and subscriptions happened; only a connection that ends loses
requests. -/
structure Hushed (link next : Link S U W V E) : Prop where
  handlers : ∀ id, (next.activeRequests id).map Handler.key = (link.activeRequests id).map Handler.key
  publishers : next.publishers = link.publishers
  encoders : next.serviceStateEncoders = link.serviceStateEncoders
  fewer : ∀ m ∈ next.waiting, m ∈ link.waiting
  same : next.isOpen = true → ∀ id target call,
    .request id target call ∈ link.waiting → .request id target call ∈ next.waiting
  toClient : ∃ sent, next.toClient = link.toClient ++ sent ∧ ∀ m ∈ sent, m.isPlain = true
  closed : link.stage = .closed → next.stage = .closed

/-- A message is taken out. -/
structure Without (link rest : Link S U W V E) (m : ClientMessage) : Prop where
  waiting : ∃ front back, link.waiting = front ++ m :: back ∧ rest.waiting = front ++ back
  handlers : rest.activeRequests = link.activeRequests
  publishers : rest.publishers = link.publishers
  encoders : rest.serviceStateEncoders = link.serviceStateEncoders
  toClient : rest.toClient = link.toClient
  stage : rest.stage = link.stage

/-- A handler that has answered a request with an error. -/
def failing (link : Link S U W V E) (id : Nat) (handler : Handler) (error : ProtocolError) :
    Link S U W V E :=
  (link.setHandler id (some { handler with stage := .failing })).put (.response id (.error error))

/-- A handler that has answered a request. -/
def responding (link : Link S U W V E) (id : Nat) (handler : Handler) (reply : Reply W) :
    Link S U W V E :=
  (link.setHandler id (some { handler with stage := .responding })).put (.response id (.ok reply))

def newHandler (target : RpcTarget) (call : ServiceCall) : Handler where
  target := target
  call := call
  aborted := false
  stage := .invoking

def newPublisher (subscriptionId : Nat) : Publisher S U where
  subscriptionId := subscriptionId
  subscriptionReady := false
  pendingUpdates := []
  snapshot := none
  published := []

/-- The first update that was held back is taken to be sent. -/
def shift (link : Link S U W V E) (id : Nat) (handler : Handler) (publisher : Publisher S U)
    (later : List U) : Link S U W V E :=
  (link.setPublisher id (some { publisher with pendingUpdates := later })).setHandler id
    (some { handler with stage := .draining })

section

variable (link : Link S U W V E)

section

variable (id : Nat)

section

variable (handler : Option Handler)

@[simp] theorem activeRequests_setHandler (other : Nat) :
    (link.setHandler id handler).activeRequests other =
      if other = id then handler else link.activeRequests other :=
  Function.update_apply _ _ _ _

@[simp] theorem publishers_setHandler :
    (link.setHandler id handler).publishers = link.publishers := rfl

@[simp] theorem encoders_setHandler :
    (link.setHandler id handler).serviceStateEncoders = link.serviceStateEncoders := rfl

@[simp] theorem toClient_setHandler : (link.setHandler id handler).toClient = link.toClient := rfl

@[simp] theorem waiting_setHandler : (link.setHandler id handler).waiting = link.waiting := rfl

end

section

variable (publisher : Option (Publisher S U))

@[simp] theorem activeRequests_setPublisher :
    (link.setPublisher id publisher).activeRequests = link.activeRequests := rfl

@[simp] theorem publishers_setPublisher (other : Nat) :
    (link.setPublisher id publisher).publishers other =
      if other = id then publisher else link.publishers other :=
  Function.update_apply _ _ _ _

@[simp] theorem encoders_setPublisher :
    (link.setPublisher id publisher).serviceStateEncoders = link.serviceStateEncoders := rfl

@[simp] theorem toClient_setPublisher :
    (link.setPublisher id publisher).toClient = link.toClient := rfl

@[simp] theorem waiting_setPublisher :
    (link.setPublisher id publisher).waiting = link.waiting := rfl

end

end

section

variable (sub : Nat) (encoder : Option E)

@[simp] theorem activeRequests_setEncoder :
    (link.setEncoder sub encoder).activeRequests = link.activeRequests := rfl

@[simp] theorem publishers_setEncoder :
    (link.setEncoder sub encoder).publishers = link.publishers := rfl

@[simp] theorem encoders_setEncoder (other : Nat) :
    (link.setEncoder sub encoder).serviceStateEncoders other =
      if other = sub then encoder else link.serviceStateEncoders other :=
  Function.update_apply _ _ _ _

@[simp] theorem toClient_setEncoder : (link.setEncoder sub encoder).toClient = link.toClient := rfl

@[simp] theorem waiting_setEncoder : (link.setEncoder sub encoder).waiting = link.waiting := rfl

end

section

variable (m : ServerMessage W V)

@[simp] theorem activeRequests_put : (link.put m).activeRequests = link.activeRequests := rfl

@[simp] theorem publishers_put : (link.put m).publishers = link.publishers := rfl

@[simp] theorem encoders_put : (link.put m).serviceStateEncoders = link.serviceStateEncoders := rfl

@[simp] theorem toClient_put : (link.put m).toClient = link.toClient ++ [m] := rfl

@[simp] theorem waiting_put : (link.put m).waiting = link.waiting := rfl

end

end

/-- What a step of the server does, if it does not close the connection. -/
inductive Serves (codec : StateCodec S U W V E D) (serverId : String) (link : Link S U W V E) :
    ServerEvent S U → Link S U W V E → Prop where
  | hushed {ev : ServerEvent S U} {next : Link S U W V E} (same : link.Hushed next) :
      Serves codec serverId link ev next
  | repeated {ev : ServerEvent S U} {rest : Link S U W V E} (id : Nat) (target : RpcTarget)
      (call : ServiceCall) (taken : link.Without rest (.request id target call))
      (busy : (link.activeRequests id).isSome) :
      Serves codec serverId link ev (rest.put (.response id (.error alreadyActive)))
  | refused {ev : ServerEvent S U} {rest : Link S U W V E} (id : Nat) (target : RpcTarget)
      (call : ServiceCall) (error : ProtocolError)
      (taken : link.Without rest (.request id target call))
      (free : link.activeRequests id = none)
      (why : target.serverId ≠ serverId ∨ ∃ subscriptionId serviceId mode,
        call = .subscribe subscriptionId serviceId mode ∧
        (link.serviceStateEncoders subscriptionId).isSome) :
      Serves codec serverId link ev (rest.failing id (newHandler target call) error)
  | accepted {ev : ServerEvent S U} {rest : Link S U W V E} (id : Nat) (target : RpcTarget)
      (call : ServiceCall) (taken : link.Without rest (.request id target call))
      (free : link.activeRequests id = none) (here : target.serverId = serverId)
      (plain : ∀ subscriptionId serviceId mode, call ≠ .subscribe subscriptionId serviceId mode) :
      Serves codec serverId link ev (rest.setHandler id (some (newHandler target call)))
  | subscribing {ev : ServerEvent S U} {rest : Link S U W V E} (id : Nat) (target : RpcTarget)
      (subscriptionId : Nat) (serviceId : String) (mode : Trpi.Chord.Services.ServiceMode)
      (taken : link.Without rest (.request id target (.subscribe subscriptionId serviceId mode)))
      (free : link.activeRequests id = none) (here : target.serverId = serverId)
      (vacant : link.serviceStateEncoders subscriptionId = none) :
      Serves codec serverId link ev
        ((rest.setHandler id (some (newHandler target (.subscribe subscriptionId serviceId mode)))
          ).setPublisher id (some (newPublisher subscriptionId)))
  | failed (id : Nat) (handler : Handler) (result : HostResult S) (error : ProtocolError)
      (active : link.activeRequests id = some handler) (invoking : handler.stage = .invoking)
      (why : (∃ reason, result = .error reason) ∨ ∃ subscriptionId serviceId mode,
        handler.call = .subscribe subscriptionId serviceId mode) :
      Serves codec serverId link (.returns id result true) (link.failing id handler error)
  | replied (id : Nat) (handler : Handler) (result : HostResult S) (reply : Reply W)
      (active : link.activeRequests id = some handler) (invoking : handler.stage = .invoking)
      (bare : ∀ wire, reply ≠ .snapshot wire)
      (plain : ∃ serviceId member, handler.call = .other serviceId member) :
      Serves codec serverId link (.returns id result true) (link.responding id handler reply)
  | unsubscribed (id : Nat) (handler : Handler) (result : HostResult S) (reply : Reply W)
      (subscriptionId : Nat) (active : link.activeRequests id = some handler)
      (invoking : handler.stage = .invoking) (bare : ∀ wire, reply ≠ .snapshot wire)
      (call : handler.call = .unsubscribe subscriptionId) :
      Serves codec serverId link (.returns id result true)
        ((link.setEncoder subscriptionId none).responding id handler reply)
  | installed (id : Nat) (handler : Handler) (subscriptionId : Nat) (serviceId : String)
      (mode : Trpi.Chord.Services.ServiceMode) (snapshot : S) (encoder : E) (wire : W)
      (active : link.activeRequests id = some handler) (invoking : handler.stage = .invoking)
      (call : handler.call = .subscribe subscriptionId serviceId mode)
      (encoded : codec.encodeSnapshot snapshot = .ok (encoder, wire)) :
      Serves codec serverId link (.returns id (.snapshot snapshot) true)
        (((link.setEncoder subscriptionId (some encoder)).setPublisher id
          ((link.publishers id).map fun publisher => { publisher with snapshot := some snapshot })
          ).responding id handler (.snapshot wire))
  | ended (id : Nat) (handler : Handler) (fits : Bool)
      (active : link.activeRequests id = some handler) (answered : handler.stage ≠ .invoking)
      (why : handler.stage = .failing ∨
        (∀ subscriptionId serviceId mode,
          handler.call ≠ .subscribe subscriptionId serviceId mode) ∨
        link.publishers id = none) :
      Serves codec serverId link (.sent id fits) (link.setHandler id none)
  | drained (id : Nat) (handler : Handler) (publisher : Publisher S U) (fits : Bool)
      (active : link.activeRequests id = some handler) (answered : handler.stage ≠ .invoking)
      (going : handler.stage ≠ .failing) (publishes : link.publishers id = some publisher)
      (empty : publisher.pendingUpdates = []) :
      Serves codec serverId link (.sent id fits)
        ((link.setPublisher id (some { publisher with subscriptionReady := true })).setHandler id
          none)
  | skipped (id : Nat) (handler : Handler) (publisher : Publisher S U) (fits : Bool) (update : U)
      (later : List U) (active : link.activeRequests id = some handler)
      (answered : handler.stage ≠ .invoking) (going : handler.stage ≠ .failing)
      (publishes : link.publishers id = some publisher)
      (held : publisher.pendingUpdates = update :: later)
      (vacant : link.serviceStateEncoders publisher.subscriptionId = none) :
      Serves codec serverId link (.sent id fits) (link.shift id handler publisher later)
  | forwarded (id : Nat) (handler : Handler) (publisher : Publisher S U) (update : U)
      (later : List U) (encoder after : E) (wire : V)
      (active : link.activeRequests id = some handler) (answered : handler.stage ≠ .invoking)
      (going : handler.stage ≠ .failing) (publishes : link.publishers id = some publisher)
      (held : publisher.pendingUpdates = update :: later)
      (installed : link.serviceStateEncoders publisher.subscriptionId = some encoder)
      (encoded : codec.encodeUpdate encoder update = (after, .ok wire)) :
      Serves codec serverId link (.sent id true)
        (((link.shift id handler publisher later).setEncoder publisher.subscriptionId (some after)
          ).put (.serviceUpdate publisher.subscriptionId wire))
  | held (id : Nat) (publisher : Publisher S U) (update : U) (fits : Bool)
      (publishes : link.publishers id = some publisher)
      (early : publisher.subscriptionReady = false) :
      Serves codec serverId link (.publish id update fits)
        (link.setPublisher id (some { publisher.note update with
          pendingUpdates := publisher.pendingUpdates ++ [update] }))
  | unheard (id : Nat) (publisher : Publisher S U) (update : U) (fits : Bool)
      (publishes : link.publishers id = some publisher)
      (ready : publisher.subscriptionReady = true)
      (vacant : link.serviceStateEncoders publisher.subscriptionId = none) :
      Serves codec serverId link (.publish id update fits)
        (link.setPublisher id (some (publisher.note update)))
  | lost (id : Nat) (publisher : Publisher S U) (update : U) (fits : Bool) (encoder after : E)
      (m : String) (publishes : link.publishers id = some publisher)
      (ready : publisher.subscriptionReady = true)
      (installed : link.serviceStateEncoders publisher.subscriptionId = some encoder)
      (refused : codec.encodeUpdate encoder update = (after, .error m)) :
      Serves codec serverId link (.publish id update fits)
        ((link.setPublisher id (some (publisher.note update))).setEncoder publisher.subscriptionId
          (some after))
  | published (id : Nat) (publisher : Publisher S U) (update : U) (encoder after : E) (wire : V)
      (publishes : link.publishers id = some publisher)
      (ready : publisher.subscriptionReady = true)
      (installed : link.serviceStateEncoders publisher.subscriptionId = some encoder)
      (encoded : codec.encodeUpdate encoder update = (after, .ok wire)) :
      Serves codec serverId link (.publish id update true)
        (((link.setPublisher id (some (publisher.note update))).setEncoder
          publisher.subscriptionId (some after)).put (.serviceUpdate publisher.subscriptionId wire))

section

variable {codec : StateCodec S U W V E D} {serverId : String} {link next rest : Link S U W V E}

theorem Hushed.refl (link : Link S U W V E) : link.Hushed link where
  handlers _ := rfl
  publishers := rfl
  encoders := rfl
  fewer _ mem := mem
  same _ _ _ _ mem := mem
  toClient := ⟨[], (append_nil _).symm, fun _ absurd => nomatch absurd⟩
  closed isClosed := isClosed

variable {fits : Bool} {handler : Handler} {ev : ServerEvent S U} {publisher : Publisher S U}
  {m : ClientMessage} {id : Nat} {later : List ClientMessage}

theorem sendMessage_alive {m : ServerMessage W V}
    (alive : (link.sendMessage m fits).stage ≠ .closed) :
    fits = true ∧ link.sendMessage m fits = link.put m := by
  unfold sendMessage at alive ⊢
  split_ifs at alive ⊢ with sends
  · exact ⟨sends, rfl⟩
  · exact absurd rfl alive

theorem hushed_put {m : ServerMessage W V} (plain : m.isPlain = true) :
    link.Hushed (link.put m) where
  handlers _ := rfl
  publishers := rfl
  encoders := rfl
  fewer _ mem := mem
  same _ _ _ _ mem := mem
  toClient := ⟨[m], rfl, fun sent mem => by
    rw [mem_singleton.mp mem]
    exact plain⟩
  closed isClosed := isClosed

theorem Hushed.trans {middle : Link S U W V E} (first : link.Hushed middle)
    (second : middle.Hushed next) (opens : next.isOpen = true → middle.isOpen = true) :
    link.Hushed next where
  handlers id := (second.handlers id).trans (first.handlers id)
  publishers := second.publishers.trans first.publishers
  encoders := second.encoders.trans first.encoders
  fewer m mem := first.fewer m (second.fewer m mem)
  same isOpen id target call mem :=
    second.same isOpen id target call (first.same (opens isOpen) id target call mem)
  toClient := by
    obtain ⟨early, sent, quiet⟩ := first.toClient
    obtain ⟨late, more, still⟩ := second.toClient
    refine ⟨early ++ late, by rw [more, sent, append_assoc], fun m mem => ?_⟩
    rcases mem_append.mp mem with old | new
    · exact quiet m old
    · exact still m new
  closed isClosed := second.closed (first.closed isClosed)

theorem Without.fewer (taken : link.Without rest m) :
    ∀ other ∈ rest.waiting, other ∈ link.waiting := by
  obtain ⟨front, back, before, after⟩ := taken.waiting
  rw [before, after]
  exact fun other mem => (sublist_cons_self m back).append_left front |>.subset mem

theorem Without.hushed (taken : link.Without rest m)
    (silent : rest.isOpen = true → ∀ id, m.isRequest id = false) : link.Hushed rest := by
  obtain ⟨front, back, before, after⟩ := taken.waiting
  refine ⟨fun id => by rw [taken.handlers], taken.publishers, taken.encoders, taken.fewer, ?_, ?_, ?_⟩
  · intro isOpen id target call mem
    rw [before] at mem
    rw [after]
    rcases mem_append.mp mem with early | late
    · exact mem_append_left _ early
    · rcases mem_cons.mp late with same | later
      · have request := silent isOpen id
        rw [← same] at request
        simp [ClientMessage.isRequest] at request
      · exact mem_append_right _ later
  · exact ⟨[], by rw [taken.toClient, append_nil], fun _ absurd => by cases absurd⟩
  · exact fun isClosed => taken.stage.trans isClosed

theorem respondError_alive {error : ProtocolError}
    (alive : (link.respondError id handler error fits).stage ≠ .closed) :
    fits = true ∧ link.respondError id handler error fits =
      link.failing id handler (if handler.aborted then requestCancelled else error) :=
  sendMessage_alive alive

theorem respond_alive {reply : Reply W}
    (alive : (link.respond id handler reply fits).stage ≠ .closed) :
    fits = true ∧ link.respond id handler reply fits = link.responding id handler reply :=
  sendMessage_alive alive

theorem serves_handleRequest {target : RpcTarget} {call : ServiceCall}
    (taken : link.Without rest (.request id target call))
    (alive : (rest.handleRequest serverId id target call fits).stage ≠ .closed) :
    Serves codec serverId link ev (rest.handleRequest serverId id target call fits) := by
  have free : ¬(rest.activeRequests id).isSome → link.activeRequests id = none := fun idle => by
    rw [← taken.handlers]
    exact Option.not_isSome_iff_eq_none.mp idle
  unfold handleRequest at alive ⊢
  split_ifs at alive ⊢ with busy elsewhere
  · rw [(sendMessage_alive alive).2]
    exact .repeated id target call taken (taken.handlers ▸ busy)
  · rw [(respondError_alive alive).2]
    exact .refused id target call wrongServer taken (free busy) (.inl elsewhere)
  · have here := not_not.mp elsewhere
    cases call with
    | subscribe sub serviceId mode =>
      dsimp only at alive ⊢
      split_ifs at alive ⊢ with occupied
      · rw [(respondError_alive alive).2]
        rw [taken.encoders] at occupied
        exact .refused id target _ (duplicateSubscription sub) taken (free busy)
          (.inr ⟨sub, serviceId, mode, rfl, occupied⟩)
      · rw [taken.encoders] at occupied
        exact .subscribing id target sub serviceId mode taken (free busy) here
          (Option.not_isSome_iff_eq_none.mp occupied)
    | unsubscribe sub =>
      exact .accepted id target _ taken (free busy) here fun _ _ _ absurd => nomatch absurd
    | other serviceId mem =>
      exact .accepted id target _ taken (free busy) here fun _ _ _ absurd => nomatch absurd

theorem hushed_handleCancel (id : Nat) (target : RpcTarget) :
    link.Hushed (link.handleCancel serverId id target) := by
  unfold handleCancel
  split_ifs
  · exact .refl link
  · cases active : link.activeRequests id with
    | none => exact .refl link
    | some handler =>
      dsimp only
      split_ifs
      · refine ⟨fun other => ?_, rfl, rfl, fun _ mem => mem, fun _ _ _ _ mem => mem,
          (Hushed.refl link).toClient, fun isClosed => isClosed⟩
        unfold setHandler
        dsimp only
        rw [Function.update_apply]
        split_ifs with same
        · rw [same, active]
          rfl
        · rfl
      · exact .refl link

theorem serves_dispatchMessage (taken : link.Without rest m) (ready : rest.stage = .ready)
    (alive : (rest.dispatchMessage serverId m fits).stage ≠ .closed) :
    Serves codec serverId link ev (rest.dispatchMessage serverId m fits) := by
  cases m with
  | hello =>
    have quiet := taken.hushed fun _ _ => rfl
    have closing : rest.Hushed (rest.failProtocol helloOnce) :=
      ⟨fun _ => rfl, rfl, rfl, fun _ mem => mem, fun _ _ _ _ mem => mem,
        ⟨[.helloError helloOnce], rfl, fun sent mem => by
          rw [mem_singleton.mp mem]
          rfl⟩, fun isClosed => by
          rw [ready] at isClosed
          cases isClosed⟩
    exact .hushed (quiet.trans closing fun isOpen => nomatch isOpen)
  | cancel id target =>
    have quiet := taken.hushed fun _ _ => rfl
    refine .hushed (quiet.trans (hushed_handleCancel id target) fun isOpen => ?_)
    have stage : (rest.handleCancel serverId id target).stage = rest.stage := by
      unfold handleCancel
      split_ifs
      · rfl
      · split
        · rfl
        · split_ifs <;> rfl
    change (rest.handleCancel serverId id target).isOpen = true at isOpen
    rw [Link.isOpen, stage] at isOpen
    exact isOpen
  | request id target call => exact serves_handleRequest taken alive

theorem without_deferred
    (queued : link.deferred = m :: later) : link.Without { link with deferred := later } m where
  waiting := ⟨[], later ++ link.toServer, by rw [waiting, queued]; rfl, rfl⟩
  handlers := rfl
  publishers := rfl
  encoders := rfl
  toClient := rfl
  stage := rfl

theorem without_toServer
    (queued : link.toServer = m :: later) : link.Without { link with toServer := later } m where
  waiting := ⟨link.deferred, later, by rw [waiting, queued], rfl⟩
  handlers := rfl
  publishers := rfl
  encoders := rfl
  toClient := rfl
  stage := rfl

theorem serves_receive (queued : link.toServer = m :: later)
    (alive : ({ link with toServer := later }.receive serverId m fits).stage ≠ .closed) :
    Serves codec serverId link ev ({ link with toServer := later }.receive serverId m fits) := by
  have taken := without_toServer queued
  have deferring : link.Hushed
      { link with toServer := later, deferred := link.deferred ++ [m] } := by
    have same : ({ link with toServer := later, deferred := link.deferred ++ [m] } :
        Link S U W V E).waiting = link.waiting := by
      rw [waiting, waiting, queued]
      simp
    exact ⟨fun _ => rfl, rfl, rfl, fun other mem => same ▸ mem,
      fun _ _ _ _ mem => same ▸ mem, (Hushed.refl link).toClient, fun isClosed => isClosed⟩
  obtain ⟨rest, isRest⟩ : ∃ rest, rest = { link with toServer := later } := ⟨_, rfl⟩
  have kept : { rest with deferred := rest.deferred ++ [m] } =
      { link with toServer := later, deferred := link.deferred ++ [m] } := by
    rw [isRest]
  rw [← isRest] at taken alive ⊢
  rw [← kept] at deferring
  have closing : rest.stage ≠ .closed → ∀ error, link.Hushed (rest.failProtocol error) := by
    intro notClosed error
    refine ⟨fun id => by rw [← taken.handlers]; rfl, taken.publishers, taken.encoders, taken.fewer,
      (fun isOpen => nomatch isOpen), ⟨[.helloError error], ?_, fun sent mem => ?_⟩,
      fun isClosed => absurd (taken.stage.trans isClosed) notClosed⟩
    · rw [← taken.toClient]
      rfl
    · rw [mem_singleton.mp mem]
      rfl
  have dropped : rest.isOpen = false → link.Hushed rest := fun ending =>
    taken.hushed fun isOpen => by
      rw [ending] at isOpen
      cases isOpen
  unfold receive at alive ⊢
  cases stage : rest.stage with
  | awaitingHello =>
    cases m with
    | hello =>
      have quiet := taken.hushed fun _ _ => rfl
      exact .hushed ⟨quiet.handlers, quiet.publishers, quiet.encoders, quiet.fewer, fun _ =>
        quiet.same (by rw [Link.isOpen, stage]), quiet.toClient, fun isClosed => by
          rw [← taken.stage, stage] at isClosed
          cases isClosed⟩
    | cancel id target => exact .hushed (closing (by simp [stage]) helloFirst)
    | request id target call => exact .hushed (closing (by simp [stage]) helloFirst)
  | handshaking =>
    rw [stage] at deferring
    cases m with
    | hello => exact .hushed (closing (by simp [stage]) helloOnce)
    | cancel id target => exact .hushed deferring
    | request id target call => exact .hushed deferring
  | ready =>
    rw [stage] at alive
    exact serves_dispatchMessage taken stage alive
  | closing => exact .hushed (dropped (by rw [Link.isOpen, stage]))
  | closed => exact .hushed (dropped (by rw [Link.isOpen, stage]))

theorem serves_returns {result : HostResult S} (active : link.activeRequests id = some handler)
    (invoking : handler.stage = .invoking)
    (alive : (link.returns codec id handler result fits).stage ≠ .closed) :
    Serves codec serverId link (.returns id result fits)
      (link.returns codec id handler result fits) := by
  have failed : ∀ error, ((∃ reason, result = .error reason) ∨ ∃ sub serviceId mode,
        handler.call = .subscribe sub serviceId mode) →
      (link.respondError id handler error fits).stage ≠ .closed →
      Serves codec serverId link (.returns id result fits)
        (link.respondError id handler error fits) := by
    intro error why still
    obtain ⟨rfl, same⟩ := respondError_alive still
    rw [same]
    exact .failed id handler result _ active invoking why
  have replied : ∀ reply : Reply W, (∀ wire, reply ≠ .snapshot wire) →
      (∃ serviceId mem, handler.call = .other serviceId mem) →
      (link.respond id handler reply fits).stage ≠ .closed →
      Serves codec serverId link (.returns id result fits) (link.respond id handler reply fits) := by
    intro reply bare plain still
    obtain ⟨rfl, same⟩ := respond_alive still
    rw [same]
    exact .replied id handler result reply active invoking bare plain
  have unsubscribed : ∀ sub, ∀ reply : Reply W, (∀ wire, reply ≠ .snapshot wire) →
      handler.call = .unsubscribe sub →
      ((link.setEncoder sub none).respond id handler reply fits).stage ≠ .closed →
      Serves codec serverId link (.returns id result fits)
        ((link.setEncoder sub none).respond id handler reply fits) := by
    intro sub reply bare call still
    obtain ⟨rfl, same⟩ := respond_alive still
    rw [same]
    exact .unsubscribed id handler result reply sub active invoking bare call
  have noneBare : ∀ wire : W, (.none : Reply W) ≠ .snapshot wire := fun _ absurd => nomatch absurd
  have valueBare : ∀ wire : W, (.value : Reply W) ≠ .snapshot wire := fun _ absurd => nomatch absurd
  cases result with
  | error error => exact failed error (.inl ⟨error, rfl⟩) alive
  | none =>
    unfold returns at alive ⊢
    cases call : handler.call with
    | subscribe sub serviceId mode =>
      rw [call] at alive
      exact failed noSnapshot (.inr ⟨sub, serviceId, mode, call⟩) alive
    | unsubscribe sub =>
      rw [call] at alive
      exact unsubscribed sub .none noneBare call alive
    | other serviceId mem =>
      rw [call] at alive
      exact replied .none noneBare ⟨serviceId, mem, call⟩ alive
  | value =>
    unfold returns at alive ⊢
    cases call : handler.call with
    | subscribe sub serviceId mode =>
      rw [call] at alive
      exact failed internalError (.inr ⟨sub, serviceId, mode, call⟩) alive
    | unsubscribe sub =>
      rw [call] at alive
      exact unsubscribed sub .value valueBare call alive
    | other serviceId mem =>
      rw [call] at alive
      exact replied .value valueBare ⟨serviceId, mem, call⟩ alive
  | snapshot snapshot =>
    unfold returns at alive ⊢
    cases call : handler.call with
    | subscribe sub serviceId mode =>
      rw [call] at alive
      dsimp only at alive ⊢
      unfold installSubscription at alive ⊢
      split at alive
      · exact failed internalError (.inr ⟨sub, serviceId, mode, call⟩) alive
      · rename_i encoder wire encoded
        obtain ⟨rfl, same⟩ := respond_alive alive
        rw [same]
        exact .installed id handler sub serviceId mode snapshot encoder wire active
          invoking call encoded
    | unsubscribe sub =>
      rw [call] at alive
      exact unsubscribed sub .value valueBare call alive
    | other serviceId mem =>
      rw [call] at alive
      exact replied .value valueBare ⟨serviceId, mem, call⟩ alive

theorem drain_cons {update : U} {later : List U} (held : publisher.pendingUpdates = update :: later)
    (fits : Bool) :
    link.drain codec id handler publisher fits =
      match (link.shift id handler publisher later).sendServiceUpdate codec
        publisher.subscriptionId update fits with
      | (next, true) => next
      | (next, false) => next.disconnect := by
  unfold drain
  rw [held]
  rfl

section

variable (active : link.activeRequests id = some handler) (answered : handler.stage ≠ .invoking)

include active answered

/-- The first update that was held back is sent, or there is none. -/
theorem serves_drain (going : handler.stage ≠ .failing)
    (publishes : link.publishers id = some publisher)
    (alive : (link.drain codec id handler publisher fits).stage ≠ .closed) :
    Serves codec serverId link (.sent id fits) (link.drain codec id handler publisher fits) := by
  cases held : publisher.pendingUpdates with
  | nil =>
    have drained : Serves codec serverId link (.sent id fits) _ :=
      .drained id handler publisher fits active answered going publishes held
    unfold drain
    rw [held] at drained ⊢
    exact drained
  | cons update later =>
    rw [drain_cons held] at alive ⊢
    have encoders : (link.shift id handler publisher later).serviceStateEncoders =
        link.serviceStateEncoders := rfl
    unfold sendServiceUpdate at alive ⊢
    rw [encoders] at alive ⊢
    cases installed : link.serviceStateEncoders publisher.subscriptionId with
    | none =>
      exact .skipped id handler publisher fits update later active answered going publishes held
        installed
    | some encoder =>
      rw [installed] at alive
      dsimp only at alive ⊢
      rcases encoded : codec.encodeUpdate encoder update with ⟨after, refused | wire⟩
      · rw [encoded] at alive
        exact absurd rfl alive
      · rw [encoded] at alive
        obtain ⟨rfl, same⟩ := sendMessage_alive alive
        dsimp only
        rw [same]
        exact .forwarded id handler publisher update later encoder after wire active answered going
          publishes held installed encoded

theorem serves_sent (alive : (link.sent codec id handler fits).stage ≠ .closed) :
    Serves codec serverId link (.sent id fits) (link.sent codec id handler fits) := by
  have ended : _ → Serves codec serverId link (.sent id fits) (link.setHandler id none) :=
    Serves.ended id handler fits active answered
  by_cases failing : handler.stage = .failing
  · unfold sent
    rw [failing]
    exact ended (.inl failing)
  · cases publishes : link.publishers id with
    | none =>
      have same : link.sent codec id handler fits = link.setHandler id none := by
        unfold sent
        rw [publishes]
        cases handler.stage <;> cases handler.call <;> rfl
      rw [same]
      exact ended (.inr (.inr publishes))
    | some publisher =>
      by_cases subscribes : ∃ sub serviceId mode, handler.call = .subscribe sub serviceId mode
      · obtain ⟨sub, serviceId, mode, call⟩ := subscribes
        have same : link.sent codec id handler fits =
            link.drain codec id handler publisher fits := by
          unfold sent
          rw [publishes, call]
          cases stage : handler.stage with
          | failing => exact absurd stage failing
          | invoking => rfl
          | responding => rfl
          | draining => rfl
        rw [same] at alive ⊢
        exact serves_drain active answered failing publishes alive
      · have plain : ∀ sub serviceId mode,
            handler.call ≠ .subscribe sub serviceId mode :=
          fun sub serviceId mode call =>
            subscribes ⟨sub, serviceId, mode, call⟩
        have same : link.sent codec id handler fits = link.setHandler id none := by
          unfold sent
          cases call : handler.call with
          | subscribe sub serviceId mode => exact absurd call (plain _ _ _)
          | unsubscribe sub => cases handler.stage <;> rfl
          | other serviceId mem => cases handler.stage <;> rfl
        rw [same]
        exact ended (.inr (.inl plain))

end

theorem serves_publish {update : U} (publishes : link.publishers id = some publisher)
    (alive : (link.publish codec id publisher update fits).stage ≠ .closed) :
    Serves codec serverId link (.publish id update fits)
      (link.publish codec id publisher update fits) := by
  unfold publish at alive ⊢
  dsimp only at alive ⊢
  by_cases ready : publisher.subscriptionReady = true
  · rw [if_pos ready] at alive ⊢
    change ((link.setPublisher id (some (publisher.note update))).sendServiceUpdate codec
      publisher.subscriptionId update fits).1.stage ≠ .closed at alive
    change Serves codec serverId link (.publish id update fits)
      ((link.setPublisher id (some (publisher.note update))).sendServiceUpdate codec
        publisher.subscriptionId update fits).1
    have encoders : (link.setPublisher id (some (publisher.note update))).serviceStateEncoders =
        link.serviceStateEncoders := rfl
    unfold sendServiceUpdate at alive ⊢
    rw [encoders] at alive ⊢
    cases installed : link.serviceStateEncoders publisher.subscriptionId with
    | none => exact .unheard id publisher update fits publishes ready installed
    | some encoder =>
      rw [installed] at alive
      dsimp only at alive ⊢
      rcases encoded : codec.encodeUpdate encoder update with ⟨after, refused | wire⟩
      · exact .lost id publisher update fits encoder after refused publishes ready installed encoded
      · rw [encoded] at alive
        obtain ⟨rfl, same⟩ := sendMessage_alive alive
        dsimp only
        rw [same]
        exact .published id publisher update encoder after wire publishes ready installed encoded
  · rw [if_neg ready]
    exact .held id publisher update fits publishes (by simpa using ready)

/-- Every step of the server is one of these, or closes the connection. -/
theorem serves_of_step (taken : link.step codec serverId ev = some next)
    (alive : next.stage ≠ .closed) : Serves codec serverId link ev next := by
  cases ev with
  | receive fits =>
    rw [step] at taken
    split at taken
    · cases taken
    · rename_i m later queued
      cases taken
      exact serves_receive queued alive
  | attached fits =>
    rw [step] at taken
    split_ifs at taken
    cases taken
    rw [(sendMessage_alive alive).2]
    have greeted : link.Hushed { link with greeted := true } :=
      ⟨fun _ => rfl, rfl, rfl, fun _ mem => mem, fun _ _ _ _ mem => mem,
        (Hushed.refl link).toClient, fun isClosed => isClosed⟩
    exact .hushed (greeted.trans (hushed_put rfl) fun isOpen => isOpen)
  | ready =>
    rw [step] at taken
    split_ifs at taken with shaking
    cases taken
    exact .hushed ⟨fun _ => rfl, rfl, rfl, fun _ mem => mem, fun _ _ _ _ mem => mem,
      (Hushed.refl link).toClient, fun isClosed => by
        rw [shaking.1] at isClosed
        cases isClosed⟩
  | dispatchDeferred fits =>
    rw [step] at taken
    split at taken
    · cases taken
    · rename_i m later queued
      split_ifs at taken with isReady
      cases taken
      exact serves_dispatchMessage (without_deferred queued) isReady alive
  | returns id result fits =>
    rw [step] at taken
    split at taken
    · rename_i handler active
      split_ifs at taken with invoking
      cases taken
      exact serves_returns active invoking alive
    · cases taken
  | sent id fits =>
    rw [step] at taken
    split at taken
    · rename_i handler active
      split_ifs at taken with invoking
      cases taken
      exact serves_sent active invoking alive
    · cases taken
  | publish id update fits =>
    rw [step] at taken
    split at taken
    · rename_i publisher publishes
      split_ifs at taken
      cases taken
      exact serves_publish publishes alive
    · cases taken
  | publishAttachment attachment fits =>
    rw [step] at taken
    split_ifs at taken
    cases taken
    rw [(sendMessage_alive alive).2]
    exact .hushed (hushed_put rfl)
  | close =>
    rw [step] at taken
    split_ifs at taken with notClosed
    cases taken
    exact .hushed ⟨fun _ => rfl, rfl, rfl, fun _ mem => mem, fun _ _ _ _ mem => mem,
      (Hushed.refl link).toClient, fun isClosed => absurd isClosed notClosed⟩
  | disconnect =>
    cases taken
    exact absurd rfl alive

end

end Link

end Trpi.Remote
