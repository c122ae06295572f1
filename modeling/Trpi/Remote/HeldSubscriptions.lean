import Trpi.Remote.Home

/-!
# Subscriptions a server holds

The server holds a state encoder for a subscription from its answer on until an unsubscribe is
answered; the client has a listener for it from its request on. Where no call is cancelled that
the server has granted, and each unsubscribe reaches the server and is granted, the two come to
the same once nothing is under way.
-/

namespace Trpi.Remote

open Function Option
open Library (Machine)

variable {S U W V E D : Type}

namespace Link

/-- A request waits to be dispatched, or is with the host. -/
def Asks (link : Link S U W V E) (id : Nat) (target : RpcTarget) (call : ServiceCall) : Prop :=
  .request id target call ∈ link.waiting ∨ ∃ handler, link.activeRequests id = some handler ∧
    handler.key = (target, call, .invoking)

def holds (link : Link S U W V E) (sub : Nat) : Bool :=
  (link.serviceStateEncoders sub).isSome

theorem asks_queue {link : Link S U W V E} {messages : List ClientMessage} {id : Nat}
    {target : RpcTarget} {call : ServiceCall} :
    (link.queue messages).Asks id target call ↔
      link.Asks id target call ∨ .request id target call ∈ messages := by
  rw [Asks, waiting_queue, List.mem_append]
  exact or_right_comm

end Link

/-- What is on the way to the client, in order. -/
def Client.flow (c : Client S U W V D) (conn : Nat) (link : Link S U W V E) :
    List (ServerMessage W V) :=
  (if c.chunkConnection = conn then c.chunk else []) ++ link.toClient

/-- How far each subscription is, at both ends; `leaving` is one whose unsubscribe is yet to be
sent. -/
structure Tracked (serverId : String) (leaving : Option Nat) (conn : Nat)
    (c : Client S U W V D) (link : Link S U W V E) : Prop where
  asked : ∀ id target sub serviceId mode,
    link.Asks id target (.subscribe sub serviceId mode) →
    link.holds sub = false ∧ ∃ pending, c.pendingRequests id = some pending ∧
      pending.subscriptionId = some sub
  kind : ∀ id target call pending sub, link.Asks id target call →
    c.pendingRequests id = some pending → pending.subscriptionId = some sub →
    ∃ serviceId mode, call = .subscribe sub serviceId mode
  released : ∀ id target sub, link.Asks id target (.unsubscribe sub) →
    c.serviceListeners sub = false ∧ c.subscribing sub = none ∧ sub ≤ c.serviceSubscriptionSequence
  answered : ∀ id wire pending sub,
    .response id (.ok (.snapshot wire)) ∈ c.flow conn link →
    c.pendingRequests id = some pending → pending.subscriptionId = some sub → link.holds sub = true
  refused : ∀ id error pending sub,
    .response id (.error error) ∈ c.flow conn link →
    c.pendingRequests id = some pending → pending.subscriptionId = some sub → link.holds sub = false
  aborted : ∀ id pending sub, c.pendingRequests id = some pending →
    pending.subscriptionId = some sub → pending.aborted = true → link.holds sub = false
  waits : ∀ id pending sub, c.pendingRequests id = some pending →
    pending.subscriptionId = some sub → pending.aborted = false →
    c.serviceListeners sub = true ∧ c.subscribing sub = some (.ok id) ∧ c.promises id = none
  own : ∀ id pending sub, c.subscribing sub = some (.ok id) →
    c.pendingRequests id = some pending → pending.subscriptionId = some sub
  resolved : ∀ id result sub, c.subscribing sub = some (.ok id) →
    c.promises id = some (.resolved result) →
    (c.serviceListeners sub = true → link.holds sub = true) ∧
    (result = none → link.holds sub = false)
  rejected : ∀ id error sub, c.subscribing sub = some (.ok id) →
    c.promises id = some (.rejected error) → link.holds sub = false
  failed : ∀ error sub, c.subscribing sub = some (.error error) → link.holds sub = false
  obtained : ∀ sub, (c.subscriptions sub).isSome →
    c.serviceListeners sub = true → link.holds sub = true
  held : ∀ sub, leaving ≠ some sub → link.holds sub = true →
    c.serviceListeners sub = true ∨ ∃ id target,
      link.Asks id target (.unsubscribe sub) ∧ target.serverId = serverId
  bound : ∀ sub, c.serviceSubscriptionSequence < sub → link.holds sub = false

section

variable {serverId : String} {leaving : Option Nat} {conn id : Nat} {c next : Client S U W V D}
  {link after : Link S U W V E} {pending : PendingRequest} {call : ServiceCall}

structure Client.SameListeners (c next : Client S U W V D) : Prop where
  listeners : next.serviceListeners = c.serviceListeners
  subscribing : next.subscribing = c.subscribing
  subscriptions : ∀ sub, (next.subscriptions sub).isSome = (c.subscriptions sub).isSome
  sequence : next.serviceSubscriptionSequence = c.serviceSubscriptionSequence

theorem Tracked.mono (tracked : Tracked serverId leaving conn c link)
    (pending : next.pendingRequests = c.pendingRequests)
    (promises : next.promises = c.promises) (same : c.SameListeners next)
    (asks : ∀ id target call, after.Asks id target call ↔ link.Asks id target call)
    (flow : ∀ id result, .response id result ∈ next.flow conn after →
      .response id result ∈ c.flow conn link)
    (holds : ∀ sub, after.holds sub = link.holds sub) :
    Tracked serverId leaving conn next after := by
  obtain ⟨listeners, subscribing, subscriptions, sequence⟩ := same
  constructor
  · simp only [asks, holds, pending]
    exact tracked.asked
  · simp only [asks, pending]
    exact tracked.kind
  · simp only [asks, listeners, subscribing, sequence]
    exact tracked.released
  · simp only [pending, holds]
    exact fun id wire request sub mem =>
      tracked.answered id wire request sub (flow _ _ mem)
  · simp only [pending, holds]
    exact fun id error request sub mem =>
      tracked.refused id error request sub (flow _ _ mem)
  · simp only [pending, holds]
    exact tracked.aborted
  · simp only [pending, listeners, subscribing, promises]
    exact tracked.waits
  · simp only [pending, subscribing]
    exact tracked.own
  · simp only [subscribing, promises, listeners, holds]
    exact tracked.resolved
  · simp only [subscribing, promises, holds]
    exact tracked.rejected
  · simp only [subscribing, holds]
    exact tracked.failed
  · simp only [subscriptions, listeners, holds]
    exact tracked.obtained
  · simp only [asks, listeners, holds]
    exact tracked.held
  · simp only [sequence, holds]
    exact tracked.bound

theorem asks_queue_silent {messages : List ClientMessage}
    (silent : ∀ id target call, .request id target call ∉ messages) (id : Nat)
    (target : RpcTarget) (call : ServiceCall) :
    (link.queue messages).Asks id target call ↔ link.Asks id target call := by
  rw [Link.asks_queue]
  exact ⟨fun asks => asks.resolve_right (silent id target call), .inl⟩

theorem tracked_untouched (untouched : link.Untouched)
    (opening : c.connected = false) (sound : c.Sound) (paired : c.Paired) :
    Tracked serverId none conn c link := by
  have asks : ∀ id target call, ¬link.Asks id target call := by
    rintro id target call (waits | ⟨handler, active, -⟩)
    · rw [Link.waiting, untouched.deferred, untouched.toServer] at waits
      cases waits
    · rw [untouched.activeRequests] at active
      cases active
  have holds : ∀ sub, link.holds sub = false := fun sub => by
    rw [Link.holds, untouched.encoders]
    rfl
  have idle : ∀ id pending, c.pendingRequests id ≠ some pending := fun id pending present => by
    have connected := sound.connected id (by rw [present]; rfl)
    rw [opening] at connected
    cases connected
  have deaf : ∀ sub, c.serviceListeners sub = true →
      ∀ active, c.active sub = some active → ∃ error, c.subscribing sub = some (.error error) := by
    intro sub listening active isActive
    by_contra none
    have connected := (paired.here sub active listening isActive
      fun error same => none ⟨error, same⟩).1
    rw [opening] at connected
    cases connected
  constructor
  · exact fun id target _ _ _ asked => absurd asked (asks id target _)
  · exact fun id target call _ _ asked => absurd asked (asks id target call)
  · exact fun id target _ asked => absurd asked (asks id target _)
  · exact fun id _ pending _ _ isPending => absurd isPending (idle id pending)
  · exact fun id _ pending _ _ isPending => absurd isPending (idle id pending)
  · exact fun id pending _ isPending => absurd isPending (idle id pending)
  · exact fun id pending _ isPending => absurd isPending (idle id pending)
  · exact fun id pending _ _ isPending => absurd isPending (idle id pending)
  · intro id result sub sent settled
    refine ⟨fun listening => ?_, fun _ => holds sub⟩
    obtain ⟨active, isActive, -, -⟩ := paired.subscribing sub id sent
    obtain ⟨error, same⟩ := deaf sub listening active isActive
    rw [sent] at same
    cases same
  · exact fun _ _ sub _ _ => holds sub
  · exact fun _ sub _ => holds sub
  · intro sub isSome listening
    obtain ⟨waits, isActive⟩ := paired.obtained sub isSome
    obtain ⟨active, isActive⟩ := isSome_iff_exists.mp isActive
    obtain ⟨error, same⟩ := deaf sub listening active isActive
    rw [waits] at same
    cases same
  · intro sub _ isHeld
    rw [holds] at isHeld
    cases isHeld
  · exact fun sub _ => holds sub

theorem pendingRequests_register (c : Client S U W V D) (pending : PendingRequest) (id : Nat) :
    (c.registerRequest pending).pendingRequests id =
      if id = c.requestSequence + 1 then some pending else c.pendingRequests id :=
  update_apply _ _ _ _

theorem Client.Sound.unissued_pending (sound : c.Sound) :
    c.pendingRequests (c.requestSequence + 1) = none := by
  by_contra present
  have bound := (sound.issued _ (isSome_iff_ne_none.mpr present)).2
  omega

theorem Client.Sound.ne_next (sound : c.Sound)
    (isPending : c.pendingRequests id = some pending) : id ≠ c.requestSequence + 1 := by
  rintro rfl
  rw [sound.unissued_pending] at isPending
  cases isPending

theorem Tracked.register (tracked : Tracked serverId leaving conn c link)
    (sound : c.Sound) (paired : c.Paired)
    (plain : pending.subscriptionId = none)
    (target : RpcTarget)
    (other : ∀ sub serviceId mode, call ≠ .subscribe sub serviceId mode)
    (released : ∀ sub, call = .unsubscribe sub →
      c.serviceListeners sub = false ∧ c.subscribing sub = none ∧
      sub ≤ c.serviceSubscriptionSequence)
    (left : ∀ sub, leaving = some sub →
      call = .unsubscribe sub ∧ target.serverId = serverId) :
    Tracked serverId none conn (c.registerRequest pending)
      (link.queue [.request (c.requestSequence + 1) target call]) := by
  have former : ∀ {id request sub},
      (c.registerRequest pending).pendingRequests id = some request →
      request.subscriptionId = some sub → c.pendingRequests id = some request := by
    intro id request sub isPending own
    rw [pendingRequests_register] at isPending
    split_ifs at isPending
    · cases isPending
      rw [plain] at own
      cases own
    · exact isPending
  have kept : ∀ {id request}, c.pendingRequests id = some request →
      (c.registerRequest pending).pendingRequests id = some request := by
    intro id request isPending
    rw [pendingRequests_register, if_neg (sound.ne_next isPending)]
    exact isPending
  have asks : ∀ {id asker asked}, (link.queue
      [.request (c.requestSequence + 1) target call]).Asks id asker asked →
      link.Asks id asker asked ∨ id = c.requestSequence + 1 ∧ asker = target ∧ asked = call := by
    intro id asker asked isAsked
    refine (Link.asks_queue.mp isAsked).imp_right fun mem => ?_
    cases List.mem_singleton.mp mem
    exact ⟨rfl, rfl, rfl⟩
  constructor
  · intro id asker sub serviceId mode asked
    rcases asks asked with old | ⟨-, -, new⟩
    · obtain ⟨free, request, isPending, own⟩ := tracked.asked _ _ _ _ _ old
      exact ⟨free, request, kept isPending, own⟩
    · exact absurd new.symm (other _ _ _)
  · intro id asker asked request sub isAsked isPending own
    have was := former isPending own
    rcases asks isAsked with old | ⟨new, -, -⟩
    · exact tracked.kind _ _ _ _ _ old was own
    · exact absurd new (sound.ne_next was)
  · intro id asker sub asked
    rcases asks asked with old | ⟨-, -, new⟩
    · exact tracked.released _ _ _ old
    · exact released sub new.symm
  · exact fun id wire request sub mem isPending own =>
      tracked.answered id wire request sub mem (former isPending own) own
  · exact fun id error request sub mem isPending own =>
      tracked.refused id error request sub mem (former isPending own) own
  · exact fun id request sub isPending own =>
      tracked.aborted id request sub (former isPending own) own
  · exact fun id request sub isPending own =>
      tracked.waits id request sub (former isPending own) own
  · intro id request sub sent isPending
    rw [pendingRequests_register] at isPending
    split_ifs at isPending with new
    · obtain ⟨active, -, -, issued⟩ := paired.subscribing sub id sent
      omega
    · exact tracked.own id request sub sent isPending
  · exact tracked.resolved
  · exact tracked.rejected
  · exact tracked.failed
  · exact tracked.obtained
  · intro sub _ isHeld
    by_cases leaves : leaving = some sub
    · obtain ⟨unsubscribes, here⟩ := left sub leaves
      refine .inr ⟨c.requestSequence + 1, target, Link.asks_queue.mpr (.inr ?_), here⟩
      rw [unsubscribes]
      exact List.mem_singleton_self _
    · rcases tracked.held sub leaves isHeld with listening | ⟨id, asker, asked, here⟩
      · exact .inl listening
      · exact .inr ⟨id, asker, Link.asks_queue.mpr (.inl asked), here⟩
  · exact tracked.bound

theorem pendingRequests_dropRequest (sound : c.Sound) (pending : PendingRequest) :
    (c.dropRequest pending).pendingRequests = c.pendingRequests := by
  funext id
  change update (update c.pendingRequests _ _) _ none id = _
  rw [update_apply, update_apply]
  split_ifs with new
  · rw [new, sound.unissued_pending]
  · rfl

theorem promises_dropRequest (c : Client S U W V D) (pending : PendingRequest)
    (issued : id ≤ c.requestSequence) : (c.dropRequest pending).promises id = c.promises id := by
  unfold Client.dropRequest
  rw [Client.promises_settle, if_neg (by omega)]
  rfl

theorem promises_dropRequest_next (pending : PendingRequest)
    (fresh : c.promises (c.requestSequence + 1) = none) :
    (c.dropRequest pending).promises (c.requestSequence + 1) = some (.rejected .encoding) := by
  unfold Client.dropRequest
  rw [Client.promises_settle, if_pos rfl]
  change some ((c.promises (c.requestSequence + 1)).getD _) = _
  rw [fresh]
  rfl

theorem Tracked.drop (tracked : Tracked serverId leaving conn c link)
    (sound : c.Sound) (paired : c.Paired) (pending : PendingRequest) :
    Tracked serverId leaving conn (c.dropRequest pending) link := by
  have same := pendingRequests_dropRequest sound pending
  have promised : ∀ {id sub},
      c.subscribing sub = some (.ok id) → (c.dropRequest pending).promises id = c.promises id := by
    intro id sub sent
    obtain ⟨active, -, -, issued⟩ := paired.subscribing sub id sent
    exact promises_dropRequest c pending issued
  constructor
  · rw [same]
    exact tracked.asked
  · rw [same]
    exact tracked.kind
  · exact tracked.released
  · rw [same]
    exact tracked.answered
  · rw [same]
    exact tracked.refused
  · rw [same]
    exact tracked.aborted
  · intro id request sub isPending own live
    rw [same] at isPending
    obtain ⟨listening, sent, unsettled⟩ := tracked.waits _ _ _ isPending own live
    exact ⟨listening, sent, (promised sent).trans unsettled⟩
  · rw [same]
    exact tracked.own
  · exact fun id result sub sent settled =>
      tracked.resolved id result sub sent ((promised sent).symm.trans settled)
  · exact fun id error sub sent settled =>
      tracked.rejected id error sub sent ((promised sent).symm.trans settled)
  · exact tracked.failed
  · exact tracked.obtained
  · exact tracked.held
  · exact tracked.bound

theorem listeners_listen (codec : StateCodec S U W V E D) (target : RpcTarget) (sub : Nat) :
    (c.listen codec target).serviceListeners sub =
      if sub = c.serviceSubscriptionSequence + 1 then true
      else c.serviceListeners sub :=
  update_apply _ _ _ _

variable {sub : Nat} {subscription : ServiceSubscription S}

/-- What a listener for the next subscription leaves as it was. -/
theorem Client.Paired.old (paired : c.Paired)
    (known : sub ≤ c.serviceSubscriptionSequence ∨
      (c.subscribing sub).isSome ∨ (c.subscriptions sub).isSome ∨
      ∃ id pending, c.pendingRequests id = some pending ∧
        pending.subscriptionId = some sub) : sub ≠ c.serviceSubscriptionSequence + 1 := by
  rintro rfl
  obtain ⟨-, idle, absent, none⟩ := paired.bound _ (Nat.lt_succ_self _)
  rcases known with bound | waits | obtained | ⟨id, pending, isPending, own⟩
  · omega
  · rw [idle] at waits
    cases waits
  · rw [none] at obtained
    cases obtained
  · obtain ⟨active, isActive, -, -⟩ := paired.pending id pending _ isPending own
    rw [absent] at isActive
    cases isActive

theorem Tracked.listen (codec : StateCodec S U W V E D)
    (tracked : Tracked serverId leaving conn c link) (paired : c.Paired)
    (target : RpcTarget) (error : ClientError) :
    Tracked serverId leaving conn ((c.listen codec target).withSubscribing
      (c.serviceSubscriptionSequence + 1) (some (.error error))) link := by
  have listeners : ∀ {sub}, sub ≠ c.serviceSubscriptionSequence + 1 →
      ((c.listen codec target).withSubscribing (c.serviceSubscriptionSequence + 1)
        (some (.error error))).serviceListeners sub =
        c.serviceListeners sub := fun old =>
    (listeners_listen codec target _).trans (if_neg old)
  have subscribing : ∀ {sub}, sub ≠ c.serviceSubscriptionSequence + 1 →
      ((c.listen codec target).withSubscribing (c.serviceSubscriptionSequence + 1)
        (some (.error error))).subscribing sub =
        c.subscribing sub := fun old =>
    (Client.subscribing_withSubscribing _ _ _ _).trans (if_neg old)
  have was : ∀ {sub id}, ((c.listen codec target).withSubscribing
      (c.serviceSubscriptionSequence + 1) (some (.error error))).subscribing sub =
        some (.ok id) →
      sub ≠ c.serviceSubscriptionSequence + 1 ∧ c.subscribing sub = some (.ok id) := by
    intro sub id sent
    rw [Client.subscribing_withSubscribing] at sent
    split_ifs at sent with new
    · cases sent
    · exact ⟨new, sent⟩
  constructor
  · exact tracked.asked
  · exact tracked.kind
  · intro id asker sub asked
    obtain ⟨deaf, idle, bound⟩ := tracked.released id asker sub asked
    have old := paired.old (.inl bound)
    rw [listeners old, subscribing old]
    exact ⟨deaf, idle, Nat.le_succ_of_le bound⟩
  · exact tracked.answered
  · exact tracked.refused
  · exact tracked.aborted
  · intro id pending sub isPending own live
    have old := paired.old (.inr (.inr (.inr ⟨id, pending, isPending, own⟩)))
    rw [listeners old, subscribing old]
    exact tracked.waits id pending sub isPending own live
  · exact fun id pending sub sent isPending =>
      tracked.own id pending sub (was sent).2 isPending
  · intro id result sub sent settled
    obtain ⟨old, sent⟩ := was sent
    rw [listeners old]
    exact tracked.resolved id result sub sent settled
  · exact fun id failure sub sent settled =>
      tracked.rejected id failure sub (was sent).2 settled
  · intro failure sub sent
    rw [Client.subscribing_withSubscribing] at sent
    split_ifs at sent with new
    · exact tracked.bound sub (by omega)
    · exact tracked.failed failure sub sent
  · intro sub isSome
    have old := paired.old (.inr (.inr (.inl isSome)))
    rw [listeners old]
    exact tracked.obtained sub isSome
  · intro sub leaves isHeld
    have old : sub ≠ c.serviceSubscriptionSequence + 1 := by
      rintro rfl
      have free := tracked.bound _ (Nat.lt_succ_self _)
      rw [isHeld] at free
      cases free
    rw [listeners old]
    exact tracked.held sub leaves isHeld
  · intro sub later
    change c.serviceSubscriptionSequence + 1 < sub at later
    exact tracked.bound sub (by omega)

theorem Tracked.promised {error failure : ClientError}
    (tracked : Tracked serverId leaving conn (c.withSubscribing sub (some (.error error))) link)
    (absent : c.pendingRequests id = none) (settled : c.promises id = some (.rejected failure)) :
    Tracked serverId leaving conn (c.withSubscribing sub (some (.ok id))) link := by
  have free : link.holds sub = false :=
    tracked.failed error sub ((Client.subscribing_withSubscribing _ _ _ _).trans (if_pos rfl))
  have others : ∀ {other}, other ≠ sub →
      (c.withSubscribing sub (some (.ok id))).subscribing other =
        (c.withSubscribing sub (some (.error error))).subscribing other := by
    intro other apart
    rw [Client.subscribing_withSubscribing, Client.subscribing_withSubscribing, if_neg apart,
      if_neg apart]
  have self : ∀ promise, (c.withSubscribing sub promise).subscribing
      sub = promise := fun promise =>
    (Client.subscribing_withSubscribing _ _ _ _).trans (if_pos rfl)
  refine { tracked with
      released := ?_, waits := ?_, own := ?_, resolved := ?_, rejected := ?_, failed := ?_ }
  · intro request asker other asked
    obtain ⟨deaf, idle, bound⟩ := tracked.released request asker other asked
    refine ⟨deaf, ?_, bound⟩
    rw [others, idle]
    rintro rfl
    rw [self] at idle
    cases idle
  · intro request pending other isPending own live
    obtain ⟨listening, sent, unsettled⟩ := tracked.waits request pending other isPending own live
    refine ⟨listening, ?_, unsettled⟩
    rw [others, sent]
    rintro rfl
    rw [self] at sent
    cases sent
  · intro request pending other sent isPending
    by_cases same : other = sub
    · rw [same, self] at sent
      cases sent
      change c.pendingRequests id = _ at isPending
      rw [absent] at isPending
      cases isPending
    · rw [others same] at sent
      exact tracked.own request pending other sent isPending
  · intro request result other sent isSettled
    by_cases same : other = sub
    · rw [same, self] at sent
      cases sent
      change c.promises id = _ at isSettled
      rw [settled] at isSettled
      cases isSettled
    · rw [others same] at sent
      exact tracked.resolved request result other sent isSettled
  · intro request reason other sent isSettled
    by_cases same : other = sub
    · rw [same]
      exact free
    · rw [others same] at sent
      exact tracked.rejected request reason other sent isSettled
  · intro reason other sent
    by_cases same : other = sub
    · rw [same]
      exact free
    · rw [others same] at sent
      exact tracked.failed reason other sent

theorem Link.Once.asked (once : link.Once c) {target : RpcTarget}
    (asks : link.Asks id target call) : id ≤ c.requestSequence := by
  rcases asks with waits | ⟨handler, active, -⟩
  · exact once.sent id target call waits
  · exact once.issued id (.inl (by rw [active]; rfl))

theorem Tracked.subscribe (codec : StateCodec S U W V E D)
    (tracked : Tracked serverId leaving conn c link) (sound : c.Sound)
    (paired : c.Paired) (once : link.Once c)
    (awaited : ∀ id result, .response id result ∈ c.flow conn link → (c.pendingRequests id).isSome)
    (target : RpcTarget) (serviceId : String) (mode : Trpi.Chord.Services.ServiceMode)
    (own : pending.subscriptionId =
      some (c.serviceSubscriptionSequence + 1)) (live : pending.aborted = false) :
    Tracked serverId leaving conn
      (((c.listen codec target).registerRequest pending).withSubscribing
        (c.serviceSubscriptionSequence + 1) (some (.ok (c.requestSequence + 1))))
      (link.queue [.request (c.requestSequence + 1) target
        (.subscribe (c.serviceSubscriptionSequence + 1) serviceId mode)]) := by
  have listened := tracked.listen codec paired target .disposed
  have old : ∀ {id request sub}, c.pendingRequests id = some request →
      request.subscriptionId = some sub →
      sub ≠ c.serviceSubscriptionSequence + 1 := fun isPending same =>
    paired.old (.inr (.inr (.inr ⟨_, _, isPending, same⟩)))
  have free : link.holds (c.serviceSubscriptionSequence + 1) = false :=
    tracked.bound _ (Nat.lt_succ_self _)
  have registered : ∀ id, (((c.listen codec target).registerRequest pending).withSubscribing
      (c.serviceSubscriptionSequence + 1)
      (some (.ok (c.requestSequence + 1)))).pendingRequests id =
        if id = c.requestSequence + 1 then some pending else c.pendingRequests id :=
    fun _ => update_apply _ _ _ _
  have kept : ∀ {id request}, c.pendingRequests id = some request →
      (((c.listen codec target).registerRequest pending).withSubscribing
        (c.serviceSubscriptionSequence + 1)
        (some (.ok (c.requestSequence + 1)))).pendingRequests id = some request := by
    intro id request isPending
    rw [registered, if_neg (sound.ne_next isPending)]
    exact isPending
  have subscribing : ∀ {other}, other ≠ c.serviceSubscriptionSequence + 1 →
      (((c.listen codec target).registerRequest pending).withSubscribing
        (c.serviceSubscriptionSequence + 1)
        (some (.ok (c.requestSequence + 1)))).subscribing other =
      ((c.listen codec target).withSubscribing (c.serviceSubscriptionSequence + 1)
        (some (.error .disposed))).subscribing other := by
    intro other apart
    rw [Client.subscribing_withSubscribing, Client.subscribing_withSubscribing, if_neg apart,
      if_neg apart]
    rfl
  have self : (((c.listen codec target).registerRequest pending).withSubscribing
      (c.serviceSubscriptionSequence + 1)
      (some (.ok (c.requestSequence + 1)))).subscribing
        (c.serviceSubscriptionSequence + 1) = some (.ok (c.requestSequence + 1)) :=
    (Client.subscribing_withSubscribing _ _ _ _).trans (if_pos rfl)
  have unsettled : c.promises (c.requestSequence + 1) = none :=
    sound.unissued _ (Nat.lt_succ_self _)
  have asks : ∀ {id asker asked}, (link.queue [.request (c.requestSequence + 1) target
      (.subscribe (c.serviceSubscriptionSequence + 1) serviceId mode)]).Asks id asker asked →
      link.Asks id asker asked ∨ id = c.requestSequence + 1 ∧
        asked = .subscribe (c.serviceSubscriptionSequence + 1) serviceId mode := by
    intro id asker asked isAsked
    refine (Link.asks_queue.mp isAsked).imp_right fun mem => ?_
    cases List.mem_singleton.mp mem
    exact ⟨rfl, rfl⟩
  have arrived : ∀ {id result request},
      .response id result ∈ c.flow conn link →
      (((c.listen codec target).registerRequest pending).withSubscribing
        (c.serviceSubscriptionSequence + 1)
        (some (.ok (c.requestSequence + 1)))).pendingRequests id = some request →
      c.pendingRequests id = some request := by
    intro id result request mem isPending
    obtain ⟨former, was⟩ := isSome_iff_exists.mp (awaited id result mem)
    have same := kept was
    rw [isPending] at same
    cases same
    exact was
  constructor
  · intro id asker sub service asMode asked
    rcases asks asked with before | ⟨rfl, same⟩
    · obtain ⟨vacant, request, isPending, belongs⟩ := tracked.asked _ _ _ _ _ before
      exact ⟨vacant, request, kept isPending, belongs⟩
    · cases same
      exact ⟨free, pending, by rw [registered, if_pos rfl], own⟩
  · intro id asker asked request sub isAsked isPending belongs
    rw [registered] at isPending
    rcases asks isAsked with before | ⟨rfl, same⟩
    · split_ifs at isPending with new
      · cases isPending
        rw [own] at belongs
        cases belongs
        have issued := once.asked before
        omega
      · exact tracked.kind _ _ _ _ _ before isPending belongs
    · rw [if_pos rfl] at isPending
      cases isPending
      rw [own] at belongs
      cases belongs
      exact ⟨serviceId, mode, same⟩
  · intro id asker sub asked
    rcases asks asked with before | ⟨-, same⟩
    · obtain ⟨deaf, idle, bound⟩ := listened.released _ _ _ before
      have apart := paired.old (.inl (tracked.released _ _ _ before).2.2)
      exact ⟨deaf, (subscribing apart).trans idle, bound⟩
    · cases same
  · exact fun id wire request sub mem isPending =>
      tracked.answered id wire request sub mem (arrived mem isPending)
  · exact fun id error request sub mem isPending =>
      tracked.refused id error request sub mem (arrived mem isPending)
  · intro id request sub isPending belongs isAborted
    rw [registered] at isPending
    split_ifs at isPending with new
    · cases isPending
      rw [live] at isAborted
      cases isAborted
    · exact tracked.aborted id request sub isPending belongs isAborted
  · intro id request sub isPending belongs isLive
    rw [registered] at isPending
    split_ifs at isPending with new
    · cases isPending
      rw [own] at belongs
      cases belongs
      rw [new]
      exact ⟨(listeners_listen codec target _).trans (if_pos rfl), self, unsettled⟩
    · obtain ⟨listening, sent, open_⟩ := listened.waits id request sub isPending belongs
        isLive
      exact ⟨listening, (subscribing (old isPending belongs)).trans sent, open_⟩
  · intro id request sub sent isPending
    rw [registered] at isPending
    by_cases new : sub = c.serviceSubscriptionSequence + 1
    · rw [new, self] at sent
      cases sent
      rw [if_pos rfl] at isPending
      cases isPending
      rw [own, new]
    · rw [subscribing new, Client.subscribing_withSubscribing, if_neg new] at sent
      obtain ⟨active, -, -, issued⟩ := paired.subscribing sub id sent
      rw [if_neg (by omega)] at isPending
      exact tracked.own id request sub sent isPending
  · intro id result sub sent settled
    by_cases new : sub = c.serviceSubscriptionSequence + 1
    · rw [new, self] at sent
      cases sent
      have absurd := unsettled.symm.trans settled
      cases absurd
    · rw [subscribing new] at sent
      exact listened.resolved id result sub sent settled
  · intro id error sub sent settled
    by_cases new : sub = c.serviceSubscriptionSequence + 1
    · rw [new]
      exact free
    · rw [subscribing new] at sent
      exact listened.rejected id error sub sent settled
  · intro error sub sent
    by_cases new : sub = c.serviceSubscriptionSequence + 1
    · rw [new]
      exact free
    · rw [subscribing new] at sent
      exact listened.failed error sub sent
  · exact listened.obtained
  · intro sub leaves isHeld
    rcases listened.held sub leaves isHeld with listening | ⟨id, asker, asked, here⟩
    · exact .inl listening
    · exact .inr ⟨id, asker, Link.asks_queue.mpr (.inl asked), here⟩
  · exact listened.bound

theorem pendingRequests_markAborted (c : Client S U W V D) (id : Nat)
    (pending : PendingRequest) (other : Nat) :
    (c.markAborted id pending).pendingRequests other =
      if other = id then some { pending with aborted := true }
      else c.pendingRequests other :=
  update_apply _ _ _ _

theorem Tracked.abort (tracked : Tracked serverId leaving conn c link)
    (isPending : c.pendingRequests id = some pending)
    (free : ∀ sub, pending.subscriptionId = some sub →
      link.holds sub = false) :
    Tracked serverId leaving conn
      ((c.markAborted id pending).settle id (.rejected .aborted)) link := by
  have former : ∀ {other request}, ((c.markAborted id pending).settle id
      (.rejected .aborted)).pendingRequests other = some request → ∃ before,
      c.pendingRequests other = some before ∧ before.subscriptionId = request.subscriptionId := by
    intro other request isMarked
    change (c.markAborted id pending).pendingRequests other = _ at isMarked
    rw [pendingRequests_markAborted] at isMarked
    split_ifs at isMarked with same
    · cases isMarked
      exact ⟨pending, same ▸ isPending, rfl⟩
    · exact ⟨request, isMarked, rfl⟩
  have promises : ∀ other, ((c.markAborted id pending).settle id
      (.rejected .aborted)).promises other =
      if other = id then some ((c.promises id).getD (.rejected .aborted))
      else c.promises other := fun other => Client.promises_settle _ _ _
  constructor
  · intro other target sub serviceId mode asked
    obtain ⟨vacant, before, was, own⟩ := tracked.asked _ _ _ _ _ asked
    refine ⟨vacant, ?_⟩
    change ∃ request, (c.markAborted id pending).pendingRequests other = some request ∧ _
    rw [pendingRequests_markAborted]
    by_cases same : other = id
    · rw [same, isPending] at was
      cases was
      rw [if_pos same]
      exact ⟨_, rfl, own⟩
    · rw [if_neg same]
      exact ⟨before, was, own⟩
  · intro other target call request sub asked isMarked own
    obtain ⟨before, was, same⟩ := former isMarked
    exact tracked.kind _ _ _ _ _ asked was (same.trans own)
  · exact tracked.released
  · intro other wire request sub mem isMarked own
    obtain ⟨before, was, same⟩ := former isMarked
    exact tracked.answered _ _ _ _ mem was (same.trans own)
  · intro other error request sub mem isMarked own
    obtain ⟨before, was, same⟩ := former isMarked
    exact tracked.refused _ _ _ _ mem was (same.trans own)
  · intro other request sub isMarked own isAborted
    change (c.markAborted id pending).pendingRequests other = _ at isMarked
    rw [pendingRequests_markAborted] at isMarked
    split_ifs at isMarked with same
    · cases isMarked
      exact free sub own
    · exact tracked.aborted other request sub isMarked own isAborted
  · intro other request sub isMarked own live
    change (c.markAborted id pending).pendingRequests other = _ at isMarked
    rw [pendingRequests_markAborted] at isMarked
    split_ifs at isMarked with same
    · cases isMarked
      cases live
    · obtain ⟨listening, sent, unsettled⟩ := tracked.waits other request sub isMarked own
        live
      refine ⟨listening, sent, ?_⟩
      rw [promises, if_neg same]
      exact unsettled
  · intro other request sub sent isMarked
    obtain ⟨before, was, same⟩ := former isMarked
    exact same.symm.trans (tracked.own other before sub sent was)
  · intro other result sub sent settled
    rw [promises] at settled
    split_ifs at settled with same
    · cases before : c.promises id with
      | none =>
        rw [before] at settled
        cases settled
      | some outcome =>
        rw [before, getD_some] at settled
        exact tracked.resolved other result sub sent (same ▸ before.trans settled)
    · exact tracked.resolved other result sub sent settled
  · intro other error sub sent settled
    by_cases same : other = id
    · subst same
      exact free sub (tracked.own other pending sub sent isPending)
    · rw [promises, if_neg same] at settled
      exact tracked.rejected other error sub sent settled
  · exact tracked.failed
  · exact tracked.obtained
  · exact tracked.held
  · exact tracked.bound

theorem Tracked.resumed (tracked : Tracked serverId leaving conn c link)
    (done : ∀ id, c.subscribing sub = some (.ok id) → c.promises id ≠ none)
    (pending : next.pendingRequests = c.pendingRequests)
    (promises : next.promises = c.promises)
    (sequence : next.serviceSubscriptionSequence = c.serviceSubscriptionSequence)
    (subscribing : ∀ other, next.subscribing other =
      if other = sub then none else c.subscribing other)
    (listeners : ∀ other, next.serviceListeners other = c.serviceListeners other ∨
      other = sub ∧ next.serviceListeners other = false ∧ link.holds other = false)
    (subscriptions : ∀ other, (next.subscriptions other).isSome →
      (c.subscriptions other).isSome ∨
      (next.serviceListeners other = true → link.holds other = true))
    (chunk : next.chunk = c.chunk) (origin : next.chunkConnection = c.chunkConnection) :
    Tracked serverId leaving conn next link := by
  have flow : next.flow conn link = c.flow conn link := by
    rw [Client.flow, Client.flow, chunk, origin]
  have was : ∀ {other promise}, next.subscribing other = some promise →
      other ≠ sub ∧ c.subscribing other = some promise := by
    intro other promise sent
    rw [subscribing] at sent
    split_ifs at sent with same
    exact ⟨same, sent⟩
  have listened : ∀ {other}, next.serviceListeners other = true →
      c.serviceListeners other = true := by
    intro other listening
    rcases listeners other with same | ⟨-, deaf, -⟩
    · rw [← same, listening]
    · rw [deaf] at listening
      cases listening
  constructor
  · rw [pending]
    exact tracked.asked
  · rw [pending]
    exact tracked.kind
  · intro id target other asked
    obtain ⟨deaf, idle, bound⟩ := tracked.released id target other asked
    refine ⟨?_, ?_, sequence ▸ bound⟩
    · rcases listeners other with same | ⟨-, none, -⟩
      · rw [same, deaf]
      · exact none
    · rw [subscribing, idle, ite_self]
  · rw [pending, flow]
    exact tracked.answered
  · rw [pending, flow]
    exact tracked.refused
  · rw [pending]
    exact tracked.aborted
  · intro id request other isPending own live
    rw [pending] at isPending
    obtain ⟨listening, sent, unsettled⟩ := tracked.waits id request other isPending own live
    have apart : other ≠ sub := by
      rintro rfl
      exact done id sent unsettled
    rw [subscribing, if_neg apart, promises]
    rcases listeners other with same | ⟨same, -, -⟩
    · exact ⟨same.trans listening, sent, unsettled⟩
    · exact absurd same apart
  · intro id request other sent isPending
    rw [pending] at isPending
    exact tracked.own id request other (was sent).2 isPending
  · intro id result other sent settled
    rw [promises] at settled
    obtain ⟨holds, free⟩ := tracked.resolved id result other (was sent).2 settled
    exact ⟨fun listening => holds (listened listening), free⟩
  · intro id error other sent settled
    rw [promises] at settled
    exact tracked.rejected id error other (was sent).2 settled
  · exact fun error other sent => tracked.failed error other (was sent).2
  · intro other isSome listening
    rcases subscriptions other isSome with before | holds
    · exact tracked.obtained other before (listened listening)
    · exact holds listening
  · intro other leaves isHeld
    rcases tracked.held other leaves isHeld with listening | asked
    · rcases listeners other with same | ⟨-, -, free⟩
      · exact .inl (same.trans listening)
      · rw [isHeld] at free
        cases free
    · exact .inr asked
  · rw [sequence]
    exact tracked.bound

theorem listeners_closeSubscription (c : Client S U W V D) (sub : Nat)
    (subscription : ServiceSubscription S) (active : ActiveServiceListener U V D) (other : Nat) :
    (c.closeSubscription sub subscription active).serviceListeners other =
      if other = sub then false else c.serviceListeners other :=
  update_apply _ _ _ _

theorem subscriptions_closeSubscription (c : Client S U W V D)
    (obtained : c.subscriptions sub = some subscription) (active : ActiveServiceListener U V D)
    (other : Nat) :
    ((c.closeSubscription sub subscription active).subscriptions other).isSome =
      (c.subscriptions other).isSome := by
  change (update c.subscriptions sub _ other).isSome = _
  rw [update_apply]
  split_ifs with same
  · rw [same, obtained]
    rfl
  · rfl

theorem Tracked.close (tracked : Tracked serverId none conn c link) (paired : c.Paired)
    (obtained : c.subscriptions sub = some subscription) (active : ActiveServiceListener U V D) :
    Tracked serverId (some sub) conn (c.closeSubscription sub subscription active) link := by
  have listeners := listeners_closeSubscription c sub subscription active
  have subscriptions := subscriptions_closeSubscription c obtained active
  have idle := (paired.obtained sub (by rw [obtained]; rfl)).1
  have listened : ∀ {other}, (c.closeSubscription sub subscription
      active).serviceListeners other = true → c.serviceListeners other = true := by
    intro other listening
    rw [listeners] at listening
    split_ifs at listening
    exact listening
  refine { tracked with released := ?_, waits := ?_, resolved := ?_, obtained := ?_, held := ?_ }
  · intro id target other asked
    obtain ⟨deaf, rest⟩ := tracked.released id target other asked
    rw [listeners, deaf, ite_self]
    exact ⟨rfl, rest⟩
  · intro id request other isPending own live
    obtain ⟨listening, sent, unsettled⟩ := tracked.waits id request other isPending own live
    have apart : other ≠ sub := by
      rintro rfl
      rw [idle] at sent
      cases sent
    rw [listeners, if_neg apart]
    exact ⟨listening, sent, unsettled⟩
  · intro id result other sent settled
    obtain ⟨holds, free⟩ := tracked.resolved id result other sent settled
    exact ⟨fun listening => holds (listened listening), free⟩
  · intro other isSome listening
    rw [subscriptions] at isSome
    exact tracked.obtained other isSome (listened listening)
  · intro other leaves isHeld
    have apart : other ≠ sub := fun same => leaves (congrArg some same.symm)
    rw [listeners, if_neg apart]
    exact tracked.held other (by simp) isHeld

/-- Nothing is left to be sent for a subscription that is not held. -/
theorem Tracked.left (tracked : Tracked serverId (some sub) conn c link)
    (done : link.holds sub = true → ∃ id target,
      link.Asks id target (.unsubscribe sub) ∧ target.serverId = serverId) :
    Tracked serverId none conn c link :=
  { tracked with
    held := fun other _ isHeld => by
      by_cases same : some sub = some other
      · cases same
        exact .inr (done isHeld)
      · exact tracked.held other same isHeld }

theorem Tracked.respond (tracked : Tracked serverId leaving conn c link)
    {result : Except ProtocolError (Reply W)}
    {outcome : Outcome S}
    (isPending : c.pendingRequests id = some pending)
    (single : ∀ target call, ¬link.Asks id target call)
    (arrived : .response id result ∈ c.flow conn link)
    (means : ∀ sub, pending.subscriptionId = some sub →
      (∃ error reason, result = .error error ∧ outcome = .rejected reason) ∨
      ∃ wire snapshot, result = .ok (.snapshot wire) ∧ outcome = .resolved (some snapshot))
    (requests : ∀ other, next.pendingRequests other =
      if other = id then none else c.pendingRequests other)
    (promises : ∀ other, next.promises other =
      if other = id then some ((c.promises id).getD outcome) else c.promises other)
    (same : c.SameListeners next)
    (flow : ∀ m ∈ next.flow conn link, m ∈ c.flow conn link) :
    Tracked serverId leaving conn next link := by
  obtain ⟨listeners, subscribing, subscriptions, sequence⟩ := same
  have was : ∀ {other request}, next.pendingRequests other = some request →
      other ≠ id ∧ c.pendingRequests other = some request := by
    intro other request isRequest
    rw [requests] at isRequest
    split_ifs at isRequest with same
    exact ⟨same, isRequest⟩
  -- What the answered request was for, if the promise is settled by this response.
  have settles : ∀ {sub}, c.subscribing sub = some (.ok id) →
      c.promises id = none →
      (∃ reason, outcome = .rejected reason ∧ link.holds sub = false) ∨
      ∃ snapshot, outcome = .resolved (some snapshot) ∧ link.holds sub = true := by
    intro sub sent _
    have own := tracked.own id pending sub sent isPending
    rcases means sub own with ⟨error, reason, rfl, same⟩ | ⟨wire, snapshot, rfl, same⟩
    · exact .inl ⟨reason, same, tracked.refused id error pending sub arrived isPending own⟩
    · exact .inr ⟨snapshot, same, tracked.answered id wire pending sub arrived isPending own⟩
  constructor
  · intro other target sub serviceId mode asked
    obtain ⟨free, request, isRequest, own⟩ := tracked.asked _ _ _ _ _ asked
    refine ⟨free, request, ?_, own⟩
    have apart : other ≠ id := by
      rintro rfl
      exact single _ _ asked
    rw [requests, if_neg apart]
    exact isRequest
  · exact fun other target call request sub asked isRequest =>
      tracked.kind _ _ _ _ _ asked (was isRequest).2
  · rw [listeners, subscribing, sequence]
    exact tracked.released
  · exact fun other wire request sub mem isRequest =>
      tracked.answered other wire request sub (flow _ mem) (was isRequest).2
  · exact fun other error request sub mem isRequest =>
      tracked.refused other error request sub (flow _ mem) (was isRequest).2
  · exact fun other request sub isRequest =>
      tracked.aborted other request sub (was isRequest).2
  · intro other request sub isRequest own live
    obtain ⟨apart, isRequest⟩ := was isRequest
    rw [listeners, subscribing, promises, if_neg apart]
    exact tracked.waits other request sub isRequest own live
  · intro other request sub sent isRequest
    rw [subscribing] at sent
    exact tracked.own other request sub sent (was isRequest).2
  · intro other answer sub sent settled
    rw [subscribing] at sent
    rw [promises] at settled
    rw [listeners]
    split_ifs at settled with same
    · subst same
      cases before : c.promises other with
      | some first =>
        rw [before, getD_some] at settled
        exact tracked.resolved other answer sub sent (before.trans settled)
      | none =>
        rw [before, getD_none] at settled
        rcases settles sent before with ⟨reason, rejected, -⟩ | ⟨snapshot, resolved, isHeld⟩
        · rw [rejected] at settled
          cases settled
        · rw [resolved] at settled
          cases settled
          exact ⟨fun _ => isHeld, fun absurd => nomatch absurd⟩
    · exact tracked.resolved other answer sub sent settled
  · intro other reason sub sent settled
    rw [subscribing] at sent
    rw [promises] at settled
    split_ifs at settled with same
    · subst same
      cases before : c.promises other with
      | some first =>
        rw [before, getD_some] at settled
        exact tracked.rejected other reason sub sent (before.trans settled)
      | none =>
        rw [before, getD_none] at settled
        rcases settles sent before with ⟨cause, rejected, free⟩ | ⟨snapshot, resolved, -⟩
        · exact free
        · rw [resolved] at settled
          cases settled
    · exact tracked.rejected other reason sub sent settled
  · rw [subscribing]
    exact tracked.failed
  · simp only [subscriptions, listeners]
    exact tracked.obtained
  · rw [listeners]
    exact tracked.held
  · rw [sequence]
    exact tracked.bound

end

end Trpi.Remote
