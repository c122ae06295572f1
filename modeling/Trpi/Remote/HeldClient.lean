import Trpi.Remote.HeldSubscriptions

/-!
# Subscriptions a server holds: steps of the client

When a run leaves no subscription behind, and what the client's steps keep.
-/

namespace Trpi.Remote

open Client Option Prod

variable {S U W V E D : Type}

namespace World

/-- The connection is the client's, and the server's end of it is open. -/
structure On (w : World S U W V E D) (conn : Nat) : Prop where
  current : w.Current conn
  isOpen : (w.links conn).isOpen = true

/-- A call of a subscription is cancelled before the server has granted it, and is not granted
then; the unsubscribe of one that the server holds reaches it and does not fail. Services are not
called through `request` to subscribe. -/
def Tidy (codec : StateCodec S U W V E D) (w : World S U W V E D) : Event S U → Prop
  | .client (.request _ call _ _) => ∃ serviceId member, call = .other serviceId member
  | .client (.abort id out) => out = .sent → ∀ conn pending subscriptionId,
    w.On conn → w.client.pendingRequests id = some pending →
    pending.subscriptionId = some subscriptionId → (w.links conn).holds subscriptionId = false
  | .client (.disposeSubscription subscriptionId out) => ∀ conn active,
    w.On conn → w.client.active subscriptionId = some active →
    (w.links conn).holds subscriptionId = true →
    w.client.targetIsCurrent active.target = true ∧ out ≠ .tooLong
  | .server conn (.returns id (.snapshot snapshot) fits) =>
    (codec.encodeSnapshot snapshot).toOption.isSome → fits = true → w.On conn →
    ∀ pending subscriptionId, w.client.pendingRequests id = some pending →
    pending.subscriptionId = some subscriptionId → pending.aborted = false
  | .server conn (.returns id (.error _) fits) => fits = true → w.On conn →
    ∀ handler subscriptionId, (w.links conn).activeRequests id = some handler →
    handler.call = .unsubscribe subscriptionId → (w.links conn).holds subscriptionId = false
  | _ => True

end World

section

variable {conn id : Nat} {c next : Client S U W V D} {link : Link S U W V E}
  {result : Except ProtocolError (Reply W)} {later : List (ServerMessage W V)}
  {m : ServerMessage W V} {leaving : Option Nat} {serverId : String}

theorem responseCount_flow (c : Client S U W V D) (conn : Nat) (link : Link S U W V E) (id : Nat) :
    responseCount id (c.flow conn link) = c.inChunk conn id + responseCount id link.toClient := by
  rw [flow, inChunk, responseCount_append]
  split_ifs <;> rfl

theorem responseCount_pos {messages : List (ServerMessage W V)}
    (mem : .response id result ∈ messages) :
    0 < responseCount id messages :=
  List.countP_pos_iff.mpr ⟨_, mem, by simp [ServerMessage.isResponse]⟩

theorem Link.underway_of_asks {target : RpcTarget} {call : ServiceCall}
    (asks : link.Asks id target call) :
    0 < requestCount id link.toServer + requestCount id link.deferred + link.unanswered id := by
  rcases asks with waits | ⟨handler, active, key⟩
  · have some := requestCount_pos waits
    rw [requestCount_waiting] at some
    omega
  · have invoking : handler.stage = .invoking := congrArg (fun parts => parts.2.2) key
    have one := unanswered_of_invoking active invoking
    omega

theorem arrived_pending (expected : ∀ id, link.underway id + c.inChunk conn id ≤ c.pendingCount id)
    (arrived : .response id result ∈ c.flow conn link) :
    (c.pendingRequests id).isSome ∧ ∀ target call, ¬link.Asks id target call := by
  have bound := expected id
  have coming := responseCount_pos arrived
  rw [responseCount_flow] at coming
  rw [Link.underway] at bound
  constructor
  · by_contra absent
    rw [pendingCount_of_not_isSome absent] at bound
    omega
  · intro target call asks
    have asked := Link.underway_of_asks asks
    have one := c.pendingCount_le_one id
    omega

/-- What is handled is taken out of what is on the way. -/
theorem flow_withChunk (waiting : c.chunk = m :: later) :
    ∀ other ∈ (c.withChunk later).flow conn link, other ∈ c.flow conn link := by
  intro other mem
  unfold flow at mem ⊢
  change other ∈ (if c.chunkConnection = conn then later else []) ++ _ at mem
  split_ifs at mem ⊢
  · rw [waiting]
    exact List.mem_cons_of_mem _ mem
  · exact mem

theorem Tracked.quiet (tracked : Tracked serverId leaving conn c link)
    (pending : next.pendingRequests = c.pendingRequests) (promises : next.promises = c.promises)
    (same : c.SameListeners next)
    (flow : ∀ m ∈ next.flow conn link, m ∈ c.flow conn link) :
    Tracked serverId leaving conn next link :=
  tracked.mono pending promises same (fun _ _ _ => Iff.rfl) (fun _ _ => flow _) fun _ => rfl

theorem Tracked.takes {codec : StateCodec S U W V E D}
    (tracked : Tracked serverId leaving conn c link) (sound : c.Sound)
    (current : c.lifecycle.connection? = some conn)
    (expected : ∀ id, link.underway id + c.inChunk conn id ≤ c.pendingCount id)
    (waiting : c.chunk = m :: later)
    (takes : (c.withChunk later).Takes codec m next) : Tracked serverId leaving conn next link := by
  have flow : ∀ other ∈ (c.withChunk later).flow conn link,
      other ∈ c.flow conn link := flow_withChunk waiting
  -- A response that is waited for is one of this connection.
  have here : ∀ {id result} {pending : PendingRequest}, m = .response id result →
      c.pendingRequests id = some pending → .response id result ∈ c.flow conn link := by
    rintro id result pending rfl isPending
    obtain ⟨own, lifecycle⟩ := lifecycle_of_connected (sound.connected id (by rw [isPending]; rfl))
    rw [lifecycle] at current
    cases current
    have origin := sound.chunk conn (.inl lifecycle) (by simp [waiting])
    unfold Client.flow
    rw [if_pos origin, waiting]
    exact List.mem_append_left _ List.mem_cons_self
  cases takes with
  | greeted name id opening => exact tracked.quiet rfl rfl ⟨rfl, rfl, fun _ => rfl, rfl⟩ flow
  | attached attachment => exact tracked.quiet rfl rfl ⟨rfl, rfl, fun _ => rfl, rfl⟩ flow
  | ignored sub wire deaf => exact tracked.quiet rfl rfl ⟨rfl, rfl, fun _ => rfl, rfl⟩ flow
  | queued sub wire active listening isActive early =>
    exact tracked.quiet rfl rfl ⟨rfl, rfl, fun _ => rfl, rfl⟩ flow
  | updated sub wire active d update listening isActive late decoded =>
    exact tracked.quiet rfl rfl ⟨rfl, rfl, fun _ => rfl, rfl⟩ flow
  | refused id error pending isPending =>
    have arrived := here rfl isPending
    exact tracked.respond isPending (arrived_pending expected arrived).2 arrived
      (fun _ _ => .inl ⟨error, _, rfl, rfl⟩) (fun _ => Function.update_apply _ _ _ _)
      (fun _ => promises_settle _ _ _) ⟨rfl, rfl, fun _ => rfl, rfl⟩ flow
  | answered id reply pending isPending plain =>
    have arrived := here rfl isPending
    refine tracked.respond isPending (arrived_pending expected arrived).2 arrived
      (fun sub own => ?_) (fun _ => Function.update_apply _ _ _ _)
      (fun _ => promises_settle _ _ _) ⟨rfl, rfl, fun _ => rfl, rfl⟩ flow
    rw [plain] at own
    cases own
  | subscribed id wire pending sub active hydrated snapshot isPending subscribing isActive
      decoded =>
    have arrived := here rfl isPending
    exact tracked.respond isPending (arrived_pending expected arrived).2 arrived
      (fun _ _ => .inr ⟨wire, snapshot, rfl, rfl⟩) (fun _ => Function.update_apply _ _ _ _)
      (fun _ => promises_settle _ _ _) ⟨rfl, rfl, fun _ => rfl, rfl⟩ flow

end

namespace World

/-- What the steps of a run start from: requests are dispatched once, at the client's server. -/
def Ordered (serverId : String) (w : World S U W V E D) : Prop :=
  w.Orderly ∧ w.client.Homed serverId

end World

section

variable {codec : StateCodec S U W V E D} {serverId : String} {w : World S U W V E D}
  {conn : Nat} {next : Client S U W V D} {out : Option (Nat × ClientMessage)}

theorem sentOn_none (conn : Nat) : World.sentOn none conn = [] := rfl

theorem sentOn_own (conn : Nat) (m : ClientMessage) :
    World.sentOn (some (conn, m)) conn = [m] := if_pos rfl

variable {link : Link S U W V E} {c : Client S U W V D}

theorem Tracked.queued (tracked : Tracked serverId none conn c link) :
    Tracked serverId none conn c (link.queue (World.sentOn none conn)) := by
  rw [sentOn_none, Link.queue_nil]
  exact tracked

/-- A request that is no subscription; `leaving` is what it unsubscribes. -/
theorem Tracked.request {leaving : Option Nat}
    (tracked : Tracked serverId leaving conn c link) (sound : c.Sound)
    (paired : c.Paired) (target : RpcTarget) {call : ServiceCall} (signal : Signal)
    (fits : Outgoing)
    (stays : (c.request target call signal none fits).1.1.lifecycle.connection? = some conn)
    (other : ∀ sub serviceId mode, call ≠ .subscribe sub serviceId mode)
    (released : ∀ sub, call = .unsubscribe sub →
      c.serviceListeners sub = false ∧ c.subscribing sub = none ∧
      sub ≤ c.serviceSubscriptionSequence)
    (left : ∀ sub, leaving = some sub → call = .unsubscribe sub ∧ target.serverId = serverId)
    (unsent : c.disposed = true ∨ c.connected = false ∨ signal = .aborted ∨
      fits = .tooLong → Tracked serverId none conn c link) :
    Tracked serverId none conn (c.request target call signal none fits).1.1
      (link.queue (World.sentOn (c.request target call signal none fits).1.2 conn)) := by
  have requests := requests_of_stays target call signal none fits stays
  generalize c.request target call signal none fits = result at requests
  cases requests with
  | refused error why =>
    refine (unsent ?_).queued
    rcases why with disposed | apart | aborted
    · exact .inl disposed
    · exact .inr (.inl apart)
    · exact .inr (.inr (.inl aborted))
  | dropped lifecycle long => exact ((unsent (.inr (.inr (.inr long)))).drop sound paired _).queued
  | sent lifecycle sends =>
    dsimp only
    rw [sentOn_own]
    exact tracked.register sound paired rfl target other released left

theorem Tracked.subscribeService
    (tracked : Tracked serverId none conn c link) (sound : c.Sound)
    (paired : c.Paired) (once : link.Once c)
    (awaited : ∀ id result, .response id result ∈ c.flow conn link → (c.pendingRequests id).isSome)
    (target : RpcTarget) (serviceId : String) (mode : Trpi.Chord.Services.ServiceMode)
    (signal : Signal) (fits : Outgoing)
    (stays : (c.subscribeService codec target serviceId mode signal
      fits).1.lifecycle.connection? = some conn) :
    Tracked serverId none conn
      (c.subscribeService codec target serviceId mode signal fits).1
      (link.queue (World.sentOn
        (c.subscribeService codec target serviceId mode signal fits).2 conn)) := by
  unfold Client.subscribeService at stays ⊢
  dsimp only at stays ⊢
  have requests := requests_of_stays target
    (.subscribe (c.serviceSubscriptionSequence + 1) serviceId mode) signal
    (some (c.serviceSubscriptionSequence + 1)) fits stays
  generalize (c.listen codec target).request target
    (.subscribe (c.serviceSubscriptionSequence + 1) serviceId mode) signal
    (some (c.serviceSubscriptionSequence + 1)) fits = result at requests
  cases requests with
  | refused error why => exact (tracked.listen codec paired target error).queued
  | dropped lifecycle long =>
    have same : Client.SameRequests c ((c.listen codec target).withSubscribing
        (c.serviceSubscriptionSequence + 1) (some (.error .disposed))) :=
      ⟨⟨rfl, rfl, rfl, rfl⟩, rfl, rfl, rfl, rfl⟩
    have listened := tracked.listen codec paired target .disposed
    have dropped : Tracked serverId none conn
        (((c.listen codec target).dropRequest
          (newRequest target (some (c.serviceSubscriptionSequence + 1)) signal)).withSubscribing
            (c.serviceSubscriptionSequence + 1) (some (.error .disposed))) link :=
      listened.drop (same.sound sound) (paired.listen codec target .disposed)
        (newRequest target (some (c.serviceSubscriptionSequence + 1)) signal)
    have absent := (congrFun (pendingRequests_dropRequest (same.sound sound)
      (newRequest target (some (c.serviceSubscriptionSequence + 1)) signal))
      (c.requestSequence + 1)).trans (same.sound sound).unissued_pending
    have fresh : (c.listen codec target).promises
        ((c.listen codec target).requestSequence + 1) = none :=
      sound.unissued (c.requestSequence + 1) (Nat.lt_succ_self _)
    have settled := promises_dropRequest_next
      (newRequest target (some (c.serviceSubscriptionSequence + 1)) signal) fresh
    exact (Tracked.promised dropped absent settled).queued
  | sent lifecycle sends =>
    dsimp only
    rw [sentOn_own]
    exact tracked.subscribe codec sound paired once awaited target serviceId mode rfl rfl

theorem Tracked.disposeSubscription (homed : w.client.Homed serverId)
    (paired : w.client.Paired) (sound : w.client.Sound) (on : w.On conn)
    (tracked : Tracked serverId none conn w.client (w.links conn))
    {sub : Nat} {subscription : ServiceSubscription S}
    {active : ActiveServiceListener U V D}
    (obtained : w.client.subscriptions sub = some subscription)
    (isActive : w.client.active sub = some active) (fits : Outgoing)
    (ok : w.Tidy codec (.client (.disposeSubscription sub fits)))
    (stays : (w.client.disposeSubscription sub subscription active
      fits).1.lifecycle.connection? = some conn) :
    Tracked serverId none conn
      (w.client.disposeSubscription sub subscription active fits).1
      ((w.links conn).queue (World.sentOn
        (w.client.disposeSubscription sub subscription active fits).2
        conn)) := by
  have closed := tracked.close paired obtained active
  have idle := (paired.obtained sub (by rw [obtained]; rfl)).1
  -- A subscription that is held has a listener on this connection, or is released already.
  have listens : (w.links conn).holds sub = true →
      (w.client.lifecycle = .connected conn ∧
        w.client.targetIsCurrent active.target = true ∧ fits ≠ .tooLong) ∨
      ∃ id target, (w.links conn).Asks id target (.unsubscribe sub) ∧
        target.serverId = serverId := by
    intro isHeld
    obtain ⟨reaches, short⟩ := ok conn active on isActive isHeld
    refine (tracked.held sub (by simp) isHeld).imp_left fun listening => ?_
    have connected := (paired.here sub active listening isActive (by rw [idle]; simp)).1
    obtain ⟨own, lifecycle⟩ := lifecycle_of_connected connected
    have current := on.current
    rw [World.Current, lifecycle] at current
    cases current
    exact ⟨lifecycle, reaches, short⟩
  unfold Client.disposeSubscription at stays ⊢
  dsimp only at stays ⊢
  have known : sub ≤ w.client.serviceSubscriptionSequence := by
    by_contra later
    have none := (paired.bound sub (Nat.not_le.mp later)).2.2.2
    rw [obtained] at none
    cases none
  have same : Client.SameRequests w.client
      (w.client.closeSubscription sub subscription active) :=
    ⟨⟨rfl, rfl, rfl, rfl⟩, rfl, rfl, rfl, rfl⟩
  split_ifs at stays ⊢ with reaches
  · obtain ⟨connected, targeted⟩ := Bool.and_eq_true_iff.mp reaches
    refine closed.request (same.sound sound) (paired.close obtained isActive) active.target .absent
      fits stays (fun _ _ _ absurd => nomatch absurd) ?_ ?_ ?_
    · intro other call
      cases call
      exact ⟨(listeners_closeSubscription _ _ _ _ _).trans (if_pos rfl), idle, known⟩
    · intro other leaves
      cases leaves
      exact ⟨rfl, homed.serverId_of_current targeted⟩
    · intro why
      refine closed.left fun isHeld => ?_
      rcases listens isHeld with ⟨lifecycle, -, short⟩ | asks
      · rcases why with disposed | apart | aborted | long
        · have apart := homed.disposed disposed
          rw [lifecycle] at apart
          cases apart
        · change w.client.connected = false at apart
          rw [connected] at apart
          cases apart
        · cases aborted
        · exact absurd long short
      · exact asks
  · refine (closed.left fun isHeld => ?_).queued
    rcases listens isHeld with ⟨lifecycle, current, -⟩ | asks
    · exact absurd (by rw [connected, lifecycle, current]; rfl) reaches
    · exact asks

theorem Tracked.resume
    (tracked : Tracked serverId none conn c link) {sub : Nat}
    (outcome : Outcome S)
    (done : ∀ id, c.subscribing sub = some (.ok id) → c.promises id ≠ none)
    (free : (∀ snapshot, outcome ≠ .resolved (some snapshot)) → link.holds sub = false)
    (granted : ∀ snapshot, outcome = .resolved (some snapshot) →
      c.serviceListeners sub = true → link.holds sub = true) :
    Tracked serverId none conn (c.resume sub outcome) link := by
  have ended : (∀ snapshot, outcome ≠ .resolved (some snapshot)) →
      Tracked serverId none conn ((c.withSubscribing sub none).stopListening sub) link := by
    intro refused
    refine tracked.resumed done rfl rfl rfl (subscribing_withSubscribing _ _ _)
      (fun other => ?_) (fun other isSome => .inl isSome) rfl rfl
    by_cases same : other = sub
    · refine .inr ⟨same, ?_, same ▸ free refused⟩
      rw [same]
      exact Function.update_self _ _ _
    · exact .inl (Function.update_of_ne same _ _)
  unfold Client.resume
  dsimp only
  split
  · rename_i snapshot
    split_ifs with listening
    · refine tracked.resumed done rfl rfl rfl (subscribing_withSubscribing _ _ _)
        (fun other => .inl rfl) (fun other isSome => ?_) rfl rfl
      by_cases same : other = sub
      · exact .inr fun _ => same ▸ granted snapshot rfl listening
      · refine .inl ?_
        rw [← isSome]
        exact congrArg Option.isSome (Function.update_of_ne same _ _).symm
    · exact tracked.resumed done rfl rfl rfl (subscribing_withSubscribing _ _ _)
        (fun other => .inl rfl) (fun other isSome => .inl isSome) rfl rfl
  · rename_i refused
    exact ended refused

theorem Tracked.client (ordered : w.Ordered serverId) (on : w.On conn)
    (stays : next.lifecycle.connection? = some conn) {ev : ClientEvent}
    (ok : w.Tidy codec (.client ev)) (taken : w.client.step codec serverId ev = some (next, out))
    (tracked : Tracked serverId none conn w.client (w.links conn)) :
    Tracked serverId none conn next ((w.links conn).queue (World.sentOn out conn)) := by
  obtain ⟨⟨based, onces⟩, homed⟩ := ordered
  have sound := based.accounted.sound
  have paired := based.paired
  have expected := based.accounted.expected conn on.current
  have alive : (w.links conn).stage ≠ .closed := by
    intro closed
    have isOpen := on.isOpen
    rw [Link.isOpen, closed] at isOpen
    cases isOpen
  have once := onces conn on.current alive
  have quiet : ∀ {after : Client S U W V D},
      Tracked serverId none conn after (w.links conn) →
      Tracked serverId none conn after ((w.links conn).queue (World.sentOn none conn)) := by
    intro after holds
    rw [sentOn_none, Link.queue_nil]
    exact holds
  cases ev with
  | connect =>
    rw [step] at taken
    split_ifs at taken with disposed elsewhere
    · cases taken
      exact quiet (tracked.quiet rfl rfl ⟨rfl, rfl, fun _ => rfl, rfl⟩ fun _ mem => mem)
    · have apart := not_not.mp elsewhere
      have current := on.current
      rw [World.Current, apart] at current
      cases current
  | disconnect reason =>
    cases taken
    exact absurd stays (fail_apart _ _ _)
  | dispose =>
    rw [step] at taken
    split_ifs at taken
    cases taken
    unfold dispose at stays
    exact absurd stays (fail_apart _ _ _)
  | request target call signal result =>
    obtain ⟨serviceId, mem, rfl⟩ := ok
    obtain ⟨rfl, rfl⟩ := mk.inj (some.inj taken)
    exact tracked.request sound paired target signal result stays
      (fun _ _ _ absurd => by cases absurd) (fun _ absurd => by cases absurd)
      (fun _ absurd => by cases absurd) fun _ => tracked
  | subscribeService target serviceId mode signal result =>
    cases taken
    exact tracked.subscribeService sound paired once
      (fun id result arrived => (arrived_pending expected arrived).1) target serviceId mode signal
      result stays
  | abort id result =>
    rw [step] at taken
    split at taken
    · cases taken
    · rename_i pending isPending
      split_ifs at taken
      have connected := sound.connected id (by rw [isPending]; rfl)
      have same := some.inj taken
      have left : ((w.client.abort id pending result).1).lifecycle.connection? = some conn := by
        rw [same]
        exact stays
      obtain ⟨sends, sent⟩ := send_of_stays
        (show ((w.client.markAborted id pending).settle id
          (.rejected .aborted)).connected = true from connected) left
      obtain ⟨rfl, rfl⟩ := mk.inj (same.symm.trans sent)
      rw [sentOn_own]
      have marked := tracked.abort isPending fun sub own =>
        ok sends conn pending sub on isPending own
      exact marked.mono rfl rfl ⟨rfl, rfl, fun _ => rfl, rfl⟩
        (asks_queue_silent fun _ _ _ mem => by cases List.mem_singleton.mp mem)
        (fun _ _ mem => mem) fun _ => rfl
  | resume sub =>
    rw [step] at taken
    split at taken
    · cases taken
    · rename_i error waits
      cases taken
      refine (tracked.resume (.rejected error) (fun id sent => ?_) (fun _ => ?_)
        fun _ absurd => by cases absurd).queued
      · rw [waits] at sent
        cases sent
      · exact tracked.failed error sub waits
    · rename_i id waits
      obtain ⟨outcome, settled, same⟩ := map_eq_some_iff.mp taken
      cases same
      refine (tracked.resume outcome (fun other sent => ?_) (fun refused => ?_)
        fun snapshot granted => ?_).queued
      · rw [waits] at sent
        cases sent
        rw [settled]
        simp
      · cases outcome with
        | rejected error => exact tracked.rejected id error sub waits settled
        | resolved result =>
          cases result with
          | none => exact (tracked.resolved id none sub waits settled).2 rfl
          | some snapshot => exact absurd rfl (refused snapshot)
      · rw [granted] at settled
        exact (tracked.resolved id (some snapshot) sub waits settled).1
  | start sub =>
    rw [step] at taken
    split at taken
    · split_ifs at taken
      cases taken
      exact quiet (tracked.quiet rfl rfl ⟨rfl, rfl, fun _ => rfl, rfl⟩ fun _ mem => mem)
    · cases taken
  | disposeSubscription sub result =>
    rw [step] at taken
    split at taken
    · rename_i subscription active obtained isActive
      split_ifs at taken
      obtain ⟨rfl, rfl⟩ := mk.inj (some.inj taken)
      exact tracked.disposeSubscription homed paired sound on obtained isActive result ok stays
    · cases taken
  | deliver sub =>
    rw [step] at taken
    split at taken
    · cases taken
    · split at taken
      · cases taken
      · cases taken
        exact quiet (tracked.quiet rfl rfl ⟨rfl, rfl, fun _ => rfl, rfl⟩ fun _ mem => mem)
  | opened =>
    rw [step] at taken
    split at taken
    · rename_i id lifecycle idle
      cases taken
      have current := on.current
      rw [World.Current, lifecycle] at current
      cases current
      rw [sentOn_own]
      exact tracked.mono rfl rfl ⟨rfl, rfl, fun _ => rfl, rfl⟩
        (asks_queue_silent fun _ _ _ mem => by cases List.mem_singleton.mp mem)
        (fun _ _ mem => mem) fun _ => rfl
    · cases taken
  | lost reason =>
    rw [step] at taken
    split at taken
    · cases taken
      exact absurd stays (fail_apart _ _ _)
    · cases taken
  | handle =>
    obtain ⟨handled, same, pair⟩ := map_eq_some_iff.mp taken
    cases pair
    obtain ⟨m, later, waiting, takes⟩ := takes_handle codec serverId same stays
    exact quiet (tracked.takes sound on.current expected waiting takes)

end

end Trpi.Remote
