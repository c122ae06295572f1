import Trpi.Remote.ServerSteps
import Trpi.Remote.Subscriptions

/-!
# Requests are dispatched once

A request that a server has taken up is not waiting for it any more: ids are given once, and each
is sent once.
-/

namespace Trpi.Remote

variable {S U W V E D : Type}

namespace Client

variable {c next : Client S U W V D} {codec : StateCodec S U W V E D} {serverId : String}

theorem requestSequence_send (m : ClientMessage) (out : Outgoing) :
    (c.send m out).1.requestSequence = c.requestSequence := by
  unfold send
  split
  · split
    · rfl
    · exact requestSequence_fail _
    · exact requestSequence_fail _
  · rfl

theorem sent_of_send {m : ClientMessage} {out : Outgoing} {conn : Nat}
    {sent : ClientMessage} (goes : (c.send m out).2 = some (conn, sent)) : sent = m := by
  unfold send at goes
  split at goes
  · split at goes
    · cases goes
      rfl
    · cases goes
    · cases goes
  · cases goes

structure Numbers (c : Client S U W V D)
    (result : Client S U W V D × Option (Nat × ClientMessage)) : Prop where
  grows : c.requestSequence ≤ result.1.requestSequence
  next : ∀ connectionId id target call,
    result.2 = some (connectionId, .request id target call) →
    id = c.requestSequence + 1 ∧ id ≤ result.1.requestSequence

theorem numbers_quiet (grows : c.requestSequence ≤ next.requestSequence) :
    c.Numbers (next, none) where
  grows := grows
  next _ _ _ _ absurd := nomatch absurd

theorem numbers_request (c : Client S U W V D) (target : RpcTarget) (call : ServiceCall)
    (signal : Signal) (sub : Option Nat) (out : Outgoing) :
    c.Numbers (c.request target call signal sub out).1 := by
  unfold request
  split_ifs
  · exact numbers_quiet (Nat.le_refl _)
  · exact numbers_quiet (Nat.le_refl _)
  · exact numbers_quiet (Nat.le_refl _)
  · dsimp only
    split
    · exact numbers_quiet (Nat.le_succ _)
    · constructor
      · rw [requestSequence_send]
        exact Nat.le_succ _
      · intro conn id other otherCall goes
        have same := sent_of_send goes
        cases same
        rw [requestSequence_send]
        exact ⟨rfl, Nat.le_refl _⟩

theorem requestSequence_handle
    (taken : c.handle codec serverId = some next) : next.requestSequence = c.requestSequence := by
  unfold handle at taken
  split at taken
  · cases taken
  · split_ifs at taken
    · cases taken
      rfl
    · cases taken
      unfold handleMessage
      split
      · rfl
      · split
        · exact requestSequence_fail _
        · split_ifs
          · exact requestSequence_fail _
          · exact requestSequence_fail _
          · rfl
        · exact requestSequence_fail _
      · split
        · exact requestSequence_fail _
        · exact requestSequence_fail _
        · unfold handleEnvelope
          split
          · split_ifs
            · exact requestSequence_fail _
            · rfl
          · unfold handleUpdate
            split
            · split_ifs
              · rfl
              · split
                · exact requestSequence_fail _
                · rfl
            · rfl
          · split
            · exact requestSequence_fail _
            · split
              · rfl
              · unfold resolveRequest
                split
                · rfl
                · split
                  · split
                    · exact requestSequence_fail _
                    · rfl
                  · exact requestSequence_fail _
          · rfl

theorem numbers_step {ev : ClientEvent} {result : Client S U W V D × Option (Nat × ClientMessage)}
    (taken : c.step codec serverId ev = some result) : c.Numbers result := by
  have failed : ∀ error, c.Numbers (c.fail error, none) := fun error =>
    numbers_quiet (Nat.le_of_eq (requestSequence_fail error).symm)
  cases ev with
  | connect =>
    rw [step] at taken
    split_ifs at taken
    · cases taken
      exact numbers_quiet (Nat.le_refl _)
    · cases taken
      exact numbers_quiet (Nat.le_refl _)
  | disconnect reason =>
    cases taken
    exact failed _
  | dispose =>
    rw [step] at taken
    split_ifs at taken
    cases taken
    refine numbers_quiet (Nat.le_of_eq ?_)
    unfold dispose
    dsimp only
    rw [requestSequence_fail]
    rfl
  | request target call signal out =>
    cases taken
    exact numbers_request c target call signal none out
  | subscribeService target serviceId mode signal out =>
    cases taken
    have numbers := numbers_request (c.listen codec target) target
      (.subscribe (c.serviceSubscriptionSequence + 1) serviceId mode) signal
      (some (c.serviceSubscriptionSequence + 1)) out
    exact ⟨numbers.grows, numbers.next⟩
  | abort id out =>
    rw [step] at taken
    split at taken
    · cases taken
    · rename_i pending isPending
      split_ifs at taken
      cases taken
      constructor
      · unfold abort
        rw [requestSequence_send]
        exact Nat.le_refl _
      · intro conn other target call goes
        have same := sent_of_send goes
        cases same
  | resume sub =>
    have resumed : ∀ outcome, c.Numbers (c.resume sub outcome, none) := by
      intro outcome
      refine numbers_quiet ?_
      unfold resume
      dsimp only
      split
      · split_ifs
        · exact Nat.le_refl _
        · exact Nat.le_refl _
      · exact Nat.le_refl _
    rw [step] at taken
    split at taken
    · cases taken
    · rename_i error _
      cases taken
      exact resumed (.rejected error)
    · obtain ⟨outcome, -, same⟩ := Option.map_eq_some_iff.mp taken
      cases same
      exact resumed outcome
  | start sub =>
    rw [step] at taken
    split at taken
    · split_ifs at taken
      cases taken
      exact numbers_quiet (Nat.le_refl _)
    · cases taken
  | disposeSubscription sub out =>
    rw [step] at taken
    split at taken
    · rename_i subscription active _ _
      split_ifs at taken
      cases taken
      unfold disposeSubscription
      dsimp only
      split_ifs
      · have numbers := numbers_request
          (c.closeSubscription sub subscription active) active.target
          (.unsubscribe sub) .absent none out
        exact ⟨numbers.grows, numbers.next⟩
      · exact numbers_quiet (Nat.le_refl _)
    · cases taken
  | deliver sub =>
    rw [step] at taken
    split at taken
    · cases taken
    · split at taken
      · cases taken
      · cases taken
        exact numbers_quiet (Nat.le_refl _)
  | opened =>
    rw [step] at taken
    split at taken
    · cases taken
      exact ⟨Nat.le_refl _, fun _ _ _ _ absurd => by cases absurd⟩
    · cases taken
  | lost reason =>
    rw [step] at taken
    split at taken
    · cases taken
      exact failed _
    · cases taken
  | handle =>
    obtain ⟨handled, same, pair⟩ := Option.map_eq_some_iff.mp taken
    cases pair
    exact numbers_quiet (Nat.le_of_eq (requestSequence_handle same).symm)

end Client

namespace Link

variable {codec : StateCodec S U W V E D} {serverId : String} {link next : Link S U W V E}
  {ev : ServerEvent S U}

/-- The server has taken a request up. -/
def Dispatched (link : Link S U W V E) (id : Nat) : Prop :=
  (link.activeRequests id).isSome ∨ (link.publishers id).isSome

theorem alive_of_serves (serves : Serves codec serverId link ev next)
    (alive : next.stage ≠ .closed) : link.stage ≠ .closed := by
  intro closed
  cases serves with
  | hushed same => exact alive (same.closed closed)
  | repeated id target call taken busy => exact alive (taken.stage.trans closed)
  | refused id target call error taken free why => exact alive (taken.stage.trans closed)
  | accepted id target call taken free here plain => exact alive (taken.stage.trans closed)
  | subscribing id target sub serviceId mode taken free here vacant =>
    exact alive (taken.stage.trans closed)
  | failed | replied | unsubscribed | installed | ended | drained | skipped | forwarded | held
  | unheard | lost | published => exact alive closed

theorem dispatched_of_serves (serves : Serves codec serverId link ev next) :
    (∀ m ∈ next.waiting, m ∈ link.waiting) ∧
    ∀ id, next.Dispatched id → link.Dispatched id ∨ ∃ rest target call,
      link.Without rest (.request id target call) ∧ next.waiting = rest.waiting := by
  have kept : ∀ (after : Link S U W V E), after.waiting = link.waiting →
      (∀ id, (after.activeRequests id).isSome → (link.activeRequests id).isSome) →
      (∀ id, (after.publishers id).isSome → (link.publishers id).isSome) →
      (∀ m ∈ after.waiting, m ∈ link.waiting) ∧
      ∀ id, after.Dispatched id → link.Dispatched id ∨ ∃ rest target call,
        link.Without rest (.request id target call) ∧ after.waiting = rest.waiting := by
    intro after same handlers publishers
    exact ⟨fun m mem => same ▸ mem, fun id dispatched =>
      .inl (dispatched.imp (handlers id) (publishers id))⟩
  have taken : ∀ (rest after : Link S U W V E) id target call,
      link.Without rest (.request id target call) → after.waiting = rest.waiting →
      (∀ other, other ≠ id → (after.activeRequests other).isSome →
        (link.activeRequests other).isSome) →
      (∀ other, other ≠ id → (after.publishers other).isSome → (link.publishers other).isSome) →
      (∀ m ∈ after.waiting, m ∈ link.waiting) ∧
      ∀ id, after.Dispatched id → link.Dispatched id ∨ ∃ rest target call,
        link.Without rest (.request id target call) ∧ after.waiting = rest.waiting := by
    intro rest after id target call without same handlers publishers
    refine ⟨fun m mem => without.fewer m (same ▸ mem), fun other dispatched => ?_⟩
    by_cases own : other = id
    · exact .inr ⟨rest, target, call, own ▸ without, same⟩
    · exact .inl (dispatched.imp (handlers other own) (publishers other own))
  cases serves with
  | hushed same =>
    refine ⟨same.fewer, fun id dispatched => .inl (dispatched.imp (fun active => ?_) fun some => ?_)⟩
    · have keys := congrArg Option.isSome (same.handlers id)
      rw [Option.isSome_map, Option.isSome_map] at keys
      rw [← keys]
      exact active
    · rw [← same.publishers]
      exact some
  | repeated id target call without busy =>
    refine taken _ _ id target call without rfl (fun other _ => ?_) fun other _ => ?_
    · rw [activeRequests_put, without.handlers]
      exact fun some => some
    · rw [publishers_put, without.publishers]
      exact fun some => some
  | refused id target call error without free why =>
    refine taken _ _ id target call without rfl (fun other apart => ?_) fun other _ => ?_
    · simp [failing, apart, without.handlers]
    · simp [failing, without.publishers]
  | accepted id target call without free here plain =>
    refine taken _ _ id target call without rfl (fun other apart => ?_) fun other _ => ?_
    · simp [apart, without.handlers]
    · simp [without.publishers]
  | subscribing id target sub serviceId mode without free here vacant =>
    refine taken _ _ id target _ without rfl (fun other apart => ?_) fun other apart => ?_
    · simp [apart, without.handlers]
    · simp [apart, without.publishers]
  | failed id handler result error active invoking why =>
    refine kept _ rfl (fun other => ?_) fun other some => some
    by_cases same : other = id
    · simp [same, active]
    · simp [failing, same]
  | replied id handler result reply active invoking bare plain =>
    refine kept _ rfl (fun other => ?_) fun other some => some
    by_cases same : other = id
    · simp [same, active]
    · simp [responding, same]
  | unsubscribed id handler result reply sub active invoking bare call =>
    refine kept _ rfl (fun other => ?_) fun other some => some
    by_cases same : other = id
    · simp [same, active]
    · simp [responding, same]
  | installed id handler sub serviceId mode snapshot encoder wire active invoking call
      encoded =>
    refine kept _ rfl (fun other => ?_) fun other => ?_
    · by_cases same : other = id
      · simp [same, active]
      · simp [responding, same]
    · by_cases same : other = id
      · simp [responding, same]
      · simp [responding, same]
  | ended id handler fits active answered why =>
    refine kept _ rfl (fun other => ?_) fun other some => some
    by_cases same : other = id
    · simp [same]
    · simp [same]
  | drained id handler publisher fits active answered going publishes empty =>
    refine kept _ rfl (fun other => ?_) fun other => ?_
    · by_cases same : other = id
      · simp [same]
      · simp [same]
    · by_cases same : other = id
      · simp [same, publishes]
      · simp [same]
  | skipped id handler publisher fits update later active answered going publishes held vacant =>
    refine kept _ rfl (fun other => ?_) fun other => ?_
    · by_cases same : other = id
      · simp [same, active]
      · simp [shift, same]
    · by_cases same : other = id
      · simp [same, publishes]
      · simp [shift, same]
  | forwarded id handler publisher update later encoder after wire active answered going publishes
      held installed encoded =>
    refine kept _ rfl (fun other => ?_) fun other => ?_
    · by_cases same : other = id
      · simp [same, active]
      · simp [shift, same]
    · by_cases same : other = id
      · simp [same, publishes]
      · simp [shift, same]
  | held id publisher update fits publishes early =>
    refine kept _ rfl (fun other some => some) fun other => ?_
    by_cases same : other = id
    · simp [same, publishes]
    · simp [same]
  | unheard id publisher update fits publishes ready vacant =>
    refine kept _ rfl (fun other some => some) fun other => ?_
    by_cases same : other = id
    · simp [same, publishes]
    · simp [same]
  | lost id publisher update fits encoder after m publishes ready installed refused =>
    refine kept _ rfl (fun other some => some) fun other => ?_
    by_cases same : other = id
    · simp [same, publishes]
    · simp [same]
  | published id publisher update encoder after wire publishes ready installed encoded =>
    refine kept _ rfl (fun other some => some) fun other => ?_
    by_cases same : other = id
    · simp [same, publishes]
    · simp [same]

theorem waiting_queue (link : Link S U W V E) (messages : List ClientMessage) :
    (link.queue messages).waiting = link.waiting ++ messages := by
  rw [waiting, waiting, queue, List.append_assoc]

/-- Requests that are dispatched were issued, and wait no longer. -/
structure Once (link : Link S U W V E) (c : Client S U W V D) : Prop where
  issued : ∀ id, link.Dispatched id → id ≤ c.requestSequence
  sent : ∀ id target call, .request id target call ∈ link.waiting → id ≤ c.requestSequence
  gone : ∀ id target call, link.Dispatched id → .request id target call ∉ link.waiting

theorem requestCount_waiting (link : Link S U W V E) (id : Nat) :
    requestCount id link.waiting = requestCount id link.toServer + requestCount id link.deferred := by
  rw [waiting, requestCount_append, Nat.add_comm]

theorem requestCount_pos {messages : List ClientMessage} {id : Nat} {target : RpcTarget}
    {call : ServiceCall} (mem : .request id target call ∈ messages) :
    0 < requestCount id messages :=
  List.countP_pos_iff.mpr ⟨_, mem, by simp [ClientMessage.isRequest]⟩

end Link

/-- What is known of every reached world, and that requests are dispatched once. -/
def World.Orderly (w : World S U W V E D) : Prop :=
  w.Based ∧ ∀ connectionId, w.Current connectionId →
    (w.links connectionId).stage ≠ .closed → (w.links connectionId).Once w.client

section

variable (codec : StateCodec S U W V E D) (serverId : String)
  (allowed : World S U W V E D → Event S U → Prop)

theorem follows_once :
    Follows codec serverId allowed World.Based fun _ client link =>
      link.stage ≠ .closed → link.Once client where
  opens w conn based opening untouched alive := by
    have nothing : ∀ id, ¬(w.links conn).Dispatched id := by
      rintro id (active | publishes)
      · rw [untouched.activeRequests] at active
        cases active
      · rw [untouched.publishers] at publishes
        cases publishes
    have silent : (w.links conn).waiting = [] := by
      rw [Link.waiting, untouched.deferred, untouched.toServer]
      rfl
    refine ⟨fun id dispatched => absurd dispatched (nothing id), fun id target call mem => ?_,
      fun id _ _ dispatched => absurd dispatched (nothing id)⟩
    rw [silent] at mem
    cases mem
  client w ev next out conn based after current stays ok taken holds alive := by
    have once := holds alive
    have numbers := Client.numbers_step taken
    have sent : ∀ id target call,
        .request id target call ∈ World.sentOn out conn →
        id = w.client.requestSequence + 1 ∧ id ≤ next.requestSequence := by
      intro id target call mem
      rcases out with _ | ⟨receiver, m⟩
      · cases mem
      · rw [World.sentOn] at mem
        split_ifs at mem
        · rw [← List.mem_singleton.mp mem] at numbers
          exact numbers.next receiver id target call rfl
        · cases mem
    constructor
    · exact fun id dispatched => Nat.le_trans (once.issued id dispatched) numbers.grows
    · intro id target call mem
      rw [Link.waiting_queue] at mem
      rcases List.mem_append.mp mem with old | new
      · exact Nat.le_trans (once.sent id target call old) numbers.grows
      · exact (sent id target call new).2
    · intro id target call dispatched mem
      rw [Link.waiting_queue] at mem
      rcases List.mem_append.mp mem with old | new
      · exact once.gone id target call dispatched old
      · have issued := once.issued id dispatched
        have fresh := (sent id target call new).1
        omega
  data w conn count based current idle holds alive := by
    have once := holds alive
    exact ⟨once.issued, once.sent, once.gone⟩
  server w ev link conn based after current ok taken holds alive := by
    have serves := Link.serves_of_step taken alive
    have once := holds (Link.alive_of_serves serves alive)
    obtain ⟨fewer, dispatched⟩ := Link.dispatched_of_serves serves
    have expected := based.accounted.expected conn current
    have bound : ∀ id, requestCount id (w.links conn).waiting ≤ 1 := by
      intro id
      have le := expected id
      have one := w.client.pendingCount_le_one id
      rw [Link.underway] at le
      rw [Link.requestCount_waiting]
      omega
    constructor
    · intro id now
      rcases dispatched id now with before | ⟨rest, target, call, without, -⟩
      · exact once.issued id before
      · obtain ⟨front, back, waiting, -⟩ := without.waiting
        exact once.sent id target call (by rw [waiting]; simp)
    · exact fun id target call mem => once.sent id target call (fewer _ mem)
    · intro id target call now mem
      rcases dispatched id now with before | ⟨rest, other, otherCall, without, same⟩
      · exact once.gone id target call before (fewer _ mem)
      · -- It would have been sent twice.
        obtain ⟨front, back, waiting, left⟩ := without.waiting
        have twice := bound id
        rw [same, left] at mem
        have more := Link.requestCount_pos mem
        rw [waiting, requestCount_append, requestCount_cons] at twice
        rw [requestCount_append] at more
        simp only [ClientMessage.isRequest, decide_true, if_true] at twice
        omega

theorem inductive_orderly :
    (remoteMachine codec serverId).Inductive allowed World.Orderly :=
  (follows_once codec serverId allowed).inductive_ (fun _ based => based.toGrounded)
    (inductive_based codec serverId allowed)

end

/-- On an open connection a pending request is in one place: on its way, with the host, or in a
response on its way. Nothing else is under way, and what was taken up does not wait again. -/
theorem pending_underway (codec : StateCodec S U W V E D) (serverId : String)
    {w : World S U W V E D}
    (reached : (remoteMachine codec serverId).Reached (fun _ _ => True) w) {conn : Nat}
    (current : w.Current conn) (isOpen : (w.links conn).isOpen = true) (id : Nat) :
    (w.links conn).underway id + w.client.inChunk conn id =
      (if (w.client.pendingRequests id).isSome then 1 else 0) ∧
    ((w.links conn).Dispatched id →
      ∀ target call, .request id target call ∉ (w.links conn).waiting) := by
  obtain ⟨based, once⟩ := (inductive_orderly codec serverId _).reached reached
  constructor
  · rw [based.accounted.awaited conn current isOpen id]
    split_ifs with pending
    · exact Client.pendingCount_of_isSome pending
    · exact Client.pendingCount_of_not_isSome pending
  · have alive : (w.links conn).stage ≠ .closed := by
      intro closed
      simp [Link.isOpen, closed] at isOpen
    exact fun dispatched target call => (once conn current alive).gone id target call dispatched

theorem pending_underway_sample : ∃ w : World Nat Nat Nat Nat Unit Unit,
    (w.links 1).underway 1 + w.client.inChunk 1 1 = 1 := by
  have ran : ((remoteMachine (.plain : StateCodec Nat Nat Nat Nat Unit Unit) "home").exec
      (fun _ _ => True) .create (handshake 1 ++ [
        .client (.request homeTarget (.other "files" "read") .live .sent)])).map (fun w =>
        (w.client.lifecycle.connection?, (w.links 1).isOpen, (w.client.pendingRequests 1).isSome)) =
      some (some 1, true, true) := by decide
  obtain ⟨w, last, held⟩ := Option.map_eq_some_iff.mp ran
  simp only [Prod.mk.injEq] at held
  obtain ⟨current, isOpen, pending⟩ := held
  have reached := (Library.Machine.Reached.start rfl).exec last
  exact ⟨w, (pending_underway .plain "home" reached current isOpen 1).1.trans (if_pos pending)⟩

end Trpi.Remote
