import Trpi.Remote.Connection

/-!
# Subscriptions of a client

Each subscription has one request, of the connection it was made on. Its listener is there while
`subscribeService` waits, and afterwards only on that connection.
-/

namespace Trpi.Remote

open Function Option
open Library (Machine)
open Trpi.Chord.Services (ServiceMode)

variable {S U W V E D : Type}

namespace Client

structure Paired (c : Client S U W V D) : Prop where
  bound : ∀ sub, c.serviceSubscriptionSequence < sub →
    c.serviceListeners sub = false ∧ c.subscribing sub = none ∧
    c.active sub = none ∧ c.subscriptions sub = none
  pending : ∀ id pending sub, c.pendingRequests id = some pending →
    pending.subscriptionId = some sub → ∃ active,
      c.active sub = some active ∧ active.requestId = id ∧
      active.connectionId = c.connectionSequence
  subscribing : ∀ sub id, c.subscribing sub = some (.ok id) →
    ∃ active, c.active sub = some active ∧ active.requestId = id ∧ id ≤ c.requestSequence
  listening : ∀ sub, c.serviceListeners sub = true →
    (c.subscribing sub).isSome ∨ (c.subscriptions sub).isSome
  obtained : ∀ sub, (c.subscriptions sub).isSome → c.subscribing sub = none ∧ (c.active sub).isSome
  here : ∀ sub active, c.serviceListeners sub = true →
    c.active sub = some active →
    (∀ error, c.subscribing sub ≠ some (.error error)) →
    c.connected = true ∧ active.connectionId = c.connectionSequence

section

variable {c next : Client S U W V D}

theorem paired_create : (create : Client S U W V D).Paired where
  bound _ _ := ⟨rfl, rfl, rfl, rfl⟩
  pending _ _ _ absurd := nomatch absurd
  subscribing _ _ absurd := nomatch absurd
  listening _ absurd := nomatch absurd
  obtained _ absurd := nomatch absurd
  here _ _ absurd := nomatch absurd

/-- What subscriptions are about, the decoders and queues of their listeners aside. -/
structure SameSubscriptions (c next : Client S U W V D) : Prop where
  sequence : next.serviceSubscriptionSequence = c.serviceSubscriptionSequence
  requestSequence : next.requestSequence = c.requestSequence
  connectionSequence : next.connectionSequence = c.connectionSequence
  connected : c.connected = true → next.connected = true
  listeners : next.serviceListeners = c.serviceListeners
  subscribing : next.subscribing = c.subscribing
  subscriptions : next.subscriptions = c.subscriptions
  active : next.active = c.active
  pending : ∀ id pending, next.pendingRequests id = some pending → ∃ former,
    c.pendingRequests id = some former ∧ former.subscriptionId = pending.subscriptionId

theorem Paired.same (paired : c.Paired) (same : c.SameSubscriptions next) : next.Paired where
  bound := by
    rw [same.sequence, same.listeners, same.subscribing, same.active, same.subscriptions]
    exact paired.bound
  pending id pending sub isPending own := by
    obtain ⟨former, was, kept⟩ := same.pending id pending isPending
    rw [same.active, same.connectionSequence]
    exact paired.pending id former sub was (kept.trans own)
  subscribing := by
    rw [same.subscribing, same.active, same.requestSequence]
    exact paired.subscribing
  listening := by
    rw [same.listeners, same.subscribing, same.subscriptions]
    exact paired.listening
  obtained := by
    rw [same.subscriptions, same.subscribing, same.active]
    exact paired.obtained
  here := by
    rw [same.listeners, same.active, same.subscribing, same.connectionSequence]
    intro sub active listening isActive sent
    obtain ⟨connected, current⟩ := paired.here sub active listening isActive sent
    exact ⟨same.connected connected, current⟩

theorem sameSubscriptions_settle (c : Client S U W V D) (id : Nat) (outcome : Outcome S) :
    c.SameSubscriptions (c.settle id outcome) :=
  ⟨rfl, rfl, rfl, fun connected => connected, rfl, rfl, rfl, rfl,
    fun _ pending isPending => ⟨pending, isPending, rfl⟩⟩

theorem sameSubscriptions_take (c : Client S U W V D) (id : Nat) :
    c.SameSubscriptions (c.takePendingRequest id) := by
  refine ⟨rfl, rfl, rfl, fun connected => connected, rfl, rfl, rfl, rfl,
    fun other pending isPending => ⟨pending, ?_, rfl⟩⟩
  unfold takePendingRequest at isPending
  dsimp only at isPending
  rw [update_apply] at isPending
  split_ifs at isPending
  exact isPending

theorem sameSubscriptions_withChunk (c : Client S U W V D)
    (chunk : List (ServerMessage W V)) : c.SameSubscriptions (c.withChunk chunk) :=
  ⟨rfl, rfl, rfl, fun connected => connected, rfl, rfl, rfl, rfl,
    fun _ pending isPending => ⟨pending, isPending, rfl⟩⟩

variable {pending : PendingRequest} {sub : Nat} {active : ActiveServiceListener U V D}
  {codec : StateCodec S U W V E D}

theorem sameSubscriptions_markAborted {id : Nat} (isPending : c.pendingRequests id = some pending) :
    c.SameSubscriptions (c.markAborted id pending) := by
  refine ⟨rfl, rfl, rfl, fun connected => connected, rfl, rfl, rfl, rfl,
    fun other marked isMarked => ?_⟩
  unfold markAborted at isMarked
  dsimp only at isMarked
  rw [update_apply] at isMarked
  split_ifs at isMarked with same
  · cases isMarked
    exact ⟨pending, same ▸ isPending, rfl⟩
  · exact ⟨marked, isMarked, rfl⟩

/-- The listeners are gone with the connection. -/
theorem Paired.fail (paired : c.Paired) (error : ClientError) : (c.fail error).Paired := by
  unfold Client.fail
  split_ifs
  · exact paired
  · exact {
      bound := fun sub later => ⟨rfl, (paired.bound sub later).2⟩
      pending := fun _ _ _ absurd => nomatch absurd
      subscribing := paired.subscribing
      listening := fun _ absurd => nomatch absurd
      obtained := paired.obtained
      here := fun _ _ absurd => nomatch absurd }

theorem Paired.register (paired : c.Paired)
    (own : ∀ sub, pending.subscriptionId = some sub → ∃ active,
      c.active sub = some active ∧
      active.requestId = c.requestSequence + 1 ∧
      active.connectionId = c.connectionSequence) : (c.registerRequest pending).Paired where
  bound := paired.bound
  pending id other sub isPending same := by
    unfold registerRequest at isPending
    dsimp only at isPending
    rw [update_apply] at isPending
    split_ifs at isPending with new
    · cases isPending
      rw [new]
      exact own sub same
    · exact paired.pending id other sub isPending same
  subscribing sub id sent := by
    obtain ⟨active, isActive, same, issued⟩ := paired.subscribing sub id sent
    exact ⟨active, isActive, same, Nat.le_succ_of_le issued⟩
  listening := paired.listening
  obtained := paired.obtained
  here := paired.here

theorem Paired.setActive (paired : c.Paired) {later : ActiveServiceListener U V D}
    (isActive : c.active sub = some active) (request : later.requestId = active.requestId)
    (connection : later.connectionId = active.connectionId) : (c.setActive sub later).Paired where
  bound other bound := by
    obtain ⟨deaf, idle, absent, rest⟩ := paired.bound other bound
    refine ⟨deaf, idle, ?_, rest⟩
    unfold Client.setActive
    dsimp only
    rw [update_apply]
    split_ifs with same
    · rw [same, isActive] at absent
      cases absent
    · exact absent
  pending id pending other isPending own := by
    obtain ⟨former, was, id, same⟩ := paired.pending id pending other isPending own
    unfold Client.setActive
    dsimp only
    rw [update_apply]
    split_ifs with here
    · rw [here, isActive] at was
      cases was
      exact ⟨later, rfl, request.trans id, connection.trans same⟩
    · exact ⟨former, was, id, same⟩
  subscribing other id sent := by
    obtain ⟨former, was, same, issued⟩ := paired.subscribing other id sent
    unfold Client.setActive
    dsimp only
    rw [update_apply]
    split_ifs with here
    · rw [here, isActive] at was
      cases was
      exact ⟨later, rfl, request.trans same, issued⟩
    · exact ⟨former, was, same, issued⟩
  listening := paired.listening
  obtained other some := by
    obtain ⟨idle, isSome⟩ := paired.obtained other some
    refine ⟨idle, ?_⟩
    unfold Client.setActive
    dsimp only
    rw [update_apply]
    split_ifs
    · rfl
    · exact isSome
  here other former listening was sent := by
    unfold Client.setActive at was
    dsimp only at was
    rw [update_apply] at was
    split_ifs at was with here
    · cases was
      obtain ⟨connected, same⟩ := paired.here sub active (here ▸ listening) isActive (here ▸ sent)
      exact ⟨connected, connection.trans same⟩
    · exact paired.here other former listening was sent

theorem Paired.stopListening (paired : c.Paired) (sub : Nat) : (c.stopListening sub).Paired := by
  have deaf : ∀ other, (c.stopListening sub).serviceListeners other = true →
      c.serviceListeners other = true := by
    intro other listening
    unfold Client.stopListening at listening
    dsimp only at listening
    rw [update_apply] at listening
    split_ifs at listening
    exact listening
  refine { paired with bound := ?_, listening := ?_, here := ?_ }
  · intro other later
    obtain ⟨quiet, rest⟩ := paired.bound other later
    exact ⟨Bool.eq_false_iff.mpr fun listening => absurd (deaf other listening) (by simp [quiet]),
      rest⟩
  · exact fun other listening => paired.listening other (deaf other listening)
  · exact fun other active listening => paired.here other active (deaf other listening)

def withSubscribing (c : Client S U W V D) (sub : Nat)
    (promise : Option (Except ClientError Nat)) : Client S U W V D :=
  { c with subscribing := Function.update c.subscribing sub promise }

theorem fail_withSubscribing (sub : Nat) (promise : Option (Except ClientError Nat))
    (error : ClientError) :
    (c.withSubscribing sub promise).fail error = (c.fail error).withSubscribing sub promise := by
  unfold Client.fail withSubscribing
  dsimp only
  split_ifs <;> rfl

theorem subscribing_withSubscribing (c : Client S U W V D) (sub : Nat)
    (promise : Option (Except ClientError Nat)) (other : Nat) :
    (c.withSubscribing sub promise).subscribing other =
      if other = sub then promise else c.subscribing other :=
  update_apply _ _ _ _

theorem Paired.promised {id : Nat} {error : ClientError}
    (paired : (c.withSubscribing sub (some (.error error))).Paired)
    (isActive : c.active sub = some active) (request : active.requestId = id)
    (issued : id ≤ c.requestSequence) (connected : c.connected = true)
    (current : active.connectionId = c.connectionSequence) :
    (c.withSubscribing sub (some (.ok id))).Paired := by
  have others : ∀ other, other ≠ sub →
      (c.withSubscribing sub (some (.ok id))).subscribing other =
        (c.withSubscribing sub (some (.error error))).subscribing other := by
    intro other apart
    rw [subscribing_withSubscribing, subscribing_withSubscribing, if_neg apart, if_neg apart]
  have own : ∀ promise, (c.withSubscribing sub promise).subscribing
      sub = promise := fun promise => by
    rw [subscribing_withSubscribing, if_pos rfl]
  constructor
  · intro other later
    obtain ⟨deaf, idle, rest⟩ := paired.bound other later
    refine ⟨deaf, ?_, rest⟩
    rw [others other, idle]
    rintro rfl
    rw [own] at idle
    cases idle
  · exact paired.pending
  · intro other request sent
    by_cases same : other = sub
    · rw [same, own] at sent
      cases sent
      exact ⟨active, same ▸ isActive, ‹_›, issued⟩
    · rw [others other same] at sent
      exact paired.subscribing other request sent
  · intro other listening
    by_cases same : other = sub
    · refine .inl ?_
      rw [same, own]
      rfl
    · rw [others other same]
      exact paired.listening other listening
  · intro other isSome
    obtain ⟨idle, rest⟩ := paired.obtained other isSome
    refine ⟨?_, rest⟩
    rw [others other, idle]
    rintro rfl
    rw [own] at idle
    cases idle
  · intro other former listening was sent
    by_cases same : other = sub
    · subst same
      obtain rfl : active = former := some.inj (isActive.symm.trans was)
      exact ⟨connected, current⟩
    · refine paired.here other former listening was fun error => ?_
      rw [← others other same]
      exact sent error

theorem Paired.listen (codec : StateCodec S U W V E D) (paired : c.Paired)
    (target : RpcTarget) (error : ClientError) :
    ((c.listen codec target).withSubscribing (c.serviceSubscriptionSequence + 1)
      (some (.error error))).Paired := by
  have old : ∀ {other}, (c.active other).isSome → other ≠ c.serviceSubscriptionSequence + 1 := by
    rintro _ isActive rfl
    obtain ⟨-, -, absent, -⟩ := paired.bound _ (Nat.lt_succ_self _)
    rw [absent] at isActive
    cases isActive
  constructor
  · intro other later
    change c.serviceSubscriptionSequence + 1 < other at later
    have apart : other ≠ c.serviceSubscriptionSequence + 1 := Nat.ne_of_gt later
    unfold withSubscribing Client.listen
    simp only [update_of_ne apart]
    exact paired.bound other (by omega)
  · intro id pending other isPending own
    obtain ⟨active, isActive, rest⟩ := paired.pending id pending other isPending own
    refine ⟨active, ?_, rest⟩
    unfold withSubscribing Client.listen
    simp only [update_of_ne (old (by rw [isActive]; rfl))]
    exact isActive
  · intro other id sent
    unfold withSubscribing Client.listen at sent ⊢
    dsimp only at sent ⊢
    rw [update_apply] at sent
    split_ifs at sent with new
    · cases sent
    · obtain ⟨active, isActive, rest⟩ := paired.subscribing other id sent
      rw [update_of_ne new]
      exact ⟨active, isActive, rest⟩
  · intro other listening
    unfold withSubscribing Client.listen at listening ⊢
    dsimp only at listening ⊢
    rw [update_apply] at listening ⊢
    split_ifs at listening ⊢ with new
    · exact .inl rfl
    · exact paired.listening other listening
  · intro other isSome
    obtain ⟨idle, isActive⟩ := paired.obtained other isSome
    unfold withSubscribing Client.listen
    simp only [update_of_ne (old isActive)]
    exact ⟨idle, isActive⟩
  · intro other active listening isActive sent
    unfold withSubscribing Client.listen at listening isActive sent
    dsimp only at listening isActive sent
    rw [update_apply] at listening isActive sent
    split_ifs at listening isActive sent with new
    · exact absurd rfl (sent error)
    · exact paired.here other active listening isActive sent

theorem Paired.subscribe (codec : StateCodec S U W V E D) (paired : c.Paired)
    (connected : c.connected = true) (target : RpcTarget)
    (own : pending.subscriptionId = some (c.serviceSubscriptionSequence + 1)) :
    (((c.listen codec target).registerRequest pending).withSubscribing
      (c.serviceSubscriptionSequence + 1) (some (.ok (c.requestSequence + 1)))).Paired := by
  have isActive : ∃ active, (c.listen codec target).active
      (c.serviceSubscriptionSequence + 1) = some active ∧
      active.requestId = c.requestSequence + 1 ∧
      active.connectionId = c.connectionSequence :=
    ⟨_, update_self _ _ _, rfl, rfl⟩
  have registered : (((c.listen codec target).registerRequest pending).withSubscribing
      (c.serviceSubscriptionSequence + 1) (some (.error .disposed))).Paired := by
    refine (paired.listen codec target .disposed).register fun sub same => ?_
    rw [own] at same
    cases same
    exact isActive
  obtain ⟨active, placed, request, current⟩ := isActive
  exact registered.promised placed request (Nat.le_refl _) connected current

theorem Paired.settle (paired : c.Paired) (id : Nat) (outcome : Outcome S) :
    (c.settle id outcome).Paired :=
  paired.same (sameSubscriptions_settle c id outcome)

theorem Paired.take (paired : c.Paired) (id : Nat) : (c.takePendingRequest id).Paired :=
  paired.same (sameSubscriptions_take c id)

theorem Paired.send (paired : c.Paired) (m : ClientMessage) (out : Outgoing) :
    (c.send m out).1.Paired := by
  unfold Client.send
  split
  · split
    · exact paired
    · exact paired.fail _
    · exact paired.fail _
  · exact paired

theorem Paired.request (paired : c.Paired) (target : RpcTarget) (call : ServiceCall)
    (signal : Signal) (out : Outgoing) : (c.request target call signal none out).1.1.Paired := by
  have registered : ∀ pending : PendingRequest, pending.subscriptionId = none →
      (c.registerRequest pending).Paired := fun pending plain =>
    paired.register fun sub own => by
      rw [plain] at own
      cases own
  unfold Client.request
  split_ifs
  · exact paired
  · exact paired
  · exact paired
  · dsimp only
    split
    · exact ((registered _ rfl).take _).settle _ _
    · exact (registered _ rfl).send _ _

theorem send_withSubscribing (sub : Nat) (promise : Option (Except ClientError Nat))
    (m : ClientMessage) (out : Outgoing) :
    (c.withSubscribing sub promise).send m out =
      ((c.send m out).1.withSubscribing sub promise, (c.send m out).2) := by
  have same : (c.withSubscribing sub promise).lifecycle = c.lifecycle := rfl
  unfold Client.send
  rw [same]
  split
  · split
    · rfl
    · rw [fail_withSubscribing]
    · rw [fail_withSubscribing]
  · rfl

theorem Paired.subscribeService (codec : StateCodec S U W V E D) (paired : c.Paired)
    (target : RpcTarget) (serviceId : String) (mode : ServiceMode) (signal : Signal)
    (out : Outgoing) : (c.subscribeService codec target serviceId mode signal out).1.Paired := by
  have refused := paired.listen codec target
  unfold Client.subscribeService Client.request
  dsimp only
  split_ifs with disposed apart aborted
  · exact refused _
  · exact refused _
  · exact refused _
  · have connected : (c.listen codec target).connected = true := by simpa using apart
    have subscribed := paired.subscribe codec connected target
      (show (newRequest target (some (c.serviceSubscriptionSequence + 1))
        signal).subscriptionId = some (c.serviceSubscriptionSequence + 1) from rfl)
    cases out with
    | tooLong => exact (subscribed.take _).settle _ (.rejected .encoding)
    | sent =>
      have sent := subscribed.send (.request (c.requestSequence + 1) target
        (.subscribe (c.serviceSubscriptionSequence + 1) serviceId mode)) .sent
      rw [send_withSubscribing] at sent
      exact sent
    | throws =>
      have sent := subscribed.send (.request (c.requestSequence + 1) target
        (.subscribe (c.serviceSubscriptionSequence + 1) serviceId mode)) .throws
      rw [send_withSubscribing] at sent
      exact sent

theorem Paired.idle (paired : c.Paired)
    (deaf : c.serviceListeners sub = false) : (c.withSubscribing sub none).Paired := by
  have apart : ∀ {other}, c.serviceListeners other = true → other ≠ sub := by
    rintro _ listening rfl
    rw [deaf] at listening
    cases listening
  constructor
  · intro other later
    obtain ⟨quiet, idle, rest⟩ := paired.bound other later
    refine ⟨quiet, ?_, rest⟩
    rw [subscribing_withSubscribing, idle, ite_self]
  · exact paired.pending
  · intro other id sent
    rw [subscribing_withSubscribing] at sent
    split_ifs at sent
    exact paired.subscribing other id sent
  · intro other listening
    rw [subscribing_withSubscribing, if_neg (apart listening)]
    exact paired.listening other listening
  · intro other isSome
    obtain ⟨idle, rest⟩ := paired.obtained other isSome
    refine ⟨?_, rest⟩
    rw [subscribing_withSubscribing, idle, ite_self]
  · intro other active listening isActive sent
    rw [subscribing_withSubscribing, if_neg (apart listening)] at sent
    exact paired.here other active listening isActive sent

def withSubscription (c : Client S U W V D) (sub : Nat)
    (subscription : ServiceSubscription S) : Client S U W V D :=
  { c with
    subscriptions := Function.update c.subscriptions sub (some subscription) }

theorem subscriptions_withSubscription (c : Client S U W V D) (sub : Nat)
    (subscription : ServiceSubscription S) (other : Nat) :
    (c.withSubscription sub subscription).subscriptions other =
      if other = sub then some subscription else c.subscriptions other :=
  update_apply _ _ _ _

section

variable (paired : c.Paired) {subscription : ServiceSubscription S}

include paired

theorem Paired.obtain {id : Nat} (waits : c.subscribing sub = some (.ok id)) (snapshot : S) :
    ((c.withSubscribing sub none).withSubscription sub
      { snapshot := snapshot, disposed := false }).Paired := by
  obtain ⟨active, isActive, -, -⟩ := paired.subscribing sub id waits
  constructor
  · intro other later
    obtain ⟨quiet, idle, absent, none⟩ := paired.bound other later
    have apart : other ≠ sub := by
      rintro rfl
      rw [waits] at idle
      cases idle
    refine ⟨quiet, ?_, absent, ?_⟩
    · exact (subscribing_withSubscribing c sub _ other).trans (by rw [if_neg apart, idle])
    · rw [subscriptions_withSubscription, if_neg apart]
      exact none
  · exact paired.pending
  · intro other request sent
    change (c.withSubscribing sub none).subscribing other = _ at sent
    rw [subscribing_withSubscribing] at sent
    split_ifs at sent
    exact paired.subscribing other request sent
  · intro other listening
    by_cases same : other = sub
    · refine .inr ?_
      rw [subscriptions_withSubscription, if_pos same]
      rfl
    · rw [subscriptions_withSubscription, if_neg same]
      refine (paired.listening other listening).imp_left fun isSome => ?_
      change ((c.withSubscribing sub none).subscribing other).isSome
      rw [subscribing_withSubscribing, if_neg same]
      exact isSome
  · intro other isSome
    change (c.withSubscribing sub none).subscribing other = none ∧ (c.active other).isSome
    rw [subscribing_withSubscribing]
    by_cases same : other = sub
    · rw [if_pos same, same, isActive]
      exact ⟨rfl, rfl⟩
    · rw [subscriptions_withSubscription, if_neg same] at isSome
      rw [if_neg same]
      exact paired.obtained other isSome
  · intro other former listening was sent
    change ∀ error, (c.withSubscribing sub none).subscribing other ≠ _ at sent
    rw [subscribing_withSubscribing] at sent
    by_cases same : other = sub
    · refine paired.here other former listening was fun error => ?_
      rw [same, waits]
      simp
    · rw [if_neg same] at sent
      exact paired.here other former listening was sent

theorem Paired.resume {promise : Except ClientError Nat}
    (waits : c.subscribing sub = some promise) (outcome : Outcome S)
    (sent : ∀ snapshot, outcome = .resolved (some snapshot) → ∃ id, promise = .ok id) :
    (c.resume sub outcome).Paired := by
  unfold Client.resume
  dsimp only
  split
  · rename_i snapshot
    split_ifs with listening
    · obtain ⟨id, rfl⟩ := sent snapshot rfl
      exact paired.obtain waits snapshot
    · exact paired.idle (by simpa using listening)
  · exact (paired.stopListening sub).idle (update_self _ _ _)

theorem Paired.redo (isSome : (c.subscriptions sub).isSome) (subscription : ServiceSubscription S) :
    (c.withSubscription sub subscription).Paired := by
  have same : ∀ other, ((c.withSubscription sub subscription).subscriptions
      other).isSome = (c.subscriptions other).isSome := by
    intro other
    rw [subscriptions_withSubscription]
    split_ifs with own
    · rw [own, isSome]
      rfl
    · rfl
  refine { paired with bound := ?_, listening := ?_, obtained := ?_ }
  · intro other later
    obtain ⟨quiet, idle, absent, none⟩ := paired.bound other later
    refine ⟨quiet, idle, absent, ?_⟩
    have still := same other
    rw [none] at still
    exact isNone_iff_eq_none.mp (by simpa using still)
  · intro other listening
    rw [same]
    exact paired.listening other listening
  · intro other obtained
    rw [same] at obtained
    exact paired.obtained other obtained

section

variable (obtained : c.subscriptions sub = some subscription)
  (isActive : c.active sub = some active)

include obtained isActive

theorem Paired.close :
    (c.closeSubscription sub subscription active).Paired :=
  ((paired.redo (by rw [obtained]; rfl)
    { subscription with disposed := true }).stopListening sub).setActive
      (show _ = some active from isActive) (show active.clear.requestId = _ from rfl) rfl

theorem Paired.disposeSubscription (out : Outgoing) :
    (c.disposeSubscription sub subscription active out).1.Paired := by
  have closed := paired.close obtained isActive
  unfold Client.disposeSubscription
  dsimp only
  split_ifs
  · exact closed.request _ _ _ _
  · exact closed

end

end

theorem hydrate_ids {hydrated : ActiveServiceListener U V D} {wire : W} {snapshot : S}
    (done : hydrate codec active wire = .ok (hydrated, snapshot)) :
    hydrated.requestId = active.requestId ∧ hydrated.connectionId = active.connectionId := by
  unfold hydrate at done
  split at done
  · cases done
  · split at done
    · cases done
    · cases done
      exact ⟨rfl, rfl⟩

theorem receive_ids (active : ActiveServiceListener U V D) (d : D) (update : U) :
    (active.receive d update).requestId = active.requestId ∧
      (active.receive d update).connectionId = active.connectionId := by
  unfold ActiveServiceListener.receive
  split_ifs
  · exact ⟨rfl, rfl⟩
  · exact ⟨rfl, rfl⟩

theorem Paired.handleUpdate (codec : StateCodec S U W V E D) (paired : c.Paired)
    (sub : Nat) (wire : V) : (c.handleUpdate codec sub wire).Paired := by
  unfold Client.handleUpdate
  split
  · rename_i active listening isActive
    split_ifs
    · exact paired.setActive isActive rfl rfl
    · split
      · exact paired.fail _
      · rename_i d update decoded
        have ids := receive_ids active d update
        exact paired.setActive isActive ids.1 ids.2
  · exact paired

theorem Paired.resolveRequest (codec : StateCodec S U W V E D) (paired : c.Paired) (id : Nat)
    (pending : PendingRequest) (reply : Reply W) :
    (c.resolveRequest codec id pending reply).Paired := by
  unfold Client.resolveRequest
  split
  · exact paired.settle _ _
  · split
    · rename_i wire active isActive
      split
      · exact (paired.fail _).settle _ _
      · rename_i hydrated snapshot decoded
        have ids := hydrate_ids decoded
        exact (paired.setActive isActive ids.1 ids.2).settle _ _
    · exact (paired.fail _).settle _ _

theorem Paired.handleMessage (codec : StateCodec S U W V E D) (serverId : String)
    (paired : c.Paired) (m : ServerMessage W V) : (c.handleMessage codec serverId m).Paired := by
  unfold Client.handleMessage
  split
  · exact paired
  · rename_i id transport opening
    split
    · exact paired.fail _
    · split_ifs
      · exact paired.fail _
      · exact paired.fail _
      · refine paired.same ⟨rfl, rfl, rfl, fun _ => rfl, rfl, rfl, rfl, rfl,
          fun _ pending isPending => ⟨pending, isPending, rfl⟩⟩
    · exact paired.fail _
  · split
    · exact paired.fail _
    · exact paired.fail _
    · unfold Client.handleEnvelope
      split
      · split_ifs
        · exact paired.fail _
        · exact paired.same ⟨rfl, rfl, rfl, fun connected => connected, rfl, rfl, rfl,
            rfl, fun _ pending isPending => ⟨pending, isPending, rfl⟩⟩
      · exact paired.handleUpdate codec _ _
      · split
        · exact paired.fail _
        · split
          · exact (paired.take _).settle _ _
          · exact (paired.take _).resolveRequest codec _ _ _
      · exact paired

theorem Paired.dispose (paired : c.Paired) : c.dispose.Paired := by
  have rejected : ({ c with disposed := true }.rejectPendingRequests .disposed).Paired :=
    paired.same ⟨rfl, rfl, rfl, fun connected => connected, rfl, rfl, rfl, rfl,
      fun _ _ absurd => nomatch absurd⟩
  have failed := rejected.fail .disposed
  exact {
    bound := fun sub later => ⟨rfl, (failed.bound sub later).2⟩
    pending := failed.pending
    subscribing := failed.subscribing
    listening := fun _ absurd => nomatch absurd
    obtained := failed.obtained
    here := fun _ _ absurd => nomatch absurd }

theorem Paired.step {serverId : String} (paired : c.Paired)
    (idle : c.connected = false → ∀ id, c.pendingRequests id = none) {ev : ClientEvent}
    {result : Client S U W V D × Option (Nat × ClientMessage)}
    (taken : c.step codec serverId ev = some result) : result.1.Paired := by
  cases ev with
  | connect =>
    rw [Client.step] at taken
    split_ifs at taken with disposed elsewhere
    · cases taken
      exact paired.same ⟨rfl, rfl, rfl, fun connected => connected, rfl, rfl, rfl, rfl,
        fun _ pending isPending => ⟨pending, isPending, rfl⟩⟩
    · cases taken
      have apart : c.connected = false := by
        rw [Client.connected, not_not.mp elsewhere]
      exact {
        bound := paired.bound
        pending := fun id pending _ isPending => by
          change c.pendingRequests id = _ at isPending
          rw [idle apart] at isPending
          cases isPending
        subscribing := paired.subscribing
        listening := paired.listening
        obtained := paired.obtained
        here := fun sub active listening isActive sent => by
          have connected := (paired.here sub active listening isActive sent).1
          rw [apart] at connected
          cases connected }
  | disconnect reason =>
    cases taken
    exact paired.fail _
  | dispose =>
    rw [Client.step] at taken
    split_ifs at taken
    cases taken
    exact paired.dispose
  | request target call signal out =>
    cases taken
    exact paired.request target call signal out
  | subscribeService target serviceId mode signal out =>
    cases taken
    exact paired.subscribeService codec target serviceId mode signal out
  | abort id out =>
    rw [Client.step] at taken
    split at taken
    · cases taken
    · rename_i pending isPending
      split_ifs at taken
      cases taken
      exact ((paired.same (sameSubscriptions_markAborted isPending)).settle _ _).send _ _
  | resume sub =>
    rw [Client.step] at taken
    split at taken
    · cases taken
    · rename_i error waits
      cases taken
      exact paired.resume waits (.rejected error) fun _ absurd => by cases absurd
    · rename_i id waits
      obtain ⟨outcome, -, same⟩ := map_eq_some_iff.mp taken
      cases same
      exact paired.resume waits outcome fun _ _ => ⟨id, rfl⟩
  | start sub =>
    rw [Client.step] at taken
    split at taken
    · rename_i subscription active obtained isActive
      split_ifs at taken
      cases taken
      exact paired.setActive isActive rfl rfl
    · cases taken
  | disposeSubscription sub out =>
    rw [Client.step] at taken
    split at taken
    · rename_i subscription active obtained isActive
      split_ifs at taken
      cases taken
      exact paired.disposeSubscription obtained isActive out
    · cases taken
  | deliver sub =>
    rw [Client.step] at taken
    split at taken
    · cases taken
    · rename_i active isActive
      split at taken
      · cases taken
      · cases taken
        exact paired.setActive isActive rfl rfl
  | opened =>
    rw [Client.step] at taken
    split at taken
    · rename_i id lifecycle waiting
      cases taken
      refine paired.same ⟨rfl, rfl, rfl, fun connected => ?_, rfl, rfl, rfl, rfl,
        fun _ pending isPending => ⟨pending, isPending, rfl⟩⟩
      rw [Client.connected, lifecycle] at connected
      cases connected
    · cases taken
  | lost reason =>
    rw [Client.step] at taken
    split at taken
    · cases taken
      exact paired.fail _
    · cases taken
  | handle =>
    obtain ⟨handled, same, pair⟩ := map_eq_some_iff.mp taken
    cases pair
    unfold Client.handle at same
    split at same
    · cases same
    · split_ifs at same
      · cases same
        exact paired.same (sameSubscriptions_withChunk c [])
      · cases same
        exact (paired.same (sameSubscriptions_withChunk c _)).handleMessage codec serverId _

end

end Client

/-- What is known of every reached world, whatever the condition of the run. -/
structure World.Based (world : World S U W V E D) : Prop extends world.Grounded where
  paired : world.client.Paired

theorem inductive_based (codec : StateCodec S U W V E D) (serverId : String)
    (allowed : World S U W V E D → Event S U → Prop) :
    (remoteMachine codec serverId).Inductive allowed World.Based where
  start w initial := by
    obtain rfl : w = .create := initial
    exact ⟨(World.inductive_grounded codec serverId).start _ rfl, Client.paired_create⟩
  step w ev next based _ taken := by
    refine ⟨(World.inductive_grounded codec serverId).step _ _ _ based.toGrounded trivial taken, ?_⟩
    have sound := based.accounted.sound
    cases ev with
    | client ev =>
      obtain ⟨result, same, rfl⟩ := map_eq_some_iff.mp taken
      refine based.paired.step (fun apart id => ?_) same
      by_contra present
      have connected := sound.connected id (isSome_iff_ne_none.mpr present)
      rw [apart] at connected
      cases connected
    | data receiver count =>
      simp only [remoteMachine, World.step] at taken
      split at taken
      · cases taken
      · cases taken
        dsimp only
        rcases w.client.handleData_cases receiver
          ((w.links receiver).toClient.take count) with
          ⟨error, -, same⟩ | ⟨-, same⟩ | ⟨-, same⟩
        · rw [same]
          exact based.paired.fail error
        · rw [same]
          exact based.paired
        · rw [same]
          exact based.paired.same ⟨rfl, rfl, rfl, fun connected => connected, rfl, rfl,
            rfl, rfl, fun _ pending isPending => ⟨pending, isPending, rfl⟩⟩
    | server receiver ev =>
      obtain ⟨link, -, rfl⟩ := map_eq_some_iff.mp taken
      exact based.paired

end Trpi.Remote
