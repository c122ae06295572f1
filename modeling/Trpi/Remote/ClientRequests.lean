import Trpi.Remote.Client
import Trpi.Remote.ServerAnswers

/-!
# Requests of a client

A request is pending only on the connection there is, and a promise is settled once its request
is not. What a step does to them is one of four things: the connection ends, another one is
opened, a message of the connection is handled, or at most one message is sent on it.
-/

namespace Trpi.Remote

open Function

variable {S U W V E D : Type}

def Lifecycle.connection? : Lifecycle → Option Nat
  | .disconnected => none
  | .connecting id _ => some id
  | .connected id => some id

namespace Client

def pendingCount (c : Client S U W V D) (id : Nat) : Nat :=
  (c.pendingRequests id).elim 0 fun _ => 1

structure Sound (c : Client S U W V D) : Prop where
  connected : ∀ id, (c.pendingRequests id).isSome → c.connected = true
  issued : ∀ id, (c.pendingRequests id).isSome → 0 < id ∧ id ≤ c.requestSequence
  settled : ∀ id, 0 < id → id ≤ c.requestSequence →
    (c.promises id).isSome ∨ (c.pendingRequests id).isSome
  unissued : ∀ id, c.requestSequence < id → c.promises id = none
  current : ∀ id, c.lifecycle.connection? = some id → id = c.connectionSequence
  chunk : ∀ id, c.lifecycle = .connected id ∨ c.lifecycle = .connecting id true →
    c.chunk ≠ [] → c.chunkConnection = id
  older : c.chunkConnection ≤ c.connectionSequence
  matched : ClientError.noMatchingRequest ∉ c.failures

/-- What a step does to the connection, the requests on it and the data that is handled. -/
inductive Moves (c next : Client S U W V D) : Option (Nat × ClientMessage) → Prop where
  | ended (lifecycle : next.lifecycle = .disconnected)
      (sequence : next.connectionSequence = c.connectionSequence) : Moves c next none
  | opens (before : c.lifecycle = .disconnected)
      (after : next.lifecycle = .connecting (c.connectionSequence + 1) false)
      (sequence : next.connectionSequence = c.connectionSequence + 1)
      (chunk : next.chunkConnection = c.chunkConnection) : Moves c next none
  | handles (connectionId : Nat) (message : ServerMessage W V)
      (before : c.lifecycle.connection? = some connectionId)
      (after : next.lifecycle.connection? = some connectionId)
      (sequence : next.connectionSequence = c.connectionSequence)
      (origin : c.chunkConnection = connectionId)
      (originAfter : next.chunkConnection = connectionId)
      (chunk : c.chunk = message :: next.chunk)
      (balance : ∀ id, next.pendingCount id + (if message.isResponse id then 1 else 0) =
        c.pendingCount id) : Moves c next none
  | stays (before : next.lifecycle.connection? = c.lifecycle.connection?)
      (sequence : next.connectionSequence = c.connectionSequence)
      (origin : next.chunkConnection = c.chunkConnection)
      (chunk : next.chunk = c.chunk)
      (out : Option (Nat × ClientMessage))
      (goes : ∀ connectionId message, out = some (connectionId, message) →
        c.lifecycle.connection? = some connectionId)
      (balance : ∀ id, next.pendingCount id =
        c.pendingCount id + requestCount id (out.map Prod.snd).toList) : Moves c next out

def Kept (c next : Client S U W V D) : Prop :=
  ∀ id outcome, c.promises id = some outcome → next.promises id = some outcome

structure Advances (c next : Client S U W V D) (out : Option (Nat × ClientMessage)) : Prop where
  sound : next.Sound
  moves : c.Moves next out
  kept : c.Kept next

structure SameConnection (c next : Client S U W V D) : Prop where
  lifecycle : next.lifecycle = c.lifecycle
  sequence : next.connectionSequence = c.connectionSequence
  chunk : next.chunk = c.chunk
  origin : next.chunkConnection = c.chunkConnection

/-- Nothing that requests are about is touched. -/
structure SameRequests (c next : Client S U W V D) : Prop
    extends SameConnection c next where
  requestSequence : next.requestSequence = c.requestSequence
  pendingRequests : next.pendingRequests = c.pendingRequests
  promises : next.promises = c.promises
  failures : next.failures = c.failures

section

variable {c next : Client S U W V D} {id : Nat}

theorem pendingCount_of_isSome (pending : (c.pendingRequests id).isSome) :
    c.pendingCount id = 1 := by
  obtain ⟨request, isPending⟩ := Option.isSome_iff_exists.mp pending
  rw [pendingCount, isPending]
  rfl

theorem pendingCount_of_not_isSome (absent : ¬(c.pendingRequests id).isSome) :
    c.pendingCount id = 0 := by
  rw [pendingCount, Option.not_isSome_iff_eq_none.mp absent]
  rfl

theorem pendingCount_le_one (c : Client S U W V D) (id : Nat) : c.pendingCount id ≤ 1 := by
  rw [pendingCount]
  cases c.pendingRequests id with
  | none => exact Nat.zero_le _
  | some pending => exact Nat.le_refl _

theorem SameRequests.sound (same : c.SameRequests next) (sound : c.Sound) :
    next.Sound := by
  obtain ⟨⟨lifecycle, sequence, chunk, origin⟩, requestSequence, pendingRequests, promises,
    failures⟩ := same
  constructor
  · rw [pendingRequests, Client.connected, lifecycle]
    exact sound.connected
  · rw [pendingRequests, requestSequence]
    exact sound.issued
  · rw [pendingRequests, promises, requestSequence]
    exact sound.settled
  · rw [promises, requestSequence]
    exact sound.unissued
  · rw [lifecycle, sequence]
    exact sound.current
  · rw [lifecycle, chunk, origin]
    exact sound.chunk
  · rw [origin, sequence]
    exact sound.older
  · rw [failures]
    exact sound.matched

theorem SameRequests.advances (same : c.SameRequests next) (sound : c.Sound) :
    c.Advances next none where
  sound := same.sound sound
  moves := by
    refine .stays (by rw [same.lifecycle]) same.sequence same.origin same.chunk none
      (fun _ _ absurd => nomatch absurd) fun id => ?_
    rw [pendingCount, same.pendingRequests]
    rfl
  kept id outcome settled := by rw [same.promises, settled]

theorem sound_of_ended (lifecycle : next.lifecycle = .disconnected)
    (pending : ∀ id, next.pendingRequests id = none)
    (settled : ∀ id, 0 < id → id ≤ next.requestSequence → (next.promises id).isSome)
    (unissued : ∀ id, next.requestSequence < id → next.promises id = none)
    (older : next.chunkConnection ≤ next.connectionSequence)
    (matched : ClientError.noMatchingRequest ∉ next.failures) : next.Sound := by
  constructor
  · exact fun id some => absurd some (by simp [pending])
  · exact fun id some => absurd some (by simp [pending])
  · exact fun id positive issued => .inl (settled id positive issued)
  · exact unissued
  · rw [lifecycle]
    exact fun id absurd => nomatch absurd
  · rw [lifecycle]
    rintro id (absurd | absurd) <;> cases absurd
  · exact older
  · exact matched

theorem promises_settle (id : Nat) (outcome : Outcome S) (other : Nat) :
    (c.settle id outcome).promises other =
      if other = id then some ((c.promises id).getD outcome) else c.promises other :=
  update_apply _ _ _ _

theorem kept_settle (c : Client S U W V D) (id : Nat) (outcome : Outcome S) : c.Kept (c.settle id outcome) := by
  intro other first settled
  rw [promises_settle]
  split_ifs with same
  · rw [← same, settled, Option.getD_some]
  · exact settled

theorem lifecycle_fail (c : Client S U W V D) (error : ClientError) : (c.fail error).lifecycle = .disconnected := by
  rw [fail]
  split_ifs with disconnected
  · exact disconnected
  · rfl

theorem connectionSequence_fail (c : Client S U W V D) (error : ClientError) :
    (c.fail error).connectionSequence = c.connectionSequence := by
  rw [fail]
  split_ifs <;> rfl

theorem requestSequence_fail (error : ClientError) :
    (c.fail error).requestSequence = c.requestSequence := by
  rw [fail]
  split_ifs <;> rfl

theorem chunkConnection_fail (error : ClientError) :
    (c.fail error).chunkConnection = c.chunkConnection := by
  rw [fail]
  split_ifs <;> rfl

variable {error : ClientError} {pending : PendingRequest} {out : Option (Nat × ClientMessage)}
  {last : Client S U W V D} {m : ServerMessage W V}

theorem matched_fail (other : error ≠ .noMatchingRequest)
    (matched : ClientError.noMatchingRequest ∉ c.failures) :
    ClientError.noMatchingRequest ∉ (c.fail error).failures := by
  rw [fail]
  split_ifs
  · exact matched
  · rw [List.mem_append, List.mem_singleton]
    rintro (old | new)
    · exact matched old
    · exact other new.symm

theorem promises_fail (connected : c.lifecycle ≠ .disconnected) (id : Nat) :
    (c.fail error).promises id =
      if (c.pendingRequests id).isSome then
        some ((c.promises id).getD (.rejected error))
      else c.promises id := by
  rw [fail, if_neg connected]
  rfl

theorem pendingRequests_fail (connected : c.lifecycle ≠ .disconnected) (id : Nat) :
    (c.fail error).pendingRequests id = none := by
  rw [fail, if_neg connected]
  rfl

theorem kept_fail (error : ClientError) : c.Kept (c.fail error) := by
  intro id outcome settled
  by_cases disconnected : c.lifecycle = .disconnected
  · rw [fail, if_pos disconnected, settled]
  · rw [promises_fail disconnected, settled]
    split_ifs <;> rfl

theorem Sound.connectedOf (sound : c.Sound)
    (pending : (c.pendingRequests id).isSome) : c.lifecycle ≠ .disconnected := by
  intro disconnected
  have connected := sound.connected id pending
  rw [Client.connected, disconnected] at connected
  cases connected

theorem Sound.fail (sound : c.Sound) (other : error ≠ .noMatchingRequest) :
    (c.fail error).Sound := by
  by_cases disconnected : c.lifecycle = .disconnected
  · rw [Client.fail, if_pos disconnected]
    exact sound
  · refine sound_of_ended (lifecycle_fail _ error) (pendingRequests_fail disconnected) ?_ ?_ ?_
      (matched_fail other sound.matched)
    · intro id positive issued
      rw [requestSequence_fail] at issued
      rw [promises_fail disconnected]
      rcases sound.settled id positive issued with settled | pending
      · split_ifs
        · rfl
        · exact settled
      · rw [if_pos pending]
        rfl
    · intro id unissued
      rw [requestSequence_fail] at unissued
      have absent : ¬(c.pendingRequests id).isSome := fun pending =>
        absurd (sound.issued id pending).2 (Nat.not_le.mpr unissued)
      rw [promises_fail disconnected, if_neg absent]
      exact sound.unissued id unissued
    · rw [chunkConnection_fail, connectionSequence_fail]
      exact sound.older

theorem advances_fail (sound : c.Sound) (other : error ≠ .noMatchingRequest) :
    c.Advances (c.fail error) none where
  sound := sound.fail other
  moves := .ended (lifecycle_fail _ error) (connectionSequence_fail _ error)
  kept := kept_fail error

theorem SameRequests.before {middle : Client S U W V D} (same : c.SameRequests middle)
    (advances : middle.Advances next out) : c.Advances next out where
  sound := advances.sound
  moves := by
    have count : ∀ id, middle.pendingCount id = c.pendingCount id := fun id => by
      rw [pendingCount, pendingCount, same.pendingRequests]
    cases advances.moves with
    | ended lifecycle sequence => exact .ended lifecycle (sequence.trans same.sequence)
    | opens before after sequence chunk =>
      rw [same.sequence] at after sequence
      exact .opens (same.lifecycle ▸ before) after sequence (chunk.trans same.origin)
    | handles conn m before after sequence origin originAfter chunk balance =>
      rw [same.lifecycle] at before
      rw [same.origin] at origin
      exact .handles conn m before after (sequence.trans same.sequence) origin
        originAfter (same.chunk ▸ chunk) fun id => (balance id).trans (count id)
    | stays before sequence origin chunk out goes balance =>
      rw [same.lifecycle] at before goes
      exact .stays before (sequence.trans same.sequence) (origin.trans same.origin)
        (chunk.trans same.chunk) out goes fun id => by rw [balance, count]
  kept id outcome settled := advances.kept id outcome (by rw [same.promises, settled])

theorem Advances.after (advances : c.Advances next out)
    (same : next.SameRequests last) : c.Advances last out where
  sound := same.sound advances.sound
  moves := by
    have count : ∀ id, last.pendingCount id = next.pendingCount id := fun id => by
      rw [pendingCount, pendingCount, same.pendingRequests]
    cases advances.moves with
    | ended lifecycle sequence =>
      exact .ended (same.lifecycle.trans lifecycle) (same.sequence.trans sequence)
    | opens before after sequence chunk =>
      exact .opens before (same.lifecycle.trans after) (same.sequence.trans sequence)
        (same.origin.trans chunk)
    | handles conn m before after sequence origin originAfter chunk balance =>
      rw [← same.lifecycle] at after
      exact .handles conn m before after (same.sequence.trans sequence) origin
        (same.origin.trans originAfter) (same.chunk ▸ chunk) fun id => by rw [count, balance]
    | stays before sequence origin chunk out goes balance =>
      rw [← same.lifecycle] at before
      exact .stays before (same.sequence.trans sequence) (same.origin.trans origin)
        (same.chunk.trans chunk) out goes fun id => by rw [count, balance]
  kept id outcome settled := by rw [same.promises]; exact advances.kept id outcome settled

theorem Sound.settle (sound : c.Sound) (issued : id ≤ c.requestSequence)
    (outcome : Outcome S) : (c.settle id outcome).Sound where
  connected := sound.connected
  issued := sound.issued
  settled other positive bound := by
    rcases sound.settled other positive bound with settled | pending
    · refine .inl ?_
      rw [promises_settle]
      split_ifs
      · rfl
      · exact settled
    · exact .inr pending
  unissued other bound := by
    change c.requestSequence < other at bound
    rw [promises_settle, if_neg (by omega)]
    exact sound.unissued other bound
  current := sound.current
  chunk := sound.chunk
  older := sound.older
  matched := sound.matched

theorem isSome_takePendingRequest (id other : Nat) :
    ((c.takePendingRequest id).pendingRequests other).isSome ↔
      other ≠ id ∧ (c.pendingRequests other).isSome := by
  rw [takePendingRequest]
  dsimp only
  rw [update_apply]
  split_ifs with same
  · simp [same]
  · simp [same]

theorem Sound.finish (sound : c.Sound) (issued : id ≤ c.requestSequence)
    (outcome : Outcome S) : ((c.takePendingRequest id).settle id outcome).Sound where
  connected other pending := sound.connected other ((isSome_takePendingRequest id other).mp pending).2
  issued other pending := sound.issued other ((isSome_takePendingRequest id other).mp pending).2
  settled other positive bound := by
    by_cases same : other = id
    · refine .inl ?_
      rw [promises_settle, if_pos same]
      rfl
    · rcases sound.settled other positive bound with settled | pending
      · refine .inl ?_
        rw [promises_settle, if_neg same]
        exact settled
      · exact .inr ((isSome_takePendingRequest id other).mpr ⟨same, pending⟩)
  unissued other bound := by
    change c.requestSequence < other at bound
    rw [promises_settle, if_neg (by omega)]
    exact sound.unissued other bound
  current := sound.current
  chunk := sound.chunk
  older := sound.older
  matched := sound.matched

theorem pendingCount_finish (pending : (c.pendingRequests id).isSome) (outcome : Outcome S)
    (other : Nat) :
    ((c.takePendingRequest id).settle id outcome).pendingCount other +
      (if id = other then 1 else 0) = c.pendingCount other := by
  by_cases same : id = other
  · subst same
    have absent : ¬((c.takePendingRequest id).pendingRequests id).isSome :=
      fun present => ((isSome_takePendingRequest id id).mp present).1 rfl
    rw [if_pos rfl, pendingCount_of_isSome pending]
    exact congrArg (· + 1) (pendingCount_of_not_isSome absent)
  · rw [if_neg same, pendingCount, pendingCount, settle, takePendingRequest]
    dsimp only
    rw [update_of_ne (Ne.symm same), Nat.add_zero]

theorem kept_finish (id : Nat) (outcome : Outcome S) :
    c.Kept ((c.takePendingRequest id).settle id outcome) :=
  kept_settle (c.takePendingRequest id) id outcome

theorem lifecycle_of_connected (connected : c.connected = true) :
    ∃ id, c.lifecycle = .connected id := by
  rw [Client.connected] at connected
  cases lifecycle : c.lifecycle with
  | connected id => exact ⟨id, rfl⟩
  | disconnected =>
    rw [lifecycle] at connected
    cases connected
  | connecting id transport =>
    rw [lifecycle] at connected
    cases connected

theorem Sound.register (sound : c.Sound) (connected : c.connected = true)
    (pending : PendingRequest) : (c.registerRequest pending).Sound where
  connected _ _ := connected
  issued id present := by
    unfold Client.registerRequest at present ⊢
    dsimp only at present ⊢
    rw [update_apply] at present
    split_ifs at present with same
    · omega
    · have bounds := sound.issued id present
      omega
  settled id positive bound := by
    unfold Client.registerRequest at bound ⊢
    dsimp only at bound ⊢
    by_cases same : id = c.requestSequence + 1
    · rw [same, update_self]
      exact .inr rfl
    · rw [update_of_ne same]
      exact sound.settled id positive (by omega)
  unissued id bound := by
    change c.requestSequence + 1 < id at bound
    exact sound.unissued id (by omega)
  current := sound.current
  chunk := sound.chunk
  older := sound.older
  matched := sound.matched

theorem Sound.pendingCount_register (sound : c.Sound) (pending : PendingRequest)
    (id : Nat) : (c.registerRequest pending).pendingCount id =
      c.pendingCount id + if c.requestSequence + 1 = id then 1 else 0 := by
  have fresh : ¬(c.pendingRequests (c.requestSequence + 1)).isSome := fun present => by
    have bounds := sound.issued _ present
    omega
  by_cases same : c.requestSequence + 1 = id
  · subst same
    rw [if_pos rfl, pendingCount_of_not_isSome fresh, pendingCount, registerRequest]
    dsimp only
    rw [update_self]
    rfl
  · rw [if_neg same, pendingCount, registerRequest]
    dsimp only
    rw [update_of_ne (Ne.symm same)]
    rfl

theorem send_cases (conn : Nat) (lifecycle : c.lifecycle = .connected conn)
    (m : ClientMessage) (out : Outgoing) :
    c.send m out = (c, some (conn, m)) ∨
      ∃ error, error ≠ .noMatchingRequest ∧ c.send m out = (c.fail error, none) := by
  rw [send, lifecycle]
  cases out with
  | sent => exact .inl rfl
  | tooLong => exact .inr ⟨_, by simp, rfl⟩
  | throws => exact .inr ⟨_, by simp, rfl⟩

theorem SameConnection.sends (same : c.SameConnection next) {conn : Nat}
    (connected : c.lifecycle = .connected conn) (m : ClientMessage)
    (balance : ∀ id, next.pendingCount id = c.pendingCount id + requestCount id [m]) :
    c.Moves next (some (conn, m)) := by
  refine .stays (by rw [same.lifecycle]) same.sequence same.origin same.chunk _ ?_ balance
  rintro id other target
  cases target
  rw [connected]
  rfl

theorem SameConnection.quiet (same : c.SameConnection next)
    (balance : ∀ id, next.pendingCount id = c.pendingCount id) : c.Moves next none :=
  .stays (by rw [same.lifecycle]) same.sequence same.origin same.chunk none
    (fun _ _ absurd => nomatch absurd) balance

theorem advances_request (sound : c.Sound) (target : RpcTarget) (call : ServiceCall)
    (signal : Signal) (sub : Option Nat) (out : Outgoing) :
    c.Advances (c.request target call signal sub out).1.1
      (c.request target call signal sub out).1.2 := by
  have unchanged : c.Advances c none :=
    SameRequests.advances ⟨⟨rfl, rfl, rfl, rfl⟩, rfl, rfl, rfl, rfl⟩ sound
  rw [request]
  split_ifs with disposed disconnected aborted
  · exact unchanged
  · exact unchanged
  · exact unchanged
  · have connected : c.connected = true := by simpa using disconnected
    obtain ⟨conn, lifecycle⟩ := lifecycle_of_connected connected
    generalize isPending : ({
      target := target
      subscriptionId := sub
      signal := decide (signal = .live)
      aborted := false } : PendingRequest) = pending
    have registered := sound.register connected pending
    have count := sound.pendingCount_register pending
    have sending : c.Advances
        ((c.registerRequest pending).send (.request (c.requestSequence + 1) target call) out).1
        ((c.registerRequest pending).send
          (.request (c.requestSequence + 1) target call) out).2 := by
      have still : (c.registerRequest pending).lifecycle = .connected conn := lifecycle
      rcases send_cases conn still (.request (c.requestSequence + 1) target call) out
        with sent | ⟨error, other, failed⟩
      · rw [sent]
        have moves : c.Moves (c.registerRequest pending)
            (some (conn, .request (c.requestSequence + 1) target call)) := by
          have same : c.SameConnection (c.registerRequest pending) :=
            ⟨rfl, rfl, rfl, rfl⟩
          refine same.sends lifecycle _ fun id => ?_
          rw [count]
          simp [ClientMessage.isRequest]
        exact ⟨registered, moves, fun _ _ settled => settled⟩
      · rw [failed]
        exact ⟨registered.fail other, .ended (lifecycle_fail _ error) (connectionSequence_fail _ error),
          fun id outcome settled => kept_fail error id outcome settled⟩
    cases out with
    | sent => exact sending
    | throws => exact sending
    | tooLong =>
      have present : ((c.registerRequest pending).pendingRequests
          (c.requestSequence + 1)).isSome := by
        rw [registerRequest]
        dsimp only
        rw [update_self]
        rfl
      have same : c.SameConnection (((c.registerRequest pending).takePendingRequest
          (c.requestSequence + 1)).settle (c.requestSequence + 1)
            (.rejected .encoding)) := ⟨rfl, rfl, rfl, rfl⟩
      refine ⟨registered.finish (Nat.le_refl _) _, same.quiet fun id => ?_, kept_finish _ _⟩
      have balance := pendingCount_finish present (.rejected .encoding : Outcome S) id
      rw [count] at balance
      omega

theorem advances_subscribeService (codec : StateCodec S U W V E D) (sound : c.Sound)
    (target : RpcTarget) (serviceId : String) (mode : Trpi.Chord.Services.ServiceMode)
    (signal : Signal) (out : Outgoing) :
    c.Advances (c.subscribeService codec target serviceId mode signal out).1
      (c.subscribeService codec target serviceId mode signal out).2 := by
  have listening : c.SameRequests (c.listen codec target) :=
    ⟨⟨rfl, rfl, rfl, rfl⟩, rfl, rfl, rfl, rfl⟩
  have requested := advances_request (listening.sound sound) target
    (.subscribe (c.serviceSubscriptionSequence + 1) serviceId mode) signal
    (some (c.serviceSubscriptionSequence + 1)) out
  exact listening.before (requested.after ⟨⟨rfl, rfl, rfl, rfl⟩, rfl, rfl, rfl, rfl⟩)

theorem advances_disposeSubscription (sound : c.Sound) (sub : Nat)
    (subscription : ServiceSubscription S) (active : ActiveServiceListener U V D) (out : Outgoing) :
    c.Advances (c.disposeSubscription sub subscription active out).1
      (c.disposeSubscription sub subscription active out).2 := by
  have disposed : ∀ listeners subscriptions actives, c.SameRequests { c with
      serviceListeners := listeners
      subscriptions := subscriptions
      active := actives } := fun _ _ _ => ⟨⟨rfl, rfl, rfl, rfl⟩, rfl, rfl, rfl, rfl⟩
  rw [disposeSubscription]
  split_ifs
  · exact (disposed _ _ _).before (advances_request ((disposed _ _ _).sound sound) _ _ _ _ _)
  · exact (disposed _ _ _).advances sound

theorem isSome_markAborted (isPending : c.pendingRequests id = some pending) (other : Nat) :
    ((c.markAborted id pending).pendingRequests other).isSome =
      (c.pendingRequests other).isSome := by
  rw [markAborted]
  dsimp only
  rw [update_apply]
  split_ifs with own
  · rw [own, isPending]
    rfl
  · rfl

theorem Sound.markAborted (sound : c.Sound)
    (isPending : c.pendingRequests id = some pending) : (c.markAborted id pending).Sound where
  connected other present := sound.connected other (isSome_markAborted isPending other ▸ present)
  issued other present := sound.issued other (isSome_markAborted isPending other ▸ present)
  settled other positive bound := by
    rw [isSome_markAborted isPending]
    exact sound.settled other positive bound
  unissued := sound.unissued
  current := sound.current
  chunk := sound.chunk
  older := sound.older
  matched := sound.matched

theorem advances_abort (sound : c.Sound) (isPending : c.pendingRequests id = some pending)
    (out : Outgoing) : c.Advances (c.abort id pending out).1 (c.abort id pending out).2 := by
  have present : (c.pendingRequests id).isSome := by
    rw [isPending]
    rfl
  obtain ⟨conn, lifecycle⟩ := lifecycle_of_connected (sound.connected id present)
  have rejected := (sound.markAborted isPending).settle (sound.issued id present).2
    (.rejected .aborted)
  have kept : c.Kept ((c.markAborted id pending).settle id (.rejected .aborted)) :=
    kept_settle (c.markAborted id pending) id _
  have still : ((c.markAborted id pending).settle id (.rejected .aborted)).lifecycle =
      .connected conn := lifecycle
  rw [abort]
  rcases send_cases conn still (.cancel id pending.target) out with
    sent | ⟨error, other, failed⟩
  · rw [sent]
    have same : c.SameConnection
        ((c.markAborted id pending).settle id (.rejected .aborted)) := ⟨rfl, rfl, rfl, rfl⟩
    refine ⟨rejected, same.sends lifecycle _ fun other => ?_, kept⟩
    have marked := isSome_markAborted isPending other
    by_cases isSome : (c.pendingRequests other).isSome
    · rw [pendingCount_of_isSome isSome]
      exact pendingCount_of_isSome (marked.trans isSome)
    · rw [pendingCount_of_not_isSome isSome]
      refine pendingCount_of_not_isSome ?_
      rw [← marked] at isSome
      exact isSome
  · rw [failed]
    exact ⟨rejected.fail other, .ended (lifecycle_fail _ error) (connectionSequence_fail _ error),
      fun other outcome settled => kept_fail error other outcome (kept other outcome settled)⟩

/-- A message that is handled ends the connection or takes out the request it answers. -/
structure Handled (c next : Client S U W V D) (message : ServerMessage W V) : Prop where
  sound : next.Sound
  kept : c.Kept next
  moves : (next.lifecycle = .disconnected ∧
      next.connectionSequence = c.connectionSequence) ∨
    (next.lifecycle.connection? = c.lifecycle.connection? ∧
      next.connectionSequence = c.connectionSequence ∧
      next.chunkConnection = c.chunkConnection ∧ next.chunk = c.chunk ∧
      ∀ id, next.pendingCount id + (if message.isResponse id then 1 else 0) = c.pendingCount id)

theorem handled_fail (sound : c.Sound) (other : error ≠ .noMatchingRequest)
    (m : ServerMessage W V) : c.Handled (c.fail error) m where
  sound := sound.fail other
  kept := kept_fail error
  moves := .inl ⟨lifecycle_fail _ error, connectionSequence_fail _ error⟩

theorem SameRequests.handled (same : c.SameRequests next) (sound : c.Sound)
    (quiet : ∀ id, m.isResponse id = false) : c.Handled next m where
  sound := same.sound sound
  kept id outcome settled := by rw [same.promises, settled]
  moves := by
    refine .inr ⟨by rw [same.lifecycle], same.sequence, same.origin, same.chunk, fun id => ?_⟩
    rw [quiet, pendingCount, same.pendingRequests]
    rfl

theorem handled_finish (sound : c.Sound) (pending : (c.pendingRequests id).isSome)
    (outcome : Outcome S) (result : Except ProtocolError (Reply W)) :
    c.Handled ((c.takePendingRequest id).settle id outcome) (.response id result) where
  sound := sound.finish (sound.issued id pending).2 outcome
  kept := kept_finish id outcome
  moves := by
    refine .inr ⟨rfl, rfl, rfl, rfl, fun other => ?_⟩
    have balance := pendingCount_finish pending outcome other
    simpa only [ServerMessage.isResponse, decide_eq_true_eq] using balance

theorem Handled.after (handled : c.Handled next m)
    (same : next.SameRequests last) : c.Handled last m where
  sound := same.sound handled.sound
  kept id outcome settled := by
    rw [same.promises]
    exact handled.kept id outcome settled
  moves := by
    rcases handled.moves with ⟨lifecycle, sequence⟩ | ⟨lifecycle, sequence, origin, chunk, balance⟩
    · exact .inl ⟨same.lifecycle.trans lifecycle, same.sequence.trans sequence⟩
    · refine .inr ⟨by rw [same.lifecycle, lifecycle], same.sequence.trans sequence,
        same.origin.trans origin, same.chunk.trans chunk, fun id => ?_⟩
      rw [pendingCount, same.pendingRequests]
      exact balance id

/-- A promise that is not pending may be settled before or after the connection ends. -/
theorem fail_settle (absent : ¬(c.pendingRequests id).isSome) (error : ClientError)
    (outcome : Outcome S) :
    (c.fail error).settle id outcome = (c.settle id outcome).fail error := by
  unfold fail settle rejectPendingRequests
  dsimp only
  split_ifs
  · rfl
  · congr 1
    funext other
    rw [update_apply, update_apply]
    split_ifs with same pending <;> simp_all

theorem handled_resolveRequest (codec : StateCodec S U W V E D) (sound : c.Sound)
    (isPending : c.pendingRequests id = some pending) (reply : Reply W) :
    c.Handled ((c.takePendingRequest id).resolveRequest codec id pending reply)
      (.response id (.ok reply)) := by
  have present : (c.pendingRequests id).isSome := by
    rw [isPending]
    rfl
  have finished := fun outcome => handled_finish sound present outcome (.ok reply)
  have absent : ¬((c.takePendingRequest id).pendingRequests id).isSome :=
    fun some => ((isSome_takePendingRequest id id).mp some).1 rfl
  have failed : ∀ m, c.Handled
      (((c.takePendingRequest id).fail (.validation m)).settle id
        (.rejected (.validation m))) (.response id (.ok reply)) := by
    intro m
    rw [fail_settle absent]
    have done := finished (.rejected (.validation m))
    refine ⟨done.sound.fail (by simp), fun other outcome settled => ?_,
      .inl ⟨lifecycle_fail _ _, connectionSequence_fail _ _⟩⟩
    exact kept_fail _ other outcome (done.kept other outcome settled)
  unfold resolveRequest
  split
  · exact finished _
  · split
    · split
      · exact failed _
      · exact (finished _).after ⟨⟨rfl, rfl, rfl, rfl⟩, rfl, rfl, rfl, rfl⟩
    · exact failed _

theorem handled_handleUpdate (codec : StateCodec S U W V E D) (sound : c.Sound)
    (sub : Nat) (update : V) :
    c.Handled (c.handleUpdate codec sub update)
      (.serviceUpdate sub update : ServerMessage W V) := by
  have same : ∀ active, c.SameRequests (c.setActive sub active) :=
    fun _ => ⟨⟨rfl, rfl, rfl, rfl⟩, rfl, rfl, rfl, rfl⟩
  unfold handleUpdate
  split
  · rename_i active _ _
    by_cases waiting : active.hydrated = false
    · rw [if_pos waiting]
      exact (same _).handled sound fun _ => rfl
    · rw [if_neg waiting]
      split
      · exact handled_fail sound (by simp) _
      · exact (same _).handled sound fun _ => rfl
  · exact SameRequests.handled ⟨⟨rfl, rfl, rfl, rfl⟩, rfl, rfl, rfl, rfl⟩ sound fun _ => rfl

theorem handled_handleEnvelope (codec : StateCodec S U W V E D) (serverId : String)
    (sound : c.Sound) (m : ServerMessage W V)
    (answers : ∀ id, m.isResponse id = true → (c.pendingRequests id).isSome) :
    c.Handled (c.handleEnvelope codec serverId m) m := by
  have same : c.SameRequests c := ⟨⟨rfl, rfl, rfl, rfl⟩, rfl, rfl, rfl, rfl⟩
  cases m with
  | hello name => exact same.handled sound fun _ => rfl
  | helloError error => exact same.handled sound fun _ => rfl
  | serviceUpdate sub update => exact handled_handleUpdate codec sound _ _
  | attachment attachment =>
    have attached : c.SameRequests { c with attachment := attachment } :=
      ⟨⟨rfl, rfl, rfl, rfl⟩, rfl, rfl, rfl, rfl⟩
    rw [handleEnvelope]
    split_ifs
    · exact handled_fail sound (by simp) _
    · exact attached.handled sound fun _ => rfl
  | response id result =>
    have present := answers id (decide_eq_true rfl)
    obtain ⟨pending, isPending⟩ := Option.isSome_iff_exists.mp present
    rw [handleEnvelope, isPending]
    cases result with
    | error error => exact handled_finish sound present _ _
    | ok reply => exact handled_resolveRequest codec sound isPending reply

/-- The hello of the server completes a connection, on which nothing is pending. -/
theorem handled_connect (sound : c.Sound) (lifecycle : c.lifecycle = .connecting id true)
    (name : String) :
    c.Handled { c with lifecycle := .connected id, hello := some name } (.hello name) := by
  have none : ∀ other, c.pendingRequests other = none := by
    intro other
    by_contra present
    have connected := sound.connected other (Option.isSome_iff_ne_none.mpr present)
    rw [Client.connected, lifecycle] at connected
    cases connected
  refine ⟨?_, fun _ _ settled => settled, .inr ⟨?_, rfl, rfl, rfl, fun _ => rfl⟩⟩
  · refine { sound with connected := ?_, current := ?_, chunk := ?_ }
    · intro other present
      rw [none other] at present
      cases present
    · rintro other same
      exact sound.current other (by rw [lifecycle]; exact same)
    · rintro other same nonempty
      refine sound.chunk other (.inr ?_) nonempty
      rw [lifecycle]
      rcases same with same | same <;> cases same
      rfl
  · rw [lifecycle]
    rfl

theorem handled_handleMessage (codec : StateCodec S U W V E D) (serverId : String)
    (sound : c.Sound) (m : ServerMessage W V)
    (answers : ∀ id, c.connected = true → m.isResponse id = true →
      (c.pendingRequests id).isSome) : c.Handled (c.handleMessage codec serverId m) m := by
  have failed : ∀ error, error ≠ ClientError.noMatchingRequest →
      c.Handled (c.fail error) m := fun error other => handled_fail sound other _
  cases lifecycle : c.lifecycle with
  | disconnected =>
    unfold handleMessage
    rw [lifecycle]
    exact ⟨sound, fun _ _ settled => settled, .inl ⟨lifecycle, rfl⟩⟩
  | connecting id transport =>
    unfold handleMessage
    rw [lifecycle]
    cases m with
    | hello name =>
      dsimp only
      split_ifs with other opening
      · exact failed _ (by simp)
      · exact failed _ (by simp)
      · have opened : transport = true := by simpa using opening
        subst opened
        exact handled_connect sound lifecycle name
    | helloError error => exact failed _ (by simp)
    | response id result => exact failed _ (by simp)
    | serviceUpdate sub update => exact failed _ (by simp)
    | attachment attachment => exact failed _ (by simp)
  | connected id =>
    have isConnected : c.connected = true := by rw [Client.connected, lifecycle]
    have handled := handled_handleEnvelope codec serverId sound m
      fun id response => answers id isConnected response
    unfold handleMessage
    rw [lifecycle]
    cases m with
    | hello name => exact failed _ (by simp)
    | helloError error => exact failed _ (by simp)
    | response id result => exact handled
    | serviceUpdate sub update => exact handled
    | attachment attachment => exact handled

theorem lifecycle_handleMessage_opening (codec : StateCodec S U W V E D) (serverId : String)
    (opening : c.lifecycle = .connecting id false) (m : ServerMessage W V) :
    (c.handleMessage codec serverId m).lifecycle = .disconnected ∧
      (c.handleMessage codec serverId m).connectionSequence =
        c.connectionSequence := by
  have failed : ∀ error, (c.fail error).lifecycle = .disconnected ∧
      (c.fail error).connectionSequence = c.connectionSequence :=
    fun error => ⟨lifecycle_fail _ error, connectionSequence_fail _ error⟩
  unfold handleMessage
  rw [opening]
  cases m with
  | hello name =>
    dsimp only
    split_ifs
    · exact failed _
    · exact failed _
    · contradiction
  | helloError error => exact failed _
  | response id result => exact failed _
  | serviceUpdate sub update => exact failed _
  | attachment attachment => exact failed _

theorem Sound.withChunk (sound : c.Sound) (rest : List (ServerMessage W V))
    (fewer : rest ≠ [] → c.chunk ≠ []) : (c.withChunk rest).Sound where
  connected := sound.connected
  issued := sound.issued
  settled := sound.settled
  unissued := sound.unissued
  current := sound.current
  chunk id same nonempty := sound.chunk id same (fewer nonempty)
  older := sound.older
  matched := sound.matched

theorem advances_handle (codec : StateCodec S U W V E D) (serverId : String) (sound : c.Sound)
    (answers : ∀ id m later, c.connected = true → c.chunk = m :: later →
      m.isResponse id = true → (c.pendingRequests id).isSome)
    (taken : c.handle codec serverId = some next) : c.Advances next none := by
  rw [handle] at taken
  cases waiting : c.chunk with
  | nil =>
    rw [waiting] at taken
    cases taken
  | cons m later =>
    have nonempty : c.chunk ≠ [] := by
      rw [waiting]
      exact List.cons_ne_nil _ _
    rw [waiting] at taken
    dsimp only at taken
    split_ifs at taken with disconnected
    · cases taken
      exact ⟨sound.withChunk [] fun absurd => (absurd rfl).elim, .ended disconnected rfl,
        fun _ _ settled => settled⟩
    · cases taken
      have handled := handled_handleMessage codec serverId
        (sound.withChunk later fun _ => nonempty) m
        fun id connected response => answers id m later connected waiting response
      refine ⟨handled.sound, ?_, handled.kept⟩
      have moved : ∀ id, c.lifecycle = .connected id ∨ c.lifecycle = .connecting id true →
          c.Moves ((c.withChunk later).handleMessage codec serverId m) none := by
        intro id same
        have current : c.lifecycle.connection? = some id := by
          rcases same with same | same <;> rw [same] <;> rfl
        rcases handled.moves with ⟨lifecycle, sequence⟩ |
          ⟨lifecycle, sequence, origin, chunk, balance⟩
        · exact .ended lifecycle sequence
        · have own := sound.chunk id same nonempty
          exact .handles id m current (lifecycle.trans current) sequence own
            (origin.trans own) (by rw [chunk, waiting]; rfl) balance
      cases lifecycle : c.lifecycle with
      | disconnected => exact absurd lifecycle disconnected
      | connected id => exact moved id (.inl lifecycle)
      | connecting id transport =>
        cases transport with
        | true => exact moved id (.inr lifecycle)
        | false =>
          have opening : (c.withChunk later).lifecycle = .connecting id false := lifecycle
          have ended := lifecycle_handleMessage_opening codec serverId opening m
          exact .ended ended.1 ended.2

theorem Sound.reject (sound : c.Sound) (error : ClientError) :
    (c.rejectPendingRequests error).Sound where
  connected id present := absurd present (by simp [rejectPendingRequests])
  issued id present := absurd present (by simp [rejectPendingRequests])
  settled id positive bound := by
    refine .inl ?_
    unfold rejectPendingRequests
    dsimp only
    rcases sound.settled id positive bound with settled | pending
    · split_ifs
      · rfl
      · exact settled
    · rw [if_pos pending]
      rfl
  unissued id bound := by
    change c.requestSequence < id at bound
    have absent : ¬(c.pendingRequests id).isSome := fun pending =>
      absurd (sound.issued id pending).2 (Nat.not_le.mpr bound)
    unfold rejectPendingRequests
    dsimp only
    rw [if_neg absent]
    exact sound.unissued id bound
  current := sound.current
  chunk := sound.chunk
  older := sound.older
  matched := sound.matched

theorem advances_dispose (sound : c.Sound) : c.Advances c.dispose none := by
  have marked : c.SameRequests { c with disposed := true } :=
    ⟨⟨rfl, rfl, rfl, rfl⟩, rfl, rfl, rfl, rfl⟩
  have rejected := (marked.sound sound).reject .disposed
  have disposed : ClientError.disposed ≠ .noMatchingRequest := by simp
  have failed := advances_fail rejected disposed
  have after : Advances ({ c with disposed := true }.rejectPendingRequests .disposed)
      c.dispose none := failed.after ⟨⟨rfl, rfl, rfl, rfl⟩, rfl, rfl, rfl, rfl⟩
  refine ⟨after.sound, .ended ?_ ?_, fun id outcome settled => ?_⟩
  · unfold dispose
    exact lifecycle_fail _ _
  · unfold dispose
    exact connectionSequence_fail _ _
  · refine after.kept id outcome ?_
    unfold rejectPendingRequests
    dsimp only
    rw [settled]
    split_ifs <;> rfl

end

end Client

end Trpi.Remote
