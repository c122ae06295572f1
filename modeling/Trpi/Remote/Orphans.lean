import Trpi.Remote.HeldServer

/-!
# Subscriptions without a listener

On a connection that is at rest after a tidy run, the server holds state encoders for what the
client listens to. A call that is cancelled while its answer is on the way leaves one behind.
-/

namespace Trpi.Remote

open Option

open Library (Machine)

variable {S U W V E D : Type}

theorem follows_tracked (codec : StateCodec S U W V E D) (serverId : String) :
    Follows codec serverId (World.Tidy codec) (World.Ordered serverId)
      fun conn client link => link.isOpen = true → Tracked serverId none conn client link where
  opens w conn ordered opening untouched isOpen := by
    refine tracked_untouched untouched ?_ ordered.1.1.accounted.sound ordered.1.1.paired
    rw [Client.connected, opening]
  client w ev next out conn ordered after current stays ok taken tracked isOpen :=
    Tracked.client ordered ⟨current, isOpen⟩ stays ok taken (tracked isOpen)
  data w conn count ordered current idle tracked isOpen := by
    refine (tracked isOpen).mono rfl rfl ⟨rfl, rfl, fun _ => rfl, rfl⟩
      (fun _ _ _ => Iff.rfl) (fun id result mem => ?_) fun _ => rfl
    have former : w.client.flow conn (w.links conn) = (w.links conn).toClient := by
      rw [Client.flow, idle, ite_self, List.nil_append]
    rw [former]
    unfold Client.flow at mem
    rw [if_pos rfl] at mem
    rw [← List.take_append_drop count (w.links conn).toClient]
    exact mem
  server w ev link conn ordered after current ok taken tracked isOpen := by
    have wasOpen := ((Link.keeps_step taken).eq isOpen).1
    exact Tracked.server ordered ⟨current, wasOpen⟩ ok taken isOpen (tracked wasOpen)

/-- No message is in flight on the connection, and no call is being handled at either end. -/
structure World.Resting (w : World S U W V E D) (connectionId : Nat) : Prop where
  chunk : w.client.chunk = []
  toServer : (w.links connectionId).toServer = []
  deferred : (w.links connectionId).deferred = []
  toClient : (w.links connectionId).toClient = []
  handled : ∀ id, (w.links connectionId).activeRequests id = none
  returned : ∀ subscriptionId, w.client.subscribing subscriptionId = none

/-- After a tidy run, a connection that is at rest holds what the client listens to. -/
theorem held_iff_listening (codec : StateCodec S U W V E D) (serverId : String)
    {w : World S U W V E D}
    (reached : (remoteMachine codec serverId).Reached (World.Tidy codec) w)
    {conn : Nat} (on : w.On conn) (resting : w.Resting conn)
    (sub : Nat) : (w.links conn).holds sub = w.client.serviceListeners sub := by
  have known : (remoteMachine codec serverId).Inductive (World.Tidy codec)
      (World.Ordered serverId) :=
    (inductive_orderly codec serverId _).and (inductive_homed codec serverId _)
  obtain ⟨ordered, follows⟩ := ((follows_tracked codec serverId).inductive_
    (fun _ ordered => ordered.1.1.toGrounded) known).reached reached
  have tracked := follows conn on.current on.isOpen
  have silent : ∀ id target call, ¬(w.links conn).Asks id target call := by
    rintro id target call (waits | ⟨handler, active, -⟩)
    · rw [Link.waiting, resting.deferred, resting.toServer] at waits
      cases waits
    · rw [resting.handled] at active
      cases active
  rw [Bool.eq_iff_iff]
  constructor
  · intro isHeld
    rcases tracked.held sub (fun absurd => by cases absurd) isHeld with
      listening | ⟨id, target, asks, -⟩
    · exact listening
    · exact absurd asks (silent _ _ _)
  · intro listening
    rcases ordered.1.1.paired.listening sub listening with waits | obtained
    · rw [resting.returned] at waits
      cases waits
    · exact tracked.obtained sub obtained listening

namespace World

variable {w : World S U W V E D}

instance (w : World S U W V E D) (connectionId : Nat) : Decidable (w.On connectionId) :=
  decidable_of_iff (w.client.lifecycle.connection? = some connectionId ∧
      (w.links connectionId).isOpen = true)
    ⟨fun both => ⟨both.1, both.2⟩, fun on => ⟨on.current, on.isOpen⟩⟩

def seemsTidy (w : World S U W V E D) : Event S U → Bool
  | .client (.request _ (.other _ _) _ _) => true
  | .client (.request ..) => false
  | .client (.abort _ out) => out ≠ .sent
  | .client (.disposeSubscription subscriptionId out) =>
    (w.client.active subscriptionId).all fun active =>
      w.client.targetIsCurrent active.target && out ≠ .tooLong
  | .server _ (.returns id (.snapshot _) _) =>
    (w.client.pendingRequests id).all fun pending => !pending.aborted
  | .server _ (.returns _ (.error _) _) => false
  | _ => true

theorem tidy_of_seemsTidy (codec : StateCodec S U W V E D) {ev : Event S U}
    (tidy : w.seemsTidy ev = true) : w.Tidy codec ev := by
  unfold seemsTidy at tidy
  split at tidy
  · exact ⟨_, _, rfl⟩
  · cases tidy
  · intro sent
    simp [sent] at tidy
  · intro conn active on isActive isHeld
    simpa [isActive] using tidy
  · intro encoded fits on pending sub isPending own
    simpa [isPending] using tidy
  · cases tidy
  · unfold Tidy
    split <;> grind

end World

/-- A subscription is obtained and disposed, after it another one is obtained. -/
def disposedRun : List (Event Nat Nat) :=
  handshake 1 ++ [
    .client (.subscribeService homeTarget "files" .singleton .live .sent),
    .server 1 (.receive true),
    .server 1 (.returns 1 (.snapshot 5) true),
    .server 1 (.sent 1 true),
    .data 1 1,
    .client .handle,
    .client (.resume 1),
    .client (.start 1),
    .client (.disposeSubscription 1 .sent),
    .client (.subscribeService homeTarget "files" .singleton .live .sent),
    .server 1 (.receive true),
    .server 1 (.receive true),
    .server 1 (.returns 2 .none true),
    .server 1 (.sent 2 true),
    .server 1 (.returns 3 (.snapshot 6) true),
    .server 1 (.sent 3 true), .data 1 2, .client .handle, .client .handle, .client (.resume 2)]

/-- A call is cancelled while its answer is on the way. -/
def orphanedRun : List (Event Nat Nat) :=
  handshake 1 ++ [
    .client (.subscribeService homeTarget "files" .singleton .live .sent),
    .server 1 (.receive true),
    .server 1 (.returns 1 (.snapshot 5) true),
    .client (.abort 1 .sent),
    .server 1 (.sent 1 true),
    .server 1 (.receive true), .data 1 1, .client .handle, .client (.resume 1)]

/-- Whether a connection is at rest. Requests and subscriptions that were not made are not asked
for. -/
def World.rests (w : World S U W V E D) (connectionId : Nat) : Bool :=
  w.client.chunk.isEmpty && (w.links connectionId).toServer.isEmpty &&
  (w.links connectionId).deferred.isEmpty && (w.links connectionId).toClient.isEmpty &&
  (List.range (w.client.requestSequence + 1)).all (fun id =>
    ((w.links connectionId).activeRequests id).isNone) &&
  (List.range (w.client.serviceSubscriptionSequence + 1)).all fun subscriptionId =>
    (w.client.subscribing subscriptionId).isNone

theorem World.Orderly.resting {w : World S U W V E D} (orderly : w.Orderly)
    {conn : Nat} (on : w.On conn) (rests : w.rests conn = true) : w.Resting conn := by
  simp only [World.rests, Bool.and_eq_true, List.isEmpty_iff, List.all_eq_true, List.mem_range,
    isNone_iff_eq_none] at rests
  obtain ⟨⟨⟨⟨⟨chunk, toServer⟩, deferred⟩, toClient⟩, handled⟩, returned⟩ := rests
  have alive : (w.links conn).stage ≠ .closed := by
    intro closed
    have isOpen := on.isOpen
    rw [Link.isOpen, closed] at isOpen
    cases isOpen
  refine ⟨chunk, toServer, deferred, toClient, fun id => ?_, fun sub => ?_⟩
  · by_cases issued : id ≤ w.client.requestSequence
    · exact handled id (Nat.lt_succ_of_le issued)
    · by_contra active
      exact issued ((orderly.2 conn on.current alive).issued id
        (.inl (isSome_iff_ne_none.mpr active)))
  · by_cases issued : sub ≤ w.client.serviceSubscriptionSequence
    · exact returned sub (Nat.lt_succ_of_le issued)
    · exact (orderly.1.paired.bound sub (Nat.lt_of_not_le issued)).2.1

theorem held_iff_listening_sample : ∃ w : World Nat Nat Nat Nat Unit Unit,
    w.On 1 ∧ w.client.serviceListeners 1 = false ∧
    w.client.serviceListeners 2 = true ∧ ∀ sub,
      (w.links 1).holds sub = w.client.serviceListeners sub := by
  have started : (remoteMachine (.plain : StateCodec Nat Nat Nat Nat Unit Unit) "home").Reached
      (fun w ev => w.seemsTidy ev = true) .create := .start rfl
  have ran : ((remoteMachine (.plain : StateCodec Nat Nat Nat Nat Unit Unit) "home").exec
      (fun w ev => w.seemsTidy ev = true) .create disposedRun).isSome := by decide
  obtain ⟨w, last⟩ := isSome_iff_exists.mp ran
  have held : ((remoteMachine (.plain : StateCodec Nat Nat Nat Nat Unit Unit) "home").exec
      (fun w ev => w.seemsTidy ev = true) .create disposedRun).map (fun w =>
        (decide (w.On 1), w.rests 1, w.client.serviceListeners 1,
          w.client.serviceListeners 2)) = some (true, true, false, true) := by decide
  rw [last, map_some, some_inj] at held
  simp only [Prod.mk.injEq, decide_eq_true_eq] at held
  obtain ⟨on, rests, first, second⟩ := held
  have reached := (started.exec last).mono fun _ _ => World.tidy_of_seemsTidy .plain
  have orderly := (inductive_orderly _ _ _).reached reached
  exact ⟨w, on, first, second, held_iff_listening .plain "home" reached on
    (orderly.resting on rests)⟩

/-- The server holds a state encoder for a call that was cancelled when its answer was on the
way. -/
theorem subscription_orphaned : ∃ w : World Nat Nat Nat Nat Unit Unit,
    (remoteMachine .plain "home").Reached (fun _ _ => True) w ∧ w.On 1 ∧
    w.Resting 1 ∧ (w.links 1).holds 1 = true ∧ w.client.serviceListeners 1 = false := by
  have started : (remoteMachine (.plain : StateCodec Nat Nat Nat Nat Unit Unit) "home").Reached
      (fun _ _ => True) .create := .start rfl
  have ran : ((remoteMachine (.plain : StateCodec Nat Nat Nat Nat Unit Unit) "home").exec
      (fun _ _ => True) .create orphanedRun).isSome := by decide
  obtain ⟨w, last⟩ := isSome_iff_exists.mp ran
  have held : ((remoteMachine (.plain : StateCodec Nat Nat Nat Nat Unit Unit) "home").exec
      (fun _ _ => True) .create orphanedRun).map (fun w =>
        (decide (w.On 1), w.rests 1, (w.links 1).holds 1,
          w.client.serviceListeners 1)) = some (true, true, true, false) := by decide
  rw [last, map_some, some_inj] at held
  simp only [Prod.mk.injEq, decide_eq_true_eq] at held
  obtain ⟨on, rests, isHeld, deaf⟩ := held
  have reached := started.exec last
  have orderly := (inductive_orderly _ _ _).reached reached
  exact ⟨w, reached, on, orderly.resting on rests, isHeld, deaf⟩

end Trpi.Remote
