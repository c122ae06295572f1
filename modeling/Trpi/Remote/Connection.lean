import Trpi.Remote.RequestsSettle

/-!
# The connection there is

What holds of the client and its connection in every reached world: it holds when the connection
is opened, and the client, the data that arrives and the server's end keep it while the
connection is the client's.
-/

namespace Trpi.Remote

open Option Function
open Library (Machine)

variable {S U W V E D : Type}

namespace Link

/-- A connection on which nothing was sent by the client. -/
structure Untouched (link : Link S U W V E) : Prop where
  stage : link.stage ≠ .handshaking ∧ link.stage ≠ .ready
  toServer : link.toServer = []
  deferred : link.deferred = []
  activeRequests : ∀ id, link.activeRequests id = none
  publishers : ∀ id, link.publishers id = none
  encoders : ∀ subscriptionId, link.serviceStateEncoders subscriptionId = none
  toClient : ∀ message ∈ link.toClient, ∃ attachment, message = .attachment attachment

theorem untouched_create : (create : Link S U W V E).Untouched where
  stage := ⟨by simp [create], by simp [create]⟩
  toServer := rfl
  deferred := rfl
  activeRequests _ := rfl
  publishers _ := rfl
  encoders _ := rfl
  toClient _ absurd := nomatch absurd

theorem Untouched.disconnect {link : Link S U W V E} (untouched : link.Untouched) :
    link.disconnect.Untouched where
  stage := ⟨by simp [Link.disconnect], by simp [Link.disconnect]⟩
  toServer := untouched.toServer
  deferred := rfl
  activeRequests _ := rfl
  publishers := untouched.publishers
  encoders _ := rfl
  toClient := untouched.toClient

theorem Untouched.step {codec : StateCodec S U W V E D} {serverId : String}
    {link next : Link S U W V E} (untouched : link.Untouched) {ev : ServerEvent S U}
    (taken : link.step codec serverId ev = some next) : next.Untouched := by
  cases ev with
  | receive fits =>
    rw [Link.step, untouched.toServer] at taken
    cases taken
  | attached fits =>
    rw [Link.step, if_neg fun both => untouched.stage.1 both.1] at taken
    cases taken
  | ready =>
    rw [Link.step, if_neg fun both => untouched.stage.1 both.1] at taken
    cases taken
  | dispatchDeferred fits =>
    rw [Link.step, untouched.deferred] at taken
    cases taken
  | returns id result fits =>
    rw [Link.step, untouched.activeRequests] at taken
    cases taken
  | sent id fits =>
    rw [Link.step, untouched.activeRequests] at taken
    cases taken
  | publish id update fits =>
    rw [Link.step, untouched.publishers] at taken
    cases taken
  | publishAttachment attachment fits =>
    rw [Link.step] at taken
    split_ifs at taken
    cases taken
    rw [sendMessage]
    split_ifs
    · refine ⟨untouched.stage, untouched.toServer, untouched.deferred, untouched.activeRequests,
        untouched.publishers, untouched.encoders, fun m sent => ?_⟩
      rcases List.mem_append.mp sent with old | new
      · exact untouched.toClient m old
      · exact ⟨attachment, List.mem_singleton.mp new⟩
    · exact untouched.disconnect
  | close =>
    rw [Link.step] at taken
    split_ifs at taken
    cases taken
    exact ⟨⟨by simp, by simp⟩, untouched.toServer, untouched.deferred, untouched.activeRequests,
      untouched.publishers, untouched.encoders, untouched.toClient⟩
  | disconnect =>
    cases taken
    exact untouched.disconnect

def queue (link : Link S U W V E) (messages : List ClientMessage) : Link S U W V E :=
  { link with toServer := link.toServer ++ messages }

def drop (link : Link S U W V E) (count : Nat) : Link S U W V E :=
  { link with toClient := link.toClient.drop count }

theorem queue_nil (link : Link S U W V E) : link.queue [] = link := by
  rw [queue, List.append_nil]

end Link

namespace World

variable {w next : World S U W V E D}

theorem links_afterClient (w : World S U W V E D)
    (result : Client S U W V D × Option (Nat × ClientMessage)) (conn : Nat) :
    (w.afterClient result).links conn = (w.links conn).queue (sentOn result.2 conn) := by
  obtain ⟨c, _ | ⟨receiver, m⟩⟩ := result
  · exact (Link.queue_nil _).symm
  · unfold afterClient
    dsimp only
    rw [update_apply, sentOn]
    split_ifs with same other other
    · rw [same]
      rfl
    · exact absurd same.symm other
    · exact absurd other.symm same
    · exact (Link.queue_nil _).symm

/-- Requests are accounted for, and connections to come are untouched. -/
structure Grounded (w : World S U W V E D) : Prop where
  accounted : w.Accounted
  untouched : ∀ connectionId, w.client.connectionSequence < connectionId →
    (w.links connectionId).Untouched

/-- The connection is the client's. -/
def Current (w : World S U W V E D) (connectionId : Nat) : Prop :=
  w.client.lifecycle.connection? = some connectionId

variable {result : Client S U W V D × Option (Nat × ClientMessage)}

theorem Accounted.advances {codec : StateCodec S U W V E D} {serverId : String}
    (accounted : w.Accounted) {ev : ClientEvent}
    (taken : w.client.step codec serverId ev = some result) :
    w.client.Advances result.1 result.2 :=
  Client.advances_step accounted.sound (fun _ _ _ => accounted.answers) taken

theorem sentOn_of_advances (accounted : w.Accounted)
    (advances : w.client.Advances result.1 result.2) {conn : Nat}
    (later : w.client.connectionSequence < conn) : sentOn result.2 conn = [] := by
  obtain ⟨c, out⟩ := result
  cases advances.moves with
  | ended lifecycle sequence => rfl
  | opens before after sequence chunk => rfl
  | handles handled m before after sequence origin originAfter chunk balance => rfl
  | stays before sequence origin chunk _ goes balance =>
    refine sentOn_of_not_goes fun receiver m sent => ?_
    have current := accounted.sound.current receiver (goes receiver m sent)
    omega

theorem connectionSequence_of_advances (advances : w.client.Advances result.1 result.2) :
    w.client.connectionSequence ≤ result.1.connectionSequence := by
  obtain ⟨c, out⟩ := result
  cases advances.moves with
  | ended lifecycle sequence => exact Nat.le_of_eq sequence.symm
  | opens before after sequence chunk =>
    rw [sequence]
    exact Nat.le_succ _
  | handles handled m before after sequence origin originAfter chunk balance =>
    exact Nat.le_of_eq sequence.symm
  | stays before sequence origin chunk _ goes balance => exact Nat.le_of_eq sequence.symm

theorem connectionSequence_handleData (c : Client S U W V D) (id : Nat)
    (messages : List (ServerMessage W V)) :
    (c.handleData id messages).connectionSequence = c.connectionSequence := by
  rcases c.handleData_cases id messages with ⟨error, -, same⟩ | ⟨-, same⟩ | ⟨-, same⟩
  · rw [same, Client.connectionSequence_fail]
  · rw [same]
  · rw [same]

theorem inductive_grounded (codec : StateCodec S U W V E D) (serverId : String) :
    (remoteMachine codec serverId).Inductive (fun _ _ => True) Grounded where
  start _ initial := initial ▸ ⟨accounted_create, fun _ _ => Link.untouched_create⟩
  step w ev next grounded _ taken := by
    refine ⟨(grounded.accounted.step taken).1, fun conn later => ?_⟩
    cases ev with
    | client ev =>
      obtain ⟨result, same, rfl⟩ := map_eq_some_iff.mp taken
      have advances := grounded.accounted.advances same
      have still : w.client.connectionSequence < conn :=
        Nat.lt_of_le_of_lt (connectionSequence_of_advances advances) later
      rw [links_afterClient, sentOn_of_advances grounded.accounted advances still, Link.queue_nil]
      exact grounded.untouched conn still
    | data receiver count =>
      simp only [remoteMachine, World.step] at taken
      split at taken
      · cases taken
      · cases taken
        dsimp only at later ⊢
        rw [connectionSequence_handleData] at later
        have untouched := grounded.untouched conn later
        rw [update_apply]
        split_ifs with same
        · subst same
          exact ⟨untouched.stage, untouched.toServer, untouched.deferred, untouched.activeRequests,
            untouched.publishers, untouched.encoders,
            fun m left => untouched.toClient m (List.mem_of_mem_drop left)⟩
        · exact untouched
    | server receiver ev =>
      obtain ⟨link, same, rfl⟩ := map_eq_some_iff.mp taken
      have untouched := grounded.untouched conn later
      dsimp only
      rw [update_apply]
      split_ifs with own
      · subst own
        exact untouched.step same
      · exact untouched

end World

/-- A property of the client and its connection is kept while the connection lasts; `base` is what
is known of all reached worlds. -/
structure Follows (codec : StateCodec S U W V E D) (serverId : String)
    (allowed : World S U W V E D → Event S U → Prop) (base : World S U W V E D → Prop)
    (P : Nat → Client S U W V D → Link S U W V E → Prop) : Prop where
  opens : ∀ w connectionId, base w →
    w.client.lifecycle = .connecting connectionId false →
    (w.links connectionId).Untouched → P connectionId w.client (w.links connectionId)
  client : ∀ w event next out connectionId, base w →
    base (w.afterClient (next, out)) → w.Current connectionId →
    next.lifecycle.connection? = some connectionId → allowed w (.client event) →
    w.client.step codec serverId event = some (next, out) →
    P connectionId w.client (w.links connectionId) →
    P connectionId next ((w.links connectionId).queue (World.sentOn out connectionId))
  data : ∀ w connectionId count, base w → w.Current connectionId →
    w.client.chunk = [] → P connectionId w.client (w.links connectionId) →
    P connectionId { w.client with
      chunk := (w.links connectionId).toClient.take count
      chunkConnection := connectionId } ((w.links connectionId).drop count)
  server : ∀ w event link connectionId, base w →
    base { w with links := Function.update w.links connectionId link } →
    w.Current connectionId → allowed w (.server connectionId event) →
    (w.links connectionId).step codec serverId event = some link →
    P connectionId w.client (w.links connectionId) → P connectionId w.client link

section

variable {codec : StateCodec S U W V E D} {serverId : String}
  {allowed : World S U W V E D → Event S U → Prop} {base : World S U W V E D → Prop}
  {P : Nat → Client S U W V D → Link S U W V E → Prop}

section

variable (follows : Follows codec serverId allowed base P) (grounded : ∀ w, base w → w.Grounded)

include follows grounded

theorem Follows.step {w next : World S U W V E D}
    {ev : Event S U} (before : base w) (after : base next) (ok : allowed w ev)
    (taken : w.step codec serverId ev = some next)
    (holds : ∀ conn, w.Current conn → P conn w.client (w.links conn)) (conn : Nat)
    (current : next.Current conn) : P conn next.client (next.links conn) := by
  have known := grounded w before
  cases ev with
  | client ev =>
    obtain ⟨⟨client, out⟩, same, rfl⟩ := map_eq_some_iff.mp taken
    have stays : w.Current conn → P conn client ((w.afterClient (client, out)).links conn) := by
      intro was
      rw [World.links_afterClient]
      exact follows.client w ev client out conn before after was current ok same (holds conn was)
    have advances := known.accounted.advances same
    change client.lifecycle.connection? = _ at current
    cases advances.moves with
    | ended lifecycle sequence =>
      rw [show client.lifecycle = _ from lifecycle] at current
      cases current
    | opens was opened sequence chunk =>
      change client.lifecycle = _ at opened
      have later : conn = w.client.connectionSequence + 1 := by
        rw [opened] at current
        exact (some.inj current).symm
      refine follows.opens _ conn after (by rw [later]; exact opened) ?_
      rw [World.links_afterClient, World.sentOn, Link.queue_nil]
      exact known.untouched conn (by omega)
    | handles handled m was same sequence origin originAfter chunk balance =>
      have own : handled = conn := some.inj (same.symm.trans current)
      exact stays (own ▸ was)
    | stays was sequence origin chunk _ goes balance => exact stays (was.symm.trans current)
  | data receiver count =>
    rw [World.step] at taken
    split at taken
    · cases taken
    · rename_i idle
      cases taken
      change (w.client.handleData receiver _).lifecycle.connection? = _ at current
      dsimp only
      rcases w.client.handleData_cases receiver
        ((w.links receiver).toClient.take count) with
        ⟨error, -, same⟩ | ⟨elsewhere, same⟩ | ⟨here, same⟩
      · rw [same, Client.lifecycle_fail] at current
        cases current
      · rw [same] at current ⊢
        have apart : conn ≠ receiver := by
          rintro rfl
          exact elsewhere current
        rw [update_of_ne apart]
        exact holds conn current
      · rw [same] at current ⊢
        obtain rfl := some.inj (here.symm.trans current)
        rw [update_self]
        exact follows.data w receiver count before here idle (holds receiver here)
  | server receiver ev =>
    obtain ⟨link, same, rfl⟩ := map_eq_some_iff.mp taken
    dsimp only
    rw [update_apply]
    split_ifs with own
    · subst own
      exact follows.server w ev link conn before after current ok same (holds conn current)
    · exact holds conn current

/-- It holds of the connection there is in every reached world. -/
theorem Follows.inductive_ (known : (remoteMachine codec serverId).Inductive allowed base) :
    (remoteMachine codec serverId).Inductive allowed fun w =>
      base w ∧ ∀ conn, w.Current conn → P conn w.client (w.links conn) where
  start w initial := by
    refine ⟨known.start w initial, fun conn current => ?_⟩
    obtain rfl : w = .create := initial
    cases current
  step w ev next holds ok taken := by
    have after := known.step w ev next holds.1 ok taken
    exact ⟨after, follows.step grounded holds.1 after ok taken holds.2⟩

end

end

/-!
## Steps of a client that keep its connection

What the client is after a step, if the step does not end the connection: one description for
each way a request or a message can go.
-/

def newRequest (target : RpcTarget) (subscriptionId : Option Nat) (signal : Signal) :
    PendingRequest where
  target := target
  subscriptionId := subscriptionId
  signal := decide (signal = .live)
  aborted := false

namespace Client

variable {c next : Client S U W V D}

def dropRequest (c : Client S U W V D) (pending : PendingRequest) : Client S U W V D :=
  ((c.registerRequest pending).takePendingRequest (c.requestSequence + 1)).settle
    (c.requestSequence + 1) (.rejected .encoding)

inductive Requests (c : Client S U W V D) (conn : Nat) (target : RpcTarget)
    (call : ServiceCall) (signal : Signal) (subscriptionId : Option Nat) (out : Outgoing) :
    (Client S U W V D × Option (Nat × ClientMessage)) × Except ClientError Nat → Prop where
  | refused (error : ClientError)
      (why : c.disposed = true ∨ c.connected = false ∨ signal = .aborted) :
      Requests c conn target call signal subscriptionId out ((c, none), .error error)
  | dropped (lifecycle : c.lifecycle = .connected conn) (long : out = .tooLong) :
      Requests c conn target call signal subscriptionId out
        ((c.dropRequest (newRequest target subscriptionId signal), none),
          .ok (c.requestSequence + 1))
  | sent (lifecycle : c.lifecycle = .connected conn) (fits : out = .sent) :
      Requests c conn target call signal subscriptionId out
        ((c.registerRequest (newRequest target subscriptionId signal),
          some (conn, .request (c.requestSequence + 1) target call)), .ok (c.requestSequence + 1))

theorem fail_apart (c : Client S U W V D) (error : ClientError) (conn : Nat) :
    (c.fail error).lifecycle.connection? ≠ some conn := by
  rw [lifecycle_fail]
  exact fun absurd => nomatch absurd

variable {conn : Nat}

theorem send_of_stays (connected : c.connected = true) {m : ClientMessage} {out : Outgoing}
    (stays : (c.send m out).1.lifecycle.connection? = some conn) :
    out = .sent ∧ c.send m out = (c, some (conn, m)) := by
  obtain ⟨current, lifecycle⟩ := lifecycle_of_connected connected
  unfold send at stays ⊢
  rw [lifecycle] at stays ⊢
  cases out with
  | sent =>
    dsimp only at stays
    rw [lifecycle] at stays
    cases stays
    exact ⟨rfl, rfl⟩
  | tooLong => exact absurd stays (fail_apart _ _ _)
  | throws => exact absurd stays (fail_apart _ _ _)

theorem requests_of_stays (target : RpcTarget) (call : ServiceCall) (signal : Signal)
    (sub : Option Nat) (out : Outgoing)
    (stays : (c.request target call signal sub out).1.1.lifecycle.connection? =
      some conn) :
    c.Requests conn target call signal sub out (c.request target call signal sub out) := by
  revert stays
  unfold request
  split_ifs with disposed apart aborted
  · exact fun _ => .refused _ (.inl disposed)
  · exact fun _ => .refused _ (.inr (.inl apart))
  · exact fun _ => .refused _ (.inr (.inr aborted))
  · obtain ⟨current, lifecycle⟩ := lifecycle_of_connected (by simpa using apart)
    have registered : ∀ pending, (c.registerRequest pending).lifecycle =
        .connected current := fun _ => lifecycle
    intro stays
    cases out with
    | tooLong =>
      change c.lifecycle.connection? = _ at stays
      rw [lifecycle] at stays
      cases stays
      exact .dropped lifecycle rfl
    | sent =>
      dsimp only at stays ⊢
      unfold send at stays ⊢
      rw [registered] at stays ⊢
      dsimp only at stays ⊢
      change c.lifecycle.connection? = _ at stays
      rw [lifecycle] at stays
      cases stays
      exact .sent lifecycle rfl
    | throws =>
      dsimp only at stays
      unfold send at stays
      rw [registered] at stays
      exact absurd stays (fail_apart _ _ _)

/-- What a message of the connection does, if it does not end it. -/
inductive Takes (codec : StateCodec S U W V E D) (c : Client S U W V D) :
    ServerMessage W V → Client S U W V D → Prop where
  | greeted (name : String) (id : Nat) (opening : c.lifecycle = .connecting id true) :
      Takes codec c (.hello name) { c with lifecycle := .connected id, hello := some name }
  | attached (attachment : Option RpcTarget) :
      Takes codec c (.attachment attachment) { c with attachment := attachment }
  | ignored (subscriptionId : Nat) (wire : V)
      (deaf : c.serviceListeners subscriptionId = true →
        c.active subscriptionId = none) : Takes codec c (.serviceUpdate subscriptionId wire) c
  | queued (subscriptionId : Nat) (wire : V) (active : ActiveServiceListener U V D)
      (listening : c.serviceListeners subscriptionId = true)
      (isActive : c.active subscriptionId = some active) (early : active.hydrated = false) :
      Takes codec c (.serviceUpdate subscriptionId wire)
        (c.setActive subscriptionId
          { active with queuedWireUpdates := active.queuedWireUpdates ++ [wire] })
  | updated (subscriptionId : Nat) (wire : V) (active : ActiveServiceListener U V D)
      (decoder : D) (update : U) (listening : c.serviceListeners subscriptionId = true)
      (isActive : c.active subscriptionId = some active) (late : active.hydrated = true)
      (decoded : codec.decodeUpdate active.decoder wire = .ok (decoder, update)) :
      Takes codec c (.serviceUpdate subscriptionId wire)
        (c.setActive subscriptionId (active.receive decoder update))
  | refused (id : Nat) (error : ProtocolError) (pending : PendingRequest)
      (isPending : c.pendingRequests id = some pending) :
      Takes codec c (.response id (.error error))
        ((c.takePendingRequest id).settle id (.rejected (.server error)))
  | answered (id : Nat) (reply : Reply W) (pending : PendingRequest)
      (isPending : c.pendingRequests id = some pending)
      (plain : pending.subscriptionId = none) :
      Takes codec c (.response id (.ok reply))
        ((c.takePendingRequest id).settle id (.resolved none))
  | subscribed (id : Nat) (wire : W) (pending : PendingRequest) (subscriptionId : Nat)
      (active hydrated : ActiveServiceListener U V D) (snapshot : S)
      (isPending : c.pendingRequests id = some pending)
      (subscribing : pending.subscriptionId = some subscriptionId)
      (isActive : c.active subscriptionId = some active)
      (decoded : hydrate codec active wire = .ok (hydrated, snapshot)) :
      Takes codec c (.response id (.ok (.snapshot wire)))
        (((c.takePendingRequest id).setActive subscriptionId hydrated).settle id
          (.resolved (some snapshot)))

section

variable (codec : StateCodec S U W V E D)

theorem takes_handleUpdate (sub : Nat) (wire : V)
    (stays : (c.handleUpdate codec sub wire).lifecycle.connection? =
      some conn) : Takes codec c (.serviceUpdate sub wire)
      (c.handleUpdate codec sub wire) := by
  revert stays
  unfold handleUpdate
  split
  · rename_i active listening isActive
    split_ifs with early
    · exact fun _ => .queued _ _ _ listening isActive early
    · split
      · exact fun stays => absurd stays (fail_apart _ _ _)
      · rename_i d update decoded
        exact fun _ => .updated _ _ _ _ _ listening isActive (by simpa using early) decoded
  · rename_i deaf
    refine fun _ => .ignored _ _ fun listening => ?_
    cases isActive : c.active sub with
    | none => rfl
    | some active => exact absurd isActive (deaf active listening)

theorem takes_resolveRequest {id : Nat}
    {pending : PendingRequest} (isPending : c.pendingRequests id = some pending)
    (reply : Reply W) (stays : ((c.takePendingRequest id).resolveRequest codec id pending
      reply).lifecycle.connection? = some conn) :
    Takes codec c (.response id (.ok reply))
      ((c.takePendingRequest id).resolveRequest codec id pending reply) := by
  revert stays
  unfold resolveRequest
  split
  · rename_i plain
    exact fun _ => .answered _ _ _ isPending plain
  · rename_i sub subscribing
    split
    · rename_i wire active isActive
      split
      · exact fun stays => absurd stays (fail_apart _ _ _)
      · rename_i hydrated snapshot decoded
        exact fun _ => .subscribed _ _ _ _ _ _ _ isPending subscribing isActive decoded
    · exact fun stays => absurd stays (fail_apart _ _ _)

theorem takes_handleMessage (serverId : String) (m : ServerMessage W V)
    (stays : (c.handleMessage codec serverId m).lifecycle.connection? =
      some conn) : Takes codec c m (c.handleMessage codec serverId m) := by
  revert stays
  unfold handleMessage
  split
  · rename_i disconnected
    intro stays
    rw [disconnected] at stays
    cases stays
  · rename_i id transport opening
    split
    · exact fun stays => absurd stays (fail_apart _ _ _)
    · split_ifs with other early
      · exact fun stays => absurd stays (fail_apart _ _ _)
      · exact fun stays => absurd stays (fail_apart _ _ _)
      · exact fun _ => .greeted _ _ (by rw [opening]; simpa using early)
    · exact fun stays => absurd stays (fail_apart _ _ _)
  · split
    · exact fun stays => absurd stays (fail_apart _ _ _)
    · exact fun stays => absurd stays (fail_apart _ _ _)
    · rename_i notHello notHelloError
      unfold handleEnvelope
      split
      · split_ifs
        · exact fun stays => absurd stays (fail_apart _ _ _)
        · exact fun _ => .attached _
      · exact takes_handleUpdate codec _ _
      · split
        · exact fun stays => absurd stays (fail_apart _ _ _)
        · rename_i pending isPending
          split
          · exact fun _ => .refused _ _ _ isPending
          · exact takes_resolveRequest codec isPending _
      · rename_i notAttachment notUpdate notResponse
        cases m with
        | hello name => exact absurd rfl (notHello name)
        | helloError error => exact absurd rfl (notHelloError error)
        | response id result => exact absurd rfl (notResponse id result)
        | serviceUpdate sub update => exact absurd rfl (notUpdate sub update)
        | attachment attachment => exact absurd rfl (notAttachment attachment)

theorem takes_handle (serverId : String) (taken : c.handle codec serverId = some next)
    (stays : next.lifecycle.connection? = some conn) :
    ∃ m later, c.chunk = m :: later ∧ Takes codec (c.withChunk later) m next := by
  unfold handle at taken
  split at taken
  · cases taken
  · rename_i m later waiting
    split_ifs at taken with disconnected
    · cases taken
      change c.lifecycle.connection? = _ at stays
      rw [disconnected] at stays
      cases stays
    · cases taken
      exact ⟨m, later, waiting, takes_handleMessage codec serverId m stays⟩

end

end Client

end Trpi.Remote
