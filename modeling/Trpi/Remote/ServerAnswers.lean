import Trpi.Remote.Server

/-!
# Answers of a server

A request that was sent is under way until its response is received: it is still to be received
or dispatched, it is with the host, or its response is on the way. No event of the server loses
one or adds one, unless it ends the connection.
-/

namespace Trpi.Remote

variable {S U W V E D : Type}

def ClientMessage.isRequest (id : Nat) : ClientMessage → Bool
  | .request other _ _ => other = id
  | _ => false

def ServerMessage.isResponse (id : Nat) : ServerMessage W V → Bool
  | .response other _ => other = id
  | _ => false

def requestCount (id : Nat) (messages : List ClientMessage) : Nat :=
  messages.countP (ClientMessage.isRequest id)

def responseCount (id : Nat) (messages : List (ServerMessage W V)) : Nat :=
  messages.countP (ServerMessage.isResponse id)

@[simp] theorem requestCount_nil (id : Nat) : requestCount id [] = 0 := rfl

@[simp] theorem requestCount_append (id : Nat) (first second : List ClientMessage) :
    requestCount id (first ++ second) = requestCount id first + requestCount id second :=
  List.countP_append

@[simp] theorem requestCount_cons (id : Nat) (m : ClientMessage) (messages : List ClientMessage) :
    requestCount id (m :: messages) =
      requestCount id messages + if m.isRequest id then 1 else 0 :=
  List.countP_cons

@[simp] theorem responseCount_nil (id : Nat) :
    responseCount id ([] : List (ServerMessage W V)) = 0 := rfl

@[simp] theorem responseCount_append (id : Nat) (first second : List (ServerMessage W V)) :
    responseCount id (first ++ second) = responseCount id first + responseCount id second :=
  List.countP_append

@[simp] theorem responseCount_cons (id : Nat) (m : ServerMessage W V)
    (messages : List (ServerMessage W V)) :
    responseCount id (m :: messages) =
      responseCount id messages + if m.isResponse id then 1 else 0 :=
  List.countP_cons

namespace Link

/-- The connection is neither ended nor about to. -/
def isOpen (link : Link S U W V E) : Bool :=
  match link.stage with
  | .closing | .closed => false
  | _ => true

def unanswered (link : Link S U W V E) (id : Nat) : Nat :=
  match link.activeRequests id with
  | some handler => if handler.stage = .invoking then 1 else 0
  | none => 0

def underway (link : Link S U W V E) (id : Nat) : Nat :=
  requestCount id link.toServer + requestCount id link.deferred + link.unanswered id +
    responseCount id link.toClient

/-- What is under way stays so, together with what was gained; only an end of the connection
loses something. -/
structure Conserves (link next : Link S U W V E) (gain : Nat → Nat) : Prop where
  le : ∀ id, next.underway id ≤ link.underway id + gain id
  eq : next.isOpen = true → link.isOpen = true ∧ ∀ id, next.underway id = link.underway id + gain id

/-- Nothing gained. -/
abbrev Keeps (link next : Link S U W V E) : Prop := link.Conserves next fun _ => 0

section

variable {link next : Link S U W V E} {id : Nat} {handler : Handler} {gain : Nat → Nat}

theorem Conserves.of_eq (stage : next.stage = link.stage)
    (same : ∀ id, next.underway id = link.underway id + gain id) : link.Conserves next gain where
  le id := Nat.le_of_eq (same id)
  eq isOpen := by
    rw [Link.isOpen, stage] at isOpen
    exact ⟨isOpen, same⟩

theorem Conserves.trans {first second third : Link S U W V E} {more : Nat → Nat}
    (left : first.Conserves second gain) (right : second.Conserves third more) :
    first.Conserves third fun id => gain id + more id where
  le id := by
    have one := left.le id
    have two := right.le id
    omega
  eq isOpen := by
    obtain ⟨middle, rightSame⟩ := right.eq isOpen
    obtain ⟨firstOpen, leftSame⟩ := left.eq middle
    refine ⟨firstOpen, fun id => ?_⟩
    rw [rightSame, leftSame, Nat.add_assoc]

theorem Conserves.congr {other : Nat → Nat} (conserves : link.Conserves next gain)
    (same : ∀ id, gain id = other id) : link.Conserves next other := by
  rwa [← funext same]

theorem keeps_refl : link.Keeps link := .of_eq rfl fun _ => rfl

theorem unanswered_setHandler (link : Link S U W V E) (id : Nat) (handler : Option Handler) (other : Nat) :
    (link.setHandler id handler).unanswered other =
      if other = id then
        (match handler with
        | some handler => if handler.stage = .invoking then 1 else 0
        | none => 0)
      else link.unanswered other := by
  rw [unanswered, setHandler]
  dsimp only
  by_cases same : other = id
  · subst same
    rw [Function.update_self, if_pos rfl]
  · rw [Function.update_of_ne same, if_neg same]
    rfl

theorem underway_setHandler (link : Link S U W V E) (id : Nat) {handler : Option Handler}
    (stage : ∀ current, handler = some current → current.stage ≠ .invoking) (other : Nat) :
    (link.setHandler id handler).underway other + (if other = id then link.unanswered id else 0) =
      link.underway other := by
  have none : (link.setHandler id handler).unanswered other =
      if other = id then 0 else link.unanswered other := by
    rw [unanswered_setHandler]
    cases handler with
    | none => rfl
    | some handler => simp only [if_neg (stage handler rfl)]
  rw [underway, underway, none, setHandler]
  dsimp only
  by_cases same : other = id
  · subst same
    rw [if_pos rfl, if_pos rfl]
    omega
  · rw [if_neg same, if_neg same]
    omega

theorem keeps_setHandler (handler : Option Handler)
    (stage : ∀ current, handler = some current → current.stage ≠ .invoking)
    (idle : link.unanswered id = 0) : link.Keeps (link.setHandler id handler) := by
  refine .of_eq rfl fun other => ?_
  have same := underway_setHandler link id stage other
  rw [idle] at same
  split_ifs at same <;> omega

theorem keeps_setPublisher (link : Link S U W V E) (id : Nat) (publisher : Option (Publisher S U)) :
    link.Keeps (link.setPublisher id publisher) := .of_eq rfl fun _ => rfl

theorem keeps_setEncoder (link : Link S U W V E) (id : Nat) (encoder : Option E) :
    link.Keeps (link.setEncoder id encoder) := .of_eq rfl fun _ => rfl

theorem unanswered_disconnect (id : Nat) : link.disconnect.unanswered id = 0 := rfl

theorem conserves_disconnect (gain : Nat → Nat) : link.Conserves link.disconnect gain where
  le id := by
    rw [underway, underway, unanswered_disconnect]
    change requestCount id link.toServer + 0 + 0 + responseCount id link.toClient ≤ _
    omega
  eq isOpen := by cases isOpen

theorem conserves_sendMessage (link : Link S U W V E) (m : ServerMessage W V) (fits : Bool) :
    link.Conserves (link.sendMessage m fits)
      fun id => if m.isResponse id then 1 else 0 := by
  rw [sendMessage]
  split_ifs
  · refine .of_eq rfl fun id => ?_
    simp only [underway, unanswered, responseCount_append, responseCount_cons, responseCount_nil]
    omega
  · exact conserves_disconnect _

theorem conserves_answer (id : Nat) (stage : handler.stage ≠ .invoking)
    (result : Except ProtocolError (Reply W)) (fits : Bool) :
    link.Conserves ((link.setHandler id (some handler)).sendMessage (.response id result) fits)
      fun other => if other = id then 1 - link.unanswered id else 0 := by
  have sent := conserves_sendMessage (link.setHandler id (some handler)) (.response id result) fits
  have placed := underway_setHandler link id (fun current (same : some handler = some current) =>
    Option.some.inj same ▸ stage)
  have bound : link.unanswered id ≤ 1 := by
    rw [unanswered]
    split
    · split_ifs <;> omega
    · omega
  constructor
  · intro other
    have le := sent.le other
    have same := placed other
    simp only [ServerMessage.isResponse, decide_eq_true_eq, eq_comm (a := id)] at le
    split_ifs at le same ⊢ <;> omega
  · intro isOpen
    obtain ⟨wasOpen, all⟩ := sent.eq isOpen
    refine ⟨wasOpen, fun other => ?_⟩
    have eq := all other
    have same := placed other
    simp only [ServerMessage.isResponse, decide_eq_true_eq, eq_comm (a := id)] at eq
    split_ifs at eq same ⊢ <;> omega

theorem conserves_sendServiceUpdate (codec : StateCodec S U W V E D) (sub : Nat)
    (update : U) (fits : Bool) : link.Keeps (link.sendServiceUpdate codec sub update fits).1 := by
  rw [sendServiceUpdate]
  cases link.serviceStateEncoders sub with
  | none => exact keeps_refl
  | some encoder =>
    dsimp only
    rcases codec.encodeUpdate encoder update with ⟨after, refused | wire⟩
    · exact keeps_setEncoder _ _ _
    · exact ((keeps_setEncoder link sub (some after)).trans
        (conserves_sendMessage _ (.serviceUpdate sub wire) fits)).congr fun _ => rfl

theorem unanswered_of_none (free : link.activeRequests id = none) : link.unanswered id = 0 := by
  rw [unanswered, free]

theorem unanswered_of_invoking (active : link.activeRequests id = some handler)
    (invoking : handler.stage = .invoking) : link.unanswered id = 1 := by
  rw [unanswered, active]
  exact if_pos invoking

theorem unanswered_of_answered (active : link.activeRequests id = some handler)
    (answered : handler.stage ≠ .invoking) : link.unanswered id = 0 := by
  rw [unanswered, active]
  exact if_neg answered

theorem conserves_setHandler_invoking (free : link.activeRequests id = none)
    (invoking : handler.stage = .invoking) :
    link.Conserves (link.setHandler id (some handler)) fun other => if other = id then 1 else 0 := by
  refine .of_eq rfl fun other => ?_
  have placed := unanswered_setHandler link id (some handler) other
  rw [underway, underway, placed]
  change requestCount other link.toServer + requestCount other link.deferred + _ +
    responseCount other link.toClient = _
  by_cases same : other = id
  · subst same
    rw [unanswered_of_none free]
    simp only [if_pos invoking]
    omega
  · simp only [if_neg same]
    omega

theorem conserves_handleRequest (serverId : String) (id : Nat) (target : RpcTarget)
    (call : ServiceCall) (fits : Bool) :
    link.Conserves (link.handleRequest serverId id target call fits)
      fun other => if other = id then 1 else 0 := by
  rw [handleRequest]
  cases active : link.activeRequests id with
  | some handler =>
    rw [if_pos (by rfl)]
    exact (conserves_sendMessage link (.response id (.error alreadyActive)) fits).congr fun other => by
      simp only [ServerMessage.isResponse, decide_eq_true_eq, eq_comm (a := id)]
  | none =>
    have idle := unanswered_of_none active
    have answered : ∀ error : ProtocolError, ∀ handler : Handler,
        link.Conserves (link.respondError id handler error fits)
          fun other => if other = id then 1 else 0 := by
      intro error handler
      exact (conserves_answer id (by simp) _ fits).congr fun other => by rw [idle]
    have kept : ∀ handler : Handler, handler.stage = .invoking →
        link.Conserves (link.setHandler id (some handler)) fun other => if other = id then 1 else 0 :=
      fun handler => conserves_setHandler_invoking active
    rw [if_neg (by simp)]
    dsimp only
    split_ifs with elsewhere
    · exact answered _ _
    · cases call with
      | subscribe sub serviceId mode =>
        dsimp only
        split_ifs
        · exact answered _ _
        · exact ((kept _ rfl).trans (keeps_setPublisher _ _ _)).congr fun _ => rfl
      | unsubscribe sub => exact kept _ rfl
      | other serviceId mem => exact kept _ rfl

theorem keeps_handleCancel (serverId : String) (id : Nat) (target : RpcTarget) :
    link.Keeps (link.handleCancel serverId id target) := by
  rw [handleCancel]
  split_ifs
  · exact keeps_refl
  · cases active : link.activeRequests id with
    | none => exact keeps_refl
    | some handler =>
      dsimp only
      split_ifs
      · refine .of_eq rfl fun other => ?_
        have same : (link.setHandler id (some { handler with aborted := true })).unanswered other =
            link.unanswered other := by
          rw [unanswered_setHandler]
          split_ifs with own
          · rw [own, unanswered, active]
          · rfl
        rw [underway, underway, same]
        rfl
      · exact keeps_refl

theorem conserves_failProtocol (error : ProtocolError) (gain : Nat → Nat) :
    link.Conserves (link.failProtocol error) gain where
  le id := by
    have quiet : responseCount id [(.helloError error : ServerMessage W V)] = 0 := rfl
    simp only [underway, failProtocol, unanswered, responseCount_append, quiet]
    omega
  eq isOpen := by cases isOpen

theorem conserves_dispatchMessage (link : Link S U W V E) (serverId : String)
    (m : ClientMessage) (fits : Bool) :
    link.Conserves (link.dispatchMessage serverId m fits)
      fun id => if m.isRequest id then 1 else 0 := by
  cases m with
  | hello => exact conserves_failProtocol _ _
  | cancel id target => exact (keeps_handleCancel serverId id target).congr fun _ => rfl
  | request id target call =>
    exact (conserves_handleRequest serverId id target call fits).congr fun other => by
      simp only [ClientMessage.isRequest, decide_eq_true_eq, eq_comm (a := id)]

theorem conserves_receive (link : Link S U W V E) (serverId : String) (m : ClientMessage)
    (fits : Bool) :
    link.Conserves (link.receive serverId m fits)
      fun id => if m.isRequest id then 1 else 0 := by
  have kept : ∀ stage, stage = link.stage →
      link.Conserves { link with stage := stage, deferred := link.deferred ++ [m] }
        fun id => if m.isRequest id then 1 else 0 := by
    rintro stage rfl
    refine .of_eq rfl fun id => ?_
    simp only [underway, unanswered, requestCount_append, requestCount_cons, requestCount_nil]
    omega
  unfold receive
  cases stage : link.stage with
  | awaitingHello =>
    cases m with
    | hello =>
      constructor
      · exact fun id => Nat.le_refl _
      · intro _
        refine ⟨?_, fun id => rfl⟩
        rw [Link.isOpen, stage]
    | cancel id target => exact conserves_failProtocol _ _
    | request id target call => exact conserves_failProtocol _ _
  | handshaking =>
    cases m with
    | hello => exact conserves_failProtocol _ _
    | cancel id target => exact kept _ stage.symm
    | request id target call => exact kept _ stage.symm
  | ready => exact conserves_dispatchMessage link serverId m fits
  | closing =>
    refine ⟨fun id => Nat.le_add_right _ _, fun isOpen => ?_⟩
    rw [Link.isOpen, stage] at isOpen
    cases isOpen
  | closed =>
    refine ⟨fun id => Nat.le_add_right _ _, fun isOpen => ?_⟩
    rw [Link.isOpen, stage] at isOpen
    cases isOpen

theorem keeps_respond (handler : Handler) (waits : link.unanswered id = 1) (result : Reply W)
    (fits : Bool) : link.Keeps (link.respond id handler result fits) :=
  (conserves_answer id (by simp) _ fits).congr fun other => by rw [waits, Nat.sub_self, ite_self]

theorem keeps_respondError (handler : Handler) (waits : link.unanswered id = 1)
    (error : ProtocolError) (fits : Bool) : link.Keeps (link.respondError id handler error fits) :=
  (conserves_answer id (by simp) _ fits).congr fun other => by rw [waits, Nat.sub_self, ite_self]

section

variable (codec : StateCodec S U W V E D)

section

variable {id : Nat} {handler : Handler}

theorem keeps_returns (waits : link.unanswered id = 1) (result : HostResult S) (fits : Bool) :
    link.Keeps (link.returns codec id handler result fits) := by
  have unsubscribed : ∀ sub reply,
      link.Keeps ((link.setEncoder sub none).respond id handler reply fits) := by
    intro sub reply
    have still : (link.setEncoder sub none).unanswered id = 1 := waits
    have responded := keeps_respond handler still reply fits
    exact ((keeps_setEncoder link sub none).trans responded).congr fun _ => rfl
  have installed : ∀ sub snapshot,
      link.Keeps (link.installSubscription codec id handler sub snapshot fits) := by
    intro sub snapshot
    rw [installSubscription]
    split
    · exact keeps_respondError handler waits _ fits
    · rename_i encoder wire _
      have placed := (keeps_setEncoder link sub (some encoder)).trans
        (keeps_setPublisher _ id ((link.publishers id).map fun publisher =>
          { publisher with snapshot := some snapshot }))
      have still : ((link.setEncoder sub (some encoder)).setPublisher id
          ((link.publishers id).map fun publisher =>
            { publisher with snapshot := some snapshot })).unanswered id = 1 := waits
      exact (placed.trans (keeps_respond handler still (.snapshot wire) fits)).congr fun _ => rfl
  unfold returns
  cases result <;> cases handler.call <;>
    first
      | exact keeps_respondError handler waits _ fits
      | exact keeps_respond handler waits _ fits
      | exact unsubscribed _ _
      | exact installed _ _

theorem keeps_drain
    (publisher : Publisher S U) (answered : link.unanswered id = 0) (fits : Bool) :
    link.Keeps (link.drain codec id handler publisher fits) := by
  rw [drain]
  split
  · have ready := keeps_setPublisher link id (some { publisher with subscriptionReady := true })
    have still : (link.setPublisher id
        (some { publisher with subscriptionReady := true })).unanswered id = 0 := answered
    have ended := keeps_setHandler none (fun _ same => nomatch same) still
    exact (ready.trans ended).congr fun _ => rfl
  · rename_i update later pending
    dsimp only
    have taken := keeps_setPublisher link id (some { publisher with pendingUpdates := later })
    have still : (link.setPublisher id
        (some { publisher with pendingUpdates := later })).unanswered id = 0 := answered
    have draining := keeps_setHandler (some { handler with stage := .draining })
      (fun current same => by cases same; simp) still
    have shifted := (taken.trans draining).trans
      (conserves_sendServiceUpdate codec publisher.subscriptionId update fits)
    split
    · rename_i next same
      rw [same] at shifted
      exact shifted.congr fun _ => rfl
    · rename_i next same
      rw [same] at shifted
      exact (shifted.trans (conserves_disconnect fun _ => 0)).congr fun _ => rfl

theorem keeps_sent (answered : link.unanswered id = 0) (fits : Bool) :
    link.Keeps (link.sent codec id handler fits) := by
  have done : link.Keeps (link.setHandler id none) :=
    keeps_setHandler none (fun _ same => nomatch same) answered
  unfold sent
  split
  · exact done
  · exact keeps_drain codec _ answered fits
  · exact done

end

theorem keeps_publish (id : Nat) (publisher : Publisher S U)
    (update : U) (fits : Bool) : link.Keeps (link.publish codec id publisher update fits) := by
  rw [publish]
  dsimp only
  split_ifs
  · exact ((keeps_setPublisher link id _).trans
      (conserves_sendServiceUpdate codec publisher.subscriptionId update fits)).congr fun _ => rfl
  · exact keeps_setPublisher _ _ _

end

theorem Conserves.popped {shorter : Link S U W V E} {gain : Nat → Nat}
    (received : shorter.Conserves next gain) (stage : shorter.isOpen = link.isOpen)
    (popped : ∀ id, shorter.underway id + gain id = link.underway id) : link.Keeps next where
  le id := popped id ▸ received.le id
  eq isOpen := by
    obtain ⟨wasOpen, same⟩ := received.eq isOpen
    exact ⟨stage ▸ wasOpen, fun id => (same id).trans (popped id)⟩

theorem keeps_step {codec : StateCodec S U W V E D} {serverId : String}
    {ev : ServerEvent S U} (taken : link.step codec serverId ev = some next) : link.Keeps next := by
  cases ev with
  | receive fits =>
    rw [step] at taken
    split at taken
    · cases taken
    · rename_i m later queued
      cases taken
      have received := conserves_receive { link with toServer := later } serverId m fits
      refine received.popped rfl fun id => ?_
      simp only [underway, unanswered, queued, requestCount_cons]
      omega
  | attached fits =>
    rw [step] at taken
    split_ifs at taken
    cases taken
    have greeted : link.Keeps { link with greeted := true } := .of_eq rfl fun _ => rfl
    exact (greeted.trans (conserves_sendMessage _ (.hello serverId) fits)).congr fun _ => rfl
  | ready =>
    rw [step] at taken
    split_ifs at taken with ready
    cases taken
    refine ⟨fun _ => Nat.le_refl _, fun _ => ⟨?_, fun _ => rfl⟩⟩
    rw [Link.isOpen, ready.1]
  | dispatchDeferred fits =>
    rw [step] at taken
    split at taken
    · cases taken
    · rename_i m later queued
      split_ifs at taken
      cases taken
      have received := conserves_dispatchMessage { link with deferred := later } serverId m fits
      refine received.popped rfl fun id => ?_
      simp only [underway, unanswered, queued, requestCount_cons]
      omega
  | returns id result fits =>
    rw [step] at taken
    split at taken
    · rename_i handler active
      split_ifs at taken with invoking
      cases taken
      exact keeps_returns codec (unanswered_of_invoking active invoking) result fits
    · cases taken
  | sent id fits =>
    rw [step] at taken
    split at taken
    · rename_i handler active
      split_ifs at taken with invoking
      cases taken
      exact keeps_sent codec (unanswered_of_answered active invoking) fits
    · cases taken
  | publish id update fits =>
    rw [step] at taken
    split at taken
    · split_ifs at taken
      cases taken
      exact keeps_publish codec _ _ _ fits
    · cases taken
  | publishAttachment attachment fits =>
    rw [step] at taken
    split_ifs at taken
    cases taken
    exact (conserves_sendMessage link (.attachment attachment) fits).congr fun _ => rfl
  | close =>
    rw [step] at taken
    split_ifs at taken
    cases taken
    exact ⟨fun _ => Nat.le_refl _, fun isOpen => by cases isOpen⟩
  | disconnect =>
    cases taken
    exact conserves_disconnect _

end

end Link

end Trpi.Remote
