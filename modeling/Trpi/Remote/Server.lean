import Mathlib.Logic.Function.Basic
import Trpi.Remote.Types

/-!
# One connection of a server

server/src/server.ts for one connection, together with what is under way in it in either
direction. A request is handled over several awaits: the host's call, the sending of the
response and the sending of each update that was held back. The provider's publisher for a
subscription outlives its request.
-/

namespace Trpi.Remote

open Trpi.Chord.Services (ServiceMode)

inductive ConnectionStage where
  | awaitingHello | handshaking | ready | closing | closed
  deriving DecidableEq

/-- Where a request's handler waits: for the host, or for a send. -/
inductive HandlerStage where
  | invoking | failing | responding | draining
  deriving DecidableEq

structure Handler where
  target : RpcTarget
  call : ServiceCall
  aborted : Bool
  stage : HandlerStage

/-- The `publish` of a subscribing request and what it closes over. What the host answered and
what was published is history, which no step reads. -/
structure Publisher (S U : Type) where
  subscriptionId : Nat
  subscriptionReady : Bool
  pendingUpdates : List U
  snapshot : Option S
  published : List U

structure Link (S U W V E : Type) where
  stage : ConnectionStage
  /-- The server's hello was sent. -/
  greeted : Bool
  /-- Sent by the client and not yet received. -/
  toServer : List ClientMessage
  /-- Sent by the server and not yet received. -/
  toClient : List (ServerMessage W V)
  /-- Received before the handshake was done. -/
  deferred : List ClientMessage
  activeRequests : Nat → Option Handler
  publishers : Nat → Option (Publisher S U)
  serviceStateEncoders : Nat → Option E

/-- What a host's call ends in: an error, no result, a value, or a snapshot. -/
inductive HostResult (S : Type) where
  | error (error : ProtocolError)
  | none
  | value
  | snapshot (snapshot : S)

/-- What can happen at the server's end. `fits` says whether a frame can be encoded. -/
inductive ServerEvent (S U : Type) where
  | receive (fits : Bool)
  | attached (fits : Bool)
  | ready
  | dispatchDeferred (fits : Bool)
  | returns (id : Nat) (result : HostResult S) (fits : Bool)
  | sent (id : Nat) (fits : Bool)
  | publish (id : Nat) (update : U) (fits : Bool)
  | publishAttachment (attachment : Option RpcTarget) (fits : Bool)
  | close
  | disconnect

variable {S U W V E D : Type}

def wrongServer : ProtocolError where
  code := "wrong_server"
  message := "Request was addressed to another server"

def alreadyActive : ProtocolError where
  code := "invalid_request"
  message := "Request ID is already active"

def duplicateSubscription (subscriptionId : Nat) : ProtocolError where
  code := "invalid_request"
  message := "Duplicate service subscription service-" ++ toString subscriptionId

def noSnapshot : ProtocolError where
  code := "invalid_request"
  message := "Service subscription did not return a snapshot"

def internalError : ProtocolError where
  code := "internal_error"
  message := "Internal server error"

def requestCancelled : ProtocolError where
  code := "cancelled"
  message := "RPC request cancelled"

def helloFirst : ProtocolError where
  code := "invalid_request"
  message := "The first client message must be hello"

def helloOnce : ProtocolError where
  code := "invalid_request"
  message := "hello may only be sent as the first message"

namespace Link

def create : Link S U W V E where
  stage := .awaitingHello
  greeted := false
  toServer := []
  toClient := []
  deferred := []
  activeRequests := fun _ => none
  publishers := fun _ => none
  serviceStateEncoders := fun _ => none

/-- `disconnect`. Nothing is sent on the connection afterwards. -/
def disconnect (link : Link S U W V E) : Link S U W V E :=
  { link with
    stage := .closed
    deferred := []
    activeRequests := fun _ => none
    serviceStateEncoders := fun _ => none }

/-- `sendMessage`: what cannot be encoded closes the connection. -/
def sendMessage (link : Link S U W V E) (message : ServerMessage W V) (fits : Bool) :
    Link S U W V E :=
  if fits then { link with toClient := link.toClient ++ [message] } else link.disconnect

/-- The final frame, after which the connection is closed. -/
def failProtocol (link : Link S U W V E) (error : ProtocolError) : Link S U W V E :=
  { link with stage := .closing, toClient := link.toClient ++ [.helloError error] }

def setHandler (link : Link S U W V E) (id : Nat) (handler : Option Handler) : Link S U W V E :=
  { link with activeRequests := Function.update link.activeRequests id handler }

def setEncoder (link : Link S U W V E) (subscriptionId : Nat) (encoder : Option E) :
    Link S U W V E :=
  { link with
    serviceStateEncoders := Function.update link.serviceStateEncoders subscriptionId encoder }

def setPublisher (link : Link S U W V E) (id : Nat) (publisher : Option (Publisher S U)) :
    Link S U W V E :=
  { link with publishers := Function.update link.publishers id publisher }

def handleCancel (serverId : String) (link : Link S U W V E) (id : Nat) (target : RpcTarget) :
    Link S U W V E :=
  if target.serverId ≠ serverId then link
  else
    match link.activeRequests id with
    | none => link
    | some handler =>
      if handler.target = target then link.setHandler id (some { handler with aborted := true })
      else link

/-- An error response of a request whose handler waits for the send. -/
def respondError (link : Link S U W V E) (id : Nat) (handler : Handler) (error : ProtocolError)
    (fits : Bool) : Link S U W V E :=
  (link.setHandler id (some { handler with stage := .failing })).sendMessage
    (.response id (.error (if handler.aborted then requestCancelled else error))) fits

def respond (link : Link S U W V E) (id : Nat) (handler : Handler) (result : Reply W)
    (fits : Bool) : Link S U W V E :=
  (link.setHandler id (some { handler with stage := .responding })).sendMessage
    (.response id (.ok result)) fits

/-- `handleRequest` up to the host's call. -/
def handleRequest (serverId : String) (link : Link S U W V E) (id : Nat) (target : RpcTarget)
    (call : ServiceCall) (fits : Bool) : Link S U W V E :=
  if (link.activeRequests id).isSome then
    link.sendMessage (.response id (.error alreadyActive)) fits
  else
    let handler := { target := target, call := call, aborted := false, stage := .invoking }
    if target.serverId ≠ serverId then link.respondError id handler wrongServer fits
    else
      match call with
      | .subscribe subscriptionId _ _ =>
        if (link.serviceStateEncoders subscriptionId).isSome then
          link.respondError id handler (duplicateSubscription subscriptionId) fits
        else
          (link.setHandler id (some handler)).setPublisher id (some {
            subscriptionId := subscriptionId
            subscriptionReady := false
            pendingUpdates := []
            snapshot := none
            published := [] })
      | _ => link.setHandler id (some handler)

def dispatchMessage (serverId : String) (link : Link S U W V E) (message : ClientMessage)
    (fits : Bool) : Link S U W V E :=
  match message with
  | .hello => link.failProtocol helloOnce
  | .cancel id target => link.handleCancel serverId id target
  | .request id target call => link.handleRequest serverId id target call fits

/-- `receive`: the first message opens the handshake, and what comes before it is done is kept. -/
def receive (serverId : String) (link : Link S U W V E) (message : ClientMessage) (fits : Bool) :
    Link S U W V E :=
  match link.stage with
  | .awaitingHello =>
    match message with
    | .hello => { link with stage := .handshaking }
    | _ => link.failProtocol helloFirst
  | .handshaking =>
    match message with
    | .hello => link.failProtocol helloOnce
    | _ => { link with deferred := link.deferred ++ [message] }
  | .ready => link.dispatchMessage serverId message fits
  | .closing | .closed => link

/-- The host's call of a subscribing request ended in a snapshot. -/
def installSubscription (codec : StateCodec S U W V E D) (link : Link S U W V E) (id : Nat)
    (handler : Handler) (subscriptionId : Nat) (snapshot : S) (fits : Bool) : Link S U W V E :=
  match codec.encodeSnapshot snapshot with
  | .error _ => link.respondError id handler internalError fits
  | .ok (encoder, wire) =>
    ((link.setEncoder subscriptionId (some encoder)).setPublisher id
      ((link.publishers id).map fun publisher => { publisher with snapshot := some snapshot })
      ).respond id handler (.snapshot wire) fits

/-- `handleRequest` from the host's answer up to the response. -/
def returns (codec : StateCodec S U W V E D) (link : Link S U W V E) (id : Nat)
    (handler : Handler) (result : HostResult S) (fits : Bool) : Link S U W V E :=
  match result with
  | .error error => link.respondError id handler error fits
  | .none =>
    match handler.call with
    | .subscribe .. => link.respondError id handler noSnapshot fits
    | .unsubscribe subscriptionId =>
      (link.setEncoder subscriptionId none).respond id handler .none fits
    | .other .. => link.respond id handler .none fits
  | .value =>
    match handler.call with
    | .subscribe .. => link.respondError id handler internalError fits
    | .unsubscribe subscriptionId =>
      (link.setEncoder subscriptionId none).respond id handler .value fits
    | .other .. => link.respond id handler .value fits
  | .snapshot snapshot =>
    match handler.call with
    | .subscribe subscriptionId _ _ =>
      link.installSubscription codec id handler subscriptionId snapshot fits
    | .unsubscribe subscriptionId =>
      (link.setEncoder subscriptionId none).respond id handler .value fits
    | .other .. => link.respond id handler .value fits

/-- `sendServiceUpdate`; what is encoded is encoded when it is sent. An encoder that refuses an
update throws. -/
def sendServiceUpdate (codec : StateCodec S U W V E D) (link : Link S U W V E)
    (subscriptionId : Nat) (update : U) (fits : Bool) : Link S U W V E × Bool :=
  match link.serviceStateEncoders subscriptionId with
  | none => (link, true)
  | some encoder =>
    match codec.encodeUpdate encoder update with
    | (next, .error _) => (link.setEncoder subscriptionId (some next), false)
    | (next, .ok wire) =>
      ((link.setEncoder subscriptionId (some next)).sendMessage
        (.serviceUpdate subscriptionId wire) fits, true)

/-- The next round of the loop over `pendingUpdates`, or what follows it. -/
def drain (codec : StateCodec S U W V E D) (link : Link S U W V E) (id : Nat) (handler : Handler)
    (publisher : Publisher S U) (fits : Bool) : Link S U W V E :=
  match publisher.pendingUpdates with
  | [] =>
    (link.setPublisher id (some { publisher with subscriptionReady := true })).setHandler id none
  | update :: later =>
    let shifted := (link.setPublisher id (some { publisher with pendingUpdates := later })
      ).setHandler id (some { handler with stage := .draining })
    match shifted.sendServiceUpdate codec publisher.subscriptionId update fits with
    | (next, true) => next
    | (next, false) => next.disconnect

def sent (codec : StateCodec S U W V E D) (link : Link S U W V E) (id : Nat) (handler : Handler)
    (fits : Bool) : Link S U W V E :=
  match handler.stage, handler.call, link.publishers id with
  | .failing, _, _ => link.setHandler id none
  | _, .subscribe .., some publisher => link.drain codec id handler publisher fits
  | _, _, _ => link.setHandler id none

/-- `publish` of a subscribing request. The caller of it is not told of a refusal. -/
def publish (codec : StateCodec S U W V E D) (link : Link S U W V E) (id : Nat)
    (publisher : Publisher S U) (update : U) (fits : Bool) : Link S U W V E :=
  let noted := { publisher with published := publisher.published ++ [update] }
  if publisher.subscriptionReady then
    ((link.setPublisher id (some noted)).sendServiceUpdate codec publisher.subscriptionId update
      fits).1
  else
    link.setPublisher id (some { noted with pendingUpdates := noted.pendingUpdates ++ [update] })

def step (codec : StateCodec S U W V E D) (serverId : String) (link : Link S U W V E) :
    ServerEvent S U → Option (Link S U W V E)
  | .receive fits =>
    match link.toServer with
    | [] => none
    | message :: later => some ({ link with toServer := later }.receive serverId message fits)
  | .attached fits =>
    if link.stage = .handshaking ∧ link.greeted = false then
      some ({ link with greeted := true }.sendMessage (.hello serverId) fits)
    else none
  | .ready =>
    if link.stage = .handshaking ∧ link.greeted then some { link with stage := .ready } else none
  | .dispatchDeferred fits =>
    match link.deferred with
    | [] => none
    | message :: later =>
      if link.stage = .ready then
        some ({ link with deferred := later }.dispatchMessage serverId message fits)
      else none
  | .returns id result fits =>
    match link.activeRequests id with
    | some handler =>
      if handler.stage = .invoking then some (link.returns codec id handler result fits) else none
    | none => none
  | .sent id fits =>
    match link.activeRequests id with
    | some handler =>
      if handler.stage = .invoking then none else some (link.sent codec id handler fits)
    | none => none
  | .publish id update fits =>
    match link.publishers id with
    | some publisher =>
      if link.stage = .closed then none else some (link.publish codec id publisher update fits)
    | none => none
  | .publishAttachment attachment fits =>
    if link.stage = .closed then none
    else some (link.sendMessage (.attachment attachment) fits)
  | .close => if link.stage = .closed then none else some { link with stage := .closing }
  | .disconnect => some link.disconnect

end Link

end Trpi.Remote
