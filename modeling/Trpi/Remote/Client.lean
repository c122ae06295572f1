import Mathlib.Logic.Function.Basic
import Trpi.Remote.Types

/-!
# A client and its connection

client/src/client.ts and client/src/connection.ts. Promises are settled once: what settles them
later changes nothing. The messages of one piece of data are handled one after another, and a
listener that runs in between may use the client.
-/

namespace Trpi.Remote

open Trpi.Chord.Services (ServiceMode)

/-- `ConnectionLifecycle`; a connecting one has a transport or is still opening it. -/
inductive Lifecycle where
  | disconnected
  | connecting (id : Nat) (transport : Bool)
  | connected (id : Nat)
  deriving DecidableEq

inductive ClientError where
  | disposed
  | disconnected (message : String)
  | aborted
  | encoding
  | server (error : ProtocolError)
  | validation (message : String)
  /-- The validation error "Response has no matching request". -/
  | noMatchingRequest

inductive Outcome (S : Type) where
  | resolved (snapshot : Option S)
  | rejected (error : ClientError)

/-- A pending request: the subscription its result is for, and its abort listener. -/
structure PendingRequest where
  target : RpcTarget
  subscriptionId : Option Nat
  signal : Bool
  aborted : Bool
  deriving DecidableEq

/-- `deliveryTail` is what the listener is still to be called with. What it was called with, and
which request of which connection the subscription is from, is history. -/
structure ActiveServiceListener (U V D : Type) where
  target : RpcTarget
  decoder : D
  queuedWireUpdates : List V
  queued : List U
  deliveryTail : List U
  hydrated : Bool
  ready : Bool
  delivered : List U
  connectionId : Nat
  requestId : Nat

structure ServiceSubscription (S : Type) where
  snapshot : S
  disposed : Bool

/-- The signal a call is given. -/
inductive Signal where
  | absent | live | aborted
  deriving DecidableEq

/-- What becomes of a frame: it is sent, it cannot be encoded, or the transport throws. -/
inductive Outgoing where
  | sent | tooLong | throws
  deriving DecidableEq

structure Client (S U W V D : Type) where
  disposed : Bool
  lifecycle : Lifecycle
  connectionSequence : Nat
  hello : Option String
  attachment : Option RpcTarget
  /-- Messages of the data that is being handled, and the connection it came from. -/
  chunk : List (ServerMessage W V)
  chunkConnection : Nat
  requestSequence : Nat
  serviceSubscriptionSequence : Nat
  pendingRequests : Nat → Option PendingRequest
  promises : Nat → Option (Outcome S)
  serviceListeners : Nat → Bool
  active : Nat → Option (ActiveServiceListener U V D)
  /-- `subscribeService` calls that wait for their request. -/
  subscribing : Nat → Option (Except ClientError Nat)
  subscriptions : Nat → Option (ServiceSubscription S)
  /-- The errors connections ended with. -/
  failures : List ClientError

inductive ClientEvent where
  | connect
  | disconnect (reason : String)
  | dispose
  | request (target : RpcTarget) (call : ServiceCall) (signal : Signal) (out : Outgoing)
  | subscribeService (target : RpcTarget) (serviceId : String) (mode : ServiceMode)
    (signal : Signal) (out : Outgoing)
  | abort (id : Nat) (out : Outgoing)
  | resume (subscriptionId : Nat)
  | start (subscriptionId : Nat)
  | disposeSubscription (subscriptionId : Nat) (out : Outgoing)
  | deliver (subscriptionId : Nat)
  | opened
  | lost (reason : String)
  | handle

variable {S U W V E D : Type}

/-- A decoded update goes to the listener, or waits for `start`. -/
def ActiveServiceListener.receive (active : ActiveServiceListener U V D) (d : D)
    (update : U) : ActiveServiceListener U V D :=
  if active.ready then
    { active with decoder := d, deliveryTail := active.deliveryTail ++ [update] }
  else { active with decoder := d, queued := active.queued ++ [update] }

/-- What is queued is delivered, and what comes later as it comes. -/
def ActiveServiceListener.start (active : ActiveServiceListener U V D) :
    ActiveServiceListener U V D :=
  { active with ready := true, deliveryTail := active.deliveryTail ++ active.queued, queued := [] }

def ActiveServiceListener.clear (active : ActiveServiceListener U V D) :
    ActiveServiceListener U V D :=
  { active with queuedWireUpdates := [], queued := [] }

def ActiveServiceListener.deliver (active : ActiveServiceListener U V D) (update : U)
    (later : List U) : ActiveServiceListener U V D :=
  { active with deliveryTail := later, delivered := active.delivered ++ [update] }

namespace Client

def create : Client S U W V D where
  disposed := false
  lifecycle := .disconnected
  connectionSequence := 0
  hello := none
  attachment := none
  chunk := []
  chunkConnection := 0
  requestSequence := 0
  serviceSubscriptionSequence := 0
  pendingRequests := fun _ => none
  promises := fun _ => none
  serviceListeners := fun _ => false
  active := fun _ => none
  subscribing := fun _ => none
  subscriptions := fun _ => none
  failures := []

def connected (c : Client S U W V D) : Bool :=
  match c.lifecycle with
  | .connected _ => true
  | _ => false

/-- A promise keeps its first outcome. -/
def settle (c : Client S U W V D) (id : Nat) (outcome : Outcome S) : Client S U W V D :=
  { c with
    promises := Function.update c.promises id (some ((c.promises id).getD outcome)) }

def takePendingRequest (c : Client S U W V D) (id : Nat) : Client S U W V D :=
  { c with pendingRequests := Function.update c.pendingRequests id none }

def rejectPendingRequests (c : Client S U W V D) (error : ClientError) : Client S U W V D :=
  { c with
    pendingRequests := fun _ => none
    promises := fun id =>
      if (c.pendingRequests id).isSome then
        some ((c.promises id).getD (.rejected error))
      else c.promises id }

/-- `Connection.fail` with what the client makes of the change of state. -/
def fail (c : Client S U W V D) (error : ClientError) : Client S U W V D :=
  if c.lifecycle = .disconnected then c
  else
    { ({ c with
        lifecycle := .disconnected
        hello := none
        attachment := none }.rejectPendingRequests error) with
      serviceListeners := fun _ => false
      failures := c.failures ++ [error] }

def send (c : Client S U W V D) (message : ClientMessage) (out : Outgoing) :
    Client S U W V D × Option (Nat × ClientMessage) :=
  match c.lifecycle with
  | .connected id =>
    match out with
    | .sent => (c, some (id, message))
    | .tooLong => (c.fail .encoding, none)
    | .throws => (c.fail (.disconnected "Byte transport failed"), none)
  | _ => (c, none)

/-- A request under the next id. -/
def registerRequest (c : Client S U W V D) (pending : PendingRequest) : Client S U W V D :=
  { c with
    requestSequence := c.requestSequence + 1
    pendingRequests :=
      Function.update c.pendingRequests (c.requestSequence + 1) (some pending) }

/-- `#request`: a promise that is rejected at once, or the id of the request. -/
def request (c : Client S U W V D) (target : RpcTarget) (call : ServiceCall)
    (signal : Signal) (subscriptionId : Option Nat) (out : Outgoing) :
    (Client S U W V D × Option (Nat × ClientMessage)) × Except ClientError Nat :=
  if c.disposed then ((c, none), .error .disposed)
  else if c.connected = false then
    ((c, none), .error (.disconnected "Client is disconnected"))
  else if signal = .aborted then ((c, none), .error .aborted)
  else
    let id := c.requestSequence + 1
    let registered := c.registerRequest {
      target := target
      subscriptionId := subscriptionId
      signal := decide (signal = .live)
      aborted := false }
    match out with
    | .tooLong =>
      (((registered.takePendingRequest id).settle id (.rejected .encoding), none), .ok id)
    | _ => (registered.send (.request id target call) out, .ok id)

def targetIsCurrent (c : Client S U W V D) (target : RpcTarget) : Bool :=
  match target.session with
  | none => c.hello = some target.serverId
  | some _ => c.attachment = some target

def listen (codec : StateCodec S U W V E D) (c : Client S U W V D) (target : RpcTarget) :
    Client S U W V D :=
  let subscriptionId := c.serviceSubscriptionSequence + 1
  { c with
    serviceSubscriptionSequence := subscriptionId
    serviceListeners := Function.update c.serviceListeners subscriptionId true
    active := Function.update c.active subscriptionId (some {
      target := target
      decoder := codec.decoder
      queuedWireUpdates := []
      queued := []
      deliveryTail := []
      hydrated := false
      ready := false
      delivered := []
      connectionId := c.connectionSequence
      requestId := c.requestSequence + 1 }) }

/-- `subscribeService` up to its request. -/
def subscribeService (codec : StateCodec S U W V E D) (c : Client S U W V D)
    (target : RpcTarget) (serviceId : String) (mode : ServiceMode) (signal : Signal)
    (out : Outgoing) : Client S U W V D × Option (Nat × ClientMessage) :=
  let subscriptionId := c.serviceSubscriptionSequence + 1
  match (c.listen codec target).request target (.subscribe subscriptionId serviceId mode)
      signal (some subscriptionId) out with
  | ((next, message), promise) =>
    ({ next with subscribing := Function.update next.subscribing subscriptionId (some promise) },
      message)

def markAborted (c : Client S U W V D) (id : Nat) (pending : PendingRequest) :
    Client S U W V D :=
  { c with
    pendingRequests := Function.update c.pendingRequests id
      (some { pending with aborted := true }) }

def abort (c : Client S U W V D) (id : Nat) (pending : PendingRequest) (out : Outgoing) :
    Client S U W V D × Option (Nat × ClientMessage) :=
  ((c.markAborted id pending).settle id (.rejected .aborted)).send (.cancel id pending.target) out

def stopListening (c : Client S U W V D) (subscriptionId : Nat) : Client S U W V D :=
  { c with serviceListeners := Function.update c.serviceListeners subscriptionId false }

def resume (c : Client S U W V D) (subscriptionId : Nat) (outcome : Outcome S) :
    Client S U W V D :=
  let done := { c with
    subscribing := Function.update c.subscribing subscriptionId none }
  match outcome with
  | .resolved (some snapshot) =>
    if c.serviceListeners subscriptionId then
      { done with
        subscriptions := Function.update done.subscriptions subscriptionId
          (some { snapshot := snapshot, disposed := false }) }
    else done
  | _ => done.stopListening subscriptionId

def setActive (c : Client S U W V D) (subscriptionId : Nat)
    (active : ActiveServiceListener U V D) : Client S U W V D :=
  { c with active := Function.update c.active subscriptionId (some active) }

def closeSubscription (c : Client S U W V D) (subscriptionId : Nat)
    (subscription : ServiceSubscription S) (active : ActiveServiceListener U V D) :
    Client S U W V D :=
  ({ c with
    subscriptions := Function.update c.subscriptions subscriptionId
      (some { subscription with disposed := true }) }.stopListening subscriptionId).setActive
    subscriptionId active.clear

/-- `dispose` of a subscription, up to its request. -/
def disposeSubscription (c : Client S U W V D) (subscriptionId : Nat)
    (subscription : ServiceSubscription S) (active : ActiveServiceListener U V D)
    (out : Outgoing) : Client S U W V D × Option (Nat × ClientMessage) :=
  let closed := c.closeSubscription subscriptionId subscription active
  if c.connected && c.targetIsCurrent active.target then
    (closed.request active.target (.unsubscribe subscriptionId) .absent none out).1
  else (closed, none)

def decodeUpdates (codec : StateCodec S U W V E D) (d : D) : List V → Except String (D × List U)
  | [] => .ok (d, [])
  | wire :: later =>
    match codec.decodeUpdate d wire with
    | .error message => .error message
    | .ok (next, update) =>
      match decodeUpdates codec next later with
      | .error message => .error message
      | .ok (last, updates) => .ok (last, update :: updates)

/-- What a subscription makes of its snapshot and of updates that came before it. -/
def hydrate (codec : StateCodec S U W V E D) (active : ActiveServiceListener U V D)
    (wire : W) : Except String (ActiveServiceListener U V D × S) :=
  match codec.decodeSnapshot active.decoder wire with
  | .error message => .error message
  | .ok (d, snapshot) =>
    match decodeUpdates codec d active.queuedWireUpdates with
    | .error message => .error message
    | .ok (last, updates) =>
      .ok ({ active with
        decoder := last
        hydrated := true
        queuedWireUpdates := []
        queued := active.queued ++ updates }, snapshot)

def resolveRequest (codec : StateCodec S U W V E D) (c : Client S U W V D) (id : Nat)
    (pending : PendingRequest) (reply : Reply W) : Client S U W V D :=
  match pending.subscriptionId with
  | none => c.settle id (.resolved none)
  | some subscriptionId =>
    match reply, c.active subscriptionId with
    | .snapshot wire, some active =>
      match hydrate codec active wire with
      | .error message =>
        (c.fail (.validation message)).settle id (.rejected (.validation message))
      | .ok (hydrated, snapshot) =>
        (c.setActive subscriptionId hydrated).settle id (.resolved (some snapshot))
    | _, _ =>
      let message := "Invalid service subscription snapshot"
      (c.fail (.validation message)).settle id (.rejected (.validation message))

def handleUpdate (codec : StateCodec S U W V E D) (c : Client S U W V D)
    (subscriptionId : Nat) (update : V) : Client S U W V D :=
  match c.serviceListeners subscriptionId, c.active subscriptionId with
  | true, some active =>
    if active.hydrated = false then
      c.setActive subscriptionId
        { active with queuedWireUpdates := active.queuedWireUpdates ++ [update] }
    else
      match codec.decodeUpdate active.decoder update with
      | .error message => c.fail (.validation message)
      | .ok (d, update) =>
        c.setActive subscriptionId (active.receive d update)
  | _, _ => c

/-- `Client.#handleMessage`. -/
def handleEnvelope (codec : StateCodec S U W V E D) (serverId : String)
    (c : Client S U W V D) : ServerMessage W V → Client S U W V D
  | .attachment attachment =>
    if attachment.any fun s => s.serverId ≠ serverId then
      c.fail (.validation "Attachment update belongs to another server")
    else { c with attachment := attachment }
  | .serviceUpdate subscriptionId update => c.handleUpdate codec subscriptionId update
  | .response id result =>
    match c.pendingRequests id with
    | none => c.fail .noMatchingRequest
    | some pending =>
      match result with
      | .error error => (c.takePendingRequest id).settle id (.rejected (.server error))
      | .ok reply => (c.takePendingRequest id).resolveRequest codec id pending reply
  | _ => c

def handleMessage (codec : StateCodec S U W V E D) (serverId : String)
    (c : Client S U W V D) (message : ServerMessage W V) : Client S U W V D :=
  match c.lifecycle with
  | .disconnected => c
  | .connecting id transport =>
    match message with
    | .helloError error => c.fail (.server error)
    | .hello name =>
      if name ≠ serverId then
        c.fail (.validation ("Connected server " ++ name ++ " does not match " ++ serverId))
      else if transport = false then
        c.fail (.validation "Received server hello before the client hello was sent")
      else { c with lifecycle := .connected id, hello := some name }
    | _ => c.fail (.validation "Expected server hello as first message")
  | .connected _ =>
    match message with
    | .hello _ | .helloError _ => c.fail (.validation "Unexpected handshake message")
    | _ => c.handleEnvelope codec serverId message

/-- `#handleData`; the messages are handled one by one. -/
def handleData (c : Client S U W V D) (id : Nat) (messages : List (ServerMessage W V)) :
    Client S U W V D :=
  match c.lifecycle with
  | .disconnected => c
  | .connecting current transport =>
    if current ≠ id then c
    else if transport = false then
      c.fail (.validation "Received server data before the client hello was sent")
    else { c with chunk := messages, chunkConnection := id }
  | .connected current =>
    if current ≠ id then c else { c with chunk := messages, chunkConnection := id }

def withChunk (c : Client S U W V D) (chunk : List (ServerMessage W V)) :
    Client S U W V D :=
  { c with chunk := chunk }

/-- The loop over the messages of a piece of data ends where the connection does. -/
def handle (codec : StateCodec S U W V E D) (serverId : String) (c : Client S U W V D) :
    Option (Client S U W V D) :=
  match c.chunk with
  | [] => none
  | message :: later =>
    if c.lifecycle = .disconnected then some (c.withChunk [])
    else some ((c.withChunk later).handleMessage codec serverId message)

def dispose (c : Client S U W V D) : Client S U W V D :=
  { (({ c with disposed := true }.rejectPendingRequests .disposed).fail .disposed) with
    hello := none
    attachment := none
    serviceListeners := fun _ => false }

def step (codec : StateCodec S U W V E D) (serverId : String) (c : Client S U W V D) :
    ClientEvent → Option (Client S U W V D × Option (Nat × ClientMessage))
  | .connect =>
    if c.disposed then none
    else if c.lifecycle ≠ .disconnected then some ({ c with hello := none }, none)
    else
      some ({ c with
        hello := none
        connectionSequence := c.connectionSequence + 1
        lifecycle := .connecting (c.connectionSequence + 1) false }, none)
  | .disconnect reason => some (c.fail (.disconnected reason), none)
  | .dispose => if c.disposed then none else some (c.dispose, none)
  | .request target call signal out => some (c.request target call signal none out).1
  | .subscribeService target serviceId mode signal out =>
    some (c.subscribeService codec target serviceId mode signal out)
  | .abort id out =>
    match c.pendingRequests id with
    | none => none
    | some pending =>
      if pending.signal && !pending.aborted then some (c.abort id pending out) else none
  | .resume subscriptionId =>
    match c.subscribing subscriptionId with
    | none => none
    | some (.error error) => some (c.resume subscriptionId (.rejected error), none)
    | some (.ok id) =>
      (c.promises id).map fun outcome => (c.resume subscriptionId outcome, none)
  | .start subscriptionId =>
    match c.subscriptions subscriptionId, c.active subscriptionId with
    | some subscription, some active =>
      if subscription.disposed || active.ready then none
      else
        some (c.setActive subscriptionId active.start, none)
    | _, _ => none
  | .disposeSubscription subscriptionId out =>
    match c.subscriptions subscriptionId, c.active subscriptionId with
    | some subscription, some active =>
      if subscription.disposed then none
      else some (c.disposeSubscription subscriptionId subscription active out)
    | _, _ => none
  | .deliver subscriptionId =>
    match c.active subscriptionId with
    | none => none
    | some active =>
      match active.deliveryTail with
      | [] => none
      | update :: later =>
        some (c.setActive subscriptionId (active.deliver update later), none)
  | .opened =>
    match c.lifecycle, c.chunk with
    | .connecting id false, [] =>
      some ({ c with lifecycle := .connecting id true }, some (id, .hello))
    | _, _ => none
  | .lost reason =>
    match c.chunk with
    | [] => some (c.fail (.disconnected reason), none)
    | _ :: _ => none
  | .handle => (c.handle codec serverId).map fun next => (next, none)

end Client

end Trpi.Remote
