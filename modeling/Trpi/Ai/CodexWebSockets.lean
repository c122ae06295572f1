import Trpi.Library.JsonRoundTrip
import Trpi.Library.Machine

/-!
# Requests over cached WebSockets

The connections of one session in ai/src/api/openai-codex-responses.ts, and what is sent over
them. A call of `processWebSocketStream` is taken from the socket it gets to the end of its
stream; a call that `stream` repeats is another one. Whether a socket is open and how old it is
comes with the events. The server answers a request whose previous response it knows, and the
items of an answer are those that the client makes of it.
-/

namespace Trpi.Ai

open Library

variable {N : Type}

/-- What `JSON.stringify` writes of a body; the other fields are in their order. -/
structure RequestBody (N : Type) where
  input : Option (List (Json N))
  previousResponseId : Option String
  fields : List (String × Json N)

def RequestBody.members (body : RequestBody N) : List (String × Json N) :=
  body.fields ++ (body.input.map fun input => ("input", .arr input)).toList ++
    (body.previousResponseId.map fun id => ("previous_response_id", .str id)).toList

structure CachedWebSocketContinuationState (N : Type) where
  lastRequestBody : RequestBody N
  lastResponseId : String
  lastResponseItems : List (Json N)

/-- The timer is an event and the age comes with the request. -/
structure CachedWebSocketConnection (N : Type) where
  socket : Nat
  busy : Bool
  continuation : Option (CachedWebSocketContinuationState N)

def requestBodyWithoutInput (body : RequestBody N) : RequestBody N :=
  { body with input := none, previousResponseId := none }

section

variable [JsonNumber N]

def responseInputsEqual (a b : Option (List (Json N))) : Bool :=
  Json.stringifyChars (.arr (a.getD [])) == Json.stringifyChars (.arr (b.getD []))

def requestBodiesMatchExceptInput (a b : RequestBody N) : Bool :=
  Json.stringifyChars (.obj (requestBodyWithoutInput a).members) ==
    Json.stringifyChars (.obj (requestBodyWithoutInput b).members)

def getCachedWebSocketInputDelta (body : RequestBody N)
    (continuation : CachedWebSocketContinuationState N) : Option (List (Json N)) :=
  if !requestBodiesMatchExceptInput body continuation.lastRequestBody then none
  else
    let currentInput := body.input.getD []
    let baseline :=
      continuation.lastRequestBody.input.getD [] ++ continuation.lastResponseItems
    if currentInput.length < baseline.length then none
    else if !responseInputsEqual (some (currentInput.take baseline.length)) (some baseline) then
      none
    else some (currentInput.drop baseline.length)

/-- The body that is sent, and the connection after it. -/
def buildCachedWebSocketRequestBody (entry : CachedWebSocketConnection N)
    (body : RequestBody N) : RequestBody N × CachedWebSocketConnection N :=
  match entry.continuation with
  | none => (body, entry)
  | some continuation =>
    match getCachedWebSocketInputDelta body continuation with
    | none => (body, { entry with continuation := none })
    | some delta =>
      if continuation.lastResponseId = "" then (body, { entry with continuation := none })
      else
        ({ body with
            previousResponseId := some continuation.lastResponseId, input := some delta },
          entry)

end

/-- A response, on the socket that its request came over, and what it followed and said. -/
structure ServerResponse (N : Type) where
  socket : Nat
  id : String
  context : List (Json N)

def contextOf (responses : List (ServerResponse N)) (socket : Nat) (id : String) :
    Option (List (Json N)) :=
  (responses.find? fun response => response.socket == socket && response.id == id).map
    ServerResponse.context

/-- The input that a body stands for when it comes over this socket, or over none. -/
def denotes (responses : List (ServerResponse N)) (socket : Option Nat)
    (body : RequestBody N) : Option (List (Json N)) :=
  match body.previousResponseId with
  | none => some (body.input.getD [])
  | some id =>
    match socket with
    | none => none
    | some socket => (contextOf responses socket id).map (· ++ body.input.getD [])

inductive Transport where
  | sse | websocket | websocketCached | auto
  deriving DecidableEq

/-- Where a call of `processWebSocketStream` is: `caches` says whether its connection will be
kept, and an entry is a connection that the session keeps or kept. -/
inductive StreamStage (N : Type) where
  | connecting (caches : Bool)
  | acquired (socket : Nat) (entry : Option Nat)
  | streaming (socket : Nat) (entry : Option Nat) (requestBody : RequestBody N)
  | done

structure StreamCall (N : Type) where
  accountId : String
  useCachedContext : Bool
  fullBody : RequestBody N
  stage : StreamStage N

/-- A body that was sent, over a socket or as a request of its own. -/
structure SentBody (N : Type) where
  socket : Option Nat
  requestBody : RequestBody N
  fullBody : RequestBody N

/-- `websocketSessionCache` of the session, by account; `connections` are all that were ever
kept, and `sockets` counts those that opened. -/
structure CodexSession (N : Type) where
  sockets : Nat
  connections : List (CachedWebSocketConnection N)
  cache : String → Option Nat
  calls : List (StreamCall N)
  sent : List (SentBody N)
  responses : List (ServerResponse N)

/-- What happens to a session. A request has no previous response of its own, and it is not
cached where there is no session to cache it in. A stream ends with what it told of its response,
and a socket that is not open is not used again. -/
inductive CodexEvent (N : Type) where
  | stream (transport : Transport) (caches : Bool) (accountId : String)
      (input : Option (List (Json N))) (fields : List (String × Json N))
      (expired reusable : Bool)
  | connected (call : Nat)
  | refused (call : Nat)
  | send (call : Nat)
  | failed (call : Nat)
  | completed (call : Nat) (responseId : Option String) (responseItems : List (Json N))
      (aborted reusable : Bool)
  | idleTimeout (entry : Nat)
  | closeSessions

namespace CodexSession

def new : CodexSession N where
  sockets := 0
  connections := []
  cache _ := none
  calls := []
  sent := []
  responses := []

def modifyEntry (s : CodexSession N) (entry : Nat)
    (change : CachedWebSocketConnection N → CachedWebSocketConnection N) : CodexSession N :=
  { s with connections := s.connections.modify entry change }

def forget (s : CodexSession N) (entry : Nat) : CodexSession N :=
  { s with
    cache := fun accountId =>
      if s.cache accountId = some entry then none else s.cache accountId }

def move (s : CodexSession N) (call : Nat) (stage : StreamStage N) : CodexSession N :=
  { s with calls := s.calls.modify call fun call => { call with stage } }

/-- `acquireWebSocket` up to a connection attempt. -/
def acquireWebSocket (s : CodexSession N) (caches : Bool) (accountId : String)
    (expired reusable : Bool) : CodexSession N × StreamStage N :=
  if !caches then (s, .connecting false)
  else
    match s.cache accountId with
    | none => (s, .connecting true)
    | some entry =>
      match s.connections[entry]? with
      | none => (s, .connecting true)
      | some cached =>
        if !cached.busy && expired then (s.forget entry, .connecting true)
        else if !cached.busy && reusable then
          (s.modifyEntry entry ({ · with busy := true }), .acquired cached.socket (some entry))
        else if cached.busy then (s, .connecting false)
        else (s.forget entry, .connecting true)

def connected (s : CodexSession N) (call : Nat) : Option (CodexSession N) :=
  match s.calls[call]? with
  | some ⟨_, _, _, .connecting false⟩ =>
    some { s.move call (.acquired s.sockets none) with sockets := s.sockets + 1 }
  | some ⟨accountId, _, _, .connecting true⟩ =>
    some
      { s.move call (.acquired s.sockets (some s.connections.length)) with
        sockets := s.sockets + 1
        connections := s.connections ++
          [{ socket := s.sockets, busy := true, continuation := none }]
        cache := Function.update s.cache accountId (some s.connections.length) }
  | _ => none

/-- The `release` of a connection, if there is one to keep. -/
def release (s : CodexSession N) (entry : Option Nat) (keep reusable : Bool) :
    CodexSession N :=
  match entry with
  | none => s
  | some entry =>
    if !keep || !reusable then s.forget entry
    else s.modifyEntry entry ({ · with busy := false })

variable [JsonNumber N]

/-- What a call sends, and what becomes of its connection. -/
def requestBody (s : CodexSession N) (call : StreamCall N) (entry : Option Nat) :
    RequestBody N × CodexSession N :=
  match call.useCachedContext, entry with
  | true, some entry =>
    match s.connections[entry]? with
    | none => (call.fullBody, s)
    | some cached =>
      let (body, after) := buildCachedWebSocketRequestBody cached call.fullBody
      (body, s.modifyEntry entry fun _ => after)
  | _, _ => (call.fullBody, s)

def send (s : CodexSession N) (index : Nat) : Option (CodexSession N) :=
  match s.calls[index]? with
  | some call =>
    match call.stage with
    | .acquired socket entry =>
      let (requestBody, s) := s.requestBody call entry
      some
        { s.move index (.streaming socket entry requestBody) with
          sent := s.sent ++
            [{ socket := some socket, requestBody, fullBody := call.fullBody }] }
    | _ => none
  | none => none

def failed (s : CodexSession N) (index : Nat) : Option (CodexSession N) :=
  match s.calls[index]? with
  | some ⟨_, _, _, .streaming _ entry _⟩ =>
    let s := s.move index .done
    match entry with
    | none => some s
    | some entry =>
      some ((s.modifyEntry entry ({ · with continuation := none })).release (some entry)
        false true)
  | _ => none

/-- The server has answered what it was sent, under an id of its own. -/
def answered (s : CodexSession N) (socket : Nat) (requestBody : RequestBody N)
    (responseId : Option String) (responseItems : List (Json N)) : Option (CodexSession N) :=
  match denotes s.responses (some socket) requestBody, responseId with
  | none, _ => none
  | some _, none => some s
  | some input, some id =>
    if id ∈ s.responses.map ServerResponse.id then none
    else
      some
        { s with
          responses := s.responses ++ [{ socket, id, context := input ++ responseItems }] }

/-- What the next request on this connection will be compared with. -/
def continueWith (s : CodexSession N) (call : StreamCall N) (entry : Option Nat)
    (responseId : Option String) (responseItems : List (Json N)) (aborted : Bool) :
    CodexSession N :=
  match entry, responseId with
  | some entry, some id =>
    if !aborted && call.useCachedContext && id ≠ "" then
      s.modifyEntry entry
        ({ · with
          continuation := some
            { lastRequestBody := call.fullBody, lastResponseId := id
              lastResponseItems := responseItems } })
    else s
  | _, _ => s

def completed (s : CodexSession N) (index : Nat) (responseId : Option String)
    (responseItems : List (Json N)) (aborted reusable : Bool) : Option (CodexSession N) :=
  match s.calls[index]? with
  | some call =>
    match call.stage with
    | .streaming socket entry requestBody =>
      (s.answered socket requestBody responseId responseItems).map fun s =>
        ((s.continueWith call entry responseId responseItems aborted).move index
          .done).release entry (!aborted) reusable
    | _ => none
  | none => none

def step (s : CodexSession N) : CodexEvent N → Option (CodexSession N)
  | .stream transport caches accountId input fields expired reusable =>
    let fullBody : RequestBody N := { input, previousResponseId := none, fields }
    if transport = .sse then
      some
        { s with
          sent := s.sent ++ [{ socket := none, requestBody := fullBody, fullBody }] }
    else
      let (s, stage) := s.acquireWebSocket caches accountId expired reusable
      let useCachedContext := transport == .websocketCached || transport == .auto
      some
        { s with
          calls := s.calls ++ [{ accountId, useCachedContext, fullBody, stage }] }
  | .connected call => s.connected call
  | .refused index =>
    match s.calls[index]? with
    | some ⟨_, _, _, .connecting _⟩ => some (s.move index .done)
    | _ => none
  | .send index => s.send index
  | .failed index => s.failed index
  | .completed index responseId responseItems aborted reusable =>
    s.completed index responseId responseItems aborted reusable
  | .idleTimeout entry =>
    match s.connections[entry]? with
    | some cached => some (if cached.busy then s else s.forget entry)
    | none => none
  | .closeSessions => some { s with cache := fun _ => none }

end CodexSession

def codexMachine [JsonNumber N] : Machine (CodexSession N) (CodexEvent N) where
  start s := s = .new
  step := CodexSession.step

end Trpi.Ai
