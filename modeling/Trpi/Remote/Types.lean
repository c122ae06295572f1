import Trpi.Chord.Services.Instances

/-!
# Messages between a client and a server

The envelopes of protocol/src/protocol.ts that requests and subscriptions use. Request and
subscription ids are the numbers behind `request-` and `service-`. The form of snapshots and
updates on either side and the state codec of a subscription are parameters.
-/

namespace Trpi.Remote

open Trpi.Chord.Services (ServiceMode)

/-- A server, or a session attached at a server. -/
structure RpcTarget where
  serverId : String
  session : Option (String × String)
  deriving DecidableEq

/-- The calls of services and those of `$chord.service`. -/
inductive ServiceCall where
  | subscribe (subscriptionId : Nat) (serviceId : String) (mode : ServiceMode)
  | unsubscribe (subscriptionId : Nat)
  | other (serviceId member : String)
  deriving DecidableEq

structure ProtocolError where
  code : String
  message : String

inductive ClientMessage where
  | hello
  | request (id : Nat) (target : RpcTarget) (call : ServiceCall)
  | cancel (id : Nat) (target : RpcTarget)

/-- The result of a call: absent, a value, or the snapshot of a subscription. -/
inductive Reply (W : Type) where
  | none
  | value
  | snapshot (snapshot : W)

inductive ServerMessage (W V : Type) where
  | hello (serverId : String)
  | helloError (error : ProtocolError)
  | response (id : Nat) (result : Except ProtocolError (Reply W))
  | serviceUpdate (subscriptionId : Nat) (update : V)
  | attachment (attachment : Option RpcTarget)

/-- `createServiceStateEncoder` and `createServiceStateDecoder` with the checks that stand
before them: snapshots `S` and updates `U` at the ends, `W` and `V` on the wire. An update that
the encoder refuses may leave it changed. -/
structure StateCodec (S U W V E D : Type) where
  decoder : D
  encodeSnapshot : S → Except String (E × W)
  encodeUpdate : E → U → E × Except String V
  decodeSnapshot : D → W → Except String (D × S)
  decodeUpdate : D → V → Except String (D × U)

def StateCodec.plain {S U : Type} : StateCodec S U S U Unit Unit where
  decoder := ()
  encodeSnapshot snapshot := .ok ((), snapshot)
  encodeUpdate _ update := ((), .ok update)
  decodeSnapshot _ snapshot := .ok ((), snapshot)
  decodeUpdate _ update := .ok ((), update)

end Trpi.Remote
