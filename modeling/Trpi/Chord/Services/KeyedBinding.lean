import Trpi.Chord.Services.Instances
import Trpi.Library.Machine

/-!
# Keyed service binding

chord/src/services/consumer.ts, `KeyedBinding`. A call runs to its first await;
what follows an await is an event of its own, and so is the settling of every
promise the transport returned. `observe` calls the new observer's handler for
the live instances before it looks whether to start, and the handler may call
back, so that look is an event too. `onEmpty` is the owner's: it closes the
binding. The facade of an instance is left out; whether installing it throws is
part of the snapshot.
-/

namespace Trpi.Chord.Services

open Library (Machine)

/-- `installs` is whether `ServiceFacade.install` accepts the members. -/
structure InstanceSnapshot where
  address : Option ServiceInstanceAddress
  installs : Bool
  deriving DecidableEq

/-- A snapshot holds the live instances of a directory, one for each key. -/
structure KeyedSnapshot where
  keyed : Bool
  serviceId : String
  instances : List InstanceSnapshot
  keys_nodup : ((instances.filterMap InstanceSnapshot.address).map
    ServiceInstanceAddress.key).Nodup
  deriving DecidableEq

/-- The life of one `transport.subscribe` call. A subscription is `closing` once
its `close` was called; `ok` tells how that promise settled. -/
inductive SubscriptionPhase where
  | subscribing | refused | live | closing
  | closed (ok : Bool)
  deriving DecidableEq

inductive StartFailure where
  | wrongSnapshot
  | noAddress
  | notInstalled
  | directory (reason : DirectoryError)
  deriving DecidableEq

/-- One call of `#start`; `activated` once its subscription delivers updates. -/
structure Start where
  revision : Nat
  phase : SubscriptionPhase
  activated : Bool
  failure : Option StartFailure

inductive Call where
  | rebind (bound : Bool)
  | close
  deriving DecidableEq

/-- A call whose reset is awaited, with what it waits for. -/
structure Waiting where
  call : Call
  revision : Nat
  subscription : Option Nat
  starting : Option Nat

/-- `subscription` and `starting` name a start by its position; `observing` are the
`observe` calls that are still running. -/
structure KeyedBinding where
  serviceId : String
  instances : InstanceDirectory Unit
  subscription : Option Nat
  starting : Option Nat
  closed : Bool
  bound : Bool
  revision : Nat
  starts : List Start
  waiting : List Waiting
  observing : List Nat
  nextObserver : Nat

inductive InstanceChange where
  | spawned (snapshot : InstanceSnapshot)
  | closed (address : ServiceInstanceAddress)
  deriving DecidableEq

inductive Event where
  | observe
  | observeReturns
  | stop (observer : Nat)
  | rebind (bound : Bool)
  | close
  | subscribed (start : Nat) (snapshot : KeyedSnapshot)
  | subscribeFailed (start : Nat)
  | subscriptionClosed (start : Nat) (ok : Bool)
  | resume (position : Nat)
  | update (start : Nat) (change : InstanceChange)
  deriving DecidableEq

namespace KeyedBinding

def create (serviceId : String) (bound : Bool) : KeyedBinding where
  serviceId := serviceId
  instances := .create false
  subscription := none
  starting := none
  closed := false
  bound := bound
  revision := 0
  starts := []
  waiting := []
  observing := []
  nextObserver := 0

def modifyStart (binding : KeyedBinding) (start : Nat) (f : Start → Start) : KeyedBinding :=
  { binding with starts := binding.starts.modify start f }

def setPhase (binding : KeyedBinding) (start : Nat) (phase : SubscriptionPhase) : KeyedBinding :=
  binding.modifyStart start fun record => { record with phase := phase }

/-- What `#start` leaves once it has recorded its subscription. -/
def record (binding : KeyedBinding) (start : Nat) (instances : InstanceDirectory Unit)
    (failure : Option StartFailure) : KeyedBinding :=
  { binding.modifyStart start fun record =>
      { record with phase := .live, activated := failure.isNone, failure := failure } with
    subscription := some start
    instances := instances }

/-- `#start(revision)` up to its await. -/
def start (binding : KeyedBinding) : KeyedBinding :=
  { binding with
    starting := some binding.starts.length
    starts := binding.starts ++
      [{ revision := binding.revision, phase := .subscribing, activated := false, failure := none }] }

/-- The call of `close` on a subscription taken out of the binding. -/
def closeSubscription (starts : List Start) : Option Nat → List Start
  | none => starts
  | some start => starts.modify start fun record => { record with phase := .closing }

def reset (binding : KeyedBinding) (call : Call) (waitForStarting : Bool) : KeyedBinding :=
  let waiting : Waiting :=
    { call := call
      revision := binding.revision
      subscription := binding.subscription
      starting := if waitForStarting then binding.starting else none }
  { binding with
    instances := binding.instances.reset
    starting := none
    subscription := none
    starts := closeSubscription binding.starts binding.subscription
    waiting := binding.waiting ++ [waiting] }

def rebind (binding : KeyedBinding) (bound : Bool) : KeyedBinding :=
  if binding.closed then binding
  else { binding with bound := bound, revision := binding.revision + 1 }.reset (.rebind bound) false

def close (binding : KeyedBinding) : KeyedBinding :=
  if binding.closed then binding
  else { binding with closed := true, revision := binding.revision + 1 }.reset .close true

/-- `observe` up to the return of the handler calls it makes. -/
def observe (binding : KeyedBinding) : KeyedBinding :=
  if binding.closed then binding
  else
    { binding with
      instances := binding.instances.observe binding.nextObserver
      observing := binding.nextObserver :: binding.observing
      nextObserver := binding.nextObserver + 1 }

/-- The rest of `observe`. -/
def observeReturns (binding : KeyedBinding) (others : List Nat) : KeyedBinding :=
  let returned := { binding with observing := others }
  if binding.bound = true ∧ binding.starting = none then returned.start else returned

/-- The function `observe` returns; a second call does nothing. -/
def stop (binding : KeyedBinding) (observer : Nat) : KeyedBinding :=
  if observer ∈ binding.instances.observers then
    let stopped := { binding with instances := binding.instances.unobserve observer }
    if stopped.instances.observerCount = 0 then stopped.close else stopped
  else binding

def spawn (instances : InstanceDirectory Unit) (snapshot : InstanceSnapshot) :
    Except StartFailure (InstanceDirectory Unit) :=
  match snapshot.address with
  | none => .error .noAddress
  | some address =>
    if snapshot.installs = false then .error .notInstalled
    else (instances.replace { key := address.key, generation := address.generation,
                              content := () }).mapError .directory

/-- The loop over the instances of a snapshot; a throw leaves the ones before it. -/
def install : InstanceDirectory Unit → List InstanceSnapshot →
    InstanceDirectory Unit × Option StartFailure
  | instances, [] => (instances, none)
  | instances, snapshot :: rest =>
    match spawn instances snapshot with
    | .error reason => (instances, some reason)
    | .ok next => install next rest

/-- The rest of `#start` once its subscription is there. -/
def subscribed (binding : KeyedBinding) (start revision : Nat) (snapshot : KeyedSnapshot) :
    KeyedBinding :=
  if binding.closed = true ∨ binding.bound = false ∨ binding.revision ≠ revision then
    binding.setPhase start .closing
  else if snapshot.keyed = false ∨ snapshot.serviceId ≠ binding.serviceId then
    binding.record start binding.instances (some .wrongSnapshot)
  else
    match install binding.instances snapshot.instances with
    | (instances, some reason) => binding.record start instances (some reason)
    | (instances, none) => binding.record start instances.markReady none

def settled (binding : KeyedBinding) (start : Nat) : Bool :=
  match binding.starts[start]? with
  | none => true
  | some record => record.phase ≠ .subscribing && record.phase ≠ .closing

/-- What the awaited reset of a call comes to: not settled, rejected or fulfilled. -/
def resetOutcome (binding : KeyedBinding) (waiting : Waiting) : Option Bool :=
  let startSettled := (waiting.starting.map binding.settled).getD true
  match waiting.subscription.bind fun start => binding.starts[start]? with
  | none => if startSettled then some true else none
  | some record =>
    match record.phase with
    | .closed false => some false
    | .closed true => if startSettled then some true else none
    | _ => none

/-- The rest of `rebind` or `close`. -/
def resumed (binding : KeyedBinding) (waiting : Waiting) : KeyedBinding :=
  match waiting.call with
  | .rebind bound =>
    if binding.closed = true ∨ binding.revision ≠ waiting.revision ∨ binding.bound ≠ bound then
      binding
    else if bound = true ∧ 0 < binding.instances.observerCount then binding.start
    else binding
  | .close => { binding with instances := binding.instances.dispose }

/-- `#update`; what it throws is reported, not kept. -/
def update (binding : KeyedBinding) (change : InstanceChange) : KeyedBinding :=
  if binding.closed then binding
  else match change with
    | .spawned snapshot =>
      match spawn binding.instances snapshot with
      | .error _ => binding
      | .ok instances => { binding with instances := instances }
    | .closed address =>
      { binding with instances := binding.instances.remove address.key address.generation }

/-- Calls come at any time, also from a handler; what waits on a promise goes on
only when no call is running. -/
def step (binding : KeyedBinding) : Event → Option KeyedBinding
  | .observe => some binding.observe
  | .observeReturns =>
    match binding.observing with
    | [] => none
    | _ :: others => some (binding.observeReturns others)
  | .stop observer => if observer ∈ binding.observing then none else some (binding.stop observer)
  | .rebind bound => some (binding.rebind bound)
  | .close => some binding.close
  | .subscribed start snapshot =>
    match binding.starts[start]? with
    | none => none
    | some record =>
      if binding.observing = [] ∧ record.phase = .subscribing then
        some (binding.subscribed start record.revision snapshot)
      else none
  | .subscribeFailed start =>
    match binding.starts[start]? with
    | none => none
    | some record =>
      if binding.observing = [] ∧ record.phase = .subscribing then
        some (binding.setPhase start .refused)
      else none
  | .subscriptionClosed start ok =>
    match binding.starts[start]? with
    | none => none
    | some record =>
      if binding.observing = [] ∧ record.phase = .closing then
        some (binding.setPhase start (.closed ok))
      else none
  | .resume position =>
    match binding.waiting[position]? with
    | none => none
    | some waiting =>
      let rest := { binding with waiting := binding.waiting.eraseIdx position }
      if binding.observing ≠ [] then none
      else match binding.resetOutcome waiting with
        | none => none
        | some false => some rest
        | some true => some (rest.resumed waiting)
  | .update start change =>
    match binding.starts[start]? with
    | none => none
    | some record =>
      if binding.observing = [] ∧ record.activated = true then
        if binding.revision = record.revision then some (binding.update change) else some binding
      else none

def machine (serviceId : String) : Machine KeyedBinding Event where
  start binding := ∃ bound, binding = create serviceId bound
  step := step

end KeyedBinding

end Trpi.Chord.Services
