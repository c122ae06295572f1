import Trpi.Library.Machine

/-!
# The harness event bus

Events are bound to their recipients when they are emitted and delivered one after another
(events.ts). A watch handle has a queue of its own behind the bus: events are buffered until
it is started, and a resnapshot drops what is under way and holds what comes after its
boundary. The delivery tails are queues here. What the bus has delivered and what was
emitted are recorded beside it, and so is what each handle has passed to its listener.

A snapshot is known by its epoch. A handle does not wait for the report of its listener's
failure.
-/

namespace Trpi.Harness

structure HandlerFailure where
  message : String
  stack : Option String

/-- An event as far as the bus looks into it. -/
inductive HarnessEvent (α : Type) where
  | other (type : String) (lane : Option String) (body : α)
  | handlerError (event : String) (error : HandlerFailure) (lane : Option String)

inductive Recipient where
  | listener (id : Nat)
  | watcher (id : Nat)

/-- What stands in the delivery tail: a call of one recipient, the boundary of a
resnapshot, and the clearing at the end. -/
inductive Entry (α : Type) where
  | call (event : HarnessEvent α) (recipient : Recipient) (reportErrors : Bool)
  | barrier (id : Nat)
  | clear

inductive WatchState where
  | buffering
  | started
  | unsubscribed
  deriving DecidableEq

inductive ResnapshotPhase where
  | dropping
  | holding
  deriving DecidableEq

/-- A resnapshot under way: whether its boundary was marked and its capture returned. -/
structure ResnapshotState (α : Type) where
  phase : ResnapshotPhase
  held : List (HarnessEvent α)
  marked : Bool
  captured : Bool

structure BufferedEventWatcher (α : Type) where
  filter : HarnessEvent α → Bool
  hasCapture : Bool
  state : WatchState
  buffer : List (HarnessEvent α × Nat)
  epoch : Nat
  resnapshotState : Option (ResnapshotState α)
  deliveryTail : List (HarnessEvent α × Nat)
  delivering : Option (HarnessEvent α)
  delivered : List (HarnessEvent α × Nat)

structure HarnessEventBus (α : Type) where
  listeners : List (String × Nat)
  watchListeners : List Nat
  watchers : List (BufferedEventWatcher α)
  closed : Bool
  pending : List (Entry α)
  done : List (Entry α)
  emitted : List (Entry α)

variable {α : Type}

namespace HarnessEvent

def type : HarnessEvent α → String
  | .other type _ _ => type
  | .handlerError _ _ _ => "handler_error"

def lane : HarnessEvent α → Option String
  | .other _ lane _ => lane
  | .handlerError _ _ lane => lane

def failure (event : HarnessEvent α) (error : HandlerFailure) : HarnessEvent α :=
  .handlerError event.type error event.lane

end HarnessEvent

namespace BufferedEventWatcher

def new (filter : HarnessEvent α → Bool) (hasCapture : Bool) : BufferedEventWatcher α where
  filter := filter
  hasCapture := hasCapture
  state := .buffering
  buffer := []
  epoch := 0
  resnapshotState := none
  deliveryTail := []
  delivering := none
  delivered := []

/-- There is a listener as long as the handle is started. -/
def enqueue (w : BufferedEventWatcher α) (event : HarnessEvent α) (epoch : Nat) :
    BufferedEventWatcher α :=
  if w.state = .started then
    { w with deliveryTail := w.deliveryTail ++ [(event, epoch)] }
  else w

def push (w : BufferedEventWatcher α) (event : HarnessEvent α) : BufferedEventWatcher α :=
  if w.state = .unsubscribed then w
  else
    match w.resnapshotState with
    | some resnapshot =>
      match resnapshot.phase with
      | .dropping => w
      | .holding =>
        { w with
          resnapshotState := some { resnapshot with held := resnapshot.held ++ [event] } }
    | none =>
      if w.state = .buffering then
        { w with buffer := w.buffer ++ [(event, w.epoch)] }
      else w.enqueue event w.epoch

def start (w : BufferedEventWatcher α) : Option (BufferedEventWatcher α) :=
  if w.state = .buffering then
    some (w.buffer.foldl (fun handle item => handle.enqueue item.1 item.2)
      { w with state := .started, buffer := [] })
  else none

/-- `resnapshot` up to the call of the capture. -/
def resnapshot (w : BufferedEventWatcher α) : Option (BufferedEventWatcher α) :=
  if w.state = .unsubscribed then none
  else if w.hasCapture = false then none
  else if w.resnapshotState.isSome then none
  else
    some { w with
      epoch := w.epoch + 1
      resnapshotState := some { phase := .dropping, held := [], marked := false, captured := false } }

def mark (w : BufferedEventWatcher α) : Option (BufferedEventWatcher α) :=
  match w.resnapshotState with
  | none => none
  | some resnapshot =>
    if resnapshot.captured || resnapshot.marked then none
    else some { w with resnapshotState := some { resnapshot with marked := true } }

/-- The capture returns its snapshot, having marked the boundary. -/
def capture (w : BufferedEventWatcher α) : Option (BufferedEventWatcher α) :=
  match w.resnapshotState with
  | none => none
  | some resnapshot =>
    if resnapshot.captured || !resnapshot.marked then none
    else some { w with resnapshotState := some { resnapshot with captured := true } }

def markResnapshotBoundary (w : BufferedEventWatcher α) : BufferedEventWatcher α :=
  match w.resnapshotState with
  | none => w
  | some resnapshot =>
    match resnapshot.phase with
    | .dropping =>
      { w with resnapshotState := some { resnapshot with phase := .holding } }
    | .holding => w

def resume (w : BufferedEventWatcher α) (held : List (HarnessEvent α)) :
    BufferedEventWatcher α :=
  held.foldl push { w with resnapshotState := none }

def finish (w : BufferedEventWatcher α) : Option (BufferedEventWatcher α) :=
  match w.resnapshotState with
  | none => none
  | some resnapshot =>
    if resnapshot.captured && resnapshot.phase = .holding then some (w.resume resnapshot.held)
    else none

/-- The capture fails, also when it returns without having marked its boundary. -/
def fail (w : BufferedEventWatcher α) : Option (BufferedEventWatcher α) :=
  match w.resnapshotState with
  | none => none
  | some resnapshot =>
    if resnapshot.captured then none else some (w.resume resnapshot.held)

def unsubscribe (w : BufferedEventWatcher α) : BufferedEventWatcher α :=
  { w with state := .unsubscribed, buffer := [] }

/-- The next event of the handle's own tail. -/
def deliver (w : BufferedEventWatcher α) : Option (BufferedEventWatcher α) :=
  match w.delivering, w.deliveryTail with
  | none, (event, epoch) :: rest =>
    if w.state = .started && epoch = w.epoch then
      some { w with
        deliveryTail := rest
        delivering := some event
        delivered := w.delivered ++ [(event, epoch)] }
    else some { w with deliveryTail := rest }
  | _, _ => none

end BufferedEventWatcher

namespace HarnessEventBus

def new : HarnessEventBus α where
  listeners := []
  watchListeners := []
  watchers := []
  closed := false
  pending := []
  done := []
  emitted := []

def snapshotRecipients (bus : HarnessEventBus α) (event : HarnessEvent α) : List Recipient :=
  (bus.listeners.filter fun entry => entry.1 = event.type).map (fun entry => .listener entry.2) ++
    bus.watchListeners.map .watcher

def bind (bus : HarnessEventBus α) (reportErrors : Bool) (event : HarnessEvent α) :
    List (Entry α) :=
  (bus.snapshotRecipients event).map fun recipient => .call event recipient reportErrors

def emitBatch (bus : HarnessEventBus α) (events : List (HarnessEvent α)) : HarnessEventBus α :=
  if bus.closed then bus
  else
    { bus with
      pending := bus.pending ++ events.flatMap (bus.bind true)
      emitted := bus.emitted ++ events.flatMap (bus.bind true) }

/-- Registration of a watch handle; nothing happens on a closed bus. -/
def watch (bus : HarnessEventBus α) (filter : HarnessEvent α → Bool) (hasCapture : Bool) :
    Option (HarnessEventBus α) :=
  if bus.closed then none
  else
    some { bus with
      watchers := bus.watchers ++ [.new filter hasCapture]
      watchListeners := bus.watchListeners ++ [bus.watchers.length] }

def onWatcher (bus : HarnessEventBus α) (id : Nat)
    (act : BufferedEventWatcher α → Option (BufferedEventWatcher α)) :
    Option (HarnessEventBus α) :=
  match bus.watchers[id]? with
  | none => none
  | some w =>
    match act w with
    | none => none
    | some acted => some { bus with watchers := bus.watchers.set id acted }

def enqueueBarrier (bus : HarnessEventBus α) (id : Nat) : HarnessEventBus α :=
  { bus with pending := bus.pending ++ [.barrier id], emitted := bus.emitted ++ [.barrier id] }

/-- What one entry of the tail does; a listener may fail. -/
def run (bus : HarnessEventBus α) (failure : Option HandlerFailure) : Entry α → HarnessEventBus α
  | .call event (.watcher id) _ =>
    { bus with watchers := bus.watchers.modify id fun w =>
        if w.filter event then w.push event else w }
  | .call event (.listener _) reportErrors =>
    match failure with
    | none => bus
    | some error =>
      if reportErrors = false ∨ event.type = "handler_error" then bus
      else { bus with pending := bus.bind false (event.failure error) ++ bus.pending }
  | .barrier id =>
    { bus with watchers := bus.watchers.modify id (·.markResnapshotBoundary) }
  | .clear => { bus with listeners := [], watchListeners := [] }

def process (bus : HarnessEventBus α) (failure : Option HandlerFailure) :
    Option (HarnessEventBus α) :=
  match bus.pending with
  | [] => none
  | entry :: rest =>
    some ({ bus with pending := rest, done := bus.done ++ [entry] }.run failure entry)

/-- The listener of a handle settles; its failure is reported as an event of its own. -/
def settle (bus : HarnessEventBus α) (id : Nat) (failure : Option HandlerFailure) :
    Option (HarnessEventBus α) :=
  match bus.watchers[id]? with
  | none => none
  | some w =>
    match w.delivering with
    | none => none
    | some event =>
      let settled := { bus with watchers := bus.watchers.set id { w with delivering := none } }
      match failure with
      | none => some settled
      | some error =>
        if event.type = "handler_error" then some settled
        else some (settled.emitBatch [event.failure error])

def unsubscribe (bus : HarnessEventBus α) (id : Nat) : Option (HarnessEventBus α) :=
  match bus.onWatcher id fun w => some w.unsubscribe with
  | none => none
  | some unsubscribed =>
    some { unsubscribed with watchListeners := unsubscribed.watchListeners.erase id }

def mark (bus : HarnessEventBus α) (id : Nat) : Option (HarnessEventBus α) :=
  match bus.onWatcher id (·.mark) with
  | none => none
  | some marked => some (marked.enqueueBarrier id)

def close (bus : HarnessEventBus α) : HarnessEventBus α :=
  { bus with closed := true, pending := bus.pending ++ [.clear] }

end HarnessEventBus

inductive BusEvent (α : Type) where
  | on (type : String) (id : Nat)
  | off (type : String) (id : Nat)
  | emitBatch (events : List (HarnessEvent α))
  | watch (filter : HarnessEvent α → Bool) (hasCapture : Bool)
  | start (id : Nat)
  | resnapshot (id : Nat)
  | mark (id : Nat)
  | capture (id : Nat)
  | finish (id : Nat)
  | fail (id : Nat)
  | unsubscribe (id : Nat)
  | process (failure : Option HandlerFailure)
  | deliver (id : Nat)
  | settle (id : Nat) (failure : Option HandlerFailure)
  | close

namespace HarnessEventBus

def step (bus : HarnessEventBus α) : BusEvent α → Option (HarnessEventBus α)
  | .on type id =>
    if bus.closed then none else some { bus with listeners := bus.listeners ++ [(type, id)] }
  | .off type id => some { bus with listeners := bus.listeners.erase (type, id) }
  | .emitBatch events => some (bus.emitBatch events)
  | .watch filter hasCapture => bus.watch filter hasCapture
  | .start id => bus.onWatcher id (·.start)
  | .resnapshot id => bus.onWatcher id (·.resnapshot)
  | .mark id => bus.mark id
  | .capture id => bus.onWatcher id (·.capture)
  | .finish id => bus.onWatcher id (·.finish)
  | .fail id => bus.onWatcher id (·.fail)
  | .unsubscribe id => bus.unsubscribe id
  | .process failure => bus.process failure
  | .deliver id => bus.onWatcher id (·.deliver)
  | .settle id failure => bus.settle id failure
  | .close => some bus.close

end HarnessEventBus

/-- The bus and whoever uses it. -/
def eventBus (α : Type) : Library.Machine (HarnessEventBus α) (BusEvent α) where
  start bus := bus = .new
  step := HarnessEventBus.step

end Trpi.Harness
