import Trpi.Chord.Services.Instances
import Trpi.Library.Machine

/-!
# Tasks of an instance directory

chord/src/services/instances.ts with the tasks that observers run for entries. Handlers are
called in the middle of loops over entries and observers, and may call the directory again:
the calls under way are a stack. Maps and sets are iterated as they are at each step, so an
iterator is the place it has come to; places are numbered as they are taken. What
`deactivate`, listeners of an abort and the error callback do has no part here.
-/

namespace Trpi.Chord.Services

variable {α : Type}

structure ObserverTask (α : Type) where
  observer : Nat
  entry : DirectoryEntry α
  cancelled : Bool

/-- An observer with its map from entries to tasks; it is in the set unless closed. -/
structure Observer (α : Type) where
  tasks : List (DirectoryEntry α × Nat)
  closed : Bool

/-- A loop that is under way and where it goes on, or a handler that runs. -/
inductive DirectoryFrame (α : Type) where
  | startAll (entry : DirectoryEntry α) (next : Nat)
  | ready (next : Nat)
  | observe (observer : Nat) (next : Nat)
  | handler
  deriving DecidableEq

/-- The directory: entries with their places, observers and tasks in the order of their
creation, the calls under way. -/
structure TaskDirectory (α : Type) where
  entries : List (Nat × DirectoryEntry α)
  places : Nat
  observers : List (Observer α)
  tasks : List (ObserverTask α)
  ready : Bool
  disposed : Bool
  frames : List (DirectoryFrame α)

inductive DirectoryCall (α : Type) where
  | insert (entry : DirectoryEntry α)
  | replace (entry : DirectoryEntry α)
  | remove (entry : DirectoryEntry α)
  | ready
  | reset
  | observe
  | stop (observer : Nat)
  | dispose
  deriving DecidableEq

inductive DirectoryEvent (α : Type) where
  | call (call : DirectoryCall α)
  | advance
  | returns
  deriving DecidableEq

namespace Observer

variable [DecidableEq α]

/-- What an observer of the set keeps when an entry is removed. -/
def without (entry : DirectoryEntry α) (observer : Observer α) : Observer α :=
  if observer.closed then observer
  else { observer with tasks := observer.tasks.filter fun task => task.1 ≠ entry }

def numbersFor (entry : DirectoryEntry α) (observer : Observer α) : List Nat :=
  if observer.closed then []
  else (observer.tasks.filter fun task => task.1 = entry).map (·.2)

end Observer

namespace TaskDirectory

def create (ready : Bool) : TaskDirectory α where
  entries := []
  places := 0
  observers := []
  tasks := []
  ready := ready
  disposed := false
  frames := []

def get (d : TaskDirectory α) (key : String) : Option (DirectoryEntry α) :=
  (d.entries.find? fun item => item.2.key = key).map (·.2)

/-- The entry at the end of the map. -/
def set (d : TaskDirectory α) (entry : DirectoryEntry α) : TaskDirectory α :=
  { d with
    entries := d.entries ++ [(d.places, entry)]
    places := d.places + 1 }

def delete (d : TaskDirectory α) (key : String) : TaskDirectory α :=
  { d with entries := d.entries.filter fun item => item.2.key ≠ key }

def push (d : TaskDirectory α) (frame : DirectoryFrame α) : TaskDirectory α :=
  { d with frames := frame :: d.frames }

def cancel (d : TaskDirectory α) (ids : List Nat) : TaskDirectory α :=
  { d with tasks := d.tasks.mapIdx fun id task =>
      if id ∈ ids then { task with cancelled := true } else task }

def startAll (d : TaskDirectory α) (entry : DirectoryEntry α) : TaskDirectory α :=
  if d.ready then d.push (.startAll entry 0) else d

def close (d : TaskDirectory α) (id : Nat) : TaskDirectory α :=
  match d.observers[id]? with
  | none => d
  | some observer =>
    if observer.closed then d
    else
      TaskDirectory.cancel
        { d with observers := d.observers.set id { tasks := [], closed := true } }
        (observer.tasks.map (·.2))

section

variable [DecidableEq α]

/-- The tasks of the observers in the set for an entry are cancelled and forgotten. -/
def forget (d : TaskDirectory α) (entry : DirectoryEntry α) : TaskDirectory α :=
  TaskDirectory.cancel
    { d with observers := d.observers.map (·.without entry) }
    (d.observers.flatMap (·.numbersFor entry))

def remove (d : TaskDirectory α) (entry : DirectoryEntry α) : TaskDirectory α :=
  if d.get entry.key = some entry then (d.delete entry.key).forget entry
  else d

/-- A call up to its first call of a handler. -/
def call (d : TaskDirectory α) : DirectoryCall α → Except DirectoryError (TaskDirectory α)
  | .insert entry =>
    if d.disposed then .error .disposed
    else if (d.get entry.key).isSome then .error (.liveKey entry.key)
    else .ok ((d.set entry).startAll entry)
  | .replace entry =>
    if d.disposed then .error .disposed
    else match d.get entry.key with
      | none => .ok ((d.set entry).startAll entry)
      | some previous =>
        if previous.generation = entry.generation then .error .repeatedGeneration
        else .ok (((d.remove previous).set entry).startAll entry)
  | .remove entry => .ok (d.remove entry)
  | .ready =>
    if d.disposed then .error .disposed
    else if d.ready then .ok d
    else .ok ({ d with ready := true }.push (.ready 0))
  | .reset =>
    if d.disposed then .ok d
    else .ok ((d.entries.map (·.2)).foldl remove { d with ready := false })
  | .observe =>
    if d.disposed then .error .disposed
    else
      let observed :=
        { d with observers := d.observers ++ [{ tasks := [], closed := false }] }
      .ok (if d.ready then observed.push (.observe d.observers.length 0)
        else observed)
  | .stop id => .ok (d.close id)
  | .dispose =>
    if d.disposed then .ok d
    else
      .ok { (List.range d.observers.length).foldl close { d with disposed := true }
        with entries := [] }

/-- `#start`: unless the observer is closed or has a task for the entry, its handler is
called. -/
def start (d : TaskDirectory α) (id : Nat) (entry : DirectoryEntry α) : TaskDirectory α :=
  match d.observers[id]? with
  | none => d
  | some observer =>
    if observer.closed || observer.tasks.any (·.1 = entry) then d
    else
      { d with
        observers := d.observers.set id
          { observer with tasks := observer.tasks ++ [(entry, d.tasks.length)] }
        tasks := d.tasks ++ [{ observer := id, entry, cancelled := false }]
        frames := .handler :: d.frames }

/-- The observer of the set at which an iterator goes on. -/
def nextObserver (d : TaskDirectory α) (next : Nat) : Option Nat :=
  (List.range d.observers.length).find? fun id =>
    next ≤ id && d.observers[id]?.any (!·.closed)

/-- The entry of the map at which an iterator goes on. -/
def nextEntry (d : TaskDirectory α) (next : Nat) : Option (Nat × DirectoryEntry α) :=
  d.entries.find? fun item => next ≤ item.1

def advance (d : TaskDirectory α) : Option (TaskDirectory α) :=
  match d.frames with
  | .startAll entry next :: rest =>
    match d.nextObserver next with
    | none => some { d with frames := rest }
    | some id =>
      some ({ d with frames := .startAll entry (id + 1) :: rest }.start id entry)
  | .ready next :: rest =>
    match d.nextEntry next with
    | none => some { d with frames := rest }
    | some (place, entry) =>
      some { d with frames := .startAll entry 0 :: .ready (place + 1) :: rest }
  | .observe id next :: rest =>
    match d.nextEntry next with
    | none => some { d with frames := rest }
    | some (place, entry) =>
      some ({ d with frames := .observe id (place + 1) :: rest }.start id entry)
  | _ => none

/-- Calls are made from handlers and from outside, when nothing is under way. One that throws
changes nothing. -/
def step (d : TaskDirectory α) : DirectoryEvent α → Option (TaskDirectory α)
  | .call call =>
    if d.frames.head?.all (· = .handler) then
      match d.call call with
      | .ok next => some next
      | .error _ => some d
    else none
  | .advance => d.advance
  | .returns =>
    match d.frames with
    | .handler :: rest => some { d with frames := rest }
    | _ => none

/-- The entry for which the innermost loop is about to take a further observer. -/
def startsNext (d : TaskDirectory α) : Option (DirectoryEntry α) :=
  match d.frames with
  | .startAll entry next :: _ => (d.nextObserver next).map fun _ => entry
  | _ => none

/-- Where a loop goes on to a further observer of an entry, the entry is still in the map. -/
def Live (d : TaskDirectory α) (event : DirectoryEvent α) : Prop :=
  event = .advance →
    (d.startsNext.all fun entry => d.get entry.key = some entry) = true

instance (d : TaskDirectory α) (event : DirectoryEvent α) :
    Decidable (d.Live event) :=
  inferInstanceAs (Decidable (_ → _))

end

end TaskDirectory

/-- A directory and whoever uses it. -/
def instanceDirectory (α : Type) [DecidableEq α] :
    Library.Machine (TaskDirectory α) (DirectoryEvent α) where
  start d := ∃ ready, d = .create ready
  step := TaskDirectory.step

end Trpi.Chord.Services
