import Trpi.Library.Machine
import Trpi.Session.Types

/-!
# The mutation line of a session

Calls of `mutate` put jobs into a line that runs them one at a time (mutation-line.ts,
session.ts). A job grants its call a mutator and ends when that is released; closing seals
the line, waits for it and closes the storage. Every reaction of a promise is an event of
its own, so a run is any interleaving of these with what callers, callbacks and the storage
do. Of the storage there is what reaches it and what it answers. The history is what
happened, newest first.
-/

namespace Trpi.Session

variable {β V N : Type}

inductive Outcome where
  | fulfilled
  | rejected
  deriving DecidableEq

inductive Settlement where
  | pending
  | settled (outcome : Outcome)
  deriving DecidableEq

/-- How far a call has come. Its job waits for the tail of the line and is refused or
granted; its callback runs and returns; `end` waits for the commit and releases the job. -/
inductive Stage where
  | waiting
  | refused
  | granted
  | running
  | returned
  | ending
  | released
  | finished
  deriving DecidableEq

/-- `StorageBackedSessionMutation`. -/
structure SessionMutation where
  active : Bool
  commitResult : Option Settlement

/-- A job of the line, and its mutator once granted. -/
structure Job where
  stage : Stage
  mutation : Option SessionMutation

def Job.new : Job := { stage := .waiting, mutation := none }

inductive SessionState where
  | opened
  | closing
  | closed
  deriving DecidableEq

inductive Mark (β V N : Type) where
  | admitted (id : Nat)
  | refused (id : Nat)
  | started (id : Nat)
  | returned (id : Nat) (outcome : Outcome)
  | ended (id : Nat)
  | released (id : Nat)
  | committed (id : Nat) (writes : List (Write β V N))
  | acknowledged (id : Nat)
  | storageClosed
  | closeReturned

/-- The session with its line. `closePromise` holds the number of jobs that closing waits
for. -/
structure LineState (β V N : Type) where
  state : SessionState
  sealedError : Bool
  jobs : List Job
  closePromise : Option Nat
  storageClosed : Bool
  history : List (Mark β V N)

inductive LineEvent (β V N : Type) where
  | mutate
  | turn (id : Nat)
  | call (id : Nat)
  | commit (id : Nat) (writes : List (Write β V N)) (throws : Bool)
  | answer (id : Nat) (outcome : Outcome)
  | returns (id : Nat) (outcome : Outcome)
  | ends (id : Nat)
  | release (id : Nat)
  | finish (id : Nat)
  | close
  | closeStorage
  | closeReturns
  deriving DecidableEq

/-- Whether the promise of the job has settled. -/
def Stage.settled : Stage → Bool
  | .refused | .finished => true
  | _ => false

/-- Whether the callback has been called, so that the program may hold the mutator. -/
def Stage.started : Stage → Bool
  | .running | .returned | .ending | .released | .finished => true
  | _ => false

def tailSettled (jobs : List Job) : Nat → Bool
  | 0 => true
  | id + 1 => jobs[id]?.any (·.stage.settled)

def isPendingAssistant (pendingMessage : β → Bool) : Write β V N → Bool
  | .entry entry => entry.type = .message && pendingMessage entry.body
  | _ => false

/-- `commit` of a mutator, and whether the storage is reached. The storage may throw. -/
def SessionMutation.commit (pendingMessage : β → Bool) (mutation : SessionMutation)
    (writes : List (Write β V N)) (throws : Bool) : SessionMutation × Bool :=
  if mutation.active = false then (mutation, false)
  else if mutation.commitResult.isSome then (mutation, false)
  else if writes.any (isPendingAssistant pendingMessage) then
    ({ mutation with commitResult := some (.settled .rejected) }, false)
  else
    ({ mutation with commitResult := some (if throws then .settled .rejected else .pending) }, true)

namespace LineState

def start : LineState β V N where
  state := .opened
  sealedError := false
  jobs := []
  closePromise := none
  storageClosed := false
  history := []

/-- What an event does to one job where it may happen. -/
def onJob (s : LineState β V N) (id : Nat) (enabled : Job → Bool) (update : Job → Job)
    (marks : Job → List (Mark β V N)) : Option (LineState β V N) :=
  match s.jobs[id]? with
  | none => none
  | some job =>
    if enabled job then
      some { s with
        jobs := s.jobs.set id (update job)
        history := marks job ++ s.history }
    else none

/-- `beginMutation`: admission to the line. -/
def mutate (s : LineState β V N) : LineState β V N :=
  if s.state ≠ .opened then s
  else if s.sealedError then s
  else
    { s with
      jobs := s.jobs ++ [.new]
      history := .admitted s.jobs.length :: s.history }

/-- The job's reaction to the tail. -/
def turn (s : LineState β V N) (id : Nat) : Option (LineState β V N) :=
  let enabled job := job.stage = .waiting && tailSettled s.jobs id
  if s.sealedError then
    s.onJob id enabled (fun job => { job with stage := .refused }) fun _ => [.refused id]
  else
    s.onJob id enabled
      (fun _ => { stage := .granted, mutation := some { active := true, commitResult := none } })
      fun _ => []

def commit (pendingMessage : β → Bool) (s : LineState β V N) (id : Nat)
    (writes : List (Write β V N)) (throws : Bool) : Option (LineState β V N) :=
  s.onJob id (·.stage.started)
    (fun job =>
      { job with mutation := job.mutation.map fun mutation =>
          (mutation.commit pendingMessage writes throws).1 })
    fun job =>
      if job.mutation.any fun mutation => (mutation.commit pendingMessage writes throws).2 then
        [.committed id writes]
      else []

def answer (s : LineState β V N) (id : Nat) (outcome : Outcome) :
    Option (LineState β V N) :=
  s.onJob id (fun job => job.mutation.any (·.commitResult == some .pending))
    (fun job =>
      { job with mutation := job.mutation.map fun mutation =>
          { mutation with commitResult := some (.settled outcome) } })
    fun _ => if outcome = .fulfilled then [.acknowledged id] else []

/-- `end`: the mutator is no longer active. -/
def ends (s : LineState β V N) (id : Nat) : Option (LineState β V N) :=
  s.onJob id (fun job => job.stage = .returned)
    (fun job =>
      { stage := .ending
        mutation := job.mutation.map fun mutation => { mutation with active := false } })
    fun _ => [.ended id]

/-- The commit, if any, has settled. -/
def release (s : LineState β V N) (id : Nat) : Option (LineState β V N) :=
  s.onJob id
    (fun job => job.stage = .ending && !job.mutation.any (·.commitResult == some .pending))
    (fun job => { job with stage := .released }) fun _ => [.released id]

def close (s : LineState β V N) : LineState β V N :=
  if s.closePromise.isSome then s
  else
    { s with
      state := .closing
      sealedError := true
      closePromise := some s.jobs.length }

/-- The tail that closing waits for has settled. -/
def closeStorage (s : LineState β V N) : Option (LineState β V N) :=
  match s.closePromise with
  | none => none
  | some drained =>
    if tailSettled s.jobs drained && !s.storageClosed then
      some { s with storageClosed := true, history := .storageClosed :: s.history }
    else none

/-- The storage has answered, in whatever way. -/
def closeReturns (s : LineState β V N) : Option (LineState β V N) :=
  if s.storageClosed && s.state = .closing then
    some { s with state := .closed, history := .closeReturned :: s.history }
  else none

def step (pendingMessage : β → Bool) (s : LineState β V N) :
    LineEvent β V N → Option (LineState β V N)
  | .mutate => some s.mutate
  | .turn id => s.turn id
  | .call id =>
    s.onJob id (fun job => job.stage = .granted) (fun job => { job with stage := .running })
      fun _ => [.started id]
  | .commit id writes throws => s.commit pendingMessage id writes throws
  | .answer id outcome => s.answer id outcome
  | .returns id outcome =>
    s.onJob id (fun job => job.stage = .running) (fun job => { job with stage := .returned })
      fun _ => [.returned id outcome]
  | .ends id => s.ends id
  | .release id => s.release id
  | .finish id =>
    s.onJob id (fun job => job.stage = .released) (fun job => { job with stage := .finished })
      fun _ => []
  | .close => some s.close
  | .closeStorage => s.closeStorage
  | .closeReturns => s.closeReturns

end LineState

/-- The session and whoever uses it. -/
def mutationLine (pendingMessage : β → Bool) :
    Library.Machine (LineState β V N) (LineEvent β V N) where
  start s := s = .start
  step := LineState.step pendingMessage

end Trpi.Session
