import Trpi.Session.MutationRuns

/-!
# Commands of a lane

Commands, drives and idle callbacks of one lane share the mutation line of the session
(lane.ts). A command asks for an idle callback before it queues and again when its turn
comes; only then its planner reads the lane. Every reaction of a promise is an event of its
own, and so is whatever planners, callbacks, drives and the other users of the session do.
A caller that waits goes on when its promise has resolved, and checks everything again.
-/

namespace Trpi.Harness

open Library Session

variable {β V N D : Type}

structure LaneState (D : Type) where
  operation : Option String
  data : D
  deriving DecidableEq

/-- The procedures that plan on the line. Any planner may be behind `command`. -/
inductive Procedure where
  | command
  | drive (operationId : String)
  | runWhenIdle
  deriving DecidableEq

/-- A `Drive`, named by the call that installed it. -/
structure Drive where
  id : Nat
  operationId : String

/-- What a caller waits for: the `stateChange` of some moment, or a drive's `completion`. -/
inductive Wait where
  | nothing
  | change (seen : Nat)
  | completion (drive : Nat)
  deriving DecidableEq

/-- What a planner has for its caller. -/
inductive PlanResult where
  | answered
  | installed
  | observe (drive : Nat)
  | occupied (drive : Nat)
  | wait (wait : Wait)
  | claimed
  deriving DecidableEq

/-- `LaneCommandOutcome`, or an error. -/
inductive CommandOutcome where
  | threw
  | idleBlocked (change : Nat)
  | planned (result : PlanResult)
  deriving DecidableEq

/-- How far a call has come. The number is that of its job. -/
inductive Phase (D : Type) where
  | entering (wait : Wait)
  | queued (job : Nat)
  | planning (job : Nat)
  | committing (job : Nat) (next : LaneState D)
  | leaving (job : Nat) (outcome : CommandOutcome)
  | driving
  | callback
  | done
  deriving DecidableEq

def Phase.plans : Phase D → Option Nat
  | .planning job | .committing job _ => some job
  | _ => none

/-- The job of the call on the line. -/
def Phase.job : Phase D → Option Nat
  | .queued job | .planning job | .committing job _ | .leaving job _ => some job
  | _ => none

/-- Whether the drive that the call installed has yet to end. -/
def Phase.drives : Phase D → Bool
  | .leaving _ (.planned .installed) | .driving => true
  | _ => false

/-- Whether the call has claimed the idle lane. -/
def Phase.claims : Phase D → Bool
  | .leaving _ (.planned .claimed) | .callback => true
  | _ => false

structure LaneCall (D : Type) where
  procedure : Procedure
  phase : Phase D

inductive LaneMark where
  | planned (id : Nat)
  | committed (id : Nat)
  | driven (id : Nat)
  | callback (id : Nat)

/-- The lane on its session. `changes` counts the signals of a state change; the idle owner
is the call that claimed the lane. -/
structure LaneWorld (β V N D : Type) where
  line : LineState β V N
  state : LaneState D
  idleOwner : Option Nat
  activeDrive : Option Drive
  changes : Nat
  closed : Bool
  calls : List (LaneCall D)
  marks : List LaneMark

inductive LaneCommand (β V N D : Type) where
  | threw
  | answer
  | commit (writes : List (Write β V N)) (throws : Bool) (next : LaneState D)
  deriving DecidableEq

inductive LaneEvent (β V N D : Type) where
  | call (procedure : Procedure)
  | enter (id : Nat)
  | abandon (id : Nat)
  | refused (id : Nat)
  | starts (id : Nat) (aborted : Bool)
  | plan (id : Nat) (decision : LaneCommand β V N D)
  | committed (id : Nat) (materializes : Bool)
  | resume (id : Nat)
  | driveEnds (id : Nat) (fails : Bool)
  | settle (id : Nat)
  | close
  | line (event : LineEvent β V N)
  deriving DecidableEq

namespace LaneWorld

def start (line : LineState β V N) (s : LaneState D) : LaneWorld β V N D where
  line := line
  state := s
  idleOwner := none
  activeDrive := none
  changes := 0
  closed := false
  calls := []
  marks := []

def signalStateChange (w : LaneWorld β V N D) : LaneWorld β V N D :=
  { w with changes := w.changes + 1 }

def seal_ (w : LaneWorld β V N D) : LaneWorld β V N D :=
  { w with closed := true }.signalStateChange

/-- The harness is sealed by its first fault; an error of a closed lane is no fault. -/
def onFault (w : LaneWorld β V N D) : LaneWorld β V N D :=
  if w.closed then w else w.seal_

def phase (w : LaneWorld β V N D) (id : Nat) : Option (Phase D) :=
  w.calls[id]?.map (·.phase)

def setPhase (w : LaneWorld β V N D) (id : Nat) (phase : Phase D) : LaneWorld β V N D :=
  { w with calls := w.calls.modify id fun call => { call with phase } }

def mark (w : LaneWorld β V N D) (mark : LaneMark) : LaneWorld β V N D :=
  { w with marks := mark :: w.marks }

/-- Whether what the caller waits for has resolved. -/
def resolved (w : LaneWorld β V N D) : Wait → Bool
  | .nothing => true
  | .change seen => seen < w.changes
  | .completion drive => !(w.phase drive).any (·.drives)

/-- `command` up to `session.mutate`, at its begin and after a wait. -/
def enter (w : LaneWorld β V N D) (id : Nat) : LaneWorld β V N D :=
  if w.closed then w.setPhase id .done
  else if w.idleOwner.isSome then w.setPhase id (.entering (.change w.changes))
  else if w.line.mutate.jobs.length = w.line.jobs.length then w.setPhase id .done
  else
    { w with line := w.line.mutate }.setPhase id (.queued w.line.jobs.length)

section

variable (pendingMessage : β → Bool) (w : LaneWorld β V N D)

/-- The callback of `session.mutate` returns. -/
def leave (id job : Nat) (outcome : CommandOutcome) : Option (LaneWorld β V N D) :=
  (w.line.step pendingMessage
      (.returns job (if outcome = .threw then .rejected else .fulfilled))).map fun line =>
    { w with line }.setPhase id (.leaving job outcome)

/-- The planner of `runWhenIdle`. -/
def planIdle (id : Nat) : LaneWorld β V N D × PlanResult :=
  match w.activeDrive, w.state.operation with
  | some drive, _ => (w, .wait (.completion drive.id))
  | none, some _ => (w, .wait (.change w.changes))
  | none, none => ({ w with idleOwner := some id }.signalStateChange, .claimed)

/-- The planner of `drive` for the current operation. -/
def planDrive (id : Nat) (operationId : String) : LaneWorld β V N D × PlanResult :=
  match w.activeDrive with
  | none =>
    ({ w with activeDrive := some { id, operationId } }.signalStateChange, .installed)
  | some drive =>
    (w, if drive.operationId = operationId then .observe drive.id else .occupied drive.id)

def planAt (id : Nat) (aborted : Bool) : Procedure → Option (LaneWorld β V N D × PlanResult)
  | .command => none
  | .runWhenIdle => some (w.planIdle id)
  | .drive operationId =>
    if aborted then some (w, .answered)
    else if w.state.operation = some operationId then some (w.planDrive id operationId)
    else none

/-- The callback of `session.mutate` is called, and runs to its first `await`. -/
def starts (id : Nat) (aborted : Bool) : Option (LaneWorld β V N D) :=
  match w.calls[id]? with
  | some { procedure, phase := .queued job } =>
    (w.line.step pendingMessage (.call job)).bind fun line =>
      let w := { w with line }
      if w.closed then w.leave pendingMessage id job .threw
      else if w.idleOwner.isSome then
        w.leave pendingMessage id job (.idleBlocked w.changes)
      else
        let w := w.mark (.planned id)
        match w.planAt id aborted procedure with
        | none => some (w.setPhase id (.planning job))
        | some (w, result) => w.leave pendingMessage id job (.planned result)
  | _ => none

/-- The planner has decided. That of `drive` only reads here. -/
def plan (id : Nat) (decision : LaneCommand β V N D) : Option (LaneWorld β V N D) :=
  match w.calls[id]?, decision with
  | some { phase := .planning job, .. }, .threw => w.onFault.leave pendingMessage id job .threw
  | some { phase := .planning job, .. }, .answer =>
    w.leave pendingMessage id job (.planned .answered)
  | some { procedure := .command, phase := .planning job }, .commit writes throws next =>
    (w.line.step pendingMessage (.commit job writes throws)).map fun line =>
      { w with line }.setPhase id (.committing job next)
  | _, _ => none

def committed (id : Nat) (materializes : Bool) : Option (LaneWorld β V N D) :=
  match w.phase id with
  | some (.committing job next) =>
    match (w.line.jobs[job]?.bind (·.mutation)).bind (·.commitResult) with
    | some (.settled .fulfilled) =>
      let w := ({ w with state := next }.signalStateChange).mark (.committed id)
      if materializes then w.leave pendingMessage id job (.planned .answered)
      else w.onFault.leave pendingMessage id job .threw
    | some (.settled .rejected) => w.onFault.leave pendingMessage id job .threw
    | _ => none
  | _ => none

end

/-- What the callers of `command` do with its outcome. -/
def resumeWith (w : LaneWorld β V N D) (id : Nat) : CommandOutcome → LaneWorld β V N D
  | .threw => w.setPhase id .done
  | .idleBlocked change => w.setPhase id (.entering (.change change))
  | .planned .answered => w.setPhase id .done
  | .planned .installed => (w.mark (.driven id)).setPhase id .driving
  | .planned (.observe _) => w.setPhase id .done
  | .planned (.occupied drive) => w.setPhase id (.entering (.completion drive))
  | .planned (.wait wait) => w.setPhase id (.entering wait)
  | .planned .claimed =>
    if w.closed then
      ({ w with idleOwner := if w.idleOwner = some id then none else w.idleOwner }
        |>.signalStateChange).setPhase id .done
    else (w.mark (.callback id)).setPhase id .callback

def resume (w : LaneWorld β V N D) (id : Nat) : Option (LaneWorld β V N D) :=
  match w.phase id with
  | some (.leaving job outcome) =>
    if w.line.jobs[job]?.any (·.stage.hasReleased) then some (w.resumeWith id outcome)
    else none
  | _ => none

def abandon (w : LaneWorld β V N D) (id : Nat) : Option (LaneWorld β V N D) :=
  match w.phase id with
  | some (.entering .nothing) => none
  | some (.entering _) => some (w.setPhase id .done)
  | _ => none

def refused (w : LaneWorld β V N D) (id : Nat) : Option (LaneWorld β V N D) :=
  match w.phase id with
  | some (.queued job) =>
    if w.line.jobs[job]?.any (·.stage = .refused) then some (w.setPhase id .done)
    else none
  | _ => none

/-- `driveOperation` is over. -/
def driveEnds (w : LaneWorld β V N D) (id : Nat) (fails : Bool) :
    Option (LaneWorld β V N D) :=
  match w.phase id with
  | some .driving =>
    let w := if fails then w.onFault else w
    let w :=
      if w.activeDrive.map (·.id) = some id then
        { w with activeDrive := none }.signalStateChange
      else w
    some (w.setPhase id .done)
  | _ => none

/-- The idle callback has settled, in whatever way. -/
def settle (w : LaneWorld β V N D) (id : Nat) : Option (LaneWorld β V N D) :=
  match w.phase id with
  | some .callback =>
    some (({ w with idleOwner := if w.idleOwner = some id then none else w.idleOwner }
      |>.signalStateChange).setPhase id .done)
  | _ => none

def owns (w : LaneWorld β V N D) : LineEvent β V N → Bool
  | .call job | .commit job _ _ | .returns job _ =>
    w.calls.any fun call => call.phase.job = some job
  | _ => false

def step (pendingMessage : β → Bool) (w : LaneWorld β V N D) :
    LaneEvent β V N D → Option (LaneWorld β V N D)
  | .call procedure =>
    some { w with calls := w.calls ++ [{ procedure, phase := .entering .nothing }] }
  | .enter id =>
    match w.phase id with
    | some (.entering wait) => if w.resolved wait then some (w.enter id) else none
    | _ => none
  | .abandon id => w.abandon id
  | .refused id => w.refused id
  | .starts id aborted => w.starts pendingMessage id aborted
  | .plan id decision => w.plan pendingMessage id decision
  | .committed id materializes => w.committed pendingMessage id materializes
  | .resume id => w.resume id
  | .driveEnds id fails => w.driveEnds id fails
  | .settle id => w.settle id
  | .close => some w.seal_
  | .line event =>
    if w.owns event then none
    else (w.line.step pendingMessage event).map fun line => { w with line }

end LaneWorld

/-- One lane, from when it is restored on a new session. -/
def laneCommands (pendingMessage : β → Bool) : Machine (LaneWorld β V N D) (LaneEvent β V N D) where
  start w := ∃ s, w = .start .start s
  step := LaneWorld.step pendingMessage

end Trpi.Harness
