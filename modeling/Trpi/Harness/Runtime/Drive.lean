import Trpi.Harness.Runtime.Structural

/-!
# One operation, driven

Tool batches (`drive/tools.ts`, `tool-placement.ts`), cancellation (`reconcile.ts`), the
commands of the lane that reach a running operation, and the restart of the process. A drive
runs the procedure of the leaf it finds. Everything that hooks, providers, tools and callers
may do is in the events; a restart forgets what a procedure held and reads the lane again.
-/

namespace Trpi.Harness.Runtime

open Library Ai

variable {N : Type}

namespace ToolCall

def isCompleted (call : ToolCall N) : Bool :=
  match call.status with
  | .completed _ => true
  | _ => false

def terminates (call : ToolCall N) : Bool :=
  match call.status with
  | .completed terminate => terminate
  | _ => false

def ready? (call : ToolCall N) : Option (Bool × ToolResultMessage N) :=
  match call.status with
  | .outcomeReady terminate message => some (terminate, message)
  | _ => none

def isReady (call : ToolCall N) : Bool := call.ready?.isSome

def isOpen (call : ToolCall N) : Bool :=
  match call.status with
  | .planned | .effectPending _ => true
  | _ => false

def isPlanned (call : ToolCall N) : Bool :=
  match call.status with
  | .planned => true
  | _ => false

def same (call other : ToolCall N) : Bool :=
  call.sourceIndex = other.sourceIndex && call.resultEntryId = other.resultEntryId

end ToolCall

def findCall (batch : ToolBatch N) (sourceIndex : Nat) (resultEntryId : String) :
    Option (ToolCall N) :=
  batch.calls.find? fun call =>
    call.sourceIndex = sourceIndex && call.resultEntryId = resultEntryId

def replaceCall (batch : ToolBatch N) (replacement : ToolCall N) : ToolBatch N :=
  { batch with
    calls := batch.calls.map fun call => if call.same replacement then replacement else call }

def publishToolIntent (timestamp : N) (w : World N) (sourceIndex : Nat)
    (resultEntryId : String) (replaySafe : Bool) : Option (World N) :=
  w.continueOperation fun operation =>
    match operation.state.leaf with
    | .tools batch =>
      ((findCall batch sourceIndex resultEntryId).filter ToolCall.isPlanned).map fun call =>
        w.commit timestamp [] w.lane.inbox operation
          (.tools (replaceCall batch { call with status := .effectPending replaySafe })) []
    | _ => none

/-- `publishToolOutcome`. A cancelled operation does not keep that a tool ends it. -/
def publishToolOutcome (timestamp : N) (w : World N) (sourceIndex : Nat)
    (resultEntryId : String) (terminate : Bool) (message : ToolResultMessage N) :
    Option (World N) :=
  w.settleOperation fun operation =>
    match operation.state.leaf with
    | .tools batch =>
      ((findCall batch sourceIndex resultEntryId).filter ToolCall.isOpen).map fun call =>
        w.commit timestamp [] w.lane.inbox operation
          (.tools (replaceCall batch
            { call with
              status := .outcomeReady (operation.state.scope.running && terminate) message }))
          []
    | _ => none

def readyCalls (calls : List (ToolCall N)) : List (ToolCall N) :=
  (calls.dropWhile ToolCall.isCompleted).takeWhile ToolCall.isReady

def placedEntry (item : ToolCall N × ToolResultMessage N) : NewEntry N where
  id := item.1.resultEntryId
  content := .message (.message (.toolResult item.2))

def placedItems (calls : List (ToolCall N)) (count : Nat) :
    List (ToolCall N × ToolResultMessage N) :=
  ((readyCalls calls).take count).filterMap fun call =>
    call.ready?.map fun ready => (call, ready.2)

def completeCall (items : List (ToolCall N × ToolResultMessage N)) (call : ToolCall N) :
    ToolCall N :=
  match items.find? fun item => item.1.same call with
  | some item => { call with status := .completed ((item.1.ready?.map (·.1)).getD false) }
  | none => call

/-- `addedToolNames` of the results, each name once. -/
def addedNames (active : List String) (items : List (ToolCall N × ToolResultMessage N)) :
    List String :=
  (items.flatMap fun item => item.2.addedToolNames.getD []).foldl
    (fun names name => if name ∈ active ∨ name ∈ names then names else names ++ [name]) []

/-- The state after the placement: the batch with the calls, or what follows a batch whose
calls are all completed. -/
def placedLeaf (batch : ToolBatch N) (calls : List (ToolCall N)) (triggerEntryId : String) :
    Leaf N × List Mark :=
  if calls.all ToolCall.isCompleted then
    (.checkpoint
      { continuation :=
          if calls.all ToolCall.terminates then .mayFinish false else .needAssistant false
        triggerEntryId }, [.toolBatchSettled batch.turnId])
  else (.tools { batch with calls }, [])

def commitPlacement (timestamp : N) (w : World N) (count : Nat) : Option (World N) :=
  w.settleOperation fun operation =>
    match operation.state.leaf with
    | .tools batch =>
      let items := placedItems batch.calls count
      items.getLast?.map fun last =>
        let placed :=
          placedLeaf batch (batch.calls.map (completeCall items)) last.1.resultEntryId
        let configuration :=
          { w.lane.configuration with
            activeToolNames := w.lane.configuration.activeToolNames ++
              addedNames w.lane.configuration.activeToolNames items }
        { w with lane := { w.lane with configuration } }.commit timestamp
          (items.map placedEntry) w.lane.inbox operation placed.1 placed.2
    | _ => none

/-- Whether `reconcileOperation` ends the operation in this leaf at once. -/
def abortsAtOnce [JsonNumber N] (lane : LaneState N) (intent : Intent) : Leaf N → Bool
  | .assistantEffectPending _ | .deferredEffectPending _ | .tools _ => false
  | .deferredSuspended deferred => readDeferredSourceHandle lane deferred
  | leaf =>
    match intent, leaf.task? with
    | .run _, some task =>
      task.reason.isSome &&
        match task.boundary with
        | .resumeCheckpoint _ => true
        | _ => false
    | _, _ => true

def publishAbortedTerminal [JsonNumber N] (timestamp : N) (w : World N) :
    Option (World N) :=
  w.settleOperation fun operation =>
    match w.flight with
    | .idle =>
      if !operation.state.scope.running &&
          abortsAtOnce w.lane operation.meta_.intent operation.state.leaf then
        some (w.finish timestamp [] w.lane.inbox operation .aborted none [])
      else none
    | _ => none

/-- An entry is queued behind the operation. -/
def enqueue (w : World N) (item : InboxItem N) : Option (World N) :=
  w.settleOperation fun _ =>
    if queuedIsMessage item then
      some { w with lane := { w.lane with inbox := w.lane.inbox ++ [item] } }
    else none

def cancelQueued (w : World N) (entryId : String) : World N :=
  { w with
    lane := { w.lane with
      inbox := w.lane.inbox.filter fun item => item.entryId ≠ entryId } }

def setConfiguration (w : World N) (configuration : LaneConfiguration) : World N :=
  { w with lane := { w.lane with configuration } }

/-- `requestOperationAbort`. What is queued for the run goes back to the caller. -/
def requestOperationAbort (w : World N) (requestedAt : Nat) : Option (World N) :=
  w.settleOperation fun operation =>
    if operation.state.scope.running then
      let scope := { operation.state.scope with control := .cancelRequested requestedAt }
      some
        { w with
          lane := { w.lane with
            inbox := w.lane.inbox.filter fun item =>
              item.kind ≠ .steer && item.kind ≠ .followUp
            operation := some { operation with state := { operation.state with scope } } } }
    else some w

/-- The process ends and another restores the lane. -/
def restart (w : World N) : Option (World N) :=
  w.settleOperation fun operation =>
    if stateMatchesIntent operation.meta_.intent operation.state then some w.rest else none

inductive Action (N : Type) where
  | startRun (injected : List (String × LaneMessage N))
  | checkpoint (model : Option ModelLimits) (taskId stepId : String)
  | finishRun (stepId : String) (followUp : Option (String × UserMessage N))
  | generate (model : Option ModelLimits) (responseEntryId usageId : String)
  | retryWait
  | poll (model : Option ModelLimits) (responseEntryId usageId : String)
  | respond (response : AssistantMessage N)
  | recoverEffect (partialMessage : Option (AssistantMessage N))
  | publishResponse (ids : SettlementIds)
  | decide (resultEntryId stepId : String) (targetPath : List (PathEntry N))
      (decision : StructuralDecision N)
  | summarize (stepId : String) (targetPath : List (PathEntry N)) (model : Option ModelLimits)
  | summaryRequest (usageId : String)
  | summaryResponse (usageId : String)
  | attemptResult (stepId : String) (targetPath : List (PathEntry N)) (result : AttemptResult N)
  | summaryRetryWait
  | recoverSummary (stepId : String) (targetPath : List (PathEntry N))
  | commitNavigation (targetPath : List (PathEntry N))
  | toolIntent (sourceIndex : Nat) (resultEntryId : String) (replaySafe : Bool)
  | toolOutcome (sourceIndex : Nat) (resultEntryId : String) (terminate : Bool)
      (message : ToolResultMessage N)
  | placeTools (count : Nat)
  | abortTerminal
  | enqueue (item : InboxItem N)
  | cancelQueued (entryId : String)
  | setConfiguration (configuration : LaneConfiguration)
  | abort
  | restart

/-- An action, with the configuration and the clocks it reads. -/
structure Event (N : Type) where
  config : Config
  timestamp : N
  now : Nat
  action : Action N

variable [JsonNumber N]

def World.step (classifiers : Classifiers N) (w : World N) (event : Event N) :
    Option (World N) :=
  let config := event.config
  let timestamp := event.timestamp
  match event.action with
  | .startRun injected => startRun timestamp w injected
  | .checkpoint model taskId stepId => runCheckpoint config timestamp w model taskId stepId
  | .finishRun stepId followUp => finishRunBoundary config timestamp w stepId followUp
  | .generate model responseEntryId usageId =>
    runGeneration config timestamp w model responseEntryId usageId
  | .retryWait => runRetryWait timestamp w event.now
  | .poll model responseEntryId usageId =>
    pollDeferred timestamp w model responseEntryId usageId
  | .respond response => respond w response
  | .recoverEffect partialMessage => recoverEffect timestamp w partialMessage
  | .publishResponse ids => publishResponse classifiers timestamp event.now w ids
  | .decide resultEntryId stepId targetPath decision =>
    runStructuralDecision config timestamp w resultEntryId stepId targetPath decision
  | .summarize stepId targetPath model =>
    runStructuralGeneration config timestamp w stepId targetPath model
  | .summaryRequest usageId => publishNestedRequestIntent timestamp w usageId
  | .summaryResponse usageId => publishNestedRequestOutcome timestamp w usageId
  | .attemptResult stepId targetPath result =>
    publishAttemptResult config timestamp event.now w stepId targetPath result
  | .summaryRetryWait => runStructuralRetryWait timestamp w event.now
  | .recoverSummary stepId targetPath =>
    recoverStructuralGeneration config timestamp event.now w stepId targetPath
  | .commitNavigation targetPath => Runtime.commitNavigation timestamp w targetPath
  | .toolIntent sourceIndex resultEntryId replaySafe =>
    publishToolIntent timestamp w sourceIndex resultEntryId replaySafe
  | .toolOutcome sourceIndex resultEntryId terminate message =>
    publishToolOutcome timestamp w sourceIndex resultEntryId terminate message
  | .placeTools count => commitPlacement timestamp w count
  | .abortTerminal => publishAbortedTerminal timestamp w
  | .enqueue item => Runtime.enqueue w item
  | .cancelQueued entryId => some (Runtime.cancelQueued w entryId)
  | .setConfiguration configuration => some (Runtime.setConfiguration w configuration)
  | .abort => requestOperationAbort w event.now
  | .restart => Runtime.restart w

/-- The lane has just accepted the operation. -/
def Accepted (w : World N) : Prop :=
  ∃ (meta_ : OperationMeta) (settings : RunSettings) (taskId : String)
    (state : OperationState N),
    acceptedState settings taskId meta_.intent = some state ∧
    w.lane.operation = some { meta_, state } ∧ w.flight = .idle ∧ w.marks = []

/-- One operation, from when it is accepted until it ends. -/
def driveMachine (classifiers : Classifiers N) : Machine (World N) (Event N) where
  start := Accepted
  step := World.step classifiers

end Trpi.Harness.Runtime
