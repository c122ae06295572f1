import Trpi.Harness.Runtime.Response

/-!
# Checkpoints and structural work

`drive/checkpoint.ts` and `structural.ts`: a run starts, passes its boundaries and compacts
its branch; navigations summarize theirs. The path to the target of a navigation is read
from the session.
-/

namespace Trpi.Harness.Runtime

open Library Ai
open Library.Utf16 (Units)

variable {N : Type}

def isPendingAssistant : LaneMessage N → Bool
  | .message (.assistant message) => message.stopReason = .pending
  | _ => false

/-- `startRun` after the hook. -/
def startRun (timestamp : N) (w : World N) (injected : List (String × LaneMessage N)) :
    Option (World N) :=
  if injected.any (fun item => isPendingAssistant item.2) then none
  else
    w.continueOperation fun operation =>
      match w.flight, operation.state.leaf with
      | .idle, .starting =>
        let entries : List (NewEntry N) :=
          injected.map fun item => { id := item.1, content := .message item.2 }
        (branchTip (insertEntries timestamp w.lane.branch entries)).map fun triggerEntryId =>
          w.commit timestamp entries w.lane.inbox operation
            (.checkpoint { continuation := .needAssistant false, triggerEntryId }) []
      | _, _ => none

def shouldCompact (contextTokens contextWindow : Nat) (settings : CompactionSettings) : Bool :=
  settings.enabled && decide ((contextWindow : Int) - settings.reserveTokens < contextTokens)

def newestCompactionIndex (path : List (PathEntry N)) : Option Nat :=
  (path.zipIdx.filter fun item => item.1.isCompaction).getLast?.map (·.2)

/-- Whether `prepareCompactionThreshold` prepares a compaction. A trigger that is not on the
path is an error unless a compaction guards it. -/
def prepareCompactionThreshold [JsonNumber N] (lane : LaneState N) (settings : RunSettings)
    (checkpoint : CheckpointData) (model : Option ModelLimits) : Option Bool :=
  match settings.compaction.enabled, model with
  | true, some model =>
    let path := readBoundedEntries lane.branch
    let triggerIndex := path.findIdx? fun entry => entry.id = checkpoint.triggerEntryId
    let guarded := (newestCompactionIndex path).any fun newest =>
      triggerIndex.all fun trigger => trigger ≤ newest
    if lane.tipId.isNone then none
    else if guarded then some false
    else if triggerIndex.isNone then none
    else
      some ((prepareCompaction path settings.compaction).any fun preparation =>
        shouldCompact preparation.tokensBefore model.contextWindow settings.compaction)
  | _, _ => some false

def Continuation.isMayFinish : Continuation → Bool
  | .mayFinish _ => true
  | .needAssistant _ => false

/-- `runCheckpoint`. A run that may finish asks its hook first. -/
def runCheckpoint [JsonNumber N] (config : Config) (timestamp : N) (w : World N)
    (model : Option ModelLimits) (taskId stepId : String) : Option (World N) :=
  w.continueOperation fun operation =>
    match w.flight, operation.state.leaf with
    | .idle, .checkpoint data => do
      let settings := operation.state.scope.settings
      let threshold ← prepareCompactionThreshold w.lane settings data model
      let placement ← planBoundaryInbox config w.lane operation.state.scope
        (!threshold && data.continuation.isMayFinish)
      match placement.triggerEntryId, threshold, data.continuation with
      | some triggerEntryId, _, _ =>
        some (w.commit timestamp placement.entries placement.inbox operation
          (assistantReadyAtBoundary config w.lane stepId triggerEntryId false)
          [.inputPlaced triggerEntryId])
      | none, true, _ =>
        some (w.commit timestamp placement.entries placement.inbox operation
          (.summaryDeciding
            { taskId, reason := some .threshold, boundary := .resumeCheckpoint data })
          [])
      | none, false, .needAssistant overflowRecoveryUsed =>
        some (w.commit timestamp placement.entries placement.inbox operation
          (assistantReadyAtBoundary config w.lane stepId data.triggerEntryId
            overflowRecoveryUsed)
          [])
      | none, false, .mayFinish includeFinalAssistant =>
        some { w with flight := .finishing includeFinalAssistant placement.entryIds }
    | _, _ => none

inductive StructuralOutcome (N : Type) where
  | compaction (resultEntryId : String) (result : CompactionEntry N)
  | branchSummary (resultEntryId : String) (summary : Units)
  | declined
  | failed (error : OperationError)

def compactionDeclined : OperationError where
  code := "compaction_declined"
  message := "Overflow compaction was declined"
  details := none

/-- Where a run goes on after its compaction, or after none. -/
def resumeLeaf (config : Config) (lane : LaneState N) (stepId : String)
    (resumeAfter : CheckpointData) (triggerEntryId : Option String) : Leaf N :=
  match triggerEntryId, resumeAfter.continuation with
  | some triggerEntryId, _ => assistantReadyAtBoundary config lane stepId triggerEntryId false
  | none, .needAssistant overflowRecoveryUsed =>
    assistantReadyAtBoundary config lane stepId resumeAfter.triggerEntryId overflowRecoveryUsed
  | none, .mayFinish _ => .checkpoint resumeAfter

/-- The outcome of a compaction in a run. Only a threshold may be declined. -/
def resumeOutcome (config : Config) (timestamp : N) (w : World N) (stepId : String)
    (operation : Operation N) (task : SummaryTask) (resumeAfter : CheckpointData) :
    StructuralOutcome N → Option (World N)
  | .branchSummary _ _ => none
  | .compaction resultEntryId result => do
    let placement ← planBoundaryInbox config w.lane operation.state.scope false
    some (w.commit timestamp
      ({ id := resultEntryId, content := .compaction result } :: placement.entries)
      placement.inbox operation
      (resumeLeaf config w.lane stepId resumeAfter placement.triggerEntryId)
      (.compacted task.reason :: inputMarks placement.triggerEntryId))
  | .declined =>
    if w.lane.tipId.isNone then none
    else if task.reason = some .threshold then do
      let placement ← planBoundaryInbox config w.lane operation.state.scope
        resumeAfter.continuation.isMayFinish
      match placement.triggerEntryId, resumeAfter.continuation with
      | none, .mayFinish includeFinalAssistant =>
        some { w with flight := .finishing includeFinalAssistant placement.entryIds }
      | triggerEntryId, _ =>
        some (w.commit timestamp placement.entries placement.inbox operation
          (resumeLeaf config w.lane stepId resumeAfter triggerEntryId)
          (inputMarks triggerEntryId))
    else some (w.fail timestamp operation compactionDeclined)
  | .failed error =>
    if w.lane.tipId.isNone then none else some (w.fail timestamp operation error)

def finishOutcome (timestamp : N) (w : World N) (operation : Operation N)
    (task : SummaryTask) : StructuralOutcome N → Option (World N)
  | .branchSummary _ _ => none
  | .compaction resultEntryId result =>
    some (w.finish timestamp [{ id := resultEntryId, content := .compaction result }]
      w.lane.inbox operation .completed none [.compacted task.reason])
  | .declined =>
    if w.lane.tipId.isNone then none
    else
      some (w.finish timestamp [] w.lane.inbox operation .declined none [])
  | .failed error =>
    if w.lane.tipId.isNone then none else some (w.fail timestamp operation error)

def navigationOutcome (timestamp : N) (w : World N) (operation : Operation N)
    (targetPath : List (PathEntry N)) : StructuralOutcome N → Option (World N)
  | .compaction _ _ => none
  | .branchSummary resultEntryId summary =>
    some ({ w with lane := { w.lane with branch := targetPath } }.finish timestamp
      [{ id := resultEntryId
         content := .branchSummary operation.meta_.sourceTipId summary }]
      w.lane.inbox operation .completed none [])
  | .declined =>
    some (w.finish timestamp [] w.lane.inbox operation .declined none [])
  | .failed error => some (w.fail timestamp operation error)

def publishStructuralOutcome (config : Config) (timestamp : N) (w : World N)
    (stepId : String) (targetPath : List (PathEntry N)) (outcome : StructuralOutcome N) :
    Option (World N) :=
  w.continueOperation fun operation =>
    operation.state.leaf.task?.bind fun task =>
      match task.boundary with
      | .resumeCheckpoint resumeAfter =>
        resumeOutcome config timestamp w stepId operation task resumeAfter outcome
      | .finish => finishOutcome timestamp w operation task outcome
      | .commitNavigation _ _ => navigationOutcome timestamp w operation targetPath outcome

/-- What a hook decides. -/
inductive StructuralDecision (N : Type) where
  | generate
  | decline
  | compaction (result : CompactionEntry N)
  | summary (summary : Units)

def reachesTarget (targetPath : List (PathEntry N)) (targetId : String) : Bool :=
  branchTip targetPath = some targetId

def targetMissing (task : SummaryTask) (targetPath : List (PathEntry N)) : Bool :=
  match task.boundary with
  | .commitNavigation targetId _ => !reachesTarget targetPath targetId
  | _ => false

/-- `runStructuralDecision` after the hook. A hook answers what it was asked. -/
def runStructuralDecision (config : Config) (timestamp : N) (w : World N)
    (resultEntryId stepId : String) (targetPath : List (PathEntry N))
    (decision : StructuralDecision N) : Option (World N) :=
  w.continueOperation fun operation =>
    match w.flight, operation.state.leaf with
    | .idle, .summaryDeciding task =>
      let publish := publishStructuralOutcome config timestamp w stepId targetPath
      if targetMissing task targetPath then none
      else
        match decision with
        | .decline => publish .declined
        | .compaction result => publish (.compaction resultEntryId result)
        | .summary summary => publish (.branchSummary resultEntryId summary)
        | .generate =>
          some (w.commit timestamp [] w.lane.inbox operation
            (.summaryReady task
              { resultEntryId, configuration := w.lane.configuration
                retryPolicy := normalizedRetryPolicy config }
              1)
            [])
    | _, _ => none

/-- `runStructuralGeneration` up to its first request. -/
def runStructuralGeneration (config : Config) (timestamp : N) (w : World N)
    (stepId : String) (targetPath : List (PathEntry N)) (model : Option ModelLimits) :
    Option (World N) :=
  w.continueOperation fun operation =>
    match w.flight, operation.state.leaf, model with
    | .idle, .summaryReady _ summaryContext _, none =>
      publishStructuralOutcome config timestamp w stepId targetPath
        (.failed (modelUnavailable summaryContext.configuration.model))
    | .idle, .summaryReady task summaryContext nextAttempt, some _ =>
      let effect : SummaryEffect :=
        { task, summaryContext, attempt := nextAttempt, request := none, usageIds := [] }
      some
        { w.commit timestamp [] w.lane.inbox operation (.summaryEffectPending effect) [] with
          flight := .summarizing effect 0 }
    | _, _, _ => none

def publishNestedRequestIntent (timestamp : N) (w : World N) (usageId : String) :
    Option (World N) :=
  w.continueOperation fun operation =>
    match w.flight, operation.state.leaf with
    | .summarizing effect requestIndex, .summaryEffectPending current =>
      some
        { w.commit timestamp [] w.lane.inbox operation
            (.summaryEffectPending { current with request := some (requestIndex, usageId) })
            [] with
          flight := .summarizing effect (requestIndex + 1) }
    | _, _ => none

def publishNestedRequestOutcome (timestamp : N) (w : World N) (usageId : String) :
    Option (World N) :=
  w.settleOperation fun operation =>
    match w.flight, operation.state.leaf with
    | .summarizing effect requestIndex, .summaryEffectPending current =>
      some
        { w.commit timestamp [] w.lane.inbox operation
            (.summaryEffectPending
              { current with request := none, usageIds := current.usageIds ++ [usageId] })
            [] with
          flight := .summarizing effect requestIndex }
    | _, _ => none

inductive AttemptResult (N : Type) where
  | compaction (result : CompactionEntry N)
  | branchSummary (summary : Units)
  | error (error : OperationError) (retryable : Bool)
  | cancelRequested

def retryWaitFromEffect (effect : SummaryEffect) (now : Nat) (errorMessage : String) : Leaf N :=
  .summaryRetryWait effect.task effect.summaryContext
    { nextAttempt := effect.attempt + 1
      notBefore := retryNotBefore effect.summaryContext.retryPolicy effect.attempt now
      errorMessage }

def publishAttemptResult (config : Config) (timestamp : N) (now : Nat) (w : World N)
    (stepId : String) (targetPath : List (PathEntry N)) (result : AttemptResult N) :
    Option (World N) :=
  w.settleOperation fun current =>
    match w.flight, current.state.leaf with
    | .summarizing effect _, .summaryEffectPending _ =>
      let publish := publishStructuralOutcome config timestamp w stepId targetPath
      match result with
      | .cancelRequested => some w.rest
      | .compaction result => publish (.compaction effect.summaryContext.resultEntryId result)
      | .branchSummary summary =>
        publish (.branchSummary effect.summaryContext.resultEntryId summary)
      | .error error retryable =>
        if error.code = "aborted" && current.state.scope.running then none
        else if retryable && effect.attempt < effect.summaryContext.retryPolicy.maxAttempts then
          w.continueOperation fun operation =>
            some (w.commit timestamp [] w.lane.inbox operation
              (retryWaitFromEffect effect now error.message) [])
        else publish (.failed error)
    | _, _ => none

/-- `runStructuralRetryWait` once it is over. -/
def runStructuralRetryWait (timestamp : N) (w : World N) (now : Nat) : Option (World N) :=
  w.settleOperation fun current =>
    match w.flight, current.state.leaf with
    | .idle, .summaryRetryWait task summaryContext wait =>
      if now < wait.notBefore then none
      else
        w.continueOperation fun operation =>
          some (w.commit timestamp [] w.lane.inbox operation
            (.summaryReady task summaryContext wait.nextAttempt) [])
    | _, _ => none

def structuralInterrupted : OperationError where
  code := "structural_interrupted"
  message := "Structural summary attempt was interrupted and its external outcome is unknown"
  details := none

def recoverStructuralGeneration (config : Config) (timestamp : N) (now : Nat) (w : World N)
    (stepId : String) (targetPath : List (PathEntry N)) : Option (World N) :=
  w.settleOperation fun current =>
    match w.flight, current.state.leaf with
    | .idle, .summaryEffectPending effect =>
      if effect.summaryContext.retryPolicy.maxAttempts ≤ effect.attempt then
        publishStructuralOutcome config timestamp w stepId targetPath
          (.failed structuralInterrupted)
      else
        w.continueOperation fun operation =>
          some (w.commit timestamp [] w.lane.inbox operation
            (retryWaitFromEffect effect now structuralInterrupted.message) [])
    | _, _ => none

/-- `commitNavigation`. Without a target the branch is left empty. -/
def commitNavigation (timestamp : N) (w : World N) (targetPath : List (PathEntry N)) :
    Option (World N) :=
  w.continueOperation fun operation =>
    match w.flight, operation.state.leaf with
    | .idle, .navigationReadyToCommit targetId label =>
      if branchTip targetPath ≠ targetId || targetId = operation.meta_.sourceTipId ||
          (targetId.isNone && label.isSome) then
        none
      else
        some ({ w with lane := { w.lane with branch := targetPath } }.finish timestamp []
          w.lane.inbox operation .completed none [])
    | _, _ => none

end Trpi.Harness.Runtime
