import Trpi.Harness.Compaction
import Trpi.Library.Machine

/-!
# The durable state of an operation

`OperationState` of agent/src/harness/session/types.ts: a scope that every leaf has, and one
leaf for each procedure that may be next. Options that only reach a provider or a hook
(stream options, thinking levels, custom instructions) are left out. A queued entry and a
tool result that waits for its place carry their payload here, which the session keeps under
their ids.
-/

namespace Trpi.Harness.Runtime

open Library Ai

variable {N : Type}

inductive Control where
  | running
  | cancelRequested (requestedAt : Nat)
  deriving DecidableEq

structure ModelIdentity where
  provider : String
  modelId : String

structure LaneConfiguration where
  model : ModelIdentity
  activeToolNames : List String

inductive ErrorDetails where
  | model (identity : ModelIdentity)
  | tools (names : List String)

structure OperationError where
  code : String
  message : String
  details : Option ErrorDetails

inductive TerminalStatus where
  | completed | declined | aborted | failed

inductive Continuation where
  | needAssistant (overflowRecoveryUsed : Bool)
  | mayFinish (includeFinalAssistant : Bool)
  deriving DecidableEq

structure CheckpointData where
  continuation : Continuation
  triggerEntryId : String
  deriving DecidableEq

structure NormalizedRetryPolicy where
  maxAttempts : Nat
  baseDelayMs : Nat
  maxAgentDelayMs : Nat

structure GenerationContext where
  stepId : String
  triggerEntryId : String
  configuration : LaneConfiguration
  retryPolicy : NormalizedRetryPolicy
  overflowRecoveryUsed : Bool

/-- The `status` of a call, with the staged result of one whose outcome is ready. -/
inductive ToolCallStatus (N : Type) where
  | planned
  | effectPending (replaySafe : Bool)
  | outcomeReady (terminate : Bool) (message : ToolResultMessage N)
  | completed (terminate : Bool)

structure ToolCall (N : Type) where
  sourceIndex : Nat
  resultEntryId : String
  status : ToolCallStatus N

structure ToolBatch (N : Type) where
  assistantEntryId : String
  configuration : LaneConfiguration
  turnId : String
  calls : List (ToolCall N)

structure SummaryContext where
  resultEntryId : String
  configuration : LaneConfiguration
  retryPolicy : NormalizedRetryPolicy

inductive QueueMode where
  | all | oneAtATime

structure RunSettings where
  compaction : CompactionSettings
  steeringMode : QueueMode
  followUpMode : QueueMode

structure OperationScope where
  control : Control
  settings : RunSettings
  latestAssistantEntryId : Option String

structure RetryWait where
  nextAttempt : Nat
  notBefore : Nat
  errorMessage : String

inductive ResultBoundary where
  | resumeCheckpoint (resumeAfter : CheckpointData)
  | finish
  | commitNavigation (targetId : String) (label : Option String)
  deriving DecidableEq

inductive CompactionReason where
  | manual | threshold | overflow
  deriving DecidableEq

structure SummaryTask where
  taskId : String
  reason : Option CompactionReason
  boundary : ResultBoundary

structure AssistantEffect where
  generationContext : GenerationContext
  attempt : Nat
  responseEntryId : String
  usageId : String
  intendedOutputLimit : Nat
  contextWindow : Nat

structure DeferredScope where
  stepId : String
  sourceEntryId : String
  poll : Nat
  configuration : LaneConfiguration

structure DeferredEffect extends DeferredScope where
  responseEntryId : String
  usageId : String

structure SummaryEffect where
  task : SummaryTask
  summaryContext : SummaryContext
  attempt : Nat
  request : Option (Nat × String)
  usageIds : List String

/-- The dispatcher leaves. -/
inductive Leaf (N : Type) where
  | starting
  | checkpoint (data : CheckpointData)
  | assistantReady (generationContext : GenerationContext) (nextAttempt : Nat)
  | assistantEffectPending (effect : AssistantEffect)
  | assistantRetryWait (generationContext : GenerationContext) (wait : RetryWait)
  | tools (batch : ToolBatch N)
  | deferredSuspended (deferred : DeferredScope)
  | deferredEffectPending (effect : DeferredEffect)
  | summaryDeciding (task : SummaryTask)
  | summaryReady (task : SummaryTask) (summaryContext : SummaryContext) (nextAttempt : Nat)
  | summaryEffectPending (effect : SummaryEffect)
  | summaryRetryWait (task : SummaryTask) (summaryContext : SummaryContext) (wait : RetryWait)
  | navigationReadyToCommit (targetId : Option String) (label : Option String)

structure OperationState (N : Type) where
  scope : OperationScope
  leaf : Leaf N

def OperationScope.running (scope : OperationScope) : Bool := scope.control = .running

def Leaf.task? : Leaf N → Option SummaryTask
  | .summaryDeciding task | .summaryReady task _ _ | .summaryRetryWait task _ _ => some task
  | .summaryEffectPending effect => some effect.task
  | _ => none

inductive Intent where
  | run (promptEntryIds : List String)
  | compaction
  | navigation (targetId : Option String) (summarize : Bool) (label : Option String)

structure OperationMeta where
  operationId : String
  sourceTipId : Option String
  startedAt : Nat
  intent : Intent

structure Operation (N : Type) where
  meta_ : OperationMeta
  state : OperationState N

/-- What an observer reads of an operation that has ended. -/
structure OperationResultRecord where
  operationId : String
  intent : Intent
  status : TerminalStatus
  error : Option OperationError
  fromTipId : Option String
  tipId : Option String
  startedAt : Nat

inductive InboxItemKind where
  | steer | followUp | nextRun | write
  deriving DecidableEq

inductive PendingEntry (N : Type) where
  | message (payload : LaneMessage N)
  | custom (customType : String)

def PendingEntry.content : PendingEntry N → EntryContent N
  | .message payload => .message payload
  | .custom customType => .custom customType

structure InboxItem (N : Type) where
  entryId : String
  kind : InboxItemKind
  pending : PendingEntry N

/-- An entry before its commit. Its parent is the entry before it. -/
structure NewEntry (N : Type) where
  id : String
  content : EntryContent N

/-- The lane as the session holds it. The branch is listed from its root to the tip; only
the order of sequence numbers is kept. -/
structure LaneState (N : Type) where
  branch : List (PathEntry N)
  configuration : LaneConfiguration
  inbox : List (InboxItem N)
  operation : Option (Operation N)
  result : Option OperationResultRecord

def branchTip (branch : List (PathEntry N)) : Option String := branch.getLast?.map (·.id)

def LaneState.tipId (lane : LaneState N) : Option String := branchTip lane.branch

/-- The entries are inserted one after the other on the tip. -/
def insertEntries (timestamp : N) (branch : List (PathEntry N)) :
    List (NewEntry N) → List (PathEntry N)
  | [] => branch
  | entry :: entries =>
    insertEntries timestamp
      (branch ++ [{ id := entry.id, parentId := branchTip branch, seq := branch.length, timestamp
                    content := entry.content }])
      entries

/-- The newest compaction of the branch and what comes after it. -/
def readBoundedEntries (branch : List (PathEntry N)) : List (PathEntry N) :=
  buildContextEntries branch

def stateMatchesIntent (intent : Intent) (s : OperationState N) : Bool :=
  match intent, s.leaf with
  | .compaction, leaf => leaf.task?.any fun task => task.boundary = .finish
  | .navigation targetId summarize label, .navigationReadyToCommit target own =>
    !summarize && target = targetId && own = label
  | .navigation targetId summarize label, leaf =>
    summarize && leaf.task?.any fun task =>
      match task.boundary with
      | .commitNavigation target own => some target = targetId && own = label
      | _ => false
  | .run _, .navigationReadyToCommit _ _ => false
  | .run _, leaf =>
    leaf.task?.all fun task =>
      match task.boundary with
      | .resumeCheckpoint _ => true
      | _ => false

/-- The state in which `acceptRun`, `acceptCompaction` and `acceptNavigation` leave a new
operation. -/
def acceptedState (settings : RunSettings) (taskId : String) : Intent → Option (OperationState N)
  | .run _ => some { scope := ⟨.running, settings, none⟩, leaf := .starting }
  | .compaction =>
    some
      { scope := ⟨.running, settings, none⟩
        leaf := .summaryDeciding { taskId, reason := some .manual, boundary := .finish } }
  | .navigation targetId false label =>
    some { scope := ⟨.running, settings, none⟩, leaf := .navigationReadyToCommit targetId label }
  | .navigation targetId true label =>
    targetId.map fun targetId =>
      { scope := ⟨.running, settings, none⟩
        leaf := .summaryDeciding
          { taskId, reason := none, boundary := .commitNavigation targetId label } }

def MAX_SAFE_INTEGER : Nat := 2 ^ 53 - 1

def safeInteger (n : Nat) : Nat := if n ≤ MAX_SAFE_INTEGER then n else MAX_SAFE_INTEGER

def retryDelayMs (policy : NormalizedRetryPolicy) (attempt : Nat) : Nat :=
  min (safeInteger (policy.baseDelayMs * 2 ^ (attempt - 1))) policy.maxAgentDelayMs

def retryNotBefore (policy : NormalizedRetryPolicy) (attempt now : Nat) : Nat :=
  safeInteger (now + retryDelayMs policy attempt)

/-!
## Boundaries of a run

`drive/boundary.ts`: which of the lane's queued entries a boundary places on the branch, and
the generation that follows. What the process configures may differ from one step to the
next. `none` stands for an error that ends the drive.
-/

/-- What the procedures read of the lane's `Config`. -/
structure Config where
  retryEnabled : Bool
  maxRetries : Nat
  baseDelayMs : Nat
  maxAgentDelayMs : Nat
  toolNames : List String
  entryProjectors : List String

def normalizedRetryPolicy (config : Config) : NormalizedRetryPolicy where
  maxAttempts := if config.retryEnabled then config.maxRetries + 1 else 1
  baseDelayMs := config.baseDelayMs
  maxAgentDelayMs := config.maxAgentDelayMs

def assistantReadyAtBoundary (config : Config) (lane : LaneState N)
    (stepId triggerEntryId : String) (overflowRecoveryUsed : Bool) : Leaf N :=
  .assistantReady
    { stepId, triggerEntryId, configuration := lane.configuration
      retryPolicy := normalizedRetryPolicy config, overflowRecoveryUsed }
    1

/-- Whether the entry becomes part of the conversation. -/
def projects (config : Config) : PendingEntry N → Bool
  | .message _ => true
  | .custom customType => customType ∈ config.entryProjectors

def itemsOf (kind : InboxItemKind) (inbox : List (InboxItem N)) : List (InboxItem N) :=
  inbox.filter fun item => item.kind = kind

def takeQueued (mode : QueueMode) (items : List (InboxItem N)) : List (InboxItem N) :=
  match mode with
  | .all => items
  | .oneAtATime => items.take 1

def InboxItem.isAmong (item : InboxItem N) (items : List (InboxItem N)) : Bool :=
  items.any fun candidate => candidate.entryId = item.entryId

structure BoundaryPlacement (N : Type) where
  entries : List (NewEntry N)
  inbox : List (InboxItem N)
  triggerEntryId : Option String

def selectSteer (settings : RunSettings) (inbox : List (InboxItem N)) : List (InboxItem N) :=
  let steer := takeQueued settings.steeringMode (itemsOf .steer inbox)
  inbox.filter fun item => item.kind = .write || item.isAmong steer

/-- Follow-ups are placed only where nothing else continues the run. -/
def selectBoundary (config : Config) (settings : RunSettings) (inbox : List (InboxItem N))
    (followUpWhenNoTrigger : Bool) : List (InboxItem N) :=
  let selected := selectSteer settings inbox
  if followUpWhenNoTrigger && !selected.any (fun item => projects config item.pending) then
    let followUp := takeQueued settings.followUpMode (itemsOf .followUp inbox)
    inbox.filter fun item => item.isAmong selected || item.isAmong followUp
  else selected

def queuedIsMessage (item : InboxItem N) : Bool :=
  match item.kind, item.pending with
  | .write, _ => true
  | _, .message _ => true
  | _, .custom _ => false

def planBoundaryInbox (config : Config) (lane : LaneState N) (scope : OperationScope)
    (followUpWhenNoTrigger : Bool) : Option (BoundaryPlacement N) :=
  let selected := selectBoundary config scope.settings lane.inbox followUpWhenNoTrigger
  if selected.all queuedIsMessage then
    some
      { entries := selected.map fun item => { id := item.entryId, content := item.pending.content }
        inbox := lane.inbox.filter fun item => !item.isAmong selected
        triggerEntryId :=
          (selected.filter fun item => projects config item.pending).getLast?.map (·.entryId) }
  else none

def BoundaryPlacement.entryIds (placement : BoundaryPlacement N) : List String :=
  placement.entries.map (·.id)

/-- What a drive has done beyond the state: it started an overflow compaction, appended a
compaction, placed conversation input, or settled a tool batch. -/
inductive Mark where
  | overflowCompaction (taskId : String)
  | compacted (reason : Option CompactionReason)
  | inputPlaced (entryId : String)
  | toolBatchSettled (turnId : String)
  deriving DecidableEq

/-- What a procedure holds between its commits. -/
inductive Flight (N : Type) where
  | idle
  | generating (intent : AssistantEffect)
  | polling (intent : DeferredEffect) (recovery : Bool)
  | settling (intent : AssistantEffect ⊕ DeferredEffect) (response : AssistantMessage N)
      (recovery : Bool)
  | summarizing (effect : SummaryEffect) (requestIndex : Nat)
  | finishing (includeFinalAssistant : Bool) (plannedEntryIds : List String)

structure World (N : Type) where
  lane : LaneState N
  flight : Flight N
  marks : List Mark

namespace World

def commit (w : World N) (timestamp : N) (entries : List (NewEntry N))
    (inbox : List (InboxItem N)) (operation : Operation N) (leaf : Leaf N)
    (marks : List Mark) : World N where
  lane :=
    { w.lane with
      branch := insertEntries timestamp w.lane.branch entries
      inbox
      operation := some { operation with state := { operation.state with leaf } } }
  flight := .idle
  marks := w.marks ++ marks

/-- A commit that ends the operation. The record names the tip that the entries leave. -/
def finish (w : World N) (timestamp : N) (entries : List (NewEntry N))
    (inbox : List (InboxItem N)) (operation : Operation N) (status : TerminalStatus)
    (error : Option OperationError) (marks : List Mark) : World N :=
  let branch := insertEntries timestamp w.lane.branch entries
  { lane :=
      { w.lane with
        branch
        inbox
        operation := none
        result := some
          { operationId := operation.meta_.operationId, intent := operation.meta_.intent
            status, error, fromTipId := operation.meta_.sourceTipId, tipId := branchTip branch
            startedAt := operation.meta_.startedAt } }
    flight := .idle
    marks := w.marks ++ marks }

/-- An answer without a commit. -/
def rest (w : World N) : World N := { w with flight := .idle }

def settleOperation (w : World N) (plan : Operation N → Option (World N)) :
    Option (World N) :=
  w.lane.operation.bind plan

/-- The plan runs only while the operation is not cancelled. -/
def continueOperation (w : World N) (plan : Operation N → Option (World N)) :
    Option (World N) :=
  w.settleOperation fun operation =>
    if operation.state.scope.running then plan operation else some w.rest

/-- A non-retryable failure of the current operation. -/
def fail (w : World N) (timestamp : N) (operation : Operation N) (error : OperationError) :
    World N :=
  w.finish timestamp [] w.lane.inbox operation .failed (some error) []

end World

def inputMarks (triggerEntryId : Option String) : List Mark :=
  triggerEntryId.toList.map .inputPlaced

/-- `finishRunBoundary` after the hook. A follow-up of the hook counts only for the plan
that the hook has seen. -/
def finishRunBoundary (config : Config) (timestamp : N) (w : World N) (stepId : String)
    (followUp : Option (String × UserMessage N)) : Option (World N) :=
  match w.flight with
  | .finishing includeFinalAssistant plannedEntryIds =>
    w.continueOperation fun operation =>
      (planBoundaryInbox config w.lane operation.state.scope true).bind fun placement =>
        match placement.triggerEntryId, followUp with
        | some triggerEntryId, _ =>
          some (w.commit timestamp placement.entries placement.inbox operation
            (assistantReadyAtBoundary config w.lane stepId triggerEntryId false)
            [.inputPlaced triggerEntryId])
        | none, followUp =>
          match followUp.filter fun _ => placement.entryIds = plannedEntryIds with
          | some (id, message) =>
            some (w.commit timestamp
              (placement.entries ++ [{ id, content := .message (.message (.user message)) }])
              placement.inbox operation
              (assistantReadyAtBoundary config w.lane stepId id false) [.inputPlaced id])
          | none =>
            if (branchTip (insertEntries timestamp w.lane.branch placement.entries)).isNone ||
                (includeFinalAssistant && operation.state.scope.latestAssistantEntryId.isNone) then
              none
            else
              some (w.finish timestamp placement.entries placement.inbox operation .completed
                none [])
  | _ => none

end Trpi.Harness.Runtime
