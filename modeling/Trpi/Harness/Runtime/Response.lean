import Trpi.Harness.Runtime.Operation

/-!
# Assistant generations and their responses

`drive/generation.ts`, `deferred.ts`, `recovery.ts` and `response.ts`. A response is known
before it is settled, and the lane may change in between. What the classifiers of pi-ai make
of the text of an error is not looked into.
-/

namespace Trpi.Harness.Runtime

open Library Ai

variable {N : Type}

/-- What the procedures ask of a model. -/
structure ModelLimits where
  maxTokens : Nat
  contextWindow : Nat

/-- `isContextOverflow` and `isRetryableAssistantError`. -/
structure Classifiers (N : Type) where
  isContextOverflow : AssistantMessage N → Nat → Bool
  isRetryableAssistantError : AssistantMessage N → Bool

def modelUnavailable (identity : ModelIdentity) : OperationError where
  code := "model_unavailable"
  message := "The configured model is unavailable in this process"
  details := some (.model identity)

def configuredToolsUnavailable (names : List String) : OperationError where
  code := "configured_tools_unavailable"
  message := "One or more configured tools are unavailable in this process"
  details := some (.tools names)

def publishConfigurationFailure (timestamp : N) (w : World N) (error : OperationError) :
    Option (World N) :=
  w.continueOperation fun operation =>
    if w.lane.tipId.isNone then none else some (w.fail timestamp operation error)

/-- `runGeneration` up to its request. -/
def runGeneration (config : Config) (timestamp : N) (w : World N)
    (model : Option ModelLimits) (responseEntryId usageId : String) : Option (World N) :=
  w.settleOperation fun current =>
    match w.flight, current.state.leaf with
    | .idle, .assistantReady generationContext nextAttempt =>
      let configuration := generationContext.configuration
      match model, configuration.activeToolNames.filter (· ∉ config.toolNames) with
      | none, _ =>
        publishConfigurationFailure timestamp w (modelUnavailable configuration.model)
      | some _, tool :: missingTools =>
        publishConfigurationFailure timestamp w (configuredToolsUnavailable (tool :: missingTools))
      | some model, [] =>
        w.continueOperation fun operation =>
          let intent : AssistantEffect :=
            { generationContext, attempt := nextAttempt, responseEntryId, usageId
              intendedOutputLimit := model.maxTokens, contextWindow := model.contextWindow }
          if w.lane.tipId.isNone then none
          else
            some
              { w.commit timestamp [] w.lane.inbox operation
                  (.assistantEffectPending intent) [] with
                flight := .generating intent }
    | _, _ => none

/-- `runRetryWait` once it is over. -/
def runRetryWait (timestamp : N) (w : World N) (now : Nat) : Option (World N) :=
  w.settleOperation fun current =>
    match w.flight, current.state.leaf with
    | .idle, .assistantRetryWait generationContext wait =>
      if now < wait.notBefore then none
      else
        w.continueOperation fun operation =>
          some (w.commit timestamp [] w.lane.inbox operation
            (.assistantReady generationContext wait.nextAttempt) [])
    | _, _ => none

def handleField [JsonNumber N] (handle : Json N) (name : String) : Option String :=
  (handle.get? name).bind Json.string?

/-- A handle of a deferred response is one of this model. -/
def handleMatches [JsonNumber N] (message : AssistantMessage N) (identity : ModelIdentity) :
    Bool :=
  message.stopReason = .deferred && message.deferred.any fun handle =>
    (handleField handle "id").any (· ≠ "") &&
    handleField handle "provider" = some identity.provider &&
    handleField handle "modelId" = some identity.modelId &&
    handleField handle "api" = some message.api

def readDeferredSourceHandle [JsonNumber N] (lane : LaneState N) (deferred : DeferredScope) :
    Bool :=
  lane.branch.any fun entry => entry.id = deferred.sourceEntryId &&
    match entry.content with
    | .message (.message (.assistant message)) =>
      handleMatches message deferred.configuration.model
    | _ => false

/-- `publishPollIntent`, after what `prepareDeferredPoll` finds. -/
def publishPollIntent [JsonNumber N] (timestamp : N) (w : World N)
    (model : Option ModelLimits) (deferred : DeferredScope) (poll : Nat) (recovery : Bool)
    (responseEntryId usageId : String) : Option (World N) :=
  w.continueOperation fun operation =>
    if readDeferredSourceHandle w.lane deferred then
      match model with
      | none =>
        publishConfigurationFailure timestamp w (modelUnavailable deferred.configuration.model)
      | some _ =>
        let intent : DeferredEffect := { deferred with poll, responseEntryId, usageId }
        some
          { w.commit timestamp [] w.lane.inbox operation (.deferredEffectPending intent) [] with
            flight := .polling intent recovery }
    else none

/-- `pollDeferred` with a permit, up to its request. -/
def pollDeferred [JsonNumber N] (timestamp : N) (w : World N) (model : Option ModelLimits)
    (responseEntryId usageId : String) : Option (World N) :=
  w.settleOperation fun current =>
    match w.flight, current.state.leaf with
    | .idle, .deferredSuspended deferred =>
      publishPollIntent timestamp w model deferred (deferred.poll + 1) false responseEntryId
        usageId
    | .idle, .deferredEffectPending effect =>
      publishPollIntent timestamp w model effect.toDeferredScope effect.poll true
        responseEntryId usageId
    | _, _ => none

/-- The response of the request in flight, as the hook returns it. -/
def respond (w : World N) (response : AssistantMessage N) : Option (World N) :=
  match w.flight with
  | .generating intent => some { w with flight := .settling (.inl intent) response false }
  | .polling intent recovery =>
    some { w with flight := .settling (.inr intent) response recovery }
  | _ => none

def interruptionWarning : String :=
  "Assistant request was interrupted. The preceding content is the latest committed partial; " ++
    "newer live output may be missing and the external outcome is unknown."

def zeroUsage [JsonNumber N] : Json N :=
  let zero : Json N := .num (JsonNumber.ofNat 0)
  .obj
    [("input", zero), ("output", zero), ("cacheRead", zero), ("cacheWrite", zero),
      ("totalTokens", zero),
      ("cost", .obj
        [("input", zero), ("output", zero), ("cacheRead", zero), ("cacheWrite", zero),
          ("total", zero)])]

def interruptedAssistantMessage [JsonNumber N] (timestamp : N) (identity : ModelIdentity)
    (partialMessage : Option (AssistantMessage N)) : AssistantMessage N :=
  match partialMessage with
  | none =>
    { api := "unknown", provider := identity.provider, model := identity.modelId
      responseModel := none, responseId := none, providerThinkingLevel := none
      diagnostics := none, usage := zeroUsage, stopReason := .error, deferred := none
      errorMessage := some interruptionWarning, rawStopReason := none, endTurn := none
      timestamp, content := [] }
  | some message =>
    { message with
      usage := zeroUsage, stopReason := .error, errorMessage := some interruptionWarning }

/-- `recoverAssistantGeneration`, and `recoverCancelledAssistantEffect` of a cancelled
operation: an orphaned effect is given the message its frames make. -/
def recoverEffect [JsonNumber N] (timestamp : N) (w : World N)
    (partialMessage : Option (AssistantMessage N)) : Option (World N) :=
  w.settleOperation fun current =>
    match w.flight, current.state.leaf with
    | .idle, .assistantEffectPending effect =>
      some
        { w with
          flight := .settling (.inl effect)
            (interruptedAssistantMessage timestamp effect.generationContext.configuration.model
              partialMessage) true }
    | .idle, .deferredEffectPending effect =>
      if current.state.scope.running || !readDeferredSourceHandle w.lane effect.toDeferredScope
      then none
      else
        some
          { w with
            flight := .settling (.inr effect)
              (interruptedAssistantMessage timestamp effect.configuration.model partialMessage)
              true }
    | _, _ => none

/-- The output tokens of a response that was cut off below the limit. -/
def isRecoverableLength [JsonNumber N] (message : AssistantMessage N) (desiredMaxOutput : Nat) :
    Bool :=
  message.stopReason = .length && 0 < desiredMaxOutput &&
    usageCount message.usage "output" < desiredMaxOutput

def providerError (source : String) (message : AssistantMessage N) (stopReason : String) :
    OperationError where
  code := "assistant_error"
  message := message.errorMessage.getD (source ++ " request ended with " ++ stopReason)
  details := none

def stopReasonName : StopReason → String
  | .pending => "pending"
  | .stop => "stop"
  | .length => "length"
  | .toolUse => "toolUse"
  | .error => "error"
  | .aborted => "aborted"
  | .deferred => "deferred"

def normalizeError (message : AssistantMessage N) (errorMessage : String) : AssistantMessage N :=
  { message with stopReason := .error, errorMessage := some errorMessage }

def normalizeAborted (source : String) (message : AssistantMessage N) : AssistantMessage N :=
  { message with
    stopReason := .aborted
    errorMessage := some (message.errorMessage.getD (source ++ " request was cancelled")) }

/-- What becomes of a response: the message that is committed, and where the operation goes
on or why it fails. -/
structure Disposition (N : Type) where
  committed : AssistantMessage N
  outcome : Leaf N ⊕ OperationError
  marks : List Mark

/-- A response with tool calls goes on with the batch; the ids of the results are new. -/
def settleAnswer (source responseEntryId turnId : String) (configuration : LaneConfiguration)
    (response : AssistantMessage N) (resultEntryId : Nat → String) : Disposition N :=
  let calls := response.content.zipIdx.filterMap fun item =>
    match item.1 with
    | .toolCall _ => some item.2
    | _ => none
  if calls ≠ [] then
    { committed := response
      outcome := .inl (.tools
        { assistantEntryId := responseEntryId, configuration, turnId
          calls := calls.zipIdx.map fun call =>
            { sourceIndex := call.1, resultEntryId := resultEntryId call.2, status := .planned } })
      marks := [] }
  else if response.stopReason = .toolUse then
    let committed := normalizeError response "Provider reported tool use without any tool calls"
    { committed
      outcome := .inr (providerError source committed (stopReasonName committed.stopReason))
      marks := [] }
  else
    { committed := response
      outcome := .inl (.checkpoint
        { continuation := .mayFinish true, triggerEntryId := responseEntryId })
      marks := [] }

def cancelledDisposition (source responseEntryId : String) (response : AssistantMessage N) :
    Disposition N where
  committed := normalizeAborted source response
  outcome := .inl (.checkpoint
    { continuation := .mayFinish true, triggerEntryId := responseEntryId })
  marks := []

/-- The new ids that a settlement takes. -/
structure SettlementIds where
  taskId : String
  resultEntryId : Nat → String

section

variable [JsonNumber N] (classifiers : Classifiers N)

/-- `prepareOverflowCompaction` has something to compact. -/
def overflowPrepares (lane : LaneState N) (settings : RunSettings) : Bool :=
  (prepareCompaction (readBoundedEntries lane.branch) settings.compaction).isSome

def isOverflow (intent : AssistantEffect) (response : AssistantMessage N) : Bool :=
  classifiers.isContextOverflow response intent.contextWindow ||
    isRecoverableLength response intent.intendedOutputLimit

/-- The response of a generation. `none` is an aborted response of a running operation. -/
def settleAssistant (now : Nat) (lane : LaneState N) (scope : OperationScope)
    (intent current : AssistantEffect) (response : AssistantMessage N) (recovery : Bool)
    (ids : SettlementIds) : Option (Disposition N) :=
  let source := "Assistant"
  let generation := current.generationContext
  if !scope.running then some (cancelledDisposition source intent.responseEntryId response)
  else if response.stopReason = .aborted then none
  else if isOverflow classifiers intent response then
    let committed := normalizeError response
      (response.errorMessage.getD "Assistant request exceeded the context window")
    if generation.overflowRecoveryUsed || intent.generationContext.overflowRecoveryUsed ||
        !overflowPrepares lane scope.settings then
      some
        { committed
          outcome := .inr (providerError source committed (stopReasonName committed.stopReason))
          marks := [] }
    else
      some
        { committed
          outcome := .inl (.summaryDeciding
            { taskId := ids.taskId, reason := some .overflow
              boundary := .resumeCheckpoint
                { continuation := .needAssistant true
                  triggerEntryId := generation.triggerEntryId } })
          marks := [.overflowCompaction ids.taskId] }
  else if response.stopReason = .deferred then
    if handleMatches response generation.configuration.model then
      some
        { committed := response
          outcome := .inl (.deferredSuspended
            { stepId := generation.stepId, sourceEntryId := intent.responseEntryId, poll := 0
              configuration := generation.configuration })
          marks := [] }
    else
      let committed := normalizeError response "Provider returned an invalid deferred handle"
      some
        { committed
          outcome := .inr (providerError source committed (stopReasonName committed.stopReason))
          marks := [] }
  else if response.stopReason = .error then
    if (recovery || classifiers.isRetryableAssistantError response) &&
        current.attempt < generation.retryPolicy.maxAttempts then
      some
        { committed := response
          outcome := .inl (.assistantRetryWait generation
            { nextAttempt := current.attempt + 1
              notBefore := retryNotBefore generation.retryPolicy current.attempt now
              errorMessage := response.errorMessage.getD "Assistant request failed" })
          marks := [] }
    else
      some
        { committed := response
          outcome := .inr (providerError source response (stopReasonName response.stopReason))
          marks := [] }
  else
    some (settleAnswer source intent.responseEntryId generation.stepId generation.configuration
      response ids.resultEntryId)

def settleDeferred (scope : OperationScope) (intent current : DeferredEffect)
    (response : AssistantMessage N) (ids : SettlementIds) : Option (Disposition N) :=
  let source := "Deferred"
  if !scope.running then some (cancelledDisposition source intent.responseEntryId response)
  else if response.stopReason = .aborted then none
  else if response.stopReason = .deferred then
    some
      { committed := response
        outcome := .inl (.deferredSuspended
          { current.toDeferredScope with sourceEntryId := intent.responseEntryId })
        marks := [] }
  else if response.stopReason = .error then
    some
      { committed := response
        outcome := .inr (providerError source response (stopReasonName response.stopReason))
        marks := [] }
  else
    some (settleAnswer source intent.responseEntryId
      (current.stepId ++ ":poll:" ++ toString current.poll) current.configuration response
      ids.resultEntryId)

/-- The response becomes the tip. -/
def settleResponse (timestamp : N) (w : World N) (operation : Operation N)
    (responseEntryId : String) (disposition : Disposition N) : World N :=
  let entries : List (NewEntry N) :=
    [{ id := responseEntryId, content := .message (.message (.assistant disposition.committed)) }]
  match disposition.outcome with
  | .inl leaf =>
    let scope := { operation.state.scope with latestAssistantEntryId := some responseEntryId }
    w.commit timestamp entries w.lane.inbox
      { operation with state := { operation.state with scope } } leaf disposition.marks
  | .inr error =>
    w.finish timestamp entries w.lane.inbox operation .failed (some error)
      disposition.marks

def publishResponse (timestamp : N) (now : Nat) (w : World N) (ids : SettlementIds) :
    Option (World N) :=
  match w.flight with
  | .settling intent response recovery =>
    w.settleOperation fun operation =>
      match intent, operation.state.leaf with
      | .inl intent, .assistantEffectPending current =>
        (settleAssistant classifiers now w.lane operation.state.scope intent current response
          recovery ids).map (settleResponse timestamp w operation intent.responseEntryId)
      | .inr intent, .deferredEffectPending current =>
        (settleDeferred operation.state.scope intent current response ids).map
          (settleResponse timestamp w operation intent.responseEntryId)
      | _, _ => none
  | _ => none

end

end Trpi.Harness.Runtime
