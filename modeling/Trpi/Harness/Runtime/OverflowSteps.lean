import Trpi.Harness.Runtime.OverflowRecovery

/-!
# The steps of a drive as moves of a run
-/

namespace Trpi.Harness.Runtime

open Library Ai

variable {N : Type} {task : SummaryTask}

def Continuation.standing : Continuation → Standing
  | .needAssistant overflowRecoveryUsed => .generation overflowRecoveryUsed
  | .mayFinish _ => .closing

/-- An overflow compaction resumes with the marker set. -/
def SummaryTask.standing (task : SummaryTask) : Standing :=
  match task.boundary with
  | .resumeCheckpoint resumeAfter =>
    if task.reason = some .overflow ∧ resumeAfter.continuation = .needAssistant true then
      .recovering
    else resumeAfter.continuation.standing
  | _ => .closing

def Leaf.standing : Leaf N → Standing
  | .starting => .generation false
  | .checkpoint data => data.continuation.standing
  | .assistantReady generation _ | .assistantRetryWait generation _ =>
    .generation generation.overflowRecoveryUsed
  | .assistantEffectPending effect => .generation effect.generationContext.overflowRecoveryUsed
  | .tools _ | .deferredSuspended _ | .deferredEffectPending _ => .closing
  | .summaryDeciding task | .summaryReady task _ _ | .summaryRetryWait task _ _ => task.standing
  | .summaryEffectPending effect => effect.task.standing
  | .navigationReadyToCommit _ _ => .closing

def World.standing (w : World N) : Standing :=
  match w.lane.operation with
  | none => .ended
  | some operation => operation.state.leaf.standing

theorem Continuation.standing_free (continuation : Continuation) :
    continuation.standing.free := by
  cases continuation <;> rfl

theorem SummaryTask.standing_cases (task : SummaryTask) :
    (task.standing.free ∧
      ∀ resumeAfter : CheckpointData, task.boundary = .resumeCheckpoint resumeAfter →
        task.standing = resumeAfter.continuation.standing) ∨
    (task.standing = .recovering ∧ task.reason = some .overflow ∧
      ∃ resumeAfter : CheckpointData, task.boundary = .resumeCheckpoint resumeAfter ∧
        resumeAfter.continuation = .needAssistant true) := by
  rw [SummaryTask.standing]
  split
  · rename_i resumeAfter boundary
    split
    · rename_i recovers
      exact .inr ⟨rfl, recovers.1, resumeAfter, boundary, recovers.2⟩
    · refine .inl ⟨Continuation.standing_free _, ?_⟩
      intro own same
      cases boundary.symm.trans same
      rfl
  · rename_i other
    exact .inl ⟨rfl, fun resumeAfter same => absurd same (other resumeAfter)⟩

theorem SummaryTask.standing_other {resumeAfter : CheckpointData}
    (boundary : task.boundary = .resumeCheckpoint resumeAfter)
    (other : task.reason ≠ some .overflow) : task.standing = resumeAfter.continuation.standing := by
  obtain ⟨_, resumes⟩ | ⟨_, reason, _⟩ := task.standing_cases
  · exact resumes resumeAfter boundary
  · exact absurd reason other

theorem Leaf.standing_of_task {leaf : Leaf N} (own : leaf.task? = some task) :
    leaf.standing = task.standing := by
  cases leaf with
  | summaryDeciding task => cases own; rfl
  | summaryReady task summaryContext nextAttempt => cases own; rfl
  | summaryEffectPending effect => cases own; rfl
  | summaryRetryWait task summaryContext wait => cases own; rfl
  | _ => cases own

/-- What may still finish the run is not a compaction for an overflow, and an attempt is one
of the task on record. -/
def Flight.Sound (flight : Flight N) (standing : Standing) : Prop :=
  match flight with
  | .finishing _ _ => standing.free
  | .summarizing effect _ => standing = effect.task.standing
  | _ => True

structure Steps (w next : World N) : Prop where
  moves : ∃ marks : List Mark, next.marks = w.marks ++ marks ∧ Moves w.standing marks next.standing
  sound : next.flight.Sound next.standing

namespace Steps

variable {w next : World N} {timestamp : N} {entries : List (NewEntry N)}
  {inbox : List (InboxItem N)} {own operation : Operation N} {leaf : Leaf N} {marks : List Mark}
  {status : TerminalStatus} {error : Option OperationError}

theorem commit (current : w.lane.operation = some own)
    (moves : Moves own.state.leaf.standing marks leaf.standing) :
    Steps w (w.commit timestamp entries inbox operation leaf marks) where
  moves := by
    refine ⟨marks, rfl, ?_⟩
    rw [World.standing, current]
    exact moves
  sound := trivial

theorem finish (moves : Moves w.standing marks .ended) :
    Steps w (w.finish timestamp entries inbox operation status error marks) where
  moves := ⟨marks, rfl, moves⟩
  sound := trivial

theorem fail {cause : OperationError} : Steps w (w.fail timestamp operation cause) :=
  finish (.finish _)

theorem rest : Steps w w.rest where
  moves := ⟨[], (List.append_nil _).symm, .stay _⟩
  sound := trivial

theorem withFlight (steps : Steps w next) {flight : Flight N}
    (sound : flight.Sound next.standing) : Steps w { next with flight } where
  moves := steps.moves
  sound := sound

end Steps

variable {w : World N} {model : Option ModelLimits} {responseEntryId usageId : String}
  {response : AssistantMessage N} {disposition : Disposition N} {ids : SettlementIds}
  {plan : Operation N → Option (World N)} {operation : Operation N}

theorem settleOperation_eq_some {next : World N} (settled : w.settleOperation plan = some next) :
    ∃ operation : Operation N, w.lane.operation = some operation ∧
      plan operation = some next :=
  Option.bind_eq_some_iff.mp settled

theorem Steps.continueOperation {next : World N}
    (continued : w.continueOperation plan = some next)
    (steps : ∀ operation : Operation N, w.lane.operation = some operation →
      plan operation = some next → Steps w next) : Steps w next := by
  obtain ⟨operation, current, planned⟩ := settleOperation_eq_some continued
  split at planned
  · exact steps operation current planned
  · cases planned
    exact .rest

theorem World.standing_eq
    (current : w.lane.operation = some operation) : w.standing = operation.state.leaf.standing := by
  rw [World.standing, current]

variable {config : Config} {timestamp : N} {w next : World N} {scope : OperationScope}
  {own : Operation N}

theorem publishConfigurationFailure_steps {error : OperationError}
    (taken : publishConfigurationFailure timestamp w error = some next) : Steps w next := by
  refine .continueOperation taken fun operation _ planned => ?_
  split at planned
  · cases planned
  · cases planned
    exact .fail

theorem startRun_steps {injected : List (String × LaneMessage N)}
    (taken : startRun timestamp w injected = some next) : Steps w next := by
  rw [startRun] at taken
  split at taken
  · cases taken
  · refine .continueOperation taken fun operation current planned => ?_
    split at planned
    · rename_i leaf
      obtain ⟨trigger, _, rfl⟩ := Option.map_eq_some_iff.mp planned
      refine .commit current ?_
      rw [leaf]
      exact .stay _
    · cases planned

theorem runGeneration_steps
    (taken : runGeneration config timestamp w model responseEntryId usageId = some next) :
    Steps w next := by
  obtain ⟨own, current, planned⟩ := settleOperation_eq_some taken
  split at planned
  · rename_i generation nextAttempt _ leaf
    dsimp only at planned
    split at planned
    · exact publishConfigurationFailure_steps planned
    · exact publishConfigurationFailure_steps planned
    · refine .continueOperation planned fun operation same planned => ?_
      split at planned
      · cases planned
      · cases planned
        refine Steps.withFlight (.commit current ?_) trivial
        rw [leaf]
        exact .stay _
  · cases planned

theorem runRetryWait_steps {now : Nat}
    (taken : runRetryWait timestamp w now = some next) : Steps w next := by
  obtain ⟨own, current, planned⟩ := settleOperation_eq_some taken
  split at planned
  · rename_i leaf
    split at planned
    · cases planned
    · refine .continueOperation planned fun operation same planned => ?_
      cases planned
      refine .commit current ?_
      rw [leaf]
      exact .stay _
  · cases planned

theorem respond_steps (taken : respond w response = some next) : Steps w next := by
  rw [respond] at taken
  split at taken
  · cases taken
    exact Steps.rest.withFlight trivial
  · cases taken
    exact Steps.rest.withFlight trivial
  · cases taken

/-- What a settled response may come to, from where its request stood. -/
def Disposition.Moves (disposition : Disposition N) (standing : Standing) : Prop :=
  match disposition.outcome with
  | .inl leaf => Runtime.Moves standing disposition.marks leaf.standing
  | .inr _ => disposition.marks = []

theorem settleAnswer_moves {source turnId : String} {configuration : LaneConfiguration}
    {resultEntryId : Nat → String} {standing : Standing} (answered : Moves standing [] .closing) :
    (settleAnswer source responseEntryId turnId configuration response resultEntryId).Moves
      standing := by
  rw [settleAnswer]
  dsimp only
  split
  · exact answered
  · split
    · rfl
    · exact answered

theorem settleResponse_steps (current : w.lane.operation = some own)
    (moves : disposition.Moves own.state.leaf.standing) :
    Steps w (settleResponse timestamp w operation responseEntryId disposition) := by
  rw [settleResponse, Disposition.Moves] at *
  dsimp only
  split
  · rename_i leaf outcome
    rw [outcome] at moves
    exact .commit current moves
  · rename_i error outcome
    rw [outcome] at moves
    rw [show disposition.marks = [] from moves]
    exact .finish (.finish _)

theorem settleDeferred_moves {intent current : DeferredEffect}
    (settled : settleDeferred scope intent current response ids = some disposition) :
    disposition.Moves .closing := by
  rw [settleDeferred] at settled
  dsimp only at settled
  split at settled
  · cases settled
    exact .stay _
  split at settled
  · cases settled
  split at settled
  · cases settled
    exact .stay _
  split at settled
  · cases settled
    rfl
  cases settled
  exact settleAnswer_moves (.stay _)

variable [JsonNumber N] {recovery : Bool}

theorem publishPollIntent_steps {deferred : DeferredScope} {poll : Nat}
    (current : w.lane.operation = some own)
    (closing : own.state.leaf.standing = .closing)
    (taken : publishPollIntent timestamp w model deferred poll recovery responseEntryId
      usageId = some next) : Steps w next := by
  refine .continueOperation taken fun operation _ planned => ?_
  split at planned
  · split at planned
    · exact publishConfigurationFailure_steps planned
    · cases planned
      refine Steps.withFlight (.commit current ?_) trivial
      rw [closing]
      exact .stay _
  · cases planned

theorem pollDeferred_steps
    (taken : pollDeferred timestamp w model responseEntryId usageId = some next) :
    Steps w next := by
  obtain ⟨own, current, planned⟩ := settleOperation_eq_some taken
  split at planned
  · rename_i leaf
    exact publishPollIntent_steps current (by rw [leaf]; rfl) planned
  · rename_i leaf
    exact publishPollIntent_steps current (by rw [leaf]; rfl) planned
  · cases planned

theorem recoverEffect_steps {partialMessage : Option (AssistantMessage N)}
    (taken : recoverEffect timestamp w partialMessage = some next) : Steps w next := by
  obtain ⟨own, current, planned⟩ := settleOperation_eq_some taken
  split at planned
  · cases planned
    exact Steps.rest.withFlight trivial
  · split at planned
    · cases planned
    · cases planned
      exact Steps.rest.withFlight trivial
  · cases planned

variable {classifiers : Classifiers N} {now : Nat}

theorem settleAssistant_moves {lane : LaneState N}
    {intent current : AssistantEffect}
    (settled : settleAssistant classifiers now lane scope intent current response recovery ids =
      some disposition) :
    disposition.Moves (.generation current.generationContext.overflowRecoveryUsed) := by
  rw [settleAssistant] at settled
  dsimp only at settled
  split at settled
  · cases settled
    exact .answered _
  split at settled
  · cases settled
  split at settled
  · split at settled
    · cases settled
      rfl
    · rename_i refused
      cases settled
      have unused : current.generationContext.overflowRecoveryUsed = false := by
        simp only [Bool.or_eq_true, not_or, Bool.not_eq_true] at refused
        exact refused.1.1
      rw [unused]
      exact .overflow _
  split at settled
  · split at settled
    · cases settled
      exact .answered _
    · cases settled
      rfl
  split at settled
  · split at settled
    · cases settled
      exact .stay _
    · cases settled
      rfl
  cases settled
  exact settleAnswer_moves (.answered _)

theorem publishResponse_steps
    (taken : publishResponse classifiers timestamp now w ids = some next) : Steps w next := by
  rw [publishResponse] at taken
  split at taken
  · obtain ⟨own, current, planned⟩ := settleOperation_eq_some taken
    split at planned
    · rename_i leaf _
      obtain ⟨disposition, settled, rfl⟩ := Option.map_eq_some_iff.mp planned
      refine settleResponse_steps current ?_
      rw [leaf]
      exact settleAssistant_moves settled
    · rename_i leaf _
      obtain ⟨disposition, settled, rfl⟩ := Option.map_eq_some_iff.mp planned
      refine settleResponse_steps current ?_
      rw [leaf]
      exact settleDeferred_moves settled
    · cases planned
  · cases taken

end Trpi.Harness.Runtime
