import Trpi.Harness.Runtime.OverflowSteps
import Trpi.Library.JsonInt

/-!
# Runs of a drive owe nothing twice
-/

namespace Trpi.Harness.Runtime

open Library Ai World Option

variable {N : Type} {config : Config} {timestamp : N} {now : Nat} {w next : World N}

variable {stepId resultEntryId usageId taskId : String} {lane : LaneState N}
  {resumeAfter : CheckpointData} {targetPath : List (PathEntry N)} {outcome : StructuralOutcome N}
  {model : Option ModelLimits} {sourceIndex : Nat}

theorem finishRunBoundary_steps {followUp : Option (String × UserMessage N)}
    (sound : w.flight.Sound w.standing)
    (taken : finishRunBoundary config timestamp w stepId followUp = some next) : Steps w next := by
  rw [finishRunBoundary] at taken
  split at taken
  · rename_i flight
    refine .continueOperation taken fun operation current planned => ?_
    have free : operation.state.leaf.standing.free := by
      rw [flight, standing_eq current] at sound
      exact sound
    obtain ⟨placement, _, planned⟩ := bind_eq_some_iff.mp planned
    split at planned
    · cases planned
      exact .commit current (.placed _ free)
    · split at planned
      · cases planned
        exact .commit current (.placed _ free)
      · split at planned
        · cases planned
        · cases planned
          exact .finish (.finish _)
  · cases taken

theorem resumeLeaf_standing :
    (resumeLeaf config lane stepId resumeAfter none).standing =
      resumeAfter.continuation.standing := by
  simp only [resumeLeaf]
  split
  · rename_i placed
    cases placed
  · rename_i used _ continuation
    rw [continuation]
    rfl
  · rfl

theorem compacted_moves {task : SummaryTask}
    (boundary : task.boundary = .resumeCheckpoint resumeAfter) (trigger : Option String) :
    Moves task.standing (.compacted task.reason :: inputMarks trigger)
      (resumeLeaf config lane stepId resumeAfter trigger).standing := by
  obtain ⟨free, resumes⟩ | ⟨recovering, reason, own, same, continuation⟩ := task.standing_cases
  · cases trigger with
    | some id => exact .compactedPlaced _ id free
    | none =>
      rw [resumeLeaf_standing, ← resumes resumeAfter boundary]
      exact .compacted _ free
  · rw [boundary] at same
    cases same
    rw [recovering, reason]
    cases trigger with
    | some id => exact .recoveredPlaced id
    | none =>
      rw [resumeLeaf_standing, continuation]
      exact .recovered

theorem declined_moves (trigger : Option String) :
    Moves resumeAfter.continuation.standing (inputMarks trigger)
      (resumeLeaf config lane stepId resumeAfter trigger).standing := by
  cases trigger with
  | some id => exact .placed id (Continuation.standing_free _)
  | none =>
    rw [resumeLeaf_standing]
    exact .stay _

section

variable {stepId : String} {operation : Operation N} {task : SummaryTask}
  {outcome : StructuralOutcome N}

theorem resumeOutcome_steps {resumeAfter : CheckpointData}
    (current : w.lane.operation = some operation)
    (own : operation.state.leaf.task? = some task)
    (boundary : task.boundary = .resumeCheckpoint resumeAfter)
    (taken : resumeOutcome config timestamp w stepId operation task resumeAfter outcome =
      some next) : Steps w next := by
  have standing := Leaf.standing_of_task own
  cases outcome with
  | branchSummary resultEntryId summary => cases taken
  | compaction resultEntryId result =>
    obtain ⟨placement, _, chosen⟩ := bind_eq_some_iff.mp taken
    cases chosen
    refine .commit current ?_
    rw [standing]
    exact compacted_moves boundary _
  | declined =>
    rw [resumeOutcome] at taken
    split at taken
    · cases taken
    split at taken
    · rename_i reason
      have standing : operation.state.leaf.standing = resumeAfter.continuation.standing := by
        rw [standing]
        exact SummaryTask.standing_other boundary (by rw [reason]; decide)
      obtain ⟨placement, _, chosen⟩ := bind_eq_some_iff.mp taken
      split at chosen
      · cases chosen
        refine Steps.rest.withFlight ?_
        show w.standing.free
        rw [standing_eq current, standing]
        exact Continuation.standing_free _
      · cases chosen
        refine .commit current ?_
        rw [standing]
        exact declined_moves _
    · cases taken
      exact .fail
  | failed error =>
    rw [resumeOutcome] at taken
    split at taken
    · cases taken
    · cases taken
      exact .fail

theorem finishOutcome_steps
    (taken : finishOutcome timestamp w operation task outcome = some next) : Steps w next := by
  cases outcome with
  | branchSummary resultEntryId summary => cases taken
  | compaction resultEntryId result =>
    cases taken
    exact .finish (.finishCompacted _ _)
  | declined =>
    rw [finishOutcome] at taken
    split at taken
    · cases taken
    · cases taken
      exact .finish (.finish _)
  | failed error =>
    rw [finishOutcome] at taken
    split at taken
    · cases taken
    · cases taken
      exact .fail

end

theorem Steps.navigate
    (steps : Steps { w with lane := { w.lane with branch := targetPath } } next) :
    Steps w next where
  moves := steps.moves
  sound := steps.sound

theorem navigationOutcome_steps {operation : Operation N}
    (taken : navigationOutcome timestamp w operation targetPath outcome = some next) :
    Steps w next := by
  cases outcome with
  | compaction resultEntryId result => cases taken
  | branchSummary resultEntryId summary =>
    cases taken
    exact (Steps.finish (.finish _)).navigate
  | declined =>
    cases taken
    exact .finish (.finish _)
  | failed error =>
    cases taken
    exact .fail

theorem publishStructuralOutcome_steps
    (taken : publishStructuralOutcome config timestamp w stepId targetPath outcome =
      some next) : Steps w next := by
  refine .continueOperation taken fun operation current planned => ?_
  obtain ⟨task, own, chosen⟩ := bind_eq_some_iff.mp planned
  split at chosen
  · rename_i boundary
    exact resumeOutcome_steps current own boundary chosen
  · exact finishOutcome_steps chosen
  · exact navigationOutcome_steps chosen

theorem runStructuralDecision_steps {decision : StructuralDecision N}
    (taken : runStructuralDecision config timestamp w resultEntryId stepId targetPath
      decision = some next) : Steps w next := by
  refine .continueOperation taken fun operation current planned => ?_
  split at planned
  · rename_i leaf
    dsimp only at planned
    split at planned
    · cases planned
    split at planned
    · exact publishStructuralOutcome_steps planned
    · exact publishStructuralOutcome_steps planned
    · exact publishStructuralOutcome_steps planned
    · cases planned
      refine .commit current ?_
      rw [leaf]
      exact .stay _
  · cases planned

theorem runStructuralGeneration_steps
    (taken : runStructuralGeneration config timestamp w stepId targetPath model = some next) :
    Steps w next := by
  refine .continueOperation taken fun operation current planned => ?_
  split at planned
  · exact publishStructuralOutcome_steps planned
  · rename_i leaf
    cases planned
    refine Steps.withFlight (.commit current ?_) rfl
    rw [leaf]
    exact .stay _
  · cases planned

theorem publishNestedRequestIntent_steps (sound : w.flight.Sound w.standing)
    (taken : publishNestedRequestIntent timestamp w usageId = some next) : Steps w next := by
  refine .continueOperation taken fun operation current planned => ?_
  split at planned
  · rename_i flight leaf
    rw [flight, standing_eq current, leaf] at sound
    cases planned
    refine Steps.withFlight (.commit current ?_) sound
    rw [leaf]
    exact .stay _
  · cases planned

theorem publishNestedRequestOutcome_steps (sound : w.flight.Sound w.standing)
    (taken : publishNestedRequestOutcome timestamp w usageId = some next) : Steps w next := by
  obtain ⟨operation, current, planned⟩ := settleOperation_eq_some taken
  split at planned
  · rename_i flight leaf
    rw [flight, standing_eq current, leaf] at sound
    cases planned
    refine Steps.withFlight (.commit current ?_) sound
    rw [leaf]
    exact .stay _
  · cases planned

theorem runStructuralRetryWait_steps
    (taken : runStructuralRetryWait timestamp w now = some next) : Steps w next := by
  obtain ⟨own, current, planned⟩ := settleOperation_eq_some taken
  split at planned
  · rename_i leaf
    split at planned
    · cases planned
    · refine .continueOperation planned fun operation _ chosen => ?_
      cases chosen
      refine .commit current ?_
      rw [leaf]
      exact .stay _
  · cases planned

theorem commitNavigation_steps (taken : commitNavigation timestamp w targetPath = some next) :
    Steps w next := by
  refine .continueOperation taken fun operation current planned => ?_
  split at planned
  · split at planned
    · cases planned
    · cases planned
      exact (Steps.finish (.finish _)).navigate
  · cases planned

theorem publishAttemptResult_steps {result : AttemptResult N} (sound : w.flight.Sound w.standing)
    (taken : publishAttemptResult config timestamp now w stepId targetPath result = some next) :
    Steps w next := by
  obtain ⟨own, current, planned⟩ := settleOperation_eq_some taken
  split at planned
  · rename_i flight leaf
    rw [flight, standing_eq current] at sound
    dsimp only at planned
    split at planned
    · cases planned
      exact .rest
    · exact publishStructuralOutcome_steps planned
    · exact publishStructuralOutcome_steps planned
    · split at planned
      · cases planned
      split at planned
      · refine .continueOperation planned fun operation _ chosen => ?_
        cases chosen
        refine .commit current ?_
        rw [show own.state.leaf.standing = _ from sound]
        exact .stay _
      · exact publishStructuralOutcome_steps planned
  · cases planned

theorem recoverStructuralGeneration_steps
    (taken : recoverStructuralGeneration config timestamp now w stepId targetPath = some next) :
    Steps w next := by
  obtain ⟨own, current, planned⟩ := settleOperation_eq_some taken
  split at planned
  · rename_i leaf
    split at planned
    · exact publishStructuralOutcome_steps planned
    · refine .continueOperation planned fun operation _ chosen => ?_
      cases chosen
      refine .commit current ?_
      rw [leaf]
      exact .stay _
  · cases planned

theorem publishToolIntent_steps {replaySafe : Bool}
    (taken : publishToolIntent timestamp w sourceIndex resultEntryId replaySafe = some next) :
    Steps w next := by
  refine .continueOperation taken fun operation current planned => ?_
  split at planned
  · rename_i leaf
    obtain ⟨call, _, rfl⟩ := map_eq_some_iff.mp planned
    refine .commit current ?_
    rw [leaf]
    exact .stay _
  · cases planned

theorem publishToolOutcome_steps {terminate : Bool}
    {m : ToolResultMessage N}
    (taken : publishToolOutcome timestamp w sourceIndex resultEntryId terminate m =
      some next) : Steps w next := by
  obtain ⟨operation, current, planned⟩ := settleOperation_eq_some taken
  split at planned
  · rename_i leaf
    obtain ⟨call, _, rfl⟩ := map_eq_some_iff.mp planned
    refine .commit current ?_
    rw [leaf]
    exact .stay _
  · cases planned

theorem placedLeaf_moves {batch : ToolBatch N} {calls : List (ToolCall N)}
    {triggerEntryId : String} :
    Moves .closing (placedLeaf batch calls triggerEntryId).2
      (placedLeaf batch calls triggerEntryId).1.standing := by
  rw [placedLeaf]
  split
  · simp only [Leaf.standing]
    split
    · exact .settledLast _
    · exact .settled _
  · exact .stay _

theorem commitPlacement_steps {count : Nat}
    (taken : commitPlacement timestamp w count = some next) : Steps w next := by
  obtain ⟨operation, current, planned⟩ := settleOperation_eq_some taken
  split at planned
  · rename_i batch leaf
    obtain ⟨last, _, rfl⟩ := map_eq_some_iff.mp planned
    refine ⟨⟨_, rfl, ?_⟩, trivial⟩
    rw [standing_eq current, leaf]
    exact placedLeaf_moves
  · cases planned

theorem requestOperationAbort_steps {requestedAt : Nat} (sound : w.flight.Sound w.standing)
    (taken : requestOperationAbort w requestedAt = some next) : Steps w next := by
  obtain ⟨operation, current, planned⟩ := settleOperation_eq_some taken
  rw [standing_eq current] at sound
  split at planned
  · cases planned
    refine ⟨⟨[], (List.append_nil _).symm, ?_⟩, sound⟩
    rw [standing_eq current]
    exact .stay _
  · cases planned
    rw [← standing_eq current] at sound
    exact ⟨⟨[], (List.append_nil _).symm, .stay _⟩, sound⟩

theorem enqueue_steps {item : InboxItem N} (sound : w.flight.Sound w.standing)
    (taken : enqueue w item = some next) : Steps w next := by
  obtain ⟨operation, _, planned⟩ := settleOperation_eq_some taken
  split at planned
  · cases planned
    exact ⟨⟨[], (List.append_nil _).symm, .stay _⟩, sound⟩
  · cases planned

theorem restart_steps (taken : restart w = some next) : Steps w next := by
  obtain ⟨operation, _, planned⟩ := settleOperation_eq_some taken
  split at planned
  · cases planned
    exact .rest
  · cases planned

/-- What the run has marked is paid for, up to what it may owe where it stands. -/
structure Accounted (w : World N) : Prop where
  owes : ∃ owing : Debt, debt w.marks = some owing ∧ owing.Allows w.standing
  sound : w.flight.Sound w.standing

theorem acceptedState_standing {settings : RunSettings} {intent : Intent} {s : OperationState N}
    (accepted : acceptedState settings taskId intent = some s) : s.leaf.standing ≠ .recovering := by
  cases intent with
  | run promptEntryIds =>
    cases accepted
    show Standing.generation false ≠ .recovering
    decide
  | compaction =>
    cases accepted
    show Standing.closing ≠ .recovering
    decide
  | navigation targetId summarize label =>
    cases summarize with
    | false =>
      cases accepted
      show Standing.closing ≠ .recovering
      decide
    | true =>
      obtain ⟨target, _, rfl⟩ := map_eq_some_iff.mp accepted
      show Standing.closing ≠ .recovering
      decide

theorem Accounted.accepted (accepted : Accepted w) : Accounted w := by
  obtain ⟨meta_, settings, taskId, s, initial, current, flight, marks⟩ := accepted
  have free : w.standing ≠ .recovering := by
    rw [standing_eq current]
    exact acceptedState_standing initial
  refine ⟨⟨.clear, ?_, free⟩, ?_⟩
  · rw [marks]
    rfl
  · rw [flight]
    trivial

theorem Accounted.step (accounted : Accounted w) (steps : Steps w next) : Accounted next := by
  obtain ⟨owing, paid, allowed⟩ := accounted.owes
  obtain ⟨marks, appended, moves⟩ := steps.moves
  obtain ⟨later, onward, allowed⟩ := moves.debt allowed
  refine ⟨⟨later, ?_, allowed⟩, steps.sound⟩
  rw [appended, debt, List.foldlM_append]
  exact bind_eq_some_iff.mpr ⟨owing, paid, onward⟩

variable [JsonNumber N]

theorem runCheckpoint_steps
    (taken : runCheckpoint config timestamp w model taskId stepId = some next) : Steps w next := by
  refine .continueOperation taken fun operation current planned => ?_
  split at planned
  · rename_i data _ leaf
    have standing : operation.state.leaf.standing = data.continuation.standing := by
      rw [leaf]
      rfl
    obtain ⟨threshold, prepared, onward⟩ := bind_eq_some_iff.mp planned
    obtain ⟨placement, placed, chosen⟩ := bind_eq_some_iff.mp onward
    split at chosen
    · cases chosen
      refine .commit current (.placed _ ?_)
      rw [standing]
      exact Continuation.standing_free _
    · cases chosen
      refine .commit current ?_
      rw [standing]
      exact .stay _
    · rename_i continuation
      cases chosen
      refine .commit current ?_
      rw [standing, continuation]
      exact .stay _
    · cases chosen
      refine Steps.rest.withFlight ?_
      show w.standing.free
      rw [standing_eq current, standing]
      exact Continuation.standing_free _
  · cases planned

theorem publishAbortedTerminal_steps
    (taken : publishAbortedTerminal timestamp w = some next) : Steps w next := by
  obtain ⟨operation, _, planned⟩ := settleOperation_eq_some taken
  split at planned
  · split at planned
    · cases planned
      exact .finish (.finish _)
    · cases planned
  · cases planned

variable {classifiers : Classifiers N}

theorem step_steps {ev : Event N} (sound : w.flight.Sound w.standing)
    (taken : w.step classifiers ev = some next) : Steps w next := by
  rw [step] at taken
  split at taken
  · exact startRun_steps taken
  · exact runCheckpoint_steps taken
  · exact finishRunBoundary_steps sound taken
  · exact runGeneration_steps taken
  · exact runRetryWait_steps taken
  · exact pollDeferred_steps taken
  · exact respond_steps taken
  · exact recoverEffect_steps taken
  · exact publishResponse_steps taken
  · exact runStructuralDecision_steps taken
  · exact runStructuralGeneration_steps taken
  · exact publishNestedRequestIntent_steps sound taken
  · exact publishNestedRequestOutcome_steps sound taken
  · exact publishAttemptResult_steps sound taken
  · exact runStructuralRetryWait_steps taken
  · exact recoverStructuralGeneration_steps taken
  · exact commitNavigation_steps taken
  · exact publishToolIntent_steps taken
  · exact publishToolOutcome_steps taken
  · exact commitPlacement_steps taken
  · exact publishAbortedTerminal_steps taken
  · exact enqueue_steps sound taken
  · cases taken
    exact ⟨⟨[], (List.append_nil _).symm, .stay _⟩, sound⟩
  · cases taken
    exact ⟨⟨[], (List.append_nil _).symm, .stay _⟩, sound⟩
  · exact requestOperationAbort_steps sound taken
  · exact restart_steps taken

theorem accounted_inductive :
    (driveMachine classifiers).Inductive (fun _ _ => True) Accounted where
  start _ accepted := .accepted accepted
  step _ _ _ accounted _ taken := accounted.step (step_steps accounted.sound taken)

/-- Between two overflow compactions of an operation the first is completed, and after that
input is placed or a tool batch is settled. -/
theorem overflow_compactions_apart (classifiers : Classifiers N) (w : World N)
    (reached : (driveMachine classifiers).Reached (fun _ _ => True) w)
    (before between after : List Mark) (first second : String)
    (history : w.marks = before ++ .overflowCompaction first ::
      (between ++ .overflowCompaction second :: after)) :
    ∃ done rest : List Mark, between = done ++ .compacted (some .overflow) :: rest ∧
      ∃ mark ∈ rest, mark.isNew := by
  obtain ⟨owing, paid, _⟩ := (accounted_inductive.reached reached).owes
  rw [history] at paid
  exact new_between paid

def sampleClassifiers : Classifiers Int where
  isContextOverflow message _ :=
    message.stopReason = .error && message.errorMessage = some "prompt is too long"
  isRetryableAssistantError _ := false

def sampleResponse (stopReason : StopReason) (errorMessage : Option String) :
    AssistantMessage Int where
  api := "api"
  provider := "provider"
  model := "model"
  responseModel := none
  responseId := none
  providerThinkingLevel := none
  diagnostics := none
  usage := zeroUsage
  stopReason := stopReason
  deferred := none
  errorMessage := errorMessage
  rawStopReason := none
  endTurn := none
  timestamp := 0
  content := []

def sampleInput : LaneMessage Int := .message (.user { content := .text [], timestamp := 0 })

def sampleWorld : World Int where
  lane :=
    { branch := [⟨"prompt", none, 0, 0, .message sampleInput⟩]
      configuration := ⟨⟨"provider", "model"⟩, []⟩
      inbox := []
      operation := some
        { meta_ := ⟨"operation", none, 0, .run ["prompt"]⟩
          state := ⟨⟨.running, ⟨⟨true, 0, 0⟩, .all, .all⟩, none⟩, .starting⟩ }
      result := none }
  flight := .idle
  marks := []

def sampleGeneration (responseEntryId : String) (response : AssistantMessage Int)
    (taskId : String) : List (Action Int) :=
  [.generate (some ⟨1, 1⟩) responseEntryId "usage", .respond response,
    .publishResponse ⟨taskId, fun _ => "result"⟩]

def sampleActions : List (Action Int) :=
  [.startRun [], .checkpoint none "task" "step"] ++
    sampleGeneration "first" (sampleResponse .error (some "prompt is too long")) "first" ++
    [.restart, .decide "compaction" "step" [] (.compaction ⟨[], [], 0, none⟩)] ++
    sampleGeneration "second" (sampleResponse .stop none) "task" ++
    [.enqueue ⟨"steer", .steer, .message sampleInput⟩, .checkpoint none "task" "step"] ++
    sampleGeneration "third" (sampleResponse .error (some "prompt is too long")) "second"

def sampleEvents : List (Event Int) :=
  sampleActions.map fun action => ⟨⟨false, 0, 0, 0, [], []⟩, 0, 0, action⟩

theorem overflow_compactions_apart_sample :
    ∃ done rest : List Mark,
      [.compacted (some .overflow), .inputPlaced "steer"] =
        done ++ .compacted (some .overflow) :: rest ∧ ∃ mark ∈ rest, mark.isNew := by
  have succeeds : ((driveMachine sampleClassifiers).exec (fun _ _ => True) sampleWorld
      sampleEvents).any (fun w => w.marks = [.overflowCompaction "first",
        .compacted (some .overflow), .inputPlaced "steer", .overflowCompaction "second"]) =
      true := by
    decide +kernel
  obtain ⟨w, ran, marks⟩ := Option.any_eq_true _ _ |>.mp succeeds
  have accepted : (driveMachine sampleClassifiers).start sampleWorld :=
    ⟨_, _, "", _, rfl, rfl, rfl, rfl⟩
  have reached : (driveMachine sampleClassifiers).Reached (fun _ _ => True) w :=
    Machine.Reached.exec (.start accepted) ran
  exact overflow_compactions_apart sampleClassifiers w reached [] _ [] "first" "second"
    (of_decide_eq_true marks)

end Trpi.Harness.Runtime
