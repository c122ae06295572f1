import Trpi.Session.MutationRuns

/-!
# Later callbacks run

While the session is open the line waits for nothing but the callback in turn and the
storage. However callbacks end, a call that was admitted gets its turn: each reaction brings
some job nearer to its end, and the first unsettled job always has one.
-/

namespace Trpi.Session

open List

variable {β V N : Type}

/-- What keeps the line going: reactions of promises, answers of the storage, and callbacks
that return as is chosen for them. -/
def LineEvent.Drives (choice : Nat → Outcome) : LineEvent β V N → Prop
  | .turn _ | .call _ | .answer _ _ | .ends _ | .release _ | .finish _ => True
  | .returns id outcome => outcome = choice id
  | _ => False

def Stage.remaining : Stage → Nat
  | .waiting => 6
  | .granted => 5
  | .running => 4
  | .returned => 3
  | .ending => 2
  | .released => 1
  | .finished | .refused => 0

def Job.remaining (job : Job) : Nat :=
  job.stage.remaining + if job.mutation.any (·.commitResult == some .pending) then 1 else 0

def remaining : List Job → Nat
  | [] => 0
  | job :: rest => job.remaining + remaining rest

theorem remaining_set {jobs : List Job} {id : Nat} {job updated : Job}
    (found : jobs[id]? = some job) (less : updated.remaining < job.remaining) :
    remaining (jobs.set id updated) < remaining jobs := by
  induction jobs generalizing id with
  | nil => cases found
  | cons first rest ih =>
    cases id with
    | zero =>
      cases found
      rw [set_cons_zero, remaining, remaining]
      omega
    | succ id =>
      have later := ih found
      rw [set_cons_succ, remaining, remaining]
      omega

section

variable {pendingMessage : β → Bool} {choice : Nat → Outcome} {s next : LineState β V N} {id : Nat}
  {job : Job} {marks : Job → List (Mark β V N)} {enabled : Job → Bool} {ev : LineEvent β V N}
  {update : Job → Job}

/-- What a driving step does: some job is nearer to its end. -/
structure Nearer (s next : LineState β V N) : Prop where
  state : next.state = s.state
  fewer : remaining next.jobs < remaining s.jobs
  grown : s.history <:+ next.history

theorem nearer_onJob
    (taken : s.onJob id enabled update marks = some next)
    (less : ∀ job, s.jobs[id]? = some job → enabled job = true →
      (update job).remaining < job.remaining) : Nearer s next := by
  obtain ⟨job, found, ready, rfl⟩ := onJob_eq_some taken
  exact ⟨rfl, remaining_set found (less job found ready), suffix_append _ _⟩

theorem remaining_stage {stage : Stage} (less : stage.remaining < job.stage.remaining) :
    ({ job with stage := stage } : Job).remaining < job.remaining :=
  Nat.add_lt_add_right less _

theorem LineInvariant.nearer (inv : LineInvariant s) (drives : ev.Drives choice)
    (taken : s.step pendingMessage ev = some next) : Nearer s next := by
  cases ev with
  | turn id =>
    rw [LineState.step, LineState.turn] at taken
    split at taken
    · apply nearer_onJob taken
      intro job _ ready
      have waiting := of_decide_eq_true (Bool.and_eq_true_iff.mp ready).1
      apply remaining_stage
      rw [waiting]
      decide
    · apply nearer_onJob taken
      intro job found ready
      have waiting := of_decide_eq_true (Bool.and_eq_true_iff.mp ready).1
      simp [Job.remaining, Stage.remaining, waiting, (inv.jobs id job found).ungranted waiting]
  | call id =>
    apply nearer_onJob taken
    intro job _ ready
    apply remaining_stage
    rw [of_decide_eq_true ready]
    decide
  | answer id outcome =>
    apply nearer_onJob taken
    intro job _ ready
    obtain ⟨mutation, holder, pending⟩ := Option.any_eq_true _ _ |>.mp ready
    simp [Job.remaining, holder, beq_iff_eq.mp pending]
  | returns id outcome =>
    apply nearer_onJob taken
    intro job _ ready
    apply remaining_stage
    rw [of_decide_eq_true ready]
    decide
  | ends id =>
    apply nearer_onJob taken
    intro job _ ready
    have returned := of_decide_eq_true ready
    cases holder : job.mutation with
    | none => simp [Job.remaining, Stage.remaining, returned, holder]
    | some mutation => simp [Job.remaining, Stage.remaining, returned, holder]
  | release id =>
    apply nearer_onJob taken
    intro job _ ready
    apply remaining_stage
    rw [of_decide_eq_true (Bool.and_eq_true_iff.mp ready).1]
    decide
  | finish id =>
    apply nearer_onJob taken
    intro job _ ready
    apply remaining_stage
    rw [of_decide_eq_true ready]
    decide
  | mutate => exact drives.elim
  | commit id writes throws => exact drives.elim
  | close => exact drives.elim
  | closeStorage => exact drives.elim
  | closeReturns => exact drives.elim

theorem onJob_isSome (found : s.jobs[id]? = some job)
    (ready : enabled job = true) : (s.onJob id enabled update marks).isSome = true := by
  rw [LineState.onJob, found]
  dsimp only
  rw [if_pos ready]
  rfl

/-- The first unsettled job has a reaction, or waits for its callback or the storage. -/
theorem exists_driving (choice : Nat → Outcome) (found : s.jobs[id]? = some job)
    (unsettled : job.stage.settled = false) (tail : tailSettled s.jobs id = true) :
    ∃ ev : LineEvent β V N, ev.Drives choice ∧ (s.step pendingMessage ev).isSome = true := by
  cases stage : job.stage with
  | waiting =>
    refine ⟨.turn id, trivial, ?_⟩
    rw [LineState.step, LineState.turn]
    split
    · exact onJob_isSome found (by rw [stage, tail]; rfl)
    · exact onJob_isSome found (by rw [stage, tail]; rfl)
  | granted => exact ⟨.call id, trivial, onJob_isSome found (decide_eq_true stage)⟩
  | running => exact ⟨.returns id (choice id), rfl, onJob_isSome found (decide_eq_true stage)⟩
  | returned => exact ⟨.ends id, trivial, onJob_isSome found (decide_eq_true stage)⟩
  | ending =>
    by_cases waits : job.mutation.any (·.commitResult == some .pending) = true
    · exact ⟨.answer id .fulfilled, trivial, onJob_isSome found waits⟩
    · exact ⟨.release id, trivial, onJob_isSome found (by simp [stage, waits])⟩
  | released => exact ⟨.finish id, trivial, onJob_isSome found (decide_eq_true stage)⟩
  | refused =>
    rw [stage] at unsettled
    cases unsettled
  | finished =>
    rw [stage] at unsettled
    cases unsettled

theorem exists_first {jobs : List Job} {id : Nat} {job : Job} (found : jobs[id]? = some job)
    (unsettled : job.stage.settled = false) :
    ∃ (first : Nat) (front : Job), jobs[first]? = some front ∧ front.stage.settled = false ∧
      tailSettled jobs first = true := by
  induction id generalizing job with
  | zero => exact ⟨0, job, found, unsettled, rfl⟩
  | succ id ih =>
    have inside : id < jobs.length := by
      have bound := (List.getElem?_eq_some_iff.mp found).1
      omega
    have before : jobs[id]? = some jobs[id] := getElem?_eq_getElem inside
    cases done : jobs[id].stage.settled with
    | true =>
      refine ⟨id + 1, job, found, unsettled, ?_⟩
      rw [tailSettled, before]
      exact done
    | false => exact ih before done

theorem LineInvariant.started_or_driving (inv : LineInvariant s) (opened : s.state = .opened)
    (choice : Nat → Outcome) (admitted : .admitted id ∈ s.history) :
    .started id ∈ s.history ∨ ∃ ev : LineEvent β V N, ev.Drives choice ∧
      (s.step pendingMessage ev).isSome = true := by
  have inside := inv.known _ admitted id rfl
  have found : s.jobs[id]? = some s.jobs[id] := getElem?_eq_getElem inside
  have own := inv.jobs id _ found
  cases settled : s.jobs[id].stage.settled with
  | false =>
    obtain ⟨first, front, here, unsettled, tail⟩ := exists_first found settled
    exact .inr (exists_driving choice here unsettled tail)
  | true =>
    left
    apply own.started.mpr
    cases stage : s.jobs[id].stage with
    | refused =>
      have sealed_ := inv.refused id _ found stage
      rw [inv.opened.mp opened] at sealed_
      cases sealed_
    | finished => rfl
    | _ =>
      rw [stage] at settled
      cases settled

variable {events : List (LineEvent β V N)} {last : LineState β V N}

theorem exec_cons
    (ran : Library.Machine.exec (mutationLine pendingMessage) (fun _ _ => True) s
      (ev :: events) = some last) :
    ∃ next, s.step pendingMessage ev = some next ∧
      Library.Machine.exec (mutationLine pendingMessage) (fun _ _ => True) next events =
        some last := by
  rw [Library.Machine.exec, if_pos trivial] at ran
  split at ran
  · rename_i next taken
    exact ⟨next, taken, ran⟩
  · cases ran

theorem LineInvariant.bounded (inv : LineInvariant s)
    (drives : ∀ ev ∈ events, ev.Drives choice)
    (ran : Library.Machine.exec (mutationLine pendingMessage) (fun _ _ => True) s events =
      some last) : events.length ≤ remaining s.jobs := by
  induction events generalizing s with
  | nil => exact Nat.zero_le _
  | cons ev events ih =>
    obtain ⟨here, later⟩ := forall_mem_cons.mp drives
    obtain ⟨next, taken, rest⟩ := exec_cons ran
    have fewer := (inv.nearer here taken).fewer
    have bounded := ih (inv.step taken) later rest
    rw [length_cons]
    omega

theorem LineInvariant.drive (inv : LineInvariant s) (opened : s.state = .opened)
    (admitted : .admitted id ∈ s.history) (drives : ∀ ev ∈ events, ev.Drives choice)
    (ran : Library.Machine.exec (mutationLine pendingMessage) (fun _ _ => True) s events =
      some last) :
    .started id ∈ last.history ∨ ∃ ev : LineEvent β V N, ev.Drives choice ∧
      (last.step pendingMessage ev).isSome = true := by
  induction events generalizing s with
  | nil =>
    cases ran
    exact inv.started_or_driving opened choice admitted
  | cons ev events ih =>
    obtain ⟨here, later⟩ := forall_mem_cons.mp drives
    obtain ⟨next, taken, rest⟩ := exec_cons ran
    have nearer := inv.nearer here taken
    exact ih (inv.step taken) (nearer.state.trans opened) (nearer.grown.subset admitted)
      later rest

end

theorem lineInvariant_inductive (pendingMessage : β → Bool) :
    Library.Machine.Inductive (mutationLine pendingMessage) (fun _ _ => True)
      (LineInvariant : LineState β V N → Prop) where
  start := by
    rintro s rfl
    exact .start
  step := fun _ _ _ inv _ taken => inv.step taken

/-- In every state any interleaving leads to, each thing that happened was allowed by what
happened before it. While the session is open, whichever of the callbacks fail, runs of the
line are bounded, and none that cannot go on leaves out the callback of an admitted call. -/
theorem mutations_serialized {pendingMessage : β → Bool} {s : LineState β V N}
    (reached : Library.Machine.Reached (mutationLine pendingMessage) (fun _ _ => True) s) :
    (∀ later mark earlier, s.history = later ++ mark :: earlier → Allowed earlier mark) ∧
      (s.state = .opened → ∀ (choice : Nat → Outcome) (events : List (LineEvent β V N)) last,
        (∀ ev ∈ events, ev.Drives choice) →
        Library.Machine.exec (mutationLine pendingMessage) (fun _ _ => True) s events =
          some last →
        events.length ≤ remaining s.jobs ∧
          ∀ id, .admitted id ∈ s.history → .started id ∈ last.history ∨
            ∃ ev : LineEvent β V N, ev.Drives choice ∧
              (last.step pendingMessage ev).isSome = true) := by
  have inv := (lineInvariant_inductive pendingMessage).reached reached
  refine ⟨?_, ?_⟩
  · intro later mark earlier split
    have orderly := inv.orderly
    rw [split] at orderly
    exact orderly.allowed
  · intro opened choice events last drives ran
    refine ⟨inv.bounded drives ran, fun id admitted => ?_⟩
    exact inv.drive opened admitted drives ran

/-- A failing callback, and behind it one whose commit is acknowledged. -/
def sampleTurns : List (LineEvent Nat Nat Nat) :=
  [.mutate, .mutate, .turn 0, .call 0, .returns 0 .rejected, .ends 0, .release 0, .finish 0,
    .turn 1, .call 1, .commit 1 [] false, .answer 1 .fulfilled]

def sampleHistory : List (Mark Nat Nat Nat) :=
  [.committed 1 [], .started 1, .released 0, .ended 0, .returned 0 .rejected, .started 0,
    .admitted 1, .admitted 0]

theorem mutations_serialized_sample :
    Allowed sampleHistory (.acknowledged 1) ∧ Allowed (sampleHistory.drop 2) (.started 1) := by
  have ran : (Library.Machine.exec (mutationLine fun _ => false) (fun _ _ => True) .start
      sampleTurns).map LineState.history = some (.acknowledged 1 :: sampleHistory) := rfl
  obtain ⟨s, last, history⟩ := Option.map_eq_some_iff.mp ran
  have reached := Library.Machine.Reached.exec (.start rfl) last
  exact ⟨(mutations_serialized reached).1 [] _ _ history,
    (mutations_serialized reached).1 [.acknowledged 1, .committed 1 []] _ _ history⟩

/-- Two admitted calls; the session is closed while the first callback runs. -/
def closingTurns : List (LineEvent Nat Nat Nat) :=
  [.mutate, .mutate, .turn 0, .call 0, .close, .returns 0 .fulfilled, .ends 0, .release 0,
    .finish 0, .turn 1, .closeStorage, .closeReturns]

/-- Closing returns although the second callback never ran. -/
theorem refused_callback_unfinished :
    ∃ s : LineState Nat Nat Nat,
      Library.Machine.Reached (mutationLine fun _ => false) (fun _ _ => True) s ∧
        .closeReturned ∈ s.history ∧ .admitted 1 ∈ s.history ∧
        ∀ outcome, .returned 1 outcome ∉ s.history := by
  have ran : (Library.Machine.exec (mutationLine fun _ => false) (fun _ _ => True) .start
      closingTurns).map LineState.history = some [.closeReturned, .storageClosed, .refused 1,
        .released 0, .ended 0, .returned 0 .fulfilled, .started 0, .admitted 1, .admitted 0] := rfl
  obtain ⟨s, last, history⟩ := Option.map_eq_some_iff.mp ran
  refine ⟨s, .exec (.start rfl) last, ?_⟩
  rw [history]
  refine ⟨by simp, by simp, ?_⟩
  intro outcome
  simp

end Trpi.Session
