import Trpi.Harness.LaneCommands

/-!
# While the idle callback runs

A lane is claimed in a turn of the line in which no other call plans, and while it is
claimed every turn sends its command back. So from the claim until the callback has settled
nothing is planned or committed on the lane, no operation is accepted or driven, and no
second callback runs.
-/

namespace Trpi.Harness

open Library Session LineState LaneWorld List Option

variable {β V N D : Type} {owner : Nat} {w next : LaneWorld β V N D}

section

variable {pendingMessage : β → Bool} {s next : LineState β V N}

theorem running_onJob {id job : Nat} {held : Job} {enabled : Job → Bool} {update : Job → Job}
    {marks : Job → List (Mark β V N)} (taken : s.onJob id enabled update marks = some next)
    (found : s.jobs[job]? = some held) (running : held.stage = .running)
    (keeps : id = job → enabled held = true → (update held).stage = .running) :
    ∃ after, next.jobs[job]? = some after ∧ after.stage = .running := by
  obtain ⟨old, here, ready, rfl⟩ := onJob_eq_some taken
  by_cases same : id = job
  · subst same
    rw [here] at found
    obtain rfl := some.inj found
    refine ⟨update old, ?_, keeps rfl ready⟩
    exact List.getElem?_set_self (List.getElem?_eq_some_iff.mp here).1
  · refine ⟨held, ?_, running⟩
    change (s.jobs.set id (update old))[job]? = _
    rw [getElem?_set_ne same, found]

theorem running_kept {ev : LineEvent β V N} {job : Nat} {held : Job}
    (taken : s.step pendingMessage ev = some next) (found : s.jobs[job]? = some held)
    (running : held.stage = .running) (other : ∀ outcome, ev ≠ .returns job outcome) :
    ∃ after, next.jobs[job]? = some after ∧ after.stage = .running := by
  have absurd_ : ∀ stage : Stage, stage ≠ .running → held.stage = stage → False :=
    fun stage apart same => apart (same.symm.trans running)
  cases ev with
  | mutate =>
    cases taken
    unfold mutate
    split
    · exact ⟨held, found, running⟩
    split
    · exact ⟨held, found, running⟩
    · refine ⟨held, ?_, running⟩
      rw [List.getElem?_append_left (List.getElem?_eq_some_iff.mp found).1, found]
  | turn id =>
    rw [LineState.step, LineState.turn] at taken
    split at taken
    all_goals
      refine running_onJob taken found running fun same ready => ?_
      exact (absurd_ _ (by decide) (of_decide_eq_true (Bool.and_eq_true_iff.mp ready).1)).elim
  | call id =>
    exact running_onJob taken found running fun _ _ => rfl
  | commit id writes throws => exact running_onJob taken found running fun _ _ => running
  | answer id outcome => exact running_onJob taken found running fun _ _ => running
  | returns id outcome =>
    refine running_onJob taken found running fun same _ => ?_
    exact (other outcome (same ▸ rfl)).elim
  | ends id =>
    refine running_onJob taken found running fun _ ready => ?_
    exact (absurd_ _ (by decide) (of_decide_eq_true ready)).elim
  | release id =>
    refine running_onJob taken found running fun _ ready => ?_
    exact (absurd_ _ (by decide) (of_decide_eq_true (Bool.and_eq_true_iff.mp ready).1)).elim
  | finish id =>
    refine running_onJob taken found running fun _ ready => ?_
    exact (absurd_ _ (by decide) (of_decide_eq_true ready)).elim
  | close =>
    cases taken
    unfold close
    split <;> exact ⟨held, found, running⟩
  | closeStorage =>
    rw [LineState.step, LineState.closeStorage] at taken
    split at taken
    · cases taken
    split at taken
    · exact some.inj taken ▸ ⟨held, found, running⟩
    · cases taken
  | closeReturns =>
    rw [LineState.step, LineState.closeReturns] at taken
    split at taken
    · exact some.inj taken ▸ ⟨held, found, running⟩
    · cases taken

theorem called {job : Nat} (taken : s.step pendingMessage (.call job) = some next) :
    (∃ held, s.jobs[job]? = some held ∧ held.stage = .granted) ∧
      ∃ after, next.jobs[job]? = some after ∧ after.stage = .running := by
  obtain ⟨held, found, granted, rfl⟩ := onJob_eq_some taken
  refine ⟨⟨held, found, of_decide_eq_true granted⟩, { held with stage := .running }, ?_, rfl⟩
  exact List.getElem?_set_self (List.getElem?_eq_some_iff.mp found).1

end

section

variable {w next : LaneWorld β V N D} {id other : Nat} {phase : Phase D}

theorem LaneWorld.phase_setPhase (found : w.phase id = some phase) (new : Phase D) (other : Nat) :
    (w.setPhase id new).phase other =
      if other = id then some new else w.phase other := by
  obtain ⟨call, here, -⟩ := map_eq_some_iff.mp found
  unfold setPhase LaneWorld.phase
  rw [getElem?_modify]
  split
  · rename_i same
    rw [if_pos same.symm, ← same, here]
    rfl
  · rename_i apart
    rw [if_neg (Ne.symm apart), id_map']

theorem leave_eq_some {pendingMessage : β → Bool} {job : Nat} {outcome : CommandOutcome}
    (taken : w.leave pendingMessage id job outcome = some next) :
    ∃ line result, w.line.step pendingMessage (.returns job result) = some line ∧
      next = { w with line }.setPhase id (.leaving job outcome) := by
  obtain ⟨line, returned, same⟩ := map_eq_some_iff.mp taken
  exact ⟨line, _, returned, same.symm⟩

end

structure LaneInvariant (w : LaneWorld β V N D) : Prop where
  line : LineInvariant w.line
  planning : ∀ id phase job, w.phase id = some phase → phase.plans = some job →
    ∃ held, w.line.jobs[job]? = some held ∧ held.stage = .running
  single : ∀ id phase other phase', w.phase id = some phase → w.phase other = some phase' →
    phase.plans.isSome = true → phase'.plans.isSome = true → id = other
  claimed : ∀ id phase, w.phase id = some phase → phase.claims = true → w.idleOwner = some id
  installed : ∀ id phase, w.phase id = some phase → phase.drives = true →
    w.activeDrive.map (·.id) = some id
  idle : w.idleOwner.isSome = true → w.state.operation = none ∧
    w.activeDrive = none ∧ ∀ id phase, w.phase id = some phase → phase.plans = none

inductive Ownership (w next : LaneWorld β V N D) (id : Nat) (old new : Phase D) : Prop where
  | kept (same : next.idleOwner = w.idleOwner)
  | claim (free : w.idleOwner = none) (owner : next.idleOwner = some id)
      (unaccepted : next.state.operation = none) (undriven : next.activeDrive = none)
      (unplanned : new.plans = none)
      (alone : ∀ other phase, w.phase other = some phase → phase.plans = none)
  | release (held : old.claims = true) (free : next.idleOwner = none)

inductive Driving (w next : LaneWorld β V N D) (id : Nat) (old : Phase D) : Prop where
  | kept (same : next.activeDrive = w.activeDrive)
  | install (free : w.idleOwner = none) (unclaimed : next.idleOwner = none)
      (undriven : w.activeDrive = none)
  | ended (drives : old.drives = true) (undriven : next.activeDrive = none)

/-- What a step of the call `id` owes. -/
structure MoveOwes (w next : LaneWorld β V N D) (id : Nat) (old new : Phase D) : Prop where
  found : w.phase id = some old
  phases : ∀ other, next.phase other = if other = id then some new else w.phase other
  line : LineInvariant next.line
  running : ∀ job held, w.line.jobs[job]? = some held → held.stage = .running →
    old.plans ≠ some job → ∃ after, next.line.jobs[job]? = some after ∧ after.stage = .running
  plans : ∀ job, new.plans = some job →
    (∃ after, next.line.jobs[job]? = some after ∧ after.stage = .running) ∧
    (old.plans.isSome = true ∨ next.idleOwner = none ∧
      ∀ other phase, w.phase other = some phase → phase.plans = none)
  owner : Ownership w next id old new
  claims : new.claims = true → next.idleOwner = some id
  driving : Driving w next id old
  drives : new.drives = true → next.activeDrive.map (·.id) = some id
  written : next.state = w.state ∨ old.plans.isSome = true
  marks : next.marks = w.marks ∨ w.idleOwner = none ∨ old.plans.isSome = true ∨
    old.drives = true ∨ old.claims = true

theorem MoveOwes.invariant {id : Nat} {old new : Phase D} (owes : MoveOwes w next id old new)
    (inv : LaneInvariant w) : LaneInvariant next := by
  have cases_ : ∀ {other : Nat} {phase : Phase D}, next.phase other = some phase →
      (other = id ∧ phase = new) ∨ (other ≠ id ∧ w.phase other = some phase) := by
    intro other phase found
    rw [owes.phases] at found
    split at found
    · rename_i same
      exact .inl ⟨same, (some.inj found).symm⟩
    · rename_i apart
      exact .inr ⟨apart, found⟩
  constructor
  · exact owes.line
  · intro other phase job found plans
    rcases cases_ found with ⟨rfl, rfl⟩ | ⟨apart, found⟩
    · exact (owes.plans job plans).1
    · obtain ⟨held, here, running⟩ := inv.planning other phase job found plans
      refine owes.running job held here running ?_
      intro own
      apply apart
      apply inv.single other phase id old found owes.found
      · rw [plans]
        rfl
      · rw [own]
        rfl
  · intro first phase second phase' here there plans plans'
    have alone : ∀ {other : Nat} {phase : Phase D}, w.phase other = some phase →
        phase.plans.isSome = true → new.plans.isSome = true → other = id := by
      intro other phase found plans started
      obtain ⟨job, own⟩ := isSome_iff_exists.mp started
      rcases (owes.plans job own).2 with already | ⟨-, none_⟩
      · exact inv.single other phase id old found owes.found plans already
      · rw [none_ other phase found] at plans
        cases plans
    rcases cases_ here with ⟨rfl, rfl⟩ | ⟨apart, here⟩ <;>
      rcases cases_ there with ⟨rfl, rfl⟩ | ⟨apart', there⟩
    · rfl
    · exact absurd (alone there plans' plans) apart'
    · exact absurd (alone here plans plans') apart
    · exact inv.single first phase second phase' here there plans plans'
  · intro other phase found claims
    rcases cases_ found with ⟨rfl, rfl⟩ | ⟨apart, found⟩
    · exact owes.claims claims
    · have held := inv.claimed other phase found claims
      cases owes.owner with
      | kept same => rw [same, held]
      | claim free =>
        rw [free] at held
        cases held
      | release mine =>
        rw [inv.claimed id old owes.found mine] at held
        exact absurd (some.inj held).symm apart
  · intro other phase found drives
    rcases cases_ found with ⟨rfl, rfl⟩ | ⟨apart, found⟩
    · exact owes.drives drives
    · have active := inv.installed other phase found drives
      cases owes.driving with
      | kept same => rw [same, active]
      | install _ _ undriven =>
        rw [undriven] at active
        cases active
      | ended mine =>
        rw [inv.installed id old owes.found mine] at active
        exact absurd (some.inj active).symm apart
  · intro owned
    cases owes.owner with
    | kept same =>
      rw [same] at owned
      obtain ⟨unaccepted, undriven, unplanned⟩ := inv.idle owned
      have resting := unplanned id old owes.found
      refine ⟨?_, ?_, ?_⟩
      · rcases owes.written with same | wrote
        · rw [same, unaccepted]
        · rw [resting] at wrote
          cases wrote
      · cases owes.driving with
        | kept same => rw [same, undriven]
        | install free =>
          rw [free] at owned
          cases owned
        | ended _ undriven => exact undriven
      · intro other phase found
        rcases cases_ found with ⟨rfl, rfl⟩ | ⟨-, found⟩
        · rw [← not_isSome_iff_eq_none]
          intro started
          obtain ⟨job, own⟩ := isSome_iff_exists.mp started
          rcases (owes.plans job own).2 with already | ⟨free, -⟩
          · rw [resting] at already
            cases already
          · rw [← same, free] at owned
            cases owned
        · exact unplanned other phase found
    | claim _ _ unaccepted undriven unplanned alone =>
      refine ⟨unaccepted, undriven, ?_⟩
      intro other phase found
      rcases cases_ found with ⟨rfl, rfl⟩ | ⟨-, found⟩
      · exact unplanned
      · exact alone other phase found
    | release _ free =>
      rw [free] at owned
      cases owned

theorem LaneInvariant.start (state : LaneState D) :
    LaneInvariant (start (.start : LineState β V N) state) := by
  constructor
  · exact LineInvariant.start
  · intro id phase job found
    cases found
  · intro id phase other phase' found
    cases found
  · intro id phase found
    cases found
  · intro id phase found
    cases found
  · intro owned
    cases owned

section

variable {pendingMessage : β → Bool} {w mid next : LaneWorld β V N D} {id job : Nat}
  {old new : Phase D} {line : LineState β V N} {ev : LaneEvent β V N D}

theorem MoveOwes.rests (found : w.phase id = some old)
    (phases : ∀ other, next.phase other = if other = id then some new else w.phase other)
    (line : LineInvariant next.line)
    (running : ∀ job held, w.line.jobs[job]? = some held → held.stage = .running →
      old.plans ≠ some job → ∃ after, next.line.jobs[job]? = some after ∧ after.stage = .running)
    (owner : next.idleOwner = w.idleOwner) (drive : next.activeDrive = w.activeDrive)
    (written : next.state = w.state ∨ old.plans.isSome = true)
    (unplanned : new.plans = none) (unclaimed : new.claims = false)
    (undriven : new.drives = false)
    (marks : next.marks = w.marks ∨ w.idleOwner = none ∨ old.plans.isSome = true ∨
      old.drives = true ∨ old.claims = true) : MoveOwes w next id old new where
  found := found
  phases := phases
  line := line
  running := running
  plans job plans := by
    rw [unplanned] at plans
    cases plans
  owner := .kept owner
  claims claims := by
    rw [unclaimed] at claims
    cases claims
  driving := .kept drive
  drives drives := by
    rw [undriven] at drives
    cases drives
  written := written
  marks := marks

theorem MoveOwes.returned (owes : MoveOwes w mid id old new) (unplanned : new.plans = none)
    {result : Outcome}
    (taken : mid.line.step pendingMessage (.returns job result) = some line)
    (own : ∀ other held, w.line.jobs[other]? = some held → held.stage = .running →
      old.plans ≠ some other → other ≠ job) : MoveOwes w { mid with line } id old new where
  found := owes.found
  phases := owes.phases
  line := owes.line.step taken
  running other held here running foreign := by
    obtain ⟨after, there, still⟩ := owes.running other held here running foreign
    apply running_kept taken there still
    intro outcome same
    injection same with same
    exact own other held here running foreign same.symm
  plans job plans := by
    rw [unplanned] at plans
    cases plans
  owner := by
    cases owes.owner with
    | kept same => exact .kept same
    | claim free owner unaccepted undriven unplanned alone =>
      exact .claim free owner unaccepted undriven unplanned alone
    | release held free => exact .release held free
  claims := owes.claims
  driving := by
    cases owes.driving with
    | kept same => exact .kept same
    | install free unclaimed undriven => exact .install free unclaimed undriven
    | ended drives undriven => exact .ended drives undriven
  drives := owes.drives
  written := owes.written
  marks := owes.marks

theorem LaneInvariant.unplanned (inv : LaneInvariant w) {held : Job}
    (here : w.line.jobs[job]? = some held) (granted : held.stage = .granted) :
    ∀ other phase, w.phase other = some phase → phase.plans = none := by
  intro other phase found
  rw [← not_isSome_iff_eq_none]
  intro plans
  obtain ⟨busy, own⟩ := isSome_iff_exists.mp plans
  obtain ⟨runner, there, running⟩ := inv.planning other phase busy found own
  rcases Nat.lt_trichotomy busy job with before | rfl | after
  · have settled := inv.line.before here (by rw [granted]; decide) before there
    rw [running] at settled
    cases settled
  · rw [here] at there
    cases there
    rw [granted] at running
    cases running
  · have settled := inv.line.before there (by rw [running]; decide) after here
    rw [granted] at settled
    cases settled

theorem running_same (same : next.line = w.line) :
    ∀ job held, w.line.jobs[job]? = some held → held.stage = .running →
      old.plans ≠ some job →
        ∃ after, next.line.jobs[job]? = some after ∧ after.stage = .running := by
  intro job held here running _
  rw [same]
  exact ⟨held, here, running⟩

@[simp] theorem phase_onFault : w.onFault.phase = w.phase := by
  unfold onFault
  split <;> rfl

@[simp] theorem line_onFault : w.onFault.line = w.line := by
  unfold onFault
  split <;> rfl

@[simp] theorem idleOwner_onFault : w.onFault.idleOwner = w.idleOwner := by
  unfold onFault
  split <;> rfl

@[simp] theorem activeDrive_onFault : w.onFault.activeDrive = w.activeDrive := by
  unfold onFault
  split <;> rfl

@[simp] theorem state_onFault : w.onFault.state = w.state := by
  unfold onFault
  split <;> rfl

@[simp] theorem marks_onFault : w.onFault.marks = w.marks := by
  unfold onFault
  split <;> rfl

theorem LaneInvariant.rests (inv : LaneInvariant w) (found : w.phase id = some old)
    (unplanned : new.plans = none) (unclaimed : new.claims = false)
    (undriven : new.drives = false) : MoveOwes w (w.setPhase id new) id old new :=
  .rests found (phase_setPhase found new) inv.line (running_same rfl) rfl rfl
    (.inl rfl) unplanned unclaimed undriven (.inl rfl)

theorem LaneInvariant.enter (inv : LaneInvariant w) {wait : Wait}
    (found : w.phase id = some (.entering wait)) :
    ∃ new, MoveOwes w (w.enter id) id (.entering wait) new := by
  unfold LaneWorld.enter
  split
  · exact ⟨.done, inv.rests found rfl rfl rfl⟩
  split
  · exact ⟨.entering (.change w.changes), inv.rests found rfl rfl rfl⟩
  split
  · exact ⟨.done, inv.rests found rfl rfl rfl⟩
  · refine ⟨.queued w.line.jobs.length, .rests found (phase_setPhase found _)
      inv.line.mutate ?_ rfl rfl (.inl rfl) rfl rfl rfl (.inl rfl)⟩
    intro job held here running _
    exact @running_kept _ _ _ (fun _ => false) _ _ .mutate job held rfl here running (by simp)

theorem MoveOwes.leaves {job : Nat} {outcome : CommandOutcome}
    (owes : MoveOwes w (mid.setPhase id (.leaving job outcome)) id old (.leaving job outcome))
    (taken : mid.leave pendingMessage id job outcome = some next)
    (own : ∀ other held, w.line.jobs[other]? = some held → held.stage = .running →
      old.plans ≠ some other → other ≠ job) : MoveOwes w next id old (.leaving job outcome) := by
  obtain ⟨line, result, returned, rfl⟩ := leave_eq_some taken
  exact owes.returned rfl returned own

/-- The callback of the call's job is called, and sees the lane. -/
structure Turn (pendingMessage : β → Bool) (w seen : LaneWorld β V N D) (id job : Nat) : Prop where
  found : w.phase id = some (.queued job)
  called : w.line.step pendingMessage (.call job) = some seen.line
  phases : seen.phase = w.phase
  idleOwner : seen.idleOwner = w.idleOwner
  activeDrive : seen.activeDrive = w.activeDrive
  state : seen.state = w.state
  marks : seen.marks = w.marks ∨ w.idleOwner = none

namespace Turn

variable {seen : LaneWorld β V N D} (turn : Turn pendingMessage w seen id job)
include turn

theorem own (other : Nat) (held : Job) (here : w.line.jobs[other]? = some held)
    (running : held.stage = .running) (_ : (Phase.queued job : Phase D).plans ≠ some other) :
    other ≠ job := by
  rintro rfl
  obtain ⟨⟨held', there, granted⟩, -⟩ := Harness.called turn.called
  rw [here] at there
  cases there
  rw [running] at granted
  cases granted

theorem running (other : Nat) (held : Job) (here : w.line.jobs[other]? = some held)
    (running : held.stage = .running) (_ : (Phase.queued job : Phase D).plans ≠ some other) :
    ∃ after, seen.line.jobs[other]? = some after ∧ after.stage = .running :=
  running_kept turn.called here running (by simp)

theorem alone (inv : LaneInvariant w) (other : Nat) (phase : Phase D)
    (found : w.phase other = some phase) : phase.plans = none := by
  obtain ⟨⟨held, here, granted⟩, -⟩ := Harness.called turn.called
  exact inv.unplanned here granted other phase found

theorem phase_setPhase (new : Phase D) (other : Nat) :
    (seen.setPhase id new).phase other = if other = id then some new else w.phase other := by
  have found := turn.found
  rw [← turn.phases] at found
  rw [LaneWorld.phase_setPhase found, turn.phases]

theorem marked : seen.marks = w.marks ∨ w.idleOwner = none ∨
    (Phase.queued job : Phase D).plans.isSome = true ∨ (Phase.queued job : Phase D).drives = true ∨
      (Phase.queued job : Phase D).claims = true := by
  rcases turn.marks with same | free
  · exact .inl same
  · exact .inr (.inl free)

section

variable (inv : LaneInvariant w)

include inv

/-- The turn changes nothing for the lane. -/
theorem rests {new : Phase D} (unplanned : new.plans = none)
    (unclaimed : new.claims = false) (undriven : new.drives = false) :
    MoveOwes w (seen.setPhase id new) id (.queued job) new :=
  .rests turn.found (turn.phase_setPhase new) (inv.line.step turn.called) turn.running
    turn.idleOwner turn.activeDrive (.inl turn.state) unplanned unclaimed undriven turn.marked

theorem planning (free : w.idleOwner = none) :
    MoveOwes w (seen.setPhase id (.planning job)) id (.queued job) (.planning job) where
  found := turn.found
  phases := turn.phase_setPhase _
  line := inv.line.step turn.called
  running := turn.running
  plans own plans := by
    cases plans
    refine ⟨(Harness.called turn.called).2, .inr ⟨?_, turn.alone inv⟩⟩
    exact turn.idleOwner.trans free
  owner := .kept turn.idleOwner
  claims claims := by cases claims
  driving := .kept turn.activeDrive
  drives drives := by cases drives
  written := .inl turn.state
  marks := .inr (.inl free)

theorem claims (free : w.idleOwner = none)
    (undriven : seen.activeDrive = none) (unaccepted : seen.state.operation = none) : MoveOwes w
      (({ seen with idleOwner := some id }.signalStateChange).setPhase id
        (.leaving job (.planned .claimed)))
      id (.queued job) (.leaving job (.planned .claimed)) where
  found := turn.found
  phases := turn.phase_setPhase _
  line := inv.line.step turn.called
  running := turn.running
  plans own plans := by cases plans
  owner := .claim free rfl unaccepted undriven rfl (turn.alone inv)
  claims _ := rfl
  driving := .kept turn.activeDrive
  drives drives := by cases drives
  written := .inl turn.state
  marks := .inr (.inl free)

theorem installs (free : w.idleOwner = none)
    (undriven : seen.activeDrive = none) (operationId : String) : MoveOwes w
      (({ seen with activeDrive := some { id, operationId } }.signalStateChange).setPhase id
        (.leaving job (.planned .installed)))
      id (.queued job) (.leaving job (.planned .installed)) where
  found := turn.found
  phases := turn.phase_setPhase _
  line := inv.line.step turn.called
  running := turn.running
  plans own plans := by cases plans
  owner := .kept turn.idleOwner
  claims claims := by cases claims
  driving := .install free (turn.idleOwner.trans free) (turn.activeDrive.symm.trans undriven)
  drives _ := rfl
  written := .inl turn.state
  marks := .inr (.inl free)

theorem planAt (free : w.idleOwner = none)
    {procedure : Procedure} {aborted : Bool} {planned : LaneWorld β V N D} {result : PlanResult}
    (ran : seen.planAt id aborted procedure = some (planned, result)) :
    MoveOwes w (planned.setPhase id (.leaving job (.planned result))) id (.queued job)
      (.leaving job (.planned result)) := by
  cases procedure with
  | command => cases ran
  | runWhenIdle =>
    obtain ran := some.inj ran
    unfold planIdle at ran
    split at ran
    · cases ran
      exact turn.rests inv rfl rfl rfl
    · cases ran
      exact turn.rests inv rfl rfl rfl
    · rename_i undriven unaccepted
      cases ran
      exact turn.claims inv free undriven unaccepted
  | drive operationId =>
    rw [LaneWorld.planAt] at ran
    split at ran
    · cases ran
      exact turn.rests inv rfl rfl rfl
    split at ran
    · obtain ran := some.inj ran
      unfold planDrive at ran
      split at ran
      · rename_i undriven
        cases ran
        exact turn.installs inv free undriven operationId
      · cases ran
        split <;> exact turn.rests inv rfl rfl rfl
    · cases ran

end

end Turn

theorem LaneInvariant.starts (inv : LaneInvariant w) {aborted : Bool}
    (taken : w.starts pendingMessage id aborted = some next) :
    ∃ job new, MoveOwes w next id (.queued job) new := by
  unfold LaneWorld.starts at taken
  split at taken
  · rename_i procedure job here
    have found : w.phase id = some (.queued job) := by
      rw [phase, here]
      rfl
    obtain ⟨line, called, taken⟩ := bind_eq_some_iff.mp taken
    have turn : Turn pendingMessage w { w with line } id job :=
      ⟨found, called, rfl, rfl, rfl, rfl, .inl rfl⟩
    refine ⟨job, ?_⟩
    dsimp only at taken
    split at taken
    · exact ⟨_, (turn.rests inv rfl rfl rfl).leaves taken turn.own⟩
    split at taken
    · exact ⟨_, (turn.rests inv rfl rfl rfl).leaves taken turn.own⟩
    rename_i free
    have free : w.idleOwner = none := not_isSome_iff_eq_none.mp free
    have marked : Turn pendingMessage w
        (mark { w with line } (.planned id)) id job :=
      ⟨found, called, rfl, rfl, rfl, rfl, .inr free⟩
    split at taken
    · cases taken
      exact ⟨_, marked.planning inv free⟩
    · rename_i ran
      exact ⟨_, (marked.planAt inv free ran).leaves taken turn.own⟩
  · cases taken

section

variable (inv : LaneInvariant w)

include inv

theorem LaneInvariant.leaves (found : w.phase id = some old) (plans : old.plans = some job)
    {outcome : CommandOutcome} (taken : mid.leave pendingMessage id job outcome = some next)
    (phases : mid.phase = w.phase) (line : mid.line = w.line) (owner : mid.idleOwner = w.idleOwner)
    (drive : mid.activeDrive = w.activeDrive) (unclaimed : outcome ≠ .planned .claimed)
    (undriven : outcome ≠ .planned .installed) : ∃ new, MoveOwes w next id old new := by
  have here : mid.phase id = some old := by rw [phases, found]
  have plans_ : old.plans.isSome = true := by rw [plans]; rfl
  have left : MoveOwes w (mid.setPhase id (.leaving job outcome)) id old
      (.leaving job outcome) := by
    apply MoveOwes.rests found
    · intro other
      rw [phase_setPhase here, phases]
    · exact line.symm ▸ inv.line
    · exact running_same line
    · exact owner
    · exact drive
    · exact .inr plans_
    · rfl
    · cases outcome with
      | threw => rfl
      | idleBlocked change => rfl
      | planned result =>
        cases result with
        | claimed => exact absurd rfl unclaimed
        | _ => rfl
    · cases outcome with
      | threw => rfl
      | idleBlocked change => rfl
      | planned result =>
        cases result with
        | installed => exact absurd rfl undriven
        | _ => rfl
    · exact .inr (.inr (.inl plans_))
  refine ⟨_, left.leaves taken ?_⟩
  rintro other held _ _ foreign rfl
  exact foreign plans

theorem LaneInvariant.plan {decision : LaneCommand β V N D}
    (taken : w.plan pendingMessage id decision = some next) :
    ∃ job new, MoveOwes w next id (.planning job) new := by
  have found : ∀ {call : LaneCall D}, w.calls[id]? = some call → w.phase id = some call.phase := by
    intro call here
    rw [phase, here]
    rfl
  unfold LaneWorld.plan at taken
  split at taken
  · rename_i job here
    exact ⟨job, inv.leaves (found here) rfl taken phase_onFault line_onFault
      idleOwner_onFault activeDrive_onFault (by simp) (by simp)⟩
  · rename_i job here
    exact ⟨job, inv.leaves (found here) rfl taken rfl rfl rfl rfl (by simp) (by simp)⟩
  · rename_i job writes throws after here
    obtain ⟨line, committed, rfl⟩ := map_eq_some_iff.mp taken
    refine ⟨job, .committing job after, ?_⟩
    have running : ∀ (other : Nat) (held : Job), w.line.jobs[other]? = some held →
        held.stage = .running →
        ∃ after : Job, line.jobs[other]? = some after ∧ after.stage = .running :=
      fun other held here running => running_kept committed here running (by simp)
    exact
      { found := found here
        phases := phase_setPhase (found here) _
        line := inv.line.step committed
        running := fun other held here runs _ => running other held here runs
        plans := by
          intro own plans
          cases plans
          obtain ⟨held, there, runs⟩ := inv.planning id _ job (found here) rfl
          exact ⟨running job held there runs, .inl rfl⟩
        owner := .kept rfl
        claims := fun claims => by cases claims
        driving := .kept rfl
        drives := fun drives => by cases drives
        written := .inl rfl
        marks := .inl rfl }
  · cases taken

theorem LaneInvariant.committed {materializes : Bool}
    (taken : w.committed pendingMessage id materializes = some next) :
    ∃ job after new, MoveOwes w next id (.committing job after) new := by
  unfold LaneWorld.committed at taken
  split at taken
  · rename_i job after found
    refine ⟨job, after, ?_⟩
    split at taken
    · dsimp only at taken
      split at taken
      · exact inv.leaves found rfl taken rfl rfl rfl rfl (by simp) (by simp)
      · exact inv.leaves found rfl taken phase_onFault line_onFault idleOwner_onFault
          activeDrive_onFault (by simp) (by simp)
    · exact inv.leaves found rfl taken phase_onFault line_onFault idleOwner_onFault
        activeDrive_onFault (by simp) (by simp)
    · cases taken
  · cases taken

theorem LaneInvariant.releases (found : w.phase id = some old) (claims : old.claims = true) :
    MoveOwes w
      (({ w with idleOwner := if w.idleOwner = some id then none else w.idleOwner }
        |>.signalStateChange).setPhase id .done) id old .done where
  found := found
  phases := phase_setPhase found _
  line := inv.line
  running := running_same rfl
  plans job plans := by cases plans
  owner := .release claims (if_pos (inv.claimed id old found claims))
  claims claims := by cases claims
  driving := .kept rfl
  drives drives := by cases drives
  written := .inl rfl
  marks := .inl rfl

theorem LaneInvariant.resume (taken : w.resume id = some next) :
    ∃ job outcome new, MoveOwes w next id (.leaving job outcome) new := by
  unfold LaneWorld.resume at taken
  split at taken
  · rename_i job outcome found
    split at taken
    · cases taken
      refine ⟨job, outcome, ?_⟩
      cases outcome with
      | threw => exact ⟨_, inv.rests found rfl rfl rfl⟩
      | idleBlocked change => exact ⟨_, inv.rests found rfl rfl rfl⟩
      | planned result =>
        cases result with
        | answered => exact ⟨_, inv.rests found rfl rfl rfl⟩
        | observe drive => exact ⟨_, inv.rests found rfl rfl rfl⟩
        | occupied drive => exact ⟨_, inv.rests found rfl rfl rfl⟩
        | wait wait => exact ⟨_, inv.rests found rfl rfl rfl⟩
        | installed =>
          exact ⟨.driving,
            { found := found
              phases := phase_setPhase found _
              line := inv.line
              running := running_same rfl
              plans := fun job plans => by cases plans
              owner := .kept rfl
              claims := fun claims => by cases claims
              driving := .kept rfl
              drives := fun _ => inv.installed id _ found rfl
              written := .inl rfl
              marks := .inr (.inr (.inr (.inl rfl))) }⟩
        | claimed =>
          rw [resumeWith]
          split
          · exact ⟨_, inv.releases found rfl⟩
          · exact ⟨.callback,
              { found := found
                phases := phase_setPhase found _
                line := inv.line
                running := running_same rfl
                plans := fun job plans => by cases plans
                owner := .kept rfl
                claims := fun _ => inv.claimed id _ found rfl
                driving := .kept rfl
                drives := fun drives => by cases drives
                written := .inl rfl
                marks := .inr (.inr (.inr (.inr rfl))) }⟩
    · cases taken
  · cases taken

theorem LaneInvariant.driveEnds {fails : Bool}
    (taken : w.driveEnds id fails = some next) : MoveOwes w next id .driving .done := by
  unfold LaneWorld.driveEnds at taken
  split at taken
  · rename_i found
    have active := inv.installed id .driving found rfl
    have cleared : ∀ {mid : LaneWorld β V N D}, mid.phase = w.phase → mid.line = w.line →
        mid.idleOwner = w.idleOwner → mid.state = w.state → mid.marks = w.marks →
        MoveOwes w
          (({ mid with activeDrive := none }.signalStateChange).setPhase id .done) id .driving
          .done := by
      intro mid phases line owner state marks
      have here : mid.phase id = some .driving := by rw [phases, found]
      constructor
      · exact found
      · intro other
        rw [← phases]
        exact phase_setPhase here .done other
      · exact line.symm ▸ inv.line
      · exact running_same line
      · intro job plans
        cases plans
      · exact .kept owner
      · intro claims
        cases claims
      · exact .ended rfl rfl
      · intro drives
        cases drives
      · exact .inl state
      · exact .inl marks
    cases taken
    split
    · rw [if_pos (by rw [activeDrive_onFault]; exact active)]
      exact cleared phase_onFault line_onFault idleOwner_onFault state_onFault marks_onFault
    · exact cleared rfl rfl rfl rfl rfl
  · cases taken

end

/-- What a step owes that moves no call. -/
structure StillOwes (w next : LaneWorld β V N D) : Prop where
  kept : ∀ id phase, w.phase id = some phase → next.phase id = some phase
  phases : ∀ id phase, next.phase id = some phase →
    w.phase id = some phase ∨ phase = .entering .nothing
  line : LineInvariant next.line
  running : ∀ id phase job held, w.phase id = some phase → phase.plans = some job →
    w.line.jobs[job]? = some held → held.stage = .running →
    ∃ after, next.line.jobs[job]? = some after ∧ after.stage = .running
  owner : next.idleOwner = w.idleOwner
  drive : next.activeDrive = w.activeDrive
  state : next.state = w.state
  marks : next.marks = w.marks

theorem StillOwes.invariant (owes : StillOwes w next) (inv : LaneInvariant w) :
    LaneInvariant next := by
  constructor
  · exact owes.line
  · intro id phase job found plans
    rcases owes.phases id phase found with old | rfl
    · obtain ⟨held, here, running⟩ := inv.planning id phase job old plans
      exact owes.running id phase job held old plans here running
    · cases plans
  · intro id phase other phase' here there plans plans'
    rcases owes.phases id phase here with old | rfl
    · rcases owes.phases other phase' there with old' | rfl
      · exact inv.single id phase other phase' old old' plans plans'
      · cases plans'
    · cases plans
  · intro id phase found claims
    rcases owes.phases id phase found with old | rfl
    · rw [owes.owner]
      exact inv.claimed id phase old claims
    · cases claims
  · intro id phase found drives
    rcases owes.phases id phase found with old | rfl
    · rw [owes.drive]
      exact inv.installed id phase old drives
    · cases drives
  · intro owned
    rw [owes.owner] at owned
    obtain ⟨unaccepted, undriven, unplanned⟩ := inv.idle owned
    refine ⟨?_, ?_, ?_⟩
    · rw [owes.state, unaccepted]
    · rw [owes.drive, undriven]
    · intro id phase found
      rcases owes.phases id phase found with old | rfl
      · exact unplanned id phase old
      · rfl

/-- A step moves one call, and out of its callback only when that settles, or none. -/
inductive LaneStep (w next : LaneWorld β V N D) (event : LaneEvent β V N D) : Prop where
  | move (id : Nat) (old new : Phase D) (owes : MoveOwes w next id old new)
      (settles : old = .callback → event = .settle id)
  | still (owes : StillOwes w next)

theorem LaneStep.invariant (step : LaneStep w next ev)
    (inv : LaneInvariant w) : LaneInvariant next := by
  cases step with
  | move _ _ _ owes => exact owes.invariant inv
  | still owes => exact owes.invariant inv

theorem LaneInvariant.lineStep (inv : LaneInvariant w) {ev : LineEvent β V N}
    (foreign : ¬w.owns ev = true)
    (taken : w.line.step pendingMessage ev = some line) : StillOwes w { w with line } where
  kept _ _ found := found
  phases _ _ found := .inl found
  line := inv.line.step taken
  running id phase job held found plans here running := by
    apply running_kept taken here running
    rintro outcome rfl
    apply foreign
    obtain ⟨call, mem, rfl⟩ := map_eq_some_iff.mp found
    refine any_eq_true.mpr ⟨call, mem_of_getElem? mem, decide_eq_true ?_⟩
    revert plans
    cases call.phase with
    | planning own => exact fun plans => plans
    | committing own after => exact fun plans => plans
    | _ =>
      intro plans
      cases plans
  owner := rfl
  drive := rfl
  state := rfl
  marks := rfl

theorem LaneInvariant.called (inv : LaneInvariant w) (procedure : Procedure) :
    StillOwes w { w with calls := w.calls ++ [{ procedure, phase := .entering .nothing }] } where
  kept id phase found := by
    obtain ⟨call, here, rfl⟩ := map_eq_some_iff.mp found
    change Option.map _ (w.calls ++ _)[id]? = _
    rw [List.getElem?_append_left (List.getElem?_eq_some_iff.mp here).1, here]
    rfl
  phases id phase found := by
    obtain ⟨call, here, rfl⟩ := map_eq_some_iff.mp found
    change (w.calls ++ _)[id]? = _ at here
    rw [getElem?_append] at here
    split at here
    · rw [phase, here]
      exact .inl rfl
    · rw [mem_singleton.mp (mem_of_getElem? here)]
      exact .inr rfl
  line := inv.line
  running _ _ job held _ _ here running := ⟨held, here, running⟩
  owner := rfl
  drive := rfl
  state := rfl
  marks := rfl

theorem LaneInvariant.step (inv : LaneInvariant w)
    (taken : w.step pendingMessage ev = some next) : LaneStep w next ev := by
  cases ev with
  | call procedure => exact .still (some.inj taken ▸ inv.called procedure)
  | enter id =>
    rw [LaneWorld.step] at taken
    split at taken
    · rename_i wait found
      split at taken
      · obtain ⟨new, owes⟩ := inv.enter found
        exact .move id _ new (some.inj taken ▸ owes) fun same => by cases same
      · cases taken
    · cases taken
  | abandon id =>
    rw [LaneWorld.step, LaneWorld.abandon] at taken
    split at taken
    · cases taken
    · rename_i wait _ found
      cases taken
      exact .move id (.entering wait) .done (inv.rests found rfl rfl rfl) fun same => by
        cases same
    · cases taken
  | refused id =>
    rw [LaneWorld.step, LaneWorld.refused] at taken
    split at taken
    · rename_i job found
      split at taken
      · cases taken
        exact .move id (.queued job) .done (inv.rests found rfl rfl rfl) fun same => by
          cases same
      · cases taken
    · cases taken
  | starts id aborted =>
    obtain ⟨job, new, owes⟩ := inv.starts taken
    exact .move id _ new owes fun same => by cases same
  | plan id decision =>
    obtain ⟨job, new, owes⟩ := inv.plan taken
    exact .move id _ new owes fun same => by cases same
  | committed id materializes =>
    obtain ⟨job, after, new, owes⟩ := inv.committed taken
    exact .move id _ new owes fun same => by cases same
  | resume id =>
    obtain ⟨job, outcome, new, owes⟩ := inv.resume taken
    exact .move id _ new owes fun same => by cases same
  | driveEnds id fails =>
    exact .move id _ _ (inv.driveEnds taken) fun same => by cases same
  | settle id =>
    rw [LaneWorld.step, LaneWorld.settle] at taken
    split at taken
    · rename_i found
      cases taken
      exact .move id _ _ (inv.releases found rfl) fun _ => rfl
    · cases taken
  | close =>
    cases taken
    exact .still
      { kept := fun _ _ found => found
        phases := fun _ _ found => .inl found
        line := inv.line
        running := fun _ _ job held _ _ here running => ⟨held, here, running⟩
        owner := rfl
        drive := rfl
        state := rfl
        marks := rfl }
  | line ev =>
    rw [LaneWorld.step] at taken
    split at taken
    · cases taken
    · rename_i foreign
      obtain ⟨line, stepped, rfl⟩ := map_eq_some_iff.mp taken
      exact .still (inv.lineStep foreign stepped)

end

theorem laneInvariant_inductive (pendingMessage : β → Bool) :
    Machine.Inductive (laneCommands pendingMessage : Machine (LaneWorld β V N D) _)
      (fun _ _ => True) LaneInvariant where
  start w initial := by
    obtain ⟨state, rfl⟩ := initial
    exact .start state
  step w ev next inv _ taken := (inv.step taken).invariant inv

/-- What holds while the idle callback of `owner` runs. -/
structure Exclusive (w : LaneWorld β V N D) (owner : Nat) : Prop where
  runs : w.phase owner = some .callback
  unplanned : ∀ id phase, w.phase id = some phase → phase.plans = none
  unaccepted : w.state.operation = none
  undriven : w.activeDrive = none ∧ ∀ id phase, w.phase id = some phase → phase.drives = false
  single : ∀ id, w.phase id = some .callback → id = owner

theorem LaneInvariant.exclusive (inv : LaneInvariant w)
    (runs : w.phase owner = some .callback) : Exclusive w owner := by
  have owned := inv.claimed owner .callback runs rfl
  obtain ⟨unaccepted, undriven, unplanned⟩ := inv.idle (by rw [owned]; rfl)
  refine ⟨runs, unplanned, unaccepted, ⟨undriven, ?_⟩, ?_⟩
  · intro id phase found
    rw [← Bool.not_eq_true]
    intro drives
    have active := inv.installed id phase found drives
    rw [undriven] at active
    cases active
  · intro id found
    have other := inv.claimed id .callback found rfl
    rw [owned] at other
    exact (some.inj other).symm

/-- Until the callback settles, no step changes anything for the lane. -/
theorem LaneInvariant.step_exclusive {pendingMessage : β → Bool} (inv : LaneInvariant w)
    (runs : w.phase owner = some .callback) {ev : LaneEvent β V N D}
    (unsettled : ev ≠ .settle owner) (taken : w.step pendingMessage ev = some next) :
    next.phase owner = some .callback ∧ next.state = w.state ∧ next.marks = w.marks := by
  have exclusive := inv.exclusive runs
  have owned := inv.claimed owner .callback runs rfl
  cases inv.step taken with
  | still owes => exact ⟨owes.kept owner .callback runs, owes.state, owes.marks⟩
  | move id old new owes settles =>
    have resting := exclusive.unplanned id old owes.found
    have apart : owner ≠ id := by
      rintro rfl
      have found := owes.found
      rw [runs] at found
      exact unsettled (settles (some.inj found).symm)
    refine ⟨?_, ?_, ?_⟩
    · rw [owes.phases, if_neg apart, runs]
    · rcases owes.written with same | plans
      · exact same
      · rw [resting] at plans
        cases plans
    · rcases owes.marks with same | free | plans | drives | claims
      · exact same
      · rw [free] at owned
        cases owned
      · rw [resting] at plans
        cases plans
      · rw [exclusive.undriven.2 id old owes.found] at drives
        cases drives
      · have other := inv.claimed id old owes.found claims
        rw [owned] at other
        exact absurd (some.inj other) apart

/-- While an idle callback runs, whatever happens until it settles: nothing is planned or
committed on the lane, no operation is accepted or driven, and no other callback runs. -/
theorem idle_exclusive {pendingMessage : β → Bool} {w : LaneWorld β V N D} {owner : Nat}
    (reached : (laneCommands pendingMessage).Reached (fun _ _ => True) w)
    (runs : w.phase owner = some .callback) {last : LaneWorld β V N D}
    (events : List (LaneEvent β V N D)) (unsettled : .settle owner ∉ events)
    (ran : (laneCommands pendingMessage).exec (fun _ _ => True) w events = some last) :
    Exclusive last owner ∧ last.state = w.state ∧ last.marks = w.marks := by
  induction events generalizing w with
  | nil =>
    cases ran
    exact ⟨((laneInvariant_inductive pendingMessage).reached reached).exclusive runs, rfl, rfl⟩
  | cons ev events ih =>
    obtain ⟨foreign, later⟩ := List.ne_and_not_mem_of_not_mem_cons unsettled
    rw [Machine.exec, if_pos trivial] at ran
    split at ran
    · rename_i next taken
      obtain ⟨runs', state, marks⟩ :=
        ((laneInvariant_inductive pendingMessage).reached reached).step_exclusive runs
          (Ne.symm foreign) taken
      obtain ⟨exclusive, state', marks'⟩ := ih (.step reached trivial taken) runs' later ran
      exact ⟨exclusive, state'.trans state, marks'.trans marks⟩
    · cases ran

/-- A command commits, an idle callback claims the lane in the next turn, and starts. -/
def idleEvents : List (LaneEvent Unit Unit Unit Unit) :=
  [.call .command, .call .runWhenIdle, .call .command, .call (.drive "run"), .enter 0, .enter 1,
    .enter 2, .line (.turn 0), .starts 0 false,
    .plan 0 (.commit [] false { operation := none, data := () }), .line (.answer 0 .fulfilled),
    .committed 0 true, .line (.ends 0), .line (.release 0), .resume 0, .line (.finish 0),
    .line (.turn 1), .starts 1 false, .line (.ends 1), .line (.release 1), .resume 1]

/-- The queued command is sent back in its turn, the drive before it queues. -/
def blockedEvents : List (LaneEvent Unit Unit Unit Unit) :=
  [.line (.finish 1), .line (.turn 2), .starts 2 false, .line (.ends 2), .line (.release 2),
    .enter 3, .resume 2]

theorem idle_exclusive_sample :
    ∃ w last, (laneCommands fun _ => false).Reached (fun _ _ => True) w ∧
      (laneCommands fun _ => false).exec (fun _ _ => True) w blockedEvents = some last ∧
      last.phase 2 = some (.entering (.change 2)) ∧ last.phase 3 = some (.entering (.change 2)) ∧
      Exclusive last 1 ∧ last.state = w.state ∧ last.marks = w.marks := by
  let w₀ : LaneWorld Unit Unit Unit Unit := .start .start { operation := none, data := () }
  have succeeds : (((laneCommands fun _ => false).exec (fun _ _ => True) w₀ idleEvents).any
      fun w => decide (w.phase 1 = some .callback) &&
        ((laneCommands fun _ => false).exec (fun _ _ => True) w blockedEvents).any fun last =>
          decide (last.phase 2 = some (.entering (.change 2)) ∧
            last.phase 3 = some (.entering (.change 2)))) = true := by
    decide +kernel
  obtain ⟨w, ran, rest⟩ := Option.any_eq_true _ _ |>.mp succeeds
  obtain ⟨runs, rest⟩ := Bool.and_eq_true_iff.mp rest
  obtain ⟨last, blocked, phases⟩ := Option.any_eq_true _ _ |>.mp rest
  obtain ⟨second, third⟩ := of_decide_eq_true phases
  have reached : (laneCommands fun _ => false).Reached (fun _ _ => True) w :=
    Machine.Reached.exec (.start ⟨{ operation := none, data := () }, rfl⟩) ran
  exact ⟨w, last, reached, blocked, second, third,
    idle_exclusive reached (of_decide_eq_true runs) blockedEvents (by decide +kernel) blocked⟩

end Trpi.Harness
