import Trpi.Session.MutationLine

/-!
# Runs of the mutation line

What is promised of a session's mutations is said of the history: each thing that happens
is allowed by what happened before. Callbacks run in the order of admission, each after the
turn before it is over; commits are made in the turn of their own callback; closing waits
for every callback that was started, the others are refused.
-/

namespace Trpi.Session

open List Option

variable {β V N : Type} {s : LineState β V N}

/-- An admitted call has had its turn, or never gets one. -/
def Over (earlier : List (Mark β V N)) (id : Nat) : Prop :=
  ((∃ outcome, .returned id outcome ∈ earlier) ∧ .released id ∈ earlier) ∨ .refused id ∈ earlier

/-- What may happen after what has happened. -/
def Allowed (earlier : List (Mark β V N)) : Mark β V N → Prop
  | .admitted id =>
    (∀ other, .admitted other ∈ earlier → other < id) ∧ .storageClosed ∉ earlier
  | .refused id => .admitted id ∈ earlier ∧ .started id ∉ earlier
  | .started id =>
    .admitted id ∈ earlier ∧ .refused id ∉ earlier ∧ .storageClosed ∉ earlier ∧
      ∀ other, .started other ∈ earlier → other < id ∧ .released other ∈ earlier
  | .returned id _ => .started id ∈ earlier
  | .ended id => ∃ outcome, .returned id outcome ∈ earlier
  | .released id => .ended id ∈ earlier
  | .committed id _ =>
    .started id ∈ earlier ∧ .ended id ∉ earlier ∧ .storageClosed ∉ earlier ∧
      ∀ writes, .committed id writes ∉ earlier
  | .acknowledged id => (∃ writes, .committed id writes ∈ earlier) ∧ .released id ∉ earlier
  | .storageClosed => ∀ id, .admitted id ∈ earlier → Over earlier id
  | .closeReturned => .storageClosed ∈ earlier ∧ ∀ id, .admitted id ∈ earlier → Over earlier id

def Orderly : List (Mark β V N) → Prop
  | [] => True
  | mark :: earlier => Allowed earlier mark ∧ Orderly earlier

theorem Orderly.allowed {later earlier : List (Mark β V N)} {mark : Mark β V N}
    (orderly : Orderly (later ++ mark :: earlier)) : Allowed earlier mark := by
  induction later with
  | nil => exact orderly.1
  | cons first later ih => exact ih orderly.2

def Stage.hasReturned : Stage → Bool
  | .returned | .ending | .released | .finished => true
  | _ => false

def Stage.hasEnded : Stage → Bool
  | .ending | .released | .finished => true
  | _ => false

def Stage.hasReleased : Stage → Bool
  | .released | .finished => true
  | _ => false

/-- The stages in which the mutator is active. -/
def Stage.holds : Stage → Bool
  | .granted | .running | .returned => true
  | _ => false

structure JobInvariant (history : List (Mark β V N)) (id : Nat) (job : Job) : Prop where
  admitted : .admitted id ∈ history
  refused : .refused id ∈ history ↔ job.stage = .refused
  started : .started id ∈ history ↔ job.stage.started = true
  returned : (∃ outcome, .returned id outcome ∈ history) ↔ job.stage.hasReturned = true
  ended : .ended id ∈ history ↔ job.stage.hasEnded = true
  released : .released id ∈ history ↔ job.stage.hasReleased = true
  ungranted : job.stage = .waiting → job.mutation = none
  active : ∀ mutation, job.mutation = some mutation →
    (mutation.active = true ↔ job.stage.holds = true)
  committed : ∀ writes, .committed id writes ∈ history →
    ∃ mutation, job.mutation = some mutation ∧ mutation.commitResult.isSome = true
  pending : ∀ mutation, job.mutation = some mutation → mutation.commitResult = some .pending →
    (∃ writes, .committed id writes ∈ history) ∧ job.stage.hasReleased = false

def Mark.call : Mark β V N → Option Nat
  | .admitted id | .refused id | .started id | .returned id _ | .ended id | .released id
  | .committed id _ | .acknowledged id => some id
  | .storageClosed | .closeReturned => none

structure LineInvariant (s : LineState β V N) : Prop where
  orderly : Orderly s.history
  jobs : ∀ id job, s.jobs[id]? = some job → JobInvariant s.history id job
  known : ∀ mark ∈ s.history, ∀ id, mark.call = some id → id < s.jobs.length
  serial : ∀ (first second : Nat) (before after : Job), first < second →
    s.jobs[first]? = some before → s.jobs[second]? = some after →
    after.stage ≠ .waiting → before.stage.settled = true
  opened : s.state = .opened ↔ s.sealedError = false
  unpromised : s.closePromise = none ↔ s.sealedError = false
  drained : ∀ drained, s.closePromise = some drained → drained = s.jobs.length
  storageClosed : .storageClosed ∈ s.history ↔ s.storageClosed = true
  closed : s.storageClosed = true → s.sealedError = true ∧
    ∀ (id : Nat) (job : Job), s.jobs[id]? = some job → job.stage.settled = true
  refused : ∀ (id : Nat) (job : Job), s.jobs[id]? = some job → job.stage = .refused →
    s.sealedError = true

theorem LineInvariant.start : LineInvariant (LineState.start : LineState β V N) := by
  constructor
  · exact trivial
  · intro id job found
    cases found
  · intro mark mem
    cases mem
  · intro first second before after _ found
    cases found
  · simp [LineState.start]
  · simp [LineState.start]
  · intro drained promised
    cases promised
  · simp [LineState.start]
  · intro closed
    cases closed
  · intro id job found
    cases found

theorem JobInvariant.frame {history marks : List (Mark β V N)} {id : Nat} {job : Job}
    (inv : JobInvariant history id job)
    (others : ∀ mark ∈ marks, mark.call ≠ some id) : JobInvariant (marks ++ history) id job := by
  have same : ∀ mark : Mark β V N, mark.call = some id →
      (mark ∈ marks ++ history ↔ mark ∈ history) := by
    intro mark about
    rw [mem_append, or_iff_right]
    exact fun mem => others mark mem about
  constructor
  · exact (same _ rfl).mpr inv.admitted
  · rw [same _ rfl]
    exact inv.refused
  · rw [same _ rfl]
    exact inv.started
  · rw [← inv.returned]
    exact exists_congr fun outcome => same _ rfl
  · rw [same _ rfl]
    exact inv.ended
  · rw [same _ rfl]
    exact inv.released
  · exact inv.ungranted
  · exact inv.active
  · intro writes mem
    exact inv.committed writes ((same _ rfl).mp mem)
  · intro mutation found waits
    obtain ⟨⟨writes, mem⟩, unreleased⟩ := inv.pending mutation found waits
    exact ⟨⟨writes, (same _ rfl).mpr mem⟩, unreleased⟩

theorem onJob_eq_some {next : LineState β V N} {id : Nat} {enabled : Job → Bool}
    {update : Job → Job} {marks : Job → List (Mark β V N)}
    (taken : s.onJob id enabled update marks = some next) :
    ∃ job, s.jobs[id]? = some job ∧ enabled job = true ∧
      next = { s with
        jobs := s.jobs.set id (update job)
        history := marks job ++ s.history } := by
  unfold LineState.onJob at taken
  split at taken
  · cases taken
  · rename_i job found
    split at taken
    · rename_i ok
      exact ⟨job, found, ok, (some.inj taken).symm⟩
    · cases taken

structure Owes (s : LineState β V N) (id : Nat) (job updated : Job)
    (marks : List (Mark β V N)) : Prop where
  about : ∀ mark ∈ marks, mark.call = some id
  orderly : Orderly (marks ++ s.history)
  own : JobInvariant (marks ++ s.history) id updated
  settled : job.stage.settled = true → updated.stage.settled = true
  turn : updated.stage ≠ .waiting → job.stage ≠ .waiting ∨
    ∀ (earlier : Nat) (before : Job), earlier < id → s.jobs[earlier]? = some before →
      before.stage.settled = true
  refusal : updated.stage = .refused → job.stage = .refused ∨ s.sealedError = true

theorem LineInvariant.onJob (inv : LineInvariant s) {id : Nat} {job updated : Job}
    {marks : List (Mark β V N)} (found : s.jobs[id]? = some job)
    (owes : Owes s id job updated marks) :
    LineInvariant { s with
      jobs := s.jobs.set id updated
      history := marks ++ s.history } := by
  have inside : id < s.jobs.length := (List.getElem?_eq_some_iff.mp found).1
  have own : (s.jobs.set id updated)[id]? = some updated := getElem?_set_self inside
  have other : ∀ at_ : Nat, at_ ≠ id → (s.jobs.set id updated)[at_]? = s.jobs[at_]? :=
    fun at_ apart => getElem?_set_ne (Ne.symm apart)
  -- a job of the new line is the updated one or an old one
  have settled : ∀ (at_ : Nat) (after : Job), (s.jobs.set id updated)[at_]? = some after →
      (∀ before, s.jobs[at_]? = some before → before.stage.settled = true) →
      after.stage.settled = true := by
    intro at_ after here before
    by_cases same : at_ = id
    · subst same
      rw [own] at here
      exact some.inj here ▸ owes.settled (before job found)
    · rw [other at_ same] at here
      exact before after here
  constructor
  · exact owes.orderly
  · intro at_ after here
    by_cases same : at_ = id
    · subst same
      rw [own] at here
      exact some.inj here ▸ owes.own
    · rw [other at_ same] at here
      apply (inv.jobs at_ after here).frame
      intro mark mem about
      rw [owes.about mark mem] at about
      exact same (some.inj about).symm
  · intro mark mem at_ about
    rw [length_set]
    rcases mem_append.mp mem with new | old
    · rw [owes.about mark new] at about
      exact some.inj about ▸ inside
    · exact inv.known mark old at_ about
  · intro first second before after ordered here there moved
    apply settled first before here
    intro earlier old
    by_cases same : second = id
    · subst same
      rw [own] at there
      cases there
      rcases owes.turn moved with begun | first_
      · exact inv.serial first second earlier job ordered old found begun
      · exact first_ first earlier ordered old
    · rw [other second same] at there
      exact inv.serial first second earlier after ordered old there moved
  · exact inv.opened
  · exact inv.unpromised
  · intro drained promised
    rw [length_set]
    exact inv.drained drained promised
  · rw [mem_append, or_iff_right]
    · exact inv.storageClosed
    · intro mem
      cases owes.about _ mem
  · intro closed
    obtain ⟨sealed_, all⟩ := inv.closed closed
    exact ⟨sealed_, fun at_ after here => settled at_ after here fun before old => all at_ before old⟩
  · intro at_ after here stage
    by_cases same : at_ = id
    · subst same
      rw [own] at here
      cases here
      rcases owes.refusal stage with already | sealed_
      · exact inv.refused at_ job found already
      · exact sealed_
    · rw [other at_ same] at here
      exact inv.refused at_ after here stage

section

variable {s : LineState β V N} {id : Nat} {job : Job}

section

variable (inv : LineInvariant s) {earlier : Nat}

include inv

theorem LineInvariant.unclosed
    (found : s.jobs[id]? = some job) (unsettled : job.stage.settled = false) :
    .storageClosed ∉ s.history := by
  rw [inv.storageClosed]
  intro closed
  rw [(inv.closed closed).2 id job found] at unsettled
  cases unsettled

theorem LineInvariant.before (found : s.jobs[id]? = some job) (begun : job.stage ≠ .waiting)
    {before : Job} (ordered : earlier < id) (old : s.jobs[earlier]? = some before) :
    before.stage.settled = true :=
  inv.serial earlier id before job ordered old found begun

theorem LineInvariant.job_of_started {other : Nat} (started : .started other ∈ s.history) :
    ∃ before, s.jobs[other]? = some before ∧ before.stage.started = true := by
  have inside := inv.known _ started other rfl
  exact ⟨s.jobs[other], getElem?_eq_getElem inside,
    (inv.jobs other _ (getElem?_eq_getElem inside)).started.mp started⟩

theorem LineInvariant.tail (settled : tailSettled s.jobs id = true) {before : Job}
    (ordered : earlier < id) (old : s.jobs[earlier]? = some before) :
    before.stage.settled = true := by
  cases id with
  | zero => omega
  | succ id =>
    rw [tailSettled, Option.any_eq_true] at settled
    obtain ⟨last, found, done⟩ := settled
    rcases Nat.lt_succ_iff_lt_or_eq.mp ordered with before_ | rfl
    · refine inv.before found ?_ before_ old
      intro waits
      rw [waits] at done
      cases done
    · rw [found] at old
      exact some.inj old ▸ done

end

variable {history marks : List (Mark β V N)} {mutation : SessionMutation} {stage : Stage}

theorem JobInvariant.new (unknown : ∀ mark ∈ history, mark.call ≠ some id) :
    JobInvariant (.admitted id :: history) id .new := by
  have fresh : ∀ mark : Mark β V N, mark.call = some id → mark ≠ .admitted id →
      mark ∉ Mark.admitted id :: history := by
    intro mark about other mem
    rcases mem_cons.mp mem with same | earlier
    · exact other same
    · exact unknown mark earlier about
  constructor
  · exact mem_cons_self
  · exact iff_of_false (fresh _ rfl (by simp)) (by decide)
  · exact iff_of_false (fresh _ rfl (by simp)) (by decide)
  · refine iff_of_false ?_ (by decide)
    rintro ⟨outcome, mem⟩
    exact fresh (.returned id outcome) rfl (by simp) mem
  · exact iff_of_false (fresh _ rfl (by simp)) (by decide)
  · exact iff_of_false (fresh _ rfl (by simp)) (by decide)
  · intro _
    rfl
  · intro mutation none_
    cases none_
  · intro writes mem
    exact absurd mem (fresh (.committed id writes) rfl (by simp))
  · intro mutation none_
    cases none_

theorem LineInvariant.mutate (inv : LineInvariant s) : LineInvariant s.mutate := by
  unfold LineState.mutate
  split
  · exact inv
  rename_i opened
  split
  · exact inv
  rename_i unsealed
  have open_ : s.sealedError = false := by simpa using unsealed
  have known : ∀ mark ∈ s.history, mark.call ≠ some s.jobs.length :=
    fun mark mem about => Nat.lt_irrefl _ (inv.known mark mem _ about)
  have old : ∀ (at_ : Nat) (job : Job), (s.jobs ++ [Job.new])[at_]? = some job →
      s.jobs[at_]? = some job ∨ (at_ = s.jobs.length ∧ job = .new) := by
    intro at_ job found
    rw [getElem?_append] at found
    split at found
    · exact .inl found
    · rename_i beyond
      have inside := (List.getElem?_eq_some_iff.mp found).1
      rw [length_singleton] at inside
      rw [show at_ - s.jobs.length = 0 by omega] at found
      exact .inr ⟨by omega, (some.inj found).symm⟩
  constructor
  · refine ⟨⟨?_, ?_⟩, inv.orderly⟩
    · intro other admitted
      exact inv.known _ admitted other rfl
    · rw [inv.storageClosed]
      intro closed
      exact unsealed (inv.closed closed).1
  · intro at_ job found
    rcases old at_ job found with here | ⟨rfl, rfl⟩
    · apply @JobInvariant.frame _ _ _ _ [_] _ _ (inv.jobs at_ job here)
      intro mark mem about
      rw [mem_singleton.mp mem] at about
      have inside := (List.getElem?_eq_some_iff.mp here).1
      have same := some.inj about
      omega
    · exact .new known
  · intro mark mem at_ about
    rw [length_append, length_singleton]
    rcases mem_cons.mp mem with rfl | earlier
    · have same := some.inj about
      omega
    · exact Nat.lt_succ_of_lt (inv.known mark earlier at_ about)
  · intro first second before after ordered here there moved
    rcases old second after there with there | ⟨rfl, rfl⟩
    · rcases old first before here with here | ⟨rfl, rfl⟩
      · exact inv.serial first second before after ordered here there moved
      · have inside := (List.getElem?_eq_some_iff.mp there).1
        omega
    · exact absurd rfl moved
  · exact inv.opened
  · exact inv.unpromised
  · intro drained promised
    change s.closePromise = some drained at promised
    rw [inv.unpromised.mpr open_] at promised
    cases promised
  · rw [mem_cons, or_iff_right]
    · exact inv.storageClosed
    · simp
  · intro closed
    exact absurd (inv.closed closed).1 unsealed
  · intro at_ job found stage
    rcases old at_ job found with here | ⟨rfl, rfl⟩
    · exact inv.refused at_ job here stage
    · cases stage

/-- The stage a job is in after some marks, by which of them there are. -/
structure Moves (id : Nat) (marks : List (Mark β V N)) (from_ to_ : Stage) : Prop where
  refused : .refused id ∈ marks ∨ from_ = .refused ↔ to_ = .refused
  started : .started id ∈ marks ∨ from_.started = true ↔ to_.started = true
  returned : (∃ outcome, .returned id outcome ∈ marks) ∨ from_.hasReturned = true ↔
    to_.hasReturned = true
  ended : .ended id ∈ marks ∨ from_.hasEnded = true ↔ to_.hasEnded = true
  released : .released id ∈ marks ∨ from_.hasReleased = true ↔ to_.hasReleased = true

theorem JobInvariant.next {updated : Job} (inv : JobInvariant history id job)
    (moves : Moves id marks job.stage updated.stage) (begun : updated.stage ≠ .waiting)
    (active : ∀ mutation, updated.mutation = some mutation →
      (mutation.active = true ↔ updated.stage.holds = true))
    (committed : ∀ writes, .committed id writes ∈ marks ++ history →
      ∃ mutation, updated.mutation = some mutation ∧ mutation.commitResult.isSome = true)
    (pending : ∀ mutation, updated.mutation = some mutation →
      mutation.commitResult = some .pending →
      (∃ writes, .committed id writes ∈ marks ++ history) ∧ updated.stage.hasReleased = false) :
    JobInvariant (marks ++ history) id updated where
  admitted := mem_append_right _ inv.admitted
  refused := by rw [mem_append, inv.refused, moves.refused]
  started := by rw [mem_append, inv.started, moves.started]
  returned := by
    rw [← moves.returned, ← inv.returned, ← exists_or]
    exact exists_congr fun outcome => mem_append
  ended := by rw [mem_append, inv.ended, moves.ended]
  released := by rw [mem_append, inv.released, moves.released]
  ungranted := fun waiting => absurd waiting begun
  active := active
  committed := committed
  pending := pending

theorem JobInvariant.move (inv : JobInvariant history id job)
    (moves : Moves id marks job.stage stage) (begun : stage ≠ .waiting)
    (quiet : ∀ writes, .committed id writes ∉ marks) (holds : stage.holds = job.stage.holds)
    (settled : stage.hasReleased = true → ∀ mutation, job.mutation = some mutation →
      mutation.commitResult ≠ some .pending) :
    JobInvariant (marks ++ history) id { job with stage := stage } := by
  apply inv.next moves begun
  · intro mutation found
    rw [holds]
    exact inv.active mutation found
  · intro writes mem
    exact inv.committed writes ((mem_append.mp mem).resolve_left (quiet writes))
  · intro mutation found waits
    obtain ⟨⟨writes, mem⟩, -⟩ := inv.pending mutation found waits
    refine ⟨⟨writes, mem_append_right _ mem⟩, ?_⟩
    rw [Bool.eq_false_iff]
    intro released
    exact settled released mutation found waits

section

variable (inv : LineInvariant s)

include inv

section

variable (found : s.jobs[id]? = some job)

include found

theorem LineInvariant.call (granted : job.stage = .granted) :
    Owes s id job { job with stage := .running } [.started id] := by
  have own := inv.jobs id job found
  constructor
  · simp [Mark.call]
  · refine ⟨⟨own.admitted, ?_, inv.unclosed found (by rw [granted]; rfl), ?_⟩, inv.orderly⟩
    · intro refused
      have stage := own.refused.mp refused
      rw [granted] at stage
      cases stage
    · intro other started
      obtain ⟨before, old, begun⟩ := inv.job_of_started started
      have earlier : other < id := by
        rcases Nat.lt_trichotomy other id with early | rfl | late
        · exact early
        · rw [found] at old
          cases old
          rw [granted] at begun
          cases begun
        · have passed := inv.before old (by rintro waits; rw [waits] at begun; cases begun)
            late found
          rw [granted] at passed
          cases passed
      have passed := inv.before found (by rw [granted]; decide) earlier old
      refine ⟨earlier, (inv.jobs other before old).released.mpr ?_⟩
      revert begun passed
      cases before.stage <;> decide
  · apply own.move
    · constructor <;> simp [granted, Stage.started, Stage.hasReturned, Stage.hasEnded,
        Stage.hasReleased]
    · decide
    · simp
    · rw [granted]
      rfl
    · intro released
      cases released
  · rw [granted]
    intro settled
    cases settled
  · intro _
    rw [granted]
    exact .inl (by decide)
  · intro refused
    cases refused

theorem LineInvariant.refuse (waiting : job.stage = .waiting)
    (tail : tailSettled s.jobs id = true) (sealed_ : s.sealedError = true) :
    Owes s id job { job with stage := .refused } [.refused id] := by
  have own := inv.jobs id job found
  constructor
  · simp [Mark.call]
  · refine ⟨⟨own.admitted, ?_⟩, inv.orderly⟩
    intro started
    have begun := own.started.mp started
    rw [waiting] at begun
    cases begun
  · apply own.move
    · constructor <;> simp [waiting, Stage.started, Stage.hasReturned, Stage.hasEnded,
        Stage.hasReleased]
    · decide
    · simp
    · rw [waiting]
      rfl
    · intro released
      cases released
  · intro _
    rfl
  · intro _
    right
    intro earlier before ordered old
    exact inv.tail tail ordered old
  · intro _
    exact .inr sealed_

theorem LineInvariant.grant (waiting : job.stage = .waiting)
    (tail : tailSettled s.jobs id = true) (new : job.mutation = none) : Owes s id job
      { stage := .granted, mutation := some { active := true, commitResult := none } } [] := by
  have own := inv.jobs id job found
  constructor
  · simp
  · exact inv.orderly
  · apply own.next
    · constructor <;> simp [waiting, Stage.started, Stage.hasReturned, Stage.hasEnded,
        Stage.hasReleased]
    · decide
    · intro mutation granted
      cases granted
      exact iff_of_true rfl rfl
    · intro writes mem
      obtain ⟨mutation, some_, -⟩ := own.committed writes mem
      rw [new] at some_
      cases some_
    · intro mutation granted waits
      cases granted
      cases waits
  · rw [waiting]
    intro settled
    cases settled
  · intro _
    right
    intro earlier before ordered old
    exact inv.tail tail ordered old
  · intro refused
    cases refused

theorem LineInvariant.returns (running : job.stage = .running) (outcome : Outcome) :
    Owes s id job { job with stage := .returned } [.returned id outcome] := by
  have own := inv.jobs id job found
  constructor
  · simp [Mark.call]
  · refine ⟨own.started.mpr ?_, inv.orderly⟩
    rw [running]
    rfl
  · apply own.move
    · constructor <;> simp [running, Stage.started, Stage.hasReturned, Stage.hasEnded,
        Stage.hasReleased]
    · decide
    · simp
    · rw [running]
      rfl
    · intro released
      cases released
  · rw [running]
    intro settled
    cases settled
  · intro _
    rw [running]
    exact .inl (by decide)
  · intro refused
    cases refused

theorem LineInvariant.ends (returned : job.stage = .returned) : Owes s id job
      { stage := .ending
        mutation := job.mutation.map fun mutation => { mutation with active := false } }
      [.ended id] := by
  have own := inv.jobs id job found
  constructor
  · simp [Mark.call]
  · refine ⟨own.returned.mpr ?_, inv.orderly⟩
    rw [returned]
    rfl
  · apply own.next
    · constructor <;> simp [returned, Stage.started, Stage.hasReturned, Stage.hasEnded,
        Stage.hasReleased]
    · simp
    · intro mutation ended
      obtain ⟨old, -, rfl⟩ := map_eq_some_iff.mp ended
      exact iff_of_false Bool.false_ne_true Bool.false_ne_true
    · intro writes mem
      obtain ⟨mutation, some_, attempted⟩ := own.committed writes (by simpa using mem)
      refine ⟨{ mutation with active := false }, ?_, attempted⟩
      rw [some_]
      rfl
    · intro mutation ended waits
      obtain ⟨old, some_, rfl⟩ := map_eq_some_iff.mp ended
      obtain ⟨⟨writes, mem⟩, -⟩ := own.pending old some_ waits
      exact ⟨⟨writes, mem_append_right _ mem⟩, rfl⟩
  · rw [returned]
    intro settled
    cases settled
  · intro _
    rw [returned]
    exact .inl (by decide)
  · intro refused
    cases refused

theorem LineInvariant.release (ending : job.stage = .ending)
    (answered : ¬ job.mutation.any (·.commitResult == some .pending) = true) :
    Owes s id job { job with stage := .released } [.released id] := by
  have own := inv.jobs id job found
  constructor
  · simp [Mark.call]
  · refine ⟨own.ended.mpr ?_, inv.orderly⟩
    rw [ending]
    rfl
  · apply own.move
    · constructor <;> simp [ending, Stage.started, Stage.hasReturned, Stage.hasEnded,
        Stage.hasReleased]
    · decide
    · simp
    · rw [ending]
      rfl
    · intro _ mutation some_ waits
      apply answered
      rw [some_, any_some, waits]
      rfl
  · rw [ending]
    intro settled
    cases settled
  · intro _
    rw [ending]
    exact .inl (by decide)
  · intro refused
    cases refused

theorem LineInvariant.finish (released : job.stage = .released) :
    Owes s id job { job with stage := .finished } [] := by
  have own := inv.jobs id job found
  constructor
  · simp
  · exact inv.orderly
  · apply own.move
    · constructor <;> simp [released, Stage.started, Stage.hasReturned, Stage.hasEnded,
        Stage.hasReleased]
    · decide
    · simp
    · rw [released]
      rfl
    · intro _ mutation some_ waits
      have unreleased := (own.pending mutation some_ waits).2
      rw [released] at unreleased
      cases unreleased
  · intro _
    rfl
  · intro _
    rw [released]
    exact .inl (by decide)
  · intro refused
    cases refused

end

end

theorem SessionMutation.commit_cases (pendingMessage : β → Bool) (mutation : SessionMutation)
    (writes : List (Write β V N)) (throws : Bool) :
    let attempt := mutation.commit pendingMessage writes throws
    attempt.1.active = mutation.active ∧
      ((attempt.2 = false ∧ (attempt.1 = mutation ∨
        attempt.1.commitResult = some (.settled .rejected))) ∨
      (attempt.2 = true ∧ mutation.active = true ∧ mutation.commitResult = none ∧
        attempt.1.commitResult.isSome = true)) := by
  intro attempt
  change (mutation.commit pendingMessage writes throws).1.active = _ ∧ _
  unfold attempt SessionMutation.commit
  split
  · exact ⟨rfl, .inl ⟨rfl, .inl rfl⟩⟩
  rename_i active
  split
  · exact ⟨rfl, .inl ⟨rfl, .inl rfl⟩⟩
  rename_i first
  split
  · exact ⟨rfl, .inl ⟨rfl, .inr rfl⟩⟩
  · exact ⟨rfl, .inr ⟨rfl, by simpa using active, by simpa using first, rfl⟩⟩

theorem Owes.stay (begun : job.stage ≠ .waiting) {attempted : Option SessionMutation}
    (about : ∀ mark ∈ marks, mark.call = some id) (orderly : Orderly (marks ++ s.history))
    (own : JobInvariant (marks ++ s.history) id { job with mutation := attempted }) :
    Owes s id job { job with mutation := attempted } marks where
  about := about
  orderly := orderly
  own := own
  settled := fun settled => settled
  turn := fun _ => .inl begun
  refusal := fun refused => .inl refused

theorem begun_of_started (started : stage.started = true) : stage ≠ .waiting := by
  rintro rfl
  cases started

theorem Moves.stay (stage : Stage)
    (quiet : ∀ mark ∈ marks, (∃ writes, mark = .committed id writes) ∨ mark = .acknowledged id) :
    Moves id marks stage stage := by
  have absent : ∀ mark : Mark β V N, (∀ writes, mark ≠ .committed id writes) →
      mark ≠ .acknowledged id → mark ∉ marks := by
    intro mark uncommitted unacknowledged mem
    rcases quiet mark mem with ⟨writes, same⟩ | same
    · exact uncommitted writes same
    · exact unacknowledged same
  constructor
  · exact or_iff_right (absent _ (by simp) (by simp))
  · exact or_iff_right (absent _ (by simp) (by simp))
  · refine or_iff_right ?_
    rintro ⟨outcome, mem⟩
    exact absent (.returned id outcome) (by simp) (by simp) mem
  · exact or_iff_right (absent _ (by simp) (by simp))
  · exact or_iff_right (absent _ (by simp) (by simp))

section

variable (inv : LineInvariant s) {next : LineState β V N} {pendingMessage : β → Bool}
  {attempted : SessionMutation} {mark : Mark β V N}

include inv

section

variable (found : s.jobs[id]? = some job) (started : job.stage.started = true)
  (holder : job.mutation = some mutation)

include found started holder

theorem LineInvariant.reaches (active : mutation.active = true)
    (first : mutation.commitResult = none) (same : attempted.active = mutation.active)
    (result : attempted.commitResult.isSome = true) (writes : List (Write β V N)) :
    Owes s id job { job with mutation := some attempted } [.committed id writes] := by
  have own := inv.jobs id job found
  have holds := (own.active mutation holder).mp active
  have begun := begun_of_started started
  apply Owes.stay begun
  · simp [Mark.call]
  · refine ⟨⟨own.started.mpr started, ?_, ?_, ?_⟩, inv.orderly⟩
    · intro ended
      have passed := own.ended.mp ended
      revert holds passed
      cases job.stage <;> decide
    · apply inv.unclosed found
      revert holds
      cases job.stage <;> decide
    · intro earlier mem
      obtain ⟨old, some_, attempted_⟩ := own.committed earlier mem
      rw [holder] at some_
      cases some_
      rw [first] at attempted_
      cases attempted_
  · apply own.next
    · exact .stay _ (by simp)
    · exact begun
    · intro updated some_
      cases some_
      rw [same]
      exact own.active mutation holder
    · intro _ _
      exact ⟨attempted, rfl, result⟩
    · intro _ _ _
      refine ⟨⟨writes, mem_cons_self⟩, ?_⟩
      change job.stage.hasReleased = false
      revert holds
      cases job.stage <;> decide

theorem LineInvariant.fails (same : attempted.active = mutation.active)
    (result : attempted = mutation ∨ attempted.commitResult = some (.settled .rejected)) :
    Owes s id job { job with mutation := some attempted } [] := by
  have own := inv.jobs id job found
  have begun := begun_of_started started
  apply Owes.stay begun
  · simp
  · exact inv.orderly
  · apply own.next
    · exact .stay _ (by simp)
    · exact begun
    · intro updated some_
      cases some_
      rw [same]
      exact own.active mutation holder
    · intro writes mem
      refine ⟨attempted, rfl, ?_⟩
      rcases result with rfl | rejected
      · obtain ⟨old, some_, attempted_⟩ := own.committed writes mem
        rw [holder] at some_
        exact some.inj some_ ▸ attempted_
      · rw [rejected]
        rfl
    · intro updated some_ waits
      cases some_
      rcases result with rfl | rejected
      · exact own.pending _ holder waits
      · rw [rejected] at waits
        cases waits

end

theorem LineInvariant.answered
    (found : s.jobs[id]? = some job) (holder : job.mutation = some mutation)
    (waits : mutation.commitResult = some .pending) (outcome : Outcome) : Owes s id job
      { job with mutation := some { mutation with commitResult := some (.settled outcome) } }
      (if outcome = .fulfilled then [.acknowledged id] else []) := by
  have own := inv.jobs id job found
  obtain ⟨⟨writes, committed⟩, unreleased⟩ := own.pending mutation holder waits
  have begun : job.stage ≠ .waiting := by
    intro waiting
    rw [own.ungranted waiting] at holder
    cases holder
  have quiet : ∀ mark ∈ (if outcome = .fulfilled then [Mark.acknowledged id] else [] :
      List (Mark β V N)), mark = .acknowledged id := by
    intro mark mem
    split at mem
    · exact mem_singleton.mp mem
    · cases mem
  apply Owes.stay begun
  · intro mark mem
    rw [quiet mark mem]
    rfl
  · split
    · refine ⟨⟨⟨writes, committed⟩, ?_⟩, inv.orderly⟩
      intro released
      have passed := own.released.mp released
      rw [unreleased] at passed
      cases passed
    · exact inv.orderly
  · apply own.next
    · exact .stay _ fun mark mem => .inr (quiet mark mem)
    · exact begun
    · intro updated some_
      cases some_
      exact own.active mutation holder
    · intro _ _
      exact ⟨_, rfl, rfl⟩
    · intro updated some_ still
      cases some_
      cases still

theorem LineInvariant.close : LineInvariant s.close := by
  unfold LineState.close
  split
  · exact inv
  · refine { inv with opened := ?_, unpromised := ?_, drained := ?_, closed := ?_, refused := ?_ }
    · simp
    · simp
    · intro drained promised
      exact (some.inj promised).symm
    · intro closed
      exact ⟨rfl, (inv.closed closed).2⟩
    · intro _ _ _ _
      rfl

theorem LineInvariant.allEnded
    (settled : ∀ (id : Nat) (job : Job), s.jobs[id]? = some job → job.stage.settled = true)
    {id : Nat} (admitted : .admitted id ∈ s.history) : Over s.history id := by
  have inside := inv.known _ admitted id rfl
  have found : s.jobs[id]? = some s.jobs[id] := getElem?_eq_getElem inside
  have own := inv.jobs id _ found
  have done := settled id _ found
  cases stage : s.jobs[id].stage with
  | refused => exact .inr (own.refused.mpr stage)
  | finished =>
    refine .inl ⟨own.returned.mpr ?_, own.released.mpr ?_⟩
    · rw [stage]
      rfl
    · rw [stage]
      rfl
  | _ =>
    rw [stage] at done
    cases done

theorem LineInvariant.frame (about : mark.call = none) {id : Nat} {job : Job}
    (found : s.jobs[id]? = some job) : JobInvariant (mark :: s.history) id job := by
  apply @JobInvariant.frame _ _ _ _ [_] _ _ (inv.jobs id job found)
  intro other mem
  rw [mem_singleton.mp mem, about]
  simp

theorem LineInvariant.known_cons (about : mark.call = none) : ∀ other ∈ mark :: s.history, ∀ id,
      other.call = some id → id < s.jobs.length := by
  intro other mem id same
  rcases mem_cons.mp mem with rfl | earlier
  · rw [about] at same
    cases same
  · exact inv.known other earlier id same

theorem LineInvariant.closeStorage (taken : s.closeStorage = some next) : LineInvariant next := by
  unfold LineState.closeStorage at taken
  split at taken
  · cases taken
  rename_i drained promised
  split at taken
  · rename_i ready
    obtain ⟨tail, -⟩ := Bool.and_eq_true_iff.mp ready
    have all : ∀ (id : Nat) (job : Job), s.jobs[id]? = some job → job.stage.settled = true := by
      intro id job found
      apply inv.tail tail _ found
      rw [inv.drained drained promised]
      exact (List.getElem?_eq_some_iff.mp found).1
    cases taken
    refine { inv with orderly := ?_, jobs := ?_, known := ?_, storageClosed := ?_, closed := ?_ }
    · exact ⟨fun id admitted => inv.allEnded all admitted, inv.orderly⟩
    · intro id job found
      exact inv.frame rfl found
    · exact inv.known_cons rfl
    · exact iff_of_true mem_cons_self rfl
    · intro _
      refine ⟨?_, all⟩
      rw [← Bool.not_eq_false]
      intro unsealed
      rw [inv.unpromised.mpr unsealed] at promised
      cases promised
  · cases taken

theorem LineInvariant.closeReturns (taken : s.closeReturns = some next) : LineInvariant next := by
  unfold LineState.closeReturns at taken
  split at taken
  · rename_i ready
    obtain ⟨closed, -⟩ := Bool.and_eq_true_iff.mp ready
    obtain ⟨sealed_, all⟩ := inv.closed closed
    cases taken
    constructor
    · refine ⟨⟨inv.storageClosed.mpr closed, ?_⟩, inv.orderly⟩
      exact fun id admitted => inv.allEnded all admitted
    · intro id job found
      exact inv.frame rfl found
    · exact inv.known_cons rfl
    · exact inv.serial
    · refine iff_of_false (by simp) ?_
      rw [sealed_]
      decide
    · exact inv.unpromised
    · exact inv.drained
    · rw [mem_cons, or_iff_right (by simp)]
      exact inv.storageClosed
    · intro _
      exact ⟨sealed_, all⟩
    · exact inv.refused
  · cases taken

theorem LineInvariant.commit {writes : List (Write β V N)} {throws : Bool}
    (taken : s.commit pendingMessage id writes throws = some next) : LineInvariant next := by
  obtain ⟨job, found, started, rfl⟩ := onJob_eq_some taken
  cases holder : job.mutation with
  | none =>
    rw [map_none, any_none, if_neg Bool.false_ne_true]
    apply inv.onJob found
    have begun := begun_of_started started
    apply Owes.stay begun
    · simp
    · exact inv.orderly
    · have own := inv.jobs id job found
      rw [← holder]
      exact own
  | some mutation =>
    obtain ⟨same, ⟨missed, result⟩ | ⟨reached, active, first, result⟩⟩ :=
      mutation.commit_cases pendingMessage writes throws
    · rw [map_some, any_some, missed, if_neg Bool.false_ne_true]
      exact inv.onJob found (inv.fails found started holder same result)
    · rw [map_some, any_some, reached, if_pos rfl]
      exact inv.onJob found (inv.reaches found started holder active first same result writes)

theorem LineInvariant.step {ev : LineEvent β V N}
    (taken : s.step pendingMessage ev = some next) : LineInvariant next := by
  cases ev with
  | mutate => exact some.inj taken ▸ inv.mutate
  | turn id =>
    rw [LineState.step, LineState.turn] at taken
    split at taken
    · rename_i sealed_
      obtain ⟨job, found, ready, rfl⟩ := onJob_eq_some taken
      obtain ⟨waiting, tail⟩ := Bool.and_eq_true_iff.mp ready
      exact inv.onJob found (inv.refuse found (of_decide_eq_true waiting) tail sealed_)
    · obtain ⟨job, found, ready, rfl⟩ := onJob_eq_some taken
      obtain ⟨waiting, tail⟩ := Bool.and_eq_true_iff.mp ready
      have ungranted := (inv.jobs id job found).ungranted (of_decide_eq_true waiting)
      exact inv.onJob found (inv.grant found (of_decide_eq_true waiting) tail ungranted)
  | call id =>
    obtain ⟨job, found, granted, rfl⟩ := onJob_eq_some taken
    exact inv.onJob found (inv.call found (of_decide_eq_true granted))
  | commit id writes throws => exact inv.commit taken
  | answer id outcome =>
    obtain ⟨job, found, waits, rfl⟩ := onJob_eq_some taken
    obtain ⟨mutation, holder, pending⟩ := any_eq_true _ _ |>.mp waits
    rw [holder]
    exact inv.onJob found (inv.answered found holder (beq_iff_eq.mp pending) outcome)
  | returns id outcome =>
    obtain ⟨job, found, running, rfl⟩ := onJob_eq_some taken
    exact inv.onJob found (inv.returns found (of_decide_eq_true running) outcome)
  | ends id =>
    obtain ⟨job, found, returned, rfl⟩ := onJob_eq_some taken
    exact inv.onJob found (inv.ends found (of_decide_eq_true returned))
  | release id =>
    obtain ⟨job, found, ready, rfl⟩ := onJob_eq_some taken
    obtain ⟨ending, answered⟩ := Bool.and_eq_true_iff.mp ready
    rw [Bool.not_eq_true', Bool.eq_false_iff] at answered
    exact inv.onJob found (inv.release found (of_decide_eq_true ending) answered)
  | finish id =>
    obtain ⟨job, found, released, rfl⟩ := onJob_eq_some taken
    exact inv.onJob found (inv.finish found (of_decide_eq_true released))
  | close => exact some.inj taken ▸ inv.close
  | closeStorage => exact inv.closeStorage taken
  | closeReturns => exact inv.closeReturns taken

end

end

end Trpi.Session
