import Mathlib.Algebra.Order.Ring.Int
import Trpi.Session.CommitRuns
import Trpi.Session.CreateFork

/-!
# Every reachable session state is safe

Runs start from an empty session and take any commits, rejected ones included,
and forks. The store invariant holds throughout. Atomicity does not: a batch
that passes validation can stop half way on an address the constructors refuse,
and exactly those batches leave a trace when they are rejected.
-/

namespace Trpi.Session

namespace InMemoryStorageState

variable {β V N : Type} [Add N] [Zero N] [ForkValue V]

inductive Reachable : InMemoryStorageState β V N → Prop where
  | initial : Reachable initial
  | commit {s : InMemoryStorageState β V N} (reachable : Reachable s)
      (writes : List (Write β V N)) (timestamp : Nat) : Reachable (s.commit writes timestamp).1
  | fork {s forked : InMemoryStorageState β V N} (reachable : Reachable s)
      {options : ForkOptions} (created : s.createFork options = .ok forked) : Reachable forked

variable {s : InMemoryStorageState β V N}

theorem Reachable.invariant (reachable : Reachable s) : StoreInvariant s := by
  induction reachable with
  | initial => exact initial_invariant
  | commit _ writes timestamp kept => exact commit_invariant kept writes timestamp
  | fork _ created kept => exact createFork_invariant kept created

/-- What a reader of a session relies on. -/
structure Consistent (s : InMemoryStorageState β V N) : Prop where
  uniqueIds : (s.entriesBySeq.map (·.id)).Nodup
  parents : ∀ entry ∈ s.entriesBySeq, ∀ parentId, entry.parentId = some parentId →
    ∃ parent ∈ s.entriesBySeq, parent.id = parentId ∧ parent.seq < entry.seq
  entriesBelow : ∀ entry ∈ s.entriesBySeq, entry.seq < s.nextSeq
  usageBelow : ∀ row ∈ s.usage.values, row.seq < s.nextSeq
  valuesBelow : ∀ address stored, s.getValue address = some stored → stored.seq < s.nextSeq
  listsBelow : ∀ address, ∀ element ∈ s.listElements address, element.seq < s.nextSeq
  stats : s.stats = recomputeStats s.entriesBySeq s.usage
  paths : ∀ entry ∈ s.entriesBySeq, ∃ path, IsBranchPath s.entriesBySeq entry path ∧
    ∀ fuel, s.nextSeq ≤ fuel → s.branchPath fuel entry = .ok path
  scans : ∀ query entry, s.entries.get? query.start = some entry →
    ∃ entries, s.scanBranch query = .ok entries

omit [ForkValue V] in
theorem consistent_of_invariant (inv : StoreInvariant s) : Consistent s where
  uniqueIds := by
    rw [← inv.entries.inOrder, s.entries.map_values_eq_keys _ inv.entries.keyed]
    exact s.entries.nodup
  parents := by
    intro e mem parentId link
    obtain ⟨parent, found, smaller⟩ := inv.entries.parentBefore e mem parentId link
    exact ⟨parent, inv.entries.mem_of_get? found, inv.entries.keyed _ _ found, smaller⟩
  entriesBelow := inv.entries.below
  usageBelow := inv.usage.below
  valuesBelow address stored found := inv.scalars.below _ stored found
  listsBelow address := (elementsAt_increasing inv.lists _).2
  stats := inv.stats
  paths := by
    intro e mem
    obtain ⟨path, isPath, walks⟩ :=
      branchPath_reaches_root inv.entries e.seq e mem (Nat.le_refl _)
    exact ⟨path, isPath, fun fuel enough =>
      walks fuel (Nat.lt_of_lt_of_le (inv.entries.below e mem) enough)⟩
  scans query e found := scanBranch_ok inv.entries query found

/-- A rejected commit leaves the state as it was. -/
def Atomic (s : InMemoryStorageState β V N) (writes : List (Write β V N)) (timestamp : Nat) :
    Prop :=
  ∀ failure, (s.commit writes timestamp).2 = .error failure → (s.commit writes timestamp).1 = s

omit [ForkValue V] in
theorem tornBatch_rejected (inv : StoreInvariant s) {writes : List (Write β V N)}
    {timestamp : Nat} (torn : s.TornBatch writes timestamp) :
    ∃ failure, (s.commit writes timestamp).2 = .error failure := by
  obtain ⟨⟨prepared, ready⟩, -, ill⟩ := torn
  obtain ⟨valid, -⟩ := (prepareCommit_ok_iff s writes timestamp prepared).mp ready
  have throws := (applyValidated_throws_iff inv valid).mpr
    ((exists_illAddressed_commitWrites writes s.nextSeq timestamp).mpr ill)
  rcases s.commit_cases writes timestamp with
    ⟨reason, -, ended⟩ | ⟨next, reason, -, -, ended⟩ | ⟨next, -, applied, -⟩
  · exact ⟨_, by rw [ended]⟩
  · exact ⟨_, by rw [ended]⟩
  · obtain ⟨reason, threw⟩ := throws
    rw [applied] at threw
    cases threw

omit [ForkValue V] in
theorem atomic_iff (inv : StoreInvariant s) (writes : List (Write β V N))
    (timestamp : Nat) : s.Atomic writes timestamp ↔ ¬ s.TornBatch writes timestamp := by
  constructor
  · intro atomic torn
    obtain ⟨failure, rejected⟩ := tornBatch_rejected inv torn
    exact (commit_rejected_unchanged_iff inv rejected).mp (atomic failure rejected) torn
  · intro whole failure rejected
    exact (commit_rejected_unchanged_iff inv rejected).mpr whole

/-- Along every run the state is consistent, its forks are, and a commit attempt is
atomic exactly when its batch is not torn. -/
theorem run_consistent_and_atomic_iff {s : InMemoryStorageState β V N}
    (reachable : Reachable s) :
    Consistent s ∧
    (∀ opts forked, s.createFork opts = .ok forked → Consistent forked) ∧
    ∀ writes timestamp, s.Atomic writes timestamp ↔ ¬ s.TornBatch writes timestamp :=
  ⟨consistent_of_invariant reachable.invariant,
    fun _ _ created => consistent_of_invariant (createFork_invariant reachable.invariant created),
    atomic_iff reachable.invariant⟩

end InMemoryStorageState

section Torn

instance : ForkValue (Option String) where
  ofTip := id
  toTip tip := some tip
  idleLaneState := none
  toTip_ofTip _ := rfl

/-- An entry followed by a value whose namespace is empty. -/
def tornWrites : List (Write Unit (Option String) Nat) :=
  [.entry { id := "e1", parentId := none, type := .message, customType := none, body := () },
    .valueSet "" "note" none]

theorem run_consistent_and_atomic_iff_initial :
    InMemoryStorageState.Consistent (β := Unit) (V := Option String) (N := Nat) .initial ∧
    (∀ opts forked,
      InMemoryStorageState.createFork (β := Unit) (V := Option String) (N := Nat) .initial opts =
        .ok forked → forked.Consistent) ∧
    ∀ writes timestamp,
      InMemoryStorageState.Atomic (β := Unit) (V := Option String) (N := Nat) .initial writes
        timestamp ↔ ¬ InMemoryStorageState.TornBatch .initial writes timestamp :=
  InMemoryStorageState.run_consistent_and_atomic_iff .initial

/-- The rejected commit has stored its first entry. -/
theorem tornWrites_leave_a_trace :
    (InMemoryStorageState.initial.commit tornWrites 7).2 = .error (.threw .emptyNamespace) ∧
      (InMemoryStorageState.initial.commit tornWrites 7).1 ≠ .initial := by
  constructor
  · rfl
  · intro same
    exact absurd (congrArg InMemoryStorageState.nextSeq same) (by decide)

end Torn

end Trpi.Session
