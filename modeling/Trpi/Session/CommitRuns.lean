import Trpi.Session.StoreInvariant

/-!
# Whole transactions

Validation runs over a batch before application does. Validating the batch
amounts to validating each write against the state its predecessors leave, so
the one-write lemmas carry over to transactions. Application can still throw on
an address the constructors refuse.
-/

namespace Trpi.Session

open Except CommitValidationState

open Library (InsertionMap)

variable {β V N : Type}

/-- The address check a write undergoes when it is applied. -/
def CommittedWrite.checkAddress : CommittedWrite β V N → Except AddressError Unit
  | .valueSet _ ns key _ => validateAddress ns key
  | .listAppend _ ns key _ => validateAddress ns key
  | _ => .ok ()

def Write.checkAddress : Write β V N → Except AddressError Unit
  | .valueSet ns key _ => validateAddress ns key
  | .listAppend ns key _ => validateAddress ns key
  | _ => .ok ()

def Write.WellAddressed (write : Write β V N) : Prop := write.checkAddress = .ok ()

instance (write : Write β V N) : Decidable write.WellAddressed :=
  inferInstanceAs (Decidable (write.checkAddress = .ok ()))

@[simp] theorem commitWrite_checkAddress (write : Write β V N) (seq timestamp : Nat) :
    (commitWrite write seq timestamp).checkAddress = write.checkAddress := by
  cases write <;> rfl

namespace InMemoryStorageState

variable [Add N] [Zero N]

variable {s next : InMemoryStorageState β V N} {write : CommittedWrite β V N}
  {writes rest : List (CommittedWrite β V N)} {stats : SessionStats N} {timestamp : Nat}

theorem applyWrite_ok (applied : s.applyWrite write = .ok next) :
    ∃ reached, s.applyWriteBody write = .ok reached ∧
      next = { reached with nextSeq := write.seq + 1 } := by
  unfold applyWrite at applied
  cases body : s.applyWriteBody write with
  | error reason => simp [body, Except.map] at applied
  | ok reached => exact ⟨reached, rfl, by rw [body] at applied; exact (ok.inj applied).symm⟩

theorem applyWrite_nextSeq (applied : s.applyWrite write = .ok next) :
    next.nextSeq = write.seq + 1 := by
  obtain ⟨reached, -, rfl⟩ := applyWrite_ok applied
  rfl

theorem applyWrite_error_iff
    (keyed : ∀ key stored, s.listValues.get? key = some stored → stored.address.physicalKey = key)
    (write : CommittedWrite β V N) (reason : AddressError) :
    s.applyWrite write = .error reason ↔ write.checkAddress = .error reason := by
  cases write with
  | valueSet seq ns key stored =>
    simp only [applyWrite, applyWriteBody, applyValueSet, CommittedWrite.checkAddress]
    cases valid : validateAddress ns key with
    | error refused => simp [value_of_invalid valid, Except.map]
    | ok accepted => simp [value_of_valid valid, Except.map]
  | listAppend seq ns key stored =>
    simp only [applyWrite, applyWriteBody, applyListAppend, CommittedWrite.checkAddress,
      list_eq_value]
    cases found : s.listValues.get? (physicalKey ns key) with
    | some snapshot =>
      obtain ⟨rfl, rfl⟩ := (physicalKey_eq_iff snapshot.address ns key).mp (keyed _ _ found).symm
      simp [snapshot.address.valid, Except.map]
    | none =>
      cases valid : validateAddress ns key with
      | error refused => simp [value_of_invalid valid, Except.map]
      | ok accepted => simp [value_of_valid valid, Except.map]
  | _ => simp [applyWrite, applyWriteBody, CommittedWrite.checkAddress, Except.map]

theorem checkAddress_of_applied
    (keyed : ∀ key stored, s.listValues.get? key = some stored → stored.address.physicalKey = key)
    (applied : s.applyWrite write = .ok next) : write.checkAddress = .ok () := by
  cases check : write.checkAddress with
  | ok accepted => rfl
  | error reason =>
    rw [(applyWrite_error_iff keyed write reason).mpr check] at applied
    cases applied

theorem applyWrite_validationState (applied : s.applyWrite write = .ok next) :
    next.validationState = s.validationState.extend write.ids write.entryIds := by
  obtain ⟨reached, body, rfl⟩ := applyWrite_ok applied
  cases write with
  | entry inserted =>
    rw [← ok.inj body]
    simp only [validationState, CommitValidationState.extend, CommittedWrite.ids,
      CommittedWrite.entryIds, InsertionMap.contains_set, List.mem_singleton,
      CommitValidationState.mk.injEq, and_true]
    funext id
    exact Bool.or_right_comm _ _ _
  | usage row =>
    rw [← ok.inj body]
    simp only [validationState, CommitValidationState.extend, CommittedWrite.ids,
      CommittedWrite.entryIds, InsertionMap.contains_set, List.mem_singleton, List.not_mem_nil,
      decide_false, Bool.or_false, Bool.or_assoc]
  | valueSet seq ns key stored =>
    obtain ⟨address, -, -, rfl⟩ := applyValueSet_ok body
    exact (extend_nil _).symm
  | listAppend seq ns key stored =>
    rw [applyListAppend_frame body]
    exact (extend_nil _).symm
  | valueDelete seq ns key =>
    rw [← ok.inj body]
    exact (extend_nil _).symm
  | listDelete seq ns key =>
    rw [← ok.inj body]
    exact (extend_nil _).symm

omit [Add N] [Zero N] in
theorem validateCommitted_nil (s : InMemoryStorageState β V N) :
    s.validateCommitted [] = .ok () := rfl

theorem validateCommitted_cons_iff (applied : s.applyWrite write = .ok next)
    (rest : List (CommittedWrite β V N)) :
    s.validateCommitted (write :: rest) = .ok () ↔
      s.Admits write ∧ next.validateCommitted rest = .ok () := by
  rw [validateCommitted, validateCommittedWrites_cons, ← admitWrite_ok_iff, validateCommitted,
    applyWrite_validationState applied, applyWrite_nextSeq applied]
  cases admitWrite s.validationState s.nextSeq [] [] write with
  | error reason => simp
  | ok accepted => simp

omit [Add N] [Zero N] in
theorem admits_of_validateCommitted
    (valid : s.validateCommitted (write :: rest) = .ok ()) : s.Admits write := by
  rw [← admitWrite_ok_iff]
  rw [validateCommitted, validateCommittedWrites_cons] at valid
  cases admitted : admitWrite s.validationState s.nextSeq [] [] write with
  | error reason => simp [admitted] at valid
  | ok accepted => rfl

/-- A validated batch keeps the invariant, however far application gets. -/
theorem applyValidated_invariant (inv : StoreInvariant s)
    (valid : s.validateCommitted writes = .ok ()) : StoreInvariant (s.applyValidated writes).1 := by
  induction writes generalizing s with
  | nil => exact inv
  | cons write rest ih =>
    have admitted := admits_of_validateCommitted valid
    cases applied : s.applyWrite write with
    | error reason => simpa [applyValidated, applied] using inv
    | ok next =>
      rw [applyValidated, applied]
      exact ih (applyWrite_invariant inv admitted applied)
        ((validateCommitted_cons_iff applied rest).mp valid).2

theorem applyValidated_nextSeq_le (valid : s.validateCommitted writes = .ok ()) :
    s.nextSeq ≤ (s.applyValidated writes).1.nextSeq := by
  induction writes generalizing s with
  | nil => exact Nat.le_refl _
  | cons write rest ih =>
    have admitted := admits_of_validateCommitted valid
    cases applied : s.applyWrite write with
    | error reason => simp [applyValidated, applied]
    | ok next =>
      rw [applyValidated, applied]
      have further := ih ((validateCommitted_cons_iff applied rest).mp valid).2
      rw [applyWrite_nextSeq applied] at further
      have later := admitted.later
      simp only at further ⊢
      omega

theorem applyValidated_throws_iff (inv : StoreInvariant s)
    (valid : s.validateCommitted writes = .ok ()) :
    (∃ reason, (s.applyValidated writes).2 = .error reason) ↔
      ∃ write ∈ writes, write.checkAddress ≠ .ok () := by
  induction writes generalizing s with
  | nil => simp [applyValidated]
  | cons write rest ih =>
    have admitted := admits_of_validateCommitted valid
    cases applied : s.applyWrite write with
    | error reason =>
      have refused := (applyWrite_error_iff inv.lists.keyed write reason).mp applied
      simp [applyValidated, applied, refused]
    | ok next =>
      have accepted := checkAddress_of_applied inv.lists.keyed applied
      have rest_iff := ih (applyWrite_invariant inv admitted applied)
        ((validateCommitted_cons_iff applied rest).mp valid).2
      simp [applyValidated, applied, rest_iff, accepted]

theorem applyValidated_commitWrites_nextSeq {writes : List (Write β V N)}
    (applied : s.applyValidated (commitWrites writes s.nextSeq timestamp) =
      (next, .ok stats)) : next.nextSeq = s.nextSeq + writes.length := by
  induction writes generalizing s with
  | nil => simp_all [commitWrites, applyValidated]
  | cons write rest ih =>
    rw [commitWrites, applyValidated] at applied
    split at applied
    · simp at applied
    · next reached stepped =>
      have moved := applyWrite_nextSeq stepped
      rw [commitWrite_seq] at moved
      rw [← moved] at applied
      rw [ih applied, moved, List.length_cons]
      omega

theorem applyValidated_ok_stats
    (applied : s.applyValidated writes = (next, .ok stats)) : stats = next.stats := by
  induction writes generalizing s with
  | nil =>
    simp only [applyValidated, Prod.mk.injEq, ok.injEq] at applied
    rw [← applied.1, ← applied.2]
  | cons write rest ih =>
    simp only [applyValidated] at applied
    split at applied
    · simp at applied
    · exact ih applied

omit [Add N] [Zero N] in
theorem prepareCommit_ok_iff (s : InMemoryStorageState β V N) (writes : List (Write β V N))
    (timestamp : Nat) (prepared : PreparedCommit β V N) :
    s.prepareCommit writes timestamp = .ok prepared ↔
      s.validateCommitted (commitWrites writes s.nextSeq timestamp) = .ok () ∧
        prepared = prepareStorageCommit writes s.nextSeq timestamp := by
  unfold prepareCommit
  split
  · next reason refused => simp [refused]
  · next accepted => simp [accepted, eq_comm]

theorem commit_cases (s : InMemoryStorageState β V N) (writes : List (Write β V N))
    (timestamp : Nat) :
    (∃ reason, s.prepareCommit writes timestamp = .error reason ∧
      s.commit writes timestamp = (s, .error (.refused reason))) ∨
    (∃ next reason,
      s.validateCommitted (commitWrites writes s.nextSeq timestamp) = .ok () ∧
      s.applyValidated (commitWrites writes s.nextSeq timestamp) = (next, .error reason) ∧
      s.commit writes timestamp = (next, .error (.threw reason))) ∨
    (∃ next,
      s.validateCommitted (commitWrites writes s.nextSeq timestamp) = .ok () ∧
      s.applyValidated (commitWrites writes s.nextSeq timestamp) = (next, .ok next.stats) ∧
      s.commit writes timestamp =
        (next, .ok { firstSeq := s.nextSeq,
                     seqs := (commitWrites writes s.nextSeq timestamp).map CommittedWrite.seq,
                     timestamp := timestamp, stats := next.stats })) := by
  cases prepared : s.prepareCommit writes timestamp with
  | error reason => exact .inl ⟨reason, rfl, by simp [commit, prepared]⟩
  | ok ready =>
    obtain ⟨valid, rfl⟩ := (s.prepareCommit_ok_iff writes timestamp ready).mp prepared
    obtain ⟨next, outcome, applied⟩ : ∃ next outcome, s.applyValidated
        (commitWrites writes s.nextSeq timestamp) = (next, outcome) := ⟨_, _, rfl⟩
    cases outcome with
    | error reason =>
      exact .inr (.inl ⟨next, reason, valid, applied,
        by simp [commit, prepared, prepareStorageCommit, applied]⟩)
    | ok stats =>
      have totals := applyValidated_ok_stats applied
      subst totals
      exact .inr (.inr ⟨next, valid, applied,
        by simp [commit, prepared, prepareStorageCommit, applied]⟩)

theorem commit_invariant (inv : StoreInvariant s) (writes : List (Write β V N))
    (timestamp : Nat) : StoreInvariant (s.commit writes timestamp).1 := by
  rcases s.commit_cases writes timestamp with
    ⟨reason, -, ended⟩ | ⟨next, reason, valid, applied, ended⟩ | ⟨next, valid, applied, ended⟩
  · rwa [ended]
  · have kept := applyValidated_invariant inv valid
    rw [applied] at kept
    rwa [ended]
  · have kept := applyValidated_invariant inv valid
    rw [applied] at kept
    rwa [ended]

/-- A batch that validation accepts but whose application stops after at least one
write: its first write is well addressed and a later one is not. -/
def TornBatch (s : InMemoryStorageState β V N) (writes : List (Write β V N))
    (timestamp : Nat) : Prop :=
  (∃ prepared, s.prepareCommit writes timestamp = .ok prepared) ∧
    (∃ write ∈ writes.head?, write.WellAddressed) ∧ ∃ write ∈ writes, ¬ write.WellAddressed

omit [Add N] [Zero N] in
theorem exists_illAddressed_commitWrites (writes : List (Write β V N)) (firstSeq timestamp : Nat) :
    (∃ write ∈ commitWrites writes firstSeq timestamp, write.checkAddress ≠ .ok ()) ↔
      ∃ write ∈ writes, ¬ write.WellAddressed := by
  induction writes generalizing firstSeq with
  | nil => simp [commitWrites]
  | cons write rest ih =>
    simp only [commitWrites, List.mem_cons, exists_eq_or_imp, ih, commitWrite_checkAddress,
      Write.WellAddressed, ne_eq]

/-- Application that throws leaves the state unchanged exactly when the first write throws. -/
theorem applyValidated_unchanged_iff (inv : StoreInvariant s)
    (valid : s.validateCommitted (write :: rest) = .ok ()) :
    (s.applyValidated (write :: rest)).1 = s ↔ write.checkAddress ≠ .ok () := by
  cases applied : s.applyWrite write with
  | error reason =>
    have refused := (applyWrite_error_iff inv.lists.keyed write reason).mp applied
    simp [applyValidated, applied, refused]
  | ok next =>
    have accepted := checkAddress_of_applied inv.lists.keyed applied
    have later := (admits_of_validateCommitted valid).later
    have moved := applyWrite_nextSeq applied
    have further := applyValidated_nextSeq_le ((validateCommitted_cons_iff applied rest).mp valid).2
    rw [applyValidated, applied]
    simp only [accepted, ne_eq, not_true_eq_false, iff_false]
    intro same
    rw [same] at further
    omega

/-- A rejected commit leaves no trace exactly when its batch is not torn. -/
theorem commit_rejected_unchanged_iff (inv : StoreInvariant s) {writes : List (Write β V N)}
    {failure : CommitFailure} (rejected : (s.commit writes timestamp).2 = .error failure) :
    (s.commit writes timestamp).1 = s ↔ ¬ s.TornBatch writes timestamp := by
  rcases s.commit_cases writes timestamp with
    ⟨reason, refused, ended⟩ | ⟨next, reason, valid, applied, ended⟩ | ⟨next, -, -, ended⟩
  · simp [ended, TornBatch, refused]
  · have ill : ∃ write ∈ writes, ¬ write.WellAddressed :=
      (exists_illAddressed_commitWrites writes s.nextSeq timestamp).mp
        ((applyValidated_throws_iff inv valid).mp ⟨reason, by rw [applied]⟩)
    have ready := (s.prepareCommit_ok_iff writes timestamp _).mpr ⟨valid, rfl⟩
    cases writes with
    | nil => simp at ill
    | cons write rest =>
      have unchanged := applyValidated_unchanged_iff inv valid
      simp only [commitWrites] at applied
      rw [applied, commitWrite_checkAddress] at unchanged
      have torn : s.TornBatch (write :: rest) timestamp ↔ write.WellAddressed := by
        constructor
        · rintro ⟨-, ⟨first, isFirst, accepted⟩, -⟩
          rw [List.head?_cons, Option.mem_some_iff] at isFirst
          rwa [isFirst]
        · intro accepted
          exact ⟨⟨_, ready⟩, ⟨write, rfl, accepted⟩, ill⟩
      rw [ended, torn]
      exact unchanged
  · rw [ended] at rejected
    cases rejected

end InMemoryStorageState

end Trpi.Session

/-!
## The sequence floor

A writer may know a higher next sequence than the records alone give: the
high-water mark of a header raises it. Only validation reads the next sequence,
and only as a lower bound, so a batch accepted above the floor is accepted and
applied alike below it.
-/

namespace Trpi.Session

variable {β V N : Type} {s : CommitValidationState}

theorem admitWrite_lower {floor minSeq : Nat} (lower : floor ≤ minSeq) {ids entryIds : List String}
    {write : CommittedWrite β V N} (admitted : admitWrite s minSeq ids entryIds write = .ok ()) :
    admitWrite s floor ids entryIds write = .ok () := by
  unfold admitWrite at admitted ⊢
  split at admitted
  · cases admitted
  · next late => rwa [if_neg (by omega)]

theorem validateCommittedWrites_lower {floor minSeq : Nat} (lower : floor ≤ minSeq)
    {writes : List (CommittedWrite β V N)}
    (valid : validateCommittedWrites writes minSeq s = .ok ()) :
    validateCommittedWrites writes floor s = .ok () := by
  cases writes with
  | nil => rfl
  | cons write rest =>
    rw [validateCommittedWrites_cons] at valid ⊢
    split at valid
    · cases valid
    · next admitted =>
      rw [admitWrite_lower lower admitted]
      exact valid

namespace InMemoryStorageState

/-- The same contents under another next sequence. -/
def withNextSeq (s : InMemoryStorageState β V N) (nextSeq : Nat) :
    InMemoryStorageState β V N := { s with nextSeq := nextSeq }

@[simp] theorem withNextSeq_nextSeq (s : InMemoryStorageState β V N) (nextSeq : Nat) :
    (s.withNextSeq nextSeq).nextSeq = nextSeq := rfl

theorem withNextSeq_self (s : InMemoryStorageState β V N) : s.withNextSeq s.nextSeq = s := rfl

variable {s : InMemoryStorageState β V N} {nextSeq : Nat} {writes : List (CommittedWrite β V N)}

theorem validateCommitted_lower (lower : s.nextSeq ≤ nextSeq)
    (valid : (s.withNextSeq nextSeq).validateCommitted writes = .ok ()) :
    s.validateCommitted writes = .ok () :=
  validateCommittedWrites_lower lower valid

variable [Add N] [Zero N]

theorem applyWriteBody_withNextSeq (s : InMemoryStorageState β V N) (nextSeq : Nat)
    (write : CommittedWrite β V N) :
    (s.withNextSeq nextSeq).applyWriteBody write =
      (s.applyWriteBody write).map (·.withNextSeq nextSeq) := by
  cases write with
  | valueSet seq ns key stored =>
    simp only [applyWriteBody, applyValueSet]
    split <;> rfl
  | listAppend seq ns key stored =>
    simp only [applyWriteBody, applyListAppend, withNextSeq]
    split
    · split <;> rfl
    · rfl
  | _ => rfl

theorem applyWrite_withNextSeq (s : InMemoryStorageState β V N) (nextSeq : Nat)
    (write : CommittedWrite β V N) :
    (s.withNextSeq nextSeq).applyWrite write = s.applyWrite write := by
  rw [applyWrite, applyWriteBody_withNextSeq, applyWrite]
  cases s.applyWriteBody write <;> rfl

theorem applyValidated_withNextSeq {next : InMemoryStorageState β V N} (nonempty : writes ≠ [])
    {stats : SessionStats N}
    (applied : (s.withNextSeq nextSeq).applyValidated writes = (next, .ok stats)) :
    s.applyValidated writes = (next, .ok stats) := by
  cases writes with
  | nil => exact absurd rfl nonempty
  | cons write rest =>
    rw [applyValidated, applyWrite_withNextSeq] at applied
    rw [applyValidated]
    split at applied
    · simp at applied
    · exact applied

theorem withNextSeq_invariant (inv : StoreInvariant s)
    (raised : s.nextSeq ≤ nextSeq) : StoreInvariant (s.withNextSeq nextSeq) where
  entries := inv.entries.raise raised
  usage := inv.usage.raise raised
  scalars := inv.scalars.raise raised
  lists := inv.lists.raise raised
  disjoint := inv.disjoint
  stats := inv.stats
  positive := Nat.le_trans inv.positive raised

end InMemoryStorageState

end Trpi.Session
