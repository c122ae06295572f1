import Trpi.Session.Types

/-!
# Preparing and validating a transaction

session/commit.ts. Storage numbers the writes of a transaction consecutively
and checks them in one pass before any of them is applied: sequences increase,
entry and usage ids are fresh, and the parent of an entry is already stored or
inserted earlier in the same transaction. The source keeps `previousSeq`; the
bound `minSeq` is `previousSeq + 1`.
-/

namespace Trpi.Session

inductive CommitError where
  | nonMonotonicSeq (seq : Nat)
  | duplicateId (id : String)
  | missingParent (parentId : String)

def CommitError.message : CommitError → String
  | .nonMonotonicSeq seq => "Non-monotonic storage sequence: " ++ toString seq
  | .duplicateId id => "Duplicate entry or usage id: " ++ id
  | .missingParent parentId => "Missing parent entry: " ++ parentId

variable {β V N : Type}

def materializeCommittedEntry (entry : NewEntry β) (seq timestamp : Nat) : Entry β where
  id := entry.id
  parentId := entry.parentId
  seq := seq
  timestamp := timestamp
  type := entry.type
  customType := entry.customType
  body := entry.body

def commitWrite (write : Write β V N) (seq timestamp : Nat) : CommittedWrite β V N :=
  match write with
  | .entry entry => .entry (materializeCommittedEntry entry seq timestamp)
  | .usage row =>
    .usage
      { id := row.id, seq := seq, usage := row.usage, entryId := row.entryId,
        adjustment := row.adjustment, details := row.details }
  | .valueSet ns key value => .valueSet seq ns key value
  | .valueDelete ns key => .valueDelete seq ns key
  | .listAppend ns key value => .listAppend seq ns key value
  | .listDelete ns key => .listDelete seq ns key

@[simp] theorem commitWrite_seq (write : Write β V N) (seq timestamp : Nat) :
    (commitWrite write seq timestamp).seq = seq := by
  cases write <;> rfl

def commitWrites (writes : List (Write β V N)) (firstSeq timestamp : Nat) :
    List (CommittedWrite β V N) :=
  match writes with
  | [] => []
  | write :: rest => commitWrite write firstSeq timestamp :: commitWrites rest (firstSeq + 1) timestamp

structure PreparedCommit (β V N : Type) where
  writes : List (CommittedWrite β V N)
  firstSeq : Nat
  seqs : List Nat
  timestamp : Nat

def prepareStorageCommit (writes : List (Write β V N)) (firstSeq timestamp : Nat) :
    PreparedCommit β V N where
  writes := commitWrites writes firstSeq timestamp
  firstSeq := firstSeq
  seqs := (commitWrites writes firstSeq timestamp).map CommittedWrite.seq
  timestamp := timestamp

@[simp] theorem commitWrites_length (writes : List (Write β V N)) (firstSeq timestamp : Nat) :
    (commitWrites writes firstSeq timestamp).length = writes.length := by
  induction writes generalizing firstSeq with
  | nil => rfl
  | cons write rest ih => simp [commitWrites, ih]

/-- The sequences of a transaction are consecutive. -/
theorem commitWrites_seqs (writes : List (Write β V N)) (firstSeq timestamp : Nat) :
    (commitWrites writes firstSeq timestamp).map CommittedWrite.seq =
      List.range' firstSeq writes.length := by
  induction writes generalizing firstSeq with
  | nil => rfl
  | cons write rest ih => simp [commitWrites, ih, List.range'_succ]

/-- What validation may ask about the stored state. -/
structure CommitValidationState where
  hasEntryOrUsageId : String → Bool
  hasEntryId : String → Bool

/-- The ids a write takes: entries and usage rows share one id space. -/
def CommittedWrite.ids : CommittedWrite β V N → List String
  | .entry inserted => [inserted.id]
  | .usage row => [row.id]
  | _ => []

def CommittedWrite.entryIds : CommittedWrite β V N → List String
  | .entry inserted => [inserted.id]
  | _ => []

/-- The checks of one loop iteration. -/
def admitWrite (s : CommitValidationState) (minSeq : Nat)
    (transactionIds transactionEntryIds : List String) (write : CommittedWrite β V N) :
    Except CommitError Unit :=
  if write.seq < minSeq then .error (.nonMonotonicSeq write.seq)
  else
    match write with
    | .entry entry =>
      if s.hasEntryOrUsageId entry.id || decide (entry.id ∈ transactionIds) then
        .error (.duplicateId entry.id)
      else
        match entry.parentId with
        | none => .ok ()
        | some parentId =>
          if s.hasEntryId parentId || decide (parentId ∈ transactionEntryIds) then .ok ()
          else .error (.missingParent parentId)
    | .usage row =>
      if s.hasEntryOrUsageId row.id || decide (row.id ∈ transactionIds) then
        .error (.duplicateId row.id)
      else .ok ()
    | _ => .ok ()

def validateFrom (s : CommitValidationState) (minSeq : Nat)
    (transactionIds transactionEntryIds : List String) :
    List (CommittedWrite β V N) → Except CommitError Unit
  | [] => .ok ()
  | write :: rest =>
    match admitWrite s minSeq transactionIds transactionEntryIds write with
    | .error reason => .error reason
    | .ok () =>
      validateFrom s (write.seq + 1) (write.ids ++ transactionIds)
        (write.entryIds ++ transactionEntryIds) rest

def validateCommittedWrites (writes : List (CommittedWrite β V N)) (firstSeq : Nat)
    (s : CommitValidationState) : Except CommitError Unit :=
  validateFrom s firstSeq [] [] writes

/-- What validation sees once these ids are stored. -/
def CommitValidationState.extend (s : CommitValidationState) (ids entryIds : List String) :
    CommitValidationState where
  hasEntryOrUsageId id := s.hasEntryOrUsageId id || decide (id ∈ ids)
  hasEntryId id := s.hasEntryId id || decide (id ∈ entryIds)

theorem CommitValidationState.extend_nil (s : CommitValidationState) : s.extend [] [] = s := by
  simp [extend]

private theorem seen_append (seen : Bool) (id : String) (ids more : List String) :
    (seen || decide (id ∈ ids) || decide (id ∈ more)) = (seen || decide (id ∈ more ++ ids)) := by
  simp only [List.mem_append, Bool.decide_or, Bool.or_assoc]
  rw [Bool.or_comm (decide (id ∈ ids))]

theorem admitWrite_extend (s : CommitValidationState) (minSeq : Nat)
    (ids entryIds more moreEntryIds : List String) (write : CommittedWrite β V N) :
    admitWrite (s.extend ids entryIds) minSeq more moreEntryIds write =
      admitWrite s minSeq (more ++ ids) (moreEntryIds ++ entryIds) write := by
  unfold admitWrite CommitValidationState.extend
  simp only [seen_append]

theorem validateFrom_extend (s : CommitValidationState) (minSeq : Nat)
    (ids entryIds more moreEntryIds : List String) (writes : List (CommittedWrite β V N)) :
    validateFrom (s.extend ids entryIds) minSeq more moreEntryIds writes =
      validateFrom s minSeq (more ++ ids) (moreEntryIds ++ entryIds) writes := by
  induction writes generalizing minSeq more moreEntryIds with
  | nil => rfl
  | cons write rest ih => simp only [validateFrom, admitWrite_extend, ih, List.append_assoc]

theorem validateCommittedWrites_cons (write : CommittedWrite β V N)
    (rest : List (CommittedWrite β V N)) (firstSeq : Nat) (s : CommitValidationState) :
    validateCommittedWrites (write :: rest) firstSeq s =
      match admitWrite s firstSeq [] [] write with
      | .error reason => .error reason
      | .ok () =>
        validateCommittedWrites rest (write.seq + 1) (s.extend write.ids write.entryIds) := by
  simp only [validateCommittedWrites, validateFrom, validateFrom_extend, List.nil_append,
    List.append_nil]

/-- A validated batch has increasing sequences from the bound on. -/
theorem validateCommittedWrites_seqs {writes : List (CommittedWrite β V N)} {firstSeq : Nat}
    {s : CommitValidationState} (valid : validateCommittedWrites writes firstSeq s = .ok ()) :
    (∀ write ∈ writes, firstSeq ≤ write.seq) ∧
      writes.Pairwise fun earlier later => earlier.seq < later.seq := by
  induction writes generalizing firstSeq s with
  | nil => simp
  | cons write rest ih =>
    rw [validateCommittedWrites_cons] at valid
    have late : firstSeq ≤ write.seq := by
      by_contra early
      simp [admitWrite, Nat.not_le.mp early] at valid
    split at valid
    · cases valid
    · obtain ⟨above, increasing⟩ := ih valid
      refine ⟨?_, List.pairwise_cons.mpr ⟨fun other mem => above other mem, increasing⟩⟩
      intro other mem
      rcases List.mem_cons.mp mem with rfl | mem
      · exact late
      · have := above other mem
        omega

end Trpi.Session
