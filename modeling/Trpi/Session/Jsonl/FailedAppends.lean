import Trpi.Session.Jsonl.Reopen

/-!
# Failing appends

Commits whose append may stop after any number of bytes, interleaved with
reopening. A failed append leaves its bytes in the file and nothing repairs them
before the next append: a later commit then continues the torn line, and a line
that was written whole stands for a commit nobody acknowledged. Runs that avoid
both keep the file in step with the acknowledged commits.
-/

namespace Trpi.Session.Jsonl

open Library V4Storage InMemoryStorageState List
open Library.Utf8 (encode newlineByte)

variable {N : Type} [JsonNumber N] [Add N] [Zero N]

def produced (start : JsonlState N) (commits : List (List (JsonlWrite N) × Nat)) : JsonlState N :=
  commits.foldl (fun s commit => (s.commit commit.1 commit.2).1) start

omit [JsonNumber N] in
theorem produced_concat (start : JsonlState N) (commits : List (List (JsonlWrite N) × Nat))
    (writes : List (JsonlWrite N)) (now : Nat) :
    produced start (commits ++ [(writes, now)]) = ((produced start commits).commit writes now).1 := by
  simp [produced]

/-- A commit attempt that keeps the file readable: an append that fails leaves its line
unfinished, and one that succeeds starts on a fresh line and carries addresses that
application accepts. -/
def SoundAttempt (storage : V4Storage N) (writes : List (JsonlWrite N)) (now : Nat)
    (fault : Option Nat) : Prop :=
  ∀ prepared, storage.state.prepareCommit writes now = .ok prepared → writes ≠ [] →
    match fault with
    | some written => written < (transactionBytes prepared.writes).length
    | none => storage.file.getLast? = some newlineByte ∧ ∀ write ∈ writes, write.WellAddressed

/-- Runs of sound attempts and reopenings, with the commits they acknowledged. -/
inductive SoundRun (dateParse : String → Option Int) (start : V4Storage N) :
    V4Storage N → List (List (JsonlWrite N) × Nat) → Prop where
  | start : SoundRun dateParse start start []
  | acknowledged {storage next : V4Storage N} {commits : List (List (JsonlWrite N) × Nat)}
      {writes : List (JsonlWrite N)} {now : Nat} {fault : Option Nat} {result : CommitResult N}
      (before : SoundRun dateParse start storage commits)
      (sound : SoundAttempt storage writes now fault)
      (ended : storage.commit writes now fault = (next, .ok result)) :
      SoundRun dateParse start next (commits ++ [(writes, now)])
  | rejected {storage next : V4Storage N} {commits : List (List (JsonlWrite N) × Nat)}
      {writes : List (JsonlWrite N)} {now : Nat} {fault : Option Nat} {failure : JsonlCommitFailure}
      (before : SoundRun dateParse start storage commits)
      (sound : SoundAttempt storage writes now fault)
      (ended : storage.commit writes now fault = (next, .error failure)) :
      SoundRun dateParse start next commits
  | reopened {storage next : V4Storage N} {commits : List (List (JsonlWrite N) × Nat)}
      (before : SoundRun dateParse start storage commits)
      (opened : openStorage dateParse storage.file = .ok (some next)) :
      SoundRun dateParse start next commits

variable {writes : List (JsonlWrite N)} {now : Nat} {fault : Option Nat}
  {failure : JsonlCommitFailure}

theorem V4Storage.commit_header {storage next : V4Storage N}
    {outcome : Except JsonlCommitFailure (CommitResult N)}
    (ended : storage.commit writes now fault = (next, outcome)) : next.header = storage.header := by
  unfold commit at ended
  split at ended
  · rw [← (Prod.mk.inj ended).1]
  · simp only at ended
    split at ended
    · rw [← (Prod.mk.inj ended).1]
    · split at ended <;> rw [← (Prod.mk.inj ended).1]

theorem V4Storage.commit_faulted (storage : V4Storage N) (nonempty : writes ≠ [])
    (now written : Nat) :
    ∃ failure, (storage.commit writes now (some written)).2 = .error failure ∧
      (storage.commit writes now (some written)).1.state = storage.state := by
  unfold commit
  cases prepared : storage.state.prepareCommit writes now with
  | error reason => exact ⟨_, rfl, rfl⟩
  | ok ready =>
    obtain ⟨-, rfl⟩ := (storage.state.prepareCommit_ok_iff writes now ready).mp prepared
    cases writes with
    | nil => exact absurd rfl nonempty
    | cons write rest => exact ⟨_, rfl, rfl⟩

/-- A rejected commit was refused, failed to append, or threw after its append. -/
theorem V4Storage.commit_error {storage next : V4Storage N}
    (ended : storage.commit writes now fault = (next, .error failure)) :
    next = storage ∨
    ∃ prepared, storage.state.prepareCommit writes now = .ok prepared ∧
      ((∃ written, fault = some written ∧ writes ≠ [] ∧
        next = { storage with file := storage.file ++ (transactionBytes prepared.writes).take written }) ∨
      (fault = none ∧ ∃ reason, (storage.state.applyValidated prepared.writes).2 = .error reason)) := by
  unfold commit at ended
  cases prepared : storage.state.prepareCommit writes now with
  | error reason =>
    rw [prepared] at ended
    exact .inl (Prod.mk.inj ended).1.symm
  | ok ready =>
    refine .inr ⟨ready, rfl, ?_⟩
    obtain ⟨-, rfl⟩ := (storage.state.prepareCommit_ok_iff writes now ready).mp prepared
    rw [prepared] at ended
    cases writes with
    | nil => simp [prepareStorageCommit, commitWrites, applyValidated] at ended
    | cons write rest =>
      cases fault with
      | some written =>
        exact .inl ⟨written, rfl, cons_ne_nil _ _, (Prod.mk.inj ended).1.symm⟩
      | none =>
        refine .inr ⟨rfl, ?_⟩
        simp only [prepareStorageCommit, commitWrites] at ended ⊢
        split at ended
        · next reached reason applied => exact ⟨reason, by rw [applied]⟩
        · simp at ended

/-- The file holds the log of the state and at most an unfinished line. -/
def InStep (dateParse : String → Option Int) (storage : V4Storage N) : Prop :=
  ∃ lines tail, Log dateParse lines storage.header storage.state ∧
    storage.file = lineBytes lines ++ tail ∧ newlineByte ∉ tail

variable {dateParse : String → Option Int} {storage next : V4Storage N} {line : List Char}

theorem InStep.reopens (inStep : InStep dateParse storage) :
    ∃ lines, Logged dateParse lines { storage with file := lineBytes lines } ∧
      openStorage dateParse storage.file = .ok (some { storage with file := lineBytes lines }) := by
  obtain ⟨lines, tail, log, file, unterminated⟩ := inStep
  refine ⟨lines, ⟨log, rfl⟩, ?_⟩
  rw [file, log.open_cut unterminated]

theorem Logged.inStep {lines : List (List Char)} (logged : Logged dateParse lines storage) :
    InStep dateParse storage :=
  ⟨lines, [], logged.log, by rw [logged.file, append_nil], not_mem_nil⟩

theorem newlineByte_notMem_take (single : '\n' ∉ line) {written : Nat}
    (unfinished : written < (lineBytes [line]).length) :
    newlineByte ∉ (lineBytes [line]).take written := by
  rw [lineBytes_singleton, length_append, length_singleton] at unfinished
  rw [lineBytes_singleton, take_append_of_le_length (by omega)]
  exact fun mem => single (Utf8.newlineByte_mem_encode (mem_of_mem_take mem))

theorem InStep.acknowledged (inStep : InStep dateParse storage) {result : CommitResult N}
    (sound : SoundAttempt storage writes now fault)
    (ended : storage.commit writes now fault = (next, .ok result)) : InStep dateParse next := by
  obtain ⟨lines, tail, log, file, unterminated⟩ := inStep
  obtain ⟨valid, -, -, -, attempted⟩ := commit_ok ended
  by_cases empty : writes = []
  · subst empty
    rw [commit_nothing ended]
    exact ⟨lines, tail, log, file, unterminated⟩
  · have prepared := (storage.state.prepareCommit_ok_iff writes now _).mpr ⟨valid, rfl⟩
    obtain rfl := attempted.resolve_left empty
    obtain ⟨fresh, -⟩ := sound _ prepared empty
    have whole : tail = [] := by
      by_contra torn
      obtain ⟨last, isLast⟩ := Option.ne_none_iff_exists'.mp (mt getLast?_eq_none_iff.mp torn)
      rw [file, getLast?_append, isLast, Option.some_or, Option.some.injEq] at fresh
      exact unterminated (fresh ▸ mem_of_getLast? isLast)
    subst whole
    rw [append_nil] at file
    have logged : Logged dateParse lines storage := ⟨log, file⟩
    rcases logged.commit ended with rfl | ⟨batch, -, -, extended⟩
    · exact logged.inStep
    · exact extended.inStep

theorem InStep.rejected (inStep : InStep dateParse storage)
    (sound : SoundAttempt storage writes now fault)
    (ended : storage.commit writes now fault = (next, .error failure)) :
    InStep dateParse next ∧ next.state = storage.state := by
  obtain ⟨lines, tail, log, file, unterminated⟩ := inStep
  rcases commit_error ended with rfl | ⟨ready, prepared, appended | threw⟩
  · exact ⟨⟨lines, tail, log, file, unterminated⟩, rfl⟩
  · obtain ⟨written, rfl, nonempty, rfl⟩ := appended
    have unfinished := sound ready prepared nonempty
    simp only at unfinished
    rw [transactionBytes_eq] at unfinished ⊢
    refine ⟨⟨lines, tail ++ (lineBytes [serializeJsonlTransaction ready.writes]).take written, log,
      ?_, ?_⟩, rfl⟩
    · rw [file, append_assoc]
    · intro mem
      rcases mem_append.mp mem with earlier | added
      · exact unterminated earlier
      · exact newlineByte_notMem_take (serializeJsonlTransaction_single _) unfinished added
  · obtain ⟨rfl, throws⟩ := threw
    obtain ⟨valid, rfl⟩ := (storage.state.prepareCommit_ok_iff writes now ready).mp prepared
    have ill := (exists_illAddressed_commitWrites writes _ now).mp
      ((applyValidated_throws_iff log.invariant valid).mp throws)
    obtain ⟨write, mem, refused⟩ := ill
    exact absurd ((sound _ prepared (ne_nil_of_mem mem)).2 write mem) refused

theorem SoundRun.inStep {start : V4Storage N} {commits : List (List (JsonlWrite N) × Nat)}
    (started : InStep dateParse start) (run : SoundRun dateParse start storage commits) :
    InStep dateParse storage ∧ storage.header = start.header ∧
      storage.state = produced start.state commits := by
  induction run with
  | start => exact ⟨started, rfl, rfl⟩
  | acknowledged before sound ended ih =>
    obtain ⟨inStep, header, s⟩ := ih
    refine ⟨inStep.acknowledged sound ended, (commit_ok ended).2.2.1.trans header, ?_⟩
    rw [produced_concat, ← s]
    rw [commit_ok_result ended]
  | rejected before sound ended ih =>
    obtain ⟨inStep, header, s⟩ := ih
    obtain ⟨kept, unchanged⟩ := inStep.rejected sound ended
    exact ⟨kept, (commit_header ended).trans header, unchanged.trans s⟩
  | reopened before opened ih =>
    obtain ⟨inStep, header, s⟩ := ih
    obtain ⟨lines, logged, reopened⟩ := inStep.reopens
    rw [reopened, Except.ok.injEq, Option.some.injEq] at opened
    subst opened
    exact ⟨logged.inStep, header, s⟩

/-- In every sound run from a session file, a failing append leaves the state in memory
alone, and the file reopens at any time to what the acknowledged commits produced. -/
theorem soundRun_reopens {past : List (V4Storage N)} {start : V4Storage N}
    (history : Past dateParse past start) {commits : List (List (JsonlWrite N) × Nat)}
    (run : SoundRun dateParse start storage commits) :
    (∀ writes now written, writes ≠ [] →
      ∃ failure, (storage.commit writes now (some written)).2 = .error failure ∧
        (storage.commit writes now (some written)).1.state = storage.state) ∧
    storage.state = produced start.state commits ∧
    ∃ file, openStorage dateParse storage.file =
      .ok (some { header := start.header, file := file, state := produced start.state commits }) := by
  obtain ⟨lines, logged⟩ := history.recorded.logged
  obtain ⟨inStep, header, s⟩ := run.inStep logged.inStep
  obtain ⟨lines, -, reopened⟩ := inStep.reopens
  refine ⟨fun writes now written nonempty => storage.commit_faulted nonempty now written, s,
    lineBytes lines, ?_⟩
  rw [reopened, ← header, ← s]

omit [Add N] [Zero N] in
theorem serializeJsonlTransaction_one (write : JsonlCommittedWrite N) :
    ∃ rest, serializeJsonlTransaction [write] = '{' :: rest := by
  obtain ⟨members, object⟩ := writeToJson_isObject write
  rw [serializeJsonlTransaction, transactionToJson, object]
  cases members with
  | nil => exact ⟨['}'], by simp [Json.stringifyChars]⟩
  | cons mem members => exact ⟨_, by simp only [Json.stringifyChars]; rfl⟩

omit [Add N] [Zero N] in
theorem parseJsonlTransaction_glued (rest : List Char) :
    (parseJsonlTransaction ('{' :: '{' :: rest) :
      Except RecordError (List (JsonlCommittedWrite N))) = .error .notJson := by
  simp [parseJsonlTransaction, Json.parseChars, Json.parseValue, Json.parseMembers,
    Json.skipWhitespace, Json.isWhitespace]

theorem openStorage_bad_line {dateParse : String → Option Int} {header : JsonlStorageHeader}
    (valid : header.Valid) (version : header.storageVersion = jsonlStorageVersion)
    (single : '\n' ∉ line) {reason : RecordError}
    (bad : (parseJsonlTransaction line : Except RecordError (List (JsonlCommittedWrite N))) =
      .error reason) :
    (openStorage dateParse (lineBytes [headerLine N header, line]) :
      Except OpenError (Option (V4Storage N))) = .error (.invalidLine 2 (.record reason)) := by
  have lines : ∀ other ∈ [headerLine N header, line], '\n' ∉ other := by
    simp [headerLine_single, single]
  have noTail : newlineByte ∉ ([] : List UInt8) := not_mem_nil
  have text := splitLines_decode_cut lines noTail
  have split := splitCompleteLines_cut lines (cons_ne_nil _ _) noTail
  rw [append_nil] at text split
  rw [openStorage, readJsonlHeader, text]
  simp [headerLine_ne_nil, parseJsonlSessionHeader_headerLine dateParse valid, Except.mapError,
    openV4, split, version, replayLines, replayLine, bad, Except.map]

/-- The note session after an append that stopped after one byte. -/
def tornStorage : V4Storage Int := ((bareStorage noteHeader).commit noteWrites 7 (some 1)).1

/-- The same session after a further commit that is acknowledged. -/
def gluedStorage : V4Storage Int := (tornStorage.commit noteWrites 8 none).1

theorem tornStorage_file : tornStorage.file = lineBytes [headerLine Int noteHeader] ++ encode ['{'] := by
  obtain ⟨rest, record⟩ := serializeJsonlTransaction_one (N := Int) (.valueSet 1 "note" "k" .null)
  have appended : tornStorage.file = lineBytes [headerLine Int noteHeader] ++
      (transactionBytes [.valueSet 1 "note" "k" (.null : Json Int)]).take 1 := rfl
  rw [appended, transactionBytes, record]
  rfl

theorem bareStorage_past : Past (fun _ => none) [bareStorage noteHeader]
    (bareStorage noteHeader : V4Storage Int) := by
  have created : create noteHeader ([] : List (JsonlWrite Int)) 0 = .ok (bareStorage noteHeader) := by
    simp [create, bareStorage, lineBytes, joinLines, prepareCommit,
      validateCommitted_nil, prepareStorageCommit, commitWrites, applyValidated]
  exact .created rfl rfl created

/-- Reopened at once, the torn session is what it was before the failed commit. -/
theorem soundRun_reopens_torn :
    (∀ writes now written, writes ≠ [] →
      ∃ failure, (tornStorage.commit writes now (some written)).2 = .error failure ∧
        (tornStorage.commit writes now (some written)).1.state = tornStorage.state) ∧
    tornStorage.state = produced (bareStorage noteHeader).state [] ∧
    ∃ file, (openStorage (fun _ => none) tornStorage.file : Except OpenError (Option (V4Storage Int))) =
      .ok (some { header := noteHeader, file := file, state := .initial }) := by
  have ended : (bareStorage noteHeader).commit noteWrites 7 (some 1) =
    (tornStorage, .error .append) := rfl
  refine soundRun_reopens bareStorage_past (.rejected .start ?_ ended)
  rintro prepared ready -
  obtain ⟨-, rfl⟩ := (InMemoryStorageState.prepareCommit_ok_iff _ _ _ _).mp ready
  obtain ⟨rest, record⟩ := serializeJsonlTransaction_one (N := Int) (.valueSet 1 "note" "k" .null)
  change 1 < (transactionBytes [.valueSet 1 "note" "k" (.null : Json Int)]).length
  rw [transactionBytes_eq, lineBytes_singleton, record, Utf8.encode_cons]
  have brace : (String.utf8EncodeChar '{').length = 1 := rfl
  simp only [List.length_append, List.length_singleton]
  omega

/-- A commit acknowledged after the torn append makes the file unreadable. -/
theorem acknowledged_after_torn_append_lost :
    (∃ result, (tornStorage.commit noteWrites 8 none).2 = .ok result) ∧
      (openStorage (fun _ => none) gluedStorage.file : Except OpenError (Option (V4Storage Int))) =
        .error (.invalidLine 2 (.record .notJson)) := by
  refine ⟨⟨_, rfl⟩, ?_⟩
  obtain ⟨rest, record⟩ := serializeJsonlTransaction_one (N := Int) (.valueSet 1 "note" "k" .null)
  have grown : gluedStorage.file = tornStorage.file ++
      transactionBytes [.valueSet 1 "note" "k" (.null : Json Int)] := rfl
  have glued : gluedStorage.file = lineBytes [headerLine Int noteHeader, '{' :: '{' :: rest] := by
    rw [grown, tornStorage_file, transactionBytes, record]
    simp [lineBytes, joinLines, Utf8.encode_cons]
  rw [glued]
  refine openStorage_bad_line ⟨by decide, by decide⟩ rfl ?_ (parseJsonlTransaction_glued rest)
  have single := serializeJsonlTransaction_single [.valueSet 1 "note" "k" (.null : Json Int)]
  rw [record] at single
  simpa using single

end Trpi.Session.Jsonl
