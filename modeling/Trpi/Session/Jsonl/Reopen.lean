import Trpi.Library.JsonInt
import Trpi.Session.Jsonl.Log

/-!
# Reopening a cut session file

A session file starts as a published header, possibly with published
transactions, and grows by acknowledged commits. Cutting it anywhere after its
header line and opening the rest gives the storage of the last line that the cut
left whole, and that storage can be committed to and reopened again.
-/

namespace Trpi.Session.Jsonl

open Library V4Storage InMemoryStorageState List
open Library.Utf8 (encode newlineByte)

variable {N : Type} [JsonNumber N] [Add N] [Zero N]

omit [Add N] [Zero N] in
theorem transactionBytes_eq (writes : List (JsonlCommittedWrite N)) :
    transactionBytes writes = lineBytes [serializeJsonlTransaction writes] := by
  simp [transactionBytes, lineBytes, joinLines]

omit [Add N] [Zero N] [JsonNumber N] in
theorem commitWrites_eq_nil_iff (writes : List (JsonlWrite N)) (firstSeq now : Nat) :
    commitWrites writes firstSeq now = [] ↔ writes = [] := by
  cases writes <;> simp [commitWrites]

variable {s next : V4Storage N} {now cut : Nat} {fault : Option Nat} {result : CommitResult N}
  {header : JsonlStorageHeader} {past : List (V4Storage N)} {writes : List (JsonlWrite N)}

/-- An acknowledged commit either writes nothing or appends the line of the
transaction it applies. -/
theorem V4Storage.commit_ok (acknowledged : s.commit writes now fault = (next, .ok result)) :
    s.state.validateCommitted (commitWrites writes s.state.nextSeq now) = .ok () ∧
      s.state.applyValidated (commitWrites writes s.state.nextSeq now) =
        (next.state, .ok next.state.stats) ∧
      next.header = s.header ∧
      next.file = s.file ++
        (if writes = [] then []
        else transactionBytes (commitWrites writes s.state.nextSeq now)) ∧
      (writes = [] ∨ fault = none) := by
  unfold commit at acknowledged
  cases prepared : s.state.prepareCommit writes now with
  | error reason => simp [prepared] at acknowledged
  | ok ready =>
    obtain ⟨valid, rfl⟩ := (s.state.prepareCommit_ok_iff writes now ready).mp prepared
    have attempted : writes = [] ∨ fault = none := by
      cases writes with
      | nil => exact .inl rfl
      | cons write rest =>
        cases fault with
        | none => exact .inr rfl
        | some written => simp [prepared, prepareStorageCommit, commitWrites] at acknowledged
    simp only [prepared, prepareStorageCommit, commitWrites_eq_nil_iff] at acknowledged
    split at acknowledged
    · simp at acknowledged
    · split at acknowledged
      · simp at acknowledged
      · next reached stats applied =>
        simp only [Prod.mk.injEq, Except.ok.injEq] at acknowledged
        obtain ⟨rfl, rfl⟩ := acknowledged
        have totals := applyValidated_ok_stats applied
        subst totals
        exact ⟨valid, applied, rfl, rfl, attempted⟩

theorem V4Storage.commit_ok_result (acknowledged : s.commit writes now fault = (next, .ok result)) :
    s.state.commit writes now = (next.state, .ok result) := by
  obtain ⟨valid, applied, -, -, attempted⟩ := commit_ok acknowledged
  have prepared := (s.state.prepareCommit_ok_iff writes now _).mpr ⟨valid, rfl⟩
  have ready : s.state.applyValidated (prepareStorageCommit writes s.state.nextSeq
      now).writes = (next.state, .ok next.state.stats) := applied
  unfold commit at acknowledged
  rw [prepared] at acknowledged
  rw [InMemoryStorageState.commit, prepared]
  simp only [ready] at acknowledged ⊢
  split at acknowledged
  · simp at acknowledged
  · simp only [Prod.mk.injEq, Except.ok.injEq] at acknowledged
    rw [acknowledged.2]

theorem V4Storage.commit_refused {reason : CommitError}
    (ended : s.commit writes now fault = (next, .error (.refused reason))) : next = s := by
  unfold commit at ended
  split at ended
  · exact (Prod.mk.inj ended).1.symm
  · simp only at ended
    split at ended
    · simp at ended
    · split at ended <;> simp at ended

theorem V4Storage.commit_ne_publish (s : V4Storage N) (writes : List (JsonlWrite N)) (now : Nat)
    (fault : Option Nat) : (s.commit writes now fault).2 ≠ .error .publish := by
  unfold commit
  split
  · simp
  · simp only
    split
    · simp
    · split <;> simp

theorem V4Storage.commit_nothing (acknowledged : s.commit [] now fault = (next, .ok result)) :
    next = s := by
  obtain ⟨-, applied, sameHeader, sameFile, -⟩ := commit_ok acknowledged
  simp only [commitWrites, applyValidated, Prod.mk.injEq] at applied
  cases next
  cases s
  simp_all

/-- A storage whose file is exactly these lines. -/
structure Logged (dateParse : String → Option Int) (lines : List (List Char))
    (s : V4Storage N) : Prop where
  log : Log dateParse lines s.header s.state
  file : s.file = lineBytes lines

variable {dateParse : String → Option Int} {lines : List (List Char)} {s next : V4Storage N}

theorem Logged.reopens (logged : Logged dateParse lines s) {tail : List UInt8}
    (unterminated : newlineByte ∉ tail) :
    openStorage dateParse (s.file ++ tail) = .ok (some s) := by
  rw [logged.file, logged.log.open_cut unterminated, ← logged.file]

theorem Logged.reopens_file (logged : Logged dateParse lines s) :
    openStorage dateParse s.file = .ok (some s) := by
  have noTail : newlineByte ∉ ([] : List UInt8) := not_mem_nil
  have opened := logged.reopens noTail
  rwa [append_nil] at opened

theorem logged_of_open (single : ∀ line ∈ lines, '\n' ∉ line)
    (opened : openStorage dateParse (lineBytes lines) = .ok (some s)) :
    Logged dateParse lines s :=
  ⟨(log_of_open single opened).1, (log_of_open single opened).2⟩

theorem Log.commit (log : Log dateParse lines header s.state) (file : s.file = lineBytes lines)
    (acknowledged : s.commit writes now fault = (next, .ok result)) :
    next = s ∨ ∃ batch : List (JsonlCommittedWrite N), batch ≠ [] ∧
      (∀ write ∈ batch, s.state.nextSeq ≤ write.seq) ∧
      Log dateParse (lines ++ [serializeJsonlTransaction batch]) header next.state ∧
      next.file = lineBytes (lines ++ [serializeJsonlTransaction batch]) := by
  obtain ⟨valid, applied, -, grown, -⟩ := commit_ok acknowledged
  by_cases empty : writes = []
  · subst empty
    exact .inl (commit_nothing acknowledged)
  · have nonempty := mt (commitWrites_eq_nil_iff writes s.state.nextSeq now).mp empty
    have positive := commitWrites_positive s.state log.invariant.positive writes now
    rw [if_neg empty, file, transactionBytes_eq, ← lineBytes_append] at grown
    exact .inr ⟨_, nonempty, (validateCommittedWrites_seqs valid).1,
      log.append nonempty positive valid applied, grown⟩

theorem Logged.commit (logged : Logged dateParse lines s)
    (acknowledged : s.commit writes now fault = (next, .ok result)) :
    next = s ∨ ∃ batch : List (JsonlCommittedWrite N), batch ≠ [] ∧
      (∀ write ∈ batch, s.state.nextSeq ≤ write.seq) ∧
      Logged dateParse (lines ++ [serializeJsonlTransaction batch]) next := by
  have sameHeader := (commit_ok acknowledged).2.2.1
  rcases logged.log.commit logged.file acknowledged with
    same | ⟨batch, nonempty, later, extended, grown⟩
  · exact .inl same
  · exact .inr ⟨batch, nonempty, later, by rwa [sameHeader], grown⟩

/-- A session file that holds a header alone. -/
def bareStorage (header : JsonlStorageHeader) : V4Storage N where
  header := header
  file := lineBytes [headerLine N header]
  state := .initial

/-- Creating publishes the header and commits the initial writes. -/
theorem create_eq_commit {initialWrites : List (JsonlWrite N)} {start : V4Storage N}
    (created : create header initialWrites now = .ok start) :
    ∃ result, (bareStorage header).commit initialWrites now none = (start, .ok result) := by
  unfold create at created
  unfold V4Storage.commit
  have bareFile : (bareStorage header : V4Storage N).file = encode (headerLine N header ++ ['\n']) := by
    simp [bareStorage, lineBytes, joinLines]
  cases prepared : (initial : JsonlState N).prepareCommit initialWrites now with
  | error reason => simp [prepared] at created
  | ok ready =>
    have bareState : (bareStorage header : V4Storage N).state = .initial := rfl
    rw [prepared] at created
    rw [bareState, prepared, bareFile]
    simp only at created ⊢
    split at created
    · cases created
    · next s stats applied =>
      simp only [Except.ok.injEq] at created
      subst created
      cases ready.writes <;> simp [bareStorage]

theorem bareStorage_logged (valid : header.Valid)
    (version : header.storageVersion = jsonlStorageVersion) (noMark : header.nextSeq = none) :
    Logged (N := N) dateParse [headerLine N header] (bareStorage header) where
  log :=
    { single := by simpa using headerLine_single header
      headed := ⟨headerLine N header, rfl, headerLine_ne_nil header,
        parseJsonlSessionHeader_headerLine dateParse valid⟩
      version := version
      replays := ⟨.initial, rfl, by
        rw [show (bareStorage header : V4Storage N).header = header from rfl, noMark]
        rfl⟩ }
  file := rfl

/-- The storages a session file has stood for, oldest first, and the present one.
A file begins with its header line; `published` adds a line that was already in
the file when it was opened, `committed` an acknowledged commit. -/
inductive Past (dateParse : String → Option Int) : List (V4Storage N) → V4Storage N → Prop where
  | header {first : List Char} {bare : V4Storage N} (single : '\n' ∉ first)
      (opened : openStorage dateParse (lineBytes [first]) = .ok (some bare)) :
      Past dateParse [] bare
  | created {header : JsonlStorageHeader} {initialWrites : List (JsonlWrite N)} {now : Nat}
      {start : V4Storage N} (version : header.storageVersion = jsonlStorageVersion)
      (noMark : header.nextSeq = none) (created : create header initialWrites now = .ok start) :
      Past dateParse [bareStorage header] start
  | published {past : List (V4Storage N)} {s next : V4Storage N} {line : List Char}
      (before : Past dateParse past s) (single : '\n' ∉ line)
      (opened : openStorage dateParse (s.file ++ lineBytes [line]) = .ok (some next)) :
      Past dateParse (past ++ [s]) next
  | committed {past : List (V4Storage N)} {s next : V4Storage N} {writes : List (JsonlWrite N)}
      {now : Nat} {result : CommitResult N} (before : Past dateParse past s)
      (acknowledged : s.commit writes now none = (next, .ok result)) :
      Past dateParse (past ++ [s]) next

/-- Acknowledged commits lead from one storage to another. -/
inductive Commits : V4Storage N → V4Storage N → Prop where
  | refl (s : V4Storage N) : Commits s s
  | step {s next last : V4Storage N} {writes : List (JsonlWrite N)} {now : Nat}
      {result : CommitResult N} (acknowledged : s.commit writes now none = (next, .ok result))
      (rest : Commits next last) : Commits s last

theorem Logged.commits {last : V4Storage N} (commits : Commits s last)
    (logged : Logged dateParse lines s) : ∃ more, Logged dateParse (lines ++ more) last := by
  induction commits generalizing lines with
  | refl s => exact ⟨[], by rwa [append_nil]⟩
  | step acknowledged rest ih =>
    rcases logged.commit acknowledged with rfl | ⟨batch, -, -, extended⟩
    · exact ih logged
    · obtain ⟨more, final⟩ := ih extended
      exact ⟨_, by rwa [append_assoc] at final⟩

/-- The cut file opens to the last storage of a past that the cut left whole, and
every later commit on that storage reopens too. -/
def OpensAtCut (dateParse : String → Option Int) (storages : List (V4Storage N))
    (file : List UInt8) (cut : Nat) : Prop :=
  ∃ earlier survivor later, storages = earlier ++ survivor :: later ∧
    survivor.file.length ≤ cut ∧ (∀ s ∈ later, cut < s.file.length) ∧
    openStorage dateParse (file.take cut) = .ok (some survivor) ∧
    ∀ last, Commits survivor last → openStorage dateParse last.file = .ok (some last)

theorem Logged.opensAtCut_last (logged : Logged dateParse lines s)
    (past : List (V4Storage N)) (whole : s.file.length ≤ cut) :
    OpensAtCut dateParse (past ++ [s]) s.file cut := by
  refine ⟨past, s, [], rfl, whole, by simp, ?_, fun last commits => ?_⟩
  · rw [take_of_length_le whole]
    exact logged.reopens_file
  · obtain ⟨more, final⟩ := logged.commits commits
    exact final.reopens_file

/-- One more line: a cut inside it falls back to the storage before it, an earlier
cut to what that storage falls back to. -/
theorem OpensAtCut.extend (logged : Logged dateParse lines s) {line : List Char}
    (single : '\n' ∉ line) (extended : Logged dateParse (lines ++ [line]) next)
    (before : OpensAtCut dateParse (past ++ [s]) s.file cut) :
    OpensAtCut dateParse (past ++ [s] ++ [next]) next.file cut := by
  by_cases whole : next.file.length ≤ cut
  · exact extended.opensAtCut_last _ whole
  · rw [Nat.not_le] at whole
    by_cases reached : s.file.length ≤ cut
    · have singles : ∀ other ∈ [line], '\n' ∉ other := by simpa using single
      have short : ∀ other ∈ [line].head?, cut < (lineBytes (lines ++ [other])).length := by
        rintro other ⟨⟩
        rwa [← extended.file]
      obtain ⟨tail, taken, unterminated⟩ := take_lineBytes singles (by rwa [← logged.file]) short
      refine ⟨past, s, [next], by simp, reached, by simpa using whole, ?_, ?_⟩
      · rw [extended.file, taken, ← logged.file]
        exact logged.reopens unterminated
      · intro last commits
        obtain ⟨more, final⟩ := logged.commits commits
        exact final.reopens_file
    · obtain ⟨earlier, survivor, later, split, fits, beyond, opened, reopens⟩ := before
      have sameCut : next.file.take cut = s.file.take cut := by
        rw [extended.file, lineBytes_append, ← logged.file, take_append_of_le_length (by omega)]
      refine ⟨earlier, survivor, later ++ [next], by simp [split], fits, ?_, by rwa [sameCut],
        reopens⟩
      intro other mem
      rcases mem_append.mp mem with earlier | last
      · exact beyond other earlier
      · rwa [mem_singleton.mp last]

theorem OpensAtCut.repeat (logged : Logged dateParse lines s)
    (before : OpensAtCut dateParse (past ++ [s]) s.file cut) :
    OpensAtCut dateParse (past ++ [s] ++ [s]) s.file cut := by
  by_cases whole : s.file.length ≤ cut
  · exact logged.opensAtCut_last _ whole
  · obtain ⟨earlier, survivor, later, split, fits, beyond, opened, reopens⟩ := before
    refine ⟨earlier, survivor, later ++ [s], by simp [split], fits, ?_, opened, reopens⟩
    intro other mem
    rcases mem_append.mp mem with earlier | last
    · exact beyond other earlier
    · rw [mem_singleton.mp last]
      omega

/-- Storages of a past: what they are logged as and what cuts of their file open to. -/
structure Recorded (dateParse : String → Option Int) (past : List (V4Storage N))
    (s : V4Storage N) : Prop where
  logged : ∃ lines, Logged dateParse lines s
  cuts : ∀ cut, (∀ first ∈ (past ++ [s]).head?, first.file.length ≤ cut) →
    OpensAtCut dateParse (past ++ [s]) s.file cut

theorem Recorded.commit (recorded : Recorded dateParse past s)
    (acknowledged : s.commit writes now none = (next, .ok result)) :
    Recorded dateParse (past ++ [s]) next := by
  obtain ⟨lines, logged⟩ := recorded.logged
  have head : (past ++ [s] ++ [next]).head? = (past ++ [s]).head? :=
    head?_append_of_ne_nil _ (by simp)
  rcases logged.commit acknowledged with rfl | ⟨batch, -, -, extended⟩
  · exact ⟨⟨_, logged⟩, fun cut after => (recorded.cuts cut (by rwa [head] at after)).repeat logged⟩
  · exact ⟨⟨_, extended⟩, fun cut after => (recorded.cuts cut (by rwa [head] at after)).extend
      logged (serializeJsonlTransaction_single batch) extended⟩

theorem recorded_alone (logged : Logged dateParse lines s) : Recorded dateParse [] s :=
  ⟨⟨_, logged⟩, fun _ after => logged.opensAtCut_last [] (after s rfl)⟩

theorem Past.recorded (history : Past dateParse past s) : Recorded dateParse past s := by
  induction history with
  | header single opened => exact recorded_alone (logged_of_open (by simpa using single) opened)
  | @created header initialWrites now start version noMark created =>
    have valid : header.Valid := ⟨by rw [version]; decide, by simp [noMark]⟩
    obtain ⟨result, acknowledged⟩ := create_eq_commit created
    exact (recorded_alone (bareStorage_logged valid version noMark)).commit acknowledged
  | published before single opened recorded =>
    obtain ⟨lines, logged⟩ := recorded.logged
    rw [logged.file, ← lineBytes_append] at opened
    have extended := logged_of_open (fun other mem => by
      rcases mem_append.mp mem with earlier | last
      · exact logged.log.single other earlier
      · rwa [mem_singleton.mp last]) opened
    refine ⟨⟨_, extended⟩, fun cut after => (recorded.cuts cut ?_).extend logged single extended⟩
    rwa [head?_append_of_ne_nil _ (by simp)] at after
  | committed before acknowledged recorded => exact recorded.commit acknowledged

/-- Wherever the file is cut after its header line, it opens to exactly the storage
of the last commit the cut left whole, and so do later commits on that storage. -/
theorem open_cut_file {past : List (V4Storage N)} (history : Past dateParse past s) {cut : Nat}
    (afterHeader : ∀ first ∈ (past ++ [s]).head?, first.file.length ≤ cut) :
    ∃ earlier survivor later, past ++ [s] = earlier ++ survivor :: later ∧
      survivor.file.length ≤ cut ∧ (∀ other ∈ later, cut < other.file.length) ∧
      openStorage dateParse (s.file.take cut) = .ok (some survivor) ∧
      ∀ last, Commits survivor last → openStorage dateParse last.file = .ok (some last) :=
  history.recorded.cuts cut afterHeader

def noteHeader : JsonlStorageHeader where
  id := "s1"
  storageVersion := jsonlStorageVersion
  createdAt := 0
  cwd := "/"
  parentSessionId := none
  legacyParentSessionPath := none
  nextSeq := none

def noteWrites : List (JsonlWrite Int) := [.valueSet "note" "k" .null]

/-- Cut inside its only record, the session opens empty. -/
theorem open_cut_file_note :
    ∃ start, create noteHeader noteWrites 7 = .ok start ∧
      OpensAtCut (fun _ => none) [bareStorage noteHeader, start] start.file
        ((bareStorage noteHeader : V4Storage Int).file.length + 3) := by
  obtain ⟨start, created⟩ : ∃ start, create noteHeader noteWrites 7 = .ok start := ⟨_, rfl⟩
  exact ⟨start, created, open_cut_file (.created rfl rfl created) (by simp)⟩

end Trpi.Session.Jsonl
