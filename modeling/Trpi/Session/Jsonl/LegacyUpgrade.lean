import Trpi.Session.Jsonl.LegacyStorage

/-!
# The upgrade preserves a legacy session

A session opened on a version-3 file shows its imported usage in place of the
stored totals. The upgrade gives that usage a row, and from then on the session
behaves as if the caller's commits had been applied in memory after the row: same
results, same state, and the published file reopens to it.
-/

namespace Trpi.Session.Jsonl

open Library LegacyV3Source InMemoryStorageState JsonlStorage List Except
open Library.Utf8 (decode newlineByte)

variable {N : Type} [JsonNumber N] [AddZeroClass N]

structure Acknowledged (N : Type) where
  writes : List (JsonlWrite N)
  now : Nat
  result : CommitResult N

/-- The in-memory commits of these batches return these results and end in `last`. -/
inductive Produces : JsonlState N → List (Acknowledged N) → JsonlState N → Prop where
  | nil (state : JsonlState N) : Produces state [] state
  | snoc {state next last : JsonlState N} {commits : List (Acknowledged N)}
      {commit : Acknowledged N} (before : Produces state commits next)
      (ended : next.commit commit.writes commit.now = (last, .ok commit.result)) :
      Produces state (commits ++ [commit]) last

/-- Commits and reopenings of a session opened on a version-3 file. A commit is
acknowledged, refused, or fails to publish the upgraded file. -/
inductive LegacyRun (dateParse : String → Option Int) (opened : V3Storage N) :
    JsonlStorage N → List (Acknowledged N) → Prop where
  | start : LegacyRun dateParse opened (.v3 opened) []
  | acknowledged {current next : JsonlStorage N} {commits : List (Acknowledged N)}
      {adjustmentId : String} {commit : Acknowledged N} {fault : Option Nat}
      (before : LegacyRun dateParse opened current commits)
      (ended : current.commit dateParse adjustmentId commit.writes commit.now fault =
        (next, .ok commit.result)) : LegacyRun dateParse opened next (commits ++ [commit])
  | refused {current next : JsonlStorage N} {commits : List (Acknowledged N)}
      {adjustmentId : String} {writes : List (JsonlWrite N)} {now : Nat} {fault : Option Nat}
      {reason : CommitError} (before : LegacyRun dateParse opened current commits)
      (ended : current.commit dateParse adjustmentId writes now fault =
        (next, .error (.refused reason))) : LegacyRun dateParse opened next commits
  | unpublished {current next : JsonlStorage N} {commits : List (Acknowledged N)}
      {adjustmentId : String} {writes : List (JsonlWrite N)} {now : Nat} {fault : Option Nat}
      (before : LegacyRun dateParse opened current commits)
      (ended : current.commit dateParse adjustmentId writes now fault = (next, .error .publish)) :
      LegacyRun dateParse opened next commits
  | reopened {storage next : V4Storage N} {commits : List (Acknowledged N)}
      (before : LegacyRun dateParse opened (.v4 storage) commits)
      (reads : openStorage dateParse storage.file = .ok (some next)) :
      LegacyRun dateParse opened (.v4 next) commits

section

omit [JsonNumber N] [AddZeroClass N]

theorem numberValues_sets (seq : Nat) (values : List (String × String × Json N)) :
    ∀ write ∈ numberValues seq values, ∀ row, write ≠ .usage row := by
  induction values generalizing seq with
  | nil => simp [numberValues]
  | cons head rest ih =>
    intro write mem row
    rcases mem_cons.mp mem with rfl | mem
    · exact nofun
    · exact ih (seq + 1) write mem row

theorem normalizeLegacyV3Values_sets {inventory : LegacyV3Inventory N}
    {values : List (JsonlCommittedWrite N)}
    (normalized : normalizeLegacyV3Values inventory = .ok values) :
    ∀ write ∈ values, ∀ row, write ≠ .usage row := by
  obtain ⟨labels, -, rest⟩ := bind_eq_ok normalized
  obtain ⟨tip, -, numbered⟩ := bind_eq_ok rest
  rw [← ok.inj numbered]
  exact numberValues_sets _ _

end

variable {dateParse : String → Option Int} {file : List UInt8} {adjustmentId : String} {now : Nat}
  {fault : Option Nat} {writes : List (JsonlWrite N)} {resolveParent : String → Option String}
  {source : LegacyV3Source N} {result : CommitResult N} {mint : Nat → String}
  {storage : V3Storage N} {next : JsonlStorage N}

theorem read_ok (captured : read dateParse resolveParent mint file = .ok source) :
    source.header.storageVersion = jsonlStorageVersion ∧
      ∀ write ∈ source.values, ∀ row, write ≠ .usage row := by
  unfold LegacyV3Source.read at captured
  split at captured
  · cases captured
  · cases captured
  split at captured
  · cases captured
  split at captured
  · cases captured
  next values normalized =>
  split at captured
  · cases captured
  next header converted =>
  rw [← ok.inj captured]
  refine ⟨?_, normalizeLegacyV3Values_sets normalized⟩
  unfold normalizeLegacyV3Header at converted
  split at converted
  · cases converted
  split at converted
  · rw [← Option.some.inj converted]
  · cases converted

omit [AddZeroClass N] in
theorem writes_ok {isEntrySelected : String → Bool} {writes : List (JsonlCommittedWrite N)}
    (materialized : source.writes dateParse file isEntrySelected = .ok writes) :
    ∃ entries : List (JsonlEntry N), writes = entries.map .entry ++ source.values := by
  obtain ⟨required, -, rest⟩ := bind_eq_ok materialized
  obtain ⟨records, -, rest⟩ := bind_eq_ok rest
  obtain ⟨pass, -, yielded⟩ := bind_eq_ok rest
  exact ⟨pass.entries, (ok.inj yielded).symm⟩

structure OpenedLegacy (dateParse : String → Option Int) (storage : V3Storage N) : Prop where
  version : storage.header.storageVersion = jsonlStorageVersion
  replays : ∃ writes, storage.source.writes dateParse storage.file (fun _ => true) = .ok writes ∧
    (∀ write ∈ writes, ∀ row, write ≠ .usage row) ∧
    run replayCommitted .initial (writes.map fun write => [write]) = .ok storage.state

theorem openLegacyV3_ok (opened : openLegacyV3 dateParse resolveParent mint file = .ok storage) :
    OpenedLegacy dateParse storage := by
  unfold openLegacyV3 at opened
  split at opened
  · cases opened
  next source captured =>
  split at opened
  · cases opened
  next writes materialized =>
  split at opened
  · cases opened
  next s ran =>
  rw [← ok.inj opened]
  obtain ⟨version, sets⟩ := read_ok captured
  refine ⟨version, writes, materialized, ?_, ran⟩
  obtain ⟨entries, rfl⟩ := writes_ok materialized
  intro write mem row
  rcases mem_append.mp mem with e | v
  · obtain ⟨inserted, -, rfl⟩ := mem_map.mp e
    exact nofun
  · exact sets write v row

omit [JsonNumber N] in
theorem replay_usage {writes : List (JsonlCommittedWrite N)} {s last : JsonlState N}
    (noUsage : ∀ write ∈ writes, ∀ row, write ≠ .usage row)
    (ran : run replayCommitted s (writes.map fun write => [write]) = .ok last) :
    last.stats.usage = s.stats.usage := by
  induction writes generalizing s with
  | nil => rw [← ok.inj ran]
  | cons write rest ih =>
    obtain ⟨next, replayed, ran⟩ := run_cons_eq_ok.mp ran
    rw [ih (fun other mem => noUsage other (mem_cons_of_mem _ mem)) ran]
    obtain ⟨-, applied⟩ := (replayCommitted_one_iff s next write).mp replayed
    obtain ⟨reached, body, rfl⟩ := applyWrite_ok applied
    cases write with
    | entry entry =>
      rw [← ok.inj body]
      split <;> rfl
    | usage row => exact absurd rfl (noUsage _ mem_cons_self row)
    | valueSet seq ns key v =>
      obtain ⟨address, -, -, rfl⟩ := applyValueSet_ok body
      rfl
    | valueDelete seq ns key => rw [← ok.inj body]
    | listAppend seq ns key v => rw [applyListAppend_frame body]
    | listDelete seq ns key => rw [← ok.inj body]

/-- The session in memory right after its usage adjustment. -/
def V3Storage.adjusted (s : V3Storage N) (adjustmentId : String) : JsonlState N :=
  { s.state with
    usage := s.state.usage.set adjustmentId
      { id := adjustmentId
        seq := s.state.nextSeq
        usage := s.source.importedUsage
        entryId := none
        adjustment := true
        details := some (.obj [("source", .str "v3-import")]) }
    stats :=
      { s.state.stats with
        usage := addUsage s.state.stats.usage s.source.importedUsage }
    nextSeq := s.state.nextSeq + 1 }

theorem OpenedLegacy.view_adjusted {s : V3Storage N}
    (opened : OpenedLegacy dateParse s) (adjustmentId : String) :
    viewOf (s.adjusted adjustmentId) = { (v3 s).view with nextSeq := s.state.nextSeq + 1 } := by
  obtain ⟨writes, -, noUsage, ran⟩ := opened.replays
  have untouched : s.state.stats.usage = emptyUsage := replay_usage noUsage ran
  simp only [viewOf, V3Storage.adjusted, view, V3Storage.withImportedUsage, untouched,
    emptyUsage_addUsage]
  rfl

/-- A format-4 storage whose file reopens to its state. -/
def Written (dateParse : String → Option Int) (s : V4Storage N) : Prop :=
  ∃ header lines, Log dateParse lines header s.state ∧ s.file = lineBytes lines

theorem upgraded_log {header : JsonlStorageHeader} {sourceWrites : List (JsonlCommittedWrite N)}
    {before after : JsonlState N} {batch : List (JsonlCommittedWrite N)}
    (ran : run replayCommitted .initial (sourceWrites.map fun write => [write]) = .ok before)
    (replayed : replayCommitted before batch = .ok after)
    (version : header.storageVersion = jsonlStorageVersion)
    (mark : header.nextSeq = some after.nextSeq) :
    Log dateParse (publishedLines header ((sourceWrites.map fun write => [write]) ++ [batch])) header
      after := by
  have replays : run replayCommitted .initial ((sourceWrites.map fun write => [write]) ++ [batch]) =
      .ok after := by
    rw [run_append_ok ran, run_cons_ok replayed, run_nil]
  have positive : 1 ≤ after.nextSeq := (run_invariant StoreInvariant
    (fun _ _ _ _ inv replayed => replayCommitted_invariant inv replayed)
    initial_invariant replays).positive
  apply published_log ⟨version ▸ Nat.le_refl 1, ?_⟩ version replays
  · rw [mark]
    apply (advanceTo_ok_iff _ _ _).mpr
    constructor
    · rintro n ⟨⟩
      exact positive
    · rw [Option.getD_some, Nat.max_self, withNextSeq_self]
  · rw [mark]
    rintro n ⟨⟩
    exact positive

theorem OpenedLegacy.upgrade (opened : OpenedLegacy dateParse storage)
    (ended : storage.upgrade dateParse adjustmentId writes now fault = (next, .ok result)) :
    ∃ upgraded, next = .v4 upgraded ∧ Written dateParse upgraded ∧
      (storage.adjusted adjustmentId).commit writes now = (upgraded.state, .ok result) := by
  obtain ⟨sourceWrites, materialized, -, ran⟩ := opened.replays
  unfold V3Storage.upgrade at ended
  cases prepared : storage.state.prepareCommit (storage.adjustment adjustmentId :: writes) now with
  | error reason => simp [prepared] at ended
  | ok ready =>
    obtain ⟨valid, rfl⟩ := (storage.state.prepareCommit_ok_iff _ now ready).mp prepared
    rw [prepared, materialized] at ended
    cases fault with
    | some written => simp at ended
    | none =>
      simp only at ended
      split at ended
      · simp at ended
      next s stats applied =>
      obtain ⟨rfl, same⟩ := Prod.mk.inj ended
      cases same
      have replayed : replayCommitted storage.state (commitWrites
          (storage.adjustment adjustmentId :: writes) storage.state.nextSeq now) = .ok s :=
        (replayCommitted_ok_iff _ _ _).mpr ⟨valid, stats, applied⟩
      have moved := applyValidated_commitWrites_nextSeq applied
      have marked : some (storage.state.nextSeq + (commitWrites (storage.adjustment adjustmentId ::
          writes) storage.state.nextSeq now).length) = some s.nextSeq := by
        rw [moved, commitWrites_length]
      have log : Log dateParse (publishedLines (storage.upgradedHeader _) _)
        (storage.upgradedHeader _) s := upgraded_log ran replayed opened.version marked
      refine ⟨_, rfl, ⟨_, _, log, rfl⟩, ?_⟩
      · have adjust : storage.state.applyWrite (commitWrite (storage.adjustment adjustmentId)
            storage.state.nextSeq now) = .ok (storage.adjusted adjustmentId) := rfl
        have later := ((validateCommitted_cons_iff adjust _).mp valid).2
        have again := (prepareCommit_ok_iff (storage.adjusted adjustmentId)
          writes now _).mpr ⟨later, rfl⟩
        have caller : (storage.adjusted adjustmentId).applyValidated (prepareStorageCommit writes
            (storage.adjusted adjustmentId).nextSeq now).writes = (s, .ok stats) := applied
        rw [InMemoryStorageState.commit, again]
        simp only [caller]
        rfl

/-- A commit before the upgrade: it wrote nothing and reported the imported usage. -/
def Idle (opened : V3Storage N) (commit : Acknowledged N) : Prop :=
  commit.writes = [] ∧ commit.result.seqs = [] ∧
    commit.result.stats = (JsonlStorage.v3 opened).view.stats

/-- The two states a legacy session can be in: still on its version-3 file, or on a
format-4 file that holds the adjusted session and the caller's commits since. -/
inductive Preserved (dateParse : String → Option Int) (opened : V3Storage N) :
    JsonlStorage N → List (Acknowledged N) → Prop where
  | legacy {commits : List (Acknowledged N)} (idle : ∀ commit ∈ commits, Idle opened commit) :
      Preserved dateParse opened (.v3 opened) commits
  | upgraded {storage : V4Storage N} {idle caller : List (Acknowledged N)} {adjustmentId : String}
      (before : ∀ commit ∈ idle, Idle opened commit)
      (produced : Produces (opened.adjusted adjustmentId) caller storage.state)
      (written : Written dateParse storage) :
      Preserved dateParse opened (.v4 storage) (idle ++ caller)

variable {dateParse : String → Option Int} {opened : V3Storage N} {commits : List (Acknowledged N)}

theorem Written.reopens {s : V4Storage N} (written : Written dateParse s) :
    ∃ header, openStorage dateParse s.file =
      .ok (some { header := header, file := s.file, state := s.state }) := by
  obtain ⟨header, lines, log, file⟩ := written
  exact ⟨header, by rw [file, log.open_file]⟩

theorem Written.commit {s next : V4Storage N} (written : Written dateParse s)
    (acknowledged : s.commit writes now fault = (next, .ok result)) : Written dateParse next := by
  obtain ⟨header, lines, log, file⟩ := written
  rcases log.commit file acknowledged with rfl | ⟨batch, -, -, extended, grown⟩
  · exact ⟨header, lines, log, file⟩
  · exact ⟨header, _, extended, grown⟩

theorem Preserved.acknowledged (legacy : OpenedLegacy dateParse opened)
    {current next : JsonlStorage N}
    (preserved : Preserved dateParse opened current commits) {commit : Acknowledged N}
    (ended : current.commit dateParse adjustmentId commit.writes commit.now fault =
      (next, .ok commit.result)) : Preserved dateParse opened next (commits ++ [commit]) := by
  cases preserved with
  | legacy idle =>
    unfold JsonlStorage.commit at ended
    simp only at ended
    split at ended
    · next nothing =>
      split at ended
      · simp at ended
      next prepared ready =>
      simp only [Prod.mk.injEq, ok.injEq] at ended
      obtain ⟨rfl, returned⟩ := ended
      obtain ⟨-, rfl⟩ := (opened.state.prepareCommit_ok_iff _ _ _).mp ready
      apply Preserved.legacy
      intro other mem
      rcases mem_append.mp mem with earlier | last
      · exact idle other earlier
      · rw [mem_singleton.mp last]
        exact ⟨nothing, by rw [← returned, nothing]; rfl, by rw [← returned]; rfl⟩
    · obtain ⟨upgraded, rfl, written, produced⟩ := legacy.upgrade ended
      exact .upgraded idle (.snoc (.nil _) produced) written
  | @upgraded s idle caller id before produced written =>
    simp only [JsonlStorage.commit] at ended
    obtain ⟨rfl, outcome⟩ := Prod.mk.inj ended
    have acknowledged : s.commit commit.writes commit.now fault =
        ((s.commit commit.writes commit.now fault).1, .ok commit.result) :=
      Prod.ext rfl outcome
    rw [append_assoc]
    exact .upgraded before (.snoc produced (V4Storage.commit_ok_result acknowledged))
      (written.commit acknowledged)

theorem JsonlStorage.commit_unchanged {current : JsonlStorage N} {failure : JsonlCommitFailure}
    (harmless : failure = .publish ∨ ∃ reason, failure = .refused reason)
    (ended : current.commit dateParse adjustmentId writes now fault = (next, .error failure)) :
    next = current := by
  cases current with
  | v4 s =>
    simp only [commit] at ended
    obtain ⟨rfl, outcome⟩ := Prod.mk.inj ended
    rcases harmless with rfl | ⟨reason, rfl⟩
    · exact absurd outcome (s.commit_ne_publish writes now fault)
    · exact congrArg v4 (V4Storage.commit_refused (Prod.ext rfl outcome))
  | v3 s =>
    unfold commit V3Storage.upgrade at ended
    simp only at ended
    split at ended
    · split at ended
      · exact (Prod.mk.inj ended).1.symm
      · simp at ended
    · split at ended
      · exact (Prod.mk.inj ended).1.symm
      · split at ended
        · split at ended
          · rcases harmless with rfl | ⟨reason, rfl⟩ <;> simp at ended
          · simp at ended
        · exact (Prod.mk.inj ended).1.symm

theorem LegacyRun.preserved (legacy : OpenedLegacy dateParse opened) {final : JsonlStorage N}
    (run : LegacyRun dateParse opened final commits) :
    Preserved dateParse opened final commits := by
  induction run with
  | start => exact .legacy (by simp)
  | acknowledged before ended preserved => exact preserved.acknowledged legacy ended
  | refused before ended preserved =>
    rwa [commit_unchanged (.inr ⟨_, rfl⟩) ended]
  | unpublished before ended preserved => rwa [commit_unchanged (.inl rfl) ended]
  | reopened before reads preserved =>
    cases preserved with
    | upgraded idle produced written =>
      obtain ⟨header, reopens⟩ := written.reopens
      obtain ⟨before, lines, log, file⟩ := written
      rw [reopens, ok.injEq, Option.some.injEq] at reads
      subst reads
      exact .upgraded idle produced ⟨before, lines, log, file⟩

/-- One logical state: what opening shows until something is written, and from then on,
in memory and after reopening, that state with the caller's commits applied to it under
the sequences they returned. -/
def ShowsOneState (dateParse : String → Option Int) (opened : V3Storage N) (final : JsonlStorage N)
    (commits : List (Acknowledged N)) : Prop :=
  (final = .v3 opened ∧ ∀ commit ∈ commits, Idle opened commit) ∨
  ∃ upgraded idle caller adjustmentId header,
    final = .v4 upgraded ∧ commits = idle ++ caller ∧ (∀ commit ∈ idle, Idle opened commit) ∧
    viewOf (opened.adjusted adjustmentId) =
      { (JsonlStorage.v3 opened).view with nextSeq := opened.state.nextSeq + 1 } ∧
    Produces (opened.adjusted adjustmentId) caller upgraded.state ∧
    openStorage dateParse upgraded.file =
      .ok (some { header := header, file := upgraded.file, state := upgraded.state })

def legacyDocument : Json Int :=
  .obj [("type", .str "session"), ("version", .num 3), ("id", .str "s1"),
    ("timestamp", .str "2024"), ("cwd", .str "/")]

def legacyFile : List UInt8 := lineBytes [Json.stringifyChars legacyDocument]

def legacyDate (text : String) : Option Int := if text = "2024" then some 1704067200000 else none

def legacyHeader : LegacyV3SessionHeader where
  id := "s1"
  timestamp := "2024"
  cwd := "/"
  parentSession := none

theorem legacyFile_lines : splitLines (decode legacyFile) = ([Json.stringifyChars legacyDocument], []) := by
  have noTail : newlineByte ∉ ([] : List UInt8) := not_mem_nil
  have singles : ∀ line ∈ [Json.stringifyChars legacyDocument], '\n' ∉ line := by
    simp [Json.stringifyChars_no_newline]
  have split := splitLines_decode_cut singles noTail
  rwa [append_nil] at split

theorem legacyFile_header :
    readJsonlHeader Int legacyDate (decode legacyFile) = .ok (.legacyV3 legacyHeader) := by
  obtain ⟨c, rest, printed, -⟩ := Json.stringifyChars_head legacyDocument
  have filled : Json.stringifyChars legacyDocument ≠ [] := by
    rw [printed]
    exact cons_ne_nil _ _
  have recognized : parseJsonlSessionHeader Int legacyDate (Json.stringifyChars legacyDocument) =
      .ok (.legacyV3 legacyHeader) := by
    rw [parseJsonlSessionHeader, Json.parseChars_stringifyChars]
    rfl
  simp only [readJsonlHeader, legacyFile_lines, if_neg filled, recognized, Except.mapError]

def legacySource : LegacyV3Source Int where
  header :=
    { id := "s1", storageVersion := 1, createdAt := 1704067200000, cwd := "/",
      parentSessionId := none, legacyParentSessionPath := none, nextSeq := none }
  importedUsage := emptyUsage
  nextSeq := 2
  values := [.valueSet 1 "pi.branch.tip" "main" .null]
  entries := .empty

theorem legacyFile_read :
    LegacyV3Source.read legacyDate (fun _ => none) toString legacyFile = .ok legacySource := by
  rw [LegacyV3Source.read, legacyFile_header, legacyFile_lines]
  rfl

theorem legacySource_writes : legacySource.writes legacyDate legacyFile (fun _ => true) =
    .ok [.valueSet 1 "pi.branch.tip" "main" .null] := by
  have captured : legacySource.readCapturedEntries legacyDate legacyFile = .ok [] := by
    simp only [readCapturedEntries, legacyFile_header, legacyFile_lines]
    rfl
  rw [writes, captured]
  rfl

def legacyStorage : V3Storage Int where
  source := legacySource
  header := { legacySource.header with nextSeq := some 2 }
  file := legacyFile
  state := (InMemoryStorageState.initial.commit [.valueSet "pi.branch.tip" "main" .null] 0).1

theorem legacyFile_opens :
    openLegacyV3 legacyDate (fun _ => none) toString legacyFile = .ok legacyStorage := by
  rw [openLegacyV3, legacyFile_read]
  simp only [legacySource_writes]
  rfl

end Trpi.Session.Jsonl
