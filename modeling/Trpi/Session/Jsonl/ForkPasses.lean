import Trpi.Session.Jsonl.ForkCopy
import Trpi.Session.Jsonl.Reopen

/-!
# The two passes over a growing file

Both passes of the streamed fork read the transactions of the source up to the
captured boundary, whatever acknowledged commits and torn bytes follow them, and
no transaction spans the boundary. What the second pass publishes opens to the
session the in-memory fork builds.
-/

namespace Trpi.Session.Jsonl

open Library JsonlForkIndex List Option Except
open Library.Utf8 (decode newlineByte)
open InMemoryStorageState

variable {N : Type} [JsonNumber N] [Add N] [Zero N] {writes : List (JsonlCommittedWrite N)}
  {nextSeq : Nat} {s last : JsonlState N}

section Publishing

variable {i : JsonlForkIndex (Json N)} {plan : ForkCurrentStatePlan} {copied : String → Bool}

section

omit [JsonNumber N] [Add N] [Zero N]

theorem run_appendProjected_iff (writes : List (JsonlCommittedWrite N)) :
    (∃ published, run (appendProjected i plan copied) [] writes = .ok published) ↔
      ∀ write ∈ writes, ∃ outcome, projectJsonlForkWrite i plan copied write = .ok outcome := by
  refine run_succeeds_iff (fun _ => True) _ ?_ (fun _ _ _ _ _ _ => trivial) trivial
  intro published write _ _
  unfold appendProjected
  cases projectJsonlForkWrite i plan copied write <;> simp

theorem run_appendProjected_ok {writes earlier published : List (JsonlCommittedWrite N)}
    (ran : run (appendProjected i plan copied) earlier writes = .ok published) :
    published = earlier ++ writes.filterMap (keptWrite i plan copied) := by
  induction writes generalizing earlier with
  | nil => simpa using (ok.inj ran).symm
  | cons write rest ih =>
    obtain ⟨next, stepped, ran⟩ := run_cons_eq_ok.mp ran
    unfold appendProjected at stepped
    split at stepped
    · cases stepped
    · next outcome projected =>
      have kept : keptWrite i plan copied write = outcome := by
        rw [keptWrite, projected]
        rfl
      rw [ih ran, ← ok.inj stepped, append_assoc]
      cases outcome <;> simp [kept]

theorem run_appendProjected_error {writes earlier : List (JsonlCommittedWrite N)}
    {reason : JsonlForkError}
    (ran : run (appendProjected i plan copied) earlier writes = .error reason) :
    ∃ cause, reason = .fork cause := by
  induction writes generalizing earlier with
  | nil => cases ran
  | cons write rest ih =>
    cases stepped : appendProjected i plan copied earlier write with
    | ok next => exact ih (run_cons_ok stepped rest ▸ ran)
    | error cause =>
      rw [run_cons_error stepped] at ran
      unfold appendProjected at stepped
      split at stepped
      · next refused projected =>
        exact ⟨refused, by rw [← error.inj ran, ← error.inj stepped]⟩
      · cases stepped

end

end Publishing

omit [JsonNumber N] in
theorem built_replays (built : Built writes s) :
    run replayCommitted .initial (writes.map fun write => [write]) = .ok s := by
  induction built with
  | initial => rfl
  | write before admitted applied ih =>
    rw [map_append, run_append_ok ih, map_singleton]
    exact run_cons_eq_ok.mpr ⟨_, (replayCommitted_one_iff _ _ _).mpr ⟨admitted, applied⟩, rfl⟩

omit [JsonNumber N] in
theorem built_of_replays {transactions : List (List (JsonlCommittedWrite N))}
    (built : Built writes s) (ran : run replayCommitted s transactions = .ok last) :
    Built (writes ++ transactions.flatten) last := by
  induction transactions generalizing writes s with
  | nil =>
    rw [← ok.inj ran]
    simpa using built
  | cons batch rest ih =>
    obtain ⟨next, replayed, ran⟩ := run_cons_eq_ok.mp ran
    obtain ⟨valid, stats, applied⟩ := (replayCommitted_ok_iff s next batch).mp replayed
    have further := ih (built.batch valid applied) ran
    rwa [append_assoc] at further

/-- These lines carry these transactions. -/
def Carry (lines : List (List Char)) (transactions : List (List (JsonlCommittedWrite N))) : Prop :=
  List.Forall₂ (fun line writes => parseJsonlTransaction line = .ok writes) lines transactions

theorem carry_of_replayLines {number : Nat} {lines : List (List Char)}
    (replayed : replayLines number s lines = .ok last) :
    ∃ transactions, Carry lines transactions ∧ run replayCommitted s transactions = .ok last := by
  induction lines generalizing number s with
  | nil => exact ⟨[], .nil, congrArg ok (ok.inj replayed)⟩
  | cons line rest ih =>
    rw [replayLines] at replayed
    split at replayed
    · cases replayed
    · next next first =>
      unfold replayLine at first
      split at first
      · cases first
      · next writes parsed =>
        obtain ⟨transactions, carried, ran⟩ := ih replayed
        exact ⟨writes :: transactions, .cons parsed carried, run_cons_eq_ok.mpr ⟨next, first, ran⟩⟩

/-- Transactions below a boundary. -/
def Below (stop : Nat) (transactions : List (List (JsonlCommittedWrite N))) : Prop :=
  ∀ writes ∈ transactions, ∀ write ∈ writes, write.seq < stop

section

omit [JsonNumber N] [Add N] [Zero N]

theorem reachesForkBoundary_below {stop : Nat} (below : ∀ write ∈ writes, write.seq < stop) :
    reachesForkBoundary writes (some stop) = .ok false := by
  unfold reachesForkBoundary
  split
  · next bound first last bounded isFirst isLast =>
    cases bounded
    have firstBelow := below first (mem_of_head? isFirst)
    have lastBelow := below last (mem_of_getLast? isLast)
    rw [if_neg (by omega), if_neg (by omega)]
  · rfl

theorem reachesForkBoundary_none (writes : List (JsonlCommittedWrite N)) :
    reachesForkBoundary writes none = .ok false := rfl

theorem reachesForkBoundary_past {stop : Nat} (nonempty : writes ≠ [])
    (past : ∀ write ∈ writes, stop ≤ write.seq) :
    reachesForkBoundary writes (some stop) = .ok true := by
  cases writes with
  | nil => exact absurd rfl nonempty
  | cons first rest =>
    have reached := past first mem_cons_self
    cases isLast : (first :: rest).getLast? with
    | none => simp at isLast
    | some last => simp [reachesForkBoundary, isLast, reached]

end

section Reading

variable {σ : Type} {consume : σ → List (JsonlCommittedWrite N) → Except JsonlForkError σ}

omit [Add N] [Zero N] in
theorem readJsonlForkTransactions_carry {lines : List (List Char)}
    {transactions : List (List (JsonlCommittedWrite N))} (carried : Carry lines transactions)
    {stop : Option Nat}
    (before : ∀ writes ∈ transactions, reachesForkBoundary writes stop = .ok false)
    (more : List (List Char)) (s : σ) :
    readJsonlForkTransactions stop consume s (lines ++ more) =
      match run consume s transactions with
      | .error reason => .error reason
      | .ok next => readJsonlForkTransactions stop consume next more := by
  induction carried generalizing s with
  | nil => rfl
  | @cons line writes lines transactions parsed carried ih =>
    rw [cons_append, readJsonlForkTransactions, run]
    simp only [parsed, before writes mem_cons_self]
    cases consume s writes with
    | error reason => rfl
    | ok next => exact ih (fun other mem => before other (mem_cons_of_mem _ mem)) next

omit [Add N] [Zero N] in
theorem readJsonlForkTransactions_past {stop : Nat} {lines : List (List Char)}
    (past : ∀ line ∈ lines.head?, ∃ writes : List (JsonlCommittedWrite N),
      parseJsonlTransaction line = .ok writes ∧ writes ≠ [] ∧ ∀ write ∈ writes, stop ≤ write.seq)
    (s : σ) : readJsonlForkTransactions (some stop) consume s lines = .ok s := by
  cases lines with
  | nil => rfl
  | cons line rest =>
    obtain ⟨writes, parsed, nonempty, reached⟩ := past line rfl
    rw [readJsonlForkTransactions]
    simp only [parsed, reachesForkBoundary_past nonempty reached]

end Reading

/-- Two states a session cannot tell apart. -/
structure SameSession (first second : JsonlState N) : Prop where
  entriesBySeq : first.entriesBySeq = second.entriesBySeq
  entries : ∀ id, first.entries.get? id = second.entries.get? id
  values : ∀ address, first.getValue address = second.getValue address
  lists : ∀ address, first.listElements address = second.listElements address
  usage : first.usage = second.usage
  stats : first.stats = second.stats
  nextSeq : first.nextSeq = second.nextSeq

omit [JsonNumber N] [Add N] [Zero N] in
theorem entries_get?_eq {first second : InsertionMap String (JsonlEntry N)}
    {bySeq : List (JsonlEntry N)} (left : EntriesInvariant first bySeq nextSeq)
    (right : EntriesInvariant second bySeq nextSeq)
    (id : String) : first.get? id = second.get? id := by
  apply Option.ext
  intro e
  constructor <;> intro found
  · have key := left.keyed id e found
    exact key ▸ right.get?_of_mem (left.mem_of_get? found)
  · have key := right.keyed id e found
    exact key ▸ left.get?_of_mem (right.mem_of_get? found)

omit [JsonNumber N] [Add N] in
theorem isFork_same {source first second : JsonlState N} {plan : ForkCurrentStatePlan}
    {copied : String → Bool} (left : IsFork source first plan copied)
    (right : IsFork source second plan copied) : SameSession first second where
  entriesBySeq := left.bySeq.trans right.bySeq.symm
  entries := by
    have sameOrder := left.bySeq.trans right.bySeq.symm
    exact entries_get?_eq left.entries (sameOrder ▸ right.entries)
  values address := (left.scalars address).trans (right.scalars address).symm
  lists address := (left.lists address).trans (right.lists address).symm
  usage := left.usage.trans right.usage.symm
  stats := by rw [left.stats, right.stats, left.bySeq, right.bySeq]
  nextSeq := left.nextSeq.trans right.nextSeq.symm

/-- Both forks are refused, or the streamed one opens to the session of the other.
A refusal is never the fuel of the model, nor a transaction across the boundary. -/
def ForksAlike (dateParse : String → Option Int) (memory : Except JsonlForkError (JsonlState N))
    (streamed : Except JsonlForkError (List UInt8)) : Prop :=
  match memory, streamed with
  | .ok forked, .ok file =>
    ∃ s, openStorage dateParse file = .ok (some s) ∧ SameSession s.state forked
  | .error cause, .error reason =>
    cause ≠ .fork .walkUnbounded ∧ ∀ stop, reason ≠ .crossesBoundary stop
  | _, _ => False

def publishFork (destinationHeader : JsonlStorageHeader) (fork : ForkOptions) (nextSeq : Nat)
    (i : JsonlForkIndex (Json N)) (writes : List (JsonlCommittedWrite N)) :
    Except JsonlForkError (List UInt8) := do
  let (plan, i) ← (selectJsonlFork nextSeq i fork).mapError .fork
  let published ← run (appendProjected i plan (isEntryCopied plan i.copiedEntryIds)) [] writes
  .ok (lineBytes (publishedLines { destinationHeader with nextSeq := some nextSeq }
    (published.map fun write => [write])))

omit [JsonNumber N] [Add N] [Zero N] in
theorem applyWrites_copiedEntryIds (i : JsonlForkIndex (Json N))
    (writes : List (JsonlCommittedWrite N)) :
    (i.applyWrites writes).copiedEntryIds = i.copiedEntryIds := by
  induction writes generalizing i with
  | nil => rfl
  | cons write rest ih =>
    rw [applyWrites, foldl_cons]
    refine (ih (i.applyWrite write)).trans ?_
    have lanes : ∀ (i : JsonlForkIndex (Json N)) ns key v,
        (i.applyLaneValue ns key v).copiedEntryIds = i.copiedEntryIds := by
      intro i ns key v
      unfold applyLaneValue
      split_ifs <;> rfl
    cases write with
    | valueSet seq ns key v => exact lanes _ _ _ _
    | valueDelete seq ns key => exact lanes _ _ _ _
    | listAppend seq ns key v =>
      rw [JsonlForkIndex.applyWrite]
      split <;> rfl
    | _ => rfl

theorem publishFork_alike (dateParse : String → Option Int) (destinationHeader : JsonlStorageHeader)
    (version : destinationHeader.storageVersion = jsonlStorageVersion) {source : JsonlState N}
    (built : Built writes source) (raised : source.nextSeq ≤ nextSeq) (fork : ForkOptions) :
    ForksAlike dateParse (((source.withNextSeq nextSeq).createFork fork).mapError .fork)
      (publishFork destinationHeader fork nextSeq (empty.applyWrites writes)
        writes) := by
  have inv : StoreInvariant (source.withNextSeq nextSeq) :=
    withNextSeq_invariant built.invariant raised
  have indexed := built_indexes built
  have bounded := createFork_bounded inv fork
  have raisedIndex : Indexes (empty.applyWrites writes) (source.withNextSeq nextSeq) :=
    ⟨indexed.parents, indexed.scalars, indexed.lists, indexed.tips, indexed.configs, indexed.states⟩
  have selection := selectJsonlFork_eq raisedIndex inv
    (applyWrites_copiedEntryIds .empty writes) fork
  cases planned : (source.withNextSeq nextSeq).selectForkPlan fork with
  | error reason =>
    rw [planned] at selection
    obtain ⟨cause, refused⟩ := selection
    rw [withNextSeq_nextSeq] at refused
    simp only [createFork, planned] at bounded ⊢
    simp only [publishFork, refused, Except.mapError, bind, Except.bind, ForksAlike]
    exact ⟨fun same => bounded (by rw [JsonlForkError.fork.inj same]), fun _ same => by cases same⟩
  | ok outcome =>
    obtain ⟨plan, selected⟩ := outcome
    rw [planned, withNextSeq_nextSeq] at selection
    have selectedIndex : Indexes { empty.applyWrites writes with
        copiedEntryIds := selected } source :=
      ⟨indexed.parents, indexed.scalars, indexed.lists, indexed.tips, indexed.configs, indexed.states⟩
    have memory := createFork_succeeds_iff planned
    have streamed := (run_appendProjected_iff writes).trans
      (projects_iff plan (isEntryCopied plan selected) built selectedIndex)
    have agree := memory.trans streamed.symm
    simp only [publishFork, selection, Except.mapError, bind, Except.bind]
    cases copiedInMemory : (source.withNextSeq nextSeq).createFork fork with
    | error reason =>
      cases ran : run (appendProjected { empty.applyWrites writes with
          copiedEntryIds := selected } plan (isEntryCopied plan selected)) [] writes with
      | error refusal =>
        obtain ⟨cause, rfl⟩ := run_appendProjected_error ran
        rw [copiedInMemory] at bounded
        exact ⟨fun same => bounded (by rw [JsonlForkError.fork.inj same]), fun _ same => by cases same⟩
      | ok published =>
        obtain ⟨forked, success⟩ := agree.mpr ⟨published, ran⟩
        rw [copiedInMemory] at success
        cases success
    | ok forked =>
      obtain ⟨published, ran⟩ := agree.mp ⟨forked, copiedInMemory⟩
      obtain ⟨plan', selected', planned', isFork⟩ := createFork_isFork inv copiedInMemory
      rw [planned] at planned'
      cases planned'
      have closed : CopyClosed source (isEntryCopied plan selected) :=
        (selectForkPlan_closed inv planned :)
      obtain ⟨destination, kept, copies⟩ := built_copies
        { empty.applyWrites writes with copiedEntryIds := selected } plan built closed
      have publishedEq := run_appendProjected_ok ran
      rw [nil_append] at publishedEq
      rw [← publishedEq] at kept
      have positive : 1 ≤ nextSeq := Nat.le_trans built.invariant.positive raised
      have log : Log dateParse
          (publishedLines { destinationHeader with nextSeq := some nextSeq }
            (published.map fun write => [write]))
          { destinationHeader with nextSeq := some nextSeq } (destination.withNextSeq nextSeq) := by
        refine published_log ⟨by simp [version, jsonlStorageVersion], by simpa using positive⟩ version
          (built_replays kept) ((advanceTo_ok_iff _ _ _).mpr ⟨by simpa using positive, ?_⟩)
        rw [getD_some, Nat.max_eq_right (Nat.le_trans copies.nextSeq raised)]
      rw [publishedEq] at kept
      rw [ran]
      exact ⟨_, log.open_file, isFork_same (built_isFork built selectedIndex raised kept copies) isFork⟩

variable {dateParse : String → Option Int} {lines : List (List Char)} {source : V4Storage N}

/-- The bytes of a source as a pass may find them: the transactions of later
acknowledged commits and an unterminated tail may follow what it held. -/
def Seen (source : V4Storage N) (bytes : List UInt8) : Prop :=
  ∃ later tail, Commits source later ∧ newlineByte ∉ tail ∧ bytes = later.file ++ tail

theorem Logged.commits_past {last : V4Storage N} (commits : Commits source last)
    (logged : Logged dateParse lines source) : ∃ more, Logged dateParse (lines ++ more) last ∧
      ∀ line ∈ more, ∃ writes : List (JsonlCommittedWrite N), parseJsonlTransaction line = .ok writes ∧
        writes ≠ [] ∧ ∀ write ∈ writes, source.state.nextSeq ≤ write.seq := by
  induction commits generalizing lines with
  | refl s => exact ⟨[], by rwa [append_nil], by simp⟩
  | @step s next last writes now result acknowledged rest ih =>
    have positive := logged.log.invariant.positive
    have further : s.state.nextSeq ≤ next.state.nextSeq := by
      obtain ⟨valid, applied, -⟩ := V4Storage.commit_ok acknowledged
      have grows := applyValidated_nextSeq_le valid
      rwa [applied] at grows
    rcases logged.commit acknowledged with rfl | ⟨batch, nonempty, later, extended⟩
    · exact ih logged
    · obtain ⟨more, final, past⟩ := ih extended
      refine ⟨serializeJsonlTransaction batch :: more, by rwa [append_assoc] at final, ?_⟩
      intro line mem
      rcases mem_cons.mp mem with rfl | mem
      · exact ⟨batch, parseJsonlTransaction_serialize fun write inside =>
          Nat.le_trans positive (later write inside), nonempty, later⟩
      · obtain ⟨writes, parsed, filled, reached⟩ := past line mem
        exact ⟨writes, parsed, filled, fun write inside =>
          Nat.le_trans further (reached write inside)⟩

/-- The transactions a logged storage was built from. -/
structure Capture (dateParse : String → Option Int) (lines : List (List Char))
    (source : V4Storage N) (transactions : List (List (JsonlCommittedWrite N)))
    (replayed : JsonlState N) : Prop where
  logged : Logged dateParse lines source
  carried : Carry (lines.drop 1) transactions
  built : Built transactions.flatten replayed
  raised : source.state = replayed.withNextSeq source.state.nextSeq
  nextSeq : source.state.nextSeq = max (source.header.nextSeq.getD 1) replayed.nextSeq

theorem Logged.capture (logged : Logged dateParse lines source) :
    ∃ transactions replayed, Capture dateParse lines source transactions replayed := by
  obtain ⟨replayed, ran, advanced⟩ := logged.log.replays
  obtain ⟨transactions, carried, ran⟩ := carry_of_replayLines ran
  obtain ⟨-, raised⟩ := (advanceTo_ok_iff _ _ _).mp advanced
  have built := built_of_replays .initial ran
  rw [nil_append] at built
  refine ⟨transactions, replayed, logged, carried, built, by rw [raised]; rfl, ?_⟩
  have positive := built.invariant.positive
  rw [raised, withNextSeq_nextSeq]
  cases source.header.nextSeq <;> simp only [getD_some, getD_none] <;> omega

section Passes

variable {transactions : List (List (JsonlCommittedWrite N))} {replayed : JsonlState N}
  {tail : List UInt8}

theorem Capture.below (capture : Capture dateParse lines source transactions replayed) :
    replayed.nextSeq ≤ source.state.nextSeq ∧ Below source.state.nextSeq transactions := by
  have reached : replayed.nextSeq ≤ source.state.nextSeq := by
    rw [capture.nextSeq]
    exact Nat.le_max_right _ _
  refine ⟨reached, fun writes mem write inside => ?_⟩
  have below := capture.built.shows.below write (mem_flatten.mpr ⟨writes, mem, inside⟩)
  omega

def sourceMetadata (source : V4Storage N) (path : String) : JsonlForkSourceMetadata :=
  { id := source.header.id, cwd := source.header.cwd, path := path }

omit [Add N] [Zero N] in
theorem drop_one_append {lines : List (List Char)} (nonempty : lines ≠ [])
    (more : List (List Char)) : (lines ++ more).drop 1 = lines.drop 1 ++ more :=
  drop_append_of_le_length (length_pos_of_ne_nil nonempty)

theorem Log.readHeader {header : JsonlStorageHeader} {s : JsonlState N}
    (log : Log dateParse lines header s) (unterminated : newlineByte ∉ tail) (path : String) :
    readJsonlForkHeader N dateParse { id := header.id, cwd := header.cwd, path := path }
      (decode (lineBytes lines ++ tail)) = .ok header := by
  obtain ⟨first, isFirst, filled, parsed⟩ := log.headed
  rw [readJsonlForkHeader, readJsonlHeader, splitLines_decode_cut log.single unterminated]
  cases lines with
  | nil => cases isFirst
  | cons line rest =>
    obtain rfl : line = first := some.inj isFirst
    simp [filled, parsed, Except.mapError, log.version]

theorem Capture.read (capture : Capture dateParse lines source transactions replayed)
    {bytes : List UInt8} (seen : Seen source bytes) {σ : Type}
    (consume : σ → List (JsonlCommittedWrite N) → Except JsonlForkError σ) (s : σ) (path : String) :
    readJsonlForkHeader N dateParse (sourceMetadata source path) (decode bytes) = .ok source.header ∧
      readJsonlForkTransactions (some source.state.nextSeq) consume s
        ((splitLines (decode bytes)).1.drop 1) = run consume s transactions := by
  obtain ⟨later, tail, commits, unterminated, rfl⟩ := seen
  obtain ⟨more, logged, past⟩ := capture.logged.commits_past commits
  have sameHeader : later.header = source.header := by
    clear logged past capture
    induction commits with
    | refl storage => rfl
    | step acknowledged rest ih => rw [ih, (V4Storage.commit_ok acknowledged).2.2.1]
  have header := logged.log.readHeader unterminated path
  rw [sameHeader] at header
  rw [logged.file]
  refine ⟨header, ?_⟩
  rw [splitLines_decode_cut logged.log.single unterminated,
    drop_one_append capture.logged.log.nonempty, readJsonlForkTransactions_carry capture.carried
      fun writes mem => reachesForkBoundary_below (capture.below.2 writes mem)]
  cases run consume s transactions with
  | error reason => rfl
  | ok next =>
    apply readJsonlForkTransactions_past
    exact fun line isFirst => past line (mem_of_head? isFirst)

theorem Capture.read_closed (capture : Capture dateParse lines source transactions replayed)
    (unterminated : newlineByte ∉ tail) {σ : Type}
    (consume : σ → List (JsonlCommittedWrite N) → Except JsonlForkError σ) (s : σ) (path : String) :
    readJsonlForkHeader N dateParse (sourceMetadata source path) (decode (source.file ++ tail)) =
        .ok source.header ∧
      readJsonlForkTransactions none consume s
        ((splitLines (decode (source.file ++ tail))).1.drop 1) = run consume s transactions := by
  rw [capture.logged.file]
  refine ⟨capture.logged.log.readHeader unterminated path, ?_⟩
  rw [splitLines_decode_cut capture.logged.log.single unterminated]
  rw [← append_nil (lines.drop 1), readJsonlForkTransactions_carry capture.carried
    (fun writes _ => reachesForkBoundary_none writes) [] s]
  cases run consume s transactions <;> rfl

omit [JsonNumber N] [Add N] [Zero N] in
theorem run_indexTransaction (transactions : List (List (JsonlCommittedWrite N)))
    (i : JsonlForkIndex (Json N)) (highest : Nat) :
    run indexTransaction (i, highest) transactions =
      .ok (i.applyWrites transactions.flatten,
        (transactions.flatten.getLast?.map CommittedWrite.seq).getD highest) := by
  induction transactions generalizing i highest with
  | nil => rfl
  | cons writes rest ih =>
    rw [run_cons_ok (show indexTransaction (i, highest) writes = .ok _ from rfl), ih,
      flatten_cons, applyWrites, applyWrites, applyWrites, foldl_append, getLast?_append]
    cases rest.flatten.getLast? <;> rfl

section

variable (capture : Capture dateParse lines source transactions replayed) {bytes : List UInt8}

include capture

theorem Capture.index_open (seen : Seen source bytes) (path : String) :
    indexForkInput dateParse (.open (sourceMetadata source path) source.state.nextSeq) bytes =
      .ok (empty.applyWrites transactions.flatten, source.state.nextSeq) := by
  obtain ⟨header, read⟩ := capture.read seen indexTransaction (.empty, 0) path
  simp only [indexForkInput, indexForkFile, header, read, run_indexTransaction, bind, Except.bind]

theorem Capture.index_closed
    {tail : List UInt8} (unterminated : newlineByte ∉ tail) (path : String) :
    indexForkInput dateParse (.closed (sourceMetadata source path)) (source.file ++ tail) =
      .ok (empty.applyWrites transactions.flatten, source.state.nextSeq) := by
  obtain ⟨header, read⟩ := capture.read_closed unterminated indexTransaction (.empty, 0) path
  simp only [indexForkInput, indexForkFile, header, read, run_indexTransaction, bind, Except.bind]
  rw [← capture.built.shows.nextSeq, ← capture.nextSeq]

theorem Capture.stream (seen : Seen source bytes) {σ : Type}
    (consume : σ → JsonlCommittedWrite N → Except JsonlForkError σ) (s : σ) (path : String) :
    streamForkFile dateParse (sourceMetadata source path) source.state.nextSeq bytes consume s =
      run consume s transactions.flatten := by
  obtain ⟨header, read⟩ := capture.read seen (run consume) s path
  simp only [streamForkFile, header, read, bind, Except.bind, run_flatten]

end

end Passes

end Trpi.Session.Jsonl
