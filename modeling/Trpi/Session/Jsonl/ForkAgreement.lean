import Trpi.Session.Jsonl.LegacyFork

/-!
# The streamed fork is the in-memory fork

Whatever captured source a streamed fork reads, open, closed or legacy, and
however the file grows meanwhile, its destination opens to the session that
`createFork` builds from the source state at the boundary, and it refuses the
requests `createFork` refuses.
-/

namespace Trpi.Session.Jsonl

open Library
open Library.Utf8 (newlineByte)
open InMemoryStorageState

variable {N : Type} [JsonNumber N] [Add N] [Zero N] {dateParse : String → Option Int}
  {opened : V3Storage N} {file : List UInt8}

/-- A source as the repository captures it: the input of the fork, the file as each
pass finds it and the source state at the boundary. -/
inductive Captured (dateParse : String → Option Int) :
    JsonlForkInput N → List UInt8 → List UInt8 → JsonlState N → Prop where
  | open {past : List (V4Storage N)} {source : V4Storage N} {first second : List UInt8}
      (history : Past dateParse past source) (path : String) (seenFirst : Seen source first)
      (seenSecond : Seen source second) :
      Captured dateParse (.open (sourceMetadata source path) source.state.nextSeq) first second
        source.state
  | closed {past : List (V4Storage N)} {source : V4Storage N} {tail second : List UInt8}
      (history : Past dateParse past source) (path : String) (unterminated : newlineByte ∉ tail)
      (seenSecond : Seen source second) :
      Captured dateParse (.closed (sourceMetadata source path)) (source.file ++ tail) second
        source.state
  | legacyV3 {resolveParent : String → Option String} {mint : Nat → String}
      {file more : List UInt8} {opened : V3Storage N}
      (opens : openLegacyV3 dateParse resolveParent mint file = .ok opened) :
      Captured dateParse (.legacyV3 opened.source) file (file ++ more) opened.state

/-- `createFork` on the source state; a legacy request is translated first. -/
def memoryFork (input : JsonlForkInput N) (s : JsonlState N) (fork : ForkOptions) :
    Except JsonlForkError (JsonlState N) := do
  let fork ← translateForkOptions input fork
  (s.createFork fork).mapError .fork

/-- The header the repository's `fork` gives a destination. -/
def destinationHeader (id : String) (createdAt : Nat) (cwd sourceId : String) :
    JsonlStorageHeader where
  id := id
  storageVersion := jsonlStorageVersion
  createdAt := createdAt
  cwd := cwd
  parentSessionId := some sourceId
  legacyParentSessionPath := none
  nextSeq := none

omit [Add N] [Zero N] in
theorem run_publishFork_filter {destination : JsonlStorageHeader} {fork : ForkOptions} {nextSeq : Nat}
    {i : JsonlForkIndex (Json N)} (entries : List (JsonlEntry N))
    (values : List (JsonlCommittedWrite N)) :
    publishFork destination fork nextSeq i (entries.map .entry ++ values) =
      (do
        let (plan, i) ← (selectJsonlFork nextSeq i fork).mapError .fork
        let copied := isEntryCopied plan i.copiedEntryIds
        let published ← run (appendProjected i plan copied) []
          ((entries.filter fun entry => copied entry.id).map .entry ++ values)
        .ok (lineBytes (publishedLines { destination with nextSeq := some nextSeq }
          (published.map fun write => [write]))) : Except JsonlForkError (List UInt8)) := by
  have dropped : ∀ (i : JsonlForkIndex (Json N)) plan (copied : String → Bool),
      run (appendProjected i plan copied) []
        ((entries.filter fun entry => copied entry.id).map .entry ++ values) =
        run (appendProjected i plan copied) [] (entries.map .entry ++ values) := by
    intro i plan copied
    rw [run_append, run_append]
    have skips : ∀ published (write : JsonlCommittedWrite N),
        (write.insertedEntry.all fun entry => copied entry.id) = false →
        appendProjected i plan copied published write = .ok published := by
      intro published write unselected
      cases write with
      | entry entry =>
        have skipped : copied entry.id = false := by
          simpa [CommittedWrite.insertedEntry] using unselected
        simp [appendProjected, projectJsonlForkWrite, skipped]
      | _ => cases unselected
    have kept := run_filter skips [] (entries.map .entry)
    rw [List.filter_map] at kept
    have same : (fun write : JsonlCommittedWrite N => write.insertedEntry.all fun entry =>
        copied entry.id) ∘ CommittedWrite.entry = fun entry => copied entry.id := by
      funext entry
      rfl
    rw [same] at kept
    rw [kept]
  simp only [dropped]
  rfl

theorem forksAlike_bind (dateParse : String → Option Int) (input : JsonlForkInput N)
    {s : JsonlState N} (fork : ForkOptions)
    {streamed : ForkOptions → Except JsonlForkError (List UInt8)}
    (alike : ∀ fork, ForksAlike dateParse ((s.createFork fork).mapError .fork) (streamed fork)) :
    ForksAlike dateParse (memoryFork input s fork)
      (translateForkOptions input fork >>= streamed) := by
  unfold memoryFork
  cases translated : translateForkOptions input fork with
  | ok fork => exact alike fork
  | error reason =>
    have isTranslation : ∃ cause, reason = .translate cause := by
      unfold translateForkOptions at translated
      split at translated
      · next normalized branch entryId position =>
        cases found : normalized.translateForkEntryId entryId with
        | error cause =>
          simp only [found, Except.mapError, Except.map, Except.error.injEq] at translated
          exact ⟨cause, translated.symm⟩
        | ok mapped => simp [found, Except.mapError, Except.map] at translated
      · cases translated
    obtain ⟨cause, rfl⟩ := isTranslation
    exact ⟨nofun, fun _ => nofun⟩

/-- What opening a legacy session says about its source. -/
structure LegacyCapture (dateParse : String → Option Int) (file : List UInt8) (opened : V3Storage N)
    (entries : List (JsonlEntry N)) : Prop where
  built : Built (entries.map .entry ++ opened.source.values) opened.state
  nextSeq : opened.state.nextSeq = opened.source.nextSeq
  structures : opened.source.entryStructures =
    .ok (entries.map fun entry => (entry.id, entry.parentId))
  selected : ∀ (selected : String → Bool) (more : List UInt8),
    opened.source.writes dateParse (file ++ more) selected =
      .ok ((entries.filter fun entry => selected entry.id).map .entry ++ opened.source.values)

theorem openLegacyV3_capture {resolveParent : String → Option String} {mint : Nat → String}
    (opens : openLegacyV3 dateParse resolveParent mint file = .ok opened) :
    ∃ entries, LegacyCapture dateParse file opened entries := by
  unfold openLegacyV3 at opens
  split at opens
  · cases opens
  next source read =>
  split at opens
  · cases opens
  next writes materialized =>
  split at opens
  · cases opens
  next s ran =>
  rw [← Except.ok.inj opens]
  have captured := read_captured read
  obtain ⟨entries, rfl, structures, selected⟩ := source.writes_selected captured.keyed materialized
  have built := built_of_replays .initial ran
  rw [List.nil_append, ← List.flatMap_def, List.flatMap_singleton'] at built
  refine ⟨entries, built, ?_, structures, selected⟩
  have last := captured.nextSeq
  have positive := captured.positive
  rw [built.shows.nextSeq, List.getLast?_append]
  obtain ⟨write, isLast, seq⟩ := Option.map_eq_some_iff.mp last
  simp only [isLast, Option.some_or, Option.map_some, Option.getD_some, seq]
  omega

theorem LegacyCapture.index {entries : List (JsonlEntry N)}
    (capture : LegacyCapture dateParse file opened entries) (first : List UInt8) :
    indexForkInput dateParse (.legacyV3 opened.source) first =
      .ok (JsonlForkIndex.empty.applyWrites (entries.map .entry ++ opened.source.values),
        opened.state.nextSeq) := by
  simp only [indexForkInput, capture.structures, Except.mapError, bind, Except.bind,
    JsonlForkIndex.applyWrites, List.foldl_append, List.foldl_map, capture.nextSeq]
  rfl

/-- The streamed fork writes the session `createFork` builds, and refuses what it refuses. -/
theorem streamedFork_alike {dateParse : String → Option Int} {input : JsonlForkInput N}
    {first second : List UInt8} {s : JsonlState N}
    (captured : Captured dateParse input first second s) (id : String) (createdAt : Nat)
    (cwd sourceId : String) (fork : ForkOptions) :
    ForksAlike dateParse (memoryFork input s fork)
      (runJsonlFork dateParse input (destinationHeader id createdAt cwd sourceId) fork first
        second) := by
  cases captured with
  | @«open» past source first second history path seenFirst seenSecond =>
    obtain ⟨lines, logged⟩ := history.recorded.logged
    obtain ⟨transactions, replayed, capture⟩ := logged.capture
    have alike := fun fork => publishFork_alike dateParse
      (destinationHeader id createdAt cwd sourceId) rfl capture.built
      capture.below.1 fork
    rw [← capture.raised] at alike
    have agrees := forksAlike_bind dateParse
      (.open (sourceMetadata source path) source.state.nextSeq) fork alike
    simpa only [runJsonlFork, capture.index_open seenFirst path, streamForkWrites,
      capture.stream seenSecond, publishFork, bind, Except.bind] using agrees
  | @closed past source tail second history path unterminated seenSecond =>
    obtain ⟨lines, logged⟩ := history.recorded.logged
    obtain ⟨transactions, replayed, capture⟩ := logged.capture
    have alike := fun fork => publishFork_alike dateParse
      (destinationHeader id createdAt cwd sourceId) rfl capture.built
      capture.below.1 fork
    rw [← capture.raised] at alike
    have agrees := forksAlike_bind dateParse (.closed (sourceMetadata source path)) fork alike
    simpa only [runJsonlFork, capture.index_closed unterminated path, streamForkWrites,
      capture.stream seenSecond, publishFork, bind, Except.bind] using agrees
  | @legacyV3 resolveParent mint file more opened opens =>
    obtain ⟨entries, capture⟩ := openLegacyV3_capture opens
    have alike := fun fork => publishFork_alike dateParse
      (destinationHeader id createdAt cwd sourceId) rfl capture.built
      (Nat.le_refl _) fork
    rw [withNextSeq_self] at alike
    simp only [run_publishFork_filter] at alike
    have agrees := forksAlike_bind dateParse (.legacyV3 opened.source) fork alike
    simpa only [runJsonlFork, capture.index, streamForkWrites, capture.selected, Except.mapError,
      bind, Except.bind] using agrees

def branchWrites : List (JsonlWrite Int) :=
  [.entry { id := "e1", parentId := none, type := .message, customType := none, body := .ofMembers [] },
    .valueSet "pi.branch.tip" "main" (.str "e1"), .valueSet "pi.lane.config" "main" .null,
    .valueSet "pi.lane.state" "main" .null, .valueSet "note" "k" .null]

theorem streamedFork_alike_branch :
    ∃ start : V4Storage Int, create noteHeader branchWrites 7 = .ok start ∧
      ForksAlike (fun _ => none)
        (memoryFork (.open (sourceMetadata start "/s1") start.state.nextSeq : JsonlForkInput Int)
          start.state (.branch "main" none none))
        (runJsonlFork (fun _ => none)
          (.open (sourceMetadata start "/s1") start.state.nextSeq : JsonlForkInput Int)
          (destinationHeader "s2" 8 "/" "s1") (.branch "main" none none) start.file start.file) ∧
      (start.state.createFork (.branch "main" none none)).toOption.isSome = true := by
  obtain ⟨start, created, forks⟩ : ∃ start : V4Storage Int, create noteHeader branchWrites 7 = .ok start ∧
      (start.state.createFork (.branch "main" none none)).toOption.isSome = true :=
    ⟨_, rfl, by decide +kernel⟩
  have seen : Seen start start.file := ⟨start, [], .refl start, by simp, by simp⟩
  exact ⟨start, created,
    streamedFork_alike (.open (.created rfl rfl created) "/s1" seen seen) "s2" 8 "/" "s1"
      (.branch "main" none none), forks⟩

end Trpi.Session.Jsonl
