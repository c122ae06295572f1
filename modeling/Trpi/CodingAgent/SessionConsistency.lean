import Trpi.CodingAgent.SessionRuns
import Trpi.Library.JsonInt

/-!
# Appends that are consistent

What an event appends and whether it writes are read off the event. In every run whose writes
do not throw, a call that throws changes nothing and the file is reopened as the entries
whose appends returned; a write that throws is exactly what breaks this.
-/

namespace Trpi.CodingAgent

open Library Json

variable {N : Type}

def LeafId.id? : LeafId → Option String
  | .entry id => some id
  | _ => none

structure Made (e : FileEntry N) (parentId : LeafId) (assistant : Bool) : Prop where
  object : e.json.isObject = true
  plain : e.isSession = false
  parent : e.parentId = parentId.id?
  role : e.isAssistant = assistant

def AppendRequest.isAssistant : AppendRequest N → Bool
  | .message content => (content.get? "role").bind Json.string? = some "assistant"
  | _ => false

theorem string_json (leafId : LeafId) : (leafId.json (N := N)).bind string? = leafId.id? := by
  cases leafId <;> rfl

theorem made_entry (request : AppendRequest N) (id : String) (parentId : LeafId)
    (timestamp : String) : Made (request.entry id parentId timestamp) parentId request.isAssistant := by
  cases request <;> constructor <;>
    simp [AppendRequest.entry, AppendRequest.members, AppendRequest.isAssistant, typeMember,
      baseMembers, FileEntry.isSession, FileEntry.isAssistant, FileEntry.type, FileEntry.role,
      FileEntry.parentId, FileEntry.string, FileEntry.get, get?_ofMembers_cons, string?,
      string_json]

theorem made_labelEntry (targetId : String) (label : Option String) (id : String)
    (parentId : LeafId) (timestamp : String) :
    Made (N := N) (labelEntry targetId label id parentId timestamp) parentId false := by
  constructor <;>
    simp [labelEntry, typeMember, baseMembers, FileEntry.isSession, FileEntry.isAssistant,
      FileEntry.type, FileEntry.parentId, FileEntry.string, FileEntry.get,
      get?_ofMembers_cons, string?, string_json]

theorem made_branchSummaryEntry (fromId summary : String) (details usage : Option (Json N))
    (fromHook : Option Bool) (id : String) (parentId : LeafId) (timestamp : String) :
    Made (branchSummaryEntry fromId summary details usage fromHook id parentId timestamp) parentId
      false := by
  constructor <;>
    simp [branchSummaryEntry, typeMember, baseMembers, FileEntry.isSession,
      FileEntry.isAssistant, FileEntry.type, FileEntry.parentId, FileEntry.string, FileEntry.get,
      get?_ofMembers_cons, string?, string_json]

def SessionEvent.fault : SessionEvent N → Option Nat
  | .append _ _ _ fault => fault
  | .appendLabelChange _ _ _ _ fault => fault
  | .branchWithSummary _ _ _ _ _ _ _ fault => fault
  | _ => none

def SessionEvent.isAssistant : SessionEvent N → Bool
  | .append request _ _ _ => request.isAssistant
  | _ => false

/-- Whether the entry that is pointed at is there. -/
def OpenSession.accepts (s : OpenSession N) : SessionEvent N → Bool
  | .appendLabelChange targetId _ _ _ _ => s.hasEntry targetId
  | .branchWithSummary branchFromId _ _ _ _ _ _ _ => branchFromId.all s.hasEntry
  | _ => true

def OpenSession.disturbed (s : OpenSession N) (event : SessionEvent N) : Bool :=
  event.fault.isSome && s.accepts event && s.writes event.isAssistant

variable {s : OpenSession N} {header : FileEntry N} {ev : SessionEvent N}

theorem undisturbed_of (quiet : s.disturbed ev = false)
    (accepted : s.accepts ev = true) : ev.fault = none ∨ s.writes ev.isAssistant = false := by
  rw [OpenSession.disturbed, accepted, Bool.and_true, Bool.and_eq_false_iff] at quiet
  exact quiet.imp_left Option.isSome_eq_false_iff.mp |>.imp_left Option.isNone_iff_eq_none.mp

variable [JsonNumber N] {opened : OpenSession N} {run : SessionRun N}

/-- The session with one more entry, below one that is there. -/
structure Appends (s next : OpenSession N) (e : FileEntry N) : Prop where
  consistent : Consistent next
  entries : next.manager.fileEntries = s.manager.fileEntries ++ [e]
  parent : ∀ id, e.parentId = some id → Present s.manager.fileEntries id

section

variable {s : OpenSession N} {e : FileEntry N}

theorem Consistent.moveLeaf (consistent : Consistent s) {leafId : LeafId}
    (present : ∀ id, leafId = .entry id → Present s.manager.fileEntries id) :
    Consistent (s.moveLeaf leafId) :=
  ⟨consistent.header, consistent.truthy, consistent.current,
    ⟨consistent.indexes.known, present⟩, consistent.filed⟩

variable {assistant : Bool} {fault : Option Nat}

section

variable (consistent : Consistent s) (made : Made e s.manager.leafId assistant)

include consistent made

theorem Consistent.present_parent {id : String}
    (parent : e.parentId = some id) : Present s.manager.fileEntries id := by
  rw [made.parent] at parent
  refine consistent.indexes.leaf id ?_
  cases leaf : s.manager.leafId with
  | null =>
    rw [leaf] at parent
    cases parent
  | undefined =>
    rw [leaf] at parent
    cases parent
  | entry other =>
    rw [leaf] at parent
    cases parent
    rfl

theorem Consistent.appends (undisturbed : fault = none ∨ s.writes assistant = false) :
    (s.appendEntry e fault).2 = true ∧ Appends s (s.appendEntry e fault).1 e := by
  rw [← made.role] at undisturbed
  obtain ⟨returned, after, entries⟩ :=
    consistent.appendEntry made.object made.plain undisturbed
  exact ⟨returned, after, entries, fun _ parent => consistent.present_parent made parent⟩

theorem Consistent.attempt (undisturbed : fault = none ∨ s.writes assistant = false) :
    ∃ next, s.attempt e fault = (next, .appended e) ∧ Appends s next e := by
  obtain ⟨returned, appends⟩ := consistent.appends made undisturbed
  refine ⟨_, ?_, appends⟩
  rw [OpenSession.attempt, if_pos returned]

end

theorem Appends.setLabel {next : OpenSession N} (appends : Appends s next e)
    (targetId : Option String) (label timestamp : Option (Json N)) :
    Appends s
      { next with
        manager :=
          { next.manager with
            toSessionIndex := next.manager.toSessionIndex.setLabel targetId label timestamp } }
      e := by
  have consistent := appends.consistent
  refine ⟨?_, appends.entries, appends.parent⟩
  exact ⟨consistent.header, consistent.truthy, consistent.current,
    consistent.indexes.setLabel _ _ _, consistent.filed⟩

/-- What a call does whose write does not throw. -/
inductive Performed (s : OpenSession N) : OpenSession N × SessionOutcome N → Prop where
  | appended {next : OpenSession N} {e : FileEntry N} (appends : Appends s next e) :
      Performed s (next, .appended e)
  | moved {next : OpenSession N} (consistent : Consistent next)
      (entries : next.manager.fileEntries = s.manager.fileEntries) : Performed s (next, .moved)
  | threw : Performed s (s, .threw)

section

variable (consistent : Consistent s)

include consistent

theorem Consistent.appendLabelChange (targetId : String)
    (label : Option String) (timestamp : String) (source : IdSource) {fault : Option Nat}
    (undisturbed : s.hasEntry targetId = true → fault = none ∨ s.writes false = false) :
    Performed s (s.appendLabelChange targetId label timestamp source fault) := by
  rw [OpenSession.appendLabelChange]
  split
  · rename_i there
    obtain ⟨returned, appends⟩ :=
      consistent.appends (made_labelEntry targetId label (s.newId source)
        s.manager.leafId timestamp) (undisturbed there)
    dsimp only
    rw [if_pos returned]
    exact .appended (appends.setLabel _ _ _)
  · exact .threw

theorem Consistent.branch (branchFromId : String) : Performed s (s.branch branchFromId) := by
  rw [OpenSession.branch]
  split
  · rename_i there
    refine .moved (consistent.moveLeaf ?_) rfl
    intro id same
    cases same
    exact consistent.indexes.known _ there
  · exact .threw

theorem Consistent.moveTarget {branchFromId : Option String}
    (there : branchFromId.all s.hasEntry = true) :
    Consistent (s.moveLeaf (.ofTarget branchFromId)) := by
  refine consistent.moveLeaf ?_
  intro id same
  cases branchFromId with
  | none => cases same
  | some target =>
    cases same
    exact consistent.indexes.known _ there

theorem Consistent.branchWithSummary
    (branchFromId : Option String) (summary : String) (details usage : Option (Json N))
    (fromHook : Option Bool) (timestamp : String) (source : IdSource) {fault : Option Nat}
    (undisturbed : branchFromId.all s.hasEntry = true →
      fault = none ∨ s.writes false = false) : Performed s
      (s.branchWithSummary branchFromId summary details usage fromHook timestamp source
        fault) := by
  rw [OpenSession.branchWithSummary]
  split
  · rename_i there
    obtain ⟨next, eq, appends⟩ := (consistent.moveTarget there).attempt
      (made_branchSummaryEntry s.manager.leafId.orRoot summary details usage fromHook
        (s.newId source) (.ofTarget branchFromId) timestamp) (undisturbed there)
    rw [eq]
    exact .appended ⟨appends.consistent, appends.entries, appends.parent⟩
  · exact .threw

/-- What is opened anew from the file of a consistent session is consistent. -/
theorem Consistent.reopened {bytes : List UInt8} (file : s.file = some bytes) : Consistent
      { manager :=
          { SessionIndex.build s.manager.fileEntries with
            persist := true, flushed := true, fileEntries := s.manager.fileEntries }
        file := some bytes } := by
  have filed := consistent.filed
  rw [Filed, file] at filed
  exact ⟨consistent.header, consistent.truthy, consistent.current, indexes_build _, rfl, rfl,
    filed.2.2⟩

theorem Consistent.reopen (sources : Nat → IdSource)
    (header : FileEntry N) : Performed s (s.reopen sources header) := by
  rw [OpenSession.reopen]
  split
  · exact .moved consistent rfl
  · rename_i bytes file
    rw [consistent.openFile file]
    exact .moved (consistent.reopened file) rfl

theorem Consistent.perform {ev : SessionEvent N}
    (quiet : s.disturbed ev = false) (header : FileEntry N) :
    Performed s (s.perform header ev) := by
  have undisturbed := undisturbed_of quiet
  cases ev with
  | append request timestamp source fault =>
    have accepted : fault = none ∨ s.writes request.isAssistant = false := undisturbed rfl
    obtain ⟨next, eq, appends⟩ := consistent.attempt
      (made_entry request (s.newId source) s.manager.leafId timestamp) accepted
    rw [OpenSession.perform, OpenSession.append, eq]
    exact .appended appends
  | appendLabelChange targetId label timestamp source fault =>
    exact consistent.appendLabelChange targetId label timestamp source undisturbed
  | branch branchFromId => exact consistent.branch branchFromId
  | resetLeaf => exact .moved (consistent.moveLeaf fun _ same => nomatch same) rfl
  | branchWithSummary branchFromId summary details usage fromHook timestamp source fault =>
    exact consistent.branchWithSummary branchFromId summary details usage fromHook timestamp
      source undisturbed
  | reopen sources => exact consistent.reopen sources header

theorem Consistent.attempt_threw {parentId : LeafId} (made : Made e parentId assistant)
    {written : Nat} (writes : s.writes assistant = true) : (s.attempt e (some written)).2 = .threw ∧
      (s.attempt e (some written)).1.manager.fileEntries = s.manager.fileEntries ++ [e] := by
  rw [← made.role] at writes
  obtain ⟨threw, entries⟩ := consistent.appendEntry_threw writes
  rw [OpenSession.attempt, if_neg (by rw [threw]; exact Bool.noConfusion)]
  exact ⟨rfl, entries⟩

theorem Consistent.disturbed {ev : SessionEvent N}
    (noisy : s.disturbed ev = true) (header : FileEntry N) :
    (s.perform header ev).2 = .threw ∧
      ∃ e, (s.perform header ev).1.manager.fileEntries = s.manager.fileEntries ++ [e] := by
  rw [OpenSession.disturbed, Bool.and_eq_true, Bool.and_eq_true] at noisy
  obtain ⟨⟨faulty, accepted⟩, writes⟩ := noisy
  obtain ⟨written, fault⟩ := Option.isSome_iff_exists.mp faulty
  cases ev with
  | append request timestamp source fault_ =>
    cases fault
    have made := made_entry request (s.newId source) s.manager.leafId timestamp
    obtain ⟨threw, entries⟩ := consistent.attempt_threw made writes
    exact ⟨threw, _, entries⟩
  | appendLabelChange targetId label timestamp source fault_ =>
    cases fault
    have there : s.hasEntry targetId = true := accepted
    have made := made_labelEntry (N := N) targetId label (s.newId source)
      s.manager.leafId timestamp
    have needed : s.writes false = true := writes
    rw [← made.role] at needed
    obtain ⟨threw, entries⟩ := consistent.appendEntry_threw needed
    rw [OpenSession.perform, OpenSession.appendLabelChange, if_pos there]
    dsimp only
    rw [if_neg (by rw [threw]; exact Bool.noConfusion)]
    exact ⟨rfl, _, entries⟩
  | branch branchFromId => cases faulty
  | resetLeaf => cases faulty
  | branchWithSummary branchFromId summary details usage fromHook timestamp source fault_ =>
    cases fault
    have there : branchFromId.all s.hasEntry = true := accepted
    have made := made_branchSummaryEntry s.manager.leafId.orRoot summary details usage
      fromHook (s.newId source) (.ofTarget branchFromId) timestamp
    obtain ⟨threw, entries⟩ := (consistent.moveTarget there).attempt_threw made writes
    rw [OpenSession.perform, OpenSession.branchWithSummary, if_pos there]
    exact ⟨threw, _, entries⟩
  | reopen sources => cases faulty

end

end

inductive Opens (header : FileEntry N) : OpenSession N → Prop where
  | new (persist : Bool) :
      Opens header { manager := SessionManager.newSession persist header, file := none }
  | file {sources : Nat → IdSource} {bytes : List UInt8} {s : OpenSession N}
      (opened : OpenSession.openFile sources header bytes = some s) : Opens header s

theorem consistent_newSession (valid : isHeader header = true)
    (current : CURRENT_SESSION_VERSION ≤ fileVersion [header])
    (i : s.manager.toSessionIndex = .empty)
    (entries : s.manager.fileEntries = [header]) (filed : Filed s) : Consistent s := by
  have object := FileEntry.isObject_of_isSession (Bool.and_eq_true_iff.mp valid).1
  constructor
  · exact ⟨header, [], entries, valid⟩
  · rw [entries, List.forall_mem_singleton]
    exact truthy_of_isObject object
  · rw [entries]
    exact current
  · rw [i, entries]
    exact ⟨fun id contained => (indexes_empty (N := N)).known id contained |>.append _,
      fun id leaf => (indexes_empty (N := N)).leaf id leaf |>.append _⟩
  · exact filed

theorem consistent_openFile {sources : Nat → IdSource} {bytes : List UInt8}
    (valid : isHeader header = true) (current : CURRENT_SESSION_VERSION ≤ fileVersion [header])
    (opened : OpenSession.openFile sources header bytes = some s) : Consistent s := by
  have object := FileEntry.isObject_of_isSession (Bool.and_eq_true_iff.mp valid).1
  rw [OpenSession.openFile] at opened
  dsimp only at opened
  split at opened
  · split at opened
    · cases opened
      refine consistent_newSession valid current rfl rfl ⟨rfl, rfl, ?_⟩
      refine holds_entryBytes valid ?_
      rw [List.forall_mem_singleton]
      exact truthy_of_isObject object
    · cases opened
  · rename_i loaded
    cases opened
    have holds := holds_of_load loaded
    obtain ⟨first, rest, entries, headed⟩ := holds.header
    rw [SessionManager.loadEntries]
    split
    · rename_i unchanged
      have recent : CURRENT_SESSION_VERSION ≤ fileVersion (loadEntriesFromFile (N := N) bytes).1 := by
        rw [migrateToCurrentVersion] at unchanged
        dsimp only at unchanged
        split at unchanged
        · assumption
        · cases unchanged
      exact ⟨⟨first, rest, entries, headed⟩, holds.truthy, recent, indexes_build _, rfl, rfl, holds⟩
    · rename_i migrated changed
      have truthy := holds.truthy
      rw [entries] at changed truthy
      obtain ⟨⟨newHeader, more, whole, newValid⟩, newTruthy, version⟩ :=
        migrateToCurrentVersion_spec headed truthy changed
      subst whole
      exact ⟨⟨newHeader, more, rfl, newValid⟩, newTruthy, version.ge, indexes_build _, rfl, rfl,
        holds_entryBytes newValid newTruthy⟩

theorem Opens.consistent (opens : Opens header s) (valid : isHeader header = true)
    (current : CURRENT_SESSION_VERSION ≤ fileVersion [header]) : Consistent s := by
  cases opens with
  | new persist =>
    refine consistent_newSession valid current rfl rfl (Or.inr ⟨rfl, ?_⟩)
    have s := of_decide_eq_true (Bool.and_eq_true_iff.mp valid).1
    show (header.isAssistant || false) = false
    rw [FileEntry.isAssistant, s]
    rfl
  | file opened => exact consistent_openFile valid current opened

/-- Memory has what it had at first and the entries whose appends returned. -/
structure Settled (opened : OpenSession N) (run : SessionRun N) : Prop where
  consistent : Consistent run.session
  entries : run.session.manager.fileEntries = opened.manager.fileEntries ++ run.returned
  parented : Parented opened.manager.fileEntries run.returned

theorem Settled.step (settled : Settled opened run) (quiet : run.session.disturbed ev = false) :
    Settled opened (run.step header ev) := by
  have performed := settled.consistent.perform quiet header
  rw [SessionRun.step]
  generalize run.session.perform header ev = result at performed ⊢
  cases performed with
  | appended appends =>
    constructor
    · exact appends.consistent
    · rw [appends.entries, settled.entries, List.append_assoc]
    · refine .snoc settled.parented ?_
      rw [← settled.entries]
      exact appends.parent
  | moved consistent entries =>
    exact ⟨consistent, entries.trans settled.entries, settled.parented⟩
  | threw => exact ⟨settled.consistent, settled.entries, settled.parented⟩

theorem settled_of_reached (consistent : Consistent opened)
    (reached : (sessionMachine header opened).Reached
      (fun run ev => run.session.disturbed ev = false) run) : Settled opened run := by
  refine Machine.Inductive.reached ⟨?_, ?_⟩ reached
  · rintro run rfl
    exact ⟨consistent, (List.append_nil _).symm, .nil⟩
  · intro run ev next settled quiet taken
    cases taken
    exact settled.step quiet

/-- Without a write that throws, and only then, a call that throws changes nothing; what is
reopened is what appends returned, each entry below one that was there. -/
theorem appends_consistent (id timestamp cwd : String) (parentSession : Option String)
    {opened : OpenSession N} (opens : Opens (sessionHeader id timestamp cwd parentSession) opened)
    {run : SessionRun N}
    (reached : (sessionMachine (sessionHeader id timestamp cwd parentSession) opened).Reached
      (fun run ev => run.session.disturbed ev = false) run) :
    (∀ header ev,
      ((run.session.perform header ev).2 = .threw →
        (run.session.perform header ev).1 = run.session) ↔
      run.session.disturbed ev = false) ∧
    run.session.manager.fileEntries = opened.manager.fileEntries ++ run.returned ∧
    Parented opened.manager.fileEntries run.returned ∧
    (∀ bytes sources header, run.session.file = some bytes →
      ∃ reopened, OpenSession.openFile sources header bytes = some reopened ∧
        reopened.manager.fileEntries = opened.manager.fileEntries ++ run.returned) ∧
    (run.session.file = none → run.session.manager.persist = false ∨
      (opened.manager.fileEntries ++ run.returned).any (·.isAssistant) = false) := by
  have settled := settled_of_reached
    (opens.consistent (isHeader_sessionHeader id timestamp cwd parentSession)
      (fileVersion_sessionHeader id timestamp cwd parentSession).ge) reached
  have consistent := settled.consistent
  refine ⟨?_, settled.entries, settled.parented, ?_, ?_⟩
  · intro header ev
    cases quiet : run.session.disturbed ev with
    | false =>
      have performed := consistent.perform quiet header
      refine ⟨fun _ => rfl, ?_⟩
      generalize run.session.perform header ev = result at performed
      intro _ threw
      cases performed with
      | appended appends => cases threw
      | moved moved entries => cases threw
      | threw => rfl
    | true =>
      obtain ⟨threw, e, grown⟩ := consistent.disturbed quiet header
      refine ⟨?_, Bool.noConfusion⟩
      intro unchanged
      rw [unchanged threw] at grown
      exact absurd (congrArg List.length grown) (by simp)
  · intro bytes sources header file
    exact ⟨_, consistent.openFile file sources header, settled.entries⟩
  · intro file
    have filed := consistent.filed
    rw [Filed, file] at filed
    rw [← settled.entries]
    exact filed.imp_right And.right

def sampleHeader : FileEntry Int := sessionHeader "session" "2026-01-01" "/" none

def openedSample : OpenSession Int where
  manager := { SessionManager.newSession true sampleHeader with flushed := true }
  file := some (entryBytes [sampleHeader])

theorem opens_sample : Opens sampleHeader openedSample := by
  have opened : OpenSession.openFile (fun _ => ⟨fun _ => "", ""⟩) sampleHeader [] =
      some openedSample := rfl
  exact .file opened

def sampleAppend (id : String) (fault : Option Nat) : SessionEvent Int :=
  .append (.thinkingLevelChange "high") "2026-01-01" ⟨fun _ => id, id⟩ fault

def sampleRun : SessionRun Int := { session := openedSample, returned := [] }

theorem appends_consistent_sample :
    Parented openedSample.manager.fileEntries
      (sampleRun.step sampleHeader (sampleAppend "a" none)).returned ∧
    (sampleRun.step sampleHeader (sampleAppend "a" none)).returned.length = 1 := by
  have started : (sessionMachine sampleHeader openedSample).Reached
      (fun run ev => run.session.disturbed ev = false) sampleRun := .start rfl
  have reached : (sessionMachine sampleHeader openedSample).Reached
      (fun run ev => run.session.disturbed ev = false)
      (sampleRun.step sampleHeader (sampleAppend "a" none)) := started.step rfl rfl
  exact ⟨(appends_consistent "session" "2026-01-01" "/" none opens_sample reached).2.2.1, rfl⟩

/-- The append throws and is remembered; the next one returns, below an entry that is in no
file. -/
theorem throwing_append_remembered :
    Opens sampleHeader openedSample ∧
    (openedSample.perform sampleHeader (sampleAppend "a" (some 0))).2 = .threw ∧
    (openedSample.perform sampleHeader (sampleAppend "a" (some 0))).1.manager.leafId = .entry "a" ∧
    openedSample.manager.leafId = .null ∧
    ¬ Parented openedSample.manager.fileEntries
      ((sampleRun.step sampleHeader (sampleAppend "a" (some 0))).step sampleHeader
        (sampleAppend "b" none)).returned := by
  refine ⟨opens_sample, rfl, rfl, rfl, ?_⟩
  intro parented
  have below : Present (openedSample.manager.fileEntries ++ []) "a" := parented.last rfl rfl
  obtain ⟨e, mem, plain, -⟩ := below
  cases List.mem_singleton.mp mem
  cases plain

end Trpi.CodingAgent
