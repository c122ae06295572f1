import Trpi.CodingAgent.Migration
import Trpi.CodingAgent.SessionManager
import Trpi.Library.JsonInt

/-!
# Forking a session file

A fork copies the entries of the source as they are behind a new header of the current
version, and opens the copy. The source is migrated when it is opened itself.
-/

namespace Trpi.CodingAgent

open Library SessionIndex List Json

open Bool hiding and_self

open Option hiding filter_filter filter_map

variable {N : Type}

def plainEntries (entries : List (FileEntry N)) : List (FileEntry N) :=
  entries.filter fun e => !e.isSession

theorem plainEntries_idem (entries : List (FileEntry N)) :
    plainEntries (plainEntries entries) = plainEntries entries := by
  rw [plainEntries, plainEntries, filter_filter]
  simp only [Bool.and_self]

variable {header e other : FileEntry N} {entries rest : List (FileEntry N)} {bytes : List UInt8}
  {time : Option (Json N) → Json N} {source fork : SessionManager N}

theorem plainEntries_cons (s : header.isSession = true) (rest : List (FileEntry N)) :
    plainEntries (header :: rest) = plainEntries rest :=
  filter_cons_of_neg (by rw [s]; decide)

theorem plainEntries_of_plain (plain : ∀ e ∈ entries, e.isSession = false) :
    plainEntries entries = entries := by
  refine filter_eq_self.mpr ?_
  intro e mem
  rw [plain e mem]
  rfl

def indexOf (entries : List (FileEntry N)) (id : Option String) : Option Nat :=
  id.bind fun id => entries.findIdx? fun e => e.id = some id

def parentIndex (entries : List (FileEntry N)) (e : FileEntry N) : Option Nat :=
  indexOf entries e.parentId

def boundaryIndex (entries : List (FileEntry N)) (e : FileEntry N) : Option Nat :=
  if e.isCompaction then indexOf entries (e.string "firstKeptEntryId") else none

theorem walk_root {i : EntryIndex N} (root : e.parentId = none) (fuel : Nat) :
    walk i (fuel + 1) e = [e] := by
  rw [walk, parentOf, root]

theorem contextEntriesOf_single (e : FileEntry N) : contextEntriesOf [e] = [e] := by
  have reversed : [e].reverse = [e] := rfl
  rw [contextEntriesOf, reversed]
  cases compaction : e.isCompaction with
  | true =>
    rw [find?_cons_of_pos compaction]
    have first : [e].findIdx? (fun other => other.id = e.id) = some 0 := by simp
    simp only [first]
    rfl
  | false =>
    rw [find?_cons_of_neg (by rw [compaction]; exact Bool.noConfusion)]
    rfl

structure Version1 (entries : List (FileEntry N)) : Prop where
  object : ∀ e ∈ entries, e.json.isObject = true
  plain : ∀ e ∈ entries, e.isSession = false
  bare : ∀ e ∈ entries, e.get "id" = none ∧ e.get "parentId" = none ∧
    e.get "firstKeptEntryId" = none

def FileEntry.isHookMessage (e : FileEntry N) : Bool :=
  e.type = some "message" && e.role = some "hookMessage"

theorem isHookMessage_of_same (same : SameContent e other) :
    e.isHookMessage = other.isHookMessage := by
  rw [FileEntry.isHookMessage, FileEntry.isHookMessage, same.type, same.role]

variable [JsonNumber N]

def forkFrom (sources : Nat → IdSource) (newHeader : FileEntry N) (bytes : List UInt8) :
    Option (OpenSession N) :=
  let sourceEntries := (loadEntriesFromFile bytes).1
  match sourceEntries.find? (·.isSession) with
  | none => none
  | some _ =>
    OpenSession.openFile sources newHeader
      (entryBytes (newHeader :: sourceEntries.filter fun e => !e.isSession))

structure SameConversation (time : Option (Json N) → Json N) (source fork : SessionManager N) :
    Prop where
  content : List.Forall₂ SameContent source.entries fork.entries
  parents : source.entries.map (parentIndex source.entries) =
    fork.entries.map (parentIndex fork.entries)
  boundaries : source.entries.map (boundaryIndex source.entries) =
    fork.entries.map (boundaryIndex fork.entries)
  messages : (source.buildSessionContext time).messages = (fork.buildSessionContext time).messages

structure SessionFile (version : Nat) (bytes : List UInt8) (header : FileEntry N)
    (rest : List (FileEntry N)) : Prop where
  loaded : (loadEntriesFromFile bytes).1 = header :: rest
  numbered : (header.get "version" = none ∧ version = 1) ∨
    (header.get "version").bind Json.nat? = some version
  known : 1 ≤ version ∧ version ≤ CURRENT_SESSION_VERSION
  format : version = 1 → Version1 rest

/-- Nothing that migration would have had to do. -/
def NothingMigrated (version : Nat) (rest : List (FileEntry N)) : Prop :=
  version = CURRENT_SESSION_VERSION ∨
    (∀ e ∈ rest, e.isHookMessage = false) ∧
      (version = 1 → rest.length ≤ 1 ∧ ∀ e ∈ rest, e.isCompaction = true →
        (e.get "firstKeptEntryIndex").bind Json.nat? ≠ some 1)

theorem build_plainEntries (entries : List (FileEntry N)) :
    build (plainEntries entries) = build entries := by
  rw [build, build, plainEntries]
  generalize empty (N := N) = i
  induction entries generalizing i with
  | nil => rfl
  | cons e rest ih =>
    cases s : e.isSession with
    | true =>
      have skipped : i.add e = i := by rw [add, if_pos s]
      rw [filter_cons_of_neg (by rw [s]; decide), foldl_cons, skipped]
      exact ih i
    | false =>
      rw [filter_cons_of_pos (by rw [s]; rfl), foldl_cons, foldl_cons]
      exact ih _

structure Manages (manager : SessionManager N) (entries : List (FileEntry N)) : Prop where
  listed : manager.entries = entries
  index : manager.toSessionIndex = SessionIndex.build entries

theorem openFile_of_loaded (loaded : (loadEntriesFromFile bytes).1 = header :: rest)
    (sources : Nat → IdSource) (fresh : FileEntry N) :
    ∃ opened, OpenSession.openFile sources fresh bytes = some opened ∧
      Manages opened.manager
        (plainEntries ((migrateToCurrentVersion sources (header :: rest)).getD (header :: rest))) := by
  rw [OpenSession.openFile]
  dsimp only
  rw [loaded, if_neg (cons_ne_nil _ _), SessionManager.loadEntries]
  cases migrateToCurrentVersion sources (header :: rest) with
  | none => exact ⟨_, rfl, rfl, (build_plainEntries _).symm⟩
  | some migrated => exact ⟨_, rfl, rfl, (build_plainEntries _).symm⟩

theorem forkFrom_of_loaded {newHeader : FileEntry N}
    (loaded : (loadEntriesFromFile bytes).1 = header :: rest) (valid : isHeader header = true)
    (newValid : isHeader newHeader = true)
    (current : CURRENT_SESSION_VERSION ≤ fileVersion [newHeader]) (sources : Nat → IdSource) :
    ∃ forked, forkFrom sources newHeader bytes = some forked ∧
      Manages forked.manager (plainEntries rest) := by
  have s := (and_eq_true_iff.mp valid).1
  have newSession := (and_eq_true_iff.mp newValid).1
  have truthy : ∀ e ∈ newHeader :: plainEntries rest, e.json.truthy = true := by
    have source : (loadEntriesFromFile (N := N) bytes).1 ≠ [] := by
      rw [loaded]
      exact cons_ne_nil _ _
    have holds := (holds_of_load source).truthy
    rw [loaded] at holds
    rw [forall_mem_cons]
    constructor
    · exact truthy_of_isObject (FileEntry.isObject_of_isSession newSession)
    · intro e mem
      exact holds e (mem_cons_of_mem _ (mem_of_mem_filter mem))
  have copy : (loadEntriesFromFile (N := N) (entryBytes (newHeader :: plainEntries rest))).1 =
      newHeader :: plainEntries rest := by rw [(holds_entryBytes newValid truthy).load]
  obtain ⟨forked, opened, manages⟩ := openFile_of_loaded copy sources newHeader
  refine ⟨forked, ?_, ?_⟩
  · rw [forkFrom, loaded, find?_cons_of_pos s]
    have copied : (header :: rest).filter (fun e => !e.isSession) = plainEntries rest :=
      plainEntries_cons s rest
    rw [copied]
    exact opened
  · have unchanged : migrateToCurrentVersion sources (newHeader :: plainEntries rest) = none := by
      rw [migrateToCurrentVersion]
      dsimp only
      rw [fileVersion_cons newSession] at current ⊢
      rw [if_pos current]
    rw [unchanged, getD_none, plainEntries_cons newSession, plainEntries_idem] at manages
    exact manages

theorem same_of_manages (first : Manages source entries) (second : Manages fork entries) :
    SameConversation time source fork := by
  constructor
  · rw [first.listed, second.listed]
    exact forall₂_same.mpr fun e _ name _ => rfl
  · rw [first.listed, second.listed]
  · rw [first.listed, second.listed]
  · rw [SessionManager.buildSessionContext, SessionManager.buildSessionContext, first.listed,
      second.listed, first.index, second.index]

theorem Manages.single {m : SessionManager N} (manages : Manages m [e]) (root : e.parentId = none)
    (plain : e.isSession = false) (time : Option (Json N) → Json N) :
    (m.buildSessionContext time).messages = sessionEntryToContextMessages time e := by
  have byId : m.byId.get? e.id = some e := by
    rw [manages.index]
    show ((empty.add e).byId).get? _ = _
    rw [byId_add _ plain, InsertionMap.get?_set_self]
  have leafId : m.leafId = LeafId.of e.id := by
    rw [manages.index]
    exact leafId_add _ plain
  have path : buildSessionPath [e] m.leafId m.byId = [e] := by
    rw [leafId]
    cases own : e.id with
    | none =>
      show pathFrom m.byId e = _
      rw [pathFrom, walk_root root]
      rfl
    | some id =>
      rw [own] at byId
      have found : (if id = "" then none else m.byId.get? (some id)).or [e].getLast? = some e := by
        rw [byId]
        split <;> rfl
      rw [LeafId.of, buildSessionPath, found]
      dsimp only
      rw [pathFrom, walk_root root]
      rfl
  rw [SessionManager.buildSessionContext, manages.listed]
  show (buildContextEntries [e] _ _).flatMap _ = _
  rw [buildContextEntries, path, contextEntriesOf_single]
  exact append_nil _

theorem renameHookMessage_eq (plain : e.isSession = false)
    (other : e.isHookMessage = false) : renameHookMessage e = e := by
  rw [renameHookMessage, if_neg (by rw [plain]; exact Bool.noConfusion)]
  rw [if_neg]
  rintro ⟨type, role⟩
  rw [FileEntry.isHookMessage, type, role] at other
  cases other

theorem role_renameHookMessage (plain : e.isSession = false)
    (hook : e.isHookMessage = true) : (renameHookMessage e).role = some "custom" := by
  rw [FileEntry.isHookMessage, and_eq_true, decide_eq_true_eq, decide_eq_true_eq] at hook
  obtain ⟨type, role⟩ := hook
  rw [renameHookMessage, if_neg (by rw [plain]; exact Bool.noConfusion), if_pos ⟨type, role⟩]
  rw [FileEntry.role] at role
  cases m : e.get "message" with
  | none =>
    rw [m] at role
    cases role
  | some v =>
    rw [m, bind_some, bind_eq_some_iff] at role
    obtain ⟨old, present, -⟩ := role
    dsimp only
    rw [FileEntry.role, FileEntry.get_set (isObject_of_get? m), if_pos rfl,
      bind_some, get?_setMember (isObject_of_get? present), if_pos rfl]
    rfl

theorem plainEntries_migrateV2ToV3 (entries : List (FileEntry N)) :
    plainEntries (migrateV2ToV3 entries) = (plainEntries entries).map renameHookMessage := by
  rw [plainEntries, migrateV2ToV3, filter_map, plainEntries]
  congr 1
  refine filter_congr ?_
  intro e _
  rw [Function.comp_apply, isSession_eq_of_type (type_renameHookMessage e)]

theorem map_renameHookMessage (others : ∀ e ∈ entries, e.isHookMessage = false) :
    (plainEntries entries).map renameHookMessage = plainEntries entries := by
  refine (map_congr_left ?_).trans (map_id _)
  intro e mem
  obtain ⟨inside, plain⟩ := mem_filter.mp mem
  exact renameHookMessage_eq (not_eq_true' _ ▸ plain) (others e inside)

section

variable (sources : Nat → IdSource) (done ahead : List (FileEntry N)) (prevId : Option String)

/-- The id an entry is given behind those done. -/
def chainId : String := generateId (sources done.length) fun _ => false

def chainEntry (e : FileEntry N) : FileEntry N :=
  if (e.chain (chainId sources done) prevId).isCompaction then
    convertFirstKept done ahead (e.chain (chainId sources done) prevId)
  else e.chain (chainId sources done) prevId

variable {e : FileEntry N}

theorem migrateV1ToV2_cons (plain : e.isSession = false) :
    migrateV1ToV2 sources done prevId (e :: ahead) =
      migrateV1ToV2 sources (done ++ [chainEntry sources done ahead prevId e])
        (some (chainId sources done)) ahead := by
  rw [migrateV1ToV2, if_neg (by rw [plain]; exact Bool.noConfusion)]
  rfl

theorem get_chainEntry (e : FileEntry N) {name : String}
    (boundary : "firstKeptEntryId" ≠ name) (i : "firstKeptEntryIndex" ≠ name) :
    (chainEntry sources done ahead prevId e).get name =
      (e.chain (chainId sources done) prevId).get name := by
  rw [chainEntry]
  split
  · exact get_convertFirstKept done ahead _ boundary i
  · rfl

theorem sameContent_chainEntry (e : FileEntry N) :
    SameContent (chainEntry sources done ahead prevId e) e := by
  intro name content
  rw [isIdMember, or_eq_false_iff, or_eq_false_iff, or_eq_false_iff] at content
  obtain ⟨⟨⟨id, parent⟩, boundary⟩, i⟩ := content
  rw [get_chainEntry sources done ahead prevId e (Ne.symm (of_decide_eq_false boundary))
    (Ne.symm (of_decide_eq_false i))]
  exact get_chain e _ _ (Ne.symm (of_decide_eq_false id)) (Ne.symm (of_decide_eq_false parent))

theorem id_chainEntry (object : e.json.isObject = true) :
    (chainEntry sources done ahead prevId e).id = some (chainId sources done) := by
  rw [FileEntry.id, FileEntry.string,
    get_chainEntry sources done ahead prevId e (by decide) (by decide)]
  exact id_chain object _ _

theorem parentId_chainEntry (object : e.json.isObject = true) :
    (chainEntry sources done ahead prevId e).parentId = prevId := by
  rw [FileEntry.parentId, FileEntry.string,
    get_chainEntry sources done ahead prevId e (by decide) (by decide)]
  exact parentId_chain object _ _

end

theorem id_renameHookMessage (e : FileEntry N) : (renameHookMessage e).id = e.id := by
  rw [FileEntry.id, FileEntry.id, FileEntry.string, FileEntry.string,
    get_renameHookMessage e (by decide) (by decide)]

theorem parentId_renameHookMessage (e : FileEntry N) :
    (renameHookMessage e).parentId = e.parentId := by
  rw [FileEntry.parentId, FileEntry.parentId, FileEntry.string, FileEntry.string,
    get_renameHookMessage e (by decide) (by decide)]

theorem hookless_of_same (plain : e.isSession = false) (origin : SameContent e other)
    (same : SameContent (renameHookMessage e) other) : other.isHookMessage = false := by
  cases hook : other.isHookMessage with
  | false => rfl
  | true =>
    have hooked := hook
    rw [← isHookMessage_of_same origin] at hooked
    have role := role_renameHookMessage plain hooked
    rw [FileEntry.isHookMessage, and_eq_true, decide_eq_true_eq, decide_eq_true_eq] at hook
    rw [same.role, hook.2] at role
    exact absurd (some.inj role) (by decide)

theorem boundary_convertFirstKept {id : String} (s : header.isSession = true)
    (plain : e.isSession = false) (object : e.json.isObject = true)
    (bare : e.get "firstKeptEntryId" = none) (own : e.get "id" = some (.str id)) :
    (convertFirstKept [header] [] e).string "firstKeptEntryId" =
      if (e.get "firstKeptEntryIndex").bind nat? = some 1 then some id else none := by
  have unset : e.string "firstKeptEntryId" = none := by
    rw [FileEntry.string, bare]
    rfl
  have deleted : (e.delete "firstKeptEntryIndex").string "firstKeptEntryId" = none := by
    rw [FileEntry.string, FileEntry.get_delete_of_ne _ (by decide), bare]
    rfl
  rw [convertFirstKept]
  cases mem : e.get "firstKeptEntryIndex" with
  | none => exact unset
  | some v =>
    cases v with
    | num number =>
      simp only [bind_some, number?, nat?]
      obtain ⟨position, i⟩ : ∃ position, JsonNumber.toNat? number = position := ⟨_, rfl⟩
      simp only [i]
      rcases position with _ | _ | _ | position
      · exact deleted
      · simp only [bind_some, cons_append, getElem?_cons_zero, s, if_true]
        exact deleted
      · simp only [bind_some, cons_append, nil_append, getElem?_cons_succ,
          getElem?_cons_zero, plain, own, if_true]
        show ((e.set _ _).delete _).string _ = _
        rw [FileEntry.string, FileEntry.get_delete_of_ne _ (by decide), FileEntry.get_set object,
          if_pos rfl]
        rfl
      · simp only [bind_some, cons_append, nil_append, getElem?_cons_succ, getElem?_nil]
        rw [if_neg (by simp)]
        exact deleted
    | null => exact unset
    | bool flag => exact unset
    | str text => exact unset
    | arr items => exact unset
    | obj members => exact unset

theorem boundary_chainEntry (sources : Nat → IdSource) (s : header.isSession = true)
    (plain : e.isSession = false) (object : e.json.isObject = true)
    (bare : e.get "firstKeptEntryId" = none) (compaction : e.isCompaction = true) :
    (chainEntry sources [header] [] none e).string "firstKeptEntryId" =
      if (e.get "firstKeptEntryIndex").bind nat? = some 1 then
        some (chainId sources [header])
      else none := by
  have type : (e.chain (chainId sources [header]) none).type = e.type := by
    rw [FileEntry.type, FileEntry.type, FileEntry.string, FileEntry.string,
      get_chain e _ _ (by decide) (by decide)]
  have still : (e.chain (chainId sources [header]) none).isSession = false := by
    rw [isSession_eq_of_type type, plain]
  have chained : (e.chain (chainId sources [header]) none).json.isObject = true := by
    unfold FileEntry.chain
    rw [FileEntry.set, isObject_setMember, FileEntry.set, isObject_setMember]
    exact object
  have id : (e.chain (chainId sources [header]) none).get "id" =
      some (.str (chainId sources [header])) := by
    unfold FileEntry.chain
    rw [FileEntry.get_set_of_ne _ (by decide), FileEntry.get_set object, if_pos rfl]
  have unset : (e.chain (chainId sources [header]) none).get "firstKeptEntryId" = none := by
    rw [get_chain e _ _ (by decide) (by decide), bare]
  rw [chainEntry, if_pos (by rw [FileEntry.isCompaction, type]; exact compaction),
    boundary_convertFirstKept s still chained unset id, get_chain e _ _ (by decide) (by decide)]

theorem not_same_of_hookMessage (plain : ∀ e ∈ entries, e.isSession = false)
    (first : source.entries = entries.map renameHookMessage) (second : fork.entries = entries)
    (same : SameConversation time source fork) : ∀ e ∈ entries, e.isHookMessage = false := by
  have content := same.content
  rw [first, second, forall₂_map_left_iff, forall₂_same] at content
  intro e mem
  exact hookless_of_same (plain e mem) (fun _ _ => rfl) (content e mem)

section

variable {time : Option (Json N) → Json N} {sources : Nat → IdSource}
  {source fork : SessionManager N} {header : FileEntry N}

/-- Of one entry, the boundary is all that an id can change. -/
theorem same_single_iff {e : FileEntry N} (s : header.isSession = true) (format : Version1 [e])
    (first : Manages source [renameHookMessage (chainEntry sources [header] [] none e)])
    (second : Manages fork [e]) :
    SameConversation time source fork ↔
      e.isHookMessage = false ∧ (e.isCompaction = true →
        (e.get "firstKeptEntryIndex").bind nat? ≠ some 1) := by
  have object := format.object e (mem_singleton_self _)
  have plain := format.plain e (mem_singleton_self _)
  obtain ⟨-, noParent, noBoundary⟩ := format.bare e (mem_singleton_self _)
  have same := sameContent_chainEntry sources [header] [] none e
  have type := same.type
  have id := id_chainEntry sources [header] [] none object
  have parent := parentId_chainEntry sources [header] [] none object
  have boundary := boundary_chainEntry sources s plain object noBoundary
  have chainPlain : (chainEntry sources [header] [] none e).isSession = false := by
    rw [isSession_eq_of_type type, plain]
  have root : e.parentId = none := by
    rw [FileEntry.parentId, FileEntry.string, noParent]
    rfl
  generalize chainEntry sources [header] [] none e = chained at *
  have unbounded : boundaryIndex [e] e = none := by
    rw [boundaryIndex, FileEntry.string, noBoundary]
    split <;> rfl
  have compaction : chained.isCompaction = e.isCompaction := by
    rw [FileEntry.isCompaction, FileEntry.isCompaction, type]
  constructor
  · intro agree
    have content := agree.content
    rw [first.listed, second.listed, forall₂_cons] at content
    have other := hookless_of_same chainPlain same content.1
    refine ⟨other, ?_⟩
    intro compacts i
    have boundaries := agree.boundaries
    rw [first.listed, second.listed,
      renameHookMessage_eq chainPlain ((isHookMessage_of_same same).trans other),
      map_singleton, map_singleton, singleton_inj, unbounded, boundaryIndex,
      compaction, if_pos compacts, boundary compacts, if_pos i, indexOf] at boundaries
    simp [id] at boundaries
  · rintro ⟨other, kept⟩
    rw [renameHookMessage_eq chainPlain ((isHookMessage_of_same same).trans other)] at first
    have bounded : boundaryIndex [chained] chained = none := by
      rw [boundaryIndex, compaction]
      split
      · rename_i compacts
        rw [boundary compacts, if_neg (kept compacts)]
        rfl
      · rfl
    constructor
    · rw [first.listed, second.listed]
      exact .cons same .nil
    · rw [first.listed, second.listed, map_singleton, map_singleton, parentIndex,
        parentIndex, parent, root]
      rfl
    · rw [first.listed, second.listed, map_singleton, map_singleton, bounded, unbounded]
    · rw [first.single parent chainPlain, second.single root plain]
      exact same.messages time

theorem migrateV1ToV2_two (sources : Nat → IdSource) {first second : FileEntry N} {rest : List (FileEntry N)}
    (s : header.isSession = true) (format : Version1 (first :: second :: rest)) :
    ∃ migrated later tail id,
      plainEntries (migrateV1ToV2 sources [header] none (first :: second :: rest)) =
        migrated :: later :: tail ∧ migrated.id = some id ∧ later.parentId = some id := by
  have firstPlain := format.plain first mem_cons_self
  have secondPlain := format.plain second (mem_cons_of_mem _ mem_cons_self)
  have id := id_chainEntry sources [header] (second :: rest) none
    (format.object first mem_cons_self)
  have migratedPlain : (chainEntry sources [header] (second :: rest) none first).isSession = false := by
    rw [isSession_eq_of_type (sameContent_chainEntry _ _ _ _ first).type, firstPlain]
  rw [migrateV1ToV2_cons _ _ _ _ firstPlain, migrateV1ToV2_cons _ _ _ _ secondPlain]
  generalize chainEntry sources [header] (second :: rest) none first = migrated at *
  generalize chainId sources [header] = parentId at *
  have parent := parentId_chainEntry sources ([header] ++ [migrated]) rest (some parentId)
    (format.object second (mem_cons_of_mem _ mem_cons_self))
  have laterPlain :
      (chainEntry sources ([header] ++ [migrated]) rest (some parentId) second).isSession =
        false := by
    rw [isSession_eq_of_type (sameContent_chainEntry _ _ _ _ second).type, secondPlain]
  generalize chainEntry sources ([header] ++ [migrated]) rest (some parentId) second = later at *
  obtain ⟨tail, eq⟩ := migrateV1ToV2_append sources ([header] ++ [migrated] ++ [later])
    (some (chainId sources ([header] ++ [migrated]))) rest
  refine ⟨migrated, later, plainEntries tail, parentId, ?_, id, parent⟩
  rw [eq]
  simp [plainEntries, s, migratedPlain, laterPlain]

theorem not_same_of_two {first second : FileEntry N} {rest : List (FileEntry N)}
    (s : header.isSession = true) (format : Version1 (first :: second :: rest))
    (opened : source.entries =
      (plainEntries (migrateV1ToV2 sources [header] none (first :: second :: rest))).map
        renameHookMessage)
    (forked : fork.entries = first :: second :: rest) : ¬ SameConversation time source fork := by
  intro same
  obtain ⟨-, noParent, -⟩ := format.bare second (mem_cons_of_mem _ mem_cons_self)
  obtain ⟨migrated, later, tail, id, whole, own, parent⟩ :=
    migrateV1ToV2_two sources s format
  have parents := same.parents
  rw [opened, forked, whole] at parents
  simp only [map_cons, cons.injEq] at parents
  have second_ := parents.2.1
  have found : parentIndex
      (renameHookMessage migrated :: renameHookMessage later :: tail.map renameHookMessage)
      (renameHookMessage later) = some 0 := by
    have own_ : (renameHookMessage migrated).id = some id := by rw [id_renameHookMessage, own]
    rw [parentIndex, parentId_renameHookMessage, parent, indexOf, bind_some,
      findIdx?_cons, if_pos (decide_eq_true own_)]
  have orphan : second.parentId = none := by
    rw [FileEntry.parentId, FileEntry.string, noParent]
    rfl
  rw [found, parentIndex, orphan] at second_
  cases second_

end

theorem fileVersion_of_file {version : Nat} (file : SessionFile version bytes header rest)
    (s : header.isSession = true) : fileVersion (header :: rest) = version := by
  rw [fileVersion_cons s]
  rcases file.numbered with ⟨none_, rfl⟩ | number
  · rw [none_]
    rfl
  · rw [number]
    rfl

/-- What a file of the first version is migrated to, behind its header. -/
theorem migrateV1ToV2_header (s : header.isSession = true) (sources : Nat → IdSource)
    (rest : List (FileEntry N)) :
    ∃ newHeader : FileEntry N, newHeader.isSession = true ∧
      migrateV1ToV2 sources [] none (header :: rest) =
        migrateV1ToV2 sources [newHeader] none rest := by
  refine ⟨header.set "version" (ofNat 2), ?_, ?_⟩
  · rw [isSession_eq_of_type (FileEntry.type_set header (by decide) _), s]
  · rw [migrateV1ToV2, if_pos s]
    rfl

theorem same_version1_iff {sources : Nat → IdSource} (s : header.isSession = true)
    (format : Version1 rest)
    (first : Manages source
      ((plainEntries (migrateV1ToV2 sources [] none (header :: rest))).map renameHookMessage))
    (second : Manages fork rest) :
    SameConversation time source fork ↔
      (∀ e ∈ rest, e.isHookMessage = false) ∧ rest.length ≤ 1 ∧
        ∀ e ∈ rest, e.isCompaction = true → (e.get "firstKeptEntryIndex").bind nat? ≠ some 1 := by
  obtain ⟨newHeader, newSession, eq⟩ := migrateV1ToV2_header s sources rest
  rw [eq] at first
  match rest with
  | [] =>
    have none_ : plainEntries (migrateV1ToV2 sources [newHeader] none []) = [] := by
      rw [migrateV1ToV2, plainEntries_cons newSession]
      rfl
    rw [none_] at first
    exact iff_of_true (same_of_manages first second)
      ⟨forall_mem_nil _, Nat.zero_le _, forall_mem_nil _⟩
  | [e] =>
    have chainPlain : (chainEntry sources [newHeader] [] none e).isSession = false := by
      rw [isSession_eq_of_type (sameContent_chainEntry _ _ _ _ e).type,
        format.plain e (mem_singleton_self _)]
    have one : plainEntries (migrateV1ToV2 sources [newHeader] none [e]) =
        [chainEntry sources [newHeader] [] none e] := by
      rw [migrateV1ToV2_cons _ _ _ _ (format.plain e (mem_singleton_self _)), migrateV1ToV2]
      simp [plainEntries, newSession, chainPlain]
    rw [one] at first
    rw [same_single_iff newSession format first second, forall_mem_singleton, forall_mem_singleton]
    exact and_congr_right fun _ => (and_iff_right (Nat.le_refl _)).symm
  | earlier :: later :: more =>
    refine iff_of_false (not_same_of_two newSession format first.listed second.listed) ?_
    rintro ⟨-, short, -⟩
    exact absurd short (by simp)

theorem same_version2_iff (first : Manages source ((plainEntries rest).map renameHookMessage))
    (second : Manages fork (plainEntries rest)) :
    SameConversation time source fork ↔ ∀ e ∈ rest, e.isHookMessage = false := by
  constructor
  · intro same e mem
    cases s : e.isSession with
    | true =>
      rw [FileEntry.isHookMessage, of_decide_eq_true s]
      rfl
    | false =>
      have plain : ∀ other ∈ plainEntries rest, other.isSession = false := by
        intro other inside
        exact not_eq_true' _ ▸ (mem_filter.mp inside).2
      have inside : e ∈ plainEntries rest :=
        mem_filter.mpr ⟨mem, by rw [s]; rfl⟩
      exact not_same_of_hookMessage plain first.listed second.listed same e inside
  · intro others
    rw [map_renameHookMessage others] at first
    exact same_of_manages first second

/-- A fork is what the source is opened as, up to ids, exactly when nothing is migrated. -/
theorem fork_same_iff {version : Nat} {bytes : List UInt8} {header : FileEntry N}
    {rest : List (FileEntry N)} (file : SessionFile version bytes header rest)
    (time : Option (Json N) → Json N) (sources forkSources : Nat → IdSource) (fresh : FileEntry N)
    (id timestamp cwd parentSession : String) :
    ∃ opened forked, OpenSession.openFile sources fresh bytes = some opened ∧
      forkFrom forkSources (sessionHeader id timestamp cwd (some parentSession)) bytes =
        some forked ∧
      (SameConversation time opened.manager forked.manager ↔ NothingMigrated version rest) := by
  have loaded : (loadEntriesFromFile (N := N) bytes).1 ≠ [] := by
    rw [file.loaded]
    exact List.cons_ne_nil _ _
  have valid : isHeader header = true := by
    obtain ⟨first, others, eq, headed⟩ := (holds_of_load loaded).header
    rw [file.loaded] at eq
    cases eq
    exact headed
  have s := (and_eq_true_iff.mp valid).1
  have number := fileVersion_of_file file s
  obtain ⟨opened, openEq, first⟩ := openFile_of_loaded file.loaded sources fresh
  obtain ⟨forked, forkEq, second⟩ := forkFrom_of_loaded file.loaded valid
    (isHeader_sessionHeader id timestamp cwd (some parentSession))
    (fileVersion_sessionHeader id timestamp cwd (some parentSession)).ge forkSources
  refine ⟨opened, forked, openEq, forkEq, ?_⟩
  rw [migrateToCurrentVersion, number] at first
  dsimp only at first
  by_cases current : version = CURRENT_SESSION_VERSION
  · rw [if_pos current.ge, getD_none, plainEntries_cons s] at first
    exact iff_of_true (same_of_manages first second) (Or.inl current)
  have older : ¬ CURRENT_SESSION_VERSION ≤ version := by
    have known := file.known.2
    omega
  rw [if_neg older, getD_some, plainEntries_migrateV2ToV3] at first
  rw [NothingMigrated, or_iff_right current]
  by_cases oldest : version = 1
  · subst oldest
    rw [if_pos (by decide)] at first
    have format := file.format rfl
    rw [plainEntries_of_plain format.plain] at second
    rw [same_version1_iff s format first second]
    exact and_congr_right fun _ => (imp_iff_right rfl).symm
  · have newer : ¬ version < 2 := by
      have known := file.known.1
      omega
    rw [if_neg newer, plainEntries_cons s] at first
    rw [same_version2_iff first second]
    exact (and_iff_left fun old => absurd old oldest).symm

def secondHeader : FileEntry Int :=
  ⟨.ofMembers [("type", some (.str "session")), ("version", some (Json.ofNat 2)),
    ("id", some (.str "source"))]⟩

def secondMessage (role : String) : FileEntry Int :=
  ⟨.ofMembers [("type", some (.str "message")), ("id", some (.str "a")),
    ("message", some (.obj [("role", .str role)]))]⟩

def secondBytes (role : String) : List UInt8 := entryBytes [secondHeader, secondMessage role]

theorem sessionFile_second (role : String) :
    SessionFile 2 (secondBytes role) secondHeader [secondMessage role] := by
  have truthy : ∀ e ∈ [secondHeader, secondMessage role], e.json.truthy = true := by
    intro e mem
    rcases mem_pair.mp mem with rfl | rfl <;> rfl
  have valid : isHeader secondHeader = true := rfl
  constructor
  · rw [secondBytes, (holds_entryBytes valid truthy).load]
  · exact Or.inr rfl
  · exact ⟨by decide, by decide⟩
  · intro old
    cases old

theorem fork_same_user :
    ∃ opened forked : OpenSession Int,
      OpenSession.openFile (fun _ => ⟨fun _ => "", ""⟩) secondHeader (secondBytes "user") =
        some opened ∧
      forkFrom (fun _ => ⟨fun _ => "", ""⟩) (sessionHeader "fork" "2026-01-01" "/" (some "source"))
        (secondBytes "user") = some forked ∧
      SameConversation (fun _ => .null) opened.manager forked.manager := by
  obtain ⟨opened, forked, openEq, forkEq, same⟩ := fork_same_iff (sessionFile_second "user")
    (fun _ => .null) (fun _ => ⟨fun _ => "", ""⟩) (fun _ => ⟨fun _ => "", ""⟩) secondHeader "fork"
    "2026-01-01" "/" "source"
  refine ⟨opened, forked, openEq, forkEq, same.mpr (Or.inr ⟨?_, fun old => nomatch old⟩)⟩
  intro e mem
  cases List.mem_singleton.mp mem
  rfl

/-- The opened session has a custom message where the fork still has a hook message. -/
theorem fork_keeps_hookMessage :
    SessionFile 2 (secondBytes "hookMessage") secondHeader [secondMessage "hookMessage"] ∧
    ∃ opened forked : OpenSession Int,
      OpenSession.openFile (fun _ => ⟨fun _ => "", ""⟩) secondHeader (secondBytes "hookMessage") =
        some opened ∧
      forkFrom (fun _ => ⟨fun _ => "", ""⟩) (sessionHeader "fork" "2026-01-01" "/" (some "source"))
        (secondBytes "hookMessage") = some forked ∧
      ¬ SameConversation (fun _ => .null) opened.manager forked.manager := by
  have file := sessionFile_second "hookMessage"
  obtain ⟨opened, openEq, first⟩ :=
    openFile_of_loaded file.loaded (fun _ => ⟨fun _ => "", ""⟩) secondHeader
  obtain ⟨forked, forkEq, second⟩ := forkFrom_of_loaded file.loaded rfl
    (isHeader_sessionHeader "fork" "2026-01-01" "/" (some "source"))
    (fileVersion_sessionHeader "fork" "2026-01-01" "/" (some "source")).ge
    (fun _ => ⟨fun _ => "", ""⟩)
  refine ⟨file, opened, forked, openEq, forkEq, ?_⟩
  intro same
  have hookless : ∀ e ∈ [secondMessage "hookMessage"], e.isHookMessage = false :=
    (same_version2_iff first second).mp same
  exact absurd (hookless _ (List.mem_singleton_self _)) (by decide)

end Trpi.CodingAgent
