import Trpi.CodingAgent.SessionFile

/-!
# What migration leaves

Migrated entries are as many as there were, behind a header of the current version; what is
written of them is read back without another migration.
-/

namespace Trpi.CodingAgent

open Library Json List

variable {N : Type}

namespace FileEntry

theorem isObject_of_isSession {e : FileEntry N} (s : e.isSession = true) :
    e.json.isObject = true := by
  have type : e.type = some "session" := of_decide_eq_true s
  rw [FileEntry.type, string, Option.bind_eq_some_iff] at type
  obtain ⟨v, present, -⟩ := type
  exact isObject_of_get? present

theorem get_set {e : FileEntry N} (object : e.json.isObject = true)
    (name other : String) (v : Json N) :
    (e.set name v).get other = if name = other then some v else e.get other :=
  get?_setMember object name other v

theorem get_delete (e : FileEntry N) (name other : String) :
    (e.delete name).get other = if name = other then none else e.get other :=
  get?_deleteMember e.json name other

variable {name other : String}

/-- Setting a member changes no other, whatever the entry is. -/
theorem get_set_of_ne (e : FileEntry N) (apart : name ≠ other)
    (v : Json N) : (e.set name v).get other = e.get other := by
  cases object : e.json.isObject with
  | true => rw [get_set object, if_neg apart]
  | false =>
    have plain : (e.set name v).json.isObject = false := by
      rw [set, isObject_setMember]
      exact object
    rw [get, get, get?_eq_none_of_not_object plain, get?_eq_none_of_not_object object]

theorem get_delete_of_ne (e : FileEntry N) (apart : name ≠ other) :
    (e.delete name).get other = e.get other := by
  rw [get_delete, if_neg apart]

theorem type_set (e : FileEntry N) (apart : name ≠ "type") (v : Json N) :
    (e.set name v).type = e.type := by
  rw [type, type, string, string, get_set_of_ne e apart]

end FileEntry

open FileEntry

variable {e header : FileEntry N} {name : String}

theorem isSession_eq_of_type {other : FileEntry N} (same : e.type = other.type) :
    e.isSession = other.isSession := by
  rw [isSession, isSession, same]

theorem isHeader_set_version (valid : isHeader header = true) (version : Json N) :
    isHeader (header.set "version" version) = true := by
  have type : (header.set "version" version).isSession = header.isSession :=
    isSession_eq_of_type (type_set header (by decide) version)
  have id : (header.set "version" version).id = header.id := by
    rw [FileEntry.id, FileEntry.id, string, string, get_set_of_ne header (by decide)]
  rw [isHeader, type, id]
  exact valid

theorem get_chain (e : FileEntry N) (id : String) (parentId : Option String)
    (own : "id" ≠ name) (parent : "parentId" ≠ name) :
    (e.chain id parentId).get name = e.get name := by
  unfold FileEntry.chain
  rw [FileEntry.get_set_of_ne _ parent, FileEntry.get_set_of_ne _ own]

theorem id_chain (object : e.json.isObject = true) (id : String) (parentId : Option String) :
    (e.chain id parentId).id = some id := by
  unfold FileEntry.chain
  rw [FileEntry.id, FileEntry.string, FileEntry.get_set_of_ne _ (by decide),
    FileEntry.get_set object, if_pos rfl]
  rfl

theorem parentId_chain (object : e.json.isObject = true) (id : String)
    (parentId : Option String) : (e.chain id parentId).parentId = parentId := by
  have chained : (e.set "id" (.str id)).json.isObject = true := by
    rw [FileEntry.set, isObject_setMember]
    exact object
  unfold FileEntry.chain
  rw [FileEntry.parentId, FileEntry.string, FileEntry.get_set chained, if_pos rfl]
  cases parentId <;> rfl

variable [JsonNumber N] {ahead done : List (FileEntry N)}

theorem get_convertFirstKept (done ahead : List (FileEntry N)) (e : FileEntry N)
    (boundary : "firstKeptEntryId" ≠ name) (i : "firstKeptEntryIndex" ≠ name) :
    (convertFirstKept done ahead e).get name = e.get name := by
  rw [convertFirstKept]
  split
  · rfl
  dsimp only
  rw [FileEntry.get_delete_of_ne _ i]
  split
  · rfl
  split
  · rfl
  split
  · exact FileEntry.get_delete_of_ne _ boundary
  · exact FileEntry.get_set_of_ne _ boundary _

theorem get_renameHookMessage (e : FileEntry N) (version : "version" ≠ name)
    (m : "message" ≠ name) : (renameHookMessage e).get name = e.get name := by
  rw [renameHookMessage]
  split
  · exact FileEntry.get_set_of_ne _ version _
  split
  · split
    · rfl
    · exact FileEntry.get_set_of_ne _ m _
  · rfl

theorem truthy_convertFirstKept
    (truthy : e.json.truthy = true) : (convertFirstKept done ahead e).json.truthy = true := by
  rw [convertFirstKept]
  split
  · exact truthy
  dsimp only
  rw [FileEntry.delete, truthy_deleteMember]
  split
  · exact truthy
  split
  · exact truthy
  split
  · rw [FileEntry.delete, truthy_deleteMember]
    exact truthy
  · rw [FileEntry.set, truthy_setMember]
    exact truthy

theorem truthy_chain (truthy : e.json.truthy = true) (id : String) (parentId : Option String) :
    (e.chain id parentId).json.truthy = true := by
  unfold FileEntry.chain
  rw [FileEntry.set, truthy_setMember, FileEntry.set, truthy_setMember]
  exact truthy

theorem truthy_renameHookMessage (truthy : e.json.truthy = true) :
    (renameHookMessage e).json.truthy = true := by
  rw [renameHookMessage]
  split
  · rw [FileEntry.set, truthy_setMember]
    exact truthy
  split
  · split
    · exact truthy
    · rw [FileEntry.set, truthy_setMember]
      exact truthy
  · exact truthy

theorem type_renameHookMessage (e : FileEntry N) : (renameHookMessage e).type = e.type := by
  rw [renameHookMessage]
  split
  · exact type_set e (by decide) _
  split
  · split
    · rfl
    · exact type_set e (by decide) _
  · rfl

theorem migrateV1ToV2_append (sources : Nat → IdSource) (done : List (FileEntry N))
    (prevId : Option String) (ahead : List (FileEntry N)) :
    ∃ migrated, migrateV1ToV2 sources done prevId ahead = done ++ migrated := by
  induction ahead generalizing done prevId with
  | nil => exact ⟨[], (append_nil _).symm⟩
  | cons e ahead ih =>
    rw [migrateV1ToV2]
    split
    · obtain ⟨migrated, eq⟩ := ih (done ++ [e.set "version" (ofNat 2)]) prevId
      exact ⟨_, eq.trans (append_assoc _ _ _)⟩
    · dsimp only
      obtain ⟨migrated, eq⟩ := ih (done ++ [_]) (some _)
      exact ⟨_, eq.trans (append_assoc _ _ _)⟩

theorem truthy_migrateV1ToV2 (sources : Nat → IdSource) {prevId : Option String}
    (before : ∀ e ∈ done, e.json.truthy = true) (after : ∀ e ∈ ahead, e.json.truthy = true) :
    ∀ e ∈ migrateV1ToV2 sources done prevId ahead, e.json.truthy = true := by
  induction ahead generalizing done prevId with
  | nil => exact before
  | cons e ahead ih =>
    obtain ⟨here, later⟩ := forall_mem_cons.mp after
    rw [migrateV1ToV2]
    split
    · refine ih ?_ later
      rw [forall_mem_append, forall_mem_singleton]
      constructor
      · exact before
      · rw [FileEntry.set, truthy_setMember]
        exact here
    · refine ih ?_ later
      rw [forall_mem_append, forall_mem_singleton]
      constructor
      · exact before
      · split
        · exact truthy_convertFirstKept (truthy_chain here _ _)
        · exact truthy_chain here _ _

theorem fileVersion_cons (s : header.isSession = true) (rest : List (FileEntry N)) :
    fileVersion (header :: rest) = ((header.get "version").bind nat?).getD 1 := by
  rw [fileVersion, find?_cons_of_pos s]
  rfl

theorem migrateToCurrentVersion_spec {sources : Nat → IdSource} {rest migrated : List (FileEntry N)}
    (valid : isHeader header = true) (truthy : ∀ e ∈ header :: rest, e.json.truthy = true)
    (eq : migrateToCurrentVersion sources (header :: rest) = some migrated) :
    (∃ newHeader more, migrated = newHeader :: more ∧ isHeader newHeader = true) ∧
      (∀ e ∈ migrated, e.json.truthy = true) ∧ fileVersion migrated = CURRENT_SESSION_VERSION := by
  have s : header.isSession = true := (Bool.and_eq_true_iff.mp valid).1
  have chained : ∃ newHeader more,
      (if fileVersion (header :: rest) < 2 then migrateV1ToV2 sources [] none (header :: rest)
        else header :: rest) = newHeader :: more ∧ isHeader newHeader = true ∧
      ∀ e ∈ newHeader :: more, e.json.truthy = true := by
    split
    · obtain ⟨more, split_⟩ := migrateV1ToV2_append sources
        ([] ++ [header.set "version" (ofNat 2)]) none rest
      have whole : migrateV1ToV2 sources [] none (header :: rest) =
          header.set "version" (ofNat 2) :: more := by
        rw [migrateV1ToV2, if_pos s]
        exact split_
      refine ⟨_, more, whole, isHeader_set_version valid _, ?_⟩
      rw [← whole]
      exact truthy_migrateV1ToV2 sources (forall_mem_nil _) truthy
    · exact ⟨header, rest, rfl, valid, truthy⟩
  obtain ⟨newHeader, more, whole, headed, holds⟩ := chained
  have newSession : newHeader.isSession = true := (Bool.and_eq_true_iff.mp headed).1
  rw [migrateToCurrentVersion] at eq
  dsimp only at eq
  rw [whole] at eq
  split at eq
  · cases eq
  cases eq
  have renamed : renameHookMessage newHeader = newHeader.set "version" (ofNat 3) := by
    rw [renameHookMessage, if_pos newSession]
  have newValid := isHeader_set_version headed (ofNat 3)
  rw [migrateV2ToV3, map_cons, renamed]
  refine ⟨⟨_, _, rfl, newValid⟩, ?_, ?_⟩
  · rw [← renamed, ← map_cons, forall_mem_map]
    intro e mem
    exact truthy_renameHookMessage (holds e mem)
  · rw [fileVersion_cons (Bool.and_eq_true_iff.mp newValid).1,
      get_set (isObject_of_isSession newSession), if_pos rfl]
    simp [CURRENT_SESSION_VERSION]

theorem fileVersion_append (s : header.isSession = true) (rest more : List (FileEntry N)) :
    fileVersion (header :: rest ++ more) = fileVersion (header :: rest) := by
  rw [cons_append, fileVersion_cons s, fileVersion_cons s]

end Trpi.CodingAgent
