import Trpi.CodingAgent.SessionFile

/-!
# The session manager

A session in memory, with its file: entries are appended below the leaf, and the leaf can be
moved. Until there is an assistant message nothing is written to the file of a new session;
then all of it is, and each entry after that. A write may throw after any number of its
bytes. Memory is changed before the file is written.
-/

namespace Trpi.CodingAgent

open Library

variable {N : Type}

/-- What `_buildIndex` makes of the entries. -/
structure SessionIndex (N : Type) where
  byId : EntryIndex N
  labelsById : InsertionMap (Option String) (Json N)
  labelTimestampsById : InsertionMap (Option String) (Option (Json N))
  leafId : LeafId

structure SessionManager (N : Type) extends SessionIndex N where
  persist : Bool
  flushed : Bool
  fileEntries : List (FileEntry N)

structure OpenSession (N : Type) where
  manager : SessionManager N
  file : Option (List UInt8)

def SessionIndex.empty : SessionIndex N where
  byId := .empty
  labelsById := .empty
  labelTimestampsById := .empty
  leafId := .null

variable [JsonNumber N]

namespace SessionIndex

/-- A label is set, or cleared by one that is not truthy. -/
def setLabel (index : SessionIndex N) (targetId : Option String) (label : Option (Json N))
    (timestamp : Option (Json N)) : SessionIndex N :=
  match label with
  | none =>
    { index with
      labelsById := index.labelsById.erase targetId
      labelTimestampsById := index.labelTimestampsById.erase targetId }
  | some label =>
    if label.truthy then
      { index with
        labelsById := index.labelsById.set targetId label
        labelTimestampsById := index.labelTimestampsById.set targetId timestamp }
    else
      { index with
        labelsById := index.labelsById.erase targetId
        labelTimestampsById := index.labelTimestampsById.erase targetId }

theorem byId_setLabel (i : SessionIndex N) (targetId : Option String)
    (label timestamp : Option (Json N)) : (i.setLabel targetId label timestamp).byId = i.byId := by
  unfold setLabel
  split
  · rfl
  · split <;> rfl

theorem leafId_setLabel (i : SessionIndex N) (targetId : Option String)
    (label timestamp : Option (Json N)) :
    (i.setLabel targetId label timestamp).leafId = i.leafId := by
  unfold setLabel
  split
  · rfl
  · split <;> rfl

def add (index : SessionIndex N) (entry : FileEntry N) : SessionIndex N :=
  if entry.isSession then index
  else
    let indexed :=
      { index with byId := index.byId.set entry.id entry, leafId := LeafId.of entry.id }
    if entry.isLabel then
      indexed.setLabel (entry.string "targetId") (entry.get "label") (entry.get "timestamp")
    else indexed

variable {e : FileEntry N}

theorem byId_add (i : SessionIndex N)
    (plain : e.isSession = false) : (i.add e).byId = i.byId.set e.id e := by
  rw [add, if_neg (by rw [plain]; exact Bool.noConfusion)]
  dsimp only
  split
  · exact byId_setLabel _ _ _ _
  · rfl

theorem leafId_add (i : SessionIndex N)
    (plain : e.isSession = false) : (i.add e).leafId = LeafId.of e.id := by
  rw [add, if_neg (by rw [plain]; exact Bool.noConfusion)]
  dsimp only
  split
  · exact leafId_setLabel _ _ _ _
  · rfl

def build (entries : List (FileEntry N)) : SessionIndex N := entries.foldl add .empty

end SessionIndex

def sessionHeader (id timestamp cwd : String) (parentSession : Option String) : FileEntry N :=
  ⟨.ofMembers [("type", some (.str "session")),
    ("version", some (Json.ofNat CURRENT_SESSION_VERSION)), ("id", some (.str id)),
    ("timestamp", some (.str timestamp)), ("cwd", some (.str cwd)),
    ("parentSession", parentSession.map Json.str)]⟩

section

variable (id timestamp cwd : String) (parentSession : Option String)

theorem isHeader_sessionHeader :
    isHeader (sessionHeader (N := N) id timestamp cwd parentSession) = true := by
  simp [isHeader, sessionHeader, FileEntry.isSession, FileEntry.type, FileEntry.id,
    FileEntry.string, FileEntry.get, Json.get?_ofMembers_cons, Json.string?]

theorem fileVersion_sessionHeader :
    fileVersion [sessionHeader (N := N) id timestamp cwd parentSession] =
      CURRENT_SESSION_VERSION := by
  have s := (Bool.and_eq_true_iff.mp
    (isHeader_sessionHeader (N := N) id timestamp cwd parentSession)).1
  rw [fileVersion, List.find?_cons_of_pos s]
  simp [sessionHeader, FileEntry.get, Json.get?_ofMembers_cons]

end

namespace SessionManager

def newSession (persist : Bool) (header : FileEntry N) : SessionManager N :=
  { SessionIndex.empty with persist := persist, flushed := false, fileEntries := [header] }

/-- `_loadEntries`, of entries that have a header; whether the file is to be rewritten. -/
def loadEntries (sources : Nat → IdSource) (persist : Bool) (entries : List (FileEntry N)) :
    SessionManager N × Bool :=
  match migrateToCurrentVersion sources entries with
  | none =>
    ({ SessionIndex.build entries with
        persist := persist, flushed := true, fileEntries := entries }, false)
  | some migrated =>
    ({ SessionIndex.build migrated with
        persist := persist, flushed := true, fileEntries := migrated }, true)

/-- The entries without the header. -/
def entries (m : SessionManager N) : List (FileEntry N) :=
  m.fileEntries.filter fun entry => !entry.isSession

def buildSessionContext (time : Option (Json N) → Json N) (m : SessionManager N) :
    SessionContext N :=
  Trpi.CodingAgent.buildSessionContext time m.entries m.leafId m.byId

end SessionManager

namespace OpenSession

/-- A file that is no session is refused, an empty one made a session. -/
def openFile (sources : Nat → IdSource) (header : FileEntry N) (bytes : List UInt8) :
    Option (OpenSession N) :=
  let loaded := loadEntriesFromFile bytes
  if loaded.1 = [] then
    if bytes = [] then
      some
        { manager := { SessionManager.newSession true header with flushed := true }
          file := some (entryBytes [header]) }
    else none
  else
    let opened := SessionManager.loadEntries sources true loaded.1
    some
      { manager := opened.1
        file := some (if opened.2 then entryBytes opened.1.fileEntries else loaded.2) }

/-- Bytes put at the end of the file, up to where the write throws. -/
def appendFile (s : OpenSession N) (bytes : List UInt8) (fault : Option Nat) :
    OpenSession N × Bool :=
  match fault with
  | none => ({ s with file := some (s.file.getD [] ++ bytes) }, true)
  | some written =>
    ({ s with file := some (s.file.getD [] ++ bytes.take written) }, false)

/-- `_persist`, and whether it returned; a file that is there is not created again. -/
def persistEntry (s : OpenSession N) (entry : FileEntry N) (fault : Option Nat) :
    OpenSession N × Bool :=
  if s.manager.persist = false then (s, true)
  else if s.manager.fileEntries.any (·.isAssistant) = false then
    if s.manager.flushed then s.appendFile (entryBytes [entry]) fault
    else (s, true)
  else if s.manager.flushed = false then
    match s.file, fault with
    | some _, _ => (s, false)
    | none, none =>
      ({ manager := { s.manager with flushed := true }
         file := some (entryBytes s.manager.fileEntries) }, true)
    | none, some written =>
      ({ s with file := some ((entryBytes s.manager.fileEntries).take written) }, false)
  else s.appendFile (entryBytes [entry]) fault

def appendEntry (s : OpenSession N) (entry : FileEntry N) (fault : Option Nat) :
    OpenSession N × Bool :=
  persistEntry
    { s with
      manager :=
        { s.manager with
          fileEntries := s.manager.fileEntries ++ [entry]
          byId := s.manager.byId.set entry.id entry
          leafId := LeafId.of entry.id } }
    entry fault

end OpenSession

end Trpi.CodingAgent
