import Trpi.CodingAgent.SessionManager

/-!
# A session of one branch

The path to an entry becomes a session of its own: labels are taken out of it, each entry is
put below the one kept before it, and a compaction that kept from a label keeps from the
entry behind that label. Labels of the kept entries are appended at the end. The file is
written at once if there is an assistant message, else when there is one.
-/

namespace Trpi.CodingAgent

open Library

variable {N : Type}

def parentJson : Option String → Json N
  | none => .null
  | some id => .str id

abbrev Replacements := InsertionMap (Option String) (Option String)

def Replacements.settle (replacementByLabelId : Replacements)
    (pendingLabelIds : List (Option String)) (id : Option String) : Replacements :=
  pendingLabelIds.foldl (fun replacements labelId => replacements.set labelId id)
    replacementByLabelId

/-- `{ ...entry, parentId }`, and where a compaction keeps from. -/
def relink (replacementByLabelId : Replacements) (parentId : Option String)
    (entry : FileEntry N) : FileEntry N :=
  let relinked := entry.set "parentId" (parentJson parentId)
  if entry.isCompaction then
    match replacementByLabelId.get? (entry.string "firstKeptEntryId") with
    | some (some id) => relinked.set "firstKeptEntryId" (.str id)
    | _ => relinked
  else relinked

/-- The path without its labels, behind what was replaced, is pending and was kept last. -/
def pathWithoutLabels (replacementByLabelId : Replacements)
    (pendingLabelIds : List (Option String)) (pathParentId : Option String) :
    List (FileEntry N) → List (FileEntry N)
  | [] => []
  | entry :: rest =>
    if entry.isLabel then
      pathWithoutLabels replacementByLabelId (pendingLabelIds ++ [entry.id]) pathParentId rest
    else
      let replaced := replacementByLabelId.settle pendingLabelIds entry.id
      relink replaced pathParentId entry :: pathWithoutLabels replaced [] entry.id rest

structure LabelToWrite (N : Type) where
  targetId : Option String
  label : Json N
  timestamp : Option (Json N)

def LabelToWrite.entry (toWrite : LabelToWrite N) (id : String) (parentId : Option String) :
    FileEntry N :=
  ⟨.ofMembers [("type", some (.str "label")), ("id", some (.str id)),
    ("parentId", some (parentJson parentId)), ("timestamp", toWrite.timestamp),
    ("targetId", toWrite.targetId.map Json.str), ("label", some toWrite.label)]⟩

def labelEntries (sources : Nat → IdSource) :
    Nat → List (Option String) → Option String → List (LabelToWrite N) → List (FileEntry N)
  | _, _, _, [] => []
  | n, pathEntryIds, parentId, toWrite :: rest =>
    let id := generateId (sources n) fun id => pathEntryIds.contains (some id)
    toWrite.entry id parentId ::
      labelEntries sources (n + 1) (pathEntryIds ++ [some id]) (some id) rest

namespace SessionIndex

def getBranch (index : SessionIndex N) (fromId : String) : List (FileEntry N) :=
  match if fromId = "" then none else index.byId.get? (some fromId) with
  | none => []
  | some entry => pathFrom index.byId entry

def labelsToWrite (index : SessionIndex N) (pathEntryIds : List (Option String)) :
    List (LabelToWrite N) :=
  (index.labelsById.toList.filter fun binding => pathEntryIds.contains binding.1).map
    fun binding =>
      { targetId := binding.1
        label := binding.2
        timestamp := (index.labelTimestampsById.get? binding.1).join }

end SessionIndex

/-- `pathWithoutLabels[pathWithoutLabels.length - 1]?.id || null`. -/
def lastEntryId (path : List (FileEntry N)) : Option String :=
  (path.getLast?.bind FileEntry.id).filter (· ≠ "")

variable [JsonNumber N]

namespace SessionManager

def branchedEntries (m : SessionManager N) (sources : Nat → IdSource)
    (path : List (FileEntry N)) : List (FileEntry N) :=
  let kept := pathWithoutLabels .empty [] none path
  let pathEntryIds := kept.map FileEntry.id
  kept ++ labelEntries sources 0 pathEntryIds (lastEntryId kept) (m.labelsToWrite pathEntryIds)

end SessionManager

namespace OpenSession

/-- The session goes on as that of the branch; an entry that is not there throws. -/
def createBranchedSession (s : OpenSession N) (sources : Nat → IdSource)
    (header : FileEntry N) (leafId : String) : Option (OpenSession N) :=
  let path := s.manager.getBranch leafId
  if path = [] then none
  else
    let fileEntries := header :: s.manager.branchedEntries sources path
    let hasAssistant := fileEntries.any (·.isAssistant)
    let index := SessionIndex.build fileEntries
    if s.manager.persist then
      some
        { manager := { index with persist := true, flushed := hasAssistant, fileEntries }
          file := if hasAssistant then some (entryBytes fileEntries) else none }
    else
      some
        { manager :=
            { index with persist := false, flushed := s.manager.flushed, fileEntries }
          file := s.file }

end OpenSession

end Trpi.CodingAgent
