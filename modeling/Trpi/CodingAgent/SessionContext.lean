import Trpi.Library.InsertionMap
import Trpi.Library.JsonObject

/-!
# Entries of a coding session and their context

Session files are read without validation, so an entry is whatever its line holds and its
fields are looked up as the source does. An id that is no string counts as undefined, a
message as an object. The path of a leaf is followed along parent ids; the fuel is enough
for every tree. How `Date` reads a timestamp is a parameter.
-/

namespace Trpi.CodingAgent

open Library

variable {N : Type}

structure FileEntry (N : Type) where
  json : Json N

namespace FileEntry

def get (entry : FileEntry N) (name : String) : Option (Json N) := entry.json.get? name

def string (entry : FileEntry N) (name : String) : Option String :=
  (entry.get name).bind Json.string?

def type (entry : FileEntry N) : Option String := entry.string "type"

def id (entry : FileEntry N) : Option String := entry.string "id"

def parentId (entry : FileEntry N) : Option String := entry.string "parentId"

/-- `{ ...entry, name: value }`. -/
def set (entry : FileEntry N) (name : String) (value : Json N) : FileEntry N :=
  ⟨entry.json.setMember name value⟩

def delete (entry : FileEntry N) (name : String) : FileEntry N := ⟨entry.json.deleteMember name⟩

/-- `entry.message.role`. -/
def role (entry : FileEntry N) : Option String :=
  ((entry.get "message").bind fun message => message.get? "role").bind Json.string?

def isSession (entry : FileEntry N) : Bool := entry.type = some "session"

def isCompaction (entry : FileEntry N) : Bool := entry.type = some "compaction"

def isLabel (entry : FileEntry N) : Bool := entry.type = some "label"

def isAssistant (entry : FileEntry N) : Bool :=
  entry.type = some "message" && entry.role = some "assistant"

end FileEntry

/-- What a leaf pointer holds; it is undefined behind an entry without an id. -/
inductive LeafId where
  | null
  | undefined
  | entry (id : String)
  deriving DecidableEq

def LeafId.of : Option String → LeafId
  | none => .undefined
  | some id => .entry id

abbrev EntryIndex (N : Type) := InsertionMap (Option String) (FileEntry N)

def buildEntryIndex (entries : List (FileEntry N)) : EntryIndex N :=
  entries.foldl (fun index entry => index.set entry.id entry) .empty

/-- `parentId ? index.get(parentId) : undefined`. -/
def parentOf (index : EntryIndex N) (entry : FileEntry N) : Option (FileEntry N) :=
  match entry.parentId with
  | none => none
  | some parentId => if parentId = "" then none else index.get? (some parentId)

def walk (index : EntryIndex N) : Nat → FileEntry N → List (FileEntry N)
  | 0, _ => []
  | fuel + 1, current =>
    current ::
      match parentOf index current with
      | none => []
      | some parent => walk index fuel parent

def pathFrom (index : EntryIndex N) (leaf : FileEntry N) : List (FileEntry N) :=
  (walk index (index.toList.length + 1) leaf).reverse

def buildSessionPath (entries : List (FileEntry N)) (leafId : LeafId) (index : EntryIndex N) :
    List (FileEntry N) :=
  match leafId with
  | .null => []
  | .undefined =>
    match entries.getLast? with
    | none => []
    | some leaf => pathFrom index leaf
  | .entry id =>
    match (if id = "" then none else index.get? (some id)).or entries.getLast? with
    | none => []
    | some leaf => pathFrom index leaf

structure ModelChoice (N : Type) where
  provider : Option (Json N)
  modelId : Option (Json N)

structure ContextSettings (N : Type) where
  thinkingLevel : Option (Json N)
  model : Option (ModelChoice N)

structure SessionContext (N : Type) where
  messages : List (Json N)
  settings : ContextSettings N

def ContextSettings.initial : ContextSettings N where
  thinkingLevel := some (.str "off")
  model := none

def ContextSettings.next (settings : ContextSettings N) (entry : FileEntry N) :
    ContextSettings N :=
  if entry.type = some "thinking_level_change" then
    { settings with thinkingLevel := entry.get "thinkingLevel" }
  else if entry.type = some "model_change" then
    { settings with model := some ⟨entry.get "provider", entry.get "modelId"⟩ }
  else if entry.isAssistant then
    { settings with
      model := some
        ⟨(entry.get "message").bind fun message => message.get? "provider",
          (entry.get "message").bind fun message => message.get? "model"⟩ }
  else settings

def getSessionContextSettings (path : List (FileEntry N)) : ContextSettings N :=
  path.foldl ContextSettings.next .initial

section

variable [JsonNumber N] (time : Option (Json N) → Json N)

def createBranchSummaryMessage (entry : FileEntry N) : Json N :=
  .ofMembers [("role", some (.str "branchSummary")), ("summary", entry.get "summary"),
    ("fromId", entry.get "fromId"), ("timestamp", some (time (entry.get "timestamp")))]

def createCompactionSummaryMessage (entry : FileEntry N) : Json N :=
  .ofMembers [("role", some (.str "compactionSummary")), ("summary", entry.get "summary"),
    ("tokensBefore", entry.get "tokensBefore"), ("timestamp", some (time (entry.get "timestamp")))]

/-- `value == null`. -/
def isNullish : Option (Json N) → Bool
  | none => true
  | some .null => true
  | _ => false

def createCustomMessage (entry : FileEntry N) : Json N :=
  .ofMembers [("role", some (.str "custom")), ("customType", entry.get "customType"),
    ("content", if isNullish (entry.get "content") then some (.arr []) else entry.get "content"),
    ("display", entry.get "display"), ("details", entry.get "details"),
    ("timestamp", some (time (entry.get "timestamp")))]

def contextMessage (role : Option String) (message : Json N) : Json N :=
  if (role = some "user" ∨ role = some "assistant" ∨ role = some "toolResult") ∧
      isNullish (message.get? "content") then
    message.setMember "content" (.arr [])
  else message

def sessionEntryToContextMessages (entry : FileEntry N) : List (Json N) :=
  if entry.type = some "message" then
    (entry.get "message").toList.map (contextMessage entry.role)
  else if entry.type = some "custom_message" then [createCustomMessage time entry]
  else if entry.type = some "branch_summary" ∧ (entry.get "summary").any Json.truthy then
    [createBranchSummaryMessage time entry]
  else if entry.type = some "compaction" then [createCompactionSummaryMessage time entry]
  else []

def keptEntries (firstKeptEntryId : Option String) (before : List (FileEntry N)) :
    List (FileEntry N) :=
  before.dropWhile fun entry => entry.id ≠ firstKeptEntryId

def contextEntriesOf (path : List (FileEntry N)) : List (FileEntry N) :=
  match path.reverse.find? (·.isCompaction) with
  | none => path
  | some compaction =>
    match path.findIdx? fun entry => entry.id = compaction.id with
    | none => path
    | some index =>
      compaction ::
        (keptEntries (compaction.string "firstKeptEntryId") (path.take index) ++
          path.drop (index + 1))

def buildContextEntries (entries : List (FileEntry N)) (leafId : LeafId) (index : EntryIndex N) :
    List (FileEntry N) :=
  contextEntriesOf (buildSessionPath entries leafId index)

def buildSessionContext (entries : List (FileEntry N)) (leafId : LeafId) (index : EntryIndex N) :
    SessionContext N where
  messages := (buildContextEntries entries leafId index).flatMap
    (sessionEntryToContextMessages time)
  settings := getSessionContextSettings (buildSessionPath entries leafId index)

end

end Trpi.CodingAgent

/-!
## Entries that are the same up to ids

What an entry adds to a context is read from its content, which the ids are no part of.
-/

namespace Trpi.CodingAgent

open Library

variable {N : Type}

def isIdMember (name : String) : Bool :=
  name = "id" || name = "parentId" || name = "firstKeptEntryId" || name = "firstKeptEntryIndex"

def SameContent (e other : FileEntry N) : Prop :=
  ∀ name, isIdMember name = false → e.get name = other.get name

namespace SameContent

variable {e other : FileEntry N}

section

variable (same : SameContent e other)

include same

theorem string {name : String}
    (content : isIdMember name = false) : e.string name = other.string name := by
  rw [FileEntry.string, FileEntry.string, same name content]

theorem type : e.type = other.type :=
  same.string (by decide)

theorem role : e.role = other.role := by
  rw [FileEntry.role, FileEntry.role, same "message" (by decide)]

theorem messages [JsonNumber N] (time : Option (Json N) → Json N) :
    sessionEntryToContextMessages time e = sessionEntryToContextMessages time other := by
  simp only [sessionEntryToContextMessages, createCustomMessage, createBranchSummaryMessage,
    createCompactionSummaryMessage, same.type, same.role, same "message" (by decide),
    same "customType" (by decide), same "content" (by decide), same "display" (by decide),
    same "details" (by decide), same "timestamp" (by decide), same "summary" (by decide),
    same "fromId" (by decide), same "tokensBefore" (by decide)]

theorem next (settings : ContextSettings N) : settings.next e = settings.next other := by
  rw [ContextSettings.next, ContextSettings.next, FileEntry.isAssistant, FileEntry.isAssistant,
    same.type, same.role, same "message" (by decide), same "thinkingLevel" (by decide),
    same "provider" (by decide), same "modelId" (by decide)]

end

end SameContent

end Trpi.CodingAgent
