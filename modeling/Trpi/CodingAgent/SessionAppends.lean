import Trpi.CodingAgent.SessionManager
import Trpi.Library.Machine

/-!
# Appends and moves of the leaf

Every append makes an entry below the leaf with an id of its own and appends it; labels are
kept in memory once their entry is written, and a branch summary moves the leaf first. An
append may be refused, which changes nothing, or its write may throw. What was appended by
calls that returned is recorded.
-/

namespace Trpi.CodingAgent

open Library

variable {N : Type}

def isLineBreak (c : Char) : Bool := c = '\r' || c = '\n'

/-- The characters that `trim` takes off. -/
def isTrimmed (c : Char) : Bool :=
  (9 ≤ c.toNat && c.toNat ≤ 13) || c.toNat = 0x20 || c.toNat = 0xA0 || c.toNat = 0x1680 ||
    (0x2000 ≤ c.toNat && c.toNat ≤ 0x200A) || c.toNat = 0x2028 || c.toNat = 0x2029 ||
    c.toNat = 0x202F || c.toNat = 0x205F || c.toNat = 0x3000 || c.toNat = 0xFEFF

/-- Each run of line breaks becomes one blank. -/
def joinBreaks : Bool → List Char → List Char
  | _, [] => []
  | inside, c :: rest =>
    if isLineBreak c then
      if inside then joinBreaks true rest else ' ' :: joinBreaks true rest
    else c :: joinBreaks false rest

def trimChars (text : List Char) : List Char :=
  ((text.dropWhile isTrimmed).reverse.dropWhile isTrimmed).reverse

def sanitizeName (name : String) : String :=
  String.ofList (trimChars (joinBreaks false name.toList))

/-- What is appended below the leaf. -/
inductive AppendRequest (N : Type) where
  | message (message : Json N)
  | thinkingLevelChange (thinkingLevel : String)
  | modelChange (provider modelId : String)
  | compaction (summary firstKeptEntryId : String) (tokensBefore : N) (details : Option (Json N))
      (usage : Option (Json N)) (fromHook : Option Bool)
  | customEntry (customType : String) (data : Option (Json N))
  | sessionInfo (name : String)
  | customMessageEntry (customType : String) (content : Json N) (display : Bool)
      (details : Option (Json N))

inductive SessionEvent (N : Type) where
  | append (request : AppendRequest N) (timestamp : String) (source : IdSource)
      (fault : Option Nat)
  | appendLabelChange (targetId : String) (label : Option String) (timestamp : String)
      (source : IdSource) (fault : Option Nat)
  | branch (branchFromId : String)
  | resetLeaf
  | branchWithSummary (branchFromId : Option String) (summary : String)
      (details usage : Option (Json N)) (fromHook : Option Bool) (timestamp : String)
      (source : IdSource) (fault : Option Nat)
  | reopen (sources : Nat → IdSource)

/-- A call throws, returns the entry it appended, or only moves the leaf. -/
inductive SessionOutcome (N : Type) where
  | threw
  | appended (entry : FileEntry N)
  | moved

def LeafId.json : LeafId → Option (Json N)
  | .null => some .null
  | .undefined => none
  | .entry id => some (.str id)

/-- `this.leafId ?? "root"`. -/
def LeafId.orRoot : LeafId → String
  | .entry id => id
  | _ => "root"

/-- The leaf behind a target, which null leaves at the root. -/
def LeafId.ofTarget : Option String → LeafId
  | none => .null
  | some id => .entry id

def baseMembers (id : String) (parentId : LeafId) (timestamp : String) :
    List (String × Option (Json N)) :=
  [("id", some (.str id)), ("parentId", parentId.json), ("timestamp", some (.str timestamp))]

def typeMember (type : String) : String × Option (Json N) := ("type", some (.str type))

namespace AppendRequest

def members (base : List (String × Option (Json N))) :
    AppendRequest N → List (String × Option (Json N))
  | .message content => typeMember "message" :: base ++ [("message", some content)]
  | .thinkingLevelChange thinkingLevel =>
    typeMember "thinking_level_change" :: base ++ [("thinkingLevel", some (.str thinkingLevel))]
  | .modelChange provider modelId =>
    typeMember "model_change" :: base ++
      [("provider", some (.str provider)), ("modelId", some (.str modelId))]
  | .compaction summary firstKeptEntryId tokensBefore details usage fromHook =>
    typeMember "compaction" :: base ++
      [("summary", some (.str summary)), ("firstKeptEntryId", some (.str firstKeptEntryId)),
        ("tokensBefore", some (.num tokensBefore)), ("details", details), ("usage", usage),
        ("fromHook", fromHook.map Json.bool)]
  | .customEntry customType data =>
    [typeMember "custom", ("customType", some (.str customType)), ("data", data)] ++ base
  | .sessionInfo name =>
    typeMember "session_info" :: base ++ [("name", some (.str (sanitizeName name)))]
  | .customMessageEntry customType content display details =>
    [typeMember "custom_message", ("customType", some (.str customType)),
      ("content", some content), ("display", some (.bool display)), ("details", details)] ++ base

def entry (request : AppendRequest N) (id : String) (parentId : LeafId) (timestamp : String) :
    FileEntry N :=
  ⟨.ofMembers (request.members (baseMembers id parentId timestamp))⟩

end AppendRequest

def labelEntry (targetId : String) (label : Option String) (id : String) (parentId : LeafId)
    (timestamp : String) : FileEntry N :=
  ⟨.ofMembers (typeMember "label" :: baseMembers id parentId timestamp ++
    [("targetId", some (.str targetId)), ("label", label.map Json.str)])⟩

def branchSummaryEntry (fromId summary : String) (details usage : Option (Json N))
    (fromHook : Option Bool) (id : String) (parentId : LeafId) (timestamp : String) :
    FileEntry N :=
  ⟨.ofMembers (typeMember "branch_summary" :: baseMembers id parentId timestamp ++
    [("fromId", some (.str fromId)), ("summary", some (.str summary)), ("details", details),
      ("usage", usage), ("fromHook", fromHook.map Json.bool)])⟩

namespace OpenSession

variable [JsonNumber N]

def hasEntry (s : OpenSession N) (id : String) : Bool :=
  s.manager.byId.contains (some id)

def newId (s : OpenSession N) (source : IdSource) : String :=
  generateId source s.hasEntry

/-- `_appendEntry`, and what the call that makes it ends in. -/
def attempt (s : OpenSession N) (entry : FileEntry N) (fault : Option Nat) :
    OpenSession N × SessionOutcome N :=
  let written := s.appendEntry entry fault
  if written.2 then (written.1, .appended entry) else (written.1, .threw)

def append (s : OpenSession N) (request : AppendRequest N) (timestamp : String)
    (source : IdSource) (fault : Option Nat) : OpenSession N × SessionOutcome N :=
  s.attempt (request.entry (s.newId source) s.manager.leafId timestamp) fault

def appendLabelChange (s : OpenSession N) (targetId : String) (label : Option String)
    (timestamp : String) (source : IdSource) (fault : Option Nat) :
    OpenSession N × SessionOutcome N :=
  if s.hasEntry targetId then
    let entry := labelEntry targetId label (s.newId source) s.manager.leafId timestamp
    let written := s.appendEntry entry fault
    if written.2 then
      ({ written.1 with
          manager :=
            { written.1.manager with
              toSessionIndex :=
                written.1.manager.toSessionIndex.setLabel (some targetId) (label.map Json.str)
                  (some (.str timestamp)) } }, .appended entry)
    else (written.1, .threw)
  else (s, .threw)

def moveLeaf (s : OpenSession N) (leafId : LeafId) : OpenSession N :=
  { s with manager := { s.manager with leafId := leafId } }

def branch (s : OpenSession N) (branchFromId : String) :
    OpenSession N × SessionOutcome N :=
  if s.hasEntry branchFromId then (s.moveLeaf (.entry branchFromId), .moved)
  else (s, .threw)

def branchWithSummary (s : OpenSession N) (branchFromId : Option String)
    (summary : String) (details usage : Option (Json N)) (fromHook : Option Bool)
    (timestamp : String) (source : IdSource) (fault : Option Nat) :
    OpenSession N × SessionOutcome N :=
  if branchFromId.all s.hasEntry then
    let leafId := LeafId.ofTarget branchFromId
    (s.moveLeaf leafId).attempt
      (branchSummaryEntry s.manager.leafId.orRoot summary details usage fromHook
        (s.newId source) leafId timestamp)
      fault
  else (s, .threw)

/-- The session opened anew from its file; nothing happens as long as there is none. -/
def reopen (s : OpenSession N) (sources : Nat → IdSource) (header : FileEntry N) :
    OpenSession N × SessionOutcome N :=
  match s.file with
  | none => (s, .moved)
  | some bytes =>
    match openFile sources header bytes with
    | none => (s, .threw)
    | some reopened => (reopened, .moved)

def perform (header : FileEntry N) (s : OpenSession N) :
    SessionEvent N → OpenSession N × SessionOutcome N
  | .append request timestamp source fault => s.append request timestamp source fault
  | .appendLabelChange targetId label timestamp source fault =>
    s.appendLabelChange targetId label timestamp source fault
  | .branch branchFromId => s.branch branchFromId
  | .resetLeaf => (s.moveLeaf .null, .moved)
  | .branchWithSummary branchFromId summary details usage fromHook timestamp source fault =>
    s.branchWithSummary branchFromId summary details usage fromHook timestamp source fault
  | .reopen sources => s.reopen sources header

end OpenSession

structure SessionRun (N : Type) where
  session : OpenSession N
  returned : List (FileEntry N)

def SessionRun.step [JsonNumber N] (header : FileEntry N) (run : SessionRun N)
    (event : SessionEvent N) : SessionRun N :=
  match run.session.perform header event with
  | (s, .appended entry) => { session := s, returned := run.returned ++ [entry] }
  | (s, _) => { run with session := s }

/-- A session used from when it is made or opened; an empty file gets the given header. -/
def sessionMachine [JsonNumber N] (header : FileEntry N) (opened : OpenSession N) :
    Machine (SessionRun N) (SessionEvent N) where
  start run := run = { session := opened, returned := [] }
  step run event := some (run.step header event)

end Trpi.CodingAgent
