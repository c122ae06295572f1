import Trpi.Session.Jsonl.Storage

/-!
# Legacy version-3 sessions

session/jsonl/legacy-v3.ts: a version-3 file read as a source of format-4
writes. One scan indexes the records, mints an id for every retained one, folds
discarded ones into their parents and derives the current values and the usage.
A second scan of the same records materializes the entries, with the retained
tails of compactions.

`dateParse` is `Date.parse`, `mint` the id `uuidv7` draws for the record that
takes a sequence, and `resolveParent` the session id found at a parent path.
The index keeps discarded records whole. A parent precedes its children in the
file, so walks to the root scan the older records. A header time before 1970 and
a record whose members have other types than the source declares are refused.
-/

namespace Trpi.Session.Jsonl

open Library
open Library.Utf8 (decode)

inductive RetainedRecord (N : Type) where
  | message (message : Json N)
  | custom (customType : String) (data : Option (Json N))
  | customMessage (customType : String) (content : Json N) (details : Option (Json N))
      (display : Bool)
  | branchSummary (fromId summary : String) (details usage : Option (Json N))
      (fromHook : Option Bool)
  | compaction (summary firstKeptEntryId : String) (tokensBefore : N)
      (details usage : Option (Json N)) (fromHook : Option Bool)

inductive DiscardedRecord where
  | modelChange (provider modelId : String)
  | thinkingLevelChange (thinkingLevel : String)
  | activeToolsChange (activeToolNames : List String)
  | sessionInfo (name : Option String)
  | label (targetId : String) (label : Option String)

inductive LegacyV3Record (N : Type) where
  | retained (record : RetainedRecord N)
  | discarded (record : DiscardedRecord)

structure LegacyV3Entry (N : Type) where
  id : String
  parentId : Option String
  timestamp : String
  record : LegacyV3Record N

inductive RetainedKind where
  | message | custom | customMessage
  | branchSummary (fromId : String)
  | compaction (firstKeptEntryId : String)

/-- What the index keeps of a record. `mappedId` is the minted id of a retained
record and that of the nearest retained ancestor of a discarded one. -/
inductive LegacyV3IndexEntry where
  | retained (id : String) (parentId : Option String) (mappedId : String) (seq : Nat)
      (kind : RetainedKind)
  | discarded (id : String) (parentId mappedId : Option String) (record : DiscardedRecord)

namespace LegacyV3IndexEntry

def id : LegacyV3IndexEntry → String
  | .retained id .. => id
  | .discarded id .. => id

def parentId : LegacyV3IndexEntry → Option String
  | .retained _ parentId .. => parentId
  | .discarded _ parentId .. => parentId

def mappedId : LegacyV3IndexEntry → Option String
  | .retained _ _ mappedId .. => some mappedId
  | .discarded _ _ mappedId _ => mappedId

end LegacyV3IndexEntry

inductive LegacyV3Error where
  | notJson
  | unsupportedType (type : Option String)
  | unsupportedShape
  | duplicateId (id : String)
  | missingParent (id : String) (line : Nat) (parentId : String)
  | timestamp
  | missingReference (id : String)
  | tailNotOnBranch (id firstKeptEntryId : String)
  | headerChanged
  | endedEarly
  | sourceChanged

def LegacyV3Error.message : LegacyV3Error → String
  | .notJson => "Invalid legacy v3 JSONL record: not valid JSON"
  | .unsupportedType type => "Unsupported legacy v3 record type: " ++ type.getD "undefined"
  | .unsupportedShape => ""
  | .duplicateId id => "Duplicate legacy v3 entry id: " ++ id
  | .missingParent id line parentId =>
    "Legacy v3 entry " ++ id ++ " has a missing or forward parent at line " ++ toString line ++ ": " ++
      parentId
  | .timestamp => "UUIDv7 timestamp must be an integer between 0 and 281474976710655"
  | .missingReference id => "Missing legacy v3 entry reference: " ++ id
  | .tailNotOnBranch id firstKeptEntryId =>
    "Legacy v3 compaction " ++ id ++ " firstKeptEntryId is not on its parent branch: " ++
      firstKeptEntryId
  | .headerChanged => "Legacy v3 source header changed"
  | .endedEarly => "Legacy v3 source ended before captured entries"
  | .sourceChanged => "Legacy v3 source changed"

section

variable {N : Type}

def RetainedRecord.kind : RetainedRecord N → RetainedKind
  | .message _ => .message
  | .custom .. => .custom
  | .customMessage .. => .customMessage
  | .branchSummary fromId .. => .branchSummary fromId
  | .compaction _ firstKeptEntryId .. => .compaction firstKeptEntryId

def RetainedKind.type : RetainedKind → String
  | .message => "message"
  | .custom => "custom"
  | .customMessage => "custom_message"
  | .branchSummary _ => "branch_summary"
  | .compaction _ => "compaction"

def DiscardedRecord.type : DiscardedRecord → String
  | .modelChange .. => "model_change"
  | .thinkingLevelChange _ => "thinking_level_change"
  | .activeToolsChange _ => "active_tools_change"
  | .sessionInfo _ => "session_info"
  | .label .. => "label"

def LegacyV3Record.type : LegacyV3Record N → String
  | .retained record => record.kind.type
  | .discarded record => record.type

def LegacyV3IndexEntry.type : LegacyV3IndexEntry → String
  | .retained _ _ _ _ kind => kind.type
  | .discarded _ _ _ record => record.type

def strings? : List (Json N) → Option (List String)
  | [] => some []
  | .str text :: rest => (strings? rest).map (text :: ·)
  | _ :: _ => none

def stringList? : Json N → Option (List String)
  | .arr items => strings? items
  | _ => none

/-- The record of a known type; `none` when a member has another type. -/
def legacyRecord? (type : String) (document : Json N) : Option (Option (LegacyV3Record N)) :=
  let text (name : String) : Option String := (document.get? name).bind Json.string?
  let optionalText (name : String) : Option (Option String) :=
    readOptional Json.string? (document.get? name)
  let optionalFlag (name : String) : Option (Option Bool) :=
    readOptional Json.bool? (document.get? name)
  if type = "message" then
    some do
      some (.retained (.message (← document.get? "message")))
  else if type = "custom" then
    some do
      some (.retained (.custom (← text "customType") (document.get? "data")))
  else if type = "custom_message" then
    some do
      let display ← (document.get? "display").bind Json.bool?
      some (.retained (.customMessage (← text "customType") (← document.get? "content")
        (document.get? "details") display))
  else if type = "branch_summary" then
    some do
      some (.retained (.branchSummary (← text "fromId") (← text "summary")
        (document.get? "details") (document.get? "usage") (← optionalFlag "fromHook")))
  else if type = "compaction" then
    some do
      let tokensBefore ← (document.get? "tokensBefore").bind Json.number?
      some (.retained (.compaction (← text "summary") (← text "firstKeptEntryId") tokensBefore
        (document.get? "details") (document.get? "usage") (← optionalFlag "fromHook")))
  else if type = "model_change" then
    some do
      some (.discarded (.modelChange (← text "provider") (← text "modelId")))
  else if type = "thinking_level_change" then
    some do
      some (.discarded (.thinkingLevelChange (← text "thinkingLevel")))
  else if type = "active_tools_change" then
    some do
      let names ← (document.get? "activeToolNames").bind stringList?
      some (.discarded (.activeToolsChange names))
  else if type = "session_info" then
    some do
      some (.discarded (.sessionInfo (← optionalText "name")))
  else if type = "label" then
    some do
      some (.discarded (.label (← text "targetId") (← optionalText "label")))
  else none

variable [JsonNumber N]

def parseLegacyV3Entry (line : List Char) : Except LegacyV3Error (LegacyV3Entry N) :=
  match (Json.parseChars line : Option (Json N)) with
  | none => .error .notJson
  | some document =>
    match (document.get? "type").bind Json.string? with
    | none => .error (.unsupportedType none)
    | some type =>
      match legacyRecord? type document with
      | none => .error (.unsupportedType (some type))
      | some record =>
        let entry : Option (LegacyV3Entry N) := do
          let id ← (← document.get? "id").string?
          let parentId ← nullableString? (← document.get? "parentId")
          let timestamp ← (← document.get? "timestamp").string?
          some { id, parentId, timestamp, record := ← record }
        match entry with
        | none => .error .unsupportedShape
        | some entry => .ok entry

def maxUuidV7Timestamp : Int := 281474976710655

/-- A record time that `uuidv7` accepts. -/
def legacyTime (dateParse : String → Option Int) (timestamp : String) : Except LegacyV3Error Nat :=
  match dateParse timestamp with
  | none => .error .timestamp
  | some time => if 0 ≤ time ∧ time ≤ maxUuidV7Timestamp then .ok time.toNat else .error .timestamp

/-- `indexLegacyV3Entry`; `mint seq` is the id drawn for the record that takes `seq`. -/
def indexLegacyV3Entry (dateParse : String → Option Int) (mint : Nat → String)
    (entry : LegacyV3Entry N) (lineNumber seq : Nat)
    (entries : InsertionMap String LegacyV3IndexEntry) : Except LegacyV3Error LegacyV3IndexEntry := do
  let mappedParentId ← match entry.parentId with
    | none => .ok none
    | some parentId =>
      match entries.get? parentId with
      | none => .error (.missingParent entry.id lineNumber parentId)
      | some parent => .ok parent.mappedId
  match entry.record with
  | .discarded record => .ok (.discarded entry.id entry.parentId mappedParentId record)
  | .retained record => do
    let _ ← legacyTime dateParse entry.timestamp
    .ok (.retained entry.id entry.parentId (mint seq) seq record.kind)

def messageUsage (message : Json N) : Option (Option (Usage N)) :=
  let role := (message.get? "role").bind Json.string?
  if role = some "assistant" ∨ role = some "toolResult" then
    readOptional usage? (message.get? "usage")
  else some none

/-- `legacyEntryUsage`; `none` when the usage has another shape. -/
def legacyEntryUsage : LegacyV3Record N → Option (Option (Usage N))
  | .retained (.message message) => messageUsage message
  | .retained (.branchSummary _ _ _ usage _) => readOptional usage? usage
  | .retained (.compaction _ _ _ _ usage _) => readOptional usage? usage
  | _ => some none

structure LegacyV3Inventory (N : Type) where
  entries : InsertionMap String LegacyV3IndexEntry
  importedUsage : Usage N
  name : Option String
  finalId : Option String
  nextSeq : Nat

variable [Add N] [Zero N]

def LegacyV3Inventory.empty : LegacyV3Inventory N where
  entries := .empty
  importedUsage := emptyUsage
  name := none
  finalId := none
  nextSeq := 1

/-- One iteration of `readLegacyV3Inventory`. -/
def LegacyV3Inventory.scan (dateParse : String → Option Int) (mint : Nat → String)
    (inventory : LegacyV3Inventory N) (line : List Char) :
    Except LegacyV3Error (LegacyV3Inventory N) := do
  let lineNumber := inventory.entries.toList.length + 2
  let entry : LegacyV3Entry N ← parseLegacyV3Entry line
  if inventory.entries.contains entry.id then .error (.duplicateId entry.id)
  else
    let indexed ← indexLegacyV3Entry dateParse mint entry lineNumber inventory.nextSeq
      inventory.entries
    match legacyEntryUsage entry.record with
    | none => .error .unsupportedShape
    | some usage =>
      .ok
        { entries := inventory.entries.set entry.id indexed
          importedUsage := usage.elim inventory.importedUsage (addUsage inventory.importedUsage)
          name := match entry.record with
            | .discarded (.sessionInfo name) => name
            | _ => inventory.name
          finalId := some entry.id
          nextSeq := match indexed with
            | .retained .. => inventory.nextSeq + 1
            | .discarded .. => inventory.nextSeq }

end

/-- `createLegacyIdResolver`. -/
def resolveLegacyId (entries : InsertionMap String LegacyV3IndexEntry) :
    Option String → Except LegacyV3Error (Option String)
  | none => .ok none
  | some legacyId =>
    match entries.get? legacyId with
    | none => .error (.missingReference legacyId)
    | some entry => .ok entry.mappedId

def resolveBranchSummaryFromId (entries : InsertionMap String LegacyV3IndexEntry)
    (legacyFromId : String) : Except LegacyV3Error (Option String) :=
  if legacyFromId = "root" then .ok none else resolveLegacyId entries (some legacyFromId)

/-- The records from `current` to its root; `older` lists the records newest first. -/
def ancestry : List LegacyV3IndexEntry → Option String → List LegacyV3IndexEntry
  | _, none => []
  | [], some _ => []
  | entry :: older, some current =>
    if entry.id = current then entry :: ancestry older entry.parentId
    else ancestry older (some current)

/-- A path up to and including the record with this id. -/
def upThrough (id : String) : List LegacyV3IndexEntry → Option (List LegacyV3IndexEntry)
  | [] => none
  | entry :: rest => if entry.id = id then some [entry] else (upThrough id rest).map (entry :: ·)

/-- `retainedTailStructure` of the compaction `id`. -/
def retainedTailStructure (entries : InsertionMap String LegacyV3IndexEntry) (id : String)
    (parentId : Option String) (firstKeptEntryId : String) :
    Except LegacyV3Error (List LegacyV3IndexEntry) :=
  match upThrough firstKeptEntryId (ancestry entries.values.reverse parentId) with
  | none => .error (.tailNotOnBranch id firstKeptEntryId)
  | some tail => .ok tail

section

variable {N : Type}

/-- The nearest change of each kind; none of them falls back to an older one. -/
def selectedConfiguration (entries : InsertionMap String LegacyV3IndexEntry)
    (selectedId : Option String) : Option (Json N) := do
  let path := ancestry entries.values.reverse selectedId
  let (provider, modelId) ← path.findSome? fun
    | .discarded _ _ _ (.modelChange provider modelId) => some (provider, modelId)
    | _ => none
  let thinkingLevel ← path.findSome? fun
    | .discarded _ _ _ (.thinkingLevelChange thinkingLevel) => some thinkingLevel
    | _ => none
  let activeToolNames := (path.findSome? fun
    | .discarded _ _ _ (.activeToolsChange activeToolNames) => some activeToolNames
    | _ => none).getD []
  some (.obj [("model", .obj [("provider", .str provider), ("modelId", .str modelId)]),
    ("thinkingLevel", .str thinkingLevel), ("activeToolNames", .arr (activeToolNames.map .str))])

/-- The label records in file order: an empty label removes, a target without a
retained ancestor is skipped. -/
def foldLabels (entries : InsertionMap String LegacyV3IndexEntry)
    (labels : InsertionMap String String) :
    LegacyV3IndexEntry → Except LegacyV3Error (InsertionMap String String)
  | .discarded _ _ _ (.label targetId label) =>
    match resolveLegacyId entries (some targetId) with
    | .error reason => .error reason
    | .ok none => .ok labels
    | .ok (some target) =>
      match label with
      | none => .ok (labels.erase target)
      | some label => .ok (if label = "" then labels.erase target else labels.set target label)
  | _ => .ok labels

def numberValues : Nat → List (String × String × Json N) → List (JsonlCommittedWrite N)
  | _, [] => []
  | seq, (ns, key, value) :: rest => .valueSet seq ns key value :: numberValues (seq + 1) rest

def normalizeLegacyV3Values (inventory : LegacyV3Inventory N) :
    Except LegacyV3Error (List (JsonlCommittedWrite N)) := do
  let name := match inventory.name with
    | none => []
    | some name => if name = "" then [] else [("pi.session.name", "", .str name)]
  let labels ← run (foldLabels inventory.entries) .empty inventory.entries.values
  let labelSets := labels.toList.map fun (target, label) => ("pi.entry.label", target, .str label)
  let tip ← resolveLegacyId inventory.entries inventory.finalId
  let configuration := match selectedConfiguration inventory.entries inventory.finalId with
    | none => []
    | some configuration =>
      [("pi.lane.config", "main", configuration), ("pi.lane.state", "main", ForkValue.idleLaneState)]
  .ok (numberValues inventory.nextSeq
    (name ++ labelSets ++ [("pi.branch.tip", "main", nullableString tip)] ++ configuration))

end

end Trpi.Session.Jsonl
