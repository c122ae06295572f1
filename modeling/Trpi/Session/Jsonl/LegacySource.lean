import Trpi.Session.Jsonl.LegacyV3

/-!
# A captured legacy file as format-4 writes

The second half of session/jsonl/legacy-v3.ts. `LegacyV3Source` holds what the
scan of one version-3 file captured. Each materialization reads the same file
again, checks that its records are the captured ones and yields an entry for
every retained and selected record, then the current values. The context
messages that selected compactions need are cached on the way.
-/

namespace Trpi.Session.Jsonl

open Library
open Library.Utf8 (decode)

structure LegacyV3Source (N : Type) where
  header : JsonlStorageHeader
  importedUsage : Usage N
  nextSeq : Nat
  values : List (JsonlCommittedWrite N)
  entries : InsertionMap String LegacyV3IndexEntry

inductive LegacyOpenError where
  | header (reason : OpenError)
  | notLegacy
  | headerTime
  | source (reason : LegacyV3Error)

/-- `normalizeLegacyV3Header`; `none` for a time before 1970. -/
def normalizeLegacyV3Header (dateParse : String → Option Int) (resolveParent : String → Option String)
    (header : LegacyV3SessionHeader) : Option JsonlStorageHeader :=
  match dateParse header.timestamp with
  | none => none
  | some time =>
    if 0 ≤ time then
      some
        { id := header.id
          storageVersion := jsonlStorageVersion
          createdAt := time.toNat
          cwd := header.cwd
          parentSessionId := header.parentSession.bind resolveParent
          legacyParentSessionPath :=
            header.parentSession.filter fun path => (resolveParent path).isNone
          nextSeq := none }
    else none

section

variable {N : Type} [JsonNumber N] [Add N] [Zero N]

def LegacyV3Source.read (dateParse : String → Option Int) (resolveParent : String → Option String)
    (mint : Nat → String) (file : List UInt8) : Except LegacyOpenError (LegacyV3Source N) :=
  match readJsonlHeader N dateParse (decode file) with
  | .error reason => .error (.header reason)
  | .ok (.v4 _) => .error .notLegacy
  | .ok (.legacyV3 legacy) =>
    match run (LegacyV3Inventory.scan dateParse mint) .empty ((splitLines (decode file)).1.drop 1) with
    | .error reason => .error (.source reason)
    | .ok (inventory : LegacyV3Inventory N) =>
      match normalizeLegacyV3Values inventory with
      | .error reason => .error (.source reason)
      | .ok values =>
        match normalizeLegacyV3Header dateParse resolveParent legacy with
        | none => .error .headerTime
        | some header =>
          .ok
            { header := header
              importedUsage := inventory.importedUsage
              nextSeq := inventory.nextSeq + values.length
              values := values
              entries := inventory.entries }

end

namespace LegacyV3Source

variable {N : Type}

def appendStructure (source : LegacyV3Source N) (structures : List (String × Option String)) :
    LegacyV3IndexEntry → Except LegacyV3Error (List (String × Option String))
  | .discarded .. => .ok structures
  | .retained _ parentId mappedId _ _ =>
    (resolveLegacyId source.entries parentId).map fun parent => structures ++ [(mappedId, parent)]

/-- The ids and mapped parents of the retained records, in file order. -/
def entryStructures (source : LegacyV3Source N) :
    Except LegacyV3Error (List (String × Option String)) :=
  run source.appendStructure [] source.entries.values

inductive TranslateError where
  | missing (legacyId : String)
  | notRetained (legacyId : String)

def TranslateError.message : TranslateError → String
  | .missing legacyId => "Legacy v3 fork entry does not exist: " ++ legacyId
  | .notRetained legacyId => "Legacy v3 fork entry is not a retained entry: " ++ legacyId

def translateForkEntryId (source : LegacyV3Source N) (legacyId : String) :
    Except TranslateError String :=
  match source.entries.get? legacyId with
  | none => .error (.missing legacyId)
  | some (.discarded ..) => .error (.notRetained legacyId)
  | some (.retained _ _ mappedId _ _) => .ok mappedId

/-- Whether a record can become a context message. -/
def producesMessage : LegacyV3IndexEntry → Bool
  | .retained _ _ _ _ .custom => false
  | .retained .. => true
  | .discarded .. => false

/-- The tail of a selected compaction; nothing for any other record. -/
def requiredTail (source : LegacyV3Source N) (isEntrySelected : String → Bool) :
    LegacyV3IndexEntry → Except LegacyV3Error (List LegacyV3IndexEntry)
  | .retained id parentId mappedId _ (.compaction firstKeptEntryId) =>
    if isEntrySelected mappedId then
      retainedTailStructure source.entries id parentId firstKeptEntryId
    else .ok []
  | _ => .ok []

/-- The records of a tail that its context messages come from. -/
def appendRequired (source : LegacyV3Source N) (isEntrySelected : String → Bool)
    (required : List String) (entry : LegacyV3IndexEntry) : Except LegacyV3Error (List String) :=
  (source.requiredTail isEntrySelected entry).map fun tail =>
    required ++ (tail.filter producesMessage).map LegacyV3IndexEntry.id

def collectRequiredTailMessageIds (source : LegacyV3Source N) (isEntrySelected : String → Bool) :
    Except LegacyV3Error (List String) :=
  run (source.appendRequired isEntrySelected) [] source.entries.values

variable [JsonNumber N]

def importedCustomMessage (dateParse : String → Option Int) (timestamp customType : String)
    (content : Json N) (details : Option (Json N)) (display : Bool) :
    Except LegacyV3Error (Json N) :=
  (legacyTime dateParse timestamp).map fun time =>
    .obj ([("role", .str "custom"), ("customType", .str customType), ("content", content)] ++
      optionalMember "details" details ++ [("display", .bool display), ("timestamp", .ofNat time)])

def projectContextMessage (dateParse : String → Option Int) (source : LegacyV3Source N)
    (entry : LegacyV3Entry N) : Except LegacyV3Error (Option (Json N)) :=
  match entry.record with
  | .retained (.message message) => .ok (some message)
  | .retained (.customMessage customType content details display) =>
    (importedCustomMessage dateParse entry.timestamp customType content details display).map some
  | .retained (.branchSummary fromId summary ..) =>
    if summary = "" then .ok none
    else do
      let fromId ← resolveBranchSummaryFromId source.entries fromId
      let time ← legacyTime dateParse entry.timestamp
      .ok (some (.obj [("role", .str "branchSummary"), ("summary", .str summary),
        ("fromId", nullableString fromId), ("timestamp", .ofNat time)]))
  | .retained (.compaction summary _ tokensBefore ..) => do
    let time ← legacyTime dateParse entry.timestamp
    .ok (some (.obj [("role", .str "compactionSummary"), ("summary", .str summary),
      ("tokensBefore", .num tokensBefore), ("timestamp", .ofNat time)]))
  | .retained (.custom ..) => .ok none
  | .discarded _ => .ok none

def normalizedBody (dateParse : String → Option Int) (source : LegacyV3Source N) (timestamp : String)
    (record : RetainedRecord N) (retainedTail : List (Json N)) :
    Except LegacyV3Error (EntryType × Option String × List (String × Json N)) :=
  match record with
  | .message message => .ok (.message, none, [("message", message)])
  | .customMessage customType content details display =>
    (importedCustomMessage dateParse timestamp customType content details display).map
      fun message => (.message, none, [("message", message)])
  | .branchSummary fromId summary details usage fromHook =>
    (resolveBranchSummaryFromId source.entries fromId).map fun fromId =>
      (.branchSummary, none, [("fromId", nullableString fromId), ("summary", .str summary)] ++
        optionalMember "details" details ++ optionalMember "usage" usage ++
        [("fromHook", .bool (fromHook.getD false))])
  | .compaction summary _ tokensBefore details usage fromHook =>
    .ok (.compaction, none, [("summary", .str summary), ("retainedTail", .arr retainedTail),
        ("tokensBefore", .num tokensBefore)] ++
      optionalMember "details" details ++ optionalMember "usage" usage ++
      [("fromHook", .bool (fromHook.getD false))])
  | .custom customType data => .ok (.custom, some customType, optionalMember "data" data)

def normalizeRetainedEntry (dateParse : String → Option Int) (source : LegacyV3Source N)
    (timestamp : String) (record : RetainedRecord N) (parentId : Option String) (mappedId : String)
    (seq : Nat) (retainedTail : List (Json N)) : Except LegacyV3Error (JsonlEntry N) := do
  let parent ← resolveLegacyId source.entries parentId
  let time ← legacyTime dateParse timestamp
  let (type, customType, members) ← normalizedBody dateParse source timestamp record retainedTail
  .ok { id := mappedId, parentId := parent, seq := seq, timestamp := time, type := type,
        customType := customType, body := .ofMembers members }

/-- Read one captured record again and check that it is the same. -/
def readCapturedEntry (read : List (LegacyV3Entry N × LegacyV3IndexEntry))
    (input : List Char × LegacyV3IndexEntry) :
    Except LegacyV3Error (List (LegacyV3Entry N × LegacyV3IndexEntry)) :=
  match (parseLegacyV3Entry input.1 : Except LegacyV3Error (LegacyV3Entry N)) with
  | .error reason => .error reason
  | .ok entry =>
    if entry.id ≠ input.2.id ∨ entry.record.type ≠ input.2.type then .error .sourceChanged
    else .ok (read ++ [(entry, input.2)])

def readCapturedEntries (dateParse : String → Option Int) (source : LegacyV3Source N)
    (file : List UInt8) : Except LegacyV3Error (List (LegacyV3Entry N × LegacyV3IndexEntry)) :=
  let captured := source.entries.values
  let lines := (splitLines (decode file)).1
  match readJsonlHeader N dateParse (decode file) with
  | .ok (.legacyV3 header) =>
    if header.id ≠ source.header.id ∨ header.cwd ≠ source.header.cwd then .error .headerChanged
    else if lines.length < captured.length + 1 then .error .endedEarly
    else run readCapturedEntry [] ((lines.drop 1).zip captured)
  | _ => .error .headerChanged

structure Pass (N : Type) where
  tailMessages : InsertionMap String (Json N)
  entries : List (JsonlEntry N)

/-- The cache after the record of one loop iteration. -/
def cacheMessage (dateParse : String → Option Int) (source : LegacyV3Source N)
    (required : List String) (cache : InsertionMap String (Json N)) (entry : LegacyV3Entry N) :
    Except LegacyV3Error (InsertionMap String (Json N)) :=
  if entry.id ∈ required then
    match source.projectContextMessage dateParse entry with
    | .error reason => .error reason
    | .ok none => .ok cache
    | .ok (some message) => .ok (cache.set entry.id message)
  else .ok cache

/-- The entry one loop iteration yields, given the cache after it. -/
def yieldEntry (dateParse : String → Option Int) (source : LegacyV3Source N)
    (isEntrySelected : String → Bool) (cache : InsertionMap String (Json N)) :
    LegacyV3Entry N × LegacyV3IndexEntry → Except LegacyV3Error (Option (JsonlEntry N))
  | (⟨_, _, timestamp, .retained record⟩, .retained id parentId mappedId seq kind) =>
    if isEntrySelected mappedId then do
      let tail ← source.requiredTail isEntrySelected (.retained id parentId mappedId seq kind)
      let retainedTail := (tail.filterMap fun ancestor => cache.get? ancestor.id).reverse
      let entry ← source.normalizeRetainedEntry dateParse timestamp record parentId mappedId seq
        retainedTail
      .ok (some entry)
    else .ok none
  | _ => .ok none

def passStep (dateParse : String → Option Int) (source : LegacyV3Source N)
    (isEntrySelected : String → Bool) (required : List String) (pass : Pass N)
    (input : LegacyV3Entry N × LegacyV3IndexEntry) : Except LegacyV3Error (Pass N) := do
  let cache ← source.cacheMessage dateParse required pass.tailMessages input.1
  let yielded ← source.yieldEntry dateParse isEntrySelected cache input
  .ok { tailMessages := cache, entries := pass.entries ++ yielded.toList }

/-- `writes`: the selected entries in file order, then the current values. -/
def writes (dateParse : String → Option Int) (source : LegacyV3Source N) (file : List UInt8)
    (isEntrySelected : String → Bool) : Except LegacyV3Error (List (JsonlCommittedWrite N)) := do
  let required ← source.collectRequiredTailMessageIds isEntrySelected
  let captured ← source.readCapturedEntries dateParse file
  let pass ← run (source.passStep dateParse isEntrySelected required)
    { tailMessages := .empty, entries := [] } captured
  .ok (pass.entries.map .entry ++ source.values)

end LegacyV3Source

end Trpi.Session.Jsonl
