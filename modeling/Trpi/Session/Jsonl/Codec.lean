import Trpi.Library.JsonRoundTrip
import Trpi.Session.StorageState

/-!
# JSONL records

session/jsonl/codec.ts and the record half of session/jsonl/io.ts. Stored
values are JSON documents; the body of an entry is its remaining members, none
of which has a structural name. Members are written in one fixed order. Reading
a record checks what the source checks and then trusts its shape; a record of
any other shape is refused as unsupported.
-/

namespace Trpi.Session.Jsonl

open List

open Library (Json JsonNumber)

def reservedMembers : List String :=
  ["kind", "id", "parentId", "type", "customType", "seq", "timestamp"]

structure EntryBody (N : Type) where
  members : List (String × Json N)
  unreserved : ∀ member ∈ members, member.1 ∉ reservedMembers

section

variable {N : Type}

@[ext] theorem EntryBody.ext {a b : EntryBody N} (members : a.members = b.members) : a = b := by
  cases a
  cases b
  simp_all

def EntryBody.ofMembers (members : List (String × Json N)) : EntryBody N where
  members := members.filter fun member => member.1 ∉ reservedMembers
  unreserved member inside := by simpa using (List.mem_filter.mp inside).2

theorem EntryBody.lookup_reserved (body : EntryBody N) {name : String}
    (reserved : name ∈ reservedMembers) : Json.lookup name body.members = none :=
  Json.lookup_eq_none fun mem inside same =>
    body.unreserved mem inside (same ▸ reserved)

end

abbrev JsonlEntry (N : Type) := Entry (EntryBody N)

abbrev JsonlWrite (N : Type) := Write (EntryBody N) (Json N) N

abbrev JsonlCommittedWrite (N : Type) := CommittedWrite (EntryBody N) (Json N) N

abbrev JsonlState (N : Type) := InMemoryStorageState (EntryBody N) (Json N) N

def entryTypeTag : EntryType → String
  | .message => "message"
  | .compaction => "compaction"
  | .branchSummary => "branch_summary"
  | .custom => "custom"

def entryType? (tag : String) : Option EntryType :=
  if tag = "message" then some .message
  else if tag = "compaction" then some .compaction
  else if tag = "branch_summary" then some .branchSummary
  else if tag = "custom" then some .custom
  else none

@[simp] theorem entryType?_entryTypeTag (type : EntryType) : entryType? (entryTypeTag type) = some type := by
  cases type <;> decide

section

variable {N : Type}

def nullableString : Option String → Json N
  | none => .null
  | some text => .str text

def nullableString? : Json N → Option (Option String)
  | .null => some none
  | .str text => some (some text)
  | _ => none

@[simp] theorem nullableString?_nullableString (text : Option String) :
    nullableString? (nullableString text : Json N) = some text := by
  cases text <;> rfl

/-- Tips are strings or null; a forked lane starts idle. -/
instance : ForkValue (Json N) where
  ofTip := nullableString
  toTip := nullableString?
  idleLaneState :=
    .obj [("currentOperationId", .null), ("lastOperationId", .null), ("inbox", .arr [])]
  toTip_ofTip := nullableString?_nullableString

/-- A member that is left out when it is undefined. -/
def optionalMember (name : String) (value : Option (Json N)) : List (String × Json N) :=
  value.toList.map fun value => (name, value)

/-- Read a member that may be absent; `none` means it is there with the wrong type. -/
def readOptional {α : Type} (read : Json N → Option α) : Option (Json N) → Option (Option α)
  | none => some none
  | some document => (read document).map some

def usageCostToJson (cost : UsageCost N) : Json N :=
  .obj [("input", .num cost.input), ("output", .num cost.output), ("cacheRead", .num cost.cacheRead),
    ("cacheWrite", .num cost.cacheWrite), ("total", .num cost.total)]

def usageToJson (usage : Usage N) : Json N :=
  .obj ([("input", .num usage.input), ("output", .num usage.output),
      ("cacheRead", .num usage.cacheRead), ("cacheWrite", .num usage.cacheWrite)] ++
    optionalMember "cacheWrite1h" (usage.cacheWrite1h.map .num) ++
    optionalMember "reasoning" (usage.reasoning.map .num) ++
    [("totalTokens", .num usage.totalTokens), ("cost", usageCostToJson usage.cost)])

def usageCost? (document : Json N) : Option (UsageCost N) := do
  let input ← (← document.get? "input").number?
  let output ← (← document.get? "output").number?
  let cacheRead ← (← document.get? "cacheRead").number?
  let cacheWrite ← (← document.get? "cacheWrite").number?
  let total ← (← document.get? "total").number?
  some { input, output, cacheRead, cacheWrite, total }

def usage? (document : Json N) : Option (Usage N) := do
  let input ← (← document.get? "input").number?
  let output ← (← document.get? "output").number?
  let cacheRead ← (← document.get? "cacheRead").number?
  let cacheWrite ← (← document.get? "cacheWrite").number?
  let cacheWrite1h ← readOptional Json.number? (document.get? "cacheWrite1h")
  let reasoning ← readOptional Json.number? (document.get? "reasoning")
  let totalTokens ← (← document.get? "totalTokens").number?
  let cost ← usageCost? (← document.get? "cost")
  some { input, output, cacheRead, cacheWrite, cacheWrite1h, reasoning, totalTokens, cost }

theorem usageCost?_usageCostToJson (cost : UsageCost N) :
    usageCost? (usageCostToJson cost) = some cost := by
  simp [usageCost?, usageCostToJson, Json.get?, Json.lookup, Json.number?]

theorem usage?_usageToJson (usage : Usage N) : usage? (usageToJson usage) = some usage := by
  obtain ⟨input, output, cacheRead, cacheWrite, cacheWrite1h, reasoning, totalTokens, cost⟩ := usage
  cases cacheWrite1h <;> cases reasoning <;>
    simp [usage?, usageToJson, optionalMember, readOptional, Json.get?, Json.lookup, Json.number?,
      usageCost?_usageCostToJson]

end

section

variable {N : Type} [JsonNumber N] {writes : List (JsonlCommittedWrite N)}

/-- The structural members of an entry record, before and after its body. -/
def entryHead (entry : JsonlEntry N) : List (String × Json N) :=
  [("kind", .str "entry"), ("id", .str entry.id), ("parentId", nullableString entry.parentId),
    ("type", .str (entryTypeTag entry.type))] ++
  optionalMember "customType" (entry.customType.map .str)

def entryTail (entry : JsonlEntry N) : List (String × Json N) :=
  [("seq", .ofNat entry.seq), ("timestamp", .ofNat entry.timestamp)]

def entryToJson (entry : JsonlEntry N) : Json N :=
  .obj (entryHead entry ++ entry.body.members ++ entryTail entry)

def usageRowToJson (row : UsageRow (Json N) N) : Json N :=
  .obj ([("kind", .str "usage"), ("id", .str row.id), ("usage", usageToJson row.usage)] ++
    optionalMember "entryId" (row.entryId.map .str) ++ [("adjustment", .bool row.adjustment)] ++
    optionalMember "details" row.details ++ [("seq", .ofNat row.seq)])

def writeToJson : JsonlCommittedWrite N → Json N
  | .entry entry => entryToJson entry
  | .usage row => usageRowToJson row
  | .valueSet seq ns key value =>
    .obj [("kind", .str "value"), ("op", .str "set"), ("seq", .ofNat seq), ("namespace", .str ns),
      ("key", .str key), ("value", value)]
  | .valueDelete seq ns key =>
    .obj [("kind", .str "value"), ("op", .str "delete"), ("seq", .ofNat seq),
      ("namespace", .str ns), ("key", .str key)]
  | .listAppend seq ns key value =>
    .obj [("kind", .str "list"), ("op", .str "append"), ("seq", .ofNat seq), ("namespace", .str ns),
      ("key", .str key), ("value", value)]
  | .listDelete seq ns key =>
    .obj [("kind", .str "list"), ("op", .str "delete"), ("seq", .ofNat seq),
      ("namespace", .str ns), ("key", .str key)]

inductive RecordError where
  | notJson
  | notRecord
  | writeSeq
  | entryTimestamp
  | valueOperation (op : Option String)
  | listOperation (op : Option String)
  | writeKind (kind : Option String)
  | unsupportedShape

def RecordError.message : RecordError → String
  | .notJson => "Invalid JSONL transaction: not valid JSON"
  | .notRecord => "Invalid JSONL transaction write"
  | .writeSeq => "Invalid JSONL write seq"
  | .entryTimestamp => "Invalid JSONL entry timestamp"
  | .valueOperation op => "Invalid JSONL value operation: " ++ op.getD "undefined"
  | .listOperation op => "Invalid JSONL list operation: " ++ op.getD "undefined"
  | .writeKind kind => "Invalid JSONL write kind: " ++ kind.getD "undefined"
  | .unsupportedShape => ""

def orShape {α : Type} : Option α → Except RecordError α
  | none => .error .unsupportedShape
  | some value => .ok value

def entryRecord? (members : List (String × Json N)) (seq timestamp : Nat) : Option (JsonlEntry N) := do
  let id ← (← Json.lookup "id" members).string?
  let parentId ← nullableString? (← Json.lookup "parentId" members)
  let type ← entryType? (← (← Json.lookup "type" members).string?)
  let customType ← readOptional Json.string? (Json.lookup "customType" members)
  some { id, parentId, seq, timestamp, type, customType, body := .ofMembers members }

def usageRow? (members : List (String × Json N)) (seq : Nat) : Option (UsageRow (Json N) N) := do
  let id ← (← Json.lookup "id" members).string?
  let usage ← usage? (← Json.lookup "usage" members)
  let entryId ← readOptional Json.string? (Json.lookup "entryId" members)
  let adjustment ← (← Json.lookup "adjustment" members).bool?
  some { id, seq, usage, entryId, adjustment, details := Json.lookup "details" members }

def address? (members : List (String × Json N)) : Option (String × String) := do
  let ns ← (← Json.lookup "namespace" members).string?
  let key ← (← Json.lookup "key" members).string?
  some (ns, key)

def valueWrite? (members : List (String × Json N)) (seq : Nat) :
    Except RecordError (JsonlCommittedWrite N) :=
  let op := (Json.lookup "op" members).bind Json.string?
  if op = some "set" then
    orShape do
      let (ns, key) ← address? members
      some (.valueSet seq ns key (← Json.lookup "value" members))
  else if op = some "delete" then
    orShape do
      let (ns, key) ← address? members
      some (.valueDelete seq ns key)
  else .error (.valueOperation op)

def listWrite? (members : List (String × Json N)) (seq : Nat) :
    Except RecordError (JsonlCommittedWrite N) :=
  let op := (Json.lookup "op" members).bind Json.string?
  if op = some "append" then
    orShape do
      let (ns, key) ← address? members
      some (.listAppend seq ns key (← Json.lookup "value" members))
  else if op = some "delete" then
    orShape do
      let (ns, key) ← address? members
      some (.listDelete seq ns key)
  else .error (.listOperation op)

/-- `Number.isSafeInteger(value) && value >= minimum`, without the upper bound. -/
def safeIntegerAtLeast (minimum : Nat) (document : Option (Json N)) : Option Nat :=
  (document.bind Json.nat?).filter fun n => minimum ≤ n

def parseCommittedWrite (document : Json N) : Except RecordError (JsonlCommittedWrite N) :=
  match document with
  | .obj members =>
    match safeIntegerAtLeast 1 (Json.lookup "seq" members) with
    | none => .error .writeSeq
    | some seq =>
      let kind := (Json.lookup "kind" members).bind Json.string?
      if kind = some "entry" then
        match safeIntegerAtLeast 0 (Json.lookup "timestamp" members) with
        | none => .error .entryTimestamp
        | some timestamp => (orShape (entryRecord? members seq timestamp)).map .entry
      else if kind = some "usage" then (orShape (usageRow? members seq)).map .usage
      else if kind = some "value" then valueWrite? members seq
      else if kind = some "list" then listWrite? members seq
      else .error (.writeKind kind)
  | _ => .error .notRecord

@[simp] theorem safeIntegerAtLeast_ofNat {minimum n : Nat} (enough : minimum ≤ n) :
    safeIntegerAtLeast minimum (some (.ofNat n : Json N)) = some n := by
  simp [safeIntegerAtLeast, enough]

theorem lookup_entryMembers (entry : JsonlEntry N) {name : String}
    (reserved : name ∈ reservedMembers) :
    Json.lookup name (entryHead entry ++ entry.body.members ++ entryTail entry) =
      (Json.lookup name (entryTail entry)).or (Json.lookup name (entryHead entry)) := by
  rw [Json.lookup_append, Json.lookup_append, entry.body.lookup_reserved reserved, Option.none_or]

theorem ofMembers_entryMembers (entry : JsonlEntry N) :
    EntryBody.ofMembers (entryHead entry ++ entry.body.members ++ entryTail entry) = entry.body := by
  have head : (entryHead entry).filter (fun mem => mem.1 ∉ reservedMembers) = [] := by
    unfold entryHead optionalMember
    cases entry.customType <;> simp [reservedMembers]
  have tail : (entryTail entry).filter (fun mem => mem.1 ∉ reservedMembers) = [] := by
    simp [entryTail, reservedMembers]
  have body : entry.body.members.filter (fun mem => mem.1 ∉ reservedMembers) =
      entry.body.members := by
    rw [filter_eq_self]
    intro mem inside
    simpa using entry.body.unreserved mem inside
  ext1
  simp only [EntryBody.ofMembers, filter_append, head, tail, body, nil_append, append_nil]

theorem parseCommittedWrite_entry (entry : JsonlEntry N) (positive : 1 ≤ entry.seq) :
    parseCommittedWrite (entryToJson entry) = .ok (.entry entry) := by
  have seqOk : safeIntegerAtLeast 1 (some (.ofNat entry.seq : Json N)) = some entry.seq :=
    safeIntegerAtLeast_ofNat positive
  have timestampOk : safeIntegerAtLeast 0 (some (.ofNat entry.timestamp : Json N)) =
      some entry.timestamp := safeIntegerAtLeast_ofNat (Nat.zero_le _)
  have read : entryRecord? (entryHead entry ++ entry.body.members ++ entryTail entry) entry.seq
      entry.timestamp = some entry := by
    rw [entryRecord?, ofMembers_entryMembers, lookup_entryMembers entry (by decide),
      lookup_entryMembers entry (by decide), lookup_entryMembers entry (by decide),
      lookup_entryMembers entry (by decide)]
    obtain ⟨id, parentId, seq, timestamp, type, customType, body⟩ := entry
    cases customType <;>
      simp [entryHead, entryTail, optionalMember, Json.lookup, Json.string?, readOptional]
  rw [append_assoc] at read
  rw [entryToJson, parseCommittedWrite]
  simp only [lookup_entryMembers entry (show "seq" ∈ reservedMembers by decide),
    lookup_entryMembers entry (show "kind" ∈ reservedMembers by decide),
    lookup_entryMembers entry (show "timestamp" ∈ reservedMembers by decide)]
  have seqFound : Json.lookup "seq" (entryTail entry) = some (.ofNat entry.seq) := by
    simp [entryTail, Json.lookup]
  have timestampFound : Json.lookup "timestamp" (entryTail entry) = some (.ofNat entry.timestamp) := by
    simp [entryTail, Json.lookup]
  have kindFound : (Json.lookup "kind" (entryTail entry)).or (Json.lookup "kind" (entryHead entry)) =
      some (.str "entry") := by
    unfold entryHead optionalMember
    cases entry.customType <;> simp [entryTail, Json.lookup]
  simp [seqFound, timestampFound, kindFound, seqOk, timestampOk, Json.string?, orShape, Except.map,
    read]

theorem parseCommittedWrite_writeToJson (write : JsonlCommittedWrite N) (positive : 1 ≤ write.seq) :
    parseCommittedWrite (writeToJson write) = .ok write := by
  have seqOk (seq : Nat) (atLeast : 1 ≤ seq) :
      safeIntegerAtLeast 1 (some (.ofNat seq : Json N)) = some seq :=
    safeIntegerAtLeast_ofNat atLeast
  cases write with
  | entry entry => exact parseCommittedWrite_entry entry positive
  | usage row =>
    obtain ⟨id, seq, usage, entryId, adjustment, details⟩ := row
    cases entryId <;> cases details <;>
      simp [writeToJson, usageRowToJson, parseCommittedWrite, optionalMember, Json.lookup,
        seqOk seq positive, Json.string?, Json.bool?, usageRow?, usage?_usageToJson, readOptional,
        orShape, Except.map]
  | valueSet seq ns key v =>
    simp [writeToJson, parseCommittedWrite, Json.lookup, seqOk seq positive, Json.string?,
      valueWrite?, address?, orShape]
  | valueDelete seq ns key =>
    simp [writeToJson, parseCommittedWrite, Json.lookup, seqOk seq positive, Json.string?,
      valueWrite?, address?, orShape]
  | listAppend seq ns key v =>
    simp [writeToJson, parseCommittedWrite, Json.lookup, seqOk seq positive, Json.string?,
      listWrite?, address?, orShape]
  | listDelete seq ns key =>
    simp [writeToJson, parseCommittedWrite, Json.lookup, seqOk seq positive, Json.string?,
      listWrite?, address?, orShape]

def parseWrites : List (Json N) → Except RecordError (List (JsonlCommittedWrite N))
  | [] => .ok []
  | document :: rest =>
    match parseCommittedWrite document with
    | .error reason => .error reason
    | .ok write => (parseWrites rest).map (write :: ·)

def parseJsonlTransaction (line : List Char) : Except RecordError (List (JsonlCommittedWrite N)) :=
  match Json.parseChars line with
  | none => .error .notJson
  | some (.arr items) => parseWrites items
  | some document => parseWrites [document]

def transactionToJson : List (JsonlCommittedWrite N) → Json N
  | [write] => writeToJson write
  | writes => .arr (writes.map writeToJson)

def serializeJsonlTransaction (writes : List (JsonlCommittedWrite N)) : List Char :=
  Json.stringifyChars (transactionToJson writes)

theorem serializeJsonlTransaction_single (writes : List (JsonlCommittedWrite N)) :
    '\n' ∉ serializeJsonlTransaction writes := Json.stringifyChars_no_newline _

theorem parseWrites_map (positive : ∀ write ∈ writes, 1 ≤ write.seq) :
    parseWrites (writes.map writeToJson) = .ok writes := by
  induction writes with
  | nil => rfl
  | cons write rest ih =>
    simp [parseWrites, parseCommittedWrite_writeToJson write (positive write mem_cons_self),
      ih fun other mem => positive other (mem_cons_of_mem _ mem), Except.map]

theorem writeToJson_isObject (write : JsonlCommittedWrite N) : ∃ members, writeToJson write = .obj members := by
  cases write <;> exact ⟨_, rfl⟩

theorem parseJsonlTransaction_serialize (positive : ∀ write ∈ writes, 1 ≤ write.seq) :
    parseJsonlTransaction (serializeJsonlTransaction writes) = .ok writes := by
  have parsed := parseWrites_map positive
  rw [parseJsonlTransaction, serializeJsonlTransaction, Json.parseChars_stringifyChars]
  match writes with
  | [] => exact parsed
  | [write] =>
    obtain ⟨members, object⟩ := writeToJson_isObject write
    simp only [transactionToJson, object]
    rwa [map_singleton, object] at parsed
  | first :: second :: rest => exact parsed

def jsonlFormatVersion : Nat := 4

def jsonlStorageVersion : Nat := 1

end

structure JsonlStorageHeader where
  id : String
  storageVersion : Nat
  createdAt : Nat
  cwd : String
  parentSessionId : Option String
  legacyParentSessionPath : Option String
  nextSeq : Option Nat

structure LegacyV3SessionHeader where
  id : String
  timestamp : String
  cwd : String
  parentSession : Option String

inductive JsonlParsedSessionHeader where
  | v4 (header : JsonlStorageHeader)
  | legacyV3 (header : LegacyV3SessionHeader)

inductive HeaderError where
  | notJson | unsupported

def HeaderError.message : HeaderError → String
  | .notJson => "Invalid JSONL session header: not valid JSON"
  | .unsupported => "Unsupported JSONL session header"

section

variable {N : Type} [JsonNumber N] {header : JsonlStorageHeader}

def headerToJson (header : JsonlStorageHeader) : Json N :=
  .obj ([("v", .ofNat jsonlFormatVersion), ("kind", .str "header"), ("id", .str header.id),
      ("storageVersion", .ofNat header.storageVersion), ("createdAt", .ofNat header.createdAt),
      ("cwd", .str header.cwd)] ++
    optionalMember "parentSessionId" (header.parentSessionId.map .str) ++
    optionalMember "legacyParentSessionPath" (header.legacyParentSessionPath.map .str) ++
    optionalMember "nextSeq" (header.nextSeq.map .ofNat))

/-- `isJsonlStorageHeader`, returning the header it recognizes. -/
def jsonlStorageHeader? (document : Json N) : Option JsonlStorageHeader := do
  guard ((document.get? "kind").bind Json.string? = some "header")
  guard ((document.get? "v").bind Json.nat? = some jsonlFormatVersion)
  let id ← (← document.get? "id").string?
  let cwd ← (← document.get? "cwd").string?
  let storageVersion ← safeIntegerAtLeast 1 (document.get? "storageVersion")
  let createdAt ← safeIntegerAtLeast 0 (document.get? "createdAt")
  let nextSeq ← readOptional (fun n => safeIntegerAtLeast 1 (some n)) (document.get? "nextSeq")
  let parentSessionId ← readOptional Json.string? (document.get? "parentSessionId")
  let legacyParentSessionPath ← readOptional Json.string? (document.get? "legacyParentSessionPath")
  some { id, storageVersion, createdAt, cwd, parentSessionId, legacyParentSessionPath, nextSeq }

/-- `isLegacyV3SessionHeader`; `dateParse` is `Date.parse`, `none` for no finite time. -/
def legacyV3SessionHeader? (dateParse : String → Option Int) (document : Json N) :
    Option LegacyV3SessionHeader := do
  guard ((document.get? "type").bind Json.string? = some "session")
  guard ((document.get? "version").bind Json.nat? = some 3)
  let id ← (← document.get? "id").string?
  let cwd ← (← document.get? "cwd").string?
  let timestamp ← (← document.get? "timestamp").string?
  guard (dateParse timestamp).isSome
  let parentSession ← readOptional Json.string? (document.get? "parentSession")
  some { id, timestamp, cwd, parentSession }

def parseJsonlSessionHeader (N : Type) [JsonNumber N] (dateParse : String → Option Int)
    (line : List Char) : Except HeaderError JsonlParsedSessionHeader :=
  match (Json.parseChars line : Option (Json N)) with
  | none => .error .notJson
  | some document =>
    match jsonlStorageHeader? document with
    | some header => .ok (.v4 header)
    | none =>
      match legacyV3SessionHeader? dateParse document with
      | some header => .ok (.legacyV3 header)
      | none => .error .unsupported

/-- A header `isJsonlStorageHeader` accepts. -/
structure JsonlStorageHeader.Valid (header : JsonlStorageHeader) : Prop where
  storageVersion : 1 ≤ header.storageVersion
  nextSeq : ∀ n ∈ header.nextSeq, 1 ≤ n

theorem jsonlStorageHeader?_headerToJson (valid : header.Valid) :
    jsonlStorageHeader? (headerToJson header : Json N) = some header := by
  obtain ⟨id, storageVersion, createdAt, cwd, parentSessionId, legacyPath, nextSeq⟩ := header
  have version : safeIntegerAtLeast 1 (some (.ofNat storageVersion : Json N)) = some storageVersion :=
    safeIntegerAtLeast_ofNat valid.storageVersion
  have created : safeIntegerAtLeast 0 (some (.ofNat createdAt : Json N)) = some createdAt :=
    safeIntegerAtLeast_ofNat (Nat.zero_le _)
  have next : ∀ n, nextSeq = some n →
      safeIntegerAtLeast 1 (some (.ofNat n : Json N)) = some n := fun n isNext =>
    safeIntegerAtLeast_ofNat (valid.nextSeq n isNext)
  cases parentSessionId <;> cases legacyPath <;> cases nextSeq <;>
    simp_all [jsonlStorageHeader?, headerToJson, optionalMember, Json.get?, Json.lookup, Json.string?,
      readOptional, jsonlFormatVersion, guard]

def headerLine (N : Type) [JsonNumber N] (header : JsonlStorageHeader) : List Char :=
  Json.stringifyChars (headerToJson header : Json N)

theorem headerLine_single (header : JsonlStorageHeader) : '\n' ∉ headerLine N header :=
  Json.stringifyChars_no_newline _

theorem headerLine_ne_nil (header : JsonlStorageHeader) : headerLine N header ≠ [] := by
  obtain ⟨c, rest, printed, -⟩ := Json.stringifyChars_head (headerToJson header : Json N)
  rw [headerLine, printed]
  exact cons_ne_nil _ _

theorem parseJsonlSessionHeader_headerLine (dateParse : String → Option Int)
    (valid : header.Valid) :
    parseJsonlSessionHeader N dateParse (headerLine N header) = .ok (.v4 header) := by
  rw [parseJsonlSessionHeader, headerLine, Json.parseChars_stringifyChars]
  simp [jsonlStorageHeader?_headerToJson valid]

end

end Trpi.Session.Jsonl
