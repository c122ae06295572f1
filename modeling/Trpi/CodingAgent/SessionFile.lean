import Trpi.CodingAgent.SessionContext
import Trpi.Library.JsonRoundTrip
import Trpi.Library.Lines

/-!
# Files of coding sessions

A session file has one entry on a line, the header first. Lines that are not JSON are
skipped; an unterminated last line is read, and ended when the file is a session. A file of
an older version is migrated as it is loaded. Ids are drawn from a source: the short ones of
`randomUUID().slice(0, 8)` and the whole one that is the last resort.
-/

namespace Trpi.CodingAgent

open Library List
open Library.Utf8 (decode newlineByte)

variable {N : Type} [JsonNumber N]

def CURRENT_SESSION_VERSION : Nat := 3

structure IdSource where
  short : Nat → String
  uuid : String

def generateId (source : IdSource) (taken : String → Bool) : String :=
  (((List.range 100).map source.short).find? fun id => !taken id).getD source.uuid

def FileEntry.line (entry : FileEntry N) : List Char := Json.stringifyChars entry.json

def entryBytes (entries : List (FileEntry N)) : List UInt8 :=
  lineBytes (entries.map FileEntry.line)

def parseSessionEntryLine (line : List Char) : Option (FileEntry N) :=
  match Json.parseChars line with
  | none => none
  | some json => if json.truthy then some ⟨json⟩ else none

def isHeader (entry : FileEntry N) : Bool := entry.isSession && entry.id.isSome

/-- The entries of a file, none if it is no session, and the file as it is left. -/
def loadEntriesFromFile (bytes : List UInt8) : List (FileEntry N) × List UInt8 :=
  let lines := (splitLines (decode bytes)).1
  let pending := (splitLines (decode bytes)).2
  let entries := (lines ++ [pending]).filterMap parseSessionEntryLine
  match entries with
  | [] => ([], bytes)
  | header :: _ =>
    if isHeader header then (entries, if pending = [] then bytes else bytes ++ [newlineByte])
    else ([], bytes)

/-- `header?.version ?? 1`; what is no number counts as 1. -/
def fileVersion (entries : List (FileEntry N)) : Nat :=
  (((entries.find? (·.isSession)).bind (·.get "version")).bind Json.nat?).getD 1

def FileEntry.chain (entry : FileEntry N) (id : String) (parentId : Option String) :
    FileEntry N :=
  (entry.set "id" (.str id)).set "parentId"
    (match parentId with
    | none => .null
    | some parentId => .str parentId)

/-- An index into the file becomes the id of the entry there; those ahead have none yet. -/
def convertFirstKept (done ahead : List (FileEntry N)) (entry : FileEntry N) : FileEntry N :=
  match (entry.get "firstKeptEntryIndex").bind Json.number? with
  | none => entry
  | some number =>
    let target := (JsonNumber.toNat? number).bind fun index => (done ++ entry :: ahead)[index]?
    let converted :=
      match target with
      | none => entry
      | some target =>
        if target.isSession then entry
        else
          match target.get "id" with
          | none => entry.delete "firstKeptEntryId"
          | some id => entry.set "firstKeptEntryId" id
    converted.delete "firstKeptEntryIndex"

/-- The entries done, those ahead and the last id; the ids drawn so far are not looked at. -/
def migrateV1ToV2 (sources : Nat → IdSource) :
    List (FileEntry N) → Option String → List (FileEntry N) → List (FileEntry N)
  | done, _, [] => done
  | done, prevId, entry :: ahead =>
    if entry.isSession then
      migrateV1ToV2 sources (done ++ [entry.set "version" (Json.ofNat 2)]) prevId ahead
    else
      let id := generateId (sources done.length) fun _ => false
      let chained := entry.chain id prevId
      let migrated :=
        if chained.isCompaction then convertFirstKept done ahead chained else chained
      migrateV1ToV2 sources (done ++ [migrated]) (some id) ahead

def renameHookMessage (entry : FileEntry N) : FileEntry N :=
  if entry.isSession then entry.set "version" (Json.ofNat 3)
  else if entry.type = some "message" ∧ entry.role = some "hookMessage" then
    match entry.get "message" with
    | none => entry
    | some message => entry.set "message" (message.setMember "role" (.str "custom"))
  else entry

def migrateV2ToV3 (entries : List (FileEntry N)) : List (FileEntry N) :=
  entries.map renameHookMessage

/-- The migrated entries, if there was anything to migrate. -/
def migrateToCurrentVersion (sources : Nat → IdSource) (entries : List (FileEntry N)) :
    Option (List (FileEntry N)) :=
  let version := fileVersion entries
  if CURRENT_SESSION_VERSION ≤ version then none
  else
    let chained := if version < 2 then migrateV1ToV2 sources [] none entries else entries
    some (migrateV2ToV3 chained)

/-!
## Reading back what was written

A file of entries behind a header is read back as those entries and needs no repair, and an
entry appended to such a file is read behind the others.
-/

variable {e : FileEntry N} {entries : List (FileEntry N)} {bytes : List UInt8}

theorem parseSessionEntryLine_line (truthy : e.json.truthy = true) :
    parseSessionEntryLine e.line = some e := by
  rw [parseSessionEntryLine, FileEntry.line, Json.parseChars_stringifyChars]
  dsimp only
  rw [if_pos truthy]

theorem truthy_of_parse {line : List Char} (parsed : parseSessionEntryLine line = some e) :
    e.json.truthy = true := by
  rw [parseSessionEntryLine] at parsed
  split at parsed
  · cases parsed
  split at parsed
  · rename_i truthy
    exact Option.some.inj parsed ▸ truthy
  · cases parsed

theorem lines_single (entries : List (FileEntry N)) :
    ∀ line ∈ entries.map FileEntry.line, '\n' ∉ line := by
  intro line mem
  obtain ⟨e, -, rfl⟩ := mem_map.mp mem
  exact Json.stringifyChars_no_newline e.json

theorem filterMap_lines (truthy : ∀ e ∈ entries, e.json.truthy = true) :
    (entries.map FileEntry.line).filterMap parseSessionEntryLine = entries := by
  induction entries with
  | nil => rfl
  | cons e rest ih =>
    obtain ⟨here, later⟩ := forall_mem_cons.mp truthy
    rw [map_cons, filterMap_cons_some (parseSessionEntryLine_line here), ih later]

/-- A file that is read as the given entries, behind a header, and is left as it is. -/
structure Holds (bytes : List UInt8) (entries : List (FileEntry N)) : Prop where
  ended : Ended bytes
  read : (splitLines (decode bytes)).1.filterMap parseSessionEntryLine = entries
  header : ∃ header rest, entries = header :: rest ∧ isHeader header = true

theorem Holds.load (holds : Holds bytes entries) :
    loadEntriesFromFile bytes = (entries, bytes) := by
  obtain ⟨header, rest, rfl, valid⟩ := holds.header
  have whole : ((splitLines (decode bytes)).1 ++ [(splitLines (decode bytes)).2]).filterMap
      parseSessionEntryLine = header :: rest := by
    rw [filterMap_append, holds.read, holds.ended]
    exact append_nil _
  rw [loadEntriesFromFile, whole]
  dsimp only
  rw [if_pos valid, show (splitLines (decode bytes)).2 = [] from holds.ended, if_pos rfl]

theorem Holds.truthy (holds : Holds bytes entries) : ∀ e ∈ entries, e.json.truthy = true := by
  intro e mem
  rw [← holds.read] at mem
  obtain ⟨line, -, parsed⟩ := mem_filterMap.mp mem
  exact truthy_of_parse parsed

theorem holds_entryBytes {header : FileEntry N} {rest : List (FileEntry N)}
    (valid : isHeader header = true) (truthy : ∀ e ∈ header :: rest, e.json.truthy = true) :
    Holds (entryBytes (header :: rest)) (header :: rest) := by
  have lines := splitLines_decode_lineBytes (lines_single (header :: rest))
  constructor
  · rw [Ended, entryBytes, lines]
  · rw [entryBytes, lines]
    exact filterMap_lines truthy
  · exact ⟨header, rest, rfl, valid⟩

theorem Holds.append (holds : Holds bytes entries) (truthy : e.json.truthy = true) :
    Holds (bytes ++ entryBytes [e]) (entries ++ [e]) := by
  have lines := holds.ended.append (lines_single [e])
  constructor
  · rw [Ended, entryBytes, lines]
  · rw [entryBytes, lines, filterMap_append, holds.read, filterMap_lines]
    intro other mem
    rw [mem_singleton.mp mem]
    exact truthy
  · obtain ⟨header, rest, rfl, valid⟩ := holds.header
    exact ⟨header, rest ++ [e], rfl, valid⟩

theorem holds_of_load (s : (loadEntriesFromFile (N := N) bytes).1 ≠ []) :
    Holds (loadEntriesFromFile (N := N) bytes).2 (loadEntriesFromFile (N := N) bytes).1 := by
  cases read : ((splitLines (decode bytes)).1 ++ [(splitLines (decode bytes)).2]).filterMap
      (parseSessionEntryLine (N := N)) with
  | nil =>
    rw [loadEntriesFromFile, read] at s
    exact absurd rfl s
  | cons header rest =>
    rw [loadEntriesFromFile, read] at s ⊢
    dsimp only at s ⊢
    by_cases valid : isHeader header = true
    · rw [if_pos valid]
      dsimp only
      split
      · rename_i ended
        constructor
        · exact ended
        · rw [filterMap_append, ended] at read
          exact (append_nil _).symm.trans read
        · exact ⟨header, rest, rfl, valid⟩
      · constructor
        · rw [Ended, splitLines_decode_newline]
        · rw [splitLines_decode_newline]
          exact read
        · exact ⟨header, rest, rfl, valid⟩
    · rw [if_neg valid] at s
      exact absurd rfl s

end Trpi.CodingAgent
