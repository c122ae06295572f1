import Trpi.Library.Lines
import Trpi.Session.CommitRuns
import Trpi.Session.Jsonl.Codec

/-!
# The JSONL store

session/jsonl/storage.ts and session/jsonl/io.ts over one session file, held as
its bytes. Creating publishes a header line and the initial transaction, a
commit appends one line before it applies its writes, and opening replays the
complete lines and republishes the file without a torn tail. An append can fail
after any number of bytes. Publishing is atomic and does not fail here. The v3
backing has its own module.
-/

namespace Trpi.Session.Jsonl

open Library (Json JsonNumber run lineBytes splitLines)
open Library.Utf8 (encode decode)

variable {N : Type} [JsonNumber N] [Add N] [Zero N]

/-- A store on a format-4 file: the parsed header, the file and the materialized state. -/
structure V4Storage (N : Type) where
  header : JsonlStorageHeader
  file : List UInt8
  state : JsonlState N

def transactionBytes (writes : List (JsonlCommittedWrite N)) : List UInt8 :=
  encode (serializeJsonlTransaction writes ++ ['\n'])

inductive CreateError where
  | refused (reason : CommitError)
  | threw (reason : AddressError)

def create (header : JsonlStorageHeader) (initialWrites : List (JsonlWrite N)) (now : Nat) :
    Except CreateError (V4Storage N) :=
  match InMemoryStorageState.initial.prepareCommit initialWrites now with
  | .error reason => .error (.refused reason)
  | .ok prepared =>
    let file := encode (headerLine N header ++ ['\n']) ++
      if prepared.writes = [] then [] else transactionBytes prepared.writes
    match InMemoryStorageState.initial.applyValidated prepared.writes with
    | (_, .error reason) => .error (.threw reason)
    | (s, .ok _) => .ok { header := header, file := file, state := s }

inductive JsonlCommitFailure where
  | refused (reason : CommitError)
  | append
  | publish
  | threw (reason : AddressError)

/-- `applyCommit` on the v4 backing. `fault = some k` lets the append fail after
`k` bytes have reached the file. -/
def V4Storage.commit (storage : V4Storage N) (writes : List (JsonlWrite N)) (now : Nat)
    (fault : Option Nat) : V4Storage N × Except JsonlCommitFailure (CommitResult N) :=
  match storage.state.prepareCommit writes now with
  | .error reason => (storage, .error (.refused reason))
  | .ok prepared =>
    let bytes := if prepared.writes = [] then [] else transactionBytes prepared.writes
    match prepared.writes, fault with
    | _ :: _, some written =>
      ({ storage with file := storage.file ++ bytes.take written }, .error .append)
    | _, _ =>
      match storage.state.applyValidated prepared.writes with
      | (s, .error reason) =>
        ({ storage with file := storage.file ++ bytes, state := s }, .error (.threw reason))
      | (s, .ok stats) =>
        ({ storage with file := storage.file ++ bytes, state := s },
          .ok { firstSeq := prepared.firstSeq, seqs := prepared.seqs,
                timestamp := prepared.timestamp, stats := stats })

inductive ReplayError where
  | record (reason : RecordError)
  | refused (reason : CommitError)
  | threw (reason : AddressError)

inductive OpenError where
  | missingHeader
  | invalidHeader (reason : HeaderError)
  | unsupportedVersion (id : String) (storageVersion : Nat)
  | invalidLine (line : Nat) (cause : ReplayError)
  | invalidHighWater (nextSeq : Nat)

def OpenError.message (path : String) : OpenError → String
  | .missingHeader => "Invalid JSONL storage " ++ path ++ ": missing header"
  | .invalidHeader _ => "Invalid JSONL storage " ++ path ++ ": invalid header"
  | .unsupportedVersion id version =>
    "Session " ++ id ++ " uses unsupported storage version " ++ toString version
  | .invalidLine line _ => "Invalid JSONL storage " ++ path ++ ": line " ++ toString line
  | .invalidHighWater nextSeq => "Invalid storage sequence high-water mark: " ++ toString nextSeq

/-- The complete lines of a file's content, and whether it ends inside a line. -/
def splitCompleteLines (content : List Char) : List (List Char) × Bool :=
  ((splitLines content).1, decide (content.getLast? ≠ some '\n'))

/-- `readJsonlHeader`: the first line must be complete and nonempty. -/
def readJsonlHeader (N : Type) [JsonNumber N] (dateParse : String → Option Int)
    (content : List Char) : Except OpenError JsonlParsedSessionHeader :=
  match (splitLines content).1 with
  | [] => .error .missingHeader
  | line :: _ =>
    if line = [] then .error .missingHeader
    else (parseJsonlSessionHeader N dateParse line).mapError .invalidHeader

def replayCommitted (s : JsonlState N) (writes : List (JsonlCommittedWrite N)) :
    Except ReplayError (JsonlState N) :=
  match s.validateCommitted writes with
  | .error reason => .error (.refused reason)
  | .ok () =>
    match s.applyValidated writes with
    | (_, .error reason) => .error (.threw reason)
    | (next, .ok _) => .ok next

def replayLine (s : JsonlState N) (line : List Char) : Except ReplayError (JsonlState N) :=
  match parseJsonlTransaction line with
  | .error reason => .error (.record reason)
  | .ok writes => replayCommitted s writes

/-- Replay lines in order; `number` is the line number of the first. -/
def replayLines (number : Nat) (s : JsonlState N) : List (List Char) →
    Except OpenError (JsonlState N)
  | [] => .ok s
  | line :: rest =>
    match replayLine s line with
    | .error cause => .error (.invalidLine number cause)
    | .ok next => replayLines (number + 1) next rest

/-- Raise `nextSeq` to the high-water mark of a header that has one. -/
def advanceTo (s : JsonlState N) : Option Nat → Except OpenError (JsonlState N)
  | none => .ok s
  | some nextSeq =>
    match s.advanceNextSeq nextSeq with
    | none => .error (.invalidHighWater nextSeq)
    | some advanced => .ok advanced

def openV4 (header : JsonlStorageHeader) (file : List UInt8) : Except OpenError (V4Storage N) :=
  let split := splitCompleteLines (decode file)
  if header.storageVersion ≠ jsonlStorageVersion then
    .error (.unsupportedVersion header.id header.storageVersion)
  else
    match replayLines 2 InMemoryStorageState.initial (split.1.drop 1) with
    | .error reason => .error reason
    | .ok replayed =>
      match advanceTo replayed header.nextSeq with
      | .error reason => .error reason
      | .ok s =>
        .ok { header := header, file := if split.2 then lineBytes split.1 else file, state := s }

/-- `JsonlStorage.open` on a file whose header says format 4; `none` for a v3 file. -/
def openStorage (dateParse : String → Option Int) (file : List UInt8) :
    Except OpenError (Option (V4Storage N)) :=
  match readJsonlHeader N dateParse (decode file) with
  | .error reason => .error reason
  | .ok (.legacyV3 _) => .ok none
  | .ok (.v4 header) => (openV4 header file).map some

end Trpi.Session.Jsonl
