import Trpi.Session.Jsonl.LegacySource
import Trpi.Session.Jsonl.Reopen

/-!
# Sessions opened on a version-3 file

The v3 backing of session/jsonl/storage.ts. Opening replays the writes of the
legacy source into memory and leaves the file alone. The first commit that
writes anything publishes the whole session as a format-4 file: the source's
writes, then one transaction with a usage adjustment for the imported usage and
the caller's writes. `adjustmentId` is the id `uuidv7` draws for the adjustment.
-/

namespace Trpi.Session.Jsonl

open Library
open Library.Utf8 (decode)

variable {N : Type} [JsonNumber N] [Add N] [Zero N]

/-- A store on a version-3 file. -/
structure V3Storage (N : Type) where
  source : LegacyV3Source N
  header : JsonlStorageHeader
  file : List UInt8
  state : JsonlState N

inductive LegacyStorageError where
  | source (reason : LegacyOpenError)
  | writes (reason : LegacyV3Error)
  | replay (reason : ReplayError)

def openLegacyV3 (dateParse : String → Option Int) (resolveParent : String → Option String)
    (mint : Nat → String) (file : List UInt8) : Except LegacyStorageError (V3Storage N) :=
  match LegacyV3Source.read dateParse resolveParent mint file with
  | .error reason => .error (.source reason)
  | .ok (source : LegacyV3Source N) =>
    match source.writes dateParse file (fun _ => true) with
    | .error reason => .error (.writes reason)
    | .ok writes =>
      match run replayCommitted .initial (writes.map fun write => [write]) with
      | .error reason => .error (.replay reason)
      | .ok s =>
        .ok
          { source := source
            header := { source.header with nextSeq := some source.nextSeq }
            file := file
            state := s }

/-- An open session file in either format. -/
inductive JsonlStorage (N : Type) where
  | v3 (storage : V3Storage N)
  | v4 (storage : V4Storage N)

/-- The totals while the imported usage has no row of its own. -/
def V3Storage.withImportedUsage (s : V3Storage N) (stats : SessionStats N) : SessionStats N :=
  { stats with usage := s.source.importedUsage }

/-- The usage row that carries the imported usage into the format-4 file. -/
def V3Storage.adjustment (s : V3Storage N) (adjustmentId : String) : JsonlWrite N :=
  .usage
    { id := adjustmentId
      usage := s.source.importedUsage
      entryId := none
      adjustment := true
      details := some (.obj [("source", .str "v3-import")]) }

def V3Storage.upgradedHeader (s : V3Storage N) (nextSeq : Nat) : JsonlStorageHeader :=
  { s.header with nextSeq := some nextSeq }

/-- `upgradeLegacyV3ToV4`. -/
def V3Storage.upgrade (dateParse : String → Option Int) (adjustmentId : String)
    (storage : V3Storage N) (callerWrites : List (JsonlWrite N)) (now : Nat) (fault : Option Nat) :
    JsonlStorage N × Except JsonlCommitFailure (CommitResult N) :=
  match storage.state.prepareCommit (storage.adjustment adjustmentId :: callerWrites) now with
  | .error reason => (.v3 storage, .error (.refused reason))
  | .ok prepared =>
    let upgradedHeader := storage.upgradedHeader (prepared.firstSeq + prepared.writes.length)
    match storage.source.writes dateParse storage.file (fun _ => true), fault with
    | .ok sourceWrites, none =>
      let file := lineBytes (publishedLines upgradedHeader
        ((sourceWrites.map fun write => [write]) ++ [prepared.writes]))
      match storage.state.applyValidated prepared.writes with
      | (s, .error reason) =>
        (.v3 { storage with file := file, state := s }, .error (.threw reason))
      | (s, .ok stats) =>
        (.v4 { header := storage.header, file := file, state := s },
          .ok { firstSeq := prepared.firstSeq + 1, seqs := prepared.seqs.drop 1,
                timestamp := prepared.timestamp, stats := stats })
    | _, _ => (.v3 storage, .error .publish)

/-- `applyCommit`. -/
def JsonlStorage.commit (dateParse : String → Option Int) (adjustmentId : String)
    (s : JsonlStorage N) (writes : List (JsonlWrite N)) (now : Nat) (fault : Option Nat) :
    JsonlStorage N × Except JsonlCommitFailure (CommitResult N) :=
  match s with
  | .v4 s =>
    let (next, outcome) := s.commit writes now fault
    (.v4 next, outcome)
  | .v3 s =>
    if writes = [] then
      match s.state.prepareCommit writes now with
      | .error reason => (.v3 s, .error (.refused reason))
      | .ok prepared =>
        (.v3 s,
          .ok { firstSeq := prepared.firstSeq, seqs := prepared.seqs,
                timestamp := prepared.timestamp,
                stats := s.withImportedUsage s.state.stats })
    else s.upgrade dateParse adjustmentId writes now fault

/-- The logical state a reader of a session sees. -/
structure SessionView (N : Type) where
  entries : List (JsonlEntry N)
  values : Value → Option (StoredValue (Json N))
  lists : ValueList → List (ListElement (Json N))
  stats : SessionStats N
  nextSeq : Nat

def viewOf (s : JsonlState N) : SessionView N where
  entries := s.entriesBySeq
  values := s.getValue
  lists := s.listElements
  stats := s.stats
  nextSeq := s.nextSeq

def JsonlStorage.view : JsonlStorage N → SessionView N
  | .v4 s => viewOf s.state
  | .v3 s =>
    { viewOf s.state with stats := s.withImportedUsage s.state.stats }

end Trpi.Session.Jsonl
