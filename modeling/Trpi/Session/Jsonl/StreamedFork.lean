import Trpi.Session.Jsonl.LegacySource
import Trpi.Session.Jsonl.Log

/-!
# The streamed fork

session/jsonl/fork.ts: the first pass folds the source into an index of parents,
current rows and lanes and selects what the fork copies, the second pass reads
the source again and publishes every surviving write the fork policy keeps as a
transaction of its own. `first` and `second` are the bytes of the source file as
the two passes find it. A legacy source was scanned before, so only its second
pass reads the file. The lane sets are maps to `Unit`, and the generator that
reads transactions takes the body of the loop over it as `consume`.
-/

namespace Trpi.Session.Jsonl

open Library
open Library.Utf8 (decode)

structure JsonlForkIndex (V : Type) where
  currentScalarSeqs : InsertionMap String Nat
  branchTips : InsertionMap String V
  firstSurvivingListSeqs : InsertionMap String Nat
  entryParents : InsertionMap String (Option String)
  copiedEntryIds : List String
  laneConfigs : InsertionMap String Unit
  laneStates : InsertionMap String Unit

namespace JsonlForkIndex

variable {β V N : Type}

def empty : JsonlForkIndex V where
  currentScalarSeqs := .empty
  branchTips := .empty
  firstSurvivingListSeqs := .empty
  entryParents := .empty
  copiedEntryIds := []
  laneConfigs := .empty
  laneStates := .empty

def applyEntry (index : JsonlForkIndex V) (id : String) (parentId : Option String) :
    JsonlForkIndex V :=
  { index with entryParents := index.entryParents.set id parentId }

/-- `applyLaneValue`; `value` is `none` for a delete. -/
def applyLaneValue (index : JsonlForkIndex V) (ns key : String) (value : Option V) :
    JsonlForkIndex V :=
  if ns = "pi.branch.tip" then
    { index with branchTips := value.elim (index.branchTips.erase key) (index.branchTips.set key) }
  else if ns = "pi.lane.config" then
    { index with
      laneConfigs := value.elim (index.laneConfigs.erase key) fun _ => index.laneConfigs.set key () }
  else if ns = "pi.lane.state" then
    { index with
      laneStates := value.elim (index.laneStates.erase key) fun _ => index.laneStates.set key () }
  else index

/-- One iteration of `applyWrites`. -/
def applyWrite (index : JsonlForkIndex V) : CommittedWrite β V N → JsonlForkIndex V
  | .entry entry => index.applyEntry entry.id entry.parentId
  | .valueDelete _ ns key =>
    { index with
      currentScalarSeqs := index.currentScalarSeqs.erase (physicalKey ns key) }.applyLaneValue ns key
        none
  | .valueSet seq ns key value =>
    { index with
      currentScalarSeqs := index.currentScalarSeqs.set (physicalKey ns key) seq }.applyLaneValue ns
        key (some value)
  | .listDelete _ ns key =>
    { index with
      firstSurvivingListSeqs := index.firstSurvivingListSeqs.erase (physicalKey ns key) }
  | .listAppend seq ns key _ =>
    if index.firstSurvivingListSeqs.contains (physicalKey ns key) then index
    else
      { index with
        firstSurvivingListSeqs := index.firstSurvivingListSeqs.set (physicalKey ns key) seq }
  | .usage _ => index

def applyWrites (index : JsonlForkIndex V) (writes : List (CommittedWrite β V N)) :
    JsonlForkIndex V :=
  writes.foldl applyWrite index

def hasCompleteLane (index : JsonlForkIndex V) (branch : String) : Bool :=
  index.laneConfigs.contains branch && index.laneStates.contains branch

def getCurrentScalarSeq (index : JsonlForkIndex V) (ns key : String) : Option Nat :=
  index.currentScalarSeqs.get? (physicalKey ns key)

def isSurvivingListElement (index : JsonlForkIndex V) (ns key : String) (seq : Nat) : Bool :=
  (index.firstSurvivingListSeqs.get? (physicalKey ns key)).any fun firstSeq => firstSeq ≤ seq

def isEntrySelected (index : JsonlForkIndex V) (entryId : String) : Bool :=
  decide (entryId ∈ index.copiedEntryIds)

end JsonlForkIndex

section Policy

variable {β V N : Type} [ForkValue V]

/-- `selectJsonlFork`: the plan, and the index with the entries of a branch fork selected. -/
def selectJsonlFork (fuel : Nat) (index : JsonlForkIndex V) :
    ForkOptions → Except ForkError (ForkCurrentStatePlan × JsonlForkIndex V)
  | .tree => .ok (.tree, index)
  | .branch branch entryId position =>
    match selectBranchFork fuel branch entryId position (index.branchTips.get? branch)
        index.entryParents.get? with
    | .error reason => .error reason
    | .ok (destinationTip, selected) =>
      if index.hasCompleteLane branch then
        .ok (.branch branch destinationTip, { index with copiedEntryIds := selected })
      else .error (.notConfigured branch)

/-- `projectJsonlForkWrite`: what the copy pass publishes of a write, if anything. -/
def projectJsonlForkWrite (index : JsonlForkIndex V) (plan : ForkCurrentStatePlan)
    (isEntryCopied : String → Bool) :
    CommittedWrite β V N → Except ForkError (Option (CommittedWrite β V N))
  | .entry entry => .ok (if isEntryCopied entry.id then some (.entry entry) else none)
  | .valueSet seq ns key value =>
    if index.getCurrentScalarSeq ns key = some seq then
      (projectForkCurrentState plan isEntryCopied ns key value).map
        (Option.map fun projected => .valueSet seq ns key projected)
    else .ok none
  | .listAppend seq ns key value =>
    if index.isSurvivingListElement ns key seq then
      (projectForkCurrentState plan isEntryCopied ns key value).map
        (Option.map fun projected => .listAppend seq ns key projected)
    else .ok none
  | .valueDelete .. => .ok none
  | .listDelete .. => .ok none
  | .usage _ => .ok none

end Policy

structure JsonlForkSourceMetadata where
  id : String
  cwd : String
  path : String

/-- The input of a fork: a format-4 file or an already normalized legacy source. -/
inductive JsonlForkInput (N : Type) where
  | open (metadata : JsonlForkSourceMetadata) (nextSeq : Nat)
  | closed (metadata : JsonlForkSourceMetadata)
  | legacyV3 (normalized : LegacyV3Source N)

inductive JsonlForkError where
  | header (path : String) (reason : OpenError)
  | expectedFormat4 (path : String)
  | identity (id : String)
  | unsupportedVersion (id : String) (storageVersion : Nat)
  | record (reason : RecordError)
  | crossesBoundary (stopBeforeSeq : Nat)
  | legacy (reason : LegacyV3Error)
  | translate (reason : LegacyV3Source.TranslateError)
  | fork (reason : ForkError)

def JsonlForkError.message : JsonlForkError → String
  | .header path reason => reason.message path
  | .expectedFormat4 path => "Invalid JSONL storage " ++ path ++ ": expected format 4 header"
  | .identity id => "Session identity does not match header: " ++ id
  | .unsupportedVersion id version =>
    "Session " ++ id ++ " uses unsupported storage version " ++ toString version
  | .record reason => reason.message
  | .crossesBoundary stopBeforeSeq =>
    "JSONL transaction crosses fork sequence boundary " ++ toString stopBeforeSeq
  | .legacy reason => reason.message
  | .translate reason => reason.message
  | .fork reason => reason.message

section Reading

variable {N : Type} [JsonNumber N]

def readJsonlForkHeader (N : Type) [JsonNumber N] (dateParse : String → Option Int)
    (source : JsonlForkSourceMetadata) (content : List Char) :
    Except JsonlForkError JsonlStorageHeader :=
  match readJsonlHeader N dateParse content with
  | .error reason => .error (.header source.path reason)
  | .ok (.legacyV3 _) => .error (.expectedFormat4 source.path)
  | .ok (.v4 header) =>
    if header.id ≠ source.id ∨ header.cwd ≠ source.cwd then .error (.identity source.id)
    else if header.storageVersion ≠ jsonlStorageVersion then
      .error (.unsupportedVersion source.id header.storageVersion)
    else .ok header

omit [JsonNumber N] in
/-- Whether a transaction lies at or past the boundary; it must not span it. -/
def reachesForkBoundary (writes : List (JsonlCommittedWrite N)) (stopBeforeSeq : Option Nat) :
    Except JsonlForkError Bool :=
  match stopBeforeSeq, writes.head?, writes.getLast? with
  | some stop, some first, some last =>
    if stop ≤ first.seq then .ok true
    else if stop ≤ last.seq then .error (.crossesBoundary stop)
    else .ok false
  | _, _, _ => .ok false

/-- `readJsonlForkTransactions` under the loop that consumes it. -/
def readJsonlForkTransactions {σ : Type} (stopBeforeSeq : Option Nat)
    (consume : σ → List (JsonlCommittedWrite N) → Except JsonlForkError σ) :
    σ → List (List Char) → Except JsonlForkError σ
  | s, [] => .ok s
  | s, line :: rest =>
    match (parseJsonlTransaction line : Except RecordError (List (JsonlCommittedWrite N))) with
    | .error reason => .error (.record reason)
    | .ok writes =>
      match reachesForkBoundary writes stopBeforeSeq with
      | .error reason => .error reason
      | .ok true => .ok s
      | .ok false =>
        match consume s writes with
        | .error reason => .error reason
        | .ok next => readJsonlForkTransactions stopBeforeSeq consume next rest

/-- The index and the highest complete sequence after one more transaction. -/
def indexTransaction (progress : JsonlForkIndex (Json N) × Nat)
    (writes : List (JsonlCommittedWrite N)) :
    Except JsonlForkError (JsonlForkIndex (Json N) × Nat) :=
  .ok (progress.1.applyWrites writes, (writes.getLast?.map CommittedWrite.seq).getD progress.2)

/-- Header, index and highest complete sequence of a format-4 source. -/
def indexForkFile (dateParse : String → Option Int) (metadata : JsonlForkSourceMetadata)
    (stopBeforeSeq : Option Nat) (file : List UInt8) :
    Except JsonlForkError (JsonlStorageHeader × JsonlForkIndex (Json N) × Nat) := do
  let header ← readJsonlForkHeader N dateParse metadata (decode file)
  let progress ← readJsonlForkTransactions stopBeforeSeq indexTransaction (.empty, 0)
    ((splitLines (decode file)).1.drop 1)
  .ok (header, progress)

/-- `indexForkInput`: the index and the source's `nextSeq`. -/
def indexForkInput (dateParse : String → Option Int) (input : JsonlForkInput N)
    (first : List UInt8) : Except JsonlForkError (JsonlForkIndex (Json N) × Nat) :=
  match input with
  | .legacyV3 normalized => do
    let structures ← normalized.entryStructures.mapError .legacy
    let index := structures.foldl (fun index entry => JsonlForkIndex.applyEntry index entry.1 entry.2)
      JsonlForkIndex.empty
    .ok (index.applyWrites normalized.values, normalized.nextSeq)
  | .open metadata nextSeq => do
    let (_, index, _) ← indexForkFile dateParse metadata (some nextSeq) first
    .ok (index, nextSeq)
  | .closed metadata => do
    let (header, index, highestCompleteSeq) ← indexForkFile dateParse metadata none first
    .ok (index, max (header.nextSeq.getD 1) (highestCompleteSeq + 1))

/-- The second pass over a format-4 source. -/
def streamForkFile {σ : Type} (dateParse : String → Option Int) (metadata : JsonlForkSourceMetadata)
    (stopBeforeSeq : Nat) (file : List UInt8)
    (consume : σ → JsonlCommittedWrite N → Except JsonlForkError σ) (s : σ) :
    Except JsonlForkError σ := do
  let _ ← readJsonlForkHeader N dateParse metadata (decode file)
  readJsonlForkTransactions (some stopBeforeSeq) (run consume) s
    ((splitLines (decode file)).1.drop 1)

def streamForkWrites {σ : Type} (dateParse : String → Option Int) (input : JsonlForkInput N)
    (second : List UInt8) (stopBeforeSeq : Nat) (isEntryCopied : String → Bool)
    (consume : σ → JsonlCommittedWrite N → Except JsonlForkError σ) (s : σ) :
    Except JsonlForkError σ :=
  match input with
  | .legacyV3 normalized => do
    let writes ← (normalized.writes dateParse second isEntryCopied).mapError .legacy
    run consume s writes
  | .open metadata _ => streamForkFile dateParse metadata stopBeforeSeq second consume s
  | .closed metadata => streamForkFile dateParse metadata stopBeforeSeq second consume s

/-- A legacy request names an entry by the id of its record. -/
def translateForkOptions (input : JsonlForkInput N) (fork : ForkOptions) :
    Except JsonlForkError ForkOptions :=
  match input, fork with
  | .legacyV3 normalized, .branch branch (some entryId) position =>
    ((normalized.translateForkEntryId entryId).mapError .translate).map fun mapped =>
      .branch branch (some mapped) position
  | _, _ => .ok fork

/-- What one write adds to the published ones. -/
def appendProjected (index : JsonlForkIndex (Json N)) (plan : ForkCurrentStatePlan)
    (isEntryCopied : String → Bool) (published : List (JsonlCommittedWrite N))
    (write : JsonlCommittedWrite N) : Except JsonlForkError (List (JsonlCommittedWrite N)) :=
  match projectJsonlForkWrite index plan isEntryCopied write with
  | .error reason => .error (.fork reason)
  | .ok projected => .ok (published ++ projected.toList)

/-- `runJsonlFork`: the bytes of the published destination. -/
def runJsonlFork (dateParse : String → Option Int) (input : JsonlForkInput N)
    (destinationHeader : JsonlStorageHeader) (fork : ForkOptions) (first second : List UInt8) :
    Except JsonlForkError (List UInt8) := do
  let (index, nextSeq) ← indexForkInput dateParse input first
  let fork ← translateForkOptions input fork
  let (plan, index) ← (selectJsonlFork nextSeq index fork).mapError .fork
  let isEntryCopied := InMemoryStorageState.isEntryCopied plan index.copiedEntryIds
  let published ← streamForkWrites dateParse input second nextSeq isEntryCopied
    (appendProjected index plan isEntryCopied) []
  .ok (lineBytes (publishedLines { destinationHeader with nextSeq := some nextSeq }
    (published.map fun write => [write])))

end Reading

end Trpi.Session.Jsonl
