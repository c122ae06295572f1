import Trpi.Library.InsertionMap
import Trpi.Library.Runs
import Trpi.Session.Commit
import Trpi.Session.ForkPolicy

/-!
# Materialized session state

session/in-memory-storage-state.ts: the maps both MemoryStorage and JsonlStorage
keep, the application of validated writes, the queries and `createFork`.

Storing a value or the first element of a list builds an address from the raw
namespace and key of the write, and that can throw. Application therefore
returns the state it reached together with its outcome: the writes before the
throwing one have taken effect. The parent walks of `scanBranch` and
`createFork` get `nextSeq` as fuel.
-/

namespace Trpi.Session

open Library (InsertionMap run)

structure InMemoryStorageState (β V N : Type) where
  entries : InsertionMap String (Entry β)
  entriesBySeq : List (Entry β)
  scalarValues : InsertionMap String (StoredValue V)
  listValues : InsertionMap String (StoredListSnapshot V)
  usage : InsertionMap String (UsageRow V N)
  stats : SessionStats N
  nextSeq : Nat

namespace InMemoryStorageState

variable {β V N : Type}

section Commit

variable [Add N] [Zero N]

/-- The state of a fresh session. -/
def initial : InMemoryStorageState β V N where
  entries := .empty
  entriesBySeq := []
  scalarValues := .empty
  listValues := .empty
  usage := .empty
  stats := { messageCount := 0, usage := emptyUsage }
  nextSeq := 1

def validationState (s : InMemoryStorageState β V N) : CommitValidationState where
  hasEntryOrUsageId id := s.entries.contains id || s.usage.contains id
  hasEntryId id := s.entries.contains id

def validateCommitted (s : InMemoryStorageState β V N)
    (writes : List (CommittedWrite β V N)) : Except CommitError Unit :=
  validateCommittedWrites writes s.nextSeq s.validationState

def prepareCommit (s : InMemoryStorageState β V N) (writes : List (Write β V N))
    (timestamp : Nat) : Except CommitError (PreparedCommit β V N) :=
  match s.validateCommitted (commitWrites writes s.nextSeq timestamp) with
  | .error reason => .error reason
  | .ok () => .ok (prepareStorageCommit writes s.nextSeq timestamp)

def applyValueSet (s : InMemoryStorageState β V N) (seq : Nat) (ns key : String) (next : V) :
    Except AddressError (InMemoryStorageState β V N) :=
  match value ns key with
  | .error reason => .error reason
  | .ok address =>
    .ok { s with
      scalarValues := s.scalarValues.set (physicalKey ns key)
        { address := address, value := next, seq := seq } }

/-- Push an element onto the list at an address, creating the list on first use. -/
def applyListAppend (s : InMemoryStorageState β V N) (seq : Nat) (ns key : String) (next : V) :
    Except AddressError (InMemoryStorageState β V N) :=
  match s.listValues.get? (physicalKey ns key) with
  | none =>
    match list ns key with
    | .error reason => .error reason
    | .ok address =>
      .ok { s with
        listValues := s.listValues.set (physicalKey ns key)
          { address := address, elements := [{ seq := seq, value := next }] } }
  | some stored =>
    .ok { s with
      listValues := s.listValues.set (physicalKey ns key)
        { stored with elements := stored.elements ++ [{ seq := seq, value := next }] } }

/-- The effect of one write on the maps, before `nextSeq` moves. -/
def applyWriteBody (s : InMemoryStorageState β V N) :
    CommittedWrite β V N → Except AddressError (InMemoryStorageState β V N)
  | .entry entry =>
    .ok { s with
      entries := s.entries.set entry.id entry
      entriesBySeq := s.entriesBySeq ++ [entry]
      stats :=
        if entry.type = .message then
          { s.stats with messageCount := s.stats.messageCount + 1 }
        else s.stats }
  | .usage row =>
    .ok { s with
      usage := s.usage.set row.id row
      stats := { s.stats with usage := addUsage s.stats.usage row.usage } }
  | .valueSet seq ns key next => s.applyValueSet seq ns key next
  | .valueDelete _ ns key =>
    .ok { s with scalarValues := s.scalarValues.erase (physicalKey ns key) }
  | .listAppend seq ns key next => s.applyListAppend seq ns key next
  | .listDelete _ ns key =>
    .ok { s with listValues := s.listValues.erase (physicalKey ns key) }

def applyWrite (s : InMemoryStorageState β V N) (write : CommittedWrite β V N) :
    Except AddressError (InMemoryStorageState β V N) :=
  (s.applyWriteBody write).map fun next => { next with nextSeq := write.seq + 1 }

/-- Apply writes in order; a throw leaves the writes before it applied. -/
def applyValidated (s : InMemoryStorageState β V N) :
    List (CommittedWrite β V N) → InMemoryStorageState β V N × Except AddressError (SessionStats N)
  | [] => (s, .ok s.stats)
  | write :: rest =>
    match s.applyWrite write with
    | .error reason => (s, .error reason)
    | .ok next => next.applyValidated rest

inductive CommitFailure where
  | refused (reason : CommitError)
  | threw (reason : AddressError)

def commit (s : InMemoryStorageState β V N) (writes : List (Write β V N)) (timestamp : Nat) :
    InMemoryStorageState β V N × Except CommitFailure (CommitResult N) :=
  match s.prepareCommit writes timestamp with
  | .error reason => (s, .error (.refused reason))
  | .ok prepared =>
    match s.applyValidated prepared.writes with
    | (next, .error reason) => (next, .error (.threw reason))
    | (next, .ok stats) =>
      (next, .ok { firstSeq := prepared.firstSeq, seqs := prepared.seqs,
                   timestamp := prepared.timestamp, stats := stats })

/-- `advanceNextSeq`; a mark below one is refused. -/
def advanceNextSeq (s : InMemoryStorageState β V N) (nextSeq : Nat) :
    Option (InMemoryStorageState β V N) :=
  if nextSeq < 1 then none else some { s with nextSeq := max s.nextSeq nextSeq }

end Commit

section Queries

inductive ScanOrder where
  | newestFirst | oldestFirst

inductive SeqOrder where
  | asc | desc

structure StorageBranchScan where
  start : String
  stopAtType : Option EntryType
  stopAtId : Option String
  type : Option EntryType
  customType : Option String
  order : ScanOrder
  limit : Option Nat
  cursor : Option Nat

inductive ScanError where
  | unknownStart (start : String)
  | corruptBranch
  | walkUnbounded

def ScanError.message : ScanError → String
  | .unknownStart start => "Unknown branch start: " ++ start
  | .corruptBranch => "Corrupt branch: missing parent"
  | .walkUnbounded => ""

/-- The path from an entry to its root, newest first. -/
def branchPath (s : InMemoryStorageState β V N) : Nat → Entry β → Except ScanError (List (Entry β))
  | 0, _ => .error .walkUnbounded
  | fuel + 1, entry =>
    match entry.parentId with
    | none => .ok [entry]
    | some parentId =>
      match s.entries.get? parentId with
      | none => .error .corruptBranch
      | some parent => (s.branchPath fuel parent).map (entry :: ·)

/-- The prefix of a path up to and including the first stop. -/
def stopAt (query : StorageBranchScan) : List (Entry β) → List (Entry β)
  | [] => []
  | entry :: rest =>
    if some entry.id = query.stopAtId ∨ some entry.type = query.stopAtType then [entry]
    else entry :: stopAt query rest

def matchesScan (query : StorageBranchScan) (entry : Entry β) : Bool :=
  (query.type.all fun type => entry.type = type) &&
  (query.customType.all fun customType => entry.customType = some customType) &&
  query.cursor.all fun seq =>
    match query.order with
    | .oldestFirst => seq < entry.seq
    | .newestFirst => entry.seq < seq

def scanBranch (s : InMemoryStorageState β V N) (query : StorageBranchScan) :
    Except ScanError (List (Entry β)) :=
  match s.entries.get? query.start with
  | none => .error (.unknownStart query.start)
  | some start =>
    match s.branchPath s.nextSeq start with
    | .error reason => .error reason
    | .ok path =>
      let ordered := match query.order with
        | .newestFirst => path
        | .oldestFirst => path.reverse
      let filtered := (stopAt query ordered).filter (matchesScan query)
      match query.limit with
      | none => .ok filtered
      | some limit => .ok (filtered.take limit)

def getValue (s : InMemoryStorageState β V N) (address : Value) : Option (StoredValue V) :=
  s.scalarValues.get? address.physicalKey

/-- `compareKeys(left, right) <= 0` on code points. -/
def codePointsAtMost : List Nat → List Nat → Bool
  | left :: lefts, right :: rights =>
    if left = right then codePointsAtMost lefts rights else decide (left < right)
  | lefts, rights => decide (lefts.length ≤ rights.length)

def compareKeys (left right : String) : Bool :=
  codePointsAtMost (left.toList.map Char.toNat) (right.toList.map Char.toNat)

def scanValues (s : InMemoryStorageState β V N) (start : Value) : List (StoredValue V) :=
  (s.scalarValues.values.filter fun stored =>
      stored.address.ns = start.ns && hasPrefix start.key stored.address.key).mergeSort
    fun left right => compareKeys left.address.key right.address.key

def elementsAt (lists : InsertionMap String (StoredListSnapshot V)) (key : String) :
    List (ListElement V) :=
  ((lists.get? key).map (·.elements)).getD []

def listElements (s : InMemoryStorageState β V N) (address : ValueList) : List (ListElement V) :=
  elementsAt s.listValues address.physicalKey

/-- `readList` after its options are resolved to a cursor, an order and a limit. -/
def readList (s : InMemoryStorageState β V N) (address : ValueList) (cursor : Option Nat)
    (order : SeqOrder) (limit : Nat) : List (ListElement V) :=
  let filtered := (s.listElements address).filter fun element =>
    cursor.all fun seq =>
      match order with
      | .asc => seq < element.seq
      | .desc => element.seq < seq
  let ordered := match order with
    | .asc => filtered
    | .desc => filtered.reverse
  ordered.take limit

end Queries

section Fork

variable [Add N] [Zero N] [ForkValue V]

/-- Plan and selected entry ids of a fork; the tree plan selects every entry. -/
def selectForkPlan (s : InMemoryStorageState β V N) :
    ForkOptions → Except ForkError (ForkCurrentStatePlan × List String)
  | .tree => .ok (.tree, [])
  | .branch branch entryId position =>
    match value "pi.branch.tip" branch, value "pi.lane.config" branch, value "pi.lane.state" branch with
    | .ok tipAddress, .ok configAddress, .ok stateAddress =>
      match selectBranchFork s.nextSeq branch entryId position
          ((s.getValue tipAddress).map (·.value))
          (fun id => (s.entries.get? id).map (·.parentId)) with
      | .error reason => .error reason
      | .ok (destinationTip, selected) =>
        if (s.getValue configAddress).isNone || (s.getValue stateAddress).isNone then
          .error (.notConfigured branch)
        else .ok (.branch branch destinationTip, selected)
    | .error reason, _, _ => .error (.invalidAddress reason)
    | _, .error reason, _ => .error (.invalidAddress reason)
    | _, _, .error reason => .error (.invalidAddress reason)

def isEntryCopied (plan : ForkCurrentStatePlan) (selected : List String) (entryId : String) : Bool :=
  match plan with
  | .tree => true
  | .branch .. => decide (entryId ∈ selected)

def copyEntry (destination : InMemoryStorageState β V N) (entry : Entry β) :
    InMemoryStorageState β V N :=
  { destination with
    entries := destination.entries.set entry.id entry
    entriesBySeq := destination.entriesBySeq ++ [entry]
    stats :=
      if entry.type = .message then
        { destination.stats with messageCount := destination.stats.messageCount + 1 }
      else destination.stats }

def copyScalar (plan : ForkCurrentStatePlan) (copied : String → Bool)
    (destination : InMemoryStorageState β V N) (stored : StoredValue V) :
    Except ForkError (InMemoryStorageState β V N) :=
  match projectForkCurrentState plan copied stored.address.ns stored.address.key stored.value with
  | .error reason => .error reason
  | .ok none => .ok destination
  | .ok (some projected) =>
    (destination.applyValueSet stored.seq stored.address.ns stored.address.key projected).mapError
      .invalidAddress

def copyElement (plan : ForkCurrentStatePlan) (copied : String → Bool) (address : ValueList)
    (destination : InMemoryStorageState β V N) (element : ListElement V) :
    Except ForkError (InMemoryStorageState β V N) :=
  match projectForkCurrentState plan copied address.ns address.key element.value with
  | .error reason => .error reason
  | .ok none => .ok destination
  | .ok (some projected) =>
    (destination.applyListAppend element.seq address.ns address.key projected).mapError
      .invalidAddress

def copyList (plan : ForkCurrentStatePlan) (copied : String → Bool)
    (destination : InMemoryStorageState β V N) (stored : StoredListSnapshot V) :
    Except ForkError (InMemoryStorageState β V N) :=
  run (copyElement plan copied stored.address) destination stored.elements

def createFork (s : InMemoryStorageState β V N) (options : ForkOptions) :
    Except ForkError (InMemoryStorageState β V N) :=
  match s.selectForkPlan options with
  | .error reason => .error reason
  | .ok (plan, selected) =>
    let copied := isEntryCopied plan selected
    let withEntries := (s.entriesBySeq.filter fun entry => copied entry.id).foldl copyEntry initial
    match run (copyScalar plan copied) withEntries s.scalarValues.values with
    | .error reason => .error reason
    | .ok withScalars =>
      match run (copyList plan copied) withScalars s.listValues.values with
      | .error reason => .error reason
      | .ok withLists => .ok { withLists with nextSeq := s.nextSeq }

end Fork

end InMemoryStorageState

end Trpi.Session
