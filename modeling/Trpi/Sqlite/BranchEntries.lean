import Trpi.Library.OrderedRows
import Trpi.Session.Types

/-!
# The branch index of a SQLite session

sqlite/session/branch-entries.ts over the tables `branch_meta` and `branch_entries` of one
session. A branch is a segment: its rows above its base, up to its tip; below its base it is
the branch it is based on. A row count that is not expected, a missing row and a violated
key end a query in an error.
-/

namespace Trpi.Sqlite

open Library (orderedBy)
open Trpi.Session (Entry EntryType)

structure BranchMeta where
  branchId : String
  tipEntryId : String
  tipSeq : Nat
  baseBranchId : Option String
  baseSeq : Option Nat

structure BranchEntry where
  branchId : String
  entryId : String
  entrySeq : Nat
  entryType : EntryType
  deriving DecidableEq

structure BranchIndex where
  branchMeta : List BranchMeta
  branchEntries : List BranchEntry

structure BranchSegment where
  branchId : String
  lowerSeq : Nat
  upperSeq : Nat

inductive SqliteError where
  | branchCacheMissing (entryId : String)
  | branchMetadataMissing (branchId : String)
  | baseWithoutSeq (branchId : String)
  | updatedBranches (branchId : String) (changes : Nat)
  | missingParent
  | duplicateId
  | uniqueConstraint (columns : String)
  | segmentsUnbounded

def SqliteError.message : SqliteError → String
  | .branchCacheMissing entryId => "Branch cache missing entry " ++ entryId
  | .branchMetadataMissing branchId => "Branch metadata missing for branch " ++ branchId
  | .baseWithoutSeq branchId => "Branch " ++ branchId ++ " has base branch without base_seq"
  | .updatedBranches branchId changes =>
    "Expected to update branch " ++ branchId ++ ", updated " ++ toString changes
  | .missingParent => "missing parent entry"
  | .duplicateId => "duplicate entry or usage id"
  | .uniqueConstraint columns => "UNIQUE constraint failed: " ++ columns
  | .segmentsUnbounded => ""

def BranchIndex.empty : BranchIndex where
  branchMeta := []
  branchEntries := []

variable {β : Type}

def branchRow (branchId : String) (entry : Entry β) : BranchEntry where
  branchId := branchId
  entryId := entry.id
  entrySeq := entry.seq
  entryType := entry.type

namespace BranchIndex

/-- The window of a branch: its rows above its base and up to its tip. -/
def inMembership (row : BranchEntry) (branch : BranchMeta) : Bool :=
  (match branch.baseSeq with
    | none => decide (0 < row.entrySeq)
    | some baseSeq => decide (baseSeq < row.entrySeq)) &&
    decide (row.entrySeq ≤ branch.tipSeq)

def memberships (index : BranchIndex) (entryId : String) : List (BranchEntry × BranchMeta) :=
  (index.branchEntries.filter fun row => row.entryId = entryId).flatMap fun row =>
    (index.branchMeta.filter fun branch =>
      branch.branchId = row.branchId && inMembership row branch).map fun branch => (row, branch)

/-- `ORDER BY m.tip_seq DESC, b.branch_id`. -/
def membershipBefore (left right : BranchEntry × BranchMeta) : Prop :=
  right.2.tipSeq < left.2.tipSeq ∨
    (right.2.tipSeq = left.2.tipSeq ∧ left.1.branchId ≤ right.1.branchId)

instance : DecidableRel membershipBefore :=
  fun _ _ => inferInstanceAs (Decidable (_ ∨ _))

def readBranchMembership (index : BranchIndex) (entryId : String) :
    Except SqliteError BranchEntry :=
  match (index.memberships entryId).insertionSort membershipBefore with
  | [] => .error (.branchCacheMissing entryId)
  | (row, _) :: _ => .ok row

def readBranchMeta (index : BranchIndex) (branchId : String) : Except SqliteError BranchMeta :=
  match index.branchMeta.find? fun branch => branch.branchId = branchId with
  | none => .error (.branchMetadataMissing branchId)
  | some branch => .ok branch

def readBranchTipForParent (index : BranchIndex) (parentId : String) : Option BranchMeta :=
  index.branchMeta.find? fun branch => branch.tipEntryId = parentId

/-- The segment a branch ends in below a sequence number, and those it is based on. -/
def segmentsNewestFirst (index : BranchIndex) :
    Nat → String → Nat → Except SqliteError (List BranchSegment)
  | 0, _, _ => .error .segmentsUnbounded
  | fuel + 1, branchId, upperSeq =>
    match index.readBranchMeta branchId with
    | .error reason => .error reason
    | .ok branch =>
      let segment := { branchId := branchId, lowerSeq := branch.baseSeq.getD 0, upperSeq := upperSeq }
      match branch.baseBranchId with
      | none => .ok [segment]
      | some baseBranchId =>
        match branch.baseSeq with
        | none => .error (.baseWithoutSeq branchId)
        | some baseSeq => (index.segmentsNewestFirst fuel baseBranchId baseSeq).map (segment :: ·)

/-- Each base is below the one before it, so the sequence number is fuel enough. -/
def readBranchSegmentsNewestFirst (index : BranchIndex) (start : String) :
    Except SqliteError (List BranchSegment) :=
  match index.readBranchMembership start with
  | .error reason => .error reason
  | .ok row => index.segmentsNewestFirst (row.entrySeq + 1) row.branchId row.entrySeq

/-- The rows of a segment above a sequence number. -/
def segmentRows (index : BranchIndex) (segment : BranchSegment) (lowerSeq : Nat) :
    List BranchEntry :=
  index.branchEntries.filter fun row =>
    row.branchId = segment.branchId && lowerSeq < row.entrySeq && row.entrySeq ≤ segment.upperSeq

/-- `SELECT MAX(entry_seq)`. -/
def maxSeq (rows : List BranchEntry) : Option Nat := (rows.map BranchEntry.entrySeq).max?

def readNewestCompactionBoundary (index : BranchIndex) : List BranchSegment → Option (String × Nat)
  | [] => none
  | segment :: older =>
    match maxSeq ((index.segmentRows segment segment.lowerSeq).filter fun row =>
        row.entryType = .compaction) with
    | some seq => some (segment.branchId, seq)
    | none => index.readNewestCompactionBoundary older

def insertBranchMeta (index : BranchIndex) (branch : BranchMeta) :
    Except SqliteError BranchIndex :=
  if index.branchMeta.any fun other => other.branchId = branch.branchId then
    .error (.uniqueConstraint "branch_meta.branch_id")
  else if index.branchMeta.any fun other => other.tipEntryId = branch.tipEntryId then
    .error (.uniqueConstraint "branch_meta.tip_entry_id")
  else .ok { index with branchMeta := index.branchMeta ++ [branch] }

def insertBranchRow (index : BranchIndex) (row : BranchEntry) : Except SqliteError BranchIndex :=
  if index.branchEntries.any fun other =>
      other.branchId = row.branchId && other.entryId = row.entryId then
    .error (.uniqueConstraint "branch_entries.branch_id, branch_entries.entry_id")
  else .ok { index with branchEntries := index.branchEntries ++ [row] }

def insertBranchRows (index : BranchIndex) : List BranchEntry → Except SqliteError BranchIndex
  | [] => .ok index
  | row :: rows =>
    match index.insertBranchRow row with
    | .error reason => .error reason
    | .ok next => next.insertBranchRows rows

def createRootBranchForEntry (index : BranchIndex) (entry : Entry β) :
    Except SqliteError BranchIndex :=
  match index.insertBranchMeta
      { branchId := entry.id, tipEntryId := entry.id, tipSeq := entry.seq
        baseBranchId := none, baseSeq := none } with
  | .error reason => .error reason
  | .ok next => next.insertBranchRow (branchRow entry.id entry)

/-- The row is added and the tip moves; a tip is that of one branch. -/
def appendEntryToExistingBranch (index : BranchIndex) (branchId : String) (entry : Entry β) :
    Except SqliteError BranchIndex :=
  match index.insertBranchRow (branchRow branchId entry) with
  | .error reason => .error reason
  | .ok next =>
    let changes := (next.branchMeta.filter fun branch => branch.branchId = branchId).length
    if changes ≠ 1 then .error (.updatedBranches branchId changes)
    else if next.branchMeta.any fun branch =>
        branch.branchId ≠ branchId && branch.tipEntryId = entry.id then
      .error (.uniqueConstraint "branch_meta.tip_entry_id")
    else
      .ok { next with
        branchMeta := next.branchMeta.map fun branch =>
          if branch.branchId = branchId then
            { branch with tipEntryId := entry.id, tipSeq := entry.seq }
          else branch }

/-- The rows of the segments above a sequence number, put into another branch. -/
def copyBranchEntriesAfterSeqThroughParent (index : BranchIndex) (targetBranchId : String)
    (afterSeq : Nat) : List BranchSegment → Except SqliteError BranchIndex
  | [] => .ok index
  | segment :: newer =>
    let lowerSeq := max segment.lowerSeq afterSeq
    if segment.upperSeq ≤ lowerSeq then
      index.copyBranchEntriesAfterSeqThroughParent targetBranchId afterSeq newer
    else
      match index.insertBranchRows ((index.segmentRows segment lowerSeq).map fun row =>
          { row with branchId := targetBranchId }) with
      | .error reason => .error reason
      | .ok next => next.copyBranchEntriesAfterSeqThroughParent targetBranchId afterSeq newer

def createDivergentBranchForEntry (index : BranchIndex) (parentId : String) (entry : Entry β) :
    Except SqliteError BranchIndex :=
  match index.readBranchSegmentsNewestFirst parentId with
  | .error reason => .error reason
  | .ok segments =>
    let compaction := index.readNewestCompactionBoundary segments
    match index.insertBranchMeta
        { branchId := entry.id, tipEntryId := entry.id, tipSeq := entry.seq
          baseBranchId := compaction.map Prod.fst, baseSeq := compaction.map Prod.snd } with
    | .error reason => .error reason
    | .ok based =>
      match based.copyBranchEntriesAfterSeqThroughParent entry.id
          ((compaction.map Prod.snd).getD 0) segments.reverse with
      | .error reason => .error reason
      | .ok copied => copied.insertBranchRow (branchRow entry.id entry)

def appendEntryToBranchIndex (index : BranchIndex) (entry : Entry β) :
    Except SqliteError BranchIndex :=
  match entry.parentId with
  | none => index.createRootBranchForEntry entry
  | some parentId =>
    match index.readBranchTipForParent parentId with
    | none => index.createDivergentBranchForEntry parentId entry
    | some branch => index.appendEntryToExistingBranch branch.branchId entry

end BranchIndex

structure EntryTables (β : Type) where
  entries : List (Entry β)
  branches : BranchIndex

namespace EntryTables

def empty : EntryTables β where
  entries := []
  branches := .empty

def insertEntry (tables : EntryTables β) (entry : Entry β) : Except SqliteError (EntryTables β) :=
  if entry.parentId.any fun parentId => !tables.entries.any fun other => other.id = parentId then
    .error .missingParent
  else if tables.entries.any fun other => other.id = entry.id then .error .duplicateId
  else
    match tables.branches.appendEntryToBranchIndex entry with
    | .error reason => .error reason
    | .ok branches => .ok { entries := tables.entries ++ [entry], branches := branches }

def readBranchIds (tables : EntryTables β) (start : String) : Except SqliteError (List String) :=
  (tables.branches.readBranchSegmentsNewestFirst start).map fun segments =>
    segments.reverse.flatMap fun segment =>
      (orderedBy BranchEntry.entrySeq
        (tables.branches.segmentRows segment segment.lowerSeq)).map BranchEntry.entryId

end EntryTables

end Trpi.Sqlite
