import Trpi.Library.IndexRange
import Trpi.Ai.TransformMessages

/-!
# Preparing a compaction of a lane

`prepareCompaction` of agent/src/harness/compaction/compaction.ts over the entries of a path.
Where to cut is searched backwards by estimated tokens. Token counts are naturals, and so are
the counts of a usage; a range past the end of the entries throws.
-/

namespace Trpi.Harness

open Library Ai
open Library.Utf16 (Units)

variable {N : Type}

structure BashExecutionMessage (N : Type) where
  command : Units
  output : Units
  timestamp : N

structure CustomMessage (N : Type) where
  customType : String
  content : UserContent
  timestamp : N

structure BranchSummaryMessage (N : Type) where
  summary : Units
  fromId : Option String
  timestamp : N

structure CompactionSummaryMessage (N : Type) where
  summary : Units
  tokensBefore : Nat
  timestamp : N

/-- `AgentMessage` with the harness's own messages. -/
inductive LaneMessage (N : Type) where
  | message (message : Message N)
  | bashExecution (message : BashExecutionMessage N)
  | custom (message : CustomMessage N)
  | branchSummary (message : BranchSummaryMessage N)
  | compactionSummary (message : CompactionSummaryMessage N)

def LaneMessage.timestamp : LaneMessage N → N
  | .message (.user user) => user.timestamp
  | .message (.assistant assistant) => assistant.timestamp
  | .message (.toolResult result) => result.timestamp
  | .bashExecution execution => execution.timestamp
  | .custom own => own.timestamp
  | .branchSummary summary => summary.timestamp
  | .compactionSummary summary => summary.timestamp

structure CompactionEntry (N : Type) where
  summary : Units
  retainedTail : List (LaneMessage N)
  tokensBefore : Nat
  details : Option (Json N)

/-- What the kinds of entries have beyond `EntryBase`. -/
inductive EntryContent (N : Type) where
  | message (message : LaneMessage N)
  | compaction (entry : CompactionEntry N)
  | branchSummary (fromId : Option String) (summary : Units)
  | custom (customType : String)

structure PathEntry (N : Type) where
  id : String
  parentId : Option String
  seq : Nat
  timestamp : N
  content : EntryContent N

def PathEntry.isCompaction (entry : PathEntry N) : Bool :=
  match entry.content with
  | .compaction _ => true
  | _ => false

def PathEntry.isMessage (entry : PathEntry N) : Bool :=
  match entry.content with
  | .message _ => true
  | _ => false

def getMessageFromEntry (entry : PathEntry N) : Option (LaneMessage N) :=
  match entry.content with
  | .message message => some message
  | .branchSummary fromId summary =>
    some (.branchSummary { summary, fromId, timestamp := entry.timestamp })
  | .compaction compaction =>
    some (.compactionSummary
      { summary := compaction.summary, tokensBefore := compaction.tokensBefore
        timestamp := entry.timestamp })
  | .custom _ => none

def getMessageFromEntryForCompaction (entry : PathEntry N) : Option (LaneMessage N) :=
  if entry.isCompaction then none else getMessageFromEntry entry

def ESTIMATED_IMAGE_CHARS : Nat := 4800

def mediaChars : MediaContent → Nat
  | .text content => content.text.length
  | .image _ _ => ESTIMATED_IMAGE_CHARS

def estimateTextAndImageContentChars : UserContent → Nat
  | .text text => text.length
  | .blocks blocks => (blocks.map mediaChars).sum

section

variable [JsonNumber N]

def assistantChars : AssistantContent N → Nat
  | .text content => content.text.length
  | .thinking content => content.thinking.length
  | .toolCall call =>
    (Utf16.units call.name.toList).length + (Utf16.units call.arguments.stringifyChars).length

def messageChars : LaneMessage N → Nat
  | .message (.user message) => estimateTextAndImageContentChars message.content
  | .message (.assistant message) => (message.content.map assistantChars).sum
  | .message (.toolResult message) => estimateTextAndImageContentChars (.blocks message.content)
  | .bashExecution message => message.command.length + message.output.length
  | .custom message => estimateTextAndImageContentChars message.content
  | .branchSummary message => message.summary.length
  | .compactionSummary message => message.summary.length

/-- A quarter of the characters, rounded up. -/
def estimateTokens (message : LaneMessage N) : Nat := (messageChars message + 3) / 4

def usageCount (usage : Json N) (name : String) : Nat :=
  ((usage.get? name).bind Json.nat?).getD 0

def calculateContextTokens (usage : Json N) : Nat :=
  if usageCount usage "totalTokens" ≠ 0 then usageCount usage "totalTokens"
  else usageCount usage "input" + usageCount usage "output" + usageCount usage "cacheRead" +
    usageCount usage "cacheWrite"

/-- The tokens of the usage of a message, where it counts. -/
def getAssistantUsage : LaneMessage N → Option Nat
  | .message (.assistant message) =>
    if message.stopReason ≠ .aborted ∧ message.stopReason ≠ .error ∧
        0 < calculateContextTokens message.usage then
      some (calculateContextTokens message.usage)
    else none
  | _ => none

def getLastAssistantUsageInfo : List (LaneMessage N) → Option (Nat × List (LaneMessage N))
  | [] => none
  | message :: messages =>
    match getLastAssistantUsageInfo messages with
    | some info => some info
    | none => (getAssistantUsage message).map fun tokens => (tokens, messages)

def estimateContextTokens (messages : List (LaneMessage N)) : Nat :=
  match getLastAssistantUsageInfo messages with
  | none => (messages.map estimateTokens).sum
  | some (usageTokens, trailing) => usageTokens + (trailing.map estimateTokens).sum

end

def isContextMessage : LaneMessage N → Bool
  | .message (.assistant message) =>
    message.stopReason ≠ .error && message.stopReason ≠ .aborted && message.stopReason ≠ .deferred
  | _ => true

def sessionEntryToContextMessages (entry : PathEntry N) : List (LaneMessage N) :=
  match entry.content with
  | .message message => if isContextMessage message then [message] else []
  | .compaction compaction =>
    (getMessageFromEntry entry).toList ++ compaction.retainedTail.filter isContextMessage
  | .branchSummary _ summary => if summary = [] then [] else (getMessageFromEntry entry).toList
  | .custom _ => []

def splitAtCompaction : List (PathEntry N) →
    Option (PathEntry N × CompactionEntry N × List (PathEntry N))
  | [] => none
  | entry :: entries =>
    match splitAtCompaction entries with
    | some found => some found
    | none =>
      match entry.content with
      | .compaction compaction => some (entry, compaction, entries)
      | _ => none

def buildContextEntries (pathEntries : List (PathEntry N)) : List (PathEntry N) :=
  match splitAtCompaction pathEntries with
  | none => pathEntries
  | some (entry, _, after) => entry :: after

def isCutPoint (entry : PathEntry N) : Bool :=
  match entry.content with
  | .message (.message (.toolResult _)) => false
  | .message _ => true
  | .branchSummary _ _ => true
  | .compaction _ => false
  | .custom _ => false

def cutPointsAt (entries : List (PathEntry N)) : List Nat → Option (List Nat)
  | [] => some []
  | i :: indices =>
    match entries[i]? with
    | none => none
    | some entry =>
      (cutPointsAt entries indices).map fun cutPoints =>
        if isCutPoint entry then i :: cutPoints else cutPoints

def findValidCutPoints (entries : List (PathEntry N)) (startIndex endIndex : Nat) :
    Option (List Nat) :=
  cutPointsAt entries (indexRange startIndex endIndex)

def isTurnStart (entry : PathEntry N) : Bool :=
  match entry.content with
  | .branchSummary _ _ => true
  | .message (.message (.user _)) => true
  | .message (.bashExecution _) => true
  | _ => false

def findTurnStartIndex (entries : List (PathEntry N)) (entryIndex startIndex : Nat) : Option Nat :=
  (indexRange startIndex (entryIndex + 1)).reverse.find? fun i => entries[i]?.any isTurnStart

structure CutPointResult where
  firstKeptEntryIndex : Nat
  turnStartIndex : Option Nat
  isSplitTurn : Bool
  deriving DecidableEq

section

variable [JsonNumber N]

/-- The walk backwards over these indices: the first message at which the tokens reach the
budget. -/
def findBudgetIndex (entries : List (PathEntry N)) (keepRecentTokens : Int) :
    List Nat → Nat → Option Nat
  | [], _ => none
  | i :: indices, accumulatedTokens =>
    match entries[i]?.map PathEntry.content with
    | some (.message message) =>
      if keepRecentTokens ≤ (accumulatedTokens + estimateTokens message : Nat) then some i
      else
        findBudgetIndex entries keepRecentTokens indices
          (accumulatedTokens + estimateTokens message)
    | _ => findBudgetIndex entries keepRecentTokens indices accumulatedTokens

def selectCutPoint (entries : List (PathEntry N)) (startIndex endIndex : Nat)
    (keepRecentTokens : Int) (first : Nat) (cutPoints : List Nat) : Nat :=
  match findBudgetIndex entries keepRecentTokens (indexRange startIndex endIndex).reverse 0 with
  | some i => ((first :: cutPoints).find? fun cut => i ≤ cut).getD first
  | none => first

def moveBack (entries : List (PathEntry N)) (startIndex : Nat) : Nat → Nat
  | 0 => 0
  | previous + 1 =>
    if startIndex < previous + 1 ∧
        entries[previous]?.any (fun entry => !entry.isCompaction && !entry.isMessage) then
      moveBack entries startIndex previous
    else previous + 1

def isUserEntry (entry : PathEntry N) : Bool :=
  match entry.content with
  | .message (.message (.user _)) => true
  | _ => false

def findCutPoint (entries : List (PathEntry N)) (startIndex endIndex : Nat)
    (keepRecentTokens : Int) : Option CutPointResult :=
  match findValidCutPoints entries startIndex endIndex with
  | none => none
  | some [] =>
    some { firstKeptEntryIndex := startIndex, turnStartIndex := none, isSplitTurn := false }
  | some (first :: cutPoints) =>
    let cutIndex := moveBack entries startIndex
      (selectCutPoint entries startIndex endIndex keepRecentTokens first cutPoints)
    let isUserMessage := entries[cutIndex]?.any isUserEntry
    let turnStartIndex :=
      if isUserMessage then none else findTurnStartIndex entries cutIndex startIndex
    some
      { firstKeptEntryIndex := cutIndex, turnStartIndex
        isSplitTurn := !isUserMessage && turnStartIndex.isSome }

end

structure FileOperations where
  read : List String
  written : List String
  edited : List String

def createFileOps : FileOperations := ⟨[], [], []⟩

def addPath (paths : List String) (path : String) : List String :=
  if path ∈ paths then paths else paths ++ [path]

def extractFileOpsFromCall (fileOps : FileOperations) : AssistantContent N → FileOperations
  | .toolCall call =>
    match (call.arguments.get? "path").bind Json.string? with
    | none => fileOps
    | some path =>
      if path = "" then fileOps
      else if call.name = "read" then { fileOps with read := addPath fileOps.read path }
      else if call.name = "write" then { fileOps with written := addPath fileOps.written path }
      else if call.name = "edit" then { fileOps with edited := addPath fileOps.edited path }
      else fileOps
  | _ => fileOps

def extractFileOpsFromMessage (fileOps : FileOperations) : LaneMessage N → FileOperations
  | .message (.assistant message) => message.content.foldl extractFileOpsFromCall fileOps
  | _ => fileOps

def listedPaths (details : Json N) (name : String) : List String :=
  match details.get? name with
  | some (.arr files) => files.filterMap Json.string?
  | _ => []

def extractFileOperations (messages : List (LaneMessage N))
    (prevCompaction : Option (CompactionEntry N)) : FileOperations :=
  let listed (name : String) : List String :=
    match prevCompaction.bind CompactionEntry.details with
    | some details => (listedPaths details name).foldl addPath []
    | none => []
  messages.foldl extractFileOpsFromMessage
    { read := listed "readFiles", written := [], edited := listed "modifiedFiles" }

structure CompactionSettings where
  enabled : Bool
  reserveTokens : Int
  keepRecentTokens : Int

structure CompactionPreparation (N : Type) where
  messagesToSummarize : List (LaneMessage N)
  turnPrefixMessages : List (LaneMessage N)
  retainedTail : List (LaneMessage N)
  isSplitTurn : Bool
  tokensBefore : Nat
  previousSummary : Option Units
  fileOps : FileOperations
  settings : CompactionSettings

/-- The entries that stand for what an earlier compaction retained. -/
def virtualRetainedEntries (entry : PathEntry N) (retainedTail : List (LaneMessage N)) :
    List (PathEntry N) :=
  retainedTail.zipIdx.map fun item =>
    { id := entry.id ++ ":retained:" ++ toString item.2
      parentId := some (if item.2 = 0 then entry.id
        else entry.id ++ ":retained:" ++ toString (item.2 - 1))
      seq := entry.seq, timestamp := item.1.timestamp, content := .message item.1 }

def compactableEntries (pathEntries : List (PathEntry N)) : List (PathEntry N) :=
  match splitAtCompaction pathEntries with
  | none => pathEntries
  | some (entry, compaction, after) =>
    virtualRetainedEntries entry compaction.retainedTail ++ after

def collectMessages (entries : List (PathEntry N)) (startIndex endIndex : Nat) :
    List (LaneMessage N) :=
  (indexRange startIndex endIndex).filterMap fun i =>
    entries[i]?.bind getMessageFromEntryForCompaction

variable [JsonNumber N]

def prepareCompaction (pathEntries : List (PathEntry N)) (settings : CompactionSettings) :
    Option (CompactionPreparation N) :=
  if pathEntries.isEmpty ∨ pathEntries.getLast?.any PathEntry.isCompaction then none
  else
    let prevCompaction := (splitAtCompaction pathEntries).map fun found => found.2.1
    let entries := compactableEntries pathEntries
    let boundaryEnd := entries.length
    let tokensBefore := estimateContextTokens
      ((buildContextEntries pathEntries).flatMap sessionEntryToContextMessages)
    (findCutPoint entries 0 boundaryEnd settings.keepRecentTokens).map fun cutPoint =>
      let turnStartIndex := cutPoint.turnStartIndex.getD 0
      let historyEnd :=
        if cutPoint.isSplitTurn then turnStartIndex else cutPoint.firstKeptEntryIndex
      let messagesToSummarize := collectMessages entries 0 historyEnd
      let turnPrefixMessages :=
        if cutPoint.isSplitTurn then
          collectMessages entries turnStartIndex cutPoint.firstKeptEntryIndex
        else []
      let fileOps := extractFileOperations messagesToSummarize prevCompaction
      { messagesToSummarize, turnPrefixMessages
        retainedTail := collectMessages entries cutPoint.firstKeptEntryIndex boundaryEnd
        isSplitTurn := cutPoint.isSplitTurn
        tokensBefore
        previousSummary := prevCompaction.map CompactionEntry.summary
        fileOps :=
          if cutPoint.isSplitTurn then turnPrefixMessages.foldl extractFileOpsFromMessage fileOps
          else fileOps
        settings }

end Trpi.Harness
