import Mathlib.Algebra.Ring.Nat
import Trpi.CodingAgent.SessionContext
import Trpi.Library.Utf16

/-!
# Preparing a compaction

`prepareCompaction` of coding-agent/src/core/compaction/compaction.ts over the entries of a
branch. Where to cut is searched backwards over the entries by estimated tokens, and the
messages before the cut are collected. Parts of a message that are not of their type count
nothing, and token counts are naturals.
-/

namespace Trpi.CodingAgent

open Library

variable {N : Type}

structure CompactionSettings where
  enabled : Bool
  reserveTokens : Int
  keepRecentTokens : Int

def messageRole (message : Json N) : Option String := (message.get? "role").bind Json.string?

def textLength (text : Option (Json N)) : Nat :=
  match text with
  | some (.str text) => (Utf16.units text.toList).length
  | _ => 0

def blockType (block : Json N) : Option String := (block.get? "type").bind Json.string?

def ESTIMATED_IMAGE_CHARS : Nat := 4800

def estimateTextAndImageContentChars (content : Option (Json N)) : Nat :=
  match content with
  | some (.str text) => textLength (some (.str text) : Option (Json N))
  | some (.arr blocks) => (blocks.map fun block =>
      if blockType block = some "text" then textLength (block.get? "text")
      else if blockType block = some "image" then ESTIMATED_IMAGE_CHARS
      else 0).sum
  | _ => 0

section

variable [JsonNumber N]

/-- `JSON.stringify(value).length`. -/
def printedLength (value : Option (Json N)) : Nat :=
  match value with
  | some value => (Utf16.units value.stringifyChars).length
  | none => 0

def assistantChars (content : Option (Json N)) : Nat :=
  match content with
  | some (.arr blocks) => (blocks.map fun block =>
      if blockType block = some "text" then textLength (block.get? "text")
      else if blockType block = some "thinking" then textLength (block.get? "thinking")
      else if blockType block = some "toolCall" then
        textLength (block.get? "name") + printedLength (block.get? "arguments")
      else 0).sum
  | _ => 0

def messageChars (message : Json N) : Nat :=
  match messageRole message with
  | some "user" => estimateTextAndImageContentChars (message.get? "content")
  | some "assistant" => assistantChars (message.get? "content")
  | some "custom" => estimateTextAndImageContentChars (message.get? "content")
  | some "toolResult" => estimateTextAndImageContentChars (message.get? "content")
  | some "bashExecution" =>
    textLength (message.get? "command") + textLength (message.get? "output")
  | some "branchSummary" => textLength (message.get? "summary")
  | some "compactionSummary" => textLength (message.get? "summary")
  | _ => 0

/-- A quarter of the characters, rounded up. -/
def estimateTokens (message : Json N) : Nat := (messageChars message + 3) / 4

def countMember (usage : Json N) (name : String) : Nat :=
  ((usage.get? name).bind Json.nat?).getD 0

def calculateContextTokens (usage : Json N) : Nat :=
  if countMember usage "totalTokens" ≠ 0 then countMember usage "totalTokens"
  else countMember usage "input" + countMember usage "output" + countMember usage "cacheRead" +
    countMember usage "cacheWrite"

def getAssistantUsage (message : Json N) : Option (Json N) :=
  if messageRole message = some "assistant" ∧
      (message.get? "stopReason").bind Json.string? ≠ some "aborted" ∧
      (message.get? "stopReason").bind Json.string? ≠ some "error" then
    (message.get? "usage").filter fun usage => usage.truthy && 0 < calculateContextTokens usage
  else none

def lastAssistantUsage (messages : List (Json N)) : Option (Nat × List (Json N)) :=
  match messages with
  | [] => none
  | message :: rest =>
    match lastAssistantUsage rest with
    | some found => some found
    | none => (getAssistantUsage message).map fun usage => (calculateContextTokens usage, rest)

def estimateContextTokens (messages : List (Json N)) : Nat :=
  match lastAssistantUsage messages with
  | none => (messages.map estimateTokens).sum
  | some (usageTokens, trailing) => usageTokens + (trailing.map estimateTokens).sum

end

def isCutPointMessage (message : Json N) : Bool :=
  match messageRole message with
  | some role =>
    role ∈ ["user", "assistant", "bashExecution", "custom", "branchSummary", "compactionSummary"]
  | none => false

def isTurnStartMessage (message : Json N) : Bool :=
  match messageRole message with
  | some role => role ∈ ["user", "bashExecution", "custom", "branchSummary", "compactionSummary"]
  | none => false

structure CutPointResult where
  firstKeptEntryIndex : Nat
  turnStartIndex : Option Nat
  isSplitTurn : Bool

section

variable [JsonNumber N] (time : Option (Json N) → Json N)

def isTurnStartEntry (entry : FileEntry N) : Bool :=
  !entry.isCompaction && (sessionEntryToContextMessages time entry).any isTurnStartMessage

def isCutPointEntry (entry : FileEntry N) : Bool :=
  !entry.isCompaction && (sessionEntryToContextMessages time entry).any isCutPointMessage

def indicesFrom (startIndex endIndex : Nat) : List Nat :=
  List.range' startIndex (endIndex - startIndex)

def findValidCutPoints (entries : List (FileEntry N)) (startIndex endIndex : Nat) : List Nat :=
  (indicesFrom startIndex endIndex).filter fun i => entries[i]?.any (isCutPointEntry time)

def findTurnStartIndex (entries : List (FileEntry N)) (entryIndex startIndex : Nat) : Option Nat :=
  (indicesFrom startIndex (entryIndex + 1)).reverse.find? fun i =>
    entries[i]?.any (isTurnStartEntry time)

def entryTokens (entry : FileEntry N) : Nat :=
  ((sessionEntryToContextMessages time entry).map estimateTokens).sum

/-- The walk backwards: the first index where the tokens reach the budget. -/
def findBudgetIndex (entries : List (FileEntry N)) (keepRecentTokens : Int) :
    List Nat → Nat → Option Nat
  | [], _ => none
  | i :: rest, accumulatedTokens =>
    match (entries[i]?.map (entryTokens time)).getD 0 with
    | 0 => findBudgetIndex entries keepRecentTokens rest accumulatedTokens
    | messageTokens =>
      if (accumulatedTokens + messageTokens : Nat) ≥ keepRecentTokens then some i
      else findBudgetIndex entries keepRecentTokens rest (accumulatedTokens + messageTokens)

/-- The closest cut point at or after the budget's index, or else the first. -/
def closestCutPoint (first : Nat) (more : List Nat) (budget : Option Nat) : Nat :=
  match budget with
  | some i => ((first :: more).find? fun cut => i ≤ cut).getD first
  | none => first

def isInvisible (entry : FileEntry N) : Bool :=
  !entry.isCompaction && (sessionEntryToContextMessages time entry).isEmpty

/-- The cut moves back over the entries before it that show in no context. -/
def skipInvisible (entries : List (FileEntry N)) (startIndex : Nat) : Nat → Nat
  | 0 => 0
  | previous + 1 =>
    if startIndex < previous + 1 ∧ entries[previous]?.any (isInvisible time) then
      skipInvisible entries startIndex previous
    else previous + 1

def findCutPoint (entries : List (FileEntry N)) (startIndex endIndex : Nat)
    (keepRecentTokens : Int) : CutPointResult :=
  match findValidCutPoints time entries startIndex endIndex with
  | [] => { firstKeptEntryIndex := startIndex, turnStartIndex := none, isSplitTurn := false }
  | first :: more =>
    let budget := findBudgetIndex time entries keepRecentTokens
      (indicesFrom startIndex endIndex).reverse 0
    let cutIndex :=
      skipInvisible time entries startIndex (closestCutPoint first more budget)
    let startsTurn := entries[cutIndex]?.any (isTurnStartEntry time)
    let turnStartIndex :=
      if startsTurn then none else findTurnStartIndex time entries cutIndex startIndex
    { firstKeptEntryIndex := cutIndex, turnStartIndex := turnStartIndex,
      isSplitTurn := !startsTurn && turnStartIndex.isSome }

structure FileOperations where
  read : List String
  written : List String
  edited : List String

def createFileOps : FileOperations := ⟨[], [], []⟩

def addPath (path : String) (paths : List String) : List String :=
  if path ∈ paths then paths else paths ++ [path]

/-- One block of an assistant message. -/
def extractFileOpsFromBlock (fileOps : FileOperations) (block : Json N) : FileOperations :=
  let path := ((block.get? "arguments").bind fun args => args.get? "path").bind Json.string?
  match path with
  | none => fileOps
  | some path =>
    if path = "" ∨ blockType block ≠ some "toolCall" then fileOps
    else
      match (block.get? "name").bind Json.string? with
      | some "read" => { fileOps with read := addPath path fileOps.read }
      | some "write" => { fileOps with written := addPath path fileOps.written }
      | some "edit" => { fileOps with edited := addPath path fileOps.edited }
      | _ => fileOps

def extractFileOpsFromMessage (message : Json N) (fileOps : FileOperations) : FileOperations :=
  match messageRole message, message.get? "content" with
  | some "assistant", some (.arr blocks) => blocks.foldl extractFileOpsFromBlock fileOps
  | _, _ => fileOps

def listedPaths (details : Json N) (name : String) : List String :=
  match details.get? name with
  | some (.arr files) => files.filterMap Json.string?
  | _ => []

/-- The files of an earlier compaction that no extension made. -/
def previousFileOps (compaction : Option (FileEntry N)) : FileOperations :=
  match compaction.bind fun entry =>
      if (entry.get "fromHook").any Json.truthy then none else entry.get "details" with
  | some details =>
    { read := (listedPaths details "readFiles").foldl (fun paths path => addPath path paths) [],
      written := [],
      edited := (listedPaths details "modifiedFiles").foldl (fun paths path => addPath path paths) [] }
  | none => createFileOps

def extractFileOperations (messages : List (Json N)) (compaction : Option (FileEntry N)) :
    FileOperations :=
  messages.foldl (fun fileOps message => extractFileOpsFromMessage message fileOps)
    (previousFileOps compaction)

structure CompactionPreparation (N : Type) where
  firstKeptEntryId : String
  messagesToSummarize : List (Json N)
  turnPrefixMessages : List (Json N)
  isSplitTurn : Bool
  tokensBefore : Nat
  previousSummary : Option (Json N)
  fileOps : FileOperations
  settings : CompactionSettings

def getMessageFromEntryForCompaction (entry : FileEntry N) : Option (Json N) :=
  if entry.isCompaction then none else (sessionEntryToContextMessages time entry).head?

def collectMessages (entries : List (FileEntry N)) (startIndex endIndex : Nat) : List (Json N) :=
  (indicesFrom startIndex endIndex).filterMap fun i =>
    entries[i]?.bind (getMessageFromEntryForCompaction time)

/-- The index of the latest compaction. -/
def findPreviousCompaction (entries : List (FileEntry N)) : Option Nat :=
  (List.range entries.length).reverse.find? fun i => entries[i]?.any FileEntry.isCompaction

def boundaryStart (entries : List (FileEntry N)) : Nat :=
  match findPreviousCompaction entries with
  | none => 0
  | some index =>
    (entries.findIdx? fun entry =>
      entry.id = entries[index]?.bind fun compaction => compaction.string "firstKeptEntryId").getD
        (index + 1)

def prepareCompaction (pathEntries : List (FileEntry N)) (settings : CompactionSettings) :
    Option (CompactionPreparation N) :=
  if pathEntries.getLast?.any FileEntry.isCompaction then none
  else
    let prevCompaction := (findPreviousCompaction pathEntries).bind fun index => pathEntries[index]?
    let boundaryStart := boundaryStart pathEntries
    let boundaryEnd := pathEntries.length
    let tokensBefore := estimateContextTokens
      (buildSessionContext time pathEntries .undefined (buildEntryIndex pathEntries)).messages
    let cutPoint :=
      findCutPoint time pathEntries boundaryStart boundaryEnd settings.keepRecentTokens
    match pathEntries[cutPoint.firstKeptEntryIndex]?.bind FileEntry.id with
    | none => none
    | some firstKeptEntryId =>
      if firstKeptEntryId = "" then none
      else
        let historyEnd :=
          if cutPoint.isSplitTurn then cutPoint.turnStartIndex.getD 0
          else cutPoint.firstKeptEntryIndex
        let messagesToSummarize := collectMessages time pathEntries boundaryStart historyEnd
        let turnPrefixMessages :=
          if cutPoint.isSplitTurn then
            collectMessages time pathEntries (cutPoint.turnStartIndex.getD 0)
              cutPoint.firstKeptEntryIndex
          else []
        if messagesToSummarize.isEmpty ∧ turnPrefixMessages.isEmpty then none
        else
          some {
            firstKeptEntryId := firstKeptEntryId
            messagesToSummarize := messagesToSummarize
            turnPrefixMessages := turnPrefixMessages
            isSplitTurn := cutPoint.isSplitTurn
            tokensBefore := tokensBefore
            previousSummary := prevCompaction.bind fun entry => entry.get "summary"
            fileOps := turnPrefixMessages.foldl
              (fun fileOps message => extractFileOpsFromMessage message fileOps)
              (extractFileOperations messagesToSummarize prevCompaction)
            settings := settings }

end

end Trpi.CodingAgent
