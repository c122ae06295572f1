import Trpi.Harness.Compaction
import Trpi.Library.JsonInt

/-!
# What a compaction keeps and what it summarizes

The three lists of a preparation are the compactable messages in order. A cut never lies before
a tool result, so a result keeps its call where no other message stands between them.
-/

namespace Trpi.Harness

open Library Ai List Option
open Library.Utf16 (Units)

variable {N : Type} {e : PathEntry N}

def isToolResult : LaneMessage N → Bool
  | .message (.toolResult _) => true
  | _ => false

theorem message_of_cutPoint (valid : isCutPoint e = true) :
    ∃ message, getMessageFromEntryForCompaction e = some message ∧
      isToolResult message = false := by
  obtain ⟨id, parentId, seq, timestamp, content⟩ := e
  cases content with
  | message message =>
    refine ⟨message, rfl, ?_⟩
    cases message with
    | message message =>
      cases message with
      | user message => rfl
      | assistant message => rfl
      | toolResult message => cases valid
    | bashExecution message => rfl
    | custom message => rfl
    | branchSummary message => rfl
    | compactionSummary message => rfl
  | compaction compaction => cases valid
  | branchSummary fromId summary => exact ⟨_, rfl, rfl⟩
  | custom customType => cases valid

/-- What the cut moves back over is no message, or the summary of a branch. -/
theorem message_of_adjacent (adjacent : (!e.isCompaction && !e.isMessage) = true) :
    getMessageFromEntryForCompaction e = none ∨
      ∃ message, getMessageFromEntryForCompaction e = some message ∧
        isToolResult message = false := by
  obtain ⟨id, parentId, seq, timestamp, content⟩ := e
  cases content with
  | message message => cases adjacent
  | compaction compaction => cases adjacent
  | branchSummary fromId summary => exact .inr ⟨_, rfl, rfl⟩
  | custom customType => exact .inl rfl

variable {entries : List (PathEntry N)} {cutPoints : List Nat} {startIndex endIndex cut : Nat}

theorem cutPointsAt_eq {indices : List Nat} :
    cutPointsAt entries indices = some cutPoints ↔
      (∀ i ∈ indices, i < entries.length) ∧
        indices.filter (fun i => entries[i]?.any isCutPoint) = cutPoints := by
  induction indices generalizing cutPoints with
  | nil => simp [cutPointsAt]
  | cons i indices ih =>
    rw [cutPointsAt]
    by_cases within : i < entries.length
    · rw [getElem?_eq_getElem within, forall_mem_cons, and_iff_right within,
        filter_cons, getElem?_eq_getElem within, map_eq_some_iff, any_some]
      constructor
      · rintro ⟨later, found, rfl⟩
        obtain ⟨bounded, rfl⟩ := ih.mp found
        exact ⟨bounded, rfl⟩
      · rintro ⟨bounded, rfl⟩
        exact ⟨_, ih.mpr ⟨bounded, rfl⟩, rfl⟩
    · rw [getElem?_eq_none (Nat.le_of_not_lt within), forall_mem_cons]
      constructor
      · intro absurd
        cases absurd
      · rintro ⟨⟨bounded, -⟩, -⟩
        exact absurd bounded within

theorem findValidCutPoints_eq :
    findValidCutPoints entries startIndex endIndex = some cutPoints ↔
      (∀ i, startIndex ≤ i → i < endIndex → i < entries.length) ∧
        (indexRange startIndex endIndex).filter (fun i => entries[i]?.any isCutPoint) =
          cutPoints := by
  rw [findValidCutPoints, cutPointsAt_eq]
  simp only [mem_indexRange, and_imp]

theorem mem_findValidCutPoints
    (found : findValidCutPoints entries startIndex endIndex = some cutPoints)
    (mem : cut ∈ cutPoints) :
    startIndex ≤ cut ∧ cut < endIndex ∧ entries[cut]?.any isCutPoint = true := by
  obtain ⟨-, rfl⟩ := findValidCutPoints_eq.mp found
  obtain ⟨inside, valid⟩ := mem_filter.mp mem
  obtain ⟨low, high⟩ := mem_indexRange.mp inside
  exact ⟨low, high, valid⟩

theorem findValidCutPoints_sorted
    (found : findValidCutPoints entries startIndex endIndex = some cutPoints) :
    cutPoints.Pairwise (· < ·) := by
  obtain ⟨-, rfl⟩ := findValidCutPoints_eq.mp found
  exact (indexRange_sorted startIndex endIndex).filter _

theorem moveBack_le (entries : List (PathEntry N)) (startIndex cut : Nat) :
    moveBack entries startIndex cut ≤ cut := by
  induction cut with
  | zero => exact Nat.le_refl 0
  | succ previous ih =>
    rw [moveBack]
    split
    · exact Nat.le_succ_of_le ih
    · exact Nat.le_refl _

theorem le_moveBack (low : startIndex ≤ cut) : startIndex ≤ moveBack entries startIndex cut := by
  induction cut with
  | zero => exact low
  | succ previous ih =>
    rw [moveBack]
    split
    · rename_i back
      exact ih (Nat.le_of_lt_succ back.1)
    · exact low

theorem moveBack_adjacent {i : Nat} (low : moveBack entries startIndex cut ≤ i) (high : i < cut) :
    entries[i]?.any (fun e => !e.isCompaction && !e.isMessage) = true := by
  induction cut with
  | zero => exact absurd high (Nat.not_lt_zero i)
  | succ previous ih =>
    rw [moveBack] at low
    split at low
    · rename_i back
      by_cases last : i = previous
      · rw [last]
        exact back.2
      · exact ih low (by omega)
    · omega

variable [JsonNumber N] {cutPoint : CutPointResult}

theorem selectCutPoint_mem (entries : List (PathEntry N)) (startIndex endIndex : Nat)
    (keepRecentTokens : Int) (first : Nat) (cutPoints : List Nat) :
    selectCutPoint entries startIndex endIndex keepRecentTokens first cutPoints ∈
      first :: cutPoints := by
  rw [selectCutPoint]
  split
  · rename_i i _
    cases found : (first :: cutPoints).find? fun cut => decide (i ≤ cut) with
    | none => exact mem_cons_self
    | some cut => exact mem_of_find?_eq_some found
  · exact mem_cons_self

/-- What every cut of a range satisfies. -/
structure CutWithin (entries : List (PathEntry N)) (startIndex endIndex : Nat)
    (cutPoint : CutPointResult) : Prop where
  low : startIndex ≤ cutPoint.firstKeptEntryIndex
  high : cutPoint.firstKeptEntryIndex ≤ endIndex
  turn : ∀ index, cutPoint.turnStartIndex = some index →
    startIndex ≤ index ∧ index ≤ cutPoint.firstKeptEntryIndex
  split : cutPoint.isSplitTurn = true → cutPoint.turnStartIndex.isSome = true
  /-- The cut is the start, or at most entries of no message before a valid cut point. -/
  place : cutPoint.firstKeptEntryIndex = startIndex ∨
    ∃ cut, cutPoint.firstKeptEntryIndex ≤ cut ∧ cut < endIndex ∧
      entries[cut]?.any isCutPoint = true ∧
      ∀ i, cutPoint.firstKeptEntryIndex ≤ i → i < cut →
        entries[i]?.any (fun entry => !entry.isCompaction && !entry.isMessage) = true

omit [JsonNumber N] in
theorem findTurnStartIndex_within {entryIndex i : Nat}
    (found : findTurnStartIndex entries entryIndex startIndex = some i) :
    startIndex ≤ i ∧ i ≤ entryIndex := by
  have inside := mem_of_find?_eq_some found
  rw [mem_reverse, mem_indexRange] at inside
  omega

theorem findCutPoint_within {keepRecentTokens : Int} (range : startIndex ≤ endIndex)
    (found : findCutPoint entries startIndex endIndex keepRecentTokens = some cutPoint) :
    CutWithin entries startIndex endIndex cutPoint := by
  rw [findCutPoint] at found
  split at found
  · cases found
  · cases found
    refine ⟨Nat.le_refl _, range, ?_, ?_, .inl rfl⟩
    · intro index absurd
      cases absurd
    · intro absurd
      cases absurd
  · rename_i first cutPoints valid
    cases found
    have selected := mem_findValidCutPoints valid
      (selectCutPoint_mem entries startIndex endIndex keepRecentTokens first cutPoints)
    generalize selectCutPoint entries startIndex endIndex keepRecentTokens first cutPoints = cut
      at selected
    obtain ⟨low, high, isCut⟩ := selected
    have back := moveBack_le entries startIndex cut
    refine ⟨le_moveBack low, Nat.le_trans back (Nat.le_of_lt high), ?_, ?_,
      .inr ⟨cut, back, high, isCut, fun i => moveBack_adjacent⟩⟩
    · intro index turn
      split at turn
      · cases turn
      · exact findTurnStartIndex_within turn
    · intro splits
      exact (Bool.and_eq_true_iff.mp splits).2

section

omit [JsonNumber N]

theorem collectMessages_append {first second third : Nat} (low : first ≤ second)
    (high : second ≤ third) :
    collectMessages entries first second ++ collectMessages entries second third =
      collectMessages entries first third := by
  rw [collectMessages, collectMessages, collectMessages, ← filterMap_append,
    indexRange_append low high]

theorem collectMessages_cons (below : startIndex < endIndex) :
    collectMessages entries startIndex endIndex =
      (entries[startIndex]?.bind getMessageFromEntryForCompaction).toList ++
        collectMessages entries (startIndex + 1) endIndex := by
  rw [collectMessages, indexRange_cons below, filterMap_cons, collectMessages]
  cases entries[startIndex]?.bind getMessageFromEntryForCompaction with
  | none => rfl
  | some m => rfl

theorem collectMessages_all (entries : List (PathEntry N)) :
    collectMessages entries 0 entries.length =
      entries.filterMap getMessageFromEntryForCompaction :=
  filterMap_indexRange entries (Nat.zero_le _)

theorem collectMessages_head {firstKept : Nat} (low : firstKept ≤ cut) (high : cut < endIndex)
    (valid : entries[cut]?.any isCutPoint = true)
    (adjacent : ∀ i, firstKept ≤ i → i < cut →
      entries[i]?.any (fun e => !e.isCompaction && !e.isMessage) = true) :
    ∃ m messages, collectMessages entries firstKept endIndex = m :: messages ∧
      isToolResult m = false := by
  induction gap : cut - firstKept generalizing firstKept with
  | zero =>
    obtain rfl : firstKept = cut := by omega
    obtain ⟨e, present, isCut⟩ := (any_eq_true _ _).mp valid
    obtain ⟨m, same, kind⟩ := message_of_cutPoint isCut
    refine ⟨m, collectMessages entries (firstKept + 1) endIndex, ?_, kind⟩
    rw [collectMessages_cons high, present, bind_some, same]
    rfl
  | succ n ih =>
    have here := adjacent firstKept (Nat.le_refl _) (by omega)
    obtain ⟨e, present, plain⟩ := (any_eq_true _ _).mp here
    rw [collectMessages_cons (by omega), present, bind_some]
    rcases message_of_adjacent plain with absent | ⟨m, same, kind⟩
    · rw [absent]
      exact ih (by omega) (fun i after => adjacent i (by omega)) (by omega)
    · rw [same]
      exact ⟨m, _, rfl, kind⟩

end

/-- The messages after the previous compaction, what that one retained first. -/
def compactableMessages (pathEntries : List (PathEntry N)) : List (LaneMessage N) :=
  match splitAtCompaction pathEntries with
  | none => pathEntries.filterMap getMessageFromEntryForCompaction
  | some (_, compaction, after) =>
    compaction.retainedTail ++ after.filterMap getMessageFromEntryForCompaction

omit [JsonNumber N] in
omit [JsonNumber N] in
theorem virtualRetainedEntries_messages (e : PathEntry N) (retainedTail : List (LaneMessage N)) :
    (virtualRetainedEntries e retainedTail).filterMap getMessageFromEntryForCompaction =
      retainedTail := by
  rw [virtualRetainedEntries, filterMap_map]
  have same : (getMessageFromEntryForCompaction ∘ fun item : LaneMessage N × Nat =>
      ({ id := e.id ++ ":retained:" ++ toString item.2
         parentId := some (if item.2 = 0 then e.id
           else e.id ++ ":retained:" ++ toString (item.2 - 1))
         seq := e.seq, timestamp := item.1.timestamp, content := .message item.1 } :
          PathEntry N)) = fun item => some item.1 := rfl
  rw [same, filterMap_eq_map', zipIdx_map_fst]

omit [JsonNumber N] in
theorem compactableEntries_messages (pathEntries : List (PathEntry N)) :
    (compactableEntries pathEntries).filterMap getMessageFromEntryForCompaction =
      compactableMessages pathEntries := by
  rw [compactableEntries, compactableMessages]
  cases splitAtCompaction pathEntries with
  | none => rfl
  | some found =>
    rw [filterMap_append, virtualRetainedEntries_messages]

def startsTurn : LaneMessage N → Bool
  | .message (.user _) => true
  | .bashExecution _ => true
  | .branchSummary _ => true
  | _ => false

def callId : AssistantContent N → Option String
  | .toolCall call => some call.id
  | _ => none

def LaneMessage.toolCallIds : LaneMessage N → List String
  | .message (.assistant assistant) => assistant.content.filterMap callId
  | _ => []

/-- Every tool result answers a call in scope, where `next` says what is in scope after another
message. -/
def ResultsAnswer (next : List String → LaneMessage N → List String) :
    List String → List (LaneMessage N) → Prop
  | _, [] => True
  | calls, .message (.toolResult result) :: messages =>
    result.toolCallId ∈ calls ∧ ResultsAnswer next calls messages
  | calls, message :: messages => ResultsAnswer next (next calls message) messages

/-- In scope are the calls of the last message that is no tool result. -/
def ResultsFollow (messages : List (LaneMessage N)) : Prop :=
  ResultsAnswer (fun _ message => message.toolCallIds) [] messages

/-- In scope are the calls of the turn, which a message of the user or a summary of a branch
starts. -/
def ResultsFollowInTurn (messages : List (LaneMessage N)) : Prop :=
  ResultsAnswer (fun calls message =>
    if startsTurn message then message.toolCallIds else calls ++ message.toolCallIds) [] messages

def ResultsHaveCalls (messages : List (LaneMessage N)) : Prop :=
  ∀ before result after, messages = before ++ .message (.toolResult result) :: after →
    ∃ message ∈ before, result.toolCallId ∈ message.toolCallIds

section

variable {next : List String → LaneMessage N → List String} {calls : List String}

section

omit [JsonNumber N]

theorem resultsAnswer_other {message : LaneMessage N} {messages : List (LaneMessage N)}
    (kind : isToolResult message = false) :
    ResultsAnswer next calls (message :: messages) ↔
      ResultsAnswer next (next calls message) messages := by
  cases message with
  | message message =>
    cases message with
    | user message => exact Iff.rfl
    | assistant message => exact Iff.rfl
    | toolResult message => cases kind
  | bashExecution message => exact Iff.rfl
  | custom message => exact Iff.rfl
  | branchSummary message => exact Iff.rfl
  | compactionSummary message => exact Iff.rfl

theorem isToolResult_cases (message : LaneMessage N) :
    (∃ result, message = .message (.toolResult result)) ∨ isToolResult message = false := by
  cases message with
  | message message =>
    cases message with
    | user message => exact .inr rfl
    | assistant message => exact .inr rfl
    | toolResult message => exact .inl ⟨message, rfl⟩
  | bashExecution message => exact .inr rfl
  | custom message => exact .inr rfl
  | branchSummary message => exact .inr rfl
  | compactionSummary message => exact .inr rfl

theorem resultsAnswer_suffix {before after : List (LaneMessage N)}
    (answers : ResultsAnswer next calls (before ++ after)) :
    ∃ calls, ResultsAnswer next calls after := by
  induction before generalizing calls with
  | nil => exact ⟨calls, answers⟩
  | cons m before ih =>
    rcases isToolResult_cases m with ⟨result, rfl⟩ | kind
    · exact ih answers.2
    · exact ih ((resultsAnswer_other kind).mp answers)

end

end

omit [JsonNumber N] in
theorem resultsHaveCalls_of_follow {calls : List String} {seen messages : List (LaneMessage N)}
    (scope : ∀ id ∈ calls, ∃ m ∈ seen, id ∈ m.toolCallIds)
    (answers : ResultsAnswer (fun _ m => m.toolCallIds) calls messages) :
    ∀ before result after, messages = before ++ .message (.toolResult result) :: after →
      ∃ m ∈ seen ++ before, result.toolCallId ∈ m.toolCallIds := by
  induction messages generalizing calls seen with
  | nil =>
    intro before result after same
    simp at same
  | cons head messages ih =>
    intro before result after same
    cases before with
    | nil =>
      obtain ⟨rfl, rfl⟩ := cons.inj same
      rw [append_nil]
      exact scope _ answers.1
    | cons first before =>
      obtain ⟨rfl, rfl⟩ := cons.inj same
      rw [append_cons]
      rcases isToolResult_cases head with ⟨other, rfl⟩ | kind
      · refine ih ?_ answers.2 before result after rfl
        intro id inside
        obtain ⟨m, mem, call⟩ := scope id inside
        exact ⟨m, mem_append_left _ mem, call⟩
      · refine ih ?_ ((resultsAnswer_other kind).mp answers) before result after rfl
        intro id inside
        exact ⟨head, mem_append_right _ (mem_singleton.mpr rfl), inside⟩

omit [JsonNumber N] in
theorem CutWithin.tail_head (within : CutWithin entries 0 entries.length cutPoint) :
    cutPoint.firstKeptEntryIndex = 0 ∨ ∃ m messages,
      collectMessages entries cutPoint.firstKeptEntryIndex entries.length = m :: messages ∧
        isToolResult m = false := by
  rcases within.place with whole | ⟨cut, low, high, valid, adjacent⟩
  · exact .inl whole
  · exact .inr (collectMessages_head low high valid adjacent)

theorem prepareCompaction_cut {pathEntries : List (PathEntry N)} {settings : CompactionSettings}
    {preparation : CompactionPreparation N}
    (prepared : prepareCompaction pathEntries settings = some preparation) :
    ∃ cutPoint, CutWithin (compactableEntries pathEntries) 0
        (compactableEntries pathEntries).length cutPoint ∧
      preparation.messagesToSummarize ++ preparation.turnPrefixMessages =
        collectMessages (compactableEntries pathEntries) 0 cutPoint.firstKeptEntryIndex ∧
      preparation.retainedTail =
        collectMessages (compactableEntries pathEntries) cutPoint.firstKeptEntryIndex
          (compactableEntries pathEntries).length := by
  rw [prepareCompaction] at prepared
  split at prepared
  · cases prepared
  · obtain ⟨cutPoint, found, rfl⟩ := map_eq_some_iff.mp prepared
    have within := findCutPoint_within (Nat.zero_le _) found
    refine ⟨cutPoint, within, ?_, rfl⟩
    dsimp only
    cases splits : cutPoint.isSplitTurn with
    | false =>
      rw [if_neg Bool.false_ne_true, if_neg Bool.false_ne_true, append_nil]
    | true =>
      obtain ⟨i, turn⟩ := isSome_iff_exists.mp (within.split splits)
      rw [if_pos rfl, if_pos rfl, turn, getD_some,
        collectMessages_append (Nat.zero_le _) (within.turn i turn).2]

/-- The three lists are the compactable messages in order. Where tool results directly follow
their calls, a retained result has its call before it in what is retained. -/
theorem prepareCompaction_partition (pathEntries : List (PathEntry N))
    (settings : CompactionSettings) (preparation : CompactionPreparation N)
    (prepared : prepareCompaction pathEntries settings = some preparation) :
    preparation.messagesToSummarize ++ preparation.turnPrefixMessages ++
        preparation.retainedTail = compactableMessages pathEntries ∧
      (ResultsFollow (compactableMessages pathEntries) →
        ResultsHaveCalls preparation.retainedTail) := by
  obtain ⟨cutPoint, within, front, tail⟩ := prepareCompaction_cut prepared
  have whole : preparation.messagesToSummarize ++ preparation.turnPrefixMessages ++
      preparation.retainedTail = compactableMessages pathEntries := by
    rw [front, tail, collectMessages_append (Nat.zero_le _) within.high, collectMessages_all,
      compactableEntries_messages]
  refine ⟨whole, ?_⟩
  intro follows
  rw [← whole] at follows
  have answers : ResultsAnswer (fun _ m => m.toolCallIds) []
      preparation.retainedTail := by
    rcases within.tail_head with start | ⟨m, messages, same, kind⟩
    · have empty : preparation.messagesToSummarize ++ preparation.turnPrefixMessages = [] := by
        rw [front, start, collectMessages, indexRange_empty (Nat.le_refl 0)]
        rfl
      rw [empty] at follows
      exact follows
    · obtain ⟨calls, answers⟩ := resultsAnswer_suffix follows
      rw [tail, same] at answers ⊢
      exact (resultsAnswer_other kind).mpr ((resultsAnswer_other kind).mp answers)
  have empty : ∀ id ∈ ([] : List String), ∃ m ∈ ([] : List (LaneMessage N)),
      id ∈ m.toolCallIds := by
    intro id absurd
    cases absurd
  exact resultsHaveCalls_of_follow empty answers

def fourUnits : Units := List.replicate 4 97

def sampleUser : LaneMessage Int := .message (.user ⟨.text fourUnits, 0⟩)

def sampleCall (id : String) : AssistantContent Int :=
  .toolCall
    { id, name := "read", arguments := .obj [], thoughtSignature := none, toolNamespace := none }

def sampleAssistant (ids : List String) : LaneMessage Int :=
  .message (.assistant
    { api := "api", provider := "provider", model := "model", responseModel := none
      responseId := none, providerThinkingLevel := none, diagnostics := none, usage := .obj []
      stopReason := .toolUse, deferred := none, errorMessage := none, rawStopReason := none
      endTurn := none, timestamp := 0, content := ids.map sampleCall })

def sampleResult (toolCallId : String) (text : Units) : ToolResultMessage Int :=
  { toolCallId, toolName := "read", details := none, usage := none, addedToolNames := none
    isError := false, timestamp := 0, content := [.text ⟨text, none⟩] }

def sampleCustom : LaneMessage Int := .custom ⟨"note", .text fourUnits, 0⟩

def samplePath (messages : List (LaneMessage Int)) : List (PathEntry Int) :=
  messages.zipIdx.map fun item =>
    { id := toString item.2, parentId := none, seq := item.2, timestamp := 0
      content := .message item.1 }

def keeping (keepRecentTokens : Int) : CompactionSettings := ⟨true, 0, keepRecentTokens⟩

/-- A message of an extension between the results of two calls. -/
def interruptedTurn : List (LaneMessage Int) :=
  [sampleUser, sampleAssistant ["a", "b"], .message (.toolResult (sampleResult "a" fourUnits)),
    sampleCustom, .message (.toolResult (sampleResult "b" fourUnits))]

def plainTurn : List (LaneMessage Int) :=
  [sampleUser, sampleAssistant ["a", "b"], .message (.toolResult (sampleResult "a" fourUnits)),
    .message (.toolResult (sampleResult "b" fourUnits)), sampleAssistant [], sampleUser]

theorem prepareCompaction_partition_sample : ∃ preparation,
    prepareCompaction (samplePath plainTurn) (keeping 3) = some preparation ∧
      preparation.messagesToSummarize ++ preparation.turnPrefixMessages ++
        preparation.retainedTail = compactableMessages (samplePath plainTurn) ∧
      ResultsHaveCalls preparation.retainedTail := by
  have some_ : (prepareCompaction (samplePath plainTurn) (keeping 3)).isSome = true := by decide
  obtain ⟨preparation, prepares⟩ := Option.isSome_iff_exists.mp some_
  have parts := prepareCompaction_partition (samplePath plainTurn) (keeping 3) preparation prepares
  refine ⟨preparation, prepares, parts.1, parts.2 ?_⟩
  exact ⟨by decide, by decide, trivial⟩

/-- A cut between two results of one message leaves the second without its call. -/
theorem prepareCompaction_orphans_result : ∃ preparation,
    ResultsFollowInTurn (compactableMessages (samplePath interruptedTurn)) ∧
      prepareCompaction (samplePath interruptedTurn) (keeping 2) = some preparation ∧
      .message (.toolResult (sampleResult "b" fourUnits)) ∈ preparation.retainedTail ∧
      ∀ m ∈ preparation.retainedTail, (sampleResult "b" fourUnits).toolCallId ∉ m.toolCallIds := by
  have tail : (prepareCompaction (samplePath interruptedTurn) (keeping 2)).map
      CompactionPreparation.retainedTail =
        some [sampleCustom, .message (.toolResult (sampleResult "b" fourUnits))] := rfl
  obtain ⟨preparation, prepares, same⟩ := Option.map_eq_some_iff.mp tail
  refine ⟨preparation, ?_, prepares, ?_, ?_⟩
  · exact ⟨by decide, by decide, trivial⟩
  · rw [same]
    exact List.mem_cons_of_mem _ List.mem_cons_self
  · rw [same]
    intro m inside
    rcases List.mem_pair.mp inside with rfl | rfl
    · exact List.not_mem_nil
    · exact List.not_mem_nil

end Trpi.Harness
