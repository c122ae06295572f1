import Trpi.Harness.CompactionPartition

/-!
# Where an earlier summary goes

`compactWithRequest` of agent/src/harness/compaction/compaction.ts. A request is the text of its
prompt; its limits and its other options are left out. The fixed prompts, and the text that
`serializeConversation` makes of messages, are parameters. A split turn with nothing before it to
summarize takes a shortcut that passes the earlier summary to no request.
-/

namespace Trpi.Library

theorem infix_of_separated {α : Type} {part before after : List α} {unit : α}
    (nonempty : part ≠ []) (begins : part.head? ≠ some unit) (ends : part.getLast? ≠ some unit)
    (found : part <:+: before ++ List.replicate part.length unit ++ after) :
    part <:+: before ∨ part <:+: after := by
  obtain ⟨front, back, whole⟩ := found
  have some_ := List.length_pos_iff.mpr nonempty
  have total := congrArg List.length whole
  simp only [List.length_append, List.length_replicate] at total
  -- an offset at which the part lies within the separator has its unit
  have within : ∀ offset < part.length, before.length ≤ front.length + offset →
      front.length + offset < before.length + part.length → part[offset]? = some unit := by
    intro offset inside low high
    have here := congrArg (·[front.length + offset]?) whole
    rwa [List.append_assoc, List.append_assoc, List.getElem?_append_right (by omega),
      List.getElem?_append_left (by omega), List.getElem?_append_right low,
      List.getElem?_append_left (by simp; omega), List.getElem?_replicate_of_lt (by omega),
      Nat.add_sub_cancel_left] at here
  by_cases left : front.length + part.length ≤ before.length
  · refine .inl ⟨front, back.take (before.length - (front.length + part.length)), ?_⟩
    have taken := congrArg (List.take before.length) whole
    rwa [List.append_assoc before, List.take_left, List.take_append,
      List.take_of_length_le (by simp; omega), List.length_append] at taken
  · by_cases right : before.length + part.length ≤ front.length
    · refine .inr ⟨front.drop (before.length + part.length), back, ?_⟩
      have dropped := congrArg (List.drop (before.length + part.length)) whole
      rwa [List.append_assoc, List.drop_append_of_le_length right,
        List.drop_left' (by simp), ← List.append_assoc] at dropped
    · by_cases late : before.length ≤ front.length
      · rw [List.head?_eq_getElem?] at begins
        exact absurd (within 0 some_ (by omega) (by omega)) begins
      · rw [List.getLast?_eq_getElem?] at ends
        exact absurd (within (part.length - 1) (by omega) (by omega) (by omega)) ends

end Trpi.Library

namespace Trpi.Harness

open Library Ai Option List
open Library.Utf16 (Units)

variable {N U : Type}

def literal (chars : String) : Units := Utf16.units chars.toList

/-- `Array.prototype.sort` on strings. -/
def sortPaths (paths : List String) : List String :=
  paths.mergeSort fun one other => decide (literal one ≤ literal other)

def computeFileLists (fileOps : FileOperations) : List String × List String :=
  let modified := (fileOps.edited ++ fileOps.written).foldl addPath []
  (sortPaths (fileOps.read.filter fun path => path ∉ modified), sortPaths modified)

def fileSection (name : String) (files : List String) : List String :=
  if files = [] then []
  else ["<" ++ name ++ ">\n" ++ "\n".intercalate files ++ "\n</" ++ name ++ ">"]

def formatFileOperations (readFiles modifiedFiles : List String) : Units :=
  let sections := fileSection "read-files" readFiles ++ fileSection "modified-files" modifiedFiles
  if sections = [] then [] else literal ("\n\n" ++ "\n\n".intercalate sections)

structure SummaryTexts (N : Type) where
  summarizationPrompt : Units
  updateSummarizationPrompt : Units
  turnPrefixSummarizationPrompt : Units
  conversationText : List (LaneMessage N) → Units

structure SummaryResponse (U : Type) where
  stopReason : StopReason
  errorMessage : Option Units
  content : Units
  usage : U

inductive CompactionError where
  | aborted (message : Units)
  | summarizationFailed (message : Units)

/-- `||` between texts. -/
def orText (text : Option Units) (default : Units) : Units :=
  match text with
  | none | some [] => default
  | some text => text

def givenText (text : Option Units) : Option Units :=
  text.filter fun text => text ≠ []

/-- What a response is worth; `label` names the request in its errors. -/
def readSummary (label : String) (response : SummaryResponse U) :
    Except CompactionError (Units × U) :=
  if response.stopReason = .aborted then
    .error (.aborted (orText response.errorMessage (literal (label ++ " aborted"))))
  else if response.stopReason = .error then
    .error (.summarizationFailed (literal (label ++ " failed: ") ++
      orText response.errorMessage (literal "Unknown error")))
  else .ok (response.content, response.usage)

def previousSummaryBlock (previousSummary : Units) : Units :=
  literal "<previous-summary>\n" ++ previousSummary ++ literal "\n</previous-summary>\n\n"

section

variable (texts : SummaryTexts N)

/-- The prompt of `generateSummaryWithRequest`. -/
def summaryPrompt (currentMessages : List (LaneMessage N))
    (customInstructions previousSummary : Option Units) : Units :=
  let basePrompt := match givenText previousSummary with
    | some _ => texts.updateSummarizationPrompt
    | none => texts.summarizationPrompt
  literal "<conversation>\n" ++ texts.conversationText currentMessages ++
    literal "\n</conversation>\n\n" ++
    ((givenText previousSummary).map previousSummaryBlock).getD [] ++ basePrompt ++
    ((givenText customInstructions).map fun instructions =>
      literal "\n\nAdditional focus: " ++ instructions).getD []

/-- The prompt of `generateTurnPrefixSummary`. -/
def turnPrefixPrompt (messages : List (LaneMessage N)) : Units :=
  literal "<conversation>\n" ++ texts.conversationText messages ++
    literal "\n</conversation>\n\n" ++ texts.turnPrefixSummarizationPrompt

/-- What stands between the history and the summary of a turn's prefix. -/
def turnContext : Units := literal "\n\n---\n\n**Turn Context (split turn):**\n\n"

structure CompactResult (N U : Type) where
  summary : Units
  tokensBefore : Nat
  usage : U
  retainedTail : List (LaneMessage N)
  readFiles : List String
  modifiedFiles : List String

/-- The prompts that were sent, and what came of them. -/
structure Compacting (N U : Type) where
  prompts : List Units
  outcome : Except CompactionError (CompactResult N U)

def closeSummary (preparation : CompactionPreparation N) (found : Units × U) :
    CompactResult N U :=
  let files := computeFileLists preparation.fileOps
  { summary := found.1 ++ formatFileOperations files.1 files.2
    tokensBefore := preparation.tokensBefore, usage := found.2
    retainedTail := preparation.retainedTail, readFiles := files.1, modifiedFiles := files.2 }

/-- `responses` has the response to each request in the order they are sent. -/
def compactWithRequest [Add U] (preparation : CompactionPreparation N)
    (customInstructions : Option Units) (responses : Nat → SummaryResponse U) : Compacting N U :=
  let historyPrompt := summaryPrompt texts preparation.messagesToSummarize customInstructions
    preparation.previousSummary
  if preparation.isSplitTurn ∧ preparation.turnPrefixMessages ≠ [] then
    let prefixPrompt := turnPrefixPrompt texts preparation.turnPrefixMessages
    if preparation.messagesToSummarize ≠ [] then
      match readSummary "Summarization" (responses 0) with
      | .error error => { prompts := [historyPrompt], outcome := .error error }
      | .ok (historyText, historyUsage) =>
        { prompts := [historyPrompt, prefixPrompt]
          outcome := (readSummary "Turn prefix summarization" (responses 1)).map fun found =>
            closeSummary preparation
              (historyText ++ turnContext ++ found.1, historyUsage + found.2) }
    else
      { prompts := [prefixPrompt]
        outcome := (readSummary "Turn prefix summarization" (responses 0)).map fun found =>
          closeSummary preparation
            (literal "No prior history." ++ turnContext ++ found.1, found.2) }
  else
    { prompts := [historyPrompt]
      outcome := (readSummary "Summarization" (responses 0)).map (closeSummary preparation) }

end

def Kept (earlier : Units) (compacting : Compacting N U) : Prop :=
  (∃ prompt ∈ compacting.prompts, earlier <:+: prompt) ∨
    ∀ result, compacting.outcome = .ok result → earlier <:+: result.summary

def noPriorHistory (preparation : CompactionPreparation N) : Prop :=
  preparation.isSplitTurn = true ∧ preparation.turnPrefixMessages ≠ [] ∧
    preparation.messagesToSummarize = []

def fileText (preparation : CompactionPreparation N) : Units :=
  let files := computeFileLists preparation.fileOps
  formatFileOperations files.1 files.2

section

variable {texts : SummaryTexts N} {preparation : CompactionPreparation N} {earlier : Units}

theorem previousSummary_of_prepared [JsonNumber N] {pathEntries : List (PathEntry N)}
    {settings : CompactionSettings}
    (prepared : prepareCompaction pathEntries settings = some preparation) :
    preparation.previousSummary = (splitAtCompaction pathEntries).map (·.2.1.summary) := by
  unfold prepareCompaction at prepared
  split_ifs at prepared
  obtain ⟨cutPoint, -, rfl⟩ := map_eq_some_iff.mp prepared
  exact map_map _ _ _

theorem exists_of_map_ok {answered : Except CompactionError (Units × U)}
    {close : Units × U → CompactResult N U} {result : CompactResult N U}
    (done : answered.map close = .ok result) : ∃ found, answered = .ok found ∧ close found = result := by
  cases answered with
  | error => cases done
  | ok found => exact ⟨found, rfl, Except.ok.inj done⟩

theorem infix_summaryPrompt (given : preparation.previousSummary = some earlier)
    (messages : List (LaneMessage N)) (customInstructions : Option Units) :
    earlier <:+: summaryPrompt texts messages customInstructions preparation.previousSummary := by
  by_cases empty : earlier = []
  · rw [empty]
    exact nil_infix
  · have isGiven : givenText preparation.previousSummary = some earlier := by
      simp [givenText, given, Option.filter, empty]
    rw [summaryPrompt, isGiven]
    refine ⟨literal "<conversation>\n" ++ texts.conversationText messages ++
      literal "\n</conversation>\n\n" ++ literal "<previous-summary>\n", ?_⟩
    simp only [map_some, getD_some, previousSummaryBlock, append_assoc]
    exact ⟨_, rfl⟩

theorem exists_other_unit (first last : Option UInt16) :
    ∃ unit, first ≠ some unit ∧ last ≠ some unit := by
  by_cases zero : first = some 0 ∨ last = some 0
  · by_cases one : first = some 1 ∨ last = some 1
    · refine ⟨2, ?_, ?_⟩ <;> rintro rfl <;> simp_all
    · exact ⟨1, not_or.mp one⟩
  · exact ⟨0, not_or.mp zero⟩

variable [Add U]

/-- The shortcut keeps a text, whatever the response is, only if its own texts have it. -/
theorem infix_of_kept (shortcut : noPriorHistory preparation) (customInstructions : Option Units)
    (usage : U) (kept : ∀ responses : Nat → SummaryResponse U,
      Kept earlier (compactWithRequest texts preparation customInstructions responses)) :
    earlier <:+: turnPrefixPrompt texts preparation.turnPrefixMessages ∨
      earlier <:+: literal "No prior history." ++ turnContext ∨
      earlier <:+: fileText preparation := by
  obtain ⟨split, some_, empty⟩ := shortcut
  by_cases nonempty : earlier = []
  · rw [nonempty]
    exact .inl nil_infix
  · obtain ⟨unit, begins, ends⟩ := exists_other_unit earlier.head? earlier.getLast?
    have here := kept fun _ =>
      { stopReason := .stop, errorMessage := none
        content := replicate earlier.length unit, usage }
    rw [compactWithRequest, if_pos ⟨split, some_⟩, if_neg (not_not.mpr empty)] at here
    rcases here with ⟨prompt, sent, found⟩ | found
    · rw [mem_singleton.mp sent] at found
      exact .inl found
    · exact .inr (infix_of_separated nonempty begins ends (found _ rfl))

/-- The earlier summary is kept, whatever the responses are, unless a split turn has nothing
before it to summarize and no text of that branch happens to have it. -/
theorem previousSummary_kept_iff [JsonNumber N] (texts : SummaryTexts N)
    (pathEntries : List (PathEntry N)) (settings : CompactionSettings)
    (preparation : CompactionPreparation N) (customInstructions : Option Units) (earlier : Units)
    (usage : U) (prepared : prepareCompaction pathEntries settings = some preparation)
    (summarized : (splitAtCompaction pathEntries).map (·.2.1.summary) = some earlier) :
    (∀ responses : Nat → SummaryResponse U,
      Kept earlier (compactWithRequest texts preparation customInstructions responses)) ↔
    ¬ noPriorHistory preparation ∨
      earlier <:+: turnPrefixPrompt texts preparation.turnPrefixMessages ∨
      earlier <:+: literal "No prior history." ++ turnContext ∨
      earlier <:+: fileText preparation := by
  have given := (previousSummary_of_prepared prepared).trans summarized
  constructor
  · intro kept
    by_cases shortcut : noPriorHistory preparation
    · exact .inr (infix_of_kept shortcut customInstructions usage kept)
    · exact .inl shortcut
  · intro condition responses
    have passed := @infix_summaryPrompt N texts _ _ given preparation.messagesToSummarize
      customInstructions
    unfold compactWithRequest
    dsimp only
    split_ifs with split history
    · refine .inl ⟨_, ?_, passed⟩
      split <;> exact mem_cons_self
    · have shortcut : noPriorHistory preparation := ⟨split.1, split.2, not_not.mp history⟩
      refine (condition.resolve_left (not_not.mpr shortcut)).imp
        (fun sent => ⟨_, mem_singleton_self _, sent⟩) fun own result done => ?_
      obtain ⟨found, -, rfl⟩ := exists_of_map_ok done
      rcases own with header | files
      · exact header.trans ⟨[], found.1 ++ fileText preparation, by
          simp [closeSummary, fileText, append_assoc]⟩
      · exact files.trans ⟨literal "No prior history." ++ turnContext ++ found.1, [], by
          simp [closeSummary, fileText, append_assoc]⟩
    · exact .inl ⟨_, mem_singleton_self _, passed⟩

end

def compactedPath (summary : Units) (messages : List (LaneMessage Int)) : List (PathEntry Int) :=
  { id := "c", parentId := none, seq := 0, timestamp := 0
    content := .compaction { summary, retainedTail := [], tokensBefore := 9, details := none } } ::
      samplePath messages

def sampleTexts : SummaryTexts Int where
  summarizationPrompt := literal "Summarize."
  updateSummarizationPrompt := literal "Update the summary."
  turnPrefixSummarizationPrompt := literal "Summarize the prefix."
  conversationText _ := literal "[User]: aaaa"

theorem previousSummary_kept_iff_sample : ∃ preparation,
    prepareCompaction (compactedPath (literal "goal") [sampleUser, sampleUser]) (keeping 1) =
      some preparation ∧ ∀ responses : Nat → SummaryResponse Nat,
        Kept (literal "goal") (compactWithRequest sampleTexts preparation none responses) := by
  have some_ : (prepareCompaction (compactedPath (literal "goal") [sampleUser, sampleUser])
    (keeping 1)).map CompactionPreparation.isSplitTurn = some false := rfl
  obtain ⟨preparation, prepared, whole⟩ := map_eq_some_iff.mp some_
  refine ⟨preparation, prepared, (previousSummary_kept_iff sampleTexts _ _ preparation none _ 0
    prepared rfl).mpr (.inl fun shortcut => ?_)⟩
  rw [shortcut.1] at whole
  cases whole

/-- A turn that is the first after a compaction is split, and the summary is in no text. -/
theorem previousSummary_lost : ∃ preparation,
    prepareCompaction (compactedPath (literal "goal") [sampleUser, sampleAssistant ["a"]])
      (keeping 1) = some preparation ∧ ∃ responses : Nat → SummaryResponse Nat,
        ¬Kept (literal "goal") (compactWithRequest sampleTexts preparation none responses) := by
  refine ⟨_, rfl, fun _ => ⟨.stop, none, literal "The user says aaaa.", 0⟩, ?_⟩
  rintro (⟨prompt, sent, found⟩ | found)
  · rw [mem_singleton.mp sent] at found
    exact absurd found (by decide +kernel)
  · exact absurd (found _ rfl) (by decide +kernel)

end Trpi.Harness
