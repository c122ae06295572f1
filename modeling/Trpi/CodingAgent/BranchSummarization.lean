import Trpi.CodingAgent.Compaction
import Trpi.Library.JsonInt

/-!
# What a branch summary is made of

`prepareBranchEntries` of coding-agent/src/core/compaction/branch-summarization.ts. The files of
nested summaries are collected from the whole branch, those of tool calls on the walk back that
ends at the token budget. Nine tenths of the budget are not rounded.
-/

namespace Trpi.CodingAgent

open Library List

variable {N : Type} [JsonNumber N]

def isBranchSummary (entry : FileEntry N) : Bool := entry.type = some "branch_summary"

def isSummary (entry : FileEntry N) : Bool := entry.isCompaction || isBranchSummary entry

structure BranchPreparation (N : Type) where
  messages : List (Json N)
  fileOps : FileOperations
  totalTokens : Nat

def nestedDetails (entry : FileEntry N) : Option (Json N) :=
  if isBranchSummary entry ∧ (entry.get "fromHook").any Json.truthy = false then
    (entry.get "details").filter Json.truthy
  else none

def addNestedFileOps (fileOps : FileOperations) (entry : FileEntry N) : FileOperations :=
  match nestedDetails entry with
  | none => fileOps
  | some details =>
    { fileOps with
      read := (listedPaths details "readFiles").foldl (fun paths path => addPath path paths)
        fileOps.read
      edited := (listedPaths details "modifiedFiles").foldl (fun paths path => addPath path paths)
        fileOps.edited }

variable (time : Option (Json N) → Json N)

def getMessageFromEntry (entry : FileEntry N) : Option (Json N) :=
  if entry.type = some "message" then
    if entry.role = some "toolResult" then none else entry.get "message"
  else if entry.type = some "custom_message" then
    some (.ofMembers [("role", some (.str "custom")), ("customType", entry.get "customType"),
      ("content", entry.get "content"), ("display", entry.get "display"),
      ("details", entry.get "details"), ("timestamp", some (time (entry.get "timestamp")))])
  else if isBranchSummary entry then some (createBranchSummaryMessage time entry)
  else if entry.isCompaction then some (createCompactionSummaryMessage time entry)
  else none

/-- The walk from the newest entry back. -/
def addOlderEntries (tokenBudget : Int) :
    List (FileEntry N) → BranchPreparation N → BranchPreparation N
  | [], prepared => prepared
  | entry :: older, prepared =>
    match getMessageFromEntry time entry with
    | none => addOlderEntries tokenBudget older prepared
    | some message =>
      let fileOps := extractFileOpsFromMessage message prepared.fileOps
      let tokens := estimateTokens message
      let extended : BranchPreparation N :=
        ⟨message :: prepared.messages, fileOps, prepared.totalTokens + tokens⟩
      if 0 < tokenBudget ∧ tokenBudget < (prepared.totalTokens + tokens : Nat) then
        if isSummary entry ∧ 10 * (prepared.totalTokens : Int) < 9 * tokenBudget then extended
        else { prepared with fileOps }
      else addOlderEntries tokenBudget older extended

def prepareBranchEntries (entries : List (FileEntry N)) (tokenBudget : Int) :
    BranchPreparation N :=
  addOlderEntries time tokenBudget entries.reverse
    ⟨[], entries.foldl addNestedFileOps createFileOps, 0⟩

inductive FileUse where
  | read
  | written
  | edited

def FileUse.tool : FileUse → String
  | read => "read"
  | written => "write"
  | edited => "edit"

def FileOperations.of (fileOps : FileOperations) : FileUse → List String
  | .read => fileOps.read
  | .written => fileOps.written
  | .edited => fileOps.edited

structure CallsFile (block : Json N) (use : FileUse) (path : String) : Prop where
  call : blockType block = some "toolCall"
  tool : (block.get? "name").bind Json.string? = some use.tool
  target : ((block.get? "arguments").bind fun args => args.get? "path").bind Json.string? =
    some path
  named : path ≠ ""

def UsesFile (entry : FileEntry N) (use : FileUse) (path : String) : Prop :=
  ∃ message blocks, getMessageFromEntry time entry = some message ∧
    messageRole message = some "assistant" ∧ message.get? "content" = some (.arr blocks) ∧
    ∃ block ∈ blocks, CallsFile block use path

def ListsFile (entry : FileEntry N) (use : FileUse) (path : String) : Prop :=
  ∃ details, nestedDetails entry = some details ∧
    (use = .read ∧ path ∈ listedPaths details "readFiles" ∨
      use = .edited ∧ path ∈ listedPaths details "modifiedFiles")

def branchTokens (entries : List (FileEntry N)) : Nat :=
  ((entries.filterMap (getMessageFromEntry time)).map estimateTokens).sum

/-- The messages are the newest ones within the budget, or one summary more, and the files are
those of the whole branch. -/
structure Summarizes (entries : List (FileEntry N)) (tokenBudget : Int)
    (prepared : BranchPreparation N) : Prop where
  newest : ∃ kept, kept <:+ entries ∧
    prepared.messages = kept.filterMap (getMessageFromEntry time) ∧
    prepared.totalTokens = branchTokens time kept ∧
    (0 < tokenBudget → (branchTokens time kept : Int) ≤ tokenBudget ∨ kept.head?.any isSummary)
  files : ∀ use path, path ∈ prepared.fileOps.of use ↔
    ∃ entry ∈ entries, ListsFile entry use path ∨ UsesFile time entry use path

/-- The messages behind an entry are within the budget. -/
def Reached (entries : List (FileEntry N)) (tokenBudget : Int) (entry : FileEntry N) : Prop :=
  ∃ older newer, entries = older ++ entry :: newer ∧
    (0 < tokenBudget → (branchTokens time newer : Int) ≤ tokenBudget)

section

variable {use : FileUse} {path : String} {fileOps : FileOperations}

theorem foldl_gains {σ α : Type} {step : σ → α → σ} {has : σ → Prop} {gives : α → Prop}
    (gains : ∀ s a, has (step s a) ↔ has s ∨ gives a) (items : List α) (s : σ) :
    has (items.foldl step s) ↔ has s ∨ ∃ a ∈ items, gives a := by
  induction items generalizing s with
  | nil => simp
  | cons a items ih => rw [foldl_cons, ih, gains, or_assoc, exists_mem_cons_iff]

theorem mem_addPath (known : List String) (added : String) :
    path ∈ addPath added known ↔ path ∈ known ∨ path = added := by
  rw [addPath]
  split
  · rename_i old
    exact ⟨.inl, fun either => either.elim id fun same => same ▸ old⟩
  · simp

theorem mem_addPaths (paths known : List String) :
    path ∈ paths.foldl (fun paths path => addPath path paths) known ↔
      path ∈ known ∨ path ∈ paths := by
  exact (@foldl_gains _ _ _ (path ∈ ·) (path = ·) mem_addPath paths known).trans (by simp)

theorem mem_addNestedFileOps (entry : FileEntry N) :
    path ∈ (addNestedFileOps fileOps entry).of use ↔
      path ∈ fileOps.of use ∨ ListsFile entry use path := by
  unfold addNestedFileOps ListsFile
  cases nestedDetails entry with
  | none => simp
  | some details => cases use <;> simp [FileOperations.of, mem_addPaths]

omit [JsonNumber N] in
theorem mem_extractFileOpsFromBlock (block : Json N) :
    path ∈ (extractFileOpsFromBlock fileOps block).of use ↔
      path ∈ fileOps.of use ∨ CallsFile block use path := by
  unfold extractFileOpsFromBlock
  dsimp only
  split
  · rename_i none
    exact (or_iff_left fun calls => by cases none.symm.trans calls.target).symm
  · rename_i target found
    split
    · rename_i other
      refine (or_iff_left fun calls => ?_).symm
      obtain rfl := Option.some.inj (found.symm.trans calls.target)
      exact other.elim calls.named fun not => not calls.call
    · rename_i fine
      obtain ⟨named, call⟩ := not_or.mp fine
      have calls : CallsFile block use path ↔ path = target ∧
          (block.get? "name").bind Json.string? = some use.tool :=
        ⟨fun calls => ⟨Option.some.inj (calls.target.symm.trans found), calls.tool⟩,
          fun both => ⟨not_not.mp call, both.2, both.1 ▸ found, both.1 ▸ named⟩⟩
      rw [calls]
      split
      · rename_i tool
        cases use <;> simp [FileOperations.of, FileUse.tool, tool, mem_addPath]
      · rename_i tool
        cases use <;> simp [FileOperations.of, FileUse.tool, tool, mem_addPath]
      · rename_i tool
        cases use <;> simp [FileOperations.of, FileUse.tool, tool, mem_addPath]
      · rename_i read write edit
        refine (or_iff_left fun both => ?_).symm
        cases use with
        | read => exact read both.2
        | written => exact write both.2
        | edited => exact edit both.2

omit [JsonNumber N] in
theorem mem_extractFileOpsFromMessage (entry : FileEntry N) {message : Json N}
    (shown : getMessageFromEntry time entry = some message) :
    path ∈ (extractFileOpsFromMessage message fileOps).of use ↔
      path ∈ fileOps.of use ∨ UsesFile time entry use path := by
  have uses : UsesFile time entry use path ↔ messageRole message = some "assistant" ∧
      ∃ blocks, message.get? "content" = some (.arr blocks) ∧
        ∃ block ∈ blocks, CallsFile block use path := by
    simp [UsesFile, shown]
  rw [uses, extractFileOpsFromMessage]
  split
  · rename_i blocks assistant content
    rw [assistant, content]
    refine (@foldl_gains _ _ _ (path ∈ ·.of use) (CallsFile · use path)
      (fun _ _ => mem_extractFileOpsFromBlock _) blocks fileOps).trans ?_
    simp
  · rename_i other
    simp only [iff_self_or]
    rintro ⟨assistant, blocks, content, -⟩
    exact absurd content (other blocks assistant)

end

section

variable {time} {tokenBudget : Int} {prepared : BranchPreparation N}
  (within : 0 < tokenBudget → (prepared.totalTokens : Int) ≤ tokenBudget)

theorem branchTokens_cons {entry : FileEntry N} {message : Json N} (rest : List (FileEntry N))
    (shown : getMessageFromEntry time entry = some message) :
    branchTokens time (entry :: rest) = estimateTokens message + branchTokens time rest := by
  rw [branchTokens, filterMap_cons_some shown, map_cons, sum_cons]
  rfl

theorem branchTokens_cons_none {entry : FileEntry N} (rest : List (FileEntry N))
    (silent : getMessageFromEntry time entry = none) :
    branchTokens time (entry :: rest) = branchTokens time rest := by
  rw [branchTokens, filterMap_cons_none silent]
  rfl

theorem exists_split_cons {α : Type} {P : List α → α → Prop} (first : α) (rest : List α) :
    (∃ before item after, first :: rest = before ++ item :: after ∧ P before item) ↔
      P [] first ∨ ∃ before item after, rest = before ++ item :: after ∧
        P (first :: before) item := by
  constructor
  · rintro ⟨before, item, after, split, holds⟩
    cases before with
    | nil =>
      cases split
      exact .inl holds
    | cons other before =>
      cases split
      exact .inr ⟨before, item, after, rfl, holds⟩
  · rintro (here | ⟨before, item, after, rfl, holds⟩)
    · exact ⟨[], first, rest, rfl, here⟩
    · exact ⟨first :: before, item, after, rfl, holds⟩

include within

/-- What is collected on the walk are the files of the calls it reaches. -/
theorem mem_addOlderEntries (entries : List (FileEntry N)) (use : FileUse) (path : String) :
    path ∈ (addOlderEntries time tokenBudget entries prepared).fileOps.of use ↔
      path ∈ prepared.fileOps.of use ∨ ∃ newer entry older, entries = newer ++ entry :: older ∧
        (0 < tokenBudget →
          ((prepared.totalTokens + branchTokens time newer : Nat) : Int) ≤ tokenBudget) ∧
        UsesFile time entry use path := by
  induction entries generalizing prepared with
  | nil => simp [addOlderEntries]
  | cons entry older ih =>
    rw [exists_split_cons, addOlderEntries]
    cases shown : getMessageFromEntry time entry with
    | none =>
      have unused : ¬UsesFile time entry use path := by
        rintro ⟨message, blocks, is, -⟩
        cases shown.symm.trans is
      simp only [ih within, branchTokens_cons_none _ shown, unused, and_false, false_or]
    | some message =>
      have here : (0 < tokenBudget → ((prepared.totalTokens + branchTokens time [] : Nat) : Int) ≤
          tokenBudget) ∧ UsesFile time entry use path ↔ UsesFile time entry use path :=
        and_iff_right within
      simp only [branchTokens_cons _ shown, here, ← Nat.add_assoc, ← or_assoc,
        ← mem_extractFileOpsFromMessage time entry shown]
      by_cases stops : 0 < tokenBudget ∧
          tokenBudget < (prepared.totalTokens + estimateTokens message : Nat)
      · rw [if_pos stops]
        refine Iff.trans ?_ (or_iff_left ?_).symm
        · split
          · rfl
          · rfl
        · rintro ⟨newer, reached, rest, -, fits, -⟩
          have small := fits stops.1
          have large := stops.2
          omega
      · rw [if_neg stops]
        exact @ih ⟨_, _, _⟩ fun limited => by
          have small := not_and.mp stops limited
          exact Int.not_lt.mp small

theorem addOlderEntries_newest (entries : List (FileEntry N)) :
    ∃ taken, taken <+: entries ∧
      (addOlderEntries time tokenBudget entries prepared).messages =
        taken.reverse.filterMap (getMessageFromEntry time) ++ prepared.messages ∧
      (addOlderEntries time tokenBudget entries prepared).totalTokens =
        prepared.totalTokens + branchTokens time taken ∧
      (0 < tokenBudget →
        ((prepared.totalTokens + branchTokens time taken : Nat) : Int) ≤ tokenBudget ∨
          taken.getLast?.any isSummary) := by
  induction entries generalizing prepared with
  | nil => exact ⟨[], prefix_rfl, rfl, rfl, fun limited => .inl (within limited)⟩
  | cons entry older ih =>
    have later : ∀ {taken : List (FileEntry N)}, taken.getLast?.any isSummary = true →
        (entry :: taken).getLast?.any isSummary = true := by
      intro taken oldest
      rw [getLast?_cons]
      cases last : taken.getLast? with
      | none =>
        rw [last] at oldest
        cases oldest
      | some e => rwa [last] at oldest
    rw [addOlderEntries]
    cases shown : getMessageFromEntry time entry with
    | none =>
      obtain ⟨taken, first, messages, total, fits⟩ := ih within
      refine ⟨entry :: taken, (prefix_cons_inj _).mpr first, ?_, ?_, fun limited => ?_⟩
      · simpa [shown] using messages
      · rw [branchTokens_cons_none _ shown]
        exact total
      · rw [branchTokens_cons_none _ shown]
        exact (fits limited).imp_right later
    | some message =>
      dsimp only
      split
      · split
        · rename_i summary
          exact ⟨[entry], (prefix_cons_inj _).mpr nil_prefix, by simp [shown],
            by simp [branchTokens, shown], fun _ => .inr summary.1⟩
        · exact ⟨[], nil_prefix, rfl, rfl, fun limited => .inl (within limited)⟩
      · rename_i goes
        obtain ⟨taken, first, messages, total, fits⟩ := @ih ⟨_, _, _⟩ fun limited =>
          Int.not_lt.mp (not_and.mp goes limited)
        refine ⟨entry :: taken, (prefix_cons_inj _).mpr first, ?_, ?_, fun limited => ?_⟩
        · simpa [shown] using messages
        · rw [branchTokens_cons _ shown, ← Nat.add_assoc]
          exact total
        · rw [branchTokens_cons _ shown, ← Nat.add_assoc]
          exact (fits limited).imp_right later

end

theorem branchTokens_reverse (entries : List (FileEntry N)) :
    branchTokens time entries.reverse = branchTokens time entries := by
  rw [branchTokens, filterMap_reverse, map_reverse, sum_reverse]
  rfl

theorem mem_prepareBranchEntries (entries : List (FileEntry N)) (tokenBudget : Int)
    (use : FileUse) (path : String) :
    path ∈ (prepareBranchEntries time entries tokenBudget).fileOps.of use ↔
      (∃ summary ∈ entries, ListsFile summary use path) ∨
      ∃ reached, Reached time entries tokenBudget reached ∧ UsesFile time reached use path := by
  have none : path ∉ createFileOps.of use := by cases use <;> exact not_mem_nil
  rw [prepareBranchEntries, mem_addOlderEntries fun limited => Int.le_of_lt limited]
  refine or_congr ?_ ⟨?_, ?_⟩
  · exact (@foldl_gains FileOperations _ _ (path ∈ ·.of use) (ListsFile · use path)
      (fun _ _ => mem_addNestedFileOps _) entries createFileOps).trans (or_iff_right none)
  · rintro ⟨newer, reached, older, split, fits, uses⟩
    rw [reverse_eq_iff, reverse_append, reverse_cons, append_assoc] at split
    refine ⟨reached, ⟨older.reverse, newer.reverse, split, fun limited => ?_⟩, uses⟩
    rw [branchTokens_reverse, ← Nat.zero_add (branchTokens time newer)]
    exact fits limited
  · rintro ⟨reached, ⟨older, newer, rfl, fits⟩, uses⟩
    refine ⟨newer.reverse, reached, older.reverse, by simp, fun limited => ?_, uses⟩
    rw [branchTokens_reverse, Nat.zero_add]
    exact fits limited

/-- A tool call on a file, and behind it a text of three tokens. -/
def readThenThanked : List (FileEntry Int) :=
  [⟨.obj [("type", .str "message"), ("message", .obj [("role", .str "assistant"),
    ("content", .arr [.obj [("type", .str "toolCall"), ("name", .str "read"),
      ("arguments", .obj [("path", .str "notes.md")])]])])]⟩,
  ⟨.obj [("type", .str "message"), ("message", .obj [("role", .str "user"),
    ("content", .str "thank you")])]⟩]

end Trpi.CodingAgent
