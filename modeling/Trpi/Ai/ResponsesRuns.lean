import Trpi.Ai.ResponsesAssembly
import Trpi.Library.JsonInt

/-!
# A stream to its end

Adding an item, finishing one, and the completed response; then whole streams.
-/

namespace Trpi.Ai.Responses

open Library List
open Library.Utf16 (Units)
open Library.JsonText (Document parse)

variable {N : Type}

theorem applyMessagePhaseStopReason_content (s : State N) (item : ResponseItem) :
    (applyMessagePhaseStopReason s item).output.content = s.output.content ∧
      (applyMessagePhaseStopReason s item).pushed = s.pushed ∧
      (applyMessagePhaseStopReason s item).outputSlots = s.outputSlots ∧
      (applyMessagePhaseStopReason s item).reasoningBlocksById = s.reasoningBlocksById := by
  cases item with
  | message message =>
    by_cases final : message.phase = some "final_answer"
    · simp [applyMessagePhaseStopReason, final]
    · simp [applyMessagePhaseStopReason, final]
  | reasoning => exact ⟨rfl, rfl, rfl, rfl⟩
  | functionCall => exact ⟨rfl, rfl, rfl, rfl⟩
  | customToolCall => exact ⟨rfl, rfl, rfl, rfl⟩
  | other => exact ⟨rfl, rfl, rfl, rfl⟩

theorem or_of_added {first last : Option String} (agree : first = none ∨ first = last) :
    last.or first = last := by
  rcases agree with rfl | rfl
  · simp
  · simp

theorem appendCustomToolCallInput_last {property : String} {buffer : GrammarToolInputJsonBuffer}
    {deltas : List Units} (written : Written property buffer deltas) {input : Units}
    (grows : buffer.input <+: input) (whole : buffer.closed = true → buffer.input = input)
    (id name : String) (arguments : Document N) (toolNamespace : Option String) :
    ∃ next delta, appendCustomToolCallInput
        ⟨id, name, arguments, toolNamespace, none, some ⟨property, buffer⟩⟩ input true =
      .ok (⟨id, name, inputArguments property input, toolNamespace, none,
        some ⟨property, next⟩⟩, delta) ∧ next.input = input ∧ next.closed = true ∧
      Written property next (deltas ++ delta.toList) := by
  cases closed : buffer.closed with
  | false => exact appendCustomToolCallInput_written written closed grows true _ _ _ _
  | true =>
    obtain rfl := whole closed
    refine ⟨buffer, none, ?_, rfl, closed, by simpa using written⟩
    simp [appendCustomToolCallInput, append_closed closed]

theorem backfillReasoningSignature_saw (s : State N) (item : ResponseItem) :
    (backfillReasoningSignature s item).sawTerminalResponseEvent =
      s.sawTerminalResponseEvent := by
  unfold backfillReasoningSignature
  split
  · split_ifs
    · rfl
    · split
      · rfl
      · split
        · split_ifs <;> rfl
        · rfl
  · rfl

section

variable [JsonNumber N] {opts : StreamOptions N} {records : List Record} {s after : State N}
  {output : List ResponseItem} {record : Record} {told : List (Pushed N)} {item : ResponseItem}
  {k : Nat} {call : StreamingToolCall N}

section

variable (assembling : Assembling opts records s)

include assembling

/-- The rest of the message is of no concern. -/
theorem Assembling.same
    (content : after.output.content = s.output.content) (pushed : after.pushed = s.pushed)
    (slots : after.outputSlots = s.outputSlots)
    (ids : after.reasoningBlocksById = s.reasoningBlocksById) : Assembling opts records after := by
  have told (k : Nat) : after.told k = s.told k := by simp [State.told, pushed]
  refine ⟨by rw [content, assembling.length], ?_, ?_, ?_, ?_, ?_⟩
  · rw [slots]
    exact assembling.slot
  · rw [slots]
    exact assembling.open_
  · intro k record found
    rw [content, told]
    exact assembling.block found
  · rw [pushed]
    exact assembling.bound
  · rw [ids]
    exact assembling.byId

theorem Assembling.phase (item : ResponseItem) :
    Assembling opts records (applyMessagePhaseStopReason s item) := by
  obtain ⟨content, pushed, slots, ids⟩ := applyMessagePhaseStopReason_content s item
  exact assembling.same content pushed slots ids

theorem Assembling.added {i : Nat}
    (free : ∀ record ∈ records, record.outputIndex = i → record.done.isSome = true)
    (empty : item.Empty) :
    Assembling opts (records ++ [.opening i item]) (createSlot opts s i item) := by
  cases item with
  | reasoning item =>
    exact assembling.opens free (.thinkingStart s.output.content.length) rfl rfl rfl rfl rfl
      (.reasoning rfl)
  | message item =>
    have phased := assembling.phase (.message item)
    have content := (applyMessagePhaseStopReason_content s (.message item)).1
    refine phased.opens free (.textStart s.output.content.length) rfl rfl rfl rfl ?_ ?_
    · rw [content]
      rfl
    · rw [content]
      exact .message rfl
  | functionCall item =>
    have none' : item.arguments = [] := empty
    refine assembling.opens free (.toolcallStart s.output.content.length) rfl rfl rfl rfl rfl ?_
    have start := @Underway.functionCall N _ opts s.output.content.length
      (.opening i (.functionCall item)) item (.obj []) [] rfl (fun _ => rfl) rfl
    simpa [Record.opening, Record.text, none'] using start
  | customToolCall item =>
    have none' : item.input.getD [] = [] := empty
    refine assembling.opens free (.toolcallStart s.output.content.length) rfl rfl rfl rfl rfl ?_
    have start := @Underway.customToolCall N _ opts s.output.content.length
      (.opening i (.customToolCall item)) item .fresh [] rfl rfl rfl (Written.fresh _)
    simpa [Record.opening, Record.text, none'] using start
  | other => exact empty.elim

end

/-- An item without arguments is an empty object, as an empty text is. -/
theorem parseStreamingJson_orElse (partialParse : Units → Option (Document N)) (text : Units) :
    parseStreamingJson partialParse (orElse text (orElse text [0x7B, 0x7D])) =
      parseStreamingJson partialParse text := by
  by_cases empty : text = []
  · subst empty
    have object : parse [0x7B, 0x7D] = some (.obj [] : Document N) := by
      simp [parse, JsonText.parseValue, JsonText.skipSpace, JsonText.isSpace]
    simp only [orElse, if_true]
    rw [parseStreamingJson_parse object, parseStreamingJson]
    simp
  · simp [orElse, empty]

theorem Assembling.done (assembling : Assembling opts records s) (here : records[k]? = some record)
    (unfinished : record.done = none) (becomes : record.Becomes item) :
    ∃ after, outputItemDone opts s record.outputIndex item = .ok after ∧
      Assembling opts (records.set k (record.finish item)) after := by
  have phased := assembling.phase item
  obtain ⟨block, slot, underway⟩ := phased.getSlot here unfinished
  have kept : getOrCreateSlot opts (applyMessagePhaseStopReason s item) record.outputIndex
      item = applyMessagePhaseStopReason s item := by
    simp [getOrCreateSlot, phased.slot here unfinished]
  simp only [outputItemDone, kept, slot]
  cases becomes with
  | @reasoning first last added id =>
    obtain ⟨rfl, told⟩ := underway.of_reasoning added
    refine ⟨_, rfl, phased.ends here unfinished
      [.thinkingEnd k (reasoningText last record.pieces.flatten)] rfl rfl rfl ?_
      (by simp [Pushed.contentIndex]) ?_⟩
    · intro id j found
      by_cases same : id = last.id
      · subst same
        refine .inr ⟨?_, last, rfl, rfl⟩
        simpa [State.deleteSlot, State.push] using found.symm
      · refine .inl ?_
        simpa [State.deleteSlot, State.push, same] using found
    · rw [told]
      exact .reasoning rfl (.inl rfl)
  | @message first last added id =>
    obtain ⟨text, rfl, told⟩ := underway.of_message added
    refine ⟨_, rfl, phased.ends here unfinished [.textEnd k (messageText last)] rfl rfl rfl
      (fun found => .inl found) (by simp [Pushed.contentIndex]) ?_⟩
    rw [told]
    exact .message rfl
  | @functionCall first last added id callId name toolNamespace arguments =>
    obtain ⟨early, rest, only, whole, rfl, told⟩ := underway.of_functionCall added
    rw [arguments] at whole ⊢
    simp only [parseStreamingJson_orElse]
    refine ⟨_, rfl, phased.ends here unfinished [.toolcallEnd k ⟨_, _, _, _, _, _⟩] rfl rfl rfl
      (fun found => .inl found) (by simp [Pushed.contentIndex]) ?_⟩
    rw [told]
    refine .functionCall rfl ?_ (prefix_append _ rest) whole ?_
    · simp [id, callId, name, or_of_added toolNamespace]
    · intro v parsed
      rw [whole] at parsed
      exact (parseStreamingJson_parse parsed).symm
  | @customToolCall first last input added id callId name toolNamespace given whole grows =>
    obtain ⟨buffer, deltas, sofar, closed, written, rfl, told⟩ := underway.of_customToolCall added
    have extends_ : buffer.input <+: input ∧ (buffer.closed = true → buffer.input = input) := by
      rw [sofar, closed]
      cases received : record.given with
      | none =>
        rw [Record.text_ungiven received]
        exact ⟨grows, fun absurd => by cases absurd⟩
      | some text =>
        have all := whole text received
        simp [Record.text, received, all]
    obtain ⟨next, delta, appended, itsInput, itsClosed, after⟩ :=
      appendCustomToolCallInput_last written extends_.1 extends_.2
        (toolCallId first.callId first.id) first.name
        (inputArguments (inputProperty opts first.name) record.text : Document N)
        first.toolNamespace
    simp only [given, Option.getD_some, appended]
    let call : StreamingToolCall N := ⟨toolCallId first.callId first.id, first.name,
      inputArguments (inputProperty opts first.name) input,
      last.toolNamespace.or first.toolNamespace, none, none⟩
    let events : List (Pushed N) := delta.toList.map (.toolcallDelta k) ++ [.toolcallEnd k call]
    have mine : ∀ ev ∈ events, ev.contentIndex = k := by
      intro ev mem
      rcases mem_append.mp mem with piece | final
      · obtain ⟨text, -, rfl⟩ := mem_map.mp piece
        rfl
      · obtain rfl := mem_singleton.mp final
        rfl
    refine ⟨_, rfl, @Assembling.ends N _ opts records _ _ phased (.toolCall call) _ k record here
      unfinished events (by simp [endToolCall, call])
      (by simp [endToolCall, pushed_pushToolCallDelta, events, call])
      (by simp [endToolCall, State.deleteSlot])
      (fun found => .inl (by simpa [endToolCall] using found)) mine ?_⟩
    rw [told, cons_append, ← append_assoc, ← map_append]
    refine .customToolCall rfl given ?_ ?_
    · simp [call, id, callId, name, or_of_added toolNamespace]
    · rw [after.parses itsClosed, itsInput]
      rfl

theorem Assembling.idle (assembling : Assembling opts records s) {ev : Event} (idle : Idle ev) :
    ∃ after, processEvent opts s ev = .ok after ∧ Assembling opts records after := by
  cases idle with
  | created id => exact ⟨_, rfl, assembling.same rfl rfl rfl rfl⟩
  | added i => exact ⟨_, rfl, assembling⟩
  | done i =>
    refine ⟨s, ?_, assembling⟩
    have kept : getOrCreateSlot opts s i .other = s := by
      unfold getOrCreateSlot
      split
      · rfl
      · rfl
    simp only [processEvent, outputItemDone, applyMessagePhaseStopReason, kept]
  | other => exact ⟨_, rfl, assembling⟩

theorem Assembling.step (assembling : Assembling opts records s) {ev : Event}
    {next : List Record} (hears : Hears records ev next) :
    ∃ after, processEvent opts s ev = .ok after ∧ Assembling opts next after := by
  cases hears with
  | added free empty => exact ⟨_, rfl, assembling.added free empty⟩
  | piece here unfinished ungiven brings => exact assembling.piece here unfinished ungiven brings
  | text here unfinished ungiven brings grows =>
    exact assembling.text here unfinished ungiven brings grows
  | done here unfinished becomes => exact assembling.done here unfinished becomes
  | idle idle => exact assembling.idle idle

theorem Heard.assembling {events : List Event} (heard : Heard events records) (output : Message N) :
    ∃ s, run (processEvent opts) (State.start output) events = .ok s ∧
      Assembling opts records s := by
  induction heard with
  | nil => exact ⟨_, rfl, .start output⟩
  | snoc _ hears ih =>
    obtain ⟨before, ran, assembling⟩ := ih
    obtain ⟨after, stepped, next⟩ := assembling.step hears
    exact ⟨after, by rw [run_append_ok ran, run_cons_ok stepped, run_nil], next⟩

/-- A message whose thinking blocks may have been given encrypted content. -/
structure Filled (opts : StreamOptions N) (output : List ResponseItem)
    (records : List Record) (s : State N) : Prop where
  length : s.output.content.length = records.length
  block : ∀ {k record}, records[k]? = some record →
    ∃ block, s.output.content[k]? = some block ∧ Assembled opts output k record block (s.told k)
  bound : ∀ event ∈ s.pushed, event.contentIndex < records.length
  byId : ∀ {id k}, s.reasoningBlocksById id = some k →
    ∃ record item, records[k]? = some record ∧ record.done = some (.reasoning item) ∧ item.id = id

theorem Assembling.filled (assembling : Assembling opts records s)
    (done : ∀ record ∈ records, record.done.isSome = true) : Filled opts [] records s where
  length := assembling.length
  block found := by
    obtain ⟨block, at_, -, assembled⟩ := assembling.block found
    exact ⟨block, at_, assembled (done _ (mem_of_getElem? found))⟩
  bound := assembling.bound
  byId := assembling.byId

theorem Assembled.mono {output more : List ResponseItem} (among : output ⊆ more) {block : Block N}
    (assembled : Assembled opts output k record block told) :
    Assembled opts more k record block told := by
  cases assembled with
  | reasoning done backfilled =>
    refine .reasoning done (backfilled.imp_right ?_)
    rintro ⟨missing, final, mem, rest⟩
    exact ⟨missing, final, among mem, rest⟩
  | message done => exact .message done
  | functionCall done called pieces whole parsed =>
    exact .functionCall done called pieces whole parsed
  | customToolCall done given called parsed => exact .customToolCall done given called parsed

theorem Filled.mono {output more : List ResponseItem} (among : output ⊆ more)
    (filled : Filled opts output records s) : Filled opts more records s where
  length := filled.length
  block found := by
    obtain ⟨block, at_, assembled⟩ := filled.block found
    exact ⟨block, at_, assembled.mono among⟩
  bound := filled.bound
  byId := filled.byId

theorem Filled.same (filled : Filled opts output records s)
    (content : after.output.content = s.output.content) (pushed : after.pushed = s.pushed)
    (ids : after.reasoningBlocksById = s.reasoningBlocksById) :
    Filled opts output records after := by
  have told (k : Nat) : after.told k = s.told k := by simp [State.told, pushed]
  refine ⟨by rw [content, filled.length], ?_, ?_, ?_⟩
  · intro k record found
    rw [content, told]
    exact filled.block found
  · rw [pushed]
    exact filled.bound
  · rw [ids]
    exact filled.byId

theorem Assembled.filled {thinking : Units} {stored last item : ReasoningItem}
    (assembled : Assembled opts output k record (.thinking thinking (some stored)) told)
    (done : record.done = some (.reasoning last))
    (missing : isMissing stored.encryptedContent = true) (mem : .reasoning item ∈ output)
    (its : last.id = item.id) :
    Assembled opts output k record
      (.thinking thinking (some { stored with encryptedContent := item.encryptedContent }))
      told := by
  cases assembled with
  | reasoning done' backfilled =>
    cases done.symm.trans done'
    refine .reasoning done (.inr ?_)
    rcases backfilled with rfl | ⟨lacking, final, -, -, rfl⟩
    · exact ⟨missing, item, mem, its.symm, rfl⟩
    · exact ⟨lacking, item, mem, its.symm, rfl⟩

/-- Encrypted content goes to the block that the last item of its id has. -/
theorem Filled.backfill (filled : Filled opts output records s) (mem : item ∈ output) :
    Filled opts output records (backfillReasoningSignature s item) := by
  unfold backfillReasoningSignature
  split
  · rename_i item
    split_ifs with missing
    · exact filled
    · split
      · exact filled
      · rename_i k byId
        split
        · rename_i thinking stored at_
          split_ifs with storedMissing
          · refine ⟨by rw [setBlock_content, length_set, filled.length], ?_, filled.bound,
              filled.byId⟩
            intro j other found
            obtain ⟨block, atJ, assembled⟩ := filled.block found
            rw [setBlock_content]
            by_cases same : k = j
            · subst same
              obtain rfl : block = .thinking thinking (some stored) :=
                Option.some.inj (atJ.symm.trans at_)
              have room := (List.getElem?_eq_some_iff.mp at_).1
              rw [getElem?_set, if_pos rfl, if_pos room]
              obtain ⟨record, last, atK, done, its⟩ := filled.byId byId
              obtain rfl : other = record := Option.some.inj (found.symm.trans atK)
              exact ⟨_, rfl, assembled.filled done storedMissing mem its⟩
            · rw [getElem?_set, if_neg same]
              exact ⟨block, atJ, assembled⟩
          · exact filled
        · exact filled
  · exact filled

theorem Filled.backfillAll (filled : Filled opts output records s) {items : List ResponseItem}
    (among : items ⊆ output) :
    Filled opts output records (backfillReasoningSignatures s items) := by
  induction items generalizing s with
  | nil => exact filled
  | cons item items ih =>
    exact ih (filled.backfill (among mem_cons_self))
      fun _ mem => among (mem_cons_of_mem _ mem)

theorem finalizeResponse_saw (opts : StreamOptions N) (s : State N) (response : Response) :
    (finalizeResponse opts s response).sawTerminalResponseEvent = true := by
  have kept (items : List ResponseItem) (s : State N) :
      (backfillReasoningSignatures s items).sawTerminalResponseEvent =
        s.sawTerminalResponseEvent := by
    induction items generalizing s with
    | nil => rfl
    | cons item items ih =>
      exact (ih (backfillReasoningSignature s item)).trans (backfillReasoningSignature_saw s item)
  exact kept response.output { s with sawTerminalResponseEvent := true }

/-- A finished block has no scratch field. -/
theorem Assembled.stripped (assembled : Assembled opts output k record (.toolCall call) told) :
    call.partialJson = none ∧ call.customInput = none := by
  cases assembled with
  | functionCall done called =>
    subst called
    exact ⟨rfl, rfl⟩
  | customToolCall done given called =>
    subst called
    exact ⟨rfl, rfl⟩

theorem Filled.stripped (filled : Filled opts output records s)
    (mem : .toolCall call ∈ s.output.content) :
    call.partialJson = none ∧ call.customInput = none := by
  obtain ⟨k, inside, at_⟩ := mem_iff_getElem.mp mem
  have room : k < records.length := filled.length ▸ inside
  obtain ⟨block, found, assembled⟩ := filled.block (getElem?_eq_getElem room)
  rw [getElem?_eq_getElem inside, at_] at found
  cases found
  exact assembled.stripped

/-- Every item comes to one block, in the order the items were added, and each content
index to a start, the deltas and an end. -/
theorem processResponsesStream_assembles (opts : StreamOptions N) (output : Message N)
    {events : List Event} {records : List Record} (heard : Heard events records)
    (done : ∀ record ∈ records, record.done.isSome = true) (response : Response) :
    ∃ s, processResponsesStream opts output (events ++ [.completed response]) = .ok s ∧
      s.output.content.length = records.length ∧
      (∀ ev ∈ s.pushed, ev.contentIndex < records.length) ∧
      (∀ k record, records[k]? = some record →
        ∃ block, s.output.content[k]? = some block ∧
          Assembled opts response.output k record block (s.told k)) ∧
      ∀ call, .toolCall call ∈ s.output.content →
        call.partialJson = none ∧ call.customInput = none := by
  obtain ⟨before, ran, assembling⟩ := @Heard.assembling N _ opts records events heard output
  have saw : Filled opts response.output records
      { before with sawTerminalResponseEvent := true } :=
    ((assembling.filled done).mono (List.nil_subset _)).same rfl rfl rfl
  have filled := saw.backfillAll (List.Subset.refl response.output)
  have last : Filled opts response.output records (finalizeResponse opts before response) :=
    filled.same rfl rfl rfl
  refine ⟨finalizeResponse opts before response, ?_, last.length, last.bound,
    fun k record found => last.block found, fun call mem => last.stripped mem⟩
  have ended : run (processEvent opts) (State.start output) (events ++ [.completed response]) =
      .ok (finalizeResponse opts before response) := by
    rw [run_append_ok ran]
    rfl
  rw [processResponsesStream, ended]
  exact if_pos (finalizeResponse_saw opts before response)

end

/-- No pricing, and a reader of incomplete JSON that always throws. -/
def plainOptions : StreamOptions Int where
  serviceTier := none
  grammarToolInputProperties := fun _ => none
  resolveServiceTier := none
  applyServiceTierPricing := none
  calculateCost := id
  partialParse := fun _ => none

def emptyMessage : Message Int := ⟨[], none, ⟨0, 0, 0, 0, none, 0, .zero⟩, none, .pending, none⟩

def completedResponse : Response := ⟨none, [], none, none, some .completed, none, none⟩

def sampleReasoning (summary : List Units) : ResponseItem := .reasoning ⟨"rs", summary, none, none⟩

def sampleTool (input : Units) : ResponseItem :=
  .customToolCall ⟨some "ct", "call", "run", none, some input⟩

/-- Two items at once; the input of the tool is cut within a surrogate pair. -/
def sampleEvents : List Event :=
  [.outputItemAdded 0 (sampleReasoning []), .outputItemAdded 1 (sampleTool []),
    .customToolCallInputDelta 1 [0xD83D], .reasoningSummaryTextDelta 0 [0x68],
    .customToolCallInputDelta 1 [0xDE00], .outputItemDone 1 (sampleTool [0xD83D, 0xDE00]),
    .outputItemDone 0 (sampleReasoning [[0x68]])]

def sampleRecords : List Record :=
  [⟨0, sampleReasoning [], [[0x68]], none, some (sampleReasoning [[0x68]])⟩,
    ⟨1, sampleTool [], [[0xD83D], [0xDE00]], none, some (sampleTool [0xD83D, 0xDE00])⟩]

theorem sampleHeard : Heard sampleEvents sampleRecords := by
  have first : Heard (sampleEvents.take 1) [.opening 0 (sampleReasoning [])] :=
    Heard.nil.snoc (.added (by simp) ⟨rfl, rfl⟩)
  have second : Heard (sampleEvents.take 2)
      [.opening 0 (sampleReasoning []), .opening 1 (sampleTool [])] :=
    first.snoc (.added (by simp [Record.opening]) rfl)
  have third := second.snoc (@Hears.piece _ 1 _ _ _ rfl rfl rfl (.input _ _ [0xD83D]))
  have fourth := third.snoc (@Hears.piece _ 0 _ _ _ rfl rfl rfl (.summaryText _ _ [0x68]))
  have fifth := fourth.snoc (@Hears.piece _ 1 _ _ _ rfl rfl rfl (.input _ _ [0xDE00]))
  have sixth := fifth.snoc (@Hears.done _ 1 _ (sampleTool [0xD83D, 0xDE00]) rfl rfl
    (.customToolCall rfl rfl rfl rfl (.inl rfl) rfl (fun _ given => by cases given) ⟨[], rfl⟩))
  have seventh := sixth.snoc
    (@Hears.done _ 0 _ (sampleReasoning [[0x68]]) rfl rfl (.reasoning rfl rfl))
  exact seventh

theorem processResponsesStream_assembles_sample :
    ∃ s, processResponsesStream plainOptions emptyMessage
        (sampleEvents ++ [.completed completedResponse]) = .ok s ∧
      ∀ k record, sampleRecords[k]? = some record →
        ∃ block, s.output.content[k]? = some block ∧
          Assembled plainOptions [] k record block (s.told k) := by
  obtain ⟨s, ran, -, -, assembled, -⟩ := processResponsesStream_assembles plainOptions
    emptyMessage sampleHeard (by decide) completedResponse
  exact ⟨s, ran, assembled⟩

def Pushed.delta : Pushed N → Units
  | .thinkingDelta _ delta | .textDelta _ delta | .toolcallDelta _ delta => delta
  | _ => []

def sampleCall : ResponseItem := .functionCall ⟨some "fc", "call", "list", none, []⟩

def sampleCallRecord : Record := ⟨0, sampleCall, [], none, some sampleCall⟩

/-- A call without arguments has an empty object for its arguments, and no delta: the
empty text is not JSON. -/
theorem no_arguments_no_json :
    Heard [.outputItemAdded 0 sampleCall, .outputItemDone 0 sampleCall] [sampleCallRecord] ∧
      ∃ s call, processResponsesStream plainOptions emptyMessage
          [.outputItemAdded 0 sampleCall, .outputItemDone 0 sampleCall,
            .completed completedResponse] = .ok s ∧
        s.output.content = [.toolCall call] ∧
        parse ((s.told 0).flatMap Pushed.delta) ≠ some call.arguments := by
  refine ⟨?_, ?_⟩
  · have first : Heard [.outputItemAdded 0 sampleCall] [.opening 0 sampleCall] :=
      Heard.nil.snoc (.added nofun rfl)
    have second := first.snoc
      (@Hears.done _ 0 _ sampleCall rfl rfl (.functionCall rfl rfl rfl rfl (.inl rfl) rfl))
    exact second
  · refine ⟨_, _, rfl, rfl, ?_⟩
    have silent : parse [] = (none : Option (Document Int)) := parse_blank rfl
    change parse [] ≠ _
    rw [silent]
    nofun

end Trpi.Ai.Responses
