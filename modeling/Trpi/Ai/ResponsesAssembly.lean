import Trpi.Ai.ResponsesItems

/-!
# Every item becomes its block

While the stream runs, the message has a block for every record, a slot leads to
the record that is not done, and what was pushed for a content index is what its record
is due. One event of the stream keeps this; the completed response only adds what it
knows of encrypted content.
-/

namespace Trpi.Ai.Responses

open Library Record List Function
open Library.Utf16 (Units)
open Library.JsonText (Document parse)

variable {N : Type} {record : Record}

def State.told (s : State N) (k : Nat) : List (Pushed N) :=
  s.pushed.filter fun event => event.contentIndex = k

section

variable (s : State N)

@[simp] theorem push_pushed (ev : Pushed N) : (s.push ev).pushed = s.pushed ++ [ev] := rfl

@[simp] theorem push_output (ev : Pushed N) : (s.push ev).output = s.output := rfl

@[simp] theorem push_outputSlots (ev : Pushed N) : (s.push ev).outputSlots = s.outputSlots := rfl

@[simp] theorem push_reasoningBlocksById (ev : Pushed N) :
    (s.push ev).reasoningBlocksById = s.reasoningBlocksById := rfl

@[simp] theorem setBlock_pushed (k : Nat) (block : Block N) :
    (s.setBlock k block).pushed = s.pushed := rfl

@[simp] theorem setBlock_content (k : Nat) (block : Block N) :
    (s.setBlock k block).output.content = s.output.content.set k block := rfl

@[simp] theorem setBlock_outputSlots (k : Nat) (block : Block N) :
    (s.setBlock k block).outputSlots = s.outputSlots := rfl

@[simp] theorem setBlock_reasoningBlocksById (k : Nat) (block : Block N) :
    (s.setBlock k block).reasoningBlocksById = s.reasoningBlocksById := rfl

@[simp] theorem deleteSlot_pushed (i : Nat) : (s.deleteSlot i).pushed = s.pushed := rfl

@[simp] theorem deleteSlot_output (i : Nat) : (s.deleteSlot i).output = s.output := rfl

@[simp] theorem deleteSlot_reasoningBlocksById (i : Nat) :
    (s.deleteSlot i).reasoningBlocksById = s.reasoningBlocksById := rfl

end

theorem told_of_pushed {s after : State N} {events : List (Pushed N)} {k : Nat}
    (pushed : after.pushed = s.pushed ++ events)
    (here : ∀ ev ∈ events, ev.contentIndex = k) (j : Nat) :
    after.told j = s.told j ++ if k = j then events else [] := by
  rw [State.told, pushed, filter_append, ← State.told]
  congr 1
  split_ifs with same
  · exact filter_eq_self.mpr fun ev mem => by simp [here ev mem, same]
  · exact filter_eq_nil_iff.mpr fun ev mem => by simp [here ev mem, same]

theorem Record.text_withPiece (ungiven : record.given = none) (text : Units) :
    (record.withPiece text).text = record.text ++ text := by
  simp [Record.text, Record.withPiece, ungiven]

theorem Record.text_ungiven (ungiven : record.given = none) :
    record.text = record.pieces.flatten := by
  simp [Record.text, ungiven]

@[simp] theorem Record.text_withText (record : Record) (text : Units) :
    (record.withText text).text = text := rfl

@[simp] theorem Record.pieces_withText (record : Record) (text : Units) :
    (record.withText text).pieces = record.pieces := rfl

theorem getCustomToolCallInput_inputArguments (property : String) (text : Units)
    (id name : String) (toolNamespace : Option String) (buffer : GrammarToolInputJsonBuffer) :
    getCustomToolCallInput (⟨id, name, inputArguments property text, toolNamespace, none,
      some ⟨property, buffer⟩⟩ : StreamingToolCall N) = text := by
  simp [getCustomToolCallInput, inputArguments, memberOf]

theorem pushed_pushToolCallDelta (s : State N) (k : Nat) (delta : Option Units) :
    (pushToolCallDelta s k delta).pushed = s.pushed ++ delta.toList.map (.toolcallDelta k) := by
  cases delta with
  | none => simp [pushToolCallDelta]
  | some delta => rfl

@[simp] theorem output_pushToolCallDelta (s : State N) (k : Nat) (delta : Option Units) :
    (pushToolCallDelta s k delta).output = s.output := by
  cases delta <;> rfl

@[simp] theorem outputSlots_pushToolCallDelta (s : State N) (k : Nat) (delta : Option Units) :
    (pushToolCallDelta s k delta).outputSlots = s.outputSlots := by
  cases delta <;> rfl

@[simp] theorem reasoningBlocksById_pushToolCallDelta (s : State N) (k : Nat)
    (delta : Option Units) :
    (pushToolCallDelta s k delta).reasoningBlocksById = s.reasoningBlocksById := by
  cases delta <;> rfl

theorem appendCustomToolCallInput_written {property : String} {buffer : GrammarToolInputJsonBuffer}
    {deltas : List Units} (written : Written property buffer deltas)
    (unclosed : buffer.closed = false) {nextInput : Units} (grows : buffer.input <+: nextInput)
    (close : Bool) (id name : String) (arguments : Document N) (toolNamespace : Option String) :
    ∃ next delta, appendCustomToolCallInput
        ⟨id, name, arguments, toolNamespace, none, some ⟨property, buffer⟩⟩ nextInput close =
      .ok (⟨id, name, inputArguments property nextInput, toolNamespace, none,
        some ⟨property, next⟩⟩, delta) ∧ next.input = nextInput ∧ next.closed = close ∧
      Written property next (deltas ++ delta.toList) := by
  obtain ⟨next, delta, appended, input, closed, after⟩ := written.append unclosed grows close
  exact ⟨next, delta, by simp [appendCustomToolCallInput, appended], input, closed, after⟩

section

variable [JsonNumber N] (opts : StreamOptions N)

/-- The block of a record and what was pushed for it. -/
def Shaped (k : Nat) (record : Record) (block : Block N) (told : List (Pushed N)) : Prop :=
  (record.done = none → Underway opts k record block told) ∧
    (record.done.isSome = true → Assembled opts [] k record block told)

structure Assembling (records : List Record) (s : State N) : Prop where
  length : s.output.content.length = records.length
  slot : ∀ {k record}, records[k]? = some record → record.done = none →
    s.outputSlots record.outputIndex = some k
  open_ : ∀ {i k}, s.outputSlots i = some k →
    ∃ record, records[k]? = some record ∧ record.outputIndex = i ∧ record.done = none
  block : ∀ {k record}, records[k]? = some record →
    ∃ block, s.output.content[k]? = some block ∧ Shaped opts k record block (s.told k)
  bound : ∀ event ∈ s.pushed, event.contentIndex < records.length
  byId : ∀ {id k}, s.reasoningBlocksById id = some k →
    ∃ record item, records[k]? = some record ∧ record.done = some (.reasoning item) ∧ item.id = id

variable {opts} {records : List Record} {s after : State N} {record : Record} {k : Nat}

theorem Assembling.start (output : Message N) : Assembling opts [] (State.start output) where
  length := rfl
  slot found := by cases found
  open_ found := by cases found
  block found := by cases found
  bound := by simp [State.start]
  byId found := by cases found

section

variable (assembling : Assembling opts records s) {block : Block N} {item : ResponseItem} {k : Nat}

include assembling

theorem Assembling.block_set {record next : Record} (here : records[k]? = some record)
    {events : List (Pushed N)} (content : after.output.content = s.output.content.set k block)
    (pushed : after.pushed = s.pushed ++ events) (mine : ∀ ev ∈ events, ev.contentIndex = k)
    (shaped : Shaped opts k next block (s.told k ++ events)) {j : Nat} {other : Record}
    (found : (records.set k next)[j]? = some other) :
    ∃ block, after.output.content[j]? = some block ∧ Shaped opts j other block (after.told j) := by
  have inside : k < records.length := (List.getElem?_eq_some_iff.mp here).1
  rw [told_of_pushed pushed mine j, content]
  rw [getElem?_set] at found ⊢
  split_ifs at found with same
  · subst same
    cases found
    have room : k < s.output.content.length := by rw [assembling.length]; exact inside
    rw [if_pos rfl, if_pos room, if_pos rfl]
    exact ⟨block, rfl, shaped⟩
  · rw [if_neg same, if_neg same, append_nil]
    exact assembling.block found

theorem Assembling.goes {record next : Record} (here : records[k]? = some record)
    (unfinished : record.done = none) (index : next.outputIndex = record.outputIndex)
    (open_ : next.done = none) (events : List (Pushed N))
    (content : after.output.content = s.output.content.set k block)
    (pushed : after.pushed = s.pushed ++ events) (slots : after.outputSlots = s.outputSlots)
    (ids : after.reasoningBlocksById = s.reasoningBlocksById)
    (mine : ∀ ev ∈ events, ev.contentIndex = k)
    (underway : Underway opts k next block (s.told k ++ events)) :
    Assembling opts (records.set k next) after := by
  have inside : k < records.length := (List.getElem?_eq_some_iff.mp here).1
  have shaped : Shaped opts k next block (s.told k ++ events) :=
    ⟨fun _ => underway, fun done => by simp [open_] at done⟩
  refine ⟨by rw [content, length_set, length_set, assembling.length], ?_, ?_,
    assembling.block_set here content pushed mine shaped, ?_, ?_⟩
  · intro j other found going
    rw [slots]
    rw [getElem?_set] at found
    split_ifs at found with same
    · subst same
      cases found
      rw [index]
      exact assembling.slot here unfinished
    · exact assembling.slot found going
  · intro i j slot
    rw [slots] at slot
    obtain ⟨other, found, its, going⟩ := assembling.open_ slot
    by_cases same : k = j
    · subst same
      obtain rfl : record = other := Option.some.inj (here.symm.trans found)
      exact ⟨next, by simp [inside], index.trans its, open_⟩
    · exact ⟨other, by rw [getElem?_set, if_neg same, found], its, going⟩
  · intro ev mem
    rw [length_set]
    rw [pushed] at mem
    rcases mem_append.mp mem with old | new
    · exact assembling.bound ev old
    · rw [mine ev new]
      exact inside
  · intro id j found
    rw [ids] at found
    obtain ⟨other, item, at_, done, its⟩ := assembling.byId found
    have apart : k ≠ j := by
      rintro rfl
      obtain rfl : record = other := Option.some.inj (here.symm.trans at_)
      simp [unfinished] at done
    exact ⟨other, item, by rw [getElem?_set, if_neg apart, at_], done, its⟩

theorem Assembling.ends {record : Record} (here : records[k]? = some record)
    (unfinished : record.done = none) (events : List (Pushed N))
    (content : after.output.content = s.output.content.set k block)
    (pushed : after.pushed = s.pushed ++ events)
    (slots : after.outputSlots = update s.outputSlots record.outputIndex none)
    (ids : ∀ {id j}, after.reasoningBlocksById id = some j →
      s.reasoningBlocksById id = some j ∨
        j = k ∧ ∃ reasoning, item = .reasoning reasoning ∧ reasoning.id = id)
    (mine : ∀ ev ∈ events, ev.contentIndex = k)
    (assembled : Assembled opts [] k (record.finish item) block (s.told k ++ events)) :
    Assembling opts (records.set k (record.finish item)) after := by
  have inside : k < records.length := (List.getElem?_eq_some_iff.mp here).1
  have shaped : Shaped opts k (record.finish item) block (s.told k ++ events) :=
    ⟨fun going => by simp [finish] at going, fun _ => assembled⟩
  refine ⟨by rw [content, length_set, length_set, assembling.length], ?_, ?_,
    assembling.block_set here content pushed mine shaped, ?_, ?_⟩
  · intro j other found going
    rw [getElem?_set] at found
    split_ifs at found with same
    · cases found
      simp [finish] at going
    · have slot := assembling.slot found going
      have apart : other.outputIndex ≠ record.outputIndex := by
        intro shared
        rw [shared, assembling.slot here unfinished] at slot
        exact same (Option.some.inj slot)
      rw [slots, update_of_ne apart]
      exact slot
  · intro i j slot
    rw [slots] at slot
    have apart : i ≠ record.outputIndex := by
      rintro rfl
      simp at slot
    rw [update_of_ne apart] at slot
    obtain ⟨other, found, its, going⟩ := assembling.open_ slot
    have different : k ≠ j := by
      rintro rfl
      obtain rfl : record = other := Option.some.inj (here.symm.trans found)
      exact apart its.symm
    exact ⟨other, by rw [getElem?_set, if_neg different, found], its, going⟩
  · intro ev mem
    rw [length_set]
    rw [pushed] at mem
    rcases mem_append.mp mem with old | new
    · exact assembling.bound ev old
    · rw [mine ev new]
      exact inside
  · intro id j found
    rcases ids found with old | ⟨rfl, reasoning, rfl, its⟩
    · obtain ⟨other, last, at_, done, its⟩ := assembling.byId old
      have apart : k ≠ j := by
        rintro rfl
        obtain rfl : record = other := Option.some.inj (here.symm.trans at_)
        simp [unfinished] at done
      exact ⟨other, last, by rw [getElem?_set, if_neg apart, at_], done, its⟩
    · exact ⟨record.finish (.reasoning reasoning), reasoning, by simp [inside], rfl, its⟩

theorem Assembling.opens {i : Nat}
    (free : ∀ record ∈ records, record.outputIndex = i → record.done.isSome = true)
    (ev : Pushed N)
    (content : after.output.content = s.output.content ++ [block])
    (pushed : after.pushed = s.pushed ++ [ev]) (slots : after.outputSlots =
      update s.outputSlots i (some s.output.content.length))
    (ids : after.reasoningBlocksById = s.reasoningBlocksById)
    (mine : ev.contentIndex = s.output.content.length)
    (underway : Underway opts s.output.content.length (.opening i item) block [ev]) :
    Assembling opts (records ++ [.opening i item]) after := by
  have length := assembling.length
  rw [length] at mine underway slots
  have silent : s.told records.length = [] := by
    refine filter_eq_nil_iff.mpr fun old mem => ?_
    have := assembling.bound old mem
    simp only [decide_eq_true_eq]
    omega
  refine ⟨by simp [content, length], ?_, ?_, ?_, ?_, ?_⟩
  · intro k record found going
    rw [slots]
    have room := (List.getElem?_eq_some_iff.mp found).1
    by_cases old : k < records.length
    · rw [getElem?_append_left old] at found
      have apart : record.outputIndex ≠ i := by
        intro shared
        have done := free record (mem_of_getElem? found) shared
        simp [going] at done
      rw [update_of_ne apart]
      exact assembling.slot found going
    · rw [length_append, length_singleton] at room
      obtain rfl : k = records.length := by omega
      rw [getElem?_concat_length] at found
      cases found
      simp [opening]
  · intro j k slot
    rw [slots] at slot
    by_cases same : j = i
    · subst same
      rw [update_self] at slot
      cases slot
      exact ⟨.opening j item, getElem?_concat_length, rfl, rfl⟩
    · rw [update_of_ne same] at slot
      obtain ⟨record, found, its, going⟩ := assembling.open_ slot
      have room := (List.getElem?_eq_some_iff.mp found).1
      exact ⟨record, by rw [getElem?_append_left room, found], its, going⟩
  · intro k record found
    have told := told_of_pushed pushed (by simpa using mine) k
    have room := (List.getElem?_eq_some_iff.mp found).1
    rw [told, content]
    by_cases old : k < records.length
    · rw [getElem?_append_left old] at found
      rw [getElem?_append_left (by omega), if_neg (by omega), append_nil]
      exact assembling.block found
    · rw [length_append, length_singleton] at room
      obtain rfl : k = records.length := by omega
      rw [getElem?_concat_length] at found
      cases found
      rw [← length, getElem?_concat_length, length, if_pos rfl, silent, nil_append]
      exact ⟨block, rfl, fun _ => underway, fun done => by simp [opening] at done⟩
  · intro old mem
    rw [length_append, length_singleton]
    rw [pushed] at mem
    rcases mem_append.mp mem with before | new
    · exact Nat.lt_succ_of_lt (assembling.bound old before)
    · obtain rfl := mem_singleton.mp new
      omega
  · intro id k found
    rw [ids] at found
    obtain ⟨record, last, at_, done, its⟩ := assembling.byId found
    have room := (List.getElem?_eq_some_iff.mp at_).1
    exact ⟨record, last, by rw [getElem?_append_left room, at_], done, its⟩

end

theorem Assembling.getSlot (assembling : Assembling opts records s)
    (here : records[k]? = some record) (unfinished : record.done = none) :
    ∃ block, s.getSlot record.outputIndex = some (k, block) ∧
      Underway opts k record block (s.told k) := by
  obtain ⟨block, found, going, -⟩ := assembling.block here
  refine ⟨block, ?_, going unfinished⟩
  rw [State.getSlot, assembling.slot here unfinished]
  simp [found]

section

variable {k : Nat} {record : Record} {block : Block N} {told : List (Pushed N)}

section

variable (underway : Underway opts k record block told)

include underway

theorem Underway.of_reasoning {item : ReasoningItem} (added : record.added = .reasoning item) :
    block = .thinking record.pieces.flatten none ∧
      told = .thinkingStart k :: record.pieces.map (.thinkingDelta k) := by
  cases underway with
  | reasoning => exact ⟨rfl, rfl⟩
  | message other => cases added.symm.trans other
  | functionCall other => cases added.symm.trans other
  | customToolCall other => cases added.symm.trans other

theorem Underway.of_message {item : MessageItem} (added : record.added = .message item) :
    ∃ text, block = .text text none ∧ told = .textStart k :: record.pieces.map (.textDelta k) := by
  cases underway with
  | reasoning other => cases added.symm.trans other
  | message => exact ⟨_, rfl, rfl⟩
  | functionCall other => cases added.symm.trans other
  | customToolCall other => cases added.symm.trans other

theorem Underway.of_functionCall
    {item : FunctionCallItem} (added : record.added = .functionCall item) :
    ∃ arguments rest, (record.given = none → rest = []) ∧
      (record.pieces ++ rest).flatten = record.text ∧
      block = .toolCall ⟨toolCallId item.callId item.id, item.name, arguments, item.toolNamespace,
        some record.text, none⟩ ∧
      told = .toolcallStart k :: (record.pieces ++ rest).map (.toolcallDelta k) := by
  cases underway with
  | reasoning other => cases added.symm.trans other
  | message other => cases added.symm.trans other
  | functionCall other none' whole =>
    cases added.symm.trans other
    exact ⟨_, _, none', whole, rfl, rfl⟩
  | customToolCall other => cases added.symm.trans other

theorem Underway.of_customToolCall
    {item : CustomToolCallItem} (added : record.added = .customToolCall item) :
    ∃ buffer deltas, buffer.input = record.text ∧ buffer.closed = record.given.isSome ∧
      Written (inputProperty opts item.name) buffer deltas ∧
      block = .toolCall ⟨toolCallId item.callId item.id, item.name,
        inputArguments (inputProperty opts item.name) record.text, item.toolNamespace, none,
        some ⟨inputProperty opts item.name, buffer⟩⟩ ∧
      told = .toolcallStart k :: deltas.map (.toolcallDelta k) := by
  cases underway with
  | reasoning other => cases added.symm.trans other
  | message other => cases added.symm.trans other
  | functionCall other => cases added.symm.trans other
  | customToolCall other input closed written =>
    cases added.symm.trans other
    exact ⟨_, _, input, closed, written, rfl, rfl⟩

end

end

section

variable (assembling : Assembling opts records s) {k : Nat} {record : Record}
  (here : records[k]? = some record) (unfinished : record.done = none) {item : FunctionCallItem}
  {text : Units}
include assembling here unfinished

theorem Assembling.thinkingDelta {item : ReasoningItem} (added : record.added = .reasoning item)
    (text : Units) :
    Assembling opts (records.set k (record.withPiece text))
      (thinkingDelta s record.outputIndex text) := by
  obtain ⟨block, slot, underway⟩ := assembling.getSlot here unfinished
  obtain ⟨rfl, told⟩ := underway.of_reasoning added
  rw [Responses.thinkingDelta, slot]
  refine assembling.goes here unfinished rfl unfinished [.thinkingDelta k text] rfl rfl rfl rfl
    (by simp [Pushed.contentIndex]) ?_
  rw [told]
  have grown : Underway opts k (record.withPiece text) _ _ := .reasoning added
  simpa [withPiece] using grown

theorem Assembling.textDelta {item : MessageItem} (added : record.added = .message item)
    (text : Units) :
    Assembling opts (records.set k (record.withPiece text))
      (textDelta s record.outputIndex text) := by
  obtain ⟨block, slot, underway⟩ := assembling.getSlot here unfinished
  obtain ⟨received, rfl, told⟩ := underway.of_message added
  rw [Responses.textDelta, slot]
  refine assembling.goes here unfinished rfl unfinished [.textDelta k text] rfl rfl rfl rfl
    (by simp [Pushed.contentIndex]) ?_
  rw [told]
  have grown (whole : Units) :
      Underway opts k (record.withPiece text) (.text whole none) _ := .message added
  simpa [withPiece] using grown (received ++ text)

theorem Assembling.functionCallArgumentsDelta (added : record.added = .functionCall item)
    (ungiven : record.given = none) (text : Units) :
    Assembling opts (records.set k (record.withPiece text))
      (functionCallArgumentsDelta opts s record.outputIndex text) := by
  obtain ⟨block, slot, underway⟩ := assembling.getSlot here unfinished
  obtain ⟨arguments, rest, only, whole, rfl, told⟩ := underway.of_functionCall added
  rw [Responses.functionCallArgumentsDelta, slot]
  refine assembling.goes here unfinished rfl unfinished [.toolcallDelta k text] rfl rfl rfl rfl
    (by simp [Pushed.contentIndex]) ?_
  obtain rfl := only ungiven
  have received := text_withPiece ungiven text
  have grown (arguments : Document N) := @Underway.functionCall N _ opts k
    (record.withPiece text) item arguments [] added (fun _ => rfl)
    (by rw [received, ← whole]; simp [withPiece])
  rw [received] at grown
  rw [told]
  simpa [withPiece, StreamingToolCall.withPartialJson] using grown _

theorem Assembling.functionCallArgumentsDone (added : record.added = .functionCall item)
    (ungiven : record.given = none) (grows : record.pieces.flatten <+: text) :
    Assembling opts (records.set k (record.withText text))
      (functionCallArgumentsDone opts s record.outputIndex text) := by
  obtain ⟨block, slot, underway⟩ := assembling.getSlot here unfinished
  obtain ⟨arguments, rest, only, whole, rfl, told⟩ := underway.of_functionCall added
  obtain rfl := only ungiven
  rw [Responses.functionCallArgumentsDone, slot]
  obtain ⟨more, rfl⟩ := grows
  have sofar : record.text = record.pieces.flatten := by simp [Record.text, ungiven]
  have given (rest : List Units) (arguments : Document N) (complete : rest.flatten = more) :=
    @Underway.functionCall N _ opts k (record.withText (record.pieces.flatten ++ more)) item
      arguments rest added nofun (by simp [Record.text, withText, complete])
  rw [append_nil] at told
  simp only [sofar, isPrefixOf_iff_prefix, prefix_append, if_true, drop_left]
  by_cases nothing : more = []
  · subst nothing
    refine assembling.goes here unfinished rfl unfinished [] rfl (by simp) rfl rfl nofun ?_
    rw [told]
    simpa [StreamingToolCall.withPartialJson] using given [] _ rfl
  · rw [if_pos (length_pos_iff.mpr nothing)]
    refine assembling.goes here unfinished rfl unfinished [.toolcallDelta k more] rfl rfl rfl rfl
      (by simp [Pushed.contentIndex]) ?_
    rw [told]
    simpa [StreamingToolCall.withPartialJson] using given [more] _ (by simp)

theorem Assembling.customToolCallInput {item : CustomToolCallItem}
    (added : record.added = .customToolCall item) (ungiven : record.given = none)
    {nextInput : StreamingToolCall N → Units} {close : Bool}
    (nextIs : ∀ call, getCustomToolCallInput call = record.text → nextInput call = text)
    (grows : record.text <+: text) {next : Record} (kept : next.added = record.added)
    (i : next.outputIndex = record.outputIndex) (open_ : next.done = none)
    (received : next.text = text) (given : next.given.isSome = close) :
    ∃ after, customToolCallInput s record.outputIndex nextInput close = .ok after ∧
      Assembling opts (records.set k next) after := by
  obtain ⟨block, slot, underway⟩ := assembling.getSlot here unfinished
  obtain ⟨buffer, deltas, input, closed, written, rfl, told⟩ := underway.of_customToolCall added
  have unclosed : buffer.closed = false := by simp [closed, ungiven]
  obtain ⟨buffer', delta, appended, input', closed', written'⟩ :=
    appendCustomToolCallInput_written written unclosed (input ▸ grows) close
      (toolCallId item.callId item.id) item.name
      (inputArguments (inputProperty opts item.name) record.text : Document N) item.toolNamespace
  have asked := nextIs _ (getCustomToolCallInput_inputArguments (inputProperty opts item.name)
    record.text (toolCallId item.callId item.id) item.name item.toolNamespace buffer)
  rw [Responses.customToolCallInput, slot]
  simp only [asked, appended]
  refine ⟨_, rfl, assembling.goes here unfinished i open_ (delta.toList.map (.toolcallDelta k))
    (by rw [output_pushToolCallDelta, setBlock_content])
    (by rw [pushed_pushToolCallDelta, setBlock_pushed]) (by simp) (by simp)
    (by simp [Pushed.contentIndex]) ?_⟩
  have grown : Underway opts k next _ _ := .customToolCall (kept.trans added)
    (input'.trans received.symm) (closed'.trans given.symm) written'
  rw [told]
  rw [received] at grown
  simpa using grown

end

theorem Assembling.piece (assembling : Assembling opts records s) (here : records[k]? = some record)
    (unfinished : record.done = none) (ungiven : record.given = none) {ev : Event} {text : Units}
    (brings : BringsPiece record.added record.outputIndex ev text) :
    ∃ after, processEvent opts s ev = .ok after ∧
      Assembling opts (records.set k (record.withPiece text)) after := by
  generalize addedIs : record.added = added at brings
  generalize indexIs : record.outputIndex = i at brings
  cases brings with
  | summaryText item =>
    subst indexIs
    exact ⟨_, rfl, assembling.thinkingDelta here unfinished addedIs text⟩
  | summaryPart item =>
    subst indexIs
    exact ⟨_, rfl, assembling.thinkingDelta here unfinished addedIs blankLine⟩
  | reasoningText item =>
    subst indexIs
    exact ⟨_, rfl, assembling.thinkingDelta here unfinished addedIs text⟩
  | outputText item =>
    subst indexIs
    exact ⟨_, rfl, assembling.textDelta here unfinished addedIs text⟩
  | refusal item =>
    subst indexIs
    exact ⟨_, rfl, assembling.textDelta here unfinished addedIs text⟩
  | arguments call =>
    subst indexIs
    exact ⟨_, rfl, assembling.functionCallArgumentsDelta here unfinished addedIs ungiven text⟩
  | input call =>
    subst indexIs
    exact assembling.customToolCallInput here unfinished addedIs ungiven
      (fun call received => by rw [received]) (prefix_append _ text) rfl rfl unfinished
      (text_withPiece ungiven text) (by simp [withPiece, ungiven])

theorem Assembling.text (assembling : Assembling opts records s) (here : records[k]? = some record)
    (unfinished : record.done = none) (ungiven : record.given = none) {ev : Event} {text : Units}
    (brings : BringsText record.added record.outputIndex ev text)
    (grows : record.pieces.flatten <+: text) :
    ∃ after, processEvent opts s ev = .ok after ∧
      Assembling opts (records.set k (record.withText text)) after := by
  generalize addedIs : record.added = added at brings
  generalize indexIs : record.outputIndex = i at brings
  cases brings with
  | arguments call =>
    subst indexIs
    exact ⟨_, rfl, assembling.functionCallArgumentsDone here unfinished addedIs ungiven grows⟩
  | input call =>
    subst indexIs
    exact assembling.customToolCallInput here unfinished addedIs ungiven (fun _ _ => rfl)
      (text_ungiven ungiven ▸ grows) rfl rfl unfinished rfl rfl

end

end Trpi.Ai.Responses
