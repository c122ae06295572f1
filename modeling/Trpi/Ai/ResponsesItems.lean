import Trpi.Ai.ResponsesStream

/-!
# The items of a stream

What a well-behaved provider sends: each item is added without content, receives
deltas that agree with what it will be, and is done. Items at different output
indexes come in any order, and an output index may serve one item after another.
-/

namespace Trpi.Ai.Responses

open Library
open Library.Utf16 (Units)
open Library.JsonText (Document parse)

variable {N : Type}

/-- An item as it was added, the texts of its deltas, the whole text where an event of
its own gave it, and the item as it was done. -/
structure Record where
  outputIndex : Nat
  added : ResponseItem
  pieces : List Units
  given : Option Units
  done : Option ResponseItem

namespace Record

def opening (outputIndex : Nat) (item : ResponseItem) : Record :=
  ⟨outputIndex, item, [], none, none⟩

def withPiece (record : Record) (text : Units) : Record :=
  { record with pieces := record.pieces ++ [text] }

def withText (record : Record) (text : Units) : Record := { record with given := some text }

def finish (record : Record) (item : ResponseItem) : Record := { record with done := some item }

/-- The text received so far. -/
def text (record : Record) : Units := record.given.getD record.pieces.flatten

end Record

def ResponseItem.Empty : ResponseItem → Prop
  | .reasoning item => item.summary = [] ∧ item.content.getD [] = []
  | .message item => item.content = []
  | .functionCall call => call.arguments = []
  | .customToolCall call => call.input.getD [] = []
  | .other => False

inductive BringsPiece : ResponseItem → Nat → Event → Units → Prop
  | summaryText (item : ReasoningItem) (i : Nat) (delta : Units) :
    BringsPiece (.reasoning item) i (.reasoningSummaryTextDelta i delta) delta
  | summaryPart (item : ReasoningItem) (i : Nat) :
    BringsPiece (.reasoning item) i (.reasoningSummaryPartDone i) blankLine
  | reasoningText (item : ReasoningItem) (i : Nat) (delta : Units) :
    BringsPiece (.reasoning item) i (.reasoningTextDelta i delta) delta
  | outputText (item : MessageItem) (i : Nat) (delta : Units) :
    BringsPiece (.message item) i (.outputTextDelta i delta) delta
  | refusal (item : MessageItem) (i : Nat) (delta : Units) :
    BringsPiece (.message item) i (.refusalDelta i delta) delta
  | arguments (call : FunctionCallItem) (i : Nat) (delta : Units) :
    BringsPiece (.functionCall call) i (.functionCallArgumentsDelta i delta) delta
  | input (call : CustomToolCallItem) (i : Nat) (delta : Units) :
    BringsPiece (.customToolCall call) i (.customToolCallInputDelta i delta) delta

inductive BringsText : ResponseItem → Nat → Event → Units → Prop
  | arguments (call : FunctionCallItem) (i : Nat) (text : Units) :
    BringsText (.functionCall call) i (.functionCallArgumentsDone i text) text
  | input (call : CustomToolCallItem) (i : Nat) (text : Units) :
    BringsText (.customToolCall call) i (.customToolCallInputDone i text) text

/-- The item a record started with becomes `item`, whose text is what was received. An
input may go on beyond its deltas where no event gave it whole. -/
inductive Record.Becomes (record : Record) : ResponseItem → Prop
  | reasoning {first last : ReasoningItem} (added : record.added = .reasoning first)
      (id : first.id = last.id) : Becomes record (.reasoning last)
  | message {first last : MessageItem} (added : record.added = .message first)
      (id : first.id = last.id) : Becomes record (.message last)
  | functionCall {first last : FunctionCallItem} (added : record.added = .functionCall first)
      (id : first.id = last.id) (callId : first.callId = last.callId)
      (name : first.name = last.name)
      (toolNamespace : first.toolNamespace = none ∨ first.toolNamespace = last.toolNamespace)
      (arguments : record.text = last.arguments) : Becomes record (.functionCall last)
  | customToolCall {first last : CustomToolCallItem} {input : Units}
      (added : record.added = .customToolCall first)
      (id : first.id = last.id) (callId : first.callId = last.callId)
      (name : first.name = last.name)
      (toolNamespace : first.toolNamespace = none ∨ first.toolNamespace = last.toolNamespace)
      (given : last.input = some input) (whole : ∀ text, record.given = some text → text = input)
      (grows : record.pieces.flatten <+: input) : Becomes record (.customToolCall last)

/-- Events that are about none of the four kinds of item. -/
inductive Idle : Event → Prop
  | created (id : String) : Idle (.created id)
  | added (i : Nat) : Idle (.outputItemAdded i .other)
  | done (i : Nat) : Idle (.outputItemDone i .other)
  | other : Idle .other

/-- What an event makes of the records. -/
inductive Hears : List Record → Event → List Record → Prop
  | added {records : List Record} {i : Nat} {item : ResponseItem}
      (free : ∀ record ∈ records, record.outputIndex = i → record.done.isSome = true)
      (empty : item.Empty) : Hears records (.outputItemAdded i item) (records ++ [.opening i item])
  | piece {records : List Record} {k : Nat} {record : Record} {event : Event} {text : Units}
      (here : records[k]? = some record) (unfinished : record.done = none)
      (ungiven : record.given = none)
      (brings : BringsPiece record.added record.outputIndex event text) :
    Hears records event (records.set k (record.withPiece text))
  | text {records : List Record} {k : Nat} {record : Record} {event : Event} {text : Units}
      (here : records[k]? = some record) (unfinished : record.done = none)
      (ungiven : record.given = none)
      (brings : BringsText record.added record.outputIndex event text)
      (grows : record.pieces.flatten <+: text) :
    Hears records event (records.set k (record.withText text))
  | done {records : List Record} {k : Nat} {record : Record} {item : ResponseItem}
      (here : records[k]? = some record) (unfinished : record.done = none)
      (becomes : record.Becomes item) :
    Hears records (.outputItemDone record.outputIndex item) (records.set k (record.finish item))
  | idle {records : List Record} {event : Event} (idle : Idle event) : Hears records event records

/-- The events of a stream before its end, with the records they leave. -/
inductive Heard : List Event → List Record → Prop
  | nil : Heard [] []
  | snoc {events : List Event} {records next : List Record} {event : Event}
      (heard : Heard events records) (hears : Hears records event next) :
    Heard (events ++ [event]) next

/-- The done item, its encrypted content from the response's output where it had none. -/
def Backfilled (output : List ResponseItem) (item stored : ReasoningItem) : Prop :=
  stored = item ∨ isMissing item.encryptedContent = true ∧
    ∃ final, .reasoning final ∈ output ∧ final.id = item.id ∧
      stored = { item with encryptedContent := final.encryptedContent }

/-- The final block of a record at content index `k`, and the events pushed for it. -/
inductive Assembled [JsonNumber N] (options : StreamOptions N) (output : List ResponseItem)
    (k : Nat) (record : Record) : Block N → List (Pushed N) → Prop
  | reasoning {item stored : ReasoningItem} (done : record.done = some (.reasoning item))
      (backfilled : Backfilled output item stored) :
    Assembled options output k record
      (.thinking (reasoningText item record.pieces.flatten) (some stored))
      (.thinkingStart k :: record.pieces.map (.thinkingDelta k) ++
        [.thinkingEnd k (reasoningText item record.pieces.flatten)])
  | message {item : MessageItem} (done : record.done = some (.message item)) :
    Assembled options output k record
      (.text (messageText item) (some ⟨item.id, item.phase⟩))
      (.textStart k :: record.pieces.map (.textDelta k) ++ [.textEnd k (messageText item)])
  | functionCall {item : FunctionCallItem} {call : StreamingToolCall N} {deltas : List Units}
      (done : record.done = some (.functionCall item))
      (called : call = ⟨toolCallId item.callId item.id, item.name,
        parseStreamingJson options.partialParse item.arguments, item.toolNamespace, none, none⟩)
      (pieces : record.pieces <+: deltas) (whole : deltas.flatten = item.arguments)
      (parsed : ∀ value, parse deltas.flatten = some value → value = call.arguments) :
    Assembled options output k record (.toolCall call)
      (.toolcallStart k :: deltas.map (.toolcallDelta k) ++ [.toolcallEnd k call])
  | customToolCall {item : CustomToolCallItem} {input : Units} {call : StreamingToolCall N}
      {deltas : List Units}
      (done : record.done = some (.customToolCall item)) (given : item.input = some input)
      (called : call = ⟨toolCallId item.callId item.id, item.name,
        inputArguments (inputProperty options item.name) input, item.toolNamespace, none, none⟩)
      (parsed : parse deltas.flatten = some call.arguments) :
    Assembled options output k record (.toolCall call)
      (.toolcallStart k :: deltas.map (.toolcallDelta k) ++ [.toolcallEnd k call])

/-- A record that is not done: its block holds what was received, and its deltas so far. -/
inductive Underway [JsonNumber N] (options : StreamOptions N) (k : Nat) (record : Record) :
    Block N → List (Pushed N) → Prop
  | reasoning {item : ReasoningItem} (added : record.added = .reasoning item) :
    Underway options k record (.thinking record.pieces.flatten none)
      (.thinkingStart k :: record.pieces.map (.thinkingDelta k))
  | message {item : MessageItem} {text : Units} (added : record.added = .message item) :
    Underway options k record (.text text none) (.textStart k :: record.pieces.map (.textDelta k))
  | functionCall {item : FunctionCallItem} {arguments : Document N} {rest : List Units}
      (added : record.added = .functionCall item) (ungiven : record.given = none → rest = [])
      (whole : (record.pieces ++ rest).flatten = record.text) :
    Underway options k record
      (.toolCall ⟨toolCallId item.callId item.id, item.name, arguments, item.toolNamespace,
        some record.text, none⟩)
      (.toolcallStart k :: (record.pieces ++ rest).map (.toolcallDelta k))
  | customToolCall {item : CustomToolCallItem} {buffer : GrammarToolInputJsonBuffer}
      {deltas : List Units} (added : record.added = .customToolCall item)
      (input : buffer.input = record.text) (closed : buffer.closed = record.given.isSome)
      (written : Written (inputProperty options item.name) buffer deltas) :
    Underway options k record
      (.toolCall ⟨toolCallId item.callId item.id, item.name,
        inputArguments (inputProperty options item.name) record.text, item.toolNamespace, none,
        some ⟨inputProperty options item.name, buffer⟩⟩)
      (.toolcallStart k :: deltas.map (.toolcallDelta k))

end Trpi.Ai.Responses
