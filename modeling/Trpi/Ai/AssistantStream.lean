import Trpi.Ai.Types

/-!
# Assistant streams

A producer keeps one live message and pushes an event for each step it takes. The
outline of a stream is what its events say of the blocks: their kinds, the characters of
the deltas and which have ended. Reading the events one by one leads from the empty
outline to that of the live message.
-/

namespace Trpi.Ai

open Library AssistantContent List
open Library.Utf16 (Units)

variable {N : Type}

structure BlockOutline where
  kind : BlockKind
  chars : Units
  ended : Bool

structure Outline where
  started : Bool
  terminal : Bool
  blocks : List BlockOutline

namespace Outline

def initial : Outline where
  started := false
  terminal := false
  blocks := []

/-- Whether block events are in order. -/
def Running (outline : Outline) : Prop := outline.started = true ∧ outline.terminal = false

instance (outline : Outline) : Decidable outline.Running := inferInstanceAs (Decidable (_ ∧ _))

def openBlock (outline : Outline) (kind : BlockKind) (contentIndex : Nat) : Option Outline :=
  if outline.Running ∧ contentIndex = outline.blocks.length then
    some { outline with blocks := outline.blocks ++ [{ kind := kind, chars := [], ended := false }] }
  else none

def amend (outline : Outline) (kind : BlockKind) (contentIndex : Nat)
    (change : BlockOutline → Option BlockOutline) : Option Outline :=
  match outline.blocks[contentIndex]? with
  | none => none
  | some block =>
    if outline.Running ∧ block.kind = kind ∧ block.ended = false then
      (change block).map fun block =>
        { outline with blocks := outline.blocks.set contentIndex block }
    else none

def grow (delta : Units) (block : BlockOutline) : Option BlockOutline :=
  some { block with chars := block.chars ++ delta }

def finish (content : Units) (block : BlockOutline) : Option BlockOutline :=
  if content = block.chars then some { block with ended := true } else none

def apply (outline : Outline) (ev : AssistantMessageEvent N) : Option Outline :=
  match ev with
  | .start =>
    if outline.started = false ∧ outline.terminal = false then some { outline with started := true }
    else none
  | .textStart contentIndex => outline.openBlock (.chars .text) contentIndex
  | .textDelta contentIndex delta => outline.amend (.chars .text) contentIndex (grow delta)
  | .textEnd contentIndex content => outline.amend (.chars .text) contentIndex (finish content)
  | .thinkingStart contentIndex => outline.openBlock (.chars .thinking) contentIndex
  | .thinkingDelta contentIndex delta => outline.amend (.chars .thinking) contentIndex (grow delta)
  | .thinkingEnd contentIndex content =>
    outline.amend (.chars .thinking) contentIndex (finish content)
  | .toolcallStart contentIndex => outline.openBlock .toolCall contentIndex
  | .toolcallDelta contentIndex _ => outline.amend .toolCall contentIndex (grow [])
  | .toolcallEnd contentIndex _ =>
    outline.amend .toolCall contentIndex fun block => some { block with ended := true }
  | .done => if outline.Running then some { outline with terminal := true } else none
  | .error => if outline.terminal = false then some { outline with terminal := true } else none

def follow : Outline → List (AssistantMessageEvent N) → Option Outline
  | outline, [] => some outline
  | outline, ev :: rest =>
    match outline.apply ev with
    | none => none
    | some next => follow next rest

theorem follow_append (outline : Outline) (first second : List (AssistantMessageEvent N)) :
    follow outline (first ++ second) =
      (follow outline first).bind fun between => follow between second := by
  induction first generalizing outline with
  | nil => rfl
  | cons ev rest ih =>
    rw [cons_append, follow, follow]
    split
    · rfl
    · exact ih _

/-- Later in the stream a block is of the same kind, has the characters and more, and is
the same once it has ended. -/
def Later (block later : BlockOutline) : Prop :=
  later.kind = block.kind ∧ block.chars <+: later.chars ∧ (block.ended = true → later = block)

theorem Later.refl (block : BlockOutline) : Later block block :=
  ⟨rfl, prefix_rfl, fun _ => rfl⟩

theorem Later.trans {block later last : BlockOutline} (first : Later block later)
    (second : Later later last) : Later block last := by
  refine ⟨second.1.trans first.1, first.2.1.trans second.2.1, ?_⟩
  intro ended
  have same := first.2.2 ended
  subst same
  exact second.2.2 ended

/-- Every block of one outline is there later. -/
def Grows (outline later : Outline) : Prop :=
  ∀ (i : Nat) (block : BlockOutline), outline.blocks[i]? = some block →
    ∃ last : BlockOutline, later.blocks[i]? = some last ∧ Later block last

theorem Grows.of_blocks {outline later : Outline} (same : later.blocks = outline.blocks) :
    Grows outline later := by
  intro i block at_
  rw [same]
  exact ⟨block, at_, Later.refl block⟩

theorem Grows.trans {outline between later : Outline} (first : Grows outline between)
    (second : Grows between later) : Grows outline later := by
  intro i block at_
  obtain ⟨middle, atMiddle, step⟩ := first i block at_
  obtain ⟨last, atLast, steps⟩ := second i middle atMiddle
  exact ⟨last, atLast, step.trans steps⟩

variable {next outline : Outline} {kind : BlockKind} {i : Nat}
  {change : BlockOutline → Option BlockOutline}

theorem openBlock_eq (opened : outline.openBlock kind i = some next) :
    outline.Running ∧ i = outline.blocks.length ∧
      next = { outline with
        blocks := outline.blocks ++ [{ kind := kind, chars := [], ended := false }] } := by
  unfold openBlock at opened
  split at opened
  · rename_i guards
    exact ⟨guards.1, guards.2, (Option.some.inj opened).symm⟩
  · cases opened

theorem amend_eq (amended : outline.amend kind i change = some next) :
    ∃ block changed, outline.Running ∧ outline.blocks[i]? = some block ∧ block.kind = kind ∧
      block.ended = false ∧ change block = some changed ∧
      next = { outline with blocks := outline.blocks.set i changed } := by
  unfold amend at amended
  split at amended
  · cases amended
  · rename_i block at_
    split at amended
    · rename_i guards
      obtain ⟨changed, isChange, rfl⟩ := Option.map_eq_some_iff.mp amended
      exact ⟨block, changed, guards.1, at_, guards.2.1, guards.2.2, isChange, rfl⟩
    · cases amended

theorem openBlock_grows (opened : outline.openBlock kind i = some next) : Grows outline next := by
  obtain ⟨_, _, rfl⟩ := openBlock_eq opened
  intro j block at_
  exact ⟨block, (List.getElem?_append_left (List.getElem?_eq_some_iff.mp at_).1).trans at_,
    Later.refl block⟩

theorem amend_grows
    (keeps : ∀ block changed, block.ended = false → change block = some changed →
      changed.kind = block.kind ∧ block.chars <+: changed.chars)
    (amended : outline.amend kind i change = some next) : Grows outline next := by
  obtain ⟨block, changed, _, at_, _, isOpen, isChange, rfl⟩ := amend_eq amended
  have kept := keeps block changed isOpen isChange
  intro j other atOther
  by_cases same : i = j
  · subst same
    have inside := (List.getElem?_eq_some_iff.mp at_).1
    rw [at_] at atOther
    cases atOther
    refine ⟨changed, by rw [getElem?_set_self inside], kept.1, kept.2, ?_⟩
    intro ended
    rw [isOpen] at ended
    cases ended
  · exact ⟨other, by rw [getElem?_set_ne same, atOther], Later.refl other⟩

theorem grow_keeps (delta : Units) : ∀ block changed : BlockOutline, block.ended = false →
    grow delta block = some changed → changed.kind = block.kind ∧ block.chars <+: changed.chars := by
  intro block changed _ isChange
  cases isChange
  exact ⟨rfl, prefix_append _ _⟩

theorem finish_eq {content : Units} {block changed : BlockOutline}
    (isChange : finish content block = some changed) :
    content = block.chars ∧ changed = { block with ended := true } := by
  unfold finish at isChange
  split at isChange
  · rename_i same
    exact ⟨same, (Option.some.inj isChange).symm⟩
  · cases isChange

theorem finish_keeps (content : Units) : ∀ block changed : BlockOutline, block.ended = false →
    finish content block = some changed →
      changed.kind = block.kind ∧ block.chars <+: changed.chars := by
  intro block changed _ isChange
  obtain ⟨_, rfl⟩ := finish_eq isChange
  exact ⟨rfl, prefix_rfl⟩

theorem end_keeps : ∀ block changed : BlockOutline, block.ended = false →
    some { block with ended := true } = some changed →
      changed.kind = block.kind ∧ block.chars <+: changed.chars := by
  intro block changed _ isChange
  cases isChange
  exact ⟨rfl, prefix_rfl⟩

theorem apply_grows {ev : AssistantMessageEvent N}
    (applied : outline.apply ev = some next) : Grows outline next := by
  cases ev with
  | textStart i => exact openBlock_grows applied
  | thinkingStart i => exact openBlock_grows applied
  | toolcallStart i => exact openBlock_grows applied
  | textDelta i delta => exact amend_grows (grow_keeps delta) applied
  | thinkingDelta i delta => exact amend_grows (grow_keeps delta) applied
  | toolcallDelta i delta => exact amend_grows (grow_keeps []) applied
  | textEnd i content => exact amend_grows (finish_keeps content) applied
  | thinkingEnd i content => exact amend_grows (finish_keeps content) applied
  | toolcallEnd i toolCall => exact amend_grows end_keeps applied
  | start =>
    rw [apply] at applied
    split at applied
    · cases applied
      exact Grows.of_blocks rfl
    · cases applied
  | done =>
    rw [apply] at applied
    split at applied
    · cases applied
      exact Grows.of_blocks rfl
    · cases applied
  | error =>
    rw [apply] at applied
    split at applied
    · cases applied
      exact Grows.of_blocks rfl
    · cases applied

theorem follow_grows {outline later : Outline} {events : List (AssistantMessageEvent N)}
    (followed : follow outline events = some later) : Grows outline later := by
  induction events generalizing outline with
  | nil =>
    cases followed
    exact Grows.of_blocks rfl
  | cons ev rest ih =>
    rw [follow] at followed
    split at followed
    · cases followed
    · rename_i next applied
      exact (apply_grows applied).trans (ih followed)

end Outline

structure LiveBlock (N : Type) where
  content : AssistantContent N
  ended : Bool

def LiveBlock.outline (block : LiveBlock N) : BlockOutline where
  kind := block.content.kind
  chars := block.content.chars
  ended := block.ended

structure AssistantStream (N : Type) where
  started : Bool
  terminal : Bool
  header : MessageHeader N
  blocks : List (LiveBlock N)

/-- A step of the producer; a revision pushes no event. -/
inductive Production (N : Type) where
  | start
  | openBlock (content : AssistantContent N)
  | delta (contentIndex : Nat) (delta : Units) (arguments : Json N)
  | finish (contentIndex : Nat)
  | revise (contentIndex : Nat) (content : AssistantContent N)
  | reviseHeader (header : MessageHeader N)
  | done
  | error

namespace AssistantStream

def message (stream : AssistantStream N) : AssistantMessage N :=
  { stream.header with content := stream.blocks.map LiveBlock.content }

def outline (stream : AssistantStream N) : Outline where
  started := stream.started
  terminal := stream.terminal
  blocks := stream.blocks.map LiveBlock.outline

def put (stream : AssistantStream N) (contentIndex : Nat) (block : LiveBlock N) : AssistantStream N :=
  { stream with blocks := stream.blocks.set contentIndex block }

def MAX_ARRAY_LENGTH : Nat := 4294967295

def startEvent : BlockKind → Nat → AssistantMessageEvent N
  | .chars .text => .textStart
  | .chars .thinking => .thinkingStart
  | .toolCall => .toolcallStart

def extend (content : AssistantContent N) (delta : Units) (arguments : Json N) : AssistantContent N :=
  match content with
  | .text content => .text { content with text := content.text ++ delta }
  | .thinking content => .thinking { content with thinking := content.thinking ++ delta }
  | .toolCall content => .toolCall { content with arguments := arguments }

def deltaEvent : BlockKind → Nat → Units → AssistantMessageEvent N
  | .chars .text => .textDelta
  | .chars .thinking => .thinkingDelta
  | .toolCall => .toolcallDelta

def endEvent (content : AssistantContent N) (contentIndex : Nat) : AssistantMessageEvent N :=
  match content with
  | .text content => .textEnd contentIndex content.text
  | .thinking content => .thinkingEnd contentIndex content.thinking
  | .toolCall content => .toolcallEnd contentIndex content

/-- Blocks are opened one after the other and empty, and only an open block grows. Any
block can be given other signatures, a tool call other data. -/
def produce (stream : AssistantStream N) :
    Production N → Option (AssistantStream N × Option (AssistantMessageEvent N))
  | .start =>
    if stream.started = false ∧ stream.terminal = false then
      some ({ stream with started := true }, some .start)
    else none
  | .openBlock content =>
    if stream.outline.Running ∧ content.chars = [] ∧ stream.blocks.length < MAX_ARRAY_LENGTH then
      some ({ stream with blocks := stream.blocks ++ [{ content := content, ended := false }] },
        some (startEvent content.kind stream.blocks.length))
    else none
  | .delta contentIndex delta arguments =>
    match stream.blocks[contentIndex]? with
    | none => none
    | some block =>
      if stream.outline.Running ∧ block.ended = false then
        some (stream.put contentIndex { block with content := extend block.content delta arguments },
          some (deltaEvent block.content.kind contentIndex delta))
      else none
  | .finish contentIndex =>
    match stream.blocks[contentIndex]? with
    | none => none
    | some block =>
      if stream.outline.Running ∧ block.ended = false then
        some (stream.put contentIndex { block with ended := true },
          some (endEvent block.content contentIndex))
      else none
  | .revise contentIndex content =>
    match stream.blocks[contentIndex]? with
    | none => none
    | some block =>
      if content.kind = block.content.kind ∧ content.chars = block.content.chars then
        some (stream.put contentIndex { block with content := content }, none)
      else none
  | .reviseHeader header => some ({ stream with header := header }, none)
  | .done =>
    if stream.outline.Running then some ({ stream with terminal := true }, some .done) else none
  | .error =>
    if stream.terminal = false then some ({ stream with terminal := true }, some .error) else none

def changesEnded (stream : AssistantStream N) : Production N → Bool
  | .revise contentIndex _ => stream.blocks[contentIndex]?.any LiveBlock.ended
  | _ => false

section

variable {stream next : AssistantStream N} {ev : Option (AssistantMessageEvent N)}

variable {i : Nat} {block : LiveBlock N} {production : Production N} {content : AssistantContent N}

theorem outline_at (at_ : stream.blocks[i]? = some block) :
    stream.outline.blocks[i]? = some block.outline := by
  rw [outline, getElem?_map, at_]
  rfl

theorem put_outline (i : Nat) (block : LiveBlock N) :
    (stream.put i block).outline =
      { stream.outline with blocks := stream.outline.blocks.set i block.outline } := by
  rw [outline, put, outline, map_set]

theorem extend_outline (block : LiveBlock N) (delta : Units) (arguments : Json N) :
    (extend block.content delta arguments).kind = block.content.kind ∧
      (extend block.content delta arguments).chars =
        if block.content.kind = .toolCall then [] else block.content.chars ++ delta := by
  obtain ⟨content, ended⟩ := block
  cases content with
  | text content => exact ⟨rfl, rfl⟩
  | thinking content => exact ⟨rfl, rfl⟩
  | toolCall content => exact ⟨rfl, rfl⟩

section

variable (running : stream.outline.Running) (at_ : stream.blocks[i]? = some block)
  (isOpen : block.ended = false)

include running at_ isOpen

theorem delta_outline (delta : Units) (arguments : Json N) :
    stream.outline.apply (deltaEvent block.content.kind i delta : AssistantMessageEvent N) =
      some (stream.put i { block with content := extend block.content delta arguments }).outline := by
  have shape := extend_outline block delta arguments
  have atOutline := outline_at at_
  obtain ⟨content, ended⟩ := block
  simp only at isOpen
  subst isOpen
  rw [put_outline]
  cases content with
  | text content =>
    show stream.outline.amend (.chars .text) i (Outline.grow delta) = _
    rw [Outline.amend, atOutline]
    simp_all [LiveBlock.outline, kind, Outline.grow]
  | thinking content =>
    show stream.outline.amend (.chars .thinking) i (Outline.grow delta) = _
    rw [Outline.amend, atOutline]
    simp_all [LiveBlock.outline, kind, Outline.grow]
  | toolCall content =>
    show stream.outline.amend .toolCall i (Outline.grow []) = _
    rw [Outline.amend, atOutline]
    simp_all [LiveBlock.outline, kind, chars, Outline.grow]

theorem finish_outline :
    stream.outline.apply (endEvent block.content i) =
      some (stream.put i { block with ended := true }).outline := by
  have atOutline := outline_at at_
  obtain ⟨content, ended⟩ := block
  rw [put_outline]
  cases content with
  | text content =>
    show stream.outline.amend (.chars .text) i (Outline.finish content.text) = _
    rw [Outline.amend, atOutline]
    simp_all [LiveBlock.outline, Outline.finish, kind, chars]
  | thinking content =>
    show stream.outline.amend (.chars .thinking) i (Outline.finish content.thinking) = _
    rw [Outline.amend, atOutline]
    simp_all [LiveBlock.outline, Outline.finish, kind, chars]
  | toolCall content =>
    show stream.outline.amend .toolCall i _ = _
    rw [Outline.amend, atOutline]
    simp_all [LiveBlock.outline, kind, chars]

end

theorem openBlock_outline (running : stream.outline.Running) (empty : content.chars = []) :
    stream.outline.apply (startEvent content.kind stream.blocks.length : AssistantMessageEvent N) =
      some (outline { stream with
        blocks := stream.blocks ++ [{ content := content, ended := false }] }) := by
  have index : stream.blocks.length = stream.outline.blocks.length := (length_map _).symm
  have opened : stream.outline.openBlock content.kind stream.blocks.length =
      some (outline { stream with
        blocks := stream.blocks ++ [{ content := content, ended := false }] }) := by
    rw [Outline.openBlock, if_pos ⟨running, index⟩]
    simp [outline, LiveBlock.outline, empty]
  cases content with
  | text content => exact opened
  | thinking content => exact opened
  | toolCall content => exact opened

/-- Other signatures and arguments leave the outline as it is. -/
theorem revise_outline (at_ : stream.blocks[i]? = some block)
    (same : content.kind = block.content.kind ∧ content.chars = block.content.chars) :
    (stream.put i { block with content := content }).outline = stream.outline := by
  have same : ({ block with content := content } : LiveBlock N).outline = block.outline := by
    simp [LiveBlock.outline, same]
  obtain ⟨inside, here⟩ := List.getElem?_eq_some_iff.mp (outline_at at_)
  rw [put_outline, same, ← here, set_getElem_self]

theorem produce_cases (produced : stream.produce production = some (next, ev)) :
    (∃ e, ev = some e ∧ next.blocks = stream.blocks ∧ stream.outline.apply e = some next.outline ∧
        ∀ i toolCall, e ≠ .toolcallEnd i toolCall) ∨
      (∃ content, ev = some (startEvent content.kind stream.blocks.length) ∧
        stream.outline.Running ∧ content.chars = [] ∧ stream.blocks.length < MAX_ARRAY_LENGTH ∧
        next = { stream with blocks := stream.blocks ++ [{ content := content, ended := false }] }) ∨
      (∃ i block delta arguments, ev = some (deltaEvent block.content.kind i delta) ∧
        stream.outline.Running ∧ stream.blocks[i]? = some block ∧ block.ended = false ∧
        next = stream.put i { block with content := extend block.content delta arguments }) ∨
      (∃ i block, ev = some (endEvent block.content i) ∧ stream.outline.Running ∧
        stream.blocks[i]? = some block ∧ block.ended = false ∧
        next = stream.put i { block with ended := true }) ∨
      (∃ i block content, ev = none ∧ stream.blocks[i]? = some block ∧
        (content.kind = block.content.kind ∧ content.chars = block.content.chars) ∧
        stream.changesEnded production = block.ended ∧
        next = stream.put i { block with content := content }) ∨
      (ev = none ∧ next.blocks = stream.blocks ∧ next.outline = stream.outline) := by
  cases production with
  | start =>
    rw [produce] at produced
    split at produced
    · rename_i guards
      cases produced
      exact .inl ⟨.start, rfl, rfl, if_pos guards, by simp⟩
    · cases produced
  | openBlock content =>
    rw [produce] at produced
    split at produced
    · rename_i guards
      cases produced
      exact .inr (.inl ⟨content, rfl, guards.1, guards.2.1, guards.2.2, rfl⟩)
    · cases produced
  | delta i delta arguments =>
    rw [produce] at produced
    split at produced
    · cases produced
    · rename_i block at_
      split at produced
      · rename_i guards
        cases produced
        exact .inr (.inr (.inl ⟨i, block, delta, arguments, rfl, guards.1, at_, guards.2, rfl⟩))
      · cases produced
  | finish i =>
    rw [produce] at produced
    split at produced
    · cases produced
    · rename_i block at_
      split at produced
      · rename_i guards
        cases produced
        exact .inr (.inr (.inr (.inl ⟨i, block, rfl, guards.1, at_, guards.2, rfl⟩)))
      · cases produced
  | revise i content =>
    rw [produce] at produced
    split at produced
    · cases produced
    · rename_i block at_
      split at produced
      · rename_i guards
        cases produced
        refine .inr (.inr (.inr (.inr (.inl ⟨i, block, content, rfl, at_, guards, ?_, rfl⟩))))
        simp [changesEnded, at_]
      · cases produced
  | reviseHeader header =>
    cases produced
    exact .inr (.inr (.inr (.inr (.inr ⟨rfl, rfl, rfl⟩))))
  | done =>
    rw [produce] at produced
    split at produced
    · rename_i guards
      cases produced
      exact .inl ⟨.done, rfl, rfl, if_pos guards, by simp⟩
    · cases produced
  | error =>
    rw [produce] at produced
    split at produced
    · rename_i guards
      cases produced
      exact .inl ⟨.error, rfl, rfl, if_pos guards, by simp⟩
    · cases produced

theorem produce_outline (produced : stream.produce production = some (next, ev)) :
    Outline.follow stream.outline ev.toList = some next.outline := by
  have single {e : AssistantMessageEvent N} {last : Outline}
      (applied : stream.outline.apply e = some last) :
      Outline.follow stream.outline [e] = some last := by
    rw [Outline.follow, applied]
    rfl
  rcases produce_cases produced with ⟨e, rfl, _, applied, _⟩ | ⟨content, rfl, running, empty, _, rfl⟩ |
    ⟨i, block, delta, arguments, rfl, running, at_, isOpen, rfl⟩ |
    ⟨i, block, rfl, running, at_, isOpen, rfl⟩ | ⟨i, block, content, rfl, at_, same, _, rfl⟩ |
    ⟨rfl, _, same⟩
  · exact single applied
  · exact single (openBlock_outline running empty)
  · exact single (delta_outline running at_ isOpen delta arguments)
  · exact single (finish_outline running at_ isOpen)
  · exact congrArg some (revise_outline at_ same).symm
  · exact congrArg some same.symm

theorem put_at (i j : Nat) (block : LiveBlock N) (inside : i < stream.blocks.length) :
    (stream.put i block).blocks[j]? = if i = j then some block else stream.blocks[j]? := by
  rw [put, getElem?_set]
  by_cases same : i = j
  · subst same
    simp [inside]
  · simp [same]

theorem produce_ended (produced : stream.produce production = some (next, ev))
    (unchanged : stream.changesEnded production = false) (at_ : stream.blocks[i]? = some block)
    (ended : block.ended = true) : next.blocks[i]? = some block := by
  have put_other {j : Nat} {other changed : LiveBlock N} (atOther : stream.blocks[j]? = some other)
      (isOpen : other.ended = false) : (stream.put j changed).blocks[i]? = some block := by
    rw [put_at j i changed (List.getElem?_eq_some_iff.mp atOther).1]
    split
    · rename_i same
      subst same
      rw [at_] at atOther
      cases atOther
      rw [isOpen] at ended
      cases ended
    · exact at_
  rcases produce_cases produced with ⟨e, rfl, same, _⟩ | ⟨content, rfl, _, _, _, rfl⟩ |
    ⟨j, other, delta, arguments, rfl, _, atOther, isOpen, rfl⟩ |
    ⟨j, other, rfl, _, atOther, isOpen, rfl⟩ | ⟨j, other, content, rfl, atOther, _, after, rfl⟩ |
    ⟨rfl, same, _⟩
  · rw [same]
    exact at_
  · exact (List.getElem?_append_left (List.getElem?_eq_some_iff.mp at_).1).trans at_
  · exact put_other atOther isOpen
  · exact put_other atOther isOpen
  · exact put_other atOther (after.symm.trans unchanged)
  · rw [same]
    exact at_

theorem produce_toolcallEnd {toolCall : ToolCall N}
    (produced : stream.produce production = some (next, some (.toolcallEnd i toolCall))) :
    next.blocks[i]? = some { content := .toolCall toolCall, ended := true } := by
  rcases produce_cases produced with ⟨e, same, _, _, other⟩ | ⟨content, same, _⟩ |
    ⟨j, block, delta, arguments, same, _⟩ | ⟨j, block, same, _, at_, isOpen, rfl⟩ |
    ⟨j, block, content, same, _⟩ | ⟨same, _⟩
  · exact absurd (Option.some.inj same).symm (other i toolCall)
  · cases content <;> cases same
  · obtain ⟨content, ended⟩ := block
    cases content <;> cases same
  · obtain ⟨content, ended⟩ := block
    cases content with
    | text content => cases same
    | thinking content => cases same
    | toolCall content =>
      cases same
      rw [put_at _ _ _ (List.getElem?_eq_some_iff.mp at_).1, if_pos rfl]
  · cases same
  · cases same

theorem produce_fits (produced : stream.produce production = some (next, ev))
    (fits : stream.blocks.length ≤ MAX_ARRAY_LENGTH) : next.blocks.length ≤ MAX_ARRAY_LENGTH := by
  rcases produce_cases produced with ⟨e, rfl, same, _⟩ | ⟨content, rfl, _, _, fewer, rfl⟩ |
    ⟨j, other, delta, arguments, rfl, _, _, _, rfl⟩ | ⟨j, other, rfl, _, _, _, rfl⟩ |
    ⟨j, other, content, rfl, _, _, _, rfl⟩ | ⟨rfl, same, _⟩
  · rw [same]
    exact fits
  · rw [length_append]
    exact fewer
  · rw [put, length_set]
    exact fits
  · rw [put, length_set]
    exact fits
  · rw [put, length_set]
    exact fits
  · rw [same]
    exact fits

end

end AssistantStream

end Trpi.Ai
