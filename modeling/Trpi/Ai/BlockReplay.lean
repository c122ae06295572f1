import Trpi.Ai.AssistantStream
import Trpi.Ai.MessageFrames

/-!
# One block of a stream, encoded and reduced

The encoder counts the deltas of an open block, the reducer has the characters of its
snapshot or of the deltas read, whichever are more. Every event of a block is encoded
without an error, its frame reduces, and the two sides agree on all blocks as before.
-/

namespace Trpi.Ai

open Library InsertionMap AssistantMessageFrameEncoder AssistantStream AssistantContent Reduction Outline
open List hiding contains
open Library.Utf16 (Units)

variable {N : Type} [JsonNumber N] [DecidableEq N]

/-- An open block: the encoder has counted its deltas, and the reducer has the characters
of the snapshot or of the deltas. -/
structure OpenReplay (block : BlockOutline) (live : AssistantContent N) (state : EncoderBlockState)
    (reducer : ReducerBlockState) (content : AssistantContent N) : Prop where
  encoderKind : state.kind = block.kind
  reducerKind : reducer.kind = block.kind
  contentKind : content.kind = block.kind
  isOpen : reducer.ended = false
  chars : ∀ kind coveredChars deltaChars, state = .chars kind coveredChars deltaChars →
    deltaChars = block.chars.length ∧ max coveredChars deltaChars ≤ live.chars.length ∧
      content.chars = live.chars.take (max coveredChars deltaChars)

structure BlockReplay (changed : Bool) (block : BlockOutline) (live : AssistantContent N)
    (state : Option EncoderBlockState) (reducer : ReducerBlockState) (content : AssistantContent N) :
    Prop where
  isOpen : block.ended = false → ∃ opened, state = some opened ∧
    OpenReplay block live opened reducer content
  hasEnded : block.ended = true → state = none ∧ reducer.ended = true ∧
    (changed = false → content = live)

omit [JsonNumber N] [DecidableEq N] in
theorem BlockReplay.opened {changed : Bool} {block : BlockOutline} {live content : AssistantContent N}
    {s : EncoderBlockState} {reducer : ReducerBlockState} (isOpen : block.ended = false)
    (opening : OpenReplay block live s reducer content) :
    BlockReplay changed block live (some s) reducer content where
  isOpen := fun _ => ⟨s, rfl, opening⟩
  hasEnded := by
    intro ended
    rw [isOpen] at ended
    cases ended

/-- Every block of the outline on both sides, and no other. -/
structure Replays (changed : Bool) (blocks : List BlockOutline) (live : List (AssistantContent N))
    (encoder : InsertionMap Nat EncoderBlockState) (states : InsertionMap Nat ReducerBlockState)
    (content : List (AssistantContent N)) : Prop where
  length : content.length = blocks.length
  block : ∀ (i : Nat) (block : BlockOutline), blocks[i]? = some block →
    ∃ liveBlock reducer reduced, live[i]? = some liveBlock ∧ states.get? i = some reducer ∧
      content[i]? = some reduced ∧
      BlockReplay changed block liveBlock (encoder.get? i) reducer reduced
  fresh : ∀ i, blocks.length ≤ i → encoder.get? i = none ∧ states.get? i = none

section

variable {changed : Bool} {blocks : List BlockOutline} {live content : List (AssistantContent N)}
  {encoder : InsertionMap Nat EncoderBlockState} {states : InsertionMap Nat ReducerBlockState}

omit [JsonNumber N] [DecidableEq N]

section

variable (replays : Replays changed blocks live encoder states content)
  {encoderAfter : InsertionMap Nat EncoderBlockState} {block : BlockOutline}
  {reducer : ReducerBlockState}

include replays

theorem Replays.append {liveBlock reduced : AssistantContent N} {s : EncoderBlockState}
    (at_ : live[blocks.length]? = some liveBlock)
    (replay : BlockReplay changed block liveBlock (some s) reducer reduced) :
    Replays changed (blocks ++ [block]) live (encoder.set blocks.length s)
      (states.set blocks.length reducer) (content ++ [reduced]) where
  length := by rw [length_append, length_append, replays.length]; rfl
  block := by
    intro i other atOther
    by_cases inside : i < blocks.length
    · rw [getElem?_append_left inside] at atOther
      obtain ⟨liveOther, reducerOther, reducedOther, atLive, atState, atContent, same⟩ :=
        replays.block i other atOther
      have apart : blocks.length ≠ i := Nat.ne_of_gt inside
      refine ⟨liveOther, reducerOther, reducedOther, atLive, ?_, ?_, ?_⟩
      · rw [get?_set_of_ne _ _ apart]
        exact atState
      · rw [getElem?_append_left (by rw [replays.length]; exact inside)]
        exact atContent
      · rw [get?_set_of_ne _ _ apart]
        exact same
    · have bound := (List.getElem?_eq_some_iff.mp atOther).1
      rw [length_append, length_singleton] at bound
      have last : i = blocks.length := by omega
      subst last
      rw [getElem?_concat_length] at atOther
      cases atOther
      refine ⟨liveBlock, reducer, reduced, at_, get?_set_self _ _ _, ?_, ?_⟩
      · rw [← replays.length, getElem?_concat_length]
      · rw [get?_set_self]
        exact replay
  fresh := by
    intro i beyond
    rw [length_append, length_singleton] at beyond
    have apart : blocks.length ≠ i := by omega
    rw [get?_set_of_ne _ _ apart, get?_set_of_ne _ _ apart]
    exact replays.fresh i (by omega)

theorem Replays.set {i : Nat} {liveBlock reduced : AssistantContent N} (inside : i < blocks.length)
    (at_ : live[i]? = some liveBlock) (others : ∀ j, i ≠ j → encoderAfter.get? j = encoder.get? j)
    (replay : BlockReplay changed block liveBlock (encoderAfter.get? i) reducer reduced) :
    Replays changed (blocks.set i block) live encoderAfter (states.set i reducer)
      (content.set i reduced) where
  length := by rw [length_set, length_set, replays.length]
  block := by
    intro j other atOther
    by_cases same : i = j
    · subst same
      rw [getElem?_set_self inside] at atOther
      cases atOther
      refine ⟨liveBlock, reducer, reduced, at_, get?_set_self _ _ _, ?_, replay⟩
      rw [getElem?_set_self (by rw [replays.length]; exact inside)]
    · rw [getElem?_set_ne same] at atOther
      rw [others j same, get?_set_of_ne _ _ same, getElem?_set_ne same]
      exact replays.block j other atOther
  fresh := by
    intro j beyond
    rw [length_set] at beyond
    have apart : i ≠ j := by omega
    rw [others j apart, get?_set_of_ne _ _ apart]
    exact replays.fresh j beyond

theorem Replays.setEncoder {i : Nat} {liveBlock reduced : AssistantContent N}
    (inside : i < blocks.length) (others : ∀ j, i ≠ j → encoderAfter.get? j = encoder.get? j)
    (atLive : live[i]? = some liveBlock) (atState : states.get? i = some reducer)
    (atContent : content[i]? = some reduced)
    (replay : BlockReplay changed block liveBlock (encoderAfter.get? i) reducer reduced) :
    Replays changed (blocks.set i block) live encoderAfter states content where
  length := by rw [length_set, replays.length]
  block := by
    intro j other atOther
    by_cases same : i = j
    · subst same
      rw [getElem?_set_self inside] at atOther
      cases atOther
      exact ⟨liveBlock, reducer, reduced, atLive, atState, atContent, replay⟩
    · rw [getElem?_set_ne same] at atOther
      rw [others j same]
      exact replays.block j other atOther
  fresh := by
    intro j beyond
    rw [length_set] at beyond
    rw [others j (by omega)]
    exact replays.fresh j beyond

theorem Replays.advance {after : List (AssistantContent N)} {changedAfter : Bool}
    (sticky : changed = true → changedAfter = true)
    (grows : ∀ (i : Nat) (block : BlockOutline) (before : AssistantContent N),
      blocks[i]? = some block → live[i]? = some before →
      ∃ later, after[i]? = some later ∧ before.chars <+: later.chars ∧
        (block.ended = true → changedAfter = false → later = before)) :
    Replays changedAfter blocks after encoder states content where
  length := replays.length
  block := by
    intro i block at_
    obtain ⟨before, reducer, reduced, atLive, atState, atContent, replay⟩ := replays.block i block at_
    obtain ⟨later, atAfter, extends_, stays⟩ := grows i block before at_ atLive
    refine ⟨later, reducer, reduced, atAfter, atState, atContent, ?_, ?_⟩
    · intro isOpen
      obtain ⟨opened, same, opening⟩ := replay.isOpen isOpen
      refine ⟨opened, same, { opening with chars := ?_ }⟩
      intro kind coveredChars deltaChars isChars
      obtain ⟨deltas, covered, taken⟩ := opening.chars kind coveredChars deltaChars isChars
      obtain ⟨more, extended⟩ := extends_
      have longer : before.chars.length ≤ later.chars.length := by
        rw [← extended, length_append]
        omega
      refine ⟨deltas, Nat.le_trans covered longer, ?_⟩
      rw [taken, ← extended, take_append_of_le_length covered]
    · intro ended
      obtain ⟨gone, reducerEnded, unchanged⟩ := replay.hasEnded ended
      refine ⟨gone, reducerEnded, ?_⟩
      intro quiet
      have quietBefore : changed = false := by
        cases changed with
        | false => rfl
        | true =>
          rw [sticky rfl] at quiet
          cases quiet
      rw [unchanged quietBefore, stays ended quiet]
  fresh := replays.fresh

end

end

section

variable {encoder : AssistantMessageFrameEncoder} {m : AssistantMessage N} {i : Nat}

theorem assertContentIndex_ok (fits : i ≤ MAX_SAFE_INTEGER) : assertContentIndex i = .ok () :=
  if_pos fits

omit [JsonNumber N] [DecidableEq N] in
theorem eventBlock_ok (ev : AssistantMessageEvent N) (fits : i ≤ MAX_SAFE_INTEGER)
    {block : AssistantContent N} (at_ : m.content[i]? = some block) :
    eventBlock ev i m = .ok block := by
  rw [eventBlock, assertContentIndex_ok fits, ok_bind, at_]

theorem startBlock_ok (fits : i ≤ MAX_SAFE_INTEGER) (fresh : encoder.blocks.get? i = none)
    (s : EncoderBlockState) :
    encoder.startBlock i s = .ok { encoder with blocks := encoder.blocks.set i s } := by
  have absent : encoder.blocks.contains i = false := by rw [contains, fresh]; rfl
  rw [startBlock, assertContentIndex_ok fits, ok_bind, absent, if_neg Bool.false_ne_true]

section

variable (fits : i ≤ MAX_SAFE_INTEGER) {s : EncoderBlockState}
  (at_ : encoder.blocks.get? i = some s)

include fits at_

theorem block_ok : encoder.block i s.kind = .ok s := by
  rw [block, assertContentIndex_ok fits, ok_bind, at_]
  simp

theorem endBlock_ok :
    encoder.endBlock i s.kind = .ok { encoder with blocks := encoder.blocks.erase i } := by
  rw [endBlock, block_ok fits at_, ok_bind]

end

variable (parseStreamingJson : Units → Json N)

def openedState (parseStreamingJson : Units → Json N) : AssistantContent N → EncoderBlockState
  | .text content => .chars .text content.text.length 0
  | .thinking content => .chars .thinking content.thinking.length 0
  | .toolCall content =>
    let snapshotArguments := serializedArguments content.arguments
    let caughtUp := snapshotArguments = serializedArguments (parseStreamingJson [])
    .toolCall caughtUp [] (if caughtUp then [] else snapshotArguments)

def startFrame (contentIndex : Nat) : AssistantContent N → AssistantMessageFrame N
  | .text content => .textStart contentIndex content
  | .thinking content => .thinkingStart contentIndex content
  | .toolCall content => .toolcallStart contentIndex content

theorem encode_start (fits : i ≤ MAX_SAFE_INTEGER) {content : AssistantContent N}
    (at_ : m.content[i]? = some content) (fresh : encoder.blocks.get? i = none) :
    encoder.encodeBlockEvent parseStreamingJson (startEvent content.kind i) m =
      .ok ({ encoder with blocks := encoder.blocks.set i (openedState parseStreamingJson content) },
        some (startFrame i content)) := by
  cases content with
  | text content =>
    rw [kind, startEvent, encodeBlockEvent, eventBlock_ok _ fits at_, ok_bind]
    simp only [startBlock_ok fits fresh, ok_bind]
    rfl
  | thinking content =>
    rw [kind, startEvent, encodeBlockEvent, eventBlock_ok _ fits at_, ok_bind]
    simp only [startBlock_ok fits fresh, ok_bind]
    rfl
  | toolCall content =>
    rw [kind, startEvent, encodeBlockEvent, eventBlock_ok _ fits at_, ok_bind]
    simp only [startBlock_ok fits fresh, ok_bind]
    rfl

def deltaFrame (kind : CharKind) (contentIndex : Nat) (delta : Units) : AssistantMessageFrame N :=
  match kind with
  | .text => .textDelta contentIndex delta
  | .thinking => .thinkingDelta contentIndex delta

theorem encode_delta (fits : i ≤ MAX_SAFE_INTEGER) {kind : CharKind} {coveredChars deltaChars : Nat}
    (at_ : encoder.blocks.get? i = some (.chars kind coveredChars deltaChars)) (delta : Units) :
    encoder.encodeBlockEvent parseStreamingJson (deltaEvent (.chars kind) i delta)
        m =
      .ok ({ encoder with
          blocks := encoder.blocks.set i (.chars kind coveredChars (deltaChars + delta.length)) },
        (uncovered coveredChars deltaChars delta).map (deltaFrame kind i)) := by
  have s := block_ok fits at_
  cases kind with
  | text =>
    show encoder.encodeTextDelta i delta .text = _
    rw [encodeTextDelta, show BlockKind.chars .text =
      (EncoderBlockState.chars .text coveredChars deltaChars).kind from rfl, s]
    rfl
  | thinking =>
    show encoder.encodeTextDelta i delta .thinking = _
    rw [encodeTextDelta, show BlockKind.chars .thinking =
      (EncoderBlockState.chars .thinking coveredChars deltaChars).kind from rfl, s]
    rfl

theorem encode_toolcallDelta (fits : i ≤ MAX_SAFE_INTEGER) {caughtUp : Bool}
    {catchupJson snapshotArguments : Units}
    (at_ : encoder.blocks.get? i = some (.toolCall caughtUp catchupJson snapshotArguments))
    (delta : Units) :
    ∃ blocks frame, encoder.encodeBlockEvent parseStreamingJson (.toolcallDelta i delta) m =
        .ok ({ encoder with blocks := blocks }, frame) ∧
      (∃ caughtUp json snapshot, blocks.get? i = some (.toolCall caughtUp json snapshot)) ∧
      (∀ j, i ≠ j → blocks.get? j = encoder.blocks.get? j) ∧
      (frame = none ∨ (∃ json, frame = some (.toolcallCheckpoint i json)) ∨
        frame = some (.toolcallDelta i delta)) := by
  have s := block_ok fits at_
  have kind : (EncoderBlockState.toolCall caughtUp catchupJson snapshotArguments).kind =
    BlockKind.toolCall := rfl
  rw [kind] at s
  rw [encodeBlockEvent, encodeToolcallDelta, s, ok_bind]
  simp only
  split
  · refine ⟨encoder.blocks, _, rfl, ⟨_, _, _, at_⟩, fun _ _ => rfl, ?_⟩
    by_cases empty : delta = []
    · exact .inl (if_pos empty)
    · exact .inr (.inr (if_neg empty))
  · split
    · refine ⟨_, _, rfl, ⟨_, _, _, get?_set_self _ _ _⟩,
        fun j apart => get?_set_of_ne _ _ apart, ?_⟩
      by_cases empty : catchupJson ++ delta = []
      · exact .inl (if_pos empty)
      · exact .inr (.inl ⟨_, if_neg empty⟩)
    · exact ⟨_, _, rfl, ⟨_, _, _, get?_set_self _ _ _⟩,
        fun j apart => get?_set_of_ne _ _ apart, .inl rfl⟩

def endFrame (contentIndex : Nat) : AssistantContent N → AssistantMessageFrame N
  | .text content => .textEnd contentIndex content.text content.textSignature
  | .thinking content =>
    .thinkingEnd contentIndex content.thinking content.thinkingSignature content.redacted
  | .toolCall content =>
    .toolcallEnd contentIndex content.id content.name content.arguments content.thoughtSignature
      content.toolNamespace

/-- What a live block can end as: itself, or the tool call of the event. -/
def EndsAs (live final : AssistantContent N) : Prop :=
  final = live ∨ ∃ call finalCall, live = .toolCall call ∧ final = .toolCall finalCall

theorem encode_end (fits : i ≤ MAX_SAFE_INTEGER) {s : EncoderBlockState}
    (at_ : encoder.blocks.get? i = some s) {live final : AssistantContent N}
    (atLive : m.content[i]? = some live) (kinds : s.kind = live.kind) (ends : EndsAs live final) :
    encoder.encodeBlockEvent parseStreamingJson (endEvent final i) m =
      .ok ({ encoder with blocks := encoder.blocks.erase i }, some (endFrame i final)) := by
  have closed := endBlock_ok fits at_
  rw [kinds] at closed
  rcases ends with rfl | ⟨call, finalCall, rfl, rfl⟩
  · cases final with
    | text content =>
      rw [endEvent, encodeBlockEvent, eventBlock_ok _ fits atLive, ok_bind]
      simp only [kind] at closed
      simp only [closed, ok_bind]
      rfl
    | thinking content =>
      rw [endEvent, encodeBlockEvent, eventBlock_ok _ fits atLive, ok_bind]
      simp only [kind] at closed
      simp only [closed, ok_bind]
      rfl
    | toolCall content =>
      rw [endEvent, encodeBlockEvent, eventBlock_ok _ fits atLive, ok_bind]
      simp only [kind] at closed
      simp only [closed, ok_bind]
      rfl
  · rw [endEvent, encodeBlockEvent, eventBlock_ok _ fits atLive, ok_bind]
    simp only [kind] at closed
    simp only [closed, ok_bind]
    rfl

end

section

variable {reduction : Reduction N} {m : AssistantMessage N} {i : Nat}
  (parseStreamingJson : Units → Json N)

omit [JsonNumber N] [DecidableEq N]

def openedReducer : AssistantContent N → ReducerBlockState
  | .text _ => .chars .text false
  | .thinking _ => .chars .thinking false
  | .toolCall _ => .toolCall false []

theorem reduce_start (fits : m.content.length ≤ MAX_SAFE_INTEGER) (content : AssistantContent N) :
    reduction.reduceBlockFrame parseStreamingJson m
        (startFrame m.content.length content) =
      .ok { reduction with
        message := some { m with content := m.content ++ [content] }
        states := reduction.states.set m.content.length (openedReducer content) } := by
  have appended (s : ReducerBlockState) :
      reduction.appendBlock m m.content.length content s =
        .ok { reduction with
          message := some { m with content := m.content ++ [content] }
          states := reduction.states.set m.content.length s } := by
    rw [appendBlock, assertContentIndex_ok fits, ok_bind, if_neg (by simp)]
  cases content with
  | text content => exact appended _
  | thinking content => exact appended _
  | toolCall content => exact appended _

section

variable (fits : i ≤ MAX_SAFE_INTEGER) {s : ReducerBlockState} {content : AssistantContent N}

include fits

theorem activeBlock_ok {kind : BlockKind} (atState : reduction.states.get? i = some s)
    (at_ : m.content[i]? = some content) (stateKind : s.kind = kind)
    (contentKind : content.kind = kind) (isOpen : s.ended = false) (frameType : String) :
    reduction.activeBlock m i kind frameType = .ok (content, s) := by
  rw [activeBlock, assertContentIndex_ok fits, ok_bind, atState, at_]
  simp [stateKind, contentKind, isOpen]

theorem reduce_delta {kind : CharKind} (atState : reduction.states.get? i = some s)
    (at_ : m.content[i]? = some content) (stateKind : s.kind = .chars kind)
    (contentKind : content.kind = .chars kind) (isOpen : s.ended = false) (delta : Units) :
    reduction.reduceBlockFrame parseStreamingJson m (deltaFrame kind i delta) =
      .ok (reduction.put m i (extend content delta .null) s) := by
  have active := activeBlock_ok fits atState at_ stateKind contentKind isOpen
  cases content with
  | text content =>
    cases contentKind
    rw [deltaFrame, reduceBlockFrame, active, ok_bind]
    rfl
  | thinking content =>
    cases contentKind
    rw [deltaFrame, reduceBlockFrame, active, ok_bind]
    rfl
  | toolCall content => cases contentKind

theorem reduce_toolcall (atState : reduction.states.get? i = some s)
    (at_ : m.content[i]? = some content) (stateKind : s.kind = .toolCall)
    (contentKind : content.kind = .toolCall) (isOpen : s.ended = false)
    {frame : AssistantMessageFrame N}
    (isFrame : (∃ json, frame = .toolcallCheckpoint i json) ∨ ∃ delta, frame = .toolcallDelta i delta) :
    ∃ after reducer, reduction.reduceBlockFrame parseStreamingJson m frame =
        .ok (reduction.put m i after reducer) ∧
      after.kind = .toolCall ∧ reducer.kind = .toolCall ∧ reducer.ended = false := by
  have active := activeBlock_ok fits atState at_ stateKind contentKind isOpen
  cases content with
  | text content => cases contentKind
  | thinking content => cases contentKind
  | toolCall content =>
    cases s with
    | chars kind ended => cases stateKind
    | toolCall ended json =>
      rcases isFrame with ⟨checkpoint, rfl⟩ | ⟨delta, rfl⟩
      · rw [reduceBlockFrame, active, ok_bind]
        exact ⟨_, _, rfl, rfl, rfl, isOpen⟩
      · rw [reduceBlockFrame, active, ok_bind]
        exact ⟨_, _, rfl, rfl, rfl, isOpen⟩

theorem reduce_end (atState : reduction.states.get? i = some s)
    (at_ : m.content[i]? = some content) (stateKind : s.kind = content.kind)
    (isOpen : s.ended = false) {final : AssistantContent N} (kinds : final.kind = content.kind) :
    reduction.reduceBlockFrame parseStreamingJson m (endFrame i final) =
      .ok (reduction.put m i final s.markEnded) := by
  have active := activeBlock_ok fits atState at_ stateKind rfl isOpen
  cases content with
  | text content =>
    cases final with
    | text final =>
      rw [endFrame, reduceBlockFrame]
      simp only [kind] at active
      rw [active, ok_bind]
    | _ => cases kinds
  | thinking content =>
    cases final with
    | thinking final =>
      rw [endFrame, reduceBlockFrame]
      simp only [kind] at active
      rw [active, ok_bind]
    | _ => cases kinds
  | toolCall content =>
    cases final with
    | toolCall final =>
      rw [endFrame, reduceBlockFrame]
      simp only [kind] at active
      rw [active, ok_bind]
    | _ => cases kinds

end

end

section

variable {changed : Bool} {view next : Outline} {stream : AssistantStream N}
  {encoder : AssistantMessageFrameEncoder} {reduction : Reduction N} {m : AssistantMessage N}
  (parseStreamingJson : Units → Json N) {i : Nat}

/-- The event is encoded, its frame reduced, and the blocks are replayed as before. -/
def Kept (parseStreamingJson : Units → Json N) (changed : Bool) (next : Outline)
    (stream : AssistantStream N) (encoder : AssistantMessageFrameEncoder) (reduction : Reduction N)
    (event : AssistantMessageEvent N) : Prop :=
  ∃ blocks frame reduced m,
    encoder.encodeBlockEvent parseStreamingJson event stream.message =
      .ok ({ encoder with blocks := blocks }, frame) ∧
    run (Reduction.reduceFrame parseStreamingJson) reduction frame.toList = .ok reduced ∧
    reduced.frameBeforeStart = reduction.frameBeforeStart ∧ reduced.message = some m ∧
    Replays changed next.blocks stream.message.content blocks reduced.states m.content

section

omit [JsonNumber N] [DecidableEq N]

theorem run_blockFrame (atMessage : reduction.message = some m) {frame : AssistantMessageFrame N}
    (notStart : ∀ first, frame ≠ .start first) {reduced : Reduction N}
    (reduces : reduction.reduceBlockFrame parseStreamingJson m frame = .ok reduced) :
    run (reduceFrame parseStreamingJson) reduction (some frame).toList = .ok reduced := by
  have single : reduceFrame parseStreamingJson reduction frame = .ok reduced := by
    rw [← reduces]
    cases frame with
    | start first => exact absurd rfl (notStart first)
    | _ => simp only [reduceFrame, atMessage]
  exact run_cons_ok single []

theorem live_at (grows : Outline.Grows next stream.outline) {block : BlockOutline}
    (at_ : next.blocks[i]? = some block) :
    ∃ live : LiveBlock N, stream.blocks[i]? = some live ∧
      stream.message.content[i]? = some live.content ∧ Outline.Later block live.outline := by
  obtain ⟨last, atLast, later⟩ := grows i block at_
  rw [AssistantStream.outline, getElem?_map] at atLast
  obtain ⟨live, atLive, rfl⟩ := Option.map_eq_some_iff.mp atLast
  refine ⟨live, atLive, ?_, later⟩
  rw [AssistantStream.message, getElem?_map, atLive]
  rfl

theorem index_fits (fits : stream.blocks.length ≤ AssistantStream.MAX_ARRAY_LENGTH)
    {live : LiveBlock N} (at_ : stream.blocks[i]? = some live) : i ≤ MAX_SAFE_INTEGER := by
  have inside := (List.getElem?_eq_some_iff.mp at_).1
  have bound : AssistantStream.MAX_ARRAY_LENGTH ≤ MAX_SAFE_INTEGER := by decide
  omega

end

theorem kept_start (replays : Replays changed view.blocks stream.message.content encoder.blocks
      reduction.states m.content)
    (atMessage : reduction.message = some m) (grows : Outline.Grows next stream.outline)
    (fits : stream.blocks.length ≤ AssistantStream.MAX_ARRAY_LENGTH) {kind : BlockKind}
    (opened : view.openBlock kind i = some next) :
    Kept parseStreamingJson changed next stream encoder reduction (startEvent kind i) := by
  obtain ⟨_, rfl, rfl⟩ := openBlock_eq opened
  obtain ⟨live, atLive, atContent, sameKind, _, _⟩ :=
    live_at grows (getElem?_concat_length)
  obtain ⟨content, ended⟩ := live
  have sameKind : content.kind = kind := sameKind
  have small := index_fits fits atLive
  have encodes := encode_start parseStreamingJson small atContent (replays.fresh _ (Nat.le_refl _)).1
  have reduces := @reduce_start N reduction m parseStreamingJson
    (by rw [replays.length]; exact small) content
  rw [replays.length] at reduces
  rw [sameKind] at encodes
  refine ⟨_, _, _, _, encodes, run_blockFrame parseStreamingJson atMessage ?_ reduces, rfl, rfl, ?_⟩
  · intro first same
    cases content <;> cases same
  · apply replays.append atContent
    apply BlockReplay.opened rfl
    subst sameKind
    cases content with
    | text content =>
      refine ⟨rfl, rfl, rfl, rfl, ?_⟩
      intro kind coveredChars deltaChars same
      cases same
      simp [chars]
    | thinking content =>
      refine ⟨rfl, rfl, rfl, rfl, ?_⟩
      intro kind coveredChars deltaChars same
      cases same
      simp [chars]
    | toolCall content =>
      refine ⟨rfl, rfl, rfl, rfl, ?_⟩
      intro kind coveredChars deltaChars same
      cases same

omit [JsonNumber N] [DecidableEq N] in
theorem take_uncovered {seen delta live : Units} {coveredChars : Nat} (inside : seen ++ delta <+: live) :
    live.take (max coveredChars seen.length) ++
        (uncovered coveredChars seen.length delta).getD [] =
      live.take (max coveredChars (seen.length + delta.length)) := by
  obtain ⟨rest, rfl⟩ := inside
  unfold uncovered
  dsimp only
  split
  · rename_i covered
    rw [Option.getD_none, append_nil]
    by_cases ahead : coveredChars ≤ seen.length
    · have empty : delta.length = 0 := by omega
      rw [empty, Nat.add_zero]
    · rw [Nat.max_eq_left (by omega), Nat.max_eq_left (by omega)]
  · rename_i uncovered
    rw [Option.getD_some, Nat.max_eq_right (by omega : coveredChars ≤ seen.length + delta.length),
      ← length_append, take_left, append_assoc, take_append,
      take_of_length_le (Nat.le_max_right _ _), take_append_of_le_length (by omega),
      append_assoc, show max coveredChars seen.length - seen.length =
        coveredChars - seen.length by omega, take_append_drop]

section

variable (replays : Replays changed view.blocks stream.message.content encoder.blocks
  reduction.states m.content)

include replays

section

variable (atMessage : reduction.message = some m) (grows : Outline.Grows next stream.outline)
  (fits : stream.blocks.length ≤ AssistantStream.MAX_ARRAY_LENGTH)

include atMessage grows fits

theorem kept_delta {kind : CharKind} {i : Nat}
    {delta : Units} (amended : view.amend (.chars kind) i (grow delta) = some next) :
    Kept parseStreamingJson changed next stream encoder reduction
      (deltaEvent (.chars kind) i delta) := by
  obtain ⟨block, grown, _, at_, isKind, isOpen, isGrown, rfl⟩ := amend_eq amended
  cases isGrown
  have inside := (List.getElem?_eq_some_iff.mp at_).1
  obtain ⟨live, atLive, atContent, _, extends_, _⟩ := live_at grows (List.getElem?_set_self inside)
  have small := index_fits fits atLive
  obtain ⟨liveBlock, reducer, reduced, atBlock, atState, atReduced, replay⟩ := replays.block i block at_
  rw [atContent] at atBlock
  cases atBlock
  obtain ⟨s, atEncoder, opening⟩ := replay.isOpen isOpen
  have stateKind := opening.encoderKind.trans isKind
  cases s with
  | toolCall caughtUp json snapshot => cases stateKind
  | chars charKind coveredChars deltaChars =>
    cases stateKind
    obtain ⟨rfl, _, taken⟩ := opening.chars kind coveredChars deltaChars rfl
    have encodes := @encode_delta N _ _ _ stream.message i parseStreamingJson small _ _ _ atEncoder delta
    have contentKind := opening.contentKind.trans isKind
    have extends_ : block.chars ++ delta <+: live.content.chars := extends_
    have longer : (block.chars ++ delta).length ≤ live.content.chars.length := extends_.length_le
    rw [List.length_append] at longer
    have covers := @take_uncovered _ _ _ coveredChars extends_
    have replayAfter {after : AssistantContent N} (sameKind : after.kind = reduced.kind)
        (chars : after.chars =
          live.content.chars.take (max coveredChars (block.chars.length + delta.length))) :
        BlockReplay changed { block with chars := block.chars ++ delta } live.content
          (some (.chars kind coveredChars (block.chars.length + delta.length))) reducer after := by
      refine BlockReplay.opened isOpen ⟨isKind.symm, opening.reducerKind,
        sameKind.trans opening.contentKind, opening.isOpen, ?_⟩
      intro charKind covered deltas same
      cases same
      exact ⟨(List.length_append).symm, by omega, chars⟩
    have others (j : Nat) (apart : i ≠ j) : (encoder.blocks.set i
        (.chars kind coveredChars (block.chars.length + delta.length))).get? j =
          encoder.blocks.get? j := get?_set_of_ne _ _ apart
    cases left : uncovered coveredChars block.chars.length delta with
    | none =>
      rw [left] at encodes covers
      refine ⟨_, none, reduction, m, encodes, rfl, rfl, atMessage, ?_⟩
      apply replays.setEncoder inside others atContent atState atReduced
      rw [get?_set_self]
      apply replayAfter rfl
      rw [taken, ← covers, Option.getD_none, List.append_nil]
    | some tail =>
      rw [left] at encodes covers
      have reduces := @reduce_delta N reduction m i parseStreamingJson small _ _ _ atState
        atReduced (opening.reducerKind.trans isKind) contentKind opening.isOpen tail
      refine ⟨_, _, _, _, encodes, run_blockFrame parseStreamingJson atMessage ?_ reduces, rfl, rfl, ?_⟩
      · intro first same
        cases kind <;> cases same
      · apply replays.set inside atContent others
        rw [get?_set_self]
        have extended := extend_outline { content := reduced, ended := false } tail (.null : Json N)
        apply replayAfter extended.1
        rw [extended.2, contentKind, if_neg (by simp), taken, ← covers, Option.getD_some]

theorem kept_toolcallDelta {i : Nat} (delta : Units)
    (amended : view.amend .toolCall i (grow []) = some next) :
    Kept parseStreamingJson changed next stream encoder reduction (.toolcallDelta i delta) := by
  obtain ⟨block, grown, _, at_, isKind, isOpen, isGrown, rfl⟩ := amend_eq amended
  cases isGrown
  have inside := (List.getElem?_eq_some_iff.mp at_).1
  obtain ⟨live, atLive, atContent, _⟩ := live_at grows (List.getElem?_set_self inside)
  have small := index_fits fits atLive
  obtain ⟨liveBlock, reducer, reduced, atBlock, atState, atReduced, replay⟩ := replays.block i block at_
  rw [atContent] at atBlock
  cases atBlock
  obtain ⟨s, atEncoder, opening⟩ := replay.isOpen isOpen
  have stateKind := opening.encoderKind.trans isKind
  cases s with
  | chars charKind coveredChars deltaChars => cases stateKind
  | toolCall caughtUp json snapshot =>
    obtain ⟨blocks, frame, encodes, ⟨caughtUp, json, snapshot, atAfter⟩, others, isFrame⟩ :=
      @encode_toolcallDelta N _ _ _ stream.message i parseStreamingJson small _ _ _ atEncoder delta
    have replayAfter {after : AssistantContent N} {reducerAfter : ReducerBlockState}
        (sameKind : after.kind = .toolCall) (reducerKind : reducerAfter.kind = .toolCall)
        (reducerOpen : reducerAfter.ended = false) :
        BlockReplay changed { block with chars := block.chars ++ [] } live.content (blocks.get? i)
          reducerAfter after := by
      rw [atAfter]
      refine BlockReplay.opened isOpen ⟨isKind.symm, reducerKind.trans isKind.symm,
        sameKind.trans isKind.symm, reducerOpen, ?_⟩
      intro charKind covered deltas same
      cases same
    have contentKind := opening.contentKind.trans isKind
    have reducerKind := opening.reducerKind.trans isKind
    have silent : frame = none → Kept parseStreamingJson changed
        { view with blocks := view.blocks.set i { block with chars := block.chars ++ [] } } stream
        encoder reduction (.toolcallDelta i delta) := by
      rintro rfl
      exact ⟨_, none, reduction, m, encodes, rfl, rfl, atMessage,
        replays.setEncoder inside others atContent atState atReduced
          (replayAfter contentKind reducerKind opening.isOpen)⟩
    have spoken (frameSome : AssistantMessageFrame N) (same : frame = some frameSome)
        (progress : (∃ json, frameSome = .toolcallCheckpoint i json) ∨
          ∃ delta, frameSome = .toolcallDelta i delta) :
        Kept parseStreamingJson changed
          { view with blocks := view.blocks.set i { block with chars := block.chars ++ [] } } stream
          encoder reduction (.toolcallDelta i delta) := by
      subst same
      obtain ⟨after, reducerAfter, reduces, afterKind, reducerAfterKind, reducerOpen⟩ :=
        @reduce_toolcall N reduction m i parseStreamingJson small _ _ atState atReduced
          reducerKind contentKind opening.isOpen _ progress
      refine ⟨_, _, _, _, encodes, run_blockFrame parseStreamingJson atMessage ?_ reduces, rfl, rfl, ?_⟩
      · intro first same
        rcases progress with ⟨json, rfl⟩ | ⟨delta, rfl⟩ <;> cases same
      · exact replays.set inside atContent others
          (replayAfter afterKind reducerAfterKind reducerOpen)
    rcases isFrame with none_ | ⟨json, same⟩ | same
    · exact silent none_
    · exact spoken _ same (.inl ⟨json, rfl⟩)
    · exact spoken _ same (.inr ⟨delta, rfl⟩)

theorem kept_end {kind : BlockKind} {i : Nat}
    {change : BlockOutline → Option BlockOutline} {final : AssistantContent N}
    (amended : view.amend kind i change = some next)
    (ending : ∀ block after, change block = some after → after.ended = true ∧ after.kind = block.kind)
    (ends : ∀ live : LiveBlock N, stream.blocks[i]? = some live → live.content.kind = kind →
      EndsAs live.content final ∧ (changed = false → final = live.content)) :
    Kept parseStreamingJson changed next stream encoder reduction (endEvent final i) := by
  obtain ⟨block, after, _, at_, isKind, isOpen, isChange, rfl⟩ := amend_eq amended
  obtain ⟨isEnded, sameKind⟩ := ending block after isChange
  have inside := (List.getElem?_eq_some_iff.mp at_).1
  obtain ⟨live, atLive, atContent, _, _, stays⟩ := live_at grows (List.getElem?_set_self inside)
  have small := index_fits fits atLive
  have settled := stays isEnded
  have liveKind : live.content.kind = kind := by
    have same := congrArg BlockOutline.kind settled
    exact same.trans (sameKind.trans isKind)
  obtain ⟨endsAs, unchanged⟩ := ends live atLive liveKind
  obtain ⟨liveBlock, reducer, reduced, atBlock, atState, atReduced, replay⟩ := replays.block i block at_
  rw [atContent] at atBlock
  cases atBlock
  obtain ⟨s, atEncoder, opening⟩ := replay.isOpen isOpen
  have encodes := @encode_end N _ _ _ stream.message i parseStreamingJson small _ atEncoder _ final
    atContent (opening.encoderKind.trans (isKind.trans liveKind.symm)) endsAs
  have finalKind : final.kind = live.content.kind := by
    rcases endsAs with rfl | ⟨call, finalCall, same, rfl⟩
    · rfl
    · rw [same]
      rfl
  have reduces := @reduce_end N reduction m i parseStreamingJson small _ _ atState atReduced
    (opening.reducerKind.trans opening.contentKind.symm) opening.isOpen final
    (finalKind.trans (liveKind.trans (isKind.symm.trans opening.contentKind.symm)))
  refine ⟨_, _, _, _, encodes, run_blockFrame parseStreamingJson atMessage ?_ reduces, rfl, rfl, ?_⟩
  · intro first same
    cases final <;> cases same
  · apply replays.set inside atContent
    · exact fun j apart => get?_erase_of_ne _ apart
    · constructor
      · intro stillOpen
        rw [isEnded] at stillOpen
        cases stillOpen
      · intro _
        refine ⟨get?_erase_self _ _, ?_, unchanged⟩
        cases reducer <;> rfl

end

end

theorem kept_finish (replays : Replays changed view.blocks stream.message.content encoder.blocks
      reduction.states m.content)
    (atMessage : reduction.message = some m) (grows : Outline.Grows next stream.outline)
    (fits : stream.blocks.length ≤ AssistantStream.MAX_ARRAY_LENGTH) {kind : CharKind}
    {content : Units} (amended : view.amend (.chars kind) i (finish content) = some next) :
    ∃ final : AssistantContent N, final.kind = .chars kind ∧ final.chars = content ∧
      Kept parseStreamingJson changed next stream encoder reduction (endEvent final i) := by
  obtain ⟨block, after, _, at_, isKind, _, isChange, rfl⟩ := amend_eq amended
  obtain ⟨sameChars, rfl⟩ := finish_eq isChange
  have inside := (List.getElem?_eq_some_iff.mp at_).1
  obtain ⟨live, atLive, _, _, _, stays⟩ := live_at grows (List.getElem?_set_self inside)
  have settled := stays rfl
  have liveKind : live.content.kind = .chars kind := (congrArg BlockOutline.kind settled).trans isKind
  have liveChars : live.content.chars = content :=
    (congrArg BlockOutline.chars settled).trans sameChars.symm
  refine ⟨live.content, liveKind, liveChars, ?_⟩
  apply kept_end parseStreamingJson replays atMessage grows fits amended
  · intro other changed isFinish
    obtain ⟨_, rfl⟩ := finish_eq isFinish
    exact ⟨rfl, rfl⟩
  · intro other atOther _
    rw [atLive] at atOther
    cases atOther
    exact ⟨.inl rfl, fun _ => rfl⟩

end

end Trpi.Ai
