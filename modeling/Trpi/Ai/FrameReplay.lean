import Trpi.Ai.BlockReplay
import Trpi.Library.JsonInt
import Trpi.Library.Machine

/-!
# Replay of assistant frames

A producer and an encoder that reads its events later. Whatever the schedule, the frames
encoded so far reduce to the blocks begun so far: an open block has the characters of its
snapshot or of the deltas read, whichever are more, and a block whose end has been read
is the live block, unless that is changed after its end.
-/

namespace Trpi.Ai

open Library Outline AssistantStream AssistantMessageFrameEncoder Reduction List
open Library.Utf16 (Units)

variable {N : Type} [JsonNumber N] [DecidableEq N]

structure FrameRun (N : Type) where
  stream : AssistantStream N
  queue : List (AssistantMessageEvent N)
  encoder : AssistantMessageFrameEncoder
  encoded : List (AssistantMessageEvent N)
  frames : List (AssistantMessageFrame N)
  failure : Option String
  changed : Bool

inductive FrameStep (N : Type) where
  | produce (production : Production N)
  | encode

/-- The producer pushes events; the encoder reads the next one, with the live message as
it is then. -/
def frameMachine (parseStreamingJson : Units → Json N) : Machine (FrameRun N) (FrameStep N) where
  start run := run.stream.started = false ∧ run.stream.terminal = false ∧ run.stream.blocks = [] ∧
    run.queue = [] ∧ run.encoder = .create ∧ run.encoded = [] ∧ run.frames = [] ∧
    run.failure = none ∧ run.changed = false
  step run step :=
    match step with
    | .produce production =>
      (run.stream.produce production).map fun (stream, ev) =>
        { run with
          stream := stream
          queue := run.queue ++ ev.toList
          changed := run.changed || run.stream.changesEnded production }
    | .encode =>
      match run.queue with
      | [] => none
      | ev :: queue =>
        match run.encoder.encode parseStreamingJson ev run.stream.message with
        | .error reason => some { run with queue := queue, failure := some reason }
        | .ok (encoder, frame) =>
          some { run with
            queue := queue
            encoder := encoder
            encoded := run.encoded ++ [ev]
            frames := run.frames ++ frame.toList }

def encodedDeltas (contentIndex : Nat) (events : List (AssistantMessageEvent N)) : Units :=
  events.flatMap fun ev =>
    match ev with
    | .textDelta i delta => if i = contentIndex then delta else []
    | .thinkingDelta i delta => if i = contentIndex then delta else []
    | _ => []

def hasEnded (contentIndex : Nat) (events : List (AssistantMessageEvent N)) : Bool :=
  events.any fun ev =>
    match ev with
    | .textEnd i _ => i = contentIndex
    | .thinkingEnd i _ => i = contentIndex
    | .toolcallEnd i _ => i = contentIndex
    | _ => false

section

omit [JsonNumber N] [DecidableEq N]

/-- The outline of the events read so far has their deltas and ends. -/
def Records (outline : Outline) (events : List (AssistantMessageEvent N)) : Prop :=
  ∀ i, (outline.blocks[i]?.elim [] BlockOutline.chars) = encodedDeltas i events ∧
    (outline.blocks[i]?.any BlockOutline.ended) = hasEnded i events

theorem encodedDeltas_append (i : Nat) (first second : List (AssistantMessageEvent N)) :
    encodedDeltas i (first ++ second) = encodedDeltas i first ++ encodedDeltas i second :=
  flatMap_append

theorem hasEnded_append (i : Nat) (first second : List (AssistantMessageEvent N)) :
    hasEnded i (first ++ second) = (hasEnded i first || hasEnded i second) := any_append

variable {outline next : Outline} {events : List (AssistantMessageEvent N)}
  {ev : AssistantMessageEvent N}

section

variable (records : Records outline events) {contentIndex : Nat} {kind : BlockKind}

include records

theorem Records.openBlock (opened : outline.openBlock kind contentIndex = some next)
    (noDelta : ∀ i, encodedDeltas i [ev] = []) (noEnd : ∀ i, hasEnded i [ev] = false) :
    Records next (events ++ [ev]) := by
  obtain ⟨_, _, rfl⟩ := openBlock_eq opened
  intro i
  rw [encodedDeltas_append, hasEnded_append, noDelta, noEnd, ← (records i).1, ← (records i).2,
    append_nil, Bool.or_false, getElem?_append]
  by_cases inside : i < outline.blocks.length
  · simp [inside]
  · have absent : outline.blocks[i]? = none := getElem?_eq_none (Nat.not_lt.mp inside)
    rw [if_neg inside, absent]
    cases i - outline.blocks.length <;> exact ⟨rfl, rfl⟩

theorem Records.amend
    {change : BlockOutline → Option BlockOutline}
    (amended : outline.amend kind contentIndex change = some next) {delta : Units} {ends : Bool}
    (deltas : ∀ i, encodedDeltas i [ev] = if contentIndex = i then delta else [])
    (ending : ∀ i, hasEnded i [ev] = (decide (contentIndex = i) && ends))
    (isChange : ∀ block changed, change block = some changed → block.ended = false →
      changed.chars = block.chars ++ delta ∧ changed.ended = ends) :
    Records next (events ++ [ev]) := by
  obtain ⟨block, changed, _, at_, _, isOpen, changes, rfl⟩ := amend_eq amended
  obtain ⟨chars, ended⟩ := isChange block changed changes isOpen
  have inside := (List.getElem?_eq_some_iff.mp at_).1
  intro i
  have before := records i
  rw [encodedDeltas_append, hasEnded_append, deltas, ending, ← before.1, ← before.2]
  by_cases same : contentIndex = i
  · subst same
    simp [List.getElem?_set_self inside, at_, chars, ended, isOpen]
  · simp [List.getElem?_set_ne same, same]

theorem Records.unchanged (same : next.blocks = outline.blocks)
    (noDelta : ∀ i, encodedDeltas i [ev] = []) (noEnd : ∀ i, hasEnded i [ev] = false) :
    Records next (events ++ [ev]) := by
  intro i
  rw [encodedDeltas_append, hasEnded_append, noDelta, noEnd, same, append_nil, Bool.or_false]
  exact records i

theorem Records.apply (applied : outline.apply ev = some next) : Records next (events ++ [ev]) := by
  have grows (delta : Units) (block changed : BlockOutline)
      (isChange : grow delta block = some changed) (isOpen : block.ended = false) :
      changed.chars = block.chars ++ delta ∧ changed.ended = false := by
    cases isChange
    exact ⟨rfl, isOpen⟩
  have finishes (content : Units) (block changed : BlockOutline)
      (isChange : finish content block = some changed) (_ : block.ended = false) :
      changed.chars = block.chars ++ [] ∧ changed.ended = true := by
    obtain ⟨_, rfl⟩ := finish_eq isChange
    exact ⟨(append_nil _).symm, rfl⟩
  cases ev with
  | textStart i => exact records.openBlock applied (fun _ => rfl) fun _ => rfl
  | thinkingStart i => exact records.openBlock applied (fun _ => rfl) fun _ => rfl
  | toolcallStart i => exact records.openBlock applied (fun _ => rfl) fun _ => rfl
  | textDelta i delta =>
    exact records.amend applied (by simp [encodedDeltas]) (by simp [hasEnded]) (grows delta)
  | thinkingDelta i delta =>
    exact records.amend applied (by simp [encodedDeltas]) (by simp [hasEnded]) (grows delta)
  | toolcallDelta i delta =>
    exact records.amend applied (by simp [encodedDeltas]) (by simp [hasEnded]) (grows [])
  | textEnd i content =>
    exact records.amend applied (by simp [encodedDeltas]) (by simp [hasEnded]) (finishes content)
  | thinkingEnd i content =>
    exact records.amend applied (by simp [encodedDeltas]) (by simp [hasEnded]) (finishes content)
  | toolcallEnd i toolCall =>
    have ends (block changed : BlockOutline) (isChange : some { block with ended := true } = some changed)
        (_ : block.ended = false) : changed.chars = block.chars ++ [] ∧ changed.ended = true := by
      cases isChange
      exact ⟨(append_nil _).symm, rfl⟩
    exact records.amend applied (by simp [encodedDeltas]) (by simp [hasEnded]) ends
  | start =>
    rw [apply] at applied
    split at applied
    · cases applied
      exact records.unchanged rfl (fun _ => rfl) fun _ => rfl
    · cases applied
  | done =>
    rw [apply] at applied
    split at applied
    · cases applied
      exact records.unchanged rfl (fun _ => rfl) fun _ => rfl
    · cases applied
  | error =>
    rw [apply] at applied
    split at applied
    · cases applied
      exact records.unchanged rfl (fun _ => rfl) fun _ => rfl
    · cases applied

end

end

/-- What holds at every moment, with the outline of the events read and the reduction of
the frames encoded. -/
structure Replaying (parseStreamingJson : Units → Json N) (s : FrameRun N) (view : Outline)
    (reduction : Reduction N) : Prop where
  healthy : s.failure = none
  queued : Outline.follow view s.queue = some s.stream.outline
  records : Records view s.encoded
  started : s.encoder.started = view.started
  terminal : s.encoder.terminal = view.terminal
  fits : s.stream.blocks.length ≤ AssistantStream.MAX_ARRAY_LENGTH
  toolEnds : ∀ i toolCall, .toolcallEnd i toolCall ∈ s.queue → s.changed = false →
    s.stream.blocks[i]? = some { content := .toolCall toolCall, ended := true }
  ran : run (Reduction.reduceFrame parseStreamingJson) .initial s.frames = .ok reduction
  quiet : reduction.frameBeforeStart = none
  begun : reduction.message.isSome = view.started
  replays : Replays s.changed view.blocks s.stream.message.content s.encoder.blocks
    reduction.states (reduction.message.elim [] AssistantMessage.content)

section

variable {parseStreamingJson : Units → Json N} {s : FrameRun N} {view : Outline}
  {reduction : Reduction N}

omit [JsonNumber N] [DecidableEq N] in
theorem Replaying.produce (replaying : Replaying parseStreamingJson s view reduction)
    {production : Production N} {stream : AssistantStream N} {ev : Option (AssistantMessageEvent N)}
    (produced : s.stream.produce production = some (stream, ev)) :
    Replaying parseStreamingJson
      { s with
        stream := stream
        queue := s.queue ++ ev.toList
        changed := s.changed || s.stream.changesEnded production } view reduction where
  healthy := replaying.healthy
  queued := by
    rw [follow_append, replaying.queued, Option.bind_some, produce_outline produced]
  records := replaying.records
  started := replaying.started
  terminal := replaying.terminal
  fits := produce_fits produced replaying.fits
  toolEnds := by
    intro i toolCall mem unchanged
    obtain ⟨before, now⟩ := Bool.or_eq_false_iff.mp unchanged
    rcases mem_append.mp mem with mem | mem
    · exact produce_ended produced now (replaying.toolEnds i toolCall mem before) rfl
    · cases ev with
      | none => cases mem
      | some ev =>
        cases mem_singleton.mp mem
        exact produce_toolcallEnd produced
  ran := replaying.ran
  quiet := replaying.quiet
  begun := replaying.begun
  replays := by
    apply replaying.replays.advance
    · intro before
      rw [before, Bool.true_or]
    · intro i block before at_ atBefore
      obtain ⟨live, atLive, atContent, later⟩ := live_at (follow_grows replaying.queued) at_
      rw [atContent] at atBefore
      cases atBefore
      obtain ⟨after, atAfter, atAfterContent, grown⟩ :=
        live_at (follow_grows (produce_outline produced)) (outline_at atLive)
      refine ⟨after.content, atAfterContent, grown.2.1, ?_⟩
      intro ended unchanged
      have liveEnded : live.ended = true :=
        (congrArg BlockOutline.ended (later.2.2 ended)).trans ended
      have same := produce_ended produced (Bool.or_eq_false_iff.mp unchanged).2 atLive
        liveEnded
      rw [atAfter] at same
      cases same
      rfl

def IsBlockEvent (ev : AssistantMessageEvent N) : Prop :=
  ev ≠ .start ∧ ev ≠ .done ∧ ev ≠ .error

variable {rest : List (AssistantMessageEvent N)} {next : Outline} {ev : AssistantMessageEvent N}
  {encoder : AssistantMessageFrameEncoder}

theorem Replaying.kept (replaying : Replaying parseStreamingJson s view reduction)
    (queue : s.queue = ev :: rest) (applied : view.apply ev = some next)
    (followed : follow next rest = some s.stream.outline) {m : AssistantMessage N}
    (atMessage : reduction.message = some m) (isBlock : IsBlockEvent ev) :
    Kept parseStreamingJson s.changed next s.stream s.encoder reduction ev := by
  have replays := replaying.replays
  rw [atMessage] at replays
  have grows := follow_grows followed
  have fits := replaying.fits
  cases ev with
  | start => exact absurd rfl isBlock.1
  | done => exact absurd rfl isBlock.2.1
  | error => exact absurd rfl isBlock.2.2
  | textStart i => exact kept_start parseStreamingJson replays atMessage grows fits applied
  | thinkingStart i => exact kept_start parseStreamingJson replays atMessage grows fits applied
  | toolcallStart i => exact kept_start parseStreamingJson replays atMessage grows fits applied
  | textDelta i delta => exact kept_delta parseStreamingJson replays atMessage grows fits applied
  | thinkingDelta i delta => exact kept_delta parseStreamingJson replays atMessage grows fits applied
  | toolcallDelta i delta =>
    exact kept_toolcallDelta parseStreamingJson replays atMessage grows fits delta applied
  | textEnd i content =>
    obtain ⟨final, kind, chars, kept⟩ :=
      kept_finish parseStreamingJson replays atMessage grows fits applied
    cases final with
    | text final => exact chars ▸ kept
    | _ => cases kind
  | thinkingEnd i content =>
    obtain ⟨final, kind, chars, kept⟩ :=
      kept_finish parseStreamingJson replays atMessage grows fits applied
    cases final with
    | thinking final => exact chars ▸ kept
    | _ => cases kind
  | toolcallEnd i toolCall =>
    apply @kept_end N _ _ _ _ _ _ _ _ _ parseStreamingJson replays atMessage grows fits _ _ _
      (.toolCall toolCall) applied
    · intro block after ended
      cases ended
      exact ⟨rfl, rfl⟩
    · intro live atLive kind
      constructor
      · right
        cases content : live.content with
        | toolCall call => exact ⟨call, toolCall, rfl, rfl⟩
        | text text =>
          rw [content] at kind
          cases kind
        | thinking thinking =>
          rw [content] at kind
          cases kind
      · intro unchanged
        have same := replaying.toolEnds i toolCall (queue ▸ mem_cons_self) unchanged
        rw [atLive] at same
        cases same
        rfl

omit [JsonNumber N] [DecidableEq N] in
theorem apply_blockEvent (isBlock : IsBlockEvent ev) (applied : view.apply ev = some next) :
    view.Running ∧ next.started = view.started ∧ next.terminal = view.terminal := by
  have opened {kind : BlockKind} {i : Nat} (isOpened : view.openBlock kind i = some next) :
      view.Running ∧ next.started = view.started ∧ next.terminal = view.terminal := by
    obtain ⟨running, _, rfl⟩ := openBlock_eq isOpened
    exact ⟨running, rfl, rfl⟩
  have amended {kind : BlockKind} {i : Nat} {change : BlockOutline → Option BlockOutline}
      (isAmended : view.amend kind i change = some next) :
      view.Running ∧ next.started = view.started ∧ next.terminal = view.terminal := by
    obtain ⟨_, _, running, _, _, _, _, rfl⟩ := amend_eq isAmended
    exact ⟨running, rfl, rfl⟩
  cases ev with
  | start => exact absurd rfl isBlock.1
  | done => exact absurd rfl isBlock.2.1
  | error => exact absurd rfl isBlock.2.2
  | textStart i => exact opened applied
  | thinkingStart i => exact opened applied
  | toolcallStart i => exact opened applied
  | textDelta i delta => exact amended applied
  | thinkingDelta i delta => exact amended applied
  | toolcallDelta i delta => exact amended applied
  | textEnd i content => exact amended applied
  | thinkingEnd i content => exact amended applied
  | toolcallEnd i toolCall => exact amended applied

theorem encode_blockEvent (isBlock : IsBlockEvent ev) (started : encoder.started = true)
    (terminal : encoder.terminal = false) (m : AssistantMessage N) :
    encoder.encode parseStreamingJson ev m = encoder.encodeBlockEvent parseStreamingJson ev m := by
  cases ev with
  | start => exact absurd rfl isBlock.1
  | done => exact absurd rfl isBlock.2.1
  | error => exact absurd rfl isBlock.2.2
  | _ => simp [encode, terminal, started]

omit [JsonNumber N] [DecidableEq N] in
/-- The parts that every event keeps, put together with those that depend on it. -/
theorem Replaying.read (replaying : Replaying parseStreamingJson s view reduction)
    (queue : s.queue = ev :: rest)
    (applied : view.apply ev = some next)
    (followed : follow next rest = some s.stream.outline)
    {frame : Option (AssistantMessageFrame N)}
    {reduced : Reduction N} (started : encoder.started = next.started)
    (terminal : encoder.terminal = next.terminal)
    (ran : run (reduceFrame parseStreamingJson) reduction frame.toList = .ok reduced)
    (quiet : reduced.frameBeforeStart = none) (begun : reduced.message.isSome = next.started)
    (replays : Replays s.changed next.blocks s.stream.message.content encoder.blocks
      reduced.states (reduced.message.elim [] AssistantMessage.content)) :
    Replaying parseStreamingJson
      { s with
        queue := rest
        encoder := encoder
        encoded := s.encoded ++ [ev]
        frames := s.frames ++ frame.toList } next reduced where
  healthy := replaying.healthy
  queued := followed
  records := replaying.records.apply applied
  started := started
  terminal := terminal
  fits := replaying.fits
  toolEnds := fun i toolCall mem =>
    replaying.toolEnds i toolCall (queue ▸ mem_cons_of_mem _ mem)
  ran := (run_append_ok replaying.ran frame.toList).trans ran
  quiet := quiet
  begun := begun
  replays := replays

/-- Reading an event. -/
theorem Replaying.encode (replaying : Replaying parseStreamingJson s view reduction)
    (queue : s.queue = ev :: rest) :
    ∃ encoder frame next reduced,
      s.encoder.encode parseStreamingJson ev s.stream.message = .ok (encoder, frame) ∧
      Replaying parseStreamingJson
        { s with
          queue := rest
          encoder := encoder
          encoded := s.encoded ++ [ev]
          frames := s.frames ++ frame.toList } next reduced := by
  have queued := replaying.queued
  rw [queue, follow] at queued
  cases applied : view.apply ev with
  | none =>
    rw [applied] at queued
    cases queued
  | some next =>
    rw [applied] at queued
    have followed : follow next rest = some s.stream.outline := queued
    have sameStarted := replaying.started
    have sameTerminal := replaying.terminal
    by_cases isBlock : IsBlockEvent ev
    · obtain ⟨running, keepsStarted, keepsTerminal⟩ := apply_blockEvent isBlock applied
      obtain ⟨m, atMessage⟩ := Option.isSome_iff_exists.mp (replaying.begun.trans running.1)
      obtain ⟨blocks, frame, reduced, after, encodes, ran, quiet, atAfter, replays⟩ :=
        replaying.kept queue applied followed atMessage isBlock
      refine ⟨{ s.encoder with blocks := blocks }, frame, next, reduced, ?_, ?_⟩
      · rw [encode_blockEvent isBlock (sameStarted.trans running.1) (sameTerminal.trans running.2)]
        exact encodes
      · apply replaying.read queue applied followed
        · exact sameStarted.trans keepsStarted.symm
        · exact sameTerminal.trans keepsTerminal.symm
        · exact ran
        · exact quiet.trans replaying.quiet
        · rw [atAfter, keepsStarted]
          exact running.1.symm
        · rw [atAfter]
          exact replays
    · cases ev with
      | start =>
        rw [apply] at applied
        split at applied
        · rename_i guards
          cases applied
          have absent : reduction.message = none := by
            rw [← Option.not_isSome_iff_eq_none, replaying.begun, guards.1]
            exact Bool.false_ne_true
          have replays := replaying.replays
          rw [absent] at replays
          refine ⟨{ s.encoder with started := true },
            some (.start (cloneStartMessage s.stream.message)), { view with started := true },
            { reduction with message := some (cloneStartMessage s.stream.message) }, ?_, ?_⟩
          · simp [AssistantMessageFrameEncoder.encode, sameTerminal.trans guards.2,
              sameStarted.trans guards.1]
          · apply replaying.read queue (if_pos guards) followed
            · rfl
            · exact sameTerminal
            · have first : reduceFrame parseStreamingJson reduction
                  (.start (cloneStartMessage s.stream.message)) =
                    .ok { reduction with message := some (cloneStartMessage s.stream.message) } := by
                simp only [reduceFrame, absent, replaying.quiet]
              exact run_cons_ok first []
            · exact replaying.quiet
            · rfl
            · exact replays
        · cases applied
      | done =>
        rw [apply] at applied
        split at applied
        · rename_i guards
          cases applied
          refine ⟨{ s.encoder with terminal := true }, none,
            { view with terminal := true }, reduction, ?_, ?_⟩
          · simp [AssistantMessageFrameEncoder.encode, sameTerminal.trans guards.2,
              sameStarted.trans guards.1]
          · exact replaying.read queue (if_pos guards) followed sameStarted rfl rfl replaying.quiet
              replaying.begun replaying.replays
        · cases applied
      | error =>
        rw [apply] at applied
        split at applied
        · rename_i guards
          cases applied
          refine ⟨{ s.encoder with terminal := true }, none,
            { view with terminal := true }, reduction, ?_, ?_⟩
          · simp [AssistantMessageFrameEncoder.encode, sameTerminal.trans guards]
          · exact replaying.read queue (if_pos guards) followed sameStarted rfl rfl replaying.quiet
              replaying.begun replaying.replays
        · cases applied
      | _ => exact absurd ⟨by simp, by simp, by simp⟩ isBlock

theorem replaying_inductive (parseStreamingJson : Units → Json N) :
    (frameMachine parseStreamingJson).Inductive (fun _ _ => True) fun s =>
      ∃ view reduction, Replaying parseStreamingJson s view reduction where
  start := by
    rintro s ⟨started, terminal, blocks, queue, encoder, encoded, frames, failure, changed⟩
    refine ⟨.initial, .initial, ?_⟩
    constructor
    · exact failure
    · rw [queue, outline, started, terminal, blocks]
      rfl
    · rw [encoded]
      exact fun _ => ⟨rfl, rfl⟩
    · rw [encoder]
      rfl
    · rw [encoder]
      rfl
    · rw [blocks]
      exact Nat.zero_le _
    · rw [queue]
      exact fun i toolCall mem => absurd mem not_mem_nil
    · rw [frames]
      rfl
    · rfl
    · rfl
    · rw [encoder]
      constructor
      · rfl
      · exact fun i block at_ => absurd at_ (by simp [Outline.initial])
      · exact fun i _ => ⟨rfl, rfl⟩
  step := by
    rintro s ev next ⟨view, reduction, replaying⟩ _ taken
    cases ev with
    | produce production =>
      obtain ⟨⟨stream, ev⟩, produced, rfl⟩ := Option.map_eq_some_iff.mp taken
      exact ⟨view, reduction, replaying.produce produced⟩
    | encode =>
      simp only [frameMachine] at taken
      cases queue : s.queue with
      | nil =>
        rw [queue] at taken
        cases taken
      | cons ev rest =>
        obtain ⟨encoder, frame, after, reduced, encodes, replayed⟩ := replaying.encode queue
        rw [queue] at taken
        simp only [encodes] at taken
        cases taken
        exact ⟨after, reduced, replayed⟩

end

section

omit [JsonNumber N] [DecidableEq N]

/-- What the end makes of a block: one that is no open tool call stays. -/
def Settles (entries : List (Nat × ReducerBlockState)) (content settled : List (AssistantContent N)) :
    Prop :=
  ∀ (i : Nat) (block : AssistantContent N), content[i]? = some block →
    ∃ after, settled[i]? = some after ∧ after.kind = block.kind ∧
      ((block.kind ≠ .toolCall ∨ ∀ s, (i, s) ∈ entries → s.ended = true) → after = block)

variable {content : List (AssistantContent N)} {entries : List (Nat × ReducerBlockState)}

theorem Settles.cons {settled : List (AssistantContent N)}
    (settles : Settles entries content settled)
    (e : Nat × ReducerBlockState) : Settles (e :: entries) content settled := by
  intro i block at_
  obtain ⟨after, atAfter, sameKind, same⟩ := settles i block at_
  refine ⟨after, atAfter, sameKind, ?_⟩
  intro fixed
  exact same (fixed.imp id fun all s mem => all s (mem_cons_of_mem _ mem))

theorem settle_blocks (parseStreamingJson : Units → Json N)
    (calls : ∀ i json, (i, ReducerBlockState.toolCall false json) ∈ entries →
      ∃ call, content[i]? = some (.toolCall call)) :
    ∃ settled, run (settleBlock parseStreamingJson) content entries = .ok settled ∧
      settled.length = content.length ∧ Settles entries content settled := by
  induction entries generalizing content with
  | nil => exact ⟨content, rfl, rfl, fun _ block at_ => ⟨block, at_, rfl, fun _ => rfl⟩⟩
  | cons e rest ih =>
    obtain ⟨index, s⟩ := e
    have restCalls : ∀ i json, (i, ReducerBlockState.toolCall false json) ∈ rest →
        ∃ call, content[i]? = some (.toolCall call) :=
      fun i json mem => calls i json (mem_cons_of_mem _ mem)
    have skipped (same : settleBlock parseStreamingJson content (index, s) = .ok content) :
        ∃ settled, run (settleBlock parseStreamingJson) content ((index, s) :: rest) =
            .ok settled ∧
          settled.length = content.length ∧ Settles ((index, s) :: rest) content settled := by
      obtain ⟨settled, ran, length, settles⟩ := ih restCalls
      exact ⟨settled, (run_cons_ok same rest).trans ran, length, settles.cons _⟩
    cases s with
    | chars kind ended => exact skipped rfl
    | toolCall ended json =>
      cases ended with
      | true => exact skipped rfl
      | false =>
        by_cases empty : json = []
        · exact skipped (by simp [settleBlock, empty])
        · obtain ⟨call, atCall⟩ := calls index json mem_cons_self
          have inside := (List.getElem?_eq_some_iff.mp atCall).1
          have stepped : settleBlock parseStreamingJson content
              (index, .toolCall false json) =
                .ok (content.set index
                  (.toolCall { call with arguments := parseStreamingJson json })) := by
            simp [settleBlock, empty, atCall]
          have laterCalls : ∀ i other, (i, ReducerBlockState.toolCall false other) ∈ rest →
              ∃ later, (content.set index
                (.toolCall { call with arguments := parseStreamingJson json }))[i]? =
                  some (.toolCall later) := by
            intro i other mem
            by_cases same : index = i
            · subst same
              exact ⟨_, getElem?_set_self inside⟩
            · rw [getElem?_set_ne same]
              exact restCalls i other mem
          obtain ⟨settled, ran, length, settles⟩ := ih laterCalls
          refine ⟨settled, (run_cons_ok stepped rest).trans ran, length.trans length_set, ?_⟩
          intro i block at_
          by_cases same : index = i
          · subst same
            rw [atCall] at at_
            cases at_
            obtain ⟨after, atAfter, sameKind, _⟩ := settles index _ (getElem?_set_self inside)
            refine ⟨after, atAfter, sameKind, ?_⟩
            rintro (other | all)
            · exact absurd rfl other
            · exact absurd (all _ mem_cons_self) Bool.false_ne_true
          · exact settles.cons _ i block ((getElem?_set_ne same).trans at_)

theorem Replays.calls {changed : Bool} {blocks : List BlockOutline}
    {live : List (AssistantContent N)} {encoder : InsertionMap Nat EncoderBlockState}
    {states : InsertionMap Nat ReducerBlockState}
    (replays : Replays changed blocks live encoder states content) (i : Nat) (json : Units)
    (mem : (i, ReducerBlockState.toolCall false json) ∈ states.toList) :
    ∃ call, content[i]? = some (.toolCall call) := by
  rw [← InsertionMap.get?_eq_some_iff] at mem
  have inside : i < blocks.length := by
    by_contra beyond
    rw [(replays.fresh i (Nat.not_lt.mp beyond)).2] at mem
    cases mem
  obtain ⟨liveBlock, reducer, reduced, _, atState, atContent, replay⟩ :=
    replays.block i _ (getElem?_eq_getElem inside)
  rw [mem] at atState
  cases atState
  cases ended : blocks[i].ended with
  | true => exact absurd (replay.hasEnded ended).2.1 Bool.false_ne_true
  | false =>
    obtain ⟨_, _, opening⟩ := replay.isOpen ended
    have kind := opening.contentKind.trans opening.reducerKind.symm
    cases reduced with
    | toolCall call => exact ⟨call, atContent⟩
    | text text => cases kind
    | thinking thinking => cases kind

end

section

variable {parseStreamingJson : Units → Json N} {s : FrameRun N} {view : Outline}
  {reduction : Reduction N} {m : AssistantMessage N} {settled : List (AssistantContent N)}

omit [JsonNumber N] [DecidableEq N]

theorem Replaying.openBlock (replaying : Replaying parseStreamingJson s view reduction)
    (replays : Replays s.changed view.blocks s.stream.message.content s.encoder.blocks
      reduction.states m.content)
    (settles : Settles reduction.states.toList m.content settled)
    (length : settled.length = m.content.length) {i : Nat} {block : AssistantContent N}
    (at_ : settled[i]? = some block) (isChars : block.kind ≠ .toolCall)
    (isOpen : hasEnded i s.encoded = false) :
    ∃ live : LiveBlock N, s.stream.blocks[i]? = some live ∧
      live.content.kind = block.kind ∧ block.chars <+: live.content.chars ∧
      (encodedDeltas i s.encoded).length ≤ block.chars.length := by
  have inside : i < view.blocks.length := by
    rw [← replays.length, ← length]
    exact (List.getElem?_eq_some_iff.mp at_).1
  have atView : view.blocks[i]? = some view.blocks[i] := getElem?_eq_getElem inside
  obtain ⟨live, atLive, atContent, sameKind, longer, _⟩ :=
    live_at (follow_grows replaying.queued) atView
  obtain ⟨liveBlock, reducer, reduced, atBlock, _, atReduced, replay⟩ := replays.block i _ atView
  rw [atContent] at atBlock
  cases atBlock
  have recorded := replaying.records i
  rw [atView, isOpen] at recorded
  obtain ⟨encoderState, _, opening⟩ := replay.isOpen recorded.2
  have reducedKind : reduced.kind = live.content.kind := opening.contentKind.trans sameKind.symm
  obtain ⟨after, atAfter, afterKind, stays⟩ := settles i reduced atReduced
  rw [at_] at atAfter
  cases atAfter
  have same := stays (.inl (afterKind ▸ isChars))
  subst same
  refine ⟨live, atLive, reducedKind.symm, ?_⟩
  have stateKind := opening.encoderKind.trans opening.contentKind.symm
  cases encoderState with
  | toolCall caughtUp json snapshot => exact absurd stateKind.symm isChars
  | chars kind coveredChars deltaChars =>
    obtain ⟨rfl, bound, taken⟩ := opening.chars kind coveredChars deltaChars rfl
    have counted : (encodedDeltas i s.encoded).length = view.blocks[i].chars.length := by
      rw [← recorded.1]
      rfl
    constructor
    · rw [taken]
      exact take_prefix _ _
    · rw [taken, length_take]
      omega

theorem Replaying.allEnded (replaying : Replaying parseStreamingJson s view reduction)
    (replays : Replays s.changed view.blocks s.stream.message.content s.encoder.blocks
      reduction.states m.content)
    (settles : Settles reduction.states.toList m.content settled)
    (length : settled.length = m.content.length) (unchanged : s.changed = false)
    (allEnded : ∀ i < s.stream.blocks.length, hasEnded i s.encoded = true) :
    settled = s.stream.message.content := by
  have ended (i : Nat) (inside : i < s.stream.blocks.length) :
      ∃ block, view.blocks[i]? = some block ∧ block.ended = true := by
    have recorded := (replaying.records i).2.trans (allEnded i inside)
    cases atView : view.blocks[i]? with
    | none =>
      rw [atView] at recorded
      cases recorded
    | some block =>
      rw [atView] at recorded
      exact ⟨block, rfl, recorded⟩
  apply ext_getElem?
  intro i
  by_cases inside : i < s.stream.blocks.length
  · obtain ⟨block, atView, isEnded⟩ := ended i inside
    obtain ⟨liveBlock, reducer, reduced, atBlock, atState, atReduced, replay⟩ :=
      replays.block i _ atView
    obtain ⟨_, reducerEnded, same⟩ := replay.hasEnded isEnded
    obtain ⟨after, atAfter, _, stays⟩ := settles i reduced atReduced
    have kept : after = reduced := by
      apply stays
      right
      intro other mem
      rw [← InsertionMap.get?_eq_some_iff, atState] at mem
      cases mem
      exact reducerEnded
    rw [atBlock, atAfter, kept, same unchanged]
  · have absent : view.blocks[i]? = none := by
      cases atView : view.blocks[i]? with
      | none => rfl
      | some block =>
        obtain ⟨live, atLive, _⟩ := live_at (follow_grows replaying.queued) atView
        exact absurd (List.getElem?_eq_some_iff.mp atLive).1 inside
    have beyond := getElem?_eq_none_iff.mp absent
    have liveLength : s.stream.message.content.length = s.stream.blocks.length :=
      length_map _
    rw [getElem?_eq_none (by omega : s.stream.message.content.length ≤ i),
      getElem?_eq_none (by rw [length, replays.length]; exact beyond)]

end

/-- In every run the frames reduce; an open text or thinking block is a beginning of the
live one with at least the deltas read; and when every end has been read, and no block
was changed after its end, the content is that of the live message. -/
theorem frames_replay (parseStreamingJson : Units → Json N) {s : FrameRun N}
    (reached : (frameMachine parseStreamingJson).Reached (fun _ _ => True) s) :
    s.failure = none ∧
      ∃ result, reduceAssistantMessageFrames parseStreamingJson s.frames = .ok result ∧
        result.isSome = s.encoder.started ∧ ∀ m, result = some m →
          (∀ (i : Nat) (block : AssistantContent N), m.content[i]? = some block →
            block.kind ≠ .toolCall → hasEnded i s.encoded = false →
            ∃ live : LiveBlock N, s.stream.blocks[i]? = some live ∧
              live.content.kind = block.kind ∧ block.chars <+: live.content.chars ∧
              (encodedDeltas i s.encoded).length ≤ block.chars.length) ∧
          (s.changed = false →
            (∀ i < s.stream.blocks.length, hasEnded i s.encoded = true) →
            m.content = s.stream.message.content) := by
  obtain ⟨view, reduction, replaying⟩ := (replaying_inductive parseStreamingJson).reached reached
  refine ⟨replaying.healthy, ?_⟩
  rw [reduceAssistantMessageFrames, replaying.ran, ok_bind]
  have begun := replaying.begun
  have replays := replaying.replays
  cases atMessage : reduction.message with
  | none =>
    rw [atMessage] at begun
    refine ⟨none, rfl, begun.trans replaying.started.symm, ?_⟩
    intro m absent
    cases absent
  | some m =>
    rw [atMessage] at begun replays
    have replays : Replays s.changed view.blocks s.stream.message.content
      s.encoder.blocks reduction.states m.content := replays
    obtain ⟨settled, ran, length, settles⟩ := settle_blocks parseStreamingJson replays.calls
    refine ⟨some { m with content := settled }, ?_, begun.trans replaying.started.symm, ?_⟩
    · simp only [ran, ok_bind]
    · intro result same
      cases same
      constructor
      · intro i block at_ isChars isOpen
        exact replaying.openBlock replays settles length at_ isChars isOpen
      · intro unchanged ended
        exact replaying.allEnded replays settles length unchanged ended

def sampleHeader : MessageHeader Int where
  api := "anthropic-messages"
  provider := "anthropic"
  model := "claude"
  responseModel := none
  responseId := none
  providerThinkingLevel := none
  diagnostics := none
  usage := .obj []
  stopReason := .pending
  deferred := none
  errorMessage := none
  rawStopReason := none
  endTurn := none
  timestamp := 0

def sampleStart : FrameRun Int where
  stream := { started := false, terminal := false, header := sampleHeader, blocks := [] }
  queue := []
  encoder := .create
  encoded := []
  frames := []
  failure := none
  changed := false

/-- Any parser will do where there is no tool call. -/
def noArguments (_ : Units) : Json Int := .obj []

theorem sampleStart_start : (frameMachine noArguments).start sampleStart :=
  ⟨rfl, rfl, rfl, rfl, rfl, rfl, rfl, rfl, rfl⟩

/-- A text grows by two deltas before its start is read, and by one more after it. -/
def sampleSteps : List (FrameStep Int) :=
  [.produce .start, .produce (.openBlock (.text { text := [], textSignature := none })),
    .produce (.delta 0 [72] .null), .produce (.delta 0 [105] .null), .encode, .encode, .encode,
    .produce (.delta 0 [33] .null), .encode, .encode]

def sampleRun : Option (FrameRun Int) :=
  (frameMachine noArguments).exec (fun _ _ => True) sampleStart sampleSteps

theorem frames_replay_sample :
    ∃ s, sampleRun = some s ∧ s.failure = none ∧
      ∃ result, reduceAssistantMessageFrames noArguments s.frames = .ok result ∧
        result.isSome = s.encoder.started := by
  cases ran : sampleRun with
  | none => exact absurd (congrArg Option.isSome ran) (by simp [show sampleRun.isSome = true from rfl])
  | some s =>
    obtain ⟨healthy, result, reduced, isSome, _⟩ :=
      frames_replay noArguments (Machine.Reached.exec (.start sampleStart_start) ran)
    exact ⟨s, rfl, healthy, result, reduced, isSome⟩

/-- A thinking block ends, its end is read, and then it gets a signature. -/
def lateSteps : List (FrameStep Int) :=
  [.produce .start,
    .produce (.openBlock (.thinking { thinking := [], thinkingSignature := none, redacted := none })),
    .produce (.finish 0), .encode, .encode, .encode,
    .produce (.revise 0
      (.thinking { thinking := [], thinkingSignature := some "late", redacted := none }))]

/-- A signature given to a block after its end is not in the frames. -/
theorem late_signature_lost :
    ∃ (s : FrameRun Int) (m : AssistantMessage Int),
      (frameMachine noArguments).Reached (fun _ _ => True) s ∧
        (∀ i < s.stream.blocks.length, hasEnded i s.encoded = true) ∧
        reduceAssistantMessageFrames noArguments s.frames = .ok (some m) ∧
        m.content ≠ s.stream.message.content := by
  have ran : (frameMachine noArguments).exec (fun _ _ => True) sampleStart lateSteps = some _ := rfl
  refine ⟨_, _, Machine.Reached.exec (.start sampleStart_start) ran, ?_, rfl, ?_⟩
  · decide
  · show [AssistantContent.thinking { thinking := [], thinkingSignature := none, redacted := none }] ≠
      [.thinking { thinking := [], thinkingSignature := some "late", redacted := none }]
    simp

end Trpi.Ai
