import Trpi.Ai.TransformMessages
import Trpi.Library.IndexRange

/-!
# Tool calls and their results in a replayed history

In the transformed messages every call is answered once before the next assistant or user
message, unless a result of the history belongs to a message that is dropped, comes too late,
comes twice, or its call gets the empty id.
-/

namespace Trpi.Ai

open Library Message List

variable {N : Type} {rename : String → String}

namespace AssistantMessage

def callIds (message : AssistantMessage N) : List String := message.toolCalls.map ToolCall.id

end AssistantMessage

namespace Message

def callIds : Message N → List String
  | .assistant message => message.callIds
  | _ => []

def resultId? : Message N → Option String
  | .toolResult message => some message.toolCallId
  | _ => none

end Message

/-- The ids of the results before the next assistant or user message. -/
def leadingResults : List (Message N) → List String
  | .toolResult message :: rest => message.toolCallId :: leadingResults rest
  | _ => []

/-- The last assistant message that did not fail, if no user message and no failed one came since,
and the ids of the results since. -/
structure Turn (N : Type) where
  caller : Option (AssistantMessage N)
  answered : List String

def Turn.closed : Turn N := ⟨none, []⟩

def Turn.next (turn : Turn N) : Message N → Turn N
  | .user _ => .closed
  | .assistant message => if message.failed then .closed else ⟨some message, []⟩
  | .toolResult message => { turn with answered := turn.answered ++ [message.toolCallId] }

def turnAfter (before : List (Message N)) : Turn N := before.foldl Turn.next .closed

def lastAssistant (before : List (Message N)) : Option (AssistantMessage N) :=
  before.foldl (fun last message =>
    match message with
    | .assistant message => some message
    | _ => last) none

/-- Each tool call id is used by one call, and each result follows its call before the next
assistant message. -/
structure History (messages : List (Message N)) : Prop where
  once : (messages.flatMap Message.callIds).Nodup
  follows : ∀ before result after, messages = before ++ .toolResult result :: after →
    ∃ caller, lastAssistant before = some caller ∧ result.toolCallId ∈ caller.callIds

/-- No message failed; every call is answered by one result before the next assistant or user
message, and every result answers such a call. -/
structure Paired (messages : List (Message N)) : Prop where
  sound : ∀ message, .assistant message ∈ messages → message.failed = false
  answered : ∀ before message after, messages = before ++ .assistant message :: after →
    ∀ id ∈ message.callIds, (leadingResults after).count id = 1
  answers : ∀ before result after, messages = before ++ .toolResult result :: after →
    ∃ caller, (turnAfter before).caller = some caller ∧ result.toolCallId ∈ caller.callIds

def renameWith (sameModel : Bool) (normalize : Option (String → String)) (id : String) : String :=
  match sameModel, normalize with
  | false, some normalize => normalize id
  | _, _ => id

section

variable (model : Model) (normalizeToolCallId : Option (NormalizeToolCallId N))

def renameCall (message : AssistantMessage N) : String → String :=
  renameWith (isSameModel model message) (normalizerOf model normalizeToolCallId message)

/-- A result comes first, and its call keeps an id; if the call gets the empty id, an unanswered
call of the message gets the id that the result keeps. -/
def Answers (turn : Turn N) (result : ToolResultMessage N) (after : List (Message N)) : Prop :=
  ∃ caller, turn.caller = some caller ∧ result.toolCallId ∉ turn.answered ∧
    (renameCall model normalizeToolCallId caller result.toolCallId = "" → result.toolCallId ≠ "" →
      ∃ id ∈ caller.callIds, id ∉ turn.answered ∧ id ∉ leadingResults after ∧
        renameCall model normalizeToolCallId caller id = result.toolCallId)

/-- Every result comes in the turn of its call. -/
def Replayable (messages : List (Message N)) : Prop :=
  ∀ before result after, messages = before ++ .toolResult result :: after →
    Answers model normalizeToolCallId (turnAfter before) result after

end

theorem renameWith_some (normalize : String → String) (id : String) :
    renameWith false (some normalize) id = normalize id := rfl

/-- The calls that get another id are in the map from then on. -/
structure Renames (rename : String → String) (ids : List String) (before after : ToolCallIdMap) :
    Prop where
  set : ∀ id ∈ ids, rename id ≠ id → after id = some (rename id)
  kept : ∀ id, id ∉ ids ∨ rename id = id → after id = before id

theorem renames_refl {ids : List String} {map : ToolCallIdMap}
    (same : ∀ id ∈ ids, rename id = id) : Renames rename ids map map where
  set id inside changed := absurd (same id inside) changed
  kept _ _ := rfl

theorem Renames.trans {first second : List String} {before middle after : ToolCallIdMap}
    (one : Renames rename first before middle)
    (two : Renames rename second middle after) : Renames rename (first ++ second) before after where
  set id inside changed := by
    by_cases later : id ∈ second
    · exact two.set id later changed
    · rw [two.kept id (.inl later)]
      exact one.set id ((mem_append.mp inside).resolve_right later) changed
  kept id free := by
    rw [mem_append, not_or] at free
    rw [two.kept id (free.imp_left And.right), one.kept id (free.imp_left And.left)]

theorem transformToolCall_spec (sameModel : Bool) (normalize : Option (String → String))
    (toolCallIdMap : ToolCallIdMap) (call : ToolCall N) :
    (transformToolCall sameModel normalize toolCallIdMap call).1.id =
      renameWith sameModel normalize call.id ∧
    Renames (renameWith sameModel normalize) [call.id] toolCallIdMap
      (transformToolCall sameModel normalize toolCallIdMap call).2 := by
  cases sameModel with
  | true => exact ⟨rfl, renames_refl fun _ _ => rfl⟩
  | false =>
    cases normalize with
    | none =>
      refine ⟨?_, renames_refl fun _ _ => rfl⟩
      simp only [transformToolCall]
      split_ifs <;> rfl
    | some normalize =>
      simp only [transformToolCall]
      by_cases same : normalize call.id = call.id
      · rw [if_neg (not_not.mpr same)]
        refine ⟨?_, renames_refl fun id inside => ?_⟩
        · rw [renameWith_some, same]
          split_ifs <;> rfl
        · rw [mem_singleton.mp inside]
          exact same
      · rw [if_pos same]
        refine ⟨rfl, fun id inside changed => ?_, fun id free => Function.update_of_ne ?_ _ _⟩
        · rw [mem_singleton.mp inside]
          exact Function.update_self _ _ _
        · rintro rfl
          exact free.elim (fun out => out (mem_singleton_self _)) same

theorem transformContent_spec (sameModel : Bool) (normalize : Option (String → String))
    (content : List (AssistantContent N)) (toolCallIdMap : ToolCallIdMap) :
    ((transformContent sameModel normalize toolCallIdMap content).1.filterMap
        AssistantContent.toolCall?).map ToolCall.id =
      ((content.filterMap AssistantContent.toolCall?).map ToolCall.id).map
        (renameWith sameModel normalize) ∧
    Renames (renameWith sameModel normalize)
      ((content.filterMap AssistantContent.toolCall?).map ToolCall.id) toolCallIdMap
      (transformContent sameModel normalize toolCallIdMap content).2 := by
  induction content generalizing toolCallIdMap with
  | nil => exact ⟨rfl, renames_refl fun _ _ => by contradiction⟩
  | cons block rest ih =>
    cases block with
    | text block => exact ih toolCallIdMap
    | thinking block =>
      obtain ⟨calls, map⟩ := ih toolCallIdMap
      refine ⟨?_, map⟩
      have none : (transformThinking sameModel block : List (AssistantContent N)).filterMap
          AssistantContent.toolCall? = [] := by
        unfold transformThinking
        split_ifs <;> rfl
      change ((transformThinking sameModel block ++ _).filterMap _).map _ = _
      rw [filterMap_append, none]
      exact calls
    | toolCall call =>
      obtain ⟨own, set⟩ := transformToolCall_spec sameModel normalize toolCallIdMap call
      obtain ⟨later, mapLater⟩ :=
        ih (transformToolCall sameModel normalize toolCallIdMap call).2
      exact ⟨congrArg₂ cons own later, set.trans mapLater⟩

section

variable {calls results : List String} {rename : String → String} {id : String}

def resultId (rename : String → String) (id : String) : String :=
  if rename id = "" then id else rename id

/-- The made-up results of a turn. -/
def missing (rename : String → String) (calls results : List String) : List String :=
  (calls.map rename).filter fun id => id ∉ results.map (resultId rename)

/-- The results of a turn are those of distinct calls, and what keeps its id while its call gets
the empty one stands for another call. -/
def Clear (rename : String → String) (calls answered results : List String) : Prop :=
  results.Nodup ∧ (∀ id ∈ results, id ∉ answered) ∧
    ∀ id ∈ results, rename id = "" → id ≠ "" →
      ∃ other ∈ calls, other ∉ answered ++ results ∧ rename other = id

theorem mem_answers (called : id ∈ calls.map rename) :
    id ∈ results.map (resultId rename) ++ missing rename calls results := by
  rw [mem_append, missing, mem_filter]
  by_cases answered : id ∈ results.map (resultId rename)
  · exact .inl answered
  · exact .inr ⟨called, by simpa using answered⟩

theorem resultId_of_ne (some : rename id ≠ "") : resultId rename id = rename id :=
  if_neg some

theorem resultId_of_empty (empty : rename id = "") : resultId rename id = id :=
  if_pos empty

theorem two_le_count {id first second : String} (apart : first ≠ second) {list : List String}
    (one : first ∈ list) (two : second ∈ list) {f : String → String} (here : f first = id)
    (there : f second = id) : 2 ≤ (list.map f).count id := by
  have sub : [first, second].Sublist list ∨ [second, first].Sublist list := by
    induction list with
    | nil => cases one
    | cons head rest ih =>
      rcases mem_cons.mp one with rfl | inside
      · exact .inl (.cons_cons _ (singleton_sublist.mpr
          ((mem_cons.mp two).resolve_left apart.symm)))
      · rcases mem_cons.mp two with rfl | also
        · exact .inr (.cons_cons _ (singleton_sublist.mpr inside))
        · exact (ih inside also).imp (.cons _) (.cons _)
  rcases sub with sub | sub
  · have le := (sub.map f).count_le id
    simpa [here, there] using le
  · have le := (sub.map f).count_le id
    simpa [here, there] using le

theorem paired_iff_clear (injective : Function.Injective rename) (distinct : calls.Nodup)
    (known : ∀ id ∈ results, id ∈ calls) :
    ((∀ id ∈ calls.map rename,
        (results.map (resultId rename) ++ missing rename calls results).count id = 1) ∧
      ∀ id ∈ results.map (resultId rename) ++ missing rename calls results,
        id ∈ calls.map rename) ↔ Clear rename calls [] results := by
  constructor
  · rintro ⟨once, within⟩
    have single : ∀ id ∈ results, (results.map (resultId rename)).count (resultId rename id) ≤ 1 := by
      intro id inside
      have all := once _ (within _ (mem_append_left _ (mem_map_of_mem inside)))
      rw [count_append] at all
      omega
    refine ⟨?_, fun _ _ => not_mem_nil, fun id inside empty nonempty => ?_⟩
    · rw [nodup_iff_count_le_one]
      intro id
      by_cases inside : id ∈ results
      · exact Nat.le_trans (count_le_count_map) (single id inside)
      · rw [count_eq_zero_of_not_mem inside]
        exact Nat.zero_le _
    · have kept := within _ (mem_append_left _ (mem_map_of_mem inside))
      rw [resultId_of_empty empty] at kept
      obtain ⟨other, called, same⟩ := mem_map.mp kept
      refine ⟨other, called, ?_, same⟩
      rw [nil_append]
      intro answered
      have apart : other ≠ id := by
        rintro rfl
        exact nonempty (same.symm.trans empty)
      have two := two_le_count apart answered inside (f := resultId rename)
        ((resultId_of_ne (by rw [same]; exact nonempty)).trans same) (resultId_of_empty empty)
      have one := single id inside
      rw [resultId_of_empty empty] at one
      omega
  · rintro ⟨apart, -, clear⟩
    have within : ∀ id ∈ results, resultId rename id ∈ calls.map rename := by
      intro id inside
      by_cases empty : rename id = ""
      · rw [resultId_of_empty empty]
        by_cases blank : id = ""
        · exact mem_map.mpr ⟨id, known id inside, empty.trans blank.symm⟩
        · obtain ⟨other, called, -, same⟩ := clear id inside empty blank
          exact mem_map.mpr ⟨other, called, same⟩
      · rw [resultId_of_ne empty]
        exact mem_map_of_mem (known id inside)
    have distinctResults : (results.map (resultId rename)).Nodup := by
      refine List.Nodup.map_on (fun first one second two same => ?_) apart
      -- Another result has the id that is kept, or the call that stands for it is answered.
      have stands : ∀ {kept other : String}, kept ∈ results → other ∈ results →
          rename kept = "" → rename other ≠ "" → resultId rename kept ≠ resultId rename other := by
        intro kept other keptIn otherIn empty some same
        rw [resultId_of_empty empty, resultId_of_ne some] at same
        obtain ⟨third, -, unanswered, named⟩ :=
          clear kept keptIn empty (by rw [same]; exact some)
        have double : third = other := injective (named.trans same)
        rw [double] at unanswered
        exact unanswered otherIn
      by_cases empty : rename first = ""
      · by_cases also : rename second = ""
        · exact injective (empty.trans also.symm)
        · exact absurd same (stands one two empty also)
      · by_cases also : rename second = ""
        · exact absurd same.symm (stands two one also empty)
        · rw [resultId_of_ne empty, resultId_of_ne also] at same
          exact injective same
    have distinctAll : (results.map (resultId rename) ++ missing rename calls results).Nodup := by
      refine List.Nodup.append distinctResults ((distinct.map injective).filter _) ?_
      intro id answered synthetic
      rw [missing, mem_filter] at synthetic
      simp [answered] at synthetic
    refine ⟨fun id called => count_eq_one_of_mem distinctAll (mem_answers called),
      fun id mem => ?_⟩
    rcases mem_append.mp mem with answered | synthetic
    · obtain ⟨result, inside, rfl⟩ := mem_map.mp answered
      exact within result inside
    · exact (mem_filter.mp synthetic).1

end

section

variable {messages back : List (Message N)} {unanswered : Unanswered N}

theorem exists_results (messages : List (Message N)) :
    ∃ (results : List (ToolResultMessage N)) (back : List (Message N)),
      messages = results.map .toolResult ++ back ∧ leadingResults back = [] := by
  induction messages with
  | nil => exact ⟨[], [], rfl, rfl⟩
  | cons m rest ih =>
    cases m with
    | user m => exact ⟨[], _, rfl, rfl⟩
    | assistant m => exact ⟨[], _, rfl, rfl⟩
    | toolResult result =>
      obtain ⟨results, back, rfl, free⟩ := ih
      exact ⟨result :: results, back, rfl, free⟩

theorem leadingResults_append (results : List (ToolResultMessage N)) (back : List (Message N)) :
    leadingResults (results.map .toolResult ++ back) =
      results.map (fun result => result.toolCallId) ++ leadingResults back := by
  induction results with
  | nil => rfl
  | cons result rest ih => exact congrArg (result.toolCallId :: ·) ih

theorem callIds_results (results : List (ToolResultMessage N)) :
    (results.map toolResult).flatMap callIds = [] := by
  induction results with
  | nil => rfl
  | cons result rest ih => exact ih

theorem firstPass_results (model : Model) (normalizeToolCallId : Option (NormalizeToolCallId N))
    (toolCallIdMap : ToolCallIdMap) (results : List (ToolResultMessage N))
    (back : List (Message N)) :
    firstPass model normalizeToolCallId toolCallIdMap (results.map .toolResult ++ back) =
      (results.map fun result =>
        { result with toolCallId := renameResult toolCallIdMap result.toolCallId }).map
          .toolResult ++ firstPass model normalizeToolCallId toolCallIdMap back := by
  induction results with
  | nil => rfl
  | cons result rest ih => exact congrArg (cons _) ih

theorem leadingResults_firstPass (model : Model)
    (normalizeToolCallId : Option (NormalizeToolCallId N)) (toolCallIdMap : ToolCallIdMap)
    (free : leadingResults back = []) :
    leadingResults (firstPass model normalizeToolCallId toolCallIdMap back) = [] := by
  cases back with
  | nil => rfl
  | cons m rest =>
    cases m with
    | user m => rfl
    | assistant m => rfl
    | toolResult m => cases free

theorem secondPass_results (now : ToolCall N → N) (unanswered : Unanswered N)
    (results : List (ToolResultMessage N)) (back : List (Message N)) :
    secondPass now unanswered (results.map .toolResult ++ back) =
      results.map .toolResult ++
        secondPass now (results.foldl (fun s result => s.addResult result.toolCallId)
          unanswered) back := by
  induction results generalizing unanswered with
  | nil => rfl
  | cons result rest ih => exact congrArg (cons _) (ih _)

theorem addResults (results : List (ToolResultMessage N)) (unanswered : Unanswered N) :
    results.foldl (fun s result => s.addResult result.toolCallId) unanswered =
      ⟨unanswered.pendingToolCalls, (results.map fun result => result.toolCallId).reverse ++
        unanswered.existingToolResultIds⟩ := by
  induction results generalizing unanswered with
  | nil => rfl
  | cons result rest ih =>
    rw [foldl_cons, ih, map_cons, reverse_cons, append_assoc]
    rfl

theorem insertSynthetic_nil (now : ToolCall N → N)
    (idle : unanswered.pendingToolCalls = []) : unanswered.insertSyntheticToolResults now = [] := by
  rw [Unanswered.insertSyntheticToolResults, idle]
  rfl

theorem cleared_pending (unanswered : Unanswered N) : unanswered.cleared.pendingToolCalls = [] := by
  unfold Unanswered.cleared
  split
  · assumption
  · rfl

theorem cleared_of_idle (idle : unanswered.pendingToolCalls = []) :
    unanswered.cleared = unanswered := by
  rw [Unanswered.cleared, idle]

theorem secondPass_flush (now : ToolCall N → N) (unanswered : Unanswered N)
    (free : leadingResults messages = []) :
    secondPass now unanswered messages =
      unanswered.insertSyntheticToolResults now ++ secondPass now unanswered.cleared messages := by
  have idle := cleared_pending unanswered
  cases messages with
  | nil => rw [secondPass, secondPass, insertSynthetic_nil now idle, append_nil]
  | cons m rest =>
    cases m with
    | user m =>
      rw [secondPass, secondPass, insertSynthetic_nil now idle, cleared_of_idle idle]
      rfl
    | assistant m =>
      rw [secondPass, secondPass, insertSynthetic_nil now idle, cleared_of_idle idle]
      rfl
    | toolResult m => cases free

end

def PairedAt (turn : Turn N) (message : Message N) (after : List (Message N)) : Prop :=
  match message with
  | .user _ => True
  | .assistant message =>
    message.failed = false ∧ ∀ id ∈ message.callIds, (leadingResults after).count id = 1
  | .toolResult result =>
    ∃ caller, turn.caller = some caller ∧ result.toolCallId ∈ caller.callIds

theorem paired_iff {messages : List (Message N)} :
    Paired messages ↔ EachPlace Turn.next PairedAt .closed messages := by
  rw [eachPlace_iff]
  constructor
  · intro paired before m after split
    cases m with
    | user m => trivial
    | assistant m =>
      exact ⟨paired.sound m (split ▸ mem_append_right _ mem_cons_self),
        paired.answered before m after split⟩
    | toolResult result => exact paired.answers before result after split
  · intro each
    refine ⟨fun m inside => ?_, fun before m after split => ?_,
      fun before result after split => each before (.toolResult result) after split⟩
    · obtain ⟨before, after, split⟩ := append_of_mem inside
      exact (each before (.assistant m) after split).1
    · exact (each before (.assistant m) after split).2

section

variable {model : Model} {normalizeToolCallId : Option (NormalizeToolCallId N)}
  {results : List (ToolResultMessage N)} {back messages : List (Message N)}
  {caller : AssistantMessage N} {answered : List String}

/-- What holds at a message of a history that can be replayed. -/
def ReplayedAt (model : Model) (normalizeToolCallId : Option (NormalizeToolCallId N))
    (turn : Turn N) (message : Message N) (after : List (Message N)) : Prop :=
  match message with
  | .toolResult result => Answers model normalizeToolCallId turn result after
  | _ => True

theorem replayable_iff :
    Replayable model normalizeToolCallId messages ↔
      EachPlace Turn.next (ReplayedAt model normalizeToolCallId) .closed messages := by
  rw [eachPlace_iff]
  constructor
  · intro replayable before m after split
    cases m with
    | toolResult result => exact replayable before result after split
    | _ => trivial
  · exact fun each before result after split => each before (.toolResult result) after split

def lastCaller (last : Option (AssistantMessage N)) : Message N → Option (AssistantMessage N)
  | .assistant message => some message
  | _ => last

/-- What holds at a message of a history. -/
def FollowsAt (last : Option (AssistantMessage N)) (message : Message N) (_ : List (Message N)) :
    Prop :=
  match message with
  | .toolResult result => ∃ caller, last = some caller ∧ result.toolCallId ∈ caller.callIds
  | _ => True

theorem history_iff :
    History messages ↔ (messages.flatMap callIds).Nodup ∧
      EachPlace lastCaller FollowsAt none messages := by
  rw [eachPlace_iff]
  constructor
  · intro history
    refine ⟨history.once, fun before m after split => ?_⟩
    cases m with
    | toolResult result => exact history.follows before result after split
    | _ => trivial
  · exact fun both => ⟨both.1, fun before result after split =>
      both.2 before (.toolResult result) after split⟩

theorem follows_results {last : Option (AssistantMessage N)}
    (follows : EachPlace lastCaller FollowsAt last (results.map .toolResult ++ back)) :
    (∀ result ∈ results, ∃ caller, last = some caller ∧ result.toolCallId ∈ caller.callIds) ∧
      EachPlace lastCaller FollowsAt last back := by
  induction results with
  | nil => exact ⟨fun _ absurd => (nomatch absurd), follows⟩
  | cons result rest ih =>
    obtain ⟨later, after⟩ := ih follows.2
    exact ⟨forall_mem_cons.mpr ⟨follows.1, later⟩, after⟩

theorem leadingResults_of_closed
    (each : EachPlace Turn.next PairedAt .closed messages) : leadingResults messages = [] := by
  match messages, each with
  | [], _ => rfl
  | .user _ :: _, _ => rfl
  | .assistant _ :: _, _ => rfl
  | .toolResult _ :: _, ⟨⟨caller, absurd, _⟩, _⟩ => cases absurd

theorem eachPaired_results :
    EachPlace Turn.next PairedAt ⟨some caller, answered⟩ (results.map .toolResult ++ back) ↔
      (∀ result ∈ results, result.toolCallId ∈ caller.callIds) ∧
      EachPlace Turn.next PairedAt
        ⟨some caller, answered ++ results.map fun result => result.toolCallId⟩ back := by
  induction results generalizing answered with
  | nil => simp
  | cons result rest ih =>
    rw [map_cons, cons_append, EachPlace, Turn.next, ih, forall_mem_cons,
      map_cons, append_assoc, and_assoc]
    refine and_congr_left' ⟨?_, fun called => ⟨caller, rfl, called⟩⟩
    rintro ⟨other, same, called⟩
    cases same
    exact called

theorem eachReplayed_results (free : leadingResults back = []) :
    EachPlace Turn.next (ReplayedAt model normalizeToolCallId) ⟨some caller, answered⟩
        (results.map .toolResult ++ back) ↔
      Clear (renameCall model normalizeToolCallId caller) caller.callIds answered
        (results.map fun result => result.toolCallId) ∧
      EachPlace Turn.next (ReplayedAt model normalizeToolCallId)
        ⟨some caller, answered ++ results.map fun result => result.toolCallId⟩ back := by
  induction results generalizing answered with
  | nil => simp [Clear]
  | cons result rest ih =>
    rw [map_cons, cons_append, EachPlace, Turn.next, ih, map_cons, append_assoc, ← and_assoc]
    refine and_congr_left' ?_
    generalize later : rest.map (fun result => result.toolCallId) = ids
    have following : leadingResults (rest.map .toolResult ++ back) = ids := by
      rw [leadingResults_append, free, append_nil, later]
    change Answers _ _ _ _ _ ∧ _ ↔ _
    rw [Answers, following]
    constructor
    · rintro ⟨⟨other, same, fresh, stands⟩, distinct, apart, clear⟩
      cases same
      refine ⟨nodup_cons.mpr ⟨fun inside => ?_, distinct⟩, ?_, ?_⟩
      · exact apart _ inside (mem_append_right _ (mem_singleton_self _))
      · intro id inside
        rcases mem_cons.mp inside with rfl | inside
        · exact fresh
        · exact fun old => apart id inside (mem_append_left _ old)
      · intro id inside empty some
        rcases mem_cons.mp inside with rfl | inside
        · obtain ⟨stand, called, before, after, named⟩ := stands empty some
          refine ⟨stand, called, ?_, named⟩
          rw [mem_append, mem_cons, not_or, not_or]
          refine ⟨before, ?_, after⟩
          rintro rfl
          exact some (named.symm.trans empty)
        · obtain ⟨stand, called, out, named⟩ := clear id inside empty some
          refine ⟨stand, called, ?_, named⟩
          rw [append_assoc] at out
          exact out
    · rintro ⟨distinct, apart, clear⟩
      rw [nodup_cons] at distinct
      refine ⟨⟨caller, rfl, apart _ mem_cons_self, fun empty some => ?_⟩, distinct.2,
        fun id inside => ?_, fun id inside empty some => ?_⟩
      · obtain ⟨stand, called, out, named⟩ := clear _ mem_cons_self empty some
        rw [mem_append, mem_cons, not_or, not_or] at out
        exact ⟨stand, called, out.1, out.2.2, named⟩
      · rw [mem_append, mem_singleton, not_or]
        refine ⟨apart id (mem_cons_of_mem _ inside), ?_⟩
        rintro rfl
        exact distinct.1 inside
      · obtain ⟨stand, called, out, named⟩ := clear id (mem_cons_of_mem _ inside) empty some
        refine ⟨stand, called, ?_, named⟩
        rw [append_assoc]
        exact out

theorem eachReplayed_free {turn : Turn N} (free : leadingResults back = []) :
    EachPlace Turn.next (ReplayedAt model normalizeToolCallId) turn back ↔
      EachPlace Turn.next (ReplayedAt model normalizeToolCallId) .closed back := by
  cases back with
  | nil => exact Iff.rfl
  | cons m rest =>
    cases m with
    | user m => exact Iff.rfl
    | assistant m => exact Iff.rfl
    | toolResult m => cases free

end

section

variable {model : Model} {normalizeToolCallId : Option (NormalizeToolCallId N)}
  {now : ToolCall N → N}

/-- The message that the first pass makes of an assistant message, and the map it leaves. -/
def transformAssistant (model : Model) (normalizeToolCallId : Option (NormalizeToolCallId N))
    (toolCallIdMap : ToolCallIdMap) (message : AssistantMessage N) :
    AssistantMessage N × ToolCallIdMap :=
  let result := transformContent (isSameModel model message)
    (normalizerOf model normalizeToolCallId message) toolCallIdMap message.content
  ({ message with content := result.1 }, result.2)

theorem firstPass_assistant (toolCallIdMap : ToolCallIdMap) (m : AssistantMessage N)
    (rest : List (Message N)) :
    firstPass model normalizeToolCallId toolCallIdMap (.assistant m :: rest) =
      .assistant (transformAssistant model normalizeToolCallId toolCallIdMap m).1 ::
        firstPass model normalizeToolCallId
          (transformAssistant model normalizeToolCallId toolCallIdMap m).2 rest := rfl

section

variable (model : Model) (normalizeToolCallId : Option (NormalizeToolCallId N))
  (toolCallIdMap : ToolCallIdMap) (m : AssistantMessage N)

theorem callIds_transformAssistant :
    (transformAssistant model normalizeToolCallId toolCallIdMap m).1.callIds =
      m.callIds.map (renameCall model normalizeToolCallId m) :=
  (transformContent_spec _ _ _ _).1

theorem renames_transformAssistant :
    Renames (renameCall model normalizeToolCallId m) m.callIds toolCallIdMap
      (transformAssistant model normalizeToolCallId toolCallIdMap m).2 :=
  (transformContent_spec _ _ _ _).2

end

theorem renameResult_eq {rename : String → String} {calls : List String}
    {before after : ToolCallIdMap} (renames : Renames rename calls before after) {id : String}
    (called : id ∈ calls) (fresh : before id = none) : renameResult after id = resultId rename id := by
  rw [renameResult, resultId]
  by_cases same : rename id = id
  · rw [renames.kept id (.inr same), fresh, same, ite_self]
  · rw [renames.set id called same]
    dsimp only
    by_cases empty : rename id = ""
    · rw [if_pos empty, if_neg fun both => both.1 empty]
    · rw [if_neg empty, if_pos ⟨empty, same⟩]

/-- The results made up at the end of a turn. -/
def synthetics (now : ToolCall N → N) (unanswered : Unanswered N) : List (ToolResultMessage N) :=
  (unanswered.pendingToolCalls.filter fun toolCall =>
    toolCall.id ∉ unanswered.existingToolResultIds).map (syntheticToolResult now)

theorem insertSynthetic_eq (unanswered : Unanswered N) :
    unanswered.insertSyntheticToolResults now = (synthetics now unanswered).map .toolResult := by
  rw [synthetics, map_map]
  rfl

theorem synthetics_ids (calls : List (ToolCall N)) (existing : List String) :
    (synthetics now ⟨calls, existing⟩).map (fun result => result.toolCallId) =
      (calls.map ToolCall.id).filter fun id => id ∉ existing := by
  rw [synthetics, map_map, filter_map]
  rfl

theorem track_of_idle {unanswered : Unanswered N} (idle : unanswered.pendingToolCalls = [])
    (calls : List (ToolCall N)) : ∃ existing, unanswered.track calls = ⟨calls, existing⟩ ∧
      (calls ≠ [] → existing = []) := by
  cases calls with
  | nil =>
    obtain ⟨pending, existing⟩ := unanswered
    cases idle
    exact ⟨existing, rfl, fun absurd => (absurd rfl).elim⟩
  | cons call rest => exact ⟨[], rfl, fun _ => rfl⟩

theorem secondPass_turn (now : ToolCall N → N) {unanswered : Unanswered N} (idle : unanswered.pendingToolCalls = [])
    (calls : List (ToolCall N)) (results : List (ToolResultMessage N)) {back : List (Message N)}
    (free : leadingResults back = []) :
    ∃ (all : List (ToolResultMessage N)) (later : Unanswered N),
      secondPass now (unanswered.track calls) (results.map .toolResult ++ back) =
        all.map .toolResult ++ secondPass now later back ∧
      later.pendingToolCalls = [] ∧
      all.map (fun result => result.toolCallId) =
        results.map (fun result => result.toolCallId) ++ (calls.map ToolCall.id).filter fun id =>
          id ∉ results.map fun result => result.toolCallId := by
  obtain ⟨existing, tracked, reset⟩ := track_of_idle idle calls
  refine ⟨results ++ synthetics now ⟨calls, (results.map fun result => result.toolCallId).reverse ++
    existing⟩, Unanswered.cleared ⟨calls, (results.map fun result => result.toolCallId).reverse ++
    existing⟩, ?_, cleared_pending _, ?_⟩
  · rw [secondPass_results, addResults, tracked, secondPass_flush now _ free, insertSynthetic_eq,
      map_append, append_assoc]
  · rw [map_append, synthetics_ids]
    congr 1
    cases calls with
    | nil => rfl
    | cons call rest =>
      rw [reset (cons_ne_nil _ _), append_nil]
      simp only [mem_reverse]

theorem turn_iff {rename : String → String} (injective : Function.Injective rename)
    {calls results : List String} (distinct : calls.Nodup) (known : ∀ id ∈ results, id ∈ calls)
    {kept : AssistantMessage N} (own : kept.callIds = calls.map rename)
    {all : List (ToolResultMessage N)}
    (ids : all.map (fun result => result.toolCallId) =
      results.map (resultId rename) ++ missing rename calls results)
    (answered : List String) (out : List (Message N)) :
    ((∀ id ∈ kept.callIds, (leadingResults (all.map .toolResult ++ out)).count id = 1) ∧
      (∀ result ∈ all, result.toolCallId ∈ kept.callIds) ∧
      EachPlace Turn.next PairedAt ⟨some kept, answered⟩ out) ↔
    Clear rename calls [] results ∧ EachPlace Turn.next PairedAt ⟨some kept, answered⟩ out ∧
      leadingResults out = [] := by
  have within : (∀ result ∈ all, result.toolCallId ∈ kept.callIds) ↔
      ∀ id ∈ results.map (resultId rename) ++ missing rename calls results,
        id ∈ calls.map rename := by
    rw [← ids, own, forall_mem_map]
  rw [leadingResults_append, ids, within, own, ← paired_iff_clear injective distinct known]
  constructor
  · rintro ⟨once, inside, each⟩
    have free : leadingResults out = [] := by
      match out, each with
      | [], _ => rfl
      | .user _ :: _, _ => rfl
      | .assistant _ :: _, _ => rfl
      | .toolResult result :: rest, ⟨⟨caller, same, called⟩, _⟩ =>
        -- Its call has an answer already.
        cases same
        rw [own] at called
        have twice := once _ called
        have answered := count_pos_iff.mpr (@mem_answers calls results rename _ called)
        rw [count_append, leadingResults, count_cons_self] at twice
        omega
    rw [free, append_nil] at once
    exact ⟨⟨once, inside⟩, each, free⟩
  · rintro ⟨⟨once, inside⟩, each, free⟩
    rw [free, append_nil]
    exact ⟨once, inside, each⟩

theorem failed_transformAssistant (model : Model)
    (normalizeToolCallId : Option (NormalizeToolCallId N)) (toolCallIdMap : ToolCallIdMap)
    (m : AssistantMessage N) :
    (transformAssistant model normalizeToolCallId toolCallIdMap m).1.failed =
      m.failed := rfl

/-- Where nothing is open, what comes out is paired, and adds nothing to what came before, as the
history can be replayed. -/
theorem passes_paired
    (injective : ∀ source, Function.Injective (renameCall model normalizeToolCallId source))
    {messages : List (Message N)} {toolCallIdMap : ToolCallIdMap}
    (distinct : (messages.flatMap callIds).Nodup)
    (fresh : ∀ id ∈ messages.flatMap callIds, toolCallIdMap id = none)
    {last : Option (AssistantMessage N)} (follows : EachPlace lastCaller FollowsAt last messages)
    {unanswered : Unanswered N} (idle : unanswered.pendingToolCalls = []) (turn : Turn N) :
    (EachPlace Turn.next PairedAt turn
        (secondPass now unanswered (firstPass model normalizeToolCallId toolCallIdMap messages)) ∧
      leadingResults
        (secondPass now unanswered (firstPass model normalizeToolCallId toolCallIdMap messages)) =
          []) ↔ EachPlace Turn.next (ReplayedAt model normalizeToolCallId) .closed messages := by
  induction length : messages.length using Nat.strong_induction_on
    generalizing messages toolCallIdMap last unanswered turn with
  | _ size ih =>
  subst length
  cases messages with
  | nil =>
    rw [firstPass, secondPass, insertSynthetic_nil now idle]
    exact ⟨fun _ => trivial, fun _ => ⟨trivial, rfl⟩⟩
  | cons m rest =>
    have shorter := Nat.lt_succ_self rest.length
    cases m with
    | user m =>
      have later := @ih _ shorter rest toolCallIdMap distinct fresh last follows.2 _
        (cleared_pending unanswered) .closed rfl
      rw [firstPass, secondPass, insertSynthetic_nil now idle]
      refine Iff.trans ⟨fun both => ⟨both.1.2, ?_⟩, fun both => ⟨⟨trivial, both.1⟩, rfl⟩⟩
        (later.trans ⟨fun each => ⟨trivial, each⟩, fun each => each.2⟩)
      exact leadingResults_of_closed both.1.2
    | toolResult result =>
      rw [firstPass, secondPass]
      refine ⟨fun both => (nomatch both.2), fun each => ?_⟩
      obtain ⟨caller, absurd, -⟩ := each.1
      cases absurd
    | assistant m =>
      have callIds : (assistant m :: rest).flatMap callIds =
          m.callIds ++ rest.flatMap callIds := flatMap_cons
      rw [callIds] at distinct fresh
      have own := callIds_transformAssistant model normalizeToolCallId toolCallIdMap m
      have renames := renames_transformAssistant model normalizeToolCallId toolCallIdMap m
      have failing := failed_transformAssistant model normalizeToolCallId toolCallIdMap m
      rw [firstPass_assistant]
      generalize transformAssistant model normalizeToolCallId toolCallIdMap m = transformed
        at own renames failing
      obtain ⟨kept, next⟩ := transformed
      dsimp only at own renames failing ⊢
      -- Ids of later calls are not in the map yet.
      have freshLater : ∀ id ∈ rest.flatMap Message.callIds, next id = none := by
        intro id inside
        rw [renames.kept id (.inl fun called => disjoint_of_nodup_append distinct called inside)]
        exact fresh id (mem_append_right _ inside)
      have distinctLater := (nodup_append.mp distinct).2.1
      rw [secondPass, insertSynthetic_nil now idle, nil_append, cleared_of_idle idle, failing,
        EachPlace, Turn.next]
      cases failed : m.failed with
      | true =>
        rw [if_pos rfl, if_pos rfl]
        exact (@ih _ shorter rest next distinctLater freshLater _ follows.2 _ idle turn rfl).trans
          ⟨fun each => ⟨trivial, each⟩, fun each => each.2⟩
      | false =>
        rw [if_neg Bool.false_ne_true, if_neg Bool.false_ne_true]
        obtain ⟨results, back, rfl, free⟩ := exists_results rest
        obtain ⟨called, followsBack⟩ := follows_results follows.2
        rw [flatMap_append, callIds_results, nil_append] at distinctLater freshLater
        obtain ⟨all, later, passed, idleLater, ids⟩ := secondPass_turn now idle kept.toolCalls
          (results.map fun result =>
            { result with toolCallId := renameResult next result.toolCallId })
          (leadingResults_firstPass model normalizeToolCallId next free)
        rw [firstPass_results, passed, eachReplayed_results free, eachReplayed_free free, EachPlace,
          Turn.next, failing, failed, if_neg Bool.false_ne_true, eachPaired_results, nil_append]
        have renamed : (results.map fun result =>
            { result with toolCallId := renameResult next result.toolCallId }).map
              (fun result => result.toolCallId) =
            (results.map fun result => result.toolCallId).map
              (resultId (renameCall model normalizeToolCallId m)) := by
          rw [map_map, map_map]
          refine map_congr_left fun result inside => ?_
          obtain ⟨caller, same, isCall⟩ := called result inside
          cases same
          exact renameResult_eq renames isCall (fresh _ (mem_append_left _ isCall))
        rw [renamed] at ids
        have known : ∀ id ∈ results.map (fun result => result.toolCallId), id ∈ m.callIds := by
          intro id inside
          obtain ⟨result, isResult, rfl⟩ := mem_map.mp inside
          obtain ⟨caller, same, isCall⟩ := called result isResult
          cases same
          exact isCall
        have shorterBack : back.length <
            (assistant m :: (results.map toolResult ++ back)).length := by
          rw [length_cons, length_append]
          omega
        have rest := @ih _ shorterBack back next distinctLater freshLater _ followsBack later idleLater
          ⟨some kept, all.map fun result => result.toolCallId⟩ rfl
        have turns := turn_iff (injective m) (nodup_append.mp distinct).1 known own
          (ids.trans (congrArg (_ ++ filter _ ·) own))
          (all.map fun result => result.toolCallId)
          (secondPass now later (firstPass model normalizeToolCallId next back))
        rw [rest] at turns
        refine Iff.trans ⟨fun both => ⟨both.1.1.2, both.1.2⟩, fun both =>
          ⟨⟨⟨failing.trans failed, both.1⟩, both.2⟩, rfl⟩⟩
          (turns.trans ⟨fun both => ⟨trivial, both⟩, fun both => both.2⟩)

end

section

variable {model : Model} {normalizeToolCallId : Option (NormalizeToolCallId N)}

theorem eachPlace_map {σ α : Type} {next : σ → α → σ} {P : σ → α → List α → Prop} {f : α → α}
    (leads : ∀ s mem, next s (f mem) = next s mem)
    (holds : ∀ s mem after,
      P s (f mem) (after.map f) ↔ P s mem after) {s : σ} {members : List α} :
    EachPlace next P s (members.map f) ↔ EachPlace next P s members := by
  induction members generalizing s with
  | nil => exact Iff.rfl
  | cons mem rest ih => rw [map_cons, EachPlace, EachPlace, holds, leads, ih]

theorem downgradeImages_cases (m : Message N) :
    (∃ before after, m = .user before ∧ downgradeImages m = .user after) ∨
    (∃ kept, m = .assistant kept ∧ downgradeImages m = .assistant kept) ∨
    ∃ before after, m = .toolResult before ∧ downgradeImages m = .toolResult after ∧
      after.toolCallId = before.toolCallId := by
  rcases m with ⟨text | blocks, timestamp⟩ | m | m
  · exact .inl ⟨_, _, rfl, rfl⟩
  · exact .inl ⟨_, _, rfl, rfl⟩
  · exact .inr (.inl ⟨_, rfl, rfl⟩)
  · exact .inr (.inr ⟨_, _, rfl, rfl, rfl⟩)

theorem callIds_downgradeImages (m : Message N) : (downgradeImages m).callIds = m.callIds := by
  rcases downgradeImages_cases m with ⟨before, after, rfl, same⟩ | ⟨kept, rfl, same⟩ |
    ⟨before, after, rfl, same, -⟩ <;> rw [same] <;> rfl

theorem turn_downgradeImages (turn : Turn N) (m : Message N) :
    turn.next (downgradeImages m) = turn.next m := by
  rcases downgradeImages_cases m with ⟨before, after, rfl, same⟩ | ⟨kept, rfl, same⟩ |
    ⟨before, after, rfl, same, id⟩
  · rw [same]
    rfl
  · rw [same]
  · rw [same, Turn.next, Turn.next, id]

theorem leadingResults_downgradeImages (messages : List (Message N)) :
    leadingResults (messages.map downgradeImages) = leadingResults messages := by
  induction messages with
  | nil => rfl
  | cons m rest ih =>
    rw [map_cons]
    rcases downgradeImages_cases m with ⟨before, after, rfl, same⟩ | ⟨kept, rfl, same⟩ |
      ⟨before, after, rfl, same, id⟩
    · rw [same]
      rfl
    · rw [same]
      rfl
    · rw [same, leadingResults, leadingResults, ih, id]

theorem lastCaller_downgradeImages (last : Option (AssistantMessage N)) (m : Message N) :
    lastCaller last (downgradeImages m) = lastCaller last m := by
  rcases downgradeImages_cases m with ⟨before, after, rfl, same⟩ | ⟨kept, rfl, same⟩ |
    ⟨before, after, rfl, same, -⟩ <;> rw [same] <;> rfl

theorem followsAt_downgradeImages (last : Option (AssistantMessage N)) (m : Message N)
    (after : List (Message N)) :
    FollowsAt last (downgradeImages m) (after.map downgradeImages) ↔ FollowsAt last m after := by
  rcases downgradeImages_cases m with ⟨before, kept, rfl, same⟩ | ⟨kept, rfl, same⟩ |
    ⟨before, kept, rfl, same, id⟩
  · rw [same]
    exact Iff.rfl
  · rw [same]
    exact Iff.rfl
  · rw [same, FollowsAt, FollowsAt, id]

theorem replayedAt_downgradeImages (turn : Turn N) (m : Message N) (after : List (Message N)) :
    ReplayedAt model normalizeToolCallId turn (downgradeImages m)
        (after.map downgradeImages) ↔ ReplayedAt model normalizeToolCallId turn m after := by
  rcases downgradeImages_cases m with ⟨before, kept, rfl, same⟩ | ⟨kept, rfl, same⟩ |
    ⟨before, kept, rfl, same, id⟩
  · rw [same]
    exact Iff.rfl
  · rw [same]
    exact Iff.rfl
  · rw [same, ReplayedAt, ReplayedAt, Answers, Answers, leadingResults_downgradeImages, id]

theorem downgradeUnsupportedImages_spec (model : Model)
    (normalizeToolCallId : Option (NormalizeToolCallId N)) (messages : List (Message N)) :
    (downgradeUnsupportedImages model messages).flatMap callIds =
      messages.flatMap callIds ∧
    (EachPlace lastCaller FollowsAt none (downgradeUnsupportedImages model messages) ↔
      EachPlace lastCaller FollowsAt none messages) ∧
    (EachPlace Turn.next (ReplayedAt model normalizeToolCallId) .closed
        (downgradeUnsupportedImages model messages) ↔
      EachPlace Turn.next (ReplayedAt model normalizeToolCallId) .closed messages) := by
  unfold downgradeUnsupportedImages
  split_ifs
  · exact ⟨rfl, Iff.rfl, Iff.rfl⟩
  · refine ⟨?_, eachPlace_map lastCaller_downgradeImages followsAt_downgradeImages,
      eachPlace_map turn_downgradeImages replayedAt_downgradeImages⟩
    rw [flatMap_map]
    simp only [callIds_downgradeImages]

theorem renameCall_injective {normalizeToolCallId : Option (NormalizeToolCallId N)}
    (injective : ∀ normalize ∈ normalizeToolCallId, ∀ source,
      Function.Injective fun id => normalize id model source) (source : AssistantMessage N) :
    Function.Injective (renameCall model normalizeToolCallId source) := by
  unfold renameCall normalizerOf
  cases isSameModel model source with
  | true => exact fun _ _ same => same
  | false =>
    cases normalizeToolCallId with
    | none => exact fun _ _ same => same
    | some normalize => exact injective normalize rfl source

end

/-- The transformed history is well paired exactly where it can be replayed. -/
theorem transformMessages_paired_iff (now : ToolCall N → N) (messages : List (LaxMessage N))
    (model : Model) (normalizeToolCallId : Option (NormalizeToolCallId N))
    (injective : ∀ normalize ∈ normalizeToolCallId, ∀ source,
      Function.Injective fun id => normalize id model source)
    (history : History (messages.map LaxMessage.typed)) :
    Paired (transformMessages now messages model normalizeToolCallId) ↔
      Replayable model normalizeToolCallId (messages.map LaxMessage.typed) := by
  obtain ⟨distinct, follows⟩ := history_iff.mp history
  obtain ⟨callIds, same, replayed⟩ := downgradeUnsupportedImages_spec model normalizeToolCallId
    (messages.map LaxMessage.typed)
  have passes := @passes_paired N model normalizeToolCallId now (renameCall_injective injective) _
    (fun _ => none) (callIds ▸ distinct) (fun _ _ => rfl) none (same.mpr follows) ⟨[], []⟩ rfl .closed
  rw [paired_iff, replayable_iff, ← replayed, ← passes, transformMessages]
  refine ⟨fun each => ⟨each, ?_⟩, fun both => both.1⟩
  exact leadingResults_of_closed each

def askedModel : Model where
  id := "asked"
  api := "responses"
  provider := "home"
  input := [.text]

def markId : NormalizeToolCallId Nat := fun id _ _ => "call_" ++ id

def calling (stopReason : StopReason) (id : String) : LaxMessage Nat :=
  .assistant
    { api := "messages", provider := "home", model := "other", responseModel := none,
      responseId := none, providerThinkingLevel := none, diagnostics := none, usage := .null,
      stopReason := stopReason, deferred := none, errorMessage := none, rawStopReason := none,
      endTurn := none, timestamp := 0 }
    (some [.toolCall ⟨id, "read", .null, none, none⟩])

def resulting (id : String) : LaxMessage Nat :=
  .toolResult ⟨id, "read", none, none, none, false, 0⟩ none

def asking : LaxMessage Nat := .user none 0

theorem injective_markId (source : AssistantMessage Nat) :
    Function.Injective fun id => markId id askedModel source :=
  fun _ _ same => (String.append_right_inj _).mp same

theorem transformMessages_paired_iff_sample :
    Paired (transformMessages (fun _ => 0)
      [asking, calling .toolUse "a", resulting "a", calling .toolUse "b"] askedModel
      (some markId)) := by
  have history : History ([asking, calling .toolUse "a", resulting "a",
      calling .toolUse "b"].map LaxMessage.typed) := by
    rw [history_iff]
    refine ⟨by decide, trivial, trivial, ⟨_, rfl, ?_⟩, trivial, trivial⟩
    decide
  refine (transformMessages_paired_iff _ _ _ _ (fun normalize mem source => ?_) history).mpr ?_
  · cases mem
    exact injective_markId source
  · rw [replayable_iff]
    refine ⟨trivial, trivial, ⟨_, rfl, by decide, fun empty => ?_⟩, trivial, trivial⟩
    exact absurd empty (by decide)

/-- A result of an aborted message, and one that a user message comes before, are replayed
without their calls. -/
theorem results_orphaned :
    (History ([calling .aborted "a", resulting "a"].map LaxMessage.typed) ∧
      ¬Paired (transformMessages (fun _ => 0) [calling .aborted "a", resulting "a"] askedModel
        none)) ∧
    History ([calling .toolUse "a", asking, resulting "a"].map LaxMessage.typed) ∧
      ¬Paired (transformMessages (fun _ => 0) [calling .toolUse "a", asking, resulting "a"]
        askedModel none) := by
  refine ⟨⟨?_, fun paired => ?_⟩, ?_, fun paired => ?_⟩
  · rw [history_iff]
    exact ⟨by decide, trivial, ⟨_, rfl, by decide⟩, trivial⟩
  · obtain ⟨caller, absurd, -⟩ := paired.answers [] _ [] rfl
    cases absurd
  · rw [history_iff]
    exact ⟨by decide, trivial, trivial, ⟨_, rfl, by decide⟩, trivial⟩
  · obtain ⟨caller, absurd, -⟩ := paired.answers [_, _, _] _ [] rfl
    cases absurd

end Trpi.Ai
