import Trpi.CodingAgent.BranchedConversation
import Trpi.CodingAgent.CompactionCut
import Trpi.CodingAgent.SessionConsistency

/-!
# What a compaction replaces

The messages before the cut, then the kept ones, are the context without its summary, and the new
context is the new summary and the kept ones, exactly where no earlier compaction is among the
entries that are kept or were kept by the latest one.
-/

namespace Trpi.CodingAgent

open Library FileEntry List Json AppendRequest

open Option hiding any_eq_false

variable {N : Type} [JsonNumber N] (time : Option (Json N) → Json N)

def contextMessages (path : List (FileEntry N)) : List (Json N) :=
  (contextEntriesOf path).flatMap (sessionEntryToContextMessages time)

def keptMessages (firstKeptEntryId : String) (path : List (FileEntry N)) : List (Json N) :=
  (keptEntries (some firstKeptEntryId) path).filterMap (getMessageFromEntryForCompaction time)

def withoutSummary (path : List (FileEntry N)) : List (Json N) :=
  if path.any FileEntry.isCompaction then (contextMessages time path).tail
  else contextMessages time path

variable {time}

variable {e compaction : FileEntry N} {path before after entries : List (FileEntry N)}
  {settings : CompactionSettings} {preparation : CompactionPreparation N} {cut : Nat}

theorem messages_compaction (compacts : e.isCompaction = true) :
    sessionEntryToContextMessages time e = [createCompactionSummaryMessage time e] := by
  have type : e.type = some "compaction" := of_decide_eq_true compacts
  rw [sessionEntryToContextMessages, type]
  simp

theorem messages_other (other : e.isCompaction = false) :
    sessionEntryToContextMessages time e = (getMessageFromEntryForCompaction time e).toList := by
  rw [getMessageFromEntryForCompaction, other, if_neg Bool.false_ne_true]
  have type : e.type ≠ some "compaction" := of_decide_eq_false other
  unfold sessionEntryToContextMessages
  split_ifs
  · cases e.get "message" <;> rfl
  · rfl
  · rfl
  · rfl

theorem length_messages (entries : List (FileEntry N)) :
    (entries.flatMap (sessionEntryToContextMessages time)).length =
      (entries.filterMap (getMessageFromEntryForCompaction time)).length +
        entries.countP isCompaction := by
  induction entries with
  | nil => rfl
  | cons e rest ih =>
    rw [flatMap_cons, length_append, ih]
    cases compacts : e.isCompaction with
    | true =>
      have none_ : getMessageFromEntryForCompaction time e = none := if_pos compacts
      rw [messages_compaction compacts, filterMap_cons_none none_,
        countP_cons_of_pos compacts, length_singleton]
      omega
    | false =>
      rw [messages_other compacts, countP_cons_of_neg (Bool.eq_false_iff.mp compacts),
        filterMap_cons]
      cases getMessageFromEntryForCompaction time e with
      | none =>
        dsimp only [toList_none, length_nil]
        omega
      | some m =>
        dsimp only [toList_some, length_cons, length_nil]
        omega

theorem messages_eq_iff (entries : List (FileEntry N)) :
    entries.flatMap (sessionEntryToContextMessages time) =
        entries.filterMap (getMessageFromEntryForCompaction time) ↔
      ∀ e ∈ entries, e.isCompaction = false := by
  constructor
  · intro same e inside
    have lengths := @length_messages N _ time entries
    rw [same] at lengths
    have none_ : entries.countP isCompaction = 0 := by omega
    exact Bool.eq_false_iff.mpr (countP_eq_zero.mp none_ e inside)
  · intro none_
    induction entries with
    | nil => rfl
    | cons e rest ih =>
      obtain ⟨other, later⟩ := forall_mem_cons.mp none_
      rw [flatMap_cons, messages_other other, ih later, filterMap_cons]
      cases getMessageFromEntryForCompaction time e <;> rfl

/-- A branch from the root: no compaction keeps from an entry after it. -/
structure Branch (path : List (FileEntry N)) : Prop extends TreePath path where
  linked : Linked none path
  keepsBack : ∀ before compaction after, path = before ++ compaction :: after →
    compaction.isCompaction = true → ∀ e ∈ after, e.id ≠ compaction.string "firstKeptEntryId"

def compactable (path : List (FileEntry N)) : List (FileEntry N) :=
  path.drop (boundaryStart path)

omit [JsonNumber N] in
theorem findPreviousCompaction_none (none_ : ∀ e ∈ path, e.isCompaction = false) :
    findPreviousCompaction path = none := by
  rw [findPreviousCompaction, find?_eq_none]
  intro i inside
  rw [mem_reverse, mem_range] at inside
  rw [getElem?_eq_getElem inside]
  exact Bool.eq_false_iff.mp (none_ _ (getElem_mem inside))

omit [JsonNumber N] in
theorem findPreviousCompaction_split (compacts : compaction.isCompaction = true)
    (later : ∀ e ∈ after, e.isCompaction = false) :
    findPreviousCompaction (before ++ compaction :: after) = some before.length := by
  have length : (before ++ compaction :: after).length = before.length + 1 + after.length := by
    rw [length_append, length_cons]
    omega
  have range : range (before ++ compaction :: after).length =
      indicesFrom 0 before.length ++ before.length ::
        indicesFrom (before.length + 1) (before ++ compaction :: after).length := by
    rw [← indicesFrom_cons (by omega), indicesFrom_append (by omega) (by omega), indicesFrom,
      Nat.sub_zero, range_eq_range']
  have absent : (indicesFrom (before.length + 1) (before ++ compaction :: after).length).reverse.find?
      (fun i => (before ++ compaction :: after)[i]?.any isCompaction) = none := by
    rw [find?_eq_none]
    intro i inside
    rw [mem_reverse, indicesFrom, mem_range'_1, length] at inside
    obtain ⟨offset, rfl⟩ := Nat.exists_eq_add_of_le inside.1
    have within : offset < after.length := by omega
    rw [getElem?_append_right (by omega),
      show before.length + 1 + offset - before.length = offset + 1 by omega,
      getElem?_cons_succ, getElem?_eq_getElem within]
    exact Bool.eq_false_iff.mp (later _ (getElem_mem within))
  rw [findPreviousCompaction, range, reverse_append, reverse_cons, append_assoc,
    find?_append, absent, none_or, singleton_append, find?_cons_of_pos]
  rw [getElem?_append_right (Nat.le_refl _), Nat.sub_self]
  exact compacts

variable {path : List (FileEntry N)} {id : String} {boundary : Option String}

section

omit [JsonNumber N]

theorem keptEntries_findIdx {i : Nat}
    (found : entries.findIdx? (fun e => e.id = boundary) = some i) :
    keptEntries boundary entries = entries.drop i := by
  induction entries generalizing i with
  | nil => cases found
  | cons e rest ih =>
    rw [findIdx?_cons] at found
    by_cases own : e.id = boundary
    · rw [if_pos (decide_eq_true own)] at found
      cases found
      exact dropWhile_cons_of_neg (by simpa using own)
    · rw [if_neg (by simpa using own)] at found
      obtain ⟨j, isJ, rfl⟩ := map_eq_some_iff.mp found
      rw [drop_succ_cons, ← ih isJ]
      exact dropWhile_cons_of_pos (by simpa using own)

theorem keptEntries_nil (absent : entries.findIdx? (fun e => e.id = boundary) = none) :
    keptEntries boundary entries = [] := by
  rw [findIdx?_eq_none_iff] at absent
  refine dropWhile_eq_nil_iff.mpr fun e inside => ?_
  simpa using absent e inside

theorem compactable_split (branch : Branch (before ++ compaction :: after))
    (compacts : compaction.isCompaction = true) (later : ∀ e ∈ after, e.isCompaction = false) :
    ∃ kept, keptEntries (compaction.string "firstKeptEntryId") before = kept ∧
      (compactable (before ++ compaction :: after) = kept ++ compaction :: after ∨
        kept = [] ∧ compactable (before ++ compaction :: after) = after) := by
  have there : (before ++ compaction :: after)[before.length]? = some compaction := by
    rw [getElem?_append_right (Nat.le_refl _), Nat.sub_self]
    rfl
  rw [compactable, boundaryStart, findPreviousCompaction_split compacts later]
  dsimp only
  rw [there, bind_some, findIdx?_append]
  cases found : before.findIdx? fun e => e.id = compaction.string "firstKeptEntryId" with
  | some i =>
    refine ⟨_, rfl, .inl ?_⟩
    have within : i ≤ before.length := by
      obtain ⟨below, -⟩ := findIdx?_eq_some_iff_getElem.mp found
      omega
    rw [keptEntries_findIdx found, some_or, getD_some, drop_append_of_le_length within]
  | none =>
    refine ⟨[], keptEntries_nil found, ?_⟩
    rw [none_or, findIdx?_cons]
    split_ifs with own
    · refine .inl ?_
      rw [map_some, getD_some, Nat.zero_add, drop_left]
      rfl
    · have absent : after.findIdx? (fun e =>
          decide (e.id = compaction.string "firstKeptEntryId")) = none := by
        rw [findIdx?_eq_none_iff]
        exact fun e inside =>
          decide_eq_false (branch.keepsBack _ _ _ rfl compacts e inside)
      refine .inr ⟨rfl, ?_⟩
      rw [absent]
      simp

theorem compactable_none (none_ : ∀ e ∈ path, e.isCompaction = false) :
    compactable path = path := by
  rw [compactable, boundaryStart, findPreviousCompaction_none none_]
  rfl

end

theorem contextMessages_none (none_ : ∀ e ∈ path, e.isCompaction = false) :
    contextMessages time path = path.filterMap (getMessageFromEntryForCompaction time) := by
  rw [contextMessages, contextEntriesOf_none none_]
  exact (messages_eq_iff path).mpr none_

theorem contextMessages_split (unique : ((before ++ compaction :: after).map FileEntry.id).Nodup)
    (compacts : compaction.isCompaction = true) (later : ∀ e ∈ after, e.isCompaction = false) :
    contextMessages time (before ++ compaction :: after) =
      createCompactionSummaryMessage time compaction ::
        ((keptEntries (compaction.string "firstKeptEntryId") before).flatMap
            (sessionEntryToContextMessages time) ++
          after.filterMap (getMessageFromEntryForCompaction time)) := by
  have apart : compaction.id ∉ before.map FileEntry.id := by
    intro inside
    rw [map_append, nodup_append] at unique
    exact unique.2.2 _ inside _ (mem_map_of_mem mem_cons_self) rfl
  rw [contextMessages, contextEntriesOf_split compacts later apart, flatMap_cons,
    messages_compaction compacts, flatMap_append, (messages_eq_iff after).mpr later]
  rfl

/-- The messages that a compaction may cut are the context without its summary where no earlier
compaction is among them. -/
theorem withoutSummary_iff (branch : Branch path) :
    (compactable path).filterMap (getMessageFromEntryForCompaction time) =
        withoutSummary time path ↔ (compactable path).countP isCompaction ≤ 1 := by
  rcases compaction_cases path with none_ | ⟨before, compaction, after, rfl, compacts, later⟩
  · have any : path.any isCompaction = false := by
      rw [any_eq_false]
      exact fun e inside => Bool.eq_false_iff.mp (none_ e inside)
    rw [withoutSummary, any, compactable_none none_, if_neg Bool.false_ne_true,
      contextMessages_none none_]
    refine iff_of_true rfl ?_
    rw [countP_eq_zero.mpr fun e inside => Bool.eq_false_iff.mp (none_ e inside)]
    exact Nat.zero_le 1
  · have any : (before ++ compaction :: after).any isCompaction = true :=
      any_eq_true.mpr ⟨compaction, by simp, compacts⟩
    have none_ : after.countP isCompaction = 0 :=
      countP_eq_zero.mpr fun e inside => Bool.eq_false_iff.mp (later e inside)
    obtain ⟨kept, isKept, shape⟩ := compactable_split branch compacts later
    rw [withoutSummary, any, if_pos rfl, contextMessages_split branch.unique compacts later, isKept,
      tail_cons]
    rcases shape with shape | ⟨rfl, shape⟩
    · have none' : getMessageFromEntryForCompaction time compaction = none := if_pos compacts
      rw [shape, filterMap_append, filterMap_cons_none none', append_left_inj,
        eq_comm, messages_eq_iff, countP_append, countP_cons_of_pos compacts, none_]
      constructor
      · intro without
        have zero : kept.countP isCompaction = 0 := countP_eq_zero.mpr
          fun e inside => Bool.eq_false_iff.mp (without e inside)
        omega
      · intro single e inside
        have zero : kept.countP isCompaction = 0 := by omega
        exact Bool.eq_false_iff.mpr (countP_eq_zero.mp zero e inside)
    · rw [shape, none_]
      exact iff_of_true rfl (Nat.zero_le 1)

theorem collectMessages_append {first second third : Nat} (low : first ≤ second)
    (high : second ≤ third) :
    collectMessages time entries first second ++ collectMessages time entries second third =
      collectMessages time entries first third := by
  rw [collectMessages, collectMessages, collectMessages, ← filterMap_append,
    indicesFrom_append low high]

theorem collectMessages_end {startIndex : Nat} (within : startIndex ≤ entries.length) :
    collectMessages time entries startIndex entries.length =
      (entries.drop startIndex).filterMap (getMessageFromEntryForCompaction time) :=
  filterMap_indices entries within

omit [JsonNumber N] in
theorem boundaryStart_le (path : List (FileEntry N)) : boundaryStart path ≤ path.length := by
  unfold boundaryStart
  cases previous : findPreviousCompaction path with
  | none => exact Nat.zero_le _
  | some index =>
    have inside := mem_of_find?_eq_some previous
    rw [mem_reverse, mem_range] at inside
    dsimp only
    cases found : path.findIdx? fun e =>
        e.id = path[index]?.bind fun compaction => compaction.string "firstKeptEntryId" with
    | none => exact inside
    | some i =>
      obtain ⟨below, -⟩ := findIdx?_eq_some_iff_getElem.mp found
      exact Nat.le_of_lt below

/-- What is known of a preparation. -/
structure Prepared (time : Option (Json N) → Json N) (path : List (FileEntry N))
    (settings : CompactionSettings) (preparation : CompactionPreparation N) (cut : Nat) : Prop where
  low : boundaryStart path ≤ cut
  below : cut < path.length
  id : path[cut].id = some preparation.firstKeptEntryId
  messages : preparation.messagesToSummarize ++ preparation.turnPrefixMessages =
    collectMessages time path (boundaryStart path) cut
  kept : ∃ hidden, path.drop cut =
      hidden ++ keptFrom time settings.keepRecentTokens (compactable path) ∧
    (∀ e ∈ hidden, isInvisible time e = true) ∧
    ∃ e rest, keptFrom time settings.keepRecentTokens (compactable path) = e :: rest ∧
      isCutPointEntry time e = true

theorem prepared_of_some (prepares : prepareCompaction time path settings = some preparation) :
    ∃ cut, Prepared time path settings preparation cut := by
  unfold prepareCompaction at prepares
  dsimp only at prepares
  split at prepares
  · cases prepares
  generalize isCut : findCutPoint time path (boundaryStart path) path.length
    settings.keepRecentTokens = result at prepares
  split at prepares
  · cases prepares
  rename_i id isId
  obtain ⟨first, isFirst, own⟩ := bind_eq_some_iff.mp isId
  obtain ⟨below, same⟩ := List.getElem?_eq_some_iff.mp isFirst
  rcases findCutPoint_spec path settings.keepRecentTokens (boundaryStart_le path) isCut with
    ⟨start, whole⟩ | ⟨found, hidden, low, kept, isFrom, within, invisible, turn⟩
  · rw [whole, start] at prepares
    simp [collectMessages, indicesFrom_self] at prepares
  · have point : ∃ e rest, keptFrom time settings.keepRecentTokens (compactable path) =
        e :: rest ∧ isCutPointEntry time e = true := by
      rw [drop_eq_getElem_cons within] at isFrom
      exact ⟨_, _, isFrom, keptFrom_head isFrom⟩
    have facts : ∀ messages prefix_ : List (Json N),
        messages ++ prefix_ = collectMessages time path (boundaryStart path)
          result.firstKeptEntryIndex →
        preparation.messagesToSummarize = messages → preparation.turnPrefixMessages = prefix_ →
        preparation.firstKeptEntryId = id → ∃ cut, Prepared time path settings preparation cut := by
      rintro messages prefix_ together rfl rfl rfl
      exact ⟨result.firstKeptEntryIndex, low, below, same ▸ own, together, hidden, kept,
        invisible, point⟩
    split_ifs at prepares with nameless splits nothing nothing
    · cases prepares
      obtain ⟨turn_, isTurn, above, under⟩ := turn splits
      refine facts _ _ ?_ rfl rfl rfl
      rw [isTurn]
      exact collectMessages_append above under
    · cases prepares
      exact facts _ _ (append_nil _) rfl rfl rfl

theorem Prepared.keptEntries (prepared : Prepared time path settings preparation cut)
    (unique : (path.map FileEntry.id).Nodup) :
    keptEntries (some preparation.firstKeptEntryId) path = path.drop cut := by
  refine keptEntries_findIdx (findIdx?_eq_some_iff_getElem.mpr ⟨prepared.below, ?_, ?_⟩)
  · exact decide_eq_true prepared.id
  · intro j earlier same
    have within : j < path.length := Nat.lt_trans earlier prepared.below
    have own : path[j].id = some preparation.firstKeptEntryId := of_decide_eq_true same
    have equal : j = cut := by
      refine (@List.Nodup.getElem_inj_iff _ _ unique j (by simpa using within) cut
        (by simpa using prepared.below)).mp ?_
      rw [getElem_map, getElem_map, own, prepared.id]
    omega

/-- No earlier summary is among the entries that are kept, nor more than the latest among those
that may be cut. -/
def NoEarlierSummary (time : Option (Json N) → Json N) (settings : CompactionSettings)
    (path : List (FileEntry N)) : Prop :=
  (compactable path).countP FileEntry.isCompaction ≤ 1 ∧
    ∀ e ∈ keptFrom time settings.keepRecentTokens (compactable path), e.isCompaction = false

/-- The messages are parted by the cut, and the context after the compaction entry is its summary
and the kept messages. -/
structure Replaces (time : Option (Json N) → Json N) (path : List (FileEntry N))
    (preparation : CompactionPreparation N) (e : FileEntry N) : Prop where
  parted : preparation.messagesToSummarize ++ preparation.turnPrefixMessages ++
      keptMessages time preparation.firstKeptEntryId path =
    withoutSummary time path
  rebuilt : (buildSessionContext time (path ++ [e]) (SessionIndex.build (path ++ [e])).leafId
      (SessionIndex.build (path ++ [e])).byId).messages =
    createCompactionSummaryMessage time e :: keptMessages time preparation.firstKeptEntryId path

theorem Prepared.parted_iff (prepared : Prepared time path settings preparation cut)
    (branch : Branch path) :
    preparation.messagesToSummarize ++ preparation.turnPrefixMessages ++
        keptMessages time preparation.firstKeptEntryId path = withoutSummary time path ↔
      (compactable path).countP FileEntry.isCompaction ≤ 1 := by
  rw [← @withoutSummary_iff _ _ time _ branch, keptMessages, prepared.keptEntries branch.unique,
    prepared.messages, ← collectMessages_end (Nat.le_of_lt prepared.below),
    collectMessages_append prepared.low (Nat.le_of_lt prepared.below),
    collectMessages_end (boundaryStart_le path)]
  rfl

/-- The compaction entry of a preparation, at the end of the branch. -/
structure Appended (path : List (FileEntry N)) (preparation : CompactionPreparation N)
    (e : FileEntry N) : Prop where
  compacts : e.isCompaction = true
  boundary : e.string "firstKeptEntryId" = some preparation.firstKeptEntryId
  parent : e.parentId = lastIdOr none path
  named : Named e
  fresh : e.id ∉ path.map FileEntry.id

omit [JsonNumber N] in
theorem Appended.unique (appended : Appended path preparation e) (branch : Branch path) :
    ((path ++ [e]).map FileEntry.id).Nodup := by
  rw [map_append, nodup_append]
  refine ⟨branch.unique, nodup_singleton _, fun id inside other isOther same => ?_⟩
  rw [same, mem_singleton.mp isOther] at inside
  exact appended.fresh inside

theorem Appended.rebuilt (appended : Appended path preparation e) (branch : Branch path) :
    (buildSessionContext time (path ++ [e]) (SessionIndex.build (path ++ [e])).leafId
        (SessionIndex.build (path ++ [e])).byId).messages = contextMessages time (path ++ [e]) := by
  have linked : Linked none (path ++ [e]) :=
    linked_append.mpr ⟨branch.linked, appended.parent, trivial⟩
  have type : e.type = some "compaction" := of_decide_eq_true appended.compacts
  have plain : e.isSession = false := by
    rw [isSession, type]
    rfl
  have whole := path_linked linked
    (forall_mem_append.mpr ⟨branch.named, by simpa using appended.named⟩)
    (forall_mem_append.mpr ⟨branch.plain, by simpa using plain⟩)
    (appended.unique branch)
  change (contextEntriesOf (buildSessionPath _ _ _)).flatMap _ = _
  rw [whole]
  rfl

theorem Prepared.rebuilt_iff (prepared : Prepared time path settings preparation cut)
    (branch : Branch path) (appended : Appended path preparation e) :
    (buildSessionContext time (path ++ [e]) (SessionIndex.build (path ++ [e])).leafId
        (SessionIndex.build (path ++ [e])).byId).messages =
      createCompactionSummaryMessage time e ::
        keptMessages time preparation.firstKeptEntryId path ↔
    ∀ e ∈ keptFrom time settings.keepRecentTokens (compactable path), e.isCompaction = false := by
  obtain ⟨hidden, kept, invisible, -⟩ := prepared.kept
  rw [appended.rebuilt branch, contextMessages_split (appended.unique branch) appended.compacts
    (forall_mem_nil _), appended.boundary, filterMap_nil, append_nil,
    cons_inj_right, keptMessages, messages_eq_iff, prepared.keptEntries branch.unique, kept,
    forall_mem_append, and_iff_right]
  intro e inside
  have unseen := invisible e inside
  rw [isInvisible, Bool.and_eq_true, Bool.not_eq_true'] at unseen
  exact unseen.1

def CallsTool (e : FileEntry N) (id : String) : Prop :=
  e.isAssistant = true ∧ ∃ blocks,
    ((e.get "message").bind fun message => message.get? "content") = some (.arr blocks) ∧
    ∃ block ∈ blocks, blockType block = some "toolCall" ∧
      (block.get? "id").bind Json.string? = some id

def AnswersCall (e : FileEntry N) (id : String) : Prop :=
  e.type = some "message" ∧ e.role = some "toolResult" ∧
    ((e.get "message").bind fun message => message.get? "toolCallId").bind Json.string? = some id

structure Answered (path before : List (FileEntry N)) (call : FileEntry N)
    (between : List (FileEntry N)) (result : FileEntry N) (after : List (FileEntry N)) : Prop where
  place : path = before ++ call :: (between ++ result :: after)
  answers : ∃ id, CallsTool call id ∧ AnswersCall result id ∧ ∀ e ∈ between, ¬CallsTool e id

def ResultsFollow (time : Option (Json N) → Json N) (path : List (FileEntry N)) : Prop :=
  ∀ before call between result after, Answered path before call between result after →
    ∀ e ∈ between, isCutPointEntry time e = false

/-- A result is kept and its call is not. -/
def CutsAnswer (firstKeptEntryId : String) (path : List (FileEntry N)) : Prop :=
  ∃ before call between result after, Answered path before call between result after ∧
    result ∈ keptEntries (some firstKeptEntryId) path ∧
    call ∉ keptEntries (some firstKeptEntryId) path

omit [JsonNumber N] in
theorem messageRole_contextMessage (role : Option String) (m : Json N) :
    messageRole (contextMessage role m) = messageRole m := by
  unfold contextMessage
  split_ifs
  · cases object : m.isObject with
    | true =>
      rw [messageRole, get?_setMember object]
      rfl
    | false => cases m <;> first | rfl | cases object
  · rfl

theorem messages_answer (answers : AnswersCall e id) :
    ∃ m, sessionEntryToContextMessages time e = [m] ∧ messageRole m = some "toolResult" := by
  obtain ⟨type, role, -⟩ := answers
  rw [sessionEntryToContextMessages, if_pos type]
  cases content : e.get "message" with
  | none =>
    rw [FileEntry.role, content] at role
    cases role
  | some m =>
    refine ⟨contextMessage e.role m, rfl, ?_⟩
    rw [FileEntry.role, content] at role
    rw [messageRole_contextMessage]
    exact role

theorem cutPoint_answer (answers : AnswersCall e id) :
    isCutPointEntry time e = false ∧ isInvisible time e = false := by
  obtain ⟨m, messages, role⟩ := @messages_answer _ _ time _ _ answers
  constructor
  · rw [isCutPointEntry, messages, any_cons, isCutPointMessage, role]
    simp
  · rw [isInvisible, messages]
    exact Bool.and_false _

theorem Prepared.answers_kept (prepared : Prepared time path settings preparation cut)
    (unique : (path.map FileEntry.id).Nodup) (follow : ResultsFollow time path) :
    ¬CutsAnswer preparation.firstKeptEntryId path := by
  rintro ⟨before, call, between, result, after, answered, kept, gone⟩
  rw [prepared.keptEntries unique] at kept gone
  obtain ⟨hidden, shape, invisible, point, rest, isPoint, isCut⟩ := prepared.kept
  obtain ⟨id, -, answers, -⟩ := answered.answers
  obtain ⟨noCut, seen⟩ := @cutPoint_answer _ _ time _ _ answers
  have place := answered.place
  rw [← take_append_drop cut path] at place
  -- The call is before the cut.
  rcases append_eq_append_iff.mp place with ⟨later, -, isKept⟩ | ⟨early, isGone, back⟩
  · exact gone (isKept ▸ mem_append_right _ mem_cons_self)
  rcases early with _ | ⟨first, early⟩
  · rw [nil_append] at back
    exact gone (back ▸ mem_cons_self)
  rw [cons_append] at back
  obtain ⟨rfl, beyond⟩ := cons.inj back
  -- The result is behind it.
  have apart : ∀ e ∈ path.take cut, e ∉ path.drop cut := by
    intro e inside also
    rw [← take_append_drop cut path, map_append, nodup_append] at unique
    exact unique.2.2 _ (mem_map_of_mem inside) _ (mem_map_of_mem also) rfl
  have behind : ∃ skipped, (∀ e ∈ skipped, e ∈ between) ∧
      path.drop cut = skipped ++ result :: after := by
    rcases append_eq_append_iff.mp beyond with ⟨more, isEarly, rest_⟩ | ⟨skipped, rfl, rest_⟩
    · rcases more with _ | ⟨head, more⟩
      · exact ⟨[], forall_mem_nil _, rest_.symm⟩
      · obtain ⟨rfl, -⟩ := cons.inj rest_
        refine absurd kept (apart _ ?_)
        rw [isGone, isEarly]
        simp
    · exact ⟨skipped, fun e inside => mem_append_right _ inside, rest_⟩
  obtain ⟨skipped, inside, isKept⟩ := behind
  rw [shape, isPoint] at isKept
  -- The cut point is between the two.
  have isBetween : point ∈ between := by
    rcases append_eq_append_iff.mp isKept with ⟨more, rfl, rest_⟩ | ⟨more, isHidden, rest_⟩
    · rcases more with _ | ⟨head, more⟩
      · obtain ⟨rfl, -⟩ := cons.inj rest_
        rw [isCut] at noCut
        cases noCut
      · obtain ⟨rfl, -⟩ := cons.inj rest_
        exact inside _ (mem_append_right _ mem_cons_self)
    · rcases more with _ | ⟨head, more⟩
      · obtain ⟨rfl, -⟩ := cons.inj rest_
        rw [isCut] at noCut
        cases noCut
      · obtain ⟨rfl, -⟩ := cons.inj rest_
        have unseen := invisible _ (isHidden ▸ mem_append_right _ mem_cons_self)
        rw [seen] at unseen
        cases unseen
  have refused := follow before _ between result after answered point isBetween
  rw [isCut] at refused
  cases refused

omit [JsonNumber N] in
theorem appended_compaction (some_ : id ≠ "") (fresh : some id ∉ path.map FileEntry.id)
    {leafId : LeafId} (leaf : leafId.id? = lastIdOr none path) (summary timestamp : String)
    (tokensBefore : N) (details usage : Option (Json N)) (fromHook : Option Bool) :
    Appended path preparation
      ((AppendRequest.compaction summary preparation.firstKeptEntryId tokensBefore details usage
        fromHook).entry id leafId timestamp) := by
  have own : ((compaction summary preparation.firstKeptEntryId tokensBefore details
      usage fromHook).entry id leafId timestamp).id = some id := by
    simp [entry, members, typeMember, baseMembers, FileEntry.id,
      FileEntry.string, FileEntry.get, get?_ofMembers_cons, string?]
  refine ⟨?_, ?_, ?_, ⟨id, own, some_⟩, own ▸ fresh⟩
  · simp [AppendRequest.entry, AppendRequest.members, typeMember, baseMembers,
      FileEntry.isCompaction, FileEntry.type, FileEntry.string, FileEntry.get,
      get?_ofMembers_cons, string?]
  · simp [AppendRequest.entry, AppendRequest.members, typeMember, baseMembers, FileEntry.string,
      FileEntry.get, get?_ofMembers_cons, string?]
  · rw [(made_entry _ id leafId timestamp).parent, leaf]

def said (id : String) (parentId : LeafId) (text : String) : FileEntry Int :=
  (AppendRequest.message (.obj [("role", .str "user"), ("content", .str text)])).entry id parentId
    "t"

def summarized (id : String) (parentId : LeafId) (firstKeptEntryId : String) : FileEntry Int :=
  (AppendRequest.compaction "sum" firstKeptEntryId 2 none none none).entry id parentId "t"

def freshBranch : List (FileEntry Int) := [said "a" .null "one", said "b" (.entry "a") "two"]

def compactedBranch : List (FileEntry Int) := [
  said "a" .null "one",
  said "b" (.entry "a") "two",
  said "c" (.entry "b") "six", summarized "d" (.entry "c") "b", said "e" (.entry "d") "ten"]

def keeping (keepRecentTokens : Int) : CompactionSettings := ⟨true, 0, keepRecentTokens⟩

def noTime : Option (Json Int) → Json Int := fun _ => .null

theorem named_said (id : String) (parentId : LeafId) (text : String) (some_ : id ≠ "") :
    Named (said id parentId text) := by
  refine ⟨id, ?_, some_⟩
  simp [said, entry, members, typeMember, baseMembers, FileEntry.id,
    FileEntry.string, FileEntry.get, get?_ofMembers_cons, string?]

theorem branch_fresh : Branch freshBranch := by
  refine ⟨⟨fun e inside => ?_, fun e inside => ?_, by decide⟩, ⟨by decide, by decide, trivial⟩,
    fun before compaction after same compacts => ?_⟩
  · simp only [freshBranch, mem_cons, not_mem_nil, or_false] at inside
    rcases inside with rfl | rfl <;> decide
  · simp only [freshBranch, mem_cons, not_mem_nil, or_false] at inside
    rcases inside with rfl | rfl
    · exact named_said _ _ _ (by decide)
    · exact named_said _ _ _ (by decide)
  · have inside : compaction ∈ freshBranch := same ▸ mem_append_right _ mem_cons_self
    simp only [freshBranch, mem_cons, not_mem_nil, or_false] at inside
    rcases inside with rfl | rfl <;> exact absurd compacts (by decide)

theorem branch_compacted : Branch compactedBranch := by
  refine ⟨⟨fun e inside => ?_, fun e inside => ?_, by decide⟩,
    ⟨by decide, by decide, by decide, by decide, by decide, trivial⟩,
    fun before compaction after same compacts => ?_⟩
  · simp only [compactedBranch, mem_cons, not_mem_nil, or_false] at inside
    rcases inside with rfl | rfl | rfl | rfl | rfl <;> decide
  · simp only [compactedBranch, mem_cons, not_mem_nil, or_false] at inside
    rcases inside with rfl | rfl | rfl | rfl | rfl
    · exact named_said _ _ _ (by decide)
    · exact named_said _ _ _ (by decide)
    · exact named_said _ _ _ (by decide)
    · exact ⟨"d", by decide, by decide⟩
    · exact named_said _ _ _ (by decide)
  · unfold compactedBranch at same
    rcases before with _ | ⟨_, _ | ⟨_, _ | ⟨_, _ | ⟨_, _ | ⟨_, rest⟩⟩⟩⟩⟩
    all_goals simp only [cons_append, nil_append, cons.injEq] at same
    · obtain ⟨rfl, -⟩ := same
      exact absurd compacts (by decide)
    · obtain ⟨-, rfl, -⟩ := same
      exact absurd compacts (by decide)
    · obtain ⟨-, -, rfl, -⟩ := same
      exact absurd compacts (by decide)
    · obtain ⟨-, -, -, rfl, rfl⟩ := same
      decide
    · obtain ⟨-, -, -, -, rfl, -⟩ := same
      exact absurd compacts (by decide)
    · exact absurd same.2.2.2.2.2 (by simp)

end Trpi.CodingAgent
