import Trpi.CodingAgent.BranchedSession
import Trpi.CodingAgent.Migration

/-!
# The context of a branched session

Labels add nothing to a context, and what is kept behind a boundary is the same once the
boundary has moved from a label to the entry behind it.
-/

namespace Trpi.CodingAgent

open Library List
open FileEntry hiding id

variable {N : Type}

variable {e : FileEntry N} {before path : List (FileEntry N)}

section

variable (replaced : Replacements)

section

variable (parentId : Option String)

theorem type_relink (e : FileEntry N) : (relink replaced parentId e).type = e.type := by
  rw [relink]
  split
  · split
    · rw [type_set _ (by decide), type_set _ (by decide)]
    · exact type_set _ (by decide) _
  · exact type_set _ (by decide) _

theorem get_relink (e : FileEntry N)
    {name : String} (parent : "parentId" ≠ name) (boundary : "firstKeptEntryId" ≠ name) :
    (relink replaced parentId e).get name = e.get name := by
  rw [relink]
  split
  · split
    · rw [get_set_of_ne _ boundary, get_set_of_ne _ parent]
    · exact get_set_of_ne _ parent _
  · exact get_set_of_ne _ parent _

theorem sameContent_relink (e : FileEntry N) : SameContent (relink replaced parentId e) e := by
  intro name content
  rw [isIdMember, Bool.or_eq_false_iff, Bool.or_eq_false_iff, Bool.or_eq_false_iff] at content
  obtain ⟨⟨⟨-, parent⟩, boundary⟩, -⟩ := content
  exact get_relink replaced parentId e (Ne.symm (of_decide_eq_false parent))
    (Ne.symm (of_decide_eq_false boundary))

theorem id_relink (e : FileEntry N) : (relink replaced parentId e).id = e.id := by
  rw [FileEntry.id, FileEntry.id, FileEntry.string, FileEntry.string,
    get_relink _ _ e (by decide) (by decide)]

theorem parentId_relink (object : e.json.isObject = true) :
    (relink replaced parentId e).parentId = parentId := by
  have set : (e.set "parentId" (parentJson parentId)).parentId = parentId := by
    rw [FileEntry.parentId, FileEntry.string, FileEntry.get_set object, if_pos rfl]
    cases parentId <;> rfl
  rw [relink]
  split
  · split
    · rw [FileEntry.parentId, FileEntry.string, FileEntry.get_set_of_ne _ (by decide)]
      exact set
    · exact set
  · exact set

end

end

def movedBoundary (replaced : Replacements) (boundary : Option String) : Option String :=
  match replaced.get? boundary with
  | some (some id) => some id
  | _ => boundary

theorem boundary_relink (replaced : Replacements) (parentId : Option String)
    (compaction : e.isCompaction = true) :
    (relink replaced parentId e).string "firstKeptEntryId" =
      movedBoundary replaced (e.string "firstKeptEntryId") := by
  have object : e.json.isObject = true := by
    have type : e.type = some "compaction" := of_decide_eq_true compaction
    rw [FileEntry.type, FileEntry.string, Option.bind_eq_some_iff] at type
    obtain ⟨v, present, -⟩ := type
    exact Json.isObject_of_get? present
  have relinked : (e.set "parentId" (parentJson parentId)).json.isObject = true := by
    rw [FileEntry.set, Json.isObject_setMember]
    exact object
  have kept : (e.set "parentId" (parentJson parentId)).string "firstKeptEntryId" =
      e.string "firstKeptEntryId" := by
    rw [string, string, get_set_of_ne _ (by decide)]
  rw [relink, movedBoundary, if_pos compaction]
  rcases replaced.get? (e.string "firstKeptEntryId") with _ | _ | id
  · exact kept
  · exact kept
  · show ((e.set _ _).set _ _).string _ = _
    rw [string, get_set relinked, if_pos rfl]
    rfl

theorem get?_settle (replaced : Replacements) (pending : List (Option String))
    (id key : Option String) :
    (replaced.settle pending id).get? key =
      if key ∈ pending then some id else replaced.get? key := by
  rw [Replacements.settle]
  induction pending generalizing replaced with
  | nil => simp
  | cons label rest ih =>
    rw [foldl_cons, ih, InsertionMap.get?_set]
    by_cases later : key ∈ rest
    · rw [if_pos later, if_pos (mem_cons_of_mem _ later)]
    · rw [if_neg later]
      by_cases here : label = key
      · rw [if_pos here, if_pos (by rw [here]; exact mem_cons_self)]
      · rw [if_neg here, if_neg]
        rw [mem_cons, not_or]
        exact ⟨Ne.symm here, later⟩

/-- What is replaced once an entry follows the given ones. -/
def replacementsBefore (id : Option String) (replaced : Replacements)
    (pending : List (Option String)) : List (FileEntry N) → Replacements
  | [] => replaced.settle pending id
  | e :: rest =>
    if e.isLabel then replacementsBefore id replaced (pending ++ [e.id]) rest
    else replacementsBefore id (replaced.settle pending e.id) [] rest

theorem pathWithoutLabels_append (replaced : Replacements) (pending : List (Option String))
    (parentId : Option String) (before : List (FileEntry N)) (kept : e.isLabel = false)
    (after : List (FileEntry N)) :
    ∃ last, pathWithoutLabels replaced pending parentId (before ++ e :: after) =
      pathWithoutLabels replaced pending parentId before ++
        relink (replacementsBefore e.id replaced pending before) last e ::
          pathWithoutLabels (replacementsBefore e.id replaced pending before) [] e.id
            after := by
  induction before generalizing replaced pending parentId with
  | nil =>
    refine ⟨parentId, ?_⟩
    have step : pathWithoutLabels replaced pending parentId (e :: after) =
        relink (replaced.settle pending e.id) parentId e ::
          pathWithoutLabels (replaced.settle pending e.id) [] e.id after := by
      rw [pathWithoutLabels, if_neg (by rw [kept]; exact Bool.noConfusion)]
    exact step
  | cons first rest ih =>
    rw [cons_append, pathWithoutLabels, pathWithoutLabels, replacementsBefore]
    split
    · exact ih _ _ _
    · obtain ⟨last, eq⟩ := ih (replaced.settle pending first.id) [] first.id
      exact ⟨last, congrArg (_ :: ·) eq⟩

section

variable {id key : Option String}

variable {replaced : Replacements} {pending : List (Option String)} {before : List (FileEntry N)}

theorem replacementsBefore_other (waiting : key ∉ pending) (other : key ∉ before.map FileEntry.id) :
    (replacementsBefore id replaced pending before).get? key = replaced.get? key := by
  induction before generalizing replaced pending with
  | nil => rw [replacementsBefore, get?_settle, if_neg waiting]
  | cons e rest ih =>
    rw [map_cons, mem_cons, not_or] at other
    rw [replacementsBefore]
    split
    · refine ih ?_ other.2
      rw [mem_append, mem_singleton, not_or]
      exact ⟨waiting, other.1⟩
    · rw [ih not_mem_nil other.2, get?_settle, if_neg waiting]

def nextKept (id : Option String) : List (FileEntry N) → Option String
  | [] => id
  | e :: rest => if e.isLabel then nextKept id rest else e.id

theorem replacementsBefore_pending (waiting : key ∈ pending)
    (other : key ∉ before.map FileEntry.id) :
    (replacementsBefore id replaced pending before).get? key = some (nextKept id before) := by
  induction before generalizing replaced pending with
  | nil => rw [replacementsBefore, get?_settle, if_pos waiting, nextKept]
  | cons e rest ih =>
    rw [map_cons, mem_cons, not_or] at other
    rw [replacementsBefore, nextKept]
    split
    · exact ih (mem_append_left _ waiting) other.2
    · rw [replacementsBefore_other not_mem_nil other.2, get?_settle, if_pos waiting]

theorem replacementsBefore_mem {target : Option String}
    (found : (replacementsBefore id replaced pending before).get? key = some target) :
    target = id ∨ target ∈ before.map FileEntry.id ∨ replaced.get? key = some target := by
  induction before generalizing replaced pending with
  | nil =>
    rw [replacementsBefore, get?_settle] at found
    split at found
    · exact Or.inl (Option.some.inj found).symm
    · exact Or.inr (Or.inr found)
  | cons e rest ih =>
    rw [map_cons, mem_cons]
    rw [replacementsBefore] at found
    split at found
    · rcases ih found with self | later | before
      · exact Or.inl self
      · exact Or.inr (Or.inl (Or.inr later))
      · exact Or.inr (Or.inr before)
    · rcases ih found with self | later | before
      · exact Or.inl self
      · exact Or.inr (Or.inl (Or.inr later))
      · rw [get?_settle] at before
        split at before
        · exact Or.inr (Or.inl (Or.inl (Option.some.inj before).symm))
        · exact Or.inr (Or.inr before)

end

theorem nextKept_isSome {id : Option String} (self : id.isSome = true)
    (named : ∀ e ∈ before, e.id.isSome = true) : (nextKept id before).isSome = true := by
  induction before with
  | nil => exact self
  | cons e rest ih =>
    obtain ⟨here, later⟩ := forall_mem_cons.mp named
    rw [nextKept]
    split
    · exact ih later
    · exact here

theorem next_label (label : e.isLabel = true) (settings : ContextSettings N) :
    settings.next e = settings := by
  have type : e.type = some "label" := of_decide_eq_true label
  simp [ContextSettings.next, isAssistant, type]

theorem keptEntries_cons (boundary : Option String) (e : FileEntry N) (rest : List (FileEntry N)) :
    keptEntries boundary (e :: rest) =
      if e.id = boundary then e :: rest else keptEntries boundary rest := by
  rw [keptEntries, keptEntries, dropWhile_cons]
  by_cases here : e.id = boundary <;> simp [here]

theorem keptEntries_nextKept (replaced : Replacements) (pending : List (Option String))
    (parentId id : Option String) :
    keptEntries (nextKept id before) (pathWithoutLabels replaced pending parentId before) =
      pathWithoutLabels replaced pending parentId before := by
  induction before generalizing replaced pending parentId with
  | nil => rfl
  | cons e rest ih =>
    rw [pathWithoutLabels, nextKept]
    split
    · exact ih _ _ _
    · rw [keptEntries_cons, if_pos (id_relink _ _ e)]

section

variable [JsonNumber N] (time : Option (Json N) → Json N)

theorem messages_label {e : FileEntry N} (label : e.isLabel = true) :
    sessionEntryToContextMessages time e = [] := by
  have type : e.type = some "label" := of_decide_eq_true label
  simp [sessionEntryToContextMessages, type]

theorem messages_pathWithoutLabels (replaced : Replacements) (pending : List (Option String))
    (parentId : Option String) (path : List (FileEntry N)) :
    (pathWithoutLabels replaced pending parentId path).flatMap
        (sessionEntryToContextMessages time) =
      path.flatMap (sessionEntryToContextMessages time) := by
  induction path generalizing replaced pending parentId with
  | nil => rfl
  | cons e rest ih =>
    rw [pathWithoutLabels, flatMap_cons]
    split
    · rename_i label
      rw [messages_label time label, ih]
      rfl
    · rw [flatMap_cons, (sameContent_relink _ _ e).messages time, ih]

theorem messages_keptEntries {before : List (FileEntry N)} {id : Option String}
    (self : id.isSome = true) (named : ∀ e ∈ before, e.id.isSome = true)
    (unique : (id :: before.map FileEntry.id).Nodup) (replaced : Replacements)
    {pending : List (Option String)} (parentId : Option String) {boundary : Option String}
    (waiting : boundary ∉ pending) (unset : replaced.get? boundary = none) :
    (keptEntries (movedBoundary (replacementsBefore id replaced pending before) boundary)
        (pathWithoutLabels replaced pending parentId before)).flatMap
        (sessionEntryToContextMessages time) =
      (keptEntries boundary before).flatMap (sessionEntryToContextMessages time) := by
  induction before generalizing replaced pending parentId with
  | nil => rfl
  | cons e rest ih =>
    obtain ⟨here, later⟩ := forall_mem_cons.mp named
    rw [map_cons, nodup_cons, mem_cons, not_or, nodup_cons] at unique
    obtain ⟨⟨apart, outside⟩, first, rest_⟩ := unique
    have shorter : (id :: rest.map FileEntry.id).Nodup := nodup_cons.mpr ⟨outside, rest_⟩
    rw [keptEntries_cons, pathWithoutLabels, replacementsBefore]
    by_cases found : e.id = boundary
    · rw [if_pos found]
      rw [found] at first
      split
      · rename_i label
        have moved : movedBoundary (replacementsBefore id replaced (pending ++ [e.id]) rest)
            boundary = nextKept id rest := by
          have present : boundary ∈ pending ++ [e.id] := by
            rw [found]
            exact mem_append_right _ (mem_singleton_self _)
          obtain ⟨next, eq⟩ := Option.isSome_iff_exists.mp (nextKept_isSome self later)
          rw [movedBoundary, replacementsBefore_pending present first, eq]
        rw [moved, keptEntries_nextKept, messages_pathWithoutLabels, flatMap_cons,
          messages_label time label]
        rfl
      · have still : movedBoundary (replacementsBefore id (replaced.settle pending e.id) []
            rest) boundary = boundary := by
          rw [movedBoundary, replacementsBefore_other not_mem_nil first, get?_settle,
            if_neg waiting, unset]
        rw [still, keptEntries_cons, if_pos ((id_relink _ _ e).trans found), flatMap_cons,
          flatMap_cons, (sameContent_relink _ _ e).messages time, messages_pathWithoutLabels]
    · rw [if_neg found]
      split
      · refine ih later shorter replaced parentId ?_ unset
        rw [mem_append, mem_singleton, not_or]
        exact ⟨waiting, Ne.symm found⟩
      · have unsettled : (replaced.settle pending e.id).get? boundary = none := by
          rw [get?_settle, if_neg waiting, unset]
        rw [keptEntries_cons, if_neg]
        · exact ih later shorter _ _ not_mem_nil unsettled
        · rw [id_relink, movedBoundary]
          split
          · rename_i target moved
            intro same
            rcases replacementsBefore_mem moved with self_ | inside | old
            · exact apart (self_.symm.trans same.symm)
            · exact first (same ▸ inside)
            · rw [unsettled] at old
              cases old
          · exact found

end

theorem compaction_cases (path : List (FileEntry N)) :
    (∀ e ∈ path, e.isCompaction = false) ∨
      ∃ before compaction after, path = before ++ compaction :: after ∧
        compaction.isCompaction = true ∧ ∀ e ∈ after, e.isCompaction = false := by
  induction path with
  | nil => exact Or.inl (forall_mem_nil _)
  | cons e rest ih =>
    rcases ih with none_ | ⟨before, compaction, after, rfl, compacts, later⟩
    · cases compacts : e.isCompaction with
      | false => exact Or.inl (forall_mem_cons.mpr ⟨compacts, none_⟩)
      | true => exact Or.inr ⟨[], e, rest, rfl, compacts, none_⟩
    · exact Or.inr ⟨e :: before, compaction, after, rfl, compacts, later⟩

theorem contextEntriesOf_none
    (none_ : ∀ e ∈ path, e.isCompaction = false) : contextEntriesOf path = path := by
  have absent : path.reverse.find? (·.isCompaction) = none := by
    rw [find?_eq_none]
    intro e mem
    rw [none_ e (mem_reverse.mp mem)]
    exact Bool.noConfusion
  rw [contextEntriesOf, absent]

theorem contextEntriesOf_split {after : List (FileEntry N)} {compaction : FileEntry N}
    (compacts : compaction.isCompaction = true) (later : ∀ e ∈ after, e.isCompaction = false)
    (unique : compaction.id ∉ before.map FileEntry.id) :
    contextEntriesOf (before ++ compaction :: after) =
      compaction :: (keptEntries (compaction.string "firstKeptEntryId") before ++ after) := by
  have latest : (before ++ compaction :: after).reverse.find? (·.isCompaction) =
      some compaction := by
    rw [reverse_append, reverse_cons, append_assoc, find?_append]
    have absent : after.reverse.find? (·.isCompaction) = none := by
      rw [find?_eq_none]
      intro e mem
      rw [later e (mem_reverse.mp mem)]
      exact Bool.noConfusion
    rw [absent, Option.none_or, singleton_append, find?_cons_of_pos compacts]
  have place : (before ++ compaction :: after).findIdx? (fun e => e.id = compaction.id) =
      some before.length := by
    rw [findIdx?_eq_some_iff_getElem]
    refine ⟨by simp, by simp, ?_⟩
    intro i inside
    have mem := getElem_mem inside
    rw [getElem_append_left inside]
    intro same
    exact unique (mem_map.mpr ⟨_, mem, of_decide_eq_true same⟩)
  rw [contextEntriesOf, latest]
  dsimp only
  rw [place]
  dsimp only
  rw [take_left, drop_append]
  simp

theorem ids_pathWithoutLabels (replaced : Replacements) (pending : List (Option String))
    (parentId : Option String) (path : List (FileEntry N)) :
    (pathWithoutLabels replaced pending parentId path).map FileEntry.id =
      (path.filter fun e => !e.isLabel).map FileEntry.id := by
  induction path generalizing replaced pending parentId with
  | nil => rfl
  | cons e rest ih =>
    rw [pathWithoutLabels]
    cases label : e.isLabel with
    | true =>
      rw [if_pos rfl, ih, filter_cons_of_neg (by rw [label]; decide)]
    | false =>
      rw [if_neg Bool.false_ne_true, filter_cons_of_pos (by rw [label]; rfl),
        map_cons, map_cons, id_relink, ih]

theorem isCompaction_pathWithoutLabels (none_ : ∀ e ∈ path, e.isCompaction = false)
    (replaced : Replacements) (pending : List (Option String)) (parentId : Option String) :
    ∀ e ∈ pathWithoutLabels replaced pending parentId path, e.isCompaction = false := by
  induction path generalizing replaced pending parentId with
  | nil => exact forall_mem_nil _
  | cons e rest ih =>
    obtain ⟨here, later⟩ := forall_mem_cons.mp none_
    rw [pathWithoutLabels]
    split
    · exact ih later _ _ _
    · rw [forall_mem_cons]
      constructor
      · rw [isCompaction, type_relink]
        exact here
      · exact ih later _ _ _

theorem settings_pathWithoutLabels (replaced : Replacements) (pending : List (Option String))
    (parentId : Option String) (path : List (FileEntry N)) (settings : ContextSettings N) :
    (pathWithoutLabels replaced pending parentId path).foldl ContextSettings.next settings =
      path.foldl ContextSettings.next settings := by
  induction path generalizing replaced pending parentId settings with
  | nil => rfl
  | cons e rest ih =>
    rw [pathWithoutLabels, foldl_cons]
    split
    · rename_i label
      rw [next_label label, ih]
    · rw [foldl_cons, (sameContent_relink _ _ e).next, ih]

section

variable {path labels : List (FileEntry N)}

theorem isCompaction_labels (labelled : ∀ e ∈ labels, e.isLabel = true) :
    ∀ e ∈ labels, e.isCompaction = false := by
  intro e mem
  have type : e.type = some "label" := of_decide_eq_true (labelled e mem)
  rw [isCompaction, type]
  rfl

theorem messages_branched [JsonNumber N] (time : Option (Json N) → Json N)
    (named : ∀ e ∈ path, e.id.isSome = true) (unique : (path.map FileEntry.id).Nodup)
    (labelled : ∀ e ∈ labels, e.isLabel = true) :
    (contextEntriesOf (pathWithoutLabels .empty [] none path ++ labels)).flatMap
        (sessionEntryToContextMessages time) =
      (contextEntriesOf path).flatMap (sessionEntryToContextMessages time) := by
  have silent : labels.flatMap (sessionEntryToContextMessages time) = [] := by
    rw [flatMap_eq_nil_iff]
    exact fun e mem => messages_label time (labelled e mem)
  rcases compaction_cases path with none_ | ⟨before, compaction, after, rfl, compacts, later⟩
  · rw [contextEntriesOf_none none_, contextEntriesOf_none, flatMap_append,
      messages_pathWithoutLabels, silent, append_nil]
    rw [forall_mem_append]
    exact ⟨isCompaction_pathWithoutLabels none_ _ _ _, isCompaction_labels labelled⟩
  · have plain : compaction.isLabel = false := by
      have type : compaction.type = some "compaction" := of_decide_eq_true compacts
      rw [FileEntry.isLabel, type]
      rfl
    rw [map_append, map_cons, nodup_append] at unique
    obtain ⟨uniqueBefore, -, apart⟩ := unique
    have outside : compaction.id ∉ before.map FileEntry.id := by
      intro inside
      exact apart _ inside _ mem_cons_self rfl
    have self : compaction.id.isSome = true :=
      named compaction (mem_append_right _ mem_cons_self)
    have namedBefore : ∀ e ∈ before, e.id.isSome = true :=
      fun e mem => named e (mem_append_left _ mem)
    obtain ⟨last, eq⟩ := pathWithoutLabels_append .empty [] none before plain after
    have relinked : (relink (replacementsBefore compaction.id .empty [] before) last
        compaction).isCompaction = true := by
      rw [FileEntry.isCompaction, type_relink]
      exact compacts
    have laterRelinked : ∀ e ∈ pathWithoutLabels
        (replacementsBefore compaction.id .empty [] before) [] compaction.id after ++ labels,
        e.isCompaction = false := by
      rw [forall_mem_append]
      exact ⟨isCompaction_pathWithoutLabels later _ _ _, isCompaction_labels labelled⟩
    have outsideRelinked : (relink (replacementsBefore compaction.id .empty [] before) last
        compaction).id ∉ (pathWithoutLabels .empty [] none before).map FileEntry.id := by
      rw [id_relink, ids_pathWithoutLabels]
      intro inside
      obtain ⟨e, mem, same⟩ := mem_map.mp inside
      exact outside (mem_map.mpr ⟨e, mem_of_mem_filter mem, same⟩)
    rw [eq, append_assoc, cons_append,
      contextEntriesOf_split relinked laterRelinked outsideRelinked,
      contextEntriesOf_split compacts later outside, boundary_relink _ _ compacts, flatMap_cons,
      flatMap_cons, (sameContent_relink _ _ compaction).messages time, flatMap_append,
      flatMap_append, flatMap_append, messages_pathWithoutLabels, silent, append_nil]
    rw [messages_keptEntries time self namedBefore (nodup_cons.mpr ⟨outside, uniqueBefore⟩)
      .empty none not_mem_nil rfl]

theorem settings_branched (labelled : ∀ e ∈ labels, e.isLabel = true) :
    getSessionContextSettings (pathWithoutLabels .empty [] none path ++ labels) =
      getSessionContextSettings path := by
  have silent : ∀ settings : ContextSettings N,
      labels.foldl ContextSettings.next settings = settings := by
    induction labels with
    | nil => exact fun _ => rfl
    | cons e rest ih =>
      obtain ⟨here, later⟩ := forall_mem_cons.mp labelled
      intro settings
      rw [foldl_cons, next_label here]
      exact ih later settings
  rw [getSessionContextSettings, getSessionContextSettings, foldl_append, silent,
    settings_pathWithoutLabels]

end

end Trpi.CodingAgent
