import Trpi.CodingAgent.BranchedPath
import Trpi.Library.JsonInt

/-!
# A branched session keeps the conversation

In a session that is a tree the path to an entry has every id once. The session made of it
has the same context and the labels of what it kept, its entries are below each other, and
the file it is written to is opened as the same session.
-/

namespace Trpi.CodingAgent

open Library FileEntry SessionIndex InsertionMap SessionManager List

variable {N : Type} {i : SessionIndex N}

/-- Entries are found under their own ids, parents are above, and labels are set. -/
structure SessionTree [JsonNumber N] (i : SessionIndex N) : Prop where
  indexed : ∀ key entry, i.byId.get? key = some entry →
    entry.id = key ∧ entry.isSession = false ∧ Named entry
  acyclic : ∃ rank : Option String → Nat, ∀ key entry parent,
    i.byId.get? key = some entry → parentOf i.byId entry = some parent →
      rank parent.id < rank entry.id
  labelled : ∀ target label, i.labelsById.get? target = some label → label.truthy = true

theorem get?_of_parentOf {i : EntryIndex N} {e parent : FileEntry N}
    (above : parentOf i e = some parent) : ∃ key, i.get? key = some parent := by
  rw [parentOf] at above
  split at above
  · cases above
  · split at above
    · cases above
    · exact ⟨_, above⟩

theorem walk_rank {rank : Option String → Nat}
    (descends : ∀ key e parent, i.byId.get? key = some e →
      parentOf i.byId e = some parent → rank parent.id < rank e.id)
    {fuel : Nat} {start : FileEntry N} {key : Option String}
    (found : i.byId.get? key = some start) :
    ∀ e ∈ walk i.byId fuel start, rank e.id ≤ rank start.id := by
  induction fuel generalizing start key with
  | zero => exact forall_mem_nil _
  | succ fuel ih =>
    rw [walk, forall_mem_cons]
    refine ⟨Nat.le_refl _, ?_⟩
    cases above : parentOf i.byId start with
    | none => exact forall_mem_nil _
    | some parent =>
      obtain ⟨other, stored⟩ := get?_of_parentOf above
      intro e mem
      have below := descends key start parent found above
      have inside := ih stored e mem
      omega

section

variable [JsonNumber N] {i : SessionIndex N} {start : FileEntry N} {key : Option String}

theorem SessionTree.walk_mem (tree : SessionTree i) {fuel : Nat}
    (found : i.byId.get? key = some start) :
    ∀ e ∈ walk i.byId fuel start, i.byId.get? e.id = some e := by
  induction fuel generalizing start key with
  | zero => exact forall_mem_nil _
  | succ fuel ih =>
    rw [walk, forall_mem_cons]
    constructor
    · rw [(tree.indexed key start found).1]
      exact found
    · cases above : parentOf i.byId start with
      | none => exact forall_mem_nil _
      | some parent =>
        obtain ⟨other, stored⟩ := get?_of_parentOf above
        exact ih stored

theorem SessionTree.walk_unique (tree : SessionTree i) {fuel : Nat}
    (found : i.byId.get? key = some start) : ((walk i.byId fuel start).map FileEntry.id).Nodup := by
  obtain ⟨rank, descends⟩ := tree.acyclic
  induction fuel generalizing start key with
  | zero => exact nodup_nil
  | succ fuel ih =>
    rw [walk, map_cons, nodup_cons]
    cases above : parentOf i.byId start with
    | none => exact ⟨not_mem_nil, nodup_nil⟩
    | some parent =>
      obtain ⟨other, stored⟩ := get?_of_parentOf above
      refine ⟨?_, ih stored⟩
      intro inside
      obtain ⟨e, mem, same⟩ := mem_map.mp inside
      have bound := walk_rank descends stored e mem
      have below := descends key start parent found above
      rw [same] at bound
      omega

end

theorem targets_labelsToWrite (i : SessionIndex N) (ids : List (Option String)) :
    ((i.labelsToWrite ids).map LabelToWrite.targetId).Nodup := by
  rw [labelsToWrite, map_map]
  exact i.labelsById.nodup.sublist (filter_sublist.map Prod.fst)

theorem find?_labelsToWrite (i : SessionIndex N) {ids : List (Option String)}
    {target : Option String} (kept : target ∈ ids) :
    ((i.labelsToWrite ids).find? fun label => label.targetId = target).map LabelToWrite.label =
      i.labelsById.get? target := by
  rw [labelsToWrite, get?]
  induction i.labelsById.toList with
  | nil => rfl
  | cons binding rest ih =>
    by_cases same : binding.1 = target
    · have inside : ids.contains binding.1 = true := contains_iff_mem.mpr (same ▸ kept)
      rw [filter_cons, if_pos inside, map_cons, find?_cons_of_pos (by simp [same]),
        find?_cons_of_pos (by simp [same])]
      rfl
    · rw [find?_cons_of_neg (by simp [same]), ← ih]
      cases inside : ids.contains binding.1 with
      | true =>
        rw [filter_cons, if_pos inside, map_cons, find?_cons_of_neg (by simp [same])]
      | false => rw [filter_cons, if_neg (by rw [inside]; exact Bool.noConfusion)]

section

variable [JsonNumber N]

theorem labelsById_add_other (i : SessionIndex N) {e : FileEntry N}
    (other : e.isLabel = false) : (i.add e).labelsById = i.labelsById := by
  rw [add]
  split
  · rfl
  · dsimp only
    rw [if_neg (by rw [other]; exact Bool.noConfusion)]

theorem labelsById_add_entry (i : SessionIndex N) (toWrite : LabelToWrite N) (id : String)
    (parentId : Option String) (truthy : toWrite.label.truthy = true) :
    (i.add (toWrite.entry id parentId)).labelsById =
      i.labelsById.set toWrite.targetId toWrite.label := by
  have plain : (toWrite.entry id parentId).isSession = false := by
    rw [isSession, toWrite.type_entry]
    rfl
  have label : (toWrite.entry id parentId).isLabel = true :=
    decide_eq_true (toWrite.type_entry id parentId)
  rw [add, if_neg (by rw [plain]; exact Bool.noConfusion)]
  dsimp only
  rw [if_pos label, toWrite.targetId_entry, toWrite.label_entry]
  unfold setLabel
  dsimp only
  rw [if_pos truthy]

theorem labelsById_build_other {entries : List (FileEntry N)}
    (others : ∀ e ∈ entries, e.isLabel = false) : (build entries).labelsById = .empty := by
  induction entries using reverseRecOn with
  | nil => rfl
  | append_singleton entries e ih =>
    obtain ⟨before, last⟩ := forall_mem_append.mp others
    rw [build_concat, labelsById_add_other _ (last e (mem_singleton_self _)), ih before]

theorem get?_labelEntries (sources : Nat → IdSource) {labels : List (LabelToWrite N)}
    (truthy : ∀ label ∈ labels, label.label.truthy = true)
    (unique : (labels.map LabelToWrite.targetId).Nodup) (i : SessionIndex N) (n : Nat)
    (taken : List (Option String)) (parentId target : Option String) :
    ((labelEntries sources n taken parentId labels).foldl add i).labelsById.get?
        target =
      match labels.find? fun label => label.targetId = target with
      | some label => some label.label
      | none => i.labelsById.get? target := by
  induction labels generalizing i n taken parentId with
  | nil => rfl
  | cons label rest ih =>
    obtain ⟨here, later⟩ := forall_mem_cons.mp truthy
    rw [map_cons, nodup_cons] at unique
    rw [labelEntries, foldl_cons, ih later unique.2, labelsById_add_entry _ _ _ _ here, get?_set]
    by_cases same : label.targetId = target
    · have absent : rest.find? (fun label => label.targetId = target) = none := by
        rw [find?_eq_none]
        intro other mem equal
        refine unique.1 (mem_map.mpr ⟨other, mem, ?_⟩)
        rw [of_decide_eq_true equal, same]
      have first : (label :: rest).find? (fun label => label.targetId = target) = some label := by
        simp [same]
      rw [first, absent, if_pos same]
    · have behind : (label :: rest).find? (fun label => label.targetId = target) =
          rest.find? fun label => label.targetId = target := by simp [same]
      rw [behind, if_neg same]

end

structure TreePath (path : List (FileEntry N)) : Prop where
  plain : ∀ entry ∈ path, entry.isSession = false
  named : ∀ entry ∈ path, Named entry
  unique : (path.map FileEntry.id).Nodup

section

variable [JsonNumber N] {i : SessionIndex N}

theorem SessionTree.getBranch (tree : SessionTree i) {leafId : String}
    (there : i.byId.contains (some leafId) = true) :
    ∃ leaf, leafId ≠ "" ∧ i.byId.get? (some leafId) = some leaf ∧
      i.getBranch leafId = pathFrom i.byId leaf ∧ pathFrom i.byId leaf ≠ [] := by
  obtain ⟨leaf, found⟩ := Option.isSome_iff_exists.mp there
  obtain ⟨own, -, id, named, some_⟩ := tree.indexed _ _ found
  rw [own] at named
  cases named
  refine ⟨leaf, some_, found, ?_, ?_⟩
  · rw [SessionIndex.getBranch, if_neg some_, found]
  · rw [pathFrom, walk]
    simp

theorem SessionTree.path (tree : SessionTree i) {key : Option String} {leaf : FileEntry N}
    (found : i.byId.get? key = some leaf) : TreePath (pathFrom i.byId leaf) := by
  have stored : ∀ e ∈ pathFrom i.byId leaf, i.byId.get? e.id = some e := by
    intro e mem
    exact tree.walk_mem found e (mem_reverse.mp mem)
  constructor
  · exact fun e mem => (tree.indexed _ _ (stored e mem)).2.1
  · exact fun e mem => (tree.indexed _ _ (stored e mem)).2.2
  · rw [pathFrom, map_reverse, nodup_reverse]
    exact tree.walk_unique found

end

theorem mem_pathWithoutLabels {path : List (FileEntry N)} {replaced : Replacements}
    {pending : List (Option String)} {parentId : Option String} {kept : FileEntry N}
    (mem : kept ∈ pathWithoutLabels replaced pending parentId path) :
    ∃ e ∈ path, e.isLabel = false ∧ kept.id = e.id ∧ kept.type = e.type := by
  induction path generalizing replaced pending parentId with
  | nil => cases mem
  | cons e rest ih =>
    rw [pathWithoutLabels] at mem
    cases label : e.isLabel with
    | true =>
      rw [label, if_pos rfl] at mem
      obtain ⟨other, inside, facts⟩ := ih mem
      exact ⟨other, mem_cons_of_mem _ inside, facts⟩
    | false =>
      rw [label, if_neg Bool.false_ne_true] at mem
      rcases mem_cons.mp mem with rfl | later
      · exact ⟨e, mem_cons_self, label, id_relink _ _ e, type_relink _ _ e⟩
      · obtain ⟨other, inside, facts⟩ := ih later
        exact ⟨other, mem_cons_of_mem _ inside, facts⟩

theorem lastEntryId_eq {kept : List (FileEntry N)} (named : ∀ e ∈ kept, Named e) :
    lastEntryId kept = lastIdOr none kept := by
  rw [lastEntryId, lastIdOr]
  cases last : kept.getLast? with
  | none => rfl
  | some e =>
    obtain ⟨id, own, some_⟩ := named e (mem_of_getLast? last)
    simp [own, some_]

section

variable {manager : SessionManager N} {sources : Nat → IdSource} {path : List (FileEntry N)}

section

variable (tree : TreePath path)

include tree

theorem TreePath.kept_named : ∀ e ∈ pathWithoutLabels .empty [] none path, Named e := by
  intro kept mem
  obtain ⟨e, inside, -, id, -⟩ := mem_pathWithoutLabels mem
  obtain ⟨name, own, some_⟩ := tree.named e inside
  exact ⟨name, id.trans own, some_⟩

theorem TreePath.kept_unique :
    ((pathWithoutLabels .empty [] none path).map FileEntry.id).Nodup := by
  rw [ids_pathWithoutLabels]
  exact tree.unique.sublist (filter_sublist.map _)

theorem TreePath.branched_linked : Linked none (manager.branchedEntries sources path) := by
  rw [branchedEntries]
  refine linked_append.mpr ⟨?_, ?_⟩
  · exact linked_pathWithoutLabels _ _ _ fun e mem => (tree.named e mem).object
  · rw [lastEntryId_eq tree.kept_named]
    exact linked_labelEntries _ _ _ _ _

theorem TreePath.branched_named (fresh : FreshSources sources (path.map FileEntry.id)) :
    ∀ e ∈ manager.branchedEntries sources path, Named e := by
  rw [branchedEntries]
  exact forall_mem_append.mpr ⟨tree.kept_named, named_labelEntries fresh _ _ _ _⟩

theorem TreePath.branched_plain :
    ∀ e ∈ manager.branchedEntries sources path, e.isSession = false := by
  rw [branchedEntries]
  refine forall_mem_append.mpr ⟨?_, ?_⟩
  · intro kept mem
    obtain ⟨e, inside, -, -, type⟩ := mem_pathWithoutLabels mem
    rw [isSession_eq_of_type type]
    exact tree.plain e inside
  · intro e mem
    have type : e.type = some "label" :=
      of_decide_eq_true (isLabel_labelEntries _ _ _ _ _ e mem)
    rw [isSession, type]
    rfl

theorem TreePath.branched_unique (fresh : FreshSources sources (path.map FileEntry.id)) :
    ((manager.branchedEntries sources path).map FileEntry.id).Nodup := by
  rw [branchedEntries, map_append]
  refine nodup_labelEntries fresh tree.kept_unique ?_
  intro m _ inside
  rw [ids_pathWithoutLabels] at inside
  obtain ⟨e, mem, same⟩ := mem_map.mp inside
  exact fresh.uuid_known m (mem_map.mpr ⟨e, mem_of_mem_filter mem, same⟩)

end

theorem TreePath.branched_labels [JsonNumber N]
    (labelled : ∀ target label, manager.labelsById.get? target = some label → label.truthy = true)
    {e : FileEntry N} (mem : e ∈ path) (kept : e.isLabel = false) :
    (SessionIndex.build (manager.branchedEntries sources path)).labelsById.get? e.id =
      manager.labelsById.get? e.id := by
  have inside : e.id ∈ (pathWithoutLabels .empty [] none path).map FileEntry.id := by
    rw [ids_pathWithoutLabels]
    exact mem_map.mpr ⟨e, mem_filter.mpr ⟨mem, by rw [kept]; rfl⟩, rfl⟩
  have others : ∀ other ∈ pathWithoutLabels .empty [] none path, other.isLabel = false := by
    intro other inside
    obtain ⟨origin, -, plain, -, type⟩ := mem_pathWithoutLabels inside
    rw [FileEntry.isLabel, type]
    exact plain
  have truthy : ∀ label ∈ manager.labelsToWrite
      ((pathWithoutLabels .empty [] none path).map FileEntry.id), label.label.truthy = true := by
    intro label written
    obtain ⟨binding, filtered, rfl⟩ := mem_map.mp written
    exact labelled binding.1 binding.2
      ((InsertionMap.get?_eq_some_iff _ _ _).mpr (mem_of_mem_filter filtered))
  have labels := find?_labelsToWrite manager.toSessionIndex inside
  rw [SessionManager.branchedEntries, SessionIndex.build, foldl_append,
    get?_labelEntries sources truthy (targets_labelsToWrite _ _), ← labels]
  cases found : (manager.labelsToWrite
      ((pathWithoutLabels .empty [] none path).map FileEntry.id)).find?
      fun label => label.targetId = e.id with
  | some label => rfl
  | none =>
    show (SessionIndex.build (pathWithoutLabels .empty [] none path)).labelsById.get? _ = none
    rw [labelsById_build_other others]
    rfl

end

variable {header : FileEntry N} {entries : List (FileEntry N)}

theorem isAssistant_header (s : header.isSession = true) : header.isAssistant = false := by
  have type : header.type = some "session" := of_decide_eq_true s
  rw [isAssistant, type]
  rfl

theorem entries_branched (s : header.isSession = true)
    (plain : ∀ e ∈ entries, e.isSession = false) :
    (header :: entries).filter (fun e => !e.isSession) = entries := by
  rw [filter_cons_of_neg (by rw [s]; decide)]
  refine filter_eq_self.mpr ?_
  intro e mem
  rw [plain e mem]
  rfl

variable [JsonNumber N]

/-- A branched session has the conversation of the path: its context, its entries up to ids,
their labels, one chain of parents, and a file that is opened as this session. -/
structure KeepsConversation (time : Option (Json N) → Json N) (s branched : OpenSession N)
    (leafId : String) : Prop where
  context : branched.manager.buildSessionContext time =
    buildSessionContext time s.manager.entries (.entry leafId) s.manager.byId
  entries : ∃ kept labels, branched.manager.entries = kept ++ labels ∧
    List.Forall₂ (fun kept entry => kept.id = entry.id ∧ SameContent kept entry) kept
      ((s.manager.getBranch leafId).filter fun entry => !entry.isLabel) ∧
    ∀ label ∈ labels, label.isLabel = true
  labels : ∀ entry ∈ s.manager.getBranch leafId, entry.isLabel = false →
    branched.manager.labelsById.get? entry.id = s.manager.labelsById.get? entry.id
  chain : Linked none branched.manager.entries
  unique : (branched.manager.entries.map FileEntry.id).Nodup
  written : s.manager.persist = true →
    branched.file.isSome = branched.manager.entries.any (·.isAssistant)
  reopened : s.manager.persist = true → ∀ bytes, branched.file = some bytes →
    ∀ sources header, OpenSession.openFile sources header bytes = some branched

theorem openFile_written (valid : isHeader header = true)
    (current : CURRENT_SESSION_VERSION ≤ fileVersion [header])
    (named : ∀ e ∈ entries, Named e) (sources : Nat → IdSource) (fresh : FileEntry N) :
    OpenSession.openFile sources fresh (entryBytes (header :: entries)) =
      some
        { manager :=
            { build (header :: entries) with
              persist := true, flushed := true, fileEntries := header :: entries }
          file := some (entryBytes (header :: entries)) } := by
  have s := (Bool.and_eq_true_iff.mp valid).1
  have truthy : ∀ e ∈ header :: entries, e.json.truthy = true := by
    rw [forall_mem_cons]
    constructor
    · exact Json.truthy_of_isObject (isObject_of_isSession s)
    · exact fun e mem => Json.truthy_of_isObject (named e mem).object
  have recent : CURRENT_SESSION_VERSION ≤ fileVersion (header :: entries) := by
    rw [fileVersion_cons s] at current ⊢
    exact current
  rw [OpenSession.openFile, (holds_entryBytes valid truthy).load]
  dsimp only
  rw [if_neg (cons_ne_nil _ _), loadEntries, migrateToCurrentVersion]
  dsimp only
  rw [if_pos recent]
  rfl

section

variable {manager : SessionManager N} {sources : Nat → IdSource} {path : List (FileEntry N)}
  {header : FileEntry N}

theorem TreePath.branched_context (tree : TreePath path)
    (fresh : FreshSources sources (path.map FileEntry.id)) (time : Option (Json N) → Json N) :
    buildSessionContext time (manager.branchedEntries sources path)
        (build (manager.branchedEntries sources path)).leafId
        (build (manager.branchedEntries sources path)).byId =
      { messages := (contextEntriesOf path).flatMap (sessionEntryToContextMessages time)
        settings := getSessionContextSettings path } := by
  have linked : Linked none (manager.branchedEntries sources path) := tree.branched_linked
  have all := path_linked linked (tree.branched_named fresh) tree.branched_plain
    (tree.branched_unique fresh)
  rw [buildSessionContext, buildContextEntries, all, branchedEntries]
  have messages := messages_branched time (fun e mem => (tree.named e mem).isSome)
    tree.unique (isLabel_labelEntries sources 0
      ((pathWithoutLabels .empty [] none path).map FileEntry.id)
      (lastEntryId (pathWithoutLabels .empty [] none path))
      (manager.labelsToWrite ((pathWithoutLabels .empty [] none path).map FileEntry.id)))
  rw [messages, settings_branched (isLabel_labelEntries sources 0 _ _ _)]

end

section

variable {s : OpenSession N} {leafId : String}

theorem createBranchedSession_cases (sources : Nat → IdSource) (header : FileEntry N) {path : List (FileEntry N)}
    (branch : s.manager.getBranch leafId = path) (some_ : path ≠ []) :
    ∃ branched, s.createBranchedSession sources header leafId = some branched ∧
      branched.manager.toSessionIndex =
        build (header :: s.manager.branchedEntries sources path) ∧
      branched.manager.fileEntries = header :: s.manager.branchedEntries sources path ∧
      (s.manager.persist = true →
        branched.file = if branched.manager.fileEntries.any (·.isAssistant) then
            some (entryBytes branched.manager.fileEntries) else none) ∧
      (s.manager.persist = true → branched.manager.persist = true ∧
        branched.manager.flushed = branched.manager.fileEntries.any (·.isAssistant)) := by
  rw [OpenSession.createBranchedSession, branch]
  dsimp only
  rw [if_neg some_]
  split
  · exact ⟨_, rfl, rfl, rfl, fun _ => rfl, fun _ => ⟨rfl, rfl⟩⟩
  · rename_i memory
    exact ⟨_, rfl, rfl, rfl, fun persist => absurd persist memory,
      fun persist => absurd persist memory⟩

/-- The session of a branch keeps the conversation, in memory and in its file. -/
theorem branched_keeps_conversation {sources : Nat → IdSource} (tree : SessionTree s.manager.toSessionIndex)
    (there : s.manager.byId.contains (some leafId) = true)
    (fresh : FreshSources sources ((s.manager.getBranch leafId).map FileEntry.id))
    (time : Option (Json N) → Json N) (id timestamp cwd : String)
    (parentSession : Option String) :
    ∃ branched, s.createBranchedSession sources
        (sessionHeader id timestamp cwd parentSession) leafId = some branched ∧
      KeepsConversation time s branched leafId := by
  obtain ⟨leaf, some_, found, branch, nonempty⟩ := tree.getBranch there
  have path := tree.path found
  rw [branch] at fresh
  have valid := isHeader_sessionHeader (N := N) id timestamp cwd parentSession
  have headed := (Bool.and_eq_true_iff.mp valid).1
  have current := (fileVersion_sessionHeader (N := N) id timestamp cwd parentSession).ge
  generalize sessionHeader (N := N) id timestamp cwd parentSession = header at *
  obtain ⟨branched, eq, i, fileEntries, written, flags⟩ :=
    createBranchedSession_cases sources header branch nonempty
  refine ⟨branched, eq, ?_⟩
  rw [build_header headed] at i
  have entries : branched.manager.entries =
      s.manager.branchedEntries sources (pathFrom s.manager.byId leaf) := by
    rw [SessionManager.entries, fileEntries]
    exact entries_branched headed path.branched_plain
  constructor
  · rw [SessionManager.buildSessionContext, entries, i, path.branched_context fresh]
    have old : buildSessionPath s.manager.entries (.entry leafId) s.manager.byId =
        pathFrom s.manager.byId leaf := by
      rw [buildSessionPath, if_neg some_, found]
      rfl
    rw [buildSessionContext, buildContextEntries, old]
  · rw [entries, branch]
    exact ⟨_, _, rfl, kept_pathWithoutLabels _ _ _ _, isLabel_labelEntries _ _ _ _ _⟩
  · intro e mem kept
    rw [branch] at mem
    rw [i]
    exact TreePath.branched_labels tree.labelled mem kept
  · rw [entries]
    exact path.branched_linked
  · rw [entries]
    exact path.branched_unique fresh
  · intro persist
    rw [written persist, entries, fileEntries, List.any_cons, isAssistant_header headed,
      Bool.false_or]
    split
    · rename_i assistant
      rw [assistant]
      rfl
    · rename_i silent
      rw [Bool.eq_false_iff.mpr silent]
      rfl
  · intro persist bytes file others otherHeader
    obtain ⟨persists, flushed⟩ := flags persist
    rw [written persist] at file
    split at file
    · rename_i assistant
      cases file
      rw [assistant] at flushed
      have stored := (written persist).trans (if_pos assistant)
      rw [fileEntries] at stored ⊢
      rw [openFile_written valid current (path.branched_named fresh), build_header headed]
      obtain ⟨⟨index_, persist_, flushed_, fileEntries_⟩, file_⟩ := branched
      cases i
      cases persists
      cases flushed
      cases fileEntries
      cases stored
      rfl
    · cases file

end

theorem labelled_setLabel
    (labelled : ∀ target label, i.labelsById.get? target = some label → label.truthy = true)
    (targetId : Option String) (label timestamp : Option (Json N)) :
    ∀ target label_, (i.setLabel targetId label timestamp).labelsById.get? target =
      some label_ → label_.truthy = true := by
  have erased : ∀ target label_, (i.labelsById.erase targetId).get? target = some label_ →
      label_.truthy = true := by
    intro target label_ found
    rw [get?_erase] at found
    split at found
    · cases found
    · exact labelled target label_ found
  unfold setLabel
  split
  · exact erased
  · split
    · rename_i truthy
      intro target label_ found
      rw [get?_set] at found
      split at found
      · cases found
        exact truthy
      · exact labelled target label_ found
    · exact erased

theorem labelled_build (entries : List (FileEntry N)) :
    ∀ target label, (build entries).labelsById.get? target = some label → label.truthy = true := by
  induction entries using reverseRecOn with
  | nil =>
    intro target label found
    cases found
  | append_singleton entries e ih =>
    rw [build_concat, add]
    split
    · exact ih
    · dsimp only
      split
      · exact labelled_setLabel (by exact ih) _ _ _
      · exact ih

/-- Entries with ids of their own, each behind its parent, are a tree. -/
theorem sessionTree_build (plain : ∀ e ∈ entries, e.isSession = false)
    (named : ∀ e ∈ entries, Named e) (unique : (entries.map FileEntry.id).Nodup)
    (above : ∀ front e back, entries = front ++ e :: back → ∀ parent ∈ entries,
      e.parentId = parent.id → parent.id ∈ front.map FileEntry.id) :
    SessionTree (build entries) := by
  have stored : ∀ key e, (build entries).byId.get? key = some e → e ∈ entries ∧ e.id = key := by
    intro key e found
    rw [get?_eq_some_iff, toList_build plain unique] at found
    obtain ⟨other, mem, same⟩ := mem_map.mp found
    cases same
    exact ⟨mem, rfl⟩
  constructor
  · intro key e found
    obtain ⟨mem, own⟩ := stored key e found
    exact ⟨own, plain e mem, named e mem⟩
  · refine ⟨fun key => (entries.map FileEntry.id).idxOf key, ?_⟩
    intro key e parent found up
    obtain ⟨mem, -⟩ := stored key e found
    obtain ⟨front, back, split_⟩ := append_of_mem mem
    have parentOf_ : parent ∈ entries ∧ e.parentId = parent.id := by
      rw [parentOf] at up
      split at up
      · cases up
      · rename_i parentId eq
        split at up
        · cases up
        · obtain ⟨inside, own⟩ := stored _ _ up
          exact ⟨inside, eq.trans own.symm⟩
    have before := above front e back split_ parent parentOf_.1 parentOf_.2
    have outside : e.id ∉ front.map FileEntry.id := by
      rw [split_, map_append, map_cons, nodup_append] at unique
      intro inside
      exact unique.2.2 _ inside _ mem_cons_self rfl
    have early : (front.map FileEntry.id).idxOf parent.id < (front.map FileEntry.id).length :=
      idxOf_lt_length_iff.mpr before
    dsimp only
    rw [split_, map_append, map_cons, idxOf_append_of_mem before, idxOf_append_of_notMem outside]
    omega
  · exact labelled_build entries

def questionEntry : FileEntry Int :=
  ⟨.ofMembers [("type", some (.str "message")), ("id", some (.str "a")), ("parentId", some .null),
    ("message", some (.obj [("role", .str "user"), ("content", .str "?")]))]⟩

def markEntry : FileEntry Int :=
  ⟨.ofMembers [("type", some (.str "label")), ("id", some (.str "b")),
    ("parentId", some (.str "a")), ("targetId", some (.str "a")), ("label", some (.str "start"))]⟩

def answerEntry : FileEntry Int :=
  ⟨.ofMembers [("type", some (.str "message")), ("id", some (.str "c")),
    ("parentId", some (.str "b")), ("message", some (.obj [("role", .str "assistant")]))]⟩

def markedSession : OpenSession Int where
  manager :=
    { SessionIndex.build [questionEntry, markEntry, answerEntry] with
      persist := true
      flushed := true
      fileEntries := [sessionHeader "s" "t" "/" none, questionEntry, markEntry, answerEntry] }
  file := none

def longSource (n : Nat) : IdSource where
  short _ := "d"
  uuid := String.ofList (List.replicate (n + 2) 'u')

theorem longSource_length (n : Nat) : (longSource n).uuid.toList.length = n + 2 := by
  simp [longSource]

theorem branched_keeps_marked : ∃ branched,
    markedSession.createBranchedSession longSource (sessionHeader "x" "t" "/" none) "c" =
      some branched ∧ KeepsConversation (fun _ => .null) markedSession branched "c" := by
  refine branched_keeps_conversation ?_ rfl ?_ _ _ _ _ _
  · refine sessionTree_build ?_ ?_ (by decide) ?_
    · intro e mem
      simp only [List.mem_cons, List.not_mem_nil, or_false] at mem
      rcases mem with rfl | rfl | rfl <;> rfl
    · intro e mem
      simp only [List.mem_cons, List.not_mem_nil, or_false] at mem
      rcases mem with rfl | rfl | rfl
      · exact ⟨"a", rfl, by decide⟩
      · exact ⟨"b", rfl, by decide⟩
      · exact ⟨"c", rfl, by decide⟩
    · intro front e back split_ parent mem up
      simp only [List.mem_cons, List.not_mem_nil, or_false] at mem
      rcases front with _ | ⟨first, _ | ⟨second, _ | ⟨third, rest⟩⟩⟩
      · cases split_
        rcases mem with rfl | rfl | rfl <;> exact absurd up (by decide)
      · cases split_
        rcases mem with rfl | rfl | rfl
        · decide
        · exact absurd up (by decide)
        · exact absurd up (by decide)
      · cases split_
        rcases mem with rfl | rfl | rfl
        · exact absurd up (by decide)
        · decide
        · exact absurd up (by decide)
      · exact absurd (congrArg List.length split_) (by simp)
  · have ids : (markedSession.manager.getBranch "c").map FileEntry.id =
        [some "a", some "b", some "c"] := by decide
    rw [ids]
    constructor
    · intro n inside
      have short : (longSource n).uuid.toList.length = 1 := by
        simp only [List.mem_cons, List.not_mem_nil, or_false, Option.some.injEq] at inside
        rcases inside with eq | eq | eq <;> rw [eq] <;> rfl
      rw [longSource_length] at short
      omega
    · intro m n same
      have lengths := congrArg (fun id => id.toList.length) same
      rw [longSource_length, longSource_length] at lengths
      omega
    · intro m n i same
      have lengths := congrArg (fun id => id.toList.length) same
      rw [longSource_length] at lengths
      exact absurd lengths (by simp [longSource])
    · intro n i
      exact (by decide : "d" ≠ "")
    · intro n same
      have lengths := congrArg (fun id => id.toList.length) same
      rw [longSource_length] at lengths
      exact absurd lengths (by simp)

end Trpi.CodingAgent
