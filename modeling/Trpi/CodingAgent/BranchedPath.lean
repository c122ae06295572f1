import Mathlib.Data.List.Induction
import Trpi.CodingAgent.BranchedContext

/-!
# The path of a branched session

The entries of the branched session are below each other, and the path from the last one is
all of them. Ids of labels are new: the last resort of their source is an id no entry has.
-/

namespace Trpi.CodingAgent

open Library SessionIndex List Json

open FileEntry hiding get id

variable {N : Type}

/-- Each entry is below the one before it. -/
def Linked : Option String → List (FileEntry N) → Prop
  | _, [] => True
  | parentId, entry :: rest => entry.parentId = parentId ∧ Linked entry.id rest

def lastIdOr (parentId : Option String) (entries : List (FileEntry N)) : Option String :=
  match entries.getLast? with
  | none => parentId
  | some last => last.id

theorem lastIdOr_cons (parentId : Option String) (entry : FileEntry N)
    (rest : List (FileEntry N)) : lastIdOr parentId (entry :: rest) = lastIdOr entry.id rest := by
  cases rest with
  | nil => rfl
  | cons next more =>
    rw [lastIdOr, lastIdOr, getLast?_cons_cons]
    cases last : (next :: more).getLast? with
    | none => exact absurd (getLast?_eq_none_iff.mp last) (cons_ne_nil _ _)
    | some entry => rfl

variable {front entries : List (FileEntry N)} {entry last : FileEntry N}

theorem linked_append {parentId : Option String} {back : List (FileEntry N)} :
    Linked parentId (front ++ back) ↔
      Linked parentId front ∧ Linked (lastIdOr parentId front) back := by
  induction front generalizing parentId with
  | nil => exact (and_iff_right trivial).symm
  | cons entry rest ih =>
    rw [cons_append, Linked, Linked, ih, lastIdOr_cons, and_assoc]

/-- An id that a path can be followed through. -/
def Named (entry : FileEntry N) : Prop := ∃ id, entry.id = some id ∧ id ≠ ""

theorem Named.object (named : Named entry) : entry.json.isObject = true := by
  obtain ⟨id, own, -⟩ := named
  rw [FileEntry.id, string, Option.bind_eq_some_iff] at own
  obtain ⟨v, present, -⟩ := own
  exact isObject_of_get? present

theorem Named.isSome (named : Named entry) : entry.id.isSome = true := by
  obtain ⟨id, own, -⟩ := named
  rw [own]
  rfl

theorem walk_linked {i : EntryIndex N} (linked : Linked none (front ++ [last]))
    (named : ∀ entry ∈ front, Named entry) (found : ∀ entry ∈ front, i.get? entry.id = some entry)
    {fuel : Nat} (enough : front.length < fuel) : walk i fuel last = (front ++ [last]).reverse := by
  induction front using reverseRecOn generalizing last fuel with
  | nil =>
    cases fuel with
    | zero => cases enough
    | succ fuel =>
      have root : last.parentId = none := linked.1
      rw [walk, parentOf, root]
      rfl
  | append_singleton front previous ih =>
    cases fuel with
    | zero => cases enough
    | succ fuel =>
      obtain ⟨before, parent, -⟩ := linked_append.mp linked
      obtain ⟨id, own, some_⟩ := named previous (mem_append_right _ (mem_singleton_self _))
      have above : parentOf i last = some previous := by
        have lastId : lastIdOr none (front ++ [previous]) = previous.id := by
          rw [lastIdOr, getLast?_concat]
        have stored := found previous (mem_append_right _ (mem_singleton_self _))
        rw [own] at stored
        rw [parentOf, parent, lastId, own]
        dsimp only
        rw [if_neg some_]
        exact stored
      rw [length_append, length_singleton] at enough
      rw [walk, above]
      dsimp only
      rw [ih before (fun entry mem => named entry (mem_append_left _ mem))
        (fun entry mem => found entry (mem_append_left _ mem)) (by omega)]
      rw [reverse_append]
      simp

theorem linked_pathWithoutLabels (replaced : Replacements) (pending : List (Option String))
    (parentId : Option String) {path : List (FileEntry N)}
    (objects : ∀ entry ∈ path, entry.json.isObject = true) :
    Linked parentId (pathWithoutLabels replaced pending parentId path) := by
  induction path generalizing replaced pending parentId with
  | nil => trivial
  | cons entry rest ih =>
    obtain ⟨here, later⟩ := forall_mem_cons.mp objects
    rw [pathWithoutLabels]
    split
    · exact ih _ _ _ later
    · refine ⟨parentId_relink _ _ here, ?_⟩
      rw [id_relink]
      exact ih _ _ _ later

theorem kept_pathWithoutLabels (replaced : Replacements) (pending : List (Option String))
    (parentId : Option String) (path : List (FileEntry N)) :
    List.Forall₂ (fun kept entry => kept.id = entry.id ∧ SameContent kept entry)
      (pathWithoutLabels replaced pending parentId path)
      (path.filter fun entry => !entry.isLabel) := by
  induction path generalizing replaced pending parentId with
  | nil => exact .nil
  | cons entry rest ih =>
    rw [pathWithoutLabels]
    cases label : entry.isLabel with
    | true =>
      rw [if_pos rfl, filter_cons_of_neg (by rw [label]; decide)]
      exact ih _ _ _
    | false =>
      rw [if_neg Bool.false_ne_true, filter_cons_of_pos (by rw [label]; rfl)]
      exact .cons ⟨id_relink _ _ entry, sameContent_relink _ _ entry⟩ (ih _ _ _)

/-- The last resorts are ids that no entry and no other source has. -/
structure FreshSources (sources : Nat → IdSource) (known : List (Option String)) : Prop where
  uuid_known : ∀ n, some (sources n).uuid ∉ known
  uuid_uuid : ∀ m n, (sources m).uuid = (sources n).uuid → m = n
  uuid_short : ∀ m n i, (sources m).uuid ≠ (sources n).short i
  some_short : ∀ n i, (sources n).short i ≠ ""
  some_uuid : ∀ n, (sources n).uuid ≠ ""

theorem generateId_cases (source : IdSource) (taken : String → Bool) :
    (∃ i, generateId source taken = source.short i ∧ taken (source.short i) = false) ∨
      generateId source taken = source.uuid := by
  rw [generateId]
  cases found : ((range 100).map source.short).find? fun id => !taken id with
  | none => exact Or.inr rfl
  | some id =>
    left
    obtain ⟨i, -, rfl⟩ := mem_map.mp (mem_of_find?_eq_some found)
    have free := find?_some found
    exact ⟨i, rfl, Bool.not_eq_true' _ ▸ free⟩

namespace LabelToWrite

variable (toWrite : LabelToWrite N) (id : String) (parentId : Option String)

theorem id_entry : (toWrite.entry id parentId).id = some id := by
  simp [entry, FileEntry.id, string, FileEntry.get, get?_ofMembers_cons, string?]

theorem parentId_entry : (toWrite.entry id parentId).parentId = parentId := by
  cases parentId <;>
    simp [entry, parentId, string, FileEntry.get, get?_ofMembers_cons, parentJson, string?]

theorem type_entry : (toWrite.entry id parentId).type = some "label" := by
  simp [entry, type, string, FileEntry.get, get?_ofMembers_cons, string?]

theorem targetId_entry : (toWrite.entry id parentId).string "targetId" = toWrite.targetId := by
  cases target : toWrite.targetId <;>
    simp [entry, string, FileEntry.get, get?_ofMembers_cons, string?, target]

theorem label_entry : (toWrite.entry id parentId).get "label" = some toWrite.label := by
  simp [entry, FileEntry.get, get?_ofMembers_cons]

end LabelToWrite

section

variable (sources : Nat → IdSource)

section

variable (n : Nat) (taken : List (Option String)) (parentId : Option String)
  (labels : List (LabelToWrite N))

theorem linked_labelEntries : Linked parentId (labelEntries sources n taken parentId labels) := by
  induction labels generalizing n taken parentId with
  | nil => trivial
  | cons label rest ih =>
    refine ⟨label.parentId_entry _ _, ?_⟩
    rw [LabelToWrite.id_entry]
    exact ih _ _ _

theorem isLabel_labelEntries :
    ∀ entry ∈ labelEntries sources n taken parentId labels, entry.isLabel = true := by
  induction labels generalizing n taken parentId with
  | nil => exact forall_mem_nil _
  | cons label rest ih =>
    rw [labelEntries, forall_mem_cons]
    exact ⟨decide_eq_true (label.type_entry _ _), ih _ _ _⟩

end

variable {sources} {known : List (Option String)}

theorem FreshSources.generateId_ne (fresh : FreshSources sources known) (n : Nat)
    (taken : String → Bool) : generateId (sources n) taken ≠ "" := by
  rcases generateId_cases (sources n) taken with ⟨i, eq, -⟩ | eq
  · rw [eq]
    exact fresh.some_short n i
  · rw [eq]
    exact fresh.some_uuid n

theorem named_labelEntries (fresh : FreshSources sources known) (n : Nat)
    (taken : List (Option String)) (parentId : Option String) (labels : List (LabelToWrite N)) :
    ∀ entry ∈ labelEntries sources n taken parentId labels, Named entry := by
  induction labels generalizing n taken parentId with
  | nil => exact forall_mem_nil _
  | cons label rest ih =>
    rw [labelEntries, forall_mem_cons]
    exact ⟨⟨_, label.id_entry _ _, fresh.generateId_ne n _⟩, ih _ _ _⟩

theorem nodup_labelEntries (fresh : FreshSources sources known) {n : Nat}
    {taken : List (Option String)} {parentId : Option String} {labels : List (LabelToWrite N)}
    (unique : taken.Nodup) (ahead : ∀ m, n ≤ m → some (sources m).uuid ∉ taken) :
    (taken ++ (labelEntries sources n taken parentId labels).map FileEntry.id).Nodup := by
  induction labels generalizing n taken parentId with
  | nil =>
    rw [labelEntries, map_nil, append_nil]
    exact unique
  | cons label rest ih =>
    have free : some (generateId (sources n) fun id => taken.contains (some id)) ∉ taken := by
      rcases generateId_cases (sources n) fun id => taken.contains (some id) with ⟨i, eq, unused⟩ | eq
      · rw [eq]
        intro inside
        rw [contains_iff_mem.mpr inside] at unused
        cases unused
      · rw [eq]
        exact ahead n (Nat.le_refl n)
    have later : ∀ m, n + 1 ≤ m → some (sources m).uuid ∉
        taken ++ [some (generateId (sources n) fun id => taken.contains (some id))] := by
      intro m behind
      rw [mem_append, mem_singleton, not_or]
      refine ⟨ahead m (by omega), ?_⟩
      intro same
      have equal := Option.some.inj same
      rcases generateId_cases (sources n) fun id => taken.contains (some id) with ⟨i, eq, -⟩ | eq
      · rw [eq] at equal
        exact fresh.uuid_short m n i equal
      · rw [eq] at equal
        have number := fresh.uuid_uuid m n equal
        omega
    have grown : (taken ++ [some (generateId (sources n) fun id => taken.contains (some id))]).Nodup :=
      nodup_append.mpr ⟨unique, nodup_singleton _, fun key mem other self => by
        rw [mem_singleton.mp self]
        exact fun same => free (same ▸ mem)⟩
    have whole : ∀ parentId, (taken ++
        [some (generateId (sources n) fun id => taken.contains (some id))] ++
          (labelEntries sources (n + 1) _ parentId rest).map FileEntry.id).Nodup :=
      fun _ => ih grown later
    specialize whole (some (generateId (sources n) fun id => taken.contains (some id)))
    rw [append_assoc, singleton_append] at whole
    rw [labelEntries, map_cons, LabelToWrite.id_entry]
    exact whole

end

variable [JsonNumber N]

theorem build_concat (entries : List (FileEntry N)) (entry : FileEntry N) :
    build (entries ++ [entry]) = (build entries).add entry := by
  rw [build, foldl_append]
  rfl

theorem build_header {header : FileEntry N} (s : header.isSession = true)
    (entries : List (FileEntry N)) : build (header :: entries) = build entries := by
  have skipped : (empty (N := N)).add header = .empty := by
    rw [add, if_pos s]
  rw [build, foldl_cons, skipped]
  rfl

section

variable (plain : ∀ entry ∈ entries, entry.isSession = false)
  (unique : (entries.map FileEntry.id).Nodup)

include plain unique

theorem toList_build :
    (build entries).byId.toList = entries.map fun entry => (entry.id, entry) := by
  induction entries using reverseRecOn with
  | nil => rfl
  | append_singleton entries entry ih =>
    obtain ⟨before, last⟩ := forall_mem_append.mp plain
    rw [map_append, nodup_append] at unique
    obtain ⟨uniqueBefore, -, apart⟩ := unique
    have listed := ih before uniqueBefore
    have free : (build entries).byId.get? entry.id = none := by
      rw [InsertionMap.get?_eq_none_iff, InsertionMap.keys, listed, map_map]
      intro inside
      exact apart _ inside _ (mem_singleton_self _) rfl
    rw [build_concat, byId_add _ (last entry (mem_singleton_self _)),
      InsertionMap.toList_set_of_fresh _ _ _ free, listed, map_append]
    rfl

theorem get?_build (mem : entry ∈ entries) : (build entries).byId.get? entry.id = some entry := by
  rw [InsertionMap.get?_eq_some_iff, toList_build plain unique]
  exact mem_map.mpr ⟨entry, mem, rfl⟩

end

theorem leafId_build (plain : last.isSession = false) :
    (build (front ++ [last])).leafId = LeafId.of last.id := by
  rw [build_concat, leafId_add _ plain]

theorem path_linked (linked : Linked none entries) (named : ∀ entry ∈ entries, Named entry)
    (plain : ∀ entry ∈ entries, entry.isSession = false)
    (unique : (entries.map FileEntry.id).Nodup) :
    buildSessionPath entries (build entries).leafId (build entries).byId = entries := by
  rcases eq_nil_or_concat entries with rfl | ⟨front, last, rfl⟩
  · rfl
  rw [concat_eq_append] at linked named plain unique ⊢
  have mem : last ∈ front ++ [last] := mem_append_right _ (mem_singleton_self _)
  obtain ⟨id, own, some_⟩ := named last mem
  have stored := get?_build plain unique mem
  rw [own] at stored
  rw [leafId_build (plain last mem), own, LeafId.of, buildSessionPath, if_neg some_, stored]
  dsimp only [Option.some_or]
  have length : (build (front ++ [last])).byId.toList.length = front.length + 1 := by
    rw [toList_build plain unique, length_map, length_append, length_singleton]
  rw [pathFrom, walk_linked linked (fun entry inside => named entry (mem_append_left _ inside))
    (fun entry inside => get?_build plain unique (mem_append_left _ inside))
    (by rw [length]; omega), reverse_reverse]

end Trpi.CodingAgent
