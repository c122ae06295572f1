import Mathlib.Data.List.Chain
import Trpi.Session.StoreInvariant

/-!
# Branch walks end at a root

Parents are older than their children, so a walk along parent links visits
strictly smaller sequences and any fuel above the sequence of its start is
enough. It never meets a missing parent.
-/

namespace Trpi.Session

variable {β V N : Type} {stored : List (Entry β)}

/-- A path from an entry to a root, newest first, inside a list of stored entries. -/
structure IsBranchPath (stored : List (Entry β)) (start : Entry β) (path : List (Entry β)) :
    Prop where
  starts : path.head? = some start
  linked : path.IsChain fun child parent => child.parentId = some parent.id
  rooted : ∀ last ∈ path.getLast?, last.parentId = none
  stored : ∀ entry ∈ path, entry ∈ stored

theorem IsBranchPath.root {start : Entry β} (mem : start ∈ stored)
    (isRoot : start.parentId = none) : IsBranchPath stored start [start] := by
  refine ⟨rfl, List.isChain_singleton _, ?_, ?_⟩ <;> simp [isRoot, mem]

theorem IsBranchPath.child {start parent : Entry β} {path : List (Entry β)} (mem : start ∈ stored)
    (link : start.parentId = some parent.id)
    (above : IsBranchPath stored parent path) : IsBranchPath stored start (start :: path) := by
  obtain ⟨starts, linked, rooted, inside⟩ := above
  cases path with
  | nil => simp at starts
  | cons first rest =>
    rw [List.head?_cons, Option.some.injEq] at starts
    subst starts
    refine ⟨rfl, List.isChain_cons_cons.mpr ⟨link, linked⟩, ?_, ?_⟩
    · simpa using rooted
    · intro e inPath
      rcases List.mem_cons.mp inPath with rfl | old
      · exact mem
      · exact inside e old

namespace InMemoryStorageState

variable {s : InMemoryStorageState β V N}

/-- From any stored entry the walk reaches a root, whatever fuel above the
entry's sequence it is given. -/
theorem branchPath_reaches_root (inv : EntriesInvariant s.entries s.entriesBySeq s.nextSeq)
    (seq : Nat) (start : Entry β) (mem : start ∈ s.entriesBySeq) (bound : start.seq ≤ seq) :
    ∃ path, IsBranchPath s.entriesBySeq start path ∧
      ∀ fuel, start.seq < fuel → s.branchPath fuel start = .ok path := by
  induction seq generalizing start with
  | zero =>
    have isRoot : start.parentId = none := by
      by_contra linked
      obtain ⟨parentId, link⟩ := Option.ne_none_iff_exists'.mp linked
      obtain ⟨parent, -, smaller⟩ := inv.parentBefore start mem parentId link
      omega
    refine ⟨[start], .root mem isRoot, fun fuel enough => ?_⟩
    obtain ⟨less, rfl⟩ : ∃ less, fuel = less + 1 := ⟨fuel - 1, by omega⟩
    simp [branchPath, isRoot]
  | succ seq ih =>
    cases link : start.parentId with
    | none =>
      refine ⟨[start], .root mem link, fun fuel enough => ?_⟩
      obtain ⟨less, rfl⟩ : ∃ less, fuel = less + 1 := ⟨fuel - 1, by omega⟩
      simp [branchPath, link]
    | some parentId =>
      obtain ⟨parent, found, smaller⟩ := inv.parentBefore start mem parentId link
      obtain ⟨path, above, walks⟩ := ih parent (inv.mem_of_get? found) (by omega)
      have named := inv.keyed parentId parent found
      refine ⟨start :: path, .child mem (link.trans (congrArg some named.symm)) above, ?_⟩
      intro fuel enough
      obtain ⟨less, rfl⟩ : ∃ less, fuel = less + 1 := ⟨fuel - 1, by omega⟩
      simp [branchPath, link, found, walks less (by omega), Except.map]

/-- `scanBranch` from a stored entry never reports a corrupt branch. -/
theorem scanBranch_ok (inv : EntriesInvariant s.entries s.entriesBySeq s.nextSeq)
    (query : StorageBranchScan) {start : Entry β}
    (found : s.entries.get? query.start = some start) :
    ∃ entries, s.scanBranch query = .ok entries := by
  have mem := inv.mem_of_get? found
  obtain ⟨path, -, walks⟩ :=
    branchPath_reaches_root inv start.seq start mem (Nat.le_refl _)
  rw [scanBranch, found]
  simp only [walks s.nextSeq (inv.below start mem)]
  cases query.limit <;> simp

end InMemoryStorageState

end Trpi.Session

/-!
## The state built by `createFork`

`createFork` fills a fresh state from the source maps without validating. Its
result is described by lookups: the selected entries in sequence order, every
scalar and list element as the fork policy projects it, no usage, and the
source's `nextSeq`.
-/

namespace Trpi.Session

open InMemoryStorageState Address List Except

open Option hiding map_map
open Library (InsertionMap run run_cons_eq_ok run_eq_error run_invariant run_succeeds_iff)

variable {β V N : Type}

section Entries

variable [Zero N]

/-- What copying a parent-closed list of entries into a fresh state gives. -/
structure CopiedEntries (list : List (Entry β)) (nextSeq : Nat)
    (destination : InMemoryStorageState β V N) : Prop where
  entries : EntriesInvariant destination.entries destination.entriesBySeq nextSeq
  bySeq : destination.entriesBySeq = list
  stats : destination.stats =
    { messageCount := list.countP fun entry => entry.type = .message, usage := emptyUsage }
  scalars : destination.scalarValues = .empty
  lists : destination.listValues = .empty
  usage : destination.usage = .empty

theorem copyEntries (list : List (Entry β)) (nextSeq : Nat)
    (increasing : list.Pairwise fun earlier later => earlier.seq < later.seq)
    (distinct : (list.map (·.id)).Nodup)
    (closed : ∀ e ∈ list, ∀ parentId, e.parentId = some parentId →
      ∃ parent ∈ list, parent.id = parentId ∧ parent.seq < e.seq)
    (below : ∀ e ∈ list, e.seq < nextSeq) :
    CopiedEntries list nextSeq (list.foldl copyEntry (initial (V := V) (N := N))) := by
  induction list using reverseRecOn with
  | nil => exact ⟨.empty nextSeq, rfl, rfl, rfl, rfl, rfl⟩
  | append_singleton list e ih =>
    rw [pairwise_append] at increasing
    rw [map_append, nodup_append] at distinct
    have newest : ∀ old ∈ list, old.seq < e.seq := fun old mem =>
      increasing.2.2 old mem e (mem_singleton_self e)
    have copied := ih increasing.1 distinct.1 (by
      intro child mem parentId link
      obtain ⟨parent, inside, named, smaller⟩ :=
        closed child (mem_append_left _ mem) parentId link
      rcases mem_append.mp inside with old | last
      · exact ⟨parent, old, named, smaller⟩
      · rw [mem_singleton.mp last] at smaller
        exact absurd (newest child mem) (Nat.lt_asymm smaller))
      fun old mem => below old (mem_append_left _ mem)
    rw [foldl_append, foldl_cons, foldl_nil]
    generalize list.foldl copyEntry (initial (V := V) (N := N)) = destination at copied
    have fresh : destination.entries.get? e.id = none := by
      rw [InsertionMap.get?_eq_none_iff]
      intro bound
      obtain ⟨old, found⟩ := isSome_iff_exists.mp
        ((InsertionMap.contains_iff destination.entries e.id).mpr bound)
      have mem := copied.bySeq ▸ copied.entries.mem_of_get? found
      exact distinct.2.2 e.id
        (mem_map.mpr ⟨old, mem, copied.entries.keyed _ _ found⟩) e.id (by simp) rfl
    refine ⟨copied.entries.insert (Nat.le_refl _) fresh (copied.bySeq ▸ newest)
      (below e (by simp)) ?_, ?_, ?_, copied.scalars, copied.lists, copied.usage⟩
    · intro parentId link
      obtain ⟨parent, inside, named, smaller⟩ := closed e (by simp) parentId link
      rcases mem_append.mp inside with old | last
      · have found := copied.entries.get?_of_mem (copied.bySeq.symm ▸ old)
        rw [InsertionMap.contains, ← named, found]
        rfl
      · rw [mem_singleton.mp last] at smaller
        exact absurd smaller (Nat.lt_irrefl _)
    · rw [copyEntry, copied.bySeq]
    · simp only [copyEntry, copied.stats, countP_append, countP_singleton]
      split <;> simp_all

end Entries

namespace InMemoryStorageState

theorem getValue_set (destination : InMemoryStorageState β V N) (address other : Value)
    (kept : StoredValue V) :
    getValue { destination with
      scalarValues := destination.scalarValues.set address.physicalKey kept } other =
      if address = other then some kept else destination.getValue other := by
  simp only [getValue, InsertionMap.get?_set, physicalKey_inj]

section Scalars

variable [ForkValue V]

/-- The projection of a stored row: refused, dropped, or kept under a new value. -/
def projectScalar (plan : ForkCurrentStatePlan) (copied : String → Bool) (stored : StoredValue V) :
    Except ForkError (Option (StoredValue V)) :=
  (projectForkCurrentState plan copied stored.address.ns stored.address.key stored.value).map
    (Option.map fun projected => { stored with value := projected })

def keptScalar (plan : ForkCurrentStatePlan) (copied : String → Bool) (stored : StoredValue V) :
    Option (StoredValue V) :=
  (projectScalar plan copied stored).toOption.join

variable {plan : ForkCurrentStatePlan} {copied : String → Bool}
  {destination last : InMemoryStorageState β V N} {rows : List (StoredValue V)}
  {stored : StoredValue V}

theorem keptScalar_fields {kept : StoredValue V}
    (isKept : keptScalar plan copied stored = some kept) :
    kept.address = stored.address ∧ kept.seq = stored.seq := by
  unfold keptScalar projectScalar at isKept
  cases projected : projectForkCurrentState plan copied stored.address.ns stored.address.key
      stored.value with
  | error reason => simp [projected, Except.map, Except.toOption] at isKept
  | ok outcome =>
    cases outcome with
    | none => simp [projected, Except.map, Except.toOption] at isKept
    | some v =>
      simp only [projected, Except.map, Except.toOption, map_some, join_some, some.injEq] at isKept
      rw [← isKept]
      exact ⟨rfl, rfl⟩

theorem copyScalar_eq (plan : ForkCurrentStatePlan) (copied : String → Bool)
    (destination : InMemoryStorageState β V N) (stored : StoredValue V) :
    copyScalar plan copied destination stored =
      (projectScalar plan copied stored).map fun outcome =>
        match outcome with
        | none => destination
        | some kept =>
          { destination with
            scalarValues := destination.scalarValues.set stored.address.physicalKey kept } := by
  unfold copyScalar projectScalar
  cases projectForkCurrentState plan copied stored.address.ns stored.address.key stored.value with
  | error reason => rfl
  | ok outcome =>
    cases outcome with
    | none => rfl
    | some v =>
      simp [applyValueSet, value_of_valid stored.address.valid, Except.mapError, Except.map,
        Address.physicalKey]

theorem copyScalar_ok {next : InMemoryStorageState β V N}
    (ran : copyScalar plan copied destination stored = .ok next) (address : Value) :
    next.getValue address =
      ((if stored.address = address then keptScalar plan copied stored else none).or
        (destination.getValue address)) ∧
    next = { destination with scalarValues := next.scalarValues } := by
  rw [copyScalar_eq] at ran
  unfold keptScalar
  cases projected : projectScalar plan copied stored with
  | error reason => simp [projected, Except.map] at ran
  | ok outcome =>
    rw [projected] at ran
    rw [← ok.inj ran]
    cases outcome with
    | none => simp [Except.toOption]
    | some kept =>
      refine ⟨?_, rfl⟩
      rw [getValue_set]
      split <;> simp [Except.toOption]

theorem copyScalars_ok (distinct : (rows.map (·.address)).Nodup)
    (ran : run (copyScalar plan copied) destination rows = .ok last) :
    (∀ address, last.getValue address =
      ((rows.find? fun row => row.address = address).bind (keptScalar plan copied)).or
        (destination.getValue address)) ∧
    last = { destination with scalarValues := last.scalarValues } := by
  induction rows generalizing destination with
  | nil => simp [← ok.inj ran]
  | cons row rest ih =>
    obtain ⟨next, stepped, ran⟩ := run_cons_eq_ok.mp ran
    obtain ⟨unlisted, distinct⟩ := nodup_cons.mp distinct
    obtain ⟨lookups, frame⟩ := ih distinct ran
    refine ⟨fun address => ?_, ?_⟩
    · rw [lookups address, (copyScalar_ok stepped address).1, find?_cons]
      by_cases here : row.address = address
      · subst here
        have absent : (rest.find? fun other => other.address = row.address) = none := by
          rw [find?_eq_none]
          intro other mem same
          exact unlisted (mem_map.mpr ⟨other, mem, by simpa using same⟩)
        simp [absent]
      · simp [here]
    · rw [frame, (copyScalar_ok stepped row.address).2]

theorem copyScalars_keyed
    (keyed : ∀ key stored, destination.scalarValues.get? key = some stored →
      stored.address.physicalKey = key)
    (ran : run (copyScalar plan copied) destination rows = .ok last) (key : String)
    (stored : StoredValue V) (found : last.scalarValues.get? key = some stored) :
    stored.address.physicalKey = key := by
  refine run_invariant (fun s : InMemoryStorageState β V N => ∀ key stored,
    s.scalarValues.get? key = some stored → stored.address.physicalKey = key) ?_ keyed ran key
    stored found
  intro s row next _ keyed stepped key stored found
  rw [copyScalar_eq] at stepped
  cases projected : projectScalar plan copied row with
  | error reason => simp [projected, Except.map] at stepped
  | ok outcome =>
    rw [projected] at stepped
    rw [← ok.inj stepped] at found
    cases outcome with
    | none => exact keyed key stored found
    | some kept =>
      rw [InsertionMap.get?_set] at found
      split at found
      · next same =>
        have isKept : keptScalar plan copied row = some kept := by
          rw [keptScalar, projected]
          rfl
        rw [← some.inj found, (keptScalar_fields isKept).1, same]
      · exact keyed key stored found

theorem copyScalars_succeed_iff (plan : ForkCurrentStatePlan) (copied : String → Bool)
    (rows : List (StoredValue V)) (destination : InMemoryStorageState β V N) :
    (∃ last, run (copyScalar plan copied) destination rows = .ok last) ↔
      ∀ row ∈ rows, ∃ outcome, projectScalar plan copied row = .ok outcome := by
  refine run_succeeds_iff (fun _ => True) _ ?_ (fun _ _ _ _ _ _ => trivial) trivial
  intro s row _ _
  rw [copyScalar_eq]
  cases projectScalar plan copied row <;> simp [Except.map]

end Scalars

/-- Every stored list sits under the key of its own address and has an element. -/
structure ListsKeyed (lists : InsertionMap String (StoredListSnapshot V)) : Prop where
  keyed : ∀ key stored, lists.get? key = some stored → stored.address.physicalKey = key
  nonempty : ∀ key stored, lists.get? key = some stored → stored.elements ≠ []

variable {lists : InsertionMap String (StoredListSnapshot V)} {source : InMemoryStorageState β V N}

theorem ListsKeyed.push (inv : ListsKeyed lists) (address : ValueList)
    (earlier : List (ListElement V)) (element : ListElement V) :
    ListsKeyed (lists.set address.physicalKey ⟨address, earlier ++ [element]⟩) := by
  constructor <;> intro key stored found <;> rw [InsertionMap.get?_set] at found <;>
    split at found
  · next same => rw [← some.inj found, same]
  · exact inv.keyed key stored found
  · simp [← some.inj found]
  · exact inv.nonempty key stored found

theorem elementsAt_set (lists : InsertionMap String (StoredListSnapshot V)) (address other : ValueList)
    (elements : List (ListElement V)) :
    elementsAt (lists.set address.physicalKey ⟨address, elements⟩) other.physicalKey =
      if address = other then elements else elementsAt lists other.physicalKey := by
  simp only [elementsAt, InsertionMap.get?_set, physicalKey_inj]
  split <;> rfl

section Lists

variable [ForkValue V]

def projectElement (plan : ForkCurrentStatePlan) (copied : String → Bool) (address : ValueList)
    (element : ListElement V) : Except ForkError (Option (ListElement V)) :=
  (projectForkCurrentState plan copied address.ns address.key element.value).map
    (Option.map fun projected => { element with value := projected })

def keptElement (plan : ForkCurrentStatePlan) (copied : String → Bool) (address : ValueList)
    (element : ListElement V) : Option (ListElement V) :=
  (projectElement plan copied address element).toOption.join

variable {plan : ForkCurrentStatePlan} {copied : String → Bool} {address : ValueList}
  {destination last : InMemoryStorageState β V N} {element : ListElement V}

theorem keptElement_seq {kept : ListElement V}
    (isKept : keptElement plan copied address element = some kept) : kept.seq = element.seq := by
  unfold keptElement projectElement at isKept
  cases projected : projectForkCurrentState plan copied address.ns address.key element.value with
  | error reason => simp [projected, Except.map, Except.toOption] at isKept
  | ok outcome =>
    cases outcome with
    | none => simp [projected, Except.map, Except.toOption] at isKept
    | some v =>
      simp only [projected, Except.map, Except.toOption, map_some, join_some, some.injEq] at isKept
      rw [← isKept]

theorem copyElement_eq (plan : ForkCurrentStatePlan) (copied : String → Bool) (address : ValueList)
    (inv : ListsKeyed destination.listValues) (element : ListElement V) :
    copyElement plan copied address destination element =
      (projectElement plan copied address element).map fun outcome =>
        match outcome with
        | none => destination
        | some kept =>
          { destination with
            listValues := destination.listValues.set address.physicalKey
              ⟨address, destination.listElements address ++ [kept]⟩ } := by
  unfold copyElement projectElement
  cases projectForkCurrentState plan copied address.ns address.key element.value with
  | error reason => rfl
  | ok outcome =>
    cases outcome with
    | none => rfl
    | some v =>
      simp only [Except.map, map_some, applyListAppend, listElements, elementsAt]
      cases found : destination.listValues.get? (physicalKey address.ns address.key) with
      | none =>
        simp [Address.physicalKey, found, list_eq_value, value_of_valid address.valid,
          Except.mapError]
      | some stored =>
        have owner := Address.physicalKey_inj.mp (inv.keyed _ _ found)
        simp [Address.physicalKey, found, owner, Except.mapError]

theorem copyElement_ok {next : InMemoryStorageState β V N} (inv : ListsKeyed destination.listValues)
    (ran : copyElement plan copied address destination element = .ok next) :
    ListsKeyed next.listValues ∧
    (∀ other, next.listElements other = destination.listElements other ++
      (if address = other then (keptElement plan copied address element).toList else [])) ∧
    next = { destination with listValues := next.listValues } := by
  rw [copyElement_eq plan copied address inv] at ran
  unfold keptElement
  cases projected : projectElement plan copied address element with
  | error reason => simp [projected, Except.map] at ran
  | ok outcome =>
    rw [projected] at ran
    rw [← ok.inj ran]
    cases outcome with
    | none => simp [Except.toOption, inv]
    | some kept =>
      refine ⟨inv.push address _ kept, fun other => ?_, rfl⟩
      simp only [listElements, elementsAt_set]
      split
      · next same => simp [same, Except.toOption]
      · simp

theorem copyElements_ok {elements : List (ListElement V)} (inv : ListsKeyed destination.listValues)
    (ran : run (copyElement plan copied address) destination elements = .ok last) :
    ListsKeyed last.listValues ∧
    (∀ other, last.listElements other = destination.listElements other ++
      (if address = other then elements.filterMap (keptElement plan copied address) else [])) ∧
    last = { destination with listValues := last.listValues } := by
  induction elements generalizing destination with
  | nil => simp [← ok.inj ran, inv]
  | cons element rest ih =>
    obtain ⟨next, stepped, ran⟩ := run_cons_eq_ok.mp ran
    obtain ⟨keyed, step, frame⟩ := copyElement_ok inv stepped
    obtain ⟨lastKeyed, steps, lastFrame⟩ := ih keyed ran
    refine ⟨lastKeyed, fun other => ?_, by rw [lastFrame, frame]⟩
    rw [steps other, step other, append_assoc]
    by_cases same : address = other
    · simp only [same, if_true, filterMap_cons]
      cases keptElement plan copied other element <;> simp
    · simp [same]

theorem copyLists_ok {rows : List (StoredListSnapshot V)} (distinct : (rows.map (·.address)).Nodup)
    (inv : ListsKeyed destination.listValues)
    (ran : run (copyList plan copied) destination rows = .ok last) :
    ListsKeyed last.listValues ∧
    (∀ address, last.listElements address = destination.listElements address ++
      ((rows.find? fun row => row.address = address).map (·.elements)).elim []
        (filterMap (keptElement plan copied address))) ∧
    last = { destination with listValues := last.listValues } := by
  induction rows generalizing destination with
  | nil => simp [← ok.inj ran, inv]
  | cons row rest ih =>
    obtain ⟨next, stepped, ran⟩ := run_cons_eq_ok.mp ran
    obtain ⟨unlisted, distinct⟩ := nodup_cons.mp distinct
    obtain ⟨keyed, step, frame⟩ := copyElements_ok inv stepped
    obtain ⟨lastKeyed, steps, lastFrame⟩ := ih distinct keyed ran
    refine ⟨lastKeyed, fun address => ?_, by rw [lastFrame, frame]⟩
    rw [steps address, step address, find?_cons]
    by_cases here : row.address = address
    · subst here
      have absent : (rest.find? fun other => other.address = row.address) = none := by
        rw [find?_eq_none]
        intro other mem same
        exact unlisted (mem_map.mpr ⟨other, mem, by simpa using same⟩)
      simp [absent]
    · simp [here]

theorem copyLists_succeed_iff (plan : ForkCurrentStatePlan) (copied : String → Bool)
    (rows : List (StoredListSnapshot V)) (inv : ListsKeyed destination.listValues) :
    (∃ last, run (copyList plan copied) destination rows = .ok last) ↔
      ∀ row ∈ rows, ∀ element ∈ row.elements,
        ∃ outcome, projectElement plan copied row.address element = .ok outcome := by
  refine run_succeeds_iff (fun s => ListsKeyed s.listValues) _ ?_
    (fun _ _ _ _ keyed ran => (copyElements_ok keyed ran).1) inv
  intro s row _ keyed
  refine run_succeeds_iff (fun s => ListsKeyed s.listValues) _ ?_
    (fun _ _ _ _ keyed ran => (copyElement_ok keyed ran).1) keyed
  intro s element _ keyed
  rw [copyElement_eq plan copied row.address keyed]
  cases projectElement plan copied row.address element <;> simp [Except.map]

end Lists

def CopyClosed (source : InMemoryStorageState β V N) (copied : String → Bool) : Prop :=
  ∀ entry ∈ source.entriesBySeq, copied entry.id = true →
    ∀ parentId, entry.parentId = some parentId → copied parentId = true

theorem ranked_entries (inv : EntriesInvariant source.entries source.entriesBySeq source.nextSeq) :
    Ranked (fun id => (source.entries.get? id).map (·.parentId))
      (fun id => (source.entries.get? id).elim 0 (·.seq)) := by
  constructor <;> intro id parentId link <;>
    obtain ⟨e, found, parent⟩ := map_eq_some_iff.mp link <;>
    obtain ⟨above, foundAbove, smaller⟩ :=
      inv.parentBefore e (inv.mem_of_get? found) parentId parent
  · exact ⟨above.parentId, by simp [foundAbove]⟩
  · simpa [found, foundAbove] using smaller

theorem filter_copyEntries [Zero N]
    (inv : EntriesInvariant source.entries source.entriesBySeq source.nextSeq)
    {copied : String → Bool} (closed : CopyClosed source copied) :
    CopiedEntries (source.entriesBySeq.filter fun e => copied e.id) source.nextSeq
      ((source.entriesBySeq.filter fun e => copied e.id).foldl copyEntry
        (initial (V := V) (N := N))) := by
  have ids : source.entriesBySeq.map (·.id) = source.entries.keys := by
    rw [← inv.inOrder, source.entries.map_values_eq_keys _ inv.keyed]
  refine copyEntries _ _ (inv.increasing.filter _) ?_ ?_ ?_
  · have distinct : (source.entriesBySeq.map (·.id)).Nodup := ids ▸ source.entries.nodup
    exact distinct.sublist (filter_sublist.map _)
  · intro e mem parentId link
    obtain ⟨stored, isCopied⟩ := mem_filter.mp mem
    obtain ⟨parent, found, smaller⟩ := inv.parentBefore e stored parentId link
    have named := inv.keyed parentId parent found
    exact ⟨parent, mem_filter.mpr ⟨inv.mem_of_get? found,
      named.symm ▸ closed e stored isCopied parentId link⟩, named, smaller⟩
  · exact fun e mem => inv.below e (mem_filter.mp mem).1

theorem scalar_rows {scalars : InsertionMap String (StoredValue V)}
    (keyed : ∀ key stored, scalars.get? key = some stored → stored.address.physicalKey = key) :
    (scalars.values.map (·.address)).Nodup ∧
      ∀ address : Value, (scalars.values.find? fun row => row.address = address) =
        scalars.get? address.physicalKey := by
  constructor
  · have keys := scalars.map_values_eq_keys (fun row => row.address.physicalKey) keyed
    have distinct : (scalars.values.map fun row => row.address.physicalKey).Nodup :=
      keys ▸ scalars.nodup
    exact List.Nodup.of_map Address.physicalKey (by rwa [map_map])
  · intro address
    rw [← scalars.find?_values (fun row => row.address.physicalKey) keyed]
    simp only [physicalKey_inj]

theorem list_rows
    (keyed : ∀ key stored, lists.get? key = some stored → stored.address.physicalKey = key) :
    (lists.values.map (·.address)).Nodup ∧
      ∀ address : ValueList, (lists.values.find? fun row => row.address = address) =
        lists.get? address.physicalKey := by
  constructor
  · have keys := lists.map_values_eq_keys (fun row => row.address.physicalKey) keyed
    have distinct : (lists.values.map fun row => row.address.physicalKey).Nodup :=
      keys ▸ lists.nodup
    exact List.Nodup.of_map Address.physicalKey (by rwa [map_map])
  · intro address
    rw [← lists.find?_values (fun row => row.address.physicalKey) keyed]
    simp only [physicalKey_inj]

section Fork

variable [Add N] [Zero N] [ForkValue V]

/-- The state a fork under `plan` builds from `source`, by lookups. -/
structure IsFork (source forked : InMemoryStorageState β V N) (plan : ForkCurrentStatePlan)
    (copied : String → Bool) : Prop where
  entries : EntriesInvariant forked.entries forked.entriesBySeq source.nextSeq
  bySeq : forked.entriesBySeq = source.entriesBySeq.filter fun entry => copied entry.id
  scalarsKeyed : ∀ key stored, forked.scalarValues.get? key = some stored →
    stored.address.physicalKey = key
  scalars : ∀ address, forked.getValue address =
    (source.getValue address).bind (keptScalar plan copied)
  listsKeyed : ListsKeyed forked.listValues
  lists : ∀ address, forked.listElements address =
    (source.listElements address).filterMap (keptElement plan copied address)
  usage : forked.usage = .empty
  stats : forked.stats =
    { messageCount := forked.entriesBySeq.countP fun entry => entry.type = .message
      usage := emptyUsage }
  nextSeq : forked.nextSeq = source.nextSeq

variable {source forked : InMemoryStorageState β V N} {opts : ForkOptions}
  {plan : ForkCurrentStatePlan} {selected : List String}

theorem selectForkPlan_closed (inv : StoreInvariant source)
    (success : source.selectForkPlan opts = .ok (plan, selected)) :
    CopyClosed source (isEntryCopied plan selected) := by
  intro e mem isCopied parentId link
  cases opts with
  | tree =>
    cases success
    rfl
  | branch branch entryId position =>
    simp only [selectForkPlan] at success
    split at success
    · split at success
      · cases success
      · next destinationTip chosen walked =>
        have closed := (selectBranchFork_closed (ranked_entries inv.entries) walked).1
        split at success
        · cases success
        · cases success
          simp only [isEntryCopied, decide_eq_true_eq] at isCopied ⊢
          obtain ⟨parent, found, kept⟩ := closed e.id isCopied
          simp only [inv.entries.get?_of_mem mem, map_some, some.injEq] at found
          exact kept parentId (found ▸ link)
    all_goals cases success

theorem createFork_isFork (inv : StoreInvariant source)
    (success : source.createFork opts = .ok forked) :
    ∃ plan selected, source.selectForkPlan opts = .ok (plan, selected) ∧
      IsFork source forked plan (isEntryCopied plan selected) := by
  unfold createFork at success
  split at success
  · cases success
  next plan selected planned =>
  refine ⟨plan, selected, planned, ?_⟩
  simp only at success
  split at success
  · cases success
  next withScalars ranScalars =>
  split at success
  · cases success
  next withLists ranLists =>
  have entries := filter_copyEntries (V := V) (N := N) inv.entries
    (selectForkPlan_closed inv planned)
  generalize (source.entriesBySeq.filter fun e =>
    isEntryCopied plan selected e.id).foldl copyEntry
      (initial : InMemoryStorageState β V N) = withEntries at entries ranScalars
  obtain ⟨scalarsDistinct, scalarsFound⟩ := scalar_rows inv.scalars.keyed
  obtain ⟨listsDistinct, listsFound⟩ := list_rows inv.lists.keyed
  obtain ⟨scalars, scalarFrame⟩ := copyScalars_ok scalarsDistinct ranScalars
  have noLists : withScalars.listValues = .empty := by
    rw [scalarFrame]
    exact entries.lists
  have keyed : ListsKeyed withScalars.listValues := by
    rw [noLists]
    exact ⟨by simp, by simp⟩
  obtain ⟨listsKeyed, lists, listFrame⟩ := copyLists_ok listsDistinct keyed ranLists
  have noScalar : ∀ address, withEntries.getValue address = none := by
    intro address
    rw [getValue, entries.scalars]
    rfl
  have noElement : ∀ address, withScalars.listElements address = [] := by
    intro address
    rw [listElements, noLists]
    rfl
  have scalarsKeyed := copyScalars_keyed (by simp [entries.scalars]) ranScalars
  have sameScalars : withLists.scalarValues = withScalars.scalarValues := by rw [listFrame]
  have sameEntries : withLists.entries = withEntries.entries := by rw [listFrame, scalarFrame]
  have sameOrder : withLists.entriesBySeq = withEntries.entriesBySeq := by
    rw [listFrame, scalarFrame]
  have sameUsage : withLists.usage = .empty := by
    rw [listFrame, scalarFrame]
    exact entries.usage
  have sameStats : withLists.stats = withEntries.stats := by rw [listFrame, scalarFrame]
  rw [← ok.inj success]
  refine ⟨?_, sameOrder.trans entries.bySeq, sameScalars ▸ scalarsKeyed, ?_, listsKeyed, ?_,
    sameUsage, ?_, rfl⟩
  · simp only [sameEntries, sameOrder]
    exact entries.entries
  · intro address
    simp only [getValue, sameScalars]
    rw [← getValue, scalars address, scalarsFound, noScalar, or_none]
  · intro address
    have copiedElements := lists address
    rw [noElement, nil_append, listsFound] at copiedElements
    simp only [listElements, elementsAt] at copiedElements ⊢
    rw [copiedElements]
    cases source.listValues.get? address.physicalKey <;> rfl
  · rw [sameStats, sameOrder, entries.stats, entries.bySeq]

omit [Add N] in
/-- Under a plan the fork succeeds exactly when the policy projects every stored row. -/
theorem createFork_succeeds_iff (planned : source.selectForkPlan opts = .ok (plan, selected)) :
    (∃ forked, source.createFork opts = .ok forked) ↔
      (∀ row ∈ source.scalarValues.values, ∃ outcome,
        projectScalar plan (isEntryCopied plan selected) row = .ok outcome) ∧
      ∀ row ∈ source.listValues.values, ∀ element ∈ row.elements, ∃ outcome,
        projectElement plan (isEntryCopied plan selected) row.address element = .ok outcome := by
  simp only [createFork, planned]
  have noLists : ((source.entriesBySeq.filter fun e =>
      isEntryCopied plan selected e.id).foldl copyEntry
        (initial : InMemoryStorageState β V N)).listValues = .empty := by
    generalize (source.entriesBySeq.filter fun e => isEntryCopied plan selected e.id) = kept
    induction kept using reverseRecOn with
    | nil => rfl
    | append_singleton kept e ih => rwa [foldl_append]
  generalize (source.entriesBySeq.filter fun e =>
    isEntryCopied plan selected e.id).foldl copyEntry
      (initial : InMemoryStorageState β V N) = withEntries at noLists
  rw [← copyScalars_succeed_iff plan (isEntryCopied plan selected) _ withEntries]
  cases ranScalars : run (copyScalar plan (isEntryCopied plan selected)) withEntries
      source.scalarValues.values with
  | error reason => simp
  | ok withScalars =>
    have frame := run_invariant (fun s : InMemoryStorageState β V N => s.listValues = .empty)
      (fun s row next _ empty ran => by rw [(copyScalar_ok ran row.address).2]; exact empty)
      noLists ranScalars
    have keyed : ListsKeyed withScalars.listValues := by
      rw [frame]
      exact ⟨by simp, by simp⟩
    rw [← copyLists_succeed_iff plan (isEntryCopied plan selected) _ keyed]
    cases ranLists : run (copyList plan (isEntryCopied plan selected)) withScalars
        source.listValues.values <;> simp [ranLists]

section

variable (plan : ForkCurrentStatePlan) (copied : String → Bool)

section

omit [Add N] [Zero N]

theorem projectForkCurrentState_bounded (ns key : String) (stored : V) :
    projectForkCurrentState plan copied ns key stored ≠ .error .walkUnbounded := by
  unfold projectForkCurrentState
  split_ifs <;> cases plan <;> simp

theorem copyScalar_bounded
    (destination : InMemoryStorageState β V N) (stored : StoredValue V) :
    copyScalar plan copied destination stored ≠ .error .walkUnbounded := by
  have bounded := projectForkCurrentState_bounded plan copied stored.address.ns stored.address.key
    stored.value
  unfold copyScalar
  split
  · next reason projected =>
    rw [projected] at bounded
    simpa using bounded
  · simp
  · next projected kept =>
    cases destination.applyValueSet stored.seq stored.address.ns stored.address.key projected <;>
      simp [Except.mapError]

theorem copyElement_bounded
    (address : ValueList) (destination : InMemoryStorageState β V N) (element : ListElement V) :
    copyElement plan copied address destination element ≠ .error .walkUnbounded := by
  have bounded := projectForkCurrentState_bounded plan copied address.ns address.key element.value
  unfold copyElement
  split
  · next reason projected =>
    rw [projected] at bounded
    simpa using bounded
  · simp
  · next projected kept =>
    cases destination.applyListAppend element.seq address.ns address.key projected <;>
      simp [Except.mapError]

end

end

theorem selectForkPlan_bounded (inv : StoreInvariant source) (opts : ForkOptions) :
    source.selectForkPlan opts ≠ .error .walkUnbounded := by
  cases opts with
  | tree => simp [selectForkPlan]
  | branch branch entryId position =>
    have enough : ∀ (current : Option String) (walk : ForkWalk) (requested : Option String),
        walkAncestry (fun id => (source.entries.get? id).map (·.parentId)) requested position
          source.nextSeq current walk ≠ .error .walkUnbounded := by
      intro current walk requested
      refine walkAncestry_bounded (ranked_entries inv.entries) requested position _ current
        walk (fun id isStart => ?_) inv.positive
      cases found : source.entries.get? id with
      | none => exact .inl rfl
      | some e =>
        exact .inr (inv.entries.below e (inv.entries.mem_of_get? found))
    have selects : ∀ tip : Option V, selectBranchFork source.nextSeq branch entryId position tip
        (fun id => (source.entries.get? id).map (·.parentId)) ≠ .error .walkUnbounded := by
      intro tip
      unfold selectBranchFork
      split
      · simp
      · split
        · simp
        · next start readable =>
          have walks := enough start
            { found := (entryId.or start).isNone, destinationTip := none, selected := [] }
            (entryId.or start)
          simp only
          split
          · next reason walked =>
            rw [walked] at walks
            simpa using walks
          · split <;> simp
    simp only [selectForkPlan]
    split
    · next tipAddress configAddress stateAddress _ _ _ =>
      have bounded := selects ((source.getValue tipAddress).map (·.value))
      split
      · next reason selected =>
        rw [selected] at bounded
        simpa using bounded
      · split <;> simp
    all_goals simp

theorem createFork_bounded (inv : StoreInvariant source) (opts : ForkOptions) :
    source.createFork opts ≠ .error .walkUnbounded := by
  intro ended
  unfold createFork at ended
  split at ended
  · next reason planned =>
    rw [error.inj ended] at planned
    exact selectForkPlan_bounded inv opts planned
  · next plan selected planned =>
    simp only at ended
    split at ended
    · next reason ran =>
      rw [error.inj ended] at ran
      obtain ⟨s, row, -, failed⟩ := run_eq_error ran
      exact copyScalar_bounded _ _ _ _ failed
    · split at ended
      · next reason ran =>
        rw [error.inj ended] at ran
        obtain ⟨s, row, -, failed⟩ := run_eq_error ran
        obtain ⟨reached, element, -, failed⟩ := run_eq_error failed
        exact copyElement_bounded _ _ _ _ _ failed
      · cases ended

theorem IsFork.invariant {copied : String → Bool} (inv : StoreInvariant source)
    (isFork : IsFork source forked plan copied) : StoreInvariant forked where
  entries := isFork.nextSeq ▸ isFork.entries
  usage := by
    rw [isFork.usage]
    exact .empty _
  scalars := by
    refine ⟨isFork.scalarsKeyed, fun key stored found => ?_⟩
    have keyed := isFork.scalarsKeyed key stored found
    have lookup := isFork.scalars stored.address
    rw [getValue, keyed, found] at lookup
    obtain ⟨original, bound, isKept⟩ := bind_eq_some_iff.mp lookup.symm
    rw [isFork.nextSeq, (keptScalar_fields isKept).2]
    exact inv.scalars.below _ original bound
  lists := by
    have elements : ∀ key stored, forked.listValues.get? key = some stored → stored.elements =
        (source.listElements stored.address).filterMap (keptElement plan copied stored.address) := by
      intro key stored found
      rw [← isFork.lists stored.address, listElements, elementsAt,
        isFork.listsKeyed.keyed key stored found, found]
      rfl
    refine ⟨isFork.listsKeyed.keyed, isFork.listsKeyed.nonempty, ?_, ?_⟩
    · intro key stored found
      rw [elements key stored found]
      refine List.Pairwise.filterMap _ ?_
        (elementsAt_increasing inv.lists stored.address.physicalKey).1
      intro first second smaller keptFirst isFirst keptSecond isSecond
      rw [keptElement_seq isFirst, keptElement_seq isSecond]
      exact smaller
    · intro key stored found element mem
      rw [elements key stored found] at mem
      obtain ⟨original, inside, isKept⟩ := mem_filterMap.mp mem
      rw [isFork.nextSeq, keptElement_seq isKept]
      exact (elementsAt_increasing inv.lists stored.address.physicalKey).2 original inside
  disjoint := by simp [isFork.usage, InsertionMap.contains]
  stats := by simp [isFork.stats, isFork.usage, recomputeStats]
  positive := isFork.nextSeq ▸ inv.positive

theorem createFork_invariant (inv : StoreInvariant source)
    (success : source.createFork opts = .ok forked) : StoreInvariant forked := by
  obtain ⟨plan, selected, -, isFork⟩ := createFork_isFork inv success
  exact isFork.invariant inv

end Fork

end InMemoryStorageState

end Trpi.Session
