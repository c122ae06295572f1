import Trpi.Session.StorageState

/-!
# The session store invariant

What holds of every materialized session state: ids are unique and shared by no
entry and usage row, parents are stored before their children, sequences grow
and stay below `nextSeq`, every stored address owns its physical key, and the
statistics are the aggregate of what is stored.
-/

namespace Trpi.Session

open CommittedWrite List Option Except
open Library (InsertionMap)

variable {β V N : Type}

structure EntriesInvariant (entries : InsertionMap String (Entry β)) (bySeq : List (Entry β))
    (nextSeq : Nat) : Prop where
  inOrder : entries.values = bySeq
  keyed : ∀ id e, entries.get? id = some e → e.id = id
  parentBefore : ∀ e ∈ bySeq, ∀ parentId, e.parentId = some parentId →
    ∃ parent, entries.get? parentId = some parent ∧ parent.seq < e.seq
  increasing : bySeq.Pairwise fun earlier later => earlier.seq < later.seq
  below : ∀ e ∈ bySeq, e.seq < nextSeq

structure UsageInvariant (usage : InsertionMap String (UsageRow V N)) (nextSeq : Nat) : Prop where
  keyed : ∀ id row, usage.get? id = some row → row.id = id
  below : ∀ row ∈ usage.values, row.seq < nextSeq

structure ScalarInvariant (scalars : InsertionMap String (StoredValue V)) (nextSeq : Nat) :
    Prop where
  keyed : ∀ key stored, scalars.get? key = some stored → stored.address.physicalKey = key
  below : ∀ key stored, scalars.get? key = some stored → stored.seq < nextSeq

structure ListInvariant (lists : InsertionMap String (StoredListSnapshot V)) (nextSeq : Nat) :
    Prop where
  keyed : ∀ key stored, lists.get? key = some stored → stored.address.physicalKey = key
  nonempty : ∀ key stored, lists.get? key = some stored → stored.elements ≠ []
  increasing : ∀ key stored, lists.get? key = some stored →
    stored.elements.Pairwise fun earlier later => earlier.seq < later.seq
  below : ∀ key stored, lists.get? key = some stored →
    ∀ element ∈ stored.elements, element.seq < nextSeq

/-- The aggregate the statistics must equal. -/
def recomputeStats [Add N] [Zero N] (bySeq : List (Entry β))
    (usage : InsertionMap String (UsageRow V N)) : SessionStats N where
  messageCount := bySeq.countP fun e => e.type = .message
  usage := (usage.values.map (·.usage)).foldl addUsage emptyUsage

structure StoreInvariant [Add N] [Zero N] (s : InMemoryStorageState β V N) : Prop where
  entries : EntriesInvariant s.entries s.entriesBySeq s.nextSeq
  usage : UsageInvariant s.usage s.nextSeq
  scalars : ScalarInvariant s.scalarValues s.nextSeq
  lists : ListInvariant s.listValues s.nextSeq
  disjoint : ∀ id, s.entries.contains id = true → s.usage.contains id = false
  stats : s.stats = recomputeStats s.entriesBySeq s.usage
  positive : 1 ≤ s.nextSeq

theorem EntriesInvariant.empty (nextSeq : Nat) :
    EntriesInvariant (.empty : InsertionMap String (Entry β)) [] nextSeq :=
  ⟨rfl, by simp, by simp, List.Pairwise.nil, by simp⟩

theorem UsageInvariant.empty (nextSeq : Nat) :
    UsageInvariant (.empty : InsertionMap String (UsageRow V N)) nextSeq :=
  ⟨by simp, by simp⟩

theorem ScalarInvariant.empty (nextSeq : Nat) :
    ScalarInvariant (.empty : InsertionMap String (StoredValue V)) nextSeq :=
  ⟨by simp, by simp⟩

theorem ListInvariant.empty (nextSeq : Nat) :
    ListInvariant (.empty : InsertionMap String (StoredListSnapshot V)) nextSeq :=
  ⟨by simp, by simp, by simp, by simp⟩

variable {entries : InsertionMap String (Entry β)} {bySeq : List (Entry β)} {nextSeq higher : Nat}
  {scalars : InsertionMap String (StoredValue V)}
  {lists : InsertionMap String (StoredListSnapshot V)} {e : Entry β}
  {usage : InsertionMap String (UsageRow V N)}

theorem EntriesInvariant.raise (inv : EntriesInvariant entries bySeq nextSeq)
    (raised : nextSeq ≤ higher) : EntriesInvariant entries bySeq higher :=
  { inv with
    below := fun e mem => Nat.lt_of_lt_of_le (inv.below e mem) raised }

theorem UsageInvariant.raise (inv : UsageInvariant usage nextSeq) (raised : nextSeq ≤ higher) :
    UsageInvariant usage higher :=
  { inv with
    below := fun row mem => Nat.lt_of_lt_of_le (inv.below row mem) raised }

theorem ScalarInvariant.raise (inv : ScalarInvariant scalars nextSeq)
    (raised : nextSeq ≤ higher) : ScalarInvariant scalars higher :=
  { inv with
    below := fun key stored bound =>
      Nat.lt_of_lt_of_le (inv.below key stored bound) raised }

theorem ListInvariant.raise (inv : ListInvariant lists nextSeq) (raised : nextSeq ≤ higher) :
    ListInvariant lists higher :=
  { inv with
    below := fun key stored bound element mem =>
      Nat.lt_of_lt_of_le (inv.below key stored bound element mem) raised }

section

variable (inv : EntriesInvariant entries bySeq nextSeq)

include inv

theorem EntriesInvariant.get?_of_mem (mem : e ∈ bySeq) : entries.get? e.id = some e := by
  rw [← inv.inOrder, InsertionMap.mem_values_iff] at mem
  obtain ⟨key, bound⟩ := mem
  rw [inv.keyed key e bound]
  exact bound

theorem EntriesInvariant.mem_of_get?
    {id : String} (bound : entries.get? id = some e) : e ∈ bySeq := by
  rw [← inv.inOrder, InsertionMap.mem_values_iff]
  exact ⟨id, bound⟩

theorem EntriesInvariant.insert (raised : nextSeq ≤ higher) (fresh : entries.get? e.id = none)
    (newest : ∀ old ∈ bySeq, old.seq < e.seq) (bounded : e.seq < higher)
    (parent : ∀ parentId, e.parentId = some parentId → entries.contains parentId = true) :
    EntriesInvariant (entries.set e.id e) (bySeq ++ [e]) higher where
  inOrder := by rw [InsertionMap.values_set_of_fresh _ _ _ fresh, inv.inOrder]
  keyed := by
    intro id stored bound
    rw [InsertionMap.get?_set] at bound
    split at bound
    · next same => rw [← some.inj bound, same]
    · exact inv.keyed id stored bound
  parentBefore := by
    have kept : ∀ id stored, entries.get? id = some stored →
        (entries.set e.id e).get? id = some stored := by
      intro id stored bound
      have differs : e.id ≠ id := by
        rintro rfl
        rw [fresh] at bound
        cases bound
      rw [InsertionMap.get?_set_of_ne _ _ differs, bound]
    intro stored mem parentId linked
    rcases mem_append.mp mem with old | new
    · obtain ⟨above, bound, smaller⟩ := inv.parentBefore stored old parentId linked
      exact ⟨above, kept parentId above bound, smaller⟩
    · rw [mem_singleton.mp new] at linked ⊢
      obtain ⟨above, bound⟩ := isSome_iff_exists.mp (parent parentId linked)
      exact ⟨above, kept parentId above bound, newest above (inv.mem_of_get? bound)⟩
  increasing := by
    rw [pairwise_append]
    refine ⟨inv.increasing, pairwise_singleton _ _, ?_⟩
    intro earlier mem last single
    rw [mem_singleton.mp single]
    exact newest earlier mem
  below := by
    intro stored mem
    rcases mem_append.mp mem with old | new
    · exact Nat.lt_of_lt_of_le (inv.below stored old) raised
    · rw [mem_singleton.mp new]
      exact bounded

end

theorem UsageInvariant.insert (inv : UsageInvariant usage nextSeq) {row : UsageRow V N}
    (fresh : usage.get? row.id = none) (later : nextSeq ≤ row.seq) :
    UsageInvariant (usage.set row.id row) (row.seq + 1) where
  keyed := by
    intro id stored bound
    rw [InsertionMap.get?_set] at bound
    split at bound
    · next same => rw [← some.inj bound, same]
    · exact inv.keyed id stored bound
  below := by
    intro stored mem
    rw [InsertionMap.values_set_of_fresh _ _ _ fresh] at mem
    rcases mem_append.mp mem with old | new
    · have := inv.below stored old
      omega
    · rw [mem_singleton.mp new]
      exact Nat.lt_succ_self _

theorem ScalarInvariant.set (inv : ScalarInvariant scalars nextSeq)
    (raised : nextSeq ≤ higher) (stored : StoredValue V) (bounded : stored.seq < higher) :
    ScalarInvariant (scalars.set stored.address.physicalKey stored) higher where
  keyed := by
    intro key bound found
    rw [InsertionMap.get?_set] at found
    split at found
    · next same => rw [← some.inj found, same]
    · exact inv.keyed key bound found
  below := by
    intro key bound found
    rw [InsertionMap.get?_set] at found
    split at found
    · rw [← some.inj found]
      exact bounded
    · exact Nat.lt_of_lt_of_le (inv.below key bound found) raised

theorem get?_of_erase {K α : Type} [DecidableEq K] {map : InsertionMap K α} {key other : K}
    {bound : α} (found : (map.erase key).get? other = some bound) : map.get? other = some bound := by
  rw [InsertionMap.get?_erase] at found
  split at found
  · cases found
  · exact found

theorem ScalarInvariant.erase (inv : ScalarInvariant scalars nextSeq) (key : String) :
    ScalarInvariant (scalars.erase key) nextSeq where
  keyed other stored found := inv.keyed other stored (get?_of_erase found)
  below other stored found := inv.below other stored (get?_of_erase found)

theorem ListInvariant.erase (inv : ListInvariant lists nextSeq) (key : String) :
    ListInvariant (lists.erase key) nextSeq where
  keyed other stored found := inv.keyed other stored (get?_of_erase found)
  nonempty other stored found := inv.nonempty other stored (get?_of_erase found)
  increasing other stored found := inv.increasing other stored (get?_of_erase found)
  below other stored found := inv.below other stored (get?_of_erase found)

theorem ListInvariant.push (inv : ListInvariant lists nextSeq) (raised : nextSeq ≤ higher)
    (address : ValueList) (earlier : List (ListElement V)) (element : ListElement V)
    (bounded : element.seq < higher)
    (ordered : earlier.Pairwise fun first second => first.seq < second.seq)
    (older : ∀ old ∈ earlier, old.seq < element.seq) :
    ListInvariant
      (lists.set address.physicalKey { address := address, elements := earlier ++ [element] })
      higher := by
  have rebound : ∀ key stored,
      (lists.set address.physicalKey
        { address := address, elements := earlier ++ [element] }).get? key = some stored →
      (address.physicalKey = key ∧ stored = ⟨address, earlier ++ [element]⟩) ∨
        lists.get? key = some stored := by
    intro key stored found
    rw [InsertionMap.get?_set] at found
    split at found
    · next same => exact .inl ⟨same, (some.inj found).symm⟩
    · exact .inr found
  refine ⟨?_, ?_, ?_, ?_⟩ <;> intro key stored found <;>
    rcases rebound key stored found with ⟨same, rfl⟩ | old
  · exact same
  · exact inv.keyed key stored old
  · simp
  · exact inv.nonempty key stored old
  · rw [pairwise_append]
    refine ⟨ordered, pairwise_singleton _ _, ?_⟩
    intro first mem last single
    rw [mem_singleton.mp single]
    exact older first mem
  · exact inv.increasing key stored old
  · intro next mem
    rcases mem_append.mp mem with old | new
    · exact Nat.lt_trans (older next old) bounded
    · rw [mem_singleton.mp new]
      exact bounded
  · intro next mem
    exact Nat.lt_of_lt_of_le (inv.below key stored old next mem) raised

namespace InMemoryStorageState

/-- What validation establishes about the next write of a batch. -/
structure Admits (s : InMemoryStorageState β V N) (write : CommittedWrite β V N) : Prop where
  later : s.nextSeq ≤ write.seq
  fresh : ∀ id ∈ write.ids, s.entries.get? id = none ∧ s.usage.get? id = none
  parent : ∀ e, write = .entry e → ∀ parentId, e.parentId = some parentId →
    s.entries.contains parentId = true

theorem contains_eq_false {K α : Type} [DecidableEq K] {map : InsertionMap K α} {key : K} :
    map.contains key = false ↔ map.get? key = none := by
  simp [InsertionMap.contains]

theorem unused_iff (s : InMemoryStorageState β V N) (id : String) :
    (s.entries.contains id || s.usage.contains id) = false ↔
      s.entries.get? id = none ∧ s.usage.get? id = none := by
  rw [Bool.or_eq_false_iff, contains_eq_false, contains_eq_false]

theorem admitWrite_ok_iff (s : InMemoryStorageState β V N) (write : CommittedWrite β V N) :
    admitWrite s.validationState s.nextSeq [] [] write = .ok () ↔ s.Admits write := by
  unfold admitWrite validationState
  constructor
  · intro accepted
    split at accepted
    · cases accepted
    next later =>
    refine ⟨by omega, ?_, ?_⟩
    · intro id mem
      cases write with
      | entry inserted =>
        rw [ids, mem_singleton] at mem
        subst mem
        simp only [not_mem_nil, decide_false, Bool.or_false] at accepted
        split at accepted
        · cases accepted
        · next unused => exact (s.unused_iff _).mp ((Bool.not_eq_true _).mp unused)
      | usage row =>
        rw [ids, mem_singleton] at mem
        subst mem
        simp only [not_mem_nil, decide_false, Bool.or_false] at accepted
        split at accepted
        · cases accepted
        · next unused => exact (s.unused_iff _).mp ((Bool.not_eq_true _).mp unused)
      | _ => cases mem
    · rintro inserted rfl parentId linked
      simp only [linked, not_mem_nil, decide_false, Bool.or_false] at accepted
      split at accepted
      · cases accepted
      · split at accepted
        · next present => exact present
        · cases accepted
  · rintro ⟨later, fresh, parent⟩
    rw [if_neg (by omega)]
    cases write with
    | entry inserted =>
      have unused := (s.unused_iff inserted.id).mpr (fresh inserted.id (by simp [ids]))
      simp only [not_mem_nil, decide_false, Bool.or_false, unused, Bool.false_eq_true, if_false]
      split
      · rfl
      · next parentId linked => simp [parent inserted rfl parentId linked]
    | usage row =>
      have unused := (s.unused_iff row.id).mpr (fresh row.id (by simp [ids]))
      simp [unused]
    | _ => rfl

variable {s next : InMemoryStorageState β V N} {seq : Nat} {ns key : String} {stored : V}

theorem applyValueSet_ok (success : s.applyValueSet seq ns key stored = .ok next) :
    ∃ address : Value, address.ns = ns ∧ address.key = key ∧
      next = { s with
        scalarValues := s.scalarValues.set address.physicalKey
          { address := address, value := stored, seq := seq } } := by
  unfold applyValueSet at success
  split at success
  · cases success
  · next address built =>
    obtain ⟨rfl, rfl⟩ := value_ok built
    exact ⟨address, rfl, rfl, (ok.inj success).symm⟩

theorem applyListAppend_frame (success : s.applyListAppend seq ns key stored = .ok next) :
    next = { s with listValues := next.listValues } := by
  unfold applyListAppend at success
  split at success
  · split at success
    · cases success
    · rw [← ok.inj success]
  · rw [← ok.inj success]

theorem applyListAppend_ok
    (keyed : ∀ key stored, s.listValues.get? key = some stored → stored.address.physicalKey = key)
    (success : s.applyListAppend seq ns key stored = .ok next) :
    ∃ address : ValueList, address.ns = ns ∧ address.key = key ∧
      next = { s with
        listValues := s.listValues.set address.physicalKey
          { address := address
            elements := elementsAt s.listValues address.physicalKey ++
              [{ seq := seq, value := stored }] } } := by
  unfold applyListAppend at success
  split at success
  · next absent =>
    split at success
    · cases success
    · next address built =>
      obtain ⟨rfl, rfl⟩ := value_ok built
      refine ⟨address, rfl, rfl, ?_⟩
      rw [← ok.inj success]
      simp [elementsAt, Address.physicalKey, absent]
  · next snapshot found =>
    have owner := keyed _ _ found
    obtain ⟨rfl, rfl⟩ := (physicalKey_eq_iff snapshot.address ns key).mp owner.symm
    refine ⟨snapshot.address, rfl, rfl, ?_⟩
    rw [← ok.inj success]
    simp [elementsAt, Address.physicalKey, found]

end InMemoryStorageState

section State

variable [Add N] [Zero N]

theorem initial_invariant :
    StoreInvariant (InMemoryStorageState.initial (β := β) (V := V) (N := N)) where
  entries := .empty 1
  usage := .empty 1
  scalars := .empty 1
  lists := .empty 1
  disjoint := by simp [InMemoryStorageState.initial, InsertionMap.contains]
  stats := rfl
  positive := Nat.le_refl 1

namespace InMemoryStorageState

theorem elementsAt_increasing {lists : InsertionMap String (StoredListSnapshot V)} {nextSeq : Nat}
    (inv : ListInvariant lists nextSeq) (key : String) :
    (elementsAt lists key).Pairwise (fun first second => first.seq < second.seq) ∧
      ∀ element ∈ elementsAt lists key, element.seq < nextSeq := by
  unfold elementsAt
  cases found : lists.get? key with
  | none => simp
  | some stored => exact ⟨inv.increasing key stored found, inv.below key stored found⟩

variable {s next : InMemoryStorageState β V N}

theorem applyEntry_invariant (inv : StoreInvariant s) {e : Entry β} (admitted : s.Admits (.entry e))
    (applied : s.applyWrite (.entry e) = .ok next) : StoreInvariant next := by
  have fresh := admitted.fresh e.id (by simp [ids])
  have later : s.nextSeq ≤ e.seq := admitted.later
  have raised : s.nextSeq ≤ e.seq + 1 := by omega
  rw [← ok.inj applied]
  refine ⟨inv.entries.insert raised fresh.1
      (fun old mem => Nat.lt_of_lt_of_le (inv.entries.below old mem) later)
      (Nat.lt_succ_self _) (admitted.parent e rfl),
    inv.usage.raise raised, inv.scalars.raise raised, inv.lists.raise raised,
    ?_, ?_, Nat.succ_pos _⟩
  · intro id contained
    by_cases same : e.id = id
    · subst same
      exact contains_eq_false.mpr fresh.2
    · simp only [InsertionMap.contains, InsertionMap.get?_set_of_ne _ _ same] at contained
      exact inv.disjoint id contained
  · simp only [inv.stats, recomputeStats, countP_append, countP_singleton]
    split <;> simp_all

theorem applyUsage_invariant (inv : StoreInvariant s) {row : UsageRow V N}
    (admitted : s.Admits (.usage row)) (applied : s.applyWrite (.usage row) = .ok next) :
    StoreInvariant next := by
  have fresh := admitted.fresh row.id (by simp [ids])
  have later : s.nextSeq ≤ row.seq := admitted.later
  have raised : s.nextSeq ≤ row.seq + 1 := by omega
  rw [← ok.inj applied]
  refine ⟨inv.entries.raise raised, inv.usage.insert fresh.2 later,
    inv.scalars.raise raised, inv.lists.raise raised, ?_, ?_, Nat.succ_pos _⟩
  · intro id contained
    have differs : row.id ≠ id := by
      rintro rfl
      rw [InsertionMap.contains, fresh.1] at contained
      cases contained
    simp only [InsertionMap.contains, InsertionMap.get?_set_of_ne _ _ differs]
    exact inv.disjoint id contained
  · simp [inv.stats, recomputeStats, InsertionMap.values_set_of_fresh _ _ _ fresh.2]

theorem applyWrite_invariant (inv : StoreInvariant s) {write : CommittedWrite β V N}
    (admitted : s.Admits write) (applied : s.applyWrite write = .ok next) :
    StoreInvariant next := by
  have later := admitted.later
  have raised : s.nextSeq ≤ write.seq + 1 := by omega
  cases write with
  | entry entry => exact applyEntry_invariant inv admitted applied
  | usage row => exact applyUsage_invariant inv admitted applied
  | valueSet seq ns key stored =>
    simp only [applyWrite, applyWriteBody] at applied
    cases body : s.applyValueSet seq ns key stored with
    | error reason => simp [body, Except.map] at applied
    | ok reached =>
      obtain ⟨address, -, -, rfl⟩ := applyValueSet_ok body
      rw [body] at applied
      rw [← ok.inj applied]
      exact ⟨inv.entries.raise raised, inv.usage.raise raised,
        inv.scalars.set raised ⟨address, stored, seq⟩ (Nat.lt_succ_self _),
        inv.lists.raise raised, inv.disjoint, inv.stats, Nat.succ_pos _⟩
  | valueDelete seq ns key =>
    rw [← ok.inj applied]
    exact ⟨inv.entries.raise raised, inv.usage.raise raised,
      (inv.scalars.erase _).raise raised, inv.lists.raise raised, inv.disjoint,
      inv.stats, Nat.succ_pos _⟩
  | listAppend seq ns key stored =>
    simp only [applyWrite, applyWriteBody] at applied
    cases body : s.applyListAppend seq ns key stored with
    | error reason => simp [body, Except.map] at applied
    | ok reached =>
      obtain ⟨address, -, -, rfl⟩ := applyListAppend_ok inv.lists.keyed body
      have earlier := elementsAt_increasing inv.lists address.physicalKey
      rw [body] at applied
      rw [← ok.inj applied]
      exact ⟨inv.entries.raise raised, inv.usage.raise raised,
        inv.scalars.raise raised,
        inv.lists.push raised address _ ⟨seq, stored⟩ (Nat.lt_succ_self _) earlier.1
          (fun old mem => Nat.lt_of_lt_of_le (earlier.2 old mem) later),
        inv.disjoint, inv.stats, Nat.succ_pos _⟩
  | listDelete seq ns key =>
    rw [← ok.inj applied]
    exact ⟨inv.entries.raise raised, inv.usage.raise raised,
      inv.scalars.raise raised, (inv.lists.erase _).raise raised, inv.disjoint,
      inv.stats, Nat.succ_pos _⟩

end InMemoryStorageState

end State

end Trpi.Session
