import Trpi.Session.Jsonl.StreamedFork
import Trpi.Session.WriteLog

/-!
# What the fork index knows

The index of the first pass holds of the source state exactly what selection and
projection look up: parents, the sequence of every current scalar and of the
first element of every list, and the rows of the three lane namespaces. A branch
is therefore selected, or refused, as the in-memory fork does it.
-/

namespace Trpi.Session.Jsonl

open Library (InsertionMap)

variable {β V N : Type}

/-- A table holds what is read off the stored rows of one namespace. -/
def Mirrors {δ : Type} (ns : String) (read : V → δ) (table : InsertionMap String δ)
    (scalars : InsertionMap String (StoredValue V)) : Prop :=
  ∀ key, table.get? key =
    (scalars.get? (physicalKey ns key)).map fun stored => read stored.value

/-- A table of one namespace after a value write anywhere. -/
def laneTable {δ : Type} (owner : String) (read : V → δ) (table : InsertionMap String δ)
    (ns key : String) (v : Option V) : InsertionMap String δ :=
  if ns = owner then v.elim (table.erase key) fun written => table.set key (read written)
  else table

variable {δ : Type} {owner : String} {read : V → δ} {table : InsertionMap String δ}
  {scalars : InsertionMap String (StoredValue V)}

section

variable (mirrors : Mirrors owner read table scalars)

include mirrors

theorem Mirrors.set (stored : StoredValue V) :
    Mirrors owner read
      (laneTable owner read table stored.address.ns stored.address.key (some stored.value))
      (scalars.set stored.address.physicalKey stored) := by
  intro key
  have keys := physicalKey_eq_iff stored.address owner key
  rw [InsertionMap.get?_set, laneTable]
  by_cases owns : stored.address.ns = owner
  · rw [if_pos owns, Option.elim_some, InsertionMap.get?_set]
    by_cases same : stored.address.key = key
    · rw [if_pos same, if_pos (keys.mpr ⟨owns.symm, same.symm⟩).symm, Option.map_some]
    · have differs : stored.address.physicalKey ≠ physicalKey owner key := fun equal =>
        same (keys.mp equal.symm).2.symm
      rw [if_neg same, if_neg differs, mirrors key]
  · have differs : stored.address.physicalKey ≠ physicalKey owner key := fun equal =>
      owns (keys.mp equal.symm).1.symm
    rw [if_neg owns, if_neg differs, mirrors key]

theorem Mirrors.erase
    (keyed : ∀ key stored, scalars.get? key = some stored → stored.address.physicalKey = key)
    (ns key : String) :
    Mirrors owner read (laneTable owner read table ns key none)
      (scalars.erase (physicalKey ns key)) := by
  intro other
  have before := mirrors other
  rw [InsertionMap.get?_erase, laneTable]
  cases found : scalars.get? (physicalKey owner other) with
  | none =>
    rw [found, Option.map_none] at before
    have unbound : (laneTable owner read table ns key none).get? other = none := by
      unfold laneTable
      split
      · rw [Option.elim_none, InsertionMap.get?_erase, before, ite_self]
      · exact before
    rw [laneTable] at unbound
    rw [unbound]
    split <;> rfl
  | some stored =>
    have owned := keyed _ _ found
    have parts := (physicalKey_eq_iff stored.address owner other).mp owned.symm
    have erased : physicalKey ns key = physicalKey owner other ↔ ns = owner ∧ key = other := by
      rw [← owned, physicalKey_eq_iff, ← parts.1, ← parts.2]
    rw [found] at before
    by_cases owns : ns = owner
    · rw [if_pos owns, Option.elim_none, InsertionMap.get?_erase]
      by_cases same : key = other
      · rw [if_pos same, if_pos (erased.mpr ⟨owns, same⟩), Option.map_none]
      · rw [if_neg same, if_neg fun equal => same (erased.mp equal).2, before]
    · rw [if_neg owns, if_neg fun equal => owns (erased.mp equal).1, before]

theorem Mirrors.contains (key : String) :
    table.contains key = (scalars.get? (physicalKey owner key)).isSome := by
  rw [InsertionMap.contains, mirrors key, Option.isSome_map]

end

namespace JsonlForkIndex

variable (i : JsonlForkIndex V) (ns key : String) (v : Option V)

@[simp] theorem applyLaneValue_branchTips : (i.applyLaneValue ns key v).branchTips =
    laneTable "pi.branch.tip" id i.branchTips ns key v := by
  unfold applyLaneValue laneTable
  split_ifs <;> rfl

@[simp] theorem applyLaneValue_laneConfigs : (i.applyLaneValue ns key v).laneConfigs =
    laneTable "pi.lane.config" (fun _ => ()) i.laneConfigs ns key v := by
  unfold applyLaneValue laneTable
  split_ifs <;> simp_all

@[simp] theorem applyLaneValue_laneStates : (i.applyLaneValue ns key v).laneStates =
    laneTable "pi.lane.state" (fun _ => ()) i.laneStates ns key v := by
  unfold applyLaneValue laneTable
  split_ifs <;> simp_all

@[simp] theorem applyLaneValue_currentScalarSeqs :
    (i.applyLaneValue ns key v).currentScalarSeqs = i.currentScalarSeqs := by
  unfold applyLaneValue
  split_ifs <;> rfl

@[simp] theorem applyLaneValue_firstSurvivingListSeqs :
    (i.applyLaneValue ns key v).firstSurvivingListSeqs = i.firstSurvivingListSeqs := by
  unfold applyLaneValue
  split_ifs <;> rfl

@[simp] theorem applyLaneValue_entryParents :
    (i.applyLaneValue ns key v).entryParents = i.entryParents := by
  unfold applyLaneValue
  split_ifs <;> rfl

end JsonlForkIndex

open InMemoryStorageState Option JsonlForkIndex

/-- The index holds of the state what selection and projection look up. -/
structure Indexes (i : JsonlForkIndex V) (state : InMemoryStorageState β V N) : Prop where
  parents : ∀ id, i.entryParents.get? id = (state.entries.get? id).map (·.parentId)
  scalars : ∀ target, i.currentScalarSeqs.get? target = (state.scalarValues.get? target).map (·.seq)
  lists : ∀ target, i.firstSurvivingListSeqs.get? target =
    (elementsAt state.listValues target).head?.map (·.seq)
  tips : Mirrors "pi.branch.tip" id i.branchTips state.scalarValues
  configs : Mirrors "pi.lane.config" (fun _ => ()) i.laneConfigs state.scalarValues
  states : Mirrors "pi.lane.state" (fun _ => ()) i.laneStates state.scalarValues

variable [Add N] [Zero N] {s : InMemoryStorageState β V N}

omit [Add N] in
theorem indexes_initial : Indexes (.empty : JsonlForkIndex V) (.initial : InMemoryStorageState β V N) :=
  ⟨fun _ => rfl, fun _ => rfl, fun _ => rfl, fun _ => rfl, fun _ => rfl, fun _ => rfl⟩

theorem Indexes.write {i : JsonlForkIndex V} {next : InMemoryStorageState β V N}
    (indexes : Indexes i s) (inv : StoreInvariant s) {write : CommittedWrite β V N}
    (applied : s.applyWrite write = .ok next) : Indexes (i.applyWrite write) next := by
  obtain ⟨reached, body, rfl⟩ := applyWrite_ok applied
  cases write with
  | entry inserted =>
    rw [← Except.ok.inj body]
    refine ⟨fun id => ?_, indexes.scalars, indexes.lists, indexes.tips, indexes.configs,
      indexes.states⟩
    simp only [JsonlForkIndex.applyWrite, JsonlForkIndex.applyEntry, InsertionMap.get?_set]
    split
    · rfl
    · exact indexes.parents id
  | usage row =>
    rw [← Except.ok.inj body]
    exact ⟨indexes.parents, indexes.scalars, indexes.lists, indexes.tips, indexes.configs,
      indexes.states⟩
  | valueSet seq ns key stored =>
    obtain ⟨address, rfl, rfl, rfl⟩ := applyValueSet_ok body
    have tips := indexes.tips.set ⟨address, stored, seq⟩
    have configs := indexes.configs.set ⟨address, stored, seq⟩
    have states := indexes.states.set ⟨address, stored, seq⟩
    constructor <;>
      simp only [JsonlForkIndex.applyWrite, JsonlForkIndex.applyLaneValue_entryParents,
        JsonlForkIndex.applyLaneValue_firstSurvivingListSeqs,
        JsonlForkIndex.applyLaneValue_currentScalarSeqs, JsonlForkIndex.applyLaneValue_branchTips,
        JsonlForkIndex.applyLaneValue_laneConfigs, JsonlForkIndex.applyLaneValue_laneStates]
    · exact indexes.parents
    · intro target
      simp only [InsertionMap.get?_set, Address.physicalKey]
      split
      · rfl
      · exact indexes.scalars target
    · exact indexes.lists
    · exact tips
    · exact configs
    · exact states
  | valueDelete seq ns key =>
    rw [← Except.ok.inj body]
    have tips := indexes.tips.erase inv.scalars.keyed ns key
    have configs := indexes.configs.erase inv.scalars.keyed ns key
    have states := indexes.states.erase inv.scalars.keyed ns key
    constructor <;>
      simp only [JsonlForkIndex.applyWrite, JsonlForkIndex.applyLaneValue_entryParents,
        JsonlForkIndex.applyLaneValue_firstSurvivingListSeqs,
        JsonlForkIndex.applyLaneValue_currentScalarSeqs, JsonlForkIndex.applyLaneValue_branchTips,
        JsonlForkIndex.applyLaneValue_laneConfigs, JsonlForkIndex.applyLaneValue_laneStates]
    · exact indexes.parents
    · intro target
      simp only [InsertionMap.get?_erase]
      split
      · rfl
      · exact indexes.scalars target
    · exact indexes.lists
    · exact tips
    · exact configs
    · exact states
  | listAppend seq ns key stored =>
    obtain ⟨address, rfl, rfl, rfl⟩ := applyListAppend_ok inv.lists.keyed body
    have present := indexes.lists address.physicalKey
    have others : (i.applyWrite (.listAppend seq address.ns address.key stored :
        CommittedWrite β V N)) = { i with
          firstSurvivingListSeqs :=
            (i.applyWrite (.listAppend seq address.ns address.key stored :
              CommittedWrite β V N)).firstSurvivingListSeqs } := by
      simp only [JsonlForkIndex.applyWrite]
      split <;> rfl
    rw [others]
    refine ⟨indexes.parents, indexes.scalars, fun target => ?_, indexes.tips, indexes.configs,
      indexes.states⟩
    simp only [JsonlForkIndex.applyWrite, InsertionMap.contains]
    change (if (i.firstSurvivingListSeqs.get? address.physicalKey).isSome = true then i
      else _ : JsonlForkIndex V).firstSurvivingListSeqs.get? target = _
    rw [present]
    cases earlier : elementsAt s.listValues address.physicalKey with
    | nil =>
      simp only [List.head?_nil, map_none, isSome_none, Bool.false_eq_true, if_false,
        InsertionMap.get?_set, elementsAt, List.nil_append]
      by_cases same : address.physicalKey = target
      · simp [same, show physicalKey address.ns address.key = target from same]
      · simp only [if_neg same, if_neg (show physicalKey address.ns address.key ≠ target from same)]
        exact indexes.lists target
    | cons first rest =>
      simp only [List.head?_cons, map_some, isSome_some, if_true, elementsAt, InsertionMap.get?_set]
      by_cases same : address.physicalKey = target
      · subst same
        simp [present, earlier]
      · simp only [if_neg same]
        exact indexes.lists target
  | listDelete seq ns key =>
    rw [← Except.ok.inj body]
    refine ⟨indexes.parents, indexes.scalars, fun target => ?_, indexes.tips, indexes.configs,
      indexes.states⟩
    simp only [JsonlForkIndex.applyWrite, InsertionMap.get?_erase, elementsAt_erase]
    split
    · rfl
    · exact indexes.lists target

theorem built_indexes {writes : List (CommittedWrite β V N)}
    (built : Built writes s) : Indexes (empty.applyWrites writes) s := by
  induction built with
  | initial => exact indexes_initial
  | write before admitted applied ih =>
    rw [applyWrites, List.foldl_append]
    exact ih.write before.invariant applied

section Selection

variable [ForkValue V]

omit [Add N] [Zero N] [ForkValue V] in
/-- Stored keys contain no NUL, so a branch name with one has no row. -/
theorem get?_of_invalid {scalars : InsertionMap String (StoredValue V)}
    (keyed : ∀ key stored, scalars.get? key = some stored → stored.address.physicalKey = key)
    {ns key : String} {reason : AddressError} (invalid : value ns key = .error reason) :
    scalars.get? (physicalKey ns key) = none := by
  cases found : scalars.get? (physicalKey ns key) with
  | none => rfl
  | some stored =>
    obtain ⟨rfl, rfl⟩ := (physicalKey_eq_iff stored.address ns key).mp (keyed _ _ found).symm
    rw [value_of_valid stored.address.valid] at invalid
    cases invalid

theorem selectJsonlFork_eq {i : JsonlForkIndex V} {s : InMemoryStorageState β V N}
    (indexes : Indexes i s) (inv : StoreInvariant s)
    (fresh : i.copiedEntryIds = []) (opts : ForkOptions) :
    match s.selectForkPlan opts with
    | .ok (plan, selected) =>
      selectJsonlFork s.nextSeq i opts = .ok (plan, { i with copiedEntryIds := selected })
    | .error _ => ∃ reason, selectJsonlFork s.nextSeq i opts = .error reason := by
  cases opts with
  | tree =>
    cases i
    simp_all [selectForkPlan, selectJsonlFork]
  | branch branch entryId position =>
    have parents : i.entryParents.get? = fun id => (s.entries.get? id).map (·.parentId) :=
      funext indexes.parents
    simp only [selectForkPlan, selectJsonlFork, parents, hasCompleteLane,
      indexes.configs.contains, indexes.states.contains, indexes.tips branch]
    cases tipAddress : value "pi.branch.tip" branch with
    | error reason =>
      have absent := get?_of_invalid inv.scalars.keyed tipAddress
      simp [absent, selectBranchFork]
    | ok tip =>
      obtain ⟨tipNs, tipKey⟩ := value_ok tipAddress
      have valid : validateAddress "pi.lane.config" branch = .ok () ∧
          validateAddress "pi.lane.state" branch = .ok () := by
        have accepted := (validateAddress_ok_iff _ _).mp tip.valid
        rw [tipKey] at accepted
        refine ⟨(validateAddress_ok_iff _ _).mpr ⟨by decide, by decide, accepted.2.2⟩,
          (validateAddress_ok_iff _ _).mpr ⟨by decide, by decide, accepted.2.2⟩⟩
      rw [value_of_valid valid.1, value_of_valid valid.2]
      have tipRow : s.getValue tip = s.scalarValues.get? (physicalKey "pi.branch.tip" branch) := by
        rw [getValue, Address.physicalKey, tipNs, tipKey]
      simp only [tipRow, id_eq]
      simp only [getValue, Address.physicalKey]
      cases selectBranchFork s.nextSeq branch entryId position
          ((s.scalarValues.get? (physicalKey "pi.branch.tip" branch)).map fun stored =>
            stored.value)
          (fun id => (s.entries.get? id).map (·.parentId)) with
      | error reason => exact ⟨reason, rfl⟩
      | ok outcome =>
        obtain ⟨destinationTip, selected⟩ := outcome
        by_cases configured : (s.scalarValues.get? (physicalKey "pi.lane.config" branch)).isSome ∧
            (s.scalarValues.get? (physicalKey "pi.lane.state" branch)).isSome
        · simp [← not_isSome, configured.1, configured.2]
        · simp only [← not_isSome, ← Bool.not_and, Bool.and_eq_true, configured, if_false,
            Bool.not_eq_true', ← Bool.not_eq_true, not_false_eq_true, if_true]
          exact ⟨_, rfl⟩

end Selection

end Trpi.Session.Jsonl
