import Trpi.Session.CreateFork
import Trpi.Session.Jsonl.ForkIndex

/-!
# What the copy pass publishes

The copy pass keeps a write that is a copied entry, the current row of its key,
or an element of the surviving list, as the fork policy projects it. Replayed
from an empty session the kept writes are admitted and build the in-memory fork,
and the pass is refused exactly when the in-memory fork is.
-/

namespace Trpi.Session.Jsonl

open Library (InsertionMap run run_append_ok)
open InMemoryStorageState CommittedWrite JsonlForkIndex List Option

variable {β V N : Type} [ForkValue V]

section OneWrite

variable (i : JsonlForkIndex V) (plan : ForkCurrentStatePlan) (copied : String → Bool)

/-- What the copy pass publishes of a write it does not refuse. -/
def keptWrite (write : CommittedWrite β V N) : Option (CommittedWrite β V N) :=
  (projectJsonlForkWrite i plan copied write).toOption.join

theorem join_toOption_map {ε α γ : Type} (outcome : Except ε (Option α)) (f : α → γ) :
    (outcome.map (Option.map f)).toOption.join = outcome.toOption.join.map f := by
  cases outcome with
  | error reason => rfl
  | ok projected => rfl

theorem keptWrite_entry (e : Entry β) :
    keptWrite i plan copied (.entry e : CommittedWrite β V N) =
      if copied e.id then some (.entry e) else none := rfl

theorem keptWrite_valueSet (seq : Nat) (ns key : String) (v : V) :
    keptWrite i plan copied (.valueSet seq ns key v : CommittedWrite β V N) =
      if i.getCurrentScalarSeq ns key = some seq then
        (projectForkCurrentState plan copied ns key v).toOption.join.map (.valueSet seq ns key ·)
      else none := by
  simp only [keptWrite, projectJsonlForkWrite]
  split
  · exact join_toOption_map _ _
  · rfl

theorem keptWrite_listAppend (seq : Nat) (ns key : String) (v : V) :
    keptWrite i plan copied (.listAppend seq ns key v : CommittedWrite β V N) =
      if i.isSurvivingListElement ns key seq then
        (projectForkCurrentState plan copied ns key v).toOption.join.map (.listAppend seq ns key ·)
      else none := by
  simp only [keptWrite, projectJsonlForkWrite]
  split
  · exact join_toOption_map _ _
  · rfl

variable {i : JsonlForkIndex V} {plan : ForkCurrentStatePlan} {copied : String → Bool}
  {write kept : CommittedWrite β V N}

theorem keptWrite_some (isKept : keptWrite i plan copied write = some kept) :
    kept.seq = write.seq ∧ kept.checkAddress = write.checkAddress ∧ kept.Stores ∧
      kept.insertedEntry = write.insertedEntry ∧
      ∀ entry, write = .entry entry → kept = .entry entry ∧ copied entry.id = true := by
  cases write with
  | entry entry =>
    rw [keptWrite_entry] at isKept
    split at isKept
    · next isCopied =>
      rw [← some.inj isKept]
      refine ⟨rfl, rfl, ⟨nofun, nofun, nofun⟩, rfl, fun other same => ⟨same, ?_⟩⟩
      rwa [← CommittedWrite.entry.inj same]
    · cases isKept
  | valueSet seq ns key v =>
    rw [keptWrite_valueSet] at isKept
    split at isKept
    · obtain ⟨projected, -, rfl⟩ := map_eq_some_iff.mp isKept
      exact ⟨rfl, rfl, ⟨nofun, nofun, nofun⟩, rfl, nofun⟩
    · cases isKept
  | listAppend seq ns key v =>
    rw [keptWrite_listAppend] at isKept
    split at isKept
    · obtain ⟨projected, -, rfl⟩ := map_eq_some_iff.mp isKept
      exact ⟨rfl, rfl, ⟨nofun, nofun, nofun⟩, rfl, nofun⟩
    · cases isKept
  | _ => cases isKept

theorem scalarAt_keptWrite (address : Value) (write : CommittedWrite β V N) :
    (keptWrite i plan copied write).bind (·.scalarAt address.physicalKey) =
      ((write.scalarAt address.physicalKey).filter fun stored =>
        i.currentScalarSeqs.get? address.physicalKey = some stored.seq).bind
          (keptElement plan copied address) := by
  cases write with
  | valueSet seq ns key v =>
    rw [keptWrite_valueSet, scalarAt, getCurrentScalarSeq]
    by_cases here : physicalKey ns key = address.physicalKey
    · obtain ⟨rfl, rfl⟩ := (physicalKey_eq_iff address ns key).mp here
      rw [if_pos here, here, Option.filter]
      by_cases current : i.currentScalarSeqs.get? address.physicalKey = some seq
      · simp only [current, if_true, decide_true, bind_some, keptElement, projectElement]
        rw [join_toOption_map]
        cases (projectForkCurrentState plan copied address.ns address.key v).toOption.join with
        | none => rfl
        | some projected => exact if_pos here
      · simp [current]
    · rw [if_neg here]
      split
      · cases (projectForkCurrentState plan copied ns key v).toOption.join with
        | none => rfl
        | some projected => exact if_neg here
      · rfl
  | entry entry =>
    rw [keptWrite_entry]
    split <;> rfl
  | listAppend seq ns key v =>
    rw [keptWrite_listAppend]
    split
    · cases (projectForkCurrentState plan copied ns key v).toOption.join <;> rfl
    · rfl
  | _ => rfl

theorem elementAt_keptWrite (address : ValueList) (write : CommittedWrite β V N) :
    (keptWrite i plan copied write).bind (·.elementAt address.physicalKey) =
      ((write.elementAt address.physicalKey).filter fun element =>
        (i.firstSurvivingListSeqs.get? address.physicalKey).any fun firstSeq =>
          firstSeq ≤ element.seq).bind (keptElement plan copied address) := by
  cases write with
  | listAppend seq ns key v =>
    rw [keptWrite_listAppend, elementAt, isSurvivingListElement]
    by_cases here : physicalKey ns key = address.physicalKey
    · obtain ⟨rfl, rfl⟩ := (physicalKey_eq_iff address ns key).mp here
      rw [if_pos here, here, Option.filter]
      by_cases survives : (i.firstSurvivingListSeqs.get? address.physicalKey).any
          (fun firstSeq => firstSeq ≤ seq) = true
      · simp only [survives, if_true, bind_some, keptElement, projectElement]
        rw [join_toOption_map]
        cases (projectForkCurrentState plan copied address.ns address.key v).toOption.join with
        | none => rfl
        | some projected => exact if_pos here
      · simp [survives]
    · rw [if_neg here]
      split
      · cases (projectForkCurrentState plan copied ns key v).toOption.join with
        | none => rfl
        | some projected => exact if_neg here
      · rfl
  | entry entry =>
    rw [keptWrite_entry]
    split <;> rfl
  | valueSet seq ns key v =>
    rw [keptWrite_valueSet]
    split
    · cases (projectForkCurrentState plan copied ns key v).toOption.join <;> rfl
    · rfl
  | _ => rfl

end OneWrite

section Destination

variable [Add N] [Zero N] {i : JsonlForkIndex V} {plan : ForkCurrentStatePlan}
  {copied : String → Bool} {writes : List (CommittedWrite β V N)}
  {source destination s : InMemoryStorageState β V N} {write : CommittedWrite β V N}

/-- The destination while its source is replayed beside it. -/
structure Copies (copied : String → Bool) (source destination : InMemoryStorageState β V N) :
    Prop where
  contains : ∀ id, destination.entries.contains id = (source.entries.contains id && copied id)
  usage : destination.usage = .empty
  nextSeq : destination.nextSeq ≤ source.nextSeq

section

omit [ForkValue V]

theorem applyWrite_entries {s next : InMemoryStorageState β V N}
    (applied : s.applyWrite write = .ok next) :
    next.entries = write.insertedEntry.elim s.entries (fun entry => s.entries.set entry.id entry) ∧
      next.entriesBySeq = s.entriesBySeq ++ write.insertedEntry.toList := by
  obtain ⟨reached, body, rfl⟩ := applyWrite_ok applied
  cases write with
  | valueSet seq ns key stored =>
    obtain ⟨address, -, -, rfl⟩ := applyValueSet_ok body
    exact ⟨rfl, (append_nil _).symm⟩
  | listAppend seq ns key stored =>
    rw [applyListAppend_frame body]
    exact ⟨rfl, (append_nil _).symm⟩
  | entry inserted =>
    rw [← Except.ok.inj body]
    exact ⟨rfl, rfl⟩
  | _ =>
    rw [← Except.ok.inj body]
    exact ⟨rfl, (append_nil _).symm⟩

theorem applyWrite_usage {s next : InMemoryStorageState β V N} (stores : write.Stores)
    (applied : s.applyWrite write = .ok next) : next.usage = s.usage := by
  obtain ⟨reached, body, rfl⟩ := applyWrite_ok applied
  cases write with
  | usage row => exact absurd rfl (stores.2.2 row)
  | valueSet seq ns key stored =>
    obtain ⟨address, -, -, rfl⟩ := applyValueSet_ok body
    rfl
  | listAppend seq ns key stored => rw [applyListAppend_frame body]
  | _ => rw [← Except.ok.inj body]

theorem applyWrite_of_addressed (inv : StoreInvariant s) (addressed : write.checkAddress = .ok ()) :
    ∃ next, s.applyWrite write = .ok next := by
  cases applied : s.applyWrite write with
  | ok next => exact ⟨next, rfl⟩
  | error reason =>
    rw [applyWrite_error_iff inv.lists.keyed, addressed] at applied
    cases applied

end

variable (i plan) in
/-- The kept writes of a built state are admitted, and build a destination. -/
theorem built_copies (built : Built writes source) (closed : CopyClosed source copied) :
    ∃ destination, Built (writes.filterMap (keptWrite i plan copied)) destination ∧
      Copies copied source destination := by
  induction built with
  | initial => exact ⟨.initial, .initial, ⟨fun _ => rfl, rfl, Nat.le_refl _⟩⟩
  | @write writes s next write before admitted applied ih =>
    obtain ⟨entries, bySeq⟩ := applyWrite_entries applied
    have earlier : CopyClosed s copied := fun entry mem =>
      closed entry (bySeq ▸ mem_append_left _ mem)
    obtain ⟨destination, built, copies⟩ := ih earlier
    have later := admitted.later
    have raised := applyWrite_nextSeq applied
    have below := copies.nextSeq
    rw [filterMap_append]
    cases isKept : keptWrite i plan copied write with
    | none =>
      refine ⟨destination, by simpa [isKept] using built, ?_, copies.usage, by omega⟩
      intro id
      rw [copies.contains id, entries]
      cases write with
      | entry inserted =>
        rw [keptWrite_entry] at isKept
        have dropped : copied inserted.id = false := by simpa using isKept
        by_cases same : id = inserted.id
        · simp [insertedEntry, same, dropped]
        · simp [insertedEntry, InsertionMap.contains_set, same]
      | _ => rfl
    | some kept =>
      obtain ⟨sameSeq, sameCheck, stores, sameEntry, isEntry⟩ := keptWrite_some isKept
      have addressed : kept.checkAddress = .ok () := by
        rw [sameCheck]
        exact (Built.write before admitted applied).shows.addressed write (by simp)
      obtain ⟨reached, stepped⟩ := applyWrite_of_addressed built.invariant addressed
      have admits : destination.Admits kept := by
        refine ⟨by omega, fun id mem => ?_, ?_⟩
        · rw [copies.usage]
          refine ⟨contains_eq_false.mp ?_, rfl⟩
          cases write with
          | entry inserted =>
            obtain ⟨rfl, -⟩ := isEntry inserted rfl
            rw [copies.contains, contains_eq_false.mpr (admitted.fresh id mem).1]
            rfl
          | usage row => cases isKept
          | _ =>
            cases kept with
            | entry inserted => cases sameEntry
            | usage row => exact absurd rfl (stores.2.2 row)
            | _ => cases mem
        · rintro inserted rfl parentId link
          cases write with
          | entry original =>
            obtain ⟨same, isCopied⟩ := isEntry original rfl
            obtain rfl := entry.inj same
            rw [copies.contains, admitted.parent inserted rfl parentId link,
              closed inserted (by simp [bySeq, insertedEntry]) isCopied parentId link]
            rfl
          | _ => cases sameEntry
      refine ⟨reached, by simpa [isKept] using built.write admits stepped, ?_, ?_, ?_⟩
      · intro id
        rw [(applyWrite_entries stepped).1, entries, sameEntry]
        cases write with
        | entry inserted =>
          obtain ⟨-, isCopied⟩ := isEntry inserted rfl
          simp only [insertedEntry, elim_some, InsertionMap.contains_set]
          by_cases same : id = inserted.id
          · simp [same, isCopied]
          · simp [same, copies.contains id]
        | _ => exact copies.contains id
      · rw [applyWrite_usage stores stepped, copies.usage]
      · rw [applyWrite_nextSeq stepped, raised, sameSeq]

omit [ForkValue V] in
theorem getValue_eq_scalarView (inv : StoreInvariant s) (shows : Shows writes s) (address : Value) :
    s.getValue address = (scalarView address.physicalKey writes).map fun stored =>
      ⟨address, stored.value, stored.seq⟩ := by
  rw [← shows.scalars address.physicalKey, getValue]
  cases found : s.scalarValues.get? address.physicalKey with
  | none => rfl
  | some stored =>
    obtain rfl := Address.physicalKey_inj.mp (inv.scalars.keyed _ _ found)
    rfl

theorem keptScalar_eq (plan : ForkCurrentStatePlan) (copied : String → Bool) (address : Value)
    (stored : ListElement V) :
    keptScalar plan copied ⟨address, stored.value, stored.seq⟩ =
      (keptElement plan copied address stored).map fun kept => ⟨address, kept.value, kept.seq⟩ := by
  simp only [keptScalar, projectScalar, keptElement, projectElement, join_toOption_map,
    Option.map_map]
  rfl

omit [Add N] [Zero N] in
theorem filterMap_kept_stores :
    ∀ write ∈ writes.filterMap (keptWrite i plan copied), write.Stores := by
  intro write mem
  obtain ⟨original, -, isKept⟩ := mem_filterMap.mp mem
  exact (keptWrite_some isKept).2.2.1

omit [Add N] [Zero N] in
theorem kept_entries (i : JsonlForkIndex V) (plan : ForkCurrentStatePlan)
    (copied : String → Bool) (writes : List (CommittedWrite β V N)) :
    (writes.filterMap (keptWrite i plan copied)).filterMap insertedEntry =
      (writes.filterMap insertedEntry).filter fun entry => copied entry.id := by
  rw [filterMap_filterMap, filter_filterMap]
  apply filterMap_congr
  intro write mem
  cases write with
  | entry entry =>
    rw [keptWrite_entry, insertedEntry, Option.filter]
    split <;> rfl
  | valueSet seq ns key v =>
    rw [keptWrite_valueSet]
    split
    · cases (projectForkCurrentState plan copied ns key v).toOption.join <;> rfl
    · rfl
  | listAppend seq ns key v =>
    rw [keptWrite_listAppend]
    split
    · cases (projectForkCurrentState plan copied ns key v).toOption.join <;> rfl
    · rfl
  | _ => rfl

section

variable (built : Built writes source) (indexes : Indexes i source)

include built indexes

/-- The scalar the kept writes leave is the projection of the stored one. -/
theorem kept_scalarView (address : Value) :
    scalarView address.physicalKey (writes.filterMap (keptWrite i plan copied)) =
      (scalarView address.physicalKey writes).bind (keptElement plan copied address) := by
  have current : ∀ stored : ListElement V,
      (i.currentScalarSeqs.get? address.physicalKey = some stored.seq) =
        ((scalarView address.physicalKey writes).map (·.seq) = some stored.seq) := by
    intro stored
    rw [indexes.scalars, ← built.shows.scalars, Option.map_map]
    rfl
  rw [scalarView_of_stores _ filterMap_kept_stores, filterMap_filterMap]
  simp only [scalarAt_keptWrite, current]
  rw [← filterMap_filterMap, currentScalar _ built.shows.increasing]
  cases scalarView address.physicalKey writes with
  | none => rfl
  | some stored => cases kept : keptElement plan copied address stored <;> simp [kept]

/-- The list the kept writes leave is the projection of the stored one. -/
theorem kept_listView (address : ValueList) :
    listView address.physicalKey (writes.filterMap (keptWrite i plan copied)) =
      (listView address.physicalKey writes).filterMap (keptElement plan copied address) := by
  have surviving : ∀ element : ListElement V,
      ((i.firstSurvivingListSeqs.get? address.physicalKey).any fun firstSeq =>
        firstSeq ≤ element.seq) =
        (listView address.physicalKey writes).head?.any fun first => first.seq ≤ element.seq := by
    intro element
    rw [indexes.lists, built.shows.lists, Option.any_map]
  rw [listView_of_stores _ filterMap_kept_stores, filterMap_filterMap]
  simp only [elementAt_keptWrite, surviving]
  rw [← filterMap_filterMap, survivingElements _ built.shows.increasing]

theorem built_isFork {nextSeq : Nat}
    (raised : source.nextSeq ≤ nextSeq)
    (kept : Built (writes.filterMap (keptWrite i plan copied)) destination)
    (copies : Copies copied source destination) :
    IsFork (source.withNextSeq nextSeq) (destination.withNextSeq nextSeq) plan copied where
  entries := kept.invariant.entries.raise (Nat.le_trans copies.nextSeq raised)
  bySeq := by
    simp only [withNextSeq, kept.shows.entries, built.shows.entries, kept_entries]
  scalarsKeyed := kept.invariant.scalars.keyed
  scalars address := by
    have destinationRow := getValue_eq_scalarView kept.invariant kept.shows address
    have sourceRow := getValue_eq_scalarView built.invariant built.shows address
    rw [kept_scalarView built indexes] at destinationRow
    change destination.getValue address = (source.getValue address).bind (keptScalar plan copied)
    rw [destinationRow, sourceRow]
    cases scalarView address.physicalKey writes with
    | none => rfl
    | some stored => exact (keptScalar_eq plan copied address stored).symm
  listsKeyed := ⟨kept.invariant.lists.keyed, kept.invariant.lists.nonempty⟩
  lists address := by
    change destination.listElements address =
      (source.listElements address).filterMap (keptElement plan copied address)
    rw [listElements, listElements, kept.shows.lists, built.shows.lists,
      kept_listView built indexes]
  usage := copies.usage
  stats := by
    change destination.stats = _
    rw [kept.invariant.stats, recomputeStats, copies.usage]
    rfl
  nextSeq := rfl

end

variable (plan copied) in
theorem projects_iff (built : Built writes source) (indexes : Indexes i source) :
    (∀ write ∈ writes, ∃ outcome, projectJsonlForkWrite i plan copied write = .ok outcome) ↔
      (∀ row ∈ source.scalarValues.values, ∃ outcome,
        projectScalar plan copied row = .ok outcome) ∧
      ∀ row ∈ source.listValues.values, ∀ element ∈ row.elements, ∃ outcome,
        projectElement plan copied row.address element = .ok outcome := by
  have mapped : ∀ {α γ : Type} (outcome : Except ForkError α) (f : α → γ),
      (∃ result, outcome.map f = .ok result) ↔ ∃ result, outcome = .ok result := by
    intro α γ outcome f
    cases outcome <;> simp [Except.map]
  have shows := built.shows
  have inv := built.invariant
  constructor
  · intro projects
    constructor
    · intro row mem
      obtain ⟨key, found⟩ := (source.scalarValues.mem_values_iff row).mp mem
      obtain rfl := inv.scalars.keyed key row found
      have view := shows.scalars row.address.physicalKey
      rw [found, map_some] at view
      have listed : (⟨row.seq, row.value⟩ : ListElement V) ∈
          (scalarView row.address.physicalKey writes).toList := by simp [← view]
      rw [← currentScalar _ shows.increasing] at listed
      obtain ⟨write, written, stored⟩ := mem_filterMap.mp listed
      obtain ⟨stores, current⟩ := filter_eq_some_iff.mp stored
      cases write with
      | valueSet seq ns key v =>
        simp only [scalarAt] at stores
        split at stores
        · next here =>
          obtain ⟨rfl, rfl⟩ := (physicalKey_eq_iff row.address ns key).mp here
          obtain ⟨rfl, rfl⟩ := ListElement.mk.inj (some.inj stores)
          have projected := projects _ written
          have isCurrent : i.getCurrentScalarSeq row.address.ns row.address.key = some row.seq := by
            rw [getCurrentScalarSeq, here, indexes.scalars, found]
            rfl
          rw [projectJsonlForkWrite, if_pos isCurrent, mapped] at projected
          rwa [projectScalar, mapped]
        · cases stores
      | _ => cases stores
    · intro row mem element inside
      obtain ⟨key, found⟩ := (source.listValues.mem_values_iff row).mp mem
      obtain rfl := inv.lists.keyed key row found
      have view := shows.lists row.address.physicalKey
      rw [elementsAt, found] at view
      have listed : element ∈ listView row.address.physicalKey writes := view ▸ inside
      rw [← survivingElements _ shows.increasing] at listed
      obtain ⟨write, written, pushed⟩ := mem_filterMap.mp listed
      obtain ⟨pushes, survives⟩ := filter_eq_some_iff.mp pushed
      cases write with
      | listAppend seq ns key v =>
        simp only [elementAt] at pushes
        split at pushes
        · next here =>
          obtain ⟨rfl, rfl⟩ := (physicalKey_eq_iff row.address ns key).mp here
          cases pushes
          have projected := projects _ written
          have isSurviving : i.isSurvivingListElement row.address.ns row.address.key seq = true := by
            rw [isSurvivingListElement, here, indexes.lists, shows.lists, Option.any_map]
            exact survives
          rw [projectJsonlForkWrite, if_pos isSurviving, mapped] at projected
          rwa [projectElement, mapped]
        · cases pushes
      | _ => cases pushes
  · rintro ⟨scalars, lists⟩ write mem
    cases write with
    | valueSet seq ns key v =>
      rw [projectJsonlForkWrite]
      split
      · next current =>
        rw [mapped]
        rw [getCurrentScalarSeq, indexes.scalars] at current
        obtain ⟨row, found, sameSeq⟩ := map_eq_some_iff.mp current
        have view := shows.scalars (physicalKey ns key)
        rw [found, map_some] at view
        have listed : (⟨seq, v⟩ : ListElement V) ∈
            (scalarView (physicalKey ns key) writes).toList := by
          rw [← currentScalar _ shows.increasing]
          refine mem_filterMap.mpr ⟨_, mem, ?_⟩
          simp [scalarAt, ← view, sameSeq]
        rw [← view, toList_some, mem_singleton] at listed
        obtain ⟨rfl, rfl⟩ := ListElement.mk.inj listed
        obtain ⟨rfl, rfl⟩ :=
          (physicalKey_eq_iff row.address ns key).mp (inv.scalars.keyed _ _ found).symm
        have projected := scalars row ((source.scalarValues.mem_values_iff row).mpr ⟨_, found⟩)
        rwa [projectScalar, mapped] at projected
      · exact ⟨none, rfl⟩
    | listAppend seq ns key v =>
      rw [projectJsonlForkWrite]
      split
      · next survives =>
        rw [mapped]
        rw [isSurvivingListElement, indexes.lists, shows.lists, Option.any_map]
          at survives
        have listed : (⟨seq, v⟩ : ListElement V) ∈ listView (physicalKey ns key) writes := by
          rw [← survivingElements _ shows.increasing]
          refine mem_filterMap.mpr ⟨_, mem, ?_⟩
          rw [elementAt, if_pos rfl, Option.filter]
          exact if_pos survives
        rw [← shows.lists, elementsAt] at listed
        cases found : source.listValues.get? (physicalKey ns key) with
        | none => simp [found] at listed
        | some row =>
          rw [found] at listed
          obtain ⟨rfl, rfl⟩ :=
            (physicalKey_eq_iff row.address ns key).mp (inv.lists.keyed _ _ found).symm
          have projected := lists row ((source.listValues.mem_values_iff row).mpr ⟨_, found⟩) _ listed
          rwa [projectElement, mapped] at projected
      · exact ⟨none, rfl⟩
    | entry entry => exact ⟨_, rfl⟩
    | usage row => exact ⟨none, rfl⟩
    | valueDelete seq ns key => exact ⟨none, rfl⟩
    | listDelete seq ns key => exact ⟨none, rfl⟩

end Destination

end Trpi.Session.Jsonl
