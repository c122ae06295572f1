import Mathlib.Data.List.Induction
import Trpi.Session.CommitRuns

/-!
# What a list of writes stores

The entries, the scalar values and the lists that a list of committed writes
leaves behind, read off the list itself. A state that some writes built shows
exactly this.
-/

namespace Trpi.Session

open List Option Except
open Library (InsertionMap)

variable {β V N : Type}

namespace CommittedWrite

def insertedEntry : CommittedWrite β V N → Option (Entry β)
  | .entry inserted => some inserted
  | _ => none

def scalarAt (target : String) : CommittedWrite β V N → Option (ListElement V)
  | .valueSet seq ns key value => if physicalKey ns key = target then some ⟨seq, value⟩ else none
  | _ => none

def deletesScalar (target : String) : CommittedWrite β V N → Bool
  | .valueDelete _ ns key => physicalKey ns key = target
  | _ => false

/-- The list element a write pushes under a physical key. -/
def elementAt (target : String) : CommittedWrite β V N → Option (ListElement V)
  | .listAppend seq ns key value => if physicalKey ns key = target then some ⟨seq, value⟩ else none
  | _ => none

def deletesList (target : String) : CommittedWrite β V N → Bool
  | .listDelete _ ns key => physicalKey ns key = target
  | _ => false

variable {write : CommittedWrite β V N} {target : String}

theorem scalarAt_seq {stored : ListElement V}
    (stores : write.scalarAt target = some stored) : stored.seq = write.seq := by
  cases write with
  | valueSet seq ns key v =>
    simp only [scalarAt] at stores
    split at stores
    · rw [← some.inj stores]
      rfl
    · cases stores
  | _ => cases stores

theorem elementAt_seq {element : ListElement V}
    (pushes : write.elementAt target = some element) : element.seq = write.seq := by
  cases write with
  | listAppend seq ns key v =>
    simp only [elementAt] at pushes
    split at pushes
    · rw [← some.inj pushes]
      rfl
    · cases pushes
  | _ => cases pushes

end CommittedWrite

def scalarStep (target : String) (current : Option (ListElement V))
    (write : CommittedWrite β V N) : Option (ListElement V) :=
  if write.deletesScalar target then none else (write.scalarAt target).or current

def listStep (target : String) (elements : List (ListElement V)) (write : CommittedWrite β V N) :
    List (ListElement V) :=
  if write.deletesList target then [] else elements ++ (write.elementAt target).toList

/-- The scalar stored under a physical key after these writes. -/
def scalarView (target : String) (writes : List (CommittedWrite β V N)) : Option (ListElement V) :=
  writes.foldl (scalarStep target) none

/-- The list stored under a physical key after these writes. -/
def listView (target : String) (writes : List (CommittedWrite β V N)) : List (ListElement V) :=
  writes.foldl (listStep target) []

section

variable (target : String) (writes : List (CommittedWrite β V N)) (write : CommittedWrite β V N)

theorem scalarView_concat :
    scalarView target (writes ++ [write]) = scalarStep target (scalarView target writes) write := by
  simp [scalarView]

theorem listView_concat :
    listView target (writes ++ [write]) = listStep target (listView target writes) write := by
  simp [listView]

end

/-- The writes of a log have increasing sequences. -/
def Increasing (writes : List (CommittedWrite β V N)) : Prop :=
  writes.Pairwise fun earlier later => earlier.seq < later.seq

variable {writes : List (CommittedWrite β V N)}

theorem Increasing.before {write : CommittedWrite β V N}
    (increasing : Increasing (writes ++ [write])) :
    Increasing writes ∧ ∀ earlier ∈ writes, earlier.seq < write.seq := by
  obtain ⟨before, -, last⟩ := pairwise_append.mp increasing
  exact ⟨before, fun earlier mem => last earlier mem write (mem_singleton_self write)⟩

theorem currentScalar (target : String) (increasing : Increasing writes) :
    writes.filterMap (fun write => (write.scalarAt target).filter fun stored =>
      (scalarView target writes).map (·.seq) = some stored.seq) =
      (scalarView target writes).toList := by
  induction writes using reverseRecOn with
  | nil => rfl
  | append_singleton writes write ih =>
    obtain ⟨before, earlier⟩ := increasing.before
    rw [scalarView_concat, filterMap_append]
    unfold scalarStep
    by_cases deletes : write.deletesScalar target
    · simp only [deletes, if_true]
      have absent : ∀ write : CommittedWrite β V N, (write.scalarAt target).filter (fun stored =>
          (none : Option (ListElement V)).map (·.seq) = some stored.seq) = none := by
        intro write
        simp
      simp only [absent]
      simp
    · simp only [deletes, Bool.false_eq_true, if_false]
      cases stores : write.scalarAt target with
      | none => simpa [stores] using ih before
      | some stored =>
        have replaced : writes.filterMap (fun write => (write.scalarAt target).filter fun other =>
            (some stored).map (·.seq) = some other.seq) = [] := by
          apply filterMap_eq_nil_iff.mpr
          intro older mem
          apply Option.filter_eq_none_iff.mpr
          intro other found
          have less := earlier older mem
          have olderSeq := CommittedWrite.scalarAt_seq found
          have storedSeq := CommittedWrite.scalarAt_seq stores
          simp only [Option.map_some, Option.some.injEq, decide_eq_true_eq]
          omega
        rw [Option.some_or, replaced]
        simp [Option.filter, stores]

theorem survivingElements (target : String) (increasing : Increasing writes) :
    writes.filterMap (fun write => (write.elementAt target).filter fun element =>
      (listView target writes).head?.any fun first => first.seq ≤ element.seq) =
      listView target writes := by
  induction writes using reverseRecOn with
  | nil => rfl
  | append_singleton writes write ih =>
    obtain ⟨before, earlier⟩ := increasing.before
    rw [listView_concat, filterMap_append]
    unfold listStep
    by_cases deletes : write.deletesList target
    · simp only [deletes, if_true]
      have absent : ∀ write : CommittedWrite β V N, (write.elementAt target).filter (fun element =>
          ([] : List (ListElement V)).head?.any fun first => first.seq ≤ element.seq) = none := by
        intro write
        simp
      simp only [absent]
      simp
    · simp only [deletes, Bool.false_eq_true, if_false]
      cases pushes : write.elementAt target with
      | none => simpa [pushes] using ih before
      | some element =>
        have elementSeq := CommittedWrite.elementAt_seq pushes
        cases survivors : listView target writes with
        | nil =>
          have replaced : writes.filterMap (fun write => (write.elementAt target).filter
              fun other => [element].head?.any fun first => first.seq ≤ other.seq) = [] := by
            apply filterMap_eq_nil_iff.mpr
            intro older mem
            apply Option.filter_eq_none_iff.mpr
            intro other found
            have less := earlier older mem
            have olderSeq := CommittedWrite.elementAt_seq found
            simp only [head?_cons, Option.any_some, decide_eq_true_eq]
            omega
          simp only [Option.toList_some, nil_append, replaced]
          simp [Option.filter, pushes]
        | cons first rest =>
          have kept := ih before
          rw [survivors] at kept
          have firstEarlier : first.seq < write.seq := by
            have mem : first ∈ writes.filterMap (fun write => (write.elementAt target).filter
                fun element => (first :: rest).head?.any fun first => first.seq ≤ element.seq) := by
              rw [kept]
              exact mem_cons_self
            obtain ⟨older, olderMember, found⟩ := mem_filterMap.mp mem
            have olderSeq := CommittedWrite.elementAt_seq (Option.filter_eq_some_iff.mp found).1
            have less := earlier older olderMember
            omega
          simp only [cons_append, head?_cons] at kept ⊢
          rw [kept]
          have reached : first.seq ≤ element.seq := by omega
          simp [Option.filter, pushes, reached]

/-- A write that stores or inserts: neither a delete nor a usage row. -/
def CommittedWrite.Stores (write : CommittedWrite β V N) : Prop :=
  (∀ seq ns key, write ≠ .valueDelete seq ns key) ∧ (∀ seq ns key, write ≠ .listDelete seq ns key) ∧
    ∀ row, write ≠ .usage row

theorem scalarView_of_stores (target : String) (stores : ∀ write ∈ writes, write.Stores) :
    scalarView target writes = (writes.filterMap (·.scalarAt target)).getLast? := by
  induction writes using reverseRecOn with
  | nil => rfl
  | append_singleton writes write ih =>
    have kept : write.deletesScalar target = false := by
      cases write with
      | valueDelete seq ns key => exact absurd rfl ((stores _ (by simp)).1 seq ns key)
      | _ => rfl
    rw [scalarView_concat, scalarStep, kept, ih fun other mem => stores other (by simp [mem])]
    cases stored : write.scalarAt target <;> simp [stored]

theorem listView_of_stores (target : String) (stores : ∀ write ∈ writes, write.Stores) :
    listView target writes = writes.filterMap (·.elementAt target) := by
  induction writes using reverseRecOn with
  | nil => rfl
  | append_singleton writes write ih =>
    have kept : write.deletesList target = false := by
      cases write with
      | listDelete seq ns key => exact absurd rfl ((stores _ (by simp)).2.1 seq ns key)
      | _ => rfl
    rw [listView_concat, listStep, kept, ih fun other mem => stores other (by simp [mem])]
    cases pushed : write.elementAt target <;> simp [pushed]

namespace InMemoryStorageState

variable [Add N] [Zero N]

/-- The state that admitting and applying these writes one after another builds. -/
inductive Built : List (CommittedWrite β V N) → InMemoryStorageState β V N → Prop where
  | initial : Built [] .initial
  | write {writes : List (CommittedWrite β V N)} {s next : InMemoryStorageState β V N}
      {write : CommittedWrite β V N} (before : Built writes s) (admitted : s.Admits write)
      (applied : s.applyWrite write = .ok next) : Built (writes ++ [write]) next

variable {writes : List (CommittedWrite β V N)} {s next : InMemoryStorageState β V N}

theorem Built.invariant (built : Built writes s) : StoreInvariant s := by
  induction built with
  | initial => exact initial_invariant
  | write before admitted applied ih => exact applyWrite_invariant ih admitted applied

theorem Built.batch (built : Built writes s) {batch : List (CommittedWrite β V N)}
    (valid : s.validateCommitted batch = .ok ()) {stats : SessionStats N}
    (applied : s.applyValidated batch = (next, .ok stats)) : Built (writes ++ batch) next := by
  induction batch generalizing writes s with
  | nil =>
    have same : s = next := congrArg Prod.fst applied
    rwa [append_nil, ← same]
  | cons write rest ih =>
    cases first : s.applyWrite write with
    | error reason => simp [applyValidated, first] at applied
    | ok reached =>
      rw [applyValidated, first] at applied
      obtain ⟨admitted, valid⟩ := (validateCommitted_cons_iff first rest).mp valid
      have further := ih (built.write admitted first) valid applied
      rwa [append_assoc] at further

/-- What a built state stores, read off its writes. -/
structure Shows (writes : List (CommittedWrite β V N)) (s : InMemoryStorageState β V N) : Prop where
  entries : s.entriesBySeq = writes.filterMap CommittedWrite.insertedEntry
  scalars : ∀ target, (s.scalarValues.get? target).map (fun stored =>
    (⟨stored.seq, stored.value⟩ : ListElement V)) = scalarView target writes
  lists : ∀ target, elementsAt s.listValues target = listView target writes
  increasing : Increasing writes
  below : ∀ write ∈ writes, write.seq < s.nextSeq
  nextSeq : s.nextSeq = ((writes.getLast?).map CommittedWrite.seq).getD 0 + 1
  addressed : ∀ write ∈ writes, write.checkAddress = .ok ()

theorem elementsAt_erase (lists : InsertionMap String (StoredListSnapshot V)) (key target : String) :
    elementsAt (lists.erase key) target = if key = target then [] else elementsAt lists target := by
  simp only [elementsAt, InsertionMap.get?_erase]
  split <;> rfl

theorem Shows.write (shows : Shows writes s) (inv : StoreInvariant s)
    {write : CommittedWrite β V N} (admitted : s.Admits write)
    (applied : s.applyWrite write = .ok next) : Shows (writes ++ [write]) next := by
  have sequences : Increasing (writes ++ [write]) ∧
      ∀ other ∈ writes ++ [write], other.seq < write.seq + 1 := by
    have later := admitted.later
    refine ⟨pairwise_append.mpr ⟨shows.increasing, pairwise_singleton _ _, ?_⟩, ?_⟩
    · intro earlier mem last single
      have below := shows.below earlier mem
      rw [mem_singleton.mp single]
      omega
    · intro other mem
      rcases mem_append.mp mem with earlier | last
      · have below := shows.below other earlier
        omega
      · rw [mem_singleton.mp last]
        omega
  have addressed : ∀ other ∈ writes ++ [write], other.checkAddress = .ok () := by
    intro other mem
    rcases mem_append.mp mem with earlier | last
    · exact shows.addressed other earlier
    · rw [mem_singleton.mp last]
      cases checked : write.checkAddress with
      | error reason =>
        rw [(applyWrite_error_iff inv.lists.keyed write reason).mpr checked] at applied
        cases applied
      | ok accepted => rfl
  obtain ⟨reached, body, rfl⟩ := applyWrite_ok applied
  refine ⟨?_, fun target => ?_, fun target => ?_, sequences.1, sequences.2, by simp, addressed⟩
  · rw [filterMap_append, ← shows.entries]
    cases write with
    | entry inserted =>
      rw [← ok.inj body]
      rfl
    | usage row =>
      rw [← ok.inj body]
      exact (append_nil _).symm
    | valueSet seq ns key stored =>
      obtain ⟨address, -, -, rfl⟩ := applyValueSet_ok body
      exact (append_nil _).symm
    | listAppend seq ns key stored =>
      rw [applyListAppend_frame body]
      exact (append_nil _).symm
    | valueDelete seq ns key =>
      rw [← ok.inj body]
      exact (append_nil _).symm
    | listDelete seq ns key =>
      rw [← ok.inj body]
      exact (append_nil _).symm
  · rw [scalarView_concat, ← shows.scalars target, scalarStep]
    cases write with
    | valueSet seq ns key stored =>
      obtain ⟨address, rfl, rfl, rfl⟩ := applyValueSet_ok body
      simp only [InsertionMap.get?_set, CommittedWrite.deletesScalar, CommittedWrite.scalarAt]
      by_cases same : address.physicalKey = target
      · simp [same, show physicalKey address.ns address.key = target from same]
      · simp [same, show physicalKey address.ns address.key ≠ target from same]
    | valueDelete seq ns key =>
      rw [← ok.inj body]
      simp only [InsertionMap.get?_erase, CommittedWrite.deletesScalar, decide_eq_true_eq]
      by_cases same : physicalKey ns key = target <;> simp [same, CommittedWrite.scalarAt]
    | listAppend seq ns key stored =>
      rw [applyListAppend_frame body]
      simp [CommittedWrite.deletesScalar, CommittedWrite.scalarAt]
    | entry inserted =>
      rw [← ok.inj body]
      simp [CommittedWrite.deletesScalar, CommittedWrite.scalarAt]
    | usage row =>
      rw [← ok.inj body]
      simp [CommittedWrite.deletesScalar, CommittedWrite.scalarAt]
    | listDelete seq ns key =>
      rw [← ok.inj body]
      simp [CommittedWrite.deletesScalar, CommittedWrite.scalarAt]
  · rw [listView_concat, ← shows.lists target, listStep]
    cases write with
    | listAppend seq ns key stored =>
      obtain ⟨address, rfl, rfl, rfl⟩ := applyListAppend_ok inv.lists.keyed body
      simp only [elementsAt, InsertionMap.get?_set, CommittedWrite.deletesList,
        CommittedWrite.elementAt]
      by_cases same : address.physicalKey = target
      · simp [same, show physicalKey address.ns address.key = target from same]
      · simp [same, show physicalKey address.ns address.key ≠ target from same]
    | listDelete seq ns key =>
      rw [← ok.inj body]
      simp only [elementsAt_erase, CommittedWrite.deletesList, decide_eq_true_eq]
      by_cases same : physicalKey ns key = target <;> simp [same, CommittedWrite.elementAt]
    | valueSet seq ns key stored =>
      obtain ⟨address, -, -, rfl⟩ := applyValueSet_ok body
      simp [CommittedWrite.deletesList, CommittedWrite.elementAt]
    | entry inserted =>
      rw [← ok.inj body]
      simp [CommittedWrite.deletesList, CommittedWrite.elementAt]
    | usage row =>
      rw [← ok.inj body]
      simp [CommittedWrite.deletesList, CommittedWrite.elementAt]
    | valueDelete seq ns key =>
      rw [← ok.inj body]
      simp [CommittedWrite.deletesList, CommittedWrite.elementAt]

theorem Built.shows (built : Built writes s) : Shows writes s := by
  induction built with
  | initial => exact ⟨rfl, fun _ => rfl, fun _ => rfl, List.Pairwise.nil, by simp, rfl, by simp⟩
  | write before admitted applied ih => exact ih.write before.invariant admitted applied

end InMemoryStorageState

end Trpi.Session
