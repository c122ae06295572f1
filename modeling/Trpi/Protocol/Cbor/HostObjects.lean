import Trpi.Library.PropertyOrder
import Trpi.Protocol.Cbor.RoundTrip

/-!
# What the decoder builds

The decoder fills fresh arrays and plain objects. An object lists its entries in the order of own
properties, whatever order they were decoded in.
-/

namespace Trpi.Protocol.Cbor

open Library List

theorem Item.induction {motive : Item → Prop} (null : motive .null)
    (boolean : ∀ flag, motive (.boolean flag)) (number : ∀ number, motive (.number number))
    (string : ∀ text, motive (.string text)) (bytes : ∀ contents, motive (.bytes contents))
    (array : ∀ items, (∀ item ∈ items, motive item) → motive (.array items))
    (object : ∀ entries, (∀ e ∈ entries, motive e.2) → motive (.object entries))
    (item : Item) : motive item := by
  refine @Item.rec motive (fun items => ∀ item ∈ items, motive item)
    (fun entries => ∀ e ∈ entries, motive e.2) (fun e => motive e.2)
    null boolean number string bytes array object ?_ ?_ ?_ ?_ ?_ item
  · intro item absurd
    cases absurd
  · intro head tail first rest item mem
    rcases mem_cons.mp mem with rfl | mem
    · exact first
    · exact rest item mem
  · intro e absurd
    cases absurd
  · intro head tail first rest e mem
    rcases mem_cons.mp mem with rfl | mem
    · exact first
    · exact rest e mem
  · intro key item holds
    exact holds

mutual

/-- The value as its reader sees it: the entries of objects in the order of own properties. -/
def Item.host : Item → Item
  | .array items => .array (hostItems items)
  | .object entries => .object (ownPropertyOrder (hostEntries entries))
  | .null => .null
  | .boolean flag => .boolean flag
  | .number number => .number number
  | .string text => .string text
  | .bytes contents => .bytes contents

def hostItems : List Item → List Item
  | [] => []
  | item :: items => item.host :: hostItems items

def hostEntries : List (JsString × Item) → List (JsString × Item)
  | [] => []
  | (key, item) :: entries => (key, item.host) :: hostEntries entries

end

theorem hostItems_eq (items : List Item) : hostItems items = items.map Item.host := by
  induction items with
  | nil => rfl
  | cons item items ih => rw [hostItems, ih, map_cons]

theorem hostEntries_eq (entries : List (JsString × Item)) :
    hostEntries entries = entries.map fun e => (e.1, e.2.host) := by
  induction entries with
  | nil => rfl
  | cons e entries ih => rw [hostEntries, ih, map_cons]

@[simp] theorem host_array (items : List Item) :
    (Item.array items).host = .array (items.map Item.host) := by
  rw [Item.host, hostItems_eq]

@[simp] theorem host_object (entries : List (JsString × Item)) :
    (Item.object entries).host =
      .object ((ownPropertyOrder entries).map fun e => (e.1, e.2.host)) := by
  rw [Item.host, hostEntries_eq, ownPropertyOrder_map]

theorem host_host (item : Item) : item.host.host = item.host := by
  induction item using Item.induction with
  | null => rfl
  | boolean flag => rfl
  | number number => rfl
  | string text => rfl
  | bytes contents => rfl
  | array items ih =>
    rw [host_array, host_array, map_map]
    congr 1
    exact map_congr_left ih
  | object entries ih =>
    rw [host_object, host_object, ownPropertyOrder_map, map_map, ownPropertyOrder_idem]
    congr 1
    refine map_congr_left ?_
    intro e mem
    exact congrArg (Prod.mk e.1) (ih e ((ownPropertyOrder_perm entries).subset mem))

mutual

/-- A value is exactly what the decoder builds: no entry is undefined, no symbol a key. -/
inductive Holds (heap : Heap) : Value → Item → Prop where
  | null : Holds heap .null .null
  | boolean (flag : Bool) : Holds heap (.boolean flag) (.boolean flag)
  | number (number : Binary64) : Holds heap (.number number) (.number number)
  | string (text : JsString) : Holds heap (.string text) (.string text)
  | bytes {ref : Ref} {contents : Bytes} (stored : heap ref = .bytes contents) :
      Holds heap (.object ref) (.bytes contents)
  | array {ref : Ref} {elements : List (Option Value)} {items : List Item}
      (stored : heap ref = .array elements) (same : HoldsElements heap elements items) :
      Holds heap (.object ref) (.array items)
  | object {ref : Ref} {members : Members} {entries : List (JsString × Item)}
      (stored : heap ref = .plain false members)
      (same : HoldsEntries heap members.entries entries) :
      Holds heap (.object ref) (.object entries)

inductive HoldsElements (heap : Heap) : List (Option Value) → List Item → Prop where
  | nil : HoldsElements heap [] []
  | cons {value : Value} {item : Item} {elements : List (Option Value)} {items : List Item}
      (head : Holds heap value item) (tail : HoldsElements heap elements items) :
      HoldsElements heap (some value :: elements) (item :: items)

inductive HoldsEntries (heap : Heap) : List (JsString × Value) → List (JsString × Item) → Prop where
  | nil : HoldsEntries heap [] []
  | cons (key : JsString) {value : Value} {item : Item} {members : List (JsString × Value)}
      {entries : List (JsString × Item)} (head : Holds heap value item)
      (tail : HoldsEntries heap members entries) :
      HoldsEntries heap ((key, value) :: members) ((key, item) :: entries)

end

variable {heap : Heap}

/-- The value of an item that it holds is no other item. -/
def OneItem (heap : Heap) (item : Item) : Prop :=
  ∀ value other, Holds heap value item → SameValue heap value other → other = item

variable {items : List Item} {entries : List (JsString × Item)} {opts : ResolvedCborOptions}
  {levels : Nat} {next : Ref} {members : List (JsString × Value)} {elements : List (Option Value)}
  {item : Item}

theorem HoldsElements.unique {others : List Item} (each : ∀ item ∈ items, OneItem heap item)
    (holds : HoldsElements heap elements items)
    (same : SameElements heap elements others) : others = items := by
  induction items generalizing elements others with
  | nil =>
    cases holds
    cases same
    rfl
  | cons item items ih =>
    cases holds with
    | cons head tail =>
      cases same with
      | cons other rest =>
        rw [each item mem_cons_self _ _ head other,
          ih (fun item mem => each item (mem_cons_of_mem _ mem)) tail rest]

theorem HoldsEntries.unique {others : List (JsString × Item)}
    (each : ∀ e ∈ entries, OneItem heap e.2) (holds : HoldsEntries heap members entries)
    (same : SameEntries heap members others) : others = entries := by
  induction entries generalizing members others with
  | nil =>
    cases holds
    cases same
    rfl
  | cons e entries ih =>
    cases holds with
    | cons key head tail =>
      cases same with
      | undefined _ _ => cases head
      | cons _ other rest =>
        rw [each _ mem_cons_self _ _ head other,
          ih (fun e mem => each e (mem_cons_of_mem _ mem)) tail rest]

theorem oneItem (item : Item) : OneItem heap item := by
  induction item using Item.induction with
  | null =>
    intro v other holds same
    cases holds
    cases same
    rfl
  | boolean flag =>
    intro v other holds same
    cases holds
    cases same
    rfl
  | number number =>
    intro v other holds same
    cases holds
    cases same
    rfl
  | string text =>
    intro v other holds same
    cases holds
    cases same
    rfl
  | bytes contents =>
    intro v other holds same
    cases holds with
    | bytes stored =>
      cases same with
      | bytes found =>
        cases stored.symm.trans found
        rfl
      | array found _ => cases stored.symm.trans found
      | object found _ => cases stored.symm.trans found
  | array items ih =>
    intro v other holds same
    cases holds with
    | array stored elements =>
      cases same with
      | bytes found => cases stored.symm.trans found
      | array found others =>
        cases stored.symm.trans found
        rw [elements.unique ih others]
      | object found _ => cases stored.symm.trans found
  | object entries ih =>
    intro v other holds same
    cases holds with
    | object stored members =>
      cases same with
      | bytes found => cases stored.symm.trans found
      | array found _ => cases stored.symm.trans found
      | object found others =>
        cases stored.symm.trans found
        rw [members.unique ih others]

mutual

theorem Holds.sameValue {v : Value} {item : Item} (holds : Holds heap v item) :
    SameValue heap v item := by
  cases holds with
  | null => exact .null
  | boolean flag => exact .boolean flag
  | number number => exact .number number
  | string text => exact .string text
  | bytes stored => exact .bytes stored
  | array stored same => exact .array stored same.sameElements
  | object stored same => exact .object stored same.sameEntries

theorem HoldsElements.sameElements {elements : List (Option Value)} {items : List Item}
    (holds : HoldsElements heap elements items) : SameElements heap elements items := by
  cases holds with
  | nil => exact .nil
  | cons head tail => exact .cons head.sameValue tail.sameElements

theorem HoldsEntries.sameEntries {members : List (JsString × Value)}
    {entries : List (JsString × Item)} (holds : HoldsEntries heap members entries) :
    SameEntries heap members entries := by
  cases holds with
  | nil => exact .nil
  | cons key head tail => exact .cons key head.sameValue tail.sameEntries

end

theorem HoldsElements.length_eq
    (holds : HoldsElements heap elements items) : elements.length = items.length := by
  induction items generalizing elements with
  | nil =>
    cases holds
    rfl
  | cons item items ih =>
    cases holds with
    | cons head tail => rw [length_cons, length_cons, ih tail]

theorem HoldsEntries.keys_eq
    (holds : HoldsEntries heap members entries) : members.map Prod.fst = entries.map Prod.fst := by
  induction entries generalizing members with
  | nil =>
    cases holds
    rfl
  | cons e entries ih =>
    cases holds with
    | cons key head tail => rw [map_cons, map_cons, ih tail]

def TextWithin (opts : ResolvedCborOptions) (text : JsString) : Prop :=
  Utf16.textDecode (Utf16.textEncode text) = some text ∧
    (Utf16.textEncode text).length ≤ opts.maxByteLength

/-- An item that both sides accept at these levels. -/
def WithinLimits (opts : ResolvedCborOptions) : Nat → Item → Prop
  | 0, _ => False
  | _ + 1, .null => True
  | _ + 1, .boolean _ => True
  | _ + 1, .number number =>
    number.isFinite = true ∧ (number.isInteger = true → number.isSafeInteger = true)
  | _ + 1, .string text => TextWithin opts text
  | _ + 1, .bytes contents => contents.length ≤ opts.maxByteLength
  | levels + 1, .array items =>
    items.length ≤ opts.maxContainerLength ∧ ∀ item ∈ items, WithinLimits opts levels item
  | levels + 1, .object entries =>
    entries.length ≤ opts.maxContainerLength ∧ (entries.map Prod.fst).Nodup ∧
      ∀ entry ∈ entries, TextWithin opts entry.1 ∧ WithinLimits opts levels entry.2

theorem WithinLimits.host (within : WithinLimits opts levels item) :
    WithinLimits opts levels item.host := by
  induction levels generalizing item with
  | zero => cases within
  | succ levels ih =>
    cases item with
    | null => exact within
    | boolean flag => exact within
    | number number => exact within
    | string text => exact within
    | bytes contents => exact within
    | array items =>
      rw [host_array]
      refine ⟨(length_map Item.host).symm ▸ within.1, ?_⟩
      intro item mem
      obtain ⟨source, inside, rfl⟩ := mem_map.mp mem
      exact ih (within.2 source inside)
    | object entries =>
      rw [host_object]
      have permuted := ownPropertyOrder_perm entries
      refine ⟨?_, ?_, ?_⟩
      · rw [length_map, permuted.length_eq]
        exact within.1
      · have keys : ((ownPropertyOrder entries).map fun e => (e.1, e.2.host)).map
            Prod.fst = (ownPropertyOrder entries).map Prod.fst := map_map
        rw [keys]
        exact ((permuted.map Prod.fst).nodup_iff).mpr within.2.1
      · intro e mem
        obtain ⟨source, inside, rfl⟩ := mem_map.mp mem
        obtain ⟨text, below⟩ := within.2.2 source (permuted.subset inside)
        exact ⟨text, ih below⟩

/-- A fresh object gets its properties by `defineProperty`. -/
def plainObject (members : List (JsString × Value)) : HeapObject :=
  if nodup : (members.map Prod.fst).Nodup then .plain false ⟨members, nodup⟩ else .other

mutual

/-- A value for an item and the objects it is made of, stored from a reference on. -/
def Item.allocate (next : Ref) : Item → Value × List HeapObject
  | .null => (.null, [])
  | .boolean flag => (.boolean flag, [])
  | .number number => (.number number, [])
  | .string text => (.string text, [])
  | .bytes contents => (.object next, [.bytes contents])
  | .array items =>
    (.object next, .array ((allocateItems (next + 1) items).1.map some) ::
      (allocateItems (next + 1) items).2)
  | .object entries =>
    (.object next, plainObject (allocateEntries (next + 1) entries).1 ::
      (allocateEntries (next + 1) entries).2)

def allocateItems (next : Ref) : List Item → List Value × List HeapObject
  | [] => ([], [])
  | item :: items =>
    let first := item.allocate next
    let rest := allocateItems (next + first.2.length) items
    (first.1 :: rest.1, first.2 ++ rest.2)

def allocateEntries (next : Ref) :
    List (JsString × Item) → List (JsString × Value) × List HeapObject
  | [] => ([], [])
  | (key, item) :: entries =>
    let first := item.allocate next
    let rest := allocateEntries (next + first.2.length) entries
    ((key, first.1) :: rest.1, first.2 ++ rest.2)

end

def StoredAt (heap : Heap) (next : Ref) (objects : List HeapObject) : Prop :=
  ∀ i object, objects[i]? = some object → heap (next + i) = object

theorem StoredAt.append {first rest : List HeapObject}
    (stored : StoredAt heap next (first ++ rest)) :
    StoredAt heap next first ∧ StoredAt heap (next + first.length) rest := by
  constructor
  · intro i object found
    have below : i < first.length := (List.getElem?_eq_some_iff.mp found).1
    exact stored i object ((getElem?_append_left below).trans found)
  · intro i object found
    rw [Nat.add_assoc]
    refine stored (first.length + i) object ?_
    rw [getElem?_append_right (Nat.le_add_right _ _), Nat.add_sub_cancel_left]
    exact found

theorem StoredAt.cons {object : HeapObject} {objects : List HeapObject}
    (stored : StoredAt heap next (object :: objects)) :
    heap next = object ∧ StoredAt heap (next + 1) objects := by
  refine ⟨stored 0 object rfl, ?_⟩
  intro i later found
  rw [Nat.add_assoc, Nat.add_comm 1 i]
  exact stored (i + 1) later found

/-- What is allocated for an item holds it. -/
def AllocationHolds (heap : Heap) (opts : ResolvedCborOptions) (levels : Nat) : Prop :=
  ∀ item next, WithinLimits opts levels item → StoredAt heap next (item.allocate next).2 →
    Holds heap (item.allocate next).1 item

theorem allocateItems_holds (each : AllocationHolds heap opts levels)
    (within : ∀ item ∈ items, WithinLimits opts levels item)
    (stored : StoredAt heap next (allocateItems next items).2) :
    HoldsElements heap ((allocateItems next items).1.map some) items := by
  induction items generalizing next with
  | nil => exact .nil
  | cons item items ih =>
    obtain ⟨first, rest⟩ := stored.append
    exact .cons (each item next (within item mem_cons_self) first)
      (ih (fun item mem => within item (mem_cons_of_mem _ mem)) rest)

theorem allocateEntries_holds (each : AllocationHolds heap opts levels)
    (within : ∀ e ∈ entries, WithinLimits opts levels e.2)
    (stored : StoredAt heap next (allocateEntries next entries).2) :
    HoldsEntries heap (allocateEntries next entries).1 entries := by
  induction entries generalizing next with
  | nil => exact .nil
  | cons e entries ih =>
    obtain ⟨first, rest⟩ := stored.append
    exact .cons e.1 (each e.2 next (within e mem_cons_self) first)
      (ih (fun e mem => within e (mem_cons_of_mem _ mem)) rest)

theorem allocate_holds (heap : Heap) (opts : ResolvedCborOptions) (levels : Nat) :
    AllocationHolds heap opts levels := by
  induction levels with
  | zero =>
    intro item next within
    cases within
  | succ levels ih =>
    intro item next within stored
    cases item with
    | null => exact .null
    | boolean flag => exact .boolean flag
    | number number => exact .number number
    | string text => exact .string text
    | bytes contents => exact .bytes stored.cons.1
    | array items =>
      obtain ⟨here, rest⟩ := stored.cons
      exact .array here (allocateItems_holds ih within.2 rest)
    | object entries =>
      obtain ⟨here, rest⟩ := stored.cons
      have holds := allocateEntries_holds ih (fun e mem => (within.2.2 e mem).2) rest
      have nodup : ((allocateEntries (next + 1) entries).1.map Prod.fst).Nodup := by
        rw [holds.keys_eq]
        exact within.2.1
      rw [plainObject, dif_pos nodup] at here
      exact .object here holds

theorem exists_holds (within : WithinLimits opts levels item) : ∃ heap v, Holds heap v item := by
  refine ⟨fun ref => (item.allocate 0).2.getD ref .other, (item.allocate 0).1,
    allocate_holds _ opts levels item 0 within ?_⟩
  intro i object found
  rw [Nat.zero_add]
  change (item.allocate 0).2.getD i .other = object
  rw [getD_eq_getElem?_getD, found]
  rfl

end Trpi.Protocol.Cbor
