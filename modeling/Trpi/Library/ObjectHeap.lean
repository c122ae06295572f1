import Mathlib.Data.List.Flatten
import Mathlib.Data.List.Perm.Subperm

/-!
# Objects and arrays in a heap

Containers live at addresses and hold leaves and references. A value denotes a tree however
its containers are shared. A value is owned, beside a base heap that nobody writes, when the
containers that are not in the base are each held once: writing one of them then changes
what the value denotes there and nowhere else.
-/

namespace Trpi.Library

open List Option Prod

/-- Names an array index as a property. -/
class PropertyName (K : Type) where
  ofIndex : Nat → K

inductive Slot (K : Type) where
  | name (key : K)
  | index (position : Nat)

def Slot.property {K : Type} [PropertyName K] : Slot K → K
  | .name key => key
  | .index position => PropertyName.ofIndex position

inductive Container (K α : Type) where
  | arr (items : List α)
  | obj (members : List (K × α))

section

variable {K α β γ : Type}

namespace Container

def values : Container K α → List α
  | .arr items => items
  | .obj members => members.map Prod.snd

def map (f : α → β) : Container K α → Container K β
  | .arr items => .arr (items.map f)
  | .obj members => .obj (members.map fun member => (member.1, f member.2))

def isArray : Container K α → Bool
  | .arr _ => true
  | .obj _ => false

@[simp] theorem isArray_map (f : α → β) (c : Container K α) : (c.map f).isArray = c.isArray := by
  cases c <;> rfl

@[simp] theorem values_map (f : α → β) (c : Container K α) : (c.map f).values = c.values.map f := by
  cases c with
  | arr items => rfl
  | obj members => simp [map, values]

@[simp] theorem map_map (f : α → β) (g : β → γ) (c : Container K α) :
    (c.map f).map g = c.map fun v => g (f v) := by
  cases c with
  | arr items => simp [map]
  | obj members => simp [map]

end Container

end

section

variable {K α β : Type} [DecidableEq K]

def getMember (name : K) : List (K × α) → Option α
  | [] => none
  | (other, v) :: rest => if other = name then some v else getMember name rest

/-- An own property keeps its place; a new one comes last. -/
def setMember (name : K) (v : α) : List (K × α) → List (K × α)
  | [] => [(name, v)]
  | (other, old) :: rest =>
    if other = name then (other, v) :: rest else (other, old) :: setMember name v rest

def eraseMember (name : K) : List (K × α) → List (K × α)
  | [] => []
  | (other, v) :: rest =>
    if other = name then rest else (other, v) :: eraseMember name rest

theorem getMember_map (f : α → β) (name : K) (members : List (K × α)) :
    getMember name (members.map fun mem => (mem.1, f mem.2)) = (getMember name members).map f := by
  induction members with
  | nil => rfl
  | cons mem rest ih =>
    rw [map_cons, getMember, ih, getMember]
    split <;> rfl

theorem setMember_map (f : α → β) (name : K) (v : α) (members : List (K × α)) :
    setMember name (f v) (members.map fun mem => (mem.1, f mem.2)) =
      (setMember name v members).map fun mem => (mem.1, f mem.2) := by
  induction members with
  | nil => rfl
  | cons mem rest ih =>
    rw [map_cons, setMember, ih, setMember]
    split <;> rfl

theorem eraseMember_map (f : α → β) (name : K) (members : List (K × α)) :
    eraseMember name (members.map fun mem => (mem.1, f mem.2)) =
      (eraseMember name members).map fun mem => (mem.1, f mem.2) := by
  induction members with
  | nil => rfl
  | cons mem rest ih =>
    rw [map_cons, eraseMember, ih, eraseMember]
    split <;> rfl

variable {name : K} {members : List (K × α)}

theorem setMember_getMember {v : α} (found : getMember name members = some v) :
    setMember name v members = members := by
  induction members with
  | nil => cases found
  | cons mem rest ih =>
    rw [getMember] at found
    rw [setMember]
    split at found
    · rename_i same
      cases found
      rw [if_pos same]
    · rename_i apart
      rw [if_neg apart, ih found]

theorem mem_of_getMember {v : α} (found : getMember name members = some v) :
    v ∈ members.map snd := by
  induction members with
  | nil => cases found
  | cons mem rest ih =>
    rw [getMember] at found
    split at found
    · cases found
      exact mem_cons_self
    · exact mem_cons_of_mem _ (ih found)

theorem getMember_setMember (name : K) (v : α) (members : List (K × α)) :
    getMember name (setMember name v members) = some v := by
  induction members with
  | nil => exact if_pos rfl
  | cons mem rest ih =>
    rw [setMember]
    split
    · rename_i same
      rw [getMember, if_pos same]
    · rename_i apart
      rw [getMember, if_neg apart, ih]

theorem setMember_subperm (name : K) (v : α) (members : List (K × α)) :
    (setMember name v members).map snd <+~ v :: members.map snd := by
  induction members with
  | nil => exact .refl _
  | cons mem rest ih =>
    rw [setMember]
    split
    · exact (subperm_cons v).mpr (List.Subperm.cons_self)
    · exact ((subperm_cons mem.2).mpr ih).trans (List.Perm.swap _ _ _).subperm

theorem setMember_perm {old : α} (found : getMember name members = some old) (v : α) :
    ∃ others, members.map snd ~ old :: others ∧
      (setMember name v members).map snd ~ v :: others := by
  induction members with
  | nil => cases found
  | cons mem rest ih =>
    rw [getMember] at found
    rw [setMember]
    split at found
    · rename_i same
      cases found
      rw [if_pos same]
      exact ⟨rest.map snd, .refl _, .refl _⟩
    · rename_i apart
      rw [if_neg apart]
      obtain ⟨others, before, after⟩ := ih found
      exact ⟨mem.2 :: others, (before.cons _).trans (.swap _ _ _),
        (after.cons _).trans (.swap _ _ _)⟩

theorem eraseMember_sublist (name : K) (members : List (K × α)) :
    List.Sublist (eraseMember name members) members := by
  induction members with
  | nil => exact .slnil
  | cons mem rest ih =>
    rw [eraseMember]
    split
    · exact sublist_cons_self _ _
    · exact ih.cons_cons _

variable [PropertyName K]

namespace Container

/-- An own property: an array has its indices. -/
def get? (c : Container K α) (slot : Slot K) : Option α :=
  match c, slot with
  | .arr items, .index position => items[position]?
  | .arr _, .name _ => none
  | .obj members, slot => getMember slot.property members

/-- Defining a property; the index after the last one makes an array longer. -/
def put (c : Container K α) (slot : Slot K) (v : α) : Container K α :=
  match c, slot with
  | .arr items, .index position =>
    .arr (if position < items.length then items.set position v else items ++ [v])
  | .arr items, .name _ => .arr items
  | .obj members, slot => .obj (setMember slot.property v members)

def erase (c : Container K α) (slot : Slot K) : Container K α :=
  match c, slot with
  | .arr items, .index position => .arr (items.eraseIdx position)
  | .arr items, .name _ => .arr items
  | .obj members, slot => .obj (eraseMember slot.property members)

section

variable (f : α → β) (c : Container K α) (slot : Slot K)

theorem get?_map : (c.map f).get? slot = (c.get? slot).map f := by
  cases c with
  | arr items =>
    cases slot with
    | name name => rfl
    | index position => exact getElem?_map
  | obj members => exact getMember_map f slot.property members

theorem put_map (v : α) : (c.map f).put slot (f v) = (c.put slot v).map f := by
  cases c with
  | arr items =>
    cases slot with
    | name name => rfl
    | index position =>
      simp only [map, put, length_map]
      split
      · rw [map_set]
      · rw [map_append]
        rfl
  | obj members => exact congrArg Container.obj (setMember_map f slot.property v members)

theorem erase_map : (c.map f).erase slot = (c.erase slot).map f := by
  cases c with
  | arr items =>
    cases slot with
    | name name => rfl
    | index position => exact congrArg Container.arr (eraseIdx_map ..)
  | obj members => exact congrArg Container.obj (eraseMember_map f slot.property members)

end

variable {c : Container K α} {slot : Slot K}

theorem put_get? {v : α} (found : c.get? slot = some v) : c.put slot v = c := by
  cases c with
  | arr items =>
    cases slot with
    | name name => cases found
    | index position =>
      obtain ⟨bound, same⟩ := List.getElem?_eq_some_iff.mp found
      rw [put, if_pos bound, ← same, set_getElem_self]
  | obj members => exact congrArg Container.obj (setMember_getMember found)

theorem get?_put_self {old : α} (found : c.get? slot = some old) (v : α) :
    (c.put slot v).get? slot = some v := by
  cases c with
  | arr items =>
    cases slot with
    | name name => cases found
    | index position =>
      have bound := (List.getElem?_eq_some_iff.mp found).1
      rw [put, if_pos bound]
      exact getElem?_set_self bound
  | obj members => exact getMember_setMember slot.property v members

theorem mem_of_get? {v : α} (found : c.get? slot = some v) : v ∈ c.values := by
  cases c with
  | arr items =>
    cases slot with
    | name name => cases found
    | index position => exact mem_of_getElem? found
  | obj members => exact mem_of_getMember found

theorem put_perm {old : α} (found : c.get? slot = some old) (v : α) :
    ∃ others, c.values ~ old :: others ∧ (c.put slot v).values ~ v :: others := by
  cases c with
  | arr items =>
    cases slot with
    | name name => cases found
    | index position =>
      obtain ⟨bound, same⟩ := List.getElem?_eq_some_iff.mp found
      refine ⟨items.take position ++ items.drop (position + 1), ?_, ?_⟩
      · have split : items = items.take position ++ old :: items.drop (position + 1) := by
          rw [← same, getElem_cons_drop, take_append_drop]
        exact (List.Perm.of_eq split).trans perm_middle
      · rw [put, if_pos bound]
        change items.set position v ~ _
        rw [set_eq_take_append_cons_drop, if_pos bound]
        exact perm_middle
  | obj members => exact setMember_perm found v

theorem put_subperm (c : Container K α) (slot : Slot K) (v : α) :
    (c.put slot v).values <+~ v :: c.values := by
  cases c with
  | arr items =>
    cases slot with
    | name name => exact List.Subperm.cons_self
    | index position =>
      rw [put]
      split
      · rename_i bound
        change items.set position v <+~ v :: items
        rw [set_eq_take_append_cons_drop, if_pos bound]
        have moved : (items.take position ++ v :: items.drop (position + 1)).Perm
            (v :: (items.take position ++ items.drop (position + 1))) := perm_middle
        apply moved.subperm.trans
        rw [subperm_cons]
        have kept : List.Sublist (items.take position ++ items.drop (position + 1)) items := by
          rw [← eraseIdx_eq_take_drop_succ]
          exact eraseIdx_sublist items position
        exact kept.subperm
      · exact (perm_append_singleton v items).subperm
  | obj members => exact setMember_subperm slot.property v members

theorem erase_subperm (c : Container K α) (slot : Slot K) : (c.erase slot).values <+~ c.values := by
  cases c with
  | arr items =>
    cases slot with
    | name name => exact .refl _
    | index position => exact (eraseIdx_sublist items position).subperm
  | obj members => exact ((eraseMember_sublist slot.property members).map snd).subperm

end Container

end

inductive Value (π : Type) where
  | leaf (leaf : π)
  | ref (address : Nat)

/-- Addresses are positions, and a new container comes last. -/
abbrev Heap (K π : Type) := List (Container K (Value π))

inductive Tree (K π : Type) where
  | leaf (leaf : π)
  | node (c : Container K (Tree K π))

section

variable {K π : Type}

/-- The value stands for the tree. Containers may be shared. -/
inductive Denotes (heap : Heap K π) : Value π → Tree K π → Prop where
  | leaf (leaf : π) : Denotes heap (.leaf leaf) (.leaf leaf)
  | node {address : Nat} (c : Container K (Value π × Tree K π))
      (here : heap[address]? = some (c.map Prod.fst))
      (children : ∀ child ∈ c.values, Denotes heap child.1 child.2) :
      Denotes heap (.ref address) (.node (c.map Prod.snd))

variable {heap later : Heap K π} {v : Value π} {tree : Tree K π} {footprint : List Nat}

theorem Denotes.mono (kept : heap <+: later)
    (denotes : Denotes heap v tree) : Denotes later v tree := by
  induction denotes with
  | leaf leaf => exact .leaf leaf
  | node c here _ ih =>
    obtain ⟨rest, rfl⟩ := kept
    refine .node c ?_ ih
    rw [List.getElem?_append_left (List.getElem?_eq_some_iff.mp here).1]
    exact here

/-- A value with what it denotes and the addresses it owns. -/
structure Held (K π : Type) where
  value : Value π
  tree : Tree K π
  footprint : List Nat

def footprints (c : Container K (Held K π)) : List Nat :=
  c.values.flatMap Held.footprint

/-- Each container outside the base is held in one place. -/
inductive Owned (base heap : Heap K π) : Value π → Tree K π → List Nat → Prop where
  | borrowed {v : Value π} {tree : Tree K π} (denotes : Denotes base v tree) :
      Owned base heap v tree []
  | node {address : Nat} (c : Container K (Held K π)) (fresh : base.length ≤ address)
      (here : heap[address]? = some (c.map Held.value))
      (children : ∀ child ∈ c.values,
        Owned base heap child.value child.tree child.footprint) :
      Owned base heap (.ref address) (.node (c.map Held.tree)) (address :: footprints c)

/-- What is written elsewhere changes nothing. -/
theorem Owned.frame {base : Heap K π} (owned : Owned base heap v tree footprint)
    (same : ∀ address ∈ footprint, later[address]? = heap[address]?) :
    Owned base later v tree footprint := by
  induction owned with
  | borrowed denotes => exact .borrowed denotes
  | node c fresh here _ ih =>
    refine .node c fresh ?_ ?_
    · rw [same _ mem_cons_self]
      exact here
    · intro child inside
      apply ih child inside
      intro address held
      apply same
      exact mem_cons_of_mem _ (mem_flatMap.mpr ⟨child, inside, held⟩)

theorem Owned.denotes {base : Heap K π} (kept : base <+: heap)
    (owned : Owned base heap v tree footprint) : Denotes heap v tree := by
  induction owned with
  | borrowed denotes => exact denotes.mono kept
  | node c _ here _ ih =>
    have denoted := Denotes.node (c.map fun child => (child.value, child.tree))
      (by rw [Container.map_map]; exact here) (fun child inside => by
        rw [Container.values_map, List.mem_map] at inside
        obtain ⟨held, listed, rfl⟩ := inside
        exact ih held listed)
    rw [Container.map_map] at denoted
    exact denoted

theorem footprint_sublist {c : Container K (Held K π)} {child : Held K π}
    (inside : child ∈ c.values) : child.footprint <+ footprints c := by
  have one := (singleton_sublist.mpr inside).flatMap Held.footprint
  rw [flatMap_singleton] at one
  exact one

theorem nodup_of_subperm {α : Type} {first second : List α} (fewer : first <+~ second)
    (nodup : second.Nodup) : first.Nodup := by
  obtain ⟨middle, same, kept⟩ := fewer
  exact same.nodup_iff.mp (nodup.sublist kept)

theorem flatMap_subperm {α β : Type} (f : α → List β) {first second : List α}
    (fewer : first <+~ second) : first.flatMap f <+~ second.flatMap f := by
  obtain ⟨middle, same, kept⟩ := fewer
  exact (same.flatMap_right f).symm.subperm.trans (kept.flatMap f).subperm

end

section

variable {K π : Type} [DecidableEq K] [PropertyName K]

/-- The address of the container at a path. -/
def Value.follow (heap : Heap K π) : Value π → List (Slot K) → Option Nat
  | .ref address, [] => if heap[address]?.isSome then some address else none
  | .ref address, slot :: rest =>
    (heap[address]?.bind fun c => c.get? slot).bind fun child =>
      child.follow heap rest
  | .leaf _, _ => none

namespace Tree

def follow : Tree K π → List (Slot K) → Option (Container K (Tree K π))
  | .node c, [] => some c
  | .node c, slot :: rest =>
    (c.get? slot).bind fun child => child.follow rest
  | .leaf _, _ => none

def updateAt (update : Container K (Tree K π) → Option (Container K (Tree K π))) :
    List (Slot K) → Tree K π → Option (Tree K π)
  | [], .node c => (update c).map Tree.node
  | slot :: rest, .node c =>
    (c.get? slot).bind fun child =>
      (updateAt update rest child).map fun child => .node (c.put slot child)
  | _, .leaf _ => none

variable {tree : Tree K π}

theorem updateAt_of_follow_eq_none
    (update : Container K (Tree K π) → Option (Container K (Tree K π))) {path : List (Slot K)}
    (lost : tree.follow path = none) : tree.updateAt update path = none := by
  induction path generalizing tree with
  | nil =>
    cases tree with
    | leaf leaf => rfl
    | node c => cases lost
  | cons slot rest ih =>
    cases tree with
    | leaf leaf => rfl
    | node c =>
      rw [follow] at lost
      rw [updateAt]
      cases found : c.get? slot with
      | none => rfl
      | some child =>
        rw [found] at lost
        rw [bind_some, ih lost]
        rfl

theorem updateAt_of_update_eq_none
    {update : Container K (Tree K π) → Option (Container K (Tree K π))} {path : List (Slot K)}
    {c : Container K (Tree K π)} (found : tree.follow path = some c) (refused : update c = none) :
    tree.updateAt update path = none := by
  induction path generalizing tree with
  | nil =>
    cases tree with
    | leaf leaf => cases found
    | node other =>
      cases found
      rw [updateAt, refused]
      rfl
  | cons slot rest ih =>
    cases tree with
    | leaf leaf => cases found
    | node other =>
      rw [follow, bind_eq_some_iff] at found
      obtain ⟨child, present, deeper⟩ := found
      rw [updateAt, present, bind_some, ih deeper]
      rfl

end Tree

variable {heap base : Heap K π} {path : List (Slot K)} {tree : Tree K π} {held : Held K π}
  {v : Value π}

theorem Denotes.follow (denotes : Denotes heap v tree) (path : List (Slot K)) :
    v.follow heap path = none ∧ tree.follow path = none ∨
      ∃ address, ∃ c : Container K (Value π × Tree K π),
        v.follow heap path = some address ∧
        heap[address]? = some (c.map fst) ∧
        tree.follow path = some (c.map snd) ∧ ∀ child ∈ c.values, Denotes heap child.1 child.2 := by
  induction path generalizing v tree with
  | nil =>
    cases denotes with
    | leaf leaf => exact .inl ⟨rfl, rfl⟩
    | node c here children =>
      refine .inr ⟨_, c, ?_, here, rfl, children⟩
      rw [Value.follow, here]
      rfl
  | cons slot rest ih =>
    cases denotes with
    | leaf leaf => exact .inl ⟨rfl, rfl⟩
    | node c here children =>
      rw [Value.follow, here, bind_some, Tree.follow, Container.get?_map, Container.get?_map]
      cases found : c.get? slot with
      | none => exact .inl ⟨rfl, rfl⟩
      | some child => exact ih (children child (Container.mem_of_get? found))

/-- Every container on the path is owned. -/
inductive Spine (base heap : Heap K π) : List (Slot K) → Held K π → Prop where
  | here {address : Nat} (c : Container K (Held K π)) (fresh : base.length ≤ address)
      (there : heap[address]? = some (c.map Held.value))
      (children : ∀ child ∈ c.values,
        Owned base heap child.value child.tree child.footprint) :
      Spine base heap [] ⟨.ref address, .node (c.map Held.tree), address :: footprints c⟩
  | deeper {address : Nat} {slot : Slot K} {rest : List (Slot K)} {child : Held K π}
      (c : Container K (Held K π)) (fresh : base.length ≤ address)
      (there : heap[address]? = some (c.map Held.value))
      (children : ∀ child ∈ c.values, Owned base heap child.value child.tree child.footprint)
      (found : c.get? slot = some child) (spine : Spine base heap rest child) :
      Spine base heap (slot :: rest) ⟨.ref address, .node (c.map Held.tree),
        address :: footprints c⟩

theorem Spine.owned (spine : Spine base heap path held) :
    Owned base heap held.value held.tree held.footprint := by
  cases spine with
  | here c fresh there children => exact .node c fresh there children
  | deeper c fresh there children => exact .node c fresh there children

theorem Owned.spine {footprint : List Nat} (owned : Owned [] heap v tree footprint)
    {target : Container K (Tree K π)}
    (found : tree.follow path = some target) : Spine [] heap path ⟨v, tree, footprint⟩ := by
  induction path generalizing v tree footprint with
  | nil =>
    cases owned with
    | borrowed denotes =>
      cases denotes with
      | leaf leaf => cases found
      | node c here => simp at here
    | node c fresh here children => exact .here c fresh here children
  | cons slot rest ih =>
    cases owned with
    | borrowed denotes =>
      cases denotes with
      | leaf leaf => cases found
      | node c here => simp at here
    | node c fresh here children =>
      rw [Tree.follow, Container.get?_map, bind_eq_some_iff] at found
      obtain ⟨child, present, deeper⟩ := found
      obtain ⟨held, inside, rfl⟩ := map_eq_some_iff.mp present
      exact .deeper c fresh here children inside
        (ih (children held (Container.mem_of_get? inside)) deeper)

/-- The container at the end of an owned path, and what writing it changes. -/
structure Focus (base heap : Heap K π) (path : List (Slot K)) (held : Held K π) (address : Nat)
    (c : Container K (Held K π)) : Prop where
  followed : held.value.follow heap path = some address
  here : heap[address]? = some (c.map Held.value)
  fresh : base.length ≤ address
  found : held.tree.follow path = some (c.map Held.tree)
  children : ∀ child ∈ c.values, Owned base heap child.value child.tree child.footprint
  within : address :: footprints c <+~ held.footprint
  rewrite : ∀ (written : Container K (Held K π)) (new : List Nat)
    (update : Container K (Tree K π) → Option (Container K (Tree K π))),
    (∀ child ∈ written.values, Owned base (heap.set address (written.map Held.value))
      child.value child.tree child.footprint) →
    footprints written <+~ new ++ footprints c →
    update (c.map Held.tree) = some (written.map Held.tree) →
    ∃ tree footprint, held.tree.updateAt update path = some tree ∧
      Owned base (heap.set address (written.map Held.value)) held.value tree footprint ∧
      footprint <+~ new ++ held.footprint

theorem Spine.focus (spine : Spine base heap path held)
    (nodup : held.footprint.Nodup) : ∃ address c, Focus base heap path held address c := by
  induction spine with
  | @here address c fresh there children =>
    have bound := (List.getElem?_eq_some_iff.mp there).1
    refine ⟨address, c, ?_, there, fresh, rfl, children, .refl _, ?_⟩
    · rw [Value.follow, there]
      rfl
    · intro written new update owned fewer updated
      refine ⟨.node (written.map Held.tree), address :: footprints written, ?_, ?_, ?_⟩
      · rw [Tree.updateAt, updated]
        rfl
      · refine .node written fresh ?_ owned
        rw [getElem?_set_self bound]
      · exact ((subperm_cons address).mpr fewer).trans perm_middle.symm.subperm
  | @deeper parent slot rest child c fresh there children found spine ih =>
    have inside := Container.mem_of_get? found
    have tail : (footprints c).Nodup := (nodup_cons.mp nodup).2
    have outside : parent ∉ footprints c := (nodup_cons.mp nodup).1
    obtain ⟨address, target, focus⟩ := ih (tail.sublist (footprint_sublist inside))
    have held : address ∈ child.footprint := focus.within.subset mem_cons_self
    have lower : address :: footprints target <+~ footprints c :=
      focus.within.trans (footprint_sublist inside).subperm
    refine ⟨address, target, ?_, focus.here, focus.fresh, ?_, focus.children,
      lower.trans (sublist_cons_self _ _).subperm, ?_⟩
    · rw [Value.follow, there, bind_some, Container.get?_map, found]
      exact focus.followed
    · rw [Tree.follow, Container.get?_map, found]
      exact focus.found
    · intro written new update owned fewer updated
      obtain ⟨tree, footprint, changed, whole, less⟩ :=
        focus.rewrite written new update owned fewer updated
      obtain ⟨others, before, after⟩ :=
        Container.put_perm found ⟨child.value, tree, footprint⟩
      refine ⟨.node ((c.put slot ⟨child.value, tree, footprint⟩).map Held.tree),
        parent :: footprints (c.put slot ⟨child.value, tree, footprint⟩), ?_, ?_, ?_⟩
      · rw [Tree.updateAt, Container.get?_map, found, map_some, bind_some, changed,
          ← Container.put_map]
        rfl
      · refine .node _ fresh ?_ ?_
        · have apart : address ≠ parent := fun same =>
            outside (same ▸ (footprint_sublist inside).subset held)
          rw [getElem?_set_ne apart, ← Container.put_map Held.value, there]
          have same : (c.map Held.value).get? slot = some child.value := by
            rw [Container.get?_map, found]
            rfl
          rw [Container.put_get? same]
        · intro other listed
          rcases mem_cons.mp (after.subset listed) with rfl | sibling
          · exact whole
          · -- the written container belongs to the child, not to its siblings
            have disjoint : (child.footprint ++ others.flatMap Held.footprint).Nodup :=
              ((before.flatMap_right Held.footprint).nodup_iff).mp tail
            apply (children other (before.symm.subset (mem_cons_of_mem _ sibling))).frame
            intro cell owns
            apply getElem?_set_ne
            intro same
            exact (nodup_append.mp disjoint).2.2 address held cell
              (mem_flatMap.mpr ⟨other, sibling, owns⟩) same
      · have cells : footprints (c.put slot ⟨child.value, tree, footprint⟩) <+~
            new ++ footprints c := by
          have moved := after.flatMap_right Held.footprint
          have original := before.flatMap_right Held.footprint
          rw [flatMap_cons] at moved original
          refine moved.subperm.trans (List.Subperm.trans ?_ (original.symm.append_left new).subperm)
          rw [← append_assoc]
          exact (subperm_append_right _).mpr less
        exact ((subperm_cons parent).mpr cells).trans perm_middle.symm.subperm

end

/-!
## Copies in a heap

Whatever a value denotes can be copied to the end of any heap, each container once.
-/

variable {K α β π : Type}

theorem Container.exists_filled (f : β → α) (c : Container K α) (values : List β)
    (same : values.map f = c.values) :
    ∃ filled : Container K β, filled.map f = c ∧ filled.values = values := by
  cases c with
  | arr items => exact ⟨.arr values, congrArg Container.arr same, rfl⟩
  | obj members =>
    suffices ∃ filled : List (K × β),
        (filled.map fun mem => (mem.1, f mem.2)) = members ∧ filled.map snd = values by
      obtain ⟨filled, named, listed⟩ := this
      exact ⟨.obj filled, congrArg Container.obj named, listed⟩
    have same : values.map f = members.map snd := same
    induction members generalizing values with
    | nil => exact ⟨[], rfl, (map_eq_nil_iff.mp same).symm⟩
    | cons mem rest ih =>
      cases values with
      | nil => cases same
      | cons v values =>
        obtain ⟨head, tail⟩ := cons.inj same
        obtain ⟨filled, named, listed⟩ := ih values tail tail
        refine ⟨(mem.1, v) :: filled, ?_, ?_⟩
        · rw [map_cons, named, head]
        · rw [map_cons, listed]

/-- Values that were put at the end of a heap, each container once. -/
structure Copies (heap later : Heap K π) (held : List (Held K π)) : Prop where
  kept : heap <+: later
  owned : ∀ copy ∈ held, Owned [] later copy.value copy.tree copy.footprint
  range : ∀ address ∈ held.flatMap Held.footprint, heap.length ≤ address ∧ address < later.length
  nodup : (held.flatMap Held.footprint).Nodup

namespace Copies

theorem nil (heap : Heap K π) : Copies heap heap [] :=
  ⟨prefix_rfl, nofun, nofun, nodup_nil⟩

theorem owned_mono {heap later longer : Heap K π} {held : List (Held K π)}
    (copies : Copies heap later held) (kept : later <+: longer) :
    ∀ copy ∈ held, Owned [] longer copy.value copy.tree copy.footprint := by
  intro copy listed
  apply (copies.owned copy listed).frame
  intro address owns
  have bound := (copies.range address (mem_flatMap.mpr ⟨copy, listed, owns⟩)).2
  obtain ⟨tail, rfl⟩ := kept
  exact getElem?_append_left bound

theorem append {heap middle later : Heap K π} {first second : List (Held K π)}
    (early : Copies heap middle first) (late : Copies middle later second) :
    Copies heap later (first ++ second) where
  kept := early.kept.trans late.kept
  owned copy listed := by
    rcases mem_append.mp listed with before | after
    · exact early.owned_mono late.kept copy before
    · exact late.owned copy after
  range address owns := by
    rw [flatMap_append, mem_append] at owns
    have longer := late.kept.length_le
    have shorter := early.kept.length_le
    rcases owns with before | after
    · have bounds := early.range address before
      omega
    · have bounds := late.range address after
      omega
  nodup := by
    rw [flatMap_append, nodup_append]
    refine ⟨early.nodup, late.nodup, ?_⟩
    intro address before other after same
    have low := (early.range address before).2
    have high := (late.range other after).1
    omega

theorem node {heap later : Heap K π} {c : Container K (Held K π)}
    (copies : Copies heap later c.values) :
    Copies heap (later ++ [c.map Held.value])
      [⟨.ref later.length, .node (c.map Held.tree), later.length :: footprints c⟩] where
  kept := copies.kept.trans (prefix_append _ _)
  owned copy listed := by
    rw [mem_singleton.mp listed]
    exact .node c (Nat.zero_le _) getElem?_concat_length (copies.owned_mono (prefix_append _ _))
  range address owns := by
    rw [flatMap_singleton] at owns
    rw [length_append, length_singleton]
    have shorter := copies.kept.length_le
    rcases mem_cons.mp owns with rfl | inner
    · omega
    · have bounds := copies.range address inner
      omega
  nodup := by
    rw [flatMap_singleton]
    refine nodup_cons.mpr ⟨?_, copies.nodup⟩
    intro inner
    have bound := (copies.range _ inner).2
    omega

end Copies

theorem exists_copies {trees : List (Tree K π)}
    (each : ∀ tree ∈ trees, ∀ heap : Heap K π, ∃ later held,
      Copies heap later [held] ∧ held.tree = tree) (heap : Heap K π) :
    ∃ later held, Copies heap later held ∧ held.map Held.tree = trees := by
  induction trees generalizing heap with
  | nil => exact ⟨heap, [], .nil heap, rfl⟩
  | cons tree trees ih =>
    rw [forall_mem_cons] at each
    obtain ⟨middle, first, copied, same⟩ := each.1 heap
    obtain ⟨later, rest, copies, trees_⟩ := ih each.2 middle
    refine ⟨later, first :: rest, copied.append copies, ?_⟩
    rw [map_cons, same, trees_]

theorem Denotes.exists_copy {source : Heap K π} {v : Value π} {tree : Tree K π}
    (denotes : Denotes source v tree) (heap : Heap K π) :
    ∃ later held, Copies heap later [held] ∧ held.tree = tree := by
  induction denotes generalizing heap with
  | leaf leaf =>
    refine ⟨heap, ⟨.leaf leaf, .leaf leaf, []⟩, ⟨prefix_rfl, ?_, nofun, nodup_nil⟩, rfl⟩
    intro copy listed
    rw [mem_singleton.mp listed]
    exact .borrowed (.leaf leaf)
  | node c here children ih =>
    have each : ∀ tree ∈ (c.map snd).values, ∀ heap : Heap K π,
        ∃ later held, Copies heap later [held] ∧ held.tree = tree := by
      intro tree listed heap
      rw [Container.values_map, List.mem_map] at listed
      obtain ⟨child, inside, rfl⟩ := listed
      exact ih child inside heap
    obtain ⟨later, held, copies, trees⟩ := exists_copies each heap
    obtain ⟨filled, same, listed⟩ :=
      Container.exists_filled Held.tree (c.map snd) held trees
    rw [← listed] at copies
    exact ⟨_, _, copies.node, congrArg Tree.node same⟩

end Trpi.Library
