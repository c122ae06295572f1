import Trpi.Chord.Delta.Apply

/-!
# Applying in place

An operation applied in place changes the tree its root stands for, where the containers on
its path are held once.
-/

namespace Trpi.Chord.Memory

open Library Held

open List

variable {N : Type}

/-- What a value stands for. -/
abbrev Doc (N : Type) := Tree Units (Prim N)

abbrev HeldVal (N : Type) := Held Units (Prim N)

def Doc.text? : Doc N → Option Units
  | .leaf (.str text) => some text
  | _ => none

def Doc.ofText (text : Units) : Doc N := .leaf (.str text)

/-- An operation on what the root stands for. -/
def applyTree (root : Option (Doc N)) (op : Op (Doc N)) : Option (Option (Doc N)) :=
  match assertValidOp op, op with
  | .error _, _ => none
  | _, .malformed => none
  | _, .r value => some (some value)
  | _, .edit path edit =>
    (root.bind (Tree.updateAt
      (fun c => (editContainer Doc.text? Doc.ofText path edit c).toOption)
      (containerPath path edit))).map some

def applyTrees (root : Option (Doc N)) : List (Op (Doc N)) → Option (Option (Doc N))
  | [] => some root
  | op :: ops => (applyTree root op).bind fun root => applyTrees root ops

section

variable {heap : Cells N} {whole rest : Path} {address : Nat}
  {c : Container Units (Val N)} {segment : Seg}

theorem cell_ref (here : heap[address]? = some c) :
    cell heap (some (.ref address)) = some (address, c) := by
  rw [cell, here]
  rfl

theorem cell_ref_none (missing : heap[address]? = none) :
    cell heap (some (.ref address)) = none := by
  rw [cell, missing]
  rfl

theorem resolveValue_found {child : Val N} (here : heap[address]? = some c)
    (found : c.get? segment = some child) :
    resolveValue heap whole (some (.ref address)) (segment :: rest) =
      resolveValue heap whole (some child) rest := by
  rw [resolveValue, cell_ref here]
  dsimp only
  rw [found]
  cases c with
  | arr items =>
    cases segment with
    | name name => cases found
    | index position => rfl
  | obj members => rfl

theorem resolveValue_lost (here : heap[address]? = some c) (lost : c.get? segment = none) :
    ∃ error, resolveValue heap whole (some (.ref address)) (segment :: rest) = .error error := by
  rw [resolveValue, cell_ref here]
  dsimp only
  rw [lost]
  cases c with
  | arr items =>
    cases segment with
    | name name => exact ⟨_, rfl⟩
    | index position => exact ⟨_, rfl⟩
  | obj members => exact ⟨_, rfl⟩

theorem resolveValue_missing (missing : heap[address]? = none) :
    resolveValue heap whole (some (.ref address)) (segment :: rest) =
      .error (.unresolvable whole) := by
  rw [resolveValue, cell_ref_none missing]

end

/-- The container a path resolves to, seen from any value on the path. -/
def resolveFrom (heap : Cells N) (whole : Path) (node : Option (Val N)) (path : Path) :
    Except ApplyError (Nat × Container Units (Val N)) := do
  let node ← resolveValue heap whole node path
  match cell heap node with
  | some found => .ok found
  | none => .error (.unresolvable whole)

theorem resolveFrom_follow (heap : Cells N) (whole : Path) (v : Val N) (path : Path) :
    (∃ address c, v.follow heap path = some address ∧
      heap[address]? = some c ∧
      resolveFrom heap whole (some v) path = .ok (address, c)) ∨
    v.follow heap path = none ∧ ∃ error, resolveFrom heap whole (some v) path = .error error := by
  induction path generalizing v with
  | nil =>
    cases v with
    | leaf leaf => exact .inr ⟨rfl, _, rfl⟩
    | ref address =>
      rw [resolveFrom, resolveValue, Value.follow]
      cases here : heap[address]? with
      | none =>
        exact .inr ⟨rfl, .unresolvable whole, by simp [cell_ref_none here, bind, Except.bind]⟩
      | some c =>
        exact .inl ⟨address, c, rfl, here, by simp [cell_ref here, bind, Except.bind]⟩
  | cons segment rest ih =>
    cases v with
    | leaf leaf => exact .inr ⟨rfl, _, rfl⟩
    | ref address =>
      rw [resolveFrom, Value.follow]
      cases here : heap[address]? with
      | none =>
        rw [resolveValue_missing here]
        exact .inr ⟨rfl, _, rfl⟩
      | some c =>
        rw [Option.bind_some]
        cases found : c.get? segment with
        | none =>
          obtain ⟨error, lost⟩ :=
            @resolveValue_lost N heap whole rest address c segment here found
          rw [lost]
          exact .inr ⟨rfl, error, rfl⟩
        | some child =>
          rw [resolveValue_found here found]
          exact ih child

variable {heap base : Cells N} {path : Path} {address : Nat} {held : HeldVal N}

theorem resolve_of_follow {v : Val N} {c : Container Units (Val N)}
    (followed : v.follow heap path = some address) (here : heap[address]? = some c) :
    resolve heap (some v) path = .ok (address, c) := by
  rcases resolveFrom_follow heap path v path with ⟨_, _, led, there, resolved⟩ | ⟨lost, -⟩
  · rw [followed] at led
    cases led
    rw [here] at there
    cases there
    exact resolved
  · rw [followed] at lost
    cases lost

theorem resolve_of_lost {v : Val N} (lost : v.follow heap path = none) :
    ∃ error, resolve heap (some v) path = .error error := by
  rcases resolveFrom_follow heap path v path with ⟨_, _, led, -⟩ | ⟨-, refused⟩
  · rw [lost] at led
    cases led
  · exact refused

def HeldVal.text? (held : HeldVal N) : Option Units := Val.text? held.value

def HeldVal.ofText (text : Units) : HeldVal N := ⟨Val.ofText text, Doc.ofText text, []⟩

theorem text?_of_owned (owned : Owned base heap held.value held.tree held.footprint) :
    Doc.text? held.tree = HeldVal.text? held := by
  have plain : ∀ {v : Val N} {tree : Doc N}, Denotes base v tree →
      Doc.text? tree = Val.text? v := by
    intro v tree denotes
    cases denotes with
    | leaf leaf => cases leaf <;> rfl
    | node c => rfl
  rcases held with ⟨v, tree, footprint⟩
  cases owned with
  | borrowed denotes => exact plain denotes
  | node c => rfl

theorem owned_ofText (base heap : Cells N) (text : Units) :
    Owned base heap (HeldVal.ofText text : HeldVal N).value (HeldVal.ofText text).tree
      (HeldVal.ofText text : HeldVal N).footprint :=
  .borrowed (.leaf (Prim.str text))

def opFootprint (op : Op (HeldVal N)) : List Nat := op.values.flatMap Held.footprint

def rootFootprint : Option (HeldVal N) → List Nat
  | some held => held.footprint
  | none => []

/-- What an operation leaves of the memory and of what the root owns. -/
structure Applied (base heap : Cells N) (held : Option (HeldVal N)) (op : Op (HeldVal N))
    (later : Cells N) (root : Option (HeldVal N)) : Prop where
  owned : ∀ held ∈ root, Owned base later held.value held.tree held.footprint
  footprint : rootFootprint root <+~ opFootprint op ++ rootFootprint held
  kept : base <+: later
  frame : ∀ address ∉ rootFootprint held, later[address]? = heap[address]?

theorem resolve_none (heap : Cells N) (path : Path) :
    resolve heap none path = .error (.unresolvable path) := by
  cases path with
  | nil => rfl
  | cons segment rest => rfl

theorem prefix_set (kept : base <+: heap) (fresh : base.length ≤ address)
    (c : Container Units (Val N)) : base <+: heap.set address c := by
  obtain ⟨rest, rfl⟩ := kept
  rw [set_append_right _ _ fresh]
  exact prefix_append _ _

theorem edit_focus (kept : base <+: heap) {edit : Edit (HeldVal N)}
    (payload : ∀ child ∈ edit.values, Owned base heap child.value child.tree child.footprint)
    (nodup : (edit.values.flatMap footprint ++ held.footprint).Nodup)
    {c written : Container Units (HeldVal N)}
    (focus : Focus base heap (containerPath path edit) held address c)
    (edited : editContainer HeldVal.text? HeldVal.ofText path edit c = .ok written) :
    ∃ tree footprint,
      held.tree.updateAt
        (fun c =>
          (editContainer Doc.text? Doc.ofText path (edit.map Held.tree) c).toOption)
        (containerPath path edit) = some tree ∧
      Applied base heap (some held) (.edit path edit)
        (heap.set address (written.map Held.value)) (some ⟨held.value, tree, footprint⟩) := by
  have inside : address ∈ held.footprint := focus.within.subset mem_cons_self
  have apart : address ∉ edit.values.flatMap Held.footprint := by
    intro shared
    exact (nodup_append.mp nodup).2.2 address shared address inside rfl
  have outside : address ∉ footprints c :=
    (nodup_cons.mp (nodup_of_subperm focus.within (nodup_append.mp nodup).2.1)).1
  obtain ⟨extra, fewer, origin⟩ := editContainer_values edited
  have cells : extra.flatMap footprint <+~ edit.values.flatMap footprint := by
    rcases origin with rfl | ⟨text, rfl⟩
    · exact .refl _
    · exact (nil_sublist _).subperm
  have children : ∀ child ∈ written.values,
      Owned base (heap.set address (written.map value)) child.value child.tree
        child.footprint := by
    intro child listed
    rcases mem_append.mp (fewer.subset listed) with new | old
    · rcases origin with rfl | ⟨text, rfl⟩
      · apply (payload child new).frame
        intro cell owns
        apply getElem?_set_ne
        rintro rfl
        exact apart (mem_flatMap.mpr ⟨child, new, owns⟩)
      · rw [mem_singleton.mp new]
        exact owned_ofText base _ text
    · apply (focus.children child old).frame
      intro cell owns
      apply getElem?_set_ne
      rintro rfl
      exact outside (mem_flatMap.mpr ⟨child, old, owns⟩)
  have less : footprints written <+~
      edit.values.flatMap footprint ++ footprints c := by
    have moved := flatMap_subperm footprint fewer
    rw [flatMap_append] at moved
    exact moved.trans ((subperm_append_right _).mpr cells)
  have texts : ∀ child ∈ c.values, Doc.text? child.tree = HeldVal.text? child :=
    fun child listed => text?_of_owned (focus.children child listed)
  have trees := @editContainer_map (HeldVal N) (Doc N) HeldVal.text? HeldVal.ofText Doc.text?
    Doc.ofText tree c (fun _ => rfl) texts path edit
  rw [edited] at trees
  obtain ⟨tree, footprint, changed, owned, smaller⟩ := focus.rewrite written
    (edit.values.flatMap footprint) (fun c =>
      (editContainer Doc.text? Doc.ofText path (edit.map tree) c).toOption)
    children less (by rw [trees]; rfl)
  refine ⟨tree, footprint, changed, ?_⟩
  constructor
  · rintro root ⟨⟩
    exact owned
  · exact smaller
  · exact prefix_set kept focus.fresh _
  · intro cell elsewhere
    apply getElem?_set_ne
    rintro rfl
    exact elsewhere inside

theorem applyOp_held (kept : base <+: heap) (held : Option (HeldVal N)) (op : Op (HeldVal N))
    (root : ∀ owner ∈ held, Owned base heap owner.value owner.tree owner.footprint)
    (payload : ∀ child ∈ op.values, Owned base heap child.value child.tree child.footprint)
    (spine : ∀ path edit, op = .edit path edit → ∀ owner ∈ held,
      (owner.tree.follow (containerPath path edit)).isSome →
        Spine base heap (containerPath path edit) owner)
    (nodup : (opFootprint op ++ rootFootprint held).Nodup) :
    (∃ later root, applyOp heap (held.map value) (op.map value) =
        .ok (later, root.map value) ∧
      applyTree (held.map tree) (op.map tree) = some (root.map tree) ∧
      Applied base heap held op later root) ∨
    ∃ error, applyOp heap (held.map value) (op.map value) = .error error ∧
      applyTree (held.map tree) (op.map tree) = none := by
  unfold applyOp applyTree
  rw [assertValidOp_map, assertValidOp_map]
  cases valid : assertValidOp op with
  | error error => exact .inr ⟨error, rfl, rfl⟩
  | ok _ =>
    cases op with
    | malformed => cases valid
    | r v =>
      refine .inl ⟨heap, some v, rfl, rfl, ?_⟩
      constructor
      · rintro owner ⟨⟩
        exact payload v mem_cons_self
      · rw [opFootprint, Op.values, flatMap_singleton]
        exact (sublist_append_left _ _).subperm
      · exact kept
      · exact fun _ _ => rfl
    | edit path edit =>
      dsimp only [Op.map]
      rw [containerPath_map, containerPath_map]
      cases held with
      | none =>
        rw [Option.map_none, resolve_none]
        exact .inr ⟨_, rfl, rfl⟩
      | some owner =>
        have owned := root owner rfl
        simp only [Option.map_some, Option.bind_some]
        rcases (owned.denotes kept).follow (containerPath path edit) with
          ⟨lost, missing⟩ | ⟨address, shown, followed, here, found, -⟩
        · right
          obtain ⟨error, refused⟩ := resolve_of_lost lost
          rw [refused, Tree.updateAt_of_follow_eq_none _ missing]
          exact ⟨error, rfl, rfl⟩
        · have whole : owner.footprint.Nodup := (nodup_append.mp nodup).2.1
          obtain ⟨target, c, focus⟩ :=
            (spine path edit rfl owner rfl (by rw [found]; rfl)).focus whole
          have values := @editContainer_map (HeldVal N) (Val N) HeldVal.text? HeldVal.ofText
            Val.text? Val.ofText value c (fun _ => rfl) (fun _ _ => rfl) path edit
          rw [resolve_of_follow focus.followed focus.here]
          cases edited : editContainer HeldVal.text? HeldVal.ofText path edit c with
          | error error =>
            right
            rw [edited] at values
            refine ⟨error, ?_, ?_⟩
            · change (editContainer _ _ _ _ _ >>= _) = _
              rw [values]
              rfl
            · have texts : ∀ child ∈ c.values,
                  Doc.text? child.tree = HeldVal.text? child :=
                fun child listed => text?_of_owned (focus.children child listed)
              have trees := @editContainer_map (HeldVal N) (Doc N) HeldVal.text? HeldVal.ofText
                Doc.text? Doc.ofText tree c (fun _ => rfl) texts path edit
              rw [edited] at trees
              rw [Tree.updateAt_of_update_eq_none focus.found (by rw [trees]; rfl)]
              rfl
          | ok written =>
            left
            rw [edited] at values
            obtain ⟨tree, footprint, changed, applied⟩ :=
              edit_focus kept payload nodup focus edited
            refine ⟨_, some ⟨owner.value, tree, footprint⟩, ?_, ?_, applied⟩
            · change (editContainer _ _ _ _ _ >>= _) = _
              rw [values]
              rfl
            · rw [changed]
              rfl

end Trpi.Chord.Memory
