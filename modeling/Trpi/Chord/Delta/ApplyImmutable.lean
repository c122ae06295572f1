import Trpi.Chord.Delta.ApplyInPlace

/-!
# Applying without mutation

`applyImmutable` copies the containers an operation writes and leaves everything that was
there. What it gives stands for the same document as what `apply` makes of copies of its
arguments.
-/

namespace Trpi.Chord.Memory

open Library Held Op Container

open Prod hiding map_map

open Option hiding map_map

open List hiding getElem?_eq_some_iff map_map

variable {N α β : Type} {ops : List (Op (Val N × Doc N))} {heap source base : Cells N}
  {root : Option (Val N × Doc N)} {path : Path} {edit : Edit (Doc N)} {held : Option (HeldVal N)}

/-- Copies: no container is held twice, by the root or by a payload. -/
structure Unshared (heap : Cells N) (held : Option (HeldVal N)) (ops : List (Op (HeldVal N))) :
    Prop where
  root : ∀ owner ∈ held, Owned [] heap owner.value owner.tree owner.footprint
  payload : ∀ op ∈ ops, ∀ child ∈ op.values, Owned [] heap child.value child.tree child.footprint
  nodup : (rootFootprint held ++ ops.flatMap opFootprint).Nodup

theorem Unshared.step {heap later : Cells N} {root : Option (HeldVal N)} {op : Op (HeldVal N)}
    {ops : List (Op (HeldVal N))} (unshared : Unshared heap held (op :: ops))
    (applied : Applied [] heap held op later root) : Unshared later root ops := by
  have nodup := unshared.nodup
  rw [flatMap_cons, ← append_assoc] at nodup
  have smaller : rootFootprint root ++ ops.flatMap opFootprint <+~
      rootFootprint held ++ opFootprint op ++ ops.flatMap opFootprint :=
    (subperm_append_right _).mpr (applied.footprint.trans perm_append_comm.subperm)
  refine ⟨applied.owned, ?_, nodup_of_subperm smaller nodup⟩
  intro other listed child inside
  apply (unshared.payload other (mem_cons_of_mem _ listed) child inside).frame
  intro address owns
  apply applied.frame
  intro shared
  -- a payload that is still to come has no container of the root
  exact (nodup_append.mp nodup).2.2 address (mem_append_left _ shared) address
    (mem_flatMap.mpr ⟨other, listed, mem_flatMap.mpr ⟨child, inside, owns⟩⟩) rfl

theorem applyOps_unshared {ops : List (Op (HeldVal N))} (unshared : Unshared heap held ops) :
    (∃ later, ∃ root : Option (HeldVal N),
      applyOps heap (held.map value) (ops.map (map value)) =
        (later, .ok (root.map value)) ∧
      applyTrees (held.map tree) (ops.map (map tree)) =
        some (root.map tree) ∧
      ∀ owner ∈ root, Denotes later owner.value owner.tree) ∨
    ∃ later error, applyOps heap (held.map value) (ops.map (map value)) =
        (later, .error error) ∧ applyTrees (held.map tree) (ops.map (map tree)) = none := by
  induction ops generalizing heap held with
  | nil =>
    exact .inl ⟨heap, held, rfl, rfl, fun owner inside =>
      (unshared.root owner inside).denotes List.nil_prefix⟩
  | cons op ops ih =>
    have nodup : (opFootprint op ++ rootFootprint held).Nodup := by
      have all := unshared.nodup
      rw [flatMap_cons, ← append_assoc] at all
      exact perm_append_comm.nodup_iff.mp (nodup_append.mp all).1
    rw [map_cons, map_cons, applyOps, applyTrees]
    rcases applyOp_held nil_prefix held op unshared.root
      (unshared.payload op mem_cons_self)
      (fun path edit _ owner inside led => by
        obtain ⟨target, found⟩ := isSome_iff_exists.mp led
        exact (unshared.root owner inside).spine found) nodup with
      ⟨later, root, taken, tree, applied⟩ | ⟨error, refused, none_⟩
    · rw [taken, tree]
      exact ih (unshared.step applied)
    · rw [refused, none_]
      exact .inr ⟨heap, error, rfl, rfl⟩

def borrow (pair : Val N × Doc N) : HeldVal N := ⟨pair.1, pair.2, []⟩

theorem footprints_borrow (c : Container Units (Val N × Doc N)) :
    footprints (c.map borrow) = [] := by
  rw [footprints, values_map, flatMap_map]
  exact flatMap_eq_nil_iff.mpr fun _ _ => rfl

theorem hasOwn_of_get? {c : Container Units (Val N)} {segment : Seg} {child : Val N}
    (found : c.get? segment = some child) : hasOwn c segment = true := by
  have own : (c.get? segment).isSome = true := by
    rw [found]
    rfl
  cases c with
  | arr items =>
    cases segment with
    | name name => cases found
    | index position => exact own
  | obj members => exact own

section

variable {path rest : Path} {segment : Seg} {heap : Cells N} {source destination : Nat}
  {c : Container Units (Val N)}

theorem copyAlong_lost (here : heap[source]? = some c) (lost : c.get? segment = none) :
    ∃ error, copyAlong path (segment :: rest) heap (.ref source) destination =
      (heap, .error error) := by
  rw [copyAlong, cell_ref here]
  dsimp only
  split
  · rw [lost]
    cases c with
    | arr items =>
      cases segment with
      | name name => exact ⟨_, rfl⟩
      | index position => exact ⟨_, rfl⟩
    | obj members => exact ⟨_, rfl⟩
  · exact ⟨_, rfl⟩

theorem copyAlong_found {child : Val N} (here : heap[source]? = some c)
    (found : c.get? segment = some child) :
    copyAlong path (segment :: rest) heap (.ref source) destination =
      match cell heap (some child) with
      | none => (heap, .error (.unresolvable path))
      | some (_, copied) =>
        copyAlong path rest ((heap ++ [copied]).modify destination fun target =>
          target.put segment (.ref heap.length)) child heap.length := by
  rw [copyAlong, cell_ref here]
  dsimp only
  rw [if_pos (hasOwn_of_get? found), found]
  cases c with
  | arr items =>
    cases segment with
    | name name => cases found
    | index position => rfl
  | obj members => rfl

end

/-- What the loop leaves: a path of copies from the destination on. -/
structure Copied (base heap : Cells N) (rest : Path) (tree : Doc N) (destination : Nat)
    (later : Cells N) (footprint : List Nat) : Prop where
  spine : Spine base later rest ⟨.ref destination, tree, destination :: footprint⟩
  nodup : footprint.Nodup
  fresh : ∀ address ∈ footprint, heap.length ≤ address
  frame : ∀ address < heap.length, address ≠ destination → later[address]? = heap[address]?
  kept : base <+: later

theorem prefix_modify {base heap : Cells N} (kept : base <+: heap) {destination : Nat}
    (fresh : base.length ≤ destination) (copied : Container Units (Val N))
    (change : Container Units (Val N) → Container Units (Val N)) :
    base <+: (heap ++ [copied]).modify destination change := by
  have longer : base <+: heap ++ [copied] := kept.trans (prefix_append _ _)
  rw [prefix_iff_getElem?] at longer ⊢
  intro address bound
  rw [getElem?_modify_ne _ _ (by omega)]
  exact longer address bound

theorem borrowed_values (c : Container Units (Val N × Doc N)) :
    (c.map borrow).map value = c.map fst := by
  rw [map_map]
  rfl

theorem borrowed_trees (c : Container Units (Val N × Doc N)) :
    (c.map borrow).map tree = c.map snd := by
  rw [map_map]
  rfl

theorem owned_borrow {c : Container Units (Val N × Doc N)}
    (children : ∀ child ∈ c.values, Denotes base child.1 child.2) (heap : Cells N) :
    ∀ held ∈ (c.map borrow).values, Owned base heap held.value held.tree held.footprint := by
  intro held inside
  rw [values_map, List.mem_map] at inside
  obtain ⟨child, listed, rfl⟩ := inside
  exact .borrowed (children child listed)

/-- A copy that nothing was written to yet. -/
theorem copied_here {base heap : Cells N} {c : Container Units (Val N × Doc N)}
    (children : ∀ child ∈ c.values, Denotes base child.1 child.2)
    (kept : base <+: heap) {destination : Nat} (fresh : base.length ≤ destination)
    (here : heap[destination]? = some (c.map fst)) :
    Copied base heap [] (.node (c.map snd)) destination heap [] := by
  refine ⟨?_, nodup_nil, nofun, fun _ _ _ => rfl, kept⟩
  have spine := @Spine.here Units (Prim N) _ _ base heap destination (c.map borrow)
    fresh (by rw [borrowed_values]; exact here) (owned_borrow children heap)
  rw [footprints_borrow, borrowed_trees] at spine
  exact spine

theorem copied_deeper {base heap next later : Cells N} {rest : Path} {segment : Seg}
    {c : Container Units (Val N × Doc N)} {child : Val N × Doc N}
    (children : ∀ child ∈ c.values, Denotes base child.1 child.2)
    (found : c.get? segment = some child) {destination : Nat} (fresh : base.length ≤ destination)
    (bound : destination < heap.length) (longer : next.length = heap.length + 1)
    (written : next[destination]? = some ((c.map fst).put segment (.ref heap.length)))
    (others : ∀ address < heap.length, address ≠ destination → next[address]? = heap[address]?)
    {footprint : List Nat} (copied : Copied base next rest child.2 heap.length later footprint) :
    ∃ whole, Copied base heap (segment :: rest) (.node (c.map snd)) destination
      later whole := by
  have start : (c.map borrow).get? segment = some (borrow child) := by
    rw [get?_map, found]
    rfl
  have kept : destination ≠ heap.length := by omega
  let held : HeldVal N := ⟨.ref heap.length, child.2, heap.length :: footprint⟩
  have fewer : footprints ((c.map borrow).put segment held) <+~
      heap.length :: footprint := by
    have moved := flatMap_subperm Held.footprint (put_subperm (c.map borrow) segment held)
    rw [flatMap_cons] at moved
    change _ <+~ (heap.length :: footprint) ++ footprints (c.map borrow) at moved
    rw [footprints_borrow, append_nil] at moved
    exact moved
  have unused : heap.length ∉ footprint := by
    intro inside
    have := copied.fresh _ inside
    omega
  refine ⟨footprints ((c.map borrow).put segment held), ?_, ?_, ?_, ?_, copied.kept⟩
  · have spine := @Spine.deeper Units (Prim N) _ _ base later destination segment rest held
      ((c.map borrow).put segment held) fresh ?_ ?_
      (get?_put_self start held) copied.spine
    · rw [← put_map, borrowed_trees] at spine
      have same : (c.map snd).get? segment = some child.2 := by
        rw [get?_map, found]
        rfl
      rw [put_get? same] at spine
      exact spine
    · rw [copied.frame destination (by omega) kept, written, ← put_map, borrowed_values]
    · intro other listed
      rcases mem_cons.mp ((put_subperm _ _ _).subset listed) with rfl | old
      · exact copied.spine.owned
      · exact owned_borrow children later other old
  · exact nodup_of_subperm fewer (nodup_cons.mpr ⟨unused, copied.nodup⟩)
  · intro address inside
    rcases mem_cons.mp (fewer.subset inside) with rfl | deeper
    · exact Nat.le_refl _
    · have := copied.fresh address deeper
      omega
  · intro address below apart
    rw [copied.frame address (by omega) (by omega)]
    exact others address below apart

theorem copyAlong_copied (path rest : Path) {source : Nat} {tree : Doc N}
    (denotes : Denotes base (.ref source) tree) {destination : Nat} (kept : base <+: heap)
    (fresh : base.length ≤ destination) (same : heap[destination]? = base[source]?)
    (bound : destination < heap.length) :
    (∃ later footprint, copyAlong path rest heap (.ref source) destination = (later, .ok ()) ∧
      Copied base heap rest tree destination later footprint) ∨
    tree.follow rest = none ∧ ∃ later error,
      copyAlong path rest heap (.ref source) destination = (later, .error error) ∧
        base <+: later := by
  induction rest generalizing heap source tree destination with
  | nil =>
    cases denotes with
    | node c here children =>
      exact .inl ⟨heap, [], rfl, copied_here children kept fresh (same.trans here)⟩
  | cons segment rest ih =>
    cases denotes with
    | node c here children =>
      have there : heap[source]? = some (c.map fst) := by
        obtain ⟨tail, rfl⟩ := kept
        rw [getElem?_append_left (List.getElem?_eq_some_iff.mp here).1]
        exact here
      rw [Tree.follow, get?_map]
      cases found : c.get? segment with
      | none =>
        have lost : (c.map fst).get? segment = none := by
          rw [get?_map, found]
          rfl
        obtain ⟨error, refused⟩ := @copyAlong_lost N path rest segment heap source destination
          (c.map fst) there lost
        exact .inr ⟨rfl, heap, error, refused, kept⟩
      | some child =>
        have present : (c.map fst).get? segment = some child.1 := by
          rw [get?_map, found]
          rfl
        rw [copyAlong_found there present]
        have below := children child (mem_of_get? found)
        rcases child with ⟨v, subtree⟩
        cases v with
        | leaf leaf =>
          cases below
          refine .inr ⟨?_, heap, _, rfl, kept⟩
          cases rest <;> rfl
        | ref deeper =>
          obtain ⟨copied, at_⟩ : ∃ copied, base[deeper]? = some copied := by
            cases below with
            | node inner at_ => exact ⟨_, at_⟩
          have inHeap : heap[deeper]? = some copied := by
            obtain ⟨tail, rfl⟩ := kept
            rw [getElem?_append_left (List.getElem?_eq_some_iff.mp at_).1]
            exact at_
          rw [cell_ref inHeap]
          dsimp only
          have apart : destination ≠ heap.length := by omega
          have last : (((heap ++ [copied]).modify destination fun target =>
              target.put segment (.ref heap.length)) : Cells N)[heap.length]? = some copied := by
            rw [getElem?_modify_ne _ _ apart, getElem?_concat_length]
          rcases ih below (prefix_modify kept fresh copied _) kept.length_le (last.trans at_.symm)
            (by simp) with ⟨later, footprint, ran, done⟩ | ⟨astray, refused⟩
          · have put := @copied_deeper N base heap _ later rest segment c
              (.ref deeper, subtree) children found destination fresh bound (by simp) ?_ ?_
              footprint done
            · obtain ⟨whole, copies⟩ := put
              exact .inl ⟨later, whole, ran, copies⟩
            · rw [getElem?_modify_eq, getElem?_append_left bound, same, here]
              rfl
            · intro address inside other
              rw [getElem?_modify_ne _ _ (Ne.symm other), getElem?_append_left inside]
          · exact .inr ⟨astray, refused⟩

theorem copyContainers_copied {v : Val N} {tree : Doc N} (denotes : Denotes heap v tree)
    (path : Path) :
    (∃ later, ∃ held : HeldVal N,
      copyContainers heap (some v) path = (later, .ok (some held.value)) ∧
      held.tree = tree ∧ Spine heap later path held ∧ held.footprint.Nodup ∧ heap <+: later) ∨
    tree.follow path = none ∧ ∃ later error,
      copyContainers heap (some v) path = (later, .error error) ∧ heap <+: later := by
  cases v with
  | leaf leaf =>
    cases denotes
    refine .inr ⟨?_, heap, _, rfl, prefix_rfl⟩
    cases path <;> rfl
  | ref source =>
    obtain ⟨c, here⟩ : ∃ c, heap[source]? = some c := by
      cases denotes with
      | node c here => exact ⟨_, here⟩
    rcases copyAlong_copied path path denotes (prefix_append heap [c])
      (Nat.le_refl _) (by rw [getElem?_concat_length, here]) (by simp) with
      ⟨later, footprint, ran, copied⟩ | ⟨lost, later, error, refused, kept⟩
    · have opened : copyContainers heap (some (.ref source)) path =
          (later, .ok (some (.ref heap.length))) := by
        simp only [copyContainers, cell_ref here, ran]
      refine .inl ⟨later, _, opened, rfl, copied.spine, ?_, copied.kept⟩
      refine nodup_cons.mpr ⟨?_, copied.nodup⟩
      intro inside
      have later := copied.fresh _ inside
      rw [length_append, length_singleton] at later
      omega
    · have opened : copyContainers heap (some (.ref source)) path = (later, .error error) := by
        simp only [copyContainers, cell_ref here, refused]
      exact .inr ⟨lost, later, error, opened, kept⟩

theorem Edit.map_map {γ : Type} (f : α → β) (g : β → γ) (edit : Edit α) :
    (edit.map f).map g = edit.map fun v => g (f v) := by
  cases edit <;> simp [Edit.map]

theorem Edit.values_map (f : α → β) (edit : Edit α) : (edit.map f).values = edit.values.map f := by
  cases edit <;> rfl

theorem applyTree_of_lost {root : Doc N} (lost : root.follow (containerPath path edit) = none) :
    applyTree (some root) (.edit path edit) = none := by
  unfold applyTree
  cases assertValidOp (Op.edit path edit) with
  | error error => rfl
  | ok _ =>
    change ((Tree.updateAt _ _ root).map some) = none
    rw [Tree.updateAt_of_follow_eq_none _ lost]
    rfl

theorem applyTree_none : applyTree none (.edit path edit) = none := by
  unfold applyTree
  cases assertValidOp (Op.edit path edit) <;> rfl

theorem edit_copied {heap later : Cells N} {held : HeldVal N} {edit : Edit (Val N × Doc N)}
    (spine : Spine heap later (containerPath path edit) held) (nodup : held.footprint.Nodup)
    (kept : heap <+: later) (payload : ∀ child ∈ edit.values, Denotes heap child.1 child.2) :
    (∃ last, ∃ root : Option (Val N × Doc N),
      applyOps later (some held.value) [.edit path (edit.map fst)] =
        (last, .ok (root.map fst)) ∧
      applyTree (some held.tree) (.edit path (edit.map snd)) = some (root.map snd) ∧
      (∀ pair ∈ root, Denotes last pair.1 pair.2) ∧ heap <+: last) ∨
    ∃ last error, applyOps later (some held.value) [.edit path (edit.map fst)] =
        (last, .error error) ∧
      applyTree (some held.tree) (.edit path (edit.map snd)) = none ∧ heap <+: last := by
  have values : (Op.edit path (edit.map borrow)).map Held.value = .edit path (edit.map fst) := by
    rw [Op.map, Edit.map_map]
    rfl
  have trees : (Op.edit path (edit.map borrow)).map Held.tree = .edit path (edit.map snd) := by
    rw [Op.map, Edit.map_map]
    rfl
  have nothing : opFootprint (Op.edit path (edit.map borrow)) = [] := by
    rw [opFootprint, Op.values, Edit.values_map, flatMap_map]
    exact flatMap_eq_nil_iff.mpr fun _ _ => rfl
  have taken := applyOp_held kept (some held) (.edit path (edit.map borrow))
    (fun owner inside => by
      cases inside
      exact spine.owned)
    (fun child inside => by
      rw [Op.values, Edit.values_map, List.mem_map] at inside
      obtain ⟨pair, listed, rfl⟩ := inside
      exact .borrowed (payload pair listed))
    (fun other change same owner inside _ => by
      cases same
      cases inside
      rw [containerPath_map]
      exact spine)
    (by rw [nothing]; exact nodup)
  rw [values, trees, map_some, map_some] at taken
  rw [applyOps]
  rcases taken with ⟨last, root, ran, tree, applied⟩ | ⟨error, refused, none_⟩
  · refine .inl ⟨last, root.map fun owner => (owner.value, owner.tree), ?_, ?_, ?_, applied.kept⟩
    · rw [ran, Option.map_map]
      rfl
    · rw [tree, Option.map_map]
      rfl
    · intro pair inside
      obtain ⟨owner, listed, rfl⟩ := map_eq_some_iff.mp inside
      exact (applied.owned owner listed).denotes applied.kept
  · rw [refused]
    exact .inr ⟨later, error, rfl, none_, kept⟩

theorem applyImmutable_denotes (stands : ∀ pair ∈ root, Denotes heap pair.1 pair.2)
    (payload : ∀ op ∈ ops, ∀ child ∈ op.values, Denotes heap child.1 child.2) :
    (∃ later, ∃ result : Option (Val N × Doc N),
      applyImmutable heap (root.map fst) (ops.map (map fst)) =
        (later, .ok (result.map fst)) ∧
      applyTrees (root.map snd) (ops.map (map snd)) = some (result.map snd) ∧
      (∀ pair ∈ result, Denotes later pair.1 pair.2) ∧ heap <+: later) ∨
    ∃ later error, applyImmutable heap (root.map fst) (ops.map (map fst)) =
        (later, .error error) ∧
      applyTrees (root.map snd) (ops.map (map snd)) = none ∧ heap <+: later := by
  induction ops generalizing heap root with
  | nil => exact .inl ⟨heap, root, rfl, rfl, stands, prefix_rfl⟩
  | cons op ops ih =>
    rw [forall_mem_cons] at payload
    rw [map_cons, map_cons, applyTrees]
    cases op with
    | malformed => exact .inr ⟨heap, .shape, rfl, rfl, prefix_rfl⟩
    | r v =>
      exact @ih heap (some v) (fun pair same => by
        cases same
        exact payload.1 _ mem_cons_self) payload.2
    | edit path edit =>
      dsimp only [Op.map]
      rw [applyImmutable, containerPath_map]
      cases root with
      | none =>
        refine .inr ⟨heap, .unresolvable (containerPath path edit), rfl, ?_, prefix_rfl⟩
        rw [map_none, applyTree_none]
        rfl
      | some pair =>
        rw [map_some, map_some]
        rcases copyContainers_copied (stands pair rfl) (containerPath path edit) with
          ⟨later, held, copied, same, spine, nodup, kept⟩ | ⟨lost, later, error, refused, kept⟩
        · rw [copied, ← same]
          dsimp only
          rcases edit_copied spine nodup kept payload.1 with
            ⟨last, result, ran, tree, stands, longer⟩ | ⟨last, error, refused, none_, longer⟩
          · rw [ran, tree]
            rcases ih stands (fun op listed child inside =>
              (payload.2 op listed child inside).mono longer) with
              ⟨final, v, ran, tree, denotes, grown⟩ | ⟨final, error, refused, none_, grown⟩
            · exact .inl ⟨final, v, ran, tree, denotes, longer.trans grown⟩
            · exact .inr ⟨final, error, refused, none_, longer.trans grown⟩
          · rw [refused, none_]
            exact .inr ⟨last, error, rfl, rfl, longer⟩
        · rw [refused, applyTree_of_lost (by rw [containerPath_map]; exact lost)]
          exact .inr ⟨later, error, rfl, rfl, kept⟩

theorem Edit.exists_filled (f : β → α) (edit : Edit α) (values : List β)
    (same : values.map f = edit.values) :
    ∃ filled : Edit β, filled.map f = edit ∧ filled.values = values := by
  cases edit with
  | s v =>
    obtain ⟨payload, rfl, held⟩ := map_eq_singleton_iff.mp same
    exact ⟨.s payload, by rw [Edit.map, held], rfl⟩
  | p i remove items => exact ⟨.p i remove values, by rw [Edit.map, same]; rfl, rfl⟩
  | d => exact ⟨.d, rfl, (map_eq_nil_iff.mp same).symm⟩
  | a text => exact ⟨.a text, rfl, (map_eq_nil_iff.mp same).symm⟩
  | t count => exact ⟨.t count, rfl, (map_eq_nil_iff.mp same).symm⟩

theorem Op.exists_filled (f : β → α) (op : Op α) (values : List β)
    (same : values.map f = op.values) :
    ∃ filled : Op β, filled.map f = op ∧ filled.values = values := by
  cases op with
  | r v =>
    obtain ⟨payload, rfl, held⟩ := map_eq_singleton_iff.mp same
    exact ⟨.r payload, by rw [map, held], rfl⟩
  | edit path edit =>
    obtain ⟨filled, mapped, listed⟩ := edit.exists_filled f values same
    exact ⟨.edit path filled, by rw [map, mapped], listed⟩
  | malformed => exact ⟨.malformed, rfl, (map_eq_nil_iff.mp same).symm⟩

theorem Op.values_map (f : α → β) (op : Op α) : (op.map f).values = op.values.map f := by
  cases op with
  | r v => rfl
  | edit path edit => exact edit.values_map f
  | malformed => rfl

theorem exists_op_copies (payload : ∀ op ∈ ops, ∀ child ∈ op.values, Denotes source child.1 child.2)
    (memory : Cells N) :
    ∃ later, ∃ copies : List (Op (HeldVal N)),
      Copies memory later (copies.flatMap Op.values) ∧
      copies.map (Op.map Held.tree) = ops.map (Op.map snd) := by
  induction ops generalizing memory with
  | nil => exact ⟨memory, [], .nil memory, rfl⟩
  | cons op ops ih =>
    rw [forall_mem_cons] at payload
    have each : ∀ tree ∈ (op.map snd).values, ∀ heap : Cells N, ∃ later held,
        Copies heap later [held] ∧ held.tree = tree := by
      intro tree listed heap
      rw [Op.values_map, List.mem_map] at listed
      obtain ⟨child, inside, rfl⟩ := listed
      exact (payload.1 child inside).exists_copy heap
    obtain ⟨middle, held, copied, trees⟩ := exists_copies each memory
    obtain ⟨filled, same, listed⟩ := (op.map snd).exists_filled tree held trees
    obtain ⟨later, rest, copies, mapped⟩ := ih payload.2 middle
    refine ⟨later, filled :: rest, ?_, ?_⟩
    · rw [flatMap_cons, listed]
      exact copied.append copies
    · rw [map_cons, same, mapped]
      rfl

theorem exists_unshared (stands : ∀ pair ∈ root, Denotes source pair.1 pair.2)
    (payload : ∀ op ∈ ops, ∀ child ∈ op.values, Denotes source child.1 child.2) :
    ∃ memory held copies, Unshared memory held copies ∧
      held.map tree = root.map snd ∧ copies.map (Op.map Held.tree) = ops.map (Op.map snd) := by
  have first : ∃ middle, ∃ held : Option (HeldVal N), Copies [] middle held.toList ∧
      held.map tree = root.map snd := by
    cases root with
    | none => exact ⟨[], none, .nil [], rfl⟩
    | some pair =>
      obtain ⟨middle, held, copies, same⟩ := (stands pair rfl).exists_copy []
      exact ⟨middle, some held, copies, congrArg some same⟩
  obtain ⟨middle, held, copied, same⟩ := first
  obtain ⟨memory, copies, rest, mapped⟩ := exists_op_copies payload middle
  have all := copied.append rest
  refine ⟨memory, held, copies, ⟨?_, ?_, ?_⟩, same, mapped⟩
  · intro owner inside
    exact all.owned owner (mem_append_left _ (mem_toList.mpr inside))
  · intro op listed child inside
    exact all.owned child (mem_append_right _ (mem_flatMap.mpr ⟨op, listed, inside⟩))
  · have nodup := all.nodup
    rw [flatMap_append, flatMap_assoc] at nodup
    cases held with
    | none => exact nodup
    | some owner =>
      rw [toList_some, flatMap_singleton] at nodup
      exact nodup

/-- A value that may be undefined stands for a document that may be. -/
def Stands (heap : Cells N) : Option (Val N) → Option (Doc N) → Prop
  | none, none => True
  | some value, some tree => Denotes heap value tree
  | _, _ => False

/-- Both throw, or both give values that stand for one document. -/
def SameOutcome (first second : Cells N × Except ApplyError (Option (Val N))) : Prop :=
  match first.2, second.2 with
  | .ok value, .ok other => ∃ tree, Stands first.1 value tree ∧ Stands second.1 other tree
  | .error _, .error _ => True
  | _, _ => False

theorem stands_map {v : α → Val N} {tree : α → Doc N} {root : Option α}
    (denotes : ∀ owner ∈ root, Denotes heap (v owner) (tree owner)) :
    Stands heap (root.map v) (root.map tree) := by
  cases root with
  | none => trivial
  | some owner => exact denotes owner rfl

/-- Every container that was there is left as it is, and the outcome is that of `apply` on
any copies of the value and of the operations; there are such copies. -/
theorem applyImmutable_agrees (heap : Cells N) (root : Option (Val N × Doc N))
    (ops : List (Op (Val N × Doc N))) (stands : ∀ pair ∈ root, Denotes heap pair.1 pair.2)
    (payload : ∀ op ∈ ops, ∀ child ∈ op.values, Denotes heap child.1 child.2) :
    heap <+: (applyImmutable heap (root.map Prod.fst) (ops.map (Op.map Prod.fst))).1 ∧
    (∃ memory held copies, Unshared memory held copies ∧
      held.map Held.tree = root.map Prod.snd ∧
      copies.map (Op.map Held.tree) = ops.map (Op.map Prod.snd)) ∧
    ∀ memory held copies, Unshared memory held copies →
      held.map Held.tree = root.map Prod.snd →
      copies.map (Op.map Held.tree) = ops.map (Op.map Prod.snd) →
      SameOutcome (applyImmutable heap (root.map Prod.fst) (ops.map (Op.map Prod.fst)))
        (apply memory (held.map Held.value) (copies.map (Op.map Held.value))) := by
  have immutable := applyImmutable_denotes stands payload
  refine ⟨?_, exists_unshared stands payload, ?_⟩
  · rcases immutable with ⟨later, result, ran, -, -, kept⟩ | ⟨later, error, refused, -, kept⟩
    · rw [ran]
      exact kept
    · rw [refused]
      exact kept
  · intro memory held copies unshared sameRoot sameOps
    have inPlace := applyOps_unshared unshared
    rw [sameRoot, sameOps] at inPlace
    rw [apply]
    rcases immutable with ⟨later, result, ran, tree, denotes, -⟩ | ⟨later, error, refused, none_, -⟩
    · rcases inPlace with ⟨last, owner, ran', tree', owned⟩ | ⟨last, error, -, none'⟩
      · rw [ran, ran']
        rw [tree] at tree'
        refine ⟨result.map snd, stands_map denotes, ?_⟩
        rw [some.inj tree']
        exact stands_map owned
      · rw [tree] at none'
        cases none'
    · rcases inPlace with ⟨last, owner, -, tree', -⟩ | ⟨last, error', refused', -⟩
      · rw [none_] at tree'
        cases tree'
      · rw [refused, refused']
        trivial

def replacementCells : Cells Int :=
  [.obj [(unitsOf "value", .leaf (.num 1))], .obj [(unitsOf "nested", .ref 0)]]

def nestedDoc : Doc Int := .node (.obj [(unitsOf "value", .leaf (.num 1))])

def replacementDoc : Doc Int := .node (.obj [(unitsOf "nested", nestedDoc)])

theorem replacement_denotes : Denotes replacementCells (.ref 1) replacementDoc := by
  have inner : Denotes replacementCells (.ref 0) nestedDoc :=
    .node (.obj [(unitsOf "value", (.leaf (Prim.num 1), .leaf (Prim.num 1)))]) rfl
      (fun child listed => by
        rw [mem_singleton.mp listed]
        exact .leaf (Prim.num 1))
  exact .node (.obj [(unitsOf "nested", (.ref 0, nestedDoc))]) rfl (fun child listed => by
    rw [mem_singleton.mp listed]
    exact inner)

def replacementOps : List (Op (Val Int × Doc Int)) :=
  [.r (.ref 1, replacementDoc),
    .edit [.name (unitsOf "nested"), .name (unitsOf "value")] (.s (.leaf (.num 2), .leaf (.num 2)))]

theorem applyImmutable_agrees_replacement :
    replacementCells <+:
      (applyImmutable replacementCells none (replacementOps.map (Op.map Prod.fst))).1 ∧
    (applyImmutable replacementCells none (replacementOps.map (Op.map Prod.fst))).2 =
      .ok (some (.ref 2)) ∧
    ∃ memory held copies, Unshared memory held copies ∧
      SameOutcome (applyImmutable replacementCells none (replacementOps.map (Op.map Prod.fst)))
        (apply memory (held.map Held.value) (copies.map (Op.map Held.value))) := by
  have payload : ∀ op ∈ replacementOps, ∀ child ∈ op.values,
      Denotes replacementCells child.1 child.2 := by
    intro op listed child inside
    rcases mem_cons.mp listed with rfl | last
    · rw [mem_singleton.mp inside]
      exact replacement_denotes
    · rw [mem_singleton.mp last] at inside
      rw [mem_singleton.mp inside]
      exact .leaf (Prim.num 2)
  obtain ⟨kept, ⟨memory, held, copies, unshared, root, ops⟩, agrees⟩ :=
    applyImmutable_agrees replacementCells none replacementOps nofun payload
  exact ⟨kept, rfl, memory, held, copies, unshared, agrees memory held copies unshared root ops⟩

end Trpi.Chord.Memory
