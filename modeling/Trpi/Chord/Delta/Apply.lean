import Trpi.Chord.Delta.Op
import Trpi.Library.ObjectHeap
import Trpi.Library.Utf16

/-!
# Applying operations

`apply` and `applyImmutable` of chord/src/delta/index.ts on containers in memory. Strings are
sequences of 16-bit units. An object has its members in the order they were defined. What
`assertValidOp` refuses by its shape, by a negative or by a fractional number, is `malformed`.
-/

namespace Trpi.Chord.Memory

open Library Container
open List hiding map

abbrev Units := Utf16.Units

def unitsOf (text : String) : Units := Utf16.units text.toList

instance : PropertyName Units where
  ofIndex position := unitsOf (toString position)

inductive Prim (N : Type) where
  | null
  | bool (flag : Bool)
  | num (number : N)
  | str (text : Units)

abbrev Seg := Slot Units

abbrev Path := List Seg

abbrev Val (N : Type) := Value (Prim N)

abbrev Cells (N : Type) := Heap Units (Prim N)

inductive Edit (V : Type) where
  | s (value : V)
  | d
  | a (text : Units)
  | t (count : Nat)
  | p (index remove : Nat) (items : List V)

inductive Op (V : Type) where
  | r (value : V)
  | edit (path : Path) (edit : Edit V)
  | malformed

/-- `TypeError`, `UnsafePathError` and `PathError`. -/
inductive ApplyError where
  | shape
  | unsafeSegment (segment : Seg)
  | unresolvable (path : Path)

def Seg.safe : Seg → Bool
  | .name name => name ∉ Delta.reservedSegments.map unitsOf
  | .index _ => true

def assertSafePath : Path → Except ApplyError Unit
  | [] => .ok ()
  | segment :: rest =>
    if Seg.safe segment then assertSafePath rest else .error (.unsafeSegment segment)

def assertValidOp {V : Type} : Op V → Except ApplyError Unit
  | .r _ => .ok ()
  | .edit path (.p _ _ _) => assertSafePath path
  | .edit [] _ => .error .shape
  | .edit path _ => assertSafePath path
  | .malformed => .error .shape

/-- `assertIndexInRange`, and the type of the segment before it. -/
def assertKey {α : Type} (parent : Container Units α) (key : Seg) : Except ApplyError Unit :=
  match parent, key with
  | .arr items, .index position =>
    if position > items.length then .error (.unsafeSegment key) else .ok ()
  | .arr _, .name _ => .error (.unsafeSegment key)
  | .obj _, _ => .ok ()

/-- `Array.prototype.splice`. -/
def splice {α : Type} (target : List α) (index remove : Nat) (items : List α) : List α :=
  target.take index ++ items ++ target.drop (index + remove)

def chunkSize : Nat := 10000

def insertChunks {α : Type} (target : List α) (index : Nat) (items : List α) : List α :=
  if empty : items = [] then target
  else
    have : items.length - chunkSize < items.length :=
      Nat.sub_lt (List.length_pos_iff.mpr empty) (by decide)
    insertChunks (splice target index 0 (items.take chunkSize)) (index + chunkSize)
      (items.drop chunkSize)
termination_by items.length

section

variable {α : Type} (text? : α → Option Units) (ofText : Units → α)

/-- What `s`, `d`, `a` and `t` make of the container they address. -/
def editMember (path : Path) (parent : Container Units α) (key : Seg) :
    Edit α → Except ApplyError (Container Units α)
  | .s value => .ok (parent.put key value)
  | .d =>
    match parent.isArray, parent.get? key with
    | true, none => .error (.unresolvable path)
    | _, _ => .ok (parent.erase key)
  | .a text =>
    match (parent.get? key).bind text? with
    | some current => .ok (parent.put key (ofText (current ++ text)))
    | none => .error (.unresolvable path)
  | .t count =>
    match (parent.get? key).bind text? with
    | some current => .ok (parent.put key (ofText (current.drop count)))
    | none => .error (.unresolvable path)
  | .p _ _ _ => .error .shape

/-- What `p` makes of the array it addresses. -/
def spliceArray (path : Path) (index remove : Nat) (items : List α) :
    Container Units α → Except ApplyError (Container Units α)
  | .arr target => .ok (.arr (insertChunks (splice target index remove []) index items))
  | .obj _ => .error (.unresolvable path)

/-- What an operation makes of the container at its path, or at its parent's path. -/
def editContainer (path : Path) (edit : Edit α) (container : Container Units α) :
    Except ApplyError (Container Units α) :=
  match edit, path.getLast? with
  | .p index remove items, _ => spliceArray path index remove items container
  | edit, some key => do
    assertKey container key
    editMember text? ofText path container key edit
  | _, none => .error .shape

end

def containerPath {V : Type} (path : Path) : Edit V → Path
  | .p _ _ _ => path
  | _ => path.dropLast

section

variable {N : Type}

def Val.text? : Val N → Option Units
  | .leaf (.str text) => some text
  | _ => none

def Val.ofText (text : Units) : Val N := .leaf (.str text)

/-- `isObj`, with what the object holds. -/
def cell (heap : Cells N) : Option (Val N) → Option (Nat × Container Units (Val N))
  | some (.ref address) => (heap[address]?).map fun container => (address, container)
  | _ => none

def resolveValue (heap : Cells N) (path : Path) :
    Option (Val N) → Path → Except ApplyError (Option (Val N))
  | node, [] => .ok node
  | node, segment :: rest =>
    match cell heap node with
    | none => .error (.unresolvable path)
    | some (_, container) =>
      match container.isArray, segment, container.get? segment with
      | true, .name _, _ => .error (.unsafeSegment segment)
      | _, _, none => .error (.unresolvable path)
      | _, _, some child => resolveValue heap path (some child) rest

def resolve (heap : Cells N) (root : Option (Val N)) (path : Path) :
    Except ApplyError (Nat × Container Units (Val N)) := do
  let node ← resolveValue heap path root path
  match cell heap node with
  | some found => .ok found
  | none => .error (.unresolvable path)

/-- One turn of `applyOps`. All of its checks come before its write. -/
def applyOp (heap : Cells N) (root : Option (Val N)) (op : Op (Val N)) :
    Except ApplyError (Cells N × Option (Val N)) := do
  assertValidOp op
  match op with
  | .r value => .ok (heap, some value)
  | .malformed => .error .shape
  | .edit path edit =>
    let (address, container) ← resolve heap root (containerPath path edit)
    let written ← editContainer Val.text? Val.ofText path edit container
    .ok (heap.set address written, root)

/-- The memory is what it is when the loop ends or throws. -/
def applyOps (heap : Cells N) (root : Option (Val N)) :
    List (Op (Val N)) → Cells N × Except ApplyError (Option (Val N))
  | [] => (heap, .ok root)
  | op :: ops =>
    match applyOp heap root op with
    | .ok (heap, root) => applyOps heap root ops
    | .error error => (heap, .error error)

def apply (heap : Cells N) (root : Option (Val N)) (ops : List (Op (Val N))) :
    Cells N × Except ApplyError (Option (Val N)) :=
  applyOps heap root ops

/-- `Object.hasOwn`: an array also has its indices as names, and its length. -/
def hasOwn (container : Container Units (Val N)) (segment : Seg) : Bool :=
  match container, segment with
  | .arr items, .name name =>
    name = unitsOf "length" ||
      (List.range items.length).any fun position => name = PropertyName.ofIndex position
  | container, segment => (container.get? segment).isSome

/-- The loop of `copyContainers`: from each container on the path to the next. -/
def copyAlong (path : Path) : Path → Cells N → Val N → Nat → Cells N × Except ApplyError Unit
  | [], heap, _, _ => (heap, .ok ())
  | segment :: rest, heap, source, destination =>
    match cell heap (some source) with
    | none => (heap, .error (.unresolvable path))
    | some (_, container) =>
      if hasOwn container segment then
        match container.isArray, segment, container.get? segment with
        | true, .name _, _ => (heap, .error (.unsafeSegment segment))
        | _, _, none => (heap, .error (.unresolvable path))
        | _, _, some child =>
          match cell heap (some child) with
          | none => (heap, .error (.unresolvable path))
          | some (_, copied) =>
            let copiedChild := heap.length
            let heap := (heap ++ [copied]).modify destination fun target =>
              target.put segment (.ref copiedChild)
            copyAlong path rest heap child copiedChild
      else (heap, .error (.unresolvable path))

def copyContainers (heap : Cells N) (root : Option (Val N)) (path : Path) :
    Cells N × Except ApplyError (Option (Val N)) :=
  match root, cell heap root with
  | some source, some (_, container) =>
    let copiedRoot := heap.length
    match copyAlong path path (heap ++ [container]) source copiedRoot with
    | (heap, .ok ()) => (heap, .ok (some (.ref copiedRoot)))
    | (heap, .error error) => (heap, .error error)
  | _, _ => (heap, .error (.unresolvable path))

def applyImmutable (heap : Cells N) (root : Option (Val N)) :
    List (Op (Val N)) → Cells N × Except ApplyError (Option (Val N))
  | [] => (heap, .ok root)
  | .r value :: ops => applyImmutable heap (some value) ops
  | .malformed :: _ => (heap, .error .shape)
  | .edit path edit :: ops =>
    match copyContainers heap root (containerPath path edit) with
    | (heap, .error error) => (heap, .error error)
    | (heap, .ok root) =>
      match applyOps heap root [.edit path edit] with
      | (heap, .error error) => (heap, .error error)
      | (heap, .ok root) => applyImmutable heap root ops

end

/-!
## What an edit does to a container

An edit of a container does the same to values, to the trees they stand for, and to both together.
-/

theorem splice_splice {α : Type} (target : List α) (i : Nat) (first second : List α) :
    splice (splice target i 0 first) (i + first.length) 0 second =
      splice target i 0 (first ++ second) := by
  simp only [splice, Nat.add_zero]
  by_cases inside : i ≤ target.length
  · have front : (target.take i ++ first).length = i + first.length := by
      rw [length_append, length_take, Nat.min_eq_left inside]
    rw [← front, take_left, drop_left, append_assoc (target.take i)]
  · -- past the end of the target every position is its end
    have whole : target.take i = target := take_of_length_le (by omega)
    have none_ : target.drop i = [] := drop_of_length_le (by omega)
    have long : (target ++ first).length ≤ i + first.length := by
      rw [length_append]
      omega
    rw [whole, none_, append_nil, take_of_length_le long, drop_of_length_le long,
      append_nil, append_assoc, append_nil]

/-- Inserting in chunks is inserting at once. -/
theorem insertChunks_eq {α : Type} (target : List α) (i : Nat) (items : List α) :
    insertChunks target i items = splice target i 0 items := by
  fun_induction insertChunks target i items with
  | case1 target i => simp [splice]
  | case2 target i items nonempty smaller ih =>
    rw [ih]
    by_cases short : items.length ≤ chunkSize
    · rw [take_of_length_le short, drop_of_length_le short]
      simp only [splice, Nat.add_zero, append_nil, take_append_drop]
    · have full : (items.take chunkSize).length = chunkSize := by
        rw [length_take]
        omega
      have joined := splice_splice target i (items.take chunkSize) (items.drop chunkSize)
      rw [full, take_append_drop] at joined
      exact joined

section

variable {α β : Type} {textOf : α → Option Units} {ofText : Units → α} {edit : Edit α} {path : Path}

namespace Edit

def map (f : α → β) : Edit α → Edit β
  | .s value => .s (f value)
  | .d => .d
  | .a text => .a text
  | .t count => .t count
  | .p index remove items => .p index remove (items.map f)

/-- The payload. -/
def values : Edit α → List α
  | .s value => [value]
  | .p _ _ items => items
  | _ => []

end Edit

namespace Op

def map (f : α → β) : Op α → Op β
  | .r value => .r (f value)
  | .edit path change => .edit path (change.map f)
  | .malformed => .malformed

def values : Op α → List α
  | .r value => [value]
  | .edit _ change => change.values
  | .malformed => []

end Op

@[simp] theorem containerPath_map (f : α → β) (path : Path) (edit : Edit α) :
    containerPath path (edit.map f) = containerPath path edit := by
  cases edit <;> rfl

@[simp] theorem assertValidOp_map (f : α → β) (op : Op α) :
    assertValidOp (op.map f) = assertValidOp op := by
  cases op with
  | r v => rfl
  | malformed => rfl
  | edit path edit =>
    cases edit with
    | p i remove items => rfl
    | s v => cases path <;> rfl
    | d => cases path <;> rfl
    | a text => cases path <;> rfl
    | t count => cases path <;> rfl

theorem assertKey_map (f : α → β) (c : Container Units α) (key : Seg) :
    assertKey (c.map f) key = assertKey c key := by
  cases c with
  | arr items =>
    cases key with
    | name name => rfl
    | index position => simp [map, assertKey]
  | obj members => rfl

theorem splice_map (f : α → β) (target : List α) (i remove : Nat) (items : List α) :
    splice (target.map f) i remove (items.map f) = (splice target i remove items).map f := by
  simp [splice]

theorem spliceArray_map (f : α → β) (path : Path) (i remove : Nat) (items : List α)
    (c : Container Units α) :
    spliceArray path i remove (items.map f) (c.map f) =
      (spliceArray path i remove items c).map (map f) := by
  cases c with
  | arr target =>
    have cut := splice_map f target i remove []
    rw [map_nil] at cut
    rw [map, spliceArray, spliceArray, insertChunks_eq, insertChunks_eq, cut, splice_map]
    rfl
  | obj members => rfl

section

variable {textOf : α → Option Units} {ofText : Units → α} {textOf' : β → Option Units}
  {ofText' : Units → β} {f : α → β} {c : Container Units α}

theorem text_map (texts : ∀ v ∈ c.values, textOf' (f v) = textOf v)
    (key : Seg) : ((c.map f).get? key).bind textOf' = (c.get? key).bind textOf := by
  rw [get?_map]
  cases found : c.get? key with
  | none => rfl
  | some v => exact texts v (mem_of_get? found)

section

variable (leaves : ∀ text, f (ofText text) = ofText' text)
  (texts : ∀ v ∈ c.values, textOf' (f v) = textOf v) (path : Path)

include leaves texts

theorem editMember_map (key : Seg) (edit : Edit α) :
    editMember textOf' ofText' path (c.map f) key (edit.map f) =
      (editMember textOf ofText path c key edit).map (map f) := by
  cases edit with
  | s v => exact congrArg Except.ok (put_map f c key v)
  | d =>
    simp only [Edit.map, editMember, isArray_map, get?_map, erase_map]
    cases c.isArray <;> cases c.get? key <;> rfl
  | a text =>
    simp only [Edit.map, editMember, text_map texts, ← leaves, put_map]
    cases (c.get? key).bind textOf <;> rfl
  | t count =>
    simp only [Edit.map, editMember, text_map texts, ← leaves, put_map]
    cases (c.get? key).bind textOf <;> rfl
  | p i remove items => rfl

theorem editContainer_map (edit : Edit α) :
    editContainer textOf' ofText' path (edit.map f) (c.map f) =
      (editContainer textOf ofText path edit c).map (map f) := by
  have mem : ∀ key, (do
      assertKey (c.map f) key
      editMember textOf' ofText' path (c.map f) key (edit.map f)) =
      Except.map (map f) (do
        assertKey c key
        editMember textOf ofText path c key edit) := by
    intro key
    rw [assertKey_map, editMember_map leaves texts]
    cases assertKey c key <;> rfl
  cases edit with
  | p i remove items => exact spliceArray_map f path i remove items c
  | s v =>
    unfold editContainer
    cases path.getLast? with
    | none => rfl
    | some key => exact mem key
  | d =>
    unfold editContainer
    cases path.getLast? with
    | none => rfl
    | some key => exact mem key
  | a text =>
    unfold editContainer
    cases path.getLast? with
    | none => rfl
    | some key => exact mem key
  | t count =>
    unfold editContainer
    cases path.getLast? with
    | none => rfl
    | some key => exact mem key

end

end

theorem editMember_values {c written : Container Units α} {key : Seg}
    (edited : editMember textOf ofText path c key edit = .ok written) :
    ∃ extra, written.values <+~ extra ++ c.values ∧
      (extra = edit.values ∨ ∃ text, extra = [ofText text]) := by
  cases edit with
  | s v =>
    cases edited
    exact ⟨[v], put_subperm c key v, .inl rfl⟩
  | d =>
    rw [editMember] at edited
    split at edited
    · cases edited
    · cases edited
      exact ⟨[], erase_subperm c key, .inl rfl⟩
  | a text =>
    rw [editMember] at edited
    split at edited
    · cases edited
      exact ⟨_, put_subperm c key _, .inr ⟨_, rfl⟩⟩
    · cases edited
  | t count =>
    rw [editMember] at edited
    split at edited
    · cases edited
      exact ⟨_, put_subperm c key _, .inr ⟨_, rfl⟩⟩
    · cases edited
  | p i remove items => cases edited

theorem splice_subperm (target : List α) (i remove : Nat) (items : List α) :
    splice target i remove items <+~ items ++ target := by
  have moved : splice target i remove items ~
      items ++ (target.take i ++ target.drop (i + remove)) := by
    rw [splice, append_assoc]
    exact perm_append_comm_assoc _ _ _
  have kept : target.take i ++ target.drop (i + remove) <+ target := by
    have whole := take_append_drop i target
    rw [← drop_drop]
    have shorter := (List.Sublist.refl (target.take i)).append (drop_sublist remove (target.drop i))
    rw [whole] at shorter
    exact shorter
  exact moved.subperm.trans ((List.Sublist.refl items).append kept).subperm

theorem editContainer_values {c written : Container Units α}
    (edited : editContainer textOf ofText path edit c = .ok written) :
    ∃ extra, written.values <+~ extra ++ c.values ∧
      (extra = edit.values ∨ ∃ text, extra = [ofText text]) := by
  unfold editContainer at edited
  split at edited
  · rename_i i remove items
    cases c with
    | arr target =>
      rw [spliceArray, insertChunks_eq] at edited
      cases edited
      refine ⟨items, ?_, .inl rfl⟩
      exact (splice_subperm _ i 0 items).trans ((subperm_append_left items).mpr
        (splice_subperm target i remove []))
    | obj members => cases edited
  · rename_i key last plain
    cases checked : assertKey c key with
    | ok _ =>
      rw [checked] at edited
      exact editMember_values edited
    | error error =>
      rw [checked] at edited
      cases edited
  · cases edited

end

end Trpi.Chord.Memory
