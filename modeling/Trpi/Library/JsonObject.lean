import Trpi.Library.Json

/-!
# Objects as values

Members are replaced where they stand or added at the end, deleted, or put together from
values that may be undefined; an undefined member is no member. A document is truthy as in a
condition.
-/

namespace Trpi.Library.Json

open List

variable {N : Type}

def setMembers (name : String) (value : Json N) (members : List (String × Json N)) :
    List (String × Json N) :=
  if members.any fun member => member.1 = name then
    members.map fun member => if member.1 = name then (name, value) else member
  else members ++ [(name, value)]

/-- `{ ...document, name: value }`; what is no object is left alone. -/
def setMember (document : Json N) (name : String) (value : Json N) : Json N :=
  match document with
  | .obj members => .obj (setMembers name value members)
  | other => other

def deleteMember (document : Json N) (name : String) : Json N :=
  match document with
  | .obj members => .obj (members.filter fun member => member.1 ≠ name)
  | other => other

/-- An object of the members that are defined. -/
def ofMembers (members : List (String × Option (Json N))) : Json N :=
  .obj (members.filterMap fun member => member.2.map fun value => (member.1, value))

def isObject : Json N → Bool
  | .obj _ => true
  | _ => false

def truthy [JsonNumber N] : Json N → Bool
  | .null => false
  | .bool flag => flag
  | .num number => JsonNumber.toNat? number ≠ some 0
  | .str text => text ≠ ""
  | .arr _ => true
  | .obj _ => true

variable {name : String} {document : Json N} {members : List (String × Json N)}

theorem lookup_map_other {other : String} (apart : name ≠ other) (v : Json N)
    (members : List (String × Json N)) :
    lookup other (members.map fun mem => if mem.1 = name then (name, v) else mem) =
      lookup other members := by
  induction members with
  | nil => rfl
  | cons mem rest ih =>
    rw [map_cons]
    by_cases same : mem.1 = name
    · rw [if_pos same, lookup, lookup, ih, same, if_neg apart, if_neg apart]
    · rw [if_neg same, lookup, lookup, ih]

theorem lookup_map_self (v : Json N) (present : members.any fun mem => mem.1 = name) :
    lookup name (members.map fun mem => if mem.1 = name then (name, v) else mem) = some v := by
  induction members with
  | nil => cases present
  | cons mem rest ih =>
    rw [map_cons]
    by_cases later : rest.any fun mem => mem.1 = name
    · by_cases same : mem.1 = name
      · rw [if_pos same, lookup, ih later]
      · rw [if_neg same, lookup, ih later]
    · have same : mem.1 = name := by
        rw [any_cons, Bool.or_eq_true] at present
        exact of_decide_eq_true (present.resolve_right later)
      have absent : lookup name
          (rest.map fun mem => if mem.1 = name then (name, v) else mem) = none := by
        rw [lookup_eq_none]
        intro other inside
        obtain ⟨old, member_, rfl⟩ := mem_map.mp inside
        have apart : old.1 ≠ name := by
          intro same
          exact later (any_eq_true.mpr ⟨old, member_, decide_eq_true same⟩)
        rw [if_neg apart]
        exact apart
      rw [if_pos same, lookup, absent]
      simp

theorem lookup_setMembers (name other : String) (v : Json N) (members : List (String × Json N)) :
    lookup other (setMembers name v members) =
      if name = other then some v else lookup other members := by
  rw [setMembers]
  by_cases same : name = other
  · subst same
    rw [if_pos rfl]
    split
    · rename_i present
      exact lookup_map_self v present
    · rw [lookup_append]
      simp [lookup]
  · rw [if_neg same]
    split
    · exact lookup_map_other same v members
    · rw [lookup_append]
      simp [lookup, same]

theorem exists_lookup {member : String × Json N}
    (inside : member ∈ members) : ∃ v, lookup member.1 members = some v := by
  induction members with
  | nil => cases inside
  | cons first rest ih =>
    rw [lookup]
    rcases mem_cons.mp inside with rfl | later
    · cases lookup member.1 rest with
      | some v => exact ⟨v, rfl⟩
      | none => exact ⟨member.2, if_pos rfl⟩
    · obtain ⟨v, found⟩ := ih later
      rw [found]
      exact ⟨v, rfl⟩

theorem get?_setMember (object : document.isObject = true) (name other : String) (v : Json N) :
    (document.setMember name v).get? other =
      if name = other then some v else document.get? other := by
  cases document with
  | obj members => exact lookup_setMembers name other v members
  | null => cases object
  | bool flag => cases object
  | num number => cases object
  | str text => cases object
  | arr items => cases object

theorem isObject_setMember (document : Json N) (name : String) (v : Json N) :
    (document.setMember name v).isObject = document.isObject := by
  cases document <;> rfl

theorem lookup_filter (name other : String) (members : List (String × Json N)) :
    lookup other (members.filter fun mem => mem.1 ≠ name) =
      if name = other then none else lookup other members := by
  induction members with
  | nil => simp [lookup]
  | cons mem rest ih =>
    by_cases same : mem.1 = name
    · rw [filter_cons_of_neg (by simp [same]), ih]
      by_cases here : name = other
      · rw [if_pos here, if_pos here]
      · rw [if_neg here, if_neg here, lookup]
        cases lookup other rest <;> simp [same, here]
    · rw [filter_cons_of_pos (by simp [same]), lookup, lookup, ih]
      by_cases here : name = other
      · subst here
        simp [same]
      · rw [if_neg here, if_neg here]

theorem get?_deleteMember (document : Json N) (name other : String) :
    (document.deleteMember name).get? other =
      if name = other then none else document.get? other := by
  cases document with
  | obj members => exact lookup_filter name other members
  | null => simp [deleteMember, get?]
  | bool flag => simp [deleteMember, get?]
  | num number => simp [deleteMember, get?]
  | str text => simp [deleteMember, get?]
  | arr items => simp [deleteMember, get?]

theorem truthy_setMember [JsonNumber N] (document : Json N) (name : String) (v : Json N) :
    (document.setMember name v).truthy = document.truthy := by
  cases document <;> rfl

theorem truthy_deleteMember [JsonNumber N] (document : Json N) (name : String) :
    (document.deleteMember name).truthy = document.truthy := by
  cases document <;> rfl

theorem truthy_of_isObject [JsonNumber N] (object : document.isObject = true) :
    document.truthy = true := by
  cases document with
  | obj members => rfl
  | null => cases object
  | bool flag => cases object
  | num number => cases object
  | str text => cases object
  | arr items => cases object

theorem isObject_of_get? {v : Json N} (present : document.get? name = some v) :
    document.isObject = true := by
  cases document with
  | obj members => rfl
  | null => cases present
  | bool flag => cases present
  | num number => cases present
  | str text => cases present
  | arr items => cases present

/-- A member put in again later takes the place of the earlier one. -/
theorem get?_ofMembers_cons (name : String) (member : String × Option (Json N))
    (members : List (String × Option (Json N))) :
    (ofMembers (member :: members)).get? name =
      ((ofMembers members).get? name).or (if member.1 = name then member.2 else none) := by
  rcases member with ⟨other, v⟩
  cases v with
  | none => simp [ofMembers, get?]
  | some v =>
    simp only [ofMembers, get?, filterMap_cons, Option.map_some, lookup]
    cases lookup name (members.filterMap fun member => member.2.map fun v => (member.1, v))
      with
    | none => simp
    | some later => simp

@[simp] theorem isObject_ofMembers (members : List (String × Option (Json N))) :
    (ofMembers members).isObject = true := rfl

@[simp] theorem get?_ofMembers_nil (name : String) :
    (ofMembers ([] : List (String × Option (Json N)))).get? name = none := rfl

theorem get?_eq_none_of_not_object (plain : document.isObject = false) (name : String) :
    document.get? name = none := by
  cases document with
  | obj members => cases plain
  | null => rfl
  | bool flag => rfl
  | num number => rfl
  | str text => rfl
  | arr items => rfl

end Trpi.Library.Json
