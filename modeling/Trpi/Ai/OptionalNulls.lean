import Trpi.Library.JsonSchema

/-!
# Nulls of optional properties

`normalizeOptionalNulls` of ai/src/utils/validation.ts. The validator of a schema, if it can be
compiled, is a parameter. What an object inherits are functions, which the walk leaves alone.
-/

namespace Trpi.Ai

open Library

open List hiding lookup
open Json

variable {N : Type}

def stringsOf (keyword : Option (Json N)) : List String :=
  match keyword with
  | some (.arr items) => items.filterMap Json.string?
  | _ => []

def isNull : Json N → Bool
  | .null => true
  | _ => false

def dropsNull (check : Json N → Json N → Option Bool) (required : List String) (name : String)
    (property member : Json N) : Bool :=
  isNull member && name ∉ required && ((property.get? "$ref").bind Json.string?).isNone &&
    check property .null = some false

def normalizeMember (check : Json N → Json N → Option Bool) (required : List String)
    (name : String) (property : Json N) (normalize : Json N → Json N)
    (members : List (String × Json N)) : List (String × Json N) :=
  match lookup name members with
  | none => members
  | some member =>
    if dropsNull check required name property member then
      members.filter fun other => other.1 ≠ name
    else setMembers name (normalize member) members

def normalizeOptionalNulls (check : Json N → Json N → Option Bool) (schema value : Json N) :
    Json N :=
  match schema with
  | .obj kws =>
    match value with
    | .arr items =>
      match isItems : lookup "items" kws with
      | none => value
      | some (.arr schemas) =>
        .arr (items.mapIdx fun index item =>
          if known : index < schemas.length then
            normalizeOptionalNulls check schemas[index] item
          else item)
      | some each => .arr (items.map fun item => normalizeOptionalNulls check each item)
    | .obj members =>
      match isProperties : lookup "properties" kws with
      | some (.obj properties) =>
        .obj (properties.attach.foldl (fun members entry =>
          normalizeMember check (stringsOf (lookup "required" kws)) entry.1.1 entry.1.2
            (fun member => normalizeOptionalNulls check entry.1.2 member) members) members)
      | _ => value
    | _ => value
  | _ => value
termination_by sizeOf schema
decreasing_by
  all_goals simp only [obj.sizeOf_spec]
  · have lt := sizeOf_lookup_items isItems (List.getElem_mem known)
    omega
  · have lt := sizeOf_lookup_lt isItems
    omega
  · have lt := sizeOf_lookup_member isProperties
      (show (entry.1.1, entry.1.2) ∈ properties from entry.2)
    omega

section

variable {check : Json N → Json N → Option Bool} {kws : List (String × Json N)}

theorem normalize_items {each : Json N} (isItems : lookup "items" kws = some each)
    (single : ∀ schemas, each ≠ .arr schemas) (items : List (Json N)) :
    normalizeOptionalNulls check (.obj kws) (.arr items) =
      .arr (items.map (normalizeOptionalNulls check each)) := by
  rw [normalizeOptionalNulls]
  split
  · rename_i none
    rw [isItems] at none
    cases none
  · rename_i schemas isTuple
    rw [isItems] at isTuple
    exact absurd (Option.some.inj isTuple) (single schemas)
  · rename_i other _ isOther
    rw [isItems] at isOther
    cases isOther
    rfl

theorem normalize_no_items (none : lookup "items" kws = none) (items : List (Json N)) :
    normalizeOptionalNulls check (.obj kws) (.arr items) = .arr items := by
  rw [normalizeOptionalNulls]
  split
  · rfl
  · rename_i schemas isTuple
    rw [none] at isTuple
    cases isTuple
  · rename_i other _ isOther
    rw [none] at isOther
    cases isOther

variable {properties members : List (String × Json N)}

theorem normalize_members (isProperties : lookup "properties" kws = some (.obj properties))
    (members : List (String × Json N)) :
    normalizeOptionalNulls check (.obj kws) (.obj members) =
      .obj (properties.foldl (fun members e =>
        normalizeMember check (stringsOf (lookup "required" kws)) e.1 e.2
          (normalizeOptionalNulls check e.2) members) members) := by
  rw [normalizeOptionalNulls]
  split
  · rename_i other isOther
    rw [isProperties] at isOther
    cases isOther
    rw [← foldl_attach (l := properties)]
  · rename_i absurd
    exact (absurd _ isProperties).elim

theorem normalize_no_properties
    (none : ∀ properties, lookup "properties" kws ≠ some (.obj properties))
    (members : List (String × Json N)) :
    normalizeOptionalNulls check (.obj kws) (.obj members) = .obj members := by
  rw [normalizeOptionalNulls]
  split
  · rename_i properties isProperties
    exact absurd isProperties (none properties)
  · rfl

/-- What is no array and no object stays. -/
theorem normalize_plain (schema : Json N) {v : Json N} (noItems : ∀ items, v ≠ .arr items)
    (noMembers : ∀ members, v ≠ .obj members) : normalizeOptionalNulls check schema v = v := by
  unfold normalizeOptionalNulls
  split
  · split
    · exact absurd rfl (noItems _)
    · exact absurd rfl (noMembers _)
    · rfl
  · rfl

theorem normalize_arr (check : Json N → Json N → Option Bool) (schema : Json N)
    (items : List (Json N)) :
    ∃ others, normalizeOptionalNulls check schema (.arr items) = .arr others := by
  cases schema with
  | obj kws =>
    rw [normalizeOptionalNulls]
    split <;> exact ⟨_, rfl⟩
  | _ =>
    rw [normalizeOptionalNulls]
    · exact ⟨_, rfl⟩
    · simp

theorem normalize_obj (check : Json N → Json N → Option Bool) (schema : Json N)
    (members : List (String × Json N)) :
    ∃ others, normalizeOptionalNulls check schema (.obj members) = .obj others := by
  cases schema with
  | obj kws =>
    rw [normalizeOptionalNulls]
    split <;> exact ⟨_, rfl⟩
  | _ =>
    rw [normalizeOptionalNulls]
    · exact ⟨_, rfl⟩
    · simp

variable {required : List String}

/-- What becomes of one member of an object. -/
def normalizedMember (check : Json N → Json N → Option Bool) (required : List String)
    (normalize : Json N → Json N → Json N) (properties : List (String × Json N))
    (member : String × Json N) : Option (String × Json N) :=
  match lookup member.1 properties with
  | none => some member
  | some property =>
    if dropsNull check required member.1 property member.2 then none
    else some (member.1, normalize property member.2)

theorem names_filterMap {f : String × Json N → Option (String × Json N)}
    (kept : ∀ mem other, f mem = some other → other.1 = mem.1)
    (names : (members.map Prod.fst).Nodup) : ((members.filterMap f).map Prod.fst).Nodup := by
  refine names.sublist ?_
  induction members with
  | nil => exact List.Sublist.slnil
  | cons mem rest ih =>
    rw [map_cons, nodup_cons] at names
    rw [filterMap_cons]
    split
    · exact (ih names.2).cons _
    · rename_i other same
      rw [map_cons, map_cons, kept mem other same]
      exact (ih names.2).cons_cons _

theorem normalizedMember_name {normalize : Json N → Json N → Json N} {mem other : String × Json N}
    (same : normalizedMember check required normalize properties mem = some other) :
    other.1 = mem.1 := by
  unfold normalizedMember at same
  split at same
  · cases same
    rfl
  · split_ifs at same
    cases same
    rfl

theorem normalizeMember_eq (names : (members.map Prod.fst).Nodup) (name : String)
    (property : Json N) (normalize : Json N → Json N → Json N) :
    normalizeMember check required name property (normalize property) members =
      members.filterMap (normalizedMember check required normalize [(name, property)]) := by
  have own : ∀ mem : String × Json N, lookup mem.1 [(name, property)] =
      if name = mem.1 then some property else none := fun mem => rfl
  unfold normalizeMember
  cases found : lookup name members with
  | none =>
    refine ((filterMap_congr fun mem inside => ?_).trans filterMap_some).symm
    rw [normalizedMember, own, if_neg]
    rintro rfl
    rw [lookup_of_mem names (show (mem.1, mem.2) ∈ members from inside)] at found
    cases found
  | some v =>
    have single : ∀ mem ∈ members, name = mem.1 → mem.2 = v := by
      intro mem inside same
      have here := lookup_of_mem names (show (name, mem.2) ∈ members from same ▸ inside)
      rw [found] at here
      exact (Option.some.inj here).symm
    dsimp only
    split_ifs with drops
    · rw [← filterMap_eq_filter]
      refine filterMap_congr fun mem inside => ?_
      rw [normalizedMember, own]
      by_cases same : name = mem.1
      · rw [if_pos same]
        dsimp only
        rw [single mem inside same, ← same, if_pos drops]
        exact if_neg (by simpa using same.symm)
      · rw [if_neg same]
        simp [Option.guard, Ne.symm same]
    · rw [setMembers, if_pos (any_eq_true.mpr ⟨_, lookup_mem found, by simp⟩), ← filterMap_eq_map]
      refine filterMap_congr fun mem inside => ?_
      rw [normalizedMember, own]
      by_cases same : name = mem.1
      · rw [if_pos same]
        dsimp only
        rw [single mem inside same, ← same, if_neg drops]
        simp [same]
      · rw [if_neg same]
        simp [Ne.symm same]

theorem normalizeMembers_eq (distinct : (properties.map Prod.fst).Nodup)
    (names : (members.map Prod.fst).Nodup) (normalize : Json N → Json N → Json N) :
    properties.foldl (fun members e =>
        normalizeMember check required e.1 e.2 (normalize e.2) members) members =
      members.filterMap (normalizedMember check required normalize properties) := by
  induction properties generalizing members with
  | nil => exact (filterMap_some (l := members)).symm
  | cons e rest ih =>
    obtain ⟨name, property⟩ := e
    rw [map_cons, nodup_cons] at distinct
    rw [foldl_cons, normalizeMember_eq names]
    rw [ih distinct.2 (names_filterMap (fun _ _ => normalizedMember_name) names),
      filterMap_filterMap]
    refine filterMap_congr fun mem inside => ?_
    have apart : lookup name rest = none := lookup_eq_none fun other isOther same =>
      distinct.1 (mem_map.mpr ⟨other, isOther, same⟩)
    by_cases same : name = mem.1
    · subst same
      have alone : lookup mem.1 [(mem.1, property)] = some property := if_pos rfl
      have whole : lookup mem.1 ((mem.1, property) :: rest) = some property := by
        rw [lookup, apart]
        exact if_pos rfl
      simp only [normalizedMember, alone, whole]
      split_ifs
      · rfl
      · simp only [Option.bind_some, normalizedMember, apart]
    · have alone : lookup mem.1 [(name, property)] = none := if_neg same
      have whole : lookup mem.1 ((name, property) :: rest) = lookup mem.1 rest := by
        rw [lookup, if_neg same]
        cases lookup mem.1 rest <;> rfl
      simp only [normalizedMember, alone, whole, Option.bind_some]

end

end Trpi.Ai
