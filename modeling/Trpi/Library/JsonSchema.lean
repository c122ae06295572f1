import Mathlib.Data.List.Nodup
import Trpi.Library.JsonObject

/-!
# Schemas of JSON documents

A schema is a document; keywords that are not well formed say nothing. Which numbers are
integers is a parameter. No name occurs twice in an object of a distinct document.
-/

namespace Trpi.Library.Json

open List

variable {N : Type}

variable {name : String} {v : Json N} {members inner kws : List (String × Json N)}

theorem sizeOf_member_lt (inside : (name, v) ∈ members) : sizeOf v < sizeOf members := by
  have lt := sizeOf_lt_of_mem inside
  rw [Prod.mk.sizeOf_spec] at lt
  omega

theorem lookup_mem (found : lookup name members = some v) : (name, v) ∈ members := by
  induction members with
  | nil => cases found
  | cons mem rest ih =>
    obtain ⟨candidate, other⟩ := mem
    rw [lookup] at found
    split at found
    · rename_i later isLater
      rw [found] at isLater
      exact mem_cons_of_mem _ (ih isLater)
    · split_ifs at found with same
      cases found
      rw [same]
      exact mem_cons_self

theorem sizeOf_lookup_lt (found : lookup name members = some v) :
    sizeOf v < sizeOf members :=
  sizeOf_member_lt (lookup_mem found)

theorem sizeOf_lookup_items {item : Json N} {items : List (Json N)}
    (found : lookup name members = some (.arr items)) (inside : item ∈ items) :
    sizeOf item < sizeOf members := by
  have whole := sizeOf_lookup_lt found
  have part := sizeOf_lt_of_mem inside
  rw [arr.sizeOf_spec] at whole
  omega

theorem sizeOf_lookup_member {key : String} (found : lookup name members = some (.obj inner))
    (inside : (key, v) ∈ inner) : sizeOf v < sizeOf members := by
  have whole := sizeOf_lookup_lt found
  have part := sizeOf_member_lt inside
  rw [obj.sizeOf_spec] at whole
  omega

theorem sizeOf_lookup_entry (found : lookup name members = some (.obj inner))
    (e : { e // e ∈ inner }) :
    sizeOf e.1.2 < sizeOf members :=
  sizeOf_lookup_member found (show (e.1.1, e.1.2) ∈ inner from e.2)

/-- The same document, whatever the order of members. -/
inductive Same : Json N → Json N → Prop
  | null : Same .null .null
  | bool (flag : Bool) : Same (.bool flag) (.bool flag)
  | num (number : N) : Same (.num number) (.num number)
  | str (text : String) : Same (.str text) (.str text)
  | arr {items others : List (Json N)} (each : List.Forall₂ Same items others) :
    Same (.arr items) (.arr others)
  | obj {members others : List (String × Json N)}
    (each : ∀ name, Option.Rel Same (lookup name members) (lookup name others)) :
    Same (.obj members) (.obj others)

def hasType (isInteger : N → Bool) (v : Json N) : String → Bool
  | "number" => v.number?.isSome
  | "integer" => v.number?.any isInteger
  | "boolean" => v.bool?.isSome
  | "string" => v.string?.isSome
  | "null" => match v with | .null => true | _ => false
  | "array" => match v with | .arr _ => true | _ => false
  | "object" => v.isObject
  | _ => false

/-- What `type` says. -/
def TypeHolds (isInteger : N → Bool) (keyword : Option (Json N)) (v : Json N) : Prop :=
  match keyword with
  | some (.str type) => v.hasType isInteger type = true
  | some (.arr types) => ∃ type, .str type ∈ types ∧ v.hasType isInteger type = true
  | _ => True

/-- What `enum` and `const` say. -/
def ValueHolds (enum const : Option (Json N)) (v : Json N) : Prop :=
  (∀ values, enum = some (.arr values) → ∃ other ∈ values, Same other v) ∧
    ∀ other, const = some other → Same other v

/-- What `required`, `minProperties` and `dependentRequired` say of the names of an object. -/
def NamesHold [JsonNumber N] (kws : List (String × Json N)) (names : List String) : Prop :=
  (∀ required, lookup "required" kws = some (.arr required) →
    ∀ name, .str name ∈ required → name ∈ names) ∧
  (∀ number, lookup "minProperties" kws = some number → ∀ least, number.nat? = some least →
    least ≤ names.length) ∧
  ∀ dependents, lookup "dependentRequired" kws = some (.obj dependents) →
    ∀ name needed, (name, .arr needed) ∈ dependents → name ∈ names →
      ∀ other, .str other ∈ needed → other ∈ names

/-- The names that `properties` has. -/
def propertyNames (kws : List (String × Json N)) : List String :=
  match lookup "properties" kws with
  | some (.obj properties) => properties.map Prod.fst
  | _ => []

/-- A value is valid under a schema. -/
def Valid [JsonNumber N] (isInteger : N → Bool) (schema v : Json N) : Prop :=
  match schema with
  | .bool flag => flag = true
  | .obj kws =>
    TypeHolds isInteger (lookup "type" kws) v ∧
    ValueHolds (lookup "enum" kws) (lookup "const" kws) v ∧
    (∀ nested, (isAll : lookup "allOf" kws = some (.arr nested)) →
      ∀ other, (inside : other ∈ nested) → Valid isInteger other v) ∧
    (∀ variants, (isAny : lookup "anyOf" kws = some (.arr variants)) →
      ∃ variant, ∃ (inside : variant ∈ variants), Valid isInteger variant v) ∧
    (∀ variants, (isOne : lookup "oneOf" kws = some (.arr variants)) →
      ∃ index, ∃ (within : index < variants.length),
        Valid isInteger variants[index] v ∧
        ∀ other, (elsewhere : other < variants.length) → other ≠ index →
          ¬Valid isInteger variants[other] v) ∧
    (∀ items, v = .arr items →
      (∀ schemas, (isTuple : lookup "items" kws = some (.arr schemas)) →
        ∀ index, (known : index < schemas.length) → ∀ item, items[index]? = some item →
          Valid isInteger schemas[index] item) ∧
      ∀ each, (isItems : lookup "items" kws = some each) → (∀ schemas, each ≠ .arr schemas) →
        ∀ item ∈ items, Valid isInteger each item) ∧
    ∀ members, v = .obj members →
      NamesHold kws (members.map Prod.fst) ∧
      (∀ properties, (isProperties : lookup "properties" kws = some (.obj properties)) →
        ∀ name property, (inside : (name, property) ∈ properties) →
          ∀ member, (name, member) ∈ members → Valid isInteger property member) ∧
      ∀ additional, (isAdditional : lookup "additionalProperties" kws = some additional) →
        ∀ name member, (name, member) ∈ members → name ∉ propertyNames kws →
          Valid isInteger additional member
  | _ => False
termination_by sizeOf schema
decreasing_by
  all_goals simp only [obj.sizeOf_spec]
  · have lt := sizeOf_lookup_items isAll inside
    omega
  · have lt := sizeOf_lookup_items isAny inside
    omega
  · have lt := sizeOf_lookup_items isOne (List.getElem_mem within)
    omega
  · have lt := sizeOf_lookup_items isOne (List.getElem_mem elsewhere)
    omega
  · have lt := sizeOf_lookup_items isTuple (List.getElem_mem known)
    omega
  · have lt := sizeOf_lookup_lt isItems
    omega
  · have lt := sizeOf_lookup_member isProperties inside
    omega
  · have lt := sizeOf_lookup_lt isAdditional
    omega

/-- What `items` says of an array. -/
def ItemsHold (valid : Json N → Json N → Prop) (keyword : Option (Json N)) (v : Json N) :
    Prop :=
  ∀ items, v = .arr items →
    (∀ schemas, keyword = some (.arr schemas) →
      ∀ index, (known : index < schemas.length) → ∀ item, items[index]? = some item →
        valid schemas[index] item) ∧
    ∀ each, keyword = some each → (∀ schemas, each ≠ .arr schemas) → ∀ item ∈ items, valid each item

/-- What is said of the members of an object. -/
def MembersHold [JsonNumber N] (valid : Json N → Json N → Prop) (kws : List (String × Json N))
    (v : Json N) : Prop :=
  ∀ members, v = .obj members →
    NamesHold kws (members.map Prod.fst) ∧
    (∀ properties, lookup "properties" kws = some (.obj properties) →
      ∀ name property, (name, property) ∈ properties →
        ∀ member, (name, member) ∈ members → valid property member) ∧
    ∀ additional, lookup "additionalProperties" kws = some additional →
      ∀ name member, (name, member) ∈ members → name ∉ propertyNames kws → valid additional member

/-- What `anyOf` says. -/
def AnyHolds (valid : Json N → Prop) (keyword : Option (Json N)) : Prop :=
  ∀ variants, keyword = some (.arr variants) → ∃ variant ∈ variants, valid variant

section

variable [JsonNumber N] {isInteger : N → Bool} {kws : List (String × Json N)} {v : Json N}

/-- Keyword by keyword, where all variants of `oneOf` and parts of `allOf` are left out. -/
theorem valid_obj (all : lookup "allOf" kws = none) (one : lookup "oneOf" kws = none) :
    Valid isInteger (.obj kws) v ↔
      TypeHolds isInteger (lookup "type" kws) v ∧
      ValueHolds (lookup "enum" kws) (lookup "const" kws) v ∧
      AnyHolds (fun variant => Valid isInteger variant v) (lookup "anyOf" kws) ∧
      ItemsHold (Valid isInteger) (lookup "items" kws) v ∧ MembersHold (Valid isInteger) kws v := by
  rw [Valid]
  refine and_congr_right' (and_congr_right' ?_)
  constructor
  · rintro ⟨-, anyOf, -, items, members⟩
    refine ⟨fun variants isAny => ?_, items, members⟩
    obtain ⟨variant, inside, valid⟩ := anyOf variants isAny
    exact ⟨variant, inside, valid⟩
  · rintro ⟨anyOf, items, members⟩
    refine ⟨fun nested isAll => ?_, fun variants isAny => ?_, fun variants isOne => ?_, items, members⟩
    · rw [all] at isAll
      cases isAll
    · obtain ⟨variant, inside, valid⟩ := anyOf variants isAny
      exact ⟨variant, inside, valid⟩
    · rw [one] at isOne
      cases isOne

theorem valid_bool (flag : Bool) : Valid isInteger (.bool flag) v ↔ flag = true := by
  rw [Valid]

end

def schemaKeywords : List String := [
  "type",
  "properties",
  "required",
  "additionalProperties",
  "items", "anyOf", "enum", "const", "minProperties", "dependentRequired"]

/-- A schema over these keywords. -/
inductive Plain : Json N → Prop
  | bool (flag : Bool) : Plain (.bool flag)
  | obj {kws : List (String × Json N)}
    (known : ∀ key keyword, (key, keyword) ∈ kws → key ∈ schemaKeywords)
    (items : ∀ each, lookup "items" kws = some each → Plain each)
    (properties : ∀ properties, lookup "properties" kws = some (.obj properties) →
      ∀ name property, (name, property) ∈ properties → Plain property)
    (additional : ∀ keyword, lookup "additionalProperties" kws = some keyword → Plain keyword)
    (anyOf : ∀ variants, lookup "anyOf" kws = some (.arr variants) →
      ∀ variant ∈ variants, Plain variant) : Plain (.obj kws)

theorem Plain.items (plain : Plain (.obj kws)) {each : Json N}
    (isItems : lookup "items" kws = some each) : Plain each := by
  cases plain with
  | obj _ items => exact items each isItems

theorem Plain.property {properties : List (String × Json N)} (plain : Plain (.obj kws))
    (isProperties : lookup "properties" kws = some (.obj properties)) {property : Json N}
    (isProperty : (name, property) ∈ properties) : Plain property := by
  cases plain with
  | obj _ _ each => exact each properties isProperties name property isProperty

inductive Distinct : Json N → Prop
  | null : Distinct .null
  | bool (flag : Bool) : Distinct (.bool flag)
  | num (number : N) : Distinct (.num number)
  | str (text : String) : Distinct (.str text)
  | arr {items : List (Json N)} (each : ∀ item ∈ items, Distinct item) : Distinct (.arr items)
  | obj {members : List (String × Json N)} (names : (members.map Prod.fst).Nodup)
    (each : ∀ name member, (name, member) ∈ members → Distinct member) : Distinct (.obj members)

theorem Distinct.item {items : List (Json N)} (distinct : Distinct (.arr items)) {item : Json N}
    (inside : item ∈ items) : Distinct item := by
  cases distinct with
  | arr each => exact each item inside

theorem Distinct.names (distinct : Distinct (.obj members)) : (members.map Prod.fst).Nodup := by
  cases distinct with
  | obj names each => exact names

theorem Distinct.member (distinct : Distinct (.obj members)) {member : Json N}
    (inside : (name, member) ∈ members) : Distinct member := by
  cases distinct with
  | obj names each => exact each name member inside

theorem lookup_of_mem (names : (members.map Prod.fst).Nodup) {member : Json N}
    (inside : (name, member) ∈ members) : lookup name members = some member := by
  induction members with
  | nil => cases inside
  | cons first rest ih =>
    obtain ⟨candidate, v⟩ := first
    rw [map_cons, nodup_cons] at names
    rw [lookup]
    rcases mem_cons.mp inside with same | later
    · cases same
      rw [lookup_eq_none fun other isOther same =>
        names.1 (mem_map.mpr ⟨other, isOther, same⟩)]
      simp
    · rw [ih names.2 later]

theorem setMembers_self (names : (members.map Prod.fst).Nodup)
    (found : lookup name members = some v) : setMembers name v members = members := by
  have inside := lookup_mem found
  rw [setMembers, if_pos (any_eq_true.mpr ⟨_, inside, by simp⟩)]
  refine (map_congr_left fun mem isMember => ?_).trans (map_id' members)
  split_ifs with same
  · have own := lookup_of_mem names (show (name, mem.2) ∈ members from same ▸ isMember)
    rw [found] at own
    rw [Option.some.inj own, ← same]
  · rfl

end Trpi.Library.Json
