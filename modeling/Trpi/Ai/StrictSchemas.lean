import Trpi.Library.Runs
import Trpi.Ai.OptionalNulls

/-!
# Strict schemas of tools

`makeStrictJsonSchema` of ai/src/api/constrained-sampling.ts: each optional property becomes
required and may be null, level by level, or the schema is refused.
-/

namespace Trpi.Ai

open Library Json

open List hiding lookup

variable {N : Type}

def UNSUPPORTED_STRICT_SCHEMA_KEYS : List String := [
  "$ref",
  "$defs",
  "definitions",
  "allOf",
  "oneOf",
  "patternProperties",
  "dependentSchemas",
  "dependencies",
  "unevaluatedProperties",
  "propertyNames",
  "contains",
  "prefixItems",
  "not",
  "if", "then", "else"]

/-- The strings that `type` names. -/
def typeNames (keyword : Option (Json N)) : List String :=
  match keyword with
  | some (.str type) => [type]
  | other => stringsOf other

def isStructuredSchema (schema : Json N) : Bool :=
  match schema with
  | .obj kws =>
    "object" ∈ typeNames (lookup "type" kws) || "array" ∈ typeNames (lookup "type" kws) ||
      (lookup "properties" kws).isSome || (lookup "items" kws).isSome
  | _ => false

/-- The keyword is the string, or an array with it. -/
def namesNull (keyword : Option (Json N)) : Bool := "null" ∈ typeNames keyword

def listsNull (keyword : Option (Json N)) : Bool :=
  match keyword with
  | some (.arr values) => values.any isNull
  | _ => false

def schemaAllowsNull (schema : Json N) : Bool :=
  match schema with
  | .obj kws =>
    namesNull (lookup "type" kws) ||
      (lookup "const" kws).any isNull || listsNull (lookup "enum" kws) ||
      match isAny : lookup "anyOf" kws with
      | some (.arr variants) => variants.attach.any fun variant => schemaAllowsNull variant.1
      | _ => false
  | _ => false
termination_by sizeOf schema
decreasing_by
  have lt := sizeOf_lookup_items isAny variant.2
  simp only [obj.sizeOf_spec]
  omega

def nullSchema : Json N := .obj [("type", .str "null")]

/-- A property that may be left out is wanted, and may be null. -/
def strictProperty (required : List String) (name : String) (property : Json N) : Json N :=
  if name ∉ required && !schemaAllowsNull property then
    .obj [("anyOf", .arr [property, nullSchema])]
  else property

/-- What is said of an object schema before its properties are looked at. -/
def checkObjectKeywords (kws : List (String × Json N)) : Except String Unit :=
  if (lookup "additionalProperties" kws).any fun keyword => keyword.bool? ≠ some false then
    .error "schema-valued or true additionalProperties is unsupported"
  else if (lookup "properties" kws).any fun keyword => !keyword.isObject then
    .error "object properties must be a schema map"
  else if (lookup "required" kws).any fun keyword =>
      match keyword with
      | .arr names => names.any fun name => name.string?.isNone
      | _ => true
    then .error "object required must be a string array"
  else if (stringsOf (lookup "required" kws)).any fun name => name ∉ propertyNames kws then
    .error "required contains an unknown property"
  else .ok ()

/-- An array that nothing failed in. -/
def allOk {α β : Type} (results : List (Except α β)) : Except α (List β) :=
  match results with
  | [] => .ok []
  | .error error :: _ => .error error
  | .ok result :: rest =>
    match allOk rest with
    | .error error => .error error
    | .ok others => .ok (result :: others)

section

variable (kws : List (String × Json N))
  (strict : ∀ schema : Json N, sizeOf schema < sizeOf kws → Except String (Json N))

/-- What becomes of `anyOf`. -/
def strictAnyOf : Except String (Option (Json N)) :=
  match isAny : lookup "anyOf" kws with
  | none => .ok none
  | some (.arr (first :: rest)) =>
    (allOk ((first :: rest).attach.map fun variant =>
      if isStructuredSchema variant.1 then .error "object and array unions are unsupported"
      else strict variant.1 (sizeOf_lookup_items isAny variant.2))).map fun variants =>
        some (.arr variants)
  | some _ => .error "anyOf must contain at least one schema"

/-- What becomes of `items`. -/
def strictItems : Except String (Option (Json N)) :=
  match isItems : lookup "items" kws with
  | none => .ok none
  | some (.arr _) => .error "tuple schemas are unsupported"
  | some each => (strict each (sizeOf_lookup_lt isItems)).map some

/-- What becomes of `properties`. -/
def strictProperties : Except String (Option (Json N)) :=
  match isProperties : lookup "properties" kws with
  | some (.obj properties) =>
    (allOk (properties.attach.map fun entry =>
      (strict entry.1.2 (sizeOf_lookup_member isProperties
        (show (entry.1.1, entry.1.2) ∈ properties from entry.2))).map fun property =>
          (entry.1.1, strictProperty (stringsOf (lookup "required" kws)) entry.1.1 property))
      ).map fun properties => some (.obj properties)
  | _ => .ok none

end

def setKeyword (name : String) (value : Option (Json N)) (kws : List (String × Json N)) :
    List (String × Json N) :=
  match value with
  | none => kws
  | some value => setMembers name value kws

def makeJsonSchemaNodeStrict (schema : Json N) : Except String (Json N) :=
  match schema with
  | .obj kws =>
    match UNSUPPORTED_STRICT_SCHEMA_KEYS.find? fun key => (lookup key kws).isSome with
    | some key => .error (key ++ " schemas are unsupported")
    | none => do
      let anyOf ← strictAnyOf kws fun schema _ => makeJsonSchemaNodeStrict schema
      let items ← strictItems kws fun schema _ => makeJsonSchemaNodeStrict schema
      let isObjectSchema := (lookup "type" kws).bind Json.string? = some "object"
      let walked := setKeyword "items" items (setKeyword "anyOf" anyOf kws)
      if (lookup "properties" kws).isSome && !isObjectSchema then
        throw "properties require type object"
      else if isObjectSchema then do
        checkObjectKeywords kws
        let properties ← strictProperties kws fun schema _ => makeJsonSchemaNodeStrict schema
        return .obj (setMembers "additionalProperties" (.bool false)
          (setMembers "required" (.arr ((propertyNames kws).map .str))
            (setKeyword "properties" properties walked)))
      else return .obj walked
  | _ => throw "boolean schemas are unsupported"
termination_by sizeOf schema
decreasing_by
  all_goals
    simp only [obj.sizeOf_spec]
    omega

/-- The tool's schema afterwards, and the strict one; what is made strict is a clone. -/
def makeStrictJsonSchema (schema : Json N) : Json N × Except String (Json N) :=
  let cloned := schema
  if !cloned.isObject then (schema, .error "root schema must have type object")
  else
    match makeJsonSchemaNodeStrict cloned with
    | .error error => (schema, .error error)
    | .ok strict =>
      if (strict.get? "type").bind Json.string? = some "object" then (schema, .ok strict)
      else (schema, .error "root schema must have type object")

/-! ## What a strict schema says -/

variable {α β : Type} {values : List β} {P : α → β → Prop} {members : List α}

theorem allOk_eq_ok {results : List (Except α β)} (success : allOk results = .ok values) :
    List.Forall₂ (fun result v => result = .ok v) results values := by
  induction results generalizing values with
  | nil =>
    cases success
    exact .nil
  | cons result rest ih =>
    cases result with
    | error error => cases success
    | ok v =>
      rw [allOk] at success
      split at success
      · cases success
      · rename_i others same
        cases success
        exact .cons rfl (ih same)

theorem map_eq_ok {γ : Type} {f : β → γ} {result : Except α β} {v : γ}
    (success : result.map f = .ok v) : ∃ before, result = .ok before ∧ f before = v := by
  cases result with
  | error error => cases success
  | ok before => exact ⟨before, rfl, Except.ok.inj success⟩

theorem forall₂_attach (each : List.Forall₂ (fun mem v => P mem.1 v) members.attach values) :
    List.Forall₂ P members values := by
  have mapped := forall₂_map_left_iff (f := Subtype.val) (R := P) |>.mpr each
  rwa [attach_map_subtype_val] at mapped

theorem forall₂_mem (each : List.Forall₂ P members values) {mem : α}
    (inside : mem ∈ members) : ∃ v ∈ values, P mem v := by
  induction each with
  | nil => cases inside
  | cons first _ ih =>
    rcases mem_cons.mp inside with rfl | later
    · exact ⟨_, mem_cons_self, first⟩
    · obtain ⟨v, isValue, holds⟩ := ih later
      exact ⟨v, mem_cons_of_mem _ isValue, holds⟩

section

variable {kws : List (String × Json N)}
  {strict : ∀ schema : Json N, sizeOf schema < sizeOf kws → Except String (Json N)}

theorem strictAnyOf_ok {anyOf : Option (Json N)} (success : strictAnyOf kws strict = .ok anyOf) :
    (lookup "anyOf" kws = none ∧ anyOf = none) ∨
    ∃ variants stricts, lookup "anyOf" kws = some (.arr variants) ∧
      anyOf = some (.arr stricts) ∧ variants ≠ [] ∧
      List.Forall₂ (fun variant other => isStructuredSchema variant = false ∧
        ∃ lt, strict variant lt = .ok other) variants stricts := by
  unfold strictAnyOf at success
  split at success
  · rename_i none
    exact .inl ⟨none, (Except.ok.inj success).symm⟩
  · rename_i first rest isAny
    obtain ⟨stricts, each, rfl⟩ := map_eq_ok success
    refine .inr ⟨_, stricts, isAny, rfl, cons_ne_nil _ _, forall₂_attach ?_⟩
    refine (forall₂_map_left_iff.mp (allOk_eq_ok each)).imp fun variant other same => ?_
    split_ifs at same with structured
    exact ⟨by simpa using structured, _, same⟩
  · cases success

theorem strictItems_ok {items : Option (Json N)} (success : strictItems kws strict = .ok items) :
    (lookup "items" kws = none ∧ items = none) ∨
    ∃ each other, lookup "items" kws = some each ∧ items = some other ∧
      (∀ schemas, each ≠ .arr schemas) ∧ ∃ lt, strict each lt = .ok other := by
  unfold strictItems at success
  split at success
  · rename_i none
    exact .inl ⟨none, (Except.ok.inj success).symm⟩
  · cases success
  · rename_i each single isItems
    obtain ⟨other, same, rfl⟩ := map_eq_ok success
    exact .inr ⟨each, other, isItems, rfl, single, _, same⟩

theorem strictProperties_ok {properties : Option (Json N)}
    (success : strictProperties kws strict = .ok properties) :
    ((∀ members, lookup "properties" kws ≠ some (.obj members)) ∧ properties = none) ∨
    ∃ members stricts, lookup "properties" kws = some (.obj members) ∧
      properties = some (.obj stricts) ∧
      List.Forall₂ (fun e other => ∃ lt made, strict e.2 lt = .ok made ∧
        other = (e.1, strictProperty (stringsOf (lookup "required" kws)) e.1 made))
        members stricts := by
  unfold strictProperties at success
  split at success
  · rename_i members isProperties
    obtain ⟨stricts, each, rfl⟩ := map_eq_ok success
    refine .inr ⟨members, stricts, isProperties, rfl, forall₂_attach ?_⟩
    refine (forall₂_map_left_iff.mp (allOk_eq_ok each)).imp fun e other same => ?_
    obtain ⟨made, ok, rfl⟩ := map_eq_ok same
    exact ⟨_, made, ok, rfl⟩
  · rename_i none
    exact .inl ⟨fun members => none members, (Except.ok.inj success).symm⟩

end

section

variable {kws others : List (String × Json N)}

/-- The keywords of a strict schema that are not about the properties of an object. -/
structure Walked (kws others : List (String × Json N)) : Prop where
  supported : ∀ key ∈ UNSUPPORTED_STRICT_SCHEMA_KEYS, lookup key kws = none
  anyOf : (lookup "anyOf" kws = none ∧ lookup "anyOf" others = none) ∨
    ∃ variants stricts, lookup "anyOf" kws = some (.arr variants) ∧
      lookup "anyOf" others = some (.arr stricts) ∧ variants ≠ [] ∧
      List.Forall₂ (fun variant other => isStructuredSchema variant = false ∧
        makeJsonSchemaNodeStrict variant = .ok other) variants stricts
  items : (lookup "items" kws = none ∧ lookup "items" others = none) ∨
    ∃ each other, lookup "items" kws = some each ∧ lookup "items" others = some other ∧
      (∀ schemas, each ≠ .arr schemas) ∧ makeJsonSchemaNodeStrict each = .ok other
  kept : ∀ key, key ∉ ["anyOf", "items", "properties", "required", "additionalProperties"] →
    lookup key others = lookup key kws

/-- The keywords about properties where the type is not `object`. -/
structure OtherNode (kws others : List (String × Json N)) : Prop where
  type : (lookup "type" kws).bind Json.string? ≠ some "object"
  properties : lookup "properties" kws = none
  kept : ∀ key, key ∈ ["properties", "required", "additionalProperties"] →
    lookup key others = lookup key kws

/-- The keywords about properties where the type is `object`. -/
structure ObjectNode (kws others : List (String × Json N)) : Prop where
  type : (lookup "type" kws).bind Json.string? = some "object"
  additional : ∀ keyword, lookup "additionalProperties" kws = some keyword → keyword = .bool false
  required : ∀ name ∈ stringsOf (lookup "required" kws), name ∈ propertyNames kws
  properties : (lookup "properties" kws = none ∧ lookup "properties" others = none) ∨
    ∃ members stricts, lookup "properties" kws = some (.obj members) ∧
      lookup "properties" others = some (.obj stricts) ∧
      List.Forall₂ (fun entry other => ∃ made, makeJsonSchemaNodeStrict entry.2 = .ok made ∧
        other = (entry.1, strictProperty (stringsOf (lookup "required" kws)) entry.1 made))
        members stricts
  wanted : lookup "required" others = some (.arr ((propertyNames kws).map .str))
  closed : lookup "additionalProperties" others = some (.bool false)

theorem lookup_setKeyword (name other : String) (v : Option (Json N))
    (kws : List (String × Json N)) :
    lookup other (setKeyword name v kws) =
      if name = other then v.or (lookup other kws) else lookup other kws := by
  cases v with
  | none => exact (ite_self _).symm
  | some v => rw [setKeyword, lookup_setMembers, Option.some_or]

theorem checkObjectKeywords_ok (checked : checkObjectKeywords kws = .ok ()) :
    (∀ keyword, lookup "additionalProperties" kws = some keyword → keyword = .bool false) ∧
    (∀ keyword, lookup "properties" kws = some keyword → keyword.isObject = true) ∧
    ∀ name ∈ stringsOf (lookup "required" kws), name ∈ propertyNames kws := by
  unfold checkObjectKeywords at checked
  split_ifs at checked with additional properties required unknown
  refine ⟨fun keyword isKeyword => ?_, fun keyword isKeyword => ?_, fun name inside => ?_⟩
  · rw [isKeyword] at additional
    cases keyword with
    | bool flag => simpa [Json.bool?] using additional
    | _ => simp [Json.bool?] at additional
  · rw [isKeyword] at properties
    simpa using properties
  · simp only [any_eq_true, decide_eq_true_eq, not_exists, not_and, not_not] at unknown
    exact unknown name inside

theorem makeStrict_ok {schema strict : Json N}
    (success : makeJsonSchemaNodeStrict schema = .ok strict) :
    ∃ kws others, schema = .obj kws ∧ strict = .obj others ∧ Walked kws others ∧
      (OtherNode kws others ∨ ObjectNode kws others) := by
  cases schema with
  | obj kws =>
    rw [makeJsonSchemaNodeStrict] at success
    split at success
    · cases success
    · rename_i supported
      obtain ⟨anyOf, isAny, success⟩ := bind_eq_ok success
      obtain ⟨items, isItems, success⟩ := bind_eq_ok success
      have variants := strictAnyOf_ok isAny
      have each := strictItems_ok isItems
      have known : ∀ key ∈ UNSUPPORTED_STRICT_SCHEMA_KEYS, lookup key kws = none := by
        intro key inside
        simpa using find?_eq_none.mp supported key inside
      have anyOfIs : ∀ after : List (String × Json N),
          lookup "anyOf" after = anyOf.or (lookup "anyOf" kws) →
          (lookup "anyOf" kws = none ∧ lookup "anyOf" after = none) ∨
          ∃ variants stricts, lookup "anyOf" kws = some (.arr variants) ∧
            lookup "anyOf" after = some (.arr stricts) ∧ variants ≠ [] ∧
            List.Forall₂ (fun variant other => isStructuredSchema variant = false ∧
              makeJsonSchemaNodeStrict variant = .ok other) variants stricts := by
        intro after same
        rcases variants with ⟨none, rfl⟩ | ⟨variants, stricts, isVariants, rfl, some, walked⟩
        · rw [none] at same
          exact .inl ⟨none, same⟩
        · exact .inr ⟨variants, stricts, isVariants, same, some,
            walked.imp fun _ _ both => ⟨both.1, both.2.2⟩⟩
      have itemsIs : ∀ after : List (String × Json N),
          lookup "items" after = items.or (lookup "items" kws) →
          (lookup "items" kws = none ∧ lookup "items" after = none) ∨
          ∃ each other, lookup "items" kws = some each ∧ lookup "items" after = some other ∧
            (∀ schemas, each ≠ .arr schemas) ∧ makeJsonSchemaNodeStrict each = .ok other := by
        intro after same
        rcases each with ⟨none, rfl⟩ | ⟨each, other, isEach, rfl, single, lt, made⟩
        · rw [none] at same
          exact .inl ⟨none, same⟩
        · exact .inr ⟨each, other, isEach, same, single, made⟩
      dsimp only at success
      split_ifs at success with mixed isObject
      · obtain ⟨done, checked, success⟩ := bind_eq_ok success
        obtain ⟨properties, isProperties, success⟩ := bind_eq_ok success
        cases success
        obtain ⟨additional, shaped, required⟩ := checkObjectKeywords_ok checked
        refine ⟨kws, _, rfl, rfl, ⟨known, anyOfIs _ ?_, itemsIs _ ?_, fun key other => ?_⟩,
          .inr ⟨isObject, additional, required, ?_, ?_, ?_⟩⟩
        · simp [lookup_setMembers, lookup_setKeyword]
        · simp [lookup_setMembers, lookup_setKeyword]
        · simp only [mem_cons, not_or] at other
          obtain ⟨anyOf, items, properties, required, additional, -⟩ := other
          simp [lookup_setMembers, lookup_setKeyword, Ne.symm anyOf, Ne.symm items,
            Ne.symm properties, Ne.symm required, Ne.symm additional]
        · rcases strictProperties_ok isProperties with ⟨unshaped, rfl⟩ |
            ⟨members, stricts, isMembers, rfl, walked⟩
          · have absent : lookup "properties" kws = none := by
              cases found : lookup "properties" kws with
              | none => rfl
              | some keyword =>
                have object := shaped keyword found
                cases keyword with
                | obj members => exact absurd found (unshaped members)
                | _ => cases object
            refine .inl ⟨absent, ?_⟩
            simp [lookup_setMembers, lookup_setKeyword, absent]
          · refine .inr ⟨members, stricts, isMembers, ?_, walked.imp fun e other walk => by
              obtain ⟨lt, made, ok, same⟩ := walk
              exact ⟨made, ok, same⟩⟩
            simp [lookup_setMembers, lookup_setKeyword]
        · simp [lookup_setMembers]
        · simp [lookup_setMembers]
      · cases success
        refine ⟨kws, _, rfl, rfl, ⟨known, anyOfIs _ ?_, itemsIs _ ?_, fun key other => ?_⟩,
          .inl ⟨isObject, ?_, fun key inside => ?_⟩⟩
        · simp [lookup_setKeyword]
        · simp [lookup_setKeyword]
        · simp only [mem_cons, not_or] at other
          obtain ⟨anyOf, items, -⟩ := other
          simp [lookup_setKeyword, Ne.symm anyOf, Ne.symm items]
        · simpa [isObject] using mixed
        · simp only [mem_cons, not_mem_nil, or_false] at inside
          rcases inside with rfl | rfl | rfl <;> simp [lookup_setKeyword]
  | _ =>
    rw [makeJsonSchemaNodeStrict] at success
    · cases success
    · simp

end

/-! ## Nulls that are dropped -/

/-- Whether a member is kept. -/
def keepsMember (check : Json N → Json N → Option Bool) (kws : List (String × Json N))
    (member : String × Json N) : Bool :=
  match lookup "properties" kws with
  | some (.obj properties) =>
    match lookup member.1 properties with
    | some property =>
      !dropsNull check (stringsOf (lookup "required" kws)) member.1 property member.2
    | none => true
  | _ => true

def keptNames (check : Json N → Json N → Option Bool) (kws members : List (String × Json N)) :
    List String :=
  (members.filter (keepsMember check kws)).map Prod.fst

/-- The schemas and parts that the walk through a value comes to. -/
inductive Visits (check : Json N → Json N → Option Bool) : Json N → Json N → Json N → Json N → Prop
  | here (schema value : Json N) : Visits check schema value schema value
  | item {kws : List (String × Json N)} {items : List (Json N)} {each item schema part : Json N}
    (isItems : lookup "items" kws = some each) (inside : item ∈ items)
    (rest : Visits check each item schema part) : Visits check (.obj kws) (.arr items) schema part
  | member {kws members properties : List (String × Json N)} {name : String}
    {property member schema part : Json N}
    (isProperties : lookup "properties" kws = some (.obj properties))
    (isProperty : (name, property) ∈ properties) (inside : (name, member) ∈ members)
    (kept : dropsNull check (stringsOf (lookup "required" kws)) name property member = false)
    (rest : Visits check property member schema part) :
    Visits check (.obj kws) (.obj members) schema part

/-- A member of this part is dropped. -/
def LosesAt (check : Json N → Json N → Option Bool) (schema part : Json N) : Prop :=
  ∃ kws members, schema = .obj kws ∧ part = .obj members ∧
    ∃ member ∈ members, keepsMember check kws member = false

/-- Something is dropped here or further in. -/
def Loses (check : Json N → Json N → Option Bool) (schema value : Json N) : Prop :=
  ∃ inner part, Visits check schema value inner part ∧ LosesAt check inner part

/-- What is dropped is under no `enum`, `const` or `anyOf`. -/
def Free (check : Json N → Json N → Option Bool) (schema value : Json N) : Prop :=
  ∀ inner part, Visits check schema value inner part → Loses check inner part →
    inner.get? "enum" = none ∧ inner.get? "const" = none ∧ inner.get? "anyOf" = none

/-- The names that are kept are as `minProperties` and `dependentRequired` want them. -/
def NamesKeptAt [JsonNumber N] (check : Json N → Json N → Option Bool) (schema part : Json N) : Prop :=
  ∀ kws members, schema = .obj kws → part = .obj members →
    NamesHold kws (keptNames check kws members)

def NamesKept [JsonNumber N] (check : Json N → Json N → Option Bool) (schema value : Json N) : Prop :=
  ∀ inner part, Visits check schema value inner part → NamesKeptAt check inner part

section

variable {check : Json N → Json N → Option Bool}
  {kws members properties others : List (String × Json N)} {items : List (Json N)} {name : String}

theorem Free.item {each item : Json N} (free : Free check (.obj kws) (.arr items))
    (isItems : lookup "items" kws = some each) (inside : item ∈ items) :
    Free check each item :=
  fun inner part visits => free inner part (.item isItems inside visits)

theorem Free.member {property mem : Json N} (free : Free check (.obj kws) (.obj members))
    (isProperties : lookup "properties" kws = some (.obj properties))
    (isProperty : (name, property) ∈ properties) (inside : (name, mem) ∈ members)
    (kept : dropsNull check (stringsOf (lookup "required" kws)) name property mem = false) :
    Free check property mem :=
  fun inner part visits => free inner part (.member isProperties isProperty inside kept visits)

theorem Visits.of_plain {schema v inner part : Json N} (noItems : ∀ items, v ≠ .arr items)
    (noMembers : ∀ members, v ≠ .obj members) (visits : Visits check schema v inner part) :
    inner = schema ∧ part = v := by
  cases visits with
  | here => exact ⟨rfl, rfl⟩
  | item => exact absurd rfl (noItems _)
  | member => exact absurd rfl (noMembers _)

section

variable (isProperties : lookup "properties" kws = some (.obj properties))

include isProperties

theorem keepsMember_property (distinct : (properties.map Prod.fst).Nodup) {name : String}
    {property : Json N} (isProperty : (name, property) ∈ properties) (member : Json N) :
    keepsMember check kws (name, member) =
      !dropsNull check (stringsOf (lookup "required" kws)) name property member := by
  simp only [keepsMember, isProperties, lookup_of_mem distinct isProperty]

theorem normalize_obj_eq
    (distinct : (properties.map Prod.fst).Nodup) (names : (members.map Prod.fst).Nodup) :
    normalizeOptionalNulls check (.obj kws) (.obj members) =
      .obj (members.filterMap (normalizedMember check (stringsOf (lookup "required" kws))
        (normalizeOptionalNulls check) properties)) := by
  rw [normalize_members isProperties, normalizeMembers_eq distinct names]

theorem normalizedMember_eq (normalize : Json N → Json N → Json N) (member : String × Json N) :
    normalizedMember check (stringsOf (lookup "required" kws)) normalize properties member =
      if keepsMember check kws member then
        some (member.1, (lookup member.1 properties).elim member.2 fun property =>
          normalize property member.2)
      else none := by
  simp only [normalizedMember, keepsMember, isProperties]
  cases lookup member.1 properties with
  | none => rfl
  | some property =>
    dsimp only [Option.elim]
    split_ifs with drops kept kept
    · rw [drops] at kept
      cases kept
    · rfl
    · rfl
    · exact absurd (by simpa using drops) kept

theorem names_normalized (normalize : Json N → Json N → Json N) :
    (members.filterMap (normalizedMember check (stringsOf (lookup "required" kws)) normalize
      properties)).map Prod.fst = keptNames check kws members := by
  unfold keptNames
  induction members with
  | nil => rfl
  | cons mem rest ih =>
    rw [filterMap_cons, filter_cons, normalizedMember_eq isProperties]
    split_ifs
    · exact congrArg (mem.1 :: ·) ih
    · exact ih

end

theorem ObjectNode.property (node : ObjectNode kws others)
    (isProperties : lookup "properties" kws = some (.obj properties)) {property : Json N}
    (isProperty : (name, property) ∈ properties) :
    ∃ stricts made, lookup "properties" others = some (.obj stricts) ∧
      makeJsonSchemaNodeStrict property = .ok made ∧
      (name, strictProperty (stringsOf (lookup "required" kws)) name made) ∈ stricts := by
  rcases node.properties with ⟨none, -⟩ | ⟨members, stricts, same, isStricts, each⟩
  · rw [isProperties] at none
    cases none
  · rw [isProperties] at same
    cases same
    obtain ⟨other, inside, made, ok, rfl⟩ := forall₂_mem each isProperty
    exact ⟨stricts, made, isStricts, ok, inside⟩

theorem node_of_properties (node : OtherNode kws others ∨ ObjectNode kws others)
    (isProperties : lookup "properties" kws = some (.obj properties)) : ObjectNode kws others := by
  refine node.resolve_left fun other => ?_
  have absent := other.properties
  rw [isProperties] at absent
  cases absent

/-- Where nothing is dropped, nothing changes. -/
theorem normalize_of_lossless {schema strict v : Json N}
    (accepted : makeJsonSchemaNodeStrict schema = .ok strict) (shaped : Distinct schema)
    (unique : Distinct v) (lossless : ¬Loses check schema v) :
    normalizeOptionalNulls check schema v = v := by
  induction size : sizeOf schema using Nat.strongRecOn generalizing schema strict v with
  | _ size ih =>
  subst size
  obtain ⟨kws, others, rfl, rfl, walked, node⟩ := makeStrict_ok accepted
  cases v with
  | arr items =>
    rcases walked.items with ⟨none, -⟩ | ⟨each, other, isItems, -, single, made⟩
    · exact normalize_no_items none items
    · have smaller : sizeOf each < sizeOf (Json.obj kws) := by
        have lt := sizeOf_lookup_lt isItems
        rw [obj.sizeOf_spec]
        omega
      rw [normalize_items isItems single]
      have same : ∀ item ∈ items, normalizeOptionalNulls check each item = item :=
        fun item inside => ih _ smaller made (shaped.member (lookup_mem isItems))
          (unique.item inside) (fun ⟨inner, part, visits, loses⟩ =>
            lossless ⟨inner, part, .item isItems inside visits, loses⟩) rfl
      rw [map_congr_left same, map_id']
  | obj members =>
    by_cases shape : ∃ properties, lookup "properties" kws = some (.obj properties)
    · obtain ⟨properties, isProperties⟩ := shape
      have distinct := (shaped.member (lookup_mem isProperties)).names
      rw [normalize_obj_eq isProperties distinct unique.names]
      refine congrArg Json.obj ((filterMap_congr fun mem inside => ?_).trans
        filterMap_some)
      have kept : keepsMember check kws mem = true := by
        by_contra lost
        exact lossless ⟨_, _, .here _ _, kws, members, rfl, rfl, mem, inside,
          by simpa using lost⟩
      rw [normalizedMember_eq isProperties, if_pos kept]
      cases found : lookup mem.1 properties with
      | none => rfl
      | some property =>
        have isProperty := lookup_mem found
        have smaller : sizeOf property < sizeOf (Json.obj kws) := by
          have lt := sizeOf_lookup_member isProperties isProperty
          rw [obj.sizeOf_spec]
          omega
        have node := node_of_properties node isProperties
        obtain ⟨stricts, made, -, ok, -⟩ := node.property isProperties isProperty
        have drops : dropsNull check (stringsOf (lookup "required" kws)) mem.1 property
            mem.2 = false := by
          rw [keepsMember_property isProperties distinct isProperty mem.2] at kept
          simpa using kept
        have same := ih _ smaller ok
          ((shaped.member (lookup_mem isProperties)).member isProperty)
          (unique.member (show (mem.1, mem.2) ∈ members from inside))
          (fun ⟨inner, part, visits, loses⟩ => lossless ⟨inner, part,
            .member isProperties isProperty inside drops visits, loses⟩) rfl
        exact congrArg (fun v => some (mem.1, v)) same
    · exact normalize_no_properties (fun properties same => shape ⟨properties, same⟩) members
  | _ => exact normalize_plain _ (fun _ => nofun) fun _ => nofun

end

end Trpi.Ai
