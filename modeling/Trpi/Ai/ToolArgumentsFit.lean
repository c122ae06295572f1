import Trpi.Ai.ToolArguments

/-!
# Arguments that fit their schema

The walks leave a value where each part that they come to satisfies what it is held against.
-/

namespace Trpi.Ai

open Library
open List hiding lookup
open Json

variable {N : Type}

/-- No null of an optional property is refused by the property. -/
def NullsStay (check : Json N → Json N → Option Bool) (schema value : Json N) : Prop :=
  match schema with
  | .obj kws =>
    (∀ items, value = .arr items →
      (∀ schemas, (isTuple : lookup "items" kws = some (.arr schemas)) →
        ∀ index, (known : index < schemas.length) → ∀ item, items[index]? = some item →
          NullsStay check schemas[index] item) ∧
      ∀ each, (isItems : lookup "items" kws = some each) → (∀ schemas, each ≠ .arr schemas) →
        ∀ item ∈ items, NullsStay check each item) ∧
    ∀ members, value = .obj members →
      ∀ properties, (isProperties : lookup "properties" kws = some (.obj properties)) →
        ∀ name property, (inside : (name, property) ∈ properties) →
          ∀ member, lookup name members = some member →
            dropsNull check (stringsOf (lookup "required" kws)) name property member = false ∧
            NullsStay check property member
  | _ => True
termination_by sizeOf schema
decreasing_by
  all_goals simp only [obj.sizeOf_spec]
  · have lt := sizeOf_lookup_items isTuple (List.getElem_mem known)
    omega
  · have lt := sizeOf_lookup_lt isItems
    omega
  · have lt := sizeOf_lookup_member isProperties inside
    omega

section

variable {check : Json N → Json N → Option Bool} {kws members : List (String × Json N)}
  {items : List (Json N)} {item property : Json N} {name : String}

theorem nullsStay_tuple {schemas : List (Json N)}
    (isTuple : lookup "items" kws = some (.arr schemas))
    (stay : NullsStay check (.obj kws) (.arr items)) {i : Nat} (known : i < schemas.length)
    (found : items[i]? = some item) : NullsStay check schemas[i] item := by
  rw [NullsStay] at stay
  exact (stay.1 items rfl).1 schemas isTuple i known item found

theorem nullsStay_items {each : Json N} (isItems : lookup "items" kws = some each)
    (single : ∀ schemas, each ≠ .arr schemas) (stay : NullsStay check (.obj kws) (.arr items))
    (inside : item ∈ items) : NullsStay check each item := by
  rw [NullsStay] at stay
  exact (stay.1 items rfl).2 each isItems single item inside

theorem nullsStay_member {properties : List (String × Json N)}
    (isProperties : lookup "properties" kws = some (.obj properties))
    (stay : NullsStay check (.obj kws) (.obj members)) {mem : Json N}
    (isProperty : (name, property) ∈ properties) (found : lookup name members = some mem) :
    dropsNull check (stringsOf (lookup "required" kws)) name property mem = false ∧
      NullsStay check property mem := by
  rw [NullsStay] at stay
  exact stay.2 members rfl properties isProperties name property isProperty mem found

theorem normalizeMember_self (names : (members.map Prod.fst).Nodup) {required : List String}
    {normalize : Json N → Json N}
    (same : ∀ mem, lookup name members = some mem →
      dropsNull check required name property mem = false ∧ normalize mem = mem) :
    normalizeMember check required name property normalize members = members := by
  unfold normalizeMember
  cases found : lookup name members with
  | none => rfl
  | some mem =>
    obtain ⟨stays, unchanged⟩ := same mem found
    dsimp only
    rw [stays, if_neg Bool.false_ne_true, unchanged]
    exact setMembers_self names found

theorem normalize_of_nullsStay {schema v : Json N} (unique : Distinct v)
    (stay : NullsStay check schema v) : normalizeOptionalNulls check schema v = v := by
  induction size : sizeOf schema using Nat.strongRecOn generalizing schema v with
  | _ size ih =>
  subst size
  cases schema with
  | obj kws =>
    cases v with
    | arr items =>
      rw [normalizeOptionalNulls]
      split
      · rfl
      · rename_i schemas isTuple
        refine congrArg Json.arr (ext_getElem? fun i => ?_)
        rw [getElem?_mapIdx]
        cases found : items[i]? with
        | none => rfl
        | some item =>
          rw [Option.map_some]
          split_ifs with known
          · refine congrArg some (ih _ ?_ (unique.item (mem_of_getElem? found))
              (nullsStay_tuple isTuple stay known found) rfl)
            have lt := sizeOf_lookup_items isTuple (getElem_mem known)
            rw [obj.sizeOf_spec]
            omega
          · rfl
      · rename_i each single isItems
        have notTuple : ∀ schemas, each ≠ .arr schemas := fun schemas same => single schemas same
        have same : ∀ item ∈ items, normalizeOptionalNulls check each item = item := by
          intro item inside
          refine ih _ ?_ (unique.item inside) (nullsStay_items isItems notTuple stay inside) rfl
          have lt := sizeOf_lookup_lt isItems
          rw [obj.sizeOf_spec]
          omega
        rw [map_congr_left same, map_id']
    | obj members =>
      by_cases shape : ∃ properties, lookup "properties" kws = some (.obj properties)
      · obtain ⟨properties, isProperties⟩ := shape
        rw [normalize_members isProperties]
        have same : ∀ e ∈ properties,
            normalizeMember check (stringsOf (lookup "required" kws)) e.1 e.2
              (normalizeOptionalNulls check e.2) members = members := by
          intro e isProperty
          refine normalizeMember_self unique.names fun mem found => ?_
          obtain ⟨stays, inner⟩ := nullsStay_member isProperties stay
            (show (e.1, e.2) ∈ properties from isProperty) found
          refine ⟨stays, ih _ ?_ (unique.member (lookup_mem found)) inner rfl⟩
          have lt := sizeOf_lookup_member isProperties
            (show (e.1, e.2) ∈ properties from isProperty)
          rw [obj.sizeOf_spec]
          omega
        refine congrArg Json.obj ?_
        clear isProperties stay
        induction properties with
        | nil => rfl
        | cons e rest each =>
          rw [foldl_cons, same e mem_cons_self]
          exact each fun other later => same other (mem_cons_of_mem _ later)
      · exact normalize_no_properties (fun properties same => shape ⟨properties, same⟩) members
    | _ => exact normalize_plain _ (fun _ absurd => by cases absurd) fun _ absurd => by cases absurd
  | _ =>
    rw [normalizeOptionalNulls]
    simp

end

/-- Each part that the walk comes to satisfies what it is held against, and no property is one
that an object inherits. -/
def Fits (numbers : Numbers N) (check : Json N → Value N → Option Bool) (schema : Json N)
    (value : Value N) : Prop :=
  match schema with
  | .obj kws =>
    (∀ nested, (isAll : lookup "allOf" kws = some (.arr nested)) →
      ∀ other, (inside : other ∈ nested) → Fits numbers check other value) ∧
    (∀ key ∈ ["anyOf", "oneOf"], ∀ variants, lookup key kws = some (.arr variants) →
      ∃ variant ∈ variants, check variant value = some true) ∧
    (typeNames (lookup "type" kws) ≠ [] →
      ∃ type ∈ typeNames (lookup "type" kws), matchesJsonType numbers value type = true) ∧
    (∀ items, value = .arr items → "array" ∈ typeNames (lookup "type" kws) →
      (∀ schemas, (isTuple : lookup "items" kws = some (.arr schemas)) →
        ∀ index, (known : index < schemas.length) → ∀ item, items[index]? = some item →
          Fits numbers check schemas[index] item) ∧
      ∀ each, (isItems : lookup "items" kws = some (.obj each)) →
        ∀ item ∈ items, Fits numbers check (.obj each) item) ∧
    ∀ members, value = .obj members → "object" ∈ typeNames (lookup "type" kws) →
      (∀ properties, (isProperties : lookup "properties" kws = some (.obj properties)) →
        ∀ name property, (inside : (name, property) ∈ properties) →
          ∀ member, memberIn name members = some member →
            lookup name members = some member ∧ Fits numbers check property member) ∧
      ∀ additional, (isAdditional : lookup "additionalProperties" kws =
          some (.obj additional)) →
        ∀ name member, (name, member) ∈ members → name ∉ propertyNames kws →
          Fits numbers check (.obj additional) member
  | _ => True
termination_by sizeOf schema
decreasing_by
  all_goals simp only [obj.sizeOf_spec]
  · have lt := sizeOf_lookup_items isAll inside
    omega
  · have lt := sizeOf_lookup_items isTuple (List.getElem_mem known)
    omega
  · have lt := sizeOf_lookup_lt isItems
    rw [obj.sizeOf_spec] at lt
    omega
  · have lt := sizeOf_lookup_member isProperties inside
    omega
  · have lt := sizeOf_lookup_lt isAdditional
    rw [obj.sizeOf_spec] at lt
    omega

theorem foldlM_same {α σ : Type} {step : σ → α → Except ToolError σ} {s : σ} {inputs : List α}
    (same : ∀ input ∈ inputs, step s input = .ok s) : inputs.foldlM step s = .ok s := by
  induction inputs with
  | nil => rfl
  | cons input rest ih =>
    rw [foldlM_cons, same input mem_cons_self]
    exact ih fun other later => same other (mem_cons_of_mem _ later)

theorem mapM_ok {α β : Type} {f : α → Except ToolError β} {g : α → β} {inputs : List α}
    (each : ∀ input ∈ inputs, f input = .ok (g input)) : inputs.mapM f = .ok (inputs.map g) := by
  induction inputs with
  | nil => rfl
  | cons input rest ih =>
    rw [mapM_cons, each input mem_cons_self,
      ih fun other later => each other (mem_cons_of_mem _ later)]
    rfl

section

variable [DecidableEq N] {numbers : Numbers N} {check : Json N → Value N → Option Bool}
  {v : Value N}

theorem coercePrimitive_of_matches {type : String} (suits : matchesJsonType numbers v type = true) :
    coercePrimitiveByType numbers v type = none := by
  unfold matchesJsonType at suits
  split at suits <;> first | rfl | cases suits

theorem coerceToTypes_of_matches {types : List String}
    (suits : types ≠ [] → ∃ type ∈ types, matchesJsonType numbers v type = true) :
    coerceToTypes numbers types v = v := by
  unfold coerceToTypes
  split_ifs with several
  · rfl
  · match types with
    | [] => rfl
    | [type] =>
      obtain ⟨other, inside, same⟩ := suits (cons_ne_nil _ _)
      rw [mem_singleton.mp inside] at same
      rw [findSome?_singleton, coercePrimitive_of_matches same]
      rfl
    | first :: second :: rest =>
      obtain ⟨type, inside, same⟩ := suits (cons_ne_nil _ _)
      have any := any_eq_true.mpr ⟨type, inside, same⟩
      simp [any] at several

section

variable {kws : List (String × Json N)}
  {coerce : ∀ schema : Json N, sizeOf schema < sizeOf kws → Value N → Except ToolError (Value N)}
  {members : List (String × Value N)}

section

omit [DecidableEq N]

theorem coerceAllOf_same {v : Value N}
    (same : ∀ nested, lookup "allOf" kws = some (.arr nested) → ∀ other ∈ nested, ∀ lt,
      coerce other lt v = .ok v) : coerceAllOf kws coerce v = .ok v := by
  unfold coerceAllOf
  split
  · rename_i nested isAll
    exact foldlM_same fun schema _ => same nested isAll schema.1 schema.2 _
  · rfl

theorem coerceUnion_same {key : String} {v : Value N}
    (accepted : ∀ variants, lookup key kws = some (.arr variants) →
      ∃ variant ∈ variants, check variant v = some true) :
    coerceUnion check kws coerce key v = .ok v := by
  unfold coerceUnion
  split
  · rename_i variants isUnion
    obtain ⟨variant, inside, holds⟩ := accepted variants isUnion
    refine if_pos (any_eq_true.mpr ⟨_, mem_map.mpr ⟨⟨variant, inside⟩, mem_attach _ _, rfl⟩, ?_⟩)
    simpa using holds
  · rfl

theorem coerceProperties_same
    (names : (members.map Prod.fst).Nodup)
    (same : ∀ properties, lookup "properties" kws = some (.obj properties) →
      ∀ name property, (name, property) ∈ properties → ∀ mem, memberIn name members = some mem →
        lookup name members = some mem ∧ ∀ lt, coerce property lt mem = .ok mem) :
    coerceProperties kws coerce members = .ok members := by
  unfold coerceProperties
  split
  · rename_i properties isProperties
    refine foldlM_same fun e _ => ?_
    cases found : memberIn e.1.1 members with
    | none => rfl
    | some mem =>
      obtain ⟨own, stays⟩ := same properties isProperties e.1.1 e.1.2
        (show (e.1.1, e.1.2) ∈ properties from e.2) mem found
      dsimp only
      rw [stays]
      exact congrArg Except.ok (setMembers_self names own)
  · rfl

theorem coerceAdditional_same
    (names : (members.map Prod.fst).Nodup)
    (same : ∀ additional, lookup "additionalProperties" kws = some (.obj additional) →
      ∀ name mem, (name, mem) ∈ members → name ∉ propertyNames kws →
        ∀ lt, coerce (.obj additional) lt mem = .ok mem) :
    coerceAdditional kws coerce members = .ok members := by
  unfold coerceAdditional
  split
  · rename_i additional isAdditional
    refine foldlM_same fun e inside => ?_
    split_ifs with known
    · rfl
    · rw [same additional isAdditional e.1 e.2 inside known]
      exact congrArg Except.ok (setMembers_self names (lookup_of_mem names inside))
  · rfl

theorem applySchemaArrayCoercion_same {items : List (Value N)}
    (tuple : ∀ schemas, lookup "items" kws = some (.arr schemas) →
      ∀ i, (known : i < schemas.length) → ∀ item, items[i]? = some item →
        ∀ lt : sizeOf schemas[i] < sizeOf kws, coerce schemas[i] lt item = .ok item)
    (same : ∀ each, lookup "items" kws = some (.obj each) → ∀ item ∈ items, ∀ lt,
      coerce (.obj each) lt item = .ok item) :
    applySchemaArrayCoercion kws coerce items = .ok items := by
  unfold applySchemaArrayCoercion
  split
  · rename_i schemas isTuple
    have each : ∀ item ∈ items.zipIdx, (if known : item.2 < schemas.length then
        coerce schemas[item.2] (sizeOf_lookup_items isTuple (getElem_mem known)) item.1
        else .ok item.1) = .ok item.1 := by
      intro item inside
      split_ifs with known
      · exact tuple schemas isTuple item.2 known item.1 (mem_zipIdx_iff_getElem?.mp inside) _
      · rfl
    rw [mapM_ok each, zipIdx_map_fst]
  · rename_i each isItems
    rw [mapM_ok fun item inside => same each isItems item inside _, map_id']
  · rfl

end

end

theorem coerce_of_fits {schema : Json N} (unique : Distinct v)
    (fits : Fits numbers check schema v) : coerceWithJsonSchema numbers check schema v = .ok v := by
  induction size : sizeOf schema using Nat.strongRecOn generalizing schema v with
  | _ size ih =>
  subst size
  cases schema with
  | obj kws =>
    rw [Fits] at fits
    obtain ⟨all, union, types, items, members⟩ := fits
    have smaller : ∀ {inner : Json N}, sizeOf inner < sizeOf kws →
        sizeOf inner < sizeOf (Json.obj kws) := by
      intro inner lt
      rw [obj.sizeOf_spec]
      omega
    rw [coerceWithJsonSchema, coerceAllOf_same fun nested isAll other inside lt =>
      ih _ (smaller lt) unique (all nested isAll other inside) rfl, ok_bind,
      coerceUnion_same (union "anyOf" (by decide)), ok_bind,
      coerceUnion_same (union "oneOf" (by decide)), ok_bind, coerceToTypes_of_matches types]
    cases v with
    | arr inner =>
      unfold coerceParts
      dsimp only
      split_ifs with isArray
      · obtain ⟨tuple, each⟩ := items inner rfl isArray
        rw [applySchemaArrayCoercion_same]
        · rfl
        · exact fun schemas isTuple i known item found lt => ih _ (smaller lt)
            (unique.item (mem_of_getElem? found))
            (tuple schemas isTuple i known item found) rfl
        · exact fun schema isItems item inside lt => ih _ (smaller lt) (unique.item inside)
            (each schema isItems item inside) rfl
      · rfl
    | obj inner =>
      unfold coerceParts
      dsimp only
      split_ifs with isObject
      · obtain ⟨properties, additional⟩ := members inner rfl isObject
        rw [applySchemaObjectCoercion, coerceProperties_same unique.names, ok_bind]
        · rw [coerceAdditional_same unique.names]
          · rfl
          · exact fun schema isAdditional name mem inside unknown lt => ih _ (smaller lt)
              (unique.member inside) (additional schema isAdditional name mem inside unknown) rfl
        · intro all isProperties name property inside mem found
          obtain ⟨own, inner⟩ := properties all isProperties name property inside mem found
          exact ⟨own, fun lt => ih _ (smaller lt) (unique.member (lookup_mem own)) inner rfl⟩
      · rfl
    | _ => rfl
  | _ =>
    rw [coerceWithJsonSchema]
    simp

end

end Trpi.Ai
