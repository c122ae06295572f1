import Trpi.Ai.StrictSchemas
import Trpi.Library.JsonInt

/-!
# Strict schemas agree with validation

A value that is valid under a strict schema is valid under the tool's schema once its nulls are
dropped, where no keyword about the whole of an object or array stands above a dropped null.
-/

namespace Trpi.Ai

open Library

open Prod hiding map
open List hiding lookup
open Json

variable {N : Type}

section

variable {kws others : List (String × Json N)}

theorem Walked.combinators (walked : Walked kws others) :
    (lookup "allOf" kws = none ∧ lookup "oneOf" kws = none) ∧
    lookup "allOf" others = none ∧ lookup "oneOf" others = none := by
  have all := walked.supported "allOf" (by decide)
  have one := walked.supported "oneOf" (by decide)
  refine ⟨⟨all, one⟩, ?_, ?_⟩
  · rw [walked.kept "allOf" (by decide), all]
  · rw [walked.kept "oneOf" (by decide), one]

theorem anyHolds_iff (walked : Walked kws others) {valid : Json N → Prop}
    (same : ∀ variant other, sizeOf variant < sizeOf (Json.obj kws) →
      isStructuredSchema variant = false → makeJsonSchemaNodeStrict variant = .ok other →
      (valid other ↔ valid variant)) :
    AnyHolds valid (lookup "anyOf" others) ↔ AnyHolds valid (lookup "anyOf" kws) := by
  rcases walked.anyOf with ⟨none, also⟩ | ⟨variants, stricts, isAny, isStricts, -, each⟩
  · rw [none, also]
  · rw [isAny, isStricts]
    have smaller : ∀ variant ∈ variants, sizeOf variant < sizeOf (Json.obj kws) := by
      intro variant inside
      have lt := sizeOf_lookup_items isAny inside
      rw [obj.sizeOf_spec]
      omega
    constructor
    · intro holds all isAll
      cases isAll
      obtain ⟨other, inside, valid⟩ := holds stricts rfl
      obtain ⟨variant, isVariant, plain, ok⟩ := forall₂_mem each.flip inside
      exact ⟨variant, isVariant, (same variant other (smaller variant isVariant) plain ok).mp valid⟩
    · intro holds all isAll
      cases isAll
      obtain ⟨variant, inside, valid⟩ := holds variants rfl
      obtain ⟨other, isOther, plain, ok⟩ := forall₂_mem each inside
      exact ⟨other, isOther, (same variant other (smaller variant inside) plain ok).mpr valid⟩

variable [JsonNumber N] {isInteger : N → Bool} {v : Json N}

theorem namesHold_congr (same : ∀ key ∈ ["required", "minProperties", "dependentRequired"],
    lookup key others = lookup key kws) (names : List String) :
    NamesHold others names ↔ NamesHold kws names := by
  unfold NamesHold
  rw [same "required" (by decide), same "minProperties" (by decide),
    same "dependentRequired" (by decide)]

theorem OtherNode.membersHold (walked : Walked kws others) (node : OtherNode kws others)
    (valid : Json N → Json N → Prop) (v : Json N) :
    MembersHold valid others v ↔ MembersHold valid kws v := by
  have properties := node.kept "properties" (by decide)
  have names : propertyNames others = propertyNames kws := by
    rw [propertyNames, propertyNames, properties]
  have same : ∀ key ∈ ["required", "minProperties", "dependentRequired"],
      lookup key others = lookup key kws := by
    intro key inside
    simp only [mem_cons, not_mem_nil, or_false] at inside
    rcases inside with rfl | rfl | rfl
    · exact node.kept "required" (by decide)
    · exact walked.kept "minProperties" (by decide)
    · exact walked.kept "dependentRequired" (by decide)
  unfold MembersHold
  simp only [properties, names, namesHold_congr same, node.kept "additionalProperties" (by decide)]

theorem valid_of_unstructured {schema strict : Json N} (plain : isStructuredSchema schema = false)
    (accepted : makeJsonSchemaNodeStrict schema = .ok strict) :
    Valid isInteger strict v ↔ Valid isInteger schema v := by
  induction size : sizeOf schema using Nat.strongRecOn generalizing schema strict with
  | _ size ih =>
  subst size
  obtain ⟨kws, others, rfl, rfl, walked, node⟩ := makeStrict_ok accepted
  obtain ⟨⟨all, one⟩, allToo, oneToo⟩ := walked.combinators
  simp only [isStructuredSchema, Bool.or_eq_false_iff, decide_eq_false_iff_not] at plain
  obtain ⟨⟨⟨noObject, -⟩, -⟩, noItems⟩ := plain
  have other : OtherNode kws others := by
    refine node.resolve_right fun object => noObject ?_
    have type := object.type
    cases keyword : lookup "type" kws with
    | none =>
      rw [keyword] at type
      cases type
    | some keyword' =>
      rw [keyword] at type
      cases keyword' with
      | str type' =>
        cases type
        exact mem_singleton_self _
      | _ => cases type
  have items : lookup "items" kws = none := by simpa using noItems
  have itemsToo : lookup "items" others = none := by
    rcases walked.items with ⟨-, none⟩ | ⟨each, -, isItems, -⟩
    · exact none
    · rw [items] at isItems
      cases isItems
  rw [valid_obj allToo oneToo, valid_obj all one, walked.kept "type" (by decide),
    walked.kept "enum" (by decide), walked.kept "const" (by decide), items, itemsToo,
    other.membersHold walked, anyHolds_iff walked fun variant other lt plain ok => ih _ lt plain ok rfl]

end

section

variable [JsonNumber N] {isInteger : N → Bool} {check : Json N → Json N → Option Bool}
  {kws others members properties : List (String × Json N)} {items : List (Json N)}

/-- The validators of plain schemas decide validity; no validator of a boolean is kept. -/
def Decides (isInteger : N → Bool) (check : Json N → Json N → Option Bool) : Prop :=
  ∀ kws, Plain (.obj kws) → ∀ v, ∃ result,
    check (.obj kws) v = some result ∧ (result = true ↔ Valid isInteger (.obj kws) v)

omit [JsonNumber N] in
theorem typeHolds_normalize (schema v : Json N) (keyword : Option (Json N)) :
    TypeHolds isInteger keyword (normalizeOptionalNulls check schema v) ↔
      TypeHolds isInteger keyword v := by
  have same : ∀ type, (normalizeOptionalNulls check schema v).hasType isInteger type =
      v.hasType isInteger type := by
    intro type
    cases v with
    | arr items =>
      obtain ⟨others, shape⟩ := normalize_arr check schema items
      rw [shape]
      unfold hasType
      rfl
    | obj members =>
      obtain ⟨others, shape⟩ := normalize_obj check schema members
      rw [shape]
      unfold hasType
      rfl
    | _ =>
      exact congrArg (hasType isInteger · type)
        (normalize_plain schema (fun _ => nofun) fun _ => nofun)
  unfold TypeHolds
  split
  · rw [same]
  · simp only [same]
  · exact Iff.rfl

theorem kept_arr {each : Json N} (isItems : lookup "items" kws = some each) :
    NamesKept check (.obj kws) (.arr items) ↔ ∀ item ∈ items, NamesKept check each item := by
  constructor
  · exact fun kept item inside inner part visits => kept inner part (.item isItems inside visits)
  · intro kept inner part visits
    cases visits with
    | here => exact fun _ _ _ absurd => nomatch absurd
    | item isOther inside rest =>
      rw [isItems] at isOther
      cases isOther
      exact kept _ inside inner part rest

omit [JsonNumber N] in
theorem Visits.no_items (none : lookup "items" kws = none) {inner part : Json N}
    (visits : Visits check (.obj kws) (.arr items) inner part) : part = .arr items := by
  cases visits with
  | here => rfl
  | item isItems inside rest =>
    rw [none] at isItems
    cases isItems

theorem kept_no_items (none : lookup "items" kws = none) :
    NamesKept check (.obj kws) (.arr items) := by
  intro inner part visits
  rw [visits.no_items none]
  exact fun _ _ _ absurd => nomatch absurd

theorem kept_obj (isProperties : lookup "properties" kws = some (.obj properties)) :
    NamesKept check (.obj kws) (.obj members) ↔
      NamesHold kws (keptNames check kws members) ∧
      ∀ name property, (name, property) ∈ properties → ∀ member, (name, member) ∈ members →
        dropsNull check (stringsOf (lookup "required" kws)) name property member = false →
        NamesKept check property member := by
  constructor
  · intro kept
    refine ⟨kept _ _ (.here _ _) kws members rfl rfl, ?_⟩
    exact fun name property isProperty member inside stays inner part visits =>
      kept inner part (.member isProperties isProperty inside stays visits)
  · rintro ⟨names, kept⟩ inner part visits
    cases visits with
    | here =>
      intro otherKeywords otherMembers sameKeywords sameMembers
      cases sameKeywords
      cases sameMembers
      exact names
    | member isOther isProperty inside stays rest =>
      rw [isProperties] at isOther
      cases isOther
      exact kept _ _ isProperty _ inside stays inner part rest

variable {schema v strict : Json N} {valid : Json N → Json N → Prop}

theorem kept_plain (noItems : ∀ items, v ≠ .arr items)
    (noMembers : ∀ members, v ≠ .obj members) : NamesKept check schema v := by
  intro inner part visits
  obtain ⟨-, rfl⟩ := visits.of_plain noItems noMembers
  exact fun _ members _ same => absurd same (noMembers members)

theorem kept_unshaped (unshaped : ∀ properties, lookup "properties" kws ≠ some (.obj properties)) :
    NamesKept check (.obj kws) (.obj members) ↔ NamesHold kws (members.map fst) := by
  have all : keptNames check kws members = members.map fst := by
    refine congrArg (map fst) (filter_eq_self.mpr fun member inside => ?_)
    unfold keepsMember
    split
    · rename_i properties isProperties
      exact absurd isProperties (unshaped properties)
    · rfl
  constructor
  · intro kept
    have names := kept _ _ (.here _ _) kws members rfl rfl
    rwa [all] at names
  · intro names inner part visits
    cases visits with
    | here =>
      intro otherKeywords otherMembers sameKeywords sameMembers
      cases sameKeywords
      cases sameMembers
      rwa [all]
    | member isProperties => exact absurd isProperties (unshaped _)

theorem ObjectNode.names (node : ObjectNode kws others)
    (names : NamesHold others (members.map fst))
    (additional : ∀ keyword, lookup "additionalProperties" others = some keyword →
      ∀ name mem, (name, mem) ∈ members → name ∉ propertyNames others → Valid isInteger keyword mem)
    (same : propertyNames others = propertyNames kws) (name : String) :
    name ∈ members.map fst ↔ name ∈ propertyNames kws := by
  constructor
  · intro inside
    by_contra unknown
    obtain ⟨mem, isMember, rfl⟩ := mem_map.mp inside
    have absurd := additional _ node.closed mem.1 mem.2 isMember (by rw [same]; exact unknown)
    rw [valid_bool] at absurd
    cases absurd
  · intro known
    exact names.1 _ node.wanted name (mem_map_of_mem known)

omit [JsonNumber N] in
theorem ObjectNode.propertyNames (node : ObjectNode kws others) :
    propertyNames others = propertyNames kws := by
  rcases node.properties with ⟨none, also⟩ | ⟨members, stricts, isMembers, isStricts, each⟩
  · rw [Json.propertyNames, Json.propertyNames, none, also]
  · rw [Json.propertyNames, Json.propertyNames, isMembers, isStricts]
    dsimp only
    clear isMembers isStricts
    induction each with
    | nil => rfl
    | cons first _ ih =>
      obtain ⟨made, -, rfl⟩ := first
      exact congrArg (_ :: ·) ih

/-- A member that is valid under the strict property is valid once its nulls are dropped, or null
and allowed to be. -/
theorem valid_strictProperty (decides : Decides isInteger check) {required : List String}
    {name : String} {property made mem : Json N} (plain : Plain property)
    (accepted : makeJsonSchemaNodeStrict property = .ok made)
    (kept : dropsNull check required name property mem = false)
    (valid : Valid isInteger (strictProperty required name made) mem) :
    Valid isInteger made mem ∨ mem = .null ∧ Valid isInteger property .null := by
  unfold strictProperty at valid
  split_ifs at valid with wrapped
  · rw [valid_obj rfl rfl] at valid
    obtain ⟨variant, inside, holds⟩ := valid.2.2.1 _ rfl
    rcases mem_cons.mp inside with same | inside
    · exact .inl (same ▸ holds)
    · rw [mem_singleton.mp inside, nullSchema, valid_obj rfl rfl] at holds
      have type : mem.hasType isInteger "null" = true := holds.1
      have isNull : mem = .null := by
        cases mem with
        | null => rfl
        | _ => cases type
      refine .inr ⟨isNull, ?_⟩
      obtain ⟨kws, others, rfl, -, walked, -⟩ := makeStrict_ok accepted
      obtain ⟨result, checked, same⟩ := decides kws plain .null
      refine same.mp ?_
      by_contra invalid
      have optional : name ∉ required := by
        simp only [Bool.and_eq_true, decide_eq_true_eq] at wrapped
        exact wrapped.1
      have free : (Json.obj kws).get? "$ref" = none := walked.supported "$ref" (by decide)
      rw [isNull, dropsNull, free, checked, Bool.not_eq_true _ |>.mp invalid] at kept
      simp [optional, Ai.isNull] at kept
  · exact .inl valid

section

variable (isProperties : lookup "properties" kws = some (.obj properties))
  (distinct : (properties.map Prod.fst).Nodup) (names : (members.map Prod.fst).Nodup)

include isProperties distinct names

theorem keptMembers_of_membersHold (holds : MembersHold valid kws
      (normalizeOptionalNulls check (.obj kws) (.obj members))) :
    NamesHold kws (keptNames check kws members) ∧
      ∀ name property, (name, property) ∈ properties → ∀ mem, (name, mem) ∈ members →
        dropsNull check (stringsOf (lookup "required" kws)) name property mem = false →
        valid property (normalizeOptionalNulls check property mem) := by
  rw [normalize_obj_eq isProperties distinct names] at holds
  obtain ⟨namesHold, each, -⟩ := holds _ rfl
  rw [names_normalized isProperties] at namesHold
  refine ⟨namesHold, fun name property isProperty mem inside stays => ?_⟩
  refine each properties isProperties name property isProperty _ ?_
  refine mem_filterMap.mpr ⟨(name, mem), inside, ?_⟩
  rw [normalizedMember_eq isProperties, keepsMember_property isProperties distinct isProperty, stays,
    lookup_of_mem distinct isProperty]
  rfl

theorem membersHold_of_keptMembers
    (known : ∀ name ∈ members.map fst, name ∈ propertyNames kws)
    (namesHold : NamesHold kws (keptNames check kws members))
    (each : ∀ name property, (name, property) ∈ properties → ∀ mem, (name, mem) ∈ members →
      dropsNull check (stringsOf (lookup "required" kws)) name property mem = false →
      valid property (normalizeOptionalNulls check property mem)) :
    MembersHold valid kws (normalizeOptionalNulls check (.obj kws) (.obj members)) := by
  rw [normalize_obj_eq isProperties distinct names]
  intro dropped same
  cases same
  refine ⟨by rwa [names_normalized isProperties], fun other isOther => ?_, fun _ _ => ?_⟩
  · rw [isProperties] at isOther
    cases isOther
    intro name property isProperty result isResult
    obtain ⟨⟨own, mem⟩, inside, made⟩ := mem_filterMap.mp isResult
    rw [normalizedMember_eq isProperties] at made
    split_ifs at made with stays
    cases made
    rw [keepsMember_property isProperties distinct isProperty, Bool.not_eq_true'] at stays
    rw [lookup_of_mem distinct isProperty]
    exact each own property isProperty mem inside stays
  · intro name result isResult unknown
    obtain ⟨mem, inside, made⟩ := mem_filterMap.mp isResult
    rw [show name = mem.1 from normalizedMember_name made] at unknown
    exact absurd (known mem.1 (mem_map_of_mem inside)) unknown

end

theorem kept_of_valid (accepted : makeJsonSchemaNodeStrict schema = .ok strict)
    (shaped : Distinct schema) (unique : Distinct v)
    (valid : Valid isInteger schema (normalizeOptionalNulls check schema v)) :
    NamesKept check schema v := by
  induction size : sizeOf schema using Nat.strongRecOn generalizing schema strict v with
  | _ size ih =>
  subst size
  obtain ⟨kws, others, rfl, rfl, walked, node⟩ := makeStrict_ok accepted
  obtain ⟨⟨all, one⟩, -⟩ := walked.combinators
  rw [valid_obj all one] at valid
  obtain ⟨-, -, -, eachItem, eachMember⟩ := valid
  cases v with
  | arr items =>
    rcases walked.items with ⟨none, -⟩ | ⟨each, other, isItems, -, single, made⟩
    · exact kept_no_items none
    · have smaller : sizeOf each < sizeOf (Json.obj kws) := by
        have lt := sizeOf_lookup_lt isItems
        rw [obj.sizeOf_spec]
        omega
      rw [kept_arr isItems]
      intro item inside
      rw [normalize_items isItems single] at eachItem
      exact ih _ smaller made (shaped.member (lookup_mem isItems)) (unique.item inside)
        ((eachItem _ rfl).2 each isItems single _ (mem_map_of_mem inside)) rfl
  | obj members =>
    by_cases shape : ∃ properties, lookup "properties" kws = some (.obj properties)
    · obtain ⟨properties, isProperties⟩ := shape
      have node := node_of_properties node isProperties
      have propertiesShaped := shaped.member (lookup_mem isProperties)
      obtain ⟨names, each⟩ := keptMembers_of_membersHold isProperties propertiesShaped.names
        unique.names eachMember
      rw [kept_obj isProperties]
      refine ⟨names, fun name property isProperty mem inside stays => ?_⟩
      obtain ⟨-, made, -, ok, -⟩ := node.property isProperties isProperty
      have smaller : sizeOf property < sizeOf (Json.obj kws) := by
        have lt := sizeOf_lookup_member isProperties isProperty
        rw [obj.sizeOf_spec]
        omega
      exact ih _ smaller ok (propertiesShaped.member isProperty) (unique.member inside)
        (each name property isProperty mem inside stays) rfl
    · have unshaped : ∀ properties, lookup "properties" kws ≠ some (.obj properties) :=
        fun properties same => shape ⟨properties, same⟩
      rw [kept_unshaped unshaped]
      rw [normalize_no_properties unshaped] at eachMember
      exact (eachMember members rfl).1
  | _ => exact kept_plain (fun _ => nofun) fun _ => nofun

/-- Where nothing is dropped under a keyword about the whole and the kept names are as wanted, a
value that is valid under the strict schema is valid once its nulls are dropped. -/
theorem valid_of_kept (decides : Decides isInteger check)
    (accepted : makeJsonSchemaNodeStrict schema = .ok strict) (plain : Plain schema)
    (shaped : Distinct schema) (unique : Distinct v) (valid : Valid isInteger strict v)
    (free : Free check schema v) (kept : NamesKept check schema v) :
    Valid isInteger schema (normalizeOptionalNulls check schema v) := by
  induction size : sizeOf schema using Nat.strongRecOn generalizing schema strict v with
  | _ size ih =>
  subst size
  have lossless : ¬Loses check schema v → normalizeOptionalNulls check schema v = v :=
    normalize_of_lossless accepted shaped unique
  obtain ⟨kws, others, rfl, rfl, walked, node⟩ := makeStrict_ok accepted
  obtain ⟨⟨all, one⟩, allToo, oneToo⟩ := walked.combinators
  rw [valid_obj allToo oneToo] at valid
  obtain ⟨type, values, any, eachItem, eachMember⟩ := valid
  -- Nothing is said of the whole where something is dropped.
  have whole : ValueHolds (lookup "enum" kws) (lookup "const" kws)
        (normalizeOptionalNulls check (.obj kws) v) ∧
      AnyHolds (fun variant => Valid isInteger variant
        (normalizeOptionalNulls check (.obj kws) v)) (lookup "anyOf" kws) := by
    by_cases loses : Loses check (.obj kws) v
    · obtain ⟨enum, const, anyOf⟩ := free _ _ (.here _ _) loses
      change lookup _ _ = _ at enum const anyOf
      rw [enum, const, anyOf]
      exact ⟨⟨fun _ absurd => (nomatch absurd), fun _ absurd => (nomatch absurd)⟩,
        fun _ absurd => (nomatch absurd)⟩
    · rw [lossless loses, ← walked.kept "enum" (by decide), ← walked.kept "const" (by decide)]
      refine ⟨values, (anyHolds_iff walked fun variant other _ plain ok => ?_).mp any⟩
      exact valid_of_unstructured plain ok
  rw [valid_obj all one, typeHolds_normalize, ← walked.kept "type" (by decide)]
  refine ⟨type, whole.1, whole.2, ?_⟩
  cases v with
  | arr items =>
    refine ⟨?_, ?_⟩
    · rcases walked.items with ⟨none, -⟩ | ⟨each, other, isItems, isOther, single, made⟩
      · rw [none]
        exact fun _ _ => ⟨fun _ absurd => (nomatch absurd), fun _ absurd => (nomatch absurd)⟩
      · have smaller : sizeOf each < sizeOf (Json.obj kws) := by
          have lt := sizeOf_lookup_lt isItems
          rw [obj.sizeOf_spec]
          omega
        have plainToo : ∀ schemas, other ≠ .arr schemas := by
          obtain ⟨_, _, -, rfl, -⟩ := makeStrict_ok made
          exact fun _ => nofun
        rw [kept_arr isItems] at kept
        rw [normalize_items isItems single, isItems]
        intro dropped same
        cases same
        refine ⟨fun schemas absurd => (single schemas (Option.some.inj absurd)).elim,
          fun other same _ result isResult => ?_⟩
        cases same
        obtain ⟨item, inside, rfl⟩ := mem_map.mp isResult
        exact ih _ smaller made (plain.items isItems) (shaped.member (lookup_mem isItems))
          (unique.item inside) ((eachItem items rfl).2 other isOther plainToo item inside)
          (free.item isItems inside) (kept item inside) rfl
    · obtain ⟨dropped, shape⟩ := normalize_arr check (.obj kws) items
      rw [shape]
      exact fun _ absurd => nomatch absurd
  | obj members =>
    refine ⟨?_, ?_⟩
    · obtain ⟨dropped, shape⟩ := normalize_obj check (.obj kws) members
      rw [shape]
      exact fun _ absurd => nomatch absurd
    · by_cases shape : ∃ properties, lookup "properties" kws = some (.obj properties)
      · obtain ⟨properties, isProperties⟩ := shape
        have node := node_of_properties node isProperties
        obtain ⟨namesHold, strictMembers, additional⟩ := eachMember members rfl
        have propertiesShaped := shaped.member (lookup_mem isProperties)
        obtain ⟨keptHold, keptMembers⟩ := (kept_obj isProperties).mp kept
        refine membersHold_of_keptMembers isProperties propertiesShaped.names unique.names
          (fun name => (node.names namesHold additional node.propertyNames name).mp) keptHold ?_
        intro name property isProperty mem inside stays
        obtain ⟨stricts, made, isStricts, ok, isMade⟩ := node.property isProperties isProperty
        have smaller : sizeOf property < sizeOf (Json.obj kws) := by
          have lt := sizeOf_lookup_member isProperties isProperty
          rw [obj.sizeOf_spec]
          omega
        have propertyPlain := plain.property isProperties isProperty
        rcases valid_strictProperty decides propertyPlain ok stays
          (strictMembers stricts isStricts name _ isMade mem inside) with valid | ⟨rfl, allowed⟩
        · exact ih _ smaller ok propertyPlain (propertiesShaped.member isProperty)
            (unique.member inside) valid (free.member isProperties isProperty inside stays)
            (keptMembers name property isProperty mem inside stays) rfl
        · rw [normalize_plain]
          · exact allowed
          · exact fun _ => nofun
          · exact fun _ => nofun
      · have unshaped : ∀ properties, lookup "properties" kws ≠ some (.obj properties) :=
          fun properties same => shape ⟨properties, same⟩
        rw [normalize_no_properties unshaped]
        have names := (kept_unshaped unshaped).mp kept
        rcases node with node | node
        · exact (node.membersHold walked _ _).mp eachMember
        · intro dropped same
          cases same
          obtain ⟨namesHold, -, additional⟩ := eachMember members rfl
          refine ⟨names, fun properties same => absurd same (unshaped properties), ?_⟩
          intro _ _ name mem inside unknown
          exact absurd ((node.names namesHold additional node.propertyNames name).mp
            (mem_map_of_mem inside)) unknown
  | _ =>
    rw [normalize_plain]
    · exact ⟨fun _ absurd => (nomatch absurd), fun _ absurd => (nomatch absurd)⟩
    · exact fun _ => nofun
    · exact fun _ => nofun

omit [JsonNumber N] in
theorem makeStrictJsonSchema_ok (accepted : (makeStrictJsonSchema schema).2 = .ok strict) :
    makeJsonSchemaNodeStrict schema = .ok strict := by
  unfold makeStrictJsonSchema at accepted
  dsimp only at accepted
  split_ifs at accepted
  split at accepted
  · cases accepted
  · rename_i made ok
    split_ifs at accepted
    cases accepted
    exact ok

/-- Of an accepted schema: the tool's own stays as it is. A value that is valid under the strict one
is valid under the tool's, once its nulls are dropped, only if the names that it keeps are as
wanted, and then if nothing is dropped under a keyword about the whole. -/
theorem makeStrictJsonSchema_agrees (decides : Decides isInteger check) {schema strict v : Json N}
    (plain : Plain schema) (shaped : Distinct schema) (unique : Distinct v)
    (accepted : (makeStrictJsonSchema schema).2 = .ok strict)
    (valid : Valid isInteger strict v) :
    (makeStrictJsonSchema schema).1 = schema ∧
      (Valid isInteger schema (normalizeOptionalNulls check schema v) →
        NamesKept check schema v) ∧
      (Free check schema v → NamesKept check schema v →
        Valid isInteger schema (normalizeOptionalNulls check schema v)) := by
  have made := makeStrictJsonSchema_ok accepted
  refine ⟨?_, kept_of_valid made shaped unique,
    valid_of_kept decides made plain shaped unique valid⟩
  unfold makeStrictJsonSchema
  dsimp only
  split_ifs
  · rfl
  · split
    · rfl
    · split_ifs <;> rfl

end

def text : Json Int := .obj [("type", .str "string")]

def wanting : Json Int := .obj [
  ("type", .str "object"), ("properties", .obj [("a", text)]), ("minProperties", .num 1)]

def wantingStrict : Json Int := .obj [
  ("type", .str "object"),
  ("properties", .obj [("a", .obj [("anyOf", .arr [text, nullSchema])])]),
  ("minProperties", .num 1), ("required", .arr [.str "a"]), ("additionalProperties", .bool false)]

theorem makeStrict_wanting : (makeStrictJsonSchema wanting).2 = .ok wantingStrict := by
  have nested : makeJsonSchemaNodeStrict text = .ok text := by
    rw [text, makeJsonSchemaNodeStrict]
    rfl
  have nonNull : schemaAllowsNull text = false := by
    rw [text, schemaAllowsNull]
    rfl
  have property : strictProperty [] "a" text = .obj [("anyOf", .arr [text, nullSchema])] := by
    rw [strictProperty, nonNull]
    rfl
  have properties : strictProperties [("type", .str "object"), ("properties", .obj [("a", text)]),
      ("minProperties", .num 1)] (fun schema _ => makeJsonSchemaNodeStrict schema) =
      .ok (some (.obj [("a", .obj [("anyOf", .arr [text, nullSchema])])])) := by
    unfold strictProperties
    split
    · rename_i isProperties
      cases isProperties
      simp [nested, lookup, stringsOf, property, allOk, Except.map]
    · rename_i absurd
      exact (absurd _ rfl).elim
  have node : makeJsonSchemaNodeStrict wanting = .ok wantingStrict := by
    rw [wanting, makeJsonSchemaNodeStrict, properties]
    rfl
  rw [makeStrictJsonSchema, node]
  rfl

variable {isInteger : Int → Bool} {member : Json Int}

theorem valid_text : Valid isInteger text member ↔ member.string?.isSome = true := by
  rw [text, valid_obj rfl rfl]
  refine ⟨fun holds => holds.1, fun isText => ⟨isText, ⟨fun _ absurd => (nomatch absurd),
    fun _ absurd => (nomatch absurd)⟩, fun _ absurd => (nomatch absurd),
    fun items same => ?_, fun members same => ?_⟩⟩
  · rw [same] at isText
    cases isText
  · rw [same] at isText
    cases isText

theorem valid_nullSchema : Valid isInteger nullSchema .null := by
  rw [nullSchema, valid_obj rfl rfl]
  exact ⟨rfl, ⟨fun _ absurd => (nomatch absurd), fun _ absurd => (nomatch absurd)⟩,
    fun _ absurd => (nomatch absurd), fun _ absurd => (nomatch absurd),
    fun _ absurd => (nomatch absurd)⟩

theorem valid_nullable (allowed : member.string?.isSome = true ∨ member = .null) :
    Valid isInteger (.obj [("anyOf", .arr [text, nullSchema])]) member := by
  rw [valid_obj rfl rfl]
  refine ⟨trivial, ⟨fun _ absurd => (nomatch absurd), fun _ absurd => (nomatch absurd)⟩,
    fun variants same => ?_, fun items same => ?_, fun members same => ?_⟩
  · cases same
    rcases allowed with isText | rfl
    · exact ⟨text, by simp, valid_text.mpr isText⟩
    · exact ⟨nullSchema, by simp, valid_nullSchema⟩
  · rcases allowed with isText | isNull
    · rw [same] at isText
      cases isText
    · rw [same] at isNull
      cases isNull
  · rcases allowed with isText | isNull
    · rw [same] at isText
      cases isText
    · rw [same] at isNull
      cases isNull

theorem valid_wantingStrict (allowed : member.string?.isSome = true ∨ member = .null) :
    Valid isInteger wantingStrict (.obj [("a", member)]) := by
  rw [wantingStrict, valid_obj rfl rfl]
  refine ⟨rfl, ⟨fun _ absurd => (nomatch absurd), fun _ absurd => (nomatch absurd)⟩,
    fun _ absurd => (nomatch absurd), fun _ absurd => (nomatch absurd), fun members same => ?_⟩
  cases same
  refine ⟨⟨?_, ?_, fun _ absurd => (nomatch absurd)⟩, ?_, ?_⟩
  · intro required same name inside
    cases same
    cases mem_singleton.mp inside
    exact mem_singleton_self _
  · intro number same least isLeast
    cases same
    cases isLeast
    exact Nat.le_refl 1
  · intro properties same name property isProperty other inside
    cases same
    cases mem_singleton.mp isProperty
    cases mem_singleton.mp inside
    exact valid_nullable allowed
  · intro additional same name other inside unknown
    cases mem_singleton.mp inside
    exact absurd (mem_singleton_self _) unknown

theorem plain_wanting : Plain wanting := by
  have plainText : Plain text := by
    refine .obj (fun key keyword inside => ?_) (fun _ absurd => nomatch absurd)
      (fun _ absurd => nomatch absurd) (fun _ absurd => nomatch absurd) fun _ absurd => nomatch absurd
    cases mem_singleton.mp inside
    decide
  refine .obj (fun key keyword inside => ?_) (fun _ absurd => nomatch absurd)
    (fun properties same name property isProperty => ?_) (fun _ absurd => nomatch absurd)
    fun _ absurd => nomatch absurd
  · simp only [mem_cons, mk.injEq, not_mem_nil, or_false] at inside
    rcases inside with ⟨rfl, -⟩ | ⟨rfl, -⟩ | ⟨rfl, -⟩ <;> decide
  · cases same
    cases mem_singleton.mp isProperty
    exact plainText

theorem distinct_one {name : String} {v : Json Int} (distinct : Distinct v) :
    Distinct (.obj [(name, v)]) := by
  refine .obj (nodup_singleton _) fun other mem inside => ?_
  cases mem_singleton.mp inside
  exact distinct

theorem distinct_wanting : Distinct wanting := by
  refine .obj (by decide) fun name mem inside => ?_
  simp only [mem_cons, mk.injEq, not_mem_nil, or_false] at inside
  rcases inside with ⟨-, rfl⟩ | ⟨-, rfl⟩ | ⟨-, rfl⟩
  · exact .str _
  · exact distinct_one (distinct_one (.str _))
  · exact .num _

theorem decides_classical : ∃ check, Decides (fun _ : Int => true) check := by
  classical
  refine ⟨fun schema v => some (decide (Valid (fun _ => true) schema v)), ?_⟩
  exact fun kws _ v => ⟨_, rfl, decide_eq_true_iff⟩

theorem makeStrictJsonSchema_agrees_sample : ∃ check,
    Valid (fun _ : Int => true) wanting
      (normalizeOptionalNulls check wanting (.obj [("a", .str "x")])) := by
  obtain ⟨check, decides⟩ := decides_classical
  refine ⟨check, ?_⟩
  have plainPart : ∀ {inner part}, Visits check text (.str "x") inner part →
      inner = text ∧ part = .str "x" := Visits.of_plain (fun _ => nofun) fun _ => nofun
  have visited : ∀ inner part, Visits check wanting (.obj [("a", .str "x")]) inner part →
      inner = wanting ∧ part = .obj [("a", .str "x")] ∨ inner = text ∧ part = .str "x" := by
    intro inner part visits
    generalize schema : wanting = outer at visits
    cases visits with
    | here => exact .inl ⟨rfl, rfl⟩
    | member isProperties isProperty inside kept rest =>
      cases schema
      cases isProperties
      cases List.mem_singleton.mp isProperty
      cases List.mem_singleton.mp inside
      exact .inr (plainPart rest)
  have agrees := makeStrictJsonSchema_agrees decides plain_wanting distinct_wanting
    (distinct_one (.str "x")) makeStrict_wanting (valid_wantingStrict (.inl rfl))
  refine agrees.2.2 ?_ ?_
  · rintro inner part visits -
    rcases visited inner part visits with ⟨rfl, -⟩ | ⟨rfl, -⟩
    · exact ⟨rfl, rfl, rfl⟩
    · exact ⟨rfl, rfl, rfl⟩
  · intro inner part visits kws members isSchema isPart
    rcases visited inner part visits with ⟨rfl, rfl⟩ | ⟨-, rfl⟩
    · cases isSchema
      cases isPart
      refine ⟨fun _ absurd => (nomatch absurd), fun number same least isLeast => ?_,
        fun _ absurd => (nomatch absurd)⟩
      cases same
      cases isLeast
      exact Nat.le_refl 1
    · cases isPart

/-- The null of the optional member is dropped, and the object has no member left. -/
theorem wanting_missed :
    (makeStrictJsonSchema wanting).2 = .ok wantingStrict ∧
    Valid (fun _ => true) wantingStrict (.obj [("a", .null)]) ∧
    ∀ check, Decides (fun _ => true) check →
      ¬Valid (fun _ => true) wanting
        (normalizeOptionalNulls check wanting (.obj [("a", .null)])) := by
  refine ⟨makeStrict_wanting, valid_wantingStrict (.inr rfl), fun check decides valid => ?_⟩
  have names := kept_of_valid (makeStrictJsonSchema_ok makeStrict_wanting) distinct_wanting
    (distinct_one .null) valid wanting _ (.here _ _) _ _ rfl rfl
  have least : 1 ≤ (keptNames check _ [("a", Json.null)]).length := names.2.1 _ rfl 1 rfl
  have plainText : Plain text := plain_wanting.property rfl (List.mem_singleton_self _)
  obtain ⟨result, checked, same⟩ := decides _ plainText .null
  have refused : result = false := by
    rw [Bool.eq_false_iff]
    intro allowed
    have isText := valid_text.mp (same.mp allowed)
    cases isText
  have drops : dropsNull check [] "a" text .null = true := by
    rw [dropsNull, text, checked, refused]
    rfl
  have lost : keptNames check [("type", .str "object"), ("properties", .obj [("a", text)]),
      ("minProperties", .num (1 : Int))] [("a", .null)] = [] := by
    refine congrArg (List.map fst) (List.filter_eq_nil_iff.mpr fun mem inside => ?_)
    rw [List.mem_singleton.mp inside]
    exact fun keeps => Bool.noConfusion ((Bool.not_eq_true' _ |>.mp keeps).symm.trans drops)
  rw [lost] at least
  cases least

end Trpi.Ai
