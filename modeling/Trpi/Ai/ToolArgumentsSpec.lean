import Trpi.Ai.StrictAgreement
import Trpi.Ai.ToolArgumentsFit

/-!
# What validation returns

Arguments that satisfy the schema and fit part by part are returned as they are. What is returned
satisfies the schema unless neither a scalar nor what it is coerced to does.
-/

namespace Trpi.Ai

open Library

open List hiding lookup
open Json

variable {N : Type}

mutual

theorem distinct_toValue : ∀ {v : Json N}, Distinct v → Distinct (toValue v)
  | .null, _ => .null
  | .bool flag, _ => .bool flag
  | .num _, _ => .num _
  | .str text, _ => .str text
  | .arr _, distinct => .arr (distinct_toValues fun _ inside => distinct.item inside)
  | .obj _, distinct => by
    have both := distinct_toMembers fun _ _ inside => distinct.member inside
    exact .obj (both.1 ▸ distinct.names) both.2

theorem distinct_toValues : ∀ {items : List (Json N)}, (∀ item ∈ items, Distinct item) →
    ∀ v ∈ toValues items, Distinct v
  | [], _, _, inside => nomatch inside
  | _ :: _, each, _, inside => by
    rcases mem_cons.mp inside with rfl | later
    · exact distinct_toValue (each _ mem_cons_self)
    · exact distinct_toValues (fun item isItem => each item (mem_cons_of_mem _ isItem)) _ later

theorem distinct_toMembers : ∀ {members : List (String × Json N)},
    (∀ name mem, (name, mem) ∈ members → Distinct mem) →
    (members.map Prod.fst = (toMembers members).map Prod.fst) ∧
      ∀ name v, (name, v) ∈ toMembers members → Distinct v
  | [], _ => ⟨rfl, fun _ _ inside => nomatch inside⟩
  | (name, _) :: _, each => by
    have rest := distinct_toMembers fun other mem isMember =>
      each other mem (mem_cons_of_mem _ isMember)
    refine ⟨congrArg (name :: ·) rest.1, fun other v inside => ?_⟩
    rcases mem_cons.mp inside with same | later
    · cases same
      exact distinct_toValue (each _ _ mem_cons_self)
    · exact rest.2 other v later

end

section

variable {library : SchemaLibrary N} {tool : Tool N} {toolCall : ToolCall N} {args : Json N}

theorem isStructured_toValue (v : Json N) : isStructured (toValue v) = isStructured v := by
  cases v <;> rfl

theorem isStructured_prepared (library : SchemaLibrary N) (schema args : Json N) :
    isStructured (preparedArguments library schema args) = isStructured args := by
  unfold preparedArguments
  cases args with
  | arr items =>
    obtain ⟨others, same⟩ := normalize_arr
      (fun schema v => library.check schema (toValue v)) schema items
    simp only [same]
    exact library.convert_structured schema _ rfl
  | obj members =>
    obtain ⟨others, same⟩ := normalize_obj
      (fun schema v => library.check schema (toValue v)) schema members
    simp only [same]
    exact library.convert_structured schema _ rfl
  | _ =>
    rw [normalize_plain]
    · rfl
    · exact fun _ => nofun
    · exact fun _ => nofun

theorem prepared_scalar (scalar : isStructured args = false) (schema : Json N) :
    preparedArguments library schema args = args := by
  unfold preparedArguments
  cases args with
  | arr items => cases scalar
  | obj members => cases scalar
  | _ =>
    rw [normalize_plain]
    · rfl
    · exact fun _ => nofun
    · exact fun _ => nofun

/-- Valid arguments whose nulls stay are not changed before they are coerced. -/
theorem prepared_of_valid
    (keeps : ∀ schema v, library.check schema (toValue v) = some true →
      library.convert schema v = v) {schema : Json N} (unique : Distinct args)
    (valid : library.check schema (toValue args) = some true)
    (stay : NullsStay (fun schema v => library.check schema (toValue v)) schema args) :
    preparedArguments library schema args = args := by
  rw [preparedArguments, normalize_of_nullsStay unique stay]
  split_ifs
  · exact keeps schema args valid
  · rfl

variable [DecidableEq N] [JsonNumber N] {numbers : Numbers N}

omit [JsonNumber N] in
theorem samePrimitive_self (scalar : isStructured args = false) :
    samePrimitive (toValue args) (toValue args) = true := by
  cases args with
  | arr items => cases scalar
  | obj members => cases scalar
  | _ => simp [toValue, samePrimitive]

omit [DecidableEq N] in
theorem checkArguments_ok {v result : Value N}
    (success : checkArguments library tool toolCall v = .ok result) :
    library.check tool.parameters result = some true := by
  unfold checkArguments at success
  split_ifs at success with valid
  exact Except.ok.inj success ▸ valid

/-- Neither the scalar nor what it is coerced to is valid, and the two differ. -/
def ReturnsUnchecked (library : SchemaLibrary N) (numbers : Numbers N) (tool : Tool N)
    (args : Json N) : Prop :=
  isStructured args = false ∧ tool.isTypeBox = false ∧
    library.check tool.parameters (toValue args) = some false ∧
    ∃ coerced, coerceWithJsonSchema numbers library.check tool.parameters (toValue args) =
        .ok coerced ∧
      samePrimitive coerced (toValue args) = false ∧
      library.check tool.parameters coerced ≠ some true

theorem validate_sound_iff :
    (∀ v, (validateToolArguments library numbers tool toolCall).2 = .ok v →
      library.check tool.parameters v = some true) ↔
      ¬ReturnsUnchecked library numbers tool toolCall.arguments := by
  constructor
  · rintro sound ⟨scalar, plain, invalid, coerced, same, differs, refused⟩
    have returned : (validateToolArguments library numbers tool toolCall).2 =
        .ok (toValue toolCall.arguments) := by
      unfold validateToolArguments
      dsimp only
      rw [prepared_scalar scalar, invalid, plain, same, isStructured_toValue, scalar]
      dsimp only
      rw [differs, if_neg refused]
      rfl
    have valid := sound _ returned
    rw [invalid] at valid
    cases valid
  · intro checked v success
    unfold validateToolArguments at success
    dsimp only at success
    split_ifs at success with uncompiled typeBox structured
    · exact checkArguments_ok success
    · split at success
      · cases success
      · exact checkArguments_ok success
    · rw [isStructured_toValue, isStructured_prepared, Bool.not_eq_true] at structured
      rw [prepared_scalar structured] at success uncompiled
      split at success
      · cases success
      · rename_i coerced same
        split_ifs at success with unchanged valid
        · exact checkArguments_ok success
        · cases success
          exact valid
        · cases success
          by_contra invalid
          refine checked ⟨structured, by simpa using typeBox, ?_, coerced, same,
            by simpa using unchanged, valid⟩
          cases answer : library.check tool.parameters (toValue toolCall.arguments) with
          | none => exact absurd (by rw [answer]; rfl) uncompiled
          | some flag =>
            cases flag with
            | true => exact absurd answer invalid
            | false => rfl

theorem validate_of_valid
    (keeps : ∀ schema v, library.check schema (toValue v) = some true →
      library.convert schema v = v) (unique : Distinct toolCall.arguments)
    (valid : library.check tool.parameters (toValue toolCall.arguments) = some true)
    (stay : NullsStay (fun schema v => library.check schema (toValue v)) tool.parameters
      toolCall.arguments)
    (fits : tool.isTypeBox = false →
      Fits numbers library.check tool.parameters (toValue toolCall.arguments)) :
    (validateToolArguments library numbers tool toolCall).2 = .ok (toValue toolCall.arguments) := by
  have checked : checkArguments library tool toolCall (toValue toolCall.arguments) =
      .ok (toValue toolCall.arguments) := by
    rw [checkArguments, if_pos valid]
  unfold validateToolArguments
  dsimp only
  rw [prepared_of_valid keeps unique valid stay, valid]
  cases typeBox : tool.isTypeBox with
  | true => exact checked
  | false =>
    rw [coerce_of_fits (distinct_toValue unique) (fits typeBox)]
    dsimp only
    cases structured : isStructured (toValue toolCall.arguments) with
    | true => exact checked
    | false =>
      rw [isStructured_toValue] at structured
      rw [samePrimitive_self structured]
      exact checked

end

/-- No property is one that objects inherit, and each variant of a union has a validator. -/
inductive Ordinary : Json N → Prop
  | bool (flag : Bool) : Ordinary (.bool flag)
  | obj {keywords : List (String × Json N)}
    (own : ∀ name ∈ propertyNames keywords, name ∉ inheritedNames)
    (variants : ∀ variants, lookup "anyOf" keywords = some (.arr variants) →
      ∀ variant ∈ variants, variant.isObject = true)
    (items : ∀ each, lookup "items" keywords = some each → Ordinary each)
    (properties : ∀ properties, lookup "properties" keywords = some (.obj properties) →
      ∀ name property, (name, property) ∈ properties → Ordinary property)
    (additional : ∀ keyword, lookup "additionalProperties" keywords = some keyword →
      Ordinary keyword) : Ordinary (.obj keywords)

theorem toValues_eq (items : List (Json N)) : toValues items = items.map toValue := by
  induction items with
  | nil => rfl
  | cons item rest ih => exact congrArg (toValue item :: ·) ih

theorem toMembers_eq (members : List (String × Json N)) :
    toMembers members = members.map fun mem => (mem.1, toValue mem.2) := by
  induction members with
  | nil => rfl
  | cons mem rest ih => exact congrArg ((mem.1, toValue mem.2) :: ·) ih

theorem lookup_toMembers (name : String) (members : List (String × Json N)) :
    lookup name (toMembers members) = (lookup name members).map toValue := by
  induction members with
  | nil => rfl
  | cons mem rest ih =>
    obtain ⟨candidate, v⟩ := mem
    rw [toMembers, lookup, lookup, ih]
    cases lookup name rest with
    | some later => rfl
    | none =>
      dsimp only [Option.map]
      split_ifs <;> rfl

theorem matchesJsonType_toValue (numbers : Numbers N) (v : Json N) (type : String) :
    matchesJsonType numbers (toValue v) type = v.hasType numbers.isInteger type := by
  unfold hasType
  split
  case h_8 number integer boolean string null array object =>
    unfold matchesJsonType
    split
    · exact absurd rfl number
    · exact absurd rfl integer
    · exact absurd rfl boolean
    · exact absurd rfl string
    · exact absurd rfl null
    · exact absurd rfl array
    · exact absurd rfl object
    · rfl
  all_goals cases v <;> rfl

section

variable {numbers : Numbers N} {library : SchemaLibrary N} [JsonNumber N]
  {kws : List (String × Json N)}

omit [JsonNumber N] in
theorem plain_unknown (plain : Plain (.obj kws)) {key : String}
    (foreign : key ∉ schemaKeywords) : lookup key kws = none := by
  cases found : lookup key kws with
  | none => rfl
  | some keyword =>
    cases plain with
    | obj known => exact absurd (known key keyword (lookup_mem found)) foreign

variable {schema v : Json N}

section

variable (decides : Decides numbers.isInteger fun schema v => library.check schema (toValue v))
  (plain : Plain schema)

include decides plain

theorem check_of_valid (valid : Valid numbers.isInteger schema v) :
    library.check schema (toValue v) ≠ some false := by
  intro refused
  cases plain with
  | bool flag => cases refused
  | obj known items properties additional anyOf =>
    obtain ⟨result, answer, same⟩ := decides _ (.obj known items properties additional anyOf) v
    dsimp only at answer
    rw [refused] at answer
    cases answer
    exact absurd (same.mpr valid) Bool.false_ne_true

theorem check_object_of_valid (object : schema.isObject = true)
    (valid : Valid numbers.isInteger schema v) : library.check schema (toValue v) = some true := by
  cases plain with
  | bool flag => cases object
  | obj known items properties additional anyOf =>
    obtain ⟨result, answer, same⟩ := decides _ (.obj known items properties additional anyOf) v
    rw [same.mpr valid] at answer
    exact answer

end

omit [JsonNumber N] in
theorem plain_single (plain : Plain (.obj kws))
    {schemas : List (Json N)} : lookup "items" kws ≠ some (.arr schemas) :=
  fun isTuple => nomatch plain.items isTuple

section

variable (decides : Decides numbers.isInteger fun schema v => library.check schema (toValue v))
  (plain : Plain schema)

include decides plain

theorem nullsStay_of_valid (unique : Distinct v) (valid : Valid numbers.isInteger schema v) :
    NullsStay (fun schema v => library.check schema (toValue v)) schema v := by
  induction size : sizeOf schema using Nat.strongRecOn generalizing schema v with
  | _ size ih =>
  subst size
  cases schema with
  | obj kws =>
    have all := plain_unknown plain (show "allOf" ∉ schemaKeywords by decide)
    have one := plain_unknown plain (show "oneOf" ∉ schemaKeywords by decide)
    rw [valid_obj all one] at valid
    obtain ⟨-, -, -, eachItem, eachMember⟩ := valid
    rw [NullsStay]
    refine ⟨fun items isItems => ⟨fun schemas isTuple => absurd isTuple (plain_single plain),
      fun each isEach single item inside => ?_⟩, fun members isMembers properties isProperties name
        property isProperty mem found => ?_⟩
    · subst isItems
      refine ih _ ?_ (plain.items isEach) (unique.item inside)
        ((eachItem items rfl).2 each isEach single item inside) rfl
      have lt := sizeOf_lookup_lt isEach
      rw [obj.sizeOf_spec]
      omega
    · subst isMembers
      have inside := lookup_mem found
      have memberValid := (eachMember members rfl).2.1 properties isProperties name property
        isProperty mem inside
      have propertyPlain := plain.property isProperties isProperty
      constructor
      · cases mem with
        | null =>
          have accepted := check_of_valid decides propertyPlain memberValid
          change library.check property .null ≠ some false at accepted
          rw [dropsNull]
          change (_ && decide (library.check property .null = some false)) = false
          rw [decide_eq_false accepted, Bool.and_false]
        | _ => rfl
      · refine ih _ ?_ propertyPlain (unique.member inside) memberValid rfl
        have lt := sizeOf_lookup_member isProperties isProperty
        rw [obj.sizeOf_spec]
        omega
  | _ =>
    rw [NullsStay]
    · trivial
    · simp

theorem fits_of_valid (ordinary : Ordinary schema) (unique : Distinct v)
    (valid : Valid numbers.isInteger schema v) : Fits numbers library.check schema (toValue v) := by
  induction size : sizeOf schema using Nat.strongRecOn generalizing schema v with
  | _ size ih =>
  subst size
  cases ordinary with
  | bool flag =>
    rw [Fits]
    · trivial
    · simp
  | @obj kws own variants eachOrdinary propertiesOrdinary additionalOrdinary =>
    have all := plain_unknown plain (show "allOf" ∉ schemaKeywords by decide)
    have one := plain_unknown plain (show "oneOf" ∉ schemaKeywords by decide)
    rw [valid_obj all one] at valid
    obtain ⟨type, -, any, eachItem, eachMember⟩ := valid
    rw [Fits]
    refine ⟨fun nested isAll => ?_, fun key inside schemas isUnion => ?_, fun some => ?_,
      fun items isItems _ => ?_, fun members isMembers _ => ?_⟩
    · rw [all] at isAll
      cases isAll
    · simp only [mem_cons, not_mem_nil, or_false] at inside
      rcases inside with rfl | rfl
      · obtain ⟨variant, inside, holds⟩ := any schemas isUnion
        refine ⟨variant, inside, check_object_of_valid decides ?_
          (variants schemas isUnion variant inside) holds⟩
        cases plain with
        | obj _ _ _ _ anyOf => exact anyOf schemas isUnion variant inside
      · rw [one] at isUnion
        cases isUnion
    · simp only [matchesJsonType_toValue]
      cases keyword : lookup "type" kws with
      | none =>
        rw [keyword] at some
        exact absurd rfl some
      | some keyword' =>
        rw [keyword] at some type
        cases keyword' with
        | str name => exact ⟨name, mem_singleton_self _, type⟩
        | arr types =>
          obtain ⟨name, inside, holds⟩ := type
          exact ⟨name, mem_filterMap.mpr ⟨_, inside, rfl⟩, holds⟩
        | _ => exact absurd rfl some
    · refine ⟨fun schemas isTuple => absurd isTuple (plain_single plain),
        fun each isEach item inside => ?_⟩
      cases v with
      | arr sources =>
        cases isItems
        rw [toValues_eq] at inside
        obtain ⟨source, isSource, rfl⟩ := mem_map.mp inside
        refine ih _ ?_ (plain.items isEach) (eachOrdinary _ isEach) (unique.item isSource)
          ((eachItem sources rfl).2 _ isEach (fun _ absurd => by cases absurd) source isSource) rfl
        have lt := sizeOf_lookup_lt isEach
        rw [obj.sizeOf_spec kws]
        omega
      | _ => cases isItems
    · cases v with
      | obj sources =>
        cases isMembers
        obtain ⟨-, properties, additional⟩ := eachMember sources rfl
        constructor
        · intro schemas isProperties name property isProperty mem found
          have known : name ∈ propertyNames kws := by
            rw [propertyNames, isProperties]
            exact mem_map_of_mem isProperty
          unfold memberIn at found
          rw [if_neg (own name known)] at found
          split at found
          · rename_i own isOwn
            cases found
            refine ⟨isOwn, ?_⟩
            rw [lookup_toMembers, Option.map_eq_some_iff] at isOwn
            obtain ⟨source, isSource, rfl⟩ := isOwn
            refine ih _ ?_ (plain.property isProperties isProperty)
              (propertiesOrdinary schemas isProperties name property isProperty)
              (unique.member (lookup_mem isSource))
              (properties schemas isProperties name property isProperty source
                (lookup_mem isSource)) rfl
            have lt := sizeOf_lookup_member isProperties isProperty
            rw [obj.sizeOf_spec]
            omega
          · cases found
        · intro schema isAdditional name mem inside unknown
          rw [toMembers_eq] at inside
          obtain ⟨source, isSource, same⟩ := mem_map.mp inside
          cases same
          refine ih _ ?_ ?_ (additionalOrdinary _ isAdditional)
            (unique.member (show (source.1, source.2) ∈ sources from isSource))
            (additional _ isAdditional source.1 source.2 isSource unknown) rfl
          · have lt := sizeOf_lookup_lt isAdditional
            rw [obj.sizeOf_spec kws]
            omega
          · cases plain with
            | obj _ _ _ additional _ => exact additional _ isAdditional
      | _ => cases isMembers

end

variable [DecidableEq N] {tool : Tool N} {toolCall : ToolCall N}

/-- Of validation: the tool call stays as it is. What is returned satisfies the schema unless a
scalar is returned unchecked, and arguments that satisfy it and fit part by part are returned. -/
theorem validateToolArguments_spec
    (keeps : ∀ schema v, library.check schema (toValue v) = some true →
      library.convert schema v = v) (unique : Distinct toolCall.arguments) :
    (validateToolArguments library numbers tool toolCall).1 = toolCall ∧
    ((∀ v, (validateToolArguments library numbers tool toolCall).2 = .ok v →
        library.check tool.parameters v = some true) ↔
      ¬ReturnsUnchecked library numbers tool toolCall.arguments) ∧
    (library.check tool.parameters (toValue toolCall.arguments) = some true →
      NullsStay (fun schema v => library.check schema (toValue v)) tool.parameters
        toolCall.arguments →
      (tool.isTypeBox = false →
        Fits numbers library.check tool.parameters (toValue toolCall.arguments)) →
      (validateToolArguments library numbers tool toolCall).2 =
        .ok (toValue toolCall.arguments)) :=
  ⟨rfl, validate_sound_iff, validate_of_valid keeps unique⟩

/-- Under a plain schema with own names only, valid arguments are returned. -/
theorem validate_plain
    (decides : Decides numbers.isInteger fun schema v => library.check schema (toValue v))
    (keeps : ∀ schema v, library.check schema (toValue v) = some true →
      library.convert schema v = v) (plain : Plain tool.parameters)
    (ordinary : Ordinary tool.parameters) (unique : Distinct toolCall.arguments)
    (accepted : library.check tool.parameters (toValue toolCall.arguments) = some true) :
    (validateToolArguments library numbers tool toolCall).2 = .ok (toValue toolCall.arguments) := by
  have valid : Valid numbers.isInteger tool.parameters toolCall.arguments := by
    cases schema : tool.parameters with
    | obj kws =>
      rw [schema] at plain accepted
      obtain ⟨result, answer, same⟩ := decides kws plain toolCall.arguments
      dsimp only at answer
      rw [accepted] at answer
      cases answer
      exact same.mp rfl
    | _ =>
      rw [schema] at accepted
      cases accepted
  exact validate_of_valid keeps unique accepted (nullsStay_of_valid decides plain unique valid)
    fun _ => fits_of_valid decides plain ordinary unique valid

end

def intNumbers : Numbers Int where
  zero := 0
  one := 1
  isInteger := fun _ => true
  ofText := fun text => text.toInt?
  toText := fun number => toString number

/-- The keywords that decide the samples. -/
def sampleCheck (schema : Json Int) (v : Value Int) : Bool :=
  (typeNames (schema.get? "type")).all (matchesJsonType intNumbers v) &&
    match (schema.get? "minLength").bind Json.nat?, v with
    | some least, .str text => least ≤ text.length
    | _, _ => true

def sampleLibrary : SchemaLibrary Int where
  compile := fun schema => some (sampleCheck schema)
  convert := fun _ v => v
  convert_structured := fun _ _ structured => structured
  errors := fun _ _ => []

def someText : Tool Int where
  name := "say"
  parameters := .obj [("type", .str "string"), ("minLength", .num 1)]
  isTypeBox := false

def measures : Tool Int where
  name := "measure"
  parameters := .obj [
    ("type", .str "object"),
    ("patternProperties", .obj [("^x", .obj [])]),
    ("additionalProperties", .obj [("type", .str "string")])]
  isTypeBox := false

def calls (name : String) (args : Json Int) : ToolCall Int := ⟨"1", name, args, none, none⟩

/-- A text is returned as it is. -/
theorem validateToolArguments_spec_sample :
    (validateToolArguments sampleLibrary intNumbers someText (calls "say" (.str "x"))).2 =
      .ok (.str "x") := by
  have spec := @validateToolArguments_spec Int intNumbers sampleLibrary _ _ someText
    (calls "say" (.str "x")) (fun _ _ _ => rfl) (.str "x")
  refine spec.2.2 rfl ?_ fun _ => ?_
  · rw [someText, NullsStay]
    exact ⟨fun _ absurd => (by cases absurd), fun _ absurd => (by cases absurd)⟩
  · rw [someText, Fits]
    refine ⟨fun _ absurd => (by cases absurd), fun key inside variants isUnion => ?_,
      fun _ => ⟨"string", mem_singleton_self _, rfl⟩, fun _ absurd => (by cases absurd),
      fun _ absurd => (by cases absurd)⟩
    simp only [mem_cons, not_mem_nil, or_false] at inside
    rcases inside with rfl | rfl <;> cases isUnion

mutual

theorem toValue_inj : ∀ {v w : Json N}, toValue v = toValue w → v = w
  | .arr _, .arr _, same => congrArg _ (toValues_inj (arr.inj same))
  | .obj _, .obj _, same => congrArg _ (toMembers_inj (obj.inj same))
  | .null, w, same | .bool _, w, same | .num _, w, same | .str _, w, same => by
    cases w <;> cases same
    rfl

theorem toValues_inj : ∀ {v w : List (Json N)}, toValues v = toValues w → v = w
  | [], [], _ => rfl
  | _ :: _, _ :: _, same =>
    have parts := cons.inj same
    congr (congrArg _ (toValue_inj parts.1)) (toValues_inj parts.2)

theorem toMembers_inj : ∀ {v w : List (String × Json N)}, toMembers v = toMembers w → v = w
  | [], [], _ => rfl
  | _ :: _, _ :: _, same =>
    have parts := cons.inj same
    have first := Prod.mk.inj parts.1
    congr (congrArg _ (Prod.ext first.1 (toValue_inj first.2))) (toMembers_inj parts.2)

end

theorem validate_plain_text : ∃ library : SchemaLibrary Int,
    Decides (fun _ => true) (fun schema v => library.check schema (toValue v)) ∧
    (validateToolArguments library intNumbers ⟨"say", text, false⟩ (calls "say" (.str "x"))).2 =
      .ok (.str "x") := by
  classical
  let library : SchemaLibrary Int := {
    sampleLibrary with
    compile := fun schema => some fun value =>
      decide (∃ v, toValue v = value ∧ Valid (fun _ => true) schema v) }
  have decides : Decides (fun _ => true) fun schema v => library.check schema (toValue v) := by
    refine fun kws _ v => ⟨_, rfl, decide_eq_true_iff.trans ⟨?_, fun valid => ⟨v, rfl, valid⟩⟩⟩
    rintro ⟨w, same, valid⟩
    exact toValue_inj same ▸ valid
  have plain : Plain text := plain_wanting.property rfl (mem_singleton_self _)
  have ordinary : Ordinary text := .obj (fun _ => nofun) nofun nofun nofun nofun
  obtain ⟨_, accepted, same⟩ := decides _ plain (.str "x")
  rw [same.mpr (valid_text.mpr rfl)] at accepted
  exact ⟨library, decides, validate_plain decides (fun _ _ _ => rfl) plain ordinary (.str _) accepted⟩

theorem coerce_flag : coerceWithJsonSchema intNumbers sampleLibrary.check
    (.obj [("type", .str "string")]) (.bool true) = .ok (.str "true") := by
  rw [coerceWithJsonSchema]
  rfl

/-- A null that no text comes of is returned although it is no text, and a flag of a pattern that
takes any value comes back as a text. -/
theorem arguments_missed :
    ((validateToolArguments sampleLibrary intNumbers someText (calls "say" .null)).2 = .ok .null ∧
      sampleLibrary.check someText.parameters .null = some false) ∧
    (validateToolArguments sampleLibrary intNumbers measures
        (calls "measure" (.obj [("x", .bool true)]))).2 = .ok (.obj [("x", .str "true")]) ∧
      sampleLibrary.check measures.parameters (toValue (.obj [("x", .bool true)])) = some true := by
  refine ⟨⟨?_, rfl⟩, ?_, rfl⟩
  · have prepared : preparedArguments sampleLibrary someText.parameters .null = .null :=
      prepared_scalar rfl _
    have coerced : coerceWithJsonSchema intNumbers sampleLibrary.check someText.parameters
        (toValue .null) = .ok (.str "") := by
      rw [someText, coerceWithJsonSchema]
      rfl
    unfold validateToolArguments
    dsimp only [calls]
    rw [prepared, coerced]
    rfl
  · have coerced : coerceWithJsonSchema intNumbers sampleLibrary.check measures.parameters
        (toValue (.obj [("x", .bool true)])) = .ok (.obj [("x", .str "true")]) := by
      rw [measures, coerceWithJsonSchema]
      simp [coerceAllOf, coerceUnion, coerceParts, applySchemaObjectCoercion, coerceProperties,
        lookup, ok_bind, coerceToTypes, typeNames, matchesJsonType, toValue, toMembers,
        coercePrimitiveByType]
      unfold coerceAdditional
      split
      · rename_i isAdditional
        cases isAdditional
        rw [foldlM_cons]
        simp only [coerce_flag]
        rfl
      · rename_i absurd
        exact (absurd _ rfl).elim
    have prepared : preparedArguments sampleLibrary measures.parameters (.obj [("x", .bool true)]) =
        .obj [("x", .bool true)] := by
      rw [preparedArguments, measures, normalize_no_properties]
      · rfl
      · intro properties absurd
        cases absurd
    unfold validateToolArguments
    dsimp only [calls]
    rw [prepared, coerced]
    rfl

end Trpi.Ai
