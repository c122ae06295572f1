import Trpi.Ai.StrictSchemas
import Trpi.Ai.Types

/-!
# Arguments of tool calls

`validateToolArguments` of ai/src/utils/validation.ts. The schema library is a parameter, and so
is how numbers are read and printed. The walk finds members that an object only inherits, so a
value is a document whose atoms are numbers and built-in functions. No schema is null, and no
property is called `__proto__`.
-/

namespace Trpi.Ai

open Library
open Json

variable {N : Type}

inductive Atom (N : Type) where
  | number (number : N)
  | builtin (name : String)
  deriving DecidableEq

abbrev Value (N : Type) := Json (Atom N)

mutual

def toValue : Json N → Value N
  | .null => .null
  | .bool flag => .bool flag
  | .num number => .num (.number number)
  | .str text => .str text
  | .arr items => .arr (toValues items)
  | .obj members => .obj (toMembers members)

def toValues : List (Json N) → List (Value N)
  | [] => []
  | item :: items => toValue item :: toValues items

def toMembers : List (String × Json N) → List (String × Value N)
  | [] => []
  | (name, member) :: members => (name, toValue member) :: toMembers members

end

mutual

def hasBuiltin : Value N → Bool
  | .num (.builtin _) => true
  | .arr items => anyBuiltin items
  | .obj members => memberBuiltin members
  | _ => false

def anyBuiltin : List (Value N) → Bool
  | [] => false
  | item :: items => hasBuiltin item || anyBuiltin items

def memberBuiltin : List (String × Value N) → Bool
  | [] => false
  | (_, member) :: members => hasBuiltin member || memberBuiltin members

end

def inheritedNames : List String := [
  "constructor",
  "__defineGetter__",
  "__defineSetter__",
  "hasOwnProperty",
  "__lookupGetter__",
  "__lookupSetter__",
  "isPrototypeOf", "propertyIsEnumerable", "toString", "valueOf", "toLocaleString"]

/-- `value[key]` where `key in value`. -/
def memberIn (key : String) (members : List (String × Value N)) : Option (Value N) :=
  match lookup key members with
  | some member => some member
  | none => if key ∈ inheritedNames then some (.num (.builtin key)) else none

structure Numbers (N : Type) where
  zero : N
  one : N
  isInteger : N → Bool
  /-- `Number` of a text that is not blank, if it is finite. -/
  ofText : String → Option N
  toText : N → String

structure ValidationError where
  keyword : String
  instancePath : String
  message : String
  requiredProperties : List String

/-- An array or an object. -/
def isStructured : Json N → Bool
  | .arr _ => true
  | .obj _ => true
  | _ => false

structure SchemaLibrary (N : Type) where
  /-- The validator of a schema, if it can be compiled. -/
  compile : Json N → Option (Value N → Bool)
  /-- The contents of an array or object that was converted where it stands. -/
  convert : Json N → Json N → Json N
  convert_structured : ∀ schema value, isStructured value = true →
    isStructured (convert schema value) = true
  errors : Json N → Value N → List ValidationError

/-- `getValidator(schema)?.Check(value)`; only an object can be a key of the cache. -/
def SchemaLibrary.check (library : SchemaLibrary N) (schema : Json N) (value : Value N) :
    Option Bool :=
  if schema.isObject then (library.compile schema).map fun validator => validator value else none

inductive ToolError where
  | dataClone
  | schema
  | validation (message : String)

def matchesJsonType (numbers : Numbers N) (value : Value N) (type : String) : Bool :=
  match type, value with
  | "number", .num (.number _) => true
  | "integer", .num (.number number) => numbers.isInteger number
  | "boolean", .bool _ => true
  | "string", .str _ => true
  | "null", .null => true
  | "array", .arr _ => true
  | "object", .obj _ => true
  | _, _ => false

/-- What a value of another type becomes; none where the value itself is returned. -/
def coercePrimitiveByType [DecidableEq N] (numbers : Numbers N) (value : Value N) (type : String) :
    Option (Value N) :=
  match type, value with
  | "number", .null => some (.num (.number numbers.zero))
  | "number", .str text => (numbers.ofText text).map fun parsed => .num (.number parsed)
  | "number", .bool flag => some (.num (.number (if flag then numbers.one else numbers.zero)))
  | "integer", .null => some (.num (.number numbers.zero))
  | "integer", .str text =>
    ((numbers.ofText text).filter numbers.isInteger).map fun parsed => .num (.number parsed)
  | "integer", .bool flag => some (.num (.number (if flag then numbers.one else numbers.zero)))
  | "boolean", .null => some (.bool false)
  | "boolean", .str text =>
    if text = "true" then some (.bool true)
    else if text = "false" then some (.bool false)
    else none
  | "boolean", .num (.number number) =>
    if number = numbers.one then some (.bool true)
    else if number = numbers.zero then some (.bool false)
    else none
  | "string", .null => some (.str "")
  | "string", .num (.number number) => some (.str (numbers.toText number))
  | "string", .bool flag => some (.str (if flag then "true" else "false"))
  | "null", .str text => if text = "" then some .null else none
  | "null", .num (.number number) => if number = numbers.zero then some .null else none
  | "null", .bool flag => if flag then none else some .null
  | _, _ => none

/-- The first type of several that a value can be coerced to; a value of one of them stays. -/
def coerceToTypes [DecidableEq N] (numbers : Numbers N) (types : List String) (value : Value N) :
    Value N :=
  if types.length > 1 && types.any (matchesJsonType numbers value) then value
  else (types.findSome? (coercePrimitiveByType numbers value)).getD value

/-- Functions cannot be cloned. -/
def structuredClone (value : Value N) : Except ToolError (Value N) :=
  if hasBuiltin value then .error .dataClone else .ok value

section

variable (check : Json N → Value N → Option Bool)

def coerceToVariant (value : Value N) :
    List (Json N × (Value N → Except ToolError (Value N))) → Except ToolError (Value N)
  | [] => .ok value
  | (schema, coerce) :: rest => do
    let candidate ← structuredClone value
    let coerced ← coerce candidate
    if check schema coerced = some true then return coerced
    else coerceToVariant value rest

/-- A value that one of the variants accepts stays. -/
def coerceWithUnionSchema (value : Value N)
    (schemas : List (Json N × (Value N → Except ToolError (Value N)))) :
    Except ToolError (Value N) :=
  if schemas.any fun schema => check schema.1 value = some true then .ok value
  else coerceToVariant check value schemas

variable (kws : List (String × Json N))
  (coerce : ∀ schema : Json N, sizeOf schema < sizeOf kws → Value N → Except ToolError (Value N))

def coerceAllOf (value : Value N) : Except ToolError (Value N) :=
  match isAll : lookup "allOf" kws with
  | some (.arr nested) =>
    nested.attach.foldlM (fun value schema =>
      coerce schema.1 (sizeOf_lookup_items isAll schema.2) value) value
  | _ => .ok value

/-- `anyOf` or `oneOf`. -/
def coerceUnion (key : String) (value : Value N) : Except ToolError (Value N) :=
  match isUnion : lookup key kws with
  | some (.arr variants) =>
    coerceWithUnionSchema check value (variants.attach.map fun variant =>
      (variant.1, coerce variant.1 (sizeOf_lookup_items isUnion variant.2)))
  | _ => .ok value

def coerceProperties (members : List (String × Value N)) :
    Except ToolError (List (String × Value N)) :=
  match isProperties : lookup "properties" kws with
  | some (.obj properties) =>
    properties.attach.foldlM (fun members entry =>
      match memberIn entry.1.1 members with
      | none => .ok members
      | some member => do
        let coerced ← coerce entry.1.2 (sizeOf_lookup_entry isProperties entry) member
        return setMembers entry.1.1 coerced members) members
  | _ => .ok members

def coerceAdditional (members : List (String × Value N)) :
    Except ToolError (List (String × Value N)) :=
  match isAdditional : lookup "additionalProperties" kws with
  | some (.obj additional) =>
    members.foldlM (fun all entry =>
      if entry.1 ∈ propertyNames kws then .ok all
      else do
        let coerced ← coerce (.obj additional) (sizeOf_lookup_lt isAdditional) entry.2
        return setMembers entry.1 coerced all) members
  | _ => .ok members

def applySchemaObjectCoercion (members : List (String × Value N)) :
    Except ToolError (List (String × Value N)) := do
  let coerced ← coerceProperties kws coerce members
  coerceAdditional kws coerce coerced

def applySchemaArrayCoercion (items : List (Value N)) : Except ToolError (List (Value N)) :=
  match isItems : lookup "items" kws with
  | some (.arr schemas) =>
    items.zipIdx.mapM fun item =>
      if known : item.2 < schemas.length then
        coerce schemas[item.2] (sizeOf_lookup_items isItems (List.getElem_mem known)) item.1
      else .ok item.1
  | some (.obj each) => items.mapM fun item => coerce (.obj each) (sizeOf_lookup_lt isItems) item
  | _ => .ok items

def coerceParts (value : Value N) : Except ToolError (Value N) :=
  match value with
  | .obj members =>
    if "object" ∈ typeNames (lookup "type" kws) then
      (applySchemaObjectCoercion kws coerce members).map .obj
    else .ok value
  | .arr items =>
    if "array" ∈ typeNames (lookup "type" kws) then
      (applySchemaArrayCoercion kws coerce items).map .arr
    else .ok value
  | _ => .ok value

end

def coerceWithJsonSchema [DecidableEq N] (numbers : Numbers N)
    (check : Json N → Value N → Option Bool) (schema : Json N) (value : Value N) :
    Except ToolError (Value N) :=
  match schema with
  | .obj kws => do
    let all ← coerceAllOf kws
      (fun schema _ value => coerceWithJsonSchema numbers check schema value) value
    let any ← coerceUnion check kws
      (fun schema _ value => coerceWithJsonSchema numbers check schema value) "anyOf" all
    let one ← coerceUnion check kws
      (fun schema _ value => coerceWithJsonSchema numbers check schema value) "oneOf" any
    coerceParts kws
      (fun schema _ value => coerceWithJsonSchema numbers check schema value)
      (coerceToTypes numbers (typeNames (lookup "type" kws)) one)
  | _ => .ok value
termination_by sizeOf schema
decreasing_by
  all_goals
    simp only [obj.sizeOf_spec]
    omega

/-- A leading slash is left out, the others become dots. -/
def dottedPath (instancePath : String) : String :=
  let path := match instancePath.toList with
    | '/' :: rest => rest
    | path => path
  String.ofList (path.map fun c => if c = '/' then '.' else c)

def formatValidationPath (error : ValidationError) : String :=
  let path := dottedPath error.instancePath
  match error.keyword, error.requiredProperties with
  | "required", requiredProperty :: _ =>
    if requiredProperty = "" then if path = "" then "root" else path
    else if path = "" then requiredProperty else path ++ "." ++ requiredProperty
  | _, _ => if path = "" then "root" else path

mutual

/-- `JSON.stringify(value, null, 2)`, where the value stands that far in. -/
def indentedChars [JsonNumber N] (indent : Nat) : Json N → List Char
  | .arr (item :: items) =>
    '[' :: '\n' :: (List.replicate (indent + 2) ' ' ++ indentedChars (indent + 2) item ++
      indentedItems indent items)
  | .obj ((name, member) :: members) =>
    '{' :: '\n' :: (List.replicate (indent + 2) ' ' ++ quoteChars name.toList ++ ':' :: ' ' ::
      (indentedChars (indent + 2) member ++ indentedMembers indent members))
  | other => stringifyChars other

def indentedItems [JsonNumber N] (indent : Nat) : List (Json N) → List Char
  | [] => '\n' :: (List.replicate indent ' ' ++ [']'])
  | item :: items =>
    ',' :: '\n' :: (List.replicate (indent + 2) ' ' ++ indentedChars (indent + 2) item ++
      indentedItems indent items)

def indentedMembers [JsonNumber N] (indent : Nat) : List (String × Json N) → List Char
  | [] => '\n' :: (List.replicate indent ' ' ++ ['}'])
  | (name, member) :: members =>
    ',' :: '\n' :: (List.replicate (indent + 2) ' ' ++ quoteChars name.toList ++ ':' :: ' ' ::
      (indentedChars (indent + 2) member ++ indentedMembers indent members))

end

def validationMessage [JsonNumber N] (toolCall : ToolCall N) (errors : List ValidationError) :
    String :=
  let lines := "\n".intercalate (errors.map fun error =>
    "  - " ++ formatValidationPath error ++ ": " ++ error.message)
  "Validation failed for tool \"" ++ toolCall.name ++ "\":\n" ++
    (if lines = "" then "Unknown validation error" else lines) ++ "\n\nReceived arguments:\n" ++
    String.ofList (indentedChars 0 toolCall.arguments)

structure Tool (N : Type) where
  name : String
  parameters : Json N
  /-- The schema was built by the schema library. -/
  isTypeBox : Bool

/-- `===` of values that are no arrays, objects and functions. -/
def samePrimitive [DecidableEq N] : Value N → Value N → Bool
  | .null, .null => true
  | .bool flag, .bool other => flag = other
  | .num number, .num other => number = other
  | .str text, .str other => text = other
  | _, _ => false

def preparedArguments (library : SchemaLibrary N) (schema args : Json N) : Json N :=
  let args := normalizeOptionalNulls (fun schema value => library.check schema (toValue value))
    schema args
  if isStructured args then library.convert schema args else args

def checkArguments [JsonNumber N] (library : SchemaLibrary N) (tool : Tool N)
    (toolCall : ToolCall N) (args : Value N) : Except ToolError (Value N) :=
  if library.check tool.parameters args = some true then .ok args
  else .error (.validation (validationMessage toolCall (library.errors tool.parameters args)))

/-- The tool call afterwards, and the arguments; what is changed is a clone. -/
def validateToolArguments [JsonNumber N] [DecidableEq N] (library : SchemaLibrary N)
    (numbers : Numbers N) (tool : Tool N) (toolCall : ToolCall N) :
    ToolCall N × Except ToolError (Value N) :=
  let args := toValue (preparedArguments library tool.parameters toolCall.arguments)
  (toolCall,
    if (library.check tool.parameters args).isNone then .error .schema
    else if tool.isTypeBox then checkArguments library tool toolCall args
    else
      match coerceWithJsonSchema numbers library.check tool.parameters args with
      | .error error => .error error
      | .ok coerced =>
        -- The contents of a coerced array or object are put in place of the arguments'.
        if isStructured args then checkArguments library tool toolCall coerced
        else if samePrimitive coerced args then checkArguments library tool toolCall args
        else
          .ok (if library.check tool.parameters coerced = some true then coerced else args))

end Trpi.Ai
