import Peritus.ToolProtocol.Json

/-!
The supported schema subset: its constructors, the validation of a value, the
canonical bytes of a schema, and how the successor of a schema is classified.
-/

namespace Peritus.ToolProtocol.Schemas

open Checked SortedTable SortedMap Json

/-! ### Schemas -/

mutual

inductive Schema
  | mk (kind : SchemaKind) (enumValues : List BoundedJson)

inductive SchemaKind
  | null
  | boolean
  | integer (minimum maximum : Option Int64)
  | string (minBytes maxBytes : UInt32)
  | array (items : Schema) (minItems maxItems : UInt32)
  | object (properties : List SchemaProperty) (additionalProperties : Bool)

inductive SchemaProperty
  | mk (name : String) (schema : Schema) (required : Bool)

end

def Schema.kind : Schema → SchemaKind
  | .mk kind _ => kind

def Schema.enumValues : Schema → List BoundedJson
  | .mk _ enumValues => enumValues

namespace SchemaProperty

def name : SchemaProperty → String
  | .mk name _ _ => name

def schema : SchemaProperty → Schema
  | .mk _ schema _ => schema

def required : SchemaProperty → Bool
  | .mk _ _ required => required

end SchemaProperty

mutual

def sameSchema : Schema → Schema → Bool
  | .mk kind values, .mk kind' values' =>
      sameKind kind kind' && decide (values = values')

def sameKind : SchemaKind → SchemaKind → Bool
  | .null, .null => true
  | .boolean, .boolean => true
  | .integer minimum maximum, .integer minimum' maximum' =>
      decide (minimum = minimum') && decide (maximum = maximum')
  | .string minBytes maxBytes, .string minBytes' maxBytes' =>
      decide (minBytes = minBytes') && decide (maxBytes = maxBytes')
  | .array items minItems maxItems, .array items' minItems' maxItems' =>
      sameSchema items items' && decide (minItems = minItems') &&
        decide (maxItems = maxItems')
  | .object properties extra, .object properties' extra' =>
      sameProperties properties properties' && decide (extra = extra')
  | _, _ => false

def sameProperties : List SchemaProperty → List SchemaProperty → Bool
  | [], [] => true
  | property :: rest, property' :: rest' =>
      sameProperty property property' && sameProperties rest rest'
  | _, _ => false

def sameProperty : SchemaProperty → SchemaProperty → Bool
  | .mk name schema required, .mk name' schema' required' =>
      decide (name = name') && sameSchema schema schema' &&
        decide (required = required')

end

mutual

theorem sameSchema_iff : ∀ left right : Schema,
    sameSchema left right = true ↔ left = right
  | .mk kind values, .mk kind' values' => by
      simp [sameSchema, sameKind_iff kind kind']

theorem sameKind_iff : ∀ left right : SchemaKind,
    sameKind left right = true ↔ left = right
  | .null, right => by cases right <;> simp [sameKind]
  | .boolean, right => by cases right <;> simp [sameKind]
  | .integer _ _, right => by cases right <;> simp [sameKind]
  | .string _ _, right => by cases right <;> simp [sameKind]
  | .array items _ _, right => by
      cases right with
      | array items' _ _ => simp [sameKind, sameSchema_iff items items', and_assoc]
      | _ => simp [sameKind]
  | .object properties _, right => by
      cases right with
      | object properties' _ =>
          simp [sameKind, sameProperties_iff properties properties']
      | _ => simp [sameKind]

theorem sameProperties_iff : ∀ left right : List SchemaProperty,
    sameProperties left right = true ↔ left = right
  | [], right => by cases right <;> simp [sameProperties]
  | property :: rest, right => by
      cases right with
      | nil => simp [sameProperties]
      | cons property' rest' =>
          simp [sameProperties, sameProperty_iff property property',
            sameProperties_iff rest rest']

theorem sameProperty_iff : ∀ left right : SchemaProperty,
    sameProperty left right = true ↔ left = right
  | .mk _ schema _, .mk _ schema' _ => by
      simp [sameProperty, sameSchema_iff schema schema', and_assoc]

end

instance : DecidableEq Schema := fun left right =>
  decidable_of_iff (sameSchema left right = true) (sameSchema_iff left right)

instance : DecidableEq SchemaProperty := fun left right =>
  decidable_of_iff (sameProperty left right = true)
    (sameProperty_iff left right)

/-! ### Validation -/

def maxProperties : Nat := 256

def maxPropertyBytes : Nat := 256

def maxSchemaDepth : Nat := 32

/-- Unicode's control characters. -/
def isControl (char : Char) : Bool :=
  decide (char.toNat ≤ 0x1f) ||
    decide (0x7f ≤ char.toNat) && decide (char.toNat ≤ 0x9f)

def invalidSchema (path detail : String) : ProtocolError :=
  .at .invalidSchema path detail

def violation (path detail : String) : ProtocolError :=
  .at .schemaViolation path detail

def propertyName (value : String) : Except ProtocolError Unit :=
  ensure (!(value.isEmpty || decide (maxPropertyBytes < value.utf8ByteSize) ||
      value.toList.any (fun char => char == '\x00') ||
      value.toList.any isControl))
    (invalidSchema "$" "schema property name is invalid or over limit")

def cardinality (minimum maximum : UInt32) (path : String) :
    Except ProtocolError Unit :=
  ensure (decide (minimum ≤ maximum))
    (invalidSchema path "minimum cardinality exceeds maximum")

def propertyOrder (properties : List SchemaProperty) :
    Except ProtocolError Unit := do
  ensure (decide (properties.length ≤ maxProperties))
    (invalidSchema "$" "schema property count exceeds its bound")
  forEach (fun property => propertyName property.name) properties
  ensure (ascending SchemaProperty.name properties)
    (invalidSchema "$"
      "schema properties are not strictly ordered by UTF-8 bytes")

/-- `u32::try_from(length).unwrap_or(u32::MAX)`. -/
def saturated (length : Nat) : Nat := min length (2 ^ 32 - 1)

def outside (length : Nat) (minimum maximum : UInt32) : Bool :=
  decide (saturated length < minimum.toNat) ||
    decide (maximum.toNat < saturated length)

def outsideRange (value : Int64) (minimum maximum : Option Int64) : Bool :=
  minimum.any (fun minimum => decide (value < minimum)) ||
    maximum.any fun maximum => decide (maximum < value)

def wrongType (path : String) : ProtocolError :=
  violation path "JSON value has the wrong schema type"

def checkEnum (schema : Schema) (value : JsonValue) (path : String) :
    Except ProtocolError Unit :=
  ensure (schema.enumValues.isEmpty ||
      schema.enumValues.any fun allowed => decide (allowed.value = value))
    (violation path "value is outside the schema enumeration")

def requireMembers (properties : List SchemaProperty)
    (members : List (String × JsonValue)) (path : String) :
    Except ProtocolError Unit :=
  forEach (fun property => ensure (containsKey property.name members)
      (violation path "required object property is absent"))
    (properties.filter SchemaProperty.required)

mutual

def valueWithoutEnum (schema : Schema) (path : String) (depth : Nat)
    (value : JsonValue) : Except ProtocolError Unit := do
  ensure (decide (depth ≤ maxSchemaDepth))
    (violation path "schema validation depth exceeds its bound")
  match value with
  | .null =>
      match schema.kind with
      | .null => .ok ()
      | _ => .error (wrongType path)
  | .bool _ =>
      match schema.kind with
      | .boolean => .ok ()
      | _ => .error (wrongType path)
  | .integer value =>
      match schema.kind with
      | .integer minimum maximum =>
          ensure (!outsideRange value minimum maximum)
            (violation path "integer is outside the allowed range")
      | _ => .error (wrongType path)
  | .string value =>
      match schema.kind with
      | .string minBytes maxBytes =>
          ensure (!outside value.utf8ByteSize minBytes maxBytes)
            (violation path "string is outside the allowed byte cardinality")
      | _ => .error (wrongType path)
  | .array values =>
      match schema.kind with
      | .array items minItems maxItems => do
          ensure (!outside values.length minItems maxItems)
            (violation path "array is outside the allowed cardinality")
          elementValues items path depth 0 values
      | _ => .error (wrongType path)
  | .object members =>
      match schema.kind with
      | .object properties additionalProperties => do
          requireMembers properties members path
          memberValues properties additionalProperties path depth members
      | _ => .error (wrongType path)

def elementValues (items : Schema) (path : String) (depth index : Nat) :
    List JsonValue → Except ProtocolError Unit
  | [] => .ok ()
  | value :: rest => do
      valueWithoutEnum items (path ++ "/" ++ toString index) (depth + 1) value
      checkEnum items value (path ++ "/" ++ toString index)
      elementValues items path depth (index + 1) rest

def memberValues (properties : List SchemaProperty)
    (additionalProperties : Bool) (path : String) (depth : Nat) :
    List (String × JsonValue) → Except ProtocolError Unit
  | [] => .ok ()
  | (name, value) :: rest => do
      match lookup SchemaProperty.name name properties with
      | some property => do
          valueWithoutEnum property.schema (path ++ "/" ++ escapePointer name)
            (depth + 1) value
          checkEnum property.schema value (path ++ "/" ++ escapePointer name)
      | none =>
          ensure additionalProperties
            (violation (path ++ "/" ++ escapePointer name)
              "additional object property is denied")
      memberValues properties additionalProperties path depth rest

end

def value (schema : Schema) (value : JsonValue) (path : String) (depth : Nat) :
    Except ProtocolError Unit := do
  valueWithoutEnum schema path depth value
  checkEnum schema value path

/-- Each value fits the schema, and their canonical bytes ascend. -/
def enumScan (schema : Schema) :
    Option (List UInt8) → List BoundedJson → Except ProtocolError Unit
  | _, [] => .ok ()
  | previous, allowed :: rest => do
      valueWithoutEnum schema "$" 1 allowed.value
      ensure (previous.all fun bytes => decide (bytes < allowed.canonicalBytes))
        (invalidSchema "$" "schema enum values are not strictly canonical")
      enumScan schema (some allowed.canonicalBytes) rest

def checkEnumValues (schema : Schema) (values : List BoundedJson) :
    Except ProtocolError Unit := do
  ensure (!(values.isEmpty || decide (maxProperties < values.length)))
    (invalidSchema "$" "schema enum is empty or exceeds its bound")
  enumScan schema none values

/-! ### Constructors -/

def SchemaProperty.new (name : String) (schema : Schema) (required : Bool) :
    Except ProtocolError SchemaProperty := do
  propertyName name
  return .mk name schema required

namespace Schema

def null : Schema := .mk .null []

def boolean : Schema := .mk .boolean []

def integer (minimum maximum : Option Int64) : Except ProtocolError Schema := do
  ensure (match minimum, maximum with
      | some least, some greatest => !decide (greatest < least)
      | _, _ => true)
    (invalidSchema "$" "integer minimum exceeds maximum")
  return .mk (.integer minimum maximum) []

def string (minBytes maxBytes : UInt32) : Except ProtocolError Schema := do
  cardinality minBytes maxBytes "string"
  return .mk (.string minBytes maxBytes) []

def array (items : Schema) (minItems maxItems : UInt32) :
    Except ProtocolError Schema := do
  cardinality minItems maxItems "array"
  return .mk (.array items minItems maxItems) []

def object (properties : List SchemaProperty) (additionalProperties : Bool) :
    Except ProtocolError Schema := do
  propertyOrder properties
  return .mk (.object properties additionalProperties) []

def withEnum (schema : Schema) (values : List BoundedJson) :
    Except ProtocolError Schema := do
  checkEnumValues schema values
  return .mk schema.kind values

def validate (schema : Schema) (value : BoundedJson) :
    Except ProtocolError Unit :=
  Schemas.value schema value.value "$" 1

end Schema

/-- The schemas of the public constructors. -/
inductive Built : Schema → Prop
  | null : Built .null
  | boolean : Built .boolean
  | integer {minimum maximum : Option Int64} {schema : Schema}
      (h : Schema.integer minimum maximum = .ok schema) : Built schema
  | string {minBytes maxBytes : UInt32} {schema : Schema}
      (h : Schema.string minBytes maxBytes = .ok schema) : Built schema
  | array {items : Schema} {minItems maxItems : UInt32} {schema : Schema}
      (hitems : Built items)
      (h : Schema.array items minItems maxItems = .ok schema) : Built schema
  | object {properties : List SchemaProperty} {additionalProperties : Bool}
      {schema : Schema}
      (hschemas : ∀ property ∈ properties, Built property.schema)
      (hnames : ∀ property ∈ properties,
        SchemaProperty.new property.name property.schema property.required =
          .ok property)
      (h : Schema.object properties additionalProperties = .ok schema) :
      Built schema
  | withEnum {base schema : Schema} {values : List BoundedJson}
      (hbase : Built base) (h : base.withEnum values = .ok schema) :
      Built schema

/-! ### Canonical schemas -/

mutual

def schemaValue : Schema → JsonValue
  | .mk kind enumValues =>
      let fields := schemaFields kind
      .object
        (if enumValues.isEmpty then fields
          else insert "enum" (.array (enumValues.map BoundedJson.value)) fields)

def schemaFields : SchemaKind → List (String × JsonValue)
  | .null => insert "type" (.string "null") []
  | .boolean => insert "type" (.string "boolean") []
  | .integer minimum maximum =>
      let fields := insert "type" (.string "integer") []
      let fields := match maximum with
        | some value => insert "maximum" (.integer value) fields
        | none => fields
      match minimum with
      | some value => insert "minimum" (.integer value) fields
      | none => fields
  | .string minBytes maxBytes =>
      insert "minLength" (.integer (Int64.ofNat minBytes.toNat))
        (insert "maxLength" (.integer (Int64.ofNat maxBytes.toNat))
          (insert "type" (.string "string") []))
  | .array items minItems maxItems =>
      insert "minItems" (.integer (Int64.ofNat minItems.toNat))
        (insert "maxItems" (.integer (Int64.ofNat maxItems.toNat))
          (insert "items" (schemaValue items)
            (insert "type" (.string "array") [])))
  | .object properties additionalProperties =>
      insert "required"
        (.array ((properties.filter SchemaProperty.required).map fun property =>
          .string property.name))
        (insert "properties" (.object (collect (propertyValues properties)))
          (insert "additionalProperties" (.bool additionalProperties)
            (insert "type" (.string "object") [])))

def propertyValues : List SchemaProperty → List (String × JsonValue)
  | [] => []
  | .mk name schema _ :: rest => (name, schemaValue schema) :: propertyValues rest

end

def Schema.canonicalBytes (schema : Schema) : List UInt8 :=
  writeValue (schemaValue schema)

/-! ### Compatibility -/

inductive SchemaCompatibility
  | equal
  | additive
  | breaking
deriving DecidableEq

def additive (current successor : Schema) : Bool :=
  if current.enumValues ≠ successor.enumValues then false
  else
    match current.kind, successor.kind with
    | .object before beforeExtra, .object after afterExtra =>
        if beforeExtra ≠ afterExtra then false
        else if after.length ≤ before.length then false
        else
          before.all (fun property =>
            match lookup SchemaProperty.name property.name after with
            | some candidate => decide (candidate = property)
            | none => false) &&
          (after.filter fun property =>
            (lookup SchemaProperty.name property.name before).isNone).all
              fun property => !property.required
    | _, _ => false

def classify (current successor : Schema) : SchemaCompatibility :=
  if current = successor then .equal
  else if additive current successor then .additive
  else .breaking

def Schema.compatibilityWith (current successor : Schema) :
    SchemaCompatibility :=
  classify current successor

end Peritus.ToolProtocol.Schemas
