import Peritus.ToolProtocol.Schemas
import Peritus.ToolProtocol.Writing

/-!
The canonical bytes of a schema determine it: its fields tell the kind, the
bounds and the enumeration apart, and the names of the properties are unique.
-/

namespace Peritus.ToolProtocol.Canonical

open Checked SortedTable SortedMap Json Schemas Writing

/-- The properties of every object are in strictly ascending order of their
names. -/
inductive Ordered : Schema → Prop
  | mk {kind : SchemaKind} {enumValues : List BoundedJson}
      (hitems : ∀ items minItems maxItems,
        kind = .array items minItems maxItems → Ordered items)
      (hnames : ∀ properties extra, kind = .object properties extra →
        Sorted SchemaProperty.name properties)
      (hschemas : ∀ properties extra, kind = .object properties extra →
        ∀ property ∈ properties, Ordered property.schema) :
      Ordered (.mk kind enumValues)

theorem sorted_of_propertyOrder {properties : List SchemaProperty}
    (h : propertyOrder properties = .ok ()) :
    Sorted SchemaProperty.name properties := by
  unfold propertyOrder at h
  simp only [check_bind_eq_ok_iff, ensure_eq_ok_iff] at h
  exact ascending_iff.mp h.2.2

theorem ordered_of_built {schema : Schema} (h : Built schema) :
    Ordered schema := by
  induction h with
  | null => exact .mk nofun nofun nofun
  | boolean => exact .mk nofun nofun nofun
  | integer h =>
      obtain ⟨-, h⟩ := ensure_bind_eq_ok_iff.mp h
      cases h
      exact .mk nofun nofun nofun
  | string h =>
      obtain ⟨-, h⟩ := check_bind_eq_ok_iff.mp h
      cases h
      exact .mk nofun nofun nofun
  | array hitems h ih =>
      obtain ⟨-, h⟩ := check_bind_eq_ok_iff.mp h
      cases h
      refine .mk ?_ nofun nofun
      rintro _ _ _ ⟨⟩
      exact ih
  | object hschemas hnames h ih =>
      obtain ⟨horder, h⟩ := check_bind_eq_ok_iff.mp h
      cases h
      refine .mk nofun ?_ ?_
      · rintro _ _ ⟨⟩
        exact sorted_of_propertyOrder horder
      · rintro _ _ ⟨⟩
        exact ih
  | withEnum hbase h ih =>
      obtain ⟨-, h⟩ := check_bind_eq_ok_iff.mp h
      cases h
      cases ih with
      | mk hitems hnames hschemas => exact .mk hitems hnames hschemas

/-! ### Fields -/

def allFields (kind : SchemaKind) (enumValues : List BoundedJson) :
    List (String × JsonValue) :=
  if enumValues.isEmpty then schemaFields kind
  else insert "enum" (.array (enumValues.map BoundedJson.value))
    (schemaFields kind)

section Fields

variable {kind : SchemaKind} {enumValues : List BoundedJson}

theorem schemaValue_mk :
    schemaValue (.mk kind enumValues) = .object (allFields kind enumValues) := by
  rw [schemaValue]
  rfl

theorem get?_allFields {key : String} (hkey : key ≠ "enum") :
    get? key (allFields kind enumValues) = get? key (schemaFields kind) := by
  unfold allFields
  split
  · rfl
  · rw [get?_insert, if_neg hkey]

theorem get?_enum : get? "enum" (schemaFields kind) = none := by
  cases kind with
  | integer minimum maximum =>
      cases minimum <;> cases maximum <;> simp [schemaFields]
  | _ => simp [schemaFields]

theorem get?_enum_allFields : get? "enum" (allFields kind enumValues) =
    if enumValues.isEmpty then none
    else some (.array (enumValues.map BoundedJson.value)) := by
  unfold allFields
  split
  · exact get?_enum
  · rw [get?_insert, if_pos rfl]

def typeName : SchemaKind → String
  | .null => "null"
  | .boolean => "boolean"
  | .integer _ _ => "integer"
  | .string _ _ => "string"
  | .array _ _ _ => "array"
  | .object _ _ => "object"

theorem get?_type :
    get? "type" (schemaFields kind) = some (.string (typeName kind)) := by
  cases kind with
  | integer minimum maximum =>
      cases minimum <;> cases maximum <;> simp [schemaFields, typeName]
  | _ => simp [schemaFields, typeName]

end Fields

theorem ofNat_injective {first second : UInt32}
    (h : Int64.ofNat first.toNat = Int64.ofNat second.toNat) :
    first = second := by
  have hint := congrArg Int64.toInt h
  have hfirst := first.toNat_lt
  have hsecond := second.toNat_lt
  rw [Int64.toInt_ofNat_of_lt (by omega), Int64.toInt_ofNat_of_lt (by omega)]
    at hint
  exact UInt32.toNat_inj.mp (Int.ofNat.inj hint)

/-! ### Properties -/

theorem propertyValues_eq_map (properties : List SchemaProperty) :
    propertyValues properties = properties.map fun property =>
      (property.name, schemaValue property.schema) := by
  induction properties with
  | nil => rfl
  | cons property rest ih =>
      obtain ⟨name, schema, required⟩ := property
      rw [propertyValues, ih]
      rfl

theorem collect_propertyValues {properties : List SchemaProperty}
    (hsorted : Sorted SchemaProperty.name properties) :
    collect (propertyValues properties) = propertyValues properties := by
  refine collect_of_sorted ?_
  rw [propertyValues_eq_map]
  exact List.pairwise_map.mpr hsorted

def requiredNames (properties : List SchemaProperty) : List String :=
  (properties.filter SchemaProperty.required).map SchemaProperty.name

theorem required_iff {properties : List SchemaProperty}
    (hsorted : Sorted SchemaProperty.name properties)
    {property : SchemaProperty} (hproperty : property ∈ properties) :
    property.required = true ↔ property.name ∈ requiredNames properties := by
  constructor
  · intro hrequired
    exact List.mem_map.mpr
      ⟨property, List.mem_filter.mpr ⟨hproperty, hrequired⟩, rfl⟩
  · intro hname
    obtain ⟨other, hother, hsame⟩ := List.mem_map.mp hname
    obtain ⟨hmem, hrequired⟩ := List.mem_filter.mp hother
    rw [← hsorted.inj hmem hproperty hsame]
    exact hrequired

/-- No other schema with ordered properties has the same canonical value. -/
def Determined (schema : Schema) : Prop :=
  ∀ other, Ordered other → schemaValue schema = schemaValue other →
    schema = other

/-- Properties with the same names, schemas and required names are the same. -/
theorem eq_of_propertyValues {names : List String} :
    ∀ {first second : List SchemaProperty},
    (∀ property ∈ first, Determined property.schema) →
    (∀ property ∈ second, Ordered property.schema) →
    (∀ property ∈ first, property.required = true ↔ property.name ∈ names) →
    (∀ property ∈ second, property.required = true ↔ property.name ∈ names) →
    propertyValues first = propertyValues second → first = second := by
  intro first
  induction first with
  | nil =>
      intro second _ _ _ _ h
      rw [propertyValues_eq_map, propertyValues_eq_map] at h
      exact (List.map_eq_nil_iff.mp h.symm).symm
  | cons property rest ih =>
      intro second hdetermined hordered hfirst hsecond h
      rw [propertyValues_eq_map, propertyValues_eq_map] at h
      cases second with
      | nil => cases h
      | cons other others =>
          obtain ⟨hhead, htail⟩ := List.cons.inj h
          obtain ⟨hname, hvalue⟩ := Prod.mk.inj hhead
          have hschema := hdetermined property List.mem_cons_self other.schema
            (hordered other List.mem_cons_self) hvalue
          have hrequired : property.required = other.required := by
            have hleft := hfirst property List.mem_cons_self
            have hright := hsecond other List.mem_cons_self
            rw [hname] at hleft
            exact Bool.eq_iff_iff.mpr (hleft.trans hright.symm)
          have hrest : rest = others := by
            refine ih (fun property hmem => hdetermined property (.tail _ hmem))
              (fun property hmem => hordered property (.tail _ hmem))
              (fun property hmem => hfirst property (.tail _ hmem))
              (fun property hmem => hsecond property (.tail _ hmem)) ?_
            rw [propertyValues_eq_map, propertyValues_eq_map, htail]
          obtain ⟨name, schema, required⟩ := property
          obtain ⟨name', schema', required'⟩ := other
          cases hname
          cases hschema
          cases hrequired
          rw [hrest]

/-! ### Schemas -/

section Kinds

variable {kind kind' : SchemaKind}

/-- Two kinds agree on every field they write. -/
def SameFields (kind kind' : SchemaKind) : Prop :=
  ∀ key, key ≠ "enum" →
    get? key (schemaFields kind) = get? key (schemaFields kind')

theorem typeName_of_sameFields (h : SameFields kind kind') :
    typeName kind = typeName kind' := by
  have htype := h "type" (by decide)
  rw [get?_type, get?_type, Option.some.injEq, JsonValue.string.injEq] at htype
  exact htype

theorem integer_of_sameFields {minimum maximum minimum' maximum' : Option Int64}
    (h : SameFields (.integer minimum maximum) (.integer minimum' maximum')) :
    minimum = minimum' ∧ maximum = maximum' := by
  have hbounds : ∀ minimum maximum : Option Int64,
      get? "minimum" (schemaFields (.integer minimum maximum)) =
        minimum.map JsonValue.integer ∧
      get? "maximum" (schemaFields (.integer minimum maximum)) =
        maximum.map JsonValue.integer := by
    rintro (_ | minimum) (_ | maximum)
    · exact ⟨rfl, rfl⟩
    · simp [schemaFields]
    · simp [schemaFields]
    · simp [schemaFields]
  have hinjective : Function.Injective (Option.map JsonValue.integer) :=
    Option.map_injective fun _ _ => JsonValue.integer.inj
  have hmin := h "minimum" (by decide)
  have hmax := h "maximum" (by decide)
  rw [(hbounds _ _).1, (hbounds _ _).1] at hmin
  rw [(hbounds _ _).2, (hbounds _ _).2] at hmax
  exact ⟨hinjective hmin, hinjective hmax⟩

theorem string_of_sameFields {minBytes maxBytes minBytes' maxBytes' : UInt32}
    (h : SameFields (.string minBytes maxBytes)
      (.string minBytes' maxBytes')) :
    minBytes = minBytes' ∧ maxBytes = maxBytes' := by
  have hmin := h "minLength" (by decide)
  have hmax := h "maxLength" (by decide)
  simp [schemaFields] at hmin hmax
  exact ⟨ofNat_injective hmin, ofNat_injective hmax⟩

theorem array_of_sameFields {items items' : Schema}
    {minItems maxItems minItems' maxItems' : UInt32}
    (h : SameFields (.array items minItems maxItems)
      (.array items' minItems' maxItems')) :
    schemaValue items = schemaValue items' ∧ minItems = minItems' ∧
      maxItems = maxItems' := by
  have hitems := h "items" (by decide)
  have hmin := h "minItems" (by decide)
  have hmax := h "maxItems" (by decide)
  simp [schemaFields] at hitems hmin hmax
  exact ⟨hitems, ofNat_injective hmin, ofNat_injective hmax⟩

theorem object_of_sameFields {properties properties' : List SchemaProperty}
    {extra extra' : Bool}
    (h : SameFields (.object properties extra) (.object properties' extra')) :
    extra = extra' ∧
      collect (propertyValues properties) =
        collect (propertyValues properties') ∧
      requiredNames properties = requiredNames properties' := by
  have hextra := h "additionalProperties" (by decide)
  have hvalues := h "properties" (by decide)
  have hrequired := h "required" (by decide)
  simp only [schemaFields, get?_insert, String.reduceEq, if_false, if_true,
    Option.some.injEq, JsonValue.bool.injEq, JsonValue.object.injEq,
    JsonValue.array.injEq] at hextra hvalues hrequired
  refine ⟨hextra, hvalues, ?_⟩
  have hnames : (requiredNames properties).map JsonValue.string =
      (requiredNames properties').map JsonValue.string := by
    unfold requiredNames
    rw [List.map_map, List.map_map]
    exact hrequired
  exact List.map_injective_iff.mpr (fun _ _ => JsonValue.string.inj) hnames

/-- The kind is known from its fields, where the schemas in it are. -/
theorem kind_of_sameFields {enumValues enumValues' : List BoundedJson}
    (h : SameFields kind kind') (hordered : Ordered (.mk kind enumValues))
    (hordered' : Ordered (.mk kind' enumValues'))
    (hitems : ∀ items minItems maxItems,
      kind = .array items minItems maxItems → Determined items)
    (hschemas : ∀ properties extra, kind = .object properties extra →
      ∀ property ∈ properties, Determined property.schema) :
    kind = kind' := by
  have htype := typeName_of_sameFields h
  obtain ⟨-, hnames, -⟩ := hordered
  obtain ⟨hitems', hnames', hschemas'⟩ := hordered'
  cases kind with
  | null =>
      cases kind' with
      | null => rfl
      | _ => simp [typeName] at htype
  | boolean =>
      cases kind' with
      | boolean => rfl
      | _ => simp [typeName] at htype
  | integer minimum maximum =>
      cases kind' with
      | integer minimum' maximum' =>
          obtain ⟨rfl, rfl⟩ := integer_of_sameFields h
          rfl
      | _ => simp [typeName] at htype
  | string minBytes maxBytes =>
      cases kind' with
      | string minBytes' maxBytes' =>
          obtain ⟨rfl, rfl⟩ := string_of_sameFields h
          rfl
      | _ => simp [typeName] at htype
  | array items minItems maxItems =>
      cases kind' with
      | array items' minItems' maxItems' =>
          obtain ⟨hvalue, rfl, rfl⟩ := array_of_sameFields h
          rw [hitems _ _ _ rfl items' (hitems' _ _ _ rfl) hvalue]
      | _ => simp [typeName] at htype
  | object properties extra =>
      cases kind' with
      | object properties' extra' =>
          obtain ⟨rfl, hvalues, hrequired⟩ := object_of_sameFields h
          have hsorted := hnames _ _ rfl
          have hsorted' := hnames' _ _ rfl
          rw [collect_propertyValues hsorted,
            collect_propertyValues hsorted'] at hvalues
          have hright : ∀ property ∈ properties', property.required = true ↔
              property.name ∈ requiredNames properties := by
            rw [hrequired]
            exact fun property hproperty => required_iff hsorted' hproperty
          rw [eq_of_propertyValues (hschemas _ _ rfl) (hschemas' _ _ rfl)
            (fun property hproperty => required_iff hsorted hproperty) hright
            hvalues]
      | _ => simp [typeName] at htype

end Kinds

theorem enum_of_fields {kind kind' : SchemaKind}
    {enumValues enumValues' : List BoundedJson}
    (h : allFields kind enumValues = allFields kind' enumValues') :
    enumValues = enumValues' := by
  have henum := congrArg (get? "enum") h
  rw [get?_enum_allFields, get?_enum_allFields] at henum
  have hmap : Function.Injective (List.map BoundedJson.value) :=
    List.map_injective_iff.mpr BoundedJson.value_injective
  cases enumValues with
  | nil =>
      cases enumValues' with
      | nil => rfl
      | cons value rest => cases henum
  | cons value rest =>
      cases enumValues' with
      | nil => cases henum
      | cons value' rest' =>
          apply hmap
          exact JsonValue.array.inj (Option.some.inj henum)

theorem determined_of_ordered {schema : Schema} (h : Ordered schema) :
    Determined schema := by
  induction h with
  | @mk kind enumValues hitems hnames hschemas ihitems ihschemas =>
      rintro ⟨kind', enumValues'⟩ hordered' hvalue
      rw [schemaValue_mk, schemaValue_mk, JsonValue.object.injEq] at hvalue
      cases enum_of_fields hvalue
      have hfields : SameFields kind kind' := by
        intro key hkey
        rw [← get?_allFields hkey, hvalue, get?_allFields hkey]
      have hordered : Ordered (.mk kind enumValues) :=
        .mk hitems hnames hschemas
      rw [kind_of_sameFields hfields hordered hordered' ihitems ihschemas]

/-- Schemas are equal exactly if their canonical bytes are. -/
theorem canonicalBytes_eq_iff {first second : Schema} (hfirst : Built first)
    (hsecond : Built second) :
    first.canonicalBytes = second.canonicalBytes ↔ first = second := by
  constructor
  · intro h
    exact determined_of_ordered (ordered_of_built hfirst) second
      (ordered_of_built hsecond) (writeValue_injective h)
  · rintro rfl
    rfl

end Peritus.ToolProtocol.Canonical
