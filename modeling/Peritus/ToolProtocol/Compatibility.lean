import Peritus.ToolProtocol.Canonical

/-!
What the classification of a successor schema says about the values that the
two schemas accept.
-/

namespace Peritus.ToolProtocol.Compatibility

open Checked SortedTable SortedMap Json Schemas Canonical

/-! ### What a schema accepts -/

section Validation

variable {schema successor : Schema} {kind : SchemaKind} {path : String}
variable {properties before after : List SchemaProperty} {extra : Bool}
variable {depth : Nat} {members : List (String × JsonValue)}

theorem value_eq_ok_iff {found : JsonValue} :
    value schema found path depth = .ok () ↔
      valueWithoutEnum schema path depth found = .ok () ∧
        (schema.enumValues = [] ∨
          ∃ allowed ∈ schema.enumValues, allowed.value = found) := by
  unfold value checkEnum
  rw [check_bind_eq_ok_iff, ensure_eq_ok_iff, Bool.or_eq_true,
    List.isEmpty_iff, List.any_eq_true]
  simp only [decide_eq_true_eq]

/-- Only the kind of a schema is looked at before its enumeration. -/
theorem valueWithoutEnum_of_kind (hkind : schema.kind = successor.kind)
    (path : String) (depth : Nat) (found : JsonValue) :
    valueWithoutEnum schema path depth found =
      valueWithoutEnum successor path depth found := by
  cases found <;> simp only [valueWithoutEnum, hkind]

theorem requireMembers_eq_ok_iff :
    requireMembers properties members path = .ok () ↔
      ∀ property ∈ properties, property.required = true →
        containsKey property.name members = true := by
  unfold requireMembers
  simp only [forEach_eq_ok_iff, List.mem_filter, ensure_eq_ok_iff, and_imp]

/-- What is checked of one member. -/
def memberFits (properties : List SchemaProperty) (extra : Bool) (path : String)
    (depth : Nat) (member : String × JsonValue) : Prop :=
  match lookup SchemaProperty.name member.1 properties with
  | some property =>
      value property.schema member.2 (path ++ "/" ++ escapePointer member.1)
        (depth + 1) = .ok ()
  | none => extra = true

theorem memberValues_eq_ok_iff :
    memberValues properties extra path depth members = .ok () ↔
      ∀ member ∈ members, memberFits properties extra path depth member := by
  induction members with
  | nil => simp [memberValues]
  | cons member rest ih =>
      obtain ⟨name, found⟩ := member
      rw [memberValues, List.forall_mem_cons, ← ih]
      unfold memberFits
      dsimp only
      cases lookup SchemaProperty.name name properties with
      | none => exact ensure_bind_eq_ok_iff
      | some property =>
          unfold value
          simp only [check_bind_eq_ok_iff, and_assoc]

/-- What an object schema accepts before its enumeration. -/
theorem object_eq_ok_iff (hkind : schema.kind = .object properties extra) :
    valueWithoutEnum schema path depth (.object members) = .ok () ↔
      depth ≤ maxSchemaDepth ∧
      (∀ property ∈ properties, property.required = true →
        containsKey property.name members = true) ∧
      ∀ member ∈ members, memberFits properties extra path depth member := by
  rw [valueWithoutEnum]
  simp only [hkind, check_bind_eq_ok_iff, ensure_eq_ok_iff,
    decide_eq_true_eq, requireMembers_eq_ok_iff, memberValues_eq_ok_iff]

theorem exists_members (hkind : schema.kind = .object properties extra)
    {found : JsonValue}
    (h : valueWithoutEnum schema path depth found = .ok ()) :
    ∃ members, found = .object members := by
  cases found with
  | object members => exact ⟨members, rfl⟩
  | _ =>
      rw [valueWithoutEnum] at h
      simp only [hkind, check_bind_eq_ok_iff] at h
      cases h.2

end Validation

theorem enumScan_of_ok {schema : Schema} {previous : Option (List UInt8)}
    {values : List BoundedJson} (h : enumScan schema previous values = .ok ()) :
    ∀ allowed ∈ values,
      valueWithoutEnum schema "$" 1 allowed.value = .ok () := by
  induction values generalizing previous with
  | nil => exact fun allowed hallowed => absurd hallowed List.not_mem_nil
  | cons value rest ih =>
      obtain ⟨hvalue, h⟩ := check_bind_eq_ok_iff.mp h
      obtain ⟨-, h⟩ := ensure_bind_eq_ok_iff.mp h
      exact List.forall_mem_cons.mpr ⟨hvalue, ih h⟩

/-- Every value of an enumeration fits the schema it restricts. -/
theorem enum_of_built {schema : Schema} (h : Built schema) :
    ∀ allowed ∈ schema.enumValues,
      valueWithoutEnum schema "$" 1 allowed.value = .ok () := by
  have hempty : ∀ kind, ∀ allowed ∈ (Schema.mk kind []).enumValues,
      valueWithoutEnum (.mk kind []) "$" 1 allowed.value = .ok () :=
    fun kind allowed hallowed => absurd hallowed List.not_mem_nil
  cases h with
  | null => exact hempty _
  | boolean => exact hempty _
  | integer h =>
      obtain ⟨-, h⟩ := ensure_bind_eq_ok_iff.mp h
      cases h
      exact hempty _
  | string h =>
      obtain ⟨-, h⟩ := check_bind_eq_ok_iff.mp h
      cases h
      exact hempty _
  | array _ h =>
      obtain ⟨-, h⟩ := check_bind_eq_ok_iff.mp h
      cases h
      exact hempty _
  | object _ _ h =>
      obtain ⟨-, h⟩ := check_bind_eq_ok_iff.mp h
      cases h
      exact hempty _
  | @withEnum base _ values _ h =>
      obtain ⟨hvalues, h⟩ := check_bind_eq_ok_iff.mp h
      cases h
      obtain ⟨-, hscan⟩ := ensure_bind_eq_ok_iff.mp hvalues
      intro allowed hallowed
      have hkind : (Schema.mk base.kind values).kind = base.kind := rfl
      rw [valueWithoutEnum_of_kind hkind]
      exact enumScan_of_ok hscan allowed hallowed

/-! ### Additive successors -/

/-- The successor keeps every property, and all it adds are optional. -/
structure Extends (before after : List SchemaProperty) : Prop where
  longer : before.length < after.length
  kept : ∀ property ∈ before, property ∈ after
  optional : ∀ property ∈ after,
    (∀ old ∈ before, old.name ≠ property.name) → property.required = false

theorem lookup_isNone_iff {properties : List SchemaProperty}
    (hsorted : Sorted SchemaProperty.name properties) {name : String} :
    (lookup SchemaProperty.name name properties).isNone = true ↔
      ∀ property ∈ properties, property.name ≠ name := by
  rw [Option.isNone_iff_eq_none]
  constructor
  · intro hnone property hproperty hname
    rw [lookup_of_mem hsorted hproperty hname] at hnone
    cases hnone
  · intro habsent
    cases hfound : lookup SchemaProperty.name name properties with
    | none => rfl
    | some property =>
        obtain ⟨hmem, hname⟩ := (lookup_eq_some_iff hsorted).mp hfound
        exact absurd hname (habsent property hmem)

theorem kept_iff {after : List SchemaProperty}
    (hsorted : Sorted SchemaProperty.name after) {property : SchemaProperty} :
    (match lookup SchemaProperty.name property.name after with
      | some candidate => decide (candidate = property)
      | none => false) = true ↔ property ∈ after := by
  constructor
  · intro h
    split at h
    · rename_i candidate hfound
      cases of_decide_eq_true h
      exact ((lookup_eq_some_iff hsorted).mp hfound).1
    · cases h
  · intro hmem
    rw [lookup_of_mem hsorted hmem rfl]
    exact decide_eq_true rfl

theorem extends_iff {before after : List SchemaProperty}
    (hbefore : Sorted SchemaProperty.name before)
    (hafter : Sorted SchemaProperty.name after) :
    (before.all (fun property =>
        match lookup SchemaProperty.name property.name after with
        | some candidate => decide (candidate = property)
        | none => false) &&
      (after.filter fun property =>
        (lookup SchemaProperty.name property.name before).isNone).all
          fun property => !property.required) = true ↔
      (∀ property ∈ before, property ∈ after) ∧
        ∀ property ∈ after, (∀ old ∈ before, old.name ≠ property.name) →
          property.required = false := by
  simp only [Bool.and_eq_true, List.all_eq_true, kept_iff hafter,
    List.mem_filter, lookup_isNone_iff hbefore, and_imp, Bool.not_eq_true']

/-- The successors that are classified as additive. -/
def Additive (current successor : Schema) : Prop :=
  current.enumValues = successor.enumValues ∧
    ∃ before after extra, current.kind = .object before extra ∧
      successor.kind = .object after extra ∧ Extends before after

theorem ordered_properties {schema : Schema} {properties : List SchemaProperty}
    {extra : Bool} (h : Built schema)
    (hkind : schema.kind = .object properties extra) :
    Sorted SchemaProperty.name properties := by
  obtain ⟨-, hnames, -⟩ := ordered_of_built h
  exact hnames _ _ hkind

theorem additive_iff {current successor : Schema} (hcurrent : Built current)
    (hsuccessor : Built successor) :
    additive current successor = true ↔ Additive current successor := by
  unfold additive Additive
  by_cases henum : current.enumValues = successor.enumValues
  · rw [if_neg (not_not.mpr henum), and_iff_right henum]
    split
    · rename_i before beforeExtra after afterExtra hbefore hafter
      rw [hbefore, hafter]
      have hextends := extends_iff (ordered_properties hcurrent hbefore)
        (ordered_properties hsuccessor hafter)
      by_cases hextra : beforeExtra = afterExtra
      · by_cases hlonger : after.length ≤ before.length
        · rw [if_neg (not_not.mpr hextra), if_pos hlonger]
          refine iff_of_false Bool.false_ne_true ?_
          rintro ⟨_, _, _, ⟨⟩, ⟨⟩, h⟩
          exact absurd h.longer (not_lt.mpr hlonger)
        · rw [if_neg (not_not.mpr hextra), if_neg hlonger]
          refine hextends.trans ?_
          constructor
          · rintro ⟨hkept, hoptional⟩
            exact ⟨before, after, beforeExtra, rfl, hextra ▸ rfl,
              not_le.mp hlonger, hkept, hoptional⟩
          · rintro ⟨_, _, _, ⟨⟩, ⟨⟩, h⟩
            exact ⟨h.kept, h.optional⟩
      · rw [if_pos hextra]
        refine iff_of_false Bool.false_ne_true ?_
        rintro ⟨_, _, _, ⟨⟩, ⟨⟩, -⟩
        exact hextra rfl
    · rename_i hother
      refine iff_of_false Bool.false_ne_true ?_
      rintro ⟨before, after, extra, hbefore, hafter, -⟩
      exact hother before extra after extra hbefore hafter
  · rw [if_pos henum]
    exact iff_of_false Bool.false_ne_true fun h => henum h.1

/-! ### Accepted values -/

/-- Whatever the schema accepts, its successor accepts. -/
def Preserves (current successor : Schema) : Prop :=
  ∀ value : BoundedJson, current.validate value = .ok () →
    successor.validate value = .ok ()

section Successors

variable {current successor : Schema} {before after : List SchemaProperty}
variable {extra : Bool} {path : String} {depth : Nat}
variable {members : List (String × JsonValue)}

/-- What is required after was required before. -/
theorem required_of_extends (hafter : Sorted SchemaProperty.name after)
    (h : Extends before after) :
    ∀ property ∈ after, property.required = true →
      property ∈ before := by
  intro property hproperty hrequired
  by_contra habsent
  have hnew : ∀ old ∈ before, old.name ≠ property.name := by
    intro old hold hname
    have hsame := hafter.inj (h.kept old hold) hproperty hname
    exact habsent (hsame ▸ hold)
  rw [h.optional property hproperty hnew] at hrequired
  cases hrequired

theorem fits_of_extends (hbefore : Sorted SchemaProperty.name before)
    (hafter : Sorted SchemaProperty.name after) (h : Extends before after)
    {member : String × JsonValue}
    (hfits : memberFits before false path depth member) :
    memberFits after false path depth member := by
  unfold memberFits at hfits ⊢
  cases hfound : lookup SchemaProperty.name member.1 before with
  | none =>
      rw [hfound] at hfits
      cases hfits
  | some property =>
      rw [hfound] at hfits
      obtain ⟨hmem, hname⟩ := (lookup_eq_some_iff hbefore).mp hfound
      rw [lookup_of_mem hafter (h.kept property hmem) hname]
      exact hfits

/-- Without additional properties an extension accepts all that was
accepted. -/
theorem valueWithoutEnum_of_closed (hbefore : Sorted SchemaProperty.name before)
    (hafter : Sorted SchemaProperty.name after) (h : Extends before after)
    (hcurrent : current.kind = .object before false)
    (hsuccessor : successor.kind = .object after false) {found : JsonValue}
    (hok : valueWithoutEnum current path depth found = .ok ()) :
    valueWithoutEnum successor path depth found = .ok () := by
  obtain ⟨members, rfl⟩ := exists_members hcurrent hok
  obtain ⟨hdepth, hrequired, hmembers⟩ := (object_eq_ok_iff hcurrent).mp hok
  refine (object_eq_ok_iff hsuccessor).mpr ⟨hdepth, ?_, ?_⟩
  · intro property hproperty hneeded
    exact hrequired property
      (required_of_extends hafter h property hproperty hneeded) hneeded
  · intro member hmember
    exact fits_of_extends hbefore hafter h (hmembers member hmember)

/-- A value of another type than the schema's. -/
def mismatch : SchemaKind → JsonValue
  | .null => .bool true
  | _ => .null

theorem canonical_mismatch (kind : SchemaKind) : Canonical (mismatch kind) := by
  cases kind with
  | null => exact .bool true
  | _ => exact .null

theorem value_mismatch_ne_ok (schema : Schema) :
    value schema (mismatch schema.kind) path depth ≠ .ok () := by
  intro h
  have hok := (value_eq_ok_iff.mp h).1
  cases hkind : schema.kind with
  | null =>
      rw [hkind] at hok
      simp only [mismatch, valueWithoutEnum, hkind, check_bind_eq_ok_iff] at hok
      cases hok.2
  | _ =>
      rw [hkind] at hok
      simp only [mismatch, valueWithoutEnum, hkind, check_bind_eq_ok_iff] at hok
      cases hok.2

/-- The values that an open schema accepts may carry any undeclared member. -/
theorem fits_insert (hbefore : Sorted SchemaProperty.name before)
    {name : String} (habsent : ∀ old ∈ before, old.name ≠ name)
    (hmembers : ∀ member ∈ members, memberFits before true path depth member)
    (found : JsonValue) :
    ∀ member ∈ insert name found members,
      memberFits before true path depth member := by
  intro member hmember
  rcases mem_insert hmember with rfl | hold
  · have hnone := (lookup_isNone_iff hbefore).mpr habsent
    unfold memberFits
    rw [Option.isNone_iff_eq_none.mp hnone]
  · exact hmembers member hold

theorem exists_new (h : Extends before after)
    (hafter : Sorted SchemaProperty.name after) :
    ∃ property ∈ after, ∀ old ∈ before, old.name ≠ property.name := by
  by_contra hnone
  push Not at hnone
  have hsubset : after ⊆ before := by
    intro property hproperty
    obtain ⟨old, hold, hname⟩ := hnone property hproperty
    have hsame := hafter.inj (h.kept old hold) hproperty hname
    exact hsame ▸ hold
  have hnodup : after.Nodup := hafter.nodup_map.of_map SchemaProperty.name
  exact absurd h.longer (not_lt.mpr (hnodup.subperm hsubset).length_le)

/-- An open schema with a value and a new property: the value with a member of
the wrong type in its place is accepted no longer. -/
theorem not_preserves_of_open (hbefore : Sorted SchemaProperty.name before)
    (hafter : Sorted SchemaProperty.name after) (h : Extends before after)
    (hcurrent : current.kind = .object before true)
    (hsuccessor : successor.kind = .object after true)
    (henum : current.enumValues = []) {found : BoundedJson}
    (hfound : current.validate found = .ok ()) :
    ¬Preserves current successor := by
  intro hpreserves
  obtain ⟨hok, -⟩ := value_eq_ok_iff.mp hfound
  obtain ⟨members, hvalue⟩ := exists_members hcurrent hok
  obtain ⟨found, hcanonical⟩ := found
  cases hvalue
  obtain ⟨hdepth, hrequired, hmembers⟩ := (object_eq_ok_iff hcurrent).mp hok
  obtain ⟨property, hproperty, hnew⟩ := exists_new h hafter
  obtain ⟨hsorted, hinner⟩ : Sorted Prod.fst members ∧
      ∀ member ∈ members, Canonical member.2 := by
    cases hcanonical with
    | object hsorted hinner => exact ⟨hsorted, hinner⟩
  let changed : BoundedMembers :=
    BoundedMembers.insert property.name
      ⟨mismatch property.schema.kind, canonical_mismatch _⟩
      ⟨members, hsorted, hinner⟩
  have haccepted : current.validate changed.toJson = .ok () := by
    refine value_eq_ok_iff.mpr ⟨(object_eq_ok_iff hcurrent).mpr
      ⟨hdepth, ?_, fits_insert hbefore hnew hmembers _⟩, .inl henum⟩
    intro old hold hneeded
    exact containsKey_insert (hrequired old hold hneeded)
  have hrejected := (value_eq_ok_iff.mp (hpreserves _ haccepted)).1
  obtain ⟨-, -, hfits⟩ := (object_eq_ok_iff hsuccessor).mp hrejected
  have hmember := hfits _ (mem_insert_self)
  unfold memberFits at hmember
  rw [lookup_of_mem hafter hproperty rfl] at hmember
  exact value_mismatch_ne_ok property.schema hmember

end Successors

/-! ### Compatibility -/

def propertiesOf (schema : Schema) : List SchemaProperty :=
  match schema.kind with
  | .object properties _ => properties
  | _ => []

/-- The successor removes a property, changes one or newly requires one. -/
def Disturbs (before after : List SchemaProperty) : Prop :=
  (∃ property ∈ before, ∀ other ∈ after, other.name ≠ property.name) ∨
  (∃ property ∈ before, ∃ other ∈ after, other.name = property.name ∧
    other ≠ property) ∨
  ∃ property ∈ after, property.required = true ∧
    ∀ old ∈ before, old.name = property.name → old.required = false

/-- What the classification of a successor promises. -/
structure Sound (current successor : Schema) : Prop where
  preserves : current.compatibilityWith successor ≠ .breaking →
    Preserves current successor
  equal : current.compatibilityWith successor = .equal ↔
    current.canonicalBytes = successor.canonicalBytes
  additive : current.compatibilityWith successor = .additive →
    ¬Disturbs (propertiesOf current) (propertiesOf successor)

/-- Both schemas are open objects without an enumeration, the first accepts some
value, and the second extends it. -/
def Reopened (current successor : Schema) : Prop :=
  (∃ before after, current.kind = .object before true ∧
    successor.kind = .object after true ∧ Extends before after) ∧
  current.enumValues = [] ∧ successor.enumValues = [] ∧
  ∃ value, current.validate value = .ok ()

theorem not_disturbs_of_extends {before after : List SchemaProperty}
    (hafter : Sorted SchemaProperty.name after) (h : Extends before after) :
    ¬Disturbs before after := by
  rintro (⟨property, hproperty, hremoved⟩ |
    ⟨property, hproperty, other, hother, hname, hne⟩ |
    ⟨property, hproperty, hrequired, hold⟩)
  · exact hremoved property (h.kept property hproperty) rfl
  · exact hne (hafter.inj hother (h.kept property hproperty) hname)
  · have hmem := required_of_extends hafter h property hproperty hrequired
    rw [hold property hmem rfl] at hrequired
    cases hrequired

theorem compatibilityWith_eq_equal_iff {current successor : Schema} :
    current.compatibilityWith successor = .equal ↔ current = successor := by
  unfold Schema.compatibilityWith classify
  split
  · rename_i hsame
    exact iff_of_true rfl hsame
  · rename_i hne
    split
    · exact iff_of_false nofun hne
    · exact iff_of_false nofun hne

theorem compatibilityWith_eq_additive_iff {current successor : Schema}
    (hcurrent : Built current) (hsuccessor : Built successor) :
    current.compatibilityWith successor = .additive ↔
      current ≠ successor ∧ Additive current successor := by
  rw [← additive_iff hcurrent hsuccessor]
  unfold Schema.compatibilityWith classify
  split
  · rename_i hsame
    exact iff_of_false nofun fun h => h.1 hsame
  · rename_i hne
    split
    · rename_i hadditive
      exact iff_of_true rfl ⟨hne, hadditive⟩
    · rename_i hbreaking
      exact iff_of_false nofun fun h => hbreaking h.2

theorem preserves_of_additive {current successor : Schema}
    (hcurrent : Built current) (hsuccessor : Built successor)
    (h : Additive current successor) (hclosed : ¬Reopened current successor) :
    Preserves current successor := by
  obtain ⟨henum, before, after, extra, hbefore, hafter, hextends⟩ := h
  intro found hfound
  obtain ⟨hok, hallowed⟩ := value_eq_ok_iff.mp hfound
  refine value_eq_ok_iff.mpr ⟨?_, henum ▸ hallowed⟩
  rcases hallowed with hempty | ⟨allowed, hmem, hvalue⟩
  · cases extra with
    | true =>
        refine absurd ⟨⟨before, after, hbefore, hafter, hextends⟩, hempty, ?_,
          found, hfound⟩ hclosed
        rw [← henum, hempty]
    | false =>
        exact valueWithoutEnum_of_closed (ordered_properties hcurrent hbefore)
          (ordered_properties hsuccessor hafter) hextends hbefore hafter hok
  · rw [← hvalue]
    exact enum_of_built hsuccessor allowed (henum ▸ hmem)

/-- The classification keeps its promise for all schemas that the constructors
build, unless an open schema that accepts something is extended. -/
theorem compatibility_sound_iff {current successor : Schema}
    (hcurrent : Built current) (hsuccessor : Built successor) :
    Sound current successor ↔ ¬Reopened current successor := by
  constructor
  · rintro hsound ⟨⟨before, after, hbefore, hafter, hextends⟩, henum, henum',
      value, hvalue⟩
    have hsorted := ordered_properties hcurrent hbefore
    have hsorted' := ordered_properties hsuccessor hafter
    have hne : current ≠ successor := by
      rintro rfl
      cases hbefore.symm.trans hafter
      exact lt_irrefl _ hextends.longer
    have hadditive : current.compatibilityWith successor = .additive :=
      (compatibilityWith_eq_additive_iff hcurrent hsuccessor).mpr ⟨hne,
        henum.trans henum'.symm, before, after, true, hbefore, hafter,
        hextends⟩
    refine not_preserves_of_open hsorted hsorted' hextends hbefore hafter henum
      hvalue (hsound.preserves ?_)
    rw [hadditive]
    exact nofun
  · intro hclosed
    refine ⟨fun hcompatible => ?_, ?_, fun hadditive => ?_⟩
    · cases hclass : current.compatibilityWith successor with
      | equal =>
          rw [compatibilityWith_eq_equal_iff] at hclass
          exact fun value hvalue => hclass ▸ hvalue
      | additive =>
          exact preserves_of_additive hcurrent hsuccessor
            ((compatibilityWith_eq_additive_iff hcurrent hsuccessor).mp
              hclass).2 hclosed
      | breaking => exact absurd hclass hcompatible
    · rw [compatibilityWith_eq_equal_iff,
        canonicalBytes_eq_iff hcurrent hsuccessor]
    · obtain ⟨-, -, before, after, extra, hbefore, hafter, hextends⟩ :=
        (compatibilityWith_eq_additive_iff hcurrent hsuccessor).mp hadditive
      unfold propertiesOf
      rw [hbefore, hafter]
      exact not_disturbs_of_extends (ordered_properties hsuccessor hafter)
        hextends

/-! ### An open schema and a property added to it -/

/-- Any object. -/
def openSchema : Schema := .mk (.object [] true) []

def countSchema : Schema := .mk (.integer none none) []

/-- Any object whose count, if it has one, is an integer. -/
def countedSchema : Schema :=
  .mk (.object [.mk "count" countSchema false] true) []

/-- An object without a count that is an integer. -/
def uncounted : BoundedJson :=
  (BoundedMembers.insert "count" .null .empty).toJson

theorem built_openSchema : Built openSchema := by
  have hobject : Schema.object [] true = .ok openSchema := rfl
  refine .object (fun property h => ?_) (fun property h => ?_) hobject
  · exact absurd h List.not_mem_nil
  · exact absurd h List.not_mem_nil

theorem built_countedSchema : Built countedSchema := by
  have hcount : Schema.integer none none = .ok countSchema := rfl
  have hobject : Schema.object [.mk "count" countSchema false] true =
      .ok countedSchema := rfl
  refine .object (fun property h => ?_) (fun property h => ?_) hobject
  · rw [List.mem_singleton.mp h]
    exact .integer hcount
  · rw [List.mem_singleton.mp h]
    rfl

theorem compatibility_sound_iff_of_counted :
    Sound openSchema countedSchema ↔ ¬Reopened openSchema countedSchema :=
  compatibility_sound_iff built_openSchema built_countedSchema

/-- An additive successor that rejects what was accepted. -/
theorem counted_unsound : ¬∀ current successor : Schema, Built current →
    Built successor → Sound current successor := by
  intro h
  have hsound := h openSchema countedSchema built_openSchema built_countedSchema
  have hadditive : openSchema.compatibilityWith countedSchema = .additive := by
    decide +kernel
  have haccepted : openSchema.validate uncounted = .ok () := by rfl
  have hrejected := hsound.preserves (by rw [hadditive]; exact nofun) uncounted
    haccepted
  cases hrejected

end Peritus.ToolProtocol.Compatibility
