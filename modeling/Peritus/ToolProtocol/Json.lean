import Peritus.Checked
import Peritus.SortedMap

/-!
Bounded JSON values, their canonical bytes and the errors of the tool protocol.
An object is a map from strings, kept in the order of its keys; UTF-8 keeps the
order of code points, so the byte order of the source's strings is the order of
their characters.
-/

namespace Peritus.ToolProtocol.Json

open SortedTable SortedMap

/-! ### Errors -/

inductive ProtocolErrorKind
  | invalidText
  | invalidVersion
  | invalidJson
  | jsonLimit
  | invalidSchema
  | schemaViolation
  | descriptorMismatch
  | callLimit
  | invalidEnvelope
deriving DecidableEq

structure ProtocolError where
  kind : ProtocolErrorKind
  path : String
  detail : String
deriving DecidableEq

def maxErrorPathBytes : Nat := 8 * 1024

def maxErrorDetailBytes : Nat := 4 * 1024

def truncatedPathSuffix : String := "...[truncated]"

/-- The longest start of whole characters within a number of bytes. -/
def fitting : Nat → List Char → List Char
  | _, [] => []
  | bytes, char :: rest =>
      if char.utf8Size ≤ bytes then char :: fitting (bytes - char.utf8Size) rest
      else []

def boundedPath (path : String) : String :=
  if path.utf8ByteSize ≤ maxErrorPathBytes then path
  else
    String.ofList (fitting (maxErrorPathBytes - truncatedPathSuffix.utf8ByteSize)
      path.toList) ++ truncatedPathSuffix

def boundedDetail (detail : String) : String :=
  if detail.utf8ByteSize ≤ maxErrorDetailBytes then detail
  else "protocol error detail exceeds its bound"

def ProtocolError.at (kind : ProtocolErrorKind) (path detail : String) :
    ProtocolError :=
  ⟨kind, boundedPath path, boundedDetail detail⟩

/-! ### Values -/

inductive JsonValue
  | null
  | bool (value : Bool)
  | integer (value : Int64)
  | string (value : String)
  | array (values : List JsonValue)
  | object (members : List (String × JsonValue))

mutual

def sameValue : JsonValue → JsonValue → Bool
  | .null, .null => true
  | .bool left, .bool right => decide (left = right)
  | .integer left, .integer right => decide (left = right)
  | .string left, .string right => decide (left = right)
  | .array left, .array right => sameElements left right
  | .object left, .object right => sameMembers left right
  | _, _ => false

def sameElements : List JsonValue → List JsonValue → Bool
  | [], [] => true
  | left :: lefts, right :: rights =>
      sameValue left right && sameElements lefts rights
  | _, _ => false

def sameMembers :
    List (String × JsonValue) → List (String × JsonValue) → Bool
  | [], [] => true
  | (leftKey, left) :: lefts, (rightKey, right) :: rights =>
      decide (leftKey = rightKey) && sameValue left right &&
        sameMembers lefts rights
  | _, _ => false

end

mutual

theorem sameValue_iff : ∀ left right : JsonValue,
    sameValue left right = true ↔ left = right
  | .null, right => by cases right <;> simp [sameValue]
  | .bool _, right => by cases right <;> simp [sameValue]
  | .integer _, right => by cases right <;> simp [sameValue]
  | .string _, right => by cases right <;> simp [sameValue]
  | .array left, right => by
      cases right with
      | array right => simp [sameValue, sameElements_iff left right]
      | _ => simp [sameValue]
  | .object left, right => by
      cases right with
      | object right => simp [sameValue, sameMembers_iff left right]
      | _ => simp [sameValue]

theorem sameElements_iff : ∀ left right : List JsonValue,
    sameElements left right = true ↔ left = right
  | [], right => by cases right <;> simp [sameElements]
  | left :: lefts, right => by
      cases right with
      | nil => simp [sameElements]
      | cons right rights =>
          simp [sameElements, sameValue_iff left right,
            sameElements_iff lefts rights]

theorem sameMembers_iff : ∀ left right : List (String × JsonValue),
    sameMembers left right = true ↔ left = right
  | [], right => by cases right <;> simp [sameMembers]
  | (leftKey, left) :: lefts, right => by
      cases right with
      | nil => simp [sameMembers]
      | cons right rights =>
          obtain ⟨rightKey, right⟩ := right
          simp [sameMembers, sameValue_iff left right,
            sameMembers_iff lefts rights]

end

instance : DecidableEq JsonValue := fun left right =>
  decidable_of_iff (sameValue left right = true) (sameValue_iff left right)

/-- The keys of every object are in strictly ascending order. -/
inductive Canonical : JsonValue → Prop
  | null : Canonical .null
  | bool (value : Bool) : Canonical (.bool value)
  | integer (value : Int64) : Canonical (.integer value)
  | string (value : String) : Canonical (.string value)
  | array {values : List JsonValue} (hvalues : ∀ value ∈ values, Canonical value) :
      Canonical (.array values)
  | object {members : List (String × JsonValue)}
      (hsorted : Sorted Prod.fst members)
      (hmembers : ∀ member ∈ members, Canonical member.2) :
      Canonical (.object members)

/-! ### Canonical bytes -/

def ascii (text : String) : List UInt8 :=
  text.toList.flatMap String.utf8EncodeChar

def hex (value : Nat) : UInt8 :=
  if value < 10 then 48 + UInt8.ofNat value else 97 + (UInt8.ofNat value - 10)

def writeChar (char : Char) : List UInt8 :=
  if char = '"' then [92, 34]
  else if char = '\\' then [92, 92]
  else if char = '\x08' then [92, 98]
  else if char = '\x0c' then [92, 102]
  else if char = '\n' then [92, 110]
  else if char = '\r' then [92, 114]
  else if char = '\t' then [92, 116]
  else if char.toNat ≤ 0x1f then
    [92, 117, 48, 48, hex (char.toNat / 16), hex (char.toNat % 16)]
  else String.utf8EncodeChar char

def writeString (value : String) : List UInt8 :=
  34 :: (value.toList.flatMap writeChar ++ [34])

mutual

def writeValue : JsonValue → List UInt8
  | .null => ascii "null"
  | .bool false => ascii "false"
  | .bool true => ascii "true"
  | .integer value => ascii (toString value.toInt)
  | .string value => writeString value
  | .array values => 91 :: (writeElements 0 values ++ [93])
  | .object members => 123 :: (writeMembers 0 members ++ [125])

def writeElements (index : Nat) : List JsonValue → List UInt8
  | [] => []
  | value :: rest =>
      (if index ≠ 0 then [44] else []) ++ writeValue value ++
        writeElements (index + 1) rest

def writeMembers (index : Nat) : List (String × JsonValue) → List UInt8
  | [] => []
  | (key, value) :: rest =>
      (if index ≠ 0 then [44] else []) ++ writeString key ++ 58 ::
        (writeValue value ++ writeMembers (index + 1) rest)

end

/-! ### Bounded values -/

/-- A value whose objects are maps.  The source keeps its canonical bytes beside
it, which the value determines. -/
structure BoundedJson where
  value : JsonValue
  canonical : Canonical value

namespace BoundedJson

theorem value_injective : Function.Injective BoundedJson.value := by
  rintro ⟨left, _⟩ ⟨right, _⟩ h
  cases h
  rfl

instance : DecidableEq BoundedJson := fun left right =>
  decidable_of_iff (left.value = right.value) value_injective.eq_iff

def canonicalBytes (value : BoundedJson) : List UInt8 := writeValue value.value

def null : BoundedJson := ⟨.null, .null⟩

end BoundedJson

/-- Tildes first, and then the separators. -/
def escapePointer (value : String) : String :=
  String.ofList (value.toList.flatMap fun char =>
    if char = '~' then ['~', '0'] else if char = '/' then ['~', '1'] else [char])

/-- A map of values. -/
structure BoundedMembers where
  members : List (String × JsonValue)
  sorted : Sorted Prod.fst members
  canonical : ∀ member ∈ members, Canonical member.2

namespace BoundedMembers

def empty : BoundedMembers := ⟨[], .nil, nofun⟩

def insert (key : String) (value : BoundedJson) (map : BoundedMembers) :
    BoundedMembers where
  members := SortedMap.insert key value.value map.members
  sorted := sorted_insert map.sorted
  canonical := by
    intro member hmember
    rcases mem_insert hmember with rfl | hmember
    · exact value.canonical
    · exact map.canonical member hmember

def toJson (map : BoundedMembers) : BoundedJson :=
  ⟨.object map.members, .object map.sorted map.canonical⟩

end BoundedMembers

end Peritus.ToolProtocol.Json
