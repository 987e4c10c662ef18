import Peritus.Checked
import Peritus.Words

/-!
Workspace-relative paths.  A path is a slash-separated string, on a platform
other than Windows.  UTF-8 keeps the order of code points, so the byte order of
the source's strings is the lexicographic order of their characters.
-/

namespace Peritus.Patch.Path

open Checked Words

/-! ### Errors -/

inductive ErrorCode
  | invalidPath
  | protectedPath
  | invalidPatchBounds
  | duplicateTarget
  | targetShapeConflict
  | invalidContent
  | corruptManifest
  | arithmeticOverflow
deriving DecidableEq

inductive RecoveryClass
  | correctPatch
  | fenceWorkspace
deriving DecidableEq

inductive PatchOperationContext
  | validatePath
  | plan
  | recover
deriving DecidableEq

inductive RollbackStatus
  | notRequired
  | indeterminate
deriving DecidableEq

/-- The path of an error is kept as its text. -/
structure PatchError where
  code : ErrorCode
  recovery : RecoveryClass
  operation : PatchOperationContext
  rollback : RollbackStatus
  path : Option String
  detail : String
deriving DecidableEq

def PatchError.message (code : ErrorCode) (recovery : RecoveryClass)
    (operation : PatchOperationContext) (rollback : RollbackStatus)
    (detail : String) : PatchError :=
  ⟨code, recovery, operation, rollback, none, detail⟩

def PatchError.at (error : PatchError) (path : String) : PatchError :=
  { error with path := some path }

def invalidPath : PatchError :=
  .message .invalidPath .correctPatch .validatePath .notRequired
    "path is not a canonical bounded workspace-relative path"

def protectedPath : PatchError :=
  .message .protectedPath .correctPatch .validatePath .notRequired
    "path names protected workspace metadata"

/-! ### Validation -/

def maxComponentBytes : Nat := 255

def separator : Char := '/'

def pathBoundsValid (bytes : Nat) : Bool :=
  decide (0 < bytes) && decide (bytes ≤ 4096)

/-- The zero byte, which UTF-8 has only as the zero character. -/
def forbiddenByte (char : Char) : Bool := char == '\x00'

def components (value : String) : List (List Char) :=
  value.toList.splitOn separator

def validComponent (component : List Char) : Bool :=
  !component.isEmpty && !(component == ['.']) && !(component == ['.', '.']) &&
    decide ((String.ofList component).utf8ByteSize ≤ maxComponentBytes)

def protectedComponent (component : List Char) : Bool :=
  component.map Char.toLower == ".git".toList ||
    component.map Char.toLower == ".peritus".toList ||
    ".peritus-txn-".toList.isPrefixOf (component.map Char.toLower)

def checkComponent (component : List Char) : Except PatchError Unit := do
  ensure (validComponent component) invalidPath
  ensure (!protectedComponent component) protectedPath

def checkPath (value : String) : Except PatchError Unit := do
  ensure (pathBoundsValid value.utf8ByteSize &&
      !(value.toList.head? == some separator) &&
      !(value.toList.getLast? == some separator) &&
      !value.toList.any forbiddenByte)
    invalidPath
  forEach checkComponent (components value)

/-! ### Paths -/

structure WorkspacePath where
  value : String
  valid : checkPath value = .ok ()
deriving DecidableEq

namespace WorkspacePath

theorem value_injective : Function.Injective WorkspacePath.value := by
  rintro ⟨left, _⟩ ⟨right, _⟩ h
  cases h
  rfl

instance : LinearOrder WorkspacePath :=
  LinearOrder.lift' WorkspacePath.value value_injective

def new (value : String) : Except PatchError WorkspacePath :=
  match h : checkPath value with
  | .error error => .error error
  | .ok () => .ok ⟨value, h⟩

def chars (path : WorkspacePath) : List Char := path.value.toList

/-- `other.0.strip_prefix(&self.0)`, then a suffix that starts with a slash. -/
def isAncestorOf (path other : WorkspacePath) : Bool :=
  path.chars.isPrefixOf other.chars &&
    (other.chars.drop path.chars.length).head? == some separator

theorem new_eq_ok {value : String} (hvalid : checkPath value = .ok ()) :
    new value = .ok ⟨value, hvalid⟩ := by
  unfold new
  split
  · next hchecked =>
      rw [hvalid] at hchecked
      cases hchecked
  · rfl

theorem lt_iff {left right : WorkspacePath} :
    left < right ↔ left.chars < right.chars :=
  String.lt_iff_toList_lt

theorem isAncestorOf_iff {path other : WorkspacePath} :
    path.isAncestorOf other = true ↔
      Extends separator path.chars other.chars := by
  unfold isAncestorOf
  rw [Bool.and_eq_true, List.isPrefixOf_iff_prefix, beq_iff_eq]
  constructor
  · rintro ⟨⟨rest, hrest⟩, hhead⟩
    rw [← hrest, List.drop_left, List.head?_eq_some_iff] at hhead
    obtain ⟨tail, rfl⟩ := hhead
    exact ⟨tail, hrest.symm⟩
  · rintro ⟨rest, hrest⟩
    rw [hrest]
    exact ⟨List.prefix_append _ _, by simp⟩

end WorkspacePath

/-! ### Directories above a path -/

section Directories

variable {value directory rest : String}

theorem checkPath_eq_ok_iff : checkPath value = .ok () ↔
    (0 < value.utf8ByteSize ∧ value.utf8ByteSize ≤ 4096 ∧
      value.toList.head? ≠ some separator ∧
      value.toList.getLast? ≠ some separator ∧
      ∀ char ∈ value.toList, forbiddenByte char = false) ∧
    ∀ component ∈ components value, checkComponent component = .ok () := by
  unfold checkPath pathBoundsValid
  simp [ensure_bind_eq_ok_iff, forEach_eq_ok_iff, and_assoc]

theorem nonempty_of_checkComponent {component : List Char}
    (h : checkComponent component = .ok ()) : component ≠ [] := by
  rintro rfl
  exact absurd h (by decide)

/-- What stands before a slash of a valid path is a valid path. -/
theorem checkPath_directory {directory rest : List Char}
    (hvalid : checkPath value = .ok ())
    (hsplit : value.toList = directory ++ separator :: rest) :
    checkPath (String.ofList directory) = .ok () := by
  obtain ⟨⟨hpositive, hbound, hfirst, hlast, hbytes⟩, hcomponents⟩ :=
    checkPath_eq_ok_iff.mp hvalid
  have hparts : components value =
      directory.splitOn separator ++ rest.splitOn separator := by
    unfold components
    rw [hsplit, List.splitOn_append_cons_self]
  have hchecked : ∀ component ∈ directory.splitOn separator,
      checkComponent component = .ok () := by
    intro component hcomponent
    apply hcomponents
    rw [hparts]
    exact List.mem_append_left _ hcomponent
  have hdirectory : directory ≠ [] := by
    rintro rfl
    exact nonempty_of_checkComponent (hchecked [] (by simp)) rfl
  rw [checkPath_eq_ok_iff]
  unfold components
  rw [String.toList_ofList]
  refine ⟨⟨?_, ?_, ?_, ?_, ?_⟩, hchecked⟩
  · obtain ⟨char, tail, rfl⟩ := List.exists_cons_of_ne_nil hdirectory
    rw [String.ofList_cons, String.utf8ByteSize_append]
    have := Char.utf8Size_pos char
    simp
    omega
  · have hvalue : value = String.ofList directory ++
        String.ofList (separator :: rest) := by
      rw [← String.ofList_append, ← hsplit, String.ofList_toList]
    rw [hvalue, String.utf8ByteSize_append] at hbound
    omega
  · intro hhead
    apply hfirst
    rw [hsplit, List.head?_append_of_ne_nil _ hdirectory]
    exact hhead
  · intro hend
    obtain ⟨front, rfl⟩ := List.getLast?_eq_some_iff.mp hend
    apply nonempty_of_checkComponent (hchecked [] ?_) rfl
    rw [List.splitOn_append_cons_self]
    simp
  · intro char hchar
    apply hbytes
    rw [hsplit]
    exact List.mem_append_left _ hchar

end Directories

end Peritus.Patch.Path
