import Peritus.Codec.Writer
import Peritus.Patch.Path

/-!
Patch sets: the operations on workspace targets, the identity over their
canonical bytes, the transaction manifest they must fit, and the constructor
that sorts them and looks at neighbouring targets.
-/

namespace Peritus.Patch.Set

open Peritus.Types Checked Codec.Writer Patch.Path

/-! ### Operations -/

inductive FileMode
  | regular
  | executable
deriving DecidableEq

def FileMode.tag : FileMode → Nat
  | .regular => 1
  | .executable => 2

inductive LineEndingPolicy
  | preserve
  | lf
  | crlf
deriving DecidableEq

def LineEndingPolicy.tag : LineEndingPolicy → Nat
  | .preserve => 1
  | .lf => 2
  | .crlf => 3

inductive Preimage
  | absent
  | present (digest : Sha256Digest) (size : Nat) (mode : FileMode)
deriving DecidableEq

def Preimage.isPresent : Preimage → Bool
  | .absent => false
  | .present .. => true

structure FinalFile where
  bytes : List UInt8
  digest : Sha256Digest
  size : Nat
  mode : FileMode
  lineEndings : LineEndingPolicy
deriving DecidableEq

inductive PatchOperationKind
  | create
  | replace
  | delete
deriving DecidableEq

def PatchOperationKind.tag : PatchOperationKind → Nat
  | .create => 1
  | .replace => 2
  | .delete => 3

def shapeValid (kind : PatchOperationKind) (preimage postimage : Bool) : Bool :=
  match kind, preimage, postimage with
  | .create, false, true => true
  | .replace, true, true => true
  | .delete, true, false => true
  | _, _, _ => false

structure PatchOperation where
  path : WorkspacePath
  preimage : Preimage
  finalFile : Option FinalFile
  kind : PatchOperationKind
  shaped : shapeValid kind preimage.isPresent finalFile.isSome = true
deriving DecidableEq

def PatchOperation.create (path : WorkspacePath) (finalFile : FinalFile) :
    PatchOperation :=
  ⟨path, .absent, some finalFile, .create, rfl⟩

def PatchOperation.finalBytes (operation : PatchOperation) : Nat :=
  (operation.finalFile.map fun file => file.bytes.length).getD 0

def boundsError : PatchError :=
  .message .invalidPatchBounds .correctPatch .plan .notRequired
    "patch is empty or exceeds native canonical representation limits"

def arithmeticError : PatchError :=
  .message .arithmeticOverflow .correctPatch .plan .notRequired
    "patch aggregate byte count overflowed"

def duplicateTarget : PatchError :=
  .message .duplicateTarget .correctPatch .plan .notRequired
    "patch contains duplicate target paths"

def targetShapeConflict : PatchError :=
  .message .targetShapeConflict .correctPatch .plan .notRequired
    "one patch target is an ancestor of another"

def capacityError : PatchError :=
  .message .invalidPatchBounds .correctPatch .plan .notRequired
    "patch recovery manifest exceeds a configured resource bound"

def corruptManifest : PatchError :=
  .message .corruptManifest .fenceWorkspace .recover .indeterminate
    "transaction manifest is malformed or unsupported"

/-! ### Identity -/

def localRecordCodecLimits : CodecLimits :=
  ⟨u64Max, u64Max, 2 ^ 32 - 1, 2 ^ 32 - 1, 2 ^ 32 - 1, 64⟩

def writeText (value : String) : Payload :=
  [.fixed value.toUTF8.data.toList]

def writePreimage : Preimage → Payload
  | .absent => writeU8 0
  | .present digest size mode =>
      writeU8 1 ++ writeDigest digest ++ writeU64 size ++ writeU8 mode.tag

def writeFinalFile : Option FinalFile → Payload
  | none => writeU8 0
  | some file =>
      writeU8 1 ++ writeDigest file.digest ++ writeU64 file.size ++
        writeU8 file.mode.tag ++ writeU8 file.lineEndings.tag ++
        writeBytes file.bytes

def writeOperation (operation : PatchOperation) : Payload :=
  writeU8 operation.kind.tag ++ writeStr operation.path.value ++
    writePreimage operation.preimage ++ writeFinalFile operation.finalFile

section Identity

variable (workspaceId : WorkspaceId) (generation : Generation)
  (revision : RevisionNumber) (operations : List PatchOperation)

def identityPayload : Payload :=
  writeText "peritus-patch-set-v1" ++ writeId workspaceId ++
    writeU64 generation.get ++ writeU64 revision.get ++
    writeList operations writeOperation

def canonicalIdentity (sha256 : List UInt8 → Sha256Digest) :
    Except PatchError Sha256Digest :=
  match perform (.new localRecordCodecLimits)
      (identityPayload workspaceId generation revision operations) with
  | .ok writer => .ok (sha256 writer.bytes)
  | .error _ => .error boundsError

end Identity

/-! ### Patch sets -/

structure PatchSet where
  workspaceId : WorkspaceId
  expectedGeneration : Generation
  expectedRevision : RevisionNumber
  operations : List PatchOperation
  identity : Sha256Digest
deriving DecidableEq

/-! ### The transaction manifest -/

structure FileIdentity where
  digest : Sha256Digest
  size : Nat
  mode : FileMode
deriving DecidableEq

def FileIdentity.fromPreimage : Preimage → Option FileIdentity
  | .absent => none
  | .present digest size mode => some ⟨digest, size, mode⟩

structure ManifestEntry where
  kind : PatchOperationKind
  path : WorkspacePath
  preimage : Option FileIdentity
  postimage : Option FileIdentity
deriving DecidableEq

def ManifestEntry.fromOperation (operation : PatchOperation) : ManifestEntry where
  kind := operation.kind
  path := operation.path
  preimage := FileIdentity.fromPreimage operation.preimage
  postimage := operation.finalFile.map fun file =>
    ⟨file.digest, file.size, file.mode⟩

inductive TransactionPhase
  | prepared
  | installing
  | installed
deriving DecidableEq

def TransactionPhase.tag : TransactionPhase → Nat
  | .prepared => 1
  | .installing => 2
  | .installed => 3

structure Manifest where
  phase : TransactionPhase
  workspaceId : WorkspaceId
  generation : Generation
  revision : RevisionNumber
  identity : Sha256Digest
  entries : List ManifestEntry
  createdDirectories : List WorkspacePath
deriving DecidableEq

def Manifest.fromPatch (patch : PatchSet)
    (createdDirectories : List WorkspacePath) : Manifest where
  phase := .prepared
  workspaceId := patch.workspaceId
  generation := patch.expectedGeneration
  revision := patch.expectedRevision
  identity := patch.identity
  entries := patch.operations.map .fromOperation
  createdDirectories := createdDirectories

def writeIdentity (identity : Option FileIdentity) : Payload :=
  writeOption identity fun found =>
    writeDigest found.digest ++ writeU64 found.size ++ writeU8 found.mode.tag

def writeEntry (entry : ManifestEntry) : Payload :=
  writeU8 entry.kind.tag ++ writeStr entry.path.value ++
    writeIdentity entry.preimage ++ writeIdentity entry.postimage

def Manifest.payload (manifest : Manifest) : Payload :=
  writeText "peritus-patch-txn-v1" ++ writeU16 1 ++ writeU8 manifest.phase.tag ++
    writeId manifest.workspaceId ++ writeU64 manifest.generation.get ++
    writeU64 manifest.revision.get ++ writeDigest manifest.identity ++
    writeList manifest.entries writeEntry ++
    writeList manifest.createdDirectories fun directory =>
      writeStr directory.value

def Manifest.encode (sha256 : List UInt8 → Sha256Digest) (manifest : Manifest) :
    Except PatchError (List UInt8) :=
  match perform (.new localRecordCodecLimits) manifest.payload with
  | .error _ => .error corruptManifest
  | .ok writer =>
      match perform writer (writeDigest (sha256 writer.bytes)) with
      | .error _ => .error corruptManifest
      | .ok sealed => .ok sealed.bytes

/-- The directories above a target, the components before its last one joined
from the left. -/
def directoriesAbove (relative : List Char) :
    List (List Char) → Except PatchError (List WorkspacePath)
  | component :: next :: rest => do
      let extended :=
        if relative.isEmpty then component
        else relative ++ separator :: component
      let directory ← WorkspacePath.new (String.ofList extended)
      let directories ← directoriesAbove extended (next :: rest)
      .ok (directory :: directories)
  | _ => .ok []

def patchDirectories :
    List PatchOperation → Except PatchError (List WorkspacePath)
  | [] => .ok []
  | operation :: rest => do
      let above ← directoriesAbove [] (components operation.path.value)
      let others ← patchDirectories rest
      .ok (above ++ others)

/-- By the number of components, then by path; a set holds each once. -/
def orderDirectories (directories : List WorkspacePath) : List WorkspacePath :=
  directories.dedup.mergeSort fun left right =>
    decide (toLex ((components left.value).length, left) ≤
      toLex ((components right.value).length, right))

def validatePatchCapacity (sha256 : List UInt8 → Sha256Digest)
    (patch : PatchSet) : Except PatchError Unit := do
  let directories ← patchDirectories patch.operations
  let _ ← (Manifest.fromPatch patch (orderDirectories directories)).encode sha256
  .ok ()

def validatePatchManifestCapacity (sha256 : List UInt8 → Sha256Digest)
    (patch : PatchSet) : Except PatchError Unit :=
  (validatePatchCapacity sha256 patch).mapError fun _ => capacityError

/-! ### The constructor -/

def totalBytes (total : Nat) : List PatchOperation → Except PatchError Nat
  | [] => .ok total
  | operation :: rest => do
      let next := total + operation.finalBytes
      ensure (decide (next ≤ u64Max)) arithmeticError
      totalBytes next rest

def patchBoundsValid (operations finalBytes operationLimit byteLimit : Nat) :
    Bool :=
  decide (0 < operations) && decide (operations ≤ operationLimit) &&
    decide (finalBytes ≤ byteLimit)

def sortByPath (operations : List PatchOperation) : List PatchOperation :=
  operations.mergeSort fun left right => decide (left.path ≤ right.path)

/-- `for pair in operations.windows(2)`. -/
def checkTargets : List PatchOperation → Except PatchError Unit
  | left :: right :: rest => do
      ensure (!(left.path == right.path)) (duplicateTarget.at left.path.value)
      ensure (!left.path.isAncestorOf right.path)
        (targetShapeConflict.at left.path.value)
      checkTargets (right :: rest)
  | _ => .ok ()

def PatchSet.new (sha256 : List UInt8 → Sha256Digest)
    (workspaceId : WorkspaceId) (generation : Generation)
    (revision : RevisionNumber) (operations : List PatchOperation) :
    Except PatchError PatchSet := do
  let total ← totalBytes 0 operations
  ensure (patchBoundsValid operations.length total u64Max u64Max) boundsError
  let sorted := sortByPath operations
  checkTargets sorted
  let identity ← canonicalIdentity workspaceId generation revision sorted sha256
  let patch : PatchSet := ⟨workspaceId, generation, revision, sorted, identity⟩
  validatePatchManifestCapacity sha256 patch
  .ok patch

end Peritus.Patch.Set
