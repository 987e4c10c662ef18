import Peritus.Bytes
import Peritus.Types

/-!
The encoder of the canonical digests: fixed-width numbers, digests, texts with
their length, and options with a tag.
-/

namespace Peritus.Encoding

open Peritus.Types Bytes

def u8 (value : Nat) : List UInt8 := beBytes 1 value

def u16 (value : Nat) : List UInt8 := beBytes 2 value

def u32 (value : Nat) : List UInt8 := beBytes 4 value

def u64 (value : Nat) : List UInt8 := beBytes 8 value

def bool (value : Bool) : List UInt8 := u8 (if value then 1 else 0)

def identifier (value : OpaqueIdentifier) : List UInt8 := beBytes 16 value.value

def digest (value : Sha256Digest) : List UInt8 := beBytes 32 value.value

def raw (value : String) : List UInt8 := value.toUTF8.data.toList

def text (value : String) : List UInt8 := u64 value.utf8ByteSize ++ raw value

def option {α : Type} (encode : α → List UInt8) : Option α → List UInt8
  | some value => u8 1 ++ encode value
  | none => u8 0

/-- A list with its length before it. -/
def sequence {α : Type} (encode : α → List UInt8) (values : List α) :
    List UInt8 :=
  u64 values.length ++ values.flatMap encode

def revision (value : RevisionTuple) : List UInt8 :=
  identifier value.acceptanceSpecId ++ identifier value.harnessId ++
    identifier value.workspaceId ++ u64 value.workspaceGeneration.get ++
    u64 value.workspaceRevision.get ++ identifier value.policyId ++
    identifier value.providerProfileId

end Peritus.Encoding
