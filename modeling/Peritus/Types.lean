import Mathlib

/-!
The validated scalar types every other crate of the repository builds on:
opaque identifiers, one-based numbers, digests and the revision tuple.
-/

namespace Peritus.Types

/-- The greatest `u64`. -/
abbrev u64Max : Nat := 2 ^ 64 - 1

/-- A sixteen-byte identifier, read as a big-endian number; all-zero bytes are
rejected.  Byte order and numeric order agree. -/
@[ext]
structure OpaqueIdentifier where
  value : Nat
  nonzero : value ≠ 0
  bound : value < 256 ^ 16

instance : DecidableEq OpaqueIdentifier := fun _ _ =>
  decidable_of_iff _ OpaqueIdentifier.ext_iff.symm

theorem OpaqueIdentifier.one_bound : 1 < 256 ^ 16 := by decide

/-- The identifier with a value, and the least one where there is none. -/
def OpaqueIdentifier.ofNat (value : Nat) : OpaqueIdentifier :=
  if h : value < 256 ^ 16 ∧ value ≠ 0 then ⟨value, h.2, h.1⟩
  else ⟨1, Nat.one_ne_zero, one_bound⟩

theorem OpaqueIdentifier.value_injective :
    Function.Injective OpaqueIdentifier.value := by
  rintro ⟨left, _, _⟩ ⟨right, _, _⟩ h
  cases h
  rfl

instance : LinearOrder OpaqueIdentifier :=
  LinearOrder.lift' OpaqueIdentifier.value OpaqueIdentifier.value_injective

abbrev WorkspaceId := OpaqueIdentifier
abbrev ResourceId := OpaqueIdentifier
abbrev EnvironmentId := OpaqueIdentifier
abbrev ActorId := OpaqueIdentifier
abbrev SessionId := OpaqueIdentifier
abbrev CommandId := OpaqueIdentifier
abbrev EvidenceId := OpaqueIdentifier
abbrev ActionId := OpaqueIdentifier
abbrev AcceptanceSpecId := OpaqueIdentifier
abbrev HarnessId := OpaqueIdentifier
abbrev PolicyId := OpaqueIdentifier
abbrev ProviderProfileId := OpaqueIdentifier
abbrev BudgetId := OpaqueIdentifier
abbrev BudgetReservationId := OpaqueIdentifier
abbrev ProjectId := OpaqueIdentifier
abbrev EventId := OpaqueIdentifier
abbrev RunId := OpaqueIdentifier
abbrev AttemptId := OpaqueIdentifier
abbrev TurnId := OpaqueIdentifier
abbrev ReviewCycleId := OpaqueIdentifier
abbrev FindingId := OpaqueIdentifier
abbrev ArtifactId := OpaqueIdentifier

/-- A SHA-256 digest, read as a big-endian number. -/
structure Sha256Digest where
  value : Nat
  bound : value < 256 ^ 32
deriving DecidableEq

theorem Sha256Digest.zero_bound : 0 < 256 ^ 32 := by decide

def Sha256Digest.ofNat (value : Nat) : Sha256Digest :=
  if h : value < 256 ^ 32 then ⟨value, h⟩ else ⟨0, zero_bound⟩

inductive OneBasedNumberError
  | zero
  | overflow
deriving DecidableEq

/-- A one-based `u64`: revision numbers, event sequences and generations. -/
@[ext]
structure PositiveNumber where
  get : Nat
  positive : 0 < get
  bound : get ≤ u64Max
deriving DecidableEq

namespace PositiveNumber

theorem one_bound : 1 ≤ u64Max := by decide

def first : PositiveNumber := ⟨1, Nat.one_pos, one_bound⟩

def ofNat (value : Nat) : PositiveNumber :=
  if h : value ≤ u64Max ∧ 0 < value then ⟨value, h.2, h.1⟩ else first

def checkedNext (n : PositiveNumber) :
    Except OneBasedNumberError PositiveNumber :=
  if h : n.get + 1 ≤ u64Max then .ok ⟨n.get + 1, Nat.succ_pos _, h⟩
  else .error .overflow

@[simp] theorem first_get : first.get = 1 := rfl

theorem get_lt (n : PositiveNumber) : n.get < 2 ^ 64 :=
  Nat.lt_of_le_of_lt n.bound (by decide)

theorem checkedNext_eq_ok_iff {n m : PositiveNumber} :
    n.checkedNext = .ok m ↔ m.get = n.get + 1 := by
  unfold checkedNext
  have hbound := m.bound
  split
  · rw [Except.ok.injEq]
    constructor
    · rintro rfl
      rfl
    · intro h
      exact PositiveNumber.ext h.symm
  · constructor
    · intro h
      cases h
    · intro h
      omega

end PositiveNumber

abbrev RevisionNumber := PositiveNumber
abbrev Generation := PositiveNumber
abbrev EventSequence := PositiveNumber

theorem genesis_predecessor : 0 = 0 ↔ (none : Option EventId) = none :=
  ⟨fun _ => rfl, fun _ => rfl⟩

theorem word_bound (word : { number : Nat // number < 256 ^ 8 }) : word.1 ≤ u64Max :=
  Nat.le_of_lt_succ word.2

structure RevisionTuple where
  acceptanceSpecId : AcceptanceSpecId
  harnessId : HarnessId
  workspaceId : WorkspaceId
  workspaceGeneration : Generation
  workspaceRevision : RevisionNumber
  policyId : PolicyId
  providerProfileId : ProviderProfileId
deriving DecidableEq

end Peritus.Types
