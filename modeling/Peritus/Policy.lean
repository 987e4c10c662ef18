import Peritus.Types

/-!
The part of the policy crate that leases and runs of work observe: authority
time, validity windows and the value of one consumed capability use.
-/

namespace Peritus.Policy

open Peritus.Types

inductive PolicyErrorKind
  | clockEpochMismatch
  | clockRegression
  | timeOverflow
  | invalidValidityWindow
deriving DecidableEq

/-- One observation of the authority clock: an epoch and a `u64` tick. -/
@[ext]
structure AuthorityInstant where
  epoch : Generation
  tickMillis : Nat
  bound : tickMillis ≤ u64Max

instance : DecidableEq AuthorityInstant := fun _ _ =>
  decidable_of_iff _ AuthorityInstant.ext_iff.symm

def AuthorityInstant.checkedAdd (instant : AuthorityInstant)
    (durationMillis : Nat) : Except PolicyErrorKind AuthorityInstant :=
  if h : durationMillis > u64Max - instant.tickMillis then .error .timeOverflow
  else
    .ok ⟨instant.epoch, instant.tickMillis + durationMillis, by
      have := instant.bound
      omega⟩

/-- The epoch and the greatest tick accepted in it. -/
structure AuthorityTimeState where
  epoch : Generation
  greatestTickMillis : Nat
deriving DecidableEq

namespace AuthorityTimeState

def new (initial : AuthorityInstant) : AuthorityTimeState :=
  ⟨initial.epoch, initial.tickMillis⟩

def observe (time : AuthorityTimeState) (candidate : AuthorityInstant) :
    Except PolicyErrorKind AuthorityTimeState :=
  if candidate.epoch.get ≠ time.epoch.get then .error .clockEpochMismatch
  else if candidate.tickMillis < time.greatestTickMillis then
    .error .clockRegression
  else .ok ⟨time.epoch, candidate.tickMillis⟩

end AuthorityTimeState

structure ValidityWindow where
  notBefore : AuthorityInstant
  expiresAt : AuthorityInstant

def ValidityWindow.contains (window : ValidityWindow)
    (instant : AuthorityInstant) : Except PolicyErrorKind Bool :=
  if instant.epoch.get = window.notBefore.epoch.get then
    .ok (decide (window.notBefore.tickMillis ≤ instant.tickMillis) &&
      decide (instant.tickMillis < window.expiresAt.tickMillis))
  else .error .clockEpochMismatch

inductive ActorRole
  | writer
  | fixer
  | reviewer
  | evaluator
  | gateRunner
  | orchestrator
  | evolutionAgent
  | humanAuthority
  | daemonService
  | providerToolWorker
  | plugin
deriving DecidableEq

/-- `None` is unlimited. -/
structure UseLimit where
  remaining : Option Nat

structure Permission where
  resourceId : ResourceId
  capabilityName : String

structure CapabilityScope where
  actor : ActorId
  role : ActorRole
  environment : EnvironmentId
  permissions : List Permission
  revision : RevisionTuple
  validity : ValidityWindow
  useLimit : UseLimit

structure Capability where
  scope : CapabilityScope
  issuedAt : AuthorityInstant
  issuanceDigest : Sha256Digest
  issuanceCommandId : CommandId
  timeState : AuthorityTimeState
  remainingUses : UseLimit

/-- One consumed logical use of a capability. -/
structure CapabilityUseTransition where
  actionId : ActionId
  actionDigest : Sha256Digest
  permission : Permission
  usedAt : AuthorityInstant
  transitionDigest : Sha256Digest
  previousRemaining : UseLimit
  successor : Capability

def CapabilityUseTransition.scope (use : CapabilityUseTransition) :
    CapabilityScope :=
  use.successor.scope

end Peritus.Policy
