import Peritus.Checked
import Peritus.Policy

/-!
Lease aggregates: the exclusive mutation lease of one workspace lineage, its
commands and the relations `validate` requires of a stored aggregate.
-/

namespace Peritus.Lease.State

open Peritus.Types Policy

structure LeaseScope where
  workspace : WorkspaceId
  resource : ResourceId
  environment : EnvironmentId
deriving DecidableEq

structure LeaseHolder where
  actorId : ActorId
  sessionId : SessionId
deriving DecidableEq

/-- A strictly positive `u64` duration. -/
structure LeaseDuration where
  millis : Nat
  positive : 0 < millis
  bound : millis ≤ u64Max

/-- A copyable, unprivileged snapshot of one exact active lease. -/
@[ext]
structure LeaseClaim where
  scope : LeaseScope
  holder : LeaseHolder
  generation : Generation
  claimVersion : RevisionNumber
  issuedAt : AuthorityInstant
  expiresAt : AuthorityInstant

inductive LeasePhase
  | available
  | active
  | reconciling
  | quarantined
  | retired
deriving DecidableEq

inductive ScopeDimension
  | workspace
  | resource
  | environment
deriving DecidableEq

inductive ReconciliationDimension
  | scope (dimension : ScopeDimension)
  | fencedGeneration
  | priorHolder
deriving DecidableEq

inductive PolicyIntersectionDimension
  | actor
  | environment
  | workspace
  | generation
  | resourcePermission
  | clockEpoch
  | action
deriving DecidableEq

inductive LeaseError
  | zeroDuration
  | timeOverflow
  | clockRegression
  | clockEpochMismatch
  | noClockDiscontinuity
  | illegalPhase (expected actual : LeasePhase)
  | claimScopeMismatch (dimension : ScopeDimension)
  | claimHolderMismatch
  | claimGenerationMismatch
  | claimVersionMismatch
  | claimExpired
  | deadlineNotExtended
  | leaseNotExpired
  | holderLossMismatch
  | holderQuiescenceMismatch
  | reconciliationMismatch (dimension : ReconciliationDimension)
  | generationExhausted
  | versionExhausted
  | claimVersionExhausted
  | policyIntersectionMismatch (dimension : PolicyIntersectionDimension)
  | policyUseInvalid
  | corruptState

/-- Why the prior active generation was fenced. -/
inductive FenceCause
  | releasedWithoutQuiescence
  | expired
  | holderLost
  | clockDiscontinuity
  | revoked
deriving DecidableEq

structure HolderLossEvidence where
  claim : LeaseClaim
  evidenceId : EvidenceId

structure HolderQuiescenceEvidence where
  claim : LeaseClaim
  evidenceId : EvidenceId

structure ReconciliationCorrelation where
  scope : LeaseScope
  fencedGeneration : Generation
  priorHolder : LeaseHolder
deriving DecidableEq

inductive ReconciliationDisposition
  | safeToAcquire (holderQuiescence resourceSafety : EvidenceId)
  | dirty (evidenceId : EvidenceId)
  | indeterminate (evidenceId : EvidenceId)

structure ReconciliationObservation where
  correlation : ReconciliationCorrelation
  disposition : ReconciliationDisposition

inductive RetirementReason
  | generationExhausted
  | versionExhausted
deriving DecidableEq

structure ActiveLease where
  holder : LeaseHolder
  claimVersion : RevisionNumber
  issuedAt : AuthorityInstant
  expiresAt : AuthorityInstant

structure ReconciliationState where
  correlation : ReconciliationCorrelation
  cause : FenceCause

structure QuarantinedState where
  correlation : ReconciliationCorrelation
  cause : FenceCause
  disposition : ReconciliationDisposition

inductive LeaseState
  | available
  | active (lease : ActiveLease)
  | reconciling (state : ReconciliationState)
  | quarantined (state : QuarantinedState)
  | retired (reason : RetirementReason)

structure LeaseAggregate where
  scope : LeaseScope
  generation : Generation
  version : RevisionNumber
  authorityTime : AuthorityTimeState
  state : LeaseState

namespace LeaseAggregate

def phase (aggregate : LeaseAggregate) : LeasePhase :=
  match aggregate.state with
  | .available => .available
  | .active _ => .active
  | .reconciling _ => .reconciling
  | .quarantined _ => .quarantined
  | .retired _ => .retired

/-- The claim the current holder may present, if there is a holder. -/
def active (aggregate : LeaseAggregate) : Option LeaseClaim :=
  match aggregate.state with
  | .active lease =>
      some ⟨aggregate.scope, lease.holder, aggregate.generation,
        lease.claimVersion, lease.issuedAt, lease.expiresAt⟩
  | _ => none

def activeStateIsValid (aggregate : LeaseAggregate) (lease : ActiveLease) :
    Bool :=
  decide (lease.issuedAt.epoch.get = aggregate.authorityTime.epoch.get)
    && decide (lease.expiresAt.epoch.get = aggregate.authorityTime.epoch.get)
    && decide (lease.issuedAt.tickMillis < lease.expiresAt.tickMillis)
    && decide (aggregate.authorityTime.greatestTickMillis ≥
        lease.issuedAt.tickMillis)
    && decide (aggregate.authorityTime.greatestTickMillis <
        lease.expiresAt.tickMillis)
    && decide (aggregate.version.get < u64Max)

def generationsAreSuccessive (fenced current : Generation) : Bool :=
  if fenced.get = u64Max then false
  else decide (fenced.get + 1 = current.get)

def correlationIsValid (aggregate : LeaseAggregate)
    (correlation : ReconciliationCorrelation) : Bool :=
  decide (correlation.scope = aggregate.scope)
    && generationsAreSuccessive correlation.fencedGeneration
        aggregate.generation

def ReconciliationDisposition.isUnsafe : ReconciliationDisposition → Bool
  | .safeToAcquire _ _ => false
  | .dirty _ => true
  | .indeterminate _ => true

/-- The checked replay boundary: every internal phase relation. -/
def validate (aggregate : LeaseAggregate) : Except LeaseError Unit :=
  let valid :=
    match aggregate.state with
    | .available => true
    | .retired _ => true
    | .active lease => activeStateIsValid aggregate lease
    | .reconciling state => correlationIsValid aggregate state.correlation
    | .quarantined state =>
        ReconciliationDisposition.isUnsafe state.disposition
          && correlationIsValid aggregate state.correlation
  Checked.ensure valid .corruptState

end LeaseAggregate

structure MintLease where
  commandId : CommandId
  scope : LeaseScope
  observedAt : AuthorityInstant

structure AcquireLease where
  commandId : CommandId
  holder : LeaseHolder
  duration : LeaseDuration
  observedAt : AuthorityInstant

structure RenewLease where
  commandId : CommandId
  claim : LeaseClaim
  duration : LeaseDuration
  observedAt : AuthorityInstant

structure UseLease where
  commandId : CommandId
  claim : LeaseClaim
  observedAt : AuthorityInstant
  capabilityUse : CapabilityUseTransition

structure ReleaseLease where
  commandId : CommandId
  claim : LeaseClaim
  observedAt : AuthorityInstant
  quiescence : Option HolderQuiescenceEvidence

structure ExpireLease where
  commandId : CommandId
  observedAt : AuthorityInstant

structure FenceHolderLoss where
  commandId : CommandId
  observedAt : AuthorityInstant
  evidence : HolderLossEvidence

structure FenceClockDiscontinuity where
  commandId : CommandId
  observedAt : AuthorityInstant

structure RevokeLease where
  commandId : CommandId
  claim : LeaseClaim
  observedAt : AuthorityInstant
  evidenceId : EvidenceId

structure ReconcileLease where
  commandId : CommandId
  observedAt : AuthorityInstant
  observation : ReconciliationObservation

/-- The projection of a use command that its transition record keeps. -/
structure LeaseUseCommandBinding where
  commandId : CommandId
  claim : LeaseClaim
  observedAt : AuthorityInstant
  actionId : ActionId
  actionDigest : Sha256Digest
  permission : Permission
  actorId : ActorId
  role : ActorRole
  environmentId : EnvironmentId
  scopePermissions : List Permission
  revision : RevisionTuple
  validity : ValidityWindow
  scopeUseLimit : UseLimit
  usedAt : AuthorityInstant
  transitionDigest : Sha256Digest
  previousRemaining : UseLimit
  successorRemaining : UseLimit
  successorTimeEpoch : Generation
  successorGreatestTickMillis : Nat
  successorIssuedAt : AuthorityInstant
  successorIssuanceDigest : Sha256Digest
  successorIssuanceCommandId : CommandId

def LeaseUseCommandBinding.fromCommand (command : UseLease) :
    LeaseUseCommandBinding :=
  let capability := command.capabilityUse
  let scope := capability.scope
  let successor := capability.successor
  { commandId := command.commandId
    claim := command.claim
    observedAt := command.observedAt
    actionId := capability.actionId
    actionDigest := capability.actionDigest
    permission := capability.permission
    actorId := scope.actor
    role := scope.role
    environmentId := scope.environment
    scopePermissions := scope.permissions
    revision := scope.revision
    validity := scope.validity
    scopeUseLimit := scope.useLimit
    usedAt := capability.usedAt
    transitionDigest := capability.transitionDigest
    previousRemaining := capability.previousRemaining
    successorRemaining := successor.remainingUses
    successorTimeEpoch := successor.timeState.epoch
    successorGreatestTickMillis := successor.timeState.greatestTickMillis
    successorIssuedAt := successor.issuedAt
    successorIssuanceDigest := successor.issuanceDigest
    successorIssuanceCommandId := successor.issuanceCommandId }

/-- The source command carried by every accepted transition. -/
inductive LeaseCommandBinding
  | mint (command : MintLease)
  | acquire (command : AcquireLease)
  | renew (command : RenewLease)
  | use (binding : LeaseUseCommandBinding)
  | release (command : ReleaseLease)
  | expire (command : ExpireLease)
  | holderLoss (command : FenceHolderLoss)
  | clockDiscontinuity (command : FenceClockDiscontinuity)
  | revoke (command : RevokeLease)
  | reconcile (command : ReconcileLease)

inductive LeaseTransitionKind
  | minted
  | acquired
  | renewed
  | used (actionId : ActionId) (actionDigest : Sha256Digest)
  | releasedAvailable
  | releasedReconciling
  | expired
  | holderLost
  | clockDiscontinuity
  | revoked
  | reconciledAvailable
  | reconciledQuarantined
  | retired (reason : RetirementReason)
deriving DecidableEq

structure LeaseTransitionRecord where
  commandId : CommandId
  scope : LeaseScope
  beforeVersion : Option RevisionNumber
  afterVersion : RevisionNumber
  beforeGeneration : Option Generation
  afterGeneration : Generation
  beforePhase : Option LeasePhase
  afterPhase : LeasePhase
  kind : LeaseTransitionKind
  binding : LeaseCommandBinding

structure LeaseTransition where
  next : LeaseAggregate
  record : LeaseTransitionRecord

/-- A rejection owns the unchanged aggregate. -/
structure LeaseTransitionFailure where
  error : LeaseError
  aggregate : LeaseAggregate

abbrev LeaseTransitionOutcome := Except LeaseTransitionFailure LeaseTransition

structure LeaseUseTransition where
  lease : LeaseTransition
  capabilityUse : CapabilityUseTransition
  claim : LeaseClaim
  effectiveExpiresAt : AuthorityInstant

structure LeaseUseFailure where
  lease : LeaseTransitionFailure
  command : UseLease

abbrev LeaseUseOutcome := Except LeaseUseFailure LeaseUseTransition

end Peritus.Lease.State
