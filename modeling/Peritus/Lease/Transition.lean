import Peritus.Lease.State

/-!
The lease reducers: mint, acquire, renew, use, release, the four fences and
reconciliation, each from its checks to the one constructor of transitions.
-/

namespace Peritus.Lease.Transition

open Peritus.Types Policy Checked State

/-! ### Shared checks -/

def rejection (before : LeaseAggregate) (error : LeaseError) :
    LeaseTransitionFailure :=
  ⟨error, before⟩

/-- A failed check rejects the command and hands the aggregate back. -/
def orReject {α : Type} (aggregate : LeaseAggregate)
    (check : Except LeaseError α) : Except LeaseTransitionFailure α :=
  match check with
  | .ok value => .ok value
  | .error error => .error (rejection aggregate error)

def requirePhase (aggregate : LeaseAggregate) (expected : LeasePhase) :
    Except LeaseError Unit :=
  ensure (decide (aggregate.phase = expected))
    (.illegalPhase expected aggregate.phase)

def requireActive (aggregate : LeaseAggregate) :
    Except LeaseError ActiveLease :=
  match aggregate.state with
  | .active lease => .ok lease
  | _ => .error (.illegalPhase .active aggregate.phase)

def validateObservation (floor : AuthorityTimeState)
    (observedAt : AuthorityInstant) : Except LeaseError Unit :=
  if observedAt.epoch.get ≠ floor.epoch.get then .error .clockEpochMismatch
  else if observedAt.tickMillis < floor.greatestTickMillis then
    .error .clockRegression
  else .ok ()

def mapPolicyTime : PolicyErrorKind → LeaseError
  | .clockEpochMismatch => .clockEpochMismatch
  | .clockRegression => .clockRegression
  | .timeOverflow => .timeOverflow
  | _ => .policyUseInvalid

def ensureBeforeExpiry (expiresAt observedAt : AuthorityInstant) :
    Except LeaseError Unit :=
  if observedAt.epoch.get ≠ expiresAt.epoch.get then .error .clockEpochMismatch
  else if observedAt.tickMillis ≥ expiresAt.tickMillis then
    .error .claimExpired
  else .ok ()

def nextNonFenceVersion (version : RevisionNumber) :
    Except LeaseError RevisionNumber :=
  if version.get ≥ u64Max - 1 then .error .versionExhausted
  else
    match version.checkedNext with
    | .ok next => .ok next
    | .error _ => .error .versionExhausted

def nextActiveVersion (version : RevisionNumber) :
    Except LeaseError RevisionNumber :=
  nextNonFenceVersion version

def earlier (left right : AuthorityInstant) : AuthorityInstant :=
  if left.tickMillis ≤ right.tickMillis then left else right

def leaseDeadline (observedAt : AuthorityInstant) (duration : LeaseDuration) :
    Except LeaseError AuthorityInstant :=
  match observedAt.checkedAdd duration.millis with
  | .ok deadline => .ok deadline
  | .error error => .error (mapPolicyTime error)

def validateClaimIdentity (expected actual : LeaseClaim) :
    Except LeaseError Unit :=
  if actual.scope.workspace ≠ expected.scope.workspace then
    .error (.claimScopeMismatch .workspace)
  else if actual.scope.resource ≠ expected.scope.resource then
    .error (.claimScopeMismatch .resource)
  else if actual.scope.environment ≠ expected.scope.environment then
    .error (.claimScopeMismatch .environment)
  else if actual.holder.actorId ≠ expected.holder.actorId ∨
      actual.holder.sessionId ≠ expected.holder.sessionId then
    .error .claimHolderMismatch
  else if actual.generation.get ≠ expected.generation.get then
    .error .claimGenerationMismatch
  else if actual.claimVersion.get ≠ expected.claimVersion.get ∨
      actual.issuedAt.epoch.get ≠ expected.issuedAt.epoch.get ∨
      actual.issuedAt.tickMillis ≠ expected.issuedAt.tickMillis ∨
      actual.expiresAt.epoch.get ≠ expected.expiresAt.epoch.get ∨
      actual.expiresAt.tickMillis ≠ expected.expiresAt.tickMillis then
    .error .claimVersionMismatch
  else .ok ()

def requireActiveClaim (aggregate : LeaseAggregate) (claim : LeaseClaim) :
    Except LeaseError ActiveLease := do
  let active ← requireActive aggregate
  validateClaimIdentity
    ⟨aggregate.scope, active.holder, aggregate.generation, active.claimVersion,
      active.issuedAt, active.expiresAt⟩ claim
  return active

def validateReleaseQuiescence (command : ReleaseLease) :
    Except LeaseError Bool :=
  match command.quiescence with
  | none => .ok false
  | some evidence =>
      match validateClaimIdentity command.claim evidence.claim with
      | .ok _ => .ok true
      | .error _ => .error .holderQuiescenceMismatch

def validateCorrelation (expected actual : ReconciliationCorrelation) :
    Except LeaseError Unit :=
  if actual.scope.workspace ≠ expected.scope.workspace then
    .error (.reconciliationMismatch (.scope .workspace))
  else if actual.scope.resource ≠ expected.scope.resource then
    .error (.reconciliationMismatch (.scope .resource))
  else if actual.scope.environment ≠ expected.scope.environment then
    .error (.reconciliationMismatch (.scope .environment))
  else if actual.fencedGeneration.get ≠ expected.fencedGeneration.get then
    .error (.reconciliationMismatch .fencedGeneration)
  else if actual.priorHolder.actorId ≠ expected.priorHolder.actorId ∨
      actual.priorHolder.sessionId ≠ expected.priorHolder.sessionId then
    .error (.reconciliationMismatch .priorHolder)
  else .ok ()

def validatePolicyIntersection (aggregate : LeaseAggregate)
    (command : UseLease) : Except LeaseError Unit :=
  let policy := command.capabilityUse
  let scope := policy.scope
  let usedAt := policy.usedAt
  let observedAt := command.observedAt
  if usedAt.epoch.get ≠ observedAt.epoch.get ∨
      usedAt.tickMillis ≠ observedAt.tickMillis then
    .error (.policyIntersectionMismatch .clockEpoch)
  else if scope.actor ≠ command.claim.holder.actorId then
    .error (.policyIntersectionMismatch .actor)
  else if scope.environment ≠ aggregate.scope.environment then
    .error (.policyIntersectionMismatch .environment)
  else if scope.revision.workspaceId ≠ aggregate.scope.workspace then
    .error (.policyIntersectionMismatch .workspace)
  else if scope.revision.workspaceGeneration.get ≠ aggregate.generation.get then
    .error (.policyIntersectionMismatch .generation)
  else if policy.permission.resourceId ≠ aggregate.scope.resource then
    .error (.policyIntersectionMismatch .resourcePermission)
  else if scope.validity.expiresAt.epoch.get ≠
      aggregate.authorityTime.epoch.get then
    .error (.policyIntersectionMismatch .clockEpoch)
  else
    match scope.validity.contains observedAt with
    | .ok true => .ok ()
    | _ => .error .policyUseInvalid

/-! ### The constructor of transitions -/

inductive AuthorityTimeAdvance
  | observe (instant : AuthorityInstant)
  | preserve
  | reset (instant : AuthorityInstant)

structure TransitionPlan where
  commandId : CommandId
  version : RevisionNumber
  generation : Generation
  timeAdvance : AuthorityTimeAdvance
  state : LeaseState
  kind : LeaseTransitionKind
  binding : LeaseCommandBinding

/-- A failed clock observation returns the time floor it was given. -/
def advanceTime (floor : AuthorityTimeState) :
    AuthorityTimeAdvance → Except LeaseError AuthorityTimeState
  | .observe instant =>
      match floor.observe instant with
      | .ok next => .ok next
      | .error error => .error (mapPolicyTime error)
  | .preserve => .ok floor
  | .reset instant => .ok (AuthorityTimeState.new instant)

def transitionVerified (before : LeaseAggregate) (plan : TransitionPlan) :
    LeaseTransitionOutcome := do
  orReject before before.validate
  let authorityTime ←
    orReject before (advanceTime before.authorityTime plan.timeAdvance)
  let next : LeaseAggregate :=
    { scope := before.scope
      generation := plan.generation
      version := plan.version
      authorityTime
      state := plan.state }
  return {
    next
    record :=
      { commandId := plan.commandId
        scope := next.scope
        beforeVersion := some before.version
        afterVersion := next.version
        beforeGeneration := some before.generation
        afterGeneration := next.generation
        beforePhase := some before.phase
        afterPhase := next.phase
        kind := plan.kind
        binding := plan.binding } }

def transition (before : LeaseAggregate) (plan : TransitionPlan) :
    LeaseTransitionOutcome :=
  match before.version.checkedNext with
  | .error _ => .error (rejection before .corruptState)
  | .ok expected =>
      if plan.version.get ≠ expected.get then
        .error (rejection before .corruptState)
      else transitionVerified before plan

/-! ### Mint, acquisition and renewal -/

def mint (command : MintLease) : Except LeaseError LeaseTransition :=
  let next : LeaseAggregate :=
    { scope := command.scope
      generation := PositiveNumber.first
      version := PositiveNumber.first
      authorityTime := AuthorityTimeState.new command.observedAt
      state := .available }
  .ok {
    next
    record :=
      { commandId := command.commandId
        scope := next.scope
        beforeVersion := none
        afterVersion := next.version
        beforeGeneration := none
        afterGeneration := next.generation
        beforePhase := none
        afterPhase := .available
        kind := .minted
        binding := .mint command } }

def acquire (aggregate : LeaseAggregate) (command : AcquireLease) :
    LeaseTransitionOutcome := do
  orReject aggregate (requirePhase aggregate .available)
  orReject aggregate
    (validateObservation aggregate.authorityTime command.observedAt)
  let expiresAt ←
    orReject aggregate (leaseDeadline command.observedAt command.duration)
  let version ← orReject aggregate (nextActiveVersion aggregate.version)
  transition aggregate
    { commandId := command.commandId
      version
      generation := aggregate.generation
      timeAdvance := .observe command.observedAt
      state := .active
        { holder := command.holder
          claimVersion := PositiveNumber.first
          issuedAt := command.observedAt
          expiresAt }
      kind := .acquired
      binding := .acquire command }

def renew (aggregate : LeaseAggregate) (command : RenewLease) :
    LeaseTransitionOutcome := do
  let active ← orReject aggregate (requireActiveClaim aggregate command.claim)
  orReject aggregate
    (validateObservation aggregate.authorityTime command.observedAt)
  orReject aggregate (ensureBeforeExpiry active.expiresAt command.observedAt)
  let expiresAt ←
    orReject aggregate (leaseDeadline command.observedAt command.duration)
  orReject aggregate (ensure
    (!decide (expiresAt.tickMillis ≤ active.expiresAt.tickMillis))
    .deadlineNotExtended)
  let claimVersion ← orReject aggregate
    (active.claimVersion.checkedNext.mapError fun _ => .claimVersionExhausted)
  let version ← orReject aggregate (nextActiveVersion aggregate.version)
  transition aggregate
    { commandId := command.commandId
      version
      generation := aggregate.generation
      timeAdvance := .observe command.observedAt
      state := .active
        { holder := active.holder
          claimVersion
          issuedAt := command.observedAt
          expiresAt }
      kind := .renewed
      binding := .renew command }

/-! ### Use -/

def authorizeUse (aggregate : LeaseAggregate) (command : UseLease) :
    LeaseUseOutcome :=
  let outcome : Except LeaseTransitionFailure
      (LeaseTransition × AuthorityInstant) := do
    let active ← orReject aggregate
      (requireActiveClaim aggregate command.claim)
    orReject aggregate
      (validateObservation aggregate.authorityTime command.observedAt)
    orReject aggregate (ensureBeforeExpiry active.expiresAt command.observedAt)
    orReject aggregate (validatePolicyIntersection aggregate command)
    let version ← orReject aggregate (nextActiveVersion aggregate.version)
    let lease ← transition aggregate
      { commandId := command.commandId
        version
        generation := aggregate.generation
        timeAdvance := .observe command.observedAt
        state := .active active
        kind := .used command.capabilityUse.actionId
          command.capabilityUse.actionDigest
        binding := .use (.fromCommand command) }
    return (lease, earlier active.expiresAt
      command.capabilityUse.scope.validity.expiresAt)
  match outcome with
  | .ok (lease, effectiveExpiresAt) =>
      .ok ⟨lease, command.capabilityUse, command.claim, effectiveExpiresAt⟩
  | .error failure => .error ⟨failure, command⟩

/-! ### Fencing -/

structure FencePlan where
  commandId : CommandId
  timeAdvance : AuthorityTimeAdvance
  reconciliationCause : Option FenceCause
  kind : LeaseTransitionKind
  binding : LeaseCommandBinding

def retire (before : LeaseAggregate) (version : RevisionNumber)
    (generation : Generation) (reason : RetirementReason) (plan : FencePlan) :
    LeaseTransitionOutcome :=
  transition before
    { commandId := plan.commandId
      version
      generation
      timeAdvance := plan.timeAdvance
      state := .retired reason
      kind := .retired reason
      binding := plan.binding }

def fenceVerified (before : LeaseAggregate) (active : ActiveLease)
    (plan : FencePlan) : LeaseTransitionOutcome :=
  match before.version.checkedNext with
  | .error _ => .error (rejection before .corruptState)
  | .ok version =>
      if version.get ≥ u64Max - 1 then
        retire before version before.generation .versionExhausted plan
      else
        match before.generation.checkedNext with
        | .error _ =>
            retire before version before.generation .generationExhausted plan
        | .ok generation =>
            transition before
              { commandId := plan.commandId
                version
                generation
                timeAdvance := plan.timeAdvance
                state :=
                  match plan.reconciliationCause with
                  | none => .available
                  | some cause =>
                      .reconciling
                        { correlation :=
                            ⟨before.scope, before.generation, active.holder⟩
                          cause }
                kind := plan.kind
                binding := plan.binding }

def fencingKindIsValid : LeaseTransitionKind → Bool
  | .releasedAvailable => true
  | .releasedReconciling => true
  | .expired => true
  | .holderLost => true
  | .clockDiscontinuity => true
  | .revoked => true
  | .retired _ => true
  | .minted => false
  | .acquired => false
  | .renewed => false
  | .used _ _ => false
  | .reconciledAvailable => false
  | .reconciledQuarantined => false

def fenceTimeAdvance (before : LeaseAggregate) (observedAt : AuthorityInstant) :
    Option FenceCause → Except LeaseError AuthorityTimeAdvance
  | some .clockDiscontinuity =>
      if observedAt.epoch.get = before.authorityTime.epoch.get then
        if observedAt.tickMillis ≥ before.authorityTime.greatestTickMillis then
          .error .noClockDiscontinuity
        else .ok .preserve
      else .ok (.reset observedAt)
  | _ =>
      match validateObservation before.authorityTime observedAt with
      | .ok _ => .ok (.observe observedAt)
      | .error error => .error error

def fence (before : LeaseAggregate) (commandId : CommandId)
    (observedAt : AuthorityInstant) (reconciliationCause : Option FenceCause)
    (kind : LeaseTransitionKind) (binding : LeaseCommandBinding) :
    LeaseTransitionOutcome :=
  match before.state with
  | .active active => do
      orReject before (ensure (fencingKindIsValid kind) .corruptState)
      let timeAdvance ← orReject before
        (fenceTimeAdvance before observedAt reconciliationCause)
      fenceVerified before active
        ⟨commandId, timeAdvance, reconciliationCause, kind, binding⟩
  | _ => .error (rejection before .corruptState)

def release (aggregate : LeaseAggregate) (command : ReleaseLease) :
    LeaseTransitionOutcome := do
  let _ ← orReject aggregate (requireActiveClaim aggregate command.claim)
  orReject aggregate
    (validateObservation aggregate.authorityTime command.observedAt)
  let directAvailable ←
    orReject aggregate (validateReleaseQuiescence command)
  fence aggregate command.commandId command.observedAt
    (if directAvailable then none else some .releasedWithoutQuiescence)
    (if directAvailable then .releasedAvailable else .releasedReconciling)
    (.release command)

def expire (aggregate : LeaseAggregate) (command : ExpireLease) :
    LeaseTransitionOutcome := do
  let active ← orReject aggregate (requireActive aggregate)
  orReject aggregate
    (validateObservation aggregate.authorityTime command.observedAt)
  orReject aggregate (ensure
    (decide (command.observedAt.epoch.get = active.expiresAt.epoch.get))
    .corruptState)
  orReject aggregate (ensure
    (!decide (command.observedAt.tickMillis < active.expiresAt.tickMillis))
    .leaseNotExpired)
  fence aggregate command.commandId command.observedAt (some .expired) .expired
    (.expire command)

def fenceHolderLoss (aggregate : LeaseAggregate) (command : FenceHolderLoss) :
    LeaseTransitionOutcome := do
  let _ ← orReject aggregate (requireActive aggregate)
  let _ ← orReject aggregate
    ((requireActiveClaim aggregate command.evidence.claim).mapError
      fun _ => .holderLossMismatch)
  orReject aggregate
    (validateObservation aggregate.authorityTime command.observedAt)
  fence aggregate command.commandId command.observedAt (some .holderLost)
    .holderLost (.holderLoss command)

def fenceClockDiscontinuity (aggregate : LeaseAggregate)
    (command : FenceClockDiscontinuity) : LeaseTransitionOutcome := do
  let _ ← orReject aggregate (requireActive aggregate)
  let observed := command.observedAt
  let sameEpoch :=
    decide (observed.epoch.get = aggregate.authorityTime.epoch.get)
  let discontinuous := !sameEpoch ||
    decide (observed.tickMillis < aggregate.authorityTime.greatestTickMillis)
  orReject aggregate (ensure discontinuous .noClockDiscontinuity)
  fence aggregate command.commandId observed (some .clockDiscontinuity)
    .clockDiscontinuity (.clockDiscontinuity command)

def revoke (aggregate : LeaseAggregate) (command : RevokeLease) :
    LeaseTransitionOutcome := do
  let _ ← orReject aggregate (requireActiveClaim aggregate command.claim)
  orReject aggregate
    (validateObservation aggregate.authorityTime command.observedAt)
  fence aggregate command.commandId command.observedAt (some .revoked) .revoked
    (.revoke command)

/-! ### Reconciliation -/

def reconciliationTimeAdvance (aggregate : LeaseAggregate) (cause : FenceCause)
    (observedAt : AuthorityInstant) : Except LeaseError AuthorityTimeAdvance :=
  if cause = .clockDiscontinuity ∧
      observedAt.epoch.get ≠ aggregate.authorityTime.epoch.get then
    .ok (.reset observedAt)
  else
    match validateObservation aggregate.authorityTime observedAt with
    | .ok _ => .ok (.observe observedAt)
    | .error error => .error error

/-- At the non-fencing version boundary a valid observation retires. -/
def reconciledState (reconciling : ReconciliationState)
    (version : RevisionNumber) (disposition : ReconciliationDisposition) :
    LeaseState × LeaseTransitionKind :=
  if version.get ≥ u64Max - 1 then
    (.retired .versionExhausted, .retired .versionExhausted)
  else
    match disposition with
    | .safeToAcquire _ _ => (.available, .reconciledAvailable)
    | disposition =>
        (.quarantined
          ⟨reconciling.correlation, reconciling.cause, disposition⟩,
          .reconciledQuarantined)

def reconcile (aggregate : LeaseAggregate) (command : ReconcileLease) :
    LeaseTransitionOutcome :=
  match aggregate.state with
  | .reconciling reconciling => do
      orReject aggregate (validateCorrelation reconciling.correlation
        command.observation.correlation)
      let timeAdvance ← orReject aggregate
        (reconciliationTimeAdvance aggregate reconciling.cause
          command.observedAt)
      let version ← orReject aggregate (nextNonFenceVersion aggregate.version)
      let (state, kind) := reconciledState reconciling version
        command.observation.disposition
      transition aggregate
        { commandId := command.commandId
          version
          generation := aggregate.generation
          timeAdvance
          state
          kind
          binding := .reconcile command }
  | _ =>
      .error (rejection aggregate (.illegalPhase .reconciling aggregate.phase))

/-! ### One command of any family -/

inductive LeaseCommand
  | acquire (command : AcquireLease)
  | renew (command : RenewLease)
  | use (command : UseLease)
  | release (command : ReleaseLease)
  | expire (command : ExpireLease)
  | holderLoss (command : FenceHolderLoss)
  | clockDiscontinuity (command : FenceClockDiscontinuity)
  | revoke (command : RevokeLease)
  | reconcile (command : ReconcileLease)

/-- The claim a command presents, for the families that present one. -/
def LeaseCommand.claim : LeaseCommand → Option LeaseClaim
  | .renew command => some command.claim
  | .use command => some command.claim
  | .release command => some command.claim
  | .holderLoss command => some command.evidence.claim
  | .revoke command => some command.claim
  | _ => none

/-- The reducer of the command's family; a use keeps its lease component. -/
def reduce (aggregate : LeaseAggregate) : LeaseCommand → LeaseTransitionOutcome
  | .acquire command => acquire aggregate command
  | .renew command => renew aggregate command
  | .use command =>
      match authorizeUse aggregate command with
      | .ok accepted => .ok accepted.lease
      | .error failure => .error failure.lease
  | .release command => release aggregate command
  | .expire command => expire aggregate command
  | .holderLoss command => fenceHolderLoss aggregate command
  | .clockDiscontinuity command => fenceClockDiscontinuity aggregate command
  | .revoke command => revoke aggregate command
  | .reconcile command => reconcile aggregate command

end Peritus.Lease.Transition
