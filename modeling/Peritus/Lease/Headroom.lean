import Peritus.Lease.Soundness

/-!
The version space of a lease.  An acquisition leaves room for the fence and the
reconciliation that may have to follow it, however often the lease is renewed
in between, so none of the three is ever refused for want of a version.
-/

namespace Peritus.Lease.Headroom

open Peritus.Types Policy Checked State Transition Edges Fencing Soundness

/-! ### Refusals -/

/-- The errors of a counter or an aggregate, as opposed to those of the
command, its evidence and its clock. -/
def isInternal : LeaseError → Bool
  | .versionExhausted => true
  | .corruptState => true
  | _ => false

/-- A computation that fails only for what its caller passed in. -/
def External {α : Type} : Except LeaseError α → Prop :=
  Satisfies (fun _ => True) fun error => isInternal error = false

def Spared {α : Type} : Except LeaseTransitionFailure α → Prop :=
  Satisfies (fun _ => True) fun failure => isInternal failure.error = false

theorem spared_bind {α β : Type} {aggregate : LeaseAggregate}
    {check : Except LeaseError α}
    {rest : α → Except LeaseTransitionFailure β} (hcheck : External check)
    (hrest : ∀ value, check = .ok value → Spared (rest value)) :
    Spared (orReject aggregate check >>= rest) := by
  cases check with
  | error error => exact hcheck
  | ok value => exact hrest value rfl

theorem external_mapPolicyTime (error : PolicyErrorKind) :
    isInternal (mapPolicyTime error) = false := by
  cases error <;> rfl

theorem external_requirePhase (aggregate : LeaseAggregate)
    (expected : LeasePhase) : External (requirePhase aggregate expected) :=
  ensure_satisfies rfl

theorem external_validateObservation (floor : AuthorityTimeState)
    (observedAt : AuthorityInstant) :
    External (validateObservation floor observedAt) := by
  unfold validateObservation
  split
  · rfl
  · split
    · rfl
    · trivial

theorem external_leaseDeadline (observedAt : AuthorityInstant)
    (duration : LeaseDuration) :
    External (leaseDeadline observedAt duration) := by
  unfold leaseDeadline
  split
  · trivial
  · exact external_mapPolicyTime _

theorem external_requireActive (aggregate : LeaseAggregate) :
    External (requireActive aggregate) := by
  unfold requireActive
  split
  · trivial
  · rfl

theorem external_validateClaimIdentity (expected actual : LeaseClaim) :
    External (validateClaimIdentity expected actual) := by
  unfold validateClaimIdentity
  iterate 6
    split
    · rfl
  trivial

theorem external_requireActiveClaim (aggregate : LeaseAggregate)
    (claim : LeaseClaim) : External (requireActiveClaim aggregate claim) := by
  refine Satisfies.bind (external_requireActive aggregate) fun active _ _ => ?_
  exact (external_validateClaimIdentity _ claim).bind fun _ _ _ => trivial

theorem external_validateReleaseQuiescence (command : ReleaseLease) :
    External (validateReleaseQuiescence command) := by
  unfold validateReleaseQuiescence
  split
  · trivial
  · split
    · trivial
    · rfl

theorem external_validateCorrelation
    (expected actual : ReconciliationCorrelation) :
    External (validateCorrelation expected actual) := by
  unfold validateCorrelation
  iterate 5
    split
    · rfl
  trivial

theorem external_fenceTimeAdvance (before : LeaseAggregate)
    (observedAt : AuthorityInstant) (cause : Option FenceCause) :
    External (fenceTimeAdvance before observedAt cause) := by
  unfold fenceTimeAdvance
  split
  · split
    · split
      · rfl
      · trivial
    · trivial
  · split
    · trivial
    · rename_i error herror
      have h := external_validateObservation before.authorityTime observedAt
      rw [herror] at h
      exact h

theorem external_reconciliationTimeAdvance (aggregate : LeaseAggregate)
    (cause : FenceCause) (observedAt : AuthorityInstant) :
    External (reconciliationTimeAdvance aggregate cause observedAt) := by
  unfold reconciliationTimeAdvance
  split
  · trivial
  · split
    · trivial
    · rename_i error herror
      have h := external_validateObservation aggregate.authorityTime observedAt
      rw [herror] at h
      exact h

theorem external_advanceTime (floor : AuthorityTimeState)
    (advance : AuthorityTimeAdvance) : External (advanceTime floor advance) := by
  unfold advanceTime
  split
  · split
    · trivial
    · exact external_mapPolicyTime _
  · trivial
  · trivial

theorem spared_transition {before : LeaseAggregate} {plan : TransitionPlan}
    (hsound : Sound before)
    (hversion : plan.version.get = before.version.get + 1) :
    Spared (transition before plan) := by
  have hnext : before.version.checkedNext = .ok plan.version :=
    PositiveNumber.checkedNext_eq_ok_iff.mpr hversion
  unfold transition
  rw [hnext]
  simp only [ne_eq, not_true_eq_false, if_false]
  unfold transitionVerified
  rw [hsound.valid]
  refine spared_bind trivial fun _ _ => ?_
  exact spared_bind (external_advanceTime _ _) fun _ _ => trivial

/-- A sound aggregate that is active always has a version left for its
fence. -/
theorem spared_fence {before : LeaseAggregate} {active : ActiveLease}
    {commandId : CommandId} {observedAt : AuthorityInstant}
    {cause : Option FenceCause} {kind : LeaseTransitionKind}
    {binding : LeaseCommandBinding} (hsound : Sound before)
    (hactive : before.state = .active active)
    (hkind : fencingKindIsValid kind = true) :
    Spared (fence before commandId observedAt cause kind binding) := by
  have hroom := hsound.headroom
  rw [hactive] at hroom
  simp only [versionBound] at hroom
  have hpositive := before.version.positive
  unfold fence
  rw [hactive]
  simp only [hkind, ensure_true]
  refine spared_bind trivial fun _ _ => ?_
  refine spared_bind (external_fenceTimeAdvance _ _ _) fun timeAdvance _ => ?_
  unfold fenceVerified
  split
  · rename_i error herror
    unfold PositiveNumber.checkedNext at herror
    split at herror
    · cases herror
    · omega
  · rename_i version hversion
    have hnext := PositiveNumber.checkedNext_eq_ok_iff.mp hversion
    split
    · exact spared_transition hsound hnext
    · split
      · exact spared_transition hsound hnext
      · exact spared_transition hsound hnext

theorem external_nextNonFenceVersion {version : RevisionNumber}
    (hroom : version.get ≤ u64Max - 2) :
    External (nextNonFenceVersion version) := by
  obtain ⟨next, hnext⟩ := exists_nextNonFenceVersion hroom
  rw [hnext]
  trivial

theorem spared_acquire {aggregate : LeaseAggregate} (hsound : Sound aggregate)
    (command : AcquireLease) : Spared (acquire aggregate command) := by
  refine spared_bind (external_requirePhase _ _) fun _ hphase => ?_
  refine spared_bind (external_validateObservation _ _) fun _ _ => ?_
  refine spared_bind (external_leaseDeadline _ _) fun expiresAt _ => ?_
  have havailable : aggregate.state = .available := by
    simp only [requirePhase, ensure_eq_ok_iff, decide_eq_true_eq] at hphase
    cases hstate : aggregate.state <;>
      simp [LeaseAggregate.phase, hstate] at hphase ⊢
  have hroom := hsound.headroom
  rw [havailable] at hroom
  refine spared_bind (external_nextNonFenceVersion hroom) fun version h => ?_
  exact spared_transition hsound (nextNonFenceVersion_eq_ok_iff.mp h).1

theorem spared_release {aggregate : LeaseAggregate} (hsound : Sound aggregate)
    (command : ReleaseLease) : Spared (release aggregate command) := by
  refine spared_bind (external_requireActiveClaim _ _) fun active hclaim => ?_
  refine spared_bind (external_validateObservation _ _) fun _ _ => ?_
  refine spared_bind (external_validateReleaseQuiescence _)
    fun directAvailable _ => ?_
  apply spared_fence hsound (requireActiveClaim_eq_ok_iff.mp hclaim).1
  cases directAvailable <;> rfl

/-- The deadline of a sound lease lies in the epoch of the clock, so the epoch
check of expiry cannot report corruption. -/
theorem spared_expire {aggregate : LeaseAggregate} (hsound : Sound aggregate)
    (command : ExpireLease) : Spared (expire aggregate command) := by
  refine spared_bind (external_requireActive _) fun active hactive => ?_
  refine spared_bind (external_validateObservation _ _) fun _ hobserved => ?_
  have hstate := requireActive_eq_ok_iff.mp hactive
  have hvalid := activeStateIsValid_iff.mp
    ((validate_of_active hstate).mp hsound.valid)
  have hepoch : command.observedAt.epoch.get = active.expiresAt.epoch.get :=
    (validateObservation_eq_ok_iff.mp hobserved).1.trans hvalid.2.1.symm
  simp only [hepoch, decide_true, ensure_true]
  refine spared_bind trivial fun _ _ => ?_
  refine spared_bind (ensure_satisfies rfl) fun _ _ => ?_
  exact spared_fence hsound hstate rfl

theorem spared_fenceHolderLoss {aggregate : LeaseAggregate}
    (hsound : Sound aggregate) (command : FenceHolderLoss) :
    Spared (fenceHolderLoss aggregate command) := by
  refine spared_bind (external_requireActive _) fun active hactive => ?_
  refine spared_bind ?_ fun _ _ => ?_
  · cases requireActiveClaim aggregate command.evidence.claim with
    | error error => rfl
    | ok found => trivial
  refine spared_bind (external_validateObservation _ _) fun _ _ => ?_
  exact spared_fence hsound (requireActive_eq_ok_iff.mp hactive) rfl

theorem spared_fenceClockDiscontinuity {aggregate : LeaseAggregate}
    (hsound : Sound aggregate) (command : FenceClockDiscontinuity) :
    Spared (fenceClockDiscontinuity aggregate command) := by
  refine spared_bind (external_requireActive _) fun active hactive => ?_
  refine spared_bind (ensure_satisfies rfl) fun _ _ => ?_
  exact spared_fence hsound (requireActive_eq_ok_iff.mp hactive) rfl

theorem spared_revoke {aggregate : LeaseAggregate} (hsound : Sound aggregate)
    (command : RevokeLease) : Spared (revoke aggregate command) := by
  refine spared_bind (external_requireActiveClaim _ _) fun active hclaim => ?_
  refine spared_bind (external_validateObservation _ _) fun _ _ => ?_
  exact spared_fence hsound (requireActiveClaim_eq_ok_iff.mp hclaim).1 rfl

theorem spared_reconcile {aggregate : LeaseAggregate}
    (hsound : Sound aggregate) (command : ReconcileLease) :
    Spared (reconcile aggregate command) := by
  unfold reconcile
  split
  · rename_i reconciling hstate
    have hroom := hsound.headroom
    rw [hstate] at hroom
    refine spared_bind (external_validateCorrelation _ _) fun _ _ => ?_
    refine spared_bind (external_reconciliationTimeAdvance _ _ _)
      fun timeAdvance _ => ?_
    refine spared_bind (external_nextNonFenceVersion hroom) fun version h => ?_
    exact spared_transition hsound (nextNonFenceVersion_eq_ok_iff.mp h).1
  · rfl

/-- Renewal and use extend a claim; they alone may find no version left. -/
def extendsClaim : LeaseCommand → Bool
  | .renew _ => true
  | .use _ => true
  | _ => false

theorem spared_reduce {aggregate : LeaseAggregate} (hsound : Sound aggregate)
    {command : LeaseCommand} (hcommand : extendsClaim command = false) :
    Spared (reduce aggregate command) := by
  cases command with
  | acquire command => exact spared_acquire hsound command
  | renew command => cases hcommand
  | use command => cases hcommand
  | release command => exact spared_release hsound command
  | expire command => exact spared_expire hsound command
  | holderLoss command => exact spared_fenceHolderLoss hsound command
  | clockDiscontinuity command =>
      exact spared_fenceClockDiscontinuity hsound command
  | revoke command => exact spared_revoke hsound command
  | reconcile command => exact spared_reconcile hsound command

/-! ### Commands that must go through -/

/-- The phase, evidence and clock a command asks for.  Renewal and use may be
refused for their versions and are left out. -/
def Ready (aggregate : LeaseAggregate) : LeaseCommand → Prop
  | .acquire command =>
      aggregate.state = .available ∧
        validateObservation aggregate.authorityTime command.observedAt =
          .ok () ∧
        ∃ deadline,
          leaseDeadline command.observedAt command.duration = .ok deadline
  | .renew _ => False
  | .use _ => False
  | .release command =>
      aggregate.active = some command.claim ∧
        validateObservation aggregate.authorityTime command.observedAt =
          .ok () ∧
        ∀ evidence, command.quiescence = some evidence →
          command.claim = evidence.claim
  | .expire command =>
      validateObservation aggregate.authorityTime command.observedAt =
          .ok () ∧
        ∃ lease, aggregate.state = .active lease ∧
          lease.expiresAt.tickMillis ≤ command.observedAt.tickMillis
  | .holderLoss command =>
      aggregate.active = some command.evidence.claim ∧
        validateObservation aggregate.authorityTime command.observedAt = .ok ()
  | .clockDiscontinuity command =>
      (∃ lease, aggregate.state = .active lease) ∧
        validateObservation aggregate.authorityTime command.observedAt ≠ .ok ()
  | .revoke command =>
      aggregate.active = some command.claim ∧
        validateObservation aggregate.authorityTime command.observedAt = .ok ()
  | .reconcile command =>
      ∃ state, aggregate.state = .reconciling state ∧
        command.observation.correlation = state.correlation ∧
        (validateObservation aggregate.authorityTime command.observedAt =
            .ok () ∨
          state.cause = .clockDiscontinuity ∧
            command.observedAt.epoch.get ≠ aggregate.authorityTime.epoch.get)

/-- Where a command leads unless it retires the aggregate. -/
def target : LeaseCommand → LeasePhase
  | .acquire _ => .active
  | .renew _ => .active
  | .use _ => .active
  | .release command =>
      if command.quiescence.isSome then .available else .reconciling
  | .expire _ => .reconciling
  | .holderLoss _ => .reconciling
  | .clockDiscontinuity _ => .reconciling
  | .revoke _ => .reconciling
  | .reconcile command =>
      match command.observation.disposition with
      | .safeToAcquire _ _ => .available
      | _ => .quarantined

/-- The command is accepted and leads to the phase, or retires. -/
def Reaches (phase : LeasePhase) (outcome : LeaseTransitionOutcome) : Prop :=
  ∃ accepted, outcome = .ok accepted ∧
    (accepted.next.phase = phase ∨ accepted.next.phase = .retired)

theorem reaches_bind {α : Type} {aggregate : LeaseAggregate}
    {check : Except LeaseError α} {value : α} {phase : LeasePhase}
    {rest : α → LeaseTransitionOutcome} (hcheck : check = .ok value)
    (hrest : Reaches phase (rest value)) :
    Reaches phase (orReject aggregate check >>= rest) := by
  rw [hcheck]
  exact hrest

theorem reaches_ensure {aggregate : LeaseAggregate} {condition : Bool}
    {error : LeaseError} {phase : LeasePhase}
    {rest : Unit → LeaseTransitionOutcome} (hcondition : condition = true)
    (hrest : Reaches phase (rest ())) :
    Reaches phase (orReject aggregate (ensure condition error) >>= rest) := by
  rw [hcondition]
  exact hrest

theorem reaches_transition {before : LeaseAggregate} {plan : TransitionPlan}
    {time : AuthorityTimeState} {phase : LeasePhase} (hsound : Sound before)
    (hversion : plan.version.get = before.version.get + 1)
    (htime : advanceTime before.authorityTime plan.timeAdvance = .ok time)
    (hphase : ∀ next : LeaseAggregate, next.state = plan.state →
      next.phase = phase ∨ next.phase = .retired) :
    Reaches phase (transition before plan) := by
  obtain ⟨accepted, h⟩ :=
    transition_of_advanceTime hsound.valid hversion htime
  obtain ⟨-, -, -, hstate, -, -⟩ := transition_eq_ok h
  exact ⟨accepted, h, hphase _ hstate⟩

theorem reaches_fence {before : LeaseAggregate} {active : ActiveLease}
    {commandId : CommandId} {observedAt : AuthorityInstant}
    {cause : Option FenceCause} {kind : LeaseTransitionKind}
    {binding : LeaseCommandBinding} {timeAdvance : AuthorityTimeAdvance}
    {time : AuthorityTimeState} {phase : LeasePhase} (hsound : Sound before)
    (hactive : before.state = .active active)
    (hkind : fencingKindIsValid kind = true)
    (hadvance : fenceTimeAdvance before observedAt cause = .ok timeAdvance)
    (htime : advanceTime before.authorityTime timeAdvance = .ok time)
    (hphase : phase = if cause.isSome then .reconciling else .available) :
    Reaches phase
      (fence before commandId observedAt cause kind binding) := by
  have hroom := hsound.headroom
  rw [hactive] at hroom
  simp only [versionBound] at hroom
  have hpositive := before.version.positive
  have hretires : ∀ {version : RevisionNumber} {reason : RetirementReason},
      version.get = before.version.get + 1 →
      Reaches phase
        (retire before version before.generation reason
          ⟨commandId, timeAdvance, cause, kind, binding⟩) := by
    intro version reason hversion
    refine reaches_transition hsound hversion htime fun next hstate => .inr ?_
    simp only [LeaseAggregate.phase, hstate]
  unfold fence
  rw [hactive]
  simp only [hkind, ensure_true]
  refine reaches_bind rfl (reaches_bind hadvance ?_)
  unfold fenceVerified
  split
  · rename_i error herror
    unfold PositiveNumber.checkedNext at herror
    split at herror
    · cases herror
    · omega
  · rename_i version hversion
    have hnext := PositiveNumber.checkedNext_eq_ok_iff.mp hversion
    split
    · exact hretires hnext
    · split
      · exact hretires hnext
      · refine reaches_transition hsound hnext htime fun next hstate => .inl ?_
        rw [hphase]
        cases cause with
        | none => simp [LeaseAggregate.phase, hstate]
        | some cause => simp [LeaseAggregate.phase, hstate]

/-- A fence whose cause is not the clock itself takes the clock's checks. -/
theorem reaches_fence_observed {before : LeaseAggregate} {active : ActiveLease}
    {commandId : CommandId} {observedAt : AuthorityInstant}
    {cause : Option FenceCause} {kind : LeaseTransitionKind}
    {binding : LeaseCommandBinding} {phase : LeasePhase}
    (hsound : Sound before) (hactive : before.state = .active active)
    (hkind : fencingKindIsValid kind = true)
    (hcause : cause ≠ some .clockDiscontinuity)
    (hobserved : validateObservation before.authorityTime observedAt = .ok ())
    (hphase : phase = if cause.isSome then .reconciling else .available) :
    Reaches phase
      (fence before commandId observedAt cause kind binding) := by
  have hadvance : fenceTimeAdvance before observedAt cause =
      .ok (.observe observedAt) := by
    unfold fenceTimeAdvance
    split
    · exact absurd rfl hcause
    · rw [hobserved]
  exact reaches_fence hsound hactive hkind hadvance
    (advanceTime_observe_iff.mpr ⟨hobserved, rfl⟩) hphase

theorem exists_active {aggregate : LeaseAggregate} {claim : LeaseClaim}
    (hclaim : aggregate.active = some claim) :
    ∃ lease, aggregate.state = .active lease := by
  unfold LeaseAggregate.active at hclaim
  split at hclaim
  · rename_i lease hstate
    exact ⟨lease, hstate⟩
  · cases hclaim

/-- A command that is ready is accepted or retires the aggregate. -/
theorem reaches_of_ready {aggregate : LeaseAggregate} (hsound : Sound aggregate)
    {command : LeaseCommand} (hready : Ready aggregate command) :
    Reaches (target command) (reduce aggregate command) := by
  cases command with
  | acquire command =>
      obtain ⟨hstate, hobserved, deadline, hdeadline⟩ := hready
      have hroom := hsound.headroom
      rw [hstate] at hroom
      obtain ⟨version, hversion⟩ := exists_nextNonFenceVersion hroom
      have hphase : requirePhase aggregate .available = .ok () := by
        simp [requirePhase, LeaseAggregate.phase, hstate]
      refine reaches_bind hphase (reaches_bind hobserved ?_)
      refine reaches_bind hdeadline (reaches_bind hversion ?_)
      refine reaches_transition hsound
        (nextNonFenceVersion_eq_ok_iff.mp hversion).1
        (advanceTime_observe_iff.mpr ⟨hobserved, rfl⟩)
        fun next hnext => .inl ?_
      simp only [LeaseAggregate.phase, hnext, target]
  | renew command => exact hready.elim
  | use command => exact hready.elim
  | release command =>
      obtain ⟨hclaim, hobserved, hquiescence⟩ := hready
      obtain ⟨lease, hactive⟩ := exists_active hclaim
      have hquiescent : validateReleaseQuiescence command =
          .ok command.quiescence.isSome := by
        unfold validateReleaseQuiescence
        cases hevidence : command.quiescence with
        | none => rfl
        | some evidence =>
            have hsame := validateClaimIdentity_eq_ok_iff.mpr
              (hquiescence evidence hevidence)
            simp only [hsame, Option.isSome_some]
      refine reaches_bind
        (requireActiveClaim_eq_ok_iff.mpr ⟨hactive, hclaim⟩) ?_
      refine reaches_bind hobserved (reaches_bind hquiescent ?_)
      cases hevidence : command.quiescence with
      | none =>
          exact reaches_fence_observed hsound hactive rfl (by simp) hobserved
            (by simp [target, hevidence])
      | some evidence =>
          exact reaches_fence_observed hsound hactive rfl (by simp) hobserved
            (by simp [target, hevidence])
  | expire command =>
      obtain ⟨hobserved, lease, hactive, hexpired⟩ := hready
      have hvalid := activeStateIsValid_iff.mp
        ((validate_of_active hactive).mp hsound.valid)
      have hepoch : command.observedAt.epoch.get = lease.expiresAt.epoch.get :=
        (validateObservation_eq_ok_iff.mp hobserved).1.trans hvalid.2.1.symm
      refine reaches_bind (requireActive_eq_ok_iff.mpr hactive) ?_
      refine reaches_bind hobserved (reaches_ensure (decide_eq_true hepoch) ?_)
      refine reaches_ensure (by simp [hexpired]) ?_
      exact reaches_fence_observed hsound hactive rfl (by simp) hobserved rfl
  | holderLoss command =>
      obtain ⟨hclaim, hobserved⟩ := hready
      obtain ⟨lease, hactive⟩ := exists_active hclaim
      have hmatching := requireActiveClaim_eq_ok_iff.mpr ⟨hactive, hclaim⟩
      refine reaches_bind (requireActive_eq_ok_iff.mpr hactive) ?_
      refine reaches_bind (mapError_eq_ok_iff.mpr hmatching) ?_
      refine reaches_bind hobserved ?_
      exact reaches_fence_observed hsound hactive rfl (by simp) hobserved rfl
  | clockDiscontinuity command =>
      obtain ⟨⟨lease, hactive⟩, hbroken⟩ := hready
      rw [ne_eq, validateObservation_eq_ok_iff, not_and_or, not_le] at hbroken
      refine reaches_bind (requireActive_eq_ok_iff.mpr hactive) ?_
      refine reaches_ensure ?_ ?_
      · rcases hbroken with hepoch | htick
        · simp [hepoch]
        · simp [htick]
      by_cases hepoch : command.observedAt.epoch.get =
          aggregate.authorityTime.epoch.get
      · have htick := hbroken.resolve_left (absurd hepoch)
        have hpreserve : fenceTimeAdvance aggregate command.observedAt
            (some .clockDiscontinuity) = .ok .preserve := by
          simp only [fenceTimeAdvance, hepoch, if_true]
          rw [if_neg (by omega)]
        exact reaches_fence hsound hactive rfl hpreserve rfl rfl
      · have hreset : fenceTimeAdvance aggregate command.observedAt
            (some .clockDiscontinuity) = .ok (.reset command.observedAt) := by
          simp only [fenceTimeAdvance, hepoch, if_false]
        exact reaches_fence hsound hactive rfl hreset rfl rfl
  | revoke command =>
      obtain ⟨hclaim, hobserved⟩ := hready
      obtain ⟨lease, hactive⟩ := exists_active hclaim
      refine reaches_bind
        (requireActiveClaim_eq_ok_iff.mpr ⟨hactive, hclaim⟩) ?_
      refine reaches_bind hobserved ?_
      exact reaches_fence_observed hsound hactive rfl (by simp) hobserved rfl
  | reconcile command =>
      obtain ⟨state, hstate, hcorrelation, htime⟩ := hready
      have hroom := hsound.headroom
      rw [hstate] at hroom
      obtain ⟨version, hversion⟩ := exists_nextNonFenceVersion hroom
      have hmatches : validateCorrelation state.correlation
          command.observation.correlation = .ok () := by
        simp [validateCorrelation, hcorrelation]
      have hadvance : ∃ timeAdvance time,
          reconciliationTimeAdvance aggregate state.cause command.observedAt =
              .ok timeAdvance ∧
            advanceTime aggregate.authorityTime timeAdvance = .ok time := by
        unfold reconciliationTimeAdvance
        split
        · exact ⟨_, _, rfl, rfl⟩
        · rename_i hordinary
          have hobserved := htime.resolve_right hordinary
          rw [hobserved]
          exact ⟨_, _, rfl, advanceTime_observe_iff.mpr ⟨hobserved, rfl⟩⟩
      obtain ⟨timeAdvance, time, hadvance, htime⟩ := hadvance
      simp only [reduce, reconcile]
      rw [hstate]
      refine reaches_bind hmatches (reaches_bind hadvance ?_)
      refine reaches_bind hversion ?_
      refine reaches_transition hsound
        (nextNonFenceVersion_eq_ok_iff.mp hversion).1 htime
        fun next hnext => ?_
      unfold reconciledState at hnext
      split at hnext
      · right
        simp only [LeaseAggregate.phase, hnext]
      · left
        simp only [target]
        cases hdisposition : command.observation.disposition <;>
          rw [hdisposition] at hnext <;>
          simp only [LeaseAggregate.phase, hnext]

/-- From mint, after any commands in any order: the aggregate is valid; no
command but a renewal or a use is refused for its versions or for a corrupt
state, and one whose phase, evidence and clock are as it asks is accepted, if
only to retire the aggregate; and a refusal hands the aggregate back. -/
theorem lease_version_space (command : MintLease) (minted : LeaseTransition)
    (hmint : mint command = .ok minted) (commands : List LeaseCommand) :
    (runCommands minted.next commands).validate = .ok () ∧
      (∀ next failure, extendsClaim next = false →
        reduce (runCommands minted.next commands) next = .error failure →
        failure.error ≠ .versionExhausted ∧ failure.error ≠ .corruptState) ∧
      (∀ next, Ready (runCommands minted.next commands) next →
        Reaches (target next)
          (reduce (runCommands minted.next commands) next)) ∧
      ∀ next failure,
        reduce (runCommands minted.next commands) next = .error failure →
        failure.aggregate = runCommands minted.next commands := by
  have hsound := sound_runCommands (sound_of_mint hmint) commands
  refine ⟨hsound.valid, ?_, fun _ => reaches_of_ready hsound,
    fun _ _ => reduce_error⟩
  intro next failure hnext herror
  have hspared := (spared_reduce hsound hnext).of_eq_error herror
  refine ⟨?_, ?_⟩
  · intro hexhausted
    rw [hexhausted] at hspared
    cases hspared
  · intro hcorrupt
    rw [hcorrupt] at hspared
    cases hspared

/-- The clock epoch ends after the acquisition, and the fence is accepted. -/
theorem lease_version_space_of_mint :
    Reaches .reconciling (reduce (runCommands smallMinted [smallAcquire])
      (.clockDiscontinuity ⟨.ofNat 8, smallInstant 0⟩)) :=
  (lease_version_space smallMint _ rfl _).2.2.1 _ ⟨⟨_, rfl⟩, fun h =>
    absurd (validateObservation_eq_ok_iff.mp h).2 (by decide)⟩

end Peritus.Lease.Headroom
