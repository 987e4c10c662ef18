import Peritus.Lease.Fencing

/-!
Validity over whole runs.  Every accepted command leaves an aggregate that
passes `validate`, at a version its phase still has room above.
-/

namespace Peritus.Lease.Soundness

open Peritus.Types Policy Checked State Transition Edges Fencing

/-! ### Stored aggregates -/

/-- The greatest version a state is entered or left at. -/
def versionBound : LeaseState → Nat
  | .available => u64Max - 2
  | .active _ => u64Max - 1
  | .reconciling _ => u64Max - 2
  | .quarantined _ => u64Max - 2
  | .retired _ => u64Max

/-- A valid aggregate with the versions its phase still has to spend. -/
structure Sound (aggregate : LeaseAggregate) : Prop where
  valid : aggregate.validate = .ok ()
  headroom : aggregate.version.get ≤ versionBound aggregate.state

theorem activeStateIsValid_iff {aggregate : LeaseAggregate}
    {lease : ActiveLease} :
    aggregate.activeStateIsValid lease = true ↔
      lease.issuedAt.epoch.get = aggregate.authorityTime.epoch.get ∧
        lease.expiresAt.epoch.get = aggregate.authorityTime.epoch.get ∧
        lease.issuedAt.tickMillis < lease.expiresAt.tickMillis ∧
        lease.issuedAt.tickMillis ≤ aggregate.authorityTime.greatestTickMillis ∧
        aggregate.authorityTime.greatestTickMillis < lease.expiresAt.tickMillis ∧
        aggregate.version.get < u64Max := by
  simp only [LeaseAggregate.activeStateIsValid, Bool.and_eq_true,
    decide_eq_true_eq, ge_iff_le, and_assoc]

theorem generationsAreSuccessive_iff {fenced current : Generation} :
    LeaseAggregate.generationsAreSuccessive fenced current = true ↔
      fenced.get + 1 = current.get := by
  have hbound := current.bound
  unfold LeaseAggregate.generationsAreSuccessive
  split
  · simp only [Bool.false_eq_true, false_iff]
    omega
  · rw [decide_eq_true_eq]

theorem correlationIsValid_iff {aggregate : LeaseAggregate}
    {correlation : ReconciliationCorrelation} :
    aggregate.correlationIsValid correlation = true ↔
      correlation.scope = aggregate.scope ∧
        correlation.fencedGeneration.get + 1 = aggregate.generation.get := by
  simp only [LeaseAggregate.correlationIsValid, Bool.and_eq_true,
    decide_eq_true_eq, generationsAreSuccessive_iff]

section Validate

variable {aggregate : LeaseAggregate}

theorem validate_of_available (hstate : aggregate.state = .available) :
    aggregate.validate = .ok () := by
  simp [LeaseAggregate.validate, hstate]

theorem validate_of_retired {reason : RetirementReason}
    (hstate : aggregate.state = .retired reason) :
    aggregate.validate = .ok () := by
  simp [LeaseAggregate.validate, hstate]

theorem validate_of_active {lease : ActiveLease}
    (hstate : aggregate.state = .active lease) :
    aggregate.validate = .ok () ↔
      aggregate.activeStateIsValid lease = true := by
  simp [LeaseAggregate.validate, hstate]

theorem validate_of_reconciling {state : ReconciliationState}
    (hstate : aggregate.state = .reconciling state) :
    aggregate.validate = .ok () ↔
      aggregate.correlationIsValid state.correlation = true := by
  simp [LeaseAggregate.validate, hstate]

theorem validate_of_quarantined {state : QuarantinedState}
    (hstate : aggregate.state = .quarantined state) :
    aggregate.validate = .ok () ↔
      LeaseAggregate.ReconciliationDisposition.isUnsafe state.disposition =
          true ∧
        aggregate.correlationIsValid state.correlation = true := by
  simp [LeaseAggregate.validate, hstate]

end Validate

/-! ### Clocks -/

theorem validateObservation_eq_ok_iff {floor : AuthorityTimeState}
    {observedAt : AuthorityInstant} :
    validateObservation floor observedAt = .ok () ↔
      observedAt.epoch.get = floor.epoch.get ∧
        floor.greatestTickMillis ≤ observedAt.tickMillis := by
  unfold validateObservation
  split
  · simp [*]
  · split
    · simp only [reduceCtorEq, false_iff]
      omega
    · simp only [true_iff]
      omega

/-- An accepted observation moves the floor to the observed tick. -/
theorem advanceTime_observe_iff {floor time : AuthorityTimeState}
    {instant : AuthorityInstant} :
    advanceTime floor (.observe instant) = .ok time ↔
      validateObservation floor instant = .ok () ∧
        time = ⟨floor.epoch, instant.tickMillis⟩ := by
  rw [validateObservation_eq_ok_iff]
  unfold advanceTime AuthorityTimeState.observe
  by_cases hepoch : instant.epoch.get = floor.epoch.get
  · by_cases htick : instant.tickMillis < floor.greatestTickMillis
    · simp only [hepoch, htick, ne_eq, not_true_eq_false, if_true, if_false,
        reduceCtorEq, false_iff]
      omega
    · simp only [hepoch, htick, ne_eq, not_true_eq_false, if_false,
        Except.ok.injEq, true_and, not_lt.mp htick]
      exact eq_comm
  · simp [hepoch]

theorem leaseDeadline_eq_ok {observedAt expiresAt : AuthorityInstant}
    {duration : LeaseDuration}
    (h : leaseDeadline observedAt duration = .ok expiresAt) :
    expiresAt.epoch = observedAt.epoch ∧
      observedAt.tickMillis < expiresAt.tickMillis := by
  unfold leaseDeadline AuthorityInstant.checkedAdd at h
  split at h
  · rename_i deadline hdeadline
    cases h
    split at hdeadline
    · cases hdeadline
    · cases hdeadline
      have := duration.positive
      exact ⟨rfl, by dsimp only; omega⟩
  · cases h

theorem ensureBeforeExpiry_eq_ok_iff {expiresAt observedAt : AuthorityInstant} :
    ensureBeforeExpiry expiresAt observedAt = .ok () ↔
      observedAt.epoch.get = expiresAt.epoch.get ∧
        observedAt.tickMillis < expiresAt.tickMillis := by
  unfold ensureBeforeExpiry
  split
  · simp [*]
  · split
    · simp only [reduceCtorEq, false_iff]
      omega
    · simp only [true_iff]
      omega

/-! ### Versions -/

theorem nextNonFenceVersion_eq_ok_iff {version next : RevisionNumber} :
    nextNonFenceVersion version = .ok next ↔
      next.get = version.get + 1 ∧ version.get < u64Max - 1 := by
  unfold nextNonFenceVersion
  split
  · simp only [reduceCtorEq, false_iff]
    omega
  · rename_i hroom
    split
    · rename_i found hfound
      rw [PositiveNumber.checkedNext_eq_ok_iff] at hfound
      rw [Except.ok.injEq, PositiveNumber.ext_iff, hfound]
      omega
    · rename_i error herror
      unfold PositiveNumber.checkedNext at herror
      split at herror
      · cases herror
      · omega

theorem exists_nextNonFenceVersion {version : RevisionNumber}
    (hroom : version.get ≤ u64Max - 2) :
    ∃ next, nextNonFenceVersion version = .ok next := by
  have hlt : version.get < u64Max - 1 := lt_of_le_of_lt hroom (by decide)
  have hnext : version.get + 1 ≤ u64Max := by
    have : u64Max - 1 ≤ u64Max := Nat.sub_le _ _
    exact hlt.trans_le this
  exact ⟨⟨version.get + 1, Nat.succ_pos _, hnext⟩,
    nextNonFenceVersion_eq_ok_iff.mpr ⟨rfl, hlt⟩⟩

/-! ### The constructor of transitions -/

theorem transition_next {before : LeaseAggregate} {plan : TransitionPlan}
    {accepted : LeaseTransition} (h : transition before plan = .ok accepted) :
    ∃ time, advanceTime before.authorityTime plan.timeAdvance = .ok time ∧
      accepted.next =
        ⟨before.scope, plan.generation, plan.version, time, plan.state⟩ := by
  unfold transition at h
  split at h
  · cases h
  · split at h
    · cases h
    · simp only [transitionVerified, orReject_bind_eq_ok_iff,
        pure_eq_ok_iff] at h
      obtain ⟨-, -, time, htime, rfl⟩ := h
      exact ⟨time, htime, rfl⟩

/-- A plan for the next version of a valid aggregate can only fail at the
clock. -/
theorem transition_of_advanceTime {before : LeaseAggregate}
    {plan : TransitionPlan} {time : AuthorityTimeState}
    (hvalid : before.validate = .ok ())
    (hversion : plan.version.get = before.version.get + 1)
    (htime : advanceTime before.authorityTime plan.timeAdvance = .ok time) :
    ∃ accepted, transition before plan = .ok accepted := by
  unfold transition
  have hbound := plan.version.bound
  have hnext : before.version.checkedNext = .ok plan.version :=
    PositiveNumber.checkedNext_eq_ok_iff.mpr hversion
  rw [hnext]
  simp only [ne_eq, not_true_eq_false, if_false, transitionVerified, hvalid,
    htime]
  exact ⟨_, rfl⟩

/-! ### Accepted transitions keep an aggregate sound -/

theorem sound_of_transition {before : LeaseAggregate} {plan : TransitionPlan}
    {accepted : LeaseTransition} (h : transition before plan = .ok accepted)
    (hsound : ∀ time,
      advanceTime before.authorityTime plan.timeAdvance = .ok time →
      Sound ⟨before.scope, plan.generation, plan.version, time, plan.state⟩) :
    Sound accepted.next := by
  obtain ⟨time, htime, hnext⟩ := transition_next h
  rw [hnext]
  exact hsound time htime

/-- A lease that is active after the observation keeps the aggregate sound. -/
theorem sound_of_active {before : LeaseAggregate} {plan : TransitionPlan}
    {accepted : LeaseTransition} {lease : ActiveLease}
    {observedAt : AuthorityInstant} (h : transition before plan = .ok accepted)
    (hstate : plan.state = .active lease)
    (hadvance : plan.timeAdvance = .observe observedAt)
    (hversion : nextActiveVersion before.version = .ok plan.version)
    (hepoch : lease.issuedAt.epoch.get = before.authorityTime.epoch.get)
    (hexpires : lease.expiresAt.epoch.get = before.authorityTime.epoch.get)
    (hissued : lease.issuedAt.tickMillis ≤ observedAt.tickMillis)
    (hlater : observedAt.tickMillis < lease.expiresAt.tickMillis) :
    Sound accepted.next := by
  obtain ⟨hnext, hroom⟩ := nextNonFenceVersion_eq_ok_iff.mp hversion
  refine sound_of_transition h fun time htime => ?_
  rw [hadvance] at htime
  obtain ⟨-, rfl⟩ := advanceTime_observe_iff.mp htime
  refine ⟨(validate_of_active hstate).mpr ?_, ?_⟩
  · refine activeStateIsValid_iff.mpr
      ⟨hepoch, hexpires, hissued.trans_lt hlater, hissued, hlater, ?_⟩
    dsimp only
    omega
  · simp only [versionBound, hstate]
    omega

theorem sound_of_acquire {aggregate : LeaseAggregate} {command : AcquireLease}
    {accepted : LeaseTransition}
    (h : acquire aggregate command = .ok accepted) : Sound accepted.next := by
  simp only [acquire, orReject_bind_eq_ok_iff] at h
  obtain ⟨_, -, _, hobserved, expiresAt, hdeadline, version, hversion, h⟩ := h
  obtain ⟨hepoch, -⟩ := validateObservation_eq_ok_iff.mp hobserved
  obtain ⟨hexpires, hlater⟩ := leaseDeadline_eq_ok hdeadline
  exact sound_of_active h rfl rfl hversion hepoch (hexpires ▸ hepoch) le_rfl hlater

theorem sound_of_renew {aggregate : LeaseAggregate} {command : RenewLease}
    {accepted : LeaseTransition}
    (h : renew aggregate command = .ok accepted) : Sound accepted.next := by
  simp only [renew, orReject_bind_eq_ok_iff] at h
  obtain ⟨active, -, _, hobserved, -, -, expiresAt, hdeadline, -, -, _, -,
    version, hversion, h⟩ := h
  obtain ⟨hepoch, -⟩ := validateObservation_eq_ok_iff.mp hobserved
  obtain ⟨hexpires, hlater⟩ := leaseDeadline_eq_ok hdeadline
  exact sound_of_active h rfl rfl hversion hepoch (hexpires ▸ hepoch) le_rfl hlater

theorem sound_of_authorizeUse {aggregate : LeaseAggregate} {command : UseLease}
    {accepted : LeaseUseTransition} (hsound : Sound aggregate)
    (h : authorizeUse aggregate command = .ok accepted) :
    Sound accepted.lease.next := by
  unfold authorizeUse at h
  dsimp only at h
  split at h
  · rename_i lease effectiveExpiresAt houtcome
    cases h
    simp only [orReject_bind_eq_ok_iff,
      requireActiveClaim_eq_ok_iff] at houtcome
    obtain ⟨active, ⟨hactive, -⟩, _, hobserved, _, hbefore, -, -, version,
      hversion, houtcome⟩ := houtcome
    simp only [bind_eq_ok_iff, pure_eq_ok_iff, Prod.mk.injEq] at houtcome
    obtain ⟨found, h, rfl, -⟩ := houtcome
    obtain ⟨-, htick⟩ := validateObservation_eq_ok_iff.mp hobserved
    obtain ⟨-, hexpiry⟩ := ensureBeforeExpiry_eq_ok_iff.mp hbefore
    obtain ⟨hissued, hexpires, -, hfloor, -, -⟩ :=
      activeStateIsValid_iff.mp ((validate_of_active hactive).mp hsound.valid)
    exact sound_of_active h rfl rfl hversion hissued hexpires
      (hfloor.trans htick) hexpiry
  · cases h

/-- A fence that finds a version and a generation moves to a state for which
one more non-fencing version is left; otherwise it retires. -/
theorem sound_of_fence {before : LeaseAggregate} {commandId : CommandId}
    {observedAt : AuthorityInstant} {cause : Option FenceCause}
    {kind : LeaseTransitionKind} {binding : LeaseCommandBinding}
    {accepted : LeaseTransition}
    (h : fence before commandId observedAt cause kind binding = .ok accepted) :
    Sound accepted.next := by
  have hretired : ∀ {version : RevisionNumber} {reason : RetirementReason}
      {plan : FencePlan},
      retire before version before.generation reason plan = .ok accepted →
      Sound accepted.next := by
    intro version reason plan hretire
    refine sound_of_transition hretire fun time _ => ?_
    exact ⟨validate_of_retired rfl, version.bound⟩
  unfold fence at h
  split at h
  · rename_i active hactive
    simp only [orReject_bind_eq_ok_iff] at h
    obtain ⟨-, -, timeAdvance, -, h⟩ := h
    unfold fenceVerified at h
    split at h
    · cases h
    · rename_i version hversion
      split at h
      · exact hretired h
      · rename_i hroom
        split at h
        · exact hretired h
        · rename_i generation hgeneration
          have hsuccessor := PositiveNumber.checkedNext_eq_ok_iff.mp hgeneration
          refine sound_of_transition h fun time _ => ?_
          cases cause with
          | none =>
              refine ⟨validate_of_available rfl, ?_⟩
              simp only [versionBound]
              omega
          | some cause =>
              refine ⟨(validate_of_reconciling rfl).mpr ?_, ?_⟩
              · exact correlationIsValid_iff.mpr ⟨rfl, hsuccessor.symm⟩
              · simp only [versionBound]
                omega
  · cases h

theorem sound_of_reconcile {aggregate : LeaseAggregate}
    {command : ReconcileLease} {accepted : LeaseTransition}
    (hsound : Sound aggregate)
    (h : reconcile aggregate command = .ok accepted) : Sound accepted.next := by
  unfold reconcile at h
  split at h
  · rename_i reconciling hreconciling
    simp only [orReject_bind_eq_ok_iff] at h
    obtain ⟨-, -, timeAdvance, -, version, hversion, h⟩ := h
    obtain ⟨hnext, hroom⟩ := nextNonFenceVersion_eq_ok_iff.mp hversion
    have hcorrelation : aggregate.correlationIsValid reconciling.correlation =
        true := (validate_of_reconciling hreconciling).mp hsound.valid
    refine sound_of_transition h fun time _ => ?_
    unfold reconciledState
    split
    · exact ⟨validate_of_retired rfl, version.bound⟩
    · rename_i hleft
      split
      · refine ⟨validate_of_available rfl, ?_⟩
        simp only [versionBound]
        omega
      · rename_i hneither
        have hdisposition : LeaseAggregate.ReconciliationDisposition.isUnsafe
            command.observation.disposition = true := by
          cases hkind : command.observation.disposition with
          | safeToAcquire quiescence safety =>
              exact (hneither quiescence safety hkind).elim
          | dirty => rfl
          | indeterminate => rfl
        refine ⟨(validate_of_quarantined rfl).mpr
          ⟨hdisposition, correlationIsValid_iff.mpr ?_⟩, ?_⟩
        · exact correlationIsValid_iff.mp hcorrelation
        · simp only [versionBound]
          omega
  · cases h

theorem sound_of_reduce {aggregate : LeaseAggregate} {command : LeaseCommand}
    {accepted : LeaseTransition} (hsound : Sound aggregate)
    (h : reduce aggregate command = .ok accepted) : Sound accepted.next := by
  cases command with
  | acquire command => exact sound_of_acquire h
  | renew command => exact sound_of_renew h
  | use command =>
      simp only [reduce] at h
      split at h
      · rename_i found hfound
        cases h
        exact sound_of_authorizeUse hsound hfound
      · cases h
  | release command =>
      simp only [reduce, release, orReject_bind_eq_ok_iff] at h
      obtain ⟨-, -, -, -, directAvailable, -, h⟩ := h
      exact sound_of_fence h
  | expire command =>
      simp only [reduce, expire, orReject_bind_eq_ok_iff] at h
      obtain ⟨active, -, -, -, -, -, -, -, h⟩ := h
      exact sound_of_fence h
  | holderLoss command =>
      simp only [reduce, fenceHolderLoss, orReject_bind_eq_ok_iff] at h
      obtain ⟨-, -, -, -, -, -, h⟩ := h
      exact sound_of_fence h
  | clockDiscontinuity command =>
      simp only [reduce, fenceClockDiscontinuity, orReject_bind_eq_ok_iff] at h
      obtain ⟨-, -, -, -, h⟩ := h
      exact sound_of_fence h
  | revoke command =>
      simp only [reduce, revoke, orReject_bind_eq_ok_iff] at h
      obtain ⟨-, -, -, -, h⟩ := h
      exact sound_of_fence h
  | reconcile command => exact sound_of_reconcile hsound h

theorem sound_of_mint {command : MintLease} {minted : LeaseTransition}
    (h : mint command = .ok minted) : Sound minted.next := by
  cases h
  refine ⟨validate_of_available rfl, ?_⟩
  show 1 ≤ u64Max - 2
  decide

theorem sound_runCommands {aggregate : LeaseAggregate}
    (hsound : Sound aggregate) (commands : List LeaseCommand) :
    Sound (runCommands aggregate commands) := by
  induction commands generalizing aggregate with
  | nil => exact hsound
  | cons command commands ih =>
      apply ih
      rcases after_eq_or_accepted aggregate command with hsame | ⟨_, h, hnext⟩
      · rw [hsame]
        exact hsound
      · rw [hnext]
        exact sound_of_reduce hsound h

end Peritus.Lease.Soundness
