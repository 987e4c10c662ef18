import Peritus.Lease.Transition

/-!
What an accepted lease transition can do to the aggregate, said once: the edges
of the lease life cycle.  Every property of runs is read off an edge, never off
a reducer.
-/

namespace Peritus.Lease.Edges

open Peritus.Types Policy Checked State Transition

/-- The life cycle of a lease: how generation, holder and claim version may
move along one accepted transition of the given kind. -/
inductive LeaseEdge (before : LeaseAggregate) :
    LeaseTransitionKind → LeaseAggregate → Prop
  | acquired {next : LeaseAggregate} {lease : ActiveLease} :
      before.state = .available →
      next.state = .active lease →
      lease.claimVersion = PositiveNumber.first →
      next.generation = before.generation →
      LeaseEdge before .acquired next
  | renewed {next : LeaseAggregate} {lease lease' : ActiveLease} :
      before.state = .active lease →
      next.state = .active lease' →
      lease'.claimVersion.get = lease.claimVersion.get + 1 →
      next.generation = before.generation →
      LeaseEdge before .renewed next
  | used {next : LeaseAggregate} {lease : ActiveLease} {action : ActionId}
      {digest : Sha256Digest} :
      before.state = .active lease →
      next.state = .active lease →
      next.generation = before.generation →
      LeaseEdge before (.used action digest) next
  | fenced {next : LeaseAggregate} {lease : ActiveLease}
      {kind : LeaseTransitionKind} :
      before.state = .active lease →
      (next.state = .available ∨ ∃ state, next.state = .reconciling state) →
      fencingKindIsValid kind = true →
      (∀ reason, kind ≠ .retired reason) →
      next.generation.get = before.generation.get + 1 →
      LeaseEdge before kind next
  | retired {next : LeaseAggregate} {reason : RetirementReason} :
      ((∃ lease, before.state = .active lease) ∨
        ∃ state, before.state = .reconciling state) →
      next.state = .retired reason →
      next.generation = before.generation →
      LeaseEdge before (.retired reason) next
  | reconciled {next : LeaseAggregate} {state : ReconciliationState}
      {kind : LeaseTransitionKind} :
      before.state = .reconciling state →
      (next.state = .available ∧ kind = .reconciledAvailable ∨
        (∃ quarantined, next.state = .quarantined quarantined) ∧
          kind = .reconciledQuarantined) →
      next.generation = before.generation →
      LeaseEdge before kind next

/-! ### The shared checks, read back -/

theorem orReject_eq_ok_iff {α : Type} {aggregate : LeaseAggregate}
    {check : Except LeaseError α} {value : α} :
    orReject aggregate check = .ok value ↔ check = .ok value := by
  cases check with
  | error error => exact ⟨fun h => (by cases h), fun h => (by cases h)⟩
  | ok found => exact ⟨fun h => (by cases h; rfl), fun h => (by cases h; rfl)⟩

theorem orReject_bind_eq_ok_iff {α β : Type} {aggregate : LeaseAggregate}
    {check : Except LeaseError α}
    {rest : α → Except LeaseTransitionFailure β} {result : β} :
    orReject aggregate check >>= rest = .ok result ↔
      ∃ value, check = .ok value ∧ rest value = .ok result := by
  rw [bind_eq_ok_iff]
  simp only [orReject_eq_ok_iff]

theorem requireActive_eq_ok_iff {aggregate : LeaseAggregate}
    {active : ActiveLease} :
    requireActive aggregate = .ok active ↔ aggregate.state = .active active := by
  unfold requireActive
  split
  · rename_i lease hstate
    rw [hstate, Except.ok.injEq, LeaseState.active.injEq]
  · rename_i hother
    constructor
    · intro h
      cases h
    · intro h
      exact absurd h (hother active)

/-- The claim check compares every field of a claim. -/
theorem validateClaimIdentity_eq_ok_iff {expected actual : LeaseClaim} :
    validateClaimIdentity expected actual = .ok () ↔ expected = actual := by
  constructor
  · intro h
    unfold validateClaimIdentity at h
    simp only [ne_eq, ite_not] at h
    repeat' split at h
    all_goals try cases h
    rename_i hworkspace hresource henvironment hholder hgeneration hversion
    simp only [not_or, not_not] at hholder hversion
    rcases expected with ⟨⟨_, _, _⟩, ⟨_, _⟩, _, _, ⟨_, _, _⟩, ⟨_, _, _⟩⟩
    rcases actual with ⟨⟨_, _, _⟩, ⟨_, _⟩, _, _, ⟨_, _, _⟩, ⟨_, _, _⟩⟩
    simp_all [PositiveNumber.ext_iff]
  · rintro rfl
    simp [validateClaimIdentity]

theorem requireActiveClaim_eq_ok_iff {aggregate : LeaseAggregate}
    {claim : LeaseClaim} {active : ActiveLease} :
    requireActiveClaim aggregate claim = .ok active ↔
      aggregate.state = .active active ∧ aggregate.active = some claim := by
  unfold requireActiveClaim
  rw [bind_eq_ok_iff]
  simp only [check_bind_eq_ok_iff, requireActive_eq_ok_iff, pure_eq_ok_iff,
    validateClaimIdentity_eq_ok_iff]
  constructor
  · rintro ⟨lease, hstate, hclaim, rfl⟩
    refine ⟨hstate, ?_⟩
    simp [LeaseAggregate.active, hstate, hclaim]
  · rintro ⟨hstate, hactive⟩
    refine ⟨active, hstate, ?_, rfl⟩
    simpa [LeaseAggregate.active, hstate] using hactive

/-! ### The constructor of transitions -/

/-- Everything an accepted transition keeps, and what it takes from its plan. -/
theorem transition_eq_ok {before : LeaseAggregate} {plan : TransitionPlan}
    {accepted : LeaseTransition} (h : transition before plan = .ok accepted) :
    plan.version.get = before.version.get + 1 ∧
      accepted.next.version = plan.version ∧
      accepted.next.generation = plan.generation ∧
      accepted.next.state = plan.state ∧
      accepted.record.kind = plan.kind ∧
      accepted.record.afterGeneration = plan.generation := by
  unfold transition at h
  split at h
  · cases h
  · rename_i expected hexpected
    split at h
    · cases h
    · rename_i hversion
      have hnext := PositiveNumber.checkedNext_eq_ok_iff.mp hexpected
      simp only [transitionVerified, orReject_bind_eq_ok_iff,
        pure_eq_ok_iff] at h
      obtain ⟨-, -, time, -, rfl⟩ := h
      exact ⟨by omega, rfl, rfl, rfl, rfl, rfl⟩

/-- An accepted transition together with its edge of the life cycle. -/
structure Accepted (before : LeaseAggregate) (accepted : LeaseTransition) :
    Prop where
  version : accepted.next.version.get = before.version.get + 1
  afterGeneration : accepted.record.afterGeneration = accepted.next.generation
  edge : LeaseEdge before accepted.record.kind accepted.next

theorem accepted_of_transition {before : LeaseAggregate} {plan : TransitionPlan}
    {accepted : LeaseTransition} (h : transition before plan = .ok accepted)
    (hedge : ∀ next : LeaseAggregate, next.generation = plan.generation →
      next.state = plan.state → LeaseEdge before plan.kind next) :
    Accepted before accepted := by
  obtain ⟨hplan, hversion, hgeneration, hstate, hkind, hafter⟩ :=
    transition_eq_ok h
  refine ⟨hversion ▸ hplan, hafter.trans hgeneration.symm, ?_⟩
  rw [hkind]
  exact hedge _ hgeneration hstate

/-! ### One edge for every reducer -/

theorem acquire_accepted {aggregate : LeaseAggregate} {command : AcquireLease}
    {accepted : LeaseTransition}
    (h : acquire aggregate command = .ok accepted) :
    Accepted aggregate accepted := by
  simp only [acquire, orReject_bind_eq_ok_iff] at h
  obtain ⟨_, hphase, -, -, expiresAt, -, version, -, h⟩ := h
  have havailable : aggregate.state = .available := by
    simp only [requirePhase, ensure_eq_ok_iff, decide_eq_true_eq] at hphase
    cases hstate : aggregate.state <;>
      simp [LeaseAggregate.phase, hstate] at hphase ⊢
  exact accepted_of_transition h fun next hgeneration hstate =>
    .acquired havailable hstate rfl hgeneration

theorem renew_accepted {aggregate : LeaseAggregate} {command : RenewLease}
    {accepted : LeaseTransition} (h : renew aggregate command = .ok accepted) :
    Accepted aggregate accepted ∧ aggregate.active = some command.claim := by
  simp only [renew, orReject_bind_eq_ok_iff, requireActiveClaim_eq_ok_iff] at h
  obtain ⟨active, ⟨hactive, hclaim⟩, -, -, -, -, expiresAt, -, -, -,
    claimVersion, hclaimVersion, version, -, h⟩ := h
  have hnext : active.claimVersion.checkedNext = .ok claimVersion := by
    cases hchecked : active.claimVersion.checkedNext with
    | error error => rw [hchecked] at hclaimVersion; cases hclaimVersion
    | ok next => simpa [hchecked, Except.mapError] using hclaimVersion
  refine ⟨?_, hclaim⟩
  exact accepted_of_transition h fun next hgeneration hstate =>
    .renewed hactive hstate (PositiveNumber.checkedNext_eq_ok_iff.mp hnext)
      hgeneration

theorem authorizeUse_accepted {aggregate : LeaseAggregate} {command : UseLease}
    {accepted : LeaseUseTransition}
    (h : authorizeUse aggregate command = .ok accepted) :
    Accepted aggregate accepted.lease ∧
      aggregate.active = some command.claim := by
  unfold authorizeUse at h
  dsimp only at h
  split at h
  · rename_i lease effectiveExpiresAt houtcome
    cases h
    simp only [orReject_bind_eq_ok_iff,
      requireActiveClaim_eq_ok_iff] at houtcome
    obtain ⟨active, ⟨hactive, hclaim⟩, -, -, -, -, -, -, version, -,
      houtcome⟩ := houtcome
    simp only [bind_eq_ok_iff, pure_eq_ok_iff, Prod.mk.injEq] at houtcome
    obtain ⟨found, h, rfl, -⟩ := houtcome
    refine ⟨?_, hclaim⟩
    exact accepted_of_transition h fun next hgeneration hstate =>
      .used hactive hstate hgeneration
  · cases h

theorem retire_accepted {before : LeaseAggregate} {active : ActiveLease}
    {version : RevisionNumber} {reason : RetirementReason} {plan : FencePlan}
    {accepted : LeaseTransition} (hactive : before.state = .active active)
    (h : retire before version before.generation reason plan = .ok accepted) :
    Accepted before accepted :=
  accepted_of_transition h fun _ hgeneration hstate =>
    .retired (.inl ⟨active, hactive⟩) hstate hgeneration

/-- A fence either advances the generation by one or retires the aggregate. -/
theorem fence_accepted {before : LeaseAggregate} {commandId : CommandId}
    {observedAt : AuthorityInstant} {cause : Option FenceCause}
    {kind : LeaseTransitionKind} {binding : LeaseCommandBinding}
    {accepted : LeaseTransition}
    (hkind : ∀ reason, kind ≠ .retired reason)
    (h : fence before commandId observedAt cause kind binding = .ok accepted) :
    Accepted before accepted := by
  unfold fence at h
  split at h
  · rename_i active hactive
    simp only [orReject_bind_eq_ok_iff, ensure_eq_ok_iff] at h
    obtain ⟨-, hvalid, timeAdvance, -, h⟩ := h
    unfold fenceVerified at h
    split at h
    · cases h
    · split at h
      · exact retire_accepted hactive h
      · split at h
        · exact retire_accepted hactive h
        · rename_i generation hgeneration
          have hsuccessor := PositiveNumber.checkedNext_eq_ok_iff.mp hgeneration
          refine accepted_of_transition h fun next hnext hstate => ?_
          refine .fenced hactive ?_ hvalid hkind (hnext ▸ hsuccessor)
          rw [hstate]
          cases cause with
          | none => exact .inl rfl
          | some cause => exact .inr ⟨_, rfl⟩
  · cases h

theorem release_accepted {aggregate : LeaseAggregate} {command : ReleaseLease}
    {accepted : LeaseTransition}
    (h : release aggregate command = .ok accepted) :
    Accepted aggregate accepted ∧ aggregate.active = some command.claim := by
  simp only [release, orReject_bind_eq_ok_iff,
    requireActiveClaim_eq_ok_iff] at h
  obtain ⟨active, ⟨-, hclaim⟩, -, -, directAvailable, -, h⟩ := h
  refine ⟨fence_accepted ?_ h, hclaim⟩
  intro reason
  cases directAvailable <;> simp

theorem expire_accepted {aggregate : LeaseAggregate} {command : ExpireLease}
    {accepted : LeaseTransition} (h : expire aggregate command = .ok accepted) :
    Accepted aggregate accepted := by
  simp only [expire, orReject_bind_eq_ok_iff] at h
  obtain ⟨active, -, -, -, -, -, -, -, h⟩ := h
  exact fence_accepted (fun reason => by simp) h

theorem fenceHolderLoss_accepted {aggregate : LeaseAggregate}
    {command : FenceHolderLoss} {accepted : LeaseTransition}
    (h : fenceHolderLoss aggregate command = .ok accepted) :
    Accepted aggregate accepted ∧
      aggregate.active = some command.evidence.claim := by
  simp only [fenceHolderLoss, orReject_bind_eq_ok_iff] at h
  obtain ⟨-, -, active, hclaim, -, -, h⟩ := h
  refine ⟨fence_accepted (fun reason => by simp) h, ?_⟩
  cases hchecked : requireActiveClaim aggregate command.evidence.claim with
  | error error => rw [hchecked] at hclaim; cases hclaim
  | ok lease => exact (requireActiveClaim_eq_ok_iff.mp hchecked).2

theorem fenceClockDiscontinuity_accepted {aggregate : LeaseAggregate}
    {command : FenceClockDiscontinuity} {accepted : LeaseTransition}
    (h : fenceClockDiscontinuity aggregate command = .ok accepted) :
    Accepted aggregate accepted := by
  simp only [fenceClockDiscontinuity, orReject_bind_eq_ok_iff] at h
  obtain ⟨active, -, -, -, h⟩ := h
  exact fence_accepted (fun reason => by simp) h

theorem revoke_accepted {aggregate : LeaseAggregate} {command : RevokeLease}
    {accepted : LeaseTransition} (h : revoke aggregate command = .ok accepted) :
    Accepted aggregate accepted ∧ aggregate.active = some command.claim := by
  simp only [revoke, orReject_bind_eq_ok_iff, requireActiveClaim_eq_ok_iff] at h
  obtain ⟨active, ⟨-, hclaim⟩, -, -, h⟩ := h
  exact ⟨fence_accepted (fun reason => by simp) h, hclaim⟩

theorem reconcile_accepted {aggregate : LeaseAggregate}
    {command : ReconcileLease} {accepted : LeaseTransition}
    (h : reconcile aggregate command = .ok accepted) :
    Accepted aggregate accepted := by
  unfold reconcile at h
  split at h
  · rename_i reconciling hreconciling
    simp only [orReject_bind_eq_ok_iff] at h
    obtain ⟨-, -, timeAdvance, -, version, -, h⟩ := h
    refine accepted_of_transition h fun next hgeneration hstate => ?_
    unfold reconciledState at hstate ⊢
    dsimp only at hgeneration hstate ⊢
    by_cases hboundary : version.get ≥ u64Max - 1
    · simp only [if_pos hboundary] at hstate ⊢
      exact .retired (.inr ⟨reconciling, hreconciling⟩) hstate hgeneration
    · simp only [if_neg hboundary] at hstate ⊢
      cases hdisposition : command.observation.disposition with
      | safeToAcquire quiescence safety =>
          rw [hdisposition] at hstate
          exact .reconciled hreconciling (.inl ⟨hstate, rfl⟩) hgeneration
      | dirty evidence =>
          rw [hdisposition] at hstate
          exact .reconciled hreconciling (.inr ⟨⟨_, hstate⟩, rfl⟩) hgeneration
      | indeterminate evidence =>
          rw [hdisposition] at hstate
          exact .reconciled hreconciling (.inr ⟨⟨_, hstate⟩, rfl⟩) hgeneration
  · cases h

/-- Every accepted command moves the aggregate along an edge, and a command
that presents a claim presented the current one. -/
theorem reduce_accepted {aggregate : LeaseAggregate} {command : LeaseCommand}
    {accepted : LeaseTransition}
    (h : reduce aggregate command = .ok accepted) :
    Accepted aggregate accepted ∧
      ∀ claim, command.claim = some claim → aggregate.active = some claim := by
  cases command with
  | acquire command =>
      exact ⟨acquire_accepted h, fun claim hclaim => by cases hclaim⟩
  | renew command =>
      exact (renew_accepted h).imp id fun hactive claim hclaim => by
        cases hclaim
        exact hactive
  | use command =>
      simp only [reduce] at h
      split at h
      · rename_i found hfound
        cases h
        exact (authorizeUse_accepted hfound).imp id fun hactive claim hclaim => by
          cases hclaim
          exact hactive
      · cases h
  | release command =>
      exact (release_accepted h).imp id fun hactive claim hclaim => by
        cases hclaim
        exact hactive
  | expire command =>
      exact ⟨expire_accepted h, fun claim hclaim => by cases hclaim⟩
  | holderLoss command =>
      exact (fenceHolderLoss_accepted h).imp id fun hactive claim hclaim => by
        cases hclaim
        exact hactive
  | clockDiscontinuity command =>
      exact ⟨fenceClockDiscontinuity_accepted h,
        fun claim hclaim => by cases hclaim⟩
  | revoke command =>
      exact (revoke_accepted h).imp id fun hactive claim hclaim => by
        cases hclaim
        exact hactive
  | reconcile command =>
      exact ⟨reconcile_accepted h, fun claim hclaim => by cases hclaim⟩

end Peritus.Lease.Edges
