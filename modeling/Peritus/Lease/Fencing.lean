import Peritus.Lease.Edges

/-!
Fencing over whole runs.  Generation and claim version together order the
claims of one aggregate; no transition moves an aggregate backwards in that
order, and the ones that supersede a claim move it strictly past the claim.
-/

namespace Peritus.Lease.Fencing

open Peritus.Types Policy State Transition Edges

/-! ### Runs -/

/-- The aggregate held after a command: a rejection hands the input back. -/
def after (aggregate : LeaseAggregate) (command : LeaseCommand) :
    LeaseAggregate :=
  match reduce aggregate command with
  | .ok accepted => accepted.next
  | .error failure => failure.aggregate

def runCommands (aggregate : LeaseAggregate) (commands : List LeaseCommand) :
    LeaseAggregate :=
  commands.foldl after aggregate

/-- The accepted transitions of a run, in order. -/
def acceptedTransitions (aggregate : LeaseAggregate) :
    List LeaseCommand → List LeaseTransition
  | [] => []
  | command :: commands =>
      match reduce aggregate command with
      | .ok accepted =>
          accepted :: acceptedTransitions accepted.next commands
      | .error failure => acceptedTransitions failure.aggregate commands

/-- The generations at which a run acquires the lease. -/
def acquiredGenerations (aggregate : LeaseAggregate)
    (commands : List LeaseCommand) : List Nat :=
  ((acceptedTransitions aggregate commands).filter
    fun accepted => accepted.record.kind = .acquired).map
    fun accepted => accepted.record.afterGeneration.get

/-- A non-retiring fence. -/
def advancesGeneration : LeaseTransitionKind → Bool
  | .retired _ => false
  | kind => fencingKindIsValid kind

/-- The kinds that supersede, fence or retire the current claim. -/
def supersedesClaim : LeaseTransitionKind → Bool
  | .renewed => true
  | kind => fencingKindIsValid kind

/-! ### The order of claims -/

/-- Position of an aggregate in the order of claims: retired aggregates are
past every claim of their generation, fenced ones before every claim of
theirs. -/
def fenceRank (aggregate : LeaseAggregate) : Nat :=
  aggregate.generation.get * 2 ^ 65 +
    match aggregate.state with
    | .active lease => lease.claimVersion.get
    | .retired _ => 2 ^ 64
    | _ => 0

def claimRank (claim : LeaseClaim) : Nat :=
  claim.generation.get * 2 ^ 65 + claim.claimVersion.get

theorem fenceRank_of_active {aggregate : LeaseAggregate} {claim : LeaseClaim}
    (hactive : aggregate.active = some claim) :
    fenceRank aggregate = claimRank claim := by
  unfold LeaseAggregate.active at hactive
  split at hactive
  · rename_i lease hstate
    cases hactive
    simp [fenceRank, claimRank, hstate]
  · cases hactive

theorem fenceRank_le_of_edge {before next : LeaseAggregate}
    {kind : LeaseTransitionKind} (hedge : LeaseEdge before kind next) :
    fenceRank before ≤ fenceRank next := by
  cases hedge with
  | acquired hbefore hnext _ hgeneration =>
      simp [fenceRank, hbefore, hnext, hgeneration]
  | renewed hbefore hnext hversion hgeneration =>
      simp [fenceRank, hbefore, hnext, hgeneration, hversion]
  | used hbefore hnext hgeneration =>
      simp [fenceRank, hbefore, hnext, hgeneration]
  | @fenced _ lease _ hbefore hnext _ _ hgeneration =>
      have hbound := lease.claimVersion.get_lt
      rcases hnext with hnext | ⟨state, hnext⟩ <;>
        · simp only [fenceRank, hbefore, hnext, hgeneration]
          omega
  | retired hbefore hnext hgeneration =>
      rcases hbefore with ⟨lease, hbefore⟩ | ⟨state, hbefore⟩
      · have hbound := lease.claimVersion.get_lt
        simp only [fenceRank, hbefore, hnext, hgeneration]
        omega
      · simp [fenceRank, hbefore, hnext, hgeneration]
  | reconciled hbefore hnext hgeneration =>
      rcases hnext with ⟨hnext, -⟩ | ⟨⟨state, hnext⟩, -⟩ <;>
        simp [fenceRank, hbefore, hnext, hgeneration]

/-- The superseding kinds move strictly past the current claim. -/
theorem fenceRank_lt_of_supersedes {before next : LeaseAggregate}
    {kind : LeaseTransitionKind} {claim : LeaseClaim}
    (hedge : LeaseEdge before kind next) (hkind : supersedesClaim kind = true)
    (hactive : before.active = some claim) :
    claimRank claim < fenceRank next := by
  rw [← fenceRank_of_active hactive]
  cases hedge with
  | acquired => simp [supersedesClaim, fencingKindIsValid] at hkind
  | renewed hbefore hnext hversion hgeneration =>
      simp [fenceRank, hbefore, hnext, hgeneration, hversion]
  | used => simp [supersedesClaim, fencingKindIsValid] at hkind
  | @fenced _ lease _ hbefore hnext _ _ hgeneration =>
      have hbound := lease.claimVersion.get_lt
      rcases hnext with hnext | ⟨state, hnext⟩ <;>
        · simp only [fenceRank, hbefore, hnext, hgeneration]
          omega
  | retired hbefore hnext hgeneration =>
      rcases hbefore with ⟨lease, hbefore⟩ | ⟨state, hbefore⟩
      · have hbound := lease.claimVersion.get_lt
        simp only [fenceRank, hbefore, hnext, hgeneration]
        omega
      · simp [LeaseAggregate.active, hbefore] at hactive
  | reconciled hbefore hnext hgeneration =>
      simp [LeaseAggregate.active, hbefore] at hactive

/-- An acquisition moves off the start of its generation. -/
theorem acquired_rank {before next : LeaseAggregate}
    (hedge : LeaseEdge before .acquired next) :
    fenceRank before = next.generation.get * 2 ^ 65 ∧
      next.generation.get * 2 ^ 65 < fenceRank next := by
  cases hedge with
  | acquired hbefore hnext hversion hgeneration =>
      simp [fenceRank, hbefore, hnext, hgeneration, hversion]
  | fenced _ _ hkind => simp [fencingKindIsValid] at hkind
  | reconciled _ hkind =>
      rcases hkind with ⟨-, hkind⟩ | ⟨-, hkind⟩ <;> cases hkind

theorem generation_of_edge {before next : LeaseAggregate}
    {kind : LeaseTransitionKind} (hedge : LeaseEdge before kind next) :
    next.generation.get =
      before.generation.get + if advancesGeneration kind then 1 else 0 := by
  cases hedge with
  | acquired _ _ _ hgeneration =>
      simp [advancesGeneration, fencingKindIsValid, hgeneration]
  | renewed _ _ _ hgeneration =>
      simp [advancesGeneration, fencingKindIsValid, hgeneration]
  | used _ _ hgeneration =>
      simp [advancesGeneration, fencingKindIsValid, hgeneration]
  | fenced _ _ hkind hretired hgeneration =>
      have hadvances : advancesGeneration kind = true := by
        cases kind with
        | retired reason => exact absurd rfl (hretired reason)
        | _ => exact hkind
      simp [hadvances, hgeneration]
  | retired _ _ hgeneration => simp [advancesGeneration, hgeneration]
  | reconciled _ hkind hgeneration =>
      rcases hkind with ⟨-, rfl⟩ | ⟨-, rfl⟩ <;>
        simp [advancesGeneration, fencingKindIsValid, hgeneration]

/-! ### Rejections keep the aggregate -/

/-- A reducer that only rejects through its checks hands the aggregate back. -/
theorem orReject_bind_error {α β : Type} {aggregate : LeaseAggregate}
    {check : Except LeaseError α}
    {rest : α → Except LeaseTransitionFailure β}
    {failure : LeaseTransitionFailure}
    (hrest : ∀ value, rest value = .error failure →
      failure.aggregate = aggregate)
    (h : orReject aggregate check >>= rest = .error failure) :
    failure.aggregate = aggregate := by
  cases check with
  | ok value => exact hrest value h
  | error error =>
      cases h
      rfl

theorem transition_error {before : LeaseAggregate} {plan : TransitionPlan}
    {failure : LeaseTransitionFailure}
    (h : transition before plan = .error failure) :
    failure.aggregate = before := by
  unfold transition at h
  split at h
  · cases h
    rfl
  · split at h
    · cases h
      rfl
    · refine orReject_bind_error (fun _ h => ?_) h
      refine orReject_bind_error (fun _ h => ?_) h
      cases h

theorem fence_error {before : LeaseAggregate} {commandId : CommandId}
    {observedAt : Policy.AuthorityInstant} {cause : Option FenceCause}
    {kind : LeaseTransitionKind} {binding : LeaseCommandBinding}
    {failure : LeaseTransitionFailure}
    (h : fence before commandId observedAt cause kind binding =
      .error failure) :
    failure.aggregate = before := by
  unfold fence at h
  split at h
  · refine orReject_bind_error (fun _ h => ?_) h
    refine orReject_bind_error (fun _ h => ?_) h
    unfold fenceVerified at h
    split at h
    · cases h
      rfl
    · split at h
      · exact transition_error h
      · split at h
        · exact transition_error h
        · exact transition_error h
  · cases h
    rfl

theorem reduce_error {aggregate : LeaseAggregate} {command : LeaseCommand}
    {failure : LeaseTransitionFailure}
    (h : reduce aggregate command = .error failure) :
    failure.aggregate = aggregate := by
  cases command with
  | acquire command =>
      iterate 4 refine orReject_bind_error (fun _ h => ?_) h
      exact transition_error h
  | renew command =>
      iterate 7 refine orReject_bind_error (fun _ h => ?_) h
      exact transition_error h
  | use command =>
      simp only [reduce, authorizeUse] at h
      split at h
      · cases h
      · rename_i useFailure huse
        cases h
        split at huse
        · cases huse
        · rename_i found hfound
          cases huse
          iterate 5 refine orReject_bind_error (fun _ hfound => ?_) hfound
          cases htransition : transition aggregate _ with
          | ok lease => rw [htransition] at hfound; cases hfound
          | error failure =>
              rw [htransition] at hfound
              cases hfound
              exact transition_error htransition
  | release command =>
      iterate 3 refine orReject_bind_error (fun _ h => ?_) h
      exact fence_error h
  | expire command =>
      iterate 4 refine orReject_bind_error (fun _ h => ?_) h
      exact fence_error h
  | holderLoss command =>
      iterate 3 refine orReject_bind_error (fun _ h => ?_) h
      exact fence_error h
  | clockDiscontinuity command =>
      iterate 2 refine orReject_bind_error (fun _ h => ?_) h
      exact fence_error h
  | revoke command =>
      iterate 2 refine orReject_bind_error (fun _ h => ?_) h
      exact fence_error h
  | reconcile command =>
      simp only [reduce, reconcile] at h
      split at h
      · iterate 3 refine orReject_bind_error (fun _ h => ?_) h
        exact transition_error h
      · cases h
        rfl

/-! ### Whole runs -/

theorem after_eq_or_accepted (aggregate : LeaseAggregate)
    (command : LeaseCommand) :
    after aggregate command = aggregate ∨
      ∃ accepted, reduce aggregate command = .ok accepted ∧
        after aggregate command = accepted.next := by
  unfold after
  split
  · rename_i accepted haccepted
    exact .inr ⟨accepted, haccepted, rfl⟩
  · rename_i failure hfailure
    exact .inl (reduce_error hfailure)

theorem fenceRank_le_after (aggregate : LeaseAggregate)
    (command : LeaseCommand) :
    fenceRank aggregate ≤ fenceRank (after aggregate command) := by
  rcases after_eq_or_accepted aggregate command with hsame | ⟨accepted, h, hnext⟩
  · rw [hsame]
  · rw [hnext]
    exact fenceRank_le_of_edge (reduce_accepted h).1.edge

/-- No run moves an aggregate backwards in the order of claims. -/
theorem fenceRank_le_runCommands (aggregate : LeaseAggregate)
    (commands : List LeaseCommand) :
    fenceRank aggregate ≤ fenceRank (runCommands aggregate commands) := by
  induction commands generalizing aggregate with
  | nil => exact le_refl _
  | cons command commands ih =>
      calc
        fenceRank aggregate ≤ fenceRank (after aggregate command) :=
          fenceRank_le_after aggregate command
        _ ≤ fenceRank (runCommands (after aggregate command) commands) := ih _

/-- A claim the aggregate has moved past is never accepted again. -/
theorem stale_claim_rejected {aggregate : LeaseAggregate} {claim : LeaseClaim}
    {command : LeaseCommand} (hstale : claimRank claim < fenceRank aggregate)
    (hclaim : command.claim = some claim) :
    ∃ failure, reduce aggregate command = .error failure := by
  cases h : reduce aggregate command with
  | error failure => exact ⟨failure, rfl⟩
  | ok accepted =>
      have hactive := (reduce_accepted h).2 claim hclaim
      have hrank := fenceRank_of_active hactive
      omega

/-- Every generation acquired in a run is at or past its starting point, and
acquisitions go through generations in strictly increasing order. -/
theorem acquiredGenerations_increasing (aggregate : LeaseAggregate)
    (commands : List LeaseCommand) :
    (∀ generation ∈ acquiredGenerations aggregate commands,
        fenceRank aggregate ≤ generation * 2 ^ 65) ∧
      (acquiredGenerations aggregate commands).Pairwise (· < ·) := by
  induction commands generalizing aggregate with
  | nil => simp [acquiredGenerations, acceptedTransitions]
  | cons command commands ih =>
      unfold acquiredGenerations acceptedTransitions
      cases h : reduce aggregate command with
      | error failure =>
          have hsame := reduce_error h
          subst hsame
          exact ih failure.aggregate
      | ok accepted =>
          have haccepted := (reduce_accepted h).1
          have hmono := fenceRank_le_of_edge haccepted.edge
          obtain ⟨hlater, hpairwise⟩ := ih accepted.next
          by_cases hkind : accepted.record.kind = .acquired
          · have hedge := haccepted.edge
            rw [hkind] at hedge
            obtain ⟨hbefore, hnext⟩ := acquired_rank hedge
            rw [← haccepted.afterGeneration] at hbefore hnext
            simp only [List.filter_cons, hkind, decide_true, if_true,
              List.map_cons, List.mem_cons, List.pairwise_cons]
            refine ⟨?_, ?_, hpairwise⟩
            · rintro generation (rfl | hmem)
              · exact hbefore.le
              · exact hmono.trans (hlater generation hmem)
            · intro generation hmem
              have hbound := hlater generation hmem
              omega
          · simp only [List.filter_cons, hkind, decide_false]
            exact ⟨fun generation hmem => hmono.trans (hlater generation hmem),
              hpairwise⟩

/-- Lease fencing.  In every run from mint, over any commands in any order: a
claim is accepted only as the exact current claim; a claim superseded by a
renewal, a fence or retirement is rejected by every later state; every
generation is acquired at most once; version grows by one with every accepted
transition and generation by one exactly with a non-retiring fence; and a
rejection changes nothing. -/
theorem lease_fencing (command : MintLease) (minted : LeaseTransition)
    (hmint : mint command = .ok minted) (commands : List LeaseCommand) :
    (∀ next claim accepted, next.claim = some claim →
        reduce (runCommands minted.next commands) next = .ok accepted →
        (runCommands minted.next commands).active = some claim) ∧
      (∀ claim next accepted later stale,
        (runCommands minted.next commands).active = some claim →
        reduce (runCommands minted.next commands) next = .ok accepted →
        supersedesClaim accepted.record.kind = true →
        stale.claim = some claim →
        ∃ failure,
          reduce (runCommands accepted.next later) stale = .error failure) ∧
      (acquiredGenerations minted.next commands).Nodup ∧
      (∀ next accepted,
        reduce (runCommands minted.next commands) next = .ok accepted →
        accepted.next.version.get =
            (runCommands minted.next commands).version.get + 1 ∧
          accepted.next.generation.get =
            (runCommands minted.next commands).generation.get +
              if advancesGeneration accepted.record.kind then 1 else 0) ∧
      (minted.next.version.get = 1 ∧ minted.next.generation.get = 1) ∧
      ∀ next failure,
        reduce (runCommands minted.next commands) next = .error failure →
        failure.aggregate = runCommands minted.next commands := by
  refine ⟨?_, ?_, ?_, ?_, ?_, ?_⟩
  · intro next claim accepted hclaim h
    exact (reduce_accepted h).2 claim hclaim
  · intro claim next accepted later stale hactive h hkind hclaim
    refine stale_claim_rejected ?_ hclaim
    calc
      claimRank claim < fenceRank accepted.next :=
        fenceRank_lt_of_supersedes (reduce_accepted h).1.edge hkind hactive
      _ ≤ fenceRank (runCommands accepted.next later) :=
        fenceRank_le_runCommands accepted.next later
  · exact (acquiredGenerations_increasing minted.next commands).2.imp
      fun hlt => Nat.ne_of_lt hlt
  · intro next accepted h
    have haccepted := (reduce_accepted h).1
    exact ⟨haccepted.version, generation_of_edge haccepted.edge⟩
  · cases hmint
    exact ⟨rfl, rfl⟩
  · intro next failure h
    exact reduce_error h

/-! ### A claim that expires -/

def smallInstant (tickMillis : Nat) (h : tickMillis ≤ u64Max := by decide) :
    AuthorityInstant :=
  ⟨.first, tickMillis, h⟩

def smallMint : MintLease :=
  ⟨.ofNat 4, ⟨.ofNat 1, .ofNat 2, .ofNat 3⟩, smallInstant 0⟩

def smallMinted : LeaseAggregate where
  scope := smallMint.scope
  generation := .first
  version := .first
  authorityTime := ⟨.first, 0⟩
  state := .available

def smallDuration : LeaseDuration := ⟨10, by decide, by decide⟩

def smallAcquire : LeaseCommand :=
  .acquire ⟨.ofNat 5, ⟨.ofNat 6, .ofNat 7⟩, smallDuration, smallInstant 1⟩

def smallClaim : LeaseClaim where
  scope := smallMint.scope
  holder := ⟨.ofNat 6, .ofNat 7⟩
  generation := .first
  claimVersion := .first
  issuedAt := smallInstant 1
  expiresAt := smallInstant 11

theorem lease_fencing_of_expiry : ∃ accepted failure,
    reduce (runCommands smallMinted [smallAcquire])
        (.expire ⟨.ofNat 8, smallInstant 11⟩) = .ok accepted ∧
      reduce accepted.next (.renew ⟨.ofNat 9, smallClaim, smallDuration,
        smallInstant 12⟩) = .error failure := by
  obtain ⟨accepted, haccepted⟩ : ∃ accepted,
      reduce (runCommands smallMinted [smallAcquire])
        (.expire ⟨.ofNat 8, smallInstant 11⟩) = .ok accepted := ⟨_, rfl⟩
  have hkind : supersedesClaim accepted.record.kind = true := by
    cases haccepted
    rfl
  obtain ⟨failure, hfailure⟩ := (lease_fencing smallMint _ rfl [smallAcquire]).2.1
    smallClaim _ accepted [] (.renew ⟨.ofNat 9, smallClaim, smallDuration,
      smallInstant 12⟩) rfl haccepted hkind rfl
  exact ⟨accepted, failure, haccepted, hfailure⟩

end Peritus.Lease.Fencing
