import Peritus.Orchestrator.Checkpoint

/-!
Custody of children: a child is owned from the publication of the directive
that starts it until an event shows that it has stopped, and a concluded run
owns nothing.
-/

namespace Peritus.Orchestrator.Custody

open Peritus.Types Checked TransitionSystem Material Child Directive State
open Command Reducer Edits Handlers Invariant Checkpoint
open Scheduler.State (zeroDigest)

/-! ### What events show -/

/-- The observations of children that an event commits. -/
def observed : OrchestratorEventKind → List ChildObservation
  | .writerObserved observation _ _ => [.agent observation]
  | .gatesObserved observation _ => [.gates observation]
  | .reviewObserved observation _ => [.review observation]
  | .fixerObserved completion => [.agent completion.observation]
  | .roleInfrastructureObserved scheduler collaboration =>
      [.scheduler scheduler, .collaboration collaboration]
  | .kernelAcceptanceObserved observation => [.kernelAcceptance observation]
  | .cancellationReconciled observation => [observation]
  | _ => []

/-- Whether an observation shows that its child has stopped. -/
def stopped : ChildObservation → Bool
  | .handoffActivation _ | .reviewFixer _ => false
  | .kernelAcceptance kernel => decide (kernel.outcome ≠ .begun)
  | .cancellationClassification _ => true
  | observation => observation.head.any fun head => head.terminal.isSome

def Settles (event : OrchestratorEventKind) (child : ChildAggregateKind) :
    Prop :=
  ∃ observation ∈ observed event,
    observation.aggregate = child ∧ stopped observation = true

/-- The children that a directive pending in a phase may have started. -/
def startedIn : ActivePhase → List ChildAggregateKind
  | .writerPending | .fixerPending => [.scheduler, .collaboration, .agent]
  | .reviewPending => [.scheduler, .collaboration, .review]
  | .gatesPending | .gatesActive => [.gates]
  | .kernelAcceptancePending => [.kernel]
  | .writerActive | .reviewActive | .fixerActive | .evaluatingAcceptance
  | .revisionAdvancing => []

variable {sha256 : List UInt8 → Sha256Digest}
  {state next ending : OrchestratorState} {event : OrchestratorEventKind}
  {kind : OrchestratorCommandKind} {eventId : EventId}
  {directive : PendingDirective} {child : ChildAggregateKind}

theorem stopped_of_isSettlement {observation : ChildObservation}
    (h : isSettlement state observation = true) : stopped observation = true := by
  cases observation <;> first | exact h | rfl

theorem startedIn_of_fits (hfit : Fits state directive)
    (hstarted : child ∈ startedChildren directive.kind) :
    ∃ phase, state.phase.resumable = some phase ∧ child ∈ startedIn phase := by
  unfold Fits at hfit
  cases hkind : directive.kind <;> rw [hkind] at hfit hstarted
  case startWriter => exact ⟨_, hfit, hstarted⟩
  case startReview => exact ⟨_, hfit, hstarted⟩
  case startFixer => exact ⟨_, hfit, hstarted⟩
  case startGates =>
    rcases hfit with hfit | hfit
    · exact ⟨_, hfit, hstarted⟩
    · exact ⟨_, hfit, hstarted⟩
  case beginKernelAcceptance => exact ⟨_, hfit, hstarted⟩
  case evaluateKernelAcceptance => exact ⟨_, hfit, hstarted⟩
  all_goals cases hstarted

/-- An owned child runs already, or the phase may have started it. -/
theorem active_or_started (hkept : Kept state)
    (howned : child ∈ ownedChildren state) :
    child ∈ state.activeChildren ∨
      ∃ phase, state.phase.resumable = some phase ∧ child ∈ startedIn phase := by
  rcases mem_ownedChildren.mp howned with hactive | ⟨directive, hpending,
    hstarted⟩
  · exact .inl hactive
  · exact .inr (startedIn_of_fits (hkept.fits _ hpending) hstarted)

/-- In a phase that starts nothing, what is owned is running. -/
theorem active_of_owned (hkept : Kept state) {phase : ActivePhase}
    (hphase : state.phase = .active phase) (hnone : startedIn phase = [])
    (howned : child ∈ ownedChildren state) : child ∈ state.activeChildren := by
  rcases active_or_started hkept howned with hactive | ⟨found, hfound, hmem⟩
  · exact hactive
  · rw [hphase] at hfound
    cases hfound
    rw [hnone] at hmem
    cases hmem

theorem active_or_kernel (hkept : Kept state)
    (hphase : state.phase = .active .kernelAcceptancePending)
    (howned : child ∈ ownedChildren state) :
    child ∈ state.activeChildren ∨ child = .kernel := by
  rcases active_or_started hkept howned with hactive | ⟨_, hfound, hmem⟩
  · exact .inl hactive
  · rw [hphase] at hfound
    cases hfound
    exact .inr (List.mem_singleton.mp hmem)

theorem active_or_gates (hkept : Kept state)
    (hphase : state.phase = .active .gatesActive)
    (howned : child ∈ ownedChildren state) :
    child ∈ state.activeChildren ∨ child = .gates := by
  rcases active_or_started hkept howned with hactive | ⟨_, hfound, hmem⟩
  · exact .inl hactive
  · rw [hphase] at hfound
    cases hfound
    exact .inr (List.mem_singleton.mp hmem)

theorem owned_of_active (hactive : child ∈ state.activeChildren) :
    child ∈ ownedChildren state :=
  mem_ownedChildren.mpr (.inl hactive)

/-! ### Observations that show a child has stopped -/

theorem stopped_agent (observation : AgentChildObservation) :
    stopped (.agent observation) = true := by
  have hshape := observation.shape
  unfold agentShape at hshape
  simp only [Bool.and_eq_true] at hshape
  exact hshape.1.1.1.1.2

theorem stopped_gates (observation : GateChildObservation) :
    stopped (.gates observation) = true := by
  change observation.head.terminal.isSome = true
  rw [observation.shape.2]
  rfl

theorem stopped_review {observation : ReviewChildObservation}
    (hclass : observation.reviewClass ≠ .needsFix) :
    stopped (.review observation) = true := by
  have hshape := observation.shape
  unfold reviewShape at hshape
  simp only [Bool.and_eq_true, decide_eq_true_eq] at hshape
  change observation.head.terminal.isSome = true
  rw [hshape.1.1.2]
  cases hfound : observation.reviewClass
  case needsFix => exact absurd hfound hclass
  all_goals rfl

theorem settles_kernel {observation : KernelAcceptanceObservation}
    (houtcome : observation.outcome ≠ .begun) :
    Settles (.kernelAcceptanceObserved observation) .kernel :=
  ⟨_, List.mem_singleton.mpr rfl, rfl, decide_eq_true houtcome⟩

theorem settles_coordination {scheduler : SchedulerChildObservation}
    {collaboration : CollaborationChildObservation}
    (hchild : child = .scheduler ∨ child = .collaboration) :
    Settles (.roleInfrastructureObserved scheduler collaboration) child := by
  rcases hchild with rfl | rfl
  · exact ⟨.scheduler scheduler, List.mem_cons_self, rfl, scheduler.shape.2⟩
  · exact ⟨.collaboration collaboration,
      List.mem_cons_of_mem _ List.mem_cons_self, rfl, collaboration.shape.2⟩

/-- Only the child that an event settles leaves the active ones. -/
theorem owned_or_settled {settled : ChildAggregateKind}
    (hnext : next.activeChildren = withoutChild settled state.activeChildren)
    (hsettles : Settles event settled)
    (howned : child ∈ state.activeChildren ∨ child = settled) :
    child ∈ ownedChildren next ∨ Settles event child := by
  by_cases hchild : child = settled
  · rw [hchild]
    exact .inr hsettles
  · refine .inl (owned_of_active ?_)
    rw [hnext]
    exact mem_withoutChild (howned.resolve_right hchild) hchild

theorem owned_or_coordinated {scheduler : SchedulerChildObservation}
    {collaboration : CollaborationChildObservation}
    {middle : List ChildAggregateKind}
    (hfirst : removeChild .scheduler state.activeChildren = some middle)
    (hsecond : removeChild .collaboration middle = some next.activeChildren)
    (hactive : child ∈ state.activeChildren) :
    child ∈ ownedChildren next ∨
      Settles (.roleInfrastructureObserved scheduler collaboration) child := by
  by_cases hchild : child = .scheduler ∨ child = .collaboration
  · exact .inr (settles_coordination hchild)
  · rw [not_or] at hchild
    have hmiddle := mem_removeChild hfirst hactive hchild.1
    exact .inl (owned_of_active (mem_removeChild hsecond hmiddle hchild.2))

/-! ### Endings -/

theorem owned_of_ending {cause : TerminalCause} {digest : Sha256Digest}
    (hkept : Kept state)
    (hending : Ending sha256 state kind event cause digest ending)
    (howned : child ∈ ownedChildren state) :
    child ∈ ownedChildren ending ∨ Settles event child := by
  cases hending with
  | writer hopen hphase =>
      have hactive := active_of_owned hkept hphase rfl howned
      exact owned_or_settled rfl
        ⟨_, List.mem_singleton.mpr rfl, rfl, stopped_agent _⟩ (.inl hactive)
  | gates hphase hclass =>
      refine owned_or_settled rfl
        ⟨_, List.mem_singleton.mpr rfl, rfl, stopped_gates _⟩ ?_
      exact active_or_gates hkept hphase howned
  | review hphase hclass hcause =>
      have hactive := active_of_owned hkept hphase rfl howned
      exact owned_or_settled rfl
        ⟨_, List.mem_singleton.mpr rfl, rfl, stopped_review hclass⟩
        (.inl hactive)
  | fixer hphase hreviews =>
      have hactive := active_of_owned hkept hphase rfl howned
      exact owned_or_settled rfl
        ⟨_, List.mem_singleton.mpr rfl, rfl, stopped_agent _⟩ (.inl hactive)
  | coordination hpending hkind hphase hfirst hsecond =>
      refine owned_or_coordinated hfirst hsecond ?_
      rcases hphase with hphase | hphase
      · exact active_of_owned hkept hphase rfl howned
      · exact active_of_owned hkept hphase rfl howned
  | kernelAccepted hphase hcertificate hpending hacknowledged houtcome =>
      refine owned_or_settled rfl (settles_kernel (by rw [houtcome]; decide)) ?_
      exact active_or_kernel hkept hphase howned
  | kernelNeedsChanges hphase houtcome =>
      refine owned_or_settled rfl (settles_kernel (by rw [houtcome]; decide)) ?_
      exact active_or_kernel hkept hphase howned
  | rejected => exact .inl howned
  | failed => exact .inl howned
  | exhausted => exact .inl howned

theorem owned_of_concludes {digest : Sha256Digest}
    {terminal : OrchestratorTerminal}
    (hconcludes : Concludes ending digest terminal next)
    (howned : child ∈ ownedChildren ending) : child ∈ ownedChildren next := by
  cases hconcludes with
  | closed hclosed =>
      rw [hclosed] at howned
      cases howned
  | settling => exact owned_of_active howned

/-! ### One step -/

/-- The children that an event starts. -/
def started : OrchestratorEventKind → List ChildAggregateKind
  | .directivePublished directive => startedChildren directive.kind
  | _ => []

theorem owned_of_pending {after : PendingDirective}
    (hpending : state.pendingDirective = some directive)
    (hnext : next.pendingDirective = some after)
    (hkind : after.kind = directive.kind)
    (hactive : state.activeChildren ⊆ next.activeChildren)
    (howned : child ∈ ownedChildren state) : child ∈ ownedChildren next := by
  rw [mem_ownedChildren] at howned ⊢
  rcases howned with h | ⟨found, hfound, hstarted⟩
  · exact .inl (hactive h)
  · rw [hpending] at hfound
    cases hfound
    refine .inr ⟨after, hnext, ?_⟩
    rw [hkind]
    exact hstarted

/-- A directive that starts nothing is settled without a trace. -/
theorem active_of_pending (hpending : state.pendingDirective = some directive)
    (hnone : startedChildren directive.kind = [])
    (howned : child ∈ ownedChildren state) : child ∈ state.activeChildren := by
  rcases mem_ownedChildren.mp howned with h | ⟨found, hfound, hstarted⟩
  · exact h
  · rw [hpending] at hfound
    cases hfound
    rw [hnone] at hstarted
    cases hstarted

theorem startedIn_destinationPhase (handoffKind : HandoffKind) :
    startedIn handoffKind.destinationPhase =
      [.scheduler, .collaboration, activeChildOf handoffKind] := by
  cases handoffKind <;> rfl

/-- One step of custody. -/
theorem owned_of_edit (hkept : Kept state) (hvalid : Valid sha256 state)
    (hresuming : state.phase.isActive = true →
      state.pausedReconciliation.isSome = true → resumesChildren kind = true)
    (hedit : Edit sha256 state eventId kind event next)
    (howned : child ∈ ownedChildren state ∨ child ∈ started event) :
    child ∈ ownedChildren next ∨ Settles event child := by
  have hquiet : started event = [] → child ∈ ownedChildren state := by
    intro hnone
    rw [hnone] at howned
    exact howned.resolve_right List.not_mem_nil
  cases hedit with
  | republish hpending =>
      refine .inl (mem_ownedChildren.mpr ?_)
      rcases howned with howned | hstarted
      · exact mem_ownedChildren.mp (owned_of_pending hpending rfl rfl
          (List.Subset.refl _) howned)
      · exact .inr ⟨_, rfl, hstarted⟩
  | publish hpending =>
      refine .inl (mem_ownedChildren.mpr ?_)
      rcases howned with howned | hstarted
      · rcases mem_ownedChildren.mp howned with h | ⟨found, hfound, _⟩
        · exact .inl h
        · rw [hpending] at hfound
          cases hfound
      · exact .inr ⟨_, rfl, hstarted⟩
  | acknowledgeGates hpending =>
      exact .inl (owned_of_pending hpending rfl rfl
        (fun _ h => mem_insertChild.mpr (.inr h)) (hquiet rfl))
  | acknowledgeKernel hpending =>
      exact .inl (owned_of_pending hpending rfl rfl
        (fun _ h => mem_insertChild.mpr (.inr h)) (hquiet rfl))
  | acknowledgePause hpending hdelivered hphase hkind =>
      have hactive := active_of_pending hpending (by rw [hkind]; rfl)
        (hquiet rfl)
      exact .inl (owned_of_active hactive)
  | acknowledgeResume hpending hdelivered hphase hgates hkernel hsome hkind =>
      have hactive := active_of_pending hpending (by rw [hkind]; rfl)
        (hquiet rfl)
      exact .inl (owned_of_active hactive)
  | acknowledge hpending =>
      exact .inl (owned_of_pending hpending rfl rfl (List.Subset.refl _)
        (hquiet rfl))
  | activate hopen hpending hphase htask =>
      refine .inl (owned_of_active (mem_insertChildren.mpr ?_))
      rcases active_or_started hkept (hquiet rfl) with h | ⟨_, hfound, hmem⟩
      · exact .inr h
      · rw [hphase] at hfound
        cases hfound
        rw [hvalid.openHandoffPhase hopen, startedIn_destinationPhase] at hmem
        exact .inl hmem
  | installWriter hphase =>
      have hactive := active_of_owned hkept hphase rfl (hquiet rfl)
      exact owned_or_settled rfl
        ⟨_, List.mem_singleton.mpr rfl, rfl, stopped_agent _⟩ (.inl hactive)
  | passGates hphase =>
      exact owned_or_settled rfl
        ⟨_, List.mem_singleton.mpr rfl, rfl, stopped_gates _⟩
        (active_or_gates hkept hphase (hquiet rfl))
  | needFix hphase =>
      have hactive := active_of_owned hkept hphase rfl (hquiet rfl)
      exact .inl (owned_of_active hactive)
  | completeReview hphase hclass =>
      have hactive := active_of_owned hkept hphase rfl (hquiet rfl)
      exact owned_or_settled rfl
        ⟨_, List.mem_singleton.mpr rfl, rfl,
          stopped_review (by rw [hclass]; decide)⟩ (.inl hactive)
  | propose hphase =>
      have hactive := active_of_owned hkept hphase rfl (hquiet rfl)
      exact owned_or_settled rfl
        ⟨_, List.mem_singleton.mpr rfl, rfl, stopped_agent _⟩ (.inl hactive)
  | coordinate hpending hkind hphase hfirst hsecond =>
      exact owned_or_coordinated hfirst hsecond (active_of_pending hpending
        (by rw [hkind]; rfl) (hquiet rfl))
  | advance hphase =>
      have hactive := active_of_owned hkept hphase rfl (hquiet rfl)
      exact .inl (owned_of_active hactive)
  | certify hpending hexact =>
      have hphase := (exact_of_certificateExact hexact).phase
      have hactive := active_of_owned hkept hphase rfl (hquiet rfl)
      exact .inl (owned_of_active hactive)
  | beginKernel hphase hcertificate hpending hacknowledged houtcome hstage =>
      refine .inl (owned_of_active ?_)
      rcases active_or_kernel hkept hphase (hquiet rfl) with hactive | rfl
      · exact hactive
      · have hbegin := kernelStage_of_stageExact hstage
        refine (hkept.kernel _ hpending hbegin hacknowledged).resolve_right ?_
        intro hsome
        exact Bool.false_ne_true
          (hresuming (by rw [hphase]; rfl) hsome)
  | pause hphase => exact .inl (hquiet rfl)
  | resume hphase => exact .inl (hquiet rfl)
  | cancel => exact .inl (owned_of_active (hquiet rfl))
  | reconcile hphase hpending hchild hsettled hremoved =>
      rename_i observation _ _ _ _ _
      rcases active_or_started hkept (hquiet rfl) with hactive | ⟨_, hfound, _⟩
      · by_cases haggregate : child = observation.aggregate
        · exact .inr ⟨observation, List.mem_singleton.mpr rfl, haggregate.symm,
            stopped_of_isSettlement hsettled⟩
        · exact .inl (owned_of_active
            (mem_removeChild hremoved hactive haggregate))
      · rw [hphase] at hfound
        cases hfound
  | finalize hphase hactive hpending =>
      have howned := hquiet rfl
      rw [mem_ownedChildren, hactive, hpending] at howned
      rcases howned with h | ⟨_, h, _⟩ <;> cases h
  | conclude hending hnonzero hconcludes =>
      have hnone : started event = [] := by
        cases hending <;> rfl
      rcases owned_of_ending hkept hending (hquiet hnone) with howned | hsettles
      · exact .inl (owned_of_concludes hconcludes howned)
      · exact .inr hsettles

/-! ### Runs -/

theorem ownedChildren_sealed (sequence : EventSequence) (commandId : CommandId) :
    ownedChildren
        (sealed sha256 (state.advanceCursor sequence eventId commandId)) =
      ownedChildren state := rfl

theorem owned_of_commits {committed : OrchestratorEvent} (hkept : Kept state)
    (hcommits : Commits sha256 state committed next)
    (howned : child ∈ ownedChildren state ∨ child ∈ started committed.kind) :
    child ∈ ownedChildren next ∨ Settles committed.kind child := by
  obtain ⟨command, hdecide⟩ := hcommits
  obtain ⟨applied, hcommitted⟩ := committed_of_decideCommand hdecide
  have hvalid := validate_eq_ok_iff.mp hcommitted.valid
  obtain ⟨sequence, _, rfl⟩ := hcommitted.committed
  rw [ownedChildren_sealed]
  exact owned_of_edit hkept hvalid hcommitted.resuming hcommitted.edit howned

theorem owned_of_run {events : List OrchestratorEvent} (hkept : Kept state)
    (hrun : Run (Commits sha256) state events next)
    (howned : child ∈ ownedChildren state) :
    child ∈ ownedChildren next ∨ ∃ event ∈ events, Settles event.kind child := by
  have hinv : ∀ s a t, Kept s → Commits sha256 s a t → Kept t :=
    fun _ _ _ => kept_of_commits
  have hstep : ∀ s a t, Kept s → child ∈ ownedChildren s →
      Commits sha256 s a t → child ∈ ownedChildren t ∨ Settles a.kind child :=
    fun _ _ _ hkept howned hcommits =>
      owned_of_commits hkept hcommits (.inl howned)
  exact hrun.keeps_or_emits hinv hstep hkept howned

/-- Every child that a published directive starts is settled by a later event
of any run that concludes. -/
theorem settled_before_terminal {first publication : OrchestratorEvent}
    {initial concluded : OrchestratorState}
    {before after : List OrchestratorEvent}
    (hstarts : Starts sha256 first initial)
    (hrun : Run (Commits sha256) initial (before ++ publication :: after)
      concluded)
    (hconcluded : concluded.phase = .terminal)
    (hpublished : publication.kind = .directivePublished directive)
    (hchild : child ∈ startedChildren directive.kind) :
    ∃ settlement ∈ after, Settles settlement.kind child := by
  obtain ⟨_, hleft, hright⟩ := hrun.exists_of_append
  rcases hright with _ | ⟨hcommits, hrest⟩
  rename_i published
  have hkept := kept_of_run hstarts hleft
  have howned : child ∈ ownedChildren published := by
    have hstarted : child ∈ started publication.kind := by
      rw [hpublished]
      exact hchild
    refine (owned_of_commits hkept hcommits (.inr hstarted)).resolve_right ?_
    rintro ⟨observation, hmem, _⟩
    rw [hpublished] at hmem
    cases hmem
  have hvalid := valid_of_run hstarts hrun
  have hnil := hvalid.owned_eq_nil hconcluded
  refine (owned_of_run (kept_of_commits hkept hcommits) hrest
    howned).resolve_left ?_
  rw [hnil]
  exact List.not_mem_nil

/-! ### A small run

The writer is started and the run cancelled before it answers.  The hash of
these examples is constant: nothing in them depends on it. -/

def smallId (value : Nat) : OpaqueIdentifier :=
  ⟨value % 1000 + 1, Nat.succ_ne_zero _, by
    have h := Nat.mod_lt value (show 0 < 1000 by decide)
    exact Nat.lt_of_le_of_lt h (by decide)⟩

def smallRevision : RevisionTuple where
  acceptanceSpecId := smallId 1
  harnessId := smallId 2
  workspaceId := smallId 3
  workspaceGeneration := PositiveNumber.first
  workspaceRevision := PositiveNumber.first
  policyId := smallId 4
  providerProfileId := smallId 5

def smallDigest : Sha256Digest := .ofNat 1

theorem smallDigest_ne_zero : smallDigest ≠ zeroDigest := by decide

def smallLimits : OrchestratorLimits where
  revisions := 4
  writerCycles := 4
  fixerCycles := 4
  gateCycles := 4
  reviewCycles := 4
  handoffs := 8
  childDirectives := 16
  retainedObservations := 16
  artifactReferences := 4
  cancellationReconciliations := 8
  eventBytes := 65536
  stateBytes := 65536

/-- A checksum that stands for the hash in the examples. -/
def smallHash (_ : List UInt8) : Sha256Digest := smallDigest

def smallBinding : OrchestratorBinding :=
  let binding : OrchestratorBinding :=
    { id := smallId 10
      runId := smallId 11
      attemptId := smallId 12
      contractId := smallRevision.acceptanceSpecId
      contractDigest := smallDigest
      initialRevision := smallRevision
      initialGateRunId := smallId 13
      initialSchedulerRunId := smallId 14
      initialCollaborationRunId := smallId 15
      contractGateCycles := 4
      contractReviewCycles := 4
      gatePlanDigest := smallDigest
      reviewBindingDigest := smallDigest
      schedulerId := smallId 16
      schedulerBindingDigest := smallDigest
      collaborationId := smallId 17
      collaborationBindingDigest := smallDigest
      limits := smallLimits
      digest := zeroDigest }
  { binding with digest := bindingDigest smallHash binding }

def smallCandidate : CandidateBinding :=
  let candidate : CandidateBinding :=
    { revision := smallRevision
      snapshotId := smallId 20
      candidateDigest := smallDigest
      treeDigest := smallDigest
      qualitySnapshotDigest := smallDigest
      artifactId := none
      artifactDigest := none
      producerActors := [smallId 30]
      producerAncestries := [smallDigest]
      digest := zeroDigest }
  { candidate with
    digest := smallHash
      ("peritus.orchestrator.candidate.v1\x00".toUTF8.toList
        ++ encodeCandidateFields candidate) }

def smallOwnership : RoleOwnership where
  serviceActor := smallId 31
  serviceRole := .orchestrator
  writer := ⟨smallId 32, .writer, .writer⟩
  fixer := ⟨smallId 33, .fixer, .fixer⟩
  reviewers := [⟨smallId 34, .reviewer, .reviewer⟩]

def smallHandoff : Handoff :=
  let handoff : Handoff :=
    { id := smallId 40
      kind := .writer
      sourcePhase := none
      sourceRole := .orchestrator
      destinationPhase := .writerPending
      sourceActor := smallOwnership.serviceActor
      destinationActor := smallOwnership.writer.actor
      destinationRole := .writer
      candidate := smallCandidate
      turnId := some (smallId 41)
      taskId := smallId 42
      workId := smallId 43
      artifactInputs := []
      evidenceInputs := []
      blockingFindings := []
      digest := zeroDigest }
  { handoff with
    digest := smallHash ("peritus.orchestrator.handoff.v1\x00".toUTF8.toList
      ++ encodeHandoffFields handoff) }

def smallGenesis : OrchestratorCommand where
  commandId := smallId 50
  eventId := smallId 50
  runId := smallBinding.runId
  expectedSequence := 0
  expectedPreviousEvent := none
  priorStateDigest := zeroDigest
  revision := smallRevision
  kind := .start
    { binding := smallBinding
      candidate := smallCandidate
      ownership := smallOwnership
      writerHandoff := smallHandoff }
  sequenceBound := Nat.zero_le _
  predecessor := genesis_predecessor

def smallDirective (id : Nat) (kind : DirectiveKind)
    (destination : DirectiveDestination) : PendingDirective :=
  PendingDirective.new (smallId id) destination kind smallDigest 1 (smallId id)
    none none smallRevision Collaboration.Task.one_le_u16Max

def smallStartWriter : PendingDirective :=
  { smallDirective 51 .startWriter .collaboration with
    taskId := some smallHandoff.taskId
    workId := some smallHandoff.workId }

/-- The commands that settle one child of a cancelled run. -/
def smallSettlement (id : Nat) (destination : DirectiveDestination)
    (child : ChildAggregateKind) : List Request :=
  [(smallId id, .publishDirective
      (smallDirective id .cancelChildren destination)),
   (smallId (id + 1), .acknowledgeDirective (smallId id)),
   (smallId (id + 2), .reconcileCancellation
      (.cancellationClassification
        ⟨child, smallRevision, .unreachable, smallDigest, smallDigest_ne_zero⟩))]

def smallRequests : List Request :=
  [(smallId 51, .publishDirective smallStartWriter),
   (smallId 52, .cancel smallDigest)]
    ++ smallSettlement 60 .agent .agent
    ++ smallSettlement 70 .scheduler .scheduler
    ++ smallSettlement 80 .collaboration .collaboration
    ++ [(smallId 90, .finalize)]

def smallStart : Option OrchestratorTransition :=
  (start smallHash smallGenesis).toOption

def smallOutcome : Option (List OrchestratorEvent × OrchestratorState) :=
  smallStart.bind fun transition =>
    attempts smallHash transition.state smallRequests

theorem smallOutcome_concludes :
    smallOutcome.map (fun outcome =>
      (outcome.1.map (·.kind) |>.head?, outcome.2.phase)) =
    some (some (.directivePublished smallStartWriter), .terminal) := by
  decide +kernel

theorem settled_before_terminal_of_cancel :
    ∃ first initial publication after concluded,
      Starts smallHash first initial ∧
      Run (Commits smallHash) initial (publication :: after) concluded ∧
      concluded.phase = .terminal ∧
      publication.kind = .directivePublished smallStartWriter ∧
      ∃ settlement ∈ after, Settles settlement.kind .agent := by
  obtain ⟨⟨events, concluded⟩, houtcome, hkinds⟩ :=
    Option.map_eq_some_iff.mp smallOutcome_concludes
  obtain ⟨⟨first, initial⟩, hstart, hattempts⟩ :=
    Option.bind_eq_some_iff.mp houtcome
  have hstarts : Starts smallHash first initial :=
    ⟨smallGenesis, toOption_eq_some_iff.mp hstart⟩
  have hrun := run_of_attempts hattempts
  obtain ⟨hhead, hphase⟩ := Prod.mk.inj hkinds
  cases events with
  | nil => cases hhead
  | cons publication after =>
      have hpublished := Option.some.inj hhead
      exact ⟨first, initial, publication, after, concluded, hstarts, hrun,
        hphase, hpublished, settled_before_terminal hstarts
          (show Run _ _ ([] ++ publication :: after) _ from hrun) hphase
          hpublished (by decide)⟩

end Peritus.Orchestrator.Custody
