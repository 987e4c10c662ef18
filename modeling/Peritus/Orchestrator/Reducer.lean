import Peritus.Orchestrator.Command

/-!
The orchestrator reducer: the handler of each command, and the fences and the
checkpoint validation around every handler.
-/

namespace Peritus.Orchestrator.Reducer

open Peritus.Types Checked SortedTable Material Child Directive State Canonical
open Validation Command
open Scheduler.State (zeroDigest)
open Collaboration.Task (u16Max)

def illegal (detail : String) : OrchestratorError :=
  ⟨.invalidTransition, .correctInput, detail⟩

def bindingError (detail : String) : OrchestratorError :=
  ⟨.bindingMismatch, .quarantine, detail⟩

def stale (detail : String) : OrchestratorError :=
  ⟨.staleState, .replay, detail⟩

def limit (detail : String) : OrchestratorError :=
  ⟨.limitExceeded, .needsHuman, detail⟩

abbrev Handled :=
  Except OrchestratorError (OrchestratorState × OrchestratorEventKind)

def requireSome {α : Type} (value : Option α) (error : OrchestratorError) :
    Except OrchestratorError α :=
  match value with
  | none => .error error
  | some found => .ok found

def recordObservation (state : OrchestratorState)
    (observation : ChildObservation) :
    Except OrchestratorError OrchestratorState := do
  let counted ← state.incrementCounter .retainedObservations
  .ok (counted.pushObservation observation)

/-! ### Directives -/

def childForDestination : DirectiveDestination → Option ChildAggregateKind
  | .scheduler => some .scheduler
  | .collaboration => some .collaboration
  | .agent => some .agent
  | .gates => some .gates
  | .review => some .review
  | .kernel => some .kernel
  | .qualityEvaluator => none

/-- The children that run as soon as a directive of the kind is published. -/
def startedChildren : DirectiveKind → List ChildAggregateKind
  | .startWriter | .startFixer => [.scheduler, .collaboration, .agent]
  | .startReview => [.scheduler, .collaboration, .review]
  | .startGates => [.gates]
  | .beginKernelAcceptance | .evaluateKernelAcceptance => [.kernel]
  | .evaluateAcceptance | .finalizeChildren | .pauseChildren
  | .resumeChildren | .cancelChildren => []

def d3Active (state : OrchestratorState) : Bool :=
  decide (.scheduler ∈ state.activeChildren) ||
    decide (.collaboration ∈ state.activeChildren)

/-- A kernel observation of the first stage of the plan, whatever preceded
it. -/
def begunAt (state : OrchestratorState) (plan : KernelAcceptancePlan)
    (observation : KernelAcceptanceObservation) : Bool :=
  decide (observation.outcome = .begun) &&
    decide (observation.eventId = plan.beginEventId) &&
    decide (observation.commandId = plan.beginCommandId) &&
    decide (observation.runId = state.binding.runId) &&
    decide (observation.revision = state.currentCandidate.revision)

section Hash

variable (sha256 : List UInt8 → Sha256Digest)

def payloadMatches (directive : PendingDirective)
    (binding : DirectivePayloadBinding) : Bool :=
  match directivePayloadDigest sha256 directive.kind directive.destination
      binding with
  | .ok digest => decide (digest = directive.payloadDigest)
  | .error _ => false

def matchesHandoff (state : OrchestratorState) (directive : PendingDirective)
    (kind : DirectiveKind) : Bool :=
  state.openHandoff.any fun handoff =>
    decide (directive.kind = kind) &&
      decide (directive.destination = .collaboration) &&
      decide (directive.taskId = some handoff.taskId) &&
      decide (directive.workId = some handoff.workId) &&
      payloadMatches sha256 directive (.handoff handoff)

def kernelMatches (state : OrchestratorState) (directive : PendingDirective) :
    Bool :=
  match state.acceptanceCertificate with
  | none => false
  | some certificate =>
      let plan := certificate.kernelPlan
      let begun := anyKernel state (begunAt state plan)
      let exact := fun (eventId : EventId) (payload : Sha256Digest) =>
        decide (directive.destination = .kernel) &&
          decide (directive.id = eventId) &&
          decide (directive.payloadDigest = payload) &&
          directive.taskId.isNone
      match directive.kind with
      | .beginKernelAcceptance => !begun &&
          exact plan.beginEventId (certificate.beginPayloadDigest sha256)
      | .evaluateKernelAcceptance => begun &&
          exact plan.evaluateEventId (certificate.evaluatePayloadDigest sha256)
      | _ => false

def finalizeChildren (state : OrchestratorState)
    (directive : PendingDirective) : Bool :=
  decide (directive.kind = .finalizeChildren) &&
    decide (directive.destination = .collaboration) &&
    directive.taskId.isNone &&
    payloadMatches sha256 directive (.qualityCycle state.currentQualityCycle)

/-- The directives a phase may publish. -/
def matchesWork (state : OrchestratorState) (directive : PendingDirective) :
    OrchestratorPhase → Bool
  | .active .writerPending => matchesHandoff sha256 state directive .startWriter
  | .active .gatesPending => decide (directive.kind = .startGates) &&
      decide (directive.destination = .gates) && directive.taskId.isNone &&
      payloadMatches sha256 directive (.qualityCycle state.currentQualityCycle)
  | .active .reviewPending => matchesHandoff sha256 state directive .startReview
  | .active .fixerPending => matchesHandoff sha256 state directive .startFixer
  | .active .evaluatingAcceptance =>
      if d3Active state then finalizeChildren sha256 state directive
      else decide (directive.kind = .evaluateAcceptance) &&
        decide (directive.destination = .qualityEvaluator) &&
        directive.taskId.isNone
  | .active .revisionAdvancing =>
      d3Active state && finalizeChildren sha256 state directive
  | .active .kernelAcceptancePending => kernelMatches sha256 state directive
  | .paused _ => decide (directive.kind = .pauseChildren) &&
      (childForDestination directive.destination).any (fun child =>
        decide (child ∈ state.activeChildren) &&
          decide (child ∉ state.pausedChildren)) &&
      state.pausedReconciliation.any fun reconciliation =>
        payloadMatches sha256 directive (.reconciliation reconciliation)
  | .cancelling => decide (directive.kind = .cancelChildren) &&
      state.cancellationCause.any (fun cause =>
        payloadMatches sha256 directive (.cancellation cause)) &&
      (childForDestination directive.destination).any fun child =>
        decide (child ∈ state.activeChildren)
  | .active .writerActive | .active .gatesActive | .active .reviewActive
  | .active .fixerActive | .terminal => false

def matchesResume (state : OrchestratorState) (directive : PendingDirective)
    (reconciliation : ResumeReconciliation) : Bool :=
  decide (directive.kind = .resumeChildren) &&
    (childForDestination directive.destination).any (fun child =>
      decide (child ∈ state.activeChildren) &&
        decide (child ∈ state.pausedChildren)) &&
    payloadMatches sha256 directive (.reconciliation reconciliation)

def matchesPhase (state : OrchestratorState) (directive : PendingDirective) :
    Bool :=
  decide (directive.revision = state.currentCandidate.revision) &&
    match state.phase.isActive, state.pausedReconciliation with
    | true, some reconciliation =>
        matchesResume sha256 state directive reconciliation
    | _, _ => matchesWork sha256 state directive state.phase

def publish (state : OrchestratorState) (eventId : EventId)
    (directive : PendingDirective) : Handled := do
  directive.validate
  ensure (!state.phase.isPaused || decide (directive.kind = .pauseChildren))
    (illegal "paused orchestration may commit only child-pause directives")
  match state.pendingDirective with
  | some existing => do
      ensure (decide (existing = directive))
        (bindingError "another exact directive is already pending")
      let marked ← existing.markPublished
      .ok ({ state with pendingDirective := some marked },
        .directivePublished directive)
  | none => do
      ensure (decide (directive.sourceEvent = eventId) &&
          matchesPhase sha256 state directive)
        (bindingError
          "new directive differs from its phase, handoff, or source")
      let marked ← directive.markPublished
      let counted ← state.incrementCounter .childDirectives
      .ok ({ counted with pendingDirective := some marked },
        .directivePublished directive)

/-- What an acknowledgement settles besides the directive itself. -/
def settleAcknowledged (state : OrchestratorState)
    (directive : PendingDirective) :
    Except OrchestratorError OrchestratorState :=
  if state.phase = .active .gatesPending then do
    let counted ← state.incrementCounter .gateCycles
    .ok { counted.insertActiveChild .gates with
      phase := .active .gatesActive }
  else if state.phase = .active .kernelAcceptancePending then
    if directive.kind = .beginKernelAcceptance ∨
        directive.kind = .evaluateKernelAcceptance then
      .ok (state.insertActiveChild .kernel)
    else .ok state
  else if state.phase.isPaused = true ∧ directive.kind = .pauseChildren then do
    let child ← requireSome (childForDestination directive.destination)
      (bindingError "pause directive destination is not a child")
    ensure (decide (child ∈ state.activeChildren) &&
        decide (child ∉ state.pausedChildren))
      (bindingError "pause acknowledgement names unowned or settled child")
    .ok { state.insertPausedChild child with pendingDirective := none }
  else if state.phase.isActive = true ∧
      state.pausedReconciliation.isSome = true ∧
      directive.kind = .resumeChildren then do
    let child ← requireSome (childForDestination directive.destination)
      (bindingError "resume directive destination is not a child")
    ensure (decide (child ∈ state.activeChildren))
      (bindingError "resume acknowledgement names unowned or active child")
    let remaining ← requireSome (removeChild child state.pausedChildren)
      (bindingError "resume acknowledgement names unowned or active child")
    .ok { state with
      pausedChildren := remaining
      pendingDirective := none
      pausedReconciliation :=
        if remaining.isEmpty then none else state.pausedReconciliation }
  else .ok state

def acknowledge (state : OrchestratorState) (id : DirectiveId) : Handled := do
  let directive ← requireSome state.pendingDirective
    (illegal "no directive is pending acknowledgement")
  ensure (decide (directive.id = id))
    (bindingError "acknowledgement names another directive")
  let acknowledged ← directive.acknowledge
  let settled ← settleAcknowledged
    { state with pendingDirective := some acknowledged } acknowledged
  .ok (settled, .directiveAcknowledged id)

/-! ### Conclusions -/

def normalizePendingOwnership (state : OrchestratorState) :
    OrchestratorState :=
  match state.pendingDirective with
  | none => state
  | some directive =>
      state.insertActiveChildren (startedChildren directive.kind)

def setTerminal (state : OrchestratorState) (cause : TerminalCause)
    (digest : Sha256Digest) :
    Except OrchestratorError (OrchestratorState × OrchestratorTerminal) := do
  let terminal ← OrchestratorTerminal.new sha256 cause digest
    state.currentCandidate.revision
  let normalized :=
    { normalizePendingOwnership state with pendingDirective := none }
  if normalized.activeChildren.isEmpty then
    .ok (normalized.setTerminal terminal, terminal)
  else
    .ok ({ normalized with
      cancellationCause := some digest }.setPendingTerminal terminal, terminal)

def requireNonzero (digest : Sha256Digest) (detail : String) :
    Except OrchestratorError Unit :=
  ensure (nonzero digest) (bindingError detail)

def explicitTerminal (state : OrchestratorState) (cause : TerminalCause)
    (digest : Sha256Digest) :
    Except OrchestratorError (OrchestratorState × OrchestratorTerminal) := do
  ensure (decide (state.phase ≠ .cancelling))
    (illegal "explicit terminal cannot bypass settlement reconciliation")
  requireNonzero digest "terminal evidence digest must be nonzero"
  setTerminal sha256 state cause digest

/-! ### Role cycles -/

def admitHandoff (state : OrchestratorState) (handoff : Handoff)
    (expected : HandoffKind) :
    Except OrchestratorError OrchestratorState := do
  handoff.validate sha256 state.binding.limits
  let roleExact := match expected with
    | .writer => false
    | .reviewer =>
        decide (handoff.sourceActor = state.ownership.serviceActor) &&
          (state.ownership.reviewer handoff.destinationActor).isSome
    | .fixer =>
        (state.ownership.reviewer handoff.sourceActor).isSome &&
          decide (handoff.destinationActor = state.ownership.fixer.actor)
  ensure (decide (handoff.kind = expected) && roleExact &&
      handoff.candidate.materiallyEqual state.currentCandidate &&
      state.handoffs.all fun prior => decide (prior.id ≠ handoff.id))
    (bindingError
      "handoff role, candidate, actor, or identity is invalid")
  let counted ← state.incrementCounter .handoffs
  .ok { counted.pushHandoff handoff with openHandoff := some handoff }

def activationMatches (state : OrchestratorState) (handoff : Handoff)
    (activation : HandoffActivationObservation) : Bool :=
  let cycle := state.currentQualityCycle
  decide (activation.handoffId = handoff.id) &&
    decide (activation.taskId = handoff.taskId) &&
    decide (activation.workId = handoff.workId) &&
    decide (activation.owner = handoff.destinationActor) &&
    decide (handoff.destinationRole.harnessRole = some activation.role) &&
    decide (activation.schedulerRunId = cycle.schedulerRunId) &&
    decide (activation.collaborationRunId = cycle.collaborationRunId) &&
    decide (activation.revision = cycle.revision) &&
    state.activations.all fun prior =>
      decide (prior.handoffId ≠ activation.handoffId)

def agentMatches (state : OrchestratorState) (handoff : Handoff)
    (observation : AgentChildObservation) : Bool :=
  decide (observation.handoffId = handoff.id) &&
    decide (observation.taskId = handoff.taskId) &&
    decide (observation.workId = handoff.workId) &&
    decide (observation.runId = state.binding.runId) &&
    decide (observation.actor = handoff.destinationActor) &&
    decide (observation.attemptId = state.binding.attemptId) &&
    decide (observation.revision = state.currentCandidate.revision) &&
    decide (some observation.turnId = handoff.turnId) &&
    decide (handoff.destinationRole.harnessRole = some observation.role) &&
    state.activations.any fun activation =>
      decide (activation.handoffId = handoff.id)

def activePhaseOf : HandoffKind → ActivePhase
  | .writer => .writerActive
  | .reviewer => .reviewActive
  | .fixer => .fixerActive

def activeChildOf : HandoffKind → ChildAggregateKind
  | .reviewer => .review
  | .writer | .fixer => .agent

def cycleCounterOf : HandoffKind → CounterKind
  | .writer => .writerCycles
  | .reviewer => .reviewCycles
  | .fixer => .fixerCycles

def observeActivation (state : OrchestratorState)
    (activation : HandoffActivationObservation) : Handled := do
  let handoff ← requireSome state.openHandoff
    (illegal "no handoff awaits D3 activation")
  let pending ← requireSome state.pendingDirective
    (illegal "activation lacks directive")
  ensure (decide (state.phase = .active handoff.destinationPhase) &&
      decide (pending.deliveryState ≠ .ready) &&
      decide (pending.taskId = some handoff.taskId) &&
      decide (pending.workId = some handoff.workId) &&
      activationMatches state handoff activation)
    (bindingError "D3 activation differs from current handoff or directive")
  let cycled ← state.incrementCounter (cycleCounterOf handoff.kind)
  let counted ← cycled.incrementCounter .retainedObservations
  let owned := (counted.pushActivation activation).insertActiveChildren
    [.scheduler, .collaboration, activeChildOf handoff.kind]
  .ok ({ owned with
      pendingDirective := none
      phase := .active (activePhaseOf handoff.kind) },
    .handoffActivated activation)

def writerProduced (state : OrchestratorState)
    (observation : AgentChildObservation) (candidate : CandidateBinding) :
    Bool :=
  (lookupIndex OpaqueIdentifier.value state.ownership.writer.actor.value
    candidate.producerActors).any fun index =>
      decide (candidate.producerAncestries[index]? =
        observation.proposalDigest ∧ observation.proposalDigest.isSome)

def cycleRebound (state : OrchestratorState) (cycle : QualityCycleBinding) :
    Bool :=
  let prior := state.currentQualityCycle
  decide (state.candidateHistory.length = 1) &&
    decide (state.qualityCycleHistory.length = 1) &&
    decide (cycle.gateRunId = prior.gateRunId) &&
    decide (cycle.schedulerRunId = prior.schedulerRunId) &&
    decide (cycle.collaborationRunId = prior.collaborationRunId) &&
    decide (cycle.schedulerId = prior.schedulerId) &&
    decide (cycle.schedulerBindingDigest = prior.schedulerBindingDigest) &&
    decide (cycle.collaborationId = prior.collaborationId) &&
    decide (cycle.collaborationBindingDigest =
      prior.collaborationBindingDigest)

def observeWriter (state : OrchestratorState)
    (observation : AgentChildObservation) (candidate : Option CandidateBinding)
    (qualityCycle : Option QualityCycleBinding) : Handled := do
  let handoff ← requireSome state.openHandoff
    (illegal "writer has no open handoff")
  ensure (decide (state.phase = .active .writerActive) &&
      decide (handoff.kind = .writer) &&
      agentMatches state handoff observation)
    (bindingError "writer observation differs from active handoff")
  let recorded ← recordObservation state (.agent observation)
  let settled :=
    { recorded.removeActiveChild .agent with openHandoff := none }
  let event := OrchestratorEventKind.writerObserved observation candidate
    qualityCycle
  if observation.isCompleted then do
    let material ← requireSome candidate
      (illegal "completed writer observation lacks its material candidate")
    let cycle ← requireSome qualityCycle
      (illegal "completed writer observation lacks its rebound child cycle")
    material.validate sha256 settled.binding.limits
    cycle.validateForCandidate sha256 material
    ensure (decide (material.revision = settled.currentCandidate.revision) &&
        !material.reusesMaterial settled.currentCandidate &&
        writerProduced settled observation material &&
        cycleRebound settled cycle)
      (bindingError
        "writer candidate or rebound child cycle differs from exact D0/D3 provenance")
    .ok ({ settled.installWriterCandidate material cycle with
      phase := .active .gatesPending }, event)
  else do
    ensure (candidate.isNone && qualityCycle.isNone)
      (illegal
        "failed writer observation cannot install a candidate or child cycle")
    let (concluded, _) ← setTerminal sha256 settled .writerFailed
      observation.head.stateDigest
    .ok (concluded, event)

/-- The terminal cause of a gate run that did not pass. -/
def gateFailure : GateObservationClass → TerminalCause
  | .candidateFailed => .gateCandidateFailed
  | .indeterminate => .childAmbiguous
  | .passed | .infrastructureFailed | .cancelled => .gateInfrastructureFailed

def observeGates (state : OrchestratorState)
    (observation : GateChildObservation) (reviewHandoff : Option Handoff) :
    Handled := do
  ensure (decide (state.phase = .active .gatesActive) &&
      decide (observation.runId = state.binding.runId) &&
      decide (observation.gateRunId = state.currentQualityCycle.gateRunId) &&
      decide (observation.revision = state.currentQualityCycle.revision) &&
      decide (observation.planDigest =
        state.currentQualityCycle.gatePlanDigest) &&
      decide (observation.snapshotDigest =
        state.currentCandidate.qualitySnapshotDigest))
    (bindingError "gate observation differs from exact current child cycle")
  let recorded ← recordObservation state (.gates observation)
  let settled :=
    { recorded.removeActiveChild .gates with pendingDirective := none }
  let event := OrchestratorEventKind.gatesObserved observation reviewHandoff
  if observation.gateClass = .passed then do
    let handoff ← requireSome reviewHandoff
      (illegal "gate pass requires review handoff")
    let admitted ← admitHandoff sha256 settled handoff .reviewer
    .ok ({ admitted with phase := .active .reviewPending }, event)
  else do
    let (concluded, _) ← setTerminal sha256 settled
      (gateFailure observation.gateClass) observation.evidenceDigest
    .ok (concluded, event)

def observeReview (state : OrchestratorState)
    (observation : ReviewChildObservation) (fixerHandoff : Option Handoff) :
    Handled := do
  let handoff ← requireSome state.openHandoff
    (illegal "review has no active handoff")
  ensure (decide (state.phase = .active .reviewActive) &&
      decide (handoff.kind = .reviewer) &&
      decide (observation.runId = state.binding.runId) &&
      decide (observation.revision = state.currentCandidate.revision) &&
      decide (observation.bindingDigest =
        state.currentQualityCycle.reviewBindingDigest))
    (bindingError "review observation differs from current handoff or D2 binding")
  let recorded ← recordObservation state (.review observation)
  let opened := { recorded with openHandoff := none, pendingDirective := none }
  let event := OrchestratorEventKind.reviewObserved observation fixerHandoff
  match observation.reviewClass with
  | .needsFix => do
      let fixer ← requireSome fixerHandoff
        (illegal "needs-fix review requires handoff")
      ensure (decide (fixer.blockingFindings =
          observation.unconservedFindings))
        (bindingError
          "fixer handoff does not conserve exact review findings")
      let admitted ← admitHandoff sha256 opened fixer .fixer
      .ok ({ admitted with phase := .active .fixerPending }, event)
  | .completed => do
      ensure fixerHandoff.isNone
        (illegal "completed review cannot create a fixer handoff")
      .ok ({ opened.removeActiveChild .review with
        phase := .active .evaluatingAcceptance }, event)
  | .needsHuman => do
      let (concluded, _) ← setTerminal sha256 (opened.removeActiveChild .review)
        .reviewNeedsHuman observation.head.stateDigest
      .ok (concluded, event)
  | .failed | .cancelled => do
      let (concluded, _) ← setTerminal sha256 (opened.removeActiveChild .review)
        .reviewFailed observation.head.stateDigest
      .ok (concluded, event)

def recordFixerReview (state : OrchestratorState)
    (review : Option ReviewFixerObservation) :
    Except OrchestratorError OrchestratorState :=
  match review with
  | none => .ok state
  | some review => do
      ensure (decide (review.runId = state.binding.runId) &&
          decide (review.revision = state.currentCandidate.revision) &&
          decide (review.bindingDigest =
            state.currentQualityCycle.reviewBindingDigest))
        (bindingError "durable D2 fixer response differs from current review")
      recordObservation state (.reviewFixer review)

def observeFixer (state : OrchestratorState) (completion : FixerCompletion) :
    Handled := do
  let handoff ← requireSome state.openHandoff
    (illegal "fixer has no active handoff")
  ensure (decide (state.phase = .active .fixerActive) &&
      agentMatches state handoff completion.observation)
    (bindingError "fixer result differs from active handoff")
  completion.validate handoff
  let recorded ← recordObservation state (.agent completion.observation)
  let reviewed ← recordFixerReview recorded completion.reviewObservation
  let settled :=
    { reviewed.removeActiveChild .agent with openHandoff := none }
  let event := OrchestratorEventKind.fixerObserved completion
  match completion.proposedCandidate with
  | some candidate => do
      candidate.validate sha256 settled.binding.limits
      ensure (revisionSuccessor settled.currentCandidate.revision
            candidate.revision &&
          decide (settled.ownership.fixer.actor ∈ candidate.producerActors))
        (bindingError "fixer proposal is stale or lacks fixer provenance")
      .ok ({ settled with
        proposedCandidate := some candidate
        phase := .active .revisionAdvancing }, event)
  | none => do
      let (concluded, _) ← setTerminal sha256 settled .fixerFailed
        completion.observation.head.stateDigest
      .ok (concluded, event)

/-- The cause and evidence of coordination that did not complete. -/
def coordinationFailure (scheduler : SchedulerChildObservation)
    (collaboration : CollaborationChildObservation) :
    TerminalCause × Sha256Digest :=
  (if scheduler.head.terminal = some .indeterminate ∨
      collaboration.head.terminal = some .indeterminate then .childAmbiguous
    else .coordinationFailed,
   if scheduler.head.terminal = some .completed then
      collaboration.head.stateDigest
    else scheduler.head.stateDigest)

def observeInfrastructure (state : OrchestratorState)
    (scheduler : SchedulerChildObservation)
    (collaboration : CollaborationChildObservation) : Handled := do
  let directive ← requireSome state.pendingDirective
    (illegal "D3 quiescence lacks finalize-children directive")
  let cycle := state.currentQualityCycle
  ensure ((decide (state.phase = .active .evaluatingAcceptance) ||
        decide (state.phase = .active .revisionAdvancing)) &&
      decide (directive.kind = .finalizeChildren) &&
      decide (directive.deliveryState = .acknowledged) &&
      decide (scheduler.runId = cycle.schedulerRunId) &&
      decide (collaboration.runId = cycle.collaborationRunId) &&
      decide (scheduler.revision = cycle.revision) &&
      decide (collaboration.revision = cycle.revision) &&
      scheduler.head.terminal.isSome && collaboration.head.terminal.isSome)
    (bindingError "D3 quiescence differs from current exact child cycle")
  let first ← recordObservation state (.scheduler scheduler)
  let recorded ← recordObservation first (.collaboration collaboration)
  let unscheduled ← requireSome (removeChild .scheduler recorded.activeChildren)
    (bindingError "D3 quiescence names children not owned by E0")
  let remaining ← requireSome (removeChild .collaboration unscheduled)
    (bindingError "D3 quiescence names children not owned by E0")
  let settled :=
    { recorded with activeChildren := remaining, pendingDirective := none }
  let event := OrchestratorEventKind.roleInfrastructureObserved scheduler
    collaboration
  if scheduler.head.terminal = some .completed ∧
      collaboration.head.terminal = some .completed then
    .ok (settled, event)
  else do
    let (cause, digest) := coordinationFailure scheduler collaboration
    let (concluded, _) ← setTerminal sha256 settled cause digest
    .ok (concluded, event)

/-! ### Acceptance -/

def advanceCandidate (state : OrchestratorState)
    (qualityCycle : QualityCycleBinding) : Handled := do
  ensure (decide (state.phase = .active .revisionAdvancing))
    (illegal "candidate can advance only after checked fixer completion")
  let candidate ← requireSome state.proposedCandidate
    (illegal "revision advancement lacks a checked proposal")
  ensure (state.candidateHistory.all fun prior =>
      decide (prior.digest ≠ candidate.digest) &&
        !prior.reusesMaterial candidate)
    (bindingError
      "candidate advancement reuses historical material identity")
  qualityCycle.validateForCandidate sha256 candidate
  ensure (decide (qualityCycle.revision = candidate.revision) &&
      (state.qualityCycleHistory.all fun prior =>
        distinctCycles prior qualityCycle) &&
      decide (.scheduler ∉ state.activeChildren) &&
      decide (.collaboration ∉ state.activeChildren))
    (bindingError "new candidate cycle is stale, reused, or old D3 is active")
  let counted ← state.incrementCounter .revisions
  .ok ({ counted.advanceCandidate candidate qualityCycle with
      phase := .active .gatesPending },
    .candidateAdvanced candidate qualityCycle)

def lastGate (state : OrchestratorState) : Option GateChildObservation :=
  state.observations.reverse.findSome? ChildObservation.asGates

def lastReview (state : OrchestratorState) : Option ReviewChildObservation :=
  state.observations.reverse.findSome? ChildObservation.asReview

def certificateExact (state : OrchestratorState)
    (directive : PendingDirective) (certificate : AcceptanceCertificate) :
    Bool :=
  decide (state.phase = .active .evaluatingAcceptance) &&
    state.activeChildren.isEmpty &&
    decide (directive.kind = .evaluateAcceptance) &&
    decide (directive.deliveryState = .acknowledged) &&
    decide (directive.payloadDigest = certificate.evaluationRequestDigest) &&
    decide (certificate.orchestratorBindingDigest = state.binding.digest) &&
    decide (certificate.contractId = state.binding.contractId) &&
    decide (certificate.contractDigest = state.binding.contractDigest) &&
    decide (certificate.maximumGateAttempts =
      state.binding.contractGateCycles) &&
    decide (certificate.maximumReviewCycles =
      state.binding.contractReviewCycles) &&
    decide (certificate.revision = state.currentCandidate.revision) &&
    decide (certificate.candidateBindingDigest =
      state.currentCandidate.digest) &&
    (lastGate state).any (fun gate =>
      decide (certificate.gateStateDigest = gate.head.stateDigest)) &&
    (lastReview state).any fun review =>
      decide (certificate.reviewStateDigest = review.head.stateDigest)

def recordCertificate (state : OrchestratorState)
    (certificate : AcceptanceCertificate) : Handled := do
  let directive ← requireSome state.pendingDirective
    (illegal "acceptance certificate lacks evaluator directive")
  certificate.validate sha256
  ensure (certificateExact state directive certificate)
    (bindingError
      "acceptance certificate differs from current B2/D1/D2 truth")
  .ok ({ state with
      pendingDirective := none
      acceptanceCertificate := some certificate
      phase := .active .kernelAcceptancePending },
    .acceptanceCertificateRecorded certificate)

/-- The stage of the plan an observation settles. -/
def stageExact (plan : KernelAcceptancePlan) (directive : PendingDirective)
    (observation : KernelAcceptanceObservation) : Bool :=
  match observation.outcome with
  | .begun => decide (directive.kind = .beginKernelAcceptance) &&
      decide (observation.eventId = plan.beginEventId) &&
      decide (observation.commandId = plan.beginCommandId) &&
      decide (observation.previousEventId =
        plan.expectedPreviousKernelEvent)
  | .accepted | .needsChanges =>
      decide (directive.kind = .evaluateKernelAcceptance) &&
      decide (observation.eventId = plan.evaluateEventId) &&
      decide (observation.commandId = plan.evaluateCommandId) &&
      decide (observation.previousEventId =
        some plan.evaluatePreviousEventId)
  | .cancelled => false

def observeKernel (state : OrchestratorState)
    (observation : KernelAcceptanceObservation) : Handled := do
  let certificate ← requireSome state.acceptanceCertificate
    (illegal "B0 observation lacks an acceptance certificate")
  let directive ← requireSome state.pendingDirective
    (illegal "B0 observation lacks its stage directive")
  ensure (decide (state.phase = .active .kernelAcceptancePending) &&
      stageExact certificate.kernelPlan directive observation &&
      decide (directive.deliveryState = .acknowledged) &&
      decide (observation.runId = state.binding.runId) &&
      decide (observation.revision = state.currentCandidate.revision))
    (bindingError "B0 observation differs from certificate plan or directive")
  let recorded ← recordObservation state (.kernelAcceptance observation)
  let settled := { recorded with pendingDirective := none }
  let event := OrchestratorEventKind.kernelAcceptanceObserved observation
  match observation.outcome with
  | .begun => .ok (settled, event)
  | .accepted => do
      let (concluded, _) ← setTerminal sha256
        (settled.removeActiveChild .kernel) .kernelAccepted certificate.digest
      .ok (concluded, event)
  | .needsChanges => do
      let (concluded, _) ← setTerminal sha256
        (settled.removeActiveChild .kernel) .kernelNeedsChanges
        certificate.digest
      .ok (concluded, event)
  | .cancelled =>
      .error (illegal "B0 cancellation is accepted only during settlement")

/-! ### Pause, cancellation and settlement -/

def pause (state : OrchestratorState)
    (reconciliation : ResumeReconciliation) : Handled :=
  match state.phase with
  | .active phase => do
      ResumeReconciliation.validateForState reconciliation state
      .ok ({ state with
          pausedChildren := []
          pausedReconciliation := some reconciliation
          phase := .paused phase },
        .paused (.paused phase) reconciliation)
  | _ => .error (illegal "only active orchestration can pause")

def resume (state : OrchestratorState)
    (reconciliation : ResumeReconciliation) : Handled :=
  match state.phase with
  | .paused phase => do
      ensure (decide (state.pausedReconciliation = some reconciliation))
        (bindingError
          "resume child heads differ from committed pause checkpoint")
      ensure (decide (state.pausedChildren = state.activeChildren))
        (illegal
          "resume requires pause acknowledgement from every active child")
      .ok ({ state with phase := .active phase },
        .resumed (.active phase) reconciliation)
  | _ => .error (illegal "only paused orchestration can resume")

def cancel (state : OrchestratorState) (causeDigest : Sha256Digest) :
    Handled := do
  requireNonzero causeDigest "cancellation cause digest must be nonzero"
  ensure (decide (state.phase ≠ .cancelling))
    (illegal "orchestration is already cancelling")
  .ok ({ normalizePendingOwnership state with
      cancellationCause := some causeDigest
      pendingDirective := none
      pausedReconciliation := none
      pausedChildren := []
      phase := .cancelling },
    .cancellationRequested causeDigest)

/-- Whether an observation shows that its child has stopped. -/
def isSettlement (state : OrchestratorState) : ChildObservation → Bool
  | .handoffActivation _ | .reviewFixer _ => false
  | .kernelAcceptance kernel => decide (kernel.outcome ≠ .begun)
  | .cancellationClassification classification =>
      decide (classification.revision = state.currentCandidate.revision) &&
        nonzero classification.evidenceDigest
  | observation => observation.head.any fun head => head.terminal.isSome

/-- An ambiguous child needs a human, unless the run has ended otherwise. -/
def recordAmbiguity (state : OrchestratorState) :
    ChildObservation → Except OrchestratorError OrchestratorState
  | .cancellationClassification classification =>
      if classification.kind = .ambiguous ∧
          state.pendingTerminal.isNone = true then do
        let terminal ← OrchestratorTerminal.new sha256 .childAmbiguous
          classification.evidenceDigest state.currentCandidate.revision
        .ok (state.setPendingTerminal terminal)
      else .ok state
  | _ => .ok state

def reconcile (state : OrchestratorState) (observation : ChildObservation) :
    Handled := do
  let directive ← requireSome state.pendingDirective
    (illegal "cancellation reconciliation lacks a committed directive")
  ensure (decide (state.phase = .cancelling) &&
      decide (directive.kind = .cancelChildren) &&
      decide (directive.deliveryState = .acknowledged) &&
      decide (childForDestination directive.destination =
        some observation.aggregate) &&
      isSettlement state observation)
    (bindingError
      "cancellation observation is nonterminal, stale, or unowned")
  let remaining ← requireSome
    (removeChild observation.aggregate state.activeChildren)
    (bindingError
      "cancellation observation is nonterminal, stale, or unowned")
  let counted ← { state with activeChildren := remaining }.incrementCounter
    .cancellationReconciliations
  let recorded ← recordObservation counted observation
  let classified ← recordAmbiguity sha256 recorded observation
  .ok ({ classified with pendingDirective := none },
    .cancellationReconciled observation)

def finalize (state : OrchestratorState) : Handled := do
  ensure (decide (state.phase = .cancelling) &&
      state.activeChildren.isEmpty && state.pendingDirective.isNone)
    (illegal "settlement finalization requires reconciled quiescence")
  match state.pendingTerminal with
  | some pending => .ok (state.setTerminal pending, .finalized pending)
  | none => do
      let digest ← requireSome state.cancellationCause
        (illegal "cancellation cause is absent")
      let terminal ← OrchestratorTerminal.new sha256 .cancellationReconciled
        digest state.currentCandidate.revision
      .ok (state.setTerminal terminal, .finalized terminal)

/-! ### Dispatch -/

/-- What a resuming run may still commit. -/
def resumesChildren : OrchestratorCommandKind → Bool
  | .publishDirective directive => decide (directive.kind = .resumeChildren)
  | .acknowledgeDirective _ => true
  | .cancel _ => true
  | _ => false

def dispatch (state : OrchestratorState) (eventId : EventId) :
    OrchestratorCommandKind → Handled
  | .start _ => .error (illegal "Start is legal only at genesis")
  | .publishDirective directive => publish sha256 state eventId directive
  | .acknowledgeDirective directiveId => acknowledge state directiveId
  | .observeHandoffActivation activation => observeActivation state activation
  | .observeWriter observation candidate qualityCycle =>
      observeWriter sha256 state observation candidate qualityCycle
  | .observeGates observation reviewHandoff =>
      observeGates sha256 state observation reviewHandoff
  | .observeReview observation fixerHandoff =>
      observeReview sha256 state observation fixerHandoff
  | .observeFixer completion => observeFixer sha256 state completion
  | .observeRoleInfrastructure scheduler collaboration =>
      observeInfrastructure sha256 state scheduler collaboration
  | .advanceCandidate qualityCycle =>
      advanceCandidate sha256 state qualityCycle
  | .recordAcceptanceCertificate certificate =>
      recordCertificate sha256 state certificate
  | .observeKernelAcceptance observation =>
      observeKernel sha256 state observation
  | .pause reconciliation => pause state reconciliation
  | .resume reconciliation => resume state reconciliation
  | .cancel causeDigest => cancel state causeDigest
  | .reconcileCancellation observation => reconcile sha256 state observation
  | .rejectRun causeDigest => do
      let (concluded, terminal) ← explicitTerminal sha256 state
        .explicitRejection causeDigest
      .ok (concluded, .rejected terminal)
  | .fail causeDigest => do
      let (concluded, terminal) ← explicitTerminal sha256 state
        .explicitFailure causeDigest
      .ok (concluded, .failed terminal)
  | .exhaust causeDigest => do
      let (concluded, terminal) ← explicitTerminal sha256 state
        .explicitExhaustion causeDigest
      .ok (concluded, .exhausted terminal)
  | .finalize => finalize sha256 state

def apply (state : OrchestratorState) (eventId : EventId)
    (kind : OrchestratorCommandKind) : Handled := do
  ensure (!(state.phase.isActive && state.pausedReconciliation.isSome) ||
      resumesChildren kind)
    (illegal "resuming orchestration may commit only child-resume directives")
  dispatch sha256 state eventId kind

/-! ### Fences, genesis and commit -/

def validateFences (state : OrchestratorState)
    (command : OrchestratorCommand) : Except OrchestratorError Unit := do
  ensure (decide (state.phase ≠ .terminal))
    (illegal "orchestrator aggregate is terminal and fenced closed")
  ensure (decide (state.usedCommands.length ≤ u16Max))
    (limit "orchestrator command history reached its canonical bound")
  ensure (decide (state.binding.runId = command.runId) &&
      decide (state.currentCandidate.revision = command.revision) &&
      decide (state.sequence.get = command.expectedSequence) &&
      decide (command.expectedPreviousEvent = some state.lastEventId) &&
      decide (command.priorStateDigest = state.stateDigest) &&
      decide (command.commandId ∉ state.usedCommands) &&
      !command.kind.isStart)
    (stale
      "command run, revision, predecessor, digest, or identity fence differs")

def validateGenesis (command : OrchestratorCommand)
    (genesis : OrchestratorGenesis) : Except OrchestratorError Unit :=
  let binding := genesis.binding
  let handoff := genesis.writerHandoff
  ensure (decide (command.runId = binding.runId) &&
      decide (command.revision = binding.initialRevision) &&
      decide (genesis.candidate.revision = binding.initialRevision) &&
      decide (command.expectedSequence = 0) &&
      decide (command.expectedPreviousEvent = none) &&
      decide (command.priorStateDigest = zeroDigest) &&
      decide (handoff.kind = .writer) &&
      decide (handoff.sourceActor = genesis.ownership.serviceActor) &&
      decide (handoff.destinationActor = genesis.ownership.writer.actor) &&
      handoff.candidate.materiallyEqual genesis.candidate)
    (bindingError
      "genesis fences, identities, candidate, or writer handoff differ")

/-- The state with the digest of its content. -/
def sealed (state : OrchestratorState) : OrchestratorState :=
  { state with stateDigest := stateDigest sha256 state }

def start (command : OrchestratorCommand) :
    Except OrchestratorError OrchestratorTransition :=
  match command.kind with
  | .start genesis => do
      genesis.binding.validate sha256
      genesis.candidate.validate sha256 genesis.binding.limits
      genesis.ownership.validate genesis.binding.limits
      genesis.writerHandoff.validate sha256 genesis.binding.limits
      validateGenesis command genesis
      let state := sealed sha256
        (OrchestratorState.genesis genesis.binding genesis.ownership
          genesis.candidate genesis.writerHandoff
          (QualityCycleBinding.genesis sha256 genesis.binding)
          PositiveNumber.first command.eventId command.commandId)
      validate sha256 state
      .ok
        { event :=
            { id := command.eventId
              commandId := command.commandId
              sequence := PositiveNumber.first
              previousEvent := none
              runId := command.runId
              revision := command.revision
              priorStateDigest := zeroDigest
              successorStateDigest := state.stateDigest
              kind := .started genesis }
          state }
  | _ => .error (illegal "genesis command is not Start")

def checkedNextSequence (sequence : EventSequence) :
    Except OrchestratorError EventSequence :=
  match sequence.checkedNext with
  | .ok next => .ok next
  | .error _ => .error (limit "orchestrator event sequence overflowed")

def decideCommand (state : OrchestratorState)
    (command : OrchestratorCommand) :
    Except OrchestratorError OrchestratorTransition := do
  validate sha256 state
  validateFences state command
  let sequence ← checkedNextSequence state.sequence
  let (applied, kind) ← apply sha256 state command.eventId command.kind
  let successor := sealed sha256
    (applied.advanceCursor sequence command.eventId command.commandId)
  validate sha256 successor
  .ok
    { event :=
        { id := command.eventId
          commandId := command.commandId
          sequence
          previousEvent := some state.lastEventId
          runId := command.runId
          revision := command.revision
          priorStateDigest := state.stateDigest
          successorStateDigest := successor.stateDigest
          kind }
      state := successor }

end Hash

end Peritus.Orchestrator.Reducer
