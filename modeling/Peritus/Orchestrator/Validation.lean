import Peritus.Orchestrator.Canonical

/-!
The full validation of an orchestrator checkpoint, which the reducer makes both
before and after every command.
-/

namespace Peritus.Orchestrator.Validation

open Peritus.Types Checked SortedTable Material Child Directive State Canonical
open Collaboration.Task (u16Max)

def integrity (detail : String) : OrchestratorError :=
  ⟨.integrity, .quarantine, detail⟩

/-! ### Histories -/

def revisionSuccessor (before after : RevisionTuple) : Bool :=
  decide (before.acceptanceSpecId = after.acceptanceSpecId) &&
    decide (before.harnessId = after.harnessId) &&
    decide (before.workspaceId = after.workspaceId) &&
    decide (before.policyId = after.policyId) &&
    decide (before.providerProfileId = after.providerProfileId) &&
    (decide (after.workspaceGeneration.get > before.workspaceGeneration.get) ||
      (decide (after.workspaceGeneration = before.workspaceGeneration) &&
        decide (after.workspaceRevision.get > before.workspaceRevision.get)))

/-- Whether `related` holds of every two neighbours. -/
def windows {α : Type} (related : α → α → Bool) : List α → Bool
  | a :: b :: rest => related a b && windows related (b :: rest)
  | _ => true

/-- Whether `related` holds of every element and each before it. -/
def priorAll {α : Type} (related : α → α → Bool) (values : List α) : Bool :=
  (List.range values.length).all fun index =>
    match values[index]? with
    | none => true
    | some value => (values.take index).all fun prior => related prior value

def uniqueMaterialHistory (state : OrchestratorState) : Bool :=
  priorAll
    (fun prior candidate => decide (prior.digest ≠ candidate.digest) &&
      !prior.reusesMaterial candidate)
    state.candidateHistory

def distinctCycles (prior cycle : QualityCycleBinding) : Bool :=
  decide (prior.gateRunId ≠ cycle.gateRunId) &&
    decide (prior.schedulerRunId ≠ cycle.schedulerRunId) &&
    decide (prior.collaborationRunId ≠ cycle.collaborationRunId) &&
    decide (prior.schedulerId ≠ cycle.schedulerId) &&
    decide (prior.collaborationId ≠ cycle.collaborationId) &&
    decide (prior.digest ≠ cycle.digest)

def uniqueCycleHistory (state : OrchestratorState) : Bool :=
  priorAll distinctCycles state.qualityCycleHistory

def historyValid (state : OrchestratorState) : Bool :=
  windows
    (fun before after => revisionSuccessor before.revision after.revision &&
      !before.materiallyEqual after && !before.reusesMaterial after)
    state.candidateHistory && uniqueMaterialHistory state

def boundedCollections (state : OrchestratorState) :
    Except OrchestratorError Bool :=
  match state.candidateHistory.getLast? with
  | none =>
      .error (integrity
        "candidate history must retain its exact current tail")
  | some candidate =>
      match state.qualityCycleHistory.getLast? with
      | none =>
          .error (integrity
            "quality-cycle history must retain its exact current tail")
      | some cycle => .ok
          (decide (state.candidateHistory.length = state.counters.revisions) &&
            decide (state.qualityCycleHistory.length =
              state.candidateHistory.length) &&
            decide (state.handoffs.length = state.counters.handoffs) &&
            decide (state.observations.length + state.activations.length =
              state.counters.retainedObservations) &&
            decide (state.activations.length ≤
              state.binding.limits.retainedObservations) &&
            decide (state.usedCommands.length ≤ u16Max) &&
            decide (state.currentCandidate = candidate) &&
            decide (state.currentQualityCycle = cycle) &&
            (state.candidateHistory.zip state.qualityCycleHistory).all
              fun pair => decide (pair.1.revision = pair.2.revision))

/-! ### Observations -/

def validateActivation (state : OrchestratorState)
    (activation : HandoffActivationObservation) :
    Except OrchestratorError Unit :=
  match state.handoffs.find? fun handoff =>
      decide (handoff.id = activation.handoffId) with
  | none => .error (integrity "D3 activation names an unretained handoff")
  | some handoff =>
      match state.qualityCycleHistory.find? fun cycle =>
          decide (cycle.revision = activation.revision) with
      | none =>
          .error (integrity
            "D3 activation revision has no retained child cycle")
      | some cycle =>
          match handoff.destinationRole.harnessRole with
          | none =>
              .error (integrity
                "D3 activation handoff destination is not executable")
          | some role =>
              ensure (decide (activation.taskId = handoff.taskId) &&
                  decide (activation.workId = handoff.workId) &&
                  decide (activation.owner = handoff.destinationActor) &&
                  decide (activation.role = role) &&
                  decide (activation.schedulerRunId =
                    cycle.schedulerRunId) &&
                  decide (activation.collaborationRunId =
                    cycle.collaborationRunId) &&
                  decide (activation.revision = handoff.candidate.revision))
                (integrity
                  "D3 activation differs from its retained handoff or child cycle")

/-- What an observation must agree with, besides its own cycle and candidate. -/
def observationExact (state : OrchestratorState) (cycle : QualityCycleBinding)
    (candidate : CandidateBinding) : ChildObservation → Bool
  | .agent agent => state.handoffs.any fun handoff =>
      decide (handoff.id = agent.handoffId) &&
        decide (handoff.taskId = agent.taskId) &&
        decide (handoff.workId = agent.workId) &&
        decide (handoff.turnId = some agent.turnId) &&
        decide (handoff.destinationActor = agent.actor) &&
        decide (agent.runId = state.binding.runId)
  | .gates gate => decide (gate.runId = state.binding.runId) &&
      decide (gate.gateRunId = cycle.gateRunId) &&
      decide (gate.planDigest = cycle.gatePlanDigest) &&
      decide (gate.snapshotDigest = candidate.qualitySnapshotDigest)
  | .review review => decide (review.runId = state.binding.runId) &&
      decide (review.bindingDigest = cycle.reviewBindingDigest)
  | .reviewFixer review => decide (review.runId = state.binding.runId) &&
      decide (review.bindingDigest = cycle.reviewBindingDigest) &&
      state.handoffs.any fun handoff => decide (handoff.id = review.handoffId)
  | .scheduler child => decide (child.runId = cycle.schedulerRunId)
  | .collaboration child => decide (child.runId = cycle.collaborationRunId)
  | .handoffActivation activation =>
      decide (validateActivation state activation = .ok ())
  | .kernelAcceptance kernel => decide (kernel.runId = state.binding.runId)
  | .cancellationClassification classification =>
      decide (classification.revision = cycle.revision) &&
        nonzero classification.evidenceDigest

def validateObservation (state : OrchestratorState)
    (observation : ChildObservation) : Except OrchestratorError Unit :=
  match state.qualityCycleHistory.find? fun cycle =>
      decide (cycle.revision = observation.revision) with
  | none =>
      .error (integrity
        "child observation revision has no retained quality cycle")
  | some cycle =>
      match state.candidateHistory.find? fun candidate =>
          decide (candidate.revision = observation.revision) with
      | none =>
          .error (integrity
            "child observation revision has no retained candidate")
      | some candidate =>
          ensure (observationExact state cycle candidate observation &&
              observation.head.all fun head => nonzero head.stateDigest)
            (integrity
              "child observation is stale or differs from retained E0 bindings")

/-! ### Terminal truth -/

def isBegun (state : OrchestratorState) (certificate : AcceptanceCertificate)
    (observation : KernelAcceptanceObservation) : Bool :=
  decide (observation.outcome = .begun) &&
    decide (observation.runId = state.binding.runId) &&
    decide (observation.revision = certificate.revision) &&
    decide (observation.commandId = certificate.kernelPlan.beginCommandId) &&
    decide (observation.eventId = certificate.kernelPlan.beginEventId) &&
    decide (observation.previousEventId =
      certificate.kernelPlan.expectedPreviousKernelEvent)

def isAccepted (state : OrchestratorState)
    (certificate : AcceptanceCertificate)
    (observation : KernelAcceptanceObservation) : Bool :=
  decide (observation.outcome = .accepted) &&
    decide (observation.runId = state.binding.runId) &&
    decide (observation.revision = certificate.revision) &&
    decide (observation.commandId =
      certificate.kernelPlan.evaluateCommandId) &&
    decide (observation.eventId = certificate.kernelPlan.evaluateEventId) &&
    decide (observation.previousEventId =
      some certificate.kernelPlan.evaluatePreviousEventId)

def anyKernel (state : OrchestratorState)
    (p : KernelAcceptanceObservation → Bool) : Bool :=
  state.observations.any fun observation => match observation with
    | .kernelAcceptance kernel => p kernel
    | _ => false

def terminalIsTruthful (state : OrchestratorState) : Bool :=
  match state.terminal with
  | none => decide (state.phase ≠ .terminal)
  | some terminal =>
      decide (state.phase = .terminal) &&
        decide (terminal.revision = state.currentCandidate.revision) &&
        state.activeChildren.isEmpty && state.pendingDirective.isNone &&
        (decide (terminal.kind ≠ .accepted) ||
          match state.acceptanceCertificate with
          | none => false
          | some certificate => decide (terminal.cause = .kernelAccepted) &&
              decide (terminal.causeDigest = certificate.digest) &&
              anyKernel state (isBegun state certificate) &&
              anyKernel state (isAccepted state certificate))

def headAt (observations : List ChildObservation)
    (head : ChildObservation → Option Sha256Digest) : Option Sha256Digest :=
  observations.reverse.findSome? head

def gateHeadAt (revision : RevisionTuple) :
    ChildObservation → Option Sha256Digest
  | .gates gate =>
      if gate.revision = revision then some gate.head.stateDigest else none
  | _ => none

def reviewHeadAt (revision : RevisionTuple) :
    ChildObservation → Option Sha256Digest
  | .review review =>
      if review.revision = revision then some review.head.stateDigest else none
  | _ => none

def acceptedCertificateTruth (state : OrchestratorState) : Bool :=
  match state.terminal with
  | none => true
  | some terminal =>
      decide (terminal.kind ≠ .accepted) ||
        match state.acceptanceCertificate with
        | none => false
        | some certificate =>
            decide (certificate.orchestratorBindingDigest =
              state.binding.digest) &&
            decide (certificate.contractId = state.binding.contractId) &&
            decide (certificate.contractDigest =
              state.binding.contractDigest) &&
            decide (certificate.revision = state.currentCandidate.revision) &&
            decide (certificate.candidateBindingDigest =
              state.currentCandidate.digest) &&
            decide (certificate.maximumGateAttempts =
              state.binding.contractGateCycles) &&
            decide (certificate.maximumReviewCycles =
              state.binding.contractReviewCycles) &&
            decide (headAt state.observations
              (gateHeadAt certificate.revision) =
                some certificate.gateStateDigest) &&
            decide (headAt state.observations
              (reviewHeadAt certificate.revision) =
                some certificate.reviewStateDigest)

/-- What a checkpoint with a terminal fact no longer holds. -/
def quiescentWith (state : OrchestratorState)
    (terminal : OrchestratorTerminal) : Bool :=
  decide (terminal.revision = state.currentCandidate.revision) &&
    state.activeChildren.isEmpty && state.pendingDirective.isNone &&
    state.openHandoff.isNone && state.proposedCandidate.isNone &&
    state.pendingTerminal.isNone && state.pausedReconciliation.isNone &&
    state.pausedChildren.isEmpty &&
    decide (decide (terminal.kind = .cancelled) =
      state.cancellationCause.isSome)

def terminalTruth (state : OrchestratorState) : Bool :=
  decide (decide (state.phase = .terminal) = state.terminal.isSome) &&
    state.terminal.all (quiescentWith state) &&
    (state.pendingTerminal.all fun terminal =>
      decide (state.phase = .cancelling) &&
        decide (terminal.revision = state.currentCandidate.revision)) &&
    terminalIsTruthful state && acceptedCertificateTruth state

def canonicalChildren (state : OrchestratorState) : Bool :=
  ascending ChildAggregateKind.tag state.activeChildren &&
    ascending ChildAggregateKind.tag state.pausedChildren &&
    state.pausedChildren.all fun kind =>
      decide (kind ∈ state.activeChildren)

section Hash

variable (sha256 : List UInt8 → Sha256Digest)

/-! ### The whole checkpoint -/

def genesisCycleExact (state : OrchestratorState)
    (cycle : QualityCycleBinding) : Bool :=
  decide (cycle.gateRunId = state.binding.initialGateRunId) &&
    decide (cycle.schedulerRunId = state.binding.initialSchedulerRunId) &&
    decide (cycle.collaborationRunId =
      state.binding.initialCollaborationRunId) &&
    decide (cycle.schedulerId = state.binding.schedulerId) &&
    decide (cycle.schedulerBindingDigest =
      state.binding.schedulerBindingDigest) &&
    decide (cycle.collaborationId = state.binding.collaborationId) &&
    decide (cycle.collaborationBindingDigest =
      state.binding.collaborationBindingDigest)

def validateOption {α : Type} (check : α → Except OrchestratorError Unit) :
    Option α → Except OrchestratorError Unit
  | none => .ok ()
  | some value => check value

def validateProposed (state : OrchestratorState)
    (candidate : CandidateBinding) : Except OrchestratorError Unit := do
  candidate.validate sha256 state.binding.limits
  ensure (revisionSuccessor state.currentCandidate.revision candidate.revision)
    (integrity "proposed candidate does not advance exact revision identity")

def validateGenesisCycle (state : OrchestratorState) :
    Except OrchestratorError Unit :=
  match state.qualityCycleHistory.head? with
  | none => .error (integrity "quality-cycle history must retain genesis")
  | some cycle =>
      ensure (genesisCycleExact state cycle)
        (integrity
          "genesis child ownership differs from immutable orchestrator binding")

def validateNested (state : OrchestratorState) :
    Except OrchestratorError Unit := do
  let limits := state.binding.limits
  state.binding.validate sha256
  state.ownership.validate limits
  state.currentCandidate.validate sha256 limits
  state.currentQualityCycle.validateForCandidate sha256 state.currentCandidate
  state.counters.validate state.binding
  forEach (fun candidate => candidate.validate sha256 limits)
    state.candidateHistory
  forEach (fun pair : CandidateBinding × QualityCycleBinding =>
      pair.2.validateForCandidate sha256 pair.1)
    (state.candidateHistory.zip state.qualityCycleHistory)
  validateGenesisCycle state
  validateOption (validateProposed sha256 state) state.proposedCandidate
  forEach (fun handoff => handoff.validate sha256 limits) state.handoffs
  validateOption (fun handoff => handoff.validate sha256 limits)
    state.openHandoff
  forEach (validateActivation state) state.activations
  forEach (validateObservation state) state.observations
  validateOption PendingDirective.validate state.pendingDirective
  validateOption (AcceptanceCertificate.validate sha256)
    state.acceptanceCertificate
  validateOption (OrchestratorTerminal.validate sha256) state.terminal
  validateOption (OrchestratorTerminal.validate sha256) state.pendingTerminal

def validate (state : OrchestratorState) : Except OrchestratorError Unit := do
  validateNested sha256 state
  let bounded ← boundedCollections state
  let digestValid := nonzero state.stateDigest &&
    decide (state.stateDigest = Canonical.stateDigest sha256 state)
  ensure (canonicalChildren state && historyValid state &&
      uniqueCycleHistory state && bounded && terminalTruth state &&
      digestValid)
    (integrity
      "orchestrator checkpoint is noncanonical or internally inconsistent")

end Hash

end Peritus.Orchestrator.Validation
