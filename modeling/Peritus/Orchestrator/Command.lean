import Peritus.Orchestrator.Validation

/-!
Orchestrator commands, the records they carry, and the events and transitions
they are committed as.
-/

namespace Peritus.Orchestrator.Command

open Peritus.Types Checked Material Child Directive State

/-! ### Records -/

structure OrchestratorGenesis where
  binding : OrchestratorBinding
  candidate : CandidateBinding
  ownership : RoleOwnership
  writerHandoff : Handoff
deriving DecidableEq

def ResumeReconciliation.validateForState
    (reconciliation : ResumeReconciliation) (state : OrchestratorState) :
    Except OrchestratorError Unit := do
  reconciliation.validateShape
  ensure (decide (reconciliation.checkpointStateDigest = state.stateDigest) &&
      decide (reconciliation.childHeads.map ChildHead.aggregate =
        state.activeChildren))
    ⟨.staleState, .replay,
      "pause/resume child heads differ from the exact E0 checkpoint"⟩

structure FixerCompletion where
  observation : AgentChildObservation
  proposedCandidate : Option CandidateBinding
  reviewObservation : Option ReviewFixerObservation
deriving DecidableEq

namespace FixerCompletion

def findingsMatch (completion : FixerCompletion) (handoff : Handoff) : Bool :=
  decide (completion.observation.fixerResponses.map
    FixerResponseIdentity.findingId = handoff.blockingFindings)

/-- Whether the review recorded exactly the fixer's responses. -/
def reviewRecords (completion : FixerCompletion) (handoff : Handoff)
    (review : ReviewFixerObservation) : Bool :=
  decide (review.handoffId = handoff.id) &&
    decide (review.revision = handoff.candidate.revision) &&
    decide (review.records.length =
      completion.observation.fixerResponses.length) &&
    (review.records.zip completion.observation.fixerResponses).all fun pair =>
      decide (pair.1.findingId = pair.2.findingId) &&
        decide (pair.1.responseDigest = pair.2.responseDigest) &&
        decide (pair.1.actor = handoff.destinationActor)

def validate (completion : FixerCompletion) (handoff : Handoff) :
    Except OrchestratorError Unit :=
  let observation := completion.observation
  let common := decide (handoff.kind = .fixer) &&
    decide (observation.handoffId = handoff.id) &&
    decide (observation.taskId = handoff.taskId) &&
    decide (observation.workId = handoff.workId) &&
    decide (observation.actor = handoff.destinationActor) &&
    decide (observation.role = .fixer) &&
    decide (observation.revision = handoff.candidate.revision)
  let completionValid := match completion.proposedCandidate with
    | none => !observation.isCompleted &&
        observation.fixerResponses.isEmpty &&
        completion.reviewObservation.isNone
    | some candidate => observation.isCompleted &&
        completion.findingsMatch handoff &&
        !candidate.materiallyEqual handoff.candidate &&
        completion.reviewObservation.any (completion.reviewRecords handoff)
  ensure (common && completionValid)
    ⟨.bindingMismatch, .quarantine,
      "fixer result differs from its handoff or response coverage"⟩

end FixerCompletion

/-! ### Commands -/

inductive OrchestratorCommandKind
  | start (genesis : OrchestratorGenesis)
  | publishDirective (directive : PendingDirective)
  | acknowledgeDirective (directiveId : DirectiveId)
  | observeHandoffActivation (activation : HandoffActivationObservation)
  | observeWriter (observation : AgentChildObservation)
      (candidate : Option CandidateBinding)
      (qualityCycle : Option QualityCycleBinding)
  | observeGates (observation : GateChildObservation)
      (reviewHandoff : Option Handoff)
  | observeReview (observation : ReviewChildObservation)
      (fixerHandoff : Option Handoff)
  | observeFixer (completion : FixerCompletion)
  | observeRoleInfrastructure (scheduler : SchedulerChildObservation)
      (collaboration : CollaborationChildObservation)
  | advanceCandidate (qualityCycle : QualityCycleBinding)
  | recordAcceptanceCertificate (certificate : AcceptanceCertificate)
  | observeKernelAcceptance (observation : KernelAcceptanceObservation)
  | pause (reconciliation : ResumeReconciliation)
  | resume (reconciliation : ResumeReconciliation)
  | cancel (causeDigest : Sha256Digest)
  | reconcileCancellation (observation : ChildObservation)
  | rejectRun (causeDigest : Sha256Digest)
  | fail (causeDigest : Sha256Digest)
  | exhaust (causeDigest : Sha256Digest)
  | finalize
deriving DecidableEq

def OrchestratorCommandKind.isStart : OrchestratorCommandKind → Bool
  | .start _ => true
  | _ => false

structure OrchestratorCommand where
  commandId : CommandId
  eventId : EventId
  runId : RunId
  expectedSequence : Nat
  expectedPreviousEvent : Option EventId
  priorStateDigest : Sha256Digest
  revision : RevisionTuple
  kind : OrchestratorCommandKind
  sequenceBound : expectedSequence ≤ u64Max
  predecessor : expectedSequence = 0 ↔ expectedPreviousEvent = none

/-! ### Events -/

inductive OrchestratorEventKind
  | started (genesis : OrchestratorGenesis)
  | directivePublished (directive : PendingDirective)
  | directiveAcknowledged (directiveId : DirectiveId)
  | handoffActivated (activation : HandoffActivationObservation)
  | writerObserved (observation : AgentChildObservation)
      (candidate : Option CandidateBinding)
      (qualityCycle : Option QualityCycleBinding)
  | gatesObserved (observation : GateChildObservation)
      (reviewHandoff : Option Handoff)
  | reviewObserved (observation : ReviewChildObservation)
      (fixerHandoff : Option Handoff)
  | fixerObserved (completion : FixerCompletion)
  | roleInfrastructureObserved (scheduler : SchedulerChildObservation)
      (collaboration : CollaborationChildObservation)
  | candidateAdvanced (candidate : CandidateBinding)
      (qualityCycle : QualityCycleBinding)
  | acceptanceCertificateRecorded (certificate : AcceptanceCertificate)
  | kernelAcceptanceObserved (observation : KernelAcceptanceObservation)
  | paused (phase : OrchestratorPhase) (reconciliation : ResumeReconciliation)
  | resumed (phase : OrchestratorPhase)
      (reconciliation : ResumeReconciliation)
  | cancellationRequested (causeDigest : Sha256Digest)
  | cancellationReconciled (observation : ChildObservation)
  | rejected (terminal : OrchestratorTerminal)
  | failed (terminal : OrchestratorTerminal)
  | exhausted (terminal : OrchestratorTerminal)
  | finalized (terminal : OrchestratorTerminal)
deriving DecidableEq

structure OrchestratorEvent where
  id : EventId
  commandId : CommandId
  sequence : EventSequence
  previousEvent : Option EventId
  runId : RunId
  revision : RevisionTuple
  priorStateDigest : Sha256Digest
  successorStateDigest : Sha256Digest
  kind : OrchestratorEventKind
deriving DecidableEq

structure OrchestratorTransition where
  event : OrchestratorEvent
  state : OrchestratorState
deriving DecidableEq

end Peritus.Orchestrator.Command
