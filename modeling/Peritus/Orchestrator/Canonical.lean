import Peritus.Collaboration.Canonical
import Peritus.Orchestrator.State

/-!
The canonical bytes of an orchestrator state, and the digest taken of them.
-/

namespace Peritus.Orchestrator.Canonical

open Peritus.Types Bytes Material Child Directive State
open Policy (ActorRole)
open Peritus.Scheduler.Canonical
  (encodeId encodeDigest encodeOption encodeRevision)
open Scheduler.State (zeroDigest)
open Collaboration.Canonical (roleTag encodeBool)
open Review.Disposition (DispositionKind)

/-! ### Tags -/

def actorRoleTag : ActorRole → Nat
  | .writer => 1
  | .fixer => 2
  | .reviewer => 3
  | .evaluator => 4
  | .gateRunner => 5
  | .orchestrator => 6
  | .evolutionAgent => 7
  | .humanAuthority => 8
  | .daemonService => 9
  | .providerToolWorker => 10
  | .plugin => 11

def childTerminalTag : ChildTerminalClass → Nat
  | .completed => 1
  | .failed => 2
  | .cancelled => 3
  | .indeterminate => 4
  | .needsHuman => 5
  | .needsChanges => 6
  | .accepted => 7

def cancellationClassificationTag : CancellationClassificationKind → Nat
  | .unreachable => 1
  | .ambiguous => 2

def gateClassTag : GateObservationClass → Nat
  | .passed => 1
  | .candidateFailed => 2
  | .infrastructureFailed => 3
  | .cancelled => 4
  | .indeterminate => 5

def reviewClassTag : ReviewObservationClass → Nat
  | .needsFix => 1
  | .completed => 2
  | .needsHuman => 3
  | .failed => 4
  | .cancelled => 5

def kernelOutcomeTag : KernelAcceptanceOutcome → Nat
  | .begun => 1
  | .accepted => 2
  | .needsChanges => 3
  | .cancelled => 4

def dispositionTag : DispositionKind → Nat
  | .fixed => 1
  | .disputed => 2
  | .supersessionProposed => 3
  | .waiverRequested => 4
  | _ => 0

/-! ### Records -/

def encodeCount (count : Nat) : List UInt8 :=
  beBytes 4 count

def encodeList {α : Type} (encode : α → List UInt8) (values : List α) :
    List UInt8 :=
  encodeCount values.length ++ values.flatMap encode

def encodeBinding (binding : OrchestratorBinding) : List UInt8 :=
  encodeBindingFields binding ++ encodeDigest binding.digest

def encodeQualityCycle (cycle : QualityCycleBinding) : List UInt8 :=
  encodeQualityCycleFields cycle ++ encodeDigest cycle.digest

def encodeAssignment (assignment : RoleAssignment) : List UInt8 :=
  encodeId assignment.actor ++ beBytes 1 (actorRoleTag assignment.actorRole)
    ++ beBytes 1 (roleTag assignment.harnessRole)

def encodeOwnership (ownership : RoleOwnership) : List UInt8 :=
  encodeId ownership.serviceActor
    ++ beBytes 1 (actorRoleTag ownership.serviceRole)
    ++ encodeAssignment ownership.writer ++ encodeAssignment ownership.fixer
    ++ encodeList encodeAssignment ownership.reviewers

def encodePhase : OrchestratorPhase → List UInt8
  | .active phase => beBytes 1 1 ++ beBytes 1 (activePhaseTag phase)
  | .paused phase => beBytes 1 2 ++ beBytes 1 (activePhaseTag phase)
  | .cancelling => beBytes 1 3
  | .terminal => beBytes 1 4

def encodeCandidate (candidate : CandidateBinding) : List UInt8 :=
  encodeRevision candidate.revision ++ encodeId candidate.snapshotId
    ++ encodeDigest candidate.candidateDigest
    ++ encodeDigest candidate.treeDigest
    ++ encodeDigest candidate.qualitySnapshotDigest
    ++ encodeOption candidate.artifactId encodeId
    ++ encodeOption candidate.artifactDigest encodeDigest
    ++ encodeList encodeId candidate.producerActors
    ++ encodeList encodeDigest candidate.producerAncestries
    ++ encodeDigest candidate.digest

def encodeHandoff (handoff : Handoff) : List UInt8 :=
  encodeId handoff.id ++ beBytes 1 handoff.kind.tag
    ++ encodeOption handoff.sourcePhase
      (fun phase => beBytes 1 (activePhaseTag phase))
    ++ beBytes 1 handoff.sourceRole.tag
    ++ beBytes 1 (activePhaseTag handoff.destinationPhase)
    ++ encodeId handoff.sourceActor ++ encodeId handoff.destinationActor
    ++ beBytes 1 handoff.destinationRole.tag
    ++ encodeCandidate handoff.candidate
    ++ encodeOption handoff.turnId encodeId ++ encodeId handoff.taskId
    ++ encodeId handoff.workId
    ++ encodeList encodeDigest handoff.artifactInputs
    ++ encodeList encodeDigest handoff.evidenceInputs
    ++ encodeList encodeId handoff.blockingFindings
    ++ encodeDigest handoff.digest

def encodeDirective (directive : PendingDirective) : List UInt8 :=
  encodeId directive.id ++ beBytes 1 directive.destination.tag
    ++ beBytes 1 directive.kind.tag ++ encodeDigest directive.payloadDigest
    ++ beBytes 2 directive.maximumDeliveries
    ++ beBytes 2 directive.deliveries
    ++ beBytes 1 directive.deliveryState.tag
    ++ encodeId directive.sourceEvent
    ++ encodeOption directive.taskId encodeId
    ++ encodeOption directive.workId encodeId
    ++ encodeRevision directive.revision

def encodeHead (head : ChildHead) : List UInt8 :=
  beBytes 1 head.aggregate.tag ++ beBytes 8 head.sequence.get
    ++ encodeId head.lastEventId ++ encodeDigest head.stateDigest
    ++ encodeOption head.terminal
      (fun terminal => beBytes 1 (childTerminalTag terminal))

def encodeReconciliation (reconciliation : ResumeReconciliation) :
    List UInt8 :=
  encodeDigest reconciliation.checkpointStateDigest
    ++ encodeList encodeHead reconciliation.childHeads

def encodeCertificate (certificate : AcceptanceCertificate) : List UInt8 :=
  encodeCertificateFields certificate ++ encodeDigest certificate.digest

def encodeTerminal (terminal : OrchestratorTerminal) : List UInt8 :=
  beBytes 1 terminal.kind.tag ++ beBytes 1 terminal.cause.tag
    ++ encodeDigest terminal.causeDigest ++ encodeRevision terminal.revision
    ++ encodeDigest terminal.digest

/-! ### Observations -/

def encodeAgent (value : AgentChildObservation) : List UInt8 :=
  encodeId value.handoffId ++ encodeId value.taskId ++ encodeId value.workId
    ++ encodeId value.turnId ++ encodeId value.runId ++ encodeId value.actor
    ++ encodeId value.attemptId ++ beBytes 1 (roleTag value.role)
    ++ encodeRevision value.revision
    ++ encodeOption value.proposalDigest encodeDigest
    ++ encodeList
      (fun response => encodeId response.findingId
        ++ encodeDigest response.responseDigest) value.fixerResponses
    ++ encodeHead value.head

def encodeGate (value : GateChildObservation) : List UInt8 :=
  encodeId value.runId ++ encodeId value.gateRunId
    ++ encodeRevision value.revision ++ encodeDigest value.planDigest
    ++ encodeDigest value.snapshotDigest
    ++ encodeDigest value.evidenceDigest
    ++ beBytes 1 (gateClassTag value.gateClass) ++ encodeHead value.head

def encodeReview (value : ReviewChildObservation) : List UInt8 :=
  encodeId value.runId ++ encodeRevision value.revision
    ++ encodeDigest value.bindingDigest ++ encodeBool value.quorumComplete
    ++ encodeList encodeId value.unconservedFindings
    ++ beBytes 1 (reviewClassTag value.reviewClass) ++ encodeHead value.head

def encodeReviewFixer (value : ReviewFixerObservation) : List UInt8 :=
  encodeId value.handoffId ++ encodeId value.runId
    ++ encodeRevision value.revision ++ encodeDigest value.bindingDigest
    ++ encodeList
      (fun record => encodeId record.findingId
        ++ beBytes 1 (dispositionTag record.kind) ++ encodeId record.actor
        ++ encodeDigest record.responseDigest) value.records
    ++ encodeHead value.head

def encodeActivation (value : HandoffActivationObservation) : List UInt8 :=
  encodeId value.handoffId ++ encodeId value.taskId ++ encodeId value.workId
    ++ encodeId value.dispatchId ++ encodeId value.workerId
    ++ encodeId value.owner ++ beBytes 1 (roleTag value.role)
    ++ encodeId value.schedulerRunId ++ encodeId value.collaborationRunId
    ++ encodeRevision value.revision ++ encodeHead value.schedulerHead
    ++ encodeHead value.collaborationHead

def encodeKernel (value : KernelAcceptanceObservation) : List UInt8 :=
  encodeId value.eventId ++ encodeId value.commandId
    ++ beBytes 8 value.sequence.get ++ encodeEventOption value.previousEventId
    ++ encodeId value.runId ++ encodeRevision value.revision
    ++ beBytes 1 (kernelOutcomeTag value.outcome)

def encodeObservation : ChildObservation → List UInt8
  | .agent value => beBytes 1 1 ++ encodeAgent value
  | .gates value => beBytes 1 2 ++ encodeGate value
  | .review value => beBytes 1 3 ++ encodeReview value
  | .reviewFixer value => beBytes 1 8 ++ encodeReviewFixer value
  | .scheduler value =>
      beBytes 1 4 ++ encodeId value.runId ++ encodeRevision value.revision
        ++ encodeHead value.head
  | .collaboration value =>
      beBytes 1 5 ++ encodeId value.runId ++ encodeRevision value.revision
        ++ encodeHead value.head
  | .handoffActivation value => beBytes 1 6 ++ encodeActivation value
  | .kernelAcceptance value => beBytes 1 7 ++ encodeKernel value
  | .cancellationClassification value =>
      beBytes 1 9 ++ beBytes 1 value.aggregate.tag
        ++ encodeRevision value.revision
        ++ beBytes 1 (cancellationClassificationTag value.kind)
        ++ encodeDigest value.evidenceDigest

/-! ### States -/

def encodeCounters (counters : OrchestratorCounters) : List UInt8 :=
  beBytes 2 counters.revisions ++ beBytes 2 counters.writerCycles
    ++ beBytes 2 counters.fixerCycles ++ beBytes 2 counters.gateCycles
    ++ beBytes 2 counters.reviewCycles ++ beBytes 2 counters.handoffs
    ++ beBytes 2 counters.childDirectives
    ++ beBytes 2 counters.retainedObservations
    ++ beBytes 2 counters.cancellationReconciliations

def encodeChildren (children : List ChildAggregateKind) : List UInt8 :=
  encodeList (fun kind => beBytes 1 kind.tag) children

/-- The state with zeros where its own digest is stored.  Every collection is
far below the greatest count the writer represents, so that it never fails. -/
def canonicalStateBytes (state : OrchestratorState) : List UInt8 :=
  encodeBinding state.binding ++ encodeOwnership state.ownership
    ++ encodePhase state.phase ++ beBytes 8 state.sequence.get
    ++ encodeId state.lastEventId ++ encodeDigest zeroDigest
    ++ encodeCandidate state.currentCandidate
    ++ encodeList encodeCandidate state.candidateHistory
    ++ encodeQualityCycle state.currentQualityCycle
    ++ encodeList encodeQualityCycle state.qualityCycleHistory
    ++ encodeOption state.proposedCandidate encodeCandidate
    ++ encodeCounters state.counters
    ++ encodeList encodeHandoff state.handoffs
    ++ encodeOption state.openHandoff encodeHandoff
    ++ encodeList encodeActivation state.activations
    ++ encodeList encodeObservation state.observations
    ++ encodeChildren state.activeChildren
    ++ encodeOption state.pendingDirective encodeDirective
    ++ encodeOption state.acceptanceCertificate encodeCertificate
    ++ encodeOption state.cancellationCause encodeDigest
    ++ encodeList encodeId state.usedCommands
    ++ encodeOption state.terminal encodeTerminal
    ++ encodeOption state.pendingTerminal encodeTerminal
    ++ encodeOption state.pausedReconciliation encodeReconciliation
    ++ encodeChildren state.pausedChildren

def stateDigest (sha256 : List UInt8 → Sha256Digest)
    (state : OrchestratorState) : Sha256Digest :=
  sha256 ("peritus.orchestrator.state.v1\x00".toUTF8.toList
    ++ canonicalStateBytes state)

end Peritus.Orchestrator.Canonical
