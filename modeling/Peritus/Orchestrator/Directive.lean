import Peritus.Orchestrator.Child

/-!
What the orchestrator asks of its children and what it concludes: directives
and their payloads, the reconciliation a pause is committed with, acceptance
certificates and terminal facts.
-/

namespace Peritus.Orchestrator.Directive

open Peritus.Types Bytes Checked SortedTable Material Child
open Peritus.Scheduler.Canonical
  (encodeId encodeDigest encodeLen encodeRevision)
open Scheduler.Limits (WorkId)
open Scheduler.State (zeroDigest)
open Collaboration.Limits (CollaborationTaskId)
open Collaboration.Task (u16Max)

/-! ### Directives -/

inductive DirectiveDestination
  | scheduler
  | collaboration
  | agent
  | gates
  | review
  | qualityEvaluator
  | kernel
deriving DecidableEq

def DirectiveDestination.tag : DirectiveDestination → Nat
  | .scheduler => 1
  | .collaboration => 2
  | .agent => 3
  | .gates => 4
  | .review => 5
  | .qualityEvaluator => 6
  | .kernel => 7

inductive DirectiveKind
  | startWriter
  | startGates
  | startReview
  | startFixer
  | evaluateAcceptance
  | finalizeChildren
  | beginKernelAcceptance
  | evaluateKernelAcceptance
  | pauseChildren
  | resumeChildren
  | cancelChildren
deriving DecidableEq

def DirectiveKind.tag : DirectiveKind → Nat
  | .startWriter => 1
  | .startGates => 2
  | .startReview => 3
  | .startFixer => 4
  | .evaluateAcceptance => 5
  | .finalizeChildren => 6
  | .beginKernelAcceptance => 7
  | .evaluateKernelAcceptance => 8
  | .pauseChildren => 9
  | .cancelChildren => 10
  | .resumeChildren => 11

inductive DirectiveDeliveryState
  | ready
  | published
  | acknowledged
deriving DecidableEq

def DirectiveDeliveryState.tag : DirectiveDeliveryState → Nat
  | .ready => 1
  | .published => 2
  | .acknowledged => 3

@[ext]
structure PendingDirective where
  id : DirectiveId
  destination : DirectiveDestination
  kind : DirectiveKind
  payloadDigest : Sha256Digest
  maximumDeliveries : Nat
  deliveries : Nat
  deliveryState : DirectiveDeliveryState
  sourceEvent : EventId
  taskId : Option CollaborationTaskId
  workId : Option WorkId
  revision : RevisionTuple
  maximumBound : maximumDeliveries ≤ u16Max

instance : DecidableEq PendingDirective := fun _ _ =>
  decidable_of_iff _ PendingDirective.ext_iff.symm

namespace PendingDirective

def canPublish (directive : PendingDirective) : Bool :=
  decide (directive.deliveryState ≠ .acknowledged) &&
    decide (directive.deliveries < directive.maximumDeliveries)

def published (directive : PendingDirective) : PendingDirective :=
  { directive with
    deliveries := directive.deliveries + 1
    deliveryState := .published }

/-- The count stays below a `u16` maximum, so that it cannot overflow. -/
def markPublished (directive : PendingDirective) :
    Except OrchestratorError PendingDirective := do
  ensure directive.canPublish
    ⟨.limitExceeded, .needsHuman,
      "directive is acknowledged or has exhausted its delivery bound"⟩
  .ok directive.published

def acknowledged (directive : PendingDirective) : PendingDirective :=
  { directive with deliveryState := .acknowledged }

def acknowledge (directive : PendingDirective) :
    Except OrchestratorError PendingDirective := do
  ensure (decide (directive.deliveryState ≠ .ready))
    ⟨.invalidTransition, .correctInput,
      "directive cannot be acknowledged before publication"⟩
  .ok directive.acknowledged

def validate (directive : PendingDirective) :
    Except OrchestratorError Unit := do
  ensure (nonzero directive.payloadDigest &&
      decide (directive.maximumDeliveries ≠ 0) &&
      decide (directive.deliveries ≤ directive.maximumDeliveries) &&
      decide (directive.taskId.isSome = directive.workId.isSome))
    (reject .invalidInput
      "directive contains invalid digest, bounds, or D3 binding")
  match directive.deliveryState with
  | .ready =>
      ensure (decide (directive.deliveries = 0))
        (reject .invalidInput "ready directive already records a publication")
  | .published | .acknowledged =>
      ensure (decide (directive.deliveries ≠ 0))
        (reject .invalidInput "delivered directive has no publication count")

/-- A new directive is ready and undelivered. -/
def new (id : DirectiveId) (destination : DirectiveDestination)
    (kind : DirectiveKind) (payloadDigest : Sha256Digest)
    (maximumDeliveries : Nat) (sourceEvent : EventId)
    (taskId : Option CollaborationTaskId) (workId : Option WorkId)
    (revision : RevisionTuple) (maximumBound : maximumDeliveries ≤ u16Max) :
    PendingDirective :=
  { id, destination, kind, payloadDigest, maximumDeliveries
    deliveries := 0
    deliveryState := .ready
    sourceEvent, taskId, workId, revision, maximumBound }

end PendingDirective

/-! ### Pause checkpoints -/

structure ResumeReconciliation where
  checkpointStateDigest : Sha256Digest
  childHeads : List ChildHead
deriving DecidableEq

def ResumeReconciliation.validateShape
    (reconciliation : ResumeReconciliation) : Except OrchestratorError Unit :=
  ensure (nonzero reconciliation.checkpointStateDigest &&
      ascending (fun head => head.aggregate.tag) reconciliation.childHeads &&
      reconciliation.childHeads.all fun head =>
        nonzero head.stateDigest && head.terminal.isNone)
    ⟨.bindingMismatch, .quarantine,
      "pause/resume reconciliation is invalid or noncanonical"⟩

/-! ### Payloads -/

inductive DirectivePayloadBinding
  | handoff (handoff : Handoff)
  | qualityCycle (cycle : QualityCycleBinding)
  | reconciliation (reconciliation : ResumeReconciliation)
  | cancellation (cause : Sha256Digest)

/-- The kind of payload each directive carries. -/
def payloadFits : DirectiveKind → DirectivePayloadBinding → Bool
  | .startWriter, .handoff _ | .startReview, .handoff _
  | .startFixer, .handoff _ => true
  | .startGates, .qualityCycle _ | .finalizeChildren, .qualityCycle _ => true
  | .pauseChildren, .reconciliation _
  | .resumeChildren, .reconciliation _ => true
  | .cancelChildren, .cancellation _ => true
  | _, _ => false

def encodePayload : DirectivePayloadBinding → List UInt8
  | .handoff handoff => encodeDigest handoff.digest
  | .qualityCycle cycle => encodeDigest cycle.digest
  | .reconciliation reconciliation =>
      encodeDigest reconciliation.checkpointStateDigest
        ++ encodeLen reconciliation.childHeads.length
        ++ reconciliation.childHeads.flatMap fun head =>
          beBytes 1 head.aggregate.tag ++ beBytes 8 head.sequence.get
            ++ encodeId head.lastEventId ++ encodeDigest head.stateDigest
  | .cancellation cause => encodeDigest cause

/-! ### Acceptance certificates -/

structure KernelAcceptancePlan where
  beginCommandId : CommandId
  beginEventId : EventId
  expectedPreviousKernelEvent : Option EventId
  evaluateCommandId : CommandId
  evaluateEventId : EventId
deriving DecidableEq

namespace KernelAcceptancePlan

def validate (plan : KernelAcceptancePlan) : Except OrchestratorError Unit :=
  ensure (decide (plan.beginCommandId ≠ plan.evaluateCommandId) &&
      decide (plan.beginEventId ≠ plan.evaluateEventId))
    ⟨.bindingMismatch, .quarantine,
      "B0 acceptance plan reuses a command or event identity"⟩

def evaluatePreviousEventId (plan : KernelAcceptancePlan) : EventId :=
  plan.beginEventId

end KernelAcceptancePlan

structure AcceptanceCertificate where
  contractId : AcceptanceSpecId
  contractDigest : Sha256Digest
  orchestratorBindingDigest : Sha256Digest
  revision : RevisionTuple
  candidateBindingDigest : Sha256Digest
  gateStateDigest : Sha256Digest
  reviewStateDigest : Sha256Digest
  evidenceDigest : Sha256Digest
  evaluationRequestDigest : Sha256Digest
  decisionDigest : Sha256Digest
  maximumGateAttempts : Nat
  maximumReviewCycles : Nat
  kernelPlan : KernelAcceptancePlan
  digest : Sha256Digest
deriving DecidableEq

def encodeEventOption : Option EventId → List UInt8
  | none => beBytes 1 0
  | some event => beBytes 1 1 ++ encodeId event

def encodeCertificateFields (certificate : AcceptanceCertificate) :
    List UInt8 :=
  encodeId certificate.contractId ++ encodeDigest certificate.contractDigest
    ++ encodeDigest certificate.orchestratorBindingDigest
    ++ encodeRevision certificate.revision
    ++ encodeDigest certificate.candidateBindingDigest
    ++ encodeDigest certificate.gateStateDigest
    ++ encodeDigest certificate.reviewStateDigest
    ++ encodeDigest certificate.evidenceDigest
    ++ encodeDigest certificate.evaluationRequestDigest
    ++ encodeDigest certificate.decisionDigest
    ++ beBytes 2 certificate.maximumGateAttempts
    ++ beBytes 2 certificate.maximumReviewCycles
    ++ encodeId certificate.kernelPlan.beginCommandId
    ++ encodeId certificate.kernelPlan.beginEventId
    ++ encodeEventOption certificate.kernelPlan.expectedPreviousKernelEvent
    ++ encodeId certificate.kernelPlan.evaluateCommandId
    ++ encodeId certificate.kernelPlan.evaluateEventId

/-! ### Terminal facts -/

inductive OrchestratorTerminalKind
  | accepted
  | rejected
  | failed
  | exhausted
  | needsHuman
  | cancelled
deriving DecidableEq

def OrchestratorTerminalKind.tag : OrchestratorTerminalKind → Nat
  | .accepted => 1
  | .rejected => 2
  | .failed => 3
  | .exhausted => 4
  | .needsHuman => 5
  | .cancelled => 6

inductive TerminalCause
  | kernelAccepted
  | explicitRejection
  | explicitFailure
  | explicitExhaustion
  | writerFailed
  | fixerFailed
  | gateCandidateFailed
  | gateInfrastructureFailed
  | reviewFailed
  | reviewNeedsHuman
  | reviewOscillation
  | acceptanceEvaluationFailed
  | kernelAcceptanceFailed
  | coordinationFailed
  | kernelNeedsChanges
  | writerLimit
  | fixerLimit
  | gateLimit
  | reviewLimit
  | revisionLimit
  | handoffLimit
  | directiveLimit
  | observationLimit
  | childAmbiguous
  | cancellationReconciled
deriving DecidableEq

namespace TerminalCause

def terminalKind : TerminalCause → OrchestratorTerminalKind
  | .kernelAccepted => .accepted
  | .explicitRejection | .gateCandidateFailed => .rejected
  | .explicitFailure | .writerFailed | .fixerFailed
  | .gateInfrastructureFailed | .reviewFailed | .acceptanceEvaluationFailed
  | .kernelAcceptanceFailed | .coordinationFailed => .failed
  | .explicitExhaustion | .writerLimit | .fixerLimit | .gateLimit
  | .reviewLimit | .revisionLimit | .handoffLimit | .directiveLimit
  | .observationLimit => .exhausted
  | .reviewNeedsHuman | .reviewOscillation | .kernelNeedsChanges
  | .childAmbiguous => .needsHuman
  | .cancellationReconciled => .cancelled

def tag : TerminalCause → Nat
  | .kernelAccepted => 1
  | .explicitRejection => 2
  | .explicitFailure => 3
  | .explicitExhaustion => 4
  | .writerFailed => 5
  | .fixerFailed => 6
  | .gateCandidateFailed => 7
  | .gateInfrastructureFailed => 8
  | .reviewFailed => 9
  | .reviewNeedsHuman => 10
  | .reviewOscillation => 11
  | .acceptanceEvaluationFailed => 12
  | .kernelAcceptanceFailed => 13
  | .coordinationFailed => 14
  | .kernelNeedsChanges => 15
  | .writerLimit => 16
  | .fixerLimit => 17
  | .gateLimit => 18
  | .reviewLimit => 19
  | .revisionLimit => 20
  | .handoffLimit => 21
  | .directiveLimit => 22
  | .observationLimit => 23
  | .childAmbiguous => 24
  | .cancellationReconciled => 25

end TerminalCause

structure OrchestratorTerminal where
  kind : OrchestratorTerminalKind
  cause : TerminalCause
  causeDigest : Sha256Digest
  revision : RevisionTuple
  digest : Sha256Digest
deriving DecidableEq

section Hash

variable (sha256 : List UInt8 → Sha256Digest)

def directivePayloadDigest (kind : DirectiveKind)
    (destination : DirectiveDestination) (binding : DirectivePayloadBinding) :
    Except OrchestratorError Sha256Digest := do
  ensure (payloadFits kind binding)
    (reject .invalidInput "directive kind and payload binding differ")
  match binding with
  | .cancellation cause =>
      ensure (nonzero cause)
        (reject .invalidInput
          "cancellation directive cause digest must be nonzero")
  | _ => .ok ()
  .ok (sha256 ("peritus.orchestrator.directive-payload.v1\x00".toUTF8.toList
    ++ beBytes 1 kind.tag ++ beBytes 1 destination.tag
    ++ encodePayload binding))

def evaluationRequestDigest (certificate : AcceptanceCertificate) :
    Sha256Digest :=
  sha256 ("peritus.orchestrator.acceptance-evaluation-request.v1\x00".toUTF8.toList
    ++ encodeId certificate.contractId
    ++ encodeDigest certificate.contractDigest
    ++ encodeDigest certificate.orchestratorBindingDigest
    ++ encodeRevision certificate.revision
    ++ encodeDigest certificate.candidateBindingDigest
    ++ encodeDigest certificate.gateStateDigest
    ++ encodeDigest certificate.reviewStateDigest
    ++ encodeDigest certificate.evidenceDigest)

def certificateDigest (certificate : AcceptanceCertificate) : Sha256Digest :=
  sha256 ("peritus.orchestrator.acceptance-certificate.v1\x00".toUTF8.toList
    ++ encodeCertificateFields certificate)

namespace AcceptanceCertificate

def validate (certificate : AcceptanceCertificate) :
    Except OrchestratorError Unit := do
  ensure (decide (certificate.contractId =
        certificate.revision.acceptanceSpecId) &&
      decide (certificate.maximumGateAttempts ≠ 0) &&
      decide (certificate.maximumReviewCycles ≠ 0) &&
      decide (certificate.evaluationRequestDigest =
        Directive.evaluationRequestDigest sha256 certificate) &&
      decide (certificate.digest = certificateDigest sha256 certificate))
    ⟨.bindingMismatch, .quarantine,
      "decoded acceptance certificate is inconsistent"⟩
  certificate.kernelPlan.validate

def beginPayloadDigest (certificate : AcceptanceCertificate) : Sha256Digest :=
  sha256 ("peritus.orchestrator.kernel-directive.v1\x00".toUTF8.toList
    ++ beBytes 1 1 ++ encodeDigest certificate.digest
    ++ encodeRevision certificate.revision
    ++ encodeId certificate.kernelPlan.beginCommandId
    ++ encodeId certificate.kernelPlan.beginEventId
    ++ encodeEventOption certificate.kernelPlan.expectedPreviousKernelEvent)

def evaluatePayloadDigest (certificate : AcceptanceCertificate) :
    Sha256Digest :=
  sha256 ("peritus.orchestrator.kernel-directive.v1\x00".toUTF8.toList
    ++ beBytes 1 2 ++ encodeDigest certificate.digest
    ++ encodeRevision certificate.revision
    ++ encodeId certificate.kernelPlan.evaluateCommandId
    ++ encodeId certificate.kernelPlan.evaluateEventId
    ++ encodeId certificate.kernelPlan.evaluatePreviousEventId)

end AcceptanceCertificate

def terminalDigest (kind : OrchestratorTerminalKind) (cause : TerminalCause)
    (causeDigest : Sha256Digest) (revision : RevisionTuple) : Sha256Digest :=
  sha256 ("peritus.orchestrator.terminal.v1".toUTF8.toList
    ++ beBytes 1 kind.tag ++ beBytes 1 cause.tag ++ encodeDigest causeDigest
    ++ encodeRevision revision)

namespace OrchestratorTerminal

def new (cause : TerminalCause) (causeDigest : Sha256Digest)
    (revision : RevisionTuple) :
    Except OrchestratorError OrchestratorTerminal := do
  ensure (nonzero causeDigest)
    (reject .invalidInput "terminal cause digest must be nonzero")
  .ok
    { kind := cause.terminalKind
      cause, causeDigest, revision
      digest := terminalDigest sha256 cause.terminalKind cause causeDigest
        revision }

def validate (terminal : OrchestratorTerminal) :
    Except OrchestratorError Unit :=
  ensure (nonzero terminal.causeDigest &&
      decide (terminal.kind = terminal.cause.terminalKind) &&
      decide (terminal.digest = terminalDigest sha256 terminal.kind
        terminal.cause terminal.causeDigest terminal.revision))
    (reject .invalidInput "terminal fact is inconsistent or noncanonical")

end OrchestratorTerminal

end Hash

end Peritus.Orchestrator.Directive
