import Peritus.Policy
import Peritus.Collaboration.Task
import Peritus.Scheduler.Canonical

/-!
The immutable material of an orchestrated run: limits, the run's binding, its
candidates, their quality cycles, the principals and the handoffs between them.
Every record names its own content by a digest, and is validated against it
again whenever it is used.
-/

namespace Peritus.Orchestrator.Material

open Peritus.Types Bytes Checked SortedTable
open Policy (ActorRole)
open Peritus.Scheduler.Canonical
  (encodeId encodeDigest encodeOption encodeRevision)
open Scheduler.Limits (SchedulerId WorkId)
open Scheduler.State (zeroDigest)
open Collaboration.Limits (CollaborationId CollaborationTaskId)
open Collaboration.Task (HarnessRole u16Max)

abbrev OrchestratorId := OpaqueIdentifier
abbrev HandoffId := OpaqueIdentifier
abbrev DirectiveId := OpaqueIdentifier
abbrev SnapshotId := OpaqueIdentifier

/-! ### Errors -/

inductive OrchestratorErrorKind
  | invalidInput
  | invalidTransition
  | staleState
  | bindingMismatch
  | limitExceeded
  | nonCanonical
  | codec
  | conflict
  | missingCheckpoint
  | integrity
  | childAmbiguous
  | external
deriving DecidableEq

inductive OrchestratorRecoveryAction
  | correctInput
  | replay
  | reconcileChild
  | retryDelivery
  | needsHuman
  | quarantine
deriving DecidableEq

structure OrchestratorError where
  kind : OrchestratorErrorKind
  recovery : OrchestratorRecoveryAction
  detail : String
deriving DecidableEq

def reject (kind : OrchestratorErrorKind) (detail : String) :
    OrchestratorError :=
  ⟨kind, .correctInput, detail⟩

def nonzero (digest : Sha256Digest) : Bool :=
  decide (digest ≠ zeroDigest)

/-! ### Limits -/

structure OrchestratorLimits where
  revisions : Nat
  writerCycles : Nat
  fixerCycles : Nat
  gateCycles : Nat
  reviewCycles : Nat
  handoffs : Nat
  childDirectives : Nat
  retainedObservations : Nat
  artifactReferences : Nat
  cancellationReconciliations : Nat
  eventBytes : Nat
  stateBytes : Nat
deriving DecidableEq

namespace OrchestratorLimits

def maxGateCycles : Nat := 1024

def maxReviewCycles : Nat := 1024

/-- Each limit beside its compiled ceiling. -/
def checks (limits : OrchestratorLimits) : List (Nat × Nat) :=
  [(limits.revisions, 256),
   (limits.writerCycles, 256),
   (limits.fixerCycles, 256),
   (limits.gateCycles, maxGateCycles),
   (limits.reviewCycles, maxReviewCycles),
   (limits.handoffs, 4096),
   (limits.childDirectives, 4096),
   (limits.retainedObservations, 8192),
   (limits.artifactReferences, 1024),
   (limits.cancellationReconciliations, 4096),
   (limits.eventBytes, 16 * 1048576 - 16),
   (limits.stateBytes, 16 * 1048576 - 16)]

def validate (limits : OrchestratorLimits) : Except OrchestratorError Unit :=
  ensure (limits.checks.all fun check =>
      decide (0 < check.1) && decide (check.1 ≤ check.2))
    (reject .limitExceeded
      "orchestrator limit is zero or exceeds its compiled ceiling")

end OrchestratorLimits

/-! ### Phases and roles -/

inductive ActivePhase
  | writerPending
  | writerActive
  | gatesPending
  | gatesActive
  | reviewPending
  | reviewActive
  | fixerPending
  | fixerActive
  | revisionAdvancing
  | evaluatingAcceptance
  | kernelAcceptancePending
deriving DecidableEq

def activePhaseTag : ActivePhase → Nat
  | .writerPending => 1
  | .writerActive => 2
  | .gatesPending => 3
  | .gatesActive => 4
  | .reviewPending => 5
  | .reviewActive => 6
  | .fixerPending => 7
  | .fixerActive => 8
  | .revisionAdvancing => 9
  | .evaluatingAcceptance => 10
  | .kernelAcceptancePending => 11

inductive HandoffKind
  | writer
  | reviewer
  | fixer
deriving DecidableEq

inductive HandoffRole
  | orchestrator
  | writer
  | reviewer
  | fixer
deriving DecidableEq

namespace HandoffKind

def sourcePhase : HandoffKind → Option ActivePhase
  | .writer => none
  | .reviewer => some .gatesActive
  | .fixer => some .reviewActive

def sourceRole : HandoffKind → HandoffRole
  | .writer | .reviewer => .orchestrator
  | .fixer => .reviewer

def destinationRole : HandoffKind → HandoffRole
  | .writer => .writer
  | .reviewer => .reviewer
  | .fixer => .fixer

def destinationPhase : HandoffKind → ActivePhase
  | .writer => .writerPending
  | .reviewer => .reviewPending
  | .fixer => .fixerPending

def tag : HandoffKind → Nat
  | .writer => 1
  | .reviewer => 2
  | .fixer => 3

end HandoffKind

namespace HandoffRole

def harnessRole : HandoffRole → Option HarnessRole
  | .orchestrator => none
  | .writer => some .writer
  | .reviewer => some .reviewer
  | .fixer => some .fixer

def tag : HandoffRole → Nat
  | .orchestrator => 1
  | .writer => 2
  | .reviewer => 3
  | .fixer => 4

end HandoffRole

/-- The authority role a harness role runs under. -/
def actorRole : HarnessRole → ActorRole
  | .writer => .writer
  | .reviewer => .reviewer
  | .fixer => .fixer
  | .evaluator => .evaluator
  | .evolver => .evolutionAgent

/-! ### Principals -/

structure RoleAssignment where
  actor : ActorId
  actorRole : ActorRole
  harnessRole : HarnessRole
deriving DecidableEq

structure RoleOwnership where
  serviceActor : ActorId
  serviceRole : ActorRole
  writer : RoleAssignment
  fixer : RoleAssignment
  reviewers : List RoleAssignment
deriving DecidableEq

def RoleAssignment.validate (assignment : RoleAssignment) :
    Except OrchestratorError Unit :=
  ensure (decide (assignment.actorRole =
      Material.actorRole assignment.harnessRole))
    (reject .bindingMismatch
      "B1 actor role differs from its canonical C6 harness role")

namespace RoleOwnership

def validate (ownership : RoleOwnership) (limits : OrchestratorLimits) :
    Except OrchestratorError Unit := do
  ownership.writer.validate
  ownership.fixer.validate
  forEach RoleAssignment.validate ownership.reviewers
  let fixedRoles := decide (ownership.serviceRole = .orchestrator) &&
    decide (ownership.writer.harnessRole = .writer) &&
    decide (ownership.fixer.harnessRole = .fixer) &&
    ownership.reviewers.all fun reviewer =>
      decide (reviewer.harnessRole = .reviewer) &&
        decide (reviewer.actorRole = .reviewer)
  let principalsSeparate :=
    decide (ownership.serviceActor ≠ ownership.writer.actor) &&
      decide (ownership.serviceActor ≠ ownership.fixer.actor) &&
      decide (ownership.writer.actor ≠ ownership.fixer.actor)
  let reviewersValid := !ownership.reviewers.isEmpty &&
    decide (ownership.reviewers.length ≤ limits.childDirectives) &&
    ascending RoleAssignment.actor ownership.reviewers &&
    ownership.reviewers.all fun reviewer =>
      decide (reviewer.actor ≠ ownership.serviceActor) &&
        decide (reviewer.actor ≠ ownership.writer.actor) &&
        decide (reviewer.actor ≠ ownership.fixer.actor)
  ensure (fixedRoles && principalsSeparate && reviewersValid)
    (reject .bindingMismatch
      "orchestrator role mappings or principals are mismatched, duplicated, or oversized")

def reviewer (ownership : RoleOwnership) (actor : ActorId) :
    Option RoleAssignment :=
  lookup RoleAssignment.actor actor ownership.reviewers

end RoleOwnership

/-! ### The run's binding -/

structure OrchestratorBinding where
  id : OrchestratorId
  runId : RunId
  attemptId : AttemptId
  contractId : AcceptanceSpecId
  contractDigest : Sha256Digest
  initialRevision : RevisionTuple
  initialGateRunId : RunId
  initialSchedulerRunId : RunId
  initialCollaborationRunId : RunId
  contractGateCycles : Nat
  contractReviewCycles : Nat
  gatePlanDigest : Sha256Digest
  reviewBindingDigest : Sha256Digest
  schedulerId : SchedulerId
  schedulerBindingDigest : Sha256Digest
  collaborationId : CollaborationId
  collaborationBindingDigest : Sha256Digest
  limits : OrchestratorLimits
  digest : Sha256Digest
deriving DecidableEq

def encodeLimits (limits : OrchestratorLimits) : List UInt8 :=
  beBytes 2 limits.revisions ++ beBytes 2 limits.writerCycles
    ++ beBytes 2 limits.fixerCycles ++ beBytes 2 limits.gateCycles
    ++ beBytes 2 limits.reviewCycles ++ beBytes 2 limits.handoffs
    ++ beBytes 2 limits.childDirectives
    ++ beBytes 2 limits.retainedObservations
    ++ beBytes 2 limits.artifactReferences
    ++ beBytes 2 limits.cancellationReconciliations
    ++ beBytes 8 limits.eventBytes ++ beBytes 8 limits.stateBytes

/-- Everything but the binding's own digest. -/
def encodeBindingFields (binding : OrchestratorBinding) : List UInt8 :=
  encodeId binding.id ++ encodeId binding.runId ++ encodeId binding.attemptId
    ++ encodeId binding.contractId ++ encodeDigest binding.contractDigest
    ++ encodeRevision binding.initialRevision
    ++ encodeId binding.initialGateRunId
    ++ encodeId binding.initialSchedulerRunId
    ++ encodeId binding.initialCollaborationRunId
    ++ beBytes 2 binding.contractGateCycles
    ++ beBytes 2 binding.contractReviewCycles
    ++ encodeDigest binding.gatePlanDigest
    ++ encodeDigest binding.reviewBindingDigest
    ++ encodeId binding.schedulerId
    ++ encodeDigest binding.schedulerBindingDigest
    ++ encodeId binding.collaborationId
    ++ encodeDigest binding.collaborationBindingDigest
    ++ encodeLimits binding.limits

namespace OrchestratorBinding

def effectiveGateCycles (binding : OrchestratorBinding) : Nat :=
  if binding.contractGateCycles < binding.limits.gateCycles then
    binding.contractGateCycles
  else binding.limits.gateCycles

def effectiveReviewCycles (binding : OrchestratorBinding) : Nat :=
  if binding.contractReviewCycles < binding.limits.reviewCycles then
    binding.contractReviewCycles
  else binding.limits.reviewCycles

end OrchestratorBinding

/-! ### Quality cycles -/

/-- The child runs that judge one candidate. -/
structure QualityCycleBinding where
  revision : RevisionTuple
  gateRunId : RunId
  schedulerRunId : RunId
  collaborationRunId : RunId
  gatePlanDigest : Sha256Digest
  reviewBindingDigest : Sha256Digest
  schedulerId : SchedulerId
  schedulerBindingDigest : Sha256Digest
  collaborationId : CollaborationId
  collaborationBindingDigest : Sha256Digest
  digest : Sha256Digest
deriving DecidableEq

def encodeQualityCycleFields (cycle : QualityCycleBinding) : List UInt8 :=
  encodeRevision cycle.revision ++ encodeId cycle.gateRunId
    ++ encodeId cycle.schedulerRunId ++ encodeId cycle.collaborationRunId
    ++ encodeDigest cycle.gatePlanDigest
    ++ encodeDigest cycle.reviewBindingDigest ++ encodeId cycle.schedulerId
    ++ encodeDigest cycle.schedulerBindingDigest
    ++ encodeId cycle.collaborationId
    ++ encodeDigest cycle.collaborationBindingDigest

def QualityCycleBinding.validateShape (cycle : QualityCycleBinding) :
    Except OrchestratorError Unit :=
  ensure (nonzero cycle.gatePlanDigest && nonzero cycle.reviewBindingDigest &&
      nonzero cycle.schedulerBindingDigest &&
      nonzero cycle.collaborationBindingDigest &&
      decide (cycle.gateRunId ≠ cycle.schedulerRunId) &&
      decide (cycle.gateRunId ≠ cycle.collaborationRunId) &&
      decide (cycle.schedulerRunId ≠ cycle.collaborationRunId))
    (reject .invalidInput
      "quality cycle digest is zero or child run identities are reused")

/-! ### Candidates -/

structure CandidateBinding where
  revision : RevisionTuple
  snapshotId : SnapshotId
  candidateDigest : Sha256Digest
  treeDigest : Sha256Digest
  qualitySnapshotDigest : Sha256Digest
  artifactId : Option ArtifactId
  artifactDigest : Option Sha256Digest
  producerActors : List ActorId
  producerAncestries : List Sha256Digest
  digest : Sha256Digest
deriving DecidableEq

def encodeCandidateFields (candidate : CandidateBinding) : List UInt8 :=
  encodeRevision candidate.revision ++ encodeId candidate.snapshotId
    ++ encodeDigest candidate.candidateDigest
    ++ encodeDigest candidate.treeDigest
    ++ encodeDigest candidate.qualitySnapshotDigest
    ++ encodeOption candidate.artifactId encodeId
    ++ encodeOption candidate.artifactDigest encodeDigest
    ++ beBytes 2 candidate.producerActors.length
    ++ candidate.producerActors.flatMap encodeId
    ++ beBytes 2 candidate.producerAncestries.length
    ++ candidate.producerAncestries.flatMap encodeDigest

namespace CandidateBinding

def validateShape (candidate : CandidateBinding)
    (limits : OrchestratorLimits) : Except OrchestratorError Unit :=
  let artifactPair := decide (candidate.artifactId.isSome =
    candidate.artifactDigest.isSome)
  let materialNonzero := nonzero candidate.candidateDigest &&
    nonzero candidate.treeDigest &&
    nonzero candidate.qualitySnapshotDigest &&
    candidate.artifactDigest.all nonzero
  let producersCanonical := !candidate.producerActors.isEmpty &&
    decide (candidate.producerActors.length =
      candidate.producerAncestries.length) &&
    decide (candidate.producerActors.length ≤ limits.artifactReferences) &&
    ascending OpaqueIdentifier.value candidate.producerActors &&
    candidate.producerAncestries.all nonzero
  ensure (artifactPair && materialNonzero && producersCanonical)
    (reject .nonCanonical
      "candidate artifact or producer binding is incomplete or noncanonical")

def materiallyEqual (candidate other : CandidateBinding) : Bool :=
  decide (candidate.revision = other.revision) &&
    decide (candidate.snapshotId = other.snapshotId) &&
    decide (candidate.candidateDigest = other.candidateDigest) &&
    decide (candidate.treeDigest = other.treeDigest) &&
    decide (candidate.qualitySnapshotDigest = other.qualitySnapshotDigest) &&
    decide (candidate.artifactId = other.artifactId) &&
    decide (candidate.artifactDigest = other.artifactDigest) &&
    decide (candidate.producerActors = other.producerActors) &&
    decide (candidate.producerAncestries = other.producerAncestries) &&
    decide (candidate.digest = other.digest)

def reusesMaterial (candidate other : CandidateBinding) : Bool :=
  decide (candidate.snapshotId = other.snapshotId) &&
    decide (candidate.candidateDigest = other.candidateDigest) &&
    decide (candidate.treeDigest = other.treeDigest) &&
    decide (candidate.qualitySnapshotDigest = other.qualitySnapshotDigest) &&
    decide (candidate.artifactId = other.artifactId) &&
    decide (candidate.artifactDigest = other.artifactDigest)

end CandidateBinding

/-! ### Handoffs -/

structure Handoff where
  id : HandoffId
  kind : HandoffKind
  sourcePhase : Option ActivePhase
  sourceRole : HandoffRole
  destinationPhase : ActivePhase
  sourceActor : ActorId
  destinationActor : ActorId
  destinationRole : HandoffRole
  candidate : CandidateBinding
  turnId : Option TurnId
  taskId : CollaborationTaskId
  workId : WorkId
  artifactInputs : List Sha256Digest
  evidenceInputs : List Sha256Digest
  blockingFindings : List FindingId
  digest : Sha256Digest
deriving DecidableEq

def encodeHandoffFields (handoff : Handoff) : List UInt8 :=
  encodeId handoff.id ++ beBytes 1 handoff.kind.tag
    ++ beBytes 1 ((handoff.sourcePhase.map activePhaseTag).getD 0)
    ++ beBytes 1 handoff.sourceRole.tag
    ++ beBytes 1 (activePhaseTag handoff.destinationPhase)
    ++ encodeId handoff.sourceActor ++ encodeId handoff.destinationActor
    ++ beBytes 1 handoff.destinationRole.tag
    ++ encodeDigest handoff.candidate.digest
    ++ encodeOption handoff.turnId encodeId ++ encodeId handoff.taskId
    ++ encodeId handoff.workId ++ beBytes 2 handoff.artifactInputs.length
    ++ handoff.artifactInputs.flatMap encodeDigest
    ++ beBytes 2 handoff.evidenceInputs.length
    ++ handoff.evidenceInputs.flatMap encodeDigest
    ++ beBytes 2 handoff.blockingFindings.length
    ++ handoff.blockingFindings.flatMap encodeId

section Hash

variable (sha256 : List UInt8 → Sha256Digest)

def bindingDigest (binding : OrchestratorBinding) : Sha256Digest :=
  sha256 ("peritus.orchestrator.binding.v1\x00".toUTF8.toList
    ++ encodeBindingFields binding)

def OrchestratorBinding.validate (binding : OrchestratorBinding) :
    Except OrchestratorError Unit := do
  binding.limits.validate
  let distinctChildRuns :=
    decide (binding.initialGateRunId ≠ binding.initialSchedulerRunId) &&
      decide (binding.initialGateRunId ≠ binding.initialCollaborationRunId) &&
      decide (binding.initialSchedulerRunId ≠
        binding.initialCollaborationRunId)
  ensure (distinctChildRuns &&
      decide (binding.contractId = binding.initialRevision.acceptanceSpecId) &&
      decide (binding.contractGateCycles ≠ 0) &&
      decide (binding.contractGateCycles ≤
        OrchestratorLimits.maxGateCycles) &&
      decide (binding.contractReviewCycles ≠ 0) &&
      decide (binding.contractReviewCycles ≤
        OrchestratorLimits.maxReviewCycles) &&
      nonzero binding.gatePlanDigest && nonzero binding.reviewBindingDigest &&
      nonzero binding.schedulerBindingDigest &&
      nonzero binding.collaborationBindingDigest &&
      decide (binding.digest = bindingDigest sha256 binding))
    (reject .bindingMismatch
      "orchestrator binding contract, revision, or digest differs")

def qualityCycleDigest (cycle : QualityCycleBinding) : Sha256Digest :=
  sha256 ("peritus.orchestrator.quality-cycle.v1\x00".toUTF8.toList
    ++ encodeQualityCycleFields cycle)

namespace QualityCycleBinding

def genesis (binding : OrchestratorBinding) : QualityCycleBinding :=
  let cycle : QualityCycleBinding :=
    { revision := binding.initialRevision
      gateRunId := binding.initialGateRunId
      schedulerRunId := binding.initialSchedulerRunId
      collaborationRunId := binding.initialCollaborationRunId
      gatePlanDigest := binding.gatePlanDigest
      reviewBindingDigest := binding.reviewBindingDigest
      schedulerId := binding.schedulerId
      schedulerBindingDigest := binding.schedulerBindingDigest
      collaborationId := binding.collaborationId
      collaborationBindingDigest := binding.collaborationBindingDigest
      digest := zeroDigest }
  { cycle with digest := qualityCycleDigest sha256 cycle }

def validate (cycle : QualityCycleBinding) : Except OrchestratorError Unit := do
  cycle.validateShape
  ensure (decide (cycle.digest = qualityCycleDigest sha256 cycle))
    (reject .bindingMismatch "quality cycle digest differs")

def validateForCandidate (cycle : QualityCycleBinding)
    (candidate : CandidateBinding) : Except OrchestratorError Unit := do
  cycle.validate sha256
  ensure (decide (cycle.revision = candidate.revision))
    (reject .bindingMismatch
      "quality cycle revision differs from current candidate")

end QualityCycleBinding

def candidateBindingDigest (candidate : CandidateBinding) :
    Except OrchestratorError Sha256Digest := do
  ensure (decide (candidate.producerActors.length ≤ u16Max))
    (reject .limitExceeded "candidate producer count is unrepresentable")
  ensure (decide (candidate.producerAncestries.length ≤ u16Max))
    (reject .limitExceeded "candidate ancestry count is unrepresentable")
  .ok (sha256 ("peritus.orchestrator.candidate.v1\x00".toUTF8.toList
    ++ encodeCandidateFields candidate))

def CandidateBinding.validate (candidate : CandidateBinding)
    (limits : OrchestratorLimits) : Except OrchestratorError Unit := do
  candidate.validateShape limits
  let digest ← candidateBindingDigest sha256 candidate
  ensure (decide (candidate.digest = digest))
    (reject .bindingMismatch
      "candidate binding digest differs from its canonical fields")

def handoffDigest (handoff : Handoff) :
    Except OrchestratorError Sha256Digest := do
  ensure (decide (handoff.artifactInputs.length ≤ u16Max) &&
      decide (handoff.evidenceInputs.length ≤ u16Max))
    (reject .limitExceeded "handoff input count is unrepresentable")
  ensure (decide (handoff.blockingFindings.length ≤ u16Max))
    (reject .limitExceeded "handoff finding count is unrepresentable")
  .ok (sha256 ("peritus.orchestrator.handoff.v1\x00".toUTF8.toList
    ++ encodeHandoffFields handoff))

namespace Handoff

def validateShape (handoff : Handoff) (limits : OrchestratorLimits) :
    Except OrchestratorError Unit := do
  handoff.candidate.validate sha256 limits
  let cap := limits.artifactReferences
  let collectionsValid := decide (handoff.artifactInputs.length ≤ cap) &&
    decide (handoff.evidenceInputs.length ≤ cap) &&
    decide (handoff.blockingFindings.length ≤ cap) &&
    ascending Sha256Digest.value handoff.artifactInputs &&
    ascending Sha256Digest.value handoff.evidenceInputs &&
    ascending OpaqueIdentifier.value handoff.blockingFindings
  let turnBindingValid := match handoff.kind with
    | .reviewer => handoff.turnId.isNone
    | .writer | .fixer => handoff.turnId.isSome
  let findingBindingValid := match handoff.kind with
    | .fixer => !handoff.blockingFindings.isEmpty
    | .writer | .reviewer => handoff.blockingFindings.isEmpty
  let rolePhaseValid :=
    decide (handoff.destinationRole = handoff.kind.destinationRole) &&
      decide (handoff.sourceRole = handoff.kind.sourceRole) &&
      decide (handoff.sourcePhase = handoff.kind.sourcePhase) &&
      decide (handoff.destinationPhase = handoff.kind.destinationPhase) &&
      turnBindingValid && findingBindingValid
  ensure (collectionsValid && rolePhaseValid &&
      decide (handoff.sourceActor ≠ handoff.destinationActor))
    (reject .nonCanonical
      "handoff role, phase, findings, or inputs are invalid or noncanonical")

def validate (handoff : Handoff) (limits : OrchestratorLimits) :
    Except OrchestratorError Unit := do
  handoff.validateShape sha256 limits
  let digest ← handoffDigest sha256 handoff
  ensure (decide (handoff.digest = digest))
    (reject .bindingMismatch
      "handoff digest differs from its canonical fields")

end Handoff

end Hash

end Peritus.Orchestrator.Material
