import Peritus.Orchestrator.Material
import Peritus.Review.Disposition

/-!
What the orchestrator observes of its children: heads of their aggregates, and
the observations decoded from them.  An observation that its decoder would
refuse cannot be built.
-/

namespace Peritus.Orchestrator.Child

open Peritus.Types SortedTable Material
open Scheduler.Limits (WorkId WorkerId DispatchId)
open Scheduler.State (zeroDigest)
open Collaboration.Limits (CollaborationTaskId)
open Collaboration.Task (HarnessRole)
open Review.Disposition (DispositionKind)

/-! ### Heads -/

inductive ChildAggregateKind
  | agent
  | gates
  | review
  | scheduler
  | collaboration
  | kernel
deriving DecidableEq

/-- The declaration order, which sorts the sets of children. -/
def ChildAggregateKind.tag : ChildAggregateKind → Nat
  | .agent => 1
  | .gates => 2
  | .review => 3
  | .scheduler => 4
  | .collaboration => 5
  | .kernel => 6

theorem ChildAggregateKind.tag_injective :
    Function.Injective ChildAggregateKind.tag := by
  intro left right h
  cases left <;> cases right <;> first | rfl | cases h

inductive ChildTerminalClass
  | completed
  | failed
  | cancelled
  | indeterminate
  | needsHuman
  | needsChanges
  | accepted
deriving DecidableEq

@[ext]
structure ChildHead where
  aggregate : ChildAggregateKind
  sequence : EventSequence
  lastEventId : EventId
  stateDigest : Sha256Digest
  terminal : Option ChildTerminalClass
  observed : stateDigest ≠ zeroDigest

instance : DecidableEq ChildHead := fun _ _ =>
  decidable_of_iff _ ChildHead.ext_iff.symm

/-! ### Agents -/

structure FixerResponseIdentity where
  findingId : FindingId
  responseDigest : Sha256Digest
deriving DecidableEq

/-- What decoding an agent's observation checks. -/
def agentShape (role : HarnessRole) (proposalDigest : Option Sha256Digest)
    (fixerResponses : List FixerResponseIdentity) (head : ChildHead) : Bool :=
  decide (head.aggregate = .agent) &&
    decide (role = .writer ∨ role = .fixer) && head.terminal.isSome &&
    (decide (head.terminal ≠ some .completed) || proposalDigest.isSome) &&
    (decide (head.terminal = some .completed) || fixerResponses.isEmpty) &&
    ascending FixerResponseIdentity.findingId fixerResponses &&
    (decide (role ≠ .writer) || fixerResponses.isEmpty)

structure AgentChildObservation where
  handoffId : HandoffId
  taskId : CollaborationTaskId
  workId : WorkId
  turnId : TurnId
  runId : RunId
  actor : ActorId
  role : HarnessRole
  attemptId : AttemptId
  revision : RevisionTuple
  proposalDigest : Option Sha256Digest
  fixerResponses : List FixerResponseIdentity
  head : ChildHead
  shape : agentShape role proposalDigest fixerResponses head = true
deriving DecidableEq

def AgentChildObservation.isCompleted (observation : AgentChildObservation) :
    Bool :=
  decide (observation.head.terminal = some .completed)

/-! ### Gates -/

inductive GateObservationClass
  | passed
  | candidateFailed
  | infrastructureFailed
  | cancelled
  | indeterminate
deriving DecidableEq

def GateObservationClass.terminal : GateObservationClass → ChildTerminalClass
  | .passed => .completed
  | .candidateFailed | .infrastructureFailed => .failed
  | .cancelled => .cancelled
  | .indeterminate => .indeterminate

structure GateChildObservation where
  runId : RunId
  gateRunId : RunId
  revision : RevisionTuple
  planDigest : Sha256Digest
  snapshotDigest : Sha256Digest
  evidenceDigest : Sha256Digest
  gateClass : GateObservationClass
  head : ChildHead
  shape : head.aggregate = .gates ∧ head.terminal = some gateClass.terminal
deriving DecidableEq

/-! ### Reviews -/

inductive ReviewObservationClass
  | needsFix
  | completed
  | needsHuman
  | failed
  | cancelled
deriving DecidableEq

def ReviewObservationClass.terminal :
    ReviewObservationClass → Option ChildTerminalClass
  | .needsFix => none
  | .completed => some .completed
  | .needsHuman => some .needsHuman
  | .failed => some .failed
  | .cancelled => some .cancelled

/-- What decoding a review observation checks. -/
def reviewShape (quorumComplete : Bool) (unconservedFindings : List FindingId)
    (reviewClass : ReviewObservationClass) (head : ChildHead) : Bool :=
  decide (head.aggregate = .review) &&
    ascending OpaqueIdentifier.value unconservedFindings &&
    decide (head.terminal = reviewClass.terminal) &&
    (decide (reviewClass ≠ .completed) ||
      (quorumComplete && unconservedFindings.isEmpty)) &&
    (decide (reviewClass ≠ .needsFix) ||
      (quorumComplete && !unconservedFindings.isEmpty))

structure ReviewChildObservation where
  runId : RunId
  revision : RevisionTuple
  bindingDigest : Sha256Digest
  quorumComplete : Bool
  unconservedFindings : List FindingId
  reviewClass : ReviewObservationClass
  head : ChildHead
  shape : reviewShape quorumComplete unconservedFindings reviewClass head = true
deriving DecidableEq

structure ReviewFixerRecord where
  findingId : FindingId
  kind : DispositionKind
  actor : ActorId
  responseDigest : Sha256Digest
deriving DecidableEq

/-- Whether a disposition is one a fixer answers with. -/
def isFixerResponse : DispositionKind → Bool
  | .fixed | .disputed | .supersessionProposed | .waiverRequested => true
  | _ => false

/-- What decoding a review's record of fixer responses checks. -/
def reviewFixerShape (records : List ReviewFixerRecord) (head : ChildHead) :
    Bool :=
  !records.isEmpty && ascending ReviewFixerRecord.findingId records &&
    (records.all fun record =>
      isFixerResponse record.kind && nonzero record.responseDigest) &&
    decide (head.aggregate = .review) && head.terminal.isNone

structure ReviewFixerObservation where
  handoffId : HandoffId
  runId : RunId
  revision : RevisionTuple
  bindingDigest : Sha256Digest
  records : List ReviewFixerRecord
  head : ChildHead
  shape : reviewFixerShape records head = true
deriving DecidableEq

/-! ### Coordination -/

structure HandoffActivationObservation where
  handoffId : HandoffId
  taskId : CollaborationTaskId
  workId : WorkId
  dispatchId : DispatchId
  workerId : WorkerId
  owner : ActorId
  role : HarnessRole
  schedulerRunId : RunId
  collaborationRunId : RunId
  revision : RevisionTuple
  schedulerHead : ChildHead
  collaborationHead : ChildHead
  shape : (schedulerHead.aggregate = .scheduler ∧
      collaborationHead.aggregate = .collaboration) ∧
    schedulerHead.terminal = none ∧ collaborationHead.terminal = none
deriving DecidableEq

structure SchedulerChildObservation where
  runId : RunId
  revision : RevisionTuple
  head : ChildHead
  shape : head.aggregate = .scheduler ∧ head.terminal.isSome = true
deriving DecidableEq

structure CollaborationChildObservation where
  runId : RunId
  revision : RevisionTuple
  head : ChildHead
  shape : head.aggregate = .collaboration ∧ head.terminal.isSome = true
deriving DecidableEq

/-! ### The kernel -/

inductive KernelAcceptanceOutcome
  | begun
  | accepted
  | needsChanges
  | cancelled
deriving DecidableEq

structure KernelAcceptanceObservation where
  eventId : EventId
  commandId : CommandId
  sequence : EventSequence
  previousEventId : Option EventId
  runId : RunId
  revision : RevisionTuple
  outcome : KernelAcceptanceOutcome
deriving DecidableEq

/-! ### Cancellation -/

inductive CancellationClassificationKind
  | unreachable
  | ambiguous
deriving DecidableEq

@[ext]
structure CancellationChildClassification where
  aggregate : ChildAggregateKind
  revision : RevisionTuple
  kind : CancellationClassificationKind
  evidenceDigest : Sha256Digest
  evidence : evidenceDigest ≠ zeroDigest

instance : DecidableEq CancellationChildClassification := fun _ _ =>
  decidable_of_iff _ CancellationChildClassification.ext_iff.symm

/-! ### Observations -/

inductive ChildObservation
  | agent (observation : AgentChildObservation)
  | gates (observation : GateChildObservation)
  | review (observation : ReviewChildObservation)
  | reviewFixer (observation : ReviewFixerObservation)
  | scheduler (observation : SchedulerChildObservation)
  | collaboration (observation : CollaborationChildObservation)
  | handoffActivation (observation : HandoffActivationObservation)
  | kernelAcceptance (observation : KernelAcceptanceObservation)
  | cancellationClassification
      (classification : CancellationChildClassification)
deriving DecidableEq

namespace ChildObservation

def aggregate : ChildObservation → ChildAggregateKind
  | .agent _ => .agent
  | .gates _ => .gates
  | .review _ | .reviewFixer _ => .review
  | .scheduler _ => .scheduler
  | .collaboration _ | .handoffActivation _ => .collaboration
  | .kernelAcceptance _ => .kernel
  | .cancellationClassification classification => classification.aggregate

def head : ChildObservation → Option ChildHead
  | .agent observation => some observation.head
  | .gates observation => some observation.head
  | .review observation => some observation.head
  | .reviewFixer observation => some observation.head
  | .scheduler observation => some observation.head
  | .collaboration observation => some observation.head
  | .handoffActivation _ | .kernelAcceptance _
  | .cancellationClassification _ => none

def revision : ChildObservation → RevisionTuple
  | .agent observation => observation.revision
  | .gates observation => observation.revision
  | .review observation => observation.revision
  | .reviewFixer observation => observation.revision
  | .scheduler observation => observation.revision
  | .collaboration observation => observation.revision
  | .handoffActivation observation => observation.revision
  | .kernelAcceptance observation => observation.revision
  | .cancellationClassification classification => classification.revision

/-- The gate observation, if it is one. -/
def asGates : ChildObservation → Option GateChildObservation
  | .gates observation => some observation
  | _ => none

/-- The review observation, if it is one. -/
def asReview : ChildObservation → Option ReviewChildObservation
  | .review observation => some observation
  | _ => none

end ChildObservation

end Peritus.Orchestrator.Child
