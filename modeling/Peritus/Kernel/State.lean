import Peritus.Collections
import Peritus.Policy
import Peritus.Budget.State

/-!
The kernel aggregate: one session with its runs, attempts, turns, actions,
reviews and waivers, and the validity the reducer rechecks after every command.
-/

namespace Peritus.Kernel.State

open Peritus.Types Policy Budget.Amounts Budget.State Collections

inductive SessionPhase
  | open
  | paused
  | closed
deriving DecidableEq

inductive RunPhase
  | pending
  | running
  | paused
  | reviewing
  | fixing
  | accepted
  | rejected
  | cancelled
  | failed
  | exhausted
deriving DecidableEq

def RunPhase.isTerminal : RunPhase → Bool
  | .accepted => true
  | .rejected => true
  | .cancelled => true
  | .failed => true
  | .exhausted => true
  | _ => false

inductive AttemptPhase
  | active
  | submitted
  | reviewing
  | fixing
  | accepted
  | failed
  | cancelled
  | exhausted
deriving DecidableEq

def AttemptPhase.isTerminal : AttemptPhase → Bool
  | .accepted => true
  | .failed => true
  | .cancelled => true
  | .exhausted => true
  | _ => false

inductive TurnPhase
  | active
  | completed
  | failed
  | cancelled
deriving DecidableEq

def TurnPhase.isTerminal : TurnPhase → Bool
  | .active => false
  | _ => true

inductive ActionPhase
  | proposed
  | authorized
  | dispatched
  | succeeded
  | failed
  | cancelled
deriving DecidableEq

def ActionPhase.isTerminal : ActionPhase → Bool
  | .succeeded => true
  | .failed => true
  | .cancelled => true
  | _ => false

inductive ReviewPhase
  | requested
  | active
  | submitted
  | invalidated
deriving DecidableEq

def ReviewPhase.isTerminal : ReviewPhase → Bool
  | .submitted => true
  | .invalidated => true
  | _ => false

inductive WaiverPhase
  | requested
  | granted
  | denied
  | invalidated
deriving DecidableEq

def WaiverPhase.isTerminal : WaiverPhase → Bool
  | .requested => false
  | _ => true

inductive AcceptancePhase
  | pending
  | evaluating
  | needsChanges
  | accepted
  | terminated
deriving DecidableEq

structure SessionState where
  id : SessionId
  phase : SessionPhase

structure RunState where
  id : RunId
  revision : RevisionTuple
  budgetId : BudgetId
  budgetLimits : BudgetLimits
  phase : RunPhase
  acceptance : AcceptancePhase
  currentAttemptId : Option AttemptId

structure AttemptState where
  id : AttemptId
  runId : RunId
  budgetId : BudgetId
  budgetLimits : BudgetLimits
  phase : AttemptPhase

structure TurnState where
  id : TurnId
  attemptId : AttemptId
  phase : TurnPhase

structure ActionAuthorizationWitness where
  transitionDigest : Sha256Digest
  resourceId : ResourceId
  capabilityName : String

structure ActionState where
  id : ActionId
  turnId : TurnId
  digest : Sha256Digest
  actorId : ActorId
  role : ActorRole
  environmentId : EnvironmentId
  phase : ActionPhase
  authorization : Option ActionAuthorizationWitness

structure ReviewState where
  id : ReviewCycleId
  runId : RunId
  attemptId : AttemptId
  phase : ReviewPhase

structure WaiverState where
  findingId : FindingId
  reviewCycleId : ReviewCycleId
  runId : RunId
  phase : WaiverPhase

structure ContractBinding where
  contractId : AcceptanceSpecId
  contractDigest : Sha256Digest
  revision : RevisionTuple

structure KernelAggregate where
  projectId : ProjectId
  revision : RevisionTuple
  contractBinding : ContractBinding
  session : SessionState
  headEventId : EventId
  lastSequence : EventSequence
  acceptedCommandIds : List CommandId
  eventIds : List EventId
  runs : List RunState
  attempts : List AttemptState
  turns : List TurnState
  actions : List ActionState
  reviews : List ReviewState
  waivers : List WaiverState

namespace KernelAggregate

def run (state : KernelAggregate) (id : RunId) : Option (Nat × RunState) :=
  findIndexed (fun run => decide (run.id = id)) state.runs

def attempt (state : KernelAggregate) (id : AttemptId) :
    Option (Nat × AttemptState) :=
  findIndexed (fun attempt => decide (attempt.id = id)) state.attempts

def turn (state : KernelAggregate) (id : TurnId) : Option (Nat × TurnState) :=
  findIndexed (fun turn => decide (turn.id = id)) state.turns

def action (state : KernelAggregate) (id : ActionId) :
    Option (Nat × ActionState) :=
  findIndexed (fun action => decide (action.id = id)) state.actions

def review (state : KernelAggregate) (id : ReviewCycleId) :
    Option (Nat × ReviewState) :=
  findIndexed (fun review => decide (review.id = id)) state.reviews

def waiver (state : KernelAggregate) (id : FindingId) :
    Option (Nat × WaiverState) :=
  findIndexed (fun waiver => decide (waiver.findingId = id)) state.waivers

def hasLiveRun (state : KernelAggregate) : Bool :=
  state.runs.any fun run => !run.phase.isTerminal

def hasLiveTurnForAttempt (state : KernelAggregate) (attemptId : AttemptId) :
    Bool :=
  state.turns.any fun turn =>
    decide (turn.attemptId = attemptId) && !turn.phase.isTerminal

def hasLiveActionForTurn (state : KernelAggregate) (turnId : TurnId) : Bool :=
  state.actions.any fun action =>
    decide (action.turnId = turnId) && !action.phase.isTerminal

/-- Two equal keys at different positions. -/
def hasDuplicates {α : Type} [DecidableEq α] : List α → Bool
  | [] => false
  | key :: rest => decide (key ∈ rest) || hasDuplicates rest

def hasDuplicateChildren (state : KernelAggregate) : Bool :=
  hasDuplicates (state.runs.map (·.id))
    || hasDuplicates (state.attempts.map (·.id))
    || hasDuplicates (state.turns.map (·.id))
    || hasDuplicates (state.actions.map (·.id))
    || hasDuplicates (state.reviews.map (·.id))
    || hasDuplicates (state.waivers.map (·.findingId))

def runIsValid (state : KernelAggregate) (run : RunState) : Bool :=
  decide (run.revision = state.revision)
    && (decide (run.phase = .accepted) == decide (run.acceptance = .accepted))
    && !(run.phase.isTerminal && decide (run.phase ≠ .accepted)
      && decide (run.acceptance ≠ .terminated))

def parentsAreValid (state : KernelAggregate) : Bool :=
  (state.attempts.all fun attempt => (state.run attempt.runId).isSome)
    && (state.turns.all fun turn => (state.attempt turn.attemptId).isSome)
    && (state.actions.all fun action => (state.turn action.turnId).isSome)
    && (state.reviews.all fun review =>
      match state.attempt review.attemptId with
      | some (_, attempt) => decide (attempt.runId = review.runId)
      | none => false)
    && (state.waivers.all fun waiver =>
      match state.review waiver.reviewCycleId with
      | some (_, review) => decide (review.runId = waiver.runId)
      | none => false)

def isValid (state : KernelAggregate) : Bool :=
  let liveRuns := state.runs.countP fun run => !run.phase.isTerminal
  decide (state.contractBinding.revision = state.revision)
    && decide (state.contractBinding.contractId =
        state.revision.acceptanceSpecId)
    && decide (state.acceptedCommandIds.length = state.eventIds.length)
    && decide (state.eventIds.getLast? = some state.headEventId)
    && !hasDuplicates state.acceptedCommandIds
    && !hasDuplicates state.eventIds
    && !hasDuplicateChildren state
    && state.runs.all (runIsValid state)
    && !(decide (liveRuns > 1)
      || decide (state.session.phase = .closed) && decide (liveRuns ≠ 0))
    && parentsAreValid state

end KernelAggregate

/-! ### What the reducer borrows -/

/-- The contract as the kernel reads it; `terms` is what only the acceptance
evaluation reads. -/
structure AcceptanceContract (Terms : Type) where
  id : AcceptanceSpecId
  contentDigest : Sha256Digest
  maxReviewCycles : Nat
  terms : Terms

def AcceptanceContract.bind {Terms : Type} (contract : AcceptanceContract Terms)
    (revision : RevisionTuple) : Option ContractBinding :=
  if revision.acceptanceSpecId ≠ contract.id then none
  else some ⟨contract.id, contract.contentDigest, revision⟩

structure ReviewObservation where
  cycleId : ReviewCycleId
  revision : RevisionTuple
  findings : List FindingId

structure WaiverObservation where
  findingId : FindingId
  revision : RevisionTuple
  approvalRequestId : OpaqueIdentifier

inductive ApprovalSubject
  | acceptance
  | findingWaiver (findingId : FindingId)
deriving DecidableEq

inductive ApprovalOutcome
  | approved
  | denied
deriving DecidableEq

structure ApprovalObservation where
  requestId : OpaqueIdentifier
  revision : RevisionTuple
  subject : ApprovalSubject
  outcome : ApprovalOutcome

/-- Acceptance evidence as the kernel reads it; `facts` is what only the
acceptance evaluation reads. -/
structure AcceptanceEvidence (Facts : Type) where
  reviews : List ReviewObservation
  waivers : List WaiverObservation
  approvals : List ApprovalObservation
  facts : Facts

inductive UnmetCondition
  | invalidWaiver (findingId : FindingId)
  | other
deriving DecidableEq

structure AcceptanceDecision where
  isAcceptable : Bool
  unmetConditions : List UnmetCondition

structure ReducerInputs (Terms Facts : Type) where
  contract : AcceptanceContract Terms
  runBudget : Option BudgetSnapshot
  attemptBudget : Option BudgetSnapshot
  parentBudget : Option BudgetSnapshot
  capabilityUse : Option CapabilityUseTransition
  acceptanceEvidence : Option (AcceptanceEvidence Facts)

structure CommandEnvelope where
  commandId : CommandId
  eventId : EventId
  expectedPreviousEventId : Option EventId
  revision : RevisionTuple

inductive KernelCommand
  | pauseSession
  | resumeSession
  | closeSession
  | startRun (runId : RunId)
  | pauseRun (runId : RunId)
  | resumeRun (runId : RunId)
  | cancelRun (runId : RunId)
  | failRun (runId : RunId)
  | exhaustRun (runId : RunId)
  | rejectRun (runId : RunId)
  | startAttempt (runId : RunId) (attemptId : AttemptId)
  | resumeAttempt (runId : RunId) (attemptId : AttemptId)
  | submitAttempt (runId : RunId) (attemptId : AttemptId)
  | failAttempt (runId : RunId) (attemptId : AttemptId)
  | exhaustAttempt (runId : RunId) (attemptId : AttemptId)
  | startTurn (attemptId : AttemptId) (turnId : TurnId)
  | completeTurn (attemptId : AttemptId) (turnId : TurnId)
  | failTurn (attemptId : AttemptId) (turnId : TurnId)
  | cancelTurn (attemptId : AttemptId) (turnId : TurnId)
  | proposeAction (turnId : TurnId) (actionId : ActionId)
      (digest : Sha256Digest) (actorId : ActorId) (role : ActorRole)
      (environmentId : EnvironmentId)
  | authorizeAction (actionId : ActionId)
  | dispatchAction (actionId : ActionId)
  | completeAction (actionId : ActionId)
  | failAction (actionId : ActionId)
  | cancelAction (actionId : ActionId)
  | requestReview (runId : RunId) (attemptId : AttemptId)
      (reviewId : ReviewCycleId)
  | beginReview (reviewId : ReviewCycleId)
  | submitReview (reviewId : ReviewCycleId)
  | invalidateReview (reviewId : ReviewCycleId)
  | requestWaiver (runId : RunId) (reviewId : ReviewCycleId)
      (findingId : FindingId)
  | grantWaiver (findingId : FindingId)
  | denyWaiver (findingId : FindingId)
  | invalidateWaiver (findingId : FindingId)
  | beginAcceptance (runId : RunId)
  | evaluateAcceptance (runId : RunId)

inductive LifecycleEntity
  | session
  | run
  | attempt
  | turn
  | action
  | review
  | waiver
  | acceptance
deriving DecidableEq

inductive AuthorityInputKind
  | runBudget
  | attemptBudget
  | parentBudget
  | capabilityUse
  | acceptanceEvidence
deriving DecidableEq

inductive KernelErrorKind
  | revisionMismatch
  | contractMismatch
  | causalHeadMismatch
  | duplicateCommand
  | duplicateEvent
  | missingEntity
  | duplicateEntity
  | parentMismatch
  | illegalPhase
  | missingAuthorityInput
  | authorityMismatch
  | budgetUnavailable
  | budgetExceeded
  | liveChild
  | sequenceOverflow
  | invalidAggregate
deriving DecidableEq

structure KernelError where
  kind : KernelErrorKind
  entity : Option LifecycleEntity
  authority : Option AuthorityInputKind

namespace KernelError

def new (kind : KernelErrorKind) : KernelError := ⟨kind, none, none⟩

def ofEntity (kind : KernelErrorKind) (entity : LifecycleEntity) :
    KernelError :=
  ⟨kind, some entity, none⟩

def ofAuthority (kind : KernelErrorKind) (authority : AuthorityInputKind) :
    KernelError :=
  ⟨kind, none, some authority⟩

end KernelError

inductive KernelEventKind
  | sessionOpened
  | sessionPaused
  | sessionResumed
  | sessionClosed
  | runStarted
  | runPaused
  | runResumed
  | runCancelled
  | runFailed
  | runExhausted
  | runRejected
  | attemptStarted
  | attemptResumed
  | attemptSubmitted
  | attemptFailed
  | attemptExhausted
  | turnStarted
  | turnCompleted
  | turnFailed
  | turnCancelled
  | actionProposed
  | actionAuthorized
  | actionDispatched
  | actionCompleted
  | actionFailed
  | actionCancelled
  | reviewRequested
  | reviewBegun
  | reviewSubmitted
  | reviewInvalidated
  | waiverRequested
  | waiverGranted
  | waiverDenied
  | waiverInvalidated
  | acceptanceBegun
  | acceptanceAccepted
  | acceptanceNeedsChanges
deriving DecidableEq

inductive KernelSubject
  | session (id : SessionId)
  | run (id : RunId)
  | attempt (id : AttemptId)
  | turn (id : TurnId)
  | action (id : ActionId)
  | review (id : ReviewCycleId)
  | waiver (id : FindingId)
  | acceptance (id : RunId)

structure KernelEvent where
  id : EventId
  commandId : CommandId
  sequence : EventSequence
  previousEventId : Option EventId
  revision : RevisionTuple
  kind : KernelEventKind
  subject : KernelSubject

inductive AcceptanceOutcome
  | accepted
  | needsChanges (unmetConditions : Nat)

structure KernelTransition where
  aggregate : KernelAggregate
  event : KernelEvent
  acceptanceOutcome : Option AcceptanceOutcome

/-- A rejection returns the unchanged aggregate. -/
inductive KernelOutcome
  | applied (transition : KernelTransition)
  | rejected (aggregate : KernelAggregate) (error : KernelError)

end Peritus.Kernel.State
