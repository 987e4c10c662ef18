import Peritus.Kernel.State

/-!
The kernel reducer: preflight, one transition for each command family, and the
checks every accepted command passes before its event is emitted.
-/

namespace Peritus.Kernel.Reducer

open Peritus.Types Policy Checked State

structure AppliedCommand where
  eventKind : KernelEventKind
  subject : KernelSubject
  acceptanceOutcome : Option AcceptanceOutcome

def AppliedCommand.new (eventKind : KernelEventKind) (subject : KernelSubject) :
    AppliedCommand :=
  ⟨eventKind, subject, none⟩

abbrev Applied := Except KernelError (KernelAggregate × AppliedCommand)

/-- `let Some(value) = lookup else { return Err(error) }`. -/
def orElseError {α : Type} (lookup : Option α) (error : KernelError) :
    Except KernelError α :=
  match lookup with
  | some value => .ok value
  | none => .error error

section Updates

variable (state : KernelAggregate)

def setSessionPhase (phase : SessionPhase) : KernelAggregate :=
  { state with session := { state.session with phase } }

def setRun (index : Nat) (run : RunState) : KernelAggregate :=
  { state with runs := state.runs.set index run }

def setAttempt (index : Nat) (attempt : AttemptState) : KernelAggregate :=
  { state with attempts := state.attempts.set index attempt }

def setTurn (index : Nat) (turn : TurnState) : KernelAggregate :=
  { state with turns := state.turns.set index turn }

def setAction (index : Nat) (action : ActionState) : KernelAggregate :=
  { state with actions := state.actions.set index action }

def setReview (index : Nat) (review : ReviewState) : KernelAggregate :=
  { state with reviews := state.reviews.set index review }

def setWaiver (index : Nat) (waiver : WaiverState) : KernelAggregate :=
  { state with waivers := state.waivers.set index waiver }

/-- The loop that ends every live attempt selected by `belongs`. -/
def endAttempts (belongs : AttemptState → Bool) (phase : AttemptPhase) :
    KernelAggregate :=
  { state with
    attempts := state.attempts.map fun attempt =>
      if belongs attempt && !attempt.phase.isTerminal then
        { attempt with phase }
      else attempt }

def endTurns (belongs : TurnState → Bool) (phase : TurnPhase) :
    KernelAggregate :=
  { state with
    turns := state.turns.map fun turn =>
      if belongs turn && !turn.phase.isTerminal then { turn with phase }
      else turn }

def endActions (belongs : ActionState → Bool) (phase : ActionPhase) :
    KernelAggregate :=
  { state with
    actions := state.actions.map fun action =>
      if belongs action && !action.phase.isTerminal then
        { action with phase }
      else action }

end Updates

/-! ### Sessions -/

def hasUnpausedRun (state : KernelAggregate) : Bool :=
  state.runs.any fun run =>
    !run.phase.isTerminal && decide (run.phase ≠ .paused)

def pauseSession (state : KernelAggregate) : Applied := do
  ensure (!(decide (state.session.phase ≠ .open) || hasUnpausedRun state))
    (.ofEntity .illegalPhase .session)
  return (setSessionPhase state .paused,
    .new .sessionPaused (.session state.session.id))

def resumeSession (state : KernelAggregate) : Applied := do
  ensure (decide (state.session.phase = .paused))
    (.ofEntity .illegalPhase .session)
  return (setSessionPhase state .open,
    .new .sessionResumed (.session state.session.id))

def closeSession (state : KernelAggregate) : Applied := do
  ensure (!decide (state.session.phase = .closed))
    (.ofEntity .illegalPhase .session)
  ensure (!state.hasLiveRun) (.ofEntity .liveChild .run)
  return (setSessionPhase state .closed,
    .new .sessionClosed (.session state.session.id))

/-! ### Runs -/

section Inputs

variable {Terms Facts : Type}

def startRun (state : KernelAggregate) (runId : RunId)
    (inputs : ReducerInputs Terms Facts) : Applied := do
  ensure (decide (state.session.phase = .open))
    (.ofEntity .illegalPhase .session)
  ensure (!(state.run runId).isSome) (.ofEntity .duplicateEntity .run)
  ensure (!state.hasLiveRun) (.ofEntity .liveChild .run)
  let snapshot ← orElseError inputs.runBudget
    (.ofAuthority .missingAuthorityInput .runBudget)
  ensure (!(decide (snapshot.revision ≠ state.revision)
      || snapshot.parentId.isSome))
    (.ofAuthority .authorityMismatch .runBudget)
  ensure (decide (snapshot.phase = .open))
    (.ofAuthority .budgetUnavailable .runBudget)
  let run : RunState :=
    { id := runId
      revision := state.revision
      budgetId := snapshot.id
      budgetLimits := snapshot.limits
      phase := .pending
      acceptance := .pending
      currentAttemptId := none }
  return ({ state with runs := state.runs ++ [run] },
    .new .runStarted (.run runId))

end Inputs

def pauseRun (state : KernelAggregate) (runId : RunId) : Applied := do
  let (index, run) ← orElseError (state.run runId)
    (.ofEntity .missingEntity .run)
  ensure (!(decide (state.session.phase ≠ .open)
      || !(decide (run.phase = .running) || decide (run.phase = .fixing))))
    (.ofEntity .illegalPhase .run)
  return (setRun state index { run with phase := .paused },
    .new .runPaused (.run runId))

def resumeRun (state : KernelAggregate) (runId : RunId) : Applied := do
  let (index, run) ← orElseError (state.run runId)
    (.ofEntity .missingEntity .run)
  ensure (!(decide (state.session.phase ≠ .open)
      || decide (run.phase ≠ .paused)))
    (.ofEntity .illegalPhase .run)
  return (setRun state index { run with phase := .running },
    .new .runResumed (.run runId))

/-- Ends a run together with every live attempt, turn and action below it. -/
def terminateRun (state : KernelAggregate) (runId : RunId) (runPhase : RunPhase)
    (attemptPhase : AttemptPhase) (turnPhase : TurnPhase)
    (actionPhase : ActionPhase) (eventKind : KernelEventKind) : Applied := do
  let (index, run) ← orElseError (state.run runId)
    (.ofEntity .missingEntity .run)
  ensure (!run.phase.isTerminal) (.ofEntity .illegalPhase .run)
  let state := endAttempts state
    (fun attempt => decide (attempt.runId = runId)) attemptPhase
  let attemptBelongs := fun (id : AttemptId) =>
    match state.attempt id with
    | some (_, attempt) => decide (attempt.runId = runId)
    | none => false
  let state := endTurns state (fun turn => attemptBelongs turn.attemptId)
    turnPhase
  let turnBelongs := fun (id : TurnId) =>
    match state.turn id with
    | some (_, turn) => attemptBelongs turn.attemptId
    | none => false
  let state := endActions state (fun action => turnBelongs action.turnId)
    actionPhase
  return (setRun state index
      { run with
        phase := runPhase
        acceptance := .terminated
        currentAttemptId := none },
    .new eventKind (.run runId))

/-! ### Attempts -/

section Inputs

variable {Terms Facts : Type}

def startAttempt (state : KernelAggregate) (runId : RunId)
    (attemptId : AttemptId) (inputs : ReducerInputs Terms Facts) :
    Applied := do
  ensure (decide (state.session.phase = .open))
    (.ofEntity .illegalPhase .session)
  let (index, run) ← orElseError (state.run runId)
    (.ofEntity .missingEntity .run)
  ensure (!(!(decide (run.phase = .pending) || decide (run.phase = .running))
      || run.currentAttemptId.isSome))
    (.ofEntity .illegalPhase .run)
  ensure (!(state.attempt attemptId).isSome)
    (.ofEntity .duplicateEntity .attempt)
  let child ← orElseError inputs.attemptBudget
    (.ofAuthority .missingAuthorityInput .attemptBudget)
  let parent ← orElseError inputs.parentBudget
    (.ofAuthority .missingAuthorityInput .parentBudget)
  ensure (!(decide (child.revision ≠ state.revision)
      || decide (parent.revision ≠ state.revision)
      || decide (child.parentId ≠ some parent.id)
      || decide (parent.id ≠ run.budgetId)))
    (.ofAuthority .authorityMismatch .attemptBudget)
  ensure (!(decide (child.phase ≠ .open) || decide (parent.phase ≠ .open)))
    (.ofAuthority .budgetUnavailable .attemptBudget)
  ensure (child.limits.amounts.fitsWithin parent.available)
    (.ofAuthority .budgetExceeded .attemptBudget)
  let attempt : AttemptState :=
    { id := attemptId
      runId
      budgetId := child.id
      budgetLimits := child.limits
      phase := .active }
  return (setRun { state with attempts := state.attempts ++ [attempt] } index
      { run with
        phase := .running
        acceptance := .pending
        currentAttemptId := some attemptId },
    .new .attemptStarted (.attempt attemptId))

end Inputs

/-- The run and attempt an attempt command names, of one another. -/
def runAndAttempt (state : KernelAggregate) (runId : RunId)
    (attemptId : AttemptId) :
    Except KernelError ((Nat × RunState) × (Nat × AttemptState)) := do
  let run ← orElseError (state.run runId) (.ofEntity .missingEntity .attempt)
  let attempt ← orElseError (state.attempt attemptId)
    (.ofEntity .missingEntity .attempt)
  ensure (decide (attempt.2.runId = runId)) (.ofEntity .parentMismatch .attempt)
  return (run, attempt)

def resumeAttempt (state : KernelAggregate) (runId : RunId)
    (attemptId : AttemptId) : Applied := do
  let ((index, run), (attemptIndex, attempt)) ←
    runAndAttempt state runId attemptId
  ensure (!(decide (run.phase ≠ .fixing) || decide (attempt.phase ≠ .fixing)
      || state.hasLiveTurnForAttempt attemptId))
    (.ofEntity .illegalPhase .attempt)
  let state := setAttempt state attemptIndex { attempt with phase := .active }
  return (setRun state index
      { run with phase := .running, acceptance := .pending },
    .new .attemptResumed (.attempt attemptId))

def submitAttempt (state : KernelAggregate) (runId : RunId)
    (attemptId : AttemptId) : Applied := do
  let ((index, run), (attemptIndex, attempt)) ←
    runAndAttempt state runId attemptId
  ensure (!(decide (run.phase ≠ .running) || decide (attempt.phase ≠ .active)
      || state.hasLiveTurnForAttempt attemptId))
    (.ofEntity .liveChild .turn)
  let state := setAttempt state attemptIndex
    { attempt with phase := .submitted }
  return (setRun state index
      { run with phase := .reviewing, acceptance := .pending },
    .new .attemptSubmitted (.attempt attemptId))

/-- Ends one attempt and hands its run back as `Running`, whatever live phase
the run and the session are in. -/
def terminateAttempt (state : KernelAggregate) (runId : RunId)
    (attemptId : AttemptId) (attemptPhase : AttemptPhase)
    (turnPhase : TurnPhase) (actionPhase : ActionPhase)
    (eventKind : KernelEventKind) : Applied := do
  let ((index, run), (attemptIndex, attempt)) ←
    runAndAttempt state runId attemptId
  ensure (!(run.phase.isTerminal || attempt.phase.isTerminal))
    (.ofEntity .illegalPhase .attempt)
  let state := endTurns state
    (fun turn => decide (turn.attemptId = attemptId)) turnPhase
  let state := endActions state
    (fun action =>
      match state.turn action.turnId with
      | some (_, turn) => decide (turn.attemptId = attemptId)
      | none => false) actionPhase
  let state := setAttempt state attemptIndex
    { attempt with phase := attemptPhase }
  return (setRun state index
      { run with
        phase := .running
        acceptance := .pending
        currentAttemptId := none },
    .new eventKind (.attempt attemptId))

/-! ### Turns -/

def startTurn (state : KernelAggregate) (attemptId : AttemptId)
    (turnId : TurnId) : Applied := do
  let (_, attempt) ← orElseError (state.attempt attemptId)
    (.ofEntity .missingEntity .attempt)
  ensure (decide (attempt.phase = .active)) (.ofEntity .illegalPhase .attempt)
  ensure (!(state.turn turnId).isSome) (.ofEntity .duplicateEntity .turn)
  ensure (!state.hasLiveTurnForAttempt attemptId) (.ofEntity .liveChild .turn)
  return ({ state with turns := state.turns ++ [⟨turnId, attemptId, .active⟩] },
    .new .turnStarted (.turn turnId))

/-- The active turn of an attempt that a turn command names. -/
def activeTurn (state : KernelAggregate) (attemptId : AttemptId)
    (turnId : TurnId) : Except KernelError (Nat × TurnState) := do
  let (index, turn) ← orElseError (state.turn turnId)
    (.ofEntity .missingEntity .turn)
  ensure (decide (turn.attemptId = attemptId)) (.ofEntity .parentMismatch .turn)
  ensure (decide (turn.phase = .active)) (.ofEntity .illegalPhase .turn)
  return (index, turn)

def completeTurn (state : KernelAggregate) (attemptId : AttemptId)
    (turnId : TurnId) : Applied := do
  let (index, turn) ← activeTurn state attemptId turnId
  ensure (!state.hasLiveActionForTurn turnId) (.ofEntity .liveChild .action)
  return (setTurn state index { turn with phase := .completed },
    .new .turnCompleted (.turn turnId))

def terminateTurn (state : KernelAggregate) (attemptId : AttemptId)
    (turnId : TurnId) (turnPhase : TurnPhase) (actionPhase : ActionPhase)
    (eventKind : KernelEventKind) : Applied := do
  let (index, turn) ← activeTurn state attemptId turnId
  let state := endActions state
    (fun action => decide (action.turnId = turnId)) actionPhase
  return (setTurn state index { turn with phase := turnPhase },
    .new eventKind (.turn turnId))

/-! ### Actions -/

def proposeAction (state : KernelAggregate) (turnId : TurnId)
    (actionId : ActionId) (digest : Sha256Digest) (actorId : ActorId)
    (role : ActorRole) (environmentId : EnvironmentId) : Applied := do
  let (_, turn) ← orElseError (state.turn turnId)
    (.ofEntity .missingEntity .turn)
  ensure (decide (turn.phase = .active)) (.ofEntity .illegalPhase .turn)
  ensure (!(state.action actionId).isSome) (.ofEntity .duplicateEntity .action)
  let action : ActionState :=
    { id := actionId
      turnId
      digest
      actorId
      role
      environmentId
      phase := .proposed
      authorization := none }
  return ({ state with actions := state.actions ++ [action] },
    .new .actionProposed (.action actionId))

def authorizationWitness (action : ActionState) (revision : RevisionTuple)
    (transition : CapabilityUseTransition) :
    Except KernelError ActionAuthorizationWitness := do
  let scope := transition.scope
  ensure (!(decide (transition.actionId ≠ action.id)
      || decide (transition.actionDigest ≠ action.digest)
      || decide (scope.actor ≠ action.actorId)
      || decide (scope.role ≠ action.role)
      || decide (scope.environment ≠ action.environmentId)
      || decide (scope.revision ≠ revision)))
    (.new .authorityMismatch)
  return ⟨transition.transitionDigest, transition.permission.resourceId,
    transition.permission.capabilityName⟩

/-- The action a command names, in one of the phases the command allows. -/
def actionIn (state : KernelAggregate) (actionId : ActionId)
    (expected : ActionPhase → Bool) :
    Except KernelError (Nat × ActionState) := do
  let (index, action) ← orElseError (state.action actionId)
    (.ofEntity .missingEntity .action)
  ensure (expected action.phase) (.ofEntity .illegalPhase .action)
  return (index, action)

section Inputs

variable {Terms Facts : Type}

def authorizeAction (state : KernelAggregate) (actionId : ActionId)
    (inputs : ReducerInputs Terms Facts) : Applied := do
  let (index, action) ← actionIn state actionId (fun p => decide (p = .proposed))
  let transition ← orElseError inputs.capabilityUse
    (.ofAuthority .missingAuthorityInput .capabilityUse)
  let witness ← authorizationWitness action state.revision transition
  return (setAction state index
      { action with authorization := some witness, phase := .authorized },
    .new .actionAuthorized (.action actionId))

end Inputs

def actionPhase (state : KernelAggregate) (actionId : ActionId)
    (expected : ActionPhase → Bool) (next : ActionPhase)
    (eventKind : KernelEventKind) : Applied := do
  let (index, action) ← actionIn state actionId expected
  return (setAction state index { action with phase := next },
    .new eventKind (.action actionId))

def dispatchAction (state : KernelAggregate) (actionId : ActionId) : Applied :=
  actionPhase state actionId (fun p => decide (p = .authorized)) .dispatched
    .actionDispatched

def completeAction (state : KernelAggregate) (actionId : ActionId) : Applied :=
  actionPhase state actionId (fun p => decide (p = .dispatched)) .succeeded
    .actionCompleted

def failAction (state : KernelAggregate) (actionId : ActionId) : Applied :=
  actionPhase state actionId
    (fun p => decide (p = .authorized) || decide (p = .dispatched)) .failed
    .actionFailed

def cancelAction (state : KernelAggregate) (actionId : ActionId) : Applied :=
  actionPhase state actionId
    (fun p => decide (p = .proposed) || decide (p = .authorized)) .cancelled
    .actionCancelled

/-! ### Reviews -/

section Inputs

variable {Terms Facts : Type}

def requestReview (state : KernelAggregate) (runId : RunId)
    (attemptId : AttemptId) (reviewId : ReviewCycleId)
    (inputs : ReducerInputs Terms Facts) : Applied := do
  let ((_, run), (attemptIndex, attempt)) ← runAndAttempt state runId attemptId
  ensure (!(decide (run.phase ≠ .reviewing)
      || !(decide (attempt.phase = .submitted)
        || decide (attempt.phase = .reviewing))))
    (.ofEntity .illegalPhase .review)
  ensure (!(state.review reviewId).isSome) (.ofEntity .duplicateEntity .review)
  let count := state.reviews.countP fun review => decide (review.runId = runId)
  ensure (!decide (count ≥ inputs.contract.maxReviewCycles))
    (.ofEntity .illegalPhase .review)
  let state :=
    { state with
      reviews := state.reviews ++ [⟨reviewId, runId, attemptId, .requested⟩] }
  return (setAttempt state attemptIndex { attempt with phase := .reviewing },
    .new .reviewRequested (.review reviewId))

end Inputs

def reviewPhase (state : KernelAggregate) (reviewId : ReviewCycleId)
    (expected : ReviewPhase → Bool) (next : ReviewPhase)
    (eventKind : KernelEventKind) : Applied := do
  let (index, review) ← orElseError (state.review reviewId)
    (.ofEntity .missingEntity .review)
  ensure (expected review.phase) (.ofEntity .illegalPhase .review)
  return (setReview state index { review with phase := next },
    .new eventKind (.review reviewId))

def beginReview (state : KernelAggregate) (reviewId : ReviewCycleId) :
    Applied :=
  reviewPhase state reviewId (fun p => decide (p = .requested)) .active
    .reviewBegun

def submitReview (state : KernelAggregate) (reviewId : ReviewCycleId) :
    Applied :=
  reviewPhase state reviewId (fun p => decide (p = .active)) .submitted
    .reviewSubmitted

def invalidateReview (state : KernelAggregate) (reviewId : ReviewCycleId) :
    Applied :=
  reviewPhase state reviewId (fun p => !decide (p = .invalidated)) .invalidated
    .reviewInvalidated

/-! ### Waivers -/

def requestWaiver (state : KernelAggregate) (runId : RunId)
    (reviewId : ReviewCycleId) (findingId : FindingId) : Applied := do
  let (_, review) ← orElseError (state.review reviewId)
    (.ofEntity .missingEntity .review)
  ensure (decide (review.runId = runId)) (.ofEntity .parentMismatch .review)
  ensure (decide (review.phase = .submitted)) (.ofEntity .illegalPhase .review)
  ensure (!(state.waiver findingId).isSome) (.ofEntity .duplicateEntity .waiver)
  return ({ state with
      waivers := state.waivers ++ [⟨findingId, reviewId, runId, .requested⟩] },
    .new .waiverRequested (.waiver findingId))

def waiverPhase (state : KernelAggregate) (findingId : FindingId)
    (expected : WaiverPhase → Bool) (next : WaiverPhase)
    (eventKind : KernelEventKind) : Applied := do
  let (index, waiver) ← orElseError (state.waiver findingId)
    (.ofEntity .missingEntity .waiver)
  ensure (expected waiver.phase) (.ofEntity .illegalPhase .waiver)
  return (setWaiver state index { waiver with phase := next },
    .new eventKind (.waiver findingId))

def denyWaiver (state : KernelAggregate) (findingId : FindingId) : Applied :=
  waiverPhase state findingId (fun p => decide (p = .requested)) .denied
    .waiverDenied

def invalidateWaiver (state : KernelAggregate) (findingId : FindingId) :
    Applied :=
  waiverPhase state findingId (fun p => !decide (p = .invalidated)) .invalidated
    .waiverInvalidated

section Acceptance

variable {Terms Facts : Type}
variable (evaluateAcceptance : AcceptanceContract Terms → RevisionTuple →
  AcceptanceEvidence Facts → AcceptanceDecision)

def currentSuppliedWaiver (evidence : AcceptanceEvidence Facts)
    (findingId : FindingId) (revision : RevisionTuple) :
    Option WaiverObservation :=
  evidence.waivers.find? fun waiver =>
    decide (waiver.findingId = findingId)
      && decide (waiver.revision = revision)

def currentRequestedFinding (evidence : AcceptanceEvidence Facts)
    (reviewId : ReviewCycleId) (findingId : FindingId)
    (revision : RevisionTuple) : Bool :=
  evidence.reviews.any fun review =>
    decide (review.cycleId = reviewId) && decide (review.revision = revision)
      && decide (findingId ∈ review.findings)

def grantWaiver (state : KernelAggregate) (findingId : FindingId)
    (inputs : ReducerInputs Terms Facts) : Applied := do
  let (index, waiver) ← orElseError (state.waiver findingId)
    (.ofEntity .missingEntity .waiver)
  ensure (decide (waiver.phase = .requested)) (.ofEntity .illegalPhase .waiver)
  let (_, review) ← orElseError (state.review waiver.reviewCycleId)
    (.new .invalidAggregate)
  ensure (decide (review.runId = waiver.runId)) (.new .invalidAggregate)
  let evidence ← orElseError inputs.acceptanceEvidence
    (.ofAuthority .missingAuthorityInput .acceptanceEvidence)
  let mismatch := KernelError.ofAuthority .authorityMismatch .acceptanceEvidence
  let supplied ← orElseError
    (currentSuppliedWaiver evidence findingId state.revision) mismatch
  let approved := evidence.approvals.any fun approval =>
    decide (approval.requestId = supplied.approvalRequestId)
      && decide (approval.revision = state.revision)
      && decide (approval.subject = .findingWaiver findingId)
      && decide (approval.outcome = .approved)
  ensure approved mismatch
  ensure (currentRequestedFinding evidence waiver.reviewCycleId findingId
    state.revision) mismatch
  let decision := evaluateAcceptance inputs.contract state.revision evidence
  ensure (!decide (.invalidWaiver findingId ∈ decision.unmetConditions)) mismatch
  return (setWaiver state index { waiver with phase := .granted },
    .new .waiverGranted (.waiver findingId))

/-! ### Acceptance -/

def hasSubmittedReview (state : KernelAggregate) (runId : RunId)
    (attemptId : AttemptId) : Bool :=
  state.reviews.any fun review =>
    decide (review.runId = runId) && decide (review.attemptId = attemptId)
      && decide (review.phase = .submitted)

/-- The run and current attempt of an acceptance command. -/
def acceptanceSubject (state : KernelAggregate) (runId : RunId) :
    Except KernelError ((Nat × RunState) × (Nat × AttemptState)) := do
  let run ← orElseError (state.run runId) (.ofEntity .missingEntity .run)
  let attemptId ← orElseError run.2.currentAttemptId
    (.ofEntity .missingEntity .attempt)
  let attempt ← orElseError (state.attempt attemptId)
    (.ofEntity .missingEntity .attempt)
  return (run, attempt)

def beginAcceptance (state : KernelAggregate) (runId : RunId) : Applied := do
  let ((index, run), (_, attempt)) ← acceptanceSubject state runId
  ensure (!(decide (run.phase ≠ .reviewing)
      || decide (run.acceptance ≠ .pending)
      || decide (attempt.phase ≠ .reviewing)
      || !hasSubmittedReview state runId attempt.id))
    (.ofEntity .illegalPhase .acceptance)
  return (setRun state index { run with acceptance := .evaluating },
    .new .acceptanceBegun (.acceptance runId))

def evidenceMatchesProjection (state : KernelAggregate) (runId : RunId)
    (attemptId : AttemptId) (evidence : AcceptanceEvidence Facts) : Bool :=
  (evidence.reviews.all fun observation =>
    match state.review observation.cycleId with
    | none => false
    | some (_, review) =>
        decide (review.runId = runId) && decide (review.attemptId = attemptId)
          && decide (review.phase = .submitted)
          && decide (observation.revision = state.revision))
    && evidence.waivers.all fun observation =>
      match state.waiver observation.findingId with
      | none => false
      | some (_, waiver) =>
          decide (waiver.runId = runId) && decide (waiver.phase = .granted)
            && decide (observation.revision = state.revision)

def evaluate (state : KernelAggregate) (runId : RunId)
    (inputs : ReducerInputs Terms Facts) : Applied := do
  let ((index, run), (attemptIndex, attempt)) ← acceptanceSubject state runId
  ensure (!(decide (run.phase ≠ .reviewing)
      || decide (run.acceptance ≠ .evaluating)
      || decide (attempt.phase ≠ .reviewing)))
    (.ofEntity .illegalPhase .acceptance)
  let evidence ← orElseError inputs.acceptanceEvidence
    (.ofAuthority .missingAuthorityInput .acceptanceEvidence)
  ensure (evidenceMatchesProjection state runId attempt.id evidence)
    (.ofAuthority .authorityMismatch .acceptanceEvidence)
  let decision := evaluateAcceptance inputs.contract state.revision evidence
  if decision.isAcceptable then
    let state := setAttempt state attemptIndex
      { attempt with phase := .accepted }
    return (setRun state index
        { run with
          phase := .accepted
          acceptance := .accepted
          currentAttemptId := none },
      ⟨.acceptanceAccepted, .acceptance runId, some .accepted⟩)
  else
    let state := setAttempt state attemptIndex { attempt with phase := .fixing }
    return (setRun state index
        { run with phase := .fixing, acceptance := .needsChanges },
      ⟨.acceptanceNeedsChanges, .acceptance runId,
        some (.needsChanges decision.unmetConditions.length)⟩)

/-! ### The reducer -/

def applyCommand (state : KernelAggregate) (command : KernelCommand)
    (inputs : ReducerInputs Terms Facts) : Applied :=
  match command with
  | .pauseSession => pauseSession state
  | .resumeSession => resumeSession state
  | .closeSession => closeSession state
  | .startRun runId => startRun state runId inputs
  | .pauseRun runId => pauseRun state runId
  | .resumeRun runId => resumeRun state runId
  | .cancelRun runId =>
      terminateRun state runId .cancelled .cancelled .cancelled .cancelled
        .runCancelled
  | .failRun runId =>
      terminateRun state runId .failed .failed .failed .failed .runFailed
  | .exhaustRun runId =>
      terminateRun state runId .exhausted .exhausted .cancelled .cancelled
        .runExhausted
  | .rejectRun runId =>
      terminateRun state runId .rejected .failed .cancelled .cancelled
        .runRejected
  | .startAttempt runId attemptId => startAttempt state runId attemptId inputs
  | .resumeAttempt runId attemptId => resumeAttempt state runId attemptId
  | .submitAttempt runId attemptId => submitAttempt state runId attemptId
  | .failAttempt runId attemptId =>
      terminateAttempt state runId attemptId .failed .failed .failed
        .attemptFailed
  | .exhaustAttempt runId attemptId =>
      terminateAttempt state runId attemptId .exhausted .cancelled .cancelled
        .attemptExhausted
  | .startTurn attemptId turnId => startTurn state attemptId turnId
  | .completeTurn attemptId turnId => completeTurn state attemptId turnId
  | .failTurn attemptId turnId =>
      terminateTurn state attemptId turnId .failed .failed .turnFailed
  | .cancelTurn attemptId turnId =>
      terminateTurn state attemptId turnId .cancelled .cancelled .turnCancelled
  | .proposeAction turnId actionId digest actorId role environmentId =>
      proposeAction state turnId actionId digest actorId role environmentId
  | .authorizeAction actionId => authorizeAction state actionId inputs
  | .dispatchAction actionId => dispatchAction state actionId
  | .completeAction actionId => completeAction state actionId
  | .failAction actionId => failAction state actionId
  | .cancelAction actionId => cancelAction state actionId
  | .requestReview runId attemptId reviewId =>
      requestReview state runId attemptId reviewId inputs
  | .beginReview reviewId => beginReview state reviewId
  | .submitReview reviewId => submitReview state reviewId
  | .invalidateReview reviewId => invalidateReview state reviewId
  | .requestWaiver runId reviewId findingId =>
      requestWaiver state runId reviewId findingId
  | .grantWaiver findingId =>
      grantWaiver evaluateAcceptance state findingId inputs
  | .denyWaiver findingId => denyWaiver state findingId
  | .invalidateWaiver findingId => invalidateWaiver state findingId
  | .beginAcceptance runId => beginAcceptance state runId
  | .evaluateAcceptance runId => evaluate evaluateAcceptance state runId inputs

def containsCommand (state : KernelAggregate) (id : CommandId) : Bool :=
  decide (id ∈ state.acceptedCommandIds)

def containsEvent (state : KernelAggregate) (id : EventId) : Bool :=
  decide (id ∈ state.eventIds)

def preflight (state : KernelAggregate) (envelope : CommandEnvelope)
    (inputs : ReducerInputs Terms Facts) :
    Except KernelError EventSequence := do
  ensure state.isValid (.new .invalidAggregate)
  ensure (decide (envelope.revision = state.revision)) (.new .revisionMismatch)
  ensure (decide (envelope.expectedPreviousEventId = some state.headEventId))
    (.new .causalHeadMismatch)
  ensure (!(decide (inputs.contract.id ≠ state.contractBinding.contractId)
      || decide (inputs.contract.contentDigest ≠
          state.contractBinding.contractDigest)
      || (inputs.contract.bind state.revision).isNone))
    (.new .contractMismatch)
  ensure (!containsCommand state envelope.commandId) (.new .duplicateCommand)
  ensure (!containsEvent state envelope.eventId) (.new .duplicateEvent)
  match state.lastSequence.checkedNext with
  | .ok sequence => .ok sequence
  | .error _ => .error (.new .sequenceOverflow)

def sessionStepIsLegal (before after : KernelAggregate) (id : SessionId)
    (expected : SessionPhase → Bool) (target : SessionPhase) : Bool :=
  decide (before.session.id = id) && decide (after.session.id = id)
    && expected before.session.phase && decide (after.session.phase = target)

def acceptanceStepIsLegal (before after : KernelAggregate) (id : RunId)
    (phase : RunPhase) (acceptance : AcceptancePhase) : Bool :=
  match before.run id, after.run id with
  | some (_, beforeRun), some (_, afterRun) =>
      decide (beforeRun.phase = .reviewing)
        && decide (beforeRun.acceptance = .evaluating)
        && decide (afterRun.phase = phase)
        && decide (afterRun.acceptance = acceptance)
  | _, _ => false

def criticalStepIsLegal (before after : KernelAggregate)
    (event : KernelEventKind) (subject : KernelSubject) : Bool :=
  match event, subject with
  | .sessionPaused, .session id =>
      sessionStepIsLegal before after id (fun p => decide (p = .open)) .paused
  | .sessionResumed, .session id =>
      sessionStepIsLegal before after id (fun p => decide (p = .paused)) .open
  | .sessionClosed, .session id =>
      sessionStepIsLegal before after id (fun p => !decide (p = .closed))
        .closed
  | .acceptanceAccepted, .acceptance id =>
      acceptanceStepIsLegal before after id .accepted .accepted
  | .acceptanceNeedsChanges, .acceptance id =>
      acceptanceStepIsLegal before after id .fixing .needsChanges
  | .sessionPaused, _ => false
  | .sessionResumed, _ => false
  | .sessionClosed, _ => false
  | .acceptanceAccepted, _ => false
  | .acceptanceNeedsChanges, _ => false
  | _, _ => true

def noNewAcceptance (before after : KernelAggregate) : Bool :=
  after.runs.all fun run =>
    !decide (run.phase = .accepted) ||
      match before.run run.id with
      | some (_, beforeRun) => decide (beforeRun.phase = .accepted)
      | none => false

/-- The event cursor after one accepted command. -/
def appendEvent (state : KernelAggregate) (envelope : CommandEnvelope)
    (sequence : EventSequence) : KernelAggregate :=
  { state with
    headEventId := envelope.eventId
    lastSequence := sequence
    acceptedCommandIds := state.acceptedCommandIds ++ [envelope.commandId]
    eventIds := state.eventIds ++ [envelope.eventId] }

def reduceChecked (original : KernelAggregate) (envelope : CommandEnvelope)
    (command : KernelCommand) (inputs : ReducerInputs Terms Facts) :
    Except KernelError KernelTransition := do
  let nextSequence ← preflight original envelope inputs
  let (next, applied) ←
    applyCommand evaluateAcceptance original command inputs
  let next := appendEvent next envelope nextSequence
  ensure (criticalStepIsLegal original next applied.eventKind applied.subject)
    (.new .invalidAggregate)
  ensure (decide (applied.eventKind = .acceptanceAccepted)
      || noNewAcceptance original next)
    (.new .invalidAggregate)
  ensure next.isValid (.new .invalidAggregate)
  return {
    aggregate := { next with revision := original.revision }
    event :=
      { id := envelope.eventId
        commandId := envelope.commandId
        sequence := nextSequence
        previousEventId := some original.headEventId
        revision := original.revision
        kind := applied.eventKind
        subject := applied.subject }
    acceptanceOutcome := applied.acceptanceOutcome }

def reduce (state : KernelAggregate) (envelope : CommandEnvelope)
    (command : KernelCommand) (inputs : ReducerInputs Terms Facts) :
    KernelOutcome :=
  match reduceChecked evaluateAcceptance state envelope command inputs with
  | .ok transition => .applied transition
  | .error error => .rejected state error

end Acceptance

def openSession {Terms : Type} (projectId : ProjectId) (sessionId : SessionId)
    (contract : AcceptanceContract Terms) (revision : RevisionTuple)
    (envelope : CommandEnvelope) :
    Except KernelError (KernelAggregate × KernelEvent) := do
  ensure (decide (envelope.revision = revision)) (.new .revisionMismatch)
  ensure envelope.expectedPreviousEventId.isNone (.new .causalHeadMismatch)
  let binding ← orElseError (contract.bind revision) (.new .contractMismatch)
  let aggregate : KernelAggregate :=
    { projectId
      revision
      contractBinding := binding
      session := ⟨sessionId, .open⟩
      headEventId := envelope.eventId
      lastSequence := PositiveNumber.first
      acceptedCommandIds := [envelope.commandId]
      eventIds := [envelope.eventId]
      runs := []
      attempts := []
      turns := []
      actions := []
      reviews := []
      waivers := [] }
  ensure aggregate.isValid (.new .invalidAggregate)
  return (aggregate,
    { id := envelope.eventId
      commandId := envelope.commandId
      sequence := PositiveNumber.first
      previousEventId := none
      revision
      kind := .sessionOpened
      subject := .session sessionId })

end Peritus.Kernel.Reducer
