import Peritus.Gates.Canonical

/-!
The commands of a gate run, the events they become, and the three ways in: the
reducer with its plan, the reducer of a pause and a resume without it, and the
replay of a list of events.
-/

namespace Peritus.Gates.Reducer

open Peritus.Types Checked State Canonical

/-! ### Commands and events -/

inductive RecoveryDisposition
  | safeToRetry
  | terminalFailure
  | stillActive
deriving DecidableEq

inductive GateCommandKind
  | startRun (snapshotDigest : Sha256Digest)
  | prepareAttempt (gateId : GateId) (attempt : ActiveAttempt)
  | markDispatched (gateId : GateId) (executionId : GateExecutionId)
  | observeResult (gateId : GateId) (executionId : GateExecutionId)
      (result : GateAttemptResult)
  | classifyRecovery (gateId : GateId) (executionId : GateExecutionId)
      (disposition : RecoveryDisposition)
  | publishEvidence (gateId : GateId) (executionId : GateExecutionId)
      (receipt : GateEvidenceReceipt)
  | beginCancellation
  | pauseRun
  | resumeRun
  | finalizeRun
deriving DecidableEq

structure GateCommand where
  commandId : CommandId
  eventId : EventId
  runId : RunId
  expectedSequence : Nat
  expectedPreviousEvent : Option EventId
  priorStateDigest : Sha256Digest
  revision : RevisionTuple
  kind : GateCommandKind
  shape : expectedSequence = 0 ↔ expectedPreviousEvent = none
deriving DecidableEq

inductive GateEventKind
  | runStarted (snapshotDigest : Sha256Digest)
  | attemptPrepared (gateId : GateId) (attempt : ActiveAttempt)
  | attemptDispatched (gateId : GateId) (executionId : GateExecutionId)
  | resultObserved (gateId : GateId) (executionId : GateExecutionId)
      (result : GateAttemptResult)
  | recoveryClassified (gateId : GateId) (executionId : GateExecutionId)
      (disposition : RecoveryDisposition)
  | evidencePublished (gateId : GateId) (executionId : GateExecutionId)
      (receipt : GateEvidenceReceipt)
  | cancellationStarted
  | runPaused (resumePhase : GateResumePhase)
  | runResumed (resumePhase : GateResumePhase)
  | runFinalized
deriving DecidableEq

structure GateEvent where
  id : EventId
  commandId : CommandId
  sequence : EventSequence
  previousEvent : Option EventId
  runId : RunId
  revision : RevisionTuple
  priorStateDigest : Sha256Digest
  successorStateDigest : Sha256Digest
  kind : GateEventKind
deriving DecidableEq

structure GateTransition where
  event : GateEvent
  state : GateRunState

/-! ### Checks -/

def unknownGate : GateError :=
  reject .identityMismatch "gate identity is absent from the exact plan"

def illegal (detail : String) : GateError := reject .illegalTransition detail

def replayError (detail : String) : GateError := reject .replayMismatch detail

section Checks

variable (plan : GatePlan) (state : GateRunState)

def requireActive : Except GateError Unit :=
  ensure (decide (state.phase = .active)) (illegal "gate run is not active")

def slotOf (gateId : GateId) : Except GateError GateSlot :=
  match state.slot gateId with
  | some slot => .ok slot
  | none => .error unknownGate

def plannedOf (gateId : GateId) : Except GateError PlannedGate :=
  match plan.gate gateId with
  | some planned => .ok planned
  | none => .error unknownGate

def requireAttempt (slot : GateSlot) (phase : GateSlotPhase)
    (executionId : GateExecutionId) : Except GateError Unit :=
  ensure (decide (slot.phase = phase) &&
      slot.active.any fun active => decide (active.executionId = executionId))
    (reject .identityMismatch "gate phase or active execution identity differs")

def dependenciesSatisfied (gateId : GateId) : Bool :=
  (plan.gate gateId).any fun gate =>
    gate.dependencies.all fun dependency =>
      (state.slot dependency).any fun slot => decide (slot.phase = .passed)

end Checks

/-! ### The commands -/

def resultPhase (runPhase : GateRunPhase) (attempts maximum : Nat)
    (result : GateAttemptResult) : GateSlotPhase :=
  if runPhase = .cancelling then .cancelled
  else
    match result.kind with
    | .passed => .evidencePending
    | .candidateFailure => .failed
    | _ =>
        if result.retry = .afterRecovery then .recoveryPending
        else if maximum ≤ attempts ∨ result.retry = .never then .failed
        else .retryPending

def recoveryPhase (runPhase : GateRunPhase) (attempts maximum : Nat)
    (disposition : RecoveryDisposition) : GateSlotPhase :=
  if runPhase = .cancelling then
    match disposition with
    | .stillActive => .recoveryPending
    | .safeToRetry | .terminalFailure => .cancelled
  else
    match disposition with
    | .safeToRetry => if attempts < maximum then .retryPending else .failed
    | .terminalFailure => .failed
    | .stillActive => .recoveryPending

section Commands

variable (sha256 : List UInt8 → Sha256Digest) (plan : GatePlan)
  (state : GateRunState)

abbrev Applied := GateRunState × GateEventKind

def prepareAttempt (gateId : GateId) (attempt : ActiveAttempt) :
    Except GateError Applied := do
  requireActive state
  let slot ← slotOf state gateId
  ensure ((decide (slot.phase = .pending) || decide (slot.phase = .retryPending)) &&
      decide (attempt.snapshotDigest = state.snapshotDigest) &&
      decide (attempt.ordinal.get = min (slot.attempts + 1) (2 ^ 16 - 1)) &&
      decide (attempt.ordinal.get ≤ state.maximumAttempts) &&
      decide (attempt.executionId ∉ state.usedExecutions) &&
      decide (attempt.actionId ∉ state.usedActions))
    (reject .illegalRetry
      ("attempt phase, snapshot, ordinal, limit, execution, or action identity " ++
        "is invalid"))
  ensure (dependenciesSatisfied plan state gateId)
    (reject .dependencyUnsatisfied
      "attempt cannot begin before all declared dependencies pass")
  let prepared := state.updateSlot gateId fun slot => slot.prepare attempt
  .ok ({ prepared with
    usedExecutions := state.usedExecutions ++ [attempt.executionId]
    usedActions := state.usedActions ++ [attempt.actionId] },
    .attemptPrepared gateId attempt)

def markDispatched (gateId : GateId) (executionId : GateExecutionId) :
    Except GateError Applied := do
  requireActive state
  let slot ← slotOf state gateId
  requireAttempt slot .prepared executionId
  .ok (state.updateSlot gateId GateSlot.dispatch,
    .attemptDispatched gateId executionId)

/-- Results and recoveries are taken while the run is active or cancelling. -/
def requireRunning (detail : String) : Except GateError Unit :=
  ensure (decide (state.phase = .active) || decide (state.phase = .cancelling))
    (illegal detail)

def observeResult (eventId : EventId) (gateId : GateId)
    (executionId : GateExecutionId) (result : GateAttemptResult) :
    Except GateError Applied := do
  requireRunning state "result cannot be observed after terminal aggregation"
  let slot ← slotOf state gateId
  requireAttempt slot .dispatched executionId
  ensure (decide (result.gateId = gateId))
    (reject .identityMismatch "normalized result belongs to another gate")
  let next := resultPhase state.phase slot.attempts state.maximumAttempts result
  .ok (state.updateSlot gateId fun slot => slot.observe result eventId next,
    .resultObserved gateId executionId result)

def classifyRecovery (gateId : GateId) (executionId : GateExecutionId)
    (disposition : RecoveryDisposition) : Except GateError Applied := do
  requireRunning state
    "recovery cannot be classified while the gate run is paused"
  let slot ← slotOf state gateId
  ensure ((decide (slot.phase = .dispatched) ||
        decide (slot.phase = .recoveryPending)) &&
      slot.active.any fun active => decide (active.executionId = executionId))
    (reject .identityMismatch
      "recovery phase or active execution identity differs")
  let phase := recoveryPhase state.phase slot.attempts state.maximumAttempts
    disposition
  .ok (state.updateSlot gateId fun slot => slot.recover phase,
    .recoveryClassified gateId executionId disposition)

def evidenceOf {α : Type} (value : Option α) (detail : String) :
    Except GateError α :=
  match value with
  | some value => .ok value
  | none => .error (reject .evidenceInvalid detail)

def publishEvidence (gateId : GateId) (executionId : GateExecutionId)
    (receipt : GateEvidenceReceipt) : Except GateError Applied := do
  requireActive state
  let planned ← plannedOf plan gateId
  let slot ← slotOf state gateId
  requireAttempt slot .evidencePending executionId
  let attempt ← evidenceOf slot.active
    "evidence-pending gate has no active attempt"
  let result ← evidenceOf slot.lastResult
    "evidence-pending gate has no passing result"
  let resultEvent ← evidenceOf slot.resultEvent
    "evidence-pending gate has no result event"
  let expected ← newPublication sha256 state.runId gateId attempt state.revision
    resultEvent receipt.resultPosition result.toolResultDigest
    planned.requiredEvidence result.artifacts
  ensure (result.passed && decide (receipt.publication = expected) &&
      decide (receipt.gateId = gateId) &&
      decide (receipt.executionId = executionId) &&
      decide (receipt.revision = state.revision) &&
      exactRequirements receipt.evidence planned.requiredEvidence)
    (reject .evidenceInvalid
      "evidence receipt is missing, stale, or bound to another passing attempt")
  .ok (state.updateSlot gateId fun slot => slot.publish receipt,
    .evidencePublished gateId executionId receipt)

/-- The phases that own no effect. -/
def isCancellable : GateSlotPhase → Bool
  | .pending | .prepared | .retryPending | .evidencePending => true
  | _ => false

def cancel : Applied :=
  let begins := decide (state.phase = .active) ||
    decide (state.phase = .paused .active)
  ({ state with
    phase := .cancelling
    slots :=
      if begins then
        state.slots.map fun slot =>
          if isCancellable slot.phase then slot.cancel else slot
      else state.slots }, .cancellationStarted)

def pause : Except GateError Applied :=
  match state.phase with
  | .active => .ok ({ state with phase := .paused .active }, .runPaused .active)
  | .cancelling =>
      .ok ({ state with phase := .paused .cancelling }, .runPaused .cancelling)
  | .paused _ | .terminal =>
      .error (illegal "only an unpaused nonterminal gate run can pause")

def resume : Except GateError Applied :=
  match state.phase with
  | .paused .active => .ok ({ state with phase := .active }, .runResumed .active)
  | .paused .cancelling =>
      .ok ({ state with phase := .cancelling }, .runResumed .cancelling)
  | .active | .cancelling | .terminal =>
      .error (illegal "only a paused gate run can resume")

def applyLifecycle : GateCommandKind → Except GateError Applied
  | .pauseRun => pause state
  | .resumeRun => resume state
  | _ => .error (illegal "plan-free gate transition admits only pause or resume")

/-! ### The terminal -/

def nonPassing : List GateId :=
  (state.slots.filter fun slot => decide (slot.phase ≠ .passed)).map
    GateSlot.gateId

/-- A failure that nothing authoritative stands behind. -/
def isIndeterminate (slot : GateSlot) : Bool :=
  decide (slot.phase = .failed) &&
    slot.lastResult.all fun result => decide (result.retry = .afterRecovery)

def terminalKind : GateTerminalKind :=
  if nonPassing state = [] then .passed
  else if state.phase = .cancelling then .cancelled
  else if state.slots.any isIndeterminate then .indeterminate
  else .failed

def finalize : Except GateError Applied := do
  ensure (!state.phase.isPaused)
    (illegal "paused gate run must resume or cancel before finalization")
  ensure (state.slots.all fun slot => slot.phase.isSettled)
    (reject .cancellationIncomplete
      ("gate run still has runnable, active, recovery, or evidence-pending " ++
        "work"))
  let terminal : GateTerminal :=
    ⟨terminalKind state, nonPassing state,
      terminalDigest sha256 (terminalKind state) (nonPassing state)
        state.stateDigest⟩
  .ok ({ state with terminal := some terminal, phase := .terminal }, .runFinalized)

def apply (eventId : EventId) : GateCommandKind → Except GateError Applied
  | .startRun _ => .error (illegal "run already started")
  | .prepareAttempt gateId attempt => prepareAttempt plan state gateId attempt
  | .markDispatched gateId executionId => markDispatched state gateId executionId
  | .observeResult gateId executionId result =>
      observeResult state eventId gateId executionId result
  | .classifyRecovery gateId executionId disposition =>
      classifyRecovery state gateId executionId disposition
  | .publishEvidence gateId executionId receipt =>
      publishEvidence sha256 plan state gateId executionId receipt
  | .beginCancellation => .ok (cancel state)
  | .pauseRun => applyLifecycle state .pauseRun
  | .resumeRun => applyLifecycle state .resumeRun
  | .finalizeRun => finalize sha256 state

end Commands

/-! ### Blocked gates -/

section Blocks

variable (plan : GatePlan)

def isBlocker (state : GateRunState) (dependency : GateId) : Bool :=
  (state.slot dependency).any fun slot =>
    decide (slot.phase = .failed) || decide (slot.phase = .blocked) ||
      decide (slot.phase = .cancelled)

def blockerOf (state : GateRunState) (gateId : GateId) : Option GateId :=
  (plan.gate gateId).bind fun gate => gate.dependencies.find? (isBlocker state)

/-- One gate of the pass, with the state so far and whether it has changed. -/
def blockGate (pass : GateRunState × Bool) (gateId : GateId) :
    GateRunState × Bool :=
  match pass.1.slot gateId with
  | none => pass
  | some slot =>
      if slot.phase ≠ .pending then pass
      else
        match blockerOf plan pass.1 gateId with
        | none => pass
        | some blocker =>
            (pass.1.updateSlot gateId fun slot => slot.block blocker, true)

def blockPass (state : GateRunState) : GateRunState × Bool :=
  plan.executionOrder.foldl (blockGate plan) (state, false)

/-- The loop, for at most so many rounds: each round but the last one blocks a
gate. -/
def blockRounds : Nat → GateRunState → GateRunState
  | 0, state => state
  | rounds + 1, state =>
      if (blockPass plan state).2 then blockRounds rounds (blockPass plan state).1
      else (blockPass plan state).1

def propagateBlocks (state : GateRunState) : GateRunState :=
  blockRounds plan (state.slots.length + 1) state

end Blocks

/-! ### The reducer and the replay -/

section Reducer

variable (sha256 : List UInt8 → Sha256Digest)

def genesis (plan : GatePlan) (snapshotDigest : Sha256Digest)
    (eventId : EventId) : GateRunState where
  runId := plan.runId
  planDigest := plan.digest
  revision := plan.revision
  snapshotDigest := snapshotDigest
  maximumAttempts := plan.maximumAttempts
  phase := .active
  sequence := .first
  lastEventId := eventId
  stateDigest := zeroDigest
  slots := plan.gates.map fun gate => .pending gate.id
  usedExecutions := []
  usedActions := []
  terminal := none

/-- The state with its digest taken over its bytes. -/
def sealState (state : GateRunState) : GateRunState :=
  { state with stateDigest := stateDigest sha256 state }

def start (plan : GatePlan) (command : GateCommand) :
    Except GateError GateTransition :=
  match command.kind with
  | .startRun snapshotDigest => do
      ensure (decide (command.runId = plan.runId) &&
          decide (command.revision = plan.revision) &&
          decide (command.expectedSequence = 0) &&
          command.expectedPreviousEvent.isNone &&
          decide (command.priorStateDigest = zeroDigest))
        (reject .bindingMismatch
          "genesis command differs from the exact plan or genesis fences")
      let state := sealState sha256 (genesis plan snapshotDigest command.eventId)
      let event : GateEvent :=
        { id := command.eventId
          commandId := command.commandId
          sequence := .first
          previousEvent := none
          runId := command.runId
          revision := command.revision
          priorStateDigest := zeroDigest
          successorStateDigest := state.stateDigest
          kind := .runStarted snapshotDigest }
      .ok ⟨event, state⟩
  | _ => .error (illegal "genesis command is not StartRun")

def GateCommandKind.isStart : GateCommandKind → Bool
  | .startRun _ => true
  | _ => false

def GateCommandKind.isLifecycle : GateCommandKind → Bool
  | .pauseRun | .resumeRun => true
  | _ => false

/-- The fences of the predecessor, which both reducers check. -/
def fencesMatch (state : GateRunState) (command : GateCommand) : Bool :=
  decide (state.phase ≠ .terminal) && decide (command.runId = state.runId) &&
    decide (command.revision = state.revision) &&
    decide (command.expectedSequence = state.sequence.get) &&
    decide (command.expectedPreviousEvent = some state.lastEventId) &&
    decide (command.priorStateDigest = state.stateDigest)

def validateFences (plan : GatePlan) (state : GateRunState)
    (command : GateCommand) : Except GateError Unit :=
  ensure (decide (state.runId = plan.runId) &&
      decide (state.planDigest = plan.digest) &&
      decide (state.revision = plan.revision) && fencesMatch state command &&
      !GateCommandKind.isStart command.kind)
    (reject .replayMismatch
      "gate command predecessor, plan, revision, or lifecycle fence differs")

def validateLifecycleFences (state : GateRunState) (command : GateCommand) :
    Except GateError Unit :=
  ensure (fencesMatch state command && GateCommandKind.isLifecycle command.kind)
    (reject .replayMismatch
      ("gate lifecycle command or predecessor fence differs from the durable " ++
        "checkpoint"))

def nextSequence (state : GateRunState) : Except GateError EventSequence :=
  state.sequence.checkedNext.mapError fun _ =>
    reject .limitExceeded "gate event sequence overflowed"

/-- The cursor of the successor, and its digest. -/
def advance (state : GateRunState) (sequence : EventSequence)
    (eventId : EventId) : GateRunState :=
  sealState sha256 { state with
    sequence
    lastEventId := eventId
    stateDigest := zeroDigest }

def transition (state : GateRunState) (command : GateCommand)
    (sequence : EventSequence) (applied : GateRunState) (kind : GateEventKind) :
    GateTransition :=
  let successor := advance sha256 applied sequence command.eventId
  { event :=
      { id := command.eventId
        commandId := command.commandId
        sequence := sequence
        previousEvent := some state.lastEventId
        runId := command.runId
        revision := command.revision
        priorStateDigest := state.stateDigest
        successorStateDigest := successor.stateDigest
        kind := kind }
    state := successor }

def decideCommand (plan : GatePlan) (state : GateRunState)
    (command : GateCommand) : Except GateError GateTransition := do
  validateFences plan state command
  let sequence ← nextSequence state
  let applied ← apply sha256 plan state command.eventId command.kind
  .ok (transition sha256 state command sequence (propagateBlocks plan applied.1)
    applied.2)

def decideLifecycle (state : GateRunState) (command : GateCommand) :
    Except GateError GateTransition := do
  validateLifecycleFences state command
  let sequence ← nextSequence state
  let applied ← applyLifecycle state command.kind
  .ok (transition sha256 state command sequence applied.1 applied.2)

def commandKind : GateEventKind → GateCommandKind
  | .runStarted snapshotDigest => .startRun snapshotDigest
  | .attemptPrepared gateId attempt => .prepareAttempt gateId attempt
  | .attemptDispatched gateId executionId => .markDispatched gateId executionId
  | .resultObserved gateId executionId result =>
      .observeResult gateId executionId result
  | .recoveryClassified gateId executionId disposition =>
      .classifyRecovery gateId executionId disposition
  | .evidencePublished gateId executionId receipt =>
      .publishEvidence gateId executionId receipt
  | .cancellationStarted => .beginCancellation
  | .runPaused _ => .pauseRun
  | .runResumed _ => .resumeRun
  | .runFinalized => .finalizeRun

def commandFromEvent (event : GateEvent) (expectedSequence : Nat)
    (previous : Option EventId) : Except GateError GateCommand :=
  if h : expectedSequence = 0 ↔ previous = none then
    .ok ⟨event.commandId, event.id, event.runId, expectedSequence, previous,
      event.priorStateDigest, event.revision, commandKind event.kind, h⟩
  else
    .error (reject .replayMismatch "command predecessor shape is inconsistent")

def replayEvents (plan : GatePlan) (state : GateRunState) (ids : List EventId) :
    List GateEvent → Except GateError GateRunState
  | [] => .ok state
  | event :: rest => do
      ensure (decide (event.id ∉ ids))
        (replayError "gate event identity is duplicated")
      let command ← commandFromEvent event state.sequence.get
        (some state.lastEventId)
      let found ← decideCommand sha256 plan state command
      ensure (decide (found.event = event))
        (replayError "gate event differs from deterministic reduction")
      replayEvents plan found.state (event.id :: ids) rest

def replay (plan : GatePlan) (events : List GateEvent) :
    Except GateError GateRunState :=
  match events with
  | [] => .error (reject .replayMismatch "gate replay is empty")
  | first :: rest => do
      let command ← commandFromEvent first 0 none
      let found ← start sha256 plan command
      ensure (decide (found.event = first))
        (replayError "genesis gate event differs from deterministic reduction")
      replayEvents sha256 plan found.state [first.id] rest

end Reducer

end Peritus.Gates.Reducer
