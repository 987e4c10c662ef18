import Peritus.Agent.Canonical

/-!
The commands of a turn, the events they become, and the two ways in: the
reducer, which takes one command, and the replay of a list of events.
-/

namespace Peritus.Agent.Reducer

open Peritus.Types Checked State
open Canonical (stateDigest raw u64 digest)

/-! ### Commands and events -/

inductive AgentCommandKind
  | contextPrepared (context : ContextRecord)
  | modelRequestStarted (callId : ModelCallId) (requestDigest : Sha256Digest)
  | providerEventObserved (record : ProviderEventRecord)
  | providerRetryScheduled (record : ProviderRetryRecord)
  | toolCallsProposed (terminal : ModelTerminalRecord)
      (proposals : List ToolProposal)
  | completionProposed (terminal : ModelTerminalRecord)
      (proposal : CompletionProposal)
  | authorizationStarted
  | toolAuthorized (ordinal : ToolOrdinal) (authorityDigest : Sha256Digest)
  | toolDenied (ordinal : ToolOrdinal) (result : ToolResultRecord)
  | toolExecutionStarted
  | toolDispatched (ordinal : ToolOrdinal)
  | toolActivated (ordinal : ToolOrdinal)
  | toolProgressObserved (ordinal : ToolOrdinal) (sequence : Nat)
      (progressDigest : Sha256Digest)
  | toolCompleted (ordinal : ToolOrdinal) (result : ToolResultRecord)
  | resultRecordingStarted
  | resultsRecorded (transcriptDigest : Sha256Digest)
  | paused
  | resumed (recoveryChecked : Bool)
  | cancellationRequested
  | cancellationFinished
  | failed (failure : AgentFailure)
  | exhausted (failure : AgentFailure)
  | completionCommitted
deriving DecidableEq

structure AgentCommand where
  commandId : CommandId
  eventId : EventId
  expectedRevision : RevisionNumber
  expectedStateDigest : Sha256Digest
  kind : AgentCommandKind
deriving DecidableEq

inductive AgentEventKind
  | started (binding : AgentBinding) (limits : AgentLimits)
  | commandAccepted (kind : AgentCommandKind)
deriving DecidableEq

structure AgentEvent where
  id : EventId
  commandId : CommandId
  sequence : EventSequence
  previousEventId : Option EventId
  priorPhase : Option AgentPhase
  priorResumable : Option ActivePhase
  priorRevision : Option RevisionNumber
  successorRevision : RevisionNumber
  priorStateDigest : Sha256Digest
  successorStateDigest : Sha256Digest
  kind : AgentEventKind
deriving DecidableEq

structure AgentTransition where
  event : AgentEvent
  state : AgentTurnState

/-! ### Control of a turn -/

inductive ControlRejection
  | illegalPhase
  | recoveryUnchecked
  | noResumablePhase
deriving DecidableEq

def pause (state : AgentTurnState) : Except ControlRejection AgentTurnState :=
  match state.phase with
  | .active active => .ok { state with phase := .paused, pausedFrom := some active }
  | _ => .error .illegalPhase

def resume (state : AgentTurnState) (recoveryChecked : Bool) :
    Except ControlRejection AgentTurnState :=
  match state.phase with
  | .paused =>
      if !recoveryChecked then .error .recoveryUnchecked
      else
        match state.pausedFrom with
        | none => .error .noResumablePhase
        | some active =>
            .ok { state with phase := .active active, pausedFrom := none }
  | _ => .error .illegalPhase

def requestCancellation (state : AgentTurnState) :
    Except ControlRejection AgentTurnState :=
  match state.phase with
  | .active _ | .paused =>
      .ok { state with phase := .cancelling, pausedFrom := none }
  | _ => .error .illegalPhase

def finishCancellation (state : AgentTurnState) :
    Except ControlRejection AgentTurnState :=
  match state.phase with
  | .cancelling => .ok { state with phase := .terminal .cancelled }
  | _ => .error .illegalPhase

/-! ### Phases of the other commands -/

inductive PhaseTransitionRejection
  | illegalPhase
  | providerNotInFlight
  | completionAbsent
  | controlCommand
deriving DecidableEq

def requiredPhase (before expected after : AgentPhase) :
    Except PhaseTransitionRejection AgentPhase :=
  if before.tag = expected.tag then .ok after else .error .illegalPhase

def nonterminalFailure (before : AgentPhase) :
    Except PhaseTransitionRejection AgentPhase :=
  match before with
  | .terminal _ => .error .illegalPhase
  | _ => .ok (.terminal .failed)

def commandPhaseTransition (before : AgentPhase) (kind : AgentCommandKind)
    (providerInFlight completionPresent : Bool) :
    Except PhaseTransitionRejection AgentPhase :=
  match kind with
  | .contextPrepared _ =>
      requiredPhase before (.active .preparingContext) (.active .requestingModel)
  | .modelRequestStarted _ _ =>
      requiredPhase before (.active .requestingModel) (.active .streamingResponse)
  | .providerEventObserved _ =>
      requiredPhase before (.active .streamingResponse)
        (.active .streamingResponse)
  | .providerRetryScheduled _ =>
      if before.tag ≠ (AgentPhase.active .streamingResponse).tag then
        .error .illegalPhase
      else if !providerInFlight then .error .providerNotInFlight
      else .ok (.active .requestingModel)
  | .toolCallsProposed _ _ =>
      requiredPhase before (.active .streamingResponse)
        (.active .proposedToolCalls)
  | .completionProposed _ _ =>
      requiredPhase before (.active .streamingResponse)
        (.active .proposedCompletion)
  | .authorizationStarted =>
      requiredPhase before (.active .proposedToolCalls)
        (.active .awaitingAuthorization)
  | .toolAuthorized _ _ | .toolDenied _ _ =>
      requiredPhase before (.active .awaitingAuthorization)
        (.active .awaitingAuthorization)
  | .toolExecutionStarted =>
      requiredPhase before (.active .awaitingAuthorization)
        (.active .executingTools)
  | .toolDispatched _ | .toolActivated _ | .toolProgressObserved _ _ _
  | .toolCompleted _ _ =>
      requiredPhase before (.active .executingTools) (.active .executingTools)
  | .resultRecordingStarted =>
      requiredPhase before (.active .executingTools) (.active .recordingResults)
  | .resultsRecorded _ =>
      requiredPhase before (.active .recordingResults)
        (.active .preparingContext)
  | .failed _ | .exhausted _ => nonterminalFailure before
  | .completionCommitted =>
      if before.tag ≠ (AgentPhase.active .proposedCompletion).tag then
        .error .illegalPhase
      else if !completionPresent then .error .completionAbsent
      else .ok (.terminal .completed)
  | .paused | .resumed _ | .cancellationRequested | .cancellationFinished =>
      .error .controlCommand

/-! ### Rejections of the reducer -/

section Rejections

variable (state : AgentTurnState)

def scopedError (error : AgentRejection) : AgentRejection :=
  error.at state.binding.turnId state.phase

def reject (code : AgentErrorCode) (recovery : AgentRecovery)
    (detail : String) : AgentRejection :=
  (AgentRejection.new code .reduce recovery detail).at state.binding.turnId
    state.phase

def illegal : AgentRejection :=
  reject state .illegalPhase .correctRequest
    "command is illegal in the current phase"

def invalid (detail : String) : AgentRejection :=
  reject state .invalidCommand .correctRequest detail

def ineligible (detail : String) : AgentRejection :=
  reject state .completionIneligible .correctRequest detail

def overflow : AgentRejection :=
  reject state .arithmeticOverflow .exhausted "aggregate sequence overflow"

def phaseTransitionRejection : PhaseTransitionRejection → AgentRejection
  | .illegalPhase | .controlCommand => illegal state
  | .providerNotInFlight =>
      reject state .invalidCommand .resumeProvider
        "provider retry requires an in-flight model call"
  | .completionAbsent => ineligible state "completion proposal is absent"

def controlRejection : ControlRejection → AgentRejection
  | .illegalPhase => illegal state
  | .recoveryUnchecked =>
      reject state .invalidCommand .restartTurn
        "resume requires completed recovery checks"
  | .noResumablePhase => invalid state "paused state has no resumable phase"

def require (expected : AgentPhase) : Except AgentRejection Unit :=
  ensure (decide (state.phase = expected)) (illegal state)

def requireSlot (actual expected : ToolSlotPhase) : Except AgentRejection Unit :=
  ensure (decide (actual = expected)) (invalid state "tool slot phase is illegal")

def tools : Except AgentRejection ToolBatch :=
  match state.tools with
  | some batch => .ok batch
  | none => .error (invalid state "tool batch is absent")

/-- An update of one slot of the batch. -/
def updateSlot (ordinal : ToolOrdinal) (update : ToolSlot → ToolSlot) :
    Except AgentRejection AgentTurnState := do
  let batch ← tools state
  let updated ← batch.updateSlot ordinal update
  .ok { state with tools := some updated }

def slotPhase (ordinal : ToolOrdinal) : Except AgentRejection ToolSlotPhase := do
  let batch ← tools state
  batch.slotPhase ordinal

end Rejections

/-! ### Updates of the model state -/

section Model

variable (sha256 : List UInt8 → Sha256Digest)

def setModelStarted (model : ModelState) (callId : ModelCallId)
    (requestDigest : Sha256Digest) : ModelState :=
  { model with
    cursor := if model.resumeExact then model.cursor else 0
    callId := some callId
    requestDigest := some requestDigest
    responseDigest := none
    inFlight := true
    normalTerminal := false
    incompleteItems := false
    usageSettled := false
    retryPending := false
    resumeExact := false }

def streamPrior (model : ModelState) : List UInt8 :=
  match model.streamDigest with
  | some prior => digest prior
  | none => []

def setRetryScheduled (model : ModelState) (record : ProviderRetryRecord) :
    ModelState :=
  let class' : List UInt8 × Bool :=
    match record.retryClass with
    | .exactResume cursor => (Canonical.u8 1 ++ u64 cursor, true)
    | .safeNewRequest => (Canonical.u8 2, false)
  { model with
    streamDigest := some (sha256 (raw "peritus.agent.provider-retry.v1\x00" ++
      streamPrior model ++ digest record.failureDigest ++
      digest record.requestDigest ++ class'.1))
    resumeExact := class'.2
    callId := none
    requestDigest := some record.requestDigest
    responseDigest := none
    inFlight := false
    retryCount := model.retryCount + 1
    retryPending := true }

def setProviderObserved (model : ModelState) (record : ProviderEventRecord) :
    ModelState :=
  { model with
    streamDigest := some (sha256 (raw "peritus.agent.provider-stream.v1\x00" ++
      streamPrior model ++ u64 record.cursor ++ digest record.eventDigest ++
      u64 record.outputBytes ++ Canonical.bool record.duplicate))
    cursor := if record.duplicate then model.cursor else record.cursor }

def setModelTerminal (model : ModelState) (terminal : ModelTerminalRecord) :
    ModelState :=
  { model with
    responseDigest := some terminal.responseDigest
    inFlight := false
    normalTerminal := terminal.normalTerminal
    incompleteItems := terminal.incompleteItems
    usageSettled := terminal.usageSettled }

end Model

/-! ### One command kind -/

section Kinds

variable (sha256 : List UInt8 → Sha256Digest) (state : AgentTurnState)

def validateTerminal (terminal : ModelTerminalRecord) :
    Except AgentRejection Unit :=
  ensure (terminal.normalTerminal && !terminal.incompleteItems &&
      terminal.usageSettled)
    (ineligible state "model terminal facts do not permit progress")

def prepareContext (context : ContextRecord) :
    Except AgentRejection AgentTurnState := do
  require state (.active .preparingContext)
  let counters ← (state.counters.contextCycle state.limits).mapError (scopedError state)
  .ok { state with counters, context := some context }

def startModel (callId : ModelCallId) (requestDigest : Sha256Digest) :
    Except AgentRejection AgentTurnState := do
  require state (.active .requestingModel)
  ensure (!(state.model.retryPending &&
      decide (state.model.requestDigest ≠ some requestDigest)))
    (reject state .causalMismatch .resumeProvider
      "retry request digest does not match the scheduled request")
  .ok { state with model := setModelStarted state.model callId requestDigest }

def observeProvider (record : ProviderEventRecord) :
    Except AgentRejection AgentTurnState := do
  require state (.active .streamingResponse)
  let ordered :=
    if record.duplicate then
      decide (0 < record.cursor) && decide (record.cursor ≤ state.model.cursor)
    else
      decide (state.model.cursor + 1 ≤ u64Max) &&
        decide (state.model.cursor + 1 = record.cursor)
  ensure ordered ((AgentRejection.new .invalidProgress .reduce .resumeProvider
    "provider cursor is not canonical").at state.binding.turnId state.phase)
  let counters ← (state.counters.providerEvent state.limits
    record.outputBytes).mapError (scopedError state)
  .ok { state with
    counters
    model := setProviderObserved sha256 state.model record }

def scheduleRetry (record : ProviderRetryRecord) :
    Except AgentRejection AgentTurnState := do
  require state (.active .streamingResponse)
  ensure state.model.inFlight
    (reject state .invalidCommand .resumeProvider
      "provider retry requires an in-flight model call")
  let resumable :=
    match record.retryClass with
    | .exactResume cursor =>
        decide (cursor ≠ 0) && decide (cursor = state.model.cursor)
    | .safeNewRequest => true
  ensure resumable
    (reject state .invalidProgress .resumeProvider
      "exact provider resume cursor does not match the reduced stream")
  .ok { state with model := setRetryScheduled sha256 state.model record }

def proposeTools (terminal : ModelTerminalRecord)
    (proposals : List ToolProposal) : Except AgentRejection AgentTurnState := do
  require state (.active .streamingResponse)
  validateTerminal state terminal
  let batch ← ToolBatch.new proposals state.binding.revision
    state.limits.maxToolCalls
  ensure (decide (proposals.length < 2 ^ 16))
    (invalid state "tool count cannot be represented")
  let counters ← (state.counters.addTools state.limits
    proposals.length).mapError (scopedError state)
  .ok { state with
    counters
    model := setModelTerminal state.model terminal
    tools := some batch }

def proposeCompletion (terminal : ModelTerminalRecord)
    (proposal : CompletionProposal) : Except AgentRejection AgentTurnState := do
  require state (.active .streamingResponse)
  validateTerminal state terminal
  ensure (decide (proposal.revision = state.binding.revision))
    (ineligible state "completion revision is stale")
  ensure (!(state.unresolvedIndeterminate &&
      (proposal.uncertainties.isEmpty ||
        decide (proposal.requested = .runGates) ||
        decide (proposal.requested = .requestReview))))
    (ineligible state
      "indeterminate tool work must remain explicit in a non-success proposal")
  match state.context with
  | none => .error (ineligible state "completion context is absent")
  | some context => do
      ensure (decide (proposal.transcripts.context = context.renderDigest) &&
          decide (proposal.transcripts.model = terminal.responseDigest) &&
          !(state.toolTranscriptDigest.any fun recorded =>
            decide (recorded ≠ proposal.transcripts.tools)))
        (ineligible state "completion transcript binding does not match")
      .ok { state with
        model := setModelTerminal state.model terminal
        completion := some proposal }

def startAuthorization : Except AgentRejection AgentTurnState := do
  require state (.active .proposedToolCalls)
  let batch ← tools state
  .ok { state with tools := some batch.setAwaiting }

def authorizeTool (ordinal : ToolOrdinal) (authorityDigest : Sha256Digest) :
    Except AgentRejection AgentTurnState := do
  require state (.active .awaitingAuthorization)
  let phase ← slotPhase state ordinal
  requireSlot state phase .awaitingAuthorization
  updateSlot state ordinal (ToolSlot.authorize authorityDigest)

def denyTool (ordinal : ToolOrdinal) (result : ToolResultRecord) :
    Except AgentRejection AgentTurnState := do
  require state (.active .awaitingAuthorization)
  ensure (decide (result.status = .denied))
    (invalid state "authorization denial requires a denied result")
  let phase ← slotPhase state ordinal
  requireSlot state phase .awaitingAuthorization
  updateSlot state ordinal (ToolSlot.finish result)

def beginExecution : Except AgentRejection Unit := do
  require state (.active .awaitingAuthorization)
  let batch ← tools state
  ensure (batch.slots.all fun slot =>
      decide (slot.phase = .authorized) || decide (slot.phase = .terminal))
    (invalid state "authorization decisions are incomplete")

def dispatchTool (ordinal : ToolOrdinal) :
    Except AgentRejection AgentTurnState := do
  require state (.active .executingTools)
  let phase ← slotPhase state ordinal
  ensure (decide (phase = .authorized))
    (invalid state "tool is not authorized for dispatch")
  let counters ← (state.counters.startTool state.limits).mapError (scopedError state)
  updateSlot { state with counters } ordinal ToolSlot.dispatch

def activateTool (ordinal : ToolOrdinal) :
    Except AgentRejection AgentTurnState := do
  require state (.active .executingTools)
  let phase ← slotPhase state ordinal
  requireSlot state phase .dispatched
  updateSlot state ordinal ToolSlot.activate

def progressTool (ordinal : ToolOrdinal) (sequence : Nat)
    (progressDigest : Sha256Digest) : Except AgentRejection AgentTurnState := do
  require state (.active .executingTools)
  let phase ← slotPhase state ordinal
  requireSlot state phase .active
  let batch ← tools state
  ensure (batch.slots[ordinal.toNat]?.all fun slot =>
      decide (slot.nextProgressSequence = sequence))
    ((AgentRejection.new .invalidProgress .reduce .reconcileTool
      "tool progress sequence is not canonical").at state.binding.turnId
        state.phase)
  updateSlot state ordinal (ToolSlot.progress progressDigest)

def completeTool (ordinal : ToolOrdinal) (result : ToolResultRecord) :
    Except AgentRejection AgentTurnState := do
  require state (.active .executingTools)
  let phase ← slotPhase state ordinal
  ensure (decide (phase = .dispatched) || decide (phase = .active))
    (invalid state "tool has not been dispatched")
  let counters ← (state.counters.finishTool state.limits
    result.modelVisibleBytes).mapError (scopedError state)
  updateSlot { state with counters } ordinal (ToolSlot.finish result)

def startRecording : Except AgentRejection Unit := do
  require state (.active .executingTools)
  let batch ← tools state
  ensure (batch.allTerminal && decide (state.counters.activeToolCalls = 0))
    (invalid state "tool batch is not terminal")

def recordResults (transcriptDigest : Sha256Digest) :
    Except AgentRejection AgentTurnState := do
  require state (.active .recordingResults)
  let batch ← tools state
  .ok { state with
    unresolvedIndeterminate :=
      state.unresolvedIndeterminate || batch.hasIndeterminate
    toolTranscriptDigest := some transcriptDigest
    tools := none
    model := .default }

def AgentFailureKind.isExhausted : AgentFailureKind → Bool
  | .exhausted _ => true
  | _ => false

def fail (failure : AgentFailure) (exhausted : Bool) :
    Except AgentRejection AgentTurnState := do
  ensure (exhausted == AgentFailureKind.isExhausted failure.kind)
    (invalid state "failure command does not match failure kind")
  .ok { state with failure := some failure, completion := none }

/-- The commands that are not control commands, before the phase is set. -/
def applyOrdinary (kind : AgentCommandKind) :
    Except AgentRejection AgentTurnState :=
  match kind with
  | .contextPrepared context => prepareContext state context
  | .modelRequestStarted callId requestDigest =>
      startModel state callId requestDigest
  | .providerEventObserved record => observeProvider sha256 state record
  | .providerRetryScheduled record => scheduleRetry sha256 state record
  | .toolCallsProposed terminal proposals => proposeTools state terminal proposals
  | .completionProposed terminal proposal =>
      proposeCompletion state terminal proposal
  | .authorizationStarted => startAuthorization state
  | .toolAuthorized ordinal authorityDigest =>
      authorizeTool state ordinal authorityDigest
  | .toolDenied ordinal result => denyTool state ordinal result
  | .toolExecutionStarted => do
      beginExecution state
      .ok state
  | .toolDispatched ordinal => dispatchTool state ordinal
  | .toolActivated ordinal => activateTool state ordinal
  | .toolProgressObserved ordinal sequence progressDigest =>
      progressTool state ordinal sequence progressDigest
  | .toolCompleted ordinal result => completeTool state ordinal result
  | .resultRecordingStarted => do
      startRecording state
      .ok state
  | .resultsRecorded transcriptDigest => recordResults state transcriptDigest
  | .paused | .resumed _ | .cancellationRequested | .cancellationFinished =>
      .error (phaseTransitionRejection state .controlCommand)
  | .failed failure => fail state failure false
  | .exhausted failure => fail state failure true
  | .completionCommitted => do
      require state (.active .proposedCompletion)
      ensure state.completion.isSome
        (ineligible state "completion proposal is absent")
      .ok state

def applyKind (kind : AgentCommandKind) :
    Except AgentRejection AgentTurnState :=
  match kind with
  | .paused => (pause state).mapError (controlRejection state)
  | .resumed recoveryChecked =>
      (resume state recoveryChecked).mapError (controlRejection state)
  | .cancellationRequested =>
      (requestCancellation state).mapError (controlRejection state)
  | .cancellationFinished =>
      (finishCancellation state).mapError (controlRejection state)
  | kind => do
      let successorPhase ← (commandPhaseTransition state.phase kind
        state.model.inFlight state.completion.isSome).mapError
          (phaseTransitionRejection state)
      let applied ← applyOrdinary sha256 state kind
      .ok { applied with phase := successorPhase }

end Kinds

/-! ### The reducer and the replay -/

section Reducer

variable (sha256 : List UInt8 → Sha256Digest)

def zeroDigest : Sha256Digest := ⟨0, Sha256Digest.zero_bound⟩

/-- The state with its digest taken over its bytes. -/
def sealState (state : AgentTurnState) : AgentTurnState :=
  { state with stateDigest := stateDigest sha256 state }

def initial (binding : AgentBinding) (limits : AgentLimits) (eventId : EventId)
    (counters : AgentCounters) : AgentTurnState where
  binding := binding
  limits := limits
  counters := counters
  phase := .active .preparingContext
  pausedFrom := none
  logicalRevision := .first
  sequence := .first
  lastEventId := eventId
  stateDigest := zeroDigest
  context := none
  model := .default
  tools := none
  toolTranscriptDigest := none
  completion := none
  failure := none
  unresolvedIndeterminate := false

def start (binding : AgentBinding) (limits : AgentLimits)
    (commandId : CommandId) (eventId : EventId) :
    Except AgentRejection AgentTransition := do
  let counters ← AgentCounters.default.transition limits
  let state := sealState sha256 (initial binding limits eventId counters)
  let event : AgentEvent :=
    { id := eventId
      commandId := commandId
      sequence := .first
      previousEventId := none
      priorPhase := none
      priorResumable := none
      priorRevision := none
      successorRevision := .first
      priorStateDigest := zeroDigest
      successorStateDigest := state.stateDigest
      kind := .started binding limits }
  .ok ⟨event, state⟩

/-- The last transition may be spent on recording that there are none left. -/
def transitionLimitExhaustion (state : AgentTurnState)
    (kind : AgentCommandKind) : Bool :=
  (match kind with
    | .exhausted failure => decide (failure.kind = .exhausted .transitions)
    | _ => false) &&
    decide (state.counters.transitions = state.limits.maxTransitions)

def countTransition (state : AgentTurnState) (kind : AgentCommandKind) :
    Except AgentRejection AgentTurnState :=
  if transitionLimitExhaustion state kind then .ok state
  else
    match state.counters.transition state.limits with
    | .ok counters => .ok { state with counters }
    | .error error => .error error

/-- The cursor of the successor, and its digest. -/
def finishTransition (state : AgentTurnState) (sequence : EventSequence)
    (revision : RevisionNumber) (eventId : EventId) : AgentTurnState :=
  sealState sha256 { state with
    sequence
    logicalRevision := revision
    lastEventId := eventId }

def acceptedEvent (state : AgentTurnState) (command : AgentCommand)
    (sequence : EventSequence) (revision : RevisionNumber)
    (successor : AgentTurnState) : AgentEvent where
  id := command.eventId
  commandId := command.commandId
  sequence := sequence
  previousEventId := some state.lastEventId
  priorPhase := some state.phase
  priorResumable := state.pausedFrom
  priorRevision := some state.logicalRevision
  successorRevision := revision
  priorStateDigest := state.stateDigest
  successorStateDigest := successor.stateDigest
  kind := .commandAccepted command.kind

def reduce (state : AgentTurnState) (command : AgentCommand) :
    Except AgentRejection AgentTransition := do
  ensure (!state.phase.isTerminal)
    (reject state .illegalPhase .terminal "terminal state rejects all commands")
  ensure (decide (command.expectedRevision = state.logicalRevision) &&
      decide (command.expectedStateDigest = state.stateDigest) &&
      decide (command.eventId ≠ state.lastEventId))
    (reject state .causalMismatch .retrySameCommand
      "command causal fence does not match aggregate state")
  let sequence ← state.sequence.checkedNext.mapError fun _ => overflow state
  let revision ←
    state.logicalRevision.checkedNext.mapError fun _ => overflow state
  let counted ← (countTransition state command.kind).mapError fun error =>
    error.at state.binding.turnId state.phase
  let applied ← applyKind sha256 counted command.kind
  let successor := finishTransition sha256 applied sequence revision
    command.eventId
  .ok ⟨acceptedEvent state command sequence revision successor, successor⟩

def replayError (detail : String) : AgentRejection :=
  .new .replayMismatch .replay .restartTurn detail

/-- One turn of the loop over the events after the first. -/
def replayEvent (state : AgentTurnState) (ids : List EventId)
    (event : AgentEvent) : Except AgentRejection AgentTurnState := do
  ensure (decide (event.id ∉ ids))
    (replayError "event identifier is duplicated")
  match event.kind with
  | .started _ _ =>
      .error (replayError "event stream contains a second genesis")
  | .commandAccepted kind => do
      let sequence ← state.sequence.checkedNext.mapError fun _ =>
        replayError "event sequence overflow"
      let revision ← state.logicalRevision.checkedNext.mapError fun _ =>
        replayError "state revision overflow"
      ensure (decide (event.sequence = sequence) &&
          decide (event.priorRevision = some state.logicalRevision) &&
          decide (event.previousEventId = some state.lastEventId) &&
          decide (event.priorPhase = some state.phase) &&
          decide (event.priorResumable = state.pausedFrom) &&
          decide (event.successorRevision = revision) &&
          decide (event.priorStateDigest = state.stateDigest))
        (replayError "event predecessor fence or order does not match")
      let counted ← (countTransition state kind).mapError fun _ =>
        replayError "replayed transition exceeds limits"
      let applied ← (applyKind sha256 counted kind).mapError fun _ =>
        replayError "event payload is illegal for replayed state"
      let successor := finishTransition sha256 applied sequence revision event.id
      ensure (decide (successor.stateDigest = event.successorStateDigest))
        (replayError "event successor digest does not match replayed state")
      .ok successor

def replayEvents (state : AgentTurnState) (ids : List EventId) :
    List AgentEvent → Except AgentRejection AgentTurnState
  | [] => .ok state
  | event :: rest => do
      let successor ← replayEvent sha256 state ids event
      replayEvents successor (event.id :: ids) rest

def replay (events : List AgentEvent) :
    Except AgentRejection AgentTurnState :=
  match events with
  | [] => .error (replayError "event stream has no genesis")
  | first :: rest =>
      match first.kind with
      | .commandAccepted _ => .error (replayError "first event is not genesis")
      | .started binding limits => do
          let started ← start sha256 binding limits first.commandId first.id
          ensure (decide (started.event = first))
            (replayError "genesis event fence does not match")
          replayEvents sha256 started.state [first.id] rest

end Reducer

end Peritus.Agent.Reducer
