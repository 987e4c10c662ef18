import Peritus.Scheduler.Canonical
import Peritus.Scheduler.Mutation

/-!
The scheduler reducer: genesis, fences, the handlers of its commands, and the
commit that moves the cursor and takes the state digest.
-/

namespace Peritus.Scheduler.Reducer

open Mutation
open Peritus.Types Checked SortedTable Bytes Limits State Canonical Selection

/-- What a handler leaves behind: the edited state and the event it emits. -/
abbrev Handled := Except SchedulerError (SchedulerState × SchedulerEventKind)

def limit (detail : String) : SchedulerError := reject .limitExceeded detail

def conflict (detail : String) : SchedulerError :=
  reject .identityConflict detail

def unknown (detail : String) : SchedulerError := reject .unknownIdentity detail

/-! ### Queue occupancy -/

inductive Measure
  | waiting
  | recoveryPressure
  | legacyOccupancy

def includes (record : WorkRecord) (measure : Measure) : Bool :=
  match record.phase with
  | .queued => true
  | .waitingDependencies => true
  | .retryPending => true
  | .reserved => active
  | .running => active
  | .cancelling =>
      match measure with
      | .legacyOccupancy => true
      | _ => false
  | .terminal => false
where
  active : Bool :=
    match measure with
    | .waiting => false
    | .recoveryPressure =>
        decide (record.attemptsStarted < record.spec.maximumAttempts.get)
    | .legacyOccupancy => true

def count (work : List WorkRecord) (measure : Measure) : Nat :=
  work.countP fun record => includes record measure

def admissionCount (state : SchedulerState) : Nat :=
  match state.binding.semantics with
  | .legacyQueueV1 => count state.work .waiting
  | .strictRecoveryQueueV2 => count state.work .recoveryPressure

def withinBounds (state : SchedulerState) : Bool :=
  match state.binding.semantics with
  | .legacyQueueV1 =>
      decide (count state.work .legacyOccupancy ≤
        state.binding.limits.queuedWork
          + state.binding.limits.activeReservations)
  | .strictRecoveryQueueV2 =>
      decide (admissionCount state ≤ state.binding.limits.queuedWork)

/-! ### Workers -/

def register (state : SchedulerState) (descriptor : WorkerDescriptor) :
    Handled := do
  ensure (decide (state.phase ≠ .draining ∧ state.phase ≠ .drainingPaused))
    (illegal "draining scheduler rejects worker registration")
  descriptor.capacity.validate state.binding.limits.resourceDimensions
  ensure (decide (state.workers.length < state.binding.limits.workers))
    (limit "worker retention limit reached")
  ensure (state.worker descriptor.id).isNone
    (conflict "worker identity is already retained")
  ensure (descriptor.capacity.fitsWithin state.binding.capacity)
    (reject .resourceConflict
      "worker capacity exceeds global scheduler capacity")
  .ok (insertWorker state ⟨descriptor, .available⟩, .workerRegistered descriptor)

def ownsReservation (state : SchedulerState) (workerId : WorkerId) : Bool :=
  state.reservations.any fun reservation =>
    decide (reservation.workerId = workerId)

def workerPhase (state : SchedulerState) (workerId : WorkerId) :
    Except SchedulerError WorkerPhase :=
  match state.worker workerId with
  | none => .error (unknown "worker is not registered")
  | some worker => .ok worker.phase

def phaseWorker (state : SchedulerState) (workerId : WorkerId)
    (phase : WorkerPhase) (detail : String) (event : SchedulerEventKind) :
    Handled :=
  match setWorkerPhase state workerId phase with
  | none => .error (unknown detail)
  | some next => .ok (next, event)

def available (state : SchedulerState) (workerId : WorkerId) : Handled := do
  let phase ← workerPhase state workerId
  ensure (decide (phase = .draining ∨ phase = .lost))
    (illegal "worker is not draining or lost")
  ensure (!ownsReservation state workerId)
    (illegal "worker still owns active dispatches")
  phaseWorker state workerId .available "worker disappeared"
    (.workerAvailable workerId)

def drain (state : SchedulerState) (workerId : WorkerId) : Handled := do
  let phase ← workerPhase state workerId
  ensure (decide (phase = .available ∨ phase = .busy))
    (illegal "worker cannot enter draining from its current phase")
  phaseWorker state workerId .draining "worker disappeared"
    (.workerDrainRequested workerId)

def remove (state : SchedulerState) (workerId : WorkerId) : Handled := do
  let phase ← workerPhase state workerId
  ensure (decide (phase = .draining ∨ phase = .lost) &&
      !ownsReservation state workerId)
    (illegal "only a quiescent draining or lost worker may be removed")
  phaseWorker state workerId .removed "removed worker disappeared"
    (.workerRemoved workerId)

/-! ### Losing a worker -/

def dispatchesForWorker (reservations : List SchedulerReservation)
    (worker : WorkerId) : List DispatchId :=
  (reservations.filter fun reservation =>
    decide (reservation.workerId = worker)).map SchedulerReservation.dispatchId

def classify (record : WorkRecord) (dispatchId : DispatchId) : LossOutcome :=
  if record.phase = .cancelling then .cancelled dispatchId record.spec.id
  else
    match record.spec.recovery with
    | .retrySafe =>
        if record.attemptsStarted < record.spec.maximumAttempts.get then
          .requeued dispatchId record.spec.id
        else .exhausted dispatchId record.spec.id
    | .ambiguous => .ambiguous dispatchId record.spec.id
    | .fail => .failed dispatchId record.spec.id

inductive WorkerLossError
  | workerMissing
  | alreadyLostOrRemoved
  | reservationDisappeared
  | workDisappeared
  | lostWorkerDisappeared

def releaseOne (state : SchedulerState) (dispatchId : DispatchId)
    (failureDigest : Sha256Digest) :
    Except WorkerLossError (SchedulerState × LossOutcome) :=
  match state.reservation dispatchId with
  | none => .error .reservationDisappeared
  | some reservation =>
      match state.workItem reservation.workId with
      | none => .error .workDisappeared
      | some record =>
          let outcome := classify record dispatchId
          let released := match outcome with
            | .requeued .. =>
                releaseToPhase state dispatchId reservation.workId .queued
            | .cancelled .. =>
                releaseToTerminal state dispatchId reservation.workId .cancelled
            | .exhausted .. =>
                releaseToTerminal state dispatchId reservation.workId
                  (.exhausted failureDigest)
            | .ambiguous .. =>
                releaseToTerminal state dispatchId reservation.workId
                  (.ambiguous dispatchId)
            | .failed .. =>
                releaseToTerminal state dispatchId reservation.workId
                  (.failed failureDigest)
          match released with
          | none => .error .workDisappeared
          | some (_, next) => .ok (next, outcome)

def releasePlan : SchedulerState → List (DispatchId × Sha256Digest) →
    Except WorkerLossError (SchedulerState × List LossOutcome)
  | state, [] => .ok (state, [])
  | state, (dispatchId, failureDigest) :: rest => do
      let (next, outcome) ← releaseOne state dispatchId failureDigest
      let (final, outcomes) ← releasePlan next rest
      .ok (final, outcome :: outcomes)

def applyWorkerLoss (state : SchedulerState) (workerId : WorkerId)
    (plan : List (DispatchId × Sha256Digest)) :
    Except WorkerLossError (SchedulerState × SchedulerEventKind) :=
  match state.worker workerId with
  | none => .error .workerMissing
  | some worker =>
      if worker.phase = .lost ∨ worker.phase = .removed then
        .error .alreadyLostOrRemoved
      else do
        let (released, outcomes) ← releasePlan state plan
        match setWorkerPhase released workerId .lost with
        | none => .error .lostWorkerDisappeared
        | some next => .ok (next, .workerLost workerId outcomes)

def loseWorker (sha256 : List UInt8 → Sha256Digest) (state : SchedulerState)
    (workerId : WorkerId) : Handled :=
  let plan := (dispatchesForWorker state.reservations workerId).map
    fun dispatchId => (dispatchId, sha256 (beBytes 16 dispatchId.value))
  match applyWorkerLoss state workerId plan with
  | .ok handled => .ok handled
  | .error .workerMissing => .error (unknown "worker is not registered")
  | .error .alreadyLostOrRemoved =>
      .error (illegal "worker is already lost or removed")
  | .error .reservationDisappeared =>
      .error (unknown "worker-loss reservation disappeared")
  | .error .workDisappeared => .error (unknown "worker-loss work disappeared")
  | .error .lostWorkerDisappeared =>
      .error (unknown "lost worker disappeared")

/-! ### Admission -/

def allDependenciesRetained (state : SchedulerState) (spec : WorkSpec) : Bool :=
  spec.dependencies.all fun dependency => (state.workItem dependency).isSome

def hasRetainedParent (state : SchedulerState) (spec : WorkSpec) : Bool :=
  match spec.parent with
  | none => true
  | some parent => (state.workItem parent).isSome

def eligibleWorker (worker : WorkerRecord) (spec : WorkSpec) : Bool :=
  decide (worker.phase ≠ .removed) &&
    decide (worker.descriptor.owner = spec.owner) &&
    worker.descriptor.supports spec.executionClass &&
    spec.request.fitsWithin worker.descriptor.capacity

def hasSupportingWorker (state : SchedulerState) (spec : WorkSpec) : Bool :=
  state.workers.any fun worker => eligibleWorker worker spec

def checkAdmission (state : SchedulerState) (spec : WorkSpec) :
    Except SchedulerError Unit := do
  ensure (decide (state.phase ≠ .draining ∧ state.phase ≠ .drainingPaused))
    (illegal "draining scheduler rejects work admission")
  ensure (decide (state.work.length < state.binding.limits.retainedWork ∧
      admissionCount state < state.binding.limits.queuedWork))
    (limit "work retention or queue limit reached")
  ensure (state.workItem spec.id).isNone (conflict "work identity is retained")
  ensure (decide (spec.revision = state.binding.revision))
    (reject .bindingMismatch "work revision differs from scheduler binding")
  ensure (spec.request.fitsWithin state.binding.capacity)
    (reject .resourceConflict "work request exceeds global scheduler capacity")
  ensure (allDependenciesRetained state spec)
    (unknown "work dependency is absent")
  ensure (hasRetainedParent state spec) (unknown "work parent is absent")
  ensure (hasSupportingWorker state spec)
    (reject .invalidInput
      "no registered owner worker supports the work execution class and request")

def admitWork (state : SchedulerState) (spec : WorkSpec) : Handled := do
  checkAdmission state spec
  match nextEnqueueOrdinal state with
  | none => .error (limit "enqueue ordinal overflowed")
  | some (ordinal, next) =>
      let phase : WorkPhase :=
        if spec.dependencies = [] then .queued else .waitingDependencies
      .ok (insertWork next (WorkRecord.new spec phase ordinal),
        .workAdmitted spec)

/-! ### Dispatch -/

def incrementedBypass (state : SchedulerState) (id : WorkId) (limit : Nat) :
    Nat :=
  match state.work.find? fun record => decide (record.spec.id = id) with
  | none => limit
  | some record =>
      min (if record.bypasses + 1 ≤ 65535 then record.bypasses + 1 else limit)
        limit

def updateBypasses (workId : WorkId) (limit : Nat) :
    SchedulerState → List WorkId → SchedulerState
  | state, [] => state
  | state, id :: rest =>
      let value := if id = workId then 0 else incrementedBypass state id limit
      updateBypasses workId limit ((setWorkBypasses state id value).getD state)
        rest

def reserveNext (state : SchedulerState) (dispatchId : DispatchId)
    (dispatchToken : Sha256Digest) :
    Except SchedulerError (SchedulerState × SchedulerReservation) := do
  ensure (decide (state.reservations.length <
      state.binding.limits.activeReservations))
    (limit "active reservation limit reached")
  ensure (decide (dispatchId ∉ state.usedDispatches))
    (conflict "dispatch identity is already retained")
  ensure (decide (state.usedDispatches.length < 65535))
    (limit "dispatch identity history reached the canonical collection limit")
  match selectNextForDispatch state with
  | none =>
      .error (reject .noFeasibleWork
        "no feasible queued work and worker pair exists")
  | some (workIndex, workerIndex) =>
      match state.work[workIndex]? with
      | none => .error (unknown "selected dispatch admission disappeared")
      | some selected =>
          let feasible := (state.work.filter fun record =>
            decide (record.phase = .queued) &&
              isFeasible state record.spec.id).map WorkRecord.id
          ensure (decide (selected.attemptsStarted ≠ 65535))
            (limit "work attempt count overflowed")
          ensure (decide (selected.attemptsStarted + 1 ≤
              selected.spec.maximumAttempts.get))
            (limit "work attempt bound is exhausted")
          ensure (decide (state.dispatchOrdinal ≠ u64Max))
            (limit "dispatch ordinal overflowed")
          match reserveSelectedAt state workIndex workerIndex dispatchId
            dispatchToken with
          | none => .error (unknown "selected dispatch admission disappeared")
          | some (reservation, reserved) =>
              .ok (updateBypasses selected.spec.id
                state.binding.limits.bypassCount reserved feasible, reservation)

def dispatch (state : SchedulerState) (dispatchId : DispatchId)
    (dispatchToken : Sha256Digest) : Handled := do
  ensure (decide (state.phase = .active ∨ state.phase = .draining))
    (illegal "scheduler dispatch is paused")
  let (next, reservation) ← reserveNext state dispatchId dispatchToken
  .ok (next, .workReserved reservation)

/-! ### Running work -/

def acknowledgeStart (state : SchedulerState) (dispatchId : DispatchId) :
    Handled :=
  match applyAcknowledgeStartCommand state dispatchId with
  | .ok next => .ok (next, .workStartAcknowledged dispatchId)
  | .error .dispatchNotActive => .error (unknown "dispatch is not active")
  | .error .alreadyAcknowledged =>
      .error (illegal "dispatch start is already acknowledged")
  | .error .dispatchDisappeared => .error (unknown "dispatch disappeared")
  | .error .workDisappeared => .error (unknown "reservation work disappeared")

def complete (state : SchedulerState) (dispatchId : DispatchId)
    (resultDigest : Sha256Digest) : Handled :=
  match applyCompleteCommand state dispatchId resultDigest with
  | .ok next => .ok (next, .workSucceeded dispatchId resultDigest)
  | .error .dispatchNotActive => .error (unknown "dispatch is not active")
  | .error .workDisappeared => .error (unknown "reservation work disappeared")
  | .error .notAcknowledgedRunning =>
      .error (illegal "only acknowledged running work may succeed")

def fail (state : SchedulerState) (dispatchId : DispatchId)
    (failureDigest : Sha256Digest) (disposition : FailureDisposition) :
    Handled :=
  match applyFailCommand state dispatchId failureDigest disposition with
  | .ok next => .ok (next, .workFailed dispatchId failureDigest disposition)
  | .error .dispatchNotActive => .error (unknown "dispatch is not active")
  | .error .workDisappeared => .error (unknown "reservation work disappeared")
  | .error .workNotFailable =>
      .error (illegal "only reserved or running work may fail")

def retry (state : SchedulerState) (workId : WorkId) : Handled :=
  match applyRetryCommand state workId with
  | .ok next => .ok (next, .workRetryQueued workId)
  | .error .workNotRetained => .error (unknown "work is not retained")
  | .error .workNotRetryPending => .error (illegal "work is not retry-pending")
  | .error .attemptBoundExhausted =>
      .error (illegal "work attempt bound is exhausted")
  | .error .workDisappeared => .error (unknown "work disappeared")

def exhaust (state : SchedulerState) (workId : WorkId)
    (causeDigest : Sha256Digest) : Handled :=
  match applyExhaustCommand state workId causeDigest with
  | .ok next => .ok (next, .workExhausted workId causeDigest)
  | .error .workNotRetained => .error (unknown "work is not retained")
  | .error .workDisappeared => .error (unknown "work is not retained")
  | .error .workNotExhaustible =>
      .error (illegal "active or terminal work cannot be explicitly exhausted")

def abandon (state : SchedulerState) (dispatchId : DispatchId)
    (causeDigest : Sha256Digest) : Handled :=
  match applyAbandonCommand state dispatchId causeDigest with
  | .ok next => .ok (next, .dispatchAbandoned dispatchId causeDigest)
  | .error .dispatchNotActive => .error (unknown "dispatch is not active")
  | .error .workDisappeared => .error (unknown "abandoned work disappeared")

/-! ### Cancellation -/

def lowerBoundFrom (values : List WorkId) (id : WorkId) :
    Nat → Nat → Nat → Nat
  | 0, low, _ => low
  | steps + 1, low, high =>
      if low < high then
        let middle := low + (high - low) / 2
        match values[middle]? with
        | none => low
        | some observed =>
            if observed < id then lowerBoundFrom values id steps (middle + 1) high
            else lowerBoundFrom values id steps low middle
      else low

def lowerBound (values : List WorkId) (id : WorkId) : Nat :=
  lowerBoundFrom values id values.length 0 values.length

def contains (values : List WorkId) (id : WorkId) : Bool :=
  decide (values[lowerBound values id]? = some id)

def insertId (values : List WorkId) (id : WorkId) : List WorkId × Bool :=
  if contains values id then (values, false)
  else (insertAt (lowerBound values id) id values, true)

/-- One pass adds the children of what has been reached so far. -/
def closurePass (work : List WorkRecord) (reached : List WorkId) :
    List WorkId × Bool :=
  work.foldl
    (fun (reached, changed) record =>
      match record.spec.parent with
      | none => (reached, changed)
      | some parent =>
          if contains reached parent then
            let (next, inserted) := insertId reached record.id
            (next, changed || inserted)
          else (reached, changed))
    (reached, false)

/-- Passes until one adds nothing.  A pass that adds something adds a retained
identity, so there are at most `work.length` of these. -/
def closureLoop (work : List WorkRecord) : Nat → List WorkId → List WorkId
  | 0, reached => reached
  | passes + 1, reached =>
      let (next, changed) := closurePass work reached
      if changed then closureLoop work passes next else next

def closure (work : List WorkRecord) (root : WorkId) : List WorkId :=
  closureLoop work (work.length + 1) [root]

def affected (work : List WorkRecord) (root : WorkId) (descendants : Bool) :
    List WorkId :=
  let reached := if descendants then closure work root else [root]
  (work.filter fun record =>
    decide (record.phase ≠ .terminal) && contains reached record.id).map
    WorkRecord.id

def isActive (reservations : List SchedulerReservation) (id : WorkId) : Bool :=
  reservations.any fun reservation => decide (reservation.workId = id)

def updateOne (state : SchedulerState) (id : WorkId) : Option SchedulerState :=
  if isActive state.reservations id then setWorkPhase state id .cancelling
  else terminalizeWork state id .cancelled

def applyUpdates : SchedulerState → List WorkId → SchedulerState
  | state, [] => state
  | state, id :: rest =>
      match updateOne state id with
      | none => state
      | some next => applyUpdates next rest

def cancel (state : SchedulerState) (root : WorkId) (descendants : Bool) :
    Handled :=
  match state.workItem root with
  | none => .error (unknown "work is not retained")
  | some retained =>
      if retained.phase = .terminal then
        .error (illegal "work is already terminal")
      else
        let targets := affected state.work root descendants
        .ok (applyUpdates state targets,
          .workCancelled root descendants targets)

def acknowledgeCancel (state : SchedulerState) (dispatchId : DispatchId) :
    Handled :=
  match applyAcknowledgeCancellationCommand state dispatchId with
  | .ok next => .ok (next, .cancellationAcknowledged dispatchId)
  | .error .dispatchNotActive => .error (unknown "dispatch is not active")
  | .error .reservationWorkDisappeared =>
      .error (unknown "reservation work disappeared")
  | .error .workNotCancelling =>
      .error (illegal "dispatch work is not cancelling")
  | .error .cancellingWorkDisappeared =>
      .error (unknown "cancelling work disappeared")

/-! ### Control -/

def phaseControl (next : Option SchedulerState) (detail : String)
    (event : SchedulerEventKind) : Handled :=
  match next with
  | none => .error (illegal detail)
  | some state => .ok (state, event)

def classifyTerminal (record : WorkRecord) : SchedulerTerminalKind :=
  match record.terminal with
  | some (.succeeded _) => .completed
  | some (.failed _) => .failed
  | some (.abandoned _) => .failed
  | some (.dependencyFailed _) => .dependencyFailed
  | some (.ambiguous _) => .ambiguous
  | some (.exhausted _) => .exhausted
  | some .cancelled => .cancelled
  | none => .failed

def precedence : SchedulerTerminalKind → Nat
  | .completed => 0
  | .cancelled => 1
  | .failed => 2
  | .dependencyFailed => 3
  | .exhausted => 4
  | .ambiguous => 5

def summarize (work : List WorkRecord) : SchedulerTerminalKind × List WorkId :=
  work.foldl
    (fun (kind, ids) record =>
      let candidate := classifyTerminal record
      if candidate = .completed then (kind, ids)
      else
        (if precedence kind < precedence candidate then candidate else kind,
          ids ++ [record.id]))
    (.completed, [])

def evaluateWithDigest (work : List WorkRecord) (digest : Sha256Digest) :
    SchedulerTerminal :=
  ⟨(summarize work).1, (summarize work).2, digest⟩

section Hash

variable (sha256 : List UInt8 → Sha256Digest)

def evaluate (work : List WorkRecord) : SchedulerTerminal :=
  let terminal := evaluateWithDigest work zeroDigest
  { terminal with digest := terminalDigest sha256 terminal }

def finalize (state : SchedulerState) : Handled :=
  if state.allWorkTerminal && state.reservations.isEmpty then
    let plan := evaluateWithDigest state.work zeroDigest
    let terminal := { plan with digest := terminalDigest sha256 plan }
    .ok (setTerminal state terminal, .schedulerFinalized terminal)
  else
    .error (illegal
      "scheduler cannot finalize with nonterminal work or directives")

def apply (state : SchedulerState) : SchedulerCommandKind → Handled
  | .startScheduler _ =>
      .error (illegal "StartScheduler is legal only at genesis")
  | .registerWorker descriptor => register state descriptor
  | .setWorkerAvailable workerId => available state workerId
  | .drainWorker workerId => drain state workerId
  | .loseWorker workerId => loseWorker sha256 state workerId
  | .removeWorker workerId => remove state workerId
  | .admitWork spec => admitWork state spec
  | .dispatchNext dispatchId dispatchToken =>
      dispatch state dispatchId dispatchToken
  | .acknowledgeStart dispatchId => acknowledgeStart state dispatchId
  | .completeWork dispatchId resultDigest =>
      complete state dispatchId resultDigest
  | .failWork dispatchId failureDigest disposition =>
      fail state dispatchId failureDigest disposition
  | .retryWork workId => retry state workId
  | .cancelWork workId => cancel state workId false
  | .cancelWorkTree workId => cancel state workId true
  | .acknowledgeCancellation dispatchId => acknowledgeCancel state dispatchId
  | .exhaustWork workId causeDigest => exhaust state workId causeDigest
  | .abandonDispatch dispatchId causeDigest =>
      abandon state dispatchId causeDigest
  | .pauseScheduler =>
      phaseControl (pauseScheduler state)
        "scheduler is already paused or terminal" .schedulerPaused
  | .resumeScheduler =>
      phaseControl (resumeScheduler state) "scheduler is not paused"
        .schedulerResumed
  | .drainScheduler =>
      phaseControl (drainScheduler state) "scheduler is already draining"
        .schedulerDrainRequested
  | .finalizeScheduler => finalize sha256 state

/-! ### Fences, genesis and commit -/

def validateFences (state : SchedulerState) (command : SchedulerCommand) :
    Except SchedulerError Unit := do
  ensure (decide (state.phase ≠ .terminal))
    (illegal "scheduler aggregate is terminal and fenced closed")
  ensure (decide (state.usedCommands.length < 65535))
    (limit "scheduler command history reached the canonical collection limit")
  ensure (decide (state.binding.semantics = command.semantics) &&
      decide (state.binding.runId = command.runId) &&
      decide (state.binding.revision = command.revision) &&
      decide (state.sequence.get = command.expectedSequence) &&
      decide (command.expectedPreviousEvent = some state.lastEventId) &&
      decide (command.priorStateDigest = state.stateDigest) &&
      decide (command.commandId ∉ state.usedCommands) &&
      !command.kind.isStart)
    (reject .staleFence
      "scheduler command run, revision, predecessor, digest, identity, or lifecycle differs")

def start (command : SchedulerCommand) :
    Except SchedulerError SchedulerTransition :=
  match command.kind with
  | .startScheduler binding => do
      binding.validate
      ensure (decide (command.semantics = binding.semantics) &&
          decide (command.runId = binding.runId) &&
          decide (command.revision = binding.revision) &&
          decide (command.expectedSequence = 0) &&
          decide (command.expectedPreviousEvent = none) &&
          decide (command.priorStateDigest = zeroDigest))
        (reject .bindingMismatch
          "scheduler genesis differs from its exact binding or fences")
      let state := SchedulerState.genesis binding command.eventId
        command.commandId
      ensure (decide (state.estimatedEncodedBytes ≤ binding.limits.stateBytes))
        (limit "scheduler genesis exceeds its state-byte bound")
      let successor := stateDigest sha256 state
      .ok
        { event :=
            { semantics := command.semantics
              id := command.eventId
              commandId := command.commandId
              sequence := PositiveNumber.first
              previousEvent := none
              runId := command.runId
              revision := command.revision
              priorStateDigest := zeroDigest
              successorStateDigest := successor
              kind := .schedulerStarted binding }
          state := { state with stateDigest := successor } }
  | _ => .error (illegal "scheduler genesis command is not StartScheduler")

def checkedNextSequence (sequence : EventSequence) :
    Except SchedulerError EventSequence :=
  match sequence.checkedNext with
  | .ok next => .ok next
  | .error _ => .error (limit "scheduler event sequence overflowed")

def decideCommand (state : SchedulerState) (command : SchedulerCommand) :
    Except SchedulerError SchedulerTransition := do
  validateFences state command
  let sequence ← checkedNextSequence state.sequence
  let (applied, kind) ← apply sha256 state command.kind
  let refreshed := refresh applied
  ensure (decide (refreshed.estimatedEncodedBytes ≤
      refreshed.binding.limits.stateBytes))
    (limit "scheduler successor exceeds its immutable state-byte bound")
  let successor :=
    advanceCursor refreshed sequence command.eventId command.commandId
  let digest := stateDigest sha256 successor
  .ok
    { event :=
        { semantics := command.semantics
          id := command.eventId
          commandId := command.commandId
          sequence := successor.sequence
          previousEvent := some state.lastEventId
          runId := command.runId
          revision := command.revision
          priorStateDigest := state.stateDigest
          successorStateDigest := digest
          kind }
      state := { successor with stateDigest := digest } }

end Hash

end Peritus.Scheduler.Reducer
