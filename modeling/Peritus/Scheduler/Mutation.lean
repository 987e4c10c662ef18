import Peritus.Scheduler.Selection

/-!
The edits of a scheduler state that its commands are made of, and the refresh
of dependencies and worker phases that follows every command.
-/

namespace Peritus.Scheduler.Mutation

open Peritus.Types SortedTable Limits State Selection

/-! ### Work -/

inductive WorkUpdate
  | phase (phase : WorkPhase)
  | queueRetry
  | retryPending (cause : Sha256Digest)
  | terminal (terminal : WorkTerminal)

def WorkUpdate.apply (update : WorkUpdate) (record : WorkRecord) : WorkRecord :=
  match update with
  | .phase next => record.setPhase next
  | .queueRetry => record.queueRetry
  | .retryPending cause => record.setRetryPending cause
  | .terminal outcome => record.terminalize outcome

@[simp] theorem WorkUpdate.apply_id (update : WorkUpdate)
    (record : WorkRecord) : (update.apply record).id = record.id := by
  cases update <;> rfl

/-- `none` when no record has the identity; the state is then left alone. -/
def updateWork (state : SchedulerState) (id : WorkId) (update : WorkUpdate) :
    Option SchedulerState :=
  (updateFirst (fun record : WorkRecord => decide (record.id = id)) update.apply
    state.work).map fun work => { state with work }

def setWorkPhase (state : SchedulerState) (id : WorkId) (phase : WorkPhase) :
    Option SchedulerState :=
  updateWork state id (.phase phase)

def queueWorkRetry (state : SchedulerState) (id : WorkId) :
    Option SchedulerState :=
  updateWork state id .queueRetry

def terminalizeWork (state : SchedulerState) (id : WorkId)
    (terminal : WorkTerminal) : Option SchedulerState :=
  updateWork state id (.terminal terminal)

def setWorkBypasses (state : SchedulerState) (id : WorkId) (value : Nat) :
    Option SchedulerState :=
  (updateFirst (fun record : WorkRecord => decide (record.id = id))
    (fun record => record.setBypasses value) state.work).map
    fun work => { state with work }

def nextEnqueueOrdinal (state : SchedulerState) :
    Option (Nat × SchedulerState) :=
  if state.enqueueOrdinal + 1 ≤ u64Max then
    some (state.enqueueOrdinal + 1,
      { state with enqueueOrdinal := state.enqueueOrdinal + 1 })
  else none

def insertWork (state : SchedulerState) (value : WorkRecord) : SchedulerState :=
  { state with
    work := insertAt (slot WorkRecord.id value.id state.work) value state.work }

/-! ### Workers -/

def insertWorker (state : SchedulerState) (value : WorkerRecord) :
    SchedulerState :=
  { state with
    workers :=
      insertAt (slot WorkerRecord.id value.id state.workers) value
        state.workers }

/-- By the halving search, and by a scan where that finds nothing. -/
def setWorkerPhase (state : SchedulerState) (id : WorkerId)
    (phase : WorkerPhase) : Option SchedulerState :=
  match state.workerIndex id with
  | some index =>
      some
        { state with
          workers := state.workers.modify index fun worker =>
            { worker with phase } }
  | none =>
      (updateFirst (fun worker : WorkerRecord => decide (worker.id = id))
        (fun worker => { worker with phase }) state.workers).map
        fun workers => { state with workers }

/-! ### Reservations -/

def insertReservation (state : SchedulerState) (value : SchedulerReservation) :
    SchedulerState :=
  { state with
    reservations :=
      insertAt (slot SchedulerReservation.dispatchId value.dispatchId
        state.reservations) value state.reservations }

def dispatchSlot (values : List DispatchId) (id : DispatchId) : Nat :=
  values.findIdx fun value => decide (id < value)

def retainDispatchIdentity (state : SchedulerState) (id : DispatchId) :
    SchedulerState :=
  { state with
    usedDispatches :=
      insertAt (dispatchSlot state.usedDispatches id) id state.usedDispatches }

def incrementDispatchOrdinal (state : SchedulerState) : Option SchedulerState :=
  if state.dispatchOrdinal < u64Max then
    some { state with dispatchOrdinal := state.dispatchOrdinal + 1 }
  else none

def removeReservation (state : SchedulerState) (id : DispatchId) :
    Option (SchedulerReservation × SchedulerState) :=
  (removeFirst (fun reservation : SchedulerReservation =>
    decide (reservation.dispatchId = id)) state.reservations).map
    fun (removed, reservations) => (removed, { state with reservations })

def markReservationStarted (state : SchedulerState) (id : DispatchId) :
    Option SchedulerState :=
  (updateFirst (fun reservation : SchedulerReservation =>
      decide (reservation.dispatchId = id))
    (fun reservation => { reservation with started := true })
    state.reservations).map fun reservations => { state with reservations }

def releaseWithUpdate (state : SchedulerState) (dispatchId : DispatchId)
    (workId : WorkId) (update : WorkUpdate) :
    Option (SchedulerReservation × SchedulerState) := do
  let (reservation, released) ← removeReservation state dispatchId
  let updated ← updateWork released workId update
  some (reservation, updated)

def releaseToPhase (state : SchedulerState) (dispatchId : DispatchId)
    (workId : WorkId) (phase : WorkPhase) :
    Option (SchedulerReservation × SchedulerState) :=
  releaseWithUpdate state dispatchId workId (.phase phase)

def releaseToRetryPending (state : SchedulerState) (dispatchId : DispatchId)
    (workId : WorkId) (cause : Sha256Digest) :
    Option (SchedulerReservation × SchedulerState) :=
  releaseWithUpdate state dispatchId workId (.retryPending cause)

def releaseToTerminal (state : SchedulerState) (dispatchId : DispatchId)
    (workId : WorkId) (terminal : WorkTerminal) :
    Option (SchedulerReservation × SchedulerState) :=
  releaseWithUpdate state dispatchId workId (.terminal terminal)

/-! ### Reserving -/

def beginWorkAttemptAt (state : SchedulerState) (index : Nat) :
    Option (AttemptNumber × SchedulerState) := do
  let record ← state.work[index]?
  let (attempt, begun) ← record.tryBeginAttempt
  some (attempt, { state with work := state.work.set index begun })

def selectedReservation (state : SchedulerState) (workIndex workerIndex : Nat)
    (dispatchId : DispatchId) (dispatchToken : Sha256Digest) :
    Option (SchedulerReservation × SchedulerState) := do
  let work ← state.work[workIndex]?
  let worker ← state.workers[workerIndex]?
  if work.attemptsStarted = 65535 ∨
      work.spec.maximumAttempts.get ≤ work.attemptsStarted ∨
      state.dispatchOrdinal = u64Max then none
  else
    let (attempt, begun) ← beginWorkAttemptAt state workIndex
    let incremented ← incrementDispatchOrdinal begun
    some
      ({ workId := work.spec.id
         dispatchId
         workerId := worker.descriptor.id
         owner := work.spec.owner
         attempt
         revision := work.spec.revision
         resources := work.spec.request
         dispatchToken
         started := false },
        incremented)

def reserveSelectedAt (state : SchedulerState) (workIndex workerIndex : Nat)
    (dispatchId : DispatchId) (dispatchToken : Sha256Digest) :
    Option (SchedulerReservation × SchedulerState) := do
  let (reservation, prepared) ←
    selectedReservation state workIndex workerIndex dispatchId dispatchToken
  some (reservation,
    insertReservation (retainDispatchIdentity prepared dispatchId) reservation)

/-! ### Commands on one reservation or one work record -/

inductive AcknowledgeStartOutcome
  | dispatchNotActive
  | alreadyAcknowledged
  | dispatchDisappeared
  | workDisappeared

def applyAcknowledgeStartCommand (state : SchedulerState)
    (dispatchId : DispatchId) :
    Except AcknowledgeStartOutcome SchedulerState :=
  match state.reservation dispatchId with
  | none => .error .dispatchNotActive
  | some reservation =>
      if reservation.started then .error .alreadyAcknowledged
      else
        match markReservationStarted state dispatchId with
        | none => .error .dispatchDisappeared
        | some marked =>
            match updateWork marked reservation.workId (.phase .running) with
            | none => .error .workDisappeared
            | some running => .ok running

inductive CompleteCommandOutcome
  | dispatchNotActive
  | workDisappeared
  | notAcknowledgedRunning

def applyCompleteCommand (state : SchedulerState) (dispatchId : DispatchId)
    (resultDigest : Sha256Digest) :
    Except CompleteCommandOutcome SchedulerState :=
  match state.reservation dispatchId with
  | none => .error .dispatchNotActive
  | some reservation =>
      match state.workItem reservation.workId with
      | none => .error .workDisappeared
      | some work =>
          if reservation.started = false ∨ work.phase ≠ .running then
            .error .notAcknowledgedRunning
          else
            match releaseToTerminal state dispatchId reservation.workId
              (.succeeded resultDigest) with
            | none => .error .workDisappeared
            | some (_, released) => .ok released

inductive FailCommandOutcome
  | dispatchNotActive
  | workDisappeared
  | workNotFailable

def applyFailCommand (state : SchedulerState) (dispatchId : DispatchId)
    (failureDigest : Sha256Digest) (disposition : FailureDisposition) :
    Except FailCommandOutcome SchedulerState :=
  match state.reservation dispatchId with
  | none => .error .dispatchNotActive
  | some reservation =>
      match state.workItem reservation.workId with
      | none => .error .workDisappeared
      | some work =>
          if work.phase ≠ .reserved ∧ work.phase ≠ .running then
            .error .workNotFailable
          else
            let released := match disposition with
              | .retryable =>
                  if work.attemptsStarted < work.spec.maximumAttempts.get then
                    releaseToRetryPending state dispatchId reservation.workId
                      failureDigest
                  else
                    releaseToTerminal state dispatchId reservation.workId
                      (.exhausted failureDigest)
              | .failed =>
                  releaseToTerminal state dispatchId reservation.workId
                    (.failed failureDigest)
              | .ambiguous =>
                  releaseToTerminal state dispatchId reservation.workId
                    (.ambiguous dispatchId)
            match released with
            | none => .error .workDisappeared
            | some (_, next) => .ok next

inductive AcknowledgeCancellationOutcome
  | dispatchNotActive
  | reservationWorkDisappeared
  | workNotCancelling
  | cancellingWorkDisappeared

def applyAcknowledgeCancellationCommand (state : SchedulerState)
    (dispatchId : DispatchId) :
    Except AcknowledgeCancellationOutcome SchedulerState :=
  match state.reservation dispatchId with
  | none => .error .dispatchNotActive
  | some reservation =>
      match state.workItem reservation.workId with
      | none => .error .reservationWorkDisappeared
      | some work =>
          if work.phase ≠ .cancelling then .error .workNotCancelling
          else
            match releaseToTerminal state dispatchId reservation.workId
              .cancelled with
            | none => .error .cancellingWorkDisappeared
            | some (_, released) => .ok released

inductive AbandonCommandOutcome
  | dispatchNotActive
  | workDisappeared

def applyAbandonCommand (state : SchedulerState) (dispatchId : DispatchId)
    (causeDigest : Sha256Digest) :
    Except AbandonCommandOutcome SchedulerState :=
  match state.reservation dispatchId with
  | none => .error .dispatchNotActive
  | some reservation =>
      match state.workItem reservation.workId with
      | none => .error .workDisappeared
      | some work =>
          match releaseToTerminal state dispatchId reservation.workId
            (if work.phase = .cancelling then .cancelled
              else .abandoned causeDigest) with
          | none => .error .workDisappeared
          | some (_, released) => .ok released

inductive RetryCommandOutcome
  | workNotRetained
  | workNotRetryPending
  | attemptBoundExhausted
  | workDisappeared

def applyRetryCommand (state : SchedulerState) (workId : WorkId) :
    Except RetryCommandOutcome SchedulerState :=
  match state.workItem workId with
  | none => .error .workNotRetained
  | some work =>
      if work.phase ≠ .retryPending then .error .workNotRetryPending
      else if work.spec.maximumAttempts.get ≤ work.attemptsStarted then
        .error .attemptBoundExhausted
      else
        match queueWorkRetry state workId with
        | none => .error .workDisappeared
        | some queued => .ok queued

inductive ExhaustCommandOutcome
  | workNotRetained
  | workNotExhaustible
  | workDisappeared

def applyExhaustCommand (state : SchedulerState) (workId : WorkId)
    (causeDigest : Sha256Digest) :
    Except ExhaustCommandOutcome SchedulerState :=
  match state.workItem workId with
  | none => .error .workNotRetained
  | some record =>
      if record.phase = .reserved ∨ record.phase = .running ∨
          record.phase = .cancelling ∨ record.phase = .terminal then
        .error .workNotExhaustible
      else
        match terminalizeWork state workId (.exhausted causeDigest) with
        | none => .error .workDisappeared
        | some exhausted => .ok exhausted

/-! ### Scheduler phase -/

def setPhase (state : SchedulerState) (phase : SchedulerPhase) :
    SchedulerState :=
  { state with phase }

def pauseScheduler (state : SchedulerState) : Option SchedulerState :=
  match state.phase with
  | .active => some (setPhase state .paused)
  | .draining => some (setPhase state .drainingPaused)
  | _ => none

def resumeScheduler (state : SchedulerState) : Option SchedulerState :=
  match state.phase with
  | .paused => some (setPhase state .active)
  | .drainingPaused => some (setPhase state .draining)
  | _ => none

def drainScheduler (state : SchedulerState) : Option SchedulerState :=
  match state.phase with
  | .active => some (setPhase state .draining)
  | .paused => some (setPhase state .drainingPaused)
  | _ => none

def setTerminal (state : SchedulerState) (terminal : SchedulerTerminal) :
    SchedulerState :=
  { state with phase := .terminal, terminal := some terminal }

def advanceCursor (state : SchedulerState) (sequence : EventSequence)
    (eventId : EventId) (commandId : CommandId) : SchedulerState :=
  { state with
    sequence
    lastEventId := eventId
    usedCommands := state.usedCommands ++ [commandId] }

/-! ### Dependencies -/

inductive DependencyAction
  | noChange
  | ready
  | failed (dependency : WorkId)
deriving DecidableEq

/-- The scan stops at the first dependency that ended without success. -/
def dependencyScan (state : SchedulerState) (waiting : Bool) :
    List WorkId → Bool → DependencyAction
  | [], allSuccess => if allSuccess && waiting then .ready else .noChange
  | dependency :: rest, allSuccess =>
      match (state.workItem dependency).bind WorkRecord.terminal with
      | some (.succeeded _) => dependencyScan state waiting rest allSuccess
      | some _ => .failed dependency
      | none => dependencyScan state waiting rest false

def dependencyAction (state : SchedulerState) (record : WorkRecord) :
    DependencyAction :=
  if record.phase = .waitingDependencies ∨ record.phase = .queued then
    dependencyScan state (decide (record.phase = .waitingDependencies))
      record.spec.dependencies true
  else .noChange

structure DependencyChange where
  workId : WorkId
  action : DependencyAction

def collectDependencyChanges (state : SchedulerState) : List DependencyChange :=
  state.work.filterMap fun record =>
    match dependencyAction state record with
    | .noChange => none
    | action => some ⟨record.id, action⟩

def applyOne (state : SchedulerState) (change : DependencyChange) :
    SchedulerState :=
  match change.action with
  | .ready => (setWorkPhase state change.workId .queued).getD state
  | .failed dependency =>
      (terminalizeWork state change.workId (.dependencyFailed dependency)).getD
        state
  | .noChange => state

/-- One round over the changes seen at its start, and whether it had any. -/
def applyDependencyRound (state : SchedulerState) : SchedulerState × Bool :=
  let changes := collectDependencyChanges state
  (changes.foldl applyOne state, !changes.isEmpty)

/-- Two rounds for every record, and fewer once a round changes nothing. -/
def propagateRounds : Nat → SchedulerState → SchedulerState
  | 0, state => state
  | remaining + 1, state =>
      let (first, changed) := applyDependencyRound state
      if changed then
        let (second, changedAgain) := applyDependencyRound first
        if changedAgain then propagateRounds remaining second else second
      else first

def propagateDependencies (state : SchedulerState) : SchedulerState :=
  propagateRounds state.work.length state

/-! ### Worker phases -/

def refreshOneWorker (state : SchedulerState) (id : WorkerId) :
    SchedulerState :=
  match state.worker id with
  | none => state
  | some worker =>
      match worker.phase with
      | .draining => state
      | .lost => state
      | .removed => state
      | _ =>
          (setWorkerPhase state id
            (if worker.descriptor.concurrency ≤ workerReservationCount state id
              then .busy else .available)).getD state

def refreshWorkerPhases (state : SchedulerState) : SchedulerState :=
  (state.workers.map WorkerRecord.id).foldl refreshOneWorker state

def refresh (state : SchedulerState) : SchedulerState :=
  refreshWorkerPhases (propagateDependencies state)

end Peritus.Scheduler.Mutation
