import Peritus.Checked
import Peritus.Scheduler.Resource

/-!
The scheduler's records, its state, and the commands and events of its reducer.
A record that a constructor would refuse cannot be built.
-/

namespace Peritus.Scheduler.State

open Peritus.Types SortedTable Checked Limits Resource

/-! ### Binding -/

structure SchedulerBinding where
  semantics : SchedulerSemantics
  runId : RunId
  schedulerId : SchedulerId
  revision : RevisionTuple
  limits : SchedulerLimits
  capacity : ResourceVector
  dimensions : capacity.entries.length ≤ limits.resourceDimensions
deriving DecidableEq

namespace SchedulerBinding

def fromWire (semantics : SchedulerSemantics) (runId : RunId)
    (schedulerId : SchedulerId) (revision : RevisionTuple)
    (limits : SchedulerLimits) (capacity : ResourceVector) :
    Except SchedulerError SchedulerBinding := do
  limits.validate
  capacity.validate limits.resourceDimensions
  if h : capacity.entries.length ≤ limits.resourceDimensions then
    .ok ⟨semantics, runId, schedulerId, revision, limits, capacity, h⟩
  else
    .error (reject .limitExceeded
      "resource vector is empty or exceeds its dimension bound")

def validate (binding : SchedulerBinding) : Except SchedulerError Unit :=
  (fromWire binding.semantics binding.runId binding.schedulerId
    binding.revision binding.limits binding.capacity).map fun _ => ()

theorem fromWire_self (binding : SchedulerBinding) :
    fromWire binding.semantics binding.runId binding.schedulerId
      binding.revision binding.limits binding.capacity = .ok binding := by
  unfold fromWire
  rw [SchedulerLimits.validate_eq_ok,
    ResourceVector.validate_eq_ok_iff.mpr binding.dimensions]
  exact dif_pos binding.dimensions

theorem fields_of_fromWire {semantics : SchedulerSemantics} {runId : RunId}
    {schedulerId : SchedulerId} {revision : RevisionTuple}
    {limits : SchedulerLimits} {capacity : ResourceVector}
    {binding : SchedulerBinding}
    (h : fromWire semantics runId schedulerId revision limits capacity =
      .ok binding) :
    binding.semantics = semantics ∧ binding.runId = runId ∧
      binding.schedulerId = schedulerId ∧ binding.revision = revision ∧
      binding.limits = limits ∧ binding.capacity = capacity := by
  unfold fromWire at h
  simp only [check_bind_eq_ok_iff] at h
  obtain ⟨-, -, h⟩ := h
  split at h
  · cases h
    exact ⟨rfl, rfl, rfl, rfl, rfl, rfl⟩
  · cases h

theorem validate_eq_ok (binding : SchedulerBinding) :
    binding.validate = .ok () := by
  unfold validate
  rw [fromWire_self]
  rfl

end SchedulerBinding

/-! ### Workers -/

inductive ExecutionClass
  | model
  | tool
  | gate
  | review
  | coordination
deriving DecidableEq

def ExecutionClass.rank : ExecutionClass → Nat
  | .model => 0
  | .tool => 1
  | .gate => 2
  | .review => 3
  | .coordination => 4

@[ext]
structure WorkerDescriptor where
  id : WorkerId
  owner : ActorId
  classes : List ExecutionClass
  capacity : ResourceVector
  concurrency : Nat
  nonempty : classes ≠ []
  canonical : Sorted ExecutionClass.rank classes
  concurrent : 0 < concurrency
  bound : concurrency ≤ SchedulerLimits.production.activeReservations
  dimensions : capacity.entries.length ≤
    SchedulerLimits.production.resourceDimensions

instance : DecidableEq WorkerDescriptor := fun _ _ =>
  decidable_of_iff _ WorkerDescriptor.ext_iff.symm

namespace WorkerDescriptor

def supports (descriptor : WorkerDescriptor) (executionClass : ExecutionClass) :
    Bool :=
  descriptor.classes.any fun c => decide (c = executionClass)

def new (id : WorkerId) (owner : ActorId) (classes : List ExecutionClass)
    (capacity : ResourceVector) (concurrency : Nat) (limits : SchedulerLimits) :
    Except SchedulerError WorkerDescriptor :=
  if hclasses : classes ≠ [] ∧ ascending ExecutionClass.rank classes = true ∧
      0 < concurrency ∧ concurrency ≤ limits.activeReservations then
    if hdimensions : capacity.entries.length ≤ limits.resourceDimensions then
      .ok
        { id, owner, classes, capacity, concurrency
          nonempty := hclasses.1
          canonical := ascending_iff.mp hclasses.2.1
          concurrent := hclasses.2.2.1
          bound := hclasses.2.2.2.trans limits.le_production.2.2.2.2.2.1
          dimensions := hdimensions.trans limits.le_production.2.2.2.2.1 }
    else
      .error (reject .limitExceeded
        "resource vector is empty or exceeds its dimension bound")
  else
    .error (reject .nonCanonical
      "worker classes or concurrency are empty, duplicated, unsorted, or out of bounds")

theorem new_self {descriptor : WorkerDescriptor} {limits : SchedulerLimits}
    (hconcurrency : descriptor.concurrency ≤ limits.activeReservations)
    (hdimensions : descriptor.capacity.entries.length ≤
      limits.resourceDimensions) :
    new descriptor.id descriptor.owner descriptor.classes descriptor.capacity
      descriptor.concurrency limits = .ok descriptor := by
  unfold new
  rw [dif_pos ⟨descriptor.nonempty, ascending_iff.mpr descriptor.canonical,
    descriptor.concurrent, hconcurrency⟩, dif_pos hdimensions]

theorem fields_of_new {id : WorkerId} {owner : ActorId}
    {classes : List ExecutionClass} {capacity : ResourceVector}
    {concurrency : Nat} {limits : SchedulerLimits}
    {descriptor : WorkerDescriptor}
    (h : new id owner classes capacity concurrency limits = .ok descriptor) :
    descriptor.id = id ∧ descriptor.owner = owner ∧
      descriptor.classes = classes ∧ descriptor.capacity = capacity ∧
      descriptor.concurrency = concurrency := by
  unfold new at h
  split at h
  · split at h
    · cases h
      exact ⟨rfl, rfl, rfl, rfl, rfl⟩
    · cases h
  · cases h

end WorkerDescriptor

inductive WorkerPhase
  | available
  | busy
  | draining
  | lost
  | removed
deriving DecidableEq

structure WorkerRecord where
  descriptor : WorkerDescriptor
  phase : WorkerPhase
deriving DecidableEq

def WorkerRecord.id (record : WorkerRecord) : WorkerId :=
  record.descriptor.id

/-! ### Work -/

inductive RecoveryPolicy
  | retrySafe
  | ambiguous
  | fail
deriving DecidableEq

inductive WorkPhase
  | waitingDependencies
  | queued
  | reserved
  | running
  | retryPending
  | cancelling
  | terminal
deriving DecidableEq

/-- The phases in which work is held by a reservation. -/
def WorkPhase.isActive : WorkPhase → Bool
  | .reserved => true
  | .running => true
  | .cancelling => true
  | _ => false

inductive WorkTerminal
  | succeeded (resultDigest : Sha256Digest)
  | failed (failureDigest : Sha256Digest)
  | dependencyFailed (dependency : WorkId)
  | cancelled
  | ambiguous (dispatchId : DispatchId)
  | exhausted (causeDigest : Sha256Digest)
  | abandoned (causeDigest : Sha256Digest)
deriving DecidableEq

def WorkTerminal.isSucceeded : WorkTerminal → Bool
  | .succeeded _ => true
  | _ => false

structure WorkSpec where
  id : WorkId
  owner : ActorId
  revision : RevisionTuple
  executionClass : ExecutionClass
  priority : UInt8
  request : ResourceVector
  budgetReservation : Option BudgetReservationId
  dependencies : List WorkId
  parent : Option WorkId
  maximumAttempts : AttemptNumber
  recovery : RecoveryPolicy
  payloadDigest : Sha256Digest
  canonical : Sorted (fun id : WorkId => id) dependencies
  notSelf : id ∉ dependencies
  otherParent : parent ≠ some id
  dependencyBound : dependencies.length ≤
    SchedulerLimits.production.dependenciesPerWork
  attemptBound : maximumAttempts.get ≤
    SchedulerLimits.production.attemptsPerWork
  dimensions : request.entries.length ≤
    SchedulerLimits.production.resourceDimensions
deriving DecidableEq

namespace WorkSpec

def new (id : WorkId) (owner : ActorId) (revision : RevisionTuple)
    (executionClass : ExecutionClass) (priority : UInt8)
    (request : ResourceVector) (budgetReservation : Option BudgetReservationId)
    (dependencies : List WorkId) (parent : Option WorkId)
    (maximumAttempts : AttemptNumber) (recovery : RecoveryPolicy)
    (payloadDigest : Sha256Digest) (limits : SchedulerLimits) :
    Except SchedulerError WorkSpec :=
  if hdependencies : dependencies.length ≤ limits.dependenciesPerWork ∧
      ascending (fun id : WorkId => id) dependencies = true ∧
      id ∉ dependencies ∧ parent ≠ some id then
    if hattempts : maximumAttempts.get ≤ limits.attemptsPerWork then
      if hdimensions : request.entries.length ≤ limits.resourceDimensions then
        .ok
          { id, owner, revision, executionClass, priority, request
            budgetReservation, dependencies, parent, maximumAttempts, recovery
            payloadDigest
            canonical := ascending_iff.mp hdependencies.2.1
            notSelf := hdependencies.2.2.1
            otherParent := hdependencies.2.2.2
            dependencyBound :=
              hdependencies.1.trans limits.le_production.2.2.2.1
            attemptBound :=
              hattempts.trans limits.le_production.2.2.2.2.2.2.1
            dimensions := hdimensions.trans limits.le_production.2.2.2.2.1 }
      else
        .error (reject .limitExceeded
          "resource vector is empty or exceeds its dimension bound")
    else
      .error (reject .limitExceeded "work attempt bound exceeds scheduler limit")
  else
    .error (reject .nonCanonical
      "work dependencies are oversized, duplicated, unsorted, or self-referential")

theorem new_self {spec : WorkSpec} {limits : SchedulerLimits}
    (hdependencies : spec.dependencies.length ≤ limits.dependenciesPerWork)
    (hattempts : spec.maximumAttempts.get ≤ limits.attemptsPerWork)
    (hdimensions : spec.request.entries.length ≤ limits.resourceDimensions) :
    new spec.id spec.owner spec.revision spec.executionClass spec.priority
      spec.request spec.budgetReservation spec.dependencies spec.parent
      spec.maximumAttempts spec.recovery spec.payloadDigest limits =
    .ok spec := by
  unfold new
  rw [dif_pos ⟨hdependencies, ascending_iff.mpr spec.canonical, spec.notSelf,
    spec.otherParent⟩, dif_pos hattempts, dif_pos hdimensions]

theorem fields_of_new {id : WorkId} {owner : ActorId}
    {revision : RevisionTuple} {executionClass : ExecutionClass}
    {priority : UInt8} {request : ResourceVector}
    {budgetReservation : Option BudgetReservationId}
    {dependencies : List WorkId} {parent : Option WorkId}
    {maximumAttempts : AttemptNumber} {recovery : RecoveryPolicy}
    {payloadDigest : Sha256Digest} {limits : SchedulerLimits} {spec : WorkSpec}
    (h : new id owner revision executionClass priority request
      budgetReservation dependencies parent maximumAttempts recovery
      payloadDigest limits = .ok spec) :
    spec.id = id ∧ spec.owner = owner ∧ spec.revision = revision ∧
      spec.executionClass = executionClass ∧ spec.priority = priority ∧
      spec.request = request ∧ spec.budgetReservation = budgetReservation ∧
      spec.dependencies = dependencies ∧ spec.parent = parent ∧
      spec.maximumAttempts = maximumAttempts ∧ spec.recovery = recovery ∧
      spec.payloadDigest = payloadDigest := by
  unfold new at h
  split at h
  · split at h
    · split at h
      · cases h
        exact ⟨rfl, rfl, rfl, rfl, rfl, rfl, rfl, rfl, rfl, rfl, rfl, rfl⟩
      · cases h
    · cases h
  · cases h

end WorkSpec

structure WorkRecord where
  spec : WorkSpec
  phase : WorkPhase
  enqueueOrdinal : Nat
  bypasses : Nat
  attemptsStarted : Nat
  retryCause : Option Sha256Digest
  terminal : Option WorkTerminal
deriving DecidableEq

namespace WorkRecord

def id (record : WorkRecord) : WorkId :=
  record.spec.id

def new (spec : WorkSpec) (phase : WorkPhase) (enqueueOrdinal : Nat) :
    WorkRecord :=
  ⟨spec, phase, enqueueOrdinal, 0, 0, none, none⟩

def setPhase (record : WorkRecord) (phase : WorkPhase) : WorkRecord :=
  { record with phase }

def setBypasses (record : WorkRecord) (bypasses : Nat) : WorkRecord :=
  { record with bypasses }

def setRetryPending (record : WorkRecord) (cause : Sha256Digest) : WorkRecord :=
  { record with phase := .retryPending, retryCause := some cause }

def queueRetry (record : WorkRecord) : WorkRecord :=
  { record with phase := .queued, retryCause := none }

def terminalize (record : WorkRecord) (terminal : WorkTerminal) : WorkRecord :=
  { record with phase := .terminal, retryCause := none, terminal := some terminal }

def tryBeginAttempt (record : WorkRecord) : Option (AttemptNumber × WorkRecord) :=
  if record.attemptsStarted = 65535 then none
  else if h : record.attemptsStarted + 1 ≤ record.spec.maximumAttempts.get then
    some
      (⟨record.attemptsStarted + 1, Nat.succ_pos _,
          h.trans record.spec.maximumAttempts.bound⟩,
        { record with
          attemptsStarted := record.attemptsStarted + 1
          phase := .reserved
          retryCause := none })
  else none

end WorkRecord

/-! ### Reservations -/

structure SchedulerReservation where
  workId : WorkId
  dispatchId : DispatchId
  workerId : WorkerId
  owner : ActorId
  attempt : AttemptNumber
  revision : RevisionTuple
  resources : ResourceVector
  dispatchToken : Sha256Digest
  started : Bool
deriving DecidableEq

/-! ### State -/

inductive SchedulerPhase
  | active
  | paused
  | draining
  | drainingPaused
  | terminal
deriving DecidableEq

inductive SchedulerTerminalKind
  | completed
  | failed
  | dependencyFailed
  | ambiguous
  | exhausted
  | cancelled
deriving DecidableEq

structure SchedulerTerminal where
  kind : SchedulerTerminalKind
  nonSuccessfulWork : List WorkId
  digest : Sha256Digest
deriving DecidableEq

def zeroDigest : Sha256Digest :=
  ⟨0, Sha256Digest.zero_bound⟩

structure SchedulerState where
  binding : SchedulerBinding
  phase : SchedulerPhase
  sequence : EventSequence
  lastEventId : EventId
  stateDigest : Sha256Digest
  workers : List WorkerRecord
  work : List WorkRecord
  reservations : List SchedulerReservation
  usedDispatches : List DispatchId
  enqueueOrdinal : Nat
  dispatchOrdinal : Nat
  usedCommands : List CommandId
  terminal : Option SchedulerTerminal
deriving DecidableEq

namespace SchedulerState

def genesis (binding : SchedulerBinding) (eventId : EventId)
    (commandId : CommandId) : SchedulerState where
  binding := binding
  phase := .active
  sequence := PositiveNumber.first
  lastEventId := eventId
  stateDigest := zeroDigest
  workers := []
  work := []
  reservations := []
  usedDispatches := []
  enqueueOrdinal := 0
  dispatchOrdinal := 0
  usedCommands := [commandId]
  terminal := none

def workerIndex (state : SchedulerState) (id : WorkerId) : Option Nat :=
  lookupIndex WorkerRecord.id id state.workers

def worker (state : SchedulerState) (id : WorkerId) : Option WorkerRecord :=
  lookup WorkerRecord.id id state.workers

def workItem (state : SchedulerState) (id : WorkId) : Option WorkRecord :=
  lookup WorkRecord.id id state.work

def reservation (state : SchedulerState) (id : DispatchId) :
    Option SchedulerReservation :=
  lookup SchedulerReservation.dispatchId id state.reservations

def allWorkTerminal (state : SchedulerState) : Bool :=
  state.work.all fun record => decide (record.phase = .terminal)

/-- Saturating at the greatest `u64`, as every step of the source's sum does. -/
def estimatedEncodedBytes (state : SchedulerState) : Nat :=
  min u64Max
    (1024 + state.workers.length * 512
      + (state.work.map fun record =>
          512 + record.spec.dependencies.length * 16
            + record.spec.request.entries.length * 16).sum
      + state.reservations.length * 384
      + state.usedDispatches.length * 16
      + state.usedCommands.length * 16)

end SchedulerState

/-! ### Commands -/

inductive FailureDisposition
  | retryable
  | failed
  | ambiguous
deriving DecidableEq

inductive SchedulerCommandKind
  | startScheduler (binding : SchedulerBinding)
  | registerWorker (descriptor : WorkerDescriptor)
  | setWorkerAvailable (workerId : WorkerId)
  | drainWorker (workerId : WorkerId)
  | loseWorker (workerId : WorkerId)
  | removeWorker (workerId : WorkerId)
  | admitWork (spec : WorkSpec)
  | dispatchNext (dispatchId : DispatchId) (dispatchToken : Sha256Digest)
  | acknowledgeStart (dispatchId : DispatchId)
  | completeWork (dispatchId : DispatchId) (resultDigest : Sha256Digest)
  | failWork (dispatchId : DispatchId) (failureDigest : Sha256Digest)
      (disposition : FailureDisposition)
  | retryWork (workId : WorkId)
  | cancelWork (workId : WorkId)
  | cancelWorkTree (workId : WorkId)
  | acknowledgeCancellation (dispatchId : DispatchId)
  | exhaustWork (workId : WorkId) (causeDigest : Sha256Digest)
  | abandonDispatch (dispatchId : DispatchId) (causeDigest : Sha256Digest)
  | pauseScheduler
  | resumeScheduler
  | drainScheduler
  | finalizeScheduler
deriving DecidableEq

def SchedulerCommandKind.isStart : SchedulerCommandKind → Bool
  | .startScheduler _ => true
  | _ => false

/-- A genesis command carries a binding of its own semantics. -/
def SchedulerCommandKind.agrees (semantics : SchedulerSemantics) :
    SchedulerCommandKind → Bool
  | .startScheduler binding => decide (binding.semantics = semantics)
  | _ => true

/-- A command as its constructors and its decoder build it. -/
structure SchedulerCommand where
  semantics : SchedulerSemantics
  commandId : CommandId
  eventId : EventId
  runId : RunId
  expectedSequence : Nat
  expectedPreviousEvent : Option EventId
  priorStateDigest : Sha256Digest
  revision : RevisionTuple
  kind : SchedulerCommandKind
  sequenceBound : expectedSequence ≤ u64Max
  predecessor : expectedSequence = 0 ↔ expectedPreviousEvent = none
  genesis : kind.agrees semantics = true

theorem SchedulerState.sequence_bound (state : SchedulerState) :
    state.sequence.get ≤ u64Max :=
  state.sequence.bound

theorem SchedulerState.predecessor (state : SchedulerState) :
    state.sequence.get = 0 ↔ some state.lastEventId = none :=
  iff_of_false state.sequence.positive.ne' nofun

namespace SchedulerCommand

def fromState (state : SchedulerState) (commandId : CommandId)
    (eventId : EventId) (kind : SchedulerCommandKind) :
    Except SchedulerError SchedulerCommand :=
  if hstart : kind.isStart = true then
    .error (reject .illegalTransition
      "existing scheduler state cannot create another genesis command")
  else
    .ok
      { semantics := state.binding.semantics
        commandId, eventId
        runId := state.binding.runId
        expectedSequence := state.sequence.get
        expectedPreviousEvent := some state.lastEventId
        priorStateDigest := state.stateDigest
        revision := state.binding.revision
        kind
        sequenceBound := state.sequence_bound
        predecessor := state.predecessor
        genesis := by
          cases kind with
          | startScheduler binding => exact absurd rfl hstart
          | _ => rfl }

end SchedulerCommand

/-! ### Events -/

inductive LossOutcome
  | requeued (dispatchId : DispatchId) (workId : WorkId)
  | exhausted (dispatchId : DispatchId) (workId : WorkId)
  | ambiguous (dispatchId : DispatchId) (workId : WorkId)
  | failed (dispatchId : DispatchId) (workId : WorkId)
  | cancelled (dispatchId : DispatchId) (workId : WorkId)
deriving DecidableEq

inductive SchedulerEventKind
  | schedulerStarted (binding : SchedulerBinding)
  | workerRegistered (descriptor : WorkerDescriptor)
  | workerAvailable (workerId : WorkerId)
  | workerDrainRequested (workerId : WorkerId)
  | workerLost (workerId : WorkerId) (outcomes : List LossOutcome)
  | workerRemoved (workerId : WorkerId)
  | workAdmitted (spec : WorkSpec)
  | workReserved (reservation : SchedulerReservation)
  | workStartAcknowledged (dispatchId : DispatchId)
  | workSucceeded (dispatchId : DispatchId) (resultDigest : Sha256Digest)
  | workFailed (dispatchId : DispatchId) (failureDigest : Sha256Digest)
      (disposition : FailureDisposition)
  | workRetryQueued (workId : WorkId)
  | workCancelled (workId : WorkId) (descendants : Bool) (affected : List WorkId)
  | cancellationAcknowledged (dispatchId : DispatchId)
  | workExhausted (workId : WorkId) (causeDigest : Sha256Digest)
  | dispatchAbandoned (dispatchId : DispatchId) (causeDigest : Sha256Digest)
  | schedulerPaused
  | schedulerResumed
  | schedulerDrainRequested
  | schedulerFinalized (terminal : SchedulerTerminal)
deriving DecidableEq

structure SchedulerEvent where
  semantics : SchedulerSemantics
  id : EventId
  commandId : CommandId
  sequence : EventSequence
  previousEvent : Option EventId
  runId : RunId
  revision : RevisionTuple
  priorStateDigest : Sha256Digest
  successorStateDigest : Sha256Digest
  kind : SchedulerEventKind
deriving DecidableEq

structure SchedulerTransition where
  event : SchedulerEvent
  state : SchedulerState

end Peritus.Scheduler.State
