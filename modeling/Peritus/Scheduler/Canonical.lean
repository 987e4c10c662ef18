import Peritus.Bytes
import Peritus.Scheduler.State

/-!
The bytes that scheduler digests are taken of.  The hash itself is a parameter
of everything that uses a digest.
-/

namespace Peritus.Scheduler.Canonical

open Peritus.Types Bytes Limits Resource State

/-! ### Tags -/

def executionClassTag : ExecutionClass → Nat
  | .model => 1
  | .tool => 2
  | .gate => 3
  | .review => 4
  | .coordination => 5

def recoveryPolicyTag : RecoveryPolicy → Nat
  | .retrySafe => 1
  | .ambiguous => 2
  | .fail => 3

def workerPhaseTag : WorkerPhase → Nat
  | .available => 1
  | .busy => 2
  | .draining => 3
  | .lost => 4
  | .removed => 5

def workPhaseTag : WorkPhase → Nat
  | .waitingDependencies => 1
  | .queued => 2
  | .reserved => 3
  | .running => 4
  | .retryPending => 5
  | .cancelling => 6
  | .terminal => 7

def schedulerPhaseTag : SchedulerPhase → Nat
  | .active => 1
  | .paused => 2
  | .draining => 3
  | .drainingPaused => 4
  | .terminal => 5

def terminalKindTag : SchedulerTerminalKind → Nat
  | .completed => 1
  | .failed => 2
  | .dependencyFailed => 3
  | .ambiguous => 4
  | .exhausted => 5
  | .cancelled => 6

/-! ### Encoders -/

def encodeId (id : OpaqueIdentifier) : List UInt8 :=
  beBytes 16 id.value

def encodeDigest (digest : Sha256Digest) : List UInt8 :=
  beBytes 32 digest.value

def encodeLen (length : Nat) : List UInt8 :=
  beBytes 8 (min length u64Max)

def encodeOption {α : Type} (value : Option α) (encode : α → List UInt8) :
    List UInt8 :=
  match value with
  | none => beBytes 1 0
  | some found => beBytes 1 1 ++ encode found

def encodeRevision (revision : RevisionTuple) : List UInt8 :=
  encodeId revision.acceptanceSpecId ++ encodeId revision.harnessId
    ++ encodeId revision.workspaceId
    ++ beBytes 8 revision.workspaceGeneration.get
    ++ beBytes 8 revision.workspaceRevision.get
    ++ encodeId revision.policyId ++ encodeId revision.providerProfileId

def encodeResources (value : ResourceVector) : List UInt8 :=
  encodeLen value.entries.length
    ++ value.entries.flatMap fun entry =>
      beBytes 2 entry.kind.tag ++ beBytes 8 entry.quantity.get

def encodeBinding (value : SchedulerBinding) : List UInt8 :=
  encodeId value.runId ++ encodeId value.schedulerId
    ++ encodeRevision value.revision
    ++ beBytes 4 value.limits.queuedWork ++ beBytes 4 value.limits.retainedWork
    ++ beBytes 2 value.limits.workers
    ++ beBytes 2 value.limits.dependenciesPerWork
    ++ beBytes 2 value.limits.resourceDimensions
    ++ beBytes 2 value.limits.activeReservations
    ++ beBytes 2 value.limits.attemptsPerWork
    ++ beBytes 2 value.limits.bypassCount
    ++ beBytes 2 value.limits.dispatchBatchSize
    ++ beBytes 8 value.limits.payloadBytes
    ++ beBytes 8 value.limits.stateBytes
    ++ encodeResources value.capacity

def encodeDescriptor (value : WorkerDescriptor) : List UInt8 :=
  encodeId value.id ++ encodeId value.owner ++ encodeLen value.classes.length
    ++ value.classes.flatMap (fun c => beBytes 1 (executionClassTag c))
    ++ encodeResources value.capacity ++ beBytes 2 value.concurrency

def encodeWorker (value : WorkerRecord) : List UInt8 :=
  encodeDescriptor value.descriptor ++ beBytes 1 (workerPhaseTag value.phase)

def encodeSpec (value : WorkSpec) : List UInt8 :=
  encodeId value.id ++ encodeId value.owner ++ encodeRevision value.revision
    ++ beBytes 1 (executionClassTag value.executionClass) ++ [value.priority]
    ++ encodeResources value.request
    ++ encodeOption value.budgetReservation encodeId
    ++ encodeLen value.dependencies.length
    ++ value.dependencies.flatMap encodeId
    ++ encodeOption value.parent encodeId
    ++ beBytes 2 value.maximumAttempts.get
    ++ beBytes 1 (recoveryPolicyTag value.recovery)
    ++ encodeDigest value.payloadDigest

def encodeWorkTerminal : WorkTerminal → List UInt8
  | .succeeded resultDigest => beBytes 1 1 ++ encodeDigest resultDigest
  | .failed failureDigest => beBytes 1 2 ++ encodeDigest failureDigest
  | .dependencyFailed dependency => beBytes 1 3 ++ encodeId dependency
  | .cancelled => beBytes 1 4
  | .ambiguous dispatchId => beBytes 1 5 ++ encodeId dispatchId
  | .exhausted causeDigest => beBytes 1 6 ++ encodeDigest causeDigest
  | .abandoned causeDigest => beBytes 1 7 ++ encodeDigest causeDigest

def encodeWork (value : WorkRecord) : List UInt8 :=
  encodeSpec value.spec ++ beBytes 1 (workPhaseTag value.phase)
    ++ beBytes 8 value.enqueueOrdinal ++ beBytes 2 value.bypasses
    ++ beBytes 2 value.attemptsStarted
    ++ encodeOption value.retryCause encodeDigest
    ++ encodeOption value.terminal encodeWorkTerminal

def encodeReservation (value : SchedulerReservation) : List UInt8 :=
  encodeId value.workId ++ encodeId value.dispatchId ++ encodeId value.workerId
    ++ encodeId value.owner ++ beBytes 2 value.attempt.get
    ++ encodeRevision value.revision ++ encodeResources value.resources
    ++ encodeDigest value.dispatchToken
    ++ beBytes 1 (if value.started then 1 else 0)

def encodeTerminalFields (value : SchedulerTerminal) : List UInt8 :=
  beBytes 1 (terminalKindTag value.kind)
    ++ encodeLen value.nonSuccessfulWork.length
    ++ value.nonSuccessfulWork.flatMap encodeId

def encodeTerminal (value : SchedulerTerminal) : List UInt8 :=
  encodeTerminalFields value ++ encodeDigest value.digest

/-! ### Digests -/

/-- A domain separator and, from the second semantics on, the schema version. -/
def domain (legacy strict : String) (semantics : SchedulerSemantics) :
    List UInt8 :=
  match semantics with
  | .legacyQueueV1 => legacy.toUTF8.toList
  | .strictRecoveryQueueV2 =>
      strict.toUTF8.toList ++ beBytes 2 semantics.schemaVersion

def encodeState (state : SchedulerState) : List UInt8 :=
  encodeBinding state.binding ++ beBytes 1 (schedulerPhaseTag state.phase)
    ++ beBytes 8 state.sequence.get ++ encodeId state.lastEventId
    ++ encodeLen state.workers.length ++ state.workers.flatMap encodeWorker
    ++ encodeLen state.work.length ++ state.work.flatMap encodeWork
    ++ encodeLen state.reservations.length
    ++ state.reservations.flatMap encodeReservation
    ++ encodeLen state.usedDispatches.length
    ++ state.usedDispatches.flatMap encodeId
    ++ beBytes 8 state.enqueueOrdinal ++ beBytes 8 state.dispatchOrdinal
    ++ encodeLen state.usedCommands.length
    ++ state.usedCommands.flatMap encodeId
    ++ encodeOption state.terminal encodeTerminal

section Hash

variable (sha256 : List UInt8 → Sha256Digest)

/-- The digest of everything but the state's own digest field. -/
def stateDigest (state : SchedulerState) : Sha256Digest :=
  sha256 (domain "peritus-d3-scheduler-state-v1\x00"
    "peritus-d3-scheduler-state-v2\x00" state.binding.semantics
    ++ encodeState state)

def terminalDigest (terminal : SchedulerTerminal) : Sha256Digest :=
  sha256 ("peritus-d3-scheduler-terminal-v1\x00".toUTF8.toList
    ++ encodeTerminalFields terminal)

end Hash

end Peritus.Scheduler.Canonical
