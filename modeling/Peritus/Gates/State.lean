import Peritus.Checked
import Peritus.SortedTable
import Peritus.Types

/-!
One gate run: the plan it follows, the results and the evidence of its attempts,
the slot of each planned gate, and the replayable state.
-/

namespace Peritus.Gates.State

open Peritus.Types Checked SortedTable

abbrev GateId := OpaqueIdentifier
abbrev GateExecutionId := OpaqueIdentifier
abbrev ProcessId := OpaqueIdentifier

structure EvidenceRequirementId where
  digest : Sha256Digest
deriving DecidableEq

/-! ### Rejections -/

inductive GateRejection
  | bindingMismatch
  | illegalTransition
  | dependencyUnsatisfied
  | identityMismatch
  | limitExceeded
  | illegalRetry
  | replayMismatch
  | evidenceInvalid
  | cancellationIncomplete
deriving DecidableEq

inductive GateRecoveryAction
  | correctInput
  | replayAggregate
  | reconcileAttempt
  | freshAction
  | republishEvidence
  | quarantine
deriving DecidableEq

structure GateError where
  kind : GateRejection
  recovery : GateRecoveryAction
  detail : String
deriving DecidableEq

def reject (kind : GateRejection) (detail : String) : GateError :=
  let recovery :=
    match kind with
    | .replayMismatch => .quarantine
    | .cancellationIncomplete | .illegalRetry => .reconcileAttempt
    | .evidenceInvalid => .republishEvidence
    | .bindingMismatch | .illegalTransition | .dependencyUnsatisfied
    | .identityMismatch | .limitExceeded => .correctInput
  ⟨kind, recovery, detail⟩

/-! ### The plan -/

def maxGatesPerRun : Nat := 1024
def maxGateDependencies : Nat := 1024
def maxGateEvidence : Nat := 1024
def maxTotalGateAttempts : Nat := 65535

structure PlannedGate where
  id : GateId
  dependencies : List GateId
  requiredEvidence : List EvidenceRequirementId
deriving DecidableEq

/-- The rows of a table in ascending key order are found by their key. -/
def findGate (gates : List PlannedGate) (id : GateId) : Option PlannedGate :=
  gates.find? fun gate => decide (gate.id = id)

/-- The scan of `validate_order`, with the gates resolved so far. -/
def validateOrderFrom (gates : List PlannedGate) (resolved : List GateId) :
    List GateId → Except GateError Unit
  | [] => .ok ()
  | id :: rest =>
      match findGate gates id with
      | none =>
          .error (reject .bindingMismatch
            "gate execution order contains an unknown identity")
      | some gate => do
          ensure (gate.dependencies.all (fun dependency =>
              decide (dependency ∈ resolved)) && decide (id ∉ resolved))
            (reject .bindingMismatch
              "gate execution order violates dependency or uniqueness invariants")
          validateOrderFrom gates (id :: resolved) rest

def validateOrder (gates : List PlannedGate) (order : List GateId) :
    Except GateError Unit := do
  ensure (decide (gates.length = order.length))
    (reject .bindingMismatch
      "gate execution order does not cover the exact gate set")
  validateOrderFrom gates [] order

/-- A plan.  Its gates and their declarations come in the canonical order of the
acceptance contract, which has at least one gate and allows an attempt. -/
structure GatePlan where
  runId : RunId
  revision : RevisionTuple
  maximumAttempts : Nat
  gates : List PlannedGate
  executionOrder : List GateId
  digest : Sha256Digest
  attempts : 0 < maximumAttempts ∧ maximumAttempts < 2 ^ 16
  counted : gates ≠ [] ∧ gates.length ≤ maxGatesPerRun
  total : gates.length * maximumAttempts ≤ maxTotalGateAttempts
  declared : ∀ gate ∈ gates, gate.dependencies.length ≤ maxGateDependencies ∧
    gate.requiredEvidence.length ≤ maxGateEvidence ∧
    ascending id gate.dependencies = true ∧
    ascending (fun required => required.digest.value) gate.requiredEvidence = true
  ordered : ascending PlannedGate.id gates = true
  scheduled : validateOrder gates executionOrder = .ok ()

def GatePlan.gate (plan : GatePlan) (id : GateId) : Option PlannedGate :=
  findGate plan.gates id

/-! ### Results -/

inductive RetryPermission
  | never
  | freshAction
  | afterRecovery
deriving DecidableEq

inductive RecoveryRequirement
  | none
  | reauthorize
  | reconcileWorkspace
  | reconcileProcess
  | republishArtifact
  | humanReview
deriving DecidableEq

inductive GateOutcomeKind
  | passed
  | candidateFailure
  | infrastructureFailure
  | cancelled
  | timedOut
  | malformedOutput
  | incompleteEvidence
deriving DecidableEq

structure GateArtifact where
  digest : Sha256Digest
  size : Nat
  mediaType : String
  label : String
deriving DecidableEq

def maxGateArtifacts : Nat := 16

/-- Ascending without two artifacts of one digest: ascending in the digest. -/
def artifactsCanonical (artifacts : List GateArtifact) : Bool :=
  ascending (fun artifact => artifact.digest.value) artifacts

structure GateAttemptResult where
  gateId : GateId
  kind : GateOutcomeKind
  toolResultDigest : Sha256Digest
  candidateResultDigest : Option Sha256Digest
  executionPlanDigest : Option Sha256Digest
  processId : Option ProcessId
  artifacts : List GateArtifact
  retry : RetryPermission
  recovery : RecoveryRequirement
  bounded : artifacts.length ≤ maxGateArtifacts
  canonical : artifactsCanonical artifacts = true
  complete : kind = .passed → candidateResultDigest.isSome = true ∧
    executionPlanDigest.isSome = true ∧ processId.isSome = true
  authoritative : kind = .passed ∨ kind = .candidateFailure →
    retry = .never ∧ recovery = .none
deriving DecidableEq

def GateAttemptResult.passed (result : GateAttemptResult) : Bool :=
  decide (result.kind = .passed)

/-! ### Attempts and slots -/

@[ext]
structure GateAttemptOrdinal where
  get : Nat
  positive : 0 < get
  bound : get < 2 ^ 16

instance : DecidableEq GateAttemptOrdinal := fun _ _ =>
  decidable_of_iff _ GateAttemptOrdinal.ext_iff.symm

structure ActiveAttempt where
  executionId : GateExecutionId
  ordinal : GateAttemptOrdinal
  actionId : ActionId
  preparedDigest : Sha256Digest
  replayDigest : Sha256Digest
  snapshotDigest : Sha256Digest
deriving DecidableEq

inductive GateSlotPhase
  | pending
  | prepared
  | dispatched
  | recoveryPending
  | retryPending
  | evidencePending
  | passed
  | failed
  | blocked
  | cancelled
deriving DecidableEq

/-- The phases a slot never leaves. -/
def GateSlotPhase.isSettled : GateSlotPhase → Bool
  | .passed | .failed | .blocked | .cancelled => true
  | _ => false

/-! ### Evidence -/

def maxPublishedGateEvidence : Nat := 1024

structure PublishedGateEvidence where
  requirementId : EvidenceRequirementId
  evidenceId : EvidenceId
  recordDigest : Sha256Digest
  journalPosition : Nat
  producingEvent : EventId
deriving DecidableEq

structure EvidencePublication where
  runId : RunId
  gateId : GateId
  attempt : ActiveAttempt
  revision : RevisionTuple
  resultEvent : EventId
  resultPosition : Nat
  resultDigest : Sha256Digest
  required : List EvidenceRequirementId
  qualityArtifacts : List GateArtifact
  manifestDigest : Sha256Digest
deriving DecidableEq

/-- The evidence answers the requirements, one by one. -/
def exactRequirements (evidence : List PublishedGateEvidence)
    (required : List EvidenceRequirementId) : Bool :=
  decide (evidence.map PublishedGateEvidence.requirementId = required)

structure GateEvidenceReceipt where
  publication : EvidencePublication
  evidence : List PublishedGateEvidence
  receiptDigest : Sha256Digest
  bounded : evidence.length ≤ maxPublishedGateEvidence
  answered : exactRequirements evidence publication.required = true
  unique : (evidence.map PublishedGateEvidence.evidenceId).Nodup ∧
    (evidence.map PublishedGateEvidence.recordDigest).Nodup ∧
    (evidence.map fun item => (item.journalPosition, item.producingEvent)).Nodup
  positioned : ∀ item ∈ evidence, item.journalPosition ≠ 0
deriving DecidableEq

namespace GateEvidenceReceipt

variable (receipt : GateEvidenceReceipt)

def gateId : GateId := receipt.publication.gateId

def executionId : GateExecutionId := receipt.publication.attempt.executionId

def attempt : ActiveAttempt := receipt.publication.attempt

def revision : RevisionTuple := receipt.publication.revision

def resultEvent : EventId := receipt.publication.resultEvent

def resultPosition : Nat := receipt.publication.resultPosition

end GateEvidenceReceipt

structure GateSlot where
  gateId : GateId
  phase : GateSlotPhase
  attempts : Nat
  active : Option ActiveAttempt
  lastResult : Option GateAttemptResult
  resultEvent : Option EventId
  evidence : Option GateEvidenceReceipt
  blockedBy : Option GateId
deriving DecidableEq

def GateSlot.pending (gateId : GateId) : GateSlot :=
  ⟨gateId, .pending, 0, none, none, none, none, none⟩

namespace GateSlot

variable (slot : GateSlot)

def prepare (attempt : ActiveAttempt) : GateSlot :=
  { slot with
    attempts := attempt.ordinal.get
    active := some attempt
    lastResult := none
    resultEvent := none
    evidence := none
    phase := .prepared }

def dispatch : GateSlot := { slot with phase := .dispatched }

def observe (result : GateAttemptResult) (resultEvent : EventId)
    (phase : GateSlotPhase) : GateSlot :=
  { slot with
    lastResult := some result
    resultEvent := some resultEvent
    phase }

def recover (phase : GateSlotPhase) : GateSlot := { slot with phase }

def publish (receipt : GateEvidenceReceipt) : GateSlot :=
  { slot with evidence := some receipt, phase := .passed }

def block (dependency : GateId) : GateSlot :=
  { slot with
    active := none
    blockedBy := some dependency
    phase := .blocked }

def cancel : GateSlot := { slot with phase := .cancelled }

end GateSlot

/-! ### The run -/

inductive GateResumePhase
  | active
  | cancelling
deriving DecidableEq

inductive GateRunPhase
  | active
  | paused (resume : GateResumePhase)
  | cancelling
  | terminal
deriving DecidableEq

def GateRunPhase.isPaused : GateRunPhase → Bool
  | .paused _ => true
  | _ => false

inductive GateTerminalKind
  | passed
  | failed
  | cancelled
  | indeterminate
deriving DecidableEq

structure GateTerminal where
  kind : GateTerminalKind
  nonPassing : List GateId
  digest : Sha256Digest
deriving DecidableEq

structure GateRunState where
  runId : RunId
  planDigest : Sha256Digest
  revision : RevisionTuple
  snapshotDigest : Sha256Digest
  maximumAttempts : Nat
  phase : GateRunPhase
  sequence : EventSequence
  lastEventId : EventId
  stateDigest : Sha256Digest
  slots : List GateSlot
  usedExecutions : List GateExecutionId
  usedActions : List ActionId
  terminal : Option GateTerminal
deriving DecidableEq

namespace GateRunState

def slot (state : GateRunState) (gateId : GateId) : Option GateSlot :=
  state.slots.find? fun slot => decide (slot.gateId = gateId)

/-- `slot_mut`, and then an update of the slot. -/
def updateSlot (state : GateRunState) (gateId : GateId)
    (update : GateSlot → GateSlot) : GateRunState :=
  { state with
    slots := state.slots.map fun slot =>
      if slot.gateId = gateId then update slot else slot }

end GateRunState

end Peritus.Gates.State
