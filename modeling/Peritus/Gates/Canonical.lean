import Peritus.Encoding
import Peritus.Gates.State

/-!
The canonical bytes of a run and of its terminal, and of the manifest and the
receipt of a publication, which their digests are taken over.
-/

namespace Peritus.Gates.Canonical

open Peritus.Types Checked SortedTable Encoding State

/-! ### Tags -/

def runPhaseTag : GateRunPhase → Nat
  | .active => 1
  | .cancelling => 2
  | .terminal => 3
  | .paused .active => 4
  | .paused .cancelling => 5

def slotPhaseTag : GateSlotPhase → Nat
  | .pending => 1
  | .prepared => 2
  | .dispatched => 3
  | .recoveryPending => 4
  | .retryPending => 5
  | .evidencePending => 6
  | .passed => 7
  | .failed => 8
  | .blocked => 9
  | .cancelled => 10

def terminalKindTag : GateTerminalKind → Nat
  | .passed => 1
  | .failed => 2
  | .cancelled => 3
  | .indeterminate => 4

def outcomeTag : GateOutcomeKind → Nat
  | .passed => 1
  | .candidateFailure => 2
  | .infrastructureFailure => 3
  | .cancelled => 4
  | .timedOut => 5
  | .malformedOutput => 6
  | .incompleteEvidence => 7

def retryTag : RetryPermission → Nat
  | .never => 1
  | .freshAction => 2
  | .afterRecovery => 3

def recoveryTag : RecoveryRequirement → Nat
  | .none => 1
  | .reauthorize => 2
  | .reconcileWorkspace => 3
  | .reconcileProcess => 4
  | .republishArtifact => 5
  | .humanReview => 6

/-! ### Publications -/

def manifestArtifact (attempt : ActiveAttempt) (artifact : GateArtifact) :
    List UInt8 :=
  digest artifact.digest ++ u64 artifact.size ++ text artifact.mediaType ++
    text artifact.label ++ u8 1 ++ identifier attempt.actionId ++
    digest attempt.preparedDigest

def encodeAttempt (attempt : ActiveAttempt) : List UInt8 :=
  identifier attempt.executionId ++ u16 attempt.ordinal.get ++
    identifier attempt.actionId ++ digest attempt.preparedDigest ++
    digest attempt.replayDigest ++ digest attempt.snapshotDigest

def manifestBytes (publication : EvidencePublication) : List UInt8 :=
  raw "peritus-d1-gate-evidence-publication-v1\x00" ++
    identifier publication.runId ++ identifier publication.gateId ++
    encodeAttempt publication.attempt ++ revision publication.revision ++
    identifier publication.resultEvent ++ u64 publication.resultPosition ++
    digest publication.resultDigest ++
    sequence (fun required => digest required.digest) publication.required ++
    sequence (manifestArtifact publication.attempt) publication.qualityArtifacts

def receiptBytes (manifestDigest : Sha256Digest)
    (evidence : List PublishedGateEvidence) : List UInt8 :=
  raw "peritus-d1-gate-evidence-receipt-v2\x00" ++ digest manifestDigest ++
    sequence (fun item => digest item.requirementId.digest ++
      identifier item.evidenceId ++ digest item.recordDigest ++
      u64 item.journalPosition ++ identifier item.producingEvent) evidence

section Publication

variable (sha256 : List UInt8 → Sha256Digest)

def zeroDigest : Sha256Digest := ⟨0, Sha256Digest.zero_bound⟩

def newPublication (runId : RunId) (gateId : GateId) (attempt : ActiveAttempt)
    (revision : RevisionTuple) (resultEvent : EventId) (resultPosition : Nat)
    (resultDigest : Sha256Digest) (required : List EvidenceRequirementId)
    (qualityArtifacts : List GateArtifact) :
    Except GateError EvidencePublication := do
  ensure (decide (resultPosition ≠ 0) &&
      decide (required.length ≤ maxPublishedGateEvidence) &&
      decide (qualityArtifacts.length ≤ maxGateArtifacts) &&
      ascending (fun required => required.digest.value) required &&
      artifactsCanonical qualityArtifacts)
    (reject .limitExceeded
      "gate evidence publication exceeds a bound or is not canonical")
  let publication : EvidencePublication :=
    ⟨runId, gateId, attempt, revision, resultEvent, resultPosition, resultDigest,
      required, qualityArtifacts, zeroDigest⟩
  .ok { publication with manifestDigest := sha256 (manifestBytes publication) }

end Publication

/-! ### The state -/

def encodeArtifact (artifact : GateArtifact) : List UInt8 :=
  digest artifact.digest ++ u64 artifact.size ++ text artifact.mediaType ++
    text artifact.label

def encodeResult (result : GateAttemptResult) : List UInt8 :=
  identifier result.gateId ++ u8 (outcomeTag result.kind) ++
    digest result.toolResultDigest ++ option digest result.candidateResultDigest ++
    option digest result.executionPlanDigest ++
    option identifier result.processId ++ u8 (retryTag result.retry) ++
    u8 (recoveryTag result.recovery) ++ sequence encodeArtifact result.artifacts

def encodeReceipt (receipt : GateEvidenceReceipt) : List UInt8 :=
  identifier receipt.publication.runId ++ identifier receipt.gateId ++
    encodeAttempt receipt.attempt ++ revision receipt.revision ++
    identifier receipt.resultEvent ++ u64 receipt.resultPosition ++
    digest receipt.publication.resultDigest ++
    sequence (fun required => digest required.digest)
      receipt.publication.required ++
    sequence encodeArtifact receipt.publication.qualityArtifacts ++
    digest receipt.publication.manifestDigest ++ digest receipt.receiptDigest ++
    sequence (fun item => digest item.requirementId.digest ++
      identifier item.evidenceId ++ digest item.recordDigest ++
      u64 item.journalPosition ++ identifier item.producingEvent) receipt.evidence

def encodeSlot (slot : GateSlot) : List UInt8 :=
  identifier slot.gateId ++ u8 (slotPhaseTag slot.phase) ++ u16 slot.attempts ++
    option encodeAttempt slot.active ++ option encodeResult slot.lastResult ++
    option identifier slot.resultEvent ++ option encodeReceipt slot.evidence ++
    option identifier slot.blockedBy

def stateBytes (state : GateRunState) : List UInt8 :=
  raw "peritus-d1-gate-state-v1\x00" ++ identifier state.runId ++
    digest state.planDigest ++ revision state.revision ++
    digest state.snapshotDigest ++ u16 state.maximumAttempts ++
    u8 (runPhaseTag state.phase) ++ u64 state.sequence.get ++
    identifier state.lastEventId ++ sequence encodeSlot state.slots ++
    sequence identifier state.usedExecutions ++
    sequence identifier state.usedActions ++
    option (fun terminal => u8 (terminalKindTag terminal.kind) ++
      digest terminal.digest ++ sequence identifier terminal.nonPassing)
      state.terminal

section Digests

variable (sha256 : List UInt8 → Sha256Digest)

def stateDigest (state : GateRunState) : Sha256Digest := sha256 (stateBytes state)

def terminalDigest (kind : GateTerminalKind) (nonPassing : List GateId)
    (prior : Sha256Digest) : Sha256Digest :=
  sha256 (raw "peritus-d1-gate-terminal-v1\x00" ++ u8 (terminalKindTag kind) ++
    digest prior ++ sequence identifier nonPassing)

end Digests

end Peritus.Gates.Canonical
