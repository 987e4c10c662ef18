import Peritus.Codec.Revision
import Peritus.Review.Reducer

/-!
The command, event and checkpoint frames of a review run as they are written,
and the exact canonical size of every record that the commit path measures.
-/

namespace Peritus.Review.Wire

open Peritus.Types Codec.Revision State Canonical Reducer
open Codec.Writer hiding canonical

/-! ### Bindings and reviewers -/

def writeLimits (value : ReviewLimits) : Payload :=
  writeU16 value.cycles ++ writeU16 value.assignments
    ++ writeU16 value.submissions ++ writeU32 value.findings
    ++ writeU16 value.categories ++ writeU16 value.requirements
    ++ writeU16 value.locations ++ writeU16 value.evidenceReferences
    ++ writeU16 value.provenanceSources ++ writeU16 value.dispositionRecords
    ++ writeU32 value.pathBytes ++ writeU32 value.textBytes
    ++ writeU32 value.opaqueBytes ++ writeU64 value.payloadBytes
    ++ writeU64 value.stateBytes

def writeIndependence (value : ReviewIndependenceView) : Payload :=
  writeBool value.distinctReviewers ++ writeBool value.independentFromProducer
    ++ writeBool value.distinctContexts ++ writeBool value.distinctModelFamilies
    ++ writeBool value.distinctProviders ++ writeBool value.noSharedAncestry
    ++ writeBool value.freshContext

def writeCategory (value : ReviewCategory) : Payload := writeDigest value.digest

def writeWaiverPolicy : WaiverPolicy → Payload
  | .forbidden => writeU8 1
  | .allowed authority evidence =>
      writeU8 2 ++ writeDigest authority.digest ++ writeDigest evidence.digest

def writeBinding (value : ReviewBinding) : Payload :=
  writeId value.contractId ++ writeDigest value.contractDigest
    ++ writeRevision value.revision
    ++ writeList value.requiredCategories writeCategory
    ++ writeU16 value.reviewerQuorum ++ writeIndependence value.independence
    ++ writeU8 (severityTag value.blockingSeverity)
    ++ writeU16 value.maximumCycles ++ writeWaiverPolicy value.waiverPolicy
    ++ writeDigest value.candidateDigest ++ writeDigest value.treeDigest
    ++ writeList value.producerActors writeId
    ++ writeList value.producerAncestries writeDigest ++ writeDigest value.digest

def writeReviewer (value : ReviewerIdentity) : Payload :=
  writeId value.actorId ++ writeDigest value.provider
    ++ writeDigest value.modelFamily ++ writeDigest value.promptRevision
    ++ writeDigest value.context ++ writeDigest value.ancestry
    ++ writeBool value.independentFromProducer

def writeAssignment (value : ReviewAssignment) : Payload :=
  writeId value.cycleId ++ writeU16 value.ordinal
    ++ writeDigest value.bindingDigest ++ writeRevision value.revision
    ++ writeReviewer value.reviewer ++ writeList value.categories writeCategory
    ++ writeDigest value.contextPlanId.digest ++ writeBool value.freshContext
    ++ writeIndependence value.independence

/-! ### Findings -/

def writeEvidence (values : List EvidenceId) : Payload := writeList values writeId

def writeSource (value : FindingSource) : Payload :=
  writeId value.cycleId ++ writeId value.reviewer

def writeLocation (value : FindingLocation) : Payload :=
  writeStr value.path ++ writeU32 value.startLine ++ writeU32 value.startColumn
    ++ writeU32 value.endLine ++ writeU32 value.endColumn

def writeDisposition (value : DispositionRecord) : Payload :=
  writeId value.eventId ++ writeU8 (dispositionTag value.kind)
    ++ writeOption value.actor writeId ++ writeOption value.reviewerCycle writeId
    ++ writeRevision value.revision ++ writeEvidence value.evidence
    ++ writeOption value.relatedFinding writeId
    ++ writeOption value.approvalRequestId writeId
    ++ writeOption value.authority (fun authority => writeDigest authority.digest)
    ++ writeOption value.evidenceRequirementId (fun requirement =>
      writeDigest requirement.digest)
    ++ writeDigest value.recordDigest

def writeFinding (value : Finding) : Payload :=
  writeId value.id ++ writeSource value.origin
    ++ writeList value.sources writeSource ++ writeCategory value.category
    ++ writeU8 (severityTag value.severity) ++ writeBool value.blocking
    ++ writeU16 value.confidence
    ++ writeList value.requirements (fun requirement =>
      writeDigest requirement.digest)
    ++ writeList value.locations writeLocation ++ writeEvidence value.evidence
    ++ writeStr value.description ++ writeStr value.reproduction
    ++ writeStr value.expectedBehavior ++ writeStr value.remediation
    ++ writeRevision value.revision ++ writeDigest value.normalizedDigest
    ++ writeList value.dispositions writeDisposition
    ++ writeOption value.supersededBy writeId

def writeSubmission (value : ReviewSubmission) : Payload :=
  writeId value.cycleId ++ writeRevision value.revision
    ++ writeList value.categories writeCategory
    ++ writeList value.findings writeFinding ++ writeDigest value.reviewDigest

def writeCycle (value : ReviewCycle) : Payload :=
  writeAssignment value.assignment ++ writeU8 (cyclePhaseTag value.phase)
    ++ writeOption value.submission writeSubmission

def writeFixer : FixerResponse → Payload
  | .fixed fixer revision evidence responseDigest =>
      writeU8 1 ++ writeId fixer ++ writeRevision revision
        ++ writeEvidence evidence ++ writeDigest responseDigest
  | .disputed fixer revision evidence responseDigest =>
      writeU8 2 ++ writeId fixer ++ writeRevision revision
        ++ writeEvidence evidence ++ writeDigest responseDigest
  | .supersessionProposed fixer revision superseding evidence responseDigest =>
      writeU8 3 ++ writeId fixer ++ writeRevision revision
        ++ writeId superseding ++ writeEvidence evidence
        ++ writeDigest responseDigest
  | .waiverRequested requester revision approvalRequestId authority
      evidenceRequirementId requestDigest =>
      writeU8 4 ++ writeId requester ++ writeRevision revision
        ++ writeId approvalRequestId ++ writeDigest authority.digest
        ++ writeDigest evidenceRequirementId.digest ++ writeDigest requestDigest

def writeWaiver (value : ObservedWaiver) : Payload :=
  writeId value.observation.findingId ++ writeRevision value.observation.revision
    ++ writeId value.observation.approvalRequestId
    ++ writeDigest value.observation.authority.digest
    ++ writeDigest value.observation.evidenceRequirementId.digest
    ++ writeDigest value.observation.waiverDigest
    ++ writeDigest value.requestDigest

/-! ### The checkpoint -/

def writeQuorum (value : QuorumReport) : Payload :=
  writeU16 value.submittedReviews
    ++ writeList value.coveredCategories writeCategory
    ++ writeBool value.submittedReviewCount
    ++ writeBool value.requiredCategoryCoverage
    ++ writeBool value.distinctReviewerIdentities
    ++ writeBool value.producerIndependence ++ writeBool value.distinctContexts
    ++ writeBool value.distinctModelFamilies ++ writeBool value.distinctProviders
    ++ writeBool value.noSharedAncestry ++ writeBool value.freshContext

def writeOscillation (value : OscillationReport) : Payload :=
  writeList value.kinds (fun kind => writeU8 (oscillationTag kind))
    ++ writeU16 value.comparedBindings ++ writeU16 value.cyclesUsed

def writeTerminal (value : ReviewTerminal) : Payload :=
  writeU8 (terminalKindTag value.kind)
    ++ writeList value.unconservedFindings writeId ++ writeQuorum value.quorum
    ++ writeOscillation value.oscillation ++ writeDigest value.causeDigest
    ++ writeDigest value.digest

/-- The payload of the family-55 checkpoint. -/
def writeState (state : ReviewRunState) : Payload :=
  writeId state.runId ++ writeLimits state.limits ++ writeBinding state.binding
    ++ writeU8 (runPhaseTag state.phase) ++ writeU64 state.sequence.get
    ++ writeId state.lastEventId ++ writeDigest state.stateDigest
    ++ writeList state.cycles writeCycle ++ writeList state.findings writeFinding
    ++ writeList state.waivers writeWaiver ++ writeQuorum state.quorum
    ++ writeOscillation state.oscillation ++ writeList state.usedCommands writeId
    ++ writeOption state.terminal writeTerminal

/-! ### Commands and events -/

/-- A confirmation, with the superseding finding if there is one. -/
def writeConfirmation (findingId : FindingId) (superseding : Option FindingId)
    (confirmation : Confirmation) : Payload :=
  writeId findingId ++ (superseding.map writeId).getD []
    ++ writeId confirmation.reviewerCycle
    ++ writeDigest confirmation.pendingResponseDigest
    ++ writeEvidence confirmation.evidence
    ++ writeDigest confirmation.confirmationDigest

def writeKind : ReviewCommandKind → Payload
  | .startRun binding limits =>
      writeU8 1 ++ writeBinding binding ++ writeLimits limits
  | .advanceRevision binding => writeU8 2 ++ writeBinding binding
  | .assignReviewer assignment => writeU8 3 ++ writeAssignment assignment
  | .submitReview submission => writeU8 4 ++ writeSubmission submission
  | .reconcileDuplicates canonical duplicates reconciliationDigest =>
      writeU8 5 ++ writeId canonical ++ writeList duplicates writeId
        ++ writeDigest reconciliationDigest
  | .recordFixerResponse findingId response =>
      writeU8 6 ++ writeId findingId ++ writeFixer response
  | .confirmResolution findingId confirmation =>
      writeU8 7 ++ writeConfirmation findingId none confirmation
  | .confirmInvalidation findingId confirmation =>
      writeU8 8 ++ writeConfirmation findingId none confirmation
  | .confirmSupersession findingId superseding confirmation =>
      writeU8 9 ++ writeConfirmation findingId (some superseding) confirmation
  | .requestWaiver findingId request =>
      writeU8 10 ++ writeId findingId ++ writeFixer request
  | .observeWaiver waiver => writeU8 11 ++ writeWaiver waiver
  | .cancelCycle cycleId => writeU8 12 ++ writeId cycleId
  | .cancelRun => writeU8 13
  | .exhaustBudget reasonDigest => writeU8 14 ++ writeDigest reasonDigest
  | .failRun failureDigest => writeU8 15 ++ writeDigest failureDigest
  | .finalizeRun => writeU8 16
  | .pauseRun => writeU8 17
  | .resumeRun => writeU8 18

/-- The payload of the family-53 command. -/
def writeCommand (command : ReviewCommand) : Payload :=
  writeId command.commandId ++ writeId command.eventId ++ writeId command.runId
    ++ writeU64 command.expectedSequence
    ++ writeOption command.expectedPreviousEvent writeId
    ++ writeDigest command.priorStateDigest ++ writeRevision command.revision
    ++ writeKind command.kind

/-- An event is written under the tags and with the fields of its command. -/
def writeEventKind (kind : ReviewEventKind) : Payload :=
  writeKind (commandKind kind)

/-- The payload of the family-54 event. -/
def writeEvent (event : ReviewEvent) : Payload :=
  writeId event.id ++ writeId event.commandId ++ writeU64 event.sequence.get
    ++ writeOption event.previousEvent writeId ++ writeId event.runId
    ++ writeRevision event.revision ++ writeDigest event.priorStateDigest
    ++ writeDigest event.successorStateDigest ++ writeEventKind event.kind

/-! ### Sizes of bindings and reviewers -/

def waiverPolicySize : WaiverPolicy → Nat
  | .forbidden => 0
  | .allowed _ _ => 64

def bindingSize (value : ReviewBinding) : Nat :=
  265 + waiverPolicySize value.waiverPolicy
    + 32 * value.requiredCategories.length + 16 * value.producerActors.length
    + 32 * value.producerAncestries.length

def assignmentSize (value : ReviewAssignment) : Nat :=
  367 + 32 * value.categories.length

@[simp] theorem size_writeLimits (value : ReviewLimits) :
    size (writeLimits value) = 50 := by
  simp [writeLimits]

@[simp] theorem size_writeIndependence (value : ReviewIndependenceView) :
    size (writeIndependence value) = 7 := by
  simp [writeIndependence]

@[simp] theorem size_writeCategory (value : ReviewCategory) :
    size (writeCategory value) = 32 :=
  size_writeDigest value.digest

@[simp] theorem size_writeWaiverPolicy (value : WaiverPolicy) :
    size (writeWaiverPolicy value) = 1 + waiverPolicySize value := by
  cases value <;> simp [writeWaiverPolicy, waiverPolicySize]

@[simp] theorem size_writeBinding (value : ReviewBinding) :
    size (writeBinding value) = bindingSize value := by
  simp only [writeBinding, bindingSize, size_append, size_writeId,
    size_writeDigest, size_writeRevision, size_writeU16, size_writeU8,
    size_writeIndependence, size_writeWaiverPolicy,
    size_writeList_of_forall size_writeCategory,
    size_writeList_of_forall size_writeId,
    size_writeList_of_forall size_writeDigest]
  omega

@[simp] theorem size_writeReviewer (value : ReviewerIdentity) :
    size (writeReviewer value) = 177 := by
  simp [writeReviewer]

@[simp] theorem size_writeAssignment (value : ReviewAssignment) :
    size (writeAssignment value) = assignmentSize value := by
  simp only [writeAssignment, assignmentSize, size_append, size_writeId,
    size_writeU16, size_writeDigest, size_writeRevision, size_writeReviewer,
    size_writeList_of_forall size_writeCategory, size_writeBool,
    size_writeIndependence]
  omega

/-! ### Sizes of findings -/

def locationSize (value : FindingLocation) : Nat :=
  20 + value.path.utf8ByteSize

def dispositionSize (value : DispositionRecord) : Nat :=
  155 + present value.actor 16 + present value.reviewerCycle 16
    + 16 * value.evidence.length + present value.relatedFinding 16
    + present value.approvalRequestId 16 + present value.authority 32
    + present value.evidenceRequirementId 32

def findingSize (value : Finding) : Nat :=
  249 + 32 * value.sources.length + 32 * value.requirements.length
    + (value.locations.map locationSize).sum + 16 * value.evidence.length
    + (value.texts.map String.utf8ByteSize).sum
    + (value.dispositions.map dispositionSize).sum
    + present value.supersededBy 16

def submissionSize (value : ReviewSubmission) : Nat :=
  152 + 32 * value.categories.length + (value.findings.map findingSize).sum

def cycleSize (value : ReviewCycle) : Nat :=
  assignmentSize value.assignment + 2
    + (value.submission.map submissionSize).getD 0

def fixerSize : FixerResponse → Nat
  | .fixed _ _ evidence _ | .disputed _ _ evidence _ =>
      149 + 16 * evidence.length
  | .supersessionProposed _ _ _ evidence _ => 165 + 16 * evidence.length
  | .waiverRequested .. => 225

@[simp] theorem size_writeEvidence (values : List EvidenceId) :
    size (writeEvidence values) = 4 + 16 * values.length :=
  size_writeList_of_forall size_writeId values

@[simp] theorem size_writeSource (value : FindingSource) :
    size (writeSource value) = 32 := by
  simp [writeSource]

theorem size_writeLocation (value : FindingLocation) :
    size (writeLocation value) = locationSize value := by
  simp only [writeLocation, locationSize, size_append, size_writeStr,
    size_writeU32]
  omega

theorem size_writeDisposition (value : DispositionRecord) :
    size (writeDisposition value) = dispositionSize value := by
  simp only [writeDisposition, dispositionSize, size_append, size_writeId,
    size_writeU8, size_writeOption_of_forall size_writeId, size_writeRevision,
    size_writeEvidence, size_writeDigest,
    size_writeOption_of_forall fun authority : ContentReference =>
      size_writeDigest authority.digest,
    size_writeOption_of_forall fun requirement : EvidenceRequirementId =>
      size_writeDigest requirement.digest]
  omega

theorem size_writeFinding (value : Finding) :
    size (writeFinding value) = findingSize value := by
  simp only [writeFinding, findingSize, Finding.texts, size_append,
    size_writeId, size_writeSource, size_writeList_of_forall size_writeSource,
    size_writeCategory, size_writeU8, size_writeBool, size_writeU16,
    size_writeList_of_forall fun requirement : RequirementId =>
      size_writeDigest requirement.digest,
    size_writeList size_writeLocation, size_writeEvidence, size_writeStr,
    size_writeRevision, size_writeDigest, size_writeList size_writeDisposition,
    size_writeOption_of_forall size_writeId, List.map_cons, List.map_nil,
    List.sum_cons, List.sum_nil]
  omega

@[simp] theorem size_writeSubmission (value : ReviewSubmission) :
    size (writeSubmission value) = submissionSize value := by
  simp only [writeSubmission, submissionSize, size_append, size_writeId,
    size_writeRevision, size_writeList_of_forall size_writeCategory,
    size_writeList size_writeFinding, size_writeDigest]
  omega

theorem size_writeCycle (value : ReviewCycle) :
    size (writeCycle value) = cycleSize value := by
  simp only [writeCycle, cycleSize, size_append, size_writeAssignment,
    size_writeU8, size_writeOption size_writeSubmission]
  omega

@[simp] theorem size_writeFixer (value : FixerResponse) :
    size (writeFixer value) = fixerSize value := by
  cases value <;>
    simp only [writeFixer, fixerSize, size_append, size_writeU8, size_writeId,
      size_writeRevision, size_writeEvidence, size_writeDigest] <;>
    omega

@[simp] theorem size_writeWaiver (value : ObservedWaiver) :
    size (writeWaiver value) = 256 := by
  simp [writeWaiver]

/-! ### The size of the checkpoint -/

def quorumSize (value : QuorumReport) : Nat :=
  15 + 32 * value.coveredCategories.length

def oscillationSize (value : OscillationReport) : Nat := 8 + value.kinds.length

def terminalSize (value : ReviewTerminal) : Nat :=
  69 + 16 * value.unconservedFindings.length + quorumSize value.quorum
    + oscillationSize value.oscillation

/-- The size of a checkpoint, record by record. -/
def checkpointSize (state : ReviewRunState) : Nat :=
  140 + bindingSize state.binding + (state.cycles.map cycleSize).sum
    + (state.findings.map findingSize).sum + 256 * state.waivers.length
    + quorumSize state.quorum + oscillationSize state.oscillation
    + 16 * state.usedCommands.length
    + (state.terminal.map terminalSize).getD 0

theorem size_writeQuorum (value : QuorumReport) :
    size (writeQuorum value) = quorumSize value := by
  simp only [writeQuorum, quorumSize, size_append, size_writeU16,
    size_writeList_of_forall size_writeCategory, size_writeBool]
  omega

theorem size_writeOscillation (value : OscillationReport) :
    size (writeOscillation value) = oscillationSize value := by
  simp only [writeOscillation, oscillationSize, size_append, size_writeU16,
    size_writeList_of_forall fun kind => size_writeU8 (oscillationTag kind)]
  omega

theorem size_writeTerminal (value : ReviewTerminal) :
    size (writeTerminal value) = terminalSize value := by
  simp only [writeTerminal, terminalSize, size_append, size_writeU8,
    size_writeList_of_forall size_writeId, size_writeQuorum,
    size_writeOscillation, size_writeDigest]
  omega

theorem size_writeState (state : ReviewRunState) :
    size (writeState state) = checkpointSize state := by
  simp only [writeState, checkpointSize, size_append, size_writeId,
    size_writeLimits, size_writeBinding, size_writeU8, size_writeU64,
    size_writeDigest, size_writeList size_writeCycle,
    size_writeList size_writeFinding, size_writeList_of_forall size_writeWaiver,
    size_writeQuorum, size_writeOscillation,
    size_writeList_of_forall size_writeId, size_writeOption size_writeTerminal]
  omega

/-! ### Sizes of commands and events -/

def kindSize : ReviewCommandKind → Nat
  | .startRun binding _ => 51 + bindingSize binding
  | .advanceRevision binding => 1 + bindingSize binding
  | .assignReviewer assignment => 1 + assignmentSize assignment
  | .submitReview submission => 1 + submissionSize submission
  | .reconcileDuplicates _ duplicates _ => 53 + 16 * duplicates.length
  | .recordFixerResponse _ response | .requestWaiver _ response =>
      17 + fixerSize response
  | .confirmResolution _ confirmation | .confirmInvalidation _ confirmation =>
      101 + 16 * confirmation.evidence.length
  | .confirmSupersession _ _ confirmation =>
      117 + 16 * confirmation.evidence.length
  | .observeWaiver _ => 257
  | .cancelCycle _ => 17
  | .exhaustBudget _ | .failRun _ => 33
  | .cancelRun | .finalizeRun | .pauseRun | .resumeRun => 1

theorem size_writeConfirmation (findingId : FindingId)
    (superseding : Option FindingId) (confirmation : Confirmation) :
    size (writeConfirmation findingId superseding confirmation) =
      100 + present superseding 16 + 16 * confirmation.evidence.length := by
  cases superseding <;>
    simp only [writeConfirmation, Option.map_none, Option.map_some,
      Option.getD_none, Option.getD_some, List.append_nil, size_append,
      size_writeId, size_writeDigest, size_writeEvidence, present_none,
      present_some] <;>
    omega

theorem size_writeKind (kind : ReviewCommandKind) :
    size (writeKind kind) = kindSize kind := by
  cases kind with
  | startRun binding limits =>
      simp only [writeKind, kindSize, size_append, size_writeU8,
        size_writeBinding, size_writeLimits]
      omega
  | reconcileDuplicates canonical duplicates digest =>
      simp only [writeKind, kindSize, size_append, size_writeU8, size_writeId,
        size_writeList_of_forall size_writeId, size_writeDigest]
      omega
  | confirmResolution | confirmInvalidation | confirmSupersession =>
      simp only [writeKind, kindSize, size_append, size_writeU8,
        size_writeConfirmation, present_none, present_some]
      omega
  | _ =>
      simp only [writeKind, kindSize, size_append, size_writeU8, size_writeId,
        size_writeDigest, size_writeBinding, size_writeAssignment,
        size_writeSubmission, size_writeFixer, size_writeWaiver]

theorem size_writeCommand (command : ReviewCommand) :
    size (writeCommand command) =
      185 + present command.expectedPreviousEvent 16
        + kindSize command.kind := by
  simp only [writeCommand, size_append, size_writeId, size_writeU64,
    size_writeOption_of_forall size_writeId, size_writeDigest,
    size_writeRevision, size_writeKind]
  omega

theorem size_writeEvent (event : ReviewEvent) :
    size (writeEvent event) =
      217 + present event.previousEvent 16
        + kindSize (commandKind event.kind) := by
  simp only [writeEvent, writeEventKind, size_append, size_writeId,
    size_writeU64, size_writeOption_of_forall size_writeId, size_writeDigest,
    size_writeRevision, size_writeKind]
  omega

end Peritus.Review.Wire
