import Peritus.Encoding
import Peritus.Review.State

/-!
The canonical bytes of a review run and of the values its digests bind.
-/

namespace Peritus.Review.Canonical

open Peritus.Types Encoding Disposition State

/-! ### Tags -/

def severityTag : FindingSeverity → Nat
  | .advisory => 1
  | .low => 2
  | .medium => 3
  | .high => 4
  | .critical => 5

def dispositionTag : DispositionKind → Nat
  | .opened => 1
  | .fixed => 2
  | .disputed => 3
  | .supersessionProposed => 4
  | .waiverRequested => 5
  | .resolutionConfirmed => 6
  | .invalidationConfirmed => 7
  | .superseded => 8
  | .waived => 9

def runPhaseTag : ReviewRunPhase → Nat
  | .active => 1
  | .terminal => 2
  | .paused => 3

def terminalKindTag : ReviewTerminalKind → Nat
  | .completed => 1
  | .needsHuman => 2
  | .failed => 3
  | .cancelled => 4

def cyclePhaseTag : ReviewCyclePhase → Nat
  | .assigned => 1
  | .submitted => 2
  | .cancelled => 3
  | .invalidated => 4

def oscillationTag : OscillationKind → Nat
  | .repeatedFindingSet => 1
  | .severityStagnation => 2
  | .severityRegression => 3
  | .disagreement => 4
  | .reviewCyclesExhausted => 5

/-! ### Parts -/

def encodeLimits (limits : ReviewLimits) : List UInt8 :=
  u16 limits.cycles ++ u16 limits.assignments ++ u16 limits.submissions ++
    u32 limits.findings ++ u16 limits.categories ++ u16 limits.requirements ++
    u16 limits.locations ++ u16 limits.evidenceReferences ++
    u16 limits.provenanceSources ++ u16 limits.dispositionRecords ++
    u32 limits.pathBytes ++ u32 limits.textBytes ++ u32 limits.opaqueBytes ++
    u64 limits.payloadBytes ++ u64 limits.stateBytes

def encodeCategory (category : ReviewCategory) : List UInt8 :=
  digest category.digest

def encodeIndependence (view : ReviewIndependenceView) : List UInt8 :=
  bool view.distinctReviewers ++ bool view.independentFromProducer ++
    bool view.distinctContexts ++ bool view.distinctModelFamilies ++
    bool view.distinctProviders ++ bool view.noSharedAncestry ++
    bool view.freshContext

def encodeWaiverPolicy : WaiverPolicy → List UInt8
  | .forbidden => u8 1
  | .allowed authority evidence =>
      u8 2 ++ digest authority.digest ++ digest evidence.digest

def encodeBindingFields (binding : ReviewBinding) : List UInt8 :=
  identifier binding.contractId ++ digest binding.contractDigest ++
    revision binding.revision ++
    sequence encodeCategory binding.requiredCategories ++
    u16 binding.reviewerQuorum ++ encodeIndependence binding.independence ++
    u8 (severityTag binding.blockingSeverity) ++ u16 binding.maximumCycles ++
    encodeWaiverPolicy binding.waiverPolicy ++ digest binding.candidateDigest ++
    digest binding.treeDigest ++ sequence identifier binding.producerActors ++
    sequence digest binding.producerAncestries

def encodeBinding (binding : ReviewBinding) : List UInt8 :=
  encodeBindingFields binding ++ digest binding.digest

def encodeAssignment (assignment : ReviewAssignment) : List UInt8 :=
  identifier assignment.cycleId ++ u16 assignment.ordinal ++
    digest assignment.bindingDigest ++ revision assignment.revision ++
    identifier assignment.reviewer.actorId ++
    digest assignment.reviewer.provider ++
    digest assignment.reviewer.modelFamily ++
    digest assignment.reviewer.promptRevision ++
    digest assignment.reviewer.context ++ digest assignment.reviewer.ancestry ++
    bool assignment.reviewer.independentFromProducer ++
    sequence encodeCategory assignment.categories ++
    digest assignment.contextPlanId.digest ++ bool assignment.freshContext ++
    encodeIndependence assignment.independence

def encodeSource (source : FindingSource) : List UInt8 :=
  identifier source.cycleId ++ identifier source.reviewer

def encodeLocation (location : FindingLocation) : List UInt8 :=
  text location.path ++ u32 location.startLine ++ u32 location.startColumn ++
    u32 location.endLine ++ u32 location.endColumn

def encodeFindingBody (finding : Finding) : List UInt8 :=
  encodeCategory finding.category ++ u8 (severityTag finding.severity) ++
    bool finding.blocking ++
    sequence (fun required => digest required.digest) finding.requirements ++
    sequence encodeLocation finding.locations ++ text finding.description ++
    text finding.reproduction ++ text finding.expectedBehavior ++
    text finding.remediation

def encodeDisposition (record : DispositionRecord) : List UInt8 :=
  identifier record.eventId ++ u8 (dispositionTag record.kind) ++
    option identifier record.actor ++ option identifier record.reviewerCycle ++
    revision record.revision ++ sequence identifier record.evidence ++
    option identifier record.relatedFinding ++
    option identifier record.approvalRequestId ++
    option (fun authority => digest authority.digest) record.authority ++
    option (fun required => digest required.digest)
      record.evidenceRequirementId ++
    digest record.recordDigest

def encodeFinding (finding : Finding) : List UInt8 :=
  identifier finding.id ++ encodeSource finding.origin ++
    sequence encodeSource finding.sources ++ encodeFindingBody finding ++
    u16 finding.confidence ++ sequence identifier finding.evidence ++
    revision finding.revision ++ digest finding.normalizedDigest ++
    sequence encodeDisposition finding.dispositions ++
    option identifier finding.supersededBy

def encodeSubmission (submission : ReviewSubmission) : List UInt8 :=
  identifier submission.cycleId ++ revision submission.revision ++
    sequence encodeCategory submission.categories ++
    sequence encodeFinding submission.findings

def encodeCycle (cycle : ReviewCycle) : List UInt8 :=
  encodeAssignment cycle.assignment ++ u8 (cyclePhaseTag cycle.phase) ++
    option encodeSubmission cycle.submission

def encodeWaiver (waiver : ObservedWaiver) : List UInt8 :=
  identifier waiver.observation.findingId ++
    revision waiver.observation.revision ++
    identifier waiver.observation.approvalRequestId ++
    digest waiver.observation.authority.digest ++
    digest waiver.observation.evidenceRequirementId.digest ++
    digest waiver.observation.waiverDigest ++ digest waiver.requestDigest

def encodeQuorum (report : QuorumReport) : List UInt8 :=
  u16 report.submittedReviews ++
    sequence encodeCategory report.coveredCategories ++
    bool report.submittedReviewCount ++ bool report.requiredCategoryCoverage ++
    bool report.distinctReviewerIdentities ++ bool report.producerIndependence ++
    bool report.distinctContexts ++ bool report.distinctModelFamilies ++
    bool report.distinctProviders ++ bool report.noSharedAncestry ++
    bool report.freshContext

def encodeOscillation (report : OscillationReport) : List UInt8 :=
  sequence (fun kind => u8 (oscillationTag kind)) report.kinds ++
    u16 report.comparedBindings ++ u16 report.cyclesUsed

def encodeTerminalFields (terminal : ReviewTerminal) : List UInt8 :=
  u8 (terminalKindTag terminal.kind) ++
    sequence identifier terminal.unconservedFindings ++
    encodeQuorum terminal.quorum ++ encodeOscillation terminal.oscillation ++
    digest terminal.causeDigest

def encodeTerminal (terminal : ReviewTerminal) : List UInt8 :=
  encodeTerminalFields terminal ++ digest terminal.digest

/-! ### Digests -/

def zeroDigest : Sha256Digest := ⟨0, Sha256Digest.zero_bound⟩

section Digests

variable (sha256 : List UInt8 → Sha256Digest)

def bindingDigest (binding : ReviewBinding) : Sha256Digest :=
  sha256 (raw "peritus-d2-review-binding-v1\x00" ++ encodeBindingFields binding)

def findingDigest (finding : Finding) : Sha256Digest :=
  sha256 (raw "peritus-d2-finding-v1\x00" ++ encodeFindingBody finding)

def submissionDigest (submission : ReviewSubmission) : Sha256Digest :=
  sha256 (raw "peritus-d2-review-submission-v1\x00" ++
    encodeSubmission submission)

def terminalDigest (terminal : ReviewTerminal) : Sha256Digest :=
  sha256 (raw "peritus-d2-review-terminal-v1\x00" ++
    encodeTerminalFields terminal)

def stateDigest (state : ReviewRunState) : Sha256Digest :=
  sha256 (raw "peritus-d2-review-state-v1\x00" ++ identifier state.runId ++
    encodeLimits state.limits ++ encodeBinding state.binding ++
    u8 (runPhaseTag state.phase) ++ u64 state.sequence.get ++
    identifier state.lastEventId ++ sequence encodeCycle state.cycles ++
    sequence encodeFinding state.findings ++
    sequence encodeWaiver state.waivers ++ encodeQuorum state.quorum ++
    encodeOscillation state.oscillation ++
    sequence identifier state.usedCommands ++
    option encodeTerminal state.terminal)

end Digests

end Peritus.Review.Canonical
