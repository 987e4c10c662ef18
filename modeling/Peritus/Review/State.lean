import Peritus.Checked
import Peritus.Review.Disposition
import Peritus.SortedTable
import Peritus.Types

/-!
One review run: the binding it reviews, the cycles of its reviewers, the findings
they admit with the history of their dispositions, and the replayable state.
-/

namespace Peritus.Review.State

open Peritus.Types Checked SortedTable Disposition

abbrev ApprovalRequestId := OpaqueIdentifier

structure ReviewCategory where
  digest : Sha256Digest
deriving DecidableEq

structure RequirementId where
  digest : Sha256Digest
deriving DecidableEq

structure EvidenceRequirementId where
  digest : Sha256Digest
deriving DecidableEq

structure ContentReference where
  digest : Sha256Digest
deriving DecidableEq

structure ContextPlanId where
  digest : Sha256Digest
deriving DecidableEq

/-! ### Rejections -/

inductive ReviewErrorKind
  | bindingMismatch
  | invalidLimit
  | limitExceeded
  | invalidInput
  | nonCanonical
  | identityConflict
  | staleFence
  | illegalTransition
  | unknownIdentity
  | evidenceInvalid
  | waiverInvalid
  | quorumIncomplete
  | findingUnconserved
  | oscillation
  | replayMismatch
  | codec
  | journal
  | evidence
deriving DecidableEq

inductive ReviewRecoveryAction
  | correctInput
  | replayAggregate
  | continueReview
  | requestAuthority
  | needsHuman
  | quarantine
deriving DecidableEq

structure ReviewError where
  kind : ReviewErrorKind
  recovery : ReviewRecoveryAction
  detail : String
deriving DecidableEq

def reject (kind : ReviewErrorKind) (detail : String) : ReviewError :=
  let recovery :=
    match kind with
    | .waiverInvalid => .requestAuthority
    | .oscillation => .needsHuman
    | .quorumIncomplete | .findingUnconserved => .continueReview
    | .bindingMismatch | .invalidLimit | .limitExceeded | .invalidInput
    | .nonCanonical | .identityConflict | .illegalTransition | .unknownIdentity
    | .evidenceInvalid => .correctInput
    | .staleFence | .replayMismatch | .codec | .journal | .evidence => .quarantine
  ⟨kind, recovery, detail⟩

def canonical {α : Type} (key : α → Nat) (values : List α) (detail : String) :
    Except ReviewError Unit :=
  ensure (ascending key values) (reject .nonCanonical detail)

def canonicalNonempty {α : Type} (key : α → Nat) (values : List α)
    (detail : String) : Except ReviewError Unit := do
  ensure (!values.isEmpty) (reject .invalidInput detail)
  canonical key values detail

/-- `sort_unstable` and then `dedup`. -/
def sortDedup {α : Type} [DecidableEq α] (key : α → Nat) (values : List α) :
    List α :=
  (values.insertionSort fun a b => key a ≤ key b).dedup

/-! ### Limits -/

@[ext]
structure ReviewLimits where
  cycles : Nat
  assignments : Nat
  submissions : Nat
  findings : Nat
  categories : Nat
  requirements : Nat
  locations : Nat
  evidenceReferences : Nat
  provenanceSources : Nat
  dispositionRecords : Nat
  pathBytes : Nat
  textBytes : Nat
  opaqueBytes : Nat
  payloadBytes : Nat
  stateBytes : Nat
  ofCycles : 0 < cycles ∧ cycles ≤ 1024
  ofAssignments : 0 < assignments ∧ assignments ≤ 1024
  ofSubmissions : 0 < submissions ∧ submissions ≤ 1024
  ofFindings : 0 < findings ∧ findings ≤ 65535
  ofCategories : 0 < categories ∧ categories ≤ 256
  ofRequirements : 0 < requirements ∧ requirements ≤ 1024
  ofLocations : 0 < locations ∧ locations ≤ 1024
  ofEvidenceReferences : 0 < evidenceReferences ∧ evidenceReferences ≤ 4096
  ofProvenanceSources : 0 < provenanceSources ∧ provenanceSources ≤ 1024
  ofDispositionRecords : 0 < dispositionRecords ∧ dispositionRecords ≤ 4096
  ofPathBytes : 0 < pathBytes ∧ pathBytes ≤ 4096
  ofTextBytes : 0 < textBytes ∧ textBytes ≤ 262144
  ofOpaqueBytes : 0 < opaqueBytes ∧ opaqueBytes ≤ 1048576
  ofPayloadBytes : 0 < payloadBytes ∧ payloadBytes ≤ 16 * 1048576 - 16
  ofStateBytes : 0 < stateBytes ∧ stateBytes ≤ 16 * 1048576 - 16

instance : DecidableEq ReviewLimits := fun _ _ =>
  decidable_of_iff _ ReviewLimits.ext_iff.symm

/-! ### The binding -/

inductive FindingSeverity
  | advisory
  | low
  | medium
  | high
  | critical
deriving DecidableEq

def FindingSeverity.rank : FindingSeverity → Nat
  | .advisory => 0
  | .low => 1
  | .medium => 2
  | .high => 3
  | .critical => 4

inductive WaiverPolicy
  | forbidden
  | allowed (authority : ContentReference) (evidence : EvidenceRequirementId)
deriving DecidableEq

structure ReviewIndependenceView where
  distinctReviewers : Bool
  independentFromProducer : Bool
  distinctContexts : Bool
  distinctModelFamilies : Bool
  distinctProviders : Bool
  noSharedAncestry : Bool
  freshContext : Bool
deriving DecidableEq

structure ReviewBinding where
  contractId : AcceptanceSpecId
  contractDigest : Sha256Digest
  revision : RevisionTuple
  requiredCategories : List ReviewCategory
  reviewerQuorum : Nat
  independence : ReviewIndependenceView
  blockingSeverity : FindingSeverity
  maximumCycles : Nat
  waiverPolicy : WaiverPolicy
  candidateDigest : Sha256Digest
  treeDigest : Sha256Digest
  producerActors : List ActorId
  producerAncestries : List Sha256Digest
  digest : Sha256Digest
deriving DecidableEq

def ReviewBinding.sameCandidate (binding other : ReviewBinding) : Bool :=
  decide (binding.revision = other.revision) &&
    decide (binding.candidateDigest = other.candidateDigest) &&
    decide (binding.treeDigest = other.treeDigest)

def categoryKey (category : ReviewCategory) : Nat := category.digest.value

/-! ### Reviewers -/

structure ReviewerIdentity where
  actorId : ActorId
  provider : Sha256Digest
  modelFamily : Sha256Digest
  promptRevision : Sha256Digest
  context : Sha256Digest
  ancestry : Sha256Digest
  independentFromProducer : Bool
deriving DecidableEq

structure ReviewAssignment where
  cycleId : ReviewCycleId
  ordinal : Nat
  bindingDigest : Sha256Digest
  revision : RevisionTuple
  reviewer : ReviewerIdentity
  categories : List ReviewCategory
  contextPlanId : ContextPlanId
  freshContext : Bool
  independence : ReviewIndependenceView
deriving DecidableEq

/-! ### Dispositions -/

inductive FixerResponse
  | fixed (fixer : ActorId) (revision : RevisionTuple) (evidence : List EvidenceId)
      (responseDigest : Sha256Digest)
  | disputed (fixer : ActorId) (revision : RevisionTuple)
      (evidence : List EvidenceId) (responseDigest : Sha256Digest)
  | supersessionProposed (fixer : ActorId) (revision : RevisionTuple)
      (superseding : FindingId) (evidence : List EvidenceId)
      (responseDigest : Sha256Digest)
  | waiverRequested (requester : ActorId) (revision : RevisionTuple)
      (approvalRequestId : ApprovalRequestId) (authority : ContentReference)
      (evidenceRequirementId : EvidenceRequirementId)
      (requestDigest : Sha256Digest)
deriving DecidableEq

namespace FixerResponse

def actor : FixerResponse → ActorId
  | .fixed fixer _ _ _ | .disputed fixer _ _ _
  | .supersessionProposed fixer _ _ _ _ => fixer
  | .waiverRequested requester _ _ _ _ _ => requester

def revision : FixerResponse → RevisionTuple
  | .fixed _ revision _ _ | .disputed _ revision _ _
  | .supersessionProposed _ revision _ _ _
  | .waiverRequested _ revision _ _ _ _ => revision

def evidence : FixerResponse → List EvidenceId
  | .fixed _ _ evidence _ | .disputed _ _ evidence _
  | .supersessionProposed _ _ _ evidence _ => evidence
  | .waiverRequested .. => []

def digest : FixerResponse → Sha256Digest
  | .fixed _ _ _ digest | .disputed _ _ _ digest
  | .supersessionProposed _ _ _ _ digest
  | .waiverRequested _ _ _ _ _ digest => digest

def superseding : FixerResponse → Option FindingId
  | .supersessionProposed _ _ superseding _ _ => some superseding
  | _ => none

def approvalRequestId : FixerResponse → Option ApprovalRequestId
  | .waiverRequested _ _ request _ _ _ => some request
  | _ => none

def authority : FixerResponse → Option ContentReference
  | .waiverRequested _ _ _ authority _ _ => some authority
  | _ => none

def evidenceRequirementId : FixerResponse → Option EvidenceRequirementId
  | .waiverRequested _ _ _ _ requirement _ => some requirement
  | _ => none

def isWaiverRequested : FixerResponse → Bool
  | .waiverRequested .. => true
  | _ => false

/-- The disposition that a response records. -/
def kind : FixerResponse → DispositionKind
  | .fixed .. => .fixed
  | .disputed .. => .disputed
  | .supersessionProposed .. => .supersessionProposed
  | .waiverRequested .. => .waiverRequested

end FixerResponse

structure DispositionRecord where
  eventId : EventId
  kind : DispositionKind
  actor : Option ActorId
  reviewerCycle : Option ReviewCycleId
  revision : RevisionTuple
  evidence : List EvidenceId
  relatedFinding : Option FindingId
  approvalRequestId : Option ApprovalRequestId
  authority : Option ContentReference
  evidenceRequirementId : Option EvidenceRequirementId
  recordDigest : Sha256Digest
deriving DecidableEq

/-! ### Findings -/

structure FindingSource where
  cycleId : ReviewCycleId
  reviewer : ActorId
deriving DecidableEq

/-- The bytes of both identities, one after the other. -/
def sourceKey (source : FindingSource) : Nat :=
  source.cycleId.value * 256 ^ 16 + source.reviewer.value

structure FindingLocation where
  path : String
  startLine : Nat
  startColumn : Nat
  endLine : Nat
  endColumn : Nat
deriving DecidableEq

structure Finding where
  id : FindingId
  origin : FindingSource
  sources : List FindingSource
  category : ReviewCategory
  severity : FindingSeverity
  blocking : Bool
  confidence : Nat
  requirements : List RequirementId
  locations : List FindingLocation
  evidence : List EvidenceId
  description : String
  reproduction : String
  expectedBehavior : String
  remediation : String
  revision : RevisionTuple
  normalizedDigest : Sha256Digest
  dispositions : List DispositionRecord
  supersededBy : Option FindingId
deriving DecidableEq

namespace Finding

variable (finding : Finding)

def texts : List String :=
  [finding.description, finding.reproduction, finding.expectedBehavior,
    finding.remediation]

def currentDisposition : DispositionKind :=
  (finding.dispositions.getLast?.map DispositionRecord.kind).getD .opened

def isConserved : Bool :=
  match finding.currentDisposition with
  | .resolutionConfirmed | .invalidationConfirmed | .superseded | .waived => true
  | _ => false

def pushDisposition (record : DispositionRecord) : Finding :=
  { finding with dispositions := finding.dispositions ++ [record] }

def setSupersededBy (canonical : FindingId) : Finding :=
  { finding with supersededBy := some canonical }

def mergeSourcesAndEvidence (source : Finding) : Finding :=
  { finding with
    sources := sortDedup sourceKey (finding.sources ++ source.sources)
    evidence :=
      sortDedup OpaqueIdentifier.value (finding.evidence ++ source.evidence)
    dispositions := finding.dispositions ++ source.dispositions }

end Finding

structure ReviewSubmission where
  cycleId : ReviewCycleId
  revision : RevisionTuple
  categories : List ReviewCategory
  findings : List Finding
  reviewDigest : Sha256Digest
deriving DecidableEq

def ReviewSubmission.reviewerMatches (submission : ReviewSubmission)
    (reviewer : ReviewerIdentity) : Bool :=
  submission.findings.all fun finding =>
    decide (finding.origin.reviewer = reviewer.actorId)

/-! ### Cycles and waivers -/

inductive ReviewCyclePhase
  | assigned
  | submitted
  | cancelled
  | invalidated
deriving DecidableEq

structure ReviewCycle where
  assignment : ReviewAssignment
  phase : ReviewCyclePhase
  submission : Option ReviewSubmission
deriving DecidableEq

def ReviewCycle.id (cycle : ReviewCycle) : ReviewCycleId :=
  cycle.assignment.cycleId

structure WaiverObservation where
  findingId : FindingId
  revision : RevisionTuple
  approvalRequestId : ApprovalRequestId
  authority : ContentReference
  evidenceRequirementId : EvidenceRequirementId
  waiverDigest : Sha256Digest
deriving DecidableEq

structure ObservedWaiver where
  observation : WaiverObservation
  requestDigest : Sha256Digest
deriving DecidableEq

/-! ### Reports and terminals -/

structure QuorumReport where
  submittedReviews : Nat
  coveredCategories : List ReviewCategory
  submittedReviewCount : Bool
  requiredCategoryCoverage : Bool
  distinctReviewerIdentities : Bool
  producerIndependence : Bool
  distinctContexts : Bool
  distinctModelFamilies : Bool
  distinctProviders : Bool
  noSharedAncestry : Bool
  freshContext : Bool
deriving DecidableEq

def QuorumReport.complete (report : QuorumReport) : Bool :=
  report.submittedReviewCount && report.requiredCategoryCoverage &&
    report.distinctReviewerIdentities && report.producerIndependence &&
    report.distinctContexts && report.distinctModelFamilies &&
    report.distinctProviders && report.noSharedAncestry && report.freshContext

inductive OscillationKind
  | repeatedFindingSet
  | severityStagnation
  | severityRegression
  | disagreement
  | reviewCyclesExhausted
deriving DecidableEq

structure OscillationReport where
  kinds : List OscillationKind
  comparedBindings : Nat
  cyclesUsed : Nat
deriving DecidableEq

def OscillationReport.triggered (report : OscillationReport) : Bool :=
  !report.kinds.isEmpty

inductive ReviewTerminalKind
  | completed
  | needsHuman
  | failed
  | cancelled
deriving DecidableEq

structure ReviewTerminal where
  kind : ReviewTerminalKind
  unconservedFindings : List FindingId
  quorum : QuorumReport
  oscillation : OscillationReport
  causeDigest : Sha256Digest
  digest : Sha256Digest
deriving DecidableEq

/-! ### The run -/

inductive ReviewRunPhase
  | active
  | terminal
  | paused
deriving DecidableEq

structure ReviewRunState where
  runId : RunId
  limits : ReviewLimits
  binding : ReviewBinding
  phase : ReviewRunPhase
  sequence : EventSequence
  lastEventId : EventId
  stateDigest : Sha256Digest
  cycles : List ReviewCycle
  findings : List Finding
  waivers : List ObservedWaiver
  quorum : QuorumReport
  oscillation : OscillationReport
  usedCommands : List CommandId
  terminal : Option ReviewTerminal
deriving DecidableEq

namespace ReviewRunState

variable (state : ReviewRunState)

def cycle (cycleId : ReviewCycleId) : Option ReviewCycle :=
  state.cycles.find? fun cycle => decide (cycle.id = cycleId)

/-- The findings are in the order of their identities. -/
def finding (findingId : FindingId) : Option Finding :=
  lookup Finding.id findingId state.findings

def cycleIsCurrent (cycle : ReviewCycle) : Bool :=
  decide (cycle.assignment.bindingDigest = state.binding.digest) &&
    decide (cycle.assignment.revision = state.binding.revision)

def findingIsCurrent (finding : Finding) : Bool :=
  decide (finding.revision = state.binding.revision) &&
    (state.cycle finding.origin.cycleId).any fun cycle =>
      decide (cycle.assignment.bindingDigest = state.binding.digest)

def unconservedCurrentFindings : List FindingId :=
  (state.findings.filter fun finding =>
    state.findingIsCurrent finding && !finding.isConserved).map Finding.id

def completionReady : Bool :=
  state.quorum.complete && state.unconservedCurrentFindings.isEmpty

end ReviewRunState

end Peritus.Review.State
