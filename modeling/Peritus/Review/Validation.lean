import Peritus.Review.Canonical

/-!
What a binding, an assignment, a finding, a submission and a response are checked
for before they enter a run.
-/

namespace Peritus.Review.Validation

open Peritus.Types Checked SortedTable State Canonical

def maximumConfidence : Nat := 10000

section Validation

variable (sha256 : List UInt8 → Sha256Digest) (limits : ReviewLimits)

def validateBinding (binding : ReviewBinding) : Except ReviewError Unit := do
  ensure (decide (binding.contractId = binding.revision.acceptanceSpecId) &&
      !binding.requiredCategories.isEmpty &&
      decide (binding.requiredCategories.length ≤ limits.categories) &&
      decide (binding.reviewerQuorum ≠ 0) && decide (binding.maximumCycles ≠ 0) &&
      decide (binding.maximumCycles ≤ limits.cycles) &&
      decide (binding.maximumCycles ≤ limits.assignments))
    (reject .bindingMismatch
      "decoded review binding contains invalid policy bounds")
  canonical categoryKey binding.requiredCategories
    "binding categories are not canonical"
  canonicalNonempty OpaqueIdentifier.value binding.producerActors
    "producer actor identities are not canonical"
  canonicalNonempty Sha256Digest.value binding.producerAncestries
    "producer ancestry identities are not canonical"
  ensure (decide (bindingDigest sha256 binding = binding.digest))
    (reject .bindingMismatch "binding digest differs from its canonical fields")

/-- The categories of a validated binding are in ascending order, and their
search finds the members. -/
def validateCategories (binding : ReviewBinding)
    (categories : List ReviewCategory) : Except ReviewError Unit := do
  canonicalNonempty categoryKey categories
    "assignment categories are not canonical"
  ensure (categories.all fun category =>
      decide (category ∈ binding.requiredCategories))
    (reject .invalidInput
      "assignment contains a category absent from the contract")

def validateAssignment (assignment : ReviewAssignment) (binding : ReviewBinding) :
    Except ReviewError Unit := do
  ensure (decide (assignment.bindingDigest = binding.digest) &&
      decide (assignment.revision = binding.revision) &&
      decide (assignment.independence = binding.independence) &&
      decide (assignment.ordinal ≤ binding.maximumCycles) &&
      decide (assignment.ordinal ≤ limits.cycles) &&
      decide (assignment.categories.length ≤ limits.categories) &&
      decide (assignment.reviewer.context = assignment.contextPlanId.digest))
    (reject .bindingMismatch
      "assignment differs from the current review binding or limits")
  validateCategories binding assignment.categories

def validateEvidence (evidence : List EvidenceId) : Except ReviewError Unit := do
  ensure (!evidence.isEmpty &&
      decide (evidence.length ≤ limits.evidenceReferences))
    (reject .evidenceInvalid
      "evidence references are empty or exceed their limit")
  canonical OpaqueIdentifier.value evidence
    "evidence references are not canonical"

def validateResponse (response : FixerResponse) : Except ReviewError Unit :=
  match response with
  | .fixed _ _ evidence _ | .disputed _ _ evidence _
  | .supersessionProposed _ _ _ evidence _ => validateEvidence limits evidence
  | .waiverRequested .. => .ok ()

def validateDisposition (record : DispositionRecord) :
    Except ReviewError Unit :=
  match record.kind with
  | .opened | .waiverRequested | .superseded | .waived => do
      ensure (decide (record.evidence.length ≤ limits.evidenceReferences))
        (reject .limitExceeded "disposition evidence exceeds its limit")
      canonical OpaqueIdentifier.value record.evidence
        "disposition evidence is not canonical"
  | .fixed | .disputed | .supersessionProposed | .resolutionConfirmed
  | .invalidationConfirmed => validateEvidence limits record.evidence

/-- The components between the two separators. -/
def pathComponents (path : String) : List (List Char) :=
  path.toList.splitOnP fun c => decide (c = '/') || decide (c = '\\')

/-- The order of source coordinates: the line, and then the column. -/
def coordinateLe (line column line' column' : Nat) : Bool :=
  decide (line < line') || (decide (line = line') && decide (column ≤ column'))

def validateLocation (location : FindingLocation) : Except ReviewError Unit := do
  ensure (decide (location.path ≠ "") &&
      decide (location.path.utf8ByteSize ≤ limits.pathBytes))
    (reject .limitExceeded "finding path is empty or exceeds its byte limit")
  ensure (decide (location.path.toList.head? ≠ some '/') &&
      decide (location.path.toList.head? ≠ some '\\') &&
      decide (location.path.toUTF8.data.toList[1]? ≠ some 0x3a) &&
      (pathComponents location.path).all fun component =>
        !component.isEmpty && decide (component ≠ ['.']) &&
          decide (component ≠ ['.', '.']))
    (reject .invalidInput
      "finding path is not a normalized repository-relative path")
  ensure (decide (location.startLine ≠ 0) && decide (location.startColumn ≠ 0) &&
      decide (location.endLine ≠ 0) && decide (location.endColumn ≠ 0) &&
      coordinateLe location.startLine location.startColumn location.endLine
        location.endColumn)
    (reject .invalidInput "finding source range is zero or reversed")

/-- The order of locations: the path, the start and the end. -/
def locationLt (left right : FindingLocation) : Bool :=
  decide (left.path < right.path) || decide (left.path = right.path) &&
    (!coordinateLe right.startLine right.startColumn left.startLine
        left.startColumn ||
      (decide (left.startLine = right.startLine) &&
        decide (left.startColumn = right.startColumn) &&
        !coordinateLe right.endLine right.endColumn left.endLine left.endColumn))

def locationsCanonical (locations : List FindingLocation) :
    Except ReviewError Unit :=
  ensure (decide (locations.IsChain fun left right => locationLt left right = true))
    (reject .nonCanonical "finding locations are not canonical")

def validateText (value : String) : Except ReviewError Unit :=
  ensure (decide (value ≠ "") && decide (value.utf8ByteSize ≤ limits.textBytes))
    (reject .limitExceeded
      "required finding text is empty or exceeds its byte limit")

def validateFinding (finding : Finding) (blocking : FindingSeverity) :
    Except ReviewError Unit := do
  ensure (decide (finding.blocking =
        decide (blocking.rank ≤ finding.severity.rank)) &&
      decide (finding.confidence ≤ maximumConfidence) &&
      decide (finding.sources.length ≤ limits.provenanceSources) &&
      decide (finding.requirements.length ≤ limits.requirements) &&
      decide (finding.locations.length ≤ limits.locations) &&
      decide (finding.dispositions.length ≤ limits.dispositionRecords))
    (reject .limitExceeded
      "finding derived fields or collection bounds are invalid")
  canonicalNonempty sourceKey finding.sources "finding sources are not canonical"
  ensure (decide (finding.origin ∈ finding.sources))
    (reject .invalidInput "finding provenance omits its originating source")
  canonical (fun required => required.digest.value) finding.requirements
    "finding requirements are not canonical"
  locationsCanonical finding.locations
  validateEvidence limits finding.evidence
  forEach (validateLocation limits) finding.locations
  forEach (validateText limits) finding.texts
  forEach (fun record => do
    validateDisposition limits record
    ensure (decide (record.revision = finding.revision))
      (reject .bindingMismatch
        "finding disposition is bound to another revision")) finding.dispositions
  ensure (decide (findingDigest sha256 finding = finding.normalizedDigest))
    (reject .invalidInput
      "finding digest differs from its normalized semantic body")

def validateSubmission (submission : ReviewSubmission)
    (blocking : FindingSeverity) : Except ReviewError Unit := do
  ensure (!submission.categories.isEmpty &&
      decide (submission.categories.length ≤ limits.categories) &&
      decide (submission.findings.length ≤ limits.findings))
    (reject .limitExceeded
      "submission category or finding bounds are invalid")
  canonical categoryKey submission.categories
    "submission categories are not canonical"
  ensure (ascending Finding.id submission.findings)
    (reject .nonCanonical
      "submission findings are duplicated or not in identity order")
  forEach (fun finding => do
    validateFinding sha256 limits finding blocking
    ensure (decide (finding.revision = submission.revision) &&
        decide (finding.origin.cycleId = submission.cycleId) &&
        decide (finding.category ∈ submission.categories) &&
        decide (finding.sources = [finding.origin]) &&
        finding.dispositions.isEmpty && finding.supersededBy.isNone)
      (reject .bindingMismatch
        ("submission finding differs from its cycle/body or contains " ++
          "fabricated history"))) submission.findings
  ensure (decide (submissionDigest sha256 submission = submission.reviewDigest))
    (reject .invalidInput
      "review digest differs from the normalized submission")

end Validation

end Peritus.Review.Validation
