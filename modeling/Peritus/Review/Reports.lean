import Peritus.Review.State

/-!
The quorum and the oscillation of a run, recomputed from its cycles and findings,
and the estimates of its bytes.
-/

namespace Peritus.Review.Reports

open Peritus.Types State

def u16Max : Nat := 2 ^ 16 - 1

/-! ### Quorum -/

def countsTowardQuorum (binding : ReviewBinding) (cycle : ReviewCycle) : Bool :=
  decide (cycle.phase = .submitted) &&
    decide (cycle.assignment.bindingDigest = binding.digest) &&
    decide (cycle.assignment.revision = binding.revision) &&
    cycle.submission.isSome

def evaluateQuorum (binding : ReviewBinding) (cycles : List ReviewCycle) :
    QuorumReport :=
  let current := cycles.filter (countsTowardQuorum binding)
  let reviewers := current.map fun cycle => cycle.assignment.reviewer
  let categories := sortDedup categoryKey (current.flatMap fun cycle =>
    cycle.submission.toList.flatMap ReviewSubmission.categories)
  let view := binding.independence
  { submittedReviews := min current.length u16Max
    coveredCategories := categories
    submittedReviewCount :=
      decide (binding.reviewerQuorum ≤ min current.length u16Max)
    requiredCategoryCoverage := binding.requiredCategories.all fun required =>
      decide (required ∈ categories)
    distinctReviewerIdentities := !view.distinctReviewers ||
      decide (reviewers.map ReviewerIdentity.actorId).Nodup
    producerIndependence := !view.independentFromProducer ||
      reviewers.all fun reviewer => reviewer.independentFromProducer &&
        decide (reviewer.actorId ∉ binding.producerActors)
    distinctContexts := !view.distinctContexts ||
      decide (reviewers.map ReviewerIdentity.context).Nodup
    distinctModelFamilies := !view.distinctModelFamilies ||
      decide (reviewers.map ReviewerIdentity.modelFamily).Nodup
    distinctProviders := !view.distinctProviders ||
      decide (reviewers.map ReviewerIdentity.provider).Nodup
    noSharedAncestry := !view.noSharedAncestry ||
      (decide (reviewers.map ReviewerIdentity.ancestry).Nodup &&
        reviewers.all fun reviewer =>
          decide (reviewer.ancestry ∉ binding.producerAncestries))
    freshContext := !current.isEmpty && current.all fun cycle =>
      cycle.assignment.freshContext && decide
        (cycle.assignment.reviewer.context = cycle.assignment.contextPlanId.digest) }

/-! ### Oscillation -/

/-- The submissions of one binding: the digests of their findings and the
greatest severity among them. -/
structure BindingGroup where
  digest : Sha256Digest
  fingerprints : List Sha256Digest
  severity : Option FindingSeverity

def maxSeverity (left right : FindingSeverity) : FindingSeverity :=
  if left.rank ≤ right.rank then right else left

def BindingGroup.add (group : BindingGroup) (finding : Finding) : BindingGroup :=
  { group with
    fingerprints := group.fingerprints ++ [finding.normalizedDigest]
    severity := some ((group.severity.map fun severity =>
      maxSeverity severity finding.severity).getD finding.severity) }

/-- The groups with the submission of one more cycle, in the order in which the
bindings were first submitted for. -/
def addCycle (groups : List BindingGroup) (cycle : ReviewCycle) :
    List BindingGroup :=
  let digest := cycle.assignment.bindingDigest
  let known :=
    if groups.any fun group => decide (group.digest = digest) then groups
    else groups ++ [⟨digest, [], none⟩]
  let findings := cycle.submission.toList.flatMap ReviewSubmission.findings
  known.map fun group =>
    if group.digest = digest then findings.foldl BindingGroup.add group
    else group

def hasSubmission (cycle : ReviewCycle) : Bool :=
  (decide (cycle.phase = .submitted) || decide (cycle.phase = .invalidated)) &&
    cycle.submission.isSome

def bindingGroups (cycles : List ReviewCycle) : List BindingGroup :=
  ((cycles.filter hasSubmission).foldl addCycle []).map fun group =>
    { group with
      fingerprints := sortDedup Sha256Digest.value group.fingerprints }

/-- What the last two groups show. -/
def comparedKinds (groups : List BindingGroup) : List OscillationKind :=
  match groups.reverse with
  | current :: previous :: _ =>
      let repeated :=
        if !current.fingerprints.isEmpty &&
            decide (previous.fingerprints = current.fingerprints) then
          [OscillationKind.repeatedFindingSet]
        else []
      let severity :=
        match previous.severity, current.severity with
        | some before, some after =>
            if before.rank < after.rank then
              [OscillationKind.severityRegression]
            else if before.rank = after.rank then
              [OscillationKind.severityStagnation]
            else []
        | _, _ => []
      repeated ++ severity
  | _ => []

def oscillationRank : OscillationKind → Nat
  | .repeatedFindingSet => 0
  | .severityStagnation => 1
  | .severityRegression => 2
  | .disagreement => 3
  | .reviewCyclesExhausted => 4

def isDisputed (binding : ReviewBinding) (finding : Finding) : Bool :=
  decide (finding.revision = binding.revision) &&
    decide (finding.currentDisposition = .disputed)

def evaluateOscillation (binding : ReviewBinding) (cycles : List ReviewCycle)
    (findings : List Finding) (completionReady : Bool) : OscillationReport :=
  let groups := bindingGroups cycles
  let disagreement :=
    if findings.any (isDisputed binding) then [OscillationKind.disagreement]
    else []
  let cyclesUsed := min cycles.length u16Max
  let exhausted :=
    if !completionReady && decide (binding.maximumCycles ≤ cyclesUsed) then
      [OscillationKind.reviewCyclesExhausted]
    else []
  ⟨sortDedup oscillationRank (comparedKinds groups ++ disagreement ++ exhausted),
    min groups.length u16Max, cyclesUsed⟩

/-- Both reports, from the rest of the state. -/
def recompute (state : ReviewRunState) : ReviewRunState :=
  let assessed := { state with
    quorum := evaluateQuorum state.binding state.cycles }
  { assessed with
    oscillation := evaluateOscillation assessed.binding assessed.cycles
      assessed.findings assessed.completionReady }

/-! ### Estimates -/

def saturatingAdd (a b : Nat) : Nat := min (a + b) u64Max

def saturatingMul (a b : Nat) : Nat := min (a * b) u64Max

def saturatingSum (values : List Nat) (initial : Nat) : Nat :=
  values.foldl saturatingAdd initial

/-- The bytes of the texts and of the paths of a finding. -/
def textBytes (finding : Finding) : Nat :=
  saturatingSum (finding.texts.map String.utf8ByteSize) 0

def pathBytes (finding : Finding) : Nat :=
  saturatingSum (finding.locations.map fun location =>
    location.path.utf8ByteSize) 0

def findingBytes (finding : Finding) : Nat :=
  let texts := saturatingAdd (textBytes finding) (pathBytes finding)
  let evidence := saturatingAdd texts
    (saturatingMul finding.evidence.length 16)
  let requirements := saturatingAdd evidence
    (saturatingMul finding.requirements.length 32)
  let sources := saturatingAdd requirements
    (saturatingMul finding.sources.length 32)
  let dispositions := saturatingAdd sources
    (saturatingMul finding.dispositions.length 256)
  let records := saturatingAdd dispositions
    (saturatingSum (finding.dispositions.map fun record =>
      saturatingMul record.evidence.length 16) 0)
  saturatingAdd records 512

def estimatedEncodedBytes (state : ReviewRunState) : Nat :=
  let retained := saturatingSum (state.findings.map findingBytes) 0
  let submitted := saturatingSum (state.cycles.flatMap fun cycle =>
    cycle.submission.toList.flatMap fun submission =>
      submission.findings.map findingBytes) 0
  let findings := saturatingAdd (saturatingAdd 2048 retained) submitted
  let cycles := saturatingAdd findings (saturatingMul state.cycles.length 1024)
  let waivers := saturatingAdd cycles (saturatingMul state.waivers.length 256)
  saturatingAdd waivers (saturatingMul state.usedCommands.length 16)

end Peritus.Review.Reports
