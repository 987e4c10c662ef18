import Peritus.Review.Reports
import Peritus.Review.Validation

/-!
The commands of a review run, the events they become, and the two ways in: the
reducer and the replay of a list of events.
-/

namespace Peritus.Review.Reducer

open Peritus.Types Checked SortedTable Disposition State Canonical Validation Reports

/-! ### Commands and events -/

/-- A reviewer's confirmation of a pending response. -/
structure Confirmation where
  reviewerCycle : ReviewCycleId
  pendingResponseDigest : Sha256Digest
  evidence : List EvidenceId
  confirmationDigest : Sha256Digest
deriving DecidableEq

inductive ReviewCommandKind
  | startRun (binding : ReviewBinding) (limits : ReviewLimits)
  | advanceRevision (binding : ReviewBinding)
  | assignReviewer (assignment : ReviewAssignment)
  | submitReview (submission : ReviewSubmission)
  | reconcileDuplicates (canonical : FindingId) (duplicates : List FindingId)
      (reconciliationDigest : Sha256Digest)
  | recordFixerResponse (findingId : FindingId) (response : FixerResponse)
  | confirmResolution (findingId : FindingId) (confirmation : Confirmation)
  | confirmInvalidation (findingId : FindingId) (confirmation : Confirmation)
  | confirmSupersession (findingId : FindingId) (superseding : FindingId)
      (confirmation : Confirmation)
  | requestWaiver (findingId : FindingId) (request : FixerResponse)
  | observeWaiver (waiver : ObservedWaiver)
  | cancelCycle (cycleId : ReviewCycleId)
  | cancelRun
  | pauseRun
  | resumeRun
  | exhaustBudget (reasonDigest : Sha256Digest)
  | failRun (failureDigest : Sha256Digest)
  | finalizeRun
deriving DecidableEq

structure ReviewCommand where
  commandId : CommandId
  eventId : EventId
  runId : RunId
  expectedSequence : Nat
  expectedPreviousEvent : Option EventId
  priorStateDigest : Sha256Digest
  revision : RevisionTuple
  kind : ReviewCommandKind
  shape : expectedSequence = 0 ↔ expectedPreviousEvent = none

inductive ReviewEventKind
  | runStarted (binding : ReviewBinding) (limits : ReviewLimits)
  | revisionAdvanced (binding : ReviewBinding)
  | reviewerAssigned (assignment : ReviewAssignment)
  | reviewSubmitted (submission : ReviewSubmission)
  | duplicatesReconciled (canonical : FindingId) (duplicates : List FindingId)
      (reconciliationDigest : Sha256Digest)
  | fixerResponseRecorded (findingId : FindingId) (response : FixerResponse)
  | resolutionConfirmed (findingId : FindingId) (confirmation : Confirmation)
  | invalidationConfirmed (findingId : FindingId) (confirmation : Confirmation)
  | supersessionConfirmed (findingId : FindingId) (superseding : FindingId)
      (confirmation : Confirmation)
  | waiverRequested (findingId : FindingId) (request : FixerResponse)
  | waiverObserved (waiver : ObservedWaiver)
  | cycleCancelled (cycleId : ReviewCycleId)
  | runCancelled
  | runPaused
  | runResumed
  | budgetExhausted (reasonDigest : Sha256Digest)
  | runFailed (failureDigest : Sha256Digest)
  | runFinalized
deriving DecidableEq

structure ReviewEvent where
  id : EventId
  commandId : CommandId
  sequence : EventSequence
  previousEvent : Option EventId
  runId : RunId
  revision : RevisionTuple
  priorStateDigest : Sha256Digest
  successorStateDigest : Sha256Digest
  kind : ReviewEventKind
deriving DecidableEq

structure ReviewTransition where
  event : ReviewEvent
  state : ReviewRunState

def illegal (detail : String) : ReviewError := reject .illegalTransition detail

def replayError (detail : String) : ReviewError := reject .replayMismatch detail

/-! ### Lookups and updates -/

section State

variable (state : ReviewRunState)

def findingOf (findingId : FindingId) (detail : String) :
    Except ReviewError Finding :=
  match state.finding findingId with
  | some finding => .ok finding
  | none => .error (reject .unknownIdentity detail)

def cycleOf (cycleId : ReviewCycleId) (detail : String) :
    Except ReviewError ReviewCycle :=
  match state.cycle cycleId with
  | some cycle => .ok cycle
  | none => .error (reject .unknownIdentity detail)

/-- `finding_mut`, and then an update of the finding. -/
def updateFinding (findingId : FindingId) (detail : String)
    (update : Finding → Finding) : Except ReviewError ReviewRunState :=
  match lookupIndex Finding.id findingId state.findings with
  | some index =>
      .ok { state with findings := state.findings.modify index update }
  | none => .error (reject .unknownIdentity detail)

/-- `cycle_mut`, which takes the first cycle of the identity. -/
def updateCycle (cycleId : ReviewCycleId) (detail : String)
    (update : ReviewCycle → ReviewCycle) : Except ReviewError ReviewRunState :=
  match updateFirst (fun cycle => decide (cycle.id = cycleId)) update
    state.cycles with
  | some cycles => .ok { state with cycles }
  | none => .error (reject .unknownIdentity detail)

def insertFindings (findings : List Finding) : ReviewRunState :=
  { state with
    findings := (state.findings ++ findings).insertionSort
      fun left right => left.id ≤ right.id }

/-- The cycles of the binding that is left are invalidated. -/
def replaceBinding (binding : ReviewBinding) : ReviewRunState :=
  { state with
    cycles := state.cycles.map fun cycle =>
      if cycle.assignment.bindingDigest = state.binding.digest then
        { cycle with phase := .invalidated }
      else cycle
    binding := binding }

end State

abbrev Applied := ReviewRunState × ReviewEventKind

/-! ### Cycles -/

section Cycles

variable (sha256 : List UInt8 → Sha256Digest) (state : ReviewRunState)

def pause : Except ReviewError Applied := do
  ensure (decide (state.phase = .active))
    (illegal "only an active review run can pause")
  .ok ({ state with phase := .paused }, .runPaused)

def resume : Except ReviewError Applied := do
  ensure (decide (state.phase = .paused))
    (illegal "only a paused review run can resume")
  .ok ({ state with phase := .active }, .runResumed)

def advanceRevision (binding : ReviewBinding) : Except ReviewError Applied := do
  validateBinding sha256 state.limits binding
  let current := state.binding
  ensure (decide (binding.contractId = current.contractId) &&
      decide (binding.contractDigest = current.contractDigest) &&
      decide (binding.requiredCategories = current.requiredCategories) &&
      decide (binding.reviewerQuorum = current.reviewerQuorum) &&
      decide (binding.independence = current.independence) &&
      decide (binding.blockingSeverity = current.blockingSeverity) &&
      decide (binding.maximumCycles = current.maximumCycles) &&
      decide (binding.waiverPolicy = current.waiverPolicy) &&
      !binding.sameCandidate current)
    (reject .bindingMismatch
      ("new revision binding changes contract policy or does not change " ++
        "freshness"))
  .ok (replaceBinding state binding, .revisionAdvanced binding)

def assign (assignment : ReviewAssignment) : Except ReviewError Applied := do
  validateAssignment state.limits assignment state.binding
  ensure (decide (state.cycles.length < state.limits.assignments) &&
      decide (state.cycles.length < state.limits.cycles) &&
      decide (state.cycles.length < state.binding.maximumCycles) &&
      decide (assignment.ordinal = state.cycles.length + 1) &&
      (state.cycle assignment.cycleId).isNone)
    (reject .limitExceeded
      "assignment identity, ordinal, or cycle limit is exhausted")
  .ok ({ state with cycles := state.cycles ++ [⟨assignment, .assigned, none⟩] },
    .reviewerAssigned assignment)

/-- The record that opens an admitted finding. -/
def openRecord (eventId : EventId) (submission : ReviewSubmission)
    (reviewer : ActorId) (finding : Finding) : DispositionRecord :=
  ⟨eventId, .opened, some reviewer, some submission.cycleId, submission.revision,
    [], none, none, none, none, finding.normalizedDigest⟩

def submit (eventId : EventId) (submission : ReviewSubmission) :
    Except ReviewError Applied := do
  validateSubmission sha256 state.limits submission
    state.binding.blockingSeverity
  let cycle ← cycleOf state submission.cycleId "submission cycle is not assigned"
  ensure (state.cycleIsCurrent cycle && decide (cycle.phase = .assigned) &&
      decide (submission.revision = state.binding.revision) &&
      (submission.categories.all fun category =>
        decide (category ∈ cycle.assignment.categories)) &&
      submission.reviewerMatches cycle.assignment.reviewer)
    (reject .illegalTransition
      "submission is stale, repeated, or outside its assignment")
  let submissions := (state.cycles.filter fun cycle =>
    cycle.submission.isSome).length
  ensure (decide (submissions < state.limits.submissions) &&
      decide (state.findings.length + submission.findings.length ≤
        state.limits.findings) &&
      submission.findings.all fun finding => (state.finding finding.id).isNone)
    (reject .limitExceeded
      "submission/finding limit or stable finding identity is exhausted")
  let reviewer := cycle.assignment.reviewer.actorId
  let admitted := submission.findings.map fun finding =>
    finding.pushDisposition (openRecord eventId submission reviewer finding)
  let inserted := insertFindings state admitted
  let submitted ← updateCycle inserted submission.cycleId
    "submission cycle disappeared" fun cycle =>
      { cycle with submission := some submission, phase := .submitted }
  .ok (submitted, .reviewSubmitted submission)

def cancelCycle (cycleId : ReviewCycleId) : Except ReviewError Applied := do
  let cycle ← cycleOf state cycleId "cancelled cycle does not exist"
  ensure (state.cycleIsCurrent cycle && decide (cycle.phase = .assigned))
    (illegal "only an unsubmitted current cycle can be cancelled")
  let cancelled ← updateCycle state cycleId "cancelled cycle does not exist"
    fun cycle => { cycle with phase := .cancelled }
  .ok (cancelled, .cycleCancelled cycleId)

end Cycles

/-! ### The lifecycle of a finding -/

section Findings

variable (state : ReviewRunState) (eventId : EventId)

def validateWaiverRequest (response : FixerResponse) : Except ReviewError Unit :=
  match state.binding.waiverPolicy with
  | .forbidden =>
      .error (reject .waiverInvalid "contract forbids finding waivers")
  | .allowed authority evidence =>
      ensure (decide (response.authority = some authority) &&
          decide (response.evidenceRequirementId = some evidence) &&
          response.approvalRequestId.isSome &&
          (state.findings.flatMap Finding.dispositions).all fun record =>
            decide (record.approvalRequestId ≠ response.approvalRequestId))
        (reject .waiverInvalid
          "waiver request differs from contract authority or reuses an identity")

/-- The finding that a response proposes to be superseded by. -/
def validateProposal (findingId : FindingId) (finding : Finding) :
    Option FindingId → Except ReviewError Unit
  | none => .ok ()
  | some superseding => do
      let target ← findingOf state superseding
        "proposed superseding finding is absent"
      ensure (decide (superseding ≠ findingId) && state.findingIsCurrent target &&
          decide (target.category = finding.category) &&
          target.supersededBy.isNone)
        (reject .illegalTransition
          ("supersession proposal is self-referential, stale, or " ++
            "category-mismatched"))

def responseRecord (response : FixerResponse) : DispositionRecord :=
  ⟨eventId, response.kind, some response.actor, none, response.revision,
    response.evidence, response.superseding, response.approvalRequestId,
    response.authority, response.evidenceRequirementId, response.digest⟩

def recordResponse (findingId : FindingId) (response : FixerResponse)
    (waiverOnly : Bool) : Except ReviewError ReviewRunState := do
  validateResponse state.limits response
  ensure (decide (response.revision = state.binding.revision))
    (reject .bindingMismatch "fixer response is stale")
  let finding ← findingOf state findingId
    "fixer response finding does not exist"
  ensure (state.findingIsCurrent finding && finding.supersededBy.isNone &&
      decide (finding.currentDisposition = .opened) &&
      decide (waiverOnly = response.isWaiverRequested) &&
      (!waiverOnly || finding.blocking))
    (reject .illegalTransition
      ("fixer/request response is stale, contradictory, or not valid for this " ++
        "command"))
  validateProposal state findingId finding response.superseding
  if waiverOnly then validateWaiverRequest state response else .ok ()
  updateFinding state findingId "fixer response finding disappeared" fun finding =>
    finding.pushDisposition (responseRecord eventId response)

def lastRecord (finding : Finding) (error : ReviewError) :
    Except ReviewError DispositionRecord :=
  match finding.dispositions.getLast? with
  | some record => .ok record
  | none => .error error

def pendingActor (record : DispositionRecord) : Except ReviewError ActorId :=
  match record.actor with
  | some actor => .ok actor
  | none =>
      .error (reject .evidenceInvalid
        "pending fixer response lacks its actor identity")

def validateConfirmation (findingId : FindingId) (confirmation : Confirmation)
    (pendingKind : DispositionKind) (related : Option FindingId) :
    Except ReviewError ActorId := do
  validateEvidence state.limits confirmation.evidence
  let finding ← findingOf state findingId "confirmed finding does not exist"
  let pending ← lastRecord finding
    (reject .illegalTransition "finding has no pending response")
  let cycle ← cycleOf state confirmation.reviewerCycle
    "confirming reviewer cycle does not exist"
  let reviewer := cycle.assignment.reviewer
  let actor ← pendingActor pending
  ensure (state.findingIsCurrent finding && state.cycleIsCurrent cycle &&
      (decide (cycle.phase = .assigned) || decide (cycle.phase = .submitted)) &&
      decide (pending.kind = pendingKind) &&
      decide (pending.recordDigest = confirmation.pendingResponseDigest) &&
      decide (pending.relatedFinding = related) &&
      decide (pending.revision = state.binding.revision) &&
      decide (reviewer.actorId ≠ actor) && reviewer.independentFromProducer &&
      decide (reviewer.actorId ∉ state.binding.producerActors))
    (reject .evidenceInvalid
      ("reviewer confirmation is stale, contradictory, dependent, or " ++
        "mismatched"))
  .ok reviewer.actorId

def confirm (findingId : FindingId) (confirmation : Confirmation)
    (pendingKind confirmedKind : DispositionKind) :
    Except ReviewError ReviewRunState := do
  let actor ← validateConfirmation state findingId confirmation pendingKind none
  updateFinding state findingId "confirmed finding disappeared" fun finding =>
    finding.pushDisposition
      ⟨eventId, confirmedKind, some actor, some confirmation.reviewerCycle,
        state.binding.revision, confirmation.evidence, none, none, none, none,
        confirmation.confirmationDigest⟩

def requestOf (request : DispositionRecord) :
    Except ReviewError ApprovalRequestId :=
  match request.approvalRequestId with
  | some identity => .ok identity
  | none =>
      .error (reject .waiverInvalid "waiver request identity is missing")

def waiverTerms (policy : WaiverPolicy) (detail : String) :
    Except ReviewError (ContentReference × EvidenceRequirementId) :=
  match policy with
  | .allowed authority evidence => .ok (authority, evidence)
  | .forbidden => .error (reject .waiverInvalid detail)

def waiverMismatch : ReviewError :=
  reject .waiverInvalid
    ("external waiver does not exactly match current contract, request, and " ++
      "revision")

def observeWaiver (waiver : ObservedWaiver) : Except ReviewError Applied := do
  let observation := waiver.observation
  let finding ← findingOf state observation.findingId
    "waiver finding does not exist"
  let request ← lastRecord finding
    (reject .waiverInvalid "waiver finding has no pending request")
  let terms ← waiverTerms state.binding.waiverPolicy "contract forbids waivers"
  ensure (state.findingIsCurrent finding && finding.blocking &&
      decide (request.kind = .waiverRequested) &&
      decide (request.recordDigest = waiver.requestDigest) &&
      decide (observation.revision = state.binding.revision)) waiverMismatch
  let identity ← requestOf request
  ensure (decide (observation.approvalRequestId = identity) &&
      decide (observation.authority = terms.1) &&
      decide (request.authority = some terms.1) &&
      decide (observation.evidenceRequirementId = terms.2) &&
      decide (request.evidenceRequirementId = some terms.2) &&
      state.waivers.all fun existing =>
        !(decide (existing.observation.findingId = observation.findingId) &&
          decide (existing.observation.revision = observation.revision)))
    waiverMismatch
  ensure (decide (state.waivers.length < state.limits.findings))
    (reject .limitExceeded "waiver history limit exhausted")
  let waived ← updateFinding state observation.findingId
    "waiver finding disappeared" fun finding => finding.pushDisposition
      ⟨eventId, .waived, none, none, observation.revision, [], none,
        some observation.approvalRequestId, some observation.authority,
        some observation.evidenceRequirementId, observation.waiverDigest⟩
  .ok ({ waived with waivers := waived.waivers ++ [waiver] },
    .waiverObserved waiver)

/-! ### Reconciliation -/

def reconciliationRecord (kind : DispositionKind) (revision : RevisionTuple)
    (related : Option FindingId) (digest : Sha256Digest) : DispositionRecord :=
  ⟨eventId, kind, none, none, revision, [], related, none, none, none, digest⟩

/-- A duplicate can be answered by a finding of this category and revision. -/
def duplicateOf (category : ReviewCategory) (revision : RevisionTuple)
    (identity : FindingId) : Except ReviewError Finding := do
  let finding ← findingOf state identity "duplicate finding does not exist"
  ensure (state.findingIsCurrent finding && decide (finding.category = category) &&
      decide (finding.revision = revision) && finding.supersededBy.isNone &&
      decide (finding.currentDisposition = .opened))
    (reject .illegalTransition
      "duplicate finding is stale, conflicting, or no longer open")
  .ok finding

def duplicatesOf (category : ReviewCategory) (revision : RevisionTuple) :
    List FindingId → Except ReviewError (List Finding)
  | [] => .ok []
  | identity :: rest => do
      let finding ← duplicateOf state category revision identity
      let others ← duplicatesOf category revision rest
      .ok (finding :: others)

def mergeAll (canonical : FindingId) :
    ReviewRunState → List Finding → Except ReviewError ReviewRunState
  | state, [] => .ok state
  | state, snapshot :: rest => do
      let merged ← updateFinding state canonical "canonical finding disappeared"
        fun target => target.mergeSourcesAndEvidence snapshot
      mergeAll canonical merged rest

/-- A duplicate is closed, and names the finding that answers it. -/
def supersede (canonical : FindingId) (record : DispositionRecord)
    (finding : Finding) : Finding :=
  (finding.setSupersededBy canonical).pushDisposition record

def supersedeAll (canonical : FindingId) (record : DispositionRecord) :
    ReviewRunState → List FindingId → Except ReviewError ReviewRunState
  | state, [] => .ok state
  | state, duplicate :: rest => do
      let closed ← updateFinding state duplicate "duplicate finding disappeared"
        (supersede canonical record)
      supersedeAll canonical record closed rest

def reconcileDuplicates (canonicalId : FindingId) (duplicates : List FindingId)
    (reconciliationDigest : Sha256Digest) :
    Except ReviewError ReviewRunState := do
  canonicalNonempty OpaqueIdentifier.value duplicates
    "duplicate finding identities are not canonical"
  ensure (decide (canonicalId ∉ duplicates))
    (reject .identityConflict "a finding cannot be reconciled with itself")
  let target ← findingOf state canonicalId "canonical finding does not exist"
  ensure (state.findingIsCurrent target && target.supersededBy.isNone &&
      decide (target.currentDisposition = .opened))
    (reject .illegalTransition
      "canonical finding is stale, superseded, or no longer open")
  let snapshots ← duplicatesOf state target.category target.revision duplicates
  let sources := target.sources.length +
    (snapshots.map fun finding => finding.sources.length).sum
  let evidence := target.evidence.length +
    (snapshots.map fun finding => finding.evidence.length).sum
  let dispositions := target.dispositions.length + 1 +
    (snapshots.map fun finding => finding.dispositions.length).sum
  ensure (decide (sources ≤ state.limits.provenanceSources) &&
      decide (evidence ≤ state.limits.evidenceReferences) &&
      decide (dispositions ≤ state.limits.dispositionRecords))
    (reject .limitExceeded
      "reconciliation cannot retain complete provenance under current limits")
  let merged ← mergeAll canonicalId state snapshots
  let reopened ← updateFinding merged canonicalId "canonical finding disappeared"
    fun target => target.pushDisposition (reconciliationRecord eventId .opened
      target.revision none reconciliationDigest)
  supersedeAll canonicalId (reconciliationRecord eventId .superseded
    target.revision (some canonicalId) reconciliationDigest) reopened duplicates

def confirmSupersession (findingId superseding : FindingId)
    (confirmation : Confirmation) : Except ReviewError ReviewRunState := do
  ensure (decide (findingId ≠ superseding))
    (reject .identityConflict "a finding cannot supersede itself")
  let source ← findingOf state findingId "superseded finding does not exist"
  let target ← findingOf state superseding "superseding finding does not exist"
  ensure (state.findingIsCurrent source && state.findingIsCurrent target &&
      decide (source.revision = target.revision) &&
      decide (source.category = target.category) &&
      source.supersededBy.isNone && target.supersededBy.isNone &&
      decide (target.currentDisposition = .opened))
    (reject .illegalTransition
      "confirmed supersession is stale, conflicting, or category-mismatched")
  ensure (decide (target.sources.length + source.sources.length ≤
        state.limits.provenanceSources) &&
      decide (target.evidence.length + source.evidence.length ≤
        state.limits.evidenceReferences) &&
      decide (target.dispositions.length + source.dispositions.length + 1 ≤
        state.limits.dispositionRecords))
    (reject .limitExceeded
      ("confirmed supersession cannot retain complete provenance under current " ++
        "limits"))
  let merged ← updateFinding state superseding
    "superseding finding disappeared" fun target =>
      (target.mergeSourcesAndEvidence source).pushDisposition
        (reconciliationRecord eventId .opened source.revision (some findingId)
          confirmation.confirmationDigest)
  updateFinding merged findingId "superseded finding disappeared"
    (supersede superseding ⟨eventId, .superseded, none,
      some confirmation.reviewerCycle, source.revision, confirmation.evidence,
      some superseding, none, none, none, confirmation.confirmationDigest⟩)

end Findings

/-! ### Terminals and the dispatch -/

section Dispatch

variable (sha256 : List UInt8 → Sha256Digest) (state : ReviewRunState)

def makeTerminal (kind : ReviewTerminalKind) (cause : Sha256Digest) :
    ReviewTerminal :=
  let terminal : ReviewTerminal :=
    ⟨kind, state.unconservedCurrentFindings, state.quorum, state.oscillation,
      cause, zeroDigest⟩
  { terminal with digest := terminalDigest sha256 terminal }

def terminate (kind : ReviewTerminalKind) (cause : Sha256Digest) :
    ReviewRunState :=
  { state with
    terminal := some (makeTerminal sha256 state kind cause)
    phase := .terminal }

def finalize : Except ReviewError Applied :=
  if state.oscillation.triggered then
    .ok (terminate sha256 state .needsHuman zeroDigest, .runFinalized)
  else do
    ensure state.quorum.complete
      (reject .quorumIncomplete
        "all independent current review-quorum dimensions must pass")
    ensure state.unconservedCurrentFindings.isEmpty
      (reject .findingUnconserved
        "one or more current findings lack a permitted closure")
    .ok (terminate sha256 state .completed zeroDigest, .runFinalized)

def admittedWhilePaused : ReviewCommandKind → Bool
  | .resumeRun | .cancelRun | .exhaustBudget _ | .failRun _ => true
  | _ => false

/-- A command on findings, with the event that it becomes. -/
def withEvent (kind : ReviewEventKind)
    (applied : Except ReviewError ReviewRunState) :
    Except ReviewError Applied := do
  let next ← applied
  .ok (next, kind)

def dispatch (eventId : EventId) : ReviewCommandKind → Except ReviewError Applied
  | .startRun _ _ => .error (illegal "review run already started")
  | .advanceRevision binding => advanceRevision sha256 state binding
  | .assignReviewer assignment => assign state assignment
  | .submitReview submission => submit sha256 state eventId submission
  | .reconcileDuplicates canonical duplicates digest =>
      withEvent (.duplicatesReconciled canonical duplicates digest)
        (reconcileDuplicates state eventId canonical duplicates digest)
  | .recordFixerResponse findingId response =>
      withEvent (.fixerResponseRecorded findingId response)
        (recordResponse state eventId findingId response false)
  | .confirmResolution findingId confirmation =>
      withEvent (.resolutionConfirmed findingId confirmation)
        (confirm state eventId findingId confirmation .fixed .resolutionConfirmed)
  | .confirmInvalidation findingId confirmation =>
      withEvent (.invalidationConfirmed findingId confirmation)
        (confirm state eventId findingId confirmation .disputed
          .invalidationConfirmed)
  | .confirmSupersession findingId superseding confirmation => do
      let _ ← validateConfirmation state findingId confirmation
        .supersessionProposed (some superseding)
      withEvent (.supersessionConfirmed findingId superseding confirmation)
        (confirmSupersession state eventId findingId superseding confirmation)
  | .requestWaiver findingId request =>
      withEvent (.waiverRequested findingId request)
        (recordResponse state eventId findingId request true)
  | .observeWaiver waiver => observeWaiver state eventId waiver
  | .cancelCycle cycleId => cancelCycle state cycleId
  | .cancelRun =>
      .ok (terminate sha256 state .cancelled zeroDigest, .runCancelled)
  | .pauseRun => pause state
  | .resumeRun => resume state
  | .exhaustBudget reason =>
      .ok (terminate sha256 state .needsHuman reason, .budgetExhausted reason)
  | .failRun failure =>
      .ok (terminate sha256 state .failed failure, .runFailed failure)
  | .finalizeRun => finalize sha256 state

def apply (eventId : EventId) (command : ReviewCommandKind) :
    Except ReviewError Applied := do
  ensure (decide (state.phase ≠ .paused) || admittedWhilePaused command)
    (illegal "paused review run admits only resume or terminal control")
  dispatch sha256 state eventId command

end Dispatch

/-! ### The reducer and the replay -/

section Reducer

variable (sha256 : List UInt8 → Sha256Digest)

def bindingPayload (base : Nat) (binding : ReviewBinding) : Nat :=
  saturatingAdd (saturatingAdd (saturatingAdd base
    (saturatingMul binding.requiredCategories.length 32))
    (saturatingMul binding.producerActors.length 16))
    (saturatingMul binding.producerAncestries.length 32)

def findingPayload (total : Nat) (finding : Finding) : Nat :=
  saturatingAdd (saturatingAdd (saturatingAdd (saturatingAdd total
    (textBytes finding)) (pathBytes finding))
    (saturatingMul finding.evidence.length 16)) 512

def estimatedPayloadBytes : ReviewCommandKind → Nat
  | .startRun binding _ | .advanceRevision binding => bindingPayload 512 binding
  | .assignReviewer assignment =>
      saturatingAdd 512 (saturatingMul assignment.categories.length 32)
  | .submitReview submission => submission.findings.foldl findingPayload 512
  | .reconcileDuplicates _ duplicates _ =>
      saturatingAdd 512 (saturatingMul duplicates.length 16)
  | .recordFixerResponse _ response | .requestWaiver _ response =>
      saturatingAdd 512 (saturatingMul response.evidence.length 16)
  | .confirmResolution _ confirmation | .confirmInvalidation _ confirmation
  | .confirmSupersession _ _ confirmation =>
      saturatingAdd 512 (saturatingMul confirmation.evidence.length 16)
  | .observeWaiver _ | .cancelCycle _ | .cancelRun | .pauseRun | .resumeRun
  | .exhaustBudget _ | .failRun _ | .finalizeRun => 512

def genesis (binding : ReviewBinding) (limits : ReviewLimits) (runId : RunId)
    (eventId : EventId) (commandId : CommandId) : ReviewRunState where
  runId := runId
  limits := limits
  binding := binding
  phase := .active
  sequence := .first
  lastEventId := eventId
  stateDigest := zeroDigest
  cycles := []
  findings := []
  waivers := []
  quorum := evaluateQuorum binding []
  oscillation := evaluateOscillation binding [] [] false
  usedCommands := [commandId]
  terminal := none

/-- The state with its digest taken over its bytes. -/
def sealState (state : ReviewRunState) : ReviewRunState :=
  { state with stateDigest := stateDigest sha256 state }

def start (command : ReviewCommand) : Except ReviewError ReviewTransition :=
  match command.kind with
  | .startRun binding limits => do
      validateBinding sha256 limits binding
      ensure (decide (estimatedPayloadBytes command.kind ≤ limits.payloadBytes))
        (reject .limitExceeded
          "genesis command exceeds its immutable payload-byte limit")
      ensure (decide (command.revision = binding.revision) &&
          decide (command.expectedSequence = 0) &&
          command.expectedPreviousEvent.isNone &&
          decide (command.priorStateDigest = zeroDigest))
        (reject .bindingMismatch
          "genesis command differs from its exact binding or genesis fences")
      let state := genesis binding limits command.runId command.eventId
        command.commandId
      ensure (decide (estimatedEncodedBytes state ≤ limits.stateBytes))
        (reject .limitExceeded
          "genesis state exceeds its immutable state-byte limit")
      let started := sealState sha256 state
      let event : ReviewEvent :=
        { id := command.eventId
          commandId := command.commandId
          sequence := .first
          previousEvent := none
          runId := command.runId
          revision := command.revision
          priorStateDigest := zeroDigest
          successorStateDigest := started.stateDigest
          kind := .runStarted binding limits }
      .ok ⟨event, started⟩
  | _ => .error (illegal "genesis command is not StartRun")

def ReviewCommandKind.isStart : ReviewCommandKind → Bool
  | .startRun _ _ => true
  | _ => false

def maximumCommands : Nat := 65535

def validateFences (state : ReviewRunState) (command : ReviewCommand) :
    Except ReviewError Unit := do
  ensure (decide (state.phase ≠ .terminal))
    (illegal "review aggregate is terminal and fenced closed")
  ensure (decide (state.usedCommands.length < maximumCommands))
    (reject .limitExceeded
      "review command history reached the canonical collection limit")
  ensure (decide (state.runId = command.runId) &&
      decide (state.binding.revision = command.revision) &&
      decide (state.sequence.get = command.expectedSequence) &&
      decide (command.expectedPreviousEvent = some state.lastEventId) &&
      decide (command.priorStateDigest = state.stateDigest) &&
      decide (command.commandId ∉ state.usedCommands) &&
      !ReviewCommandKind.isStart command.kind)
    (reject .staleFence
      ("command run, revision, predecessor, state, identity, or lifecycle " ++
        "fence differs"))

def nextSequence (state : ReviewRunState) : Except ReviewError EventSequence :=
  state.sequence.checkedNext.mapError fun _ =>
    reject .limitExceeded "review event sequence overflowed"

/-- The cursor of the successor, and its digest. -/
def advance (state : ReviewRunState) (sequence : EventSequence)
    (eventId : EventId) (commandId : CommandId) : ReviewRunState :=
  sealState sha256 { state with
    sequence
    lastEventId := eventId
    stateDigest := zeroDigest
    usedCommands := state.usedCommands ++ [commandId] }

def decideCommand (state : ReviewRunState) (command : ReviewCommand) :
    Except ReviewError ReviewTransition := do
  validateFences state command
  ensure (decide (estimatedPayloadBytes command.kind ≤ state.limits.payloadBytes))
    (reject .limitExceeded
      "review command exceeds its immutable payload-byte limit")
  let sequence ← nextSequence state
  let applied ← apply sha256 state command.eventId command.kind
  let assessed := recompute applied.1
  ensure (decide (estimatedEncodedBytes assessed ≤ assessed.limits.stateBytes))
    (reject .limitExceeded
      "successor state exceeds its immutable state-byte limit")
  let successor := advance sha256 assessed sequence command.eventId
    command.commandId
  let event : ReviewEvent :=
    { id := command.eventId
      commandId := command.commandId
      sequence := sequence
      previousEvent := some state.lastEventId
      runId := command.runId
      revision := command.revision
      priorStateDigest := state.stateDigest
      successorStateDigest := successor.stateDigest
      kind := applied.2 }
  .ok ⟨event, successor⟩

def commandKind : ReviewEventKind → ReviewCommandKind
  | .runStarted binding limits => .startRun binding limits
  | .revisionAdvanced binding => .advanceRevision binding
  | .reviewerAssigned assignment => .assignReviewer assignment
  | .reviewSubmitted submission => .submitReview submission
  | .duplicatesReconciled canonical duplicates digest =>
      .reconcileDuplicates canonical duplicates digest
  | .fixerResponseRecorded findingId response =>
      .recordFixerResponse findingId response
  | .resolutionConfirmed findingId confirmation =>
      .confirmResolution findingId confirmation
  | .invalidationConfirmed findingId confirmation =>
      .confirmInvalidation findingId confirmation
  | .supersessionConfirmed findingId superseding confirmation =>
      .confirmSupersession findingId superseding confirmation
  | .waiverRequested findingId request => .requestWaiver findingId request
  | .waiverObserved waiver => .observeWaiver waiver
  | .cycleCancelled cycleId => .cancelCycle cycleId
  | .runCancelled => .cancelRun
  | .runPaused => .pauseRun
  | .runResumed => .resumeRun
  | .budgetExhausted reason => .exhaustBudget reason
  | .runFailed failure => .failRun failure
  | .runFinalized => .finalizeRun

def commandFromEvent (event : ReviewEvent) (expectedSequence : Nat)
    (previous : Option EventId) : Except ReviewError ReviewCommand :=
  if h : expectedSequence = 0 ↔ previous = none then
    .ok ⟨event.commandId, event.id, event.runId, expectedSequence, previous,
      event.priorStateDigest, event.revision, commandKind event.kind, h⟩
  else
    .error (reject .staleFence "command predecessor shape is inconsistent")

def replayEvents (state : ReviewRunState) (ids : List EventId)
    (commands : List CommandId) : List ReviewEvent →
      Except ReviewError ReviewRunState
  | [] => .ok state
  | event :: rest => do
      ensure (decide (event.id ∉ ids) && decide (event.commandId ∉ commands))
        (replayError "review event or command identity is duplicated")
      let command ← commandFromEvent event state.sequence.get
        (some state.lastEventId)
      let found ← decideCommand sha256 state command
      ensure (decide (found.event = event))
        (replayError "review event differs from deterministic reduction")
      replayEvents found.state (event.id :: ids) (event.commandId :: commands)
        rest

def replay (events : List ReviewEvent) : Except ReviewError ReviewRunState :=
  match events with
  | [] => .error (reject .replayMismatch "review replay is empty")
  | first :: rest => do
      let command ← commandFromEvent first 0 none
      let found ← start sha256 command
      ensure (decide (found.event = first))
        (replayError "genesis review event differs from deterministic reduction")
      replayEvents sha256 found.state [first.id] [first.commandId] rest

end Reducer

end Peritus.Review.Reducer
