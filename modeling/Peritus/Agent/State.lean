import Peritus.Checked
import Peritus.Policy
import Peritus.SortedTable

/-!
One agent turn: its phases, its limits and counters, the records its commands
carry, the slots of a tool batch, and the replayable state.
-/

namespace Peritus.Agent.State

open Peritus.Types Checked SortedTable
open Policy (ActorRole AuthorityInstant)

/-! ### Phases -/

inductive ActivePhase
  | preparingContext
  | requestingModel
  | streamingResponse
  | proposedToolCalls
  | awaitingAuthorization
  | executingTools
  | recordingResults
  | proposedCompletion
deriving DecidableEq

inductive TerminalKind
  | completed
  | failed
  | cancelled
deriving DecidableEq

inductive AgentPhase
  | active (phase : ActivePhase)
  | paused
  | cancelling
  | terminal (kind : TerminalKind)
deriving DecidableEq

def AgentPhase.isTerminal : AgentPhase → Bool
  | .terminal _ => true
  | _ => false

def AgentPhase.tag : AgentPhase → Nat
  | .active .preparingContext => 0
  | .active .requestingModel => 1
  | .active .streamingResponse => 2
  | .active .proposedToolCalls => 3
  | .active .awaitingAuthorization => 4
  | .active .executingTools => 5
  | .active .recordingResults => 6
  | .active .proposedCompletion => 7
  | .paused => 8
  | .cancelling => 9
  | .terminal .completed => 10
  | .terminal .failed => 11
  | .terminal .cancelled => 12

theorem AgentPhase.tag_injective : Function.Injective AgentPhase.tag := by
  rintro (_ | _ | _ | _) (_ | _ | _ | _) h <;> first
    | rfl
    | (rename_i left right; cases left <;> cases right <;> first
        | rfl
        | cases h)
    | (rename_i left; cases left <;> cases h)
    | cases h

/-! ### Rejections -/

inductive AgentErrorCode
  | invalidBinding
  | invalidLimit
  | invalidText
  | nonCanonicalOrder
  | revisionMismatch
  | causalMismatch
  | illegalPhase
  | invalidCommand
  | invalidTool
  | invalidProgress
  | limitExceeded
  | arithmeticOverflow
  | completionIneligible
  | replayMismatch
deriving DecidableEq

inductive AgentOperation
  | validateBinding
  | validateLimits
  | validateCompletion
  | validateTools
  | reduce
  | replay
deriving DecidableEq

inductive AgentRecovery
  | correctRequest
  | retrySameCommand
  | resumeProvider
  | reconcileTool
  | restartTurn
  | exhausted
  | terminal
deriving DecidableEq

structure AgentRejection where
  code : AgentErrorCode
  operation : AgentOperation
  recovery : AgentRecovery
  detail : String
  turnId : Option TurnId
  phase : Option AgentPhase
deriving DecidableEq

def AgentRejection.new (code : AgentErrorCode) (operation : AgentOperation)
    (recovery : AgentRecovery) (detail : String) : AgentRejection :=
  ⟨code, operation, recovery, detail, none, none⟩

def AgentRejection.at (rejection : AgentRejection) (turnId : TurnId)
    (phase : AgentPhase) : AgentRejection :=
  { rejection with turnId := some turnId, phase := some phase }

/-! ### Limits and counters -/

inductive AgentLimitDimension
  | toolCalls
  | providerEvents
  | contextCycles
  | outputBytes
  | toolResultBytes
  | concurrentToolCalls
  | transitions
deriving DecidableEq

def AgentLimitDimension.tag : AgentLimitDimension → Nat
  | .toolCalls => 0
  | .providerEvents => 1
  | .contextCycles => 2
  | .outputBytes => 3
  | .toolResultBytes => 4
  | .concurrentToolCalls => 5
  | .transitions => 6

structure AgentLimits where
  maxToolCalls : Nat
  maxProviderEvents : Nat
  maxContextCycles : Nat
  maxOutputBytes : Nat
  maxToolResultBytes : Nat
  maxConcurrentToolCalls : Nat
  maxTransitions : Nat
  toolCalls : 0 < maxToolCalls ∧ maxToolCalls ≤ 256
  providerEvents : 0 < maxProviderEvents ∧ maxProviderEvents ≤ 1000000
  contextCycles : 0 < maxContextCycles ∧ maxContextCycles ≤ 4096
  outputBytes : 0 < maxOutputBytes ∧ maxOutputBytes ≤ 64 * 1024 * 1024
  toolResultBytes :
    0 < maxToolResultBytes ∧ maxToolResultBytes ≤ 64 * 1024 * 1024
  concurrentToolCalls :
    0 < maxConcurrentToolCalls ∧ maxConcurrentToolCalls ≤ 32
  transitions : 0 < maxTransitions ∧ maxTransitions ≤ 1000000
deriving DecidableEq

structure AgentCounters where
  toolCalls : Nat
  providerEvents : Nat
  contextCycles : Nat
  outputBytes : Nat
  toolResultBytes : Nat
  activeToolCalls : Nat
  peakConcurrentToolCalls : Nat
  transitions : Nat
deriving DecidableEq

namespace AgentCounters

def default : AgentCounters := ⟨0, 0, 0, 0, 0, 0, 0, 0⟩

def limitError : AgentRejection :=
  .new .limitExceeded .reduce .exhausted "local agent limit exceeded"

def overflow : AgentRejection :=
  .new .arithmeticOverflow .reduce .exhausted "agent counter overflow"

def underflow : AgentRejection :=
  .new .invalidCommand .reduce .correctRequest "active tool counter underflow"

/-- `value.checked_add(add)` for an integer of the given width. -/
def checkedAdd (width value add : Nat) : Except AgentRejection Nat :=
  if value + add < 2 ^ width then .ok (value + add) else .error overflow

def check (valid : Bool) : Except AgentRejection Unit := ensure valid limitError

variable (counters : AgentCounters) (limits : AgentLimits)

def transition : Except AgentRejection AgentCounters := do
  let transitions ← checkedAdd 32 counters.transitions 1
  check (decide (transitions ≤ limits.maxTransitions))
  .ok { counters with transitions }

def contextCycle : Except AgentRejection AgentCounters := do
  let contextCycles ← checkedAdd 16 counters.contextCycles 1
  check (decide (contextCycles ≤ limits.maxContextCycles))
  .ok { counters with contextCycles }

def providerEvent (bytes : Nat) : Except AgentRejection AgentCounters := do
  let providerEvents ← checkedAdd 32 counters.providerEvents 1
  let outputBytes ← checkedAdd 64 counters.outputBytes bytes
  check (decide (providerEvents ≤ limits.maxProviderEvents))
  check (decide (outputBytes ≤ limits.maxOutputBytes))
  .ok { counters with providerEvents, outputBytes }

def addTools (count : Nat) : Except AgentRejection AgentCounters := do
  let toolCalls ← checkedAdd 16 counters.toolCalls count
  check (decide (toolCalls ≤ limits.maxToolCalls))
  .ok { counters with toolCalls }

def startTool : Except AgentRejection AgentCounters := do
  let activeToolCalls ← checkedAdd 16 counters.activeToolCalls 1
  check (decide (activeToolCalls ≤ limits.maxConcurrentToolCalls))
  .ok { counters with
    activeToolCalls
    peakConcurrentToolCalls :=
      max counters.peakConcurrentToolCalls activeToolCalls }

def finishTool (bytes : Nat) : Except AgentRejection AgentCounters := do
  ensure (decide (0 < counters.activeToolCalls)) underflow
  let toolResultBytes ← checkedAdd 64 counters.toolResultBytes bytes
  check (decide (toolResultBytes ≤ limits.maxToolResultBytes))
  .ok { counters with
    activeToolCalls := counters.activeToolCalls - 1
    toolResultBytes }

end AgentCounters

/-! ### Texts, identities and the binding -/

/-- A control character that is not white space. -/
def forbiddenChar (char : Char) : Bool :=
  let code := char.toNat
  (decide (code < 32) && !(decide (9 ≤ code) && decide (code ≤ 13))) ||
    (decide (127 ≤ code) && decide (code < 160) && !(code == 133))

def textValid (value : String) : Bool :=
  !value.isEmpty && decide (value.utf8ByteSize ≤ 16384) &&
    !value.toList.any forbiddenChar

structure SafeText where
  value : String
  valid : textValid value = true
deriving DecidableEq

structure ModelCallId where
  digest : Sha256Digest
  nonzero : digest.value ≠ 0
deriving DecidableEq

abbrev ToolOrdinal := UInt16

/-- A profile is determined by the actor role it is built for. -/
structure RoleProfile where
  actorRole : ActorRole
deriving DecidableEq

structure AgentBinding where
  turnId : TurnId
  attemptId : AttemptId
  actorId : ActorId
  role : ActorRole
  roleProfile : RoleProfile
  sessionId : SessionId
  environmentId : EnvironmentId
  revision : RevisionTuple
  providerProfileId : ProviderProfileId
  providerProfileRevision : RevisionNumber
  limitsRevision : RevisionNumber
  producer : role = .writer ∨ role = .fixer
  profiled : roleProfile.actorRole = role
  provided : revision.providerProfileId = providerProfileId
deriving DecidableEq

/-! ### Records of the model -/

structure ContextRecord where
  renderDigest : Sha256Digest
  planDigest : Sha256Digest
  memoryDigest : Sha256Digest
  estimatorDigest : Sha256Digest
  compactionDigest : Option Sha256Digest
deriving DecidableEq

structure ProviderEventRecord where
  cursor : Nat
  eventDigest : Sha256Digest
  outputBytes : Nat
  duplicate : Bool
  encodedEnvelope : List UInt8
  bounded : cursor ≤ u64Max ∧ outputBytes ≤ u64Max
deriving DecidableEq

structure ModelTerminalRecord where
  responseDigest : Sha256Digest
  normalTerminal : Bool
  incompleteItems : Bool
  usageSettled : Bool
deriving DecidableEq

inductive ProviderRetryClass
  | exactResume (cursor : Nat)
  | safeNewRequest
deriving DecidableEq

structure ProviderRetryRecord where
  failureDigest : Sha256Digest
  requestDigest : Sha256Digest
  retryClass : ProviderRetryClass
deriving DecidableEq

structure ModelState where
  callId : Option ModelCallId
  requestDigest : Option Sha256Digest
  responseDigest : Option Sha256Digest
  streamDigest : Option Sha256Digest
  cursor : Nat
  inFlight : Bool
  normalTerminal : Bool
  incompleteItems : Bool
  usageSettled : Bool
  retryCount : Nat
  retryPending : Bool
  resumeExact : Bool
deriving DecidableEq

def ModelState.default : ModelState :=
  ⟨none, none, none, none, 0, false, false, false, false, 0, false, false⟩

/-! ### Tools -/

structure ToolVersion where
  major : UInt16
  minor : UInt16
  positive : major ≠ 0
deriving DecidableEq

inductive ToolSideEffect
  | none
  | workspace
  | process
  | external
deriving DecidableEq

inductive ToolIdempotency
  | idempotent
  | replayTerminalOnly
  | nonIdempotent
deriving DecidableEq

structure ToolProposal where
  ordinal : ToolOrdinal
  modelCallId : ModelCallId
  actionId : ActionId
  capability : String
  version : ToolVersion
  argumentDigest : Sha256Digest
  preparedDigest : Sha256Digest
  replayIdentity : Sha256Digest
  revision : RevisionTuple
  deadline : Option AuthorityInstant
  authorityEpoch : Generation
  sideEffect : ToolSideEffect
  idempotency : ToolIdempotency
deriving DecidableEq

inductive ToolSlotPhase
  | proposed
  | awaitingAuthorization
  | authorized
  | dispatched
  | active
  | terminal
deriving DecidableEq

inductive ToolResultStatus
  | succeeded
  | failed
  | denied
  | cancelled
  | indeterminate
deriving DecidableEq

@[ext]
structure ToolResultRecord where
  status : ToolResultStatus
  resultDigest : Sha256Digest
  modelVisibleBytes : Nat
  evidence : List EvidenceId
  bounded : modelVisibleBytes ≤ u64Max
  ordered : evidence.length ≤ 256 ∧ ascending id evidence = true

instance : DecidableEq ToolResultRecord := fun _ _ =>
  decidable_of_iff _ ToolResultRecord.ext_iff.symm

structure ToolSlot where
  proposal : ToolProposal
  phase : ToolSlotPhase
  authorityDigest : Option Sha256Digest
  nextProgressSequence : Nat
  lastProgressDigest : Option Sha256Digest
  result : Option ToolResultRecord
deriving DecidableEq

def ToolSlot.proposed (proposal : ToolProposal) : ToolSlot :=
  ⟨proposal, .proposed, none, 1, none, none⟩

structure ToolBatch where
  slots : List ToolSlot
deriving DecidableEq

def toolError (code : AgentErrorCode) (detail : String) : AgentRejection :=
  .new code .validateTools .correctRequest detail

namespace ToolBatch

/-- The scan over the proposals of a batch. -/
def checkProposals (revision : RevisionTuple) (index : Nat)
    (actions : List ActionId) (calls : List ModelCallId) :
    List ToolProposal → Except AgentRejection Unit
  | [] => .ok ()
  | proposal :: rest => do
      ensure (decide (index < 2 ^ 16))
        (toolError .invalidLimit "tool ordinal exceeds representation")
      ensure (decide (proposal.ordinal.toNat = index) &&
          decide (proposal.revision = revision) &&
          decide (proposal.actionId ∉ actions) &&
          decide (proposal.modelCallId ∉ calls))
        (toolError .nonCanonicalOrder
          "tool proposals are unordered, duplicated, or stale")
      checkProposals revision (index + 1) (proposal.actionId :: actions)
        (proposal.modelCallId :: calls) rest

def mutationCount (proposals : List ToolProposal) : Nat :=
  proposals.countP fun proposal => decide (proposal.sideEffect = .workspace)

def new (proposals : List ToolProposal) (revision : RevisionTuple)
    (maximum : Nat) : Except AgentRejection ToolBatch := do
  ensure (!proposals.isEmpty && decide (proposals.length ≤ maximum))
    (toolError .invalidLimit "tool batch is empty or exceeds the turn limit")
  checkProposals revision 0 [] [] proposals
  ensure (!(decide (0 < mutationCount proposals) &&
      decide (1 < proposals.length)))
    (toolError .invalidTool "workspace mutations must be serialized")
  .ok ⟨proposals.map ToolSlot.proposed⟩

def allTerminal (batch : ToolBatch) : Bool :=
  batch.slots.all fun slot => decide (slot.phase = .terminal)

def hasIndeterminate (batch : ToolBatch) : Bool :=
  batch.slots.any fun slot =>
    slot.result.any fun result => decide (result.status = .indeterminate)

def slotPhase (batch : ToolBatch) (ordinal : ToolOrdinal) :
    Except AgentRejection ToolSlotPhase :=
  match batch.slots[ordinal.toNat]? with
  | some slot => .ok slot.phase
  | none => .error (toolError .invalidTool "unknown tool ordinal")

/-- `slot_mut`, and then an update of the slot. -/
def updateSlot (batch : ToolBatch) (ordinal : ToolOrdinal)
    (update : ToolSlot → ToolSlot) : Except AgentRejection ToolBatch :=
  match batch.slots[ordinal.toNat]? with
  | some slot => .ok ⟨batch.slots.set ordinal.toNat (update slot)⟩
  | none => .error (toolError .invalidTool "unknown tool ordinal")

def setAwaiting (batch : ToolBatch) : ToolBatch :=
  ⟨batch.slots.map fun slot => { slot with phase := .awaitingAuthorization }⟩

end ToolBatch

namespace ToolSlot

def authorize (digest : Sha256Digest) (slot : ToolSlot) : ToolSlot :=
  { slot with phase := .authorized, authorityDigest := some digest }

def finish (result : ToolResultRecord) (slot : ToolSlot) : ToolSlot :=
  { slot with phase := .terminal, result := some result }

def dispatch (slot : ToolSlot) : ToolSlot := { slot with phase := .dispatched }

def activate (slot : ToolSlot) : ToolSlot := { slot with phase := .active }

def progress (digest : Sha256Digest) (slot : ToolSlot) : ToolSlot :=
  { slot with
    nextProgressSequence := slot.nextProgressSequence + 1
    lastProgressDigest := some digest }

end ToolSlot

/-! ### Completion and failure -/

structure EvidenceReference where
  id : EvidenceId
  revision : RevisionTuple
deriving DecidableEq

inductive CompletionRequest
  | runGates
  | requestReview
  | continueFixing
  | requestAuthority
  | reportBlocked
deriving DecidableEq

structure TranscriptDigests where
  context : Sha256Digest
  model : Sha256Digest
  tools : Sha256Digest
deriving DecidableEq

structure CompletionProposal where
  summary : SafeText
  evidence : List EvidenceReference
  uncertainties : List SafeText
  revision : RevisionTuple
  transcripts : TranscriptDigests
  requested : CompletionRequest
  bounded : evidence.length ≤ 1024 ∧ uncertainties.length ≤ 64
  fresh : ∀ reference ∈ evidence, reference.revision = revision
  ordered : ascending EvidenceReference.id evidence = true
deriving DecidableEq

inductive AgentFailureKind
  | provider
  | tool
  | context
  | protocol
  | exhausted (dimension : AgentLimitDimension)
  | indeterminate
deriving DecidableEq

structure AgentFailure where
  kind : AgentFailureKind
  detail : SafeText
deriving DecidableEq

/-! ### The state -/

structure AgentTurnState where
  binding : AgentBinding
  limits : AgentLimits
  counters : AgentCounters
  phase : AgentPhase
  pausedFrom : Option ActivePhase
  logicalRevision : RevisionNumber
  sequence : EventSequence
  lastEventId : EventId
  stateDigest : Sha256Digest
  context : Option ContextRecord
  model : ModelState
  tools : Option ToolBatch
  toolTranscriptDigest : Option Sha256Digest
  completion : Option CompletionProposal
  failure : Option AgentFailure
  unresolvedIndeterminate : Bool
deriving DecidableEq

end Peritus.Agent.State
