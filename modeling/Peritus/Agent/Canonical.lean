import Peritus.Agent.State
import Peritus.Bytes

/-!
The canonical bytes of a turn, which its state digest is taken over.
-/

namespace Peritus.Agent.Canonical

open Peritus.Types Bytes State
open Policy (ActorRole)

/-! ### Primitive values -/

def u8 (value : Nat) : List UInt8 := beBytes 1 value

def u16 (value : Nat) : List UInt8 := beBytes 2 value

def u32 (value : Nat) : List UInt8 := beBytes 4 value

def u64 (value : Nat) : List UInt8 := beBytes 8 value

def bool (value : Bool) : List UInt8 := u8 (if value then 1 else 0)

def identifier (value : OpaqueIdentifier) : List UInt8 := beBytes 16 value.value

def digest (value : Sha256Digest) : List UInt8 := beBytes 32 value.value

def raw (value : String) : List UInt8 := value.toUTF8.data.toList

def text (value : String) : List UInt8 := u64 value.utf8ByteSize ++ raw value

def option {α : Type} (encode : α → List UInt8) : Option α → List UInt8
  | some value => u8 1 ++ encode value
  | none => u8 0

def revision (value : RevisionTuple) : List UInt8 :=
  identifier value.acceptanceSpecId ++ identifier value.harnessId ++
    identifier value.workspaceId ++ u64 value.workspaceGeneration.get ++
    u64 value.workspaceRevision.get ++ identifier value.policyId ++
    identifier value.providerProfileId

/-! ### Records -/

def roleTag : ActorRole → Nat
  | .writer => 0
  | .fixer => 1
  | .reviewer => 2
  | .evaluator => 3
  | .gateRunner => 4
  | .orchestrator => 5
  | .evolutionAgent => 6
  | .humanAuthority => 7
  | .daemonService => 8
  | .providerToolWorker => 9
  | .plugin => 10

def failureTag : AgentFailureKind → Nat
  | .provider => 0
  | .tool => 1
  | .context => 2
  | .protocol => 3
  | .exhausted _ => 4
  | .indeterminate => 5

def encodeBinding (binding : AgentBinding) : List UInt8 :=
  identifier binding.turnId ++ identifier binding.attemptId ++
    identifier binding.actorId ++ u8 (roleTag binding.role) ++
    identifier binding.sessionId ++ identifier binding.environmentId ++
    revision binding.revision ++ identifier binding.providerProfileId ++
    u64 binding.providerProfileRevision.get ++ u64 binding.limitsRevision.get

def encodeLimits (limits : AgentLimits) : List UInt8 :=
  u16 limits.maxToolCalls ++ u32 limits.maxProviderEvents ++
    u16 limits.maxContextCycles ++ u64 limits.maxOutputBytes ++
    u64 limits.maxToolResultBytes ++ u16 limits.maxConcurrentToolCalls ++
    u32 limits.maxTransitions

def encodeCounters (counters : AgentCounters) : List UInt8 :=
  u16 counters.toolCalls ++ u32 counters.providerEvents ++
    u16 counters.contextCycles ++ u64 counters.outputBytes ++
    u64 counters.toolResultBytes ++ u16 counters.activeToolCalls ++
    u16 counters.peakConcurrentToolCalls ++ u32 counters.transitions

def encodeContext (context : ContextRecord) : List UInt8 :=
  digest context.renderDigest ++ digest context.planDigest ++
    digest context.memoryDigest ++ digest context.estimatorDigest ++
    option digest context.compactionDigest

/-- The retry fields are written twice. -/
def encodeModel (model : ModelState) : List UInt8 :=
  option (fun call => digest call.digest) model.callId ++
    option digest model.requestDigest ++ option digest model.responseDigest ++
    option digest model.streamDigest ++ u64 model.cursor ++
    bool model.inFlight ++ bool model.normalTerminal ++
    bool model.incompleteItems ++ bool model.usageSettled ++
    u32 model.retryCount ++ bool model.retryPending ++ bool model.resumeExact ++
    u32 model.retryCount ++ bool model.retryPending ++ bool model.resumeExact

def sideEffectTag : ToolSideEffect → Nat
  | .none => 0
  | .workspace => 1
  | .process => 2
  | .external => 3

def idempotencyTag : ToolIdempotency → Nat
  | .idempotent => 0
  | .replayTerminalOnly => 1
  | .nonIdempotent => 2

def slotPhaseTag : ToolSlotPhase → Nat
  | .proposed => 0
  | .awaitingAuthorization => 1
  | .authorized => 2
  | .dispatched => 3
  | .active => 4
  | .terminal => 5

def resultStatusTag : ToolResultStatus → Nat
  | .succeeded => 0
  | .failed => 1
  | .denied => 2
  | .cancelled => 3
  | .indeterminate => 4

def encodeProposal (optionalLifetimes : Bool) (proposal : ToolProposal) :
    List UInt8 :=
  u16 proposal.ordinal.toNat ++ digest proposal.modelCallId.digest ++
    identifier proposal.actionId ++ text proposal.capability ++
    u16 proposal.version.major.toNat ++ u16 proposal.version.minor.toNat ++
    digest proposal.argumentDigest ++ digest proposal.preparedDigest ++
    digest proposal.replayIdentity ++ revision proposal.revision ++
    (if optionalLifetimes then bool proposal.deadline.isSome else []) ++
    u64 proposal.authorityEpoch.get ++
    (match proposal.deadline with
      | some deadline => u64 deadline.tickMillis
      | none => []) ++
    u8 (sideEffectTag proposal.sideEffect) ++
    u8 (idempotencyTag proposal.idempotency)

def encodeResult (result : ToolResultRecord) : List UInt8 :=
  u8 (resultStatusTag result.status) ++ digest result.resultDigest ++
    u64 result.modelVisibleBytes ++ u64 result.evidence.length ++
    result.evidence.flatMap identifier

def encodeSlot (optionalLifetimes : Bool) (slot : ToolSlot) : List UInt8 :=
  encodeProposal optionalLifetimes slot.proposal ++
    u8 (slotPhaseTag slot.phase) ++ option digest slot.authorityDigest ++
    u32 slot.nextProgressSequence ++ option digest slot.lastProgressDigest ++
    option encodeResult slot.result

def encodeTools (optionalLifetimes : Bool) (batch : ToolBatch) : List UInt8 :=
  u64 batch.slots.length ++ batch.slots.flatMap (encodeSlot optionalLifetimes)

def requestTag : CompletionRequest → Nat
  | .runGates => 0
  | .requestReview => 1
  | .continueFixing => 2
  | .requestAuthority => 3
  | .reportBlocked => 4

def encodeCompletion (completion : CompletionProposal) : List UInt8 :=
  text completion.summary.value ++ u64 completion.evidence.length ++
    completion.evidence.flatMap (fun reference =>
      identifier reference.id ++ revision reference.revision) ++
    u64 completion.uncertainties.length ++
    completion.uncertainties.flatMap (fun uncertainty =>
      text uncertainty.value) ++
    revision completion.revision ++ digest completion.transcripts.context ++
    digest completion.transcripts.model ++
    digest completion.transcripts.tools ++ u8 (requestTag completion.requested)

def encodeFailure (failure : AgentFailure) : List UInt8 :=
  u8 (failureTag failure.kind) ++
    (match failure.kind with
      | .exhausted dimension => u8 dimension.tag
      | _ => []) ++
    text failure.detail.value

/-! ### The state -/

/-- Whether a call of the batch has no deadline, which the second version of
the record marks. -/
def optionalLifetimes (state : AgentTurnState) : Bool :=
  state.tools.any fun batch =>
    batch.slots.any fun slot => slot.proposal.deadline.isNone

def stateBytes (state : AgentTurnState) : List UInt8 :=
  raw (if optionalLifetimes state then "peritus-agent-state-v2"
    else "peritus-agent-state-v1") ++
    encodeBinding state.binding ++ encodeLimits state.limits ++
    encodeCounters state.counters ++ u8 state.phase.tag ++
    option (fun phase => u8 (AgentPhase.active phase).tag) state.pausedFrom ++
    u64 state.logicalRevision.get ++ u64 state.sequence.get ++
    identifier state.lastEventId ++ option encodeContext state.context ++
    encodeModel state.model ++
    option (encodeTools (optionalLifetimes state)) state.tools ++
    option digest state.toolTranscriptDigest ++
    option encodeCompletion state.completion ++
    option encodeFailure state.failure ++
    bool state.unresolvedIndeterminate ++ bool state.unresolvedIndeterminate

def stateDigest (sha256 : List UInt8 → Sha256Digest) (state : AgentTurnState) :
    Sha256Digest :=
  sha256 (stateBytes state)

end Peritus.Agent.Canonical
