import Peritus.Collaboration.Task
import Peritus.Context.Node

/-!
The working model of one task: observations from an archive, the environment that
conclusions depend on, and source-backed entries.  A value that its constructor
would refuse cannot be built.
-/

namespace Peritus.Context.Working

open Peritus.Types Checked SortedTable Node
open Collaboration.Task (HarnessRole)

/-! ### Errors and limits -/

inductive WorkingError
  | zeroSequence
  | invalidLimit
  | capacity
  | projection (error : ContextError)
  | sourceRange
  | sourceConflict
  | sourceSequence
  | missingSource
  | conflictingEvidence
  | nonCanonicalOrder
  | bindingMismatch
  | revisionMismatch
  | staleConversation
  | revisionExhausted
  | emptyEntry
  | missingEntry
  | dependencyCycle
  | derivedStatus
  | alreadySuperseded
  | staleEntry
deriving DecidableEq

structure WorkingLimits where
  observations : Nat
  entries : Nat
  entryBytes : Nat
  links : Nat
  operations : Nat
  positive : ¬ (observations = 0 ∨ entries = 0 ∨ entryBytes = 0 ∨ links = 0 ∨
    operations = 0)
deriving DecidableEq

def nextRevision (current : Nat) : Except WorkingError Nat :=
  if current = u64Max then .error .revisionExhausted else .ok (current + 1)

/-! ### Bindings and observations -/

structure WorkingBinding where
  run : RunId
  workspace : WorkspaceId
  task : ContextNodeId
  role : HarnessRole
  conversationRevision : Nat
deriving DecidableEq

/-- The scope of two bindings is the same, whatever their conversations. -/
def WorkingBinding.sameLineage (binding other : WorkingBinding) : Bool :=
  decide (binding.run = other.run) &&
    decide (binding.workspace = other.workspace) &&
    decide (binding.task = other.task) && decide (binding.role = other.role)

@[ext]
structure ObservationId where
  get : Nat
  positive : get ≠ 0

instance : DecidableEq ObservationId := fun _ _ =>
  decidable_of_iff _ ObservationId.ext_iff.symm

inductive ObservationKind
  | hostPolicy
  | userInstruction
  | toolOutput
  | agentMessage
deriving DecidableEq

/-- A byte range of an archived artifact. -/
structure ObservationSource where
  id : ObservationId
  artifact : Sha256Digest
  artifactBytes : Nat
  start : Nat
  stop : Nat
  kind : ObservationKind
  ranged : start ≤ stop ∧ stop ≤ artifactBytes
deriving DecidableEq

/-! ### Environments and validity -/

structure WorkingFileDigest where
  key : ContextNodeId
  digest : Sha256Digest
deriving DecidableEq

structure WorkingEnvironment where
  binding : WorkingBinding
  candidate : Sha256Digest
  files : List WorkingFileDigest
  canonical : ascending WorkingFileDigest.key files = true
deriving DecidableEq

def WorkingEnvironment.new (binding : WorkingBinding) (candidate : Sha256Digest)
    (files : List WorkingFileDigest) (limits : WorkingLimits) :
    Except WorkingError WorkingEnvironment :=
  if files.length ≤ limits.entries then
    if h : ascending WorkingFileDigest.key files = true then
      .ok ⟨binding, candidate, files, h⟩
    else .error .nonCanonicalOrder
  else .error .capacity

/-- What a conclusion depends on; unknown dependencies ask for a fresh check. -/
@[ext]
structure WorkingValidity where
  conversationRevision : Option Nat
  candidate : Option Sha256Digest
  files : List WorkingFileDigest
  requiresRecheck : Bool
  canonical : ascending WorkingFileDigest.key files = true

instance : DecidableEq WorkingValidity := fun _ _ =>
  decidable_of_iff _ WorkingValidity.ext_iff.symm

namespace WorkingValidity

def new (conversationRevision : Option Nat) (candidate : Option Sha256Digest)
    (files : List WorkingFileDigest) (limits : WorkingLimits) :
    Except WorkingError WorkingValidity :=
  if files.length ≤ limits.links then
    if h : ascending WorkingFileDigest.key files = true then
      .ok ⟨conversationRevision, candidate, files, false, h⟩
    else .error .nonCanonicalOrder
  else .error .capacity

theorem ascending_nil : ascending WorkingFileDigest.key [] = true := rfl

def uncertain : WorkingValidity := ⟨none, none, [], true, ascending_nil⟩

/-- Every constraint is met by the environment. -/
def holds (validity : WorkingValidity) (environment : WorkingEnvironment) : Bool :=
  !validity.requiresRecheck &&
    validity.conversationRevision.all (fun revision =>
      decide (revision = environment.binding.conversationRevision)) &&
    validity.candidate.all (fun candidate =>
      decide (candidate = environment.candidate)) &&
    validity.files.all fun file => decide (file ∈ environment.files)

/-- One of two optional constraints; `none` if they are in conflict. -/
def conjoin {α : Type} [DecidableEq α] : Option α → Option α → Option (Option α)
  | some a, some b => if a ≠ b then none else some (some a)
  | a, b => some (a.or b)

/-- The files of both; `none` if a key is in both with two digests. -/
def conjoinFiles : List WorkingFileDigest → List WorkingFileDigest →
    Option (List WorkingFileDigest)
  | files, [] => some files
  | files, file :: rest =>
      match files.find? fun previous => decide (previous.key = file.key) with
      | some previous =>
          if previous ≠ file then none else conjoinFiles files rest
      | none => conjoinFiles (files ++ [file]) rest

/-- The constraints of both; a conflict asks for a fresh check. -/
def withHost (validity host : WorkingValidity) (limits : WorkingLimits) :
    Except WorkingError WorkingValidity :=
  if validity.requiresRecheck || host.requiresRecheck then .ok uncertain
  else
    match conjoin validity.conversationRevision host.conversationRevision,
        conjoin validity.candidate host.candidate,
        conjoinFiles validity.files host.files with
    | some conversation, some candidate, some files =>
        new conversation candidate
          (files.insertionSort fun a b => a.key ≤ b.key) limits
    | _, _, _ => .ok uncertain

end WorkingValidity

/-! ### Entries -/

inductive WorkingEntryKind
  | observation
  | assertion
  | hypothesis
  | decision
  | failedApproach
  | plan
  | glossary
deriving DecidableEq

inductive WorkingEntryStatus
  | opened
  | contradicted
  | resolved
  | stale
  | superseded
deriving DecidableEq

/-- Whether two ascending lists of observations are disjoint: both are walked
together, and the lesser head is passed over. -/
def disjointSources : List ObservationId → List ObservationId → Bool
  | [], _ => true
  | support :: supports, contradicts =>
      match contradicts.dropWhile fun other => decide (other.get < support.get) with
      | [] => true
      | contradiction :: rest =>
          if support.get = contradiction.get then false
          else disjointSources supports (contradiction :: rest)

def validateLinks (supports contradicts : List ObservationId)
    (dependsOn : List ContextNodeId) : Except WorkingError Unit := do
  ensure (ascending ObservationId.get supports) .nonCanonicalOrder
  ensure (ascending ObservationId.get contradicts) .nonCanonicalOrder
  ensure (ascending (fun id : ContextNodeId => id) dependsOn) .nonCanonicalOrder
  ensure (disjointSources supports contradicts) .conflictingEvidence

structure WorkingLinks where
  supports : List ObservationId
  contradicts : List ObservationId
  dependsOn : List ContextNodeId
  sourced : ¬ (supports = [] ∧ contradicts = [])
  canonical : validateLinks supports contradicts dependsOn = .ok ()
deriving DecidableEq

def WorkingLinks.new (supports contradicts : List ObservationId)
    (dependsOn : List ContextNodeId) (limits : WorkingLimits) :
    Except WorkingError WorkingLinks :=
  if hsourced : supports = [] ∧ contradicts = [] then .error .emptyEntry
  else if limits.links < supports.length ∨ limits.links < contradicts.length ∨
      limits.links < dependsOn.length then .error .capacity
  else
    match hcanonical : validateLinks supports contradicts dependsOn with
    | .error error => .error error
    | .ok () => .ok ⟨supports, contradicts, dependsOn, hsourced, hcanonical⟩

/-- The sources that the host had shown when it recorded an entry. -/
structure WorkingHostBinding where
  throughObservation : Nat
  request : Option Sha256Digest
deriving DecidableEq

structure WorkingEntry where
  id : ContextNodeId
  kind : WorkingEntryKind
  status : WorkingEntryStatus
  content : ContextContent
  links : WorkingLinks
  validity : WorkingValidity
  hostBinding : Option WorkingHostBinding
  hostDeclaredStatus : Option WorkingEntryStatus
  supersedes : Option ContextNodeId
  staleThrough : Nat
deriving DecidableEq

namespace WorkingEntry

def withHostStatus (entry : WorkingEntry) (status : WorkingEntryStatus)
    (staleThrough : Nat) : WorkingEntry :=
  { entry with status := status, staleThrough := staleThrough }

def new (id : ContextNodeId) (kind : WorkingEntryKind) (content : ContextContent)
    (links : WorkingLinks) (validity : WorkingValidity) (limits : WorkingLimits) :
    Except WorkingError WorkingEntry :=
  if limits.entryBytes < content.len ∨ limits.links < links.supports.length ∨
      limits.links < links.contradicts.length ∨
      limits.links < links.dependsOn.length ∨
      limits.links < validity.files.length then .error .capacity
  else .ok ⟨id, kind, .opened, content, links, validity, none, none, none, 0⟩

def declaredStatus (entry : WorkingEntry) : Option WorkingEntryStatus :=
  if entry.hostBinding.isSome then entry.hostDeclaredStatus
  else
    match entry.status with
    | .stale | .superseded => none
    | status => some status

end WorkingEntry

def unusable (status : WorkingEntryStatus) : Bool :=
  decide (status = .stale) || decide (status = .superseded)

/-! ### Protocols -/

inductive PendingOperationState
  | proposed
  | running
  | unknown
deriving DecidableEq

structure WorkingPendingOperation where
  id : ContextNodeId
  source : ObservationId
  state : PendingOperationState
deriving DecidableEq

structure WorkingProtocol where
  requirements : List ObservationId
  pending : List WorkingPendingOperation
  canonical : ascending ObservationId.get requirements = true ∧
    ascending WorkingPendingOperation.id pending = true
deriving DecidableEq

namespace WorkingProtocol

def empty : WorkingProtocol := ⟨[], [], rfl, rfl⟩

def new (requirements : List ObservationId)
    (pending : List WorkingPendingOperation) (limits : WorkingLimits) :
    Except WorkingError WorkingProtocol :=
  if limits.entries < requirements.length ∨ limits.entries < pending.length then
    .error .capacity
  else if h : ascending ObservationId.get requirements = true ∧
      ascending WorkingPendingOperation.id pending = true then
    .ok ⟨requirements, pending, h⟩
  else .error .nonCanonicalOrder

end WorkingProtocol

/-! ### States -/

structure WorkingState where
  environment : WorkingEnvironment
  revision : Nat
  observations : List ObservationSource
  entries : List WorkingEntry
  limits : WorkingLimits
  protocol : WorkingProtocol
deriving DecidableEq

namespace WorkingState

def new (environment : WorkingEnvironment) (limits : WorkingLimits) :
    Except WorkingError WorkingState :=
  if limits.entries < environment.files.length then .error .capacity
  else .ok ⟨environment, 0, [], [], limits, .empty⟩

def binding (state : WorkingState) : WorkingBinding := state.environment.binding

/-- The length of the archive prefix that the state has incorporated. -/
def throughObservation (state : WorkingState) : Nat := state.observations.length

def withEntries (state : WorkingState) (entries : List WorkingEntry)
    (revision : Nat) : WorkingState :=
  { state with entries := entries, revision := revision }

def checkBinding (state : WorkingState) (binding : WorkingBinding) :
    Except WorkingError Unit :=
  ensure (decide (state.binding = binding)) .bindingMismatch

def observation (state : WorkingState) (binding : WorkingBinding)
    (id : ObservationId) : Except WorkingError ObservationSource := do
  state.checkBinding binding
  match state.observations[id.get - 1]? with
  | some source => if source.id = id then .ok source else .error .missingSource
  | none => .error .missingSource

/-- Wider limits, and the same content. -/
def withLimits (state : WorkingState) (limits : WorkingLimits) :
    Except WorkingError WorkingState :=
  if limits.observations < state.limits.observations ∨
      limits.entries < state.limits.entries ∨
      limits.entryBytes < state.limits.entryBytes ∨
      limits.links < state.limits.links ∨
      limits.operations < state.limits.operations then .error .invalidLimit
  else .ok { state with limits := limits }

end WorkingState

end Peritus.Context.Working
