import Peritus.Collaboration.Limits
import Peritus.Scheduler.State

/-!
Task assignments, reservations, outcomes and messages of a collaboration.  A
record that its constructor would refuse cannot be built.
-/

namespace Peritus.Collaboration.Task

open Peritus.Types Limits
open Scheduler.Limits (SchedulerId WorkId DispatchId)
open Scheduler.State (zeroDigest)

abbrev u16Max : Nat := 2 ^ 16 - 1

theorem one_le_u16Max : 1 ≤ u16Max := by decide
abbrev u32Max : Nat := 2 ^ 32 - 1

/-! ### Joins and artifacts -/

inductive HarnessRole
  | writer
  | reviewer
  | fixer
  | evaluator
  | evolver
deriving DecidableEq

inductive JoinPolicy
  | noChildren
  | allRequired
  | anyRequired
deriving DecidableEq

structure ArtifactHandoff where
  artifactId : ArtifactId
  artifactDigest : Sha256Digest
  evidenceDigest : Sha256Digest
  revision : RevisionTuple
  nonzero : artifactDigest ≠ zeroDigest ∧ evidenceDigest ≠ zeroDigest
deriving DecidableEq

def ArtifactHandoff.new (artifactId : ArtifactId)
    (artifactDigest evidenceDigest : Sha256Digest) (revision : RevisionTuple) :
    Except CollaborationError ArtifactHandoff :=
  if h : artifactDigest ≠ zeroDigest ∧ evidenceDigest ≠ zeroDigest then
    .ok ⟨artifactId, artifactDigest, evidenceDigest, revision, h⟩
  else
    .error (reject .invalidInput
      "artifact and evidence handoff digests must be nonzero")

theorem ArtifactHandoff.new_self (handoff : ArtifactHandoff) :
    new handoff.artifactId handoff.artifactDigest handoff.evidenceDigest
      handoff.revision = .ok handoff :=
  dif_pos handoff.nonzero

theorem ArtifactHandoff.fields_of_new {artifactId : ArtifactId}
    {artifactDigest evidenceDigest : Sha256Digest} {revision : RevisionTuple}
    {handoff : ArtifactHandoff}
    (h : new artifactId artifactDigest evidenceDigest revision = .ok handoff) :
    handoff.artifactId = artifactId ∧ handoff.artifactDigest = artifactDigest ∧
      handoff.evidenceDigest = evidenceDigest ∧ handoff.revision = revision := by
  unfold new at h
  split at h
  · cases h
    exact ⟨rfl, rfl, rfl, rfl⟩
  · cases h

/-! ### Delegations -/

/-- Where an assignment without a parent stands. -/
def RootShape (taskId rootTaskId : CollaborationTaskId)
    (parentTaskId : Option CollaborationTaskId) (depth : Nat)
    (owner parentOwner : ActorId) : Prop :=
  parentTaskId = none → depth = 0 ∧ taskId = rootTaskId ∧ owner = parentOwner

/-- What an assignment with a parent avoids. -/
def ChildShape (taskId : CollaborationTaskId)
    (parentTaskId : Option CollaborationTaskId) (depth : Nat) : Prop :=
  ∀ parent ∈ parentTaskId, depth ≠ 0 ∧ parent ≠ taskId

instance (taskId rootTaskId : CollaborationTaskId)
    (parentTaskId : Option CollaborationTaskId) (depth : Nat)
    (owner parentOwner : ActorId) :
    Decidable (RootShape taskId rootTaskId parentTaskId depth owner
      parentOwner) :=
  inferInstanceAs (Decidable (parentTaskId = none → _))

instance (taskId : CollaborationTaskId)
    (parentTaskId : Option CollaborationTaskId) (depth : Nat) :
    Decidable (ChildShape taskId parentTaskId depth) :=
  inferInstanceAs (Decidable (∀ parent ∈ parentTaskId, _))

structure Delegation where
  taskId : CollaborationTaskId
  rootTaskId : CollaborationTaskId
  parentTaskId : Option CollaborationTaskId
  depth : Nat
  owner : ActorId
  role : HarnessRole
  parentOwner : ActorId
  workId : WorkId
  goalDigest : Sha256Digest
  required : Bool
  joinPolicy : JoinPolicy
  depthBound : depth ≤ u16Max
  goal : goalDigest ≠ zeroDigest
  rootShape : RootShape taskId rootTaskId parentTaskId depth owner parentOwner
  childShape : ChildShape taskId parentTaskId depth
  rootRequired : parentTaskId = none → required = true
deriving DecidableEq

namespace Delegation

/-- The shared constructor; only `root` leaves the parent out. -/
def new (taskId rootTaskId : CollaborationTaskId)
    (parentTaskId : Option CollaborationTaskId) (depth : Nat) (owner : ActorId)
    (role : HarnessRole) (parentOwner : ActorId) (workId : WorkId)
    (goalDigest : Sha256Digest) (required : Bool) (joinPolicy : JoinPolicy)
    (depthBound : depth ≤ u16Max)
    (rootRequired : parentTaskId = none → required = true) :
    Except CollaborationError Delegation :=
  if goal : goalDigest ≠ zeroDigest then
    if rootShape : RootShape taskId rootTaskId parentTaskId depth owner
        parentOwner then
      if childShape : ChildShape taskId parentTaskId depth then
        .ok
          { taskId, rootTaskId, parentTaskId, depth, owner, role, parentOwner
            workId, goalDigest, required, joinPolicy, depthBound, goal
            rootShape, childShape, rootRequired }
      else
        .error (reject .causalityViolation
          "child assignment has zero depth or self-parenting")
    else
      .error (reject .causalityViolation
        "root assignment has inconsistent root, depth, or parent owner")
  else
    .error (reject .invalidInput "task goal digest must be nonzero")

def root (taskId : CollaborationTaskId) (owner : ActorId) (role : HarnessRole)
    (workId : WorkId) (goalDigest : Sha256Digest) (joinPolicy : JoinPolicy) :
    Except CollaborationError Delegation :=
  new taskId taskId none 0 owner role owner workId goalDigest true joinPolicy
    (Nat.zero_le _) fun _ => rfl

def child (taskId rootTaskId parentTaskId : CollaborationTaskId) (depth : Nat)
    (owner : ActorId) (role : HarnessRole) (parentOwner : ActorId)
    (workId : WorkId) (goalDigest : Sha256Digest) (required : Bool)
    (joinPolicy : JoinPolicy) (depthBound : depth ≤ u16Max) :
    Except CollaborationError Delegation :=
  new taskId rootTaskId (some parentTaskId) depth owner role parentOwner workId
    goalDigest required joinPolicy depthBound fun h => by cases h

theorem new_self (delegation : Delegation) :
    new delegation.taskId delegation.rootTaskId delegation.parentTaskId
      delegation.depth delegation.owner delegation.role delegation.parentOwner
      delegation.workId delegation.goalDigest delegation.required
      delegation.joinPolicy delegation.depthBound delegation.rootRequired =
    .ok delegation := by
  unfold new
  rw [dif_pos delegation.goal, dif_pos delegation.rootShape,
    dif_pos delegation.childShape]

theorem fields_of_new {taskId rootTaskId : CollaborationTaskId}
    {parentTaskId : Option CollaborationTaskId} {depth : Nat} {owner : ActorId}
    {role : HarnessRole} {parentOwner : ActorId} {workId : WorkId}
    {goalDigest : Sha256Digest} {required : Bool} {joinPolicy : JoinPolicy}
    {depthBound : depth ≤ u16Max}
    {rootRequired : parentTaskId = none → required = true}
    {delegation : Delegation}
    (h : new taskId rootTaskId parentTaskId depth owner role parentOwner workId
      goalDigest required joinPolicy depthBound rootRequired =
        .ok delegation) :
    delegation.taskId = taskId ∧ delegation.rootTaskId = rootTaskId ∧
      delegation.parentTaskId = parentTaskId ∧ delegation.depth = depth ∧
      delegation.owner = owner ∧ delegation.role = role ∧
      delegation.parentOwner = parentOwner ∧ delegation.workId = workId ∧
      delegation.goalDigest = goalDigest ∧ delegation.required = required ∧
      delegation.joinPolicy = joinPolicy := by
  unfold new at h
  split at h
  · split at h
    · split at h
      · cases h
        exact ⟨rfl, rfl, rfl, rfl, rfl, rfl, rfl, rfl, rfl, rfl, rfl⟩
      · cases h
    · cases h
  · cases h

end Delegation

structure ReservationObservation where
  workId : WorkId
  dispatchId : DispatchId
  owner : ActorId
  revision : RevisionTuple
deriving DecidableEq

/-! ### Tasks -/

inductive TaskPhase
  | offered
  | accepted
  | active
  | cancelling
  | terminal
deriving DecidableEq

inductive TaskTerminalKind
  | succeeded
  | failed
  | rejected
  | cancelled
  | abandoned
deriving DecidableEq

/-- Failure and abandonment name their cause. -/
def NamesCause (kind : TaskTerminalKind) (causeDigest : Sha256Digest) : Prop :=
  kind = .failed ∨ kind = .abandoned → causeDigest ≠ zeroDigest

instance (kind : TaskTerminalKind) (causeDigest : Sha256Digest) :
    Decidable (NamesCause kind causeDigest) :=
  inferInstanceAs (Decidable (_ → _))

structure TaskTerminal where
  kind : TaskTerminalKind
  handoff : Option ArtifactHandoff
  causeDigest : Sha256Digest
  handed : kind ≠ .succeeded → handoff = none
  cause : NamesCause kind causeDigest
deriving DecidableEq

def TaskTerminal.new (kind : TaskTerminalKind)
    (handoff : Option ArtifactHandoff) (causeDigest : Sha256Digest) :
    Except CollaborationError TaskTerminal :=
  if handed : kind ≠ .succeeded → handoff = none then
    if cause : NamesCause kind causeDigest then
      .ok ⟨kind, handoff, causeDigest, handed, cause⟩
    else
      .error (reject .invalidInput
        "failure and abandonment require a nonzero cause digest")
  else
    .error (reject .invalidInput
      "only a successful task may retain an artifact handoff")

theorem TaskTerminal.new_self (terminal : TaskTerminal) :
    new terminal.kind terminal.handoff terminal.causeDigest = .ok terminal := by
  unfold new
  rw [dif_pos terminal.handed, dif_pos terminal.cause]

theorem TaskTerminal.new_eq_ok {kind : TaskTerminalKind}
    {handoff : Option ArtifactHandoff} {causeDigest : Sha256Digest}
    {terminal : TaskTerminal} (h : new kind handoff causeDigest = .ok terminal) :
    terminal.kind = kind ∧ terminal.handoff = handoff ∧
      terminal.causeDigest = causeDigest := by
  unfold new at h
  split at h
  · split at h
    · cases h
      exact ⟨rfl, rfl, rfl⟩
    · cases h
  · cases h

structure CollaborationTask where
  assignment : Delegation
  phase : TaskPhase
  reservation : Option ReservationObservation
  terminal : Option TaskTerminal
deriving DecidableEq

namespace CollaborationTask

def offered (assignment : Delegation) : CollaborationTask :=
  ⟨assignment, .offered, none, none⟩

def acceptedRoot (assignment : Delegation) : CollaborationTask :=
  ⟨assignment, .accepted, none, none⟩

def id (task : CollaborationTask) : CollaborationTaskId :=
  task.assignment.taskId

def setPhase (task : CollaborationTask) (phase : TaskPhase) :
    CollaborationTask :=
  { task with phase }

def setReservation (task : CollaborationTask)
    (reservation : ReservationObservation) : CollaborationTask :=
  { task with reservation := some reservation }

def terminate (task : CollaborationTask) (terminal : TaskTerminal) :
    CollaborationTask :=
  { task with phase := .terminal, terminal := some terminal }

end CollaborationTask

structure CancellationEffect where
  taskId : CollaborationTaskId
  resultingPhase : TaskPhase
deriving DecidableEq

/-! ### Messages -/

def mediaTypeByte (byte : UInt8) : Bool :=
  (decide (48 ≤ byte) && decide (byte ≤ 57)) ||
    (decide (65 ≤ byte) && decide (byte ≤ 90)) ||
    (decide (97 ≤ byte) && decide (byte ≤ 122)) ||
    decide (byte ∈ "/!#$&-.+^_".toUTF8.toList)

/-- A kind and a subtype around the only slash. -/
def validMediaType (value : String) : Bool :=
  match value.toUTF8.toList.span fun byte => decide (byte ≠ 47) with
  | (kind, _ :: subtype) =>
      !kind.isEmpty && !subtype.isEmpty && decide (47 ∉ subtype) &&
        value.toUTF8.toList.all mediaTypeByte
  | _ => false

def validMessage (ordinal payloadBytes : Nat) (mediaType : String)
    (contentDigest : Sha256Digest) : Bool :=
  decide (ordinal ≠ 0) && decide (payloadBytes ≠ 0) &&
    decide (mediaType.utf8ByteSize ≠ 0) &&
    decide (mediaType.utf8ByteSize ≤ 255) && validMediaType mediaType &&
    decide (contentDigest ≠ zeroDigest)

structure CollaborationMessage where
  id : CollaborationMessageId
  rootTaskId : CollaborationTaskId
  taskId : CollaborationTaskId
  sender : ActorId
  receiver : ActorId
  ordinal : Nat
  predecessor : Option CollaborationMessageId
  mediaType : String
  payloadBytes : Nat
  contentDigest : Sha256Digest
  artifact : Option ArtifactHandoff
  revision : RevisionTuple
  ordinalBound : ordinal ≤ u32Max
  payloadBound : payloadBytes ≤ u32Max
  valid : validMessage ordinal payloadBytes mediaType contentDigest = true
  causal : ordinal = 1 ↔ predecessor = none
deriving DecidableEq

namespace CollaborationMessage

def new (id : CollaborationMessageId) (rootTaskId taskId : CollaborationTaskId)
    (sender receiver : ActorId) (ordinal : Nat)
    (predecessor : Option CollaborationMessageId) (mediaType : String)
    (payloadBytes : Nat) (contentDigest : Sha256Digest)
    (artifact : Option ArtifactHandoff) (revision : RevisionTuple)
    (ordinalBound : ordinal ≤ u32Max) (payloadBound : payloadBytes ≤ u32Max) :
    Except CollaborationError CollaborationMessage :=
  if valid : validMessage ordinal payloadBytes mediaType contentDigest = true
  then
    if causal : ordinal = 1 ↔ predecessor = none then
      .ok
        { id, rootTaskId, taskId, sender, receiver, ordinal, predecessor
          mediaType, payloadBytes, contentDigest, artifact, revision
          ordinalBound, payloadBound, valid, causal }
    else
      .error (reject .causalityViolation
        "message predecessor shape differs from its ordinal")
  else
    .error (reject .invalidInput
      "message ordinal, payload, media type, or digest is invalid")

theorem new_self (message : CollaborationMessage) :
    new message.id message.rootTaskId message.taskId message.sender
      message.receiver message.ordinal message.predecessor message.mediaType
      message.payloadBytes message.contentDigest message.artifact
      message.revision message.ordinalBound message.payloadBound =
    .ok message := by
  unfold new
  rw [dif_pos message.valid, dif_pos message.causal]

theorem fields_of_new {id : CollaborationMessageId}
    {rootTaskId taskId : CollaborationTaskId} {sender receiver : ActorId}
    {ordinal : Nat} {predecessor : Option CollaborationMessageId}
    {mediaType : String} {payloadBytes : Nat} {contentDigest : Sha256Digest}
    {artifact : Option ArtifactHandoff} {revision : RevisionTuple}
    {ordinalBound : ordinal ≤ u32Max} {payloadBound : payloadBytes ≤ u32Max}
    {message : CollaborationMessage}
    (h : new id rootTaskId taskId sender receiver ordinal predecessor mediaType
      payloadBytes contentDigest artifact revision ordinalBound payloadBound =
        .ok message) :
    message.id = id ∧ message.rootTaskId = rootTaskId ∧
      message.taskId = taskId ∧ message.sender = sender ∧
      message.receiver = receiver ∧ message.ordinal = ordinal ∧
      message.predecessor = predecessor ∧ message.mediaType = mediaType ∧
      message.payloadBytes = payloadBytes ∧
      message.contentDigest = contentDigest ∧ message.artifact = artifact ∧
      message.revision = revision := by
  unfold new at h
  split at h
  · split at h
    · cases h
      exact ⟨rfl, rfl, rfl, rfl, rfl, rfl, rfl, rfl, rfl, rfl, rfl, rfl⟩
    · cases h
  · cases h

end CollaborationMessage

structure MessageDelivery where
  message : CollaborationMessage
  acknowledged : Bool
deriving DecidableEq

namespace MessageDelivery

def pending (message : CollaborationMessage) : MessageDelivery :=
  ⟨message, false⟩

def id (delivery : MessageDelivery) : CollaborationMessageId :=
  delivery.message.id

def acknowledge (delivery : MessageDelivery) : MessageDelivery :=
  { delivery with acknowledged := true }

end MessageDelivery

end Peritus.Collaboration.Task
