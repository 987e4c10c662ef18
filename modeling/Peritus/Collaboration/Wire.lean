import Peritus.Codec.Frame
import Peritus.Codec.Revision
import Peritus.Collaboration.Canonical

/-!
The records of a collaboration on the wire, and the checkpoint frame: what is
written of a valid state is read back as that state.
-/

namespace Peritus.Collaboration.Wire

open Peritus.Types SortedTable Codec.Writer Codec.Reader Codec.Frame Codec.Revision
open Limits Collaboration.Task State Canonical

/-! ### Tags -/

def phaseOfTag : Nat → Option CollaborationPhase
  | 1 => some .active
  | 2 => some .paused
  | 3 => some .terminal
  | _ => none

def taskPhaseOfTag : Nat → Option TaskPhase
  | 1 => some .offered
  | 2 => some .accepted
  | 3 => some .active
  | 4 => some .cancelling
  | 5 => some .terminal
  | _ => none

def taskTerminalOfTag : Nat → Option TaskTerminalKind
  | 1 => some .succeeded
  | 2 => some .failed
  | 3 => some .rejected
  | 4 => some .cancelled
  | 5 => some .abandoned
  | _ => none

def collaborationTerminalOfTag : Nat → Option CollaborationTerminalKind
  | 1 => some .completed
  | 2 => some .failed
  | 3 => some .cancelled
  | 4 => some .abandoned
  | 5 => some .unsatisfiedJoin
  | _ => none

def joinOfTag : Nat → Option JoinPolicy
  | 1 => some .noChildren
  | 2 => some .allRequired
  | 3 => some .anyRequired
  | _ => none

def roleOfTag : Nat → Option HarnessRole
  | 1 => some .writer
  | 2 => some .reviewer
  | 3 => some .fixer
  | 4 => some .evaluator
  | 5 => some .evolver
  | _ => none

/-- Reading takes back a tag of one byte that names its variant. -/
theorem reads_tag {α : Type} {tag : α → Nat} {ofTag : Nat → Option α}
    (htag : ∀ value, tag value < 256 ∧ ofTag (tag value) = some value)
    (value : α) : Reads (readTag ofTag) (writeU8 (tag value)) value :=
  .tag (htag value).1 (htag value).2

theorem reads_phase (phase : CollaborationPhase) :
    Reads (readTag phaseOfTag) (writeU8 (phaseTag phase)) phase :=
  reads_tag (fun value => by cases value <;> exact ⟨by decide, rfl⟩) phase

theorem reads_taskPhase (phase : TaskPhase) :
    Reads (readTag taskPhaseOfTag) (writeU8 (taskPhaseTag phase)) phase :=
  reads_tag (fun value => by cases value <;> exact ⟨by decide, rfl⟩) phase

theorem reads_taskTerminalKind (kind : TaskTerminalKind) :
    Reads (readTag taskTerminalOfTag) (writeU8 (taskTerminalTag kind)) kind :=
  reads_tag (fun value => by cases value <;> exact ⟨by decide, rfl⟩) kind

theorem reads_terminalKind (kind : CollaborationTerminalKind) :
    Reads (readTag collaborationTerminalOfTag)
      (writeU8 (collaborationTerminalTag kind)) kind :=
  reads_tag (fun value => by cases value <;> exact ⟨by decide, rfl⟩) kind

theorem reads_join (policy : JoinPolicy) :
    Reads (readTag joinOfTag) (writeU8 (joinTag policy)) policy :=
  reads_tag (fun value => by cases value <;> exact ⟨by decide, rfl⟩) policy

theorem reads_role (role : HarnessRole) :
    Reads (readTag roleOfTag) (writeU8 (roleTag role)) role :=
  reads_tag (fun value => by cases value <;> exact ⟨by decide, rfl⟩) role

/-! ### Writers -/

def writeLimits (value : CollaborationLimits) : Payload :=
  writeU32 value.tasks ++ writeU16 value.depth ++ writeU16 value.fanOut
    ++ writeU32 value.messages ++ writeU16 value.recipients
    ++ writeU32 value.payloadBytes ++ writeU16 value.artifactReferences
    ++ writeU64 value.commandBytes ++ writeU64 value.stateBytes

def writeDelegation (value : Delegation) : Payload :=
  writeId value.taskId ++ writeId value.rootTaskId
    ++ writeOption value.parentTaskId writeId ++ writeU16 value.depth
    ++ writeId value.owner ++ writeU8 (roleTag value.role)
    ++ writeId value.parentOwner ++ writeId value.workId
    ++ writeDigest value.goalDigest ++ writeBool value.required
    ++ writeU8 (joinTag value.joinPolicy)

def writeBinding (value : CollaborationBinding) : Payload :=
  writeId value.id ++ writeId value.runId ++ writeRevision value.revision
    ++ writeId value.schedulerId ++ writeId value.rootTaskId
    ++ writeLimits value.limits ++ writeDelegation value.rootAssignment
    ++ writeDigest value.digest

def writeReservation (value : ReservationObservation) : Payload :=
  writeId value.workId ++ writeId value.dispatchId ++ writeId value.owner
    ++ writeRevision value.revision

def writeArtifact (value : ArtifactHandoff) : Payload :=
  writeId value.artifactId ++ writeDigest value.artifactDigest
    ++ writeDigest value.evidenceDigest ++ writeRevision value.revision

def writeTaskTerminal (value : TaskTerminal) : Payload :=
  writeU8 (taskTerminalTag value.kind)
    ++ writeOption value.handoff writeArtifact
    ++ writeDigest value.causeDigest

def writeMessage (value : CollaborationMessage) : Payload :=
  writeId value.id ++ writeId value.rootTaskId ++ writeId value.taskId
    ++ writeId value.sender ++ writeId value.receiver
    ++ writeU32 value.ordinal ++ writeOption value.predecessor writeId
    ++ writeStr value.mediaType ++ writeU32 value.payloadBytes
    ++ writeDigest value.contentDigest
    ++ writeOption value.artifact writeArtifact
    ++ writeRevision value.revision

def writeTask (value : CollaborationTask) : Payload :=
  writeDelegation value.assignment ++ writeU8 (taskPhaseTag value.phase)
    ++ writeOption value.reservation writeReservation
    ++ writeOption value.terminal writeTaskTerminal

def writeDelivery (value : MessageDelivery) : Payload :=
  writeMessage value.message ++ writeBool value.acknowledged

def writeTerminal (value : CollaborationTerminal) : Payload :=
  writeU8 (collaborationTerminalTag value.kind)
    ++ writeList value.blockingTasks writeId ++ writeDigest value.digest

/-- The payload of the family-75 checkpoint. -/
def writeState (state : CollaborationState) : Payload :=
  writeBinding state.binding ++ writeU8 (phaseTag state.phase)
    ++ writeU64 state.sequence.get ++ writeId state.lastEventId
    ++ writeDigest state.stateDigest ++ writeList state.tasks writeTask
    ++ writeList state.messages writeDelivery
    ++ writeList state.usedCommands writeId
    ++ writeOption state.terminal writeTerminal

/-! ### Readers -/

def readLimits : Reading CollaborationLimits := do
  let start ← offset
  let tasks ← readU32
  let depth ← readU16
  let fanOut ← readU16
  let messages ← readU32
  let recipients ← readU16
  let payloadBytes ← readU32
  let artifactReferences ← readU16
  let commandBytes ← readU64
  let stateBytes ← readU64
  validatedAt start (CollaborationLimits.new tasks depth fanOut messages
    recipients payloadBytes artifactReferences commandBytes stateBytes)

/-- What the fields of an assignment build; a root is rebuilt from its own
identity and owner. -/
def buildDelegation (taskId rootTaskId : CollaborationTaskId)
    (parentTaskId : Option CollaborationTaskId) (depth : Nat) (owner : ActorId)
    (role : HarnessRole) (parentOwner : ActorId)
    (workId : Scheduler.Limits.WorkId) (goalDigest : Sha256Digest)
    (required : Bool) (joinPolicy : JoinPolicy) (depthBound : depth ≤ u16Max) :
    Except CollaborationError Delegation :=
  match parentTaskId with
  | some parent =>
      Delegation.child taskId rootTaskId parent depth owner role parentOwner workId
        goalDigest required joinPolicy depthBound
  | none =>
      if required then
        Delegation.root taskId owner role workId goalDigest joinPolicy
      else .error (reject .invalidInput "root assignment is not required")

def readDelegation : Reading Delegation := do
  let taskId ← readId
  let rootTaskId ← readId
  let parentTaskId ← readOption readId
  let depth ← readBounded 2
  let owner ← readId
  let role ← readTag roleOfTag
  let parentOwner ← readId
  let workId ← readId
  let goalDigest ← readDigest
  let required ← readBool
  let joinPolicy ← readTag joinOfTag
  validated (buildDelegation taskId rootTaskId parentTaskId depth.1 owner role
    parentOwner workId goalDigest required joinPolicy
    (Nat.le_of_lt_succ depth.2))

def readReservation : Reading ReservationObservation := do
  let workId ← readId
  let dispatchId ← readId
  let owner ← readId
  let revision ← readRevision
  return ⟨workId, dispatchId, owner, revision⟩

def readArtifact : Reading ArtifactHandoff := do
  let artifactId ← readId
  let artifactDigest ← readDigest
  let evidenceDigest ← readDigest
  let revision ← readRevision
  validated (ArtifactHandoff.new artifactId artifactDigest evidenceDigest
    revision)

def readTaskTerminal : Reading TaskTerminal := do
  let kind ← readTag taskTerminalOfTag
  let handoff ← readOption readArtifact
  let causeDigest ← readDigest
  validated (TaskTerminal.new kind handoff causeDigest)

def readMessage : Reading CollaborationMessage := do
  let id ← readId
  let rootTaskId ← readId
  let taskId ← readId
  let sender ← readId
  let receiver ← readId
  let ordinal ← readBounded 4
  let predecessor ← readOption readId
  let mediaType ← readStr
  let payloadBytes ← readBounded 4
  let contentDigest ← readDigest
  let artifact ← readOption readArtifact
  let revision ← readRevision
  validated (CollaborationMessage.new id rootTaskId taskId sender receiver
    ordinal.1 predecessor mediaType payloadBytes.1 contentDigest artifact
    revision (Nat.le_of_lt_succ ordinal.2) (Nat.le_of_lt_succ payloadBytes.2))

def readTask : Reading CollaborationTask := do
  let assignment ← readDelegation
  let phase ← readTag taskPhaseOfTag
  let reservation ← readOption readReservation
  let terminal ← readOption readTaskTerminal
  return ⟨assignment, phase, reservation, terminal⟩

def readDelivery : Reading MessageDelivery := do
  let message ← readMessage
  let acknowledged ← readBool
  return ⟨message, acknowledged⟩

def readTerminal : Reading CollaborationTerminal := do
  let kind ← readTag collaborationTerminalOfTag
  let count ← boundedLen 65535
  let blockingTasks ← readMany readId count
  require (ascending (fun id : OpaqueIdentifier => id) blockingTasks)
    .invalidDomainValue
  let digest ← readDigest
  return ⟨kind, blockingTasks, digest⟩

/-- The most consumed commands that a checkpoint may list. -/
def maximumCommands (limits : CollaborationLimits) : Nat :=
  min (min (limits.tasks + min (limits.messages * 2) u32Max) u32Max + 65535)
    u32Max

section Hash

variable (sha256 : List UInt8 → Sha256Digest)

def readBinding : Reading CollaborationBinding := do
  let id ← readId
  let runId ← readId
  let revision ← readRevision
  let schedulerId ← readId
  let rootTaskId ← readId
  let limits ← readLimits
  let rootAssignment ← readDelegation
  let digest ← readDigest
  let binding : CollaborationBinding :=
    ⟨id, runId, revision, schedulerId, rootTaskId, limits, rootAssignment,
      digest⟩
  validated (validateBinding sha256 binding)
  return binding

def readState : Reading CollaborationState := do
  let binding ← readBinding sha256
  let phase ← readTag phaseOfTag
  let sequence ← readPositive
  let lastEventId ← readId
  let stateDigest ← readDigest
  let taskCount ← boundedLen binding.limits.tasks
  require (decide (taskCount ≠ 0)) .invalidDomainValue
  let tasks ← readMany readTask taskCount
  require (ascending CollaborationTask.id tasks) .invalidDomainValue
  let messageCount ← boundedLen binding.limits.messages
  let messages ← readMany readDelivery messageCount
  require (ascending MessageDelivery.id messages) .invalidDomainValue
  let commandCount ← boundedLen (maximumCommands binding.limits)
  let usedCommands ← readMany readId commandCount
  let terminal ← readOption readTerminal
  let state : CollaborationState :=
    ⟨binding, phase, sequence, lastEventId, stateDigest, tasks, messages,
      usedCommands, terminal⟩
  validated (validateInert sha256 state)
  return state

end Hash

def stateFamily : Nat := 75

def schemaVersion : Nat := 1

def encodeStateFrame (state : CollaborationState) (limits : CodecLimits) :
    Except CodecError (List UInt8) :=
  encodeMessage stateFamily schemaVersion (writeState state) limits

def decodeStateFrame (sha256 : List UInt8 → Sha256Digest)
    (input : List UInt8) (limits : CodecLimits) :
    Except CodecError CollaborationState :=
  decodeMessage stateFamily schemaVersion (readState sha256) input limits

/-! ### Reading records back -/

theorem reads_limits (value : CollaborationLimits) :
    Reads readLimits (writeLimits value) value := by
  obtain ⟨htasks, hdepth, hfanOut, hmessages, hrecipients, hpayload,
    hartifacts, hcommand, hstate⟩ := value.le_production
  unfold readLimits writeLimits
  simp only [List.append_assoc]
  refine .offset fun start => ?_
  refine (Reads.u32 (by omega)).bind ?_
  refine (Reads.u16 (by omega)).bind ?_
  refine (Reads.u16 (by omega)).bind ?_
  refine (Reads.u32 (by omega)).bind ?_
  refine (Reads.u16 (by omega)).bind ?_
  refine (Reads.u32 (by omega)).bind ?_
  refine (Reads.u16 (by omega)).bind ?_
  refine (Reads.u64 (by omega)).bind ?_
  rw [← List.append_nil (writeU64 value.stateBytes)]
  refine (Reads.u64 (by omega)).bind ?_
  exact .validatedAt value.new_self

theorem buildDelegation_self (value : Delegation) :
    buildDelegation value.taskId value.rootTaskId value.parentTaskId
      value.depth value.owner value.role value.parentOwner value.workId
      value.goalDigest value.required value.joinPolicy value.depthBound =
    .ok value := by
  obtain ⟨taskId, rootTaskId, parentTaskId, depth, owner, role, parentOwner,
    workId, goalDigest, required, joinPolicy, depthBound, goal, rootShape,
    childShape, rootRequired⟩ := value
  cases parentTaskId with
  | some parent =>
      exact Delegation.new_self ⟨taskId, rootTaskId, some parent, depth, owner,
        role, parentOwner, workId, goalDigest, required, joinPolicy,
        depthBound, goal, rootShape, childShape, rootRequired⟩
  | none =>
      obtain ⟨rfl, rfl, rfl⟩ := rootShape rfl
      obtain rfl : required = true := rootRequired rfl
      exact Delegation.new_self ⟨taskId, taskId, none, 0, owner, role, owner,
        workId, goalDigest, true, joinPolicy, depthBound, goal, rootShape,
        childShape, rootRequired⟩

theorem reads_delegation (value : Delegation) :
    Reads readDelegation (writeDelegation value) value := by
  unfold readDelegation writeDelegation
  simp only [List.append_assoc]
  refine (Reads.id _).bind ?_
  refine (Reads.id _).bind ?_
  refine (Reads.option fun id _ => Reads.id id).bind ?_
  refine (Reads.bounded (Nat.lt_succ_of_le value.depthBound)).bind ?_
  refine (Reads.id _).bind ?_
  refine (reads_role _).bind ?_
  refine (Reads.id _).bind ?_
  refine (Reads.id _).bind ?_
  refine (Reads.digest _).bind ?_
  refine (Reads.bool _).bind ?_
  rw [← List.append_nil (writeU8 (joinTag value.joinPolicy))]
  refine (reads_join _).bind ?_
  exact .checked (buildDelegation_self value)

theorem reads_reservation (value : ReservationObservation) :
    Reads readReservation (writeReservation value) value := by
  unfold readReservation writeReservation
  simp only [List.append_assoc]
  refine (Reads.id _).bind ?_
  refine (Reads.id _).bind ?_
  refine (Reads.id _).bind ?_
  exact (reads_revision value.revision).map _

theorem reads_artifact (value : ArtifactHandoff) :
    Reads readArtifact (writeArtifact value) value := by
  unfold readArtifact writeArtifact
  simp only [List.append_assoc]
  refine (Reads.id _).bind ?_
  refine (Reads.digest _).bind ?_
  refine (Reads.digest _).bind ?_
  rw [← List.append_nil (writeRevision value.revision)]
  refine (reads_revision _).bind ?_
  exact .checked value.new_self

theorem reads_taskTerminal (value : TaskTerminal) :
    Reads readTaskTerminal (writeTaskTerminal value) value := by
  unfold readTaskTerminal writeTaskTerminal
  simp only [List.append_assoc]
  refine (reads_taskTerminalKind _).bind ?_
  refine (Reads.option fun handoff _ => reads_artifact handoff).bind ?_
  rw [← List.append_nil (writeDigest value.causeDigest)]
  refine (Reads.digest _).bind ?_
  exact .checked value.new_self

theorem reads_message (value : CollaborationMessage) :
    Reads readMessage (writeMessage value) value := by
  unfold readMessage writeMessage
  simp only [List.append_assoc]
  refine (Reads.id _).bind ?_
  refine (Reads.id _).bind ?_
  refine (Reads.id _).bind ?_
  refine (Reads.id _).bind ?_
  refine (Reads.id _).bind ?_
  refine (Reads.bounded (Nat.lt_succ_of_le value.ordinalBound)).bind ?_
  refine (Reads.option fun id _ => Reads.id id).bind ?_
  refine (Reads.str _).bind ?_
  refine (Reads.bounded (Nat.lt_succ_of_le value.payloadBound)).bind ?_
  refine (Reads.digest _).bind ?_
  refine (Reads.option fun artifact _ => reads_artifact artifact).bind ?_
  rw [← List.append_nil (writeRevision value.revision)]
  refine (reads_revision _).bind ?_
  exact .checked value.new_self

theorem reads_task (value : CollaborationTask) :
    Reads readTask (writeTask value) value := by
  unfold readTask writeTask
  simp only [List.append_assoc]
  refine (reads_delegation _).bind ?_
  refine (reads_taskPhase _).bind ?_
  refine (Reads.option fun found _ => reads_reservation found).bind ?_
  exact (Reads.option fun found _ => reads_taskTerminal found).map _

theorem reads_delivery (value : MessageDelivery) :
    Reads readDelivery (writeDelivery value) value := by
  unfold readDelivery writeDelivery
  refine (reads_message _).bind ?_
  exact (Reads.bool _).map _

theorem reads_terminal {value : CollaborationTerminal}
    (hcount : value.blockingTasks.length ≤ 65535)
    (hsorted : ascending (fun id : OpaqueIdentifier => id)
      value.blockingTasks = true) :
    Reads readTerminal (writeTerminal value) value := by
  unfold readTerminal writeTerminal writeList
  simp only [List.append_assoc]
  refine (reads_terminalKind _).bind ?_
  refine (Reads.boundedLen hcount).bind ?_
  refine (Reads.many fun id _ => Reads.id id).bind ?_
  refine .require hsorted ?_
  exact (Reads.digest _).map _

section State

variable {sha256 : List UInt8 → Sha256Digest} {state : CollaborationState}

theorem reads_binding {value : CollaborationBinding}
    (hvalid : validateBinding sha256 value = .ok ()) :
    Reads (readBinding sha256) (writeBinding value) value := by
  unfold readBinding writeBinding
  simp only [List.append_assoc]
  refine (Reads.id _).bind ?_
  refine (Reads.id _).bind ?_
  refine (reads_revision _).bind ?_
  refine (Reads.id _).bind ?_
  refine (Reads.id _).bind ?_
  refine (reads_limits _).bind ?_
  refine (reads_delegation _).bind ?_
  rw [← List.append_nil (writeDigest value.digest)]
  refine (Reads.digest _).bind ?_
  exact .validated hvalid (.pure _)

theorem maximumCommands_eq (limits : CollaborationLimits) :
    maximumCommands limits = limits.tasks + 2 * limits.messages + 65535 := by
  obtain ⟨htasks, _, _, hmessages, _⟩ := limits.le_production
  unfold maximumCommands u32Max
  omega

/-- What the decoder demands of a state beside its inert validation. -/
structure Listed (state : CollaborationState) : Prop where
  nonempty : state.tasks.length ≠ 0
  tasks : state.tasks.length ≤ state.limits.tasks
  sorted : ascending CollaborationTask.id state.tasks = true
  messages : state.messages.length ≤ state.limits.messages
  posted : ascending MessageDelivery.id state.messages = true
  commands : state.usedCommands.length ≤ maximumCommands state.limits
  blocking : ∀ terminal ∈ state.terminal,
    terminal.blockingTasks.length ≤ 65535 ∧
      ascending (fun id : OpaqueIdentifier => id) terminal.blockingTasks = true

theorem reads_state (hlisted : Listed state)
    (hbinding : validateBinding sha256 state.binding = .ok ())
    (hvalid : validateInert sha256 state = .ok ()) :
    Reads (readState sha256) (writeState state) state := by
  unfold readState writeState writeList
  simp only [List.append_assoc]
  refine (reads_binding hbinding).bind ?_
  refine (reads_phase _).bind ?_
  refine (Reads.positive _).bind ?_
  refine (Reads.id _).bind ?_
  refine (Reads.digest _).bind ?_
  refine (Reads.boundedLen hlisted.tasks).bind ?_
  refine .require (decide_eq_true hlisted.nonempty) ?_
  refine (Reads.many fun task _ => reads_task task).bind ?_
  refine .require hlisted.sorted ?_
  refine (Reads.boundedLen hlisted.messages).bind ?_
  refine (Reads.many fun delivery _ => reads_delivery delivery).bind ?_
  refine .require hlisted.posted ?_
  refine (Reads.boundedLen hlisted.commands).bind ?_
  refine (Reads.many fun id _ => Reads.id id).bind ?_
  rw [← List.append_nil (writeOption state.terminal writeTerminal)]
  refine (Reads.option fun terminal hterminal =>
    reads_terminal (hlisted.blocking terminal hterminal).1
      (hlisted.blocking terminal hterminal).2).bind ?_
  exact .validated hvalid (.pure _)

/-- A valid checkpoint comes back from its own bytes. -/
theorem decodeStateFrame_encodeStateFrame (hlisted : Listed state)
    (hbinding : validateBinding sha256 state.binding = .ok ())
    (hvalid : validateInert sha256 state = .ok ())
    {limits : CodecLimits} {frame : List UInt8}
    (h : encodeStateFrame state limits = .ok frame) :
    decodeStateFrame sha256 frame limits = .ok state :=
  decodeMessage_encodeMessage (reads_state hlisted hbinding hvalid)
    (by decide) (by decide) h

end State

end Peritus.Collaboration.Wire
