import Peritus.Collaboration.State
import Peritus.Scheduler.Canonical

/-!
The bytes that collaboration digests are taken of, and the inert validation of
a binding and of a whole state.
-/

namespace Peritus.Collaboration.Canonical

open Peritus.Types Bytes Checked SortedTable Limits Collaboration.Task State
open Peritus.Scheduler.Canonical
  (encodeId encodeDigest encodeLen encodeOption encodeRevision)

/-! ### Tags -/

def phaseTag : CollaborationPhase → Nat
  | .active => 1
  | .paused => 2
  | .terminal => 3

def taskPhaseTag : TaskPhase → Nat
  | .offered => 1
  | .accepted => 2
  | .active => 3
  | .cancelling => 4
  | .terminal => 5

def taskTerminalTag : TaskTerminalKind → Nat
  | .succeeded => 1
  | .failed => 2
  | .rejected => 3
  | .cancelled => 4
  | .abandoned => 5

def collaborationTerminalTag : CollaborationTerminalKind → Nat
  | .completed => 1
  | .failed => 2
  | .cancelled => 3
  | .abandoned => 4
  | .unsatisfiedJoin => 5

def joinTag : JoinPolicy → Nat
  | .noChildren => 1
  | .allRequired => 2
  | .anyRequired => 3

def roleTag : HarnessRole → Nat
  | .writer => 1
  | .reviewer => 2
  | .fixer => 3
  | .evaluator => 4
  | .evolver => 5

/-! ### Encoders -/

def encodeBool (value : Bool) : List UInt8 :=
  beBytes 1 (if value then 1 else 0)

def encodeText (value : String) : List UInt8 :=
  encodeLen value.utf8ByteSize ++ value.toUTF8.toList

def encodeDelegation (value : Delegation) : List UInt8 :=
  encodeId value.taskId ++ encodeId value.rootTaskId
    ++ encodeOption value.parentTaskId encodeId ++ beBytes 2 value.depth
    ++ encodeId value.owner ++ beBytes 1 (roleTag value.role)
    ++ encodeId value.parentOwner ++ encodeId value.workId
    ++ encodeDigest value.goalDigest ++ encodeBool value.required
    ++ beBytes 1 (joinTag value.joinPolicy)

def encodeBindingFields (value : CollaborationBinding) : List UInt8 :=
  encodeId value.id ++ encodeId value.runId ++ encodeRevision value.revision
    ++ encodeId value.schedulerId ++ encodeId value.rootTaskId
    ++ beBytes 4 value.limits.tasks ++ beBytes 2 value.limits.depth
    ++ beBytes 2 value.limits.fanOut ++ beBytes 4 value.limits.messages
    ++ beBytes 2 value.limits.recipients
    ++ beBytes 4 value.limits.payloadBytes
    ++ beBytes 2 value.limits.artifactReferences
    ++ beBytes 8 value.limits.commandBytes
    ++ beBytes 8 value.limits.stateBytes
    ++ encodeDelegation value.rootAssignment

def encodeBinding (value : CollaborationBinding) : List UInt8 :=
  encodeBindingFields value ++ encodeDigest value.digest

def encodeReservation (value : ReservationObservation) : List UInt8 :=
  encodeId value.workId ++ encodeId value.dispatchId ++ encodeId value.owner
    ++ encodeRevision value.revision

def encodeArtifact (value : ArtifactHandoff) : List UInt8 :=
  encodeId value.artifactId ++ encodeDigest value.artifactDigest
    ++ encodeDigest value.evidenceDigest ++ encodeRevision value.revision

def encodeTaskTerminal (value : TaskTerminal) : List UInt8 :=
  beBytes 1 (taskTerminalTag value.kind)
    ++ encodeOption value.handoff encodeArtifact
    ++ encodeDigest value.causeDigest

def encodeTask (value : CollaborationTask) : List UInt8 :=
  encodeDelegation value.assignment ++ beBytes 1 (taskPhaseTag value.phase)
    ++ encodeOption value.reservation encodeReservation
    ++ encodeOption value.terminal encodeTaskTerminal

def encodeMessage (value : CollaborationMessage) : List UInt8 :=
  encodeId value.id ++ encodeId value.rootTaskId ++ encodeId value.taskId
    ++ encodeId value.sender ++ encodeId value.receiver
    ++ beBytes 4 value.ordinal ++ encodeOption value.predecessor encodeId
    ++ encodeText value.mediaType ++ beBytes 4 value.payloadBytes
    ++ encodeDigest value.contentDigest
    ++ encodeOption value.artifact encodeArtifact
    ++ encodeRevision value.revision

def encodeTerminalFields (value : CollaborationTerminal) : List UInt8 :=
  beBytes 1 (collaborationTerminalTag value.kind)
    ++ encodeLen value.blockingTasks.length
    ++ value.blockingTasks.flatMap encodeId

def encodeTerminal (value : CollaborationTerminal) : List UInt8 :=
  encodeTerminalFields value ++ encodeDigest value.digest

def encodeState (state : CollaborationState) : List UInt8 :=
  encodeBinding state.binding ++ beBytes 1 (phaseTag state.phase)
    ++ beBytes 8 state.sequence.get ++ encodeId state.lastEventId
    ++ encodeLen state.tasks.length ++ state.tasks.flatMap encodeTask
    ++ encodeLen state.messages.length
    ++ (state.messages.flatMap fun delivery =>
      encodeMessage delivery.message ++ encodeBool delivery.acknowledged)
    ++ encodeLen state.usedCommands.length
    ++ state.usedCommands.flatMap encodeId
    ++ encodeOption state.terminal encodeTerminal

section Hash

variable (sha256 : List UInt8 → Sha256Digest)

def bindingDigest (binding : CollaborationBinding) : Sha256Digest :=
  sha256 ("peritus-d3-collaboration-binding-v1\x00".toUTF8.toList
    ++ encodeBindingFields binding)

/-- The digest of everything but the state's own digest field. -/
def stateDigest (state : CollaborationState) : Sha256Digest :=
  sha256 ("peritus-d3-collaboration-state-v1\x00".toUTF8.toList
    ++ encodeState state)

def terminalDigest (terminal : CollaborationTerminal) : Sha256Digest :=
  sha256 ("peritus-d3-collaboration-terminal-v1\x00".toUTF8.toList
    ++ encodeTerminalFields terminal)

/-! ### Validation -/

def validateBinding (binding : CollaborationBinding) :
    Except CollaborationError Unit :=
  ensure (decide (binding.rootTaskId = binding.rootAssignment.taskId) &&
      decide (binding.rootAssignment.rootTaskId = binding.rootTaskId) &&
      decide (binding.rootAssignment.parentTaskId = none) &&
      decide (binding.rootAssignment.depth = 0) &&
      binding.rootAssignment.required &&
      decide (bindingDigest sha256 binding = binding.digest))
    (reject .bindingMismatch
      "decoded collaboration binding differs from its canonical root or digest")

end Hash

def validateCollections (state : CollaborationState) :
    Except CollaborationError Unit :=
  ensure (!state.tasks.isEmpty &&
      decide (state.tasks.length ≤ state.limits.tasks) &&
      decide (state.messages.length ≤ state.limits.messages) &&
      !state.usedCommands.isEmpty &&
      decide (state.sequence.get = state.usedCommands.length) &&
      decide (state.estimatedEncodedBytes ≤ state.limits.stateBytes) &&
      ascending CollaborationTask.id state.tasks &&
      ascending MessageDelivery.id state.messages &&
      decide state.usedCommands.Nodup)
    (reject .nonCanonical
      "decoded collaboration state exceeds limits or contains noncanonical identities")

def validateParent (state : CollaborationState) (assignment : Delegation) :
    Except CollaborationError Unit :=
  match assignment.parentTaskId with
  | none => .ok ()
  | some parentId =>
      match state.task parentId with
      | none =>
          .error (reject .causalityViolation "decoded task parent is absent")
      | some parent =>
          ensure (decide (assignment.depth =
                min (parent.assignment.depth + 1) u16Max) &&
              decide (assignment.parentOwner = parent.assignment.owner) &&
              decide ((state.children parentId).length ≤ state.limits.fanOut))
            (reject .causalityViolation
              "decoded task parent, depth, owner, or fan-out is invalid")

/-- What the phase of a task says about its reservation and its outcome. -/
def lifecycle (state : CollaborationState) (task : CollaborationTask) : Bool :=
  let held := task.reservation.isSome
  (!decide (task.phase = .active ∨ task.phase = .cancelling) || held) &&
    (!decide (task.phase = .offered ∨ task.phase = .accepted) || !held) &&
    decide (task.phase = .terminal ↔ task.terminal ≠ none) &&
    (task.reservation.all fun reservation =>
      decide (reservation.workId = task.assignment.workId) &&
        decide (reservation.owner = task.assignment.owner) &&
        decide (reservation.revision = state.binding.revision)) &&
    (task.terminal.bind TaskTerminal.handoff).all fun handoff =>
      decide (handoff.revision = state.binding.revision)

def validateTask (state : CollaborationState) (task : CollaborationTask) :
    Except CollaborationError Unit := do
  let assignment := task.assignment
  ensure (decide (assignment.rootTaskId = state.binding.rootTaskId) &&
      decide (assignment.depth ≤ state.limits.depth) &&
      decide ((state.tasks.filter fun other =>
        decide (other.assignment.workId = assignment.workId)).length = 1))
    (reject .causalityViolation
      "decoded task root, depth, or scheduler work binding is invalid")
  validateParent state assignment
  ensure (lifecycle state task)
    (reject .bindingMismatch
      "decoded task lifecycle, reservation, terminal, or revision is inconsistent")

def validateMessage (state : CollaborationState) (delivery : MessageDelivery) :
    Except CollaborationError Unit :=
  let message := delivery.message
  ensure (decide (message.rootTaskId = state.binding.rootTaskId) &&
      decide (message.revision = state.binding.revision) &&
      decide (message.payloadBytes ≤ state.limits.payloadBytes) &&
      (state.task message.taskId).isSome &&
      message.predecessor.all fun id =>
        (state.message id).any fun predecessor =>
          decide (predecessor.message.taskId = message.taskId) &&
            decide (min (predecessor.message.ordinal + 1) u32Max =
              message.ordinal))
    (reject .causalityViolation
      "decoded message root, task, predecessor, payload, or revision is invalid")

section Hash

variable (sha256 : List UInt8 → Sha256Digest)

/-- Everything a decoded state is checked for. -/
def validateInert (state : CollaborationState) :
    Except CollaborationError Unit := do
  validateBinding sha256 state.binding
  validateCollections state
  match state.task state.binding.rootTaskId with
  | none =>
      .error (reject .causalityViolation "decoded state has no root task")
  | some root =>
      ensure (decide (root.assignment = state.binding.rootAssignment))
        (reject .bindingMismatch
          "decoded state root differs from immutable binding")
  forEach (validateTask state) state.tasks
  forEach (validateMessage state) state.messages
  ensure (decide (state.phase = .terminal ↔ state.terminal ≠ none) &&
      (state.terminal.all fun terminal =>
        decide (terminalDigest sha256 terminal = terminal.digest)) &&
      decide (stateDigest sha256 state = state.stateDigest))
    (reject .bindingMismatch
      "decoded aggregate terminal phase or digest is inconsistent")

end Hash

end Peritus.Collaboration.Canonical
