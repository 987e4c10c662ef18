import Peritus.Collaboration.Reducer
import Peritus.Collaboration.Wire

/-!
The command and event frames of a collaboration, and the exact canonical size
of every record that the commit path measures.
-/

namespace Peritus.Collaboration.Measure

open Codec.Writer Codec.Revision Limits Collaboration.Task State Canonical
open Reducer Wire

/-! ### Command and event frames -/

def writeKind : CollaborationCommandKind → Payload
  | .start binding => writeU8 1 ++ writeBinding binding
  | .offerDelegation offeredBy assignment =>
      writeU8 2 ++ writeId offeredBy ++ writeDelegation assignment
  | .acceptDelegation taskId acceptedBy =>
      writeU8 3 ++ writeId taskId ++ writeId acceptedBy
  | .rejectDelegation taskId rejectedBy reasonDigest =>
      writeU8 4 ++ writeId taskId ++ writeId rejectedBy
        ++ writeDigest reasonDigest
  | .activateTask taskId observation =>
      writeU8 5 ++ writeId taskId ++ writeReservation observation
  | .sendMessage message => writeU8 6 ++ writeMessage message
  | .acknowledgeMessage messageId receiver =>
      writeU8 7 ++ writeId messageId ++ writeId receiver
  | .completeTask taskId completedBy terminal =>
      writeU8 8 ++ writeId taskId ++ writeId completedBy
        ++ writeTaskTerminal terminal
  | .abandonTask taskId abandonedBy reasonDigest =>
      writeU8 9 ++ writeId taskId ++ writeId abandonedBy
        ++ writeDigest reasonDigest
  | .cancelTask taskId requestedBy reasonDigest =>
      writeU8 10 ++ writeId taskId ++ writeId requestedBy
        ++ writeDigest reasonDigest
  | .acknowledgeCancellation taskId owner =>
      writeU8 11 ++ writeId taskId ++ writeId owner
  | .pause requestedBy => writeU8 12 ++ writeId requestedBy
  | .resume requestedBy => writeU8 13 ++ writeId requestedBy
  | .finalize => writeU8 14

/-- The payload of the family-73 command. -/
def writeCommand (command : CollaborationCommand) : Payload :=
  writeId command.commandId ++ writeId command.eventId
    ++ writeId command.runId ++ writeU64 command.expectedSequence
    ++ writeOption command.expectedPreviousEvent writeId
    ++ writeDigest command.priorStateDigest ++ writeRevision command.revision
    ++ writeKind command.kind

/-- The command that an event records. -/
def recordedKind : CollaborationEventKind → CollaborationCommandKind
  | .started binding => .start binding
  | .delegationOffered offeredBy assignment => .offerDelegation offeredBy assignment
  | .delegationAccepted taskId acceptedBy => .acceptDelegation taskId acceptedBy
  | .delegationRejected taskId rejectedBy reasonDigest =>
      .rejectDelegation taskId rejectedBy reasonDigest
  | .taskActivated taskId observation => .activateTask taskId observation
  | .messageSent message => .sendMessage message
  | .messageAcknowledged messageId receiver => .acknowledgeMessage messageId receiver
  | .taskCompleted taskId completedBy terminal =>
      .completeTask taskId completedBy terminal
  | .taskAbandoned taskId abandonedBy reasonDigest =>
      .abandonTask taskId abandonedBy reasonDigest
  | .cancellationPropagated taskId requestedBy reasonDigest _ =>
      .cancelTask taskId requestedBy reasonDigest
  | .cancellationAcknowledged taskId owner => .acknowledgeCancellation taskId owner
  | .paused requestedBy => .pause requestedBy
  | .resumed requestedBy => .resume requestedBy
  | .finalized => .finalize

/-- The command that an event is written as; a cancellation has its effects too. -/
def commandKind : CollaborationEventKind → Option CollaborationCommandKind
  | .cancellationPropagated _ _ _ _ => none
  | kind => some (recordedKind kind)

def writeEffect (effect : CancellationEffect) : Payload :=
  writeId effect.taskId ++ writeU8 (taskPhaseTag effect.resultingPhase)

def writeEventKind : CollaborationEventKind → Payload
  | .cancellationPropagated taskId requestedBy reasonDigest effects =>
      writeU8 10 ++ writeId taskId ++ writeId requestedBy
        ++ writeDigest reasonDigest ++ writeList effects writeEffect
  | other => (commandKind other).elim [] writeKind

/-- The payload of the family-74 event. -/
def writeEvent (event : CollaborationEvent) : Payload :=
  writeId event.id ++ writeId event.commandId ++ writeU64 event.sequence.get
    ++ writeOption event.previousEvent writeId ++ writeId event.runId
    ++ writeRevision event.revision ++ writeDigest event.priorStateDigest
    ++ writeDigest event.successorStateDigest ++ writeEventKind event.kind

/-! ### Sizes of records -/

def delegationBytes (value : Delegation) : Nat :=
  118 + present value.parentTaskId 16

def taskTerminalBytes (value : TaskTerminal) : Nat :=
  34 + present value.handoff 176

def taskBytes (value : CollaborationTask) : Nat :=
  delegationBytes value.assignment + 3 + present value.reservation 144
    + (value.terminal.map taskTerminalBytes).getD 0

def messageBytes (value : CollaborationMessage) : Nat :=
  222 + present value.predecessor 16 + value.mediaType.utf8ByteSize
    + present value.artifact 176

def terminalBytes (value : CollaborationTerminal) : Nat :=
  37 + 16 * value.blockingTasks.length

/-- The size of a checkpoint, record by record. -/
def checkpointBytes (state : CollaborationState) : Nat :=
  298 + delegationBytes state.binding.rootAssignment
    + (state.tasks.map taskBytes).sum
    + ((state.messages.map MessageDelivery.message).map fun message =>
        messageBytes message + 1).sum
    + 16 * state.usedCommands.length
    + (state.terminal.map terminalBytes).getD 0

def kindBytes : CollaborationCommandKind → Nat
  | .start binding => 229 + delegationBytes binding.rootAssignment
  | .offerDelegation _ assignment => 17 + delegationBytes assignment
  | .acceptDelegation _ _ => 33
  | .rejectDelegation _ _ _ => 65
  | .activateTask _ _ => 161
  | .sendMessage message => 1 + messageBytes message
  | .acknowledgeMessage _ _ => 33
  | .completeTask _ _ terminal => 33 + taskTerminalBytes terminal
  | .abandonTask _ _ _ => 65
  | .cancelTask _ _ _ => 65
  | .acknowledgeCancellation _ _ => 33
  | .pause _ => 17
  | .resume _ => 17
  | .finalize => 1

def eventKindBytes : CollaborationEventKind → Nat
  | .cancellationPropagated _ _ _ effects => 69 + 17 * effects.length
  | other => (commandKind other).elim 0 kindBytes

@[simp] theorem size_writeLimits (value : CollaborationLimits) :
    size (writeLimits value) = 36 := by
  simp [writeLimits]

@[simp] theorem size_writeDelegation (value : Delegation) :
    size (writeDelegation value) = delegationBytes value := by
  simp only [writeDelegation, delegationBytes, size_append, size_writeId,
    size_writeOption_of_forall size_writeId, size_writeU16, size_writeU8,
    size_writeDigest, size_writeBool]
  omega

@[simp] theorem size_writeBinding (value : CollaborationBinding) :
    size (writeBinding value) = 228 + delegationBytes value.rootAssignment := by
  simp only [writeBinding, size_append, size_writeId, size_writeRevision,
    size_writeLimits, size_writeDelegation, size_writeDigest]
  omega

@[simp] theorem size_writeReservation (value : ReservationObservation) :
    size (writeReservation value) = 144 := by
  simp [writeReservation]

@[simp] theorem size_writeArtifact (value : ArtifactHandoff) :
    size (writeArtifact value) = 176 := by
  simp [writeArtifact]

@[simp] theorem size_writeTaskTerminal (value : TaskTerminal) :
    size (writeTaskTerminal value) = taskTerminalBytes value := by
  simp only [writeTaskTerminal, taskTerminalBytes, size_append, size_writeU8,
    size_writeOption_of_forall size_writeArtifact, size_writeDigest]
  omega

@[simp] theorem size_writeMessage (value : CollaborationMessage) :
    size (writeMessage value) = messageBytes value := by
  simp only [writeMessage, messageBytes, size_append, size_writeId,
    size_writeU32, size_writeOption_of_forall size_writeId, size_writeStr,
    size_writeOption_of_forall size_writeArtifact, size_writeDigest,
    size_writeRevision]
  omega

theorem size_writeTask (value : CollaborationTask) :
    size (writeTask value) = taskBytes value := by
  simp only [writeTask, taskBytes, size_append, size_writeDelegation,
    size_writeU8, size_writeOption_of_forall size_writeReservation,
    size_writeOption size_writeTaskTerminal]
  omega

theorem size_writeDelivery (value : MessageDelivery) :
    size (writeDelivery value) = messageBytes value.message + 1 := by
  simp only [writeDelivery, size_append, size_writeMessage, size_writeBool]

theorem size_writeTerminal (value : CollaborationTerminal) :
    size (writeTerminal value) = terminalBytes value := by
  simp only [writeTerminal, terminalBytes, size_append, size_writeU8,
    size_writeList_of_forall size_writeId, size_writeDigest]
  omega

theorem size_writeState (state : CollaborationState) :
    size (writeState state) = checkpointBytes state := by
  simp only [writeState, checkpointBytes, size_append, size_writeBinding,
    size_writeU8, size_writeU64, size_writeId, size_writeDigest,
    size_writeList size_writeTask, size_writeList size_writeDelivery,
    size_writeList_of_forall size_writeId, size_writeOption size_writeTerminal,
    List.map_map, Function.comp_def]
  omega

/-! ### Sizes of commands and events -/

theorem size_writeKind (kind : CollaborationCommandKind) :
    size (writeKind kind) = kindBytes kind := by
  cases kind with
  | start =>
      simp only [writeKind, kindBytes, size_append, size_writeU8,
        size_writeBinding]
      omega
  | completeTask =>
      simp only [writeKind, kindBytes, size_append, size_writeU8, size_writeId,
        size_writeTaskTerminal]
  | _ =>
      simp only [writeKind, kindBytes, size_append, size_writeU8, size_writeId,
        size_writeDigest, size_writeDelegation, size_writeReservation,
        size_writeMessage]

/-- An event other than a cancellation is written as its command. -/
theorem event_of_commandKind {event : CollaborationEventKind}
    {kind : CollaborationCommandKind} (hkind : commandKind event = some kind) :
    writeEventKind event = writeKind kind ∧
      eventKindBytes event = kindBytes kind := by
  cases event with
  | cancellationPropagated => cases hkind
  | _ =>
      cases hkind
      exact ⟨rfl, rfl⟩

theorem size_writeEffect (effect : CancellationEffect) :
    size (writeEffect effect) = 17 := by
  simp [writeEffect]

theorem size_writeEventKind (kind : CollaborationEventKind) :
    size (writeEventKind kind) = eventKindBytes kind := by
  cases hkind : commandKind kind with
  | some command =>
      obtain ⟨hwrite, hbytes⟩ := event_of_commandKind hkind
      rw [hwrite, hbytes, size_writeKind]
  | none =>
      cases kind with
      | cancellationPropagated =>
          simp only [writeEventKind, eventKindBytes, size_append, size_writeU8,
            size_writeId, size_writeDigest,
            size_writeList_of_forall size_writeEffect]
          omega
      | _ => cases hkind

theorem size_writeCommand (command : CollaborationCommand) :
    size (writeCommand command) =
      185 + present command.expectedPreviousEvent 16
        + kindBytes command.kind := by
  simp only [writeCommand, size_append, size_writeId, size_writeU64,
    size_writeOption_of_forall size_writeId, size_writeDigest,
    size_writeRevision, size_writeKind]
  omega

theorem size_writeEvent (event : CollaborationEvent) :
    size (writeEvent event) =
      217 + present event.previousEvent 16 + eventKindBytes event.kind := by
  simp only [writeEvent, size_append, size_writeId, size_writeU64,
    size_writeOption_of_forall size_writeId, size_writeDigest,
    size_writeRevision, size_writeEventKind]
  omega

end Peritus.Collaboration.Measure
