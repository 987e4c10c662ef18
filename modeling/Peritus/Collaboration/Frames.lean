import Peritus.Collaboration.Measure
import Peritus.Collaboration.Preservation

/-!
The command and event frames of a collaboration.  Commands whose binding has
been checked, and events as the reducer records them, are read back from what
they are written as.
-/

namespace Peritus.Collaboration.Frames

open Peritus.Types Checked SortedTable Codec.Writer Codec.Reader
open Codec.Canonicity Codec.Frame Codec.Revision Limits Collaboration.Task State
open Canonical Reducer Edits Preservation Wire Collaboration.Measure

/-! ### Readers -/

/-- The phases that a cancellation leaves behind. -/
def effectPhaseOfTag : Nat → Option TaskPhase
  | 4 => some .cancelling
  | 5 => some .terminal
  | _ => none

def readEffect : Reading CancellationEffect := do
  let taskId ← readId
  let resultingPhase ← readTag effectPhaseOfTag
  return ⟨taskId, resultingPhase⟩

/-- The most tasks that any limits allow. -/
def maxTasks : Nat := 65535

/-- The event that records a command; a cancellation records more. -/
def eventFromCommand : CollaborationCommandKind → Option CollaborationEventKind
  | .start binding => some (.started binding)
  | .offerDelegation offeredBy assignment =>
      some (.delegationOffered offeredBy assignment)
  | .acceptDelegation taskId acceptedBy =>
      some (.delegationAccepted taskId acceptedBy)
  | .rejectDelegation taskId rejectedBy reasonDigest =>
      some (.delegationRejected taskId rejectedBy reasonDigest)
  | .activateTask taskId observation => some (.taskActivated taskId observation)
  | .sendMessage message => some (.messageSent message)
  | .acknowledgeMessage messageId receiver =>
      some (.messageAcknowledged messageId receiver)
  | .completeTask taskId completedBy terminal =>
      some (.taskCompleted taskId completedBy terminal)
  | .abandonTask taskId abandonedBy reasonDigest =>
      some (.taskAbandoned taskId abandonedBy reasonDigest)
  | .acknowledgeCancellation taskId owner =>
      some (.cancellationAcknowledged taskId owner)
  | .pause requestedBy => some (.paused requestedBy)
  | .resume requestedBy => some (.resumed requestedBy)
  | .finalize => some .finalized
  | .cancelTask _ _ _ => none

/-- What `CollaborationCommand::new` checks. -/
def newCommand (commandId : CommandId) (eventId : EventId) (runId : RunId)
    (expectedSequence : { number : Nat // number < 256 ^ 8 })
    (expectedPreviousEvent : Option EventId) (priorStateDigest : Sha256Digest)
    (revision : RevisionTuple) (kind : CollaborationCommandKind) :
    Except CollaborationError CollaborationCommand :=
  if hshape : expectedSequence.1 = 0 ↔ expectedPreviousEvent = none then
    .ok
      { commandId, eventId, runId
        expectedSequence := expectedSequence.1
        expectedPreviousEvent, priorStateDigest, revision, kind
        sequenceBound := Nat.le_of_lt_succ expectedSequence.2
        predecessor := hshape }
  else
    .error (reject .staleFence "command predecessor shape is inconsistent")

section Hash

variable (sha256 : List UInt8 → Sha256Digest)

/-- The kinds that commands and events are read alike. -/
def readCommandAfterTag (start tag : Nat) : Reading CollaborationCommandKind :=
  match tag with
  | 1 => do return .start (← readBinding sha256)
  | 2 => do return .offerDelegation (← readId) (← readDelegation)
  | 3 => do return .acceptDelegation (← readId) (← readId)
  | 4 => do return .rejectDelegation (← readId) (← readId) (← readDigest)
  | 5 => do return .activateTask (← readId) (← readReservation)
  | 6 => do return .sendMessage (← readMessage)
  | 7 => do return .acknowledgeMessage (← readId) (← readId)
  | 8 => do return .completeTask (← readId) (← readId) (← readTaskTerminal)
  | 9 => do return .abandonTask (← readId) (← readId) (← readDigest)
  | 11 => do return .acknowledgeCancellation (← readId) (← readId)
  | 12 => do return .pause (← readId)
  | 13 => do return .resume (← readId)
  | 14 => return .finalize
  | _ => fail (.at .unknownTag start)

def readKind : Reading CollaborationCommandKind := do
  let start ← offset
  let tag ← readU8
  if tag = 10 then
    return .cancelTask (← readId) (← readId) (← readDigest)
  else readCommandAfterTag sha256 start tag

def readCommand : Reading CollaborationCommand := do
  let commandId ← readId
  let eventId ← readId
  let runId ← readId
  let expectedSequence ← readBounded 8
  let previous ← readOption readId
  require (decide (expectedSequence.1 = 0 ↔ previous = none))
    .invalidDomainValue
  let prior ← readDigest
  let revision ← readRevision
  let kind ← readKind sha256
  validated (newCommand commandId eventId runId expectedSequence previous prior
    revision kind)

def readCancellation : Reading CollaborationEventKind := do
  let taskId ← readId
  let requestedBy ← readId
  let reasonDigest ← readDigest
  let count ← boundedLen maxTasks
  require (decide (count ≠ 0)) .invalidDomainValue
  let effects ← readMany readEffect count
  require (ascending CancellationEffect.taskId effects) .invalidDomainValue
  return .cancellationPropagated taskId requestedBy reasonDigest effects

def readEventKind : Reading CollaborationEventKind := do
  let start ← offset
  let tag ← readU8
  if tag = 10 then readCancellation
  else
    let kind ← readCommandAfterTag sha256 start tag
    match eventFromCommand kind with
    | some event => return event
    | none => fail (.at .invalidDomainValue 0)

def readEvent : Reading CollaborationEvent := do
  let id ← readId
  let commandId ← readId
  let sequence ← readPositive
  let previousEvent ← readOption readId
  require (decide (sequence.get = 1 ↔ previousEvent = none)) .invalidDomainValue
  let runId ← readId
  let revision ← readRevision
  let priorStateDigest ← readDigest
  let successorStateDigest ← readDigest
  let kind ← readEventKind sha256
  return { id, commandId, sequence, previousEvent, runId, revision
           priorStateDigest, successorStateDigest, kind }

def commandFamily : Nat := 73

def eventFamily : Nat := 74

def encodeCommandFrame (command : CollaborationCommand) (limits : CodecLimits) :
    Except CodecError (List UInt8) :=
  encodeMessage commandFamily schemaVersion (writeCommand command) limits

def decodeCommandFrame (input : List UInt8) (limits : CodecLimits) :
    Except CodecError CollaborationCommand :=
  decodeMessage commandFamily schemaVersion (readCommand sha256) input limits

def encodeEventFrame (event : CollaborationEvent) (limits : CodecLimits) :
    Except CodecError (List UInt8) :=
  encodeMessage eventFamily schemaVersion (writeEvent event) limits

def decodeEventFrame (input : List UInt8) (limits : CodecLimits) :
    Except CodecError CollaborationEvent :=
  decodeMessage eventFamily schemaVersion (readEvent sha256) input limits

end Hash

/-! ### Reading back -/

section Reads

variable {sha256 : List UInt8 → Sha256Digest}
variable {kind : CollaborationCommandKind} {event : CollaborationEventKind}

/-- A binding that a kind carries has passed its own checks, which both its
constructor and its reader see to. -/
def Bound (sha256 : List UInt8 → Sha256Digest) :
    CollaborationCommandKind → Prop
  | .start binding => validateBinding sha256 binding = .ok ()
  | _ => True

def isCancel : CollaborationCommandKind → Bool
  | .cancelTask _ _ _ => true
  | _ => false

theorem reads_commandAfterTag (hbound : Bound sha256 kind)
    (hkind : isCancel kind = false) :
    ∃ tag fields, tag < 256 ^ 1 ∧ tag ≠ 10 ∧
      writeKind kind = writeU8 tag ++ fields ∧
      ∀ start, Reads (readCommandAfterTag sha256 start tag) fields kind := by
  cases kind with
  | start binding =>
      exact ⟨1, _, by decide, by decide, rfl,
        fun start => (reads_binding hbound).map _⟩
  | offerDelegation offeredBy assignment =>
      refine ⟨2, writeId offeredBy ++ writeDelegation assignment, by decide,
        by decide, rfl, fun start => ?_⟩
      exact (Reads.id offeredBy).bind ((reads_delegation assignment).map _)
  | acceptDelegation taskId acceptedBy =>
      refine ⟨3, writeId taskId ++ writeId acceptedBy, by decide, by decide, rfl,
        fun start => ?_⟩
      exact (Reads.id taskId).bind ((Reads.id acceptedBy).map _)
  | rejectDelegation taskId rejectedBy reasonDigest =>
      refine ⟨4, writeId taskId ++ (writeId rejectedBy
        ++ writeDigest reasonDigest), by decide, by decide, rfl,
        fun start => ?_⟩
      exact (Reads.id taskId).bind ((Reads.id rejectedBy).bind
        ((Reads.digest reasonDigest).map _))
  | activateTask taskId observation =>
      refine ⟨5, writeId taskId ++ writeReservation observation, by decide,
        by decide, rfl, fun start => ?_⟩
      exact (Reads.id taskId).bind ((reads_reservation observation).map _)
  | sendMessage message =>
      exact ⟨6, _, by decide, by decide, rfl,
        fun start => (reads_message message).map _⟩
  | acknowledgeMessage messageId receiver =>
      refine ⟨7, writeId messageId ++ writeId receiver, by decide, by decide,
        rfl, fun start => ?_⟩
      exact (Reads.id messageId).bind ((Reads.id receiver).map _)
  | completeTask taskId completedBy terminal =>
      refine ⟨8, writeId taskId ++ (writeId completedBy
        ++ writeTaskTerminal terminal), by decide, by decide, rfl,
        fun start => ?_⟩
      exact (Reads.id taskId).bind ((Reads.id completedBy).bind
        ((reads_taskTerminal terminal).map _))
  | abandonTask taskId abandonedBy reasonDigest =>
      refine ⟨9, writeId taskId ++ (writeId abandonedBy
        ++ writeDigest reasonDigest), by decide, by decide, rfl,
        fun start => ?_⟩
      exact (Reads.id taskId).bind ((Reads.id abandonedBy).bind
        ((Reads.digest reasonDigest).map _))
  | cancelTask => cases hkind
  | acknowledgeCancellation taskId owner =>
      refine ⟨11, writeId taskId ++ writeId owner, by decide, by decide, rfl,
        fun start => ?_⟩
      exact (Reads.id taskId).bind ((Reads.id owner).map _)
  | pause requestedBy =>
      exact ⟨12, _, by decide, by decide, rfl,
        fun start => (Reads.id requestedBy).map _⟩
  | resume requestedBy =>
      exact ⟨13, _, by decide, by decide, rfl,
        fun start => (Reads.id requestedBy).map _⟩
  | finalize =>
      exact ⟨14, [], by decide, by decide, rfl, fun start => .pure _⟩

theorem reads_kind (hbound : Bound sha256 kind) :
    Reads (readKind sha256) (writeKind kind) kind := by
  unfold readKind
  refine .offset fun start => ?_
  cases hcancel : isCancel kind with
  | false =>
      obtain ⟨tag, fields, htag, hother, hwritten, hreads⟩ :=
        reads_commandAfterTag hbound hcancel
      rw [hwritten]
      refine (Reads.u8 htag).bind ?_
      rw [if_neg hother]
      exact hreads start
  | true =>
      cases kind with
      | cancelTask taskId requestedBy reasonDigest =>
          change Reads _ (writeU8 10 ++ (writeId taskId ++ (writeId requestedBy
            ++ writeDigest reasonDigest))) _
          refine (Reads.u8 (by decide)).bind ?_
          rw [if_pos rfl]
          exact (Reads.id taskId).bind ((Reads.id requestedBy).bind
            ((Reads.digest reasonDigest).map _))
      | _ => cases hcancel

theorem newCommand_self (value : CollaborationCommand) :
    newCommand value.commandId value.eventId value.runId
      ⟨value.expectedSequence, Nat.lt_succ_of_le value.sequenceBound⟩
      value.expectedPreviousEvent value.priorStateDigest value.revision
      value.kind = .ok value :=
  dif_pos value.predecessor

/-- The fields of a command in front of its kind. -/
def writeCommandHead (command : CollaborationCommand) : Payload :=
  writeId command.commandId ++ writeId command.eventId
    ++ writeId command.runId ++ writeU64 command.expectedSequence
    ++ writeOption command.expectedPreviousEvent writeId
    ++ writeDigest command.priorStateDigest ++ writeRevision command.revision

theorem reads_commandWith {value : CollaborationCommand} {payload : Payload}
    (hkind : Reads (readKind sha256) payload value.kind) :
    Reads (readCommand sha256) (writeCommandHead value ++ payload) value := by
  unfold readCommand writeCommandHead
  simp only [List.append_assoc]
  refine (Reads.id _).bind ?_
  refine (Reads.id _).bind ?_
  refine (Reads.id _).bind ?_
  refine (Reads.bounded (Nat.lt_succ_of_le value.sequenceBound)).bind ?_
  refine (Reads.option fun id _ => Reads.id id).bind ?_
  refine .require (decide_eq_true value.predecessor) ?_
  refine (Reads.digest _).bind ?_
  refine (reads_revision _).bind ?_
  rw [← List.append_nil payload]
  refine hkind.bind ?_
  exact .checked (newCommand_self value)

theorem reads_command {value : CollaborationCommand}
    (hbound : Bound sha256 value.kind) :
    Reads (readCommand sha256) (writeCommand value) value :=
  reads_commandWith (reads_kind hbound)

/-- A command and the event that records it name each other. -/
theorem eventFromCommand_eq_some_iff :
    eventFromCommand kind = some event ↔ commandKind event = some kind := by
  constructor
  · intro h
    cases kind <;> cases h <;> rfl
  · intro h
    cases event <;> cases h <;> rfl

theorem isCancel_of_commandKind (h : commandKind event = some kind) :
    isCancel kind = false := by
  cases event <;> cases h <;> rfl

theorem writeEventKind_of_commandKind (h : commandKind event = some kind) :
    writeEventKind event = writeKind kind := by
  cases event <;> cases h <;> rfl

/-- What is recorded of a cancellation. -/
structure Propagated (effects : List CancellationEffect) : Prop where
  nonempty : effects.length ≠ 0
  bound : effects.length ≤ maxTasks
  sorted : ascending CancellationEffect.taskId effects = true
  phases : ∀ effect ∈ effects, effect.resultingPhase = .cancelling ∨
    effect.resultingPhase = .terminal

/-- What holds of every event that can be built. -/
structure Recorded (sha256 : List UInt8 → Sha256Digest)
    (value : CollaborationEvent) : Prop where
  genesis : value.sequence.get = 1 ↔ value.previousEvent = none
  bound : ∀ kind, commandKind value.kind = some kind → Bound sha256 kind
  propagated : ∀ taskId requestedBy reasonDigest effects,
    value.kind = .cancellationPropagated taskId requestedBy reasonDigest
      effects → Propagated effects

theorem reads_effect {effect : CancellationEffect}
    (hphase : effect.resultingPhase = .cancelling ∨
      effect.resultingPhase = .terminal) :
    Reads readEffect (writeEffect effect) effect := by
  unfold readEffect writeEffect
  have htag : effectPhaseOfTag (taskPhaseTag effect.resultingPhase) =
      some effect.resultingPhase := by
    rcases hphase with hphase | hphase
    · rw [hphase]
      rfl
    · rw [hphase]
      rfl
  have hbyte : taskPhaseTag effect.resultingPhase < 256 ^ 1 := by
    cases effect.resultingPhase <;> decide
  exact (Reads.id _).bind ((Reads.tag hbyte htag).map _)

theorem reads_cancellation {taskId : CollaborationTaskId}
    {requestedBy : ActorId} {reasonDigest : Sha256Digest}
    {effects : List CancellationEffect} (hpropagated : Propagated effects) :
    Reads readCancellation (writeId taskId ++ (writeId requestedBy ++
        (writeDigest reasonDigest ++ writeList effects writeEffect)))
      (.cancellationPropagated taskId requestedBy reasonDigest effects) := by
  unfold readCancellation writeList
  refine (Reads.id _).bind ?_
  refine (Reads.id _).bind ?_
  refine (Reads.digest _).bind ?_
  refine (Reads.boundedLen hpropagated.bound).bind ?_
  refine .require (decide_eq_true hpropagated.nonempty) ?_
  rw [← List.append_nil (effects.flatMap writeEffect)]
  refine (Reads.many fun effect heffect =>
    reads_effect (hpropagated.phases effect heffect)).bind ?_
  exact .require hpropagated.sorted (.pure _)

theorem reads_eventKind
    (hbound : ∀ kind, commandKind event = some kind → Bound sha256 kind)
    (hpropagated : ∀ taskId requestedBy reasonDigest effects,
      event = .cancellationPropagated taskId requestedBy reasonDigest effects →
      Propagated effects) :
    Reads (readEventKind sha256) (writeEventKind event) event := by
  unfold readEventKind
  refine .offset fun start => ?_
  cases hkind : commandKind event with
  | some kind =>
      obtain ⟨tag, fields, htag, hother, hwritten, hreads⟩ :=
        reads_commandAfterTag (hbound kind hkind) (isCancel_of_commandKind hkind)
      rw [writeEventKind_of_commandKind hkind, hwritten]
      refine (Reads.u8 htag).bind ?_
      rw [if_neg hother, ← List.append_nil fields]
      refine (hreads start).bind ?_
      rw [eventFromCommand_eq_some_iff.mpr hkind]
      exact .pure _
  | none =>
      cases event with
      | cancellationPropagated taskId requestedBy reasonDigest effects =>
          change Reads _ (writeU8 10 ++ (writeId taskId ++ (writeId requestedBy
            ++ writeDigest reasonDigest ++ writeList effects writeEffect))) _
          refine (Reads.u8 (by decide)).bind ?_
          rw [if_pos rfl]
          exact reads_cancellation (hpropagated _ _ _ _ rfl)
      | _ => cases hkind

theorem reads_event {value : CollaborationEvent}
    (hrecorded : Recorded sha256 value) :
    Reads (readEvent sha256) (writeEvent value) value := by
  unfold readEvent writeEvent
  simp only [List.append_assoc]
  refine (Reads.id _).bind ?_
  refine (Reads.id _).bind ?_
  refine (Reads.positive _).bind ?_
  refine (Reads.option fun id _ => Reads.id id).bind ?_
  refine .require (decide_eq_true hrecorded.genesis) ?_
  refine (Reads.id _).bind ?_
  refine (reads_revision _).bind ?_
  refine (Reads.digest _).bind ?_
  refine (Reads.digest _).bind ?_
  exact (reads_eventKind hrecorded.bound hrecorded.propagated).map _

end Reads

/-! ### The events that are built -/

section Made

variable {sha256 : List UInt8 → Sha256Digest}
variable {state next : CollaborationState} {kind : CollaborationCommandKind}
variable {event : CollaborationEventKind} {value : CollaborationEvent}
variable {taskId : CollaborationTaskId} {actor : ActorId}
variable {reasonDigest : Sha256Digest}

/-- The task table as every state keeps it. -/
structure Tabled (state : CollaborationState) : Prop where
  sorted : Sorted CollaborationTask.id state.tasks
  bound : state.tasks.length ≤ state.limits.tasks

/-- An event starts a collaboration, is decided in one, or has been decoded. -/
inductive Made (sha256 : List UInt8 → Sha256Digest) : CollaborationEvent → Prop
  | started {command : CollaborationCommand}
      {transition : CollaborationTransition}
      (hstart : start sha256 command = .ok transition) :
      Made sha256 transition.event
  | decided {state : CollaborationState} {command : CollaborationCommand}
      {transition : CollaborationTransition} (htabled : Tabled state)
      (hdecide : decideCommand sha256 state command = .ok transition) :
      Made sha256 transition.event
  | decoded {input : List UInt8} {limits : CodecLimits}
      {event : CollaborationEvent}
      (hdecode : decodeEventFrame sha256 input limits = .ok event) :
      Made sha256 event

/-- A handler records its own command. -/
theorem eventFromCommand_of_apply (h : apply sha256 state kind = .ok (next, event))
    (hcancel : isCancel kind = false) : eventFromCommand kind = some event := by
  cases kind with
  | start => cases h
  | offerDelegation =>
      simp only [apply, offer, bind_eq_ok_iff, exists_unit_iff, Except.ok.injEq,
        Prod.mk.injEq] at h
      obtain ⟨-, -, -, _, -, -, -, -, -, -, rfl⟩ := h
      rfl
  | acceptDelegation =>
      simp only [apply, accept, bind_eq_ok_iff, exists_unit_iff] at h
      obtain ⟨_, -, -, h⟩ := h
      split at h <;> cases h
      rfl
  | rejectDelegation =>
      simp only [apply, rejectOffer, bind_eq_ok_iff, exists_unit_iff,
        Except.ok.injEq, Prod.mk.injEq] at h
      obtain ⟨_, -, -, _, -, -, rfl⟩ := h
      rfl
  | activateTask =>
      simp only [apply, activate, bind_eq_ok_iff, exists_unit_iff,
        Except.ok.injEq, Prod.mk.injEq] at h
      obtain ⟨_, -, -, -, rfl⟩ := h
      rfl
  | sendMessage =>
      simp only [apply, sendMessage, bind_eq_ok_iff, exists_unit_iff,
        Except.ok.injEq, Prod.mk.injEq] at h
      obtain ⟨-, _, -, -, -, -, -, -, -, -, -, rfl⟩ := h
      rfl
  | acknowledgeMessage =>
      simp only [apply, acknowledgeMessage] at h
      split at h
      · cases h
      · rw [check_bind_eq_ok_iff] at h
        obtain ⟨-, h⟩ := h
        split at h <;> cases h
        rfl
  | completeTask =>
      simp only [apply, complete, bind_eq_ok_iff, exists_unit_iff,
        Except.ok.injEq, Prod.mk.injEq] at h
      obtain ⟨_, -, -, -, -, -, -, rfl⟩ := h
      rfl
  | abandonTask =>
      simp only [apply, abandon, bind_eq_ok_iff, exists_unit_iff,
        Except.ok.injEq, Prod.mk.injEq] at h
      obtain ⟨_, -, -, _, -, -, rfl⟩ := h
      rfl
  | cancelTask => cases hcancel
  | acknowledgeCancellation =>
      simp only [apply, acknowledgeCancellation, bind_eq_ok_iff,
        exists_unit_iff, Except.ok.injEq, Prod.mk.injEq] at h
      obtain ⟨_, -, -, _, -, -, rfl⟩ := h
      rfl
  | pause =>
      simp only [apply, pause, bind_eq_ok_iff, exists_unit_iff, Except.ok.injEq,
        Prod.mk.injEq] at h
      obtain ⟨-, -, -, rfl⟩ := h
      rfl
  | resume =>
      simp only [apply, resume, bind_eq_ok_iff, exists_unit_iff,
        Except.ok.injEq, Prod.mk.injEq] at h
      obtain ⟨-, -, -, rfl⟩ := h
      rfl
  | finalize =>
      simp only [apply, finalize, bind_eq_ok_iff, exists_unit_iff] at h
      obtain ⟨-, _, -, h⟩ := h
      split at h <;> cases h
      rfl

theorem phases_of_cancelEach {ids : List CollaborationTaskId}
    {effects : List CancellationEffect}
    (h : cancelEach reasonDigest state ids = .ok (next, effects)) :
    ∀ effect ∈ effects, effect.resultingPhase = .cancelling ∨
      effect.resultingPhase = .terminal := by
  induction ids generalizing state effects with
  | nil =>
      cases h
      simp
  | cons id rest ih =>
      simp only [cancelEach, bind_eq_ok_iff, Prod.exists, Except.ok.injEq,
        Prod.mk.injEq] at h
      obtain ⟨mid, effect, hone, last, others, heach, rfl, rfl⟩ := h
      rw [List.forall_mem_cons]
      refine ⟨?_, ih heach⟩
      unfold cancelOne at hone
      rw [bind_eq_ok_iff] at hone
      obtain ⟨task, -, hone⟩ := hone
      split at hone
      · split at hone <;> cases hone
        exact .inl rfl
      · rw [bind_eq_ok_iff] at hone
        obtain ⟨terminal, -, hone⟩ := hone
        cases hone
        exact .inr rfl

theorem pairwise_affected (htabled : Tabled state) :
    (affected state taskId).Pairwise (· < ·) := by
  unfold affected
  rw [List.pairwise_map]
  exact htabled.sorted.sublist List.filter_sublist

theorem length_affected_le (state : CollaborationState)
    (taskId : CollaborationTaskId) :
    (affected state taskId).length ≤ state.tasks.length := by
  unfold affected
  rw [List.length_map]
  exact List.length_filter_le _ _

/-- The effects follow the table; the target is among them. -/
theorem propagated_of_cancel (htabled : Tabled state)
    (h : cancel state taskId actor reasonDigest = .ok (next, event)) :
    ∃ effects, event = .cancellationPropagated taskId actor reasonDigest
      effects ∧ Propagated effects := by
  simp only [cancel, bind_eq_ok_iff, ensure_eq_ok_iff, exists_unit_iff,
    Bool.and_eq_true, decide_eq_true_eq, requireTask_eq_ok_iff, Prod.exists,
    Except.ok.injEq, Prod.mk.injEq] at h
  obtain ⟨target, hfound, ⟨hopen, -⟩, -, mid, effects, heach, -, rfl⟩ := h
  obtain ⟨-, hids⟩ := cancelEach_eq_ok htabled.sorted
    (pairwise_affected htabled).nodup heach
  have hlength : effects.length = (affected state taskId).length := by
    rw [← hids, List.length_map]
  refine ⟨effects, rfl, ?_, ?_, ?_, phases_of_cancelEach heach⟩
  · obtain ⟨hmem, hid⟩ := mem_of_task hfound
    have htarget : target.id ∈ affected state taskId :=
      (mem_affected htabled.sorted hmem).mpr ⟨.inl hid, hopen⟩
    rw [hlength]
    exact (List.length_pos_of_mem htarget).ne'
  · have hlimits := state.limits.le_production.1
    have hreached := length_affected_le state taskId
    have hbound := htabled.bound
    unfold maxTasks
    omega
  · have hpairwise : (affected state taskId).Pairwise (· < ·) :=
      pairwise_affected htabled
    rw [← hids, List.pairwise_map] at hpairwise
    exact ascending_iff.mpr hpairwise

theorem recorded_of_start {command : CollaborationCommand}
    {transition : CollaborationTransition}
    (h : start sha256 command = .ok transition) :
    Recorded sha256 transition.event := by
  unfold start at h
  split at h
  · next binding hkind =>
      simp only [bind_eq_ok_iff, exists_unit_iff, Except.ok.injEq] at h
      obtain ⟨hvalid, -, -, rfl⟩ := h
      refine ⟨⟨fun _ => rfl, fun _ => rfl⟩, ?_, ?_⟩
      · intro kind hrecorded
        cases hrecorded
        exact hvalid
      · intro taskId requestedBy reasonDigest effects hrecorded
        cases hrecorded
  · cases h

theorem recorded_of_decideCommand (htabled : Tabled state)
    {command : CollaborationCommand} {transition : CollaborationTransition}
    (h : decideCommand sha256 state command = .ok transition) :
    Recorded sha256 transition.event := by
  simp only [decideCommand, bind_eq_ok_iff, exists_unit_iff, Prod.exists,
    Except.ok.injEq] at h
  obtain ⟨-, -, sequence, hsequence, applied, event, happly, -, rfl⟩ := h
  have hnext := checkedNextSequence_eq_ok hsequence
  have hpositive := state.sequence.positive
  refine ⟨?_, ?_, ?_⟩
  · constructor
    · intro hone
      change sequence.get = 1 at hone
      omega
    · intro hnone
      cases hnone
  · intro kind hkind
    change commandKind event = some kind at hkind
    have hrecorded := eventFromCommand_of_apply happly ?_
    · rw [eventFromCommand_eq_some_iff, hkind] at hrecorded
      cases hcommand : command.kind with
      | start binding =>
          rw [hcommand] at happly
          cases happly
      | _ =>
          rw [Option.some.inj hrecorded, hcommand]
          trivial
    · cases hcommand : command.kind with
      | cancelTask =>
          rw [hcommand] at happly
          obtain ⟨effects, rfl, -⟩ := propagated_of_cancel htabled happly
          cases hkind
      | _ => rfl
  · rintro taskId requestedBy reasonDigest effects hevent
    change event = _ at hevent
    subst hevent
    cases hcommand : command.kind with
    | cancelTask =>
        rw [hcommand] at happly
        obtain ⟨effects', hsame, hpropagated⟩ :=
          propagated_of_cancel htabled happly
        cases hsame
        exact hpropagated
    | _ =>
        rw [hcommand] at happly
        have hrecorded := eventFromCommand_of_apply happly rfl
        rw [eventFromCommand_eq_some_iff] at hrecorded
        cases hrecorded

theorem bound_of_readCommandAfterTag {start tag : Nat}
    {reader after : CanonicalReader}
    (h : readCommandAfterTag sha256 start tag reader = .ok (kind, after)) :
    Bound sha256 kind := by
  cases kind with
  | start binding =>
      unfold readCommandAfterTag at h
      split at h <;>
        simp only [reading_bind_eq_ok_iff, reading_pure_eq_ok_iff, reduceCtorEq,
          fail_ne_ok, false_and, and_false, exists_false] at h
      obtain ⟨found, _, hfound, hsame, -⟩ := h
      cases hsame
      simp only [readBinding, reading_bind_eq_ok_iff, validated_eq_ok_iff,
        reading_pure_eq_ok_iff] at hfound
      obtain ⟨_, _, -, _, _, -, _, _, -, _, _, -, _, _, -, _, _, -, _, _, -, _, _,
        -, _, _, ⟨hvalid, -⟩, rfl, -⟩ := hfound
      exact hvalid
  | _ => trivial

theorem phase_of_readEffect (reader : CanonicalReader)
    (effect : CancellationEffect) (after : CanonicalReader)
    (h : readEffect reader = .ok (effect, after)) :
    effect.resultingPhase = .cancelling ∨ effect.resultingPhase = .terminal := by
  simp only [readEffect, readTag, reading_bind_eq_ok_iff,
    reading_pure_eq_ok_iff] at h
  obtain ⟨_, _, -, phase, _, ⟨_, _, -, number, _, -, hphase⟩, rfl, -⟩ := h
  cases hfound : effectPhaseOfTag number with
  | none =>
      rw [hfound] at hphase
      exact absurd hphase fail_ne_ok
  | some found =>
      rw [hfound] at hphase
      obtain ⟨rfl, -⟩ := reading_pure_eq_ok_iff.mp hphase
      unfold effectPhaseOfTag at hfound
      split at hfound
      · cases hfound
        exact .inl rfl
      · cases hfound
        exact .inr rfl
      · cases hfound

theorem propagated_of_readCancellation {reader after : CanonicalReader}
    (h : readCancellation reader = .ok (event, after)) :
    ∃ taskId requestedBy reasonDigest effects,
      event = .cancellationPropagated taskId requestedBy reasonDigest effects ∧
        Propagated effects := by
  simp only [readCancellation, boundedLen, reading_bind_eq_ok_iff,
    offset_eq_ok_iff, require_eq_ok_iff, requireAt_eq_ok_iff,
    reading_pure_eq_ok_iff, decide_eq_true_eq] at h
  obtain ⟨taskId, _, -, requestedBy, _, -, reasonDigest, _, -, _, _, hlength, _,
    _, ⟨hnonzero, rfl⟩, effects, _, hmany, _, _, ⟨hsorted, rfl⟩, rfl, rfl⟩ := h
  obtain ⟨_, _, -, count, _, -, _, _, ⟨hmaximum, -⟩, rfl, -⟩ := hlength
  obtain ⟨hcount, hphases⟩ := forall_of_readMany phase_of_readEffect hmany
  refine ⟨taskId, requestedBy, reasonDigest, effects, rfl, ?_, ?_, hsorted,
    hphases⟩
  · rw [hcount]
    exact hnonzero
  · rw [hcount]
    exact hmaximum

theorem recorded_of_decode {input : List UInt8} {limits : CodecLimits}
    (h : decodeEventFrame sha256 input limits = .ok value) :
    Recorded sha256 value := by
  obtain ⟨reader, after, hread⟩ := exists_read_of_decodeMessage h
  simp only [readEvent, reading_bind_eq_ok_iff, require_eq_ok_iff,
    reading_pure_eq_ok_iff, decide_eq_true_eq] at hread
  obtain ⟨_, _, -, _, _, -, _, _, -, _, _, -, _, _, ⟨hgenesis, -⟩, _, _, -, _, _,
    -, _, _, -, _, _, -, event, _, hkind, rfl, -⟩ := hread
  simp only [readEventKind, reading_bind_eq_ok_iff] at hkind
  obtain ⟨start, _, -, tag, _, -, hkind⟩ := hkind
  split at hkind
  · obtain ⟨taskId, requestedBy, reasonDigest, effects, rfl, hpropagated⟩ :=
      propagated_of_readCancellation hkind
    refine ⟨hgenesis, ?_, ?_⟩
    · intro kind hrecorded
      cases hrecorded
    · rintro _ _ _ _ hsame
      cases hsame
      exact hpropagated
  · simp only [reading_bind_eq_ok_iff] at hkind
    obtain ⟨kind, _, hcommand, hkind⟩ := hkind
    cases hevent : eventFromCommand kind with
    | none =>
        rw [hevent] at hkind
        exact absurd hkind fail_ne_ok
    | some found =>
        rw [hevent] at hkind
        obtain ⟨rfl, -⟩ := reading_pure_eq_ok_iff.mp hkind
        rw [eventFromCommand_eq_some_iff] at hevent
        refine ⟨hgenesis, ?_, ?_⟩
        · intro recorded hrecorded
          obtain rfl := Option.some.inj (hevent.symm.trans hrecorded)
          exact bound_of_readCommandAfterTag hcommand
        · rintro _ _ _ _ hsame
          change found = _ at hsame
          subst hsame
          cases hevent

theorem recorded_of_made (hmade : Made sha256 value) : Recorded sha256 value := by
  cases hmade with
  | started hstart => exact recorded_of_start hstart
  | decided htabled hdecide => exact recorded_of_decideCommand htabled hdecide
  | decoded hdecode => exact recorded_of_decode hdecode

end Made

end Peritus.Collaboration.Frames
