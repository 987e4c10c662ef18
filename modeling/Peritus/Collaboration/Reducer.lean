import Peritus.Collaboration.Canonical

/-!
The collaboration reducer: commands, the events they produce, the handler of
each command, and the fences and bounds around every handler.
-/

namespace Peritus.Collaboration.Reducer

open Peritus.Types Checked SortedTable Limits Collaboration.Task State Canonical
open Scheduler.State (zeroDigest)

/-! ### Commands and events -/

inductive CollaborationCommandKind
  | start (binding : CollaborationBinding)
  | offerDelegation (offeredBy : ActorId) (assignment : Delegation)
  | acceptDelegation (taskId : CollaborationTaskId) (acceptedBy : ActorId)
  | rejectDelegation (taskId : CollaborationTaskId) (rejectedBy : ActorId)
      (reasonDigest : Sha256Digest)
  | activateTask (taskId : CollaborationTaskId)
      (observation : ReservationObservation)
  | sendMessage (message : CollaborationMessage)
  | acknowledgeMessage (messageId : CollaborationMessageId)
      (receiver : ActorId)
  | completeTask (taskId : CollaborationTaskId) (completedBy : ActorId)
      (terminal : TaskTerminal)
  | abandonTask (taskId : CollaborationTaskId) (abandonedBy : ActorId)
      (reasonDigest : Sha256Digest)
  | cancelTask (taskId : CollaborationTaskId) (requestedBy : ActorId)
      (reasonDigest : Sha256Digest)
  | acknowledgeCancellation (taskId : CollaborationTaskId) (owner : ActorId)
  | pause (requestedBy : ActorId)
  | resume (requestedBy : ActorId)
  | finalize
deriving DecidableEq

def CollaborationCommandKind.isStart : CollaborationCommandKind → Bool
  | .start _ => true
  | _ => false

structure CollaborationCommand where
  commandId : CommandId
  eventId : EventId
  runId : RunId
  expectedSequence : Nat
  expectedPreviousEvent : Option EventId
  priorStateDigest : Sha256Digest
  revision : RevisionTuple
  kind : CollaborationCommandKind
  sequenceBound : expectedSequence ≤ u64Max
  predecessor : expectedSequence = 0 ↔ expectedPreviousEvent = none

inductive CollaborationEventKind
  | started (binding : CollaborationBinding)
  | delegationOffered (offeredBy : ActorId) (assignment : Delegation)
  | delegationAccepted (taskId : CollaborationTaskId) (acceptedBy : ActorId)
  | delegationRejected (taskId : CollaborationTaskId) (rejectedBy : ActorId)
      (reasonDigest : Sha256Digest)
  | taskActivated (taskId : CollaborationTaskId)
      (observation : ReservationObservation)
  | messageSent (message : CollaborationMessage)
  | messageAcknowledged (messageId : CollaborationMessageId)
      (receiver : ActorId)
  | taskCompleted (taskId : CollaborationTaskId) (completedBy : ActorId)
      (terminal : TaskTerminal)
  | taskAbandoned (taskId : CollaborationTaskId) (abandonedBy : ActorId)
      (reasonDigest : Sha256Digest)
  | cancellationPropagated (taskId : CollaborationTaskId)
      (requestedBy : ActorId) (reasonDigest : Sha256Digest)
      (effects : List CancellationEffect)
  | cancellationAcknowledged (taskId : CollaborationTaskId) (owner : ActorId)
  | paused (requestedBy : ActorId)
  | resumed (requestedBy : ActorId)
  | finalized
deriving DecidableEq

structure CollaborationEvent where
  id : EventId
  commandId : CommandId
  sequence : EventSequence
  previousEvent : Option EventId
  runId : RunId
  revision : RevisionTuple
  priorStateDigest : Sha256Digest
  successorStateDigest : Sha256Digest
  kind : CollaborationEventKind
deriving DecidableEq

structure CollaborationTransition where
  event : CollaborationEvent
  state : CollaborationState
deriving DecidableEq

/-! ### Mutations -/

def insertTask (state : CollaborationState) (task : CollaborationTask) :
    CollaborationState :=
  { state with
    tasks := insertAt (slot CollaborationTask.id task.id state.tasks) task
      state.tasks }

/-- `none` when no task has the identity. -/
def taskMut (state : CollaborationState) (taskId : CollaborationTaskId)
    (edit : CollaborationTask → CollaborationTask) :
    Option CollaborationState :=
  (lookupIndex CollaborationTask.id taskId state.tasks).map fun index =>
    { state with tasks := state.tasks.modify index edit }

def insertMessage (state : CollaborationState) (delivery : MessageDelivery) :
    CollaborationState :=
  { state with
    messages := insertAt (slot MessageDelivery.id delivery.id state.messages)
      delivery state.messages }

def messageMut (state : CollaborationState)
    (messageId : CollaborationMessageId)
    (edit : MessageDelivery → MessageDelivery) : Option CollaborationState :=
  (lookupIndex MessageDelivery.id messageId state.messages).map fun index =>
    { state with messages := state.messages.modify index edit }

def activateMut (state : CollaborationState) (taskId : CollaborationTaskId)
    (observation : ReservationObservation) : CollaborationState :=
  (taskMut state taskId fun task =>
    (task.setReservation observation).setPhase .active).getD state

def terminate (state : CollaborationState) (taskId : CollaborationTaskId)
    (terminal : TaskTerminal) : CollaborationState :=
  (taskMut state taskId fun task => task.terminate terminal).getD state

def setTerminal (state : CollaborationState)
    (terminal : CollaborationTerminal) : CollaborationState :=
  { state with phase := .terminal, terminal := some terminal }

def advanceCursor (state : CollaborationState) (sequence : EventSequence)
    (eventId : EventId) (commandId : CommandId) : CollaborationState :=
  { state with
    sequence
    lastEventId := eventId
    usedCommands := state.usedCommands ++ [commandId] }

/-! ### Handlers -/

abbrev Handled :=
  Except CollaborationError (CollaborationState × CollaborationEventKind)

def unknownTask : CollaborationError :=
  reject .unknownIdentity "task identity is unknown"

def requireTask (state : CollaborationState) (taskId : CollaborationTaskId) :
    Except CollaborationError CollaborationTask :=
  match state.task taskId with
  | some task => .ok task
  | none => .error unknownTask

def ownedTask (state : CollaborationState) (taskId : CollaborationTaskId)
    (actor : ActorId) : Except CollaborationError CollaborationTask := do
  let task ← requireTask state taskId
  ensure (decide (task.assignment.owner = actor))
    (reject .ownerMismatch "actor differs from retained task owner")
  .ok task

def requireParent (state : CollaborationState) (assignment : Delegation) :
    Except CollaborationError CollaborationTask :=
  match assignment.parentTaskId with
  | none =>
      .error (reject .causalityViolation "delegated child has no parent")
  | some parentId =>
      match state.task parentId with
      | some parent => .ok parent
      | none =>
          .error (reject .unknownIdentity "delegation parent is unknown")

def offer (state : CollaborationState) (offeredBy : ActorId)
    (assignment : Delegation) : Handled := do
  ensure (decide (state.phase = .active))
    (illegal "new delegation is disabled while paused")
  ensure ((state.task assignment.taskId).isNone &&
      state.tasks.all fun task =>
        decide (task.assignment.workId ≠ assignment.workId))
    (reject .identityConflict
      "delegation reuses a task or scheduler work identity")
  ensure (decide (state.tasks.length < state.limits.tasks) &&
      decide (assignment.rootTaskId = state.binding.rootTaskId))
    (reject .limitExceeded
      "delegation exceeds task bounds or reuses a task/work identity")
  let parent ← requireParent state assignment
  let mismatch := reject .causalityViolation
    "delegation parent, owner, depth, lifecycle, or join declaration differs"
  ensure (decide (parent.phase = .active) &&
      decide (parent.assignment.owner = offeredBy) &&
      decide (assignment.parentOwner = offeredBy)) mismatch
  ensure (decide (parent.assignment.depth + 1 ≤ u16Max))
    (reject .limitExceeded "task depth overflowed")
  ensure (decide (assignment.depth = parent.assignment.depth + 1) &&
      decide (assignment.depth ≤ state.limits.depth) &&
      decide (parent.assignment.joinPolicy ≠ .noChildren)) mismatch
  ensure (decide ((state.children parent.id).length < state.limits.fanOut))
    (reject .limitExceeded "delegation exceeds the parent's fan-out bound")
  .ok (insertTask state (.offered assignment),
    .delegationOffered offeredBy assignment)

def accept (state : CollaborationState) (taskId : CollaborationTaskId)
    (acceptedBy : ActorId) : Handled := do
  let task ← ownedTask state taskId acceptedBy
  ensure (decide (task.phase = .offered))
    (illegal "only an offered delegation may be accepted")
  match taskMut state taskId fun task => task.setPhase .accepted with
  | none => .error unknownTask
  | some next => .ok (next, .delegationAccepted taskId acceptedBy)

def rejectOffer (state : CollaborationState) (taskId : CollaborationTaskId)
    (rejectedBy : ActorId) (reasonDigest : Sha256Digest) : Handled := do
  let task ← ownedTask state taskId rejectedBy
  ensure (decide (task.phase = .offered) && decide (reasonDigest ≠ zeroDigest))
    (illegal
      "delegation rejection requires an offered task and nonzero reason")
  let terminal ← TaskTerminal.new .rejected none reasonDigest
  .ok (terminate state taskId terminal,
    .delegationRejected taskId rejectedBy reasonDigest)

def activate (state : CollaborationState) (taskId : CollaborationTaskId)
    (observation : ReservationObservation) : Handled := do
  let task ← requireTask state taskId
  ensure (decide (task.phase = .accepted) &&
      decide (observation.workId = task.assignment.workId) &&
      decide (observation.owner = task.assignment.owner) &&
      decide (observation.revision = state.binding.revision))
    (reject .bindingMismatch
      "task activation differs from assignment or scheduler reservation")
  .ok (activateMut state taskId observation,
    .taskActivated taskId observation)

def taskMessages (state : CollaborationState)
    (taskId : CollaborationTaskId) : List MessageDelivery :=
  state.messages.filter fun delivery =>
    decide (delivery.message.taskId = taskId)

def artifactReferences (deliveries : List MessageDelivery) : Nat :=
  (deliveries.filter fun delivery =>
    delivery.message.artifact.isSome).length

/-- The last of the deliveries with the greatest ordinal. -/
def latest (deliveries : List MessageDelivery) : Option MessageDelivery :=
  deliveries.foldl
    (fun best delivery => match best with
      | none => some delivery
      | some found =>
          if found.message.ordinal ≤ delivery.message.ordinal then some delivery
          else some found) none

def sendMessage (state : CollaborationState) (message : CollaborationMessage) :
    Handled := do
  ensure (decide (state.messages.length < state.limits.messages) &&
      (state.message message.id).isNone &&
      decide (message.payloadBytes ≤ state.limits.payloadBytes) &&
      decide (message.rootTaskId = state.binding.rootTaskId) &&
      decide (message.revision = state.binding.revision))
    (reject .limitExceeded
      "message exceeds limits or conflicts with aggregate binding/identity")
  let task ← requireTask state message.taskId
  ensure (decide (task.phase = .active))
    (illegal "messages require an active task")
  let owner := task.assignment.owner
  let parentOwner := task.assignment.parentOwner
  ensure ((decide (message.sender = owner) &&
        decide (message.receiver = parentOwner)) ||
      (decide (message.sender = parentOwner) &&
        decide (message.receiver = owner)))
    (reject .ownerMismatch
      "message sender and receiver are not the task owner/parent-owner pair")
  ensure (message.artifact.all fun artifact =>
      decide (artifact.revision = state.binding.revision))
    (reject .bindingMismatch
      "message artifact handoff has another revision")
  let earlier := taskMessages state message.taskId
  ensure (message.artifact.isNone ||
      decide (artifactReferences earlier < state.limits.artifactReferences))
    (reject .limitExceeded "task artifact-reference bound is exhausted")
  ensure (decide (earlier.length + 1 ≤ u32Max))
    (reject .limitExceeded "message ordinal overflowed")
  ensure (decide (message.ordinal = earlier.length + 1) &&
      decide (message.predecessor =
        (latest earlier).map MessageDelivery.id))
    (reject .causalityViolation
      "message ordinal or predecessor is not the contiguous per-task successor")
  let recipients := earlier.map (fun delivery => delivery.message.receiver)
    ++ [message.receiver]
  ensure (decide (recipients.dedup.length ≤ state.limits.recipients))
    (reject .limitExceeded "task recipient bound is exhausted")
  .ok (insertMessage state (.pending message), .messageSent message)

def acknowledgeMessage (state : CollaborationState)
    (messageId : CollaborationMessageId) (receiver : ActorId) : Handled :=
  match state.message messageId with
  | none => .error (reject .unknownIdentity "message identity is unknown")
  | some delivery => do
      ensure (!delivery.acknowledged &&
          decide (delivery.message.receiver = receiver))
        (reject .ownerMismatch
          "message is already acknowledged or receiver differs")
      match messageMut state messageId MessageDelivery.acknowledge with
      | none => .error (reject .unknownIdentity "message vanished")
      | some next => .ok (next, .messageAcknowledged messageId receiver)

def complete (state : CollaborationState) (taskId : CollaborationTaskId)
    (completedBy : ActorId) (terminal : TaskTerminal) : Handled := do
  let task ← ownedTask state taskId completedBy
  ensure (decide (task.phase = .active) &&
      (decide (terminal.kind = .succeeded) ||
        decide (terminal.kind = .failed)))
    (illegal "only active work may complete as success or failure")
  ensure (terminal.handoff.all fun handoff =>
      decide (handoff.revision = state.binding.revision))
    (reject .bindingMismatch
      "task handoff revision differs from collaboration revision")
  ensure (terminal.handoff.isNone ||
      decide (artifactReferences (taskMessages state taskId) <
        state.limits.artifactReferences))
    (reject .limitExceeded
      "task artifact-reference bound is exhausted by message handoffs")
  ensure (!decide (terminal.kind = .succeeded) || state.joinSatisfied taskId)
    (reject .joinUnsatisfied
      "task success is blocked by its declared required-child join")
  .ok (terminate state taskId terminal,
    .taskCompleted taskId completedBy terminal)

def abandon (state : CollaborationState) (taskId : CollaborationTaskId)
    (abandonedBy : ActorId) (reasonDigest : Sha256Digest) : Handled := do
  let task ← ownedTask state taskId abandonedBy
  ensure ((decide (task.phase = .accepted) || decide (task.phase = .active)) &&
      decide (reasonDigest ≠ zeroDigest))
    (illegal "abandonment requires accepted/active ownership and a reason")
  let terminal ← TaskTerminal.new .abandoned none reasonDigest
  .ok (terminate state taskId terminal,
    .taskAbandoned taskId abandonedBy reasonDigest)

/-- An owner met on the way up from `cursor`. -/
def ownerClimb (state : CollaborationState) (actor : ActorId) :
    Nat → Option CollaborationTaskId → Bool
  | 0, _ => false
  | _ + 1, none => false
  | steps + 1, some id =>
      match state.task id with
      | none => false
      | some task =>
          if task.assignment.owner = actor then true
          else ownerClimb state actor steps task.assignment.parentTaskId

def ownerMayCancel (state : CollaborationState)
    (taskId : CollaborationTaskId) (actor : ActorId) : Bool :=
  ownerClimb state actor (state.limits.depth + 1) (some taskId)

/-- The tasks a cancellation reaches, in table order. -/
def affected (state : CollaborationState) (taskId : CollaborationTaskId) :
    List CollaborationTaskId :=
  (state.tasks.filter fun task =>
    (decide (task.id = taskId) || state.isDescendantOf task.id taskId) &&
      decide (task.phase ≠ .terminal)).map CollaborationTask.id

def cancelOne (reasonDigest : Sha256Digest) (state : CollaborationState)
    (id : CollaborationTaskId) :
    Except CollaborationError (CollaborationState × CancellationEffect) := do
  let task ← requireTask state id
  if task.phase = .active ∨ task.phase = .cancelling then
    match taskMut state id fun task => task.setPhase .cancelling with
    | none => .error unknownTask
    | some next => .ok (next, ⟨id, .cancelling⟩)
  else do
    let terminal ← TaskTerminal.new .cancelled none reasonDigest
    .ok (terminate state id terminal, ⟨id, .terminal⟩)

def cancelEach (reasonDigest : Sha256Digest) (state : CollaborationState) :
    List CollaborationTaskId →
      Except CollaborationError (CollaborationState × List CancellationEffect)
  | [] => .ok (state, [])
  | id :: rest => do
      let (next, effect) ← cancelOne reasonDigest state id
      let (last, effects) ← cancelEach reasonDigest next rest
      .ok (last, effect :: effects)

def cancel (state : CollaborationState) (taskId : CollaborationTaskId)
    (requestedBy : ActorId) (reasonDigest : Sha256Digest) : Handled := do
  let target ← requireTask state taskId
  ensure (decide (target.phase ≠ .terminal) &&
      decide (reasonDigest ≠ zeroDigest))
    (illegal "cancellation target is terminal or reason digest is zero")
  ensure (ownerMayCancel state taskId requestedBy)
    (reject .ownerMismatch
      "cancellation requester is not the task owner or an ancestor owner")
  let (next, effects) ← cancelEach reasonDigest state (affected state taskId)
  .ok (next, .cancellationPropagated taskId requestedBy reasonDigest effects)

def acknowledgeCancellation (state : CollaborationState)
    (taskId : CollaborationTaskId) (owner : ActorId) : Handled := do
  let task ← ownedTask state taskId owner
  ensure (decide (task.phase = .cancelling))
    (illegal "only a cancelling task may acknowledge cancellation")
  let terminal ← TaskTerminal.new .cancelled none zeroDigest
  .ok (terminate state taskId terminal,
    .cancellationAcknowledged taskId owner)

def ensureRootOwner (state : CollaborationState) (actor : ActorId) :
    Except CollaborationError Unit := do
  let root ← requireTask state state.binding.rootTaskId
  ensure (decide (root.assignment.owner = actor))
    (reject .ownerMismatch "operation requires the retained root owner")

def pause (state : CollaborationState) (requestedBy : ActorId) : Handled := do
  ensureRootOwner state requestedBy
  ensure (decide (state.phase = .active))
    (illegal "only an active collaboration may pause")
  .ok ({ state with phase := .paused }, .paused requestedBy)

def resume (state : CollaborationState) (requestedBy : ActorId) :
    Handled := do
  ensureRootOwner state requestedBy
  ensure (decide (state.phase = .paused))
    (illegal "only a paused collaboration may resume")
  .ok ({ state with phase := .active }, .resumed requestedBy)

def terminalKind (state : CollaborationState) (root : CollaborationTask)
    (rootTerminal : TaskTerminal) : CollaborationTerminalKind :=
  match rootTerminal.kind with
  | .succeeded =>
      if state.joinSatisfied root.id then .completed else .unsatisfiedJoin
  | .failed => .failed
  | .rejected => .failed
  | .cancelled => .cancelled
  | .abandoned => .abandoned

def blockingTasks (state : CollaborationState)
    (kind : CollaborationTerminalKind) : List CollaborationTaskId :=
  if kind = .completed then []
  else
    (state.tasks.filter fun task =>
      !CollaborationState.succeeded task).map CollaborationTask.id

section Hash

variable (sha256 : List UInt8 → Sha256Digest)

def newTerminal (kind : CollaborationTerminalKind)
    (blocking : List CollaborationTaskId) : CollaborationTerminal :=
  let terminal : CollaborationTerminal := ⟨kind, blocking, zeroDigest⟩
  { terminal with digest := terminalDigest sha256 terminal }

def finalize (state : CollaborationState) : Handled := do
  ensure (!state.hasPendingDirectives &&
      state.tasks.all fun task => decide (task.phase = .terminal))
    (reject .joinUnsatisfied
      "collaboration retains nonterminal task, delivery, or cancellation work")
  let root ← requireTask state state.binding.rootTaskId
  match root.terminal with
  | none =>
      .error (reject .joinUnsatisfied "root has no terminal outcome")
  | some rootTerminal =>
      let kind := terminalKind state root rootTerminal
      .ok (setTerminal state
          (newTerminal sha256 kind (blockingTasks state kind)), .finalized)

def apply (state : CollaborationState) : CollaborationCommandKind → Handled
  | .start _ => .error (illegal "collaboration already started")
  | .offerDelegation offeredBy assignment => offer state offeredBy assignment
  | .acceptDelegation taskId acceptedBy => accept state taskId acceptedBy
  | .rejectDelegation taskId rejectedBy reasonDigest =>
      rejectOffer state taskId rejectedBy reasonDigest
  | .activateTask taskId observation => activate state taskId observation
  | .sendMessage message => sendMessage state message
  | .acknowledgeMessage messageId receiver =>
      acknowledgeMessage state messageId receiver
  | .completeTask taskId completedBy terminal =>
      complete state taskId completedBy terminal
  | .abandonTask taskId abandonedBy reasonDigest =>
      abandon state taskId abandonedBy reasonDigest
  | .cancelTask taskId requestedBy reasonDigest =>
      cancel state taskId requestedBy reasonDigest
  | .acknowledgeCancellation taskId owner =>
      acknowledgeCancellation state taskId owner
  | .pause requestedBy => pause state requestedBy
  | .resume requestedBy => resume state requestedBy
  | .finalize => finalize sha256 state

/-! ### Fences, genesis and commit -/

def validateFences (state : CollaborationState)
    (command : CollaborationCommand) : Except CollaborationError Unit := do
  ensure (decide (state.phase ≠ .terminal))
    (illegal "collaboration aggregate is terminal and fenced closed")
  ensure (decide (state.binding.runId = command.runId) &&
      decide (state.binding.revision = command.revision) &&
      decide (state.sequence.get = command.expectedSequence) &&
      decide (command.expectedPreviousEvent = some state.lastEventId) &&
      decide (command.priorStateDigest = state.stateDigest) &&
      decide (command.commandId ∉ state.usedCommands) &&
      !command.kind.isStart)
    (reject .staleFence
      "command run, revision, predecessor, state, identity, or lifecycle fence differs")

def ensureStateBound (state : CollaborationState) :
    Except CollaborationError Unit :=
  ensure (decide (state.estimatedEncodedBytes ≤ state.limits.stateBytes))
    (reject .limitExceeded
      "successor state exceeds its immutable byte limit")

def estimatedCommandBytes : CollaborationCommandKind → Nat
  | .sendMessage message =>
      CollaborationState.saturatingAdd message.payloadBytes 768
  | .cancelTask _ _ _ => 512
  | .start _ => 1024
  | _ => 768

def start (command : CollaborationCommand) :
    Except CollaborationError CollaborationTransition :=
  match command.kind with
  | .start binding => do
      validateBinding sha256 binding
      ensure (decide (command.runId = binding.runId) &&
          decide (command.revision = binding.revision) &&
          decide (command.expectedSequence = 0) &&
          decide (command.expectedPreviousEvent = none) &&
          decide (command.priorStateDigest = zeroDigest))
        (reject .bindingMismatch
          "genesis command differs from exact collaboration binding or fences")
      let state := CollaborationState.genesis binding PositiveNumber.first
        command.eventId command.commandId
      ensureStateBound state
      let digest := stateDigest sha256 state
      .ok
        { event :=
            { id := command.eventId
              commandId := command.commandId
              sequence := PositiveNumber.first
              previousEvent := none
              runId := command.runId
              revision := command.revision
              priorStateDigest := zeroDigest
              successorStateDigest := digest
              kind := .started binding }
          state := { state with stateDigest := digest } }
  | _ => .error (illegal "genesis command is not Start")

def checkedNextSequence (sequence : EventSequence) :
    Except CollaborationError EventSequence :=
  match sequence.checkedNext with
  | .ok next => .ok next
  | .error _ =>
      .error (reject .limitExceeded "collaboration event sequence overflowed")

def decideCommand (state : CollaborationState)
    (command : CollaborationCommand) :
    Except CollaborationError CollaborationTransition := do
  validateFences state command
  ensure (decide (estimatedCommandBytes command.kind ≤
      state.limits.commandBytes))
    (reject .limitExceeded
      "collaboration command exceeds its immutable byte limit")
  let sequence ← checkedNextSequence state.sequence
  let (applied, kind) ← apply sha256 state command.kind
  ensureStateBound applied
  let successor :=
    advanceCursor applied sequence command.eventId command.commandId
  let digest := stateDigest sha256 successor
  .ok
    { event :=
        { id := command.eventId
          commandId := command.commandId
          sequence
          previousEvent := some state.lastEventId
          runId := command.runId
          revision := command.revision
          priorStateDigest := state.stateDigest
          successorStateDigest := digest
          kind }
      state := { successor with stateDigest := digest } }

end Hash

end Peritus.Collaboration.Reducer
