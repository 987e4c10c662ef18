import Peritus.Collaboration.Task

/-!
The aggregate state of one collaboration: a table of tasks under a root, the
messages sent about them, and the questions the reducer asks of both.
-/

namespace Peritus.Collaboration.State

open Peritus.Types SortedTable Limits Collaboration.Task
open Scheduler.Limits (SchedulerId)
open Scheduler.State (zeroDigest)

structure CollaborationBinding where
  id : CollaborationId
  runId : RunId
  revision : RevisionTuple
  schedulerId : SchedulerId
  rootTaskId : CollaborationTaskId
  limits : CollaborationLimits
  rootAssignment : Delegation
  digest : Sha256Digest
deriving DecidableEq

inductive CollaborationPhase
  | active
  | paused
  | terminal
deriving DecidableEq

inductive CollaborationTerminalKind
  | completed
  | failed
  | cancelled
  | abandoned
  | unsatisfiedJoin
deriving DecidableEq

structure CollaborationTerminal where
  kind : CollaborationTerminalKind
  blockingTasks : List CollaborationTaskId
  digest : Sha256Digest
deriving DecidableEq

structure CollaborationState where
  binding : CollaborationBinding
  phase : CollaborationPhase
  sequence : EventSequence
  lastEventId : EventId
  stateDigest : Sha256Digest
  tasks : List CollaborationTask
  messages : List MessageDelivery
  usedCommands : List CommandId
  terminal : Option CollaborationTerminal
deriving DecidableEq

namespace CollaborationState

def genesis (binding : CollaborationBinding) (sequence : EventSequence)
    (eventId : EventId) (commandId : CommandId) : CollaborationState where
  binding := binding
  phase := .active
  sequence := sequence
  lastEventId := eventId
  stateDigest := zeroDigest
  tasks := [CollaborationTask.acceptedRoot binding.rootAssignment]
  messages := []
  usedCommands := [commandId]
  terminal := none

def limits (state : CollaborationState) : CollaborationLimits :=
  state.binding.limits

def task (state : CollaborationState) (taskId : CollaborationTaskId) :
    Option CollaborationTask :=
  lookup CollaborationTask.id taskId state.tasks

def message (state : CollaborationState) (messageId : CollaborationMessageId) :
    Option MessageDelivery :=
  lookup MessageDelivery.id messageId state.messages

def children (state : CollaborationState) (parent : CollaborationTaskId) :
    List CollaborationTask :=
  state.tasks.filter fun task =>
    decide (task.assignment.parentTaskId = some parent)

/-- The task above `taskId`, when both are retained. -/
def parentOf (state : CollaborationState) (taskId : CollaborationTaskId) :
    Option CollaborationTaskId :=
  (state.task taskId).bind fun task => task.assignment.parentTaskId

/-- Climbing at most `steps` times meets `target`. -/
def climbs (state : CollaborationState) (target : CollaborationTaskId) :
    Nat → Option CollaborationTaskId → Bool
  | 0, _ => false
  | _ + 1, none => false
  | steps + 1, some current =>
      if current = target then true
      else state.climbs target steps (state.parentOf current)

/-- The climb meets `target` at the candidate itself at the first step only. -/
def isDescendantOf (state : CollaborationState)
    (candidate target : CollaborationTaskId) : Bool :=
  state.climbs target (state.limits.depth + 1) (some candidate) &&
    decide (candidate ≠ target)

def succeeded (task : CollaborationTask) : Bool :=
  task.terminal.any fun terminal => decide (terminal.kind = .succeeded)

def requiredChildren (state : CollaborationState)
    (taskId : CollaborationTaskId) : List CollaborationTask :=
  (state.children taskId).filter fun child => child.assignment.required

def joinSatisfied (state : CollaborationState) (taskId : CollaborationTaskId) :
    Bool :=
  match state.task taskId with
  | none => false
  | some task =>
      let required := state.requiredChildren taskId
      match task.assignment.joinPolicy with
      | .noChildren => required.isEmpty
      | .allRequired => required.all succeeded
      | .anyRequired => !required.isEmpty && required.any succeeded

def hasPendingDirectives (state : CollaborationState) : Bool :=
  (state.messages.any fun delivery => !delivery.acknowledged) ||
    state.tasks.any fun task => decide (task.phase = .cancelling)

def saturatingAdd (a b : Nat) : Nat := min (a + b) u64Max

def saturatingMul (a b : Nat) : Nat := min (a * b) u64Max

def messageBytes (messages : List MessageDelivery) : Nat :=
  messages.foldl
    (fun total delivery =>
      saturatingAdd
        (saturatingAdd (saturatingAdd total delivery.message.payloadBytes)
          delivery.message.mediaType.utf8ByteSize) 384) 0

def estimatedEncodedBytes (state : CollaborationState) : Nat :=
  saturatingAdd
    (saturatingAdd
      (saturatingAdd (saturatingMul state.tasks.length 512)
        (messageBytes state.messages))
      (saturatingMul state.usedCommands.length 16)) 1024

end CollaborationState

end Peritus.Collaboration.State
