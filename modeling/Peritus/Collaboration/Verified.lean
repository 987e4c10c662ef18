import Peritus.Collaboration.Reducer

/-!
The executable counterparts of the collaboration specifications, as the
repository publishes them beside the reducer.
-/

namespace Peritus.Collaboration.Verified

open Limits Collaboration.Task State

/-- The climb of one task; it gives up before its steps run out, since every
round but the last costs one step of the depth limit. -/
def reachesRoot (state : CollaborationState) (expected : Nat) :
    Nat → Nat → Option CollaborationTaskId → Bool
  | 0, _, _ => false
  | _ + 1, _, none => false
  | fuel + 1, steps, some id =>
      match state.task id with
      | none => false
      | some current =>
          if id = state.binding.rootTaskId then decide (steps = expected)
          else if u16Max < steps + 1 then false
          else if state.limits.depth < steps + 1 then false
          else
            reachesRoot state expected fuel (steps + 1)
              current.assignment.parentTaskId

def causalGraphIsValid (state : CollaborationState) : Bool :=
  state.tasks.all fun task =>
    if task.id = state.binding.rootTaskId then
      decide (task.assignment.parentTaskId = none) &&
        decide (task.assignment.depth = 0)
    else
      reachesRoot state task.assignment.depth (state.limits.depth + 1) 0
        (some task.id)

def joinIsTruthful (state : CollaborationState) : Bool :=
  state.tasks.all fun task =>
    task.terminal.all fun terminal =>
      decide (terminal.kind ≠ .succeeded) || state.joinSatisfied task.id

def unsuccessful (task : CollaborationTask) : Bool :=
  task.terminal.any fun terminal => decide (terminal.kind ≠ .succeeded)

def cancellationDominates (state : CollaborationState) : Bool :=
  (state.tasks.filter fun task => decide (task.phase = .cancelling)).all
    fun task =>
      task.terminal.isNone &&
        (state.tasks.filter fun candidate =>
          state.isDescendantOf candidate.id task.id).all fun descendant =>
            decide (descendant.phase = .cancelling) || unsuccessful descendant

def terminalIsTruthful (state : CollaborationState) : Bool :=
  state.terminal.all fun terminal =>
    if terminal.kind ≠ .completed then decide (state.phase = .terminal)
    else
      decide (state.phase = .terminal) && !state.hasPendingDirectives &&
        (state.tasks.all fun task => decide (task.phase = .terminal)) &&
        (((state.task state.binding.rootTaskId).bind
          CollaborationTask.terminal).any fun root =>
            decide (root.kind = .succeeded)) &&
        joinIsTruthful state

end Peritus.Collaboration.Verified
