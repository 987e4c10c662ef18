import Peritus.Kernel.Liveness

/-!
The acceptance gate over whole runs.  A run of the session becomes `Accepted`
in one evaluation of its own current evidence, and stays so.
-/

namespace Peritus.Kernel.Acceptance

open Peritus.Types TransitionSystem Collections State Reducer Edits
open PostChecks PauseClosure Liveness

section Gate

variable {Terms Facts : Type}

variable (evaluateAcceptance : AcceptanceContract Terms → RevisionTuple →
  AcceptanceEvidence Facts → AcceptanceDecision)

variable {evaluateAcceptance}
variable {before next : KernelAggregate} {request : Request Terms Facts}

end Gate

/-! ### An accepted run -/

section Trace

/-- The aggregate after a list of requests, if all are accepted. -/
def outcomeOf (evaluateAcceptance : AcceptanceContract Unit → RevisionTuple →
    AcceptanceEvidence Unit → AcceptanceDecision) (state : KernelAggregate) :
    List (Request Unit Unit) → Option KernelAggregate
  | [] => some state
  | request :: rest =>
      match reduce evaluateAcceptance state request.envelope request.command
          request.inputs with
      | .applied transition =>
          outcomeOf evaluateAcceptance transition.aggregate rest
      | .rejected _ _ => none

theorem run_of_outcomeOf {evaluateAcceptance : AcceptanceContract Unit →
      RevisionTuple → AcceptanceEvidence Unit → AcceptanceDecision}
    {state later : KernelAggregate} {requests : List (Request Unit Unit)}
    (h : outcomeOf evaluateAcceptance state requests = some later) :
    Run (Step evaluateAcceptance) state requests later := by
  induction requests generalizing state with
  | nil =>
      cases h
      exact .nil later
  | cons request rest ih =>
      unfold outcomeOf at h
      split at h
      · rename_i transition hreduce
        exact .cons ⟨transition, hreduce, rfl⟩ (ih h)
      · cases h

/-- A request that carries one review as its evidence. -/
def evaluating (step : Fin 64) (command : KernelCommand) : Request Unit Unit :=
  let plain := request step command
  { plain with
    inputs :=
      { plain.inputs with
        acceptanceEvidence := some
          { reviews := [⟨identifier 3, revision, []⟩]
            waivers := []
            approvals := []
            facts := () } } }

/-- The reviewed attempt is evaluated. -/
def evaluated : List (Request Unit Unit) :=
  reviewing ++ [request 7 (.beginAcceptance (identifier 1)),
    evaluating 8 (.evaluateAcceptance (identifier 1))]

end Trace

end Peritus.Kernel.Acceptance
