import Peritus.Orchestrator.Directive

/-!
The aggregate state of one orchestrated run, its counters, and the edits the
reducer is built of.
-/

namespace Peritus.Orchestrator.State

open Peritus.Types Checked SortedTable Material Child Directive
open Scheduler.State (zeroDigest)
open Collaboration.Task (u16Max)

inductive OrchestratorPhase
  | active (phase : ActivePhase)
  | paused (phase : ActivePhase)
  | cancelling
  | terminal
deriving DecidableEq

namespace OrchestratorPhase

def isActive : OrchestratorPhase → Bool
  | .active _ => true
  | _ => false

def isPaused : OrchestratorPhase → Bool
  | .paused _ => true
  | _ => false

/-- The phase that work is in, or that it was paused in. -/
def resumable : OrchestratorPhase → Option ActivePhase
  | .active phase | .paused phase => some phase
  | .cancelling | .terminal => none

end OrchestratorPhase

/-! ### Counters -/

structure OrchestratorCounters where
  revisions : Nat
  writerCycles : Nat
  fixerCycles : Nat
  gateCycles : Nat
  reviewCycles : Nat
  handoffs : Nat
  childDirectives : Nat
  retainedObservations : Nat
  cancellationReconciliations : Nat
deriving DecidableEq

inductive CounterKind
  | revisions
  | writerCycles
  | fixerCycles
  | gateCycles
  | reviewCycles
  | handoffs
  | childDirectives
  | retainedObservations
  | cancellationReconciliations
deriving DecidableEq

namespace OrchestratorCounters

def genesis : OrchestratorCounters where
  revisions := 1
  writerCycles := 0
  fixerCycles := 0
  gateCycles := 0
  reviewCycles := 0
  handoffs := 1
  childDirectives := 0
  retainedObservations := 0
  cancellationReconciliations := 0

def selected (counters : OrchestratorCounters) : CounterKind → Nat
  | .revisions => counters.revisions
  | .writerCycles => counters.writerCycles
  | .fixerCycles => counters.fixerCycles
  | .gateCycles => counters.gateCycles
  | .reviewCycles => counters.reviewCycles
  | .handoffs => counters.handoffs
  | .childDirectives => counters.childDirectives
  | .retainedObservations => counters.retainedObservations
  | .cancellationReconciliations => counters.cancellationReconciliations

def bump (counters : OrchestratorCounters) :
    CounterKind → OrchestratorCounters
  | .revisions => { counters with revisions := counters.revisions + 1 }
  | .writerCycles =>
      { counters with writerCycles := counters.writerCycles + 1 }
  | .fixerCycles => { counters with fixerCycles := counters.fixerCycles + 1 }
  | .gateCycles => { counters with gateCycles := counters.gateCycles + 1 }
  | .reviewCycles =>
      { counters with reviewCycles := counters.reviewCycles + 1 }
  | .handoffs => { counters with handoffs := counters.handoffs + 1 }
  | .childDirectives =>
      { counters with childDirectives := counters.childDirectives + 1 }
  | .retainedObservations =>
      { counters with
        retainedObservations := counters.retainedObservations + 1 }
  | .cancellationReconciliations =>
      { counters with
        cancellationReconciliations :=
          counters.cancellationReconciliations + 1 }

def validate (counters : OrchestratorCounters)
    (binding : OrchestratorBinding) : Except OrchestratorError Unit :=
  ensure (decide (0 < counters.revisions) &&
      decide (counters.revisions ≤ binding.limits.revisions) &&
      decide (counters.writerCycles ≤ binding.limits.writerCycles) &&
      decide (counters.fixerCycles ≤ binding.limits.fixerCycles) &&
      decide (counters.gateCycles ≤ binding.effectiveGateCycles) &&
      decide (counters.reviewCycles ≤ binding.effectiveReviewCycles) &&
      decide (counters.handoffs ≤ binding.limits.handoffs) &&
      decide (counters.childDirectives ≤ binding.limits.childDirectives) &&
      decide (counters.retainedObservations ≤
        binding.limits.retainedObservations) &&
      decide (counters.cancellationReconciliations ≤
        binding.limits.cancellationReconciliations))
    ⟨.limitExceeded, .needsHuman,
      "orchestrator counter exceeds its independent immutable limit"⟩

end OrchestratorCounters

/-! ### The state -/

structure OrchestratorState where
  binding : OrchestratorBinding
  ownership : RoleOwnership
  phase : OrchestratorPhase
  sequence : EventSequence
  lastEventId : EventId
  stateDigest : Sha256Digest
  currentCandidate : CandidateBinding
  candidateHistory : List CandidateBinding
  currentQualityCycle : QualityCycleBinding
  qualityCycleHistory : List QualityCycleBinding
  proposedCandidate : Option CandidateBinding
  counters : OrchestratorCounters
  handoffs : List Handoff
  openHandoff : Option Handoff
  activations : List HandoffActivationObservation
  observations : List ChildObservation
  activeChildren : List ChildAggregateKind
  pendingDirective : Option PendingDirective
  acceptanceCertificate : Option AcceptanceCertificate
  cancellationCause : Option Sha256Digest
  usedCommands : List CommandId
  terminal : Option OrchestratorTerminal
  pendingTerminal : Option OrchestratorTerminal
  pausedReconciliation : Option ResumeReconciliation
  pausedChildren : List ChildAggregateKind
deriving DecidableEq

/-- `binary_search` and insertion at the position it returns. -/
def insertChild (kind : ChildAggregateKind)
    (children : List ChildAggregateKind) : List ChildAggregateKind :=
  match lookupIndex ChildAggregateKind.tag kind.tag children with
  | some _ => children
  | none =>
      insertAt (slot ChildAggregateKind.tag kind.tag children) kind children

/-- `none` when the child is not in the set. -/
def removeChild (kind : ChildAggregateKind)
    (children : List ChildAggregateKind) : Option (List ChildAggregateKind) :=
  (lookupIndex ChildAggregateKind.tag kind.tag children).map children.eraseIdx

/-- Removing a child that is not in the set changes nothing. -/
def withoutChild (kind : ChildAggregateKind)
    (children : List ChildAggregateKind) : List ChildAggregateKind :=
  (removeChild kind children).getD children

namespace OrchestratorState

def genesis (binding : OrchestratorBinding) (ownership : RoleOwnership)
    (candidate : CandidateBinding) (writerHandoff : Handoff)
    (cycle : QualityCycleBinding) (sequence : EventSequence)
    (eventId : EventId) (commandId : CommandId) : OrchestratorState where
  binding := binding
  ownership := ownership
  phase := .active .writerPending
  sequence := sequence
  lastEventId := eventId
  stateDigest := zeroDigest
  currentCandidate := candidate
  candidateHistory := [candidate]
  currentQualityCycle := cycle
  qualityCycleHistory := [cycle]
  proposedCandidate := none
  counters := OrchestratorCounters.genesis
  handoffs := [writerHandoff]
  openHandoff := some writerHandoff
  activations := []
  observations := []
  activeChildren := []
  pendingDirective := none
  acceptanceCertificate := none
  cancellationCause := none
  usedCommands := [commandId]
  terminal := none
  pendingTerminal := none
  pausedReconciliation := none
  pausedChildren := []

/-! ### Edits -/

def insertActiveChild (state : OrchestratorState)
    (kind : ChildAggregateKind) : OrchestratorState :=
  { state with activeChildren := insertChild kind state.activeChildren }

def insertActiveChildren (state : OrchestratorState)
    (kinds : List ChildAggregateKind) : OrchestratorState :=
  { state with
    activeChildren :=
      kinds.foldl (fun children kind => insertChild kind children)
        state.activeChildren }

def removeActiveChild (state : OrchestratorState)
    (kind : ChildAggregateKind) : OrchestratorState :=
  { state with activeChildren := withoutChild kind state.activeChildren }

def insertPausedChild (state : OrchestratorState)
    (kind : ChildAggregateKind) : OrchestratorState :=
  { state with pausedChildren := insertChild kind state.pausedChildren }

def pushObservation (state : OrchestratorState)
    (observation : ChildObservation) : OrchestratorState :=
  { state with observations := state.observations ++ [observation] }

def pushActivation (state : OrchestratorState)
    (activation : HandoffActivationObservation) : OrchestratorState :=
  { state with activations := state.activations ++ [activation] }

def pushHandoff (state : OrchestratorState) (handoff : Handoff) :
    OrchestratorState :=
  { state with handoffs := state.handoffs ++ [handoff] }

/-- The writer's candidate replaces the genesis candidate in the history. -/
def installWriterCandidate (state : OrchestratorState)
    (candidate : CandidateBinding) (cycle : QualityCycleBinding) :
    OrchestratorState :=
  { state with
    currentCandidate := candidate
    candidateHistory := state.candidateHistory.dropLast ++
      (state.candidateHistory.getLast?.map fun _ => candidate).toList
    currentQualityCycle := cycle
    qualityCycleHistory := state.qualityCycleHistory.dropLast ++
      (state.qualityCycleHistory.getLast?.map fun _ => cycle).toList }

def advanceCandidate (state : OrchestratorState)
    (candidate : CandidateBinding) (cycle : QualityCycleBinding) :
    OrchestratorState :=
  { state with
    currentCandidate := candidate
    candidateHistory := state.candidateHistory ++ [candidate]
    currentQualityCycle := cycle
    qualityCycleHistory := state.qualityCycleHistory ++ [cycle]
    proposedCandidate := none
    acceptanceCertificate := none }

def setTerminal (state : OrchestratorState)
    (terminal : OrchestratorTerminal) : OrchestratorState :=
  { state with
    cancellationCause :=
      if terminal.kind = .cancelled then state.cancellationCause else none
    terminal := some terminal
    pendingTerminal := none
    openHandoff := none
    proposedCandidate := none
    pendingDirective := none
    pausedReconciliation := none
    pausedChildren := []
    phase := .terminal }

def setPendingTerminal (state : OrchestratorState)
    (terminal : OrchestratorTerminal) : OrchestratorState :=
  { state with pendingTerminal := some terminal, phase := .cancelling }

def incrementCounter (state : OrchestratorState) (kind : CounterKind) :
    Except OrchestratorError OrchestratorState := do
  ensure (decide (state.counters.selected kind < u16Max))
    ⟨.limitExceeded, .needsHuman, "orchestrator counter overflowed"⟩
  let counters := state.counters.bump kind
  counters.validate state.binding
  .ok { state with counters }

def advanceCursor (state : OrchestratorState) (sequence : EventSequence)
    (eventId : EventId) (commandId : CommandId) : OrchestratorState :=
  { state with
    sequence
    lastEventId := eventId
    usedCommands := state.usedCommands ++ [commandId] }

end OrchestratorState

end Peritus.Orchestrator.State
