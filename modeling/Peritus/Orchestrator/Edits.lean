import Peritus.Orchestrator.Reducer

/-!
What each accepted command does to the state: one edit for each way a handler
succeeds, with the checks it made, and one ending for each way a run concludes.
-/

namespace Peritus.Orchestrator.Edits

open Reducer
open Peritus.Types SortedTable Material Child Directive State Validation Command

/-! ### Sets of children -/

section Children

variable {kind child : ChildAggregateKind}
  {children remaining : List ChildAggregateKind}

theorem mem_of_lookupIndex {i : Nat}
    (h : lookupIndex ChildAggregateKind.tag kind.tag children = some i) :
    children[i]? = some kind := by
  obtain ⟨found, hfound, htag⟩ := lookupIndex_eq_some h
  rw [hfound, ChildAggregateKind.tag_injective htag]

theorem mem_insertChild :
    child ∈ insertChild kind children ↔ child = kind ∨ child ∈ children := by
  unfold insertChild
  split
  · rename_i i hfound
    have hmem := List.mem_of_getElem? (mem_of_lookupIndex hfound)
    constructor
    · exact .inr
    · rintro (rfl | h)
      · exact hmem
      · exact h
  · exact mem_insertAt

theorem sorted_insertChild (hsorted : Sorted ChildAggregateKind.tag children) :
    Sorted ChildAggregateKind.tag (insertChild kind children) := by
  unfold insertChild
  split
  · exact hsorted
  · rename_i hfound
    refine sorted_insertAt_slot kind hsorted fun other hother htag => ?_
    obtain ⟨i, hindex, _⟩ := lookupIndex_of_mem hsorted hother htag
    rw [hfound] at hindex
    cases hindex

theorem mem_insertChildren {kinds : List ChildAggregateKind} :
    child ∈ kinds.foldl (fun children kind => insertChild kind children)
        children ↔ child ∈ kinds ∨ child ∈ children := by
  induction kinds generalizing children with
  | nil => simp
  | cons first rest ih =>
      rw [List.foldl_cons, ih, mem_insertChild, List.mem_cons]
      constructor
      · rintro (h | rfl | h)
        · exact .inl (.inr h)
        · exact .inl (.inl rfl)
        · exact .inr h
      · rintro ((rfl | h) | h)
        · exact .inr (.inl rfl)
        · exact .inl h
        · exact .inr (.inr h)

/-- Only the child itself is removed. -/
theorem mem_removeChild (h : removeChild kind children = some remaining)
    (hmem : child ∈ children) (hne : child ≠ kind) : child ∈ remaining := by
  obtain ⟨i, hfound, rfl⟩ := Option.map_eq_some_iff.mp h
  obtain ⟨j, hj⟩ := List.mem_iff_getElem?.mp hmem
  refine List.mem_eraseIdx_iff_getElem?.mpr ⟨j, ?_, hj⟩
  rintro rfl
  rw [mem_of_lookupIndex hfound] at hj
  exact hne (Option.some.inj hj).symm

theorem mem_withoutChild (hmem : child ∈ children) (hne : child ≠ kind) :
    child ∈ withoutChild kind children := by
  unfold withoutChild
  cases h : removeChild kind children with
  | none => exact hmem
  | some remaining => exact mem_removeChild h hmem hne

end Children

/-- The children a run owns, counting those its pending directive started. -/
def ownedChildren (state : OrchestratorState) : List ChildAggregateKind :=
  match state.pendingDirective with
  | none => state.activeChildren
  | some directive =>
      (startedChildren directive.kind).foldl
        (fun children kind => insertChild kind children) state.activeChildren

theorem normalizePendingOwnership_eq (state : OrchestratorState) :
    normalizePendingOwnership state =
      { state with activeChildren := ownedChildren state } := by
  cases state
  unfold normalizePendingOwnership ownedChildren
  dsimp only
  split <;> rfl

theorem mem_ownedChildren {state : OrchestratorState}
    {child : ChildAggregateKind} :
    child ∈ ownedChildren state ↔ child ∈ state.activeChildren ∨
      ∃ directive, state.pendingDirective = some directive ∧
        child ∈ startedChildren directive.kind := by
  unfold ownedChildren
  cases hpending : state.pendingDirective with
  | none => simp
  | some directive =>
      simp only [mem_insertChildren, Option.some.injEq, exists_eq_left']
      exact or_comm

/-! ### Endings -/

section Hash

variable (sha256 : List UInt8 → Sha256Digest)

def terminalOf (cause : TerminalCause) (digest : Sha256Digest)
    (revision : RevisionTuple) : OrchestratorTerminal where
  kind := cause.terminalKind
  cause := cause
  causeDigest := digest
  revision := revision
  digest := terminalDigest sha256 cause.terminalKind cause digest revision

/-- The ways a run comes to conclude, up to the settling of its children. -/
inductive Ending (state : OrchestratorState) :
    OrchestratorCommandKind → OrchestratorEventKind → TerminalCause →
      Sha256Digest → OrchestratorState → Prop
  | writer {handoff observation counters}
      (hopen : state.openHandoff = some handoff)
      (hphase : state.phase = .active .writerActive) :
      Ending state (.observeWriter observation none none)
        (.writerObserved observation none none) .writerFailed
        observation.head.stateDigest
        { state with
          counters
          observations := state.observations ++ [.agent observation]
          activeChildren := withoutChild .agent state.activeChildren
          openHandoff := none }
  | gates {observation handoff counters}
      (hphase : state.phase = .active .gatesActive)
      (hclass : observation.gateClass ≠ .passed) :
      Ending state (.observeGates observation handoff)
        (.gatesObserved observation handoff)
        (gateFailure observation.gateClass) observation.evidenceDigest
        { state with
          counters
          observations := state.observations ++ [.gates observation]
          activeChildren := withoutChild .gates state.activeChildren
          pendingDirective := none }
  | review {observation fixer cause counters}
      (hphase : state.phase = .active .reviewActive)
      (hclass : observation.reviewClass ≠ .needsFix)
      (hcause : cause = .reviewNeedsHuman ∨ cause = .reviewFailed) :
      Ending state (.observeReview observation fixer)
        (.reviewObserved observation fixer) cause observation.head.stateDigest
        { state with
          counters
          observations := state.observations ++ [.review observation]
          activeChildren := withoutChild .review state.activeChildren
          openHandoff := none
          pendingDirective := none }
  | fixer {completion counters} {reviews : List ChildObservation}
      (hphase : state.phase = .active .fixerActive)
      (hreviews : ∀ review ∈ reviews, ∃ observation,
        review = ChildObservation.reviewFixer observation) :
      Ending state (.observeFixer completion) (.fixerObserved completion)
        .fixerFailed completion.observation.head.stateDigest
        { state with
          counters
          observations := state.observations ++
            (.agent completion.observation :: reviews)
          activeChildren := withoutChild .agent state.activeChildren
          openHandoff := none }
  | coordination {scheduler collaboration directive middle remaining counters}
      (hpending : state.pendingDirective = some directive)
      (hkind : directive.kind = .finalizeChildren)
      (hphase : state.phase = .active .evaluatingAcceptance ∨
        state.phase = .active .revisionAdvancing)
      (hfirst : removeChild .scheduler state.activeChildren = some middle)
      (hsecond : removeChild .collaboration middle = some remaining) :
      Ending state (.observeRoleInfrastructure scheduler collaboration)
        (.roleInfrastructureObserved scheduler collaboration)
        (coordinationFailure scheduler collaboration).1
        (coordinationFailure scheduler collaboration).2
        { state with
          counters
          observations := state.observations ++
            [.scheduler scheduler, .collaboration collaboration]
          activeChildren := remaining
          pendingDirective := none }
  | kernelAccepted {observation certificate directive counters}
      (hphase : state.phase = .active .kernelAcceptancePending)
      (hcertificate : state.acceptanceCertificate = some certificate)
      (hpending : state.pendingDirective = some directive)
      (hacknowledged : directive.deliveryState = .acknowledged)
      (houtcome : observation.outcome = .accepted)
      (hstage : stageExact certificate.kernelPlan directive observation = true)
      (hrun : observation.runId = state.binding.runId)
      (hrevision : observation.revision = state.currentCandidate.revision) :
      Ending state (.observeKernelAcceptance observation)
        (.kernelAcceptanceObserved observation) .kernelAccepted
        certificate.digest
        { state with
          counters
          observations := state.observations ++ [.kernelAcceptance observation]
          activeChildren := withoutChild .kernel state.activeChildren
          pendingDirective := none }
  | kernelNeedsChanges {observation certificate counters}
      (hphase : state.phase = .active .kernelAcceptancePending)
      (houtcome : observation.outcome = .needsChanges) :
      Ending state (.observeKernelAcceptance observation)
        (.kernelAcceptanceObserved observation) .kernelNeedsChanges
        (certificate : AcceptanceCertificate).digest
        { state with
          counters
          observations := state.observations ++ [.kernelAcceptance observation]
          activeChildren := withoutChild .kernel state.activeChildren
          pendingDirective := none }
  | rejected {digest} (hphase : state.phase ≠ .cancelling) :
      Ending state (.rejectRun digest)
        (.rejected (terminalOf sha256 .explicitRejection digest
          state.currentCandidate.revision)) .explicitRejection digest state
  | failed {digest} (hphase : state.phase ≠ .cancelling) :
      Ending state (.fail digest)
        (.failed (terminalOf sha256 .explicitFailure digest
          state.currentCandidate.revision)) .explicitFailure digest state
  | exhausted {digest} (hphase : state.phase ≠ .cancelling) :
      Ending state (.exhaust digest)
        (.exhausted (terminalOf sha256 .explicitExhaustion digest
          state.currentCandidate.revision)) .explicitExhaustion digest state

/-- A run without children ends at once, another begins to settle them. -/
inductive Concludes (state : OrchestratorState) (digest : Sha256Digest)
    (terminal : OrchestratorTerminal) : OrchestratorState → Prop
  | closed (howned : ownedChildren state = []) :
      Concludes state digest terminal
        ({ state with
          activeChildren := []
          pendingDirective := none }.setTerminal terminal)
  | settling (howned : ownedChildren state ≠ []) :
      Concludes state digest terminal
        { state with
          activeChildren := ownedChildren state
          pendingDirective := none
          cancellationCause := some digest
          pendingTerminal := some terminal
          phase := .cancelling }

/-! ### Edits -/

inductive Edit (state : OrchestratorState) (eventId : EventId) :
    OrchestratorCommandKind → OrchestratorEventKind → OrchestratorState → Prop
  | republish {directive}
      (hpending : state.pendingDirective = some directive)
      (hpaused : state.phase.isPaused = true →
        directive.kind = .pauseChildren)
      (hpublish : directive.canPublish = true) :
      Edit state eventId (.publishDirective directive)
        (.directivePublished directive)
        { state with pendingDirective := some directive.published }
  | publish {directive counters}
      (hpending : state.pendingDirective = none)
      (hvalid : directive.validate = .ok ())
      (hpaused : state.phase.isPaused = true →
        directive.kind = .pauseChildren)
      (hsource : directive.sourceEvent = eventId)
      (hmatches : matchesPhase sha256 state directive = true)
      (hpublish : directive.canPublish = true) :
      Edit state eventId (.publishDirective directive)
        (.directivePublished directive)
        { state with
          counters
          pendingDirective := some directive.published }
  | acknowledgeGates {directive counters}
      (hpending : state.pendingDirective = some directive)
      (hdelivered : directive.deliveryState ≠ .ready)
      (hphase : state.phase = .active .gatesPending) :
      Edit state eventId (.acknowledgeDirective directive.id)
        (.directiveAcknowledged directive.id)
        { state with
          counters
          pendingDirective := some directive.acknowledged
          activeChildren := insertChild .gates state.activeChildren
          phase := .active .gatesActive }
  | acknowledgeKernel {directive}
      (hpending : state.pendingDirective = some directive)
      (hdelivered : directive.deliveryState ≠ .ready)
      (hphase : state.phase = .active .kernelAcceptancePending)
      (hkind : directive.kind = .beginKernelAcceptance ∨
        directive.kind = .evaluateKernelAcceptance) :
      Edit state eventId (.acknowledgeDirective directive.id)
        (.directiveAcknowledged directive.id)
        { state with
          pendingDirective := some directive.acknowledged
          activeChildren := insertChild .kernel state.activeChildren }
  | acknowledgePause {directive child}
      (hpending : state.pendingDirective = some directive)
      (hdelivered : directive.deliveryState ≠ .ready)
      (hphase : state.phase.isPaused = true)
      (hkind : directive.kind = .pauseChildren)
      (hchild : childForDestination directive.destination = some child)
      (hactive : child ∈ state.activeChildren)
      (hrunning : child ∉ state.pausedChildren) :
      Edit state eventId (.acknowledgeDirective directive.id)
        (.directiveAcknowledged directive.id)
        { state with
          pendingDirective := none
          pausedChildren := insertChild child state.pausedChildren }
  | acknowledgeResume {directive child remaining}
      (hpending : state.pendingDirective = some directive)
      (hdelivered : directive.deliveryState ≠ .ready)
      (hphase : state.phase.isActive = true)
      (hgates : state.phase ≠ .active .gatesPending)
      (hkernel : state.phase ≠ .active .kernelAcceptancePending)
      (hreconciliation : state.pausedReconciliation.isSome = true)
      (hkind : directive.kind = .resumeChildren)
      (hchild : childForDestination directive.destination = some child)
      (hactive : child ∈ state.activeChildren)
      (hremoved : removeChild child state.pausedChildren = some remaining) :
      Edit state eventId (.acknowledgeDirective directive.id)
        (.directiveAcknowledged directive.id)
        { state with
          pausedChildren := remaining
          pendingDirective := none
          pausedReconciliation :=
            if remaining.isEmpty then none else state.pausedReconciliation }
  | acknowledge {directive}
      (hpending : state.pendingDirective = some directive)
      (hdelivered : directive.deliveryState ≠ .ready)
      (hgates : state.phase ≠ .active .gatesPending)
      (hkernel : state.phase = .active .kernelAcceptancePending →
        directive.kind ≠ .beginKernelAcceptance ∧
          directive.kind ≠ .evaluateKernelAcceptance)
      (hpause : state.phase.isPaused = true →
        directive.kind ≠ .pauseChildren) :
      Edit state eventId (.acknowledgeDirective directive.id)
        (.directiveAcknowledged directive.id)
        { state with pendingDirective := some directive.acknowledged }
  | activate {activation handoff directive counters}
      (hopen : state.openHandoff = some handoff)
      (hpending : state.pendingDirective = some directive)
      (hphase : state.phase = .active handoff.destinationPhase)
      (htask : directive.taskId = some handoff.taskId) :
      Edit state eventId (.observeHandoffActivation activation)
        (.handoffActivated activation)
        { state with
          counters
          activations := state.activations ++ [activation]
          activeChildren :=
            ([.scheduler, .collaboration, activeChildOf handoff.kind] :
              List ChildAggregateKind).foldl
                (fun children kind => insertChild kind children)
                state.activeChildren
          pendingDirective := none
          phase := .active (activePhaseOf handoff.kind) }
  | installWriter {observation material cycle counters}
      (hphase : state.phase = .active .writerActive)
      (hrevision : material.revision = state.currentCandidate.revision) :
      Edit state eventId (.observeWriter observation (some material) (some cycle))
        (.writerObserved observation (some material) (some cycle))
        { state.installWriterCandidate material cycle with
          counters
          observations := state.observations ++ [.agent observation]
          activeChildren := withoutChild .agent state.activeChildren
          openHandoff := none
          phase := .active .gatesPending }
  | passGates {observation handoff counters}
      (hphase : state.phase = .active .gatesActive)
      (hclass : observation.gateClass = .passed)
      (hrevision : observation.revision = state.currentQualityCycle.revision)
      (hkind : handoff.kind = .reviewer) :
      Edit state eventId (.observeGates observation (some handoff))
        (.gatesObserved observation (some handoff))
        { state with
          counters
          observations := state.observations ++ [.gates observation]
          activeChildren := withoutChild .gates state.activeChildren
          pendingDirective := none
          handoffs := state.handoffs ++ [handoff]
          openHandoff := some handoff
          phase := .active .reviewPending }
  | needFix {observation fixer counters}
      (hphase : state.phase = .active .reviewActive)
      (hclass : observation.reviewClass = .needsFix)
      (hkind : fixer.kind = .fixer) :
      Edit state eventId (.observeReview observation (some fixer))
        (.reviewObserved observation (some fixer))
        { state with
          counters
          observations := state.observations ++ [.review observation]
          pendingDirective := none
          handoffs := state.handoffs ++ [fixer]
          openHandoff := some fixer
          phase := .active .fixerPending }
  | completeReview {observation counters}
      (hphase : state.phase = .active .reviewActive)
      (hclass : observation.reviewClass = .completed)
      (hrevision : observation.revision = state.currentCandidate.revision) :
      Edit state eventId (.observeReview observation none)
        (.reviewObserved observation none)
        { state with
          counters
          observations := state.observations ++ [.review observation]
          activeChildren := withoutChild .review state.activeChildren
          openHandoff := none
          pendingDirective := none
          phase := .active .evaluatingAcceptance }
  | propose {completion candidate counters}
      {reviews : List ChildObservation}
      (hphase : state.phase = .active .fixerActive)
      (hreviews : ∀ review ∈ reviews, ∃ observation,
        review = ChildObservation.reviewFixer observation) :
      Edit state eventId (.observeFixer completion) (.fixerObserved completion)
        { state with
          counters
          observations := state.observations ++
            (.agent completion.observation :: reviews)
          activeChildren := withoutChild .agent state.activeChildren
          openHandoff := none
          proposedCandidate := some candidate
          phase := .active .revisionAdvancing }
  | coordinate {scheduler collaboration directive middle remaining counters}
      (hpending : state.pendingDirective = some directive)
      (hkind : directive.kind = .finalizeChildren)
      (hphase : state.phase = .active .evaluatingAcceptance ∨
        state.phase = .active .revisionAdvancing)
      (hfirst : removeChild .scheduler state.activeChildren = some middle)
      (hsecond : removeChild .collaboration middle = some remaining) :
      Edit state eventId (.observeRoleInfrastructure scheduler collaboration)
        (.roleInfrastructureObserved scheduler collaboration)
        { state with
          counters
          observations := state.observations ++
            [.scheduler scheduler, .collaboration collaboration]
          activeChildren := remaining
          pendingDirective := none }
  | advance {candidate cycle counters}
      (hphase : state.phase = .active .revisionAdvancing)
      (hproposed : state.proposedCandidate = some candidate)
      (hrevision : cycle.revision = candidate.revision)
      (hscheduler : .scheduler ∉ state.activeChildren)
      (hcollaboration : .collaboration ∉ state.activeChildren) :
      Edit state eventId (.advanceCandidate cycle)
        (.candidateAdvanced candidate cycle)
        { state.advanceCandidate candidate cycle with
          counters
          phase := .active .gatesPending }
  | certify {certificate directive}
      (hpending : state.pendingDirective = some directive)
      (hexact : certificateExact state directive certificate = true) :
      Edit state eventId (.recordAcceptanceCertificate certificate)
        (.acceptanceCertificateRecorded certificate)
        { state with
          pendingDirective := none
          acceptanceCertificate := some certificate
          phase := .active .kernelAcceptancePending }
  | beginKernel {observation certificate directive counters}
      (hphase : state.phase = .active .kernelAcceptancePending)
      (hcertificate : state.acceptanceCertificate = some certificate)
      (hpending : state.pendingDirective = some directive)
      (hacknowledged : directive.deliveryState = .acknowledged)
      (houtcome : observation.outcome = .begun)
      (hstage : stageExact certificate.kernelPlan directive observation = true)
      (hrun : observation.runId = state.binding.runId)
      (hrevision : observation.revision = state.currentCandidate.revision) :
      Edit state eventId (.observeKernelAcceptance observation)
        (.kernelAcceptanceObserved observation)
        { state with
          counters
          observations := state.observations ++ [.kernelAcceptance observation]
          pendingDirective := none }
  | pause {phase reconciliation}
      (hphase : state.phase = .active phase) :
      Edit state eventId (.pause reconciliation)
        (.paused (.paused phase) reconciliation)
        { state with
          pausedChildren := []
          pausedReconciliation := some reconciliation
          phase := .paused phase }
  | resume {phase reconciliation}
      (hphase : state.phase = .paused phase)
      (hreconciliation : state.pausedReconciliation = some reconciliation)
      (hpaused : state.pausedChildren = state.activeChildren) :
      Edit state eventId (.resume reconciliation)
        (.resumed (.active phase) reconciliation)
        { state with phase := .active phase }
  | cancel {digest} (hnonzero : nonzero digest = true)
      (hphase : state.phase ≠ .cancelling) :
      Edit state eventId (.cancel digest) (.cancellationRequested digest)
        { state with
          activeChildren := ownedChildren state
          cancellationCause := some digest
          pendingDirective := none
          pausedReconciliation := none
          pausedChildren := []
          phase := .cancelling }
  | reconcile {observation directive remaining counters pendingTerminal}
      (hphase : state.phase = .cancelling)
      (hpending : state.pendingDirective = some directive)
      (hchild : childForDestination directive.destination =
        some observation.aggregate)
      (hsettled : isSettlement state observation = true)
      (hremoved : removeChild observation.aggregate state.activeChildren =
        some remaining)
      (hterminal : pendingTerminal = state.pendingTerminal ∨
        ∃ digest, pendingTerminal = some (terminalOf sha256 .childAmbiguous
          digest state.currentCandidate.revision)) :
      Edit state eventId (.reconcileCancellation observation)
        (.cancellationReconciled observation)
        { state with
          counters
          observations := state.observations ++ [observation]
          activeChildren := remaining
          pendingDirective := none
          pendingTerminal }
  | finalize {terminal}
      (hphase : state.phase = .cancelling)
      (hactive : state.activeChildren = [])
      (hpending : state.pendingDirective = none)
      (hterminal : state.pendingTerminal = some terminal ∨
        ∃ digest, terminal = terminalOf sha256 .cancellationReconciled digest
          state.currentCandidate.revision) :
      Edit state eventId .finalize (.finalized terminal)
        (state.setTerminal terminal)
  | conclude {kind event cause digest ending next}
      (hending : Ending sha256 state kind event cause digest ending)
      (hnonzero : nonzero digest = true)
      (hconcludes : Concludes ending digest
        (terminalOf sha256 cause digest state.currentCandidate.revision)
        next) :
      Edit state eventId kind event next

end Hash

end Peritus.Orchestrator.Edits
