import Peritus.TransitionSystem
import Peritus.Orchestrator.Handlers

/-!
What every edit keeps of a run: the pending directive fits the state it is
pending in, paused children belong to a recorded checkpoint, and a run that is
settling has a cause and no accepted outcome.
-/

namespace Peritus.Orchestrator.Invariant

open Peritus.Types Checked TransitionSystem Material Child Directive State
open Validation Command Reducer Edits Handlers

/-- What a directive says of the state it is pending in. -/
def Fits (state : OrchestratorState) (directive : PendingDirective) : Prop :=
  match directive.kind with
  | .startWriter => state.phase.resumable = some .writerPending
  | .startGates => state.phase.resumable = some .gatesPending ∨
      state.phase.resumable = some .gatesActive
  | .startReview => state.phase.resumable = some .reviewPending
  | .startFixer => state.phase.resumable = some .fixerPending
  | .evaluateAcceptance => state.phase.resumable = some .evaluatingAcceptance
  | .finalizeChildren => (state.phase.resumable = some .evaluatingAcceptance ∨
      state.phase.resumable = some .revisionAdvancing) ∧
        d3Active state = true
  | .beginKernelAcceptance | .evaluateKernelAcceptance =>
      state.phase.resumable = some .kernelAcceptancePending
  | .pauseChildren => state.phase.isPaused = true ∧
      ∃ child ∈ state.activeChildren, child ∉ state.pausedChildren
  | .resumeChildren => state.phase.isActive = true ∧
      state.pausedReconciliation.isSome = true
  | .cancelChildren => state.phase = .cancelling ∧
      ∃ child, childForDestination directive.destination = some child ∧
        child ∈ state.activeChildren

def kernelStage (kind : DirectiveKind) : Prop :=
  kind = .beginKernelAcceptance ∨ kind = .evaluateKernelAcceptance

/-- What holds of the state between any two commands. -/
structure Kept (state : OrchestratorState) : Prop where
  fits : ∀ directive, state.pendingDirective = some directive →
    Fits state directive
  kernel : ∀ directive, state.pendingDirective = some directive →
    kernelStage directive.kind → directive.deliveryState = .acknowledged →
      .kernel ∈ state.activeChildren ∨
        state.pausedReconciliation.isSome = true
  running : state.pausedReconciliation = none → state.pausedChildren = []
  checkpointed : state.phase.isPaused = true →
    state.pausedReconciliation.isSome = true
  caused : state.phase = .cancelling →
    ∃ digest, state.cancellationCause = some digest ∧ nonzero digest = true
  evaluated : state.phase.resumable = some .kernelAcceptancePending →
    state.activeChildren = [] ∨ state.activeChildren = [.kernel]
  unaccepted : ∀ terminal, state.pendingTerminal = some terminal →
    terminal.kind ≠ .accepted

variable {sha256 : List UInt8 → Sha256Digest}
  {state next ending : OrchestratorState} {event : OrchestratorEventKind}
  {kind : OrchestratorCommandKind} {eventId : EventId} {phase : ActivePhase}
  {directive : PendingDirective}

/-! ### Published directives -/

theorem kind_of_matchesHandoff {found : DirectiveKind}
    (h : matchesHandoff sha256 state directive found = true) :
    directive.kind = found := by
  unfold matchesHandoff at h
  rw [Option.any_eq_true] at h
  obtain ⟨_, _, h⟩ := h
  simp only [Bool.and_eq_true, decide_eq_true_eq] at h
  exact h.1.1.1.1

theorem kind_of_finalizeChildren
    (h : finalizeChildren sha256 state directive = true) :
    directive.kind = .finalizeChildren := by
  unfold finalizeChildren at h
  simp only [Bool.and_eq_true, decide_eq_true_eq] at h
  exact h.1.1.1

theorem kernelStage_of_kernelMatches
    (h : kernelMatches sha256 state directive = true) :
    kernelStage directive.kind := by
  unfold kernelMatches at h
  split at h
  · cases h
  · dsimp only at h
    split at h
    · rename_i hkind
      exact .inl hkind
    · rename_i hkind
      exact .inr hkind
    · cases h

theorem fits_of_kernelStage (hkind : kernelStage directive.kind)
    (hphase : state.phase.resumable = some .kernelAcceptancePending) :
    Fits state directive := by
  unfold Fits
  rcases hkind with hkind | hkind <;> rw [hkind] <;> exact hphase

theorem fits_of_matchesWork
    (hmatches : matchesWork sha256 state directive state.phase = true) :
    Fits state directive := by
  cases hphase : state.phase with
  | active phase =>
      rw [hphase] at hmatches
      cases phase with
      | writerPending =>
          unfold Fits
          rw [kind_of_matchesHandoff hmatches, hphase]
          rfl
      | gatesPending =>
          simp only [matchesWork, Bool.and_eq_true,
            decide_eq_true_eq] at hmatches
          unfold Fits
          rw [hmatches.1.1.1, hphase]
          exact .inl rfl
      | reviewPending =>
          unfold Fits
          rw [kind_of_matchesHandoff hmatches, hphase]
          rfl
      | fixerPending =>
          unfold Fits
          rw [kind_of_matchesHandoff hmatches, hphase]
          rfl
      | evaluatingAcceptance =>
          simp only [matchesWork] at hmatches
          split at hmatches
          · rename_i hcoordinated
            unfold Fits
            rw [kind_of_finalizeChildren hmatches, hphase]
            exact ⟨.inl rfl, hcoordinated⟩
          · simp only [Bool.and_eq_true, decide_eq_true_eq] at hmatches
            unfold Fits
            rw [hmatches.1.1, hphase]
            rfl
      | revisionAdvancing =>
          simp only [matchesWork, Bool.and_eq_true] at hmatches
          obtain ⟨hcoordinated, hmatches⟩ := hmatches
          unfold Fits
          rw [kind_of_finalizeChildren hmatches, hphase]
          exact ⟨.inr rfl, hcoordinated⟩
      | kernelAcceptancePending =>
          refine fits_of_kernelStage (kernelStage_of_kernelMatches hmatches) ?_
          rw [hphase]
          rfl
      | writerActive => cases hmatches
      | gatesActive => cases hmatches
      | reviewActive => cases hmatches
      | fixerActive => cases hmatches
  | paused phase =>
      rw [hphase] at hmatches
      simp only [matchesWork, Bool.and_eq_true, decide_eq_true_eq,
        Option.any_eq_true] at hmatches
      obtain ⟨⟨hkind, child, _, hactive, hrunning⟩, _⟩ := hmatches
      unfold Fits
      rw [hkind, hphase]
      exact ⟨rfl, child, hactive, hrunning⟩
  | cancelling =>
      rw [hphase] at hmatches
      simp only [matchesWork, Bool.and_eq_true, decide_eq_true_eq,
        Option.any_eq_true] at hmatches
      obtain ⟨⟨hkind, _⟩, child, hchild, hactive⟩ := hmatches
      unfold Fits
      rw [hkind, hphase]
      exact ⟨rfl, child, hchild, hactive⟩
  | terminal =>
      rw [hphase] at hmatches
      cases hmatches

theorem fits_of_matchesPhase
    (hmatches : matchesPhase sha256 state directive = true) :
    Fits state directive := by
  unfold matchesPhase at hmatches
  rw [Bool.and_eq_true] at hmatches
  obtain ⟨_, hmatches⟩ := hmatches
  split at hmatches
  · rename_i reconciliation hactive hreconciliation
    simp only [matchesResume, Bool.and_eq_true, decide_eq_true_eq] at hmatches
    unfold Fits
    rw [hmatches.1.1, hreconciliation]
    exact ⟨hactive, rfl⟩
  · exact fits_of_matchesWork hmatches

/-! ### Directives that fit no phase -/

/-- A role that is working has nothing pending. -/
theorem pending_eq_none_of_working
    (hfits : ∀ directive, state.pendingDirective = some directive →
      Fits state directive)
    (hphase : state.phase = .active phase)
    (hworking : phase = .writerActive ∨ phase = .reviewActive ∨
      phase = .fixerActive)
    (hresumed : state.pausedReconciliation = none) :
    state.pendingDirective = none := by
  cases hpending : state.pendingDirective with
  | none => rfl
  | some directive =>
      have hfit := hfits directive hpending
      unfold Fits at hfit
      rw [hphase, hresumed] at hfit
      rcases hworking with rfl | rfl | rfl <;>
        cases hkind : directive.kind <;>
        simp [hkind, OrchestratorPhase.resumable,
          OrchestratorPhase.isPaused] at hfit

/-- A proposal advances after the coordination of its predecessor ended. -/
theorem pending_eq_none_of_advancing
    (hfits : ∀ directive, state.pendingDirective = some directive →
      Fits state directive)
    (hphase : state.phase = .active .revisionAdvancing)
    (hquiet : d3Active state = false)
    (hresumed : state.pausedReconciliation = none) :
    state.pendingDirective = none := by
  cases hpending : state.pendingDirective with
  | none => rfl
  | some directive =>
      have hfit := hfits directive hpending
      unfold Fits at hfit
      rw [hphase, hresumed, hquiet] at hfit
      cases hkind : directive.kind <;>
        simp [hkind, OrchestratorPhase.resumable,
          OrchestratorPhase.isPaused] at hfit

theorem resumable_of_kernelStage (hfit : Fits state directive)
    (hstage : kernelStage directive.kind) :
    state.phase.resumable = some .kernelAcceptancePending := by
  unfold Fits at hfit
  rcases hstage with hkind | hkind <;> (rw [hkind] at hfit; exact hfit)

/-! ### Directives that stay pending as the phase changes -/

theorem fits_of_started {counters : OrchestratorCounters}
    (hfit : Fits state directive) (hphase : state.phase = .active .gatesPending) :
    Fits
      { state with
        counters
        pendingDirective := some directive.acknowledged
        activeChildren := insertChild .gates state.activeChildren
        phase := .active .gatesActive } directive.acknowledged := by
  unfold Fits at hfit ⊢
  rw [hphase] at hfit
  dsimp only [PendingDirective.acknowledged]
  cases hkind : directive.kind <;> rw [hkind] at hfit
  case startGates => exact .inr rfl
  case resumeChildren => exact hfit
  all_goals simp [OrchestratorPhase.resumable, OrchestratorPhase.isPaused] at hfit

theorem fits_of_paused {reconciliation : ResumeReconciliation}
    (hfit : Fits state directive) (hphase : state.phase = .active phase)
    (hresumed : state.pausedReconciliation = none) :
    Fits
      { state with
        pausedChildren := []
        pausedReconciliation := some reconciliation
        phase := .paused phase } directive := by
  unfold Fits at hfit ⊢
  rw [hphase] at hfit
  cases hkind : directive.kind <;> rw [hkind] at hfit
  case pauseChildren => exact absurd hfit.1 Bool.false_ne_true
  case resumeChildren =>
    rw [hresumed] at hfit
    exact absurd hfit.2 (by decide)
  case cancelChildren => exact absurd hfit.1 (by simp)
  all_goals exact hfit

theorem fits_of_resumed (hfit : Fits state directive)
    (hphase : state.phase = .paused phase)
    (hpaused : state.pausedChildren = state.activeChildren) :
    Fits { state with phase := .active phase } directive := by
  unfold Fits at hfit ⊢
  rw [hphase] at hfit
  cases hkind : directive.kind <;> rw [hkind] at hfit
  case pauseChildren =>
    obtain ⟨_, child, hactive, hrunning⟩ := hfit
    rw [hpaused] at hrunning
    exact absurd hactive hrunning
  case resumeChildren => exact absurd hfit.1 Bool.false_ne_true
  case cancelChildren => exact absurd hfit.1 (by simp)
  all_goals exact hfit

/-! ### Endings -/

/-- An ending settles children and records what it observed, no more. -/
structure SamePause (state ending : OrchestratorState) : Prop where
  phase : ending.phase = state.phase
  reconciliation : ending.pausedReconciliation = state.pausedReconciliation
  children : ending.pausedChildren = state.pausedChildren
  terminal : ending.pendingTerminal = state.pendingTerminal
  concluded : ending.terminal = state.terminal
  candidate : ending.currentCandidate = state.currentCandidate

theorem samePause_of_ending {cause : TerminalCause} {digest : Sha256Digest}
    (hending : Ending sha256 state kind event cause digest ending) :
    SamePause state ending := by
  cases hending <;> exact ⟨rfl, rfl, rfl, rfl, rfl, rfl⟩

theorem gateFailure_kind (gateClass : GateObservationClass) :
    (gateFailure gateClass).terminalKind ≠ .accepted := by
  cases gateClass <;> decide

/-- The kernel is the last child a run accepts. -/
theorem owned_eq_nil_of_accepted {cause : TerminalCause}
    {digest : Sha256Digest} (hkept : Kept state)
    (hending : Ending sha256 state kind event cause digest ending)
    (hcause : cause.terminalKind = .accepted) : ownedChildren ending = [] := by
  cases hending with
  | kernelAccepted hphase =>
      unfold ownedChildren
      dsimp only
      rcases hkept.evaluated (by rw [hphase]; rfl) with hnil | hkernel
      · rw [hnil]
        rfl
      · rw [hkernel]
        rfl
  | gates => exact absurd hcause (gateFailure_kind _)
  | review _ _ hreview =>
      rcases hreview with rfl | rfl <;> cases hcause
  | coordination =>
      unfold coordinationFailure at hcause
      dsimp only at hcause
      split at hcause <;> cases hcause
  | writer => cases hcause
  | fixer => cases hcause
  | kernelNeedsChanges => cases hcause
  | rejected => cases hcause
  | failed => cases hcause
  | exhausted => cases hcause

/-- What a certificate is checked against. -/
structure Exact (state : OrchestratorState) (directive : PendingDirective)
    (certificate : AcceptanceCertificate) : Prop where
  phase : state.phase = .active .evaluatingAcceptance
  settled : state.activeChildren = []
  kind : directive.kind = .evaluateAcceptance
  revision : certificate.revision = state.currentCandidate.revision
  gate : ∃ gate, lastGate state = some gate ∧
    certificate.gateStateDigest = gate.head.stateDigest
  review : ∃ review, lastReview state = some review ∧
    certificate.reviewStateDigest = review.head.stateDigest

theorem exact_of_certificateExact {certificate : AcceptanceCertificate}
    (h : certificateExact state directive certificate = true) :
    Exact state directive certificate := by
  unfold certificateExact at h
  simp only [Bool.and_eq_true, decide_eq_true_eq, List.isEmpty_iff,
    Option.any_eq_true] at h
  obtain ⟨⟨⟨⟨⟨⟨⟨⟨⟨⟨⟨⟨⟨hphase, hsettled⟩, hkind⟩, _⟩, _⟩, _⟩, _⟩, _⟩, _⟩, _⟩,
    hrevision⟩, _⟩, hgate⟩, hreview⟩ := h
  exact ⟨hphase, hsettled, hkind, hrevision, hgate, hreview⟩

theorem kernelStage_of_stageExact {plan : KernelAcceptancePlan}
    {observation : KernelAcceptanceObservation}
    (h : stageExact plan directive observation = true) :
    kernelStage directive.kind := by
  unfold stageExact at h
  split at h
  · simp only [Bool.and_eq_true, decide_eq_true_eq] at h
    exact .inl h.1.1.1
  · simp only [Bool.and_eq_true, decide_eq_true_eq] at h
    exact .inr h.1.1.1
  · simp only [Bool.and_eq_true, decide_eq_true_eq] at h
    exact .inr h.1.1.1
  · cases h

/-! ### Every edit keeps the invariant -/

theorem isPaused_of_isActive {phase : OrchestratorPhase}
    (h : phase.isActive = true) : phase.isPaused = false := by
  cases phase with
  | active => rfl
  | paused => cases h
  | cancelling => rfl
  | terminal => rfl

theorem Kept.cleared (hkept : Kept state)
    (hpending : next.pendingDirective = none)
    (hactive : next.phase.isActive = true)
    (hevaluated : next.phase.resumable = some .kernelAcceptancePending →
      next.activeChildren = [] ∨ next.activeChildren = [.kernel])
    (hreconciliation :
      next.pausedReconciliation = state.pausedReconciliation)
    (hpaused : next.pausedChildren = state.pausedChildren)
    (hterminal : next.pendingTerminal = state.pendingTerminal) :
    Kept next where
  fits directive h := by rw [hpending] at h; cases h
  kernel directive h := by rw [hpending] at h; cases h
  running h := by
    rw [hreconciliation] at h
    rw [hpaused]
    exact hkept.running h
  checkpointed h := by rw [isPaused_of_isActive hactive] at h; cases h
  caused h := by rw [h] at hactive; cases hactive
  evaluated := hevaluated
  unaccepted := by rw [hterminal]; exact hkept.unaccepted

theorem kept_of_concludes {cause : TerminalCause} {digest : Sha256Digest}
    (hkept : Kept state)
    (hending : Ending sha256 state kind event cause digest ending)
    (hnonzero : nonzero digest = true)
    (hconcludes : Concludes ending digest
      (terminalOf sha256 cause digest state.currentCandidate.revision) next) :
    Kept next := by
  have hsame := samePause_of_ending hending
  cases hconcludes with
  | closed howned =>
      exact
        { fits := fun _ h => by cases h
          kernel := fun _ h => by cases h
          running := fun _ => rfl
          checkpointed := fun h => by cases h
          caused := fun h => by cases h
          evaluated := fun h => by cases h
          unaccepted := fun _ h => by cases h }
  | settling howned =>
      exact
        { fits := fun _ h => by cases h
          kernel := fun _ h => by cases h
          running := fun h => by
            rw [show ending.pausedChildren = state.pausedChildren from
              hsame.children] 
            exact hkept.running (hsame.reconciliation.symm.trans h)
          checkpointed := fun h => by cases h
          caused := fun _ => ⟨digest, rfl, hnonzero⟩
          evaluated := fun h => by cases h
          unaccepted := fun terminal h hkind => by
            cases h
            exact howned (owned_eq_nil_of_accepted hkept hending hkind) }

/-- One step of the invariant.  A resuming run commits nothing but directives
and cancellation, which is all that `hresuming` excludes. -/
theorem kept_of_edit (hkept : Kept state)
    (hresuming : state.phase.isActive = true →
      state.pausedReconciliation.isSome = true → resumesChildren kind = true)
    (hedit : Edit sha256 state eventId kind event next) : Kept next := by
  have hresumed : resumesChildren kind = false →
      state.phase.isActive = true → state.pausedReconciliation = none := by
    intro hkind hactive
    cases hsome : state.pausedReconciliation with
    | none => rfl
    | some reconciliation =>
        rw [hresuming hactive (by rw [hsome]; rfl)] at hkind
        cases hkind
  cases hedit with
  | republish hpending hpaused hpublish =>
      have hfit := hkept.fits _ hpending
      exact
        { fits := fun _ h => by
            cases h
            exact hfit
          kernel := fun _ h _ hdelivered => by
            cases h
            cases hdelivered
          running := hkept.running
          checkpointed := hkept.checkpointed
          caused := hkept.caused
          evaluated := hkept.evaluated
          unaccepted := hkept.unaccepted }
  | publish hpending hvalid hpaused hsource hmatches hpublish =>
      exact
        { fits := fun _ h => by
            cases h
            exact fits_of_matchesPhase hmatches
          kernel := fun _ h _ hdelivered => by
            cases h
            cases hdelivered
          running := hkept.running
          checkpointed := hkept.checkpointed
          caused := hkept.caused
          evaluated := hkept.evaluated
          unaccepted := hkept.unaccepted }
  | acknowledgeGates hpending hdelivered hphase =>
      have hfit := hkept.fits _ hpending
      refine
        { fits := fun _ h => ?_
          kernel := fun _ h hstage _ => ?_
          running := hkept.running
          checkpointed := fun h => by cases h
          caused := fun h => by cases h
          evaluated := fun h => by cases h
          unaccepted := hkept.unaccepted }
      · cases h
        exact fits_of_started hfit hphase
      · cases h
        have hkernel := resumable_of_kernelStage hfit hstage
        rw [hphase] at hkernel
        cases hkernel
  | acknowledgeKernel hpending hdelivered hphase hkind =>
      have hevaluated := hkept.evaluated (by rw [hphase]; rfl)
      refine
        { fits := fun _ h => ?_
          kernel := fun _ h _ _ => .inl (mem_insertChild.mpr (.inl rfl))
          running := hkept.running
          checkpointed := hkept.checkpointed
          caused := hkept.caused
          evaluated := fun _ => ?_
          unaccepted := hkept.unaccepted }
      · cases h
        exact fits_of_kernelStage hkind (by dsimp only; rw [hphase]; rfl)
      · right
        dsimp only
        rcases hevaluated with hnil | hkernel
        · rw [hnil]
          rfl
        · rw [hkernel]
          rfl
  | acknowledgePause hpending hdelivered hphase =>
      have hsome := hkept.checkpointed hphase
      exact
        { fits := fun _ h => by cases h
          kernel := fun _ h => by cases h
          running := fun h => by
            dsimp only at h
            rw [h] at hsome
            cases hsome
          checkpointed := hkept.checkpointed
          caused := hkept.caused
          evaluated := hkept.evaluated
          unaccepted := hkept.unaccepted }
  | acknowledgeResume hpending hdelivered hactive hgates hkernel hsome =>
      rename_i directive child remaining _ _ _ _
      exact
        { fits := fun _ h => by cases h
          kernel := fun _ h => by cases h
          running := fun h => by
            dsimp only at h
            split at h
            · rename_i hempty
              exact List.isEmpty_iff.mp hempty
            · rw [h] at hsome
              cases hsome
          checkpointed := fun h => by
            rw [isPaused_of_isActive hactive] at h
            cases h
          caused := hkept.caused
          evaluated := hkept.evaluated
          unaccepted := hkept.unaccepted }
  | acknowledge hpending hdelivered hgates hkernel hpause =>
      have hfit := hkept.fits _ hpending
      refine
        { fits := fun _ h => ?_
          kernel := fun _ h hstage _ => ?_
          running := hkept.running
          checkpointed := hkept.checkpointed
          caused := hkept.caused
          evaluated := hkept.evaluated
          unaccepted := hkept.unaccepted }
      · cases h
        exact hfit
      · cases h
        right
        refine hkept.checkpointed ?_
        have hstaged := resumable_of_kernelStage hfit hstage
        cases hphase : state.phase with
        | active phase =>
            rw [hphase] at hstaged
            cases hstaged
            obtain ⟨hbegin, hevaluate⟩ := hkernel hphase
            exact absurd hstage fun h => h.elim hbegin hevaluate
        | paused phase => rfl
        | cancelling => rw [hphase] at hstaged; cases hstaged
        | terminal => rw [hphase] at hstaged; cases hstaged
  | activate hopen hpending hphase htask =>
      rename_i handoff _ _
      refine hkept.cleared rfl rfl (fun h => ?_) rfl rfl rfl
      cases hkind : handoff.kind <;> simp [hkind, activePhaseOf, OrchestratorPhase.resumable] at h
  | installWriter hphase hrevision =>
      have hidle := pending_eq_none_of_working hkept.fits hphase (.inl rfl)
        (hresumed rfl (by rw [hphase]; rfl))
      exact hkept.cleared hidle rfl (fun h => by cases h) rfl rfl rfl
  | passGates => exact hkept.cleared rfl rfl (fun h => by cases h) rfl rfl rfl
  | needFix => exact hkept.cleared rfl rfl (fun h => by cases h) rfl rfl rfl
  | completeReview =>
      exact hkept.cleared rfl rfl (fun h => by cases h) rfl rfl rfl
  | propose hphase hreviews =>
      have hidle := pending_eq_none_of_working hkept.fits hphase
        (.inr (.inr rfl)) (hresumed rfl (by rw [hphase]; rfl))
      exact hkept.cleared hidle rfl (fun h => by cases h) rfl rfl rfl
  | coordinate hpending hkind hphase hfirst hsecond =>
      refine hkept.cleared rfl ?_ (fun h => ?_) rfl rfl rfl
      · rcases hphase with hphase | hphase <;> (dsimp only; rw [hphase]; rfl)
      · dsimp only at h
        rcases hphase with hphase | hphase <;> (rw [hphase] at h; cases h)
  | advance hphase hproposed hrevision hscheduler hcollaboration =>
      have hquiet : d3Active state = false := by
        unfold d3Active
        rw [decide_eq_false hscheduler, decide_eq_false hcollaboration]
        rfl
      have hidle := pending_eq_none_of_advancing hkept.fits hphase hquiet
        (hresumed rfl (by rw [hphase]; rfl))
      exact hkept.cleared hidle rfl (fun h => by cases h) rfl rfl rfl
  | certify hpending hexact =>
      refine hkept.cleared rfl rfl (fun _ => .inl ?_) rfl rfl rfl
      exact (exact_of_certificateExact hexact).settled
  | beginKernel hphase =>
      refine hkept.cleared rfl (by dsimp only; rw [hphase]; rfl) hkept.evaluated rfl rfl rfl
  | pause hphase =>
      have hnone := hresumed rfl (by rw [hphase]; rfl)
      exact
        { fits := fun _ h =>
            fits_of_paused (hkept.fits _ h) hphase hnone
          kernel := fun _ _ _ _ => .inr rfl
          running := fun _ => rfl
          checkpointed := fun _ => rfl
          caused := fun h => by cases h
          evaluated := fun h => hkept.evaluated (by rw [hphase]; exact h)
          unaccepted := hkept.unaccepted }
  | resume hphase hreconciliation hpaused =>
      exact
        { fits := fun _ h =>
            fits_of_resumed (hkept.fits _ h) hphase hpaused
          kernel := hkept.kernel
          running := hkept.running
          checkpointed := fun h => by cases h
          caused := fun h => by cases h
          evaluated := fun h => hkept.evaluated (by rw [hphase]; exact h)
          unaccepted := hkept.unaccepted }
  | cancel hnonzero hphase =>
      rename_i digest
      exact
        { fits := fun _ h => by cases h
          kernel := fun _ h => by cases h
          running := fun _ => rfl
          checkpointed := fun h => by cases h
          caused := fun _ => ⟨digest, rfl, hnonzero⟩
          evaluated := fun h => by cases h
          unaccepted := hkept.unaccepted }
  | reconcile hphase hpending hchild hsettled hremoved hterminal =>
      exact
        { fits := fun _ h => by cases h
          kernel := fun _ h => by cases h
          running := hkept.running
          checkpointed := hkept.checkpointed
          caused := hkept.caused
          evaluated := fun h => by
            dsimp only at h
            rw [hphase] at h
            cases h
          unaccepted := fun terminal h => by
            rcases hterminal with rfl | ⟨digest, rfl⟩
            · exact hkept.unaccepted terminal h
            · cases h
              exact fun h => by cases h }
  | finalize =>
      exact
        { fits := fun _ h => by cases h
          kernel := fun _ h => by cases h
          running := fun _ => rfl
          checkpointed := fun h => by cases h
          caused := fun h => by cases h
          evaluated := fun h => by cases h
          unaccepted := fun _ h => by cases h }
  | conclude hending hnonzero hconcludes =>
      exact kept_of_concludes hkept hending hnonzero hconcludes

/-! ### Runs -/

/-- The commit moves the cursor, which the invariant does not read. -/
theorem kept_sealed (hkept : Kept state) (sequence : EventSequence)
    (commandId : CommandId) :
    Kept (sealed sha256 (state.advanceCursor sequence eventId commandId)) :=
  ⟨hkept.fits, hkept.kernel, hkept.running, hkept.checkpointed, hkept.caused,
    hkept.evaluated, hkept.unaccepted⟩

theorem kept_of_commits {committed : OrchestratorEvent} (hkept : Kept state)
    (hcommits : Commits sha256 state committed next) : Kept next := by
  obtain ⟨command, hdecide⟩ := hcommits
  obtain ⟨applied, hcommitted⟩ := committed_of_decideCommand hdecide
  obtain ⟨sequence, _, rfl⟩ := hcommitted.committed
  exact kept_sealed (kept_of_edit hkept hcommitted.resuming hcommitted.edit) _ _

/-- What an accepted start commits. -/
structure Begun (sha256 : List UInt8 → Sha256Digest)
    (event : OrchestratorEvent) (state : OrchestratorState) : Prop where
  genesis : ∃ genesis cycle sequence eventId commandId,
    event.kind = .started genesis ∧
      state = sealed sha256
        (OrchestratorState.genesis genesis.binding genesis.ownership
          genesis.candidate genesis.writerHandoff cycle sequence eventId
          commandId) ∧
      sequence.get = 1
  valid : validate sha256 state = .ok ()

theorem begun_of_starts {started : OrchestratorEvent}
    (hstarts : Starts sha256 started state) : Begun sha256 started state := by
  obtain ⟨command, hstart⟩ := hstarts
  unfold start at hstart
  split at hstart
  · rename_i genesis hkind
    simp only [bind_eq_ok_iff, exists_unit_iff, Except.ok.injEq,
      OrchestratorTransition.mk.injEq] at hstart
    obtain ⟨_, _, _, _, _, hvalid, rfl, rfl⟩ := hstart
    exact ⟨⟨genesis, _, _, _, _, rfl, rfl, rfl⟩, hvalid⟩
  · cases hstart

theorem kept_of_starts {started : OrchestratorEvent}
    (hstarts : Starts sha256 started state) : Kept state := by
  obtain ⟨genesis, _, _, _, _, _, rfl, _⟩ := (begun_of_starts hstarts).genesis
  exact
    { fits := fun _ h => by cases h
      kernel := fun _ h => by cases h
      running := fun _ => rfl
      checkpointed := fun h => by cases h
      caused := fun h => by cases h
      evaluated := fun h => by cases h
      unaccepted := fun _ h => by cases h }

theorem kept_of_run {started : OrchestratorEvent}
    {events : List OrchestratorEvent} (hstarts : Starts sha256 started state)
    (hrun : Run (Commits sha256) state events next) : Kept next := by
  have hstep : ∀ s a t, Kept s → Commits sha256 s a t → Kept t :=
    fun _ _ _ => kept_of_commits
  exact hrun.invariant hstep (kept_of_starts hstarts)

end Peritus.Orchestrator.Invariant
