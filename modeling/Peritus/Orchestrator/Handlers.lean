import Peritus.Orchestrator.Edits

/-!
Every accepted command makes an edit: one lemma for each handler of the
reducer, then the commit around it.
-/

namespace Peritus.Orchestrator.Handlers

open Peritus.Types Checked Material Child Directive State Validation Command
open Reducer Edits
open Collaboration.Task (u16Max)

theorem requireSome_eq_ok_iff {α : Type} {value : Option α}
    {error : OrchestratorError} {a : α} :
    requireSome value error = .ok a ↔ value = some a := by
  cases value with
  | none => exact ⟨fun h => (by cases h), fun h => (by cases h)⟩
  | some found => exact ⟨fun h => (by cases h; rfl), fun h => (by cases h; rfl)⟩

variable {sha256 : List UInt8 → Sha256Digest}
  {state next : OrchestratorState} {event : OrchestratorEventKind}
  {eventId : EventId}

/-! ### The parts of a handler -/

theorem incrementCounter_eq_ok {kind : CounterKind}
    (h : state.incrementCounter kind = .ok next) :
    ∃ counters, next = { state with counters } := by
  unfold OrchestratorState.incrementCounter at h
  simp only [bind_eq_ok_iff, ensure_eq_ok_iff, exists_unit_iff] at h
  obtain ⟨_, _, h⟩ := h
  cases h
  exact ⟨_, rfl⟩

theorem recordObservation_eq_ok {observation : ChildObservation}
    (h : recordObservation state observation = .ok next) :
    ∃ counters, next = { state with
      counters
      observations := state.observations ++ [observation] } := by
  unfold recordObservation at h
  rw [bind_eq_ok_iff] at h
  obtain ⟨counted, hcounted, h⟩ := h
  obtain ⟨counters, rfl⟩ := incrementCounter_eq_ok hcounted
  cases h
  exact ⟨counters, rfl⟩

theorem new_eq_ok_iff {cause : TerminalCause} {digest : Sha256Digest}
    {revision : RevisionTuple} {terminal : OrchestratorTerminal} :
    OrchestratorTerminal.new sha256 cause digest revision = .ok terminal ↔
      nonzero digest = true ∧
        terminal = terminalOf sha256 cause digest revision := by
  unfold OrchestratorTerminal.new
  rw [ensure_bind_eq_ok_iff, Except.ok.injEq]
  exact and_congr_right fun _ => eq_comm

theorem setTerminal_eq_ok {cause : TerminalCause} {digest : Sha256Digest}
    {terminal : OrchestratorTerminal}
    (h : setTerminal sha256 state cause digest = .ok (next, terminal)) :
    nonzero digest = true ∧
      terminal = terminalOf sha256 cause digest
        state.currentCandidate.revision ∧
      Concludes state digest terminal next := by
  unfold setTerminal at h
  rw [bind_eq_ok_iff] at h
  obtain ⟨found, hfound, h⟩ := h
  rw [new_eq_ok_iff] at hfound
  obtain ⟨hnonzero, rfl⟩ := hfound
  rw [normalizePendingOwnership_eq] at h
  dsimp only at h
  split at h
  · rename_i hempty
    have howned := List.isEmpty_iff.mp hempty
    rw [howned] at h
    cases h
    exact ⟨hnonzero, rfl, .closed howned⟩
  · rename_i howned
    cases h
    exact ⟨hnonzero, rfl, .settling fun hnil =>
      howned (List.isEmpty_iff.mpr hnil)⟩

theorem explicitTerminal_eq_ok {cause : TerminalCause} {digest : Sha256Digest}
    {terminal : OrchestratorTerminal}
    (h : explicitTerminal sha256 state cause digest = .ok (next, terminal)) :
    state.phase ≠ .cancelling ∧ nonzero digest = true ∧
      terminal = terminalOf sha256 cause digest
        state.currentCandidate.revision ∧
      Concludes state digest terminal next := by
  unfold explicitTerminal at h
  simp only [bind_eq_ok_iff, ensure_eq_ok_iff, exists_unit_iff,
    decide_eq_true_eq] at h
  obtain ⟨hphase, _, h⟩ := h
  exact ⟨hphase, setTerminal_eq_ok h⟩

theorem admitHandoff_eq_ok {handoff : Handoff} {expected : HandoffKind}
    (h : admitHandoff sha256 state handoff expected = .ok next) :
    handoff.kind = expected ∧
      ∃ counters, next = { state with
        counters
        handoffs := state.handoffs ++ [handoff]
        openHandoff := some handoff } := by
  unfold admitHandoff at h
  simp only [bind_eq_ok_iff, ensure_eq_ok_iff, exists_unit_iff,
    Bool.and_eq_true, decide_eq_true_eq] at h
  obtain ⟨_, ⟨⟨⟨hkind, _⟩, _⟩, _⟩, counted, hcounted, h⟩ := h
  obtain ⟨counters, rfl⟩ := incrementCounter_eq_ok hcounted
  cases h
  exact ⟨hkind, counters, rfl⟩

/-! ### Directives -/

theorem edit_of_publish {directive : PendingDirective}
    (h : publish sha256 state eventId directive = .ok (next, event)) :
    Edit sha256 state eventId (.publishDirective directive) event next := by
  unfold publish PendingDirective.markPublished at h
  simp only [bind_eq_ok_iff, ensure_eq_ok_iff, exists_unit_iff,
    Bool.or_eq_true, Bool.not_eq_true', decide_eq_true_eq] at h
  obtain ⟨hvalid, hpaused, h⟩ := h
  have hkind : state.phase.isPaused = true →
      directive.kind = .pauseChildren := by
    intro hphase
    rcases hpaused with hopen | hkind
    · rw [hphase] at hopen
      cases hopen
    · exact hkind
  split at h
  · rename_i existing hpending
    simp only [bind_eq_ok_iff, ensure_eq_ok_iff, exists_unit_iff,
      decide_eq_true_eq] at h
    obtain ⟨rfl, marked, ⟨hpublish, hmarked⟩, h⟩ := h
    cases hmarked
    cases h
    exact .republish hpending hkind hpublish
  · rename_i hpending
    simp only [bind_eq_ok_iff, ensure_eq_ok_iff, exists_unit_iff,
      Bool.and_eq_true, decide_eq_true_eq] at h
    obtain ⟨⟨hsource, hmatches⟩, marked, ⟨hpublish, hmarked⟩, counted,
      hcounted, h⟩ := h
    obtain ⟨counters, rfl⟩ := incrementCounter_eq_ok hcounted
    cases hmarked
    cases h
    exact .publish hpending hvalid hkind hsource hmatches hpublish

theorem edit_of_acknowledge {id : DirectiveId}
    (h : acknowledge state id = .ok (next, event)) :
    Edit sha256 state eventId (.acknowledgeDirective id) event next := by
  unfold acknowledge PendingDirective.acknowledge at h
  simp only [bind_eq_ok_iff, ensure_eq_ok_iff, exists_unit_iff,
    requireSome_eq_ok_iff, decide_eq_true_eq] at h
  obtain ⟨directive, hpending, rfl, acknowledged, ⟨hdelivered, hacknowledged⟩,
    settled, hsettled, h⟩ := h
  cases hacknowledged
  cases h
  unfold settleAcknowledged at hsettled
  dsimp only at hsettled
  split at hsettled
  · rename_i hphase
    rw [bind_eq_ok_iff] at hsettled
    obtain ⟨counted, hcounted, hsettled⟩ := hsettled
    obtain ⟨counters, rfl⟩ := incrementCounter_eq_ok hcounted
    cases hsettled
    exact .acknowledgeGates hpending hdelivered hphase
  · rename_i hgates
    split at hsettled
    · rename_i hphase
      split at hsettled
      · rename_i hkind
        cases hsettled
        exact .acknowledgeKernel hpending hdelivered hphase hkind
      · rename_i hkind
        cases hsettled
        refine .acknowledge hpending hdelivered hgates (fun _ => ?_) ?_
        · exact ⟨fun h => hkind (.inl h), fun h => hkind (.inr h)⟩
        · rw [hphase]
          exact fun h => by cases h
    · rename_i hkernel
      split at hsettled
      · rename_i hpause
        simp only [bind_eq_ok_iff, ensure_eq_ok_iff, exists_unit_iff,
          requireSome_eq_ok_iff, Bool.and_eq_true, decide_eq_true_eq,
          Except.ok.injEq] at hsettled
        obtain ⟨child, hchild, ⟨hactive, hrunning⟩, rfl⟩ := hsettled
        exact .acknowledgePause hpending hdelivered hpause.1 hpause.2 hchild
          hactive hrunning
      · rename_i hpause
        split at hsettled
        · rename_i hresume
          simp only [bind_eq_ok_iff, ensure_eq_ok_iff, exists_unit_iff,
            requireSome_eq_ok_iff, decide_eq_true_eq,
            Except.ok.injEq] at hsettled
          obtain ⟨child, hchild, hactive, remaining, hremoved, rfl⟩ := hsettled
          exact .acknowledgeResume hpending hdelivered hresume.1 hgates hkernel
            hresume.2.1 hresume.2.2 hchild hactive hremoved
        · rename_i hresume
          cases hsettled
          exact .acknowledge hpending hdelivered hgates
            (fun h => absurd h hkernel) fun hphase hkind =>
              hpause ⟨hphase, hkind⟩

/-! ### Role cycles -/

theorem edit_of_observeActivation {activation : HandoffActivationObservation}
    (h : observeActivation state activation = .ok (next, event)) :
    Edit sha256 state eventId (.observeHandoffActivation activation) event
      next := by
  unfold observeActivation at h
  simp only [bind_eq_ok_iff, ensure_eq_ok_iff, exists_unit_iff,
    requireSome_eq_ok_iff, Bool.and_eq_true, decide_eq_true_eq] at h
  obtain ⟨handoff, hopen, directive, hpending,
    ⟨⟨⟨⟨hphase, _⟩, htask⟩, _⟩, _⟩, cycled, hcycled, counted, hcounted, h⟩ := h
  obtain ⟨_, rfl⟩ := incrementCounter_eq_ok hcycled
  obtain ⟨counters, rfl⟩ := incrementCounter_eq_ok hcounted
  cases h
  exact .activate hopen hpending hphase htask

theorem edit_of_observeWriter {observation : AgentChildObservation}
    {candidate : Option CandidateBinding}
    {qualityCycle : Option QualityCycleBinding}
    (h : observeWriter sha256 state observation candidate qualityCycle =
      .ok (next, event)) :
    Edit sha256 state eventId
      (.observeWriter observation candidate qualityCycle) event next := by
  unfold observeWriter at h
  simp only [bind_eq_ok_iff, ensure_eq_ok_iff, exists_unit_iff,
    requireSome_eq_ok_iff, Bool.and_eq_true, decide_eq_true_eq] at h
  obtain ⟨handoff, hopen, ⟨⟨hphase, _⟩, _⟩, recorded, hrecorded, h⟩ := h
  obtain ⟨counters, rfl⟩ := recordObservation_eq_ok hrecorded
  split at h
  · simp only [bind_eq_ok_iff, ensure_eq_ok_iff, exists_unit_iff,
      requireSome_eq_ok_iff, Bool.and_eq_true, decide_eq_true_eq] at h
    obtain ⟨material, rfl, cycle, rfl, _, _, ⟨⟨⟨hrevision, _⟩, _⟩, _⟩, h⟩ := h
    cases h
    exact .installWriter hphase hrevision
  · simp only [bind_eq_ok_iff, ensure_eq_ok_iff, exists_unit_iff,
      Bool.and_eq_true, Option.isNone_iff_eq_none, Prod.exists] at h
    obtain ⟨⟨rfl, rfl⟩, concluded, terminal, hconcluded, h⟩ := h
    cases h
    obtain ⟨hnonzero, rfl, hconcludes⟩ := setTerminal_eq_ok hconcluded
    exact .conclude (.writer hopen hphase) hnonzero hconcludes

theorem edit_of_observeGates {observation : GateChildObservation}
    {reviewHandoff : Option Handoff}
    (h : observeGates sha256 state observation reviewHandoff =
      .ok (next, event)) :
    Edit sha256 state eventId (.observeGates observation reviewHandoff) event
      next := by
  unfold observeGates at h
  simp only [bind_eq_ok_iff, ensure_eq_ok_iff, exists_unit_iff,
    Bool.and_eq_true, decide_eq_true_eq] at h
  obtain ⟨⟨⟨⟨⟨⟨hphase, _⟩, _⟩, hrevision⟩, _⟩, _⟩, recorded, hrecorded, h⟩ := h
  obtain ⟨counters, rfl⟩ := recordObservation_eq_ok hrecorded
  split at h
  · rename_i hclass
    simp only [bind_eq_ok_iff, requireSome_eq_ok_iff] at h
    obtain ⟨handoff, rfl, admitted, hadmitted, h⟩ := h
    obtain ⟨hkind, _, rfl⟩ := admitHandoff_eq_ok hadmitted
    cases h
    exact .passGates hphase hclass hrevision hkind
  · rename_i hclass
    simp only [bind_eq_ok_iff, Prod.exists] at h
    obtain ⟨concluded, terminal, hconcluded, h⟩ := h
    cases h
    obtain ⟨hnonzero, rfl, hconcludes⟩ := setTerminal_eq_ok hconcluded
    exact .conclude (.gates hphase hclass) hnonzero hconcludes

theorem edit_of_observeReview {observation : ReviewChildObservation}
    {fixerHandoff : Option Handoff}
    (h : observeReview sha256 state observation fixerHandoff =
      .ok (next, event)) :
    Edit sha256 state eventId (.observeReview observation fixerHandoff) event
      next := by
  unfold observeReview at h
  simp only [bind_eq_ok_iff, ensure_eq_ok_iff, exists_unit_iff,
    requireSome_eq_ok_iff, Bool.and_eq_true, decide_eq_true_eq] at h
  obtain ⟨handoff, hopen, ⟨⟨⟨⟨hphase, _⟩, _⟩, hrevision⟩, _⟩, recorded,
    hrecorded, h⟩ := h
  obtain ⟨counters, rfl⟩ := recordObservation_eq_ok hrecorded
  split at h
  · rename_i hclass
    simp only [bind_eq_ok_iff, ensure_eq_ok_iff, exists_unit_iff,
      requireSome_eq_ok_iff] at h
    obtain ⟨fixer, rfl, _, admitted, hadmitted, h⟩ := h
    obtain ⟨hkind, _, rfl⟩ := admitHandoff_eq_ok hadmitted
    cases h
    exact .needFix hphase hclass hkind
  · rename_i hclass
    simp only [bind_eq_ok_iff, ensure_eq_ok_iff, exists_unit_iff,
      Option.isNone_iff_eq_none] at h
    obtain ⟨rfl, h⟩ := h
    cases h
    exact .completeReview hphase hclass hrevision
  · rename_i hclass
    simp only [bind_eq_ok_iff, Prod.exists] at h
    obtain ⟨concluded, terminal, hconcluded, h⟩ := h
    cases h
    obtain ⟨hnonzero, rfl, hconcludes⟩ := setTerminal_eq_ok hconcluded
    refine .conclude (.review hphase ?_ (.inl rfl)) hnonzero hconcludes
    rw [hclass]
    exact fun h => by cases h
  all_goals
    rename_i hclass
    simp only [bind_eq_ok_iff, Prod.exists] at h
    obtain ⟨concluded, terminal, hconcluded, h⟩ := h
    cases h
    obtain ⟨hnonzero, rfl, hconcludes⟩ := setTerminal_eq_ok hconcluded
    refine .conclude (.review hphase ?_ (.inr rfl)) hnonzero hconcludes
    rw [hclass]
    exact fun h => by cases h

/-- A fixer's review is recorded as one observation, or not at all. -/
theorem recordFixerReview_eq_ok {review : Option ReviewFixerObservation}
    (h : recordFixerReview state review = .ok next) :
    ∃ counters, next = { state with
      counters
      observations := state.observations ++
        (review.map ChildObservation.reviewFixer).toList } := by
  unfold recordFixerReview at h
  split at h
  · cases h
    refine ⟨state.counters, ?_⟩
    rw [Option.map_none, Option.toList_none, List.append_nil]
  · simp only [bind_eq_ok_iff, ensure_eq_ok_iff, exists_unit_iff] at h
    exact recordObservation_eq_ok h.2

theorem edit_of_observeFixer {completion : FixerCompletion}
    (h : observeFixer sha256 state completion = .ok (next, event)) :
    Edit sha256 state eventId (.observeFixer completion) event next := by
  unfold observeFixer at h
  simp only [bind_eq_ok_iff, ensure_eq_ok_iff, exists_unit_iff,
    requireSome_eq_ok_iff, Bool.and_eq_true, decide_eq_true_eq] at h
  obtain ⟨handoff, hopen, ⟨hphase, _⟩, _, recorded, hrecorded, reviewed,
    hreviewed, h⟩ := h
  obtain ⟨_, rfl⟩ := recordObservation_eq_ok hrecorded
  obtain ⟨counters, rfl⟩ := recordFixerReview_eq_ok hreviewed
  have hreviews : ∀ review ∈
      (completion.reviewObservation.map ChildObservation.reviewFixer).toList,
      ∃ observation, review = ChildObservation.reviewFixer observation := by
    intro review hmem
    rw [Option.mem_toList, Option.map_eq_some_iff] at hmem
    obtain ⟨observation, _, rfl⟩ := hmem
    exact ⟨observation, rfl⟩
  rw [List.append_assoc] at h
  split at h
  · simp only [bind_eq_ok_iff, ensure_eq_ok_iff, exists_unit_iff] at h
    obtain ⟨_, _, h⟩ := h
    cases h
    exact .propose hphase hreviews
  · simp only [bind_eq_ok_iff, Prod.exists] at h
    obtain ⟨concluded, terminal, hconcluded, h⟩ := h
    cases h
    obtain ⟨hnonzero, rfl, hconcludes⟩ := setTerminal_eq_ok hconcluded
    exact .conclude (.fixer hphase hreviews) hnonzero hconcludes

theorem edit_of_observeInfrastructure {scheduler : SchedulerChildObservation}
    {collaboration : CollaborationChildObservation}
    (h : observeInfrastructure sha256 state scheduler collaboration =
      .ok (next, event)) :
    Edit sha256 state eventId
      (.observeRoleInfrastructure scheduler collaboration) event next := by
  unfold observeInfrastructure at h
  simp only [bind_eq_ok_iff, ensure_eq_ok_iff, exists_unit_iff,
    requireSome_eq_ok_iff, Bool.and_eq_true, Bool.or_eq_true,
    decide_eq_true_eq] at h
  obtain ⟨directive, hpending, ⟨⟨⟨⟨⟨⟨⟨⟨hphase, hkind⟩, _⟩, _⟩, _⟩, _⟩, _⟩, _⟩, _⟩,
    first, hfirst, recorded, hrecorded, middle, hmiddle, remaining, hremaining,
    h⟩ := h
  obtain ⟨_, rfl⟩ := recordObservation_eq_ok hfirst
  obtain ⟨counters, rfl⟩ := recordObservation_eq_ok hrecorded
  rw [List.append_assoc] at h
  split at h
  · cases h
    exact .coordinate hpending hkind hphase hmiddle hremaining
  · simp only [bind_eq_ok_iff, Prod.exists] at h
    obtain ⟨concluded, terminal, hconcluded, h⟩ := h
    cases h
    obtain ⟨hnonzero, rfl, hconcludes⟩ := setTerminal_eq_ok hconcluded
    exact .conclude (.coordination hpending hkind hphase hmiddle hremaining)
      hnonzero hconcludes

/-! ### Acceptance -/

theorem edit_of_advanceCandidate {cycle : QualityCycleBinding}
    (h : advanceCandidate sha256 state cycle = .ok (next, event)) :
    Edit sha256 state eventId (.advanceCandidate cycle) event next := by
  unfold advanceCandidate at h
  simp only [bind_eq_ok_iff, ensure_eq_ok_iff, exists_unit_iff,
    requireSome_eq_ok_iff, Bool.and_eq_true, decide_eq_true_eq] at h
  obtain ⟨hphase, candidate, hproposed, _, _,
    ⟨⟨⟨hrevision, _⟩, hscheduler⟩, hcollaboration⟩, counted, hcounted, h⟩ := h
  obtain ⟨counters, rfl⟩ := incrementCounter_eq_ok hcounted
  cases h
  exact .advance hphase hproposed hrevision hscheduler hcollaboration

theorem edit_of_recordCertificate {certificate : AcceptanceCertificate}
    (h : recordCertificate sha256 state certificate = .ok (next, event)) :
    Edit sha256 state eventId (.recordAcceptanceCertificate certificate) event
      next := by
  unfold recordCertificate at h
  simp only [bind_eq_ok_iff, ensure_eq_ok_iff, exists_unit_iff,
    requireSome_eq_ok_iff] at h
  obtain ⟨directive, hpending, _, hexact, h⟩ := h
  cases h
  exact .certify hpending hexact

theorem edit_of_observeKernel {observation : KernelAcceptanceObservation}
    (h : observeKernel sha256 state observation = .ok (next, event)) :
    Edit sha256 state eventId (.observeKernelAcceptance observation) event
      next := by
  unfold observeKernel at h
  simp only [bind_eq_ok_iff, ensure_eq_ok_iff, exists_unit_iff,
    requireSome_eq_ok_iff, Bool.and_eq_true, decide_eq_true_eq] at h
  obtain ⟨certificate, hcertificate, directive, hpending,
    ⟨⟨⟨⟨hphase, hstage⟩, hacknowledged⟩, hrun⟩, hrevision⟩, recorded,
    hrecorded, h⟩ := h
  obtain ⟨counters, rfl⟩ := recordObservation_eq_ok hrecorded
  split at h
  · rename_i houtcome
    cases h
    exact .beginKernel hphase hcertificate hpending hacknowledged houtcome
      hstage hrun hrevision
  · rename_i houtcome
    simp only [bind_eq_ok_iff, Prod.exists] at h
    obtain ⟨concluded, terminal, hconcluded, h⟩ := h
    cases h
    obtain ⟨hnonzero, rfl, hconcludes⟩ := setTerminal_eq_ok hconcluded
    exact .conclude (.kernelAccepted hphase hcertificate hpending
      hacknowledged houtcome hstage hrun hrevision) hnonzero hconcludes
  · rename_i houtcome
    simp only [bind_eq_ok_iff, Prod.exists] at h
    obtain ⟨concluded, terminal, hconcluded, h⟩ := h
    cases h
    obtain ⟨hnonzero, rfl, hconcludes⟩ := setTerminal_eq_ok hconcluded
    exact .conclude (.kernelNeedsChanges hphase houtcome) hnonzero hconcludes
  · cases h

/-! ### Pause, cancellation and settlement -/

theorem edit_of_pause {reconciliation : ResumeReconciliation}
    (h : pause state reconciliation = .ok (next, event)) :
    Edit sha256 state eventId (.pause reconciliation) event next := by
  unfold pause at h
  split at h
  · rename_i phase hphase
    simp only [bind_eq_ok_iff, exists_unit_iff] at h
    obtain ⟨_, h⟩ := h
    cases h
    exact .pause hphase
  · cases h

theorem edit_of_resume {reconciliation : ResumeReconciliation}
    (h : resume state reconciliation = .ok (next, event)) :
    Edit sha256 state eventId (.resume reconciliation) event next := by
  unfold resume at h
  split at h
  · rename_i phase hphase
    simp only [bind_eq_ok_iff, ensure_eq_ok_iff, exists_unit_iff,
      decide_eq_true_eq] at h
    obtain ⟨hreconciliation, hpaused, h⟩ := h
    cases h
    exact .resume hphase hreconciliation hpaused
  · cases h

theorem edit_of_cancel {digest : Sha256Digest}
    (h : cancel state digest = .ok (next, event)) :
    Edit sha256 state eventId (.cancel digest) event next := by
  unfold cancel requireNonzero at h
  simp only [bind_eq_ok_iff, ensure_eq_ok_iff, exists_unit_iff,
    decide_eq_true_eq] at h
  obtain ⟨hnonzero, hphase, h⟩ := h
  rw [normalizePendingOwnership_eq] at h
  cases h
  exact .cancel hnonzero hphase

theorem recordAmbiguity_eq_ok {observation : ChildObservation}
    (h : recordAmbiguity sha256 state observation = .ok next)
    (hphase : state.phase = .cancelling) :
    ∃ pendingTerminal, next = { state with pendingTerminal } ∧
      (pendingTerminal = state.pendingTerminal ∨
        ∃ digest, pendingTerminal = some (terminalOf sha256 .childAmbiguous
          digest state.currentCandidate.revision)) := by
  unfold recordAmbiguity at h
  split at h
  · rename_i classification
    split at h
    · rw [bind_eq_ok_iff] at h
      obtain ⟨terminal, hterminal, h⟩ := h
      obtain ⟨_, rfl⟩ := new_eq_ok_iff.mp hterminal
      cases h
      refine ⟨_, ?_, .inr ⟨classification.evidenceDigest, rfl⟩⟩
      unfold OrchestratorState.setPendingTerminal
      rw [hphase]
    · cases h
      exact ⟨_, rfl, .inl rfl⟩
  · cases h
    exact ⟨_, rfl, .inl rfl⟩

theorem edit_of_reconcile {observation : ChildObservation}
    (h : reconcile sha256 state observation = .ok (next, event)) :
    Edit sha256 state eventId (.reconcileCancellation observation) event
      next := by
  unfold reconcile at h
  simp only [bind_eq_ok_iff, ensure_eq_ok_iff, exists_unit_iff,
    requireSome_eq_ok_iff, Bool.and_eq_true, decide_eq_true_eq] at h
  obtain ⟨directive, hpending, ⟨⟨⟨⟨hphase, _⟩, _⟩, hchild⟩, hsettled⟩,
    remaining, hremoved, counted, hcounted, recorded, hrecorded, classified,
    hclassified, h⟩ := h
  obtain ⟨_, rfl⟩ := incrementCounter_eq_ok hcounted
  obtain ⟨counters, rfl⟩ := recordObservation_eq_ok hrecorded
  cases h
  obtain ⟨pendingTerminal, rfl, hterminal⟩ :=
    recordAmbiguity_eq_ok hclassified hphase
  exact .reconcile hphase hpending hchild hsettled hremoved hterminal

theorem edit_of_finalize (h : finalize sha256 state = .ok (next, event)) :
    Edit sha256 state eventId .finalize event next := by
  unfold finalize at h
  simp only [bind_eq_ok_iff, ensure_eq_ok_iff, exists_unit_iff,
    Bool.and_eq_true, decide_eq_true_eq, List.isEmpty_iff,
    Option.isNone_iff_eq_none] at h
  obtain ⟨⟨⟨hphase, hactive⟩, hpending⟩, h⟩ := h
  split at h
  · rename_i pending hterminal
    cases h
    exact .finalize hphase hactive hpending (.inl hterminal)
  · simp only [bind_eq_ok_iff, requireSome_eq_ok_iff] at h
    obtain ⟨digest, _, terminal, hterminal, h⟩ := h
    obtain ⟨_, rfl⟩ := new_eq_ok_iff.mp hterminal
    cases h
    exact .finalize hphase hactive hpending (.inr ⟨digest, rfl⟩)

/-! ### Dispatch -/

theorem edit_of_dispatch {kind : OrchestratorCommandKind}
    (h : dispatch sha256 state eventId kind = .ok (next, event)) :
    Edit sha256 state eventId kind event next := by
  cases kind with
  | start genesis => cases h
  | publishDirective directive => exact edit_of_publish h
  | acknowledgeDirective directiveId => exact edit_of_acknowledge h
  | observeHandoffActivation activation => exact edit_of_observeActivation h
  | observeWriter observation candidate cycle => exact edit_of_observeWriter h
  | observeGates observation handoff => exact edit_of_observeGates h
  | observeReview observation handoff => exact edit_of_observeReview h
  | observeFixer completion => exact edit_of_observeFixer h
  | observeRoleInfrastructure scheduler collaboration =>
      exact edit_of_observeInfrastructure h
  | advanceCandidate cycle => exact edit_of_advanceCandidate h
  | recordAcceptanceCertificate certificate =>
      exact edit_of_recordCertificate h
  | observeKernelAcceptance observation => exact edit_of_observeKernel h
  | pause reconciliation => exact edit_of_pause h
  | resume reconciliation => exact edit_of_resume h
  | cancel digest => exact edit_of_cancel h
  | reconcileCancellation observation => exact edit_of_reconcile h
  | rejectRun digest =>
      simp only [dispatch, bind_eq_ok_iff, Prod.exists] at h
      obtain ⟨concluded, terminal, hconcluded, h⟩ := h
      cases h
      obtain ⟨hphase, hnonzero, rfl, hconcludes⟩ :=
        explicitTerminal_eq_ok hconcluded
      exact .conclude (.rejected hphase) hnonzero hconcludes
  | fail digest =>
      simp only [dispatch, bind_eq_ok_iff, Prod.exists] at h
      obtain ⟨concluded, terminal, hconcluded, h⟩ := h
      cases h
      obtain ⟨hphase, hnonzero, rfl, hconcludes⟩ :=
        explicitTerminal_eq_ok hconcluded
      exact .conclude (.failed hphase) hnonzero hconcludes
  | exhaust digest =>
      simp only [dispatch, bind_eq_ok_iff, Prod.exists] at h
      obtain ⟨concluded, terminal, hconcluded, h⟩ := h
      cases h
      obtain ⟨hphase, hnonzero, rfl, hconcludes⟩ :=
        explicitTerminal_eq_ok hconcluded
      exact .conclude (.exhausted hphase) hnonzero hconcludes
  | finalize => exact edit_of_finalize h

/-! ### The commit -/

variable (sha256)

/-- An event of a run that an accepted command commits. -/
def Commits (state : OrchestratorState) (event : OrchestratorEvent)
    (next : OrchestratorState) : Prop :=
  ∃ command, decideCommand sha256 state command = .ok ⟨event, next⟩

def Starts (event : OrchestratorEvent) (state : OrchestratorState) : Prop :=
  ∃ command, start sha256 command = .ok ⟨event, state⟩

/-- What an accepted command commits around its edit. -/
structure Committed (state : OrchestratorState)
    (command : OrchestratorCommand) (event : OrchestratorEvent)
    (next applied : OrchestratorState) : Prop where
  valid : validate sha256 state = .ok ()
  opened : state.phase ≠ .terminal
  room : state.usedCommands.length ≤ u16Max
  fresh : command.commandId ∉ state.usedCommands
  resuming : state.phase.isActive = true →
    state.pausedReconciliation.isSome = true →
      resumesChildren command.kind = true
  edit : Edit sha256 state command.eventId command.kind event.kind applied
  committed : ∃ sequence : EventSequence,
    sequence.get = state.sequence.get + 1 ∧
      next = sealed sha256
        (applied.advanceCursor sequence command.eventId command.commandId)
  successor : validate sha256 next = .ok ()

variable {sha256}

theorem checkedNextSequence_eq_ok {sequence following : EventSequence}
    (h : checkedNextSequence sequence = .ok following) :
    following.get = sequence.get + 1 := by
  unfold checkedNextSequence at h
  split at h
  · rename_i found hfound
    cases h
    exact PositiveNumber.checkedNext_eq_ok_iff.mp hfound
  · cases h

theorem edit_of_apply {kind : OrchestratorCommandKind}
    (h : apply sha256 state eventId kind = .ok (next, event)) :
    (state.phase.isActive = true → state.pausedReconciliation.isSome = true →
      resumesChildren kind = true) ∧
      Edit sha256 state eventId kind event next := by
  unfold apply at h
  simp only [bind_eq_ok_iff, ensure_eq_ok_iff, exists_unit_iff,
    Bool.or_eq_true, Bool.not_eq_true', Bool.and_eq_false_iff] at h
  obtain ⟨hresuming, h⟩ := h
  refine ⟨fun hactive hsome => ?_, edit_of_dispatch h⟩
  rw [hactive, hsome] at hresuming
  rcases hresuming with (h | h) | h
  · cases h
  · cases h
  · exact h

theorem committed_of_decideCommand {command : OrchestratorCommand}
    {committed : OrchestratorEvent}
    (h : decideCommand sha256 state command = .ok ⟨committed, next⟩) :
    ∃ applied, Committed sha256 state command committed next applied := by
  unfold decideCommand validateFences at h
  simp only [bind_eq_ok_iff, ensure_eq_ok_iff, exists_unit_iff,
    Bool.and_eq_true, decide_eq_true_eq, Prod.exists, Except.ok.injEq,
    OrchestratorTransition.mk.injEq] at h
  obtain ⟨hvalid, ⟨hopened, hroom, ⟨⟨⟨⟨⟨⟨_, _⟩, _⟩, _⟩, _⟩, hfresh⟩, _⟩⟩, sequence,
    hsequence, applied, kind, happly, hsuccessor, rfl, rfl⟩ := h
  obtain ⟨hresuming, hedit⟩ := edit_of_apply happly
  exact ⟨applied,
    { valid := hvalid
      opened := hopened
      room := hroom
      fresh := hfresh
      resuming := hresuming
      edit := hedit
      committed := ⟨sequence, checkedNextSequence_eq_ok hsequence, rfl⟩
      successor := hsuccessor }⟩

end Peritus.Orchestrator.Handlers
