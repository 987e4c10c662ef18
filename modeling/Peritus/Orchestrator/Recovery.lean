import Peritus.Orchestrator.Resumption

/-!
Which pauses can be undone: those of a run with children, none of its
directives pending, in a phase where an acknowledgement means nothing else.
-/

namespace Peritus.Orchestrator.Recovery

open Peritus.Types Checked TransitionSystem Material Child Directive State
open Command Reducer Edits Handlers Invariant Checkpoint Custody
open Progress Conclusion Resumption
open Scheduler.State (zeroDigest)
open Collaboration.Task (u16Max)

/-- The children are paused, the run is resumed, and the children are. -/
def IsRecovery (kinds : List OrchestratorEventKind) : Prop :=
  ∃ pausing phase reconciliation resuming,
    kinds = pausing ++ .resumed phase reconciliation :: resuming ∧
    (∀ kind ∈ pausing, Pauses kind) ∧ ∀ kind ∈ resuming, Resumes kind

/-- A run is back at the work it was paused in. -/
structure Recovered (state after : OrchestratorState) : Prop where
  phase : after.phase = state.phase
  reconciliation : after.pausedReconciliation = none
  candidate : after.currentCandidate = state.currentCandidate
  handoff : after.openHandoff = state.openHandoff
  children : after.activeChildren = state.activeChildren
  pending : after.pendingDirective = state.pendingDirective

/-- A pause that led from the one state to the other can be undone. -/
def Recoverable (sha256 : List UInt8 → Sha256Digest)
    (state paused : OrchestratorState) : Prop :=
  ∃ events after, Run (Commits sha256) paused events after ∧
    IsRecovery (events.map OrchestratorEvent.kind) ∧ Recovered state after

/-- The run has children to resume, a free directive slot, and is in a phase
that settles the acknowledgement of a resumption. -/
def Pausable (state : OrchestratorState) (phase : ActivePhase) : Prop :=
  state.activeChildren ≠ [] ∧ state.pendingDirective = none ∧
    phase ≠ .gatesPending ∧ phase ≠ .kernelAcceptancePending

/-- Room to pause and to resume every child. -/
structure PauseRoom (paused : OrchestratorState) : Prop where
  directives : paused.counters.childDirectives +
    2 * paused.activeChildren.length ≤ paused.binding.limits.childDirectives
  commands : paused.usedCommands.length +
    (4 * paused.activeChildren.length + 1) ≤ u16Max

instance (paused : OrchestratorState) : Decidable (PauseRoom paused) :=
  decidable_of_iff
    (paused.counters.childDirectives + 2 * paused.activeChildren.length ≤
        paused.binding.limits.childDirectives ∧
      paused.usedCommands.length +
        (4 * paused.activeChildren.length + 1) ≤ u16Max)
    ⟨fun ⟨h₁, h₂⟩ => ⟨h₁, h₂⟩, fun ⟨h₁, h₂⟩ => ⟨h₁, h₂⟩⟩

variable {sha256 : List UInt8 → Sha256Digest}
  {reconciliation : ResumeReconciliation} {state next : OrchestratorState}
  {event : OrchestratorEvent} {directive : PendingDirective}
  {found : OrchestratorEventKind} {phase : ActivePhase}

/-! ### The pause -/

theorem pause_of_edit {id : EventId} {kind : OrchestratorCommandKind}
    {record : OrchestratorPhase}
    (hedit : Edit sha256 state id kind (.paused record reconciliation) next) :
    kind = .pause reconciliation ∧ ∃ phase, state.phase = .active phase ∧
      next =
        { state with
          pausedChildren := []
          pausedReconciliation := some reconciliation
          phase := .paused phase } := by
  cases hedit with
  | pause hphase => exact ⟨rfl, _, hphase, rfl⟩
  | conclude hending => cases hending

/-- A run is paused from its work, while it is not being resumed. -/
theorem pause_of_commits {record : OrchestratorPhase}
    (hcommits : Commits sha256 state event next)
    (hkind : event.kind = .paused record reconciliation) :
    state.pausedReconciliation = none ∧
      ∃ phase sequence eventId commandId, state.phase = .active phase ∧
        next = sealed sha256 (({ state with
          pausedChildren := []
          pausedReconciliation := some reconciliation
          phase := .paused phase } : OrchestratorState).advanceCursor sequence
            eventId commandId) := by
  obtain ⟨command, hdecide⟩ := hcommits
  obtain ⟨applied, hcommitted⟩ := committed_of_decideCommand hdecide
  have hedit := hcommitted.edit
  rw [hkind] at hedit
  obtain ⟨hpause, phase, hphase, rfl⟩ := pause_of_edit hedit
  obtain ⟨sequence, _, hnext⟩ := hcommitted.committed
  refine ⟨?_, phase, sequence, command.eventId, command.commandId, hphase,
    hnext⟩
  cases hsome : state.pausedReconciliation with
  | none => rfl
  | some earlier =>
      have hresumes := hcommitted.resuming (by rw [hphase]; rfl)
        (by rw [hsome]; rfl)
      rw [hpause] at hresumes
      cases hresumes

/-! ### What a recovery may do -/

/-- The edits of the commands that a recovery consists of. -/
inductive Recovers (state : OrchestratorState) : OrchestratorState → Prop
  | deliver {directive : PendingDirective} {counters}
      (hslot : (∃ earlier, state.pendingDirective = some earlier ∧
          directive.kind = earlier.kind) ∨
        state.pendingDirective = none ∧ state.activeChildren ≠ []) :
      Recovers state
        { state with counters, pendingDirective := some directive }
  | startGates {directive : PendingDirective} {counters}
      (hpending : state.pendingDirective = some directive)
      (hphase : state.phase = .active .gatesPending) :
      Recovers state
        { state with
          counters
          pendingDirective := some directive.acknowledged
          activeChildren := insertChild .gates state.activeChildren
          phase := .active .gatesActive }
  | startKernel {directive : PendingDirective}
      (hpending : state.pendingDirective = some directive)
      (hphase : state.phase = .active .kernelAcceptancePending) :
      Recovers state
        { state with
          pendingDirective := some directive.acknowledged
          activeChildren := insertChild .kernel state.activeChildren }
  | pauseChild {directive : PendingDirective} {children}
      (hpending : state.pendingDirective = some directive)
      (hkind : directive.kind = .pauseChildren) :
      Recovers state
        { state with pendingDirective := none, pausedChildren := children }
  | resumeChild {directive : PendingDirective} {children record}
      (hpending : state.pendingDirective = some directive)
      (hkind : directive.kind = .resumeChildren)
      (hphase : state.phase.isActive = true)
      (hgates : state.phase ≠ .active .gatesPending)
      (hkernel : state.phase ≠ .active .kernelAcceptancePending) :
      Recovers state
        { state with
          pausedChildren := children
          pendingDirective := none
          pausedReconciliation := record }
  | resume {phase : ActivePhase} (hphase : state.phase = .paused phase) :
      Recovers state { state with phase := .active phase }

/-- Only a child that is owned is paused or resumed. -/
theorem active_ne_nil_of_matches
    (hmatches : matchesPhase sha256 state directive = true)
    (hkind : directive.kind = .pauseChildren ∨
      directive.kind = .resumeChildren) : state.activeChildren ≠ [] := by
  have hfit := fits_of_matchesPhase hmatches
  unfold Fits at hfit
  rcases hkind with hkind | hkind
  · rw [hkind] at hfit
    obtain ⟨_, child, hactive, _⟩ := hfit
    exact List.ne_nil_of_mem hactive
  · rw [hkind] at hfit
    obtain ⟨hactive, hsome⟩ := hfit
    obtain ⟨record, hrecord⟩ := Option.isSome_iff_exists.mp hsome
    unfold matchesPhase at hmatches
    rw [hactive, hrecord] at hmatches
    simp only [matchesResume, Bool.and_eq_true, Option.any_eq_true,
      decide_eq_true_eq] at hmatches
    obtain ⟨_, ⟨_, child, _, howned, _⟩, _⟩ := hmatches
    exact List.ne_nil_of_mem howned

theorem recovers_of_edit {id : EventId} {kind : OrchestratorCommandKind}
    (hedit : Edit sha256 state id kind found next)
    (hrecovers : Pauses found ∨ Resumes found ∨
      ∃ record reconciliation, found = .resumed record reconciliation) :
    Recovers state next := by
  cases hedit with
  | republish hpending => exact .deliver (.inl ⟨_, hpending, rfl⟩)
  | publish hpending hvalid hpaused hsource hmatches =>
      refine .deliver (.inr ⟨hpending, ?_⟩)
      refine active_ne_nil_of_matches hmatches ?_
      rcases hrecovers with h | h | ⟨_, _, h⟩
      · exact .inl h
      · exact .inr h
      · cases h
  | acknowledgeGates hpending _ hphase => exact .startGates hpending hphase
  | acknowledgeKernel hpending _ hphase => exact .startKernel hpending hphase
  | acknowledgePause hpending _ _ hkind => exact .pauseChild hpending hkind
  | acknowledgeResume hpending _ hphase hgates hkernel _ hkind =>
      exact .resumeChild hpending hkind hphase hgates hkernel
  | acknowledge hpending => exact .deliver (.inl ⟨_, hpending, rfl⟩)
  | resume hphase => exact .resume hphase
  | conclude hending =>
      cases hending <;> rcases hrecovers with h | h | ⟨_, _, h⟩ <;> cases h
  | _ => rcases hrecovers with h | h | ⟨_, _, h⟩ <;> cases h

/-! ### Dead ends -/

/-- Why the record of a pause stays, or the phase it was made in is lost. -/
inductive Stuck (origin : ActivePhase) (state : OrchestratorState) : Prop
  | idle (hrecorded : state.pausedReconciliation.isSome = true)
      (hactive : state.activeChildren = [])
      (hpending : state.pendingDirective = none)
  | occupied {directive : PendingDirective}
      (hrecorded : state.pausedReconciliation.isSome = true)
      (hpending : state.pendingDirective = some directive)
      (hpause : directive.kind ≠ .pauseChildren)
      (hresume : directive.kind ≠ .resumeChildren)
  | gates (horigin : origin = .gatesPending)
      (hphase : state.pausedReconciliation.isSome = true ∧
          state.phase.resumable = some .gatesPending ∨
        state.phase = .active .gatesActive)
  | kernel (hrecorded : state.pausedReconciliation.isSome = true)
      (hphase : state.phase.resumable = some .kernelAcceptancePending)

theorem resumable_of_resumed (hphase : state.phase = .paused phase) :
    ({ state with phase := .active phase } : OrchestratorState).phase.resumable =
      state.phase.resumable := by
  rw [hphase]
  rfl

theorem active_of_resumable (hactive : state.phase.isActive = true)
    (hresumable : state.phase.resumable = some phase) :
    state.phase = .active phase := by
  cases hphase : state.phase with
  | active found =>
      rw [hphase] at hresumable
      cases hresumable
      rfl
  | paused => rw [hphase] at hactive; cases hactive
  | cancelling => rw [hphase] at hactive; cases hactive
  | terminal => rw [hphase] at hactive; cases hactive

theorem stuck_of_recovers {origin : ActivePhase} (hstuck : Stuck origin state)
    (hrecovers : Recovers state next) : Stuck origin next := by
  cases hstuck with
  | idle hrecorded hactive hpending =>
      cases hrecovers with
      | deliver hslot =>
          rcases hslot with ⟨_, hsome, _⟩ | ⟨_, hne⟩
          · rw [hpending] at hsome
            cases hsome
          · exact absurd hactive hne
      | startGates hsome => rw [hpending] at hsome; cases hsome
      | startKernel hsome => rw [hpending] at hsome; cases hsome
      | pauseChild hsome => rw [hpending] at hsome; cases hsome
      | resumeChild hsome => rw [hpending] at hsome; cases hsome
      | resume => exact .idle hrecorded hactive hpending
  | occupied hrecorded hpending hpause hresume =>
      cases hrecovers with
      | deliver hslot =>
          rcases hslot with ⟨_, hsome, hkind⟩ | ⟨hnone, _⟩
          · rw [hpending] at hsome
            cases hsome
            exact .occupied hrecorded rfl (hkind ▸ hpause) (hkind ▸ hresume)
          · rw [hpending] at hnone
            cases hnone
      | startGates hsome =>
          rw [hpending] at hsome
          cases hsome
          exact .occupied hrecorded rfl hpause hresume
      | startKernel hsome =>
          rw [hpending] at hsome
          cases hsome
          exact .occupied hrecorded rfl hpause hresume
      | pauseChild hsome hkind =>
          rw [hpending] at hsome
          cases hsome
          exact absurd hkind hpause
      | resumeChild hsome hkind =>
          rw [hpending] at hsome
          cases hsome
          exact absurd hkind hresume
      | resume => exact .occupied hrecorded hpending hpause hresume
  | gates horigin hphase =>
      cases hrecovers with
      | deliver => exact .gates horigin hphase
      | startGates => exact .gates horigin (.inr rfl)
      | startKernel => exact .gates horigin hphase
      | pauseChild => exact .gates horigin hphase
      | resumeChild _ _ hactive hgates =>
          refine .gates horigin (.inr ?_)
          rcases hphase with ⟨_, hresumable⟩ | hstarted
          · exact absurd (active_of_resumable hactive hresumable) hgates
          · exact hstarted
      | resume hpaused =>
          rcases hphase with ⟨hrecorded, hresumable⟩ | hstarted
          · exact .gates horigin (.inl ⟨hrecorded,
              (resumable_of_resumed hpaused).trans hresumable⟩)
          · rw [hstarted] at hpaused
            cases hpaused
  | kernel hrecorded hphase =>
      cases hrecovers with
      | deliver => exact .kernel hrecorded hphase
      | startGates _ hgates => rw [hgates] at hphase; cases hphase
      | startKernel => exact .kernel hrecorded hphase
      | pauseChild => exact .kernel hrecorded hphase
      | resumeChild _ _ hactive _ hkernel =>
          exact absurd (active_of_resumable hactive hphase) hkernel
      | resume hpaused =>
          exact .kernel hrecorded
            ((resumable_of_resumed hpaused).trans hphase)

/-- Sealing and the cursor leave a dead end as it is. -/
theorem stuck_of_commits {origin : ActivePhase} (hstuck : Stuck origin state)
    (hcommits : Commits sha256 state event next)
    (hrecovers : Pauses event.kind ∨ Resumes event.kind ∨
      ∃ record reconciliation, event.kind = .resumed record reconciliation) :
    Stuck origin next := by
  obtain ⟨command, hdecide⟩ := hcommits
  obtain ⟨applied, hcommitted⟩ := committed_of_decideCommand hdecide
  have hrecovered : Recovers state applied :=
    recovers_of_edit hcommitted.edit hrecovers
  obtain ⟨_, _, rfl⟩ := hcommitted.committed
  cases stuck_of_recovers hstuck hrecovered with
  | idle hrecorded hactive hpending => exact .idle hrecorded hactive hpending
  | occupied hrecorded hpending hpause hresume =>
      exact .occupied hrecorded hpending hpause hresume
  | gates horigin hphase => exact .gates horigin hphase
  | kernel hrecorded hphase => exact .kernel hrecorded hphase

theorem recovers_of_isRecovery {kinds : List OrchestratorEventKind}
    (h : IsRecovery kinds) {kind : OrchestratorEventKind} (hmem : kind ∈ kinds) :
    Pauses kind ∨ Resumes kind ∨
      ∃ record reconciliation, kind = .resumed record reconciliation := by
  obtain ⟨pausing, record, reconciliation, resuming, rfl, hpausing, hresuming⟩ := h
  rcases List.mem_append.mp hmem with h | h
  · exact .inl (hpausing kind h)
  · rcases List.mem_cons.mp h with h | h
    · exact .inr (.inr ⟨record, reconciliation, h⟩)
    · exact .inr (.inl (hresuming kind h))

theorem stuck_of_run {origin : ActivePhase} {events : List OrchestratorEvent}
    (hstuck : Stuck origin state)
    (hrun : Run (Commits sha256) state events next)
    (hrecovers : ∀ kind ∈ events.map OrchestratorEvent.kind,
      Pauses kind ∨ Resumes kind ∨
        ∃ record reconciliation, kind = .resumed record reconciliation) :
    Stuck origin next := by
  induction hrun with
  | nil => exact hstuck
  | cons hcommits _ ih =>
      rw [List.map_cons, List.forall_mem_cons] at hrecovers
      exact ih (stuck_of_commits hstuck hcommits hrecovers.1) hrecovers.2

/-- A dead end is not where the run was paused. -/
theorem not_recovered_of_stuck {after : OrchestratorState}
    (hphase : state.phase = .active phase) (hstuck : Stuck phase after) :
    ¬ Recovered state after := by
  intro hrecovered
  have hnone := hrecovered.reconciliation
  cases hstuck with
  | idle hrecorded => rw [hnone] at hrecorded; cases hrecorded
  | occupied hrecorded => rw [hnone] at hrecorded; cases hrecorded
  | kernel hrecorded => rw [hnone] at hrecorded; cases hrecorded
  | gates horigin hgates =>
      rcases hgates with ⟨hrecorded, _⟩ | hstarted
      · rw [hnone] at hrecorded
        cases hrecorded
      · rw [hrecovered.phase, hphase, horigin] at hstarted
        cases hstarted

/-- A pause that meets the condition in no part leads to a dead end. -/
theorem stuck_of_not_pausable {record : OrchestratorPhase} (hkept : Kept state)
    (hcommits : Commits sha256 state event next)
    (hkind : event.kind = .paused record reconciliation)
    (hphase : state.phase = .active phase)
    (hnot : ¬ Pausable state phase) : Stuck phase next := by
  obtain ⟨hnone, found, _, _, _, hfound, rfl⟩ := pause_of_commits hcommits hkind
  rw [hphase] at hfound
  cases hfound
  rcases Option.eq_none_or_eq_some state.pendingDirective with
    hpending | ⟨directive, hpending⟩
  · by_cases hactive : state.activeChildren = []
    · exact .idle rfl hactive hpending
    · by_cases hgates : phase = .gatesPending
      · exact .gates hgates (.inl ⟨rfl, congrArg some hgates⟩)
      · by_cases hkernel : phase = .kernelAcceptancePending
        · exact .kernel rfl (congrArg some hkernel)
        · exact absurd ⟨hactive, hpending, hgates, hkernel⟩ hnot
  · have hfit := hkept.fits directive hpending
    unfold Fits at hfit
    rw [hphase, hnone] at hfit
    have hpause : directive.kind ≠ .pauseChildren := by
      intro h
      rw [h] at hfit
      exact absurd hfit.1 Bool.false_ne_true
    have hresume : directive.kind ≠ .resumeChildren := by
      intro h
      rw [h] at hfit
      exact absurd hfit.2 Bool.false_ne_true
    exact .occupied rfl hpending hpause hresume

/-! ### The way back -/

theorem recovered_of_untouched {after : OrchestratorState}
    (huntouched : untouched after = untouched state)
    (hphase : after.phase = state.phase)
    (hreconciliation : after.pausedReconciliation = none)
    (hpending : after.pendingDirective = state.pendingDirective) :
    Recovered state after where
  phase := hphase
  reconciliation := hreconciliation
  candidate := by
    have h := congrArg OrchestratorState.currentCandidate huntouched
    exact h
  handoff := by
    have h := congrArg OrchestratorState.openHandoff huntouched
    exact h
  children := activeChildren_of_untouched huntouched
  pending := hpending

/-- Pause every child, resume the run, and resume every child. -/
theorem exists_recovery (hnonzero : ∀ bytes, sha256 bytes ≠ zeroDigest)
    {paused : OrchestratorState} (hheld : Held sha256 reconciliation paused)
    (hphase : paused.phase = .paused phase)
    (hpaused : paused.pausedChildren = [])
    (hactive : paused.activeChildren ≠ [])
    (hpending : paused.pendingDirective = none)
    (hgates : phase ≠ .gatesPending)
    (hkernel : phase ≠ .kernelAcceptancePending) (hroom : PauseRoom paused) :
    ∃ events after, Run (Commits sha256) paused events after ∧
      IsRecovery (events.map OrchestratorEvent.kind) ∧
      after.phase = .active phase ∧ after.pausedReconciliation = none ∧
      after.pausedChildren = [] ∧ after.pendingDirective = none ∧
      untouched after = untouched paused := by
  obtain ⟨hdirectives, hcommands⟩ := hroom
  have hnodup : paused.activeChildren.Nodup :=
    List.Nodup.of_map _ hheld.valid.sortedActive.nodup_map
  have hrunning : ∀ child, child ∈ paused.activeChildren ↔
      child ∈ paused.activeChildren ∧ child ∉ paused.pausedChildren := by
    intro child
    rw [hpaused]
    exact ⟨fun h => ⟨h, List.not_mem_nil⟩, And.left⟩
  obtain ⟨pausing, still, hpauseRun, hpauses, hstill, hmoved, hall⟩ :=
    pause_all hnonzero hheld hphase hpending hnodup hrunning (by omega)
      (by omega)
  have hstillPhase := hmoved.phase.trans hphase
  have hused := hmoved.commands
  obtain ⟨sequence, id, resumption, hresumption, hresumes⟩ :=
    hstill.resume hnonzero (by omega) hstillPhase hall
  let resumed := commit sha256 { still with phase := .active phase } sequence id
  have hresumed : Held sha256 reconciliation resumed :=
    hstill.commits hresumes hstill.recorded rfl
  have hsame := activeChildren_of_untouched hmoved.untouched
  have hbinding := binding_of_untouched hmoved.untouched
  have hlength : resumed.usedCommands.length = still.usedCommands.length + 1 := by
    change (still.usedCommands ++ [id]).length = _
    rw [List.length_append, List.length_singleton]
  have hcount : resumed.counters.childDirectives =
      paused.counters.childDirectives + paused.activeChildren.length :=
    hmoved.directives
  have hlimits : resumed.binding = paused.binding := hbinding
  cases hlist : paused.activeChildren with
  | nil => exact absurd hlist hactive
  | cons child rest =>
      have hchildren : resumed.pausedChildren = child :: rest := by
        change still.pausedChildren = _
        rw [hall, hsame, hlist]
      have hnumber : paused.activeChildren.length = rest.length + 1 := by
        rw [hlist, List.length_cons]
      obtain ⟨resuming, after, hresumeRun, hkinds, hmore, hcleared, hempty⟩ :=
        resume_all hnonzero hresumed rfl hgates hkernel hmoved.pending hchildren
          (by rw [hlimits]; omega) (by omega)
      refine ⟨pausing ++ resumption :: resuming, after,
        hpauseRun.append (.cons hresumes hresumeRun), ?_,
        hmore.phase, hcleared, hempty, hmore.pending, ?_⟩
      · refine ⟨pausing.map OrchestratorEvent.kind, .active phase,
          reconciliation, resuming.map OrchestratorEvent.kind, ?_,
          List.forall_mem_map.mpr hpauses, List.forall_mem_map.mpr hkinds⟩
        rw [List.map_append, List.map_cons, hresumption]
      · exact hmore.untouched.trans hmoved.untouched

/-- Exactly when the pause of a reachable run can be undone.  Then nothing but
the cursor and the count of directives has changed. -/
theorem pause_recoverable {first pausing : OrchestratorEvent}
    {initial paused : OrchestratorState} {events : List OrchestratorEvent}
    {record : OrchestratorPhase}
    (hnonzero : ∀ bytes, sha256 bytes ≠ zeroDigest)
    (hstarts : Starts sha256 first initial)
    (hrun : Run (Commits sha256) initial events state)
    (hphase : state.phase = .active phase)
    (hpause : Commits sha256 state pausing paused)
    (hkind : pausing.kind = .paused record reconciliation)
    (hroom : PauseRoom paused) :
    (Recoverable sha256 state paused ↔ Pausable state phase) ∧
    (Pausable state phase → ∃ recovery after,
      Run (Commits sha256) paused recovery after ∧
      IsRecovery (recovery.map OrchestratorEvent.kind) ∧
      Recovered state after ∧ after.pausedChildren = state.pausedChildren ∧
      untouched after = untouched state) := by
  have hkept := kept_of_run hstarts hrun
  have hcounted : Counted state :=
    hrun.invariant (fun _ _ _ h hcommits => counted_of_commits h hcommits)
      (counted_of_starts hstarts)
  have hback : Pausable state phase → ∃ recovery after,
      Run (Commits sha256) paused recovery after ∧
      IsRecovery (recovery.map OrchestratorEvent.kind) ∧
      Recovered state after ∧ after.pausedChildren = state.pausedChildren ∧
      untouched after = untouched state := by
    rintro ⟨hactive, hpending, hgates, hkernel⟩
    obtain ⟨hnone, found, sequence, eventId, commandId, hfound, hnext⟩ :=
      pause_of_commits hpause hkind
    rw [hphase] at hfound
    cases hfound
    have hrecorded : paused.pausedReconciliation = some reconciliation := by
      rw [hnext]
      rfl
    have hpausedPhase : paused.phase = .paused phase := by
      rw [hnext]
      rfl
    have hunpaused : paused.pausedChildren = [] := by
      rw [hnext]
      rfl
    have hslot : paused.pendingDirective = none := by
      rw [hnext]
      exact hpending
    have huntouched : untouched paused = untouched state := by
      rw [hnext]
      rfl
    have hchildren := activeChildren_of_untouched huntouched
    have hheld : Held sha256 reconciliation paused :=
      ⟨kept_of_commits hkept hpause, valid_of_commits hpause,
        counted_of_commits hcounted hpause, hrecorded, by
          rw [hpausedPhase]
          rfl⟩
    obtain ⟨recovery, after, hrecovery, hkinds, hworking, hcleared, hempty,
      hfree, hsame⟩ := exists_recovery hnonzero hheld hpausedPhase hunpaused
        (by rw [hchildren]; exact hactive) hslot hgates hkernel hroom
    have hall := hsame.trans huntouched
    refine ⟨recovery, after, hrecovery, hkinds, ?_, ?_, hall⟩
    · exact recovered_of_untouched hall (hworking.trans hphase.symm) hcleared
        (hfree.trans hpending.symm)
    · rw [hempty, hkept.running hnone]
  refine ⟨⟨?_, ?_⟩, hback⟩
  · rintro ⟨recovery, after, hrecovery, hkinds, hrecovered⟩
    by_contra hnot
    have hstuck : Stuck phase after :=
      stuck_of_run (stuck_of_not_pausable hkept hpause hkind hphase hnot)
        hrecovery fun _ hmem => recovers_of_isRecovery hkinds hmem
    exact not_recovered_of_stuck hphase hstuck hrecovered
  · intro hpausable
    obtain ⟨recovery, after, hrecovery, hkinds, hrecovered, _⟩ :=
      hback hpausable
    exact ⟨recovery, after, hrecovery, hkinds, hrecovered⟩

/-! ### Two pauses -/

/-- The run before and after a pause at its checkpoint. -/
def smallPaused (requests : List Request) (heads : List ChildHead) :
    Option ((List OrchestratorEvent × OrchestratorState) ×
      List OrchestratorEvent × OrchestratorState) :=
  (smallReached requests).bind fun reached =>
    (attempts smallHash reached.2
      [(smallId 53, .pause ⟨smallDigest, heads⟩)]).map fun paused =>
        (reached, paused)

def pauseOutline (outcome : (List OrchestratorEvent × OrchestratorState) ×
    List OrchestratorEvent × OrchestratorState) :=
  (outcome.1.2.phase, outcome.1.2.activeChildren,
    outcome.1.2.pendingDirective, outcome.2.1.map OrchestratorEvent.kind,
    decide (PauseRoom outcome.2.2))

theorem exists_pause_of_outline {requests : List Request}
    {heads : List ChildHead} {children : List ChildAggregateKind}
    (h : (smallPaused requests heads).map pauseOutline =
      some (.active phase, children, none,
        [.paused (.paused phase) ⟨smallDigest, heads⟩], true)) :
    ∃ first initial events state pausing paused,
      Starts smallHash first initial ∧
      Run (Commits smallHash) initial events state ∧
      state.phase = .active phase ∧ state.activeChildren = children ∧
      state.pendingDirective = none ∧
      Commits smallHash state pausing paused ∧
      pausing.kind = .paused (.paused phase) ⟨smallDigest, heads⟩ ∧
      PauseRoom paused := by
  obtain ⟨⟨⟨events, state⟩, pauses, paused⟩, houtcome, houtline⟩ :=
    Option.map_eq_some_iff.mp h
  obtain ⟨⟨_, _⟩, hreached, houtcome⟩ := Option.bind_eq_some_iff.mp houtcome
  obtain ⟨_, hattempts, houtcome⟩ := Option.map_eq_some_iff.mp houtcome
  cases houtcome
  obtain ⟨⟨first, initial⟩, hstart, hrun⟩ :=
    Option.bind_eq_some_iff.mp hreached
  simp only [pauseOutline, Prod.mk.injEq, decide_eq_true_eq] at houtline
  obtain ⟨hphase, hactive, hpending, hkinds, hroom⟩ := houtline
  have hpauses := run_of_attempts hattempts
  cases hpauses with
  | nil => cases hkinds
  | cons hcommits hrest =>
      rw [List.map_cons, List.cons.injEq, List.map_eq_nil_iff] at hkinds
      obtain ⟨hkind, rfl⟩ := hkinds
      cases hrest
      exact ⟨first, initial, events, state, _, paused,
        ⟨smallGenesis, toOption_eq_some_iff.mp hstart⟩, run_of_attempts hrun,
        hphase, hactive, hpending, hcommits, hkind, hroom⟩

/-- A run that is paused before its first directive never gets back to work:
it is resumed at once, and no child is left to acknowledge that. -/
theorem unrecovered_pause_at_genesis :
    ∃ first initial events state pausing paused,
      Starts smallHash first initial ∧
      Run (Commits smallHash) initial events state ∧
      state.phase = .active .writerPending ∧
      Commits smallHash state pausing paused ∧
      pausing.kind = .paused (.paused .writerPending) ⟨smallDigest, []⟩ ∧
      PauseRoom paused ∧ ¬ Recoverable smallHash state paused := by
  have houtline : (smallPaused [] []).map pauseOutline =
      some (.active .writerPending, [], none,
        [.paused (.paused .writerPending) ⟨smallDigest, []⟩], true) := by
    decide +kernel
  obtain ⟨first, initial, events, state, pausing, paused, hstarts, hrun,
    hphase, hactive, _, hcommits, hkind, hroom⟩ :=
    exists_pause_of_outline houtline
  have hnot : ¬ Pausable state .writerPending := fun h => h.1 hactive
  have hstuck : Stuck .writerPending paused := stuck_of_not_pausable
    (kept_of_run hstarts hrun) hcommits hkind hphase hnot
  refine ⟨first, initial, events, state, pausing, paused, hstarts, hrun, hphase,
    hcommits, hkind, hroom, ?_⟩
  rintro ⟨recovery, after, hrecovery, hkinds, hrecovered⟩
  have hstill : Stuck .writerPending after :=
    stuck_of_run hstuck hrecovery fun _ hmem =>
      recovers_of_isRecovery hkinds hmem
  exact not_recovered_of_stuck hphase hstill hrecovered

theorem pause_recoverable_of_writing :
    ∃ first initial events state pausing paused,
      Starts smallHash first initial ∧
      Run (Commits smallHash) initial events state ∧
      state.activeChildren = [.agent, .scheduler, .collaboration] ∧
      Commits smallHash state pausing paused ∧
      Recoverable smallHash state paused := by
  have houtline : (smallPaused smallWriting smallHeads).map pauseOutline =
      some (.active .writerActive, [.agent, .scheduler, .collaboration], none,
        [.paused (.paused .writerActive) ⟨smallDigest, smallHeads⟩], true) := by
    decide +kernel
  obtain ⟨first, initial, events, state, pausing, paused, hstarts, hrun,
    hphase, hactive, hpending, hcommits, hkind, hroom⟩ :=
    exists_pause_of_outline houtline
  have hpausable : Pausable state .writerActive :=
    ⟨by rw [hactive]; exact List.cons_ne_nil _ _, hpending,
      (fun h => by cases h), (fun h => by cases h)⟩
  obtain ⟨hrecoverable, _⟩ := pause_recoverable smallHash_ne_zero hstarts hrun
    hphase hcommits hkind hroom
  exact ⟨first, initial, events, state, pausing, paused, hstarts, hrun,
    hactive, hcommits, hrecoverable.mpr hpausable⟩

end Peritus.Orchestrator.Recovery
