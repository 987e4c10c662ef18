import Peritus.Orchestrator.Provenance
import Peritus.Orchestrator.Settlement

/-!
Which settling runs conclude: all those without a child recorded as paused, and
no other.  A run comes to settle with such a child only when it is rejected,
failed or exhausted while it is paused.
-/

namespace Peritus.Orchestrator.Conclusion

open Peritus.Types Checked TransitionSystem Child Directive State
open Validation Command Reducer Edits Handlers Invariant Checkpoint Custody Provenance
open Progress Settlement
open Scheduler.State (zeroDigest)
open Collaboration.Task (u16Max)

variable (sha256 : List UInt8 → Sha256Digest)

/-- However the child is classified at the current revision, it is settled by
its own three commands, and it alone. -/
def SettlesChild (state : OrchestratorState) (child : ChildAggregateKind) :
    Prop :=
  ∀ classification, Classifies state child classification →
    ∃ after, SettlementRun sha256 state classification after ∧
      after.activeChildren = state.activeChildren.erase child

/-- The children are settled in the given order, and the run concludes. -/
def SettlesAll : List ChildAggregateKind → OrchestratorState → Prop
  | [], state => ∃ terminal event after, event.kind = .finalized terminal ∧
      Commits sha256 state event after ∧ after.phase = .terminal
  | child :: rest, state =>
      ∀ classification, Classifies state child classification →
        ∃ after, SettlementRun sha256 state classification after ∧
          after.activeChildren = state.activeChildren.erase child ∧
          SettlesAll rest after

/-- Every child settles, and the run concludes after all have settled. -/
def Settleable (state : OrchestratorState) : Prop :=
  (∀ child ∈ state.activeChildren, SettlesChild sha256 state child) ∧
    ∀ order : List ChildAggregateKind, order.Perm state.activeChildren →
      SettlesAll sha256 order state

def Completes (state : OrchestratorState) : Prop :=
  ∃ events after, Run (Commits sha256) state events after ∧
    after.phase = .terminal

/-- No directive is pending, or only that of the last child, which may still be
published. -/
def Unoccupied (state : OrchestratorState) : Prop :=
  state.pendingDirective = none ∨
    ∃ directive child, state.pendingDirective = some directive ∧
      directive.canPublish = true ∧
      childForDestination directive.destination = some child ∧
      state.activeChildren = [child]

/-- A run is ended by decision only while none of its children is paused. -/
def Careful (state : OrchestratorState) (event : OrchestratorEvent)
    (next : OrchestratorState) : Prop :=
  Commits sha256 state event next ∧
    ((∃ terminal, event.kind = .rejected terminal ∨
        event.kind = .failed terminal ∨ event.kind = .exhausted terminal) →
      state.pausedChildren = [])

variable {sha256} {state next : OrchestratorState} {event : OrchestratorEvent}
  {directive : PendingDirective} {child : ChildAggregateKind}
  {classification : CancellationChildClassification}

/-! ### Settling without paused children -/

theorem Room.mono {settlements fewer : Nat} (hroom : Room state settlements)
    (hle : fewer ≤ settlements) : Room state fewer := by
  obtain ⟨hdirectives, hobservations, hreconciliations, hcommands⟩ := hroom
  exact ⟨by omega, by omega, by omega, by omega⟩

theorem settlesChild_of_unpaused (hnonzero : ∀ bytes, sha256 bytes ≠ zeroDigest)
    (hsettling : Settling sha256 state) (hroom : Room state 1)
    (hpaused : state.pausedChildren = [])
    (hpending : state.pendingDirective = none)
    (hmem : child ∈ state.activeChildren) : SettlesChild sha256 state child := by
  intro classification hclassifies
  have hrunning : child ∉ state.pausedChildren := by
    rw [hpaused]
    exact List.not_mem_nil
  obtain ⟨after, hrun, hsettled⟩ :=
    settle_step hnonzero hsettling hroom hpending hmem hrunning hclassifies
  refine ⟨after, hrun, ?_⟩
  rw [hsettled.active, hclassifies.1]

/-- By induction on the order: every settlement leaves room for the rest. -/
theorem settlesAll_of_unpaused (hnonzero : ∀ bytes, sha256 bytes ≠ zeroDigest)
    {order : List ChildAggregateKind} (hsettling : Settling sha256 state)
    (hroom : Room state order.length) (hpaused : state.pausedChildren = [])
    (hpending : state.pendingDirective = none)
    (hperm : order.Perm state.activeChildren) :
    SettlesAll sha256 order state := by
  induction order generalizing state with
  | nil =>
      have hactive : state.activeChildren = [] := hperm.symm.eq_nil
      have hcommands := hroom.commands
      exact finalize_step hnonzero hsettling hactive hpending
        (by rw [List.length_nil] at hcommands; omega)
  | cons child rest ih =>
      intro classification hclassifies
      have hmem : child ∈ state.activeChildren := hperm.mem_iff.mp
        List.mem_cons_self
      have hrunning : child ∉ state.pausedChildren := by
        rw [hpaused]
        exact List.not_mem_nil
      have hone : Room state 1 := Room.mono hroom (Nat.succ_le_succ (Nat.zero_le _))
      obtain ⟨after, hrun, hsettled⟩ :=
        settle_step hnonzero hsettling hone hpending hmem hrunning hclassifies
      have hactive : after.activeChildren = state.activeChildren.erase child := by
        rw [hsettled.active, hclassifies.1]
      have hrest : rest.Perm after.activeChildren := by
        rw [hactive]
        exact (List.cons_perm_iff_perm_erase.mp hperm).2
      exact ⟨after, hrun, hactive, ih hsettled.settling (hsettled.room hroom)
        (hsettled.paused.trans hpaused) hsettled.pending hrest⟩

/-- What is pending while a run settles cancels one of its children. -/
theorem cancels_of_fits (hfit : Fits state directive)
    (hphase : state.phase = .cancelling) :
    directive.kind = .cancelChildren ∧
      ∃ child, childForDestination directive.destination = some child ∧
        child ∈ state.activeChildren := by
  unfold Fits at hfit
  rw [hphase] at hfit
  cases hkind : directive.kind <;>
    simp [hkind, OrchestratorPhase.resumable, OrchestratorPhase.isPaused,
      OrchestratorPhase.isActive] at hfit
  exact ⟨rfl, hfit⟩

theorem settleable_of_last (hnonzero : ∀ bytes, sha256 bytes ≠ zeroDigest)
    (hsettling : Settling sha256 state) (hroom : Room state 1)
    (hpaused : state.pausedChildren = [])
    (hpending : state.pendingDirective = some directive)
    (hpublish : directive.canPublish = true)
    (hchild : childForDestination directive.destination = some child)
    (hactive : state.activeChildren = [child]) :
    Settleable sha256 state := by
  obtain ⟨hkind, _⟩ := cancels_of_fits
    (hsettling.kept.fits directive hpending) hsettling.cancelling
  have hmem : child ∈ state.activeChildren := by
    rw [hactive]
    exact List.mem_singleton_self child
  have hrunning : child ∉ state.pausedChildren := by
    rw [hpaused]
    exact List.not_mem_nil
  have hsettles : ∀ classification, Classifies state child classification →
      ∃ after, SettlementRun sha256 state classification after ∧
        Settled sha256 state classification after :=
    fun _ => resettle_step hnonzero hsettling hroom hpending hkind hpublish
      hchild hmem hrunning
  constructor
  · intro other hother classification hclassifies
    rw [hactive, List.mem_singleton] at hother
    subst hother
    obtain ⟨after, hrun, hsettled⟩ := hsettles classification hclassifies
    refine ⟨after, hrun, ?_⟩
    rw [hsettled.active, hclassifies.1]
  · intro order hperm
    rw [hactive, List.perm_singleton] at hperm
    subst hperm
    intro classification hclassifies
    obtain ⟨after, hrun, hsettled⟩ := hsettles classification hclassifies
    have hremaining : after.activeChildren = state.activeChildren.erase child := by
      rw [hsettled.active, hclassifies.1]
    have hempty : after.activeChildren = [] := by
      rw [hremaining, hactive, List.erase_cons_head]
    have hcommands := (hsettled.room hroom).commands
    exact ⟨after, hrun, hremaining, finalize_step hnonzero hsettled.settling
      hempty hsettled.pending (by omega)⟩

/-! ### What a settling run keeps -/

theorem paused_of_edit {id : EventId} {kind : OrchestratorCommandKind}
    {found : OrchestratorEventKind}
    (hedit : Edit sha256 state id kind found next)
    (hphase : state.phase = .cancelling) (hactive : state.activeChildren ≠ []) :
    next.phase = .cancelling ∧ next.pausedChildren = state.pausedChildren := by
  cases hedit with
  | republish => exact ⟨hphase, rfl⟩
  | publish => exact ⟨hphase, rfl⟩
  | acknowledge => exact ⟨hphase, rfl⟩
  | reconcile => exact ⟨hphase, rfl⟩
  | acknowledgeGates _ _ hother => rw [hphase] at hother; cases hother
  | acknowledgeKernel _ _ hother => rw [hphase] at hother; cases hother
  | acknowledgePause _ _ hother => rw [hphase] at hother; cases hother
  | acknowledgeResume _ _ hother => rw [hphase] at hother; cases hother
  | activate _ _ hother => rw [hphase] at hother; cases hother
  | installWriter hother => rw [hphase] at hother; cases hother
  | passGates hother => rw [hphase] at hother; cases hother
  | needFix hother => rw [hphase] at hother; cases hother
  | completeReview hother => rw [hphase] at hother; cases hother
  | propose hother => rw [hphase] at hother; cases hother
  | coordinate _ _ hother =>
      rw [hphase] at hother
      rcases hother with hother | hother <;> cases hother
  | advance hother => rw [hphase] at hother; cases hother
  | certify _ hexact =>
      have hother := (exact_of_certificateExact hexact).phase
      rw [hphase] at hother
      cases hother
  | beginKernel hother => rw [hphase] at hother; cases hother
  | pause hother => rw [hphase] at hother; cases hother
  | resume hother => rw [hphase] at hother; cases hother
  | cancel _ hother => exact absurd hphase hother
  | finalize _ hempty => exact absurd hempty hactive
  | conclude hending =>
      cases hending with
      | writer _ hother => rw [hphase] at hother; cases hother
      | gates hother => rw [hphase] at hother; cases hother
      | review hother => rw [hphase] at hother; cases hother
      | fixer hother => rw [hphase] at hother; cases hother
      | coordination _ _ hother =>
          rw [hphase] at hother
          rcases hother with hother | hother <;> cases hother
      | kernelAccepted hother => rw [hphase] at hother; cases hother
      | kernelNeedsChanges hother => rw [hphase] at hother; cases hother
      | rejected hother => exact absurd hphase hother
      | failed hother => exact absurd hphase hother
      | exhausted hother => exact absurd hphase hother

theorem paused_of_commits (hcommits : Commits sha256 state event next)
    (hphase : state.phase = .cancelling) (hactive : state.activeChildren ≠ []) :
    next.phase = .cancelling ∧ next.pausedChildren = state.pausedChildren := by
  obtain ⟨command, hdecide⟩ := hcommits
  obtain ⟨applied, hcommitted⟩ := committed_of_decideCommand hdecide
  obtain ⟨hcancelling, hpaused⟩ := paused_of_edit hcommitted.edit hphase hactive
  obtain ⟨_, _, rfl⟩ := hcommitted.committed
  exact ⟨hcancelling, hpaused⟩

theorem active_ne_nil_of_paused (hvalid : Valid sha256 state)
    (hpaused : child ∈ state.pausedChildren) : state.activeChildren ≠ [] :=
  List.ne_nil_of_mem (hvalid.paused_subset hpaused)

/-- A paused child is neither settled nor resumed any more. -/
theorem paused_of_run {events : List OrchestratorEvent}
    (hrun : Run (Commits sha256) state events next)
    (hvalid : Valid sha256 state) (hphase : state.phase = .cancelling)
    (hpaused : child ∈ state.pausedChildren) :
    next.phase = .cancelling ∧ child ∈ next.activeChildren := by
  have hstep : ∀ s a t,
      (Valid sha256 s ∧ s.phase = .cancelling ∧ child ∈ s.pausedChildren) →
      Commits sha256 s a t →
      Valid sha256 t ∧ t.phase = .cancelling ∧ child ∈ t.pausedChildren := by
    rintro s a t ⟨hvalid, hphase, hpaused⟩ hcommits
    obtain ⟨hcancelling, hsame⟩ := paused_of_commits hcommits hphase
      (active_ne_nil_of_paused hvalid hpaused)
    refine ⟨valid_of_commits hcommits, hcancelling, ?_⟩
    rw [hsame]
    exact hpaused
  obtain ⟨hnext, hcancelling, hmem⟩ :=
    hrun.invariant hstep ⟨hvalid, hphase, hpaused⟩
  exact ⟨hcancelling, hnext.paused_subset hmem⟩

theorem republished_of_edit {other : PendingDirective} {id : EventId}
    {kind : OrchestratorCommandKind}
    (hedit : Edit sha256 state id kind (.directivePublished other) next)
    (hpending : state.pendingDirective = some directive) :
    other = directive ∧ directive.canPublish = true := by
  cases hedit with
  | republish hsome _ hpublish =>
      rw [hpending] at hsome
      cases hsome
      exact ⟨rfl, hpublish⟩
  | publish hnone =>
      rw [hpending] at hnone
      cases hnone
  | conclude hending => cases hending

/-- While a directive is pending, only that directive is published. -/
theorem republished_of_commits {other : PendingDirective}
    (hcommits : Commits sha256 state event next)
    (hpending : state.pendingDirective = some directive)
    (hkind : event.kind = .directivePublished other) :
    other = directive ∧ directive.canPublish = true := by
  obtain ⟨command, hdecide⟩ := hcommits
  obtain ⟨applied, hcommitted⟩ := committed_of_decideCommand hdecide
  have hedit := hcommitted.edit
  rw [hkind] at hedit
  exact republished_of_edit hedit hpending

theorem republished_of_settlementRun {after : OrchestratorState}
    (hrun : SettlementRun sha256 state classification after)
    (hpending : state.pendingDirective = some directive) :
    childForDestination directive.destination =
        some classification.aggregate ∧ directive.canPublish = true := by
  obtain ⟨other, events, _, hchild, hevents, hrun⟩ := hrun
  cases hrun with
  | nil => cases hevents
  | cons hcommits _ =>
      rw [List.map_cons, settlementEvents, List.cons.injEq] at hevents
      obtain ⟨rfl, hpublish⟩ :=
        republished_of_commits hcommits hpending hevents.1
      exact ⟨hchild, hpublish⟩

/-- There is always a classification to settle a child by. -/
theorem exists_classifies (hnonzero : ∀ bytes, sha256 bytes ≠ zeroDigest)
    (state : OrchestratorState) (child : ChildAggregateKind) :
    ∃ classification, Classifies state child classification :=
  ⟨⟨child, state.currentCandidate.revision, .unreachable, sha256 [],
    hnonzero []⟩, rfl, rfl⟩

theorem not_settlesChild_of_paused
    (hnonzero : ∀ bytes, sha256 bytes ≠ zeroDigest)
    (hvalid : Valid sha256 state) (hphase : state.phase = .cancelling)
    (hpaused : child ∈ state.pausedChildren) :
    ¬ SettlesChild sha256 state child := by
  intro hsettles
  obtain ⟨classification, hclassifies⟩ :=
    exists_classifies hnonzero state child
  obtain ⟨after, ⟨_, _, _, _, _, hrun⟩, hremoved⟩ :=
    hsettles classification hclassifies
  obtain ⟨_, hkept⟩ := paused_of_run hrun hvalid hphase hpaused
  rw [hremoved] at hkept
  have hnodup : state.activeChildren.Nodup :=
    List.Nodup.of_map _ hvalid.sortedActive.nodup_map
  exact (hnodup.mem_erase_iff.mp hkept).1 rfl

theorem unpaused_of_settlesChild
    (hnonzero : ∀ bytes, sha256 bytes ≠ zeroDigest)
    (hsettling : Settling sha256 state)
    (hsettles : ∀ child ∈ state.activeChildren,
      SettlesChild sha256 state child) : state.pausedChildren = [] := by
  refine List.eq_nil_iff_forall_not_mem.mpr fun child hpaused => ?_
  have hmem := hsettling.valid.paused_subset hpaused
  exact not_settlesChild_of_paused hnonzero hsettling.valid
    hsettling.cancelling hpaused (hsettles child hmem)

theorem unoccupied_of_settlesChild
    (hnonzero : ∀ bytes, sha256 bytes ≠ zeroDigest)
    (hsettling : Settling sha256 state)
    (hsettles : ∀ child ∈ state.activeChildren,
      SettlesChild sha256 state child) : Unoccupied state := by
  cases hpending : state.pendingDirective with
  | none => exact .inl hpending
  | some directive =>
      obtain ⟨_, child, hchild, hmem⟩ := cancels_of_fits
        (hsettling.kept.fits directive hpending) hsettling.cancelling
      have hrepublished : ∀ other ∈ state.activeChildren,
          other = child ∧ directive.canPublish = true := by
        intro other hother
        obtain ⟨classification, hclassifies⟩ :=
          exists_classifies hnonzero state other
        obtain ⟨after, hrun, _⟩ :=
          hsettles other hother classification hclassifies
        obtain ⟨hsame, hpublish⟩ :=
          republished_of_settlementRun hrun hpending
        rw [hchild, hclassifies.1] at hsame
        exact ⟨(Option.some.inj hsame).symm, hpublish⟩
      have hnodup : state.activeChildren.Nodup :=
        List.Nodup.of_map _ hsettling.valid.sortedActive.nodup_map
      have hactive : state.activeChildren = [child] :=
        List.perm_singleton.mp ((List.perm_ext_iff_of_nodup hnodup
          (List.nodup_singleton child)).mpr fun other => by
            rw [List.mem_singleton]
            constructor
            · intro hother
              exact (hrepublished other hother).1
            · rintro rfl
              exact hmem)
      exact .inr ⟨directive, child, hpending, (hrepublished child hmem).2,
        hchild, hactive⟩

/-- Exactly when every child of a settling run can be settled. -/
theorem settleable_iff (hnonzero : ∀ bytes, sha256 bytes ≠ zeroDigest)
    (hsettling : Settling sha256 state)
    (hroom : Room state state.activeChildren.length) :
    Settleable sha256 state ↔
      state.pausedChildren = [] ∧ Unoccupied state := by
  constructor
  · rintro ⟨hsettles, _⟩
    exact ⟨unpaused_of_settlesChild hnonzero hsettling hsettles,
      unoccupied_of_settlesChild hnonzero hsettling hsettles⟩
  · rintro ⟨hpaused, hpending | ⟨directive, child, hpending, hpublish, hchild,
      hactive⟩⟩
    · constructor
      · intro child hmem
        have hone : Room state 1 :=
          Room.mono hroom (List.length_pos_of_mem hmem)
        exact settlesChild_of_unpaused hnonzero hsettling hone hpaused
          hpending hmem
      · intro order hperm
        have horder : Room state order.length := by
          rw [hperm.length_eq]
          exact hroom
        exact settlesAll_of_unpaused hnonzero hsettling horder hpaused
          hpending hperm
    · rw [hactive] at hroom
      exact settleable_of_last hnonzero hsettling hroom hpaused hpending
        hpublish hchild hactive

/-! ### Completion -/

theorem completes_of_settlesAll
    (hnonzero : ∀ bytes, sha256 bytes ≠ zeroDigest)
    {order : List ChildAggregateKind}
    (hsettles : SettlesAll sha256 order state) : Completes sha256 state := by
  induction order generalizing state with
  | nil =>
      obtain ⟨_, event, after, _, hcommits, hphase⟩ := hsettles
      exact ⟨[event], after, .cons hcommits (.nil _), hphase⟩
  | cons child rest ih =>
      obtain ⟨classification, hclassifies⟩ :=
        exists_classifies hnonzero state child
      obtain ⟨after, ⟨_, events, _, _, _, hrun⟩, _, hrest⟩ :=
        hsettles classification hclassifies
      obtain ⟨later, concluded, hlater, hphase⟩ := ih hrest
      exact ⟨events ++ later, concluded, hrun.append hlater, hphase⟩

/-- A directive that was not delivered yet may be. -/
theorem canPublish_of_ready (hvalid : directive.validate = .ok ())
    (hready : directive.deliveryState = .ready) :
    directive.canPublish = true := by
  unfold PendingDirective.validate at hvalid
  unfold PendingDirective.canPublish
  simp only [bind_eq_ok_iff, ensure_eq_ok_iff, exists_unit_iff,
    Bool.and_eq_true, decide_eq_true_eq, hready] at hvalid ⊢
  obtain ⟨⟨⟨⟨_, hmaximum⟩, _⟩, _⟩, hcount⟩ := hvalid
  constructor
  · exact fun h => by cases h
  · omega

/-- The settlement that is under way is brought to its end. -/
theorem exists_settled_of_pending
    (hnonzero : ∀ bytes, sha256 bytes ≠ zeroDigest)
    (hsettling : Settling sha256 state) (hroom : Room state 1)
    (hpaused : state.pausedChildren = [])
    (hpending : state.pendingDirective = some directive) :
    ∃ classification events after,
      classification.aggregate ∈ state.activeChildren ∧
      Run (Commits sha256) state events after ∧
      Settled sha256 state classification after := by
  obtain ⟨hkind, child, hchild, hmem⟩ := cancels_of_fits
    (hsettling.kept.fits directive hpending) hsettling.cancelling
  obtain ⟨classification, hclassifies⟩ :=
    exists_classifies hnonzero state child
  have hrunning : child ∉ state.pausedChildren := by
    rw [hpaused]
    exact List.not_mem_nil
  cases hstate : decide (directive.deliveryState = .ready) with
  | true =>
      have hpublish := canPublish_of_ready
        (validateOption_eq_ok hsettling.valid.pending hpending)
        (of_decide_eq_true hstate)
      obtain ⟨after, ⟨_, events, _, _, _, hrun⟩, hsettled⟩ :=
        resettle_step hnonzero hsettling hroom hpending hkind hpublish hchild
          hmem hrunning hclassifies
      obtain ⟨rfl, _⟩ := hclassifies
      exact ⟨classification, events, after, hmem, hrun, hsettled⟩
  | false =>
      obtain ⟨rfl, hrevision⟩ := hclassifies
      have hcommands := hroom.commands
      obtain ⟨events, after, _, hrun, hsettled, _⟩ :=
        finish_settlement hnonzero hsettling hpending hkind
          (of_decide_eq_false hstate) hchild hmem hrunning hrevision
          hroom.reconciliations hroom.observations (by omega)
      exact ⟨classification, events, after, hmem, hrun, hsettled⟩

theorem completes_iff (hnonzero : ∀ bytes, sha256 bytes ≠ zeroDigest)
    (hsettling : Settling sha256 state)
    (hroom : Room state state.activeChildren.length) :
    Completes sha256 state ↔ state.pausedChildren = [] := by
  constructor
  · rintro ⟨events, after, hrun, hphase⟩
    refine List.eq_nil_iff_forall_not_mem.mpr fun child hpaused => ?_
    obtain ⟨hcancelling, _⟩ :=
      paused_of_run hrun hsettling.valid hsettling.cancelling hpaused
    rw [hphase] at hcancelling
    cases hcancelling
  · intro hpaused
    cases hpending : state.pendingDirective with
    | none =>
        exact completes_of_settlesAll hnonzero (settlesAll_of_unpaused hnonzero
          hsettling hroom hpaused hpending (List.Perm.refl _))
    | some directive =>
        obtain ⟨_, child, _, hactive⟩ := cancels_of_fits
          (hsettling.kept.fits directive hpending) hsettling.cancelling
        have hone : Room state 1 :=
          Room.mono hroom (List.length_pos_of_mem hactive)
        obtain ⟨classification, events, after, hmem, hrun, hsettled⟩ :=
          exists_settled_of_pending hnonzero hsettling hone hpaused hpending
        have hlength : state.activeChildren.length =
            after.activeChildren.length + 1 := by
          have hpositive := List.length_pos_of_mem hmem
          rw [hsettled.active, List.length_erase_of_mem hmem]
          omega
        rw [hlength] at hroom
        have hrest : Completes sha256 after :=
          completes_of_settlesAll hnonzero (settlesAll_of_unpaused hnonzero
            hsettled.settling (hsettled.room hroom)
            (hsettled.paused.trans hpaused) hsettled.pending (List.Perm.refl _))
        obtain ⟨later, concluded, hlater, hphase⟩ := hrest
        exact ⟨events ++ later, concluded, hrun.append hlater, hphase⟩

/-! ### How a run comes to settle -/

/-- A run ends by decision, or it was not being paused or resumed. -/
theorem decided_or_running {cause : TerminalCause} {digest : Sha256Digest}
    {kind : OrchestratorCommandKind} {found : OrchestratorEventKind}
    {ending : OrchestratorState}
    (hresuming : state.phase.isActive = true →
      state.pausedReconciliation.isSome = true → resumesChildren kind = true)
    (hending : Ending sha256 state kind found cause digest ending) :
    (∃ terminal, found = .rejected terminal ∨ found = .failed terminal ∨
      found = .exhausted terminal) ∨ state.pausedReconciliation = none := by
  have hrunning : resumesChildren kind = false →
      state.phase.isActive = true → state.pausedReconciliation = none := by
    intro hkind hactive
    cases hsome : state.pausedReconciliation with
    | none => rfl
    | some reconciliation =>
        rw [hresuming hactive (by rw [hsome]; rfl)] at hkind
        cases hkind
  cases hending with
  | rejected => exact .inl ⟨_, .inl rfl⟩
  | failed => exact .inl ⟨_, .inr (.inl rfl)⟩
  | exhausted => exact .inl ⟨_, .inr (.inr rfl)⟩
  | writer _ hphase => exact .inr (hrunning rfl (by rw [hphase]; rfl))
  | gates hphase => exact .inr (hrunning rfl (by rw [hphase]; rfl))
  | review hphase => exact .inr (hrunning rfl (by rw [hphase]; rfl))
  | fixer hphase => exact .inr (hrunning rfl (by rw [hphase]; rfl))
  | kernelAccepted hphase => exact .inr (hrunning rfl (by rw [hphase]; rfl))
  | kernelNeedsChanges hphase =>
      exact .inr (hrunning rfl (by rw [hphase]; rfl))
  | coordination _ _ hphase =>
      right
      rcases hphase with hphase | hphase
      · exact hrunning rfl (by rw [hphase]; rfl)
      · exact hrunning rfl (by rw [hphase]; rfl)

theorem unpaused_of_conclude {cause : TerminalCause} {digest : Sha256Digest}
    {kind : OrchestratorCommandKind} {found : OrchestratorEventKind}
    {ending : OrchestratorState} {terminal : OrchestratorTerminal}
    (hkept : Kept state)
    (hresuming : state.phase.isActive = true →
      state.pausedReconciliation.isSome = true → resumesChildren kind = true)
    (hcareful : (∃ terminal, found = .rejected terminal ∨
        found = .failed terminal ∨ found = .exhausted terminal) →
      state.pausedChildren = [])
    (hending : Ending sha256 state kind found cause digest ending)
    (hconcludes : Concludes ending digest terminal next)
    (hphase : next.phase = .cancelling) : next.pausedChildren = [] := by
  have hsame := samePause_of_ending hending
  cases hconcludes with
  | closed => cases hphase
  | settling =>
      change ending.pausedChildren = []
      rw [hsame.children]
      rcases decided_or_running hresuming hending with hdecided | hrunning
      · exact hcareful hdecided
      · exact hkept.running hrunning

/-- One step: only a decision to end a paused run leaves children paused. -/
theorem unpaused_of_edit {id : EventId} {kind : OrchestratorCommandKind}
    {found : OrchestratorEventKind} (hkept : Kept state)
    (hresuming : state.phase.isActive = true →
      state.pausedReconciliation.isSome = true → resumesChildren kind = true)
    (hcareful : (∃ terminal, found = .rejected terminal ∨
        found = .failed terminal ∨ found = .exhausted terminal) →
      state.pausedChildren = [])
    (hunpaused : state.phase = .cancelling → state.pausedChildren = [])
    (hedit : Edit sha256 state id kind found next)
    (hphase : next.phase = .cancelling) : next.pausedChildren = [] := by
  cases hedit with
  | republish => exact hunpaused hphase
  | publish => exact hunpaused hphase
  | acknowledgeKernel => exact hunpaused hphase
  | acknowledge => exact hunpaused hphase
  | coordinate => exact hunpaused hphase
  | beginKernel => exact hunpaused hphase
  | reconcile => exact hunpaused hphase
  | acknowledgePause _ _ hpaused =>
      change state.phase = .cancelling at hphase
      rw [hphase] at hpaused
      cases hpaused
  | acknowledgeResume _ _ hactive =>
      change state.phase = .cancelling at hphase
      rw [hphase] at hactive
      cases hactive
  | acknowledgeGates => cases hphase
  | activate => cases hphase
  | installWriter => cases hphase
  | passGates => cases hphase
  | needFix => cases hphase
  | completeReview => cases hphase
  | propose => cases hphase
  | advance => cases hphase
  | certify => cases hphase
  | pause => cases hphase
  | resume => cases hphase
  | cancel => rfl
  | finalize => cases hphase
  | conclude hending _ hconcludes =>
      exact unpaused_of_conclude hkept hresuming hcareful hending hconcludes
        hphase

theorem unpaused_of_run {first : OrchestratorEvent}
    {initial : OrchestratorState} {events : List OrchestratorEvent}
    (hstarts : Starts sha256 first initial)
    (hrun : Run (Careful sha256) initial events state)
    (hphase : state.phase = .cancelling) : state.pausedChildren = [] := by
  have hstep : ∀ s a t,
      (Kept s ∧ (s.phase = .cancelling → s.pausedChildren = [])) →
      Careful sha256 s a t →
      Kept t ∧ (t.phase = .cancelling → t.pausedChildren = []) := by
    rintro s a t ⟨hkept, hunpaused⟩ ⟨hcommits, hcareful⟩
    refine ⟨kept_of_commits hkept hcommits, ?_⟩
    obtain ⟨command, hdecide⟩ := hcommits
    obtain ⟨applied, hcommitted⟩ := committed_of_decideCommand hdecide
    obtain ⟨_, _, rfl⟩ := hcommitted.committed
    intro hcancelling
    have hedited : applied.pausedChildren = [] :=
      unpaused_of_edit hkept hcommitted.resuming hcareful hunpaused
        hcommitted.edit hcancelling
    exact hedited
  have hinitial : initial.phase = .cancelling → initial.pausedChildren = [] := by
    intro hcancelling
    obtain ⟨_, _, _, _, _, _, rfl, _⟩ := (begun_of_starts hstarts).genesis
    rfl
  exact (hrun.invariant hstep ⟨kept_of_starts hstarts, hinitial⟩).2 hphase

/-- Settlement completes exactly when no child is recorded as paused, and every
child can be settled next exactly when, besides, no other settlement is under
way.  A run that is never ended by decision while a child is paused settles
without paused children. -/
theorem settlement_completes {first : OrchestratorEvent}
    {initial : OrchestratorState} {events : List OrchestratorEvent}
    (hnonzero : ∀ bytes, sha256 bytes ≠ zeroDigest)
    (hstarts : Starts sha256 first initial)
    (hrun : Run (Commits sha256) initial events state)
    (hphase : state.phase = .cancelling)
    (hroom : Room state state.activeChildren.length) :
    (Settleable sha256 state ↔
      state.pausedChildren = [] ∧ Unoccupied state) ∧
    (Completes sha256 state ↔ state.pausedChildren = []) ∧
    (Run (Careful sha256) initial events state →
      state.pausedChildren = []) := by
  have hcounted : Counted state :=
    hrun.invariant (fun _ _ _ h hcommits => counted_of_commits h hcommits)
      (counted_of_starts hstarts)
  have hsettling : Settling sha256 state :=
    ⟨kept_of_run hstarts hrun, valid_of_run hstarts hrun, hcounted, hphase⟩
  exact ⟨settleable_iff hnonzero hsettling hroom,
    completes_iff hnonzero hsettling hroom,
    fun hcareful => unpaused_of_run hstarts hcareful hphase⟩

/-! ### Two ways to end a run of one writer -/

theorem smallHash_ne_zero (bytes : List UInt8) :
    smallHash bytes ≠ zeroDigest := by
  change smallDigest ≠ zeroDigest
  decide

/-- A writer with its coordination, which run as the requests begin. -/
def smallWriting : List Request :=
  [(smallId 51, .publishDirective smallStartWriter),
   (smallId 52, .observeHandoffActivation
      (smallActivation smallHandoff .writer))]

def smallHeads : List ChildHead :=
  [smallHead .agent none, smallHead .scheduler none,
   smallHead .collaboration none]

/-- The run fails after its writer has been paused. -/
def smallFailure : List Request :=
  smallWriting ++
    [(smallId 53, .pause ⟨smallDigest, smallHeads⟩),
     (smallId 54, .publishDirective (smallDirective 54 .pauseChildren .agent)),
     (smallId 55, .acknowledgeDirective (smallId 54)),
     (smallId 56, .fail smallDigest)]

def smallCancellation : List Request :=
  smallWriting ++ [(smallId 53, .cancel smallDigest)]

/-- What the requests lead to, if all are accepted. -/
def smallReached (requests : List Request) :
    Option (List OrchestratorEvent × OrchestratorState) :=
  smallStart.bind fun transition =>
    attempts smallHash transition.state requests

def outline (outcome : List OrchestratorEvent × OrchestratorState) :=
  (outcome.2.phase, outcome.2.activeChildren, outcome.2.pausedChildren,
    outcome.2.pendingDirective, decide (Room outcome.2 3))

theorem exists_run_of_outline {requests : List Request}
    {children paused : List ChildAggregateKind}
    (h : (smallReached requests).map outline =
      some (.cancelling, children, paused, none, true))
    (hlength : children.length = 3) :
    ∃ first initial events state, Starts smallHash first initial ∧
      Run (Commits smallHash) initial events state ∧
      state.phase = .cancelling ∧ state.activeChildren = children ∧
      state.pausedChildren = paused ∧ state.pendingDirective = none ∧
      Room state state.activeChildren.length := by
  obtain ⟨⟨events, state⟩, hreached, houtline⟩ := Option.map_eq_some_iff.mp h
  obtain ⟨⟨first, initial⟩, hstart, hattempts⟩ :=
    Option.bind_eq_some_iff.mp hreached
  simp only [outline, Prod.mk.injEq, decide_eq_true_eq] at houtline
  obtain ⟨hphase, hactive, hpaused, hpending, hroom⟩ := houtline
  refine ⟨first, initial, events, state,
    ⟨smallGenesis, toOption_eq_some_iff.mp hstart⟩,
    run_of_attempts hattempts, hphase, hactive, hpaused, hpending, ?_⟩
  rw [hactive, hlength]
  exact hroom

/-- The writer was recorded as paused when the run failed, and that record is
never cleared: the reconciliation of the writer is refused for good. -/
theorem unsettled_after_failure :
    ∃ first initial events state, Starts smallHash first initial ∧
      Run (Commits smallHash) initial events state ∧
      state.phase = .cancelling ∧
      Room state state.activeChildren.length ∧
      state.pendingDirective = none ∧ .agent ∈ state.activeChildren ∧
      ¬ SettlesChild smallHash state .agent ∧
      ¬ Completes smallHash state := by
  have houtline : (smallReached smallFailure).map outline =
      some (.cancelling, [.agent, .scheduler, .collaboration], [.agent], none,
        true) := by
    decide +kernel
  obtain ⟨first, initial, events, state, hstarts, hrun, hphase, hactive,
    hpaused, hpending, hroom⟩ := exists_run_of_outline houtline rfl
  have hmem : ChildAggregateKind.agent ∈ state.pausedChildren := by
    rw [hpaused]
    exact List.mem_singleton_self _
  have hvalid := valid_of_run hstarts hrun
  refine ⟨first, initial, events, state, hstarts, hrun, hphase, hroom,
    hpending, hvalid.paused_subset hmem, ?_, ?_⟩
  · exact not_settlesChild_of_paused smallHash_ne_zero hvalid hphase hmem
  · rintro ⟨later, after, hlater, hterminal⟩
    obtain ⟨hcancelling, _⟩ := paused_of_run hlater hvalid hphase hmem
    rw [hterminal] at hcancelling
    cases hcancelling

theorem settlement_completes_of_cancel :
    ∃ first initial events state, Starts smallHash first initial ∧
      Run (Commits smallHash) initial events state ∧
      state.activeChildren = [.agent, .scheduler, .collaboration] ∧
      Settleable smallHash state ∧ Completes smallHash state := by
  have houtline : (smallReached smallCancellation).map outline =
      some (.cancelling, [.agent, .scheduler, .collaboration], [], none,
        true) := by
    decide +kernel
  obtain ⟨first, initial, events, state, hstarts, hrun, hphase, hactive,
    hpaused, hpending, hroom⟩ := exists_run_of_outline houtline rfl
  obtain ⟨hsettleable, hcompletes, _⟩ := settlement_completes
    smallHash_ne_zero hstarts hrun hphase hroom
  exact ⟨first, initial, events, state, hstarts, hrun, hactive,
    hsettleable.mpr ⟨hpaused, .inl hpending⟩, hcompletes.mpr hpaused⟩

end Peritus.Orchestrator.Conclusion
