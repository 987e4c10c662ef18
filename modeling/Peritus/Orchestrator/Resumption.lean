import Peritus.Orchestrator.Conclusion

/-!
Pausing and resuming: from a run whose children are all running, each child is
paused by its own directive, the run is resumed, and each child is resumed.
-/

namespace Peritus.Orchestrator.Resumption

open Peritus.Types Checked SortedTable TransitionSystem Material Child Directive State
open Validation Command Reducer Edits Handlers Invariant Checkpoint Progress
open Scheduler.State (zeroDigest)
open Collaboration.Task (u16Max)

/-- A run between two commands that is being paused or resumed. -/
structure Held (sha256 : List UInt8 → Sha256Digest)
    (reconciliation : ResumeReconciliation) (state : OrchestratorState) :
    Prop where
  kept : Kept state
  valid : Valid sha256 state
  counted : Counted state
  recorded : state.pausedReconciliation = some reconciliation
  working : state.phase.resumable.isSome = true

/-- What a pause and its resumption leave alone: all but the cursor, the phase,
the directive slot and its counter, and the record of the pause itself. -/
def untouched (state : OrchestratorState) : OrchestratorState :=
  { state with
    phase := .terminal
    sequence := PositiveNumber.first
    lastEventId := state.binding.id
    stateDigest := zeroDigest
    counters := { state.counters with childDirectives := 0 }
    pendingDirective := none
    usedCommands := []
    pausedReconciliation := none
    pausedChildren := [] }

variable {sha256 : List UInt8 → Sha256Digest}
  {reconciliation : ResumeReconciliation} {state next : OrchestratorState}
  {event : OrchestratorEvent} {directive : PendingDirective}
  {child : ChildAggregateKind} {phase : ActivePhase}

theorem activeChildren_of_untouched (h : untouched next = untouched state) :
    next.activeChildren = state.activeChildren := by
  have hactive := congrArg OrchestratorState.activeChildren h
  exact hactive

theorem binding_of_untouched (h : untouched next = untouched state) :
    next.binding = state.binding := by
  have hbinding := congrArg OrchestratorState.binding h
  exact hbinding

namespace Held

theorem commits (hheld : Held sha256 reconciliation state)
    (hcommits : Commits sha256 state event next)
    (hrecorded : next.pausedReconciliation = some reconciliation)
    (hworking : next.phase.resumable.isSome = true) :
    Held sha256 reconciliation next :=
  ⟨kept_of_commits hheld.kept hcommits, valid_of_commits hcommits,
    counted_of_commits hheld.counted hcommits, hrecorded, hworking⟩

theorem opened (hheld : Held sha256 reconciliation state) :
    state.phase ≠ .terminal := by
  intro hphase
  have hworking := hheld.working
  rw [hphase] at hworking
  cases hworking

theorem uncancelled (hheld : Held sha256 reconciliation state) :
    state.phase ≠ .cancelling := by
  intro hphase
  have hworking := hheld.working
  rw [hphase] at hworking
  cases hworking

theorem truth (hheld : Held sha256 reconciliation state)
    (hopened : next.phase ≠ .terminal)
    (hterminal : next.terminal = state.terminal)
    (hpending : next.pendingTerminal = state.pendingTerminal) :
    terminalTruth next = true := by
  refine terminalTruth_of_open hopened ?_ ?_
  · rw [hterminal]
    exact hheld.valid.terminal_eq_none hheld.opened
  · intro terminal hsome
    rw [hpending] at hsome
    exact absurd (hheld.valid.cancelling_of_pendingTerminal hsome)
      hheld.uncancelled

/-- The checks that an edit of the slot, the phase and the record of the pause
leaves to be made. -/
theorem checked (hheld : Held sha256 reconciliation state)
    {counters : OrchestratorCounters} {pending : Option PendingDirective}
    {found : OrchestratorPhase} {record : Option ResumeReconciliation}
    {paused : List ChildAggregateKind}
    (hcounters : counters.validate state.binding = .ok ())
    (hretained : counters.retainedObservations =
      state.counters.retainedObservations)
    (hpending : validateOption PendingDirective.validate pending = .ok ())
    (hopened : found ≠ .terminal)
    (hsorted : Sorted ChildAggregateKind.tag paused)
    (hsubset : paused ⊆ state.activeChildren) :
    Checked sha256 state
      { state with
        counters
        phase := found
        pendingDirective := pending
        pausedReconciliation := record
        pausedChildren := paused } where
  counters := hcounters
  retained := hheld.valid.retained.trans hretained.symm
  proposed := .inl rfl
  openHandoff := .inl rfl
  observations _ h := .inl h
  pending := hpending
  concluded := hheld.valid.concluded
  concluding := hheld.valid.concluding
  children := by
    unfold canonicalChildren
    simp only [Bool.and_eq_true, List.all_eq_true, decide_eq_true_eq]
    exact ⟨⟨ascending_iff.mpr hheld.valid.sortedActive,
      ascending_iff.mpr hsorted⟩, fun _ h => hsubset h⟩
  truth := hheld.truth hopened rfl rfl

end Held

/-! ### One command -/

/-- The directive that pauses or resumes a child at the recorded checkpoint. -/
theorem exists_directive (hnonzero : ∀ bytes, sha256 bytes ≠ zeroDigest)
    (reconciliation : ResumeReconciliation) (state : OrchestratorState)
    (child : ChildAggregateKind) (id : OpaqueIdentifier) {kind : DirectiveKind}
    (hkind : kind = .pauseChildren ∨ kind = .resumeChildren) :
    ∃ directive : PendingDirective, directive.kind = kind ∧
      childForDestination directive.destination = some child ∧
      directive.revision = state.currentCandidate.revision ∧
      directive.sourceEvent = id ∧ directive.validate = .ok () ∧
      directive.canPublish = true ∧
      payloadMatches sha256 directive (.reconciliation reconciliation) =
        true := by
  have hfits : payloadFits kind (.reconciliation reconciliation) = true := by
    rcases hkind with rfl | rfl <;> rfl
  have hcause : ∀ cause, DirectivePayloadBinding.reconciliation reconciliation =
      .cancellation cause → nonzero cause = true :=
    fun _ h => by cases h
  exact ⟨childDirective sha256 state id kind child
      (.reconciliation reconciliation), rfl,
    childForDestination_destinationOf child, rfl, rfl,
    validate_childDirective hnonzero hfits hcause, rfl,
    payloadMatches_childDirective hfits hcause⟩

/-- What has to match for a directive to the child to be published. -/
theorem matchesPhase_of_paused (hphase : state.phase = .paused phase)
    (hrecorded : state.pausedReconciliation = some reconciliation)
    (hkind : directive.kind = .pauseChildren)
    (hchild : childForDestination directive.destination = some child)
    (hrevision : directive.revision = state.currentCandidate.revision)
    (hpayload : payloadMatches sha256 directive
      (.reconciliation reconciliation) = true)
    (hactive : child ∈ state.activeChildren)
    (hrunning : child ∉ state.pausedChildren) :
    matchesPhase sha256 state directive = true := by
  unfold matchesPhase
  rw [hphase]
  simp only [OrchestratorPhase.isActive, matchesWork, hrevision, hrecorded,
    hkind, hchild, hpayload, hactive, hrunning, Option.any_some, decide_true,
    not_false_eq_true, Bool.and_self]

theorem matchesPhase_of_resuming (hphase : state.phase = .active phase)
    (hrecorded : state.pausedReconciliation = some reconciliation)
    (hkind : directive.kind = .resumeChildren)
    (hchild : childForDestination directive.destination = some child)
    (hrevision : directive.revision = state.currentCandidate.revision)
    (hpayload : payloadMatches sha256 directive
      (.reconciliation reconciliation) = true)
    (hactive : child ∈ state.activeChildren)
    (hpaused : child ∈ state.pausedChildren) :
    matchesPhase sha256 state directive = true := by
  unfold matchesPhase
  rw [hphase, hrecorded]
  simp only [OrchestratorPhase.isActive, matchesResume, hrevision, hkind,
    hchild, hpayload, hactive, hpaused, Option.any_some, decide_true,
    Bool.and_self]

namespace Held

theorem publish (hnonzero : ∀ bytes, sha256 bytes ≠ zeroDigest)
    (hheld : Held sha256 reconciliation state)
    {id : OpaqueIdentifier} (hfresh : id ∉ state.usedCommands)
    (hcommands : state.usedCommands.length < u16Max)
    (hroom : state.counters.childDirectives <
      state.binding.limits.childDirectives)
    (hpending : state.pendingDirective = none)
    (hkind : state.phase.isPaused = true → directive.kind = .pauseChildren)
    (hresumes : state.phase.isActive = true →
      directive.kind = .resumeChildren)
    (hsource : directive.sourceEvent = id)
    (hvalid : directive.validate = .ok ())
    (hpublish : directive.canPublish = true)
    (hmatches : matchesPhase sha256 state directive = true) :
    ∃ sequence event, event.kind = .directivePublished directive ∧
      Commits sha256 state event
        (commit sha256
          { state with
            counters := state.counters.bump .childDirectives
            pendingDirective := some directive.published } sequence id) := by
  have hgate : state.phase.isActive = true →
      state.pausedReconciliation.isSome = true →
        resumesChildren (.publishDirective directive) = true :=
    fun hactive _ => decide_eq_true (hresumes hactive)
  have happly : apply sha256 state id (.publishDirective directive) =
      .ok ({ state with
          counters := state.counters.bump .childDirectives
          pendingDirective := some directive.published },
        .directivePublished directive) := by
    rw [apply_eq_dispatch hgate]
    exact publish_new hheld.valid.binding hheld.valid.counters hroom hpending
      hvalid hkind hsource hmatches hpublish
  have hcounters : (state.counters.bump .childDirectives).validate
      state.binding = .ok () :=
    validateCounters_bump hheld.valid.counters hroom
  have hpublished : validateOption PendingDirective.validate
      (some directive.published) = .ok () :=
    validate_published hvalid hpublish
  exact exists_commit hnonzero hheld.valid hheld.opened hheld.counted hfresh
    hcommands rfl happly
    ⟨rfl, rfl, rfl, rfl, rfl, rfl, rfl, rfl, rfl, rfl, rfl⟩
    (hheld.checked hcounters rfl hpublished hheld.opened
      hheld.valid.sortedPaused hheld.valid.paused_subset) rfl

theorem acknowledgePause (hnonzero : ∀ bytes, sha256 bytes ≠ zeroDigest)
    (hheld : Held sha256 reconciliation state)
    {id : OpaqueIdentifier} (hfresh : id ∉ state.usedCommands)
    (hcommands : state.usedCommands.length < u16Max)
    (hphase : state.phase = .paused phase)
    (hpending : state.pendingDirective = some directive)
    (hdelivered : directive.deliveryState ≠ .ready)
    (hkind : directive.kind = .pauseChildren)
    (hchild : childForDestination directive.destination = some child)
    (hactive : child ∈ state.activeChildren)
    (hrunning : child ∉ state.pausedChildren) :
    ∃ sequence event, event.kind = .directiveAcknowledged directive.id ∧
      Commits sha256 state event
        (commit sha256
          { state with
            pausedChildren := insertChild child state.pausedChildren
            pendingDirective := none } sequence id) := by
  have hgate : state.phase.isActive = true →
      state.pausedReconciliation.isSome = true →
        resumesChildren (.acknowledgeDirective directive.id) = true :=
    fun _ _ => rfl
  have hsettled : settleAcknowledged
      { state with pendingDirective := some directive.acknowledged }
      directive.acknowledged =
      .ok { state with
        pausedChildren := insertChild child state.pausedChildren
        pendingDirective := none } := by
    have hpaused : state.phase.isPaused = true := by
      rw [hphase]
      rfl
    have hdestination : childForDestination directive.acknowledged.destination =
        some child := hchild
    have hacknowledged : directive.acknowledged.kind = .pauseChildren := hkind
    have hgates : state.phase ≠ .active .gatesPending := by
      rw [hphase]
      exact fun h => by cases h
    have hkernel : state.phase ≠ .active .kernelAcceptancePending := by
      rw [hphase]
      exact fun h => by cases h
    unfold settleAcknowledged
    simp only [if_neg hgates, if_neg hkernel, hpaused, hacknowledged,
      and_self, if_true, hdestination, requireSome, hactive, hrunning,
      decide_true, not_false_eq_true, Bool.and_self, ensure_true, bind,
      Except.bind]
    rfl
  have happly : apply sha256 state id (.acknowledgeDirective directive.id) =
      .ok ({ state with
          pausedChildren := insertChild child state.pausedChildren
          pendingDirective := none }, .directiveAcknowledged directive.id) := by
    rw [apply_eq_dispatch hgate]
    exact acknowledge_eq hpending hdelivered hsettled
  have hsubset : insertChild child state.pausedChildren ⊆
      state.activeChildren := by
    intro other hother
    rcases mem_insertChild.mp hother with rfl | hother
    · exact hactive
    · exact hheld.valid.paused_subset hother
  exact exists_commit hnonzero hheld.valid hheld.opened hheld.counted hfresh
    hcommands rfl happly
    ⟨rfl, rfl, rfl, rfl, rfl, rfl, rfl, rfl, rfl, rfl, rfl⟩
    (hheld.checked hheld.valid.counters rfl rfl hheld.opened
      (sorted_insertChild hheld.valid.sortedPaused) hsubset) rfl

theorem acknowledgeResume (hnonzero : ∀ bytes, sha256 bytes ≠ zeroDigest)
    (hheld : Held sha256 reconciliation state)
    {id : OpaqueIdentifier} (hfresh : id ∉ state.usedCommands)
    (hcommands : state.usedCommands.length < u16Max)
    (hphase : state.phase = .active phase) (hgates : phase ≠ .gatesPending)
    (hkernel : phase ≠ .kernelAcceptancePending)
    (hpending : state.pendingDirective = some directive)
    (hdelivered : directive.deliveryState ≠ .ready)
    (hkind : directive.kind = .resumeChildren)
    (hchild : childForDestination directive.destination = some child)
    (hpaused : child ∈ state.pausedChildren) :
    ∃ sequence event, event.kind = .directiveAcknowledged directive.id ∧
      Commits sha256 state event
        (commit sha256
          { state with
            pausedChildren := state.pausedChildren.erase child
            pendingDirective := none
            pausedReconciliation :=
              if (state.pausedChildren.erase child).isEmpty then none
              else state.pausedReconciliation } sequence id) := by
  have hactive := hheld.valid.paused_subset hpaused
  have hgate : state.phase.isActive = true →
      state.pausedReconciliation.isSome = true →
        resumesChildren (.acknowledgeDirective directive.id) = true :=
    fun _ _ => rfl
  have hremoved : removeChild child state.pausedChildren =
      some (state.pausedChildren.erase child) :=
    removeChild_eq hheld.valid.sortedPaused hpaused
  have hsettled : settleAcknowledged
      { state with pendingDirective := some directive.acknowledged }
      directive.acknowledged =
      .ok { state with
        pausedChildren := state.pausedChildren.erase child
        pendingDirective := none
        pausedReconciliation :=
          if (state.pausedChildren.erase child).isEmpty then none
          else state.pausedReconciliation } := by
    have hopen : state.phase.isActive = true := by
      rw [hphase]
      rfl
    have hunpaused : ¬ (state.phase.isPaused = true ∧
        DirectiveKind.resumeChildren = .pauseChildren) :=
      fun h => by cases h.2
    have hrecorded : state.pausedReconciliation.isSome = true := by
      rw [hheld.recorded]
      rfl
    have hdestination : childForDestination directive.acknowledged.destination =
        some child := hchild
    have hacknowledged : directive.acknowledged.kind = .resumeChildren := hkind
    have hnotGates : state.phase ≠ .active .gatesPending := by
      rw [hphase]
      exact fun h => hgates (OrchestratorPhase.active.inj h)
    have hnotKernel : state.phase ≠ .active .kernelAcceptancePending := by
      rw [hphase]
      exact fun h => hkernel (OrchestratorPhase.active.inj h)
    unfold settleAcknowledged
    simp only [if_neg hnotGates, if_neg hnotKernel, hacknowledged,
      if_neg hunpaused, hopen, hrecorded, and_self, if_true, hdestination,
      requireSome, hactive, hremoved, decide_true, ensure_true, bind,
      Except.bind]
  have happly : apply sha256 state id (.acknowledgeDirective directive.id) =
      .ok ({ state with
          pausedChildren := state.pausedChildren.erase child
          pendingDirective := none
          pausedReconciliation :=
            if (state.pausedChildren.erase child).isEmpty then none
            else state.pausedReconciliation },
        .directiveAcknowledged directive.id) := by
    rw [apply_eq_dispatch hgate]
    exact acknowledge_eq hpending hdelivered hsettled
  have hsubset : state.pausedChildren.erase child ⊆ state.activeChildren :=
    fun _ h => hheld.valid.paused_subset (List.mem_of_mem_erase h)
  exact exists_commit hnonzero hheld.valid hheld.opened hheld.counted hfresh
    hcommands rfl happly
    ⟨rfl, rfl, rfl, rfl, rfl, rfl, rfl, rfl, rfl, rfl, rfl⟩
    (hheld.checked hheld.valid.counters rfl rfl hheld.opened
      (hheld.valid.sortedPaused.sublist List.erase_sublist) hsubset) rfl

/-- A run whose children are all paused is resumed. -/
theorem resume (hnonzero : ∀ bytes, sha256 bytes ≠ zeroDigest)
    (hheld : Held sha256 reconciliation state)
    (hcommands : state.usedCommands.length < u16Max)
    (hphase : state.phase = .paused phase)
    (hpaused : state.pausedChildren = state.activeChildren) :
    ∃ sequence id event,
      event.kind = .resumed (.active phase) reconciliation ∧
      Commits sha256 state event
        (commit sha256 { state with phase := .active phase } sequence id) := by
  obtain ⟨id, hfresh⟩ := exists_fresh (Nat.le_of_lt hcommands)
  have hgate : state.phase.isActive = true →
      state.pausedReconciliation.isSome = true →
        resumesChildren (.resume reconciliation) = true := by
    rw [hphase]
    exact fun h => by cases h
  have hresumed : Reducer.resume state reconciliation =
      .ok ({ state with phase := .active phase },
        .resumed (.active phase) reconciliation) := by
    have hrecorded : decide (state.pausedReconciliation =
        some reconciliation) = true := decide_eq_true hheld.recorded
    have hall : decide (state.pausedChildren = state.activeChildren) = true :=
      decide_eq_true hpaused
    unfold Reducer.resume
    rw [hrecorded, hall]
    split
    · rename_i found hfound
      rw [hphase] at hfound
      cases hfound
      rfl
    · rename_i hnone
      exact absurd hphase (hnone phase)
  have happly : apply sha256 state id (.resume reconciliation) =
      .ok ({ state with phase := .active phase },
        .resumed (.active phase) reconciliation) := by
    rw [apply_eq_dispatch hgate]
    exact hresumed
  have hopened : OrchestratorPhase.active phase ≠ .terminal :=
    fun h => by cases h
  obtain ⟨sequence, event, hevent, hcommits⟩ := exists_commit hnonzero
    hheld.valid hheld.opened hheld.counted hfresh hcommands rfl happly
    ⟨rfl, rfl, rfl, rfl, rfl, rfl, rfl, rfl, rfl, rfl, rfl⟩
    (hheld.checked hheld.valid.counters rfl hheld.valid.pending hopened
      hheld.valid.sortedPaused hheld.valid.paused_subset) rfl
  exact ⟨sequence, id, event, hevent, hcommits⟩

end Held

/-! ### One child -/

/-- The events that carry a pause out. -/
def Pauses : OrchestratorEventKind → Prop
  | .directivePublished directive => directive.kind = .pauseChildren
  | .directiveAcknowledged _ => True
  | _ => False

def Resumes : OrchestratorEventKind → Prop
  | .directivePublished directive => directive.kind = .resumeChildren
  | .directiveAcknowledged _ => True
  | _ => False

/-- What so many directives, each published and acknowledged, leave. -/
structure Moved (state : OrchestratorState) (count : Nat)
    (after : OrchestratorState) : Prop where
  phase : after.phase = state.phase
  pending : after.pendingDirective = none
  untouched : untouched after = untouched state
  directives : after.counters.childDirectives =
    state.counters.childDirectives + count
  commands : after.usedCommands.length = state.usedCommands.length + 2 * count

theorem Moved.trans {middle after : OrchestratorState} {first second : Nat}
    (hfirst : Moved state first middle) (hsecond : Moved middle second after) :
    Moved state (second + first) after where
  phase := hsecond.phase.trans hfirst.phase
  pending := hsecond.pending
  untouched := hsecond.untouched.trans hfirst.untouched
  directives := by
    rw [hsecond.directives, hfirst.directives]
    omega
  commands := by
    rw [hsecond.commands, hfirst.commands]
    omega

theorem length_commands (state : OrchestratorState) (first second : CommandId) :
    ((state.usedCommands ++ [first]) ++ [second]).length =
      state.usedCommands.length + 2 * 1 := by
  simp only [List.length_append, List.length_singleton]

theorem pause_child (hnonzero : ∀ bytes, sha256 bytes ≠ zeroDigest)
    (hheld : Held sha256 reconciliation state)
    (hphase : state.phase = .paused phase)
    (hpending : state.pendingDirective = none)
    (hactive : child ∈ state.activeChildren)
    (hrunning : child ∉ state.pausedChildren)
    (hroom : state.counters.childDirectives <
      state.binding.limits.childDirectives)
    (hcommands : state.usedCommands.length + 2 ≤ u16Max) :
    ∃ events after, Run (Commits sha256) state events after ∧
      (∀ event ∈ events, Pauses event.kind) ∧
      Held sha256 reconciliation after ∧ Moved state 1 after ∧
      after.pausedChildren = insertChild child state.pausedChildren := by
  have hlength : state.usedCommands.length < u16Max := by omega
  obtain ⟨id, hfresh⟩ := exists_fresh (Nat.le_of_lt hlength)
  obtain ⟨directive, hkind, hchild, hrevision, hsource, hvalid, hpublish,
    hpayload⟩ := exists_directive hnonzero reconciliation state child id
      (.inl rfl)
  have hmatches : matchesPhase sha256 state directive = true :=
    matchesPhase_of_paused hphase hheld.recorded hkind hchild hrevision
      hpayload hactive hrunning
  have hnotActive : state.phase.isActive = true →
      directive.kind = .resumeChildren := by
    rw [hphase]
    exact fun h => by cases h
  obtain ⟨sequence, first, hfirst, hpublishes⟩ := hheld.publish hnonzero hfresh
    hlength hroom hpending (fun _ => hkind) hnotActive hsource hvalid hpublish
    hmatches
  let published := commit sha256
    { state with
      counters := state.counters.bump .childDirectives
      pendingDirective := some directive.published } sequence id
  have hpublished : Held sha256 reconciliation published :=
    hheld.commits hpublishes hheld.recorded hheld.working
  have hdelivered : directive.published.deliveryState ≠ .ready :=
    fun h => by cases h
  have hused : published.usedCommands.length < u16Max := by
    change (state.usedCommands ++ [id]).length < u16Max
    rw [List.length_append, List.length_singleton]
    omega
  obtain ⟨other, hother⟩ := exists_fresh (Nat.le_of_lt hused)
  have hslot : published.pendingDirective = some directive.published := rfl
  obtain ⟨following, second, hsecond, hacknowledges⟩ :=
    hpublished.acknowledgePause hnonzero hother hused hphase hslot
      hdelivered hkind hchild hactive hrunning
  let after := commit sha256
    { published with
      pausedChildren := insertChild child published.pausedChildren
      pendingDirective := none } following other
  have hafter : Held sha256 reconciliation after :=
    hpublished.commits hacknowledges hpublished.recorded hpublished.working
  refine ⟨[first, second], after, .cons hpublishes
    (.cons hacknowledges (.nil _)), ?_, hafter,
    ⟨rfl, rfl, rfl, rfl, length_commands state id other⟩, rfl⟩
  intro event hmem
  rcases List.mem_cons.mp hmem with rfl | hmem
  · rw [hfirst]
    exact hkind
  · rw [List.mem_singleton.mp hmem, hsecond]
    trivial

/-- By induction on the children that are still running. -/
theorem pause_all (hnonzero : ∀ bytes, sha256 bytes ≠ zeroDigest)
    {order : List ChildAggregateKind} (hheld : Held sha256 reconciliation state)
    (hphase : state.phase = .paused phase)
    (hpending : state.pendingDirective = none) (hnodup : order.Nodup)
    (hrunning : ∀ child, child ∈ order ↔
      child ∈ state.activeChildren ∧ child ∉ state.pausedChildren)
    (hroom : state.counters.childDirectives + order.length ≤
      state.binding.limits.childDirectives)
    (hcommands : state.usedCommands.length + 2 * order.length ≤ u16Max) :
    ∃ events after, Run (Commits sha256) state events after ∧
      (∀ event ∈ events, Pauses event.kind) ∧
      Held sha256 reconciliation after ∧ Moved state order.length after ∧
      after.pausedChildren = after.activeChildren := by
  induction order generalizing state with
  | nil =>
      refine ⟨[], state, .nil _, fun _ h => absurd h List.not_mem_nil, hheld,
        ⟨rfl, hpending, rfl, rfl, rfl⟩, ?_⟩
      refine hheld.valid.sortedPaused.ext hheld.valid.sortedActive fun child =>
        ⟨fun h => hheld.valid.paused_subset h, fun hactive => ?_⟩
      by_contra hnot
      exact absurd ((hrunning child).mpr ⟨hactive, hnot⟩) List.not_mem_nil
  | cons child rest ih =>
      obtain ⟨hactive, hnot⟩ := (hrunning child).mp List.mem_cons_self
      rw [List.length_cons] at hroom hcommands
      obtain ⟨events, middle, hrun, hevents, hmiddle, hmoved, hpaused⟩ :=
        pause_child hnonzero hheld hphase hpending hactive hnot (by omega)
          (by omega)
      obtain ⟨hfresh, hrest⟩ := List.nodup_cons.mp hnodup
      have hsame := activeChildren_of_untouched hmoved.untouched
      have hbinding := binding_of_untouched hmoved.untouched
      have hremaining : ∀ other, other ∈ rest ↔
          other ∈ middle.activeChildren ∧ other ∉ middle.pausedChildren := by
        intro other
        rw [hsame, hpaused, mem_insertChild, not_or]
        constructor
        · intro hmem
          obtain ⟨hother, hunpaused⟩ :=
            (hrunning other).mp (List.mem_cons_of_mem _ hmem)
          exact ⟨hother, fun h => hfresh (h ▸ hmem), hunpaused⟩
        · rintro ⟨hother, hne, hunpaused⟩
          have hmem := (hrunning other).mpr ⟨hother, hunpaused⟩
          exact (List.mem_cons.mp hmem).resolve_left hne
      have hspace : middle.counters.childDirectives + rest.length ≤
          middle.binding.limits.childDirectives := by
        rw [hmoved.directives, hbinding]
        omega
      have hhistory : middle.usedCommands.length + 2 * rest.length ≤ u16Max := by
        rw [hmoved.commands]
        omega
      obtain ⟨later, after, hlater, hkinds, hafter, hmore, hall⟩ :=
        ih hmiddle (hmoved.phase.trans hphase) hmoved.pending hrest hremaining
          hspace hhistory
      refine ⟨events ++ later, after, hrun.append hlater, ?_, hafter,
        hmoved.trans hmore, hall⟩
      intro event hmem
      rcases List.mem_append.mp hmem with h | h
      · exact hevents event h
      · exact hkinds event h

theorem resume_child (hnonzero : ∀ bytes, sha256 bytes ≠ zeroDigest)
    (hheld : Held sha256 reconciliation state)
    (hphase : state.phase = .active phase) (hgates : phase ≠ .gatesPending)
    (hkernel : phase ≠ .kernelAcceptancePending)
    (hpending : state.pendingDirective = none)
    (hpaused : child ∈ state.pausedChildren)
    (hroom : state.counters.childDirectives <
      state.binding.limits.childDirectives)
    (hcommands : state.usedCommands.length + 2 ≤ u16Max) :
    ∃ events after, Run (Commits sha256) state events after ∧
      (∀ event ∈ events, Resumes event.kind) ∧ Moved state 1 after ∧
      after.pausedChildren = state.pausedChildren.erase child ∧
      (after.pausedChildren = [] → after.pausedReconciliation = none) ∧
      (after.pausedChildren ≠ [] → Held sha256 reconciliation after) := by
  have hlength : state.usedCommands.length < u16Max := by omega
  have hactive := hheld.valid.paused_subset hpaused
  obtain ⟨id, hfresh⟩ := exists_fresh (Nat.le_of_lt hlength)
  obtain ⟨directive, hkind, hchild, hrevision, hsource, hvalid, hpublish,
    hpayload⟩ := exists_directive hnonzero reconciliation state child id
      (.inr rfl)
  have hmatches : matchesPhase sha256 state directive = true :=
    matchesPhase_of_resuming hphase hheld.recorded hkind hchild hrevision
      hpayload hactive hpaused
  have hnotPaused : state.phase.isPaused = true →
      directive.kind = .pauseChildren := by
    rw [hphase]
    exact fun h => by cases h
  obtain ⟨sequence, first, hfirst, hpublishes⟩ := hheld.publish hnonzero hfresh
    hlength hroom hpending hnotPaused (fun _ => hkind) hsource hvalid hpublish
    hmatches
  let published := commit sha256
    { state with
      counters := state.counters.bump .childDirectives
      pendingDirective := some directive.published } sequence id
  have hpublished : Held sha256 reconciliation published :=
    hheld.commits hpublishes hheld.recorded hheld.working
  have hdelivered : directive.published.deliveryState ≠ .ready :=
    fun h => by cases h
  have hused : published.usedCommands.length < u16Max := by
    change (state.usedCommands ++ [id]).length < u16Max
    rw [List.length_append, List.length_singleton]
    omega
  obtain ⟨other, hother⟩ := exists_fresh (Nat.le_of_lt hused)
  have hslot : published.pendingDirective = some directive.published := rfl
  obtain ⟨following, second, hsecond, hacknowledges⟩ :=
    hpublished.acknowledgeResume hnonzero hother hused hphase hgates hkernel
      hslot hdelivered hkind hchild hpaused
  let after := commit sha256
    { published with
      pausedChildren := published.pausedChildren.erase child
      pendingDirective := none
      pausedReconciliation :=
        if (published.pausedChildren.erase child).isEmpty then none
        else published.pausedReconciliation } following other
  refine ⟨[first, second], after, .cons hpublishes
    (.cons hacknowledges (.nil _)), ?_,
    ⟨rfl, rfl, rfl, rfl, length_commands state id other⟩, rfl, ?_, ?_⟩
  · intro event hmem
    rcases List.mem_cons.mp hmem with rfl | hmem
    · rw [hfirst]
      exact hkind
    · rw [List.mem_singleton.mp hmem, hsecond]
      trivial
  · intro hnil
    exact if_pos (List.isEmpty_iff.mpr hnil)
  · intro hleft
    have hrecorded : after.pausedReconciliation = some reconciliation := by
      have hnonempty : ¬ (published.pausedChildren.erase child).isEmpty = true :=
        fun h => hleft (List.isEmpty_iff.mp h)
      exact (if_neg hnonempty).trans hpublished.recorded
    exact hpublished.commits hacknowledges hrecorded hpublished.working

/-- By induction on the children that are still paused: the last of them
clears the record of the pause. -/
theorem resume_all (hnonzero : ∀ bytes, sha256 bytes ≠ zeroDigest)
    {rest : List ChildAggregateKind} (hheld : Held sha256 reconciliation state)
    (hphase : state.phase = .active phase) (hgates : phase ≠ .gatesPending)
    (hkernel : phase ≠ .kernelAcceptancePending)
    (hpending : state.pendingDirective = none)
    (hpaused : state.pausedChildren = child :: rest)
    (hroom : state.counters.childDirectives + (rest.length + 1) ≤
      state.binding.limits.childDirectives)
    (hcommands : state.usedCommands.length + 2 * (rest.length + 1) ≤ u16Max) :
    ∃ events after, Run (Commits sha256) state events after ∧
      (∀ event ∈ events, Resumes event.kind) ∧
      Moved state (rest.length + 1) after ∧
      after.pausedReconciliation = none ∧ after.pausedChildren = [] := by
  induction rest generalizing state child with
  | nil =>
      have hmem : child ∈ state.pausedChildren := by
        rw [hpaused]
        exact List.mem_cons_self
      obtain ⟨events, after, hrun, hevents, hmoved, herased, hcleared, _⟩ :=
        resume_child hnonzero hheld hphase hgates hkernel hpending hmem
          (by omega) (by omega)
      rw [hpaused, List.erase_cons_head] at herased
      exact ⟨events, after, hrun, hevents, hmoved, hcleared herased, herased⟩
  | cons following others ih =>
      have hmem : child ∈ state.pausedChildren := by
        rw [hpaused]
        exact List.mem_cons_self
      obtain ⟨events, middle, hrun, hevents, hmoved, herased, _, hleft⟩ :=
        resume_child hnonzero hheld hphase hgates hkernel hpending hmem
          (by omega) (by omega)
      rw [hpaused, List.erase_cons_head] at herased
      have hbinding := binding_of_untouched hmoved.untouched
      rw [List.length_cons] at hroom hcommands
      have hspace : middle.counters.childDirectives + (others.length + 1) ≤
          middle.binding.limits.childDirectives := by
        rw [hmoved.directives, hbinding]
        omega
      have hhistory : middle.usedCommands.length + 2 * (others.length + 1) ≤
          u16Max := by
        rw [hmoved.commands]
        omega
      have hmiddle : Held sha256 reconciliation middle := by
        refine hleft ?_
        rw [herased]
        exact List.cons_ne_nil _ _
      obtain ⟨later, after, hlater, hkinds, hmore, hreconciled, hnone⟩ :=
        ih hmiddle (hmoved.phase.trans hphase) hmoved.pending herased hspace
          hhistory
      refine ⟨events ++ later, after, hrun.append hlater, ?_,
        hmoved.trans hmore, hreconciled, hnone⟩
      intro event hmem
      rcases List.mem_append.mp hmem with h | h
      · exact hevents event h
      · exact hkinds event h

end Peritus.Orchestrator.Resumption
