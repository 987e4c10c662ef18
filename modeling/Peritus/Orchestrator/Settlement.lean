import Peritus.Orchestrator.Progress

/-!
Settlement: from a cancelling state every child can be settled, one after
another, and the run then concludes, unless a child is still recorded as paused.
-/

namespace Peritus.Orchestrator.Settlement

open Peritus.Types Checked SortedTable TransitionSystem Material Child Directive State
open Validation Command Reducer Edits Handlers Invariant Checkpoint Progress
open Scheduler.State (zeroDigest)
open Collaboration.Task (u16Max)

/-- A run between two commands, while it is being settled. -/
structure Settling (sha256 : List UInt8 → Sha256Digest)
    (state : OrchestratorState) : Prop where
  kept : Kept state
  valid : Valid sha256 state
  counted : Counted state
  cancelling : state.phase = .cancelling

/-- Room in the counters and the history for so many settlements, each of three
commands, and for the command that finalizes them. -/
structure Room (state : OrchestratorState) (settlements : Nat) : Prop where
  directives : state.counters.childDirectives + settlements ≤
    state.binding.limits.childDirectives
  observations : state.counters.retainedObservations + settlements ≤
    state.binding.limits.retainedObservations
  reconciliations : state.counters.cancellationReconciliations + settlements ≤
    state.binding.limits.cancellationReconciliations
  commands : state.usedCommands.length + (3 * settlements + 1) ≤ u16Max

instance (state : OrchestratorState) (settlements : Nat) :
    Decidable (Room state settlements) :=
  decidable_of_iff
    ((state.counters.childDirectives + settlements ≤
        state.binding.limits.childDirectives ∧
      state.counters.retainedObservations + settlements ≤
        state.binding.limits.retainedObservations) ∧
      state.counters.cancellationReconciliations + settlements ≤
        state.binding.limits.cancellationReconciliations ∧
      state.usedCommands.length + (3 * settlements + 1) ≤ u16Max)
    ⟨fun ⟨⟨h₁, h₂⟩, h₃, h₄⟩ => ⟨h₁, h₂, h₃, h₄⟩,
      fun ⟨h₁, h₂, h₃, h₄⟩ => ⟨⟨h₁, h₂⟩, h₃, h₄⟩⟩

variable {sha256 : List UInt8 → Sha256Digest}
  {state next : OrchestratorState} {event : OrchestratorEvent}
  {directive : PendingDirective} {child : ChildAggregateKind}

theorem Settling.commits (hsettling : Settling sha256 state)
    (hcommits : Commits sha256 state event next)
    (hphase : next.phase = .cancelling) : Settling sha256 next :=
  ⟨kept_of_commits hsettling.kept hcommits, valid_of_commits hcommits,
    counted_of_commits hsettling.counted hcommits, hphase⟩

theorem Settling.opened (hsettling : Settling sha256 state) :
    state.phase ≠ .terminal := by
  rw [hsettling.cancelling]
  decide

theorem Settling.apply_eq (hsettling : Settling sha256 state)
    {kind : OrchestratorCommandKind} {id : OpaqueIdentifier} :
    apply sha256 state id kind = dispatch sha256 state id kind := by
  refine apply_eq_dispatch fun hactive => ?_
  rw [hsettling.cancelling] at hactive
  cases hactive

theorem Settling.truth (hsettling : Settling sha256 state)
    (hphase : next.phase = .cancelling)
    (hterminal : next.terminal = state.terminal)
    (hpending : next.pendingTerminal = state.pendingTerminal)
    (hcandidate : next.currentCandidate = state.currentCandidate) :
    terminalTruth next = true := by
  have hvalid := hsettling.valid
  refine terminalTruth_of_open (by rw [hphase]; decide) ?_ ?_
  · rw [hterminal]
    exact hvalid.terminal_eq_none hsettling.opened
  · intro terminal hsome
    rw [hpending] at hsome
    rw [hcandidate]
    exact ⟨hphase, hvalid.pendingTerminal_revision hsome⟩

/-! ### One child -/

theorem Settling.exists_commit (hnonzero : ∀ bytes, sha256 bytes ≠ zeroDigest)
    (hsettling : Settling sha256 state) {applied : OrchestratorState}
    {kind : OrchestratorCommandKind} {found : OrchestratorEventKind}
    {id : OpaqueIdentifier} (hfresh : id ∉ state.usedCommands)
    (hcommands : state.usedCommands.length < u16Max)
    (hkind : kind.isStart = false)
    (hdispatch : dispatch sha256 state id kind = .ok (applied, found))
    (hsame : SameMaterial state applied)
    (hchecked : Checked sha256 state applied)
    (hused : applied.usedCommands = state.usedCommands) :
    ∃ sequence event, event.kind = found ∧
      Commits sha256 state event (commit sha256 applied sequence id) := by
  have happly : apply sha256 state id kind = .ok (applied, found) := by
    rw [hsettling.apply_eq]
    exact hdispatch
  exact Progress.exists_commit hnonzero hsettling.valid hsettling.opened
    hsettling.counted hfresh hcommands hkind happly hsame hchecked hused

/-- A directive that changes hands leaves the checkpoint valid. -/
theorem Settling.checked_pending (hsettling : Settling sha256 state)
    {counters : OrchestratorCounters}
    (hvalid : directive.validate = .ok ())
    (hcounters : counters.validate state.binding = .ok ())
    (hretained : counters.retainedObservations =
      state.counters.retainedObservations) :
    Checked sha256 state
      { state with counters, pendingDirective := some directive } where
  counters := hcounters
  retained := hsettling.valid.retained.trans hretained.symm
  proposed := .inl rfl
  openHandoff := .inl rfl
  observations _ h := .inl h
  pending := hvalid
  concluded := hsettling.valid.concluded
  concluding := hsettling.valid.concluding
  children := hsettling.valid.children
  truth := hsettling.truth hsettling.cancelling rfl rfl rfl

theorem exists_cancelDirective (hnonzero : ∀ bytes, sha256 bytes ≠ zeroDigest)
    (hsettling : Settling sha256 state) (hmem : child ∈ state.activeChildren)
    (id : OpaqueIdentifier) :
    ∃ directive : PendingDirective, directive.kind = .cancelChildren ∧
      childForDestination directive.destination = some child ∧
      directive.sourceEvent = id ∧ directive.validate = .ok () ∧
      directive.canPublish = true ∧
      matchesPhase sha256 state directive = true := by
  obtain ⟨cause, hsome, hcause⟩ := hsettling.kept.caused hsettling.cancelling
  have hpositive : ∀ found, DirectivePayloadBinding.cancellation cause =
      .cancellation found → nonzero found = true := by
    rintro found ⟨⟩
    exact hcause
  refine ⟨childDirective sha256 state id .cancelChildren child
    (.cancellation cause), rfl, childForDestination_destinationOf child, rfl,
    validate_childDirective hnonzero rfl hpositive, rfl, ?_⟩
  have hpayload : payloadMatches sha256
      (childDirective sha256 state id .cancelChildren child
        (.cancellation cause)) (.cancellation cause) = true :=
    payloadMatches_childDirective rfl hpositive
  have hdestination : (childDirective sha256 state id .cancelChildren child
      (.cancellation cause)).destination = destinationOf child := rfl
  unfold matchesPhase
  rw [hsettling.cancelling]
  change (decide (_ = _) && matchesWork sha256 state _ .cancelling) = true
  unfold matchesWork
  rw [hsome, Option.any_some, hpayload, hdestination,
    childForDestination_destinationOf]
  simp only [Bool.and_true, Bool.and_eq_true]
  exact ⟨decide_eq_true rfl, decide_eq_true rfl, decide_eq_true hmem⟩

/-- The three commands of a settlement. -/
def settlementEvents (directive : PendingDirective)
    (classification : CancellationChildClassification) :
    List OrchestratorEventKind :=
  [.directivePublished directive, .directiveAcknowledged directive.id,
    .cancellationReconciled (.cancellationClassification classification)]

theorem publish_step (hnonzero : ∀ bytes, sha256 bytes ≠ zeroDigest)
    (hsettling : Settling sha256 state)
    (hpending : state.pendingDirective = none)
    (hmem : child ∈ state.activeChildren)
    (hroom : state.counters.childDirectives <
      state.binding.limits.childDirectives)
    (hcommands : state.usedCommands.length < u16Max) :
    ∃ directive sequence id event, directive.kind = .cancelChildren ∧
      childForDestination directive.destination = some child ∧
      directive.validate = .ok () ∧ directive.canPublish = true ∧
      event.kind = .directivePublished directive ∧
      Commits sha256 state event
        (commit sha256
          { state with
            counters := state.counters.bump .childDirectives
            pendingDirective := some directive.published } sequence id) := by
  obtain ⟨id, hfresh⟩ := exists_fresh (Nat.le_of_lt hcommands)
  obtain ⟨directive, hkind, hchild, hsource, hvalid, hpublish, hmatches⟩ :=
    exists_cancelDirective hnonzero hsettling hmem id
  have hpaused : state.phase.isPaused = true →
      directive.kind = .pauseChildren := by
    rw [hsettling.cancelling]
    exact fun h => by cases h
  have hdispatch : dispatch sha256 state id (.publishDirective directive) =
      .ok ({ state with
          counters := state.counters.bump .childDirectives
          pendingDirective := some directive.published },
        .directivePublished directive) :=
    publish_new hsettling.valid.binding hsettling.valid.counters hroom hpending
      hvalid hpaused hsource hmatches hpublish
  have hcounters : (state.counters.bump .childDirectives).validate
      state.binding = .ok () :=
    validateCounters_bump hsettling.valid.counters hroom
  have hchecked := hsettling.checked_pending
    (validate_published hvalid hpublish) hcounters rfl
  obtain ⟨sequence, event, hevent, hcommits⟩ := hsettling.exists_commit
    hnonzero hfresh hcommands rfl hdispatch
    ⟨rfl, rfl, rfl, rfl, rfl, rfl, rfl, rfl, rfl, rfl, rfl⟩ hchecked rfl
  exact ⟨directive, sequence, id, event, hkind, hchild, hvalid, hpublish,
    hevent, hcommits⟩

theorem acknowledge_step (hnonzero : ∀ bytes, sha256 bytes ≠ zeroDigest)
    (hsettling : Settling sha256 state)
    (hpending : state.pendingDirective = some directive)
    (hdelivered : directive.deliveryState ≠ .ready)
    (hcommands : state.usedCommands.length < u16Max) :
    ∃ sequence id event, event.kind = .directiveAcknowledged directive.id ∧
      Commits sha256 state event
        (commit sha256
          { state with pendingDirective := some directive.acknowledged }
          sequence id) := by
  obtain ⟨id, hfresh⟩ := exists_fresh (Nat.le_of_lt hcommands)
  have hsettled : settleAcknowledged
      { state with pendingDirective := some directive.acknowledged }
      directive.acknowledged =
      .ok { state with pendingDirective := some directive.acknowledged } := by
    unfold settleAcknowledged
    dsimp only
    rw [hsettling.cancelling]
    rfl
  have hdispatch : dispatch sha256 state id
      (.acknowledgeDirective directive.id) =
      .ok ({ state with pendingDirective := some directive.acknowledged },
        .directiveAcknowledged directive.id) :=
    acknowledge_eq hpending hdelivered hsettled
  have hvalid := validateOption_eq_ok hsettling.valid.pending hpending
  have hchecked := hsettling.checked_pending
    (validate_acknowledged hvalid hdelivered) hsettling.valid.counters rfl
  obtain ⟨sequence, event, hevent, hcommits⟩ := hsettling.exists_commit
    hnonzero hfresh hcommands rfl hdispatch
    ⟨rfl, rfl, rfl, rfl, rfl, rfl, rfl, rfl, rfl, rfl, rfl⟩ hchecked rfl
  exact ⟨sequence, id, event, hevent, hcommits⟩

variable {classification : CancellationChildClassification}

variable (sha256) in
/-- The outcome that a classification leaves to be finalized. -/
def classified (state : OrchestratorState)
    (classification : CancellationChildClassification) :
    Option OrchestratorTerminal :=
  if classification.kind = .ambiguous ∧ state.pendingTerminal.isNone = true then
    some (terminalOf sha256 .childAmbiguous classification.evidenceDigest
      state.currentCandidate.revision)
  else state.pendingTerminal

theorem recordAmbiguity_eq (hphase : state.phase = .cancelling) :
    recordAmbiguity sha256 state (.cancellationClassification classification) =
      .ok { state with
        pendingTerminal := classified sha256 state classification } := by
  unfold recordAmbiguity classified
  dsimp only
  split
  · have hnew : OrchestratorTerminal.new sha256 .childAmbiguous
        classification.evidenceDigest state.currentCandidate.revision =
        .ok (terminalOf sha256 .childAmbiguous classification.evidenceDigest
          state.currentCandidate.revision) :=
      new_eq_ok_iff.mpr ⟨decide_eq_true classification.evidence, rfl⟩
    rw [hnew]
    change Except.ok { state with pendingTerminal := _, phase := .cancelling } = _
    rw [hphase]
  · rfl

/-- What one reconciliation leaves. -/
def reconciled (sha256 : List UInt8 → Sha256Digest) (state : OrchestratorState)
    (classification : CancellationChildClassification) : OrchestratorState :=
  { state with
    activeChildren := state.activeChildren.erase classification.aggregate
    counters := (state.counters.bump .cancellationReconciliations).bump
      .retainedObservations
    observations := state.observations ++
      [.cancellationClassification classification]
    pendingTerminal := classified sha256 state classification
    pendingDirective := none }

theorem reconcile_eq (hsettling : Settling sha256 state)
    (hpending : state.pendingDirective = some directive)
    (hkind : directive.kind = .cancelChildren)
    (hacknowledged : directive.deliveryState = .acknowledged)
    (hchild : childForDestination directive.destination =
      some classification.aggregate)
    (hmem : classification.aggregate ∈ state.activeChildren)
    (hrevision : classification.revision = state.currentCandidate.revision)
    (hreconciliations : state.counters.cancellationReconciliations <
      state.binding.limits.cancellationReconciliations)
    (hobservations : state.counters.retainedObservations <
      state.binding.limits.retainedObservations) :
    reconcile sha256 state (.cancellationClassification classification) =
      .ok (reconciled sha256 state classification,
        .cancellationReconciled
          (.cancellationClassification classification)) := by
  have hvalid := hsettling.valid
  have hdirective : ∀ error, requireSome state.pendingDirective error =
      .ok directive := by
    intro error
    rw [hpending]
    rfl
  have hphase : decide (state.phase = .cancelling) = true :=
    decide_eq_true hsettling.cancelling
  have hremoved : ∀ error, requireSome
      (removeChild classification.aggregate state.activeChildren) error =
      .ok (state.activeChildren.erase classification.aggregate) := by
    intro error
    rw [removeChild_eq hvalid.sortedActive hmem]
    rfl
  have hcounted : ({ state with
        activeChildren := state.activeChildren.erase classification.aggregate } :
      OrchestratorState).incrementCounter .cancellationReconciliations =
      .ok { state with
        activeChildren := state.activeChildren.erase classification.aggregate
        counters := state.counters.bump .cancellationReconciliations } :=
    incrementCounter_eq hvalid.binding hvalid.counters hreconciliations
  have hbumped : (state.counters.bump .cancellationReconciliations).validate
      state.binding = .ok () :=
    validateCounters_bump hvalid.counters hreconciliations
  have hobserved : ({ state with
        activeChildren := state.activeChildren.erase classification.aggregate
        counters := state.counters.bump .cancellationReconciliations } :
      OrchestratorState).incrementCounter .retainedObservations =
      .ok { state with
        activeChildren := state.activeChildren.erase classification.aggregate
        counters := (state.counters.bump .cancellationReconciliations).bump
          .retainedObservations } :=
    incrementCounter_eq hvalid.binding hbumped hobservations
  have hsettles : isSettlement state
      (.cancellationClassification classification) = true := by
    change (decide (_ = _) && nonzero _) = true
    rw [decide_eq_true hrevision]
    exact decide_eq_true classification.evidence
  have haggregate : (ChildObservation.cancellationClassification
      classification).aggregate = classification.aggregate := rfl
  unfold reconcile recordObservation
  simp only [hdirective, hphase, hkind, hacknowledged, hchild, hsettles,
    haggregate, hremoved, hcounted, hobserved, decide_true, Bool.and_self,
    ensure_true, bind, Except.bind]
  rw [recordAmbiguity_eq]
  · rfl
  · exact hsettling.cancelling

theorem validate_terminalOf {cause : TerminalCause} {digest : Sha256Digest}
    {revision : RevisionTuple} (hnonzero : nonzero digest = true) :
    (terminalOf sha256 cause digest revision).validate sha256 = .ok () := by
  unfold OrchestratorTerminal.validate terminalOf
  dsimp only
  rw [hnonzero]
  simp only [decide_true, Bool.and_self, ensure_true]

theorem Settling.classified_eq (hclassified : classified sha256 state
      classification = some (terminal : OrchestratorTerminal)) :
    state.pendingTerminal = some terminal ∨
      terminal = terminalOf sha256 .childAmbiguous
        classification.evidenceDigest state.currentCandidate.revision := by
  unfold classified at hclassified
  split at hclassified
  · exact .inr (Option.some.inj hclassified).symm
  · exact .inl hclassified

/-- The classification is of the candidate in progress. -/
theorem Settling.validateClassification (hsettling : Settling sha256 state)
    (hrevision : classification.revision = state.currentCandidate.revision) :
    validateObservation state (.cancellationClassification classification) =
      .ok () := by
  obtain ⟨hcandidate, hcycle⟩ := hsettling.valid.mem_histories
  have hcycles : ∃ found, state.qualityCycleHistory.find? (fun cycle =>
      decide (cycle.revision = classification.revision)) = some found := by
    refine Option.isSome_iff_exists.mp (List.find?_isSome.mpr
      ⟨_, hcycle, decide_eq_true ?_⟩)
    rw [hsettling.valid.cycleRevision, hrevision]
  have hcandidates : ∃ found, state.candidateHistory.find? (fun candidate =>
      decide (candidate.revision = classification.revision)) = some found :=
    Option.isSome_iff_exists.mp (List.find?_isSome.mpr
      ⟨_, hcandidate, decide_eq_true hrevision.symm⟩)
  obtain ⟨foundCycle, hfoundCycle⟩ := hcycles
  obtain ⟨foundCandidate, hfoundCandidate⟩ := hcandidates
  have hmatches : foundCycle.revision = classification.revision := by
    have h := List.find?_some hfoundCycle
    exact of_decide_eq_true h
  have hexact : observationExact state foundCycle foundCandidate
      (.cancellationClassification classification) = true := by
    change (decide (_ = _) && nonzero _) = true
    rw [decide_eq_true hmatches.symm]
    exact decide_eq_true classification.evidence
  unfold validateObservation
  simp only [show (ChildObservation.cancellationClassification
    classification).revision = classification.revision from rfl, hfoundCycle,
    hfoundCandidate]
  change ensure (observationExact _ _ _ _ && true) _ = _
  rw [hexact]
  rfl

/-- A reconciliation leaves the checkpoint valid if its child is not recorded
as paused. -/
theorem Settling.checked_reconciled (hsettling : Settling sha256 state)
    (hrunning : classification.aggregate ∉ state.pausedChildren)
    (hrevision : classification.revision = state.currentCandidate.revision)
    (hreconciliations : state.counters.cancellationReconciliations <
      state.binding.limits.cancellationReconciliations)
    (hobservations : state.counters.retainedObservations <
      state.binding.limits.retainedObservations) :
    Checked sha256 state (reconciled sha256 state classification) where
  counters :=
    validateCounters_bump
      (validateCounters_bump hsettling.valid.counters hreconciliations)
      hobservations
  retained := by
    have hretained := hsettling.valid.retained
    change (state.observations ++ [_]).length + state.activations.length =
      state.counters.retainedObservations + 1
    rw [List.length_append, List.length_singleton]
    omega
  proposed := .inl rfl
  openHandoff := .inl rfl
  observations := by
    intro observation hmem
    rcases List.mem_append.mp hmem with h | h
    · exact .inl h
    · rw [List.mem_singleton.mp h]
      exact .inr (hsettling.validateClassification hrevision)
  pending := rfl
  concluded := hsettling.valid.concluded
  concluding := by
    change validateOption _ (classified sha256 state classification) = _
    cases hsome : classified sha256 state classification with
    | none => rfl
    | some terminal =>
        rcases Settling.classified_eq hsome with h | rfl
        · exact validateOption_eq_ok hsettling.valid.concluding h
        · exact validate_terminalOf (decide_eq_true classification.evidence)
  children := by
    unfold canonicalChildren
    simp only [Bool.and_eq_true, List.all_eq_true, decide_eq_true_eq]
    refine ⟨⟨?_, ?_⟩, ?_⟩
    · exact ascending_iff.mpr
        (hsettling.valid.sortedActive.sublist List.erase_sublist)
    · exact ascending_iff.mpr hsettling.valid.sortedPaused
    · intro child hpaused
      have hne : child ≠ classification.aggregate := by
        rintro rfl
        exact hrunning hpaused
      exact (List.mem_erase_of_ne hne).mpr
        (hsettling.valid.paused_subset hpaused)
  truth := by
    refine terminalTruth_of_open hsettling.opened
      (hsettling.valid.terminal_eq_none hsettling.opened) ?_
    intro terminal hsome
    refine ⟨hsettling.cancelling, ?_⟩
    rcases Settling.classified_eq hsome with h | rfl
    · exact hsettling.valid.pendingTerminal_revision h
    · rfl

theorem reconcile_step (hnonzero : ∀ bytes, sha256 bytes ≠ zeroDigest)
    (hsettling : Settling sha256 state)
    (hpending : state.pendingDirective = some directive)
    (hkind : directive.kind = .cancelChildren)
    (hacknowledged : directive.deliveryState = .acknowledged)
    (hchild : childForDestination directive.destination =
      some classification.aggregate)
    (hmem : classification.aggregate ∈ state.activeChildren)
    (hrunning : classification.aggregate ∉ state.pausedChildren)
    (hrevision : classification.revision = state.currentCandidate.revision)
    (hreconciliations : state.counters.cancellationReconciliations <
      state.binding.limits.cancellationReconciliations)
    (hobservations : state.counters.retainedObservations <
      state.binding.limits.retainedObservations)
    (hcommands : state.usedCommands.length < u16Max) :
    ∃ sequence id event, event.kind = .cancellationReconciled
        (.cancellationClassification classification) ∧
      Commits sha256 state event
        (commit sha256 (reconciled sha256 state classification) sequence id) := by
  obtain ⟨id, hfresh⟩ := exists_fresh (Nat.le_of_lt hcommands)
  have hdispatch : dispatch sha256 state id (.reconcileCancellation
      (.cancellationClassification classification)) =
      .ok (reconciled sha256 state classification, .cancellationReconciled
        (.cancellationClassification classification)) :=
    reconcile_eq hsettling hpending hkind hacknowledged hchild hmem hrevision
      hreconciliations hobservations
  have hchecked := hsettling.checked_reconciled hrunning hrevision
    hreconciliations hobservations
  obtain ⟨sequence, event, hevent, hcommits⟩ := hsettling.exists_commit
    hnonzero hfresh hcommands rfl hdispatch
    ⟨rfl, rfl, rfl, rfl, rfl, rfl, rfl, rfl, rfl, rfl, rfl⟩ hchecked rfl
  exact ⟨sequence, id, event, hevent, hcommits⟩

/-- What a settlement leaves of the state it began in. -/
structure Settled (sha256 : List UInt8 → Sha256Digest)
    (state : OrchestratorState)
    (classification : CancellationChildClassification)
    (after : OrchestratorState) : Prop where
  settling : Settling sha256 after
  active : after.activeChildren =
    state.activeChildren.erase classification.aggregate
  paused : after.pausedChildren = state.pausedChildren
  pending : after.pendingDirective = none
  candidate : after.currentCandidate = state.currentCandidate
  binding : after.binding = state.binding
  directives : after.counters.childDirectives ≤
    state.counters.childDirectives + 1
  observations : after.counters.retainedObservations =
    state.counters.retainedObservations + 1
  reconciliations : after.counters.cancellationReconciliations =
    state.counters.cancellationReconciliations + 1
  commands : after.usedCommands.length ≤ state.usedCommands.length + 3

theorem Settled.room {after : OrchestratorState} {settlements : Nat}
    (hsettled : Settled sha256 state classification after)
    (hroom : Room state (settlements + 1)) : Room after settlements := by
  obtain ⟨hdirectives, hobservations, hreconciliations, hcommands⟩ := hroom
  have hpublished := hsettled.directives
  have hobserved := hsettled.observations
  have hreconciled := hsettled.reconciliations
  have hused := hsettled.commands
  constructor
  · rw [hsettled.binding]
    omega
  · rw [hsettled.binding]
    omega
  · rw [hsettled.binding]
    omega
  · omega

/-- Once published, the directive of a child that is not recorded as paused is
acknowledged and its child reconciled. -/
theorem finish_settlement (hnonzero : ∀ bytes, sha256 bytes ≠ zeroDigest)
    (hsettling : Settling sha256 state)
    (hpending : state.pendingDirective = some directive)
    (hkind : directive.kind = .cancelChildren)
    (hdelivered : directive.deliveryState ≠ .ready)
    (hchild : childForDestination directive.destination =
      some classification.aggregate)
    (hmem : classification.aggregate ∈ state.activeChildren)
    (hrunning : classification.aggregate ∉ state.pausedChildren)
    (hrevision : classification.revision = state.currentCandidate.revision)
    (hreconciliations : state.counters.cancellationReconciliations <
      state.binding.limits.cancellationReconciliations)
    (hobservations : state.counters.retainedObservations <
      state.binding.limits.retainedObservations)
    (hcommands : state.usedCommands.length + 2 ≤ u16Max) :
    ∃ events after, events.map OrchestratorEvent.kind =
        [.directiveAcknowledged directive.id, .cancellationReconciled
          (.cancellationClassification classification)] ∧
      Run (Commits sha256) state events after ∧
      Settled sha256 state classification after ∧
      after.counters.childDirectives = state.counters.childDirectives ∧
      after.usedCommands.length = state.usedCommands.length + 2 := by
  have hlength : state.usedCommands.length < u16Max := by omega
  obtain ⟨sequence, id, first, hfirst, hacknowledges⟩ :=
    acknowledge_step hnonzero hsettling hpending hdelivered hlength
  let middle := commit sha256
    { state with pendingDirective := some directive.acknowledged } sequence id
  have hmiddle : Settling sha256 middle :=
    hsettling.commits hacknowledges hsettling.cancelling
  have hused : middle.usedCommands.length < u16Max := by
    change (state.usedCommands ++ [id]).length < u16Max
    rw [List.length_append, List.length_singleton]
    omega
  have hmiddlePending : middle.pendingDirective =
      some directive.acknowledged := rfl
  obtain ⟨following, other, second, hsecond, hreconciles⟩ :=
    reconcile_step hnonzero hmiddle hmiddlePending hkind rfl hchild hmem
      hrunning hrevision hreconciliations hobservations hused
  let after := commit sha256 (reconciled sha256 middle classification)
    following other
  have hafter : Settling sha256 after :=
    hmiddle.commits hreconciles hmiddle.cancelling
  have hcount : after.usedCommands.length = state.usedCommands.length + 2 := by
    change ((state.usedCommands ++ [id]) ++ [other]).length = _
    simp only [List.length_append, List.length_singleton]
  refine ⟨[first, second], after, ?_, .cons hacknowledges
    (.cons hreconciles (.nil _)), ?_, rfl, hcount⟩
  · rw [List.map_cons, List.map_cons, List.map_nil, hfirst, hsecond]
  · exact ⟨hafter, rfl, rfl, rfl, rfl, rfl, Nat.le_succ _, rfl, rfl, by omega⟩

variable (sha256)

/-- A classification of the child at the revision in progress. -/
def Classifies (state : OrchestratorState) (child : ChildAggregateKind)
    (classification : CancellationChildClassification) : Prop :=
  classification.aggregate = child ∧
    classification.revision = state.currentCandidate.revision

/-- A run of the three commands that settle a child. -/
def SettlementRun (state : OrchestratorState)
    (classification : CancellationChildClassification)
    (after : OrchestratorState) : Prop :=
  ∃ directive events, directive.kind = .cancelChildren ∧
    childForDestination directive.destination =
      some classification.aggregate ∧
    events.map OrchestratorEvent.kind =
      settlementEvents directive classification ∧
    Run (Commits sha256) state events after

variable {sha256}

theorem settle_step (hnonzero : ∀ bytes, sha256 bytes ≠ zeroDigest)
    (hsettling : Settling sha256 state) (hroom : Room state 1)
    (hpending : state.pendingDirective = none)
    (hmem : child ∈ state.activeChildren)
    (hrunning : child ∉ state.pausedChildren)
    (hclassifies : Classifies state child classification) :
    ∃ after, SettlementRun sha256 state classification after ∧
      Settled sha256 state classification after := by
  obtain ⟨rfl, hrevision⟩ := hclassifies
  have hcommands := hroom.commands
  have hlength : state.usedCommands.length < u16Max := by omega
  obtain ⟨directive, sequence, id, first, hkind, hchild, hvalid, hpublish,
    hfirst, hpublishes⟩ :=
    publish_step hnonzero hsettling hpending hmem hroom.directives hlength
  let published := commit sha256
    { state with
      counters := state.counters.bump .childDirectives
      pendingDirective := some directive.published } sequence id
  have hpublished : Settling sha256 published :=
    hsettling.commits hpublishes hsettling.cancelling
  have hused : published.usedCommands.length = state.usedCommands.length + 1 := by
    change (state.usedCommands ++ [id]).length = _
    rw [List.length_append, List.length_singleton]
  have hdirective : published.pendingDirective = some directive.published := rfl
  obtain ⟨events, after, hevents, hrun, hsettled, hdirectives, hcount⟩ :=
    finish_settlement hnonzero hpublished hdirective hkind
      (by exact fun h => by cases h) hchild hmem hrunning hrevision
      hroom.reconciliations hroom.observations (by omega)
  refine ⟨after, ⟨directive, first :: events, hkind, hchild, ?_,
    .cons hpublishes hrun⟩, ?_⟩
  · rw [List.map_cons, hfirst, hevents]
    rfl
  · exact ⟨hsettled.settling, hsettled.active, hsettled.paused,
      hsettled.pending, hsettled.candidate, hsettled.binding,
      Nat.le_of_eq hdirectives, hsettled.observations,
      hsettled.reconciliations, by omega⟩

theorem republish_step (hnonzero : ∀ bytes, sha256 bytes ≠ zeroDigest)
    (hsettling : Settling sha256 state)
    (hpending : state.pendingDirective = some directive)
    (hpublish : directive.canPublish = true)
    (hcommands : state.usedCommands.length < u16Max) :
    ∃ sequence id event, event.kind = .directivePublished directive ∧
      Commits sha256 state event
        (commit sha256
          { state with pendingDirective := some directive.published }
          sequence id) := by
  obtain ⟨id, hfresh⟩ := exists_fresh (Nat.le_of_lt hcommands)
  have hvalid := validateOption_eq_ok hsettling.valid.pending hpending
  have hpaused : state.phase.isPaused = true →
      directive.kind = .pauseChildren := by
    rw [hsettling.cancelling]
    exact fun h => by cases h
  have hdispatch : dispatch sha256 state id (.publishDirective directive) =
      .ok ({ state with pendingDirective := some directive.published },
        .directivePublished directive) :=
    publish_pending hpending hvalid hpaused hpublish
  have hchecked := hsettling.checked_pending
    (validate_published hvalid hpublish) hsettling.valid.counters rfl
  obtain ⟨sequence, event, hevent, hcommits⟩ := hsettling.exists_commit
    hnonzero hfresh hcommands rfl hdispatch
    ⟨rfl, rfl, rfl, rfl, rfl, rfl, rfl, rfl, rfl, rfl, rfl⟩ hchecked rfl
  exact ⟨sequence, id, event, hevent, hcommits⟩

/-- A settlement that was begun before is resumed from its own directive. -/
theorem resettle_step (hnonzero : ∀ bytes, sha256 bytes ≠ zeroDigest)
    (hsettling : Settling sha256 state) (hroom : Room state 1)
    (hpending : state.pendingDirective = some directive)
    (hkind : directive.kind = .cancelChildren)
    (hpublish : directive.canPublish = true)
    (hchild : childForDestination directive.destination = some child)
    (hmem : child ∈ state.activeChildren)
    (hrunning : child ∉ state.pausedChildren)
    (hclassifies : Classifies state child classification) :
    ∃ after, SettlementRun sha256 state classification after ∧
      Settled sha256 state classification after := by
  obtain ⟨rfl, hrevision⟩ := hclassifies
  have hcommands := hroom.commands
  have hlength : state.usedCommands.length < u16Max := by omega
  obtain ⟨sequence, id, first, hfirst, hpublishes⟩ :=
    republish_step hnonzero hsettling hpending hpublish hlength
  let published := commit sha256
    { state with pendingDirective := some directive.published } sequence id
  have hpublished : Settling sha256 published :=
    hsettling.commits hpublishes hsettling.cancelling
  have hused : published.usedCommands.length = state.usedCommands.length + 1 := by
    change (state.usedCommands ++ [id]).length = _
    rw [List.length_append, List.length_singleton]
  have hdirective : published.pendingDirective = some directive.published := rfl
  obtain ⟨events, after, hevents, hrun, hsettled, hdirectives, hcount⟩ :=
    finish_settlement hnonzero hpublished hdirective hkind
      (by exact fun h => by cases h) hchild hmem hrunning hrevision
      hroom.reconciliations hroom.observations (by omega)
  refine ⟨after, ⟨directive, first :: events, hkind, hchild, ?_,
    .cons hpublishes hrun⟩, ?_⟩
  · rw [List.map_cons, hfirst, hevents]
    rfl
  · exact ⟨hsettled.settling, hsettled.active, hsettled.paused,
      hsettled.pending, hsettled.candidate, hsettled.binding,
      Nat.le_succ_of_le (Nat.le_of_eq hdirectives), hsettled.observations,
      hsettled.reconciliations, by omega⟩

/-! ### The conclusion -/

theorem terminalTruth_setTerminal {terminal : OrchestratorTerminal}
    (hrevision : terminal.revision = state.currentCandidate.revision)
    (hactive : state.activeChildren = [])
    (hunaccepted : terminal.kind ≠ .accepted)
    (hcaused : state.cancellationCause.isSome = true) :
    terminalTruth (state.setTerminal terminal) = true := by
  have hcause : decide (decide (terminal.kind = .cancelled) =
      (if terminal.kind = .cancelled then state.cancellationCause
        else none).isSome) = true := by
    split
    · rename_i hkind
      rw [hcaused, decide_eq_true hkind]
      rfl
    · rename_i hkind
      rw [decide_eq_false hkind]
      rfl
  unfold terminalTruth quiescentWith terminalIsTruthful
    acceptedCertificateTruth OrchestratorState.setTerminal
  dsimp only [Option.all_some, Option.all_none]
  rw [hcause]
  simp only [hrevision, hactive, hunaccepted, Option.isSome_some, decide_true,
    List.isEmpty_nil, Option.isNone_none, Bool.and_self, ne_eq,
    not_false_eq_true, Bool.true_or]

theorem Settling.checked_finalized (hsettling : Settling sha256 state)
    {terminal : OrchestratorTerminal}
    (hactive : state.activeChildren = [])
    (hvalid : terminal.validate sha256 = .ok ())
    (hrevision : terminal.revision = state.currentCandidate.revision)
    (hunaccepted : terminal.kind ≠ .accepted) :
    Checked sha256 state (state.setTerminal terminal) where
  counters := hsettling.valid.counters
  retained := hsettling.valid.retained
  proposed := .inr rfl
  openHandoff := .inr rfl
  observations _ h := .inl h
  pending := rfl
  concluded := hvalid
  concluding := rfl
  children := by
    unfold canonicalChildren OrchestratorState.setTerminal
    rw [hactive]
    rfl
  truth := by
    obtain ⟨cause, hsome, _⟩ := hsettling.kept.caused hsettling.cancelling
    exact terminalTruth_setTerminal hrevision hactive hunaccepted
      (by rw [hsome]; rfl)

/-- A run without children to settle is finalized. -/
theorem finalize_step (hnonzero : ∀ bytes, sha256 bytes ≠ zeroDigest)
    (hsettling : Settling sha256 state)
    (hactive : state.activeChildren = [])
    (hpending : state.pendingDirective = none)
    (hcommands : state.usedCommands.length < u16Max) :
    ∃ terminal event after, event.kind = .finalized terminal ∧
      Commits sha256 state event after ∧ after.phase = .terminal := by
  obtain ⟨id, hfresh⟩ := exists_fresh (Nat.le_of_lt hcommands)
  obtain ⟨cause, hcause, hpositive⟩ :=
    hsettling.kept.caused hsettling.cancelling
  have hguard : (decide (state.phase = .cancelling) &&
      state.activeChildren.isEmpty && state.pendingDirective.isNone) = true := by
    rw [hsettling.cancelling, hactive, hpending]
    rfl
  have hfinalizes : ∃ terminal,
      dispatch sha256 state id .finalize =
        .ok (state.setTerminal terminal, .finalized terminal) ∧
      terminal.validate sha256 = .ok () ∧
      terminal.revision = state.currentCandidate.revision ∧
      terminal.kind ≠ .accepted := by
    cases hterminal : state.pendingTerminal with
    | some terminal =>
        refine ⟨terminal, ?_,
          validateOption_eq_ok hsettling.valid.concluding hterminal,
          hsettling.valid.pendingTerminal_revision hterminal,
          hsettling.kept.unaccepted terminal hterminal⟩
        change finalize sha256 state = _
        unfold finalize
        rw [hguard, hterminal]
        rfl
    | none =>
        refine ⟨terminalOf sha256 .cancellationReconciled cause
          state.currentCandidate.revision, ?_, validate_terminalOf hpositive,
          rfl, by exact fun h => by cases h⟩
        change finalize sha256 state = _
        have hnew : OrchestratorTerminal.new sha256 .cancellationReconciled
            cause state.currentCandidate.revision =
            .ok (terminalOf sha256 .cancellationReconciled cause
              state.currentCandidate.revision) :=
          new_eq_ok_iff.mpr ⟨hpositive, rfl⟩
        unfold finalize
        rw [hguard]
        simp only [hterminal, ensure_true, bind, Except.bind]
        rw [hcause]
        simp only [requireSome, hnew]
  obtain ⟨terminal, hdispatch, hvalid, hrevision, hunaccepted⟩ := hfinalizes
  have hchecked := hsettling.checked_finalized hactive hvalid hrevision
    hunaccepted
  obtain ⟨sequence, event, hevent, hcommits⟩ := hsettling.exists_commit
    hnonzero hfresh hcommands rfl hdispatch
    ⟨rfl, rfl, rfl, rfl, rfl, rfl, rfl, rfl, rfl, rfl, rfl⟩ hchecked rfl
  exact ⟨terminal, event, _, hevent, hcommits, rfl⟩

end Peritus.Orchestrator.Settlement
