import Peritus.Orchestrator.Custody

/-!
Which commands a valid state accepts: an edit that leaves the material of a
run alone is committed as soon as what it changes is valid.
-/

namespace Peritus.Orchestrator.Progress

open Peritus.Types Checked SortedTable Material Child Directive State
open Validation Command Reducer Edits Handlers Invariant Checkpoint
open Scheduler.State (zeroDigest)
open Collaboration.Task (u16Max)

/-! ### The material of a run -/

/-- What pausing and settling leave alone. -/
structure SameMaterial (state next : OrchestratorState) : Prop where
  binding : next.binding = state.binding
  ownership : next.ownership = state.ownership
  candidate : next.currentCandidate = state.currentCandidate
  candidates : next.candidateHistory = state.candidateHistory
  cycle : next.currentQualityCycle = state.currentQualityCycle
  cycles : next.qualityCycleHistory = state.qualityCycleHistory
  handoffs : next.handoffs = state.handoffs
  activations : next.activations = state.activations
  certificate : next.acceptanceCertificate = state.acceptanceCertificate
  revisions : next.counters.revisions = state.counters.revisions
  handoffCount : next.counters.handoffs = state.counters.handoffs

variable {sha256 : List UInt8 → Sha256Digest}
  {state next : OrchestratorState} {event : OrchestratorEventKind}
  {kind : OrchestratorCommandKind} {eventId : EventId}

theorem validateActivation_of_same (hsame : SameMaterial state next)
    (activation : HandoffActivationObservation) :
    validateActivation next activation = validateActivation state activation := by
  unfold validateActivation
  rw [hsame.handoffs, hsame.cycles]

theorem validateObservation_of_same (hsame : SameMaterial state next)
    (observation : ChildObservation) :
    validateObservation next observation =
      validateObservation state observation := by
  have hexact : ∀ cycle candidate,
      observationExact next cycle candidate observation =
        observationExact state cycle candidate observation := by
    intro cycle candidate
    cases observation <;>
      simp only [observationExact, hsame.handoffs, hsame.binding,
        validateActivation_of_same hsame]
  unfold validateObservation
  rw [hsame.cycles, hsame.candidates]
  simp only [hexact]

/-- What is left to check of an edit that leaves the material alone. -/
structure Checked (sha256 : List UInt8 → Sha256Digest)
    (state next : OrchestratorState) : Prop where
  counters : next.counters.validate next.binding = .ok ()
  retained : next.observations.length + next.activations.length =
    next.counters.retainedObservations
  proposed : next.proposedCandidate = state.proposedCandidate ∨
    next.proposedCandidate = none
  openHandoff : next.openHandoff = state.openHandoff ∨ next.openHandoff = none
  observations : ∀ observation ∈ next.observations,
    observation ∈ state.observations ∨
      validateObservation state observation = .ok ()
  pending : validateOption PendingDirective.validate next.pendingDirective =
    .ok ()
  concluded : validateOption (OrchestratorTerminal.validate sha256)
    next.terminal = .ok ()
  concluding : validateOption (OrchestratorTerminal.validate sha256)
    next.pendingTerminal = .ok ()
  children : canonicalChildren next = true
  truth : terminalTruth next = true

theorem validateOption_of_eq {α : Type}
    {check : α → Except OrchestratorError Unit} {before after : Option α}
    (hvalid : validateOption check before = .ok ())
    (h : after = before ∨ after = none) : validateOption check after = .ok () := by
  rcases h with rfl | rfl
  · exact hvalid
  · rfl

theorem bounded_of_same (hsame : SameMaterial state next)
    (hchecked : Checked sha256 state next)
    (hcommands : next.usedCommands.length ≤ u16Max)
    (hbounded : boundedCollections state = .ok true) :
    boundedCollections next = .ok true := by
  unfold boundedCollections at hbounded ⊢
  rw [hsame.candidates, hsame.cycles]
  split at hbounded
  · cases hbounded
  · split at hbounded
    · cases hbounded
    · simp only [Except.ok.injEq, Bool.and_eq_true,
        decide_eq_true_eq] at hbounded ⊢
      obtain ⟨⟨⟨⟨⟨⟨⟨⟨hrevisions, hcycles⟩, hhandoffs⟩, hretained⟩, hactivations⟩,
        _⟩, hcandidate⟩, hcycle⟩, hzip⟩ := hbounded
      rw [hsame.revisions, hsame.handoffs, hsame.handoffCount,
        hsame.activations, hsame.binding, hsame.candidate, hsame.cycle]
      refine ⟨⟨⟨⟨⟨⟨⟨⟨hrevisions, hcycles⟩, hhandoffs⟩, ?_⟩, hactivations⟩,
        hcommands⟩, hcandidate⟩, hcycle⟩, hzip⟩
      rw [← hsame.activations]
      exact hchecked.retained

/-- The edit is valid once what it changes is. -/
theorem valid_of_same (hvalid : Valid sha256 state)
    (hsame : SameMaterial state next) (hchecked : Checked sha256 state next)
    (hcommands : next.usedCommands.length ≤ u16Max)
    (hdigest : nonzero next.stateDigest = true)
    (hsealed : next.stateDigest = Canonical.stateDigest sha256 next) :
    Valid sha256 next where
  binding := by rw [hsame.binding]; exact hvalid.binding
  ownership := by
    rw [hsame.ownership, hsame.binding]
    exact hvalid.ownership
  candidate := by
    rw [hsame.candidate, hsame.binding]
    exact hvalid.candidate
  cycle := by rw [hsame.cycle, hsame.candidate]; exact hvalid.cycle
  counters := hchecked.counters
  candidates := by
    rw [hsame.candidates, hsame.binding]
    exact hvalid.candidates
  cycles := by rw [hsame.candidates, hsame.cycles]; exact hvalid.cycles
  genesis := by
    have h := hvalid.genesis
    unfold validateGenesisCycle genesisCycleExact at h ⊢
    rw [hsame.cycles, hsame.binding]
    exact h
  proposed := by
    have h := hvalid.proposed
    have hcheck : validateProposed sha256 next = validateProposed sha256 state := by
      unfold validateProposed
      rw [hsame.binding, hsame.candidate]
    rw [hcheck]
    exact validateOption_of_eq h hchecked.proposed
  handoffs := by
    rw [hsame.handoffs, hsame.binding]
    exact hvalid.handoffs
  openHandoff := by
    rw [hsame.binding]
    exact validateOption_of_eq hvalid.openHandoff hchecked.openHandoff
  activations := by
    rw [hsame.activations, forEach_eq_ok_iff]
    intro activation hmem
    rw [validateActivation_of_same hsame]
    exact forEach_eq_ok_iff.mp hvalid.activations activation hmem
  observations := by
    rw [forEach_eq_ok_iff]
    intro observation hmem
    rw [validateObservation_of_same hsame]
    rcases hchecked.observations observation hmem with h | h
    · exact forEach_eq_ok_iff.mp hvalid.observations observation h
    · exact h
  pending := hchecked.pending
  certificate := by rw [hsame.certificate]; exact hvalid.certificate
  concluded := hchecked.concluded
  concluding := hchecked.concluding
  bounded := bounded_of_same hsame hchecked hcommands hvalid.bounded
  children := hchecked.children
  history := by
    have h := hvalid.history
    unfold historyValid uniqueMaterialHistory at h ⊢
    rw [hsame.candidates]
    exact h
  cycleHistory := by
    have h := hvalid.cycleHistory
    unfold uniqueCycleHistory at h ⊢
    rw [hsame.cycles]
    exact h
  truth := hchecked.truth
  digest := hdigest
  sealed := hsealed

variable (sha256) in
/-- The state that an edit is committed as. -/
def commit (state : OrchestratorState) (sequence : EventSequence)
    (id : OpaqueIdentifier) : OrchestratorState :=
  sealed sha256 (state.advanceCursor sequence id id)

/-- The same of the commit around an edit. -/
theorem valid_commit (hnonzero : ∀ bytes, sha256 bytes ≠ zeroDigest)
    (hvalid : Valid sha256 state) (hsame : SameMaterial state next)
    (hchecked : Checked sha256 state next)
    (hcommands : next.usedCommands.length < u16Max) (sequence : EventSequence)
    (id : OpaqueIdentifier) : Valid sha256 (commit sha256 next sequence id) := by
  refine valid_of_same hvalid
    ⟨hsame.binding, hsame.ownership, hsame.candidate, hsame.candidates,
      hsame.cycle, hsame.cycles, hsame.handoffs, hsame.activations,
      hsame.certificate, hsame.revisions, hsame.handoffCount⟩
    ⟨hchecked.counters, hchecked.retained, hchecked.proposed,
      hchecked.openHandoff, hchecked.observations, hchecked.pending,
      hchecked.concluded, hchecked.concluding, hchecked.children,
      hchecked.truth⟩ ?_ (decide_eq_true (hnonzero _)) rfl
  change (next.usedCommands ++ [id]).length ≤ u16Max
  rw [List.length_append, List.length_singleton]
  exact hcommands

/-! ### Terminal truth -/

theorem terminalTruth_of_open (hopened : state.phase ≠ .terminal)
    (hterminal : state.terminal = none)
    (hpending : ∀ terminal, state.pendingTerminal = some terminal →
      state.phase = .cancelling ∧
        terminal.revision = state.currentCandidate.revision) :
    terminalTruth state = true := by
  unfold terminalTruth terminalIsTruthful acceptedCertificateTruth
  rw [hterminal]
  simp only [Option.isSome_none, decide_true, Option.all_none, Bool.and_true,
    ne_eq, hopened, not_false_eq_true]
  cases hsome : state.pendingTerminal with
  | none => rfl
  | some terminal =>
      obtain ⟨hphase, hrevision⟩ := hpending terminal hsome
      rw [Option.all_some, decide_eq_true hphase, decide_eq_true hrevision]
      rfl

/-! ### Accepted commands -/

theorem validateFences_fenced {id : OpaqueIdentifier}
    (hopened : state.phase ≠ .terminal)
    (hroom : state.usedCommands.length ≤ u16Max)
    (hfresh : id ∉ state.usedCommands) (hkind : kind.isStart = false) :
    validateFences state (fenced state id kind) = .ok () := by
  unfold validateFences
  simp only [fenced, hopened, hroom, hfresh, hkind, ne_eq, not_false_eq_true,
    decide_true, Bool.not_false, Bool.and_true, ensure_true, bind, Except.bind]

/-- The history is as long as the run. -/
def Counted (state : OrchestratorState) : Prop :=
  state.sequence.get = state.usedCommands.length

theorem exists_sequence (hcounted : Counted state)
    (hroom : state.usedCommands.length ≤ u16Max) :
    ∃ sequence, checkedNextSequence state.sequence = .ok sequence := by
  have hbound : state.sequence.get + 1 ≤ u64Max := by
    rw [hcounted]
    exact Nat.le_trans (Nat.succ_le_succ hroom) (by decide)
  let following : EventSequence :=
    ⟨state.sequence.get + 1, Nat.succ_pos _, hbound⟩
  have hnext : state.sequence.checkedNext = .ok following :=
    PositiveNumber.checkedNext_eq_ok_iff.mpr rfl
  refine ⟨following, ?_⟩
  unfold checkedNextSequence
  rw [hnext]

/-- The event that a fenced command commits. -/
def eventOf (state next : OrchestratorState) (sequence : EventSequence)
    (id : OpaqueIdentifier) (kind : OrchestratorEventKind) :
    OrchestratorEvent where
  id := id
  commandId := id
  sequence := sequence
  previousEvent := some state.lastEventId
  runId := state.binding.runId
  revision := state.currentCandidate.revision
  priorStateDigest := state.stateDigest
  successorStateDigest := next.stateDigest
  kind := kind

/-- An edit that leaves a valid state is committed. -/
theorem commits_of_apply {applied : OrchestratorState} {id : OpaqueIdentifier}
    (hvalid : Valid sha256 state) (hopened : state.phase ≠ .terminal)
    (hcounted : Counted state) (hroom : state.usedCommands.length ≤ u16Max)
    (hfresh : id ∉ state.usedCommands) (hkind : kind.isStart = false)
    (happly : apply sha256 state id kind = .ok (applied, event))
    (hnext : ∀ sequence, Valid sha256 (commit sha256 applied sequence id)) :
    ∃ sequence committed, committed.kind = event ∧
      Commits sha256 state committed (commit sha256 applied sequence id) := by
  obtain ⟨sequence, hsequence⟩ := exists_sequence hcounted hroom
  have happlied : apply sha256 state (fenced state id kind).eventId
      (fenced state id kind).kind = .ok (applied, event) := happly
  have hsuccessor := validate_eq_ok_iff.mpr (hnext sequence)
  refine ⟨sequence, eventOf state (commit sha256 applied sequence id) sequence
    id event, rfl, fenced state id kind, ?_⟩
  unfold decideCommand
  rw [validate_eq_ok_iff.mpr hvalid,
    validateFences_fenced hopened hroom hfresh hkind, hsequence, happlied]
  change (validate sha256 (commit sha256 applied sequence id) >>= fun _ => _) = _
  rw [hsuccessor]
  rfl

/-- The same with the checks that an edit of the kind leaves to be made. -/
theorem exists_commit (hnonzero : ∀ bytes, sha256 bytes ≠ zeroDigest)
    (hvalid : Valid sha256 state) (hopened : state.phase ≠ .terminal)
    (hcounted : Counted state) {applied : OrchestratorState}
    {id : OpaqueIdentifier} (hfresh : id ∉ state.usedCommands)
    (hcommands : state.usedCommands.length < u16Max)
    (hkind : kind.isStart = false)
    (happly : apply sha256 state id kind = .ok (applied, event))
    (hsame : SameMaterial state applied)
    (hchecked : Checked sha256 state applied)
    (hused : applied.usedCommands = state.usedCommands) :
    ∃ sequence committed, committed.kind = event ∧
      Commits sha256 state committed (commit sha256 applied sequence id) := by
  have happlied : applied.usedCommands.length < u16Max := by
    rw [hused]
    exact hcommands
  have hnext : ∀ sequence, Valid sha256 (commit sha256 applied sequence id) :=
    fun sequence => valid_commit hnonzero hvalid hsame hchecked happlied
      sequence id
  exact commits_of_apply hvalid hopened hcounted (Nat.le_of_lt hcommands)
    hfresh hkind happly hnext

theorem history_of_edit (hedit : Edit sha256 state eventId kind event next) :
    next.usedCommands = state.usedCommands ∧ next.sequence = state.sequence := by
  cases hedit with
  | conclude hending _ hconcludes =>
      cases hending <;> cases hconcludes <;> exact ⟨rfl, rfl⟩
  | _ => exact ⟨rfl, rfl⟩

theorem counted_of_commits {committed : OrchestratorEvent}
    (hcounted : Counted state)
    (hcommits : Commits sha256 state committed next) : Counted next := by
  obtain ⟨command, hdecide⟩ := hcommits
  obtain ⟨applied, hcommitted⟩ := committed_of_decideCommand hdecide
  obtain ⟨hused, hsequence⟩ := history_of_edit hcommitted.edit
  obtain ⟨sequence, hnext, rfl⟩ := hcommitted.committed
  change sequence.get = (applied.usedCommands ++ [command.commandId]).length
  rw [List.length_append, List.length_singleton, hnext, hused, hcounted]

theorem counted_of_starts {first : OrchestratorEvent}
    (hstarts : Starts sha256 first state) : Counted state := by
  obtain ⟨_, _, _, _, _, _, rfl, hsequence⟩ := (begun_of_starts hstarts).genesis
  exact hsequence

/-- A bounded history leaves an identity for another command. -/
theorem exists_fresh {used : List CommandId} (hroom : used.length ≤ u16Max) :
    ∃ id, id ∉ used := by
  by_contra hall
  push Not at hall
  let name : Fin (u16Max + 1) → CommandId := fun i =>
    ⟨i.val + 1, Nat.succ_ne_zero _,
      Nat.lt_of_le_of_lt (Nat.succ_le_of_lt i.isLt) (by decide)⟩
  have hinj : Function.Injective name := by
    intro i j h
    have hvalue := congrArg OpaqueIdentifier.value h
    exact Fin.ext (Nat.succ.inj hvalue)
  have hnodup := (List.nodup_finRange (u16Max + 1)).map hinj
  have hlength := (hnodup.subperm fun id _ => hall id).length_le
  rw [List.length_map, List.length_finRange] at hlength
  exact absurd hroom (Nat.not_le_of_lt hlength)

/-! ### Sets of children -/

theorem removeChild_eq {child : ChildAggregateKind}
    {children : List ChildAggregateKind}
    (hsorted : Sorted ChildAggregateKind.tag children)
    (hmem : child ∈ children) :
    removeChild child children = some (children.erase child) := by
  obtain ⟨i, hindex, hget⟩ := lookupIndex_of_mem hsorted hmem rfl
  obtain ⟨hi, hget⟩ := List.getElem?_eq_some_iff.mp hget
  have hnodup : children.Nodup := List.Nodup.of_map _ hsorted.nodup_map
  unfold removeChild
  rw [hindex, Option.map_some, ← hnodup.erase_getElem i hi, hget]

/-! ### Counters -/

def limitOf (binding : OrchestratorBinding) : CounterKind → Nat
  | .revisions => binding.limits.revisions
  | .writerCycles => binding.limits.writerCycles
  | .fixerCycles => binding.limits.fixerCycles
  | .gateCycles => binding.effectiveGateCycles
  | .reviewCycles => binding.effectiveReviewCycles
  | .handoffs => binding.limits.handoffs
  | .childDirectives => binding.limits.childDirectives
  | .retainedObservations => binding.limits.retainedObservations
  | .cancellationReconciliations => binding.limits.cancellationReconciliations

variable {counters : OrchestratorCounters} {binding : OrchestratorBinding}
  {counter : CounterKind}

theorem validateCounters_eq_ok_iff :
    counters.validate binding = .ok () ↔ 0 < counters.revisions ∧
      ∀ counter, counters.selected counter ≤ limitOf binding counter := by
  unfold OrchestratorCounters.validate
  simp only [ensure_eq_ok_iff, Bool.and_eq_true, decide_eq_true_eq]
  constructor
  · rintro ⟨⟨⟨⟨⟨⟨⟨⟨⟨hpositive, h₁⟩, h₂⟩, h₃⟩, h₄⟩, h₅⟩, h₆⟩, h₇⟩, h₈⟩, h₉⟩
    refine ⟨hpositive, fun counter => ?_⟩
    cases counter <;> assumption
  · rintro ⟨hpositive, h⟩
    exact ⟨⟨⟨⟨⟨⟨⟨⟨⟨hpositive, h .revisions⟩, h .writerCycles⟩, h .fixerCycles⟩,
      h .gateCycles⟩, h .reviewCycles⟩, h .handoffs⟩, h .childDirectives⟩,
      h .retainedObservations⟩, h .cancellationReconciliations⟩

theorem selected_bump (other : CounterKind) :
    (counters.bump counter).selected other =
      counters.selected other + if other = counter then 1 else 0 := by
  cases counter <;> cases other <;> rfl

theorem validateCounters_bump (hvalid : counters.validate binding = .ok ())
    (hroom : counters.selected counter < limitOf binding counter) :
    (counters.bump counter).validate binding = .ok () := by
  obtain ⟨hpositive, hbounds⟩ := validateCounters_eq_ok_iff.mp hvalid
  refine validateCounters_eq_ok_iff.mpr ⟨?_, fun other => ?_⟩
  · have hrevisions : (counters.bump counter).revisions =
        counters.revisions + if .revisions = counter then 1 else 0 :=
      selected_bump .revisions
    omega
  · rw [selected_bump]
    have hother := hbounds other
    split
    · rename_i h
      rw [h]
      exact hroom
    · exact hother

/-- No limit reaches the width of its counter. -/
theorem limitOf_le (hbinding : binding.validate sha256 = .ok ()) :
    limitOf binding counter ≤ 8192 := by
  unfold OrchestratorBinding.validate OrchestratorLimits.validate at hbinding
  simp only [bind_eq_ok_iff, ensure_eq_ok_iff, exists_unit_iff,
    OrchestratorLimits.checks, List.all_cons, List.all_nil, Bool.and_eq_true,
    decide_eq_true_eq, OrchestratorLimits.maxGateCycles,
    OrchestratorLimits.maxReviewCycles] at hbinding
  obtain ⟨hlimits, _⟩ := hbinding
  cases counter <;> simp only [limitOf, OrchestratorBinding.effectiveGateCycles,
    OrchestratorBinding.effectiveReviewCycles] <;> (try split) <;> omega

theorem incrementCounter_eq (hbinding : state.binding.validate sha256 = .ok ())
    (hcounters : state.counters.validate state.binding = .ok ())
    (hroom : state.counters.selected counter < limitOf state.binding counter) :
    state.incrementCounter counter =
      .ok { state with counters := state.counters.bump counter } := by
  have hwidth : state.counters.selected counter < u16Max := by
    have hlimit : limitOf state.binding counter ≤ 8192 := limitOf_le hbinding
    have hmax : (8192 : Nat) < u16Max := by decide
    omega
  unfold OrchestratorState.incrementCounter
  rw [decide_eq_true hwidth]
  simp only [ensure_true, bind, Except.bind,
    validateCounters_bump hcounters hroom]

/-! ### Directives -/

section Directives

variable {directive : PendingDirective}

theorem validate_published (hvalid : directive.validate = .ok ())
    (hpublish : directive.canPublish = true) :
    directive.published.validate = .ok () := by
  unfold PendingDirective.canPublish at hpublish
  unfold PendingDirective.validate PendingDirective.published at *
  simp only [bind_eq_ok_iff, ensure_eq_ok_iff, exists_unit_iff,
    Bool.and_eq_true, decide_eq_true_eq] at hvalid hpublish ⊢
  obtain ⟨⟨⟨⟨hpayload, hmaximum⟩, _⟩, hbinding⟩, _⟩ := hvalid
  exact ⟨⟨⟨⟨hpayload, hmaximum⟩, hpublish.2⟩, hbinding⟩, Nat.succ_ne_zero _⟩

theorem validate_acknowledged (hvalid : directive.validate = .ok ())
    (hdelivered : directive.deliveryState ≠ .ready) :
    directive.acknowledged.validate = .ok () := by
  unfold PendingDirective.validate PendingDirective.acknowledged at *
  simp only [bind_eq_ok_iff, ensure_eq_ok_iff, exists_unit_iff] at hvalid ⊢
  obtain ⟨hshape, hcount⟩ := hvalid
  refine ⟨hshape, ?_⟩
  split at hcount
  · rename_i hready
    exact absurd hready hdelivered
  · exact ensure_eq_ok_iff.mp hcount
  · exact ensure_eq_ok_iff.mp hcount

theorem apply_eq_dispatch
    (h : state.phase.isActive = true →
      state.pausedReconciliation.isSome = true → resumesChildren kind = true) :
    apply sha256 state eventId kind = dispatch sha256 state eventId kind := by
  have hguard : (!(state.phase.isActive && state.pausedReconciliation.isSome) ||
      resumesChildren kind) = true := by
    cases hactive : state.phase.isActive with
    | false => rfl
    | true =>
        cases hsome : state.pausedReconciliation.isSome with
        | false => rfl
        | true => exact h hactive hsome
  unfold apply
  rw [hguard]
  rfl

theorem publish_new (hbinding : state.binding.validate sha256 = .ok ())
    (hcounters : state.counters.validate state.binding = .ok ())
    (hroom : state.counters.childDirectives <
      state.binding.limits.childDirectives)
    (hpending : state.pendingDirective = none)
    (hvalid : directive.validate = .ok ())
    (hpaused : state.phase.isPaused = true → directive.kind = .pauseChildren)
    (hsource : directive.sourceEvent = eventId)
    (hmatches : matchesPhase sha256 state directive = true)
    (hpublish : directive.canPublish = true) :
    publish sha256 state eventId directive =
      .ok ({ state with
          counters := state.counters.bump .childDirectives
          pendingDirective := some directive.published },
        .directivePublished directive) := by
  have hallowed : (!state.phase.isPaused ||
      decide (directive.kind = .pauseChildren)) = true := by
    cases hphase : state.phase.isPaused with
    | false => rfl
    | true => exact decide_eq_true (hpaused hphase)
  have hcounted : state.incrementCounter .childDirectives =
      .ok { state with
        counters := state.counters.bump .childDirectives } :=
    incrementCounter_eq hbinding hcounters hroom
  unfold publish PendingDirective.markPublished
  rw [hpending, hvalid, hallowed]
  simp only [hsource, hmatches, hpublish, decide_true, Bool.and_self,
    ensure_true, bind, Except.bind, hcounted]

theorem publish_pending (hpending : state.pendingDirective = some directive)
    (hvalid : directive.validate = .ok ())
    (hpaused : state.phase.isPaused = true → directive.kind = .pauseChildren)
    (hpublish : directive.canPublish = true) :
    publish sha256 state eventId directive =
      .ok ({ state with pendingDirective := some directive.published },
        .directivePublished directive) := by
  have hallowed : (!state.phase.isPaused ||
      decide (directive.kind = .pauseChildren)) = true := by
    cases hphase : state.phase.isPaused with
    | false => rfl
    | true => exact decide_eq_true (hpaused hphase)
  unfold publish PendingDirective.markPublished
  rw [hpending, hvalid, hallowed]
  simp only [hpublish, decide_true, ensure_true, bind, Except.bind]

theorem acknowledge_eq {settled : OrchestratorState}
    (hpending : state.pendingDirective = some directive)
    (hdelivered : directive.deliveryState ≠ .ready)
    (hsettled : settleAcknowledged
      { state with pendingDirective := some directive.acknowledged }
      directive.acknowledged = .ok settled) :
    acknowledge state directive.id =
      .ok (settled, .directiveAcknowledged directive.id) := by
  unfold acknowledge PendingDirective.acknowledge
  rw [hpending]
  simp only [requireSome, decide_eq_true hdelivered, decide_true, ensure_true,
    bind, Except.bind, hsettled]

/-! ### Directives to one child -/

def destinationOf : ChildAggregateKind → DirectiveDestination
  | .agent => .agent
  | .gates => .gates
  | .review => .review
  | .scheduler => .scheduler
  | .collaboration => .collaboration
  | .kernel => .kernel

@[simp] theorem childForDestination_destinationOf (child : ChildAggregateKind) :
    childForDestination (destinationOf child) = some child := by
  cases child <;> rfl

variable (sha256)

/-- A directive to one child, to be delivered once. -/
def childDirective (state : OrchestratorState) (id : OpaqueIdentifier)
    (kind : DirectiveKind) (child : ChildAggregateKind)
    (binding : DirectivePayloadBinding) : PendingDirective :=
  PendingDirective.new id (destinationOf child) kind
    ((directivePayloadDigest sha256 kind (destinationOf child)
      binding).toOption.getD zeroDigest)
    1 id none none state.currentCandidate.revision Collaboration.Task.one_le_u16Max

variable {sha256} {id : OpaqueIdentifier} {found : DirectiveKind}
  {child : ChildAggregateKind} {payload : DirectivePayloadBinding}

theorem exists_payload {destination : DirectiveDestination}
    (hfits : payloadFits found payload = true)
    (hcause : ∀ cause, payload = .cancellation cause → nonzero cause = true) :
    ∃ bytes, directivePayloadDigest sha256 found destination payload =
      .ok (sha256 bytes) := by
  unfold directivePayloadDigest
  rw [hfits]
  cases payload with
  | cancellation cause =>
      dsimp only
      rw [hcause cause rfl]
      exact ⟨_, rfl⟩
  | handoff => exact ⟨_, rfl⟩
  | qualityCycle => exact ⟨_, rfl⟩
  | reconciliation => exact ⟨_, rfl⟩

theorem payloadMatches_childDirective
    (hfits : payloadFits found payload = true)
    (hcause : ∀ cause, payload = .cancellation cause → nonzero cause = true) :
    payloadMatches sha256 (childDirective sha256 state id found child payload)
      payload = true := by
  have hdigest : ∃ bytes, directivePayloadDigest sha256 found
      (destinationOf child) payload = .ok (sha256 bytes) :=
    exists_payload hfits hcause
  obtain ⟨bytes, hpayload⟩ := hdigest
  unfold payloadMatches childDirective PendingDirective.new
  dsimp only
  rw [hpayload]
  exact decide_eq_true rfl

theorem validate_childDirective (hnonzero : ∀ bytes, sha256 bytes ≠ zeroDigest)
    (hfits : payloadFits found payload = true)
    (hcause : ∀ cause, payload = .cancellation cause → nonzero cause = true) :
    (childDirective sha256 state id found child payload).validate = .ok () := by
  have hdigest : ∃ bytes, directivePayloadDigest sha256 found
      (destinationOf child) payload = .ok (sha256 bytes) :=
    exists_payload hfits hcause
  obtain ⟨bytes, hpayload⟩ := hdigest
  unfold childDirective PendingDirective.new PendingDirective.validate
  dsimp only
  rw [hpayload]
  have hpositive : nonzero (sha256 bytes) = true :=
    decide_eq_true (hnonzero bytes)
  change (ensure (nonzero (sha256 bytes) && _ && _ && _) _ >>= fun _ => _) = _
  rw [hpositive]
  rfl

end Directives

end Peritus.Orchestrator.Progress
