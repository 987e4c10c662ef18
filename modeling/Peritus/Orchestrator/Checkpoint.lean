import Peritus.Orchestrator.Invariant

/-!
The validation of a checkpoint, check by check: what a valid state guarantees,
and which edits leave a state valid.
-/

namespace Peritus.Orchestrator.Checkpoint

open Peritus.Types Checked SortedTable TransitionSystem Material Child Directive State
open Validation Command Reducer Edits Handlers Invariant

/-- The checks of a checkpoint. -/
structure Valid (sha256 : List UInt8 → Sha256Digest)
    (state : OrchestratorState) : Prop where
  binding : state.binding.validate sha256 = .ok ()
  ownership : state.ownership.validate state.binding.limits = .ok ()
  candidate :
    state.currentCandidate.validate sha256 state.binding.limits = .ok ()
  cycle : state.currentQualityCycle.validateForCandidate sha256
    state.currentCandidate = .ok ()
  counters : state.counters.validate state.binding = .ok ()
  candidates : forEach (fun candidate =>
      candidate.validate sha256 state.binding.limits)
    state.candidateHistory = .ok ()
  cycles : forEach (fun pair : CandidateBinding × QualityCycleBinding =>
      pair.2.validateForCandidate sha256 pair.1)
    (state.candidateHistory.zip state.qualityCycleHistory) = .ok ()
  genesis : validateGenesisCycle state = .ok ()
  proposed : validateOption (validateProposed sha256 state)
    state.proposedCandidate = .ok ()
  handoffs : forEach (fun handoff : Handoff =>
      handoff.validate sha256 state.binding.limits) state.handoffs = .ok ()
  openHandoff : validateOption (fun handoff : Handoff =>
      handoff.validate sha256 state.binding.limits) state.openHandoff = .ok ()
  activations : forEach (validateActivation state) state.activations = .ok ()
  observations : forEach (validateObservation state) state.observations =
    .ok ()
  pending : validateOption PendingDirective.validate state.pendingDirective =
    .ok ()
  certificate : validateOption (AcceptanceCertificate.validate sha256)
    state.acceptanceCertificate = .ok ()
  concluded : validateOption (OrchestratorTerminal.validate sha256)
    state.terminal = .ok ()
  concluding : validateOption (OrchestratorTerminal.validate sha256)
    state.pendingTerminal = .ok ()
  bounded : boundedCollections state = .ok true
  children : canonicalChildren state = true
  history : historyValid state = true
  cycleHistory : uniqueCycleHistory state = true
  truth : terminalTruth state = true
  digest : nonzero state.stateDigest = true
  sealed : state.stateDigest = Canonical.stateDigest sha256 state

variable {sha256 : List UInt8 → Sha256Digest}
  {state next : OrchestratorState}

theorem validate_eq_ok_iff :
    validate sha256 state = .ok () ↔ Valid sha256 state := by
  unfold validate validateNested
  simp only [bind_eq_ok_iff, ensure_eq_ok_iff, exists_unit_iff,
    Bool.and_eq_true, decide_eq_true_eq]
  constructor
  · rintro ⟨⟨h₁, h₂, h₃, h₄, h₅, h₆, h₇, h₈, h₉, h₁₀, h₁₁, h₁₂, h₁₃, h₁₄, h₁₅,
      h₁₆, h₁₇⟩, bounded, hbounded, ⟨⟨⟨⟨hchildren, hhistory⟩, hcycles⟩, rfl⟩,
      htruth⟩, hdigest, hsealed⟩
    exact ⟨h₁, h₂, h₃, h₄, h₅, h₆, h₇, h₈, h₉, h₁₀, h₁₁, h₁₂, h₁₃, h₁₄, h₁₅,
      h₁₆, h₁₇, hbounded, hchildren, hhistory, hcycles, htruth, hdigest,
      hsealed⟩
  · intro h
    exact ⟨⟨h.binding, h.ownership, h.candidate, h.cycle, h.counters,
      h.candidates, h.cycles, h.genesis, h.proposed, h.handoffs, h.openHandoff,
      h.activations, h.observations, h.pending, h.certificate, h.concluded,
      h.concluding⟩, true, h.bounded,
      ⟨⟨⟨⟨h.children, h.history⟩, h.cycleHistory⟩, rfl⟩, h.truth⟩, h.digest,
      h.sealed⟩

/-! ### What a valid state guarantees -/

theorem validateOption_eq_ok {α : Type}
    {check : α → Except OrchestratorError Unit} {value : Option α}
    (h : validateOption check value = .ok ()) {a : α} (ha : value = some a) :
    check a = .ok () := by
  rw [ha] at h
  exact h

theorem destinationPhase_of_validate {handoff : Handoff}
    {limits : OrchestratorLimits}
    (h : handoff.validate sha256 limits = .ok ()) :
    handoff.destinationPhase = handoff.kind.destinationPhase := by
  unfold Handoff.validate Handoff.validateShape at h
  simp only [bind_eq_ok_iff, ensure_eq_ok_iff, exists_unit_iff,
    Bool.and_eq_true, decide_eq_true_eq] at h
  exact h.1.2.1.2.1.1.2

namespace Valid

theorem cycleRevision (hvalid : Valid sha256 state) :
    state.currentQualityCycle.revision = state.currentCandidate.revision := by
  have h := hvalid.cycle
  unfold QualityCycleBinding.validateForCandidate at h
  simp only [bind_eq_ok_iff, ensure_eq_ok_iff, exists_unit_iff,
    decide_eq_true_eq] at h
  exact h.2

theorem openHandoffPhase (hvalid : Valid sha256 state) {handoff : Handoff}
    (hopen : state.openHandoff = some handoff) :
    handoff.destinationPhase = handoff.kind.destinationPhase :=
  destinationPhase_of_validate (validateOption_eq_ok hvalid.openHandoff hopen)

theorem terminal_iff (hvalid : Valid sha256 state) :
    state.phase = .terminal ↔ state.terminal.isSome = true := by
  have h := hvalid.truth
  unfold terminalTruth at h
  simp only [Bool.and_eq_true, decide_eq_true_eq] at h
  have hphase := h.1.1.1.1
  rw [← hphase, decide_eq_true_eq]

theorem terminal_eq_none (hvalid : Valid sha256 state)
    (hopened : state.phase ≠ .terminal) : state.terminal = none := by
  cases hterminal : state.terminal with
  | none => rfl
  | some terminal =>
      exact absurd (hvalid.terminal_iff.mpr (by rw [hterminal]; rfl)) hopened

/-- A concluded run holds nothing that is still to be done. -/
theorem quiescent (hvalid : Valid sha256 state)
    {terminal : OrchestratorTerminal}
    (hterminal : state.terminal = some terminal) :
    quiescentWith state terminal = true := by
  have h := hvalid.truth
  unfold terminalTruth at h
  simp only [Bool.and_eq_true, hterminal] at h
  exact h.1.1.1.2

/-- Every observation and activation is counted. -/
theorem retained (hvalid : Valid sha256 state) :
    state.observations.length + state.activations.length =
      state.counters.retainedObservations := by
  have h := hvalid.bounded
  unfold boundedCollections at h
  split at h
  · cases h
  · split at h
    · cases h
    · simp only [Except.ok.injEq, Bool.and_eq_true, decide_eq_true_eq] at h
      exact h.1.1.1.1.1.2

/-- The current candidate and its cycle are the last of their histories. -/
theorem mem_histories (hvalid : Valid sha256 state) :
    state.currentCandidate ∈ state.candidateHistory ∧
      state.currentQualityCycle ∈ state.qualityCycleHistory := by
  have h := hvalid.bounded
  unfold boundedCollections at h
  split at h
  · cases h
  rename_i candidate hcandidate
  split at h
  · cases h
  rename_i cycle hcycle
  simp only [Except.ok.injEq, Bool.and_eq_true, decide_eq_true_eq] at h
  obtain ⟨⟨⟨_, rfl⟩, rfl⟩, _⟩ := h
  exact ⟨List.mem_of_getLast? hcandidate, List.mem_of_getLast? hcycle⟩

theorem sortedActive (hvalid : Valid sha256 state) :
    Sorted ChildAggregateKind.tag state.activeChildren := by
  have h := hvalid.children
  unfold canonicalChildren at h
  simp only [Bool.and_eq_true] at h
  exact ascending_iff.mp h.1.1

theorem sortedPaused (hvalid : Valid sha256 state) :
    Sorted ChildAggregateKind.tag state.pausedChildren := by
  have h := hvalid.children
  unfold canonicalChildren at h
  simp only [Bool.and_eq_true] at h
  exact ascending_iff.mp h.1.2

theorem paused_subset (hvalid : Valid sha256 state) :
    state.pausedChildren ⊆ state.activeChildren := by
  have h := hvalid.children
  unfold canonicalChildren at h
  simp only [Bool.and_eq_true, List.all_eq_true, decide_eq_true_eq] at h
  exact h.2

theorem truthful (hvalid : Valid sha256 state) :
    terminalIsTruthful state = true := by
  have h := hvalid.truth
  unfold terminalTruth at h
  simp only [Bool.and_eq_true] at h
  exact h.1.2

theorem cancelling_of_pendingTerminal (hvalid : Valid sha256 state)
    {terminal : OrchestratorTerminal}
    (hterminal : state.pendingTerminal = some terminal) :
    state.phase = .cancelling := by
  have h := hvalid.truth
  unfold terminalTruth at h
  simp only [Bool.and_eq_true, hterminal, Option.all_some,
    decide_eq_true_eq] at h
  exact h.1.1.2.1

theorem pendingTerminal_revision (hvalid : Valid sha256 state)
    {terminal : OrchestratorTerminal}
    (hterminal : state.pendingTerminal = some terminal) :
    terminal.revision = state.currentCandidate.revision := by
  have h := hvalid.truth
  unfold terminalTruth at h
  simp only [Bool.and_eq_true, hterminal, Option.all_some,
    decide_eq_true_eq] at h
  exact h.1.1.2.2

theorem owned_eq_nil (hvalid : Valid sha256 state)
    (hphase : state.phase = .terminal) : ownedChildren state = [] := by
  obtain ⟨terminal, hterminal⟩ :=
    Option.isSome_iff_exists.mp (hvalid.terminal_iff.mp hphase)
  have h := hvalid.quiescent hterminal
  unfold quiescentWith at h
  simp only [Bool.and_eq_true, List.isEmpty_iff,
    Option.isNone_iff_eq_none] at h
  obtain ⟨⟨⟨⟨⟨⟨⟨⟨_, hactive⟩, hpending⟩, _⟩, _⟩, _⟩, _⟩, _⟩, _⟩ := h
  unfold ownedChildren
  rw [hpending]
  exact hactive

end Valid

theorem valid_of_commits {event : OrchestratorEvent}
    (hcommits : Commits sha256 state event next) : Valid sha256 next := by
  obtain ⟨command, hdecide⟩ := hcommits
  obtain ⟨_, hcommitted⟩ := committed_of_decideCommand hdecide
  exact validate_eq_ok_iff.mp hcommitted.successor

theorem valid_of_run {first : OrchestratorEvent}
    {events : List OrchestratorEvent} (hstarts : Starts sha256 first state)
    (hrun : Run (Commits sha256) state events next) : Valid sha256 next := by
  have hstep : ∀ s a t, Valid sha256 s → Commits sha256 s a t →
      Valid sha256 t := fun _ _ _ _ => valid_of_commits
  exact hrun.invariant hstep
    (validate_eq_ok_iff.mp (begun_of_starts hstarts).valid)

/-! ### Building runs

A request carries the identity of its command and event; its fences are read
off the state. -/

abbrev Request := OpaqueIdentifier × OrchestratorCommandKind

def fenced (state : OrchestratorState) (id : OpaqueIdentifier)
    (kind : OrchestratorCommandKind) : OrchestratorCommand where
  commandId := id
  eventId := id
  runId := state.binding.runId
  expectedSequence := state.sequence.get
  expectedPreviousEvent := some state.lastEventId
  priorStateDigest := state.stateDigest
  revision := state.currentCandidate.revision
  kind := kind
  sequenceBound := state.sequence.bound
  predecessor := by
    have hpositive := state.sequence.positive
    exact ⟨fun h => absurd h (by omega), fun h => by cases h⟩

variable (sha256)

/-- The events of the requests and the state they lead to, if all are
accepted. -/
def attempts (state : OrchestratorState) :
    List Request → Option (List OrchestratorEvent × OrchestratorState)
  | [] => some ([], state)
  | (id, kind) :: rest =>
      match decideCommand sha256 state (fenced state id kind) with
      | .error _ => none
      | .ok transition =>
          (attempts transition.state rest).map fun (events, reached) =>
            (transition.event :: events, reached)

variable {sha256}

theorem run_of_attempts {requests : List Request}
    {events : List OrchestratorEvent}
    (h : attempts sha256 state requests = some (events, next)) :
    Run (Commits sha256) state events next := by
  induction requests generalizing state events with
  | nil =>
      cases h
      exact .nil next
  | cons request rest ih =>
      obtain ⟨id, kind⟩ := request
      unfold attempts at h
      split at h
      · cases h
      · rename_i transition hdecide
        obtain ⟨⟨later, reached⟩, hrest, h⟩ := Option.map_eq_some_iff.mp h
        cases h
        exact .cons ⟨_, hdecide⟩ (ih hrest)

end Peritus.Orchestrator.Checkpoint
