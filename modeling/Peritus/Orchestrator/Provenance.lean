import Peritus.Orchestrator.Custody

/-!
The provenance of an accepted outcome: what the log of a run shows, since the
last change of the candidate, in each phase on the way to acceptance.
-/

namespace Peritus.Orchestrator.Provenance

open Peritus.Types Checked TransitionSystem Material Child Directive State Validation
open Command Reducer Edits Handlers Invariant Checkpoint Custody
open Collaboration.Task (HarnessRole)

/-! ### Evidence -/

/-- The candidate that an event makes the current one. -/
def installed : OrchestratorEventKind → Option CandidateBinding
  | .started genesis => some genesis.candidate
  | .writerObserved _ candidate _ => candidate
  | .candidateAdvanced candidate _ => some candidate
  | _ => none

/-- The latest gate run, which passed at the revision. -/
structure Passed (revision : RevisionTuple)
    (observations : List ChildObservation) (gate : GateChildObservation) :
    Prop where
  passed : gate.gateClass = .passed
  revision : gate.revision = revision
  latest : observations.reverse.findSome? ChildObservation.asGates = some gate

/-- The latest review, which was completed at the revision. -/
structure Completed (revision : RevisionTuple)
    (observations : List ChildObservation) (review : ReviewChildObservation) :
    Prop where
  completed : review.reviewClass = .completed
  revision : review.revision = revision
  latest : observations.reverse.findSome? ChildObservation.asReview =
    some review

/-- A certificate of a passed gate run and a completed review. -/
structure Certified (revision : RevisionTuple) (gate : GateChildObservation)
    (review : ReviewChildObservation) (certificate : AcceptanceCertificate) :
    Prop where
  passed : gate.gateClass = .passed
  completed : review.reviewClass = .completed
  gateRevision : gate.revision = revision
  reviewRevision : review.revision = revision
  revision : certificate.revision = revision
  gateDigest : certificate.gateStateDigest = gate.head.stateDigest
  reviewDigest : certificate.reviewStateDigest = review.head.stateDigest

/-- The two stages of the kernel's acceptance, as the plan has them. -/
structure Performed (revision : RevisionTuple) (plan : KernelAcceptancePlan)
    (begun accepted : KernelAcceptanceObservation) : Prop where
  begunOutcome : begun.outcome = .begun
  begunEvent : begun.eventId = plan.beginEventId
  begunCommand : begun.commandId = plan.beginCommandId
  begunPrevious : begun.previousEventId = plan.expectedPreviousKernelEvent
  begunRevision : begun.revision = revision
  acceptedOutcome : accepted.outcome = .accepted
  acceptedEvent : accepted.eventId = plan.evaluateEventId
  acceptedCommand : accepted.commandId = plan.evaluateCommandId
  acceptedPrevious :
    accepted.previousEventId = some plan.evaluatePreviousEventId
  acceptedRevision : accepted.revision = revision

/-- What the events since the last change of the candidate show in a phase. -/
def Evidence (revision : RevisionTuple) (observations : List ChildObservation)
    (certified : Option AcceptanceCertificate)
    (kinds : List OrchestratorEventKind) : ActivePhase → Prop
  | .reviewPending | .reviewActive => ∃ gate handoff,
      Passed revision observations gate ∧
        [.gatesObserved gate handoff].Sublist kinds
  | .evaluatingAcceptance => ∃ gate handoff review,
      Passed revision observations gate ∧
        Completed revision observations review ∧
        [.gatesObserved gate handoff, .reviewObserved review none].Sublist kinds
  | .kernelAcceptancePending => ∃ gate handoff review certificate,
      certified = some certificate ∧
        Certified revision gate review certificate ∧
        [.gatesObserved gate handoff, .reviewObserved review none,
          .acceptanceCertificateRecorded certificate].Sublist kinds ∧
        ∀ begun, .kernelAcceptance begun ∈ observations →
          begun.outcome = .begun →
          [.gatesObserved gate handoff, .reviewObserved review none,
            .acceptanceCertificateRecorded certificate,
            .kernelAcceptanceObserved begun].Sublist kinds
  | _ => True

/-- What an accepted outcome rests on. -/
def Accepted (revision : RevisionTuple) (kinds : List OrchestratorEventKind) :
    Prop :=
  ∃ gate handoff review certificate begun accepted,
    [.gatesObserved gate handoff, .reviewObserved review none,
      .acceptanceCertificateRecorded certificate,
      .kernelAcceptanceObserved begun,
      .kernelAcceptanceObserved accepted].Sublist kinds ∧
    Certified revision gate review certificate ∧
    Performed revision certificate.kernelPlan begun accepted

/-- Where the events since the last change of the candidate have led. -/
structure Shows (state : OrchestratorState)
    (kinds : List OrchestratorEventKind) : Prop where
  evidence : ∀ phase, state.phase.resumable = some phase →
    Evidence state.currentCandidate.revision state.observations
      state.acceptanceCertificate kinds phase
  unbegun : ∀ phase, state.phase.resumable = some phase →
    phase ≠ .kernelAcceptancePending →
      ∀ observation, .kernelAcceptance observation ∈ state.observations →
        observation.outcome ≠ .begun
  accepted : ∀ terminal, state.terminal = some terminal →
    terminal.kind = .accepted → Accepted state.currentCandidate.revision kinds

/-- The log of a run, up to the event that installed the current candidate and
from there on. -/
def Traced (log : List OrchestratorEvent) (state : OrchestratorState) : Prop :=
  ∃ before change since, log = before ++ change :: since ∧
    installed change.kind = some state.currentCandidate ∧
    (∀ event ∈ since, installed event.kind = none) ∧
    Shows state (since.map OrchestratorEvent.kind)

/-! ### Later observations -/

section Lists

variable {β : Type} {f : ChildObservation → Option β}
  {observations later : List ChildObservation}

theorem latest_append (h : ∀ observation ∈ later, f observation = none) :
    (observations ++ later).reverse.findSome? f =
      observations.reverse.findSome? f := by
  rw [List.reverse_append, List.findSome?_append,
    List.findSome?_eq_none_iff.mpr fun observation hmem =>
      h observation (List.mem_reverse.mp hmem), Option.none_or]

theorem latest_append_self {observation : ChildObservation} {b : β}
    (h : f observation = some b) :
    (observations ++ [observation]).reverse.findSome? f = some b := by
  rw [List.reverse_append, List.reverse_singleton, List.singleton_append,
    List.findSome?_cons, h]

end Lists

variable {sha256 : List UInt8 → Sha256Digest}
  {state next ending : OrchestratorState} {event : OrchestratorEventKind}
  {kind : OrchestratorCommandKind} {eventId : EventId}
  {revision : RevisionTuple} {observations later : List ChildObservation}
  {certified : Option AcceptanceCertificate}
  {kinds : List OrchestratorEventKind} {phase : ActivePhase}

theorem Passed.append {gate : GateChildObservation}
    (hpassed : Passed revision observations gate)
    (h : ∀ observation ∈ later, observation.asGates = none) :
    Passed revision (observations ++ later) gate :=
  ⟨hpassed.passed, hpassed.revision, (latest_append h).trans hpassed.latest⟩

theorem Completed.append {review : ReviewChildObservation}
    (hcompleted : Completed revision observations review)
    (h : ∀ observation ∈ later, observation.asReview = none) :
    Completed revision (observations ++ later) review :=
  ⟨hcompleted.completed, hcompleted.revision,
    (latest_append h).trans hcompleted.latest⟩

/-- Further events take nothing back. -/
theorem Evidence.snoc
    (hevidence : Evidence revision observations certified kinds phase) :
    Evidence revision observations certified (kinds ++ [event]) phase := by
  have hsub : kinds.Sublist (kinds ++ [event]) :=
    List.sublist_append_left kinds [event]
  cases phase
  case reviewPending =>
    obtain ⟨gate, handoff, hpassed, hlog⟩ := hevidence
    exact ⟨gate, handoff, hpassed, hlog.trans hsub⟩
  case reviewActive =>
    obtain ⟨gate, handoff, hpassed, hlog⟩ := hevidence
    exact ⟨gate, handoff, hpassed, hlog.trans hsub⟩
  case evaluatingAcceptance =>
    obtain ⟨gate, handoff, review, hpassed, hcompleted, hlog⟩ := hevidence
    exact ⟨gate, handoff, review, hpassed, hcompleted, hlog.trans hsub⟩
  case kernelAcceptancePending =>
    obtain ⟨gate, handoff, review, certificate, hsome, hcertified, hlog,
      hbegun⟩ := hevidence
    exact ⟨gate, handoff, review, certificate, hsome, hcertified,
      hlog.trans hsub, fun begun hmem houtcome =>
        (hbegun begun hmem houtcome).trans hsub⟩
  all_goals trivial

/-- An edit that stays in its phase and observes nothing. -/
theorem Shows.stay (hshows : Shows state kinds)
    (hphase : next.phase.resumable = state.phase.resumable)
    (hcandidate : next.currentCandidate = state.currentCandidate)
    (hobservations : next.observations = state.observations)
    (hcertificate :
      next.acceptanceCertificate = state.acceptanceCertificate)
    (hterminal : next.terminal = none) : Shows next (kinds ++ [event]) where
  evidence phase h := by
    rw [hcandidate, hobservations, hcertificate]
    exact (hshows.evidence phase (hphase.symm.trans h)).snoc
  unbegun phase h := by
    rw [hobservations]
    exact hshows.unbegun phase (hphase.symm.trans h)
  accepted _ h := by
    rw [hterminal] at h
    cases h

/-- A run that settles or has concluded otherwise shows nothing. -/
theorem shows_of_closed (hphase : next.phase.resumable = none)
    (haccepted : ∀ terminal, next.terminal = some terminal →
      terminal.kind ≠ .accepted) : Shows next kinds where
  evidence phase h := by
    rw [hphase] at h
    cases h
  unbegun phase h := by
    rw [hphase] at h
    cases h
  accepted terminal h hkind := absurd hkind (haccepted terminal h)

/-- An edit that moves to another phase of work, before acceptance. -/
theorem Shows.move {after : List OrchestratorEventKind}
    (hshows : Shows state kinds)
    (hbefore : state.phase.resumable = some phase)
    (hworking : phase ≠ .kernelAcceptancePending) {following : ActivePhase}
    (hphase : next.phase = .active following)
    (hobservations : next.observations = state.observations ++ later)
    (hlater : ∀ observation, .kernelAcceptance observation ∉ later)
    (hevidence : Evidence next.currentCandidate.revision next.observations
      next.acceptanceCertificate after following)
    (hterminal : next.terminal = none) : Shows next after where
  evidence found h := by
    rw [hphase] at h
    cases h
    exact hevidence
  unbegun _ _ _ observation hmem := by
    rw [hobservations, List.mem_append] at hmem
    exact hshows.unbegun phase hbefore hworking observation
      (hmem.resolve_right (hlater observation))
  accepted _ h := by
    rw [hterminal] at h
    cases h

/-! ### One step -/

/-- Coordination ends without a gate run or a review. -/
theorem Shows.coordinate {scheduler : SchedulerChildObservation}
    {collaboration : CollaborationChildObservation} (hshows : Shows state kinds)
    (hphase : state.phase = .active .evaluatingAcceptance ∨
      state.phase = .active .revisionAdvancing)
    (hnext : next.phase = state.phase)
    (hcandidate : next.currentCandidate = state.currentCandidate)
    (hobservations : next.observations = state.observations ++
      [.scheduler scheduler, .collaboration collaboration])
    (hterminal : next.terminal = none) : Shows next (kinds ++ [event]) := by
  have hlater : ∀ observation, ChildObservation.kernelAcceptance observation ∉
      [.scheduler scheduler, .collaboration collaboration] := by
    intro observation hmem
    rcases List.mem_cons.mp hmem with h | h
    · cases h
    · cases List.mem_singleton.mp h
  have hother : ∀ observation ∈
      [ChildObservation.scheduler scheduler, .collaboration collaboration],
      observation.asGates = none ∧ observation.asReview = none := by
    intro observation hmem
    rcases List.mem_cons.mp hmem with rfl | h
    · exact ⟨rfl, rfl⟩
    · rw [List.mem_singleton.mp h]
      exact ⟨rfl, rfl⟩
  rcases hphase with hphase | hphase
  · have hbefore : state.phase.resumable = some .evaluatingAcceptance := by
      rw [hphase]
      rfl
    obtain ⟨gate, handoff, review, hpassed, hcompleted, hlog⟩ :=
      hshows.evidence _ hbefore
    refine hshows.move hbefore (by decide) (hnext.trans hphase) hobservations
      hlater ?_ hterminal
    rw [hobservations, hcandidate]
    exact ⟨gate, handoff, review, hpassed.append fun o h => (hother o h).1,
      hcompleted.append fun o h => (hother o h).2,
      hlog.trans (List.sublist_append_left _ _)⟩
  · exact hshows.move (by rw [hphase]; rfl) (by decide) (hnext.trans hphase)
      hobservations hlater trivial hterminal

/-- A certificate names the latest gate run and review. -/
theorem Shows.certify {directive : PendingDirective}
    {certificate : AcceptanceCertificate} (hshows : Shows state kinds)
    (hchecked : Exact state directive certificate)
    (hphase : next.phase = .active .kernelAcceptancePending)
    (hcandidate : next.currentCandidate = state.currentCandidate)
    (hobservations : next.observations = state.observations)
    (hcertificate : next.acceptanceCertificate = some certificate)
    (hterminal : next.terminal = none) :
    Shows next (kinds ++ [.acceptanceCertificateRecorded certificate]) where
  evidence found h := by
    have hbefore : state.phase.resumable = some .evaluatingAcceptance := by
      rw [hchecked.phase]
      rfl
    obtain ⟨gate, handoff, review, hpassed, hcompleted, hlog⟩ :=
      hshows.evidence _ hbefore
    obtain ⟨latest, hlatest, hgate⟩ := hchecked.gate
    obtain rfl : gate = latest :=
      Option.some.inj (hpassed.latest.symm.trans hlatest)
    obtain ⟨latest, hlatest, hreview⟩ := hchecked.review
    obtain rfl : review = latest :=
      Option.some.inj (hcompleted.latest.symm.trans hlatest)
    rw [hphase] at h
    cases h
    rw [hcandidate, hobservations, hcertificate]
    refine ⟨gate, handoff, review, certificate, rfl,
      { passed := hpassed.passed
        completed := hcompleted.completed
        gateRevision := hpassed.revision
        reviewRevision := hcompleted.revision
        revision := hchecked.revision
        gateDigest := hgate
        reviewDigest := hreview }, hlog.append (List.Sublist.refl _), ?_⟩
    intro begun hmem houtcome
    exact absurd houtcome (hshows.unbegun _ hbefore (by decide) begun hmem)
  unbegun found h hworking := by
    rw [hphase] at h
    cases h
    exact absurd rfl hworking
  accepted _ h := by
    rw [hterminal] at h
    cases h

/-- The first stage of the kernel follows the certificate in the log. -/
theorem Shows.beginKernel {observation : KernelAcceptanceObservation}
    (hshows : Shows state kinds)
    (hbefore : state.phase = .active .kernelAcceptancePending)
    (hphase : next.phase = state.phase)
    (hcandidate : next.currentCandidate = state.currentCandidate)
    (hobservations : next.observations =
      state.observations ++ [.kernelAcceptance observation])
    (hcertificate : next.acceptanceCertificate = state.acceptanceCertificate)
    (hterminal : next.terminal = none) :
    Shows next (kinds ++ [.kernelAcceptanceObserved observation]) where
  evidence found h := by
    obtain ⟨gate, handoff, review, certificate, hsome, hcertified, hlog,
      hbegun⟩ := hshows.evidence .kernelAcceptancePending (by rw [hbefore]; rfl)
    rw [hphase, hbefore] at h
    cases h
    rw [hcandidate, hobservations, hcertificate]
    refine ⟨gate, handoff, review, certificate, hsome, hcertified,
      hlog.trans (List.sublist_append_left _ _), ?_⟩
    intro begun hmem houtcome
    rcases List.mem_append.mp hmem with hmem | hmem
    · exact (hbegun begun hmem houtcome).trans (List.sublist_append_left _ _)
    · cases List.mem_singleton.mp hmem
      exact hlog.append (List.Sublist.refl _)
  unbegun found h hworking := by
    rw [hphase, hbefore] at h
    cases h
    exact absurd rfl hworking
  accepted _ h := by
    rw [hterminal] at h
    cases h

/-- Whether an event changes the candidate, and what the log shows then. -/
def Extends (state next : OrchestratorState)
    (kinds : List OrchestratorEventKind) (event : OrchestratorEventKind) :
    Prop :=
  installed event = some next.currentCandidate ∧ Shows next [] ∨
    installed event = none ∧ next.currentCandidate = state.currentCandidate ∧
      Shows next (kinds ++ [event])

/-- Only the kernel's acceptance ends a run as accepted. -/
theorem accepted_of_ending {cause : TerminalCause} {digest : Sha256Digest}
    (hending : Ending sha256 state kind event cause digest ending)
    (hcause : cause.terminalKind = .accepted) :
    ∃ observation certificate directive,
      event = .kernelAcceptanceObserved observation ∧
      state.phase = .active .kernelAcceptancePending ∧
      state.acceptanceCertificate = some certificate ∧
      observation.outcome = .accepted ∧
      stageExact certificate.kernelPlan directive observation = true ∧
      observation.revision = state.currentCandidate.revision ∧
      ending.observations =
        state.observations ++ [.kernelAcceptance observation] ∧
      ending.acceptanceCertificate = state.acceptanceCertificate := by
  cases hending with
  | kernelAccepted hphase hcertificate hpending hacknowledged houtcome hstage
      hrun hrevision =>
      exact ⟨_, _, _, rfl, hphase, hcertificate, houtcome, hstage, hrevision,
        rfl, rfl⟩
  | gates => exact absurd hcause (gateFailure_kind _)
  | review _ _ hreview => rcases hreview with rfl | rfl <;> cases hcause
  | coordination =>
      unfold coordinationFailure at hcause
      dsimp only at hcause
      split at hcause <;> cases hcause
  | writer => cases hcause
  | fixer => cases hcause
  | kernelNeedsChanges => cases hcause
  | rejected => cases hcause
  | failed => cases hcause
  | exhausted => cases hcause

theorem mem_of_anyKernel {p : KernelAcceptanceObservation → Bool}
    (h : anyKernel state p = true) :
    ∃ observation, .kernelAcceptance observation ∈ state.observations ∧
      p observation = true := by
  unfold anyKernel at h
  obtain ⟨found, hmem, hfound⟩ := List.any_eq_true.mp h
  split at hfound
  · exact ⟨_, hmem, hfound⟩
  · cases hfound

/-- What the validation of an accepted outcome finds among the observations. -/
theorem begun_of_truthful {terminal : OrchestratorTerminal}
    {certificate : AcceptanceCertificate}
    (htruth : terminalIsTruthful state = true)
    (hterminal : state.terminal = some terminal)
    (hkind : terminal.kind = .accepted)
    (hcertificate : state.acceptanceCertificate = some certificate) :
    ∃ begun, .kernelAcceptance begun ∈ state.observations ∧
      isBegun state certificate begun = true := by
  unfold terminalIsTruthful at htruth
  rw [hterminal, hcertificate] at htruth
  simp only [hkind, ne_eq, not_true_eq_false, decide_false, Bool.false_or,
    Bool.and_eq_true] at htruth
  exact mem_of_anyKernel htruth.2.1.2

/-- The last stage of the kernel completes the evidence. -/
theorem Shows.accept {observation : KernelAcceptanceObservation}
    {certificate : AcceptanceCertificate} {directive : PendingDirective}
    {terminal : OrchestratorTerminal} (hshows : Shows state kinds)
    (hphase : state.phase = .active .kernelAcceptancePending)
    (hcertificate : state.acceptanceCertificate = some certificate)
    (houtcome : observation.outcome = .accepted)
    (hstage : stageExact certificate.kernelPlan directive observation = true)
    (hrevision : observation.revision = state.currentCandidate.revision)
    (hclosed : next.phase = .terminal)
    (hcandidate : next.currentCandidate = state.currentCandidate)
    (hobservations : next.observations =
      state.observations ++ [.kernelAcceptance observation])
    (hkept : next.acceptanceCertificate = state.acceptanceCertificate)
    (hterminal : next.terminal = some terminal)
    (htruth : terminalIsTruthful next = true) :
    Shows next (kinds ++ [.kernelAcceptanceObserved observation]) where
  evidence found h := by
    rw [hclosed] at h
    cases h
  unbegun found h := by
    rw [hclosed] at h
    cases h
  accepted found h hkind := by
    rw [hterminal] at h
    cases h
    obtain ⟨gate, handoff, review, certified, hsome, hcertified, _, hlog⟩ :=
      hshows.evidence .kernelAcceptancePending (by rw [hphase]; rfl)
    rw [hcertificate] at hsome
    cases hsome
    obtain ⟨begun, hmem, hbegun⟩ := begun_of_truthful htruth hterminal hkind
      (hkept.trans hcertificate)
    unfold isBegun at hbegun
    simp only [Bool.and_eq_true, decide_eq_true_eq] at hbegun
    obtain ⟨⟨⟨⟨⟨hopening, _⟩, hrevised⟩, hcommand⟩, hevent⟩, hprevious⟩ := hbegun
    have hfirst : .kernelAcceptance begun ∈ state.observations := by
      rw [hobservations, List.mem_append] at hmem
      refine hmem.resolve_right fun h => ?_
      cases List.mem_singleton.mp h
      rw [houtcome] at hopening
      cases hopening
    unfold stageExact at hstage
    rw [houtcome] at hstage
    simp only [Bool.and_eq_true, decide_eq_true_eq] at hstage
    obtain ⟨⟨⟨_, hacceptedEvent⟩, hacceptedCommand⟩, hacceptedPrevious⟩ :=
      hstage
    rw [hcandidate]
    refine ⟨gate, handoff, review, certificate, begun, observation,
      (hlog begun hfirst hopening).append (List.Sublist.refl _), hcertified, ?_⟩
    exact
      { begunOutcome := hopening
        begunEvent := hevent
        begunCommand := hcommand
        begunPrevious := hprevious
        begunRevision := hrevised.trans hcertified.revision
        acceptedOutcome := houtcome
        acceptedEvent := hacceptedEvent
        acceptedCommand := hacceptedCommand
        acceptedPrevious := hacceptedPrevious
        acceptedRevision := hrevision }

theorem extends_of_concludes {cause : TerminalCause} {digest : Sha256Digest}
    (hterminal : state.terminal = none)
    (hending : Ending sha256 state kind event cause digest ending)
    (hconcludes : Concludes ending digest
      (terminalOf sha256 cause digest state.currentCandidate.revision) next)
    (htruth : terminalIsTruthful next = true) (hshows : Shows state kinds) :
    Extends state next kinds event := by
  have hsame := samePause_of_ending hending
  have hquiet : installed event = none := by
    cases hending <;> rfl
  cases hconcludes with
  | settling =>
      refine .inr ⟨hquiet, hsame.candidate, shows_of_closed rfl fun _ h => ?_⟩
      rw [hsame.concluded.trans hterminal] at h
      cases h
  | closed howned =>
      refine .inr ⟨hquiet, hsame.candidate, ?_⟩
      by_cases hcause : cause.terminalKind = .accepted
      · obtain ⟨observation, certificate, directive, rfl, hphase, hcertificate,
          houtcome, hstage, hrevision, hobservations, hkeeps⟩ :=
          accepted_of_ending hending hcause
        exact hshows.accept hphase hcertificate houtcome hstage hrevision rfl
          hsame.candidate hobservations hkeeps rfl htruth
      · refine shows_of_closed rfl fun _ h => ?_
        cases h
        exact hcause

theorem extends_of_edit (hkept : Kept state) (hvalid : Valid sha256 state)
    (hopened : state.phase ≠ .terminal)
    (hedit : Edit sha256 state eventId kind event next)
    (htruth : terminalIsTruthful next = true) (hshows : Shows state kinds) :
    Extends state next kinds event := by
  have hterminal := hvalid.terminal_eq_none hopened
  cases hedit with
  | republish => exact .inr ⟨rfl, rfl, hshows.stay rfl rfl rfl rfl hterminal⟩
  | publish => exact .inr ⟨rfl, rfl, hshows.stay rfl rfl rfl rfl hterminal⟩
  | acknowledgeGates hpending hdelivered hphase =>
      exact .inr ⟨rfl, rfl, hshows.move (by rw [hphase]; rfl) (by decide) rfl
        (List.append_nil _).symm (fun _ => List.not_mem_nil) trivial hterminal⟩
  | acknowledgeKernel =>
      exact .inr ⟨rfl, rfl, hshows.stay rfl rfl rfl rfl hterminal⟩
  | acknowledgePause =>
      exact .inr ⟨rfl, rfl, hshows.stay rfl rfl rfl rfl hterminal⟩
  | acknowledgeResume =>
      exact .inr ⟨rfl, rfl, hshows.stay rfl rfl rfl rfl hterminal⟩
  | acknowledge =>
      exact .inr ⟨rfl, rfl, hshows.stay rfl rfl rfl rfl hterminal⟩
  | activate hopen hpending hphase htask =>
      rename_i handoff _ _
      have hdestination := hvalid.openHandoffPhase hopen
      have hbefore : state.phase.resumable =
          some handoff.kind.destinationPhase := by
        rw [hphase, hdestination]
        rfl
      refine .inr ⟨rfl, rfl, hshows.move hbefore ?_ rfl
        (List.append_nil _).symm (fun _ => List.not_mem_nil) ?_ hterminal⟩
      · cases handoff.kind <;> decide
      · have hevidence := hshows.evidence _ hbefore
        cases hkind : handoff.kind <;> rw [hkind] at hevidence
        case reviewer => exact Evidence.snoc hevidence
        all_goals trivial
  | installWriter hphase hrevision =>
      refine .inl ⟨rfl, hshows.move (by rw [hphase]; rfl) (by decide) rfl rfl
        (fun _ hmem => ?_) trivial hterminal⟩
      cases List.mem_singleton.mp hmem
  | passGates hphase hclass hrevision hkind =>
      refine .inr ⟨rfl, rfl, hshows.move (by rw [hphase]; rfl) (by decide) rfl
        rfl (fun _ hmem => ?_) ?_ hterminal⟩
      · cases List.mem_singleton.mp hmem
      · exact ⟨_, _, ⟨hclass, hrevision.trans hvalid.cycleRevision,
          latest_append_self rfl⟩, List.sublist_append_right _ _⟩
  | needFix hphase =>
      refine .inr ⟨rfl, rfl, hshows.move (by rw [hphase]; rfl) (by decide) rfl
        rfl (fun _ hmem => ?_) trivial hterminal⟩
      cases List.mem_singleton.mp hmem
  | completeReview hphase hclass hrevision =>
      have hbefore : state.phase.resumable = some .reviewActive := by
        rw [hphase]
        rfl
      obtain ⟨gate, handoff, hpassed, hlog⟩ := hshows.evidence _ hbefore
      refine .inr ⟨rfl, rfl, hshows.move hbefore (by decide) rfl
        rfl (fun _ hmem => ?_) ?_ hterminal⟩
      · cases List.mem_singleton.mp hmem
      · refine ⟨gate, handoff, _, hpassed.append ?_,
          ⟨hclass, hrevision, latest_append_self rfl⟩,
          hlog.append (List.Sublist.refl _)⟩
        intro observation hmem
        rw [List.mem_singleton.mp hmem]
        rfl
  | propose hphase hreviews =>
      refine .inr ⟨rfl, rfl, hshows.move (by rw [hphase]; rfl) (by decide) rfl
        rfl (fun _ hmem => ?_) trivial hterminal⟩
      rcases List.mem_cons.mp hmem with h | h
      · cases h
      · obtain ⟨_, h⟩ := hreviews _ h
        cases h
  | coordinate hpending hkind hphase hfirst hsecond =>
      exact .inr ⟨rfl, rfl, hshows.coordinate hphase rfl rfl rfl hterminal⟩
  | advance hphase =>
      exact .inl ⟨rfl, hshows.move (by rw [hphase]; rfl) (by decide) rfl
        (List.append_nil _).symm (fun _ => List.not_mem_nil) trivial hterminal⟩
  | certify hpending hexact =>
      have hchecked := exact_of_certificateExact hexact
      exact .inr ⟨rfl, rfl, hshows.certify hchecked rfl rfl rfl rfl hterminal⟩
  | beginKernel hphase hcertificate hpending hacknowledged houtcome =>
      exact .inr ⟨rfl, rfl, hshows.beginKernel hphase rfl rfl rfl rfl hterminal⟩
  | pause hphase =>
      refine .inr ⟨rfl, rfl, hshows.stay ?_ rfl rfl rfl hterminal⟩
      rw [hphase]
      rfl
  | resume hphase =>
      refine .inr ⟨rfl, rfl, hshows.stay ?_ rfl rfl rfl hterminal⟩
      rw [hphase]
      rfl
  | cancel =>
      refine .inr ⟨rfl, rfl, shows_of_closed rfl fun terminal h => ?_⟩
      dsimp only at h
      rw [hterminal] at h
      cases h
  | reconcile hphase =>
      refine .inr ⟨rfl, rfl, shows_of_closed ?_ fun terminal h => ?_⟩
      · dsimp only
        rw [hphase]
        rfl
      · dsimp only at h
        rw [hterminal] at h
        cases h
  | finalize hphase hactive hpending hpendingTerminal =>
      refine .inr ⟨rfl, rfl, shows_of_closed rfl fun terminal h => ?_⟩
      cases h
      rcases hpendingTerminal with hsome | ⟨digest, rfl⟩
      · exact hkept.unaccepted _ hsome
      · exact fun h => by cases h
  | conclude hending hnonzero hconcludes =>
      exact extends_of_concludes hterminal hending hconcludes htruth hshows

/-! ### Runs -/

theorem shows_sealed (hshows : Shows state kinds) (sequence : EventSequence)
    (commandId : CommandId) :
    Shows (sealed sha256 (state.advanceCursor sequence eventId commandId))
      kinds :=
  ⟨hshows.evidence, hshows.unbegun, hshows.accepted⟩

theorem traced_of_commits {log : List OrchestratorEvent}
    {committed : OrchestratorEvent} (hkept : Kept state)
    (htraced : Traced log state)
    (hcommits : Commits sha256 state committed next) :
    Traced (log ++ [committed]) next := by
  obtain ⟨before, change, since, rfl, hinstalled, hquiet, hshows⟩ := htraced
  obtain ⟨command, hdecide⟩ := hcommits
  obtain ⟨applied, hcommitted⟩ := committed_of_decideCommand hdecide
  have hvalid := validate_eq_ok_iff.mp hcommitted.valid
  have hsuccessor := validate_eq_ok_iff.mp hcommitted.successor
  obtain ⟨sequence, _, rfl⟩ := hcommitted.committed
  have htruth : terminalIsTruthful applied = true := hsuccessor.truthful
  rcases extends_of_edit hkept hvalid hcommitted.opened hcommitted.edit htruth
    hshows with ⟨hchange, hnext⟩ | ⟨hother, hcandidate, hnext⟩
  · refine ⟨before ++ change :: since, committed, [], rfl, hchange, ?_,
      shows_sealed hnext _ _⟩
    exact fun _ h => absurd h List.not_mem_nil
  · refine ⟨before, change, since ++ [committed], ?_, ?_, ?_, ?_⟩
    · rw [List.append_assoc, List.cons_append]
    · rw [hinstalled, ← hcandidate]
      rfl
    · intro event hmem
      rcases List.mem_append.mp hmem with hmem | hmem
      · exact hquiet event hmem
      · rw [List.mem_singleton.mp hmem]
        exact hother
    · rw [List.map_append]
      exact shows_sealed hnext _ _

theorem traced_of_starts {first : OrchestratorEvent}
    (hstarts : Starts sha256 first state) : Traced [first] state := by
  obtain ⟨genesis, _, _, _, _, hkind, rfl, _⟩ := (begun_of_starts hstarts).genesis
  refine ⟨[], first, [], rfl, ?_, ?_, ?_⟩
  · rw [hkind]
    rfl
  · exact fun _ h => absurd h List.not_mem_nil
  · exact
      { evidence := fun _ h => by
          cases h
          trivial
        unbegun := fun _ _ _ _ h => absurd h List.not_mem_nil
        accepted := fun _ h => by cases h }

theorem traced_of_run {first : OrchestratorEvent}
    {events : List OrchestratorEvent} (hstarts : Starts sha256 first state)
    (hrun : Run (Commits sha256) state events next) :
    Traced (first :: events) next := by
  have hstep : ∀ log s a t, Kept s ∧ Traced log s → Commits sha256 s a t →
      Kept t ∧ Traced (log ++ [a]) t := by
    intro log s a t ⟨hkept, htraced⟩ hcommits
    exact ⟨kept_of_commits hkept hcommits,
      traced_of_commits hkept htraced hcommits⟩
  have hinitial : Kept state ∧ Traced [first] state :=
    ⟨kept_of_starts hstarts, traced_of_starts hstarts⟩
  exact (hrun.log_invariant hstep hinitial).2

/-! ### Cancellation -/

/-- A settling run goes on settling, or concludes without acceptance. -/
def Revoked (state : OrchestratorState) : Prop :=
  state.phase = .cancelling ∨
    ∃ terminal, state.phase = .terminal ∧ state.terminal = some terminal ∧
      terminal.kind ≠ .accepted

theorem phase_of_ending {cause : TerminalCause} {digest : Sha256Digest}
    (hending : Ending sha256 state kind event cause digest ending) :
    state.phase ≠ .cancelling := by
  intro hcancelling
  cases hending with
  | writer hopen hphase => rw [hcancelling] at hphase; cases hphase
  | gates hphase => rw [hcancelling] at hphase; cases hphase
  | review hphase => rw [hcancelling] at hphase; cases hphase
  | fixer hphase => rw [hcancelling] at hphase; cases hphase
  | coordination hpending hkind hphase =>
      rw [hcancelling] at hphase
      rcases hphase with h | h <;> cases h
  | kernelAccepted hphase => rw [hcancelling] at hphase; cases hphase
  | kernelNeedsChanges hphase => rw [hcancelling] at hphase; cases hphase
  | rejected hphase => exact hphase hcancelling
  | failed hphase => exact hphase hcancelling
  | exhausted hphase => exact hphase hcancelling

/-- What a settling run can still do. -/
theorem revoked_of_edit (hkept : Kept state)
    (hcancelling : state.phase = .cancelling)
    (hedit : Edit sha256 state eventId kind event next) : Revoked next := by
  cases hedit with
  | republish => exact .inl hcancelling
  | publish => exact .inl hcancelling
  | acknowledgePause => exact .inl hcancelling
  | acknowledgeResume => exact .inl hcancelling
  | acknowledge => exact .inl hcancelling
  | reconcile => exact .inl hcancelling
  | finalize _ _ _ hterminal =>
      refine .inr ⟨_, rfl, rfl, ?_⟩
      rcases hterminal with hsome | ⟨digest, rfl⟩
      · exact hkept.unaccepted _ hsome
      · exact fun h => by cases h
  | cancel _ hphase => exact absurd hcancelling hphase
  | conclude hending => exact absurd hcancelling (phase_of_ending hending)
  | coordinate _ _ hphase =>
      rw [hcancelling] at hphase
      rcases hphase with h | h <;> cases h
  | certify _ hexact =>
      have hphase := (exact_of_certificateExact hexact).phase
      rw [hcancelling] at hphase
      cases hphase
  | acknowledgeGates _ _ hphase => rw [hcancelling] at hphase; cases hphase
  | acknowledgeKernel _ _ hphase => rw [hcancelling] at hphase; cases hphase
  | activate _ _ hphase => rw [hcancelling] at hphase; cases hphase
  | installWriter hphase => rw [hcancelling] at hphase; cases hphase
  | passGates hphase => rw [hcancelling] at hphase; cases hphase
  | needFix hphase => rw [hcancelling] at hphase; cases hphase
  | completeReview hphase => rw [hcancelling] at hphase; cases hphase
  | propose hphase => rw [hcancelling] at hphase; cases hphase
  | advance hphase => rw [hcancelling] at hphase; cases hphase
  | beginKernel hphase => rw [hcancelling] at hphase; cases hphase
  | pause hphase => rw [hcancelling] at hphase; cases hphase
  | resume hphase => rw [hcancelling] at hphase; cases hphase

theorem revoked_of_commits {committed : OrchestratorEvent} (hkept : Kept state)
    (hrevoked : Revoked state)
    (hcommits : Commits sha256 state committed next) : Revoked next := by
  obtain ⟨command, hdecide⟩ := hcommits
  obtain ⟨applied, hcommitted⟩ := committed_of_decideCommand hdecide
  obtain ⟨sequence, _, rfl⟩ := hcommitted.committed
  rcases hrevoked with hcancelling | ⟨_, hclosed, _⟩
  · have hnext := revoked_of_edit hkept hcancelling hcommitted.edit
    exact hnext
  · exact absurd hclosed hcommitted.opened

theorem revoked_of_run {events : List OrchestratorEvent} (hkept : Kept state)
    (hcancelling : state.phase = .cancelling)
    (hrun : Run (Commits sha256) state events next) : Revoked next := by
  have hstep : ∀ s a t, Kept s ∧ Revoked s → Commits sha256 s a t →
      Kept t ∧ Revoked t := by
    intro s a t ⟨hkept, hrevoked⟩ hcommits
    exact ⟨kept_of_commits hkept hcommits,
      revoked_of_commits hkept hrevoked hcommits⟩
  have hinitial : Kept state ∧ Revoked state := ⟨hkept, .inl hcancelling⟩
  exact (hrun.invariant hstep hinitial).2

/-! ### Acceptance -/

/-- A run that ends as accepted has, since the last change of its candidate and
in this order, a passed gate run, a completed review, a certificate of these
two, and both stages of the kernel's acceptance; and it never settled. -/
theorem acceptance_provenance {first : OrchestratorEvent}
    {initial concluded : OrchestratorState} {events : List OrchestratorEvent}
    {terminal : OrchestratorTerminal} (hstarts : Starts sha256 first initial)
    (hrun : Run (Commits sha256) initial events concluded)
    (hterminal : concluded.terminal = some terminal)
    (haccepted : terminal.kind = .accepted) :
    (∃ before change since gate handoff review certificate begun accepted,
      first :: events = before ++ change :: since ∧
      installed change.kind = some concluded.currentCandidate ∧
      (∀ event ∈ since, installed event.kind = none) ∧
      [.gatesObserved gate handoff, .reviewObserved review none,
        .acceptanceCertificateRecorded certificate,
        .kernelAcceptanceObserved begun,
        .kernelAcceptanceObserved accepted].Sublist
          (since.map OrchestratorEvent.kind) ∧
      Certified concluded.currentCandidate.revision gate review certificate ∧
      Performed concluded.currentCandidate.revision certificate.kernelPlan begun
        accepted) ∧
    ∀ earlier later state, events = earlier ++ later →
      Run (Commits sha256) initial earlier state →
      Run (Commits sha256) state later concluded →
      state.phase ≠ .cancelling := by
  constructor
  · obtain ⟨before, change, since, hlog, hinstalled, hquiet, hshows⟩ :=
      traced_of_run hstarts hrun
    obtain ⟨gate, handoff, review, certificate, begun, accepted, horder,
      hcertified, hperformed⟩ := hshows.accepted terminal hterminal haccepted
    exact ⟨before, change, since, gate, handoff, review, certificate, begun,
      accepted, hlog, hinstalled, hquiet, horder, hcertified, hperformed⟩
  · intro earlier later state _ hearlier hlater hcancelling
    rcases revoked_of_run (kept_of_run hstarts hearlier) hcancelling hlater with
      hphase | ⟨found, _, hfound, hkind⟩
    · have hclosed := (valid_of_run hstarts hrun).terminal_iff.mpr
        (by rw [hterminal]; rfl)
      rw [hphase] at hclosed
      cases hclosed
    · rw [hterminal] at hfound
      cases hfound
      exact hkind haccepted

/-! ### A small accepted run -/

def smallHead (aggregate : ChildAggregateKind)
    (terminal : Option ChildTerminalClass) : ChildHead :=
  ⟨aggregate, PositiveNumber.first, smallId 100, smallDigest, terminal,
    smallDigest_ne_zero⟩

def smallActivation (handoff : Handoff) (role : HarnessRole) :
    HandoffActivationObservation :=
  { handoffId := handoff.id
    taskId := handoff.taskId
    workId := handoff.workId
    dispatchId := smallId 101
    workerId := smallId 102
    owner := handoff.destinationActor
    role
    schedulerRunId := smallBinding.initialSchedulerRunId
    collaborationRunId := smallBinding.initialCollaborationRunId
    revision := smallRevision
    schedulerHead := smallHead .scheduler none
    collaborationHead := smallHead .collaboration none
    shape := ⟨⟨rfl, rfl⟩, rfl, rfl⟩ }

def smallMaterial : CandidateBinding :=
  { smallCandidate with
    snapshotId := smallId 21
    producerActors := [smallOwnership.writer.actor] }

def smallCycle : QualityCycleBinding :=
  QualityCycleBinding.genesis smallHash smallBinding

def smallWriter : AgentChildObservation where
  handoffId := smallHandoff.id
  taskId := smallHandoff.taskId
  workId := smallHandoff.workId
  turnId := smallId 41
  runId := smallBinding.runId
  actor := smallHandoff.destinationActor
  role := .writer
  attemptId := smallBinding.attemptId
  revision := smallRevision
  proposalDigest := some smallDigest
  fixerResponses := []
  head := smallHead .agent (some .completed)
  shape := by decide

def smallGate : GateChildObservation where
  runId := smallBinding.runId
  gateRunId := smallBinding.initialGateRunId
  revision := smallRevision
  planDigest := smallDigest
  snapshotDigest := smallDigest
  evidenceDigest := smallDigest
  gateClass := .passed
  head := smallHead .gates (some .completed)
  shape := ⟨rfl, rfl⟩

def smallReviewHandoff : Handoff :=
  { smallHandoff with
    id := smallId 44
    kind := .reviewer
    sourcePhase := some .gatesActive
    destinationPhase := .reviewPending
    destinationActor := smallId 34
    destinationRole := .reviewer
    candidate := smallMaterial
    turnId := none
    taskId := smallId 45
    workId := smallId 46 }

def smallReview : ReviewChildObservation where
  runId := smallBinding.runId
  revision := smallRevision
  bindingDigest := smallDigest
  quorumComplete := true
  unconservedFindings := []
  reviewClass := .completed
  head := smallHead .review (some .completed)
  shape := by decide

def smallPlan : KernelAcceptancePlan where
  beginCommandId := smallId 110
  beginEventId := smallId 111
  expectedPreviousKernelEvent := none
  evaluateCommandId := smallId 112
  evaluateEventId := smallId 113

def smallCertificate : AcceptanceCertificate where
  contractId := smallBinding.contractId
  contractDigest := smallDigest
  orchestratorBindingDigest := smallDigest
  revision := smallRevision
  candidateBindingDigest := smallDigest
  gateStateDigest := smallDigest
  reviewStateDigest := smallDigest
  evidenceDigest := smallDigest
  evaluationRequestDigest := smallDigest
  decisionDigest := smallDigest
  maximumGateAttempts := 4
  maximumReviewCycles := 4
  kernelPlan := smallPlan
  digest := smallDigest

def smallKernel (outcome : KernelAcceptanceOutcome) (eventId commandId : Nat)
    (previousEventId : Option EventId) : KernelAcceptanceObservation where
  eventId := smallId eventId
  commandId := smallId commandId
  sequence := PositiveNumber.first
  previousEventId
  runId := smallBinding.runId
  revision := smallRevision
  outcome

def smallPublication (id : Nat) (directive : PendingDirective) : Request :=
  (smallId id, .publishDirective { directive with sourceEvent := smallId id })

def smallAcceptance : List Request :=
  [smallPublication 51 smallStartWriter,
   (smallId 52, .observeHandoffActivation (smallActivation smallHandoff .writer)),
   (smallId 53, .observeWriter smallWriter (some smallMaterial) (some smallCycle)),
   smallPublication 54 (smallDirective 54 .startGates .gates),
   (smallId 55, .acknowledgeDirective (smallId 54)),
   (smallId 56, .observeGates smallGate (some smallReviewHandoff)),
   smallPublication 57
     { smallDirective 57 .startReview .collaboration with
       taskId := some (smallId 45)
       workId := some (smallId 46) },
   (smallId 58, .observeHandoffActivation
     (smallActivation smallReviewHandoff .reviewer)),
   (smallId 59, .observeReview smallReview none),
   smallPublication 60 (smallDirective 60 .finalizeChildren .collaboration),
   (smallId 61, .acknowledgeDirective (smallId 60)),
   (smallId 62, .observeRoleInfrastructure
     ⟨smallBinding.initialSchedulerRunId, smallRevision,
       smallHead .scheduler (some .completed), rfl, rfl⟩
     ⟨smallBinding.initialCollaborationRunId, smallRevision,
       smallHead .collaboration (some .completed), rfl, rfl⟩),
   smallPublication 63
     (smallDirective 63 .evaluateAcceptance .qualityEvaluator),
   (smallId 64, .acknowledgeDirective (smallId 63)),
   (smallId 65, .recordAcceptanceCertificate smallCertificate),
   smallPublication 66 (smallDirective 111 .beginKernelAcceptance .kernel),
   (smallId 67, .acknowledgeDirective (smallId 111)),
   (smallId 68, .observeKernelAcceptance (smallKernel .begun 111 110 none)),
   smallPublication 69 (smallDirective 113 .evaluateKernelAcceptance .kernel),
   (smallId 70, .acknowledgeDirective (smallId 113)),
   (smallId 71, .observeKernelAcceptance
     (smallKernel .accepted 113 112 (some (smallId 111))))]

theorem smallAcceptance_accepted :
    (smallStart.bind fun transition =>
      (attempts smallHash transition.state smallAcceptance).map
        fun (_, concluded) =>
          concluded.terminal.map fun terminal => terminal.kind) =
      some (some .accepted) := by
  decide +kernel

theorem acceptance_provenance_of_review :
    ∃ first initial events concluded, Starts smallHash first initial ∧
      Run (Commits smallHash) initial events concluded ∧
      ∃ before change since gate handoff review certificate begun accepted,
        first :: events = before ++ change :: since ∧
        installed change.kind = some concluded.currentCandidate ∧
        (∀ event ∈ since, installed event.kind = none) ∧
        [.gatesObserved gate handoff, .reviewObserved review none,
          .acceptanceCertificateRecorded certificate,
          .kernelAcceptanceObserved begun,
          .kernelAcceptanceObserved accepted].Sublist
            (since.map OrchestratorEvent.kind) ∧
        Certified concluded.currentCandidate.revision gate review
          certificate ∧
        Performed concluded.currentCandidate.revision certificate.kernelPlan
          begun accepted := by
  obtain ⟨⟨first, initial⟩, hstart, hattempted⟩ :=
    Option.bind_eq_some_iff.mp smallAcceptance_accepted
  obtain ⟨⟨events, concluded⟩, hattempts, hkind⟩ :=
    Option.map_eq_some_iff.mp hattempted
  obtain ⟨terminal, hterminal, haccepted⟩ := Option.map_eq_some_iff.mp hkind
  have hstarts : Starts smallHash first initial :=
    ⟨smallGenesis, toOption_eq_some_iff.mp hstart⟩
  have hrun := run_of_attempts hattempts
  exact ⟨first, initial, events, concluded, hstarts, hrun,
    (acceptance_provenance hstarts hrun hterminal haccepted).1⟩

end Peritus.Orchestrator.Provenance
