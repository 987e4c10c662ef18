import Peritus.Kernel.Reducer

/-!
What an accepted kernel command can do to the session and to the runs below it,
said once over all command families.
-/

namespace Peritus.Kernel.Edges

open Peritus.Types Checked Collections State Reducer

/-- The commands that end one attempt and keep its run alive. -/
def endsAttempt : KernelCommand → Bool
  | .failAttempt _ _ => true
  | .exhaustAttempt _ _ => true
  | _ => false

/-- A phase in which a run is worked on. -/
def isLiveUnpaused (phase : RunPhase) : Bool :=
  !phase.isTerminal && decide (phase ≠ .paused)

/-- The moves of session and runs.  The flag tells the commands that end an
attempt from all others. -/
inductive RunEdge (before next : KernelAggregate) : Bool → Prop
  | kept :
      next.session = before.session →
      next.runs = before.runs →
      RunEdge before next false
  | sessionPaused :
      hasUnpausedRun before = false →
      next.runs = before.runs →
      RunEdge before next false
  | sessionUnpaused :
      next.session.phase ≠ .paused →
      next.runs = before.runs →
      RunEdge before next false
  | openSession :
      before.session.phase = .open →
      next.session = before.session →
      RunEdge before next false
  | runEnded {index : Nat} {run : RunState} :
      next.session = before.session →
      next.runs = before.runs.set index run →
      run.phase.isTerminal = true →
      RunEdge before next false
  | runWorked {run : RunState} :
      run ∈ before.runs →
      isLiveUnpaused run.phase = true →
      next.session = before.session →
      RunEdge before next false
  | attemptEnded {index : Nat} {run run' : RunState} :
      before.runs[index]? = some run →
      run.phase.isTerminal = false →
      next.session = before.session →
      next.runs = before.runs.set index run' →
      run'.phase = .running →
      RunEdge before next true

/-! ### The shared checks, read back -/

theorem orElseError_eq_ok_iff {α : Type} {lookup : Option α}
    {error : KernelError} {value : α} :
    orElseError lookup error = .ok value ↔ lookup = some value := by
  cases lookup with
  | none => exact ⟨fun h => (by cases h), fun h => (by cases h)⟩
  | some found =>
      rw [Option.some.injEq]
      exact ⟨fun h => Except.ok.inj h, fun h => congrArg Except.ok h⟩

theorem orElseError_bind_eq_ok_iff {α β : Type} {lookup : Option α}
    {error : KernelError} {rest : α → Except KernelError β} {result : β} :
    orElseError lookup error >>= rest = .ok result ↔
      ∃ value, lookup = some value ∧ rest value = .ok result := by
  rw [bind_eq_ok_iff]
  simp only [orElseError_eq_ok_iff]

theorem run_eq_some {state : KernelAggregate} {id : RunId} {index : Nat}
    {run : RunState} (hrun : state.run id = some (index, run)) :
    state.runs[index]? = some run ∧ run ∈ state.runs :=
  ⟨(findIndexed_eq_some hrun).1, findIndexed_mem hrun⟩

theorem runAndAttempt_eq_ok_iff {state : KernelAggregate} {runId : RunId}
    {attemptId : AttemptId} {run : Nat × RunState}
    {attempt : Nat × AttemptState} :
    runAndAttempt state runId attemptId = .ok (run, attempt) ↔
      state.run runId = some run ∧ state.attempt attemptId = some attempt ∧
        attempt.2.runId = runId := by
  unfold runAndAttempt
  simp only [orElseError_bind_eq_ok_iff, ensure_bind_eq_ok_iff,
    pure_eq_ok_iff, decide_eq_true_eq, Prod.mk.injEq]
  constructor
  · rintro ⟨_, hrun, _, hattempt, hparent, rfl, rfl⟩
    exact ⟨hrun, hattempt, hparent⟩
  · rintro ⟨hrun, hattempt, hparent⟩
    exact ⟨run, hrun, attempt, hattempt, hparent, rfl, rfl⟩

theorem acceptanceSubject_eq_ok {state : KernelAggregate} {runId : RunId}
    {run : Nat × RunState} {attempt : Nat × AttemptState}
    (h : acceptanceSubject state runId = .ok (run, attempt)) :
    state.run runId = some run := by
  unfold acceptanceSubject at h
  simp only [orElseError_bind_eq_ok_iff, pure_eq_ok_iff, Prod.mk.injEq] at h
  obtain ⟨_, hrun, _, _, _, _, rfl, rfl⟩ := h
  exact hrun

/-! ### Commands of one family -/

theorem runEdge_of_pauseSession {before next : KernelAggregate}
    {applied : AppliedCommand} (h : pauseSession before = .ok (next, applied)) :
    RunEdge before next false := by
  unfold pauseSession at h
  simp only [ensure_bind_eq_ok_iff, pure_eq_ok_iff, Prod.mk.injEq,
    Bool.not_eq_true', Bool.or_eq_false_iff] at h
  obtain ⟨⟨_, hpaused⟩, rfl, _⟩ := h
  exact .sessionPaused hpaused rfl

theorem runEdge_of_resumeSession {before next : KernelAggregate}
    {applied : AppliedCommand}
    (h : resumeSession before = .ok (next, applied)) :
    RunEdge before next false := by
  unfold resumeSession at h
  simp only [ensure_bind_eq_ok_iff, pure_eq_ok_iff, Prod.mk.injEq] at h
  obtain ⟨_, rfl, _⟩ := h
  exact .sessionUnpaused (by simp [setSessionPhase]) rfl

theorem runEdge_of_closeSession {before next : KernelAggregate}
    {applied : AppliedCommand}
    (h : closeSession before = .ok (next, applied)) :
    RunEdge before next false := by
  unfold closeSession at h
  simp only [ensure_bind_eq_ok_iff, pure_eq_ok_iff, Prod.mk.injEq] at h
  obtain ⟨_, _, rfl, _⟩ := h
  exact .sessionUnpaused (by simp [setSessionPhase]) rfl

section Inputs

variable {Terms Facts : Type} {inputs : ReducerInputs Terms Facts}

theorem runEdge_of_startRun {before next : KernelAggregate} {runId : RunId}
    {applied : AppliedCommand}
    (h : startRun before runId inputs = .ok (next, applied)) :
    RunEdge before next false := by
  unfold startRun at h
  simp only [ensure_bind_eq_ok_iff, orElseError_bind_eq_ok_iff, pure_eq_ok_iff,
    Prod.mk.injEq, decide_eq_true_eq] at h
  obtain ⟨hopen, _, _, _, _, _, _, rfl, _⟩ := h
  exact .openSession hopen rfl

theorem runEdge_of_startAttempt {before next : KernelAggregate} {runId : RunId}
    {attemptId : AttemptId} {applied : AppliedCommand}
    (h : startAttempt before runId attemptId inputs = .ok (next, applied)) :
    RunEdge before next false := by
  unfold startAttempt at h
  simp only [ensure_bind_eq_ok_iff, orElseError_bind_eq_ok_iff, pure_eq_ok_iff,
    Prod.mk.injEq, decide_eq_true_eq] at h
  obtain ⟨hopen, _, _, _, _, _, _, _, _, _, _, _, rfl, _⟩ := h
  exact .openSession hopen rfl

end Inputs

theorem runEdge_of_pauseRun {before next : KernelAggregate} {runId : RunId}
    {applied : AppliedCommand}
    (h : pauseRun before runId = .ok (next, applied)) :
    RunEdge before next false := by
  unfold pauseRun at h
  simp only [ensure_bind_eq_ok_iff, orElseError_bind_eq_ok_iff, pure_eq_ok_iff,
    Prod.mk.injEq, Bool.not_eq_true', Bool.or_eq_false_iff,
    decide_eq_false_iff_not, not_not, ne_eq] at h
  obtain ⟨_, _, ⟨hopen, _⟩, rfl, _⟩ := h
  exact .openSession hopen rfl

theorem runEdge_of_resumeRun {before next : KernelAggregate} {runId : RunId}
    {applied : AppliedCommand}
    (h : resumeRun before runId = .ok (next, applied)) :
    RunEdge before next false := by
  unfold resumeRun at h
  simp only [ensure_bind_eq_ok_iff, orElseError_bind_eq_ok_iff, pure_eq_ok_iff,
    Prod.mk.injEq, Bool.not_eq_true', Bool.or_eq_false_iff,
    decide_eq_false_iff_not, not_not, ne_eq] at h
  obtain ⟨_, _, ⟨hopen, _⟩, rfl, _⟩ := h
  exact .openSession hopen rfl

theorem runEdge_of_terminateRun {before next : KernelAggregate} {runId : RunId}
    {runPhase : RunPhase} {attemptPhase : AttemptPhase} {turnPhase : TurnPhase}
    {actionPhase : ActionPhase} {eventKind : KernelEventKind}
    {applied : AppliedCommand} (hterminal : runPhase.isTerminal = true)
    (h : terminateRun before runId runPhase attemptPhase turnPhase actionPhase
      eventKind = .ok (next, applied)) :
    RunEdge before next false := by
  unfold terminateRun at h
  simp only [ensure_bind_eq_ok_iff, orElseError_bind_eq_ok_iff, pure_eq_ok_iff,
    Prod.mk.injEq] at h
  obtain ⟨_, _, _, rfl, _⟩ := h
  exact .runEnded rfl rfl hterminal

theorem runEdge_of_resumeAttempt {before next : KernelAggregate}
    {runId : RunId} {attemptId : AttemptId} {applied : AppliedCommand}
    (h : resumeAttempt before runId attemptId = .ok (next, applied)) :
    RunEdge before next false := by
  unfold resumeAttempt at h
  simp only [bind_eq_ok_iff, ensure_eq_ok_iff, pure_eq_ok_iff, Prod.mk.injEq,
    Bool.not_eq_true', Bool.or_eq_false_iff, decide_eq_false_iff_not, not_not,
    ne_eq] at h
  obtain ⟨⟨run, attempt⟩, hfound, _, ⟨⟨hphase, _⟩, _⟩, rfl, _⟩ := h
  have hrun := (runAndAttempt_eq_ok_iff.mp hfound).1
  exact .runWorked (run_eq_some hrun).2 (by rw [hphase]; rfl) rfl

theorem runEdge_of_submitAttempt {before next : KernelAggregate}
    {runId : RunId} {attemptId : AttemptId} {applied : AppliedCommand}
    (h : submitAttempt before runId attemptId = .ok (next, applied)) :
    RunEdge before next false := by
  unfold submitAttempt at h
  simp only [bind_eq_ok_iff, ensure_eq_ok_iff, pure_eq_ok_iff, Prod.mk.injEq,
    Bool.not_eq_true', Bool.or_eq_false_iff, decide_eq_false_iff_not, not_not,
    ne_eq] at h
  obtain ⟨⟨run, attempt⟩, hfound, _, ⟨⟨hphase, _⟩, _⟩, rfl, _⟩ := h
  have hrun := (runAndAttempt_eq_ok_iff.mp hfound).1
  exact .runWorked (run_eq_some hrun).2 (by rw [hphase]; rfl) rfl

/-- Ending an attempt checks neither the session nor whether the run is
paused. -/
theorem runEdge_of_terminateAttempt {before next : KernelAggregate}
    {runId : RunId} {attemptId : AttemptId} {attemptPhase : AttemptPhase}
    {turnPhase : TurnPhase} {actionPhase : ActionPhase}
    {eventKind : KernelEventKind} {applied : AppliedCommand}
    (h : terminateAttempt before runId attemptId attemptPhase turnPhase
      actionPhase eventKind = .ok (next, applied)) :
    RunEdge before next true := by
  unfold terminateAttempt at h
  simp only [bind_eq_ok_iff, ensure_eq_ok_iff, pure_eq_ok_iff, Prod.mk.injEq,
    Bool.not_eq_true', Bool.or_eq_false_iff] at h
  obtain ⟨⟨run, attempt⟩, hfound, _, ⟨hlive, _⟩, rfl, _⟩ := h
  have hrun := (runAndAttempt_eq_ok_iff.mp hfound).1
  exact .attemptEnded (run_eq_some hrun).1 hlive rfl rfl rfl

theorem runEdge_of_beginAcceptance {before next : KernelAggregate}
    {runId : RunId} {applied : AppliedCommand}
    (h : beginAcceptance before runId = .ok (next, applied)) :
    RunEdge before next false := by
  unfold beginAcceptance at h
  simp only [bind_eq_ok_iff, ensure_eq_ok_iff, pure_eq_ok_iff, Prod.mk.injEq,
    Bool.not_eq_true', Bool.or_eq_false_iff, decide_eq_false_iff_not, not_not,
    ne_eq] at h
  obtain ⟨⟨run, attempt⟩, hfound, _, ⟨⟨⟨hphase, _⟩, _⟩, _⟩, rfl, _⟩ := h
  have hrun := acceptanceSubject_eq_ok hfound
  exact .runWorked (run_eq_some hrun).2 (by rw [hphase]; rfl) rfl

/-! ### Commands below the runs -/

/-- Session and runs are as they were. -/
def KeepsRuns (before next : KernelAggregate) : Prop :=
  next.session = before.session ∧ next.runs = before.runs

theorem KeepsRuns.runEdge {before next : KernelAggregate}
    (h : KeepsRuns before next) : RunEdge before next false :=
  .kept h.1 h.2

section Kept

variable {before next : KernelAggregate} {applied : AppliedCommand}

theorem keepsRuns_of_startTurn {attemptId : AttemptId} {turnId : TurnId}
    (h : startTurn before attemptId turnId = .ok (next, applied)) :
    KeepsRuns before next := by
  unfold startTurn at h
  simp only [ensure_bind_eq_ok_iff, orElseError_bind_eq_ok_iff, pure_eq_ok_iff,
    Prod.mk.injEq] at h
  obtain ⟨_, _, _, _, _, rfl, _⟩ := h
  exact ⟨rfl, rfl⟩

theorem keepsRuns_of_completeTurn {attemptId : AttemptId} {turnId : TurnId}
    (h : completeTurn before attemptId turnId = .ok (next, applied)) :
    KeepsRuns before next := by
  unfold completeTurn at h
  simp only [bind_eq_ok_iff, pure_eq_ok_iff, Prod.mk.injEq] at h
  obtain ⟨_, _, _, _, rfl, _⟩ := h
  exact ⟨rfl, rfl⟩

theorem keepsRuns_of_terminateTurn {attemptId : AttemptId} {turnId : TurnId}
    {turnPhase : TurnPhase} {actionPhase : ActionPhase}
    {eventKind : KernelEventKind}
    (h : terminateTurn before attemptId turnId turnPhase actionPhase eventKind =
      .ok (next, applied)) :
    KeepsRuns before next := by
  unfold terminateTurn at h
  simp only [bind_eq_ok_iff, pure_eq_ok_iff, Prod.mk.injEq] at h
  obtain ⟨_, _, rfl, _⟩ := h
  exact ⟨rfl, rfl⟩

theorem keepsRuns_of_proposeAction {turnId : TurnId} {actionId : ActionId}
    {digest : Sha256Digest} {actorId : ActorId} {role : Policy.ActorRole}
    {environmentId : EnvironmentId}
    (h : proposeAction before turnId actionId digest actorId role
      environmentId = .ok (next, applied)) :
    KeepsRuns before next := by
  unfold proposeAction at h
  simp only [ensure_bind_eq_ok_iff, orElseError_bind_eq_ok_iff, pure_eq_ok_iff,
    Prod.mk.injEq] at h
  obtain ⟨_, _, _, _, rfl, _⟩ := h
  exact ⟨rfl, rfl⟩

theorem keepsRuns_of_authorizeAction {Terms Facts : Type}
    {inputs : ReducerInputs Terms Facts} {actionId : ActionId}
    (h : authorizeAction before actionId inputs = .ok (next, applied)) :
    KeepsRuns before next := by
  unfold authorizeAction at h
  simp only [bind_eq_ok_iff, pure_eq_ok_iff, Prod.mk.injEq] at h
  obtain ⟨_, _, _, _, _, _, rfl, _⟩ := h
  exact ⟨rfl, rfl⟩

theorem keepsRuns_of_actionPhase {actionId : ActionId}
    {expected : ActionPhase → Bool} {target : ActionPhase}
    {eventKind : KernelEventKind}
    (h : actionPhase before actionId expected target eventKind =
      .ok (next, applied)) :
    KeepsRuns before next := by
  unfold actionPhase at h
  simp only [bind_eq_ok_iff, pure_eq_ok_iff, Prod.mk.injEq] at h
  obtain ⟨_, _, rfl, _⟩ := h
  exact ⟨rfl, rfl⟩

theorem keepsRuns_of_requestReview {Terms Facts : Type}
    {inputs : ReducerInputs Terms Facts} {runId : RunId}
    {attemptId : AttemptId} {reviewId : ReviewCycleId}
    (h : requestReview before runId attemptId reviewId inputs =
      .ok (next, applied)) :
    KeepsRuns before next := by
  unfold requestReview at h
  simp only [bind_eq_ok_iff, pure_eq_ok_iff, Prod.mk.injEq] at h
  obtain ⟨_, _, _, _, _, _, _, _, rfl, _⟩ := h
  exact ⟨rfl, rfl⟩

theorem keepsRuns_of_reviewPhase {reviewId : ReviewCycleId}
    {expected : ReviewPhase → Bool} {target : ReviewPhase}
    {eventKind : KernelEventKind}
    (h : reviewPhase before reviewId expected target eventKind =
      .ok (next, applied)) :
    KeepsRuns before next := by
  unfold reviewPhase at h
  simp only [bind_eq_ok_iff, pure_eq_ok_iff, Prod.mk.injEq] at h
  obtain ⟨_, _, _, _, rfl, _⟩ := h
  exact ⟨rfl, rfl⟩

theorem keepsRuns_of_requestWaiver {runId : RunId} {reviewId : ReviewCycleId}
    {findingId : FindingId}
    (h : requestWaiver before runId reviewId findingId =
      .ok (next, applied)) :
    KeepsRuns before next := by
  unfold requestWaiver at h
  simp only [bind_eq_ok_iff, pure_eq_ok_iff, Prod.mk.injEq] at h
  obtain ⟨_, _, _, _, _, _, _, _, rfl, _⟩ := h
  exact ⟨rfl, rfl⟩

theorem keepsRuns_of_waiverPhase {findingId : FindingId}
    {expected : WaiverPhase → Bool} {target : WaiverPhase}
    {eventKind : KernelEventKind}
    (h : waiverPhase before findingId expected target eventKind =
      .ok (next, applied)) :
    KeepsRuns before next := by
  unfold waiverPhase at h
  simp only [bind_eq_ok_iff, pure_eq_ok_iff, Prod.mk.injEq] at h
  obtain ⟨_, _, _, _, rfl, _⟩ := h
  exact ⟨rfl, rfl⟩

end Kept

/-! ### Every command -/

section Acceptance

variable {Terms Facts : Type}
variable {evaluateAcceptance : AcceptanceContract Terms → RevisionTuple →
  AcceptanceEvidence Facts → AcceptanceDecision}
variable {inputs : ReducerInputs Terms Facts}
variable {before next : KernelAggregate} {applied : AppliedCommand}

theorem keepsRuns_of_grantWaiver {findingId : FindingId}
    (h : grantWaiver evaluateAcceptance before findingId inputs =
      .ok (next, applied)) :
    KeepsRuns before next := by
  unfold grantWaiver at h
  simp only [bind_eq_ok_iff, pure_eq_ok_iff, Prod.mk.injEq] at h
  obtain ⟨_, _, _, _, _, _, _, _, _, _, _, _, _, _, _, _, _, _, rfl, _⟩ := h
  exact ⟨rfl, rfl⟩

theorem runEdge_of_evaluate {runId : RunId}
    (h : evaluate evaluateAcceptance before runId inputs =
      .ok (next, applied)) :
    RunEdge before next false := by
  unfold evaluate at h
  simp only [bind_eq_ok_iff, ensure_eq_ok_iff, Bool.not_eq_true',
    Bool.or_eq_false_iff, decide_eq_false_iff_not, not_not, ne_eq] at h
  obtain ⟨⟨run, attempt⟩, hfound, _, ⟨⟨hphase, _⟩, _⟩, _, _, _, _, h⟩ := h
  have hrun := acceptanceSubject_eq_ok hfound
  have hsession : next.session = before.session := by
    split at h <;>
      · simp only [pure_eq_ok_iff, Prod.mk.injEq] at h
        obtain ⟨rfl, _⟩ := h
        rfl
  exact .runWorked (run_eq_some hrun).2 (by rw [hphase]; rfl) hsession

theorem runEdge_of_applyCommand {command : KernelCommand}
    (h : applyCommand evaluateAcceptance before command inputs =
      .ok (next, applied)) :
    RunEdge before next (endsAttempt command) := by
  cases command with
  | pauseSession => exact runEdge_of_pauseSession h
  | resumeSession => exact runEdge_of_resumeSession h
  | closeSession => exact runEdge_of_closeSession h
  | startRun => exact runEdge_of_startRun h
  | pauseRun => exact runEdge_of_pauseRun h
  | resumeRun => exact runEdge_of_resumeRun h
  | cancelRun => exact runEdge_of_terminateRun rfl h
  | failRun => exact runEdge_of_terminateRun rfl h
  | exhaustRun => exact runEdge_of_terminateRun rfl h
  | rejectRun => exact runEdge_of_terminateRun rfl h
  | startAttempt => exact runEdge_of_startAttempt h
  | resumeAttempt => exact runEdge_of_resumeAttempt h
  | submitAttempt => exact runEdge_of_submitAttempt h
  | failAttempt => exact runEdge_of_terminateAttempt h
  | exhaustAttempt => exact runEdge_of_terminateAttempt h
  | startTurn => exact (keepsRuns_of_startTurn h).runEdge
  | completeTurn => exact (keepsRuns_of_completeTurn h).runEdge
  | failTurn => exact (keepsRuns_of_terminateTurn h).runEdge
  | cancelTurn => exact (keepsRuns_of_terminateTurn h).runEdge
  | proposeAction => exact (keepsRuns_of_proposeAction h).runEdge
  | authorizeAction => exact (keepsRuns_of_authorizeAction h).runEdge
  | dispatchAction => exact (keepsRuns_of_actionPhase h).runEdge
  | completeAction => exact (keepsRuns_of_actionPhase h).runEdge
  | failAction => exact (keepsRuns_of_actionPhase h).runEdge
  | cancelAction => exact (keepsRuns_of_actionPhase h).runEdge
  | requestReview => exact (keepsRuns_of_requestReview h).runEdge
  | beginReview =>
      unfold applyCommand beginReview at h
      exact (keepsRuns_of_reviewPhase h).runEdge
  | submitReview =>
      unfold applyCommand submitReview at h
      exact (keepsRuns_of_reviewPhase h).runEdge
  | invalidateReview =>
      unfold applyCommand invalidateReview at h
      exact (keepsRuns_of_reviewPhase h).runEdge
  | requestWaiver => exact (keepsRuns_of_requestWaiver h).runEdge
  | grantWaiver => exact (keepsRuns_of_grantWaiver h).runEdge
  | denyWaiver =>
      unfold applyCommand denyWaiver at h
      exact (keepsRuns_of_waiverPhase h).runEdge
  | invalidateWaiver =>
      unfold applyCommand invalidateWaiver at h
      exact (keepsRuns_of_waiverPhase h).runEdge
  | beginAcceptance => exact runEdge_of_beginAcceptance h
  | evaluateAcceptance => exact runEdge_of_evaluate h

/-- The event cursor is all an accepted command changes besides its own
transition. -/
theorem reduceChecked_eq_ok {envelope : CommandEnvelope}
    {command : KernelCommand} {transition : KernelTransition}
    (h : reduceChecked evaluateAcceptance before envelope command inputs =
      .ok transition) :
    ∃ sequence next applied,
      preflight before envelope inputs = .ok sequence ∧
      applyCommand evaluateAcceptance before command inputs =
        .ok (next, applied) ∧
      transition.aggregate =
        { appendEvent next envelope sequence with
          revision := before.revision } := by
  unfold reduceChecked at h
  simp only [bind_eq_ok_iff, pure_eq_ok_iff] at h
  obtain ⟨sequence, hsequence, ⟨next, applied⟩, happly, _, _, _, _, _, _, rfl⟩ :=
    h
  exact ⟨sequence, next, applied, hsequence, happly, rfl⟩

theorem runEdge_of_reduceChecked {envelope : CommandEnvelope}
    {command : KernelCommand} {transition : KernelTransition}
    (h : reduceChecked evaluateAcceptance before envelope command inputs =
      .ok transition) :
    RunEdge before transition.aggregate (endsAttempt command) := by
  obtain ⟨sequence, next, applied, -, happly, heq⟩ := reduceChecked_eq_ok h
  rw [heq]
  have hedge := runEdge_of_applyCommand happly
  generalize endsAttempt command = ends at hedge ⊢
  cases hedge with
  | kept hsession hruns => exact .kept hsession hruns
  | sessionPaused hpaused hruns => exact .sessionPaused hpaused hruns
  | sessionUnpaused hphase hruns => exact .sessionUnpaused hphase hruns
  | openSession hopen hsession => exact .openSession hopen hsession
  | runEnded hsession hruns hterminal =>
      exact .runEnded hsession hruns hterminal
  | runWorked hmem hlive hsession => exact .runWorked hmem hlive hsession
  | attemptEnded hget hlive hsession hruns hphase =>
      exact .attemptEnded hget hlive hsession hruns hphase

end Acceptance

end Peritus.Kernel.Edges
