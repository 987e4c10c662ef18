import Peritus.Kernel.Validity

/-!
Everything an accepted command does to a valid aggregate, said once: the rows
it replaces, ends or adds, and what it found in the rows it read.
-/

namespace Peritus.Kernel.Edits

open Peritus.Types Checked Collections State Reducer Edges Validity

/-- The event kinds whose step the reducer checks again. -/
def isCritical : KernelEventKind → Bool
  | .sessionPaused => true
  | .sessionResumed => true
  | .sessionClosed => true
  | .acceptanceAccepted => true
  | .acceptanceNeedsChanges => true
  | _ => false

/-! ### The edits -/

/-- An attempt of the run. -/
def OfRun (state : KernelAggregate) (runId : RunId) (attemptId : AttemptId) :
    Prop :=
  ∃ attempt ∈ state.attempts, attempt.id = attemptId ∧ attempt.runId = runId

def UnderRun (state : KernelAggregate) (runId : RunId) (action : ActionState) :
    Prop :=
  ∃ turn ∈ state.turns,
    turn.id = action.turnId ∧ OfRun state runId turn.attemptId

def UnderAttempt (state : KernelAggregate) (attemptId : AttemptId)
    (action : ActionState) : Prop :=
  ∃ turn ∈ state.turns,
    turn.id = action.turnId ∧ turn.attemptId = attemptId

inductive Edit (before : KernelAggregate) :
    AppliedCommand → KernelAggregate → Prop
  | sessionPaused :
      before.session.phase = .open →
      Edit before (.new .sessionPaused (.session before.session.id))
        (setSessionPhase before .paused)
  | sessionResumed :
      before.session.phase = .paused →
      Edit before (.new .sessionResumed (.session before.session.id))
        (setSessionPhase before .open)
  | sessionClosed :
      before.session.phase ≠ .closed →
      before.hasLiveRun = false →
      Edit before (.new .sessionClosed (.session before.session.id))
        (setSessionPhase before .closed)
  | runStarted {run : RunState} {applied : AppliedCommand} :
      before.session.phase = .open →
      run.id ∉ before.runs.map (·.id) →
      before.hasLiveRun = false →
      run.revision = before.revision →
      run.phase = .pending →
      run.acceptance = .pending →
      run.currentAttemptId = none →
      isCritical applied.eventKind = false →
      Edit before applied { before with runs := before.runs ++ [run] }
  | runPaused {index : Nat} {run : RunState} {applied : AppliedCommand} :
      before.runs[index]? = some run →
      before.session.phase = .open →
      run.phase = .running ∨ run.phase = .fixing →
      isCritical applied.eventKind = false →
      Edit before applied (setRun before index { run with phase := .paused })
  | runResumed {index : Nat} {run : RunState} {applied : AppliedCommand} :
      before.runs[index]? = some run →
      before.session.phase = .open →
      run.phase = .paused →
      isCritical applied.eventKind = false →
      Edit before applied (setRun before index { run with phase := .running })
  | runEnded {index : Nat} {run : RunState} {phase : RunPhase}
      {attemptPhase : AttemptPhase} {turnPhase : TurnPhase}
      {actionPhase : ActionPhase} {applied : AppliedCommand}
      {ofRun : TurnState → Bool} {underRun : ActionState → Bool} :
      before.runs[index]? = some run →
      run.phase.isTerminal = false →
      phase.isTerminal = true →
      phase ≠ .accepted →
      attemptPhase.isTerminal = true →
      turnPhase.isTerminal = true →
      actionPhase.isTerminal = true →
      (∀ turn, ofRun turn = true ↔ OfRun before run.id turn.attemptId) →
      (∀ action, underRun action = true ↔ UnderRun before run.id action) →
      isCritical applied.eventKind = false →
      Edit before applied
        (setRun
          (endActions
            (endTurns
              (endAttempts before
                (fun attempt => decide (attempt.runId = run.id)) attemptPhase)
              ofRun turnPhase)
            underRun actionPhase)
          index
          { run with
            phase
            acceptance := .terminated
            currentAttemptId := none })
  | attemptStarted {index : Nat} {run : RunState} {attempt : AttemptState}
      {applied : AppliedCommand} :
      before.runs[index]? = some run →
      run.phase = .pending ∨ run.phase = .running →
      run.currentAttemptId = none →
      attempt.id ∉ before.attempts.map (·.id) →
      attempt.runId = run.id →
      attempt.phase = .active →
      isCritical applied.eventKind = false →
      Edit before applied
        (setRun { before with attempts := before.attempts ++ [attempt] } index
          { run with
            phase := .running
            acceptance := .pending
            currentAttemptId := some attempt.id })
  | attemptMoved {index attemptIndex : Nat} {run : RunState}
      {attempt : AttemptState} {phase : RunPhase} {attemptPhase : AttemptPhase}
      {applied : AppliedCommand} :
      before.runs[index]? = some run →
      before.attempts[attemptIndex]? = some attempt →
      attempt.runId = run.id →
      (run.phase = .fixing ∧ attempt.phase = .fixing ∧ phase = .running ∧
          attemptPhase = .active ∨
        run.phase = .running ∧ attempt.phase = .active ∧ phase = .reviewing ∧
          attemptPhase = .submitted) →
      before.hasLiveTurnForAttempt attempt.id = false →
      isCritical applied.eventKind = false →
      Edit before applied
        (setRun
          (setAttempt before attemptIndex { attempt with phase := attemptPhase })
          index { run with phase, acceptance := .pending })
  | attemptEnded {index attemptIndex : Nat} {run : RunState}
      {attempt : AttemptState} {attemptPhase : AttemptPhase}
      {turnPhase : TurnPhase} {actionPhase : ActionPhase}
      {applied : AppliedCommand} {underAttempt : ActionState → Bool} :
      before.runs[index]? = some run →
      before.attempts[attemptIndex]? = some attempt →
      attempt.runId = run.id →
      run.phase.isTerminal = false →
      attempt.phase.isTerminal = false →
      attemptPhase.isTerminal = true →
      turnPhase.isTerminal = true →
      actionPhase.isTerminal = true →
      (∀ action,
        underAttempt action = true ↔ UnderAttempt before attempt.id action) →
      isCritical applied.eventKind = false →
      Edit before applied
        (setRun
          (setAttempt
            (endActions
              (endTurns before
                (fun turn => decide (turn.attemptId = attempt.id)) turnPhase)
              underAttempt actionPhase)
            attemptIndex { attempt with phase := attemptPhase })
          index
          { run with
            phase := .running
            acceptance := .pending
            currentAttemptId := none })
  | turnStarted {attempt : AttemptState} {turn : TurnState}
      {applied : AppliedCommand} :
      attempt ∈ before.attempts →
      attempt.phase = .active →
      turn.id ∉ before.turns.map (·.id) →
      before.hasLiveTurnForAttempt attempt.id = false →
      turn.attemptId = attempt.id →
      turn.phase = .active →
      isCritical applied.eventKind = false →
      Edit before applied { before with turns := before.turns ++ [turn] }
  | turnCompleted {index : Nat} {turn : TurnState} {applied : AppliedCommand} :
      before.turns[index]? = some turn →
      turn.phase = .active →
      before.hasLiveActionForTurn turn.id = false →
      isCritical applied.eventKind = false →
      Edit before applied
        (setTurn before index { turn with phase := .completed })
  | turnEnded {index : Nat} {turn : TurnState} {turnPhase : TurnPhase}
      {actionPhase : ActionPhase} {applied : AppliedCommand} :
      before.turns[index]? = some turn →
      turn.phase = .active →
      turnPhase.isTerminal = true →
      actionPhase.isTerminal = true →
      isCritical applied.eventKind = false →
      Edit before applied
        (setTurn
          (endActions before (fun action => decide (action.turnId = turn.id))
            actionPhase)
          index { turn with phase := turnPhase })
  | actionProposed {turn : TurnState} {action : ActionState}
      {applied : AppliedCommand} :
      turn ∈ before.turns →
      turn.phase = .active →
      action.id ∉ before.actions.map (·.id) →
      action.turnId = turn.id →
      isCritical applied.eventKind = false →
      Edit before applied { before with actions := before.actions ++ [action] }
  | actionMoved {index : Nat} {action action' : ActionState}
      {applied : AppliedCommand} :
      before.actions[index]? = some action →
      action.phase.isTerminal = false →
      action'.id = action.id →
      action'.turnId = action.turnId →
      isCritical applied.eventKind = false →
      Edit before applied (setAction before index action')
  | reviewRequested {attemptIndex : Nat} {run : RunState}
      {attempt : AttemptState} {review : ReviewState}
      {applied : AppliedCommand} :
      run ∈ before.runs →
      before.attempts[attemptIndex]? = some attempt →
      attempt.runId = run.id →
      run.phase = .reviewing →
      attempt.phase = .submitted ∨ attempt.phase = .reviewing →
      review.id ∉ before.reviews.map (·.id) →
      review.runId = run.id →
      review.attemptId = attempt.id →
      isCritical applied.eventKind = false →
      Edit before applied
        (setAttempt { before with reviews := before.reviews ++ [review] }
          attemptIndex { attempt with phase := .reviewing })
  | reviewMoved {index : Nat} {review : ReviewState} {phase : ReviewPhase}
      {applied : AppliedCommand} :
      before.reviews[index]? = some review →
      review.phase = .requested ∨ review.phase = .active ∨
        review.phase ≠ .invalidated ∧ phase = .invalidated →
      isCritical applied.eventKind = false →
      Edit before applied (setReview before index { review with phase })
  | waiverRequested {review : ReviewState} {waiver : WaiverState}
      {applied : AppliedCommand} :
      review ∈ before.reviews →
      waiver.findingId ∉ before.waivers.map (·.findingId) →
      waiver.reviewCycleId = review.id →
      waiver.runId = review.runId →
      isCritical applied.eventKind = false →
      Edit before applied { before with waivers := before.waivers ++ [waiver] }
  | waiverMoved {index : Nat} {waiver : WaiverState} {phase : WaiverPhase}
      {applied : AppliedCommand} :
      before.waivers[index]? = some waiver →
      waiver.phase = .requested ∨
        waiver.phase ≠ .invalidated ∧ phase = .invalidated →
      isCritical applied.eventKind = false →
      Edit before applied (setWaiver before index { waiver with phase })
  | acceptanceBegun {index : Nat} {run : RunState} {applied : AppliedCommand} :
      before.runs[index]? = some run →
      run.phase = .reviewing →
      isCritical applied.eventKind = false →
      Edit before applied
        (setRun before index { run with acceptance := .evaluating })
  | accepted {index attemptIndex : Nat} {run : RunState}
      {attempt : AttemptState} :
      before.run run.id = some (index, run) →
      before.attempts[attemptIndex]? = some attempt →
      run.currentAttemptId = some attempt.id →
      run.phase = .reviewing →
      run.acceptance = .evaluating →
      attempt.phase = .reviewing →
      Edit before
        ⟨.acceptanceAccepted, .acceptance run.id, some .accepted⟩
        (setRun
          (setAttempt before attemptIndex { attempt with phase := .accepted })
          index
          { run with
            phase := .accepted
            acceptance := .accepted
            currentAttemptId := none })
  | needsChanges {index attemptIndex : Nat} {run : RunState}
      {attempt : AttemptState} {unmet : Nat} :
      before.run run.id = some (index, run) →
      before.attempts[attemptIndex]? = some attempt →
      run.currentAttemptId = some attempt.id →
      run.phase = .reviewing →
      run.acceptance = .evaluating →
      attempt.phase = .reviewing →
      Edit before
        ⟨.acceptanceNeedsChanges, .acceptance run.id,
          some (.needsChanges unmet)⟩
        (setRun
          (setAttempt before attemptIndex { attempt with phase := .fixing })
          index { run with phase := .fixing, acceptance := .needsChanges })

/-! ### Rows found by their identity -/

section Found

variable {before : KernelAggregate}

theorem run_found {id : RunId} {index : Nat} {run : RunState}
    (h : before.run id = some (index, run)) :
    before.runs[index]? = some run ∧ run ∈ before.runs ∧ run.id = id :=
  findIndexed_key_eq_some h

theorem attempt_found {id : AttemptId} {index : Nat} {attempt : AttemptState}
    (h : before.attempt id = some (index, attempt)) :
    before.attempts[index]? = some attempt ∧ attempt ∈ before.attempts ∧
      attempt.id = id :=
  findIndexed_key_eq_some h

theorem turn_found {id : TurnId} {index : Nat} {turn : TurnState}
    (h : before.turn id = some (index, turn)) :
    before.turns[index]? = some turn ∧ turn ∈ before.turns ∧ turn.id = id :=
  findIndexed_key_eq_some h

theorem action_found {id : ActionId} {index : Nat} {action : ActionState}
    (h : before.action id = some (index, action)) :
    before.actions[index]? = some action ∧ action ∈ before.actions ∧
      action.id = id :=
  findIndexed_key_eq_some h

theorem review_found {id : ReviewCycleId} {index : Nat} {review : ReviewState}
    (h : before.review id = some (index, review)) :
    before.reviews[index]? = some review ∧ review ∈ before.reviews ∧
      review.id = id :=
  findIndexed_key_eq_some h

theorem waiver_found {id : FindingId} {index : Nat} {waiver : WaiverState}
    (h : before.waiver id = some (index, waiver)) :
    before.waivers[index]? = some waiver ∧ waiver ∈ before.waivers ∧
      waiver.findingId = id :=
  findIndexed_key_eq_some h

/-- An identity whose lookup fails is fresh. -/
theorem fresh_of_isNone {α κ : Type} [DecidableEq κ] {key : α → κ}
    {values : List α} {k : κ}
    (h : (findIndexed (fun a => decide (key a = k)) values).isSome = false) :
    k ∉ values.map key := by
  rw [← lookup_isSome_iff, h]
  exact Bool.false_ne_true

theorem turn_matches_iff (hunique : (before.turns.map (·.id)).Nodup)
    {id : TurnId} {p : TurnState → Bool} :
    (match before.turn id with
      | some (_, turn) => p turn
      | none => false) = true ↔
      ∃ turn ∈ before.turns, turn.id = id ∧ p turn = true := by
  constructor
  · intro h
    split at h
    · rename_i i turn hfound
      obtain ⟨-, hmem, hkey⟩ := turn_found hfound
      exact ⟨turn, hmem, hkey, h⟩
    · cases h
  · rintro ⟨turn, hmem, rfl, hturn⟩
    obtain ⟨i, hfound⟩ := (findIndexed_key_iff hunique).mpr ⟨hmem, rfl⟩
    rw [KernelAggregate.turn, hfound]
    exact hturn

end Found

/-! ### Ended rows -/

section Ended

variable {before : KernelAggregate}

theorem attemptIds_endAttempts {belongs : AttemptState → Bool}
    {phase : AttemptPhase} :
    (endAttempts before belongs phase).attempts.map (·.id) =
      before.attempts.map (·.id) := by
  unfold endAttempts
  rw [List.map_map]
  refine List.map_congr_left fun attempt _ => ?_
  simp only [Function.comp_apply]
  split <;> rfl

theorem turnIds_endTurns {belongs : TurnState → Bool} {phase : TurnPhase} :
    (endTurns before belongs phase).turns.map (·.id) =
      before.turns.map (·.id) := by
  unfold endTurns
  rw [List.map_map]
  refine List.map_congr_left fun turn _ => ?_
  simp only [Function.comp_apply]
  split <;> rfl

theorem nodup_endAttempts {belongs : AttemptState → Bool} {phase : AttemptPhase}
    (hunique : (before.attempts.map (·.id)).Nodup) :
    ((endAttempts before belongs phase).attempts.map (·.id)).Nodup := by
  rw [attemptIds_endAttempts]
  exact hunique

theorem nodup_endTurns {belongs : TurnState → Bool} {phase : TurnPhase}
    (hunique : (before.turns.map (·.id)).Nodup) :
    ((endTurns before belongs phase).turns.map (·.id)).Nodup := by
  rw [turnIds_endTurns]
  exact hunique

/-- Ending attempts leaves each with its run. -/
theorem ofRun_endAttempts {belongs : AttemptState → Bool}
    {phase : AttemptPhase} {runId : RunId} {id : AttemptId} :
    OfRun (endAttempts before belongs phase) runId id ↔
      OfRun before runId id := by
  unfold OfRun endAttempts
  simp only [List.mem_map]
  constructor
  · rintro ⟨_, ⟨attempt, hmem, rfl⟩, hid, hrun⟩
    refine ⟨attempt, hmem, ?_⟩
    split at hid <;> split at hrun <;> exact ⟨hid, hrun⟩
  · rintro ⟨attempt, hmem, hid, hrun⟩
    refine ⟨_, ⟨attempt, hmem, rfl⟩, ?_⟩
    split <;> exact ⟨hid, hrun⟩

/-- Ending turns leaves each with its attempt. -/
theorem exists_turn_endTurns {belongs : TurnState → Bool} {phase : TurnPhase}
    {id : TurnId} {p : AttemptId → Prop} :
    (∃ turn ∈ (endTurns before belongs phase).turns,
        turn.id = id ∧ p turn.attemptId) ↔
      ∃ turn ∈ before.turns, turn.id = id ∧ p turn.attemptId := by
  unfold endTurns
  simp only [List.mem_map]
  constructor
  · rintro ⟨_, ⟨turn, hmem, rfl⟩, hid, hp⟩
    refine ⟨turn, hmem, ?_⟩
    split at hid <;> split at hp <;> exact ⟨hid, hp⟩
  · rintro ⟨turn, hmem, hid, hp⟩
    refine ⟨_, ⟨turn, hmem, rfl⟩, ?_⟩
    split <;> exact ⟨hid, hp⟩

end Ended

/-! ### Sessions and runs -/

section Commands

variable {before next : KernelAggregate} {applied : AppliedCommand}

theorem edit_of_pauseSession (h : pauseSession before = .ok (next, applied)) :
    Edit before applied next := by
  unfold pauseSession at h
  simp only [ensure_bind_eq_ok_iff, pure_eq_ok_iff, Prod.mk.injEq,
    Bool.not_eq_true', Bool.or_eq_false_iff, decide_eq_false_iff_not, ne_eq,
    not_not] at h
  obtain ⟨⟨hopen, -⟩, rfl, rfl⟩ := h
  exact .sessionPaused hopen

theorem edit_of_resumeSession (h : resumeSession before = .ok (next, applied)) :
    Edit before applied next := by
  unfold resumeSession at h
  simp only [ensure_bind_eq_ok_iff, pure_eq_ok_iff, Prod.mk.injEq,
    decide_eq_true_eq] at h
  obtain ⟨hpaused, rfl, rfl⟩ := h
  exact .sessionResumed hpaused

theorem edit_of_closeSession (h : closeSession before = .ok (next, applied)) :
    Edit before applied next := by
  unfold closeSession at h
  simp only [ensure_bind_eq_ok_iff, pure_eq_ok_iff, Prod.mk.injEq,
    Bool.not_eq_true', decide_eq_false_iff_not] at h
  obtain ⟨hclosed, hlive, rfl, rfl⟩ := h
  exact .sessionClosed hclosed hlive

theorem edit_of_startRun {Terms Facts : Type}
    {inputs : ReducerInputs Terms Facts} {runId : RunId}
    (h : startRun before runId inputs = .ok (next, applied)) :
    Edit before applied next := by
  unfold startRun at h
  simp only [ensure_bind_eq_ok_iff, orElseError_bind_eq_ok_iff, pure_eq_ok_iff,
    Prod.mk.injEq, decide_eq_true_eq, Bool.not_eq_true'] at h
  obtain ⟨hopen, hfresh, hlive, _, -, -, -, rfl, rfl⟩ := h
  exact .runStarted hopen (fresh_of_isNone hfresh) hlive rfl rfl rfl rfl rfl

theorem edit_of_pauseRun {runId : RunId}
    (h : pauseRun before runId = .ok (next, applied)) :
    Edit before applied next := by
  unfold pauseRun at h
  simp only [ensure_bind_eq_ok_iff, orElseError_bind_eq_ok_iff, pure_eq_ok_iff,
    Prod.mk.injEq, Bool.not_eq_true', Bool.or_eq_false_iff,
    decide_eq_false_iff_not, Bool.not_eq_false', Bool.or_eq_true,
    decide_eq_true_eq, not_not, ne_eq] at h
  obtain ⟨⟨index, run⟩, hrun, ⟨hopen, hphase⟩, rfl, rfl⟩ := h
  obtain ⟨hget, -, -⟩ := run_found hrun
  exact .runPaused hget hopen hphase rfl

theorem edit_of_resumeRun {runId : RunId}
    (h : resumeRun before runId = .ok (next, applied)) :
    Edit before applied next := by
  unfold resumeRun at h
  simp only [ensure_bind_eq_ok_iff, orElseError_bind_eq_ok_iff, pure_eq_ok_iff,
    Prod.mk.injEq, Bool.not_eq_true', Bool.or_eq_false_iff,
    decide_eq_false_iff_not, not_not, ne_eq] at h
  obtain ⟨⟨index, run⟩, hrun, ⟨hopen, hphase⟩, rfl, rfl⟩ := h
  obtain ⟨hget, -, -⟩ := run_found hrun
  exact .runResumed hget hopen hphase rfl

/-- Each loop below a run selects its rows by lookups in what the loops before
it have already ended. -/
theorem edit_of_terminateRun (hvalid : Valid before) {runId : RunId}
    {runPhase : RunPhase}
    {attemptPhase : AttemptPhase} {turnPhase : TurnPhase}
    {actionPhase : ActionPhase} {eventKind : KernelEventKind}
    (hphase : runPhase.isTerminal = true) (haccepted : runPhase ≠ .accepted)
    (hattempt : attemptPhase.isTerminal = true)
    (hturn : turnPhase.isTerminal = true)
    (haction : actionPhase.isTerminal = true)
    (hordinary : isCritical eventKind = false)
    (h : terminateRun before runId runPhase attemptPhase turnPhase actionPhase
      eventKind = .ok (next, applied)) :
    Edit before applied next := by
  unfold terminateRun at h
  simp only [ensure_bind_eq_ok_iff, orElseError_bind_eq_ok_iff, pure_eq_ok_iff,
    Prod.mk.injEq, Bool.not_eq_true'] at h
  obtain ⟨⟨index, run⟩, hrun, hlive, rfl, rfl⟩ := h
  obtain ⟨hget, -, rfl⟩ := run_found hrun
  have hattempts := fun turn : TurnState =>
    (@attempt_matches_iff (endAttempts before
        (fun attempt => decide (attempt.runId = run.id)) attemptPhase)
      (nodup_endAttempts hvalid.attemptIds) turn.attemptId
      run.id).trans ofRun_endAttempts
  refine .runEnded hget hlive hphase haccepted hattempt hturn haction
    hattempts ?_ hordinary
  intro action
  refine (turn_matches_iff (nodup_endTurns hvalid.turnIds)).trans ?_
  exact (exists_congr fun turn => and_congr_right fun _ =>
    and_congr_right fun _ => hattempts turn).trans
      (exists_turn_endTurns (p := OfRun before run.id))

/-! ### Attempts and turns -/

theorem edit_of_startAttempt {Terms Facts : Type}
    {inputs : ReducerInputs Terms Facts} {runId : RunId} {attemptId : AttemptId}
    (h : startAttempt before runId attemptId inputs = .ok (next, applied)) :
    Edit before applied next := by
  unfold startAttempt at h
  simp only [ensure_bind_eq_ok_iff, orElseError_bind_eq_ok_iff, pure_eq_ok_iff,
    Prod.mk.injEq, decide_eq_true_eq, Bool.not_eq_true', Bool.or_eq_false_iff,
    Bool.not_eq_false', Bool.or_eq_true, Option.isSome_eq_false_iff,
    Option.isNone_iff_eq_none] at h
  obtain ⟨-, ⟨index, run⟩, hrun, ⟨hphase, hcurrent⟩, hfresh, _, -, _, -, -, -,
    -, rfl, rfl⟩ := h
  obtain ⟨hget, -, rfl⟩ := run_found hrun
  refine .attemptStarted hget hphase hcurrent ?_ rfl rfl rfl
  refine fresh_of_isNone ?_
  rw [Option.isSome_eq_false_iff, Option.isNone_iff_eq_none]
  exact hfresh

theorem edit_of_resumeAttempt {runId : RunId} {attemptId : AttemptId}
    (h : resumeAttempt before runId attemptId = .ok (next, applied)) :
    Edit before applied next := by
  unfold resumeAttempt at h
  simp only [bind_eq_ok_iff, ensure_eq_ok_iff, pure_eq_ok_iff, Prod.mk.injEq,
    Bool.not_eq_true', Bool.or_eq_false_iff, decide_eq_false_iff_not, not_not,
    ne_eq] at h
  obtain ⟨⟨⟨index, run⟩, attemptIndex, attempt⟩, hfound, _,
    ⟨⟨hphase, hattempt⟩, hlive⟩, rfl, rfl⟩ := h
  obtain ⟨hrun, hattemptFound, hparent⟩ := runAndAttempt_eq_ok_iff.mp hfound
  obtain ⟨hget, -, rfl⟩ := run_found hrun
  obtain ⟨hgetAttempt, -, rfl⟩ := attempt_found hattemptFound
  exact .attemptMoved hget hgetAttempt hparent
    (.inl ⟨hphase, hattempt, rfl, rfl⟩) hlive rfl

theorem edit_of_submitAttempt {runId : RunId} {attemptId : AttemptId}
    (h : submitAttempt before runId attemptId = .ok (next, applied)) :
    Edit before applied next := by
  unfold submitAttempt at h
  simp only [bind_eq_ok_iff, ensure_eq_ok_iff, pure_eq_ok_iff, Prod.mk.injEq,
    Bool.not_eq_true', Bool.or_eq_false_iff, decide_eq_false_iff_not, not_not,
    ne_eq] at h
  obtain ⟨⟨⟨index, run⟩, attemptIndex, attempt⟩, hfound, _,
    ⟨⟨hphase, hattempt⟩, hlive⟩, rfl, rfl⟩ := h
  obtain ⟨hrun, hattemptFound, hparent⟩ := runAndAttempt_eq_ok_iff.mp hfound
  obtain ⟨hget, -, rfl⟩ := run_found hrun
  obtain ⟨hgetAttempt, -, rfl⟩ := attempt_found hattemptFound
  exact .attemptMoved hget hgetAttempt hparent
    (.inr ⟨hphase, hattempt, rfl, rfl⟩) hlive rfl

theorem edit_of_terminateAttempt (hvalid : Valid before) {runId : RunId}
    {attemptId : AttemptId} {attemptPhase : AttemptPhase}
    {turnPhase : TurnPhase} {actionPhase : ActionPhase}
    {eventKind : KernelEventKind} (hattempt : attemptPhase.isTerminal = true)
    (hturn : turnPhase.isTerminal = true)
    (haction : actionPhase.isTerminal = true)
    (hordinary : isCritical eventKind = false)
    (h : terminateAttempt before runId attemptId attemptPhase turnPhase
      actionPhase eventKind = .ok (next, applied)) :
    Edit before applied next := by
  unfold terminateAttempt at h
  simp only [bind_eq_ok_iff, ensure_eq_ok_iff, pure_eq_ok_iff, Prod.mk.injEq,
    Bool.not_eq_true', Bool.or_eq_false_iff] at h
  obtain ⟨⟨⟨index, run⟩, attemptIndex, attempt⟩, hfound, _, ⟨hlive, hattemptLive⟩,
    rfl, rfl⟩ := h
  obtain ⟨hrun, hattemptFound, hparent⟩ := runAndAttempt_eq_ok_iff.mp hfound
  obtain ⟨hget, -, rfl⟩ := run_found hrun
  obtain ⟨hgetAttempt, -, rfl⟩ := attempt_found hattemptFound
  refine .attemptEnded hget hgetAttempt hparent hlive hattemptLive hattempt
    hturn haction ?_ hordinary
  intro action
  refine (turn_matches_iff (nodup_endTurns hvalid.turnIds)).trans ?_
  simp only [decide_eq_true_eq]
  exact exists_turn_endTurns (p := fun id => id = attempt.id)

theorem edit_of_startTurn {attemptId : AttemptId} {turnId : TurnId}
    (h : startTurn before attemptId turnId = .ok (next, applied)) :
    Edit before applied next := by
  unfold startTurn at h
  simp only [ensure_bind_eq_ok_iff, orElseError_bind_eq_ok_iff, pure_eq_ok_iff,
    Prod.mk.injEq, decide_eq_true_eq, Bool.not_eq_true'] at h
  obtain ⟨⟨index, attempt⟩, hattempt, hphase, hfresh, hlive, rfl, rfl⟩ := h
  obtain ⟨-, hmem, rfl⟩ := attempt_found hattempt
  exact .turnStarted hmem hphase (fresh_of_isNone hfresh) hlive rfl rfl rfl

theorem activeTurn_eq_ok {attemptId : AttemptId} {turnId : TurnId}
    {found : Nat × TurnState}
    (h : activeTurn before attemptId turnId = .ok found) :
    before.turns[found.1]? = some found.2 ∧ found.2.id = turnId ∧
      found.2.phase = .active := by
  unfold activeTurn at h
  simp only [ensure_bind_eq_ok_iff, orElseError_bind_eq_ok_iff, pure_eq_ok_iff,
    decide_eq_true_eq] at h
  obtain ⟨⟨index, turn⟩, hturn, -, hphase, rfl⟩ := h
  obtain ⟨hget, -, hid⟩ := turn_found hturn
  exact ⟨hget, hid, hphase⟩

theorem edit_of_completeTurn {attemptId : AttemptId} {turnId : TurnId}
    (h : completeTurn before attemptId turnId = .ok (next, applied)) :
    Edit before applied next := by
  unfold completeTurn at h
  simp only [bind_eq_ok_iff, ensure_eq_ok_iff, pure_eq_ok_iff, Prod.mk.injEq,
    Bool.not_eq_true'] at h
  obtain ⟨⟨index, turn⟩, hfound, _, hlive, rfl, rfl⟩ := h
  obtain ⟨hget, rfl, hphase⟩ := activeTurn_eq_ok hfound
  exact .turnCompleted hget hphase hlive rfl

theorem edit_of_terminateTurn {attemptId : AttemptId} {turnId : TurnId}
    {turnPhase : TurnPhase} {actionPhase : ActionPhase}
    {eventKind : KernelEventKind} (hturn : turnPhase.isTerminal = true)
    (haction : actionPhase.isTerminal = true)
    (hordinary : isCritical eventKind = false)
    (h : terminateTurn before attemptId turnId turnPhase actionPhase eventKind =
      .ok (next, applied)) :
    Edit before applied next := by
  unfold terminateTurn at h
  simp only [bind_eq_ok_iff, pure_eq_ok_iff, Prod.mk.injEq] at h
  obtain ⟨⟨index, turn⟩, hfound, rfl, rfl⟩ := h
  obtain ⟨hget, rfl, hphase⟩ := activeTurn_eq_ok hfound
  exact .turnEnded hget hphase hturn haction hordinary

/-! ### Actions -/

theorem edit_of_proposeAction {turnId : TurnId} {actionId : ActionId}
    {digest : Sha256Digest} {actorId : ActorId} {role : Policy.ActorRole}
    {environmentId : EnvironmentId}
    (h : proposeAction before turnId actionId digest actorId role
      environmentId = .ok (next, applied)) :
    Edit before applied next := by
  unfold proposeAction at h
  simp only [ensure_bind_eq_ok_iff, orElseError_bind_eq_ok_iff, pure_eq_ok_iff,
    Prod.mk.injEq, decide_eq_true_eq, Bool.not_eq_true'] at h
  obtain ⟨⟨index, turn⟩, hturn, hphase, hfresh, rfl, rfl⟩ := h
  obtain ⟨-, hmem, rfl⟩ := turn_found hturn
  exact .actionProposed hmem hphase (fresh_of_isNone hfresh) rfl rfl

theorem actionIn_eq_ok {actionId : ActionId} {expected : ActionPhase → Bool}
    {found : Nat × ActionState}
    (h : actionIn before actionId expected = .ok found) :
    before.actions[found.1]? = some found.2 ∧
      expected found.2.phase = true := by
  unfold actionIn at h
  simp only [ensure_bind_eq_ok_iff, orElseError_bind_eq_ok_iff,
    pure_eq_ok_iff] at h
  obtain ⟨⟨index, action⟩, haction, hphase, rfl⟩ := h
  exact ⟨(action_found haction).1, hphase⟩

theorem edit_of_authorizeAction {Terms Facts : Type}
    {inputs : ReducerInputs Terms Facts} {actionId : ActionId}
    (h : authorizeAction before actionId inputs = .ok (next, applied)) :
    Edit before applied next := by
  unfold authorizeAction at h
  simp only [bind_eq_ok_iff, pure_eq_ok_iff, Prod.mk.injEq] at h
  obtain ⟨⟨index, action⟩, hfound, _, -, _, -, rfl, rfl⟩ := h
  obtain ⟨hget, hphase⟩ := actionIn_eq_ok hfound
  refine .actionMoved hget ?_ rfl rfl rfl
  rw [of_decide_eq_true hphase]
  rfl

theorem edit_of_actionPhase {actionId : ActionId}
    {expected : ActionPhase → Bool} {target : ActionPhase}
    {eventKind : KernelEventKind}
    (hexpected : ∀ phase, expected phase = true → phase.isTerminal = false)
    (hordinary : isCritical eventKind = false)
    (h : actionPhase before actionId expected target eventKind =
      .ok (next, applied)) :
    Edit before applied next := by
  unfold actionPhase at h
  simp only [bind_eq_ok_iff, pure_eq_ok_iff, Prod.mk.injEq] at h
  obtain ⟨⟨index, action⟩, hfound, rfl, rfl⟩ := h
  obtain ⟨hget, hphase⟩ := actionIn_eq_ok hfound
  exact .actionMoved hget (hexpected _ hphase) rfl rfl hordinary

/-! ### Reviews and waivers -/

theorem edit_of_requestReview {Terms Facts : Type}
    {inputs : ReducerInputs Terms Facts} {runId : RunId}
    {attemptId : AttemptId} {reviewId : ReviewCycleId}
    (h : requestReview before runId attemptId reviewId inputs =
      .ok (next, applied)) :
    Edit before applied next := by
  unfold requestReview at h
  simp only [bind_eq_ok_iff, ensure_eq_ok_iff, pure_eq_ok_iff, Prod.mk.injEq,
    Bool.not_eq_true', Bool.or_eq_false_iff, decide_eq_false_iff_not, not_not,
    ne_eq, Bool.not_eq_false', Bool.or_eq_true, decide_eq_true_eq] at h
  obtain ⟨⟨⟨index, run⟩, attemptIndex, attempt⟩, hfound, _, ⟨hphase, hattempt⟩,
    _, hfresh, _, -, rfl, rfl⟩ := h
  obtain ⟨hrun, hattemptFound, hparent⟩ := runAndAttempt_eq_ok_iff.mp hfound
  obtain ⟨-, hmem, rfl⟩ := run_found hrun
  obtain ⟨hgetAttempt, -, rfl⟩ := attempt_found hattemptFound
  exact .reviewRequested hmem hgetAttempt hparent hphase hattempt
    (fresh_of_isNone hfresh) rfl rfl rfl

theorem edit_of_reviewPhase {reviewId : ReviewCycleId}
    {expected : ReviewPhase → Bool} {target : ReviewPhase}
    {eventKind : KernelEventKind}
    (hexpected : ∀ phase, expected phase = true →
      phase = .requested ∨ phase = .active ∨
        phase ≠ .invalidated ∧ target = .invalidated)
    (hordinary : isCritical eventKind = false)
    (h : reviewPhase before reviewId expected target eventKind =
      .ok (next, applied)) :
    Edit before applied next := by
  unfold reviewPhase at h
  simp only [ensure_bind_eq_ok_iff, orElseError_bind_eq_ok_iff, pure_eq_ok_iff,
    Prod.mk.injEq] at h
  obtain ⟨⟨index, review⟩, hreview, hphase, rfl, rfl⟩ := h
  exact .reviewMoved (review_found hreview).1 (hexpected _ hphase) hordinary

theorem edit_of_requestWaiver {runId : RunId} {reviewId : ReviewCycleId}
    {findingId : FindingId}
    (h : requestWaiver before runId reviewId findingId =
      .ok (next, applied)) :
    Edit before applied next := by
  unfold requestWaiver at h
  simp only [ensure_bind_eq_ok_iff, orElseError_bind_eq_ok_iff, pure_eq_ok_iff,
    Prod.mk.injEq, decide_eq_true_eq, Bool.not_eq_true'] at h
  obtain ⟨⟨index, review⟩, hreview, hparent, -, hfresh, rfl, rfl⟩ := h
  obtain ⟨-, hmem, rfl⟩ := review_found hreview
  exact .waiverRequested hmem (fresh_of_isNone hfresh) rfl hparent.symm rfl

theorem edit_of_waiverPhase {findingId : FindingId}
    {expected : WaiverPhase → Bool} {target : WaiverPhase}
    {eventKind : KernelEventKind}
    (hexpected : ∀ phase, expected phase = true →
      phase = .requested ∨ phase ≠ .invalidated ∧ target = .invalidated)
    (hordinary : isCritical eventKind = false)
    (h : waiverPhase before findingId expected target eventKind =
      .ok (next, applied)) :
    Edit before applied next := by
  unfold waiverPhase at h
  simp only [ensure_bind_eq_ok_iff, orElseError_bind_eq_ok_iff, pure_eq_ok_iff,
    Prod.mk.injEq] at h
  obtain ⟨⟨index, waiver⟩, hwaiver, hphase, rfl, rfl⟩ := h
  exact .waiverMoved (waiver_found hwaiver).1 (hexpected _ hphase) hordinary

/-! ### Acceptance -/

theorem acceptanceSubject_eq_ok_iff {runId : RunId} {run : Nat × RunState}
    {attempt : Nat × AttemptState} :
    acceptanceSubject before runId = .ok (run, attempt) ↔
      before.run runId = some run ∧
        ∃ attemptId, run.2.currentAttemptId = some attemptId ∧
          before.attempt attemptId = some attempt := by
  unfold acceptanceSubject
  simp only [orElseError_bind_eq_ok_iff, pure_eq_ok_iff, Prod.mk.injEq]
  constructor
  · rintro ⟨_, hrun, attemptId, hcurrent, _, hattempt, rfl, rfl⟩
    exact ⟨hrun, attemptId, hcurrent, hattempt⟩
  · rintro ⟨hrun, attemptId, hcurrent, hattempt⟩
    exact ⟨run, hrun, attemptId, hcurrent, attempt, hattempt, rfl, rfl⟩

theorem edit_of_beginAcceptance {runId : RunId}
    (h : beginAcceptance before runId = .ok (next, applied)) :
    Edit before applied next := by
  unfold beginAcceptance at h
  simp only [bind_eq_ok_iff, ensure_eq_ok_iff, pure_eq_ok_iff, Prod.mk.injEq,
    Bool.not_eq_true', Bool.or_eq_false_iff, decide_eq_false_iff_not, not_not,
    ne_eq] at h
  obtain ⟨⟨⟨index, run⟩, attempt⟩, hfound, _, ⟨⟨⟨hphase, -⟩, -⟩, -⟩, rfl, rfl⟩ :=
    h
  obtain ⟨hrun, -⟩ := acceptanceSubject_eq_ok_iff.mp hfound
  exact .acceptanceBegun (run_found hrun).1 hphase rfl

section Evaluation

variable {Terms Facts : Type}
variable {evaluateAcceptance : AcceptanceContract Terms → RevisionTuple →
  AcceptanceEvidence Facts → AcceptanceDecision}
variable {inputs : ReducerInputs Terms Facts}

theorem edit_of_grantWaiver {findingId : FindingId}
    (h : grantWaiver evaluateAcceptance before findingId inputs =
      .ok (next, applied)) :
    Edit before applied next := by
  unfold grantWaiver at h
  simp only [bind_eq_ok_iff, orElseError_eq_ok_iff, ensure_eq_ok_iff,
    decide_eq_true_eq, pure_eq_ok_iff, Prod.mk.injEq] at h
  obtain ⟨⟨index, waiver⟩, hwaiver, _, hphase, _, _, _, _, _, _, _, _, _, _, _, _,
    _, _, rfl, rfl⟩ := h
  exact .waiverMoved (waiver_found hwaiver).1 (.inl hphase) rfl

/-- What an accepted evaluation found: the run under review, its current
attempt, and evidence that agrees with the recorded reviews and waivers. -/
theorem evaluate_eq_ok {runId : RunId}
    (h : evaluate evaluateAcceptance before runId inputs =
      .ok (next, applied)) :
    ∃ index run attemptIndex attempt evidence,
      before.run runId = some (index, run) ∧
      run.currentAttemptId = some attempt.id ∧
      before.attempt attempt.id = some (attemptIndex, attempt) ∧
      run.phase = .reviewing ∧ run.acceptance = .evaluating ∧
      attempt.phase = .reviewing ∧
      inputs.acceptanceEvidence = some evidence ∧
      evidenceMatchesProjection before runId attempt.id evidence = true ∧
      ((evaluateAcceptance inputs.contract before.revision
            evidence).isAcceptable = true ∧
          next = setRun
            (setAttempt before attemptIndex { attempt with phase := .accepted })
            index
            { run with
              phase := .accepted
              acceptance := .accepted
              currentAttemptId := none } ∧
          applied = ⟨.acceptanceAccepted, .acceptance runId, some .accepted⟩ ∨
        (evaluateAcceptance inputs.contract before.revision
            evidence).isAcceptable = false ∧
          next = setRun
            (setAttempt before attemptIndex { attempt with phase := .fixing })
            index { run with phase := .fixing, acceptance := .needsChanges } ∧
          ∃ unmet, applied = ⟨.acceptanceNeedsChanges, .acceptance runId,
            some (.needsChanges unmet)⟩) := by
  unfold evaluate at h
  simp only [bind_eq_ok_iff, ensure_eq_ok_iff, orElseError_eq_ok_iff,
    Bool.not_eq_true', Bool.or_eq_false_iff, decide_eq_false_iff_not, not_not,
    ne_eq] at h
  obtain ⟨⟨⟨index, run⟩, attemptIndex, attempt⟩, hfound, _,
    ⟨⟨hphase, hacceptance⟩, hattempt⟩, evidence, hevidence, _, hmatches, h⟩ := h
  obtain ⟨hrun, attemptId, hcurrent, hattemptFound⟩ :=
    acceptanceSubject_eq_ok_iff.mp hfound
  obtain ⟨-, -, rfl⟩ := attempt_found hattemptFound
  refine ⟨index, run, attemptIndex, attempt, evidence, hrun, hcurrent,
    hattemptFound, hphase, hacceptance, hattempt, hevidence, hmatches, ?_⟩
  split at h
  · rename_i hacceptable
    simp only [pure_eq_ok_iff, Prod.mk.injEq] at h
    obtain ⟨rfl, rfl⟩ := h
    exact .inl ⟨hacceptable, rfl, rfl⟩
  · rename_i hacceptable
    simp only [pure_eq_ok_iff, Prod.mk.injEq] at h
    obtain ⟨rfl, rfl⟩ := h
    exact .inr ⟨Bool.eq_false_iff.mpr hacceptable, rfl, _, rfl⟩

theorem edit_of_evaluate {runId : RunId}
    (h : evaluate evaluateAcceptance before runId inputs =
      .ok (next, applied)) :
    Edit before applied next := by
  obtain ⟨index, run, attemptIndex, attempt, evidence, hrun, hcurrent,
    hattempt, hphase, hacceptance, hattemptPhase, -, -, houtcome⟩ :=
    evaluate_eq_ok h
  obtain ⟨-, -, rfl⟩ := run_found hrun
  obtain ⟨hget, -, -⟩ := attempt_found hattempt
  rcases houtcome with ⟨-, rfl, rfl⟩ | ⟨-, rfl, unmet, rfl⟩
  · exact .accepted hrun hget hcurrent hphase hacceptance hattemptPhase
  · exact .needsChanges hrun hget hcurrent hphase hacceptance hattemptPhase

theorem edit_of_applyCommand (hvalid : Valid before) {command : KernelCommand}
    (h : applyCommand evaluateAcceptance before command inputs =
      .ok (next, applied)) :
    Edit before applied next := by
  cases command with
  | pauseSession => exact edit_of_pauseSession h
  | resumeSession => exact edit_of_resumeSession h
  | closeSession => exact edit_of_closeSession h
  | startRun => exact edit_of_startRun h
  | pauseRun => exact edit_of_pauseRun h
  | resumeRun => exact edit_of_resumeRun h
  | cancelRun =>
      exact edit_of_terminateRun hvalid rfl (by simp) rfl rfl rfl rfl h
  | failRun => exact edit_of_terminateRun hvalid rfl (by simp) rfl rfl rfl rfl h
  | exhaustRun =>
      exact edit_of_terminateRun hvalid rfl (by simp) rfl rfl rfl rfl h
  | rejectRun =>
      exact edit_of_terminateRun hvalid rfl (by simp) rfl rfl rfl rfl h
  | startAttempt => exact edit_of_startAttempt h
  | resumeAttempt => exact edit_of_resumeAttempt h
  | submitAttempt => exact edit_of_submitAttempt h
  | failAttempt => exact edit_of_terminateAttempt hvalid rfl rfl rfl rfl h
  | exhaustAttempt => exact edit_of_terminateAttempt hvalid rfl rfl rfl rfl h
  | startTurn => exact edit_of_startTurn h
  | completeTurn => exact edit_of_completeTurn h
  | failTurn => exact edit_of_terminateTurn rfl rfl rfl h
  | cancelTurn => exact edit_of_terminateTurn rfl rfl rfl h
  | proposeAction => exact edit_of_proposeAction h
  | authorizeAction => exact edit_of_authorizeAction h
  | dispatchAction =>
      refine edit_of_actionPhase ?_ rfl h
      intro phase hphase
      rw [of_decide_eq_true hphase]
      rfl
  | completeAction =>
      refine edit_of_actionPhase ?_ rfl h
      intro phase hphase
      rw [of_decide_eq_true hphase]
      rfl
  | failAction =>
      refine edit_of_actionPhase ?_ rfl h
      intro phase hphase
      rcases Bool.or_eq_true_iff.mp hphase with hphase | hphase <;>
        rw [of_decide_eq_true hphase] <;> rfl
  | cancelAction =>
      refine edit_of_actionPhase ?_ rfl h
      intro phase hphase
      rcases Bool.or_eq_true_iff.mp hphase with hphase | hphase <;>
        rw [of_decide_eq_true hphase] <;> rfl
  | requestReview => exact edit_of_requestReview h
  | beginReview =>
      unfold applyCommand beginReview at h
      refine edit_of_reviewPhase ?_ rfl h
      intro phase hphase
      exact .inl (of_decide_eq_true hphase)
  | submitReview =>
      unfold applyCommand submitReview at h
      refine edit_of_reviewPhase ?_ rfl h
      intro phase hphase
      exact .inr (.inl (of_decide_eq_true hphase))
  | invalidateReview =>
      unfold applyCommand invalidateReview at h
      refine edit_of_reviewPhase ?_ rfl h
      intro phase hphase
      exact .inr (.inr ⟨by simpa using hphase, rfl⟩)
  | requestWaiver => exact edit_of_requestWaiver h
  | grantWaiver => exact edit_of_grantWaiver h
  | denyWaiver =>
      unfold applyCommand denyWaiver at h
      refine edit_of_waiverPhase ?_ rfl h
      intro phase hphase
      exact .inl (of_decide_eq_true hphase)
  | invalidateWaiver =>
      unfold applyCommand invalidateWaiver at h
      refine edit_of_waiverPhase ?_ rfl h
      intro phase hphase
      exact .inr ⟨by simpa using hphase, rfl⟩
  | beginAcceptance => exact edit_of_beginAcceptance h
  | evaluateAcceptance => exact edit_of_evaluate h

end Evaluation

end Commands

end Peritus.Kernel.Edits
