import Peritus.Kernel.Tree

/-!
The liveness of a session's tree in every reachable aggregate: nothing below an
ended entity is alive, and what has ended stays as it is.
-/

namespace Peritus.Kernel.Liveness

open Peritus.Types TransitionSystem Checked Collections State Reducer Validity Edits
open PostChecks PauseClosure Kernel.Tree

/-- The liveness of the tree, level by level. -/
structure TreeLive (state : KernelAggregate) : Prop where
  endedRun : ∀ run ∈ state.runs, run.phase.isTerminal = true →
    ∀ attempt ∈ state.attempts, attempt.runId = run.id →
      attempt.phase.isTerminal = true
  idleAttempt : ∀ attempt ∈ state.attempts,
    attempt.phase.isTerminal = true ∨ attempt.phase = .submitted →
    ∀ turn ∈ state.turns, turn.attemptId = attempt.id →
      turn.phase.isTerminal = true
  endedTurn : ∀ turn ∈ state.turns, turn.phase.isTerminal = true →
    ∀ action ∈ state.actions, action.turnId = turn.id →
      action.phase.isTerminal = true
  oneRun : ∀ run ∈ state.runs, ∀ run' ∈ state.runs,
    run.phase.isTerminal = false → run'.phase.isTerminal = false → run = run'
  currentAttempt : ∀ run ∈ state.runs, ∀ id,
    run.currentAttemptId = some id ↔
      ∃ attempt ∈ state.attempts, attempt.id = id ∧ attempt.runId = run.id ∧
        attempt.phase.isTerminal = false
  oneTurn : ∀ turn ∈ state.turns, ∀ turn' ∈ state.turns,
    turn.phase.isTerminal = false → turn'.phase.isTerminal = false →
    turn.attemptId = turn'.attemptId → turn = turn'

theorem oneRun_of_liveRuns_le {state : KernelAggregate}
    (hlive : liveRuns state ≤ 1) {run run' : RunState} (hrun : run ∈ state.runs)
    (hrun' : run' ∈ state.runs) (halive : run.phase.isTerminal = false)
    (halive' : run'.phase.isTerminal = false) : run = run' := by
  have hmem : ∀ {r : RunState}, r ∈ state.runs → r.phase.isTerminal = false →
      r ∈ state.runs.filter fun run => !run.phase.isTerminal :=
    fun hr halive => List.mem_filter.mpr ⟨hr, by rw [halive]; rfl⟩
  have hfirst := hmem hrun halive
  have hsecond := hmem hrun' halive'
  unfold liveRuns at hlive
  rw [List.countP_eq_length_filter] at hlive
  generalize state.runs.filter (fun run => !run.phase.isTerminal) = live at *
  match live with
  | [] => cases hfirst
  | [found] =>
      rw [List.mem_singleton.mp hfirst, List.mem_singleton.mp hsecond]
  | _ :: _ :: _ => simp at hlive

theorem treeLive_of_linked {state : KernelAggregate} (hvalid : Valid state)
    (hlinked : Linked state) : TreeLive state where
  endedRun := by
    intro run hrun hended attempt hattempt hparent
    by_contra hlive
    rw [Bool.not_eq_true] at hlive
    have hcurrent := hlinked.runs.currentOf hvalid.skeleton.runIds hrun hattempt
      hparent hlive
    have halive := (hlinked.runs.current run hrun _ hcurrent).1
    rw [hended] at halive
    cases halive
  idleAttempt := by
    intro attempt hattempt hidle turn hturn hparent
    by_contra hlive
    rw [Bool.not_eq_true] at hlive
    obtain ⟨found, hfound, hid, hactive⟩ :=
      hlinked.turns.active turn hturn hlive
    have hsame := eq_of_getElem?_of_unique hvalid.attemptIds hfound hattempt
      (hid.trans hparent)
    rw [← hsame, hactive] at hidle
    rcases hidle with h | h <;> cases h
  endedTurn := by
    intro turn hturn hended action haction hparent
    by_contra hlive
    rw [Bool.not_eq_true] at hlive
    obtain ⟨found, hfound, hid, halive⟩ := hlinked.actions action haction hlive
    have hsame := eq_of_getElem?_of_unique hvalid.turnIds hfound hturn
      (hid.trans hparent)
    rw [hsame, hended] at halive
    cases halive
  oneRun _ hrun _ hrun' :=
    oneRun_of_liveRuns_le hvalid.live hrun hrun'
  currentAttempt := by
    intro run hrun id
    constructor
    · intro hcurrent
      obtain ⟨-, attempt, hattempt, hid, hparent, hlive, -⟩ :=
        hlinked.runs.current run hrun id hcurrent
      exact ⟨attempt, hattempt, hid, hparent, hlive⟩
    · rintro ⟨attempt, hattempt, rfl, hparent, hlive⟩
      exact hlinked.runs.currentOf hvalid.skeleton.runIds hrun hattempt hparent
        hlive
  oneTurn := hlinked.turns.single

/-! ### What has ended -/

/-- Ended entities are untouched.  Reviews and waivers have no later phase but
`Invalidated`. -/
structure Frozen (before next : KernelAggregate) : Prop where
  session : before.session.phase = .closed → next.session.phase = .closed
  runs : ∀ run ∈ before.runs, run.phase.isTerminal = true → run ∈ next.runs
  attempts : ∀ attempt ∈ before.attempts, attempt.phase.isTerminal = true →
    attempt ∈ next.attempts
  turns : ∀ turn ∈ before.turns, turn.phase.isTerminal = true →
    turn ∈ next.turns
  actions : ∀ action ∈ before.actions, action.phase.isTerminal = true →
    action ∈ next.actions
  reviews : ∀ review ∈ before.reviews, review.phase.isTerminal = true →
    review ∈ next.reviews ∨ { review with phase := .invalidated } ∈ next.reviews
  waivers : ∀ waiver ∈ before.waivers, waiver.phase.isTerminal = true →
    waiver ∈ next.waivers ∨ { waiver with phase := .invalidated } ∈ next.waivers

theorem Frozen.refl (state : KernelAggregate) : Frozen state state where
  session h := h
  runs _ h _ := h
  attempts _ h _ := h
  turns _ h _ := h
  actions _ h _ := h
  reviews _ h _ := .inl h
  waivers _ h _ := .inl h

theorem Frozen.trans {before middle next : KernelAggregate}
    (hfirst : Frozen before middle) (hsecond : Frozen middle next) :
    Frozen before next where
  session h := hsecond.session (hfirst.session h)
  runs run h hended := hsecond.runs run (hfirst.runs run h hended) hended
  attempts attempt h hended :=
    hsecond.attempts attempt (hfirst.attempts attempt h hended) hended
  turns turn h hended := hsecond.turns turn (hfirst.turns turn h hended) hended
  actions action h hended :=
    hsecond.actions action (hfirst.actions action h hended) hended
  reviews review h hended := by
    rcases hfirst.reviews review h hended with h | h
    · exact hsecond.reviews review h hended
    · exact .inr ((hsecond.reviews _ h rfl).elim id id)
  waivers waiver h hended := by
    rcases hfirst.waivers waiver h hended with h | h
    · exact hsecond.waivers waiver h hended
    · exact .inr ((hsecond.waivers _ h rfl).elim id id)

theorem mem_set_of_ne {α : Type} {values : List α} {i : Nat} {a row row' : α}
    (hget : values[i]? = some row) (hmem : a ∈ values) (hne : a ≠ row) :
    a ∈ values.set i row' := by
  obtain ⟨j, hj⟩ := List.mem_iff_getElem?.mp hmem
  refine List.mem_iff_getElem?.mpr ⟨j, ?_⟩
  rw [List.getElem?_set_ne, hj]
  rintro rfl
  rw [hget] at hj
  exact hne (Option.some.inj hj).symm

section Edits

variable {before next : KernelAggregate} {applied : AppliedCommand}

theorem runs_frozen {index : Nat} {run run' : RunState}
    (hget : before.runs[index]? = some run)
    (hlive : run.phase.isTerminal = false) :
    ∀ r ∈ before.runs, r.phase.isTerminal = true →
      r ∈ before.runs.set index run' := by
  intro r hr hended
  refine mem_set_of_ne hget hr ?_
  rintro rfl
  rw [hlive] at hended
  cases hended

theorem attempts_frozen {index : Nat} {attempt attempt' : AttemptState}
    (hget : before.attempts[index]? = some attempt)
    (hlive : attempt.phase.isTerminal = false) :
    ∀ a ∈ before.attempts, a.phase.isTerminal = true →
      a ∈ before.attempts.set index attempt' := by
  intro a ha hended
  refine mem_set_of_ne hget ha ?_
  rintro rfl
  rw [hlive] at hended
  cases hended

theorem frozen_of_edit (hedit : Edit before applied next) :
    Frozen before next := by
  have hrefl := Frozen.refl before
  cases hedit with
  | sessionPaused hopen =>
      refine { hrefl with session := fun hclosed => ?_ }
      rw [hopen] at hclosed
      cases hclosed
  | sessionResumed hpaused =>
      refine { hrefl with session := fun hclosed => ?_ }
      rw [hpaused] at hclosed
      cases hclosed
  | sessionClosed => exact { hrefl with session := fun _ => rfl }
  | runStarted =>
      exact { hrefl with runs := fun _ h _ => List.mem_append_left _ h }
  | runPaused hget _ hphase =>
      refine { hrefl with runs := runs_frozen hget ?_ }
      rcases hphase with h | h <;> rw [h] <;> rfl
  | runResumed hget _ hphase =>
      exact { hrefl with runs := runs_frozen hget (hphase ▸ rfl) }
  | runEnded hget hlive =>
      exact { hrefl with
        runs := runs_frozen hget hlive
        attempts := fun _ h hended => mem_ended_of_kept h (.inr hended)
        turns := fun _ h hended => mem_ended_of_kept h (.inr hended)
        actions := fun _ h hended => mem_ended_of_kept h (.inr hended) }
  | attemptStarted hget hphase =>
      refine { hrefl with
        runs := runs_frozen hget ?_
        attempts := fun _ h _ => List.mem_append_left _ h }
      rcases hphase with h | h <;> rw [h] <;> rfl
  | attemptMoved hget hgetAttempt _ hmove =>
      refine { hrefl with
        runs := runs_frozen hget ?_
        attempts := attempts_frozen hgetAttempt ?_ }
      · rcases hmove with ⟨h, -⟩ | ⟨h, -⟩ <;> rw [h] <;> rfl
      · rcases hmove with ⟨-, h, -⟩ | ⟨-, h, -⟩ <;> rw [h] <;> rfl
  | attemptEnded hget hgetAttempt _ hlive hattemptLive =>
      exact { hrefl with
        runs := runs_frozen hget hlive
        attempts := attempts_frozen hgetAttempt hattemptLive
        turns := fun _ h hended => mem_ended_of_kept h (.inr hended)
        actions := fun _ h hended => mem_ended_of_kept h (.inr hended) }
  | turnStarted =>
      exact { hrefl with turns := fun _ h _ => List.mem_append_left _ h }
  | turnCompleted hget hactive =>
      refine { hrefl with turns := fun t ht hended => mem_set_of_ne hget ht ?_ }
      rintro rfl
      rw [hactive] at hended
      cases hended
  | turnEnded hget hactive =>
      refine { hrefl with
        turns := fun t ht hended => mem_set_of_ne hget ht ?_
        actions := fun _ h hended => mem_ended_of_kept h (.inr hended) }
      rintro rfl
      rw [hactive] at hended
      cases hended
  | actionProposed =>
      exact { hrefl with actions := fun _ h _ => List.mem_append_left _ h }
  | actionMoved hget hlive =>
      refine { hrefl with actions := fun a ha hended => mem_set_of_ne hget ha ?_ }
      rintro rfl
      rw [hlive] at hended
      cases hended
  | reviewRequested _ hget _ _ hphase =>
      refine { hrefl with
        attempts := attempts_frozen hget ?_
        reviews := fun _ h _ => .inl (List.mem_append_left _ h) }
      rcases hphase with h | h <;> rw [h] <;> rfl
  | @reviewMoved index review phase _ hget hmove =>
      refine { hrefl with reviews := fun r hr hended => ?_ }
      by_cases hsame : r = review
      · subst hsame
        rcases hmove with h | h | ⟨-, rfl⟩
        · rw [h] at hended
          cases hended
        · rw [h] at hended
          cases hended
        · obtain ⟨hindex, -⟩ := List.getElem?_eq_some_iff.mp hget
          exact .inr (List.mem_set hindex _)
      · exact .inl (mem_set_of_ne hget hr hsame)
  | waiverRequested =>
      exact { hrefl with waivers := fun _ h _ => .inl (List.mem_append_left _ h) }
  | @waiverMoved index waiver phase _ hget hmove =>
      refine { hrefl with waivers := fun w hw hended => ?_ }
      by_cases hsame : w = waiver
      · subst hsame
        rcases hmove with h | ⟨-, rfl⟩
        · rw [h] at hended
          cases hended
        · obtain ⟨hindex, -⟩ := List.getElem?_eq_some_iff.mp hget
          exact .inr (List.mem_set hindex _)
      · exact .inl (mem_set_of_ne hget hw hsame)
  | acceptanceBegun hget hphase =>
      exact { hrefl with runs := runs_frozen hget (hphase ▸ rfl) }
  | accepted hrun hgetAttempt _ hphase _ hattempt =>
      exact { hrefl with
        runs := runs_frozen (run_found hrun).1 (hphase ▸ rfl)
        attempts := attempts_frozen hgetAttempt (hattempt ▸ rfl) }
  | needsChanges hrun hgetAttempt _ hphase _ hattempt =>
      exact { hrefl with
        runs := runs_frozen (run_found hrun).1 (hphase ▸ rfl)
        attempts := attempts_frozen hgetAttempt (hattempt ▸ rfl) }

end Edits

/-! ### Whole runs -/

section Runs

variable {Terms Facts : Type}
variable {evaluateAcceptance : AcceptanceContract Terms → RevisionTuple →
  AcceptanceEvidence Facts → AcceptanceDecision}
variable {before next : KernelAggregate} {request : Request Terms Facts}

theorem linked_of_step (hlinked : Linked before)
    (hstep : Step evaluateAcceptance before request next) : Linked next := by
  obtain ⟨_, after, applied, -, -, hvalid, hedit, rfl⟩ := applied_of_step hstep
  have h := linked_of_edit hvalid hlinked hedit
  exact ⟨h.runs, h.turns, h.actions⟩

theorem frozen_of_step (hstep : Step evaluateAcceptance before request next) :
    Frozen before next := by
  obtain ⟨_, after, applied, -, -, -, hedit, rfl⟩ := applied_of_step hstep
  have h := frozen_of_edit hedit
  exact ⟨h.session, h.runs, h.attempts, h.turns, h.actions, h.reviews,
    h.waivers⟩

/-- A new session has no children. -/
theorem eq_of_opened {state : KernelAggregate} (hopen : Opened state) :
    state =
      { state with
        runs := []
        attempts := []
        turns := []
        actions := []
        reviews := []
        waivers := [] } := by
  obtain ⟨Terms, projectId, sessionId, contract, revision, envelope, event,
    hopen⟩ := hopen
  unfold openSession at hopen
  simp only [bind_eq_ok_iff, pure_eq_ok_iff, Prod.mk.injEq] at hopen
  obtain ⟨_, _, _, _, _, _, _, _, rfl, _⟩ := hopen
  rfl

theorem linked_of_opened {state : KernelAggregate} (hopen : Opened state) :
    Linked state := by
  rw [eq_of_opened hopen]
  exact ⟨⟨nofun, nofun, nofun⟩, ⟨nofun, nofun⟩, nofun⟩

theorem linked_of_reachable {state : KernelAggregate}
    (hreach : Reachable Opened (Step evaluateAcceptance) state) :
    Linked state :=
  hreach.invariant (fun _ hopen => linked_of_opened hopen)
    fun _ _ _ hlinked hstep => linked_of_step hlinked hstep

theorem frozen_of_run {state later : KernelAggregate}
    {requests : List (Request Terms Facts)}
    (hrun : Run (Step evaluateAcceptance) state requests later) :
    Frozen state later :=
  hrun.relates Frozen.refl
    (fun _ _ _ hfirst hsecond => hfirst.trans hsecond)
    fun _ _ _ hstep => frozen_of_step hstep

/-- In every reachable aggregate the tree is live from its current attempt
down, and every later aggregate has its ended entities as they are; only a
review or a waiver that ended may still become `Invalidated`. -/
theorem tree_liveness {state : KernelAggregate}
    (hreach : Reachable Opened (Step evaluateAcceptance) state) :
    TreeLive state ∧
      ∀ requests later, Run (Step evaluateAcceptance) state requests later →
        Frozen state later := by
  refine ⟨?_, fun requests later hrun => frozen_of_run hrun⟩
  exact treeLive_of_linked (valid_of_reachable hreach)
    (linked_of_reachable hreach)

end Runs

/-! ### A submitted review -/

section Trace

/-- A first attempt is submitted and reviewed. -/
def reviewing : List (Request Unit Unit) :=
  [request 1 (.startRun (identifier 1)),
    request 2 (.startAttempt (identifier 1) (identifier 2)),
    request 3 (.submitAttempt (identifier 1) (identifier 2)),
    request 4 (.requestReview (identifier 1) (identifier 2) (identifier 3)),
    request 5 (.beginReview (identifier 3)),
    request 6 (.submitReview (identifier 3))]

def invalidating : Request Unit Unit :=
  request 7 (.invalidateReview (identifier 3))

def submittedThenInvalidated : Option (KernelAggregate × KernelAggregate) :=
  opened.toOption.bind fun created =>
    (accepted created.1 reviewing).bind fun submitted =>
      (accepted submitted [invalidating]).map fun later => (submitted, later)

def reviewPhases (state : KernelAggregate) :
    List (ReviewCycleId × ReviewPhase) :=
  state.reviews.map fun review => (review.id, review.phase)

theorem reviewPhases_submittedThenInvalidated :
    submittedThenInvalidated.map
        (fun s => (reviewPhases s.1, reviewPhases s.2)) =
      some ([(identifier 3, .submitted)], [(identifier 3, .invalidated)]) := by
  decide

theorem run_of_accepted {state next : KernelAggregate}
    {requests : List (Request Unit Unit)}
    (h : accepted state requests = some next) :
    Run (Step unmet) state requests next := by
  induction requests generalizing state with
  | nil =>
      cases h
      exact .nil next
  | cons request rest ih =>
      obtain ⟨middle, hstep, hrest⟩ := step_of_accepted h
      exact .cons hstep (ih hrest)

theorem opened_of_toOption {created : KernelAggregate × KernelEvent}
    (h : opened.toOption = some created) : Opened created.1 :=
  ⟨Unit, _, _, contract, revision, _, created.2, toOption_eq_some_iff.mp h⟩

theorem runs_of_submittedThenInvalidated {submitted later : KernelAggregate}
    (h : submittedThenInvalidated = some (submitted, later)) :
    Reachable Opened (Step unmet) submitted ∧
      Run (Step unmet) submitted [invalidating] later := by
  unfold submittedThenInvalidated at h
  simp only [Option.bind_eq_some_iff, Option.map_eq_some_iff,
    Prod.mk.injEq] at h
  obtain ⟨created, hopened, _, hreviewing, _, hinvalidating, rfl, rfl⟩ := h
  exact ⟨⟨created.1, reviewing, opened_of_toOption hopened,
    run_of_accepted hreviewing⟩, run_of_accepted hinvalidating⟩

/-- A submitted review has ended, and an accepted command invalidates it. -/
theorem invalidated_after_submission :
    ∃ submitted later, Reachable Opened (Step unmet) submitted ∧
      Run (Step unmet) submitted [invalidating] later ∧
      ReviewPhase.isTerminal .submitted = true ∧
      reviewPhases submitted = [(identifier 3, .submitted)] ∧
      reviewPhases later = [(identifier 3, .invalidated)] := by
  obtain ⟨⟨submitted, later⟩, htrace, hphases⟩ :=
    Option.map_eq_some_iff.mp reviewPhases_submittedThenInvalidated
  obtain ⟨hreach, hrun⟩ := runs_of_submittedThenInvalidated htrace
  obtain ⟨hsubmitted, hlater⟩ := Prod.mk.inj hphases
  exact ⟨submitted, later, hreach, hrun, rfl, hsubmitted, hlater⟩

theorem tree_liveness_of_submission :
    ∃ submitted later, reviewPhases submitted = [(identifier 3, .submitted)] ∧
      TreeLive submitted ∧ Frozen submitted later := by
  obtain ⟨⟨submitted, later⟩, htrace, hphases⟩ :=
    Option.map_eq_some_iff.mp reviewPhases_submittedThenInvalidated
  obtain ⟨hreach, hrun⟩ := runs_of_submittedThenInvalidated htrace
  obtain ⟨hlive, hfrozen⟩ := tree_liveness hreach
  exact ⟨submitted, later, (Prod.mk.inj hphases).1, hlive,
    hfrozen [invalidating] later hrun⟩

end Trace

end Peritus.Kernel.Liveness
