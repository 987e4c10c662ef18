import Peritus.Kernel.Edits
import Peritus.Kernel.PauseClosure

/-!
The checks after a command are redundant.  Every edit of a valid aggregate is a
legal step to a valid aggregate, and no command finds a valid aggregate broken.
-/

namespace Peritus.Kernel.Preservation

open Collections State State.KernelAggregate
open Reducer Validity Edits PauseClosure

/-! ### What edits leave of the skeleton -/

section Skeletons

variable {state : KernelAggregate} {index : Nat}

theorem sound_setRun {run run' : RunState}
    (hget : state.runs[index]? = some run) (hid : run'.id = run.id)
    (hsound : (skeleton state).Sound) :
    (skeleton (setRun state index run')).Sound := by
  have hsame : skeleton (setRun state index run') = skeleton state := by
    unfold skeleton setRun
    rw [map_set_of_eq hget hid]
  rw [hsame]
  exact hsound

theorem sound_setAttempt {attempt attempt' : AttemptState}
    (hget : state.attempts[index]? = some attempt)
    (hid : attempt'.id = attempt.id) (hrun : attempt'.runId = attempt.runId)
    (hsound : (skeleton state).Sound) :
    (skeleton (setAttempt state index attempt')).Sound := by
  have hsame : skeleton (setAttempt state index attempt') = skeleton state := by
    unfold skeleton setAttempt
    rw [map_set_of_eq hget (by rw [hid, hrun])]
  rw [hsame]
  exact hsound

theorem sound_setTurn {turn turn' : TurnState}
    (hget : state.turns[index]? = some turn) (hid : turn'.id = turn.id)
    (hattempt : turn'.attemptId = turn.attemptId)
    (hsound : (skeleton state).Sound) :
    (skeleton (setTurn state index turn')).Sound := by
  have hsame : skeleton (setTurn state index turn') = skeleton state := by
    unfold skeleton setTurn
    rw [map_set_of_eq hget (by rw [hid, hattempt])]
  rw [hsame]
  exact hsound

theorem sound_setAction {action action' : ActionState}
    (hget : state.actions[index]? = some action) (hid : action'.id = action.id)
    (hturn : action'.turnId = action.turnId)
    (hsound : (skeleton state).Sound) :
    (skeleton (setAction state index action')).Sound := by
  have hsame : skeleton (setAction state index action') = skeleton state := by
    unfold skeleton setAction
    rw [map_set_of_eq hget (by rw [hid, hturn])]
  rw [hsame]
  exact hsound

theorem sound_setReview {review review' : ReviewState}
    (hget : state.reviews[index]? = some review) (hid : review'.id = review.id)
    (hrun : review'.runId = review.runId)
    (hattempt : review'.attemptId = review.attemptId)
    (hsound : (skeleton state).Sound) :
    (skeleton (setReview state index review')).Sound := by
  have hsame : skeleton (setReview state index review') = skeleton state := by
    unfold skeleton setReview
    rw [map_set_of_eq hget (by rw [hid, hrun, hattempt])]
  rw [hsame]
  exact hsound

theorem sound_setWaiver {waiver waiver' : WaiverState}
    (hget : state.waivers[index]? = some waiver)
    (hid : waiver'.findingId = waiver.findingId)
    (hreview : waiver'.reviewCycleId = waiver.reviewCycleId)
    (hrun : waiver'.runId = waiver.runId)
    (hsound : (skeleton state).Sound) :
    (skeleton (setWaiver state index waiver')).Sound := by
  have hsame : skeleton (setWaiver state index waiver') = skeleton state := by
    unfold skeleton setWaiver
    rw [map_set_of_eq hget (by rw [hid, hreview, hrun])]
  rw [hsame]
  exact hsound

theorem skeleton_endAttempts {belongs : AttemptState → Bool}
    {phase : AttemptPhase} :
    skeleton (endAttempts state belongs phase) = skeleton state := by
  have hkept : ∀ attempt ∈ state.attempts,
      ((fun a : AttemptState => (a.id, a.runId)) ∘ fun attempt =>
        if belongs attempt && !attempt.phase.isTerminal then
          { attempt with phase }
        else attempt) attempt = (attempt.id, attempt.runId) := by
    intro attempt _
    simp only [Function.comp_apply]
    split <;> rfl
  unfold skeleton endAttempts
  rw [List.map_map, List.map_congr_left hkept]

theorem skeleton_endTurns {belongs : TurnState → Bool} {phase : TurnPhase} :
    skeleton (endTurns state belongs phase) = skeleton state := by
  have hkept : ∀ turn ∈ state.turns,
      ((fun t : TurnState => (t.id, t.attemptId)) ∘ fun turn =>
        if belongs turn && !turn.phase.isTerminal then { turn with phase }
        else turn) turn = (turn.id, turn.attemptId) := by
    intro turn _
    simp only [Function.comp_apply]
    split <;> rfl
  unfold skeleton endTurns
  rw [List.map_map, List.map_congr_left hkept]

theorem skeleton_endActions {belongs : ActionState → Bool}
    {phase : ActionPhase} :
    skeleton (endActions state belongs phase) = skeleton state := by
  have hkept : ∀ action ∈ state.actions,
      ((fun a : ActionState => (a.id, a.turnId)) ∘ fun action =>
        if belongs action && !action.phase.isTerminal then
          { action with phase }
        else action) action = (action.id, action.turnId) := by
    intro action _
    simp only [Function.comp_apply]
    split <;> rfl
  unfold skeleton endActions
  rw [List.map_map, List.map_congr_left hkept]

theorem skeleton_addRun {run : RunState} :
    skeleton { state with runs := state.runs ++ [run] } =
      { skeleton state with runs := (skeleton state).runs ++ [run.id] } := by
  unfold skeleton
  rw [List.map_append, List.map_singleton]

theorem skeleton_addAttempt {attempt : AttemptState} :
    skeleton { state with attempts := state.attempts ++ [attempt] } =
      { skeleton state with
        attempts :=
          (skeleton state).attempts ++ [(attempt.id, attempt.runId)] } := by
  unfold skeleton
  rw [List.map_append, List.map_singleton]

theorem skeleton_addTurn {turn : TurnState} :
    skeleton { state with turns := state.turns ++ [turn] } =
      { skeleton state with
        turns := (skeleton state).turns ++ [(turn.id, turn.attemptId)] } := by
  unfold skeleton
  rw [List.map_append, List.map_singleton]

theorem skeleton_addAction {action : ActionState} :
    skeleton { state with actions := state.actions ++ [action] } =
      { skeleton state with
        actions := (skeleton state).actions ++ [(action.id, action.turnId)] } := by
  unfold skeleton
  rw [List.map_append, List.map_singleton]

theorem skeleton_addReview {review : ReviewState} :
    skeleton { state with reviews := state.reviews ++ [review] } =
      { skeleton state with
        reviews := (skeleton state).reviews ++
          [(review.id, review.runId, review.attemptId)] } := by
  unfold skeleton
  rw [List.map_append, List.map_singleton]

theorem skeleton_addWaiver {waiver : WaiverState} :
    skeleton { state with waivers := state.waivers ++ [waiver] } =
      { skeleton state with
        waivers := (skeleton state).waivers ++
          [(waiver.findingId, waiver.reviewCycleId, waiver.runId)] } := by
  unfold skeleton
  rw [List.map_append, List.map_singleton]

end Skeletons

theorem skeleton_sound_of_edit {before next : KernelAggregate}
    {applied : AppliedCommand} (hvalid : Valid before)
    (hedit : Edit before applied next) : (skeleton next).Sound := by
  have h := hvalid.skeleton
  cases hedit with
  | sessionPaused => exact h
  | sessionResumed => exact h
  | sessionClosed => exact h
  | runStarted _ hfresh =>
      rw [skeleton_addRun]
      exact h.addRun hfresh
  | runPaused hget =>
      exact sound_setRun hget rfl h
  | runResumed hget =>
      exact sound_setRun hget rfl h
  | runEnded hget =>
      refine sound_setRun hget rfl ?_
      rw [skeleton_endActions, skeleton_endTurns, skeleton_endAttempts]
      exact h
  | attemptStarted hget _ _ hfresh hrun =>
      refine sound_setRun hget rfl ?_
      rw [skeleton_addAttempt]
      refine h.addAttempt (fun hmem => hfresh (mem_map_fst.mp hmem)) ?_
      rw [hrun]
      exact List.mem_map_of_mem (List.mem_of_getElem? hget)
  | attemptMoved hget hgetAttempt =>
      exact sound_setRun hget rfl (sound_setAttempt hgetAttempt rfl rfl h)
  | attemptEnded hget hgetAttempt =>
      refine sound_setRun hget rfl (sound_setAttempt hgetAttempt rfl rfl ?_)
      rw [skeleton_endActions, skeleton_endTurns]
      exact h
  | turnStarted hmem _ hfresh _ hattempt =>
      rw [skeleton_addTurn]
      refine h.addTurn (fun hmem => hfresh (mem_map_fst.mp hmem)) ?_
      rw [hattempt]
      exact mem_map_fst.mpr (List.mem_map_of_mem hmem)
  | turnCompleted hget =>
      exact sound_setTurn hget rfl rfl h
  | turnEnded hget =>
      refine sound_setTurn hget rfl rfl ?_
      rw [skeleton_endActions]
      exact h
  | actionProposed hmem _ hfresh hturn =>
      rw [skeleton_addAction]
      refine h.addAction (fun hmem => hfresh (mem_map_fst.mp hmem)) ?_
      rw [hturn]
      exact mem_map_fst.mpr (List.mem_map_of_mem hmem)
  | actionMoved hget _ hid hturn =>
      exact sound_setAction hget hid hturn h
  | reviewRequested _ hget hparent _ _ hfresh hrun hattempt =>
      refine sound_setAttempt hget rfl rfl ?_
      rw [skeleton_addReview]
      refine h.addReview (fun hmem => hfresh (mem_map_fst.mp hmem)) ?_
      rw [hrun, hattempt, ← hparent]
      exact List.mem_map_of_mem (List.mem_of_getElem? hget)
  | reviewMoved hget =>
      exact sound_setReview hget rfl rfl rfl h
  | waiverRequested hmem hfresh hreview hrun =>
      have hparent := List.mem_map_of_mem
        (f := fun r : ReviewState => (r.id, r.runId, r.attemptId)) hmem
      rw [← hreview, ← hrun] at hparent
      rw [skeleton_addWaiver]
      exact h.addWaiver (fun hmem => hfresh (mem_map_fst.mp hmem)) hparent
  | waiverMoved hget =>
      exact sound_setWaiver hget rfl rfl rfl h
  | acceptanceBegun hget =>
      exact sound_setRun hget rfl h
  | accepted hrun hgetAttempt =>
      exact sound_setRun (run_found hrun).1 rfl
        (sound_setAttempt hgetAttempt rfl rfl h)
  | needsChanges hrun hgetAttempt =>
      exact sound_setRun (run_found hrun).1 rfl
        (sound_setAttempt hgetAttempt rfl rfl h)

/-- What only the event cursor and session creation write. -/
structure HeadKept (before next : KernelAggregate) : Prop where
  contractBinding : next.contractBinding = before.contractBinding
  revision : next.revision = before.revision
  acceptedCommandIds : next.acceptedCommandIds = before.acceptedCommandIds
  eventIds : next.eventIds = before.eventIds
  headEventId : next.headEventId = before.headEventId
  lastSequence : next.lastSequence = before.lastSequence
  sessionId : next.session.id = before.session.id

theorem headKept_of_edit {before next : KernelAggregate}
    {applied : AppliedCommand} (hedit : Edit before applied next) :
    HeadKept before next := by
  cases hedit <;> exact ⟨rfl, rfl, rfl, rfl, rfl, rfl, rfl⟩

/-! ### Runs -/

theorem runIsValid_iff {state : KernelAggregate} {run : RunState} :
    runIsValid state run = true ↔
      run.revision = state.revision ∧
        (run.phase = .accepted ↔ run.acceptance = .accepted) ∧
        (run.phase.isTerminal = true → run.phase ≠ .accepted →
          run.acceptance = .terminated) := by
  unfold runIsValid
  simp only [Bool.and_eq_true, decide_eq_true_eq, beq_iff_eq, decide_eq_decide,
    Bool.not_eq_true', Bool.and_eq_false_iff, decide_eq_false_iff_not, not_not,
    ne_eq, and_assoc]
  refine and_congr_right fun _ => and_congr_right fun _ => ?_
  constructor
  · rintro ((hlive | haccepted) | hended) hterminal hrejected
    · rw [hlive] at hterminal
      cases hterminal
    · exact absurd haccepted hrejected
    · exact hended
  · intro h
    by_cases hterminal : run.phase.isTerminal = true
    · by_cases haccepted : run.phase = .accepted
      · exact .inl (.inr haccepted)
      · exact .inr (h hterminal haccepted)
    · exact .inl (.inl (Bool.eq_false_iff.mpr hterminal))

/-- The phases and the acceptance of runs, and how many of them are live. -/
structure RunsKept (before next : KernelAggregate) : Prop where
  session : next.session = before.session
  runs : ∀ run ∈ next.runs, runIsValid before run = true
  live : liveRuns next ≤ liveRuns before

theorem runsKept_of_runs_eq {before next : KernelAggregate}
    (hvalid : Valid before) (hsession : next.session = before.session)
    (hruns : next.runs = before.runs) : RunsKept before next := by
  refine ⟨hsession, ?_, ?_⟩
  · rw [hruns]
    exact hvalid.runs
  · unfold liveRuns
    rw [hruns]

/-- One run moves, and is not brought back to life. -/
theorem runsKept_of_set {before next : KernelAggregate} {index : Nat}
    {run run' : RunState} (hvalid : Valid before)
    (hget : before.runs[index]? = some run)
    (hsession : next.session = before.session)
    (hruns : next.runs = before.runs.set index run')
    (hrun : runIsValid before run = true → runIsValid before run' = true)
    (hlive : run'.phase.isTerminal = false → run.phase.isTerminal = false) :
    RunsKept before next := by
  refine ⟨hsession, ?_, ?_⟩
  · intro found hfound
    rw [hruns] at hfound
    rcases mem_set hfound with rfl | hmem
    · exact hrun (hvalid.runs run (List.mem_of_getElem? hget))
    · exact hvalid.runs found hmem
  · unfold liveRuns
    rw [hruns]
    refine countP_set_le hget ?_
    simpa only [Bool.not_eq_true'] using hlive

/-- One live run moves to a live phase. -/
theorem runsKept_of_live {before next : KernelAggregate} {index : Nat}
    {run run' : RunState} (hvalid : Valid before)
    (hget : before.runs[index]? = some run)
    (hsession : next.session = before.session)
    (hruns : next.runs = before.runs.set index run')
    (hrevision : run'.revision = run.revision)
    (hbefore : run.phase.isTerminal = false)
    (hafter : run'.phase.isTerminal = false)
    (hacceptance :
      run.acceptance ≠ .accepted → run'.acceptance ≠ .accepted) :
    RunsKept before next := by
  refine runsKept_of_set hvalid hget hsession hruns ?_ fun _ => hbefore
  have hlive : ∀ {phase : RunPhase}, phase.isTerminal = false →
      phase ≠ .accepted := by
    rintro _ hterminal rfl
    cases hterminal
  simp only [runIsValid_iff]
  rintro ⟨hsame, haccepted, -⟩
  refine ⟨hrevision.trans hsame, ?_, ?_⟩
  · exact iff_of_false (hlive hafter)
      (hacceptance fun h => hlive hbefore (haccepted.mpr h))
  · intro hterminal
    rw [hafter] at hterminal
    cases hterminal

/-- One live run comes to its end. -/
theorem runsKept_of_end {before next : KernelAggregate} {index : Nat}
    {run run' : RunState} (hvalid : Valid before)
    (hget : before.runs[index]? = some run)
    (hsession : next.session = before.session)
    (hruns : next.runs = before.runs.set index run')
    (hrevision : run'.revision = run.revision)
    (hterminal : run'.phase.isTerminal = true)
    (hend : run'.phase = .accepted ∧ run'.acceptance = .accepted ∨
      run'.phase ≠ .accepted ∧ run'.acceptance = .terminated) :
    RunsKept before next := by
  refine runsKept_of_set hvalid hget hsession hruns ?_ ?_
  · simp only [runIsValid_iff]
    rintro ⟨hsame, -, -⟩
    refine ⟨hrevision.trans hsame, ?_⟩
    rcases hend with ⟨hphase, hacceptance⟩ | ⟨hphase, hacceptance⟩
    · exact ⟨iff_of_true hphase hacceptance, fun _ h => absurd hphase h⟩
    · refine ⟨iff_of_false hphase ?_, fun _ _ => hacceptance⟩
      rw [hacceptance]
      nofun
  · intro hlive
    rw [hterminal] at hlive
    cases hlive

theorem valid_of_runsKept {before next : KernelAggregate}
    (hvalid : Valid before) (hkept : RunsKept before next)
    (hhead : HeadKept before next) (hskeleton : (skeleton next).Sound) :
    Valid next where
  revision := by
    rw [hhead.contractBinding, hhead.revision, hvalid.revision]
  contract := by
    rw [hhead.contractBinding, hhead.revision, hvalid.contract]
  lengths := by
    rw [hhead.acceptedCommandIds, hhead.eventIds, hvalid.lengths]
  head := by
    rw [hhead.eventIds, hhead.headEventId, hvalid.head]
  commandIds := hhead.acceptedCommandIds ▸ hvalid.commandIds
  eventIds := hhead.eventIds ▸ hvalid.eventIds
  skeleton := hskeleton
  runs := by
    intro run hrun
    have h := runIsValid_iff.mp (hkept.runs run hrun)
    rw [← hhead.revision] at h
    exact runIsValid_iff.mpr h
  live := hkept.live.trans hvalid.live
  closed := by
    intro hclosed
    rw [hkept.session] at hclosed
    exact Nat.le_zero.mp ((hvalid.closed hclosed) ▸ hkept.live)

theorem liveRuns_eq_zero {state : KernelAggregate}
    (hlive : state.hasLiveRun = false) : liveRuns state = 0 := by
  unfold liveRuns
  rw [List.countP_eq_zero]
  exact fun run hrun => List.any_eq_false.mp hlive run hrun

/-! ### Validity -/

theorem valid_of_sessionClosed {before : KernelAggregate}
    (hvalid : Valid before) (hlive : before.hasLiveRun = false) :
    Valid (setSessionPhase before .closed) :=
  { hvalid with
    runs := hvalid.runs
    closed := fun _ => liveRuns_eq_zero hlive }

/-- A new run is the only live one. -/
theorem valid_of_runStarted {before : KernelAggregate} {run : RunState}
    (hvalid : Valid before) (hopen : before.session.phase = .open)
    (hlive : before.hasLiveRun = false)
    (hrun : runIsValid before run = true)
    (hskeleton :
      (skeleton { before with runs := before.runs ++ [run] }).Sound) :
    Valid { before with runs := before.runs ++ [run] } := by
  refine { hvalid with skeleton := hskeleton, runs := ?_, live := ?_,
                       closed := ?_ }
  · intro found hfound
    rcases List.mem_append.mp hfound with hmem | hmem
    · exact hvalid.runs found hmem
    · rw [List.mem_singleton.mp hmem]
      exact hrun
  · have hzero := liveRuns_eq_zero hlive
    unfold liveRuns at hzero ⊢
    rw [List.countP_append, hzero, Nat.zero_add]
    exact List.countP_le_length
  · intro hclosed
    rw [hopen] at hclosed
    cases hclosed

theorem valid_of_edit {before next : KernelAggregate}
    {applied : AppliedCommand} (hvalid : Valid before)
    (hedit : Edit before applied next) : Valid next := by
  have hskeleton := skeleton_sound_of_edit hvalid hedit
  have hhead := headKept_of_edit hedit
  cases hedit with
  | sessionPaused => exact { hvalid with runs := hvalid.runs, closed := by rintro ⟨⟩ }
  | sessionResumed => exact { hvalid with runs := hvalid.runs, closed := by rintro ⟨⟩ }
  | sessionClosed _ hlive => exact valid_of_sessionClosed hvalid hlive
  | runStarted hopen _ hlive hrevision hphase hacceptance =>
      refine valid_of_runStarted hvalid hopen hlive ?_ hskeleton
      rw [runIsValid_iff, hrevision, hphase, hacceptance]
      simp [RunPhase.isTerminal]
  | runPaused hget _ hphase =>
      refine valid_of_runsKept hvalid ?_ hhead hskeleton
      refine runsKept_of_live hvalid hget rfl rfl rfl ?_ rfl id
      rcases hphase with h | h <;> rw [h] <;> rfl
  | runResumed hget _ hphase =>
      refine valid_of_runsKept hvalid ?_ hhead hskeleton
      exact runsKept_of_live hvalid hget rfl rfl rfl (hphase ▸ rfl) rfl id
  | runEnded hget _ hterminal hphase =>
      refine valid_of_runsKept hvalid ?_ hhead hskeleton
      exact runsKept_of_end hvalid hget rfl rfl rfl hterminal
        (.inr ⟨hphase, rfl⟩)
  | attemptStarted hget hphase =>
      refine valid_of_runsKept hvalid ?_ hhead hskeleton
      refine runsKept_of_live hvalid hget rfl rfl rfl ?_ rfl (by rintro - ⟨⟩)
      rcases hphase with h | h <;> rw [h] <;> rfl
  | attemptMoved hget _ _ hmove =>
      refine valid_of_runsKept hvalid ?_ hhead hskeleton
      rcases hmove with ⟨h, -, rfl, -⟩ | ⟨h, -, rfl, -⟩
      · exact runsKept_of_live hvalid hget rfl rfl rfl (h ▸ rfl) rfl (by rintro - ⟨⟩)
      · exact runsKept_of_live hvalid hget rfl rfl rfl (h ▸ rfl) rfl (by rintro - ⟨⟩)
  | attemptEnded hget _ _ hlive =>
      refine valid_of_runsKept hvalid ?_ hhead hskeleton
      exact runsKept_of_live hvalid hget rfl rfl rfl hlive rfl (by rintro - ⟨⟩)
  | acceptanceBegun hget hphase =>
      refine valid_of_runsKept hvalid ?_ hhead hskeleton
      refine runsKept_of_live hvalid hget rfl rfl rfl (hphase ▸ rfl) ?_ (by rintro - ⟨⟩)
      rw [hphase]
      rfl
  | accepted hrun =>
      refine valid_of_runsKept hvalid ?_ hhead hskeleton
      exact runsKept_of_end hvalid (run_found hrun).1 rfl rfl rfl rfl
        (.inl ⟨rfl, rfl⟩)
  | needsChanges hrun _ _ hphase =>
      refine valid_of_runsKept hvalid ?_ hhead hskeleton
      exact runsKept_of_live hvalid (run_found hrun).1 rfl rfl rfl
        (hphase ▸ rfl) rfl (by rintro - ⟨⟩)
  | turnStarted | turnCompleted | turnEnded | actionProposed | actionMoved
  | reviewRequested | reviewMoved | waiverRequested | waiverMoved =>
      refine valid_of_runsKept hvalid ?_ hhead hskeleton
      exact runsKept_of_runs_eq hvalid rfl rfl

end Peritus.Kernel.Preservation
