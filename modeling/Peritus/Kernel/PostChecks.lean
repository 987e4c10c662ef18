import Peritus.Kernel.Preservation

/-!
The reducer checks its own result three times over before it emits an event.
From a valid aggregate none of these checks can fail.
-/

namespace Peritus.Kernel.PostChecks

open Peritus.Types TransitionSystem Checked Collections State State.KernelAggregate
open Reducer Edges Validity Edits Preservation PauseClosure

/-! ### The event cursor -/

theorem valid_appendEvent {state : KernelAggregate} {envelope : CommandEnvelope}
    {sequence : EventSequence} (hvalid : Valid state)
    (hcommand : envelope.commandId ∉ state.acceptedCommandIds)
    (hevent : envelope.eventId ∉ state.eventIds) :
    Valid (appendEvent state envelope sequence) :=
  { hvalid with
    lengths := by
      unfold appendEvent
      rw [List.length_append, List.length_append, hvalid.lengths]
      rfl
    head := List.getLast?_concat
    commandIds := nodup_append_singleton hvalid.commandIds hcommand
    eventIds := nodup_append_singleton hvalid.eventIds hevent
    skeleton := hvalid.skeleton
    runs := hvalid.runs }

section Preflight

variable {Terms Facts : Type} {state : KernelAggregate}
variable {envelope : CommandEnvelope} {inputs : ReducerInputs Terms Facts}
variable {sequence : EventSequence}

theorem preflight_eq_ok_iff :
    preflight state envelope inputs = .ok sequence ↔
      state.isValid = true ∧ envelope.revision = state.revision ∧
        envelope.expectedPreviousEventId = some state.headEventId ∧
        (inputs.contract.id = state.contractBinding.contractId ∧
          inputs.contract.contentDigest = state.contractBinding.contractDigest ∧
          (inputs.contract.bind state.revision).isSome = true) ∧
        envelope.commandId ∉ state.acceptedCommandIds ∧
        envelope.eventId ∉ state.eventIds ∧
        state.lastSequence.checkedNext = .ok sequence := by
  unfold preflight containsCommand containsEvent
  simp only [ensure_bind_eq_ok_iff, decide_eq_true_eq, Bool.not_eq_true',
    Bool.or_eq_false_iff, decide_eq_false_iff_not, ne_eq, not_not,
    Option.isNone_eq_false_iff, and_assoc]
  refine and_congr_right fun _ => and_congr_right fun _ =>
    and_congr_right fun _ => and_congr_right fun _ => and_congr_right fun _ =>
    and_congr_right fun _ => and_congr_right fun _ => and_congr_right fun _ => ?_
  cases state.lastSequence.checkedNext <;> simp

end Preflight

/-! ### What a command may report -/

/-- A computation that never finds the aggregate broken, and whose results are
`ordinary`. -/
def Reports {α : Type} (ordinary : α → Prop) (x : Except KernelError α) : Prop :=
  Satisfies ordinary (fun error => error.kind ≠ .invalidAggregate) x

section Reports

variable {α β : Type} {ordinary : β → Prop}

theorem reports_ensure_bind_iff {condition : Bool} {error : KernelError}
    {f : Unit → Except KernelError β} :
    Reports ordinary (ensure condition error >>= f) ↔
      (condition = false → error.kind ≠ .invalidAggregate) ∧
        (condition = true → Reports ordinary (f ())) := by
  cases condition
  · exact ⟨fun h => ⟨fun _ => h, nofun⟩, fun h => h.1 rfl⟩
  · exact ⟨fun h => ⟨nofun, fun _ => h⟩, fun h => h.2 rfl⟩

theorem reports_orElseError_bind_iff {lookup : Option α} {error : KernelError}
    {f : α → Except KernelError β} :
    Reports ordinary (orElseError lookup error >>= f) ↔
      (lookup = none → error.kind ≠ .invalidAggregate) ∧
        ∀ a, lookup = some a → Reports ordinary (f a) := by
  cases lookup with
  | none => exact ⟨fun h => ⟨fun _ => h, nofun⟩, fun h => h.1 rfl⟩
  | some a =>
      refine ⟨fun h => ⟨nofun, ?_⟩, fun h => h.2 a rfl⟩
      rintro b hb
      cases hb
      exact h

theorem reports_pure_iff {b : β} :
    Reports ordinary (pure b) ↔ ordinary b := Iff.rfl

theorem Reports.bind {x : Except KernelError α} {f : α → Except KernelError β}
    (hx : Reports (fun _ => True) x) (hf : ∀ a, Reports ordinary (f a)) :
    Reports ordinary (x >>= f) :=
  Satisfies.bind hx fun a _ _ => hf a

end Reports

section Handlers

variable {before : KernelAggregate} {Terms Facts : Type}
variable {inputs : ReducerInputs Terms Facts}

/-- Every command but the evaluation reports no acceptance. -/
def Ordinary (x : Applied) : Prop :=
  Reports (fun result => result.2.eventKind ≠ .acceptanceAccepted) x

@[simp] theorem kind_new (kind : KernelErrorKind) :
    (KernelError.new kind).kind = kind := rfl

@[simp] theorem kind_ofEntity (kind : KernelErrorKind)
    (entity : LifecycleEntity) :
    (KernelError.ofEntity kind entity).kind = kind := rfl

@[simp] theorem kind_ofAuthority (kind : KernelErrorKind)
    (authority : AuthorityInputKind) :
    (KernelError.ofAuthority kind authority).kind = kind := rfl

@[simp] theorem eventKind_new (kind : KernelEventKind)
    (subject : KernelSubject) :
    (AppliedCommand.new kind subject).eventKind = kind := rfl

theorem reports_runAndAttempt {runId : RunId} {attemptId : AttemptId} :
    Reports (fun _ => True) (runAndAttempt before runId attemptId) := by
  unfold runAndAttempt
  simp only [reports_ensure_bind_iff, reports_orElseError_bind_iff,
    reports_pure_iff]
  simp

theorem reports_activeTurn {attemptId : AttemptId} {turnId : TurnId} :
    Reports (fun _ => True) (activeTurn before attemptId turnId) := by
  unfold activeTurn
  simp only [reports_ensure_bind_iff, reports_orElseError_bind_iff,
    reports_pure_iff]
  simp

theorem reports_actionIn {actionId : ActionId} {expected : ActionPhase → Bool} :
    Reports (fun _ => True) (actionIn before actionId expected) := by
  unfold actionIn
  simp only [reports_ensure_bind_iff, reports_orElseError_bind_iff,
    reports_pure_iff]
  simp

theorem reports_acceptanceSubject {runId : RunId} :
    Reports (fun _ => True) (acceptanceSubject before runId) := by
  unfold acceptanceSubject
  simp only [reports_orElseError_bind_iff, reports_pure_iff]
  simp

theorem ordinary_pauseSession :
    Ordinary (pauseSession before) := by
  unfold Ordinary pauseSession
  simp only [reports_ensure_bind_iff, reports_pure_iff]
  simp

theorem ordinary_resumeSession :
    Ordinary (resumeSession before) := by
  unfold Ordinary resumeSession
  simp only [reports_ensure_bind_iff, reports_pure_iff]
  simp

theorem ordinary_closeSession :
    Ordinary (closeSession before) := by
  unfold Ordinary closeSession
  simp only [reports_ensure_bind_iff, reports_pure_iff]
  simp

theorem ordinary_startRun {runId : RunId} :
    Ordinary (startRun before runId inputs) := by
  unfold Ordinary startRun
  simp only [reports_ensure_bind_iff, reports_orElseError_bind_iff,
    reports_pure_iff]
  simp

theorem ordinary_pauseRun {runId : RunId} :
    Ordinary (pauseRun before runId) := by
  unfold Ordinary pauseRun
  simp only [reports_ensure_bind_iff, reports_orElseError_bind_iff,
    reports_pure_iff]
  simp

theorem ordinary_resumeRun {runId : RunId} :
    Ordinary (resumeRun before runId) := by
  unfold Ordinary resumeRun
  simp only [reports_ensure_bind_iff, reports_orElseError_bind_iff,
    reports_pure_iff]
  simp

theorem ordinary_startAttempt {runId : RunId} {attemptId : AttemptId} :
    Ordinary (startAttempt before runId attemptId inputs) := by
  unfold Ordinary startAttempt
  simp only [reports_ensure_bind_iff, reports_orElseError_bind_iff,
    reports_pure_iff]
  simp

theorem ordinary_startTurn {attemptId : AttemptId} {turnId : TurnId} :
    Ordinary (startTurn before attemptId turnId) := by
  unfold Ordinary startTurn
  simp only [reports_ensure_bind_iff, reports_orElseError_bind_iff,
    reports_pure_iff]
  simp

theorem ordinary_completeTurn {attemptId : AttemptId} {turnId : TurnId} :
    Ordinary (completeTurn before attemptId turnId) := by
  unfold Ordinary completeTurn
  refine reports_activeTurn.bind ?_
  simp only [reports_ensure_bind_iff, reports_pure_iff]
  simp

theorem ordinary_proposeAction {turnId : TurnId} {actionId : ActionId}
    {digest : Sha256Digest} {actorId : ActorId} {role : Policy.ActorRole}
    {environmentId : EnvironmentId} :
    Ordinary (proposeAction before turnId actionId digest actorId role
      environmentId) := by
  unfold Ordinary proposeAction
  simp only [reports_ensure_bind_iff, reports_orElseError_bind_iff,
    reports_pure_iff]
  simp

theorem ordinary_requestWaiver {runId : RunId} {reviewId : ReviewCycleId}
    {findingId : FindingId} :
    Ordinary (requestWaiver before runId reviewId findingId) := by
  unfold Ordinary requestWaiver
  simp only [reports_ensure_bind_iff, reports_orElseError_bind_iff,
    reports_pure_iff]
  simp

theorem ordinary_terminateRun {runId : RunId} {runPhase : RunPhase}
    {attemptPhase : AttemptPhase} {turnPhase : TurnPhase}
    {actionPhase : ActionPhase} {eventKind : KernelEventKind}
    (hkind : eventKind ≠ .acceptanceAccepted) :
    Ordinary (terminateRun before runId runPhase attemptPhase turnPhase
      actionPhase eventKind) := by
  unfold Ordinary terminateRun
  simp only [reports_ensure_bind_iff, reports_orElseError_bind_iff,
    reports_pure_iff]
  simp [hkind]

theorem ordinary_resumeAttempt {runId : RunId} {attemptId : AttemptId} :
    Ordinary (resumeAttempt before runId attemptId) := by
  unfold Ordinary resumeAttempt
  refine reports_runAndAttempt.bind ?_
  simp only [reports_ensure_bind_iff, reports_pure_iff]
  simp

theorem ordinary_submitAttempt {runId : RunId} {attemptId : AttemptId} :
    Ordinary (submitAttempt before runId attemptId) := by
  unfold Ordinary submitAttempt
  refine reports_runAndAttempt.bind ?_
  simp only [reports_ensure_bind_iff, reports_pure_iff]
  simp

theorem ordinary_terminateAttempt {runId : RunId} {attemptId : AttemptId}
    {attemptPhase : AttemptPhase} {turnPhase : TurnPhase}
    {actionPhase : ActionPhase} {eventKind : KernelEventKind}
    (hkind : eventKind ≠ .acceptanceAccepted) :
    Ordinary (terminateAttempt before runId attemptId attemptPhase turnPhase
      actionPhase eventKind) := by
  unfold Ordinary terminateAttempt
  refine reports_runAndAttempt.bind ?_
  simp only [reports_ensure_bind_iff, reports_pure_iff]
  simp [hkind]

theorem ordinary_terminateTurn {attemptId : AttemptId} {turnId : TurnId}
    {turnPhase : TurnPhase} {actionPhase : ActionPhase}
    {eventKind : KernelEventKind} (hkind : eventKind ≠ .acceptanceAccepted) :
    Ordinary (terminateTurn before attemptId turnId turnPhase actionPhase
      eventKind) := by
  unfold Ordinary terminateTurn
  refine reports_activeTurn.bind ?_
  simp only [reports_pure_iff]
  simp [hkind]

theorem ordinary_authorizeAction {actionId : ActionId} :
    Ordinary (authorizeAction before actionId inputs) := by
  unfold Ordinary authorizeAction
  refine reports_actionIn.bind ?_
  rintro ⟨index, action⟩
  simp only [reports_orElseError_bind_iff]
  refine ⟨by simp, fun transition _ => ?_⟩
  refine Reports.bind ?_ ?_
  · unfold authorizationWitness
    simp only [reports_ensure_bind_iff, reports_pure_iff]
    simp
  · simp only [reports_pure_iff]
    simp

theorem ordinary_actionPhase {actionId : ActionId}
    {expected : ActionPhase → Bool} {target : ActionPhase}
    {eventKind : KernelEventKind} (hkind : eventKind ≠ .acceptanceAccepted) :
    Ordinary (actionPhase before actionId expected target eventKind) := by
  unfold Ordinary actionPhase
  refine reports_actionIn.bind ?_
  simp only [reports_pure_iff]
  simp [hkind]

theorem ordinary_requestReview {runId : RunId} {attemptId : AttemptId}
    {reviewId : ReviewCycleId} :
    Ordinary (requestReview before runId attemptId reviewId inputs) := by
  unfold Ordinary requestReview
  refine reports_runAndAttempt.bind ?_
  simp only [reports_ensure_bind_iff, reports_pure_iff]
  simp

theorem ordinary_reviewPhase {reviewId : ReviewCycleId}
    {expected : ReviewPhase → Bool} {target : ReviewPhase}
    {eventKind : KernelEventKind} (hkind : eventKind ≠ .acceptanceAccepted) :
    Ordinary (reviewPhase before reviewId expected target eventKind) := by
  unfold Ordinary reviewPhase
  simp only [reports_ensure_bind_iff, reports_orElseError_bind_iff,
    reports_pure_iff]
  simp [hkind]

theorem ordinary_waiverPhase {findingId : FindingId}
    {expected : WaiverPhase → Bool} {target : WaiverPhase}
    {eventKind : KernelEventKind} (hkind : eventKind ≠ .acceptanceAccepted) :
    Ordinary (waiverPhase before findingId expected target eventKind) := by
  unfold Ordinary waiverPhase
  simp only [reports_ensure_bind_iff, reports_orElseError_bind_iff,
    reports_pure_iff]
  simp [hkind]

theorem ordinary_beginAcceptance {runId : RunId} :
    Ordinary (beginAcceptance before runId) := by
  unfold Ordinary beginAcceptance
  refine reports_acceptanceSubject.bind ?_
  simp only [reports_ensure_bind_iff, reports_pure_iff]
  simp

variable {evaluateAcceptance : AcceptanceContract Terms → RevisionTuple →
  AcceptanceEvidence Facts → AcceptanceDecision}

/-- The review of a waiver is there: the skeleton of a valid aggregate has it,
of the same run. -/
theorem ordinary_grantWaiver (hvalid : Valid before) {findingId : FindingId} :
    Ordinary (grantWaiver evaluateAcceptance before findingId inputs) := by
  unfold Ordinary grantWaiver
  simp only [reports_ensure_bind_iff, reports_orElseError_bind_iff,
    reports_pure_iff, kind_ofEntity, kind_ofAuthority, kind_new, eventKind_new]
  refine ⟨nofun, ?_⟩
  rintro ⟨index, waiver⟩ hwaiver
  obtain ⟨-, hmem, -⟩ := waiver_found hwaiver
  obtain ⟨attemptId, hreview⟩ := hvalid.skeleton.waiverReview _
    (List.mem_map_of_mem hmem)
  obtain ⟨parent, hparent, hpair⟩ := List.mem_map.mp hreview
  obtain ⟨hid, hpair⟩ := Prod.mk.inj hpair
  have hrun := (Prod.mk.inj hpair).1
  obtain ⟨reviewIndex, hfound⟩ :=
    (findIndexed_key_iff hvalid.reviewIds).mpr ⟨hparent, hid⟩
  rw [KernelAggregate.review, hfound]
  simp [hrun]

theorem ordinary_applyCommand (hvalid : Valid before) {command : KernelCommand}
    (hcommand : ∀ runId, command ≠ .evaluateAcceptance runId) :
    Ordinary (applyCommand evaluateAcceptance before command inputs) := by
  cases command with
  | pauseSession => exact ordinary_pauseSession
  | resumeSession => exact ordinary_resumeSession
  | closeSession => exact ordinary_closeSession
  | startRun => exact ordinary_startRun
  | pauseRun => exact ordinary_pauseRun
  | resumeRun => exact ordinary_resumeRun
  | cancelRun | failRun | exhaustRun | rejectRun =>
      exact ordinary_terminateRun nofun
  | startAttempt => exact ordinary_startAttempt
  | resumeAttempt => exact ordinary_resumeAttempt
  | submitAttempt => exact ordinary_submitAttempt
  | failAttempt | exhaustAttempt => exact ordinary_terminateAttempt nofun
  | startTurn => exact ordinary_startTurn
  | completeTurn => exact ordinary_completeTurn
  | failTurn | cancelTurn => exact ordinary_terminateTurn nofun
  | proposeAction => exact ordinary_proposeAction
  | authorizeAction => exact ordinary_authorizeAction
  | dispatchAction | completeAction | failAction | cancelAction =>
      exact ordinary_actionPhase nofun
  | requestReview => exact ordinary_requestReview
  | beginReview =>
      unfold applyCommand beginReview
      exact ordinary_reviewPhase nofun
  | submitReview =>
      unfold applyCommand submitReview
      exact ordinary_reviewPhase nofun
  | invalidateReview =>
      unfold applyCommand invalidateReview
      exact ordinary_reviewPhase nofun
  | requestWaiver => exact ordinary_requestWaiver
  | grantWaiver => exact ordinary_grantWaiver hvalid
  | denyWaiver =>
      unfold applyCommand denyWaiver
      exact ordinary_waiverPhase nofun
  | invalidateWaiver =>
      unfold applyCommand invalidateWaiver
      exact ordinary_waiverPhase nofun
  | beginAcceptance => exact ordinary_beginAcceptance
  | evaluateAcceptance runId => exact absurd rfl (hcommand runId)

theorem reports_evaluate {runId : RunId} :
    Reports (fun _ => True)
      (evaluate evaluateAcceptance before runId inputs) := by
  unfold evaluate
  refine reports_acceptanceSubject.bind ?_
  rintro ⟨⟨index, run⟩, attemptIndex, attempt⟩
  simp only [reports_ensure_bind_iff, reports_orElseError_bind_iff,
    kind_ofEntity, kind_ofAuthority]
  refine ⟨by simp, fun _ => ⟨by simp, fun evidence _ => ⟨by simp, fun _ => ?_⟩⟩⟩
  split <;> exact trivial

theorem reports_applyCommand (hvalid : Valid before)
    {command : KernelCommand} :
    Reports (fun _ => True)
      (applyCommand evaluateAcceptance before command inputs) := by
  by_cases hcommand : ∃ runId, command = .evaluateAcceptance runId
  · obtain ⟨runId, rfl⟩ := hcommand
    exact reports_evaluate
  · have h : Ordinary (applyCommand evaluateAcceptance before command inputs) :=
      ordinary_applyCommand hvalid fun runId h => hcommand ⟨runId, h⟩
    exact h.imp (fun _ _ => trivial) fun _ h => h

end Handlers

/-! ### The step checks -/

theorem criticalStepIsLegal_of_not_critical {before after : KernelAggregate}
    {kind : KernelEventKind} {subject : KernelSubject}
    (hordinary : isCritical kind = false) :
    criticalStepIsLegal before after kind subject = true := by
  cases kind with
  | sessionPaused | sessionResumed | sessionClosed | acceptanceAccepted
  | acceptanceNeedsChanges => cases hordinary
  | _ => cases subject <;> rfl

theorem acceptanceStepIsLegal_of_set {before after : KernelAggregate}
    {index : Nat} {run run' : RunState} {phase : RunPhase}
    {acceptance : AcceptancePhase}
    (hunique : (after.runs.map (·.id)).Nodup)
    (hrun : before.run run.id = some (index, run))
    (hruns : after.runs = before.runs.set index run')
    (hreviewing : run.phase = .reviewing)
    (hevaluating : run.acceptance = .evaluating) (hid : run'.id = run.id)
    (hphase : run'.phase = phase) (hacceptance : run'.acceptance = acceptance) :
    acceptanceStepIsLegal before after run.id phase acceptance = true := by
  have hmem : run' ∈ after.runs := by
    rw [hruns]
    obtain ⟨hindex, -⟩ := List.getElem?_eq_some_iff.mp (run_found hrun).1
    exact List.mem_set hindex run'
  obtain ⟨found, hfound⟩ :=
    (findIndexed_key_iff hunique).mpr ⟨hmem, hid⟩
  unfold acceptanceStepIsLegal
  rw [hrun, KernelAggregate.run, hfound]
  simp [hreviewing, hevaluating, hphase, hacceptance]

theorem criticalStepIsLegal_of_edit {before next : KernelAggregate}
    {applied : AppliedCommand} {envelope : CommandEnvelope}
    {sequence : EventSequence} (hvalid : Valid before)
    (hedit : Edit before applied next) :
    criticalStepIsLegal before (appendEvent next envelope sequence)
      applied.eventKind applied.subject = true := by
  have hunique := (valid_of_edit hvalid hedit).skeleton.runIds
  cases hedit with
  | sessionPaused hopen =>
      simp [criticalStepIsLegal, sessionStepIsLegal, AppliedCommand.new,
        setSessionPhase, appendEvent, hopen]
  | sessionResumed hpaused =>
      simp [criticalStepIsLegal, sessionStepIsLegal, AppliedCommand.new,
        setSessionPhase, appendEvent, hpaused]
  | sessionClosed hclosed =>
      simp [criticalStepIsLegal, sessionStepIsLegal, AppliedCommand.new,
        setSessionPhase, appendEvent, hclosed]
  | accepted hrun _ _ hphase hacceptance =>
      exact acceptanceStepIsLegal_of_set hunique hrun rfl hphase hacceptance
        rfl rfl rfl
  | needsChanges hrun _ _ hphase hacceptance =>
      exact acceptanceStepIsLegal_of_set hunique hrun rfl hphase hacceptance
        rfl rfl rfl
  | _ => exact criticalStepIsLegal_of_not_critical ‹_›

/-- Only an accepting evaluation makes a run `Accepted`. -/
theorem accepted_of_edit {before next : KernelAggregate}
    {applied : AppliedCommand} (hedit : Edit before applied next)
    {run : RunState} (hmem : run ∈ next.runs)
    (haccepted : run.phase = .accepted) :
    run ∈ before.runs ∨ applied.eventKind = .acceptanceAccepted := by
  have hset : ∀ {index : Nat} {run' : RunState},
      run ∈ before.runs.set index run' → run'.phase ≠ .accepted →
      run ∈ before.runs := by
    intro index run' hrun hphase
    rcases mem_set hrun with rfl | hrun
    · exact absurd haccepted hphase
    · exact hrun
  cases hedit with
  | runStarted _ _ _ _ hphase =>
      rcases List.mem_append.mp hmem with hmem | hmem
      · exact .inl hmem
      · rw [List.mem_singleton.mp hmem, hphase] at haccepted
        cases haccepted
  | runPaused | runResumed | attemptStarted | attemptEnded | needsChanges =>
      exact .inl (hset hmem nofun)
  | runEnded _ _ _ hphase => exact .inl (hset hmem hphase)
  | attemptMoved _ _ _ hmove =>
      rcases hmove with ⟨-, -, rfl, -⟩ | ⟨-, -, rfl, -⟩ <;>
        exact .inl (hset hmem nofun)
  | acceptanceBegun _ hphase =>
      refine .inl (hset hmem ?_)
      rw [hphase]
      nofun
  | accepted => exact .inr rfl
  | _ => exact .inl hmem

theorem noNewAcceptance_of_kept {before after : KernelAggregate}
    (hvalid : Valid before)
    (hkept : ∀ run ∈ after.runs, run.phase = .accepted → run ∈ before.runs) :
    noNewAcceptance before after = true := by
  unfold noNewAcceptance
  rw [List.all_eq_true]
  intro run hmem
  by_cases haccepted : run.phase = .accepted
  · obtain ⟨index, hfound⟩ := (findIndexed_key_iff hvalid.skeleton.runIds).mpr
      ⟨hkept run hmem haccepted, rfl⟩
    rw [KernelAggregate.run, hfound]
    simp [haccepted]
  · simp [haccepted]


/-! ### The reducer -/

section Reduce

variable {Terms Facts : Type}
variable {evaluateAcceptance : AcceptanceContract Terms → RevisionTuple →
  AcceptanceEvidence Facts → AcceptanceDecision}
variable {before next : KernelAggregate} {applied : AppliedCommand}
variable {envelope : CommandEnvelope} {command : KernelCommand}
variable {inputs : ReducerInputs Terms Facts} {sequence : EventSequence}

theorem valid_of_applyCommand
    (hpreflight : preflight before envelope inputs = .ok sequence)
    (happly : applyCommand evaluateAcceptance before command inputs =
      .ok (next, applied)) :
    Valid (appendEvent next envelope sequence) := by
  obtain ⟨hvalid, -, -, -, hcommand, hevent, -⟩ :=
    preflight_eq_ok_iff.mp hpreflight
  have hedit := edit_of_applyCommand (isValid_iff.mp hvalid) happly
  have hhead := headKept_of_edit hedit
  refine valid_appendEvent (valid_of_edit (isValid_iff.mp hvalid) hedit) ?_ ?_
  · rw [hhead.acceptedCommandIds]
    exact hcommand
  · rw [hhead.eventIds]
    exact hevent

theorem noNewAcceptance_of_applyCommand (hvalid : Valid before)
    (happly : applyCommand evaluateAcceptance before command inputs =
      .ok (next, applied))
    (hkind : applied.eventKind ≠ .acceptanceAccepted) :
    noNewAcceptance before (appendEvent next envelope sequence) = true := by
  refine noNewAcceptance_of_kept hvalid fun run hmem haccepted => ?_
  have hedit := edit_of_applyCommand hvalid happly
  exact (accepted_of_edit hedit hmem haccepted).resolve_right hkind

theorem reports_preflight (hvalid : Valid before) :
    Reports (fun _ => True) (preflight before envelope inputs) := by
  unfold preflight
  simp only [reports_ensure_bind_iff, isValid_iff.mpr hvalid, kind_new]
  refine ⟨nofun, fun _ => ⟨nofun, fun _ => ⟨nofun, fun _ => ⟨nofun, fun _ =>
    ⟨nofun, fun _ => ⟨nofun, fun _ => ?_⟩⟩⟩⟩⟩⟩
  cases before.lastSequence.checkedNext with
  | ok sequence => exact trivial
  | error error => exact nofun

/-- The checks after the command all pass. -/
theorem checks_of_applyCommand
    (hpreflight : preflight before envelope inputs = .ok sequence)
    (happly : applyCommand evaluateAcceptance before command inputs =
      .ok (next, applied)) :
    let after := appendEvent next envelope sequence
    criticalStepIsLegal before after applied.eventKind applied.subject = true ∧
      (decide (applied.eventKind = .acceptanceAccepted) ||
        noNewAcceptance before after) = true ∧
      after.isValid = true := by
  have hvalid := isValid_iff.mp (preflight_eq_ok_iff.mp hpreflight).1
  have hedit := edit_of_applyCommand hvalid happly
  refine ⟨criticalStepIsLegal_of_edit hvalid hedit, ?_,
    isValid_iff.mpr (valid_of_applyCommand hpreflight happly)⟩
  rw [Bool.or_eq_true, decide_eq_true_eq, or_iff_not_imp_left]
  exact noNewAcceptance_of_applyCommand hvalid happly

/-- A valid aggregate is never found broken. -/
theorem reports_reduceChecked (hvalid : Valid before) :
    Reports (fun _ => True)
      (reduceChecked evaluateAcceptance before envelope command inputs) := by
  unfold reduceChecked
  refine Satisfies.bind (reports_preflight hvalid) fun sequence hpreflight _ => ?_
  refine Satisfies.bind (reports_applyCommand hvalid) ?_
  rintro ⟨next, applied⟩ happly -
  obtain ⟨hcritical, hacceptance, hafter⟩ :=
    checks_of_applyCommand hpreflight happly
  simp only [hcritical, hacceptance, hafter, ensure_true]
  exact trivial

/-- A command that is applied after preflight is accepted. -/
theorem exists_reduce_eq_applied
    (hpreflight : preflight before envelope inputs = .ok sequence)
    (happly : applyCommand evaluateAcceptance before command inputs =
      .ok (next, applied)) :
    ∃ transition, reduce evaluateAcceptance before envelope command inputs =
      .applied transition := by
  obtain ⟨hcritical, hacceptance, hafter⟩ :=
    checks_of_applyCommand hpreflight happly
  have hchecked : ∃ transition, reduceChecked evaluateAcceptance before envelope
      command inputs = .ok transition := by
    unfold reduceChecked
    simp only [bind_eq_ok_iff, ensure_eq_ok_iff, pure_eq_ok_iff]
    exact ⟨_, sequence, hpreflight, ⟨next, applied⟩, happly, (), hcritical, (),
      hacceptance, (), hafter, rfl⟩
  obtain ⟨transition, hchecked⟩ := hchecked
  refine ⟨transition, ?_⟩
  unfold reduce
  rw [hchecked]

/-- A step is a command applied between preflight and the event cursor. -/
theorem applied_of_step {request : Request Terms Facts}
    (hstep : Step evaluateAcceptance before request next) :
    ∃ sequence after applied,
      preflight before request.envelope request.inputs = .ok sequence ∧
      applyCommand evaluateAcceptance before request.command request.inputs =
        .ok (after, applied) ∧
      Valid before ∧ Edit before applied after ∧
      next = appendEvent after request.envelope sequence := by
  obtain ⟨transition, hreduce, rfl⟩ := hstep
  unfold reduce at hreduce
  split at hreduce
  · rename_i found hchecked
    cases hreduce
    obtain ⟨sequence, after, applied, hpreflight, happly, heq⟩ :=
      reduceChecked_eq_ok hchecked
    have hvalid := isValid_iff.mp (preflight_eq_ok_iff.mp hpreflight).1
    have hedit := edit_of_applyCommand hvalid happly
    refine ⟨sequence, after, applied, hpreflight, happly, hvalid, hedit, ?_⟩
    rw [heq, ← (headKept_of_edit hedit).revision]
    rfl
  · cases hreduce

theorem valid_of_step {request : Request Terms Facts}
    (hstep : Step evaluateAcceptance before request next) : Valid next := by
  obtain ⟨sequence, after, applied, hpreflight, happly, -, -, rfl⟩ :=
    applied_of_step hstep
  exact valid_of_applyCommand hpreflight happly

theorem valid_of_opened {state : KernelAggregate} (hopen : Opened state) :
    Valid state := by
  obtain ⟨Terms, projectId, sessionId, contract, revision, envelope, event,
    hopen⟩ := hopen
  unfold openSession at hopen
  simp only [bind_eq_ok_iff, ensure_eq_ok_iff, pure_eq_ok_iff,
    Prod.mk.injEq] at hopen
  obtain ⟨_, _, _, _, _, _, _, hvalid, rfl, _⟩ := hopen
  exact isValid_iff.mp hvalid

theorem valid_of_reachable {state : KernelAggregate}
    (hreach : Reachable Opened (Step evaluateAcceptance) state) : Valid state :=
  hreach.invariant (fun _ hopen => valid_of_opened hopen)
    fun _ _ _ _ hstep => valid_of_step hstep

/-- From a valid aggregate a command that passes preflight and is applied
passes every check made afterwards, the reducer never answers that the
aggregate is broken, and every reachable aggregate is valid. -/
theorem post_checks_redundant :
    (∀ state : KernelAggregate, state.isValid = true →
      ∀ (envelope : CommandEnvelope) (command : KernelCommand)
        (inputs : ReducerInputs Terms Facts),
        (∀ sequence next applied,
          preflight state envelope inputs = .ok sequence →
          applyCommand evaluateAcceptance state command inputs =
            .ok (next, applied) →
          let after := appendEvent next envelope sequence
          criticalStepIsLegal state after applied.eventKind applied.subject =
              true ∧
            ((∀ runId, command ≠ .evaluateAcceptance runId) →
              noNewAcceptance state after = true) ∧
            after.isValid = true) ∧
        ∀ unchanged error,
          reduce evaluateAcceptance state envelope command inputs =
            .rejected unchanged error →
          error.kind ≠ .invalidAggregate) ∧
      ∀ state, Reachable Opened (Step evaluateAcceptance) state →
        state.isValid = true := by
  refine ⟨fun state hvalid envelope command inputs => ⟨?_, ?_⟩, ?_⟩
  · intro sequence next applied hpreflight happly after
    have hsound := isValid_iff.mp hvalid
    refine ⟨criticalStepIsLegal_of_edit hsound
      (edit_of_applyCommand hsound happly), fun hcommand => ?_,
      isValid_iff.mpr (valid_of_applyCommand hpreflight happly)⟩
    exact noNewAcceptance_of_applyCommand hsound happly
      ((ordinary_applyCommand hsound hcommand).of_eq_ok happly)
  · intro unchanged error hreduce
    unfold reduce at hreduce
    split at hreduce
    · cases hreduce
    · rename_i found hchecked
      cases hreduce
      exact (reports_reduceChecked (isValid_iff.mp hvalid)).of_eq_error hchecked
  · exact fun state hreach => isValid_iff.mpr (valid_of_reachable hreach)

end Reduce

theorem post_checks_redundant_of_failed : ∃ paused sequence next applied,
    phases paused = (.paused, [.paused]) ∧
      preflight paused failing.envelope failing.inputs = .ok sequence ∧
      applyCommand unmet paused failing.command failing.inputs =
        .ok (next, applied) ∧
      (appendEvent next failing.envelope sequence).isValid = true := by
  have hchecks : pausedThenFailed.map (fun (paused, _) =>
      (phases paused, paused.isValid,
        (preflight paused failing.envelope failing.inputs).toOption.isSome,
        (applyCommand unmet paused failing.command
          failing.inputs).toOption.isSome)) =
      some ((.paused, [.paused]), true, true, true) := by decide
  obtain ⟨⟨paused, failed⟩, -, hchecks⟩ := Option.map_eq_some_iff.mp hchecks
  simp only [Prod.mk.injEq] at hchecks
  obtain ⟨hphases, hvalid, hpreflight, happly⟩ := hchecks
  obtain ⟨sequence, hpreflight⟩ := exists_ok_of_toOption_isSome hpreflight
  obtain ⟨⟨next, applied⟩, happly⟩ := exists_ok_of_toOption_isSome happly
  have hredundant := (@post_checks_redundant Unit Unit unmet).1 paused hvalid
    failing.envelope failing.command failing.inputs
  exact ⟨paused, sequence, next, applied, hphases, hpreflight, happly,
    (hredundant.1 sequence next applied hpreflight happly).2.2⟩

end Peritus.Kernel.PostChecks
