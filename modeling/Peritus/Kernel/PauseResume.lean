import Peritus.Kernel.Acceptance

/-!
A run paused and resumed.  Resuming always hands the run back as `Running`, so
the pause of a fixing run cannot be undone.
-/

namespace Peritus.Kernel.PauseResume

open Peritus.Types TransitionSystem Checked Collections State Reducer Edges Validity
open Edits Preservation PostChecks PauseClosure Kernel.Tree Liveness Acceptance

/-- The commands of the run and the attempt reducers. -/
def isRunOrAttempt : KernelCommand → Bool
  | .startRun _ => true
  | .pauseRun _ => true
  | .resumeRun _ => true
  | .cancelRun _ => true
  | .failRun _ => true
  | .exhaustRun _ => true
  | .rejectRun _ => true
  | .startAttempt _ _ => true
  | .resumeAttempt _ _ => true
  | .submitAttempt _ _ => true
  | .failAttempt _ _ => true
  | .exhaustAttempt _ _ => true
  | _ => false

/-! ### What a command's success reads -/

section Success

variable {α β ε : Type}

theorem isOk_ensure_bind {condition : Bool} {error : ε}
    {f : Unit → Except ε β} :
    (ensure condition error >>= f).isOk = (condition && (f ()).isOk) := by
  cases condition <;> rfl

theorem isOk_orElseError_bind {lookup : Option α} {error : KernelError}
    {f : α → Except KernelError β} :
    (orElseError lookup error >>= f).isOk =
      lookup.any fun a => (f a).isOk := by
  cases lookup <;> rfl

theorem isOk_pure {b : β} : (pure b : Except ε β).isOk = true := rfl

theorem isOk_eq_true_iff {x : Except ε β} : x.isOk = true ↔ ∃ b, x = .ok b := by
  cases x with
  | error e => exact ⟨nofun, nofun⟩
  | ok b => exact ⟨fun _ => ⟨b, rfl⟩, fun _ => rfl⟩

end Success

section Cursor

variable {Terms Facts : Type}
variable {evaluateAcceptance : AcceptanceContract Terms → RevisionTuple →
  AcceptanceEvidence Facts → AcceptanceDecision}
variable {state : KernelAggregate} {envelope : CommandEnvelope}
variable {sequence : EventSequence} {inputs : ReducerInputs Terms Facts}

/-- No run or attempt command reads the event cursor. -/
theorem isOk_applyCommand_appendEvent {command : KernelCommand}
    (hcommand : isRunOrAttempt command = true) :
    (applyCommand evaluateAcceptance (appendEvent state envelope sequence)
        command inputs).isOk =
      (applyCommand evaluateAcceptance state command inputs).isOk := by
  cases command with
  | startRun =>
      unfold applyCommand startRun
      simp only [isOk_ensure_bind, isOk_orElseError_bind, isOk_pure]
      rfl
  | pauseRun =>
      unfold applyCommand pauseRun
      simp only [isOk_ensure_bind, isOk_orElseError_bind, isOk_pure]
      rfl
  | resumeRun =>
      unfold applyCommand resumeRun
      simp only [isOk_ensure_bind, isOk_orElseError_bind, isOk_pure]
      rfl
  | cancelRun | failRun | exhaustRun | rejectRun =>
      unfold applyCommand terminateRun
      simp only [isOk_ensure_bind, isOk_orElseError_bind, isOk_pure]
      rfl
  | startAttempt =>
      unfold applyCommand startAttempt
      simp only [isOk_ensure_bind, isOk_orElseError_bind, isOk_pure]
      rfl
  | resumeAttempt =>
      unfold applyCommand resumeAttempt runAndAttempt
      simp only [bind_assoc, pure_bind, isOk_ensure_bind, isOk_orElseError_bind,
        isOk_pure]
      rfl
  | submitAttempt =>
      unfold applyCommand submitAttempt runAndAttempt
      simp only [bind_assoc, pure_bind, isOk_ensure_bind, isOk_orElseError_bind,
        isOk_pure]
      rfl
  | failAttempt | exhaustAttempt =>
      unfold applyCommand terminateAttempt runAndAttempt
      simp only [bind_assoc, pure_bind, isOk_ensure_bind, isOk_orElseError_bind,
        isOk_pure]
      rfl
  | _ => cases hcommand

end Cursor

/-! ### Fresh identities -/

/-- One identifier more than a list holds is not in it. -/
theorem exists_fresh {ids : List OpaqueIdentifier}
    (hroom : ids.length < 2 ^ 64) : ∃ id, id ∉ ids := by
  by_contra hall
  have hcovered : List.range' 1 (2 ^ 64) ⊆ ids.map (·.value) := by
    intro n hn
    rw [List.mem_range'_1] at hn
    by_contra hmissing
    refine hall ⟨⟨n, by omega, lt_of_lt_of_le hn.2 (by decide)⟩, ?_⟩
    intro hmem
    exact hmissing (List.mem_map_of_mem hmem)
  have hlength :=
    (List.Nodup.subperm (List.nodup_range' 1) hcovered).length_le
  rw [List.length_range', List.length_map] at hlength
  omega

/-- The sequence number of the head counts the events. -/
def Counted (state : KernelAggregate) : Prop :=
  state.eventIds.length = state.lastSequence.get

section Steps

variable {Terms Facts : Type}
variable {evaluateAcceptance : AcceptanceContract Terms → RevisionTuple →
  AcceptanceEvidence Facts → AcceptanceDecision}
variable {before next : KernelAggregate}

theorem counted_of_step {request : Request Terms Facts}
    (hcounted : Counted before)
    (hstep : Step evaluateAcceptance before request next) : Counted next := by
  obtain ⟨sequence, after, applied, hpreflight, -, -, hedit, rfl⟩ :=
    applied_of_step hstep
  obtain ⟨-, -, -, -, -, -, hsequence⟩ := preflight_eq_ok_iff.mp hpreflight
  unfold Counted appendEvent at *
  rw [List.length_append, (headKept_of_edit hedit).eventIds, hcounted,
    PositiveNumber.checkedNext_eq_ok_iff.mp hsequence]
  rfl

theorem counted_of_opened {state : KernelAggregate} (hopen : Opened state) :
    Counted state := by
  obtain ⟨Terms, projectId, sessionId, contract, revision, envelope, event,
    hopen⟩ := hopen
  unfold openSession at hopen
  simp only [bind_eq_ok_iff, pure_eq_ok_iff, Prod.mk.injEq] at hopen
  obtain ⟨_, _, _, _, _, _, _, _, rfl, _⟩ := hopen
  rfl

theorem counted_of_reachable {state : KernelAggregate}
    (hreach : Reachable Opened (Step evaluateAcceptance) state) :
    Counted state :=
  hreach.invariant (fun _ hopen => counted_of_opened hopen)
    fun _ _ _ hcounted hstep => counted_of_step hcounted hstep

/-! ### Accepted commands -/

variable (evaluateAcceptance) in
/-- Some envelope gets the command accepted. -/
def Accepts (state : KernelAggregate) (command : KernelCommand)
    (inputs : ReducerInputs Terms Facts) : Prop :=
  ∃ envelope transition, reduce evaluateAcceptance state envelope command inputs =
    .applied transition

/-- The contract supplied is the one bound to the session. -/
def ContractBound (state : KernelAggregate)
    (inputs : ReducerInputs Terms Facts) : Prop :=
  inputs.contract.id = state.contractBinding.contractId ∧
    inputs.contract.contentDigest = state.contractBinding.contractDigest ∧
    (inputs.contract.bind state.revision).isSome = true

/-- A command is accepted exactly if it applies, under the bound contract and
with room for its event. -/
theorem accepts_iff {state : KernelAggregate} (hvalid : Valid state)
    (hcounted : Counted state) {command : KernelCommand}
    {inputs : ReducerInputs Terms Facts} :
    Accepts evaluateAcceptance state command inputs ↔
      ContractBound state inputs ∧ state.lastSequence.get + 1 ≤ u64Max ∧
        (applyCommand evaluateAcceptance state command inputs).isOk = true := by
  constructor
  · rintro ⟨envelope, transition, hreduce⟩
    have hstep : Step evaluateAcceptance state ⟨envelope, command, inputs⟩
        transition.aggregate := ⟨transition, hreduce, rfl⟩
    obtain ⟨sequence, after, applied, hpreflight, happly, -⟩ :=
      applied_of_step hstep
    obtain ⟨-, -, -, hcontract, -, -, hsequence⟩ :=
      preflight_eq_ok_iff.mp hpreflight
    refine ⟨hcontract, ?_, isOk_eq_true_iff.mpr ⟨_, happly⟩⟩
    rw [← PositiveNumber.checkedNext_eq_ok_iff.mp hsequence]
    exact sequence.bound
  · rintro ⟨hcontract, hroom, hok⟩
    obtain ⟨⟨after, applied⟩, happly⟩ := isOk_eq_true_iff.mp hok
    have hshort : state.eventIds.length < 2 ^ 64 := by
      rw [hcounted]
      exact state.lastSequence.get_lt
    obtain ⟨eventId, hevent⟩ := exists_fresh hshort
    obtain ⟨commandId, hcommand⟩ := exists_fresh (hvalid.lengths ▸ hshort)
    have hpreflight : preflight state
        ⟨commandId, eventId, some state.headEventId, state.revision⟩ inputs =
          .ok ⟨state.lastSequence.get + 1, Nat.succ_pos _, hroom⟩ :=
      preflight_eq_ok_iff.mpr ⟨isValid_iff.mpr hvalid, rfl, rfl, hcontract,
        hcommand, hevent, PositiveNumber.checkedNext_eq_ok_iff.mpr rfl⟩
    exact ⟨_, exists_reduce_eq_applied hpreflight happly⟩

end Steps

/-! ### The pair of commands -/

section Pair

variable {before after : KernelAggregate} {applied : AppliedCommand}
variable {runId : RunId}

theorem pauseRun_eq_ok (h : pauseRun before runId = .ok (after, applied)) :
    ∃ index run, before.run runId = some (index, run) ∧
      (run.phase = .running ∨ run.phase = .fixing) ∧
      after = setRun before index { run with phase := .paused } := by
  unfold pauseRun at h
  simp only [ensure_bind_eq_ok_iff, orElseError_bind_eq_ok_iff, pure_eq_ok_iff,
    Prod.mk.injEq, Bool.not_eq_true', Bool.or_eq_false_iff,
    decide_eq_false_iff_not, Bool.not_eq_false', Bool.or_eq_true,
    decide_eq_true_eq, not_not, ne_eq] at h
  obtain ⟨⟨index, run⟩, hrun, ⟨-, hphase⟩, rfl, -⟩ := h
  exact ⟨index, run, hrun, hphase, rfl⟩

theorem resumeRun_eq_ok (h : resumeRun before runId = .ok (after, applied)) :
    ∃ index run, before.run runId = some (index, run) ∧
      after = setRun before index { run with phase := .running } := by
  unfold resumeRun at h
  simp only [ensure_bind_eq_ok_iff, orElseError_bind_eq_ok_iff, pure_eq_ok_iff,
    Prod.mk.injEq] at h
  obtain ⟨⟨index, run⟩, hrun, -, rfl, -⟩ := h
  exact ⟨index, run, hrun, rfl⟩

/-- A run is found where its row was replaced. -/
theorem run_setRun (hvalid : Valid before) {index : Nat} {run run' : RunState}
    (hrun : before.run runId = some (index, run)) (hid : run'.id = run.id) :
    (setRun before index run').run runId = some (index, run') := by
  obtain ⟨hget, -, rfl⟩ := run_found hrun
  have hunique : ((setRun before index run').runs.map (·.id)).Nodup := by
    unfold setRun
    rw [map_set_of_eq hget hid]
    exact hvalid.skeleton.runIds
  have hgetSet : (setRun before index run').runs[index]? = some run' := by
    obtain ⟨hindex, -⟩ := List.getElem?_eq_some_iff.mp hget
    exact List.getElem?_set_self hindex
  unfold KernelAggregate.run
  rw [← hid]
  exact findIndexed_of_unique hunique hgetSet

theorem setRun_self {index : Nat} {run : RunState}
    (hget : before.runs[index]? = some run) : setRun before index run = before := by
  obtain ⟨hindex, rfl⟩ := List.getElem?_eq_some_iff.mp hget
  unfold setRun
  rw [List.set_getElem_self]

variable {Terms Facts : Type}
variable {evaluateAcceptance : AcceptanceContract Terms → RevisionTuple →
  AcceptanceEvidence Facts → AcceptanceDecision}
variable {paused resumed : KernelAggregate} {pause resume : Request Terms Facts}

/-- Two events later the run is as it was, but `Running`. -/
theorem resumed_eq (hpause : Step evaluateAcceptance before pause paused)
    (hpauseCommand : pause.command = .pauseRun runId)
    (hresume : Step evaluateAcceptance paused resume resumed)
    (hresumeCommand : resume.command = .resumeRun runId) :
    ∃ index run sequence sequence',
      before.run runId = some (index, run) ∧
        (run.phase = .running ∨ run.phase = .fixing) ∧
        sequence'.get = before.lastSequence.get + 2 ∧
        resumed = appendEvent
          (appendEvent
            (setRun before index { run with phase := .running })
            pause.envelope sequence) resume.envelope sequence' := by
  obtain ⟨sequence, after, applied, hpreflight, happly, hvalid, -, rfl⟩ :=
    applied_of_step hpause
  rw [hpauseCommand] at happly
  obtain ⟨index, run, hrun, hphase, rfl⟩ := pauseRun_eq_ok happly
  obtain ⟨sequence', after', applied', hpreflight', happly', -, -, rfl⟩ :=
    applied_of_step hresume
  rw [hresumeCommand] at happly'
  obtain ⟨index', run', hrun', rfl⟩ := resumeRun_eq_ok happly'
  have hfound : (setRun before index { run with phase := .paused }).run runId =
      some (index, { run with phase := .paused }) :=
    run_setRun hvalid hrun rfl
  obtain ⟨rfl, rfl⟩ := Prod.mk.inj (Option.some.inj (hfound.symm.trans hrun'))
  refine ⟨index, run, sequence, sequence', hrun, hphase, ?_, ?_⟩
  · obtain ⟨-, -, -, -, -, -, hnext⟩ := preflight_eq_ok_iff.mp hpreflight
    obtain ⟨-, -, -, -, -, -, hnext'⟩ := preflight_eq_ok_iff.mp hpreflight'
    have hfirst := PositiveNumber.checkedNext_eq_ok_iff.mp hnext
    have hsecond := PositiveNumber.checkedNext_eq_ok_iff.mp hnext'
    change sequence'.get = sequence.get + 1 at hsecond
    omega
  · unfold setRun appendEvent
    rw [List.set_set]

theorem resumeAttempt_isOk_iff {attemptId : AttemptId} :
    (resumeAttempt before runId attemptId).isOk = true ↔
      ∃ index run attemptIndex attempt,
        before.run runId = some (index, run) ∧
          before.attempt attemptId = some (attemptIndex, attempt) ∧
          attempt.runId = runId ∧ run.phase = .fixing ∧
          attempt.phase = .fixing ∧
          before.hasLiveTurnForAttempt attemptId = false := by
  rw [isOk_eq_true_iff]
  unfold resumeAttempt
  simp only [bind_eq_ok_iff, ensure_eq_ok_iff, pure_eq_ok_iff,
    Bool.not_eq_true', Bool.or_eq_false_iff, decide_eq_false_iff_not, not_not,
    ne_eq]
  constructor
  · rintro ⟨_, ⟨⟨index, run⟩, attemptIndex, attempt⟩, hfound, _,
      ⟨⟨hphase, hattempt⟩, hlive⟩, -⟩
    obtain ⟨hrun, hattemptFound, hparent⟩ := runAndAttempt_eq_ok_iff.mp hfound
    exact ⟨index, run, attemptIndex, attempt, hrun, hattemptFound, hparent,
      hphase, hattempt, hlive⟩
  · rintro ⟨index, run, attemptIndex, attempt, hrun, hattemptFound, hparent,
      hphase, hattempt, hlive⟩
    exact ⟨_, ⟨⟨index, run⟩, attemptIndex, attempt⟩,
      runAndAttempt_eq_ok_iff.mpr ⟨hrun, hattemptFound, hparent⟩, (),
      ⟨⟨hphase, hattempt⟩, hlive⟩, rfl⟩

/-- The attempt of a fixing run can be resumed. -/
theorem resumeAttempt_isOk_of_fixing (hlinked : Linked before)
    (hvalid : Valid before) {index : Nat} {run : RunState}
    (hrun : before.run runId = some (index, run)) (hphase : run.phase = .fixing) :
    ∃ attemptId, (resumeAttempt before runId attemptId).isOk = true := by
  obtain ⟨-, hmem, rfl⟩ := run_found hrun
  obtain ⟨attemptId, hcurrent⟩ :=
    Option.ne_none_iff_exists'.mp (hlinked.runs.fixing run hmem hphase)
  obtain ⟨-, attempt, hattempt, rfl, hparent, -, hfixing⟩ :=
    hlinked.runs.current run hmem attemptId hcurrent
  obtain ⟨attemptIndex, hfound⟩ :=
    (findIndexed_key_iff hvalid.attemptIds).mpr ⟨hattempt, rfl⟩
  refine ⟨attempt.id, resumeAttempt_isOk_iff.mpr ⟨index, run, attemptIndex,
    attempt, hrun, hfound, hparent, hphase, hfixing hphase, ?_⟩⟩
  -- a live turn would have an active attempt
  refine List.any_eq_false.mpr fun turn hturn hlive => ?_
  simp only [Bool.and_eq_true, decide_eq_true_eq, Bool.not_eq_true'] at hlive
  obtain ⟨found, hfoundMem, hid, hactive⟩ :=
    hlinked.turns.active turn hturn hlive.2
  have hsame := eq_of_getElem?_of_unique hvalid.attemptIds hfoundMem hattempt
    (hid.trans hlive.1)
  rw [hsame, hfixing hphase] at hactive
  cases hactive

variable (evaluateAcceptance) in
/-- Every run or attempt command accepted before is accepted after. -/
def PauseUndone (before after : KernelAggregate) : Prop :=
  ∀ (command : KernelCommand) (inputs : ReducerInputs Terms Facts),
    isRunOrAttempt command = true →
    Accepts evaluateAcceptance before command inputs →
    Accepts evaluateAcceptance after command inputs

/-- What is accepted two events after a change of one run. -/
theorem accepts_appendEvent_iff {envelope envelope' : CommandEnvelope}
    {sequence sequence' : EventSequence}
    (hvalid : Valid (appendEvent (appendEvent before envelope sequence) envelope'
      sequence'))
    (hcounted : Counted (appendEvent (appendEvent before envelope sequence)
      envelope' sequence'))
    {command : KernelCommand} (hcommand : isRunOrAttempt command = true)
    {inputs : ReducerInputs Terms Facts} :
    Accepts evaluateAcceptance (appendEvent (appendEvent before envelope sequence)
        envelope' sequence') command inputs ↔
      ContractBound before inputs ∧ sequence'.get + 1 ≤ u64Max ∧
        (applyCommand evaluateAcceptance before command inputs).isOk = true := by
  rw [accepts_iff hvalid hcounted, isOk_applyCommand_appendEvent hcommand,
    isOk_applyCommand_appendEvent hcommand]
  rfl

/-- Pausing and resuming a run is undone exactly if the run was `Running`, and
the session has room for one more event. -/
theorem pause_undone_iff
    (hreach : Reachable Opened (Step evaluateAcceptance) before)
    (hpause : Step evaluateAcceptance before pause paused)
    (hpauseCommand : pause.command = .pauseRun runId)
    (hresume : Step evaluateAcceptance paused resume resumed)
    (hresumeCommand : resume.command = .resumeRun runId) :
    PauseUndone evaluateAcceptance before resumed ↔
      (∃ run ∈ before.runs, run.id = runId ∧ run.phase = .running) ∧
        before.lastSequence.get + 3 ≤ u64Max := by
  have hvalid := valid_of_reachable hreach
  have hcounted := counted_of_reachable hreach
  have hresumedReach := (hreach.snoc hpause).snoc hresume
  have hvalid' := valid_of_reachable hresumedReach
  have hcounted' := counted_of_reachable hresumedReach
  obtain ⟨index, run, sequence, sequence', hrun, hphase, hsequence, rfl⟩ :=
    resumed_eq hpause hpauseCommand hresume hresumeCommand
  obtain ⟨hget, hmem, hid⟩ := run_found hrun
  have hpauseAccepted :
      Accepts evaluateAcceptance before (.pauseRun runId) pause.inputs := by
    obtain ⟨transition, hreduce, -⟩ := hpause
    rw [hpauseCommand] at hreduce
    exact ⟨_, transition, hreduce⟩
  constructor
  · intro hundone
    obtain ⟨hcontract, hroom, -⟩ := (accepts_iff hvalid hcounted).mp
      hpauseAccepted
    obtain ⟨-, hlater, -⟩ := (accepts_appendEvent_iff hvalid' hcounted' rfl).mp
      (hundone _ _ rfl hpauseAccepted)
    refine ⟨⟨run, hmem, hid, hphase.resolve_right fun hfixing => ?_⟩, by omega⟩
    obtain ⟨attemptId, hok⟩ := resumeAttempt_isOk_of_fixing
      (linked_of_reachable hreach) hvalid hrun hfixing
    have hbefore : Accepts evaluateAcceptance before
        (.resumeAttempt runId attemptId) pause.inputs :=
      (accepts_iff hvalid hcounted).mpr ⟨hcontract, hroom, hok⟩
    obtain ⟨-, -, hafter⟩ := (accepts_appendEvent_iff hvalid' hcounted' rfl).mp
      (hundone _ _ rfl hbefore)
    obtain ⟨_, found, _, _, hfound, -, -, hfoundPhase, -⟩ :=
      resumeAttempt_isOk_iff.mp hafter
    -- the run that resuming left is `Running`
    have hleft : (setRun before index { run with phase := .running }).run runId =
        some (index, { run with phase := .running }) :=
      run_setRun hvalid hrun rfl
    rw [hleft] at hfound
    cases hfound
    cases hfoundPhase
  · rintro ⟨⟨found, hfound, hfoundId, hrunning⟩, hroom⟩ command inputs hcommand
      haccepted
    have hsame := eq_of_getElem?_of_unique hvalid.skeleton.runIds hfound hmem
      (hfoundId.trans hid.symm)
    subst hsame
    have hrestored : setRun before index { found with phase := .running } =
        before := by
      rw [← hrunning]
      exact setRun_self hget
    obtain ⟨hcontract, -, hok⟩ := (accepts_iff hvalid hcounted).mp haccepted
    refine (accepts_appendEvent_iff hvalid' hcounted' hcommand).mpr
      ⟨hcontract, by omega, ?_⟩
    rw [hrestored]
    exact hok

end Pair

/-! ### A fixing run and a running one -/

section Trace

def pausing (step : Fin 64) : Request Unit Unit :=
  request step (.pauseRun (identifier 1))

def resuming (step : Fin 64) : Request Unit Unit :=
  request (step + 1) (.resumeRun (identifier 1))

/-- The aggregates before a pause, during it and after it. -/
def pausedAndResumed (earlier : List (Request Unit Unit)) (step : Fin 64) :
    Option (KernelAggregate × KernelAggregate × KernelAggregate) :=
  opened.toOption.bind fun created =>
    (outcomeOf unmet created.1 earlier).bind fun before =>
      (outcomeOf unmet before [pausing step]).bind fun paused =>
        (outcomeOf unmet paused [resuming step]).map fun resumed =>
          (before, paused, resumed)

theorem steps_of_pausedAndResumed {earlier : List (Request Unit Unit)}
    {step : Fin 64} {before paused resumed : KernelAggregate}
    (h : pausedAndResumed earlier step = some (before, paused, resumed)) :
    Reachable Opened (Step unmet) before ∧
      Step unmet before (pausing step) paused ∧
      Step unmet paused (resuming step) resumed := by
  unfold pausedAndResumed at h
  simp only [Option.bind_eq_some_iff, Option.map_eq_some_iff,
    Prod.mk.injEq] at h
  obtain ⟨created, hopened, _, hearlier, _, hpausing, _, hresuming, rfl, rfl,
    rfl⟩ := h
  have hsingle : ∀ {s t : KernelAggregate} {r : Request Unit Unit},
      Run (Step unmet) s [r] t → Step unmet s r t := by
    rintro s t r (_ | ⟨hstep, _ | _⟩)
    exact hstep
  exact ⟨⟨created.1, earlier, opened_of_toOption hopened,
    run_of_outcomeOf hearlier⟩, hsingle (run_of_outcomeOf hpausing),
    hsingle (run_of_outcomeOf hresuming)⟩

def resumable (state : KernelAggregate) : Bool :=
  (applyCommand unmet state (.resumeAttempt (identifier 1) (identifier 2))
    (pausing 9).inputs).isOk

theorem phases_of_fixing :
    (pausedAndResumed evaluated 9).map
        (fun s => ((phases s.1, resumable s.1), phases s.2.2, resumable s.2.2)) =
      some (((.open, [.fixing]), true), (.open, [.running]), false) := by
  decide

/-- After a pause and a resume the attempt of a fixing run can no longer be
resumed. -/
theorem fixing_attempt_stranded :
    ∃ before paused resumed, Reachable Opened (Step unmet) before ∧
      Step unmet before (pausing 9) paused ∧
      Step unmet paused (resuming 9) resumed ∧
      phases before = (.open, [.fixing]) ∧
      phases resumed = (.open, [.running]) ∧
      Accepts unmet before (.resumeAttempt (identifier 1) (identifier 2))
        (pausing 9).inputs ∧
      ¬Accepts unmet resumed (.resumeAttempt (identifier 1) (identifier 2))
        (pausing 9).inputs := by
  obtain ⟨⟨before, paused, resumed⟩, htrace, hphases⟩ :=
    Option.map_eq_some_iff.mp phases_of_fixing
  obtain ⟨hreach, hpause, hresume⟩ := steps_of_pausedAndResumed htrace
  simp only [Prod.mk.injEq] at hphases
  obtain ⟨⟨hbefore, hresumable⟩, hresumed, hstranded⟩ := hphases
  have hlater := (hreach.snoc hpause).snoc hresume
  refine ⟨before, paused, resumed, hreach, hpause, hresume, hbefore, hresumed,
    ?_, ?_⟩
  · obtain ⟨transition, hreduce, -⟩ := hpause
    have hpaused : Accepts unmet before (pausing 9).command (pausing 9).inputs :=
      ⟨_, transition, hreduce⟩
    obtain ⟨hcontract, hroom, -⟩ :=
      (accepts_iff (valid_of_reachable hreach)
        (counted_of_reachable hreach)).mp hpaused
    exact (accepts_iff (valid_of_reachable hreach)
      (counted_of_reachable hreach)).mpr ⟨hcontract, hroom, hresumable⟩
  · intro haccepted
    obtain ⟨-, -, hok⟩ := (accepts_iff (valid_of_reachable hlater)
      (counted_of_reachable hlater)).mp haccepted
    exact Bool.false_ne_true (hstranded.symm.trans hok)

/-- The first two requests, after which the run is `Running`. -/
def running : List (Request Unit Unit) := reviewing.take 2

theorem runs_of_running :
    (pausedAndResumed running 3).map
        (fun s => (s.1.runs.map (fun run => (run.id, run.phase)),
          s.1.lastSequence.get)) =
      some ([(identifier 1, .running)], 3) := by
  decide

theorem pause_undone_of_running :
    ∃ before resumed, before.runs.map (fun run => (run.id, run.phase)) =
        [(identifier 1, .running)] ∧
      PauseUndone unmet before resumed := by
  obtain ⟨⟨before, paused, resumed⟩, htrace, hruns⟩ :=
    Option.map_eq_some_iff.mp runs_of_running
  obtain ⟨hreach, hpause, hresume⟩ := steps_of_pausedAndResumed htrace
  obtain ⟨hbefore, hsequence⟩ := Prod.mk.inj hruns
  refine ⟨before, resumed, hbefore, ?_⟩
  refine (pause_undone_iff hreach hpause rfl hresume rfl).mpr ⟨?_, ?_⟩
  · obtain ⟨run, hmem, hrun⟩ :=
      List.mem_map.mp (hbefore ▸ List.mem_singleton_self _)
    obtain ⟨hid, hphase⟩ := Prod.mk.inj hrun
    exact ⟨run, hmem, hid, hphase⟩
  · rw [hsequence]
    decide

end Trace

end Peritus.Kernel.PauseResume
