import Peritus.Kernel.Edges
import Peritus.TransitionSystem

/-!
Pausing over whole runs of the kernel.  A paused session keeps its runs paused
until a command ends one of their attempts: ending an attempt looks at neither
the session nor the phase of the run it hands back.
-/

namespace Peritus.Kernel.PauseClosure

open Peritus.Types TransitionSystem Checked Collections Budget.Amounts Budget.State
open State Reducer Edges

/-- A paused session has no live run that is not paused. -/
def PauseClosed (state : KernelAggregate) : Prop :=
  state.session.phase = .paused →
    ∀ run ∈ state.runs, run.phase.isTerminal = false → run.phase = .paused

theorem pauseClosed_iff {state : KernelAggregate} :
    PauseClosed state ↔ (state.session.phase = .paused →
      ∀ run ∈ state.runs, isLiveUnpaused run.phase = false) := by
  refine imp_congr_right fun _ => forall₂_congr fun run _ => ?_
  cases run.phase <;> simp [isLiveUnpaused, RunPhase.isTerminal]

theorem pauseClosed_of_not_hasUnpausedRun {before next : KernelAggregate}
    (hpaused : hasUnpausedRun before = false)
    (hruns : next.runs = before.runs) : PauseClosed next := by
  rw [pauseClosed_iff, hruns]
  intro _ run hrun
  exact List.any_eq_false.mp hpaused run hrun |> Bool.eq_false_iff.mpr

section Steps

variable {Terms Facts : Type}
variable (evaluateAcceptance : AcceptanceContract Terms → RevisionTuple →
  AcceptanceEvidence Facts → AcceptanceDecision)

/-- One call of the reducer. -/
structure Request (Terms Facts : Type) where
  envelope : CommandEnvelope
  command : KernelCommand
  inputs : ReducerInputs Terms Facts

/-- The request is accepted. -/
def Step (before : KernelAggregate) (request : Request Terms Facts)
    (next : KernelAggregate) : Prop :=
  ∃ transition,
    reduce evaluateAcceptance before request.envelope request.command
      request.inputs = .applied transition ∧ transition.aggregate = next

/-- An attempt is ended while its session is paused. -/
def EndsAttemptWhilePaused (before : KernelAggregate)
    (request : Request Terms Facts) : Prop :=
  before.session.phase = .paused ∧ endsAttempt request.command = true

/-- An accepted request that ends no attempt of a paused session. -/
def QuietStep (before : KernelAggregate) (request : Request Terms Facts)
    (next : KernelAggregate) : Prop :=
  Step evaluateAcceptance before request next ∧
    ¬EndsAttemptWhilePaused before request

/-- The aggregates session creation returns. -/
def Opened (state : KernelAggregate) : Prop :=
  ∃ (Terms : Type) (projectId : ProjectId) (sessionId : SessionId)
    (contract : AcceptanceContract Terms) (revision : RevisionTuple)
    (envelope : CommandEnvelope) (event : KernelEvent),
    openSession projectId sessionId contract revision envelope =
      .ok (state, event)

variable {evaluateAcceptance}

theorem Step.runEdge {before next : KernelAggregate}
    {request : Request Terms Facts}
    (hstep : Step evaluateAcceptance before request next) :
    RunEdge before next (endsAttempt request.command) := by
  obtain ⟨transition, hreduce, rfl⟩ := hstep
  unfold reduce at hreduce
  split at hreduce
  · rename_i found hchecked
    cases hreduce
    exact runEdge_of_reduceChecked hchecked
  · cases hreduce

theorem Opened.pauseClosed {state : KernelAggregate} (hopen : Opened state) :
    PauseClosed state := by
  obtain ⟨Terms, projectId, sessionId, contract, revision, envelope, event,
    hopen⟩ := hopen
  unfold openSession at hopen
  simp only [bind_eq_ok_iff, pure_eq_ok_iff, Prod.mk.injEq] at hopen
  obtain ⟨_, _, _, _, _, _, _, _, rfl, _⟩ := hopen
  intro hphase
  cases hphase

/-! ### One step -/

/-- Under a paused session only the end of an attempt wakes a run. -/
theorem idle_of_runEdge {before next : KernelAggregate}
    (hclosed : PauseClosed before) (hpaused : before.session.phase = .paused)
    (hedge : RunEdge before next false) :
    ∀ run ∈ next.runs, isLiveUnpaused run.phase = false := by
  have hidle := pauseClosed_iff.mp hclosed hpaused
  cases hedge with
  | kept _ hruns => exact hruns ▸ hidle
  | sessionPaused _ hruns => exact hruns ▸ hidle
  | sessionUnpaused _ hruns => exact hruns ▸ hidle
  | openSession hopen _ =>
      rw [hopen] at hpaused
      cases hpaused
  | runEnded _ hruns hterminal =>
      intro found hfound
      rw [hruns] at hfound
      rcases mem_set hfound with rfl | hmem
      · simp [isLiveUnpaused, hterminal]
      · exact hidle found hmem
  | runWorked hmem hlive _ =>
      rw [hidle _ hmem] at hlive
      cases hlive

theorem pauseClosed_of_runEdge {before next : KernelAggregate} {ends : Bool}
    (hclosed : PauseClosed before) (hedge : RunEdge before next ends)
    (hquiet : ¬(before.session.phase = .paused ∧ ends = true)) :
    PauseClosed next := by
  by_cases hpaused : before.session.phase = .paused
  · have hends : ends = false :=
      Bool.eq_false_iff.mpr fun hends => hquiet ⟨hpaused, hends⟩
    subst hends
    exact pauseClosed_iff.mpr fun _ => idle_of_runEdge hclosed hpaused hedge
  · have hkept : next.session = before.session → PauseClosed next :=
      fun hsession hphase => absurd (hsession ▸ hphase) hpaused
    cases hedge with
    | kept hsession _ => exact hkept hsession
    | sessionPaused hunpaused hruns =>
        exact pauseClosed_of_not_hasUnpausedRun hunpaused hruns
    | sessionUnpaused hphase _ => exact fun hpaused => absurd hpaused hphase
    | openSession _ hsession => exact hkept hsession
    | runEnded hsession _ _ => exact hkept hsession
    | runWorked _ _ hsession => exact hkept hsession
    | attemptEnded _ _ hsession _ _ => exact hkept hsession

/-- Ending an attempt leaves a run `Running`. -/
theorem exists_running_of_endsAttempt {before next : KernelAggregate}
    (hedge : RunEdge before next true) :
    next.session = before.session ∧
      ∃ run ∈ next.runs, run.phase = .running := by
  cases hedge with
  | @attemptEnded index run run' hget _ hsession hruns hphase =>
      refine ⟨hsession, run', ?_, hphase⟩
      rw [hruns]
      obtain ⟨hindex, _⟩ := List.getElem?_eq_some_iff.mp hget
      exact List.mem_set hindex run'

theorem Step.pauseClosed_iff {before next : KernelAggregate}
    {request : Request Terms Facts} (hclosed : PauseClosed before)
    (hstep : Step evaluateAcceptance before request next) :
    PauseClosed next ↔ ¬EndsAttemptWhilePaused before request := by
  constructor
  · rintro hnext ⟨hpaused, hends⟩
    have hedge := hstep.runEdge
    rw [hends] at hedge
    obtain ⟨hsession, run, hrun, hphase⟩ :=
      exists_running_of_endsAttempt hedge
    have hrunning := hnext (hsession ▸ hpaused) run hrun (by rw [hphase]; rfl)
    rw [hphase] at hrunning
    cases hrunning
  · exact pauseClosed_of_runEdge hclosed hstep.runEdge

/-! ### Whole runs -/

/-- From session creation, along accepted requests none of which ends an
attempt of a paused session, every paused session has only paused live runs;
the next accepted request keeps it so exactly if it is such a request too, and
then no run comes out of it live and unpaused under a paused session. -/
theorem pause_closure {state : KernelAggregate}
    (hreach : Reachable Opened (QuietStep evaluateAcceptance) state) :
    PauseClosed state ∧
      ∀ request next, Step evaluateAcceptance state request next →
        (PauseClosed next ↔ ¬EndsAttemptWhilePaused state request) ∧
        (state.session.phase = .paused →
          ((∃ run ∈ next.runs, isLiveUnpaused run.phase = true) ↔
            endsAttempt request.command = true)) := by
  have hclosed : PauseClosed state :=
    hreach.invariant (fun _ hopen => hopen.pauseClosed)
      fun _ _ _ hclosed hstep => (hstep.1.pauseClosed_iff hclosed).mpr hstep.2
  refine ⟨hclosed, fun request next hstep => ?_⟩
  refine ⟨hstep.pauseClosed_iff hclosed, fun hpaused => ⟨?_, ?_⟩⟩
  · rintro ⟨run, hrun, hlive⟩
    by_contra hends
    have hedge := hstep.runEdge
    rw [Bool.eq_false_iff.mpr hends] at hedge
    rw [idle_of_runEdge hclosed hpaused hedge run hrun] at hlive
    cases hlive
  · intro hends
    have hedge := hstep.runEdge
    rw [hends] at hedge
    obtain ⟨_, run, hrun, hphase⟩ := exists_running_of_endsAttempt hedge
    exact ⟨run, hrun, by rw [hphase]; rfl⟩

end Steps

/-! ### A paused session with a running run -/

section Trace

instance positiveSteps : NeZero 64 := ⟨by decide⟩

def identifier (n : Fin 64) : OpaqueIdentifier :=
  ⟨n.val + 1, Nat.succ_ne_zero _, by omega⟩

def revision : RevisionTuple :=
  ⟨identifier 1, identifier 2, identifier 3, .first, .first, identifier 4,
    identifier 5⟩

def contract : AcceptanceContract Unit :=
  ⟨identifier 1, .ofNat 0, 1, ()⟩

def unmet (_ : AcceptanceContract Unit) (_ : RevisionTuple)
    (_ : AcceptanceEvidence Unit) : AcceptanceDecision :=
  ⟨false, [.other]⟩

def snapshot (id : BudgetId) (parentId : Option BudgetId) : BudgetSnapshot :=
  { id
    parentId
    revision
    limits := ⟨BudgetAmounts.zero⟩
    consumed := .zero
    operationReserved := .zero
    childDelegatedRemaining := .zero
    available := .zero
    phase := .open }

/-- The command and event of one step carry the step's own number; the event
before it is the causal head. -/
def request (step : Fin 64) (command : KernelCommand) : Request Unit Unit :=
  { envelope :=
      ⟨identifier step, identifier step, some (identifier (step - 1)), revision⟩
    command
    inputs :=
      { contract
        runBudget := some (snapshot (identifier 8) none)
        attemptBudget := some (snapshot (identifier 9) (some (identifier 8)))
        parentBudget := some (snapshot (identifier 8) none)
        capabilityUse := none
        acceptanceEvidence := none } }

/-- A run is started and paused in its first attempt, then the session is
paused. -/
def pausing : List (Request Unit Unit) :=
  [request 1 (.startRun (identifier 1)),
    request 2 (.startAttempt (identifier 1) (identifier 2)),
    request 3 (.pauseRun (identifier 1)),
    request 4 .pauseSession]

def failing : Request Unit Unit :=
  request 5 (.failAttempt (identifier 1) (identifier 2))

def opened : Except KernelError (KernelAggregate × KernelEvent) :=
  openSession (identifier 6) (identifier 7) contract revision
    ⟨identifier 0, identifier 0, none, revision⟩

/-- The aggregate after the accepted requests of a list. -/
def accepted (state : KernelAggregate) :
    List (Request Unit Unit) → Option KernelAggregate
  | [] => some state
  | request :: rest =>
      match reduce unmet state request.envelope request.command
          request.inputs with
      | .applied transition => accepted transition.aggregate rest
      | .rejected _ _ => none

theorem step_of_accepted {state next : KernelAggregate}
    {request : Request Unit Unit} {rest : List (Request Unit Unit)}
    (h : accepted state (request :: rest) = some next) :
    ∃ middle, Step unmet state request middle ∧
      accepted middle rest = some next := by
  unfold accepted at h
  split at h
  · rename_i transition hreduce
    exact ⟨transition.aggregate, ⟨transition, hreduce, rfl⟩, h⟩
  · cases h

theorem quietRun_of_accepted {state next : KernelAggregate}
    {requests : List (Request Unit Unit)}
    (hquiet : ∀ request ∈ requests, endsAttempt request.command = false)
    (h : accepted state requests = some next) :
    Run (QuietStep unmet) state requests next := by
  induction requests generalizing state with
  | nil =>
      cases h
      exact .nil next
  | cons request rest ih =>
      rw [List.forall_mem_cons] at hquiet
      obtain ⟨middle, hstep, hrest⟩ := step_of_accepted h
      refine .cons ⟨hstep, ?_⟩ (ih hquiet.2 hrest)
      rintro ⟨_, hends⟩
      rw [hquiet.1] at hends
      cases hends

/-- The aggregates around the failed attempt. -/
def pausedThenFailed : Option (KernelAggregate × KernelAggregate) :=
  opened.toOption.bind fun created =>
    (accepted created.1 pausing).bind fun paused =>
      (accepted paused [failing]).map fun failed => (paused, failed)

def phases (state : KernelAggregate) : SessionPhase × List RunPhase :=
  (state.session.phase, state.runs.map (·.phase))

theorem phases_pausedThenFailed :
    pausedThenFailed.map (fun s => (phases s.1, phases s.2)) =
      some ((.paused, [.paused]), (.paused, [.running])) := by decide

theorem steps_of_pausedThenFailed {paused failed : KernelAggregate}
    (h : pausedThenFailed = some (paused, failed)) :
    Reachable Opened (QuietStep unmet) paused ∧
      Step unmet paused failing failed := by
  unfold pausedThenFailed at h
  simp only [Option.bind_eq_some_iff, Option.map_eq_some_iff,
    Prod.mk.injEq] at h
  obtain ⟨⟨created, event⟩, hopened, _, hpausing, _, hfailing, rfl, rfl⟩ := h
  have hcreated : Opened created :=
    ⟨Unit, _, _, contract, revision, _, event, toOption_eq_some_iff.mp hopened⟩
  obtain ⟨_, hstep, hrest⟩ := step_of_accepted hfailing
  cases hrest
  exact ⟨⟨created, pausing, hcreated,
    quietRun_of_accepted (by decide) hpausing⟩, hstep⟩

/-- Failing the attempt of a paused run under a paused session makes the run
`Running` again. -/
theorem paused_session_with_running_run :
    ∃ paused failed, Reachable Opened (QuietStep unmet) paused ∧
      Step unmet paused failing failed ∧
      phases paused = (.paused, [.paused]) ∧
      phases failed = (.paused, [.running]) ∧ ¬PauseClosed failed := by
  obtain ⟨⟨paused, failed⟩, htrace, hphases⟩ :=
    Option.map_eq_some_iff.mp phases_pausedThenFailed
  rw [Prod.mk.injEq] at hphases
  obtain ⟨hpaused, hfailed⟩ := hphases
  obtain ⟨hreach, hstep⟩ := steps_of_pausedThenFailed htrace
  refine ⟨paused, failed, hreach, hstep, hpaused, hfailed, fun hclosed => ?_⟩
  obtain ⟨hsession, hruns⟩ := Prod.mk.inj hfailed
  obtain ⟨run, hrun, hrunning⟩ :=
    List.mem_map.mp (hruns ▸ List.mem_singleton_self RunPhase.running)
  have hphase := hclosed hsession run hrun (by rw [hrunning]; rfl)
  rw [hrunning] at hphase
  cases hphase

theorem pause_closure_paused :
    ∃ paused, phases paused = (.paused, [.paused]) ∧ PauseClosed paused ∧
      ∀ request next, Step unmet paused request next →
        (PauseClosed next ↔ ¬EndsAttemptWhilePaused paused request) := by
  obtain ⟨⟨paused, failed⟩, htrace, hphases⟩ :=
    Option.map_eq_some_iff.mp phases_pausedThenFailed
  obtain ⟨hclosed, hnext⟩ :=
    pause_closure (steps_of_pausedThenFailed htrace).1
  exact ⟨paused, (Prod.mk.inj hphases).1, hclosed,
    fun request next hstep => (hnext request next hstep).1⟩

end Trace

end Peritus.Kernel.PauseClosure
