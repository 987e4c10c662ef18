import Peritus.Scheduler.Ownership

/-!
Replay and the reducer.  The replay rebuilds each command from its event and
runs the reducer on it, so that it accepts exactly the logs of the runs without
a repeated event identity.
-/

namespace Peritus.Scheduler.Replay

open Peritus.Types Checked TransitionSystem Limits State Canonical Mutation
open Reducer Invariant Edits Refresh Ownership

/-! ### Reconstruction -/

def payloadFromEvent : SchedulerEventKind → SchedulerCommandKind
  | .schedulerStarted binding => .startScheduler binding
  | .workerRegistered descriptor => .registerWorker descriptor
  | .workerAvailable workerId => .setWorkerAvailable workerId
  | .workerDrainRequested workerId => .drainWorker workerId
  | .workerLost workerId _ => .loseWorker workerId
  | .workerRemoved workerId => .removeWorker workerId
  | .workAdmitted spec => .admitWork spec
  | .workReserved reservation =>
      .dispatchNext reservation.dispatchId reservation.dispatchToken
  | .workStartAcknowledged dispatchId => .acknowledgeStart dispatchId
  | .workSucceeded dispatchId resultDigest =>
      .completeWork dispatchId resultDigest
  | .workFailed dispatchId failureDigest disposition =>
      .failWork dispatchId failureDigest disposition
  | .workRetryQueued workId => .retryWork workId
  | .workCancelled workId descendants _ =>
      if descendants then .cancelWorkTree workId else .cancelWork workId
  | .cancellationAcknowledged dispatchId => .acknowledgeCancellation dispatchId
  | .workExhausted workId causeDigest => .exhaustWork workId causeDigest
  | .dispatchAbandoned dispatchId causeDigest =>
      .abandonDispatch dispatchId causeDigest
  | .schedulerPaused => .pauseScheduler
  | .schedulerResumed => .resumeScheduler
  | .schedulerDrainRequested => .drainScheduler
  | .schedulerFinalized _ => .finalizeScheduler

/-- No constructor or decoder of events gives a genesis of other semantics than
the event's own.  Such an event makes no command here; in the source `start` or
the fences refuse its command. -/
def commandFromEvent (event : SchedulerEvent) (expectedSequence : Nat)
    (previous : Option EventId) (hbound : expectedSequence ≤ u64Max)
    (hshape : expectedSequence = 0 ↔ previous = none) :
    Except SchedulerError SchedulerCommand :=
  if hgenesis : (payloadFromEvent event.kind).agrees event.semantics = true then
    .ok
      { semantics := event.semantics
        commandId := event.commandId
        eventId := event.id
        runId := event.runId
        expectedSequence
        expectedPreviousEvent := previous
        priorStateDigest := event.priorStateDigest
        revision := event.revision
        kind := payloadFromEvent event.kind
        sequenceBound := hbound
        predecessor := hshape
        genesis := hgenesis }
  else
    .error (reject .bindingMismatch
      "scheduler genesis differs from its exact binding or fences")

def genesisCommand (event : SchedulerEvent) :
    Except SchedulerError SchedulerCommand :=
  commandFromEvent event 0 none (Nat.zero_le _) genesis_predecessor

def nextCommand (state : SchedulerState) (event : SchedulerEvent) :
    Except SchedulerError SchedulerCommand :=
  commandFromEvent event state.sequence.get (some state.lastEventId)
    state.sequence_bound state.predecessor

def replayError (detail : String) : SchedulerError :=
  reject .replayMismatch detail

section Hash

variable (sha256 : List UInt8 → Sha256Digest)

def replayEvents (semantics : SchedulerSemantics) :
    SchedulerState → List EventId → List CommandId → List SchedulerEvent →
      Except SchedulerError SchedulerState
  | state, _, _, [] => .ok state
  | state, eventIds, commandIds, event :: rest => do
      ensure (decide (event.semantics = semantics))
        (replayError "scheduler replay mixes semantic versions")
      ensure (decide (event.id ∉ eventIds ∧ event.commandId ∉ commandIds))
        (replayError "scheduler event or command identity is duplicated")
      let command ← nextCommand state event
      let transition ← decideCommand sha256 state command
      ensure (decide (transition.event = event))
        (replayError "scheduler event differs from deterministic reduction")
      replayEvents semantics transition.state (event.id :: eventIds)
        (event.commandId :: commandIds) rest

def replay : List SchedulerEvent → Except SchedulerError SchedulerState
  | [] => .error (replayError "scheduler replay is empty")
  | first :: rest => do
      let command ← genesisCommand first
      let transition ← start sha256 command
      ensure (decide (transition.event = first))
        (replayError "scheduler genesis differs from deterministic reduction")
      replayEvents sha256 first.semantics transition.state [first.id]
        [first.commandId] rest

/-! ### Logs -/

/-- A command that `start` accepts emits the event. -/
def Starts (event : SchedulerEvent) (state : SchedulerState) : Prop :=
  ∃ command, start sha256 command = .ok ⟨event, state⟩

/-- A command that `decide` accepts emits the event. -/
def Steps (state : SchedulerState) (event : SchedulerEvent)
    (next : SchedulerState) : Prop :=
  ∃ command, decideCommand sha256 state command = .ok ⟨event, next⟩

/-- The events of a run, genesis first. -/
def Log (events : List SchedulerEvent) (state : SchedulerState) : Prop :=
  ∃ first initial rest, Starts sha256 first initial ∧
    Run (Steps sha256) initial rest state ∧ events = first :: rest

end Hash

section Rebuilt

variable {sha256 : List UInt8 → Sha256Digest}
variable {state next applied : SchedulerState} {event : SchedulerEvent}
variable {kind : SchedulerCommandKind} {emitted : SchedulerEventKind}

/-- Whatever is emitted is rebuilt to the command. -/
abbrev Emits (kind : SchedulerCommandKind) (result : Handled) : Prop :=
  Satisfies (fun handled => payloadFromEvent handled.2 = kind) (fun _ => True)
    result

theorem Emits.bind {α : Type} {x : Except SchedulerError α}
    {f : α → Handled} (hf : ∀ a, x = .ok a → Emits kind (f a)) :
    Emits kind (x >>= f) := by
  cases x with
  | error error => trivial
  | ok a => exact hf a rfl

theorem emits_phaseWorker {workerId : WorkerId} {phase : WorkerPhase}
    {detail : String} (hevent : payloadFromEvent emitted = kind) :
    Emits kind (phaseWorker state workerId phase detail emitted) := by
  unfold phaseWorker
  split
  · trivial
  · exact hevent

theorem emits_phaseControl {found : Option SchedulerState} {detail : String}
    (hevent : payloadFromEvent emitted = kind) :
    Emits kind (phaseControl found detail emitted) := by
  unfold phaseControl
  split
  · trivial
  · exact hevent

theorem emits_loseWorker (workerId : WorkerId) :
    Emits (.loseWorker workerId) (loseWorker sha256 state workerId) := by
  unfold loseWorker
  dsimp only
  split
  · rename_i handled hloss
    unfold applyWorkerLoss at hloss
    split at hloss
    · cases hloss
    · split at hloss
      · cases hloss
      · obtain ⟨⟨released, outcomes⟩, -, hloss⟩ := bind_eq_ok_iff.mp hloss
        dsimp only at hloss
        split at hloss
        · cases hloss
        · cases hloss
          rfl
  all_goals trivial

theorem emits_admitWork (spec : WorkSpec) :
    Emits (.admitWork spec) (admitWork state spec) := by
  unfold admitWork
  refine Emits.bind fun _ _ => ?_
  split
  · trivial
  · rfl

theorem reserveSelectedAt_dispatch {workIndex workerIndex : Nat}
    {dispatchId : DispatchId} {dispatchToken : Sha256Digest}
    {reservation : SchedulerReservation}
    (h : reserveSelectedAt state workIndex workerIndex dispatchId dispatchToken =
      some (reservation, next)) :
    reservation.dispatchId = dispatchId ∧
      reservation.dispatchToken = dispatchToken := by
  unfold reserveSelectedAt selectedReservation at h
  simp only [Option.bind_eq_bind, Option.bind_eq_some_iff] at h
  obtain ⟨⟨taken, prepared⟩, ⟨work, -, worker, -, htaken⟩, h⟩ := h
  cases h
  split at htaken
  · cases htaken
  · obtain ⟨⟨attempt, begun⟩, -, htaken⟩ := Option.bind_eq_some_iff.mp htaken
    obtain ⟨incremented, -, htaken⟩ := Option.bind_eq_some_iff.mp htaken
    cases htaken
    exact ⟨rfl, rfl⟩

theorem reserveNext_dispatch {dispatchId : DispatchId}
    {dispatchToken : Sha256Digest} {reservation : SchedulerReservation}
    (h : reserveNext state dispatchId dispatchToken = .ok (next, reservation)) :
    reservation.dispatchId = dispatchId ∧
      reservation.dispatchToken = dispatchToken := by
  unfold reserveNext at h
  simp only [ensure_bind_eq_ok_iff] at h
  obtain ⟨-, -, -, h⟩ := h
  split at h
  · cases h
  · split at h
    · cases h
    · simp only [ensure_bind_eq_ok_iff] at h
      obtain ⟨-, -, -, h⟩ := h
      split at h
      · cases h
      · rename_i hreserved
        cases h
        exact reserveSelectedAt_dispatch hreserved

theorem emits_dispatch (dispatchId : DispatchId) (dispatchToken : Sha256Digest) :
    Emits (.dispatchNext dispatchId dispatchToken)
      (dispatch state dispatchId dispatchToken) := by
  unfold dispatch
  refine Emits.bind fun _ _ => Emits.bind ?_
  rintro ⟨next, reservation⟩ hreserved
  obtain ⟨hid, htoken⟩ := reserveNext_dispatch hreserved
  show SchedulerCommandKind.dispatchNext _ _ = _
  rw [hid, htoken]

theorem emits_cancel (root : WorkId) (descendants : Bool) :
    Emits (if descendants then .cancelWorkTree root else .cancelWork root)
      (cancel state root descendants) := by
  cases hfound : state.workItem root with
  | none =>
      unfold cancel
      rw [hfound]
      trivial
  | some retained =>
      unfold cancel
      rw [hfound]
      by_cases hphase : retained.phase = .terminal
      · simp only [if_pos hphase]
        trivial
      · simp only [if_neg hphase]
        rfl

/-- The payload rebuilt from an event is the command that emitted it. -/
theorem emits_apply : Emits kind (apply sha256 state kind) := by
  cases kind with
  | startScheduler binding => trivial
  | registerWorker descriptor =>
      exact Emits.bind fun _ _ => Emits.bind fun _ _ => Emits.bind fun _ _ =>
        Emits.bind fun _ _ => Emits.bind fun _ _ => rfl
  | setWorkerAvailable workerId =>
      exact Emits.bind fun _ _ => Emits.bind fun _ _ => Emits.bind fun _ _ =>
        emits_phaseWorker rfl
  | drainWorker workerId =>
      exact Emits.bind fun _ _ => Emits.bind fun _ _ => emits_phaseWorker rfl
  | loseWorker workerId => exact emits_loseWorker workerId
  | removeWorker workerId =>
      exact Emits.bind fun _ _ => Emits.bind fun _ _ => emits_phaseWorker rfl
  | admitWork spec => exact emits_admitWork spec
  | dispatchNext dispatchId dispatchToken =>
      exact emits_dispatch dispatchId dispatchToken
  | acknowledgeStart dispatchId =>
      show Emits _ (acknowledgeStart state dispatchId)
      unfold acknowledgeStart
      split <;> trivial
  | completeWork dispatchId resultDigest =>
      show Emits _ (complete state dispatchId resultDigest)
      unfold complete
      split <;> trivial
  | failWork dispatchId failureDigest disposition =>
      show Emits _ (fail state dispatchId failureDigest disposition)
      unfold fail
      split <;> trivial
  | retryWork workId =>
      show Emits _ (retry state workId)
      unfold retry
      split <;> trivial
  | cancelWork workId => exact emits_cancel workId false
  | cancelWorkTree workId => exact emits_cancel workId true
  | acknowledgeCancellation dispatchId =>
      show Emits _ (acknowledgeCancel state dispatchId)
      unfold acknowledgeCancel
      split <;> trivial
  | exhaustWork workId causeDigest =>
      show Emits _ (exhaust state workId causeDigest)
      unfold exhaust
      split <;> trivial
  | abandonDispatch dispatchId causeDigest =>
      show Emits _ (abandon state dispatchId causeDigest)
      unfold abandon
      split <;> trivial
  | pauseScheduler => exact emits_phaseControl rfl
  | resumeScheduler => exact emits_phaseControl rfl
  | drainScheduler => exact emits_phaseControl rfl
  | finalizeScheduler =>
      show Emits _ (finalize sha256 state)
      unfold finalize
      split
      · rfl
      · trivial

/-! ### One event -/

/-- What the reducer tells of an event that it emits. -/
structure Emitted (sha256 : List UInt8 → Sha256Digest) (state : SchedulerState)
    (command : SchedulerCommand) (event : SchedulerEvent)
    (next : SchedulerState) : Prop where
  semantics : command.semantics = state.binding.semantics
  runId : command.runId = state.binding.runId
  revision : command.revision = state.binding.revision
  expectedSequence : command.expectedSequence = state.sequence.get
  predecessor : command.expectedPreviousEvent = some state.lastEventId
  digest : command.priorStateDigest = state.stateDigest
  fresh : command.commandId ∉ state.usedCommands
  successor : ∃ (applied : SchedulerState) (emitted : SchedulerEventKind)
    (sequence : EventSequence),
    apply sha256 state command.kind = .ok (applied, emitted) ∧
      sequence.get = state.sequence.get + 1 ∧
      next = commit sha256 applied sequence command.eventId command.commandId ∧
      event =
        { semantics := command.semantics
          id := command.eventId
          commandId := command.commandId
          sequence
          previousEvent := some state.lastEventId
          runId := command.runId
          revision := command.revision
          priorStateDigest := state.stateDigest
          successorStateDigest := next.stateDigest
          kind := emitted }

theorem emitted_of_decide {command : SchedulerCommand}
    (h : decideCommand sha256 state command = .ok ⟨event, next⟩) :
    Emitted sha256 state command event next := by
  unfold decideCommand at h
  obtain ⟨hfences, h⟩ := check_bind_eq_ok_iff.mp h
  obtain ⟨sequence, hsequence, h⟩ := bind_eq_ok_iff.mp h
  obtain ⟨⟨applied, emitted⟩, happlied, h⟩ := bind_eq_ok_iff.mp h
  obtain ⟨-, h⟩ := ensure_bind_eq_ok_iff.mp h
  cases h
  unfold validateFences at hfences
  simp only [ensure_bind_eq_ok_iff, ensure_eq_ok_iff, Bool.and_eq_true,
    decide_eq_true_eq] at hfences
  obtain ⟨-, -, ⟨⟨⟨⟨⟨⟨hsemantics, hrun⟩, hrevision⟩, hexpected⟩, hprevious⟩,
    hdigest⟩, hfresh⟩, -⟩ := hfences
  have hnext : sequence.get = state.sequence.get + 1 := by
    unfold checkedNextSequence at hsequence
    split at hsequence
    · rename_i hchecked
      cases hsequence
      exact PositiveNumber.checkedNext_eq_ok_iff.mp hchecked
    · cases hsequence
  exact
    { semantics := hsemantics.symm
      runId := hrun.symm
      revision := hrevision.symm
      expectedSequence := hexpected.symm
      predecessor := hprevious
      digest := hdigest
      fresh := hfresh
      successor := ⟨applied, emitted, sequence, happlied, hnext, rfl, rfl⟩ }

def opened (sha256 : List UInt8 → Sha256Digest) (binding : SchedulerBinding)
    (eventId : EventId) (commandId : CommandId) : SchedulerState :=
  { SchedulerState.genesis binding eventId commandId with
    stateDigest := stateDigest sha256
      (SchedulerState.genesis binding eventId commandId) }

def openedBy (sha256 : List UInt8 → Sha256Digest) (binding : SchedulerBinding)
    (eventId : EventId) (commandId : CommandId) : SchedulerEvent where
  semantics := binding.semantics
  id := eventId
  commandId := commandId
  sequence := PositiveNumber.first
  previousEvent := none
  runId := binding.runId
  revision := binding.revision
  priorStateDigest := zeroDigest
  successorStateDigest := (opened sha256 binding eventId commandId).stateDigest
  kind := .schedulerStarted binding

/-- The command of an event, rebuilt from it in the state that it met. -/
theorem nextCommand_of_decide {command : SchedulerCommand}
    (h : decideCommand sha256 state command = .ok ⟨event, next⟩) :
    nextCommand state event = .ok command := by
  have hemitted := emitted_of_decide h
  obtain ⟨applied, emitted, sequence, happlied, -, -, rfl⟩ := hemitted.successor
  have hpayload : payloadFromEvent emitted = command.kind :=
    emits_apply.of_eq_ok happlied
  obtain ⟨semantics, commandId, eventId, runId, expectedSequence, previous,
    priorStateDigest, revision, kind, hbound, hshape, hgenesis⟩ := command
  have hsequence := hemitted.expectedSequence
  have hprevious := hemitted.predecessor
  have hdigest := hemitted.digest
  dsimp only at hpayload hsequence hprevious hdigest
  subst hpayload hsequence hprevious hdigest
  unfold nextCommand commandFromEvent
  exact dif_pos hgenesis

theorem opened_of_start {command : SchedulerCommand}
    (h : start sha256 command = .ok ⟨event, state⟩) :
    genesisCommand event = .ok command ∧
      ∃ binding, event = openedBy sha256 binding event.id event.commandId ∧
        state = opened sha256 binding event.id event.commandId := by
  unfold start at h
  split at h
  · rename_i binding hkind
    simp only [check_bind_eq_ok_iff, ensure_eq_ok_iff, Bool.and_eq_true,
      decide_eq_true_eq] at h
    obtain ⟨-, ⟨⟨⟨⟨⟨hsemantics, hrun⟩, hrevision⟩, hsequence⟩, hprevious⟩,
      hdigest⟩, -, h⟩ := h
    obtain ⟨semantics, commandId, eventId, runId, expectedSequence, previous,
      priorStateDigest, revision, kind, hbound, hshape, hgenesis⟩ := command
    dsimp only at hkind hsemantics hrun hrevision hsequence hprevious hdigest
    subst hkind hsemantics hrun hrevision hsequence hprevious hdigest
    cases h
    refine ⟨?_, binding, rfl, rfl⟩
    unfold genesisCommand commandFromEvent
    exact dif_pos hgenesis
  · cases h

/-! ### Frames -/

/-- No edit touches the binding or the history of commands. -/
theorem frame_of_edits (hedits : EditRun sha256 kind state next) :
    next.binding = state.binding ∧ next.usedCommands = state.usedCommands := by
  induction hedits with
  | refl => exact ⟨rfl, rfl⟩
  | tail _ hedit ih =>
      obtain ⟨hbinding, hused⟩ := ih
      rw [← hbinding, ← hused]
      cases hedit <;> exact ⟨rfl, rfl⟩

theorem frame_of_emitted {command : SchedulerCommand} (hsound : Sound state)
    (hopen : state.phase ≠ .terminal)
    (hemitted : Emitted sha256 state command event next) :
    next.binding = state.binding ∧
      next.usedCommands = state.usedCommands ++ [event.commandId] := by
  obtain ⟨applied, emitted, sequence, happlied, -, rfl, rfl⟩ :=
    hemitted.successor
  have hedits := edits_of_apply hsound hopen happlied
  have hrefresh := (edits_of_refresh sha256 command.kind
    (sound_of_edits hsound hedits)).1
  obtain ⟨hbinding, hused⟩ := frame_of_edits (hedits.trans hrefresh)
  exact ⟨hbinding, congrArg (· ++ [command.commandId]) hused⟩

theorem open_of_decide {command : SchedulerCommand}
    (h : decideCommand sha256 state command = .ok ⟨event, next⟩) :
    state.phase ≠ .terminal := by
  obtain ⟨applied, hcommitted⟩ := committed_of_decideCommand h
  exact hcommitted.opened

end Rebuilt

/-! ### Replay is the log of a run -/

section Replay

variable {sha256 : List UInt8 → Sha256Digest}
variable {state next final : SchedulerState} {event first : SchedulerEvent}
variable {events rest : List SchedulerEvent}
variable {eventIds : List EventId} {commandIds : List CommandId}

/-- What the replay keeps with the state that it has reached. -/
structure Kept (semantics : SchedulerSemantics) (commandIds : List CommandId)
    (state : SchedulerState) : Prop where
  sound : Sound state
  semantics : state.binding.semantics = semantics
  used : ∀ id ∈ commandIds, id ∈ state.usedCommands

theorem Kept.step {semantics : SchedulerSemantics}
    (hkept : Kept semantics commandIds state)
    (hstep : Steps sha256 state event next) :
    Kept semantics (event.commandId :: commandIds) next := by
  obtain ⟨command, h⟩ := hstep
  obtain ⟨hbinding, hused⟩ :=
    frame_of_emitted hkept.sound (open_of_decide h) (emitted_of_decide h)
  refine ⟨sound_of_decideCommand hkept.sound h, hbinding ▸ hkept.semantics, ?_⟩
  intro id hid
  rw [hused, List.mem_append, List.mem_singleton]
  rcases List.mem_cons.mp hid with rfl | hid
  · exact .inr rfl
  · exact .inl (hkept.used id hid)

/-- One event is replayed exactly if the reducer emits it and its identity is
new. -/
theorem replayEvents_cons {semantics : SchedulerSemantics}
    (hkept : Kept semantics commandIds state) :
    replayEvents sha256 semantics state eventIds commandIds (event :: rest) =
      .ok final ↔
    ∃ next, Steps sha256 state event next ∧ event.id ∉ eventIds ∧
      replayEvents sha256 semantics next (event.id :: eventIds)
        (event.commandId :: commandIds) rest = .ok final := by
  rw [replayEvents]
  simp only [check_bind_eq_ok_iff, ensure_eq_ok_iff, decide_eq_true_eq]
  constructor
  · rintro ⟨-, ⟨hfresh, -⟩, h⟩
    obtain ⟨command, -, h⟩ := bind_eq_ok_iff.mp h
    obtain ⟨⟨found, next⟩, hdecide, h⟩ := bind_eq_ok_iff.mp h
    obtain ⟨hsame, hrest⟩ := ensure_bind_eq_ok_iff.mp h
    cases of_decide_eq_true hsame
    exact ⟨next, ⟨command, hdecide⟩, hfresh, hrest⟩
  · rintro ⟨next, ⟨command, hdecide⟩, hfresh, hrest⟩
    have hemitted := emitted_of_decide hdecide
    have hcommand := nextCommand_of_decide hdecide
    obtain ⟨applied, emitted, sequence, -, -, -, hevent⟩ := hemitted.successor
    refine ⟨?_, ⟨hfresh, fun hused => ?_⟩, ?_⟩
    · rw [hevent]
      exact hemitted.semantics.trans hkept.semantics
    · rw [hevent] at hused
      exact hemitted.fresh (hkept.used _ hused)
    · refine bind_eq_ok_iff.mpr ⟨command, hcommand, ?_⟩
      refine bind_eq_ok_iff.mpr ⟨_, hdecide, ?_⟩
      exact ensure_bind_eq_ok_iff.mpr ⟨decide_eq_true rfl, hrest⟩

theorem replayEvents_eq_ok_iff {semantics : SchedulerSemantics}
    (hkept : Kept semantics commandIds state) :
    replayEvents sha256 semantics state eventIds commandIds rest = .ok final ↔
      Run (Steps sha256) state rest final ∧
        (rest.map SchedulerEvent.id).Nodup ∧
        ∀ event ∈ rest, event.id ∉ eventIds := by
  induction rest generalizing state eventIds commandIds with
  | nil =>
      constructor
      · intro h
        cases h
        exact ⟨.nil final, List.nodup_nil, by simp⟩
      · rintro ⟨hrun, -⟩
        cases hrun
        rfl
  | cons event rest ih =>
      rw [replayEvents_cons hkept, List.map_cons, List.nodup_cons,
        List.forall_mem_cons]
      constructor
      · rintro ⟨next, hstep, hfresh, hrest⟩
        obtain ⟨hrun, hnodup, hothers⟩ := (ih (hkept.step hstep)).mp hrest
        refine ⟨.cons hstep hrun, ⟨?_, hnodup⟩, hfresh, ?_⟩
        · intro hrepeated
          obtain ⟨other, hother, hid⟩ := List.mem_map.mp hrepeated
          exact hothers other hother (hid ▸ List.mem_cons_self)
        · intro other hother hseen
          exact hothers other hother (List.mem_cons_of_mem _ hseen)
      · rintro ⟨hrun, ⟨hnew, hnodup⟩, hfresh, hothers⟩
        rcases hrun with _ | ⟨hstep, hrun⟩
        refine ⟨_, hstep, hfresh,
          (ih (hkept.step hstep)).mpr ⟨hrun, hnodup, ?_⟩⟩
        intro other hother hseen
        rcases List.mem_cons.mp hseen with hid | hseen
        · exact hnew (hid ▸ List.mem_map_of_mem hother)
        · exact hothers other hother hseen

theorem kept_of_starts (h : Starts sha256 event state) :
    Kept event.semantics [event.commandId] state := by
  obtain ⟨command, hstart⟩ := h
  have hsound : Sound state := sound_of_started ⟨command, _, hstart, rfl⟩
  obtain ⟨-, binding, hevent, hstate⟩ := opened_of_start hstart
  refine ⟨hsound, ?_, ?_⟩
  · rw [hstate, hevent]
    rfl
  · intro id hid
    rw [hstate]
    exact hid

theorem replay_cons : replay sha256 (event :: rest) = .ok final ↔
    ∃ initial, Starts sha256 event initial ∧
      replayEvents sha256 event.semantics initial [event.id] [event.commandId]
        rest = .ok final := by
  unfold replay
  constructor
  · intro h
    obtain ⟨command, -, h⟩ := bind_eq_ok_iff.mp h
    obtain ⟨⟨found, initial⟩, hstart, h⟩ := bind_eq_ok_iff.mp h
    obtain ⟨hsame, hrest⟩ := ensure_bind_eq_ok_iff.mp h
    cases of_decide_eq_true hsame
    exact ⟨initial, ⟨command, hstart⟩, hrest⟩
  · rintro ⟨initial, ⟨command, hstart⟩, hrest⟩
    refine bind_eq_ok_iff.mpr ⟨command, (opened_of_start hstart).1, ?_⟩
    refine bind_eq_ok_iff.mpr ⟨_, hstart, ?_⟩
    exact ensure_bind_eq_ok_iff.mpr ⟨decide_eq_true rfl, hrest⟩

theorem replay_eq_ok_iff : replay sha256 events = .ok final ↔
    Log sha256 events final ∧ (events.map SchedulerEvent.id).Nodup := by
  cases events with
  | nil =>
      constructor
      · intro h
        cases h
      · rintro ⟨⟨first, initial, rest, -, -, h⟩, -⟩
        cases h
  | cons first rest =>
      rw [replay_cons, List.map_cons, List.nodup_cons]
      constructor
      · rintro ⟨initial, hstart, hrest⟩
        obtain ⟨hrun, hnodup, hothers⟩ :=
          (replayEvents_eq_ok_iff (kept_of_starts hstart)).mp hrest
        refine ⟨⟨first, initial, rest, hstart, hrun, rfl⟩, ?_, hnodup⟩
        intro hrepeated
        obtain ⟨other, hother, hid⟩ := List.mem_map.mp hrepeated
        exact hothers other hother (List.mem_singleton.mpr hid)
      · rintro ⟨⟨_, initial, _, hstart, hrun, heq⟩, hnew, hnodup⟩
        cases heq
        refine ⟨initial, hstart,
          (replayEvents_eq_ok_iff (kept_of_starts hstart)).mpr
            ⟨hrun, hnodup, ?_⟩⟩
        intro other hother hseen
        apply hnew
        rw [← List.mem_singleton.mp hseen]
        exact List.mem_map_of_mem hother

end Replay

end Peritus.Scheduler.Replay
