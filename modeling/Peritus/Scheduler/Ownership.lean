import Peritus.TransitionSystem
import Peritus.Scheduler.Refresh

/-!
Runs of the scheduler, and what holds in every state that one reaches: the live
reservations fit, each holds one active record, and no dispatch is used twice.
-/

namespace Peritus.Scheduler.Ownership

open Peritus.Types Checked TransitionSystem Limits Resource State Selection
open Mutation Canonical Reducer Invariant Edits Sweeps Refresh

section Runs

variable (sha256 : List UInt8 → Sha256Digest)

def Started (state : SchedulerState) : Prop :=
  ∃ command transition, start sha256 command = .ok transition ∧
    transition.state = state

def Accepts (state : SchedulerState) (command : SchedulerCommand)
    (next : SchedulerState) : Prop :=
  ∃ transition, decideCommand sha256 state command = .ok transition ∧
    transition.state = next

variable {sha256} {state next : SchedulerState} {command : SchedulerCommand}

/-- A genesis that is accepted, with its digest. -/
theorem start_eq_ok {transition : SchedulerTransition}
    (h : start sha256 command = .ok transition) :
    ∃ binding, command.kind = .startScheduler binding ∧
      (SchedulerState.genesis binding command.eventId
        command.commandId).estimatedEncodedBytes ≤ binding.limits.stateBytes ∧
      transition.state =
        { SchedulerState.genesis binding command.eventId command.commandId with
          stateDigest := stateDigest sha256
            (SchedulerState.genesis binding command.eventId
              command.commandId) } := by
  unfold start at h
  split at h
  · rename_i binding hkind
    obtain ⟨_, h⟩ := check_bind_eq_ok_iff.mp h
    obtain ⟨_, h⟩ := ensure_bind_eq_ok_iff.mp h
    obtain ⟨hbytes, h⟩ := ensure_bind_eq_ok_iff.mp h
    cases h
    exact ⟨binding, hkind, of_decide_eq_true hbytes, rfl⟩
  · cases h

theorem sound_of_started (h : Started sha256 state) : Sound state := by
  obtain ⟨command, transition, hstart, rfl⟩ := h
  obtain ⟨binding, _, _, hstate⟩ := start_eq_ok hstart
  have hsound := sound_genesis binding command.eventId command.commandId
  rw [hstate]
  exact { hsound with ledger := { hsound.ledger with } }

theorem sound_of_accepts (hsound : Sound state)
    (h : Accepts sha256 state command next) : Sound next := by
  obtain ⟨transition, hdecide, rfl⟩ := h
  exact sound_of_decideCommand hsound hdecide

theorem sound_of_reachable (h : Reachable (Started sha256) (Accepts sha256) state) :
    Sound state :=
  h.invariant (fun _ hs => sound_of_started hs)
    fun _ _ _ hsound haccepts => sound_of_accepts hsound haccepts

/-- An accepted command as its edits, and the state it leaves behind. -/
theorem edits_of_accepts (hsound : Sound state)
    (h : Accepts sha256 state command next) :
    ∃ applied event, apply sha256 state command.kind = .ok (applied, event) ∧
      EditRun sha256 command.kind state applied ∧
      EditRun sha256 command.kind applied (refresh applied) ∧
      next.work = (refresh applied).work ∧
      next.reservations = (refresh applied).reservations ∧
      next.binding = (refresh applied).binding ∧
      next.enqueueOrdinal = (refresh applied).enqueueOrdinal := by
  obtain ⟨transition, hdecide, rfl⟩ := h
  obtain ⟨applied, hcommitted⟩ := committed_of_decideCommand hdecide
  obtain ⟨event, happlied⟩ := hcommitted.handled
  obtain ⟨hedits, hrefresh⟩ := hcommitted.edits hsound
  obtain ⟨sequence, -, hnext⟩ := hcommitted.committed
  rw [hnext]
  exact ⟨applied, event, happlied, hedits, hrefresh, rfl, rfl, rfl, rfl⟩

theorem binding_of_edits {kind : SchedulerCommandKind}
    (hedits : EditRun sha256 kind state next) :
    next.binding = state.binding := by
  induction hedits with
  | refl => rfl
  | tail _ hedit ih =>
      rw [← ih]
      cases hedit <;> rfl

theorem binding_of_accepts (hsound : Sound state)
    (h : Accepts sha256 state command next) : next.binding = state.binding := by
  obtain ⟨applied, event, -, hedits, hrefresh, -, -, hbinding, -⟩ :=
    edits_of_accepts hsound h
  exact hbinding.trans (binding_of_edits (hedits.trans hrefresh))

/-- What a genesis has, every edit keeps and no cursor touches, every reachable
state has. -/
theorem holds_of_reachable (inv : SchedulerState → Prop)
    (hgenesis : ∀ binding eventId commandId digest,
      inv { SchedulerState.genesis binding eventId commandId with
        stateDigest := digest })
    (hedit : ∀ kind state next, Sound state → inv state →
      Edit sha256 kind state next → inv next)
    (hcommit : ∀ state sequence eventId commandId digest, inv state →
      inv { advanceCursor state sequence eventId commandId with
        stateDigest := digest })
    (h : Reachable (Started sha256) (Accepts sha256) state) : inv state := by
  have hedits : ∀ kind state next, Sound state → inv state →
      EditRun sha256 kind state next → inv next := by
    intro kind state next hsound hinv hrun
    induction hrun with
    | refl => exact hinv
    | tail hbefore hlast ih =>
        exact hedit kind _ _ (sound_of_edits hsound hbefore) ih hlast
  suffices hboth : Sound state ∧ inv state from hboth.2
  refine @Reachable.invariant _ _ _ _ (fun state => Sound state ∧ inv state)
    ?_ ?_ _ h
  · intro first hstarted
    refine ⟨sound_of_started hstarted, ?_⟩
    obtain ⟨command, transition, hstart, rfl⟩ := hstarted
    obtain ⟨binding, -, -, hstate⟩ := start_eq_ok hstart
    rw [hstate]
    exact hgenesis _ _ _ _
  · rintro first command last ⟨hsound, hinv⟩ haccepts
    refine ⟨sound_of_accepts hsound haccepts, ?_⟩
    obtain ⟨transition, hdecide, rfl⟩ := haccepts
    obtain ⟨applied, hcommitted⟩ := committed_of_decideCommand hdecide
    obtain ⟨hfirst, hrefresh⟩ := hcommitted.edits hsound
    obtain ⟨sequence, -, hnext⟩ := hcommitted.committed
    rw [hnext]
    exact hcommit _ _ _ _ _ (hedits _ _ _ hsound hinv (hfirst.trans hrefresh))

end Runs

/-! ### Dispatch identities -/

/-- The identities of the dispatches among the commands of a run. -/
def dispatched (commands : List SchedulerCommand) : List DispatchId :=
  commands.filterMap fun command =>
    match command.kind with
    | .dispatchNext dispatchId _ => some dispatchId
    | _ => none

section Dispatches

variable {sha256 : List UInt8 → Sha256Digest} {state next : SchedulerState}
variable {command : SchedulerCommand}

/-- An accepted command cuts no dispatch from the history, and a dispatch adds
an identity that was not in it. -/
theorem used_of_accepts (hsound : Sound state)
    (h : Accepts sha256 state command next) :
    (∀ id ∈ state.usedDispatches, id ∈ next.usedDispatches) ∧
      ∀ dispatchId dispatchToken,
        command.kind = .dispatchNext dispatchId dispatchToken →
        dispatchId ∉ state.usedDispatches ∧
          dispatchId ∈ next.usedDispatches := by
  obtain ⟨transition, hdecide, rfl⟩ := h
  obtain ⟨applied, hcommitted⟩ := committed_of_decideCommand hdecide
  obtain ⟨event, happlied⟩ := hcommitted.handled
  obtain ⟨hedits, hrefresh⟩ := hcommitted.edits hsound
  obtain ⟨sequence, _, hnext⟩ := hcommitted.committed
  have hkept : ∀ id ∈ applied.usedDispatches,
      id ∈ transition.state.usedDispatches := by
    intro id hid
    rw [hnext]
    exact used_of_edits hrefresh id hid
  refine ⟨fun id hid => hkept id (used_of_edits hedits id hid), ?_⟩
  intro dispatchId dispatchToken hkind
  rw [hkind] at happlied
  obtain ⟨_, hfresh, hused⟩ := edits_of_dispatch sha256 hsound happlied
  exact ⟨hfresh, hkept dispatchId hused⟩

theorem dispatched_cons {commands : List SchedulerCommand} {id : DispatchId}
    (h : id ∈ dispatched (command :: commands)) :
    (∃ dispatchToken, command.kind = .dispatchNext id dispatchToken) ∨
      id ∈ dispatched commands := by
  obtain ⟨found, hfound, hkind⟩ := List.mem_filterMap.mp h
  split at hkind
  · rename_i dispatchId dispatchToken heq
    cases hkind
    rcases List.mem_cons.mp hfound with rfl | hrest
    · exact .inl ⟨dispatchToken, heq⟩
    · refine .inr (List.mem_filterMap.mpr ⟨found, hrest, ?_⟩)
      rw [heq]
  · cases hkind

/-- The dispatches of a run are new to its first state and to one another. -/
theorem dispatched_of_run {commands : List SchedulerCommand}
    (hsound : Sound state) (hrun : Run (Accepts sha256) state commands next) :
    (dispatched commands).Nodup ∧
      ∀ id ∈ dispatched commands, id ∉ state.usedDispatches := by
  induction hrun with
  | nil => exact ⟨.nil, fun _ h => by cases h⟩
  | @cons state middle last command commands hstep _ ih =>
      obtain ⟨hkept, hnew⟩ := used_of_accepts hsound hstep
      obtain ⟨hnodup, hfresh⟩ := ih (sound_of_accepts hsound hstep)
      constructor
      · unfold dispatched
        rw [List.filterMap_cons]
        split
        · exact hnodup
        · rename_i id hid
          split at hid
          · rename_i dispatchId dispatchToken hkind
            cases hid
            refine List.nodup_cons.mpr ⟨fun hmem => ?_, hnodup⟩
            exact hfresh _ hmem (hnew _ dispatchToken hkind).2
          · cases hid
      · intro id hid hused
        rcases dispatched_cons hid with ⟨dispatchToken, hkind⟩ | hrest
        · exact (hnew id dispatchToken hkind).1 hused
        · exact hfresh id hrest (hkept id hused)

end Dispatches

/-! ### Ownership and capacity -/

/-- Reservations that fit the scheduler and each worker. -/
def Fits (state : SchedulerState) : Prop :=
  (∀ kind, globalQuantityFrom kind state.reservations ≤
      state.binding.capacity.quantity kind) ∧
    ∀ worker ∈ state.workers,
      workerReservationCount state worker.id ≤ worker.descriptor.concurrency ∧
        ∀ kind, workerQuantityFrom worker.id kind state.reservations ≤
          worker.descriptor.capacity.quantity kind

/-- Active work has one owner, of its current attempt, and other work none. -/
def OwnedOnce (state : SchedulerState) : Prop :=
  ∀ record ∈ state.work,
    (record.phase = .reserved ∨ record.phase = .running ∨
        record.phase = .cancelling →
      owners state.reservations record.id = 1) ∧
    (¬ (record.phase = .reserved ∨ record.phase = .running ∨
        record.phase = .cancelling) →
      owners state.reservations record.id = 0) ∧
    ∀ reservation ∈ state.reservations, reservation.workId = record.id →
      reservation.attempt.get = record.attemptsStarted

def LiveOwners (state : SchedulerState) : Prop :=
  ∀ worker ∈ state.workers, worker.phase = .lost ∨ worker.phase = .removed →
    ∀ reservation ∈ state.reservations, reservation.workerId ≠ worker.id

section Invariants

variable {state : SchedulerState}

theorem fits_of_sound (hsound : Sound state) : Fits state :=
  ⟨hsound.served.global, fun worker hworker =>
    ⟨hsound.served.concurrency worker hworker,
      hsound.served.onWorker worker hworker⟩⟩

theorem ownedOnce_of_sound (hsound : Sound state) : OwnedOnce state := by
  intro record hrecord
  have howned := hsound.owned.owned record hrecord
  refine ⟨fun hactive => ?_, fun hinactive => ?_, fun reservation hmem hid => ?_⟩
  · rwa [if_pos (isActive_iff.mpr hactive)] at howned
  · rwa [if_neg fun hactive => hinactive (isActive_iff.mp hactive)] at howned
  · exact (hsound.owned.holds hsound.work.sorted hmem hrecord hid.symm).attempt

theorem liveOwners_of_sound (hsound : Sound state) : LiveOwners state := by
  intro worker hworker hgone reservation hreservation heq
  obtain ⟨found, hfound, hserves⟩ :=
    hsound.served.served reservation hreservation
  rw [hsound.served.sorted.inj hworker hfound
    (heq.symm.trans hserves.id.symm)] at hgone
  rcases hgone with hlost | hremoved
  · exact hserves.live.1 hlost
  · exact hserves.live.2 hremoved

end Invariants

theorem ownership_and_capacity {sha256 : List UInt8 → Sha256Digest}
    {genesis state : SchedulerState} {commands : List SchedulerCommand}
    (hstart : Started sha256 genesis)
    (hrun : Run (Accepts sha256) genesis commands state) :
    Fits state ∧ OwnedOnce state ∧
      (∀ record ∈ state.work,
        record.attemptsStarted ≤ record.spec.maximumAttempts.get) ∧
      LiveOwners state ∧ (dispatched commands).Nodup := by
  have hsound := sound_of_reachable ⟨genesis, commands, hstart, hrun⟩
  exact ⟨fits_of_sound hsound, ownedOnce_of_sound hsound,
    fun record hrecord => (hsound.work.records record hrecord).attempts,
    liveOwners_of_sound hsound,
    (dispatched_of_run (sound_of_started hstart) hrun).1⟩

/-! ### Commands built from the state they meet -/

section Attempts

variable (sha256 : List UInt8 → Sha256Digest)

/-- The successor of an applied command. -/
def commit (applied : SchedulerState) (sequence : EventSequence)
    (eventId : EventId) (commandId : CommandId) : SchedulerState :=
  let successor := advanceCursor (refresh applied) sequence eventId commandId
  { successor with stateDigest := stateDigest sha256 successor }

/-- An identity to spend and a command kind. -/
abbrev Request := OpaqueIdentifier × SchedulerCommandKind

/-- The state after requests that all meet the fences of their state. -/
def attempts : SchedulerState → List Request → Option SchedulerState
  | state, [] => some state
  | state, (id, kind) :: rest =>
      if state.phase ≠ .terminal ∧ state.usedCommands.length < 65535 ∧
          id ∉ state.usedCommands ∧ kind.isStart = false then
        match state.sequence.checkedNext, apply sha256 state kind with
        | .ok sequence, .ok (applied, _) =>
            if (refresh applied).estimatedEncodedBytes ≤
                (refresh applied).binding.limits.stateBytes then
              attempts (commit sha256 applied sequence id id) rest
            else none
        | _, _ => none
      else none

variable {sha256} {state next : SchedulerState}

/-- A command built from a state meets its fences. -/
theorem exists_fromState {id : OpaqueIdentifier} {kind : SchedulerCommandKind}
    (hopen : state.phase ≠ .terminal)
    (hroom : state.usedCommands.length < 65535)
    (hfresh : id ∉ state.usedCommands) (hkind : kind.isStart = false) :
    ∃ command : SchedulerCommand, command.kind = kind ∧
      command.eventId = id ∧ command.commandId = id ∧
      validateFences state command = .ok () := by
  have hcommand : ∃ command, SchedulerCommand.fromState state id id kind =
      .ok command := by
    unfold SchedulerCommand.fromState
    rw [dif_neg (by rw [hkind]; decide)]
    exact ⟨_, rfl⟩
  obtain ⟨command, hcommand⟩ := hcommand
  refine ⟨command, ?_⟩
  unfold SchedulerCommand.fromState at hcommand
  rw [dif_neg (by rw [hkind]; decide)] at hcommand
  cases hcommand
  refine ⟨rfl, rfl, rfl, ?_⟩
  simp [validateFences, hopen, hroom, hfresh, hkind]
  rfl

theorem accepts_of_apply {id : OpaqueIdentifier} {kind : SchedulerCommandKind}
    {applied : SchedulerState} {event : SchedulerEventKind}
    {sequence : EventSequence} (hopen : state.phase ≠ .terminal)
    (hroom : state.usedCommands.length < 65535)
    (hfresh : id ∉ state.usedCommands) (hkind : kind.isStart = false)
    (hsequence : state.sequence.checkedNext = .ok sequence)
    (happlied : apply sha256 state kind = .ok (applied, event))
    (hbytes : (refresh applied).estimatedEncodedBytes ≤
      (refresh applied).binding.limits.stateBytes) :
    ∃ command : SchedulerCommand, command.kind = kind ∧
      Accepts sha256 state command (commit sha256 applied sequence id id) := by
  obtain ⟨command, hsame, hevent, hid, hfences⟩ :=
    exists_fromState hopen hroom hfresh hkind
  have hnext : checkedNextSequence state.sequence = .ok sequence := by
    unfold checkedNextSequence
    rw [hsequence]
  refine ⟨command, hsame, ?_⟩
  unfold Accepts decideCommand
  rw [hfences, hnext, hsame, happlied, hevent, hid]
  simp only [bind, Except.bind, decide_eq_true hbytes, ensure_true]
  exact ⟨_, rfl, rfl⟩

theorem run_of_attempts {requests : List Request}
    (h : attempts sha256 state requests = some next) :
    ∃ commands : List SchedulerCommand,
      commands.map SchedulerCommand.kind = requests.map Prod.snd ∧
        Run (Accepts sha256) state commands next := by
  induction requests generalizing state with
  | nil =>
      cases h
      exact ⟨[], rfl, .nil next⟩
  | cons request rest ih =>
      obtain ⟨id, kind⟩ := request
      unfold attempts at h
      split at h
      · rename_i hfences
        obtain ⟨hopen, hroom, hfresh, hkind⟩ := hfences
        split at h
        · rename_i sequence applied event hsequence happlied
          split at h
          · rename_i hbytes
            obtain ⟨command, hsame, haccepts⟩ := accepts_of_apply hopen hroom
              hfresh hkind hsequence happlied hbytes
            obtain ⟨commands, hkinds, hrun⟩ := ih h
            refine ⟨command :: commands, ?_, .cons haccepts hrun⟩
            rw [List.map_cons, List.map_cons, hkinds, hsame]
          · cases h
        · cases h
      · cases h

theorem accepts_of_attempts {request : Request}
    (h : attempts sha256 state [request] = some next) :
    ∃ command : SchedulerCommand, command.kind = request.2 ∧
      Accepts sha256 state command next := by
  obtain ⟨commands, hkinds, hrun⟩ := run_of_attempts h
  cases hrun with
  | nil => cases hkinds
  | cons haccepts hrest =>
      cases hrest with
      | nil => exact ⟨_, (List.cons.inj hkinds).1, haccepts⟩
      | cons => cases (List.cons.inj hkinds).2

end Attempts

/-! ### A small scheduler -/

def smallRevision : RevisionTuple where
  acceptanceSpecId := .ofNat 2
  harnessId := .ofNat 3
  workspaceId := .ofNat 4
  workspaceGeneration := PositiveNumber.first
  workspaceRevision := PositiveNumber.first
  policyId := .ofNat 5
  providerProfileId := .ofNat 6

/-- Eight units of one kind. -/
def smallCapacity : ResourceVector where
  entries := [⟨.ofNat 1, .ofNat 8⟩]
  nonempty := by decide
  canonical := List.pairwise_singleton _ _

def smallBinding : SchedulerBinding where
  semantics := .strictRecoveryQueueV2
  runId := .ofNat 7
  schedulerId := .ofNat 8
  revision := smallRevision
  limits := SchedulerLimits.production
  capacity := smallCapacity
  dimensions := by decide

def smallWorker : WorkerDescriptor where
  id := .ofNat 10
  owner := .ofNat 11
  classes := [.tool]
  capacity := smallCapacity
  concurrency := 1
  nonempty := by decide
  canonical := List.pairwise_singleton _ _
  concurrent := by decide
  bound := by decide
  dimensions := by decide

def smallWork : WorkSpec where
  id := .ofNat 12
  owner := .ofNat 11
  revision := smallRevision
  executionClass := .tool
  priority := 0
  request := smallCapacity
  budgetReservation := none
  dependencies := []
  parent := none
  maximumAttempts := .ofNat 1
  recovery := .retrySafe
  payloadDigest := zeroDigest
  canonical := .nil
  notSelf := by decide
  otherParent := by decide
  dependencyBound := by decide
  attemptBound := by decide
  dimensions := by decide

theorem smallWork_notSelf (id : WorkId) : id ∉ smallWork.dependencies :=
  List.not_mem_nil

def smallStart (sha256 : List UInt8 → Sha256Digest) : SchedulerState :=
  let state := SchedulerState.genesis smallBinding (.ofNat 20) (.ofNat 20)
  { state with stateDigest := stateDigest sha256 state }

def smallGenesis : SchedulerCommand where
  semantics := .strictRecoveryQueueV2
  commandId := .ofNat 20
  eventId := .ofNat 20
  runId := smallBinding.runId
  expectedSequence := 0
  expectedPreviousEvent := none
  priorStateDigest := zeroDigest
  revision := smallBinding.revision
  kind := .startScheduler smallBinding
  sequenceBound := Nat.zero_le _
  predecessor := genesis_predecessor
  genesis := by decide

theorem started_smallStart (sha256 : List UInt8 → Sha256Digest) :
    Started sha256 (smallStart sha256) := by
  have hstart : (start sha256 smallGenesis).toOption.map (·.state) =
      some (smallStart sha256) := by rfl
  obtain ⟨transition, hsome, hstate⟩ := Option.map_eq_some_iff.mp hstart
  exact ⟨smallGenesis, transition, toOption_eq_some_iff.mp hsome, hstate⟩

/-- One worker, and one piece of work dispatched to it and then cancelled. -/

def smallRequests : List Request :=
  [(.ofNat 21, .registerWorker smallWorker),
   (.ofNat 22, .admitWork smallWork),
   (.ofNat 23, .dispatchNext (.ofNat 30) zeroDigest),
   (.ofNat 24, .cancelWork (.ofNat 12))]

theorem cancelling_smallRequests (sha256 : List UInt8 → Sha256Digest) :
    (attempts sha256 (smallStart sha256) smallRequests).map
      (fun state => state.work.map (·.phase)) = some [.cancelling] := by
  cbv

/-- The worker acknowledges the cancellation. -/
def smallAcknowledged : Request := (.ofNat 25, .acknowledgeCancellation (.ofNat 30))

theorem exists_smallAcknowledged (sha256 : List UInt8 → Sha256Digest) :
    ∃ commands state command next,
      Run (Accepts sha256) (smallStart sha256) commands state ∧
      Accepts sha256 state command next ∧ command.kind = smallAcknowledged.2 ∧
      state.work.map (·.phase) = [.cancelling] ∧
      next.work.map (·.phase) = [.terminal] := by
  have hphases : ((attempts sha256 (smallStart sha256) smallRequests).bind
      fun state => (attempts sha256 state [smallAcknowledged]).map fun next =>
        (state.work.map (·.phase), next.work.map (·.phase))) =
      some ([.cancelling], [.terminal]) := by
    cbv
  obtain ⟨state, hstate, hnext⟩ := Option.bind_eq_some_iff.mp hphases
  obtain ⟨next, hnext, hphases⟩ := Option.map_eq_some_iff.mp hnext
  obtain ⟨commands, -, hrun⟩ := run_of_attempts hstate
  obtain ⟨command, hkind, haccepts⟩ := accepts_of_attempts hnext
  exact ⟨commands, state, command, next, hrun, haccepts, hkind,
    Prod.mk.inj hphases⟩

theorem ownership_and_capacity_of_dispatch : ∃ commands state,
    Run (Accepts fun _ => zeroDigest) (smallStart fun _ => zeroDigest) commands
      state ∧
    commands.map SchedulerCommand.kind = smallRequests.map Prod.snd ∧
    Fits state ∧ OwnedOnce state ∧
      (∀ record ∈ state.work,
        record.attemptsStarted ≤ record.spec.maximumAttempts.get) ∧
      LiveOwners state ∧ (dispatched commands).Nodup := by
  obtain ⟨state, hstate, _⟩ :=
    Option.map_eq_some_iff.mp (cancelling_smallRequests fun _ => zeroDigest)
  obtain ⟨commands, hkinds, hrun⟩ := run_of_attempts hstate
  exact ⟨commands, state, hrun, hkinds,
    ownership_and_capacity (started_smallStart _) hrun⟩

end Peritus.Scheduler.Ownership
