import Peritus.Scheduler.Ownership
import Peritus.Scheduler.Wire

/-!
The family-72 checkpoint of a scheduler, its canonical size, and the estimate
that a state is admitted by.
-/

namespace Peritus.Scheduler.Checkpoint

open Peritus.Types Checked Collections SortedTable TransitionSystem Codec.Writer
open Codec.Frame Codec.Revision Limits Resource State Canonical Wire Mutation Reducer
open Invariant Edits Refresh Ownership

/-! ### Writers -/

def writeWorker (value : WorkerRecord) : Payload :=
  writeDescriptor value.descriptor ++ writeU8 (workerPhaseTag value.phase)

def writeWorkTerminal : WorkTerminal → Payload
  | .succeeded resultDigest => writeU8 1 ++ writeDigest resultDigest
  | .failed failureDigest => writeU8 2 ++ writeDigest failureDigest
  | .dependencyFailed dependency => writeU8 3 ++ writeId dependency
  | .cancelled => writeU8 4
  | .ambiguous dispatchId => writeU8 5 ++ writeId dispatchId
  | .exhausted causeDigest => writeU8 6 ++ writeDigest causeDigest
  | .abandoned causeDigest => writeU8 7 ++ writeDigest causeDigest

def writeWork (value : WorkRecord) : Payload :=
  writeSpec value.spec ++ writeU8 (workPhaseTag value.phase)
    ++ writeU64 value.enqueueOrdinal ++ writeU16 value.bypasses
    ++ writeU16 value.attemptsStarted
    ++ writeOption value.retryCause writeDigest
    ++ writeOption value.terminal writeWorkTerminal

def writeReservation (value : SchedulerReservation) : Payload :=
  writeId value.workId ++ writeId value.dispatchId ++ writeId value.workerId
    ++ writeId value.owner ++ writeU16 value.attempt.get
    ++ writeRevision value.revision ++ writeResources value.resources
    ++ writeDigest value.dispatchToken ++ writeBool value.started

def writeTerminal (value : SchedulerTerminal) : Payload :=
  writeU8 (terminalKindTag value.kind)
    ++ writeList value.nonSuccessfulWork writeId ++ writeDigest value.digest

def writeState (state : SchedulerState) : Payload :=
  writeBinding state.binding ++ writeU8 (schedulerPhaseTag state.phase)
    ++ writeU64 state.sequence.get ++ writeId state.lastEventId
    ++ writeDigest state.stateDigest ++ writeList state.workers writeWorker
    ++ writeList state.work writeWork
    ++ writeList state.reservations writeReservation
    ++ writeList state.usedDispatches writeId ++ writeU64 state.enqueueOrdinal
    ++ writeU64 state.dispatchOrdinal ++ writeList state.usedCommands writeId
    ++ writeOption state.terminal writeTerminal

def stateFamily : Nat := 72

/-- What `encode_payload` of the frame of one schema writes. -/
def encodeStateFrame (state : SchedulerState) (semantics : SchedulerSemantics)
    (limits : CodecLimits) : Except CodecError (List UInt8) := do
  ensure (decide (state.binding.semantics = semantics))
    (.at .wrongSchemaVersion 8)
  encodeMessage stateFamily semantics.schemaVersion (writeState state) limits

def encodeSchedulerState (state : SchedulerState) (limits : CodecLimits) :
    Except CodecError (List UInt8) :=
  encodeStateFrame state state.binding.semantics limits

theorem encodeSchedulerState_eq_ok_iff {state : SchedulerState}
    {limits : CodecLimits} {frame : List UInt8} :
    encodeSchedulerState state limits = .ok frame ↔
      encodeMessage stateFamily state.binding.semantics.schemaVersion
        (writeState state) limits = .ok frame := by
  unfold encodeSchedulerState encodeStateFrame
  rw [ensure_bind_eq_ok_iff, decide_eq_true_eq, eq_self, true_and]

/-! ### Sizes -/

/-- The number of entries of a vector. -/
def dimensions (value : ResourceVector) : Nat :=
  value.entries.length

def workTerminalBytes : WorkTerminal → Nat
  | .succeeded _ => 33
  | .failed _ => 33
  | .dependencyFailed _ => 17
  | .cancelled => 1
  | .ambiguous _ => 17
  | .exhausted _ => 33
  | .abandoned _ => 33

theorem workTerminalBytes_le (value : WorkTerminal) :
    workTerminalBytes value ≤ 33 := by
  cases value <;> simp [workTerminalBytes]

/-- What a worker record adds to its fixed fields. -/
def workerParts (value : WorkerRecord) : Nat :=
  value.descriptor.classes.length + 10 * dimensions value.descriptor.capacity

/-- What a work record adds to its fixed fields, its request and its
dependencies. -/
def workParts (value : WorkRecord) : Nat :=
  present value.spec.budgetReservation 16 + present value.spec.parent 16
    + present value.retryCause 32
    + (value.terminal.map workTerminalBytes).getD 0

def workBytes (value : WorkRecord) : Nat :=
  190 + 10 * dimensions value.spec.request
    + 16 * value.spec.dependencies.length + workParts value

def terminalBytes (value : SchedulerTerminal) : Nat :=
  37 + 16 * value.nonSuccessfulWork.length

/-- The size of a checkpoint, record by record. -/
def checkpointBytes (state : SchedulerState) : Nat :=
  264 + 10 * dimensions state.binding.capacity
    + (state.workers.map fun worker => 43 + workerParts worker).sum
    + (state.work.map workBytes).sum
    + (state.reservations.map fun reservation =>
        199 + 10 * dimensions reservation.resources).sum
    + 16 * state.usedDispatches.length + 16 * state.usedCommands.length
    + (state.terminal.map terminalBytes).getD 0

theorem size_writeEntry (value : ResourceEntry) :
    size (writeEntry value) = 10 := by
  simp [writeEntry]

@[simp] theorem size_writeResources (value : ResourceVector) :
    size (writeResources value) = 4 + 10 * dimensions value :=
  size_writeList_of_forall size_writeEntry _

theorem size_writeClass (value : ExecutionClass) :
    size (writeClass value) = 1 :=
  size_writeU8 _

theorem size_ids (values : List OpaqueIdentifier) :
    size (writeList values writeId) = 4 + 16 * values.length :=
  size_writeList_of_forall size_writeId values

theorem size_optionId (value : Option OpaqueIdentifier) :
    size (writeOption value writeId) = 1 + present value 16 :=
  size_writeOption_of_forall size_writeId value

theorem size_writeBinding (value : SchedulerBinding) :
    size (writeBinding value) = 170 + 10 * dimensions value.capacity := by
  simp only [writeBinding, writeLimits, size_append, size_writeId,
    size_writeRevision, size_writeU16, size_writeU32, size_writeU64,
    size_writeResources]
  omega

theorem size_writeWorker (value : WorkerRecord) :
    size (writeWorker value) = 43 + workerParts value := by
  simp only [writeWorker, writeDescriptor, size_append, size_writeId,
    size_writeList_of_forall size_writeClass, size_writeResources,
    size_writeU16, size_writeU8, workerParts]
  omega

theorem size_writeSpec (value : WorkSpec) :
    size (writeSpec value) = 175 + 10 * dimensions value.request
      + 16 * value.dependencies.length
      + present value.budgetReservation 16 + present value.parent 16 := by
  simp only [writeSpec, size_append, size_writeId, size_writeRevision,
    size_writeClass, size_writeU8, size_writeResources, size_optionId, size_ids,
    size_writeU16, size_writeDigest]
  omega

theorem size_writeWorkTerminal (value : WorkTerminal) :
    size (writeWorkTerminal value) = workTerminalBytes value := by
  cases value <;> simp [writeWorkTerminal, workTerminalBytes]

theorem size_writeWork (value : WorkRecord) :
    size (writeWork value) = workBytes value := by
  simp only [writeWork, size_append, size_writeSpec, size_writeU8,
    size_writeU64, size_writeU16, size_writeOption_of_forall size_writeDigest,
    size_writeOption size_writeWorkTerminal, workBytes, workParts]
  omega

theorem size_writeReservation (value : SchedulerReservation) :
    size (writeReservation value) =
      199 + 10 * dimensions value.resources := by
  simp only [writeReservation, size_append, size_writeId, size_writeU16,
    size_writeRevision, size_writeResources, size_writeDigest, size_writeBool]
  omega

theorem size_writeTerminal (value : SchedulerTerminal) :
    size (writeTerminal value) = terminalBytes value := by
  simp only [writeTerminal, size_append, size_writeU8, size_ids,
    size_writeDigest, terminalBytes]
  omega

theorem size_writeState (state : SchedulerState) :
    size (writeState state) = checkpointBytes state := by
  simp only [writeState, size_append, size_writeBinding, size_writeU8,
    size_writeU64, size_writeId, size_writeDigest,
    size_writeList size_writeWorker, size_writeList size_writeWork,
    size_writeList size_writeReservation, size_ids,
    size_writeOption size_writeTerminal, checkpointBytes]
  omega

/-! ### The estimate -/

/-- The estimate before it saturates. -/
def allowance (state : SchedulerState) : Nat :=
  1024 + state.workers.length * 512
    + (state.work.map fun record =>
        512 + record.spec.dependencies.length * 16
          + dimensions record.spec.request * 16).sum
    + state.reservations.length * 384 + state.usedDispatches.length * 16
    + state.usedCommands.length * 16

theorem estimatedEncodedBytes_eq (state : SchedulerState) :
    state.estimatedEncodedBytes = min u64Max (allowance state) :=
  rfl

/-- The parts of varying length fit into what the constants of the estimate
leave beside the fixed fields. -/
def Roomy (state : SchedulerState) : Prop :=
  10 * dimensions state.binding.capacity
      + (state.workers.map workerParts).sum + (state.work.map workParts).sum
      + (state.reservations.map fun reservation =>
          10 * dimensions reservation.resources).sum
      + (state.terminal.map terminalBytes).getD 0 ≤
    760 + 469 * state.workers.length
      + (state.work.map fun record =>
          322 + 6 * dimensions record.spec.request).sum
      + 185 * state.reservations.length

section Exact

variable {state : SchedulerState}

theorem sum_const_add {α : Type} (values : List α) (constant : Nat)
    (w : α → Nat) :
    (values.map fun a => constant + w a).sum =
      constant * values.length + (values.map w).sum := by
  rw [List.sum_map_add, List.map_const', List.sum_replicate_nat, Nat.mul_comm]

theorem checkpointBytes_le_allowance_iff :
    checkpointBytes state ≤ allowance state ↔ Roomy state := by
  have hwork : (state.work.map workBytes).sum
      + (state.work.map fun record =>
          322 + 6 * dimensions record.spec.request).sum =
      (state.work.map workParts).sum
      + (state.work.map fun record =>
          512 + record.spec.dependencies.length * 16
            + dimensions record.spec.request * 16).sum := by
    rw [← List.sum_map_add, ← List.sum_map_add]
    refine congrArg List.sum (List.map_congr_left fun record _ => ?_)
    unfold workBytes
    omega
  unfold checkpointBytes allowance Roomy
  rw [sum_const_add, sum_const_add]
  omega

end Exact

/-! ### Counts of a reachable state -/

theorem length_summarize_le (work : List WorkRecord) :
    (summarize work).2.length ≤ work.length := by
  induction work using List.reverseRecOn with
  | nil => exact Nat.le_refl 0
  | append_singleton work record ih =>
      unfold summarize at ih ⊢
      rw [List.foldl_append, List.length_append]
      simp only [List.foldl_cons, List.foldl_nil, List.length_singleton]
      split
      · exact Nat.le_succ_of_le ih
      · simp only [List.length_append, List.length_singleton]
        exact Nat.succ_le_succ ih

/-- Every list of a checkpoint but the command history is within its bound. -/
structure Listed (state : SchedulerState) : Prop where
  workers : state.workers.length ≤ state.binding.limits.workers
  work : state.work.length ≤ state.binding.limits.retainedWork
  reservations : state.reservations.length ≤
    state.binding.limits.activeReservations
  dispatches : state.usedDispatches.length ≤ 65535
  terminal : ∀ terminal ∈ state.terminal,
    terminal.nonSuccessfulWork.length ≤ state.work.length

section Counts

variable {sha256 : List UInt8 → Sha256Digest} {kind : SchedulerCommandKind}
variable {state next : SchedulerState} {command : SchedulerCommand}

theorem listed_of_edit (hsound : Sound state) (hlisted : Listed state)
    (hedit : Edit sha256 kind state next) : Listed next := by
  cases hedit with
  | worker phase hworker hidle =>
      exact { hlisted with workers := length_replaceRow.trans_le hlisted.workers }
  | register hkind hroom hfresh hfits =>
      exact { hlisted with workers := length_insertAt.trans_le hroom }
  | admitted hkind hopen hchecked =>
      have hroom := (admissible_of_checkAdmission hsound.work.sorted hchecked).room
      exact
        { hlisted with
          work := length_insertAt.trans_le hroom
          terminal := fun terminal hterminal =>
            (hlisted.terminal terminal hterminal).trans
              ((Nat.le_succ _).trans_eq length_insertAt.symm) }
  | rewrite hrecord hrewrite =>
      exact
        { hlisted with
          work := length_replaceRow.trans_le hlisted.work
          terminal := fun terminal hterminal =>
            (hlisted.terminal terminal hterminal).trans_eq
              length_replaceRow.symm }
  | release hreservation hrecord hid hrelease =>
      exact
        { hlisted with
          reservations :=
            (List.length_filter_le _ _).trans hlisted.reservations
          work := length_replaceRow.trans_le hlisted.work
          terminal := fun terminal hterminal =>
            (hlisted.terminal terminal hterminal).trans_eq
              length_replaceRow.symm }
  | start hkind hreservation hrecord hid =>
      exact
        { hlisted with
          reservations := length_replaceRow.trans_le hlisted.reservations
          work := length_replaceRow.trans_le hlisted.work
          terminal := fun terminal hterminal =>
            (hlisted.terminal terminal hterminal).trans_eq
              length_replaceRow.symm }
  | reserve hkind hroom hfresh hhistory hrecord hworker hfeasible hbegin =>
      exact
        { hlisted with
          reservations := length_insertAt.trans_le hroom
          dispatches := length_insertAt.trans_le hhistory
          work := length_replaceRow.trans_le hlisted.work
          terminal := fun terminal hterminal =>
            (hlisted.terminal terminal hterminal).trans_eq
              length_replaceRow.symm }
  | control hopen hphase => exact { hlisted with }
  | finalize hterminal hidle =>
      refine { hlisted with terminal := ?_ }
      rintro terminal ⟨⟩
      exact length_summarize_le state.work

theorem listed_of_reachable
    (h : Reachable (Started sha256) (Accepts sha256) state) : Listed state := by
  refine holds_of_reachable Listed ?_ ?_ ?_ h
  · intro binding eventId commandId digest
    exact ⟨Nat.zero_le _, Nat.zero_le _, Nat.zero_le _, Nat.zero_le _, nofun⟩
  · intro kind state next hsound hlisted hedit
    exact listed_of_edit hsound hlisted hedit
  · intro state sequence eventId commandId digest hlisted
    exact { hlisted with }

theorem usedCommands_of_edits (hedits : EditRun sha256 kind state next) :
    next.usedCommands = state.usedCommands := by
  induction hedits with
  | refl => rfl
  | tail _ hedit ih =>
      rw [← ih]
      cases hedit <;> rfl

/-- The command history is bounded by its fence, and the size by the check that
is made before the command itself is recorded. -/
theorem admitted_of_reachable
    (h : Reachable (Started sha256) (Accepts sha256) state) :
    state.usedCommands.length ≤ 65535 ∧
      allowance state ≤ state.binding.limits.stateBytes + 16 := by
  suffices hall : Sound state ∧ state.usedCommands.length ≤ 65535 ∧
      allowance state ≤ state.binding.limits.stateBytes + 16 from hall.2
  have hsaturated : ∀ (state : SchedulerState) (limits : SchedulerLimits),
      state.estimatedEncodedBytes ≤ limits.stateBytes →
      allowance state ≤ limits.stateBytes := by
    intro state limits hle
    obtain ⟨-, -, -, -, -, -, -, -, -, -, hbytes⟩ := limits.le_production
    rw [estimatedEncodedBytes_eq] at hle
    unfold u64Max at hle
    omega
  refine @Reachable.invariant _ _ _ _ (fun state => Sound state ∧
    state.usedCommands.length ≤ 65535 ∧
      allowance state ≤ state.binding.limits.stateBytes + 16) ?_ ?_ _ h
  · intro first hstarted
    refine ⟨sound_of_started hstarted, ?_⟩
    obtain ⟨command, transition, hstart, rfl⟩ := hstarted
    obtain ⟨binding, -, hbytes, hstate⟩ := start_eq_ok hstart
    rw [hstate]
    exact ⟨Nat.le_of_lt_succ (by decide : 1 < 65536), (hsaturated _ _ hbytes).trans (Nat.le_add_right _ _)⟩
  · rintro first command last ⟨hsound, -, -⟩ haccepts
    refine ⟨sound_of_accepts hsound haccepts, ?_⟩
    obtain ⟨transition, hdecide, rfl⟩ := haccepts
    obtain ⟨applied, hcommitted⟩ := committed_of_decideCommand hdecide
    obtain ⟨hedits, hrefresh⟩ := hcommitted.edits hsound
    obtain ⟨sequence, -, hnext⟩ := hcommitted.committed
    have hused : (refresh applied).usedCommands = first.usedCommands :=
      usedCommands_of_edits (hedits.trans hrefresh)
    have hbytes := hsaturated _ _ hcommitted.bytes
    have hlength : transition.state.usedCommands.length =
        (refresh applied).usedCommands.length + 1 := by
      rw [hnext]
      exact List.length_append
    refine ⟨?_, ?_⟩
    · rw [hlength, hused]
      exact hcommitted.history
    · have hgrown : allowance transition.state =
          allowance (refresh applied) + 16 := by
        unfold allowance
        rw [hlength, hnext]
        simp only [advanceCursor]
        omega
      rw [hgrown, hnext]
      exact Nat.add_le_add_right hbytes 16

theorem estimate_of_reachable
    (h : Reachable (Started sha256) (Accepts sha256) state) :
    state.estimatedEncodedBytes = allowance state := by
  obtain ⟨-, hbytes⟩ := admitted_of_reachable h
  obtain ⟨-, -, -, -, -, -, -, -, -, -, hlimit⟩ :=
    state.binding.limits.le_production
  rw [estimatedEncodedBytes_eq]
  unfold u64Max
  omega

theorem checkpointBytes_genesis (binding : SchedulerBinding) (eventId : EventId)
    (commandId : CommandId) (digest : Sha256Digest) :
    checkpointBytes { SchedulerState.genesis binding eventId commandId with
      stateDigest := digest } = 280 + 10 * dimensions binding.capacity := by
  simp only [checkpointBytes, SchedulerState.genesis, List.map_nil,
    List.sum_nil, List.length_nil, List.length_singleton, Option.map_none,
    Option.getD_none]
  omega

theorem allowance_genesis (binding : SchedulerBinding) (eventId : EventId)
    (commandId : CommandId) (digest : Sha256Digest) :
    allowance { SchedulerState.genesis binding eventId commandId with
      stateDigest := digest } = 1040 := by
  simp [allowance, SchedulerState.genesis]

/-- A genesis that matches its binding is accepted under any bound that leaves
room for its estimate. -/
theorem exists_start {binding : SchedulerBinding}
    (hkind : command.kind = .startScheduler binding)
    (hsemantics : command.semantics = binding.semantics)
    (hrun : command.runId = binding.runId)
    (hrevision : command.revision = binding.revision)
    (hsequence : command.expectedSequence = 0)
    (hprevious : command.expectedPreviousEvent = none)
    (hdigest : command.priorStateDigest = zeroDigest)
    (hbytes : 1040 ≤ binding.limits.stateBytes) :
    ∃ transition, start sha256 command = .ok transition := by
  have hestimate : (SchedulerState.genesis binding command.eventId
      command.commandId).estimatedEncodedBytes ≤ binding.limits.stateBytes := by
    refine Nat.le_trans ?_ hbytes
    rw [estimatedEncodedBytes_eq]
    simp [allowance, SchedulerState.genesis]
  unfold start
  rw [hkind]
  simp only [hsemantics, hrun, hrevision, hsequence, hprevious, hdigest,
    binding.validate_eq_ok, decide_eq_true hestimate, decide_true, Bool.and_true,
    ensure_true]
  exact ⟨_, rfl⟩

/-- What a genesis needs, and what it is estimated at. -/
theorem sizes_of_started (h : Started sha256 state) :
    size (writeState state) = 280 + 10 * dimensions state.binding.capacity ∧
      state.estimatedEncodedBytes = 1040 := by
  rw [estimate_of_reachable ⟨_, [], h, .nil _⟩, size_writeState]
  obtain ⟨command, transition, hstart, rfl⟩ := h
  obtain ⟨binding, -, -, hstate⟩ := start_eq_ok hstart
  rw [hstate]
  exact ⟨checkpointBytes_genesis _ _ _ _, allowance_genesis _ _ _ _⟩

end Counts

/-! ### Narrow schedulers -/

/-- No worker of more than 46 dimensions is registered. -/
def registersNarrow : SchedulerCommandKind → Bool
  | .registerWorker descriptor => decide (dimensions descriptor.capacity ≤ 46)
  | _ => true

/-- At most 70 dimensions in all, and at most 46 of any worker. -/
structure Narrow (state : SchedulerState) : Prop where
  capacity : dimensions state.binding.capacity ≤ 70
  workers : ∀ worker ∈ state.workers,
    dimensions worker.descriptor.capacity ≤ 46

section Narrow

variable {sha256 : List UInt8 → Sha256Digest} {kind : SchedulerCommandKind}
variable {state next : SchedulerState} {command : SchedulerCommand}

theorem narrow_of_edit (hsound : Sound state) (hnarrow : Narrow state)
    (hkind : registersNarrow kind = true)
    (hedit : Edit sha256 kind state next) : Narrow next := by
  cases hedit with
  | @worker record phase hworker hidle =>
      refine ⟨hnarrow.capacity, fun other hother => ?_⟩
      have hmem : other ∈ replaceRow WorkerRecord.id { record with phase }
          state.workers ↔
          other = { record with phase } ∨
            other ∈ state.workers ∧ other.id ≠ record.id :=
        mem_replaceRow hsound.served.sorted hworker rfl
      rcases hmem.mp hother with rfl | ⟨hold, -⟩
      · exact hnarrow.workers record hworker
      · exact hnarrow.workers _ hold
  | register hregister hroom hfresh hfits =>
      refine ⟨hnarrow.capacity, fun other hother => ?_⟩
      rcases mem_insertAt.mp hother with rfl | hold
      · rw [hregister] at hkind
        exact of_decide_eq_true hkind
      · exact hnarrow.workers _ hold
  | _ => exact { hnarrow with }

theorem narrow_of_edits (hsound : Sound state) (hnarrow : Narrow state)
    (hkind : registersNarrow kind = true)
    (hedits : EditRun sha256 kind state next) : Narrow next := by
  induction hedits with
  | refl => exact hnarrow
  | tail hbefore hlast ih =>
      exact narrow_of_edit (sound_of_edits hsound hbefore) ih hkind hlast

theorem narrow_of_accepts (hsound : Sound state) (hnarrow : Narrow state)
    (hkind : registersNarrow command.kind = true)
    (h : Accepts sha256 state command next) : Narrow next := by
  obtain ⟨transition, hdecide, rfl⟩ := h
  obtain ⟨applied, hcommitted⟩ := committed_of_decideCommand hdecide
  obtain ⟨hedits, hrefresh⟩ := hcommitted.edits hsound
  obtain ⟨sequence, -, hnext⟩ := hcommitted.committed
  rw [hnext]
  exact { narrow_of_edits hsound hnarrow hkind (hedits.trans hrefresh) with }

theorem dimensions_le_of_fits {vector capacity : ResourceVector}
    (hfits : vector.fitsWithin capacity = true) :
    dimensions vector ≤ dimensions capacity :=
  length_le_of_fits (fitsWithin_iff.mp hfits)

/-- Reservations weigh what the active work they hold weighs. -/
theorem sum_reservations (hsound : Sound state) {v : SchedulerReservation → Nat}
    {w : WorkRecord → Nat}
    (hweight : ∀ reservation record, Holds reservation record →
      v reservation = w record) :
    (state.reservations.map v).sum =
      (state.work.map fun record =>
        if record.phase.isActive then w record else 0).sum := by
  have howner : ∀ reservation ∈ state.reservations, ∃ record ∈ state.work,
      record.id = reservation.workId ∧ v reservation = w record := by
    intro reservation hreservation
    obtain ⟨record, hrecord, hholds⟩ :=
      hsound.owned.held reservation hreservation
    exact ⟨record, hrecord, hholds.id, hweight _ _ hholds⟩
  rw [sum_map_eq_sum_countP hsound.work.sorted.nodup_map howner]
  refine congrArg List.sum (List.map_congr_left fun record hrecord => ?_)
  have howned := hsound.owned.owned record hrecord
  unfold owners at howned
  rw [howned]
  split
  · exact Nat.mul_one _
  · exact Nat.mul_zero _

/-- A work record, the reservation that may hold it and one more identity fit
into what the estimate has for them. -/
theorem workBytes_le {binding : SchedulerBinding} {record : WorkRecord}
    (hsound : RecordSound binding record)
    (hcapacity : dimensions binding.capacity ≤ 70) :
    workBytes record
        + (if record.phase.isActive then
            199 + 10 * dimensions record.spec.request else 0) + 16 ≤
      512 + record.spec.dependencies.length * 16
        + dimensions record.spec.request * 16
        + (if record.phase.isActive then 384 else 0) := by
  have hrequest := (dimensions_le_of_fits hsound.request).trans hcapacity
  have hbudget := present_le record.spec.budgetReservation 16
  have hparent := present_le record.spec.parent 16
  unfold workBytes workParts
  by_cases hactive : record.phase.isActive = true
  · obtain ⟨hterminal, hretry, -⟩ := ne_of_isActive hactive
    rw [hsound.not_settled hterminal, hsound.no_cause hretry, if_pos hactive,
      if_pos hactive]
    simp only [present_none, Option.map_none, Option.getD_none]
    omega
  · have hcause := present_le record.retryCause 32
    have houtcome : (record.terminal.map workTerminalBytes).getD 0 ≤ 33 := by
      cases record.terminal with
      | none => exact Nat.zero_le _
      | some outcome => exact workTerminalBytes_le outcome
    rw [if_neg hactive, if_neg hactive]
    omega

theorem workerParts_le (hnarrow : Narrow state) :
    (state.workers.map fun worker => 43 + workerParts worker).sum ≤
      512 * state.workers.length := by
  have hle : ∀ worker ∈ state.workers, 43 + workerParts worker ≤ 512 := by
    intro worker hworker
    have hclasses := length_classes_le worker.descriptor
    have hdimensions := hnarrow.workers worker hworker
    unfold workerParts
    omega
  refine (sum_map_mono hle).trans_eq ?_
  rw [List.map_const', List.sum_replicate_nat, Nat.mul_comm]

/-- A narrow state leaves room for one more command identity. -/
theorem checkpointBytes_le (hsound : Sound state) (hlisted : Listed state)
    (hnarrow : Narrow state) : checkpointBytes state + 16 ≤ allowance state := by
  have hworkers := workerParts_le hnarrow
  have hreserved : (state.reservations.map fun reservation =>
        199 + 10 * dimensions reservation.resources).sum = _ :=
    sum_reservations hsound (w := fun record =>
      199 + 10 * dimensions record.spec.request)
      fun reservation record hholds => by rw [hholds.resources]
  have hcounted : (state.reservations.map fun _ => 384).sum = _ :=
    sum_reservations hsound (w := fun _ => 384) fun _ _ _ => rfl
  have hwork := sum_map_mono fun record hrecord =>
    workBytes_le (hsound.work.records record hrecord) hnarrow.capacity
  have hterminal : (state.terminal.map terminalBytes).getD 0 ≤
      37 + 16 * state.work.length := by
    cases hfound : state.terminal with
    | none => exact Nat.zero_le _
    | some terminal =>
        have hlength := hlisted.terminal terminal hfound
        show 37 + 16 * _ ≤ _
        omega
  rw [List.map_const', List.sum_replicate_nat] at hcounted
  rw [List.sum_map_add, List.sum_map_add, List.sum_map_add, List.map_const',
    List.sum_replicate_nat] at hwork
  have hcapacity := hnarrow.capacity
  unfold checkpointBytes allowance
  rw [hreserved]
  omega

end Narrow

/-! ### Encoding a checkpoint -/

/-- The codec limits that hold a checkpoint to its own state-byte bound. -/
def within (limits : SchedulerLimits) : CodecLimits :=
  { CodecLimits.production with maxPayloadBytes := limits.stateBytes }

section Encoding

variable {sha256 : List UInt8 → Sha256Digest} {state : SchedulerState}

theorem flat_revision (value : RevisionTuple) :
    Flat 65535 (writeRevision value) := by
  simp [writeRevision]

theorem flat_resources {value : ResourceVector} {maximum : Nat}
    (hdimensions : value.entries.length ≤ maximum) (hmaximum : maximum ≤ 65535) :
    Flat 65535 (writeResources value) := by
  refine flat_writeList (hdimensions.trans hmaximum) fun entry _ => ?_
  simp [writeEntry]

theorem flat_binding (value : SchedulerBinding) :
    Flat 65535 (writeBinding value) := by
  obtain ⟨-, -, -, -, hdimensions, -⟩ := value.limits.le_production
  have hresources := flat_resources value.dimensions (by omega)
  simp [writeBinding, writeLimits, flat_revision, hresources]

theorem flat_worker (value : WorkerRecord) : Flat 65535 (writeWorker value) := by
  have hresources := flat_resources value.descriptor.dimensions (by decide)
  have hclasses : Flat 65535 (writeList value.descriptor.classes writeClass) :=
    flat_writeList ((length_classes_le value.descriptor).trans (by decide))
      fun _ _ => flat_writeU8 _
  simp [writeWorker, writeDescriptor, hresources, hclasses]

theorem flat_ids {values : List OpaqueIdentifier}
    (hlength : values.length ≤ 65535) : Flat 65535 (writeList values writeId) :=
  flat_writeList hlength fun id _ => flat_writeId id

theorem flat_optionId (value : Option OpaqueIdentifier) :
    Flat 65535 (writeOption value writeId) :=
  flat_writeOption fun id _ => flat_writeId id

theorem flat_work (value : WorkRecord) : Flat 65535 (writeWork value) := by
  have hresources := flat_resources value.spec.dimensions (by decide)
  have hdependencies := flat_ids
    (value.spec.dependencyBound.trans (by decide : 1024 ≤ 65535))
  have hcause : Flat 65535 (writeOption value.retryCause writeDigest) :=
    flat_writeOption fun digest _ => flat_writeDigest digest
  have houtcome : Flat 65535 (writeOption value.terminal writeWorkTerminal) := by
    refine flat_writeOption fun outcome _ => ?_
    cases outcome <;> simp [writeWorkTerminal]
  simp [writeWork, writeSpec, writeClass, flat_revision, flat_optionId,
    hresources, hdependencies, hcause, houtcome]

theorem flat_reservation (hsound : Sound state)
    {value : SchedulerReservation} (hmem : value ∈ state.reservations) :
    Flat 65535 (writeReservation value) := by
  obtain ⟨record, -, hholds⟩ := hsound.owned.held value hmem
  have hresources := flat_resources record.spec.dimensions (by decide)
  rw [← hholds.resources] at hresources
  simp [writeReservation, flat_revision, hresources]

theorem flat_state (hsound : Sound state) (hlisted : Listed state)
    (hcommands : state.usedCommands.length ≤ 65535) :
    Flat 65535 (writeState state) := by
  obtain ⟨-, hretained, hworkers, -, -, hactive, -⟩ :=
    state.binding.limits.le_production
  have hworkers := flat_writeList (hlisted.workers.trans (by omega))
    fun worker _ => flat_worker worker
  have hwork := flat_writeList (hlisted.work.trans hretained)
    fun record _ => flat_work record
  have hreservations := flat_writeList (hlisted.reservations.trans (by omega))
    fun reservation hmem => flat_reservation hsound hmem
  have hterminal : Flat 65535 (writeOption state.terminal writeTerminal) := by
    refine flat_writeOption fun terminal hterminal => ?_
    have hids := flat_ids ((hlisted.terminal terminal hterminal).trans
      (hlisted.work.trans hretained))
    simp [writeTerminal, hids]
  simp [writeState, flat_binding, hworkers, hwork, hreservations, hterminal,
    flat_ids hlisted.dispatches, flat_ids hcommands]

/-- A reachable state is encoded within its own bound exactly if its payload is
within it. -/
theorem encodes_within_iff
    (h : Reachable (Started sha256) (Accepts sha256) state) :
    (∃ frame, encodeSchedulerState state (within state.binding.limits) =
        .ok frame) ↔
      size (writeState state) ≤ state.binding.limits.stateBytes := by
  obtain ⟨-, -, -, -, -, -, -, -, -, -, hlimit⟩ :=
    state.binding.limits.le_production
  simp only [encodeSchedulerState_eq_ok_iff]
  constructor
  · rintro ⟨frame, hframe⟩
    exact size_le_of_encodeMessage hframe
  · intro hsize
    have hflat := flat_state (sound_of_reachable h) (listed_of_reachable h)
      (admitted_of_reachable h).1
    have hlength : size (writeState state) < 256 ^ 4 := by omega
    have hframe : headerLen + size (writeState state) ≤
        (within state.binding.limits).maxFrameBytes := by
      show 16 + _ ≤ 16 * 1024 * 1024
      omega
    have hschema : state.binding.semantics.schemaVersion ≠ 0 := by
      cases state.binding.semantics <;> decide
    exact exists_encodeMessage (by decide) hschema hflat (Nat.le_refl 65535)
      (by decide) hsize hlength hframe

end Encoding

/-! ### The bound -/

section Bound

variable (sha256 : List UInt8 → Sha256Digest)

/-- Accepted commands that register no worker of more than 46 dimensions. -/
def Modest (state : SchedulerState) (command : SchedulerCommand)
    (next : SchedulerState) : Prop :=
  Accepts sha256 state command next ∧ registersNarrow command.kind = true

variable {sha256} {state : SchedulerState}

theorem narrow_of_modest {first : SchedulerState}
    {commands : List SchedulerCommand} (hstarted : Started sha256 first)
    (hcapacity : dimensions first.binding.capacity ≤ 70)
    (hrun : Run (Modest sha256) first commands state) :
    Reachable (Started sha256) (Accepts sha256) state ∧ Narrow state := by
  refine @Run.invariant _ _ _ (fun state =>
    Reachable (Started sha256) (Accepts sha256) state ∧ Narrow state)
    ?_ _ _ _ hrun ⟨⟨_, [], hstarted, .nil _⟩, hcapacity, ?_⟩
  · rintro middle command last ⟨hreach, hnarrow⟩ ⟨haccepts, hkind⟩
    exact ⟨hreach.snoc haccepts,
      narrow_of_accepts (sound_of_reachable hreach) hnarrow hkind haccepts⟩
  · obtain ⟨command, transition, hstart, rfl⟩ := hstarted
    obtain ⟨binding, -, -, hstate⟩ := start_eq_ok hstart
    rw [hstate]
    exact nofun

/-- The estimate is an upper bound of a reachable state's payload exactly if
the parts of varying length fit into what its constants leave; at genesis, if
there are at most 76 resource dimensions.  They do in every state of every run
that starts with at most 70 dimensions and registers no worker of more than 46;
and there a state that was admitted under the state-byte bound can be encoded
within it, although its command was recorded after the check. -/
theorem estimate_bounds_payload :
    (∀ state, Reachable (Started sha256) (Accepts sha256) state →
      (size (writeState state) ≤ state.estimatedEncodedBytes ↔ Roomy state)) ∧
    (∀ first, Started sha256 first →
      (size (writeState first) ≤ first.estimatedEncodedBytes ↔
        dimensions first.binding.capacity ≤ 76)) ∧
    (∀ first commands state, Started sha256 first →
      dimensions first.binding.capacity ≤ 70 →
      Run (Modest sha256) first commands state →
      size (writeState state) ≤ state.estimatedEncodedBytes ∧
      ∃ frame, encodeSchedulerState state (within state.binding.limits) =
        .ok frame) := by
  refine ⟨?_, ?_, ?_⟩
  · intro state hreach
    rw [estimate_of_reachable hreach, size_writeState,
      checkpointBytes_le_allowance_iff]
  · intro first hstarted
    obtain ⟨hsize, hestimate⟩ := sizes_of_started hstarted
    rw [hsize, hestimate]
    omega
  · intro first commands state hstarted hcapacity hrun
    obtain ⟨hreach, hnarrow⟩ := narrow_of_modest hstarted hcapacity hrun
    have hle := checkpointBytes_le (sound_of_reachable hreach)
      (listed_of_reachable hreach) hnarrow
    have hadmitted := (admitted_of_reachable hreach).2
    rw [encodes_within_iff hreach, estimate_of_reachable hreach,
      size_writeState]
    omega

theorem modest_of_run {first : SchedulerState} {commands : List SchedulerCommand}
    (hrun : Run (Accepts sha256) first commands state)
    (hkinds : ∀ command ∈ commands, registersNarrow command.kind = true) :
    Run (Modest sha256) first commands state := by
  induction hrun with
  | nil => exact .nil _
  | cons haccepts _ ih =>
      obtain ⟨hfirst, hrest⟩ := List.forall_mem_cons.mp hkinds
      exact .cons ⟨haccepts, hfirst⟩ (ih hrest)

end Bound

theorem estimate_bounds_payload_of_dispatch : ∃ commands state,
    commands.map SchedulerCommand.kind = smallRequests.map Prod.snd ∧
    Run (Modest fun _ => zeroDigest) (smallStart fun _ => zeroDigest) commands
      state ∧
    (size (writeState state) ≤ state.estimatedEncodedBytes ↔ Roomy state) ∧
    (size (writeState (smallStart fun _ => zeroDigest)) ≤
        (smallStart fun _ => zeroDigest).estimatedEncodedBytes ↔
      dimensions (smallStart fun _ => zeroDigest).binding.capacity ≤ 76) ∧
    size (writeState state) ≤ state.estimatedEncodedBytes ∧
    ∃ frame, encodeSchedulerState state (within state.binding.limits) =
      .ok frame := by
  obtain ⟨state, hstate, -⟩ :=
    Option.map_eq_some_iff.mp (cancelling_smallRequests fun _ => zeroDigest)
  obtain ⟨commands, hkinds, hrun⟩ := run_of_attempts hstate
  have hstarted := started_smallStart fun _ => zeroDigest
  have hmodest : Run (Modest fun _ => zeroDigest)
      (smallStart fun _ => zeroDigest) commands state := by
    refine modest_of_run hrun fun command hcommand => ?_
    have hkind : command.kind ∈ smallRequests.map Prod.snd := by
      rw [← hkinds]
      exact List.mem_map_of_mem hcommand
    have hall : (smallRequests.map Prod.snd).all registersNarrow = true := rfl
    exact List.all_eq_true.mp hall _ hkind
  obtain ⟨hexact, hgenesis, hruns⟩ := @estimate_bounds_payload fun _ => zeroDigest
  exact ⟨commands, state, hkinds, hmodest,
    hexact state ⟨_, commands, hstarted, hrun⟩, hgenesis _ hstarted,
    hruns _ _ _ hstarted (by decide) hmodest⟩

/-! ### A genesis of many dimensions -/

def wideCapacity : ResourceVector where
  entries := List.ofFn fun kind : Fin 77 =>
    ⟨⟨kind.1 + 1, Nat.succ_ne_zero _, by omega⟩, .ofNat 1⟩
  nonempty := mt List.ofFn_eq_nil_iff.mp (by decide)
  canonical := by
    refine List.pairwise_ofFn.mpr fun left right hlt => ?_
    exact Nat.succ_lt_succ hlt

/-- No more bytes than the estimate asks for. -/
def wideLimits : SchedulerLimits :=
  { SchedulerLimits.production with
    stateBytes := 1040
    checks := by decide
    queued := by decide
    active := SchedulerLimits.production.active }

def wideBinding : SchedulerBinding :=
  { smallBinding with
    limits := wideLimits
    capacity := wideCapacity
    dimensions := List.length_ofFn.trans_le (by decide) }

def wideGenesis : SchedulerCommand :=
  { smallGenesis with
    kind := .startScheduler wideBinding
    genesis := by decide }

/-- The estimate admits a genesis of 77 resource dimensions that its own bound
is too small for. -/
theorem estimate_exceeded_at_genesis : ∃ state,
    Reachable (Started fun _ => zeroDigest) (Accepts fun _ => zeroDigest)
      state ∧
    state.estimatedEncodedBytes < size (writeState state) ∧
    ∀ frame, encodeSchedulerState state (within state.binding.limits) ≠
      .ok frame := by
  obtain ⟨transition, hstart⟩ : ∃ transition,
      start (fun _ => zeroDigest) wideGenesis = .ok transition :=
    exists_start rfl rfl rfl rfl rfl rfl rfl (Nat.le_refl 1040)
  have hstarted : Started (fun _ => zeroDigest) transition.state :=
    ⟨_, transition, hstart, rfl⟩
  have hreach : Reachable (Started fun _ => zeroDigest)
      (Accepts fun _ => zeroDigest) transition.state :=
    ⟨_, [], hstarted, .nil _⟩
  have hbinding : transition.state.binding = wideBinding := by
    obtain ⟨binding, hkind, -, hstate⟩ := start_eq_ok hstart
    cases hkind
    rw [hstate]
    rfl
  have hwide : dimensions wideBinding.capacity = 77 := List.length_ofFn
  obtain ⟨hsize, hestimate⟩ := sizes_of_started hstarted
  rw [hbinding, hwide] at hsize
  refine ⟨transition.state, hreach, ?_, fun frame hframe => ?_⟩
  · rw [hsize, hestimate]
    decide
  · have hwithin := (encodes_within_iff hreach).mp ⟨frame, hframe⟩
    rw [hsize, hbinding] at hwithin
    exact absurd hwithin (by decide)

end Peritus.Scheduler.Checkpoint
