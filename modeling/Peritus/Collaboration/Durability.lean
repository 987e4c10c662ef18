import Peritus.Collaboration.Closure
import Peritus.Collaboration.Measure

/-!
What the commit path measures of an accepted transition against the limits that
admitted it: the exact growth of the checkpoint under every command, and the
exact sizes of the command and of its event.
-/

namespace Peritus.Collaboration.Durability

open Peritus.Types Checked Collections SortedTable TransitionSystem Codec.Writer Limits
open Collaboration.Task State Canonical Reducer Invariant Edits Preservation Truth
open Closure Collaboration.Measure
open Scheduler.State (zeroDigest)
open Wire (writeState)

variable {sha256 : List UInt8 → Sha256Digest}
variable {state next : CollaborationState} {event : CollaborationEventKind}
variable {task : CollaborationTask} {taskId : CollaborationTaskId}
variable {actor : ActorId} {reasonDigest : Sha256Digest}
variable {kind : CollaborationCommandKind}

/-! ### What a command adds -/

/-- The tasks that a cancellation ends outright. -/
def ended (state : CollaborationState) (taskId : CollaborationTaskId) :
    List CollaborationTask :=
  state.tasks.filter fun task =>
    decide (task.id ∈ affected state taskId) &&
      !decide (task.phase = .active ∨ task.phase = .cancelling)

/-- The size of the outcome that finalization would retain. -/
def outcomeBytes (state : CollaborationState) : Nat :=
  ((state.task state.binding.rootTaskId).bind fun root =>
    root.terminal.map fun terminal =>
      37 + 16 *
        (blockingTasks state (terminalKind state root terminal)).length).getD 0

/-- What a command adds to the checkpoint, its own identity apart. -/
def checkpointGrowth (state : CollaborationState) :
    CollaborationCommandKind → Nat
  | .offerDelegation _ assignment => delegationBytes assignment + 3
  | .rejectDelegation _ _ _ => 34
  | .activateTask _ _ => 144
  | .sendMessage message => messageBytes message + 1
  | .completeTask _ _ terminal => taskTerminalBytes terminal
  | .abandonTask _ _ _ => 34
  | .cancelTask taskId _ _ => 34 * (ended state taskId).length
  | .acknowledgeCancellation _ _ => 34
  | .finalize => outcomeBytes state
  | _ => 0

/-- The size of the kind that the event of a command records. -/
def recordedBytes (state : CollaborationState) :
    CollaborationCommandKind → Nat
  | .cancelTask taskId _ _ => 69 + 17 * (affected state taskId).length
  | kind => kindBytes kind

/-! ### One task grows -/

/-- One task is edited and grows by `added` bytes. -/
structure Resized (state : CollaborationState) (taskId : CollaborationTaskId)
    (edit : CollaborationTask → CollaborationTask) (added : Nat)
    (next : CollaborationState) : Prop where
  successor : next = { state with
    tasks := updateRow CollaborationTask.id taskId edit state.tasks }
  grown : ∃ task ∈ state.tasks, task.id = taskId ∧
    taskBytes (edit task) = taskBytes task + added

theorem checkpoint_of_resized
    (hsorted : Sorted CollaborationTask.id state.tasks)
    {edit : CollaborationTask → CollaborationTask} {added : Nat}
    (hresized : Resized state taskId edit added next) :
    checkpointBytes next = checkpointBytes state + added := by
  obtain ⟨rfl, task, htask, rfl, hgrown⟩ := hresized
  have hsum : ((updateRow CollaborationTask.id task.id edit state.tasks).map
      taskBytes).sum = (state.tasks.map taskBytes).sum + added := by
    unfold updateRow
    rw [List.map_map]
    refine sum_map_add_single (k := task.id) hsorted.nodup_map
      (fun other hother => ?_) (List.mem_map_of_mem htask)
    rw [Function.comp_apply]
    split
    · rename_i hid
      rw [hsorted.inj hother htask hid, hgrown]
    · rfl
  simp only [checkpointBytes, hsum]
  omega

theorem taskBytes_terminate (terminal : TaskTerminal)
    (hopen : task.terminal = none) :
    taskBytes (task.terminate terminal) =
      taskBytes task + taskTerminalBytes terminal := by
  unfold taskBytes
  rw [hopen]
  rfl

theorem taskTerminalBytes_of_none {terminal : TaskTerminal}
    (hhandoff : terminal.handoff = none) : taskTerminalBytes terminal = 34 := by
  unfold taskTerminalBytes
  rw [hhandoff, present_none]

/-- A task in an earlier phase has no outcome yet. -/
theorem terminal_of_phase (htable : TaskTable state.binding state.tasks)
    (hfound : state.task taskId = some task) (hphase : task.phase ≠ .terminal) :
    task.terminal = none := by
  by_contra hsome
  exact hphase (((htable.placed task
    (mem_of_task hfound).1).lifecycle.settled).mpr hsome)

theorem resized_of_terminate (htable : TaskTable state.binding state.tasks)
    (hfound : state.task taskId = some task) (hphase : task.phase ≠ .terminal)
    (terminal : TaskTerminal) :
    Resized state taskId (fun task => task.terminate terminal)
      (taskTerminalBytes terminal) (terminate state taskId terminal) where
  successor := terminate_eq htable.sorted hfound terminal
  grown := ⟨task, (mem_of_task hfound).1, (mem_of_task hfound).2,
    taskBytes_terminate terminal (terminal_of_phase htable hfound hphase)⟩

/-- The bytes of the checkpoint and of the event that a handler accounts for. -/
structure Accounted (state : CollaborationState)
    (kind : CollaborationCommandKind) (next : CollaborationState)
    (event : CollaborationEventKind) : Prop where
  checkpoint : checkpointBytes next =
    checkpointBytes state + checkpointGrowth state kind
  recorded : eventKindBytes event = recordedBytes state kind

/-! ### The handlers of one task -/

theorem accounted_of_accept (htable : TaskTable state.binding state.tasks)
    (h : accept state taskId actor = .ok (next, event)) :
    Accounted state (.acceptDelegation taskId actor) next event := by
  unfold accept at h
  simp only [bind_eq_ok_iff, ensure_eq_ok_iff, exists_unit_iff,
    decide_eq_true_eq, ownedTask_eq_ok_iff] at h
  obtain ⟨task, ⟨hfound, _⟩, _, h⟩ := h
  rw [taskMut_eq htable.sorted hfound] at h
  cases h
  have hresized : Resized state taskId (fun task => task.setPhase .accepted) 0
      { state with
        tasks := updateRow CollaborationTask.id taskId
          (fun task => task.setPhase .accepted) state.tasks } :=
    ⟨rfl, task, (mem_of_task hfound).1, (mem_of_task hfound).2, rfl⟩
  exact ⟨checkpoint_of_resized htable.sorted hresized, rfl⟩

theorem accounted_of_rejectOffer (htable : TaskTable state.binding state.tasks)
    (h : rejectOffer state taskId actor reasonDigest = .ok (next, event)) :
    Accounted state (.rejectDelegation taskId actor reasonDigest) next
      event := by
  unfold rejectOffer at h
  simp only [bind_eq_ok_iff, ensure_eq_ok_iff, exists_unit_iff,
    Bool.and_eq_true, decide_eq_true_eq, ownedTask_eq_ok_iff, Except.ok.injEq,
    Prod.mk.injEq] at h
  obtain ⟨task, ⟨hfound, _⟩, ⟨hphase, _⟩, terminal, hterminal, rfl, rfl⟩ := h
  obtain ⟨_, hhandoff, _⟩ := TaskTerminal.new_eq_ok hterminal
  have hgrowth := checkpoint_of_resized htable.sorted
    (resized_of_terminate htable hfound (by rw [hphase]; decide) terminal)
  rw [taskTerminalBytes_of_none hhandoff] at hgrowth
  exact ⟨hgrowth, rfl⟩

theorem accounted_of_activate (htable : TaskTable state.binding state.tasks)
    {observation : ReservationObservation}
    (h : activate state taskId observation = .ok (next, event)) :
    Accounted state (.activateTask taskId observation) next event := by
  unfold activate at h
  simp only [bind_eq_ok_iff, ensure_eq_ok_iff, exists_unit_iff,
    Bool.and_eq_true, decide_eq_true_eq, requireTask_eq_ok_iff,
    Except.ok.injEq, Prod.mk.injEq] at h
  obtain ⟨task, hfound, ⟨⟨⟨hphase, _⟩, _⟩, _⟩, rfl, rfl⟩ := h
  obtain ⟨hmem, hid⟩ := mem_of_task hfound
  have hunheld : task.reservation = none :=
    (htable.placed task hmem).lifecycle.unheld (.inr hphase)
  have hresized : Resized state taskId
      (fun task => (task.setReservation observation).setPhase .active) 144
      (activateMut state taskId observation) := by
    refine ⟨?_, task, hmem, hid, ?_⟩
    · unfold activateMut
      rw [taskMut_eq htable.sorted hfound, Option.getD_some]
    · simp only [taskBytes, CollaborationTask.setPhase,
        CollaborationTask.setReservation, hunheld, present_some, present_none]
      omega
  exact ⟨checkpoint_of_resized htable.sorted hresized, rfl⟩

theorem accounted_of_complete (htable : TaskTable state.binding state.tasks)
    {terminal : TaskTerminal}
    (h : complete state taskId actor terminal = .ok (next, event)) :
    Accounted state (.completeTask taskId actor terminal) next event := by
  unfold complete at h
  simp only [bind_eq_ok_iff, ensure_eq_ok_iff, exists_unit_iff,
    Bool.and_eq_true, decide_eq_true_eq, ownedTask_eq_ok_iff, Except.ok.injEq,
    Prod.mk.injEq] at h
  obtain ⟨task, ⟨hfound, _⟩, ⟨hphase, _⟩, _, _, _, rfl, rfl⟩ := h
  exact ⟨checkpoint_of_resized htable.sorted
    (resized_of_terminate htable hfound (by rw [hphase]; decide) terminal), rfl⟩

theorem accounted_of_abandon (htable : TaskTable state.binding state.tasks)
    (h : abandon state taskId actor reasonDigest = .ok (next, event)) :
    Accounted state (.abandonTask taskId actor reasonDigest) next event := by
  unfold abandon at h
  simp only [bind_eq_ok_iff, ensure_eq_ok_iff, exists_unit_iff,
    Bool.and_eq_true, Bool.or_eq_true, decide_eq_true_eq, ownedTask_eq_ok_iff,
    Except.ok.injEq, Prod.mk.injEq] at h
  obtain ⟨task, ⟨hfound, _⟩, ⟨hphase, _⟩, terminal, hterminal, rfl, rfl⟩ := h
  obtain ⟨_, hhandoff, _⟩ := TaskTerminal.new_eq_ok hterminal
  have hopen : task.phase ≠ .terminal := by
    rcases hphase with hphase | hphase <;> rw [hphase] <;> decide
  have hgrowth := checkpoint_of_resized htable.sorted
    (resized_of_terminate htable hfound hopen terminal)
  rw [taskTerminalBytes_of_none hhandoff] at hgrowth
  exact ⟨hgrowth, rfl⟩

theorem accounted_of_acknowledgeCancellation
    (htable : TaskTable state.binding state.tasks)
    (h : acknowledgeCancellation state taskId actor = .ok (next, event)) :
    Accounted state (.acknowledgeCancellation taskId actor) next event := by
  unfold acknowledgeCancellation at h
  simp only [bind_eq_ok_iff, ensure_eq_ok_iff, exists_unit_iff,
    decide_eq_true_eq, ownedTask_eq_ok_iff, Except.ok.injEq,
    Prod.mk.injEq] at h
  obtain ⟨task, ⟨hfound, _⟩, hphase, terminal, hterminal, rfl, rfl⟩ := h
  obtain ⟨_, hhandoff, _⟩ := TaskTerminal.new_eq_ok hterminal
  have hgrowth := checkpoint_of_resized htable.sorted
    (resized_of_terminate htable hfound (by rw [hphase]; decide) terminal)
  rw [taskTerminalBytes_of_none hhandoff] at hgrowth
  exact ⟨hgrowth, rfl⟩

/-! ### The handlers over subtrees, messages and phases -/

theorem taskBytes_cancelRow (reasonDigest : Sha256Digest)
    (hopen : task.terminal = none) :
    taskBytes (cancelRow reasonDigest task) = taskBytes task +
      if !decide (task.phase = .active ∨ task.phase = .cancelling) then 34
      else 0 := by
  unfold cancelRow
  by_cases hphase : task.phase = .active ∨ task.phase = .cancelling
  · rw [if_pos hphase, decide_eq_true hphase]
    rfl
  · rw [if_neg hphase, decide_eq_false hphase, taskBytes_terminate _ hopen]
    rfl

theorem accounted_of_cancel (htable : TaskTable state.binding state.tasks)
    (h : cancel state taskId actor reasonDigest = .ok (next, event)) :
    Accounted state (.cancelTask taskId actor reasonDigest) next event := by
  unfold cancel at h
  simp only [bind_eq_ok_iff, ensure_eq_ok_iff, exists_unit_iff,
    Prod.exists, Except.ok.injEq, Prod.mk.injEq] at h
  obtain ⟨_, _, _, _, mid, effects, heach, rfl, rfl⟩ := h
  have hids : (affected state taskId).Nodup :=
    (htable.sorted.sublist List.filter_sublist).nodup_map
  obtain ⟨rfl, heffects⟩ := cancelEach_eq_ok htable.sorted hids heach
  have hlength : effects.length = (affected state taskId).length := by
    rw [← heffects, List.length_map]
  have hsum : ((cancelRows reasonDigest (affected state taskId)
      state.tasks).map taskBytes).sum =
      (state.tasks.map taskBytes).sum + 34 * (ended state taskId).length := by
    unfold cancelRows ended
    rw [List.map_map]
    refine sum_map_add_filter fun other hother => ?_
    rw [Function.comp_apply]
    by_cases hid : other.id ∈ affected state taskId
    · obtain ⟨_, hphase⟩ := (mem_affected htable.sorted hother).mp hid
      have hopen : other.terminal = none := by
        by_contra hsome
        exact hphase (((htable.placed other hother).lifecycle.settled).mpr hsome)
      rw [if_pos hid, taskBytes_cancelRow reasonDigest hopen,
        decide_eq_true hid, Bool.true_and]
    · rw [if_neg hid, decide_eq_false hid]
      rfl
  refine ⟨?_, ?_⟩
  · simp only [checkpointBytes, checkpointGrowth, hsum]
    omega
  · simp only [eventKindBytes, recordedBytes, hlength]

theorem accounted_of_offer {assignment : Delegation}
    (h : offer state actor assignment = .ok (next, event)) :
    Accounted state (.offerDelegation actor assignment) next event := by
  unfold offer at h
  simp only [bind_eq_ok_iff, ensure_eq_ok_iff, exists_unit_iff,
    Except.ok.injEq, Prod.mk.injEq] at h
  obtain ⟨_, _, _, _, _, _, _, _, _, rfl, rfl⟩ := h
  have hsum := List.Perm.sum_nat
    ((perm_insertTask state (.offered assignment)).map taskBytes)
  have htask : taskBytes (.offered assignment) =
      delegationBytes assignment + 3 := rfl
  rw [List.map_cons, List.sum_cons, htask] at hsum
  refine ⟨?_, rfl⟩
  unfold checkpointBytes checkpointGrowth
  rw [hsum]
  simp only [insertTask]
  omega

theorem accounted_of_sendMessage {message : CollaborationMessage}
    (h : sendMessage state message = .ok (next, event)) :
    Accounted state (.sendMessage message) next event := by
  unfold sendMessage at h
  simp only [bind_eq_ok_iff, ensure_eq_ok_iff, exists_unit_iff,
    Except.ok.injEq, Prod.mk.injEq] at h
  obtain ⟨_, _, _, _, _, _, _, _, _, _, rfl, rfl⟩ := h
  have hsum := List.Perm.sum_nat ((perm_sent state (.pending message)).map
    fun message => messageBytes message + 1)
  rw [List.map_cons, List.sum_cons] at hsum
  refine ⟨?_, rfl⟩
  unfold checkpointBytes checkpointGrowth
  rw [hsum]
  simp only [insertMessage, MessageDelivery.pending]
  omega

theorem accounted_of_acknowledgeMessage
    (hmessages : Sorted MessageDelivery.id state.messages)
    {messageId : CollaborationMessageId}
    (h : acknowledgeMessage state messageId actor = .ok (next, event)) :
    Accounted state (.acknowledgeMessage messageId actor) next event := by
  unfold acknowledgeMessage at h
  split at h
  · cases h
  · rename_i delivery hfound
    rw [ensure_bind_eq_ok_iff, messageMut_eq hmessages hfound] at h
    obtain ⟨_, h⟩ := h
    cases h
    refine ⟨?_, rfl⟩
    simp only [checkpointBytes, map_message_acknowledged, checkpointGrowth,
      Nat.add_zero]

theorem accounted_of_pause (h : pause state actor = .ok (next, event)) :
    Accounted state (.pause actor) next event := by
  unfold pause at h
  simp only [bind_eq_ok_iff, ensure_eq_ok_iff, exists_unit_iff,
    Except.ok.injEq, Prod.mk.injEq] at h
  obtain ⟨_, _, rfl, rfl⟩ := h
  exact ⟨rfl, rfl⟩

theorem accounted_of_resume (h : resume state actor = .ok (next, event)) :
    Accounted state (.resume actor) next event := by
  unfold resume at h
  simp only [bind_eq_ok_iff, ensure_eq_ok_iff, exists_unit_iff,
    Except.ok.injEq, Prod.mk.injEq] at h
  obtain ⟨_, _, rfl, rfl⟩ := h
  exact ⟨rfl, rfl⟩

theorem accounted_of_finalize (hopen : state.terminal = none)
    (h : finalize sha256 state = .ok (next, event)) :
    Accounted state .finalize next event := by
  unfold finalize at h
  simp only [bind_eq_ok_iff, ensure_eq_ok_iff, exists_unit_iff,
    requireTask_eq_ok_iff] at h
  obtain ⟨_, root, hfound, h⟩ := h
  split at h
  · cases h
  · rename_i rootTerminal hterminal
    cases h
    refine ⟨?_, rfl⟩
    have houtcome : outcomeBytes state = 37 + 16 * (blockingTasks state
        (terminalKind state root rootTerminal)).length := by
      unfold outcomeBytes
      rw [hfound, Option.bind_some, hterminal]
      rfl
    simp only [checkpointBytes, checkpointGrowth, houtcome, hopen, setTerminal,
      Option.map_some, Option.map_none, Option.getD_some, Option.getD_none,
      terminalBytes, newTerminal]
    omega

theorem accounted_of_apply (hkept : Kept sha256 state)
    (hopen : state.phase ≠ .terminal)
    (h : apply sha256 state kind = .ok (next, event)) :
    Accounted state kind next event := by
  have htable := hkept.tasks
  have hmessages := sorted_messages hkept
  cases kind with
  | start binding => cases h
  | offerDelegation => exact accounted_of_offer h
  | acceptDelegation => exact accounted_of_accept htable h
  | rejectDelegation => exact accounted_of_rejectOffer htable h
  | activateTask => exact accounted_of_activate htable h
  | sendMessage => exact accounted_of_sendMessage h
  | acknowledgeMessage => exact accounted_of_acknowledgeMessage hmessages h
  | completeTask => exact accounted_of_complete htable h
  | abandonTask => exact accounted_of_abandon htable h
  | cancelTask => exact accounted_of_cancel htable h
  | acknowledgeCancellation =>
      exact accounted_of_acknowledgeCancellation htable h
  | pause => exact accounted_of_pause h
  | resume => exact accounted_of_resume h
  | finalize => exact accounted_of_finalize (terminal_eq_none hkept hopen) h

/-! ### The commit of one transition -/

/-- The three payloads that the commit path measures are within the limits. -/
structure Committable (command : CollaborationCommand)
    (transition : CollaborationTransition) : Prop where
  command : size (writeCommand command) ≤ transition.state.limits.commandBytes
  event : size (writeEvent transition.event) ≤
    transition.state.limits.commandBytes
  state : size (writeState transition.state) ≤
    transition.state.limits.stateBytes

/-- Only messages and cancellations may outgrow what admitted them. -/
def recordFits (state : CollaborationState) :
    CollaborationCommandKind → Bool
  | .sendMessage message =>
      decide (234 + messageBytes message ≤ state.limits.commandBytes)
  | .cancelTask taskId _ _ =>
      decide (302 + 17 * (affected state taskId).length ≤
        state.limits.commandBytes)
  | _ => true

/-- The checkpoint holds what the command adds and its identity. -/
def checkpointFits (state : CollaborationState)
    (kind : CollaborationCommandKind) : Bool :=
  decide (checkpointBytes state + checkpointGrowth state kind + 16 ≤
    state.limits.stateBytes)

theorem kindBytes_le_recordedBytes (state : CollaborationState)
    (kind : CollaborationCommandKind) :
    kindBytes kind ≤ recordedBytes state kind := by
  cases kind with
  | cancelTask =>
      exact (show 65 ≤ 69 by decide).trans (Nat.le_add_right _ _)
  | _ => exact le_refl _

theorem delegationBytes_le (value : Delegation) :
    delegationBytes value ≤ 134 :=
  Nat.add_le_add_left (present_le _ 16) 118

theorem taskTerminalBytes_le (value : TaskTerminal) :
    taskTerminalBytes value ≤ 210 :=
  Nat.add_le_add_left (present_le _ 176) 34

theorem recordFits_iff (hstart : kind.isStart = false)
    (hsize : estimatedCommandBytes kind ≤ state.limits.commandBytes) :
    233 + recordedBytes state kind ≤ state.limits.commandBytes ↔
      recordFits state kind = true := by
  have hother (hestimate : estimatedCommandBytes kind = 768)
      (hbytes : recordedBytes state kind ≤ 535) :
      233 + recordedBytes state kind ≤ state.limits.commandBytes := by
    rw [hestimate] at hsize
    exact (Nat.add_le_add_left hbytes 233).trans hsize
  cases kind with
  | start => cases hstart
  | sendMessage message =>
      have hbytes : 233 + recordedBytes state (.sendMessage message) =
          234 + messageBytes message := by
        rw [show 234 = 233 + 1 from rfl, Nat.add_assoc]
        rfl
      rw [hbytes]
      exact decide_eq_true_iff.symm
  | cancelTask taskId requestedBy reasonDigest =>
      have hbytes :
          233 + recordedBytes state (.cancelTask taskId requestedBy reasonDigest) =
            302 + 17 * (affected state taskId).length := by
        rw [show 302 = 233 + 69 from rfl, Nat.add_assoc]
        rfl
      rw [hbytes]
      exact decide_eq_true_iff.symm
  | offerDelegation offeredBy assignment =>
      have hbytes : 17 + delegationBytes assignment ≤ 535 :=
        (Nat.add_le_add_left (delegationBytes_le assignment) 17).trans
          (by decide)
      exact iff_of_true (hother rfl hbytes) rfl
  | completeTask taskId completedBy terminal =>
      have hbytes : 33 + taskTerminalBytes terminal ≤ 535 :=
        (Nat.add_le_add_left (taskTerminalBytes_le terminal) 33).trans
          (by decide)
      exact iff_of_true (hother rfl hbytes) rfl
  | _ => exact iff_of_true (hother rfl (Nat.le_of_ble_eq_true rfl)) rfl

variable {command : CollaborationCommand}
variable {transition : CollaborationTransition}

/-- What the measures of an accepted transition depend on. -/
theorem decideCommand_eq_ok
    (h : decideCommand sha256 state command = .ok transition) :
    command.kind.isStart = false ∧
      command.expectedPreviousEvent = some state.lastEventId ∧
      transition.event.previousEvent = some state.lastEventId ∧
      estimatedCommandBytes command.kind ≤ state.limits.commandBytes ∧
      ∃ applied, apply sha256 state command.kind =
          .ok (applied, transition.event.kind) ∧
        checkpointBytes transition.state = checkpointBytes applied + 16 ∧
        transition.state.limits = applied.limits := by
  unfold decideCommand validateFences at h
  simp only [bind_eq_ok_iff, ensure_eq_ok_iff, exists_unit_iff,
    Bool.and_eq_true, Bool.not_eq_true', decide_eq_true_eq, Prod.exists,
    Except.ok.injEq] at h
  obtain ⟨⟨_, ⟨⟨⟨_, hprevious⟩, _⟩, _⟩, hstart⟩, hsize, sequence, _, applied,
    event, happly, _, rfl⟩ := h
  refine ⟨hstart, hprevious, rfl, hsize, applied, happly, ?_, rfl⟩
  simp only [checkpointBytes, advanceCursor, List.length_append,
    List.length_singleton]
  omega

theorem limits_of_apply (hkept : Kept sha256 state)
    (h : apply sha256 state kind = .ok (next, event)) :
    next.limits = state.limits :=
  congrArg CollaborationBinding.limits (history_of_change
    (change_of_apply hkept.tasks (sorted_messages hkept) h)).2

theorem committable_of_decideCommand (hsound : Sound sha256 state)
    (h : decideCommand sha256 state command = .ok transition) :
    Committable command transition ↔
      recordFits state command.kind = true ∧
        checkpointFits state command.kind = true := by
  have hopen : state.phase ≠ .terminal :=
    (committed_of_accepts ⟨transition, h, rfl⟩).elim fun _ h => h.opened
  obtain ⟨hstart, hprevious, hprevious', hsize, applied, happly, hcheckpoint,
    hlimits⟩ := decideCommand_eq_ok h
  obtain ⟨hgrown, hrecorded⟩ :=
    accounted_of_apply hsound.toKept hopen happly
  rw [limits_of_apply hsound.toKept happly] at hlimits
  have hcommand : size (writeCommand command) = 201 + kindBytes command.kind := by
    rw [size_writeCommand, hprevious, present_some]
  have hevent : size (writeEvent transition.event) =
      233 + recordedBytes state command.kind := by
    rw [size_writeEvent, hprevious', present_some, hrecorded]
  have hstate : size (writeState transition.state) =
      checkpointBytes state + checkpointGrowth state command.kind + 16 := by
    rw [size_writeState, hcheckpoint, hgrown]
  rw [← recordFits_iff hstart hsize, checkpointFits, decide_eq_true_eq]
  have hless := kindBytes_le_recordedBytes state command.kind
  constructor
  · rintro ⟨_, hfits, hroom⟩
    rw [hlimits] at hfits hroom
    exact ⟨hevent ▸ hfits, hstate ▸ hroom⟩
  · rintro ⟨hfits, hroom⟩
    refine ⟨?_, ?_, ?_⟩
    · rw [hlimits, hcommand]
      omega
    · rwa [hlimits, hevent]
    · rwa [hlimits, hstate]

/-! ### The commit of the genesis -/

theorem checkpointBytes_genesis {binding : CollaborationBinding}
    (horphan : binding.rootAssignment.parentTaskId = none)
    (sequence : EventSequence) (eventId : EventId) (commandId : CommandId) :
    checkpointBytes (.genesis binding sequence eventId commandId) = 553 := by
  have hbytes : delegationBytes binding.rootAssignment = 118 := by
    unfold delegationBytes
    rw [horphan, present_none]
  simp only [checkpointBytes, CollaborationState.genesis, taskBytes,
    CollaborationTask.acceptedRoot, hbytes, List.map_cons, List.map_nil,
    List.sum_cons, List.sum_nil, present_none, Option.map_none,
    Option.getD_none, List.length_singleton]
  rfl

theorem committable_of_start {binding : CollaborationBinding}
    (h : start sha256 command = .ok transition)
    (hkind : command.kind = .start binding) :
    Committable command transition ↔ 564 ≤ binding.limits.commandBytes := by
  unfold start at h
  rw [hkind] at h
  simp only [bind_eq_ok_iff, ensure_eq_ok_iff, exists_unit_iff,
    Bool.and_eq_true, decide_eq_true_eq, Except.ok.injEq] at h
  obtain ⟨hvalid, ⟨⟨⟨_, _⟩, hprevious⟩, _⟩, hbound, rfl⟩ := h
  have horphan := (rootBinding_of_validate hvalid).orphan
  have hbytes : delegationBytes binding.rootAssignment = 118 := by
    unfold delegationBytes
    rw [horphan, present_none]
  have hroom : 1552 ≤ binding.limits.stateBytes := by
    unfold ensureStateBound at hbound
    rw [ensure_eq_ok_iff, decide_eq_true_eq, estimate_genesis] at hbound
    exact hbound
  have hcommand : size (writeCommand command) = 532 := by
    rw [size_writeCommand, hprevious, hkind, present_none]
    unfold kindBytes
    dsimp only
    rw [hbytes]
  constructor
  · intro hcommittable
    have hevent := hcommittable.event
    rw [size_writeEvent] at hevent
    unfold eventKindBytes at hevent
    simp only [commandKind, recordedKind, Option.elim_some, kindBytes, hbytes,
      present_none] at hevent
    exact hevent
  · intro hfits
    refine ⟨?_, ?_, ?_⟩
    · rw [hcommand]
      exact (show 532 ≤ 564 by decide).trans hfits
    · rw [size_writeEvent]
      unfold eventKindBytes
      simp only [commandKind, recordedKind, Option.elim_some, kindBytes, hbytes,
        present_none]
      exact hfits
    · rw [size_writeState]
      have hgenesis := checkpointBytes_genesis horphan PositiveNumber.first
        command.eventId command.commandId
      exact (hgenesis.le.trans (show 553 ≤ 1552 by decide)).trans hroom

/-- Exactly which accepted transitions the commit path admits. -/
theorem commit_bounds (sha256 : List UInt8 → Sha256Digest) :
    (∀ command transition binding,
      start sha256 command = .ok transition →
      command.kind = .start binding →
      (Committable command transition ↔
        564 ≤ binding.limits.commandBytes)) ∧
    ∀ state, Reachable (Started sha256) (Accepts sha256) state →
      ∀ command transition,
        decideCommand sha256 state command = .ok transition →
        (Committable command transition ↔
          recordFits state command.kind = true ∧
            checkpointFits state command.kind = true) := by
  constructor
  · intro command transition binding hstart hkind
    exact committable_of_start hstart hkind
  · intro state hreach command transition hdecide
    exact committable_of_decideCommand (sound_of_reachable hreach) hdecide

/-! ### A message larger than its estimate -/

/-- Exactly what the estimate of a one-byte payload asks for. -/
def narrowLimits : CollaborationLimits :=
  { CollaborationLimits.production with
    commandBytes := 769
    checks := by decide }

def smallArtifact : ArtifactHandoff where
  artifactId := .ofNat 60
  artifactDigest := smallDigest
  evidenceDigest := smallDigest
  revision := smallRevision
  nonzero := by decide

def longMediaType : String :=
  "application/vnd.peritus.aaaaaaaaaaaaaaaaaaaaaaaaaaaaaaaaaaaaaaaaaaaaaa" ++
    "aaaaaaaaaaaaaaaaaaaaaaaaaaaaaaaaaaaaaaaaaaaaaaaaaaaaaaaaaaaaaaaaaaaaaa"

def longMessage : CollaborationMessage where
  id := .ofNat 61
  rootTaskId := smallRoot.taskId
  taskId := smallChild.taskId
  sender := smallChild.owner
  receiver := smallChild.parentOwner
  ordinal := 1
  predecessor := none
  mediaType := longMediaType
  payloadBytes := 1
  contentDigest := smallDigest
  artifact := some smallArtifact
  revision := smallRevision
  ordinalBound := by decide
  payloadBound := by decide
  valid := by decide +kernel
  causal := by decide

def longRequest : Request :=
  (.ofNat 55, .sendMessage longMessage)

set_option maxRecDepth 8000 in
theorem sent_longRequest (sha256 : List UInt8 → Sha256Digest) :
    ((attempts sha256 (boundedStart sha256 narrowLimits) smallRequests).bind
      fun state => (attempts sha256 state [longRequest]).map fun _ =>
        recordFits state longRequest.2) = some false := by
  cbv

/-- Whatever the hash, an accepted message has an event that the commit path
refuses. -/
theorem refused_long_message :
    ¬ ∃ sha256,
      (∀ command transition, start sha256 command = .ok transition →
        Committable command transition) ∧
      ∀ state, Reachable (Started sha256) (Accepts sha256) state →
        ∀ command transition,
          decideCommand sha256 state command = .ok transition →
          Committable command transition := by
  rintro ⟨sha256, _, hclaim⟩
  obtain ⟨state, command, _, hreach, ⟨transition, hdecide, -⟩, hkind, hfails⟩ :=
    exists_accepted (started_boundedStart sha256 (by decide))
      (sent_longRequest sha256)
  have hfits := ((committable_of_decideCommand (sound_of_reachable hreach)
    hdecide).mp (hclaim state hreach command transition hdecide)).1
  rw [hkind, hfails] at hfits
  cases hfits

set_option maxRecDepth 8000 in
theorem commit_bounds_of_pause : ∃ state command transition,
    decideCommand (fun _ => zeroDigest) state command = .ok transition ∧
      state.tasks.map (·.phase) = [.active, .active] ∧
      Committable command transition := by
  obtain ⟨state, command, _, hreach, ⟨transition, hdecide, -⟩, hkind, hseen⟩ :=
    exists_accepted (started_smallStart _) (by cbv :
      ((attempts (fun _ => zeroDigest) (smallStart fun _ => zeroDigest)
        smallRequests).bind fun state => (attempts (fun _ => zeroDigest) state
          [(.ofNat 55, .pause smallRoot.owner)]).map fun _ =>
            (state.tasks.map (·.phase), recordFits state (.pause smallRoot.owner),
              checkpointFits state (.pause smallRoot.owner))) =
      some ([.active, .active], true, true))
  simp only [Prod.mk.injEq] at hseen
  obtain ⟨hphases, hfits⟩ := hseen
  refine ⟨state, command, transition, hdecide, hphases, ?_⟩
  rw [(commit_bounds fun _ => zeroDigest).2 state hreach command transition hdecide,
    hkind]
  exact hfits

end Peritus.Collaboration.Durability
