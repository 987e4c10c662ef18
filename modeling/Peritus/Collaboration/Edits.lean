import Peritus.Collaboration.Invariant

/-!
What each accepted command does to the tables: one task moves along its
lifecycle, a task or a message is inserted, a cancellation runs through a
subtree, or the phase of the collaboration changes.
-/

namespace Peritus.Collaboration.Edits

open Invariant
open Peritus.Types Checked SortedTable Limits Collaboration.Task State Canonical Reducer
open Scheduler.State (zeroDigest)

/-! ### Moves of one task -/

inductive Advance (state : CollaborationState) (task : CollaborationTask) :
    CollaborationTask → Prop
  | stay : Advance state task task
  | accept (hphase : task.phase = .offered) :
      Advance state task (task.setPhase .accepted)
  | activate (observation : ReservationObservation)
      (hphase : task.phase = .accepted)
      (hwork : observation.workId = task.assignment.workId)
      (howner : observation.owner = task.assignment.owner)
      (hrevision : observation.revision = state.binding.revision) :
      Advance state task ((task.setReservation observation).setPhase .active)
  | cancelling (hphase : task.phase = .active ∨ task.phase = .cancelling) :
      Advance state task (task.setPhase .cancelling)
  | settle (terminal : TaskTerminal) (hphase : task.phase ≠ .terminal)
      (hcancelled : task.phase = .cancelling → terminal.kind = .cancelled)
      (hhandoff : ∀ handoff ∈ terminal.handoff,
        handoff.revision = state.binding.revision)
      (hjoin : terminal.kind = .succeeded →
        state.joinSatisfied task.id = true) :
      Advance state task (task.terminate terminal)

section Rows

variable {state : CollaborationState} {task after : CollaborationTask}

theorem Advance.assignment (hadvance : Advance state task after) :
    after.assignment = task.assignment := by
  cases hadvance <;> rfl

theorem Advance.id (hadvance : Advance state task after) :
    after.id = task.id :=
  congrArg Delegation.taskId hadvance.assignment

/-- A task that has ended stays as it is. -/
theorem Advance.eq_of_terminal (hadvance : Advance state task after)
    (hterminal : task.phase = .terminal) : after = task := by
  cases hadvance with
  | stay => rfl
  | accept hphase => rw [hterminal] at hphase; cases hphase
  | activate _ hphase => rw [hterminal] at hphase; cases hphase
  | cancelling hphase => rw [hterminal] at hphase; rcases hphase with h | h <;> cases h
  | settle _ hphase => exact absurd hterminal hphase

/-- A cancelling task goes on cancelling or ends as cancelled. -/
theorem Advance.of_cancelling (hadvance : Advance state task after)
    (hcancelling : task.phase = .cancelling) :
    after.phase = .cancelling ∨ after.phase = .terminal ∧
      ∃ terminal, after.terminal = some terminal ∧
        terminal.kind = .cancelled := by
  cases hadvance with
  | stay => exact .inl hcancelling
  | accept hphase => rw [hcancelling] at hphase; cases hphase
  | activate _ hphase => rw [hcancelling] at hphase; cases hphase
  | cancelling => exact .inl rfl
  | settle terminal _ hcancelled =>
      exact .inr ⟨rfl, terminal, rfl, hcancelled hcancelling⟩

theorem Advance.lifecycle (hadvance : Advance state task after)
    (hlife : Lifecycle state.binding task) :
    Lifecycle state.binding after := by
  have hopen : task.phase ≠ .terminal → task.terminal = none := by
    intro hphase
    by_contra hsome
    exact hphase (hlife.settled.mpr hsome)
  cases hadvance with
  | stay => exact hlife
  | accept hphase =>
      have hnone := hopen (by rw [hphase]; decide)
      exact
        { held := by simp [CollaborationTask.setPhase]
          unheld := fun _ => hlife.unheld (.inl hphase)
          settled := by simp [CollaborationTask.setPhase, hnone]
          reservation := hlife.reservation
          handoff := hlife.handoff }
  | activate observation hphase hwork howner hrevision =>
      have hnone := hopen (by rw [hphase]; decide)
      refine
        { held := by
            simp [CollaborationTask.setPhase, CollaborationTask.setReservation]
          unheld := by simp [CollaborationTask.setPhase]
          settled := by
            simp [CollaborationTask.setPhase, CollaborationTask.setReservation,
              hnone]
          reservation := fun reservation hmem => ?_
          handoff := hlife.handoff }
      cases hmem
      exact ⟨hwork, howner, hrevision⟩
  | cancelling hphase =>
      have hnone := hopen (by rcases hphase with h | h <;> rw [h] <;> decide)
      exact
        { held := fun _ => hlife.held hphase
          unheld := by simp [CollaborationTask.setPhase]
          settled := by simp [CollaborationTask.setPhase, hnone]
          reservation := hlife.reservation
          handoff := hlife.handoff }
  | settle terminal _ _ hhandoff =>
      refine
        { held := by simp [CollaborationTask.terminate]
          unheld := by simp [CollaborationTask.terminate]
          settled := by simp [CollaborationTask.terminate]
          reservation := hlife.reservation
          handoff := fun found hmem => ?_ }
      cases hmem
      exact hhandoff

theorem Advance.succeeded (hadvance : Advance state task after)
    (hsucceeded : CollaborationState.succeeded task = true)
    (hlife : Lifecycle state.binding task) :
    CollaborationState.succeeded after = true := by
  have hterminal : task.phase = .terminal := by
    refine hlife.settled.mpr fun hnone => ?_
    unfold CollaborationState.succeeded at hsucceeded
    rw [hnone] at hsucceeded
    cases hsucceeded
  rw [hadvance.eq_of_terminal hterminal]
  exact hsucceeded

end Rows

/-! ### Cancellation of a subtree -/

def cancelledTerminal (reasonDigest : Sha256Digest) : TaskTerminal :=
  ⟨.cancelled, none, reasonDigest, fun _ => rfl,
    fun h => by rcases h with h | h <;> cases h⟩

def cancelRow (reasonDigest : Sha256Digest) (task : CollaborationTask) :
    CollaborationTask :=
  if task.phase = .active ∨ task.phase = .cancelling then
    task.setPhase .cancelling
  else task.terminate (cancelledTerminal reasonDigest)

def cancelRows (reasonDigest : Sha256Digest) (ids : List CollaborationTaskId)
    (tasks : List CollaborationTask) : List CollaborationTask :=
  tasks.map fun task =>
    if task.id ∈ ids then cancelRow reasonDigest task else task

def cancelEffect (task : CollaborationTask) : CancellationEffect :=
  ⟨task.id,
    if task.phase = .active ∨ task.phase = .cancelling then .cancelling
    else .terminal⟩

@[simp] theorem cancelRow_id (reasonDigest : Sha256Digest)
    (task : CollaborationTask) : (cancelRow reasonDigest task).id = task.id := by
  unfold cancelRow
  split <;> rfl

theorem advance_cancelRow (state : CollaborationState)
    (reasonDigest : Sha256Digest) {task : CollaborationTask}
    (hphase : task.phase ≠ .terminal) :
    Advance state task (cancelRow reasonDigest task) := by
  unfold cancelRow
  split
  · rename_i hactive
    exact .cancelling hactive
  · refine .settle _ hphase (fun _ => rfl) (fun handoff hmem => ?_)
      fun h => by cases h
    cases hmem

/-! ### Changes of a state -/

/-- The task a command cancels. -/
def cancelled : CollaborationCommandKind → Option CollaborationTaskId
  | .cancelTask taskId _ _ => some taskId
  | _ => none

section Change

variable (sha256 : List UInt8 → Sha256Digest)

structure Offered (state : CollaborationState) (assignment : Delegation)
    (parent : CollaborationTask) : Prop where
  phase : state.phase = .active
  fresh : ∀ task ∈ state.tasks, task.id ≠ assignment.taskId
  work : ∀ task ∈ state.tasks, task.assignment.workId ≠ assignment.workId
  room : state.tasks.length < state.limits.tasks
  root : assignment.rootTaskId = state.binding.rootTaskId
  retained : parent ∈ state.tasks
  active : parent.phase = .active
  adopts : Adopts assignment parent
  depth : assignment.depth ≤ state.limits.depth
  joins : parent.assignment.joinPolicy ≠ .noChildren
  fanOut : (state.children parent.id).length < state.limits.fanOut

structure Sent (state : CollaborationState) (message : CollaborationMessage)
    (task : CollaborationTask) : Prop where
  room : state.messages.length < state.limits.messages
  fresh : ∀ delivery ∈ state.messages, delivery.id ≠ message.id
  payload : message.payloadBytes ≤ state.limits.payloadBytes
  root : message.rootTaskId = state.binding.rootTaskId
  revision : message.revision = state.binding.revision
  retained : task ∈ state.tasks
  named : task.id = message.taskId
  active : task.phase = .active
  ordinal : message.ordinal = (taskMessages state message.taskId).length + 1
  predecessor : message.predecessor =
    (latest (taskMessages state message.taskId)).map MessageDelivery.id

inductive Change (state : CollaborationState) :
    CollaborationCommandKind → CollaborationState → Prop
  | offer {offeredBy : ActorId} {assignment : Delegation}
      {parent : CollaborationTask} (hoffered : Offered state assignment parent) :
      Change state (.offerDelegation offeredBy assignment)
        (insertTask state (.offered assignment))
  | row {kind : CollaborationCommandKind} (taskId : CollaborationTaskId)
      (edit : CollaborationTask → CollaborationTask)
      (hkind : cancelled kind = none)
      (hquiet : ∀ task, (edit task).phase ≠ .cancelling)
      (hrow : ∀ task ∈ state.tasks, task.id = taskId →
        Advance state task (edit task)) :
      Change state kind
        { state with
          tasks := updateRow CollaborationTask.id taskId edit state.tasks }
  | cancel {taskId : CollaborationTaskId} {requestedBy : ActorId}
      {reasonDigest : Sha256Digest} {target : CollaborationTask}
      (htarget : target ∈ state.tasks) (hid : target.id = taskId)
      (hopen : target.phase ≠ .terminal) :
      Change state (.cancelTask taskId requestedBy reasonDigest)
        { state with
          tasks := cancelRows reasonDigest (affected state taskId)
            state.tasks }
  | send {message : CollaborationMessage} {task : CollaborationTask}
      (hsent : Sent state message task) :
      Change state (.sendMessage message)
        (insertMessage state (.pending message))
  | acknowledge {messageId : CollaborationMessageId} {receiver : ActorId} :
      Change state (.acknowledgeMessage messageId receiver)
        { state with
          messages := updateRow MessageDelivery.id messageId
            MessageDelivery.acknowledge state.messages }
  | control {kind : CollaborationCommandKind} (phase : CollaborationPhase)
      (hkind : cancelled kind = none) (hopen : phase ≠ .terminal) :
      Change state kind { state with phase }
  | finalize {root : CollaborationTask} {rootTerminal : TaskTerminal}
      (hpending : state.hasPendingDirectives = false)
      (hdone : ∀ task ∈ state.tasks, task.phase = .terminal)
      (hroot : root ∈ state.tasks) (hid : root.id = state.binding.rootTaskId)
      (hterminal : root.terminal = some rootTerminal) :
      Change state .finalize
        (setTerminal state
          (newTerminal sha256 (terminalKind state root rootTerminal)
            (blockingTasks state (terminalKind state root rootTerminal))))

end Change

/-! ### Reading the handlers -/

section Handlers

variable {sha256 : List UInt8 → Sha256Digest}
variable {state next : CollaborationState} {event : CollaborationEventKind}
variable {task : CollaborationTask} {taskId : CollaborationTaskId}
variable {actor : ActorId} {reasonDigest : Sha256Digest}

theorem requireTask_eq_ok_iff :
    requireTask state taskId = .ok task ↔ state.task taskId = some task := by
  unfold requireTask
  split
  · rename_i found hfound
    rw [hfound, Except.ok.injEq, Option.some.injEq]
  · rename_i hnone
    rw [hnone]
    exact ⟨fun h => (by cases h), fun h => (by cases h)⟩

theorem ownedTask_eq_ok_iff :
    ownedTask state taskId actor = .ok task ↔
      state.task taskId = some task ∧ task.assignment.owner = actor := by
  unfold ownedTask
  simp only [bind_eq_ok_iff, requireTask_eq_ok_iff, ensure_eq_ok_iff,
    exists_unit_iff, decide_eq_true_eq, Except.ok.injEq]
  constructor
  · rintro ⟨found, hfound, howner, rfl⟩
    exact ⟨hfound, howner⟩
  · rintro ⟨hfound, howner⟩
    exact ⟨task, hfound, howner, rfl⟩

theorem mem_of_task (h : state.task taskId = some task) :
    task ∈ state.tasks ∧ task.id = taskId :=
  mem_of_lookup h

/-- The row a command names, whichever copy of it is read. -/
theorem eq_of_task (hsorted : Sorted CollaborationTask.id state.tasks)
    (h : state.task taskId = some task) {other : CollaborationTask}
    (hmem : other ∈ state.tasks) (hid : other.id = taskId) : other = task :=
  hsorted.inj hmem (mem_of_task h).1 (hid.trans (mem_of_task h).2.symm)

theorem taskMut_eq (hsorted : Sorted CollaborationTask.id state.tasks)
    (h : state.task taskId = some task)
    (edit : CollaborationTask → CollaborationTask) :
    taskMut state taskId edit =
      some { state with
        tasks := updateRow CollaborationTask.id taskId edit state.tasks } := by
  obtain ⟨hmem, hid⟩ := mem_of_task h
  obtain ⟨index, hindex, _⟩ := lookupIndex_of_mem hsorted hmem hid
  unfold taskMut
  rw [hindex, Option.map_some, modify_eq_updateRow hsorted hindex]

theorem terminate_eq (hsorted : Sorted CollaborationTask.id state.tasks)
    (h : state.task taskId = some task) (terminal : TaskTerminal) :
    terminate state taskId terminal =
      { state with
        tasks := updateRow CollaborationTask.id taskId
          (fun task => task.terminate terminal) state.tasks } := by
  unfold terminate
  rw [taskMut_eq hsorted h, Option.getD_some]

theorem messageMut_eq
    (hsorted : Sorted MessageDelivery.id state.messages)
    {messageId : CollaborationMessageId} {delivery : MessageDelivery}
    (h : state.message messageId = some delivery)
    (edit : MessageDelivery → MessageDelivery) :
    messageMut state messageId edit =
      some { state with
        messages := updateRow MessageDelivery.id messageId edit
          state.messages } := by
  obtain ⟨hmem, hid⟩ := mem_of_lookup h
  obtain ⟨index, hindex, _⟩ := lookupIndex_of_mem hsorted hmem hid
  unfold messageMut
  rw [hindex, Option.map_some, modify_eq_updateRow hsorted hindex]

theorem fresh_of_task (htable : TaskTable state.binding state.tasks)
    (h : (state.task taskId).isNone = true) :
    ∀ task ∈ state.tasks, task.id ≠ taskId := by
  rw [Option.isNone_iff_eq_none] at h
  exact (lookup_eq_none_iff htable.sorted).mp h

theorem requireParent_eq_ok {assignment : Delegation}
    (h : requireParent state assignment = .ok task) :
    task ∈ state.tasks ∧ assignment.parentTaskId = some task.id := by
  unfold requireParent at h
  split at h
  · cases h
  · rename_i parentId hparent
    split at h
    · rename_i parent hfound
      cases h
      obtain ⟨hmem, hid⟩ := mem_of_task hfound
      exact ⟨hmem, hparent.trans (congrArg some hid.symm)⟩
    · cases h

theorem change_of_offer (htable : TaskTable state.binding state.tasks)
    {assignment : Delegation}
    (h : offer state actor assignment = .ok (next, event)) :
    Change sha256 state (.offerDelegation actor assignment) next := by
  unfold offer at h
  simp only [bind_eq_ok_iff, ensure_eq_ok_iff, exists_unit_iff,
    Bool.and_eq_true, decide_eq_true_eq, Except.ok.injEq, Prod.mk.injEq] at h
  obtain ⟨hphase, ⟨hfresh, hwork⟩, ⟨hroom, hroot⟩, parent, hparent,
    ⟨⟨hactive, howner⟩, hparentOwner⟩, _, ⟨⟨hdepth, hlimit⟩, hjoins⟩, hfan,
    rfl, _⟩ := h
  obtain ⟨hmem, hname⟩ := requireParent_eq_ok hparent
  refine .offer
    { phase := hphase
      fresh := fresh_of_task htable hfresh
      work := fun task htask =>
        of_decide_eq_true (List.all_eq_true.mp hwork task htask)
      room := hroom
      root := hroot
      retained := hmem
      active := hactive
      adopts := ⟨hname, hdepth, hparentOwner.trans howner.symm⟩
      depth := hlimit
      joins := hjoins
      fanOut := hfan }

theorem change_of_accept (htable : TaskTable state.binding state.tasks)
    (h : accept state taskId actor = .ok (next, event)) :
    Change sha256 state (.acceptDelegation taskId actor) next := by
  unfold accept at h
  simp only [bind_eq_ok_iff, ensure_eq_ok_iff, exists_unit_iff,
    decide_eq_true_eq, ownedTask_eq_ok_iff] at h
  obtain ⟨task, ⟨hfound, _⟩, hphase, h⟩ := h
  rw [taskMut_eq htable.sorted hfound] at h
  cases h
  refine .row taskId _ rfl (fun _ h => by cases h) fun other hmem hid => ?_
  rw [eq_of_task htable.sorted hfound hmem hid]
  exact .accept hphase

theorem change_of_rejectOffer (htable : TaskTable state.binding state.tasks)
    (h : rejectOffer state taskId actor reasonDigest = .ok (next, event)) :
    Change sha256 state (.rejectDelegation taskId actor reasonDigest) next := by
  unfold rejectOffer at h
  simp only [bind_eq_ok_iff, ensure_eq_ok_iff, exists_unit_iff,
    Bool.and_eq_true, decide_eq_true_eq, ownedTask_eq_ok_iff, Except.ok.injEq,
    Prod.mk.injEq] at h
  obtain ⟨task, ⟨hfound, _⟩, ⟨hphase, _⟩, terminal, hterminal, rfl, _⟩ := h
  obtain ⟨hkind, hhandoff, _⟩ := TaskTerminal.new_eq_ok hterminal
  rw [terminate_eq htable.sorted hfound]
  refine .row taskId _ rfl (fun _ h => by cases h) fun other hmem hid => ?_
  rw [eq_of_task htable.sorted hfound hmem hid]
  refine .settle terminal (by rw [hphase]; decide) (by rw [hphase]; simp) ?_ ?_
  · rw [hhandoff]
    exact fun handoff hmem => by cases hmem
  · rw [hkind]
    exact fun hsucceeded => by cases hsucceeded

theorem change_of_activate (htable : TaskTable state.binding state.tasks)
    {observation : ReservationObservation}
    (h : activate state taskId observation = .ok (next, event)) :
    Change sha256 state (.activateTask taskId observation) next := by
  unfold activate at h
  simp only [bind_eq_ok_iff, ensure_eq_ok_iff, exists_unit_iff,
    Bool.and_eq_true, decide_eq_true_eq, requireTask_eq_ok_iff,
    Except.ok.injEq, Prod.mk.injEq] at h
  obtain ⟨task, hfound, ⟨⟨⟨hphase, hwork⟩, howner⟩, hrevision⟩, rfl, _⟩ := h
  unfold activateMut
  rw [taskMut_eq htable.sorted hfound, Option.getD_some]
  refine .row taskId _ rfl (fun _ h => by cases h) fun other hmem hid => ?_
  rw [eq_of_task htable.sorted hfound hmem hid]
  exact .activate observation hphase hwork howner hrevision

theorem change_of_complete (htable : TaskTable state.binding state.tasks)
    {terminal : TaskTerminal}
    (h : complete state taskId actor terminal = .ok (next, event)) :
    Change sha256 state (.completeTask taskId actor terminal) next := by
  unfold complete at h
  simp only [bind_eq_ok_iff, ensure_eq_ok_iff, exists_unit_iff,
    Bool.and_eq_true, Bool.or_eq_true, Bool.not_eq_true', decide_eq_true_eq,
    decide_eq_false_iff_not, ownedTask_eq_ok_iff, Except.ok.injEq,
    Prod.mk.injEq] at h
  obtain ⟨task, ⟨hfound, _⟩, ⟨hphase, _⟩, hhandoff, _, hjoin, rfl, _⟩ := h
  obtain ⟨_, hname⟩ := mem_of_task hfound
  rw [terminate_eq htable.sorted hfound]
  refine .row taskId _ rfl (fun _ h => by cases h) fun other hmem hid => ?_
  rw [eq_of_task htable.sorted hfound hmem hid]
  refine .settle terminal (by rw [hphase]; decide) (by rw [hphase]; simp) ?_ ?_
  · intro handoff hmem
    rw [hmem] at hhandoff
    exact of_decide_eq_true hhandoff
  · intro hsucceeded
    rw [hname]
    exact hjoin.resolve_left fun hnot => hnot hsucceeded

theorem change_of_abandon (htable : TaskTable state.binding state.tasks)
    (h : abandon state taskId actor reasonDigest = .ok (next, event)) :
    Change sha256 state (.abandonTask taskId actor reasonDigest) next := by
  unfold abandon at h
  simp only [bind_eq_ok_iff, ensure_eq_ok_iff, exists_unit_iff,
    Bool.and_eq_true, Bool.or_eq_true, decide_eq_true_eq, ownedTask_eq_ok_iff,
    Except.ok.injEq, Prod.mk.injEq] at h
  obtain ⟨task, ⟨hfound, _⟩, ⟨hphase, _⟩, terminal, hterminal, rfl, _⟩ := h
  obtain ⟨hkind, hhandoff, _⟩ := TaskTerminal.new_eq_ok hterminal
  rw [terminate_eq htable.sorted hfound]
  refine .row taskId _ rfl (fun _ h => by cases h) fun other hmem hid => ?_
  rw [eq_of_task htable.sorted hfound hmem hid]
  refine .settle terminal ?_ ?_ ?_ ?_
  · rcases hphase with hphase | hphase <;> rw [hphase] <;> decide
  · rcases hphase with hphase | hphase <;> rw [hphase] <;> simp
  · rw [hhandoff]
    exact fun handoff hmem => by cases hmem
  · rw [hkind]
    exact fun hsucceeded => by cases hsucceeded

theorem change_of_acknowledgeCancellation
    (htable : TaskTable state.binding state.tasks)
    (h : acknowledgeCancellation state taskId actor = .ok (next, event)) :
    Change sha256 state (.acknowledgeCancellation taskId actor) next := by
  unfold acknowledgeCancellation at h
  simp only [bind_eq_ok_iff, ensure_eq_ok_iff, exists_unit_iff,
    decide_eq_true_eq, ownedTask_eq_ok_iff, Except.ok.injEq,
    Prod.mk.injEq] at h
  obtain ⟨task, ⟨hfound, _⟩, hphase, terminal, hterminal, rfl, _⟩ := h
  obtain ⟨hkind, hhandoff, _⟩ := TaskTerminal.new_eq_ok hterminal
  rw [terminate_eq htable.sorted hfound]
  refine .row taskId _ rfl (fun _ h => by cases h) fun other hmem hid => ?_
  rw [eq_of_task htable.sorted hfound hmem hid]
  refine .settle terminal (by rw [hphase]; decide) (fun _ => hkind) ?_ ?_
  · rw [hhandoff]
    exact fun handoff hmem => by cases hmem
  · rw [hkind]
    exact fun hsucceeded => by cases hsucceeded

/-! ### The handlers over subtrees, messages and phases -/

theorem updateRow_cancelRow (reasonDigest : Sha256Digest)
    (id : CollaborationTaskId) (rest : List CollaborationTaskId)
    (hnew : id ∉ rest) (tasks : List CollaborationTask) :
    cancelRows reasonDigest rest
        (updateRow CollaborationTask.id id (cancelRow reasonDigest) tasks) =
      cancelRows reasonDigest (id :: rest) tasks := by
  unfold cancelRows updateRow
  rw [List.map_map]
  refine List.map_congr_left fun task _ => ?_
  by_cases hid : task.id = id
  · simp only [Function.comp_apply, cancelRow_id, hid, hnew, if_false,
      List.mem_cons_self, if_true]
  · simp only [Function.comp_apply, List.mem_cons, hid, false_or, if_false]

theorem cancelOne_eq_ok (hsorted : Sorted CollaborationTask.id state.tasks)
    {id : CollaborationTaskId} {effect : CancellationEffect}
    (h : cancelOne reasonDigest state id = .ok (next, effect)) :
    ∃ task, state.task id = some task ∧ effect = cancelEffect task ∧
      next = { state with
        tasks := updateRow CollaborationTask.id id (cancelRow reasonDigest)
          state.tasks } := by
  unfold cancelOne at h
  rw [bind_eq_ok_iff] at h
  obtain ⟨task, hfound, h⟩ := h
  rw [requireTask_eq_ok_iff] at hfound
  obtain ⟨hmem, hid⟩ := mem_of_task hfound
  have hrow : ∀ edit : CollaborationTask → CollaborationTask,
      cancelRow reasonDigest task = edit task →
      updateRow CollaborationTask.id id edit state.tasks =
        updateRow CollaborationTask.id id (cancelRow reasonDigest)
          state.tasks := by
    intro edit hedit
    refine List.map_congr_left fun other hother => ?_
    by_cases hsame : other.id = id
    · rw [if_pos hsame, if_pos hsame, eq_of_task hsorted hfound hother hsame,
        hedit]
    · rw [if_neg hsame, if_neg hsame]
  by_cases hphase : task.phase = .active ∨ task.phase = .cancelling
  · rw [if_pos hphase, taskMut_eq hsorted hfound] at h
    cases h
    refine ⟨task, hfound, ?_, ?_⟩
    · rw [cancelEffect, if_pos hphase, hid]
    · rw [hrow (fun task => task.setPhase .cancelling) (if_pos hphase)]
  · rw [if_neg hphase, bind_eq_ok_iff] at h
    obtain ⟨terminal, hterminal, h⟩ := h
    rw [terminate_eq hsorted hfound] at h
    cases h
    refine ⟨task, hfound, ?_, ?_⟩
    · rw [cancelEffect, if_neg hphase, hid]
    · have hnew : TaskTerminal.new .cancelled none reasonDigest =
          .ok (cancelledTerminal reasonDigest) :=
        (cancelledTerminal reasonDigest).new_self
      rw [hterminal, Except.ok.injEq] at hnew
      rw [hrow (fun task => task.terminate terminal)
        ((if_neg hphase).trans (by rw [hnew]))]

theorem cancelEach_eq_ok {ids : List CollaborationTaskId}
    {effects : List CancellationEffect}
    (hsorted : Sorted CollaborationTask.id state.tasks) (hids : ids.Nodup)
    (h : cancelEach reasonDigest state ids = .ok (next, effects)) :
    next = { state with tasks := cancelRows reasonDigest ids state.tasks } ∧
      effects.map CancellationEffect.taskId = ids := by
  induction ids generalizing state effects with
  | nil =>
      have hsame : cancelRows reasonDigest [] state.tasks = state.tasks := by
        simp [cancelRows]
      cases h
      exact ⟨by rw [hsame], rfl⟩
  | cons id rest ih =>
      obtain ⟨hnew, hrest⟩ := List.nodup_cons.mp hids
      simp only [cancelEach, bind_eq_ok_iff, Prod.exists, Except.ok.injEq,
        Prod.mk.injEq] at h
      obtain ⟨mid, effect, hone, last, others, heach, rfl, rfl⟩ := h
      obtain ⟨task, hfound, rfl, rfl⟩ := cancelOne_eq_ok hsorted hone
      obtain ⟨rfl, hothers⟩ := ih (hsorted.map fun task => by
        split
        · exact cancelRow_id _ _
        · rfl) hrest heach
      refine ⟨?_, ?_⟩
      · dsimp only
        rw [updateRow_cancelRow reasonDigest id rest hnew]
      · rw [List.map_cons, hothers, cancelEffect, (mem_of_task hfound).2]

theorem change_of_cancel (htable : TaskTable state.binding state.tasks)
    (h : cancel state taskId actor reasonDigest = .ok (next, event)) :
    Change sha256 state (.cancelTask taskId actor reasonDigest) next := by
  unfold cancel at h
  simp only [bind_eq_ok_iff, ensure_eq_ok_iff, exists_unit_iff,
    Bool.and_eq_true, decide_eq_true_eq, requireTask_eq_ok_iff, Prod.exists,
    Except.ok.injEq, Prod.mk.injEq] at h
  obtain ⟨target, hfound, ⟨hopen, _⟩, _, mid, effects, heach, rfl, _⟩ := h
  obtain ⟨hmem, hid⟩ := mem_of_task hfound
  have hids : (affected state taskId).Nodup :=
    (htable.sorted.sublist List.filter_sublist).nodup_map
  obtain ⟨rfl, _⟩ := cancelEach_eq_ok htable.sorted hids heach
  exact .cancel hmem hid hopen

theorem change_of_sendMessage
    (hmessages : Sorted MessageDelivery.id state.messages)
    {message : CollaborationMessage}
    (h : sendMessage state message = .ok (next, event)) :
    Change sha256 state (.sendMessage message) next := by
  unfold sendMessage at h
  simp only [bind_eq_ok_iff, ensure_eq_ok_iff, exists_unit_iff,
    Bool.and_eq_true, decide_eq_true_eq, requireTask_eq_ok_iff,
    Except.ok.injEq, Prod.mk.injEq] at h
  obtain ⟨⟨⟨⟨⟨hroom, hfresh⟩, hpayload⟩, hroot⟩, hrevision⟩, task, hfound,
    hactive, _, _, _, _, ⟨hordinal, hpredecessor⟩, _, rfl, _⟩ := h
  obtain ⟨hmem, hid⟩ := mem_of_task hfound
  rw [Option.isNone_iff_eq_none] at hfresh
  exact .send
    { room := hroom
      fresh := (lookup_eq_none_iff hmessages).mp hfresh
      payload := hpayload
      root := hroot
      revision := hrevision
      retained := hmem
      named := hid
      active := hactive
      ordinal := hordinal
      predecessor := hpredecessor }

theorem change_of_acknowledgeMessage
    (hmessages : Sorted MessageDelivery.id state.messages)
    {messageId : CollaborationMessageId}
    (h : acknowledgeMessage state messageId actor = .ok (next, event)) :
    Change sha256 state (.acknowledgeMessage messageId actor) next := by
  unfold acknowledgeMessage at h
  split at h
  · cases h
  · rename_i delivery hfound
    rw [ensure_bind_eq_ok_iff, messageMut_eq hmessages hfound] at h
    obtain ⟨_, h⟩ := h
    cases h
    exact .acknowledge

theorem change_of_pause
    (h : pause state actor = .ok (next, event)) :
    Change sha256 state (.pause actor) next := by
  unfold pause at h
  simp only [bind_eq_ok_iff, ensure_eq_ok_iff, exists_unit_iff,
    Except.ok.injEq, Prod.mk.injEq] at h
  obtain ⟨_, _, rfl, _⟩ := h
  exact .control _ rfl (by decide)

theorem change_of_resume
    (h : resume state actor = .ok (next, event)) :
    Change sha256 state (.resume actor) next := by
  unfold resume at h
  simp only [bind_eq_ok_iff, ensure_eq_ok_iff, exists_unit_iff,
    Except.ok.injEq, Prod.mk.injEq] at h
  obtain ⟨_, _, rfl, _⟩ := h
  exact .control _ rfl (by decide)

theorem change_of_finalize
    (h : finalize sha256 state = .ok (next, event)) :
    Change sha256 state .finalize next := by
  unfold finalize at h
  simp only [bind_eq_ok_iff, ensure_eq_ok_iff, exists_unit_iff,
    Bool.and_eq_true, Bool.not_eq_true', requireTask_eq_ok_iff] at h
  obtain ⟨⟨hpending, hdone⟩, root, hfound, h⟩ := h
  obtain ⟨hmem, hid⟩ := mem_of_task hfound
  split at h
  · cases h
  · rename_i rootTerminal hterminal
    cases h
    exact .finalize hpending
      (fun task htask => of_decide_eq_true (List.all_eq_true.mp hdone task htask))
      hmem hid hterminal

theorem change_of_apply (htable : TaskTable state.binding state.tasks)
    (hmessages : Sorted MessageDelivery.id state.messages)
    {kind : CollaborationCommandKind}
    (h : apply sha256 state kind = .ok (next, event)) :
    Change sha256 state kind next := by
  cases kind with
  | start binding => cases h
  | offerDelegation => exact change_of_offer htable h
  | acceptDelegation => exact change_of_accept htable h
  | rejectDelegation => exact change_of_rejectOffer htable h
  | activateTask => exact change_of_activate htable h
  | sendMessage => exact change_of_sendMessage hmessages h
  | acknowledgeMessage => exact change_of_acknowledgeMessage hmessages h
  | completeTask => exact change_of_complete htable h
  | abandonTask => exact change_of_abandon htable h
  | cancelTask => exact change_of_cancel htable h
  | acknowledgeCancellation =>
      exact change_of_acknowledgeCancellation htable h
  | pause => exact change_of_pause h
  | resume => exact change_of_resume h
  | finalize => exact change_of_finalize h

end Handlers

end Peritus.Collaboration.Edits
