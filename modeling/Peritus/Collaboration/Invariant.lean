import Peritus.Forest
import Peritus.Collaboration.Verified

/-!
What holds of the task and message tables of every collaboration: a rooted
forest with depths, one lifecycle for each task, joins that stay true, and
contiguous message chains.
-/

namespace Peritus.Collaboration.Invariant

open Peritus.Types Forest SortedTable Limits Collaboration.Task State Canonical

/-! ### The invariant -/

/-- The task right above, as the assignment describes it. -/
structure Adopts (assignment : Delegation) (parent : CollaborationTask) :
    Prop where
  named : assignment.parentTaskId = some parent.id
  depth : assignment.depth = parent.assignment.depth + 1
  owner : assignment.parentOwner = parent.assignment.owner

/-- What the phase of a task says about its reservation and its outcome. -/
structure Lifecycle (binding : CollaborationBinding)
    (task : CollaborationTask) : Prop where
  held : task.phase = .active ∨ task.phase = .cancelling →
    task.reservation ≠ none
  unheld : task.phase = .offered ∨ task.phase = .accepted →
    task.reservation = none
  settled : task.phase = .terminal ↔ task.terminal ≠ none
  reservation : ∀ reservation ∈ task.reservation,
    reservation.workId = task.assignment.workId ∧
      reservation.owner = task.assignment.owner ∧
      reservation.revision = binding.revision
  handoff : ∀ terminal ∈ task.terminal, ∀ handoff ∈ terminal.handoff,
    handoff.revision = binding.revision

structure Placed (binding : CollaborationBinding)
    (tasks : List CollaborationTask) (task : CollaborationTask) : Prop where
  root : task.assignment.rootTaskId = binding.rootTaskId
  depth : task.assignment.depth ≤ binding.limits.depth
  parent : ∀ parentId ∈ task.assignment.parentTaskId,
    ∃ parent ∈ tasks, parent.id = parentId ∧ Adopts task.assignment parent
  lifecycle : Lifecycle binding task

structure RootBinding (binding : CollaborationBinding) : Prop where
  named : binding.rootTaskId = binding.rootAssignment.taskId
  own : binding.rootAssignment.rootTaskId = binding.rootTaskId
  orphan : binding.rootAssignment.parentTaskId = none
  depth : binding.rootAssignment.depth = 0

structure TaskTable (binding : CollaborationBinding)
    (tasks : List CollaborationTask) : Prop where
  sorted : Sorted CollaborationTask.id tasks
  root : ∃ root ∈ tasks, root.assignment = binding.rootAssignment
  placed : ∀ task ∈ tasks, Placed binding tasks task
  works : (tasks.map fun task => task.assignment.workId).Nodup
  bound : tasks.length ≤ binding.limits.tasks
  fanOut : ∀ parentId, (tasks.filter fun task =>
    decide (task.assignment.parentTaskId = some parentId)).length ≤
      binding.limits.fanOut

/-- Messages about one task carry the ordinals `1, 2, …` in some order. -/
structure Chained (messages about : List CollaborationMessage) : Prop where
  within : ∀ message ∈ about, message.ordinal ≤ about.length
  last : about ≠ [] → ∃ message ∈ about, message.ordinal = about.length
  predecessor : ∀ message ∈ about, ∀ id ∈ message.predecessor,
    ∃ earlier ∈ messages, earlier.id = id ∧
      earlier.taskId = message.taskId ∧ earlier.ordinal + 1 = message.ordinal

structure Posted (binding : CollaborationBinding)
    (tasks : List CollaborationTask) (message : CollaborationMessage) :
    Prop where
  root : message.rootTaskId = binding.rootTaskId
  revision : message.revision = binding.revision
  payload : message.payloadBytes ≤ binding.limits.payloadBytes
  task : ∃ task ∈ tasks, task.id = message.taskId

/-- The messages without their acknowledgements. -/
structure MessageTable (binding : CollaborationBinding)
    (tasks : List CollaborationTask) (messages : List CollaborationMessage) :
    Prop where
  sorted : Sorted CollaborationMessage.id messages
  bound : messages.length ≤ binding.limits.messages
  posted : ∀ message ∈ messages, Posted binding tasks message
  chained : ∀ taskId, Chained messages
    (messages.filter fun message => decide (message.taskId = taskId))

/-- A completed collaboration has nothing left to do under a root that
succeeded. -/
def CompletedTruthfully (state : CollaborationState) : Prop :=
  state.hasPendingDirectives = false ∧
    (∀ task ∈ state.tasks, task.phase = .terminal) ∧
    ∃ root ∈ state.tasks, root.id = state.binding.rootTaskId ∧
      CollaborationState.succeeded root = true

/-- A required child of a task. -/
def RequiredChild (tasks : List CollaborationTask)
    (taskId : CollaborationTaskId) (child : CollaborationTask) : Prop :=
  child ∈ tasks ∧ child.assignment.parentTaskId = some taskId ∧
    child.assignment.required = true

/-- The declared join of a task over the tasks below it. -/
def Joined (tasks : List CollaborationTask) (task : CollaborationTask) : Prop :=
  match task.assignment.joinPolicy with
  | .noChildren => ∀ child, ¬RequiredChild tasks task.id child
  | .allRequired => ∀ child, RequiredChild tasks task.id child →
      CollaborationState.succeeded child = true
  | .anyRequired => ∃ child, RequiredChild tasks task.id child ∧
      CollaborationState.succeeded child = true

/-- What the handlers keep. -/
structure Kept (sha256 : List UInt8 → Sha256Digest)
    (state : CollaborationState) : Prop where
  binding : validateBinding sha256 state.binding = .ok ()
  tasks : TaskTable state.binding state.tasks
  messages : MessageTable state.binding state.tasks
    (state.messages.map MessageDelivery.message)
  joins : ∀ task ∈ state.tasks, CollaborationState.succeeded task = true →
    Joined state.tasks task
  closed : state.phase = .terminal ↔ state.terminal ≠ none
  terminal : ∀ terminal ∈ state.terminal,
    terminalDigest sha256 terminal = terminal.digest ∧
      (terminal.kind = .completed → CompletedTruthfully state)

/-- What the commit around a handler adds. -/
structure Sound (sha256 : List UInt8 → Sha256Digest)
    (state : CollaborationState) : Prop extends Kept sha256 state where
  counted : state.sequence.get = state.usedCommands.length
  fresh : state.usedCommands.Nodup
  digest : stateDigest sha256 state = state.stateDigest

/-! ### The binding and the root -/

section Table

variable {sha256 : List UInt8 → Sha256Digest}
variable {binding : CollaborationBinding} {tasks : List CollaborationTask}
variable {task parent : CollaborationTask}

theorem rootBinding_of_validate
    (hvalid : validateBinding sha256 binding = .ok ()) :
    RootBinding binding := by
  unfold validateBinding at hvalid
  simp only [Checked.ensure_eq_ok_iff, Bool.and_eq_true, decide_eq_true_eq]
    at hvalid
  obtain ⟨⟨⟨⟨⟨hnamed, hown⟩, horphan⟩, hdepth⟩, _⟩, _⟩ := hvalid
  exact ⟨hnamed, hown, horphan, hdepth⟩

theorem Placed.id_of_orphan (hplaced : Placed binding tasks task)
    (horphan : task.assignment.parentTaskId = none) :
    task.id = binding.rootTaskId :=
  (task.assignment.rootShape horphan).2.1.trans hplaced.root

/-- The root is the only task without a parent. -/
theorem TaskTable.root_iff (hroot : RootBinding binding)
    (htable : TaskTable binding tasks) (htask : task ∈ tasks) :
    task.id = binding.rootTaskId ↔ task.assignment.parentTaskId = none := by
  refine ⟨fun hid => ?_, (htable.placed task htask).id_of_orphan⟩
  obtain ⟨root, hmem, hassignment⟩ := htable.root
  have hsame : task = root := by
    refine htable.sorted.inj htask hmem ?_
    rw [hid, hroot.named, ← hassignment]
    rfl
  rw [hsame, hassignment]
  exact hroot.orphan

theorem lookup_of_mem (htable : TaskTable binding tasks) (htask : task ∈ tasks) :
    lookup CollaborationTask.id task.id tasks = some task :=
  SortedTable.lookup_of_mem htable.sorted htask rfl

end Table

/-! ### Joins -/

section Joins

variable {state : CollaborationState} {task child : CollaborationTask}

theorem mem_requiredChildren {taskId : CollaborationTaskId} :
    child ∈ state.requiredChildren taskId ↔
      RequiredChild state.tasks taskId child := by
  unfold CollaborationState.requiredChildren CollaborationState.children
  simp only [List.mem_filter, decide_eq_true_eq, RequiredChild, and_assoc]

/-- The join that the reducer computes is the declared one. -/
theorem joinSatisfied_iff (htable : TaskTable state.binding state.tasks)
    (htask : task ∈ state.tasks) :
    state.joinSatisfied task.id = true ↔ Joined state.tasks task := by
  unfold CollaborationState.joinSatisfied CollaborationState.task Joined
  rw [lookup_of_mem htable htask]
  dsimp only
  cases task.assignment.joinPolicy with
  | noChildren =>
      simp only [List.isEmpty_iff, List.eq_nil_iff_forall_not_mem,
        mem_requiredChildren]
  | allRequired =>
      simp only [List.all_eq_true, mem_requiredChildren]
  | anyRequired =>
      simp only [Bool.and_eq_true, Bool.not_eq_true', List.any_eq_true,
        mem_requiredChildren, List.isEmpty_eq_false_iff_exists_mem]
      exact ⟨fun h => h.2, fun ⟨found, h⟩ => ⟨⟨found, h.1⟩, found, h⟩⟩

end Joins

/-! ### Descendants -/

section Tree

variable {state : CollaborationState} {task : CollaborationTask}
variable {x y target : CollaborationTaskId}

def depthOf (state : CollaborationState) (id : CollaborationTaskId) : Nat :=
  ((state.task id).map fun task => task.assignment.depth).getD 0

/-- `x` is `target` or stands below it. -/
def Within (state : CollaborationState) (target x : CollaborationTaskId) :
    Prop :=
  Ancestor state.parentOf x target

theorem task_of_mem (htable : TaskTable state.binding state.tasks)
    (htask : task ∈ state.tasks) : state.task task.id = some task :=
  lookup_of_mem htable htask

theorem parentOf_of_mem (htable : TaskTable state.binding state.tasks)
    (htask : task ∈ state.tasks) :
    state.parentOf task.id = task.assignment.parentTaskId := by
  unfold CollaborationState.parentOf
  rw [task_of_mem htable htask, Option.bind_some]

theorem parentOf_eq_some (htable : TaskTable state.binding state.tasks)
    (hparent : state.parentOf x = some y) :
    ∃ task ∈ state.tasks, ∃ parent ∈ state.tasks, task.id = x ∧
      parent.id = y ∧ Adopts task.assignment parent := by
  unfold CollaborationState.parentOf at hparent
  rw [Option.bind_eq_some_iff] at hparent
  obtain ⟨task, hlookup, hparent⟩ := hparent
  obtain ⟨htask, hid⟩ := mem_of_lookup hlookup
  obtain ⟨parent, hmem, hname, hadopts⟩ :=
    (htable.placed task htask).parent y hparent
  exact ⟨task, htask, parent, hmem, hid, hname, hadopts⟩

theorem ranked (htable : TaskTable state.binding state.tasks) :
    Ranked state.parentOf (depthOf state) := by
  intro x y hparent
  obtain ⟨task, htask, parent, hmem, rfl, rfl, hadopts⟩ :=
    parentOf_eq_some htable hparent
  unfold depthOf
  rw [task_of_mem htable htask, task_of_mem htable hmem]
  simp only [Option.map_some, Option.getD_some, hadopts.depth]
  exact Nat.lt_succ_self _

theorem depthOf_le (htable : TaskTable state.binding state.tasks)
    (x : CollaborationTaskId) : depthOf state x ≤ state.limits.depth := by
  unfold depthOf
  cases hlookup : state.task x with
  | none => exact Nat.zero_le _
  | some task => exact (htable.placed task (mem_of_lookup hlookup).1).depth

theorem within_of_climbs {steps : Nat}
    (hclimbs : state.climbs target steps (some x) = true) :
    Within state target x := by
  induction steps generalizing x with
  | zero => cases hclimbs
  | succ steps ih =>
      unfold CollaborationState.climbs at hclimbs
      by_cases hfound : x = target
      · rw [hfound]
        exact .refl _ _
      · rw [if_neg hfound] at hclimbs
        cases hparent : state.parentOf x with
        | none =>
            rw [hparent] at hclimbs
            cases steps <;> cases hclimbs
        | some y =>
            rw [hparent] at hclimbs
            exact ancestor_of_parent hparent (ih hclimbs)

theorem climbs_of_within (htable : TaskTable state.binding state.tasks)
    {steps : Nat} (hdepth : depthOf state x < steps)
    (hwithin : Within state target x) :
    state.climbs target steps (some x) = true := by
  induction steps generalizing x with
  | zero => exact absurd hdepth (Nat.not_lt_zero _)
  | succ steps ih =>
      unfold CollaborationState.climbs
      split
      · rfl
      · rename_i hfound
        cases hparent : state.parentOf x with
        | none => exact absurd ((ancestor_iff_of_root hparent).mp hwithin) hfound
        | some y =>
            have habove := ((ancestor_iff_of_parent hparent).mp
              hwithin).resolve_left hfound
            have hlt := ranked htable x y hparent
            exact ih (by omega) habove

theorem isDescendantOf_iff (htable : TaskTable state.binding state.tasks) :
    state.isDescendantOf x target = true ↔ Within state target x ∧ x ≠ target := by
  unfold CollaborationState.isDescendantOf
  rw [Bool.and_eq_true, decide_eq_true_eq]
  refine and_congr_left fun _ => ⟨within_of_climbs, fun hwithin => ?_⟩
  exact climbs_of_within htable
    (Nat.lt_succ_of_le (depthOf_le htable x)) hwithin

theorem within_iff (htable : TaskTable state.binding state.tasks) :
    x = target ∨ state.isDescendantOf x target = true ↔
      Within state target x := by
  rw [isDescendantOf_iff htable]
  constructor
  · rintro (rfl | h)
    · exact .refl _ _
    · exact h.1
  · intro h
    by_cases hsame : x = target
    · exact .inl hsame
    · exact .inr ⟨h, hsame⟩

/-- A task stands below another through its own parent. -/
theorem within_iff_of_adopts (htable : TaskTable state.binding state.tasks)
    {parent : CollaborationTask} (htask : task ∈ state.tasks)
    (hparent : task.assignment.parentTaskId = some parent.id) :
    Within state target task.id ↔
      task.id = target ∨ Within state target parent.id :=
  ancestor_iff_of_parent ((parentOf_of_mem htable htask).trans hparent)

end Tree

end Peritus.Collaboration.Invariant
