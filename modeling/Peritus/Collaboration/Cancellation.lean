import Peritus.Collaboration.Truth

/-!
When cancellation dominates a subtree.  A cancellation leaves what has ended
alone, so a task that is cancelled above an earlier success breaks the published
specification; without such a cancellation it holds in every run.
-/

namespace Peritus.Collaboration.Cancellation

open Peritus.Types Collections TransitionSystem Limits Collaboration.Task State
open Reducer Verified Invariant Edits Preservation Truth
open Scheduler.State (zeroDigest)

variable {sha256 : List UInt8 → Sha256Digest}
variable {state next : CollaborationState} {task after : CollaborationTask}
variable {rows : List CollaborationTask} {target : CollaborationTaskId}

/-! ### Dominated subtrees -/

/-- Cancelling, or ended without success. -/
def Overruled (task : CollaborationTask) : Prop :=
  task.phase = .cancelling ∨ unsuccessful task = true

def Dominated (state : CollaborationState) : Prop :=
  ∀ task ∈ state.tasks, task.phase = .cancelling →
    ∀ descendant ∈ state.tasks, Within state task.id descendant.id →
      descendant.id ≠ task.id → Overruled descendant

theorem cancellationDominates_iff (htable : TaskTable state.binding state.tasks) :
    cancellationDominates state = true ↔ Dominated state := by
  unfold cancellationDominates Dominated Overruled
  simp only [List.all_eq_true, List.mem_filter, Bool.and_eq_true,
    Bool.or_eq_true, decide_eq_true_eq, isDescendantOf_iff htable, and_imp]
  refine forall₃_congr fun task htask hphase => ?_
  have hnone : task.terminal.isNone = true := by
    rw [Option.isNone_iff_eq_none]
    by_contra hsome
    have hsettled := (htable.placed task htask).lifecycle.settled.mpr hsome
    rw [hphase] at hsettled
    cases hsettled
  exact ⟨fun h => h.2, fun h => ⟨hnone, h⟩⟩

theorem overruled_of_advance (hlife : Lifecycle state.binding task)
    (hadvance : Advance state task after) (hoverruled : Overruled task) :
    Overruled after := by
  rcases hoverruled with hcancelling | hunsuccessful
  · rcases hadvance.of_cancelling hcancelling with h | ⟨_, terminal, hterminal,
      hkind⟩
    · exact .inl h
    · refine .inr ?_
      unfold unsuccessful
      rw [hterminal, Option.any_some, hkind]
      rfl
  · have hended : task.phase = .terminal := by
      refine hlife.settled.mpr fun hnone => ?_
      unfold unsuccessful at hunsuccessful
      rw [hnone] at hunsuccessful
      cases hunsuccessful
    rw [hadvance.eq_of_terminal hended]
    exact .inr hunsuccessful

theorem not_active_of_overruled (hlife : Lifecycle state.binding task)
    (hoverruled : Overruled task) : task.phase ≠ .active := by
  intro hactive
  rcases hoverruled with hcancelling | hunsuccessful
  · rw [hactive] at hcancelling
    cases hcancelling
  · unfold unsuccessful at hunsuccessful
    cases hterminal : task.terminal with
    | none => rw [hterminal] at hunsuccessful; cases hunsuccessful
    | some terminal =>
        have hended := hlife.settled.mpr (by rw [hterminal]; simp)
        rw [hactive] at hended
        cases hended

/-! ### What each change does to them -/

theorem dominated_of_rows (htable : TaskTable state.binding state.tasks)
    (hrows : List.Forall₂ (Advance state) state.tasks rows)
    (hquiet : List.Forall₂ (fun task after =>
      after.phase = .cancelling → task.phase = .cancelling) state.tasks rows)
    (hdominated : Dominated state) :
    Dominated { state with tasks := rows } := by
  intro after hafter hcancelling descendant hdescendant hwithin hne
  obtain ⟨i, hi⟩ := List.mem_iff_getElem?.mp hafter
  obtain ⟨task, htask, hadvance⟩ := forall₂_get_right hrows hi
  obtain ⟨_, hsame, hbefore⟩ := forall₂_get_right hquiet hi
  obtain rfl := Option.some.inj (htask.symm.trans hsame)
  obtain ⟨before, hmem, hmove⟩ := forall₂_mem_right hrows hdescendant
  unfold Within at hwithin
  rw [parentOf_of_rows htable.sorted hrows, hadvance.id, hmove.id] at hwithin
  rw [hadvance.id, hmove.id] at hne
  exact overruled_of_advance (htable.placed before hmem).lifecycle hmove
    (hdominated task (List.mem_of_getElem? htask) (hbefore hcancelling) before
      hmem hwithin hne)

theorem dominated_of_offer {assignment : Delegation}
    {parent : CollaborationTask}
    (htable : TaskTable state.binding state.tasks)
    (hoffered : Offered state assignment parent)
    (hdominated : Dominated state) :
    Dominated (insertTask state (.offered assignment)) := by
  have htable' := taskTable_of_offer htable hoffered
  intro task htask hcancelling descendant hdescendant hwithin hne
  rcases mem_insertTask.mp htask with rfl | htask
  · cases hcancelling
  · rcases mem_insertTask.mp hdescendant with rfl | hdescendant
    · -- whatever is cancelling above the new task is above its active parent
      exfalso
      rw [within_iff_of_adopts (show TaskTable
          (insertTask state (.offered assignment)).binding
          (insertTask state (.offered assignment)).tasks from htable')
        (mem_insertTask.mpr (.inl rfl)) hoffered.adopts.named,
        within_of_offer htable hoffered hoffered.retained] at hwithin
      rcases hwithin with hsame | hwithin
      · exact hne hsame
      · by_cases hparent : parent.id = task.id
        · have hsame := htable.sorted.inj hoffered.retained htask hparent
          rw [← hsame, hoffered.active] at hcancelling
          cases hcancelling
        · exact not_active_of_overruled
            (htable.placed parent hoffered.retained).lifecycle
            (hdominated task htask hcancelling parent hoffered.retained hwithin
              hparent) hoffered.active
    · exact hdominated task htask hcancelling descendant hdescendant
        ((within_of_offer htable hoffered hdescendant).mp hwithin) hne

/-- No task that `target` would set to cancelling has a descendant that has
already succeeded. -/
def sparesSuccess (state : CollaborationState) (target : CollaborationTaskId) :
    Bool :=
  (state.tasks.filter fun task =>
    (decide (task.id = target) || state.isDescendantOf task.id target) &&
      (decide (task.phase = .active) || decide (task.phase = .cancelling))).all
    fun task =>
      (state.tasks.filter fun descendant =>
        state.isDescendantOf descendant.id task.id).all fun descendant =>
          !CollaborationState.succeeded descendant

theorem sparesSuccess_iff (htable : TaskTable state.binding state.tasks) :
    sparesSuccess state target = true ↔
      ∀ task ∈ state.tasks, Within state target task.id →
        task.phase = .active ∨ task.phase = .cancelling →
        ∀ descendant ∈ state.tasks, Within state task.id descendant.id →
          descendant.id ≠ task.id →
          CollaborationState.succeeded descendant = false := by
  unfold sparesSuccess
  simp only [List.all_eq_true, List.mem_filter, Bool.and_eq_true,
    Bool.or_eq_true, decide_eq_true_eq, Bool.not_eq_true', within_iff htable,
    and_imp]
  refine forall₄_congr fun task htask _ _ => forall₂_congr fun _ _ => ?_
  rw [isDescendantOf_iff htable, and_imp]

theorem unsuccessful_of_ended (hlife : Lifecycle state.binding task)
    (hended : task.phase = .terminal)
    (hfailed : CollaborationState.succeeded task = false) :
    unsuccessful task = true := by
  unfold unsuccessful
  unfold CollaborationState.succeeded at hfailed
  cases hterminal : task.terminal with
  | none => exact absurd hterminal (hlife.settled.mp hended)
  | some terminal =>
      rw [hterminal, Option.any_some, decide_eq_false_iff_not] at hfailed
      exact decide_eq_true hfailed

theorem succeeded_iff_of_overruled (hlife : Lifecycle state.binding task)
    (hoverruled : Overruled task) :
    CollaborationState.succeeded task = false := by
  unfold CollaborationState.succeeded
  cases hterminal : task.terminal with
  | none => rfl
  | some terminal =>
      rw [Option.any_some, decide_eq_false_iff_not]
      rcases hoverruled with hcancelling | hunsuccessful
      · have hended := hlife.settled.mpr (by rw [hterminal]; simp)
        rw [hcancelling] at hended
        cases hended
      · unfold unsuccessful at hunsuccessful
        rw [hterminal] at hunsuccessful
        exact of_decide_eq_true hunsuccessful

theorem overruled_cancelRow (reasonDigest : Sha256Digest)
    (task : CollaborationTask) :
    Overruled (cancelRow reasonDigest task) := by
  unfold cancelRow
  split
  · exact .inl rfl
  · exact .inr rfl

section Cancel

variable (reasonDigest : Sha256Digest)

/-- The state right after a cancellation. -/
def cancelledState (state : CollaborationState) (target : CollaborationTaskId) :
    CollaborationState :=
  { state with
    tasks := cancelRows reasonDigest (affected state target) state.tasks }

theorem within_cancelledState (htable : TaskTable state.binding state.tasks)
    (x y : CollaborationTaskId) :
    Within (cancelledState reasonDigest state target) x y ↔
      Within state x y := by
  unfold Within cancelledState
  rw [parentOf_of_rows htable.sorted (rows_of_cancel _ htable.sorted)]

theorem mem_cancelledState :
    after ∈ (cancelledState reasonDigest state target).tasks ↔
      ∃ task ∈ state.tasks, after =
        if task.id ∈ affected state target then cancelRow reasonDigest task
        else task := by
  unfold cancelledState cancelRows
  rw [List.mem_map]
  exact exists_congr fun task => and_congr_right fun _ => eq_comm

theorem mem_affected_iff (htable : TaskTable state.binding state.tasks)
    (htask : task ∈ state.tasks) :
    task.id ∈ affected state target ↔
      Within state target task.id ∧ task.phase ≠ .terminal := by
  rw [mem_affected htable.sorted htask, within_iff htable]

theorem dominated_cancelledState_iff
    (htable : TaskTable state.binding state.tasks)
    (hdominated : Dominated state) :
    Dominated (cancelledState reasonDigest state target) ↔
      sparesSuccess state target = true := by
  have hrows : ∀ task, (if task.id ∈ affected state target then
      cancelRow reasonDigest task else task).id = task.id := by
    intro task
    split
    · exact cancelRow_id _ _
    · rfl
  rw [sparesSuccess_iff htable]
  constructor
  · intro hafter task htask hwithin hactive descendant hdescendant hbelow hne
    have hopen : task.phase ≠ .terminal := by
      rcases hactive with h | h <;> rw [h] <;> decide
    have hreached := (mem_affected_iff htable htask).mpr ⟨hwithin, hopen⟩
    by_contra hsucceeded
    rw [Bool.not_eq_false] at hsucceeded
    have hlife := (htable.placed descendant hdescendant).lifecycle
    have hended : descendant.phase = .terminal := by
      refine hlife.settled.mpr fun hnone => ?_
      unfold CollaborationState.succeeded at hsucceeded
      rw [hnone] at hsucceeded
      cases hsucceeded
    have hspared : descendant.id ∉ affected state target := fun h =>
      ((mem_affected_iff htable hdescendant).mp h).2 hended
    have hoverruled := hafter (cancelRow reasonDigest task)
      ((mem_cancelledState reasonDigest).mpr
        ⟨task, htask, (if_pos hreached).symm⟩)
      (by unfold cancelRow; rw [if_pos hactive]; rfl) descendant
      ((mem_cancelledState reasonDigest).mpr
        ⟨descendant, hdescendant, (if_neg hspared).symm⟩)
      (by rw [within_cancelledState reasonDigest htable, cancelRow_id]
          exact hbelow)
      (by rw [cancelRow_id]; exact hne)
    rw [succeeded_iff_of_overruled hlife hoverruled] at hsucceeded
    cases hsucceeded
  · intro hspares after hafter hcancelling moved hmoved hwithin hne
    obtain ⟨task, htask, rfl⟩ := (mem_cancelledState reasonDigest).mp hafter
    obtain ⟨descendant, hdescendant, rfl⟩ :=
      (mem_cancelledState reasonDigest).mp hmoved
    rw [within_cancelledState reasonDigest htable, hrows, hrows] at hwithin
    rw [hrows, hrows] at hne
    split
    · exact overruled_cancelRow _ _
    · rename_i hspared
      have hlife := (htable.placed descendant hdescendant).lifecycle
      by_cases hreached : task.id ∈ affected state target
      · -- what a reached task has below it has ended, and not with success
        obtain ⟨hbelow, hopen⟩ := (mem_affected_iff htable htask).mp hreached
        have hactive : task.phase = .active ∨ task.phase = .cancelling := by
          rw [if_pos hreached] at hcancelling
          by_contra hother
          unfold cancelRow at hcancelling
          rw [if_neg hother] at hcancelling
          cases hcancelling
        have hended : descendant.phase = .terminal := by
          by_contra hother
          exact hspared ((mem_affected_iff htable hdescendant).mpr
            ⟨hwithin.trans hbelow, hother⟩)
        exact .inr (unsuccessful_of_ended hlife hended
          (hspares task htask hbelow hactive descendant hdescendant hwithin
            hne))
      · rw [if_neg hreached] at hcancelling
        exact hdominated task htask hcancelling descendant hdescendant hwithin
          hne

end Cancel

/-! ### Steps and runs -/

/-- A command that cancels nothing above an earlier success. -/
def respectsSuccess (state : CollaborationState)
    (kind : CollaborationCommandKind) : Bool :=
  (cancelled kind).all fun target => sparesSuccess state target

theorem dominated_of_change {kind : CollaborationCommandKind}
    (htable : TaskTable state.binding state.tasks)
    (hchange : Change sha256 state kind next) (hdominated : Dominated state) :
    Dominated next ↔ respectsSuccess state kind = true := by
  cases hchange with
  | offer hoffered =>
      exact iff_of_true (dominated_of_offer htable hoffered hdominated) rfl
  | row taskId edit hkind hquiet hrow =>
      unfold respectsSuccess
      rw [hkind]
      refine iff_of_true (dominated_of_rows htable (rows_of_updateRow hrow) ?_
        hdominated) rfl
      refine SortedTable.forall₂_updateRow (fun _ h => h) fun task _ _ h => ?_
      exact absurd h (hquiet task)
  | cancel =>
      exact dominated_cancelledState_iff _ htable hdominated
  | send => exact iff_of_true hdominated rfl
  | acknowledge => exact iff_of_true hdominated rfl
  | control phase hkind =>
      unfold respectsSuccess
      rw [hkind]
      exact iff_of_true hdominated rfl
  | finalize => exact iff_of_true hdominated rfl

theorem dominates_of_accepts {command : CollaborationCommand}
    (hsound : Sound sha256 state) (haccepts : Accepts sha256 state command next)
    (hdominates : cancellationDominates state = true) :
    cancellationDominates next = true ↔
      respectsSuccess state command.kind = true := by
  have hsound' := sound_of_accepts hsound haccepts
  rw [cancellationDominates_iff hsound.tasks] at hdominates
  rw [cancellationDominates_iff hsound'.tasks]
  obtain ⟨applied, hcommitted⟩ := committed_of_accepts haccepts
  rw [← dominated_of_change hsound.tasks
    (change_of_committed hsound.toKept hcommitted) hdominates]
  obtain ⟨sequence, _, rfl⟩ := hcommitted.committed
  exact Iff.rfl

theorem dominates_of_started (hstarted : Started sha256 state) :
    cancellationDominates state = true := by
  obtain ⟨command, transition, hstart, rfl⟩ := hstarted
  obtain ⟨binding, _, _, _, hstate⟩ := start_eq_ok hstart
  rw [hstate]
  rfl

/-- Cancellation dominates every subtree, but for cancellations above an
earlier success: one accepted command, and every run without such
cancellations. -/
theorem cancellation_dominance (sha256 : List UInt8 → Sha256Digest) :
    (∀ state, Reachable (Started sha256) (Accepts sha256) state →
      cancellationDominates state = true →
      ∀ command next, Accepts sha256 state command next →
        (cancellationDominates next = true ↔
          respectsSuccess state command.kind = true)) ∧
    ∀ genesis commands state, Started sha256 genesis →
      Run (fun state command next => Accepts sha256 state command next ∧
        respectsSuccess state command.kind = true) genesis commands state →
      cancellationDominates state = true := by
  constructor
  · intro state hreach hdominates command next haccepts
    exact dominates_of_accepts (sound_of_reachable hreach) haccepts hdominates
  · intro genesis commands state hstarted hrun
    refine (@Run.invariant _ _ _ (fun s => Sound sha256 s ∧
      cancellationDominates s = true) ?_ _ _ _ hrun
      ⟨sound_of_started hstarted, dominates_of_started hstarted⟩).2
    rintro s command t ⟨hsound, hdominates⟩ ⟨haccepts, hrespects⟩
    exact ⟨sound_of_accepts hsound haccepts,
      (dominates_of_accepts hsound haccepts hdominates).mpr hrespects⟩

/-! ### A child that succeeded before its parent is cancelled -/

def smallSuccess : TaskTerminal :=
  ⟨.succeeded, none, smallDigest, fun h => absurd rfl h, fun h => by
    rcases h with h | h <;> cases h⟩

def lateCancellation : List Request :=
  smallRequests ++
    [(.ofNat 55, .completeTask smallChild.taskId smallChild.owner smallSuccess),
     (.ofNat 56, .cancelTask smallRoot.taskId smallRoot.owner smallDigest)]

set_option maxRecDepth 8000 in
theorem succeeded_lateCancellation (sha256 : List UInt8 → Sha256Digest) :
    (attempts sha256 (smallStart sha256) lateCancellation).map
      cancellationDominates = some false := by
  cbv

/-- Whatever the hash, a success stands below a cancelling task. -/
theorem success_below_cancelling :
    ¬ ∃ sha256, ∀ state,
      Reachable (Started sha256) (Accepts sha256) state →
      cancellationDominates state = true := by
  rintro ⟨sha256, hclaim⟩
  obtain ⟨state, hstate, hfails⟩ :=
    Option.map_eq_some_iff.mp (succeeded_lateCancellation sha256)
  obtain ⟨commands, _, hrun⟩ := run_of_attempts hstate
  rw [hclaim state ⟨_, commands, started_smallStart sha256, hrun⟩] at hfails
  cases hfails

/-- The parent is cancelled while the child is active. -/
def smallCancellation : Request :=
  (.ofNat 55, .cancelTask smallRoot.taskId smallRoot.owner smallDigest)

set_option maxRecDepth 8000 in
theorem cancellation_dominance_of_active : ∃ state command next,
    Accepts (fun _ => zeroDigest) state command next ∧
      command.kind = smallCancellation.2 ∧
      state.tasks.map (·.phase) = [.active, .active] ∧
      cancellationDominates next = true := by
  obtain ⟨state, command, next, hreach, haccepts, hkind, hseen⟩ :=
    exists_accepted (started_smallStart _) (by cbv :
      ((attempts (fun _ => zeroDigest) (smallStart fun _ => zeroDigest)
        smallRequests).bind fun state => (attempts (fun _ => zeroDigest) state
          [smallCancellation]).map fun _ => (state.tasks.map (·.phase),
            cancellationDominates state,
            respectsSuccess state smallCancellation.2)) =
      some ([.active, .active], true, true))
  simp only [Prod.mk.injEq] at hseen
  obtain ⟨hphases, hdominates, hrespects⟩ := hseen
  rw [← hkind] at hrespects
  exact ⟨state, command, next, haccepts, hkind, hphases,
    ((cancellation_dominance fun _ => zeroDigest).1 state hreach hdominates command
      next haccepts).mpr hrespects⟩

end Peritus.Collaboration.Cancellation
