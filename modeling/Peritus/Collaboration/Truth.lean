import Peritus.Collaboration.Preservation

/-!
The published specifications hold in every reachable collaboration, and a
cancelled subtree is sealed: nothing open in it succeeds any more and nothing
is added to it.
-/

namespace Peritus.Collaboration.Truth

open Peritus.Types Forest Collections SortedTable TransitionSystem Limits
open Collaboration.Task State Canonical Reducer Verified Invariant Edits Preservation
open Scheduler.State (zeroDigest)

variable {sha256 : List UInt8 → Sha256Digest}
variable {state next : CollaborationState} {task after : CollaborationTask}
variable {rows : List CollaborationTask} {x y target : CollaborationTaskId}

/-! ### The specifications -/

/-- A climb from a task arrives at the root after as many steps as its
depth. -/
theorem reachesRoot_of_mem (hroot : RootBinding state.binding)
    (htable : TaskTable state.binding state.tasks) (htask : task ∈ state.tasks)
    {fuel steps expected : Nat} (hfuel : task.assignment.depth < fuel)
    (hsteps : steps + task.assignment.depth = expected)
    (hexpected : expected ≤ state.limits.depth) :
    reachesRoot state expected fuel steps (some task.id) = true := by
  induction fuel generalizing task steps with
  | zero => exact absurd hfuel (Nat.not_lt_zero _)
  | succ fuel ih =>
      unfold reachesRoot
      rw [task_of_mem htable htask]
      dsimp only
      cases hparent : task.assignment.parentTaskId with
      | none =>
          have hdepth := (task.assignment.rootShape hparent).1
          rw [if_pos ((htable.placed task htask).id_of_orphan hparent)]
          exact decide_eq_true (by omega)
      | some parentId =>
          obtain ⟨parent, hmem, rfl, hadopts⟩ :=
            (htable.placed task htask).parent parentId hparent
          have hdepth := hadopts.depth
          have hlimit := state.limits.le_production.2.1
          have hbelow : task.id ≠ state.binding.rootTaskId := by
            rw [Ne, htable.root_iff hroot htask, hparent]
            exact Option.some_ne_none _
          rw [if_neg hbelow, if_neg (by unfold u16Max; omega),
            if_neg (by omega)]
          exact ih hmem (by omega) (by omega)

theorem causalGraphIsValid_of_sound (hsound : Sound sha256 state) :
    causalGraphIsValid state = true := by
  have hroot := rootBinding_of_validate hsound.binding
  unfold causalGraphIsValid
  rw [List.all_eq_true]
  intro task htask
  split
  · rename_i hid
    have horphan := (hsound.tasks.root_iff hroot htask).mp hid
    simp only [Bool.and_eq_true, decide_eq_true_eq]
    exact ⟨horphan, (task.assignment.rootShape horphan).1⟩
  · have hdepth := (hsound.tasks.placed task htask).depth
    exact reachesRoot_of_mem hroot hsound.tasks htask
      (Nat.lt_succ_of_le hdepth) (Nat.zero_add _) hdepth

theorem joinIsTruthful_of_sound (hsound : Sound sha256 state) :
    joinIsTruthful state = true := by
  unfold joinIsTruthful
  rw [List.all_eq_true]
  intro task htask
  cases hterminal : task.terminal with
  | none => rfl
  | some terminal =>
      by_cases hkind : terminal.kind = .succeeded
      · have hsucceeded : CollaborationState.succeeded task = true := by
          unfold CollaborationState.succeeded
          rw [hterminal]
          exact decide_eq_true hkind
        simp only [Option.all_some, Bool.or_eq_true]
        exact .inr ((joinSatisfied_iff hsound.tasks htask).mpr
          (hsound.joins task htask hsucceeded))
      · simp only [Option.all_some, hkind, ne_eq, not_false_eq_true,
          decide_true, Bool.true_or]

theorem terminalIsTruthful_of_sound (hsound : Sound sha256 state) :
    terminalIsTruthful state = true := by
  unfold terminalIsTruthful
  cases hterminal : state.terminal with
  | none => rfl
  | some terminal =>
      have hphase : state.phase = .terminal := hsound.closed.mpr (by
        rw [hterminal]
        exact Option.some_ne_none _)
      by_cases hkind : terminal.kind = .completed
      · obtain ⟨hpending, hdone, root, hroot, hid, hsucceeded⟩ :=
          (hsound.terminal terminal hterminal).2 hkind
        rw [Option.all_some, if_neg (not_not_intro hkind), ← hid,
          task_of_mem hsound.tasks hroot]
        simp only [hphase, hpending, decide_true, Bool.not_false,
          Bool.true_and, Bool.and_eq_true, joinIsTruthful_of_sound hsound,
          and_true, Option.bind_some]
        refine ⟨List.all_eq_true.mpr fun task htask => ?_, hsucceeded⟩
        exact decide_eq_true (hdone task htask)
      · rw [Option.all_some, if_pos hkind]
        exact decide_eq_true hphase

/-! ### Descent under a step -/

theorem parentOf_eq_some_iff
    (hsorted : Sorted CollaborationTask.id state.tasks) :
    state.parentOf x = some y ↔
      ∃ task ∈ state.tasks, task.id = x ∧
        task.assignment.parentTaskId = some y := by
  unfold CollaborationState.parentOf CollaborationState.task
  rw [Option.bind_eq_some_iff]
  simp only [lookup_eq_some_iff hsorted, and_assoc]

theorem parentOf_of_rows
    (hsorted : Sorted CollaborationTask.id state.tasks)
    (hrows : List.Forall₂ (Advance state) state.tasks rows) :
    { state with tasks := rows }.parentOf = state.parentOf := by
  have hsorted' : Sorted CollaborationTask.id rows :=
    hsorted.of_forall₂ hrows fun _ _ h => h.id
  funext x
  refine Option.ext fun y => ?_
  rw [parentOf_eq_some_iff hsorted, parentOf_eq_some_iff hsorted']
  constructor
  · rintro ⟨after, hafter, hid, hparent⟩
    obtain ⟨task, htask, hadvance⟩ := forall₂_mem_right hrows hafter
    rw [hadvance.id] at hid
    rw [hadvance.assignment] at hparent
    exact ⟨task, htask, hid, hparent⟩
  · rintro ⟨task, htask, hid, hparent⟩
    obtain ⟨after, hafter, hadvance⟩ := forall₂_mem_left hrows htask
    exact ⟨after, hafter, hadvance.id.trans hid,
      (congrArg Delegation.parentTaskId hadvance.assignment).trans hparent⟩

/-- Inserting a task leaves the chains above the old ones alone. -/
theorem within_of_offer {assignment : Delegation} {parent : CollaborationTask}
    (htable : TaskTable state.binding state.tasks)
    (hoffered : Offered state assignment parent) (htask : task ∈ state.tasks) :
    Within (insertTask state (.offered assignment)) target task.id ↔
      Within state target task.id := by
  have htable' := taskTable_of_offer htable hoffered
  refine ancestor_congr (fun x => ∃ task ∈ state.tasks, task.id = x) ?_ ?_
    ⟨task, htask, rfl⟩
  · rintro _ y ⟨task, htask, rfl⟩ hparent
    rw [parentOf_of_mem htable htask] at hparent
    obtain ⟨above, hmem, hid, _⟩ := (htable.placed task htask).parent y hparent
    exact ⟨above, hmem, hid⟩
  · rintro _ ⟨task, htask, rfl⟩
    rw [parentOf_of_mem htable htask]
    exact parentOf_of_mem (show TaskTable
      (insertTask state (.offered assignment)).binding
      (insertTask state (.offered assignment)).tasks from htable')
      (mem_insertTask.mpr (.inr htask))

/-! ### Sealed subtrees -/

/-- What has become of a task since the cancellation above it. -/
structure Dead (before task : CollaborationTask) : Prop where
  assignment : task.assignment = before.assignment
  ended : before.phase = .terminal → task = before
  cancelled : before.phase ≠ .terminal → task.phase = .cancelling ∨
    task.phase = .terminal ∧ ∃ terminal, task.terminal = some terminal ∧
      terminal.kind = .cancelled

theorem dead_of_advance {before : CollaborationTask} (hdead : Dead before task)
    (hadvance : Advance state task after) : Dead before after where
  assignment := hadvance.assignment.trans hdead.assignment
  ended := by
    intro hterminal
    have hsame := hdead.ended hterminal
    rw [← hsame]
    exact hadvance.eq_of_terminal (by rw [hsame]; exact hterminal)
  cancelled := by
    intro hopen
    rcases hdead.cancelled hopen with hcancelling | ⟨hterminal, hkind⟩
    · exact hadvance.of_cancelling hcancelling
    · rw [hadvance.eq_of_terminal hterminal]
      exact .inr ⟨hterminal, hkind⟩

/-- Whatever stands below `target` stood there in `origin` and is dead. -/
structure Sealed (origin : CollaborationState) (target : CollaborationTaskId)
    (state : CollaborationState) : Prop where
  present : ∃ task ∈ state.tasks, task.id = target
  kept : ∀ before ∈ origin.tasks, Within origin target before.id →
    ∃ task ∈ state.tasks, task.id = before.id ∧ Within state target task.id
  dead : ∀ task ∈ state.tasks, Within state target task.id →
    ∃ before ∈ origin.tasks, before.id = task.id ∧ Dead before task

theorem inactive_of_dead {before : CollaborationTask}
    (hdead : Dead before task) : task.phase ≠ .active := by
  intro hactive
  by_cases hterminal : before.phase = .terminal
  · have hsame := hdead.ended hterminal
    rw [hsame, hterminal] at hactive
    cases hactive
  · rcases hdead.cancelled hterminal with h | ⟨h, _⟩ <;>
      rw [hactive] at h <;> cases h

section Steps

variable {origin : CollaborationState}

theorem sealed_of_rows (hsorted : Sorted CollaborationTask.id state.tasks)
    (hrows : List.Forall₂ (Advance state) state.tasks rows)
    (hsealed : Sealed origin target state) :
    Sealed origin target { state with tasks := rows } := by
  have hsame : ∀ x, Within { state with tasks := rows } target x ↔
      Within state target x := fun x => by
    unfold Within
    rw [parentOf_of_rows hsorted hrows]
  refine ⟨?_, fun before hbefore hwithin => ?_, fun after hafter hwithin => ?_⟩
  · obtain ⟨task, htask, hid⟩ := hsealed.present
    obtain ⟨after, hafter, hadvance⟩ := forall₂_mem_left hrows htask
    exact ⟨after, hafter, hadvance.id.trans hid⟩
  · obtain ⟨task, htask, hid, hbelow⟩ := hsealed.kept before hbefore hwithin
    obtain ⟨after, hafter, hadvance⟩ := forall₂_mem_left hrows htask
    refine ⟨after, hafter, hadvance.id.trans hid, (hsame _).mpr ?_⟩
    rw [hadvance.id]
    exact hbelow
  · obtain ⟨task, htask, hadvance⟩ := forall₂_mem_right hrows hafter
    rw [hsame, hadvance.id] at hwithin
    obtain ⟨before, hbefore, hid, hdead⟩ := hsealed.dead task htask hwithin
    exact ⟨before, hbefore, hid.trans hadvance.id.symm,
      dead_of_advance hdead hadvance⟩

theorem sealed_of_offer {assignment : Delegation} {parent : CollaborationTask}
    (htable : TaskTable state.binding state.tasks)
    (hoffered : Offered state assignment parent)
    (hsealed : Sealed origin target state) :
    Sealed origin target (insertTask state (.offered assignment)) := by
  have htable' := taskTable_of_offer htable hoffered
  have hsame : ∀ task ∈ state.tasks,
      (Within (insertTask state (.offered assignment)) target task.id ↔
        Within state target task.id) :=
    fun _ => within_of_offer htable hoffered
  refine ⟨?_, fun before hbefore hwithin => ?_, fun after hafter hwithin => ?_⟩
  · obtain ⟨task, htask, hid⟩ := hsealed.present
    exact ⟨task, mem_insertTask.mpr (.inr htask), hid⟩
  · obtain ⟨task, htask, hid, hbelow⟩ := hsealed.kept before hbefore hwithin
    exact ⟨task, mem_insertTask.mpr (.inr htask), hid,
      (hsame task htask).mpr hbelow⟩
  · rcases mem_insertTask.mp hafter with rfl | hafter
    · -- the parent of a new task is active, so it stands outside
      exfalso
      rw [within_iff_of_adopts (show TaskTable
          (insertTask state (.offered assignment)).binding
          (insertTask state (.offered assignment)).tasks from htable')
        (mem_insertTask.mpr (.inl rfl)) hoffered.adopts.named] at hwithin
      rcases hwithin with hnew | habove
      · obtain ⟨task, htask, hid⟩ := hsealed.present
        exact hoffered.fresh task htask (hid.trans hnew.symm)
      · rw [hsame parent hoffered.retained] at habove
        obtain ⟨before, _, _, hdead⟩ :=
          hsealed.dead parent hoffered.retained habove
        exact inactive_of_dead hdead hoffered.active
    · exact hsealed.dead after hafter ((hsame after hafter).mp hwithin)

theorem sealed_of_change {kind : CollaborationCommandKind}
    (htable : TaskTable state.binding state.tasks)
    (hchange : Change sha256 state kind next)
    (hsealed : Sealed origin target state) : Sealed origin target next := by
  cases hchange with
  | offer hoffered => exact sealed_of_offer htable hoffered hsealed
  | row taskId edit _ _ hrow =>
      exact sealed_of_rows htable.sorted (rows_of_updateRow hrow) hsealed
  | cancel =>
      exact sealed_of_rows htable.sorted (rows_of_cancel _ htable.sorted)
        hsealed
  | send => exact ⟨hsealed.present, hsealed.kept, hsealed.dead⟩
  | acknowledge => exact ⟨hsealed.present, hsealed.kept, hsealed.dead⟩
  | control => exact ⟨hsealed.present, hsealed.kept, hsealed.dead⟩
  | finalize => exact ⟨hsealed.present, hsealed.kept, hsealed.dead⟩

theorem sealed_of_accepts {command : CollaborationCommand}
    (hsound : Sound sha256 state) (haccepts : Accepts sha256 state command next)
    (hsealed : Sealed origin target state) : Sealed origin target next := by
  obtain ⟨applied, hcommitted⟩ := committed_of_accepts haccepts
  have happlied := sealed_of_change hsound.tasks
    (change_of_committed hsound.toKept hcommitted) hsealed
  obtain ⟨sequence, _, rfl⟩ := hcommitted.committed
  exact ⟨happlied.present, happlied.kept, happlied.dead⟩

end Steps

theorem dead_cancelRow {reasonDigest : Sha256Digest}
    (hopen : task.phase ≠ .terminal) :
    Dead task (cancelRow reasonDigest task) where
  assignment := by
    unfold cancelRow
    split <;> rfl
  ended := fun h => absurd h hopen
  cancelled := by
    intro _
    unfold cancelRow
    split
    · exact .inl rfl
    · exact .inr ⟨rfl, _, rfl, rfl⟩

theorem sealed_of_cancelRows (htable : TaskTable state.binding state.tasks)
    (reasonDigest : Sha256Digest) (htask : task ∈ state.tasks)
    (hid : task.id = target) :
    Sealed state target { state with
      tasks := cancelRows reasonDigest (affected state target)
        state.tasks } := by
  have hrows : List.Forall₂ (Advance state) state.tasks
      (cancelRows reasonDigest (affected state target) state.tasks) :=
    rows_of_cancel reasonDigest htable.sorted
  have hsame : ∀ x, Within { state with
      tasks := cancelRows reasonDigest (affected state target)
        state.tasks } target x ↔ Within state target x := fun x => by
    unfold Within
    rw [parentOf_of_rows htable.sorted hrows]
  refine ⟨?_, fun before hbefore hwithin => ?_, fun after hafter hwithin => ?_⟩
  · obtain ⟨after, hafter, hadvance⟩ := forall₂_mem_left hrows htask
    exact ⟨after, hafter, hadvance.id.trans hid⟩
  · obtain ⟨after, hafter, hadvance⟩ := forall₂_mem_left hrows hbefore
    refine ⟨after, hafter, hadvance.id, (hsame _).mpr ?_⟩
    rw [hadvance.id]
    exact hwithin
  · rw [hsame] at hwithin
    obtain ⟨before, hbefore, rfl⟩ := List.mem_map.mp hafter
    by_cases hreached : before.id ∈ affected state target
    · rw [if_pos hreached]
      exact ⟨before, hbefore, (cancelRow_id _ _).symm,
        dead_cancelRow ((mem_affected htable.sorted hbefore).mp hreached).2⟩
    · rw [if_neg hreached] at hwithin ⊢
      refine ⟨before, hbefore, rfl, rfl, fun _ => rfl, fun hopen => ?_⟩
      exact absurd ((mem_affected htable.sorted hbefore).mpr
        ⟨(within_iff htable).mpr hwithin, hopen⟩) hreached

/-- The cancellation itself seals the subtree. -/
theorem sealed_of_cancel {command : CollaborationCommand}
    (hsound : Sound sha256 state) (haccepts : Accepts sha256 state command next)
    (hcancelled : cancelled command.kind = some target) :
    Sealed state target next := by
  obtain ⟨applied, hcommitted⟩ := committed_of_accepts haccepts
  have hchange := change_of_committed hsound.toKept hcommitted
  have happlied : Sealed state target applied := by
    generalize command.kind = kind at hchange hcancelled
    cases hchange with
    | offer => cases hcancelled
    | row _ _ hkind => rw [hkind] at hcancelled; cases hcancelled
    | send => cases hcancelled
    | acknowledge => cases hcancelled
    | control _ hkind => rw [hkind] at hcancelled; cases hcancelled
    | finalize => cases hcancelled
    | cancel hfound hid =>
        cases hcancelled
        exact sealed_of_cancelRows hsound.tasks _ hfound hid
  obtain ⟨sequence, _, rfl⟩ := hcommitted.committed
  exact ⟨happlied.present, happlied.kept, happlied.dead⟩

theorem sealed_of_run {commands : List CollaborationCommand}
    {origin later : CollaborationState} (hsound : Sound sha256 state)
    (hrun : Run (Accepts sha256) state commands later)
    (hsealed : Sealed origin target state) :
    Sound sha256 later ∧ Sealed origin target later :=
  @Run.invariant _ _ _ (fun s => Sound sha256 s ∧ Sealed origin target s)
    (fun _ _ _ h haccepts =>
      ⟨sound_of_accepts h.1 haccepts, sealed_of_accepts h.1 haccepts h.2⟩)
    _ _ _ hrun ⟨hsound, hsealed⟩

theorem not_succeeded_of_dead {binding : CollaborationBinding}
    {before : CollaborationTask} (hlife : Lifecycle binding task)
    (hdead : Dead before task) (hopen : before.phase ≠ .terminal) :
    CollaborationState.succeeded task = false := by
  unfold CollaborationState.succeeded
  rcases hdead.cancelled hopen with hcancelling | ⟨_, terminal, hterminal, hkind⟩
  · have hnone : task.terminal = none := by
      by_contra hsome
      have hphase := hlife.settled.mpr hsome
      rw [hcancelling] at hphase
      cases hphase
    rw [hnone]
    rfl
  · rw [hterminal, Option.any_some, hkind]
    rfl

/-- The specifications hold in every reachable collaboration.  After an
accepted cancellation of `target`, no task below it that was still open ever
succeeds, and every task found below it was there before. -/
theorem collaboration_truth (sha256 : List UInt8 → Sha256Digest)
    (state : CollaborationState)
    (hreach : Reachable (Started sha256) (Accepts sha256) state) :
    (causalGraphIsValid state = true ∧ joinIsTruthful state = true ∧
      terminalIsTruthful state = true) ∧
    ∀ command next target requestedBy reasonDigest,
      command.kind = .cancelTask target requestedBy reasonDigest →
      Accepts sha256 state command next →
      ∀ commands later, Run (Accepts sha256) next commands later →
        (∀ task ∈ state.tasks,
          (task.id = target ∨ state.isDescendantOf task.id target = true) →
          task.phase ≠ .terminal →
          ∀ after ∈ later.tasks, after.id = task.id →
            CollaborationState.succeeded after = false) ∧
        ∀ after ∈ later.tasks, later.isDescendantOf after.id target = true →
          ∃ task ∈ state.tasks, task.id = after.id := by
  have hsound := sound_of_reachable hreach
  refine ⟨⟨causalGraphIsValid_of_sound hsound, joinIsTruthful_of_sound hsound,
    terminalIsTruthful_of_sound hsound⟩, ?_⟩
  intro command next target requestedBy reasonDigest hkind haccepts commands
    later hrun
  obtain ⟨hlater, hsealed⟩ := sealed_of_run (sound_of_accepts hsound haccepts)
    hrun (sealed_of_cancel hsound haccepts (by rw [hkind]; rfl))
  constructor
  · intro task htask hbelow hopen after hafter hid
    obtain ⟨found, hfound, hname, hwithin⟩ := hsealed.kept task htask
      ((within_iff hsound.tasks).mp hbelow)
    obtain rfl := hlater.tasks.sorted.inj hfound hafter (hname.trans hid.symm)
    obtain ⟨before, hbefore, hsame, hdead⟩ := hsealed.dead found hfound hwithin
    obtain rfl := hsound.tasks.sorted.inj hbefore htask (hsame.trans hid)
    exact not_succeeded_of_dead
      (hlater.tasks.placed found hfound).lifecycle hdead hopen
  · intro after hafter hbelow
    obtain ⟨before, hbefore, hid, _⟩ := hsealed.dead after hafter
      ((isDescendantOf_iff hlater.tasks).mp hbelow).1
    exact ⟨before, hbefore, hid⟩

/-! ### A small collaboration -/

def smallRevision : RevisionTuple where
  acceptanceSpecId := .ofNat 2
  harnessId := .ofNat 3
  workspaceId := .ofNat 4
  workspaceGeneration := PositiveNumber.first
  workspaceRevision := PositiveNumber.first
  policyId := .ofNat 5
  providerProfileId := .ofNat 6

def smallDigest : Sha256Digest := .ofNat 1

def smallRoot : Delegation where
  taskId := .ofNat 10
  rootTaskId := .ofNat 10
  parentTaskId := none
  depth := 0
  owner := .ofNat 20
  role := .writer
  parentOwner := .ofNat 20
  workId := .ofNat 30
  goalDigest := smallDigest
  required := true
  joinPolicy := .allRequired
  depthBound := by decide
  goal := by decide
  rootShape := fun _ => ⟨rfl, rfl, rfl⟩
  childShape := fun _ h => by cases h
  rootRequired := fun _ => rfl

def smallChild : Delegation where
  taskId := .ofNat 11
  rootTaskId := .ofNat 10
  parentTaskId := some (.ofNat 10)
  depth := 1
  owner := .ofNat 21
  role := .reviewer
  parentOwner := .ofNat 20
  workId := .ofNat 31
  goalDigest := smallDigest
  required := true
  joinPolicy := .noChildren
  depthBound := by decide
  goal := by decide
  rootShape := fun h => by cases h
  childShape := by
    intro parent hparent
    cases hparent
    decide
  rootRequired := fun h => by cases h

/-- The reservation under which a small task runs. -/
def smallReservation (assignment : Delegation) : ReservationObservation where
  workId := assignment.workId
  dispatchId := .ofNat 40
  owner := assignment.owner
  revision := smallRevision

section Small

variable (sha256 : List UInt8 → Sha256Digest)

def smallBinding : CollaborationBinding :=
  let binding : CollaborationBinding :=
    { id := .ofNat 7
      runId := .ofNat 8
      revision := smallRevision
      schedulerId := .ofNat 9
      rootTaskId := smallRoot.taskId
      limits := CollaborationLimits.production
      rootAssignment := smallRoot
      digest := smallDigest }
  { binding with digest := bindingDigest sha256 binding }

def smallStart : CollaborationState :=
  let state := CollaborationState.genesis (smallBinding sha256)
    PositiveNumber.first (.ofNat 50) (.ofNat 50)
  { state with stateDigest := stateDigest sha256 state }

def smallGenesis : CollaborationCommand where
  commandId := .ofNat 50
  eventId := .ofNat 50
  runId := (smallBinding sha256).runId
  expectedSequence := 0
  expectedPreviousEvent := none
  priorStateDigest := zeroDigest
  revision := smallRevision
  kind := .start (smallBinding sha256)
  sequenceBound := Nat.zero_le _
  predecessor := genesis_predecessor

theorem validateBinding_small :
    validateBinding sha256 (smallBinding sha256) = .ok () := by
  have hdigest : bindingDigest sha256 (smallBinding sha256) =
      (smallBinding sha256).digest := rfl
  unfold validateBinding
  rw [hdigest, decide_eq_true rfl]
  rfl

theorem genesis_fits :
    (CollaborationState.genesis (smallBinding sha256) PositiveNumber.first
      (smallGenesis sha256).eventId
      (smallGenesis sha256).commandId).estimatedEncodedBytes ≤
      CollaborationLimits.production.stateBytes := by
  cbv

theorem started_smallStart : Started sha256 (smallStart sha256) := by
  refine ⟨smallGenesis sha256, ?_⟩
  have hkind : (smallGenesis sha256).kind = .start (smallBinding sha256) := rfl
  have hbound : (CollaborationState.genesis (smallBinding sha256)
      PositiveNumber.first (smallGenesis sha256).eventId
      (smallGenesis sha256).commandId).estimatedEncodedBytes ≤
      (CollaborationState.genesis (smallBinding sha256)
      PositiveNumber.first (smallGenesis sha256).eventId
      (smallGenesis sha256).commandId).limits.stateBytes := genesis_fits sha256
  unfold start ensureStateBound
  rw [hkind]
  dsimp only
  rw [validateBinding_small, decide_eq_true hbound]
  exact ⟨_, rfl, rfl⟩

/-- A child delegated, accepted and activated below an active root. -/
def smallRequests : List Request :=
  [(.ofNat 51, .activateTask smallRoot.taskId (smallReservation smallRoot)),
   (.ofNat 52, .offerDelegation smallRoot.owner smallChild),
   (.ofNat 53, .acceptDelegation smallChild.taskId smallChild.owner),
   (.ofNat 54, .activateTask smallChild.taskId (smallReservation smallChild))]

set_option maxRecDepth 8000 in
theorem active_smallRequests :
    (attempts sha256 (smallStart sha256) smallRequests).map
      (fun state => state.tasks.map (·.phase)) =
        some [.active, .active] := by
  cbv

end Small

theorem collaboration_truth_of_active : ∃ state : CollaborationState,
    state.tasks.map (·.phase) = [.active, .active] ∧
    (causalGraphIsValid state = true ∧ joinIsTruthful state = true ∧
      terminalIsTruthful state = true) ∧
    ∀ command next target requestedBy reasonDigest,
      command.kind = .cancelTask target requestedBy reasonDigest →
      Accepts (fun _ => zeroDigest) state command next →
      ∀ commands later,
        Run (Accepts fun _ => zeroDigest) next commands later →
        (∀ task ∈ state.tasks,
          (task.id = target ∨ state.isDescendantOf task.id target = true) →
          task.phase ≠ .terminal →
          ∀ after ∈ later.tasks, after.id = task.id →
            CollaborationState.succeeded after = false) ∧
        ∀ after ∈ later.tasks, later.isDescendantOf after.id target = true →
          ∃ task ∈ state.tasks, task.id = after.id := by
  obtain ⟨state, hstate, hphases⟩ :=
    Option.map_eq_some_iff.mp (active_smallRequests fun _ => zeroDigest)
  obtain ⟨commands, _, hrun⟩ := run_of_attempts hstate
  exact ⟨state, hphases, collaboration_truth _ state
    ⟨_, commands, started_smallStart _, hrun⟩⟩

end Peritus.Collaboration.Truth
