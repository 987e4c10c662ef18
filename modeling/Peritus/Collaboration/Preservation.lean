import Peritus.TransitionSystem
import Peritus.Collaboration.Edits

/-!
Every change keeps the tables of a collaboration, so every state that a run
reaches from its start is sound.
-/

namespace Peritus.Collaboration.Preservation

open Peritus.Types Checked Collections SortedTable TransitionSystem Limits
open Collaboration.Task State Canonical Reducer Invariant Edits

variable {sha256 : List UInt8 → Sha256Digest}
variable {state next : CollaborationState} {event : CollaborationEventKind}
variable {rows : List CollaborationTask} {task after child : CollaborationTask}

/-! ### Tasks that move -/

section Rows

variable (hrows : List.Forall₂ (Advance state) state.tasks rows)

include hrows

theorem map_assignment_of_rows : rows.map CollaborationTask.assignment =
    state.tasks.map CollaborationTask.assignment :=
  map_eq_of_forall₂ hrows fun _ _ h => h.assignment

theorem countP_of_rows (p : Delegation → Bool) :
    rows.countP (fun task => p task.assignment) =
      state.tasks.countP fun task => p task.assignment := by
  have hcount := congrArg (List.countP p) (map_assignment_of_rows hrows)
  rwa [List.countP_map, List.countP_map] at hcount

theorem taskTable_of_rows (htable : TaskTable state.binding state.tasks) :
    TaskTable state.binding rows where
  sorted := htable.sorted.of_forall₂ hrows fun _ _ h => h.id
  root := by
    obtain ⟨root, hmem, hroot⟩ := htable.root
    obtain ⟨after, hafter, hadvance⟩ := forall₂_mem_left hrows hmem
    exact ⟨after, hafter, hadvance.assignment.trans hroot⟩
  placed := by
    intro after hafter
    obtain ⟨task, htask, hadvance⟩ := forall₂_mem_right hrows hafter
    have hplaced := htable.placed task htask
    refine
      { root := by rw [hadvance.assignment]; exact hplaced.root
        depth := by rw [hadvance.assignment]; exact hplaced.depth
        parent := fun parentId hparent => ?_
        lifecycle := hadvance.lifecycle hplaced.lifecycle }
    rw [hadvance.assignment] at hparent
    obtain ⟨parent, hmem, hid, hadopts⟩ := hplaced.parent parentId hparent
    obtain ⟨moved, hmoved, hparent⟩ := forall₂_mem_left hrows hmem
    refine ⟨moved, hmoved, hparent.id.trans hid, ?_⟩
    rw [hadvance.assignment]
    exact
      { named := hadopts.named.trans (congrArg some hparent.id.symm)
        depth := by rw [hparent.assignment]; exact hadopts.depth
        owner := by rw [hparent.assignment]; exact hadopts.owner }
  works := by
    have hworks := congrArg (List.map Delegation.workId)
      (map_assignment_of_rows hrows)
    rw [List.map_map, List.map_map] at hworks
    exact hworks ▸ htable.works
  bound := hrows.length_eq ▸ htable.bound
  fanOut := by
    intro parentId
    rw [← List.countP_eq_length_filter, countP_of_rows hrows fun assignment =>
      decide (assignment.parentTaskId = some parentId),
      List.countP_eq_length_filter]
    exact htable.fanOut parentId

theorem requiredChild_of_rows {taskId : CollaborationTaskId}
    (hchild : RequiredChild state.tasks taskId child) :
    ∃ after, RequiredChild rows taskId after ∧ Advance state child after := by
  obtain ⟨hmem, hparent, hrequired⟩ := hchild
  obtain ⟨after, hafter, hadvance⟩ := forall₂_mem_left hrows hmem
  refine ⟨after, ⟨hafter, ?_, ?_⟩, hadvance⟩ <;> rw [hadvance.assignment]
  · exact hparent
  · exact hrequired

theorem exists_requiredChild_of_rows {taskId : CollaborationTaskId}
    (hchild : RequiredChild rows taskId after) :
    ∃ child, RequiredChild state.tasks taskId child ∧
      Advance state child after := by
  obtain ⟨hmem, hparent, hrequired⟩ := hchild
  obtain ⟨task, htask, hadvance⟩ := forall₂_mem_right hrows hmem
  rw [hadvance.assignment] at hparent hrequired
  exact ⟨task, ⟨htask, hparent, hrequired⟩, hadvance⟩

/-- A join that holds goes on holding: what has succeeded stays so. -/
theorem joined_of_rows (htable : TaskTable state.binding state.tasks)
    (hadvance : Advance state task after)
    (hjoined : Invariant.Joined state.tasks task) :
    Invariant.Joined rows after := by
  unfold Invariant.Joined at hjoined ⊢
  rw [hadvance.assignment, hadvance.id]
  have hlife : ∀ child, RequiredChild state.tasks task.id child →
      Lifecycle state.binding child := fun child hchild =>
    (htable.placed child hchild.1).lifecycle
  cases hpolicy : task.assignment.joinPolicy with
  | noChildren =>
      rw [hpolicy] at hjoined
      intro moved hmoved
      obtain ⟨child, hchild, _⟩ := exists_requiredChild_of_rows hrows hmoved
      exact hjoined child hchild
  | allRequired =>
      rw [hpolicy] at hjoined
      intro moved hmoved
      obtain ⟨child, hchild, hmove⟩ := exists_requiredChild_of_rows hrows hmoved
      exact hmove.succeeded (hjoined child hchild) (hlife child hchild)
  | anyRequired =>
      rw [hpolicy] at hjoined
      obtain ⟨child, hchild, hsucceeded⟩ := hjoined
      obtain ⟨moved, hmoved, hmove⟩ := requiredChild_of_rows hrows hchild
      exact ⟨moved, hmoved, hmove.succeeded hsucceeded (hlife child hchild)⟩

omit hrows in
/-- A success is old, or its join was checked. -/
theorem joined_of_advance (htable : TaskTable state.binding state.tasks)
    (hjoins : ∀ task ∈ state.tasks, CollaborationState.succeeded task = true →
      Invariant.Joined state.tasks task)
    (htask : task ∈ state.tasks) (hadvance : Advance state task after)
    (hsucceeded : CollaborationState.succeeded after = true) :
    Invariant.Joined state.tasks task := by
  cases hadvance with
  | settle terminal _ _ _ hjoin =>
      have hkind : terminal.kind = .succeeded := of_decide_eq_true hsucceeded
      exact (joinSatisfied_iff htable htask).mp (hjoin hkind)
  | stay => exact hjoins task htask hsucceeded
  | accept => exact hjoins task htask hsucceeded
  | activate => exact hjoins task htask hsucceeded
  | cancelling => exact hjoins task htask hsucceeded

theorem kept_of_rows (hkept : Kept sha256 state)
    (hopen : state.phase ≠ .terminal) :
    Kept sha256 { state with tasks := rows } where
  binding := hkept.binding
  tasks := show TaskTable state.binding rows from
    taskTable_of_rows hrows hkept.tasks
  messages :=
    { sorted := hkept.messages.sorted
      bound := hkept.messages.bound
      posted := by
        intro message hmessage
        have hposted := hkept.messages.posted message hmessage
        obtain ⟨task, htask, hid⟩ := hposted.task
        obtain ⟨moved, hmoved, hadvance⟩ := forall₂_mem_left hrows htask
        exact ⟨hposted.root, hposted.revision, hposted.payload, moved, hmoved,
          hadvance.id.trans hid⟩
      chained := hkept.messages.chained }
  joins := by
    intro after hafter hsucceeded
    obtain ⟨task, htask, hadvance⟩ := forall₂_mem_right hrows hafter
    exact joined_of_rows hrows hkept.tasks hadvance
      (joined_of_advance hkept.tasks hkept.joins htask hadvance hsucceeded)
  closed := hkept.closed
  terminal := by
    intro terminal hterminal
    refine absurd (hkept.closed.mpr fun hnone => ?_) hopen
    rw [Option.mem_def, hnone] at hterminal
    cases hterminal

end Rows

theorem rows_of_updateRow {taskId : CollaborationTaskId}
    {edit : CollaborationTask → CollaborationTask}
    (hrow : ∀ task ∈ state.tasks, task.id = taskId →
      Advance state task (edit task)) :
    List.Forall₂ (Advance state) state.tasks
      (updateRow CollaborationTask.id taskId edit state.tasks) :=
  forall₂_updateRow (fun _ => .stay) hrow

theorem mem_affected {taskId : CollaborationTaskId}
    (hsorted : Sorted CollaborationTask.id state.tasks)
    (htask : task ∈ state.tasks) :
    task.id ∈ affected state taskId ↔
      (task.id = taskId ∨ state.isDescendantOf task.id taskId = true) ∧
        task.phase ≠ .terminal := by
  unfold affected
  simp only [List.mem_map, List.mem_filter, Bool.and_eq_true, Bool.or_eq_true,
    decide_eq_true_eq]
  constructor
  · rintro ⟨other, ⟨hother, h⟩, hid⟩
    rwa [hsorted.inj hother htask hid] at h
  · intro h
    exact ⟨task, ⟨htask, h⟩, rfl⟩

theorem rows_of_cancel {taskId : CollaborationTaskId}
    (reasonDigest : Sha256Digest)
    (hsorted : Sorted CollaborationTask.id state.tasks) :
    List.Forall₂ (Advance state) state.tasks
      (cancelRows reasonDigest (affected state taskId) state.tasks) := by
  unfold cancelRows
  rw [List.forall₂_map_right_iff, List.forall₂_same]
  intro task htask
  split
  · rename_i hmem
    exact advance_cancelRow state reasonDigest
      ((mem_affected hsorted htask).mp hmem).2
  · exact .stay

/-! ### A new task -/

section Offer

variable {assignment : Delegation} {parent : CollaborationTask}

theorem perm_insertTask (state : CollaborationState)
    (task : CollaborationTask) :
    (insertTask state task).tasks.Perm (task :: state.tasks) :=
  perm_insertAt

theorem mem_insertTask : after ∈ (insertTask state task).tasks ↔
    after = task ∨ after ∈ state.tasks :=
  mem_insertAt

/-- The new task has no children and lies below an active task only. -/
theorem requiredChild_of_offer (hkept : Kept sha256 state)
    (hoffered : Offered state assignment parent) (htask : task ∈ state.tasks)
    (hsucceeded : CollaborationState.succeeded task = true) :
    RequiredChild (insertTask state (.offered assignment)).tasks task.id child ↔
      RequiredChild state.tasks task.id child := by
  unfold RequiredChild
  rw [mem_insertTask]
  refine ⟨fun ⟨hmem, hparent, hrequired⟩ => ?_, fun h => ⟨.inr h.1, h.2⟩⟩
  rcases hmem with rfl | hmem
  · have hname := hoffered.adopts.named.symm.trans hparent
    rw [Option.some.injEq] at hname
    have hsame := hkept.tasks.sorted.inj hoffered.retained htask hname
    have hsettled := (hkept.tasks.placed task htask).lifecycle.settled
    rw [← hsame, hoffered.active] at hsettled
    unfold CollaborationState.succeeded at hsucceeded
    rw [← hsame] at hsucceeded
    cases hterminal : parent.terminal with
    | none => rw [hterminal] at hsucceeded; cases hsucceeded
    | some terminal =>
        have habsurd := hsettled.mpr (by rw [hterminal]; simp)
        cases habsurd
  · exact ⟨hmem, hparent, hrequired⟩

theorem taskTable_of_offer (htable : TaskTable state.binding state.tasks)
    (hoffered : Offered state assignment parent) :
    TaskTable state.binding (insertTask state (.offered assignment)).tasks where
  sorted := sorted_insertAt_slot _ htable.sorted hoffered.fresh
  root := by
    obtain ⟨root, hmem, hroot⟩ := htable.root
    exact ⟨root, mem_insertTask.mpr (.inr hmem), hroot⟩
  placed := by
    intro after hafter
    rcases mem_insertTask.mp hafter with rfl | hafter
    · refine
        { root := hoffered.root
          depth := hoffered.depth
          parent := fun parentId hparent => ?_
          lifecycle :=
            { held := fun h => by rcases h with h | h <;> cases h
              unheld := fun _ => rfl
              settled := ⟨fun h => (by cases h), fun h => absurd rfl h⟩
              reservation := fun _ h => by cases h
              handoff := fun _ h => by cases h } }
      have hname := hoffered.adopts.named.symm.trans hparent
      exact ⟨parent, mem_insertTask.mpr (.inr hoffered.retained),
        Option.some.inj hname, hoffered.adopts⟩
    · have hplaced := htable.placed after hafter
      refine ⟨hplaced.root, hplaced.depth, fun parentId hparent => ?_,
        hplaced.lifecycle⟩
      obtain ⟨found, hmem, hfound⟩ := hplaced.parent parentId hparent
      exact ⟨found, mem_insertTask.mpr (.inr hmem), hfound⟩
  works := by
    rw [((perm_insertTask state _).map _).nodup_iff, List.map_cons,
      List.nodup_cons, List.mem_map]
    refine ⟨?_, htable.works⟩
    rintro ⟨other, hother, hwork⟩
    exact hoffered.work other hother hwork
  bound := by
    rw [(perm_insertTask state _).length_eq]
    exact hoffered.room
  fanOut := by
    intro parentId
    rw [((perm_insertTask state _).filter _).length_eq, List.filter_cons]
    split
    · rename_i hnew
      have hname : parent.id = parentId := by
        have hnamed := hoffered.adopts.named.symm.trans (of_decide_eq_true hnew)
        exact Option.some.inj hnamed
      rw [← hname]
      exact hoffered.fanOut
    · exact htable.fanOut parentId

theorem kept_of_offer (hkept : Kept sha256 state)
    (hoffered : Offered state assignment parent) :
    Kept sha256 (insertTask state (.offered assignment)) where
  binding := hkept.binding
  tasks := taskTable_of_offer hkept.tasks hoffered
  messages :=
    { sorted := hkept.messages.sorted
      bound := hkept.messages.bound
      posted := by
        intro message hmessage
        have hposted := hkept.messages.posted message hmessage
        obtain ⟨task, htask, hid⟩ := hposted.task
        exact ⟨hposted.root, hposted.revision, hposted.payload, task,
          mem_insertTask.mpr (.inr htask), hid⟩
      chained := hkept.messages.chained }
  joins := by
    intro after hafter hsucceeded
    rcases mem_insertTask.mp hafter with rfl | hafter
    · cases hsucceeded
    · have hjoined := hkept.joins after hafter hsucceeded
      unfold Invariant.Joined at hjoined ⊢
      simp only [requiredChild_of_offer hkept hoffered hafter hsucceeded]
      exact hjoined
  closed := hkept.closed
  terminal := by
    intro terminal hterminal
    have hclosed := hkept.closed.mpr fun hnone => by
      rw [show (insertTask state (.offered assignment)).terminal =
        state.terminal from rfl, Option.mem_def, hnone] at hterminal
      cases hterminal
    rw [hoffered.phase] at hclosed
    cases hclosed

end Offer

/-! ### A new message -/

section Send

variable {message found : CollaborationMessage}
variable {messages about : List CollaborationMessage}

theorem sorted_messages (hkept : Kept sha256 state) :
    Sorted MessageDelivery.id state.messages :=
  (List.pairwise_map (f := MessageDelivery.message)).mp hkept.messages.sorted

theorem perm_sent (state : CollaborationState) (delivery : MessageDelivery) :
    ((insertMessage state delivery).messages.map MessageDelivery.message).Perm
      (delivery.message :: state.messages.map MessageDelivery.message) := by
  rw [← List.map_cons]
  exact perm_insertAt.map _

theorem chained_of_perm {about' : List CollaborationMessage}
    (hchained : Chained messages about) (hperm : about'.Perm about)
    {messages' : List CollaborationMessage}
    (hsub : ∀ message ∈ messages, message ∈ messages') :
    Chained messages' about' where
  within := by
    intro message hmessage
    rw [hperm.length_eq]
    exact hchained.within message (hperm.mem_iff.mp hmessage)
  last := by
    intro hne
    have hother : about ≠ [] := by
      rintro rfl
      exact hne hperm.eq_nil
    obtain ⟨message, hmessage, hordinal⟩ := hchained.last hother
    exact ⟨message, hperm.mem_iff.mpr hmessage,
      hordinal.trans hperm.length_eq.symm⟩
  predecessor := by
    intro message hmessage id hid
    obtain ⟨earlier, hearlier, h⟩ :=
      hchained.predecessor message (hperm.mem_iff.mp hmessage) id hid
    exact ⟨earlier, hsub earlier hearlier, h⟩

theorem chained_cons (hchained : Chained messages about)
    (hsub : ∀ earlier ∈ about, earlier ∈ messages)
    (hordinal : message.ordinal = about.length + 1)
    (hpredecessor : ∀ id ∈ message.predecessor, ∃ earlier ∈ about,
      earlier.id = id ∧ earlier.taskId = message.taskId ∧
        ∀ other ∈ about, other.ordinal ≤ earlier.ordinal) :
    Chained messages (message :: about) where
  within := by
    intro other hother
    rw [List.length_cons]
    rcases List.mem_cons.mp hother with rfl | hother
    · exact hordinal.le
    · exact (hchained.within other hother).trans (Nat.le_succ _)
  last := fun _ => ⟨message, List.mem_cons_self, hordinal⟩
  predecessor := by
    intro other hother id hid
    rcases List.mem_cons.mp hother with rfl | hother
    · obtain ⟨earlier, hearlier, hname, htask, hgreatest⟩ :=
        hpredecessor id hid
      refine ⟨earlier, hsub earlier hearlier, hname, htask, ?_⟩
      obtain ⟨last, hlast, hlength⟩ :=
        hchained.last (List.ne_nil_of_mem hearlier)
      have hwithin := hchained.within earlier hearlier
      have hle := hgreatest last hlast
      omega
    · exact hchained.predecessor other hother id hid

/-- The scan holds the greatest ordinal met so far. -/
theorem foldl_latest (deliveries : List MessageDelivery)
    (best : Option MessageDelivery) {delivery : MessageDelivery}
    (h : deliveries.foldl
      (fun best delivery => match best with
        | none => some delivery
        | some found =>
            if found.message.ordinal ≤ delivery.message.ordinal then
              some delivery
            else some found) best = some delivery) :
    (delivery ∈ deliveries ∨ best = some delivery) ∧
      (∀ other ∈ deliveries,
        other.message.ordinal ≤ delivery.message.ordinal) ∧
      ∀ other ∈ best, other.message.ordinal ≤ delivery.message.ordinal := by
  induction deliveries generalizing best with
  | nil =>
      rw [List.foldl_nil] at h
      refine ⟨.inr h, fun _ h => (by cases h), fun other hother => ?_⟩
      rw [Option.mem_def, h, Option.some.injEq] at hother
      rw [hother]
  | cons head rest ih =>
      rw [List.foldl_cons] at h
      obtain ⟨hmem, hrest, hbest⟩ := ih _ h
      cases best with
      | none =>
          have hhead := hbest head rfl
          refine ⟨.inl ?_, ?_, fun _ h => by cases h⟩
          · rcases hmem with hmem | hmem
            · exact List.mem_cons_of_mem _ hmem
            · rw [← Option.some.inj hmem]
              exact List.mem_cons_self
          · exact List.forall_mem_cons.mpr ⟨hhead, hrest⟩
      | some found =>
          by_cases hle : found.message.ordinal ≤ head.message.ordinal
          · simp only [if_pos hle] at hmem hbest
            have hhead := hbest head rfl
            refine ⟨.inl ?_, List.forall_mem_cons.mpr ⟨hhead, hrest⟩, ?_⟩
            · rcases hmem with hmem | hmem
              · exact List.mem_cons_of_mem _ hmem
              · rw [← Option.some.inj hmem]
                exact List.mem_cons_self
            · rintro other hother
              cases hother
              exact hle.trans hhead
          · simp only [if_neg hle] at hmem hbest
            have hfound := hbest found rfl
            refine ⟨?_, List.forall_mem_cons.mpr ⟨by omega, hrest⟩, hbest⟩
            rcases hmem with hmem | hmem
            · exact .inl (List.mem_cons_of_mem _ hmem)
            · exact .inr hmem

theorem latest_eq_some {deliveries : List MessageDelivery}
    {delivery : MessageDelivery} (h : latest deliveries = some delivery) :
    delivery ∈ deliveries ∧ ∀ other ∈ deliveries,
      other.message.ordinal ≤ delivery.message.ordinal := by
  obtain ⟨hmem, hgreatest, _⟩ := foldl_latest deliveries none h
  exact ⟨hmem.resolve_right fun h => (by cases h), hgreatest⟩

theorem taskMessages_map (state : CollaborationState)
    (taskId : CollaborationTaskId) :
    (taskMessages state taskId).map MessageDelivery.message =
      (state.messages.map MessageDelivery.message).filter fun message =>
        decide (message.taskId = taskId) := by
  unfold taskMessages
  rw [List.filter_map]
  rfl

theorem chained_of_sent (hmessages : MessageTable state.binding state.tasks
      (state.messages.map MessageDelivery.message))
    (hsent : Sent state message task) (taskId : CollaborationTaskId) :
    Chained (message :: state.messages.map MessageDelivery.message)
      ((message :: state.messages.map MessageDelivery.message).filter
        fun message => decide (message.taskId = taskId)) := by
  have hgrown := chained_of_perm (hmessages.chained taskId) (.refl _)
    fun _ h => List.mem_cons_of_mem message h
  rw [List.filter_cons]
  split
  · rename_i hsame
    obtain rfl : message.taskId = taskId := of_decide_eq_true hsame
    refine chained_cons hgrown (fun earlier hearlier =>
      List.mem_cons_of_mem _ (List.mem_filter.mp hearlier).1) ?_ ?_
    · rw [← taskMessages_map, List.length_map]
      exact hsent.ordinal
    · intro id hid
      rw [hsent.predecessor, Option.mem_def, Option.map_eq_some_iff] at hid
      obtain ⟨delivery, hlatest, hname⟩ := hid
      obtain ⟨hmem, hgreatest⟩ := latest_eq_some hlatest
      rw [← taskMessages_map]
      refine ⟨delivery.message, List.mem_map_of_mem hmem, hname,
        of_decide_eq_true (List.mem_filter.mp hmem).2, fun other hother => ?_⟩
      obtain ⟨found, hfound, rfl⟩ := List.mem_map.mp hother
      exact hgreatest found hfound
  · exact hgrown

theorem kept_of_send (hkept : Kept sha256 state)
    (hopen : state.phase ≠ .terminal) (hsent : Sent state message task) :
    Kept sha256 (insertMessage state (.pending message)) where
  binding := hkept.binding
  tasks := hkept.tasks
  messages :=
    { sorted := by
        exact List.pairwise_map.mpr
          (sorted_insertAt_slot _ (sorted_messages hkept) hsent.fresh)
      bound := by
        rw [(perm_sent state _).length_eq, List.length_cons, List.length_map]
        exact hsent.room
      posted := by
        intro found hfound
        rcases List.mem_cons.mp ((perm_sent state _).mem_iff.mp hfound) with
          rfl | hfound
        · exact ⟨hsent.root, hsent.revision, hsent.payload, task,
            hsent.retained, hsent.named⟩
        · exact hkept.messages.posted found hfound
      chained := fun taskId =>
        chained_of_perm (chained_of_sent hkept.messages hsent taskId)
          ((perm_sent state _).filter _)
          fun _ h => (perm_sent state _).mem_iff.mpr h }
  joins := hkept.joins
  closed := hkept.closed
  terminal := by
    intro terminal hterminal
    refine absurd (hkept.closed.mpr fun hnone => ?_) hopen
    rw [show (insertMessage state (.pending message)).terminal =
      state.terminal from rfl, Option.mem_def, hnone] at hterminal
    cases hterminal

end Send

/-! ### Acknowledgements, phases and the end -/

theorem map_message_acknowledged (messageId : CollaborationMessageId)
    (messages : List MessageDelivery) :
    (updateRow MessageDelivery.id messageId MessageDelivery.acknowledge
      messages).map MessageDelivery.message =
      messages.map MessageDelivery.message := by
  unfold updateRow
  rw [List.map_map]
  refine List.map_congr_left fun delivery _ => ?_
  rw [Function.comp_apply]
  split <;> rfl

/-- Nothing but an open collaboration lacks an outcome. -/
theorem terminal_eq_none (hkept : Kept sha256 state)
    (hopen : state.phase ≠ .terminal) : state.terminal = none := by
  by_contra hsome
  exact hopen (hkept.closed.mpr hsome)

theorem kept_of_acknowledge (hkept : Kept sha256 state)
    (hopen : state.phase ≠ .terminal) (messageId : CollaborationMessageId) :
    Kept sha256 { state with
      messages := updateRow MessageDelivery.id messageId
        MessageDelivery.acknowledge state.messages } where
  binding := hkept.binding
  tasks := hkept.tasks
  messages := by
    dsimp only
    rw [map_message_acknowledged]
    exact hkept.messages
  joins := hkept.joins
  closed := hkept.closed
  terminal := by
    intro terminal hterminal
    dsimp only at hterminal
    rw [terminal_eq_none hkept hopen] at hterminal
    cases hterminal

theorem kept_of_control (hkept : Kept sha256 state)
    (hopen : state.phase ≠ .terminal) {phase : CollaborationPhase}
    (hphase : phase ≠ .terminal) : Kept sha256 { state with phase } where
  binding := hkept.binding
  tasks := hkept.tasks
  messages := hkept.messages
  joins := hkept.joins
  closed := by
    dsimp only
    rw [terminal_eq_none hkept hopen]
    exact ⟨fun h => absurd h hphase, fun h => absurd rfl h⟩
  terminal := by
    intro terminal hterminal
    dsimp only at hterminal
    rw [terminal_eq_none hkept hopen] at hterminal
    cases hterminal

theorem succeeded_of_completed {root : CollaborationTask}
    {rootTerminal : TaskTerminal}
    (hkind : terminalKind state root rootTerminal = .completed) :
    rootTerminal.kind = .succeeded := by
  unfold terminalKind at hkind
  cases hroot : rootTerminal.kind <;> rw [hroot] at hkind <;>
    first
      | rfl
      | cases hkind

theorem kept_of_finalize (hkept : Kept sha256 state) {root : CollaborationTask}
    {rootTerminal : TaskTerminal}
    (hpending : state.hasPendingDirectives = false)
    (hdone : ∀ task ∈ state.tasks, task.phase = .terminal)
    (hroot : root ∈ state.tasks) (hid : root.id = state.binding.rootTaskId)
    (hterminal : root.terminal = some rootTerminal) :
    Kept sha256 (setTerminal state
      (newTerminal sha256 (terminalKind state root rootTerminal)
        (blockingTasks state (terminalKind state root rootTerminal)))) where
  binding := hkept.binding
  tasks := hkept.tasks
  messages := hkept.messages
  joins := hkept.joins
  closed := ⟨fun _ => Option.some_ne_none _, fun _ => rfl⟩
  terminal := by
    intro terminal hfound
    cases hfound
    refine ⟨rfl, fun hkind => ⟨hpending, hdone, root, hroot, hid, ?_⟩⟩
    unfold CollaborationState.succeeded
    rw [hterminal]
    exact decide_eq_true (succeeded_of_completed hkind)

/-! ### Steps and runs -/

theorem kept_of_change {kind : CollaborationCommandKind}
    (hkept : Kept sha256 state) (hopen : state.phase ≠ .terminal)
    (hchange : Change sha256 state kind next) : Kept sha256 next := by
  cases hchange with
  | offer hoffered => exact kept_of_offer hkept hoffered
  | row taskId edit _ _ hrow =>
      exact kept_of_rows (rows_of_updateRow hrow) hkept hopen
  | cancel =>
      exact kept_of_rows (rows_of_cancel _ hkept.tasks.sorted) hkept hopen
  | send hsent => exact kept_of_send hkept hopen hsent
  | acknowledge => exact kept_of_acknowledge hkept hopen _
  | control phase _ hphase => exact kept_of_control hkept hopen hphase
  | finalize hpending hdone hroot hid hterminal =>
      exact kept_of_finalize hkept hpending hdone hroot hid hterminal

variable (sha256)

def Started (state : CollaborationState) : Prop :=
  ∃ command transition, start sha256 command = .ok transition ∧
    transition.state = state

def Accepts (state : CollaborationState) (command : CollaborationCommand)
    (next : CollaborationState) : Prop :=
  ∃ transition, decideCommand sha256 state command = .ok transition ∧
    transition.state = next

/-- What an accepted command commits around its change. -/
structure Committed (state : CollaborationState)
    (command : CollaborationCommand) (next applied : CollaborationState) :
    Prop where
  opened : state.phase ≠ .terminal
  fresh : command.commandId ∉ state.usedCommands
  size : estimatedCommandBytes command.kind ≤ state.limits.commandBytes
  handled : ∃ event, apply sha256 state command.kind = .ok (applied, event)
  bound : applied.estimatedEncodedBytes ≤ applied.limits.stateBytes
  committed : ∃ sequence : EventSequence,
    sequence.get = state.sequence.get + 1 ∧
      next =
        { advanceCursor applied sequence command.eventId command.commandId with
          stateDigest := stateDigest sha256 (advanceCursor applied sequence
            command.eventId command.commandId) }

variable {sha256} {command : CollaborationCommand}

theorem checkedNextSequence_eq_ok {sequence following : EventSequence}
    (h : checkedNextSequence sequence = .ok following) :
    following.get = sequence.get + 1 := by
  unfold checkedNextSequence at h
  split at h
  · rename_i found hfound
    cases h
    exact PositiveNumber.checkedNext_eq_ok_iff.mp hfound
  · cases h

theorem committed_of_accepts (haccepts : Accepts sha256 state command next) :
    ∃ applied, Committed sha256 state command next applied := by
  obtain ⟨transition, hdecide, rfl⟩ := haccepts
  unfold decideCommand validateFences ensureStateBound at hdecide
  simp only [bind_eq_ok_iff, ensure_eq_ok_iff, exists_unit_iff,
    Bool.and_eq_true, decide_eq_true_eq, Prod.exists, Except.ok.injEq] at hdecide
  obtain ⟨⟨hopen, ⟨⟨⟨⟨⟨⟨_, _⟩, _⟩, _⟩, _⟩, hfresh⟩, _⟩⟩, hcommand, sequence,
    hsequence, applied, event, happly, hbound, rfl⟩ := hdecide
  exact ⟨applied,
    { opened := hopen
      fresh := hfresh
      size := hcommand
      handled := ⟨event, happly⟩
      bound := hbound
      committed := ⟨sequence, checkedNextSequence_eq_ok hsequence, rfl⟩ }⟩

/-- A handler leaves the history to the commit. -/
theorem history_of_change {kind : CollaborationCommandKind}
    (hchange : Change sha256 state kind next) :
    next.usedCommands = state.usedCommands ∧
      next.binding = state.binding := by
  cases hchange <;> exact ⟨rfl, rfl⟩

theorem kept_of_commit {applied : CollaborationState}
    (hkept : Kept sha256 applied) (sequence : EventSequence)
    (eventId : EventId) (commandId : CommandId) (digest : Sha256Digest) :
    Kept sha256 { advanceCursor applied sequence eventId commandId with
      stateDigest := digest } :=
  ⟨hkept.binding, hkept.tasks, hkept.messages, hkept.joins, hkept.closed,
    hkept.terminal⟩

theorem change_of_committed (hkept : Kept sha256 state)
    {applied : CollaborationState}
    (hcommitted : Committed sha256 state command next applied) :
    Change sha256 state command.kind applied := by
  obtain ⟨event, happly⟩ := hcommitted.handled
  exact change_of_apply hkept.tasks (sorted_messages hkept) happly

/-- The digest covers everything but itself. -/
theorem stateDigest_with (state : CollaborationState) (digest : Sha256Digest) :
    stateDigest sha256 { state with stateDigest := digest } =
      stateDigest sha256 state := rfl

theorem sound_of_accepts (hsound : Sound sha256 state)
    (haccepts : Accepts sha256 state command next) : Sound sha256 next := by
  obtain ⟨applied, hcommitted⟩ := committed_of_accepts haccepts
  have hchange := change_of_committed hsound.toKept hcommitted
  have hkept := kept_of_change hsound.toKept hcommitted.opened hchange
  obtain ⟨hhistory, _⟩ := history_of_change hchange
  obtain ⟨sequence, hsequence, rfl⟩ := hcommitted.committed
  exact
    { toKept := kept_of_commit hkept sequence _ _ _
      counted := by
        dsimp only [advanceCursor]
        rw [hsequence, hsound.counted, hhistory, List.length_append,
          List.length_singleton]
      fresh := by
        dsimp only [advanceCursor]
        rw [hhistory, List.nodup_append]
        refine ⟨hsound.fresh, List.nodup_singleton _, ?_⟩
        rintro used hused _ hcommand rfl
        rw [List.mem_singleton.mp hcommand] at hused
        exact hcommitted.fresh hused
      digest := stateDigest_with _ _ }

theorem kept_genesis {binding : CollaborationBinding}
    (hvalid : validateBinding sha256 binding = .ok ())
    (sequence : EventSequence) (eventId : EventId) (commandId : CommandId) :
    Kept sha256 (.genesis binding sequence eventId commandId) := by
  have hroot := rootBinding_of_validate hvalid
  have hlimits := binding.limits.checks
  simp only [limitChecks, List.forall_mem_cons] at hlimits
  exact
    { binding := hvalid
      tasks :=
        { sorted := List.pairwise_singleton _ _
          root := ⟨_, List.mem_singleton_self _, rfl⟩
          placed := by
            intro task htask
            rw [List.mem_singleton.mp htask]
            exact
              { root := hroot.own
                depth := by
                  show binding.rootAssignment.depth ≤ _
                  rw [hroot.depth]
                  exact Nat.zero_le _
                parent := by
                  intro parentId hparent
                  have horphan := hroot.orphan.symm.trans hparent
                  cases horphan
                lifecycle :=
                  { held := fun h => by rcases h with h | h <;> cases h
                    unheld := fun _ => rfl
                    settled := ⟨fun h => (by cases h), fun h => absurd rfl h⟩
                    reservation := fun _ h => by cases h
                    handoff := fun _ h => by cases h } }
          works := List.nodup_singleton _
          bound := hlimits.1.1
          fanOut := fun parentId =>
            (List.length_filter_le _ _).trans hlimits.2.2.1.1 }
      messages :=
        { sorted := List.Pairwise.nil
          bound := Nat.zero_le _
          posted := fun _ h => by cases h
          chained := fun _ =>
            ⟨fun _ h => (by cases h), fun h => absurd rfl h,
              fun _ h => by cases h⟩ }
      joins := by
        intro task htask hsucceeded
        rw [List.mem_singleton.mp htask] at hsucceeded
        cases hsucceeded
      closed := ⟨fun h => (by cases h), fun h => absurd rfl h⟩
      terminal := fun _ h => by cases h }

theorem start_eq_ok {transition : CollaborationTransition}
    (h : start sha256 command = .ok transition) :
    ∃ binding, command.kind = .start binding ∧
      validateBinding sha256 binding = .ok () ∧
      (CollaborationState.genesis binding PositiveNumber.first command.eventId
        command.commandId).estimatedEncodedBytes ≤ binding.limits.stateBytes ∧
      transition.state =
        { CollaborationState.genesis binding PositiveNumber.first
            command.eventId command.commandId with
          stateDigest := stateDigest sha256
            (.genesis binding PositiveNumber.first command.eventId
              command.commandId) } := by
  unfold start at h
  split at h
  · rename_i binding hkind
    unfold ensureStateBound at h
    simp only [bind_eq_ok_iff, exists_unit_iff, ensure_eq_ok_iff,
      decide_eq_true_eq, Except.ok.injEq] at h
    obtain ⟨hvalid, _, hbound, rfl⟩ := h
    exact ⟨binding, hkind, hvalid, hbound, rfl⟩
  · cases h

theorem sound_of_started (hstarted : Started sha256 state) :
    Sound sha256 state := by
  obtain ⟨command, transition, hstart, rfl⟩ := hstarted
  obtain ⟨binding, _, hvalid, _, hstate⟩ := start_eq_ok hstart
  rw [hstate]
  have hkept := kept_genesis hvalid PositiveNumber.first command.eventId
    command.commandId
  exact
    { toKept := ⟨hkept.binding, hkept.tasks, hkept.messages, hkept.joins,
        hkept.closed, hkept.terminal⟩
      counted := rfl
      fresh := List.nodup_singleton _
      digest := stateDigest_with _ _ }

theorem sound_of_reachable
    (hreach : Reachable (Started sha256) (Accepts sha256) state) :
    Sound sha256 state :=
  hreach.invariant (fun _ => sound_of_started)
    fun _ _ _ hsound haccepts => sound_of_accepts hsound haccepts

/-! ### Building runs

A request carries the identity of its command and event; its fences are read
off the state, so the digests need not be compared. -/

abbrev Request := OpaqueIdentifier × CollaborationCommandKind

def fenced (state : CollaborationState) (id : OpaqueIdentifier)
    (kind : CollaborationCommandKind) : CollaborationCommand where
  commandId := id
  eventId := id
  runId := state.binding.runId
  expectedSequence := state.sequence.get
  expectedPreviousEvent := some state.lastEventId
  priorStateDigest := state.stateDigest
  revision := state.binding.revision
  kind := kind
  sequenceBound := state.sequence.bound
  predecessor := by
    have hpositive := state.sequence.positive
    exact ⟨fun h => absurd h (by omega), fun h => by cases h⟩

variable (sha256)

def commit (applied : CollaborationState) (sequence : EventSequence)
    (id : OpaqueIdentifier) : CollaborationState :=
  { advanceCursor applied sequence id id with
    stateDigest := stateDigest sha256 (advanceCursor applied sequence id id) }

def attempts (state : CollaborationState) :
    List Request → Option CollaborationState
  | [] => some state
  | (id, kind) :: rest =>
      if state.phase ≠ .terminal ∧ id ∉ state.usedCommands ∧
          kind.isStart = false ∧
          estimatedCommandBytes kind ≤ state.limits.commandBytes then
        match state.sequence.checkedNext, apply sha256 state kind with
        | .ok sequence, .ok (applied, _) =>
            if applied.estimatedEncodedBytes ≤ applied.limits.stateBytes then
              attempts (commit sha256 applied sequence id) rest
            else none
        | _, _ => none
      else none

variable {sha256}

theorem validateFences_fenced {id : OpaqueIdentifier}
    {kind : CollaborationCommandKind} (hopen : state.phase ≠ .terminal)
    (hfresh : id ∉ state.usedCommands) (hkind : kind.isStart = false) :
    validateFences state (fenced state id kind) = .ok () := by
  unfold validateFences
  simp only [fenced, hopen, hfresh, hkind, ne_eq, not_false_eq_true,
    decide_true, Bool.not_false, Bool.and_true, ensure_true, bind, Except.bind]

theorem accepts_fenced {id : OpaqueIdentifier} {kind : CollaborationCommandKind}
    {applied : CollaborationState} {sequence : EventSequence}
    (hopen : state.phase ≠ .terminal) (hfresh : id ∉ state.usedCommands)
    (hkind : kind.isStart = false)
    (hsize : estimatedCommandBytes kind ≤ state.limits.commandBytes)
    (hsequence : state.sequence.checkedNext = .ok sequence)
    (happlied : apply sha256 state kind = .ok (applied, event))
    (hbytes : applied.estimatedEncodedBytes ≤ applied.limits.stateBytes) :
    Accepts sha256 state (fenced state id kind)
      (commit sha256 applied sequence id) := by
  have hnext : checkedNextSequence state.sequence = .ok sequence := by
    unfold checkedNextSequence
    rw [hsequence]
  have hevent : (fenced state id kind).kind = kind := rfl
  unfold Accepts decideCommand ensureStateBound
  rw [validateFences_fenced hopen hfresh hkind, hnext, hevent, happlied]
  simp only [bind, Except.bind, decide_eq_true hbytes, decide_eq_true hsize,
    ensure_true]
  exact ⟨_, rfl, rfl⟩

theorem run_of_attempts {requests : List Request}
    (h : attempts sha256 state requests = some next) :
    ∃ commands : List CollaborationCommand,
      commands.map CollaborationCommand.kind = requests.map Prod.snd ∧
        Run (Accepts sha256) state commands next := by
  induction requests generalizing state with
  | nil =>
      cases h
      exact ⟨[], rfl, .nil next⟩
  | cons request rest ih =>
      obtain ⟨id, kind⟩ := request
      unfold attempts at h
      split at h
      · rename_i hfences
        obtain ⟨hopen, hfresh, hkind, hsize⟩ := hfences
        split at h
        · rename_i sequence applied event hsequence happlied
          split at h
          · rename_i hbytes
            obtain ⟨commands, hkinds, hrun⟩ := ih h
            refine ⟨fenced state id kind :: commands, ?_,
              .cons (accepts_fenced hopen hfresh hkind hsize hsequence happlied
                hbytes) hrun⟩
            rw [List.map_cons, List.map_cons, hkinds]
            rfl
          · cases h
        · cases h
      · cases h

/-- A request that is accepted after others, and what was seen before it. -/
theorem exists_accepted {α : Type} {genesis : CollaborationState}
    {requests : List Request} {request : Request} {seen : CollaborationState → α}
    {value : α} (hstarted : Started sha256 genesis)
    (h : ((attempts sha256 genesis requests).bind fun state =>
      (attempts sha256 state [request]).map fun _ => seen state) = some value) :
    ∃ state command next, Reachable (Started sha256) (Accepts sha256) state ∧
      Accepts sha256 state command next ∧ command.kind = request.2 ∧
      seen state = value := by
  obtain ⟨state, hstate, h⟩ := Option.bind_eq_some_iff.mp h
  obtain ⟨next, hnext, hseen⟩ := Option.map_eq_some_iff.mp h
  obtain ⟨commands, -, hrun⟩ := run_of_attempts hstate
  obtain ⟨accepted, hkinds, hrest⟩ := run_of_attempts hnext
  cases hrest with
  | nil => cases hkinds
  | cons haccepts hrest => exact ⟨state, _, _, ⟨genesis, commands, hstarted, hrun⟩,
      haccepts, (List.cons.inj hkinds).1, hseen⟩

end Peritus.Collaboration.Preservation
