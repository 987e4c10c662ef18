import Peritus.Collaboration.Durability

/-!
The log of messages about each task.  The messages about all tasks stand in one
table in the order of their identities; those about one task carry the ordinals
from one on, each names the one before it, they go between the owner of the task
and its parent's owner, and together with the outcome of the task they refer to
no more artifacts than the limits allow.
-/

namespace Peritus.Collaboration.MessageLog

open Peritus.Types Checked Collections TransitionSystem SortedTable Limits
open Collaboration.Task State Canonical Reducer Invariant Edits Preservation Truth
open Scheduler.State (zeroDigest)
open Durability (smallArtifact)

/-! ### The messages about one task -/

/-- The messages about a task, without their acknowledgements. -/
def messagesAbout (state : CollaborationState) (taskId : CollaborationTaskId) :
    List CollaborationMessage :=
  (taskMessages state taskId).map MessageDelivery.message

/-- The artifact that the outcome of a task hands over. -/
def handoff (task : CollaborationTask) : Option ArtifactHandoff :=
  task.terminal.bind TaskTerminal.handoff

/-- Messages with an artifact, and the handoff of the outcome. -/
def references (about : List CollaborationMessage) (task : CollaborationTask) :
    Nat :=
  about.countP (fun message => message.artifact.isSome) +
    (handoff task).toList.length

/-- Between the owner of a task and the owner of the task above it. -/
def Between (assignment : Delegation) (message : CollaborationMessage) : Prop :=
  message.sender = assignment.owner ∧
      message.receiver = assignment.parentOwner ∨
    message.sender = assignment.parentOwner ∧
      message.receiver = assignment.owner

/-- `message` is the first of these or names the one right before it. -/
def Follows (about : List CollaborationMessage) (message : CollaborationMessage) :
    Prop :=
  message.ordinal = 1 ∧ message.predecessor = none ∨
    ∃ earlier ∈ about, message.predecessor = some earlier.id ∧
      earlier.ordinal + 1 = message.ordinal

/-- What the messages about one task keep. -/
structure Logged (limits : CollaborationLimits) (task : CollaborationTask)
    (about : List CollaborationMessage) : Prop where
  ordinals : (about.map CollaborationMessage.ordinal).Perm
    (List.range' 1 about.length)
  follows : ∀ message ∈ about, Follows about message
  between : ∀ message ∈ about, Between task.assignment message
  references : references about task ≤ limits.artifactReferences

def WellLogged (state : CollaborationState) : Prop :=
  ∀ task ∈ state.tasks,
    Logged state.limits task (messagesAbout state task.id)

/-- Messages stay, and acknowledged ones stay acknowledged. -/
def Retains (state later : CollaborationState) : Prop :=
  ∀ delivery ∈ state.messages, ∃ after ∈ later.messages,
    after.message = delivery.message ∧
      (delivery.acknowledged = true → after.acknowledged = true)

section Logs

variable {limits : CollaborationLimits} {task after : CollaborationTask}
variable {about others : List CollaborationMessage}
variable {message : CollaborationMessage}

theorem logged_nil (hhandoff : handoff task = none) : Logged limits task [] where
  ordinals := .refl _
  follows := by simp
  between := by simp
  references := by simp [references, hhandoff]

theorem logged_of_perm (hlogged : Logged limits task about)
    (hperm : others.Perm about) : Logged limits task others where
  ordinals := by
    rw [hperm.length_eq]
    exact (hperm.map _).trans hlogged.ordinals
  follows := by
    intro message hmessage
    rcases hlogged.follows message (hperm.mem_iff.mp hmessage) with
      hfirst | ⟨earlier, hearlier, h⟩
    · exact .inl hfirst
    · exact .inr ⟨earlier, hperm.mem_iff.mpr hearlier, h⟩
  between := fun message hmessage =>
    hlogged.between message (hperm.mem_iff.mp hmessage)
  references := by
    unfold MessageLog.references
    rw [hperm.countP_eq]
    exact hlogged.references

/-- A task that keeps its assignment, with room for its handoff. -/
theorem logged_of_task (hlogged : Logged limits task about)
    (hassignment : after.assignment = task.assignment)
    (hreferences : references about after ≤ limits.artifactReferences) :
    Logged limits after about where
  ordinals := hlogged.ordinals
  follows := hlogged.follows
  between := by
    rw [hassignment]
    exact hlogged.between
  references := hreferences

/-- The next message about a task without an outcome. -/
theorem logged_cons (hlogged : Logged limits task about)
    (hordinal : message.ordinal = about.length + 1)
    (hfollows : Follows about message)
    (hbetween : Between task.assignment message)
    (hreferences : references (message :: about) task ≤
      limits.artifactReferences) :
    Logged limits task (message :: about) where
  ordinals := by
    rw [List.map_cons, List.length_cons, List.range'_1_concat, hordinal,
      Nat.add_comm 1]
    refine (hlogged.ordinals.cons _).trans ?_
    exact (List.perm_append_singleton _ _).symm
  follows := by
    intro other hother
    have hgrown : ∀ other, Follows about other →
        Follows (message :: about) other := by
      rintro other (hfirst | ⟨earlier, hearlier, h⟩)
      · exact .inl hfirst
      · exact .inr ⟨earlier, List.mem_cons_of_mem _ hearlier, h⟩
    rcases List.mem_cons.mp hother with rfl | hother
    · exact hgrown _ hfollows
    · exact hgrown _ (hlogged.follows other hother)
  between := List.forall_mem_cons.mpr ⟨hbetween, hlogged.between⟩
  references := hreferences

/-- The greatest ordinal in a log is its length. -/
theorem ordinal_of_greatest (hlogged : Logged limits task about)
    (hmessage : message ∈ about)
    (hgreatest : ∀ other ∈ about, other.ordinal ≤ message.ordinal) :
    message.ordinal = about.length := by
  have hmem := hlogged.ordinals.mem_iff.mp (List.mem_map_of_mem hmessage)
  have hlast : about.length ∈ about.map CollaborationMessage.ordinal := by
    rw [hlogged.ordinals.mem_iff, List.mem_range'_1]
    have := List.length_pos_of_mem hmessage
    omega
  obtain ⟨other, hother, hlength⟩ := List.mem_map.mp hlast
  have hle := hgreatest other hother
  rw [List.mem_range'_1] at hmem
  omega

end Logs

section Steps

variable {sha256 : List UInt8 → Sha256Digest}
variable {state next : CollaborationState} {task after : CollaborationTask}
variable {event : CollaborationEventKind} {kind : CollaborationCommandKind}
variable {message : CollaborationMessage} {taskId : CollaborationTaskId}
variable {command : CollaborationCommand} {actor : ActorId}
variable {reasonDigest : Sha256Digest}

theorem messagesAbout_eq : messagesAbout state taskId =
    (state.messages.map MessageDelivery.message).filter fun message =>
      decide (message.taskId = taskId) :=
  taskMessages_map state taskId

/-- Acknowledgements are not read. -/
theorem messagesAbout_congr (h : next.messages.map MessageDelivery.message =
    state.messages.map MessageDelivery.message) :
    messagesAbout next taskId = messagesAbout state taskId := by
  rw [messagesAbout_eq, messagesAbout_eq, h]

theorem artifactReferences_eq :
    artifactReferences (taskMessages state taskId) =
      (messagesAbout state taskId).countP fun message =>
        message.artifact.isSome := by
  unfold artifactReferences messagesAbout
  rw [List.countP_map, List.countP_eq_length_filter]
  rfl

/-! ### Handoffs -/

/-- A handoff is an old one, or there was room for it. -/
def Hands (state : CollaborationState) (after : CollaborationTask) : Prop :=
  handoff after = none ∨
    (∃ task ∈ state.tasks, task.id = after.id ∧ handoff after = handoff task) ∨
    artifactReferences (taskMessages state after.id) <
      state.limits.artifactReferences

theorem hands_self (htask : task ∈ state.tasks) : Hands state task :=
  .inr (.inl ⟨task, htask, rfl, rfl⟩)

theorem hands_updateRow {edit : CollaborationTask → CollaborationTask}
    (hedit : ∀ task ∈ state.tasks, task.id = taskId → Hands state (edit task))
    (hafter : after ∈
      updateRow CollaborationTask.id taskId edit state.tasks) :
    Hands state after := by
  rcases mem_updateRow.mp hafter with ⟨task, htask, hid, rfl⟩ | ⟨hafter, -⟩
  · exact hedit task htask hid
  · exact hands_self hafter

theorem hands_of_terminate {terminal : TaskTerminal}
    (hsorted : Sorted CollaborationTask.id state.tasks)
    (hfound : state.task taskId = some task)
    (hhandoff : terminal.handoff = none)
    (hafter : after ∈ (terminate state taskId terminal).tasks) :
    Hands state after := by
  rw [terminate_eq hsorted hfound] at hafter
  refine hands_updateRow ?_ hafter
  intro task _ _
  exact .inl hhandoff

theorem hands_of_accept (hsorted : Sorted CollaborationTask.id state.tasks)
    (h : accept state taskId actor = .ok (next, event))
    (hafter : after ∈ next.tasks) : Hands state after := by
  simp only [accept, bind_eq_ok_iff, ensure_eq_ok_iff, exists_unit_iff,
    ownedTask_eq_ok_iff] at h
  obtain ⟨task, ⟨hfound, -⟩, -, h⟩ := h
  rw [taskMut_eq hsorted hfound] at h
  cases h
  refine hands_updateRow ?_ hafter
  intro task htask _
  exact .inr (.inl ⟨task, htask, rfl, rfl⟩)

theorem hands_of_activate (hsorted : Sorted CollaborationTask.id state.tasks)
    {observation : ReservationObservation}
    (h : activate state taskId observation = .ok (next, event))
    (hafter : after ∈ next.tasks) : Hands state after := by
  simp only [activate, activateMut, bind_eq_ok_iff, ensure_eq_ok_iff,
    exists_unit_iff, requireTask_eq_ok_iff] at h
  obtain ⟨task, hfound, -, h⟩ := h
  rw [taskMut_eq hsorted hfound, Option.getD_some] at h
  cases h
  refine hands_updateRow ?_ hafter
  intro task htask _
  exact .inr (.inl ⟨task, htask, rfl, rfl⟩)

theorem hands_of_rejectOffer (hsorted : Sorted CollaborationTask.id state.tasks)
    (h : rejectOffer state taskId actor reasonDigest = .ok (next, event))
    (hafter : after ∈ next.tasks) : Hands state after := by
  simp only [rejectOffer, bind_eq_ok_iff, ensure_eq_ok_iff, exists_unit_iff,
    ownedTask_eq_ok_iff, Except.ok.injEq, Prod.mk.injEq] at h
  obtain ⟨task, ⟨hfound, -⟩, -, terminal, hterminal, rfl, -⟩ := h
  exact hands_of_terminate hsorted hfound
    (TaskTerminal.new_eq_ok hterminal).2.1 hafter

theorem hands_of_abandon (hsorted : Sorted CollaborationTask.id state.tasks)
    (h : abandon state taskId actor reasonDigest = .ok (next, event))
    (hafter : after ∈ next.tasks) : Hands state after := by
  simp only [abandon, bind_eq_ok_iff, ensure_eq_ok_iff, exists_unit_iff,
    ownedTask_eq_ok_iff, Except.ok.injEq, Prod.mk.injEq] at h
  obtain ⟨task, ⟨hfound, -⟩, -, terminal, hterminal, rfl, -⟩ := h
  exact hands_of_terminate hsorted hfound
    (TaskTerminal.new_eq_ok hterminal).2.1 hafter

theorem hands_of_acknowledgeCancellation
    (hsorted : Sorted CollaborationTask.id state.tasks)
    (h : acknowledgeCancellation state taskId actor = .ok (next, event))
    (hafter : after ∈ next.tasks) : Hands state after := by
  simp only [acknowledgeCancellation, bind_eq_ok_iff, ensure_eq_ok_iff,
    exists_unit_iff, ownedTask_eq_ok_iff, Except.ok.injEq, Prod.mk.injEq] at h
  obtain ⟨task, ⟨hfound, -⟩, -, terminal, hterminal, rfl, -⟩ := h
  exact hands_of_terminate hsorted hfound
    (TaskTerminal.new_eq_ok hterminal).2.1 hafter

/-- The only command that hands an artifact over looks for room first. -/
theorem hands_of_complete (hsorted : Sorted CollaborationTask.id state.tasks)
    {terminal : TaskTerminal}
    (h : complete state taskId actor terminal = .ok (next, event))
    (hafter : after ∈ next.tasks) : Hands state after := by
  simp only [complete, bind_eq_ok_iff, ensure_eq_ok_iff, exists_unit_iff,
    Bool.or_eq_true, Option.isNone_iff_eq_none, decide_eq_true_eq,
    ownedTask_eq_ok_iff, Except.ok.injEq, Prod.mk.injEq] at h
  obtain ⟨task, ⟨hfound, -⟩, -, -, hroom, -, rfl, -⟩ := h
  rcases hroom with hnone | hroom
  · exact hands_of_terminate hsorted hfound hnone hafter
  · rw [terminate_eq hsorted hfound] at hafter
    refine hands_updateRow ?_ hafter
    rintro task _ rfl
    exact .inr (.inr hroom)

theorem handoff_cancelRow :
    handoff (cancelRow reasonDigest task) = none ∨
      handoff (cancelRow reasonDigest task) = handoff task := by
  unfold cancelRow
  split
  · exact .inr rfl
  · exact .inl rfl

theorem hands_of_cancel (hsorted : Sorted CollaborationTask.id state.tasks)
    (h : cancel state taskId actor reasonDigest = .ok (next, event))
    (hafter : after ∈ next.tasks) : Hands state after := by
  simp only [cancel, bind_eq_ok_iff, ensure_eq_ok_iff, exists_unit_iff,
    Prod.exists, Except.ok.injEq, Prod.mk.injEq] at h
  obtain ⟨target, -, -, -, mid, effects, heach, rfl, -⟩ := h
  have hids : (affected state taskId).Nodup :=
    (hsorted.sublist List.filter_sublist).nodup_map
  obtain ⟨rfl, -⟩ := cancelEach_eq_ok hsorted hids heach
  obtain ⟨task, htask, rfl⟩ := List.mem_map.mp hafter
  split
  · rcases handoff_cancelRow with hnone | hsame
    · exact .inl hnone
    · exact .inr (.inl ⟨task, htask, (cancelRow_id _ _).symm, hsame⟩)
  · exact hands_self htask

theorem hands_of_offer {assignment : Delegation}
    (h : offer state actor assignment = .ok (next, event))
    (hafter : after ∈ next.tasks) : Hands state after := by
  simp only [offer, bind_eq_ok_iff, ensure_eq_ok_iff, exists_unit_iff,
    Except.ok.injEq, Prod.mk.injEq] at h
  obtain ⟨-, -, -, parent, -, -, -, -, -, rfl, -⟩ := h
  rcases mem_insertTask.mp hafter with rfl | hafter
  · exact .inl rfl
  · exact hands_self hafter

theorem tasks_of_sendMessage
    (h : sendMessage state message = .ok (next, event)) :
    next.tasks = state.tasks := by
  simp only [sendMessage, bind_eq_ok_iff, ensure_eq_ok_iff, exists_unit_iff,
    Except.ok.injEq, Prod.mk.injEq] at h
  obtain ⟨-, task, -, -, -, -, -, -, -, -, rfl, -⟩ := h
  rfl

theorem tasks_of_acknowledgeMessage
    (hmessages : Sorted MessageDelivery.id state.messages)
    {messageId : CollaborationMessageId}
    (h : acknowledgeMessage state messageId actor = .ok (next, event)) :
    next.tasks = state.tasks := by
  unfold acknowledgeMessage at h
  split at h
  · cases h
  · next delivery hfound =>
      rw [ensure_bind_eq_ok_iff, messageMut_eq hmessages hfound] at h
      obtain ⟨-, h⟩ := h
      cases h
      rfl

theorem tasks_of_finalize (h : finalize sha256 state = .ok (next, event)) :
    next.tasks = state.tasks := by
  simp only [finalize, bind_eq_ok_iff, exists_unit_iff] at h
  obtain ⟨-, root, -, h⟩ := h
  split at h
  · cases h
  · cases h
    rfl

theorem hands_of_apply (hkept : Kept sha256 state)
    (h : apply sha256 state kind = .ok (next, event))
    (hafter : after ∈ next.tasks) : Hands state after := by
  have hsorted := hkept.tasks.sorted
  cases kind with
  | start => cases h
  | offerDelegation => exact hands_of_offer h hafter
  | acceptDelegation => exact hands_of_accept hsorted h hafter
  | rejectDelegation => exact hands_of_rejectOffer hsorted h hafter
  | activateTask => exact hands_of_activate hsorted h hafter
  | sendMessage =>
      rw [tasks_of_sendMessage h] at hafter
      exact hands_self hafter
  | acknowledgeMessage =>
      rw [tasks_of_acknowledgeMessage (sorted_messages hkept) h] at hafter
      exact hands_self hafter
  | completeTask => exact hands_of_complete hsorted h hafter
  | abandonTask => exact hands_of_abandon hsorted h hafter
  | cancelTask => exact hands_of_cancel hsorted h hafter
  | acknowledgeCancellation =>
      exact hands_of_acknowledgeCancellation hsorted h hafter
  | pause =>
      simp only [apply, pause, bind_eq_ok_iff, exists_unit_iff, Except.ok.injEq,
        Prod.mk.injEq] at h
      obtain ⟨-, -, rfl, -⟩ := h
      exact hands_self hafter
  | resume =>
      simp only [apply, resume, bind_eq_ok_iff, exists_unit_iff,
        Except.ok.injEq, Prod.mk.injEq] at h
      obtain ⟨-, -, rfl, -⟩ := h
      exact hands_self hafter
  | finalize =>
      rw [tasks_of_finalize h] at hafter
      exact hands_self hafter

/-! ### The log under one command -/

theorem references_of_hands (hsorted : Sorted CollaborationTask.id state.tasks)
    (htask : task ∈ state.tasks) (hid : after.id = task.id)
    (hands : Hands state after)
    (hlogged : Logged state.limits task (messagesAbout state task.id)) :
    references (messagesAbout state task.id) after ≤
      state.limits.artifactReferences := by
  have hbefore := hlogged.references
  unfold references at hbefore ⊢
  rcases hands with hnone | ⟨other, hother, hname, hsame⟩ | hroom
  · rw [hnone]
    exact (Nat.le_add_right _ _).trans hbefore
  · rw [hsame, hsorted.inj hother htask (hname.trans hid)]
    exact hbefore
  · rw [hid, artifactReferences_eq] at hroom
    have hone : (handoff after).toList.length ≤ 1 := by
      cases handoff after <;> simp
    omega

theorem wellLogged_of_rows {rows : List CollaborationTask}
    (hsorted : Sorted CollaborationTask.id state.tasks)
    (hrows : List.Forall₂ (Advance state) state.tasks rows)
    (hands : ∀ after ∈ rows, Hands state after) (hwell : WellLogged state) :
    WellLogged { state with tasks := rows } := by
  intro after hafter
  obtain ⟨task, htask, hadvance⟩ := forall₂_mem_right hrows hafter
  have hlogged := hwell task htask
  have hreferences := references_of_hands hsorted htask hadvance.id
    (hands after hafter) hlogged
  rw [← hadvance.id] at hlogged hreferences
  exact logged_of_task hlogged hadvance.assignment hreferences

theorem wellLogged_of_offer {assignment : Delegation}
    {parent : CollaborationTask} (hkept : Kept sha256 state)
    (hoffered : Offered state assignment parent) (hwell : WellLogged state) :
    WellLogged (insertTask state (.offered assignment)) := by
  intro after hafter
  rcases mem_insertTask.mp hafter with rfl | hafter
  · have hnone : messagesAbout (insertTask state (.offered assignment))
        assignment.taskId = [] := by
      rw [messagesAbout_eq, List.filter_eq_nil_iff]
      intro message hmessage habout
      obtain ⟨task, htask, hid⟩ := (hkept.messages.posted message hmessage).task
      exact hoffered.fresh task htask (hid.trans (of_decide_eq_true habout))
    change Logged _ _ (messagesAbout _ assignment.taskId)
    rw [hnone]
    exact logged_nil rfl
  · exact hwell after hafter

/-- What `sendMessage` checks about the owners and the artifacts. -/
theorem guards_of_sendMessage
    (h : sendMessage state message = .ok (next, event)) :
    (∃ task, state.task message.taskId = some task ∧
      Between task.assignment message) ∧
    (message.artifact = none ∨
      artifactReferences (taskMessages state message.taskId) <
        state.limits.artifactReferences) := by
  simp only [sendMessage, bind_eq_ok_iff, ensure_eq_ok_iff, exists_unit_iff,
    Bool.and_eq_true, Bool.or_eq_true, Option.isNone_iff_eq_none,
    decide_eq_true_eq, requireTask_eq_ok_iff] at h
  obtain ⟨-, task, hfound, -, hbetween, -, hroom, -⟩ := h
  exact ⟨⟨task, hfound, hbetween⟩, hroom⟩

theorem messagesAbout_sent (taskId : CollaborationTaskId) :
    (messagesAbout (insertMessage state (.pending message)) taskId).Perm
      (if message.taskId = taskId then message :: messagesAbout state taskId
        else messagesAbout state taskId) := by
  rw [messagesAbout_eq, messagesAbout_eq]
  refine ((perm_sent state (.pending message)).filter _).trans ?_
  change (((message :: _).filter _).Perm _)
  rw [List.filter_cons]
  by_cases htask : message.taskId = taskId
  · rw [if_pos htask, if_pos (decide_eq_true htask)]
  · rw [if_neg htask, if_neg (by rw [decide_eq_false htask]; decide)]

theorem follows_of_sent (hsent : Sent state message task)
    (hlogged : Logged state.limits task (messagesAbout state task.id)) :
    Follows (messagesAbout state task.id) message := by
  have hordinal := hsent.ordinal
  have hpredecessor := hsent.predecessor
  rw [← hsent.named] at hordinal hpredecessor
  cases hlatest : latest (taskMessages state task.id) with
  | none =>
      rw [hlatest] at hpredecessor
      exact .inl ⟨message.causal.mpr hpredecessor, hpredecessor⟩
  | some delivery =>
      rw [hlatest] at hpredecessor
      obtain ⟨hmem, hgreatest⟩ := latest_eq_some hlatest
      have habout := List.mem_map_of_mem (f := MessageDelivery.message) hmem
      refine .inr ⟨delivery.message, habout, hpredecessor, ?_⟩
      rw [hordinal, ordinal_of_greatest hlogged habout]
      · unfold messagesAbout
        rw [List.length_map]
      · intro other hother
        obtain ⟨found, hfound, rfl⟩ := List.mem_map.mp hother
        exact hgreatest found hfound

theorem wellLogged_of_send (hkept : Kept sha256 state)
    (hsent : Sent state message task)
    (h : sendMessage state message = .ok (next, event))
    (hwell : WellLogged state) :
    WellLogged (insertMessage state (.pending message)) := by
  intro other hother
  refine logged_of_perm ?_ (messagesAbout_sent other.id)
  by_cases hname : message.taskId = other.id
  · rw [if_pos hname]
    obtain rfl : task = other := hkept.tasks.sorted.inj hsent.retained hother
      (hsent.named.trans hname)
    obtain ⟨⟨found, hfound, hbetween⟩, hroom⟩ := guards_of_sendMessage h
    obtain rfl := eq_of_task hkept.tasks.sorted hfound hother hname.symm
    have hlogged := hwell task hother
    refine logged_cons hlogged ?_ (follows_of_sent hsent hlogged) hbetween ?_
    · rw [hsent.ordinal, hname]
      unfold messagesAbout
      rw [List.length_map]
    · -- an active task has no outcome yet
      have hnone : handoff task = none := by
        have hsettled := (hkept.tasks.placed task hother).lifecycle.settled
        rw [hsent.active] at hsettled
        have hterminal : task.terminal = none := by
          by_contra hsome
          cases hsettled.mpr hsome
        unfold handoff
        rw [hterminal]
        rfl
      have hbefore := hlogged.references
      unfold references at hbefore ⊢
      rw [hnone] at hbefore ⊢
      rw [List.countP_cons]
      rw [hname, artifactReferences_eq] at hroom
      rcases hroom with hplain | hroom
      · rw [hplain]
        exact hbefore
      · split
        · exact hroom
        · exact hbefore
  · rw [if_neg hname]
    exact hwell other hother

theorem wellLogged_of_apply (hkept : Kept sha256 state)
    (h : apply sha256 state kind = .ok (next, event))
    (hchange : Change sha256 state kind next) (hwell : WellLogged state) :
    WellLogged next := by
  have hands : ∀ after ∈ next.tasks, Hands state after := by
    intro after hafter
    exact hands_of_apply hkept h hafter
  cases hchange with
  | offer hoffered => exact wellLogged_of_offer hkept hoffered hwell
  | row taskId edit _ _ hrow =>
      exact wellLogged_of_rows hkept.tasks.sorted (rows_of_updateRow hrow) hands
        hwell
  | cancel =>
      exact wellLogged_of_rows hkept.tasks.sorted
        (rows_of_cancel _ hkept.tasks.sorted) hands hwell
  | send hsent => exact wellLogged_of_send hkept hsent h hwell
  | acknowledge =>
      intro task htask
      rw [messagesAbout_congr (map_message_acknowledged _ _)]
      exact hwell task htask
  | control => exact hwell
  | finalize => exact hwell

/-! ### Retention -/

theorem retains_refl (state : CollaborationState) : Retains state state :=
  fun delivery hdelivery => ⟨delivery, hdelivery, rfl, id⟩

theorem retains_trans {later : CollaborationState} (hfirst : Retains state next)
    (hsecond : Retains next later) : Retains state later := by
  intro delivery hdelivery
  obtain ⟨mid, hmid, hmessage, hkept⟩ := hfirst delivery hdelivery
  obtain ⟨after, hafter, hsame, hstays⟩ := hsecond mid hmid
  exact ⟨after, hafter, hsame.trans hmessage, fun h => hstays (hkept h)⟩

theorem retains_of_change (hchange : Change sha256 state kind next) :
    Retains state next := by
  cases hchange with
  | send =>
      intro delivery hdelivery
      exact ⟨delivery, mem_insertAt.mpr (.inr hdelivery), rfl, id⟩
  | acknowledge =>
      rename_i messageId _
      intro delivery hdelivery
      by_cases hname : delivery.id = messageId
      · exact ⟨delivery.acknowledge,
          mem_updateRow.mpr (.inl ⟨delivery, hdelivery, hname, rfl⟩), rfl,
          fun _ => rfl⟩
      · exact ⟨delivery, mem_updateRow.mpr (.inr ⟨hdelivery, hname⟩), rfl, id⟩
  | offer => exact retains_refl state
  | row => exact retains_refl state
  | cancel => exact retains_refl state
  | control => exact retains_refl state
  | finalize => exact retains_refl state

/-! ### Steps and runs -/

theorem logs_of_accepts (hsound : Sound sha256 state)
    (haccepts : Accepts sha256 state command next) (hwell : WellLogged state) :
    WellLogged next ∧ Retains state next := by
  obtain ⟨applied, hcommitted⟩ := committed_of_accepts haccepts
  have hchange := change_of_committed hsound.toKept hcommitted
  obtain ⟨event, happly⟩ := hcommitted.handled
  have happlied := wellLogged_of_apply hsound.toKept happly hchange hwell
  have hretains := retains_of_change hchange
  obtain ⟨sequence, -, rfl⟩ := hcommitted.committed
  exact ⟨happlied, hretains⟩

theorem wellLogged_of_started (hstarted : Started sha256 state) :
    WellLogged state := by
  obtain ⟨command, transition, hstart, rfl⟩ := hstarted
  obtain ⟨binding, -, -, -, hstate⟩ := start_eq_ok hstart
  rw [hstate]
  intro task htask
  rw [List.mem_singleton.mp htask]
  exact logged_nil rfl

theorem wellLogged_of_reachable
    (hreach : Reachable (Started sha256) (Accepts sha256) state) :
    Sound sha256 state ∧ WellLogged state := by
  refine @Reachable.invariant _ _ _ _
    (fun state => Sound sha256 state ∧ WellLogged state) ?_ ?_ _ hreach
  · intro initial hstarted
    exact ⟨sound_of_started hstarted, wellLogged_of_started hstarted⟩
  · rintro before command after ⟨hsound, hwell⟩ haccepts
    exact ⟨sound_of_accepts hsound haccepts,
      (logs_of_accepts hsound haccepts hwell).1⟩

theorem retains_of_run {commands : List CollaborationCommand}
    (hrun : Run (Accepts sha256) state commands next)
    (hsound : Sound sha256 state) (hwell : WellLogged state) :
    Retains state next := by
  induction hrun with
  | nil state => exact retains_refl state
  | cons haccepts hrest ih =>
      obtain ⟨hnext, hretains⟩ := logs_of_accepts hsound haccepts hwell
      exact retains_trans hretains (ih (sound_of_accepts hsound haccepts) hnext)

/-- Every reachable collaboration keeps the log of each of its tasks, and from
there on no message is lost and no acknowledgement taken back. -/
theorem message_log (sha256 : List UInt8 → Sha256Digest)
    (state : CollaborationState)
    (hreach : Reachable (Started sha256) (Accepts sha256) state) :
    WellLogged state ∧ ∀ commands later,
      Run (Accepts sha256) state commands later → Retains state later := by
  obtain ⟨hsound, hwell⟩ := wellLogged_of_reachable hreach
  exact ⟨hwell, fun commands later hrun => retains_of_run hrun hsound hwell⟩

end Steps

/-! ### A question and its answer -/

def question : CollaborationMessage where
  id := .ofNat 62
  rootTaskId := smallRoot.taskId
  taskId := smallChild.taskId
  sender := smallChild.owner
  receiver := smallChild.parentOwner
  ordinal := 1
  predecessor := none
  mediaType := "text/plain"
  payloadBytes := 1
  contentDigest := smallDigest
  artifact := none
  revision := smallRevision
  ordinalBound := Durability.longMessage.ordinalBound
  payloadBound := Durability.longMessage.payloadBound
  valid := by decide +kernel
  causal := Durability.longMessage.causal

/-- Its identity comes before the one of the question. -/
def answer : CollaborationMessage :=
  { question with
    id := .ofNat 61
    sender := smallChild.parentOwner
    receiver := smallChild.owner
    ordinal := 2
    predecessor := some question.id
    artifact := some smallArtifact
    ordinalBound := by decide
    causal := by decide }

def exchangeRequests : List Request :=
  smallRequests ++
    [(.ofNat 55, .sendMessage question),
     (.ofNat 56, .acknowledgeMessage question.id question.receiver),
     (.ofNat 57, .sendMessage answer)]

set_option maxRecDepth 8000 in
theorem messages_exchangeRequests (sha256 : List UInt8 → Sha256Digest) :
    (attempts sha256 (smallStart sha256) exchangeRequests).map
      (fun state => state.messages.map fun delivery =>
        (delivery.message.ordinal, delivery.acknowledged)) =
        some [(2, false), (1, true)] := by
  cbv

theorem message_log_of_exchange : ∃ state : CollaborationState,
    (state.messages.map fun delivery =>
      (delivery.message.ordinal, delivery.acknowledged)) =
        [(2, false), (1, true)] ∧
    WellLogged state ∧ ∀ commands later,
      Run (Accepts fun _ => zeroDigest) state commands later →
        Retains state later := by
  obtain ⟨state, hstate, hmessages⟩ :=
    Option.map_eq_some_iff.mp (messages_exchangeRequests fun _ => zeroDigest)
  obtain ⟨commands, -, hrun⟩ := run_of_attempts hstate
  exact ⟨state, hmessages, message_log _ state
    ⟨_, commands, started_smallStart _, hrun⟩⟩

end Peritus.Collaboration.MessageLog
