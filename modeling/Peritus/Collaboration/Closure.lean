import Peritus.Collaboration.Truth
import Peritus.Collaboration.Wire

/-!
The inert validation of a checkpoint against the states that runs reach.  All
of it follows from soundness but the byte estimate, which the reducer checks
before the commit adds one more command identity, and the length of the list of
consumed commands, which only the decoder bounds.
-/

namespace Peritus.Collaboration.Closure

open Peritus.Types Checked SortedTable TransitionSystem Limits
open Collaboration.Task State Canonical Reducer Invariant Edits Preservation Wire Truth
open Scheduler.State (zeroDigest)
open Codec.Writer (CodecLimits)

variable {sha256 : List UInt8 → Sha256Digest}
variable {state next : CollaborationState} {event : CollaborationEventKind}
variable {command : CollaborationCommand}

/-! ### Inert validation of a sound state -/

section Validation

variable {task parent : CollaborationTask} {message : CollaborationMessage}

theorem count_work (htable : TaskTable state.binding state.tasks)
    (htask : task ∈ state.tasks) :
    (state.tasks.filter fun other =>
      decide (other.assignment.workId = task.assignment.workId)).length = 1 := by
  rw [← List.countP_eq_length_filter]
  have hcount := List.count_eq_one_of_mem htable.works
    (List.mem_map_of_mem (f := fun task => task.assignment.workId) htask)
  rw [List.count, List.countP_map] at hcount
  rw [← hcount]
  refine List.countP_congr fun other _ => ?_
  simp only [decide_eq_true_eq, Function.comp_apply, beq_iff_eq]

theorem validateParent_of_placed (htable : TaskTable state.binding state.tasks)
    (hplaced : Placed state.binding state.tasks task) :
    validateParent state task.assignment = .ok () := by
  unfold validateParent
  cases hparent : task.assignment.parentTaskId with
  | none => rfl
  | some parentId =>
      obtain ⟨parent, hmem, rfl, hadopts⟩ := hplaced.parent parentId hparent
      have hdepth := hadopts.depth
      have hbound := task.assignment.depthBound
      have hmin : task.assignment.depth =
          min (parent.assignment.depth + 1) u16Max := by
        rw [hdepth] at hbound ⊢
        exact (Nat.min_eq_left hbound).symm
      dsimp only
      rw [task_of_mem htable hmem]
      dsimp only
      rw [ensure_eq_ok_iff]
      simp only [Bool.and_eq_true, decide_eq_true_eq]
      exact ⟨⟨hmin, hadopts.owner⟩, htable.fanOut parent.id⟩

theorem lifecycle_of_placed (hlife : Lifecycle state.binding task) :
    lifecycle state task = true := by
  unfold lifecycle
  simp only [Bool.and_eq_true, Bool.or_eq_true, Bool.not_eq_true',
    decide_eq_false_iff_not, Option.all_eq_true, decide_eq_true_eq,
    Option.isSome_eq_false_iff]
  refine ⟨⟨⟨⟨?_, ?_⟩, hlife.settled⟩, ?_⟩, ?_⟩
  · by_cases hphase : task.phase = .active ∨ task.phase = .cancelling
    · exact .inr (Option.isSome_iff_ne_none.mpr (hlife.held hphase))
    · exact .inl hphase
  · by_cases hphase : task.phase = .offered ∨ task.phase = .accepted
    · exact .inr (Option.isNone_iff_eq_none.mpr (hlife.unheld hphase))
    · exact .inl hphase
  · intro reservation hreservation
    obtain ⟨hwork, howner, hrevision⟩ :=
      hlife.reservation reservation hreservation
    exact ⟨⟨hwork, howner⟩, hrevision⟩
  · intro handoff hhandoff
    obtain ⟨terminal, hterminal, hfound⟩ := Option.bind_eq_some_iff.mp hhandoff
    exact hlife.handoff terminal hterminal handoff hfound

theorem validateTask_of_mem (htable : TaskTable state.binding state.tasks)
    (htask : task ∈ state.tasks) : validateTask state task = .ok () := by
  have hplaced := htable.placed task htask
  unfold validateTask
  rw [ensure_bind_eq_ok_iff]
  refine ⟨?_, ?_⟩
  · simp only [Bool.and_eq_true, decide_eq_true_eq]
    exact ⟨⟨hplaced.root, hplaced.depth⟩, count_work htable htask⟩
  · rw [check_bind_eq_ok_iff, ensure_eq_ok_iff]
    exact ⟨validateParent_of_placed htable hplaced,
      lifecycle_of_placed hplaced.lifecycle⟩

theorem message_of_mem (hkept : Kept sha256 state) {delivery : MessageDelivery}
    (hmem : delivery ∈ state.messages) :
    state.message delivery.id = some delivery :=
  SortedTable.lookup_of_mem (sorted_messages hkept) hmem rfl

theorem validateMessage_of_mem (hkept : Kept sha256 state)
    {delivery : MessageDelivery} (hmem : delivery ∈ state.messages) :
    validateMessage state delivery = .ok () := by
  have hmessage : delivery.message ∈
      state.messages.map MessageDelivery.message := List.mem_map_of_mem hmem
  obtain ⟨hroot, hrevision, hpayload, task, htask, hid⟩ :=
    hkept.messages.posted _ hmessage
  unfold validateMessage
  dsimp only
  rw [ensure_eq_ok_iff]
  simp only [Bool.and_eq_true, decide_eq_true_eq, Option.all_eq_true]
  refine ⟨⟨⟨⟨hroot, hrevision⟩, hpayload⟩, ?_⟩, fun id hpredecessor => ?_⟩
  · rw [← hid, task_of_mem hkept.tasks htask]
    rfl
  · obtain ⟨earlier, hearlier, rfl, hsame, hordinal⟩ :=
      (hkept.messages.chained delivery.message.taskId).predecessor
        delivery.message
        (List.mem_filter.mpr ⟨hmessage, decide_eq_true rfl⟩) id hpredecessor
    obtain ⟨found, hfound, rfl⟩ := List.mem_map.mp hearlier
    have hbound := delivery.message.ordinalBound
    have hlookup : state.message found.message.id = some found :=
      message_of_mem hkept hfound
    rw [hlookup, Option.any_some, Bool.and_eq_true, decide_eq_true_eq,
      decide_eq_true_eq]
    refine ⟨hsame, ?_⟩
    rw [hordinal]
    exact Nat.min_eq_left hbound

theorem validateCollections_iff (hsound : Sound sha256 state) :
    validateCollections state = .ok () ↔
      state.estimatedEncodedBytes ≤ state.limits.stateBytes := by
  obtain ⟨root, hroot, _⟩ := hsound.tasks.root
  have hmessages := hsound.messages.bound
  rw [List.length_map] at hmessages
  have hused : state.usedCommands ≠ [] := by
    have hpositive := state.sequence.positive
    rw [hsound.counted] at hpositive
    exact List.ne_nil_of_length_pos hpositive
  have htasks : ascending CollaborationTask.id state.tasks = true :=
    ascending_iff.mpr hsound.tasks.sorted
  have hposted : ascending MessageDelivery.id state.messages = true :=
    ascending_iff.mpr (sorted_messages hsound.toKept)
  have hbound : state.tasks.length ≤ state.limits.tasks := hsound.tasks.bound
  have hroom : state.messages.length ≤ state.limits.messages := hmessages
  unfold validateCollections
  rw [ensure_eq_ok_iff]
  simp only [Bool.and_eq_true, Bool.not_eq_true', decide_eq_true_eq,
    List.isEmpty_eq_false_iff]
  constructor
  · intro h
    exact h.1.1.1.2
  · intro h
    exact ⟨⟨⟨⟨⟨⟨⟨⟨List.ne_nil_of_mem hroot, hbound⟩, hroom⟩, hused⟩,
      hsound.counted⟩, h⟩, htasks⟩, hposted⟩, hsound.fresh⟩

theorem task_root (hsound : Sound sha256 state) :
    ∃ root, state.task state.binding.rootTaskId = some root ∧
      root.assignment = state.binding.rootAssignment := by
  obtain ⟨root, hroot, hassignment⟩ := hsound.tasks.root
  have hid : root.id = state.binding.rootTaskId := by
    rw [(rootBinding_of_validate hsound.binding).named, ← hassignment]
    rfl
  exact ⟨root, hid ▸ task_of_mem hsound.tasks hroot, hassignment⟩

/-- Of the whole inert validation only the byte estimate is left open. -/
theorem validateInert_iff (hsound : Sound sha256 state) :
    validateInert sha256 state = .ok () ↔
      state.estimatedEncodedBytes ≤ state.limits.stateBytes := by
  obtain ⟨root, hlookup, hassignment⟩ := task_root hsound
  have htasks : forEach (validateTask state) state.tasks = .ok () :=
    forEach_eq_ok_iff.mpr fun _ h => validateTask_of_mem hsound.tasks h
  have hmessages : forEach (validateMessage state) state.messages = .ok () :=
    forEach_eq_ok_iff.mpr fun _ h => validateMessage_of_mem hsound.toKept h
  unfold validateInert
  rw [hlookup]
  simp only [check_bind_eq_ok_iff, hsound.binding, htasks, hmessages,
    ensure_eq_ok_iff, decide_eq_true hassignment, Bool.and_eq_true,
    decide_eq_true_eq, Option.all_eq_true, hsound.digest, hsound.closed,
    true_and, and_true, validateCollections_iff hsound]
  exact and_iff_left fun terminal hterminal =>
    (hsound.terminal terminal hterminal).1

end Validation

/-! ### The byte estimate over a step -/

def messageSize (message : CollaborationMessage) : Nat :=
  message.payloadBytes + message.mediaType.utf8ByteSize + 384

/-- The estimate before it saturates. -/
def tally (state : CollaborationState) : Nat :=
  state.tasks.length * 512
    + ((state.messages.map MessageDelivery.message).map messageSize).sum
    + state.usedCommands.length * 16 + 1024

theorem saturate_message (message : CollaborationMessage) (total : Nat) :
    CollaborationState.saturatingAdd
      (CollaborationState.saturatingAdd
        (CollaborationState.saturatingAdd (min total u64Max)
          message.payloadBytes) message.mediaType.utf8ByteSize) 384 =
      min (total + messageSize message) u64Max := by
  unfold CollaborationState.saturatingAdd messageSize
  generalize u64Max = bound
  omega

theorem foldl_messageBytes (messages : List MessageDelivery) (total : Nat) :
    messages.foldl
      (fun total delivery =>
        CollaborationState.saturatingAdd
          (CollaborationState.saturatingAdd
            (CollaborationState.saturatingAdd total
              delivery.message.payloadBytes)
            delivery.message.mediaType.utf8ByteSize) 384) (min total u64Max) =
      min (total +
        ((messages.map MessageDelivery.message).map messageSize).sum)
        u64Max := by
  induction messages generalizing total with
  | nil => rfl
  | cons delivery rest ih =>
      rw [List.foldl_cons, List.map_cons, List.map_cons, List.sum_cons,
        ← Nat.add_assoc, ← ih, saturate_message]

theorem estimatedEncodedBytes_eq (state : CollaborationState) :
    state.estimatedEncodedBytes = min (tally state) u64Max := by
  have hmessages := foldl_messageBytes state.messages 0
  rw [Nat.zero_min, Nat.zero_add] at hmessages
  unfold CollaborationState.estimatedEncodedBytes
    CollaborationState.messageBytes tally
  rw [hmessages]
  unfold CollaborationState.saturatingAdd CollaborationState.saturatingMul
  omega

/-- A checkpoint is far from the greatest estimate. -/
theorem estimate_of_tally {bytes : Nat} (hbytes : bytes ≤ 2 ^ 32)
    (htally : tally state ≤ bytes) :
    state.estimatedEncodedBytes = tally state := by
  rw [estimatedEncodedBytes_eq]
  exact Nat.min_eq_left (htally.trans (hbytes.trans (by decide)))

theorem estimate_le_iff {bytes : Nat} (hbytes : bytes ≤ 2 ^ 32) :
    state.estimatedEncodedBytes ≤ bytes ↔ tally state ≤ bytes := by
  have hmax : bytes < u64Max := Nat.lt_of_le_of_lt hbytes (by decide)
  rw [estimatedEncodedBytes_eq]
  generalize u64Max = bound at hmax ⊢
  omega

theorem stateBytes_le (limits : CollaborationLimits) :
    limits.stateBytes ≤ 2 ^ 32 := by
  have hceiling := limits.le_production
  omega

/-- What a command adds to the estimate before the commit. -/
def growth : CollaborationCommandKind → Nat
  | .offerDelegation _ _ => 512
  | .sendMessage message => messageSize message
  | _ => 0

def inserts : CollaborationCommandKind → Bool
  | .offerDelegation _ _ => true
  | .sendMessage _ => true
  | _ => false

theorem growth_of_not_inserts {kind : CollaborationCommandKind}
    (hinserts : inserts kind = false) : growth kind = 0 := by
  cases kind with
  | offerDelegation => cases hinserts
  | sendMessage => cases hinserts
  | _ => rfl

theorem tally_offer {offeredBy : ActorId} {assignment : Delegation}
    (h : offer state offeredBy assignment = .ok (next, event)) :
    tally next = tally state + 512 := by
  unfold offer at h
  simp only [bind_eq_ok_iff, ensure_eq_ok_iff, exists_unit_iff,
    Except.ok.injEq, Prod.mk.injEq] at h
  obtain ⟨_, _, _, _, _, _, _, _, _, rfl, _⟩ := h
  simp only [tally, insertTask, length_insertAt]
  omega

theorem tally_sendMessage {message : CollaborationMessage}
    (h : sendMessage state message = .ok (next, event)) :
    tally next = tally state + messageSize message := by
  unfold sendMessage at h
  simp only [bind_eq_ok_iff, ensure_eq_ok_iff, exists_unit_iff,
    Except.ok.injEq, Prod.mk.injEq] at h
  obtain ⟨_, _, _, _, _, _, _, _, _, _, rfl, _⟩ := h
  have hsum := List.Perm.sum_nat
    ((perm_sent state (.pending message)).map messageSize)
  rw [List.map_cons, List.sum_cons] at hsum
  unfold tally
  rw [hsum]
  simp only [insertMessage, MessageDelivery.pending]
  omega

/-- Apart from the two insertions, a change leaves the tables their size. -/
theorem tally_of_change {kind : CollaborationCommandKind}
    (hchange : Change sha256 state kind next) (hinserts : inserts kind = false) :
    tally next = tally state := by
  cases hchange with
  | offer => cases hinserts
  | send => cases hinserts
  | row => simp only [tally, updateRow, List.length_map]
  | cancel => simp only [tally, cancelRows, List.length_map]
  | acknowledge => simp only [tally, map_message_acknowledged]
  | control => rfl
  | finalize => rfl

theorem tally_of_apply (hkept : Kept sha256 state)
    {kind : CollaborationCommandKind}
    (h : apply sha256 state kind = .ok (next, event)) :
    tally next = tally state + growth kind := by
  have hchange := change_of_apply hkept.tasks (sorted_messages hkept) h
  cases kind with
  | offerDelegation => exact tally_offer h
  | sendMessage => exact tally_sendMessage h
  | _ =>
      rw [growth_of_not_inserts rfl, Nat.add_zero]
      exact tally_of_change hchange rfl

/-- The commit itself adds one identity. -/
theorem tally_of_accepts (hsound : Sound sha256 state)
    (haccepts : Accepts sha256 state command next) :
    tally next = tally state + growth command.kind + 16 ∧
      tally state + growth command.kind ≤ state.limits.stateBytes ∧
      next.limits = state.limits := by
  obtain ⟨applied, hcommitted⟩ := committed_of_accepts haccepts
  obtain ⟨event, happly⟩ := hcommitted.handled
  obtain ⟨_, hbinding⟩ := history_of_change
    (change_of_committed hsound.toKept hcommitted)
  have hlimits : applied.limits = state.limits :=
    congrArg CollaborationBinding.limits hbinding
  have htally := tally_of_apply hsound.toKept happly
  have hbound := hcommitted.bound
  rw [estimate_le_iff (stateBytes_le _), hlimits, htally] at hbound
  obtain ⟨sequence, _, rfl⟩ := hcommitted.committed
  refine ⟨?_, hbound, hlimits⟩
  rw [← htally]
  simp only [tally, advanceCursor, List.length_append, List.length_singleton]
  omega

/-- Room for what the command inserts and for its own identity. -/
def leavesRoom (state : CollaborationState)
    (kind : CollaborationCommandKind) : Bool :=
  decide (state.estimatedEncodedBytes + growth kind + 16 ≤
    state.limits.stateBytes)

theorem validateInert_of_accepts (hsound : Sound sha256 state)
    (haccepts : Accepts sha256 state command next) :
    validateInert sha256 next = .ok () ↔
      leavesRoom state command.kind = true := by
  obtain ⟨htally, hbound, hlimits⟩ := tally_of_accepts hsound haccepts
  have hstate : tally state ≤ state.limits.stateBytes :=
    (Nat.le_add_right _ _).trans hbound
  unfold leavesRoom
  rw [validateInert_iff (sound_of_accepts hsound haccepts), hlimits,
    estimate_le_iff (stateBytes_le _), htally, decide_eq_true_eq,
    estimate_of_tally (stateBytes_le _) hstate]

/-! ### What the decoder lists -/

/-- The blocking tasks of an outcome are tasks of the collaboration. -/
def Blocking (state : CollaborationState) : Prop :=
  ∀ terminal ∈ state.terminal, terminal.blockingTasks.length ≤ 65535 ∧
    ascending (fun id : OpaqueIdentifier => id) terminal.blockingTasks = true

theorem blocking_of_tasks (htable : TaskTable state.binding state.tasks)
    (kind : CollaborationTerminalKind) :
    (blockingTasks state kind).length ≤ 65535 ∧
      ascending (fun id : OpaqueIdentifier => id)
        (blockingTasks state kind) = true := by
  have hceiling := state.binding.limits.le_production
  have hbound := htable.bound
  unfold blockingTasks
  split
  · exact ⟨Nat.zero_le _, rfl⟩
  · constructor
    · rw [List.length_map]
      have hfilter := List.length_filter_le
        (fun task => !CollaborationState.succeeded task) state.tasks
      omega
    · rw [ascending_iff]
      exact List.pairwise_map.mpr (htable.sorted.sublist List.filter_sublist)

theorem blocking_of_change {kind : CollaborationCommandKind}
    (hkept : Kept sha256 state) (hopen : state.phase ≠ .terminal)
    (hchange : Change sha256 state kind next) : Blocking next := by
  have hnone := terminal_eq_none hkept hopen
  cases hchange with
  | finalize =>
      intro terminal hterminal
      cases hterminal
      exact blocking_of_tasks hkept.tasks _
  | _ =>
      intro terminal hterminal
      have hsome : state.terminal = some terminal := hterminal
      rw [hnone] at hsome
      cases hsome

theorem blocking_of_accepts (hsound : Sound sha256 state)
    (haccepts : Accepts sha256 state command next) : Blocking next := by
  obtain ⟨applied, hcommitted⟩ := committed_of_accepts haccepts
  have hblocking := blocking_of_change hsound.toKept hcommitted.opened
    (change_of_committed hsound.toKept hcommitted)
  obtain ⟨sequence, _, rfl⟩ := hcommitted.committed
  exact hblocking

theorem listed_of_sound (hsound : Sound sha256 state)
    (hblocking : Blocking state)
    (hcommands : state.usedCommands.length ≤ maximumCommands state.limits) :
    Listed state := by
  obtain ⟨root, hroot, _⟩ := hsound.tasks.root
  have hmessages := hsound.messages.bound
  rw [List.length_map] at hmessages
  exact
    { nonempty := List.length_pos_iff_ne_nil.mpr (List.ne_nil_of_mem hroot) |>.ne'
      tasks := hsound.tasks.bound
      sorted := ascending_iff.mpr hsound.tasks.sorted
      messages := hmessages
      posted := ascending_iff.mpr (sorted_messages hsound.toKept)
      commands := hcommands
      blocking := hblocking }

/-! ### Runs -/

/-- The state passes the inert validation and survives its checkpoint. -/
def Restorable (sha256 : List UInt8 → Sha256Digest)
    (state : CollaborationState) : Prop :=
  validateInert sha256 state = .ok () ∧
    ∀ (limits : CodecLimits) (frame : List UInt8),
      encodeStateFrame state limits = .ok frame →
      decodeStateFrame sha256 frame limits = .ok state

/-- The decoder lists one more consumed command. -/
def listsCommand (state : CollaborationState) : Bool :=
  decide (state.usedCommands.length + 1 ≤
    state.limits.tasks + 2 * state.limits.messages + 65535)

theorem restorable_of_listed (hsound : Sound sha256 state)
    (hblocking : Blocking state)
    (hcommands : state.usedCommands.length ≤ maximumCommands state.limits)
    (hvalid : validateInert sha256 state = .ok ()) :
    Restorable sha256 state :=
  ⟨hvalid, fun _ _ h => decodeStateFrame_encodeStateFrame
    (listed_of_sound hsound hblocking hcommands) hsound.binding hvalid h⟩

theorem commands_of_accepts (hsound : Sound sha256 state)
    (haccepts : Accepts sha256 state command next) :
    next.usedCommands.length = state.usedCommands.length + 1 ∧
      next.limits = state.limits := by
  obtain ⟨applied, hcommitted⟩ := committed_of_accepts haccepts
  obtain ⟨hhistory, hbinding⟩ := history_of_change
    (change_of_committed hsound.toKept hcommitted)
  obtain ⟨sequence, _, rfl⟩ := hcommitted.committed
  refine ⟨?_, congrArg CollaborationBinding.limits hbinding⟩
  show (applied.usedCommands ++ [command.commandId]).length = _
  rw [hhistory, List.length_append, List.length_singleton]

theorem restorable_of_accepts (hsound : Sound sha256 state)
    (haccepts : Accepts sha256 state command next)
    (hroom : leavesRoom state command.kind = true)
    (hlists : listsCommand state = true) : Restorable sha256 next := by
  obtain ⟨hlength, hlimits⟩ := commands_of_accepts hsound haccepts
  refine restorable_of_listed (sound_of_accepts hsound haccepts)
    (blocking_of_accepts hsound haccepts) ?_
    ((validateInert_of_accepts hsound haccepts).mpr hroom)
  rw [hlength, hlimits, maximumCommands_eq]
  exact of_decide_eq_true hlists

theorem restorable_of_started (hstarted : Started sha256 state) :
    Restorable sha256 state := by
  have hsound := sound_of_started hstarted
  obtain ⟨command, transition, hstart, rfl⟩ := hstarted
  obtain ⟨binding, _, _, hbound, hstate⟩ := start_eq_ok hstart
  have hnone : transition.state.terminal = none := by
    rw [hstate]
    rfl
  refine restorable_of_listed hsound ?_ ?_ ?_
  · intro terminal hterminal
    rw [hnone] at hterminal
    cases hterminal
  · rw [maximumCommands_eq, hstate]
    exact Nat.le_add_left 1 _ |>.trans (Nat.add_le_add_left (by decide) _)
  · rw [validateInert_iff hsound, hstate]
    exact hbound

/-- The inert validation after one accepted command, exactly; and every run
whose commands leave room comes back from each of its checkpoints. -/
theorem checkpoint_closure (sha256 : List UInt8 → Sha256Digest) :
    (∀ state, Reachable (Started sha256) (Accepts sha256) state →
      ∀ command next, Accepts sha256 state command next →
        (validateInert sha256 next = .ok () ↔
          leavesRoom state command.kind = true)) ∧
    ∀ genesis commands state, Started sha256 genesis →
      Run (fun state command next => Accepts sha256 state command next ∧
        leavesRoom state command.kind = true ∧ listsCommand state = true)
        genesis commands state →
      Restorable sha256 state := by
  constructor
  · intro state hreach command next haccepts
    exact validateInert_of_accepts (sound_of_reachable hreach) haccepts
  · intro genesis commands state hstarted hrun
    refine (@Run.invariant _ _ _ (fun s => Sound sha256 s ∧
      Restorable sha256 s) ?_ _ _ _ hrun
      ⟨sound_of_started hstarted, restorable_of_started hstarted⟩).2
    rintro s command t ⟨hsound, _⟩ ⟨haccepts, hroom, hlists⟩
    exact ⟨sound_of_accepts hsound haccepts,
      restorable_of_accepts hsound haccepts hroom hlists⟩

/-! ### A pause at the exact byte limit -/

section Bounded

variable (sha256) (limits : CollaborationLimits)

/-- The small collaboration under other limits. -/
def boundedBinding : CollaborationBinding :=
  let binding := { smallBinding sha256 with limits }
  { binding with digest := bindingDigest sha256 binding }

def boundedGenesis : CollaborationCommand where
  commandId := .ofNat 50
  eventId := .ofNat 50
  runId := (boundedBinding sha256 limits).runId
  expectedSequence := 0
  expectedPreviousEvent := none
  priorStateDigest := zeroDigest
  revision := smallRevision
  kind := .start (boundedBinding sha256 limits)
  sequenceBound := Nat.zero_le _
  predecessor := genesis_predecessor

def boundedStart : CollaborationState :=
  let state := CollaborationState.genesis (boundedBinding sha256 limits)
    PositiveNumber.first (.ofNat 50) (.ofNat 50)
  { state with stateDigest := stateDigest sha256 state }

/-- The digest of a binding covers everything but itself. -/
theorem bindingDigest_with (binding : CollaborationBinding)
    (digest : Sha256Digest) :
    bindingDigest sha256 { binding with digest } =
      bindingDigest sha256 binding := rfl

theorem validateBinding_bounded :
    validateBinding sha256 (boundedBinding sha256 limits) = .ok () := by
  have hdigest : bindingDigest sha256 (boundedBinding sha256 limits) =
      (boundedBinding sha256 limits).digest :=
    bindingDigest_with sha256 { smallBinding sha256 with limits } _
  unfold validateBinding
  rw [ensure_eq_ok_iff, hdigest]
  simp only [Bool.and_eq_true, decide_eq_true_eq]
  exact ⟨⟨⟨⟨⟨rfl, rfl⟩, rfl⟩, rfl⟩, rfl⟩, trivial⟩

/-- One root task and one consumed command fill 1552 bytes. -/
theorem estimate_genesis (binding : CollaborationBinding)
    (sequence : EventSequence) (eventId : EventId) (commandId : CommandId) :
    (CollaborationState.genesis binding sequence eventId
      commandId).estimatedEncodedBytes = 1552 := by
  cbv

variable {limits}

theorem started_boundedStart (hroom : 1552 ≤ limits.stateBytes) :
    Started sha256 (boundedStart sha256 limits) := by
  refine ⟨boundedGenesis sha256 limits, ?_⟩
  have hkind : (boundedGenesis sha256 limits).kind =
      .start (boundedBinding sha256 limits) := rfl
  have hbound : (CollaborationState.genesis (boundedBinding sha256 limits)
      PositiveNumber.first (boundedGenesis sha256 limits).eventId
      (boundedGenesis sha256 limits).commandId).estimatedEncodedBytes ≤
      (CollaborationState.genesis (boundedBinding sha256 limits)
      PositiveNumber.first (boundedGenesis sha256 limits).eventId
      (boundedGenesis sha256 limits).commandId).limits.stateBytes := by
    rw [estimate_genesis]
    exact hroom
  unfold start ensureStateBound
  rw [hkind]
  dsimp only
  rw [validateBinding_bounded, decide_eq_true hbound]
  exact ⟨_, rfl, rfl⟩

end Bounded

/-- Room for the genesis checkpoint and nothing else. -/
def exactLimits : CollaborationLimits :=
  { CollaborationLimits.production with
    stateBytes := 1552
    checks := by decide }

def exactPause : List Request :=
  [(.ofNat 51, .pause smallRoot.owner)]

set_option maxRecDepth 8000 in
theorem overfull_exactPause (sha256 : List UInt8 → Sha256Digest) :
    (attempts sha256 (boundedStart sha256 exactLimits) exactPause).map
      (fun state => decide (state.estimatedEncodedBytes ≤
        state.limits.stateBytes)) = some false := by
  cbv

/-- Whatever the hash, an accepted pause leaves a checkpoint that the inert
validation refuses. -/
theorem refused_after_pause :
    ¬ ∃ sha256, ∀ state,
      Reachable (Started sha256) (Accepts sha256) state →
      Restorable sha256 state := by
  rintro ⟨sha256, hclaim⟩
  obtain ⟨state, hstate, hfull⟩ :=
    Option.map_eq_some_iff.mp (overfull_exactPause sha256)
  obtain ⟨commands, _, hrun⟩ := run_of_attempts hstate
  have hreach : Reachable (Started sha256) (Accepts sha256) state :=
    ⟨_, commands, started_boundedStart sha256 (Nat.le_refl 1552), hrun⟩
  have hvalid := (validateInert_iff (sound_of_reachable hreach)).mp
    (hclaim state hreach).1
  exact of_decide_eq_false hfull hvalid

set_option maxRecDepth 8000 in
theorem checkpoint_closure_of_pause : ∃ state command next,
    Accepts (fun _ => zeroDigest) state command next ∧
      state.tasks.map (·.phase) = [.active, .active] ∧
      command.kind = .pause smallRoot.owner ∧
      validateInert (fun _ => zeroDigest) next = .ok () := by
  obtain ⟨state, command, next, hreach, haccepts, hkind, hseen⟩ :=
    exists_accepted (started_smallStart _) (by cbv :
      ((attempts (fun _ => zeroDigest) (smallStart fun _ => zeroDigest)
        smallRequests).bind fun state => (attempts (fun _ => zeroDigest) state
          [(.ofNat 55, .pause smallRoot.owner)]).map fun _ =>
            (state.tasks.map (·.phase),
              leavesRoom state (.pause smallRoot.owner))) =
      some ([.active, .active], true))
  obtain ⟨hphases, hroom⟩ := Prod.mk.inj hseen
  refine ⟨state, command, next, haccepts, hphases, hkind, ?_⟩
  rw [(checkpoint_closure fun _ => zeroDigest).1 state hreach command next haccepts,
    hkind]
  exact hroom

end Peritus.Collaboration.Closure
