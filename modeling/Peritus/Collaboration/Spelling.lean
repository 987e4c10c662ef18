import Peritus.Collaboration.Frames
import Peritus.Collaboration.Truth

/-!
Which bytes the decoders of commands and events take.  A root assignment may
have been written with three fields that its reader drops; everything else is
encoded to the bytes it has been decoded from.
-/

namespace Peritus.Collaboration.Spelling

open Peritus.Types Checked Codec.Writer Codec.Reader Codec.Canonicity
open Codec.Frame Codec.Revision Limits Collaboration.Task State Canonical Reducer Wire
open Collaboration.Measure Frames
open Truth (smallDigest smallRevision smallRoot smallChild)

/-! ### What is taken -/

section Takes

variable {sha256 : List UInt8 → Sha256Digest} {reader next : CanonicalReader}

theorem takes_limits : Takes readLimits writeLimits := by
  intro reader value next h
  simp only [readLimits, reading_bind_eq_ok_iff, offset_eq_ok_iff,
    validatedAt_eq_ok_iff] at h
  obtain ⟨_, _, ⟨-, rfl⟩, _, _, htasks, _, _, hdepth, _, _, hfanOut, _, _,
    hmessages, _, _, hrecipients, _, _, hpayload, _, _, hartifacts, _, _,
    hcommand, _, _, hstate, hvalue, rfl⟩ := h
  obtain ⟨rfl, rfl, rfl, rfl, rfl, rfl, rfl, rfl, rfl⟩ :=
    CollaborationLimits.fields_of_new hvalue
  exact ((((((((takes_u32 _ _ _ htasks).append
    (takes_u16 _ _ _ hdepth)).append
    (takes_u16 _ _ _ hfanOut)).append
    (takes_u32 _ _ _ hmessages)).append
    (takes_u16 _ _ _ hrecipients)).append
    (takes_u32 _ _ _ hpayload)).append
    (takes_u16 _ _ _ hartifacts)).append
    (takes_u64 _ _ _ hcommand)).append
    (takes_u64 _ _ _ hstate)

theorem takes_role : Takes (readTag roleOfTag)
    fun value => writeU8 (roleTag value) := by
  refine takes_tag fun number found h => ?_
  unfold roleOfTag at h
  split at h <;> cases h <;> rfl

theorem takes_join : Takes (readTag joinOfTag)
    fun value => writeU8 (joinTag value) := by
  refine takes_tag fun number found h => ?_
  unfold joinOfTag at h
  split at h <;> cases h <;> rfl

theorem takes_taskTerminalKind : Takes (readTag taskTerminalOfTag)
    fun value => writeU8 (taskTerminalTag value) := by
  refine takes_tag fun number found h => ?_
  unfold taskTerminalOfTag at h
  split at h <;> cases h <;> rfl

theorem takes_reservation : Takes readReservation writeReservation := by
  intro reader value next h
  simp only [readReservation, reading_bind_eq_ok_iff,
    reading_pure_eq_ok_iff] at h
  obtain ⟨_, _, hwork, _, _, hdispatch, _, _, howner, _, _, hrevision, rfl,
    rfl⟩ := h
  exact (((takes_id _ _ _ hwork).append
    (takes_id _ _ _ hdispatch)).append
    (takes_id _ _ _ howner)).append
    (takes_revision _ _ _ hrevision)

theorem takes_artifact : Takes readArtifact writeArtifact := by
  intro reader value next h
  simp only [readArtifact, reading_bind_eq_ok_iff, validated_eq_ok_iff] at h
  obtain ⟨_, _, hid, _, _, hartifact, _, _, hevidence, _, _, hrevision, hvalue,
    rfl⟩ := h
  obtain ⟨rfl, rfl, rfl, rfl⟩ := ArtifactHandoff.fields_of_new hvalue
  exact (((takes_id _ _ _ hid).append
    (takes_digest _ _ _ hartifact)).append
    (takes_digest _ _ _ hevidence)).append
    (takes_revision _ _ _ hrevision)

theorem takes_taskTerminal : Takes readTaskTerminal writeTaskTerminal := by
  intro reader value next h
  simp only [readTaskTerminal, reading_bind_eq_ok_iff, validated_eq_ok_iff] at h
  obtain ⟨_, _, hkind, _, _, hhandoff, _, _, hcause, hvalue, rfl⟩ := h
  obtain ⟨rfl, rfl, rfl⟩ := TaskTerminal.new_eq_ok hvalue
  exact ((takes_taskTerminalKind _ _ _ hkind).append
    (takes_artifact.option _ _ _ hhandoff)).append
    (takes_digest _ _ _ hcause)

theorem takes_message : Takes readMessage writeMessage := by
  intro reader value next h
  simp only [readMessage, reading_bind_eq_ok_iff, validated_eq_ok_iff] at h
  obtain ⟨_, _, hid, _, _, hroot, _, _, htask, _, _, hsender, _, _, hreceiver, _,
    _, hordinal, _, _, hpredecessor, _, _, hmedia, _, _, hpayload, _, _,
    hcontent, _, _, hartifact, _, _, hrevision, hvalue, rfl⟩ := h
  obtain ⟨rfl, rfl, rfl, rfl, rfl, hsame, rfl, rfl, hbytes, rfl, rfl, rfl⟩ :=
    CollaborationMessage.fields_of_new hvalue
  have hfirst := taken_bounded hordinal
  rw [← hsame] at hfirst
  have hsecond := taken_bounded hpayload
  rw [← hbytes] at hsecond
  exact (((((((((((takes_id _ _ _ hid).append
    (takes_id _ _ _ hroot)).append
    (takes_id _ _ _ htask)).append
    (takes_id _ _ _ hsender)).append
    (takes_id _ _ _ hreceiver)).append
    hfirst).append
    (takes_id.option _ _ _ hpredecessor)).append
    (takes_str _ _ _ hmedia)).append
    hsecond).append
    (takes_digest _ _ _ hcontent)).append
    (takes_artifact.option _ _ _ hartifact)).append
    (takes_revision _ _ _ hrevision)

/-! ### Assignments -/

/-- An assignment with a root, a depth and a parent owner of its own. -/
def writeDelegationAs (value : Delegation) (rootTaskId : CollaborationTaskId)
    (depth : Nat) (parentOwner : ActorId) : Payload :=
  writeId value.taskId ++ writeId rootTaskId
    ++ writeOption value.parentTaskId writeId ++ writeU16 depth
    ++ writeId value.owner ++ writeU8 (roleTag value.role)
    ++ writeId parentOwner ++ writeId value.workId
    ++ writeDigest value.goalDigest ++ writeBool value.required
    ++ writeU8 (joinTag value.joinPolicy)

theorem fields_of_build {taskId rootTaskId : CollaborationTaskId}
    {parentTaskId : Option CollaborationTaskId} {depth : Nat} {owner : ActorId}
    {role : HarnessRole} {parentOwner : ActorId}
    {workId : Scheduler.Limits.WorkId} {goalDigest : Sha256Digest}
    {required : Bool} {joinPolicy : JoinPolicy} {depthBound : depth ≤ u16Max}
    {value : Delegation}
    (h : buildDelegation taskId rootTaskId parentTaskId depth owner role
      parentOwner workId goalDigest required joinPolicy depthBound =
        .ok value) :
    (value.taskId = taskId ∧ value.parentTaskId = parentTaskId ∧
      value.owner = owner ∧ value.role = role ∧ value.workId = workId ∧
      value.goalDigest = goalDigest ∧ value.required = required ∧
      value.joinPolicy = joinPolicy) ∧
    (value.parentTaskId ≠ none → value.rootTaskId = rootTaskId ∧
      value.depth = depth ∧ value.parentOwner = parentOwner) := by
  cases parentTaskId with
  | some parent =>
      obtain ⟨htask, hroot, hparent, hdepth, howner, hrole, hparentOwner, hwork,
        hgoal, hrequired, hjoin⟩ := Delegation.fields_of_new h
      exact ⟨⟨htask, hparent, howner, hrole, hwork, hgoal, hrequired, hjoin⟩,
        fun _ => ⟨hroot, hdepth, hparentOwner⟩⟩
  | none =>
      cases required with
      | false => cases h
      | true =>
          obtain ⟨htask, -, hparent, -, howner, hrole, -, hwork, hgoal,
            hrequired, hjoin⟩ := Delegation.fields_of_new h
          refine ⟨⟨htask, hparent, howner, hrole, hwork, hgoal, hrequired,
            hjoin⟩, ?_⟩
          intro hsome
          exact absurd hparent hsome

/-- The reader of a root drops three of its fields. -/
theorem taken_delegation {value : Delegation}
    (h : readDelegation reader = .ok (value, next)) :
    ∃ rootTaskId depth parentOwner, depth < 256 ^ 2 ∧
      Taken reader (writeDelegationAs value rootTaskId depth parentOwner)
        next ∧
      (value.parentTaskId ≠ none → value.rootTaskId = rootTaskId ∧
        value.depth = depth ∧ value.parentOwner = parentOwner) := by
  simp only [readDelegation, reading_bind_eq_ok_iff, validated_eq_ok_iff] at h
  obtain ⟨_, _, htask, rootTaskId, _, hroot, _, _, hparent, depth, _, hdepth, _,
    _, howner, _, _, hrole, parentOwner, _, hparentOwner, _, _, hwork, _, _,
    hgoal, _, _, hrequired, _, _, hjoin, hvalue, rfl⟩ := h
  obtain ⟨⟨rfl, rfl, rfl, rfl, rfl, rfl, rfl, rfl⟩, hchild⟩ :=
    fields_of_build hvalue
  refine ⟨rootTaskId, depth.1, parentOwner, depth.2, ?_, hchild⟩
  exact ((((((((((takes_id _ _ _ htask).append
    (takes_id _ _ _ hroot)).append
    (takes_id.option _ _ _ hparent)).append
    (taken_bounded hdepth)).append
    (takes_id _ _ _ howner)).append
    (takes_role _ _ _ hrole)).append
    (takes_id _ _ _ hparentOwner)).append
    (takes_id _ _ _ hwork)).append
    (takes_digest _ _ _ hgoal)).append
    (takes_bool _ _ _ hrequired)).append
    (takes_join _ _ _ hjoin)

/-- A root assignment that starts at `start` repeats its identity as its root
and its owner as its parent owner, at depth zero. -/
def NamesItself (bytes : List UInt8) (start : Nat) : Prop :=
  field bytes (start + 32) 1 = 0 →
    field bytes (start + 16) 16 = field bytes start 16 ∧
    field bytes (start + 33) 2 = 0 ∧
    field bytes (start + 52) 16 = field bytes (start + 35) 16

section Positions

variable {before after : Payload} {start depth : Nat} {value : Delegation}
variable {rootTaskId : CollaborationTaskId} {parentOwner : ActorId}

theorem tag_delegationAs (hstart : size before = start) :
    field (canonical (before ++
        (writeDelegationAs value rootTaskId depth parentOwner ++ after)))
      (start + 32) 1 = if value.parentTaskId.isSome then 1 else 0 := by
  have hsplit : ∃ rest, writeDelegationAs value rootTaskId depth parentOwner =
      writeId value.taskId ++ writeId rootTaskId ++
        (writeU8 (if value.parentTaskId.isSome then 1 else 0) ++ rest) := by
    unfold writeDelegationAs writeOption
    cases value.parentTaskId with
    | none => exact ⟨_, by simp only [List.append_assoc]; rfl⟩
    | some parent => exact ⟨_, by simp only [List.append_assoc]; rfl⟩
  obtain ⟨rest, hrest⟩ := hsplit
  rw [hrest, List.append_assoc, ← List.append_assoc before,
    List.append_assoc (writeU8 _)]
  refine field_canonical ?_ ?_
  · simp [hstart]
  · split <;> decide

/-- The three fields that are dropped, and the two that they repeat. -/
theorem fields_delegationAs (hstart : size before = start)
    (hparent : value.parentTaskId = none) (hdepth : depth < 256 ^ 2)
    {bytes : List UInt8} (hbytes : bytes = canonical (before ++
      (writeDelegationAs value rootTaskId depth parentOwner ++ after))) :
    field bytes start 16 = value.taskId.value ∧
      field bytes (start + 16) 16 = rootTaskId.value ∧
      field bytes (start + 33) 2 = depth ∧
      field bytes (start + 35) 16 = value.owner.value ∧
      field bytes (start + 52) 16 = parentOwner.value := by
  subst hbytes
  have htag : writeOption value.parentTaskId writeId = writeU8 0 := by
    rw [hparent]
    rfl
  unfold writeDelegationAs
  rw [htag]
  refine ⟨?_, ?_, ?_, ?_, ?_⟩
  · simp only [List.append_assoc]
    exact field_canonical hstart value.taskId.bound
  · simp only [List.append_assoc]
    rw [← List.append_assoc before]
    exact field_canonical (by simp [hstart]) rootTaskId.bound
  · simp only [List.append_assoc]
    rw [← List.append_assoc before, ← List.append_assoc (before ++ _),
      ← List.append_assoc (before ++ _ ++ _)]
    exact field_canonical (by simp [hstart]) hdepth
  · simp only [List.append_assoc]
    rw [← List.append_assoc before, ← List.append_assoc (before ++ _),
      ← List.append_assoc (before ++ _ ++ _),
      ← List.append_assoc (before ++ _ ++ _ ++ _)]
    exact field_canonical (by simp [hstart]) value.owner.bound
  · simp only [List.append_assoc]
    rw [← List.append_assoc before, ← List.append_assoc (before ++ _),
      ← List.append_assoc (before ++ _ ++ _),
      ← List.append_assoc (before ++ _ ++ _ ++ _),
      ← List.append_assoc (before ++ _ ++ _ ++ _ ++ _),
      ← List.append_assoc (before ++ _ ++ _ ++ _ ++ _ ++ _)]
    exact field_canonical (by simp [hstart]) parentOwner.bound

theorem namesItself_iff (hstart : size before = start)
    (hdepth : depth < 256 ^ 2) :
    NamesItself (canonical (before ++
        (writeDelegationAs value rootTaskId depth parentOwner ++ after))) start ↔
      (value.parentTaskId = none → rootTaskId = value.taskId ∧ depth = 0 ∧
        parentOwner = value.owner) := by
  unfold NamesItself
  rw [tag_delegationAs hstart]
  cases hparent : value.parentTaskId with
  | some parent => simp
  | none =>
      obtain ⟨htask, hroot, hzero, howner, hparentOwner⟩ :=
        fields_delegationAs hstart hparent hdepth (show _ = canonical (before ++
          (writeDelegationAs value rootTaskId depth parentOwner ++ after))
          from rfl)
      rw [htask, hroot, hzero, howner, hparentOwner,
        OpaqueIdentifier.value_injective.eq_iff,
        OpaqueIdentifier.value_injective.eq_iff]
      simp

theorem namesItself_writeDelegation (hstart : size before = start) :
    NamesItself (canonical (before ++ (writeDelegation value ++ after)))
      start := by
  have hdepth : value.depth < 256 ^ 2 := Nat.lt_succ_of_le value.depthBound
  change NamesItself (canonical (before ++ (writeDelegationAs value
    value.rootTaskId value.depth value.parentOwner ++ after))) start
  rw [namesItself_iff hstart hdepth]
  intro hparent
  obtain ⟨hzero, hroot, howner⟩ := value.rootShape hparent
  exact ⟨hroot.symm, hzero, howner.symm⟩

end Positions

/-- A root that names itself has been written as it would be. -/
theorem taken_delegation_of_namesItself {value : Delegation}
    (h : readDelegation reader = .ok (value, next)) :
    ∃ written, Taken reader written next ∧ ∀ before after : Payload,
      NamesItself (canonical (before ++ (written ++ after))) (size before) →
        written = writeDelegation value := by
  obtain ⟨rootTaskId, depth, parentOwner, hdepth, htaken, hchild⟩ :=
    taken_delegation h
  refine ⟨_, htaken, ?_⟩
  intro before after hnamed
  have hfields : rootTaskId = value.rootTaskId ∧ depth = value.depth ∧
      parentOwner = value.parentOwner := by
    by_cases hparent : value.parentTaskId = none
    · obtain ⟨rfl, rfl, rfl⟩ := (namesItself_iff rfl hdepth).mp hnamed hparent
      obtain ⟨hzero, hroot, howner⟩ := value.rootShape hparent
      exact ⟨hroot, hzero.symm, howner⟩
    · obtain ⟨hroot, hsame, howner⟩ := hchild hparent
      exact ⟨hroot.symm, hsame.symm, howner.symm⟩
  obtain ⟨rfl, rfl, rfl⟩ := hfields
  rfl

/-! ### Kinds -/

/-- Where a kind that starts at `start` has its assignment, if it has one. -/
def assignmentAt (bytes : List UInt8) (start : Nat) : Option Nat :=
  match field bytes start 1 with
  | 1 => some (start + 197)
  | 2 => some (start + 17)
  | _ => none

def RootNamed (bytes : List UInt8) (start : Nat) : Prop :=
  ∀ assignment ∈ assignmentAt bytes start, NamesItself bytes assignment

section Kinds

variable {before after fields : Payload} {start tag : Nat}
variable {kind : CollaborationCommandKind}

theorem field_tag (hstart : size before = start) (htag : tag < 256 ^ 1) :
    field (canonical (before ++ (writeU8 tag ++ after))) start 1 = tag :=
  field_canonical hstart htag

theorem assignmentAt_eq_none (hstart : size before = start)
    (htag : tag < 256 ^ 1 ∧ tag ≠ 1 ∧ tag ≠ 2) :
    assignmentAt (canonical (before ++ (writeU8 tag ++ after))) start =
      none := by
  unfold assignmentAt
  rw [field_tag hstart htag.1]
  split
  · exact absurd rfl htag.2.1
  · exact absurd rfl htag.2.2
  · rfl

theorem size_bindingHead (value : CollaborationBinding) :
    size (writeId value.id ++ writeId value.runId
      ++ writeRevision value.revision ++ writeId value.schedulerId
      ++ writeId value.rootTaskId ++ writeLimits value.limits) = 196 := by
  simp [writeLimits]

theorem rootNamed_writeKind (hstart : size before = start) :
    RootNamed (canonical (before ++ (writeKind kind ++ after))) start := by
  intro assignment hassignment
  cases kind with
  | start binding =>
      rw [writeKind, List.append_assoc, assignmentAt,
        field_tag hstart (by decide)] at hassignment
      obtain rfl := Option.some.inj hassignment
      have hsplit : before ++ (writeKind (.start binding) ++ after) =
          (before ++ writeU8 1 ++ (writeId binding.id ++ writeId binding.runId
            ++ writeRevision binding.revision ++ writeId binding.schedulerId
            ++ writeId binding.rootTaskId ++ writeLimits binding.limits))
          ++ (writeDelegation binding.rootAssignment
            ++ (writeDigest binding.digest ++ after)) := by
        simp only [writeKind, writeBinding, List.append_assoc]
      rw [hsplit]
      refine namesItself_writeDelegation ?_
      rw [size_append, size_append, size_bindingHead, hstart, size_writeU8]
  | offerDelegation offeredBy assignment =>
      rw [writeKind, List.append_assoc, List.append_assoc, assignmentAt,
        field_tag hstart (by decide)] at hassignment
      obtain rfl := Option.some.inj hassignment
      have hsplit : before ++ (writeKind (.offerDelegation offeredBy assignment)
          ++ after) = (before ++ writeU8 2 ++ writeId offeredBy)
            ++ (writeDelegation assignment ++ after) := by
        simp only [writeKind, List.append_assoc]
      rw [hsplit]
      refine namesItself_writeDelegation ?_
      simp [hstart]
  | _ =>
      simp only [writeKind, List.append_assoc] at hassignment
      rw [assignmentAt_eq_none hstart ⟨by decide, by decide, by decide⟩]
        at hassignment
      cases hassignment

/-- What has been read is `payload`, if its root assignment names itself. -/
def KindTaken (reader : CanonicalReader) (payload : Payload)
    (next : CanonicalReader) : Prop :=
  ∃ written, Taken reader written next ∧ ∀ before after : Payload,
    RootNamed (canonical (before ++ (written ++ after))) (size before) →
      written = payload

theorem kindTaken_of_taken {payload : Payload}
    (h : Taken reader payload next) : KindTaken reader payload next :=
  ⟨_, h, fun _ _ _ => rfl⟩

variable {middle : CanonicalReader}

theorem kindTaken_start {binding : CollaborationBinding}
    (htag : Taken reader (writeU8 1) middle)
    (h : readBinding sha256 middle = .ok (binding, next)) :
    KindTaken reader (writeKind (.start binding)) next := by
  simp only [readBinding, reading_bind_eq_ok_iff, validated_eq_ok_iff,
    reading_pure_eq_ok_iff] at h
  obtain ⟨id, _, hid, runId, _, hrun, revision, _, hrevision, schedulerId, _,
    hscheduler, rootTaskId, _, hroot, limits, _, hlimits, assignment, _,
    hassignment, digest, _, hdigest, _, _, ⟨-, rfl⟩, rfl, rfl⟩ := h
  obtain ⟨written, htaken, hwritten⟩ :=
    taken_delegation_of_namesItself hassignment
  have hhead := (((((takes_id _ _ _ hid).append
    (takes_id _ _ _ hrun)).append
    (takes_revision _ _ _ hrevision)).append
    (takes_id _ _ _ hscheduler)).append
    (takes_id _ _ _ hroot)).append
    (takes_limits _ _ _ hlimits)
  refine ⟨_, htag.append ((hhead.append htaken).append
    (takes_digest _ _ _ hdigest)), ?_⟩
  intro before after hnamed
  have hsame : written = writeDelegation assignment := by
    refine hwritten (before ++ writeU8 1 ++ (writeId id ++ writeId runId
      ++ writeRevision revision ++ writeId schedulerId ++ writeId rootTaskId
      ++ writeLimits limits)) (writeDigest digest ++ after) ?_
    simp only [List.append_assoc] at hnamed ⊢
    refine hnamed _ ?_
    rw [assignmentAt, field_tag rfl (by decide)]
    simp [writeLimits]
  rw [hsame]
  rfl

theorem kindTaken_offer {offeredBy : ActorId} {assignment : Delegation}
    {after' : CanonicalReader} (htag : Taken reader (writeU8 2) middle)
    (hid : readId middle = .ok (offeredBy, after'))
    (h : readDelegation after' = .ok (assignment, next)) :
    KindTaken reader (writeKind (.offerDelegation offeredBy assignment)) next := by
  obtain ⟨written, htaken, hwritten⟩ := taken_delegation_of_namesItself h
  refine ⟨_, (htag.append (takes_id _ _ _ hid)).append htaken, ?_⟩
  intro before after hnamed
  have hsame : written = writeDelegation assignment := by
    refine hwritten (before ++ writeU8 2 ++ writeId offeredBy) after ?_
    simp only [List.append_assoc] at hnamed ⊢
    refine hnamed _ ?_
    rw [assignmentAt, field_tag rfl (by decide)]
    simp
  rw [hsame]
  rfl

theorem kindTaken_commandAfterTag {start : Nat}
    (htag : Taken reader (writeU8 tag) middle)
    (h : readCommandAfterTag sha256 start tag middle = .ok (kind, next)) :
    KindTaken reader (writeKind kind) next := by
  unfold readCommandAfterTag at h
  split at h
  · simp only [reading_bind_eq_ok_iff, reading_pure_eq_ok_iff] at h
    obtain ⟨binding, _, hbinding, rfl, rfl⟩ := h
    exact kindTaken_start htag hbinding
  · simp only [reading_bind_eq_ok_iff, reading_pure_eq_ok_iff] at h
    obtain ⟨offeredBy, _, hid, assignment, _, hassignment, rfl, rfl⟩ := h
    exact kindTaken_offer htag hid hassignment
  · exact kindTaken_of_taken (htag.variant₂ takes_id takes_id (fun _ _ => rfl) h)
  · simp only [reading_bind_eq_ok_iff, reading_pure_eq_ok_iff] at h
    obtain ⟨_, _, htask, _, _, hactor, _, _, hreason, rfl, rfl⟩ := h
    exact kindTaken_of_taken (htag.append ((takes_id _ _ _ htask).append
      ((takes_id _ _ _ hactor).append (takes_digest _ _ _ hreason))))
  · exact kindTaken_of_taken
      (htag.variant₂ takes_id takes_reservation (fun _ _ => rfl) h)
  · exact kindTaken_of_taken (htag.variant takes_message (fun _ => rfl) h)
  · exact kindTaken_of_taken (htag.variant₂ takes_id takes_id (fun _ _ => rfl) h)
  · simp only [reading_bind_eq_ok_iff, reading_pure_eq_ok_iff] at h
    obtain ⟨_, _, htask, _, _, hactor, _, _, hterminal, rfl, rfl⟩ := h
    exact kindTaken_of_taken (htag.append ((takes_id _ _ _ htask).append
      ((takes_id _ _ _ hactor).append (takes_taskTerminal _ _ _ hterminal))))
  · simp only [reading_bind_eq_ok_iff, reading_pure_eq_ok_iff] at h
    obtain ⟨_, _, htask, _, _, hactor, _, _, hreason, rfl, rfl⟩ := h
    exact kindTaken_of_taken (htag.append ((takes_id _ _ _ htask).append
      ((takes_id _ _ _ hactor).append (takes_digest _ _ _ hreason))))
  · exact kindTaken_of_taken (htag.variant₂ takes_id takes_id (fun _ _ => rfl) h)
  · exact kindTaken_of_taken (htag.variant takes_id (fun _ => rfl) h)
  · exact kindTaken_of_taken (htag.variant takes_id (fun _ => rfl) h)
  · exact kindTaken_of_taken (htag.variant₀ rfl h)
  · exact absurd h fail_ne_ok

theorem kindTaken_kind (h : readKind sha256 reader = .ok (kind, next)) :
    KindTaken reader (writeKind kind) next := by
  rw [readKind, reading_bind_eq_ok_iff] at h
  obtain ⟨start, _, hstart, h⟩ := h
  obtain ⟨-, rfl⟩ := offset_eq_ok_iff.mp hstart
  rw [reading_bind_eq_ok_iff] at h
  obtain ⟨number, middle, hnumber, h⟩ := h
  have htag := takes_u8 _ _ _ hnumber
  split at h
  · next hcancel =>
      subst hcancel
      simp only [reading_bind_eq_ok_iff, reading_pure_eq_ok_iff] at h
      obtain ⟨_, _, htask, _, _, hactor, _, _, hreason, rfl, rfl⟩ := h
      exact kindTaken_of_taken (htag.append ((takes_id _ _ _ htask).append
        ((takes_id _ _ _ hactor).append (takes_digest _ _ _ hreason))))
  · exact kindTaken_commandAfterTag htag h

theorem takes_effect : Takes readEffect writeEffect := by
  intro reader value next h
  simp only [readEffect, reading_bind_eq_ok_iff, reading_pure_eq_ok_iff] at h
  obtain ⟨_, _, htask, phase, _, hphase, rfl, rfl⟩ := h
  have hphases : Takes (readTag effectPhaseOfTag)
      fun value => writeU8 (taskPhaseTag value) := by
    refine takes_tag fun number found h => ?_
    unfold effectPhaseOfTag at h
    split at h <;> cases h <;> rfl
  exact (takes_id _ _ _ htask).append (hphases _ _ _ hphase)

theorem takes_cancellation {event : CollaborationEventKind}
    (htag : Taken reader (writeU8 10) middle)
    (h : readCancellation middle = .ok (event, next)) :
    Taken reader (writeEventKind event) next := by
  simp only [readCancellation, boundedLen, reading_bind_eq_ok_iff,
    offset_eq_ok_iff, require_eq_ok_iff, requireAt_eq_ok_iff,
    reading_pure_eq_ok_iff] at h
  obtain ⟨_, _, htask, _, _, hactor, _, _, hreason, _, _, hlength, _, _,
    ⟨-, rfl⟩, effects, _, hmany, _, _, ⟨-, rfl⟩, rfl, rfl⟩ := h
  obtain ⟨_, _, ⟨-, rfl⟩, count, _, hcount, _, _, ⟨-, rfl⟩, rfl, rfl⟩ := hlength
  exact (((htag.append (takes_id _ _ _ htask)).append
    (takes_id _ _ _ hactor)).append
    (takes_digest _ _ _ hreason)).append
    (taken_list takes_effect hcount hmany)

theorem kindTaken_eventKind {event : CollaborationEventKind}
    (h : readEventKind sha256 reader = .ok (event, next)) :
    KindTaken reader (writeEventKind event) next := by
  rw [readEventKind, reading_bind_eq_ok_iff] at h
  obtain ⟨start, _, hstart, h⟩ := h
  obtain ⟨-, rfl⟩ := offset_eq_ok_iff.mp hstart
  rw [reading_bind_eq_ok_iff] at h
  obtain ⟨number, middle, hnumber, h⟩ := h
  have htag := takes_u8 _ _ _ hnumber
  split at h
  · next hcancel =>
      subst hcancel
      exact kindTaken_of_taken (takes_cancellation htag h)
  · rw [reading_bind_eq_ok_iff] at h
    obtain ⟨kind, _, hkind, h⟩ := h
    cases hevent : eventFromCommand kind with
    | none =>
        rw [hevent] at h
        exact absurd h fail_ne_ok
    | some found =>
        rw [hevent] at h
        obtain ⟨rfl, rfl⟩ := reading_pure_eq_ok_iff.mp h
        rw [writeEventKind_of_commandKind
          (eventFromCommand_eq_some_iff.mp hevent)]
        exact kindTaken_commandAfterTag htag hkind

/-! ### Commands and events -/

/-- Where a kind starts: behind an optional event that `flag` announces. -/
def kindAt (bytes : List UInt8) (flag base : Nat) : Nat :=
  base + if field bytes flag 1 = 0 then 0 else 16

theorem kindAt_eq {front rest : Payload} {flag base : Nat}
    {previous : Option EventId} (hflag : size front = flag)
    (hbase : flag + 1 + size rest = base) :
    kindAt (canonical (front ++ (writeOption previous writeId
        ++ (rest ++ after)))) flag base =
      size (front ++ (writeOption previous writeId ++ rest)) := by
  unfold kindAt
  cases previous with
  | none =>
      have htag : field (canonical (front ++ (writeU8 0 ++ (rest ++ after))))
          flag 1 = 0 := field_tag hflag (by decide)
      change base + (if field (canonical (front ++ (writeU8 0
        ++ (rest ++ after)))) flag 1 = 0 then 0 else 16) = _
      rw [htag]
      simp [writeOption]
      omega
  | some id =>
      have htag : field (canonical (front ++ (writeU8 1 ++ (writeId id
          ++ (rest ++ after))))) flag 1 = 1 := field_tag hflag (by decide)
      change base + (if field (canonical (front ++ (writeU8 1 ++ (writeId id
        ++ (rest ++ after))))) flag 1 = 0 then 0 else 16) = _
      rw [htag]
      simp [writeOption]
      omega

theorem rootNamed_kindAt (front rest payload : Payload)
    (previous : Option EventId) {flag base : Nat} (hflag : size front = flag)
    (hbase : flag + 1 + size rest = base) :
    RootNamed (canonical (front ++ (writeOption previous writeId
        ++ (rest ++ payload))))
      (kindAt (canonical (front ++ (writeOption previous writeId
        ++ (rest ++ payload)))) flag base) ↔
      RootNamed (canonical ((front ++ (writeOption previous writeId ++ rest))
          ++ (payload ++ [])))
        (size (front ++ (writeOption previous writeId ++ rest))) := by
  rw [kindAt_eq hflag hbase, List.append_nil]
  simp only [List.append_assoc]

end Kinds

/-- No root assignment of a command is written otherwise than it is read. -/
def CommandNamed (bytes : List UInt8) : Prop :=
  RootNamed bytes (kindAt bytes 56 185)

def EventNamed (bytes : List UInt8) : Prop :=
  RootNamed bytes (kindAt bytes 40 217)

theorem fields_of_newCommand {commandId : CommandId} {eventId : EventId}
    {runId : RunId} {expectedSequence : { number : Nat // number < 256 ^ 8 }}
    {previous : Option EventId} {prior : Sha256Digest}
    {revision : RevisionTuple} {kind : CollaborationCommandKind}
    {command : CollaborationCommand}
    (h : newCommand commandId eventId runId expectedSequence previous prior
      revision kind = .ok command) :
    command.commandId = commandId ∧ command.eventId = eventId ∧
      command.runId = runId ∧
      command.expectedSequence = expectedSequence.1 ∧
      command.expectedPreviousEvent = previous ∧
      command.priorStateDigest = prior ∧ command.revision = revision ∧
      command.kind = kind := by
  unfold newCommand at h
  split at h
  · cases h
    exact ⟨rfl, rfl, rfl, rfl, rfl, rfl, rfl, rfl⟩
  · cases h

theorem takesIf_command :
    TakesIf CommandNamed (readCommand sha256) writeCommand := by
  intro reader value next h
  simp only [readCommand, reading_bind_eq_ok_iff, require_eq_ok_iff,
    validated_eq_ok_iff] at h
  obtain ⟨_, _, hid, _, _, hevent, _, _, hrun, _, _, hsequence, _, _, hprevious,
    _, _, ⟨-, rfl⟩, _, _, hprior, _, _, hrevision, _, _, hkind, hvalue,
    rfl⟩ := h
  obtain ⟨rfl, rfl, rfl, hsame, rfl, rfl, rfl, rfl⟩ :=
    fields_of_newCommand hvalue
  have hnumber := taken_bounded hsequence
  rw [← hsame] at hnumber
  obtain ⟨written, htaken, hwritten⟩ := kindTaken_kind hkind
  have hfront := (((takes_id _ _ _ hid).append
    (takes_id _ _ _ hevent)).append (takes_id _ _ _ hrun)).append hnumber
  have hrest := (takes_digest _ _ _ hprior).append
    (takes_revision _ _ _ hrevision)
  refine ⟨_, hfront.append ((takes_id.option _ _ _ hprevious).append
    (hrest.append htaken)), ?_⟩
  intro hnamed
  rw [hwritten _ _ ((rootNamed_kindAt _ _ _ _ (by simp [size_fixed])
    (by simp)).mp hnamed)]
  simp only [writeCommand, List.append_assoc]
  rfl

theorem commandNamed_writeCommand (command : CollaborationCommand) :
    CommandNamed (canonical (writeCommand command)) := by
  have hnamed := (rootNamed_kindAt
    (writeId command.commandId ++ writeId command.eventId
      ++ writeId command.runId ++ writeU64 command.expectedSequence)
    (writeDigest command.priorStateDigest ++ writeRevision command.revision)
    (writeKind command.kind) command.expectedPreviousEvent
    (show _ = 56 by simp) (show 56 + 1 + _ = 185 by simp)).mpr
    (rootNamed_writeKind rfl)
  simp only [List.append_assoc] at hnamed
  unfold CommandNamed writeCommand
  simp only [List.append_assoc]
  exact hnamed

/-- An event writes its kind as its command does, or has no assignment. -/
theorem rootNamed_writeEventKind {before after : Payload} {start : Nat}
    {event : CollaborationEventKind} (hstart : size before = start) :
    RootNamed (canonical (before ++ (writeEventKind event ++ after))) start := by
  cases hkind : commandKind event with
  | some kind =>
      rw [writeEventKind_of_commandKind hkind]
      exact rootNamed_writeKind hstart
  | none =>
      intro assignment hassignment
      cases event with
      | cancellationPropagated taskId requestedBy reasonDigest effects =>
          simp only [writeEventKind, List.append_assoc] at hassignment
          rw [assignmentAt_eq_none hstart ⟨by decide, by decide, by decide⟩]
            at hassignment
          cases hassignment
      | _ => cases hkind

theorem takesIf_event : TakesIf EventNamed (readEvent sha256) writeEvent := by
  intro reader value next h
  simp only [readEvent, reading_bind_eq_ok_iff, require_eq_ok_iff,
    reading_pure_eq_ok_iff] at h
  obtain ⟨_, _, hid, _, _, hcommand, _, _, hsequence, _, _, hprevious, _, _,
    ⟨-, rfl⟩, _, _, hrun, _, _, hrevision, _, _, hprior, _, _, hsuccessor, _, _,
    hkind, rfl, rfl⟩ := h
  obtain ⟨written, htaken, hwritten⟩ := kindTaken_eventKind hkind
  have hfront := ((takes_id _ _ _ hid).append
    (takes_id _ _ _ hcommand)).append (takes_positive _ _ _ hsequence)
  have hrest := (((takes_id _ _ _ hrun).append
    (takes_revision _ _ _ hrevision)).append
    (takes_digest _ _ _ hprior)).append (takes_digest _ _ _ hsuccessor)
  refine ⟨_, hfront.append ((takes_id.option _ _ _ hprevious).append
    (hrest.append htaken)), ?_⟩
  intro hnamed
  rw [hwritten _ _ ((rootNamed_kindAt _ _ _ _ (by simp) (by simp)).mp hnamed)]
  simp only [writeEvent, List.append_assoc]

theorem eventNamed_writeEvent (event : CollaborationEvent) :
    EventNamed (canonical (writeEvent event)) := by
  have hnamed := (rootNamed_kindAt
    (writeId event.id ++ writeId event.commandId ++ writeU64 event.sequence.get)
    (writeId event.runId ++ writeRevision event.revision
      ++ writeDigest event.priorStateDigest
      ++ writeDigest event.successorStateDigest) (writeEventKind event.kind)
    event.previousEvent (show _ = 40 by simp)
    (show 40 + 1 + _ = 217 by simp)).mpr (rootNamed_writeEventKind rfl)
  simp only [List.append_assoc] at hnamed
  unfold EventNamed writeEvent
  simp only [List.append_assoc]
  exact hnamed

end Takes

/-! ### The codec of commands and events -/

section Codec

variable {sha256 : List UInt8 → Sha256Digest} {limits : CodecLimits}
variable {input left right : List UInt8} {command : CollaborationCommand}
variable {event : CollaborationEvent}

theorem decodeCommandFrame_encodeCommandFrame
    (hbound : Bound sha256 command.kind)
    (h : encodeCommandFrame command limits = .ok input) :
    decodeCommandFrame sha256 input limits = .ok command :=
  decodeMessage_encodeMessage (reads_command hbound) (by decide) (by decide) h

theorem decodeEventFrame_encodeEventFrame (hmade : Made sha256 event)
    (h : encodeEventFrame event limits = .ok input) :
    decodeEventFrame sha256 input limits = .ok event :=
  decodeMessage_encodeMessage (reads_event (recorded_of_made hmade)) (by decide)
    (by decide) h

theorem encodeCommandFrame_iff_named
    (h : decodeCommandFrame sha256 input limits = .ok command) :
    encodeCommandFrame command limits = .ok input ↔
      CommandNamed (input.drop headerLen) :=
  encodeMessage_iff_of_decodeMessage takesIf_command
    (commandNamed_writeCommand command) h

theorem encodeEventFrame_iff_named
    (h : decodeEventFrame sha256 input limits = .ok event) :
    encodeEventFrame event limits = .ok input ↔
      EventNamed (input.drop headerLen) :=
  encodeMessage_iff_of_decodeMessage takesIf_event
    (eventNamed_writeEvent event) h

/-- Collaboration codec: what is encoded is decoded to the same value, and what
is decoded is encoded to the same bytes exactly if a root assignment in them
names itself; then no other such bytes are decoded to the same command. -/
theorem frame_codec (sha256 : List UInt8 → Sha256Digest) (limits : CodecLimits) :
    (∀ command frame, Bound sha256 command.kind →
      encodeCommandFrame command limits = .ok frame →
      decodeCommandFrame sha256 frame limits = .ok command) ∧
    (∀ event frame, Made sha256 event →
      encodeEventFrame event limits = .ok frame →
      decodeEventFrame sha256 frame limits = .ok event) ∧
    (∀ input command, decodeCommandFrame sha256 input limits = .ok command →
      (encodeCommandFrame command limits = .ok input ↔
        CommandNamed (input.drop headerLen))) ∧
    (∀ input event, decodeEventFrame sha256 input limits = .ok event →
      (encodeEventFrame event limits = .ok input ↔
        EventNamed (input.drop headerLen))) ∧
    ∀ left right command, decodeCommandFrame sha256 left limits = .ok command →
      decodeCommandFrame sha256 right limits = .ok command →
      CommandNamed (left.drop headerLen) → CommandNamed (right.drop headerLen) →
      left = right := by
  refine ⟨?_, ?_, ?_, ?_, ?_⟩
  · intro command frame hbound h
    exact decodeCommandFrame_encodeCommandFrame hbound h
  · intro event frame hmade h
    exact decodeEventFrame_encodeEventFrame hmade h
  · intro input command h
    exact encodeCommandFrame_iff_named h
  · intro input event h
    exact encodeEventFrame_iff_named h
  · intro left right command hleft hright hnamed hnamed'
    have hfirst := (encodeCommandFrame_iff_named hleft).mpr hnamed
    rw [(encodeCommandFrame_iff_named hright).mpr hnamed'] at hfirst
    exact (Except.ok.inj hfirst).symm

/-! ### A root below another owner -/

/-- Whatever stands for the root, the depth and the parent owner of a root
assignment, the same assignment is read. -/
theorem reads_delegationAs {value : Delegation} {depth : Nat}
    (hparent : value.parentTaskId = none) (hdepth : depth < 256 ^ 2)
    (rootTaskId : CollaborationTaskId) (parentOwner : ActorId) :
    Reads readDelegation (writeDelegationAs value rootTaskId depth parentOwner)
      value := by
  have hbuild : buildDelegation value.taskId rootTaskId value.parentTaskId depth
      value.owner value.role parentOwner value.workId value.goalDigest
      value.required value.joinPolicy (Nat.le_of_lt_succ hdepth) =
      .ok value := by
    have hself := buildDelegation_self value
    unfold buildDelegation at hself ⊢
    rw [hparent] at hself ⊢
    exact hself
  unfold readDelegation writeDelegationAs
  simp only [List.append_assoc]
  refine (Reads.id _).bind ?_
  refine (Reads.id _).bind ?_
  refine (Reads.option fun id _ => Reads.id id).bind ?_
  refine (Reads.bounded hdepth).bind ?_
  refine (Reads.id _).bind ?_
  refine (reads_role _).bind ?_
  refine (Reads.id _).bind ?_
  refine (Reads.id _).bind ?_
  refine (Reads.digest _).bind ?_
  refine (Reads.bool _).bind ?_
  rw [← List.append_nil (writeU8 (joinTag value.joinPolicy))]
  refine (reads_join _).bind ?_
  exact .checked hbuild

/-- An offer of an assignment without a parent. -/
def sampleOffer : CollaborationCommand where
  commandId := .ofNat 51
  eventId := .ofNat 51
  runId := .ofNat 8
  expectedSequence := 1
  expectedPreviousEvent := some (.ofNat 50)
  priorStateDigest := smallDigest
  revision := smallRevision
  kind := .offerDelegation smallRoot.owner smallRoot
  sequenceBound := PositiveNumber.one_bound
  predecessor := by decide

/-- The same offer, below another task and owner and at another depth. -/
def misspelledOffer : Payload :=
  writeCommandHead sampleOffer ++ (writeU8 2 ++ (writeId smallRoot.owner
    ++ writeDelegationAs smallRoot smallChild.taskId 7 smallChild.owner))

theorem reads_misspelledOffer (sha256 : List UInt8 → Sha256Digest) :
    Reads (readCommand sha256) misspelledOffer sampleOffer := by
  refine reads_commandWith ?_
  unfold readKind
  refine .offset fun start => ?_
  refine (Reads.u8 (by decide)).bind ?_
  exact (Reads.id _).bind ((reads_delegationAs rfl (by decide) _ _).map _)

theorem not_named_misspelledOffer :
    ¬ CommandNamed (canonical misspelledOffer) := by
  intro hnamed
  have hroot : NamesItself (canonical misspelledOffer) 218 :=
    hnamed 218 (by decide +kernel)
  have hdepth := (hroot (by decide +kernel)).2.1
  exact absurd hdepth (by decide +kernel)

theorem exists_misspelledFrame : ∃ frame,
    encodeMessage commandFamily schemaVersion misspelledOffer .production =
      .ok frame := by
  refine exists_ok_of_toOption_isSome ?_
  decide +kernel

/-- Whatever the hash, there are bytes that are decoded to a command which is
encoded to other bytes. -/
theorem root_fields_dropped : ¬ ∃ sha256, ∀ limits input command,
    decodeCommandFrame sha256 input limits = .ok command →
      encodeCommandFrame command limits = .ok input := by
  rintro ⟨sha256, hclaim⟩
  obtain ⟨frame, hframe⟩ := exists_misspelledFrame
  have hdecode : decodeCommandFrame sha256 frame .production =
      .ok sampleOffer :=
    decodeMessage_encodeMessage (reads_misspelledOffer sha256) (by decide)
      (by decide) hframe
  have hnamed := (encodeCommandFrame_iff_named hdecode).mp
    (hclaim _ _ _ hdecode)
  rw [drop_of_encodeMessage hframe] at hnamed
  exact not_named_misspelledOffer hnamed

theorem frame_codec_of_offer : ∃ frame,
    decodeCommandFrame (fun _ => smallDigest) frame .production =
      .ok sampleOffer ∧
    (encodeCommandFrame sampleOffer .production = .ok frame ↔
      CommandNamed (frame.drop headerLen)) ∧
    ∀ other, decodeCommandFrame (fun _ => smallDigest) other .production =
      .ok sampleOffer → CommandNamed (other.drop headerLen) → frame = other := by
  have hencodes : (encodeCommandFrame sampleOffer
      .production).toOption.isSome = true := by
    decide +kernel
  obtain ⟨frame, hframe⟩ := exists_ok_of_toOption_isSome hencodes
  obtain ⟨hdecodes, -, hnamed, -, hunique⟩ :=
    frame_codec (fun _ => smallDigest) .production
  have hdecoded := hdecodes sampleOffer frame trivial hframe
  have hself := (hnamed _ _ hdecoded).mp hframe
  exact ⟨frame, hdecoded, hnamed _ _ hdecoded,
    fun other hother h => hunique _ _ _ hdecoded hother hself h⟩

end Codec

end Peritus.Collaboration.Spelling
