import Peritus.Codec.Frame
import Peritus.Codec.Revision
import Peritus.Scheduler.Canonical

/-!
Scheduler values on the wire and the family-70 command frame: a command and the
bytes it is encoded as determine each other.
-/

namespace Peritus.Scheduler.Wire

open Peritus.Types Checked SortedTable Codec.Writer Codec.Reader Codec.Canonicity
open Codec.Frame Codec.Revision Limits Resource State Canonical

/-! ### Tags -/

def failureDispositionTag : FailureDisposition → Nat
  | .retryable => 1
  | .failed => 2
  | .ambiguous => 3

def classOfTag : Nat → Option ExecutionClass
  | 1 => some .model
  | 2 => some .tool
  | 3 => some .gate
  | 4 => some .review
  | 5 => some .coordination
  | _ => none

def recoveryOfTag : Nat → Option RecoveryPolicy
  | 1 => some .retrySafe
  | 2 => some .ambiguous
  | 3 => some .fail
  | _ => none

def dispositionOfTag : Nat → Option FailureDisposition
  | 1 => some .retryable
  | 2 => some .failed
  | 3 => some .ambiguous
  | _ => none

/-! ### Writers -/

def writeEntry (value : ResourceEntry) : Payload :=
  writeU16 value.kind.tag ++ writeU64 value.quantity.get

def writeResources (value : ResourceVector) : Payload :=
  writeList value.entries writeEntry

def writeLimits (value : SchedulerLimits) : Payload :=
  writeU32 value.queuedWork ++ writeU32 value.retainedWork
    ++ writeU16 value.workers ++ writeU16 value.dependenciesPerWork
    ++ writeU16 value.resourceDimensions ++ writeU16 value.activeReservations
    ++ writeU16 value.attemptsPerWork ++ writeU16 value.bypassCount
    ++ writeU16 value.dispatchBatchSize ++ writeU64 value.payloadBytes
    ++ writeU64 value.stateBytes

def writeBinding (value : SchedulerBinding) : Payload :=
  writeId value.runId ++ writeId value.schedulerId
    ++ writeRevision value.revision ++ writeLimits value.limits
    ++ writeResources value.capacity

def writeClass (value : ExecutionClass) : Payload :=
  writeU8 (executionClassTag value)

def writeDescriptor (value : WorkerDescriptor) : Payload :=
  writeId value.id ++ writeId value.owner ++ writeList value.classes writeClass
    ++ writeResources value.capacity ++ writeU16 value.concurrency

def writeSpec (value : WorkSpec) : Payload :=
  writeId value.id ++ writeId value.owner ++ writeRevision value.revision
    ++ writeClass value.executionClass ++ writeU8 value.priority.toNat
    ++ writeResources value.request
    ++ writeOption value.budgetReservation writeId
    ++ writeList value.dependencies writeId
    ++ writeOption value.parent writeId ++ writeU16 value.maximumAttempts.get
    ++ writeU8 (recoveryPolicyTag value.recovery)
    ++ writeDigest value.payloadDigest

def writeKind : SchedulerCommandKind → Payload
  | .startScheduler binding => writeU8 1 ++ writeBinding binding
  | .registerWorker descriptor => writeU8 2 ++ writeDescriptor descriptor
  | .setWorkerAvailable workerId => writeU8 3 ++ writeId workerId
  | .drainWorker workerId => writeU8 4 ++ writeId workerId
  | .loseWorker workerId => writeU8 5 ++ writeId workerId
  | .removeWorker workerId => writeU8 6 ++ writeId workerId
  | .admitWork spec => writeU8 7 ++ writeSpec spec
  | .dispatchNext dispatchId dispatchToken =>
      writeU8 8 ++ (writeId dispatchId ++ writeDigest dispatchToken)
  | .acknowledgeStart dispatchId => writeU8 9 ++ writeId dispatchId
  | .completeWork dispatchId resultDigest =>
      writeU8 10 ++ (writeId dispatchId ++ writeDigest resultDigest)
  | .failWork dispatchId failureDigest disposition =>
      writeU8 11 ++ (writeId dispatchId ++ (writeDigest failureDigest
        ++ writeU8 (failureDispositionTag disposition)))
  | .retryWork workId => writeU8 12 ++ writeId workId
  | .cancelWork workId => writeU8 13 ++ writeId workId
  | .cancelWorkTree workId => writeU8 14 ++ writeId workId
  | .acknowledgeCancellation dispatchId => writeU8 15 ++ writeId dispatchId
  | .exhaustWork workId causeDigest =>
      writeU8 16 ++ (writeId workId ++ writeDigest causeDigest)
  | .abandonDispatch dispatchId causeDigest =>
      writeU8 17 ++ (writeId dispatchId ++ writeDigest causeDigest)
  | .pauseScheduler => writeU8 18
  | .resumeScheduler => writeU8 19
  | .drainScheduler => writeU8 20
  | .finalizeScheduler => writeU8 21

def writeCommand (command : SchedulerCommand) : Payload :=
  writeId command.commandId ++ writeId command.eventId
    ++ writeId command.runId ++ writeU64 command.expectedSequence
    ++ writeOption command.expectedPreviousEvent writeId
    ++ writeDigest command.priorStateDigest ++ writeRevision command.revision
    ++ writeKind command.kind

/-! ### Readers -/

/-- Both parts are refused where the vector starts. -/
def readEntry (start : Nat) : Reading ResourceEntry := do
  let tag ← readBounded 2
  let kind ← validatedAt start
    (ResourceKind.new tag.1 (Nat.le_of_lt_succ tag.2))
  let value ← readBounded 8
  let quantity ← validatedAt start
    (ResourceQuantity.new value.1 (word_bound value))
  return ⟨kind, quantity⟩

def readResources (maximum : Nat) : Reading ResourceVector := do
  let start ← offset
  let count ← readCollectionLen
  require (decide (count ≠ 0 ∧ count ≤ maximum)) .invalidDomainValue
  let entries ← readMany (readEntry start) count
  validatedAt start (ResourceVector.new entries maximum)

def readLimits : Reading SchedulerLimits := do
  let start ← offset
  let queuedWork ← readU32
  let retainedWork ← readU32
  let workers ← readU16
  let dependenciesPerWork ← readU16
  let resourceDimensions ← readU16
  let activeReservations ← readU16
  let attemptsPerWork ← readU16
  let bypassCount ← readU16
  let dispatchBatchSize ← readU16
  let payloadBytes ← readU64
  let stateBytes ← readU64
  validatedAt start (SchedulerLimits.new queuedWork retainedWork workers
    dependenciesPerWork resourceDimensions activeReservations attemptsPerWork
    bypassCount dispatchBatchSize payloadBytes stateBytes)

def readBinding (semantics : SchedulerSemantics) :
    Reading SchedulerBinding := do
  let start ← offset
  let runId ← readId
  let schedulerId ← readId
  let revision ← readRevision
  let limits ← readLimits
  let capacity ← readResources limits.resourceDimensions
  validatedAt start (SchedulerBinding.fromWire semantics runId schedulerId
    revision limits capacity)

def readClass : Reading ExecutionClass := readTag classOfTag

def readDescriptor (limits : SchedulerLimits) : Reading WorkerDescriptor := do
  let start ← offset
  let id ← readId
  let owner ← readId
  let count ← readCollectionLen
  require (decide (count ≠ 0 ∧ count ≤ 5)) .invalidDomainValue
  let classes ← readMany readClass count
  let capacity ← readResources limits.resourceDimensions
  let concurrency ← readU16
  validatedAt start (WorkerDescriptor.new id owner classes capacity concurrency
    limits)

def readAttempt : Reading AttemptNumber := do
  let start ← offset
  let value ← readU16
  validatedAt start (AttemptNumber.new value)

def readSpec (limits : SchedulerLimits) : Reading WorkSpec := do
  let start ← offset
  let id ← readId
  let owner ← readId
  let revision ← readRevision
  let executionClass ← readClass
  let priority ← readU8
  let request ← readResources limits.resourceDimensions
  let budgetReservation ← readOption readId
  let count ← readCollectionLen
  require (decide (count ≤ limits.dependenciesPerWork)) .invalidDomainValue
  let dependencies ← readMany readId count
  let parent ← readOption readId
  let maximumAttempts ← readAttempt
  let recovery ← readTag recoveryOfTag
  let payloadDigest ← readDigest
  validatedAt start (WorkSpec.new id owner revision executionClass
    (.ofNat priority) request budgetReservation dependencies parent
    maximumAttempts recovery payloadDigest limits)

def readKind (semantics : SchedulerSemantics) :
    Reading SchedulerCommandKind := do
  let start ← offset
  match ← readU8 with
  | 1 => return .startScheduler (← readBinding semantics)
  | 2 => return .registerWorker (← readDescriptor .production)
  | 3 => return .setWorkerAvailable (← readId)
  | 4 => return .drainWorker (← readId)
  | 5 => return .loseWorker (← readId)
  | 6 => return .removeWorker (← readId)
  | 7 => return .admitWork (← readSpec .production)
  | 8 => return .dispatchNext (← readId) (← readDigest)
  | 9 => return .acknowledgeStart (← readId)
  | 10 => return .completeWork (← readId) (← readDigest)
  | 11 =>
      return .failWork (← readId) (← readDigest) (← readTag dispositionOfTag)
  | 12 => return .retryWork (← readId)
  | 13 => return .cancelWork (← readId)
  | 14 => return .cancelWorkTree (← readId)
  | 15 => return .acknowledgeCancellation (← readId)
  | 16 => return .exhaustWork (← readId) (← readDigest)
  | 17 => return .abandonDispatch (← readId) (← readDigest)
  | 18 => return .pauseScheduler
  | 19 => return .resumeScheduler
  | 20 => return .drainScheduler
  | 21 => return .finalizeScheduler
  | _ => fail (.at .unknownTag start)

/-- What `from_wire` builds of fields that have been checked before. -/
def commandFromWire (semantics : SchedulerSemantics) (commandId : CommandId)
    (eventId : EventId) (runId : RunId)
    (expectedSequence : { number : Nat // number < 256 ^ 8 })
    (expectedPreviousEvent : Option EventId) (priorStateDigest : Sha256Digest)
    (revision : RevisionTuple) (kind : SchedulerCommandKind) :
    Except SchedulerError SchedulerCommand :=
  if hchecked : (expectedSequence.1 = 0 ↔ expectedPreviousEvent = none) ∧
      kind.agrees semantics = true then
    .ok
      { semantics, commandId, eventId, runId
        expectedSequence := expectedSequence.1
        expectedPreviousEvent, priorStateDigest, revision, kind
        sequenceBound := word_bound expectedSequence
        predecessor := hchecked.1
        genesis := hchecked.2 }
  else .error (reject .codec "unchecked scheduler command")

def readCommand (semantics : SchedulerSemantics) :
    Reading SchedulerCommand := do
  let commandId ← readId
  let eventId ← readId
  let runId ← readId
  let expectedSequence ← readBounded 8
  let previous ← readOption readId
  require (decide (expectedSequence.1 = 0 ↔ previous = none))
    .invalidDomainValue
  let prior ← readDigest
  let revision ← readRevision
  let kind ← readKind semantics
  validated (commandFromWire semantics commandId eventId runId expectedSequence
    previous prior revision kind)

/-! ### Reading back -/

theorem reads_class (value : ExecutionClass) :
    Reads readClass (writeClass value) value := by
  cases value <;> exact .tag (by decide) rfl

theorem reads_recovery (value : RecoveryPolicy) :
    Reads (readTag recoveryOfTag) (writeU8 (recoveryPolicyTag value)) value := by
  cases value <;> exact .tag (by decide) rfl

theorem reads_disposition (value : FailureDisposition) :
    Reads (readTag dispositionOfTag)
      (writeU8 (failureDispositionTag value)) value := by
  cases value <;> exact .tag (by decide) rfl

theorem reads_entry (start : Nat) (value : ResourceEntry) :
    Reads (readEntry start) (writeEntry value) value := by
  unfold readEntry writeEntry
  refine (Reads.bounded (Nat.lt_succ_of_le value.kind.bound)).bind ?_
  refine (Reads.validatedAt value.kind.new_self).bind ?_
  show Reads _ (writeU64 value.quantity.get ++ []) value
  refine (Reads.bounded (Nat.lt_succ_of_le value.quantity.bound)).bind ?_
  exact (Reads.validatedAt value.quantity.new_self).map _

theorem reads_resources {value : ResourceVector} {maximum : Nat}
    (hmaximum : value.entries.length ≤ maximum) :
    Reads (readResources maximum) (writeResources value) value := by
  have hnonempty : value.entries.length ≠ 0 :=
    fun h => value.nonempty (List.eq_nil_of_length_eq_zero h)
  unfold readResources writeResources writeList
  refine .offset fun start => ?_
  refine (Reads.collectionLen _).bind ?_
  refine .require (decide_eq_true ⟨hnonempty, hmaximum⟩) ?_
  rw [← List.append_nil (value.entries.flatMap writeEntry)]
  refine (Reads.many fun entry _ => reads_entry start entry).bind ?_
  exact .validatedAt (ResourceVector.new_self hmaximum)

theorem reads_limits (value : SchedulerLimits) :
    Reads readLimits (writeLimits value) value := by
  obtain ⟨hqueued, hretained, hworkers, hdependencies, hdimensions, hactive,
    hattempts, hbypass, hbatch, hpayload, hstate⟩ := value.le_production
  unfold readLimits writeLimits
  simp only [List.append_assoc]
  refine .offset fun start => ?_
  refine (Reads.u32 (by omega)).bind ?_
  refine (Reads.u32 (by omega)).bind ?_
  refine (Reads.u16 (by omega)).bind ?_
  refine (Reads.u16 (by omega)).bind ?_
  refine (Reads.u16 (by omega)).bind ?_
  refine (Reads.u16 (by omega)).bind ?_
  refine (Reads.u16 (by omega)).bind ?_
  refine (Reads.u16 (by omega)).bind ?_
  refine (Reads.u16 (by omega)).bind ?_
  refine (Reads.u64 (by omega)).bind ?_
  rw [← List.append_nil (writeU64 value.stateBytes)]
  refine (Reads.u64 (by omega)).bind ?_
  exact .validatedAt value.new_self

theorem reads_binding (value : SchedulerBinding) :
    Reads (readBinding value.semantics) (writeBinding value) value := by
  unfold readBinding writeBinding
  simp only [List.append_assoc]
  refine .offset fun start => ?_
  refine (Reads.id _).bind ?_
  refine (Reads.id _).bind ?_
  refine (reads_revision _).bind ?_
  refine (reads_limits _).bind ?_
  rw [← List.append_nil (writeResources value.capacity)]
  refine (reads_resources value.dimensions).bind ?_
  exact .validatedAt value.fromWire_self

/-- A canonical list of classes names each of the five at most once. -/
theorem length_classes_le (value : WorkerDescriptor) :
    value.classes.length ≤ 5 := by
  have hbound : ∀ rank ∈ value.classes.map ExecutionClass.rank, rank < 5 := by
    intro rank hrank
    obtain ⟨found, -, rfl⟩ := List.mem_map.mp hrank
    cases found <;> decide
  have hnodup : (value.classes.map ExecutionClass.rank).Nodup :=
    (List.pairwise_map.mpr value.canonical).imp Nat.ne_of_lt
  have hsub : value.classes.map ExecutionClass.rank ⊆ List.range 5 :=
    fun rank hrank => List.mem_range.mpr (hbound rank hrank)
  have hlength := (hnodup.subperm hsub).length_le
  rwa [List.length_map, List.length_range] at hlength

theorem reads_descriptor (value : WorkerDescriptor) :
    Reads (readDescriptor .production) (writeDescriptor value) value := by
  have hnonempty : value.classes.length ≠ 0 :=
    fun h => value.nonempty (List.eq_nil_of_length_eq_zero h)
  have hbound : value.concurrency ≤ 4096 := value.bound
  unfold readDescriptor writeDescriptor writeList
  simp only [List.append_assoc]
  refine .offset fun start => ?_
  refine (Reads.id _).bind ?_
  refine (Reads.id _).bind ?_
  refine (Reads.collectionLen _).bind ?_
  refine .require (decide_eq_true ⟨hnonempty, length_classes_le value⟩) ?_
  refine (Reads.many fun found _ => reads_class found).bind ?_
  refine (reads_resources value.dimensions).bind ?_
  rw [← List.append_nil (writeU16 value.concurrency)]
  refine (Reads.u16 (by omega)).bind ?_
  exact .validatedAt (WorkerDescriptor.new_self value.bound value.dimensions)

theorem reads_attempt (value : AttemptNumber) :
    Reads readAttempt (writeU16 value.get) value := by
  unfold readAttempt
  refine .offset fun start => ?_
  rw [← List.append_nil (writeU16 value.get)]
  refine (Reads.u16 (Nat.lt_succ_of_le value.bound)).bind ?_
  exact .validatedAt value.new_self

theorem reads_spec (value : WorkSpec) :
    Reads (readSpec .production) (writeSpec value) value := by
  unfold readSpec writeSpec
  simp only [List.append_assoc]
  refine .offset fun start => ?_
  refine (Reads.id _).bind ?_
  refine (Reads.id _).bind ?_
  refine (reads_revision _).bind ?_
  refine (reads_class _).bind ?_
  refine (Reads.u8 value.priority.toNat_lt).bind ?_
  refine (reads_resources value.dimensions).bind ?_
  refine (Reads.option fun id _ => Reads.id id).bind ?_
  rw [writeList, List.append_assoc]
  refine (Reads.collectionLen _).bind ?_
  refine .require (decide_eq_true value.dependencyBound) ?_
  refine (Reads.many fun id _ => Reads.id id).bind ?_
  refine (Reads.option fun id _ => Reads.id id).bind ?_
  refine (reads_attempt _).bind ?_
  refine (reads_recovery _).bind ?_
  rw [← List.append_nil (writeDigest value.payloadDigest)]
  refine (Reads.digest _).bind ?_
  rw [UInt8.ofNat_toNat]
  exact .validatedAt (WorkSpec.new_self value.dependencyBound
    value.attemptBound value.dimensions)

theorem reads_kind {semantics : SchedulerSemantics}
    {kind : SchedulerCommandKind} (hgenesis : kind.agrees semantics = true) :
    Reads (readKind semantics) (writeKind kind) kind := by
  unfold readKind
  refine .offset fun start => ?_
  cases kind with
  | startScheduler binding =>
      have hsemantics : binding.semantics = semantics :=
        of_decide_eq_true hgenesis
      rw [← hsemantics]
      exact (Reads.u8 (by decide)).bind ((reads_binding binding).map _)
  | registerWorker descriptor =>
      exact (Reads.u8 (by decide)).bind ((reads_descriptor descriptor).map _)
  | setWorkerAvailable workerId =>
      exact (Reads.u8 (by decide)).bind ((Reads.id workerId).map _)
  | drainWorker workerId =>
      exact (Reads.u8 (by decide)).bind ((Reads.id workerId).map _)
  | loseWorker workerId =>
      exact (Reads.u8 (by decide)).bind ((Reads.id workerId).map _)
  | removeWorker workerId =>
      exact (Reads.u8 (by decide)).bind ((Reads.id workerId).map _)
  | admitWork spec =>
      exact (Reads.u8 (by decide)).bind ((reads_spec spec).map _)
  | dispatchNext dispatchId dispatchToken =>
      exact (Reads.u8 (by decide)).bind ((Reads.id dispatchId).bind
        ((Reads.digest dispatchToken).map _))
  | acknowledgeStart dispatchId =>
      exact (Reads.u8 (by decide)).bind ((Reads.id dispatchId).map _)
  | completeWork dispatchId resultDigest =>
      exact (Reads.u8 (by decide)).bind ((Reads.id dispatchId).bind
        ((Reads.digest resultDigest).map _))
  | failWork dispatchId failureDigest disposition =>
      exact (Reads.u8 (by decide)).bind ((Reads.id dispatchId).bind
        ((Reads.digest failureDigest).bind
          ((reads_disposition disposition).map _)))
  | retryWork workId =>
      exact (Reads.u8 (by decide)).bind ((Reads.id workId).map _)
  | cancelWork workId =>
      exact (Reads.u8 (by decide)).bind ((Reads.id workId).map _)
  | cancelWorkTree workId =>
      exact (Reads.u8 (by decide)).bind ((Reads.id workId).map _)
  | acknowledgeCancellation dispatchId =>
      exact (Reads.u8 (by decide)).bind ((Reads.id dispatchId).map _)
  | exhaustWork workId causeDigest =>
      exact (Reads.u8 (by decide)).bind ((Reads.id workId).bind
        ((Reads.digest causeDigest).map _))
  | abandonDispatch dispatchId causeDigest =>
      exact (Reads.u8 (by decide)).bind ((Reads.id dispatchId).bind
        ((Reads.digest causeDigest).map _))
  | pauseScheduler => exact (Reads.u8 (by decide)).bind (.pure _)
  | resumeScheduler => exact (Reads.u8 (by decide)).bind (.pure _)
  | drainScheduler => exact (Reads.u8 (by decide)).bind (.pure _)
  | finalizeScheduler => exact (Reads.u8 (by decide)).bind (.pure _)

theorem commandFromWire_self (value : SchedulerCommand) :
    commandFromWire value.semantics value.commandId value.eventId value.runId
      ⟨value.expectedSequence, Nat.lt_succ_of_le value.sequenceBound⟩
      value.expectedPreviousEvent value.priorStateDigest value.revision
      value.kind = .ok value :=
  dif_pos ⟨value.predecessor, value.genesis⟩

theorem reads_command (value : SchedulerCommand) :
    Reads (readCommand value.semantics) (writeCommand value) value := by
  unfold readCommand writeCommand
  simp only [List.append_assoc]
  refine (Reads.id _).bind ?_
  refine (Reads.id _).bind ?_
  refine (Reads.id _).bind ?_
  refine (Reads.bounded (Nat.lt_succ_of_le value.sequenceBound)).bind ?_
  refine (Reads.option fun id _ => Reads.id id).bind ?_
  refine .require (decide_eq_true value.predecessor) ?_
  refine (Reads.digest _).bind ?_
  refine (reads_revision _).bind ?_
  rw [← List.append_nil (writeKind value.kind)]
  refine (reads_kind value.genesis).bind ?_
  exact .checked (commandFromWire_self value)

/-! ### What is taken -/

theorem takes_class : Takes readClass writeClass := by
  refine takes_tag fun number found h => ?_
  unfold classOfTag at h
  split at h <;> cases h <;> rfl

theorem takes_recovery : Takes (readTag recoveryOfTag)
    fun value => writeU8 (recoveryPolicyTag value) := by
  refine takes_tag fun number found h => ?_
  unfold recoveryOfTag at h
  split at h <;> cases h <;> rfl

theorem takes_disposition : Takes (readTag dispositionOfTag)
    fun value => writeU8 (failureDispositionTag value) := by
  refine takes_tag fun number found h => ?_
  unfold dispositionOfTag at h
  split at h <;> cases h <;> rfl

theorem takes_entry (start : Nat) : Takes (readEntry start) writeEntry := by
  intro reader value next h
  simp only [readEntry, reading_bind_eq_ok_iff, validatedAt_eq_ok_iff,
    reading_pure_eq_ok_iff] at h
  obtain ⟨tag, _, htag, kind, _, ⟨hkind, rfl⟩, number, _, hnumber, quantity, _,
    ⟨hquantity, rfl⟩, rfl, rfl⟩ := h
  have hfirst := taken_bounded htag
  have hsecond := taken_bounded hnumber
  rw [← ResourceKind.tag_of_new hkind] at hfirst
  rw [← ResourceQuantity.get_of_new hquantity] at hsecond
  exact hfirst.append hsecond

theorem takes_resources (maximum : Nat) :
    Takes (readResources maximum) writeResources := by
  intro reader value next h
  simp only [readResources, reading_bind_eq_ok_iff, offset_eq_ok_iff,
    require_eq_ok_iff, validatedAt_eq_ok_iff] at h
  obtain ⟨start, _, ⟨-, rfl⟩, count, _, hcount, _, _, ⟨-, rfl⟩, entries, _,
    hentries, hvalue, rfl⟩ := h
  have htaken := taken_list (takes_entry start) hcount hentries
  rw [← ResourceVector.entries_of_new hvalue] at htaken
  exact htaken

theorem takes_limits : Takes readLimits writeLimits := by
  intro reader value next h
  simp only [readLimits, reading_bind_eq_ok_iff, offset_eq_ok_iff,
    validatedAt_eq_ok_iff] at h
  obtain ⟨_, _, ⟨-, rfl⟩, _, _, hqueued, _, _, hretained, _, _, hworkers, _, _,
    hdependencies, _, _, hdimensions, _, _, hactive, _, _, hattempts, _, _,
    hbypass, _, _, hbatch, _, _, hpayload, _, _, hstate, hvalue, rfl⟩ := h
  obtain ⟨rfl, rfl, rfl, rfl, rfl, rfl, rfl, rfl, rfl, rfl, rfl⟩ :=
    SchedulerLimits.fields_of_new hvalue
  exact ((((((((((takes_u32 _ _ _ hqueued).append
    (takes_u32 _ _ _ hretained)).append
    (takes_u16 _ _ _ hworkers)).append
    (takes_u16 _ _ _ hdependencies)).append
    (takes_u16 _ _ _ hdimensions)).append
    (takes_u16 _ _ _ hactive)).append
    (takes_u16 _ _ _ hattempts)).append
    (takes_u16 _ _ _ hbypass)).append
    (takes_u16 _ _ _ hbatch)).append
    (takes_u64 _ _ _ hpayload)).append
    (takes_u64 _ _ _ hstate)

theorem takes_binding (semantics : SchedulerSemantics) :
    Takes (readBinding semantics) writeBinding := by
  intro reader value next h
  simp only [readBinding, reading_bind_eq_ok_iff, offset_eq_ok_iff,
    validatedAt_eq_ok_iff] at h
  obtain ⟨_, _, ⟨-, rfl⟩, _, _, hrun, _, _, hscheduler, _, _, hrevision, _, _,
    hlimits, _, _, hcapacity, hvalue, rfl⟩ := h
  obtain ⟨-, rfl, rfl, rfl, rfl, rfl⟩ :=
    SchedulerBinding.fields_of_fromWire hvalue
  exact ((((takes_id _ _ _ hrun).append
    (takes_id _ _ _ hscheduler)).append
    (takes_revision _ _ _ hrevision)).append
    (takes_limits _ _ _ hlimits)).append
    (takes_resources _ _ _ _ hcapacity)

theorem takes_descriptor (limits : SchedulerLimits) :
    Takes (readDescriptor limits) writeDescriptor := by
  intro reader value next h
  simp only [readDescriptor, reading_bind_eq_ok_iff, offset_eq_ok_iff,
    require_eq_ok_iff, validatedAt_eq_ok_iff] at h
  obtain ⟨_, _, ⟨-, rfl⟩, _, _, hid, _, _, howner, _, _, hcount, _, _,
    ⟨-, rfl⟩, _, _, hclasses, _, _, hcapacity, _, _, hconcurrency, hvalue,
    rfl⟩ := h
  obtain ⟨rfl, rfl, rfl, rfl, rfl⟩ := WorkerDescriptor.fields_of_new hvalue
  exact ((((takes_id _ _ _ hid).append
    (takes_id _ _ _ howner)).append
    (taken_list takes_class hcount hclasses)).append
    (takes_resources _ _ _ _ hcapacity)).append
    (takes_u16 _ _ _ hconcurrency)

theorem takes_attempt : Takes readAttempt fun value => writeU16 value.get := by
  intro reader value next h
  simp only [readAttempt, reading_bind_eq_ok_iff, offset_eq_ok_iff,
    validatedAt_eq_ok_iff] at h
  obtain ⟨_, _, ⟨-, rfl⟩, _, _, hnumber, hvalue, rfl⟩ := h
  have htaken := takes_u16 _ _ _ hnumber
  rw [← AttemptNumber.get_of_new hvalue] at htaken
  exact htaken

theorem takes_spec (limits : SchedulerLimits) :
    Takes (readSpec limits) writeSpec := by
  intro reader value next h
  simp only [readSpec, reading_bind_eq_ok_iff, offset_eq_ok_iff,
    require_eq_ok_iff, validatedAt_eq_ok_iff] at h
  obtain ⟨_, _, ⟨-, rfl⟩, _, _, hid, _, _, howner, _, _, hrevision, _, _,
    hclass, priority, _, hpriority, _, _, hrequest, _, _, hbudget, _, _, hcount,
    _, _, ⟨-, rfl⟩, _, _, hdependencies, _, _, hparent, _, _, hattempts, _, _,
    hrecovery, _, _, hdigest, hvalue, rfl⟩ := h
  obtain ⟨rfl, rfl, rfl, rfl, hsame, rfl, rfl, rfl, rfl, rfl, rfl, rfl⟩ :=
    WorkSpec.fields_of_new hvalue
  have hbound := (taken_uint hpriority).1
  have hbyte : value.priority.toNat = priority := by
    rw [hsame]
    exact UInt8.toNat_ofNat_of_lt' hbound
  have htaken := takes_u8 _ _ _ hpriority
  rw [← hbyte] at htaken
  exact (((((((((((takes_id _ _ _ hid).append
    (takes_id _ _ _ howner)).append
    (takes_revision _ _ _ hrevision)).append
    (takes_class _ _ _ hclass)).append
    htaken).append
    (takes_resources _ _ _ _ hrequest)).append
    (takes_id.option _ _ _ hbudget)).append
    (taken_list takes_id hcount hdependencies)).append
    (takes_id.option _ _ _ hparent)).append
    (takes_attempt _ _ _ hattempts)).append
    (takes_recovery _ _ _ hrecovery)).append
    (takes_digest _ _ _ hdigest)

theorem takes_kind (semantics : SchedulerSemantics) :
    Takes (readKind semantics) writeKind := by
  intro reader value next h
  rw [readKind, reading_bind_eq_ok_iff] at h
  obtain ⟨start, _, hstart, h⟩ := h
  obtain ⟨-, rfl⟩ := offset_eq_ok_iff.mp hstart
  rw [reading_bind_eq_ok_iff] at h
  obtain ⟨number, middle, hnumber, h⟩ := h
  have htag := takes_u8 _ _ _ hnumber
  split at h
  · exact htag.variant (takes_binding semantics) (fun _ => rfl) h
  · exact htag.variant (takes_descriptor .production) (fun _ => rfl) h
  · exact htag.variant takes_id (fun _ => rfl) h
  · exact htag.variant takes_id (fun _ => rfl) h
  · exact htag.variant takes_id (fun _ => rfl) h
  · exact htag.variant takes_id (fun _ => rfl) h
  · exact htag.variant (takes_spec .production) (fun _ => rfl) h
  · exact htag.variant₂ takes_id takes_digest (fun _ _ => rfl) h
  · exact htag.variant takes_id (fun _ => rfl) h
  · exact htag.variant₂ takes_id takes_digest (fun _ _ => rfl) h
  · simp only [reading_bind_eq_ok_iff, reading_pure_eq_ok_iff] at h
    obtain ⟨_, _, hid, _, _, hdigest, _, _, hdisposition, rfl, rfl⟩ := h
    exact htag.append ((takes_id _ _ _ hid).append
      ((takes_digest _ _ _ hdigest).append
        (takes_disposition _ _ _ hdisposition)))
  · exact htag.variant takes_id (fun _ => rfl) h
  · exact htag.variant takes_id (fun _ => rfl) h
  · exact htag.variant takes_id (fun _ => rfl) h
  · exact htag.variant takes_id (fun _ => rfl) h
  · exact htag.variant₂ takes_id takes_digest (fun _ _ => rfl) h
  · exact htag.variant₂ takes_id takes_digest (fun _ _ => rfl) h
  · exact htag.variant₀ rfl h
  · exact htag.variant₀ rfl h
  · exact htag.variant₀ rfl h
  · exact htag.variant₀ rfl h
  · exact absurd h fail_ne_ok

theorem fields_of_commandFromWire {semantics : SchedulerSemantics}
    {commandId : CommandId} {eventId : EventId} {runId : RunId}
    {expectedSequence : { number : Nat // number < 256 ^ 8 }}
    {previous : Option EventId} {prior : Sha256Digest}
    {revision : RevisionTuple} {kind : SchedulerCommandKind}
    {command : SchedulerCommand}
    (h : commandFromWire semantics commandId eventId runId expectedSequence
      previous prior revision kind = .ok command) :
    command.semantics = semantics ∧ command.commandId = commandId ∧
      command.eventId = eventId ∧ command.runId = runId ∧
      command.expectedSequence = expectedSequence.1 ∧
      command.expectedPreviousEvent = previous ∧
      command.priorStateDigest = prior ∧ command.revision = revision ∧
      command.kind = kind := by
  unfold commandFromWire at h
  split at h
  · cases h
    exact ⟨rfl, rfl, rfl, rfl, rfl, rfl, rfl, rfl, rfl⟩
  · cases h

theorem takes_command (semantics : SchedulerSemantics) :
    Takes (readCommand semantics) writeCommand := by
  intro reader value next h
  simp only [readCommand, reading_bind_eq_ok_iff, require_eq_ok_iff,
    validated_eq_ok_iff] at h
  obtain ⟨_, _, hid, _, _, hevent, _, _, hrun, _, _, hsequence, _, _, hprevious,
    _, _, ⟨-, rfl⟩, _, _, hprior, _, _, hrevision, _, _, hkind, hvalue,
    rfl⟩ := h
  obtain ⟨-, rfl, rfl, rfl, hsame, rfl, rfl, rfl, rfl⟩ :=
    fields_of_commandFromWire hvalue
  have htaken := taken_bounded hsequence
  rw [← hsame] at htaken
  exact (((((((takes_id _ _ _ hid).append
    (takes_id _ _ _ hevent)).append
    (takes_id _ _ _ hrun)).append
    htaken).append
    (takes_id.option _ _ _ hprevious)).append
    (takes_digest _ _ _ hprior)).append
    (takes_revision _ _ _ hrevision)).append
    (takes_kind semantics _ _ _ hkind)

theorem semantics_of_readCommand {semantics : SchedulerSemantics}
    {reader next : CanonicalReader} {command : SchedulerCommand}
    (h : readCommand semantics reader = .ok (command, next)) :
    command.semantics = semantics := by
  simp only [readCommand, reading_bind_eq_ok_iff, validated_eq_ok_iff] at h
  obtain ⟨_, _, -, _, _, -, _, _, -, _, _, -, _, _, -, _, _, -, _, _, -, _, _, -,
    _, _, -, hvalue, -⟩ := h
  exact (fields_of_commandFromWire hvalue).1

/-! ### Command frames -/

def commandFamily : Nat := 70

/-- What `encode_payload` of the frame of one schema writes. -/
def encodeCommandFrame (command : SchedulerCommand)
    (semantics : SchedulerSemantics) (limits : CodecLimits) :
    Except CodecError (List UInt8) := do
  ensure (decide (command.semantics = semantics)) (.at .wrongSchemaVersion 8)
  encodeMessage commandFamily semantics.schemaVersion (writeCommand command)
    limits

def decodeCommandFrame (semantics : SchedulerSemantics) (input : List UInt8)
    (limits : CodecLimits) : Except CodecError SchedulerCommand :=
  decodeMessage commandFamily semantics.schemaVersion (readCommand semantics)
    input limits

def encodeSchedulerCommand (command : SchedulerCommand)
    (limits : CodecLimits) : Except CodecError (List UInt8) :=
  encodeCommandFrame command command.semantics limits

/-- The schema that a checked frame header names. -/
def schedulerSemantics (input : List UInt8) (limits : CodecLimits)
    (expectedFamily : Nat) : Except CodecError SchedulerSemantics := do
  let frame ← decodeFrame input limits
  ensure (decide (frame.header.family = expectedFamily)) (.at .wrongFamily 6)
  match SchedulerSemantics.fromSchemaVersion frame.header.schemaVersion with
  | some semantics => .ok semantics
  | none => .error (.at .wrongSchemaVersion 8)

def decodeSchedulerCommand (input : List UInt8) (limits : CodecLimits) :
    Except CodecError SchedulerCommand := do
  let semantics ← schedulerSemantics input limits commandFamily
  decodeCommandFrame semantics input limits

section RoundTrip

variable {limits : CodecLimits} {command : SchedulerCommand}
variable {input : List UInt8}

theorem fromSchemaVersion_schemaVersion (semantics : SchedulerSemantics) :
    SchedulerSemantics.fromSchemaVersion semantics.schemaVersion =
      some semantics := by
  cases semantics <;> rfl

theorem schemaVersion_lt (semantics : SchedulerSemantics) :
    semantics.schemaVersion < 256 ^ 2 := by
  cases semantics <;> decide

theorem encodeCommandFrame_eq_ok_iff {semantics : SchedulerSemantics} :
    encodeCommandFrame command semantics limits = .ok input ↔
      command.semantics = semantics ∧
        encodeMessage commandFamily semantics.schemaVersion
          (writeCommand command) limits = .ok input := by
  unfold encodeCommandFrame
  rw [ensure_bind_eq_ok_iff, decide_eq_true_eq]

theorem decodeCommandFrame_encodeCommandFrame {semantics : SchedulerSemantics}
    (h : encodeCommandFrame command semantics limits = .ok input) :
    decodeCommandFrame semantics input limits = .ok command := by
  obtain ⟨rfl, hencode⟩ := encodeCommandFrame_eq_ok_iff.mp h
  exact decodeMessage_encodeMessage (reads_command command) (by decide)
    (schemaVersion_lt _) hencode

theorem encodeCommandFrame_decodeCommandFrame {semantics : SchedulerSemantics}
    (h : decodeCommandFrame semantics input limits = .ok command) :
    encodeCommandFrame command semantics limits = .ok input := by
  obtain ⟨reader, next, hread⟩ := exists_read_of_decodeMessage h
  exact encodeCommandFrame_eq_ok_iff.mpr ⟨semantics_of_readCommand hread,
    encodeMessage_decodeMessage (takes_command semantics) h⟩

/-- The header of an encoded command selects the schema it was encoded in. -/
theorem schedulerSemantics_encodeSchedulerCommand
    (h : encodeSchedulerCommand command limits = .ok input) :
    schedulerSemantics input limits commandFamily = .ok command.semantics := by
  obtain ⟨-, hencode⟩ := encodeCommandFrame_eq_ok_iff.mp h
  obtain ⟨decoded, hdecoded, hfamily, hschema⟩ :=
    decodeFrame_encodeMessage (by decide) (schemaVersion_lt _) hencode
  unfold schedulerSemantics
  simp only [hdecoded, hfamily, hschema, decide_true, ensure_true,
    fromSchemaVersion_schemaVersion, bind, Except.bind]

theorem decodeSchedulerCommand_encodeSchedulerCommand
    (h : encodeSchedulerCommand command limits = .ok input) :
    decodeSchedulerCommand input limits = .ok command := by
  unfold decodeSchedulerCommand
  rw [schedulerSemantics_encodeSchedulerCommand h]
  exact decodeCommandFrame_encodeCommandFrame h

theorem encodeSchedulerCommand_decodeSchedulerCommand
    (h : decodeSchedulerCommand input limits = .ok command) :
    encodeSchedulerCommand command limits = .ok input := by
  unfold decodeSchedulerCommand at h
  rw [bind_eq_ok_iff] at h
  obtain ⟨semantics, -, hdecode⟩ := h
  have hencode := encodeCommandFrame_decodeCommandFrame hdecode
  obtain ⟨rfl, -⟩ := encodeCommandFrame_eq_ok_iff.mp hencode
  exact hencode

/-- Scheduler command codec: what is encoded is decoded to the same command,
what is decoded is encoded to the same bytes, and so two commands are equal
exactly if their bytes are. -/
theorem command_codec (limits : CodecLimits) :
    (∀ (command : SchedulerCommand) (frame : List UInt8),
      encodeSchedulerCommand command limits = .ok frame →
      decodeSchedulerCommand frame limits = .ok command) ∧
    (∀ (input : List UInt8) (command : SchedulerCommand),
      decodeSchedulerCommand input limits = .ok command →
      encodeSchedulerCommand command limits = .ok input) ∧
    (∀ (left right : SchedulerCommand) (leftBytes rightBytes : List UInt8),
      encodeSchedulerCommand left limits = .ok leftBytes →
      encodeSchedulerCommand right limits = .ok rightBytes →
      (left = right ↔ leftBytes = rightBytes)) := by
  refine ⟨?_, ?_, ?_⟩
  · intro command frame h
    exact decodeSchedulerCommand_encodeSchedulerCommand h
  · intro input command h
    exact encodeSchedulerCommand_decodeSchedulerCommand h
  · intro left right leftBytes rightBytes hleft hright
    constructor
    · rintro rfl
      exact Except.ok.inj (hleft.symm.trans hright)
    · rintro rfl
      have hdecoded := decodeSchedulerCommand_encodeSchedulerCommand hleft
      rw [decodeSchedulerCommand_encodeSchedulerCommand hright] at hdecoded
      exact (Except.ok.inj hdecoded).symm

end RoundTrip

def sampleRevision : RevisionTuple where
  acceptanceSpecId := .ofNat 1
  harnessId := .ofNat 2
  workspaceId := .ofNat 3
  workspaceGeneration := PositiveNumber.first
  workspaceRevision := PositiveNumber.first
  policyId := .ofNat 4
  providerProfileId := .ofNat 5

/-- Work with a parent, a budget reservation and two dependencies. -/
def sampleSpec : WorkSpec where
  id := .ofNat 12
  owner := .ofNat 6
  revision := sampleRevision
  executionClass := .gate
  priority := 200
  request :=
    { entries :=
        [⟨.ofNat 1, .ofNat 8⟩,
          ⟨.ofNat 9, .ofNat 1⟩]
      nonempty := by decide
      canonical := by unfold Sorted; decide }
  budgetReservation := some (.ofNat 7)
  dependencies :=
    [.ofNat 10, .ofNat 11]
  parent := some (.ofNat 9)
  maximumAttempts := .ofNat 3
  recovery := .ambiguous
  payloadDigest := zeroDigest
  canonical := by unfold Sorted; decide
  notSelf := by decide
  otherParent := by decide
  dependencyBound := by decide
  attemptBound := by decide
  dimensions := by decide

def sampleAdmission : SchedulerCommand where
  semantics := .legacyQueueV1
  commandId := .ofNat 20
  eventId := .ofNat 21
  runId := .ofNat 22
  expectedSequence := 4
  expectedPreviousEvent := some (.ofNat 23)
  priorStateDigest := zeroDigest
  revision := sampleRevision
  kind := .admitWork sampleSpec
  sequenceBound := by decide
  predecessor := by decide
  genesis := rfl

def samplePause : SchedulerCommand :=
  { sampleAdmission with kind := .pauseScheduler, genesis := rfl }

theorem command_codec_of_admission : ∃ frame other,
    encodeSchedulerCommand sampleAdmission .production = .ok frame ∧
    encodeSchedulerCommand samplePause .production = .ok other ∧
    decodeSchedulerCommand frame .production = .ok sampleAdmission ∧
    encodeSchedulerCommand sampleAdmission .production = .ok frame ∧
    (sampleAdmission = samplePause ↔ frame = other) := by
  have hfirst : (encodeSchedulerCommand sampleAdmission
      .production).toOption.isSome = true := by
    decide +kernel
  have hsecond : (encodeSchedulerCommand samplePause
      .production).toOption.isSome = true := by
    decide +kernel
  obtain ⟨frame, hframe⟩ := exists_ok_of_toOption_isSome hfirst
  obtain ⟨other, hother⟩ := exists_ok_of_toOption_isSome hsecond
  obtain ⟨hdecodes, hencodes, hequal⟩ := command_codec .production
  have hdecoded := hdecodes _ _ hframe
  exact ⟨frame, other, hframe, hother, hdecoded, hencodes _ _ hdecoded,
    hequal _ _ _ _ hframe hother⟩

end Peritus.Scheduler.Wire
