import Peritus.Scheduler.State

/-!
Which queued work is dispatched next and on which worker: capacity left by the
live reservations, feasibility, and the order among feasible work.
-/

namespace Peritus.Scheduler.Selection

open Limits Resource State

def workerReservationCount (state : SchedulerState) (worker : WorkerId) : Nat :=
  state.reservations.countP fun reservation =>
    decide (reservation.workerId = worker)

/-! ### Capacity -/

/-- The running sum of reserved resources, as far as it fits the arithmetic. -/
inductive Aggregate
  | empty
  | value (vector : ResourceVector)
  | failed

def Aggregate.quantity (aggregate : Aggregate) (kind : ResourceKind) : Nat :=
  match aggregate with
  | .value vector => vector.quantity kind
  | .empty => 0
  | .failed => 0

def prepend (reservation : SchedulerReservation) (aggregate : Aggregate) :
    Aggregate :=
  match aggregate with
  | .empty => .value reservation.resources
  | .value current =>
      match current.aggregateAdd reservation.resources with
      | none => .failed
      | some vector => .value vector
  | .failed => .failed

/-- The source walks the reservations from the last to the first. -/
def aggregateGlobal (reservations : List SchedulerReservation) : Aggregate :=
  reservations.foldr prepend .empty

def aggregateWorker (reservations : List SchedulerReservation)
    (worker : WorkerId) : Aggregate :=
  reservations.foldr
    (fun reservation aggregate =>
      if reservation.workerId = worker then prepend reservation aggregate
      else aggregate)
    .empty

def aggregateFitsFrom (usage : Aggregate) (capacity : ResourceVector) :
    List ResourceEntry → Bool
  | [] => true
  | entry :: rest =>
      decide (usage.quantity entry.kind + entry.quantity.get ≤
        capacity.quantity entry.kind) && aggregateFitsFrom usage capacity rest

/-- The exact sums that the source falls back to, in `u128`. -/
def globalQuantityFrom (kind : ResourceKind) :
    List SchedulerReservation → Nat
  | [] => 0
  | reservation :: rest =>
      reservation.resources.quantity kind + globalQuantityFrom kind rest

def workerQuantityFrom (worker : WorkerId) (kind : ResourceKind) :
    List SchedulerReservation → Nat
  | [] => 0
  | reservation :: rest =>
      if reservation.workerId = worker then
        reservation.resources.quantity kind + workerQuantityFrom worker kind rest
      else workerQuantityFrom worker kind rest

def globalFitsFrom (reservations : List SchedulerReservation)
    (capacity : ResourceVector) : List ResourceEntry → Bool
  | [] => true
  | entry :: rest =>
      decide (globalQuantityFrom entry.kind reservations + entry.quantity.get ≤
        capacity.quantity entry.kind) &&
        globalFitsFrom reservations capacity rest

def workerFitsFrom (reservations : List SchedulerReservation)
    (worker : WorkerId) (capacity : ResourceVector) :
    List ResourceEntry → Bool
  | [] => true
  | entry :: rest =>
      decide (workerQuantityFrom worker entry.kind reservations
        + entry.quantity.get ≤ capacity.quantity entry.kind) &&
        workerFitsFrom reservations worker capacity rest

def globalFitsAfter (state : SchedulerState) (request : ResourceVector) : Bool :=
  if state.reservations.length > 4096 then false
  else
    match aggregateGlobal state.reservations with
    | .failed =>
        globalFitsFrom state.reservations state.binding.capacity request.entries
    | usage =>
        aggregateFitsFrom usage state.binding.capacity request.entries

def workerFitsAfter (state : SchedulerState) (worker : WorkerId)
    (capacity request : ResourceVector) : Bool :=
  if state.reservations.length > 4096 then false
  else
    match aggregateWorker state.reservations worker with
    | .failed =>
        workerFitsFrom state.reservations worker capacity request.entries
    | usage => aggregateFitsFrom usage capacity request.entries

/-! ### Feasibility -/

def workerIsFeasibleFor (state : SchedulerState) (work : WorkRecord)
    (worker : WorkerRecord) : Bool :=
  decide (worker.phase = .available) &&
    decide (worker.descriptor.owner = work.spec.owner) &&
    worker.descriptor.supports work.spec.executionClass &&
    decide (workerReservationCount state worker.id <
      worker.descriptor.concurrency) &&
    workerFitsAfter state worker.id worker.descriptor.capacity work.spec.request

/-- The place of the first worker the record can run on. -/
def firstFeasibleWorker (state : SchedulerState) (work : WorkRecord) :
    Option Nat :=
  if work.phase = .queued ∧ globalFitsAfter state work.spec.request = true then
    state.workers.findIdx? fun worker => workerIsFeasibleFor state work worker
  else none

def candidatePrecedes (state : SchedulerState) (left right : WorkRecord) :
    Bool :=
  let limit := state.binding.limits.bypassCount
  let leftAged := decide (limit ≤ left.bypasses)
  let rightAged := decide (limit ≤ right.bypasses)
  if leftAged ≠ rightAged then leftAged
  else if left.spec.priority ≠ right.spec.priority then
    decide (right.spec.priority < left.spec.priority)
  else if left.enqueueOrdinal ≠ right.enqueueOrdinal then
    decide (left.enqueueOrdinal < right.enqueueOrdinal)
  else decide (left.spec.id < right.spec.id)

/-- A place in the work table with its record, and the worker chosen for it. -/
structure Candidate where
  workIndex : Nat
  record : WorkRecord
  workerIndex : Nat

def considerWork (state : SchedulerState) (workIndex : Nat)
    (record : WorkRecord) (chosen : Option Candidate) : Option Candidate :=
  match firstFeasibleWorker state record with
  | none => chosen
  | some workerIndex =>
      match chosen with
      | none => some ⟨workIndex, record, workerIndex⟩
      | some current =>
          if candidatePrecedes state record current.record then
            some ⟨workIndex, record, workerIndex⟩
          else some current

def selectScan (state : SchedulerState) :
    Nat → List WorkRecord → Option Candidate → Option Candidate
  | _, [], chosen => chosen
  | workIndex, record :: rest, chosen =>
      selectScan state (workIndex + 1) rest
        (considerWork state workIndex record chosen)

def selectNextForDispatch (state : SchedulerState) : Option (Nat × Nat) :=
  (selectScan state 0 state.work none).map fun chosen =>
    (chosen.workIndex, chosen.workerIndex)

set_option linter.dupNamespace false in
structure Selection where
  workId : WorkId
  workerId : WorkerId
deriving DecidableEq

def selectNext (state : SchedulerState) : Option Selection :=
  (selectScan state 0 state.work none).bind fun chosen =>
    match state.work[chosen.workIndex]?, state.workers[chosen.workerIndex]? with
    | some work, some worker => some ⟨work.spec.id, worker.descriptor.id⟩
    | _, _ => none

def isFeasible (state : SchedulerState) (workId : WorkId) : Bool :=
  match state.work.find? fun record => decide (record.spec.id = workId) with
  | none => false
  | some record => (firstFeasibleWorker state record).isSome

/-! ### What feasibility gives -/

section Capacity

variable {reservations : List SchedulerReservation} {worker : WorkerId}
variable {kind : ResourceKind} {usage : Aggregate}
variable {capacity request : ResourceVector}

theorem prepend_quantity (kind : ResourceKind)
    {reservation : SchedulerReservation}
    (h : prepend reservation usage ≠ .failed) :
    usage ≠ .failed ∧ (prepend reservation usage).quantity kind =
      reservation.resources.quantity kind + usage.quantity kind := by
  cases usage with
  | empty => exact ⟨nofun, rfl⟩
  | value current =>
      refine ⟨nofun, ?_⟩
      unfold prepend at h ⊢
      dsimp only at h ⊢
      cases hadd : current.aggregateAdd reservation.resources with
      | none =>
          rw [hadd] at h
          exact absurd rfl h
      | some vector =>
          exact (ResourceVector.quantity_of_aggregateAdd hadd kind).trans
            (Nat.add_comm _ _)
  | failed => exact absurd rfl h

theorem aggregateGlobal_quantity (h : aggregateGlobal reservations ≠ .failed) :
    (aggregateGlobal reservations).quantity kind =
      globalQuantityFrom kind reservations := by
  induction reservations with
  | nil => rfl
  | cons reservation rest ih =>
      obtain ⟨hrest, hquantity⟩ := prepend_quantity kind h
      exact hquantity.trans (congrArg _ (ih hrest))

theorem aggregateWorker_quantity
    (h : aggregateWorker reservations worker ≠ .failed) :
    (aggregateWorker reservations worker).quantity kind =
      workerQuantityFrom worker kind reservations := by
  induction reservations with
  | nil => rfl
  | cons reservation rest ih =>
      unfold aggregateWorker at h ⊢
      rw [List.foldr_cons] at h ⊢
      unfold workerQuantityFrom
      split at h
      · rename_i hworker
        obtain ⟨hrest, hquantity⟩ := prepend_quantity kind h
        rw [if_pos hworker, if_pos hworker]
        exact hquantity.trans (congrArg _ (ih hrest))
      · rename_i hworker
        rw [if_neg hworker, if_neg hworker]
        exact ih h

theorem aggregateFitsFrom_iff {entries : List ResourceEntry} :
    aggregateFitsFrom usage capacity entries = true ↔
      ∀ entry ∈ entries, usage.quantity entry.kind + entry.quantity.get ≤
        capacity.quantity entry.kind := by
  induction entries with
  | nil => simp [aggregateFitsFrom]
  | cons entry rest ih =>
      simp only [aggregateFitsFrom, Bool.and_eq_true, decide_eq_true_eq, ih,
        List.forall_mem_cons]

theorem globalFitsFrom_iff {entries : List ResourceEntry} :
    globalFitsFrom reservations capacity entries = true ↔
      ∀ entry ∈ entries, globalQuantityFrom entry.kind reservations
        + entry.quantity.get ≤ capacity.quantity entry.kind := by
  induction entries with
  | nil => simp [globalFitsFrom]
  | cons entry rest ih =>
      simp only [globalFitsFrom, Bool.and_eq_true, decide_eq_true_eq, ih,
        List.forall_mem_cons]

theorem workerFitsFrom_iff {entries : List ResourceEntry} :
    workerFitsFrom reservations worker capacity entries = true ↔
      ∀ entry ∈ entries, workerQuantityFrom worker entry.kind reservations
        + entry.quantity.get ≤ capacity.quantity entry.kind := by
  induction entries with
  | nil => simp [workerFitsFrom]
  | cons entry rest ih =>
      simp only [workerFitsFrom, Bool.and_eq_true, decide_eq_true_eq, ih,
        List.forall_mem_cons]

theorem quantity_add_le_of_entries (kind : ResourceKind)
    (used : ResourceKind → Nat)
    (hentries : ∀ entry ∈ request.entries,
      used entry.kind + entry.quantity.get ≤ capacity.quantity entry.kind)
    (hused : used kind ≤ capacity.quantity kind) :
    used kind + request.quantity kind ≤ capacity.quantity kind := by
  rcases Nat.eq_zero_or_pos (request.quantity kind) with hzero | hpos
  · omega
  · rw [quantity_eq_amount] at hpos
    obtain ⟨entry, hentry, rfl⟩ := exists_of_amount_ne_zero (Nat.ne_of_gt hpos)
    rw [quantity_of_mem hentry]
    exact hentries entry hentry

variable {state : SchedulerState}

theorem globalFitsAfter_eq_true (h : globalFitsAfter state request = true) :
    ∀ entry ∈ request.entries,
      globalQuantityFrom entry.kind state.reservations + entry.quantity.get ≤
        state.binding.capacity.quantity entry.kind := by
  unfold globalFitsAfter at h
  split at h
  · cases h
  · split at h
    · exact globalFitsFrom_iff.mp h
    · rename_i hfailed
      intro entry hentry
      rw [← aggregateGlobal_quantity hfailed]
      exact aggregateFitsFrom_iff.mp h entry hentry

theorem workerFitsAfter_eq_true
    (h : workerFitsAfter state worker capacity request = true) :
    ∀ entry ∈ request.entries,
      workerQuantityFrom worker entry.kind state.reservations
        + entry.quantity.get ≤ capacity.quantity entry.kind := by
  unfold workerFitsAfter at h
  split at h
  · cases h
  · split at h
    · exact workerFitsFrom_iff.mp h
    · rename_i hfailed
      intro entry hentry
      rw [← aggregateWorker_quantity hfailed]
      exact aggregateFitsFrom_iff.mp h entry hentry

end Capacity

/-- What it takes for a record to be dispatched on a worker. -/
structure Feasible (state : SchedulerState) (work : WorkRecord)
    (worker : WorkerRecord) : Prop where
  queued : work.phase = .queued
  available : worker.phase = .available
  owner : worker.descriptor.owner = work.spec.owner
  supports : worker.descriptor.supports work.spec.executionClass = true
  concurrency : workerReservationCount state worker.id <
    worker.descriptor.concurrency
  global : ∀ entry ∈ work.spec.request.entries,
    globalQuantityFrom entry.kind state.reservations + entry.quantity.get ≤
      state.binding.capacity.quantity entry.kind
  onWorker : ∀ entry ∈ work.spec.request.entries,
    workerQuantityFrom worker.id entry.kind state.reservations
      + entry.quantity.get ≤ worker.descriptor.capacity.quantity entry.kind

theorem feasible_of_firstFeasibleWorker {state : SchedulerState}
    {work : WorkRecord} {workerIndex : Nat}
    (h : firstFeasibleWorker state work = some workerIndex) :
    ∃ worker, state.workers[workerIndex]? = some worker ∧
      Feasible state work worker := by
  unfold firstFeasibleWorker at h
  split at h
  · rename_i hqueued
    obtain ⟨hlt, hfeasible, _⟩ := List.findIdx?_eq_some_iff_getElem.mp h
    refine ⟨_, List.getElem?_eq_getElem hlt, ?_⟩
    simp only [workerIsFeasibleFor, Bool.and_eq_true, decide_eq_true_eq]
      at hfeasible
    obtain ⟨⟨⟨⟨havailable, howner⟩, hsupports⟩, hcount⟩, hfits⟩ := hfeasible
    exact
      { queued := hqueued.1
        available := havailable
        owner := howner
        supports := hsupports
        concurrency := hcount
        global := globalFitsAfter_eq_true hqueued.2
        onWorker := workerFitsAfter_eq_true hfits }
  · cases h

/-- A chosen candidate is a row of the table with a worker that can take it. -/
def Chosen (state : SchedulerState) (candidate : Candidate) : Prop :=
  state.work[candidate.workIndex]? = some candidate.record ∧
    ∃ worker, state.workers[candidate.workerIndex]? = some worker ∧
      Feasible state candidate.record worker

theorem chosen_of_selectScan {state : SchedulerState} {workIndex : Nat}
    {records : List WorkRecord} {chosen : Option Candidate}
    {candidate : Candidate}
    (hrecords : ∀ i, records[i]? = state.work[workIndex + i]?)
    (hchosen : ∀ c, chosen = some c → Chosen state c)
    (h : selectScan state workIndex records chosen = some candidate) :
    Chosen state candidate := by
  induction records generalizing workIndex chosen with
  | nil => exact hchosen candidate h
  | cons record rest ih =>
      have hhead : state.work[workIndex]? = some record := (hrecords 0).symm
      refine ih (fun i => ?_) (fun c hc => ?_) h
      · have hnext := hrecords (i + 1)
        rw [List.getElem?_cons_succ] at hnext
        rw [hnext, Nat.add_assoc, Nat.add_comm 1 i]
      · unfold considerWork at hc
        split at hc
        · exact hchosen c hc
        · rename_i workerIndex hfirst
          have hnew : Chosen state ⟨workIndex, record, workerIndex⟩ :=
            ⟨hhead, feasible_of_firstFeasibleWorker hfirst⟩
          split at hc
          · cases hc
            exact hnew
          · rename_i current
            split at hc
            · cases hc
              exact hnew
            · exact hchosen c hc

theorem feasible_of_selectNextForDispatch {state : SchedulerState}
    {workIndex workerIndex : Nat}
    (h : selectNextForDispatch state = some (workIndex, workerIndex)) :
    ∃ work worker, state.work[workIndex]? = some work ∧
      state.workers[workerIndex]? = some worker ∧
      Feasible state work worker := by
  obtain ⟨candidate, hscan, hpair⟩ := Option.map_eq_some_iff.mp h
  cases hpair
  obtain ⟨hwork, worker, hworker, hfeasible⟩ :=
    chosen_of_selectScan (fun i => by rw [Nat.zero_add])
      (fun c hc => by cases hc) hscan
  exact ⟨candidate.record, worker, hwork, hworker, hfeasible⟩

end Peritus.Scheduler.Selection
