import Peritus.Scheduler.Ownership

/-!
The capacity checks are exact.  Both forms decide the same comparison of
unbounded sums, whether the reservations were added up once into a vector or,
after that addition failed, kind by kind.
-/

namespace Peritus.Scheduler.Capacity

open Peritus.Types Limits Resource State Selection
open Invariant Ownership

variable {kind : ResourceKind} {reservations : List SchedulerReservation}
variable {state : SchedulerState} {worker : WorkerId}
variable {capacity request : ResourceVector}

/-- What reservations take of one kind, as an unbounded sum. -/
def taken (kind : ResourceKind) (reservations : List SchedulerReservation) :
    Nat :=
  (reservations.map fun reservation =>
    amount kind reservation.resources.entries).sum

def ofWorker (worker : WorkerId) (reservations : List SchedulerReservation) :
    List SchedulerReservation :=
  reservations.filter fun reservation => decide (reservation.workerId = worker)

/-- A request fits beside what is taken, in every kind that it asks for. -/
def FitsBeside (capacity request : ResourceVector)
    (reservations : List SchedulerReservation) : Prop :=
  ∀ kind ∈ request.entries.map ResourceEntry.kind,
    taken kind reservations + amount kind request.entries ≤
      amount kind capacity.entries

theorem globalQuantityFrom_eq_taken :
    globalQuantityFrom kind reservations = taken kind reservations := by
  rw [globalQuantityFrom_eq]
  simp only [quantity_eq_amount, taken]

theorem workerQuantityFrom_eq_taken :
    workerQuantityFrom worker kind reservations =
      taken kind (ofWorker worker reservations) := by
  induction reservations with
  | nil => rfl
  | cons reservation rest ih =>
      by_cases hworker : reservation.workerId = worker
      · simp [workerQuantityFrom, ofWorker, taken, hworker, ih,
          quantity_eq_amount]
      · simp [workerQuantityFrom, ofWorker, taken, hworker, ih]

/-- The entries of a request, each compared, are the kinds it asks for. -/
theorem fitsBeside_iff : FitsBeside capacity request reservations ↔
    ∀ entry ∈ request.entries,
      taken entry.kind reservations + entry.quantity.get ≤
        capacity.quantity entry.kind := by
  unfold FitsBeside
  rw [List.forall_mem_map]
  apply forall₂_congr
  intro entry hentry
  rw [← quantity_eq_amount, ← quantity_eq_amount, quantity_of_mem hentry]

theorem globalFitsAfter_iff (hlength : state.reservations.length ≤ 4096) :
    globalFitsAfter state request = true ↔
      FitsBeside state.binding.capacity request state.reservations := by
  simp only [fitsBeside_iff, ← globalQuantityFrom_eq_taken]
  constructor
  · exact globalFitsAfter_eq_true
  · intro hfits
    rw [globalFitsAfter, if_neg (Nat.not_lt.mpr hlength)]
    split
    · exact globalFitsFrom_iff.mpr hfits
    · rename_i hfailed
      refine aggregateFitsFrom_iff.mpr fun entry hentry => ?_
      rw [aggregateGlobal_quantity hfailed]
      exact hfits entry hentry

theorem workerFitsAfter_iff (hlength : state.reservations.length ≤ 4096) :
    workerFitsAfter state worker capacity request = true ↔
      FitsBeside capacity request (ofWorker worker state.reservations) := by
  simp only [fitsBeside_iff, ← workerQuantityFrom_eq_taken]
  constructor
  · exact workerFitsAfter_eq_true
  · intro hfits
    rw [workerFitsAfter, if_neg (Nat.not_lt.mpr hlength)]
    split
    · exact workerFitsFrom_iff.mpr hfits
    · rename_i hfailed
      refine aggregateFitsFrom_iff.mpr fun entry hentry => ?_
      rw [aggregateWorker_quantity hfailed]
      exact hfits entry hentry

/-! ### The width of the sums -/

variable (kind) in
theorem amount_le (vector : ResourceVector) :
    amount kind vector.entries ≤ u64Max := by
  rw [← quantity_eq_amount]
  exact ResourceVector.quantity_le_u64Max kind

theorem taken_le : taken kind reservations ≤ reservations.length * u64Max := by
  induction reservations with
  | nil => simp [taken]
  | cons reservation rest ih =>
      have hhead := amount_le kind reservation.resources
      simp only [taken, List.map_cons, List.sum_cons, List.length_cons] at ih ⊢
      rw [Nat.succ_mul]
      omega

/-- With at most 4096 reservations no sum that is compared leaves `u128`. -/
theorem taken_add_lt (hlength : reservations.length ≤ 4096) :
    taken kind reservations + amount kind request.entries < 2 ^ 128 := by
  have htaken : taken kind reservations ≤ 4096 * u64Max :=
    taken_le.trans (Nat.mul_le_mul_right _ hlength)
  have hrequest := amount_le kind request
  have hwidth : 4096 * u64Max + u64Max < 2 ^ 128 := by decide
  omega

/-- The checks are exact: a request passes if and only if, in every kind that it
asks for, it fits beside the exact sum of what is reserved, on the scheduler or
on one worker; and the sums stay within the arithmetic of the source. -/
theorem capacity_check_exact (state : SchedulerState)
    (hlength : state.reservations.length ≤ 4096) (request : ResourceVector) :
    (globalFitsAfter state request = true ↔
      FitsBeside state.binding.capacity request state.reservations) ∧
    (∀ worker capacity, workerFitsAfter state worker capacity request = true ↔
      FitsBeside capacity request (ofWorker worker state.reservations)) ∧
    ∀ kind worker,
      taken kind state.reservations + amount kind request.entries < 2 ^ 128 ∧
      taken kind (ofWorker worker state.reservations)
        + amount kind request.entries < 2 ^ 128 := by
  refine ⟨globalFitsAfter_iff hlength,
    fun worker capacity => workerFitsAfter_iff hlength, fun kind worker => ?_⟩
  constructor
  · exact taken_add_lt hlength
  · exact taken_add_lt ((List.length_filter_le _ _).trans hlength)

/-! ### Reservations whose sum leaves `u64` -/

/-- All that the arithmetic holds of one kind. -/
def fullVector : ResourceVector where
  entries := [⟨.ofNat 1, ⟨u64Max, by decide, by decide⟩⟩]
  nonempty := by decide
  canonical := List.pairwise_singleton _ _

def fullReservation (dispatchId : DispatchId) : SchedulerReservation where
  workId := smallWork.id
  dispatchId := dispatchId
  workerId := smallWorker.id
  owner := smallWork.owner
  attempt := .ofNat 1
  revision := smallRevision
  resources := fullVector
  dispatchToken := zeroDigest
  started := false

/-- Two reservations that add up to more than a vector can hold. -/
def overfull : SchedulerState :=
  { smallStart fun _ => zeroDigest with
    reservations :=
      [fullReservation (.ofNat 30),
       fullReservation (.ofNat 31)] }

theorem capacity_check_exact_overfull :
    globalFitsAfter overfull smallCapacity = false ∧
      aggregateGlobal overfull.reservations matches .failed ∧
      ¬ FitsBeside smallCapacity smallCapacity overfull.reservations := by
  have hexact := (capacity_check_exact overfull (by decide) smallCapacity).1
  have hnot : globalFitsAfter overfull smallCapacity = false := by
    decide +kernel
  refine ⟨hnot, by decide +kernel, fun hfits => ?_⟩
  rw [hexact.mpr hfits] at hnot
  cases hnot

end Peritus.Scheduler.Capacity
