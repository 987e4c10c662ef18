import Peritus.Types

/-!
Scheduler errors, identities, semantics and the immutable limits of one
scheduler.
-/

namespace Peritus.Scheduler.Limits

open Peritus.Types

abbrev SchedulerId := OpaqueIdentifier
abbrev WorkId := OpaqueIdentifier
abbrev WorkerId := OpaqueIdentifier
abbrev DispatchId := OpaqueIdentifier

inductive SchedulerErrorKind
  | bindingMismatch
  | invalidLimit
  | limitExceeded
  | invalidInput
  | nonCanonical
  | identityConflict
  | staleFence
  | illegalTransition
  | unknownIdentity
  | resourceConflict
  | noFeasibleWork
  | replayMismatch
  | codec
  | journal
deriving DecidableEq

inductive SchedulerRecoveryAction
  | correctInput
  | retryLater
  | replayAggregate
  | quarantine
deriving DecidableEq

structure SchedulerError where
  kind : SchedulerErrorKind
  recovery : SchedulerRecoveryAction
  detail : String
deriving DecidableEq

def reject (kind : SchedulerErrorKind) (detail : String) : SchedulerError :=
  let recovery : SchedulerRecoveryAction := match kind with
    | .noFeasibleWork => .retryLater
    | .staleFence => .replayAggregate
    | .replayMismatch => .replayAggregate
    | .codec => .quarantine
    | .journal => .quarantine
    | _ => .correctInput
  ⟨kind, recovery, detail⟩

def illegal (detail : String) : SchedulerError :=
  reject .illegalTransition detail

inductive SchedulerSemantics
  | legacyQueueV1
  | strictRecoveryQueueV2
deriving DecidableEq

def SchedulerSemantics.schemaVersion : SchedulerSemantics → Nat
  | .legacyQueueV1 => 1
  | .strictRecoveryQueueV2 => 2

def SchedulerSemantics.fromSchemaVersion : Nat → Option SchedulerSemantics
  | 1 => some .legacyQueueV1
  | 2 => some .strictRecoveryQueueV2
  | _ => none

@[ext]
structure AttemptNumber where
  get : Nat
  positive : 0 < get
  bound : get ≤ 65535

instance : DecidableEq AttemptNumber := fun _ _ =>
  decidable_of_iff _ AttemptNumber.ext_iff.symm

theorem AttemptNumber.one_bound : 1 ≤ 65535 := by decide

def AttemptNumber.ofNat (value : Nat) : AttemptNumber :=
  if h : 0 < value ∧ value ≤ 65535 then ⟨value, h.1, h.2⟩
  else ⟨1, Nat.one_pos, one_bound⟩

def AttemptNumber.new (value : Nat) : Except SchedulerError AttemptNumber :=
  if h : 0 < value ∧ value ≤ 65535 then .ok ⟨value, h.1, h.2⟩
  else .error (reject .invalidInput "attempt number is zero")

theorem AttemptNumber.new_self (attempt : AttemptNumber) :
    new attempt.get = .ok attempt :=
  dif_pos ⟨attempt.positive, attempt.bound⟩

theorem AttemptNumber.get_of_new {value : Nat} {attempt : AttemptNumber}
    (h : new value = .ok attempt) : attempt.get = value := by
  unfold new at h
  split at h
  · cases h
    rfl
  · cases h

/-- Each limit beside its production ceiling. -/
def limitChecks (queuedWork retainedWork workers dependenciesPerWork
    resourceDimensions activeReservations attemptsPerWork bypassCount
    dispatchBatchSize payloadBytes stateBytes : Nat) : List (Nat × Nat) :=
  [(queuedWork, 65535),
   (retainedWork, 65535),
   (workers, 4096),
   (dependenciesPerWork, 1024),
   (resourceDimensions, 256),
   (activeReservations, 4096),
   (attemptsPerWork, 1024),
   (bypassCount, 32767),
   (dispatchBatchSize, 256),
   (payloadBytes, 16 * 1048576 - 16),
   (stateBytes, 16 * 1048576 - 16)]

structure SchedulerLimits where
  queuedWork : Nat
  retainedWork : Nat
  workers : Nat
  dependenciesPerWork : Nat
  resourceDimensions : Nat
  activeReservations : Nat
  attemptsPerWork : Nat
  bypassCount : Nat
  dispatchBatchSize : Nat
  payloadBytes : Nat
  stateBytes : Nat
  checks : ∀ check ∈ limitChecks queuedWork retainedWork workers
    dependenciesPerWork resourceDimensions activeReservations attemptsPerWork
    bypassCount dispatchBatchSize payloadBytes stateBytes,
    0 < check.1 ∧ check.1 ≤ check.2
  queued : queuedWork ≤ retainedWork
  active : activeReservations ≤ retainedWork
deriving DecidableEq

namespace SchedulerLimits

def new (queuedWork retainedWork workers dependenciesPerWork
    resourceDimensions activeReservations attemptsPerWork bypassCount
    dispatchBatchSize payloadBytes stateBytes : Nat) :
    Except SchedulerError SchedulerLimits :=
  if h : (∀ check ∈ limitChecks queuedWork retainedWork workers
        dependenciesPerWork resourceDimensions activeReservations
        attemptsPerWork bypassCount dispatchBatchSize payloadBytes stateBytes,
        0 < check.1 ∧ check.1 ≤ check.2) ∧
      queuedWork ≤ retainedWork ∧ activeReservations ≤ retainedWork then
    .ok
      { queuedWork, retainedWork, workers, dependenciesPerWork
        resourceDimensions, activeReservations, attemptsPerWork, bypassCount
        dispatchBatchSize, payloadBytes, stateBytes
        checks := h.1
        queued := h.2.1
        active := h.2.2 }
  else
    .error (reject .invalidLimit
      "scheduler limit is zero, inconsistent, or above its production ceiling")

/-- The ceilings themselves. -/
def production : SchedulerLimits where
  queuedWork := 65535
  retainedWork := 65535
  workers := 4096
  dependenciesPerWork := 1024
  resourceDimensions := 256
  activeReservations := 4096
  attemptsPerWork := 1024
  bypassCount := 32767
  dispatchBatchSize := 256
  payloadBytes := 16 * 1048576 - 16
  stateBytes := 16 * 1048576 - 16
  checks := by decide
  queued := by decide
  active := by decide

def validate (limits : SchedulerLimits) : Except SchedulerError Unit :=
  (new limits.queuedWork limits.retainedWork limits.workers
    limits.dependenciesPerWork limits.resourceDimensions
    limits.activeReservations limits.attemptsPerWork limits.bypassCount
    limits.dispatchBatchSize limits.payloadBytes limits.stateBytes).map
    fun _ => ()

theorem new_self (limits : SchedulerLimits) :
    new limits.queuedWork limits.retainedWork limits.workers
      limits.dependenciesPerWork limits.resourceDimensions
      limits.activeReservations limits.attemptsPerWork limits.bypassCount
      limits.dispatchBatchSize limits.payloadBytes limits.stateBytes =
    .ok limits :=
  dif_pos ⟨limits.checks, limits.queued, limits.active⟩

theorem fields_of_new {queuedWork retainedWork workers dependenciesPerWork
    resourceDimensions activeReservations attemptsPerWork bypassCount
    dispatchBatchSize payloadBytes stateBytes : Nat} {limits : SchedulerLimits}
    (h : new queuedWork retainedWork workers dependenciesPerWork
      resourceDimensions activeReservations attemptsPerWork bypassCount
      dispatchBatchSize payloadBytes stateBytes = .ok limits) :
    limits.queuedWork = queuedWork ∧ limits.retainedWork = retainedWork ∧
      limits.workers = workers ∧
      limits.dependenciesPerWork = dependenciesPerWork ∧
      limits.resourceDimensions = resourceDimensions ∧
      limits.activeReservations = activeReservations ∧
      limits.attemptsPerWork = attemptsPerWork ∧
      limits.bypassCount = bypassCount ∧
      limits.dispatchBatchSize = dispatchBatchSize ∧
      limits.payloadBytes = payloadBytes ∧ limits.stateBytes = stateBytes := by
  unfold new at h
  split at h
  · cases h
    exact ⟨rfl, rfl, rfl, rfl, rfl, rfl, rfl, rfl, rfl, rfl, rfl⟩
  · cases h

theorem validate_eq_ok (limits : SchedulerLimits) :
    limits.validate = .ok () := by
  unfold validate
  rw [new_self]
  rfl

theorem le_production (limits : SchedulerLimits) :
    limits.queuedWork ≤ 65535 ∧ limits.retainedWork ≤ 65535 ∧
      limits.workers ≤ 4096 ∧ limits.dependenciesPerWork ≤ 1024 ∧
      limits.resourceDimensions ≤ 256 ∧ limits.activeReservations ≤ 4096 ∧
      limits.attemptsPerWork ≤ 1024 ∧ limits.bypassCount ≤ 32767 ∧
      limits.dispatchBatchSize ≤ 256 ∧
      limits.payloadBytes ≤ 16 * 1048576 - 16 ∧
      limits.stateBytes ≤ 16 * 1048576 - 16 := by
  have hchecks := limits.checks
  simp only [limitChecks, List.forall_mem_cons] at hchecks
  omega

end SchedulerLimits

end Peritus.Scheduler.Limits
