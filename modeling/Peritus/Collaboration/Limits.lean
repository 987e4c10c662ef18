import Peritus.Types

/-!
Collaboration errors, identities and the immutable limits of one collaboration.
-/

namespace Peritus.Collaboration.Limits

open Peritus.Types

abbrev CollaborationId := OpaqueIdentifier
abbrev CollaborationTaskId := OpaqueIdentifier
abbrev CollaborationMessageId := OpaqueIdentifier

inductive CollaborationErrorKind
  | bindingMismatch
  | invalidLimit
  | limitExceeded
  | invalidInput
  | nonCanonical
  | identityConflict
  | staleFence
  | illegalTransition
  | unknownIdentity
  | ownerMismatch
  | causalityViolation
  | joinUnsatisfied
  | replayMismatch
  | codec
  | journal
deriving DecidableEq

inductive CollaborationRecoveryAction
  | correctInput
  | replayAggregate
  | awaitProgress
  | quarantine
deriving DecidableEq

structure CollaborationError where
  kind : CollaborationErrorKind
  recovery : CollaborationRecoveryAction
  detail : String
deriving DecidableEq

def reject (kind : CollaborationErrorKind) (detail : String) :
    CollaborationError :=
  let recovery : CollaborationRecoveryAction := match kind with
    | .joinUnsatisfied => .awaitProgress
    | .staleFence => .quarantine
    | .replayMismatch => .quarantine
    | .codec => .quarantine
    | .journal => .quarantine
    | _ => .correctInput
  ⟨kind, recovery, detail⟩

def illegal (detail : String) : CollaborationError :=
  reject .illegalTransition detail

/-- Each limit beside its production ceiling. -/
def limitChecks (tasks depth fanOut messages recipients payloadBytes
    artifactReferences commandBytes stateBytes : Nat) : List (Nat × Nat) :=
  [(tasks, 65535),
   (depth, 256),
   (fanOut, 4096),
   (messages, 262144),
   (recipients, 4096),
   (payloadBytes, 1048576),
   (artifactReferences, 4096),
   (commandBytes, 16 * 1048576 - 16),
   (stateBytes, 64 * 1048576 - 16)]

structure CollaborationLimits where
  tasks : Nat
  depth : Nat
  fanOut : Nat
  messages : Nat
  recipients : Nat
  payloadBytes : Nat
  artifactReferences : Nat
  commandBytes : Nat
  stateBytes : Nat
  checks : ∀ check ∈ limitChecks tasks depth fanOut messages recipients
    payloadBytes artifactReferences commandBytes stateBytes,
    0 < check.1 ∧ check.1 ≤ check.2
deriving DecidableEq

namespace CollaborationLimits

def new (tasks depth fanOut messages recipients payloadBytes
    artifactReferences commandBytes stateBytes : Nat) :
    Except CollaborationError CollaborationLimits :=
  if h : ∀ check ∈ limitChecks tasks depth fanOut messages recipients
      payloadBytes artifactReferences commandBytes stateBytes,
      0 < check.1 ∧ check.1 ≤ check.2 then
    .ok
      { tasks, depth, fanOut, messages, recipients, payloadBytes
        artifactReferences, commandBytes, stateBytes
        checks := h }
  else
    .error (reject .invalidLimit
      "collaboration limit is zero or exceeds its production ceiling")

theorem new_self (limits : CollaborationLimits) :
    new limits.tasks limits.depth limits.fanOut limits.messages
      limits.recipients limits.payloadBytes limits.artifactReferences
      limits.commandBytes limits.stateBytes = .ok limits :=
  dif_pos limits.checks

theorem fields_of_new {tasks depth fanOut messages recipients payloadBytes
    artifactReferences commandBytes stateBytes : Nat}
    {limits : CollaborationLimits}
    (h : new tasks depth fanOut messages recipients payloadBytes
      artifactReferences commandBytes stateBytes = .ok limits) :
    limits.tasks = tasks ∧ limits.depth = depth ∧ limits.fanOut = fanOut ∧
      limits.messages = messages ∧ limits.recipients = recipients ∧
      limits.payloadBytes = payloadBytes ∧
      limits.artifactReferences = artifactReferences ∧
      limits.commandBytes = commandBytes ∧ limits.stateBytes = stateBytes := by
  unfold new at h
  split at h
  · cases h
    exact ⟨rfl, rfl, rfl, rfl, rfl, rfl, rfl, rfl, rfl⟩
  · cases h

/-- The ceilings themselves. -/
def production : CollaborationLimits where
  tasks := 65535
  depth := 256
  fanOut := 4096
  messages := 262144
  recipients := 4096
  payloadBytes := 1048576
  artifactReferences := 4096
  commandBytes := 16 * 1048576 - 16
  stateBytes := 64 * 1048576 - 16
  checks := by decide

theorem le_production (limits : CollaborationLimits) :
    limits.tasks ≤ 65535 ∧ limits.depth ≤ 256 ∧ limits.fanOut ≤ 4096 ∧
      limits.messages ≤ 262144 ∧ limits.recipients ≤ 4096 ∧
      limits.payloadBytes ≤ 1048576 ∧ limits.artifactReferences ≤ 4096 ∧
      limits.commandBytes ≤ 16 * 1048576 - 16 ∧
      limits.stateBytes ≤ 64 * 1048576 - 16 := by
  have hchecks := limits.checks
  simp only [limitChecks, List.forall_mem_cons] at hchecks
  omega

end CollaborationLimits

end Peritus.Collaboration.Limits
