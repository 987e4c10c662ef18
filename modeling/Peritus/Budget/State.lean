import Peritus.Budget.Amounts

/-!
Budget ledgers: a tree of accounts, the reservations charged to them, and the
commands and receipts of the budget reducer.
-/

namespace Peritus.Budget.State

open Peritus.Types Amounts

inductive BudgetAccountPhase
  | open
  | draining
  | faulted
  | closed
deriving DecidableEq

inductive ReservationPhase
  | held
  | active
  | settledExact
  | settledFinal
  | cancelledHeld
  | settledAmbiguous
  | overrunFaulted
deriving DecidableEq

def ReservationPhase.isLive : ReservationPhase → Bool
  | .held => true
  | .active => true
  | _ => false

inductive UsageFinality
  | interim
  | final
deriving DecidableEq

structure BudgetAccount where
  id : BudgetId
  parentId : Option BudgetId
  revision : RevisionTuple
  limits : BudgetLimits
  consumed : BudgetAmounts
  operationReserved : BudgetAmounts
  childDelegatedRemaining : BudgetAmounts
  phase : BudgetAccountPhase

structure BudgetRequest where
  reservationId : BudgetReservationId
  budgetId : BudgetId
  revision : RevisionTuple
  actionId : ActionId
  actionDigest : Sha256Digest
  consumeNow : BudgetAmounts
  reserve : BudgetAmounts
deriving DecidableEq

structure ReservationRecord where
  request : BudgetRequest
  observed : BudgetAmounts
  phase : ReservationPhase
  activationEvidence : Option Sha256Digest
  observationEvidence : Option Sha256Digest
  finalEvidence : Option Sha256Digest
  finalReported : Option BudgetAmounts
  finality : Option UsageFinality

structure BudgetLedger where
  rootId : BudgetId
  accounts : List BudgetAccount
  reservations : List ReservationRecord

def BudgetLedger.newRoot (rootId : BudgetId) (revision : RevisionTuple)
    (limits : BudgetLimits) : BudgetLedger :=
  { rootId
    accounts :=
      [{ id := rootId
         parentId := none
         revision
         limits
         consumed := BudgetAmounts.zero
         operationReserved := BudgetAmounts.zero
         childDelegatedRemaining := BudgetAmounts.zero
         phase := .open }]
    reservations := [] }

/-- A checked projection of one account. -/
structure BudgetSnapshot where
  id : BudgetId
  parentId : Option BudgetId
  revision : RevisionTuple
  limits : BudgetLimits
  consumed : BudgetAmounts
  operationReserved : BudgetAmounts
  childDelegatedRemaining : BudgetAmounts
  available : BudgetAmounts
  phase : BudgetAccountPhase

structure ChildBudgetRequest where
  childId : BudgetId
  parentId : BudgetId
  revision : RevisionTuple
  limits : BudgetLimits

structure Activation where
  reservationId : BudgetReservationId
  actionId : ActionId
  actionDigest : Sha256Digest
  evidenceDigest : Sha256Digest

structure UsageObservation where
  reservationId : BudgetReservationId
  actionId : ActionId
  actionDigest : Sha256Digest
  evidenceDigest : Sha256Digest
  cumulative : BudgetAmounts
  finality : UsageFinality

structure ReservationReference where
  reservationId : BudgetReservationId
  actionId : ActionId
  actionDigest : Sha256Digest
  evidenceDigest : Sha256Digest

structure AmbiguousFinalization where
  reference : ReservationReference

inductive BudgetCommand
  | allocateChild (request : ChildBudgetRequest)
  | begin (request : BudgetRequest)
  | activate (activation : Activation)
  | observeUsage (observation : UsageObservation)
  | settleExact (reference : ReservationReference)
  | cancelHeld (reference : ReservationReference)
  | finalizeAmbiguous (finalization : AmbiguousFinalization)
  | seal (budgetId : BudgetId)
  | close (budgetId : BudgetId)

inductive BudgetErrorKind
  | unknownBudget
  | unknownReservation
  | duplicateBudgetConflict
  | duplicateReservationConflict
  | emptyRequest
  | invalidAttemptAccounting
  | accountNotOpen
  | insufficientBudget
  | invalidReservationPhase
  | invalidAccountPhase
  | priorAttemptUnresolved
  | bindingMismatch
  | nonmonotonicObservation
  | outstandingWork
  | arithmetic
  | corruptState
deriving DecidableEq

structure BudgetError where
  kind : BudgetErrorKind
  budgetId : Option BudgetId
  reservationId : Option BudgetReservationId
  limitingDimensions : BudgetDimensionSet
  arithmetic : Option AmountArithmeticError

namespace BudgetError

def budget (kind : BudgetErrorKind) (budgetId : BudgetId) : BudgetError :=
  ⟨kind, some budgetId, none, BudgetDimensionSet.empty, none⟩

def reservation (kind : BudgetErrorKind)
    (reservationId : BudgetReservationId) : BudgetError :=
  ⟨kind, none, some reservationId, BudgetDimensionSet.empty, none⟩

def insufficient (budgetId : BudgetId) (dimensions : BudgetDimensionSet) :
    BudgetError :=
  ⟨.insufficientBudget, some budgetId, none, dimensions, none⟩

def arithmeticError (error : AmountArithmeticError) : BudgetError :=
  ⟨.arithmetic, none, none, BudgetDimensionSet.empty, some error⟩

end BudgetError

def corrupt (budgetId : BudgetId) : BudgetError :=
  .budget .corruptState budgetId

/-- Checked amounts inside the reducer. -/
def orArithmetic {α : Type} (result : Except AmountArithmeticError α) :
    Except BudgetError α :=
  match result with
  | .ok value => .ok value
  | .error error => .error (.arithmeticError error)

inductive BudgetOperation
  | allocateChild
  | begin
  | activate
  | observeUsage
  | settleExact
  | cancelHeld
  | finalizeAmbiguous
  | seal
  | close
deriving DecidableEq

inductive BudgetReceiptKind
  | applied
  | idempotent
  | overrunFaulted
deriving DecidableEq

structure BudgetReceipt where
  operation : BudgetOperation
  kind : BudgetReceiptKind
  budgetId : BudgetId
  reservationId : Option BudgetReservationId
  charged : BudgetAmounts
  released : BudgetAmounts
  reported : Option BudgetAmounts
  evidenceDigest : Option Sha256Digest

structure BudgetTransition where
  ledger : BudgetLedger
  receipt : BudgetReceipt

end Peritus.Budget.State
