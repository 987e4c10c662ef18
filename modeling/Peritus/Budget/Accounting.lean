import Peritus.Collections
import Peritus.Budget.State

/-!
Lookups in a budget ledger and the accounting every command shares: the open
lineage of an account, the charge of a lineage, and the release of reserved
amounts.
-/

namespace Peritus.Budget.Accounting

open Peritus.Types Checked Collections Amounts State

def findAccount (ledger : BudgetLedger) (budgetId : BudgetId) :
    Option (Nat × BudgetAccount) :=
  findIndexed (fun account => decide (account.id = budgetId)) ledger.accounts

def findReservation (ledger : BudgetLedger)
    (reservationId : BudgetReservationId) :
    Option (Nat × ReservationRecord) :=
  findIndexed (fun record => decide (record.request.reservationId = reservationId))
    ledger.reservations

def requireAccount (ledger : BudgetLedger) (budgetId : BudgetId) :
    Except BudgetError (Nat × BudgetAccount) :=
  match findAccount ledger budgetId with
  | some found => .ok found
  | none => .error (.budget .unknownBudget budgetId)

def requireReservation (ledger : BudgetLedger)
    (reservationId : BudgetReservationId) :
    Except BudgetError (Nat × ReservationRecord) :=
  match findReservation ledger reservationId with
  | some found => .ok found
  | none => .error (.reservation .unknownReservation reservationId)

def setAccount (ledger : BudgetLedger) (index : Nat) (account : BudgetAccount) :
    BudgetLedger :=
  { ledger with accounts := ledger.accounts.set index account }

def setReservation (ledger : BudgetLedger) (index : Nat)
    (record : ReservationRecord) : BudgetLedger :=
  { ledger with reservations := ledger.reservations.set index record }

def accountAt (ledger : BudgetLedger) (index : Nat) :
    Except BudgetError BudgetAccount :=
  match ledger.accounts[index]? with
  | some account => .ok account
  | none => .error (corrupt ledger.rootId)

def reservationAt (ledger : BudgetLedger) (index : Nat) :
    Except BudgetError ReservationRecord :=
  match ledger.reservations[index]? with
  | some record => .ok record
  | none => .error (corrupt ledger.rootId)

def hasLiveWork (ledger : BudgetLedger) (budgetId : BudgetId) : Bool :=
  (ledger.reservations.any fun record =>
    decide (record.request.budgetId = budgetId) && record.phase.isLive)
    || ledger.accounts.any fun account =>
      decide (account.parentId = some budgetId)
        && !decide (account.phase = .closed)

def requireBinding (record : ReservationRecord) (actionId : ActionId)
    (actionDigest : Sha256Digest) : Except BudgetError Unit :=
  ensure (!(decide (record.request.actionId ≠ actionId)
      || decide (record.request.actionDigest ≠ actionDigest)))
    (.reservation .bindingMismatch record.request.reservationId)

def requireReferenceBinding (record : ReservationRecord)
    (reference : ReservationReference) : Except BudgetError Unit :=
  requireBinding record reference.actionId reference.actionDigest

/-- Walks to the root.  The steps bound the walk: parents precede their
children. -/
def requireOpenParentChain (ledger : BudgetLedger) :
    Nat → BudgetAccount → Except BudgetError Unit
  | 0, account => .error (corrupt account.id)
  | remainingSteps + 1, account => do
      ensure (decide (account.phase = .open))
        (.budget .accountNotOpen account.id)
      match account.parentId with
      | none => return ()
      | some parentId =>
          let (_, parent) ← requireAccount ledger parentId
          requireOpenParentChain ledger remainingSteps parent

def requireOpenLineage (ledger : BudgetLedger) (budgetId : BudgetId) :
    Except BudgetError (Nat × BudgetAccount) := do
  let target ← requireAccount ledger budgetId
  requireOpenParentChain ledger ledger.accounts.length target.2
  return target

def available (account : BudgetAccount) : Except BudgetError BudgetAmounts := do
  let afterConsumed ← orArithmetic
    (account.limits.amounts.checkedSub account.consumed)
  let afterReserved ← orArithmetic
    (afterConsumed.checkedSub account.operationReserved)
  orArithmetic (afterReserved.checkedSub account.childDelegatedRemaining)

def outstanding (record : ReservationRecord) :
    Except BudgetError BudgetAmounts :=
  if record.phase.isLive then
    orArithmetic (record.request.reserve.checkedSub record.observed)
  else .ok .zero

def outstandingValidated (record : ReservationRecord) : BudgetAmounts :=
  match outstanding record with
  | .ok amount => amount
  | .error _ => .zero

/-! ### Charging and faulting a lineage -/

/-- Only above the charged account does the amount leave a delegation. -/
def chargedDelegation (account : BudgetAccount) (amount : BudgetAmounts)
    (delegatedChild : Bool) : Except BudgetError BudgetAmounts :=
  if delegatedChild then
    orArithmetic (account.childDelegatedRemaining.checkedSub amount)
  else .ok account.childDelegatedRemaining

def chargeLineageInner (amount : BudgetAmounts) :
    Nat → BudgetLedger → BudgetId → Bool → Except BudgetError BudgetLedger
  | 0, _, currentId, _ => .error (corrupt currentId)
  | remainingSteps + 1, ledger, currentId, delegatedChild =>
      match findAccount ledger currentId with
      | none => .error (corrupt currentId)
      | some (index, account) => do
          let delegated ← chargedDelegation account amount delegatedChild
          let consumed ← orArithmetic (account.consumed.checkedAdd amount)
          let ledger := setAccount ledger index
            { account with
              childDelegatedRemaining := delegated
              consumed }
          match account.parentId with
          | none => return ledger
          | some parentId =>
              chargeLineageInner amount remainingSteps ledger parentId true

def chargeLineage (ledger : BudgetLedger) (budgetId : BudgetId)
    (amount : BudgetAmounts) : Except BudgetError BudgetLedger :=
  chargeLineageInner amount ledger.accounts.length ledger budgetId false

def faultLineageInner :
    Nat → BudgetLedger → BudgetId → Except BudgetError BudgetLedger
  | 0, _, currentId => .error (corrupt currentId)
  | remainingSteps + 1, ledger, currentId =>
      match findAccount ledger currentId with
      | none => .error (corrupt currentId)
      | some (index, account) =>
          let ledger := setAccount ledger index
            { account with phase := .faulted }
          match account.parentId with
          | none => .ok ledger
          | some parentId =>
              faultLineageInner remainingSteps ledger parentId

def faultLineage (ledger : BudgetLedger) (budgetId : BudgetId) :
    Except BudgetError BudgetLedger :=
  faultLineageInner ledger.accounts.length ledger budgetId

/-! ### Releases -/

/-- An underflow keeps the reserved amount as it is. -/
def releaseOperationReservationValidated (ledger : BudgetLedger)
    (accountIndex : Nat) (amount : BudgetAmounts) : BudgetLedger :=
  match ledger.accounts[accountIndex]? with
  | none => ledger
  | some account =>
      match account.operationReserved.checkedSub amount with
      | .ok operationReserved =>
          setAccount ledger accountIndex { account with operationReserved }
      | .error _ => ledger

/-- Releases from the account a reservation is charged to: the release of an
observed charge and the release of everything outstanding. -/
def releaseReservation (ledger : BudgetLedger) (record : ReservationRecord)
    (amount : BudgetAmounts) : BudgetLedger :=
  match findAccount ledger record.request.budgetId with
  | none => ledger
  | some (accountIndex, _) =>
      releaseOperationReservationValidated ledger accountIndex amount

def releaseObservationCharge : BudgetLedger → ReservationRecord →
    BudgetAmounts → BudgetLedger :=
  releaseReservation

def releaseFullReservation : BudgetLedger → ReservationRecord →
    BudgetAmounts → BudgetLedger :=
  releaseReservation

/-! ### Receipts -/

def receipt (operation : BudgetOperation) (kind : BudgetReceiptKind)
    (budgetId : BudgetId) : BudgetReceipt :=
  { operation
    kind
    budgetId
    reservationId := none
    charged := .zero
    released := .zero
    reported := none
    evidenceDigest := none }

def boundReceipt (operation : BudgetOperation) (kind : BudgetReceiptKind)
    (budgetId : BudgetId) (reservationId : BudgetReservationId)
    (evidenceDigest : Sha256Digest) : BudgetReceipt :=
  { operation
    kind
    budgetId
    reservationId := some reservationId
    charged := .zero
    released := .zero
    reported := none
    evidenceDigest := some evidenceDigest }

end Peritus.Budget.Accounting
