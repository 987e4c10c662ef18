import Peritus.Budget.Transition

/-!
The validation of a ledger, the validation of one step between two ledgers, and
the transition that runs a command between them.
-/

namespace Peritus.Budget.Validation

open Peritus.Types Checked Collections Amounts State Accounting Transition

/-- `result.map_err(|_| error)`. -/
def orElseError {α : Type} (result : Except BudgetError α)
    (error : BudgetError) : Except BudgetError α :=
  match result with
  | .ok value => .ok value
  | .error _ => .error error

/-! ### Accounts -/

def duplicateAccountBefore (ledger : BudgetLedger) (budgetId : BudgetId)
    (limit : Nat) : Bool :=
  (ledger.accounts.take limit).any fun account =>
    decide (account.id = budgetId)

def validateParentBefore (ledger : BudgetLedger) (childIndex : Nat)
    (child : BudgetAccount) : Except BudgetError Unit := do
  ensure child.parentId.isSome (corrupt child.id)
  match findIndexed (fun parent => decide (child.parentId = some parent.id))
      (ledger.accounts.take childIndex) with
  | none => .error (corrupt child.id)
  | some (_, parent) =>
      ensure (decide (child.revision = parent.revision)) (corrupt child.id)

/-- Every account but the first has a parent before it. -/
def validateParentOfLater (ledger : BudgetLedger) (index : Nat)
    (account : BudgetAccount) : Except BudgetError Unit :=
  if 0 < index then validateParentBefore ledger index account else .ok ()

def childContributes (parentId : BudgetId) (child : BudgetAccount) : Bool :=
  decide (child.parentId = some parentId) && !decide (child.phase = .closed)

/-- The sum over the children that are not closed of what they have not
consumed. -/
def childRemainingScan (account : BudgetAccount) :
    BudgetAmounts → List BudgetAccount → Except BudgetError BudgetAmounts
  | total, [] => .ok total
  | total, child :: rest =>
      if childContributes account.id child then do
        ensure (decide (child.revision = account.revision)) (corrupt child.id)
        let remaining ← orElseError
          (orArithmetic (child.limits.amounts.checkedSub child.consumed))
          (corrupt child.id)
        let next ← orElseError (orArithmetic (total.checkedAdd remaining))
          (corrupt account.id)
        childRemainingScan account next rest
      else childRemainingScan account total rest

def directChildRemaining (ledger : BudgetLedger) (account : BudgetAccount) :
    Except BudgetError BudgetAmounts :=
  childRemainingScan account .zero ledger.accounts

def reservationContributes (budgetId : BudgetId) (record : ReservationRecord) :
    Bool :=
  decide (record.request.budgetId = budgetId)

def operationReservedScan (budgetId : BudgetId) :
    BudgetAmounts → List ReservationRecord → Except BudgetError BudgetAmounts
  | total, [] => .ok total
  | total, record :: rest =>
      if reservationContributes budgetId record then do
        let amount ← orElseError (outstanding record) (corrupt budgetId)
        let next ← orElseError (orArithmetic (total.checkedAdd amount))
          (corrupt budgetId)
        operationReservedScan budgetId next rest
      else operationReservedScan budgetId total rest

def directOperationReserved (ledger : BudgetLedger) (account : BudgetAccount) :
    Except BudgetError BudgetAmounts :=
  operationReservedScan account.id .zero ledger.reservations

def validateAccountAt (ledger : BudgetLedger) (index : Nat) :
    Except BudgetError Unit := do
  let account ← accountAt ledger index
  ensure (!duplicateAccountBefore ledger account.id index) (corrupt account.id)
  validateParentOfLater ledger index account
  let _ ← orElseError (available account) (corrupt account.id)
  let childRemaining ← directChildRemaining ledger account
  ensure (decide (childRemaining = account.childDelegatedRemaining))
    (corrupt account.id)
  let operationReserved ← directOperationReserved ledger account
  ensure (decide (operationReserved = account.operationReserved))
    (corrupt account.id)
  ensure (!(decide (account.phase = .closed) && hasLiveWork ledger account.id))
    (corrupt account.id)

def validateRoot (ledger : BudgetLedger) : Except BudgetError Unit := do
  ensure (!ledger.accounts.isEmpty) (corrupt ledger.rootId)
  match findAccount ledger ledger.rootId with
  | none => .error (corrupt ledger.rootId)
  | some (rootIndex, root) =>
      ensure (!(decide (rootIndex ≠ 0) || root.parentId.isSome))
        (corrupt ledger.rootId)

def validateAccounts (ledger : BudgetLedger) : Except BudgetError Unit := do
  validateRoot ledger
  forEach (validateAccountAt ledger) (List.range ledger.accounts.length)

/-! ### Reservations -/

def validateRecordPhase (record : ReservationRecord) :
    Except BudgetError Unit :=
  let valid :=
    match record.phase with
    | .held =>
        record.observed.isZero && record.activationEvidence.isNone
          && record.observationEvidence.isNone && record.finalEvidence.isNone
          && record.finalReported.isNone && record.finality.isNone
    | .active =>
        record.activationEvidence.isSome
          && (record.observed.isZero || record.observationEvidence.isSome)
          && record.finalEvidence.isNone && record.finalReported.isNone
          && record.finality.isNone
    | .settledExact =>
        decide (record.observed = record.request.reserve)
          && record.finalReported.isNone && record.finality.isNone
          && (record.request.reserve.isZero || record.finalEvidence.isSome)
    | .settledFinal =>
        record.activationEvidence.isSome
          && decide (record.observationEvidence = record.finalEvidence)
          && record.finalEvidence.isSome
          && decide (record.finalReported = some record.observed)
          && decide (record.finality = some .final)
    | .cancelledHeld =>
        record.observed.isZero && record.activationEvidence.isNone
          && record.observationEvidence.isNone && record.finalEvidence.isSome
          && record.finalReported.isNone && record.finality.isNone
    | .settledAmbiguous =>
        record.activationEvidence.isSome
          && decide (record.observed = record.request.reserve)
          && record.finalEvidence.isSome && record.finalReported.isNone
          && record.finality.isNone
    | .overrunFaulted =>
        record.activationEvidence.isSome
          && decide (record.observationEvidence = record.finalEvidence)
          && decide (record.observed = record.request.reserve)
          && record.finalEvidence.isSome && record.finality.isSome
          && match record.finalReported with
            | some reported => !reported.fitsWithin record.request.reserve
            | none => false
  ensure valid (.reservation .corruptState record.request.reservationId)

def duplicateReservationBefore (ledger : BudgetLedger)
    (reservationId : BudgetReservationId) (limit : Nat) : Bool :=
  (ledger.reservations.take limit).any fun record =>
    decide (record.request.reservationId = reservationId)

def validateReservationAt (ledger : BudgetLedger) (index : Nat) :
    Except BudgetError Unit := do
  let record ← reservationAt ledger index
  let error := BudgetError.reservation .corruptState
    record.request.reservationId
  ensure (!duplicateReservationBefore ledger record.request.reservationId index)
    error
  match findAccount ledger record.request.budgetId with
  | none => .error error
  | some (_, account) => do
      ensure (!(decide (record.request.revision ≠ account.revision)
          || !record.observed.fitsWithin record.request.reserve)) error
      validateRecordPhase record
      let retry ← orElseError (retryRequired ledger record.request index) error
      orElseError (validateAttemptCharge record.request retry) error

def validateReservations (ledger : BudgetLedger) : Except BudgetError Unit :=
  forEach (validateReservationAt ledger) (List.range ledger.reservations.length)

def validate (ledger : BudgetLedger) : Except BudgetError Unit := do
  validateAccounts ledger
  validateReservations ledger

/-! ### Refinement of one ledger by the next -/

def refinesAccount (before next : BudgetLedger) (index : Nat) :
    Except BudgetError Unit := do
  let prior ← accountAt before index
  let account ← accountAt next index
  ensure (!(decide (prior.id ≠ account.id)
      || decide (prior.parentId ≠ account.parentId)
      || decide (prior.revision ≠ account.revision)
      || decide (prior.limits.amounts ≠ account.limits.amounts)
      || !prior.consumed.fitsWithin account.consumed))
    (corrupt prior.id)

def refinesReservation (before next : BudgetLedger) (index : Nat) :
    Except BudgetError Unit := do
  let prior ← reservationAt before index
  let record ← reservationAt next index
  ensure (!(decide (prior.request ≠ record.request)
      || !prior.observed.fitsWithin record.observed))
    (.reservation .corruptState prior.request.reservationId)

def findParentIndex (ledger : BudgetLedger) (childIndex : Nat)
    (child : BudgetAccount) : Except BudgetError Nat := do
  validateParentOfLater ledger childIndex child
  match findIndexed (fun parent => decide (child.parentId = some parent.id))
      ledger.accounts with
  | some (parentIndex, _) => return parentIndex
  | none => .error (corrupt child.id)

def validateChildPropagation (before next : BudgetLedger) (childIndex : Nat) :
    Except BudgetError Unit := do
  let priorChild ← accountAt before childIndex
  let nextChild ← accountAt next childIndex
  if priorChild.parentId.isSome ∧ priorChild.consumed ≠ nextChild.consumed then
    let parentIndex ← findParentIndex before childIndex priorChild
    let priorParent ← accountAt before parentIndex
    let nextParent ← accountAt next parentIndex
    let childDelta ← orArithmetic
      (nextChild.consumed.checkedSub priorChild.consumed)
    let parentDelta ← orArithmetic
      (nextParent.consumed.checkedSub priorParent.consumed)
    ensure (decide (childDelta = parentDelta)) (corrupt priorChild.id)
  else .ok ()

def validateRefinement (before next : BudgetLedger) :
    Except BudgetError Unit := do
  ensure (decide (before.rootId = next.rootId)) (corrupt next.rootId)
  ensure (!decide (before.accounts.length > next.accounts.length))
    (corrupt next.rootId)
  forEach (refinesAccount before next) (List.range before.accounts.length)
  ensure (!decide (before.reservations.length > next.reservations.length))
    (corrupt next.rootId)
  forEach (refinesReservation before next)
    (List.range before.reservations.length)
  ensure (!decide (before.accounts.length > next.accounts.length))
    (corrupt next.rootId)
  forEach (validateChildPropagation before next)
    (List.range before.accounts.length)

/-- `BudgetLedger::transition`: the command between two validations. -/
def transition (ledger : BudgetLedger) (command : BudgetCommand) :
    Except BudgetError BudgetTransition := do
  orElseError (validate ledger) (corrupt ledger.rootId)
  let (next, receipt) ← applyValidated ledger command
  orElseError (validate next) (corrupt ledger.rootId)
  orElseError (validateRefinement ledger next) (corrupt ledger.rootId)
  return ⟨next, receipt⟩

end Peritus.Budget.Validation
