import Peritus.Budget.Accounting

/-!
The budget reducer: allocation, reconciliation and life cycle of accounts and
reservations, the validation of a ledger, and the transition that runs a command
between two validations.
-/

namespace Peritus.Budget.Transition

open Peritus.Types Checked Amounts State Accounting

abbrev Applied := Except BudgetError (BudgetLedger × BudgetReceipt)

/-! ### Allocation -/

def allocateChild (ledger : BudgetLedger) (request : ChildBudgetRequest) :
    Applied :=
  match findAccount ledger request.childId with
  | some (_, existing) => do
      ensure (decide (existing.parentId = some request.parentId)
          && decide (existing.revision = request.revision)
          && decide (existing.limits.amounts = request.limits.amounts))
        (.budget .duplicateBudgetConflict request.childId)
      return (ledger, receipt .allocateChild .idempotent request.childId)
  | none => do
      let (parentIndex, parent) ← requireOpenLineage ledger request.parentId
      ensure (decide (parent.revision = request.revision))
        (.budget .bindingMismatch request.parentId)
      let available ← available parent
      let requested := request.limits.amounts
      ensure (requested.fitsWithin available)
        (.insufficient request.parentId (requested.exceedingDimensions available))
      let delegated ← orArithmetic
        (parent.childDelegatedRemaining.checkedAdd requested)
      let ledger := setAccount ledger parentIndex
        { parent with childDelegatedRemaining := delegated }
      let child : BudgetAccount :=
        { id := request.childId
          parentId := some request.parentId
          revision := request.revision
          limits := request.limits
          consumed := .zero
          operationReserved := .zero
          childDelegatedRemaining := .zero
          phase := .open }
      return ({ ledger with accounts := ledger.accounts ++ [child] },
        receipt .allocateChild .applied request.childId)

/-- The scan over the first records of the ledger. -/
def retryScan (request : BudgetRequest) :
    Bool → List ReservationRecord → Except BudgetError Bool
  | retry, [] => .ok retry
  | retry, prior :: rest =>
      if prior.request.revision = request.revision ∧
          prior.request.actionId = request.actionId then do
        ensure (decide (prior.request.actionDigest = request.actionDigest))
          (.reservation .bindingMismatch request.reservationId)
        ensure (!prior.phase.isLive)
          (.reservation .priorAttemptUnresolved request.reservationId)
        retryScan request true rest
      else retryScan request retry rest

def retryRequired (ledger : BudgetLedger) (request : BudgetRequest)
    (limit : Nat) : Except BudgetError Bool :=
  retryScan request false (ledger.reservations.take limit)

def validateAttemptCharge (request : BudgetRequest) (retry : Bool) :
    Except BudgetError Unit :=
  ensure (!(decide (request.consumeNow.get .attempts ≠ 1)
      || decide (request.consumeNow.get .retries ≠ if retry then 1 else 0)
      || decide (request.reserve.get .attempts ≠ 0)
      || decide (request.reserve.get .retries ≠ 0)))
    (.reservation .invalidAttemptAccounting request.reservationId)

def applyNewBegin (ledger : BudgetLedger) (accountIndex : Nat)
    (request : BudgetRequest) : Applied := do
  let ledger ← chargeLineage ledger request.budgetId request.consumeNow
  let account ← accountAt ledger accountIndex
  let operationReserved ← orArithmetic
    (account.operationReserved.checkedAdd request.reserve)
  let ledger := setAccount ledger accountIndex
    { account with operationReserved }
  let record : ReservationRecord :=
    { request
      observed := .zero
      phase := if request.reserve.isZero then .settledExact else .held
      activationEvidence := none
      observationEvidence := none
      finalEvidence := none
      finalReported := none
      finality := none }
  return ({ ledger with reservations := ledger.reservations ++ [record] },
    { operation := .begin
      kind := .applied
      budgetId := request.budgetId
      reservationId := some request.reservationId
      charged := request.consumeNow
      released := .zero
      reported := none
      evidenceDigest := none })

def begin (ledger : BudgetLedger) (request : BudgetRequest) : Applied :=
  match findReservation ledger request.reservationId with
  | some (_, existing) => do
      ensure (decide (existing.request = request))
        (.reservation .duplicateReservationConflict request.reservationId)
      return (ledger,
        { operation := .begin
          kind := .idempotent
          budgetId := request.budgetId
          reservationId := some request.reservationId
          charged := .zero
          released := .zero
          reported := none
          evidenceDigest := none })
  | none => do
      let requested ← orArithmetic
        (request.consumeNow.checkedAdd request.reserve)
      ensure (!requested.isZero)
        (.reservation .emptyRequest request.reservationId)
      let (accountIndex, account) ← requireOpenLineage ledger request.budgetId
      ensure (decide (account.revision = request.revision))
        (.reservation .bindingMismatch request.reservationId)
      let retry ← retryRequired ledger request ledger.reservations.length
      validateAttemptCharge request retry
      let available ← available account
      ensure (requested.fitsWithin available)
        (.insufficient request.budgetId (requested.exceedingDimensions available))
      applyNewBegin ledger accountIndex request

/-! ### Reconciliation -/

def activate (ledger : BudgetLedger) (activation : Activation) : Applied := do
  let (index, record) ← requireReservation ledger activation.reservationId
  requireBinding record activation.actionId activation.actionDigest
  let bound := fun kind => boundReceipt .activate kind record.request.budgetId
    activation.reservationId activation.evidenceDigest
  match record.phase with
  | .held =>
      return (setReservation ledger index
          { record with
            phase := .active
            activationEvidence := some activation.evidenceDigest },
        bound .applied)
  | .active =>
      ensure (decide (record.activationEvidence = some activation.evidenceDigest))
        (.reservation .bindingMismatch activation.reservationId)
      return (ledger, bound .idempotent)
  | _ => .error (.reservation .invalidReservationPhase activation.reservationId)

/-- The receipt of an observation. -/
def observationReceipt (observation : UsageObservation) (budgetId : BudgetId)
    (kind : BudgetReceiptKind) (charged released : BudgetAmounts) :
    BudgetReceipt :=
  { operation := .observeUsage
    kind
    budgetId
    reservationId := some observation.reservationId
    charged
    released
    reported := some observation.cumulative
    evidenceDigest := some observation.evidenceDigest }

def replayFinalObservationValidated (ledger : BudgetLedger)
    (record : ReservationRecord) (observation : UsageObservation) : Applied := do
  ensure (decide (record.finality = some observation.finality)
      && decide (record.finalEvidence = some observation.evidenceDigest)
      && decide (record.finalReported = some observation.cumulative))
    (.reservation .invalidReservationPhase observation.reservationId)
  match record.phase with
  | .settledFinal =>
      return (ledger, observationReceipt observation record.request.budgetId
        .idempotent .zero .zero)
  | .overrunFaulted =>
      return (ledger, observationReceipt observation record.request.budgetId
        .overrunFaulted .zero .zero)
  | _ => .error (.reservation .invalidReservationPhase observation.reservationId)

def applyInterimValidated (ledger : BudgetLedger) (index : Nat)
    (record : ReservationRecord) (observation : UsageObservation) : Applied := do
  ensure (decide (record.phase = .active))
    (.reservation .invalidReservationPhase observation.reservationId)
  ensure (decide (observation.finality = .interim))
    (.reservation .invalidReservationPhase observation.reservationId)
  let cumulative := observation.cumulative
  let budgetId := record.request.budgetId
  let delta ← orArithmetic (cumulative.checkedSub record.observed)
  let ledger := releaseObservationCharge ledger record delta
  let ledger ← chargeLineage ledger budgetId delta
  return (setReservation ledger index
      { record with
        observed := cumulative
        observationEvidence := some observation.evidenceDigest },
    observationReceipt observation budgetId .applied delta .zero)

def applyFinalValidated (ledger : BudgetLedger) (index : Nat)
    (record : ReservationRecord) (observation : UsageObservation) : Applied := do
  ensure (decide (record.phase = .active))
    (.reservation .invalidReservationPhase observation.reservationId)
  ensure (decide (observation.finality = .final))
    (.reservation .invalidReservationPhase observation.reservationId)
  let cumulative := observation.cumulative
  let budgetId := record.request.budgetId
  match findAccount ledger budgetId with
  | none => .error (corrupt budgetId)
  | some (accountIndex, _) => do
      let delta ← orArithmetic (cumulative.checkedSub record.observed)
      let ledger := releaseObservationCharge ledger record delta
      let ledger ← chargeLineage ledger budgetId delta
      let released ← orArithmetic (record.request.reserve.checkedSub cumulative)
      let ledger := releaseOperationReservationValidated ledger accountIndex
        released
      return (setReservation ledger index
          { record with
            observed := cumulative
            observationEvidence := some observation.evidenceDigest
            phase := .settledFinal
            finalEvidence := some observation.evidenceDigest
            finalReported := some cumulative
            finality := some .final },
        observationReceipt observation budgetId .applied delta released)

def applyOverrunValidated (ledger : BudgetLedger) (index : Nat)
    (record : ReservationRecord) (observation : UsageObservation) : Applied := do
  ensure (decide (record.phase = .active))
    (.reservation .invalidReservationPhase observation.reservationId)
  let budgetId := record.request.budgetId
  match findAccount ledger budgetId with
  | none => .error (corrupt budgetId)
  | some _ => do
      let remaining := outstandingValidated record
      let ledger := releaseFullReservation ledger record remaining
      let ledger ← chargeLineage ledger budgetId remaining
      let ledger := setReservation ledger index
        { record with
          observed := record.request.reserve
          observationEvidence := some observation.evidenceDigest
          phase := .overrunFaulted
          finalEvidence := some observation.evidenceDigest
          finalReported := some observation.cumulative
          finality := some observation.finality }
      let ledger ← faultLineage ledger budgetId
      return (ledger, observationReceipt observation budgetId .overrunFaulted
        remaining .zero)

def observeValidated (ledger : BudgetLedger) (observation : UsageObservation) :
    Applied := do
  let reservationId := observation.reservationId
  let (index, record) ← requireReservation ledger reservationId
  requireBinding record observation.actionId observation.actionDigest
  if record.phase = .active then do
    let highWater := record.observed
    let cumulative := observation.cumulative
    let evidence := observation.evidenceDigest
    ensure (highWater.fitsWithin cumulative)
      (.reservation .nonmonotonicObservation reservationId)
    ensure (!(decide (highWater = cumulative)
        && record.observationEvidence.isSome
        && !decide (record.observationEvidence = some evidence)))
      (.reservation .bindingMismatch reservationId)
    if highWater = cumulative ∧ record.observationEvidence = some evidence ∧
        observation.finality = .interim then
      return (ledger, observationReceipt observation record.request.budgetId
        .idempotent .zero .zero)
    else if !cumulative.fitsWithin record.request.reserve then
      applyOverrunValidated ledger index record observation
    else
      match observation.finality with
      | .final => applyFinalValidated ledger index record observation
      | .interim => applyInterimValidated ledger index record observation
  else replayFinalObservationValidated ledger record observation

def finalizeFullCeiling (ledger : BudgetLedger)
    (reference : ReservationReference) (operation : BudgetOperation)
    (finalPhase : ReservationPhase) : Applied := do
  let (index, record) ← requireReservation ledger reference.reservationId
  requireReferenceBinding record reference
  let budgetId := record.request.budgetId
  if record.phase = finalPhase ∧
      record.finalEvidence = some reference.evidenceDigest then
    return (ledger, boundReceipt operation .idempotent budgetId
      reference.reservationId reference.evidenceDigest)
  else do
    ensure (decide (record.phase = .active))
      (.reservation .invalidReservationPhase reference.reservationId)
    let remaining := outstandingValidated record
    let ledger := releaseFullReservation ledger record remaining
    let ledger ← chargeLineage ledger budgetId remaining
    return (setReservation ledger index
        { record with
          observed := record.request.reserve
          phase := finalPhase
          finalEvidence := some reference.evidenceDigest },
      { boundReceipt operation .applied budgetId reference.reservationId
          reference.evidenceDigest with
        charged := remaining })

def settleExact (ledger : BudgetLedger) (reference : ReservationReference) :
    Applied :=
  finalizeFullCeiling ledger reference .settleExact .settledExact

def finalizeAmbiguous (ledger : BudgetLedger)
    (finalization : AmbiguousFinalization) : Applied :=
  finalizeFullCeiling ledger finalization.reference .finalizeAmbiguous
    .settledAmbiguous

def cancelHeld (ledger : BudgetLedger) (reference : ReservationReference) :
    Applied := do
  let (index, record) ← requireReservation ledger reference.reservationId
  requireReferenceBinding record reference
  let budgetId := record.request.budgetId
  if record.phase = .cancelledHeld ∧
      record.finalEvidence = some reference.evidenceDigest then
    return (ledger, boundReceipt .cancelHeld .idempotent budgetId
      reference.reservationId reference.evidenceDigest)
  else do
    ensure (decide (record.phase = .held))
      (.reservation .invalidReservationPhase reference.reservationId)
    let released := record.request.reserve
    let ledger := releaseFullReservation ledger record released
    return (setReservation ledger index
        { record with
          phase := .cancelledHeld
          finalEvidence := some reference.evidenceDigest },
      { boundReceipt .cancelHeld .applied budgetId reference.reservationId
          reference.evidenceDigest with
        released })

/-! ### Life cycle -/

def sealValidated (ledger : BudgetLedger) (budgetId : BudgetId) : Applied := do
  let (index, account) ← requireAccount ledger budgetId
  if account.phase = .open then
    return (setAccount ledger index { account with phase := .draining },
      receipt .seal .applied budgetId)
  else return (ledger, receipt .seal .idempotent budgetId)

/-- Takes what a closed child leaves unused off its parent's delegation. -/
def releaseDelegation (ledger : BudgetLedger) (budgetId : BudgetId)
    (index : Nat) (parentId : Option BudgetId) (unused : BudgetAmounts) :
    Except BudgetError BudgetLedger :=
  match parentId with
  | none => .ok ledger
  | some parentId =>
      match findAccount ledger parentId with
      | none => .error (corrupt budgetId)
      | some (parentIndex, parent) => do
          ensure (!decide (parentIndex = index)) (corrupt budgetId)
          let delegated ← orArithmetic
            (parent.childDelegatedRemaining.checkedSub unused)
          return setAccount ledger parentIndex
            { parent with childDelegatedRemaining := delegated }

def closeValidated (ledger : BudgetLedger) (budgetId : BudgetId) : Applied := do
  let (index, account) ← requireAccount ledger budgetId
  match account.phase with
  | .open => .error (.budget .invalidAccountPhase budgetId)
  | .closed => return (ledger, receipt .close .idempotent budgetId)
  | _ =>
      ensure (!hasLiveWork ledger budgetId) (.budget .outstandingWork budgetId)
      let unused ← orArithmetic
        (account.limits.amounts.checkedSub account.consumed)
      let ledger ←
        releaseDelegation ledger budgetId index account.parentId unused
      let ledger := setAccount ledger index { account with phase := .closed }
      return (ledger, { receipt .close .applied budgetId with released := unused })

def applyValidated (ledger : BudgetLedger) (command : BudgetCommand) :
    Applied :=
  match command with
  | .allocateChild request => allocateChild ledger request
  | .begin request => begin ledger request
  | .activate activation => activate ledger activation
  | .observeUsage observation => observeValidated ledger observation
  | .settleExact reference => settleExact ledger reference
  | .cancelHeld reference => cancelHeld ledger reference
  | .finalizeAmbiguous finalization => finalizeAmbiguous ledger finalization
  | .seal budgetId => sealValidated ledger budgetId
  | .close budgetId => closeValidated ledger budgetId

end Peritus.Budget.Transition
