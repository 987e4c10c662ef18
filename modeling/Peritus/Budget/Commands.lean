import Peritus.Budget.Refinement

/-!
Every command on a well-formed ledger either steps it or fails for a reason of
the caller's: never because the ledger is corrupt, and by arithmetic only in a
request whose own two amounts do not add up.
-/

namespace Peritus.Budget.Commands

open Peritus.Types Checked Collections Amounts State Accounting Transition
open Validation Balance Lineage Effect Settling Step

/-- An error the caller is told about its own command. -/
def Admissible (error : BudgetError) : Prop :=
  error.kind ≠ .corruptState ∧ error.kind ≠ .arithmetic

theorem admissible_budget {kind : BudgetErrorKind} {budgetId : BudgetId}
    (hcorrupt : kind ≠ .corruptState) (harithmetic : kind ≠ .arithmetic) :
    Admissible (.budget kind budgetId) :=
  ⟨hcorrupt, harithmetic⟩

theorem admissible_reservation {kind : BudgetErrorKind}
    {reservationId : BudgetReservationId} (hcorrupt : kind ≠ .corruptState)
    (harithmetic : kind ≠ .arithmetic) :
    Admissible (.reservation kind reservationId) :=
  ⟨hcorrupt, harithmetic⟩

theorem admissible_insufficient {budgetId : BudgetId}
    {dimensions : BudgetDimensionSet} :
    Admissible (.insufficient budgetId dimensions) :=
  ⟨fun h => (by cases h), fun h => (by cases h)⟩

/-- What a command leaves behind when it is accepted. -/
abbrev Steps (ledger : BudgetLedger) (applied : BudgetLedger × BudgetReceipt) :
    Prop :=
  LedgerStep ledger applied.1

variable {ledger : BudgetLedger}

/-! ### Lookups -/

theorem requireAccount_satisfies (budgetId : BudgetId) :
    Satisfies (fun found => findAccount ledger budgetId = some found) Admissible
      (requireAccount ledger budgetId) := by
  unfold requireAccount
  cases hfind : findAccount ledger budgetId with
  | none => exact admissible_budget nofun nofun
  | some found => exact rfl

theorem requireReservation_satisfies (reservationId : BudgetReservationId) :
    Satisfies (fun found => ledger.reservations[found.1]? = some found.2)
      Admissible (requireReservation ledger reservationId) := by
  unfold requireReservation
  cases hfind : findReservation ledger reservationId with
  | none => exact admissible_reservation nofun nofun
  | some found => exact (findIndexed_eq_some hfind).1

theorem requireBinding_satisfies (record : ReservationRecord)
    (actionId : ActionId) (actionDigest : Sha256Digest) :
    Satisfies (fun _ => True) Admissible
      (requireBinding record actionId actionDigest) :=
  ensure_satisfies (admissible_reservation nofun nofun)

/-- The walk to the root ends: each parent stands before its child. -/
theorem requireOpenParentChain_satisfies (hbalance : AccountsBalance ledger)
    {steps i : Nat} {account : BudgetAccount}
    (hget : ledger.accounts[i]? = some account) (hsteps : i < steps) :
    Satisfies (fun _ => account.phase = .open) Admissible
      (requireOpenParentChain ledger steps account) := by
  induction steps generalizing i account with
  | zero => exact absurd hsteps (Nat.not_lt_zero i)
  | succ steps ih =>
      unfold requireOpenParentChain
      refine satisfies_ensure_bind (admissible_budget nofun nofun) fun hopen => ?_
      have hphase := of_decide_eq_true hopen
      cases hparent : account.parentId with
      | none => exact hphase
      | some parentId =>
          obtain ⟨j, parent, hj, hgetParent, rfl, _⟩ :=
            hbalance.parent_of_id hget hparent
          refine (requireAccount_satisfies parent.id).bind
            fun found _ hfound => ?_
          have hfind : findAccount ledger parent.id = some (j, parent) :=
            findIndexed_of_unique hbalance.unique hgetParent
          cases hfind.symm.trans hfound
          exact (ih hgetParent (by omega)).imp (fun _ _ => hphase)
            fun _ h => h

theorem requireOpenLineage_satisfies (hbalance : AccountsBalance ledger)
    (budgetId : BudgetId) :
    Satisfies (fun found => ledger.accounts[found.1]? = some found.2 ∧
        found.2.id = budgetId ∧ found.2.phase = .open) Admissible
      (requireOpenLineage ledger budgetId) := by
  unfold requireOpenLineage
  refine (requireAccount_satisfies budgetId).bind fun found _ hfind => ?_
  obtain ⟨hget, hid⟩ := findAccount_eq_some hfind
  refine (requireOpenParentChain_satisfies hbalance hget
    (List.getElem?_eq_some_iff.mp hget).1).bind fun _ _ hopen => ?_
  exact ⟨hget, hid, hopen⟩

/-! ### Life cycle -/

theorem sealValidated_satisfies (budgetId : BudgetId) :
    Satisfies (Steps ledger) Admissible (sealValidated ledger budgetId) := by
  unfold sealValidated
  refine (requireAccount_satisfies budgetId).bind fun found _ hfind => ?_
  obtain ⟨i, account⟩ := found
  obtain ⟨hget, hid⟩ := findAccount_eq_some hfind
  dsimp only
  split
  · rename_i hopen
    have hne : account.phase ≠ .closed := by rw [hopen]; exact nofun
    refine .drained (forall₂_set hget
      (Settled.refl _ _) ?_) (List.mem_of_getElem? hget) hne rfl rfl
    exact
      { node := ⟨rfl, rfl, rfl, rfl⟩
        phase := by simp [hne]
        consumed := (Settled.refl _ account.id account).consumed
        delegated := (Settled.refl _ account.id account).delegated
        reserved := (Settled.refl (parentOf ledger.accounts) account.id
          account).reserved }
  · exact .idle rfl

theorem closedOne_of_ne {target account : BudgetAccount}
    (hid : account.id ≠ target.id)
    (hparent : target.parentId ≠ some account.id) :
    ClosedOne target account account where
  node := .refl account
  phase := (if_neg hid).symm
  consumed := rfl
  reserved := rfl
  delegated := fun d => by rw [if_neg hparent, Nat.add_zero]

theorem closedOne_self {target : BudgetAccount}
    (hparent : target.parentId ≠ some target.id) :
    ClosedOne target target { target with phase := .closed } where
  node := ⟨rfl, rfl, rfl, rfl⟩
  phase := (if_pos rfl).symm
  consumed := rfl
  reserved := rfl
  delegated := fun d => by rw [if_neg hparent, Nat.add_zero]

/-- The delegation of the parent covers what the closed child leaves. -/
theorem releaseDelegation_closes (hbalance : AccountsBalance ledger) {i : Nat}
    {account : BudgetAccount} (hget : ledger.accounts[i]? = some account)
    (hopen : account.phase ≠ .closed) (unused : BudgetAmounts)
    (hunused : ∀ d, unused.get d =
      account.limits.amounts.get d - account.consumed.get d) :
    ∃ accounts, releaseDelegation ledger account.id i account.parentId unused =
        .ok { ledger with accounts } ∧
      List.Forall₂ (ClosedOne account) ledger.accounts
        (accounts.set i { account with phase := .closed }) := by
  have htree := isTree_of_balance hbalance
  have hmem := List.mem_of_getElem? hget
  have hself : account.parentId ≠ some account.id := fun hparent =>
    Nat.lt_irrefl _ (htree.ranked account.id account.id
      ((htree.parentOf_eq hmem).trans hparent))
  have hone := closedOne_self hself
  generalize hclosed : { account with phase := .closed } = closed at hone ⊢
  cases hparent : account.parentId with
  | none =>
      refine ⟨ledger.accounts, rfl, forall₂_set_of hget
        (fun j other hj hother => ?_) hone⟩
      refine closedOne_of_ne (fun hid => hj ?_) (by rw [hparent]; exact nofun)
      exact (eq_of_key_of_getElem? hbalance.unique hother hget hid).1
  | some parentId =>
      obtain ⟨j, parent, hj, hgetParent, rfl, _⟩ :=
        hbalance.parent_of_id hget hparent
      have hfind : findAccount ledger parent.id = some (j, parent) :=
        findIndexed_of_unique hbalance.unique hgetParent
      obtain ⟨delegated, hsub⟩ := BudgetAmounts.exists_checkedSub
        parent.childDelegatedRemaining unused fun d => by
          rw [hunused d]
          exact unused_le_delegated hbalance hmem
            (List.mem_of_getElem? hgetParent) hparent hopen d
      have hdelegated := BudgetAmounts.checkedSub_eq_ok_iff.mp hsub
      refine ⟨ledger.accounts.set j
        { parent with childDelegatedRemaining := delegated }, ?_, ?_⟩
      · have hne : decide (j = i) = false := by simpa using Nat.ne_of_lt hj
        unfold releaseDelegation
        simp only [hfind, hne, Bool.not_false, ensure_true, hsub]
        rfl
      · have hgetSet : (ledger.accounts.set j
            { parent with childDelegatedRemaining := delegated })[i]? =
              some account := by
          rw [List.getElem?_set_ne (Nat.ne_of_lt hj), hget]
        rw [forall₂_iff_getElem?]
        refine ⟨by simp, fun k a b ha hb => ?_⟩
        rw [List.getElem?_set] at hb
        split at hb
        · rename_i hik
          subst hik
          split at hb
          · cases hb
            cases hget.symm.trans ha
            exact hone
          · cases hb
        · rename_i hik
          rw [List.getElem?_set] at hb
          split at hb
          · rename_i hjk
            subst hjk
            split at hb
            · cases hb
              cases hgetParent.symm.trans ha
              have hidNe : parent.id ≠ account.id := fun hid => hik
                (eq_of_key_of_getElem? hbalance.unique hget hgetParent
                  hid.symm).1
              exact
                { node := ⟨rfl, rfl, rfl, rfl⟩
                  phase := (if_neg hidNe).symm
                  consumed := rfl
                  reserved := rfl
                  delegated := fun d => by
                    have := hdelegated d
                    rw [if_pos hparent, ← hunused d]
                    dsimp only
                    omega }
            · cases hb
          · rename_i hjk
            cases ha.symm.trans hb
            refine closedOne_of_ne (fun hid => hik ?_) fun hid => hjk ?_
            · exact (eq_of_key_of_getElem? hbalance.unique hget ha hid.symm).1
            · rw [hparent, Option.some.injEq] at hid
              exact (eq_of_key_of_getElem? hbalance.unique hgetParent ha hid).1

theorem closeValidated_satisfies (hwf : WellFormed ledger)
    (budgetId : BudgetId) :
    Satisfies (Steps ledger) Admissible (closeValidated ledger budgetId) := by
  have hbalance := hwf.accounts
  unfold closeValidated
  refine (requireAccount_satisfies budgetId).bind fun found _ hfind => ?_
  obtain ⟨i, account⟩ := found
  obtain ⟨hget, rfl⟩ := findAccount_eq_some hfind
  have hmem := List.mem_of_getElem? hget
  have hclose : account.phase ≠ .closed → Satisfies (Steps ledger) Admissible
      (do
        ensure (!hasLiveWork ledger account.id)
          (.budget .outstandingWork account.id)
        let unused ← orArithmetic
          (account.limits.amounts.checkedSub account.consumed)
        let ledger ←
          releaseDelegation ledger account.id i account.parentId unused
        let ledger := setAccount ledger i { account with phase := .closed }
        return (ledger, { receipt .close .applied account.id with
          released := unused })) := by
    intro hopen
    refine satisfies_ensure_bind (admissible_budget nofun nofun) fun hidle => ?_
    obtain ⟨unused, hsub⟩ := BudgetAmounts.exists_checkedSub
      account.limits.amounts account.consumed fun d => by
        have := hbalance.available account hmem d
        omega
    have hunused := BudgetAmounts.checkedSub_eq_ok_iff.mp hsub
    refine satisfies_bind_of_ok (orArithmetic_eq_ok_iff.mpr hsub) ?_
    obtain ⟨accounts, hrelease, hclosed⟩ := releaseDelegation_closes hbalance
      hget hopen unused fun d => by have := hunused d; omega
    refine satisfies_bind_of_ok hrelease ?_
    exact .closed hmem hopen (by simpa using hidle) hclosed rfl rfl
  dsimp only
  split
  · exact admissible_budget nofun nofun
  · exact .idle rfl
  · rename_i hnotOpen hnotClosed
    exact hclose hnotClosed

/-! ### Allocation -/

theorem allocateChild_satisfies (hwf : WellFormed ledger)
    (request : ChildBudgetRequest) :
    Satisfies (Steps ledger) Admissible (allocateChild ledger request) := by
  have hbalance := hwf.accounts
  unfold allocateChild
  cases hfind : findAccount ledger request.childId with
  | some found =>
      exact satisfies_ensure_bind (admissible_budget nofun nofun)
        fun _ => .idle rfl
  | none =>
      have hfresh : ∀ account ∈ ledger.accounts,
          account.id ≠ request.childId := fun account haccount => by
        simpa using findIndexed_eq_none.mp hfind account haccount
      refine (requireOpenLineage_satisfies hbalance request.parentId).bind
        fun found _ hfound => ?_
      obtain ⟨i, parent⟩ := found
      obtain ⟨hget, hid, hopen⟩ := hfound
      dsimp only at hget hid hopen ⊢
      have hmem := List.mem_of_getElem? hget
      refine satisfies_ensure_bind (admissible_budget nofun nofun)
        fun hrevision => ?_
      obtain ⟨amounts, havailable⟩ := exists_available
        (hbalance.available parent hmem)
      refine satisfies_bind_of_ok havailable ?_
      refine satisfies_ensure_bind admissible_insufficient fun hfits => ?_
      rw [BudgetAmounts.fitsWithin_iff] at hfits
      rw [available_eq_ok_iff] at havailable
      obtain ⟨delegated, hadd⟩ := BudgetAmounts.exists_checkedAdd
        parent.childDelegatedRemaining request.limits.amounts fun d => by
          have := hfits d
          have := havailable d
          have := parent.limits.amounts.get_le d
          omega
      have hdelegated := BudgetAmounts.checkedAdd_eq_ok_iff.mp hadd
      refine satisfies_bind_of_ok (orArithmetic_eq_ok_iff.mpr hadd) ?_
      refine .allocated hget (by rw [hopen]; exact nofun) ?_ hdelegated
        (fun d => ?_) rfl rfl rfl
      · exact
          { fresh := hfresh
            parentId := congrArg some hid.symm
            revision := (of_decide_eq_true hrevision).symm
            phase := rfl
            consumed := BudgetAmounts.get_zero
            reserved := BudgetAmounts.get_zero
            delegated := BudgetAmounts.get_zero }
      · have := hfits d
        have := havailable d
        have := hdelegated d
        omega

theorem validateRecordPhase_begun (request : BudgetRequest) :
    validateRecordPhase
      { request
        observed := .zero
        phase := if request.reserve.isZero then .settledExact else .held
        activationEvidence := none
        observationEvidence := none
        finalEvidence := none
        finalReported := none
        finality := none } = .ok () := by
  have hzero : BudgetAmounts.zero.isZero = true :=
    BudgetAmounts.isZero_iff.mpr BudgetAmounts.get_zero
  cases hreserve : request.reserve.isZero with
  | true =>
      have heq : BudgetAmounts.zero = request.reserve :=
        BudgetAmounts.ext_get fun d => by
          rw [BudgetAmounts.get_zero, BudgetAmounts.isZero_iff.mp hreserve d]
      simp [validateRecordPhase, ← heq, hzero]
  | false => simp [validateRecordPhase, hzero]

/-- The request's own two amounts do not add up. -/
def RequestOverflows (request : BudgetRequest) (error : BudgetError) : Prop :=
  ∃ arithmetic, request.consumeNow.checkedAdd request.reserve =
    .error arithmetic ∧ error = .arithmeticError arithmetic

theorem retryScan_satisfies (request : BudgetRequest) (retry : Bool)
    (records : List ReservationRecord) :
    Satisfies (fun _ => True) Admissible (retryScan request retry records) := by
  induction records generalizing retry with
  | nil => trivial
  | cons prior rest ih =>
      unfold retryScan
      split
      · refine satisfies_ensure_bind (admissible_reservation (by rintro ⟨⟩)
          (by rintro ⟨⟩)) fun _ => ?_
        exact satisfies_ensure_bind (admissible_reservation (by rintro ⟨⟩)
          (by rintro ⟨⟩)) fun _ => ih true
      · exact ih retry

theorem validateAttemptCharge_satisfies (request : BudgetRequest)
    (retry : Bool) :
    Satisfies (fun _ => True) Admissible
      (validateAttemptCharge request retry) :=
  ensure_satisfies (admissible_reservation nofun nofun)

theorem applyNewBegin_satisfies (hwf : WellFormed ledger)
    {request : BudgetRequest} {i : Nat} {target : BudgetAccount} {retry : Bool}
    (hget : ledger.accounts[i]? = some target)
    (hid : target.id = request.budgetId) (hopen : target.phase = .open)
    (hrevision : target.revision = request.revision)
    (hfresh : ∀ prior ∈ ledger.reservations,
      prior.request.reservationId ≠ request.reservationId)
    (hretry : retryRequired ledger request ledger.reservations.length =
      .ok retry)
    (hcharge : validateAttemptCharge request retry = .ok ())
    (hroom : ∀ d, target.consumed.get d + target.operationReserved.get d
      + target.childDelegatedRemaining.get d
      + (request.consumeNow.get d + request.reserve.get d) ≤
        target.limits.amounts.get d) :
    Satisfies (Steps ledger) Admissible (applyNewBegin ledger i request) := by
  have hbalance := hwf.accounts
  have hmem := List.mem_of_getElem? hget
  have hne : target.phase ≠ .closed := by rw [hopen]; exact nofun
  obtain ⟨charged, hchargeOk, hcharged⟩ :=
    chargeLineage_settles hbalance hmem hne
      (settledAccounts_refl target.id ledger.accounts) request.consumeNow
      fun d => by
        have := hroom d
        omega
  obtain ⟨copy, hcopy, hsettled⟩ := forall₂_get_left hcharged hget
  have hcopyReserved : ∀ d, copy.operationReserved.get d =
      target.operationReserved.get d := fun d => by
    simpa using hsettled.reserved d
  obtain ⟨reserved, hadd⟩ := BudgetAmounts.exists_checkedAdd
    copy.operationReserved request.reserve fun d => by
      have := hroom d
      have := hcopyReserved d
      have := target.limits.amounts.get_le d
      omega
  have hreserved := BudgetAmounts.checkedAdd_eq_ok_iff.mp hadd
  unfold applyNewBegin
  rw [← hid]
  refine satisfies_bind_of_ok hchargeOk ?_
  refine satisfies_bind_of_ok (accountAt_eq_ok_iff.mpr hcopy) ?_
  refine satisfies_bind_of_ok (orArithmetic_eq_ok_iff.mpr hadd) ?_
  have hset := settled_setReserved (parentOf ledger.accounts) (fun _ => 0)
    request.reserve.get
    ((isTree_of_balance hbalance).congr hcharged.sameNodes).unique hcopy
    hsettled.node.id reserved fun d => by rw [hreserved d, Nat.add_zero]
  have haccounts := forall₂_comp hcharged hset fun a b c => Settled.trans
  simp only [Nat.add_zero, Nat.zero_add] at haccounts
  have hrecord : FreshRecord ledger target
      { request
        observed := .zero
        phase := if request.reserve.isZero then .settledExact else .held
        activationEvidence := none
        observationEvidence := none
        finalEvidence := none
        finalReported := none
        finality := none } :=
    { fresh := hfresh
      budget := hid.symm
      revision := hrevision.symm
      observed := BudgetAmounts.get_zero
      phase := validateRecordPhase_begun request
      held := fun d => by
        unfold held
        cases hreserve : request.reserve.isZero with
        | true =>
            simp [BudgetAmounts.isZero_iff.mp hreserve d,
              ReservationPhase.isLive]
        | false => simp [ReservationPhase.isLive]
      attempt := ⟨retry, hretry, hcharge⟩ }
  exact .begun haccounts hmem hne hroom hrecord rfl rfl

theorem begin_satisfies (hwf : WellFormed ledger) (request : BudgetRequest) :
    Satisfies (Steps ledger)
      (fun error => Admissible error ∨ RequestOverflows request error)
      (begin ledger request) := by
  have hbalance := hwf.accounts
  unfold begin
  cases hfind : findReservation ledger request.reservationId with
  | some found =>
      exact satisfies_ensure_bind (.inl (admissible_reservation nofun nofun))
        fun _ => .idle rfl
  | none =>
      have hfresh : ∀ prior ∈ ledger.reservations,
          prior.request.reservationId ≠ request.reservationId :=
        fun prior hprior => by
          simpa using findIndexed_eq_none.mp hfind prior hprior
      cases hadd : request.consumeNow.checkedAdd request.reserve with
      | error arithmetic => exact .inr ⟨arithmetic, hadd, rfl⟩
      | ok requested =>
          refine satisfies_bind_of_ok (orArithmetic_eq_ok_iff.mpr rfl) ?_
          refine Satisfies.or_left ?_
          rw [BudgetAmounts.checkedAdd_eq_ok_iff] at hadd
          refine satisfies_ensure_bind (admissible_reservation nofun nofun)
            fun _ => ?_
          refine (requireOpenLineage_satisfies hbalance request.budgetId).bind
            fun found _ hfound => ?_
          obtain ⟨i, target⟩ := found
          obtain ⟨hget, hid, hopen⟩ := hfound
          dsimp only at hget hid hopen ⊢
          have hmem := List.mem_of_getElem? hget
          refine satisfies_ensure_bind (admissible_reservation nofun nofun)
            fun hrevision => ?_
          refine (retryScan_satisfies request false _).bind
            fun retry hretry _ => ?_
          refine (validateAttemptCharge_satisfies request retry).bind
            fun _ hcharge _ => ?_
          obtain ⟨amounts, havailable⟩ := exists_available
            (hbalance.available target hmem)
          refine satisfies_bind_of_ok havailable ?_
          refine satisfies_ensure_bind admissible_insufficient fun hfits => ?_
          rw [BudgetAmounts.fitsWithin_iff] at hfits
          rw [available_eq_ok_iff] at havailable
          exact applyNewBegin_satisfies hwf hget hid hopen
            (of_decide_eq_true hrevision) hfresh hretry hcharge fun d => by
              have := hfits d
              have := hadd d
              have := havailable d
              omega

/-! ### Reconciliation -/

/-- The account of a record. -/
theorem exists_target (hwf : WellFormed ledger) {record : ReservationRecord}
    (hrecord : record ∈ ledger.reservations) :
    ∃ target ∈ ledger.accounts, record.request.budgetId = target.id := by
  obtain ⟨target, hmem, hid, _⟩ := hwf.reservations.charged record hrecord
  exact ⟨target, hmem, hid.symm⟩

theorem activate_satisfies (hwf : WellFormed ledger) (activation : Activation) :
    Satisfies (Steps ledger) Admissible (activate ledger activation) := by
  unfold activate
  refine (requireReservation_satisfies activation.reservationId).bind
    fun found _ hget => ?_
  obtain ⟨i, record⟩ := found
  dsimp only at hget ⊢
  refine (requireBinding_satisfies record _ _).bind fun _ _ _ => ?_
  have hmem := List.mem_of_getElem? hget
  have hphase := hwf.reservations.phases record hmem
  obtain ⟨target, htarget, hbudget⟩ := exists_target hwf hmem
  split
  · rename_i hheld
    refine .settled (settledAccounts_refl target.id ledger.accounts) htarget
      hbudget hget ?_ (fun _ => Nat.le_refl 0) rfl rfl
    exact
      { request := rfl
        live := by rw [hheld]; rfl
        observed := fun d => rfl
        within := hwf.reservations.observed record hmem
        phase := by
          simp only [validateRecordPhase, hheld, ensure_eq_ok_iff,
            Bool.and_eq_true] at hphase ⊢
          simp [hphase]
        held := fun d => by simp [held, hheld, ReservationPhase.isLive] }
  · exact satisfies_ensure_bind (admissible_reservation (by rintro ⟨⟩)
      (by rintro ⟨⟩))
      fun _ => .idle rfl
  · exact admissible_reservation (by rintro ⟨⟩) (by rintro ⟨⟩)

theorem replayFinalObservationValidated_satisfies (record : ReservationRecord)
    (observation : UsageObservation) :
    Satisfies (Steps ledger) Admissible
      (replayFinalObservationValidated ledger record observation) := by
  unfold replayFinalObservationValidated
  refine satisfies_ensure_bind (admissible_reservation nofun nofun) fun _ => ?_
  split
  · exact .idle rfl
  · exact .idle rfl
  · exact admissible_reservation nofun nofun

theorem outstandingValidated_get {record : ReservationRecord}
    (hobserved : ∀ d, record.observed.get d ≤ record.request.reserve.get d)
    (d : BudgetDimension) :
    (outstandingValidated record).get d = held d record := by
  obtain ⟨amounts, hamounts⟩ :=
    BudgetAmounts.exists_get (f := fun d => held d record) fun d => by
      have := record.request.reserve.get_le d
      unfold held
      split <;> omega
  have hok : outstanding record = .ok amounts :=
    outstanding_eq_ok_iff.mpr ⟨fun _ => hobserved, hamounts⟩
  unfold outstandingValidated
  rw [hok]
  exact hamounts d

section Active

variable {i : Nat} {record : ReservationRecord}

/-- Releasing an amount and charging it to the lineage of the same record. -/
theorem release_charge_settles (hwf : WellFormed ledger)
    (hget : ledger.reservations[i]? = some record)
    (hlive : record.phase.isLive = true) (amount : BudgetAmounts)
    (hamount : ∀ d, amount.get d ≤ held d record) :
    ∃ target ∈ ledger.accounts, record.request.budgetId = target.id ∧
      (∀ d, held d record ≤ target.operationReserved.get d) ∧
      ∃ accounts, chargeLineage (releaseReservation ledger record amount)
          record.request.budgetId amount = .ok { ledger with accounts } ∧
        SettledAccounts ledger.accounts target.id amount.get amount.get
          (fun _ => 0) accounts := by
  have hbalance := hwf.accounts
  have hmem := List.mem_of_getElem? hget
  obtain ⟨target, htarget, hbudget⟩ := exists_target hwf hmem
  have hheld := held_le_reserved hbalance htarget hmem hbudget
  have hopen := open_of_live hbalance htarget hmem hbudget hlive
  obtain ⟨released, hrelease, hreleased⟩ :=
    releaseReservation_settles hbalance htarget hbudget amount fun d =>
      (hamount d).trans (hheld d)
  obtain ⟨accounts, hcharge, hcharged⟩ :=
    chargeLineage_settles hbalance htarget hopen hreleased amount
      fun d => by
        have := hamount d
        have := hheld d
        have := hbalance.available target htarget d
        omega
  refine ⟨target, htarget, hbudget, hheld, accounts, ?_, hcharged⟩
  rw [hrelease, hbudget]
  exact hcharge

theorem applyInterimValidated_satisfies (hwf : WellFormed ledger)
    (hget : ledger.reservations[i]? = some record)
    (hactive : record.phase = .active) {observation : UsageObservation}
    (hmonotone : ∀ d,
      record.observed.get d ≤ observation.cumulative.get d)
    (hceiling : ∀ d,
      observation.cumulative.get d ≤ record.request.reserve.get d) :
    Satisfies (Steps ledger) Admissible
      (applyInterimValidated ledger i record observation) := by
  have hlive : record.phase.isLive = true := by rw [hactive]; rfl
  have hphase := hwf.reservations.phases record (List.mem_of_getElem? hget)
  obtain ⟨delta, hsub⟩ := BudgetAmounts.exists_checkedSub
    observation.cumulative record.observed hmonotone
  have hdelta := BudgetAmounts.checkedSub_eq_ok_iff.mp hsub
  obtain ⟨target, htarget, hbudget, _, accounts, hcharge, hsettled⟩ :=
    release_charge_settles hwf hget hlive delta fun d => by
      have := hdelta d
      have := hceiling d
      simp only [held, hlive, if_true]
      omega
  unfold applyInterimValidated
  refine satisfies_ensure_bind (admissible_reservation nofun nofun) fun _ => ?_
  refine satisfies_ensure_bind (admissible_reservation nofun nofun) fun _ => ?_
  refine satisfies_bind_of_ok (orArithmetic_eq_ok_iff.mpr hsub) ?_
  refine satisfies_bind_of_ok hcharge ?_
  refine .settled hsettled htarget hbudget hget ?_ (fun _ => Nat.le_refl _) rfl
    rfl
  exact
    { request := rfl
      live := hlive
      observed := hdelta
      within := hceiling
      phase := by
        simp only [validateRecordPhase, hactive, ensure_eq_ok_iff,
          Bool.and_eq_true] at hphase ⊢
        simp [hphase]
      held := fun d => by
        have := hdelta d
        have := hceiling d
        simp only [held, hlive, if_true]
        omega }

theorem applyFinalValidated_satisfies (hwf : WellFormed ledger)
    (hget : ledger.reservations[i]? = some record)
    (hactive : record.phase = .active) {observation : UsageObservation}
    (hmonotone : ∀ d,
      record.observed.get d ≤ observation.cumulative.get d)
    (hceiling : ∀ d,
      observation.cumulative.get d ≤ record.request.reserve.get d) :
    Satisfies (Steps ledger) Admissible
      (applyFinalValidated ledger i record observation) := by
  have hlive : record.phase.isLive = true := by rw [hactive]; rfl
  have hphase := hwf.reservations.phases record (List.mem_of_getElem? hget)
  obtain ⟨delta, hsub⟩ := BudgetAmounts.exists_checkedSub
    observation.cumulative record.observed hmonotone
  have hdelta := BudgetAmounts.checkedSub_eq_ok_iff.mp hsub
  obtain ⟨released, hrest⟩ := BudgetAmounts.exists_checkedSub
    record.request.reserve observation.cumulative hceiling
  have hreleased := BudgetAmounts.checkedSub_eq_ok_iff.mp hrest
  have hheld : ∀ d, held d record = delta.get d + released.get d := fun d => by
    have := hdelta d
    have := hreleased d
    simp only [held, hlive, if_true]
    omega
  obtain ⟨target, htarget, hbudget, hreserved, accounts, hcharge, hsettled⟩ :=
    release_charge_settles hwf hget hlive delta fun d => by
      have := hheld d
      omega
  obtain ⟨j, hfind, hgetTarget⟩ := findAccount_of_mem hwf.accounts.unique htarget
  obtain ⟨accounts', hrelease, hsettled'⟩ :=
    release_settles (isTree_of_balance hwf.accounts) hsettled hgetTarget released
      fun d => by
        have := hheld d
        have := hreserved d
        omega
  unfold applyFinalValidated
  refine satisfies_ensure_bind (admissible_reservation nofun nofun) fun _ => ?_
  refine satisfies_ensure_bind (admissible_reservation nofun nofun) fun _ => ?_
  simp only [hbudget, hfind]
  refine satisfies_bind_of_ok (orArithmetic_eq_ok_iff.mpr hsub) ?_
  rw [hbudget] at hcharge
  refine satisfies_bind_of_ok hcharge ?_
  refine satisfies_bind_of_ok (orArithmetic_eq_ok_iff.mpr hrest) ?_
  rw [hrelease]
  refine .settled hsettled' htarget hbudget hget ?_
    (fun d => Nat.le_add_right _ _) rfl rfl
  exact
    { request := rfl
      live := hlive
      observed := hdelta
      within := hceiling
      phase := by
        simp only [validateRecordPhase, hactive, ensure_eq_ok_iff,
          Bool.and_eq_true] at hphase ⊢
        simp [hphase]
      held := fun d => by
        rw [hheld d]
        simp [held, ReservationPhase.isLive] }

/-- The record after its whole ceiling is charged. -/
theorem recordStep_of_full {next : ReservationRecord}
    (hlive : record.phase.isLive = true)
    (hobserved : ∀ d, record.observed.get d ≤ record.request.reserve.get d)
    (hrequest : next.request = record.request)
    (hfull : next.observed = record.request.reserve)
    (hsettled : next.phase.isLive = false)
    (hphase : validateRecordPhase next = .ok ()) :
    RecordStep record next (outstandingValidated record).get
      (outstandingValidated record).get where
  request := hrequest
  live := hlive
  observed := fun d => by
    have := hobserved d
    rw [hfull, outstandingValidated_get hobserved]
    simp only [held, hlive, if_true]
    omega
  within := fun d => by rw [hfull]
  phase := hphase
  held := fun d => by
    rw [outstandingValidated_get hobserved]
    simp [held, hsettled]

theorem applyOverrunValidated_satisfies (hwf : WellFormed ledger)
    (hget : ledger.reservations[i]? = some record)
    (hactive : record.phase = .active) {observation : UsageObservation}
    (hoverrun : observation.cumulative.fitsWithin record.request.reserve =
      false) :
    Satisfies (Steps ledger) Admissible
      (applyOverrunValidated ledger i record observation) := by
  have hlive : record.phase.isLive = true := by rw [hactive]; rfl
  have hmem := List.mem_of_getElem? hget
  have hphase := hwf.reservations.phases record hmem
  have hobserved := hwf.reservations.observed record hmem
  obtain ⟨target, htarget, hbudget, _, accounts, hcharge, hsettled⟩ :=
    release_charge_settles hwf hget hlive (outstandingValidated record)
      fun d => (outstandingValidated_get hobserved d).le
  have hopen := open_of_live hwf.accounts htarget hmem hbudget hlive
  obtain ⟨j, hfind, _⟩ := findAccount_of_mem hwf.accounts.unique htarget
  unfold applyOverrunValidated
  refine satisfies_ensure_bind (admissible_reservation nofun nofun) fun _ => ?_
  simp only [hbudget, hfind]
  rw [hbudget] at hcharge
  refine satisfies_bind_of_ok hcharge ?_
  obtain ⟨accounts', hfault, hsettled'⟩ :=
    faultLineage_settles (ledger.reservations.set i
      { record with
        observed := record.request.reserve
        observationEvidence := some observation.evidenceDigest
        phase := .overrunFaulted
        finalEvidence := some observation.evidenceDigest
        finalReported := some observation.cumulative
        finality := some observation.finality })
      hwf.accounts htarget hopen hsettled
  refine satisfies_bind_of_ok hfault ?_
  refine .settled hsettled' htarget hbudget hget ?_ (fun d => Nat.le_refl _) rfl
    rfl
  refine recordStep_of_full hlive hobserved rfl rfl rfl ?_
  simp only [validateRecordPhase, hactive, ensure_eq_ok_iff,
    Bool.and_eq_true] at hphase ⊢
  simp [hphase, hoverrun]

end Active

theorem observeValidated_satisfies (hwf : WellFormed ledger)
    (observation : UsageObservation) :
    Satisfies (Steps ledger) Admissible
      (observeValidated ledger observation) := by
  unfold observeValidated
  refine (requireReservation_satisfies observation.reservationId).bind
    fun found _ hget => ?_
  obtain ⟨i, record⟩ := found
  dsimp only at hget ⊢
  refine (requireBinding_satisfies record _ _).bind fun _ _ _ => ?_
  split
  · rename_i hactive
    refine satisfies_ensure_bind (admissible_reservation nofun nofun)
      fun hmonotone => ?_
    rw [BudgetAmounts.fitsWithin_iff] at hmonotone
    refine satisfies_ensure_bind (admissible_reservation nofun nofun)
      fun _ => ?_
    split
    · exact .idle rfl
    · split
      · rename_i hoverrun
        exact applyOverrunValidated_satisfies hwf hget hactive
          (by simpa using hoverrun)
      · rename_i hfits
        have hceiling := BudgetAmounts.fitsWithin_iff.mp (by simpa using hfits)
        split
        · exact applyFinalValidated_satisfies hwf hget hactive hmonotone
            hceiling
        · exact applyInterimValidated_satisfies hwf hget hactive hmonotone
            hceiling
  · exact replayFinalObservationValidated_satisfies record observation

/-- A full settlement leaves the record in a phase its evidence fits. -/
theorem finalizeFullCeiling_satisfies (hwf : WellFormed ledger)
    (reference : ReservationReference) (operation : BudgetOperation)
    {finalPhase : ReservationPhase}
    (hfinal : finalPhase = .settledExact ∨ finalPhase = .settledAmbiguous) :
    Satisfies (Steps ledger) Admissible
      (finalizeFullCeiling ledger reference operation finalPhase) := by
  unfold finalizeFullCeiling
  refine (requireReservation_satisfies reference.reservationId).bind
    fun found _ hget => ?_
  obtain ⟨i, record⟩ := found
  dsimp only at hget ⊢
  refine (requireBinding_satisfies record _ _).bind fun _ _ _ => ?_
  split
  · exact .idle rfl
  · refine satisfies_ensure_bind (admissible_reservation nofun nofun)
      fun hactive => ?_
    have hactive := of_decide_eq_true hactive
    have hlive : record.phase.isLive = true := by rw [hactive]; rfl
    have hmem := List.mem_of_getElem? hget
    have hphase := hwf.reservations.phases record hmem
    have hobserved := hwf.reservations.observed record hmem
    obtain ⟨target, htarget, hbudget, _, accounts, hcharge, hsettled⟩ :=
      release_charge_settles hwf hget hlive (outstandingValidated record)
        fun d => (outstandingValidated_get hobserved d).le
    refine satisfies_bind_of_ok hcharge ?_
    refine .settled hsettled htarget hbudget hget ?_ (fun d => Nat.le_refl _)
      rfl rfl
    refine recordStep_of_full hlive hobserved rfl rfl ?_ ?_
    · rcases hfinal with rfl | rfl <;> rfl
    · simp only [validateRecordPhase, hactive, ensure_eq_ok_iff,
        Bool.and_eq_true] at hphase
      rcases hfinal with rfl | rfl <;>
        simp [validateRecordPhase, hphase]

theorem cancelHeld_satisfies (hwf : WellFormed ledger)
    (reference : ReservationReference) :
    Satisfies (Steps ledger) Admissible (cancelHeld ledger reference) := by
  unfold cancelHeld
  refine (requireReservation_satisfies reference.reservationId).bind
    fun found _ hget => ?_
  obtain ⟨i, record⟩ := found
  dsimp only at hget ⊢
  refine (requireBinding_satisfies record _ _).bind fun _ _ _ => ?_
  split
  · exact .idle rfl
  · refine satisfies_ensure_bind (admissible_reservation nofun nofun)
      fun hheldPhase => ?_
    have hheldPhase := of_decide_eq_true hheldPhase
    have hlive : record.phase.isLive = true := by rw [hheldPhase]; rfl
    have hmem := List.mem_of_getElem? hget
    have hphase := hwf.reservations.phases record hmem
    have hchecks := hphase
    simp only [validateRecordPhase, hheldPhase, ensure_eq_ok_iff,
      Bool.and_eq_true, BudgetAmounts.isZero_iff] at hchecks
    have hzero : ∀ d, record.observed.get d = 0 := hchecks.1.1.1.1.1
    obtain ⟨target, htarget, hbudget⟩ := exists_target hwf hmem
    have hheld : ∀ d, held d record = record.request.reserve.get d :=
      fun d => by simp [held, hlive, hzero d]
    obtain ⟨accounts, hrelease, hsettled⟩ :=
      releaseReservation_settles hwf.accounts htarget hbudget
        record.request.reserve fun d => by
          rw [← hheld d]
          exact held_le_reserved hwf.accounts htarget hmem hbudget d
    unfold releaseFullReservation
    rw [hrelease]
    refine .settled hsettled htarget hbudget hget ?_ (fun d => Nat.zero_le _) rfl
      rfl
    exact
      { request := rfl
        live := hlive
        observed := fun d => rfl
        within := hwf.reservations.observed record hmem
        phase := by
          simp only [validateRecordPhase, hheldPhase, ensure_eq_ok_iff,
            Bool.and_eq_true] at hphase ⊢
          simp [hphase]
        held := fun d => by
          rw [hheld d]
          simp [held, ReservationPhase.isLive] }

/-! ### Every command -/

/-- The errors a command may end in on a well-formed ledger. -/
def CallerError (command : BudgetCommand) (error : BudgetError) : Prop :=
  Admissible error ∨
    ∃ request, command = .begin request ∧ RequestOverflows request error

theorem applyValidated_satisfies (hwf : WellFormed ledger)
    (command : BudgetCommand) :
    Satisfies (Steps ledger) (CallerError command)
      (applyValidated ledger command) := by
  have hadmissible : ∀ {result : Applied},
      Satisfies (Steps ledger) Admissible result →
        Satisfies (Steps ledger) (CallerError command) result :=
    fun h => h.imp (fun _ h => h) fun _ h => .inl h
  cases command with
  | allocateChild request => exact hadmissible (allocateChild_satisfies hwf request)
  | begin request =>
      exact (begin_satisfies hwf request).imp (fun _ h => h)
        fun _ h => h.imp_right fun h => ⟨request, rfl, h⟩
  | activate activation => exact hadmissible (activate_satisfies hwf activation)
  | observeUsage observation =>
      exact hadmissible (observeValidated_satisfies hwf observation)
  | settleExact reference =>
      exact hadmissible
        (finalizeFullCeiling_satisfies hwf reference .settleExact (.inl rfl))
  | cancelHeld reference => exact hadmissible (cancelHeld_satisfies hwf reference)
  | finalizeAmbiguous finalization =>
      exact hadmissible (finalizeFullCeiling_satisfies hwf finalization.reference
        .finalizeAmbiguous (.inr rfl))
  | «seal» budgetId => exact hadmissible (sealValidated_satisfies budgetId)
  | close budgetId => exact hadmissible (closeValidated_satisfies hwf budgetId)

end Peritus.Budget.Commands
