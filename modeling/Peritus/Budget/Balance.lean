import Peritus.Forest
import Peritus.Budget.Validation

/-!
What a validated ledger is: a tree of accounts whose balances add up, and
reservations that follow their phases.  The executable validation accepts
exactly these ledgers.
-/

namespace Peritus.Budget.Balance

open Peritus.Types Checked Collections Amounts State Accounting Transition Validation

/-! ### Totals of a ledger -/

def childLimits (dimension : BudgetDimension) (parentId : BudgetId)
    (child : BudgetAccount) : Nat :=
  if childContributes parentId child then child.limits.amounts.get dimension
  else 0

def childConsumed (dimension : BudgetDimension) (parentId : BudgetId)
    (child : BudgetAccount) : Nat :=
  if childContributes parentId child then child.consumed.get dimension else 0

/-- What a live reservation still holds. -/
def held (dimension : BudgetDimension) (record : ReservationRecord) : Nat :=
  if record.phase.isLive then
    record.request.reserve.get dimension - record.observed.get dimension
  else 0

def heldAt (dimension : BudgetDimension) (budgetId : BudgetId)
    (record : ReservationRecord) : Nat :=
  if reservationContributes budgetId record then held dimension record else 0

/-! ### Well-formed ledgers -/

structure AccountsBalance (ledger : BudgetLedger) : Prop where
  root : ∃ root rest, ledger.accounts = root :: rest ∧
    root.id = ledger.rootId ∧ root.parentId = none
  unique : (ledger.accounts.map (·.id)).Nodup
  parents : ∀ i child, ledger.accounts[i]? = some child → 0 < i →
    ∃ j parent, j < i ∧ ledger.accounts[j]? = some parent ∧
      child.parentId = some parent.id ∧ child.revision = parent.revision
  available : ∀ account ∈ ledger.accounts, ∀ d,
    account.consumed.get d + account.operationReserved.get d
      + account.childDelegatedRemaining.get d ≤ account.limits.amounts.get d
  delegated : ∀ account ∈ ledger.accounts, ∀ d,
    account.childDelegatedRemaining.get d
      + (ledger.accounts.map (childConsumed d account.id)).sum =
      (ledger.accounts.map (childLimits d account.id)).sum
  reserved : ∀ account ∈ ledger.accounts, ∀ d,
    account.operationReserved.get d =
      (ledger.reservations.map (heldAt d account.id)).sum
  closed : ∀ account ∈ ledger.accounts, account.phase = .closed →
    hasLiveWork ledger account.id = false

structure ReservationsFollow (ledger : BudgetLedger) : Prop where
  unique : (ledger.reservations.map (·.request.reservationId)).Nodup
  charged : ∀ record ∈ ledger.reservations, ∃ account ∈ ledger.accounts,
    account.id = record.request.budgetId ∧
      record.request.revision = account.revision
  observed : ∀ record ∈ ledger.reservations, ∀ d,
    record.observed.get d ≤ record.request.reserve.get d
  phases : ∀ record ∈ ledger.reservations, validateRecordPhase record = .ok ()
  attempts : ∀ i record, ledger.reservations[i]? = some record →
    ∃ retry, retryRequired ledger record.request i = .ok retry ∧
      validateAttemptCharge record.request retry = .ok ()

structure WellFormed (ledger : BudgetLedger) : Prop where
  accounts : AccountsBalance ledger
  reservations : ReservationsFollow ledger

/-! ### The checks, read back -/

theorem orArithmetic_eq_ok_iff {α : Type}
    {result : Except AmountArithmeticError α} {value : α} :
    orArithmetic result = .ok value ↔ result = .ok value := by
  cases result with
  | error error => exact ⟨fun h => (by cases h), fun h => (by cases h)⟩
  | ok found => exact ⟨fun h => (by cases h; rfl), fun h => (by cases h; rfl)⟩

theorem orElseError_eq_ok_iff {α : Type} {result : Except BudgetError α}
    {error : BudgetError} {value : α} :
    orElseError result error = .ok value ↔ result = .ok value := by
  cases result with
  | error error => exact ⟨fun h => (by cases h), fun h => (by cases h)⟩
  | ok found => exact ⟨fun h => (by cases h; rfl), fun h => (by cases h; rfl)⟩

theorem accountAt_eq_ok_iff {ledger : BudgetLedger} {index : Nat}
    {account : BudgetAccount} :
    accountAt ledger index = .ok account ↔
      ledger.accounts[index]? = some account := by
  unfold accountAt
  cases ledger.accounts[index]? with
  | none => exact ⟨fun h => (by cases h), fun h => (by cases h)⟩
  | some found => simp

theorem reservationAt_eq_ok_iff {ledger : BudgetLedger} {index : Nat}
    {record : ReservationRecord} :
    reservationAt ledger index = .ok record ↔
      ledger.reservations[index]? = some record := by
  unfold reservationAt
  cases ledger.reservations[index]? with
  | none => exact ⟨fun h => (by cases h), fun h => (by cases h)⟩
  | some found => simp

theorem available_eq_ok_iff {account : BudgetAccount} {amounts : BudgetAmounts} :
    available account = .ok amounts ↔ ∀ d,
      account.limits.amounts.get d = account.consumed.get d
        + account.operationReserved.get d
        + account.childDelegatedRemaining.get d + amounts.get d := by
  unfold available
  simp only [bind_eq_ok_iff, orArithmetic_eq_ok_iff,
    BudgetAmounts.checkedSub_eq_ok_iff]
  constructor
  · rintro ⟨afterConsumed, h₁, afterReserved, h₂, h₃⟩ d
    have := h₁ d
    have := h₂ d
    have := h₃ d
    omega
  · intro h
    obtain ⟨afterConsumed, hconsumed⟩ := BudgetAmounts.exists_checkedSub
      account.limits.amounts account.consumed fun d => by have := h d; omega
    rw [BudgetAmounts.checkedSub_eq_ok_iff] at hconsumed
    obtain ⟨afterReserved, hreserved⟩ := BudgetAmounts.exists_checkedSub
      afterConsumed account.operationReserved fun d => by have := h d; have := hconsumed d; omega
    rw [BudgetAmounts.checkedSub_eq_ok_iff] at hreserved
    refine ⟨afterConsumed, hconsumed, afterReserved, hreserved, fun d => ?_⟩
    have := h d
    have := hconsumed d
    have := hreserved d
    omega

theorem exists_available {account : BudgetAccount}
    (h : ∀ d, account.consumed.get d + account.operationReserved.get d
      + account.childDelegatedRemaining.get d ≤
        account.limits.amounts.get d) :
    ∃ amounts, available account = .ok amounts := by
  have hbound : ∀ d, account.limits.amounts.get d - (account.consumed.get d
      + account.operationReserved.get d
      + account.childDelegatedRemaining.get d) ≤ u64Max := fun d =>
    (Nat.sub_le _ _).trans (account.limits.amounts.get_le d)
  obtain ⟨amounts, hamounts⟩ := BudgetAmounts.exists_get hbound
  refine ⟨amounts, available_eq_ok_iff.mpr fun d => ?_⟩
  have := h d
  have := hamounts d
  omega

theorem outstanding_eq_ok_iff {record : ReservationRecord}
    {amounts : BudgetAmounts} :
    outstanding record = .ok amounts ↔
      (record.phase.isLive = true →
        ∀ d, record.observed.get d ≤ record.request.reserve.get d) ∧
      ∀ d, amounts.get d = held d record := by
  unfold outstanding held
  cases record.phase.isLive with
  | false =>
      simp only [Bool.false_eq_true, if_false, Except.ok.injEq, false_imp_iff,
        true_and]
      constructor
      · rintro rfl d
        exact BudgetAmounts.get_zero d
      · intro h
        exact BudgetAmounts.ext_get fun d => by rw [h d, BudgetAmounts.get_zero]
  | true =>
      simp only [if_true, orArithmetic_eq_ok_iff,
        BudgetAmounts.checkedSub_eq_ok_iff, true_imp_iff]
      constructor
      · intro h
        exact ⟨fun d => by have := h d; omega, fun d => by have := h d; omega⟩
      · rintro ⟨hle, h⟩ d
        have := h d
        have := hle d
        omega

/-! ### The two running totals -/

theorem childRemainingScan_eq_ok_iff {account : BudgetAccount}
    {children : List BudgetAccount} {total result : BudgetAmounts} :
    childRemainingScan account total children = .ok result ↔
      (∀ child ∈ children, childContributes account.id child = true →
        child.revision = account.revision ∧
          ∀ d, child.consumed.get d ≤ child.limits.amounts.get d) ∧
      ∀ d, result.get d + (children.map (childConsumed d account.id)).sum =
        total.get d + (children.map (childLimits d account.id)).sum := by
  induction children generalizing total with
  | nil =>
      simp only [childRemainingScan, Except.ok.injEq, List.map_nil,
        List.sum_nil, Nat.add_zero, List.not_mem_nil, false_imp_iff,
        implies_true, true_and]
      exact ⟨fun h d => by rw [h], fun h =>
        (BudgetAmounts.ext_get fun d => (h d)).symm⟩
  | cons child rest ih =>
      unfold childRemainingScan
      simp only [List.forall_mem_cons, List.map_cons, List.sum_cons]
      cases hcontributes : childContributes account.id child with
      | false =>
          simp only [Bool.false_eq_true, if_false, ih, childConsumed,
            childLimits, hcontributes, Nat.zero_add, false_imp_iff, true_and]
      | true =>
          simp only [if_true, ensure_bind_eq_ok_iff, decide_eq_true_eq]
          simp only [bind_eq_ok_iff, orElseError_eq_ok_iff,
            orArithmetic_eq_ok_iff, BudgetAmounts.checkedSub_eq_ok_iff,
            BudgetAmounts.checkedAdd_eq_ok_iff, ih, true_imp_iff]
          constructor
          · rintro ⟨hrevision, remaining, hremaining, next, hnext, hrest,
              htotal⟩
            refine ⟨⟨⟨hrevision, fun d => ?_⟩, hrest⟩, fun d => ?_⟩
            · have := hremaining d
              omega
            · have := hremaining d
              have := hnext d
              have := htotal d
              simp only [childConsumed, childLimits, hcontributes, if_true] at *
              omega
          · rintro ⟨⟨⟨hrevision, hle⟩, hrest⟩, htotal⟩
            have hmono : ∀ d, (rest.map (childConsumed d account.id)).sum ≤
                (rest.map (childLimits d account.id)).sum := fun d =>
              sum_map_mono fun c hc => by
                unfold childConsumed childLimits
                split
                · exact (hrest c hc ‹_›).2 d
                · exact Nat.le_refl _
            have hhead : ∀ d, result.get d + child.consumed.get d
                + (rest.map (childConsumed d account.id)).sum =
                  total.get d + child.limits.amounts.get d
                    + (rest.map (childLimits d account.id)).sum := by
              intro d
              have := htotal d
              simp only [childConsumed, childLimits, hcontributes,
                if_true] at this ⊢
              omega
            obtain ⟨remaining, hremaining⟩ :=
              BudgetAmounts.exists_checkedSub child.limits.amounts
                child.consumed hle
            rw [BudgetAmounts.checkedSub_eq_ok_iff] at hremaining
            obtain ⟨next, hnext⟩ :=
              BudgetAmounts.exists_checkedAdd total remaining fun d => by
                  have := result.get_le d
                  have := hhead d
                  have := hmono d
                  have := hremaining d
                  omega
            rw [BudgetAmounts.checkedAdd_eq_ok_iff] at hnext
            refine ⟨hrevision, remaining, hremaining, next, hnext, hrest,
              fun d => ?_⟩
            have := hhead d
            have := hremaining d
            have := hnext d
            omega

theorem operationReservedScan_eq_ok_iff {budgetId : BudgetId}
    {records : List ReservationRecord} {total result : BudgetAmounts} :
    operationReservedScan budgetId total records = .ok result ↔
      (∀ record ∈ records, reservationContributes budgetId record = true →
        record.phase.isLive = true →
          ∀ d, record.observed.get d ≤ record.request.reserve.get d) ∧
      ∀ d, result.get d =
        total.get d + (records.map (heldAt d budgetId)).sum := by
  induction records generalizing total with
  | nil =>
      simp only [operationReservedScan, Except.ok.injEq, List.map_nil,
        List.sum_nil, Nat.add_zero, List.not_mem_nil, false_imp_iff,
        implies_true, true_and]
      exact ⟨fun h d => by rw [h], fun h =>
        (BudgetAmounts.ext_get fun d => (h d)).symm⟩
  | cons record rest ih =>
      unfold operationReservedScan
      simp only [List.forall_mem_cons, List.map_cons, List.sum_cons]
      cases hcontributes : reservationContributes budgetId record with
      | false =>
          simp only [Bool.false_eq_true, if_false, ih, heldAt, hcontributes,
            Nat.zero_add, false_imp_iff, true_and]
      | true =>
          simp only [if_true, bind_eq_ok_iff, orElseError_eq_ok_iff,
            orArithmetic_eq_ok_iff, outstanding_eq_ok_iff,
            BudgetAmounts.checkedAdd_eq_ok_iff, ih, true_imp_iff]
          constructor
          · rintro ⟨amount, ⟨hle, hamount⟩, next, hnext, hrest, htotal⟩
            refine ⟨⟨hle, hrest⟩, fun d => ?_⟩
            have := hamount d
            have := hnext d
            have := htotal d
            simp only [heldAt, hcontributes, if_true] at *
            omega
          · rintro ⟨⟨hle, hrest⟩, htotal⟩
            have hhead : ∀ d, result.get d = total.get d + held d record
                + (rest.map (heldAt d budgetId)).sum := by
              intro d
              have := htotal d
              simp only [heldAt, hcontributes, if_true] at this ⊢
              omega
            obtain ⟨amount, hamount⟩ :=
              BudgetAmounts.exists_get (f := fun d => held d record) fun d => by
                have := result.get_le d
                have := hhead d
                omega
            obtain ⟨next, hnext⟩ :=
              BudgetAmounts.exists_checkedAdd total amount fun d => by
                  have := result.get_le d
                  have := hhead d
                  have := hamount d
                  omega
            rw [BudgetAmounts.checkedAdd_eq_ok_iff] at hnext
            refine ⟨amount, ⟨hle, hamount⟩, next, hnext, hrest, fun d => ?_⟩
            have := hhead d
            have := hamount d
            have := hnext d
            omega

/-! ### Validation accepts exactly the well-formed ledgers -/

theorem validateRoot_eq_ok_iff {ledger : BudgetLedger} :
    validateRoot ledger = .ok () ↔ ∃ root rest,
      ledger.accounts = root :: rest ∧ root.id = ledger.rootId ∧
        root.parentId = none := by
  unfold validateRoot findAccount
  cases haccounts : ledger.accounts with
  | nil => simp [ensure, bind, Except.bind]
  | cons root rest =>
      simp only [List.isEmpty_cons, Bool.not_false, ensure_true, findIndexed]
      by_cases hroot : root.id = ledger.rootId
      · simp [hroot, bind, Except.bind]
      · constructor
        · intro h
          cases hrest : findIndexed
              (fun account => decide (account.id = ledger.rootId)) rest <;>
            simp [hroot, hrest, bind, Except.bind] at h
        · rintro ⟨_, _, hcons, hid, _⟩
          cases hcons
          exact absurd hid hroot

theorem validateParentBefore_eq_ok {ledger : BudgetLedger} {index : Nat}
    {child : BudgetAccount}
    (h : validateParentBefore ledger index child = .ok ()) :
    ∃ j parent, j < index ∧ ledger.accounts[j]? = some parent ∧
      child.parentId = some parent.id ∧ child.revision = parent.revision := by
  unfold validateParentBefore at h
  rw [ensure_bind_eq_ok_iff] at h
  obtain ⟨_, h⟩ := h
  split at h
  · cases h
  · rename_i j parent hfound
    rw [ensure_eq_ok_iff, decide_eq_true_eq] at h
    obtain ⟨hj, hget, hparent⟩ := findIndexed_take hfound
    exact ⟨j, parent, hj, hget, of_decide_eq_true hparent, h⟩

theorem validateParentBefore_of {ledger : BudgetLedger} {index j : Nat}
    {child parent : BudgetAccount}
    (hunique : (ledger.accounts.map (·.id)).Nodup) (hj : j < index)
    (hget : ledger.accounts[j]? = some parent)
    (hparent : child.parentId = some parent.id)
    (hrevision : child.revision = parent.revision) :
    validateParentBefore ledger index child = .ok () := by
  have hmem : parent ∈ ledger.accounts.take index :=
    List.mem_of_getElem? (i := j) (by rw [List.getElem?_take_of_lt hj, hget])
  unfold validateParentBefore
  rw [ensure_bind_eq_ok_iff, hparent]
  refine ⟨rfl, ?_⟩
  split
  · rename_i hnone
    have := findIndexed_eq_none.mp hnone parent hmem
    simp at this
  · rename_i k found hfound
    obtain ⟨_, hgetFound, hmatch⟩ := findIndexed_take hfound
    have hid : found.id = parent.id := by simpa using (of_decide_eq_true hmatch).symm
    have hfoundEq : found = parent :=
      eq_of_getElem?_of_unique hunique (List.mem_of_getElem? hgetFound)
        (List.mem_of_getElem? hget) hid
    rw [ensure_eq_ok_iff, decide_eq_true_eq, hfoundEq]
    exact hrevision

theorem duplicateAccountBefore_eq_false_iff {ledger : BudgetLedger}
    {budgetId : BudgetId} {limit : Nat} :
    duplicateAccountBefore ledger budgetId limit = false ↔
      ∀ account ∈ ledger.accounts.take limit, account.id ≠ budgetId := by
  simp [duplicateAccountBefore, List.any_eq_false]

theorem duplicateReservationBefore_eq_false_iff {ledger : BudgetLedger}
    {reservationId : BudgetReservationId} {limit : Nat} :
    duplicateReservationBefore ledger reservationId limit = false ↔
      ∀ record ∈ ledger.reservations.take limit,
        record.request.reservationId ≠ reservationId := by
  simp [duplicateReservationBefore, List.any_eq_false]

theorem validateParentOfLater_eq_ok_iff {ledger : BudgetLedger} {index : Nat}
    {account : BudgetAccount} :
    validateParentOfLater ledger index account = .ok () ↔
      (0 < index → validateParentBefore ledger index account = .ok ()) := by
  unfold validateParentOfLater
  split
  · rename_i hpos
    exact ⟨fun h _ => h, fun h => h hpos⟩
  · rename_i hzero
    exact ⟨fun _ h => absurd h hzero, fun _ => rfl⟩

theorem validateAccountAt_eq_ok_iff {ledger : BudgetLedger} {index : Nat} :
    validateAccountAt ledger index = .ok () ↔ ∃ account,
      ledger.accounts[index]? = some account ∧
      (∀ earlier ∈ ledger.accounts.take index, earlier.id ≠ account.id) ∧
      (0 < index → validateParentBefore ledger index account = .ok ()) ∧
      (∃ amounts, available account = .ok amounts) ∧
      directChildRemaining ledger account =
        .ok account.childDelegatedRemaining ∧
      directOperationReserved ledger account =
        .ok account.operationReserved ∧
      (account.phase = .closed → hasLiveWork ledger account.id = false) := by
  unfold validateAccountAt
  simp only [bind_eq_ok_iff, accountAt_eq_ok_iff, ensure_eq_ok_iff,
    orElseError_eq_ok_iff, Bool.not_eq_true',
    duplicateAccountBefore_eq_false_iff, decide_eq_true_eq,
    Bool.and_eq_false_iff, decide_eq_false_iff_not, exists_unit_iff,
    validateParentOfLater_eq_ok_iff]
  constructor
  · rintro ⟨account, hget, hearlier, hparent, amounts, havailable, child,
      hchild, rfl, reserved, hreserved, rfl, hclosed⟩
    exact ⟨account, hget, hearlier, hparent, ⟨amounts, havailable⟩, hchild,
      hreserved, fun hphase => hclosed.resolve_left (not_not.mpr hphase)⟩
  · rintro ⟨account, hget, hearlier, hparent, ⟨amounts, havailable⟩, hchild,
      hreserved, hclosed⟩
    exact ⟨account, hget, hearlier, hparent, amounts, havailable, _, hchild,
      rfl, _, hreserved, rfl, Decidable.not_or_of_imp hclosed⟩

theorem validateAccounts_eq_ok {ledger : BudgetLedger}
    (h : validateAccounts ledger = .ok ()) : AccountsBalance ledger := by
  unfold validateAccounts at h
  rw [check_bind_eq_ok_iff, validateRoot_eq_ok_iff,
    forEach_range_eq_ok_iff] at h
  simp only [validateAccountAt_eq_ok_iff, directChildRemaining,
    directOperationReserved, childRemainingScan_eq_ok_iff,
    operationReservedScan_eq_ok_iff, BudgetAmounts.get_zero, Nat.zero_add] at h
  obtain ⟨hroot, hall⟩ := h
  have hchecked : ∀ {i account}, ledger.accounts[i]? = some account → _ :=
    fun {i account} hget => hall i (List.getElem?_eq_some_iff.mp hget).1
  refine
    { root := hroot
      unique := nodup_map_iff_take.mpr fun i account hget earlier hearlier => ?_
      parents := fun i child hget hpos => ?_
      available := fun account hmem d => ?_
      delegated := fun account hmem d => ?_
      reserved := fun account hmem d => ?_
      closed := fun account hmem hphase => ?_ }
  · obtain ⟨found, hfound, hunique, _⟩ := hchecked hget
    cases hget.symm.trans hfound
    exact hunique earlier hearlier
  · obtain ⟨found, hfound, _, hparent, _⟩ := hchecked hget
    cases hget.symm.trans hfound
    exact validateParentBefore_eq_ok (hparent hpos)
  all_goals
    obtain ⟨i, hget⟩ := List.mem_iff_getElem?.mp hmem
    obtain ⟨found, hfound, _, _, ⟨amounts, havailable⟩, ⟨_, hchild⟩,
      ⟨_, hreserved⟩, hclosed⟩ := hchecked hget
    cases hget.symm.trans hfound
  · have := available_eq_ok_iff.mp havailable d
    omega
  · exact hchild d
  · exact hreserved d
  · exact hclosed hphase

namespace AccountsBalance

variable {ledger : BudgetLedger}

/-- The parent of an account, by the id the account names. -/
theorem parent_of_id (h : AccountsBalance ledger) {i : Nat}
    {child : BudgetAccount} {parentId : BudgetId}
    (hget : ledger.accounts[i]? = some child)
    (hparent : child.parentId = some parentId) :
    ∃ j parent, j < i ∧ ledger.accounts[j]? = some parent ∧
      parent.id = parentId ∧ child.revision = parent.revision := by
  have hpos : 0 < i := by
    rcases Nat.eq_zero_or_pos i with rfl | hpos
    · obtain ⟨root, rest, haccounts, _, hroot⟩ := h.root
      rw [haccounts] at hget
      cases hget
      rw [hroot] at hparent
      cases hparent
    · exact hpos
  obtain ⟨j, parent, hj, hgetParent, hid, hrevision⟩ :=
    h.parents i child hget hpos
  rw [hparent, Option.some.injEq] at hid
  exact ⟨j, parent, hj, hgetParent, hid.symm, hrevision⟩

theorem validateAccounts (h : AccountsBalance ledger)
    (hobserved : ∀ record ∈ ledger.reservations, ∀ d,
      record.observed.get d ≤ record.request.reserve.get d) :
    Validation.validateAccounts ledger = .ok () := by
  unfold Validation.validateAccounts
  rw [check_bind_eq_ok_iff, validateRoot_eq_ok_iff, forEach_range_eq_ok_iff]
  simp only [validateAccountAt_eq_ok_iff, directChildRemaining,
    directOperationReserved, childRemainingScan_eq_ok_iff,
    operationReservedScan_eq_ok_iff, BudgetAmounts.get_zero, Nat.zero_add]
  refine ⟨h.root, fun i hi => ?_⟩
  have hget := List.getElem?_eq_getElem hi
  have hmem := List.mem_of_getElem? hget
  refine ⟨_, hget, nodup_map_iff_take.mp h.unique i _ hget, fun hpos => ?_,
    exists_available (h.available _ hmem),
    ⟨fun child hchild hcontributes => ⟨?_, fun d => ?_⟩, h.delegated _ hmem⟩,
    ⟨fun record hrecord _ _ => hobserved record hrecord, h.reserved _ hmem⟩,
    h.closed _ hmem⟩
  · obtain ⟨j, parent, hj, hparentGet, hparent, hrevision⟩ :=
      h.parents i _ hget hpos
    exact validateParentBefore_of h.unique hj hparentGet hparent hrevision
  · obtain ⟨k, hgetChild⟩ := List.mem_iff_getElem?.mp hchild
    have hparent := of_decide_eq_true (Bool.and_eq_true_iff.mp hcontributes).1
    obtain ⟨_, parent, _, hgetParent, hid, hrevision⟩ :=
      h.parent_of_id hgetChild hparent
    rw [hrevision, eq_of_getElem?_of_unique h.unique
      (List.mem_of_getElem? hgetParent) hmem hid]
  · have := h.available child hchild d
    omega

end AccountsBalance

theorem findAccount_of_mem {ledger : BudgetLedger} {account : BudgetAccount}
    (hunique : (ledger.accounts.map (·.id)).Nodup)
    (hmem : account ∈ ledger.accounts) :
    ∃ i, findAccount ledger account.id = some (i, account) ∧
      ledger.accounts[i]? = some account := by
  obtain ⟨i, hget⟩ := List.mem_iff_getElem?.mp hmem
  exact ⟨i, findIndexed_of_unique hunique hget, hget⟩

theorem findAccount_eq_some {ledger : BudgetLedger} {budgetId : BudgetId}
    {i : Nat} {account : BudgetAccount}
    (hfind : findAccount ledger budgetId = some (i, account)) :
    ledger.accounts[i]? = some account ∧ account.id = budgetId := by
  obtain ⟨hget, hid, _⟩ := findIndexed_eq_some hfind
  exact ⟨hget, of_decide_eq_true hid⟩

theorem validateReservationAt_eq_ok_iff {ledger : BudgetLedger} {index : Nat} :
    validateReservationAt ledger index = .ok () ↔ ∃ record,
      ledger.reservations[index]? = some record ∧
      (∀ earlier ∈ ledger.reservations.take index,
        earlier.request.reservationId ≠ record.request.reservationId) ∧
      (∃ i account, findAccount ledger record.request.budgetId =
          some (i, account) ∧ record.request.revision = account.revision) ∧
      (∀ d, record.observed.get d ≤ record.request.reserve.get d) ∧
      validateRecordPhase record = .ok () ∧
      ∃ retry, retryRequired ledger record.request index = .ok retry ∧
        validateAttemptCharge record.request retry = .ok () := by
  unfold validateReservationAt
  rw [bind_eq_ok_iff]
  simp only [reservationAt_eq_ok_iff, ensure_bind_eq_ok_iff, Bool.not_eq_true',
    duplicateReservationBefore_eq_false_iff]
  refine exists_congr fun record => and_congr_right fun _ =>
    and_congr_right fun _ => ?_
  cases hfind : findAccount ledger record.request.budgetId with
  | none => simp
  | some found =>
      obtain ⟨i, account⟩ := found
      simp only [bind_eq_ok_iff, exists_unit_iff, ensure_eq_ok_iff,
        orElseError_eq_ok_iff, Bool.not_eq_true', Bool.or_eq_false_iff, decide_eq_false_iff_not, not_not, ne_eq,
        Bool.not_eq_false', BudgetAmounts.fitsWithin_iff, Option.some.injEq,
        Prod.mk.injEq]
      constructor
      · rintro ⟨⟨hrevision, hobserved⟩, hphase, hretry⟩
        exact ⟨⟨i, account, ⟨rfl, rfl⟩, hrevision⟩, hobserved, hphase, hretry⟩
      · rintro ⟨⟨_, _, ⟨rfl, rfl⟩, hrevision⟩, hobserved, hphase, hretry⟩
        exact ⟨⟨hrevision, hobserved⟩, hphase, hretry⟩

theorem validateReservations_eq_ok_iff {ledger : BudgetLedger}
    (hunique : (ledger.accounts.map (·.id)).Nodup) :
    validateReservations ledger = .ok () ↔ ReservationsFollow ledger := by
  unfold validateReservations
  simp only [forEach_range_eq_ok_iff, validateReservationAt_eq_ok_iff]
  constructor
  · intro hall
    have hchecked : ∀ {i record}, ledger.reservations[i]? = some record → _ :=
      fun {i record} hget => hall i (List.getElem?_eq_some_iff.mp hget).1
    refine
      { unique := nodup_map_iff_take.mpr fun i record hget earlier hearlier => ?_
        charged := fun record hmem => ?_
        observed := fun record hmem d => ?_
        phases := fun record hmem => ?_
        attempts := fun i record hget => ?_ }
    · obtain ⟨found, hfound, hunique, _⟩ := hchecked hget
      cases hget.symm.trans hfound
      exact hunique earlier hearlier
    · obtain ⟨i, hget⟩ := List.mem_iff_getElem?.mp hmem
      obtain ⟨found, hfound, _, ⟨j, account, hfind, hrevision⟩, _⟩ :=
        hchecked hget
      cases hget.symm.trans hfound
      obtain ⟨hgetAccount, hid⟩ := findAccount_eq_some hfind
      exact ⟨account, List.mem_of_getElem? hgetAccount, hid, hrevision⟩
    · obtain ⟨i, hget⟩ := List.mem_iff_getElem?.mp hmem
      obtain ⟨found, hfound, _, _, hobserved, _⟩ := hchecked hget
      cases hget.symm.trans hfound
      exact hobserved d
    · obtain ⟨i, hget⟩ := List.mem_iff_getElem?.mp hmem
      obtain ⟨found, hfound, _, _, _, hphase, _⟩ := hchecked hget
      cases hget.symm.trans hfound
      exact hphase
    · obtain ⟨found, hfound, _, _, _, _, hattempts⟩ := hchecked hget
      cases hget.symm.trans hfound
      exact hattempts
  · intro h i hi
    have hget := List.getElem?_eq_getElem hi
    have hmem := List.mem_of_getElem? hget
    obtain ⟨account, hmemAccount, hid, hrevision⟩ := h.charged _ hmem
    obtain ⟨j, hfind, _⟩ := findAccount_of_mem hunique hmemAccount
    exact ⟨_, hget, nodup_map_iff_take.mp h.unique i _ hget,
      ⟨j, account, hid ▸ hfind, hrevision⟩, h.observed _ hmem,
      h.phases _ hmem, h.attempts i _ hget⟩

theorem validate_eq_ok_iff {ledger : BudgetLedger} :
    validate ledger = .ok () ↔ WellFormed ledger := by
  unfold validate
  rw [check_bind_eq_ok_iff]
  constructor
  · rintro ⟨haccounts, hreservations⟩
    have hbalance := validateAccounts_eq_ok haccounts
    exact ⟨hbalance,
      (validateReservations_eq_ok_iff hbalance.unique).mp hreservations⟩
  · rintro ⟨hbalance, hfollow⟩
    exact ⟨hbalance.validateAccounts hfollow.observed,
      (validateReservations_eq_ok_iff hbalance.unique).mpr hfollow⟩

end Peritus.Budget.Balance
