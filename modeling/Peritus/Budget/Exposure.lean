import Peritus.Budget.Conservation

/-!
What an account stands to lose: its own consumption with all that the live
reservations of its subtree still hold.  It stays within the account's limits,
however much of what is held comes to be consumed.
-/

namespace Peritus.Budget.Exposure

open Peritus.Types TransitionSystem Collections Forest Amounts State Accounting
open Validation Balance Lineage Conservation

variable {ledger : BudgetLedger} {account : BudgetAccount}

/-- What the live reservations charged in a subtree still hold. -/
noncomputable def heldBelow (ledger : BudgetLedger) (rootId : BudgetId)
    (d : BudgetDimension) : Nat :=
  ((chargedBelow ledger rootId).map (held d)).sum

/-- What the children of an account hold between them. -/
noncomputable def heldByChildren (ledger : BudgetLedger) (parentId : BudgetId)
    (d : BudgetDimension) : Nat :=
  (ledger.accounts.map fun child =>
    if child.parentId = some parentId then heldBelow ledger child.id d else 0).sum

theorem heldBelow_eq (ledger : BudgetLedger) (rootId : BudgetId)
    (d : BudgetDimension) :
    heldBelow ledger rootId d = (ledger.reservations.map fun record =>
      onLineage (parentOf ledger.accounts) record.request.budgetId rootId
        (held d record)).sum := by
  unfold heldBelow chargedBelow
  induction ledger.reservations with
  | nil => rfl
  | cons record rest ih =>
      rw [List.map_cons, List.sum_cons, ← ih, List.filter_cons]
      by_cases h : InSubtree ledger rootId record.request.budgetId
      · rw [onLineage_of h, if_pos (by simpa using h), List.map_cons,
          List.sum_cons]
      · rw [onLineage_of_not h, if_neg (by simpa using h), Nat.zero_add]

theorem sum_map_sum_comm {α β : Type} (rows : List α) (columns : List β)
    (w : α → β → Nat) :
    (rows.map fun row => (columns.map (w row)).sum).sum =
      (columns.map fun column => (rows.map fun row => w row column).sum).sum := by
  simpa using Multiset.sum_map_sum_map (rows : Multiset α) (columns : Multiset β)

/-- A reservation of the subtree is charged to the account itself or below one of
its children. -/
theorem heldBelow_le (hbalance : AccountsBalance ledger)
    (hfollow : ReservationsFollow ledger) (rootId : BudgetId) (d : BudgetDimension) :
    heldBelow ledger rootId d ≤
      (ledger.reservations.map (heldAt d rootId)).sum +
        heldByChildren ledger rootId d := by
  have htree := isTree_of_balance hbalance
  have hchildren : heldByChildren ledger rootId d =
      (ledger.reservations.map fun record => (ledger.accounts.map fun child =>
        if child.parentId = some rootId then
          onLineage (parentOf ledger.accounts) record.request.budgetId child.id
            (held d record)
        else 0).sum).sum := by
    rw [sum_map_sum_comm]
    refine congrArg List.sum (List.map_congr_left fun child _ => ?_)
    by_cases hparent : child.parentId = some rootId
    · simp only [if_pos hparent, heldBelow_eq]
    · simp [if_neg hparent]
  rw [heldBelow_eq, hchildren, ← List.sum_map_add]
  refine sum_map_mono fun record hrecord => ?_
  by_cases hbelow : Ancestor (parentOf ledger.accounts) record.request.budgetId rootId
  · rw [onLineage_of hbelow]
    by_cases hself : record.request.budgetId = rootId
    · refine Nat.le_trans (Nat.le_of_eq ?_) (Nat.le_add_right _ _)
      rw [heldAt, reservationContributes, if_pos (decide_eq_true hself)]
    · obtain ⟨childId, habove, hparent⟩ := exists_child_of_ancestor hbelow hself
      obtain ⟨target, htarget, hid, -⟩ := hfollow.charged record hrecord
      have hmem : childId ∈ ledger.accounts.map (·.id) := by
        refine htree.mem_of_ancestor habove ?_
        rw [← hid]
        exact List.mem_map_of_mem htarget
      obtain ⟨child, hchild, rfl⟩ := List.mem_map.mp hmem
      rw [htree.parentOf_eq hchild] at hparent
      refine Nat.le_trans ?_ (Nat.le_add_left _ _)
      refine Nat.le_trans ?_ (le_sum_map hchild)
      rw [if_pos hparent, onLineage_of habove]
  · rw [onLineage_of_not hbelow]
    exact Nat.zero_le _

/-- What an account is owed: its limits bound its exposure, and nothing is held
below a closed account. -/
def Covered (ledger : BudgetLedger) (account : BudgetAccount) : Prop :=
  ∀ d, account.consumed.get d + heldBelow ledger account.id d ≤
      account.limits.amounts.get d ∧
    (account.phase = .closed → heldBelow ledger account.id d = 0)

theorem heldByChildren_le (hbalance : AccountsBalance ledger)
    (haccount : account ∈ ledger.accounts)
    (hcovered : ∀ child ∈ ledger.accounts, child.parentId = some account.id →
      Covered ledger child) (d : BudgetDimension) :
    heldByChildren ledger account.id d ≤ account.childDelegatedRemaining.get d := by
  have hsum : heldByChildren ledger account.id d +
      (ledger.accounts.map (childConsumed d account.id)).sum ≤
      (ledger.accounts.map (childLimits d account.id)).sum := by
    unfold heldByChildren
    rw [← List.sum_map_add]
    refine sum_map_mono fun child hchild => ?_
    unfold childConsumed childLimits childContributes
    by_cases hparent : child.parentId = some account.id
    · obtain ⟨hlimit, hclosed⟩ := hcovered child hchild hparent d
      by_cases hphase : child.phase = .closed
      · simp [hparent, hphase, hclosed hphase]
      · simp only [hparent, hphase, if_true, decide_true, decide_false, Bool.not_false,
          Bool.and_self]
        omega
    · simp [hparent]
  have hdelegated := hbalance.delegated account haccount d
  omega

theorem heldByChildren_eq_zero
    (hidle : hasLiveWork ledger account.id = false)
    (hcovered : ∀ child ∈ ledger.accounts, child.parentId = some account.id →
      Covered ledger child) (d : BudgetDimension) :
    heldByChildren ledger account.id d = 0 := by
  refine sum_map_eq_zero fun child hchild => ?_
  by_cases hparent : child.parentId = some account.id
  · simp only [hasLiveWork, Bool.or_eq_false_iff, List.any_eq_false, Bool.and_eq_true,
      Bool.not_eq_true', decide_eq_true_eq, decide_eq_false_iff_not] at hidle
    have hphase : child.phase = .closed := by
      by_contra hopen
      exact hidle.2 child hchild ⟨hparent, hopen⟩
    rw [if_pos hparent]
    exact (hcovered child hchild hparent d).2 hphase
  · rw [if_neg hparent]

/-- From the leaves up: the children of an account come after it. -/
theorem covered_of_wellFormed (hwf : WellFormed ledger)
    (haccount : account ∈ ledger.accounts) : Covered ledger account := by
  obtain ⟨hbalance, hfollow⟩ := hwf
  obtain ⟨i, hget⟩ := List.mem_iff_getElem?.mp haccount
  induction hrest : ledger.accounts.length - i using Nat.strong_induction_on
    generalizing i account with
  | _ rest ih =>
      have hchildren : ∀ child ∈ ledger.accounts,
          child.parentId = some account.id → Covered ledger child := by
        intro child hchild hparent
        obtain ⟨k, hgetChild⟩ := List.mem_iff_getElem?.mp hchild
        obtain ⟨j, parent, hj, hgetParent, hid⟩ :=
          (isTree_of_balance hbalance).parents k child account.id hgetChild hparent
        have htree := isTree_of_balance hbalance
        have hsame := htree.find hgetParent
        rw [hid, htree.find hget] at hsame
        obtain ⟨rfl, rfl⟩ := Prod.mk.inj (Option.some.inj hsame)
        have hbound := (List.getElem?_eq_some_iff.mp hgetChild).1
        exact ih _ (by omega) hchild k hgetChild rfl
      intro d
      have hbelow := heldBelow_le hbalance hfollow account.id d
      have hreserved := hbalance.reserved account haccount d
      have havailable := hbalance.available account haccount d
      have hdelegated := heldByChildren_le hbalance haccount hchildren d
      refine ⟨by omega, fun hphase => ?_⟩
      have hidle := hbalance.closed account haccount hphase
      have hnone := heldByChildren_eq_zero hidle hchildren d
      have hown : (ledger.reservations.map (heldAt d account.id)).sum = 0 := by
        refine sum_map_eq_zero fun record hrecord => ?_
        simp only [hasLiveWork, Bool.or_eq_false_iff, List.any_eq_false,
          Bool.and_eq_true, decide_eq_true_eq, not_and, Bool.not_eq_true] at hidle
        unfold heldAt held reservationContributes
        by_cases hself : record.request.budgetId = account.id
        · simp [hself, hidle.1 record hrecord hself]
        · simp [hself]
      omega

/-- No account of a reachable ledger can be overspent: what the reservations
charged in its subtree have spent, and what the live ones among them still hold,
stay together within its limits, and below a closed account nothing is held. -/
theorem exposure_within_limits (hreach : Reachable NewRoot Accepts ledger) :
    ∀ account ∈ ledger.accounts, ∀ d,
      ((chargedBelow ledger account.id).map (spent d)).sum +
          heldBelow ledger account.id d ≤ account.limits.amounts.get d ∧
        (account.phase = .closed → heldBelow ledger account.id d = 0) := by
  intro account haccount d
  obtain ⟨hwf, hconserved⟩ := accounted_of_reachable hreach
  have hconsumed := hconserved account haccount d
  rw [usage_eq_chargedBelow] at hconsumed
  rw [← hconsumed]
  exact covered_of_wellFormed hwf haccount d

theorem exposure_within_limits_of_begin : ∃ next receipt,
    transition smallRoot smallBegin = .ok ⟨next, receipt⟩ ∧
    ∀ account ∈ next.accounts, ∀ d,
      ((chargedBelow next account.id).map (spent d)).sum +
          heldBelow next account.id d ≤ account.limits.amounts.get d ∧
        (account.phase = .closed → heldBelow next account.id d = 0) := by
  have haccepted : (transition smallRoot smallBegin).toOption.isSome = true := by
    decide +kernel
  cases htransition : transition smallRoot smallBegin with
  | error error =>
      rw [htransition] at haccepted
      cases haccepted
  | ok applied =>
      exact ⟨applied.ledger, applied.receipt, rfl, exposure_within_limits
        ⟨smallRoot, [smallBegin], ⟨_, _, _, rfl⟩,
          .cons ⟨applied.receipt, htransition⟩ (.nil _)⟩⟩

end Peritus.Budget.Exposure
