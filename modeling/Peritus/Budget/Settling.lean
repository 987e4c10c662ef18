import Peritus.Budget.Effect

/-!
The accounting primitives of the reducer as settlements, and what a command does
to a ledger, said once over all commands.
-/

namespace Peritus.Budget.Settling

open Peritus.Types Collections Amounts State Accounting
open Balance Lineage Effect

/-! ### Primitives -/

/-- The accounts of a working copy, related to the accounts they started as. -/
abbrev SettledAccounts (base : List BudgetAccount) (targetId : BudgetId)
    (amount released added : BudgetDimension → Nat)
    (accounts : List BudgetAccount) : Prop :=
  List.Forall₂ (Settled (parentOf base) targetId amount released added) base
    accounts

section Primitives

variable {base : BudgetLedger} {work : List BudgetAccount}
variable {target : BudgetAccount}
variable {released added : BudgetDimension → Nat}

theorem settledAccounts_refl (targetId : BudgetId)
    (accounts : List BudgetAccount) :
    SettledAccounts accounts targetId (fun _ => 0) (fun _ => 0) (fun _ => 0)
      accounts :=
  List.forall₂_same.mpr fun account _ => .refl _ targetId account

theorem SettledAccounts.sameNodes {accounts : List BudgetAccount}
    {targetId : BudgetId} {amount : BudgetDimension → Nat}
    (hwork : SettledAccounts accounts targetId amount released added work) :
    List.Forall₂ SameNode accounts work :=
  hwork.imp fun _ _ h => h.node

/-- Before anything is charged, a working copy has the room of its base. -/
theorem hasRoom_work (hbalance : AccountsBalance base)
    (hmem : target ∈ base.accounts) (hopen : target.phase ≠ .closed)
    (hwork : SettledAccounts base.accounts target.id (fun _ => 0) released added
      work)
    {amount : BudgetAmounts}
    (hamount : ∀ d, target.consumed.get d + amount.get d ≤
      target.limits.amounts.get d) :
    HasRoom work target.id false amount := by
  have hroom := hasRoom_of_target hbalance hmem hopen hamount
  have hparent := parentOf_congr hwork.sameNodes
  refine ⟨fun account haccount hancestor d => ?_,
    fun account haccount hancestor hne d => ?_⟩
  all_goals
    obtain ⟨prior, hprior, hsettled⟩ := forall₂_mem_right hwork haccount
    rw [hparent, hsettled.node.id] at hancestor
  · have hconsumed := hsettled.consumed d
    have := hroom.consumed prior hprior hancestor d
    simp only [onLineage, ite_self, Nat.add_zero] at hconsumed
    rw [hconsumed]
    exact this
  · have hdelegated := hsettled.delegated d
    rw [hsettled.node.id] at hne
    have := hroom.delegated prior hprior hancestor hne d
    simp only [aboveTarget, ite_self, Nat.add_zero] at hdelegated
    rw [hdelegated]
    exact this

theorem chargeLineage_settles (hbalance : AccountsBalance base)
    (hmem : target ∈ base.accounts) (hopen : target.phase ≠ .closed)
    (hwork : SettledAccounts base.accounts target.id (fun _ => 0) released added
      work)
    (amount : BudgetAmounts)
    (hamount : ∀ d, target.consumed.get d + amount.get d ≤
      target.limits.amounts.get d) :
    ∃ accounts, chargeLineage { base with accounts := work } target.id amount =
        .ok { base with accounts } ∧
      SettledAccounts base.accounts target.id amount.get released added
        accounts := by
  obtain ⟨i, hget⟩ := List.mem_iff_getElem?.mp hmem
  obtain ⟨copy, hcopy, hsettled⟩ := forall₂_get_left hwork hget
  have htree := (isTree_of_balance hbalance).congr hwork.sameNodes
  obtain ⟨accounts, hresult, hcharged⟩ :=
    chargeLineageInner_eq_ok work.length { base with accounts := work } htree
      hcopy hsettled.node.id
      (List.getElem?_eq_some_iff.mp hcopy).1
      (hasRoom_work hbalance hmem hopen hwork hamount)
  have hparent : parentOf work = parentOf base.accounts :=
    parentOf_congr hwork.sameNodes
  dsimp only at hcharged
  rw [hparent] at hcharged
  refine ⟨accounts, hresult, forall₂_comp hwork hcharged fun a b c hab hbc => ?_⟩
  have htrans := hab.trans (settled_of_charged hbc)
  simpa only [Nat.zero_add, Nat.add_zero] using htrans

/-- Moving the reserved amount of the target account alone. -/
theorem settled_setReserved (parent : BudgetId → Option BudgetId)
    (released added : BudgetDimension → Nat) {accounts : List BudgetAccount}
    (hunique : (accounts.map (·.id)).Nodup) {i : Nat} {targetId : BudgetId}
    (hget : accounts[i]? = some target) (hid : target.id = targetId)
    (reserved : BudgetAmounts)
    (hreserved : ∀ d, reserved.get d + released d =
      target.operationReserved.get d + added d) :
    List.Forall₂ (Settled parent targetId (fun _ => 0) released added) accounts
      (accounts.set i { target with operationReserved := reserved }) := by
  subst hid
  refine forall₂_set_of hget (fun j account hj haccount => ?_) ?_
  · have hne : account.id ≠ target.id := fun hid =>
      hj (eq_of_key_of_getElem? hunique haccount hget hid).1
    exact
      { node := .refl account
        phase := Iff.rfl
        consumed := fun d => by simp [onLineage]
        delegated := fun d => by simp [aboveTarget]
        reserved := fun d => by simp [hne] }
  · exact
      { node := ⟨rfl, rfl, rfl, rfl⟩
        phase := Iff.rfl
        consumed := fun d => by simp [onLineage]
        delegated := fun d => by simp [aboveTarget]
        reserved := fun d => by simpa using hreserved d }

/-- A release that fits takes its amount off the reserved one. -/
theorem release_settles {amount : BudgetDimension → Nat}
    (htree : IsTree base.accounts)
    (hwork : SettledAccounts base.accounts target.id amount released added work)
    {i : Nat} (hget : base.accounts[i]? = some target) (release : BudgetAmounts)
    (hfits : ∀ d, released d + release.get d ≤
      target.operationReserved.get d + added d) :
    ∃ accounts,
      releaseOperationReservationValidated { base with accounts := work } i
        release = { base with accounts } ∧
      SettledAccounts base.accounts target.id amount
        (fun d => released d + release.get d) added accounts := by
  obtain ⟨copy, hcopy, hsettled⟩ := forall₂_get_left hwork hget
  have hreservedCopy : ∀ d, copy.operationReserved.get d + released d =
      target.operationReserved.get d + added d := fun d => by
    simpa using hsettled.reserved d
  obtain ⟨reserved, hsub⟩ :=
    BudgetAmounts.exists_checkedSub copy.operationReserved release fun d => by
      have := hfits d
      have := hreservedCopy d
      omega
  have hreserved := BudgetAmounts.checkedSub_eq_ok_iff.mp hsub
  refine ⟨work.set i { copy with operationReserved := reserved }, ?_, ?_⟩
  · unfold releaseOperationReservationValidated
    simp only [hcopy, hsub]
    rfl
  · have hset := settled_setReserved (parentOf base.accounts) release.get
      (fun _ => 0) (htree.congr hwork.sameNodes).unique hcopy hsettled.node.id
      reserved fun d => by rw [Nat.add_zero, hreserved d, Nat.add_comm]
    have hcomp := forall₂_comp hwork hset fun a b c => Settled.trans
    simpa only [Nat.add_zero] using hcomp

theorem releaseReservation_settles (hbalance : AccountsBalance base)
    (hmem : target ∈ base.accounts) {record : ReservationRecord}
    (hbudget : record.request.budgetId = target.id) (release : BudgetAmounts)
    (hfits : ∀ d, release.get d ≤ target.operationReserved.get d) :
    ∃ accounts, releaseReservation base record release =
        { base with accounts } ∧
      SettledAccounts base.accounts target.id (fun _ => 0) release.get
        (fun _ => 0) accounts := by
  obtain ⟨i, hfind, hget⟩ := findAccount_of_mem hbalance.unique hmem
  obtain ⟨accounts, hresult, hsettled⟩ :=
    release_settles (isTree_of_balance hbalance)
      (settledAccounts_refl target.id base.accounts) hget release
      fun d => by have := hfits d; omega
  refine ⟨accounts, ?_, ?_⟩
  · unfold releaseReservation
    rw [hbudget, hfind]
    exact hresult
  · simpa only [Nat.zero_add] using hsettled

end Primitives

end Peritus.Budget.Settling
