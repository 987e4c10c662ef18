import Peritus.Budget.Balance

/-!
Lineages: an account and the accounts above it.  A charge adds the same amount
to what every account of the lineage has consumed and takes it from what every
account above the charged one has delegated.
-/

namespace Peritus.Budget.Lineage

open Peritus.Types Collections Forest Amounts State Accounting Balance

/-! ### The tree of accounts -/

def parentOf (accounts : List BudgetAccount) (budgetId : BudgetId) :
    Option BudgetId :=
  (findIndexed (fun account => decide (account.id = budgetId)) accounts).bind
    fun found => found.2.parentId

def positionOf (accounts : List BudgetAccount) (budgetId : BudgetId) : Nat :=
  match findIndexed (fun account => decide (account.id = budgetId)) accounts with
  | some (i, _) => i + 1
  | none => 0

/-- What no command changes about an account. -/
structure SameNode (before next : BudgetAccount) : Prop where
  id : next.id = before.id
  parentId : next.parentId = before.parentId
  revision : next.revision = before.revision
  limits : next.limits = before.limits

theorem SameNode.refl (account : BudgetAccount) : SameNode account account :=
  ⟨rfl, rfl, rfl, rfl⟩

structure IsTree (accounts : List BudgetAccount) : Prop where
  unique : (accounts.map (·.id)).Nodup
  parents : ∀ (i : Nat) (child : BudgetAccount) (parentId : BudgetId),
    accounts[i]? = some child → child.parentId = some parentId →
      ∃ (j : Nat) (parent : BudgetAccount), j < i ∧
        accounts[j]? = some parent ∧ parent.id = parentId

theorem isTree_of_balance {ledger : BudgetLedger} (h : AccountsBalance ledger) :
    IsTree ledger.accounts where
  unique := h.unique
  parents := fun i child parentId hget hparent => by
    obtain ⟨j, parent, hj, hgetParent, hid, _⟩ := h.parent_of_id hget hparent
    exact ⟨j, parent, hj, hgetParent, hid⟩

theorem IsTree.congr {accounts accounts' : List BudgetAccount}
    (htree : IsTree accounts)
    (hsame : List.Forall₂ SameNode accounts accounts') : IsTree accounts' where
  unique := by
    rw [map_eq_of_forall₂ hsame fun _ _ h => h.id]
    exact htree.unique
  parents := fun i child parentId hget hparent => by
    obtain ⟨before, hbefore, hnode⟩ := forall₂_get_right hsame hget
    rw [hnode.parentId] at hparent
    obtain ⟨j, parent, hj, hgetParent, hid⟩ :=
      htree.parents i before parentId hbefore hparent
    obtain ⟨next, hnext, hnodeParent⟩ := forall₂_get_left hsame hgetParent
    exact ⟨j, next, hj, hnext, hnodeParent.id.trans hid⟩

theorem parentOf_congr {accounts accounts' : List BudgetAccount}
    (hsame : List.Forall₂ SameNode accounts accounts') :
    parentOf accounts' = parentOf accounts := by
  funext budgetId
  have hkey : ∀ a b : BudgetAccount, SameNode a b →
      decide (b.id = budgetId) = decide (a.id = budgetId) := fun a b h => by
    rw [h.id]
  unfold parentOf
  cases hfind : findIndexed (fun account => decide (account.id = budgetId))
      accounts with
  | none => rw [(findIndexed_isSome_of_forall₂ hsame hkey).mpr hfind]
  | some found =>
      obtain ⟨next, hnext, hnode⟩ := findIndexed_of_forall₂ hsame hkey hfind
      rw [hnext]
      exact hnode.parentId

section Tree

variable {accounts : List BudgetAccount} (htree : IsTree accounts)

include htree

theorem IsTree.find {i : Nat} {account : BudgetAccount}
    (hget : accounts[i]? = some account) :
    findIndexed (fun a => decide (a.id = account.id)) accounts =
      some (i, account) :=
  findIndexed_of_unique htree.unique hget

theorem IsTree.parentOf_eq {account : BudgetAccount}
    (hmem : account ∈ accounts) :
    parentOf accounts account.id = account.parentId := by
  obtain ⟨i, hget⟩ := List.mem_iff_getElem?.mp hmem
  unfold parentOf
  rw [htree.find hget]
  rfl

theorem IsTree.ranked : Ranked (parentOf accounts) (positionOf accounts) := by
  intro childId parentId hparent
  obtain ⟨⟨i, child⟩, hfind, hparentId⟩ := Option.bind_eq_some_iff.mp hparent
  obtain ⟨hget, hid, _⟩ := findIndexed_eq_some hfind
  obtain ⟨j, parent, hj, hgetParent, rfl⟩ :=
    htree.parents i child parentId hget hparentId
  unfold positionOf
  rw [hfind, htree.find hgetParent]
  exact Nat.succ_lt_succ hj

theorem IsTree.mem_of_ancestor {targetId budgetId : BudgetId}
    (hancestor : Ancestor (parentOf accounts) targetId budgetId)
    (htarget : targetId ∈ accounts.map (·.id)) :
    budgetId ∈ accounts.map (·.id) := by
  refine hancestor.inside (fun id => id ∈ accounts.map (·.id)) ?_ htarget
  intro childId parentId _ hparent
  obtain ⟨⟨i, child⟩, hfind, hparentId⟩ := Option.bind_eq_some_iff.mp hparent
  obtain ⟨j, parent, _, hgetParent, rfl⟩ :=
    htree.parents i child parentId (findIndexed_eq_some hfind).1 hparentId
  exact List.mem_map_of_mem (List.mem_of_getElem? hgetParent)

end Tree

/-! ### Charging a lineage -/

/-- The amount an account takes up from a charge, as one of the accounts above
`targetId`, or strictly above it. -/
noncomputable def onLineage (parent : BudgetId → Option BudgetId)
    (targetId budgetId : BudgetId) (amount : Nat) : Nat :=
  open Classical in if Ancestor parent targetId budgetId then amount else 0

noncomputable def aboveTarget (parent : BudgetId → Option BudgetId)
    (targetId budgetId : BudgetId) (delegatedChild : Bool) (amount : Nat) :
    Nat :=
  open Classical in
  if Ancestor parent targetId budgetId ∧
      (delegatedChild = true ∨ budgetId ≠ targetId) then amount
  else 0

structure Charged (parent : BudgetId → Option BudgetId) (targetId : BudgetId)
    (delegatedChild : Bool) (amount : BudgetAmounts)
    (before next : BudgetAccount) : Prop where
  node : SameNode before next
  operationReserved : next.operationReserved = before.operationReserved
  phase : next.phase = before.phase
  consumed : ∀ d, next.consumed.get d =
    before.consumed.get d + onLineage parent targetId before.id (amount.get d)
  delegated : ∀ d, next.childDelegatedRemaining.get d
      + aboveTarget parent targetId before.id delegatedChild (amount.get d) =
    before.childDelegatedRemaining.get d

section Shares

variable {parent : BudgetId → Option BudgetId} {rank : BudgetId → Nat}
variable {targetId parentId budgetId : BudgetId} {delegatedChild : Bool}
variable {amount : Nat}

theorem onLineage_of (h : Ancestor parent targetId budgetId) :
    onLineage parent targetId budgetId amount = amount :=
  if_pos h

theorem onLineage_of_not (h : ¬Ancestor parent targetId budgetId) :
    onLineage parent targetId budgetId amount = 0 :=
  if_neg h

theorem onLineage_of_parent (hparent : parent targetId = some parentId)
    (hne : budgetId ≠ targetId) :
    onLineage parent targetId budgetId amount =
      onLineage parent parentId budgetId amount := by
  have hiff : Ancestor parent targetId budgetId ↔
      Ancestor parent parentId budgetId := by
    rw [ancestor_iff_of_parent hparent]
    exact or_iff_right hne.symm
  unfold onLineage
  rw [hiff]

theorem aboveTarget_true :
    aboveTarget parent targetId budgetId true amount =
      onLineage parent targetId budgetId amount := by
  classical
  unfold aboveTarget onLineage
  refine if_congr ?_ rfl rfl
  simp

theorem aboveTarget_self :
    aboveTarget parent targetId targetId delegatedChild amount =
      if delegatedChild then amount else 0 := by
  simp [aboveTarget, Ancestor.refl]

theorem aboveTarget_of_ne (hne : budgetId ≠ targetId) :
    aboveTarget parent targetId budgetId delegatedChild amount =
      onLineage parent targetId budgetId amount := by
  classical
  unfold aboveTarget onLineage
  refine if_congr ?_ rfl rfl
  simp [hne]

end Shares

/-- The charge of one account: the first step up the lineage. -/
structure ChargedHere (delegatedChild : Bool) (amount : BudgetAmounts)
    (before next : BudgetAccount) : Prop where
  node : SameNode before next
  operationReserved : next.operationReserved = before.operationReserved
  phase : next.phase = before.phase
  consumed : ∀ d, next.consumed.get d =
    before.consumed.get d + amount.get d
  delegated : ∀ d, next.childDelegatedRemaining.get d
      + (if delegatedChild then amount.get d else 0) =
    before.childDelegatedRemaining.get d

theorem SameNode.trans {a b c : BudgetAccount} (hab : SameNode a b)
    (hbc : SameNode b c) : SameNode a c :=
  ⟨hbc.id.trans hab.id, hbc.parentId.trans hab.parentId,
    hbc.revision.trans hab.revision, hbc.limits.trans hab.limits⟩

section Steps

variable {parent : BudgetId → Option BudgetId} {rank : BudgetId → Nat}
variable {targetId parentId : BudgetId} {delegatedChild : Bool}
variable {amount : BudgetAmounts} {before middle next : BudgetAccount}

theorem charged_of_here (hhere : ChargedHere delegatedChild amount before next)
    (hid : before.id = targetId) :
    Charged parent targetId delegatedChild amount before next where
  node := hhere.node
  operationReserved := hhere.operationReserved
  phase := hhere.phase
  consumed := fun d => by
    rw [hid, onLineage_of (.refl parent targetId), hhere.consumed d]
  delegated := fun d => by rw [hid, aboveTarget_self, hhere.delegated d]

/-- An account off the lineage is untouched. -/
theorem charged_refl (hoff : ¬Ancestor parent targetId before.id) :
    Charged parent targetId delegatedChild amount before before where
  node := .refl before
  operationReserved := rfl
  phase := rfl
  consumed := fun d => by rw [onLineage_of_not hoff, Nat.add_zero]
  delegated := fun d => by
    have hne : before.id ≠ targetId := fun heq => hoff (heq ▸ .refl parent _)
    rw [aboveTarget_of_ne hne, onLineage_of_not hoff, Nat.add_zero]

/-- The charged account is not met again further up. -/
theorem charged_of_here_of_parent (hranked : Ranked parent rank)
    (hparent : parent targetId = some parentId)
    (hid : before.id = targetId)
    (hhere : ChargedHere delegatedChild amount before middle)
    (habove : Charged parent parentId true amount middle next) :
    Charged parent targetId delegatedChild amount before next := by
  have hoff : ¬Ancestor parent parentId middle.id := fun hancestor =>
    ne_of_ancestor_parent hranked hparent hancestor (hhere.node.id.trans hid)
  refine charged_of_here ⟨hhere.node.trans habove.node,
    habove.operationReserved.trans hhere.operationReserved,
    habove.phase.trans hhere.phase, fun d => ?_, fun d => ?_⟩ hid
  · have := habove.consumed d
    rw [onLineage_of_not hoff] at this
    rw [this, Nat.add_zero, hhere.consumed d]
  · have := habove.delegated d
    rw [aboveTarget_true, onLineage_of_not hoff, Nat.add_zero] at this
    rw [this, hhere.delegated d]

theorem charged_of_parent (hparent : parent targetId = some parentId)
    (hne : before.id ≠ targetId)
    (habove : Charged parent parentId true amount before next) :
    Charged parent targetId delegatedChild amount before next where
  node := habove.node
  operationReserved := habove.operationReserved
  phase := habove.phase
  consumed := fun d => by
    rw [onLineage_of_parent hparent hne, habove.consumed d]
  delegated := fun d => by
    have := habove.delegated d
    rw [aboveTarget_true] at this
    rw [aboveTarget_of_ne hne, onLineage_of_parent hparent hne, this]

end Steps

/-- Room for a charge on every account of the lineage. -/
structure HasRoom (accounts : List BudgetAccount) (targetId : BudgetId)
    (delegatedChild : Bool) (amount : BudgetAmounts) : Prop where
  consumed : ∀ account ∈ accounts,
    Ancestor (parentOf accounts) targetId account.id →
      ∀ d, account.consumed.get d + amount.get d ≤ u64Max
  delegated : ∀ account ∈ accounts,
    Ancestor (parentOf accounts) targetId account.id →
      (delegatedChild = true ∨ account.id ≠ targetId) →
        ∀ d, amount.get d ≤ account.childDelegatedRemaining.get d

theorem chargeHere_exists {account : BudgetAccount} {delegatedChild : Bool}
    {amount : BudgetAmounts}
    (hconsumed : ∀ d, account.consumed.get d + amount.get d ≤ u64Max)
    (hdelegated : delegatedChild = true →
      ∀ d, amount.get d ≤ account.childDelegatedRemaining.get d) :
    ∃ delegated consumed,
      chargedDelegation account amount delegatedChild = .ok delegated ∧
      orArithmetic (account.consumed.checkedAdd amount) = .ok consumed ∧
      ChargedHere delegatedChild amount account
        { account with childDelegatedRemaining := delegated, consumed } := by
  obtain ⟨consumed, hsum⟩ := BudgetAmounts.exists_checkedAdd _ _ hconsumed
  have hget := BudgetAmounts.checkedAdd_eq_ok_iff.mp hsum
  cases delegatedChild with
  | false =>
      exact ⟨account.childDelegatedRemaining, consumed, rfl,
        orArithmetic_eq_ok_iff.mpr hsum, ⟨rfl, rfl, rfl, rfl⟩, rfl, rfl,
        hget, fun d => rfl⟩
  | true =>
      obtain ⟨delegated, hdifference⟩ :=
        BudgetAmounts.exists_checkedSub _ _ (hdelegated rfl)
      refine ⟨delegated, consumed, orArithmetic_eq_ok_iff.mpr hdifference,
        orArithmetic_eq_ok_iff.mpr hsum, ⟨rfl, rfl, rfl, rfl⟩, rfl, rfl,
        hget, fun d => ?_⟩
      have := BudgetAmounts.checkedSub_eq_ok_iff.mp hdifference d
      simp only [if_true]
      omega

/-- Charging walks the lineage once.  The induction is on the steps left: the
account reached stands at an earlier position than the one before it, so the
steps never run out. -/
theorem chargeLineageInner_eq_ok {amount : BudgetAmounts} (steps : Nat)
    (ledger : BudgetLedger) {targetId : BudgetId} {delegatedChild : Bool}
    {i : Nat} {account : BudgetAccount} (htree : IsTree ledger.accounts)
    (hget : ledger.accounts[i]? = some account) (hid : account.id = targetId)
    (hsteps : i < steps)
    (hroom : HasRoom ledger.accounts targetId delegatedChild amount) :
    ∃ accounts, chargeLineageInner amount steps ledger targetId
        delegatedChild = .ok { ledger with accounts } ∧
      List.Forall₂ (Charged (parentOf ledger.accounts) targetId delegatedChild
        amount) ledger.accounts accounts := by
  induction steps generalizing ledger targetId delegatedChild i account with
  | zero => exact absurd hsteps (Nat.not_lt_zero i)
  | succ steps ih =>
      subst hid
      have hmem := List.mem_of_getElem? hget
      have hparentOf := htree.parentOf_eq hmem
      have hself := Ancestor.refl (parentOf ledger.accounts) account.id
      obtain ⟨delegated, consumed, hdelegated, hconsumed, hhere⟩ :=
        chargeHere_exists (hroom.consumed account hmem hself)
          fun h => hroom.delegated account hmem hself (.inl h)
      have hfind : findAccount ledger account.id = some (i, account) :=
        htree.find hget
      have hunique : ∀ {j other}, ledger.accounts[j]? = some other →
          other.id = account.id → j = i ∧ other = account := by
        intro j other hother hsame
        have hfindOther := htree.find hother
        rw [hsame] at hfindOther
        cases hfind.symm.trans hfindOther
        exact ⟨rfl, rfl⟩
      obtain ⟨charged, hcharged⟩ : ∃ charged : BudgetAccount,
          charged = { account with
            childDelegatedRemaining := delegated, consumed } := ⟨_, rfl⟩
      rw [← hcharged] at hhere
      have hunfold : chargeLineageInner amount (steps + 1) ledger account.id
          delegatedChild =
          account.parentId.elim (.ok (setAccount ledger i charged))
            fun parentId => chargeLineageInner amount steps
              (setAccount ledger i charged) parentId true := by
        rw [hcharged, chargeLineageInner, hfind]
        simp only [hdelegated, hconsumed]
        cases account.parentId <;> rfl
      rw [hunfold]
      have hsame : List.Forall₂ SameNode ledger.accounts
          (ledger.accounts.set i charged) :=
        forall₂_set hget SameNode.refl hhere.node
      cases hparent : account.parentId with
      | none =>
          refine ⟨ledger.accounts.set i charged, rfl, ?_⟩
          have hroot := hparentOf.trans hparent
          rw [forall₂_iff_getElem?]
          refine ⟨List.length_set.symm, fun j before next hbefore hnext => ?_⟩
          rw [List.getElem?_set] at hnext
          by_cases hij : i = j
          · subst hij
            cases hget.symm.trans hbefore
            rw [if_pos rfl, if_pos (List.getElem?_eq_some_iff.mp hget).1] at hnext
            cases hnext
            exact charged_of_here hhere rfl
          · rw [if_neg hij] at hnext
            cases hbefore.symm.trans hnext
            refine charged_refl fun hancestor => hij ?_
            rw [ancestor_iff_of_root hroot] at hancestor
            exact (hunique hbefore hancestor.symm).1.symm
      | some parentId =>
          have hparent' := hparentOf.trans hparent
          obtain ⟨j, above, hj, hgetAbove, habove⟩ :=
            htree.parents i account parentId hget hparent
          have hgetAbove' :
              (ledger.accounts.set i charged)[j]? = some above := by
            rw [List.getElem?_set_ne (Nat.ne_of_gt hj), hgetAbove]
          have hroom' : HasRoom (ledger.accounts.set i charged) parentId true
              amount := by
            have hold : ∀ other ∈ ledger.accounts.set i charged,
                Ancestor (parentOf (ledger.accounts.set i charged)) parentId
                  other.id →
                other ∈ ledger.accounts ∧ other.id ≠ account.id ∧
                  Ancestor (parentOf ledger.accounts) account.id other.id := by
              intro other hother hancestor
              rw [parentOf_congr hsame] at hancestor
              have hne := ne_of_ancestor_parent htree.ranked hparent' hancestor
              refine ⟨(mem_set hother).resolve_left ?_, hne,
                ancestor_of_parent hparent' hancestor⟩
              rintro rfl
              exact hne hhere.node.id
            refine ⟨fun other hother hancestor => ?_,
              fun other hother hancestor _ => ?_⟩
            · obtain ⟨hmemOther, _, hup⟩ := hold other hother hancestor
              exact hroom.consumed other hmemOther hup
            · obtain ⟨hmemOther, hne, hup⟩ := hold other hother hancestor
              exact hroom.delegated other hmemOther hup (.inr hne)
          obtain ⟨accounts, hresult, hrest⟩ :=
            ih { ledger with accounts := ledger.accounts.set i charged }
              (htree.congr hsame) hgetAbove' habove (by omega) hroom'
          refine ⟨accounts, hresult, ?_⟩
          rw [parentOf_congr hsame] at hrest
          obtain ⟨hlength, hrest⟩ := forall₂_iff_getElem?.mp hrest
          rw [forall₂_iff_getElem?]
          refine ⟨by rw [← hlength, List.length_set],
            fun k before next hbefore hnext => ?_⟩
          by_cases hik : i = k
          · subst hik
            cases hget.symm.trans hbefore
            refine charged_of_here_of_parent htree.ranked hparent' rfl hhere
              (hrest i charged next ?_ hnext)
            rw [List.getElem?_set_self (List.getElem?_eq_some_iff.mp hget).1]
          · refine charged_of_parent hparent' (fun hsameId => hik ?_)
              (hrest k before next ?_ hnext)
            · exact (hunique hbefore hsameId).1.symm
            · rw [List.getElem?_set_ne hik, hbefore]

end Peritus.Budget.Lineage
