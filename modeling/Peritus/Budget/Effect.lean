import Peritus.Budget.Lineage

/-!
The effect of settling an amount on one account: what it adds to a lineage, what
it moves on the account itself, and why the balances of the whole tree hold
afterwards.
-/

namespace Peritus.Budget.Effect

open Peritus.Types Collections Forest Amounts State Accounting Validation
open Balance Lineage

/-! ### Open lineages -/

theorem childContributes_of_open {child : BudgetAccount} {parentId : BudgetId}
    (hparent : child.parentId = some parentId)
    (hopen : child.phase ≠ .closed) :
    childContributes parentId child = true := by
  simp [childContributes, hparent, hopen]

theorem parentId_of_contributes {child : BudgetAccount} {parentId : BudgetId}
    (h : childContributes parentId child = true) :
    child.parentId = some parentId :=
  of_decide_eq_true (Bool.and_eq_true_iff.mp h).1

section Room

variable {ledger : BudgetLedger} (h : AccountsBalance ledger)

include h

/-- The parent of an open account is open. -/
theorem parent_open {child parent : BudgetAccount}
    (hchild : child ∈ ledger.accounts) (hmem : parent ∈ ledger.accounts)
    (hparent : child.parentId = some parent.id) (hopen : child.phase ≠ .closed) :
    parent.phase ≠ .closed := by
  intro hclosed
  have hidle := h.closed parent hmem hclosed
  unfold hasLiveWork at hidle
  rw [Bool.or_eq_false_iff] at hidle
  have := List.any_eq_false.mp hidle.2 child hchild
  simp [hparent, hopen] at this

/-- What an open child has not consumed is delegated by its parent. -/
theorem unused_le_delegated {child parent : BudgetAccount}
    (hchild : child ∈ ledger.accounts) (hmem : parent ∈ ledger.accounts)
    (hparent : child.parentId = some parent.id) (hopen : child.phase ≠ .closed)
    (d : BudgetDimension) :
    child.limits.amounts.get d - child.consumed.get d ≤
      parent.childDelegatedRemaining.get d := by
  have hdelegated := h.delegated parent hmem d
  have hcontributes := childContributes_of_open hparent hopen
  have hle : (ledger.accounts.map fun a => childConsumed d parent.id a
      + if a.id = child.id then
          child.limits.amounts.get d - child.consumed.get d else 0).sum ≤
      (ledger.accounts.map (childLimits d parent.id)).sum := by
    refine sum_map_mono fun a ha => ?_
    split
    · rename_i hid
      cases eq_of_getElem?_of_unique h.unique ha hchild hid
      have := h.available child hchild d
      simp only [childConsumed, childLimits, hcontributes, if_true]
      omega
    · have := h.available a ha d
      unfold childConsumed childLimits
      split <;> omega
  rw [sum_map_add_single h.unique (fun a _ => rfl)
    (List.mem_map_of_mem hchild)] at hle
  omega

/-- Room on the charged account is room on its whole lineage. -/
theorem lineage_room {target : BudgetAccount} (hmem : target ∈ ledger.accounts)
    (hopen : target.phase ≠ .closed) {amount : BudgetDimension → Nat}
    (hamount : ∀ d,
      target.consumed.get d + amount d ≤ target.limits.amounts.get d)
    {budgetId : BudgetId}
    (hancestor : Ancestor (parentOf ledger.accounts) target.id budgetId) :
    ∃ account ∈ ledger.accounts, account.id = budgetId ∧
      account.phase ≠ .closed ∧
      (∀ d, account.consumed.get d + amount d ≤
        account.limits.amounts.get d) ∧
      (budgetId ≠ target.id →
        ∀ d, amount d ≤ account.childDelegatedRemaining.get d) := by
  have htree := isTree_of_balance h
  induction hancestor with
  | refl => exact ⟨target, hmem, rfl, hopen, hamount, fun hne => absurd rfl hne⟩
  | tail _ hparent ih =>
      obtain ⟨child, hchild, rfl, hchildOpen, hroom, _⟩ := ih
      rw [htree.parentOf_eq hchild] at hparent
      obtain ⟨i, hget⟩ := List.mem_iff_getElem?.mp hchild
      obtain ⟨j, parent, _, hgetParent, rfl⟩ :=
        htree.parents i child _ hget hparent
      have hmemParent := List.mem_of_getElem? hgetParent
      have hdelegated : ∀ d,
          amount d ≤ parent.childDelegatedRemaining.get d := fun d => by
        have := unused_le_delegated h hchild hmemParent hparent hchildOpen d
        have := hroom d
        omega
      refine ⟨parent, hmemParent, rfl,
        parent_open h hchild hmemParent hparent hchildOpen, fun d => ?_,
        fun _ => hdelegated⟩
      have := hdelegated d
      have := h.available parent hmemParent d
      omega

theorem lineage_open {target : BudgetAccount} (hmem : target ∈ ledger.accounts)
    (hopen : target.phase ≠ .closed) {budgetId : BudgetId}
    (hancestor : Ancestor (parentOf ledger.accounts) target.id budgetId) :
    ∃ account ∈ ledger.accounts, account.id = budgetId ∧
      account.phase ≠ .closed := by
  have hzero : ∀ d, target.consumed.get d + 0 ≤
      target.limits.amounts.get d := fun d => by
    have := h.available target hmem d
    omega
  obtain ⟨account, haccount, hid, haccountOpen, _⟩ :=
    lineage_room h hmem hopen hzero hancestor
  exact ⟨account, haccount, hid, haccountOpen⟩

theorem hasRoom_of_target {target : BudgetAccount}
    (hmem : target ∈ ledger.accounts) (hopen : target.phase ≠ .closed)
    {amount : BudgetAmounts}
    (hamount : ∀ d, target.consumed.get d + amount.get d ≤
      target.limits.amounts.get d) :
    HasRoom ledger.accounts target.id false amount := by
  have hfound : ∀ account ∈ ledger.accounts,
      Ancestor (parentOf ledger.accounts) target.id account.id →
      (∀ d, account.consumed.get d + amount.get d ≤
        account.limits.amounts.get d) ∧
      (account.id ≠ target.id →
        ∀ d, amount.get d ≤ account.childDelegatedRemaining.get d) := by
    intro account haccount hancestor
    obtain ⟨found, hmemFound, hid, _, hroom⟩ :=
      lineage_room h hmem hopen hamount hancestor
    cases eq_of_getElem?_of_unique h.unique hmemFound haccount hid
    exact hroom
  refine ⟨fun account haccount hancestor d => ?_,
    fun account haccount hancestor hne => ?_⟩
  · have := (hfound account haccount hancestor).1 d
    have := account.limits.amounts.get_le d
    omega
  · exact (hfound account haccount hancestor).2
      (hne.resolve_left Bool.false_ne_true)

end Room

/-! ### Settling on one account -/

/-- `amount` is consumed along the lineage of `targetId`; on `targetId` itself
`released` leaves the reserved amount and `added` joins it. -/
structure Settled (parent : BudgetId → Option BudgetId) (targetId : BudgetId)
    (amount released added : BudgetDimension → Nat)
    (before next : BudgetAccount) : Prop where
  node : SameNode before next
  phase : next.phase = .closed ↔ before.phase = .closed
  consumed : ∀ d, next.consumed.get d =
    before.consumed.get d + onLineage parent targetId before.id (amount d)
  delegated : ∀ d, next.childDelegatedRemaining.get d
      + aboveTarget parent targetId before.id false (amount d) =
    before.childDelegatedRemaining.get d
  reserved : ∀ d, next.operationReserved.get d
      + (if before.id = targetId then released d else 0) =
    before.operationReserved.get d
      + if before.id = targetId then added d else 0

theorem Settled.refl (parent : BudgetId → Option BudgetId) (targetId : BudgetId)
    (account : BudgetAccount) :
    Settled parent targetId (fun _ => 0) (fun _ => 0) (fun _ => 0) account
      account where
  node := .refl account
  phase := Iff.rfl
  consumed := fun d => by simp [onLineage]
  delegated := fun d => by simp [aboveTarget]
  reserved := fun d => by simp

theorem Settled.trans {parent : BudgetId → Option BudgetId}
    {targetId : BudgetId}
    {amount released added amount' released' added' : BudgetDimension → Nat}
    {a b c : BudgetAccount}
    (hab : Settled parent targetId amount released added a b)
    (hbc : Settled parent targetId amount' released' added' b c) :
    Settled parent targetId (fun d => amount d + amount' d)
      (fun d => released d + released' d) (fun d => added d + added' d)
      a c where
  node := hab.node.trans hbc.node
  phase := hbc.phase.trans hab.phase
  consumed := fun d => by
    rw [hbc.consumed d, hab.consumed d, hab.node.id]
    unfold onLineage
    split <;> omega
  delegated := fun d => by
    have h₁ := hab.delegated d
    have h₂ := hbc.delegated d
    rw [hab.node.id] at h₂
    unfold aboveTarget at *
    split at h₁ <;> rename_i h
    · rw [if_pos h] at h₂ ⊢
      omega
    · rw [if_neg h] at h₂ ⊢
      omega
  reserved := fun d => by
    have h₁ := hab.reserved d
    have h₂ := hbc.reserved d
    rw [hab.node.id] at h₂
    by_cases h : a.id = targetId
    · simp only [h, if_true] at *
      omega
    · simp only [h, if_false] at *
      omega

theorem settled_of_charged {parent : BudgetId → Option BudgetId}
    {targetId : BudgetId} {amount : BudgetAmounts} {before next : BudgetAccount}
    (h : Charged parent targetId false amount before next) :
    Settled parent targetId amount.get (fun _ => 0) (fun _ => 0) before
      next where
  node := h.node
  phase := by rw [h.phase]
  consumed := h.consumed
  delegated := h.delegated
  reserved := fun d => by simp [h.operationReserved]

structure Settlement (before next : BudgetLedger) (target : BudgetAccount)
    (amount released added : BudgetDimension → Nat) : Prop where
  rootId : next.rootId = before.rootId
  mem : target ∈ before.accounts
  isOpen : target.phase ≠ .closed
  room : ∀ d, target.consumed.get d + amount d + target.operationReserved.get d
    + added d + target.childDelegatedRemaining.get d ≤
      target.limits.amounts.get d + released d
  accounts : List.Forall₂
    (Settled (parentOf before.accounts) target.id amount released added)
    before.accounts next.accounts
  held : ∀ budgetId d,
    (next.reservations.map (heldAt d budgetId)).sum
        + (if budgetId = target.id then released d else 0) =
      (before.reservations.map (heldAt d budgetId)).sum
        + if budgetId = target.id then added d else 0
  live : ∀ record ∈ next.reservations, record.phase.isLive = true →
    record.request.budgetId = target.id ∨
      ∃ prior ∈ before.reservations, prior.phase.isLive = true ∧
        prior.request.budgetId = record.request.budgetId

namespace Settlement

variable {before next : BudgetLedger} {target : BudgetAccount}
variable {amount released added : BudgetDimension → Nat}

theorem sameNodes (s : Settlement before next target amount released added) :
    List.Forall₂ SameNode before.accounts next.accounts :=
  s.accounts.imp fun _ _ h => h.node

/-- Settling keeps which accounts contribute to a delegation. -/
theorem childContributes_eq {account account' : BudgetAccount}
    (hsettled : Settled (parentOf before.accounts) target.id amount released
      added account account') (parentId : BudgetId) :
    childContributes parentId account' = childContributes parentId account := by
  unfold childContributes
  rw [hsettled.node.parentId, decide_eq_decide.mpr hsettled.phase]

/-- The children of one account take up from a charge what the account above
them gives off. -/
theorem sum_childConsumed (hbalance : AccountsBalance before)
    (s : Settlement before next target amount released added)
    (parentId : BudgetId) (d : BudgetDimension) :
    (next.accounts.map (childConsumed d parentId)).sum =
      (before.accounts.map (childConsumed d parentId)).sum
        + aboveTarget (parentOf before.accounts) target.id parentId false
          (amount d) := by
  have htree := isTree_of_balance hbalance
  have hshare : (next.accounts.map (childConsumed d parentId)).sum =
      (before.accounts.map fun a => childConsumed d parentId a
        + if childContributes parentId a then
            onLineage (parentOf before.accounts) target.id a.id (amount d)
          else 0).sum := by
    refine sum_map_of_forall₂ s.accounts fun a a' _ hsettled => ?_
    unfold childConsumed
    rw [childContributes_eq hsettled, hsettled.consumed d]
    split <;> rfl
  rw [hshare]
  by_cases habove : Ancestor (parentOf before.accounts) target.id parentId ∧
      parentId ≠ target.id
  · -- exactly one child of the account lies on the lineage
    obtain ⟨hancestor, hne⟩ := habove
    obtain ⟨childId, hchildUp, hchildParent⟩ :=
      exists_child_of_ancestor hancestor hne.symm
    obtain ⟨child, hchild, rfl, hchildOpen⟩ :=
      lineage_open hbalance s.mem s.isOpen hchildUp
    rw [htree.parentOf_eq hchild] at hchildParent
    rw [aboveTarget_of_ne hne, onLineage_of hancestor]
    refine sum_map_add_single (k := child.id) hbalance.unique
      (fun a ha => ?_) (List.mem_map_of_mem hchild)
    congr 1
    by_cases hid : a.id = child.id
    · cases eq_of_getElem?_of_unique hbalance.unique ha hchild hid
      rw [if_pos (childContributes_of_open hchildParent hchildOpen),
        if_pos rfl, onLineage_of hchildUp]
    · rw [if_neg hid]
      split
      · rename_i hcontributes
        refine onLineage_of_not fun hup => hid ?_
        have haParent := parentId_of_contributes hcontributes
        exact sibling_eq htree.ranked hup hchildUp
          ((htree.parentOf_eq ha).trans haParent)
          ((htree.parentOf_eq hchild).trans hchildParent)
      · rfl
  · have hzero : aboveTarget (parentOf before.accounts) target.id parentId false
        (amount d) = 0 := by
      classical
      exact if_neg fun h => habove
        ⟨h.1, h.2.resolve_left Bool.false_ne_true⟩
    rw [hzero, Nat.add_zero]
    refine congrArg List.sum (List.map_congr_left fun a ha => ?_)
    split
    · rename_i hcontributes
      have haParent := parentId_of_contributes hcontributes
      rw [onLineage_of_not, Nat.add_zero]
      intro hup
      have hedge := (htree.parentOf_eq ha).trans haParent
      exact habove ⟨hup.above hedge,
        ancestor_ne_of_child htree.ranked hup hedge⟩
    · rfl

theorem accountsBalance (hbalance : AccountsBalance before)
    (s : Settlement before next target amount released added) :
    AccountsBalance next := by
  have hsame := s.sameNodes
  refine
    { root := ?_
      unique := ((isTree_of_balance hbalance).congr hsame).unique
      parents := fun i child hget hpos => ?_
      available := fun account hmem d => ?_
      delegated := fun account hmem d => ?_
      reserved := fun account hmem d => ?_
      closed := fun account hmem hclosed => ?_ }
  · obtain ⟨root, rest, haccounts, hid, hroot⟩ := hbalance.root
    rw [haccounts] at hsame
    cases hnext : next.accounts with
    | nil => rw [hnext] at hsame; cases hsame
    | cons root' rest' =>
        rw [hnext] at hsame
        cases hsame with
        | cons hnode _ =>
            exact ⟨root', rest', rfl, (hnode.id.trans hid).trans s.rootId.symm,
              hnode.parentId.trans hroot⟩
  · obtain ⟨before', hbefore, hnode⟩ := forall₂_get_right hsame hget
    obtain ⟨j, parent, hj, hgetParent, hparent, hrevision⟩ :=
      hbalance.parents i before' hbefore hpos
    obtain ⟨parent', hparent', hnodeParent⟩ := forall₂_get_left hsame hgetParent
    refine ⟨j, parent', hj, hparent', ?_, ?_⟩
    · rw [hnode.parentId, hparent, hnodeParent.id]
    · rw [hnode.revision, hrevision, hnodeParent.revision]
  · obtain ⟨prior, hprior, hsettled⟩ := forall₂_mem_right s.accounts hmem
    have havailable := hbalance.available prior hprior d
    have hconsumed := hsettled.consumed d
    have hdelegated := hsettled.delegated d
    have hreserved := hsettled.reserved d
    rw [hsettled.node.limits]
    by_cases hid : prior.id = target.id
    · cases eq_of_getElem?_of_unique hbalance.unique hprior s.mem hid
      rw [onLineage_of (.refl _ _)] at hconsumed
      rw [aboveTarget_self] at hdelegated
      simp only [Bool.false_eq_true, if_false, if_true] at hdelegated hreserved
      have := s.room d
      omega
    · rw [aboveTarget_of_ne hid] at hdelegated
      rw [if_neg hid, if_neg hid] at hreserved
      omega
  · obtain ⟨prior, hprior, hsettled⟩ := forall₂_mem_right s.accounts hmem
    have hlimits : (next.accounts.map (childLimits d account.id)).sum =
        (before.accounts.map (childLimits d prior.id)).sum := by
      rw [hsettled.node.id]
      refine sum_map_of_forall₂ s.accounts fun a a' _ ha => ?_
      unfold childLimits
      rw [childContributes_eq ha, ha.node.limits]
    have hsum := s.sum_childConsumed hbalance prior.id d
    have hdelegated := hsettled.delegated d
    have hbefore := hbalance.delegated prior hprior d
    rw [hlimits, hsettled.node.id, hsum]
    omega
  · obtain ⟨prior, hprior, hsettled⟩ := forall₂_mem_right s.accounts hmem
    have hheld := s.held prior.id d
    have hreserved := hsettled.reserved d
    have hbefore := hbalance.reserved prior hprior d
    rw [hsettled.node.id]
    omega
  · obtain ⟨prior, hprior, hsettled⟩ := forall₂_mem_right s.accounts hmem
    have hpriorClosed := hsettled.phase.mp hclosed
    have hidle := hbalance.closed prior hprior hpriorClosed
    rw [hsettled.node.id]
    unfold hasLiveWork at hidle ⊢
    rw [Bool.or_eq_false_iff] at hidle ⊢
    refine ⟨List.any_eq_false.mpr fun record hrecord hmatch => ?_,
      List.any_eq_false.mpr fun child hchild hmatch => ?_⟩
    · obtain ⟨hbudget, hlive⟩ := Bool.and_eq_true_iff.mp hmatch
      have hbudget := of_decide_eq_true hbudget
      rcases s.live record hrecord hlive with htarget | ⟨old, hold, hlive, hsameId⟩
      · cases eq_of_getElem?_of_unique hbalance.unique hprior s.mem
          (hbudget.symm.trans htarget)
        exact s.isOpen hpriorClosed
      · have := List.any_eq_false.mp hidle.1 old hold
        simp [hsameId, hbudget, hlive] at this
    · obtain ⟨old, hold, holdSettled⟩ := forall₂_mem_right s.accounts hchild
      have := List.any_eq_false.mp hidle.2 old hold
      rw [holdSettled.node.parentId,
        decide_eq_decide.mpr holdSettled.phase] at hmatch
      exact this hmatch

end Settlement

end Peritus.Budget.Effect
