import Peritus.Budget.Step

/-!
A step keeps a ledger well formed.
-/

namespace Peritus.Budget.Preservation

open Peritus.Types Collections Amounts State Accounting Validation Balance
open Lineage Step

variable {before next : BudgetLedger}

theorem root_of_sameNodes {accounts : List BudgetAccount}
    (hbalance : AccountsBalance before)
    (hsame : List.Forall₂ SameNode before.accounts accounts) :
    ∃ root rest, accounts = root :: rest ∧ root.id = before.rootId ∧
      root.parentId = none := by
  obtain ⟨root, rest, haccounts, hid, hroot⟩ := hbalance.root
  rw [haccounts] at hsame
  cases hsame with
  | cons hnode _ =>
      exact ⟨_, _, rfl, hnode.id.trans hid, hnode.parentId.trans hroot⟩

theorem parents_of_sameNodes {accounts : List BudgetAccount}
    (hbalance : AccountsBalance before)
    (hsame : List.Forall₂ SameNode before.accounts accounts) {i : Nat}
    {child : BudgetAccount} (hget : accounts[i]? = some child) (hpos : 0 < i) :
    ∃ (j : Nat) (parent : BudgetAccount), j < i ∧ accounts[j]? = some parent ∧
      child.parentId = some parent.id ∧ child.revision = parent.revision := by
  obtain ⟨prior, hprior, hnode⟩ := forall₂_get_right hsame hget
  obtain ⟨j, parent, hj, hgetParent, hparent, hrevision⟩ :=
    hbalance.parents i prior hprior hpos
  obtain ⟨parent', hparent', hnodeParent⟩ := forall₂_get_left hsame hgetParent
  exact ⟨j, parent', hj, hparent',
    by rw [hnode.parentId, hparent, hnodeParent.id],
    by rw [hnode.revision, hrevision, hnodeParent.revision]⟩

/-! ### Closing an account -/

section Closed

variable {target : BudgetAccount}

theorem childContributes_of_closedOne {account account' : BudgetAccount}
    (h : ClosedOne target account account') (parentId : BudgetId) :
    childContributes parentId account' =
      (childContributes parentId account && !decide (account.id = target.id)) := by
  unfold childContributes
  rw [h.node.parentId, h.phase]
  by_cases hid : account.id = target.id <;> simp [hid]

/-- Only the closed child leaves the totals below its parent. -/
theorem sum_children_of_closed (hbalance : AccountsBalance before)
    (hmem : target ∈ before.accounts) (hopen : target.phase ≠ .closed)
    (haccounts : List.Forall₂ (ClosedOne target) before.accounts next.accounts)
    (parentId : BudgetId) {f : BudgetAccount → Nat}
    (hf : ∀ a b, ClosedOne target a b → f b = f a) :
    (next.accounts.map fun a =>
        if childContributes parentId a then f a else 0).sum
      + (if target.parentId = some parentId then f target else 0) =
    (before.accounts.map fun a =>
        if childContributes parentId a then f a else 0).sum := by
  have hleft : (next.accounts.map fun a =>
        if childContributes parentId a then f a else 0).sum =
      (before.accounts.map fun a =>
        if childContributes parentId a && !decide (a.id = target.id) then f a
        else 0).sum :=
    sum_map_of_forall₂ haccounts fun a b _ hclosed => by
      rw [childContributes_of_closedOne hclosed, hf a b hclosed]
  rw [hleft]
  refine (sum_map_add_single (k := target.id) hbalance.unique
    (fun a ha => ?_) (List.mem_map_of_mem hmem)).symm
  by_cases hid : a.id = target.id
  · cases eq_of_getElem?_of_unique hbalance.unique ha hmem hid
    simp [childContributes, hopen]
  · simp [hid]

theorem accountsBalance_of_closed (hbalance : AccountsBalance before)
    (hmem : target ∈ before.accounts) (hopen : target.phase ≠ .closed)
    (hidle : hasLiveWork before target.id = false)
    (haccounts : List.Forall₂ (ClosedOne target) before.accounts next.accounts)
    (hroot : next.rootId = before.rootId)
    (hrecords : next.reservations = before.reservations) :
    AccountsBalance next := by
  have hsame : List.Forall₂ SameNode before.accounts next.accounts :=
    haccounts.imp fun _ _ h => h.node
  refine
    { root := hroot ▸ root_of_sameNodes hbalance hsame
      unique := ((isTree_of_balance hbalance).congr hsame).unique
      parents := fun i child hget hpos =>
        parents_of_sameNodes hbalance hsame hget hpos
      available := fun account haccount d => ?_
      delegated := fun account haccount d => ?_
      reserved := fun account haccount d => ?_
      closed := fun account haccount hclosed => ?_ }
  all_goals obtain ⟨prior, hprior, hone⟩ := forall₂_mem_right haccounts haccount
  · have := hbalance.available prior hprior d
    have := hone.delegated d
    rw [hone.node.limits, hone.consumed, hone.reserved]
    omega
  · have hlimits := sum_children_of_closed hbalance hmem hopen haccounts prior.id
      (f := fun a => a.limits.amounts.get d) fun a b h => by rw [h.node.limits]
    have hconsumed := sum_children_of_closed hbalance hmem hopen haccounts
      prior.id (f := fun a => a.consumed.get d) fun a b h => by rw [h.consumed]
    have hbefore := hbalance.delegated prior hprior d
    have hdelegated := hone.delegated d
    have havailable := hbalance.available target hmem d
    unfold childLimits childConsumed at *
    rw [hone.node.id]
    split at hlimits <;> rename_i hparent
    · rw [if_pos hparent] at hconsumed hdelegated
      omega
    · rw [if_neg hparent] at hconsumed hdelegated
      omega
  · rw [hone.node.id, hone.reserved, hrecords]
    exact hbalance.reserved prior hprior d
  · have hpriorIdle : hasLiveWork before prior.id = false := by
      rw [hone.phase] at hclosed
      split at hclosed
      · rename_i hid
        rw [hid]
        exact hidle
      · exact hbalance.closed prior hprior hclosed
    unfold hasLiveWork at hpriorIdle ⊢
    rw [Bool.or_eq_false_iff] at hpriorIdle ⊢
    rw [hone.node.id, hrecords]
    refine ⟨hpriorIdle.1, List.any_eq_false.mpr fun child hchild hmatch => ?_⟩
    obtain ⟨old, hold, holdOne⟩ := forall₂_mem_right haccounts hchild
    have hcontributes := childContributes_of_closedOne holdOne prior.id
    unfold childContributes at hcontributes
    rw [hmatch] at hcontributes
    exact List.any_eq_false.mp hpriorIdle.2 old hold
      (Bool.and_eq_true_iff.mp hcontributes.symm).1

end Closed

/-! ### Allocating a child -/

section Allocated

variable {parent child : BudgetAccount} {index : Nat} {delegated : BudgetAmounts}

/-- No account of a balanced ledger names a parent outside it. -/
theorem parentId_ne_of_fresh (hbalance : AccountsBalance before)
    (hfresh : FreshChild before parent child) {account : BudgetAccount}
    (haccount : account ∈ before.accounts) :
    account.parentId ≠ some child.id := by
  intro hparent
  obtain ⟨i, hget⟩ := List.mem_iff_getElem?.mp haccount
  obtain ⟨j, above, _, hgetAbove, hid, _⟩ := hbalance.parent_of_id hget hparent
  exact hfresh.fresh above (List.mem_of_getElem? hgetAbove) hid

theorem keepsNodes_of_allocated (hget : before.accounts[index]? = some parent)
    (haccounts : next.accounts = before.accounts.set index
      { parent with childDelegatedRemaining := delegated } ++ [child]) :
    KeepsNodes before next := by
  have hsame : List.Forall₂ SameNode before.accounts (before.accounts.set index
      { parent with childDelegatedRemaining := delegated }) :=
    forall₂_set hget SameNode.refl ⟨rfl, rfl, rfl, rfl⟩
  intro account haccount
  obtain ⟨i, hi⟩ := List.mem_iff_getElem?.mp haccount
  obtain ⟨account', hget', hnode⟩ := forall₂_get_left hsame hi
  refine ⟨account', ?_, hnode⟩
  rw [haccounts]
  exact List.mem_append_left _ (List.mem_of_getElem? hget')

theorem accountsBalance_of_allocated (hbalance : AccountsBalance before)
    (hfollow : ReservationsFollow before)
    (hget : before.accounts[index]? = some parent)
    (hopen : parent.phase ≠ .closed)
    (hfresh : FreshChild before parent child)
    (hdelegated : ∀ d, delegated.get d =
      parent.childDelegatedRemaining.get d + child.limits.amounts.get d)
    (hroom : ∀ d, parent.consumed.get d + parent.operationReserved.get d
      + delegated.get d ≤ parent.limits.amounts.get d)
    (haccounts : next.accounts = before.accounts.set index
      { parent with childDelegatedRemaining := delegated } ++ [child])
    (hroot : next.rootId = before.rootId)
    (hrecords : next.reservations = before.reservations) :
    AccountsBalance next := by
  have hmemParent := List.mem_of_getElem? hget
  obtain ⟨parent', hparent'⟩ : ∃ parent' : BudgetAccount,
      parent' = { parent with childDelegatedRemaining := delegated } := ⟨_, rfl⟩
  rw [← hparent'] at haccounts
  have hnode : SameNode parent parent' := by
    rw [hparent']
    exact ⟨rfl, rfl, rfl, rfl⟩
  have hsame : List.Forall₂ SameNode before.accounts
      (before.accounts.set index parent') :=
    forall₂_set hget SameNode.refl hnode
  -- the accounts of `next`, told apart
  have hcases : ∀ account ∈ next.accounts, account = child ∨
      account = parent' ∨
        account ∈ before.accounts ∧ account.id ≠ parent.id := by
    intro account haccount
    rw [haccounts, List.mem_append, List.mem_singleton] at haccount
    rcases haccount with hset | rfl
    · obtain ⟨i, hi⟩ := List.mem_iff_getElem?.mp hset
      rw [List.getElem?_set] at hi
      split at hi
      · split at hi
        · cases hi
          exact .inr (.inl rfl)
        · cases hi
      · rename_i hne
        refine .inr (.inr ⟨List.mem_of_getElem? hi, fun hid => hne ?_⟩)
        exact (eq_of_key_of_getElem? hbalance.unique hget hi hid.symm).1
    · exact .inl rfl
  have hsum : ∀ w : BudgetAccount → Nat, w parent' = w parent →
      (next.accounts.map w).sum = (before.accounts.map w).sum + w child := by
    intro w hw
    have hset := sum_map_set (w := w) (b := parent') hget
    rw [haccounts, List.map_append, List.sum_append, List.map_singleton,
      List.sum_singleton]
    omega
  have hcontributes : ∀ id, childContributes id parent' =
      childContributes id parent := fun id => by rw [hparent']; rfl
  have hlimits : ∀ id d, childLimits d id parent' = childLimits d id parent :=
    fun id d => by unfold childLimits; rw [hcontributes, hnode.limits]
  have hconsumed : ∀ id d, childConsumed d id parent' =
      childConsumed d id parent := fun id d => by
    unfold childConsumed
    rw [hcontributes, hparent']
  have hchildConsumed : ∀ id d, childConsumed d id child = 0 := fun id d => by
    unfold childConsumed
    rw [hfresh.consumed d, ite_self]
  refine
    { root := ?_
      unique := ?_
      parents := fun i account hgetAccount hpos => ?_
      available := fun account haccount d => ?_
      delegated := fun account haccount d => ?_
      reserved := fun account haccount d => ?_
      closed := fun account haccount hclosed => ?_ }
  · obtain ⟨root, rest, hinitial, hid, hnone⟩ := root_of_sameNodes hbalance hsame
    exact ⟨root, rest ++ [child], by rw [haccounts, hinitial]; rfl,
      hid.trans hroot.symm, hnone⟩
  · rw [haccounts, List.map_append, List.nodup_append]
    refine ⟨((isTree_of_balance hbalance).congr hsame).unique,
      List.nodup_singleton _, fun a ha b hb => ?_⟩
    rw [map_eq_of_forall₂ hsame fun _ _ h => h.id] at ha
    obtain ⟨account, haccount, rfl⟩ := List.mem_map.mp ha
    rw [List.map_singleton, List.mem_singleton] at hb
    subst hb
    exact hfresh.fresh account haccount
  · rw [haccounts] at hgetAccount ⊢
    rcases Nat.lt_or_ge i (before.accounts.set index parent').length with hi | hi
    · rw [List.getElem?_append_left hi] at hgetAccount
      obtain ⟨j, above, hj, hgetAbove, hparent, hrevision⟩ :=
        parents_of_sameNodes hbalance hsame hgetAccount hpos
      exact ⟨j, above, hj, by rw [List.getElem?_append_left (by omega), hgetAbove],
        hparent, hrevision⟩
    · have hlt := (List.getElem?_eq_some_iff.mp hget).1
      rw [List.getElem?_append_right hi] at hgetAccount
      have haccount := List.mem_singleton.mp (List.mem_of_getElem? hgetAccount)
      subst haccount
      rw [List.length_set] at hi
      refine ⟨index, parent', by omega, ?_, ?_, ?_⟩
      · rw [List.getElem?_append_left (by rw [List.length_set]; exact hlt),
          List.getElem?_set_self hlt]
      · rw [hfresh.parentId, hnode.id]
      · rw [hfresh.revision, hnode.revision]
  · rcases hcases account haccount with rfl | rfl | ⟨hold, _⟩
    · have := hfresh.consumed d
      have := hfresh.reserved d
      have := hfresh.delegated d
      omega
    · rw [hparent']
      exact hroom d
    · exact hbalance.available account hold d
  · rw [hsum _ (hlimits _ d), hsum _ (hconsumed _ d), hchildConsumed,
      Nat.add_zero]
    rcases hcases account haccount with rfl | rfl | ⟨hold, hne⟩
    · have hnone : ∀ w : BudgetAccount → Nat, (∀ a,
          childContributes account.id a = false → w a = 0) →
          (before.accounts.map w).sum = 0 := fun w hw =>
        sum_map_eq_zero fun a ha => hw a (by simp [childContributes,
          parentId_ne_of_fresh hbalance hfresh ha])
      have hself : childContributes account.id account = false := by
        simp only [childContributes, hfresh.parentId, Option.some.injEq,
          Bool.and_eq_false_iff, decide_eq_false_iff_not]
        exact .inl (hfresh.fresh parent hmemParent)
      rw [hnone _ fun a ha => by simp [childConsumed, ha],
        hnone _ fun a ha => by simp [childLimits, ha], hfresh.delegated d]
      simp [childLimits, hself]
    · have hbefore := hbalance.delegated parent hmemParent d
      have hchild : childLimits d parent.id child =
          child.limits.amounts.get d := by
        simp [childLimits, childContributes, hfresh.parentId, hfresh.phase]
      have := hdelegated d
      rw [hnode.id, hchild]
      have hget' : account.childDelegatedRemaining = delegated := by
        rw [hparent']
      rw [hget']
      omega
    · have hchild : childLimits d account.id child = 0 := by
        have : parent.id ≠ account.id := Ne.symm hne
        simp [childLimits, childContributes, hfresh.parentId, this]
      rw [hchild, Nat.add_zero]
      exact hbalance.delegated account hold d
  · rw [hrecords]
    rcases hcases account haccount with rfl | rfl | ⟨hold, _⟩
    · rw [hfresh.reserved d]
      refine (sum_map_eq_zero fun record hrecord => ?_).symm
      obtain ⟨charged, hcharged, hid, _⟩ := hfollow.charged record hrecord
      exact heldAt_of_ne fun heq => hfresh.fresh charged hcharged (hid.trans heq)
    · rw [hnode.id, hparent']
      exact hbalance.reserved parent hmemParent d
    · exact hbalance.reserved account hold d
  · have hold : account ∈ before.accounts ∧ account.id ≠ parent.id := by
      rcases hcases account haccount with rfl | rfl | hold
      · rw [hfresh.phase] at hclosed
        cases hclosed
      · rw [hparent'] at hclosed
        exact absurd hclosed hopen
      · exact hold
    have hidle := hbalance.closed account hold.1 hclosed
    unfold hasLiveWork at hidle ⊢
    rw [Bool.or_eq_false_iff] at hidle ⊢
    rw [hrecords]
    refine ⟨hidle.1, List.any_eq_false.mpr fun other hother hmatch => ?_⟩
    rcases hcases other hother with rfl | rfl | ⟨hprior, _⟩
    · rw [hfresh.parentId] at hmatch
      have := of_decide_eq_true (Bool.and_eq_true_iff.mp hmatch).1
      exact hold.2 (Option.some.inj this).symm
    · rw [hparent'] at hmatch
      exact List.any_eq_false.mp hidle.2 parent hmemParent hmatch
    · exact List.any_eq_false.mp hidle.2 other hprior hmatch

end Allocated

/-! ### Every step -/

theorem wellFormed_of_step (hwf : WellFormed before)
    (hstep : LedgerStep before next) : WellFormed next := by
  obtain ⟨hbalance, hfollow⟩ := hwf
  cases hstep with
  | idle heq => exact heq ▸ ⟨hbalance, hfollow⟩
  | drained haccounts hmem hopen hroot hrecords =>
      have hsettlement := settlement_of_drained hbalance haccounts hmem hopen
        hroot hrecords
      exact ⟨hsettlement.accountsBalance hbalance,
        follow_of_same hfollow (keepsNodes_of_forall₂ hsettlement.sameNodes)
          hrecords⟩
  | settled haccounts hmem hbudget hget hrecord hamount hroot hrecords =>
      have hsettlement := settlement_of_settled hbalance haccounts hmem hbudget
        hget hrecord hamount hroot hrecords
      exact ⟨hsettlement.accountsBalance hbalance,
        follow_of_set hfollow (keepsNodes_of_forall₂ hsettlement.sameNodes) hget
          hrecord hrecords⟩
  | begun haccounts hmem hopen hroom hfresh hroot hrecords =>
      have hsettlement := settlement_of_begun haccounts hmem hopen hroom hfresh
        hroot hrecords
      obtain ⟨retry, hretry, hcharge⟩ := hfresh.attempt
      exact ⟨hsettlement.accountsBalance hbalance,
        follow_of_append hfollow (keepsNodes_of_forall₂ hsettlement.sameNodes)
          hfresh.fresh hmem hfresh.budget hfresh.revision
          (fun d => by rw [hfresh.observed d]; exact Nat.zero_le _)
          hfresh.phase hretry hcharge hrecords⟩
  | allocated hget hopen hfresh hdelegated hroom haccounts hroot hrecords =>
      exact ⟨accountsBalance_of_allocated hbalance hfollow hget hopen hfresh
          hdelegated hroom haccounts hroot hrecords,
        follow_of_same hfollow (keepsNodes_of_allocated hget haccounts)
          hrecords⟩
  | closed hmem hopen hidle haccounts hroot hrecords =>
      exact ⟨accountsBalance_of_closed hbalance hmem hopen hidle haccounts hroot
          hrecords,
        follow_of_same hfollow
          (keepsNodes_of_forall₂ (haccounts.imp fun _ _ h => h.node)) hrecords⟩

end Peritus.Budget.Preservation
