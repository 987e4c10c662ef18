import Peritus.Budget.Preservation

/-!
A step refines the ledger before it: nodes and requests are kept, consumption and
observations only grow, and growth reaches the parent undiminished.
-/

namespace Peritus.Budget.Refinement

open Peritus.Types Checked Collections Forest Amounts State Validation
open Balance Lineage Step

variable {before next : BudgetLedger}

/-- An account before and after a charge of the lineage of `targetId`. -/
structure Consumes (parent : BudgetId → Option BudgetId) (targetId : BudgetId)
    (amount : BudgetDimension → Nat) (before next : BudgetAccount) : Prop where
  node : SameNode before next
  consumed : ∀ d, next.consumed.get d =
    before.consumed.get d + onLineage parent targetId before.id (amount d)

/-- A record before and after: its observation grows by `amount` at most. -/
structure Observes (before next : ReservationRecord) : Prop where
  request : next.request = before.request
  observed : ∀ d, before.observed.get d ≤ next.observed.get d

theorem observes_refl (record : ReservationRecord) : Observes record record :=
  ⟨rfl, fun _ => Nat.le_refl _⟩

theorem onLineage_zero {parent : BudgetId → Option BudgetId}
    {targetId budgetId : BudgetId} : onLineage parent targetId budgetId 0 = 0 := by
  simp [onLineage]

/-- All accounts of `before` go on in place, one lineage of them charged. -/
theorem consumes_of_step (hstep : LedgerStep before next) :
    ∃ targetId amount kept extra, next.accounts = kept ++ extra ∧
      List.Forall₂ (Consumes (parentOf before.accounts) targetId amount)
        before.accounts kept := by
  cases hstep with
  | idle heq =>
      refine ⟨before.rootId, fun _ => 0, before.accounts, [],
        by rw [heq, List.append_nil], List.forall₂_same.mpr fun a _ => ?_⟩
      exact ⟨.refl a, fun d => by rw [onLineage_zero, Nat.add_zero]⟩
  | drained haccounts _ _ _ _ =>
      exact ⟨_, _, next.accounts, [], (List.append_nil _).symm,
        haccounts.imp fun _ _ h => ⟨h.node, h.consumed⟩⟩
  | settled haccounts _ _ _ _ _ _ _ =>
      exact ⟨_, _, next.accounts, [], (List.append_nil _).symm,
        haccounts.imp fun _ _ h => ⟨h.node, h.consumed⟩⟩
  | begun haccounts _ _ _ _ _ _ =>
      exact ⟨_, _, next.accounts, [], (List.append_nil _).symm,
        haccounts.imp fun _ _ h => ⟨h.node, h.consumed⟩⟩
  | allocated hget _ _ _ _ haccounts _ _ =>
      refine ⟨before.rootId, fun _ => 0, _, _, haccounts,
        forall₂_set hget (fun a => ?_) ?_⟩
      · exact ⟨.refl a, fun d => by rw [onLineage_zero, Nat.add_zero]⟩
      · exact ⟨⟨rfl, rfl, rfl, rfl⟩,
          fun d => by rw [onLineage_zero, Nat.add_zero]⟩
  | closed _ _ _ haccounts _ _ =>
      refine ⟨before.rootId, fun _ => 0, next.accounts, [],
        (List.append_nil _).symm, haccounts.imp fun a b h => ⟨h.node, fun d => ?_⟩⟩
      rw [h.consumed, onLineage_zero, Nat.add_zero]

theorem observes_of_step (hstep : LedgerStep before next) :
    ∃ kept extra, next.reservations = kept ++ extra ∧
      List.Forall₂ Observes before.reservations kept := by
  have hsame : next.reservations = before.reservations →
      ∃ kept extra, next.reservations = kept ++ extra ∧
        List.Forall₂ Observes before.reservations kept := fun heq =>
    ⟨before.reservations, [], by rw [heq, List.append_nil],
      List.forall₂_same.mpr fun record _ => observes_refl record⟩
  cases hstep with
  | idle heq => exact hsame (by rw [heq])
  | drained _ _ _ _ hrecords => exact hsame hrecords
  | settled _ _ _ hget hrecord _ _ hrecords =>
      refine ⟨next.reservations, [], (List.append_nil _).symm, ?_⟩
      rw [hrecords]
      exact forall₂_set hget observes_refl ⟨hrecord.request, fun d => by
        rw [hrecord.observed d]
        exact Nat.le_add_right _ _⟩
  | begun _ _ _ _ _ _ hrecords =>
      exact ⟨before.reservations, _, hrecords,
        List.forall₂_same.mpr fun record _ => observes_refl record⟩
  | allocated _ _ _ _ _ _ _ hrecords => exact hsame hrecords
  | closed _ _ _ _ _ hrecords => exact hsame hrecords

theorem rootId_of_step (hstep : LedgerStep before next) :
    next.rootId = before.rootId := by
  cases hstep with
  | idle heq => rw [heq]
  | drained _ _ _ hroot _ => exact hroot
  | settled _ _ _ _ _ _ hroot _ => exact hroot
  | begun _ _ _ _ _ hroot _ => exact hroot
  | allocated _ _ _ _ _ _ hroot _ => exact hroot
  | closed _ _ _ _ hroot _ => exact hroot

/-! ### The executable refinement check -/

theorem findParentIndex_eq_ok (hbalance : AccountsBalance before) {i : Nat}
    {child : BudgetAccount} {parentId : BudgetId}
    (hget : before.accounts[i]? = some child)
    (hparent : child.parentId = some parentId) :
    ∃ j parent, findParentIndex before i child = .ok j ∧
      before.accounts[j]? = some parent ∧ parent.id = parentId := by
  obtain ⟨k, above, hk, hgetAbove, rfl, hrevision⟩ :=
    hbalance.parent_of_id hget hparent
  have hlater : validateParentOfLater before i child = .ok () :=
    validateParentOfLater_eq_ok_iff.mpr fun _ =>
      validateParentBefore_of hbalance.unique hk hgetAbove hparent hrevision
  cases hfind : findIndexed
      (fun parent => decide (child.parentId = some parent.id))
      before.accounts with
  | none =>
      have := findIndexed_eq_none.mp hfind above (List.mem_of_getElem? hgetAbove)
      simp [hparent] at this
  | some found =>
      obtain ⟨j, parent⟩ := found
      obtain ⟨hgetParent, hmatch, _⟩ := findIndexed_eq_some hfind
      have hid := of_decide_eq_true hmatch
      rw [hparent, Option.some.injEq] at hid
      refine ⟨j, parent, ?_, hgetParent, hid.symm⟩
      unfold findParentIndex
      rw [check_bind_eq_ok_iff, hfind]
      exact ⟨hlater, rfl⟩

section Propagation

variable {targetId : BudgetId} {amount : BudgetDimension → Nat}
variable {kept extra : List BudgetAccount}

/-- A child on the charged lineage has its parent on it. -/
theorem validateChildPropagation_eq_ok (hbalance : AccountsBalance before)
    (haccounts : next.accounts = kept ++ extra)
    (hkept : List.Forall₂
      (Consumes (parentOf before.accounts) targetId amount) before.accounts kept)
    {i : Nat} (hi : i < before.accounts.length) :
    validateChildPropagation before next i = .ok () := by
  have hnext : ∀ {j : Nat} {a : BudgetAccount},
      before.accounts[j]? = some a → ∃ b : BudgetAccount,
        next.accounts[j]? = some b ∧ Consumes (parentOf before.accounts) targetId amount a b := by
    intro j a ha
    obtain ⟨b, hb, hconsumes⟩ := forall₂_get_left hkept ha
    refine ⟨b, ?_, hconsumes⟩
    rw [haccounts, List.getElem?_append_left (List.getElem?_eq_some_iff.mp hb).1,
      hb]
  have hget := List.getElem?_eq_getElem hi
  obtain ⟨child', hget', hconsumes⟩ := hnext hget
  unfold validateChildPropagation
  rw [bind_eq_ok_iff]
  refine ⟨_, accountAt_eq_ok_iff.mpr hget, ?_⟩
  rw [bind_eq_ok_iff]
  refine ⟨child', accountAt_eq_ok_iff.mpr hget', ?_⟩
  generalize before.accounts[i] = child at *
  split
  · rename_i hchanged
    obtain ⟨hsome, hne⟩ := hchanged
    obtain ⟨parentId, hparent⟩ := Option.isSome_iff_exists.mp hsome
    obtain ⟨j, parent, hfind, hgetParent, rfl⟩ :=
      findParentIndex_eq_ok hbalance hget hparent
    obtain ⟨parent', hgetParent', hconsumesParent⟩ := hnext hgetParent
    have hup : Ancestor (parentOf before.accounts) targetId child.id := by
      by_contra hoff
      refine hne (BudgetAmounts.ext_get fun d => ?_)
      rw [hconsumes.consumed d, onLineage_of_not hoff, Nat.add_zero]
    have hupParent : Ancestor (parentOf before.accounts) targetId parent.id :=
      hup.above (((isTree_of_balance hbalance).parentOf_eq
        (List.mem_of_getElem? hget)).trans hparent)
    have hchildSum : ∀ d, child'.consumed.get d =
        child.consumed.get d + amount d := fun d => by
      rw [hconsumes.consumed d, onLineage_of hup]
    have hparentSum : ∀ d, parent'.consumed.get d =
        parent.consumed.get d + amount d := fun d => by
      rw [hconsumesParent.consumed d, onLineage_of hupParent]
    obtain ⟨delta, hdelta⟩ := BudgetAmounts.exists_checkedSub child'.consumed
      child.consumed fun d => by rw [hchildSum d]; exact Nat.le_add_right _ _
    have hget := BudgetAmounts.checkedSub_eq_ok_iff.mp hdelta
    have hparentDelta : parent'.consumed.checkedSub parent.consumed =
        .ok delta := BudgetAmounts.checkedSub_eq_ok_iff.mpr fun d => by
      have := hget d
      have := hchildSum d
      rw [hparentSum d]
      omega
    simp only [bind_eq_ok_iff, orArithmetic_eq_ok_iff, accountAt_eq_ok_iff,
      ensure_eq_ok_iff, decide_eq_true_eq]
    exact ⟨j, hfind, parent, hgetParent, parent', hgetParent', delta, hdelta,
      delta, hparentDelta, rfl⟩
  · rfl

end Propagation

theorem validateRefinement_of_step (hwf : WellFormed before)
    (hstep : LedgerStep before next) :
    validateRefinement before next = .ok () := by
  obtain ⟨targetId, amount, kept, extra, haccounts, hkept⟩ :=
    consumes_of_step hstep
  obtain ⟨keptRecords, extraRecords, hrecords, hobserves⟩ :=
    observes_of_step hstep
  have hlength : before.accounts.length ≤ next.accounts.length := by
    rw [haccounts, List.length_append, hkept.length_eq]
    exact Nat.le_add_right _ _
  have hlengthRecords :
      before.reservations.length ≤ next.reservations.length := by
    rw [hrecords, List.length_append, hobserves.length_eq]
    exact Nat.le_add_right _ _
  unfold validateRefinement
  simp only [check_bind_eq_ok_iff, ensure_eq_ok_iff, forEach_range_eq_ok_iff, decide_eq_true_eq, Bool.not_eq_true',
    decide_eq_false_iff_not, Nat.not_lt, gt_iff_lt]
  refine ⟨(rootId_of_step hstep).symm, hlength, fun i hi => ?_, hlengthRecords,
    fun i hi => ?_, hlength, fun i hi =>
      validateChildPropagation_eq_ok hwf.accounts haccounts hkept hi⟩
  · have hget := List.getElem?_eq_getElem hi
    obtain ⟨account', hget', hconsumes⟩ := forall₂_get_left hkept hget
    have hnext : next.accounts[i]? = some account' := by
      rw [haccounts,
        List.getElem?_append_left (List.getElem?_eq_some_iff.mp hget').1, hget']
    unfold refinesAccount
    simp only [bind_eq_ok_iff, accountAt_eq_ok_iff, ensure_eq_ok_iff]
    refine ⟨_, hget, account', hnext, ?_⟩
    simp only [Bool.not_eq_true', Bool.or_eq_false_iff, decide_eq_false_iff_not,
      not_not, ne_eq, Bool.not_eq_false', BudgetAmounts.fitsWithin_iff]
    refine ⟨⟨⟨⟨hconsumes.node.id.symm, hconsumes.node.parentId.symm⟩,
      hconsumes.node.revision.symm⟩, by rw [hconsumes.node.limits]⟩,
      fun d => ?_⟩
    rw [hconsumes.consumed d]
    exact Nat.le_add_right _ _
  · have hget := List.getElem?_eq_getElem hi
    obtain ⟨record', hget', hobserve⟩ := forall₂_get_left hobserves hget
    have hnext : next.reservations[i]? = some record' := by
      rw [hrecords,
        List.getElem?_append_left (List.getElem?_eq_some_iff.mp hget').1, hget']
    unfold refinesReservation
    simp only [bind_eq_ok_iff, reservationAt_eq_ok_iff, ensure_eq_ok_iff]
    refine ⟨_, hget, record', hnext, ?_⟩
    simp only [Bool.not_eq_true', Bool.or_eq_false_iff, decide_eq_false_iff_not,
      not_not, ne_eq, Bool.not_eq_false', BudgetAmounts.fitsWithin_iff]
    exact ⟨hobserve.request.symm, hobserve.observed⟩

end Peritus.Budget.Refinement
