import Peritus.Budget.Settling

/-!
What an accepted command does to a ledger, said once over all commands: a step
settles an amount on one account, hands a child part of a delegation, takes a
closed child's unused part back, or changes nothing.  A step keeps the ledger
well formed and refines the ledger before it.
-/

namespace Peritus.Budget.Step

open Peritus.Types Checked Collections Forest Amounts State Accounting Transition
open Validation Balance Lineage Effect Settling

/-! ### Faulting a lineage -/

def Faulted (parent : BudgetId → Option BudgetId) (targetId : BudgetId)
    (before next : BudgetAccount) : Prop :=
  next = before ∨
    Ancestor parent targetId before.id ∧ next = { before with phase := .faulted }

theorem faultLineageInner_eq_ok (steps : Nat) (ledger : BudgetLedger)
    {targetId : BudgetId} {i : Nat} {account : BudgetAccount}
    (htree : IsTree ledger.accounts)
    (hget : ledger.accounts[i]? = some account) (hid : account.id = targetId)
    (hsteps : i < steps) :
    ∃ accounts, faultLineageInner steps ledger targetId =
        .ok { ledger with accounts } ∧
      List.Forall₂ (Faulted (parentOf ledger.accounts) targetId) ledger.accounts
        accounts := by
  induction steps generalizing ledger targetId i account with
  | zero => exact absurd hsteps (Nat.not_lt_zero i)
  | succ steps ih =>
      subst hid
      have hparentOf := htree.parentOf_eq (List.mem_of_getElem? hget)
      have hself := Ancestor.refl (parentOf ledger.accounts) account.id
      have hfind : findAccount ledger account.id = some (i, account) :=
        htree.find hget
      obtain ⟨faulted, hfaulted⟩ : ∃ faulted : BudgetAccount,
          faulted = { account with phase := .faulted } := ⟨_, rfl⟩
      have hunfold : faultLineageInner (steps + 1) ledger account.id =
          account.parentId.elim (.ok (setAccount ledger i faulted)) fun parentId =>
            faultLineageInner steps (setAccount ledger i faulted) parentId := by
        simp only [faultLineageInner, hfind, hfaulted]
        cases account.parentId <;> rfl
      rw [hunfold]
      have hnode : SameNode account faulted := by
        rw [hfaulted]
        exact ⟨rfl, rfl, rfl, rfl⟩
      have hsame : List.Forall₂ SameNode ledger.accounts
          (ledger.accounts.set i faulted) :=
        forall₂_set hget SameNode.refl hnode
      have hhere : List.Forall₂
          (Faulted (parentOf ledger.accounts) account.id) ledger.accounts
          (ledger.accounts.set i faulted) :=
        forall₂_set hget (fun _ => .inl rfl) (.inr ⟨hself, hfaulted⟩)
      cases hparent : account.parentId with
      | none => exact ⟨_, rfl, hhere⟩
      | some parentId =>
          obtain ⟨j, above, hj, hgetAbove, habove⟩ :=
            htree.parents i account parentId hget hparent
          have hgetAbove' : (ledger.accounts.set i faulted)[j]? = some above := by
            rw [List.getElem?_set_ne (Nat.ne_of_gt hj), hgetAbove]
          obtain ⟨accounts, hresult, hrest⟩ :=
            ih (setAccount ledger i faulted) (htree.congr hsame) hgetAbove'
              habove (by omega)
          refine ⟨accounts, hresult, ?_⟩
          change List.Forall₂ (Faulted (parentOf (ledger.accounts.set i faulted))
            parentId) (ledger.accounts.set i faulted) accounts at hrest
          rw [parentOf_congr hsame] at hrest
          refine forall₂_comp hhere hrest fun a b c hab hbc => ?_
          have hup : Ancestor (parentOf ledger.accounts) parentId a.id →
              Ancestor (parentOf ledger.accounts) account.id a.id :=
            ancestor_of_parent (hparentOf.trans hparent)
          rcases hab with rfl | ⟨hancestor, rfl⟩
          · exact hbc.imp_right fun h => ⟨hup h.1, h.2⟩
          · rcases hbc with rfl | ⟨_, rfl⟩
            · exact .inr ⟨hancestor, rfl⟩
            · exact .inr ⟨hancestor, rfl⟩

theorem faultLineage_settles {base : BudgetLedger} {work : List BudgetAccount}
    {target : BudgetAccount} {amount released added : BudgetDimension → Nat}
    (reservations : List ReservationRecord)
    (hbalance : AccountsBalance base) (hmem : target ∈ base.accounts)
    (hopen : target.phase ≠ .closed)
    (hwork : SettledAccounts base.accounts target.id amount released added
      work) :
    ∃ accounts,
      faultLineage { base with accounts := work, reservations } target.id =
        .ok { base with accounts, reservations } ∧
      SettledAccounts base.accounts target.id amount released added
        accounts := by
  obtain ⟨i, hget⟩ := List.mem_iff_getElem?.mp hmem
  obtain ⟨copy, hcopy, hsettled⟩ := forall₂_get_left hwork hget
  have htree := (isTree_of_balance hbalance).congr hwork.sameNodes
  have hparent : parentOf work = parentOf base.accounts :=
    parentOf_congr hwork.sameNodes
  obtain ⟨accounts, hresult, hfaulted⟩ :=
    faultLineageInner_eq_ok work.length
      { base with accounts := work, reservations } htree hcopy hsettled.node.id
      (List.getElem?_eq_some_iff.mp hcopy).1
  refine ⟨accounts, hresult, ?_⟩
  dsimp only at hfaulted
  rw [hparent] at hfaulted
  obtain ⟨hlength, hall⟩ := forall₂_iff_getElem?.mp hwork
  obtain ⟨hlength', hall'⟩ := forall₂_iff_getElem?.mp hfaulted
  refine forall₂_iff_getElem?.mpr
    ⟨hlength.trans hlength', fun k a c ha hc => ?_⟩
  obtain ⟨b, hb, hab⟩ := forall₂_get_left hwork ha
  rcases hall' k b c hb hc with rfl | ⟨hancestor, rfl⟩
  · exact hab
  · rw [hab.node.id] at hancestor
    obtain ⟨found, hfound, hid, hfoundOpen⟩ :=
      lineage_open hbalance hmem hopen hancestor
    cases eq_of_getElem?_of_unique hbalance.unique hfound
      (List.mem_of_getElem? ha) hid
    exact
      { node := ⟨hab.node.id, hab.node.parentId, hab.node.revision,
          hab.node.limits⟩
        phase := by simp [hfoundOpen]
        consumed := hab.consumed
        delegated := hab.delegated
        reserved := hab.reserved }

/-! ### Records -/

/-- The scan for retries looks at bindings and at which records are live. -/
theorem retryScan_of_forall₂ {request : BudgetRequest} {retry found : Bool}
    {records records' : List ReservationRecord}
    (hrel : List.Forall₂ (fun a b : ReservationRecord =>
      b.request = a.request ∧ (b.phase.isLive = true → a.phase.isLive = true))
      records records')
    (h : retryScan request retry records = .ok found) :
    retryScan request retry records' = .ok found := by
  induction hrel generalizing retry with
  | nil => exact h
  | cons hhead _ ih =>
      obtain ⟨hrequest, hlive⟩ := hhead
      unfold retryScan at h ⊢
      rw [hrequest]
      split
      · rename_i hsame
        rw [if_pos hsame, ensure_bind_eq_ok_iff, ensure_bind_eq_ok_iff] at h
        obtain ⟨hdigest, hidle, hrest⟩ := h
        rw [ensure_bind_eq_ok_iff, ensure_bind_eq_ok_iff]
        refine ⟨hdigest, ?_, ih hrest⟩
        rw [Bool.not_eq_true'] at hidle ⊢
        exact Bool.eq_false_iff.mpr fun hnow =>
          Bool.eq_false_iff.mp hidle (hlive hnow)
      · rename_i hother
        rw [if_neg hother] at h
        exact ih h

/-- What a command may change about a live record. -/
structure RecordStep (record next : ReservationRecord)
    (amount released : BudgetDimension → Nat) : Prop where
  request : next.request = record.request
  live : record.phase.isLive = true
  observed : ∀ d, next.observed.get d = record.observed.get d + amount d
  within : ∀ d, next.observed.get d ≤ record.request.reserve.get d
  phase : validateRecordPhase next = .ok ()
  held : ∀ d, held d next + released d = held d record

/-- Every account is still there. -/
def KeepsNodes (before next : BudgetLedger) : Prop :=
  ∀ account ∈ before.accounts, ∃ account' ∈ next.accounts,
    SameNode account account'

section Records

variable {before next : BudgetLedger}

theorem keepsNodes_of_forall₂
    (hsame : List.Forall₂ SameNode before.accounts next.accounts) :
    KeepsNodes before next := by
  intro account haccount
  obtain ⟨i, hget⟩ := List.mem_iff_getElem?.mp haccount
  obtain ⟨account', hget', hnode⟩ := forall₂_get_left hsame hget
  exact ⟨account', List.mem_of_getElem? hget', hnode⟩

theorem charged_of_keepsNodes (hfollow : ReservationsFollow before)
    (hkept : KeepsNodes before next)
    {record : ReservationRecord} (hmem : record ∈ before.reservations) :
    ∃ account ∈ next.accounts, account.id = record.request.budgetId ∧
      record.request.revision = account.revision := by
  obtain ⟨account, haccount, hid, hrevision⟩ := hfollow.charged record hmem
  obtain ⟨account', haccount', hnode⟩ := hkept account haccount
  exact ⟨account', haccount', hnode.id.trans hid,
    hrevision.trans hnode.revision.symm⟩

theorem follow_of_same (hfollow : ReservationsFollow before)
    (hkept : KeepsNodes before next)
    (hrecords : next.reservations = before.reservations) :
    ReservationsFollow next where
  unique := hrecords ▸ hfollow.unique
  charged := fun record hmem =>
    charged_of_keepsNodes hfollow hkept (hrecords ▸ hmem)
  observed := fun record hmem => hfollow.observed record (hrecords ▸ hmem)
  phases := fun record hmem => hfollow.phases record (hrecords ▸ hmem)
  attempts := fun i record hget => by
    unfold retryRequired
    rw [hrecords] at hget ⊢
    exact hfollow.attempts i record hget

theorem follow_of_set (hfollow : ReservationsFollow before)
    (hkept : KeepsNodes before next)
    {index : Nat} {record record' : ReservationRecord}
    {amount released : BudgetDimension → Nat}
    (hget : before.reservations[index]? = some record)
    (hstep : RecordStep record record' amount released)
    (hrecords : next.reservations = before.reservations.set index record') :
    ReservationsFollow next := by
  have hrel : List.Forall₂ (fun a b : ReservationRecord =>
      b.request = a.request ∧ (b.phase.isLive = true → a.phase.isLive = true))
      before.reservations next.reservations := by
    rw [hrecords]
    exact forall₂_set hget (fun _ => ⟨rfl, id⟩)
      ⟨hstep.request, fun _ => hstep.live⟩
  refine
    { unique := ?_
      charged := fun found hmem => ?_
      observed := fun found hmem d => ?_
      phases := fun found hmem => ?_
      attempts := fun i found hfound => ?_ }
  · rw [map_eq_of_forall₂ hrel fun a b h => by rw [h.1]]
    exact hfollow.unique
  · obtain ⟨prior, hprior, hrequest, _⟩ := forall₂_mem_right hrel hmem
    rw [hrequest]
    exact charged_of_keepsNodes hfollow hkept hprior
  · rw [hrecords] at hmem
    rcases mem_set hmem with rfl | hprior
    · rw [hstep.request]
      exact hstep.within d
    · exact hfollow.observed found hprior d
  · rw [hrecords] at hmem
    rcases mem_set hmem with rfl | hprior
    · exact hstep.phase
    · exact hfollow.phases found hprior
  · obtain ⟨prior, hprior, hrequest, _⟩ := forall₂_get_right hrel hfound
    obtain ⟨retry, hretry, hcharge⟩ := hfollow.attempts i prior hprior
    rw [hrequest]
    exact ⟨retry, retryScan_of_forall₂ (List.forall₂_take i hrel) hretry,
      hcharge⟩

theorem follow_of_append (hfollow : ReservationsFollow before)
    (hkept : KeepsNodes before next)
    {record : ReservationRecord} {target : BudgetAccount} {retry : Bool}
    (hfresh : ∀ prior ∈ before.reservations,
      prior.request.reservationId ≠ record.request.reservationId)
    (htarget : target ∈ before.accounts)
    (hbudget : record.request.budgetId = target.id)
    (hrevision : record.request.revision = target.revision)
    (hobserved : ∀ d, record.observed.get d ≤ record.request.reserve.get d)
    (hphase : validateRecordPhase record = .ok ())
    (hretry : retryRequired before record.request before.reservations.length =
      .ok retry)
    (hcharge : validateAttemptCharge record.request retry = .ok ())
    (hrecords : next.reservations = before.reservations ++ [record]) :
    ReservationsFollow next := by
  have hcases : ∀ found ∈ next.reservations,
      found ∈ before.reservations ∨ found = record := fun found hmem => by
    rw [hrecords] at hmem
    simpa using hmem
  refine
    { unique := ?_
      charged := fun found hmem => ?_
      observed := fun found hmem d => ?_
      phases := fun found hmem => ?_
      attempts := fun i found hfound => ?_ }
  · rw [hrecords, List.map_append, List.nodup_append]
    refine ⟨hfollow.unique, List.nodup_singleton _, fun a ha b hb => ?_⟩
    obtain ⟨prior, hprior, rfl⟩ := List.mem_map.mp ha
    rw [List.map_singleton, List.mem_singleton] at hb
    subst hb
    exact hfresh prior hprior
  · rcases hcases found hmem with hprior | rfl
    · exact charged_of_keepsNodes hfollow hkept hprior
    · obtain ⟨target', htarget', hnode⟩ := hkept target htarget
      exact ⟨target', htarget', hnode.id.trans hbudget.symm,
        hrevision.trans hnode.revision.symm⟩
  · rcases hcases found hmem with hprior | rfl
    · exact hfollow.observed found hprior d
    · exact hobserved d
  · rcases hcases found hmem with hprior | rfl
    · exact hfollow.phases found hprior
    · exact hphase
  · unfold retryRequired
    rw [hrecords] at hfound ⊢
    rcases Nat.lt_or_ge i before.reservations.length with hi | hi
    · rw [List.getElem?_append_left hi] at hfound
      rw [List.take_append_of_le_length (Nat.le_of_lt hi)]
      exact hfollow.attempts i found hfound
    · rw [List.getElem?_append_right hi] at hfound
      obtain ⟨hlt, hfoundEq⟩ := List.getElem?_eq_some_iff.mp hfound
      have hi' : i = before.reservations.length := by
        simp only [List.length_singleton] at hlt
        omega
      subst hi'
      simp only [Nat.sub_self, List.getElem_singleton] at hfoundEq
      subst hfoundEq
      rw [List.take_left']
      · unfold retryRequired at hretry
        rw [List.take_length] at hretry
        exact ⟨retry, hretry, hcharge⟩
      · rfl

end Records

/-! ### Steps -/

/-- The record a new request starts with. -/
structure FreshRecord (ledger : BudgetLedger) (target : BudgetAccount)
    (record : ReservationRecord) : Prop where
  fresh : ∀ prior ∈ ledger.reservations,
    prior.request.reservationId ≠ record.request.reservationId
  budget : record.request.budgetId = target.id
  revision : record.request.revision = target.revision
  observed : ∀ d, record.observed.get d = 0
  phase : validateRecordPhase record = .ok ()
  held : ∀ d, held d record = record.request.reserve.get d
  attempt : ∃ retry,
    retryRequired ledger record.request ledger.reservations.length =
      .ok retry ∧ validateAttemptCharge record.request retry = .ok ()

/-- The account a child starts with. -/
structure FreshChild (ledger : BudgetLedger) (parent child : BudgetAccount) :
    Prop where
  fresh : ∀ account ∈ ledger.accounts, account.id ≠ child.id
  parentId : child.parentId = some parent.id
  revision : child.revision = parent.revision
  phase : child.phase = .open
  consumed : ∀ d, child.consumed.get d = 0
  reserved : ∀ d, child.operationReserved.get d = 0
  delegated : ∀ d, child.childDelegatedRemaining.get d = 0

/-- Closing `target`: it stops contributing to the delegation above it. -/
structure ClosedOne (target before next : BudgetAccount) : Prop where
  node : SameNode before next
  phase : next.phase =
    if before.id = target.id then .closed else before.phase
  consumed : next.consumed = before.consumed
  reserved : next.operationReserved = before.operationReserved
  delegated : ∀ d, next.childDelegatedRemaining.get d
      + (if target.parentId = some before.id then
          target.limits.amounts.get d - target.consumed.get d
        else 0) =
    before.childDelegatedRemaining.get d

inductive LedgerStep (before next : BudgetLedger) : Prop
  | idle : next = before → LedgerStep before next
  | drained {target : BudgetAccount} :
      SettledAccounts before.accounts target.id (fun _ => 0) (fun _ => 0)
        (fun _ => 0) next.accounts →
      target ∈ before.accounts → target.phase ≠ .closed →
      next.rootId = before.rootId →
      next.reservations = before.reservations →
      LedgerStep before next
  | settled {target : BudgetAccount}
      {amount released : BudgetDimension → Nat} {index : Nat}
      {record record' : ReservationRecord} :
      SettledAccounts before.accounts target.id amount released (fun _ => 0)
        next.accounts →
      target ∈ before.accounts →
      record.request.budgetId = target.id →
      before.reservations[index]? = some record →
      RecordStep record record' amount released →
      (∀ d, amount d ≤ released d) →
      next.rootId = before.rootId →
      next.reservations = before.reservations.set index record' →
      LedgerStep before next
  | begun {target : BudgetAccount} {record : ReservationRecord} :
      SettledAccounts before.accounts target.id record.request.consumeNow.get
        (fun _ => 0) record.request.reserve.get next.accounts →
      target ∈ before.accounts → target.phase ≠ .closed →
      (∀ d, target.consumed.get d + target.operationReserved.get d
        + target.childDelegatedRemaining.get d
        + (record.request.consumeNow.get d + record.request.reserve.get d) ≤
          target.limits.amounts.get d) →
      FreshRecord before target record →
      next.rootId = before.rootId →
      next.reservations = before.reservations ++ [record] →
      LedgerStep before next
  | allocated {parent child : BudgetAccount} {index : Nat}
      {delegated : BudgetAmounts} :
      before.accounts[index]? = some parent → parent.phase ≠ .closed →
      FreshChild before parent child →
      (∀ d, delegated.get d = parent.childDelegatedRemaining.get d
        + child.limits.amounts.get d) →
      (∀ d, parent.consumed.get d + parent.operationReserved.get d
        + delegated.get d ≤ parent.limits.amounts.get d) →
      next.accounts = before.accounts.set index
        { parent with childDelegatedRemaining := delegated } ++ [child] →
      next.rootId = before.rootId →
      next.reservations = before.reservations →
      LedgerStep before next
  | closed {target : BudgetAccount} :
      target ∈ before.accounts → target.phase ≠ .closed →
      hasLiveWork before target.id = false →
      List.Forall₂ (ClosedOne target) before.accounts next.accounts →
      next.rootId = before.rootId →
      next.reservations = before.reservations →
      LedgerStep before next

section Sums

variable {records : List ReservationRecord} {record record' : ReservationRecord}
variable {index : Nat} {amount released : BudgetDimension → Nat}

theorem heldAt_of_eq {d : BudgetDimension} {budgetId : BudgetId}
    (h : record.request.budgetId = budgetId) :
    heldAt d budgetId record = held d record := by
  simp [heldAt, reservationContributes, h]

theorem heldAt_of_ne {d : BudgetDimension} {budgetId : BudgetId}
    (h : record.request.budgetId ≠ budgetId) :
    heldAt d budgetId record = 0 := by
  simp [heldAt, reservationContributes, h]

theorem sum_heldAt_set (hget : records[index]? = some record)
    (hstep : RecordStep record record' amount released) (budgetId : BudgetId)
    (d : BudgetDimension) :
    ((records.set index record').map (heldAt d budgetId)).sum
        + (if budgetId = record.request.budgetId then released d else 0) =
      (records.map (heldAt d budgetId)).sum := by
  have hset := sum_map_set (w := heldAt d budgetId) (b := record') hget
  have hheld := hstep.held d
  have hrequest := hstep.request
  by_cases h : record.request.budgetId = budgetId
  · rw [heldAt_of_eq h, heldAt_of_eq (hrequest ▸ h)] at hset
    rw [if_pos h.symm]
    omega
  · rw [heldAt_of_ne h, heldAt_of_ne (hrequest ▸ h)] at hset
    rw [if_neg (Ne.symm h)]
    omega

/-- What a live record holds is reserved on its account. -/
theorem held_le_reserved {ledger : BudgetLedger} {target : BudgetAccount}
    (hbalance : AccountsBalance ledger) (hmem : target ∈ ledger.accounts)
    (hrecord : record ∈ ledger.reservations)
    (hbudget : record.request.budgetId = target.id) (d : BudgetDimension) :
    held d record ≤ target.operationReserved.get d := by
  rw [hbalance.reserved target hmem d, ← heldAt_of_eq hbudget]
  exact le_sum_map hrecord

/-- The account of a live record is open. -/
theorem open_of_live {ledger : BudgetLedger} {target : BudgetAccount}
    (hbalance : AccountsBalance ledger) (hmem : target ∈ ledger.accounts)
    (hrecord : record ∈ ledger.reservations)
    (hbudget : record.request.budgetId = target.id)
    (hlive : record.phase.isLive = true) : target.phase ≠ .closed := by
  intro hclosed
  have hidle := hbalance.closed target hmem hclosed
  unfold hasLiveWork at hidle
  have := List.any_eq_false.mp (Bool.or_eq_false_iff.mp hidle).1 record hrecord
  simp [hbudget, hlive] at this

end Sums

section Settlements

variable {before next : BudgetLedger} {target : BudgetAccount}

theorem settlement_of_drained (hbalance : AccountsBalance before)
    (haccounts : SettledAccounts before.accounts target.id (fun _ => 0)
      (fun _ => 0) (fun _ => 0) next.accounts)
    (hmem : target ∈ before.accounts) (hopen : target.phase ≠ .closed)
    (hroot : next.rootId = before.rootId)
    (hrecords : next.reservations = before.reservations) :
    Settlement before next target (fun _ => 0) (fun _ => 0) (fun _ => 0) where
  rootId := hroot
  mem := hmem
  isOpen := hopen
  room := fun d => by
    have := hbalance.available target hmem d
    omega
  accounts := haccounts
  held := fun budgetId d => by rw [hrecords]
  live := fun record hrecord hlive =>
    .inr ⟨record, hrecords ▸ hrecord, hlive, rfl⟩

theorem settlement_of_settled (hbalance : AccountsBalance before)
    {amount released : BudgetDimension → Nat} {index : Nat}
    {record record' : ReservationRecord}
    (haccounts : SettledAccounts before.accounts target.id amount released
      (fun _ => 0) next.accounts)
    (hmem : target ∈ before.accounts)
    (hbudget : record.request.budgetId = target.id)
    (hget : before.reservations[index]? = some record)
    (hstep : RecordStep record record' amount released)
    (hamount : ∀ d, amount d ≤ released d)
    (hroot : next.rootId = before.rootId)
    (hrecords : next.reservations = before.reservations.set index record') :
    Settlement before next target amount released (fun _ => 0) where
  rootId := hroot
  mem := hmem
  isOpen := open_of_live hbalance hmem (List.mem_of_getElem? hget) hbudget
    hstep.live
  room := fun d => by
    have := hbalance.available target hmem d
    have := hamount d
    omega
  accounts := haccounts
  held := fun budgetId d => by
    rw [hrecords, ← hbudget]
    simpa using sum_heldAt_set hget hstep budgetId d
  live := fun found hfound hlive => by
    rw [hrecords] at hfound
    rcases mem_set hfound with rfl | hprior
    · exact .inl (hstep.request ▸ hbudget)
    · exact .inr ⟨found, hprior, hlive, rfl⟩

theorem settlement_of_begun {record : ReservationRecord}
    (haccounts : SettledAccounts before.accounts target.id
      record.request.consumeNow.get (fun _ => 0) record.request.reserve.get
      next.accounts)
    (hmem : target ∈ before.accounts) (hopen : target.phase ≠ .closed)
    (hroom : ∀ d, target.consumed.get d + target.operationReserved.get d
      + target.childDelegatedRemaining.get d
      + (record.request.consumeNow.get d + record.request.reserve.get d) ≤
        target.limits.amounts.get d)
    (hfresh : FreshRecord before target record)
    (hroot : next.rootId = before.rootId)
    (hrecords : next.reservations = before.reservations ++ [record]) :
    Settlement before next target record.request.consumeNow.get (fun _ => 0)
      record.request.reserve.get where
  rootId := hroot
  mem := hmem
  isOpen := hopen
  room := fun d => by
    have := hroom d
    omega
  accounts := haccounts
  held := fun budgetId d => by
    rw [hrecords, List.map_append, List.sum_append, List.map_singleton,
      List.sum_singleton]
    by_cases h : budgetId = target.id
    · rw [heldAt_of_eq (hfresh.budget.trans h.symm), hfresh.held d, if_pos h,
        if_pos h, Nat.add_zero]
    · rw [heldAt_of_ne fun heq => h (heq.symm.trans hfresh.budget), if_neg h,
        if_neg h]
  live := fun found hfound hlive => by
    rw [hrecords] at hfound
    rcases List.mem_append.mp hfound with hprior | hnew
    · exact .inr ⟨found, hprior, hlive, rfl⟩
    · rw [List.mem_singleton] at hnew
      exact .inl (hnew ▸ hfresh.budget)

end Settlements

end Peritus.Budget.Step
