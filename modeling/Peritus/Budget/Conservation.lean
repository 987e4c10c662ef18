import Peritus.TransitionSystem
import Peritus.Budget.Commands

/-!
Budget ledgers over whole runs from a new root.  Every ledger reached validates,
its commands fail only for the caller's reasons, and what each account has
consumed is what the reservations charged in its subtree have spent.
-/

namespace Peritus.Budget.Conservation

open Commands
open Peritus.Types TransitionSystem Checked Collections Forest Amounts State Accounting
open Transition Validation Balance Lineage Step Preservation Refinement

/-! ### Runs -/

/-- An accepted command. -/
def Accepts (before : BudgetLedger) (command : BudgetCommand)
    (next : BudgetLedger) : Prop :=
  ∃ receipt, transition before command = .ok ⟨next, receipt⟩

def NewRoot (ledger : BudgetLedger) : Prop :=
  ∃ rootId revision limits, ledger = BudgetLedger.newRoot rootId revision limits

theorem wellFormed_newRoot (rootId : BudgetId) (revision : RevisionTuple)
    (limits : BudgetLimits) :
    WellFormed (BudgetLedger.newRoot rootId revision limits) where
  accounts :=
    { root := ⟨_, _, rfl, rfl, rfl⟩
      unique := List.nodup_singleton _
      parents := fun i child hget hpos => by
        cases i with
        | zero => exact absurd hpos (Nat.lt_irrefl 0)
        | succ i => simp [BudgetLedger.newRoot] at hget
      available := fun account hmem d => by
        cases List.mem_singleton.mp hmem
        simp
      delegated := fun account hmem d => by
        cases List.mem_singleton.mp hmem
        simp [BudgetLedger.newRoot, childConsumed, childLimits,
          childContributes]
      reserved := fun account hmem d => by
        cases List.mem_singleton.mp hmem
        simp [BudgetLedger.newRoot]
      closed := fun account hmem hclosed => by
        cases List.mem_singleton.mp hmem
        cases hclosed }
  reservations :=
    { unique := List.nodup_nil
      charged := fun _ hmem => absurd hmem List.not_mem_nil
      observed := fun _ hmem => absurd hmem List.not_mem_nil
      phases := fun _ hmem => absurd hmem List.not_mem_nil
      attempts := fun _ _ hget => by cases hget }

theorem step_of_accepts {before next : BudgetLedger} {command : BudgetCommand}
    (hwf : WellFormed before) (haccepts : Accepts before command next) :
    LedgerStep before next := by
  obtain ⟨receipt, h⟩ := haccepts
  unfold transition at h
  simp only [bind_eq_ok_iff] at h
  obtain ⟨_, _, ⟨applied, found⟩, happly, _, _, _, _, h⟩ := h
  cases h
  exact (applyValidated_satisfies hwf command).of_eq_ok happly

theorem wellFormed_of_reachable {ledger : BudgetLedger}
    (hreach : Reachable NewRoot Accepts ledger) : WellFormed ledger := by
  refine hreach.invariant ?_ fun before _ next hwf haccepts =>
    wellFormed_of_step hwf (step_of_accepts hwf haccepts)
  rintro _ ⟨rootId, revision, limits, rfl⟩
  exact wellFormed_newRoot rootId revision limits

/-! ### Closure -/

theorem validate_of_applyValidated {ledger next : BudgetLedger}
    {command : BudgetCommand} {receipt : BudgetReceipt}
    (hvalid : validate ledger = .ok ())
    (happly : applyValidated ledger command = .ok (next, receipt)) :
    validate next = .ok () ∧ validateRefinement ledger next = .ok () := by
  have hwf := validate_eq_ok_iff.mp hvalid
  have hstep := (applyValidated_satisfies hwf command).of_eq_ok happly
  exact ⟨validate_eq_ok_iff.mpr (wellFormed_of_step hwf hstep),
    validateRefinement_of_step hwf hstep⟩

/-- A transition of a valid ledger fails only where its command does. -/
theorem callerError_of_transition {ledger : BudgetLedger}
    {command : BudgetCommand} {error : BudgetError}
    (hvalid : validate ledger = .ok ())
    (herror : transition ledger command = .error error) :
    CallerError command error := by
  have hwf := validate_eq_ok_iff.mp hvalid
  unfold transition at herror
  rw [hvalid] at herror
  change (applyValidated ledger command >>= _) = _ at herror
  rcases bind_eq_error herror with happly | ⟨⟨next, receipt⟩, happly, hrest⟩
  · exact (applyValidated_satisfies hwf command).of_eq_error happly
  · obtain ⟨hnext, hrefines⟩ := validate_of_applyValidated hvalid happly
    dsimp only at hrest
    rw [hnext, hrefines] at hrest
    cases hrest

theorem overflow_of_callerError {command : BudgetCommand} {error : BudgetError}
    (hcaller : CallerError command error) :
    error.kind ≠ .corruptState ∧
      (error.kind = .arithmetic → ∃ request arithmetic,
        command = .begin request ∧
        request.consumeNow.checkedAdd request.reserve = .error arithmetic ∧
        arithmetic.kind = .overflow ∧ error = .arithmeticError arithmetic) := by
  rcases hcaller with ⟨hcorrupt, harithmetic⟩ | ⟨request, rfl, found, hadd, rfl⟩
  · exact ⟨hcorrupt, fun h => absurd h harithmetic⟩
  · exact ⟨nofun, fun _ => ⟨request, found, rfl, hadd,
      BudgetAmounts.checkedAdd_error hadd, rfl⟩⟩

/-- Closure of validated ledgers: the two checks after a command never fire, on
any valid ledger; and a ledger reached from a new root is never reported
corrupt, with overflow of a request's own sum as its one arithmetic error. -/
theorem budget_ledger_closure :
    (∀ (ledger next : BudgetLedger) (command : BudgetCommand)
      (receipt : BudgetReceipt), validate ledger = .ok () →
      applyValidated ledger command = .ok (next, receipt) →
      validate next = .ok () ∧ validateRefinement ledger next = .ok ()) ∧
    ∀ ledger, Reachable NewRoot Accepts ledger →
      validate ledger = .ok () ∧
      ∀ command error, transition ledger command = .error error →
        error.kind ≠ .corruptState ∧
        (error.kind = .arithmetic → ∃ request arithmetic,
          command = .begin request ∧
          request.consumeNow.checkedAdd request.reserve = .error arithmetic ∧
          arithmetic.kind = .overflow ∧
          error = .arithmeticError arithmetic) := by
  refine ⟨fun _ _ _ _ hvalid happly => validate_of_applyValidated hvalid happly,
    fun ledger hreach => ?_⟩
  have hvalid := validate_eq_ok_iff.mpr (wellFormed_of_reachable hreach)
  exact ⟨hvalid, fun command error herror =>
    overflow_of_callerError (callerError_of_transition hvalid herror)⟩

/-! ### Conservation -/

/-- What a reservation has consumed so far: at its begin and by observation. -/
def spent (d : BudgetDimension) (record : ReservationRecord) : Nat :=
  record.request.consumeNow.get d + record.observed.get d

/-- `budgetId` is `rootId` or lies below it. -/
def InSubtree (ledger : BudgetLedger) (rootId budgetId : BudgetId) : Prop :=
  Ancestor (parentOf ledger.accounts) budgetId rootId

/-- The reservations charged to an account of the subtree. -/
noncomputable def chargedBelow (ledger : BudgetLedger) (rootId : BudgetId) :
    List ReservationRecord :=
  open Classical in
  ledger.reservations.filter fun record =>
    decide (InSubtree ledger rootId record.request.budgetId)

noncomputable def usage (parent : BudgetId → Option BudgetId)
    (records : List ReservationRecord) (budgetId : BudgetId)
    (d : BudgetDimension) : Nat :=
  (records.map fun record =>
    onLineage parent record.request.budgetId budgetId (spent d record)).sum

theorem usage_eq_chargedBelow (ledger : BudgetLedger) (rootId : BudgetId)
    (d : BudgetDimension) :
    usage (parentOf ledger.accounts) ledger.reservations rootId d =
      ((chargedBelow ledger rootId).map (spent d)).sum := by
  unfold usage chargedBelow
  induction ledger.reservations with
  | nil => rfl
  | cons record rest ih =>
      rw [List.map_cons, List.sum_cons, ih, List.filter_cons]
      by_cases h : InSubtree ledger rootId record.request.budgetId
      · rw [onLineage_of h, if_pos (by simpa using h), List.map_cons,
          List.sum_cons]
      · rw [onLineage_of_not h, if_neg (by simpa using h), Nat.zero_add]

def Conserved (ledger : BudgetLedger) : Prop :=
  ∀ account ∈ ledger.accounts, ∀ d, account.consumed.get d =
    usage (parentOf ledger.accounts) ledger.reservations account.id d

section Steps

variable {before next : BudgetLedger}

theorem onLineage_add {parent : BudgetId → Option BudgetId}
    {targetId budgetId : BudgetId} {x y : Nat} :
    onLineage parent targetId budgetId (x + y) =
      onLineage parent targetId budgetId x
        + onLineage parent targetId budgetId y := by
  unfold onLineage
  split <;> rfl

theorem usage_set {parent : BudgetId → Option BudgetId}
    {records : List ReservationRecord} {index : Nat}
    {record record' : ReservationRecord}
    {amount released : BudgetDimension → Nat}
    (hget : records[index]? = some record)
    (hstep : RecordStep record record' amount released) (budgetId : BudgetId)
    (d : BudgetDimension) :
    usage parent (records.set index record') budgetId d =
      usage parent records budgetId d
        + onLineage parent record.request.budgetId budgetId (amount d) := by
  have hset := sum_map_set (w := fun r : ReservationRecord =>
    onLineage parent r.request.budgetId budgetId (spent d r)) (b := record') hget
  have hspent : spent d record' = spent d record + amount d := by
    unfold spent
    rw [hstep.request, hstep.observed d, Nat.add_assoc]
  simp only [hspent, onLineage_add, hstep.request] at hset
  unfold usage
  omega

/-- Accounts in place, one lineage charged as the records say. -/
theorem conserved_of_consumes {targetId : BudgetId}
    {amount : BudgetDimension → Nat} (hconserved : Conserved before)
    (hconsumes : List.Forall₂
      (Consumes (parentOf before.accounts) targetId amount) before.accounts
      next.accounts)
    (husage : ∀ budgetId d,
      usage (parentOf before.accounts) next.reservations budgetId d =
        usage (parentOf before.accounts) before.reservations budgetId d
          + onLineage (parentOf before.accounts) targetId budgetId (amount d)) :
    Conserved next := by
  intro account haccount d
  obtain ⟨prior, hprior, hone⟩ := forall₂_mem_right hconsumes haccount
  rw [parentOf_congr (hconsumes.imp fun _ _ h => h.node), hone.node.id,
    husage prior.id d, hone.consumed d, hconserved prior hprior d]

/-- Climbing from an account that was there before never meets a new one. -/
theorem ancestor_of_kept (hbalance : AccountsBalance before)
    (hnext : AccountsBalance next) (hkept : KeepsNodes before next)
    {budgetId : BudgetId} (rootId : BudgetId)
    (hmem : budgetId ∈ before.accounts.map (·.id)) :
    Ancestor (parentOf next.accounts) budgetId rootId ↔
      Ancestor (parentOf before.accounts) budgetId rootId := by
  refine ancestor_congr (fun id => id ∈ before.accounts.map (·.id)) ?_ ?_ hmem
  · intro a b ha hparent
    exact (isTree_of_balance hbalance).mem_of_ancestor
      (ancestor_of_parent hparent (.refl _ b)) ha
  · intro a ha
    obtain ⟨account, haccount, rfl⟩ := List.mem_map.mp ha
    obtain ⟨account', haccount', hnode⟩ := hkept account haccount
    have hparent := (isTree_of_balance hnext).parentOf_eq haccount'
    rw [hnode.id, hnode.parentId] at hparent
    rw [hparent, (isTree_of_balance hbalance).parentOf_eq haccount]

theorem usage_of_kept (hwf : WellFormed before) (hnext : WellFormed next)
    (hkept : KeepsNodes before next)
    (hrecords : next.reservations = before.reservations) (rootId : BudgetId)
    (d : BudgetDimension) :
    usage (parentOf next.accounts) next.reservations rootId d =
      usage (parentOf before.accounts) before.reservations rootId d := by
  unfold usage
  rw [hrecords]
  refine congrArg List.sum (List.map_congr_left fun record hrecord => ?_)
  obtain ⟨account, haccount, hid, _⟩ :=
    hwf.reservations.charged record hrecord
  have hmem : record.request.budgetId ∈ before.accounts.map (·.id) := by
    rw [← hid]
    exact List.mem_map_of_mem haccount
  unfold onLineage
  rw [ancestor_of_kept hwf.accounts hnext.accounts hkept rootId hmem]

/-- Nothing has been charged below an account that was not there. -/
theorem usage_of_unknown (hwf : WellFormed before) {rootId : BudgetId}
    (hunknown : rootId ∉ before.accounts.map (·.id)) (d : BudgetDimension) :
    usage (parentOf before.accounts) before.reservations rootId d = 0 := by
  refine sum_map_eq_zero fun record hrecord => onLineage_of_not fun habove => ?_
  obtain ⟨account, haccount, hid, _⟩ :=
    hwf.reservations.charged record hrecord
  rw [← hid] at habove
  exact hunknown ((isTree_of_balance hwf.accounts).mem_of_ancestor habove
    (List.mem_map_of_mem haccount))

theorem conserved_of_allocated {parent child : BudgetAccount} {index : Nat}
    {delegated : BudgetAmounts} (hwf : WellFormed before)
    (hnext : WellFormed next) (hconserved : Conserved before)
    (hget : before.accounts[index]? = some parent)
    (hfresh : FreshChild before parent child)
    (haccounts : next.accounts = before.accounts.set index
      { parent with childDelegatedRemaining := delegated } ++ [child])
    (hrecords : next.reservations = before.reservations) : Conserved next := by
  have husage := usage_of_kept hwf hnext (keepsNodes_of_allocated hget haccounts)
    hrecords
  intro account haccount d
  rw [husage]
  rw [haccounts, List.mem_append, List.mem_singleton] at haccount
  rcases haccount with hset | rfl
  · rcases mem_set hset with rfl | hold
    · exact hconserved parent (List.mem_of_getElem? hget) d
    · exact hconserved account hold d
  · have hunknown : account.id ∉ before.accounts.map (·.id) := fun hmem => by
      obtain ⟨prior, hprior, hid⟩ := List.mem_map.mp hmem
      exact hfresh.fresh prior hprior hid
    rw [hfresh.consumed, usage_of_unknown hwf hunknown]

theorem conserved_of_step (hwf : WellFormed before)
    (hstep : LedgerStep before next) (hconserved : Conserved before) :
    Conserved next := by
  have hnext := wellFormed_of_step hwf hstep
  cases hstep with
  | idle heq => exact heq ▸ hconserved
  | drained haccounts _ _ _ hrecords =>
      refine conserved_of_consumes hconserved
        (haccounts.imp fun _ _ h => ⟨h.node, h.consumed⟩) fun budgetId d => ?_
      rw [hrecords, onLineage_zero, Nat.add_zero]
  | settled haccounts _ hbudget hget hrecord _ _ hrecords =>
      refine conserved_of_consumes hconserved
        (haccounts.imp fun _ _ h => ⟨h.node, h.consumed⟩) fun budgetId d => ?_
      rw [hrecords, usage_set hget hrecord, hbudget]
  | begun haccounts _ _ _ hfresh _ hrecords =>
      refine conserved_of_consumes hconserved
        (haccounts.imp fun _ _ h => ⟨h.node, h.consumed⟩) fun budgetId d => ?_
      simp only [usage, hrecords, List.map_append, List.sum_append,
        List.map_singleton, List.sum_singleton, spent, hfresh.observed d,
        hfresh.budget, Nat.add_zero]
  | allocated hget _ hfresh _ _ haccounts _ hrecords =>
      exact conserved_of_allocated hwf hnext hconserved hget hfresh haccounts
        hrecords
  | @closed target _ _ _ haccounts _ hrecords =>
      have hconsumes : List.Forall₂
          (Consumes (parentOf before.accounts) target.id fun _ => 0)
          before.accounts next.accounts :=
        haccounts.imp fun _ _ hone => ⟨hone.node, fun d => by
          rw [onLineage_zero, Nat.add_zero, hone.consumed]⟩
      refine conserved_of_consumes hconserved hconsumes fun budgetId d => ?_
      rw [hrecords, onLineage_zero, Nat.add_zero]

end Steps

theorem conserved_newRoot (rootId : BudgetId) (revision : RevisionTuple)
    (limits : BudgetLimits) :
    Conserved (BudgetLedger.newRoot rootId revision limits) := by
  intro account haccount d
  cases List.mem_singleton.mp haccount
  simp [BudgetLedger.newRoot, usage]

def Accounted (ledger : BudgetLedger) : Prop :=
  WellFormed ledger ∧ Conserved ledger

theorem accounted_of_reachable {ledger : BudgetLedger}
    (hreach : Reachable NewRoot Accepts ledger) : Accounted ledger := by
  refine hreach.invariant ?_ ?_
  · rintro _ ⟨rootId, revision, limits, rfl⟩
    exact ⟨wellFormed_newRoot rootId revision limits,
      conserved_newRoot rootId revision limits⟩
  · rintro before _ next ⟨hwf, hconserved⟩ haccepts
    have hstep := step_of_accepts hwf haccepts
    exact ⟨wellFormed_of_step hwf hstep,
      conserved_of_step hwf hstep hconserved⟩

/-- What an account has consumed is what the reservations charged in its
subtree, live or settled, have spent: at their begin and by observation. -/
theorem budget_conservation {ledger : BudgetLedger}
    (hreach : Reachable NewRoot Accepts ledger) :
    ∀ account ∈ ledger.accounts, ∀ d, account.consumed.get d =
      ((chargedBelow ledger account.id).map (spent d)).sum := by
  intro account haccount d
  rw [(accounted_of_reachable hreach).2 account haccount d,
    usage_eq_chargedBelow]

def smallRevision : RevisionTuple :=
  { acceptanceSpecId := .ofNat 2
    harnessId := .ofNat 3
    workspaceId := .ofNat 4
    workspaceGeneration := PositiveNumber.first
    workspaceRevision := PositiveNumber.first
    policyId := .ofNat 5
    providerProfileId := .ofNat 6 }

/-- A root with a hundred tokens and one attempt. -/
def smallRoot : BudgetLedger :=
  BudgetLedger.newRoot (.ofNat 1) smallRevision
    { amounts :=
        { BudgetAmounts.zero with
          modelTokens := ⟨100, by decide⟩
          attempts := ⟨1, PositiveNumber.one_bound⟩ } }

/-- Its first attempt, with five tokens held. -/
def smallBegin : BudgetCommand :=
  .begin
    { reservationId := .ofNat 7
      budgetId := .ofNat 1
      revision := smallRevision
      actionId := .ofNat 8
      actionDigest := .ofNat 9
      consumeNow := { BudgetAmounts.zero with attempts := ⟨1, PositiveNumber.one_bound⟩ }
      reserve := { BudgetAmounts.zero with modelTokens := ⟨5, by decide⟩ } }

theorem budget_conservation_of_begin : ∃ next receipt,
    transition smallRoot smallBegin = .ok ⟨next, receipt⟩ ∧
    ∀ account ∈ next.accounts, ∀ d, account.consumed.get d =
      ((chargedBelow next account.id).map (spent d)).sum := by
  have haccepted : (transition smallRoot smallBegin).toOption.isSome = true := by
    decide +kernel
  cases htransition : transition smallRoot smallBegin with
  | error error =>
      rw [htransition] at haccepted
      cases haccepted
  | ok applied =>
      exact ⟨applied.ledger, applied.receipt, rfl, budget_conservation
        ⟨smallRoot, [smallBegin], ⟨_, _, _, rfl⟩,
          .cons ⟨applied.receipt, htransition⟩ (.nil _)⟩⟩

end Peritus.Budget.Conservation
