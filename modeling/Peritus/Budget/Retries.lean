import Peritus.Budget.Resubmission

/-!
Attempts and retries.  A begin is charged by a scan of every reservation made
before it, so the reservations of one action share its digest, are settled one
after another, and pay for a retry from the second on; the counters of the
accounts are then counts of reservations.
-/

namespace Peritus.Budget.Retries

open Peritus.Types TransitionSystem Checked Collections Forest Amounts State Transition
open Validation Balance Lineage Conservation

/-- The action a request makes an attempt at. -/
def attemptKey (request : BudgetRequest) : RevisionTuple × ActionId :=
  (request.revision, request.actionId)

theorem attemptKey_eq_iff {request other : BudgetRequest} :
    attemptKey request = attemptKey other ↔
      request.revision = other.revision ∧ request.actionId = other.actionId :=
  Prod.mk.injEq .. ▸ Iff.rfl

/-! ### The scan -/

/-- The scan passes only settled attempts with the digest of the request, and
finds whether there was one. -/
theorem retryScan_eq_ok {request : BudgetRequest} {retry found : Bool}
    {records : List ReservationRecord}
    (h : retryScan request retry records = .ok found) :
    (∀ prior ∈ records, attemptKey prior.request = attemptKey request →
      prior.request.actionDigest = request.actionDigest ∧
        prior.phase.isLive = false) ∧
    (found = true ↔ retry = true ∨
      ∃ prior ∈ records, attemptKey prior.request = attemptKey request) := by
  induction records generalizing retry with
  | nil =>
      cases h
      simp
  | cons prior rest ih =>
      rw [retryScan] at h
      split at h
      · rename_i hsame
        have hkey := attemptKey_eq_iff.mpr hsame
        simp only [bind_eq_ok_iff, exists_unit_iff, ensure_eq_ok_iff,
          decide_eq_true_eq, Bool.not_eq_true'] at h
        obtain ⟨hdigest, hsettled, hrest⟩ := h
        obtain ⟨hpassed, hfound⟩ := ih hrest
        constructor
        · intro other hother hotherKey
          rcases List.mem_cons.mp hother with rfl | hmem
          · exact ⟨hdigest, hsettled⟩
          · exact hpassed other hmem hotherKey
        · constructor
          · intro _
            exact .inr ⟨prior, List.mem_cons_self, hkey⟩
          · intro _
            exact hfound.mpr (.inl rfl)
      · rename_i hother
        have hkey : attemptKey prior.request ≠ attemptKey request :=
          mt attemptKey_eq_iff.mp hother
        obtain ⟨hpassed, hfound⟩ := ih h
        constructor
        · intro other hmem hotherKey
          rcases List.mem_cons.mp hmem with rfl | hmem
          · exact absurd hotherKey hkey
          · exact hpassed other hmem hotherKey
        · rw [hfound]
          simp [hkey]

theorem validateAttemptCharge_eq_ok {request : BudgetRequest} {retry : Bool}
    (h : validateAttemptCharge request retry = .ok ()) :
    request.consumeNow.get .attempts = 1 ∧
    request.consumeNow.get .retries = (if retry then 1 else 0) ∧
    request.reserve.get .attempts = 0 ∧ request.reserve.get .retries = 0 := by
  simp only [validateAttemptCharge, ensure_eq_ok_iff, Bool.not_eq_true',
    Bool.or_eq_false_iff, decide_eq_false_iff_not, ne_eq, not_not] at h
  obtain ⟨⟨⟨hattempts, hretries⟩, hreserve⟩, hreserve'⟩ := h
  exact ⟨hattempts, hretries, hreserve, hreserve'⟩

/-! ### The records of a ledger -/

section Records

variable {ledger : BudgetLedger} (hwf : WellFormed ledger)

include hwf

/-- An earlier attempt at the same action. -/
theorem prior_of_attempt {i j : Nat} {prior record : ReservationRecord}
    (hprior : ledger.reservations[j]? = some prior)
    (hget : ledger.reservations[i]? = some record) (hji : j < i)
    (hkey : attemptKey prior.request = attemptKey record.request) :
    prior.request.actionDigest = record.request.actionDigest ∧
      prior.phase.isLive = false := by
  obtain ⟨retry, hscan, -⟩ := hwf.reservations.attempts i record hget
  have hmem : prior ∈ ledger.reservations.take i := by
    apply List.mem_of_getElem? (i := j)
    rw [List.getElem?_take_of_lt hji]
    exact hprior
  exact (retryScan_eq_ok hscan).1 prior hmem hkey

theorem digest_of_attempts {record other : ReservationRecord}
    (hrecord : record ∈ ledger.reservations) (hother : other ∈ ledger.reservations)
    (hkey : attemptKey record.request = attemptKey other.request) :
    record.request.actionDigest = other.request.actionDigest := by
  obtain ⟨i, hi⟩ := List.mem_iff_getElem?.mp hrecord
  obtain ⟨j, hj⟩ := List.mem_iff_getElem?.mp hother
  rcases Nat.lt_trichotomy i j with hij | rfl | hji
  · exact (prior_of_attempt hwf hi hj hij hkey).1
  · cases hi.symm.trans hj
    rfl
  · exact (prior_of_attempt hwf hj hi hji hkey.symm).1.symm

theorem live_attempt_unique {i j : Nat} {record other : ReservationRecord}
    (hi : ledger.reservations[i]? = some record)
    (hj : ledger.reservations[j]? = some other)
    (hkey : attemptKey record.request = attemptKey other.request)
    (hlive : record.phase.isLive = true) (hlive' : other.phase.isLive = true) :
    i = j := by
  rcases Nat.lt_trichotomy i j with hij | hij | hji
  · have hsettled := (prior_of_attempt hwf hi hj hij hkey).2
    rw [hlive] at hsettled
    cases hsettled
  · exact hij
  · have hsettled := (prior_of_attempt hwf hj hi hji hkey.symm).2
    rw [hlive'] at hsettled
    cases hsettled

/-- Nothing of attempts or retries is reserved, so nothing is observed. -/
theorem spent_of_attempt {i : Nat} {record : ReservationRecord}
    (hget : ledger.reservations[i]? = some record) :
    spent .attempts record = 1 ∧
    spent .retries record = record.request.consumeNow.get .retries := by
  obtain ⟨retry, -, hcharge⟩ := hwf.reservations.attempts i record hget
  obtain ⟨hattempts, -, hreserve, hreserve'⟩ :=
    validateAttemptCharge_eq_ok hcharge
  have hobserved := hwf.reservations.observed record (List.mem_of_getElem? hget)
  have hno := hobserved .attempts
  have hno' := hobserved .retries
  unfold spent
  omega

theorem retries_of_attempt {i : Nat} {record : ReservationRecord}
    (hget : ledger.reservations[i]? = some record) :
    (attemptKey record.request ∈
        (ledger.reservations.take i).map (attemptKey ·.request) →
      record.request.consumeNow.get .retries = 1) ∧
    (attemptKey record.request ∉
        (ledger.reservations.take i).map (attemptKey ·.request) →
      record.request.consumeNow.get .retries = 0) := by
  obtain ⟨retry, hscan, hcharge⟩ := hwf.reservations.attempts i record hget
  have hretry : retry = true ↔ attemptKey record.request ∈
      (ledger.reservations.take i).map (attemptKey ·.request) := by
    rw [(retryScan_eq_ok hscan).2, List.mem_map]
    simp
  rw [(validateAttemptCharge_eq_ok hcharge).2.1]
  constructor
  · intro hmem
    rw [if_pos (hretry.mpr hmem)]
  · intro hmem
    rw [if_neg (mt hretry.mp hmem)]

end Records

/-! ### The counters -/

/-- Every account lies below the root. -/
theorem inSubtree_root {ledger : BudgetLedger} (h : AccountsBalance ledger)
    {i : Nat} {account : BudgetAccount}
    (hget : ledger.accounts[i]? = some account) :
    InSubtree ledger ledger.rootId account.id := by
  induction i using Nat.strong_induction_on generalizing account with
  | _ i ih =>
      rcases Nat.eq_zero_or_pos i with rfl | hpos
      · obtain ⟨root, rest, haccounts, hid, -⟩ := h.root
        rw [haccounts] at hget
        cases hget
        rw [← hid]
        exact .refl _ _
      · obtain ⟨j, parent, hj, hgetParent, hparent, -⟩ :=
          h.parents i account hget hpos
        refine ancestor_of_parent ?_ (ih j hj hgetParent)
        rw [(isTree_of_balance h).parentOf_eq (List.mem_of_getElem? hget)]
        exact hparent

theorem chargedBelow_root {ledger : BudgetLedger} (hwf : WellFormed ledger) :
    chargedBelow ledger ledger.rootId = ledger.reservations := by
  classical
  unfold chargedBelow
  rw [List.filter_eq_self]
  intro record hrecord
  rw [decide_eq_true_eq]
  obtain ⟨account, haccount, hid, -⟩ := hwf.reservations.charged record hrecord
  obtain ⟨i, hget⟩ := List.mem_iff_getElem?.mp haccount
  rw [← hid]
  exact inSubtree_root hwf.accounts hget

theorem attempts_eq_length {ledger : BudgetLedger}
    (hreach : Reachable NewRoot Accepts ledger) {account : BudgetAccount}
    (haccount : account ∈ ledger.accounts) :
    account.consumed.get .attempts =
      (chargedBelow ledger account.id).length := by
  obtain ⟨hwf, hconserved⟩ := accounted_of_reachable hreach
  have hone : (chargedBelow ledger account.id).map (spent .attempts) =
      (chargedBelow ledger account.id).map fun _ => 1 := by
    refine List.map_congr_left fun record hrecord => ?_
    obtain ⟨i, hget⟩ :=
      List.mem_iff_getElem?.mp (List.mem_of_mem_filter hrecord)
    exact (spent_of_attempt hwf hget).1
  rw [hconserved account haccount .attempts, usage_eq_chargedBelow, hone]
  simp

theorem retries_add_keys {ledger : BudgetLedger}
    (hreach : Reachable NewRoot Accepts ledger) {root : BudgetAccount}
    (hroot : root ∈ ledger.accounts) (hid : root.id = ledger.rootId) :
    root.consumed.get .retries
        + (ledger.reservations.map (attemptKey ·.request)).toFinset.card =
      ledger.reservations.length := by
  obtain ⟨hwf, hconserved⟩ := accounted_of_reachable hreach
  rw [hconserved root hroot .retries, usage_eq_chargedBelow, hid,
    chargedBelow_root hwf]
  apply sum_map_add_card
  · intro i record hget hmem
    rw [(spent_of_attempt hwf hget).2]
    exact (retries_of_attempt hwf hget).1 hmem
  · intro i record hget hmem
    rw [(spent_of_attempt hwf hget).2]
    exact (retries_of_attempt hwf hget).2 hmem

/-- The attempts at one action share its digest, one of them at most is live,
and the first alone is not charged as a retry.  What an account has consumed of
attempts is the number of reservations below it; what the root has consumed of
retries falls short of the number of reservations by the number of actions. -/
structure RetriesCounted (ledger : BudgetLedger) : Prop where
  digests : ∀ record ∈ ledger.reservations, ∀ other ∈ ledger.reservations,
    attemptKey record.request = attemptKey other.request →
    record.request.actionDigest = other.request.actionDigest
  live : ∀ (i j : Nat) (record other : ReservationRecord),
    ledger.reservations[i]? = some record →
    ledger.reservations[j]? = some other →
    attemptKey record.request = attemptKey other.request →
    record.phase.isLive = true → other.phase.isLive = true → i = j
  first : ∀ (i : Nat) (record : ReservationRecord),
    ledger.reservations[i]? = some record →
    attemptKey record.request ∉
      (ledger.reservations.take i).map (attemptKey ·.request) →
    record.request.consumeNow.get .retries = 0
  later : ∀ (i : Nat) (record : ReservationRecord),
    ledger.reservations[i]? = some record →
    attemptKey record.request ∈
      (ledger.reservations.take i).map (attemptKey ·.request) →
    record.request.consumeNow.get .retries = 1
  attempts : ∀ account ∈ ledger.accounts,
    account.consumed.get .attempts = (chargedBelow ledger account.id).length
  retries : ∀ root ∈ ledger.accounts, root.id = ledger.rootId →
    root.consumed.get .retries
        + (ledger.reservations.map (attemptKey ·.request)).toFinset.card =
      ledger.reservations.length

theorem retry_accounting {ledger : BudgetLedger}
    (hreach : Reachable NewRoot Accepts ledger) : RetriesCounted ledger := by
  have hwf := wellFormed_of_reachable hreach
  constructor
  · intro record hrecord other hother hkey
    exact digest_of_attempts hwf hrecord hother hkey
  · intro i j record other hi hj hkey hlive hlive'
    exact live_attempt_unique hwf hi hj hkey hlive hlive'
  · intro i record hget hmem
    exact (retries_of_attempt hwf hget).2 hmem
  · intro i record hget hmem
    exact (retries_of_attempt hwf hget).1 hmem
  · intro account haccount
    exact attempts_eq_length hreach haccount
  · intro root hroot hid
    exact retries_add_keys hreach hroot hid

def sampleRevision : RevisionTuple :=
  { acceptanceSpecId := .ofNat 2
    harnessId := .ofNat 3
    workspaceId := .ofNat 4
    workspaceGeneration := PositiveNumber.first
    workspaceRevision := PositiveNumber.first
    policyId := .ofNat 5
    providerProfileId := .ofNat 6 }

/-- A root with two attempts, the second of them a retry. -/
def retryRoot : BudgetLedger :=
  BudgetLedger.newRoot (.ofNat 1) sampleRevision
    { amounts :=
        { BudgetAmounts.zero with
          attempts := ⟨2, by decide⟩
          retries := ⟨1, PositiveNumber.one_bound⟩ } }

/-- An attempt that holds nothing, and so is settled at once. -/
def attempt (reservationId : BudgetReservationId) (retries : ResourceQuantity) :
    BudgetCommand :=
  .begin
    { reservationId
      budgetId := .ofNat 1
      revision := sampleRevision
      actionId := .ofNat 8
      actionDigest := .ofNat 9
      consumeNow :=
        { BudgetAmounts.zero with attempts := ⟨1, PositiveNumber.one_bound⟩, retries }
      reserve := .zero }

def retryTrace : Except BudgetError BudgetTransition := do
  let first ← transition retryRoot
    (attempt (.ofNat 10) ⟨0, Nat.zero_le _⟩)
  transition first.ledger (attempt (.ofNat 11) ⟨1, PositiveNumber.one_bound⟩)

theorem retry_accounting_of_retry : ∃ applied,
    retryTrace = .ok applied ∧ applied.ledger.reservations.length = 2 ∧
    RetriesCounted applied.ledger := by
  have haccepted : retryTrace.toOption.map
      (·.ledger.reservations.length) = some 2 := by
    decide +kernel
  cases htrace : retryTrace with
  | error error =>
      rw [htrace] at haccepted
      cases haccepted
  | ok applied =>
      rw [htrace] at haccepted
      refine ⟨applied, rfl, Option.some.inj haccepted, ?_⟩
      unfold retryTrace at htrace
      rw [bind_eq_ok_iff] at htrace
      obtain ⟨first, hfirst, hsecond⟩ := htrace
      exact retry_accounting
        ⟨retryRoot, _, ⟨_, _, _, rfl⟩,
          .cons ⟨first.receipt, hfirst⟩
            (.cons ⟨applied.receipt, hsecond⟩ (.nil _))⟩

end Peritus.Budget.Retries
