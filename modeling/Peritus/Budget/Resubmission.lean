import Peritus.Budget.Faults

/-!
Commands submitted twice.  Every command leaves on the ledger what its own
replay check looks for, and a command that finds it there changes nothing; what
an allocation or a begin leaves stays through every later run.
-/

namespace Peritus.Budget.Resubmission

open Peritus.Types TransitionSystem Checked Collections Amounts State Accounting
open Transition Validation Balance Step Refinement Conservation Faults

/-! ### What a command leaves -/

/-- A record bound to the action named, left as `left` says. -/
def Bound (ledger : BudgetLedger) (reservationId : BudgetReservationId)
    (actionId : ActionId) (actionDigest : Sha256Digest)
    (left : ReservationRecord → Prop) : Prop :=
  ∃ record ∈ ledger.reservations,
    record.request.reservationId = reservationId ∧
    requireBinding record actionId actionDigest = .ok () ∧ left record

inductive Observed (observation : UsageObservation)
    (record : ReservationRecord) : Prop
  | interim (hphase : record.phase = .active)
      (hfinality : observation.finality = .interim)
      (hobserved : record.observed = observation.cumulative)
      (hevidence : record.observationEvidence = some observation.evidenceDigest)
  | terminal
      (hphase : record.phase = .settledFinal ∨ record.phase = .overrunFaulted)
      (hfinality : record.finality = some observation.finality)
      (hevidence : record.finalEvidence = some observation.evidenceDigest)
      (hreported : record.finalReported = some observation.cumulative)

def Finalized (ledger : BudgetLedger) (reference : ReservationReference)
    (finalPhase : ReservationPhase) : Prop :=
  Bound ledger reference.reservationId reference.actionId reference.actionDigest
    fun record => record.phase = finalPhase ∧
      record.finalEvidence = some reference.evidenceDigest

/-- The ledger shows a run of the command. -/
def Recorded (ledger : BudgetLedger) : BudgetCommand → Prop
  | .allocateChild request => ∃ account ∈ ledger.accounts,
      account.id = request.childId ∧
      account.parentId = some request.parentId ∧
      account.revision = request.revision ∧
      account.limits.amounts = request.limits.amounts
  | .begin request => ∃ record ∈ ledger.reservations, record.request = request
  | .activate activation =>
      Bound ledger activation.reservationId activation.actionId
        activation.actionDigest fun record => record.phase = .active ∧
          record.activationEvidence = some activation.evidenceDigest
  | .observeUsage observation =>
      Bound ledger observation.reservationId observation.actionId
        observation.actionDigest (Observed observation)
  | .settleExact reference => Finalized ledger reference .settledExact
  | .cancelHeld reference => Finalized ledger reference .cancelledHeld
  | .finalizeAmbiguous finalization =>
      Finalized ledger finalization.reference .settledAmbiguous
  | .seal budgetId => ∃ account ∈ ledger.accounts,
      account.id = budgetId ∧ account.phase ≠ .open
  | .close budgetId => ∃ account ∈ ledger.accounts,
      account.id = budgetId ∧ account.phase = .closed

abbrev Recording (command : BudgetCommand) (result : Applied) : Prop :=
  Satisfies (fun applied => Recorded applied.1 command) (fun _ => True) result

section Recordings

variable {ledger next : BudgetLedger} {index : Nat}
variable {record record' : ReservationRecord}
variable {reservationId : BudgetReservationId} {actionId : ActionId}
variable {actionDigest : Sha256Digest} {left : ReservationRecord → Prop}

theorem requireBinding_of_request (hrequest : record'.request = record.request)
    (hbinding : requireBinding record actionId actionDigest = .ok ()) :
    requireBinding record' actionId actionDigest = .ok () := by
  unfold requireBinding at hbinding ⊢
  rw [hrequest]
  exact hbinding

theorem requireReservation_id
    (h : requireReservation ledger reservationId = .ok (index, record)) :
    record.request.reservationId = reservationId := by
  unfold requireReservation at h
  split at h
  · rename_i found hfind
    cases h
    exact of_decide_eq_true (findIndexed_eq_some hfind).2.1
  · cases h

theorem bound_of_mem
    (hrequire : requireReservation ledger reservationId = .ok (index, record))
    (hbinding : requireBinding record actionId actionDigest = .ok ())
    (hmem : record' ∈ next.reservations)
    (hrequest : record'.request = record.request) (hleft : left record') :
    Bound next reservationId actionId actionDigest left := by
  refine ⟨record', hmem, ?_, requireBinding_of_request hrequest hbinding, hleft⟩
  rw [hrequest]
  exact requireReservation_id hrequire

/-- The record found keeps its request and takes its place again. -/
theorem bound_setReservation
    (hrequire : requireReservation ledger reservationId = .ok (index, record))
    (hbinding : requireBinding record actionId actionDigest = .ok ())
    (hrecords : next.reservations = ledger.reservations)
    (hrequest : record'.request = record.request) (hleft : left record') :
    Bound (setReservation next index record') reservationId actionId
      actionDigest left := by
  refine bound_of_mem hrequire hbinding (List.mem_set ?_ record') hrequest hleft
  rw [hrecords]
  exact (List.getElem?_eq_some_iff.mp (requireReservation_eq_ok hrequire)).1

theorem bound_same
    (hrequire : requireReservation ledger reservationId = .ok (index, record))
    (hbinding : requireBinding record actionId actionDigest = .ok ())
    (hleft : left record) :
    Bound ledger reservationId actionId actionDigest left :=
  bound_of_mem hrequire hbinding
    (List.mem_of_getElem? (requireReservation_eq_ok hrequire)) rfl hleft

theorem recording_allocateChild (request : ChildBudgetRequest) :
    Recording (.allocateChild request) (allocateChild ledger request) := by
  unfold allocateChild
  split
  · rename_i index existing hfind
    obtain ⟨hget, hid⟩ := findAccount_eq_some hfind
    refine satisfies_bind fun _ hsame => ?_
    simp only [ensure_eq_ok_iff, Bool.and_eq_true, decide_eq_true_eq] at hsame
    obtain ⟨⟨hparent, hrevision⟩, hlimits⟩ := hsame
    exact ⟨existing, List.mem_of_getElem? hget, hid, hparent, hrevision, hlimits⟩
  · refine satisfies_bind ?_
    rintro ⟨index, parent⟩ -
    refine satisfies_bind fun _ _ => satisfies_bind fun available _ => ?_
    refine satisfies_bind fun _ _ => satisfies_bind fun delegated _ => ?_
    exact ⟨_, List.mem_append_right _ (List.mem_singleton_self _), rfl, rfl, rfl,
      rfl⟩

theorem recording_begin (request : BudgetRequest) :
    Recording (.begin request) (begin ledger request) := by
  unfold begin
  split
  · rename_i index existing hfind
    have hget := (findIndexed_eq_some hfind).1
    refine satisfies_bind fun _ hsame => ?_
    have hsame := of_decide_eq_true (ensure_eq_ok_iff.mp hsame)
    exact ⟨existing, List.mem_of_getElem? hget, hsame⟩
  · refine satisfies_bind fun requested _ => satisfies_bind fun _ _ => ?_
    refine satisfies_bind ?_
    rintro ⟨index, account⟩ -
    refine satisfies_bind fun _ _ => satisfies_bind fun retry _ => ?_
    refine satisfies_bind fun _ _ => satisfies_bind fun available _ => ?_
    refine satisfies_bind fun _ _ => ?_
    unfold applyNewBegin
    refine satisfies_bind fun charged _ => satisfies_bind fun found _ => ?_
    refine satisfies_bind fun operationReserved _ => ?_
    exact ⟨_, List.mem_append_right _ (List.mem_singleton_self _), rfl⟩

theorem recording_activate (activation : Activation) :
    Recording (.activate activation) (activate ledger activation) := by
  unfold activate
  refine satisfies_bind ?_
  rintro ⟨index, record⟩ hrequire
  refine satisfies_bind fun _ hbinding => ?_
  dsimp only
  split
  · exact bound_setReservation hrequire hbinding rfl rfl ⟨rfl, rfl⟩
  · rename_i hactive
    refine satisfies_bind fun _ hevidence => ?_
    have hevidence := of_decide_eq_true (ensure_eq_ok_iff.mp hevidence)
    exact bound_same hrequire hbinding ⟨hactive, hevidence⟩
  · trivial

theorem recording_finalizeFullCeiling {reference : ReservationReference}
    {operation : BudgetOperation} {finalPhase : ReservationPhase} :
    Satisfies (fun applied => Finalized applied.1 reference finalPhase)
      (fun _ => True)
      (finalizeFullCeiling ledger reference operation finalPhase) := by
  unfold finalizeFullCeiling
  refine satisfies_bind ?_
  rintro ⟨index, record⟩ hrequire
  refine satisfies_bind fun _ hbinding => ?_
  dsimp only
  split
  · rename_i hdone
    exact bound_same hrequire hbinding hdone
  · refine satisfies_bind fun _ _ => satisfies_bind fun charged hcharged => ?_
    have hrecords := (chargeLineageInner_stayShut hcharged).2.trans
      (release_stayShut ledger record _).2
    exact bound_setReservation hrequire hbinding hrecords rfl ⟨rfl, rfl⟩

theorem recording_cancelHeld (reference : ReservationReference) :
    Recording (.cancelHeld reference) (cancelHeld ledger reference) := by
  unfold cancelHeld
  refine satisfies_bind ?_
  rintro ⟨index, record⟩ hrequire
  refine satisfies_bind fun _ hbinding => ?_
  dsimp only
  split
  · rename_i hdone
    exact bound_same hrequire hbinding hdone
  · refine satisfies_bind fun _ _ => ?_
    exact bound_setReservation hrequire hbinding
      (release_stayShut ledger record _).2 rfl ⟨rfl, rfl⟩

theorem requireAccount_id {budgetId : BudgetId} {account : BudgetAccount}
    (h : requireAccount ledger budgetId = .ok (index, account)) :
    account.id = budgetId := by
  unfold requireAccount at h
  split at h
  · rename_i found hfind
    cases h
    exact (findAccount_eq_some hfind).2
  · cases h

theorem recording_sealValidated (budgetId : BudgetId) :
    Recording (.seal budgetId) (sealValidated ledger budgetId) := by
  unfold sealValidated
  refine satisfies_bind ?_
  rintro ⟨index, account⟩ hrequire
  have hget := requireAccount_eq_ok hrequire
  have hid := requireAccount_id hrequire
  dsimp only
  split
  · exact ⟨_, List.mem_set (List.getElem?_eq_some_iff.mp hget).1 _, hid, nofun⟩
  · rename_i hshut
    exact ⟨account, List.mem_of_getElem? hget, hid, hshut⟩

theorem recording_closeValidated (budgetId : BudgetId) :
    Recording (.close budgetId) (closeValidated ledger budgetId) := by
  unfold closeValidated
  refine satisfies_bind ?_
  rintro ⟨index, account⟩ hrequire
  have hget := requireAccount_eq_ok hrequire
  have hid := requireAccount_id hrequire
  dsimp only
  split
  · trivial
  · rename_i hclosed
    exact ⟨account, List.mem_of_getElem? hget, hid, hclosed⟩
  · refine satisfies_bind fun _ _ => satisfies_bind fun unused _ => ?_
    refine satisfies_bind fun released hreleased => ?_
    obtain ⟨_, _, hsame⟩ := releaseDelegation_stayShut hreleased
    have hindex := (List.getElem?_eq_some_iff.mp (hsame.trans hget)).1
    exact ⟨_, List.mem_set hindex _, hid, rfl⟩

/-! ### Observations -/

section Observations

variable {observation : UsageObservation}

theorem recording_applyInterimValidated
    (hrequire : requireReservation ledger observation.reservationId =
      .ok (index, record))
    (hbinding : requireBinding record observation.actionId
      observation.actionDigest = .ok ()) :
    Recording (.observeUsage observation)
      (applyInterimValidated ledger index record observation) := by
  unfold applyInterimValidated
  refine satisfies_bind fun _ hactive => satisfies_bind fun _ hinterim => ?_
  have hactive := of_decide_eq_true (ensure_eq_ok_iff.mp hactive)
  have hinterim := of_decide_eq_true (ensure_eq_ok_iff.mp hinterim)
  refine satisfies_bind fun delta _ => satisfies_bind fun charged hcharged => ?_
  have hrecords := (chargeLineageInner_stayShut hcharged).2.trans
    (release_stayShut ledger record _).2
  exact bound_setReservation hrequire hbinding hrecords rfl
    (.interim hactive hinterim rfl rfl)

theorem recording_applyFinalValidated
    (hrequire : requireReservation ledger observation.reservationId =
      .ok (index, record))
    (hbinding : requireBinding record observation.actionId
      observation.actionDigest = .ok ()) :
    Recording (.observeUsage observation)
      (applyFinalValidated ledger index record observation) := by
  unfold applyFinalValidated
  refine satisfies_bind fun _ _ => satisfies_bind fun _ hfinal => ?_
  have hfinal := of_decide_eq_true (ensure_eq_ok_iff.mp hfinal)
  dsimp only
  split
  · trivial
  · rename_i accountIndex account hfind
    refine satisfies_bind fun delta _ => ?_
    refine satisfies_bind fun charged hcharged => ?_
    refine satisfies_bind fun released _ => ?_
    have hcharge := (chargeLineageInner_stayShut hcharged).2.trans
      (release_stayShut ledger record delta).2
    have hrecords :=
      (releaseOperation_stayShut charged accountIndex released).2.trans hcharge
    exact bound_setReservation hrequire hbinding hrecords rfl
      (.terminal (.inl rfl) (congrArg some hfinal.symm) rfl rfl)

theorem recording_applyOverrunValidated
    (hrequire : requireReservation ledger observation.reservationId =
      .ok (index, record))
    (hbinding : requireBinding record observation.actionId
      observation.actionDigest = .ok ()) :
    Recording (.observeUsage observation)
      (applyOverrunValidated ledger index record observation) := by
  unfold applyOverrunValidated
  refine satisfies_bind fun _ _ => ?_
  dsimp only
  split
  · trivial
  · refine satisfies_bind fun charged hcharged => ?_
    refine satisfies_bind fun faulted hfaulted => ?_
    have hrecords := (chargeLineageInner_stayShut hcharged).2.trans
      (release_stayShut ledger record (outstandingValidated record)).2
    have hindex : index < charged.reservations.length := by
      rw [hrecords]
      exact (List.getElem?_eq_some_iff.mp (requireReservation_eq_ok hrequire)).1
    exact bound_of_mem hrequire hbinding (record_mem_of_fault hfaulted hindex)
      rfl (.terminal (.inr rfl) rfl rfl rfl)

theorem recording_observeValidated (observation : UsageObservation) :
    Recording (.observeUsage observation)
      (observeValidated ledger observation) := by
  unfold observeValidated
  refine satisfies_bind ?_
  rintro ⟨index, record⟩ hrequire
  refine satisfies_bind fun _ hbinding => ?_
  dsimp only
  split
  · rename_i hactive
    refine satisfies_bind fun _ _ => satisfies_bind fun _ _ => ?_
    split
    · rename_i hsame
      obtain ⟨hobserved, hevidence, hinterim⟩ := hsame
      exact bound_same hrequire hbinding
        (.interim hactive hinterim hobserved hevidence)
    · split
      · exact recording_applyOverrunValidated hrequire hbinding
      · split
        · exact recording_applyFinalValidated hrequire hbinding
        · exact recording_applyInterimValidated hrequire hbinding
  · unfold replayFinalObservationValidated
    refine satisfies_bind fun _ hsame => ?_
    simp only [ensure_eq_ok_iff, Bool.and_eq_true, decide_eq_true_eq] at hsame
    obtain ⟨⟨hfinality, hevidence⟩, hreported⟩ := hsame
    split
    · rename_i hphase
      exact bound_same hrequire hbinding
        (.terminal (.inl hphase) hfinality hevidence hreported)
    · rename_i hphase
      exact bound_same hrequire hbinding
        (.terminal (.inr hphase) hfinality hevidence hreported)
    · trivial

end Observations

theorem recording_applyValidated (command : BudgetCommand) :
    Recording command (applyValidated ledger command) := by
  cases command with
  | allocateChild request => exact recording_allocateChild request
  | begin request => exact recording_begin request
  | activate activation => exact recording_activate activation
  | observeUsage observation => exact recording_observeValidated observation
  | settleExact reference => exact recording_finalizeFullCeiling
  | cancelHeld reference => exact recording_cancelHeld reference
  | finalizeAmbiguous finalization => exact recording_finalizeFullCeiling
  | «seal» budgetId => exact recording_sealValidated budgetId
  | close budgetId => exact recording_closeValidated budgetId

end Recordings

/-! ### What a recorded command does -/

/-- Submitted again, the command is taken, changes nothing and charges and
releases nothing. -/
def Replays (ledger : BudgetLedger) (command : BudgetCommand) : Prop :=
  ∃ receipt, applyValidated ledger command = .ok (ledger, receipt) ∧
    receipt.charged = .zero ∧ receipt.released = .zero

section Replaying

variable {ledger : BudgetLedger}

theorem requireAccount_of_mem (hunique : (ledger.accounts.map (·.id)).Nodup)
    {account : BudgetAccount} (hmem : account ∈ ledger.accounts) :
    ∃ index, requireAccount ledger account.id = .ok (index, account) := by
  obtain ⟨index, hfind, -⟩ := findAccount_of_mem hunique hmem
  refine ⟨index, ?_⟩
  unfold requireAccount
  rw [hfind]

theorem findReservation_of_mem
    (hunique : (ledger.reservations.map (·.request.reservationId)).Nodup)
    {record : ReservationRecord} (hmem : record ∈ ledger.reservations) :
    ∃ index, findReservation ledger record.request.reservationId =
      some (index, record) := by
  obtain ⟨index, hget⟩ := List.mem_iff_getElem?.mp hmem
  exact ⟨index, findIndexed_of_unique hunique hget⟩

/-- The lookups of a command find the record it left. -/
theorem require_of_bound
    (hunique : (ledger.reservations.map (·.request.reservationId)).Nodup)
    {reservationId : BudgetReservationId} {actionId : ActionId}
    {actionDigest : Sha256Digest} {left : ReservationRecord → Prop}
    (h : Bound ledger reservationId actionId actionDigest left) :
    ∃ index record,
      requireReservation ledger reservationId = .ok (index, record) ∧
      requireBinding record actionId actionDigest = .ok () ∧ left record := by
  obtain ⟨record, hmem, rfl, hbinding, hleft⟩ := h
  obtain ⟨index, hfind⟩ := findReservation_of_mem hunique hmem
  refine ⟨index, record, ?_, hbinding, hleft⟩
  unfold requireReservation
  rw [hfind]

theorem replays_allocateChild (hwf : WellFormed ledger)
    {request : ChildBudgetRequest}
    (h : Recorded ledger (.allocateChild request)) :
    Replays ledger (.allocateChild request) := by
  obtain ⟨account, hmem, hid, hparent, hrevision, hlimits⟩ := h
  obtain ⟨index, hfind, -⟩ := findAccount_of_mem hwf.accounts.unique hmem
  rw [hid] at hfind
  refine ⟨receipt .allocateChild .idempotent request.childId, ?_, rfl, rfl⟩
  simp only [applyValidated, allocateChild, hfind, hparent, hrevision, hlimits,
    decide_true, Bool.and_true, ensure_true]
  rfl

theorem replays_begin (hwf : WellFormed ledger) {request : BudgetRequest}
    (h : Recorded ledger (.begin request)) :
    Replays ledger (.begin request) := by
  obtain ⟨record, hmem, rfl⟩ := h
  obtain ⟨index, hfind⟩ := findReservation_of_mem hwf.reservations.unique hmem
  simp only [Replays, applyValidated, begin, hfind, decide_true, ensure_true]
  exact ⟨_, rfl, rfl, rfl⟩

theorem replays_activate (hwf : WellFormed ledger) {activation : Activation}
    (h : Recorded ledger (.activate activation)) :
    Replays ledger (.activate activation) := by
  obtain ⟨index, record, hrequire, hbinding, hphase, hevidence⟩ :=
    require_of_bound hwf.reservations.unique h
  refine ⟨boundReceipt .activate .idempotent record.request.budgetId
    activation.reservationId activation.evidenceDigest, ?_, rfl, rfl⟩
  simp only [applyValidated, activate, bind_eq_ok_iff]
  refine ⟨_, hrequire, (), hbinding, ?_⟩
  simp only [hphase, hevidence, decide_true, ensure_true]
  rfl

theorem replayFinal_of_terminal {record : ReservationRecord}
    {observation : UsageObservation}
    (hphase : record.phase = .settledFinal ∨ record.phase = .overrunFaulted)
    (hfinality : record.finality = some observation.finality)
    (hevidence : record.finalEvidence = some observation.evidenceDigest)
    (hreported : record.finalReported = some observation.cumulative) :
    ∃ kind, replayFinalObservationValidated ledger record observation =
      .ok (ledger, observationReceipt observation record.request.budgetId kind
        .zero .zero) := by
  unfold replayFinalObservationValidated
  simp only [hfinality, hevidence, hreported, decide_true, Bool.and_true,
    ensure_true]
  rcases hphase with hphase | hphase
  · rw [hphase]
    exact ⟨.idempotent, rfl⟩
  · rw [hphase]
    exact ⟨.overrunFaulted, rfl⟩

theorem replays_observeUsage (hwf : WellFormed ledger)
    {observation : UsageObservation}
    (h : Recorded ledger (.observeUsage observation)) :
    Replays ledger (.observeUsage observation) := by
  obtain ⟨index, record, hrequire, hbinding, hobserved⟩ :=
    require_of_bound hwf.reservations.unique h
  simp only [Replays, applyValidated, observeValidated, bind_eq_ok_iff]
  cases hobserved with
  | interim hphase hfinality hobserved hevidence =>
      refine ⟨observationReceipt observation record.request.budgetId .idempotent
        .zero .zero, ⟨_, hrequire, (), hbinding, ?_⟩, rfl, rfl⟩
      have hfits : record.observed.fitsWithin observation.cumulative = true := by
        rw [BudgetAmounts.fitsWithin_iff, hobserved]
        exact fun d => Nat.le_refl _
      simp only [hphase, hfits, hevidence, if_true, decide_true, ensure_true,
        Bool.not_true, Bool.and_false, Bool.not_false]
      rw [if_pos ⟨hobserved, trivial, hfinality⟩]
      rfl
  | terminal hphase hfinality hevidence hreported =>
      obtain ⟨kind, hreplay⟩ := replayFinal_of_terminal hphase
        hfinality hevidence hreported
      refine ⟨observationReceipt observation record.request.budgetId kind
        .zero .zero, ⟨_, hrequire, (), hbinding, ?_⟩, rfl, rfl⟩
      have hinactive : record.phase ≠ .active := by
        rintro hactive
        rw [hactive] at hphase
        rcases hphase with hphase | hphase <;> cases hphase
      rw [if_neg hinactive]
      exact hreplay

theorem replays_finalizeFullCeiling (hwf : WellFormed ledger)
    {reference : ReservationReference} {finalPhase : ReservationPhase}
    (operation : BudgetOperation)
    (h : Finalized ledger reference finalPhase) :
    ∃ receipt, finalizeFullCeiling ledger reference operation finalPhase =
      .ok (ledger, receipt) ∧ receipt.charged = .zero ∧
        receipt.released = .zero := by
  obtain ⟨index, record, hrequire, hbinding, hdone⟩ :=
    require_of_bound hwf.reservations.unique h
  refine ⟨boundReceipt operation .idempotent record.request.budgetId
    reference.reservationId reference.evidenceDigest, ?_, rfl, rfl⟩
  simp only [finalizeFullCeiling, bind_eq_ok_iff]
  refine ⟨_, hrequire, (), hbinding, ?_⟩
  rw [if_pos hdone]
  rfl

theorem replays_cancelHeld (hwf : WellFormed ledger)
    {reference : ReservationReference}
    (h : Recorded ledger (.cancelHeld reference)) :
    Replays ledger (.cancelHeld reference) := by
  obtain ⟨index, record, hrequire, hbinding, hdone⟩ :=
    require_of_bound hwf.reservations.unique h
  refine ⟨boundReceipt .cancelHeld .idempotent record.request.budgetId
    reference.reservationId reference.evidenceDigest, ?_, rfl, rfl⟩
  simp only [applyValidated, cancelHeld, bind_eq_ok_iff]
  refine ⟨_, hrequire, (), hbinding, ?_⟩
  rw [if_pos hdone]
  rfl

theorem replays_seal (hwf : WellFormed ledger) {budgetId : BudgetId}
    (h : Recorded ledger (.seal budgetId)) :
    Replays ledger (.seal budgetId) := by
  obtain ⟨account, hmem, rfl, hshut⟩ := h
  obtain ⟨index, hrequire⟩ := requireAccount_of_mem hwf.accounts.unique hmem
  refine ⟨receipt .seal .idempotent account.id, ?_, rfl, rfl⟩
  simp only [applyValidated, sealValidated, bind_eq_ok_iff]
  refine ⟨_, hrequire, ?_⟩
  rw [if_neg hshut]
  rfl

theorem replays_close (hwf : WellFormed ledger) {budgetId : BudgetId}
    (h : Recorded ledger (.close budgetId)) :
    Replays ledger (.close budgetId) := by
  obtain ⟨account, hmem, rfl, hclosed⟩ := h
  obtain ⟨index, hrequire⟩ := requireAccount_of_mem hwf.accounts.unique hmem
  refine ⟨receipt .close .idempotent account.id, ?_, rfl, rfl⟩
  simp only [applyValidated, closeValidated, bind_eq_ok_iff]
  refine ⟨_, hrequire, ?_⟩
  simp only [hclosed]
  rfl

theorem replays_of_recorded (hwf : WellFormed ledger) {command : BudgetCommand}
    (h : Recorded ledger command) : Replays ledger command := by
  cases command with
  | allocateChild request => exact replays_allocateChild hwf h
  | begin request => exact replays_begin hwf h
  | activate activation => exact replays_activate hwf h
  | observeUsage observation => exact replays_observeUsage hwf h
  | settleExact reference =>
      exact replays_finalizeFullCeiling hwf .settleExact h
  | cancelHeld reference => exact replays_cancelHeld hwf h
  | finalizeAmbiguous finalization =>
      exact replays_finalizeFullCeiling hwf .finalizeAmbiguous h
  | «seal» budgetId => exact replays_seal hwf h
  | close budgetId => exact replays_close hwf h

end Replaying

/-! ### What stays recorded -/

/-- The commands whose record no later command changes. -/
inductive Lasting : BudgetCommand → Prop
  | begin (request : BudgetRequest) : Lasting (.begin request)
  | allocateChild (request : ChildBudgetRequest) :
      Lasting (.allocateChild request)

theorem recorded_of_step {before next : BudgetLedger} {command : BudgetCommand}
    (hlasting : Lasting command) (hstep : LedgerStep before next)
    (h : Recorded before command) : Recorded next command := by
  cases hlasting with
  | begin request =>
      obtain ⟨record, hmem, hrequest⟩ := h
      obtain ⟨kept, extra, hrecords, hobserves⟩ := observes_of_step hstep
      obtain ⟨record', hmem', hobserve⟩ := forall₂_mem_left hobserves hmem
      refine ⟨record', ?_, hobserve.request.trans hrequest⟩
      rw [hrecords]
      exact List.mem_append_left _ hmem'
  | allocateChild request =>
      obtain ⟨account, hmem, hid, hparent, hrevision, hlimits⟩ := h
      obtain ⟨targetId, amount, kept, extra, haccounts, hconsumes⟩ :=
        consumes_of_step hstep
      obtain ⟨account', hmem', hone⟩ := forall₂_mem_left hconsumes hmem
      refine ⟨account', ?_, hone.node.id.trans hid,
        hone.node.parentId.trans hparent, hone.node.revision.trans hrevision, ?_⟩
      · rw [haccounts]
        exact List.mem_append_left _ hmem'
      · rw [hone.node.limits]
        exact hlimits

/-- A reachable ledger that shows a run of the command. -/
structure Shows (command : BudgetCommand) (ledger : BudgetLedger) : Prop where
  reached : Reachable NewRoot Accepts ledger
  recorded : Recorded ledger command

theorem shows_of_accepts {before next : BudgetLedger} {command : BudgetCommand}
    (hreach : Reachable NewRoot Accepts before)
    (haccepts : Accepts before command next) : Shows command next := by
  refine ⟨hreach.snoc haccepts, ?_⟩
  obtain ⟨receipt, h⟩ := haccepts
  exact (recording_applyValidated command).of_eq_ok
    (applyValidated_of_transition h)

theorem Shows.run {command : BudgetCommand} (hlasting : Lasting command)
    {before later : BudgetLedger} {commands : List BudgetCommand}
    (h : Shows command before) (hrun : Run Accepts before commands later) :
    Shows command later := by
  refine hrun.invariant ?_ h
  rintro ledger other next ⟨hreach, hrecorded⟩ haccepts
  have hstep := step_of_accepts (wellFormed_of_reachable hreach) haccepts
  exact ⟨hreach.snoc haccepts, recorded_of_step hlasting hstep hrecorded⟩

/-- The whole transition takes the command again. -/
def Resubmits (ledger : BudgetLedger) (command : BudgetCommand) : Prop :=
  ∃ receipt, transition ledger command = .ok ⟨ledger, receipt⟩ ∧
    receipt.charged = .zero ∧ receipt.released = .zero

theorem Shows.resubmits {command : BudgetCommand} {ledger : BudgetLedger}
    (h : Shows command ledger) : Resubmits ledger command := by
  have hwf := wellFormed_of_reachable h.reached
  have hvalid := validate_eq_ok_iff.mpr hwf
  obtain ⟨receipt, happly, hcharged, hreleased⟩ :=
    replays_of_recorded hwf h.recorded
  obtain ⟨hnext, hrefines⟩ := validate_of_applyValidated hvalid happly
  refine ⟨receipt, ?_, hcharged, hreleased⟩
  unfold transition
  rw [hvalid, happly]
  change orElseError (validate ledger) _ >>= _ = _
  rw [hvalid, hrefines]
  rfl

/-- An accepted command is accepted again, without effect on the ledger and
without an amount on the receipt; a begin and an allocation of a child after
every later run as well. -/
theorem replay_idempotent {before next : BudgetLedger} {command : BudgetCommand}
    (hreach : Reachable NewRoot Accepts before)
    (haccepts : Accepts before command next) :
    Resubmits next command ∧
    (Lasting command → ∀ commands later, Run Accepts next commands later →
      Resubmits later command) := by
  have hshows := shows_of_accepts hreach haccepts
  exact ⟨hshows.resubmits,
    fun hlasting _ _ hrun => (hshows.run hlasting hrun).resubmits⟩

theorem replay_idempotent_of_begin : ∃ next,
    Accepts smallRoot smallBegin next ∧ Resubmits next smallBegin ∧
    ∀ commands later, Run Accepts next commands later →
      Resubmits later smallBegin := by
  have haccepted : (transition smallRoot smallBegin).toOption.isSome = true := by
    decide +kernel
  obtain ⟨⟨next, receipt⟩, htransition⟩ :=
    exists_ok_of_toOption_isSome haccepted
  have haccepts : Accepts smallRoot smallBegin next := ⟨receipt, htransition⟩
  obtain ⟨honce, hlater⟩ := replay_idempotent
    ⟨smallRoot, [], ⟨_, _, _, rfl⟩, .nil _⟩ haccepts
  exact ⟨next, haccepts, honce, hlater (.begin _)⟩

end Peritus.Budget.Resubmission
