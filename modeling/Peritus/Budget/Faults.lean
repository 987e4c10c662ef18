import Peritus.Budget.Conservation

/-!
An overrun shuts the whole tree of accounts.  The fault reaches the root, no
command opens an account again, and new work needs every account up to the root
to be open.
-/

namespace Peritus.Budget.Faults

open Peritus.Types TransitionSystem Checked Collections Amounts State Accounting
open Transition Validation Balance Preservation Conservation

/-! ### Accounts that stay shut -/

/-- An account that is not open does not become so. -/
structure NotReopened (before next : BudgetAccount) : Prop where
  parentId : next.parentId = before.parentId
  phase : before.phase ≠ .open → next.phase ≠ .open

theorem NotReopened.refl (account : BudgetAccount) :
    NotReopened account account :=
  ⟨rfl, id⟩

def StayShut (before next : BudgetLedger) : Prop :=
  List.Forall₂ NotReopened before.accounts next.accounts

theorem StayShut.refl (ledger : BudgetLedger) : StayShut ledger ledger :=
  List.forall₂_same.mpr fun account _ => .refl account

theorem StayShut.trans {before middle next : BudgetLedger}
    (hfirst : StayShut before middle) (hsecond : StayShut middle next) :
    StayShut before next :=
  forall₂_comp hfirst hsecond fun _ _ _ hab hbc =>
    ⟨hbc.parentId.trans hab.parentId, fun h => hbc.phase (hab.phase h)⟩

theorem stayShut_setAccount {ledger : BudgetLedger} {index : Nat}
    {account account' : BudgetAccount}
    (hget : ledger.accounts[index]? = some account)
    (hparent : account'.parentId = account.parentId)
    (hphase : account'.phase = account.phase ∨ account'.phase ≠ .open) :
    StayShut ledger (setAccount ledger index account') := by
  refine forall₂_set hget NotReopened.refl ⟨hparent, fun h => ?_⟩
  rcases hphase with hkept | hshut
  · rw [hkept]
    exact h
  · exact hshut

/-- The first account, which is the root, is not open. -/
def RootShut (ledger : BudgetLedger) : Prop :=
  ∃ root, ledger.accounts[0]? = some root ∧ root.phase ≠ .open

theorem RootShut.mono {before next : BudgetLedger} (h : RootShut before)
    (hstay : StayShut before next) : RootShut next := by
  obtain ⟨root, hget, hphase⟩ := h
  obtain ⟨root', hget', hroot⟩ := forall₂_get_left hstay hget
  exact ⟨root', hget', hroot.phase hphase⟩

/-- Only the first account has no parent. -/
def OneRoot (ledger : BudgetLedger) : Prop :=
  ∀ i account, ledger.accounts[i]? = some account → account.parentId = none →
    i = 0

theorem oneRoot_of_balance {ledger : BudgetLedger} (h : AccountsBalance ledger) :
    OneRoot ledger := by
  intro i account hget hnone
  by_contra hpos
  obtain ⟨_, _, _, _, hparent, _⟩ :=
    h.parents i account hget (Nat.pos_of_ne_zero hpos)
  rw [hnone] at hparent
  cases hparent

theorem OneRoot.mono {before next : BudgetLedger} (h : OneRoot before)
    (hstay : StayShut before next) : OneRoot next := by
  intro i account hget hnone
  obtain ⟨old, hold, hnot⟩ := forall₂_get_right hstay hget
  exact h i old hold (hnot.parentId ▸ hnone)

/-! ### Charges, releases and faults -/

theorem chargeLineageInner_stayShut {amount : BudgetAmounts} {steps : Nat}
    {ledger next : BudgetLedger} {budgetId : BudgetId} {delegatedChild : Bool}
    (h : chargeLineageInner amount steps ledger budgetId delegatedChild =
      .ok next) :
    StayShut ledger next ∧ next.reservations = ledger.reservations := by
  induction steps generalizing ledger budgetId delegatedChild with
  | zero => cases h
  | succ steps ih =>
      unfold chargeLineageInner at h
      split at h
      · cases h
      · rename_i index account hfind
        simp only [bind_eq_ok_iff] at h
        obtain ⟨delegated, -, consumed, -, h⟩ := h
        have hget := (findAccount_eq_some hfind).1
        have hset : StayShut ledger (setAccount ledger index
            { account with childDelegatedRemaining := delegated, consumed }) :=
          stayShut_setAccount hget rfl (.inl rfl)
        split at h
        · cases h
          exact ⟨hset, rfl⟩
        · obtain ⟨hrest, hrecords⟩ := ih h
          exact ⟨hset.trans hrest, hrecords⟩

theorem releaseOperation_stayShut (ledger : BudgetLedger) (index : Nat)
    (amount : BudgetAmounts) :
    StayShut ledger (releaseOperationReservationValidated ledger index amount) ∧
      (releaseOperationReservationValidated ledger index amount).reservations =
        ledger.reservations := by
  unfold releaseOperationReservationValidated
  split
  · exact ⟨.refl ledger, rfl⟩
  · rename_i account hget
    split
    · exact ⟨stayShut_setAccount hget rfl (.inl rfl), rfl⟩
    · exact ⟨.refl ledger, rfl⟩

theorem release_stayShut (ledger : BudgetLedger) (record : ReservationRecord)
    (amount : BudgetAmounts) :
    StayShut ledger (releaseReservation ledger record amount) ∧
      (releaseReservation ledger record amount).reservations =
        ledger.reservations := by
  unfold releaseReservation
  split
  · exact ⟨.refl ledger, rfl⟩
  · exact releaseOperation_stayShut ledger _ amount

/-- A fault reaches the root. -/
theorem faultLineageInner_rootShut {steps : Nat} {ledger next : BudgetLedger}
    {budgetId : BudgetId} (hroot : OneRoot ledger)
    (h : faultLineageInner steps ledger budgetId = .ok next) :
    RootShut next ∧ StayShut ledger next := by
  induction steps generalizing ledger budgetId with
  | zero => cases h
  | succ steps ih =>
      unfold faultLineageInner at h
      split at h
      · cases h
      · rename_i index account hfind
        have hget := (findAccount_eq_some hfind).1
        have hset : StayShut ledger
            (setAccount ledger index { account with phase := .faulted }) :=
          stayShut_setAccount hget rfl (.inr nofun)
        dsimp only at h
        split at h
        · rename_i hnone
          cases h
          have hfirst := hroot index account hget hnone
          subst hfirst
          obtain ⟨hindex, -⟩ := List.getElem?_eq_some_iff.mp hget
          exact ⟨⟨_, List.getElem?_set_self hindex, nofun⟩, hset⟩
        · obtain ⟨hshut, hrest⟩ := ih (hroot.mono hset) h
          exact ⟨hshut, hset.trans hrest⟩

theorem faultLineageInner_reservations {steps : Nat}
    {ledger next : BudgetLedger} {budgetId : BudgetId}
    (h : faultLineageInner steps ledger budgetId = .ok next) :
    next.reservations = ledger.reservations := by
  induction steps generalizing ledger budgetId with
  | zero => cases h
  | succ steps ih =>
      unfold faultLineageInner at h
      split at h
      · cases h
      · dsimp only at h
        split at h
        · cases h
          rfl
        · exact (ih h).trans rfl

theorem record_mem_of_fault {steps index : Nat} {charged next : BudgetLedger}
    {record : ReservationRecord} {budgetId : BudgetId}
    (h : faultLineageInner steps (setReservation charged index record) budgetId =
      .ok next)
    (hlength : index < charged.reservations.length) :
    record ∈ next.reservations := by
  rw [faultLineageInner_reservations h]
  exact List.mem_set hlength record

/-! ### Every command -/

/-- A ledger with an overrun reservation has its root shut. -/
def FaultShut (ledger : BudgetLedger) : Prop :=
  ∀ record ∈ ledger.reservations, record.phase = .overrunFaulted →
    RootShut ledger

/-- A command opens no account, and records or reports an overrun only in a
ledger whose root it leaves shut. -/
structure Shuts (ledger : BudgetLedger) (result : BudgetLedger × BudgetReceipt) :
    Prop where
  root : RootShut ledger → RootShut result.1
  faults : ∀ record ∈ result.1.reservations, record.phase = .overrunFaulted →
    record ∈ ledger.reservations ∨ RootShut result.1
  reports : result.2.kind = .overrunFaulted →
    ∃ record ∈ result.1.reservations, record.phase = .overrunFaulted

abbrev Shutting (ledger : BudgetLedger) (result : Applied) : Prop :=
  Satisfies (Shuts ledger) (fun _ => True) result

section Commands

variable {ledger next : BudgetLedger} {receipt : BudgetReceipt}

theorem Shutting.bind {α : Type} {x : Except BudgetError α} {f : α → Applied}
    (hf : ∀ a, x = .ok a → Shutting ledger (f a)) :
    Shutting ledger (x >>= f) :=
  satisfies_bind hf

theorem shuts_same (hkind : receipt.kind ≠ .overrunFaulted) :
    Shuts ledger (ledger, receipt) :=
  ⟨id, fun _ hmem _ => .inl hmem, fun h => absurd h hkind⟩

theorem shuts_of_stayShut (hstay : StayShut ledger next)
    (hrecords : ∀ record ∈ next.reservations, record.phase = .overrunFaulted →
      record ∈ ledger.reservations)
    (hkind : receipt.kind ≠ .overrunFaulted) : Shuts ledger (next, receipt) :=
  ⟨fun h => h.mono hstay, fun record hmem h => .inl (hrecords record hmem h),
    fun h => absurd h hkind⟩

/-- One record moves, and not to an overrun. -/
theorem shuts_setReservation {index : Nat} {record : ReservationRecord}
    (hstay : StayShut ledger next)
    (hrecords : next.reservations = ledger.reservations)
    (hphase : record.phase ≠ .overrunFaulted)
    (hkind : receipt.kind ≠ .overrunFaulted) :
    Shuts ledger (setReservation next index record, receipt) := by
  refine shuts_of_stayShut hstay ?_ hkind
  intro found hfound hfault
  rcases mem_set hfound with rfl | hmem
  · exact absurd hfault hphase
  · exact hrecords ▸ hmem

theorem requireAccount_eq_ok {budgetId : BudgetId} {index : Nat}
    {account : BudgetAccount}
    (h : requireAccount ledger budgetId = .ok (index, account)) :
    ledger.accounts[index]? = some account := by
  unfold requireAccount at h
  split at h
  · rename_i found hfind
    cases h
    exact (findAccount_eq_some hfind).1
  · cases h

theorem requireReservation_eq_ok {reservationId : BudgetReservationId}
    {index : Nat} {record : ReservationRecord}
    (h : requireReservation ledger reservationId = .ok (index, record)) :
    ledger.reservations[index]? = some record := by
  unfold requireReservation at h
  split at h
  · rename_i found hfind
    cases h
    exact (findIndexed_eq_some hfind).1
  · cases h

theorem requireOpenLineage_eq_ok {budgetId : BudgetId} {index : Nat}
    {account : BudgetAccount}
    (h : requireOpenLineage ledger budgetId = .ok (index, account)) :
    ledger.accounts[index]? = some account ∧
      requireOpenParentChain ledger ledger.accounts.length account = .ok () := by
  unfold requireOpenLineage at h
  simp only [bind_eq_ok_iff, pure_eq_ok_iff] at h
  obtain ⟨found, hfound, _, hchain, rfl⟩ := h
  exact ⟨requireAccount_eq_ok hfound, hchain⟩

theorem shutting_allocateChild (request : ChildBudgetRequest) :
    Shutting ledger (allocateChild ledger request) := by
  unfold allocateChild
  split
  · exact Shutting.bind fun _ _ => shuts_same nofun
  · refine Shutting.bind ?_
    rintro ⟨index, parent⟩ hparent
    have hget := (requireOpenLineage_eq_ok hparent).1
    refine Shutting.bind fun _ _ => Shutting.bind fun available _ => ?_
    refine Shutting.bind fun _ _ => Shutting.bind fun delegated _ => ?_
    refine ⟨?_, fun _ hmem _ => .inl hmem, nofun⟩
    intro hshut
    have hset : StayShut ledger (setAccount ledger index
        { parent with childDelegatedRemaining := delegated }) :=
      stayShut_setAccount hget rfl (.inl rfl)
    obtain ⟨root, hroot, hphase⟩ := hshut.mono hset
    refine ⟨root, ?_, hphase⟩
    obtain ⟨hindex, -⟩ := List.getElem?_eq_some_iff.mp hroot
    exact (List.getElem?_append_left hindex).trans hroot

theorem shutting_begin (request : BudgetRequest) :
    Shutting ledger (begin ledger request) := by
  unfold begin
  split
  · exact Shutting.bind fun _ _ => shuts_same nofun
  · refine Shutting.bind fun requested _ => Shutting.bind fun _ _ => ?_
    refine Shutting.bind ?_
    rintro ⟨index, account⟩ -
    refine Shutting.bind fun _ _ => Shutting.bind fun retry _ => ?_
    refine Shutting.bind fun _ _ => Shutting.bind fun available _ => ?_
    refine Shutting.bind fun _ _ => ?_
    unfold applyNewBegin
    refine Shutting.bind fun charged hcharged => ?_
    obtain ⟨hstay, hrecords⟩ := chargeLineageInner_stayShut hcharged
    refine Shutting.bind fun found hfound => ?_
    have hget := accountAt_eq_ok_iff.mp hfound
    refine Shutting.bind fun operationReserved _ => ?_
    refine shuts_of_stayShut
      (hstay.trans (stayShut_setAccount hget rfl (.inl rfl))) ?_ nofun
    intro record hmem hfault
    rcases List.mem_append.mp hmem with hmem | hmem
    · exact hrecords ▸ hmem
    · rw [List.mem_singleton.mp hmem] at hfault
      dsimp only at hfault
      split at hfault <;> cases hfault

theorem shutting_activate (activation : Activation) :
    Shutting ledger (activate ledger activation) := by
  unfold activate
  refine Shutting.bind ?_
  rintro ⟨index, record⟩ -
  refine Shutting.bind fun _ _ => ?_
  dsimp only
  split
  · exact shuts_setReservation (.refl ledger) rfl nofun nofun
  · exact Shutting.bind fun _ _ => shuts_same nofun
  · trivial

theorem shutting_finalizeFullCeiling {reference : ReservationReference}
    {operation : BudgetOperation} {finalPhase : ReservationPhase}
    (hphase : finalPhase ≠ .overrunFaulted) :
    Shutting ledger
      (finalizeFullCeiling ledger reference operation finalPhase) := by
  unfold finalizeFullCeiling
  refine Shutting.bind ?_
  rintro ⟨index, record⟩ -
  refine Shutting.bind fun _ _ => ?_
  dsimp only
  split
  · exact shuts_same nofun
  · refine Shutting.bind fun _ _ => Shutting.bind fun charged hcharged => ?_
    obtain ⟨hstay, hrecords⟩ := chargeLineageInner_stayShut hcharged
    obtain ⟨hreleased, hreleasedRecords⟩ := release_stayShut ledger record _
    exact shuts_setReservation (hreleased.trans hstay)
      (hrecords.trans hreleasedRecords) hphase nofun

theorem shutting_cancelHeld (reference : ReservationReference) :
    Shutting ledger (cancelHeld ledger reference) := by
  unfold cancelHeld
  refine Shutting.bind ?_
  rintro ⟨index, record⟩ -
  refine Shutting.bind fun _ _ => ?_
  dsimp only
  split
  · exact shuts_same nofun
  · refine Shutting.bind fun _ _ => ?_
    obtain ⟨hreleased, hrecords⟩ := release_stayShut ledger record _
    exact shuts_setReservation hreleased hrecords nofun nofun

theorem shutting_sealValidated (budgetId : BudgetId) :
    Shutting ledger (sealValidated ledger budgetId) := by
  unfold sealValidated
  refine Shutting.bind ?_
  rintro ⟨index, account⟩ haccount
  dsimp only
  split
  · exact shuts_of_stayShut (stayShut_setAccount (requireAccount_eq_ok haccount)
      rfl (.inr nofun)) (fun _ hmem _ => hmem) nofun
  · exact shuts_same nofun

theorem releaseDelegation_stayShut {budgetId : BudgetId} {index : Nat}
    {parentId : Option BudgetId} {unused : BudgetAmounts}
    (h : releaseDelegation ledger budgetId index parentId unused = .ok next) :
    StayShut ledger next ∧ next.reservations = ledger.reservations ∧
      next.accounts[index]? = ledger.accounts[index]? := by
  unfold releaseDelegation at h
  split at h
  · cases h
    exact ⟨.refl ledger, rfl, rfl⟩
  · split at h
    · cases h
    · rename_i parentIndex parent hfind
      simp only [ensure_eq_ok_iff, bind_eq_ok_iff, pure_eq_ok_iff,
        Bool.not_eq_true', decide_eq_false_iff_not] at h
      obtain ⟨_, hother, delegated, -, rfl⟩ := h
      exact ⟨stayShut_setAccount (findAccount_eq_some hfind).1 rfl (.inl rfl), rfl,
        List.getElem?_set_ne hother⟩

theorem shutting_closeValidated (budgetId : BudgetId) :
    Shutting ledger (closeValidated ledger budgetId) := by
  unfold closeValidated
  refine Shutting.bind ?_
  rintro ⟨index, account⟩ haccount
  dsimp only
  split
  · trivial
  · exact shuts_same nofun
  · refine Shutting.bind fun _ _ => Shutting.bind fun unused _ => ?_
    refine Shutting.bind fun released hreleased => ?_
    obtain ⟨hstay, hrecords, hsame⟩ := releaseDelegation_stayShut hreleased
    have hget := hsame.trans (requireAccount_eq_ok haccount)
    refine shuts_of_stayShut
      (hstay.trans (stayShut_setAccount hget rfl (.inr nofun))) ?_ nofun
    exact fun _ hmem _ => hrecords ▸ hmem

/-! ### Observations -/

section Observations

variable {index : Nat} {record : ReservationRecord}
variable {observation : UsageObservation}

theorem shutting_applyInterimValidated :
    Shutting ledger (applyInterimValidated ledger index record observation) := by
  unfold applyInterimValidated
  refine Shutting.bind fun _ hactive => Shutting.bind fun _ _ => ?_
  have hphase := of_decide_eq_true (ensure_eq_ok_iff.mp hactive)
  refine Shutting.bind fun delta _ => Shutting.bind fun charged hcharged => ?_
  obtain ⟨hstay, hrecords⟩ := chargeLineageInner_stayShut hcharged
  obtain ⟨hreleased, hreleasedRecords⟩ := release_stayShut ledger record _
  refine shuts_setReservation (hreleased.trans hstay)
    (hrecords.trans hreleasedRecords) ?_ nofun
  rw [hphase]
  nofun

theorem shutting_applyFinalValidated :
    Shutting ledger (applyFinalValidated ledger index record observation) := by
  unfold applyFinalValidated
  refine Shutting.bind fun _ _ => Shutting.bind fun _ _ => ?_
  dsimp only
  split
  · trivial
  · refine Shutting.bind fun delta _ => Shutting.bind fun charged hcharged => ?_
    obtain ⟨hstay, hrecords⟩ := chargeLineageInner_stayShut hcharged
    obtain ⟨hreleased, hreleasedRecords⟩ := release_stayShut ledger record delta
    refine Shutting.bind fun released _ => ?_
    obtain ⟨hfreed, hfreedRecords⟩ := releaseOperation_stayShut charged _ released
    exact shuts_setReservation ((hreleased.trans hstay).trans hfreed)
      (hfreedRecords.trans (hrecords.trans hreleasedRecords)) nofun nofun

/-- An overrun shuts the root. -/
theorem shutting_applyOverrunValidated (hroot : OneRoot ledger)
    (hget : ledger.reservations[index]? = some record) :
    Shutting ledger (applyOverrunValidated ledger index record observation) := by
  unfold applyOverrunValidated
  refine Shutting.bind fun _ _ => ?_
  dsimp only
  split
  · trivial
  · refine Shutting.bind fun charged hcharged => ?_
    obtain ⟨hstay, hrecords⟩ := chargeLineageInner_stayShut hcharged
    obtain ⟨hreleased, hreleasedRecords⟩ := release_stayShut ledger record
      (outstandingValidated record)
    have hsame := hrecords.trans hreleasedRecords
    refine Shutting.bind fun faulted hfaulted => ?_
    have hbefore : OneRoot charged := hroot.mono (hreleased.trans hstay)
    have honeRoot : ∀ record', OneRoot (setReservation charged index record') :=
      fun _ => hbefore
    obtain ⟨hshut, -⟩ := faultLineageInner_rootShut (honeRoot _) hfaulted
    refine ⟨fun _ => hshut, fun _ _ _ => .inr hshut, fun _ => ?_⟩
    have hlength : index < charged.reservations.length := by
      rw [hsame]
      exact (List.getElem?_eq_some_iff.mp hget).1
    exact ⟨_, record_mem_of_fault hfaulted hlength, rfl⟩

theorem shutting_observeValidated (hroot : OneRoot ledger)
    (observation : UsageObservation) :
    Shutting ledger (observeValidated ledger observation) := by
  unfold observeValidated
  refine Shutting.bind ?_
  rintro ⟨index, record⟩ hrecord
  have hget := requireReservation_eq_ok hrecord
  refine Shutting.bind fun _ _ => ?_
  dsimp only
  split
  · refine Shutting.bind fun _ _ => Shutting.bind fun _ _ => ?_
    split
    · exact shuts_same nofun
    · split
      · exact shutting_applyOverrunValidated hroot hget
      · split
        · exact shutting_applyFinalValidated
        · exact shutting_applyInterimValidated
  · unfold replayFinalObservationValidated
    refine Shutting.bind fun _ _ => ?_
    split
    · exact shuts_same nofun
    · rename_i hphase
      exact ⟨id, fun _ hmem _ => .inl hmem,
        fun _ => ⟨record, List.mem_of_getElem? hget, hphase⟩⟩
    · trivial

end Observations

theorem shutting_applyValidated (hroot : OneRoot ledger)
    (command : BudgetCommand) :
    Shutting ledger (applyValidated ledger command) := by
  cases command with
  | allocateChild request => exact shutting_allocateChild request
  | begin request => exact shutting_begin request
  | activate activation => exact shutting_activate activation
  | observeUsage observation =>
      exact shutting_observeValidated hroot observation
  | settleExact reference => exact shutting_finalizeFullCeiling nofun
  | cancelHeld reference => exact shutting_cancelHeld reference
  | finalizeAmbiguous finalization => exact shutting_finalizeFullCeiling nofun
  | «seal» budgetId => exact shutting_sealValidated budgetId
  | close budgetId => exact shutting_closeValidated budgetId

end Commands

/-! ### Runs -/

theorem shuts_of_transition {before next : BudgetLedger}
    {command : BudgetCommand} {receipt : BudgetReceipt}
    (hroot : OneRoot before)
    (h : transition before command = .ok ⟨next, receipt⟩) :
    Shuts before (next, receipt) := by
  unfold transition at h
  simp only [bind_eq_ok_iff] at h
  obtain ⟨_, _, ⟨applied, found⟩, happly, _, _, _, _, h⟩ := h
  cases h
  exact (shutting_applyValidated hroot command).of_eq_ok happly

theorem oneRoot_of_reachable {ledger : BudgetLedger}
    (hreach : Reachable NewRoot Accepts ledger) : OneRoot ledger :=
  oneRoot_of_balance (wellFormed_of_reachable hreach).accounts

/-- A well formed ledger in which every recorded overrun has shut the root. -/
structure Guarded (ledger : BudgetLedger) : Prop where
  wellFormed : WellFormed ledger
  faults : FaultShut ledger

theorem guarded_of_reachable {ledger : BudgetLedger}
    (hreach : Reachable NewRoot Accepts ledger) : Guarded ledger := by
  refine hreach.invariant ?_ ?_
  · rintro _ ⟨rootId, revision, limits, rfl⟩
    exact ⟨wellFormed_newRoot rootId revision limits,
      fun _ hmem => absurd hmem List.not_mem_nil⟩
  · rintro before command next ⟨hwf, hfault⟩ haccepts
    have hnext := wellFormed_of_step hwf (step_of_accepts hwf haccepts)
    obtain ⟨receipt, h⟩ := haccepts
    have hshuts := shuts_of_transition (oneRoot_of_balance hwf.accounts) h
    refine ⟨hnext, fun record hmem hphase => ?_⟩
    rcases hshuts.faults record hmem hphase with hold | hshut
    · exact hshuts.root (hfault record hold hphase)
    · exact hshut

/-- A reachable ledger whose root is shut. -/
structure ShutDown (ledger : BudgetLedger) : Prop where
  reached : Reachable NewRoot Accepts ledger
  root : RootShut ledger

theorem ShutDown.run {before later : BudgetLedger}
    {commands : List BudgetCommand} (hshut : ShutDown before)
    (hrun : Run Accepts before commands later) : ShutDown later := by
  refine hrun.invariant ?_ hshut
  rintro ledger command next ⟨hreach, hshut⟩ haccepts
  obtain ⟨receipt, h⟩ := id haccepts
  exact ⟨hreach.snoc haccepts,
    (shuts_of_transition (oneRoot_of_reachable hreach) h).root hshut⟩

/-- The walk to the root stops at an account that is not open. -/
theorem requireOpenParentChain_root {ledger : BudgetLedger} {steps index : Nat}
    {account : BudgetAccount} (hroot : OneRoot ledger)
    (hget : ledger.accounts[index]? = some account)
    (h : requireOpenParentChain ledger steps account = .ok ()) :
    ¬RootShut ledger := by
  induction steps generalizing index account with
  | zero => cases h
  | succ steps ih =>
      unfold requireOpenParentChain at h
      simp only [bind_eq_ok_iff, ensure_eq_ok_iff, decide_eq_true_eq] at h
      obtain ⟨_, hopen, h⟩ := h
      split at h
      · rename_i hnone
        rintro ⟨root, hfirst, hshut⟩
        have hindex := hroot index account hget hnone
        rw [hindex, hfirst] at hget
        cases hget
        exact hshut hopen
      · simp only [bind_eq_ok_iff] at h
        obtain ⟨⟨parentIndex, parent⟩, hparent, h⟩ := h
        exact ih (requireAccount_eq_ok hparent) h

theorem requireOpenLineage_ne_ok {ledger : BudgetLedger} (hroot : OneRoot ledger)
    (hshut : RootShut ledger) (budgetId : BudgetId) (found : Nat × BudgetAccount) :
    requireOpenLineage ledger budgetId ≠ .ok found := by
  intro h
  obtain ⟨hget, hchain⟩ := requireOpenLineage_eq_ok h
  exact requireOpenParentChain_root hroot hget hchain hshut

theorem applyValidated_of_transition {before : BudgetLedger}
    {command : BudgetCommand} {result : BudgetTransition}
    (h : transition before command = .ok result) :
    applyValidated before command = .ok (result.ledger, result.receipt) := by
  unfold transition at h
  simp only [bind_eq_ok_iff] at h
  obtain ⟨_, _, ⟨applied, found⟩, happly, _, _, _, _, h⟩ := h
  cases h
  exact happly

theorem lineage_of_begin {ledger : BudgetLedger} {request : BudgetRequest}
    {result : BudgetLedger × BudgetReceipt}
    (h : begin ledger request = .ok result)
    (hfresh : ∀ record ∈ ledger.reservations,
      record.request.reservationId ≠ request.reservationId) :
    ∃ found, requireOpenLineage ledger request.budgetId = .ok found := by
  unfold begin at h
  split at h
  · rename_i index existing hfind
    obtain ⟨hget, hid, -⟩ := findIndexed_eq_some hfind
    exact absurd (of_decide_eq_true hid)
      (hfresh existing (List.mem_of_getElem? hget))
  · simp only [bind_eq_ok_iff] at h
    obtain ⟨_, _, _, _, found, hlineage, _⟩ := h
    exact ⟨found, hlineage⟩

theorem lineage_of_allocateChild {ledger : BudgetLedger}
    {request : ChildBudgetRequest} {result : BudgetLedger × BudgetReceipt}
    (h : allocateChild ledger request = .ok result)
    (hfresh : ∀ account ∈ ledger.accounts, account.id ≠ request.childId) :
    ∃ found, requireOpenLineage ledger request.parentId = .ok found := by
  unfold allocateChild at h
  split at h
  · rename_i index existing hfind
    obtain ⟨hget, hid⟩ := findAccount_eq_some hfind
    exact absurd hid (hfresh existing (List.mem_of_getElem? hget))
  · simp only [bind_eq_ok_iff] at h
    obtain ⟨found, hlineage, _⟩ := h
    exact ⟨found, hlineage⟩

/-- After an overrun no run of commands reaches a ledger that takes a new
reservation or a new child, on any account. -/
theorem overrun_fault_permanent {before next later : BudgetLedger}
    {observation : UsageObservation} {receipt : BudgetReceipt}
    {commands : List BudgetCommand}
    (hreach : Reachable NewRoot Accepts before)
    (hobserve : transition before (.observeUsage observation) =
      .ok ⟨next, receipt⟩)
    (hfault : receipt.kind = .overrunFaulted)
    (hlater : Run Accepts next commands later) :
    (∀ request : BudgetRequest,
      (∀ record ∈ later.reservations,
        record.request.reservationId ≠ request.reservationId) →
      ∀ result, transition later (.begin request) ≠ .ok result) ∧
    (∀ request : ChildBudgetRequest,
      (∀ account ∈ later.accounts, account.id ≠ request.childId) →
      ∀ result, transition later (.allocateChild request) ≠ .ok result) := by
  have hnext : Reachable NewRoot Accepts next :=
    hreach.snoc ⟨receipt, hobserve⟩
  have hshuts := shuts_of_transition (oneRoot_of_reachable hreach) hobserve
  obtain ⟨record, hmem, hphase⟩ := hshuts.reports hfault
  have hshut : ShutDown next :=
    ⟨hnext, (guarded_of_reachable hnext).faults record hmem hphase⟩
  obtain ⟨hreached, hroot⟩ := hshut.run hlater
  have hclosed := requireOpenLineage_ne_ok (oneRoot_of_reachable hreached) hroot
  constructor
  · intro request hfresh result haccepted
    obtain ⟨found, hlineage⟩ :=
      lineage_of_begin (applyValidated_of_transition haccepted) hfresh
    exact hclosed _ found hlineage
  · intro request hfresh result haccepted
    obtain ⟨found, hlineage⟩ :=
      lineage_of_allocateChild (applyValidated_of_transition haccepted) hfresh
    exact hclosed _ found hlineage

def smallActivate : BudgetCommand :=
  .activate
    { reservationId := .ofNat 7
      actionId := .ofNat 8
      actionDigest := .ofNat 9
      evidenceDigest := .ofNat 10 }

/-- Six tokens reported where five were held. -/
def smallOverrun : UsageObservation :=
  { reservationId := .ofNat 7
    actionId := .ofNat 8
    actionDigest := .ofNat 9
    evidenceDigest := .ofNat 11
    cumulative := { BudgetAmounts.zero with modelTokens := ⟨6, by decide⟩ }
    finality := .final }

/-- A child of the root that gets nothing. -/
def smallChild : BudgetCommand :=
  .allocateChild
    { parentId := .ofNat 1
      childId := .ofNat 2
      revision := smallRevision
      limits := { amounts := BudgetAmounts.zero } }

/-- The overrun, and the child sealed after it. -/
def overrunTrace :
    Except BudgetError (BudgetTransition × BudgetTransition × BudgetTransition) := do
  let parent ← transition smallRoot smallChild
  let held ← transition parent.ledger smallBegin
  let active ← transition held.ledger smallActivate
  let faulted ← transition active.ledger (.observeUsage smallOverrun)
  let sealed ← transition faulted.ledger (.seal (.ofNat 2))
  return (active, faulted, sealed)

theorem overrun_fault_permanent_of_overrun : ∃ active faulted sealed,
    overrunTrace = .ok (active, faulted, sealed) ∧
    faulted.receipt.kind = .overrunFaulted ∧
    sealed.receipt.kind = .applied ∧
    (∀ request : BudgetRequest,
      (∀ record ∈ sealed.ledger.reservations,
        record.request.reservationId ≠ request.reservationId) →
      ∀ result, transition sealed.ledger (.begin request) ≠ .ok result) ∧
    (∀ request : ChildBudgetRequest,
      (∀ account ∈ sealed.ledger.accounts, account.id ≠ request.childId) →
      ∀ result,
        transition sealed.ledger (.allocateChild request) ≠ .ok result) := by
  have hkind : overrunTrace.toOption.map
      (fun trace => (trace.2.1.receipt.kind, trace.2.2.receipt.kind)) =
      some (.overrunFaulted, .applied) := by
    decide +kernel
  cases htrace : overrunTrace with
  | error error =>
      rw [htrace] at hkind
      cases hkind
  | ok trace =>
      rw [htrace] at hkind
      obtain ⟨hfault, happlied⟩ := Prod.mk.inj (Option.some.inj hkind)
      refine ⟨trace.1, trace.2.1, trace.2.2, rfl, hfault, happlied, ?_⟩
      unfold overrunTrace at htrace
      simp only [bind_eq_ok_iff, pure_eq_ok_iff] at htrace
      obtain ⟨parent, hparent, held, hheld, active, hactive, faulted, hfaulted,
        sealed, hsealed, rfl⟩ := htrace
      have hreach : Reachable NewRoot Accepts active.ledger :=
        ⟨smallRoot, [smallChild, smallBegin, smallActivate], ⟨_, _, _, rfl⟩,
          .cons ⟨parent.receipt, hparent⟩ (.cons ⟨held.receipt, hheld⟩
            (.cons ⟨active.receipt, hactive⟩ (.nil _)))⟩
      exact overrun_fault_permanent hreach hfaulted hfault
        (.cons ⟨sealed.receipt, hsealed⟩ (.nil _))

end Peritus.Budget.Faults
