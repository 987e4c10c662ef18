import Peritus.Gates.Blocking
import Peritus.TransitionSystem

/-!
What an accepted command does to a run: how a slot changes, how the phase of the
run turns, and what is recorded.  The runs of a plan are the commands that
either reducer accepts after an accepted start.
-/

namespace Peritus.Gates.Edits

open Peritus.Types Checked TransitionSystem State Canonical Reducer Blocking

/-! ### Changes -/

/-- The gate an event is about. -/
def target : GateEventKind → Option GateId
  | .attemptPrepared gateId _ | .attemptDispatched gateId _
  | .resultObserved gateId _ _ | .recoveryClassified gateId _ _
  | .evidencePublished gateId _ _ => some gateId
  | _ => none

/-- The attempt an event prepares. -/
def preparedAttempt : GateEventKind → Option ActiveAttempt
  | .attemptPrepared _ attempt => some attempt
  | _ => none

/-- What a receipt is compared with. -/
structure Matches (sha256 : List UInt8 → Sha256Digest) (state : GateRunState)
    (gate : PlannedGate) (attempt : ActiveAttempt) (result : GateAttemptResult)
    (resultEvent : EventId) (receipt : GateEvidenceReceipt) : Prop where
  passed : result.kind = .passed
  publication : newPublication sha256 state.runId gate.id attempt state.revision
    resultEvent receipt.resultPosition result.toolResultDigest
    gate.requiredEvidence result.artifacts = .ok receipt.publication
  evidence : receipt.evidence.map PublishedGateEvidence.requirementId =
    gate.requiredEvidence

section Changes

variable (sha256 : List UInt8 → Sha256Digest) (plan : GatePlan)
  (state : GateRunState) (eventId : EventId)

/-- How a command leaves the slot of a gate, before blocks are propagated. -/
inductive Changes (slot : GateSlot) : GateEventKind → GateSlot → Prop
  | same (kind : GateEventKind) (hother : target kind ≠ some slot.gateId) :
      Changes slot kind slot
  | prepared (attempt : ActiveAttempt) (hactive : state.phase = .active)
      (hphase : slot.phase = .pending ∨ slot.phase = .retryPending)
      (hordinal : attempt.ordinal.get = min (slot.attempts + 1) (2 ^ 16 - 1))
      (hlimit : attempt.ordinal.get ≤ state.maximumAttempts)
      (hdependencies : dependenciesSatisfied plan state slot.gateId = true) :
      Changes slot (.attemptPrepared slot.gateId attempt) (slot.prepare attempt)
  | dispatched (attempt : ActiveAttempt) (hactive : state.phase = .active)
      (hphase : slot.phase = .prepared) (hattempt : slot.active = some attempt) :
      Changes slot (.attemptDispatched slot.gateId attempt.executionId)
        slot.dispatch
  | observed (attempt : ActiveAttempt) (result : GateAttemptResult)
      (hrunning : state.phase = .active ∨ state.phase = .cancelling)
      (hphase : slot.phase = .dispatched) (hattempt : slot.active = some attempt)
      (hresult : result.gateId = slot.gateId) :
      Changes slot (.resultObserved slot.gateId attempt.executionId result)
        (slot.observe result eventId
          (resultPhase state.phase slot.attempts state.maximumAttempts result))
  | recovered (attempt : ActiveAttempt) (disposition : RecoveryDisposition)
      (hrunning : state.phase = .active ∨ state.phase = .cancelling)
      (hphase : slot.phase = .dispatched ∨ slot.phase = .recoveryPending)
      (hattempt : slot.active = some attempt) :
      Changes slot
        (.recoveryClassified slot.gateId attempt.executionId disposition)
        (slot.recover (recoveryPhase state.phase slot.attempts
          state.maximumAttempts disposition))
  | published (attempt : ActiveAttempt) (result : GateAttemptResult)
      (resultEvent : EventId) (receipt : GateEvidenceReceipt)
      (gate : PlannedGate) (hactive : state.phase = .active)
      (hphase : slot.phase = .evidencePending)
      (hattempt : slot.active = some attempt)
      (hresult : slot.lastResult = some result)
      (hevent : slot.resultEvent = some resultEvent)
      (hgate : plan.gate slot.gateId = some gate)
      (hmatches : Matches sha256 state gate attempt result resultEvent receipt) :
      Changes slot (.evidencePublished slot.gateId attempt.executionId receipt)
        (slot.publish receipt)
  | cancelled (hphase : isCancellable slot.phase = true) :
      Changes slot .cancellationStarted slot.cancel

/-- How the phase of the run turns. -/
inductive Turns : GateRunPhase → GateEventKind → GateRunPhase → Prop
  | kept (phase : GateRunPhase) (kind : GateEventKind)
      (htarget : target kind ≠ none) : Turns phase kind phase
  | cancelled (phase : GateRunPhase) : Turns phase .cancellationStarted .cancelling
  | pausedActive : Turns .active (.runPaused .active) (.paused .active)
  | pausedCancelling :
      Turns .cancelling (.runPaused .cancelling) (.paused .cancelling)
  | resumedActive : Turns (.paused .active) (.runResumed .active) .active
  | resumedCancelling :
      Turns (.paused .cancelling) (.runResumed .cancelling) .cancelling
  | finalized (phase : GateRunPhase) (hrunning : phase.isPaused = false) :
      Turns phase .runFinalized .terminal

/-- What a command leaves, before blocks are propagated. -/
structure Applies (kind : GateEventKind) (applied : GateRunState) : Prop where
  slots : ∀ gateId slot, state.slot gateId = some slot →
    ∃ changed, applied.slot gateId = some changed ∧
      Changes sha256 plan state eventId slot kind changed
  gateIds : applied.slots.map GateSlot.gateId = state.slots.map GateSlot.gateId
  phase : Turns state.phase kind applied.phase
  runId : applied.runId = state.runId
  planDigest : applied.planDigest = state.planDigest
  revision : applied.revision = state.revision
  snapshotDigest : applied.snapshotDigest = state.snapshotDigest
  maximumAttempts : applied.maximumAttempts = state.maximumAttempts
  usedExecutions : applied.usedExecutions = state.usedExecutions ++
    ((preparedAttempt kind).map ActiveAttempt.executionId).toList
  usedActions : applied.usedActions = state.usedActions ++
    ((preparedAttempt kind).map ActiveAttempt.actionId).toList
  fresh : ∀ attempt, preparedAttempt kind = some attempt →
    attempt.executionId ∉ state.usedExecutions ∧
      attempt.actionId ∉ state.usedActions
  known : ∀ gateId, target kind = some gateId → ∃ slot,
    state.slot gateId = some slot
  untargeted : target kind = none → kind ≠ .cancellationStarted →
    applied.slots = state.slots
  finalized : kind = .runFinalized →
    (∀ slot ∈ state.slots, slot.phase.isSettled = true) ∧
      ∃ digest, applied.terminal =
        some ⟨terminalKind state, nonPassing state, digest⟩
  unfinalized : kind ≠ .runFinalized → applied.terminal = state.terminal

end Changes

/-! ### Inversion -/

section Inversion

variable {sha256 : List UInt8 → Sha256Digest} {plan : GatePlan}
  {state : GateRunState} {eventId : EventId} {kind : GateEventKind}
  {applied : GateRunState}

theorem slotOf_eq_ok_iff {gateId : GateId} {slot : GateSlot} :
    slotOf state gateId = .ok slot ↔ state.slot gateId = some slot := by
  unfold slotOf
  cases state.slot gateId with
  | none => simp
  | some found => simp

theorem plannedOf_eq_ok_iff {gateId : GateId} {gate : PlannedGate} :
    plannedOf plan gateId = .ok gate ↔ plan.gate gateId = some gate := by
  unfold plannedOf
  cases plan.gate gateId with
  | none => simp
  | some found => simp

theorem requireAttempt_eq_ok_iff {slot : GateSlot} {phase : GateSlotPhase}
    {executionId : GateExecutionId} :
    requireAttempt slot phase executionId = .ok () ↔ slot.phase = phase ∧
      ∃ attempt, slot.active = some attempt ∧
        attempt.executionId = executionId := by
  unfold requireAttempt
  cases slot.active with
  | none => simp
  | some attempt => simp

/-- A command that updates the slot of one gate. -/
theorem applies_of_update {gateId : GateId} {slot : GateSlot}
    {update : GateSlot → GateSlot} (hslot : state.slot gateId = some slot)
    (hupdate : ∀ slot, (update slot).gateId = slot.gateId)
    (htarget : target kind = some gateId) (hprepared : preparedAttempt kind = none)
    (hchanges : Changes sha256 plan state eventId slot kind (update slot)) :
    Applies sha256 plan state eventId kind (state.updateSlot gateId update) where
  slots := by
    intro other found hfound
    by_cases hsame : other = gateId
    · subst hsame
      rw [hslot] at hfound
      cases hfound
      exact ⟨_, slot_updateSlot_self update hupdate hslot, hchanges⟩
    · refine ⟨found, ?_, .same kind ?_⟩
      · rw [slot_updateSlot_of_ne update hupdate hsame]
        exact hfound
      · rw [htarget, gateId_of_slot hfound]
        exact fun h => hsame (Option.some.inj h).symm
  gateIds := gateIds_updateSlot update hupdate
  phase := .kept _ _ (by rw [htarget]; exact Option.some_ne_none _)
  runId := rfl
  planDigest := rfl
  revision := rfl
  snapshotDigest := rfl
  maximumAttempts := rfl
  usedExecutions := by
    rw [hprepared]
    exact (List.append_nil _).symm
  usedActions := by
    rw [hprepared]
    exact (List.append_nil _).symm
  fresh := by
    intro attempt h
    rw [hprepared] at h
    cases h
  known := by
    intro other h
    rw [htarget] at h
    cases h
    exact ⟨slot, hslot⟩
  untargeted := by
    intro h
    rw [htarget] at h
    cases h
  finalized := by
    rintro rfl
    cases htarget
  unfinalized := fun _ => rfl

/-- A command about the run that leaves the slots. -/
theorem applies_of_phase {phase : GateRunPhase} (htarget : target kind = none)
    (hprepared : preparedAttempt kind = none) (hkind : kind ≠ .runFinalized)
    (hphase : Turns state.phase kind phase) :
    Applies sha256 plan state eventId kind { state with phase } where
  slots := by
    intro gateId slot hslot
    refine ⟨slot, hslot, .same kind ?_⟩
    rw [htarget]
    exact Option.some_ne_none _ ∘ Eq.symm
  gateIds := rfl
  phase := hphase
  runId := rfl
  planDigest := rfl
  revision := rfl
  snapshotDigest := rfl
  maximumAttempts := rfl
  usedExecutions := by
    rw [hprepared]
    exact (List.append_nil _).symm
  usedActions := by
    rw [hprepared]
    exact (List.append_nil _).symm
  fresh := by
    intro attempt h
    rw [hprepared] at h
    cases h
  known := by
    intro other h
    rw [htarget] at h
    cases h
  untargeted := fun _ _ => rfl
  finalized := fun h => absurd h hkind
  unfinalized := fun _ => rfl

theorem applies_of_prepareAttempt {gateId : GateId} {attempt : ActiveAttempt}
    (h : prepareAttempt plan state gateId attempt = .ok (applied, kind)) :
    Applies sha256 plan state eventId kind applied := by
  simp only [prepareAttempt, requireActive, bind_eq_ok_iff, exists_unit_iff,
    ensure_eq_ok_iff, slotOf_eq_ok_iff, Bool.and_eq_true, Bool.or_eq_true,
    decide_eq_true_eq, Except.ok.injEq, Prod.mk.injEq] at h
  obtain ⟨hactive, slot, hslot, ⟨⟨⟨⟨⟨hphase, -⟩, hordinal⟩, hlimit⟩, hexecution⟩,
    haction⟩, hdependencies, rfl, rfl⟩ := h
  have hid := gateId_of_slot hslot
  subst hid
  have hupdate : ∀ slot : GateSlot, (slot.prepare attempt).gateId = slot.gateId :=
    fun _ => rfl
  exact {
    slots := by
      intro other found hfound
      by_cases hsame : other = slot.gateId
      · subst hsame
        rw [hslot] at hfound
        cases hfound
        exact ⟨_, slot_updateSlot_self _ hupdate hslot, .prepared attempt hactive
          hphase hordinal hlimit hdependencies⟩
      · refine ⟨found, ?_, .same _ ?_⟩
        · exact (slot_updateSlot_of_ne _ hupdate hsame).trans hfound
        · rw [gateId_of_slot hfound]
          exact fun h => hsame (Option.some.inj h).symm
    gateIds := gateIds_updateSlot _ hupdate
    phase := .kept _ _ (Option.some_ne_none _)
    runId := rfl
    planDigest := rfl
    revision := rfl
    snapshotDigest := rfl
    maximumAttempts := rfl
    usedExecutions := rfl
    usedActions := rfl
    fresh := by
      intro found hfound
      cases hfound
      exact ⟨hexecution, haction⟩
    known := by
      intro other hother
      cases hother
      exact ⟨slot, hslot⟩
    untargeted := fun h => by cases h
    finalized := fun h => by cases h
    unfinalized := fun _ => rfl }

theorem applies_of_markDispatched {gateId : GateId} {executionId : GateExecutionId}
    (h : markDispatched state gateId executionId = .ok (applied, kind)) :
    Applies sha256 plan state eventId kind applied := by
  simp only [markDispatched, requireActive, bind_eq_ok_iff, exists_unit_iff,
    ensure_eq_ok_iff, slotOf_eq_ok_iff, requireAttempt_eq_ok_iff,
    decide_eq_true_eq, Except.ok.injEq, Prod.mk.injEq] at h
  obtain ⟨hactive, slot, hslot, ⟨hphase, attempt, hattempt, rfl⟩, rfl, rfl⟩ := h
  have hid := gateId_of_slot hslot
  subst hid
  exact applies_of_update hslot (fun _ => rfl) rfl rfl
    (.dispatched attempt hactive hphase hattempt)

theorem applies_of_observeResult {gateId : GateId} {executionId : GateExecutionId}
    {result : GateAttemptResult}
    (h : observeResult state eventId gateId executionId result =
      .ok (applied, kind)) :
    Applies sha256 plan state eventId kind applied := by
  simp only [observeResult, requireRunning, bind_eq_ok_iff, exists_unit_iff,
    ensure_eq_ok_iff, slotOf_eq_ok_iff, requireAttempt_eq_ok_iff,
    Bool.or_eq_true, decide_eq_true_eq, Except.ok.injEq, Prod.mk.injEq] at h
  obtain ⟨hrunning, slot, hslot, ⟨hphase, attempt, hattempt, rfl⟩, hresult, rfl,
    rfl⟩ := h
  have hid := gateId_of_slot hslot
  subst hid
  exact applies_of_update hslot (fun _ => rfl) rfl rfl
    (.observed attempt result hrunning hphase hattempt hresult)

theorem applies_of_classifyRecovery {gateId : GateId}
    {executionId : GateExecutionId} {disposition : RecoveryDisposition}
    (h : classifyRecovery state gateId executionId disposition =
      .ok (applied, kind)) :
    Applies sha256 plan state eventId kind applied := by
  simp only [classifyRecovery, requireRunning, bind_eq_ok_iff, exists_unit_iff,
    ensure_eq_ok_iff, slotOf_eq_ok_iff, Bool.or_eq_true, Bool.and_eq_true,
    decide_eq_true_eq, Option.any_eq_true, Except.ok.injEq,
    Prod.mk.injEq] at h
  obtain ⟨hrunning, slot, hslot, ⟨hphase, attempt, hattempt, rfl⟩, rfl, rfl⟩ := h
  have hid := gateId_of_slot hslot
  subst hid
  exact applies_of_update hslot (fun _ => rfl) rfl rfl
    (.recovered attempt disposition hrunning hphase hattempt)

theorem evidenceOf_eq_ok_iff {α : Type} {value : Option α} {detail : String}
    {found : α} : evidenceOf value detail = .ok found ↔ value = some found := by
  cases value <;> simp [evidenceOf]

theorem id_of_gate {gateId : GateId} {gate : PlannedGate}
    (h : plan.gate gateId = some gate) : gate.id = gateId := by
  have hfound := List.find?_some h
  exact of_decide_eq_true hfound

theorem applies_of_publishEvidence {gateId : GateId}
    {executionId : GateExecutionId} {receipt : GateEvidenceReceipt}
    (h : publishEvidence sha256 plan state gateId executionId receipt =
      .ok (applied, kind)) :
    Applies sha256 plan state eventId kind applied := by
  simp only [publishEvidence, requireActive, bind_eq_ok_iff, exists_unit_iff,
    ensure_eq_ok_iff, plannedOf_eq_ok_iff, slotOf_eq_ok_iff,
    requireAttempt_eq_ok_iff, evidenceOf_eq_ok_iff, Bool.and_eq_true, decide_eq_true_eq, Except.ok.injEq,
    Prod.mk.injEq, exactRequirements, GateAttemptResult.passed] at h
  obtain ⟨hactive, gate, hplanned, slot, hslot, ⟨hphase, attempt, hattempt, rfl⟩,
    found, hfound, result, hresult, resultEvent, hevent, expected, hexpected,
    ⟨⟨⟨⟨⟨hpassed, rfl⟩, -⟩, -⟩, -⟩, hevidence⟩, rfl, rfl⟩ := h
  have hid := gateId_of_slot hslot
  subst hid
  rw [hattempt] at hfound
  cases hfound
  refine applies_of_update hslot (fun _ => rfl) rfl rfl
    (.published attempt result resultEvent receipt gate hactive hphase hattempt
      hresult hevent hplanned ⟨hpassed, ?_, hevidence⟩)
  rw [id_of_gate hplanned]
  exact hexpected

theorem applies_of_cancel (h : cancel state = (applied, kind)) :
    Applies sha256 plan state eventId kind applied := by
  unfold cancel at h
  obtain ⟨rfl, rfl⟩ := Prod.mk.inj h
  have hcases : ∀ slots, (slots = state.slots.map (fun slot =>
        if isCancellable slot.phase then slot.cancel else slot) ∨
        slots = state.slots) →
      Applies sha256 plan state eventId .cancellationStarted
        { state with phase := .cancelling, slots } := by
    intro slots hslots
    have hchange : ∃ f : GateSlot → GateSlot, slots = state.slots.map f ∧
        ∀ slot, f slot = slot ∨
          isCancellable slot.phase = true ∧ f slot = slot.cancel := by
      rcases hslots with rfl | rfl
      · refine ⟨_, rfl, ?_⟩
        intro slot
        by_cases hslot : isCancellable slot.phase = true
        · exact .inr ⟨hslot, if_pos hslot⟩
        · exact .inl (if_neg hslot)
      · exact ⟨id, (List.map_id _).symm, fun _ => .inl rfl⟩
    obtain ⟨f, rfl, hf⟩ := hchange
    have hids : ∀ slot, (f slot).gateId = slot.gateId := by
      intro slot
      rcases hf slot with h | ⟨-, h⟩ <;> rw [h]
      rfl
    exact {
      slots := by
        intro gateId slot hslot
        refine ⟨f slot, ?_, ?_⟩
        · rw [slot_map rfl hids, hslot]
          rfl
        · rcases hf slot with h | ⟨hphase, h⟩ <;> rw [h]
          · exact .same _ (Option.some_ne_none _ ∘ Eq.symm)
          · exact .cancelled hphase
      gateIds := by
        dsimp only
        rw [List.map_map]
        exact List.map_congr_left fun slot _ => hids slot
      phase := .cancelled _
      runId := rfl
      planDigest := rfl
      revision := rfl
      snapshotDigest := rfl
      maximumAttempts := rfl
      usedExecutions := (List.append_nil _).symm
      usedActions := (List.append_nil _).symm
      fresh := fun _ h => by cases h
      known := fun _ h => by cases h
      untargeted := fun _ h => absurd rfl h
      finalized := fun h => by cases h
      unfinalized := fun _ => rfl }
  apply hcases
  split
  · exact .inl rfl
  · exact .inr rfl

theorem applies_of_lifecycle (command : GateCommandKind)
    (h : applyLifecycle state command = .ok (applied, kind)) :
    Applies sha256 plan state eventId kind applied := by
  unfold applyLifecycle at h
  split at h
  · unfold pause at h
    split at h
    · next hphase =>
        cases h
        exact applies_of_phase rfl rfl (fun h => by cases h)
          (hphase ▸ .pausedActive)
    · next hphase =>
        cases h
        exact applies_of_phase rfl rfl (fun h => by cases h)
          (hphase ▸ .pausedCancelling)
    · cases h
    · cases h
  · unfold resume at h
    split at h
    · next hphase =>
        cases h
        exact applies_of_phase rfl rfl (fun h => by cases h)
          (hphase ▸ .resumedActive)
    · next hphase =>
        cases h
        exact applies_of_phase rfl rfl (fun h => by cases h)
          (hphase ▸ .resumedCancelling)
    · cases h
    · cases h
    · cases h
  · cases h

theorem slots_of_lifecycle {command : GateCommandKind}
    (h : applyLifecycle state command = .ok (applied, kind)) :
    applied.slots = state.slots := by
  unfold applyLifecycle pause resume at h
  split at h <;> (try split at h) <;> cases h <;> rfl

theorem applies_of_finalize (h : finalize sha256 state = .ok (applied, kind)) :
    Applies sha256 plan state eventId kind applied := by
  simp only [finalize, bind_eq_ok_iff, exists_unit_iff, ensure_eq_ok_iff,
    Bool.not_eq_true', List.all_eq_true, Except.ok.injEq, Prod.mk.injEq] at h
  obtain ⟨hrunning, hsettled, rfl, rfl⟩ := h
  exact {
    slots := by
      intro gateId slot hslot
      exact ⟨slot, hslot, .same _ (Option.some_ne_none _ ∘ Eq.symm)⟩
    gateIds := rfl
    phase := .finalized _ hrunning
    runId := rfl
    planDigest := rfl
    revision := rfl
    snapshotDigest := rfl
    maximumAttempts := rfl
    usedExecutions := (List.append_nil _).symm
    usedActions := (List.append_nil _).symm
    fresh := fun _ h => by cases h
    known := fun _ h => by cases h
    untargeted := fun _ _ => rfl
    finalized := fun _ => ⟨hsettled, _, rfl⟩
    unfinalized := fun h => absurd rfl h }

theorem applies_of_apply {command : GateCommandKind}
    (h : apply sha256 plan state eventId command = .ok (applied, kind)) :
    Applies sha256 plan state eventId kind applied := by
  cases command with
  | startRun snapshotDigest => cases h
  | prepareAttempt gateId attempt => exact applies_of_prepareAttempt h
  | markDispatched gateId executionId => exact applies_of_markDispatched h
  | observeResult gateId executionId result => exact applies_of_observeResult h
  | classifyRecovery gateId executionId disposition =>
      exact applies_of_classifyRecovery h
  | publishEvidence gateId executionId receipt =>
      exact applies_of_publishEvidence h
  | beginCancellation => exact applies_of_cancel (Except.ok.inj h)
  | pauseRun => exact applies_of_lifecycle .pauseRun h
  | resumeRun => exact applies_of_lifecycle .resumeRun h
  | finalizeRun => exact applies_of_finalize h

end Inversion

/-! ### Steps and runs -/

section Steps

variable (sha256 : List UInt8 → Sha256Digest) (plan : GatePlan)

def Starts (first : GateEvent) (initial : GateRunState) : Prop :=
  ∃ command, start sha256 plan command = .ok ⟨first, initial⟩

/-- A command that one of the two reducers accepts. -/
def Steps (state : GateRunState) (event : GateEvent) (next : GateRunState) :
    Prop :=
  ∃ command, decideCommand sha256 plan state command = .ok ⟨event, next⟩ ∨
    decideLifecycle sha256 state command = .ok ⟨event, next⟩

/-- A gate run: the events of an accepted start and of the commands after it. -/
def GateRun (events : List GateEvent) (state : GateRunState) : Prop :=
  ∃ first initial rest, Starts sha256 plan first initial ∧
    Run (Steps sha256 plan) initial rest state ∧ events = first :: rest

/-- What a step does: the slots change, and then pending gates are blocked. -/
structure Stepped (state : GateRunState) (event : GateEvent)
    (next : GateRunState) : Prop where
  unfinished : state.phase ≠ .terminal
  slots : ∀ gateId slot, state.slot gateId = some slot →
    (∃ changed, next.slot gateId = some changed ∧
      Changes sha256 plan state event.id slot event.kind changed) ∨
    (slot.phase = .pending ∧ target event.kind ≠ some gateId ∧
      ∃ gate blocker, plan.gate gateId = some gate ∧
        blocker ∈ gate.dependencies ∧ isBlocker next blocker = true ∧
        next.slot gateId = some (slot.block blocker))
  gateIds : next.slots.map GateSlot.gateId = state.slots.map GateSlot.gateId
  phase : Turns state.phase event.kind next.phase
  runId : next.runId = state.runId
  planDigest : next.planDigest = state.planDigest
  revision : next.revision = state.revision
  snapshotDigest : next.snapshotDigest = state.snapshotDigest
  maximumAttempts : next.maximumAttempts = state.maximumAttempts
  usedExecutions : next.usedExecutions = state.usedExecutions ++
    ((preparedAttempt event.kind).map ActiveAttempt.executionId).toList
  usedActions : next.usedActions = state.usedActions ++
    ((preparedAttempt event.kind).map ActiveAttempt.actionId).toList
  fresh : ∀ attempt, preparedAttempt event.kind = some attempt →
    attempt.executionId ∉ state.usedExecutions ∧
      attempt.actionId ∉ state.usedActions
  known : ∀ gateId, target event.kind = some gateId → ∃ slot,
    state.slot gateId = some slot
  finalized : event.kind = .runFinalized →
    (∀ slot ∈ state.slots, slot.phase.isSettled = true) ∧
      next.slots = state.slots ∧ ∃ digest, next.terminal =
        some ⟨terminalKind state, nonPassing state, digest⟩
  unfinalized : event.kind ≠ .runFinalized → next.terminal = state.terminal
  unblocked : Unblocked plan next plan.executionOrder ∨ next.slots = state.slots

variable {sha256 plan} {state next applied blocked : GateRunState}
  {event : GateEvent} {eventId : EventId} {kind : GateEventKind}
  {slot changed : GateSlot}

theorem resultPhase_mem {runPhase : GateRunPhase} {attempts maximum : Nat}
    {result : GateAttemptResult} :
    resultPhase runPhase attempts maximum result ∈
      [GateSlotPhase.cancelled, .evidencePending, .failed, .recoveryPending,
        .retryPending] := by
  unfold resultPhase
  split
  · simp
  · split
    · simp
    · simp
    · split
      · simp
      · split <;> simp

theorem recoveryPhase_mem {runPhase : GateRunPhase} {attempts maximum : Nat}
    {disposition : RecoveryDisposition} :
    recoveryPhase runPhase attempts maximum disposition ∈
      [GateSlotPhase.cancelled, .failed, .recoveryPending, .retryPending] := by
  unfold recoveryPhase
  split
  · cases disposition <;> simp
  · cases disposition with
    | safeToRetry =>
        dsimp only
        split <;> simp
    | terminalFailure => simp
    | stillActive => simp

/-- The phases that no result and no recovery leads to. -/
theorem resultPhase_ne {runPhase : GateRunPhase} {attempts maximum : Nat}
    {result : GateAttemptResult} {phase : GateSlotPhase}
    (h : phase ∉ [GateSlotPhase.cancelled, .evidencePending, .failed,
      .recoveryPending, .retryPending] := by decide) :
    resultPhase runPhase attempts maximum result ≠ phase := by
  rintro rfl
  exact h resultPhase_mem

theorem recoveryPhase_ne {runPhase : GateRunPhase} {attempts maximum : Nat}
    {disposition : RecoveryDisposition} {phase : GateSlotPhase}
    (h : phase ∉ [GateSlotPhase.cancelled, .failed, .recoveryPending,
      .retryPending] := by decide) :
    recoveryPhase runPhase attempts maximum disposition ≠ phase := by
  rintro rfl
  exact h recoveryPhase_mem

/-- No command makes a gate pending. -/
theorem same_of_pending (h : Changes sha256 plan state eventId slot kind changed)
    (hpending : changed.phase = .pending) :
    changed = slot ∧ target kind ≠ some slot.gateId := by
  cases h with
  | same kind hother => exact ⟨rfl, hother⟩
  | observed => exact absurd hpending resultPhase_ne
  | recovered => exact absurd hpending recoveryPhase_ne
  | _ => cases hpending

theorem isSettled_of_pending (hsettled : slot.phase.isSettled = true) :
    slot.phase ≠ .pending := by
  intro h
  rw [h] at hsettled
  cases hsettled

theorem stepped_of_applies (hopen : state.phase ≠ .terminal)
    (happlies : Applies sha256 plan state event.id event.kind applied)
    (hblocks : Propagates plan applied blocked)
    (hunblocked : Unblocked plan blocked plan.executionOrder ∨
      blocked.slots = state.slots)
    (hnext : next = advance sha256 blocked event.sequence event.id) :
    Stepped sha256 plan state event next := by
  subst hnext
  have hsame := sameRun_of_propagates hblocks
  exact {
    unfinished := hopen
    slots := by
      intro gateId slot hslot
      obtain ⟨changed, hchanged, hchanges⟩ := happlies.slots gateId slot hslot
      rcases slot_of_propagates hblocks hchanged with hkept |
        ⟨hpending, gate, blocker, hgate, hmem, hblocker, hblocked⟩
      · exact .inl ⟨changed, hkept, hchanges⟩
      · obtain ⟨rfl, hother⟩ := same_of_pending hchanges hpending
        rw [gateId_of_slot hslot] at hother
        exact .inr ⟨hpending, hother, gate, blocker, hgate, hmem, hblocker,
          hblocked⟩
    gateIds := hsame.gateIds.trans happlies.gateIds
    phase := by
      have hphase := happlies.phase
      rw [← hsame.phase] at hphase
      exact hphase
    runId := hsame.runId.trans happlies.runId
    planDigest := hsame.planDigest.trans happlies.planDigest
    revision := hsame.revision.trans happlies.revision
    snapshotDigest := hsame.snapshotDigest.trans happlies.snapshotDigest
    maximumAttempts := hsame.maximumAttempts.trans happlies.maximumAttempts
    usedExecutions := hsame.usedExecutions.trans happlies.usedExecutions
    usedActions := hsame.usedActions.trans happlies.usedActions
    fresh := happlies.fresh
    known := happlies.known
    finalized := by
      intro hkind
      obtain ⟨hsettled, digest, hterminal⟩ := happlies.finalized hkind
      have hslots : applied.slots = state.slots := by
        apply happlies.untargeted
        · rw [hkind]
          rfl
        · rw [hkind]
          exact fun h => by cases h
      have hblocked : blocked = applied := by
        apply eq_of_propagates hblocks
        rw [hslots]
        intro slot hslot
        exact isSettled_of_pending (hsettled slot hslot)
      rw [hblocked]
      exact ⟨hsettled, hslots, digest, hterminal⟩
    unfinalized := fun hkind =>
      hsame.terminal.trans (happlies.unfinalized hkind)
    unblocked := hunblocked }

theorem phase_of_fencesMatch {command : GateCommand}
    (h : fencesMatch state command = true) : state.phase ≠ .terminal := by
  simp only [fencesMatch, Bool.and_eq_true, decide_eq_true_eq] at h
  exact h.1.1.1.1.1

theorem stepped_of_steps (hstep : Steps sha256 plan state event next) :
    Stepped sha256 plan state event next := by
  obtain ⟨command, h | h⟩ := hstep
  · simp only [decideCommand, validateFences, bind_eq_ok_iff, exists_unit_iff,
      ensure_eq_ok_iff, Bool.and_eq_true, Except.ok.injEq, transition,
      GateTransition.mk.injEq] at h
    obtain ⟨⟨⟨-, hfences⟩, -⟩, sequence, -, ⟨applied, kind⟩, happlied, rfl, rfl⟩ :=
      h
    obtain ⟨hblocks, hunblocked⟩ := propagateBlocks_spec plan applied
    exact stepped_of_applies (phase_of_fencesMatch hfences)
      (applies_of_apply happlied) hblocks (.inl hunblocked) rfl
  · simp only [decideLifecycle, validateLifecycleFences, bind_eq_ok_iff,
      exists_unit_iff, ensure_eq_ok_iff, Bool.and_eq_true, Except.ok.injEq,
      transition, GateTransition.mk.injEq] at h
    obtain ⟨⟨hfences, -⟩, sequence, -, ⟨applied, kind⟩, happlied, rfl, rfl⟩ := h
    exact stepped_of_applies (phase_of_fencesMatch hfences)
      (applies_of_lifecycle command.kind happlied) .refl
      (.inr (slots_of_lifecycle happlied)) rfl

end Steps

end Peritus.Gates.Edits
