import Peritus.Gates.Invariant

/-!
The slots and the terminal of a run say what happened in it: a passed gate has
its result, its evidence and its dependencies, and the terminal is read off the
slots.
-/

namespace Peritus.Gates.Truth

open Invariant
open Peritus.Types Checked TransitionSystem State Canonical Reducer Blocking Edits

/-! ### What the slots say -/

/-- The execution and action identities a run has prepared, in order. -/
def preparedAttempts (events : List GateEvent) : List ActiveAttempt :=
  events.filterMap fun event => preparedAttempt event.kind

def allPassed (plan : GatePlan) (state : GateRunState) : Prop :=
  ∀ gate ∈ plan.gates, ∃ slot, state.slot gate.id = some slot ∧
    slot.phase = .passed

/-- The planned gates whose slot is not passed, in the order of the plan. -/
def unpassed (plan : GatePlan) (state : GateRunState) : List GateId :=
  (plan.gates.map PlannedGate.id).filter fun gateId =>
    !(state.slot gateId).any fun slot => decide (slot.phase = .passed)

/-- The attempt, the result and the receipt that a passed slot rests on. -/
structure Rests (events : List GateEvent) (state : GateRunState)
    (gate : PlannedGate) (slot : GateSlot) (attempt : ActiveAttempt)
    (result : GateAttemptResult) (resultEvent : EventId)
    (receipt : GateEvidenceReceipt) : Prop where
  active : slot.active = some attempt
  lastResult : slot.lastResult = some result
  passed : result.kind = .passed
  observed : ∃ event ∈ events, event.id = resultEvent ∧
    event.kind = .resultObserved gate.id attempt.executionId result
  evidence : slot.evidence = some receipt
  published : ∃ event ∈ events,
    event.kind = .evidencePublished gate.id attempt.executionId receipt
  gateId : receipt.gateId = gate.id
  attempt : receipt.attempt = attempt
  revision : receipt.revision = state.revision
  resultEvent : receipt.resultEvent = resultEvent
  resultDigest : receipt.publication.resultDigest = result.toolResultDigest
  requirements : receipt.evidence.map PublishedGateEvidence.requirementId =
    gate.requiredEvidence

structure Truthful (plan : GatePlan) (events : List GateEvent)
    (state : GateRunState) : Prop where
  gates : state.slots.map GateSlot.gateId = plan.gates.map PlannedGate.id
  evidenced : ∀ gate ∈ plan.gates, ∀ slot, state.slot gate.id = some slot →
    slot.phase = .passed → ∃ attempt result resultEvent receipt,
      Rests events state gate slot attempt result resultEvent receipt
  dependencies : ∀ gate ∈ plan.gates, ∀ slot, state.slot gate.id = some slot →
    slot.phase = .passed → ∀ dependency ∈ gate.dependencies,
      ∃ found, state.slot dependency = some found ∧ found.phase = .passed
  executions : ((preparedAttempts events).map ActiveAttempt.executionId).Nodup
  actions : ((preparedAttempts events).map ActiveAttempt.actionId).Nodup
  attempts : ∀ gateId slot, state.slot gateId = some slot →
    slot.attempts ≤ plan.maximumAttempts ∧
      slot.attempts = (slot.active.map fun attempt => attempt.ordinal.get).getD 0
  ended : state.terminal.isSome = true ↔ state.phase = .terminal
  terminal : ∀ terminal, state.terminal = some terminal →
    (terminal.kind = .passed ↔ allPassed plan state) ∧
      terminal.nonPassing = unpassed plan state

/-- The same, with a passed terminal kept from a run that was cancelled. -/
structure TruthfulOfCancellation (plan : GatePlan) (events : List GateEvent)
    (state : GateRunState) : Prop extends Truthful plan events state where
  uncancelled : ∀ terminal, state.terminal = some terminal →
    (terminal.kind = .passed ↔ allPassed plan state ∧
      ∀ event ∈ events, event.kind ≠ .cancellationStarted)

section Runs

variable {sha256 : List UInt8 → Sha256Digest} {plan : GatePlan}
  {state next : GateRunState} {event : GateEvent}
  {events rest : List GateEvent} {gateId : GateId} {slot : GateSlot}

/-! ### Evidence -/

theorem newPublication_eq_ok {runId : RunId} {attempt : ActiveAttempt}
    {revision : RevisionTuple} {resultEvent : EventId} {resultPosition : Nat}
    {resultDigest : Sha256Digest} {required : List EvidenceRequirementId}
    {qualityArtifacts : List GateArtifact} {publication : EvidencePublication}
    (h : newPublication sha256 runId gateId attempt revision resultEvent
      resultPosition resultDigest required qualityArtifacts = .ok publication) :
    publication.gateId = gateId ∧ publication.attempt = attempt ∧
      publication.revision = revision ∧ publication.resultEvent = resultEvent ∧
      publication.resultDigest = resultDigest := by
  simp only [newPublication, check_bind_eq_ok_iff, Except.ok.injEq] at h
  obtain ⟨-, rfl⟩ := h
  exact ⟨rfl, rfl, rfl, rfl, rfl⟩

theorem rests_of_run (hrun : GateRun sha256 plan events state)
    {gate : PlannedGate} (hmem : gate ∈ plan.gates)
    (hslot : state.slot gate.id = some slot) (hphase : slot.phase = .passed) :
    ∃ attempt result resultEvent receipt,
      Rests events state gate slot attempt result resultEvent receipt := by
  have hsound := slotSound_of_run hrun hslot
  have hid := gateId_of_slot hslot
  obtain ⟨found, attempt, result, resultEvent, receipt, hfound, hactive, hresult,
    hevent, hevidence, ⟨hpassed, hpublication, hrequired⟩, hpublished⟩ :=
    hsound.passed hphase
  rw [hid, gate_of_mem hmem] at hfound
  cases hfound
  obtain ⟨owner, position, hattempt, hlast, hobserved⟩ :=
    hsound.result result hresult
  rw [hactive] at hattempt
  cases hattempt
  rw [hevent] at hlast
  cases hlast
  obtain ⟨hgateId, hsame, hrevision, hresultEvent, hdigest⟩ :=
    newPublication_eq_ok hpublication
  unfold Observed at hobserved
  rw [hid] at hobserved hpublished
  exact ⟨attempt, result, resultEvent, receipt, {
    active := hactive
    lastResult := hresult
    passed := hpassed
    observed := hobserved
    evidence := hevidence
    published := hpublished
    gateId := hgateId
    attempt := hsame
    revision := hrevision
    resultEvent := hresultEvent
    resultDigest := hdigest
    requirements := hrequired }⟩

theorem dependencies_of_run (hrun : GateRun sha256 plan events state)
    {gate : PlannedGate} (hmem : gate ∈ plan.gates)
    (hslot : state.slot gate.id = some slot) (hphase : slot.phase = .passed)
    {dependency : GateId} (hdependency : dependency ∈ gate.dependencies) :
    ∃ found, state.slot dependency = some found ∧ found.phase = .passed := by
  have hsound := slotSound_of_run hrun hslot
  obtain ⟨attempt, result, resultEvent, receipt, hrests⟩ :=
    rests_of_run hrun hmem hslot hphase
  have hactive : slot.active.isSome = true := by
    rw [hrests.active]
    rfl
  have hsatisfied := hsound.dependencies hactive
  rw [gateId_of_slot hslot] at hsatisfied
  simp only [dependenciesSatisfied, gate_of_mem hmem, Option.any_some,
    List.all_eq_true, Option.any_eq_true, decide_eq_true_eq] at hsatisfied
  exact hsatisfied dependency hdependency

/-! ### Identities -/

/-- A run records every identity it prepares, and prepares it once. -/
structure Recorded (events : List GateEvent) (state : GateRunState) : Prop where
  executions : state.usedExecutions =
    (preparedAttempts events).map ActiveAttempt.executionId
  actions : state.usedActions =
    (preparedAttempts events).map ActiveAttempt.actionId
  nodupExecutions : state.usedExecutions.Nodup
  nodupActions : state.usedActions.Nodup

theorem preparedAttempts_append (events : List GateEvent) (event : GateEvent) :
    preparedAttempts (events ++ [event]) =
      preparedAttempts events ++ (preparedAttempt event.kind).toList := by
  unfold preparedAttempts
  rw [List.filterMap_append]
  cases h : preparedAttempt event.kind <;> simp [h]

theorem recorded_of_stepped (hrecorded : Recorded events state)
    (hstepped : Stepped sha256 plan state event next) :
    Recorded (events ++ [event]) next := by
  have hexecutions := hstepped.usedExecutions
  have hactions := hstepped.usedActions
  have hfresh := hstepped.fresh
  have happend := preparedAttempts_append events event
  cases hprepared : preparedAttempt event.kind with
  | none =>
      rw [hprepared] at hexecutions hactions happend
      simp only [Option.map_none, Option.toList_none,
        List.append_nil] at hexecutions hactions happend
      constructor
      · rw [hexecutions, happend, hrecorded.executions]
      · rw [hactions, happend, hrecorded.actions]
      · rw [hexecutions]
        exact hrecorded.nodupExecutions
      · rw [hactions]
        exact hrecorded.nodupActions
  | some attempt =>
      obtain ⟨hnewExecution, hnewAction⟩ := hfresh attempt hprepared
      rw [hprepared] at hexecutions hactions happend
      simp only [Option.map_some,
        Option.toList_some] at hexecutions hactions happend
      constructor
      · rw [hexecutions, happend, hrecorded.executions, List.map_append]
        rfl
      · rw [hactions, happend, hrecorded.actions, List.map_append]
        rfl
      · rw [hexecutions, ← List.concat_eq_append]
        exact hrecorded.nodupExecutions.concat hnewExecution
      · rw [hactions, ← List.concat_eq_append]
        exact hrecorded.nodupActions.concat hnewAction

theorem recorded_of_run (hrun : GateRun sha256 plan events state) :
    Recorded events state := by
  refine run_invariant Recorded ?_ ?_ hrun
  · intro first snapshotDigest hkind
    have hnone : preparedAttempts [first] = [] := by
      simp [preparedAttempts, preparedAttempt, hkind]
    constructor
    · rw [hnone]
      rfl
    · rw [hnone]
      rfl
    · exact List.nodup_nil
    · exact List.nodup_nil
  · intro events before event after hbefore hstepped
    exact recorded_of_stepped hbefore hstepped

/-! ### The terminal -/

theorem terminalKind_eq_passed_iff :
    terminalKind state = .passed ↔ nonPassing state = [] := by
  unfold terminalKind
  split
  · next hall => simp [hall]
  · next hsome =>
      have hother : ∀ kind : GateTerminalKind, kind ≠ .passed →
          (kind = .passed ↔ nonPassing state = []) := by
        intro kind hkind
        simp [hkind, hsome]
      split
      · exact hother _ (by decide)
      · split
        · exact hother _ (by decide)
        · exact hother _ (by decide)

/-- The terminal was computed from the slots that the run ended with. -/
structure Ended (state : GateRunState) : Prop where
  phase : state.terminal.isSome = true ↔ state.phase = .terminal
  terminal : ∀ terminal, state.terminal = some terminal →
    (terminal.kind = .passed ↔ nonPassing state = []) ∧
      terminal.nonPassing = nonPassing state

theorem phase_of_turns {phase turned : GateRunPhase} {kind : GateEventKind}
    (hturns : Turns phase kind turned) (hopen : phase ≠ .terminal) :
    turned = .terminal ↔ kind = .runFinalized := by
  cases hturns with
  | kept phase kind htarget =>
      constructor
      · exact fun h => absurd h hopen
      · rintro rfl
        exact absurd rfl htarget
  | finalized => simp
  | _ => simp

theorem cancelling_of_turns {phase turned : GateRunPhase}
    (hturns : Turns phase .cancellationStarted turned) : turned = .cancelling := by
  cases hturns with
  | kept phase kind htarget => exact absurd rfl htarget
  | cancelled => rfl

theorem ended_of_stepped (hended : Ended state)
    (hstepped : Stepped sha256 plan state event next) : Ended next := by
  have hturn := phase_of_turns hstepped.phase hstepped.unfinished
  by_cases hkind : event.kind = .runFinalized
  · obtain ⟨-, hslots, digest, hterminal⟩ := hstepped.finalized hkind
    have hsame : nonPassing next = nonPassing state := by
      simp only [nonPassing, hslots]
    constructor
    · rw [hterminal]
      exact ⟨fun _ => hturn.mpr hkind, fun _ => rfl⟩
    · intro terminal h
      rw [hterminal] at h
      cases h
      rw [hsame]
      exact ⟨terminalKind_eq_passed_iff, rfl⟩
  · have hnone : next.terminal = none := by
      rw [hstepped.unfinalized hkind]
      by_contra hsome
      exact hstepped.unfinished
        (hended.phase.mp (Option.isSome_iff_ne_none.mpr hsome))
    constructor
    · rw [hnone]
      constructor
      · intro h
        cases h
      · intro h
        exact absurd (hturn.mp h) hkind
    · intro terminal h
      rw [hnone] at h
      cases h

theorem ended_of_run (hrun : GateRun sha256 plan events state) : Ended state := by
  refine run_invariant (fun _ state => Ended state) ?_ ?_ hrun
  · intro first snapshotDigest _
    constructor
    · constructor
      · intro h
        cases h
      · intro h
        cases h
    · intro terminal h
      cases h
  · intro events before event after hbefore hstepped
    exact ended_of_stepped hbefore hstepped

/-- In a run the slots come in the order of the plan, so the list of the reducer
is the one of the plan. -/
theorem nonPassing_eq_unpassed (hbound : Bound plan state) :
    nonPassing state = unpassed plan state := by
  unfold nonPassing unpassed
  rw [← hbound.gateIds, List.filter_map]
  congr 1
  apply List.filter_congr
  intro slot hmem
  simp [slot_of_mem (nodup_slots hbound) hmem]

theorem unpassed_eq_nil_iff :
    unpassed plan state = [] ↔ allPassed plan state := by
  simp only [unpassed, allPassed, List.filter_eq_nil_iff, List.forall_mem_map,
    Bool.not_eq_true', Bool.not_eq_false, Option.any_eq_true, decide_eq_true_eq]

theorem truthful_of_run (hrun : GateRun sha256 plan events state) :
    Truthful plan events state := by
  have hbound := bound_of_run hrun
  have hrecorded := recorded_of_run hrun
  have hended := ended_of_run hrun
  exact {
    gates := hbound.gateIds
    evidenced := fun gate hmem slot hslot hphase =>
      rests_of_run hrun hmem hslot hphase
    dependencies := fun gate hmem slot hslot hphase dependency hdependency =>
      dependencies_of_run hrun hmem hslot hphase hdependency
    executions := by
      rw [← hrecorded.executions]
      exact hrecorded.nodupExecutions
    actions := by
      rw [← hrecorded.actions]
      exact hrecorded.nodupActions
    attempts := by
      intro gateId slot hslot
      have hsound := slotSound_of_run hrun hslot
      rw [← hbound.maximumAttempts]
      exact ⟨hsound.bounded, hsound.attempts⟩
    ended := hended.phase
    terminal := by
      intro terminal hterminal
      obtain ⟨hkind, hlist⟩ := hended.terminal terminal hterminal
      rw [nonPassing_eq_unpassed hbound] at hkind hlist
      exact ⟨hkind.trans unpassed_eq_nil_iff, hlist⟩ }

/-- The slots, the identities and the terminal of a run are truthful, and what is
settled in it stays. -/
theorem gate_run_truth (hrun : GateRun sha256 plan events state) :
    Truthful plan events state ∧
    ∀ rest next, Run (Steps sha256 plan) state rest next →
      ∀ gateId slot, state.slot gateId = some slot →
        slot.phase.isSettled = true → next.slot gateId = some slot := by
  refine ⟨truthful_of_run hrun, ?_⟩
  intro rest next hrest gateId slot hslot hsettled
  exact settled_of_run hrest hslot hsettled

/-! ### Cancellation after every gate has passed -/

theorem allPassed_of_stepped (hall : allPassed plan state)
    (hstepped : Stepped sha256 plan state event next) : allPassed plan next := by
  intro gate hmem
  obtain ⟨slot, hslot, hphase⟩ := hall gate hmem
  have hsettled : slot.phase.isSettled = true := by
    rw [hphase]
    rfl
  exact ⟨slot, settled_of_stepped hstepped hslot hsettled, hphase⟩

theorem phase_of_allPassed (hbound : Bound plan state)
    (hall : allPassed plan state) (hmem : slot ∈ state.slots) :
    slot.phase = .passed := by
  have hgateId := List.mem_map_of_mem (f := GateSlot.gateId) hmem
  rw [hbound.gateIds] at hgateId
  obtain ⟨gate, hgate, hid⟩ := List.mem_map.mp hgateId
  obtain ⟨found, hfound, hphase⟩ := hall gate hgate
  rw [hid, slot_of_mem (nodup_slots hbound) hmem] at hfound
  cases hfound
  exact hphase

theorem finalize_eq_ok (sha256 : List UInt8 → Sha256Digest)
    (hrunning : state.phase.isPaused = false)
    (hsettled : ∀ slot ∈ state.slots, slot.phase.isSettled = true) :
    ∃ applied, finalize sha256 state = .ok (applied, .runFinalized) := by
  simp only [finalize, bind_eq_ok_iff, exists_unit_iff, ensure_eq_ok_iff,
    hrunning, Bool.not_false, List.all_eq_true, Except.ok.injEq, Prod.mk.injEq]
  exact ⟨_, trivial, hsettled, rfl, trivial⟩

/-- A cancellation that arrives after the last gate has passed leaves every slot,
and the terminal is passed. -/
theorem exists_passed_after_cancellation
    (hrun : GateRun sha256 plan events state) (hphase : state.phase = .active)
    (hall : allPassed plan state) (hroom : state.sequence.get + 2 ≤ u64Max) :
    ∃ cancellation finalization ended terminal,
      GateRun sha256 plan (events ++ [cancellation] ++ [finalization]) ended ∧
        cancellation.kind = .cancellationStarted ∧
        ended.terminal = some terminal ∧ terminal.kind = .passed := by
  have hopen : state.phase ≠ .terminal := by
    rw [hphase]
    exact fun h => by cases h
  obtain ⟨cancellation, middle, -, hcancellation, hsequence, hcancelled, hmiddle⟩ :=
    exists_gateRun_snoc state.lastEventId .beginCancellation hrun hopen (by omega)
      rfl
  have hturned : middle.phase = .cancelling := by
    have hturns := hcancelled.phase
    rw [hcancellation] at hturns
    exact cancelling_of_turns hturns
  have hpassed := allPassed_of_stepped hall hcancelled
  have hrunning : middle.phase.isPaused = false := by
    rw [hturned]
    rfl
  have hsettled : ∀ slot ∈ middle.slots, slot.phase.isSettled = true := by
    intro slot hmem
    rw [phase_of_allPassed (bound_of_run hmiddle) hpassed hmem]
    rfl
  obtain ⟨applied, happlied⟩ := finalize_eq_ok sha256 hrunning hsettled
  obtain ⟨finalization, ended, -, hfinalization, -, hfinalized, hended⟩ :=
    exists_gateRun_snoc state.lastEventId .finalizeRun hmiddle
      (by rw [hturned]; exact fun h => by cases h) (by omega) happlied
  have htruth := truthful_of_run hended
  obtain ⟨terminal, hterminal⟩ := Option.isSome_iff_exists.mp (htruth.ended.mpr
    ((phase_of_turns hfinalized.phase hfinalized.unfinished).mpr hfinalization))
  exact ⟨cancellation, finalization, ended, terminal, hended, hcancellation,
    hterminal, (htruth.terminal terminal hterminal).1.mpr
      (allPassed_of_stepped hpassed hfinalized)⟩

theorem kept_of_turns {phase turned : GateRunPhase} {kind : GateEventKind}
    (hturns : Turns phase kind turned) (htarget : target kind ≠ none) :
    turned = phase := by
  cases hturns with
  | kept => rfl
  | _ => exact absurd rfl htarget

theorem passed_of_changes {eventId : EventId} {changed : GateSlot}
    {executionId : GateExecutionId} {receipt : GateEvidenceReceipt}
    (h : Changes sha256 plan state eventId slot
      (.evidencePublished gateId executionId receipt) changed)
    (hgateId : slot.gateId = gateId) : changed.phase = .passed := by
  cases h with
  | same kind hother =>
      rw [hgateId] at hother
      exact absurd rfl hother
  | published => rfl

/-- A receipt that matches is published. -/
theorem publishEvidence_eq_ok {gate : PlannedGate} {attempt : ActiveAttempt}
    {result : GateAttemptResult} {resultEvent : EventId}
    {receipt : GateEvidenceReceipt} (hactive : state.phase = .active)
    (hgate : plan.gate gate.id = some gate)
    (hslot : state.slot gate.id = some slot)
    (hphase : slot.phase = .evidencePending)
    (hattempt : slot.active = some attempt)
    (hresult : slot.lastResult = some result)
    (hevent : slot.resultEvent = some resultEvent)
    (hmatches : Matches sha256 state gate attempt result resultEvent receipt) :
    publishEvidence sha256 plan state gate.id attempt.executionId receipt =
      .ok (state.updateSlot gate.id fun slot => slot.publish receipt,
        .evidencePublished gate.id attempt.executionId receipt) := by
  obtain ⟨hpassed, hpublication, hevidence⟩ := hmatches
  obtain ⟨hgateId, hsame, hrevision, -, -⟩ := newPublication_eq_ok hpublication
  simp only [publishEvidence, requireActive, bind_eq_ok_iff, exists_unit_iff,
    ensure_eq_ok_iff, plannedOf_eq_ok_iff, slotOf_eq_ok_iff,
    requireAttempt_eq_ok_iff, evidenceOf_eq_ok_iff, Bool.and_eq_true,
    decide_eq_true_eq, exactRequirements, GateAttemptResult.passed]
  exact ⟨hactive, gate, hgate, slot, hslot, ⟨hphase, attempt, hattempt, rfl⟩,
    attempt, hattempt, result, hresult, resultEvent, hevent, receipt.publication,
    hpublication, ⟨⟨⟨⟨⟨hpassed, rfl⟩, hgateId⟩,
      congrArg ActiveAttempt.executionId hsame⟩, hrevision⟩, hevidence⟩, trivial⟩

theorem gateRun_genesis (sha256 : List UInt8 → Sha256Digest) (plan : GatePlan)
    (snapshotDigest : Sha256Digest) (eventId : EventId) : ∃ first, first.id = eventId ∧
      first.kind = .runStarted snapshotDigest ∧
      GateRun sha256 plan [first]
        (sealState sha256 (genesis plan snapshotDigest eventId)) := by
  let command : GateCommand := ⟨eventId, eventId, plan.runId, 0, none, zeroDigest,
    plan.revision, .startRun snapshotDigest, Iff.intro (fun _ => rfl) fun _ => rfl⟩
  have hstart : ∃ event, start sha256 plan command =
      .ok ⟨event, sealState sha256 (genesis plan snapshotDigest eventId)⟩ ∧
      event.id = eventId ∧ event.kind = .runStarted snapshotDigest := by
    simp only [start, command, decide_true, Bool.and_true, Option.isNone_none]
    exact ⟨_, rfl, rfl, rfl⟩
  obtain ⟨first, hfirst, hid, hkind⟩ := hstart
  exact ⟨first, hid, hkind, first, _, [], ⟨command, hfirst⟩, .nil _, rfl⟩

end Runs

/-! ### Runs by their requests -/

abbrev Request := EventId × GateCommandKind

section Requests

variable (sha256 : List UInt8 → Sha256Digest) (plan : GatePlan)

def attempt (state : GateRunState) (request : Request) : Option GateRunState :=
  if state.phase = .terminal then none
  else
    match nextSequence state, apply sha256 plan state request.1 request.2 with
    | .ok sequence, .ok (applied, _) =>
        some (advance sha256 (propagateBlocks plan applied) sequence request.1)
    | _, _ => none

def attempts : GateRunState → List Request → Option GateRunState
  | state, [] => some state
  | state, request :: rest =>
      (attempt sha256 plan state request).bind fun next => attempts next rest

variable {sha256 plan} {state next : GateRunState} {events : List GateEvent}

theorem commandKind_of_apply {eventId : EventId} {command : GateCommandKind}
    {applied : GateRunState} {kind : GateEventKind}
    (h : apply sha256 plan state eventId command = .ok (applied, kind)) :
    commandKind kind = command := by
  cases command with
  | startRun => cases h
  | beginCancellation =>
      cases Except.ok.inj h
      rfl
  | pauseRun =>
      simp only [apply, applyLifecycle, pause] at h
      split at h <;> cases h <;> rfl
  | resumeRun =>
      simp only [apply, applyLifecycle, resume] at h
      split at h <;> cases h <;> rfl
  | _ =>
      simp only [apply, prepareAttempt, markDispatched, observeResult,
        classifyRecovery, publishEvidence, finalize, bind_eq_ok_iff,
        exists_unit_iff, ensure_eq_ok_iff, Except.ok.injEq, Prod.mk.injEq] at h
      grind [commandKind]

theorem gateRun_of_attempt {request : Request}
    (hrun : GateRun sha256 plan events state)
    (h : attempt sha256 plan state request = some next) :
    ∃ event, event.id = request.1 ∧ commandKind event.kind = request.2 ∧
      GateRun sha256 plan (events ++ [event]) next := by
  unfold attempt at h
  split at h
  · cases h
  · next hopen =>
      split at h
      · next sequence applied kind hsequence happlied =>
          obtain ⟨event, hid, hkind, hstep⟩ :=
            exists_step (bound_of_run hrun) hopen hsequence happlied
          cases h
          refine ⟨event, hid, ?_, gateRun_snoc hrun hstep⟩
          rw [hkind]
          exact commandKind_of_apply happlied
      · cases h

theorem gateRun_of_attempts {requests : List Request}
    (hrun : GateRun sha256 plan events state)
    (h : attempts sha256 plan state requests = some next) :
    ∃ rest, rest.map (fun event => (event.id, commandKind event.kind)) =
      requests ∧ GateRun sha256 plan (events ++ rest) next := by
  induction requests generalizing events state with
  | nil =>
      cases h
      refine ⟨[], rfl, ?_⟩
      rw [List.append_nil]
      exact hrun
  | cons request requests ih =>
      obtain ⟨middle, hmiddle, hrest⟩ := Option.bind_eq_some_iff.mp h
      obtain ⟨event, hid, hkind, hsnoc⟩ := gateRun_of_attempt hrun hmiddle
      obtain ⟨rest, hrequests, hnext⟩ := ih hsnoc hrest
      refine ⟨event :: rest, ?_, ?_⟩
      · rw [List.map_cons, hrequests, hid, hkind]
      · rw [List.append_assoc] at hnext
        exact hnext

end Requests

/-! ### A run of one gate -/

def smallId (value : Nat) : OpaqueIdentifier := .ofNat value

def smallRevision : RevisionTuple :=
  ⟨smallId 1, smallId 1, smallId 1, .first, .first, smallId 1, smallId 1⟩

def smallPlan : GatePlan where
  runId := smallId 1
  revision := smallRevision
  maximumAttempts := 2
  gates := [⟨smallId 1, [], []⟩]
  executionOrder := [smallId 1]
  digest := zeroDigest
  attempts := by decide
  counted := by decide
  total := by decide
  declared := by decide
  ordered := by decide
  scheduled := by decide

def smallAttempt : ActiveAttempt :=
  ⟨smallId 1, ⟨1, Nat.one_pos, by decide⟩, smallId 1, zeroDigest, zeroDigest,
    zeroDigest⟩

def smallResult (kind : GateOutcomeKind) (retry : RetryPermission)
    (hauthoritative : kind = .passed ∨ kind = .candidateFailure →
      retry = .never ∧ RecoveryRequirement.none = .none := by decide) :
    GateAttemptResult where
  gateId := smallId 1
  kind := kind
  toolResultDigest := zeroDigest
  candidateResultDigest := some zeroDigest
  executionPlanDigest := some zeroDigest
  processId := some (smallId 1)
  artifacts := []
  retry := retry
  recovery := .none
  bounded := by decide
  canonical := by decide
  complete := fun _ => ⟨rfl, rfl, rfl⟩
  authoritative := hauthoritative

def smallStart (sha256 : List UInt8 → Sha256Digest) : GateRunState :=
  sealState sha256 (genesis smallPlan zeroDigest (smallId 1))

/-- The gate is prepared and dispatched, and its attempt passes. -/
def smallRequests : List Request :=
  [(smallId 2, .prepareAttempt (smallId 1) smallAttempt),
    (smallId 3, .markDispatched (smallId 1) (smallId 1)),
    (smallId 4, .observeResult (smallId 1) (smallId 1)
      (smallResult .passed .never))]

def smallPublication (sha256 : List UInt8 → Sha256Digest) : EvidencePublication :=
  let publication : EvidencePublication :=
    ⟨smallId 1, smallId 1, smallAttempt, smallRevision, smallId 4, 1, zeroDigest,
      [], [], zeroDigest⟩
  { publication with manifestDigest := sha256 (manifestBytes publication) }

def smallReceipt (sha256 : List UInt8 → Sha256Digest) : GateEvidenceReceipt where
  publication := smallPublication sha256
  evidence := []
  receiptDigest := sha256 (receiptBytes (smallPublication sha256).manifestDigest [])
  bounded := by decide
  answered := rfl
  unique := by decide
  positioned := by decide

theorem state_smallRequests (sha256 : List UInt8 → Sha256Digest) :
    (attempts sha256 smallPlan (smallStart sha256) smallRequests).map (fun state =>
      (state.runId, state.revision, state.phase, state.sequence.get, state.slots)) =
      some (smallId 1, smallRevision, .active, 4,
        [⟨smallId 1, .evidencePending, 1, some smallAttempt,
          some (smallResult .passed .never), some (smallId 4), none, none⟩]) := by
  cbv

/-- Whatever the hash, there is a run of the plan in which every gate has passed. -/
theorem exists_smallPassed (sha256 : List UInt8 → Sha256Digest) :
    ∃ events state, GateRun sha256 smallPlan events state ∧
      state.phase = .active ∧ state.sequence.get = 5 ∧
      allPassed smallPlan state := by
  obtain ⟨state, hstate, hfields⟩ :=
    Option.map_eq_some_iff.mp (state_smallRequests sha256)
  simp only [Prod.mk.injEq] at hfields
  obtain ⟨hrunId, hrevision, hphase, hsequence, hslots⟩ := hfields
  obtain ⟨first, -, -, hfirst⟩ := gateRun_genesis sha256 smallPlan zeroDigest
    (smallId 1)
  obtain ⟨rest, -, hrun⟩ := gateRun_of_attempts hfirst hstate
  have hslot : state.slot (smallId 1) = some ⟨smallId 1, .evidencePending, 1,
      some smallAttempt, some (smallResult .passed .never), some (smallId 4), none,
      none⟩ := by
    unfold GateRunState.slot
    rw [hslots]
    rfl
  have hmatches : Matches sha256 state ⟨smallId 1, [], []⟩ smallAttempt
      (smallResult .passed .never) (smallId 4) (smallReceipt sha256) := by
    constructor
    · rfl
    · rw [hrunId, hrevision]
      rfl
    · rfl
  have hgate : smallPlan.gate (smallId 1) = some ⟨smallId 1, [], []⟩ := rfl
  have hpublished := publishEvidence_eq_ok hphase hgate hslot rfl rfl rfl rfl
    hmatches
  have hopen : state.phase ≠ .terminal := by
    rw [hphase]
    exact fun h => by cases h
  have hroom : state.sequence.get < u64Max := by
    rw [hsequence]
    decide
  obtain ⟨event, next, -, hkind, hnext, hstepped, hsnoc⟩ :=
    exists_gateRun_snoc (smallId 5)
      (.publishEvidence (smallId 1) (smallId 1) (smallReceipt sha256)) hrun
      hopen hroom hpublished
  refine ⟨_, next, hsnoc, ?_, by rw [hnext, hsequence], ?_⟩
  · have hturns := hstepped.phase
    rw [hphase, hkind] at hturns
    exact (kept_of_turns hturns (Option.some_ne_none _))
  · intro gate hmem
    obtain rfl := List.mem_singleton.mp hmem
    rcases hstepped.slots (smallId 1) _ hslot with ⟨changed, hchanged, hchanges⟩ |
      ⟨hpending, -⟩
    · rw [hkind] at hchanges
      exact ⟨changed, hchanged, passed_of_changes hchanges rfl⟩
    · cases hpending

/-- Whatever the hash, a run that was cancelled ends as passed. -/
theorem passed_after_cancellation : ¬ ∃ sha256, ∀ plan events state,
    GateRun sha256 plan events state →
      TruthfulOfCancellation plan events state := by
  rintro ⟨sha256, hclaim⟩
  obtain ⟨events, state, hrun, hphase, hsequence, hall⟩ :=
    exists_smallPassed sha256
  obtain ⟨cancellation, finalization, ended, terminal, hended, hkind, hterminal,
    hpassed⟩ := exists_passed_after_cancellation hrun hphase hall
      (by rw [hsequence]; decide)
  have huncancelled := ((hclaim smallPlan _ ended hended).uncancelled terminal
    hterminal).mp hpassed
  refine huncancelled.2 cancellation ?_ hkind
  simp

theorem gate_run_truth_of_passed : ∃ events state,
    GateRun (fun _ => zeroDigest) smallPlan events state ∧
      allPassed smallPlan state ∧ Truthful smallPlan events state ∧
      ∀ rest next, Run (Steps (fun _ => zeroDigest) smallPlan) state rest next →
        ∀ gateId slot, state.slot gateId = some slot →
          slot.phase.isSettled = true → next.slot gateId = some slot := by
  obtain ⟨events, state, hrun, -, -, hall⟩ :=
    exists_smallPassed fun _ => zeroDigest
  exact ⟨events, state, hrun, hall, gate_run_truth hrun⟩

end Peritus.Gates.Truth
