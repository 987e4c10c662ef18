import Peritus.Gates.Edits

/-!
What every state of a run keeps: the slots are those of the plan, each slot holds
what its phase needs, and a settled slot stays as it is.
-/

namespace Peritus.Gates.Invariant

open Edits
open Peritus.Types Checked TransitionSystem SortedTable State Canonical Reducer Blocking

/-! ### Plans -/

section Plans

variable {plan : GatePlan} {gateId : GateId} {gate : PlannedGate}

theorem nodup_gateIds (plan : GatePlan) : (plan.gates.map PlannedGate.id).Nodup := by
  have hsorted := ascending_iff.mp plan.ordered
  unfold Sorted at hsorted
  rw [List.nodup_iff_pairwise_ne, List.pairwise_map]
  exact hsorted.imp ne_of_lt

theorem gate_of_mem (hmem : gate ∈ plan.gates) : plan.gate gate.id = some gate := by
  have hsome : (plan.gate gate.id).isSome = true := by
    simp only [GatePlan.gate, findGate, List.find?_isSome, decide_eq_true_eq]
    exact ⟨gate, hmem, rfl⟩
  obtain ⟨found, hfound⟩ := Option.isSome_iff_exists.mp hsome
  rw [hfound, List.inj_on_of_nodup_map (nodup_gateIds plan)
    (List.mem_of_find?_eq_some hfound) hmem (id_of_gate hfound)]

theorem mem_of_gate (hgate : plan.gate gateId = some gate) : gate ∈ plan.gates :=
  List.mem_of_find?_eq_some hgate

theorem validateOrderFrom_eq_ok {gates : List PlannedGate}
    {resolved order : List GateId}
    (h : validateOrderFrom gates resolved order = .ok ()) :
    order.Nodup ∧ (∀ id ∈ order, id ∉ resolved ∧ ∃ gate,
      findGate gates id = some gate ∧
        ∀ dependency ∈ gate.dependencies,
          dependency ∈ resolved ∨ dependency ∈ order) := by
  induction order generalizing resolved with
  | nil => exact ⟨List.nodup_nil, by simp⟩
  | cons id rest ih =>
      unfold validateOrderFrom at h
      split at h
      · cases h
      · next gate hgate =>
          simp only [check_bind_eq_ok_iff, ensure_eq_ok_iff, Bool.and_eq_true,
            List.all_eq_true, decide_eq_true_eq] at h
          obtain ⟨⟨hresolved, hfresh⟩, hrest⟩ := h
          obtain ⟨hnodup, hothers⟩ := ih hrest
          refine ⟨List.nodup_cons.mpr ⟨?_, hnodup⟩, ?_⟩
          · intro hmem
            exact (hothers id hmem).1 List.mem_cons_self
          · intro other hother
            rcases List.mem_cons.mp hother with rfl | hother
            · exact ⟨hfresh, gate, hgate, fun dependency hmem =>
                .inl (hresolved dependency hmem)⟩
            · obtain ⟨hnew, found, hfound, hdependencies⟩ := hothers other hother
              refine ⟨fun h => hnew (List.mem_cons_of_mem _ h), found, hfound, ?_⟩
              intro dependency hmem
              rcases hdependencies dependency hmem with h | h
              · rcases List.mem_cons.mp h with rfl | h
                · exact .inr List.mem_cons_self
                · exact .inl h
              · exact .inr (List.mem_cons_of_mem _ h)

/-- The order schedules every gate, and with it the gates it depends on. -/
theorem mem_executionOrder_iff :
    gateId ∈ plan.executionOrder ↔ gateId ∈ plan.gates.map PlannedGate.id := by
  have hscheduled := plan.scheduled
  simp only [validateOrder, check_bind_eq_ok_iff, ensure_eq_ok_iff,
    decide_eq_true_eq] at hscheduled
  obtain ⟨hlength, hfrom⟩ := hscheduled
  obtain ⟨hnodup, hknown⟩ := validateOrderFrom_eq_ok hfrom
  have hsubset : plan.executionOrder ⊆ plan.gates.map PlannedGate.id := by
    intro id hid
    obtain ⟨-, gate, hfound, -⟩ := hknown id hid
    have hgate : plan.gate id = some gate := hfound
    rw [← id_of_gate hgate]
    exact List.mem_map_of_mem (mem_of_gate hgate)
  have hperm := (List.subperm_of_subset hnodup hsubset).perm_of_length_le
    (by rw [List.length_map, hlength])
  exact hperm.mem_iff

end Plans

/-! ### Settled slots -/

section Settled

variable {sha256 : List UInt8 → Sha256Digest} {plan : GatePlan}
  {state next initial : GateRunState} {event first : GateEvent}
  {events rest : List GateEvent} {gateId : GateId} {slot changed : GateSlot}
  {eventId : EventId} {kind : GateEventKind}

/-- No event is about a settled gate, and a settled slot stays as it is. -/
theorem same_of_settled (h : Changes sha256 plan state eventId slot kind changed)
    (hsettled : slot.phase.isSettled = true) :
    changed = slot ∧ target kind ≠ some slot.gateId := by
  cases h with
  | same kind hother => exact ⟨rfl, hother⟩
  | prepared attempt hactive hphase =>
      rcases hphase with h | h <;> rw [h] at hsettled <;> cases hsettled
  | dispatched attempt hactive hphase =>
      rw [hphase] at hsettled
      cases hsettled
  | observed attempt result hrunning hphase =>
      rw [hphase] at hsettled
      cases hsettled
  | recovered attempt disposition hrunning hphase =>
      rcases hphase with h | h <;> rw [h] at hsettled <;> cases hsettled
  | published attempt result resultEvent receipt gate hactive hphase =>
      rw [hphase] at hsettled
      cases hsettled
  | cancelled hphase =>
      cases h : slot.phase <;>
        simp_all [isCancellable, GateSlotPhase.isSettled]

theorem settled_of_stepped (hstepped : Stepped sha256 plan state event next)
    (hslot : state.slot gateId = some slot)
    (hsettled : slot.phase.isSettled = true) : next.slot gateId = some slot := by
  rcases hstepped.slots gateId slot hslot with ⟨changed, hchanged, hchanges⟩ |
    ⟨hpending, -⟩
  · rw [hchanged, (same_of_settled hchanges hsettled).1]
  · exact absurd hpending (isSettled_of_pending hsettled)

theorem settled_of_run (hrun : Run (Steps sha256 plan) state rest next)
    (hslot : state.slot gateId = some slot)
    (hsettled : slot.phase.isSettled = true) : next.slot gateId = some slot := by
  refine @Run.invariant _ _ _ (fun state => state.slot gateId = some slot)
    ?_ _ _ _ hrun hslot
  intro before event after hbefore hstep
  exact settled_of_stepped (stepped_of_steps hstep) hbefore hsettled

theorem dependenciesSatisfied_of_stepped
    (hstepped : Stepped sha256 plan state event next)
    (h : dependenciesSatisfied plan state gateId = true) :
    dependenciesSatisfied plan next gateId = true := by
  simp only [dependenciesSatisfied, Option.any_eq_true, List.all_eq_true,
    decide_eq_true_eq] at h ⊢
  obtain ⟨gate, hgate, hpassed⟩ := h
  refine ⟨gate, hgate, ?_⟩
  intro dependency hmem
  obtain ⟨slot, hslot, hphase⟩ := hpassed dependency hmem
  have hsettled : slot.phase.isSettled = true := by
    rw [hphase]
    rfl
  exact ⟨slot, settled_of_stepped hstepped hslot hsettled, hphase⟩

/-! ### Runs -/

theorem start_eq_ok (hstart : Starts sha256 plan first initial) :
    ∃ snapshotDigest, first.kind = .runStarted snapshotDigest ∧
      initial = sealState sha256 (genesis plan snapshotDigest first.id) := by
  obtain ⟨command, h⟩ := hstart
  unfold start at h
  split at h
  · next snapshotDigest hkind =>
      simp only [check_bind_eq_ok_iff, Except.ok.injEq,
        GateTransition.mk.injEq] at h
      obtain ⟨-, rfl, rfl⟩ := h
      exact ⟨snapshotDigest, rfl, rfl⟩
  · cases h

theorem gateRun_snoc (hrun : GateRun sha256 plan events state)
    (hstep : Steps sha256 plan state event next) :
    GateRun sha256 plan (events ++ [event]) next := by
  obtain ⟨first, initial, rest, hstart, hsteps, rfl⟩ := hrun
  exact ⟨first, initial, rest ++ [event], hstart, hsteps.snoc hstep, rfl⟩

/-- The induction over a run: what its start has and its steps keep. -/
theorem run_induction (inv : List GateEvent → GateRunState → Prop)
    (hinit : ∀ first snapshotDigest,
      first.kind = .runStarted snapshotDigest →
      inv [first] (sealState sha256 (genesis plan snapshotDigest first.id)))
    (hstep : ∀ events state event next, GateRun sha256 plan events state →
      inv events state → Stepped sha256 plan state event next →
        inv (events ++ [event]) next)
    (hrun : GateRun sha256 plan events state) : inv events state := by
  obtain ⟨first, initial, rest, hstart, hsteps, rfl⟩ := hrun
  obtain ⟨snapshotDigest, hkind, rfl⟩ := start_eq_ok hstart
  refine (@Run.log_invariant _ _ (Steps sha256 plan)
    (fun events state => GateRun sha256 plan events state ∧ inv events state)
    ?_ _ _ [first] _ hsteps ⟨⟨first, _, [], hstart, .nil _, rfl⟩,
      hinit first snapshotDigest hkind⟩).2
  rintro log before event after ⟨hrun, hinv⟩ hstep'
  exact ⟨gateRun_snoc hrun hstep',
    hstep log before event after hrun hinv (stepped_of_steps hstep')⟩

theorem run_invariant (inv : List GateEvent → GateRunState → Prop)
    (hinit : ∀ first snapshotDigest,
      first.kind = .runStarted snapshotDigest →
      inv [first] (sealState sha256 (genesis plan snapshotDigest first.id)))
    (hstep : ∀ events state event next, inv events state →
      Stepped sha256 plan state event next → inv (events ++ [event]) next)
    (hrun : GateRun sha256 plan events state) : inv events state := by
  refine run_induction inv hinit ?_ hrun
  intro events before event after _ hinv hstepped
  exact hstep events before event after hinv hstepped

/-- The fields of a run that the plan and the start determine. -/
structure Bound (plan : GatePlan) (state : GateRunState) : Prop where
  gateIds : state.slots.map GateSlot.gateId = plan.gates.map PlannedGate.id
  runId : state.runId = plan.runId
  planDigest : state.planDigest = plan.digest
  revision : state.revision = plan.revision
  maximumAttempts : state.maximumAttempts = plan.maximumAttempts

theorem bound_of_run (hrun : GateRun sha256 plan events state) :
    Bound plan state := by
  refine run_invariant (fun _ state => Bound plan state) ?_ ?_ hrun
  · intro first snapshotDigest _
    exact {
      gateIds := by simp [sealState, genesis, GateSlot.pending, Function.comp_def]
      runId := rfl
      planDigest := rfl
      revision := rfl
      maximumAttempts := rfl }
  · intro events before event after hbound hstepped
    exact {
      gateIds := hstepped.gateIds.trans hbound.gateIds
      runId := hstepped.runId.trans hbound.runId
      planDigest := hstepped.planDigest.trans hbound.planDigest
      revision := hstepped.revision.trans hbound.revision
      maximumAttempts := hstepped.maximumAttempts.trans hbound.maximumAttempts }

theorem nodup_slots (hbound : Bound plan state) :
    (state.slots.map GateSlot.gateId).Nodup := by
  rw [hbound.gateIds]
  exact nodup_gateIds plan

/-- A command kind that applies is accepted with the fences of the state. -/
theorem exists_step {command : GateCommandKind} {sequence : EventSequence}
    {applied : GateRunState} (hbound : Bound plan state)
    (hopen : state.phase ≠ .terminal)
    (hsequence : nextSequence state = .ok sequence)
    (happlied : apply sha256 plan state eventId command = .ok (applied, kind)) :
    ∃ event, event.id = eventId ∧ event.kind = kind ∧
      Steps sha256 plan state event
        (advance sha256 (propagateBlocks plan applied) sequence eventId) := by
  have hshape : state.sequence.get = 0 ↔ some state.lastEventId = none := by
    have hpositive := state.sequence.positive
    constructor
    · intro h
      omega
    · intro h
      cases h
  have hkind : GateCommandKind.isStart command = false := by
    cases command with
    | startRun => cases happlied
    | _ => rfl
  let fenced : GateCommand := ⟨eventId, eventId, state.runId, state.sequence.get,
    some state.lastEventId, state.stateDigest, state.revision, command, hshape⟩
  refine ⟨(transition sha256 state fenced sequence (propagateBlocks plan applied)
    kind).event, rfl, rfl, fenced, .inl ?_⟩
  simp only [decideCommand, validateFences, fencesMatch, bind_eq_ok_iff,
    exists_unit_iff, ensure_eq_ok_iff, Bool.and_eq_true, decide_eq_true_eq,
    Bool.not_eq_true']
  exact ⟨⟨⟨⟨⟨hbound.runId, hbound.planDigest⟩, hbound.revision⟩, ⟨⟨⟨⟨⟨hopen, rfl⟩,
    rfl⟩, rfl⟩, rfl⟩, rfl⟩⟩, hkind⟩, sequence, hsequence, (applied, kind),
    happlied, rfl⟩

theorem nextSequence_eq_ok (hroom : state.sequence.get < u64Max) :
    ∃ sequence, nextSequence state = .ok sequence ∧
      sequence.get = state.sequence.get + 1 := by
  refine ⟨⟨state.sequence.get + 1, Nat.succ_pos _, hroom⟩, ?_, rfl⟩
  have hroom' : state.sequence.get + 1 ≤ u64Max := hroom
  simp [nextSequence, PositiveNumber.checkedNext, hroom', Except.mapError]

/-- A run goes on with any command that applies. -/
theorem exists_gateRun_snoc (eventId : EventId) (command : GateCommandKind)
    {applied : GateRunState} (hrun : GateRun sha256 plan events state) (hopen : state.phase ≠ .terminal)
    (hroom : state.sequence.get < u64Max)
    (happlied : apply sha256 plan state eventId command = .ok (applied, kind)) :
    ∃ event next, event.id = eventId ∧ event.kind = kind ∧
      next.sequence.get = state.sequence.get + 1 ∧
      Stepped sha256 plan state event next ∧
      GateRun sha256 plan (events ++ [event]) next := by
  obtain ⟨sequence, hsequence, hget⟩ := nextSequence_eq_ok hroom
  obtain ⟨event, hid, hkind, hstep⟩ :=
    exists_step (bound_of_run hrun) hopen hsequence happlied
  exact ⟨event, _, hid, hkind, hget, stepped_of_steps hstep,
    gateRun_snoc hrun hstep⟩

/-! ### What a slot holds -/

/-- The result event of a slot is in the log of the run. -/
def Observed (events : List GateEvent) (slot : GateSlot)
    (attempt : ActiveAttempt) (result : GateAttemptResult)
    (resultEvent : EventId) : Prop :=
  ∃ event ∈ events, event.id = resultEvent ∧
    event.kind = .resultObserved slot.gateId attempt.executionId result

/-- The receipt of a passed slot, and what it was compared with. -/
def Proven (sha256 : List UInt8 → Sha256Digest) (plan : GatePlan)
    (events : List GateEvent) (state : GateRunState) (slot : GateSlot) : Prop :=
  ∃ gate attempt result resultEvent receipt,
    plan.gate slot.gateId = some gate ∧ slot.active = some attempt ∧
    slot.lastResult = some result ∧ slot.resultEvent = some resultEvent ∧
    slot.evidence = some receipt ∧
    Matches sha256 state gate attempt result resultEvent receipt ∧
    ∃ event ∈ events, event.kind =
      .evidencePublished slot.gateId attempt.executionId receipt

structure SlotSound (sha256 : List UInt8 → Sha256Digest) (plan : GatePlan)
    (events : List GateEvent) (state : GateRunState) (slot : GateSlot) :
    Prop where
  attempts : slot.attempts =
    (slot.active.map fun attempt => attempt.ordinal.get).getD 0
  bounded : slot.attempts ≤ state.maximumAttempts
  pending : slot.phase = .pending → slot.active = none ∧ slot.lastResult = none
  retry : slot.phase = .retryPending → slot.attempts < state.maximumAttempts
  result : ∀ result, slot.lastResult = some result →
    ∃ attempt resultEvent, slot.active = some attempt ∧
      slot.resultEvent = some resultEvent ∧
      Observed events slot attempt result resultEvent
  dependencies : slot.active.isSome = true →
    dependenciesSatisfied plan state slot.gateId = true
  passed : slot.phase = .passed → Proven sha256 plan events state slot

/-- The log grows, and the run keeps its identity. -/
structure Extends (plan : GatePlan) (events others : List GateEvent)
    (state next : GateRunState) : Prop where
  events : events ⊆ others
  runId : next.runId = state.runId
  revision : next.revision = state.revision
  maximumAttempts : next.maximumAttempts = state.maximumAttempts
  dependencies : ∀ gateId, dependenciesSatisfied plan state gateId = true →
    dependenciesSatisfied plan next gateId = true

theorem extends_of_stepped (hstepped : Stepped sha256 plan state event next) :
    Extends plan events (events ++ [event]) state next where
  events := List.subset_append_left _ _
  runId := hstepped.runId
  revision := hstepped.revision
  maximumAttempts := hstepped.maximumAttempts
  dependencies := fun _ h => dependenciesSatisfied_of_stepped hstepped h

theorem proven_extends {others : List GateEvent}
    (hextends : Extends plan events others state next)
    (h : Proven sha256 plan events state slot) :
    Proven sha256 plan others next slot := by
  obtain ⟨gate, attempt, result, resultEvent, receipt, hgate, hattempt, hresult,
    hevent, hreceipt, ⟨hpassed, hpublication, hevidence⟩, event, hmem, hkind⟩ := h
  refine ⟨gate, attempt, result, resultEvent, receipt, hgate, hattempt, hresult,
    hevent, hreceipt, ⟨hpassed, ?_, hevidence⟩, event, hextends.events hmem, hkind⟩
  rw [hextends.runId, hextends.revision]
  exact hpublication

/-- A slot that keeps its attempt and its result. -/
theorem slotSound_of_phase {others : List GateEvent}
    (hsound : SlotSound sha256 plan events state slot)
    (hextends : Extends plan events others state next)
    (hgateId : changed.gateId = slot.gateId)
    (hattempts : changed.attempts = slot.attempts)
    (hactive : changed.active = slot.active)
    (hresult : changed.lastResult = slot.lastResult)
    (hevent : changed.resultEvent = slot.resultEvent)
    (hpending : changed.phase = .pending → slot.phase = .pending)
    (hretry : changed.phase = .retryPending →
      slot.attempts < state.maximumAttempts)
    (hpassed : changed.phase = .passed →
      Proven sha256 plan others next changed) :
    SlotSound sha256 plan others next changed where
  attempts := by
    rw [hattempts, hactive]
    exact hsound.attempts
  bounded := by
    rw [hattempts, hextends.maximumAttempts]
    exact hsound.bounded
  pending := by
    intro h
    rw [hactive, hresult]
    exact hsound.pending (hpending h)
  retry := by
    intro h
    rw [hattempts, hextends.maximumAttempts]
    exact hretry h
  result := by
    intro result h
    rw [hresult] at h
    obtain ⟨attempt, resultEvent, hattempt, hfound, event, hmem, hid, hkind⟩ :=
      hsound.result result h
    rw [hactive, hevent]
    refine ⟨attempt, resultEvent, hattempt, hfound, event, hextends.events hmem,
      hid, ?_⟩
    rw [hgateId]
    exact hkind
  dependencies := by
    intro h
    rw [hactive] at h
    rw [hgateId]
    exact hextends.dependencies _ (hsound.dependencies h)
  passed := hpassed

theorem lt_of_resultPhase {runPhase : GateRunPhase} {attempts maximum : Nat}
    {result : GateAttemptResult}
    (h : resultPhase runPhase attempts maximum result = .retryPending) :
    attempts < maximum := by
  unfold resultPhase at h
  split at h
  · cases h
  · split at h
    · cases h
    · cases h
    · split at h
      · cases h
      · split at h
        · cases h
        · next hlimit => omega

theorem lt_of_recoveryPhase {runPhase : GateRunPhase} {attempts maximum : Nat}
    {disposition : RecoveryDisposition}
    (h : recoveryPhase runPhase attempts maximum disposition = .retryPending) :
    attempts < maximum := by
  unfold recoveryPhase at h
  cases disposition <;> split at h <;> first
    | cases h
    | (dsimp only at h
       split at h
       · assumption
       · cases h)

theorem slotSound_of_changes
    (hsound : SlotSound sha256 plan events state slot)
    (hextends : Extends plan events (events ++ [event]) state next)
    (hchanges : Changes sha256 plan state event.id slot event.kind changed) :
    SlotSound sha256 plan (events ++ [event]) next changed := by
  generalize hkind : event.kind = kind at hchanges
  have hlogged : event ∈ events ++ [event] :=
    List.mem_append_right _ List.mem_cons_self
  cases hchanges with
  | same kind hother =>
      exact slotSound_of_phase hsound hextends rfl rfl rfl rfl rfl id
        hsound.retry fun h => proven_extends hextends (hsound.passed h)
  | prepared attempt hactive hphase hordinal hlimit hdependencies =>
      exact {
        attempts := rfl
        bounded := by
          rw [hextends.maximumAttempts]
          exact hlimit
        pending := fun h => by cases h
        retry := fun h => by cases h
        result := fun result h => by cases h
        dependencies := fun _ => hextends.dependencies _ hdependencies
        passed := fun h => by cases h }
  | dispatched attempt hactive hphase hattempt =>
      exact slotSound_of_phase hsound hextends rfl rfl rfl rfl rfl
        (fun h => by cases h) (fun h => by cases h) fun h => by cases h
  | observed attempt result hrunning hphase hattempt hresult =>
      exact {
        attempts := hsound.attempts
        bounded := by
          rw [hextends.maximumAttempts]
          exact hsound.bounded
        pending := fun h => absurd h resultPhase_ne
        retry := by
          intro h
          rw [hextends.maximumAttempts]
          exact lt_of_resultPhase h
        result := by
          intro found h
          cases h
          exact ⟨attempt, event.id, hattempt, rfl, event, hlogged, rfl, hkind⟩
        dependencies := fun h =>
          hextends.dependencies _ (hsound.dependencies h)
        passed := fun h => absurd h resultPhase_ne }
  | recovered attempt disposition hrunning hphase hattempt =>
      exact slotSound_of_phase hsound hextends rfl rfl rfl rfl rfl
        (fun h => absurd h recoveryPhase_ne) lt_of_recoveryPhase
        fun h => absurd h recoveryPhase_ne
  | published attempt result resultEvent receipt gate hactive hphase hattempt
      hresult hevent hgate hmatches =>
      refine slotSound_of_phase hsound hextends rfl rfl rfl rfl rfl
        (fun h => by cases h) (fun h => by cases h) fun _ => ?_
      obtain ⟨hpassed, hpublication, hevidence⟩ := hmatches
      refine ⟨gate, attempt, result, resultEvent, receipt, hgate, hattempt,
        hresult, hevent, rfl, ⟨hpassed, ?_, hevidence⟩, event, hlogged, hkind⟩
      rw [hextends.runId, hextends.revision]
      exact hpublication
  | cancelled hphase =>
      exact slotSound_of_phase hsound hextends rfl rfl rfl rfl rfl
        (fun h => by cases h) (fun h => by cases h) fun h => by cases h

theorem slotSound_of_block {blocker : GateId}
    (hsound : SlotSound sha256 plan events state slot)
    (hpending : slot.phase = .pending) {others : List GateEvent} :
    SlotSound sha256 plan others next (slot.block blocker) := by
  obtain ⟨hnone, hresult⟩ := hsound.pending hpending
  have hattempts : slot.attempts = 0 := by
    rw [hsound.attempts, hnone]
    rfl
  exact {
    attempts := hattempts
    bounded := by
      change slot.attempts ≤ _
      rw [hattempts]
      exact Nat.zero_le _
    pending := fun h => by cases h
    retry := fun h => by cases h
    result := by
      intro result h
      change slot.lastResult = some result at h
      rw [hresult] at h
      cases h
    dependencies := fun h => by cases h
    passed := fun h => by cases h }

/-- The slot a gate had before a step. -/
theorem exists_slot_before (hstepped : Stepped sha256 plan state event next)
    (hslot : next.slot gateId = some changed) :
    ∃ slot, state.slot gateId = some slot := by
  have hmem := slot_isSome_iff.mp (Option.isSome_iff_exists.mpr ⟨_, hslot⟩)
  rw [hstepped.gateIds] at hmem
  exact Option.isSome_iff_exists.mp (slot_isSome_iff.mpr hmem)

theorem slotSound_of_run (hrun : GateRun sha256 plan events state)
    (hslot : state.slot gateId = some slot) :
    SlotSound sha256 plan events state slot := by
  refine run_invariant (fun events state => ∀ gateId slot,
    state.slot gateId = some slot → SlotSound sha256 plan events state slot)
    ?_ ?_ hrun gateId slot hslot
  · intro first snapshotDigest _ gateId slot hslot
    have hmem := mem_of_slot hslot
    obtain ⟨gate, -, rfl⟩ := List.mem_map.mp hmem
    exact {
      attempts := rfl
      bounded := Nat.zero_le _
      pending := fun _ => ⟨rfl, rfl⟩
      retry := fun h => by cases h
      result := fun result h => by cases h
      dependencies := fun h => by cases h
      passed := fun h => by cases h }
  · intro events before event after hbefore hstepped gateId slot hslot
    obtain ⟨prior, hprior⟩ := exists_slot_before hstepped hslot
    have hsound := hbefore gateId prior hprior
    rcases hstepped.slots gateId prior hprior with ⟨changed, hchanged, hchanges⟩ |
      ⟨hpending, -, gate, blocker, -, -, -, hblocked⟩
    · rw [hslot] at hchanged
      cases hchanged
      exact slotSound_of_changes hsound (extends_of_stepped hstepped) hchanges
    · rw [hslot] at hblocked
      cases hblocked
      exact slotSound_of_block hsound hpending

end Settled

end Peritus.Gates.Invariant
