import Peritus.Gates.Truth

/-!
The reducer with the plan and the one without it.  Every state of a run has no
gate left to block, so that a pause or a resume does the same with the
propagation of blocks as without it, and a replay, which always propagates,
repeats a run whichever of the two took its lifecycle steps.
-/

namespace Peritus.Gates.Lifecycle

open Peritus.Types Checked TransitionSystem Canonical State Reducer Blocking Edits
open Invariant Truth

section Agreement

variable {sha256 : List UInt8 → Sha256Digest} {plan : GatePlan}
  {state next initial final : GateRunState} {event first : GateEvent}
  {events rest : List GateEvent} {command : GateCommand} {found : GateTransition}
  {ids : List EventId}

/-! ### No gate is left to block -/

/-- The propagation reads and writes slots only. -/
theorem unblocked_of_slots (hslots : next.slots = state.slots)
    (h : Unblocked plan state ids) : Unblocked plan next ids := by
  have hslot : ∀ id, next.slot id = state.slot id := by
    intro id
    unfold GateRunState.slot
    rw [hslots]
  have hblocker : isBlocker next = isBlocker state := by
    funext dependency
    unfold isBlocker
    rw [hslot]
  intro id hid slot hfound hpending
  rw [hslot] at hfound
  unfold blockerOf
  rw [hblocker]
  exact h id hid slot hfound hpending

/-- One pass over gates that are not blocked changes nothing. -/
theorem foldl_of_unblocked (h : Unblocked plan state ids) (changed : Bool) :
    ids.foldl (blockGate plan) (state, changed) = (state, changed) := by
  induction ids with
  | nil => rfl
  | cons id ids ih =>
      have hone : blockGate plan (state, changed) id = (state, changed) := by
        unfold blockGate
        dsimp only
        cases hslot : state.slot id with
        | none => rfl
        | some slot =>
            by_cases hpending : slot.phase = .pending
            · simp [hpending, h id List.mem_cons_self slot hslot hpending]
            · simp [hpending]
      rw [List.foldl_cons, hone]
      exact ih fun other hother => h other (List.mem_cons_of_mem _ hother)

theorem propagateBlocks_of_unblocked
    (h : Unblocked plan state plan.executionOrder) :
    propagateBlocks plan state = state := by
  have hpass : blockPass plan state = (state, false) :=
    foldl_of_unblocked h false
  unfold propagateBlocks blockRounds
  rw [hpass]
  rfl

theorem unblocked_of_steps (hstep : Steps sha256 plan state event next)
    (h : Unblocked plan state plan.executionOrder) :
    Unblocked plan next plan.executionOrder := by
  obtain ⟨command, hdecide | hlifecycle⟩ := hstep
  · simp only [decideCommand, bind_eq_ok_iff, exists_unit_iff, Except.ok.injEq,
      transition, GateTransition.mk.injEq] at hdecide
    obtain ⟨-, sequence, -, ⟨applied, kind⟩, -, -, rfl⟩ := hdecide
    exact unblocked_of_slots rfl (propagateBlocks_spec plan applied).2
  · simp only [decideLifecycle, bind_eq_ok_iff, exists_unit_iff,
      Except.ok.injEq, transition, GateTransition.mk.injEq] at hlifecycle
    obtain ⟨-, sequence, -, ⟨applied, kind⟩, happlied, -, rfl⟩ := hlifecycle
    have hslots : applied.slots = state.slots := slots_of_lifecycle happlied
    exact unblocked_of_slots hslots h

/-- A gate that has not started blocks no other. -/
theorem unblocked_of_start (hstart : Starts sha256 plan first initial) :
    Unblocked plan initial plan.executionOrder := by
  obtain ⟨snapshotDigest, -, rfl⟩ := start_eq_ok hstart
  intro id _ slot _ _
  unfold blockerOf
  rw [Option.bind_eq_none_iff]
  intro gate _
  rw [List.find?_eq_none]
  intro dependency _ hblocker
  obtain ⟨blocker, hfound, hsettled, -⟩ := isBlocker_iff.mp hblocker
  obtain ⟨planned, -, rfl⟩ := List.mem_map.mp (mem_of_slot hfound)
  cases hsettled

theorem unblocked_of_run (hrun : GateRun sha256 plan events state) :
    Unblocked plan state plan.executionOrder := by
  obtain ⟨first, initial, rest, hstart, hsteps, -⟩ := hrun
  refine @Run.invariant _ _ _
    (fun state => Unblocked plan state plan.executionOrder) ?_ _ _ _ hsteps
    (unblocked_of_start hstart)
  intro before event after hbefore hstep
  exact unblocked_of_steps hstep hbefore

/-! ### Pause and resume -/

theorem apply_of_isLifecycle (eventId : EventId)
    {kind : GateCommandKind} (h : GateCommandKind.isLifecycle kind = true) :
    apply sha256 plan state eventId kind = applyLifecycle state kind := by
  cases kind with
  | pauseRun => rfl
  | resumeRun => rfl
  | _ => cases h

theorem isStart_of_isLifecycle {kind : GateCommandKind}
    (h : GateCommandKind.isLifecycle kind = true) :
    GateCommandKind.isStart kind = false := by
  cases kind with
  | startRun => cases h
  | _ => rfl

/-- Beside the plan, which every state of a run is bound to, both check the
same fences. -/
theorem validateFences_iff (hbound : Bound plan state)
    (hkind : GateCommandKind.isLifecycle command.kind = true) :
    validateFences plan state command = .ok () ↔
      validateLifecycleFences state command = .ok () := by
  simp only [validateFences, validateLifecycleFences, ensure_eq_ok_iff,
    hbound.runId, hbound.planDigest, hbound.revision, hkind,
    isStart_of_isLifecycle hkind, decide_true, Bool.true_and, Bool.and_true,
    Bool.not_false]

/-- The two reducers accept the same pauses and resumes, with the same event
and the same successor. -/
theorem decide_iff_decideLifecycle (hbound : Bound plan state)
    (hunblocked : Unblocked plan state plan.executionOrder)
    (hkind : GateCommandKind.isLifecycle command.kind = true) :
    decideCommand sha256 plan state command = .ok found ↔
      decideLifecycle sha256 state command = .ok found := by
  unfold decideCommand decideLifecycle
  rw [check_bind_eq_ok_iff, check_bind_eq_ok_iff,
    validateFences_iff hbound hkind, apply_of_isLifecycle _ hkind]
  have hsame : ∀ applied, applyLifecycle state command.kind = .ok applied →
      propagateBlocks plan applied.1 = applied.1 := by
    intro applied happlied
    exact propagateBlocks_of_unblocked
      (unblocked_of_slots (slots_of_lifecycle happlied) hunblocked)
  apply and_congr_right
  intro _
  constructor
  · intro h
    obtain ⟨sequence, hsequence, h⟩ := bind_eq_ok_iff.mp h
    obtain ⟨applied, happlied, h⟩ := bind_eq_ok_iff.mp h
    rw [hsame applied happlied] at h
    rw [hsequence, bind_eq_ok_iff]
    refine ⟨sequence, rfl, ?_⟩
    rw [happlied]
    exact h
  · intro h
    obtain ⟨sequence, hsequence, h⟩ := bind_eq_ok_iff.mp h
    obtain ⟨applied, happlied, h⟩ := bind_eq_ok_iff.mp h
    rw [hsequence, bind_eq_ok_iff]
    refine ⟨sequence, rfl, ?_⟩
    rw [happlied, bind_eq_ok_iff]
    refine ⟨applied, rfl, ?_⟩
    rw [hsame applied happlied]
    exact h

theorem isLifecycle_of_decideLifecycle
    (h : decideLifecycle sha256 state command = .ok found) :
    GateCommandKind.isLifecycle command.kind = true := by
  simp only [decideLifecycle, check_bind_eq_ok_iff, validateLifecycleFences,
    ensure_eq_ok_iff, Bool.and_eq_true] at h
  exact h.1.2

/-! ### Replay -/

/-- A step of either reducer is one of the reducer with the plan. -/
theorem exists_decide_of_steps (hrun : GateRun sha256 plan events state)
    (hstep : Steps sha256 plan state event next) :
    ∃ command, decideCommand sha256 plan state command = .ok ⟨event, next⟩ := by
  obtain ⟨command, hdecide | hlifecycle⟩ := hstep
  · exact ⟨command, hdecide⟩
  · exact ⟨command, (decide_iff_decideLifecycle (bound_of_run hrun)
      (unblocked_of_run hrun) (isLifecycle_of_decideLifecycle hlifecycle)).mpr
      hlifecycle⟩

/-- The command that the replay rebuilds is the one that was decided. -/
theorem commandFromEvent_of_decide
    (h : decideCommand sha256 plan state command = .ok ⟨event, next⟩) :
    commandFromEvent event state.sequence.get (some state.lastEventId) =
      .ok command := by
  simp only [decideCommand, validateFences, fencesMatch, bind_eq_ok_iff,
    exists_unit_iff, ensure_eq_ok_iff, Bool.and_eq_true, decide_eq_true_eq,
    Except.ok.injEq, transition, GateTransition.mk.injEq] at h
  obtain ⟨⟨⟨-, ⟨⟨⟨-, hsequence⟩, hprevious⟩, hprior⟩⟩, -⟩, sequence, -,
    ⟨applied, kind⟩, happlied, rfl, -⟩ := h
  obtain ⟨commandId, eventId, runId, _, _, _, revision, commandKind, hshape⟩ :=
    command
  dsimp only at hsequence hprevious hprior happlied
  subst hsequence hprevious hprior
  unfold commandFromEvent
  rw [dif_pos hshape]
  dsimp only
  rw [commandKind_of_apply happlied]

theorem replayEvents_eq_ok_iff (hrun : GateRun sha256 plan events state)
    (hsteps : Run (Steps sha256 plan) state rest next) :
    replayEvents sha256 plan state ids rest = .ok final ↔
      final = next ∧ (rest.map GateEvent.id).Nodup ∧
        ∀ event ∈ rest, event.id ∉ ids := by
  induction hsteps generalizing ids events with
  | nil state =>
      constructor
      · intro h
        cases h
        exact ⟨rfl, List.nodup_nil, by simp⟩
      · rintro ⟨rfl, -⟩
        rfl
  | @cons state event middle rest next hstep hrest ih =>
      obtain ⟨command, hdecide⟩ := exists_decide_of_steps hrun hstep
      unfold replayEvents
      rw [ensure_bind_eq_ok_iff, commandFromEvent_of_decide hdecide]
      simp only [bind_eq_ok_iff, exists_unit_iff, Except.ok.injEq,
        exists_eq_left', hdecide, ensure_eq_ok_iff, decide_eq_true_eq, true_and,
        ih (gateRun_snoc hrun hstep), List.map_cons, List.nodup_cons]
      rw [List.forall_mem_cons]
      constructor
      · rintro ⟨hfresh, rfl, hnodup, hothers⟩
        refine ⟨rfl, ⟨?_, hnodup⟩, hfresh, ?_⟩
        · intro hrepeated
          obtain ⟨other, hother, hid⟩ := List.mem_map.mp hrepeated
          apply hothers other hother
          rw [hid]
          exact List.mem_cons_self
        · intro other hother hseen
          exact hothers other hother (List.mem_cons_of_mem _ hseen)
      · rintro ⟨rfl, ⟨hnew, hnodup⟩, hfresh, hothers⟩
        refine ⟨hfresh, rfl, hnodup, ?_⟩
        intro other hother hseen
        rcases List.mem_cons.mp hseen with hid | hseen
        · apply hnew
          rw [← hid]
          exact List.mem_map_of_mem hother
        · exact hothers other hother hseen

theorem commandFromEvent_of_start
    (hstart : start sha256 plan command = .ok ⟨first, initial⟩) :
    commandFromEvent first 0 none = .ok command := by
  unfold start at hstart
  split at hstart
  · next snapshotDigest hkind =>
      simp only [check_bind_eq_ok_iff, ensure_eq_ok_iff, Bool.and_eq_true,
        decide_eq_true_eq, Option.isNone_iff_eq_none, Except.ok.injEq,
        GateTransition.mk.injEq] at hstart
      obtain ⟨⟨⟨⟨-, hsequence⟩, hprevious⟩, hprior⟩, rfl, -⟩ := hstart
      obtain ⟨commandId, eventId, runId, _, _, _, revision, kind, hshape⟩ :=
        command
      dsimp only at hkind hsequence hprevious hprior
      subst hkind hsequence hprevious hprior
      unfold commandFromEvent
      rw [dif_pos hshape]
      rfl
  · cases hstart

theorem replay_of_start (hstart : Starts sha256 plan first initial) :
    replay sha256 plan (first :: rest) =
      replayEvents sha256 plan initial [first.id] rest := by
  obtain ⟨command, hstart⟩ := hstart
  have hcommand := commandFromEvent_of_start hstart
  unfold replay
  dsimp only
  rw [hcommand]
  change start sha256 plan command >>= _ = _
  rw [hstart]
  change ensure (decide (first = first)) _ >>= _ = _
  rw [decide_eq_true rfl]
  rfl

theorem replay_eq_ok_iff (hrun : GateRun sha256 plan events state) :
    replay sha256 plan events = .ok final ↔
      final = state ∧ (events.map GateEvent.id).Nodup := by
  obtain ⟨first, initial, rest, hstart, hsteps, rfl⟩ := hrun
  have hgenesis : GateRun sha256 plan [first] initial :=
    ⟨first, initial, [], hstart, .nil _, rfl⟩
  rw [replay_of_start hstart, replayEvents_eq_ok_iff hgenesis hsteps,
    List.map_cons, List.nodup_cons]
  constructor
  · rintro ⟨rfl, hnodup, hothers⟩
    refine ⟨rfl, ?_, hnodup⟩
    intro hrepeated
    obtain ⟨other, hother, hid⟩ := List.mem_map.mp hrepeated
    exact hothers other hother (hid ▸ List.mem_singleton_self _)
  · rintro ⟨rfl, hnew, hnodup⟩
    refine ⟨rfl, hnodup, fun other hother hseen => hnew ?_⟩
    rw [← List.mem_singleton.mp hseen]
    exact List.mem_map_of_mem hother

/-- Whether the two reducers agree on every pause and every resume. -/
def Agree (sha256 : List UInt8 → Sha256Digest) (plan : GatePlan)
    (state : GateRunState) : Prop :=
  ∀ command : GateCommand, command.kind = .pauseRun ∨ command.kind = .resumeRun →
    ∀ found, decideLifecycle sha256 state command = .ok found ↔
      decideCommand sha256 plan state command = .ok found

theorem agree_of_run (hrun : GateRun sha256 plan events state) :
    Agree sha256 plan state := by
  intro command hkind found
  refine (decide_iff_decideLifecycle (bound_of_run hrun) (unblocked_of_run hrun)
    ?_).symm
  rcases hkind with hkind | hkind
  · rw [hkind]
    rfl
  · rw [hkind]
    rfl

/-- In every run the two reducers agree, and the replay reproduces the run
exactly if no event identity occurs twice in it. -/
theorem lifecycle_without_plan (hrun : GateRun sha256 plan events state) :
    Agree sha256 plan state ∧
      (replay sha256 plan events = .ok state ↔
        (events.map GateEvent.id).Nodup) := by
  refine ⟨agree_of_run hrun, ?_⟩
  rw [replay_eq_ok_iff hrun]
  exact and_iff_right rfl

end Agreement

/-! ### A pause under the identity of the start -/

def repeatedRequests : List Request := [(smallId 1, .pauseRun)]

theorem accepted_repeatedRequests (sha256 : List UInt8 → Sha256Digest) :
    (attempts sha256 smallPlan (smallStart sha256) repeatedRequests).map
      GateRunState.phase = some (.paused .active) := by
  cbv

/-- Whatever the hash, the pause is accepted and the replay refuses it. -/
theorem paused_run_not_replayed : ¬ ∃ sha256, ∀ plan events state,
    GateRun sha256 plan events state →
      Agree sha256 plan state ∧ replay sha256 plan events = .ok state := by
  rintro ⟨sha256, hclaim⟩
  obtain ⟨state, hstate, -⟩ :=
    Option.map_eq_some_iff.mp (accepted_repeatedRequests sha256)
  obtain ⟨first, hid, -, hfirst⟩ := gateRun_genesis sha256 smallPlan zeroDigest
    (smallId 1)
  obtain ⟨rest, hrequests, hrun⟩ := gateRun_of_attempts hfirst hstate
  have hreplay := (hclaim smallPlan _ state hrun).2
  have hnodup := ((replay_eq_ok_iff hrun).mp hreplay).2
  have hids : rest.map GateEvent.id = [smallId 1] := by
    rw [show GateEvent.id = Prod.fst ∘ fun event : GateEvent =>
      (event.id, commandKind event.kind) from rfl, ← List.map_map, hrequests]
    rfl
  rw [List.map_append, hids, List.map_singleton, hid] at hnodup
  exact absurd hnodup (by decide)

theorem lifecycle_without_plan_of_pause : ∃ events state,
    GateRun (fun _ => zeroDigest) smallPlan events state ∧
      state.phase = .paused .active ∧
      Agree (fun _ => zeroDigest) smallPlan state ∧
      (replay (fun _ => zeroDigest) smallPlan events = .ok state ↔
        (events.map GateEvent.id).Nodup) := by
  obtain ⟨state, hstate, hphase⟩ :=
    Option.map_eq_some_iff.mp (accepted_repeatedRequests fun _ => zeroDigest)
  obtain ⟨first, -, -, hfirst⟩ := gateRun_genesis (fun _ => zeroDigest) smallPlan
    zeroDigest (smallId 1)
  obtain ⟨rest, -, hrun⟩ := gateRun_of_attempts hfirst hstate
  exact ⟨_, state, hrun, hphase, lifecycle_without_plan hrun⟩

end Peritus.Gates.Lifecycle
