import Peritus.Agent.Closure

/-!
The pace of a turn and its end: the cursor counts the events, the limits bound
them, and an open turn, whatever its phase, can still be failed.
-/

namespace Peritus.Agent.Endings

open Peritus.Types Checked TransitionSystem State Reducer Edits Closure

variable {sha256 : List UInt8 → Sha256Digest} {state counted applied next : AgentTurnState}
variable {event : AgentEvent} {events : List AgentEvent} {kind : AgentCommandKind}
variable {failure : AgentFailure} {count : Nat}

/-! ### The pace -/

/-- The cursor after a number of events, within the limits. -/
structure Paced (count : Nat) (state : AgentTurnState) : Prop where
  sequence : state.sequence.get = count
  revision : state.logicalRevision.get = count
  bounded : count ≤ state.limits.maxTransitions + 1
  counted : state.phase.isTerminal = false →
    state.counters.transitions = count ∧ count ≤ state.limits.maxTransitions

theorem cursor_of_step (hstep : Steps sha256 state event next) :
    next.sequence.get = state.sequence.get + 1 ∧
      next.logicalRevision.get = state.logicalRevision.get + 1 := by
  obtain ⟨command, h⟩ := hstep
  simp only [reduce, bind_eq_ok_iff, exists_unit_iff, mapError_eq_ok_iff,
    PositiveNumber.checkedNext_eq_ok_iff, Except.ok.injEq, AgentTransition.mk.injEq] at h
  obtain ⟨-, -, sequence, hsequence, revision, hrevision, _, -, _, -, -, rfl⟩ := h
  exact ⟨hsequence, hrevision⟩

theorem kept_of_edit (hedit : Edit sha256 counted kind applied) :
    applied.limits = counted.limits ∧
      applied.counters.transitions = counted.counters.transitions := by
  cases hedit <;> exact ⟨rfl, rfl⟩

/-- The exception spares the last transition of a turn and ends it. -/
theorem ends_of_spared (hspared : transitionLimitExhaustion state kind = true) :
    (∃ failure, kind = .exhausted failure ∧ failure.kind = .exhausted .transitions) ∧
      state.counters.transitions = state.limits.maxTransitions := by
  cases kind with
  | exhausted failure =>
      simp only [transitionLimitExhaustion, Bool.and_eq_true, decide_eq_true_eq] at hspared
      exact ⟨⟨failure, rfl, hspared.1⟩, hspared.2⟩
  | _ => simp [transitionLimitExhaustion] at hspared

theorem paced_of_step (hpaced : Paced count state)
    (hstep : Steps sha256 state event next) : Paced (count + 1) next := by
  obtain ⟨hsequence, hrevision⟩ := cursor_of_step hstep
  obtain ⟨kind, counted, applied, haccepted⟩ := exists_accepted hstep
  obtain ⟨hlimits, htransitions⟩ := kept_of_edit haccepted.edit
  obtain ⟨hspent, hroom⟩ := hpaced.counted haccepted.unfinished
  have hnext : next.limits = applied.limits ∧ next.phase = applied.phase ∧
      next.counters = applied.counters := by
    rw [haccepted.successor]
    exact ⟨rfl, rfl, rfl⟩
  have hsame : counted.limits = state.limits := by
    cases haccepted.counts <;> rfl
  have hlimit : next.limits = state.limits :=
    hnext.1.trans (hlimits.trans hsame)
  refine ⟨by rw [hsequence, hpaced.sequence], by rw [hrevision, hpaced.revision], ?_, ?_⟩
  · rw [hlimit]
    exact Nat.succ_le_succ hroom
  · intro hopen
    rw [hlimit, hnext.2.2, htransitions]
    rw [hnext.2.1] at hopen
    have hedit := haccepted.edit
    cases haccepted.counts with
    | spared hspared =>
        obtain ⟨⟨failure, rfl, -⟩, -⟩ := ends_of_spared hspared
        cases hedit
        cases hopen
    | counted hless => exact ⟨congrArg (· + 1) hspent, hspent ▸ hless⟩

theorem paced_of_turn (hturn : Turn sha256 events state) :
    Paced events.length state := by
  obtain ⟨first, initial, rest, ⟨binding, limits, commandId, eventId, hstart⟩, hrun,
    rfl⟩ := hturn
  obtain ⟨hlimit, -, -, -, rfl⟩ := start_eq_ok hstart
  refine @Run.log_invariant _ _ (Steps sha256)
    (fun log state => Paced log.length state) ?_ _ _ [first] _ hrun ?_
  · intro log before event after hpaced hstep
    rw [List.length_append]
    exact paced_of_step hpaced hstep
  · exact ⟨rfl, rfl, Nat.le_succ_of_le hlimit, fun _ => ⟨rfl, hlimit⟩⟩

/-! ### The end -/

/-- The command that ends a turn with a failure. -/
def ending (failure : AgentFailure) : AgentCommandKind :=
  if AgentFailureKind.isExhausted failure.kind then .exhausted failure
  else .failed failure

/-- Neither the phase of an open turn nor anything else in it keeps an ending
from being applied. -/
theorem applyKind_ending (hopen : state.phase.isTerminal = false) :
    applyKind sha256 state (ending failure) = .ok { state with
      phase := .terminal .failed
      failure := some failure
      completion := none } := by
  have hphase : nonterminalFailure state.phase = .ok (.terminal .failed) := by
    cases hcurrent : state.phase with
    | terminal => simp [hcurrent, AgentPhase.isTerminal] at hopen
    | _ => rfl
  unfold ending
  split
  all_goals
    rename_i hexhausted
    simp [applyKind, applyOrdinary, commandPhaseTransition, hphase, fail, hexhausted,
      Except.mapError, bind, Except.bind]

theorem countTransition_ending (hspent : state.counters.transitions = count)
    (hroom : count < state.limits.maxTransitions ∨
      count = state.limits.maxTransitions ∧ failure.kind = .exhausted .transitions) :
    ∃ counted, countTransition state (ending failure) = .ok counted ∧
      counted.phase = state.phase := by
  unfold countTransition
  split
  · exact ⟨state, rfl, rfl⟩
  · next hcounted =>
      rcases hroom with hroom | ⟨hlast, hkind⟩
      · have hbound := state.limits.transitions.2
        have hwidth : state.counters.transitions + 1 < 2 ^ 32 := by omega
        have hlimit : state.counters.transitions + 1 ≤ state.limits.maxTransitions := by
          omega
        have hcounters : state.counters.transition state.limits = .ok
            { state.counters with transitions := state.counters.transitions + 1 } := by
          simp only [AgentCounters.transition, bind_eq_ok_iff, checkedAdd_eq_ok_iff,
            AgentCounters.check, ensure_eq_ok_iff, decide_eq_true_eq]
          exact ⟨_, ⟨hwidth, rfl⟩, (), hlimit, rfl⟩
        rw [hcounters]
        exact ⟨_, rfl, rfl⟩
      · refine absurd ?_ hcounted
        simp [transitionLimitExhaustion, ending, AgentFailureKind.isExhausted, hkind,
          hspent, hlast]

theorem exists_next {number : PositiveNumber} (h : number.get < u64Max) :
    ∃ following, number.checkedNext = .ok following :=
  ⟨⟨number.get + 1, Nat.succ_pos _, h⟩, PositiveNumber.checkedNext_eq_ok_iff.mpr rfl⟩

/-- The cursor of a turn is its number of events, at most one more than the limit
on transitions.  While the turn is open it is within the limit: below it any failure
ends the turn, and at it all that is accepted is that the transitions are exhausted. -/
theorem turn_ends (hturn : Turn sha256 events state) :
    state.sequence.get = events.length ∧ state.logicalRevision.get = events.length ∧
    events.length ≤ state.limits.maxTransitions + 1 ∧
    (state.phase.isTerminal = false →
      events.length ≤ state.limits.maxTransitions ∧
      (∀ id ≠ state.lastEventId, ∀ failure : AgentFailure,
        events.length < state.limits.maxTransitions ∨
          failure.kind = .exhausted .transitions →
        ∃ event next, event.id = id ∧ Steps sha256 state event next ∧
          next.phase = .terminal .failed ∧ next.failure = some failure) ∧
      (events.length = state.limits.maxTransitions → ∀ event next,
        Steps sha256 state event next → ∃ failure : AgentFailure,
          event.kind = .commandAccepted (.exhausted failure) ∧
          failure.kind = .exhausted .transitions)) := by
  have hpaced := paced_of_turn hturn
  refine ⟨hpaced.sequence, hpaced.revision, hpaced.bounded, fun hopen => ?_⟩
  obtain ⟨hspent, hroom⟩ := hpaced.counted hopen
  refine ⟨hroom, ?_, ?_⟩
  · intro id hfresh failure hless
    have hwide : events.length < u64Max :=
      hroom.trans_lt (Nat.lt_of_le_of_lt state.limits.transitions.2 (by decide))
    obtain ⟨sequence, hsequence⟩ := exists_next (hpaced.sequence.trans_lt hwide)
    obtain ⟨revision, hrevision⟩ := exists_next (hpaced.revision.trans_lt hwide)
    obtain ⟨counted, hcounted, hphase⟩ := countTransition_ending hspent
      (hroom.lt_or_eq.imp_right fun hlast =>
        ⟨hlast, hless.resolve_left hlast.not_lt⟩)
    have hadvance : advance sha256 state id (ending failure) = some
        (finishTransition sha256 { counted with
          phase := .terminal .failed
          failure := some failure
          completion := none } sequence revision id) := by
      rw [advance, if_pos ⟨hopen, hfresh⟩, hsequence, hrevision, hcounted]
      dsimp only
      rw [applyKind_ending (hphase ▸ hopen)]
    obtain ⟨event, hid, -, hstep⟩ := steps_of_advance hadvance
    exact ⟨event, _, hid, hstep, rfl, rfl⟩
  · intro hlast event next hstep
    obtain ⟨kind, counted, applied, haccepted⟩ := exists_accepted hstep
    cases haccepted.counts with
    | spared hspared =>
        obtain ⟨⟨failure, rfl, hkind⟩, -⟩ := ends_of_spared hspared
        exact ⟨failure, haccepted.recorded, hkind⟩
    | counted hless => omega

theorem turn_ends_at_genesis : ∃ event next,
    Steps (fun _ => zeroDigest) (smallStart fun _ => zeroDigest) event next ∧
      next.phase = .terminal .failed := by
  have hturn : Turn (fun _ => zeroDigest) [smallFirst fun _ => zeroDigest]
      (smallStart fun _ => zeroDigest) :=
    ⟨_, _, [], starts_smallStart _, .nil _, rfl⟩
  obtain ⟨-, hfails, -⟩ := (turn_ends hturn).2.2.2 rfl
  obtain ⟨event, next, -, hstep, hphase, -⟩ :=
    hfails (smallId 2) (by decide) smallFailure (.inl (by decide))
  exact ⟨event, next, hstep, hphase⟩

end Peritus.Agent.Endings
