import Peritus.Agent.Closure

/-!
Replay and the reducer.  They run the same command on the same state, but the
reducer remembers the last event identity only and the replay all of them: a
list of events is replayed exactly if it is a turn without a repeated identity.
-/

namespace Peritus.Agent.Replay

open Peritus.Types Checked TransitionSystem State Reducer Edits

section Replay

variable {sha256 : List UInt8 → Sha256Digest} {state counted next final :
    AgentTurnState} {event : AgentEvent} {events rest : List AgentEvent}
  {ids : List EventId} {kind : AgentCommandKind}

/-- No command is legal in a terminal phase. -/
theorem unfinished_of_edit (hedit : Edit sha256 state kind next) :
    state.phase.isTerminal = false := by
  cases hedit with
  | failed failure hphase => exact hphase
  | exhausted failure hphase => exact hphase
  | cancellationRequested hphase =>
      rcases hphase with ⟨active, hphase⟩ | hphase <;> rw [hphase] <;> rfl
  | _ => simp_all [AgentPhase.isTerminal]

theorem phase_of_counted (hcounted : Counted state kind counted) :
    counted.phase = state.phase := by
  cases hcounted <;> rfl

/-- One event is replayed exactly if the reducer emits it and its identity is
new. -/
theorem replayEvent_eq_ok_iff (hlast : state.lastEventId ∈ ids) :
    replayEvent sha256 state ids event = .ok next ↔
      Steps sha256 state event next ∧ event.id ∉ ids := by
  unfold replayEvent Steps
  rw [ensure_bind_eq_ok_iff, decide_eq_true_eq]
  constructor
  · rintro ⟨hfresh, h⟩
    refine ⟨?_, hfresh⟩
    split at h
    · cases h
    · next kind hkind =>
        simp only [bind_eq_ok_iff, exists_unit_iff, mapError_eq_ok_iff,
          ensure_eq_ok_iff, Bool.and_eq_true, decide_eq_true_eq,
          Except.ok.injEq] at h
        obtain ⟨sequence, hsequence, revision, hrevision,
          ⟨⟨⟨⟨⟨⟨hat, hprior⟩, hprevious⟩, hphase⟩, hresumable⟩, hsuccessor⟩,
            hdigest⟩, counted, hcounted, applied, happlied, hsealed, rfl⟩ := h
        refine ⟨⟨event.commandId, event.id, state.logicalRevision,
          state.stateDigest, kind⟩, ?_⟩
        have hopen : state.phase.isTerminal = false := by
          rw [← phase_of_counted (counted_of_countTransition hcounted)]
          exact unfinished_of_edit (edit_of_applyKind happlied)
        have hnew : event.id ≠ state.lastEventId :=
          fun h => hfresh (h ▸ hlast)
        simp only [reduce, bind_eq_ok_iff, exists_unit_iff, mapError_eq_ok_iff,
          ensure_eq_ok_iff]
        refine ⟨by simpa using hopen, by simpa using hnew, sequence, hsequence,
          revision, hrevision, counted, hcounted, applied, happlied, ?_⟩
        obtain ⟨id, commandId, _, _, _, _, _, _, _, _, _⟩ := event
        dsimp only at hkind hat hprior hprevious hphase hresumable hsuccessor
        dsimp only at hdigest hsealed
        subst hat hprior hprevious hphase hresumable hsuccessor hdigest hkind
        rw [← hsealed]
        rfl
  · rintro ⟨⟨command, h⟩, hfresh⟩
    refine ⟨hfresh, ?_⟩
    simp only [reduce, bind_eq_ok_iff, exists_unit_iff, mapError_eq_ok_iff,
      ensure_eq_ok_iff, Except.ok.injEq, AgentTransition.mk.injEq] at h
    obtain ⟨-, -, sequence, hsequence, revision, hrevision, counted, hcounted,
      applied, happlied, rfl, rfl⟩ := h
    simp only [acceptedEvent, bind_eq_ok_iff, exists_unit_iff,
      mapError_eq_ok_iff, ensure_eq_ok_iff]
    exact ⟨sequence, hsequence, revision, hrevision, by simp, counted, hcounted,
      applied, happlied, by simp, rfl⟩

theorem lastEventId_of_steps (hstep : Steps sha256 state event next) :
    next.lastEventId = event.id := by
  obtain ⟨kind, counted, applied, haccepted⟩ := exists_accepted hstep
  rw [haccepted.successor]
  rfl

theorem replayEvents_eq_ok_iff (hlast : state.lastEventId ∈ ids) :
    replayEvents sha256 state ids rest = .ok final ↔
      Run (Steps sha256) state rest final ∧
        (rest.map AgentEvent.id).Nodup ∧ ∀ event ∈ rest, event.id ∉ ids := by
  induction rest generalizing state ids with
  | nil =>
      constructor
      · intro h
        cases h
        exact ⟨.nil final, List.nodup_nil, by simp⟩
      · rintro ⟨hrun, -⟩
        cases hrun
        rfl
  | cons event rest ih =>
      unfold replayEvents
      simp only [bind_eq_ok_iff, replayEvent_eq_ok_iff hlast, List.map_cons,
        List.nodup_cons, List.forall_mem_cons]
      constructor
      · rintro ⟨next, ⟨hstep, hfresh⟩, hrest⟩
        have hmem : next.lastEventId ∈ event.id :: ids := by
          rw [lastEventId_of_steps hstep]
          exact List.mem_cons_self
        obtain ⟨hrun, hnodup, hothers⟩ := (ih hmem).mp hrest
        refine ⟨.cons hstep hrun, ⟨?_, hnodup⟩, hfresh, ?_⟩
        · intro hrepeated
          obtain ⟨other, hother, hid⟩ := List.mem_map.mp hrepeated
          apply hothers other hother
          rw [hid]
          exact List.mem_cons_self
        · intro other hother hseen
          exact hothers other hother (List.mem_cons_of_mem _ hseen)
      · rintro ⟨hrun, ⟨hnew, hnodup⟩, hfresh, hothers⟩
        cases hrun with
        | cons hstep hrun =>
            refine ⟨_, ⟨hstep, hfresh⟩, (ih ?_).mpr ⟨hrun, hnodup, ?_⟩⟩
            · rw [lastEventId_of_steps hstep]
              exact List.mem_cons_self
            · intro other hother hseen
              rcases List.mem_cons.mp hseen with hid | hseen
              · exact hnew (hid ▸ List.mem_map_of_mem hother)
              · exact hothers other hother hseen

theorem lastEventId_of_start {binding : AgentBinding} {limits : AgentLimits}
    {commandId : CommandId} {eventId : EventId} {first : AgentEvent}
    (h : start sha256 binding limits commandId eventId = .ok ⟨first, state⟩) :
    state.lastEventId = eventId := by
  obtain ⟨-, -, -, -, rfl⟩ := start_eq_ok h
  rfl

theorem replay_eq_ok_iff : replay sha256 events = .ok final ↔
    Turn sha256 events final ∧ (events.map AgentEvent.id).Nodup := by
  unfold replay Turn
  cases events with
  | nil =>
      constructor
      · intro h
        cases h
      · rintro ⟨⟨first, initial, rest, -, -, h⟩, -⟩
        cases h
  | cons first rest =>
      constructor
      · intro h
        dsimp only at h
        split at h
        · cases h
        · next binding limits hkind =>
            simp only [bind_eq_ok_iff, exists_unit_iff, ensure_eq_ok_iff,
              decide_eq_true_eq] at h
            obtain ⟨⟨found, initial⟩, hstart, rfl, hrest⟩ := h
            have hlast : initial.lastEventId ∈ [found.id] := by
              rw [lastEventId_of_start hstart]
              exact List.mem_singleton_self _
            obtain ⟨hrun, hnodup, hothers⟩ :=
              (replayEvents_eq_ok_iff hlast).mp hrest
            refine ⟨⟨found, initial, rest, ⟨_, _, _, _, hstart⟩, hrun, rfl⟩, ?_⟩
            refine List.nodup_cons.mpr ⟨?_, hnodup⟩
            intro hrepeated
            obtain ⟨other, hother, hid⟩ := List.mem_map.mp hrepeated
            exact hothers other hother (hid ▸ List.mem_singleton_self _)
      · rintro ⟨⟨_, initial, _, ⟨binding, limits, commandId, eventId, hstart⟩,
          hrun, heq⟩, hnodup⟩
        cases heq
        obtain ⟨-, hkind, rfl, rfl, -⟩ := start_eq_ok hstart
        obtain ⟨hnew, hnodup⟩ := List.nodup_cons.mp hnodup
        dsimp only
        rw [hkind]
        dsimp only
        rw [hstart]
        simp only [bind_eq_ok_iff, Except.ok.injEq, exists_eq_left',
          ensure_eq_ok_iff, decide_true, exists_const, true_and]
        refine (replayEvents_eq_ok_iff ?_).mpr ⟨hrun, hnodup, ?_⟩
        · rw [lastEventId_of_start hstart]
          exact List.mem_singleton_self _
        · intro other hother hseen
          apply hnew
          rw [← List.mem_singleton.mp hseen]
          exact List.mem_map_of_mem hother

/-- A turn is replayed to its state exactly if no event identity occurs twice
in it, and whatever is replayed is such a turn. -/
theorem replay_reproduces :
    (∀ events state, Turn sha256 events state →
      (replay sha256 events = .ok state ↔
        (events.map AgentEvent.id).Nodup)) ∧
    ∀ events state, replay sha256 events = .ok state →
      Turn sha256 events state ∧ (events.map AgentEvent.id).Nodup := by
  constructor
  · intro events state hturn
    rw [replay_eq_ok_iff]
    exact and_iff_right hturn
  · intro events state hreplay
    exact replay_eq_ok_iff.mp hreplay

end Replay

/-! ### An identity used again after one event -/

def repeatedIdentity : List Request :=
  [(smallId 2, .paused), (smallId 1, .cancellationRequested)]

theorem accepted_repeatedIdentity (sha256 : List UInt8 → Sha256Digest) :
    (attempts sha256 (smallStart sha256) repeatedIdentity).map (fun state =>
      state.phase) = some .cancelling := by
  cbv

/-- Whatever the hash, the reducer accepts it and the replay refuses it. -/
theorem turn_not_replayed : ¬ ∃ sha256, ∀ events state,
    Turn sha256 events state → replay sha256 events = .ok state := by
  rintro ⟨sha256, hclaim⟩
  obtain ⟨state, hstate, -⟩ :=
    Option.map_eq_some_iff.mp (accepted_repeatedIdentity sha256)
  obtain ⟨events, hids, -, hturn⟩ := turn_of_attempts hstate
  have hnodup := (replay_eq_ok_iff.mp (hclaim events state hturn)).2
  rw [hids] at hnodup
  exact absurd hnodup (by decide)

theorem replay_reproduces_pause : ∃ events state,
    Turn (fun _ => zeroDigest) events state ∧
      commands events = [.paused] ∧
      (replay (fun _ => zeroDigest) events = .ok state ↔
        (events.map AgentEvent.id).Nodup) := by
  obtain ⟨state, hstate, -⟩ : ∃ state,
      attempts (fun _ => zeroDigest) (smallStart fun _ => zeroDigest)
        [(smallId 2, .paused)] = some state ∧ True := by
    refine ⟨_, rfl, trivial⟩
  obtain ⟨events, -, hkinds, hturn⟩ := turn_of_attempts hstate
  exact ⟨events, state, hturn, hkinds,
    replay_reproduces.1 events state hturn⟩

end Peritus.Agent.Replay
