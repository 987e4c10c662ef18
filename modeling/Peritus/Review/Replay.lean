import Peritus.Review.Edits

/-!
Replay and the reducer.  Both run the same commands, but the reducer remembers the
identities of the commands and the last event only, and the replay those of all
events: a run is replayed exactly if no event identity occurs twice in it.
-/

namespace Peritus.Review.Replay

open Peritus.Types Checked TransitionSystem State Canonical Reducer Runs Edits

section Replay

variable {sha256 : List UInt8 → Sha256Digest} {state next final :
    ReviewRunState} {event first : ReviewEvent} {events rest : List ReviewEvent}
  {ids : List EventId} {commands : List CommandId}

/-- The reducer accepts an event exactly if it accepts the command read off it. -/
theorem steps_iff : Steps sha256 state event next ↔
    ∃ command, commandFromEvent event state.sequence.get (some state.lastEventId) =
        .ok command ∧
      decideCommand sha256 state command = .ok ⟨event, next⟩ := by
  constructor
  · rintro ⟨command, hdecide⟩
    exact ⟨command, commandFromEvent_of_decide hdecide, hdecide⟩
  · rintro ⟨command, -, hdecide⟩
    exact ⟨command, hdecide⟩

theorem starts_iff : Starts sha256 first state ↔
    ∃ command, commandFromEvent first 0 none = .ok command ∧
      start sha256 command = .ok ⟨first, state⟩ := by
  constructor
  · rintro ⟨command, hstart⟩
    exact ⟨command, commandFromEvent_of_start hstart, hstart⟩
  · rintro ⟨command, -, hstart⟩
    exact ⟨command, hstart⟩

theorem usedCommands_of_steps (hstep : Steps sha256 state event next)
    (hordered : Ordered state) :
    next.usedCommands = state.usedCommands ++ [event.commandId] ∧
      event.commandId ∉ state.usedCommands ∧ Ordered next := by
  obtain ⟨applied, haccepted⟩ := exists_accepted hstep
  have hstepped := stepped_of_accepted hordered haccepted
  refine ⟨?_, hstepped.fresh, hstepped.ordered⟩
  rw [hstepped.successor, ← hstepped.kept.usedCommands]
  rfl

/-- A list of events is replayed from a state exactly if it is a run that repeats
no event identity; command identities need no second look. -/
theorem replayEvents_eq_ok_iff (hordered : Ordered state)
    (hused : ∀ commandId, commandId ∈ commands ↔
      commandId ∈ state.usedCommands) :
    replayEvents sha256 state ids commands rest = .ok final ↔
      Run (Steps sha256) state rest final ∧
        (rest.map ReviewEvent.id).Nodup ∧ ∀ event ∈ rest, event.id ∉ ids := by
  induction rest generalizing state ids commands with
  | nil =>
      constructor
      · intro h
        cases h
        exact ⟨.nil final, List.nodup_nil, by simp⟩
      · rintro ⟨hrun, -⟩
        cases hrun
        rfl
  | cons event rest ih =>
      have hnext : ∀ next, Steps sha256 state event next →
          (replayEvents sha256 next (event.id :: ids) (event.commandId :: commands)
            rest = .ok final ↔ Run (Steps sha256) next rest final ∧
              (rest.map ReviewEvent.id).Nodup ∧
              ∀ other ∈ rest, other.id ∉ event.id :: ids) := by
        intro next hstep
        obtain ⟨hcommands, -, hordered'⟩ := usedCommands_of_steps hstep hordered
        refine ih hordered' ?_
        intro commandId
        rw [hcommands, List.mem_cons, List.mem_append, List.mem_singleton,
          hused commandId]
        exact or_comm
      unfold replayEvents
      simp only [bind_eq_ok_iff, exists_unit_iff, ensure_eq_ok_iff,
        Bool.and_eq_true, decide_eq_true_eq, List.map_cons, List.nodup_cons,
        List.forall_mem_cons]
      constructor
      · rintro ⟨⟨hfresh, -⟩, command, hcommand, ⟨found, next⟩, hdecide, rfl, hrest⟩
        have hstep : Steps sha256 state found next := ⟨command, hdecide⟩
        obtain ⟨hrun, hnodup, hothers⟩ := (hnext next hstep).mp hrest
        refine ⟨.cons hstep hrun, ⟨?_, hnodup⟩, hfresh, ?_⟩
        · intro hrepeated
          obtain ⟨other, hother, hid⟩ := List.mem_map.mp hrepeated
          apply hothers other hother
          rw [hid]
          exact List.mem_cons_self
        · intro other hother hseen
          exact hothers other hother (List.mem_cons_of_mem _ hseen)
      · rintro ⟨hrun, ⟨hnew, hnodup⟩, hfresh, hothers⟩
        cases hrun with
        | cons hstep hrun =>
            obtain ⟨command, hcommand, hdecide⟩ := steps_iff.mp hstep
            have hunused := (usedCommands_of_steps hstep hordered).2.1
            rw [← hused] at hunused
            refine ⟨⟨hfresh, hunused⟩, command, hcommand, _, hdecide, rfl,
              (hnext _ hstep).mpr ⟨hrun, hnodup, ?_⟩⟩
            intro other hother hseen
            rcases List.mem_cons.mp hseen with hid | hseen
            · exact hnew (hid ▸ List.mem_map_of_mem hother)
            · exact hothers other hother hseen

theorem replay_eq_ok_iff : replay sha256 events = .ok final ↔
    ReviewRun sha256 events final ∧ (events.map ReviewEvent.id).Nodup := by
  unfold replay ReviewRun
  cases events with
  | nil =>
      constructor
      · intro h
        cases h
      · rintro ⟨⟨first, initial, rest, -, -, h⟩, -⟩
        cases h
  | cons first rest =>
      have hrest : ∀ initial, Starts sha256 first initial →
          (replayEvents sha256 initial [first.id] [first.commandId] rest =
            .ok final ↔ Run (Steps sha256) initial rest final ∧
              ((first :: rest).map ReviewEvent.id).Nodup) := by
        intro initial hstarts
        have hrun : ReviewRun sha256 [first] initial :=
          ⟨first, initial, [], hstarts, .nil initial, rfl⟩
        rw [replayEvents_eq_ok_iff (ordered_of_run hrun)
          (by simp [(usedCommands_of_run hrun).1]), List.map_cons, List.nodup_cons]
        refine and_congr_right fun _ => ?_
        simp only [List.mem_map, List.mem_singleton, not_exists, not_and]
        exact and_comm
      dsimp only
      simp only [bind_eq_ok_iff, exists_unit_iff, ensure_eq_ok_iff,
        decide_eq_true_eq]
      constructor
      · rintro ⟨command, hcommand, ⟨found, initial⟩, hstart, rfl, h⟩
        have hstarts : Starts sha256 found initial := ⟨command, hstart⟩
        obtain ⟨hrun, hnodup⟩ := (hrest initial hstarts).mp h
        exact ⟨⟨found, initial, rest, hstarts, hrun, rfl⟩, hnodup⟩
      · rintro ⟨⟨_, initial, _, hstarts, hrun, heq⟩, hnodup⟩
        cases heq
        obtain ⟨command, hcommand, hstart⟩ := starts_iff.mp hstarts
        exact ⟨command, hcommand, _, hstart, rfl,
          (hrest initial hstarts).mpr ⟨hrun, hnodup⟩⟩

/-- What a run has done before an event, it has done as a run. -/
theorem reviewRun_prefix {earlier later : List ReviewEvent}
    (hrun : ReviewRun sha256 (earlier ++ later) final) (hne : earlier ≠ []) :
    ∃ middle, ReviewRun sha256 earlier middle ∧
      Run (Steps sha256) middle later final := by
  obtain ⟨first, initial, rest, hstarts, hrest, heq⟩ := hrun
  cases earlier with
  | nil => exact absurd rfl hne
  | cons head tail =>
      rw [List.cons_append, List.cons.injEq] at heq
      obtain ⟨rfl, rfl⟩ := heq
      obtain ⟨middle, hleft, hright⟩ := hrest.exists_of_append
      exact ⟨middle, ⟨head, initial, tail, hstarts, hleft, rfl⟩, hright⟩

/-- A run is replayed to its state exactly if no event identity occurs twice in
it.  Whatever is replayed is such a run, with distinct command identities, and so
is every part of it that it begins with. -/
theorem review_replay_reproduces :
    (∀ events state, ReviewRun sha256 events state →
      (replay sha256 events = .ok state ↔
        (events.map ReviewEvent.id).Nodup)) ∧
    ∀ events state, replay sha256 events = .ok state →
      ReviewRun sha256 events state ∧ (events.map ReviewEvent.id).Nodup ∧
        (events.map ReviewEvent.commandId).Nodup ∧
        ∀ earlier later, earlier ≠ [] → earlier ++ later = events →
          ∃ middle, replay sha256 earlier = .ok middle ∧
            ReviewRun sha256 earlier middle ∧
            Run (Steps sha256) middle later state := by
  constructor
  · intro events state hrun
    rw [replay_eq_ok_iff]
    exact and_iff_right hrun
  · intro events state hreplay
    obtain ⟨hrun, hnodup⟩ := replay_eq_ok_iff.mp hreplay
    have hused := usedCommands_of_run hrun
    refine ⟨hrun, hnodup, hused.1 ▸ hused.2, ?_⟩
    rintro earlier later hne rfl
    obtain ⟨middle, hearlier, hlater⟩ := reviewRun_prefix hrun hne
    refine ⟨middle, replay_eq_ok_iff.mpr ⟨hearlier, ?_⟩, hearlier, hlater⟩
    rw [List.map_append] at hnodup
    exact hnodup.of_append_left

end Replay

/-! ### An identity used again after one event -/

/-- The run is paused, and the event that resumes it takes the identity of the
event that started it. -/
def repeatedIdentity : List Request :=
  [⟨smallId 2, smallId 2, .pauseRun⟩, ⟨smallId 3, smallId 1, .resumeRun⟩]

theorem accepted_repeatedIdentity (sha256 : List UInt8 → Sha256Digest) :
    (attempts sha256 (smallStart sha256) repeatedIdentity).map (fun state =>
      state.phase) = some .active := by
  cbv

/-- Whatever the hash, the reducer accepts it and the replay refuses it. -/
theorem run_not_replayed : ¬ ∃ sha256, ∀ events state,
    ReviewRun sha256 events state → replay sha256 events = .ok state := by
  rintro ⟨sha256, hclaim⟩
  obtain ⟨state, hstate, -⟩ :=
    Option.map_eq_some_iff.mp (accepted_repeatedIdentity sha256)
  obtain ⟨first, hfirst, hstart⟩ := reviewRun_smallStart sha256
  obtain ⟨rest, hids, -, hrun⟩ := reviewRun_of_attempts hstart hstate
  have hnodup := (replay_eq_ok_iff.mp (hclaim _ state hrun)).2
  rw [List.map_append, hids, List.map_singleton, hfirst] at hnodup
  exact absurd hnodup (by decide)

theorem accepted_pause (sha256 : List UInt8 → Sha256Digest) :
    (attempts sha256 (smallStart sha256)
      [⟨smallId 2, smallId 2, .pauseRun⟩]).map (fun state => state.phase) =
        some .paused := by
  cbv

theorem review_replay_reproduces_pause : ∃ events state,
    ReviewRun (fun _ => zeroDigest) events state ∧ state.phase = .paused ∧
      (replay (fun _ => zeroDigest) events = .ok state ↔
        (events.map ReviewEvent.id).Nodup) := by
  obtain ⟨state, hstate, hphase⟩ :=
    Option.map_eq_some_iff.mp (accepted_pause fun _ => zeroDigest)
  obtain ⟨first, -, hstart⟩ := reviewRun_smallStart fun _ => zeroDigest
  obtain ⟨rest, -, -, hrun⟩ := reviewRun_of_attempts hstart hstate
  exact ⟨_, state, hrun, hphase, review_replay_reproduces.1 _ state hrun⟩

end Peritus.Review.Replay
