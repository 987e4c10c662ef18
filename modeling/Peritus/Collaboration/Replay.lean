import Peritus.Collaboration.Frames

/-!
Replay of a collaboration.  The reducer remembers every command identity but only
the last event identity, and the replay all of both.
-/

namespace Peritus.Collaboration.Replay

open Peritus.Types Checked TransitionSystem Limits State Reducer Invariant Preservation
open Collaboration.Edits Collaboration.Measure Frames

variable (sha256 : List UInt8 → Sha256Digest)

def replayError (detail : String) : CollaborationError :=
  reject .replayMismatch detail

def commandFromEvent (event : CollaborationEvent) (expectedSequence : Nat)
    (hbound : expectedSequence < 256 ^ 8) (previous : Option EventId) :
    Except CollaborationError CollaborationCommand :=
  newCommand event.commandId event.id event.runId ⟨expectedSequence, hbound⟩ previous
    event.priorStateDigest event.revision (recordedKind event.kind)

def replayEvents (state : CollaborationState) (ids : List EventId)
    (commands : List CommandId) :
    List CollaborationEvent → Except CollaborationError CollaborationState
  | [] => .ok state
  | event :: rest => do
      ensure (decide (event.id ∉ ids) && decide (event.commandId ∉ commands))
        (replayError "collaboration event or command identity is duplicated")
      let command ← commandFromEvent event state.sequence.get
        (Nat.lt_succ_of_le state.sequence.bound) (some state.lastEventId)
      let found ← decideCommand sha256 state command
      ensure (decide (found.event = event))
        (replayError "collaboration event differs from deterministic reduction")
      replayEvents found.state (event.id :: ids) (event.commandId :: commands) rest

def replay : List CollaborationEvent → Except CollaborationError CollaborationState
  | [] => .error (replayError "collaboration replay is empty")
  | first :: rest => do
      let command ← commandFromEvent first 0 (Nat.two_pow_pos 64) none
      let found ← start sha256 command
      ensure (decide (found.event = first))
        (replayError "collaboration genesis differs from deterministic reduction")
      replayEvents sha256 found.state [first.id] [first.commandId] rest

def Steps (state : CollaborationState) (event : CollaborationEvent)
    (next : CollaborationState) : Prop :=
  ∃ command, decideCommand sha256 state command = .ok ⟨event, next⟩

/-- The events of a run, and the state that it has come to. -/
def Logged (events : List CollaborationEvent) (state : CollaborationState) : Prop :=
  ∃ command first initial rest, start sha256 command = .ok ⟨first, initial⟩ ∧
    Run (Steps sha256) initial rest state ∧ events = first :: rest

variable {sha256} {state next final : CollaborationState} {ids : List EventId}
variable {command : CollaborationCommand} {kind : CollaborationCommandKind}
variable {event : CollaborationEvent} {rest : List CollaborationEvent}

theorem recordedKind_of_apply {recorded : CollaborationEventKind}
    (h : apply sha256 state kind = .ok (next, recorded)) : recordedKind recorded = kind := by
  cases hcancel : isCancel kind with
  | false =>
      have hevent := eventFromCommand_of_apply h hcancel
      cases kind <;> cases hevent <;> rfl
  | true =>
      cases kind with
      | cancelTask =>
          simp only [apply, cancel, bind_eq_ok_iff, exists_unit_iff, Prod.exists,
            Except.ok.injEq, Prod.mk.injEq] at h
          obtain ⟨_, -, -, -, _, _, -, -, rfl⟩ := h
          rfl
      | _ => cases hcancel

/-- An accepted command is read back off its event, and its identity is new. -/
theorem decided (hsound : Sound sha256 state)
    (h : decideCommand sha256 state command = .ok ⟨event, next⟩) :
    commandFromEvent event state.sequence.get (Nat.lt_succ_of_le state.sequence.bound)
        (some state.lastEventId) = .ok command ∧
      Sound sha256 next ∧ event.commandId ∉ state.usedCommands ∧
      next.usedCommands.reverse = event.commandId :: state.usedCommands.reverse := by
  have hnext := sound_of_accepts hsound ⟨_, h, rfl⟩
  simp only [decideCommand, validateFences, bind_eq_ok_iff, ensure_eq_ok_iff,
    exists_unit_iff, Bool.and_eq_true, decide_eq_true_eq, Prod.exists, Except.ok.injEq,
    CollaborationTransition.mk.injEq] at h
  obtain ⟨⟨-, ⟨⟨⟨⟨-, hsequence⟩, hprevious⟩, hdigest⟩, hfresh⟩, -⟩, -, _, -, _, _,
    happly, -, rfl, rfl⟩ := h
  obtain ⟨hused, -⟩ := history_of_change
    (change_of_apply hsound.tasks (sorted_messages hsound.toKept) happly)
  refine ⟨?_, hnext, hfresh, ?_⟩
  · simp only [commandFromEvent, recordedKind_of_apply happly, ← hdigest, ← hprevious,
      hsequence]
    exact newCommand_self command
  · rw [← hused]
    exact List.reverse_append

theorem started (h : start sha256 command = .ok ⟨event, state⟩) :
    commandFromEvent event 0 (Nat.two_pow_pos 64) none = .ok command ∧
      state.usedCommands.reverse = [event.commandId] := by
  unfold start at h
  split at h
  · next binding hkind =>
      simp only [bind_eq_ok_iff, ensure_eq_ok_iff, exists_unit_iff, Bool.and_eq_true,
        decide_eq_true_eq, Except.ok.injEq, CollaborationTransition.mk.injEq] at h
      obtain ⟨-, ⟨⟨⟨-, hsequence⟩, hprevious⟩, hdigest⟩, -, rfl, rfl⟩ := h
      refine ⟨?_, rfl⟩
      simp only [commandFromEvent, ← hdigest, ← hprevious, ← hsequence]
      refine Eq.trans ?_ (newCommand_self command)
      rw [hkind]
      rfl
  · cases h

/-- What has been seen and what is to come stay together one list. -/
theorem replayEvents_eq_ok_iff (hsound : Sound sha256 state) (hids : ids.Nodup) :
    replayEvents sha256 state ids state.usedCommands.reverse rest = .ok final ↔
      Run (Steps sha256) state rest final ∧
        (ids.reverse ++ rest.map CollaborationEvent.id).Nodup := by
  induction rest generalizing state ids with
  | nil =>
      simp only [replayEvents, List.map_nil, List.append_nil, List.nodup_reverse, hids,
        and_true, Except.ok.injEq]
      constructor
      · rintro rfl
        exact .nil state
      · intro hrun
        cases hrun
        rfl
  | cons event rest ih =>
      simp only [replayEvents, bind_eq_ok_iff, exists_unit_iff, ensure_eq_ok_iff,
        Bool.and_eq_true, decide_eq_true_eq, List.mem_reverse]
      constructor
      · rintro ⟨⟨hid, -⟩, command, -, ⟨found, next⟩, hdecide, rfl, hrest⟩
        obtain ⟨-, hnext, -, hused⟩ := decided hsound hdecide
        rw [← hused, ih hnext (hids.cons hid)] at hrest
        exact ⟨.cons ⟨command, hdecide⟩ hrest.1, by simpa using hrest.2⟩
      · rintro ⟨hrun, hnodup⟩
        have hid : event.id ∉ ids := fun h =>
          (List.nodup_append.mp hnodup).2.2 _ (List.mem_reverse.mpr h) _
            List.mem_cons_self rfl
        cases hrun with
        | cons hstep hrun =>
            obtain ⟨command, hdecide⟩ := hstep
            obtain ⟨hcommand, hnext, hfresh, hused⟩ := decided hsound hdecide
            refine ⟨⟨hid, hfresh⟩, command, hcommand, _, hdecide, rfl, ?_⟩
            rw [← hused, ih hnext (hids.cons hid)]
            exact ⟨hrun, by simpa using hnodup⟩

/-- A log is replayed exactly if it is that of a run and no event identity occurs
twice in it, and then to the state of the run. -/
theorem collaboration_replay (sha256 : List UInt8 → Sha256Digest)
    (events : List CollaborationEvent) (state : CollaborationState) :
    replay sha256 events = .ok state ↔
      Logged sha256 events state ∧ (events.map CollaborationEvent.id).Nodup := by
  cases events with
  | nil => simp [replay, Logged]
  | cons first rest =>
      simp only [replay, bind_eq_ok_iff, exists_unit_iff, ensure_eq_ok_iff,
        decide_eq_true_eq]
      constructor
      · rintro ⟨command, -, ⟨found, initial⟩, hstart, rfl, h⟩
        rw [← (started hstart).2, replayEvents_eq_ok_iff
          (sound_of_started ⟨_, _, hstart, rfl⟩) (List.nodup_singleton _)] at h
        exact ⟨⟨command, found, initial, rest, hstart, h.1, rfl⟩, h.2⟩
      · rintro ⟨⟨command, _, initial, _, hstart, hrun, heq⟩, hnodup⟩
        cases heq
        obtain ⟨hcommand, hused⟩ := started hstart
        refine ⟨command, hcommand, _, hstart, rfl, ?_⟩
        rw [← hused, replayEvents_eq_ok_iff (sound_of_started ⟨_, _, hstart, rfl⟩)
          (List.nodup_singleton _)]
        exact ⟨hrun, hnodup⟩

end Peritus.Collaboration.Replay
