import Peritus.Scheduler.Replay

/-!
Logs with an event missing, repeated, out of order or changed.  An event carries
its place, so that only the beginnings of a log are made of its events; a change
of one event is seen as far as the digests of the two states tell them apart.
-/

namespace Peritus.Scheduler.Tampering

open Peritus.Types Checked Bytes TransitionSystem State Canonical Mutation Reducer
open Ownership Replay

section Logs

variable {sha256 : List UInt8 → Sha256Digest}
variable {state next final : SchedulerState} {event : SchedulerEvent}
variable {events rest : List SchedulerEvent}

/-! ### Events missing, repeated or out of order -/

theorem sequence_of_steps (h : Steps sha256 state event next) :
    event.sequence = next.sequence ∧
      next.sequence.get = state.sequence.get + 1 := by
  obtain ⟨command, hdecide⟩ := h
  obtain ⟨applied, emitted, sequence, -, hnext, rfl, rfl⟩ :=
    (emitted_of_decide hdecide).successor
  exact ⟨rfl, hnext⟩

/-- An event carries its place in the log. -/
theorem sequence_of_run (hrun : Run (Steps sha256) state events final) {i : Nat}
    (hget : events[i]? = some event) :
    event.sequence.get = state.sequence.get + i + 1 := by
  induction hrun generalizing i with
  | nil => cases hget
  | cons hstep _ ih =>
      obtain ⟨hsame, hnext⟩ := sequence_of_steps hstep
      cases i with
      | zero =>
          cases hget
          rw [hsame, hnext]
      | succ i =>
          rw [ih hget, hnext]
          omega

theorem sequence_of_log (hlog : Log sha256 events final) {i : Nat}
    (hget : events[i]? = some event) : event.sequence.get = i + 1 := by
  obtain ⟨first, initial, rest, ⟨command, hstart⟩, hrun, rfl⟩ := hlog
  obtain ⟨-, binding, hevent, rfl⟩ := opened_of_start hstart
  cases i with
  | zero =>
      cases hget
      rw [hevent]
      rfl
  | succ i =>
      rw [sequence_of_run hrun hget]
      show 1 + i + 1 = i + 1 + 1
      omega

/-- A log made of events of another is the beginning of it. -/
theorem prefix_of_subset {kept : List SchedulerEvent}
    (hlog : Log sha256 events final) (hkept : Log sha256 kept state)
    (hsubset : ∀ event ∈ kept, event ∈ events) : kept <+: events := by
  rw [List.prefix_iff_getElem?]
  intro i hi
  have hmem := hsubset _ (List.getElem_mem hi)
  obtain ⟨j, hj⟩ := List.mem_iff_getElem?.mp hmem
  have hplace := sequence_of_log hlog hj
  rw [sequence_of_log hkept (List.getElem?_eq_getElem hi)] at hplace
  have hsame : j = i := by omega
  subst hsame
  exact hj

theorem replay_prefix {before : List SchedulerEvent} (hne : before ≠ [])
    (h : replay sha256 (before ++ rest) = .ok final) :
    ∃ middle, replay sha256 before = .ok middle ∧
      Run (Steps sha256) middle rest final := by
  obtain ⟨⟨first, initial, others, hstart, hrun, heq⟩, hnodup⟩ :=
    replay_eq_ok_iff.mp h
  cases before with
  | nil => exact absurd rfl hne
  | cons found before =>
      obtain ⟨rfl, rfl⟩ := List.cons.inj heq
      obtain ⟨middle, hbefore, hrest⟩ := hrun.exists_of_append
      refine ⟨middle, replay_eq_ok_iff.mpr
        ⟨⟨found, initial, before, hstart, hbefore, rfl⟩, ?_⟩, hrest⟩
      rw [List.map_append] at hnodup
      exact hnodup.of_append_left

/-- Of the events of a log, the replay accepts the beginnings of the log and
nothing else. -/
theorem replay_subset_iff {kept : List SchedulerEvent}
    (h : replay sha256 events = .ok final)
    (hsubset : ∀ event ∈ kept, event ∈ events) :
    (∃ middle, replay sha256 kept = .ok middle) ↔
      kept ≠ [] ∧ kept <+: events := by
  constructor
  · rintro ⟨middle, hkept⟩
    refine ⟨?_, prefix_of_subset (replay_eq_ok_iff.mp h).1
      (replay_eq_ok_iff.mp hkept).1 hsubset⟩
    rintro rfl
    cases hkept
  · rintro ⟨hne, others, rfl⟩
    obtain ⟨middle, hmiddle, -⟩ := replay_prefix hne h
    exact ⟨middle, hmiddle⟩

/-! ### Events changed -/

/-- The bytes that the digest of a state is taken of. -/
def stateBytes (state : SchedulerState) : List UInt8 :=
  domain "peritus-d3-scheduler-state-v1\x00"
    "peritus-d3-scheduler-state-v2\x00" state.binding.semantics
    ++ encodeState state

theorem encodeId_injective {id id' : OpaqueIdentifier}
    (h : encodeId id = encodeId id') : id = id' := by
  apply OpaqueIdentifier.value_injective
  have hvalue := congrArg ofBeBytes h
  unfold encodeId at hvalue
  rwa [ofBeBytes_beBytes id.bound, ofBeBytes_beBytes id'.bound] at hvalue

/-- The state after a cursor has moved. -/
def closed (sha256 : List UInt8 → Sha256Digest) (refreshed : SchedulerState)
    (sequence : EventSequence) (event : SchedulerEvent) : SchedulerState :=
  { advanceCursor refreshed sequence event.id event.commandId with
    stateDigest := stateDigest sha256
      (advanceCursor refreshed sequence event.id event.commandId) }

/-- The bytes tell both identities that the cursor takes. -/
theorem identities_of_bytes {refreshed : SchedulerState}
    {sequence : EventSequence} {event' : SchedulerEvent}
    (h : stateBytes (closed sha256 refreshed sequence event) =
      stateBytes (closed sha256 refreshed sequence event')) :
    event.id = event'.id ∧ event.commandId = event'.commandId := by
  unfold stateBytes encodeState closed advanceCursor at h
  simp only [List.flatMap_append, List.length_append, List.flatMap_singleton,
    List.length_singleton, List.append_assoc, List.append_cancel_left_eq] at h
  obtain ⟨hid, h⟩ := List.append_inj h (by simp [encodeId])
  simp only [List.append_cancel_left_eq] at h
  obtain ⟨hcommand, -⟩ := List.append_inj h (by simp [encodeId])
  exact ⟨encodeId_injective hid, encodeId_injective hcommand⟩

/-- Two events of one kind that meet the same state differ in their identities
only. -/
structure Twins (sha256 : List UInt8 → Sha256Digest)
    (event event' : SchedulerEvent) (next next' : SchedulerState) : Prop where
  states : ∃ refreshed sequence,
    next = closed sha256 refreshed sequence event ∧
      next' = closed sha256 refreshed sequence event'
  determined : event'.id = event.id → event'.commandId = event.commandId →
    event' = event

theorem twins_of_starts {event' : SchedulerEvent} {next' : SchedulerState}
    (h : Starts sha256 event next) (h' : Starts sha256 event' next')
    (hkind : event'.kind = event.kind) : Twins sha256 event event' next next' := by
  obtain ⟨command, hstart⟩ := h
  obtain ⟨command', hstart'⟩ := h'
  obtain ⟨-, binding, hevent, rfl⟩ := opened_of_start hstart
  obtain ⟨-, binding', hevent', rfl⟩ := opened_of_start hstart'
  have hbinding : binding' = binding := by
    rw [hevent, hevent'] at hkind
    exact SchedulerEventKind.schedulerStarted.inj hkind
  subst hbinding
  constructor
  · exact ⟨{ SchedulerState.genesis binding' event.id event.commandId with
      usedCommands := [] }, PositiveNumber.first, rfl, rfl⟩
  · intro hid hcommand
    rw [hevent, hevent', hid, hcommand]

theorem twins_of_steps {event' : SchedulerEvent} {next' : SchedulerState}
    (h : Steps sha256 state event next) (h' : Steps sha256 state event' next')
    (hkind : event'.kind = event.kind) : Twins sha256 event event' next next' := by
  obtain ⟨command, hdecide⟩ := h
  obtain ⟨command', hdecide'⟩ := h'
  have hfirst := emitted_of_decide hdecide
  have hsecond := emitted_of_decide hdecide'
  obtain ⟨applied, emitted, sequence, happlied, hnext, hstate, hevent⟩ :=
    hfirst.successor
  obtain ⟨applied', emitted', sequence', happlied', hnext', hstate', hevent'⟩ :=
    hsecond.successor
  have hemitted : emitted' = emitted := by
    rw [hevent, hevent'] at hkind
    exact hkind
  have hpayload : payloadFromEvent emitted = command.kind :=
    emits_apply.of_eq_ok happlied
  have hpayload' : payloadFromEvent emitted' = command'.kind :=
    emits_apply.of_eq_ok happlied'
  have hsame : command'.kind = command.kind := by
    rw [← hpayload, ← hpayload', hemitted]
  rw [hsame, happlied] at happlied'
  obtain ⟨rfl, -⟩ := Prod.mk.inj (Except.ok.inj happlied')
  have hsequence : sequence' = sequence :=
    PositiveNumber.ext (hnext'.trans hnext.symm)
  subst hsequence hemitted
  constructor
  · refine ⟨refresh applied, sequence', ?_, ?_⟩
    · rw [hstate, hevent]
      rfl
    · rw [hstate', hevent']
      rfl
  · intro hid hcommand
    have hid' : command'.eventId = command.eventId := by
      rw [hevent, hevent'] at hid
      exact hid
    have hcommand' : command'.commandId = command.commandId := by
      rw [hevent, hevent'] at hcommand
      exact hcommand
    rw [hevent, hevent', hstate, hstate', hid', hcommand', hfirst.semantics,
      hsecond.semantics, hfirst.runId, hsecond.runId, hfirst.revision,
      hsecond.revision]

/-- An event names the state it leads to by its identity and its digest. -/
structure Seals (sha256 : List UInt8 → Sha256Digest) (event : SchedulerEvent)
    (next : SchedulerState) : Prop where
  lastEventId : next.lastEventId = event.id
  stateDigest : next.stateDigest = event.successorStateDigest
  bytes : event.successorStateDigest = sha256 (stateBytes next)

theorem seals_of_starts (h : Starts sha256 event state) :
    Seals sha256 event state := by
  obtain ⟨command, hstart⟩ := h
  obtain ⟨-, binding, hevent, rfl⟩ := opened_of_start hstart
  rw [hevent]
  exact ⟨rfl, rfl, rfl⟩

theorem seals_of_steps (h : Steps sha256 state event next) :
    Seals sha256 event next := by
  obtain ⟨command, hdecide⟩ := h
  obtain ⟨applied, emitted, sequence, -, -, rfl, rfl⟩ :=
    (emitted_of_decide hdecide).successor
  exact ⟨rfl, rfl, rfl⟩

theorem seals_of_replay {before : List SchedulerEvent}
    (h : replay sha256 (before ++ [event]) = .ok state) :
    Seals sha256 event state := by
  cases before with
  | nil =>
      obtain ⟨initial, hstart, hrest⟩ := replay_cons.mp h
      cases hrest
      exact seals_of_starts hstart
  | cons first before =>
      obtain ⟨middle, -, hrun⟩ := replay_prefix (List.cons_ne_nil _ _) h
      rcases hrun with _ | ⟨hstep, hnil⟩
      cases hnil
      exact seals_of_steps hstep

theorem twins_of_replay {before : List SchedulerEvent}
    {event' : SchedulerEvent} {state' : SchedulerState}
    (h : replay sha256 (before ++ [event]) = .ok state)
    (h' : replay sha256 (before ++ [event']) = .ok state')
    (hkind : event'.kind = event.kind) :
    Twins sha256 event event' state state' := by
  cases before with
  | nil =>
      obtain ⟨initial, hstart, hrest⟩ := replay_cons.mp h
      obtain ⟨initial', hstart', hrest'⟩ := replay_cons.mp h'
      cases hrest
      cases hrest'
      exact twins_of_starts hstart hstart' hkind
  | cons first before =>
      obtain ⟨middle, hmiddle, hrun⟩ := replay_prefix (List.cons_ne_nil _ _) h
      obtain ⟨middle', hmiddle', hrun'⟩ :=
        replay_prefix (List.cons_ne_nil _ _) h'
      rw [hmiddle] at hmiddle'
      cases hmiddle'
      rcases hrun with _ | ⟨hstep, hnil⟩
      rcases hrun' with _ | ⟨hstep', hnil'⟩
      cases hnil
      cases hnil'
      exact twins_of_steps hstep hstep' hkind

/-- The event that follows another fixes its identity and its digest. -/
theorem seals_of_follower {before : List SchedulerEvent}
    {follower : SchedulerEvent}
    (h : replay sha256 (before ++ event :: follower :: rest) = .ok final) :
    follower.previousEvent = some event.id ∧
      follower.priorStateDigest = event.successorStateDigest := by
  rw [List.append_cons] at h
  obtain ⟨middle, hmiddle, hrun⟩ := replay_prefix (by simp) h
  rcases hrun with _ | ⟨⟨command, hdecide⟩, -⟩
  obtain ⟨applied, emitted, sequence, -, -, -, hfollower⟩ :=
    (emitted_of_decide hdecide).successor
  have hseals := seals_of_replay hmiddle
  rw [hfollower, ← hseals.lastEventId, ← hseals.stateDigest]
  exact ⟨rfl, rfl⟩

/-- What another event in the place of one of a log must have in common with
it, if the replay accepts it as well. -/
structure Undetected (sha256 : List UInt8 → Sha256Digest)
    (before : List SchedulerEvent) (event event' : SchedulerEvent)
    (after : List SchedulerEvent) : Prop where
  determined : event'.id = event.id → event'.commandId = event.commandId →
    event'.kind = event.kind → event' = event
  digest : event'.successorStateDigest = event.successorStateDigest →
    event' ≠ event → ∃ next next',
      replay sha256 (before ++ [event]) = .ok next ∧
      replay sha256 (before ++ [event']) = .ok next' ∧
      sha256 (stateBytes next) = sha256 (stateBytes next') ∧
      (event'.kind = event.kind → stateBytes next ≠ stateBytes next')
  followed : after ≠ [] → event'.id = event.id ∧
    event'.successorStateDigest = event.successorStateDigest

theorem undetected_of_replay {before : List SchedulerEvent}
    {event' : SchedulerEvent} {final' : SchedulerState}
    (h : replay sha256 (before ++ event :: rest) = .ok final)
    (h' : replay sha256 (before ++ event' :: rest) = .ok final') :
    Undetected sha256 before event event' rest := by
  obtain ⟨next, hnext, -⟩ := replay_prefix (by simp) (List.append_cons .. ▸ h)
  obtain ⟨next', hnext', -⟩ :=
    replay_prefix (by simp) (List.append_cons .. ▸ h')
  have hseals := seals_of_replay hnext
  have hseals' := seals_of_replay hnext'
  refine ⟨?_, ?_, ?_⟩
  · intro hid hcommand hkind
    exact (twins_of_replay hnext hnext' hkind).determined hid hcommand
  · intro hdigest hne
    refine ⟨next, next', hnext, hnext', ?_, fun hkind hbytes => hne ?_⟩
    · rw [← hseals.bytes, ← hseals'.bytes, hdigest]
    · have htwins := twins_of_replay hnext hnext' hkind
      obtain ⟨refreshed, sequence, rfl, rfl⟩ := htwins.states
      obtain ⟨hid, hcommand⟩ := identities_of_bytes hbytes
      exact htwins.determined hid.symm hcommand.symm
  · intro hafter
    cases rest with
    | nil => exact absurd rfl hafter
    | cons follower rest =>
        obtain ⟨hid, hdigest⟩ := seals_of_follower h
        obtain ⟨hid', hdigest'⟩ := seals_of_follower h'
        exact ⟨Option.some.inj (hid'.symm.trans hid),
          hdigest'.symm.trans hdigest⟩

/-- The replay accepts the logs of the runs with distinct event identities, to
their final states; of the events of such a log nothing but its beginnings; and
another event in the place of one of them only where the digests do not tell the
two apart. -/
theorem replay_exact (sha256 : List UInt8 → Sha256Digest) :
    (∀ events final, replay sha256 events = .ok final ↔
      Log sha256 events final ∧ (events.map SchedulerEvent.id).Nodup) ∧
    (∀ events final, replay sha256 events = .ok final → ∀ kept,
      (∀ event ∈ kept, event ∈ events) →
      ((∃ middle, replay sha256 kept = .ok middle) ↔
        kept ≠ [] ∧ kept <+: events)) ∧
    ∀ before event after final,
      replay sha256 (before ++ event :: after) = .ok final →
      ∀ event' final', replay sha256 (before ++ event' :: after) = .ok final' →
      Undetected sha256 before event event' after :=
  ⟨fun _ _ => replay_eq_ok_iff, fun _ _ h _ => replay_subset_iff h,
    fun _ _ _ _ h _ _ h' => undetected_of_replay h h'⟩

end Logs

/-! ### A cancelled piece of work -/

section Cancelled

variable {sha256 : List UInt8 → Sha256Digest} {state next : SchedulerState}

theorem steps_of_apply {id : OpaqueIdentifier} {kind : SchedulerCommandKind}
    {applied : SchedulerState} {emitted : SchedulerEventKind}
    {sequence : EventSequence} (hopen : state.phase ≠ .terminal)
    (hroom : state.usedCommands.length < 65535)
    (hfresh : id ∉ state.usedCommands) (hkind : kind.isStart = false)
    (hsequence : state.sequence.checkedNext = .ok sequence)
    (happlied : apply sha256 state kind = .ok (applied, emitted))
    (hbytes : (refresh applied).estimatedEncodedBytes ≤
      (refresh applied).binding.limits.stateBytes) :
    Steps sha256 state
      { semantics := state.binding.semantics
        id := id
        commandId := id
        sequence := sequence
        previousEvent := some state.lastEventId
        runId := state.binding.runId
        revision := state.binding.revision
        priorStateDigest := state.stateDigest
        successorStateDigest :=
          (commit sha256 applied sequence id id).stateDigest
        kind := emitted }
      (commit sha256 applied sequence id id) := by
  obtain ⟨command, hsame, hevent, hid, hfences⟩ :=
    exists_fromState hopen hroom hfresh hkind
  have hnext : checkedNextSequence state.sequence = .ok sequence := by
    unfold checkedNextSequence
    rw [hsequence]
  have hdecide : ∃ event, decideCommand sha256 state command =
      .ok ⟨event, commit sha256 applied sequence id id⟩ := by
    unfold decideCommand
    rw [hfences, hnext, hsame, happlied, hevent, hid]
    simp only [bind, Except.bind, decide_eq_true hbytes, ensure_true]
    exact ⟨_, rfl⟩
  obtain ⟨event, hdecide⟩ := hdecide
  refine ⟨command, hdecide.trans ?_⟩
  have hemitted := emitted_of_decide hdecide
  obtain ⟨applied', emitted', sequence', happlied', hnext', -, rfl⟩ :=
    hemitted.successor
  rw [hsame, happlied] at happlied'
  obtain ⟨rfl, rfl⟩ := Prod.mk.inj (Except.ok.inj happlied')
  have hsequence' : sequence' = sequence := PositiveNumber.ext
    (hnext'.trans (PositiveNumber.checkedNext_eq_ok_iff.mp hsequence).symm)
  rw [hevent, hid, hemitted.semantics, hemitted.runId, hemitted.revision,
    hsequence']

theorem log_of_attempts {requests : List Request}
    (h : attempts sha256 state requests = some next) :
    ∃ events, Run (Steps sha256) state events next ∧
      events.map SchedulerEvent.id = requests.map Prod.fst := by
  induction requests generalizing state with
  | nil =>
      cases h
      exact ⟨[], .nil next, rfl⟩
  | cons request rest ih =>
      obtain ⟨id, kind⟩ := request
      unfold attempts at h
      split at h
      · rename_i hfences
        obtain ⟨hopen, hroom, hfresh, hkind⟩ := hfences
        split at h
        · rename_i sequence applied emitted hsequence happlied
          split at h
          · rename_i hbytes
            have hstep := steps_of_apply hopen hroom hfresh hkind hsequence
              happlied hbytes
            obtain ⟨events, hrun, hids⟩ := ih h
            exact ⟨_ :: events, .cons hstep hrun, congrArg (id :: ·) hids⟩
          · cases h
        · cases h
      · cases h

/-- One worker, and one piece of work admitted. -/
def admittedRequests : List Request :=
  [(.ofNat 21, .registerWorker smallWorker),
   (.ofNat 22, .admitWork smallWork)]

theorem admitted_facts (sha256 : List UInt8 → Sha256Digest) :
    (attempts sha256 (smallStart sha256) admittedRequests).map (fun state =>
      (state.phase, state.usedCommands.map OpaqueIdentifier.value,
        state.sequence, (state.workItem smallWork.id).map WorkRecord.phase)) =
      some (.active, [20, 21, 22], ⟨3, by decide, by decide⟩, some .queued) := by
  cbv

/-- The only descendant of the work is the work itself. -/
theorem admitted_affected (sha256 : List UInt8 → Sha256Digest) :
    (attempts sha256 (smallStart sha256) admittedRequests).map (fun state =>
      (affected state.work smallWork.id true,
        affected state.work smallWork.id false,
        decide ((refresh (applyUpdates state
            [smallWork.id])).estimatedEncodedBytes ≤
          (refresh (applyUpdates state
            [smallWork.id])).binding.limits.stateBytes))) =
      some ([smallWork.id], [smallWork.id], true) := by
  cbv

theorem starts_smallStart (sha256 : List UInt8 → Sha256Digest) :
    Starts sha256
      (openedBy sha256 smallBinding ⟨20, by decide, by decide⟩
        ⟨20, by decide, by decide⟩) (smallStart sha256) :=
  ⟨smallGenesis, toOption_eq_some_iff.mp rfl⟩

def cancelKind (descendants : Bool) : SchedulerCommandKind :=
  if descendants then .cancelWorkTree smallWork.id else .cancelWork smallWork.id

theorem apply_cancelKind {descendants : Bool} {record : WorkRecord}
    (hrecord : state.workItem smallWork.id = some record)
    (hphase : record.phase = .queued)
    (haffected : affected state.work smallWork.id descendants =
      [smallWork.id]) :
    apply sha256 state (cancelKind descendants) =
      .ok (applyUpdates state [smallWork.id],
        .workCancelled smallWork.id descendants [smallWork.id]) := by
  have hcancel : apply sha256 state (cancelKind descendants) =
      cancel state smallWork.id descendants := by
    cases descendants <;> rfl
  rw [hcancel]
  unfold cancel
  rw [hrecord]
  simp only [hphase, haffected]
  rfl

/-- The work cancelled alone, or with all its descendants. -/
def cancelledBy (sha256 : List UInt8 → Sha256Digest) (state : SchedulerState)
    (descendants : Bool) : SchedulerEvent where
  semantics := state.binding.semantics
  id := .ofNat 23
  commandId := .ofNat 23
  sequence := .ofNat 4
  previousEvent := some state.lastEventId
  runId := state.binding.runId
  revision := state.binding.revision
  priorStateDigest := state.stateDigest
  successorStateDigest := (commit sha256 (applyUpdates state [smallWork.id])
    (.ofNat 4) (.ofNat 23) (.ofNat 23)).stateDigest
  kind := .workCancelled smallWork.id descendants [smallWork.id]

def cancelledIds : List EventId :=
  [.ofNat 20, .ofNat 21, .ofNat 22, .ofNat 23]

theorem nodup_cancelledIds : cancelledIds.Nodup := by
  decide

/-- One log is followed by either event, to the same state. -/
theorem replay_cancelledBy (sha256 : List UInt8 → Sha256Digest) :
    ∃ events state final, replay sha256 events = .ok state ∧
      ∀ descendants,
        replay sha256 (events ++ [cancelledBy sha256 state descendants]) =
          .ok final := by
  obtain ⟨state, hstate, hfacts⟩ :=
    Option.map_eq_some_iff.mp (admitted_facts sha256)
  obtain ⟨state', hstate', haffected⟩ :=
    Option.map_eq_some_iff.mp (admitted_affected sha256)
  rw [hstate] at hstate'
  cases hstate'
  simp only [Prod.mk.injEq, decide_eq_true_eq] at hfacts haffected
  obtain ⟨hphase, hused, hsequence, hwork⟩ := hfacts
  obtain ⟨htree, halone, hbytes⟩ := haffected
  obtain ⟨record, hrecord, hqueued⟩ := Option.map_eq_some_iff.mp hwork
  obtain ⟨events, hrun, hids⟩ := log_of_attempts hstate
  have hsteps : ∀ descendants, Steps sha256 state
      (cancelledBy sha256 state descendants)
      (commit sha256 (applyUpdates state [smallWork.id])
        ⟨4, by decide, by decide⟩ ⟨23, by decide, by decide⟩
        ⟨23, by decide, by decide⟩) := by
    intro descendants
    have haffected : affected state.work smallWork.id descendants =
        [smallWork.id] := by
      cases descendants
      · exact halone
      · exact htree
    refine steps_of_apply (by rw [hphase]; decide) ?_ ?_
      (by cases descendants <;> rfl) (by rw [hsequence]; rfl)
      (apply_cancelKind hrecord hqueued haffected) hbytes
    · have hlength := congrArg List.length hused
      rw [List.length_map] at hlength
      rw [hlength]
      decide
    · intro hmem
      have hvalue := List.mem_map_of_mem (f := OpaqueIdentifier.value) hmem
      rw [hused] at hvalue
      exact absurd hvalue (by decide)
  refine ⟨_ :: events, state, _, replay_eq_ok_iff.mpr
    ⟨⟨_, _, events, starts_smallStart sha256, hrun, rfl⟩, ?_⟩,
    fun descendants => replay_eq_ok_iff.mpr
      ⟨⟨_, _, _, starts_smallStart sha256, hrun.snoc (hsteps descendants), rfl⟩,
        ?_⟩⟩
  · rw [List.map_cons, hids]
    exact nodup_cancelledIds.sublist (List.take_sublist 3 cancelledIds)
  · rw [List.map_append, List.map_cons, hids]
    exact nodup_cancelledIds

end Cancelled

/-- Whatever the hash, a log without its last event is accepted, and so is a log
in which one event has been given another kind. -/
theorem changed_log_accepted : ¬ ∃ sha256 : List UInt8 → Sha256Digest,
    (∀ events event final, replay sha256 (events ++ [event]) = .ok final →
      ∀ middle, replay sha256 events ≠ .ok middle) ∨
    ∀ events event kind final,
      replay sha256 (events ++ [event]) = .ok final → kind ≠ event.kind →
      ∀ final', replay sha256 (events ++ [{ event with kind }]) ≠
        .ok final' := by
  rintro ⟨sha256, hclaim⟩
  obtain ⟨events, state, final, hstate, hfinal⟩ := replay_cancelledBy sha256
  rcases hclaim with hdropped | hchanged
  · exact hdropped events _ final (hfinal true) state hstate
  · exact hchanged events (cancelledBy sha256 state true)
      (cancelledBy sha256 state false).kind final (hfinal true) nofun final
      (hfinal false)

theorem replay_exact_of_cancelled : ∃ events final,
    replay (fun _ => zeroDigest) events = .ok final ∧
      ∀ kept, (∀ event ∈ kept, event ∈ events) →
      ((∃ middle, replay (fun _ => zeroDigest) kept = .ok middle) ↔
        kept ≠ [] ∧ kept <+: events) := by
  obtain ⟨events, state, final, -, hfinal⟩ :=
    replay_cancelledBy fun _ => zeroDigest
  exact ⟨_, final, hfinal true,
    (replay_exact fun _ => zeroDigest).2.1 _ final (hfinal true)⟩

end Peritus.Scheduler.Tampering
