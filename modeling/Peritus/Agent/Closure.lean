import Peritus.Agent.Edits

/-!
The fields of a turn and its phase.  They agree in every state but two kinds of
terminal ones: a turn that fails while it is paused keeps the phase it was
paused from, and a turn that is cancelled out of a proposed completion keeps the
proposal.
-/

namespace Peritus.Agent.Closure

open Peritus.Types TransitionSystem State Reducer Edits

/-! ### The closure of a state -/

/-- The active phase, a paused turn counting as the phase it was paused from. -/
def activePhase (state : AgentTurnState) : Option ActivePhase :=
  match state.phase with
  | .active active => some active
  | .paused => state.pausedFrom
  | _ => none

def slotInFlight (slot : ToolSlot) : Bool :=
  decide (slot.phase = .dispatched) || decide (slot.phase = .active)

/-- The number of calls that were dispatched and have no result. -/
def inFlight (state : AgentTurnState) : Nat :=
  match state.tools with
  | none => 0
  | some batch => batch.slots.countP slotInFlight

def holdsBatch : ActivePhase → Bool
  | .proposedToolCalls | .awaitingAuthorization | .executingTools
  | .recordingResults => true
  | _ => false

structure WithinLimits (counters : AgentCounters) (limits : AgentLimits) :
    Prop where
  toolCalls : counters.toolCalls ≤ limits.maxToolCalls
  providerEvents : counters.providerEvents ≤ limits.maxProviderEvents
  contextCycles : counters.contextCycles ≤ limits.maxContextCycles
  outputBytes : counters.outputBytes ≤ limits.maxOutputBytes
  toolResultBytes : counters.toolResultBytes ≤ limits.maxToolResultBytes
  activeToolCalls : counters.activeToolCalls ≤ limits.maxConcurrentToolCalls
  peakConcurrentToolCalls :
    counters.peakConcurrentToolCalls ≤ limits.maxConcurrentToolCalls
  transitions : counters.transitions ≤ limits.maxTransitions

structure Closed (state : AgentTurnState) : Prop where
  paused : state.pausedFrom.isSome = true ↔ state.phase = .paused
  completion : state.completion.isSome = true →
    activePhase state = some .proposedCompletion ∨ state.phase = .cancelling ∨
      state.phase = .terminal .completed
  failure : state.failure.isSome = true ↔ state.phase = .terminal .failed
  tools : ∀ active, activePhase state = some active →
    (state.tools.isSome = true ↔ holdsBatch active = true)
  activeToolCalls : state.counters.activeToolCalls = inFlight state
  model : activePhase state = some .streamingResponse →
    state.model.inFlight = true
  counters : WithinLimits state.counters state.limits

/-- The phases a slot of the batch can be in while the turn is active. -/
def slotAllowed : ActivePhase → ToolSlotPhase → Bool
  | .proposedToolCalls, .proposed => true
  | .awaitingAuthorization, .awaitingAuthorization
  | .awaitingAuthorization, .authorized
  | .awaitingAuthorization, .terminal => true
  | .executingTools, .authorized
  | .executingTools, .dispatched
  | .executingTools, .active
  | .executingTools, .terminal => true
  | .recordingResults, .terminal => true
  | _, _ => false

/-- The closure, and the phases of the slots, on which it rests. -/
structure Sound (state : AgentTurnState) : Prop extends Closed state where
  slots : ∀ active batch, activePhase state = some active →
    state.tools = some batch →
    ∀ slot ∈ batch.slots, slotAllowed active slot.phase = true

/-- Whether a command clears the fields of the phase it leaves. -/
def keepsClosed (state : AgentTurnState) (kind : AgentCommandKind) : Bool :=
  match kind with
  | .failed _ | .exhausted _ => decide (state.phase ≠ .paused)
  | .cancellationFinished => state.completion.isNone
  | _ => true

/-! ### Slots -/

section Slots

variable {state : AgentTurnState} {ordinal : ToolOrdinal} {slot replaced : ToolSlot}

theorem inFlight_of_forall {batch : ToolBatch} (htools : state.tools = some batch)
    (h : ∀ slot ∈ batch.slots, slotInFlight slot = false) :
    inFlight state = 0 := by
  unfold inFlight
  rw [htools]
  simpa [List.countP_eq_zero] using h

/-- Replacing one slot moves the number of calls in flight by that slot. -/
theorem inFlight_setSlot (hslot : SlotAt state ordinal slot) :
    inFlight (setSlot state ordinal replaced) +
        (if slotInFlight slot then 1 else 0) =
      inFlight state + if slotInFlight replaced then 1 else 0 := by
  obtain ⟨batch, hbatch, hget⟩ := hslot
  obtain ⟨hlt, hget⟩ := List.getElem?_eq_some_iff.mp hget
  have hpositive : slotInFlight slot = true →
      0 < batch.slots.countP slotInFlight := by
    intro h
    apply List.countP_pos_iff.mpr
    exact ⟨slot, hget ▸ List.getElem_mem hlt, h⟩
  have hset := List.countP_set hlt (p := slotInFlight) (a := replaced)
  rw [hget] at hset
  simp only [inFlight, setSlot, hbatch, Option.map_some, hset]
  cases h : slotInFlight slot with
  | false => simp
  | true =>
      have := hpositive h
      simp
      omega

theorem inFlight_setSlot_same (hslot : SlotAt state ordinal slot)
    (hsame : slotInFlight replaced = slotInFlight slot) :
    inFlight (setSlot state ordinal replaced) = inFlight state := by
  have hset := @inFlight_setSlot state ordinal slot replaced hslot
  rw [hsame] at hset
  exact Nat.add_right_cancel hset

theorem inFlight_setSlot_enter (hslot : SlotAt state ordinal slot)
    (hbefore : slotInFlight slot = false)
    (hafter : slotInFlight replaced = true) :
    inFlight (setSlot state ordinal replaced) = inFlight state + 1 := by
  have hset := @inFlight_setSlot state ordinal slot replaced hslot
  rw [hbefore, hafter] at hset
  exact hset

theorem inFlight_setSlot_leave (hslot : SlotAt state ordinal slot)
    (hbefore : slotInFlight slot = true)
    (hafter : slotInFlight replaced = false) :
    inFlight (setSlot state ordinal replaced) = inFlight state - 1 := by
  have hset := @inFlight_setSlot state ordinal slot replaced hslot
  rw [hbefore, hafter] at hset
  exact Nat.eq_sub_of_add_eq hset

/-- The slots of a batch after one of them is replaced. -/
theorem forall_setSlot {p : ToolSlot → Prop} {batch : ToolBatch}
    (htools : (setSlot state ordinal replaced).tools = some batch)
    (hreplaced : p replaced)
    (hall : ∀ before, state.tools = some before → ∀ slot ∈ before.slots, p slot) :
    ∀ slot ∈ batch.slots, p slot := by
  cases hbefore : state.tools with
  | none =>
      rw [setSlot, hbefore] at htools
      cases htools
  | some before =>
      rw [setSlot, hbefore] at htools
      cases htools
      intro slot hslot
      rcases List.mem_or_eq_of_mem_set hslot with hmem | rfl
      · exact hall before hbefore slot hmem
      · exact hreplaced

end Slots

/-! ### What an edit keeps -/

section Preservation

variable {sha256 : List UInt8 → Sha256Digest} {state next : AgentTurnState}
  {kind : AgentCommandKind}

theorem tools_of_active (hclosed : Closed state) {active : ActivePhase}
    (hphase : state.phase = .active active) (hnone : holdsBatch active = false) :
    state.tools = none := by
  rw [← Option.not_isSome_iff_eq_none,
    hclosed.tools active (by rw [activePhase, hphase]), hnone]
  exact Bool.false_ne_true

theorem paused_of_edit (hclosed : Closed state)
    (hedit : Edit sha256 state kind next)
    (hkeeps : keepsClosed state kind = true) :
    next.pausedFrom.isSome = true ↔ next.phase = .paused := by
  have hpaused := hclosed.paused
  cases hedit with
  | paused active hphase => simp
  | resumed active hphase hfrom => simp
  | cancellationRequested hphase => simp
  | cancellationFinished hphase => simp_all
  | failed failure hphase =>
      simp only [keepsClosed, decide_eq_true_eq] at hkeeps
      simp_all
  | exhausted failure hphase =>
      simp only [keepsClosed, decide_eq_true_eq] at hkeeps
      simp_all
  | _ => simp_all [setSlot]

theorem completion_of_edit (hclosed : Closed state)
    (hedit : Edit sha256 state kind next)
    (hkeeps : keepsClosed state kind = true) :
    next.completion.isSome = true →
      activePhase next = some .proposedCompletion ∨
        next.phase = .cancelling ∨ next.phase = .terminal .completed := by
  intro hsome
  have hplaced := hclosed.completion
  cases hedit with
  | completionProposed => exact .inl rfl
  | completionCommitted => exact .inr (.inr rfl)
  | cancellationRequested => exact .inr (.inl rfl)
  | cancellationFinished =>
      simp only [keepsClosed] at hkeeps
      simp_all
  | failed => cases hsome
  | exhausted => cases hsome
  | paused active hphase => simp_all [activePhase]
  | resumed active hphase hfrom => simp_all [activePhase]
  | _ => simp_all [activePhase, setSlot]

theorem failure_of_edit (hclosed : Closed state)
    (hedit : Edit sha256 state kind next) :
    next.failure.isSome = true ↔ next.phase = .terminal .failed := by
  have hfailure := hclosed.failure
  cases hedit with
  | failed => simp
  | exhausted => simp
  | cancellationRequested hphase => rcases hphase with ⟨_, h⟩ | h <;> simp_all
  | _ => simp_all [setSlot]

theorem tools_of_edit (hclosed : Closed state)
    (hedit : Edit sha256 state kind next) :
    ∀ active, activePhase next = some active →
      (next.tools.isSome = true ↔ holdsBatch active = true) := by
  intro active hactive
  have htools := hclosed.tools
  cases hedit with
  | paused => simp_all [activePhase]
  | resumed => simp_all [activePhase]
  | cancellationRequested => cases hactive
  | cancellationFinished => cases hactive
  | failed => cases hactive
  | exhausted => cases hactive
  | completionCommitted => cases hactive
  | toolCallsProposed => cases hactive; simp [holdsBatch]
  | resultsRecorded => cases hactive; simp [holdsBatch]
  | authorizationStarted => cases hactive; simp [holdsBatch]
  | toolExecutionStarted batch hphase hbatch =>
      cases hactive
      simp [hbatch, holdsBatch]
  | resultRecordingStarted batch hphase hbatch =>
      cases hactive
      simp [hbatch, holdsBatch]
  | _ =>
      simp only [activePhase, setSlot, *] at hactive htools ⊢
      cases hactive
      simpa [holdsBatch] using htools _ rfl

theorem model_of_edit (hclosed : Closed state)
    (hedit : Edit sha256 state kind next) :
    activePhase next = some .streamingResponse → next.model.inFlight = true := by
  intro hactive
  have hmodel := hclosed.model
  cases hedit with
  | modelRequestStarted => rfl
  | providerEventObserved record hphase =>
      exact hmodel (by rw [activePhase, hphase])
  | paused => simp_all [activePhase]
  | resumed => simp_all [activePhase]
  | _ => simp_all [activePhase, setSlot]

theorem counters_of_edit (hclosed : Closed state)
    (hedit : Edit sha256 state kind next) :
    WithinLimits next.counters next.limits := by
  have hcounters := hclosed.counters
  cases hedit with
  | contextPrepared context hphase hlimit =>
      exact { hcounters with contextCycles := hlimit }
  | providerEventObserved record hphase hevents hbytes =>
      exact { hcounters with providerEvents := hevents, outputBytes := hbytes }
  | toolCallsProposed terminal proposals hphase hbatch hlimit =>
      exact { hcounters with toolCalls := hlimit }
  | toolDispatched ordinal slot hphase hslot hauthorized hlimit =>
      exact { hcounters with
        activeToolCalls := hlimit
        peakConcurrentToolCalls :=
          max_le hcounters.peakConcurrentToolCalls hlimit }
  | toolCompleted ordinal result slot hphase hslot hrunning hactive hbytes =>
      exact { hcounters with
        toolResultBytes := hbytes
        activeToolCalls :=
          (Nat.sub_le _ _).trans hcounters.activeToolCalls }
  | _ => exact hcounters

theorem slots_of_edit (hsound : Sound state)
    (hedit : Edit sha256 state kind next) :
    ∀ active batch, activePhase next = some active → next.tools = some batch →
      ∀ slot ∈ batch.slots, slotAllowed active slot.phase = true := by
  intro active batch hactive htools
  have hslots := hsound.slots
  cases hedit with
  | toolCallsProposed =>
      cases hactive
      cases htools
      intro slot hslot
      obtain ⟨proposal, -, rfl⟩ := List.mem_map.mp hslot
      rfl
  | authorizationStarted before =>
      cases hactive
      cases htools
      intro slot hslot
      obtain ⟨proposal, -, rfl⟩ := List.mem_map.mp hslot
      rfl
  | toolAuthorized ordinal authorityDigest slot hphase =>
      have hsame : active = .awaitingAuthorization := by
        simp_all [activePhase, setSlot]
      subst hsame
      exact forall_setSlot htools rfl fun before hbefore =>
        hslots _ before (by rw [activePhase, hphase]) hbefore
  | toolDenied ordinal result slot hphase =>
      have hsame : active = .awaitingAuthorization := by
        simp_all [activePhase, setSlot]
      subst hsame
      exact forall_setSlot htools rfl fun before hbefore =>
        hslots _ before (by rw [activePhase, hphase]) hbefore
  | toolDispatched ordinal slot hphase =>
      have hsame : active = .executingTools := by
        simp_all [activePhase, setSlot]
      subst hsame
      exact @forall_setSlot state _ _ _ _ htools rfl fun before hbefore =>
        hslots _ before (by rw [activePhase, hphase]) hbefore
  | toolActivated ordinal slot hphase =>
      have hsame : active = .executingTools := by
        simp_all [activePhase, setSlot]
      subst hsame
      exact forall_setSlot htools rfl fun before hbefore =>
        hslots _ before (by rw [activePhase, hphase]) hbefore
  | toolProgressObserved ordinal sequence progressDigest slot hphase hslot
      hrunning =>
      have hsame : active = .executingTools := by
        simp_all [activePhase, setSlot]
      subst hsame
      refine forall_setSlot htools ?_ fun before hbefore =>
        hslots _ before (by rw [activePhase, hphase]) hbefore
      change slotAllowed _ slot.phase = true
      rw [hrunning]
      rfl
  | toolCompleted ordinal result slot hphase =>
      have hsame : active = .executingTools := by
        simp_all [activePhase, setSlot]
      subst hsame
      exact @forall_setSlot state _ _ _ _ htools rfl fun before hbefore =>
        hslots _ before (by rw [activePhase, hphase]) hbefore
  | toolExecutionStarted before hphase hbatch hdecided =>
      cases hactive
      rw [hbatch] at htools
      cases htools
      intro slot hslot
      rcases hdecided slot hslot with h | h <;> rw [h] <;> rfl
  | resultRecordingStarted before hphase hbatch hterminal =>
      cases hactive
      rw [hbatch] at htools
      cases htools
      intro slot hslot
      rw [hterminal slot hslot]
      rfl
  | resultsRecorded => cases htools
  | paused from' hphase =>
      cases hactive
      exact hslots _ batch (by rw [activePhase, hphase]) htools
  | resumed from' hphase hfrom =>
      cases hactive
      exact hslots _ batch (by rw [activePhase, hphase]; exact hfrom) htools
  | cancellationRequested => cases hactive
  | cancellationFinished => cases hactive
  | failed => cases hactive
  | exhausted => cases hactive
  | completionCommitted => cases hactive
  | contextPrepared context hphase =>
      rw [tools_of_active hsound.toClosed hphase rfl] at htools
      cases htools
  | modelRequestStarted callId requestDigest hphase =>
      rw [tools_of_active hsound.toClosed hphase rfl] at htools
      cases htools
  | providerEventObserved record hphase =>
      rw [tools_of_active hsound.toClosed hphase rfl] at htools
      cases htools
  | providerRetryScheduled record hphase =>
      rw [tools_of_active hsound.toClosed hphase rfl] at htools
      cases htools
  | completionProposed terminal proposal context hphase =>
      rw [tools_of_active hsound.toClosed hphase rfl] at htools
      cases htools

theorem activeToolCalls_of_edit (hsound : Sound state)
    (hedit : Edit sha256 state kind next) :
    next.counters.activeToolCalls = inFlight next := by
  have hcalls := hsound.activeToolCalls
  cases hedit with
  | toolCallsProposed terminal proposals hphase =>
      have hnone := tools_of_active hsound.toClosed hphase rfl
      have hzero : state.counters.activeToolCalls = 0 := by
        rw [hcalls, inFlight, hnone]
      have hproposed : ∀ slot ∈ proposals.map ToolSlot.proposed,
          slotInFlight slot = false := by
        intro slot hslot
        obtain ⟨proposal, -, rfl⟩ := List.mem_map.mp hslot
        rfl
      exact hzero.trans (inFlight_of_forall rfl hproposed).symm
  | authorizationStarted batch hphase hbatch =>
      have hquiet : ∀ slot ∈ batch.slots, slotInFlight slot = false := by
        intro slot hslot
        have hallowed := hsound.slots .proposedToolCalls batch
          (by rw [activePhase, hphase]) hbatch slot hslot
        cases h : slot.phase <;> simp_all [slotAllowed, slotInFlight]
      have hawaiting : ∀ slot ∈ batch.setAwaiting.slots,
          slotInFlight slot = false := by
        intro slot hslot
        obtain ⟨before, -, rfl⟩ := List.mem_map.mp hslot
        rfl
      rw [inFlight_of_forall rfl hawaiting]
      exact hcalls.trans (inFlight_of_forall hbatch hquiet)
  | toolAuthorized ordinal authorityDigest slot hphase hslot hawaiting =>
      rw [inFlight_setSlot_same hslot
        (by simp [slotInFlight, ToolSlot.authorize, hawaiting])]
      exact hcalls
  | toolDenied ordinal result slot hphase hdenied hslot hawaiting =>
      rw [inFlight_setSlot_same hslot
        (by simp [slotInFlight, ToolSlot.finish, hawaiting])]
      exact hcalls
  | toolDispatched ordinal slot hphase hslot hauthorized =>
      change state.counters.activeToolCalls + 1 =
        inFlight (setSlot state ordinal slot.dispatch)
      rw [hcalls, inFlight_setSlot_enter hslot
        (by simp [slotInFlight, hauthorized])
        (by simp [slotInFlight, ToolSlot.dispatch])]
  | toolActivated ordinal slot hphase hslot hdispatched =>
      rw [inFlight_setSlot_same hslot
        (by simp [slotInFlight, ToolSlot.activate, hdispatched])]
      exact hcalls
  | toolProgressObserved ordinal sequence progressDigest slot hphase hslot =>
      have hsame : slotInFlight (slot.progress progressDigest) =
          slotInFlight slot := rfl
      exact hcalls.trans (inFlight_setSlot_same hslot hsame).symm
  | toolCompleted ordinal result slot hphase hslot hrunning =>
      change state.counters.activeToolCalls - 1 =
        inFlight (setSlot state ordinal (slot.finish result))
      rw [hcalls, inFlight_setSlot_leave hslot
        (by rcases hrunning with h | h <;> simp [slotInFlight, h])
        (by simp [slotInFlight, ToolSlot.finish])]
  | resultsRecorded transcriptDigest batch hphase hbatch =>
      have hquiet : ∀ slot ∈ batch.slots, slotInFlight slot = false := by
        intro slot hslot
        have hallowed := hsound.slots .recordingResults batch
          (by rw [activePhase, hphase]) hbatch slot hslot
        cases h : slot.phase <;> simp_all [slotAllowed, slotInFlight]
      exact hcalls.trans (inFlight_of_forall hbatch hquiet)
  | _ => exact hcalls

theorem sound_of_edit (hsound : Sound state)
    (hedit : Edit sha256 state kind next)
    (hkeeps : keepsClosed state kind = true) : Sound next where
  paused := paused_of_edit hsound.toClosed hedit hkeeps
  completion := completion_of_edit hsound.toClosed hedit hkeeps
  failure := failure_of_edit hsound.toClosed hedit
  tools := tools_of_edit hsound.toClosed hedit
  activeToolCalls := activeToolCalls_of_edit hsound hedit
  model := model_of_edit hsound.toClosed hedit
  counters := counters_of_edit hsound.toClosed hedit
  slots := slots_of_edit hsound hedit

/-- What the two commands leave behind. -/
theorem not_closed_of_edit (hclosed : Closed state)
    (hedit : Edit sha256 state kind next)
    (hkeeps : keepsClosed state kind = false) :
    ¬ Closed next ∧ next.phase.isTerminal = true := by
  cases hedit with
  | failed failure hphase =>
      simp only [keepsClosed, decide_eq_false_iff_not, not_not] at hkeeps
      refine ⟨fun h => ?_, rfl⟩
      cases h.paused.mp (hclosed.paused.mpr hkeeps)
  | exhausted failure hphase =>
      simp only [keepsClosed, decide_eq_false_iff_not, not_not] at hkeeps
      refine ⟨fun h => ?_, rfl⟩
      cases h.paused.mp (hclosed.paused.mpr hkeeps)
  | cancellationFinished hphase =>
      simp only [keepsClosed, Option.isNone_eq_false_iff] at hkeeps
      refine ⟨fun h => ?_, rfl⟩
      rcases h.completion hkeeps with h | h | h <;> cases h
  | _ => cases hkeeps

end Preservation

/-! ### Turns -/

section Turns

variable {sha256 : List UInt8 → Sha256Digest} {state next counted applied :
    AgentTurnState} {event : AgentEvent} {kind : AgentCommandKind}

theorem sound_of_counted (hsound : Sound state)
    (hcounted : Counted state kind counted) : Sound counted := by
  cases hcounted with
  | spared => exact hsound
  | counted hlimit =>
      exact {
        paused := hsound.paused
        completion := hsound.completion
        failure := hsound.failure
        tools := hsound.tools
        activeToolCalls := hsound.activeToolCalls
        model := hsound.model
        counters := { hsound.counters with transitions := hlimit }
        slots := hsound.slots }

theorem keepsClosed_of_counted (hcounted : Counted state kind counted) :
    keepsClosed counted kind = keepsClosed state kind := by
  cases hcounted <;> rfl

/-- The cursor and the digest are not part of the closure. -/
theorem closed_finishTransition {sequence : EventSequence}
    {revision : RevisionNumber} {eventId : EventId} :
    Closed (finishTransition sha256 applied sequence revision eventId) ↔
      Closed applied :=
  ⟨fun h => ⟨h.paused, h.completion, h.failure, h.tools, h.activeToolCalls,
      h.model, h.counters⟩,
    fun h => ⟨h.paused, h.completion, h.failure, h.tools, h.activeToolCalls,
      h.model, h.counters⟩⟩

theorem sound_finishTransition {sequence : EventSequence}
    {revision : RevisionNumber} {eventId : EventId} (hsound : Sound applied) :
    Sound (finishTransition sha256 applied sequence revision eventId) where
  toClosed := closed_finishTransition.mpr hsound.toClosed
  slots := hsound.slots

theorem sound_of_starts {first : AgentEvent}
    (hstart : Starts sha256 first state) : Sound state := by
  obtain ⟨binding, limits, commandId, eventId, h⟩ := hstart
  obtain ⟨hlimit, -, -, -, rfl⟩ := start_eq_ok h
  exact {
    paused := by simp [sealState, initial]
    completion := by simp [sealState, initial]
    failure := by simp [sealState, initial]
    tools := by
      intro active hactive
      cases hactive
      simp [sealState, initial, holdsBatch]
    activeToolCalls := rfl
    model := fun h => by cases h
    counters :=
      { toolCalls := Nat.zero_le _
        providerEvents := Nat.zero_le _
        contextCycles := Nat.zero_le _
        outputBytes := Nat.zero_le _
        toolResultBytes := Nat.zero_le _
        activeToolCalls := Nat.zero_le _
        peakConcurrentToolCalls := Nat.zero_le _
        transitions := hlimit }
    slots := fun active batch _ htools => by cases htools }

theorem sound_of_accepted (hsound : Sound state)
    (haccepted : Accepted sha256 state event kind counted applied next)
    (hkeeps : keepsClosed state kind = true) : Sound next := by
  rw [haccepted.successor]
  apply sound_finishTransition
  apply sound_of_edit (sound_of_counted hsound haccepted.counts) haccepted.edit
  rw [keepsClosed_of_counted haccepted.counts]
  exact hkeeps

/-- A step out of a sound state is sound or the last one. -/
theorem unfinished_sound_of_accepted (hsound : Sound state)
    (haccepted : Accepted sha256 state event kind counted applied next)
    (hopen : next.phase.isTerminal = false) : Sound next := by
  by_cases hkeeps : keepsClosed state kind = true
  · exact sound_of_accepted hsound haccepted hkeeps
  · rw [Bool.not_eq_true, ← keepsClosed_of_counted haccepted.counts] at hkeeps
    have hcounted := sound_of_counted hsound haccepted.counts
    have hover :=
      (not_closed_of_edit hcounted.toClosed haccepted.edit hkeeps).2
    rw [haccepted.successor] at hopen
    change applied.phase.isTerminal = false at hopen
    rw [hover] at hopen
    cases hopen

/-- A turn that is not over is sound. -/
theorem sound_of_turn {events : List AgentEvent} (hturn : Turn sha256 events state)
    (hopen : state.phase.isTerminal = false) : Sound state := by
  refine hturn.invariant
    (fun _ state => state.phase.isTerminal = false → Sound state) ?_ ?_ hopen
  · intro first initial hstart _
    exact sound_of_starts hstart
  · intro log before event kind counted applied after hbefore haccepted hafter
    exact unfinished_sound_of_accepted (hbefore haccepted.unfinished) haccepted
      hafter

/-- The induction over a turn by the edits of its commands: what its start has,
what an edit of a sound state keeps, and what neither the count of transitions
nor the cursor touches. -/
theorem edit_invariant {events : List AgentEvent}
    (inv : List AgentCommandKind → AgentTurnState → Prop)
    (hinit : ∀ first initial, Starts sha256 first initial → inv [] initial)
    (hcounted : ∀ log state kind counted, inv log state →
      Counted state kind counted → inv log counted)
    (hsealed : ∀ log state sequence revision eventId, inv log state →
      inv log (finishTransition sha256 state sequence revision eventId))
    (hedit : ∀ log state kind next, inv log state → Sound state →
      Edit sha256 state kind next → inv (log ++ [kind]) next)
    (hturn : Turn sha256 events state) : inv (commands events) state := by
  refine (hturn.invariant (fun log state => inv log state ∧
    (state.phase.isTerminal = false → Sound state)) ?_ ?_).1
  · intro first initial hstart
    exact ⟨hinit first initial hstart, fun _ => sound_of_starts hstart⟩
  · rintro log before event kind counted applied after ⟨hinv, hbefore⟩ haccepted
    have hsound := hbefore haccepted.unfinished
    refine ⟨?_, unfinished_sound_of_accepted hsound haccepted⟩
    rw [haccepted.successor]
    apply hsealed
    exact hedit log counted kind applied
      (hcounted log before kind counted hinv haccepted.counts)
      (sound_of_counted hsound haccepted.counts) haccepted.edit

theorem sound_of_run {rest : List AgentEvent} (hsound : Sound state)
    (hrun : Run (fun state event next => Steps sha256 state event next ∧
      ∀ kind, event.kind = .commandAccepted kind →
        keepsClosed state kind = true) state rest next) : Sound next := by
  apply hrun.invariant ?_ hsound
  rintro before event after hbefore ⟨hstep, hkeeps⟩
  obtain ⟨kind, counted, applied, haccepted⟩ := exists_accepted hstep
  exact sound_of_accepted hbefore haccepted (hkeeps kind haccepted.recorded)

/-- An accepted command leaves a closed state exactly if it clears the fields of
the phase it leaves; a turn of such commands is closed throughout. -/
theorem turn_closure {events : List AgentEvent} (hturn : Turn sha256 events state) :
    (∀ event kind next, Steps sha256 state event next →
      event.kind = .commandAccepted kind →
      (Closed next ↔ keepsClosed state kind = true)) ∧
    ∀ first initial rest next, Starts sha256 first initial →
      Run (fun state event next => Steps sha256 state event next ∧
        ∀ kind, event.kind = .commandAccepted kind →
          keepsClosed state kind = true) initial rest next →
      Closed next := by
  constructor
  · intro event kind next hstep hkind
    obtain ⟨found, counted, applied, haccepted⟩ := exists_accepted hstep
    obtain rfl : found = kind := by
      rw [haccepted.recorded] at hkind
      exact AgentEventKind.commandAccepted.inj hkind
    have hsound := sound_of_turn hturn haccepted.unfinished
    constructor
    · intro hclosed
      by_contra hkeeps
      rw [Bool.not_eq_true, ← keepsClosed_of_counted haccepted.counts] at hkeeps
      have hcounted := sound_of_counted hsound haccepted.counts
      apply (not_closed_of_edit hcounted.toClosed haccepted.edit hkeeps).1
      rw [haccepted.successor] at hclosed
      exact closed_finishTransition.mp hclosed
    · intro hkeeps
      exact (sound_of_accepted hsound haccepted hkeeps).toClosed
  · intro first initial rest next hstart hrun
    exact (sound_of_run (sound_of_starts hstart) hrun).toClosed

end Turns

/-! ### A turn that fails while it is paused -/

def smallText : SafeText := ⟨"x", by decide +kernel⟩

def smallFailure : AgentFailure := ⟨.provider, smallText⟩

def pausedFailure : List Request :=
  [(smallId 2, .paused), (smallId 3, .failed smallFailure)]

theorem phases_pausedFailure (sha256 : List UInt8 → Sha256Digest) :
    (attempts sha256 (smallStart sha256) pausedFailure).map (fun state =>
      (state.phase, state.pausedFrom)) =
      some (.terminal .failed, some .preparingContext) := by
  cbv

/-- Whatever the hash, the phase it was paused from is kept. -/
theorem failed_while_paused : ¬ ∃ sha256, ∀ events state,
    Turn sha256 events state → Closed state := by
  rintro ⟨sha256, hclaim⟩
  obtain ⟨state, hstate, hphases⟩ :=
    Option.map_eq_some_iff.mp (phases_pausedFailure sha256)
  obtain ⟨hphase, hpaused⟩ := Prod.mk.inj hphases
  obtain ⟨events, -, -, hturn⟩ := turn_of_attempts hstate
  have hclosed := hclaim events state hturn
  have hfrom : state.phase = .paused := hclosed.paused.mp (by rw [hpaused]; rfl)
  rw [hphase] at hfrom
  cases hfrom

theorem turn_closure_of_resumed : ∃ events state event next,
    Turn (fun _ => zeroDigest) events state ∧
      Steps (fun _ => zeroDigest) state event next ∧
      event.kind = .commandAccepted (.resumed true) ∧
      state.phase = .paused ∧ Closed next := by
  have hphases : ((attempts (fun _ => zeroDigest) (smallStart fun _ => zeroDigest)
      [(smallId 2, .paused)]).bind fun state =>
        (advance (fun _ => zeroDigest) state (smallId 3) (.resumed true)).map fun _ =>
          (state.phase, keepsClosed state (.resumed true))) = some (.paused, true) := by
    cbv
  obtain ⟨state, hstate, hnext⟩ := Option.bind_eq_some_iff.mp hphases
  obtain ⟨next, hnext, hseen⟩ := Option.map_eq_some_iff.mp hnext
  obtain ⟨hpaused, hkeeps⟩ := Prod.mk.inj hseen
  obtain ⟨events, -, -, hturn⟩ := turn_of_attempts hstate
  obtain ⟨event, -, hkind, hstep⟩ := steps_of_advance hnext
  exact ⟨events, state, event, next, hturn, hstep, hkind, hpaused,
    ((turn_closure hturn).1 event _ next hstep hkind).mpr hkeeps⟩

end Peritus.Agent.Closure
