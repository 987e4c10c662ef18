import Peritus.Agent.Reducer
import Peritus.TransitionSystem

/-!
What an accepted command does to a turn, one constructor for each command, and
the runs of a turn: a start and the events the reducer emits after it.
-/

namespace Peritus.Agent.Edits

open Peritus.Types Checked TransitionSystem State Reducer

/-! ### Counters -/

section Counters

variable {counters next : AgentCounters} {limits : AgentLimits}

theorem checkedAdd_eq_ok_iff {width value add sum : Nat} :
    AgentCounters.checkedAdd width value add = .ok sum ↔
      value + add < 2 ^ width ∧ value + add = sum := by
  unfold AgentCounters.checkedAdd
  by_cases h : value + add < 2 ^ width
  · simp [h]
  · simp [h]

theorem transition_eq_ok (h : counters.transition limits = .ok next) :
    counters.transitions + 1 ≤ limits.maxTransitions ∧
      next = { counters with transitions := counters.transitions + 1 } := by
  simp only [AgentCounters.transition, bind_eq_ok_iff, checkedAdd_eq_ok_iff,
    AgentCounters.check, ensure_eq_ok_iff, decide_eq_true_eq,
    Except.ok.injEq] at h
  obtain ⟨_, ⟨_, rfl⟩, _, hlimit, rfl⟩ := h
  exact ⟨hlimit, rfl⟩

theorem contextCycle_eq_ok (h : counters.contextCycle limits = .ok next) :
    counters.contextCycles + 1 ≤ limits.maxContextCycles ∧
      next = { counters with contextCycles := counters.contextCycles + 1 } := by
  simp only [AgentCounters.contextCycle, bind_eq_ok_iff, checkedAdd_eq_ok_iff,
    AgentCounters.check, ensure_eq_ok_iff, decide_eq_true_eq,
    Except.ok.injEq] at h
  obtain ⟨_, ⟨_, rfl⟩, _, hlimit, rfl⟩ := h
  exact ⟨hlimit, rfl⟩

theorem providerEvent_eq_ok {bytes : Nat}
    (h : counters.providerEvent limits bytes = .ok next) :
    counters.providerEvents + 1 ≤ limits.maxProviderEvents ∧
      counters.outputBytes + bytes ≤ limits.maxOutputBytes ∧
      next = { counters with
        providerEvents := counters.providerEvents + 1
        outputBytes := counters.outputBytes + bytes } := by
  simp only [AgentCounters.providerEvent, bind_eq_ok_iff, checkedAdd_eq_ok_iff,
    AgentCounters.check, ensure_eq_ok_iff, decide_eq_true_eq,
    Except.ok.injEq] at h
  obtain ⟨_, ⟨_, rfl⟩, _, ⟨_, rfl⟩, _, hevents, _, hbytes, rfl⟩ := h
  exact ⟨hevents, hbytes, rfl⟩

theorem addTools_eq_ok {count : Nat}
    (h : counters.addTools limits count = .ok next) :
    counters.toolCalls + count ≤ limits.maxToolCalls ∧
      next = { counters with toolCalls := counters.toolCalls + count } := by
  simp only [AgentCounters.addTools, bind_eq_ok_iff, checkedAdd_eq_ok_iff,
    AgentCounters.check, ensure_eq_ok_iff, decide_eq_true_eq,
    Except.ok.injEq] at h
  obtain ⟨_, ⟨_, rfl⟩, _, hlimit, rfl⟩ := h
  exact ⟨hlimit, rfl⟩

theorem startTool_eq_ok (h : counters.startTool limits = .ok next) :
    counters.activeToolCalls + 1 ≤ limits.maxConcurrentToolCalls ∧
      next = { counters with
        activeToolCalls := counters.activeToolCalls + 1
        peakConcurrentToolCalls :=
          max counters.peakConcurrentToolCalls
            (counters.activeToolCalls + 1) } := by
  simp only [AgentCounters.startTool, bind_eq_ok_iff, checkedAdd_eq_ok_iff,
    AgentCounters.check, ensure_eq_ok_iff, decide_eq_true_eq,
    Except.ok.injEq] at h
  obtain ⟨_, ⟨_, rfl⟩, _, hlimit, rfl⟩ := h
  exact ⟨hlimit, rfl⟩

theorem finishTool_eq_ok {bytes : Nat}
    (h : counters.finishTool limits bytes = .ok next) :
    0 < counters.activeToolCalls ∧
      counters.toolResultBytes + bytes ≤ limits.maxToolResultBytes ∧
      next = { counters with
        activeToolCalls := counters.activeToolCalls - 1
        toolResultBytes := counters.toolResultBytes + bytes } := by
  simp only [AgentCounters.finishTool, bind_eq_ok_iff, checkedAdd_eq_ok_iff,
    AgentCounters.check, ensure_eq_ok_iff, decide_eq_true_eq,
    Except.ok.injEq] at h
  obtain ⟨_, hactive, _, ⟨_, rfl⟩, _, hlimit, rfl⟩ := h
  exact ⟨hactive, hlimit, rfl⟩

end Counters

/-! ### Slots -/

section Slots

variable {state next : AgentTurnState} {ordinal : ToolOrdinal}

/-- One slot of the batch of a state. -/
def SlotAt (state : AgentTurnState) (ordinal : ToolOrdinal) (slot : ToolSlot) :
    Prop :=
  ∃ batch, state.tools = some batch ∧
    batch.slots[ordinal.toNat]? = some slot

/-- The state with one slot of its batch replaced. -/
def setSlot (state : AgentTurnState) (ordinal : ToolOrdinal) (slot : ToolSlot) :
    AgentTurnState :=
  { state with
    tools := state.tools.map fun batch =>
      ⟨batch.slots.set ordinal.toNat slot⟩ }

theorem slotPhase_eq_ok {phase : ToolSlotPhase}
    (h : slotPhase state ordinal = .ok phase) :
    ∃ slot, SlotAt state ordinal slot ∧ slot.phase = phase := by
  unfold slotPhase tools ToolBatch.slotPhase at h
  rw [bind_eq_ok_iff] at h
  obtain ⟨batch, hbatch, hslot⟩ := h
  split at hbatch
  · next found hfound =>
      cases hbatch
      split at hslot
      · next slot hget =>
          cases hslot
          exact ⟨slot, ⟨batch, hfound, hget⟩, rfl⟩
      · cases hslot
  · cases hbatch

theorem updateSlot_eq_ok {update : ToolSlot → ToolSlot} {slot : ToolSlot}
    (h : updateSlot state ordinal update = .ok next)
    (hslot : SlotAt state ordinal slot) :
    next = setSlot state ordinal (update slot) := by
  obtain ⟨batch, hbatch, hget⟩ := hslot
  simp only [updateSlot, tools, hbatch, ToolBatch.updateSlot, hget,
    bind_eq_ok_iff, Except.ok.injEq, exists_eq_left'] at h
  rw [← h, setSlot, hbatch]
  rfl

theorem tools_eq_ok {batch : ToolBatch} (h : tools state = .ok batch) :
    state.tools = some batch := by
  unfold tools at h
  split at h
  · next found hfound =>
      cases h
      exact hfound
  · cases h

end Slots

/-! ### Edits -/

section Edit

variable (sha256 : List UInt8 → Sha256Digest) (state : AgentTurnState)

/-- What a command leaves of the state, before the cursor moves. -/
inductive Edit : AgentCommandKind → AgentTurnState → Prop
  | contextPrepared (context : ContextRecord)
      (hphase : state.phase = .active .preparingContext)
      (hlimit : state.counters.contextCycles + 1 ≤ state.limits.maxContextCycles) :
      Edit (.contextPrepared context) { state with
        phase := .active .requestingModel
        context := some context
        counters := { state.counters with
          contextCycles := state.counters.contextCycles + 1 } }
  | modelRequestStarted (callId : ModelCallId) (requestDigest : Sha256Digest)
      (hphase : state.phase = .active .requestingModel) :
      Edit (.modelRequestStarted callId requestDigest) { state with
        phase := .active .streamingResponse
        model := setModelStarted state.model callId requestDigest }
  | providerEventObserved (record : ProviderEventRecord)
      (hphase : state.phase = .active .streamingResponse)
      (hevents : state.counters.providerEvents + 1 ≤
        state.limits.maxProviderEvents)
      (hbytes : state.counters.outputBytes + record.outputBytes ≤
        state.limits.maxOutputBytes) :
      Edit (.providerEventObserved record) { state with
        phase := .active .streamingResponse
        model := setProviderObserved sha256 state.model record
        counters := { state.counters with
          providerEvents := state.counters.providerEvents + 1
          outputBytes := state.counters.outputBytes + record.outputBytes } }
  | providerRetryScheduled (record : ProviderRetryRecord)
      (hphase : state.phase = .active .streamingResponse) :
      Edit (.providerRetryScheduled record) { state with
        phase := .active .requestingModel
        model := setRetryScheduled sha256 state.model record }
  | toolCallsProposed (terminal : ModelTerminalRecord)
      (proposals : List ToolProposal)
      (hphase : state.phase = .active .streamingResponse)
      (hbatch : ToolBatch.new proposals state.binding.revision
        state.limits.maxToolCalls = .ok ⟨proposals.map ToolSlot.proposed⟩)
      (hlimit : state.counters.toolCalls + proposals.length ≤
        state.limits.maxToolCalls) :
      Edit (.toolCallsProposed terminal proposals) { state with
        phase := .active .proposedToolCalls
        model := setModelTerminal state.model terminal
        tools := some ⟨proposals.map ToolSlot.proposed⟩
        counters := { state.counters with
          toolCalls := state.counters.toolCalls + proposals.length } }
  | completionProposed (terminal : ModelTerminalRecord)
      (proposal : CompletionProposal) (context : ContextRecord)
      (hphase : state.phase = .active .streamingResponse)
      (hterminal : terminal.normalTerminal = true ∧
        terminal.incompleteItems = false ∧ terminal.usageSettled = true)
      (hrevision : proposal.revision = state.binding.revision)
      (huncertain : state.unresolvedIndeterminate = true →
        proposal.uncertainties ≠ [] ∧ proposal.requested ≠ .runGates ∧
          proposal.requested ≠ .requestReview)
      (hcontext : state.context = some context)
      (hrendered : proposal.transcripts.context = context.renderDigest)
      (hresponse : proposal.transcripts.model = terminal.responseDigest)
      (hrecorded : ∀ recorded, state.toolTranscriptDigest = some recorded →
        proposal.transcripts.tools = recorded) :
      Edit (.completionProposed terminal proposal) { state with
        phase := .active .proposedCompletion
        model := setModelTerminal state.model terminal
        completion := some proposal }
  | authorizationStarted (batch : ToolBatch)
      (hphase : state.phase = .active .proposedToolCalls)
      (hbatch : state.tools = some batch) :
      Edit .authorizationStarted { state with
        phase := .active .awaitingAuthorization
        tools := some batch.setAwaiting }
  | toolAuthorized (ordinal : ToolOrdinal) (authorityDigest : Sha256Digest)
      (slot : ToolSlot) (hphase : state.phase = .active .awaitingAuthorization)
      (hslot : SlotAt state ordinal slot)
      (hawaiting : slot.phase = .awaitingAuthorization) :
      Edit (.toolAuthorized ordinal authorityDigest)
        (setSlot state ordinal (slot.authorize authorityDigest))
  | toolDenied (ordinal : ToolOrdinal) (result : ToolResultRecord)
      (slot : ToolSlot) (hphase : state.phase = .active .awaitingAuthorization)
      (hdenied : result.status = .denied)
      (hslot : SlotAt state ordinal slot)
      (hawaiting : slot.phase = .awaitingAuthorization) :
      Edit (.toolDenied ordinal result)
        (setSlot state ordinal (slot.finish result))
  | toolExecutionStarted (batch : ToolBatch)
      (hphase : state.phase = .active .awaitingAuthorization)
      (hbatch : state.tools = some batch)
      (hdecided : ∀ slot ∈ batch.slots,
        slot.phase = .authorized ∨ slot.phase = .terminal) :
      Edit .toolExecutionStarted { state with phase := .active .executingTools }
  | toolDispatched (ordinal : ToolOrdinal) (slot : ToolSlot)
      (hphase : state.phase = .active .executingTools)
      (hslot : SlotAt state ordinal slot)
      (hauthorized : slot.phase = .authorized)
      (hlimit : state.counters.activeToolCalls + 1 ≤
        state.limits.maxConcurrentToolCalls) :
      Edit (.toolDispatched ordinal)
        { setSlot state ordinal slot.dispatch with
          counters := { state.counters with
            activeToolCalls := state.counters.activeToolCalls + 1
            peakConcurrentToolCalls :=
              max state.counters.peakConcurrentToolCalls
                (state.counters.activeToolCalls + 1) } }
  | toolActivated (ordinal : ToolOrdinal) (slot : ToolSlot)
      (hphase : state.phase = .active .executingTools)
      (hslot : SlotAt state ordinal slot)
      (hdispatched : slot.phase = .dispatched) :
      Edit (.toolActivated ordinal) (setSlot state ordinal slot.activate)
  | toolProgressObserved (ordinal : ToolOrdinal) (sequence : Nat)
      (progressDigest : Sha256Digest) (slot : ToolSlot)
      (hphase : state.phase = .active .executingTools)
      (hslot : SlotAt state ordinal slot) (hactive : slot.phase = .active) :
      Edit (.toolProgressObserved ordinal sequence progressDigest)
        (setSlot state ordinal (slot.progress progressDigest))
  | toolCompleted (ordinal : ToolOrdinal) (result : ToolResultRecord)
      (slot : ToolSlot) (hphase : state.phase = .active .executingTools)
      (hslot : SlotAt state ordinal slot)
      (hrunning : slot.phase = .dispatched ∨ slot.phase = .active)
      (hactive : 0 < state.counters.activeToolCalls)
      (hbytes : state.counters.toolResultBytes + result.modelVisibleBytes ≤
        state.limits.maxToolResultBytes) :
      Edit (.toolCompleted ordinal result)
        { setSlot state ordinal (slot.finish result) with
          counters := { state.counters with
            activeToolCalls := state.counters.activeToolCalls - 1
            toolResultBytes :=
              state.counters.toolResultBytes + result.modelVisibleBytes } }
  | resultRecordingStarted (batch : ToolBatch)
      (hphase : state.phase = .active .executingTools)
      (hbatch : state.tools = some batch)
      (hterminal : ∀ slot ∈ batch.slots, slot.phase = .terminal) :
      Edit .resultRecordingStarted { state with
        phase := .active .recordingResults }
  | resultsRecorded (transcriptDigest : Sha256Digest) (batch : ToolBatch)
      (hphase : state.phase = .active .recordingResults)
      (hbatch : state.tools = some batch) :
      Edit (.resultsRecorded transcriptDigest) { state with
        phase := .active .preparingContext
        unresolvedIndeterminate :=
          state.unresolvedIndeterminate || batch.hasIndeterminate
        toolTranscriptDigest := some transcriptDigest
        tools := none
        model := .default }
  | paused (active : ActivePhase) (hphase : state.phase = .active active) :
      Edit .paused { state with phase := .paused, pausedFrom := some active }
  | resumed (active : ActivePhase) (hphase : state.phase = .paused)
      (hpaused : state.pausedFrom = some active) :
      Edit (.resumed true) { state with
        phase := .active active, pausedFrom := none }
  | cancellationRequested
      (hphase : (∃ active, state.phase = .active active) ∨
        state.phase = .paused) :
      Edit .cancellationRequested { state with
        phase := .cancelling, pausedFrom := none }
  | cancellationFinished (hphase : state.phase = .cancelling) :
      Edit .cancellationFinished { state with phase := .terminal .cancelled }
  | failed (failure : AgentFailure) (hphase : state.phase.isTerminal = false) :
      Edit (.failed failure) { state with
        phase := .terminal .failed, failure := some failure, completion := none }
  | exhausted (failure : AgentFailure)
      (hphase : state.phase.isTerminal = false) :
      Edit (.exhausted failure) { state with
        phase := .terminal .failed, failure := some failure, completion := none }
  | completionCommitted (proposal : CompletionProposal)
      (hphase : state.phase = .active .proposedCompletion)
      (hcompletion : state.completion = some proposal) :
      Edit .completionCommitted { state with phase := .terminal .completed }

end Edit

section Inversion

variable {sha256 : List UInt8 → Sha256Digest} {state applied next : AgentTurnState}
  {kind : AgentCommandKind} {successorPhase : AgentPhase}

theorem requiredPhase_eq_ok {before expected after found : AgentPhase}
    (h : requiredPhase before expected after = .ok found) :
    before = expected ∧ after = found := by
  unfold requiredPhase at h
  split at h
  · next htag => exact ⟨AgentPhase.tag_injective htag, Except.ok.inj h⟩
  · cases h

theorem nonterminalFailure_eq_ok {before found : AgentPhase}
    (h : nonterminalFailure before = .ok found) :
    before.isTerminal = false ∧ .terminal .failed = found := by
  unfold nonterminalFailure at h
  cases before with
  | terminal kind => cases h
  | _ => exact ⟨rfl, Except.ok.inj h⟩

theorem setPhase_eq {phase : AgentPhase} (h : state.phase = phase) :
    { state with phase := phase } = state := by
  subst h
  rfl

/-- An update of one slot that leaves the phase of the turn as it is. -/
theorem slotPhase_and_update {ordinal : ToolOrdinal} {slot : ToolSlot}
    {update : ToolSlot → ToolSlot}
    (happlied : updateSlot state ordinal update = .ok applied)
    (hslot : SlotAt state ordinal slot) (hphase : state.phase = successorPhase) :
    { applied with phase := successorPhase } =
      setSlot state ordinal (update slot) := by
  rw [updateSlot_eq_ok happlied hslot]
  exact setPhase_eq hphase

theorem edit_of_ordinary
    (hphase : commandPhaseTransition state.phase kind state.model.inFlight
      state.completion.isSome = .ok successorPhase)
    (happlied : applyOrdinary sha256 state kind = .ok applied) :
    Edit sha256 state kind { applied with phase := successorPhase } := by
  cases kind with
  | contextPrepared context =>
      obtain ⟨hactive, rfl⟩ := requiredPhase_eq_ok hphase
      simp only [applyOrdinary, prepareContext, bind_eq_ok_iff,
        mapError_eq_ok_iff, Except.ok.injEq] at happlied
      obtain ⟨_, -, counters, hcounters, rfl⟩ := happlied
      obtain ⟨hlimit, rfl⟩ := contextCycle_eq_ok hcounters
      exact .contextPrepared context hactive hlimit
  | modelRequestStarted callId requestDigest =>
      obtain ⟨hactive, rfl⟩ := requiredPhase_eq_ok hphase
      simp only [applyOrdinary, startModel, check_bind_eq_ok_iff,
        Except.ok.injEq] at happlied
      obtain ⟨-, -, rfl⟩ := happlied
      exact .modelRequestStarted callId requestDigest hactive
  | providerEventObserved record =>
      obtain ⟨hactive, rfl⟩ := requiredPhase_eq_ok hphase
      simp only [applyOrdinary, observeProvider, bind_eq_ok_iff,
        exists_unit_iff, mapError_eq_ok_iff, Except.ok.injEq] at happlied
      obtain ⟨-, -, counters, hcounters, rfl⟩ := happlied
      obtain ⟨hevents, hbytes, rfl⟩ := providerEvent_eq_ok hcounters
      exact .providerEventObserved record hactive hevents hbytes
  | providerRetryScheduled record =>
      simp only [commandPhaseTransition] at hphase
      split at hphase
      · cases hphase
      · next htag =>
          split at hphase
          · cases hphase
          · cases hphase
            have hactive := AgentPhase.tag_injective (not_not.mp htag)
            simp only [applyOrdinary, scheduleRetry, check_bind_eq_ok_iff,
              Except.ok.injEq] at happlied
            obtain ⟨-, -, -, rfl⟩ := happlied
            exact .providerRetryScheduled record hactive
  | toolCallsProposed terminal proposals =>
      obtain ⟨hactive, rfl⟩ := requiredPhase_eq_ok hphase
      simp only [applyOrdinary, proposeTools, bind_eq_ok_iff,
        exists_unit_iff, mapError_eq_ok_iff, Except.ok.injEq] at happlied
      obtain ⟨-, -, batch, hbatch, -, counters, hcounters, rfl⟩ := happlied
      obtain ⟨hlimit, rfl⟩ := addTools_eq_ok hcounters
      have hslots : batch = ⟨proposals.map ToolSlot.proposed⟩ := by
        simp only [ToolBatch.new, check_bind_eq_ok_iff,
          Except.ok.injEq] at hbatch
        exact hbatch.2.2.2.symm
      subst hslots
      exact .toolCallsProposed terminal proposals hactive hbatch hlimit
  | completionProposed terminal proposal =>
      obtain ⟨hactive, rfl⟩ := requiredPhase_eq_ok hphase
      simp only [applyOrdinary, proposeCompletion, validateTerminal,
        check_bind_eq_ok_iff, ensure_eq_ok_iff, Bool.and_eq_true,
        Bool.not_eq_true', decide_eq_true_eq] at happlied
      obtain ⟨-, ⟨⟨hnormal, hcomplete⟩, hsettled⟩, hrevision, huncertain,
        happlied⟩ := happlied
      split at happlied
      · cases happlied
      · next context hcontext =>
          simp only [check_bind_eq_ok_iff, ensure_eq_ok_iff, Bool.and_eq_true,
            Bool.not_eq_true', decide_eq_true_eq, Except.ok.injEq] at happlied
          obtain ⟨⟨⟨hrendered, hresponse⟩, hrecorded⟩, rfl⟩ := happlied
          refine .completionProposed terminal proposal context hactive
            ⟨hnormal, hcomplete, hsettled⟩ hrevision ?_ hcontext hrendered
            hresponse ?_
          · intro hopen
            simpa [hopen, and_assoc] using huncertain
          · intro recorded hsome
            rw [hsome, Option.any_some, decide_eq_false_iff_not,
              not_not] at hrecorded
            exact hrecorded.symm
  | authorizationStarted =>
      obtain ⟨hactive, rfl⟩ := requiredPhase_eq_ok hphase
      simp only [applyOrdinary, startAuthorization, bind_eq_ok_iff,
        exists_unit_iff, Except.ok.injEq] at happlied
      obtain ⟨-, batch, hbatch, rfl⟩ := happlied
      exact .authorizationStarted batch hactive (tools_eq_ok hbatch)
  | toolAuthorized ordinal authorityDigest =>
      obtain ⟨hactive, rfl⟩ := requiredPhase_eq_ok hphase
      simp only [applyOrdinary, authorizeTool, bind_eq_ok_iff,
        exists_unit_iff, requireSlot, ensure_eq_ok_iff,
        decide_eq_true_eq] at happlied
      obtain ⟨-, phase, hfound, hawaiting, happlied⟩ := happlied
      obtain ⟨slot, hslot, rfl⟩ := slotPhase_eq_ok hfound
      rw [slotPhase_and_update happlied hslot hactive]
      exact .toolAuthorized ordinal authorityDigest slot hactive hslot hawaiting
  | toolDenied ordinal result =>
      obtain ⟨hactive, rfl⟩ := requiredPhase_eq_ok hphase
      simp only [applyOrdinary, denyTool, bind_eq_ok_iff,
        exists_unit_iff, requireSlot, ensure_eq_ok_iff,
        decide_eq_true_eq] at happlied
      obtain ⟨-, hdenied, phase, hfound, hawaiting, happlied⟩ := happlied
      obtain ⟨slot, hslot, rfl⟩ := slotPhase_eq_ok hfound
      rw [slotPhase_and_update happlied hslot hactive]
      exact .toolDenied ordinal result slot hactive hdenied hslot hawaiting
  | toolExecutionStarted =>
      obtain ⟨hactive, rfl⟩ := requiredPhase_eq_ok hphase
      simp only [applyOrdinary, beginExecution, bind_eq_ok_iff,
        exists_unit_iff, ensure_eq_ok_iff, List.all_eq_true, Bool.or_eq_true,
        decide_eq_true_eq, Except.ok.injEq] at happlied
      obtain ⟨⟨-, batch, hbatch, hdecided⟩, rfl⟩ := happlied
      exact .toolExecutionStarted batch hactive (tools_eq_ok hbatch) hdecided
  | toolDispatched ordinal =>
      obtain ⟨hactive, rfl⟩ := requiredPhase_eq_ok hphase
      simp only [applyOrdinary, dispatchTool, bind_eq_ok_iff,
        exists_unit_iff, ensure_eq_ok_iff, decide_eq_true_eq,
        mapError_eq_ok_iff] at happlied
      obtain ⟨-, phase, hfound, hauthorized, counters, hcounters, happlied⟩ :=
        happlied
      obtain ⟨slot, hslot, rfl⟩ := slotPhase_eq_ok hfound
      obtain ⟨hlimit, rfl⟩ := startTool_eq_ok hcounters
      rw [slotPhase_and_update happlied hslot hactive]
      exact .toolDispatched ordinal slot hactive hslot hauthorized hlimit
  | toolActivated ordinal =>
      obtain ⟨hactive, rfl⟩ := requiredPhase_eq_ok hphase
      simp only [applyOrdinary, activateTool, bind_eq_ok_iff,
        exists_unit_iff, requireSlot, ensure_eq_ok_iff,
        decide_eq_true_eq] at happlied
      obtain ⟨-, phase, hfound, hdispatched, happlied⟩ := happlied
      obtain ⟨slot, hslot, rfl⟩ := slotPhase_eq_ok hfound
      rw [slotPhase_and_update happlied hslot hactive]
      exact .toolActivated ordinal slot hactive hslot hdispatched
  | toolProgressObserved ordinal sequence progressDigest =>
      obtain ⟨hactive, rfl⟩ := requiredPhase_eq_ok hphase
      simp only [applyOrdinary, progressTool, bind_eq_ok_iff,
        exists_unit_iff, requireSlot, ensure_eq_ok_iff,
        decide_eq_true_eq] at happlied
      obtain ⟨-, phase, hfound, hrunning, batch, -, -, happlied⟩ := happlied
      obtain ⟨slot, hslot, rfl⟩ := slotPhase_eq_ok hfound
      rw [slotPhase_and_update happlied hslot hactive]
      exact .toolProgressObserved ordinal sequence progressDigest slot hactive
        hslot hrunning
  | toolCompleted ordinal result =>
      obtain ⟨hactive, rfl⟩ := requiredPhase_eq_ok hphase
      simp only [applyOrdinary, completeTool, bind_eq_ok_iff,
        exists_unit_iff, ensure_eq_ok_iff, Bool.or_eq_true, decide_eq_true_eq,
        mapError_eq_ok_iff] at happlied
      obtain ⟨-, phase, hfound, hrunning, counters, hcounters, happlied⟩ :=
        happlied
      obtain ⟨slot, hslot, rfl⟩ := slotPhase_eq_ok hfound
      obtain ⟨hopen, hbytes, rfl⟩ := finishTool_eq_ok hcounters
      rw [slotPhase_and_update happlied hslot hactive]
      exact .toolCompleted ordinal result slot hactive hslot hrunning hopen
        hbytes
  | resultRecordingStarted =>
      obtain ⟨hactive, rfl⟩ := requiredPhase_eq_ok hphase
      simp only [applyOrdinary, startRecording, bind_eq_ok_iff,
        exists_unit_iff, ensure_eq_ok_iff, ToolBatch.allTerminal,
        Bool.and_eq_true, List.all_eq_true, decide_eq_true_eq,
        Except.ok.injEq] at happlied
      obtain ⟨⟨-, batch, hbatch, hterminal, -⟩, rfl⟩ := happlied
      exact .resultRecordingStarted batch hactive (tools_eq_ok hbatch) hterminal
  | resultsRecorded transcriptDigest =>
      obtain ⟨hactive, rfl⟩ := requiredPhase_eq_ok hphase
      simp only [applyOrdinary, recordResults, bind_eq_ok_iff,
        exists_unit_iff, Except.ok.injEq] at happlied
      obtain ⟨-, batch, hbatch, rfl⟩ := happlied
      exact .resultsRecorded transcriptDigest batch hactive (tools_eq_ok hbatch)
  | paused => cases hphase
  | resumed recoveryChecked => cases hphase
  | cancellationRequested => cases hphase
  | cancellationFinished => cases hphase
  | failed failure =>
      obtain ⟨hopen, rfl⟩ := nonterminalFailure_eq_ok hphase
      simp only [applyOrdinary, fail, check_bind_eq_ok_iff,
        Except.ok.injEq] at happlied
      obtain ⟨-, rfl⟩ := happlied
      exact .failed failure hopen
  | exhausted failure =>
      obtain ⟨hopen, rfl⟩ := nonterminalFailure_eq_ok hphase
      simp only [applyOrdinary, fail, check_bind_eq_ok_iff,
        Except.ok.injEq] at happlied
      obtain ⟨-, rfl⟩ := happlied
      exact .exhausted failure hopen
  | completionCommitted =>
      simp only [commandPhaseTransition] at hphase
      split at hphase
      · cases hphase
      · next htag =>
          split at hphase
          · cases hphase
          · cases hphase
            have hactive := AgentPhase.tag_injective (not_not.mp htag)
            simp only [applyOrdinary, check_bind_eq_ok_iff, ensure_eq_ok_iff,
              Except.ok.injEq] at happlied
            obtain ⟨-, hsome, rfl⟩ := happlied
            obtain ⟨proposal, hcompletion⟩ := Option.isSome_iff_exists.mp hsome
            exact .completionCommitted proposal hactive hcompletion

theorem edit_of_applyKind (h : applyKind sha256 state kind = .ok next) :
    Edit sha256 state kind next := by
  have hordinary : ∀ {kind}, ((do
      let successorPhase ← (commandPhaseTransition state.phase kind
        state.model.inFlight state.completion.isSome).mapError
          (phaseTransitionRejection state)
      let applied ← applyOrdinary sha256 state kind
      .ok { applied with phase := successorPhase }) :
        Except AgentRejection AgentTurnState) = .ok next →
      Edit sha256 state kind next := by
    intro kind h
    simp only [bind_eq_ok_iff, mapError_eq_ok_iff, Except.ok.injEq] at h
    obtain ⟨successorPhase, hphase, applied, happlied, rfl⟩ := h
    exact edit_of_ordinary hphase happlied
  cases kind with
  | paused =>
      simp only [applyKind, mapError_eq_ok_iff, pause] at h
      split at h
      · next active hactive =>
          cases h
          exact .paused active hactive
      · cases h
  | resumed recoveryChecked =>
      simp only [applyKind, mapError_eq_ok_iff, resume] at h
      split at h
      · next hphase =>
          split at h
          · cases h
          · next hchecked =>
              split at h
              · cases h
              · next active hpaused =>
                  cases h
                  rw [Bool.not_eq_true, Bool.not_eq_false'] at hchecked
                  subst hchecked
                  exact .resumed active hphase hpaused
      · cases h
  | cancellationRequested =>
      simp only [applyKind, mapError_eq_ok_iff, requestCancellation] at h
      split at h
      · next active hactive =>
          cases h
          exact .cancellationRequested (.inl ⟨active, hactive⟩)
      · next hphase =>
          cases h
          exact .cancellationRequested (.inr hphase)
      · cases h
  | cancellationFinished =>
      simp only [applyKind, mapError_eq_ok_iff, finishCancellation] at h
      split at h
      · next hphase =>
          cases h
          exact .cancellationFinished hphase
      · cases h
  | _ => exact hordinary h

end Inversion

/-! ### Steps and runs -/

section Runs

variable (sha256 : List UInt8 → Sha256Digest)

def Starts (first : AgentEvent) (initial : AgentTurnState) : Prop :=
  ∃ binding limits commandId eventId,
    start sha256 binding limits commandId eventId = .ok ⟨first, initial⟩

def Steps (state : AgentTurnState) (event : AgentEvent)
    (next : AgentTurnState) : Prop :=
  ∃ command, reduce sha256 state command = .ok ⟨event, next⟩

/-- A turn: the events of an accepted start and of the commands after it. -/
def Turn (events : List AgentEvent) (state : AgentTurnState) : Prop :=
  ∃ first initial rest, Starts sha256 first initial ∧
    Run (Steps sha256) initial rest state ∧ events = first :: rest

/-- The commands that the events of a turn record. -/
def commands (events : List AgentEvent) : List AgentCommandKind :=
  events.filterMap fun event =>
    match event.kind with
    | .started _ _ => none
    | .commandAccepted kind => some kind

/-- One transition is counted, but for the last one of an exhausted turn. -/
inductive Counted (state : AgentTurnState) (kind : AgentCommandKind) :
    AgentTurnState → Prop
  | spared (hspared : transitionLimitExhaustion state kind = true) :
      Counted state kind state
  | counted (hlimit : state.counters.transitions + 1 ≤
        state.limits.maxTransitions) :
      Counted state kind { state with
        counters := { state.counters with
          transitions := state.counters.transitions + 1 } }

variable {sha256} {state next counted : AgentTurnState} {event : AgentEvent}
  {kind : AgentCommandKind}

theorem counted_of_countTransition (h : countTransition state kind = .ok counted) :
    Counted state kind counted := by
  unfold countTransition at h
  split at h
  · next hspared =>
      cases h
      exact .spared hspared
  · split at h
    · next counters hcounters =>
        cases h
        obtain ⟨hlimit, rfl⟩ := transition_eq_ok hcounters
        exact .counted hlimit
    · cases h

/-- What the acceptance of a command says of its event and of the states before
and after it. -/
structure Accepted (sha256 : List UInt8 → Sha256Digest) (state : AgentTurnState)
    (event : AgentEvent) (kind : AgentCommandKind)
    (counted applied next : AgentTurnState) : Prop where
  unfinished : state.phase.isTerminal = false
  fresh : event.id ≠ state.lastEventId
  recorded : event.kind = .commandAccepted kind
  counts : Counted state kind counted
  edit : Edit sha256 counted kind applied
  successor : next = finishTransition sha256 applied event.sequence
    event.successorRevision event.id

theorem exists_accepted (hstep : Steps sha256 state event next) :
    ∃ kind counted applied,
      Accepted sha256 state event kind counted applied next := by
  obtain ⟨command, h⟩ := hstep
  simp only [reduce, bind_eq_ok_iff, exists_unit_iff, ensure_eq_ok_iff,
    mapError_eq_ok_iff, Except.ok.injEq, AgentTransition.mk.injEq,
    Bool.not_eq_true', Bool.and_eq_true, decide_eq_true_eq] at h
  obtain ⟨hopen, ⟨-, hfresh⟩, sequence, -, revision, -, counted, hcounted,
    applied, happlied, rfl, rfl⟩ := h
  exact ⟨command.kind, counted, applied,
    { unfinished := hopen
      fresh := hfresh
      recorded := rfl
      counts := counted_of_countTransition hcounted
      edit := edit_of_applyKind happlied
      successor := rfl }⟩

theorem commands_append (events others : List AgentEvent) :
    commands (events ++ others) = commands events ++ commands others :=
  List.filterMap_append

theorem commands_singleton (h : event.kind = .commandAccepted kind) :
    commands [event] = [kind] := by
  simp [commands, h]

theorem start_eq_ok {binding : AgentBinding} {limits : AgentLimits}
    {commandId : CommandId} {eventId : EventId} {first : AgentEvent}
    (h : start sha256 binding limits commandId eventId = .ok ⟨first, state⟩) :
    1 ≤ limits.maxTransitions ∧ first.kind = .started binding limits ∧
      first.commandId = commandId ∧ first.id = eventId ∧
      state = sealState sha256 (initial binding limits eventId
        { AgentCounters.default with transitions := 1 }) := by
  simp only [start, bind_eq_ok_iff, Except.ok.injEq,
    AgentTransition.mk.injEq] at h
  obtain ⟨counters, hcounters, rfl, rfl⟩ := h
  obtain ⟨hlimit, rfl⟩ := transition_eq_ok hcounters
  exact ⟨hlimit, rfl, rfl, rfl, rfl⟩

theorem commands_started {first : AgentEvent} {initial : AgentTurnState}
    (hstart : Starts sha256 first initial) : commands [first] = [] := by
  obtain ⟨binding, limits, commandId, eventId, h⟩ := hstart
  simp [commands, (start_eq_ok h).2.1]

/-- The induction over a turn: what its start has and its steps keep. -/
theorem Turn.invariant (inv : List AgentCommandKind → AgentTurnState → Prop)
    (hinit : ∀ first initial, Starts sha256 first initial → inv [] initial)
    (hstep : ∀ log state event kind counted applied next, inv log state →
      Accepted sha256 state event kind counted applied next →
      inv (log ++ [kind]) next)
    {events : List AgentEvent} (hturn : Turn sha256 events state) :
    inv (commands events) state := by
  obtain ⟨first, initial, rest, hstart, hrun, rfl⟩ := hturn
  refine @Run.log_invariant _ _ (Steps sha256)
    (fun events state => inv (commands events) state) ?_ _ _ [first] _ hrun ?_
  · intro log before event next hinv hstep'
    obtain ⟨kind, counted, applied, haccepted⟩ := exists_accepted hstep'
    rw [commands_append, commands_singleton haccepted.recorded]
    exact hstep (commands log) _ _ _ _ _ _ hinv haccepted
  · rw [commands_started hstart]
    exact hinit first initial hstart

end Runs

/-! ### Commands built from the state they meet -/

section Attempts

variable (sha256 : List UInt8 → Sha256Digest)

/-- The state after a command that carries the fences of the state before. -/
def advance (state : AgentTurnState) (id : OpaqueIdentifier)
    (kind : AgentCommandKind) : Option AgentTurnState :=
  if state.phase.isTerminal = false ∧ id ≠ state.lastEventId then
    match state.sequence.checkedNext, state.logicalRevision.checkedNext,
        countTransition state kind with
    | .ok sequence, .ok revision, .ok counted =>
        match applyKind sha256 counted kind with
        | .ok applied =>
            some (finishTransition sha256 applied sequence revision id)
        | .error _ => none
    | _, _, _ => none
  else none

abbrev Request := OpaqueIdentifier × AgentCommandKind

def attempts : AgentTurnState → List Request → Option AgentTurnState
  | state, [] => some state
  | state, (id, kind) :: rest =>
      match advance sha256 state id kind with
      | some next => attempts next rest
      | none => none

variable {sha256} {state next : AgentTurnState}

theorem steps_of_advance {id : OpaqueIdentifier} {kind : AgentCommandKind}
    (h : advance sha256 state id kind = some next) :
    ∃ event, event.id = id ∧ event.kind = .commandAccepted kind ∧
      Steps sha256 state event next := by
  unfold advance at h
  split at h
  · next hfences =>
      split at h
      · next sequence revision counted hsequence hrevision hcounted =>
          split at h
          · next applied happlied =>
              cases h
              obtain ⟨command, hcommand⟩ : ∃ command : AgentCommand, command =
                ⟨id, id, state.logicalRevision, state.stateDigest, kind⟩ :=
                  ⟨_, rfl⟩
              refine ⟨acceptedEvent state command sequence revision
                (finishTransition sha256 applied sequence revision id), ?_, ?_,
                command, ?_⟩ <;> subst hcommand
              · rfl
              · rfl
              · simp only [reduce, bind_eq_ok_iff, exists_unit_iff,
                  ensure_eq_ok_iff, mapError_eq_ok_iff]
                exact ⟨by simpa using hfences.1, by simpa using hfences.2,
                  sequence, hsequence, revision, hrevision, counted, hcounted,
                  applied, happlied, rfl⟩
          · cases h
      · cases h
  · cases h

theorem run_of_attempts {requests : List Request}
    (h : attempts sha256 state requests = some next) :
    ∃ events : List AgentEvent,
      events.map AgentEvent.id = requests.map Prod.fst ∧
        commands events = requests.map Prod.snd ∧
        Run (Steps sha256) state events next := by
  induction requests generalizing state with
  | nil =>
      cases h
      exact ⟨[], rfl, rfl, .nil next⟩
  | cons request rest ih =>
      obtain ⟨id, kind⟩ := request
      unfold attempts at h
      split at h
      · next after hafter =>
          obtain ⟨event, hid, hkind, hstep⟩ := steps_of_advance hafter
          obtain ⟨events, hids, hkinds, hrun⟩ := ih h
          refine ⟨event :: events, ?_, ?_, .cons hstep hrun⟩
          · rw [List.map_cons, List.map_cons, hids, hid]
          · rw [← List.singleton_append, commands_append,
              commands_singleton hkind, hkinds]
            rfl
      · cases h

/-! ### A small turn -/

def smallId (value : Nat) : OpaqueIdentifier := .ofNat value

def smallRevision : RevisionTuple :=
  ⟨smallId 1, smallId 1, smallId 1, .first, .first, smallId 1, smallId 1⟩

def smallBinding : AgentBinding where
  turnId := smallId 1
  attemptId := smallId 1
  actorId := smallId 1
  role := .writer
  roleProfile := ⟨.writer⟩
  sessionId := smallId 1
  environmentId := smallId 1
  revision := smallRevision
  providerProfileId := smallId 1
  providerProfileRevision := .first
  limitsRevision := .first
  producer := .inl rfl
  profiled := rfl
  provided := rfl

def smallLimits : AgentLimits :=
  ⟨4, 8, 4, 64, 8, 2, 64, by decide, by decide, by decide, by decide, by decide,
    by decide, by decide⟩

def smallStart (sha256 : List UInt8 → Sha256Digest) : AgentTurnState :=
  sealState sha256 (initial smallBinding smallLimits (smallId 1)
    { AgentCounters.default with transitions := 1 })

def smallFirst (sha256 : List UInt8 → Sha256Digest) : AgentEvent where
  id := smallId 1
  commandId := smallId 1
  sequence := .first
  previousEventId := none
  priorPhase := none
  priorResumable := none
  priorRevision := none
  successorRevision := .first
  priorStateDigest := zeroDigest
  successorStateDigest := (smallStart sha256).stateDigest
  kind := .started smallBinding smallLimits

theorem starts_smallStart (sha256 : List UInt8 → Sha256Digest) :
    Starts sha256 (smallFirst sha256) (smallStart sha256) :=
  ⟨smallBinding, smallLimits, smallId 1, smallId 1, rfl⟩

theorem turn_of_attempts {requests : List Request}
    (h : attempts sha256 (smallStart sha256) requests = some next) :
    ∃ events, events.map AgentEvent.id = smallId 1 :: requests.map Prod.fst ∧
      commands events = requests.map Prod.snd ∧ Turn sha256 events next := by
  obtain ⟨events, hids, hkinds, hrun⟩ := run_of_attempts h
  refine ⟨smallFirst sha256 :: events, ?_, ?_, _, _, _,
    starts_smallStart sha256, hrun, rfl⟩
  · rw [List.map_cons, hids]
    rfl
  · exact hkinds

end Attempts

end Peritus.Agent.Edits
