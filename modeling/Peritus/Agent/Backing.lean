import Peritus.Agent.History

/-!
What backs a completed turn: the proposal that was committed speaks of the last
context, the last model call and the last recorded batch, and no call that was
dispatched is left without its result.
-/

namespace Peritus.Agent.Backing

open Peritus.Types TransitionSystem State Reducer Edits Closure History

/-! ### The last record of its kind -/

def preparedContext : AgentCommandKind → Option ContextRecord
  | .contextPrepared context => some context
  | _ => none

def recordedTranscript : AgentCommandKind → Option Sha256Digest
  | .resultsRecorded digest => some digest
  | _ => none

/-- The record that the last of the commands that carry one carries. -/
def latest {α : Type} (record : AgentCommandKind → Option α)
    (log : List AgentCommandKind) : Option α :=
  (log.filterMap record).getLast?

section Latest

variable {α : Type} {record : AgentCommandKind → Option α}
  {log : List AgentCommandKind} {kind : AgentCommandKind}

theorem latest_append_some {value : α} (h : record kind = some value) :
    latest record (log ++ [kind]) = some value := by
  simp [latest, h]

theorem latest_append_none (h : record kind = none) :
    latest record (log ++ [kind]) = latest record log := by
  simp [latest, h]

end Latest

section Runs

variable {sha256 : List UInt8 → Sha256Digest} {state next : AgentTurnState}
  {events : List AgentEvent} {log : List AgentCommandKind}
  {kind other : AgentCommandKind} {proposal : CompletionProposal}

theorem context_of_turn (hturn : Turn sha256 events state) :
    state.context = latest preparedContext (commands events) := by
  refine edit_invariant
    (fun log state => state.context = latest preparedContext log)
    ?_ ?_ ?_ ?_ hturn
  · rintro first initial ⟨binding, limits, commandId, eventId, h⟩
    obtain ⟨-, -, -, -, rfl⟩ := start_eq_ok h
    rfl
  · intro log before kind counted hcontext hcount
    cases hcount <;> exact hcontext
  · intro log before sequence revision eventId hcontext
    exact hcontext
  · intro log before kind after hcontext _ hedit
    cases hedit with
    | contextPrepared context =>
        refine Eq.symm (latest_append_some ?_)
        rfl
    | _ => exact hcontext.trans (latest_append_none rfl).symm

theorem toolTranscript_of_turn (hturn : Turn sha256 events state) :
    state.toolTranscriptDigest =
      latest recordedTranscript (commands events) := by
  refine edit_invariant (fun log state =>
    state.toolTranscriptDigest = latest recordedTranscript log) ?_ ?_ ?_ ?_ hturn
  · rintro first initial ⟨binding, limits, commandId, eventId, h⟩
    obtain ⟨-, -, -, -, rfl⟩ := start_eq_ok h
    rfl
  · intro log before kind counted hdigest hcount
    cases hcount <;> exact hdigest
  · intro log before sequence revision eventId hdigest
    exact hdigest
  · intro log before kind after hdigest _ hedit
    cases hedit with
    | resultsRecorded digest =>
        refine Eq.symm (latest_append_some ?_)
        rfl
    | _ => exact hdigest.trans (latest_append_none rfl).symm

/-! ### Indeterminate results -/

/-- A call of the batch ended without a known result. -/
def Uncertain (batch : BatchLog) : Prop :=
  ∃ ordinal result, .toolCompleted ordinal result ∈ batch.calls ∧
    result.status = .indeterminate

theorem hasIndeterminate_of_tracks {batch : ToolBatch}
    {calls : List AgentCommandKind} {ordinal : ToolOrdinal}
    {result : ToolResultRecord} (htracks : Tracks calls batch.slots)
    (hmem : .toolCompleted ordinal result ∈ calls)
    (hstatus : result.status = .indeterminate) :
    batch.hasIndeterminate = true := by
  have hcall : .toolCompleted ordinal result ∈ callsOf ordinal calls := by
    simp [callsOf, hmem, callOrdinal]
  cases hget : batch.slots[ordinal.toNat]? with
  | none =>
      rw [htracks.absent ordinal hget] at hcall
      cases hcall
  | some slot =>
      have htrail := htracks.trail ordinal slot hget
      have hresult : slot.result = some result := by
        generalize callsOf ordinal calls = trail at htrail hcall
        cases htrail <;> simp_all
      refine List.any_eq_true.mpr ⟨slot, List.mem_of_getElem? hget, ?_⟩
      simp [hresult, hstatus]

/-- What is recorded as uncertain is never forgotten. -/
theorem unresolved_of_turn (hturn : Turn sha256 events state)
    {batch : BatchLog} (hbatch : batch ∈ (turnLog (commands events)).batches)
    (hrecorded : batch.transcript.isSome = true) (huncertain : Uncertain batch) :
    state.unresolvedIndeterminate = true := by
  refine logged_invariant (fun log state =>
    ∀ batch ∈ (turnLog log).batches, batch.transcript.isSome = true →
      Uncertain batch → state.unresolvedIndeterminate = true) ?_ ?_ ?_ ?_ hturn
    batch hbatch hrecorded huncertain
  · intro first initial _ batch hbatch
    cases hbatch
  · intro log before kind counted hinv hcount
    cases hcount <;> exact hinv
  · intro log before sequence revision eventId hinv
    exact hinv
  · intro log before kind after hinv _ hlogged hedit
    have hquiet : ∀ other, ∀ batch ∈ ((turnLog log).pushCall other).batches,
        batch.transcript.isSome = true → Uncertain batch →
        before.unresolvedIndeterminate = true := by
      intro other batch hbatch hrecorded huncertain
      refine hinv batch ?_ hrecorded huncertain
      unfold TurnLog.pushCall at hbatch
      split at hbatch
      · next proposals calls rest heq =>
          rw [heq]
          rcases List.mem_cons.mp hbatch with rfl | hbatch
          · cases hrecorded
          · exact List.mem_cons_of_mem _ hbatch
      · exact hbatch
    rw [turnLog_append]
    cases hedit with
    | toolCallsProposed terminal proposals =>
        intro batch hbatch hrecorded huncertain
        rcases List.mem_cons.mp hbatch with rfl | hbatch
        · cases hrecorded
        · exact hinv batch hbatch hrecorded huncertain
    | resultsRecorded digest found hphase hfound =>
        intro batch hbatch hrecorded huncertain
        rw [hfound] at hlogged
        generalize turnLog log = now at hlogged hinv hbatch
        rw [Bool.or_eq_true]
        cases hlogged with
        | current _ calls batches others htracks =>
            rcases List.mem_cons.mp hbatch with rfl | hbatch
            · obtain ⟨ordinal, result, hmem, hstatus⟩ := huncertain
              exact .inr (hasIndeterminate_of_tracks htracks hmem hstatus)
            · exact .inl (hinv batch (List.mem_cons_of_mem _ hbatch) hrecorded
                huncertain)
    | _ => exact hquiet _

/-! ### The call and the proposal -/

/-- The commands that leave a call streaming. -/
def streams : AgentCommandKind → Bool
  | .providerEventObserved _ | .paused | .resumed _ => true
  | _ => false

/-- The commands that leave a proposal as it is. -/
def waits : AgentCommandKind → Bool
  | .paused | .resumed _ | .completionCommitted => true
  | _ => false

/-- The last started call is streaming. -/
def Calling (log : List AgentCommandKind) : Prop :=
  ∃ before callId requestDigest after,
    log = before ++ .modelRequestStarted callId requestDigest :: after ∧
      ∀ kind ∈ after, streams kind = true

/-- The last started call ended well, and with the proposal. -/
def Proposing (log : List AgentCommandKind) (proposal : CompletionProposal) :
    Prop :=
  ∃ before terminal after,
    log = before ++ .completionProposed terminal proposal :: after ∧
      Calling before ∧ terminal.normalTerminal = true ∧
      terminal.incompleteItems = false ∧ terminal.usageSettled = true ∧
      proposal.transcripts.model = terminal.responseDigest ∧
      ∀ kind ∈ after, waits kind = true

theorem calling_append (h : Calling log) (hkind : streams kind = true) :
    Calling (log ++ [kind]) := by
  obtain ⟨before, callId, requestDigest, after, rfl, hafter⟩ := h
  exact ⟨before, callId, requestDigest, after ++ [kind], by simp,
    forall_mem_concat hafter hkind⟩

theorem proposing_append (h : Proposing log proposal)
    (hkind : waits kind = true) : Proposing (log ++ [kind]) proposal := by
  obtain ⟨before, terminal, after, rfl, hcalling, hnormal, hcomplete, hsettled,
    hmodel, hafter⟩ := h
  exact ⟨before, terminal, after ++ [kind], by simp, hcalling, hnormal,
    hcomplete, hsettled, hmodel, forall_mem_concat hafter hkind⟩

/-- A proposal that agrees with the state it was accepted in. -/
def Ready (log : List AgentCommandKind) (state : AgentTurnState) : Prop :=
  state.tools = none ∧ ∃ proposal context, state.completion = some proposal ∧
    state.context = some context ∧ Proposing log proposal ∧
    proposal.revision = state.binding.revision ∧
    proposal.transcripts.context = context.renderDigest ∧
    (∀ recorded, state.toolTranscriptDigest = some recorded →
      proposal.transcripts.tools = recorded) ∧
    (state.unresolvedIndeterminate = true →
      proposal.uncertainties ≠ [] ∧ proposal.requested ≠ .runGates ∧
        proposal.requested ≠ .requestReview)

theorem ready_append (h : Ready log state) (hkind : waits kind = true) :
    Ready (log ++ [kind]) state := by
  obtain ⟨htools, proposal, context, hcompletion, hcontext, hproposing, hrest⟩ := h
  exact ⟨htools, proposal, context, hcompletion, hcontext,
    proposing_append hproposing hkind, hrest⟩

def proposed (state : AgentTurnState) : Prop :=
  activePhase state = some .proposedCompletion ∨
    state.phase = .terminal .completed

/-- Whatever streams was started, and whatever is proposed was ready. -/
def Underway (log : List AgentCommandKind) (state : AgentTurnState) : Prop :=
  (activePhase state = some .streamingResponse → Calling log) ∧
    (proposed state → Ready log state)

theorem underway_of_edit (hinv : Underway log state) (hsound : Sound state)
    (hedit : Edit sha256 state kind next) : Underway (log ++ [kind]) next := by
  obtain ⟨hcalling, hready⟩ := hinv
  have hneither : activePhase next ≠ some .streamingResponse →
      ¬ proposed next → Underway (log ++ [kind]) next := fun hcall hpropose =>
    ⟨fun h => absurd h hcall, fun h => absurd h hpropose⟩
  cases hedit with
  | modelRequestStarted callId requestDigest hphase =>
      constructor
      · intro _
        exact ⟨log, callId, requestDigest, [], rfl, by simp⟩
      · rintro (h | h) <;> cases h
  | providerEventObserved record hphase =>
      constructor
      · intro _
        exact calling_append (hcalling (by rw [activePhase, hphase])) rfl
      · rintro (h | h) <;> cases h
  | completionProposed terminal proposal context hphase hterminal hrevision
      huncertain hcontext hrendered hresponse hrecorded =>
      obtain ⟨hnormal, hcomplete, hsettled⟩ := hterminal
      have hnone : state.tools = none :=
        tools_of_active hsound.toClosed hphase rfl
      constructor
      · intro h
        cases h
      · intro _
        refine ⟨hnone, proposal, context,
          rfl, hcontext, ⟨log, terminal, [], rfl, ?_, hnormal, hcomplete,
            hsettled, hresponse, by simp⟩, hrevision, hrendered, hrecorded,
          huncertain⟩
        exact hcalling (by rw [activePhase, hphase])
  | paused active hphase =>
      have hactive : activePhase state = some active := by
        rw [activePhase, hphase]
      constructor
      · intro h
        exact calling_append (hcalling (hactive.trans h)) rfl
      · rintro (h | h)
        · exact ready_append (hready (.inl (hactive.trans h))) rfl
        · cases h
  | resumed active hphase hpaused =>
      have hactive : activePhase state = some active := by
        rw [activePhase, hphase]
        exact hpaused
      constructor
      · intro h
        exact calling_append (hcalling (hactive.trans h)) rfl
      · rintro (h | h)
        · exact ready_append (hready (.inl (hactive.trans h))) rfl
        · cases h
  | completionCommitted proposal hphase =>
      constructor
      · intro h
        cases h
      · intro _
        exact ready_append (hready (.inl (by rw [activePhase, hphase]))) rfl
  | _ => apply hneither <;> simp_all [activePhase, proposed, setSlot]

theorem underway_of_turn (hturn : Turn sha256 events state) :
    Underway (commands events) state := by
  refine edit_invariant Underway ?_ ?_ ?_ ?_ hturn
  · rintro first initial ⟨binding, limits, commandId, eventId, h⟩
    obtain ⟨-, -, -, -, rfl⟩ := start_eq_ok h
    refine ⟨?_, ?_⟩
    · intro h
      cases h
    · rintro (h | h) <;> cases h
  · intro log before kind counted hinv hcount
    cases hcount <;> exact hinv
  · intro log before sequence revision eventId hinv
    exact hinv
  · intro log before kind after hinv hsound hedit
    exact underway_of_edit hinv hsound hedit

/-! ### The binding of a turn -/

theorem binding_of_step {event : AgentEvent}
    (hstep : Steps sha256 state event next) :
    next.binding = state.binding ∧ next.limits = state.limits := by
  obtain ⟨kind, counted, applied, haccepted⟩ := exists_accepted hstep
  have hcounted : counted.binding = state.binding ∧
      counted.limits = state.limits := by
    cases haccepted.counts <;> exact ⟨rfl, rfl⟩
  have happlied : applied.binding = counted.binding ∧
      applied.limits = counted.limits := by
    cases haccepted.edit <;> exact ⟨rfl, rfl⟩
  rw [haccepted.successor]
  exact ⟨happlied.1.trans hcounted.1, happlied.2.trans hcounted.2⟩

/-- A turn keeps the binding and the limits it was started with. -/
theorem started_of_turn (hturn : Turn sha256 events state) :
    events.head?.map AgentEvent.kind =
      some (.started state.binding state.limits) := by
  obtain ⟨first, initial, rest, ⟨binding, limits, commandId, eventId, hstart⟩,
    hrun, rfl⟩ := hturn
  obtain ⟨-, hkind, -, -, rfl⟩ := start_eq_ok hstart
  have hsame : state.binding = binding ∧ state.limits = limits := by
    refine @Run.invariant _ _ _ (fun state =>
      state.binding = binding ∧ state.limits = limits) ?_ _ _ _ hrun ⟨rfl, rfl⟩
    rintro before event after ⟨hbinding, hlimits⟩ hstep
    obtain ⟨hbindings, hlimit⟩ := binding_of_step hstep
    exact ⟨hbindings.trans hbinding, hlimit.trans hlimits⟩
  rw [hsame.1, hsame.2, List.head?_cons, Option.map_some, hkind]

/-! ### Completed turns -/

/-- The commands that give a call its result. -/
def isResult : AgentCommandKind → Bool
  | .toolDenied _ _ | .toolCompleted _ _ => true
  | _ => false

theorem result_of_dispatched {calls : List AgentCommandKind}
    {slots : List ToolSlot} {ordinal : ToolOrdinal}
    (htracks : Tracks calls slots)
    (hterminal : ∀ slot ∈ slots, slot.phase = .terminal)
    (hmem : .toolDispatched ordinal ∈ calls) :
    (callsOf ordinal calls).countP isResult = 1 := by
  have hcall : .toolDispatched ordinal ∈ callsOf ordinal calls := by
    simp [callsOf, hmem, callOrdinal]
  cases hget : slots[ordinal.toNat]? with
  | none =>
      rw [htracks.absent ordinal hget] at hcall
      cases hcall
  | some slot =>
      have hphase := hterminal slot (List.mem_of_getElem? hget)
      have htrail := htracks.trail ordinal slot hget
      generalize callsOf ordinal calls = trail at htrail hcall
      cases htrail with
      | completed digest result => rfl
      | denied result => rfl
      | _ => simp_all [slotInFlight]

/-- What the proposal of a completed turn rests on. -/
structure Backed (events : List AgentEvent) (state : AgentTurnState)
    (proposal : CompletionProposal) : Prop where
  started : events.head?.map AgentEvent.kind =
    some (.started state.binding state.limits)
  completion : state.completion = some proposal
  revision : proposal.revision = state.binding.revision
  context : (latest preparedContext (commands events)).map
    ContextRecord.renderDigest = some proposal.transcripts.context
  model : Proposing (commands events) proposal
  tools : ∀ recorded, latest recordedTranscript (commands events) = some recorded →
    proposal.transcripts.tools = recorded
  batched : ∀ ordinal, .toolDispatched ordinal ∈ commands events →
    ∃ batch ∈ (turnLog (commands events)).batches,
      .toolDispatched ordinal ∈ batch.calls
  dispatched : ∀ batch ∈ (turnLog (commands events)).batches, ∀ ordinal,
    .toolDispatched ordinal ∈ batch.calls →
      batch.transcript.isSome = true ∧
        (callsOf ordinal batch.calls).countP isResult = 1
  indeterminate : ∀ ordinal result,
    .toolCompleted ordinal result ∈ commands events →
    result.status = .indeterminate →
    proposal.uncertainties ≠ [] ∧ proposal.requested ≠ .runGates ∧
      proposal.requested ≠ .requestReview

theorem completion_backed (hturn : Turn sha256 events state)
    (hcompleted : state.phase = .terminal .completed) :
    ∃ proposal, Backed events state proposal := by
  obtain ⟨htools, proposal, context, hcompletion, hcontext, hproposing,
    hrevision, hrendered, hrecorded, huncertain⟩ :=
      (underway_of_turn hturn).2 (.inr hcompleted)
  have hlogged := logged_of_turn hturn
  rw [htools] at hlogged
  refine ⟨proposal, started_of_turn hturn, hcompletion, hrevision, ?_,
    hproposing, ?_, ?_, ?_, ?_⟩
  · rw [← context_of_turn hturn, hcontext, hrendered]
    rfl
  · intro recorded hlatest
    exact hrecorded recorded ((toolTranscript_of_turn hturn).trans hlatest)
  · intro ordinal hmem
    exact exists_batch_of_mem hturn hmem (Option.some_ne_none ordinal)
  · intro batch hbatch ordinal hmem
    obtain ⟨hsome, slots, htracks, hterminal⟩ := hlogged.settled_of_idle hbatch
    exact ⟨hsome, result_of_dispatched htracks hterminal hmem⟩
  · intro ordinal result hmem hstatus
    obtain ⟨batch, hbatch, hin⟩ :=
      exists_batch_of_mem hturn hmem (Option.some_ne_none ordinal)
    apply huncertain
    exact unresolved_of_turn hturn hbatch (hlogged.settled_of_idle hbatch).1
      ⟨ordinal, result, hin, hstatus⟩

end Runs

/-! ### A small completed turn -/

def smallDigest (value : Nat) : Sha256Digest := .ofNat value

def smallContext : ContextRecord :=
  ⟨smallDigest 1, smallDigest 1, smallDigest 1, smallDigest 1, none⟩

def smallCall : ModelCallId := ⟨smallDigest 1, by decide⟩

def smallTerminal : ModelTerminalRecord := ⟨smallDigest 2, true, false, true⟩

def smallProposal : ToolProposal where
  ordinal := 0
  modelCallId := smallCall
  actionId := smallId 1
  capability := "read"
  version := ⟨1, 0, by decide⟩
  argumentDigest := smallDigest 1
  preparedDigest := smallDigest 1
  replayIdentity := smallDigest 1
  revision := smallRevision
  deadline := none
  authorityEpoch := .first
  sideEffect := .none
  idempotency := .idempotent

def smallResult (status : ToolResultStatus) (bytes : Nat)
    (hbound : bytes ≤ u64Max := by decide) : ToolResultRecord :=
  ⟨status, smallDigest 3, bytes, [], hbound, by decide⟩

/-- A batch of one call, from the context of its model call to its record. -/
def smallBatch (decided : List AgentCommandKind) : List AgentCommandKind :=
  [.contextPrepared smallContext, .modelRequestStarted smallCall (smallDigest 1),
    .toolCallsProposed smallTerminal [smallProposal], .authorizationStarted] ++
  decided ++ [.resultRecordingStarted, .resultsRecorded (smallDigest 4)]

def smallCompletion : CompletionProposal where
  summary := smallText
  evidence := []
  uncertainties := []
  revision := smallRevision
  transcripts := ⟨smallDigest 1, smallDigest 2, smallDigest 4⟩
  requested := .runGates
  bounded := by decide
  fresh := by simp
  ordered := by decide

def numbered (kinds : List AgentCommandKind) : List Request :=
  kinds.zipIdx.map fun (kind, index) =>
    (⟨index % 254 + 2, by omega, by omega⟩, kind)

def smallCompleted : List Request :=
  numbered (smallBatch [.toolAuthorized 0 (smallDigest 1),
      .toolExecutionStarted, .toolDispatched 0, .toolActivated 0,
      .toolCompleted 0 (smallResult .succeeded 8)] ++
    [.contextPrepared smallContext,
      .modelRequestStarted smallCall (smallDigest 1),
      .completionProposed smallTerminal smallCompletion, .completionCommitted])

theorem phase_smallCompleted (sha256 : List UInt8 → Sha256Digest) :
    (attempts sha256 (smallStart sha256) smallCompleted).map (fun state =>
      state.phase) = some (.terminal .completed) := by
  cbv

theorem completion_backed_of_batch : ∃ events state,
    Turn (fun _ => zeroDigest) events state ∧
      commands events = smallCompleted.map Prod.snd ∧
      ∃ proposal, Backed events state proposal := by
  obtain ⟨state, hstate, hphase⟩ :=
    Option.map_eq_some_iff.mp (phase_smallCompleted fun _ => zeroDigest)
  obtain ⟨events, -, hkinds, hturn⟩ := turn_of_attempts hstate
  exact ⟨events, state, hturn, hkinds, completion_backed hturn hphase⟩

end Peritus.Agent.Backing
