import Peritus.Gates.Recovery

/-!
The outcome of a run that is not cancelled.  What happens to a gate is decided by
the reports on that gate alone, so any two runs that interleave the same reports
end alike.
-/

namespace Peritus.Gates.Order

open Peritus.Types State Canonical Reducer Blocking Edits
open Invariant Truth Recovery

/-! ### Histories of a gate -/

/-- The attempts, results, recoveries and receipts of a gate. -/
def reportsOn (gateId : GateId) : GateEventKind → Bool
  | .attemptPrepared id _ | .resultObserved id _ _ | .recoveryClassified id _ _
  | .evidencePublished id _ _ => decide (id = gateId)
  | _ => false

def history (gateId : GateId) (events : List GateEvent) : List GateEventKind :=
  (events.map GateEvent.kind).filter (reportsOn gateId)

structure Status where
  phase : GateSlotPhase
  attempts : Nat
  lastResult : Option GateAttemptResult

def Status.report (maximum : Nat) (status : Status) : GateEventKind → Status
  | .attemptPrepared _ attempt => ⟨.prepared, attempt.ordinal.get, none⟩
  | .resultObserved _ _ result =>
      ⟨resultPhase .active status.attempts maximum result, status.attempts,
        some result⟩
  | .recoveryClassified _ _ disposition =>
      { status with
        phase := recoveryPhase .active status.attempts maximum disposition }
  | .evidencePublished _ _ _ => { status with phase := .passed }
  | _ => status

def statusOf (maximum : Nat) (reports : List GateEventKind) : Status :=
  reports.foldl (Status.report maximum) ⟨.pending, 0, none⟩

/-- A slot says what was reported, up to a dispatch and to a block. -/
structure Follows (status : Status) (slot : GateSlot) : Prop where
  attempts : slot.attempts = status.attempts
  lastResult : slot.lastResult = status.lastResult
  phase : slot.phase = status.phase ∨
    slot.phase = .dispatched ∧ status.phase = .prepared ∨
    slot.phase = .blocked ∧ status.phase = .pending

/-- The phase, the terminal kind and the gates that did not pass. -/
structure SameOutcome (left right : GateRunState) : Prop where
  phases : ∀ gateId, (left.slot gateId).map GateSlot.phase =
    (right.slot gateId).map GateSlot.phase
  kind : left.terminal.map GateTerminal.kind =
    right.terminal.map GateTerminal.kind
  nonPassing : left.terminal.map GateTerminal.nonPassing =
    right.terminal.map GateTerminal.nonPassing

/-- A pending gate has no dependency that can no longer pass. -/
def Startable (plan : GatePlan) (state : GateRunState) : Prop :=
  ∀ gate ∈ plan.gates, ∀ slot, state.slot gate.id = some slot →
    slot.phase = .pending → ∀ dependency ∈ gate.dependencies, ∀ found,
      state.slot dependency = some found →
        found.phase ≠ .failed ∧ found.phase ≠ .blocked ∧ found.phase ≠ .cancelled

section Runs

variable {sha256 : List UInt8 → Sha256Digest} {plan : GatePlan}
  {state next left right : GateRunState} {event : GateEvent}
  {events others : List GateEvent} {gateId : GateId} {slot changed : GateSlot}
  {maximum : Nat}

/-! ### The slot of a gate follows its history -/

theorem history_snoc : history gateId (events ++ [event]) =
    history gateId events ++
      if reportsOn gateId event.kind then [event.kind] else [] := by
  unfold history
  rw [List.map_append, List.filter_append]
  cases h : reportsOn gateId event.kind <;> simp [h]

theorem statusOf_snoc_of_report (h : reportsOn gateId event.kind = true) :
    statusOf maximum (history gateId (events ++ [event])) =
      (statusOf maximum (history gateId events)).report maximum event.kind := by
  rw [history_snoc, if_pos h]
  exact List.foldl_append

theorem history_snoc_of_not_report (h : reportsOn gateId event.kind = false) :
    history gateId (events ++ [event]) = history gateId events := by
  rw [history_snoc, h]
  exact List.append_nil _

theorem reportsOn_of_target {kind : GateEventKind}
    (h : target kind ≠ some gateId) : reportsOn gateId kind = false := by
  cases kind <;> simp_all [reportsOn, target]

theorem follows_of_changes
    (hfollows : Follows (statusOf maximum (history slot.gateId events)) slot)
    (hmaximum : state.maximumAttempts = maximum)
    (hphase : state.phase ≠ .cancelling)
    (hkind : event.kind ≠ .cancellationStarted)
    (hchanges : Changes sha256 plan state event.id slot event.kind changed) :
    Follows (statusOf maximum (history slot.gateId (events ++ [event])))
      changed := by
  obtain ⟨hattempts, hresult, hslot⟩ := hfollows
  generalize hreported : event.kind = kind at hchanges hkind
  cases hchanges with
  | same kind hother =>
      rw [history_snoc_of_not_report (reportsOn_of_target (hreported ▸ hother))]
      exact ⟨hattempts, hresult, hslot⟩
  | prepared attempt =>
      rw [statusOf_snoc_of_report (by simp [hreported, reportsOn]), hreported]
      exact ⟨rfl, rfl, .inl rfl⟩
  | dispatched attempt hactive hprepared =>
      rw [history_snoc_of_not_report (by rw [hreported]; rfl)]
      refine ⟨hattempts, hresult, .inr (.inl ⟨rfl, ?_⟩)⟩
      rw [hprepared] at hslot
      rcases hslot with h | ⟨h, -⟩ | ⟨h, -⟩
      · exact h.symm
      · cases h
      · cases h
  | observed attempt result hrunning =>
      have hactive : state.phase = .active := by
        rcases hrunning with h | h
        · exact h
        · exact absurd h hphase
      rw [statusOf_snoc_of_report (by simp [hreported, reportsOn]), hreported]
      refine ⟨hattempts, rfl, .inl ?_⟩
      change resultPhase state.phase slot.attempts state.maximumAttempts result = _
      rw [hactive, hattempts, hmaximum]
      rfl
  | recovered attempt disposition hrunning =>
      have hactive : state.phase = .active := by
        rcases hrunning with h | h
        · exact h
        · exact absurd h hphase
      rw [statusOf_snoc_of_report (by simp [hreported, reportsOn]), hreported]
      refine ⟨hattempts, hresult, .inl ?_⟩
      change recoveryPhase state.phase slot.attempts state.maximumAttempts
        disposition = _
      rw [hactive, hattempts, hmaximum]
      rfl
  | published =>
      rw [statusOf_snoc_of_report (by simp [hreported, reportsOn]), hreported]
      exact ⟨hattempts, hresult, .inl rfl⟩
  | cancelled => exact absurd rfl hkind

/-- A run into which no cancellation was accepted. -/
def Uncancelled (events : List GateEvent) : Prop :=
  ∀ event ∈ events, event.kind ≠ .cancellationStarted

theorem uncancelled_snoc : Uncancelled (events ++ [event]) ↔
    Uncancelled events ∧ event.kind ≠ .cancellationStarted := by
  simp [Uncancelled, or_imp, forall_and]

theorem phase_of_uncancelled (hrun : GateRun sha256 plan events state)
    (h : Uncancelled events) : state.phase ≠ .cancelling := by
  intro hphase
  obtain ⟨event, hmem, hkind⟩ := (cancels_of_run hrun).cancelling (.inl hphase)
  exact h event hmem hkind

theorem follows_of_run (hrun : GateRun sha256 plan events state)
    (huncancelled : Uncancelled events)
    (hslot : state.slot gateId = some slot) :
    Follows (statusOf plan.maximumAttempts (history gateId events)) slot := by
  refine run_induction (fun events state => Uncancelled events →
    ∀ gateId slot, state.slot gateId = some slot →
      Follows (statusOf plan.maximumAttempts (history gateId events)) slot)
    ?_ ?_ hrun huncancelled gateId slot hslot
  · intro first snapshotDigest hkind _ gateId slot hslot
    obtain ⟨gate, -, rfl⟩ := List.mem_map.mp (mem_of_slot hslot)
    have hnone : history gateId [first] = [] := by
      simp [history, hkind, reportsOn]
    rw [hnone]
    exact ⟨rfl, rfl, .inl rfl⟩
  · intro events before event after hbefore hfollows hstepped h gateId slot hslot
    obtain ⟨huncancelled, hkind⟩ := uncancelled_snoc.mp h
    obtain ⟨prior, hprior⟩ := exists_slot_before hstepped hslot
    have hprior' := hfollows huncancelled gateId prior hprior
    rcases hstepped.slots gateId prior hprior with ⟨changed, hchanged, hchanges⟩ |
      ⟨hpending, hother, gate, blocker, -, -, -, hblocked⟩
    · rw [hslot] at hchanged
      cases hchanged
      have hid := gateId_of_slot hprior
      subst hid
      exact follows_of_changes hprior' (bound_of_run hbefore).maximumAttempts
        (phase_of_uncancelled hbefore huncancelled) hkind hchanges
    · rw [hslot] at hblocked
      cases hblocked
      rw [history_snoc_of_not_report (reportsOn_of_target hother)]
      obtain ⟨hattempts, hresult, hphase⟩ := hprior'
      refine ⟨hattempts, hresult, .inr (.inr ⟨rfl, ?_⟩)⟩
      rw [hpending] at hphase
      rcases hphase with h | ⟨h, -⟩ | ⟨h, -⟩
      · exact h.symm
      · cases h
      · cases h

/-! ### The end of a run -/

/-- What the terminal is computed from. -/
def summary (slot : GateSlot) :
    GateId × GateSlotPhase × Option GateAttemptResult :=
  (slot.gateId, slot.phase, slot.lastResult)

/-- The summary of a gate whose run has ended: nothing was started on it exactly
if it was blocked. -/
def finalSummary (maximum : Nat) (events : List GateEvent) (gateId : GateId) :
    GateId × GateSlotPhase × Option GateAttemptResult :=
  let status := statusOf maximum (history gateId events)
  (gateId, if status.phase = .pending then .blocked else status.phase,
    status.lastResult)

theorem summary_of_run (hrun : GateRun sha256 plan events state)
    (huncancelled : Uncancelled events) (hended : state.phase = .terminal)
    (hmem : slot ∈ state.slots) :
    summary slot = finalSummary plan.maximumAttempts events slot.gateId := by
  have hslot := slot_of_mem (nodup_slots (bound_of_run hrun)) hmem
  obtain ⟨-, hresult, hphase⟩ := follows_of_run hrun huncancelled hslot
  have hsettled := settled_of_terminal hrun hended hmem
  unfold summary finalSummary
  dsimp only
  rw [hresult]
  rcases hphase with h | ⟨h, -⟩ | ⟨h, hpending⟩
  · rw [← h, if_neg (isSettled_of_pending hsettled)]
  · rw [h] at hsettled
    cases hsettled
  · rw [h, if_pos hpending]

theorem summaries_of_run (hrun : GateRun sha256 plan events state)
    (huncancelled : Uncancelled events) (hended : state.phase = .terminal) :
    state.slots.map summary = (plan.gates.map PlannedGate.id).map
      (finalSummary plan.maximumAttempts events) := by
  rw [← (bound_of_run hrun).gateIds, List.map_map]
  apply List.map_congr_left
  intro slot hmem
  exact summary_of_run hrun huncancelled hended hmem

/-- The terminal kind of a run that was not cancelled. -/
def settledKind (state : GateRunState) : GateTerminalKind :=
  if nonPassing state = [] then .passed
  else if state.slots.any isIndeterminate then .indeterminate
  else .failed

theorem terminal_of_run (hrun : GateRun sha256 plan events state)
    (huncancelled : Uncancelled events) (hended : state.phase = .terminal) :
    ∃ digest, state.terminal =
      some ⟨settledKind state, nonPassing state, digest⟩ := by
  refine run_induction (fun events state => Uncancelled events →
    state.phase = .terminal → ∃ digest, state.terminal =
      some ⟨settledKind state, nonPassing state, digest⟩) ?_ ?_ hrun huncancelled
    hended
  · intro first snapshotDigest _ _ h
    cases h
  · intro events before event after hbefore _ hstepped h hphase
    have hopen := phase_of_uncancelled hbefore (uncancelled_snoc.mp h).1
    have hkind := (phase_of_turns hstepped.phase hstepped.unfinished).mp hphase
    obtain ⟨-, hslots, digest, hterminal⟩ := hstepped.finalized hkind
    have hlist : nonPassing after = nonPassing before := by
      simp only [nonPassing, hslots]
    have hsame : terminalKind before = settledKind after := by
      simp only [terminalKind, settledKind, hlist, hslots, if_neg hopen]
    refine ⟨digest, ?_⟩
    rw [hterminal, hsame, hlist]

theorem nonPassing_eq_of_summaries
    (h : left.slots.map summary = right.slots.map summary) :
    nonPassing left = nonPassing right := by
  have hsummary : ∀ state, nonPassing state =
      ((state.slots.map summary).filter fun found =>
        decide (found.2.1 ≠ .passed)).map Prod.fst := by
    intro state
    rw [List.filter_map, List.map_map]
    rfl
  rw [hsummary, hsummary, h]

theorem settledKind_eq_of_summaries
    (h : left.slots.map summary = right.slots.map summary) :
    settledKind left = settledKind right := by
  have hsummary : ∀ state : GateRunState, state.slots.any isIndeterminate =
      (state.slots.map summary).any fun found =>
        decide (found.2.1 = .failed) &&
          found.2.2.all fun result => decide (result.retry = .afterRecovery) := by
    intro state
    rw [List.any_map]
    rfl
  unfold settledKind
  rw [nonPassing_eq_of_summaries h, hsummary, hsummary, h]

theorem phase_eq_of_summaries
    (h : left.slots.map summary = right.slots.map summary) (gateId : GateId) :
    (left.slot gateId).map GateSlot.phase =
      (right.slot gateId).map GateSlot.phase := by
  have hsummary : ∀ state : GateRunState,
      (state.slot gateId).map GateSlot.phase =
        ((state.slots.map summary).find? fun found =>
          decide (found.1 = gateId)).map fun found => found.2.1 := by
    intro state
    rw [List.find?_map, Option.map_map]
    rfl
  rw [hsummary, hsummary, h]

theorem sameOutcome_of_histories (hleft : GateRun sha256 plan events left)
    (hright : GateRun sha256 plan others right)
    (hevents : Uncancelled events) (hothers : Uncancelled others)
    (hended : left.phase = .terminal) (hended' : right.phase = .terminal)
    (hsame : ∀ gateId, history gateId events = history gateId others) :
    SameOutcome left right := by
  have hsummaries : left.slots.map summary = right.slots.map summary := by
    rw [summaries_of_run hleft hevents hended,
      summaries_of_run hright hothers hended']
    apply List.map_congr_left
    intro gateId _
    unfold finalSummary
    rw [hsame]
  obtain ⟨digest, hterminal⟩ := terminal_of_run hleft hevents hended
  obtain ⟨digest', hterminal'⟩ := terminal_of_run hright hothers hended'
  refine ⟨phase_eq_of_summaries hsummaries, ?_, ?_⟩
  · rw [hterminal, hterminal']
    exact congrArg some (settledKind_eq_of_summaries hsummaries)
  · rw [hterminal, hterminal']
    exact congrArg some (nonPassing_eq_of_summaries hsummaries)

/-! ### Pending gates -/

theorem startable_of_slots (hslots : next.slots = state.slots)
    (h : Startable plan state) : Startable plan next := by
  unfold Startable GateRunState.slot at *
  rw [hslots]
  exact h

theorem startable_of_unblocked (h : Unblocked plan state plan.executionOrder) :
    Startable plan state := by
  intro gate hmem slot hslot hpending dependency hdependency found hfound
  have hplanned : gate.id ∈ plan.executionOrder :=
    mem_executionOrder_iff.mpr (List.mem_map_of_mem hmem)
  have hnone := h gate.id hplanned slot hslot hpending
  simp only [blockerOf, gate_of_mem hmem, Option.bind_some,
    List.find?_eq_none] at hnone
  have hblocker := hnone dependency hdependency
  simp only [isBlocker, hfound, Option.any_some, Bool.or_eq_true,
    decide_eq_true_eq, not_or] at hblocker
  exact ⟨hblocker.1.1, hblocker.1.2, hblocker.2⟩

theorem startable_of_run (hrun : GateRun sha256 plan events state) :
    Startable plan state := by
  refine run_invariant (fun _ state => Startable plan state) ?_ ?_ hrun
  · intro first snapshotDigest _ gate hmem slot hslot hpending dependency
      hdependency found hfound
    obtain ⟨planned, -, rfl⟩ := List.mem_map.mp (mem_of_slot hfound)
    refine ⟨?_, ?_, ?_⟩ <;> exact fun h => by cases h
  · intro events before event after hbefore hstepped
    rcases hstepped.unblocked with h | h
    · exact startable_of_unblocked h
    · exact startable_of_slots h hbefore

/-- Two complete runs of a plan that interleave the same histories end alike, and
in neither is a gate left pending over a dependency that cannot pass. -/
theorem outcome_independent_of_order (hleft : GateRun sha256 plan events left)
    (hright : GateRun sha256 plan others right)
    (hevents : Uncancelled events) (hothers : Uncancelled others)
    (hended : left.phase = .terminal) (hended' : right.phase = .terminal)
    (hsame : ∀ gateId, history gateId events = history gateId others) :
    SameOutcome left right ∧
    (∀ before reached, before <+: events → GateRun sha256 plan before reached →
      Startable plan reached) ∧
    ∀ before reached, before <+: others → GateRun sha256 plan before reached →
      Startable plan reached :=
  ⟨sameOutcome_of_histories hleft hright hevents hothers hended hended' hsame,
    fun _ _ _ => startable_of_run, fun _ _ _ => startable_of_run⟩

end Runs

/-! ### Two orders of three gates -/

/-- Two gates, and a third one that depends on the first. -/
def forkedPlan : GatePlan where
  runId := smallId 1
  revision := smallRevision
  maximumAttempts := 2
  gates := [⟨smallId 1, [], []⟩, ⟨smallId 2, [], []⟩, ⟨smallId 3, [smallId 1], []⟩]
  executionOrder := [smallId 1, smallId 2, smallId 3]
  digest := zeroDigest
  attempts := smallPlan.attempts
  counted := by decide
  total := by decide
  declared := by decide
  ordered := by decide
  scheduled := by decide

def failedResult (gateId : GateId) : GateAttemptResult :=
  { smallResult .candidateFailure .never with gateId := gateId }

def failingRequests (gateId : GateId) : List GateCommandKind :=
  [.prepareAttempt gateId { smallAttempt with
      executionId := gateId
      actionId := gateId },
    .markDispatched gateId gateId,
    .observeResult gateId gateId (failedResult gateId)]

def ordered (kinds : List GateCommandKind) : List Request :=
  (kinds ++ [GateCommandKind.finalizeRun]).map fun kind => (smallId 2, kind)

def firstOrder : List Request :=
  ordered (failingRequests (smallId 1) ++ failingRequests (smallId 2))

def secondOrder : List Request :=
  ordered (failingRequests (smallId 2) ++ failingRequests (smallId 1))

def forkedStart : GateRunState :=
  sealState (fun _ => zeroDigest) (genesis forkedPlan zeroDigest (smallId 1))

theorem phase_firstOrder :
    (attempts (fun _ => zeroDigest) forkedPlan forkedStart firstOrder).map
      GateRunState.phase = some .terminal := by
  cbv

theorem phase_secondOrder :
    (attempts (fun _ => zeroDigest) forkedPlan forkedStart secondOrder).map
      GateRunState.phase = some .terminal := by
  cbv

/-- The report that a command on a gate leaves. -/
def reportOf (gateId : GateId) : GateCommandKind → Option GateEventKind
  | .prepareAttempt id attempt =>
      if id = gateId then some (.attemptPrepared id attempt) else none
  | .observeResult id executionId result =>
      if id = gateId then some (.resultObserved id executionId result) else none
  | .classifyRecovery id executionId disposition =>
      if id = gateId then some (.recoveryClassified id executionId disposition)
      else none
  | .publishEvidence id executionId receipt =>
      if id = gateId then some (.evidencePublished id executionId receipt)
      else none
  | _ => none

theorem history_eq_filterMap (gateId : GateId) (events : List GateEvent) :
    history gateId events =
      (events.map fun event => commandKind event.kind).filterMap
        (reportOf gateId) := by
  unfold history
  rw [← List.filterMap_eq_filter, List.filterMap_map, List.filterMap_map]
  congr 1
  funext event
  cases h : event.kind <;>
    simp [h, Option.guard, reportsOn, commandKind, reportOf]

theorem uncancelled_of_kinds {events : List GateEvent}
    (h : .beginCancellation ∉ events.map fun event => commandKind event.kind) :
    Uncancelled events := by
  intro event hmem hkind
  apply h
  refine List.mem_map.mpr ⟨event, hmem, ?_⟩
  rw [hkind]
  rfl

theorem exists_run_of_requests {requests : List Request}
    (h : (attempts (fun _ => zeroDigest) forkedPlan forkedStart requests).map
      GateRunState.phase = some .terminal) :
    ∃ events state, GateRun (fun _ => zeroDigest) forkedPlan events state ∧
      state.phase = .terminal ∧
      (events.map fun event => commandKind event.kind) =
        .startRun zeroDigest :: requests.map Prod.snd := by
  obtain ⟨state, hstate, hphase⟩ := Option.map_eq_some_iff.mp h
  obtain ⟨first, -, hfirst, hgenesis⟩ := gateRun_genesis
    (fun _ => zeroDigest) forkedPlan zeroDigest (smallId 1)
  obtain ⟨rest, hrequests, hrun⟩ := gateRun_of_attempts hgenesis hstate
  refine ⟨[first] ++ rest, state, hrun, hphase, ?_⟩
  rw [List.singleton_append, List.map_cons, hfirst, ← hrequests, List.map_map]
  rfl

theorem history_of_orders (gateId : GateId) :
    (firstOrder.map Prod.snd).filterMap (reportOf gateId) =
      (secondOrder.map Prod.snd).filterMap (reportOf gateId) := by
  by_cases hfirst : smallId 1 = gateId
  · subst hfirst
    decide
  · by_cases hsecond : smallId 2 = gateId
    · subst hsecond
      decide
    · simp [firstOrder, secondOrder, ordered, failingRequests, reportOf, hfirst,
        hsecond, List.filterMap_cons]

theorem outcome_independent_of_order_of_fork :
    ∃ events others left right,
      GateRun (fun _ => zeroDigest) forkedPlan events left ∧
      GateRun (fun _ => zeroDigest) forkedPlan others right ∧
      events.map GateEvent.kind ≠ others.map GateEvent.kind ∧
      SameOutcome left right ∧
      (∀ before reached, before <+: events →
        GateRun (fun _ => zeroDigest) forkedPlan before reached →
          Startable forkedPlan reached) ∧
      ∀ before reached, before <+: others →
        GateRun (fun _ => zeroDigest) forkedPlan before reached →
          Startable forkedPlan reached := by
  obtain ⟨events, left, hleft, hended, hkinds⟩ :=
    exists_run_of_requests phase_firstOrder
  obtain ⟨others, right, hright, hended', hkinds'⟩ :=
    exists_run_of_requests phase_secondOrder
  refine ⟨events, others, left, right, hleft, hright, ?_, ?_⟩
  · intro hsame
    have hcommands := congrArg (List.map commandKind) hsame
    rw [List.map_map, List.map_map] at hcommands
    exact absurd (hkinds.symm.trans (hcommands.trans hkinds')) (by decide)
  · apply outcome_independent_of_order hleft hright
      (uncancelled_of_kinds (by rw [hkinds]; decide))
      (uncancelled_of_kinds (by rw [hkinds']; decide)) hended hended'
    intro gateId
    rw [history_eq_filterMap, history_eq_filterMap, hkinds, hkinds']
    exact history_of_orders gateId

end Peritus.Gates.Order
