import Peritus.Review.Reducer
import Peritus.TransitionSystem

/-!
What an accepted command is made of, and the runs of accepted commands.
-/

namespace Peritus.Review.Runs

open Peritus.Types Checked TransitionSystem State Canonical Validation Reports Reducer

section Runs

variable (sha256 : List UInt8 → Sha256Digest)

def Starts (first : ReviewEvent) (initial : ReviewRunState) : Prop :=
  ∃ command, start sha256 command = .ok ⟨first, initial⟩

def Steps (state : ReviewRunState) (event : ReviewEvent) (next : ReviewRunState) :
    Prop :=
  ∃ command, decideCommand sha256 state command = .ok ⟨event, next⟩

/-- A review run: the events of an accepted start and of the commands after it. -/
def ReviewRun (events : List ReviewEvent) (state : ReviewRunState) : Prop :=
  ∃ first initial rest, Starts sha256 first initial ∧
    Run (Steps sha256) initial rest state ∧ events = first :: rest

/-- What the reducer has checked when it accepts a command, and what it returns:
`applied` is the state that the handler of the command leaves. -/
structure Accepted (state : ReviewRunState) (event : ReviewEvent)
    (next applied : ReviewRunState) : Prop where
  unfinished : state.phase ≠ .terminal
  commands : state.usedCommands.length < maximumCommands
  fresh : event.commandId ∉ state.usedCommands
  revision : event.revision = state.binding.revision
  payload :
    estimatedPayloadBytes (commandKind event.kind) ≤ state.limits.payloadBytes
  sequence : event.sequence.get = state.sequence.get + 1
  applies : apply sha256 state event.id (commandKind event.kind) =
    .ok (applied, event.kind)
  bytes : estimatedEncodedBytes (recompute applied) ≤ applied.limits.stateBytes
  successor : next =
    advance sha256 (recompute applied) event.sequence event.id event.commandId

variable {sha256 : List UInt8 → Sha256Digest}
  {state next applied initial : ReviewRunState} {event first : ReviewEvent}
  {events rest : List ReviewEvent} {command : ReviewCommand}

/-! ### The command of an event -/

/-- The event of a command names the command. -/
theorem commandKind_of_apply {eventId : EventId} {kind : ReviewCommandKind}
    {emitted : ReviewEventKind}
    (h : apply sha256 state eventId kind = .ok (applied, emitted)) :
    commandKind emitted = kind := by
  simp only [apply, ensure_bind_eq_ok_iff] at h
  obtain ⟨-, h⟩ := h
  cases kind <;>
    simp only [dispatch, advanceRevision, assign, submit, withEvent, observeWaiver,
      cancelCycle, pause, resume, bind_eq_ok_iff, exists_unit_iff,
      Except.ok.injEq, Prod.mk.injEq, reduceCtorEq] at h
  case finalizeRun =>
    unfold finalize at h
    split at h
    · cases h
      rfl
    · simp only [ensure_bind_eq_ok_iff, Except.ok.injEq, Prod.mk.injEq] at h
      obtain ⟨-, -, -, rfl⟩ := h
      rfl
  all_goals grind [commandKind]

theorem accepted_of_decide
    (h : decideCommand sha256 state command = .ok ⟨event, next⟩) :
    ∃ applied, Accepted sha256 state event next applied := by
  simp only [decideCommand, validateFences, nextSequence, bind_eq_ok_iff,
    exists_unit_iff, mapError_eq_ok_iff, ensure_eq_ok_iff, Bool.and_eq_true,
    decide_eq_true_eq, PositiveNumber.checkedNext_eq_ok_iff,
    Except.ok.injEq, ReviewTransition.mk.injEq] at h
  obtain ⟨⟨hunfinished, hcommands, ⟨⟨⟨⟨⟨-, hrevision⟩, -⟩, -⟩, -⟩, hfresh⟩, -⟩,
    hpayload, sequence, hsequence, ⟨applied, kind⟩, happlies, hbytes, rfl, rfl⟩ := h
  have hkind := commandKind_of_apply happlies
  refine ⟨applied, {
    unfinished := hunfinished
    commands := hcommands
    fresh := hfresh
    revision := hrevision.symm
    payload := ?_
    sequence := hsequence
    applies := ?_
    bytes := hbytes
    successor := rfl }⟩
  · rw [hkind]
    exact hpayload
  · rw [hkind]
    exact happlies

theorem exists_accepted (hstep : Steps sha256 state event next) :
    ∃ applied, Accepted sha256 state event next applied :=
  hstep.elim fun _ h => accepted_of_decide h

/-- The command that a replay reads off an event is the command decided. -/
theorem commandFromEvent_of_decide
    (h : decideCommand sha256 state command = .ok ⟨event, next⟩) :
    commandFromEvent event state.sequence.get (some state.lastEventId) =
      .ok command := by
  simp only [decideCommand, validateFences, bind_eq_ok_iff, exists_unit_iff,
    ensure_eq_ok_iff, Bool.and_eq_true, decide_eq_true_eq, Except.ok.injEq,
    ReviewTransition.mk.injEq] at h
  obtain ⟨⟨-, -, ⟨⟨⟨⟨⟨-, -⟩, hsequence⟩, hprevious⟩, hdigest⟩, -⟩, -⟩, -, sequence,
    -, ⟨applied, kind⟩, happlies, -, rfl, -⟩ := h
  have hkind := commandKind_of_apply happlies
  obtain ⟨commandId, eventId, runId, expected, previous, prior, revision, asked,
    hshape⟩ := command
  dsimp only at hsequence hprevious hdigest hkind
  subst hsequence hprevious hdigest hkind
  unfold commandFromEvent
  rw [dif_pos hshape]

theorem start_eq_ok {genesisCommand : ReviewCommand}
    (h : start sha256 genesisCommand = .ok ⟨first, initial⟩) :
    ∃ binding limits, genesisCommand.kind = .startRun binding limits ∧
      first.kind = .runStarted binding limits ∧
      validateBinding sha256 limits binding = .ok () ∧
      initial = sealState sha256
        (genesis binding limits first.runId first.id first.commandId) := by
  unfold start at h
  split at h
  · next binding limits hkind =>
      simp only [bind_eq_ok_iff, exists_unit_iff, ensure_eq_ok_iff,
        Except.ok.injEq, ReviewTransition.mk.injEq] at h
      obtain ⟨hvalid, -, -, -, rfl, rfl⟩ := h
      exact ⟨binding, limits, hkind, rfl, hvalid, rfl⟩
  · cases h

theorem commandFromEvent_of_start {genesisCommand : ReviewCommand}
    (h : start sha256 genesisCommand = .ok ⟨first, initial⟩) :
    commandFromEvent first 0 none = .ok genesisCommand := by
  unfold start at h
  split at h
  · next binding limits hkind =>
      simp only [bind_eq_ok_iff, exists_unit_iff, ensure_eq_ok_iff,
        Bool.and_eq_true, decide_eq_true_eq, Option.isNone_iff_eq_none,
        Except.ok.injEq, ReviewTransition.mk.injEq] at h
      obtain ⟨-, -, ⟨⟨⟨-, hsequence⟩, hprevious⟩, hdigest⟩, -, rfl, -⟩ := h
      obtain ⟨commandId, eventId, runId, expected, previous, prior, revision, asked,
        hshape⟩ := genesisCommand
      dsimp only at hsequence hprevious hdigest hkind
      subst hsequence hprevious hdigest hkind
      unfold commandFromEvent
      rw [dif_pos hshape]
      rfl
  · cases h

/-! ### Runs -/

theorem reviewRun_snoc (hrun : ReviewRun sha256 events state)
    (hstep : Steps sha256 state event next) :
    ReviewRun sha256 (events ++ [event]) next := by
  obtain ⟨first, initial, rest, hstart, hrest, rfl⟩ := hrun
  exact ⟨first, initial, rest ++ [event], hstart, hrest.snoc hstep, rfl⟩

/-- A start, and one step more at the end. -/
theorem run_induction (inv : List ReviewEvent → ReviewRunState → Prop)
    (hstart : ∀ first initial, Starts sha256 first initial → inv [first] initial)
    (hstep : ∀ events state event next, ReviewRun sha256 events state →
      inv events state → Steps sha256 state event next →
        inv (events ++ [event]) next)
    (hrun : ReviewRun sha256 events state) : inv events state := by
  obtain ⟨first, initial, rest, hstarts, hrest, rfl⟩ := hrun
  have hfirst : ReviewRun sha256 [first] initial :=
    ⟨first, initial, [], hstarts, .nil initial, rfl⟩
  refine (@Run.log_invariant _ _ (Steps sha256)
    (fun events state => ReviewRun sha256 events state ∧ inv events state)
    ?_ _ _ [first] _ hrest ⟨hfirst, hstart first initial hstarts⟩).2
  rintro log state event next ⟨hrun, hinv⟩ hstep'
  exact ⟨reviewRun_snoc hrun hstep', hstep log state event next hrun hinv hstep'⟩

end Runs

/-! ### Runs by their requests -/

/-- The identities and the kind of a command; the rest of it is read off the
state that it is sent to. -/
structure Request where
  commandId : CommandId
  eventId : EventId
  kind : ReviewCommandKind

section Requests

variable (sha256 : List UInt8 → Sha256Digest)

def isAdmitted (state : ReviewRunState) (request : Request) : Bool :=
  decide (state.phase ≠ .terminal) &&
    decide (state.usedCommands.length < maximumCommands) &&
    decide (request.commandId ∉ state.usedCommands) &&
    !request.kind.isStart &&
    decide (estimatedPayloadBytes request.kind ≤ state.limits.payloadBytes)

def attempt (state : ReviewRunState) (request : Request) : Option ReviewRunState :=
  if isAdmitted state request then
    match nextSequence state, apply sha256 state request.eventId request.kind with
    | .ok sequence, .ok (applied, _) =>
        let assessed := recompute applied
        if estimatedEncodedBytes assessed ≤ assessed.limits.stateBytes then
          some (advance sha256 assessed sequence request.eventId request.commandId)
        else none
    | _, _ => none
  else none

def attempts : ReviewRunState → List Request → Option ReviewRunState
  | state, [] => some state
  | state, request :: rest =>
      (attempt sha256 state request).bind fun next => attempts next rest

variable {sha256} {state next : ReviewRunState} {events : List ReviewEvent}

theorem steps_of_attempt {request : Request}
    (h : attempt sha256 state request = some next) :
    ∃ event, event.id = request.eventId ∧ event.commandId = request.commandId ∧
      commandKind event.kind = request.kind ∧ Steps sha256 state event next := by
  unfold attempt at h
  split at h
  · next hadmitted =>
      simp only [isAdmitted, Bool.and_eq_true, decide_eq_true_eq] at hadmitted
      obtain ⟨⟨⟨⟨hopen, hroom⟩, hfresh⟩, hstart⟩, hpayload⟩ := hadmitted
      split at h
      · next sequence applied kind hsequence happlied =>
          dsimp only at h
          split at h
          · next hbytes =>
              let command : ReviewCommand := ⟨request.commandId, request.eventId,
                state.runId, state.sequence.get, some state.lastEventId,
                state.stateDigest, state.binding.revision, request.kind,
                ⟨fun h => absurd h (Nat.ne_of_gt state.sequence.positive),
                  fun h => nomatch h⟩⟩
              let event : ReviewEvent := ⟨request.eventId, request.commandId,
                sequence, some state.lastEventId, state.runId,
                state.binding.revision, state.stateDigest, next.stateDigest, kind⟩
              refine ⟨event, rfl, rfl, commandKind_of_apply happlied, command, ?_⟩
              cases h
              simp only [decideCommand, validateFences, bind_eq_ok_iff,
                exists_unit_iff, ensure_eq_ok_iff, Bool.and_eq_true,
                decide_eq_true_eq]
              exact ⟨⟨hopen, hroom, ⟨⟨⟨⟨⟨⟨rfl, rfl⟩, rfl⟩, rfl⟩, rfl⟩, hfresh⟩,
                hstart⟩⟩, hpayload, sequence, hsequence, (applied, kind), happlied,
                hbytes, rfl⟩
          · cases h
      · cases h
  · cases h

theorem reviewRun_of_attempts {requests : List Request}
    (hrun : ReviewRun sha256 events state)
    (h : attempts sha256 state requests = some next) :
    ∃ rest, rest.map ReviewEvent.id = requests.map Request.eventId ∧
      rest.map (fun event => commandKind event.kind) =
        requests.map Request.kind ∧
      ReviewRun sha256 (events ++ rest) next := by
  induction requests generalizing events state with
  | nil =>
      cases h
      refine ⟨[], rfl, rfl, ?_⟩
      rw [List.append_nil]
      exact hrun
  | cons request requests ih =>
      obtain ⟨middle, hmiddle, hrest⟩ := Option.bind_eq_some_iff.mp h
      obtain ⟨event, hid, -, hkind, hstep⟩ := steps_of_attempt hmiddle
      obtain ⟨rest, hids, hkinds, hnext⟩ := ih (reviewRun_snoc hrun hstep) hrest
      refine ⟨event :: rest, ?_, ?_, ?_⟩
      · rw [List.map_cons, hids, hid, List.map_cons]
      · rw [List.map_cons, hkinds, hkind, List.map_cons]
      · rw [List.append_assoc] at hnext
        exact hnext

end Requests

/-! ### A small run -/

def smallId (value : Nat) : OpaqueIdentifier := .ofNat value

def smallRevision : RevisionTuple :=
  ⟨smallId 1, smallId 1, smallId 1, .first, .first, smallId 1, smallId 1⟩

theorem small_categories : 0 < 4 ∧ 4 ≤ 256 := by decide

def smallLimits : ReviewLimits where
  cycles := 4
  assignments := 4
  submissions := 4
  findings := 8
  categories := 4
  requirements := 4
  locations := 4
  evidenceReferences := 8
  provenanceSources := 8
  dispositionRecords := 8
  pathBytes := 64
  textBytes := 64
  opaqueBytes := 64
  payloadBytes := 65536
  stateBytes := 65536
  ofCycles := by decide
  ofAssignments := by decide
  ofSubmissions := by decide
  ofFindings := by decide
  ofCategories := small_categories
  ofRequirements := by decide
  ofLocations := by decide
  ofEvidenceReferences := by decide
  ofProvenanceSources := by decide
  ofDispositionRecords := by decide
  ofPathBytes := by decide
  ofTextBytes := by decide
  ofOpaqueBytes := by decide
  ofPayloadBytes := by decide
  ofStateBytes := by decide

/-- One category and one reviewer; the producer is the actor 9. -/
def smallBinding (sha256 : List UInt8 → Sha256Digest) : ReviewBinding :=
  let binding : ReviewBinding :=
    { contractId := smallId 1
      contractDigest := zeroDigest
      revision := smallRevision
      requiredCategories := [⟨zeroDigest⟩]
      reviewerQuorum := 1
      independence := ⟨false, false, false, false, false, false, false⟩
      blockingSeverity := .low
      maximumCycles := 4
      waiverPolicy := .forbidden
      candidateDigest := zeroDigest
      treeDigest := zeroDigest
      producerActors := [smallId 9]
      producerAncestries := [zeroDigest]
      digest := zeroDigest }
  { binding with digest := bindingDigest sha256 binding }

def smallStart (sha256 : List UInt8 → Sha256Digest) : ReviewRunState :=
  sealState sha256 (genesis (smallBinding sha256) smallLimits (smallId 1)
    (smallId 1) (smallId 1))

theorem estimatedEncodedBytes_genesis {binding : ReviewBinding}
    {limits : ReviewLimits} {runId : RunId} {eventId : EventId}
    {commandId : CommandId} :
    estimatedEncodedBytes (genesis binding limits runId eventId commandId) =
      2064 := by
  simp [estimatedEncodedBytes, genesis, saturatingSum, saturatingAdd,
    saturatingMul, u64Max]

theorem reviewRun_smallStart (sha256 : List UInt8 → Sha256Digest) :
    ∃ first, first.id = smallId 1 ∧
      ReviewRun sha256 [first] (smallStart sha256) := by
  let command : ReviewCommand := ⟨smallId 1, smallId 1, smallId 1, 0, none,
    zeroDigest, smallRevision, .startRun (smallBinding sha256) smallLimits,
    Iff.intro (fun _ => rfl) fun _ => rfl⟩
  have hvalid : validateBinding sha256 smallLimits (smallBinding sha256) =
      .ok () := by
    simp only [validateBinding, bind_eq_ok_iff, exists_unit_iff,
      ensure_eq_ok_iff]
    exact ⟨rfl, rfl, rfl, rfl, decide_eq_true rfl⟩
  let first : ReviewEvent := ⟨smallId 1, smallId 1, .first, none, smallId 1,
    smallRevision, zeroDigest, (smallStart sha256).stateDigest,
    .runStarted (smallBinding sha256) smallLimits⟩
  have hstart : start sha256 command = .ok ⟨first, smallStart sha256⟩ := by
    simp only [start, command, bind_eq_ok_iff, exists_unit_iff, ensure_eq_ok_iff]
    refine ⟨hvalid, rfl, rfl, ?_, rfl⟩
    rw [estimatedEncodedBytes_genesis]
    rfl
  exact ⟨first, rfl, first, _, [], ⟨command, hstart⟩, .nil _, rfl⟩

end Peritus.Review.Runs
