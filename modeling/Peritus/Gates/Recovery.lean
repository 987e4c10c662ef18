import Peritus.Gates.Truth

/-!
An attempt whose effect may still be running.  While a dispatched attempt is owed
a recovery, the run keeps its gate open and does not end; the reducer loses that
only for a result it observes in a run that is being cancelled.
-/

namespace Peritus.Gates.Recovery

open Peritus.Types Checked State Canonical Reducer Blocking Edits
open Invariant Truth

/-! ### Owed recoveries -/

/-- A dispatched attempt without a result, or with one that allows a retry only
after recovery, and without a recovery that settles it. -/
structure Owed (events : List GateEvent) (gateId : GateId)
    (executionId : GateExecutionId) : Prop where
  dispatched : ∃ event ∈ events,
    event.kind = .attemptDispatched gateId executionId
  observed : ∀ event ∈ events, ∀ result,
    event.kind = .resultObserved gateId executionId result →
      result.retry = .afterRecovery
  unrecovered : ∀ event ∈ events, ∀ disposition,
    event.kind = .recoveryClassified gateId executionId disposition →
      disposition = .stillActive

/-- The gate is open, the run does not end and the gate is not tried again. -/
structure Guarded (sha256 : List UInt8 → Sha256Digest) (plan : GatePlan)
    (state : GateRunState) (gateId : GateId) : Prop where
  running : state.phase ≠ .terminal
  unsettled : ∃ slot, state.slot gateId = some slot ∧
    slot.phase.isSettled = false
  unfinished : ∀ command, command.kind = .finalizeRun →
    ∃ error, decideCommand sha256 plan state command = .error error
  untried : ∀ command attempt, command.kind = .prepareAttempt gateId attempt →
    ∃ error, decideCommand sha256 plan state command = .error error

def Protected (sha256 : List UInt8 → Sha256Digest) (plan : GatePlan)
    (events : List GateEvent) (state : GateRunState) : Prop :=
  ∀ gateId executionId, Owed events gateId executionId →
    Guarded sha256 plan state gateId

/-- A result after which the effect may still be running. -/
def awaitsRecovery : GateEventKind → Bool
  | .resultObserved _ _ result => decide (result.retry = .afterRecovery)
  | _ => false

/-- No such result is observed once the run is being cancelled. -/
def Settles (events : List GateEvent) : Prop :=
  events.Pairwise fun earlier later =>
    earlier.kind = .cancellationStarted → awaitsRecovery later.kind = false

section Runs

variable {sha256 : List UInt8 → Sha256Digest} {plan : GatePlan}
  {state next : GateRunState} {event : GateEvent}
  {events rest : List GateEvent} {gateId : GateId}
  {executionId : GateExecutionId} {slot changed : GateSlot}
  {attempt : ActiveAttempt} {eventId : EventId} {kind : GateEventKind}

theorem settles_snoc : Settles (events ++ [event]) ↔ Settles events ∧
    ∀ earlier ∈ events, earlier.kind = .cancellationStarted →
      awaitsRecovery event.kind = false := by
  unfold Settles
  rw [List.pairwise_append]
  simp

theorem owed_of_snoc (howed : Owed (events ++ [event]) gateId executionId)
    (hdispatched : ∃ event ∈ events,
      event.kind = .attemptDispatched gateId executionId) :
    Owed events gateId executionId where
  dispatched := hdispatched
  observed := fun earlier hmem =>
    howed.observed earlier (List.mem_append_left _ hmem)
  unrecovered := fun earlier hmem =>
    howed.unrecovered earlier (List.mem_append_left _ hmem)

/-! ### The phase of the run -/

/-- The phase of the run tells whether a cancellation was accepted. -/
structure Cancels (events : List GateEvent) (state : GateRunState) : Prop where
  cancelling : state.phase = .cancelling ∨ state.phase = .paused .cancelling →
    ∃ event ∈ events, event.kind = .cancellationStarted
  active : state.phase = .active ∨ state.phase = .paused .active →
    ∀ event ∈ events, event.kind ≠ .cancellationStarted

theorem cancelling_before {phase turned : GateRunPhase}
    (hturns : Turns phase kind turned)
    (h : turned = .cancelling ∨ turned = .paused .cancelling) :
    kind = .cancellationStarted ∨
      phase = .cancelling ∨ phase = .paused .cancelling := by
  cases hturns <;> simp_all

theorem active_before {phase turned : GateRunPhase}
    (hturns : Turns phase kind turned)
    (h : turned = .active ∨ turned = .paused .active) :
    kind ≠ .cancellationStarted ∧
      (phase = .active ∨ phase = .paused .active) := by
  cases hturns with
  | kept phase kind htarget =>
      refine ⟨?_, h⟩
      rintro rfl
      exact htarget rfl
  | _ => simp_all

theorem cancels_of_stepped (hcancels : Cancels events state)
    (hstepped : Stepped sha256 plan state event next) :
    Cancels (events ++ [event]) next := by
  constructor
  · intro h
    rcases cancelling_before hstepped.phase h with hkind | hbefore
    · exact ⟨event, List.mem_append_right _ List.mem_cons_self, hkind⟩
    · obtain ⟨earlier, hmem, hkind⟩ := hcancels.cancelling hbefore
      exact ⟨earlier, List.mem_append_left _ hmem, hkind⟩
  · intro h found hmem
    obtain ⟨hkind, hbefore⟩ := active_before hstepped.phase h
    rcases List.mem_append.mp hmem with hmem | hmem
    · exact hcancels.active hbefore found hmem
    · obtain rfl := List.mem_singleton.mp hmem
      exact hkind

theorem cancels_of_run (hrun : GateRun sha256 plan events state) :
    Cancels events state := by
  refine run_invariant Cancels ?_ ?_ hrun
  · intro first snapshotDigest hkind
    constructor
    · intro h
      rcases h with h | h <;> cases h
    · intro _ event hmem
      obtain rfl := List.mem_singleton.mp hmem
      rw [hkind]
      exact fun h => by cases h
  · intro events before event after hbefore hstepped
    exact cancels_of_stepped hbefore hstepped

/-! ### Refused commands -/

theorem kind_of_decideCommand {command : GateCommand}
    (h : decideCommand sha256 plan state command = .ok ⟨event, next⟩) :
    commandKind event.kind = command.kind := by
  simp only [decideCommand, bind_eq_ok_iff, exists_unit_iff, Except.ok.injEq,
    transition, GateTransition.mk.injEq] at h
  obtain ⟨-, sequence, -, ⟨applied, kind⟩, happlied, rfl, -⟩ := h
  exact commandKind_of_apply happlied

/-- A kind of command that no step takes is refused. -/
theorem refused_of_no_step {command : GateCommand}
    (h : ∀ event next, commandKind event.kind = command.kind →
      ¬ Stepped sha256 plan state event next) :
    ∃ error, decideCommand sha256 plan state command = .error error := by
  cases hdecided : decideCommand sha256 plan state command with
  | error error => exact ⟨error, rfl⟩
  | ok found =>
      obtain ⟨event, next⟩ := found
      refine absurd ?_ (h event next (kind_of_decideCommand hdecided))
      exact stepped_of_steps ⟨command, .inl hdecided⟩

/-- The phases in which the effect of an attempt may be running. -/
def mayRun (phase : GateSlotPhase) : Prop :=
  phase = .dispatched ∨ phase = .recoveryPending

theorem unsettled_of_mayRun {phase : GateSlotPhase} (h : mayRun phase) :
    phase.isSettled = false := by
  rcases h with rfl | rfl <;> rfl

theorem settled_of_terminal (hrun : GateRun sha256 plan events state)
    (hphase : state.phase = .terminal) (hmem : slot ∈ state.slots) :
    slot.phase.isSettled = true := by
  refine run_invariant (fun _ state => state.phase = .terminal →
    ∀ slot ∈ state.slots, slot.phase.isSettled = true) ?_ ?_ hrun hphase slot hmem
  · intro first snapshotDigest _ h
    cases h
  · intro events before event after _ hstepped hphase
    have hkind := (phase_of_turns hstepped.phase hstepped.unfinished).mp hphase
    obtain ⟨hsettled, hslots, -⟩ := hstepped.finalized hkind
    rw [hslots]
    exact hsettled

theorem guarded_of_mayRun (hrun : GateRun sha256 plan events state)
    (hslot : state.slot gateId = some slot) (hphase : mayRun slot.phase) :
    Guarded sha256 plan state gateId := by
  have hunsettled := unsettled_of_mayRun hphase
  refine ⟨?_, ⟨slot, hslot, hunsettled⟩, ?_, ?_⟩
  · intro hterminal
    have hsettled := settled_of_terminal hrun hterminal (mem_of_slot hslot)
    rw [hunsettled] at hsettled
    cases hsettled
  · intro command hcommand
    apply refused_of_no_step
    intro event next hkind hstepped
    rw [hcommand] at hkind
    have hfinalized : event.kind = .runFinalized := by
      cases h : event.kind <;> simp_all [commandKind]
    have hsettled := (hstepped.finalized hfinalized).1 slot (mem_of_slot hslot)
    rw [hunsettled] at hsettled
    cases hsettled
  · intro command attempt hcommand
    apply refused_of_no_step
    intro event next hkind hstepped
    rw [hcommand] at hkind
    have hprepared : event.kind = .attemptPrepared gateId attempt := by
      cases h : event.kind <;> simp_all [commandKind]
    have hid := gateId_of_slot hslot
    rcases hstepped.slots gateId slot hslot with ⟨changed, -, hchanges⟩ |
      ⟨hpending, -⟩
    · rw [hprepared] at hchanges
      cases hchanges with
      | same kind hother => exact hother (congrArg some hid.symm)
      | prepared attempt hactive hallowed =>
          rcases hphase with h | h <;> rw [h] at hallowed <;> simp at hallowed
    · rcases hphase with h | h <;> rw [h] at hpending <;> cases hpending

/-! ### An owed recovery keeps its gate -/

/-- The gate still holds the attempt, in a phase in which it may run. -/
def Holds (state : GateRunState) (gateId : GateId)
    (executionId : GateExecutionId) : Prop :=
  ∃ slot attempt, state.slot gateId = some slot ∧ slot.active = some attempt ∧
    attempt.executionId = executionId ∧ mayRun slot.phase

theorem resultPhase_of_awaits {runPhase : GateRunPhase} {attempts maximum : Nat}
    {result : GateAttemptResult} (hrun : runPhase ≠ .cancelling)
    (hretry : result.retry = .afterRecovery) :
    resultPhase runPhase attempts maximum result = .recoveryPending := by
  have hkind : ∀ kind, kind = .passed ∨ kind = .candidateFailure →
      result.kind ≠ kind := by
    rintro kind hkind rfl
    have hnever := (result.authoritative hkind).1
    rw [hretry] at hnever
    cases hnever
  have hpassed := hkind .passed (.inl rfl)
  have hfailure := hkind .candidateFailure (.inr rfl)
  unfold resultPhase
  rw [if_neg hrun]
  split
  · contradiction
  · contradiction
  · rw [if_pos hretry]

theorem recoveryPhase_stillActive (runPhase : GateRunPhase)
    (attempts maximum : Nat) :
    recoveryPhase runPhase attempts maximum .stillActive = .recoveryPending := by
  unfold recoveryPhase
  split <;> rfl

/-- A change of the slot that leaves the recovery owed leaves the attempt. -/
theorem held_of_changes (hattempt : slot.active = some attempt)
    (hphase : mayRun slot.phase)
    (hchanges : Changes sha256 plan state event.id slot event.kind changed)
    (howed : Owed (events ++ [event]) slot.gateId attempt.executionId)
    (hcancelled : awaitsRecovery event.kind = true →
      state.phase ≠ .cancelling) :
    changed.active = some attempt ∧ mayRun changed.phase := by
  have hlogged : event ∈ events ++ [event] :=
    List.mem_append_right _ List.mem_cons_self
  generalize hkind : event.kind = kind at hchanges hcancelled
  cases hchanges with
  | same kind hother => exact ⟨hattempt, hphase⟩
  | prepared found hactive hallowed =>
      rcases hphase with h | h <;> rw [h] at hallowed <;> simp at hallowed
  | dispatched found hactive hprepared =>
      rcases hphase with h | h <;> rw [h] at hprepared <;> cases hprepared
  | observed found result hrunning hdispatched hfound hresult =>
      rw [hattempt] at hfound
      cases hfound
      have hretry := howed.observed event hlogged result hkind
      have hrun : state.phase ≠ .cancelling := hcancelled (decide_eq_true hretry)
      exact ⟨hattempt, .inr (resultPhase_of_awaits hrun hretry)⟩
  | recovered found disposition hrunning hallowed hfound =>
      rw [hattempt] at hfound
      cases hfound
      obtain rfl := howed.unrecovered event hlogged disposition hkind
      exact ⟨hattempt, .inr (recoveryPhase_stillActive state.phase slot.attempts
        state.maximumAttempts)⟩
  | published found result resultEvent receipt gate hactive hpending =>
      rcases hphase with h | h <;> rw [h] at hpending <;> cases hpending
  | cancelled hallowed =>
      rcases hphase with h | h <;> rw [h] at hallowed <;> cases hallowed

theorem holds_of_dispatch (hslot : state.slot gateId = some slot)
    (hchanged : next.slot gateId = some changed)
    (hchanges : Changes sha256 plan state event.id slot event.kind changed)
    (hkind : event.kind = .attemptDispatched gateId executionId) :
    Holds next gateId executionId := by
  have hid := gateId_of_slot hslot
  rw [hkind] at hchanges
  cases hchanges with
  | same kind hother => exact absurd (congrArg some hid.symm) hother
  | dispatched attempt hactive hphase hattempt =>
      exact ⟨_, attempt, hchanged, hattempt, rfl, .inl rfl⟩

theorem holds_of_stepped (hcancels : Cancels events state)
    (hstepped : Stepped sha256 plan state event next)
    (hsettles : Settles (events ++ [event]))
    (hheld : Owed events gateId executionId → Holds state gateId executionId)
    (howed : Owed (events ++ [event]) gateId executionId) :
    Holds next gateId executionId := by
  obtain ⟨-, hevent⟩ := settles_snoc.mp hsettles
  have hcancelled : awaitsRecovery event.kind = true →
      state.phase ≠ .cancelling := by
    intro hawaits hphase
    obtain ⟨earlier, hmem, hkind⟩ := hcancels.cancelling (.inl hphase)
    rw [hevent earlier hmem hkind] at hawaits
    cases hawaits
  obtain ⟨found, hfound, hkind⟩ := howed.dispatched
  rcases List.mem_append.mp hfound with hearlier | hlast
  · obtain ⟨slot, attempt, hslot, hattempt, rfl, hphase⟩ :=
      hheld (owed_of_snoc howed ⟨found, hearlier, hkind⟩)
    rcases hstepped.slots gateId slot hslot with ⟨changed, hchanged, hchanges⟩ |
      ⟨hpending, -⟩
    · rw [← gateId_of_slot hslot] at howed
      obtain ⟨hkept, hmay⟩ := held_of_changes hattempt hphase hchanges howed
        hcancelled
      exact ⟨changed, attempt, hchanged, hkept, rfl, hmay⟩
    · rcases hphase with h | h <;> rw [h] at hpending <;> cases hpending
  · obtain rfl := List.mem_singleton.mp hlast
    obtain ⟨slot, hslot⟩ := hstepped.known gateId (by rw [hkind]; rfl)
    rcases hstepped.slots gateId slot hslot with ⟨changed, hchanged, hchanges⟩ |
      ⟨-, hother, -⟩
    · exact holds_of_dispatch hslot hchanged hchanges hkind
    · rw [hkind] at hother
      exact absurd rfl hother

theorem holds_of_run (hrun : GateRun sha256 plan events state)
    (hsettles : Settles events) (howed : Owed events gateId executionId) :
    Holds state gateId executionId := by
  refine run_induction (fun events state => Settles events →
    ∀ gateId executionId, Owed events gateId executionId →
      Holds state gateId executionId) ?_ ?_ hrun hsettles gateId executionId howed
  · intro first snapshotDigest hkind _ gateId executionId howed
    obtain ⟨event, hmem, hdispatched⟩ := howed.dispatched
    obtain rfl := List.mem_singleton.mp hmem
    rw [hkind] at hdispatched
    cases hdispatched
  · intro events before event after hbefore hheld hstepped hsettles gateId
      executionId howed
    refine holds_of_stepped (cancels_of_run hbefore) hstepped hsettles ?_ howed
    exact hheld (settles_snoc.mp hsettles).1 gateId executionId

/-! ### What the log says of an attempt -/

/-- The effect an event reports on. -/
def effect : GateEventKind → Option (GateId × GateExecutionId)
  | .attemptDispatched gateId executionId
  | .resultObserved gateId executionId _
  | .recoveryClassified gateId executionId _
  | .evidencePublished gateId executionId _ => some (gateId, executionId)
  | _ => none

/-- Nothing is reported on a prepared attempt, and on a dispatched one nothing
but the dispatch. -/
structure Tracked (events : List GateEvent) (used : List GateExecutionId)
    (slot : GateSlot) : Prop where
  used : ∀ attempt, slot.active = some attempt → attempt.executionId ∈ used
  prepared : slot.phase = .prepared → ∀ attempt, slot.active = some attempt →
    ∀ event ∈ events, effect event.kind ≠ some (slot.gateId, attempt.executionId)
  dispatched : slot.phase = .dispatched → ∀ attempt,
    slot.active = some attempt →
      (∃ event ∈ events,
        event.kind = .attemptDispatched slot.gateId attempt.executionId) ∧
      ∀ event ∈ events,
        effect event.kind = some (slot.gateId, attempt.executionId) →
          event.kind = .attemptDispatched slot.gateId attempt.executionId

/-- Reports are on executions that the run has prepared. -/
def Reported (events : List GateEvent) (used : List GateExecutionId) : Prop :=
  ∀ event ∈ events, ∀ effected, effect event.kind = some effected →
    effected.2 ∈ used

theorem effect_ne_of_target (h : target kind ≠ some gateId) :
    effect kind ≠ some (gateId, executionId) := by
  cases kind <;> simp_all [effect, target]

theorem tracked_of_other {used others : List GateExecutionId}
    (htracked : Tracked events used slot) (hused : used ⊆ others)
    (hother : effect event.kind = none ∨ target event.kind ≠ some slot.gateId) :
    Tracked (events ++ [event]) others slot where
  used := fun attempt hattempt => hused (htracked.used attempt hattempt)
  prepared := by
    intro hphase attempt hattempt found hmem
    rcases List.mem_append.mp hmem with hmem | hmem
    · exact htracked.prepared hphase attempt hattempt found hmem
    · obtain rfl := List.mem_singleton.mp hmem
      rcases hother with h | h
      · rw [h]
        exact fun h => by cases h
      · exact effect_ne_of_target h
  dispatched := by
    intro hphase attempt hattempt
    obtain ⟨⟨first, hfirst, hkind⟩, honly⟩ :=
      htracked.dispatched hphase attempt hattempt
    refine ⟨⟨first, List.mem_append_left _ hfirst, hkind⟩, ?_⟩
    intro found hmem heffect
    rcases List.mem_append.mp hmem with hmem | hmem
    · exact honly found hmem heffect
    · obtain rfl := List.mem_singleton.mp hmem
      rcases hother with h | h
      · rw [h] at heffect
        cases heffect
      · exact absurd heffect (effect_ne_of_target h)

/-- A slot that keeps its attempt and leaves the two phases. -/
theorem tracked_of_phase {used others : List GateExecutionId}
    {logged : List GateEvent} (htracked : Tracked events used slot) (hused : used ⊆ others)
    (hactive : changed.active = slot.active) (hprepared : changed.phase ≠ .prepared)
    (hdispatched : changed.phase ≠ .dispatched) :
    Tracked logged others changed where
  used := by
    intro attempt hattempt
    rw [hactive] at hattempt
    exact hused (htracked.used attempt hattempt)
  prepared := fun h => absurd h hprepared
  dispatched := fun h => absurd h hdispatched

theorem tracked_of_changes (htracked : Tracked events state.usedExecutions slot)
    (hreported : Reported events state.usedExecutions)
    (hstepped : Stepped sha256 plan state event next)
    (hchanges : Changes sha256 plan state event.id slot event.kind changed) :
    Tracked (events ++ [event]) next.usedExecutions changed := by
  have hused : state.usedExecutions ⊆ next.usedExecutions := by
    rw [hstepped.usedExecutions]
    exact List.subset_append_left _ _
  generalize hkind : event.kind = kind at hchanges
  cases hchanges with
  | same kind hother =>
      exact tracked_of_other htracked hused (.inr (hkind ▸ hother))
  | prepared attempt =>
      have hnew := hstepped.usedExecutions
      have hfresh := (hstepped.fresh attempt (by rw [hkind]; rfl)).1
      rw [hkind] at hnew
      constructor
      · intro found hfound
        cases hfound
        rw [hnew]
        exact List.mem_append_right _ List.mem_cons_self
      · intro _ found hfound earlier hmem heffect
        cases hfound
        rcases List.mem_append.mp hmem with hmem | hmem
        · exact hfresh (hreported earlier hmem _ heffect)
        · obtain rfl := List.mem_singleton.mp hmem
          rw [hkind] at heffect
          cases heffect
      · intro h
        cases h
  | dispatched attempt hactive hphase hattempt =>
      constructor
      · intro found hfound
        exact hused (htracked.used found hfound)
      · intro h
        cases h
      · intro _ found hfound
        change slot.active = some found at hfound
        rw [hattempt] at hfound
        cases hfound
        refine ⟨⟨event, List.mem_append_right _ List.mem_cons_self, hkind⟩, ?_⟩
        intro earlier hmem heffect
        rcases List.mem_append.mp hmem with hmem | hmem
        · exact absurd heffect
            (htracked.prepared hphase attempt hattempt earlier hmem)
        · obtain rfl := List.mem_singleton.mp hmem
          exact hkind
  | observed =>
      exact tracked_of_phase htracked hused rfl resultPhase_ne resultPhase_ne
  | recovered =>
      exact tracked_of_phase htracked hused rfl recoveryPhase_ne recoveryPhase_ne
  | published =>
      exact tracked_of_phase htracked hused rfl (fun h => by cases h)
        fun h => by cases h
  | cancelled =>
      exact tracked_of_phase htracked hused rfl (fun h => by cases h)
        fun h => by cases h

/-- An event that reports on an effect is about the attempt its gate holds. -/
theorem active_of_effect (hchanges : Changes sha256 plan state eventId slot kind changed)
    (heffect : effect kind = some (slot.gateId, executionId)) :
    ∃ attempt, slot.active = some attempt ∧ attempt.executionId = executionId := by
  cases hchanges with
  | same kind hother => exact absurd heffect (effect_ne_of_target hother)
  | prepared | cancelled => cases heffect
  | dispatched attempt hactive hphase hattempt
  | observed attempt result hrunning hphase hattempt
  | recovered attempt disposition hrunning hphase hattempt
  | published attempt result resultEvent receipt gate hactive hphase hattempt =>
      cases heffect
      exact ⟨attempt, hattempt, rfl⟩

/-- The change of the slot of the gate that an event is about. -/
theorem changes_of_target (hstepped : Stepped sha256 plan state event next)
    (hslot : state.slot gateId = some slot)
    (htarget : target event.kind = some gateId) :
    ∃ changed, next.slot gateId = some changed ∧
      Changes sha256 plan state event.id slot event.kind changed := by
  rcases hstepped.slots gateId slot hslot with h | ⟨-, hother, -⟩
  · exact h
  · exact absurd htarget hother

structure Logged (events : List GateEvent) (state : GateRunState) : Prop where
  reported : Reported events state.usedExecutions
  tracked : ∀ gateId slot, state.slot gateId = some slot →
    Tracked events state.usedExecutions slot

theorem target_of_effect (h : effect kind = some (gateId, executionId)) :
    target kind = some gateId := by
  cases kind <;> simp_all [effect, target]

theorem reported_of_stepped (hlogged : Logged events state)
    (hstepped : Stepped sha256 plan state event next) :
    Reported (events ++ [event]) next.usedExecutions := by
  rintro found hmem ⟨gateId, executionId⟩ heffect
  rw [hstepped.usedExecutions]
  apply List.mem_append_left
  rcases List.mem_append.mp hmem with hmem | hmem
  · exact hlogged.reported found hmem _ heffect
  · obtain rfl := List.mem_singleton.mp hmem
    have htarget := target_of_effect heffect
    obtain ⟨slot, hslot⟩ := hstepped.known gateId htarget
    obtain ⟨changed, -, hchanges⟩ := changes_of_target hstepped hslot htarget
    rw [← gateId_of_slot hslot] at heffect
    obtain ⟨attempt, hattempt, rfl⟩ := active_of_effect hchanges heffect
    exact (hlogged.tracked gateId slot hslot).used attempt hattempt

theorem logged_of_run (hrun : GateRun sha256 plan events state) :
    Logged events state := by
  refine run_induction Logged ?_ ?_ hrun
  · intro first snapshotDigest hkind
    constructor
    · intro event hmem effected heffect
      obtain rfl := List.mem_singleton.mp hmem
      rw [hkind] at heffect
      cases heffect
    · intro gateId slot hslot
      obtain ⟨gate, -, rfl⟩ := List.mem_map.mp (mem_of_slot hslot)
      constructor
      · intro attempt h
        cases h
      · intro h
        cases h
      · intro h
        cases h
  · intro events before event after hrun hlogged hstepped
    refine ⟨reported_of_stepped hlogged hstepped, ?_⟩
    intro gateId slot hslot
    obtain ⟨prior, hprior⟩ := exists_slot_before hstepped hslot
    have htracked := hlogged.tracked gateId prior hprior
    rcases hstepped.slots gateId prior hprior with ⟨changed, hchanged, hchanges⟩ |
      ⟨hpending, -, gate, blocker, -, -, -, hblocked⟩
    · rw [hslot] at hchanged
      cases hchanged
      exact tracked_of_changes htracked hlogged.reported hstepped hchanges
    · rw [hslot] at hblocked
      cases hblocked
      constructor
      · intro attempt h
        cases h
      · intro h
        cases h
      · intro h
        cases h

/-! ### What a late result does -/

/-- A recovery is owed, and the gate is settled. -/
def Lapsed (events : List GateEvent) (state : GateRunState) : Prop :=
  ∃ gateId executionId slot, Owed events gateId executionId ∧
    state.slot gateId = some slot ∧ slot.phase.isSettled = true

theorem owed_snoc (howed : Owed events gateId executionId)
    (hobserved : ∀ result,
      event.kind = .resultObserved gateId executionId result →
        result.retry = .afterRecovery)
    (hunrecovered : ∀ disposition,
      event.kind ≠ .recoveryClassified gateId executionId disposition) :
    Owed (events ++ [event]) gateId executionId where
  dispatched := by
    obtain ⟨found, hmem, hkind⟩ := howed.dispatched
    exact ⟨found, List.mem_append_left _ hmem, hkind⟩
  observed := by
    intro found hmem result hkind
    rcases List.mem_append.mp hmem with hmem | hmem
    · exact howed.observed found hmem result hkind
    · obtain rfl := List.mem_singleton.mp hmem
      exact hobserved result hkind
  unrecovered := by
    intro found hmem disposition hkind
    rcases List.mem_append.mp hmem with hmem | hmem
    · exact howed.unrecovered found hmem disposition hkind
    · obtain rfl := List.mem_singleton.mp hmem
      exact absurd hkind (hunrecovered disposition)

theorem lapsed_of_stepped (hlapsed : Lapsed events state)
    (hstepped : Stepped sha256 plan state event next) :
    Lapsed (events ++ [event]) next := by
  obtain ⟨gateId, executionId, slot, howed, hslot, hsettled⟩ := hlapsed
  have hother : target event.kind ≠ some gateId := by
    intro htarget
    obtain ⟨changed, -, hchanges⟩ := changes_of_target hstepped hslot htarget
    rw [← gateId_of_slot hslot] at htarget
    exact (same_of_settled hchanges hsettled).2 htarget
  refine ⟨gateId, executionId, slot, owed_snoc howed ?_ ?_,
    settled_of_stepped hstepped hslot hsettled, hsettled⟩
  · intro result hkind
    rw [hkind] at hother
    exact absurd rfl hother
  · intro disposition hkind
    rw [hkind] at hother
    exact hother rfl

/-- A result that awaits recovery, in a run that is being cancelled. -/
theorem lapsed_of_late (hlogged : Logged events state)
    (hcancels : Cancels events state)
    (hstepped : Stepped sha256 plan state event next)
    (hcancelled : ∃ earlier ∈ events, earlier.kind = .cancellationStarted)
    (hawaits : awaitsRecovery event.kind = true) :
    Lapsed (events ++ [event]) next := by
  obtain ⟨gateId, executionId, result, hkind⟩ : ∃ gateId executionId result,
      event.kind = .resultObserved gateId executionId result := by
    cases h : event.kind <;> simp_all [awaitsRecovery]
  have hretry : result.retry = .afterRecovery := by
    rw [hkind] at hawaits
    exact of_decide_eq_true hawaits
  obtain ⟨slot, hslot⟩ := hstepped.known gateId (by rw [hkind]; rfl)
  obtain ⟨changed, hchanged, hchanges⟩ :=
    changes_of_target hstepped hslot (by rw [hkind]; rfl)
  have hid := gateId_of_slot hslot
  subst hid
  have htracked := hlogged.tracked _ slot hslot
  rw [hkind] at hchanges
  cases hchanges with
  | same kind hother => exact absurd rfl hother
  | observed attempt result hrunning hphase hattempt =>
      obtain ⟨hdispatched, honly⟩ := htracked.dispatched hphase attempt hattempt
      have hcancelling : state.phase = .cancelling := by
        rcases hrunning with h | h
        · obtain ⟨earlier, hmem, hstarted⟩ := hcancelled
          exact absurd hstarted (hcancels.active (.inl h) earlier hmem)
        · exact h
      refine ⟨slot.gateId, attempt.executionId, _, owed_snoc ⟨hdispatched, ?_, ?_⟩
        ?_ ?_, hchanged, ?_⟩
      · intro found hmem result hfound
        have hdispatch := honly found hmem (by rw [hfound]; rfl)
        rw [hfound] at hdispatch
        cases hdispatch
      · intro found hmem disposition hfound
        have hdispatch := honly found hmem (by rw [hfound]; rfl)
        rw [hfound] at hdispatch
        cases hdispatch
      · intro found hfound
        rw [hkind] at hfound
        cases hfound
        exact hretry
      · intro disposition hfound
        rw [hkind] at hfound
        cases hfound
      · unfold resultPhase
        simp only [GateSlot.observe, hcancelling, if_true]
        rfl

theorem lapsed_of_run (hrun : GateRun sha256 plan events state)
    (hunsettled : ¬ Settles events) : Lapsed events state := by
  refine run_induction (fun events state => ¬ Settles events →
    Lapsed events state) ?_ ?_ hrun hunsettled
  · intro first snapshotDigest _ h
    exact absurd (List.pairwise_singleton _ _) h
  · intro events before event after hbefore hlapsed hstepped h
    by_cases hsettles : Settles events
    · rw [settles_snoc] at h
      push Not at h
      obtain ⟨earlier, hmem, hkind, hawaits⟩ := h hsettles
      exact lapsed_of_late (logged_of_run hbefore) (cancels_of_run hbefore)
        hstepped ⟨earlier, hmem, hkind⟩ (Bool.eq_true_of_not_eq_false hawaits)
    · exact lapsed_of_stepped (hlapsed hsettles) hstepped

/-- A run never ends over an effect that may be running, exactly if no result that
awaits recovery is observed in it once it is being cancelled. -/
theorem recovery_protected (hrun : GateRun sha256 plan events state) :
    Protected sha256 plan events state ↔ Settles events := by
  constructor
  · intro hprotected
    by_contra hunsettled
    obtain ⟨gateId, executionId, slot, howed, hslot, hsettled⟩ :=
      lapsed_of_run hrun hunsettled
    obtain ⟨found, hfound, hopen⟩ :=
      (hprotected gateId executionId howed).unsettled
    rw [hslot] at hfound
    cases hfound
    rw [hsettled] at hopen
    cases hopen
  · intro hsettles gateId executionId howed
    obtain ⟨slot, attempt, hslot, -, -, hphase⟩ :=
      holds_of_run hrun hsettles howed
    exact guarded_of_mayRun hrun hslot hphase

end Runs

/-! ### A result observed while the run is being cancelled -/

def lateRequests : List Request :=
  [(smallId 2, .prepareAttempt (smallId 1) smallAttempt),
    (smallId 3, .markDispatched (smallId 1) (smallId 1)),
    (smallId 4, .beginCancellation),
    (smallId 5, .observeResult (smallId 1) (smallId 1)
      (smallResult .timedOut .afterRecovery))]

theorem accepted_lateRequests (sha256 : List UInt8 → Sha256Digest) :
    (attempts sha256 smallPlan (smallStart sha256) lateRequests).map (fun state =>
      state.phase) = some .cancelling := by
  cbv

/-- Whatever the hash, the gate is cancelled over an attempt that timed out. -/
theorem cancelled_over_effect : ¬ ∃ sha256, ∀ plan events state,
    GateRun sha256 plan events state → Protected sha256 plan events state := by
  rintro ⟨sha256, hclaim⟩
  obtain ⟨state, hstate, -⟩ :=
    Option.map_eq_some_iff.mp (accepted_lateRequests sha256)
  obtain ⟨first, -, -, hfirst⟩ := gateRun_genesis sha256 smallPlan zeroDigest
    (smallId 1)
  obtain ⟨rest, hrequests, hrun⟩ := gateRun_of_attempts hfirst hstate
  have hunsettled : ¬ Settles ([first] ++ rest) := by
    simp only [lateRequests, List.map_eq_cons_iff, List.map_eq_nil_iff,
      Prod.mk.injEq] at hrequests
    obtain ⟨prepared, -, rfl, -, dispatched, -, rfl, -, cancelled, -, rfl,
      ⟨-, hcancelled⟩, observed, -, rfl, ⟨-, hobserved⟩, rfl⟩ := hrequests
    intro hsettles
    have hkind : cancelled.kind = .cancellationStarted := by
      cases h : cancelled.kind <;> simp_all [commandKind]
    have hresult : observed.kind = .resultObserved (smallId 1) (smallId 1)
        (smallResult .timedOut .afterRecovery) := by
      cases h : observed.kind <;> simp_all [commandKind]
    have hlate : awaitsRecovery observed.kind = true := by
      rw [hresult]
      rfl
    simp [Settles, hkind, hlate] at hsettles
  obtain ⟨gateId, executionId, slot, howed, hslot, hsettled⟩ :=
    lapsed_of_run hrun hunsettled
  obtain ⟨found, hfound, hopen⟩ :=
    (hclaim smallPlan _ state hrun gateId executionId howed).unsettled
  rw [hslot] at hfound
  cases hfound
  rw [hsettled] at hopen
  cases hopen

/-- The same result, observed before the cancellation. -/
def recoveryRequests : List Request :=
  smallRequests.take 2 ++
    [(smallId 4, .observeResult (smallId 1) (smallId 1)
      (smallResult .timedOut .afterRecovery)),
    (smallId 5, .beginCancellation)]

theorem phases_recoveryRequests :
    (attempts (fun _ => zeroDigest) smallPlan (smallStart fun _ => zeroDigest)
      recoveryRequests).map (fun state => (state.phase,
        state.slots.map GateSlot.phase)) =
      some (.cancelling, [.recoveryPending]) := by
  cbv

theorem recovery_protected_of_recovery : ∃ events state,
    GateRun (fun _ => zeroDigest) smallPlan events state ∧
      state.phase = .cancelling ∧
      state.slots.map GateSlot.phase = [.recoveryPending] ∧
      (Protected (fun _ => zeroDigest) smallPlan events state ↔
        Settles events) := by
  obtain ⟨state, hstate, hphases⟩ :=
    Option.map_eq_some_iff.mp phases_recoveryRequests
  obtain ⟨hphase, hslots⟩ := Prod.mk.inj hphases
  obtain ⟨first, -, -, hfirst⟩ := gateRun_genesis (fun _ => zeroDigest) smallPlan
    zeroDigest (smallId 1)
  obtain ⟨rest, -, hrun⟩ := gateRun_of_attempts hfirst hstate
  exact ⟨_, state, hrun, hphase, hslots, recovery_protected hrun⟩

end Peritus.Gates.Recovery
