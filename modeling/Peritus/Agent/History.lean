import Peritus.Agent.Closure

/-!
The history of a turn as its commands tell it: the tool batches, each with the
commands that were accepted while it was the batch of the turn, and the life of
each of its calls.
-/

namespace Peritus.Agent.History

open Peritus.Types State Reducer Edits Closure

/-! ### The batches of a log -/

/-- A batch from its proposal to the recording of its results. -/
structure BatchLog where
  proposals : List ToolProposal
  calls : List AgentCommandKind
  transcript : Option Sha256Digest

/-- The batches, the newest first, and the commands outside of them. -/
structure TurnLog where
  batches : List BatchLog
  others : List AgentCommandKind

namespace TurnLog

def pushCall (log : TurnLog) (kind : AgentCommandKind) : TurnLog :=
  match log.batches with
  | ⟨proposals, calls, none⟩ :: rest =>
      { log with batches := ⟨proposals, calls ++ [kind], none⟩ :: rest }
  | _ => { log with others := log.others ++ [kind] }

def pushTranscript (log : TurnLog) (digest : Sha256Digest) : TurnLog :=
  match log.batches with
  | ⟨proposals, calls, none⟩ :: rest =>
      { log with batches := ⟨proposals, calls, some digest⟩ :: rest }
  | _ => { log with others := log.others ++ [.resultsRecorded digest] }

def push (log : TurnLog) : AgentCommandKind → TurnLog
  | .toolCallsProposed _ proposals =>
      { log with batches := ⟨proposals, [], none⟩ :: log.batches }
  | .resultsRecorded digest => log.pushTranscript digest
  | kind => log.pushCall kind

end TurnLog

def turnLog (kinds : List AgentCommandKind) : TurnLog :=
  kinds.foldl TurnLog.push ⟨[], []⟩

@[simp] theorem turnLog_nil : turnLog [] = ⟨[], []⟩ := rfl

@[simp] theorem turnLog_append (kinds : List AgentCommandKind)
    (kind : AgentCommandKind) :
    turnLog (kinds ++ [kind]) = (turnLog kinds).push kind := by
  simp [turnLog]

/-! ### The life of a call -/

/-- The call that a command authorizes, denies, dispatches or completes. -/
def callOrdinal : AgentCommandKind → Option ToolOrdinal
  | .toolAuthorized ordinal _ | .toolDenied ordinal _
  | .toolDispatched ordinal | .toolCompleted ordinal _ => some ordinal
  | _ => none

/-- The commands about one call, in their order. -/
def callsOf (ordinal : ToolOrdinal) (calls : List AgentCommandKind) :
    List AgentCommandKind :=
  calls.filter fun kind => decide (callOrdinal kind = some ordinal)

/-- The commands that lead a call to the slot it has. -/
inductive Trail (ordinal : ToolOrdinal) (slot : ToolSlot) :
    List AgentCommandKind → Prop
  | undecided (hphase : slot.phase = .proposed ∨
        slot.phase = .awaitingAuthorization) : Trail ordinal slot []
  | authorized (digest : Sha256Digest) (hphase : slot.phase = .authorized) :
      Trail ordinal slot [.toolAuthorized ordinal digest]
  | running (digest : Sha256Digest) (hphase : slotInFlight slot = true) :
      Trail ordinal slot [.toolAuthorized ordinal digest, .toolDispatched ordinal]
  | completed (digest : Sha256Digest) (result : ToolResultRecord)
      (hphase : slot.phase = .terminal) (hresult : slot.result = some result) :
      Trail ordinal slot [.toolAuthorized ordinal digest, .toolDispatched ordinal,
        .toolCompleted ordinal result]
  | denied (result : ToolResultRecord) (hphase : slot.phase = .terminal)
      (hresult : slot.result = some result) (hdenied : result.status = .denied) :
      Trail ordinal slot [.toolDenied ordinal result]

/-- The commands of a batch and its slots. -/
structure Tracks (calls : List AgentCommandKind) (slots : List ToolSlot) :
    Prop where
  trail : ∀ (ordinal : ToolOrdinal) slot, slots[ordinal.toNat]? = some slot →
    Trail ordinal slot (callsOf ordinal calls)
  absent : ∀ ordinal : ToolOrdinal, slots[ordinal.toNat]? = none →
    callsOf ordinal calls = []

section Tracks

variable {calls : List AgentCommandKind} {slots : List ToolSlot}
  {ordinal : ToolOrdinal} {slot next : ToolSlot} {kind : AgentCommandKind}

theorem callsOf_append : callsOf ordinal (calls ++ [kind]) =
    callsOf ordinal calls ++
      if callOrdinal kind = some ordinal then [kind] else [] := by
  unfold callsOf
  rw [List.filter_append]
  by_cases h : callOrdinal kind = some ordinal <;> simp [h]

theorem callsOf_append_quiet (hquiet : callOrdinal kind = none) :
    callsOf ordinal (calls ++ [kind]) = callsOf ordinal calls := by
  simp [callsOf_append, hquiet]

theorem tracks_append (htracks : Tracks calls slots)
    (hquiet : callOrdinal kind = none) : Tracks (calls ++ [kind]) slots := by
  constructor
  · intro ordinal slot hslot
    rw [callsOf_append_quiet hquiet]
    exact htracks.trail ordinal slot hslot
  · intro ordinal hnone
    rw [callsOf_append_quiet hquiet]
    exact htracks.absent ordinal hnone

/-- One slot is replaced, and the log gets what leads there. -/
theorem tracks_set (htracks : Tracks calls slots)
    (hslot : slots[ordinal.toNat]? = some slot)
    (hkind : ∀ other, callOrdinal kind = some other → other = ordinal)
    (htrail : Trail ordinal next (callsOf ordinal (calls ++ [kind]))) :
    Tracks (calls ++ [kind]) (slots.set ordinal.toNat next) := by
  have hothers : ∀ other, other ≠ ordinal →
      callsOf other (calls ++ [kind]) = callsOf other calls := by
    intro other hother
    rw [callsOf_append, if_neg (fun h => hother (hkind other h)), List.append_nil]
  obtain ⟨hlt, -⟩ := List.getElem?_eq_some_iff.mp hslot
  constructor
  · intro other found hfound
    by_cases hsame : other = ordinal
    · subst hsame
      rw [List.getElem?_set_self hlt] at hfound
      cases hfound
      exact htrail
    · rw [hothers other hsame]
      apply htracks.trail
      rwa [List.getElem?_set_ne] at hfound
      exact fun h => hsame (UInt16.toNat_inj.mp h.symm)
  · intro other hnone
    have hsame : other ≠ ordinal := by
      rintro rfl
      rw [List.getElem?_set_self hlt] at hnone
      cases hnone
    rw [hothers other hsame]
    apply htracks.absent
    simpa using hnone

/-- The trail of a slot determines how far the call has come. -/
theorem trail_of_phase {trail : List AgentCommandKind}
    (htrail : Trail ordinal slot trail) :
    (slot.phase = .awaitingAuthorization → trail = []) ∧
      (slot.phase = .authorized →
        ∃ digest, trail = [.toolAuthorized ordinal digest]) ∧
      (slotInFlight slot = true → ∃ digest,
        trail = [.toolAuthorized ordinal digest, .toolDispatched ordinal]) := by
  cases htrail with
  | undecided hphase => rcases hphase with h | h <;> simp [slotInFlight, h]
  | authorized digest hphase => simp [slotInFlight, hphase]
  | running digest hphase =>
      refine ⟨?_, ?_, fun _ => ⟨digest, rfl⟩⟩
      · intro h
        simp [slotInFlight, h] at hphase
      · intro h
        simp [slotInFlight, h] at hphase
  | completed digest result hphase => simp [slotInFlight, hphase]
  | denied result hphase => simp [slotInFlight, hphase]

end Tracks

/-! ### The log of a turn -/

/-- A recorded batch: all its calls ended before. -/
def Settled (batch : BatchLog) : Prop :=
  batch.transcript.isSome = true ∧ ∃ slots, Tracks batch.calls slots ∧
    ∀ slot ∈ slots, slot.phase = .terminal

/-- The log of a turn and the batch it has. -/
inductive Logged : TurnLog → Option ToolBatch → Prop
  | idle (batches : List BatchLog) (others : List AgentCommandKind)
      (hbatches : ∀ batch ∈ batches, Settled batch)
      (hothers : ∀ kind ∈ others, callOrdinal kind = none) :
      Logged ⟨batches, others⟩ none
  | current (batch : ToolBatch) (calls : List AgentCommandKind)
      (batches : List BatchLog) (others : List AgentCommandKind)
      (htracks : Tracks calls batch.slots)
      (hbatches : ∀ batch ∈ batches, Settled batch)
      (hothers : ∀ kind ∈ others, callOrdinal kind = none) :
      Logged ⟨⟨batch.slots.map ToolSlot.proposal, calls, none⟩ :: batches, others⟩
        (some batch)

section Logged

variable {sha256 : List UInt8 → Sha256Digest} {log : TurnLog}
  {state next : AgentTurnState} {kind : AgentCommandKind}
  {tools : Option ToolBatch} {ordinal : ToolOrdinal} {slot replaced : ToolSlot}

theorem forall_mem_concat {calls : List AgentCommandKind}
    {p : AgentCommandKind → Prop} (hcalls : ∀ kind ∈ calls, p kind)
    (hkind : p kind) : ∀ other ∈ calls ++ [kind], p other := by
  simpa [or_imp, forall_and] using ⟨hcalls, hkind⟩

theorem logged_pushCall (hlogged : Logged log tools)
    (hquiet : callOrdinal kind = none) : Logged (log.pushCall kind) tools := by
  cases hlogged with
  | idle batches others hbatches hothers =>
      unfold TurnLog.pushCall
      split
      · next proposals calls rest heq =>
          have hsettled := hbatches ⟨proposals, calls, none⟩
            (by rw [show batches = _ from heq]; exact List.mem_cons_self)
          cases hsettled.1
      · exact .idle batches _ hbatches (forall_mem_concat hothers hquiet)
  | current batch calls batches others htracks hbatches hothers =>
      exact .current batch _ batches others (tracks_append htracks hquiet)
        hbatches hothers

/-- A command about one call of the batch. -/
theorem logged_setSlot (hlogged : Logged log state.tools)
    (hslot : SlotAt state ordinal slot)
    (hkind : ∀ other, callOrdinal kind = some other → other = ordinal)
    (htrail : ∀ calls, Trail ordinal slot (callsOf ordinal calls) →
      Trail ordinal replaced (callsOf ordinal (calls ++ [kind])))
    (hsame : replaced.proposal = slot.proposal) :
    Logged (log.pushCall kind) (setSlot state ordinal replaced).tools := by
  obtain ⟨batch, hbatch, hget⟩ := hslot
  unfold setSlot
  rw [hbatch] at hlogged
  rw [hbatch]
  cases hlogged with
  | current batch calls batches others htracks hbatches hothers =>
      have hset := tracks_set htracks hget hkind
        (htrail calls (htracks.trail ordinal slot hget))
      have hproposals : (batch.slots.set ordinal.toNat replaced).map
          ToolSlot.proposal = batch.slots.map ToolSlot.proposal := by
        obtain ⟨hlt, hget⟩ := List.getElem?_eq_some_iff.mp hget
        have hmap : ordinal.toNat < (batch.slots.map ToolSlot.proposal).length := by
          rwa [List.length_map]
        rw [List.map_set, hsame, ← hget, ← List.getElem_map ToolSlot.proposal]
        exact List.set_getElem_self hmap
      have hnext := Logged.current ⟨batch.slots.set ordinal.toNat replaced⟩ _
        batches others hset hbatches hothers
      rw [hproposals] at hnext
      exact hnext

theorem tracks_proposed (proposals : List ToolProposal) :
    Tracks [] (proposals.map ToolSlot.proposed) := by
  constructor
  · intro ordinal slot hslot
    rw [List.getElem?_map, Option.map_eq_some_iff] at hslot
    obtain ⟨proposal, -, rfl⟩ := hslot
    exact .undecided (.inl rfl)
  · intro ordinal hnone
    rfl

theorem tracks_setAwaiting {calls : List AgentCommandKind} {batch : ToolBatch}
    (htracks : Tracks calls batch.slots)
    (hproposed : ∀ slot ∈ batch.slots, slot.phase = .proposed) :
    Tracks calls batch.setAwaiting.slots := by
  constructor
  · intro ordinal slot hslot
    rw [ToolBatch.setAwaiting, List.getElem?_map, Option.map_eq_some_iff] at hslot
    obtain ⟨before, hbefore, rfl⟩ := hslot
    have hphase := hproposed before (List.mem_of_getElem? hbefore)
    have htrail := htracks.trail ordinal before hbefore
    cases h : callsOf ordinal calls with
    | nil => exact .undecided (.inr rfl)
    | cons first rest =>
        rw [h] at htrail
        cases htrail <;> simp_all [slotInFlight]
  · intro ordinal hnone
    rw [ToolBatch.setAwaiting, List.getElem?_map, Option.map_eq_none_iff] at hnone
    exact htracks.absent ordinal hnone

theorem logged_of_edit (hlogged : Logged log state.tools) (hsound : Sound state)
    (hedit : Edit sha256 state kind next) :
    Logged (log.push kind) next.tools := by
  cases hedit with
  | toolCallsProposed terminal proposals hphase =>
      rw [tools_of_active hsound.toClosed hphase rfl] at hlogged
      cases hlogged with
      | idle batches others hbatches hothers =>
          have hnext := Logged.current ⟨proposals.map ToolSlot.proposed⟩ []
            batches others (tracks_proposed proposals) hbatches hothers
          have hproposals : (proposals.map ToolSlot.proposed).map
              ToolSlot.proposal = proposals := by
            simp [Function.comp_def, ToolSlot.proposed]
          rw [hproposals] at hnext
          exact hnext
  | authorizationStarted batch hphase hbatch =>
      have hproposed : ∀ slot ∈ batch.slots, slot.phase = .proposed := by
        intro slot hslot
        have hallowed := hsound.slots .proposedToolCalls batch
          (by rw [activePhase, hphase]) hbatch slot hslot
        cases h : slot.phase <;> simp_all [slotAllowed]
      rw [hbatch] at hlogged
      cases hlogged with
      | current batch calls batches others htracks hbatches hothers =>
          have happended : Tracks (calls ++ [.authorizationStarted]) batch.slots :=
            tracks_append htracks rfl
          have hnext := Logged.current batch.setAwaiting _ batches others
            (tracks_setAwaiting happended hproposed) hbatches hothers
          have hproposals : batch.setAwaiting.slots.map ToolSlot.proposal =
              batch.slots.map ToolSlot.proposal := by
            simp [ToolBatch.setAwaiting, Function.comp_def]
          rw [hproposals] at hnext
          exact hnext
  | toolAuthorized ordinal authorityDigest slot hphase hslot hawaiting =>
      refine logged_setSlot hlogged hslot ?_ ?_ rfl
      · intro other h
        exact (Option.some.inj h).symm
      · intro calls htrail
        rw [callsOf_append, (trail_of_phase htrail).1 hawaiting]
        simpa [callOrdinal] using Trail.authorized authorityDigest rfl
  | toolDenied ordinal result slot hphase hdenied hslot hawaiting =>
      refine logged_setSlot hlogged hslot ?_ ?_ rfl
      · intro other h
        exact (Option.some.inj h).symm
      · intro calls htrail
        rw [callsOf_append, (trail_of_phase htrail).1 hawaiting]
        simpa [callOrdinal] using Trail.denied result rfl rfl hdenied
  | toolDispatched ordinal slot hphase hslot hauthorized =>
      refine logged_setSlot hlogged hslot ?_ ?_ rfl
      · intro other h
        exact (Option.some.inj h).symm
      · intro calls htrail
        obtain ⟨digest, hbefore⟩ := (trail_of_phase htrail).2.1 hauthorized
        rw [callsOf_append, hbefore]
        simpa [callOrdinal] using Trail.running digest rfl
  | toolCompleted ordinal result slot hphase hslot hrunning =>
      refine logged_setSlot hlogged hslot ?_ ?_ rfl
      · intro other h
        exact (Option.some.inj h).symm
      · intro calls htrail
        have hflight : slotInFlight slot = true := by
          rcases hrunning with h | h <;> simp [slotInFlight, h]
        obtain ⟨digest, hbefore⟩ := (trail_of_phase htrail).2.2 hflight
        rw [callsOf_append, hbefore]
        simpa [callOrdinal] using Trail.completed digest result rfl rfl
  | toolActivated ordinal slot hphase hslot hdispatched =>
      refine logged_setSlot hlogged hslot (fun _ h => by cases h) ?_ rfl
      intro calls htrail
      obtain ⟨digest, hbefore⟩ := (trail_of_phase htrail).2.2
        (by simp [slotInFlight, hdispatched])
      rw [callsOf_append_quiet rfl, hbefore]
      exact .running digest rfl
  | toolProgressObserved ordinal sequence progressDigest slot hphase hslot
      hactive =>
      refine logged_setSlot hlogged hslot (fun _ h => by cases h) ?_ rfl
      intro calls htrail
      have hflight : slotInFlight slot = true := by simp [slotInFlight, hactive]
      obtain ⟨digest, hbefore⟩ := (trail_of_phase htrail).2.2 hflight
      rw [callsOf_append_quiet rfl, hbefore]
      exact .running digest hflight
  | resultsRecorded transcriptDigest batch hphase hbatch =>
      have hterminal : ∀ slot ∈ batch.slots, slot.phase = .terminal := by
        intro slot hslot
        have hallowed := hsound.slots .recordingResults batch
          (by rw [activePhase, hphase]) hbatch slot hslot
        cases h : slot.phase <;> simp_all [slotAllowed]
      rw [hbatch] at hlogged
      cases hlogged with
      | current batch calls batches others htracks hbatches hothers =>
          refine .idle _ others ?_ hothers
          intro found hfound
          rcases List.mem_cons.mp hfound with rfl | hfound
          · exact ⟨rfl, batch.slots, htracks, hterminal⟩
          · exact hbatches found hfound
  | _ => exact logged_pushCall hlogged rfl

theorem logged_of_starts {first : AgentEvent}
    (hstart : Starts sha256 first state) :
    Logged (turnLog []) state.tools := by
  obtain ⟨binding, limits, commandId, eventId, h⟩ := hstart
  obtain ⟨-, -, -, -, rfl⟩ := start_eq_ok h
  exact .idle [] [] (by simp) (by simp)

/-- The induction over a turn, with its log at hand. -/
theorem logged_invariant {events : List AgentEvent}
    (inv : List AgentCommandKind → AgentTurnState → Prop)
    (hinit : ∀ first initial, Starts sha256 first initial → inv [] initial)
    (hcounted : ∀ log state kind counted, inv log state →
      Counted state kind counted → inv log counted)
    (hsealed : ∀ log state sequence revision eventId, inv log state →
      inv log (finishTransition sha256 state sequence revision eventId))
    (hedit : ∀ log state kind next, inv log state → Sound state →
      Logged (turnLog log) state.tools → Edit sha256 state kind next →
      inv (log ++ [kind]) next)
    (hturn : Turn sha256 events state) : inv (commands events) state := by
  refine (edit_invariant (fun log state => inv log state ∧
    Logged (turnLog log) state.tools) ?_ ?_ ?_ ?_ hturn).1
  · intro first initial hstart
    exact ⟨hinit first initial hstart, logged_of_starts hstart⟩
  · rintro log before kind counted ⟨hinv, hlogged⟩ hcount
    refine ⟨hcounted log before kind counted hinv hcount, ?_⟩
    cases hcount <;> exact hlogged
  · rintro log before sequence revision eventId ⟨hinv, hlogged⟩
    exact ⟨hsealed log before sequence revision eventId hinv, hlogged⟩
  · rintro log before kind after ⟨hinv, hlogged⟩ hsound hchange
    refine ⟨hedit log before kind after hinv hsound hlogged hchange, ?_⟩
    rw [turnLog_append]
    exact logged_of_edit hlogged hsound hchange

theorem logged_of_turn {events : List AgentEvent}
    (hturn : Turn sha256 events state) :
    Logged (turnLog (commands events)) state.tools := by
  refine logged_invariant (fun log state => Logged (turnLog log) state.tools)
    ?_ ?_ ?_ ?_ hturn
  · intro first initial hstart
    exact logged_of_starts hstart
  · intro log before kind counted hlogged hcount
    cases hcount <;> exact hlogged
  · intro log before sequence revision eventId hlogged
    exact hlogged
  · intro log before kind after _ hsound hlogged hchange
    rw [turnLog_append]
    exact logged_of_edit hlogged hsound hchange

/-! ### What the log of a turn holds -/

def Holds (log : TurnLog) (kind : AgentCommandKind) : Prop :=
  kind ∈ log.others ∨ ∃ batch ∈ log.batches, kind ∈ batch.calls

theorem holds_pushCall {other : AgentCommandKind}
    (h : kind = other ∨ Holds log kind) : Holds (log.pushCall other) kind := by
  unfold Holds at h ⊢
  unfold TurnLog.pushCall
  split
  · next proposals calls rest heq =>
      rw [heq] at h
      simp only [List.mem_cons, exists_eq_or_imp, List.mem_append] at h ⊢
      rcases h with rfl | hothers | hin | hbatch
      · exact .inr (.inl (.inr (.inl rfl)))
      · exact .inl hothers
      · exact .inr (.inl (.inl hin))
      · exact .inr (.inr hbatch)
  · rcases h with rfl | hothers | hbatch
    · exact .inl (List.mem_append_right _ List.mem_cons_self)
    · exact .inl (List.mem_append_left _ hothers)
    · exact .inr hbatch

theorem holds_pushTranscript {digest : Sha256Digest} (h : Holds log kind) :
    Holds (log.pushTranscript digest) kind := by
  unfold Holds at h ⊢
  unfold TurnLog.pushTranscript
  split
  · next proposals calls rest heq =>
      rw [heq] at h
      simpa only [List.mem_cons, exists_eq_or_imp] using h
  · rcases h with hothers | hbatch
    · exact .inl (List.mem_append_left _ hothers)
    · exact .inr hbatch

theorem Logged.others (hlogged : Logged log tools) :
    ∀ kind ∈ log.others, callOrdinal kind = none := by
  cases hlogged with
  | idle batches others hbatches hothers => exact hothers
  | current batch calls batches others htracks hbatches hothers => exact hothers

theorem Logged.exists_tracks (hlogged : Logged log tools)
    {batch : BatchLog} (hbatch : batch ∈ log.batches) :
    ∃ slots, Tracks batch.calls slots := by
  cases hlogged with
  | idle batches others hbatches =>
      obtain ⟨-, slots, htracks, -⟩ := hbatches batch hbatch
      exact ⟨slots, htracks⟩
  | current found calls batches others htracks hbatches =>
      rcases List.mem_cons.mp hbatch with rfl | hbatch
      · exact ⟨found.slots, htracks⟩
      · obtain ⟨-, slots, htracks, -⟩ := hbatches batch hbatch
        exact ⟨slots, htracks⟩

theorem Logged.settled_of_idle (hlogged : Logged log none)
    {batch : BatchLog} (hbatch : batch ∈ log.batches) : Settled batch := by
  cases hlogged with
  | idle batches others hbatches => exact hbatches batch hbatch

/-- A log loses no command about a call. -/
theorem holds_of_mem {kinds : List AgentCommandKind} (hmem : kind ∈ kinds)
    (hcall : callOrdinal kind ≠ none) : Holds (turnLog kinds) kind := by
  induction kinds using List.reverseRecOn with
  | nil => cases hmem
  | append_singleton kinds other ih =>
      have hbefore : kind = other ∨ Holds (turnLog kinds) kind := by
        rcases List.mem_append.mp hmem with hmem | hmem
        · exact .inr (ih hmem)
        · exact .inl (List.mem_singleton.mp hmem)
      rw [turnLog_append]
      cases other with
      | toolCallsProposed terminal proposals =>
          rcases hbefore with rfl | hothers | ⟨batch, hbatch, hin⟩
          · exact absurd rfl hcall
          · exact .inl hothers
          · exact .inr ⟨batch, List.mem_cons_of_mem _ hbatch, hin⟩
      | resultsRecorded digest =>
          rcases hbefore with rfl | hbefore
          · exact absurd rfl hcall
          · exact holds_pushTranscript hbefore
      | _ => exact holds_pushCall hbefore

/-- A command about a call is in the log of a batch. -/
theorem exists_batch_of_mem {events : List AgentEvent}
    (hturn : Turn sha256 events state) (hmem : kind ∈ commands events)
    (hcall : callOrdinal kind ≠ none) :
    ∃ batch ∈ (turnLog (commands events)).batches, kind ∈ batch.calls := by
  rcases holds_of_mem hmem hcall with hothers | hbatch
  · exact absurd ((logged_of_turn hturn).others kind hothers) hcall
  · exact hbatch

end Logged

end Peritus.Agent.History
