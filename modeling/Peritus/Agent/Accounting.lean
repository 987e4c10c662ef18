import Peritus.Agent.Backing

/-!
The calls of a turn and what is counted for them.  Calls are authorized,
serialized and bounded in every run; the bytes of their results are bounded but
for those of the denied ones, which nothing counts.
-/

namespace Peritus.Agent.Accounting

open Peritus.Types Checked TransitionSystem State Reducer Edits Closure History Backing

/-! ### Sums over a log -/

def proposedCalls : AgentCommandKind → Nat
  | .toolCallsProposed _ proposals => proposals.length
  | _ => 0

def completedBytes : AgentCommandKind → Nat
  | .toolCompleted _ result => result.modelVisibleBytes
  | _ => 0

def deniedBytes : AgentCommandKind → Nat
  | .toolDenied _ result => result.modelVisibleBytes
  | _ => 0

/-- The bytes of a result, whichever way the call got it. -/
def visibleBytes (kind : AgentCommandKind) : Nat :=
  completedBytes kind + deniedBytes kind

def total (amount : AgentCommandKind → Nat) (log : List AgentCommandKind) : Nat :=
  (log.map amount).sum

theorem total_append (amount : AgentCommandKind → Nat)
    (log : List AgentCommandKind) (kind : AgentCommandKind) :
    total amount (log ++ [kind]) = total amount log + amount kind := by
  simp [total]

theorem total_visibleBytes (log : List AgentCommandKind) :
    total visibleBytes log =
      total completedBytes log + total deniedBytes log :=
  List.sum_map_add

/-! ### Calls -/

/-- The commands of one batch about its calls. -/
structure Ordered (batch : BatchLog) : Prop where
  once : ∀ ordinal, batch.calls.count (.toolDispatched ordinal) ≤ 1
  authorized : ∀ ordinal before after,
    batch.calls = before ++ .toolDispatched ordinal :: after →
      ∃ digest, .toolAuthorized ordinal digest ∈ before
  denied : ∀ ordinal result, .toolDenied ordinal result ∈ batch.calls →
    .toolDispatched ordinal ∉ batch.calls

section Calls

variable {calls : List AgentCommandKind} {slots : List ToolSlot}
  {kind : AgentCommandKind} {ordinal : ToolOrdinal} {batch : BatchLog}

theorem mem_callsOf (h : callOrdinal kind = some ordinal) :
    kind ∈ callsOf ordinal calls ↔ kind ∈ calls := by
  simp [callsOf, h]

theorem ordered_of_tracks (htracks : Tracks batch.calls slots) :
    Ordered batch := by
  have htrail : ∀ ordinal, callsOf ordinal batch.calls = [] ∨
      ∃ slot, Trail ordinal slot (callsOf ordinal batch.calls) := by
    intro ordinal
    cases hget : slots[ordinal.toNat]? with
    | none => exact .inl (htracks.absent ordinal hget)
    | some slot => exact .inr ⟨slot, htracks.trail ordinal slot hget⟩
  constructor
  · intro ordinal
    have hcount : batch.calls.count (.toolDispatched ordinal) =
        (callsOf ordinal batch.calls).count (.toolDispatched ordinal) := by
      rw [callsOf, List.count_filter]
      simp [callOrdinal]
    rw [hcount]
    rcases htrail ordinal with h | ⟨slot, h⟩
    · rw [h]
      exact Nat.zero_le 1
    · generalize callsOf ordinal batch.calls = trail at h
      cases h <;> simp
  · intro ordinal before after hsplit
    have hcalls : callsOf ordinal batch.calls =
        callsOf ordinal before ++
          .toolDispatched ordinal :: callsOf ordinal after := by
      rw [hsplit, callsOf, List.filter_append, List.filter_cons_of_pos]
      · rfl
      · simp [callOrdinal]
    have hhere := htrail ordinal
    rw [hcalls] at hhere
    rcases hhere with h | ⟨slot, h⟩
    · simp at h
    · have hbefore : ∃ digest,
          .toolAuthorized ordinal digest ∈ callsOf ordinal before := by
        generalize callsOf ordinal before = first at h
        generalize htrails : first ++ .toolDispatched ordinal ::
          callsOf ordinal after = trail at h
        cases first with
        | nil =>
            rw [List.nil_append] at htrails
            subst htrails
            cases h
        | cons kind first =>
            cases h <;> simp_all
      obtain ⟨digest, hmem⟩ := hbefore
      exact ⟨digest, (mem_callsOf rfl).mp hmem⟩
  · intro ordinal result hdenied hdispatched
    rw [← mem_callsOf rfl] at hdenied hdispatched
    rcases htrail ordinal with h | ⟨slot, h⟩
    · rw [h] at hdenied
      cases hdenied
    · generalize callsOf ordinal batch.calls = trail at h hdenied hdispatched
      cases h <;> simp_all

end Calls

/-! ### What every turn keeps -/

section Turns

variable {sha256 : List UInt8 → Sha256Digest} {state next : AgentTurnState}
  {events : List AgentEvent} {kind : AgentCommandKind}

theorem within_of_turn (hturn : Turn sha256 events state) :
    WithinLimits state.counters state.limits ∧
      state.counters.activeToolCalls = inFlight state := by
  refine edit_invariant (fun _ state =>
    WithinLimits state.counters state.limits ∧
      state.counters.activeToolCalls = inFlight state) ?_ ?_ ?_ ?_ hturn
  · intro first initial hstart
    have hsound := sound_of_starts hstart
    exact ⟨hsound.counters, hsound.activeToolCalls⟩
  · rintro log before kind counted ⟨hwithin, hactive⟩ hcount
    cases hcount with
    | spared => exact ⟨hwithin, hactive⟩
    | counted hlimit => exact ⟨{ hwithin with transitions := hlimit }, hactive⟩
  · intro log before sequence revision eventId hinv
    exact hinv
  · intro log before kind after _ hsound hedit
    exact ⟨counters_of_edit hsound.toClosed hedit,
      activeToolCalls_of_edit hsound hedit⟩

/-- The counters are sums over the commands of the turn. -/
theorem counters_of_turn (hturn : Turn sha256 events state) :
    state.counters.toolCalls = total proposedCalls (commands events) ∧
      state.counters.toolResultBytes =
        total completedBytes (commands events) := by
  refine edit_invariant (fun log state =>
    state.counters.toolCalls = total proposedCalls log ∧
      state.counters.toolResultBytes = total completedBytes log)
    ?_ ?_ ?_ ?_ hturn
  · rintro first initial ⟨binding, limits, commandId, eventId, h⟩
    obtain ⟨-, -, -, -, rfl⟩ := start_eq_ok h
    exact ⟨rfl, rfl⟩
  · intro log before kind counted hinv hcount
    cases hcount <;> exact hinv
  · intro log before sequence revision eventId hinv
    exact hinv
  · rintro log before kind after ⟨hcalls, hbytes⟩ _ hedit
    rw [total_append, total_append, ← hcalls, ← hbytes]
    cases hedit <;> exact ⟨rfl, rfl⟩

/-- A batch with a mutation of the workspace has no other call. -/
def Serialized (proposals : List ToolProposal) : Prop :=
  (∃ proposal ∈ proposals, proposal.sideEffect = .workspace) →
    proposals.length ≤ 1

theorem serialized_of_new {proposals : List ToolProposal}
    {revision : RevisionTuple} {maximum : Nat} {batch : ToolBatch}
    (h : ToolBatch.new proposals revision maximum = .ok batch) :
    Serialized proposals := by
  rintro ⟨proposal, hmem, heffect⟩
  have hcount : 0 < ToolBatch.mutationCount proposals := by
    apply List.countP_pos_iff.mpr
    exact ⟨proposal, hmem, decide_eq_true heffect⟩
  simp only [ToolBatch.new, bind_eq_ok_iff, exists_unit_iff, ensure_eq_ok_iff,
    Bool.not_eq_true', Bool.and_eq_false_iff, decide_eq_false_iff_not] at h
  obtain ⟨-, -, halone, -⟩ := h
  rcases halone with h | h
  · exact absurd hcount h
  · exact Nat.not_lt.mp h

theorem proposals_of_push {log : TurnLog} {kind : AgentCommandKind}
    {p : List ToolProposal → Prop}
    (hlog : ∀ batch ∈ log.batches, p batch.proposals)
    (hkind : ∀ terminal proposals, kind = .toolCallsProposed terminal proposals →
      p proposals) :
    ∀ batch ∈ (log.push kind).batches, p batch.proposals := by
  have hcall : ∀ other, ∀ batch ∈ (log.pushCall other).batches,
      p batch.proposals := by
    intro other batch hbatch
    unfold TurnLog.pushCall at hbatch
    split at hbatch
    · next proposals calls rest heq =>
        rw [heq] at hlog
        rcases List.mem_cons.mp hbatch with rfl | hbatch
        · exact hlog ⟨proposals, calls, none⟩ List.mem_cons_self
        · exact hlog batch (List.mem_cons_of_mem _ hbatch)
    · exact hlog batch hbatch
  cases kind with
  | toolCallsProposed terminal proposals =>
      intro batch hbatch
      rcases List.mem_cons.mp hbatch with rfl | hbatch
      · exact hkind terminal proposals rfl
      · exact hlog batch hbatch
  | resultsRecorded digest =>
      intro batch hbatch
      unfold TurnLog.push TurnLog.pushTranscript at hbatch
      dsimp only at hbatch
      split at hbatch
      · next proposals calls rest heq =>
          rw [heq] at hlog
          rcases List.mem_cons.mp hbatch with rfl | hbatch
          · exact hlog ⟨proposals, calls, none⟩ List.mem_cons_self
          · exact hlog batch (List.mem_cons_of_mem _ hbatch)
      · exact hlog batch hbatch
  | _ => exact hcall _

theorem serialized_of_turn (hturn : Turn sha256 events state) :
    ∀ batch ∈ (turnLog (commands events)).batches,
      Serialized batch.proposals := by
  refine edit_invariant (fun log _ => ∀ batch ∈ (turnLog log).batches,
    Serialized batch.proposals) ?_ ?_ ?_ ?_ hturn
  · intro first initial _ batch hbatch
    cases hbatch
  · intro log before kind counted hinv _
    exact hinv
  · intro log before sequence revision eventId hinv
    exact hinv
  · intro log before kind after hinv _ hedit
    rw [turnLog_append]
    apply proposals_of_push hinv
    rintro terminal proposals rfl
    cases hedit with
    | toolCallsProposed _ _ hphase hbatch => exact serialized_of_new hbatch

/-- No other call is in flight with one that changes the workspace. -/
theorem alone_of_turn (hturn : Turn sha256 events state) {batch : ToolBatch}
    (hbatch : state.tools = some batch) {left right : Nat}
    {slot other : ToolSlot} (hleft : batch.slots[left]? = some slot)
    (hright : batch.slots[right]? = some other)
    (heffect : slot.proposal.sideEffect = .workspace) : left = right := by
  have hlogged := logged_of_turn hturn
  have hserialized := serialized_of_turn hturn
  generalize turnLog (commands events) = log at hlogged hserialized
  rw [hbatch] at hlogged
  cases hlogged with
  | current _ calls batches others =>
      have hlength := hserialized _ List.mem_cons_self ⟨slot.proposal,
        List.mem_map_of_mem (List.mem_of_getElem? hleft), heffect⟩
      rw [List.length_map] at hlength
      have hlt := (List.getElem?_eq_some_iff.mp hleft).1
      have hlt' := (List.getElem?_eq_some_iff.mp hright).1
      omega

/-! ### Results -/

theorem slotAt_setSlot_of_ne {ordinal other : ToolOrdinal}
    {slot replaced : ToolSlot} (hslot : SlotAt state ordinal slot)
    (hne : other ≠ ordinal) : SlotAt (setSlot state other replaced) ordinal slot := by
  obtain ⟨batch, hbatch, hget⟩ := hslot
  refine ⟨⟨batch.slots.set other.toNat replaced⟩, ?_, ?_⟩
  · rw [setSlot, hbatch]
    rfl
  · rw [List.getElem?_set_ne (fun h => hne (UInt16.toNat_inj.mp h))]
    exact hget

theorem slotAt_unique {ordinal : ToolOrdinal} {slot other : ToolSlot}
    (hslot : SlotAt state ordinal slot) (hother : SlotAt state ordinal other) :
    other = slot := by
  obtain ⟨batch, hbatch, hget⟩ := hslot
  obtain ⟨found, hfound, hgets⟩ := hother
  rw [hbatch] at hfound
  cases hfound
  rw [hget] at hgets
  exact (Option.some.inj hgets).symm

/-- A slot that is terminal stays as it is until its batch is recorded. -/
theorem slotAt_of_edit {ordinal : ToolOrdinal} {slot : ToolSlot}
    (hsound : Sound state) (hedit : Edit sha256 state kind next)
    (hslot : SlotAt state ordinal slot) (hterminal : slot.phase = .terminal)
    (hkind : ∀ digest, kind ≠ .resultsRecorded digest) :
    SlotAt next ordinal slot := by
  have hother : ∀ {other found replaced}, SlotAt state other found →
      found.phase ≠ .terminal →
      SlotAt (setSlot state other replaced) ordinal slot := by
    intro other found replaced hfound hphase
    apply slotAt_setSlot_of_ne hslot
    rintro rfl
    exact hphase (slotAt_unique hslot hfound ▸ hterminal)
  cases hedit with
  | toolCallsProposed terminal proposals hphase =>
      obtain ⟨batch, hbatch, -⟩ := hslot
      rw [tools_of_active hsound.toClosed hphase rfl] at hbatch
      cases hbatch
  | authorizationStarted batch hphase hbatch =>
      obtain ⟨found, hfound, hget⟩ := hslot
      have hallowed := hsound.slots .proposedToolCalls found
        (by rw [activePhase, hphase]) hfound slot (List.mem_of_getElem? hget)
      rw [hterminal] at hallowed
      cases hallowed
  | toolAuthorized other digest found hphase hfound hawaiting =>
      exact hother hfound (by rw [hawaiting]; exact fun h => by cases h)
  | toolDenied other result found hphase hdenied hfound hawaiting =>
      exact hother hfound (by rw [hawaiting]; exact fun h => by cases h)
  | toolDispatched other found hphase hfound hauthorized =>
      exact hother hfound (by rw [hauthorized]; exact fun h => by cases h)
  | toolActivated other found hphase hfound hdispatched =>
      exact hother hfound (by rw [hdispatched]; exact fun h => by cases h)
  | toolProgressObserved other sequence digest found hphase hfound hactive =>
      exact hother hfound (by rw [hactive]; exact fun h => by cases h)
  | toolCompleted other result found hphase hfound hrunning =>
      refine hother hfound ?_
      rcases hrunning with h | h <;> rw [h] <;> exact fun h => by cases h
  | resultsRecorded digest => exact absurd rfl (hkind digest)
  | _ => exact hslot

theorem turn_concat {event : AgentEvent} (hturn : Turn sha256 events state)
    (hstep : Steps sha256 state event next) :
    Turn sha256 (events ++ [event]) next := by
  obtain ⟨first, initial, rest, hstart, hrun, rfl⟩ := hturn
  exact ⟨first, initial, rest ++ [event], hstart,
    hrun.append (.cons hstep (.nil next)), rfl⟩

theorem slotAt_of_run {rest : List AgentEvent} {ordinal : ToolOrdinal}
    {slot : ToolSlot} (hturn : Turn sha256 events state)
    (hrun : Run (Steps sha256) state rest next)
    (hunrecorded : ∀ digest, .resultsRecorded digest ∉ commands rest)
    (hslot : SlotAt state ordinal slot) (hterminal : slot.phase = .terminal) :
    SlotAt next ordinal slot := by
  induction hrun generalizing events with
  | nil => exact hslot
  | cons hstep hrest ih =>
      obtain ⟨kind, counted, applied, haccepted⟩ := exists_accepted hstep
      rw [← List.singleton_append, commands_append,
        commands_singleton haccepted.recorded] at hunrecorded
      refine ih (turn_concat hturn hstep) ?_ ?_
      · intro digest hmem
        exact hunrecorded digest (List.mem_append_right _ hmem)
      · have hsound := sound_of_counted
          (sound_of_turn hturn haccepted.unfinished) haccepted.counts
        have hcounted : SlotAt counted ordinal slot := by
          cases haccepted.counts <;> exact hslot
        rw [haccepted.successor]
        have happlied : SlotAt applied ordinal slot := by
          refine slotAt_of_edit hsound haccepted.edit hcounted hterminal ?_
          rintro digest rfl
          exact hunrecorded digest (List.mem_append_left _ List.mem_cons_self)
        exact happlied

/-! ### Accounted turns -/

/-- The calls of a turn, but for the bytes of their results. -/
structure Disciplined (sha256 : List UInt8 → Sha256Digest)
    (events : List AgentEvent) (state : AgentTurnState) : Prop where
  started : events.head?.map AgentEvent.kind =
    some (.started state.binding state.limits)
  batched : ∀ ordinal, .toolDispatched ordinal ∈ commands events →
    ∃ batch ∈ (turnLog (commands events)).batches,
      .toolDispatched ordinal ∈ batch.calls
  ordered : ∀ batch ∈ (turnLog (commands events)).batches, Ordered batch
  results : ∀ rest next, Run (Steps sha256) state rest next →
    (∀ digest, .resultsRecorded digest ∉ commands rest) →
    ∀ ordinal slot, SlotAt state ordinal slot → slot.phase = .terminal →
      SlotAt next ordinal slot
  concurrent : inFlight state ≤ state.limits.maxConcurrentToolCalls
  alone : ∀ batch, state.tools = some batch →
    ∀ (left right : Nat) slot other, batch.slots[left]? = some slot →
      batch.slots[right]? = some other → slotInFlight slot = true →
      slotInFlight other = true → slot.proposal.sideEffect = .workspace →
      left = right
  calls : total proposedCalls (commands events) ≤ state.limits.maxToolCalls

structure Accounted (sha256 : List UInt8 → Sha256Digest)
    (events : List AgentEvent) (state : AgentTurnState) : Prop
    extends Disciplined sha256 events state where
  bytes : total visibleBytes (commands events) ≤ state.limits.maxToolResultBytes

theorem disciplined_of_turn (hturn : Turn sha256 events state) :
    Disciplined sha256 events state where
  started := started_of_turn hturn
  batched := by
    intro ordinal hmem
    exact exists_batch_of_mem hturn hmem (Option.some_ne_none ordinal)
  ordered := by
    intro batch hbatch
    obtain ⟨slots, htracks⟩ := (logged_of_turn hturn).exists_tracks hbatch
    exact ordered_of_tracks htracks
  results := by
    intro rest next hrun hunrecorded ordinal slot hslot hterminal
    exact slotAt_of_run hturn hrun hunrecorded hslot hterminal
  concurrent := by
    obtain ⟨hwithin, hactive⟩ := within_of_turn hturn
    rw [← hactive]
    exact hwithin.activeToolCalls
  alone := by
    intro batch hbatch left right slot other hleft hright _ _ heffect
    exact alone_of_turn hturn hbatch hleft hright heffect
  calls := by
    rw [← (counters_of_turn hturn).1]
    exact (within_of_turn hturn).1.toolCalls

/-- No denied result shows anything. -/
def Silent (log : List AgentCommandKind) : Prop :=
  ∀ kind ∈ log, deniedBytes kind = 0

instance (log : List AgentCommandKind) : Decidable (Silent log) :=
  inferInstanceAs (Decidable (∀ kind ∈ log, deniedBytes kind = 0))

theorem total_deniedBytes_iff {log : List AgentCommandKind} :
    total deniedBytes log = 0 ↔ Silent log := by
  rw [total, List.sum_eq_zero_iff]
  exact List.forall_mem_map

/-- Every turn is disciplined, and one whose denials show nothing is accounted
for; exactly then does the counter hold the bytes of all its results. -/
theorem calls_accounted (hturn : Turn sha256 events state) :
    Disciplined sha256 events state ∧
    (Silent (commands events) → Accounted sha256 events state) ∧
    (state.counters.toolResultBytes = total visibleBytes (commands events) ↔
      Silent (commands events)) := by
  have hdisciplined := disciplined_of_turn hturn
  have hcompleted := (counters_of_turn hturn).2
  have hwithin := (within_of_turn hturn).1.toolResultBytes
  have hexact : state.counters.toolResultBytes =
      total visibleBytes (commands events) ↔ Silent (commands events) := by
    rw [← total_deniedBytes_iff, total_visibleBytes, ← hcompleted]
    exact left_eq_add
  refine ⟨hdisciplined, ?_, hexact⟩
  intro hsilent
  refine { toDisciplined := hdisciplined, bytes := ?_ }
  rw [← hexact.mpr hsilent]
  exact hwithin

end Turns

/-! ### A denied result over the limit -/

def loudDenial : List Request :=
  numbered (smallBatch [.toolDenied 0 (smallResult .denied 9),
    .toolExecutionStarted])

theorem limit_loudDenial (sha256 : List UInt8 → Sha256Digest) :
    (attempts sha256 (smallStart sha256) loudDenial).map (fun state =>
      state.limits.maxToolResultBytes) = some 8 := by
  cbv

/-- Whatever the hash, more bytes are recorded than the limit allows. -/
theorem denied_over_limit : ¬ ∃ sha256, ∀ events state,
    Turn sha256 events state → Accounted sha256 events state := by
  rintro ⟨sha256, hclaim⟩
  obtain ⟨state, hstate, hlimit⟩ :=
    Option.map_eq_some_iff.mp (limit_loudDenial sha256)
  obtain ⟨events, -, hkinds, hturn⟩ := turn_of_attempts hstate
  have hbytes := (hclaim events state hturn).bytes
  rw [hkinds, hlimit] at hbytes
  exact absurd hbytes (by decide)

/-- A denied call that shows nothing, and then a completed one. -/
def silentDenial : List Request :=
  numbered (smallBatch [.toolDenied 0 (smallResult .denied 0 (Nat.zero_le _)),
      .toolExecutionStarted] ++
    smallBatch [.toolAuthorized 0 (smallDigest 1), .toolExecutionStarted,
      .toolDispatched 0, .toolActivated 0,
      .toolCompleted 0 (smallResult .succeeded 7)])

theorem calls_accounted_of_batches : ∃ events state,
    Turn (fun _ => zeroDigest) events state ∧
      commands events = silentDenial.map Prod.snd ∧
      Accounted (fun _ => zeroDigest) events state ∧
      state.counters.toolResultBytes =
        total visibleBytes (commands events) := by
  obtain ⟨state, hstate⟩ := Option.isSome_iff_exists.mp (by decide :
    (attempts (fun _ => zeroDigest) (smallStart fun _ => zeroDigest)
      silentDenial).isSome = true)
  obtain ⟨events, -, hkinds, hturn⟩ := turn_of_attempts hstate
  obtain ⟨-, haccounted, hexact⟩ := calls_accounted hturn
  have hsilent : Silent (commands events) := by
    rw [hkinds]
    decide
  exact ⟨events, state, hturn, hkinds, haccounted hsilent, hexact.mpr hsilent⟩

end Peritus.Agent.Accounting
