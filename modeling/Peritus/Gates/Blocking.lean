import Peritus.Collections
import Peritus.Gates.Reducer

/-!
The propagation of blocks: a sequence of single blocks, each of a pending gate
with a dependency that did not pass, until there is no such gate left.
-/

namespace Peritus.Gates.Blocking

open Collections State Reducer

/-! ### Slots by gate -/

section Lookup

variable {state : GateRunState} {gateId other : GateId} {slot : GateSlot}

theorem gateId_of_slot (h : state.slot gateId = some slot) :
    slot.gateId = gateId := by
  have hfound := List.find?_some h
  exact of_decide_eq_true hfound

theorem mem_of_slot (h : state.slot gateId = some slot) : slot ∈ state.slots :=
  List.mem_of_find?_eq_some h

theorem slot_isSome_iff :
    (state.slot gateId).isSome = true ↔ gateId ∈ state.slots.map GateSlot.gateId := by
  simp [GateRunState.slot]

/-- Where gate identities are distinct, a slot is found under its own. -/
theorem slot_of_mem (hnodup : (state.slots.map GateSlot.gateId).Nodup)
    (hmem : slot ∈ state.slots) : state.slot slot.gateId = some slot := by
  have hsome : (state.slot slot.gateId).isSome = true :=
    slot_isSome_iff.mpr (List.mem_map_of_mem hmem)
  obtain ⟨found, hfound⟩ := Option.isSome_iff_exists.mp hsome
  rw [hfound, List.inj_on_of_nodup_map hnodup (mem_of_slot hfound) hmem
    (gateId_of_slot hfound)]

theorem slot_map {f : GateSlot → GateSlot} {next : GateRunState}
    (hslots : next.slots = state.slots.map f)
    (hf : ∀ slot, (f slot).gateId = slot.gateId) :
    next.slot gateId = (state.slot gateId).map f := by
  unfold GateRunState.slot
  rw [hslots, List.find?_map]
  simp only [Function.comp_def, hf]

variable (update : GateSlot → GateSlot)

theorem slot_updateSlot (hupdate : ∀ slot, (update slot).gateId = slot.gateId) :
    (state.updateSlot gateId update).slot other =
      (state.slot other).map fun slot =>
        if slot.gateId = gateId then update slot else slot := by
  apply slot_map rfl
  intro slot
  split
  · exact hupdate slot
  · rfl

theorem slot_updateSlot_self (hupdate : ∀ slot, (update slot).gateId = slot.gateId)
    (hslot : state.slot gateId = some slot) :
    (state.updateSlot gateId update).slot gateId = some (update slot) := by
  rw [slot_updateSlot update hupdate, hslot, Option.map_some,
    if_pos (gateId_of_slot hslot)]

theorem slot_updateSlot_of_ne
    (hupdate : ∀ slot, (update slot).gateId = slot.gateId)
    (hne : other ≠ gateId) :
    (state.updateSlot gateId update).slot other = state.slot other := by
  rw [slot_updateSlot update hupdate]
  cases hslot : state.slot other with
  | none => rfl
  | some slot =>
      rw [Option.map_some, if_neg]
      rw [gateId_of_slot hslot]
      exact hne

theorem gateIds_updateSlot (hupdate : ∀ slot, (update slot).gateId = slot.gateId) :
    (state.updateSlot gateId update).slots.map GateSlot.gateId =
      state.slots.map GateSlot.gateId := by
  unfold GateRunState.updateSlot
  rw [List.map_map]
  apply List.map_congr_left
  intro slot _
  simp only [Function.comp_def]
  split
  · exact hupdate slot
  · rfl

end Lookup

/-! ### Single blocks -/

section Blocks

variable {plan : GatePlan} {state next : GateRunState} {gateId : GateId}

/-- One pending gate is blocked by a dependency that did not pass. -/
def Blocks (plan : GatePlan) (state next : GateRunState) : Prop :=
  ∃ gateId slot gate blocker, state.slot gateId = some slot ∧
    slot.phase = .pending ∧ plan.gate gateId = some gate ∧
    blocker ∈ gate.dependencies ∧ isBlocker state blocker = true ∧
    next = state.updateSlot gateId fun slot => slot.block blocker

abbrev Propagates (plan : GatePlan) : GateRunState → GateRunState → Prop :=
  Relation.ReflTransGen (Blocks plan)

/-- What the propagation leaves alone. -/
structure SameRun (state next : GateRunState) : Prop where
  runId : next.runId = state.runId
  planDigest : next.planDigest = state.planDigest
  revision : next.revision = state.revision
  snapshotDigest : next.snapshotDigest = state.snapshotDigest
  maximumAttempts : next.maximumAttempts = state.maximumAttempts
  phase : next.phase = state.phase
  usedExecutions : next.usedExecutions = state.usedExecutions
  usedActions : next.usedActions = state.usedActions
  terminal : next.terminal = state.terminal
  gateIds : next.slots.map GateSlot.gateId = state.slots.map GateSlot.gateId

theorem sameRun_of_propagates (h : Propagates plan state next) :
    SameRun state next := by
  induction h with
  | refl => exact ⟨rfl, rfl, rfl, rfl, rfl, rfl, rfl, rfl, rfl, rfl⟩
  | tail _ hblock ih =>
      obtain ⟨gateId, slot, gate, blocker, -, -, -, -, -, rfl⟩ := hblock
      exact {
        runId := ih.runId
        planDigest := ih.planDigest
        revision := ih.revision
        snapshotDigest := ih.snapshotDigest
        maximumAttempts := ih.maximumAttempts
        phase := ih.phase
        usedExecutions := ih.usedExecutions
        usedActions := ih.usedActions
        terminal := ih.terminal
        gateIds := (gateIds_updateSlot (fun slot => slot.block blocker)
          fun _ => rfl).trans ih.gateIds }

theorem isBlocker_iff : isBlocker state gateId = true ↔
    ∃ slot, state.slot gateId = some slot ∧ slot.phase.isSettled = true ∧
      slot.phase ≠ .passed := by
  unfold isBlocker
  cases state.slot gateId with
  | none => simp
  | some slot => cases h : slot.phase <;> simp [h, GateSlotPhase.isSettled]

/-- A slot stays as it is, or is blocked for good. -/
theorem slot_of_blocks (hblock : Blocks plan state next) {slot : GateSlot}
    (hslot : state.slot gateId = some slot) :
    next.slot gateId = some slot ∨
      slot.phase = .pending ∧ ∃ gate blocker, plan.gate gateId = some gate ∧
        blocker ∈ gate.dependencies ∧ isBlocker state blocker = true ∧
        next.slot gateId = some (slot.block blocker) := by
  obtain ⟨blocked, found, gate, blocker, hfound, hpending, hgate, hmem, hblocker,
    rfl⟩ := hblock
  by_cases hsame : gateId = blocked
  · subst hsame
    rw [hslot] at hfound
    cases hfound
    exact .inr ⟨hpending, gate, blocker, hgate, hmem, hblocker,
      slot_updateSlot_self (fun slot => slot.block blocker)
        (fun _ => rfl) hslot⟩
  · left
    rw [slot_updateSlot_of_ne (fun slot => slot.block blocker)
      (fun _ => rfl) hsame]
    exact hslot

theorem isBlocker_of_blocks (hblock : Blocks plan state next)
    (hblocker : isBlocker state gateId = true) : isBlocker next gateId = true := by
  obtain ⟨slot, hslot, hsettled, hpassed⟩ := isBlocker_iff.mp hblocker
  rcases slot_of_blocks hblock hslot with hsame | ⟨hpending, -⟩
  · exact isBlocker_iff.mpr ⟨slot, hsame, hsettled, hpassed⟩
  · rw [hpending] at hsettled
    cases hsettled

theorem slot_of_propagates (h : Propagates plan state next) {slot : GateSlot}
    (hslot : state.slot gateId = some slot) :
    next.slot gateId = some slot ∨
      slot.phase = .pending ∧ ∃ gate blocker, plan.gate gateId = some gate ∧
        blocker ∈ gate.dependencies ∧ isBlocker next blocker = true ∧
        next.slot gateId = some (slot.block blocker) := by
  induction h with
  | refl => exact .inl hslot
  | tail _ hblock ih =>
      rcases ih with hsame | ⟨hpending, gate, blocker, hgate, hmem, hblocker,
        hblocked⟩
      · rcases slot_of_blocks hblock hsame with hsame | ⟨hpending, gate, blocker,
          hgate, hmem, hblocker, hblocked⟩
        · exact .inl hsame
        · exact .inr ⟨hpending, gate, blocker, hgate, hmem,
            isBlocker_of_blocks hblock hblocker, hblocked⟩
      · right
        refine ⟨hpending, gate, blocker, hgate, hmem,
          isBlocker_of_blocks hblock hblocker, ?_⟩
        rcases slot_of_blocks hblock hblocked with hsame | ⟨hagain, -⟩
        · exact hsame
        · cases hagain

theorem eq_of_propagates (h : Propagates plan state next)
    (hnone : ∀ slot ∈ state.slots, slot.phase ≠ .pending) : next = state := by
  induction h with
  | refl => rfl
  | tail _ hblock ih =>
      subst ih
      obtain ⟨gateId, slot, gate, blocker, hslot, hpending, -⟩ := hblock
      exact absurd hpending (hnone slot (mem_of_slot hslot))

/-! ### The loop -/

def pendingCount (state : GateRunState) : Nat :=
  state.slots.countP fun slot => decide (slot.phase = .pending)

theorem pendingCount_lt_of_blocks (hblock : Blocks plan state next) :
    pendingCount next < pendingCount state := by
  obtain ⟨gateId, slot, gate, blocker, hslot, hpending, -, -, -, rfl⟩ := hblock
  refine countP_map_lt ?_ ⟨slot, mem_of_slot hslot, decide_eq_true hpending, ?_⟩
  · intro found _ hfound
    by_cases hsame : found.gateId = gateId
    · simp [hsame, GateSlot.block] at hfound
    · simpa [hsame] using hfound
  · simp [gateId_of_slot hslot, GateSlot.block]

theorem pendingCount_le_of_propagates (h : Propagates plan state next) :
    pendingCount next ≤ pendingCount state := by
  induction h with
  | refl => exact Nat.le_refl _
  | tail _ hblock ih => exact (Nat.le_of_lt (pendingCount_lt_of_blocks hblock)).trans ih

/-- No pending gate of these has a dependency that did not pass. -/
def Unblocked (plan : GatePlan) (state : GateRunState) (ids : List GateId) :
    Prop :=
  ∀ id ∈ ids, ∀ slot, state.slot id = some slot → slot.phase = .pending →
    blockerOf plan state id = none

/-- One gate of a pass: it is blocked, or it was none to block. -/
theorem blockGate_spec (state : GateRunState) (changed : Bool) (id : GateId) :
    blockGate plan (state, changed) id = (state, changed) ∧
        Unblocked plan state [id] ∨
      ∃ next, Blocks plan state next ∧
        blockGate plan (state, changed) id = (next, true) := by
  unfold blockGate Unblocked
  dsimp only
  cases hslot : state.slot id with
  | none => simp [hslot]
  | some slot =>
      by_cases hpending : slot.phase = .pending
      · cases hblocker : blockerOf plan state id with
        | none => simp [hslot, hpending, hblocker]
        | some blocker =>
            right
            obtain ⟨gate, hplanned, hfound⟩ := Option.bind_eq_some_iff.mp hblocker
            exact ⟨_, ⟨id, slot, gate, blocker, hslot, hpending, hplanned,
              List.mem_of_find?_eq_some hfound, List.find?_some hfound, rfl⟩,
              by simp [hpending]⟩
      · simp [hslot, hpending]

/-- A pass that has blocked a gate goes on to report it. -/
theorem changed_foldl (ids : List GateId) (state : GateRunState) :
    (ids.foldl (blockGate plan) (state, true)).2 = true := by
  induction ids generalizing state with
  | nil => rfl
  | cons id ids ih =>
      rw [List.foldl_cons]
      rcases @blockGate_spec plan state true id with ⟨h, -⟩ | ⟨next, -, h⟩ <;>
        rw [h] <;> exact ih _

theorem propagates_foldl (ids : List GateId) (state : GateRunState)
    (changed : Bool) :
    Propagates plan state (ids.foldl (blockGate plan) (state, changed)).1 := by
  induction ids generalizing state changed with
  | nil => exact .refl
  | cons id ids ih =>
      rw [List.foldl_cons]
      rcases @blockGate_spec plan state changed id with ⟨h, -⟩ | ⟨next, hblock, h⟩
      · rw [h]
        exact ih state changed
      · rw [h]
        exact .head hblock (ih next true)

/-- A pass without a change met no gate to block; any other blocks one. -/
theorem foldl_spec (ids : List GateId) (state : GateRunState) :
    (ids.foldl (blockGate plan) (state, false)).2 = false ∧
        (ids.foldl (blockGate plan) (state, false)).1 = state ∧
        Unblocked plan state ids ∨
      (ids.foldl (blockGate plan) (state, false)).2 = true ∧
        pendingCount (ids.foldl (blockGate plan) (state, false)).1 <
          pendingCount state := by
  induction ids with
  | nil => exact .inl ⟨rfl, rfl, by simp [Unblocked]⟩
  | cons id ids ih =>
      rw [List.foldl_cons]
      rcases @blockGate_spec plan state false id with
        ⟨h, hone⟩ | ⟨next, hblock, h⟩
      · rw [h]
        rcases ih with ⟨hchanged, hsame, hrest⟩ | hchanged
        · refine .inl ⟨hchanged, hsame, ?_⟩
          intro other hother
          rcases List.mem_cons.mp hother with rfl | hother
          · exact hone other List.mem_cons_self
          · exact hrest other hother
        · exact .inr hchanged
      · rw [h]
        refine .inr ⟨changed_foldl ids next, ?_⟩
        exact Nat.lt_of_le_of_lt
          (pendingCount_le_of_propagates (propagates_foldl ids next true))
          (pendingCount_lt_of_blocks hblock)

theorem blockRounds_spec {rounds : Nat} (hrounds : pendingCount state < rounds) :
    Propagates plan state (blockRounds plan rounds state) ∧
      Unblocked plan (blockRounds plan rounds state) plan.executionOrder := by
  induction rounds generalizing state with
  | zero => exact absurd hrounds (Nat.not_lt_zero _)
  | succ rounds ih =>
      unfold blockRounds
      rcases @foldl_spec plan plan.executionOrder state with
        ⟨hchanged, hsame, hnone⟩ | ⟨hchanged, hless⟩
      · rw [blockPass, if_neg (by rw [hchanged]; exact Bool.false_ne_true), hsame]
        exact ⟨.refl, hnone⟩
      · rw [blockPass, if_pos hchanged]
        obtain ⟨hsteps, hnone⟩ := ih (Nat.lt_of_lt_of_le hless
          (Nat.lt_succ_iff.mp hrounds))
        exact ⟨(propagates_foldl _ _ _).trans hsteps, hnone⟩

/-- The loop ends, and where it ends there is no gate left to block. -/
theorem propagateBlocks_spec (plan : GatePlan) (state : GateRunState) :
    Propagates plan state (propagateBlocks plan state) ∧
      Unblocked plan (propagateBlocks plan state) plan.executionOrder := by
  apply blockRounds_spec
  exact Nat.lt_succ_of_le List.countP_le_length

end Blocks

end Peritus.Gates.Blocking
