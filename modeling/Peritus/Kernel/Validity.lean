import Peritus.Kernel.Edges

/-!
What the validity check of an aggregate says.  Identities and parents form a
skeleton that phase changes never touch; what is left is about the event cursor
and the phases of runs.
-/

namespace Peritus.Kernel.Validity

open Peritus.Types Collections State State.KernelAggregate

/-! ### Identities and parents -/

/-- Every child record reduced to its identity and those of its parents. -/
@[ext]
structure Skeleton where
  runs : List RunId
  attempts : List (AttemptId × RunId)
  turns : List (TurnId × AttemptId)
  actions : List (ActionId × TurnId)
  reviews : List (ReviewCycleId × RunId × AttemptId)
  waivers : List (FindingId × ReviewCycleId × RunId)

/-- Identities are distinct and every parent exists. -/
structure Skeleton.Sound (s : Skeleton) : Prop where
  runIds : s.runs.Nodup
  attemptIds : (s.attempts.map (·.1)).Nodup
  turnIds : (s.turns.map (·.1)).Nodup
  actionIds : (s.actions.map (·.1)).Nodup
  reviewIds : (s.reviews.map (·.1)).Nodup
  waiverIds : (s.waivers.map (·.1)).Nodup
  attemptRun : ∀ attempt ∈ s.attempts, attempt.2 ∈ s.runs
  turnAttempt : ∀ turn ∈ s.turns, turn.2 ∈ s.attempts.map (·.1)
  actionTurn : ∀ action ∈ s.actions, action.2 ∈ s.turns.map (·.1)
  reviewAttempt : ∀ review ∈ s.reviews,
    (review.2.2, review.2.1) ∈ s.attempts
  waiverReview : ∀ waiver ∈ s.waivers,
    ∃ attemptId, (waiver.2.1, waiver.2.2, attemptId) ∈ s.reviews

def skeleton (state : KernelAggregate) : Skeleton where
  runs := state.runs.map (·.id)
  attempts := state.attempts.map fun attempt => (attempt.id, attempt.runId)
  turns := state.turns.map fun turn => (turn.id, turn.attemptId)
  actions := state.actions.map fun action => (action.id, action.turnId)
  reviews := state.reviews.map fun review =>
    (review.id, review.runId, review.attemptId)
  waivers := state.waivers.map fun waiver =>
    (waiver.findingId, waiver.reviewCycleId, waiver.runId)

section Pairs

variable {α β γ : Type} {f : α → β × γ} {values : List α}

theorem map_fst_map : (values.map f).map (·.1) = values.map fun a => (f a).1 :=
  List.map_map

theorem nodup_map_fst :
    ((values.map f).map (·.1)).Nodup ↔ (values.map fun a => (f a).1).Nodup := by
  rw [map_fst_map]

theorem mem_map_fst {b : β} :
    b ∈ (values.map f).map (·.1) ↔ b ∈ values.map fun a => (f a).1 := by
  rw [map_fst_map]

end Pairs

theorem nodup_append_singleton {α : Type} {values : List α} {a : α}
    (hunique : values.Nodup) (hfresh : a ∉ values) :
    (values ++ [a]).Nodup := by
  rw [← List.concat_eq_append]
  exact hunique.concat hfresh

namespace Skeleton.Sound

variable {s : Skeleton}

theorem addRun (h : s.Sound) {id : RunId} (hfresh : id ∉ s.runs) :
    ({ s with runs := s.runs ++ [id] } : Skeleton).Sound :=
  { h with
    runIds := nodup_append_singleton h.runIds hfresh
    attemptRun := fun attempt hmem =>
      List.mem_append_left _ (h.attemptRun attempt hmem) }

theorem addAttempt (h : s.Sound) {id : AttemptId} {runId : RunId}
    (hfresh : id ∉ s.attempts.map (·.1)) (hparent : runId ∈ s.runs) :
    ({ s with attempts := s.attempts ++ [(id, runId)] } : Skeleton).Sound :=
  { h with
    attemptIds := by
      rw [List.map_append]
      exact nodup_append_singleton h.attemptIds hfresh
    attemptRun := by
      intro attempt hmem
      rcases List.mem_append.mp hmem with hmem | hmem
      · exact h.attemptRun attempt hmem
      · rw [List.mem_singleton.mp hmem]
        exact hparent
    turnAttempt := by
      intro turn hmem
      rw [List.map_append]
      exact List.mem_append_left _ (h.turnAttempt turn hmem)
    reviewAttempt := fun review hmem =>
      List.mem_append_left _ (h.reviewAttempt review hmem) }

theorem addTurn (h : s.Sound) {id : TurnId} {attemptId : AttemptId}
    (hfresh : id ∉ s.turns.map (·.1))
    (hparent : attemptId ∈ s.attempts.map (·.1)) :
    ({ s with turns := s.turns ++ [(id, attemptId)] } : Skeleton).Sound :=
  { h with
    turnIds := by
      rw [List.map_append]
      exact nodup_append_singleton h.turnIds hfresh
    turnAttempt := by
      intro turn hmem
      rcases List.mem_append.mp hmem with hmem | hmem
      · exact h.turnAttempt turn hmem
      · rw [List.mem_singleton.mp hmem]
        exact hparent
    actionTurn := by
      intro action hmem
      rw [List.map_append]
      exact List.mem_append_left _ (h.actionTurn action hmem) }

theorem addAction (h : s.Sound) {id : ActionId} {turnId : TurnId}
    (hfresh : id ∉ s.actions.map (·.1))
    (hparent : turnId ∈ s.turns.map (·.1)) :
    ({ s with actions := s.actions ++ [(id, turnId)] } : Skeleton).Sound :=
  { h with
    actionIds := by
      rw [List.map_append]
      exact nodup_append_singleton h.actionIds hfresh
    actionTurn := by
      intro action hmem
      rcases List.mem_append.mp hmem with hmem | hmem
      · exact h.actionTurn action hmem
      · rw [List.mem_singleton.mp hmem]
        exact hparent }

theorem addReview (h : s.Sound) {id : ReviewCycleId} {runId : RunId}
    {attemptId : AttemptId} (hfresh : id ∉ s.reviews.map (·.1))
    (hparent : (attemptId, runId) ∈ s.attempts) :
    ({ s with reviews := s.reviews ++ [(id, runId, attemptId)] } :
      Skeleton).Sound :=
  { h with
    reviewIds := by
      rw [List.map_append]
      exact nodup_append_singleton h.reviewIds hfresh
    reviewAttempt := by
      intro review hmem
      rcases List.mem_append.mp hmem with hmem | hmem
      · exact h.reviewAttempt review hmem
      · rw [List.mem_singleton.mp hmem]
        exact hparent
    waiverReview := by
      intro waiver hmem
      obtain ⟨attemptId, hreview⟩ := h.waiverReview waiver hmem
      exact ⟨attemptId, List.mem_append_left _ hreview⟩ }

theorem addWaiver (h : s.Sound) {id : FindingId} {reviewId : ReviewCycleId}
    {runId : RunId} {attemptId : AttemptId}
    (hfresh : id ∉ s.waivers.map (·.1))
    (hparent : (reviewId, runId, attemptId) ∈ s.reviews) :
    ({ s with waivers := s.waivers ++ [(id, reviewId, runId)] } :
      Skeleton).Sound :=
  { h with
    waiverIds := by
      rw [List.map_append]
      exact nodup_append_singleton h.waiverIds hfresh
    waiverReview := by
      intro waiver hmem
      rcases List.mem_append.mp hmem with hmem | hmem
      · exact h.waiverReview waiver hmem
      · rw [List.mem_singleton.mp hmem]
        exact ⟨attemptId, hparent⟩ }

end Skeleton.Sound

/-! ### The check, read back -/

theorem hasDuplicates_eq_false_iff {α : Type} [DecidableEq α]
    {keys : List α} : hasDuplicates keys = false ↔ keys.Nodup := by
  induction keys with
  | nil => simp [hasDuplicates]
  | cons key rest ih =>
      simp only [hasDuplicates, Bool.or_eq_false_iff, decide_eq_false_iff_not,
        ih, List.nodup_cons]

theorem attempt_matches_iff {state : KernelAggregate}
    (hunique : (state.attempts.map (·.id)).Nodup) {id : AttemptId}
    {runId : RunId} :
    (match state.attempt id with
      | some (_, attempt) => decide (attempt.runId = runId)
      | none => false) = true ↔
      ∃ attempt ∈ state.attempts, attempt.id = id ∧ attempt.runId = runId := by
  constructor
  · intro h
    split at h
    · rename_i i attempt hfound
      obtain ⟨-, hmem, hkey⟩ := findIndexed_key_eq_some hfound
      exact ⟨attempt, hmem, hkey, of_decide_eq_true h⟩
    · cases h
  · rintro ⟨attempt, hmem, rfl, hrun⟩
    obtain ⟨i, hfound⟩ := (findIndexed_key_iff hunique).mpr ⟨hmem, rfl⟩
    rw [KernelAggregate.attempt, hfound]
    exact decide_eq_true hrun

theorem review_matches_iff {state : KernelAggregate}
    (hunique : (state.reviews.map (·.id)).Nodup) {id : ReviewCycleId}
    {runId : RunId} :
    (match state.review id with
      | some (_, review) => decide (review.runId = runId)
      | none => false) = true ↔
      ∃ review ∈ state.reviews, review.id = id ∧ review.runId = runId := by
  constructor
  · intro h
    split at h
    · rename_i i review hfound
      obtain ⟨-, hmem, hkey⟩ := findIndexed_key_eq_some hfound
      exact ⟨review, hmem, hkey, of_decide_eq_true h⟩
    · cases h
  · rintro ⟨review, hmem, rfl, hrun⟩
    obtain ⟨i, hfound⟩ := (findIndexed_key_iff hunique).mpr ⟨hmem, rfl⟩
    rw [KernelAggregate.review, hfound]
    exact decide_eq_true hrun

/-- A record is found under every identity in use, and only there. -/
theorem lookup_isSome_iff {α κ : Type} [DecidableEq κ] {key : α → κ}
    {values : List α} {k : κ} :
    (findIndexed (fun a => decide (key a = k)) values).isSome = true ↔
      k ∈ values.map key := by
  rw [← not_iff_not, Bool.not_eq_true, findIndexed_key_isNone_iff,
    List.mem_map]
  simp only [not_exists, not_and, ne_eq]

/-- The runs that are not terminal. -/
def liveRuns (state : KernelAggregate) : Nat :=
  state.runs.countP fun run => !run.phase.isTerminal

structure Valid (state : KernelAggregate) : Prop where
  revision : state.contractBinding.revision = state.revision
  contract : state.contractBinding.contractId = state.revision.acceptanceSpecId
  lengths : state.acceptedCommandIds.length = state.eventIds.length
  head : state.eventIds.getLast? = some state.headEventId
  commandIds : state.acceptedCommandIds.Nodup
  eventIds : state.eventIds.Nodup
  skeleton : (skeleton state).Sound
  runs : ∀ run ∈ state.runs, runIsValid state run = true
  live : liveRuns state ≤ 1
  closed : state.session.phase = .closed → liveRuns state = 0

namespace Valid

variable {state : KernelAggregate} (hvalid : Valid state)
include hvalid

theorem attemptIds : (state.attempts.map (·.id)).Nodup :=
  nodup_map_fst.mp hvalid.skeleton.attemptIds

theorem turnIds : (state.turns.map (·.id)).Nodup :=
  nodup_map_fst.mp hvalid.skeleton.turnIds

theorem reviewIds : (state.reviews.map (·.id)).Nodup :=
  nodup_map_fst.mp hvalid.skeleton.reviewIds

end Valid

theorem hasDuplicateChildren_eq_false_iff {state : KernelAggregate} :
    hasDuplicateChildren state = false ↔
      (state.runs.map (·.id)).Nodup ∧ (state.attempts.map (·.id)).Nodup ∧
        (state.turns.map (·.id)).Nodup ∧ (state.actions.map (·.id)).Nodup ∧
        (state.reviews.map (·.id)).Nodup ∧
        (state.waivers.map (·.findingId)).Nodup := by
  simp only [hasDuplicateChildren, Bool.or_eq_false_iff,
    hasDuplicates_eq_false_iff, and_assoc]

/-- Unique identities and existing parents are what the duplicate and the
parent checks test. -/
theorem skeleton_sound_iff {state : KernelAggregate} :
    (skeleton state).Sound ↔
      hasDuplicateChildren state = false ∧ parentsAreValid state = true := by
  rw [hasDuplicateChildren_eq_false_iff]
  constructor
  · intro h
    have hattempts := nodup_map_fst.mp h.attemptIds
    have hreviews := nodup_map_fst.mp h.reviewIds
    refine ⟨⟨h.runIds, hattempts, nodup_map_fst.mp h.turnIds,
      nodup_map_fst.mp h.actionIds, hreviews, nodup_map_fst.mp h.waiverIds⟩, ?_⟩
    simp only [parentsAreValid, Bool.and_eq_true, List.all_eq_true]
    refine ⟨⟨⟨⟨?_, ?_⟩, ?_⟩, ?_⟩, ?_⟩
    · intro attempt hmem
      exact lookup_isSome_iff.mpr
        (h.attemptRun _ (List.mem_map_of_mem hmem))
    · intro turn hmem
      exact lookup_isSome_iff.mpr
        (mem_map_fst.mp (h.turnAttempt _ (List.mem_map_of_mem hmem)))
    · intro action hmem
      exact lookup_isSome_iff.mpr
        (mem_map_fst.mp (h.actionTurn _ (List.mem_map_of_mem hmem)))
    · intro review hmem
      refine (attempt_matches_iff hattempts).mpr ?_
      obtain ⟨attempt, hattempt, hpair⟩ := List.mem_map.mp
        (h.reviewAttempt _ (List.mem_map_of_mem hmem))
      obtain ⟨hid, hrun⟩ := Prod.mk.inj hpair
      exact ⟨attempt, hattempt, hid, hrun⟩
    · intro waiver hmem
      refine (review_matches_iff hreviews).mpr ?_
      obtain ⟨attemptId, hreview⟩ :=
        h.waiverReview _ (List.mem_map_of_mem hmem)
      obtain ⟨review, hreview, hpair⟩ := List.mem_map.mp hreview
      obtain ⟨hid, hpair⟩ := Prod.mk.inj hpair
      exact ⟨review, hreview, hid, (Prod.mk.inj hpair).1⟩
  · rintro ⟨⟨hruns, hattempts, hturns, hactions, hreviews, hwaivers⟩, hparents⟩
    simp only [parentsAreValid, Bool.and_eq_true, List.all_eq_true] at hparents
    obtain ⟨⟨⟨⟨hattempt, hturn⟩, haction⟩, hreview⟩, hwaiver⟩ := hparents
    refine ⟨hruns, nodup_map_fst.mpr hattempts, nodup_map_fst.mpr hturns,
      nodup_map_fst.mpr hactions, nodup_map_fst.mpr hreviews,
      nodup_map_fst.mpr hwaivers, ?_, ?_, ?_, ?_, ?_⟩
    · intro pair hpair
      obtain ⟨attempt, hmem, rfl⟩ := List.mem_map.mp hpair
      exact lookup_isSome_iff.mp (hattempt attempt hmem)
    · intro pair hpair
      obtain ⟨turn, hmem, rfl⟩ := List.mem_map.mp hpair
      exact mem_map_fst.mpr (lookup_isSome_iff.mp (hturn turn hmem))
    · intro pair hpair
      obtain ⟨action, hmem, rfl⟩ := List.mem_map.mp hpair
      exact mem_map_fst.mpr (lookup_isSome_iff.mp (haction action hmem))
    · intro pair hpair
      obtain ⟨review, hmem, rfl⟩ := List.mem_map.mp hpair
      obtain ⟨attempt, hfound, hid, hrun⟩ :=
        (attempt_matches_iff hattempts).mp (hreview review hmem)
      exact List.mem_map.mpr ⟨attempt, hfound, by rw [hid, hrun]⟩
    · intro pair hpair
      obtain ⟨waiver, hmem, rfl⟩ := List.mem_map.mp hpair
      obtain ⟨review, hfound, hid, hrun⟩ :=
        (review_matches_iff hreviews).mp (hwaiver waiver hmem)
      exact ⟨review.attemptId,
        List.mem_map.mpr ⟨review, hfound, by rw [hid, hrun]⟩⟩

theorem isValid_iff {state : KernelAggregate} :
    state.isValid = true ↔ Valid state := by
  simp only [isValid, Bool.and_eq_true, decide_eq_true_eq, Bool.not_eq_true',
    Bool.or_eq_false_iff, Bool.and_eq_false_iff, decide_eq_false_iff_not,
    hasDuplicates_eq_false_iff, List.all_eq_true, not_lt, ne_eq, not_not,
    ← imp_iff_not_or]
  constructor
  · rintro ⟨⟨⟨⟨⟨⟨⟨⟨⟨hrevision, hcontract⟩, hlengths⟩, hhead⟩, hcommands⟩,
      hevents⟩, hchildren⟩, hruns⟩, hlive, hclosed⟩, hparents⟩
    exact ⟨hrevision, hcontract, hlengths, hhead, hcommands, hevents,
      skeleton_sound_iff.mpr ⟨hchildren, hparents⟩, hruns, hlive, hclosed⟩
  · intro h
    obtain ⟨hchildren, hparents⟩ := skeleton_sound_iff.mp h.skeleton
    exact ⟨⟨⟨⟨⟨⟨⟨⟨⟨h.revision, h.contract⟩, h.lengths⟩, h.head⟩, h.commandIds⟩,
      h.eventIds⟩, hchildren⟩, h.runs⟩, h.live, h.closed⟩, hparents⟩

end Peritus.Kernel.Validity
