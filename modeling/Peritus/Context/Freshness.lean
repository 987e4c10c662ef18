import Peritus.Context.Reduction

/-!
Fresh sources.  A proposal for a stale entry needs an observation behind the frontier
at which the entry became stale.  The reducer asks for it where the proposal takes the
entry's own identity, and not where it supersedes the entry under another one.
-/

namespace Peritus.Context.Freshness

open Checked Collections TransitionSystem Working Invalidation
open Delta Reduction

/-- The proposal takes the place of the entry, or it supersedes the entry. -/
def Replaces (proposal old : WorkingEntry) : Prop :=
  proposal.id = old.id ∨ proposal.supersedes = some old.id

/-- The proposal cites an observation from behind the frontier of the entry. -/
def Fresh (old proposal : WorkingEntry) : Prop :=
  ∃ id, (id ∈ proposal.links.supports ∨ id ∈ proposal.links.contradicts) ∧
    old.staleThrough < id.get

/-- Every proposal that replaces a stale entry is fresh. -/
def FreshlyReplaced (state : WorkingState) (delta : WorkingDelta) : Prop :=
  ∀ old ∈ state.entries, old.status = .stale → ∀ proposal ∈ delta.entries,
    Replaces proposal old → Fresh old proposal

/-- A proposal that supersedes a stale entry cites an observation behind it. -/
def SupersedesFreshly (state : WorkingState) (delta : WorkingDelta) : Prop :=
  ∀ old ∈ state.entries, old.status = .stale → ∀ proposal ∈ delta.entries,
    proposal.supersedes = some old.id → Fresh old proposal

/-- A model delta that supersedes stale entries freshly only. -/
def FreshStep (state : WorkingState) (delta : WorkingDelta) (next : WorkingState) :
    Prop :=
  applyWorkingDelta state delta = .ok next ∧ SupersedesFreshly state delta

/-- The entry that was stale is stale, and its frontier has not moved back. -/
def StaleBehind (old : WorkingEntry) (state : WorkingState) : Prop :=
  ∃ entry ∈ state.entries, entry.id = old.id ∧ entry.status = .stale ∧
    min old.staleThrough state.throughObservation ≤ entry.staleThrough

section Freshness

variable {state next : WorkingState} {delta : WorkingDelta}
variable {old proposal : WorkingEntry}

theorem fresh_iff_hasNewSource :
    Fresh old proposal ↔ hasNewSource old proposal = true := by
  unfold Fresh hasNewSource
  simp only [Bool.or_eq_true, List.any_eq_true, decide_eq_true_eq]
  constructor
  · rintro ⟨id, hid | hid, hlt⟩
    · exact .inl ⟨id, hid, hlt⟩
    · exact .inr ⟨id, hid, hlt⟩
  · rintro (⟨id, hid, hlt⟩ | ⟨id, hid, hlt⟩)
    · exact ⟨id, .inl hid, hlt⟩
    · exact ⟨id, .inr hid, hlt⟩

/-- An observation that a proposal cites has been made. -/
theorem le_throughObservation {id : ObservationId}
    (h : validateReferences state proposal = .ok ())
    (hid : id ∈ proposal.links.supports ∨ id ∈ proposal.links.contradicts) :
    id.get ≤ state.throughObservation := by
  simp only [validateReferences, check_bind_eq_ok_iff, forEach_eq_ok_iff] at h
  have hmade : (state.observation state.binding id).map (fun _ => ()) = .ok () :=
    hid.elim (h.1 id) (h.2 id)
  unfold WorkingState.observation at hmade
  cases hbinding : state.checkBinding state.binding with
  | error error =>
      rw [hbinding] at hmade
      cases hmade
  | ok checked =>
      rw [hbinding] at hmade
      cases hget : state.observations[id.get - 1]? with
      | none =>
          simp only [bind, Except.bind, hget] at hmade
          cases hmade
      | some source =>
          have hlt := (List.getElem?_eq_some_iff.mp hget).1
          exact Nat.le_of_pred_lt hlt

theorem freshlyReplaced_iff (hsound : Sound state)
    (haccepts : applyWorkingDelta state delta = .ok next) :
    FreshlyReplaced state delta ↔ SupersedesFreshly state delta := by
  obtain ⟨retained, upserted, hreduced⟩ :=
    reduced_of_reduceDelta hsound.sorted haccepts
  constructor
  · intro hfresh old hold hstale proposal hproposal hnames
    exact hfresh old hold hstale proposal hproposal (.inr hnames)
  · intro hfresh old hold hstale proposal hproposal hreplaces
    rcases hreplaces with hid | hnames
    · obtain ⟨kept, -, hrow⟩ := exists_retained hreduced hproposal
      obtain ⟨-, -, hsource⟩ := of_validateUpsert hrow.upsert
        ((entryOf_eq_some_iff hsound.sorted).mpr ⟨hold, hid.symm⟩)
      exact fresh_iff_hasNewSource.mpr (hsource hstale)
    · exact hfresh old hold hstale proposal hproposal hnames

theorem staleBehind_of_step (hsound : Sound state) (hstep : FreshStep state delta next)
    (hnone : ∀ proposal ∈ delta.entries, ¬ Fresh old proposal)
    (hstale : StaleBehind old state) : StaleBehind old next := by
  obtain ⟨haccepts, hsupersedes⟩ := hstep
  obtain ⟨entry, hentry, hid, hstatus, hfrontier⟩ := hstale
  have hreplaces := (freshlyReplaced_iff hsound haccepts).mpr hsupersedes
  obtain ⟨retained, upserted, hreduced⟩ :=
    reduced_of_reduceDelta hsound.sorted haccepts
  have hspared : ∀ proposal ∈ delta.entries, ¬ Replaces proposal entry := by
    intro proposal hproposal hreplaced
    obtain ⟨id, hcites, hlt⟩ :=
      hreplaces entry hentry hstatus proposal hproposal hreplaced
    obtain ⟨kept, -, hrow⟩ := exists_retained hreduced hproposal
    have hmade := le_throughObservation hrow.references hcites
    exact hnone proposal hproposal ⟨id, hcites, by omega⟩
  have hkept : entry ∈ upserted := (hreduced.mem entry).mpr (.inr ⟨hentry,
    fun proposal hproposal hsame => hspared proposal hproposal (.inl hsame)⟩)
  have hmem : entry ∈ upserted.map (supersedeBy delta.entries) := by
    refine List.mem_map.mpr ⟨entry, hkept, if_neg ?_⟩
    rintro ⟨proposal, hproposal, hnames⟩
    exact hspared proposal hproposal (.inr hnames)
  obtain ⟨after, hafter, hrow⟩ :=
    forall₂_mem_left (invalidated_passes hreduced.sorted_superseded _) hmem
  rw [hreduced.next]
  refine ⟨after, hafter, ?_⟩
  cases hrow with
  | kept => exact ⟨hid, hstatus, hfrontier⟩
  | refreshed => exact ⟨hid, rfl, Nat.min_le_right _ _⟩
  | marked husable =>
      rw [hstatus] at husable
      cases husable

theorem staleBehind_of_run {deltas : List WorkingDelta} (h : Reached state)
    (hrun : Run FreshStep state deltas next)
    (hnone : ∀ delta ∈ deltas, ∀ proposal ∈ delta.entries, ¬ Fresh old proposal)
    (hstale : StaleBehind old state) : StaleBehind old next := by
  induction hrun with
  | nil => exact hstale
  | cons hstep _ ih =>
      have haccepts : Accepts _ (.event (.delta _)) _ := hstep.1
      exact ih (h.snoc haccepts) (fun delta hdelta => hnone delta (List.mem_cons_of_mem _ hdelta))
        (staleBehind_of_step (sound_of_reached h) hstep
          (hnone _ List.mem_cons_self) hstale)

/-- An accepted model delta replaces stale entries by fresh proposals only, exactly if
it supersedes none without a fresh observation; a sequence of such deltas leaves an
entry stale unless one cites an observation from behind the entry's frontier. -/
theorem freshly_replaced_iff (h : Reached state) :
    (∀ delta next, applyWorkingDelta state delta = .ok next →
      (FreshlyReplaced state delta ↔ SupersedesFreshly state delta)) ∧
    ∀ deltas last, Run FreshStep state deltas last →
      ∀ old ∈ state.entries, old.status = .stale →
        (∀ delta ∈ deltas, ∀ proposal ∈ delta.entries, ¬ Fresh old proposal) →
        ∃ entry ∈ last.entries, entry.id = old.id ∧ entry.status = .stale := by
  constructor
  · intro delta next haccepts
    exact freshlyReplaced_iff (sound_of_reached h) haccepts
  · intro deltas last hrun old hold hstatus hnone
    obtain ⟨entry, hentry, hid, hstale, -⟩ := staleBehind_of_run h hrun hnone
      ⟨old, hold, rfl, hstatus, Nat.min_le_left _ _⟩
    exact ⟨entry, hentry, hid, hstale⟩

end Freshness

/-! ### A stale conclusion replaced on the evidence it had -/

theorem freshly_replaced_of_successor :
    FreshlyReplaced smallStale (smallDelta 4 smallSuccessor) := by
  refine ((freshly_replaced_iff reached_smallStale).1 _ _
    smallReplaced_of_delta).mpr ?_
  intro old hold _ proposal hproposal _
  obtain rfl := List.mem_singleton.mp hold
  obtain rfl := List.mem_singleton.mp hproposal
  exact ⟨⟨2, by decide⟩, .inl List.mem_cons_self, by decide⟩

/-- A successor that cites the observation from before the change. -/
def smallRevival : WorkingEntry :=
  { smallEntry (smallId 2) (smallLinks 1 none) none with
    supersedes := some (smallId 1) }

def smallRevived : WorkingState :=
  ⟨smallEnvironment (smallDigest 1), 5, [smallSource 1, smallSource 2],
    [smallConclusion.withHostStatus .superseded 1, smallRevival], smallLimits,
    .empty⟩

theorem stale_conclusion_revived :
    Reached smallStale ∧
      applyWorkingDelta smallStale (smallDelta 4 smallRevival) =
        .ok smallRevived ∧
      smallRevival ∈ smallRevived.entries ∧
      ¬ FreshlyReplaced smallStale (smallDelta 4 smallRevival) := by
  refine ⟨reached_smallStale, by decide, by decide, ?_⟩
  intro hfresh
  obtain ⟨id, hid, hlt⟩ := hfresh _ List.mem_cons_self rfl _ List.mem_cons_self
    (.inr rfl)
  rcases hid with hid | hid
  · obtain rfl := List.mem_singleton.mp hid
    exact absurd hlt (by decide)
  · exact List.not_mem_nil hid

end Peritus.Context.Freshness
