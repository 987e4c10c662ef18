import Peritus.Context.Reduction

/-!
The frame of a delta.  The invalidation that ends it runs over the whole model, but in
a reachable state it finds nothing to mark among the entries that the delta does not
concern.  It does move the frontier of the stale entries whose own validity fails.
-/

namespace Peritus.Context.Frame

open Collections Passes Node Working Invalidation
open Delta Reduction

/-- The delta names the entry, or one of its proposals supersedes it. -/
def Touched (delta : WorkingDelta) (id : ContextNodeId) : Prop :=
  (∃ proposal ∈ delta.entries, proposal.id = id) ∨ Supersedes delta.entries id

/-- The delta touches the entry, or one that it depends on. -/
def Concerned (state : WorkingState) (delta : WorkingDelta) (id : ContextNodeId) :
    Prop :=
  Touched delta id ∨
    ∃ target, Relation.TransGen (DependsOn state.entries) id target ∧
      Touched delta target

/-- A stale entry whose own validity fails, at the frontier of the state. -/
def advanced (state : WorkingState) (entry : WorkingEntry) : WorkingEntry :=
  if entry.status = .stale ∧ entry.validity.holds state.environment = false then
    entry.withHostStatus .stale state.throughObservation
  else entry

/-- What does not change beside the entries. -/
structure Framed (state next : WorkingState) : Prop where
  environment : next.environment = state.environment
  observations : next.observations = state.observations
  limits : next.limits = state.limits
  protocol : next.protocol = state.protocol
  revision : next.revision = state.revision + 1

section Frontier

variable {environment : WorkingEnvironment} {through : Nat}
  {entries : List WorkingEntry}

/-- After a pass, what is stale by its own validity is at the frontier. -/
theorem frontier_invalidateEntries {entry : WorkingEntry}
    (hmem : entry ∈ invalidateEntries environment through entries)
    (hstale : entry.status = .stale)
    (hfails : entry.validity.holds environment = false) :
    entry.staleThrough = through := by
  cases entries with
  | nil => exact absurd hmem List.not_mem_nil
  | cons head rest =>
      refine @forall_passes _ (invalidateEntry environment through) (head :: rest)
        (fun entry => entry.status = .stale →
          entry.validity.holds environment = false → entry.staleThrough = through)
        ?_ rest.length entry hmem hstale hfails
      intro current a
      rcases invalidateEntry_cases environment through current a with
        ⟨-, -, heq⟩ | ⟨-, -, heq⟩ | ⟨-, hholds, heq⟩
      · rw [heq]
        exact fun _ _ => rfl
      · rw [heq]
        exact fun _ _ => rfl
      · rw [heq]
        intro hstale hfails
        rw [hholds hstale] at hfails
        cases hfails

end Frontier

section Frames

variable {state next : WorkingState} {delta : WorkingDelta} {host : Host}
variable {retained upserted : List WorkingEntry} {entry : WorkingEntry}
variable {id target : ContextNodeId}

/-- Before the invalidation, an entry that is not touched is as it was. -/
theorem entryOf_of_not_touched (hsound : Sound state)
    (h : Reduced state delta retained upserted next) (hid : ¬ Touched delta id) :
    entryOf (upserted.map (supersedeBy delta.entries)) id = some entry ↔
      entryOf state.entries id = some entry := by
  have hkept : ∀ a : WorkingEntry, a.id = id → supersedeBy delta.entries a = a := by
    rintro a rfl
    exact if_neg fun hnames => hid (.inr hnames)
  rw [entryOf_eq_some_iff h.sorted_superseded, entryOf_eq_some_iff hsound.sorted]
  apply and_congr_left
  rintro rfl
  constructor
  · intro hmem
    obtain ⟨a, ha, heq⟩ := List.mem_map.mp hmem
    have hsame : a.id = entry.id := id_supersedeBy.symm.trans (congrArg _ heq)
    rw [hkept a hsame] at heq
    subst heq
    rcases (h.mem a).mp ha with hretained | ⟨hbefore, -⟩
    · obtain ⟨proposal, hproposal, hrow⟩ :=
        forall₂_mem_right h.proposals hretained
      exact absurd (.inl ⟨proposal, hproposal, hrow.id.symm⟩) hid
    · exact hbefore
  · intro hmem
    refine List.mem_map.mpr ⟨entry, (h.mem entry).mpr (.inr ⟨hmem, ?_⟩),
      hkept entry rfl⟩
    intro proposal hproposal hsame
    exact hid (.inl ⟨proposal, hproposal, hsame⟩)

/-- What an entry reaches before the invalidation, it reached before the delta. -/
theorem dependsOn_of_not_concerned (hsound : Sound state)
    (h : Reduced state delta retained upserted next)
    (hid : ¬ Concerned state delta id)
    (hpath : Relation.TransGen
      (DependsOn (upserted.map (supersedeBy delta.entries))) id target) :
    Relation.TransGen (DependsOn state.entries) id target := by
  have hstep : ∀ middle, ¬ Touched delta middle → ∀ target,
      DependsOn (upserted.map (supersedeBy delta.entries)) middle target →
        DependsOn state.entries middle target := by
    rintro middle hmiddle target ⟨entry, hentry, hlink⟩
    exact ⟨entry, (entryOf_of_not_touched hsound h hmiddle).mp hentry, hlink⟩
  induction hpath with
  | single hlink => exact .single (hstep id (fun h => hid (.inl h)) _ hlink)
  | tail _ hlink ih =>
      exact .tail ih (hstep _ (fun h => hid (.inr ⟨_, ih, h⟩)) _ hlink)

/-- Invalidation finds nothing to mark in an entry that is not concerned. -/
theorem not_doomed_of_not_concerned (hsound : Sound state)
    (h : Reduced state delta retained upserted next)
    (hid : ¬ Concerned state delta entry.id) (hmem : entry ∈ state.entries)
    (husable : unusable entry.status = false) :
    ¬ Doomed (upserted.map (supersedeBy delta.entries)) state.environment entry := by
  rintro (hfails | ⟨target, hpath, hbroken⟩)
  · have hquiet := hsound.settled entry hmem
    rw [Bool.eq_false_iff, ne_eq, newly_eq_true_iff] at hquiet
    exact hquiet ⟨husable, .inl hfails⟩
  · have hpath' := dependsOn_of_not_concerned hsound h hid hpath
    obtain ⟨reached, hreached, hstatus, hholds⟩ := intact_of_reached hsound.settled
      ((entryOf_eq_some_iff hsound.sorted).mpr ⟨hmem, rfl⟩) husable hpath'
    have htarget : ¬ Touched delta target := fun h => hid (.inr ⟨target, hpath', h⟩)
    rcases hbroken reached ((entryOf_of_not_touched hsound h htarget).mpr hreached)
      with hbad | hbad
    · rw [hstatus] at hbad
      cases hbad
    · rw [hholds] at hbad
      cases hbad

theorem advanced_mem_of_not_concerned (hsound : Sound state)
    (h : Reduced state delta retained upserted next) (hmem : entry ∈ state.entries)
    (hid : ¬ Concerned state delta entry.id) :
    advanced state entry ∈ next.entries := by
  have hbefore := (entryOf_eq_some_iff hsound.sorted).mpr ⟨hmem, rfl⟩
  obtain ⟨hmem', -⟩ := (entryOf_eq_some_iff h.sorted_superseded).mp
    ((entryOf_of_not_touched hsound h fun h => hid (.inl h)).mpr hbefore)
  have hrows := @invalidated_passes state.environment state.throughObservation _
    h.sorted_superseded
    (upserted.map (supersedeBy delta.entries)).length
  obtain ⟨after, hafter, hrow⟩ := forall₂_mem_left hrows hmem'
  have hnext : next.entries = invalidateEntries state.environment
      state.throughObservation (upserted.map (supersedeBy delta.entries)) := by
    rw [h.next]
    rfl
  rw [hnext]
  cases hrow with
  | marked husable hdoomed =>
      exact absurd hdoomed (not_doomed_of_not_concerned hsound h hid hmem husable)
  | refreshed hstale hfails =>
      unfold advanced
      rw [if_pos ⟨hstale, hfails⟩]
      exact hafter
  | kept =>
      unfold advanced
      split
      · rename_i hcase
        have hfront := frontier_invalidateEntries hafter hcase.1 hcase.2
        have hsame : entry.withHostStatus .stale state.throughObservation = entry := by
          unfold WorkingEntry.withHostStatus
          rw [← hcase.1, ← hfront]
        rw [hsame]
        exact hafter
      · exact hafter

/-- A delta leaves every entry that it does not concern as it is, but for the frontier
of stale entries whose own validity fails, and nothing else of the state changes. -/
theorem delta_frame (h : Reached state)
    (haccepts : reduceDelta state delta host = .ok next) :
    (∀ entry ∈ state.entries, ¬ Concerned state delta entry.id →
      advanced state entry ∈ next.entries) ∧ Framed state next := by
  have hsound := sound_of_reached h
  obtain ⟨retained, upserted, hreduced⟩ :=
    reduced_of_reduceDelta hsound.sorted haccepts
  refine ⟨fun entry hmem hid =>
    advanced_mem_of_not_concerned hsound hreduced hmem hid, ?_⟩
  rw [hreduced.next]
  exact ⟨rfl, rfl, rfl, rfl, rfl⟩

end Frames

/-! ### A frontier that moves -/

def smallUnrelated : WorkingEntry := smallEntry (smallId 2) (smallLinks 2 none) none

def smallAdvanced : WorkingState :=
  ⟨smallEnvironment (smallDigest 1), 5, [smallSource 1, smallSource 2],
    [smallConclusion.withHostStatus .stale 2, smallUnrelated], smallLimits, .empty⟩

theorem smallAdvanced_of_delta :
    reduceDelta smallStale (smallDelta 4 smallUnrelated) none =
      .ok smallAdvanced := by
  decide

theorem not_concerned_smallConclusion :
    ¬ Concerned smallStale (smallDelta 4 smallUnrelated) (smallId 1) := by
  have hentry : entryOf smallStale.entries (smallId 1) =
      some (smallConclusion.withHostStatus .stale 1) := by
    decide
  have hnone : ∀ target, ¬ DependsOn smallStale.entries (smallId 1) target := by
    rintro target ⟨entry, hfound, hlink⟩
    rw [hentry, Option.some.injEq] at hfound
    subst hfound
    exact List.not_mem_nil hlink
  have htouched : ¬ Touched (smallDelta 4 smallUnrelated) (smallId 1) := by
    unfold Touched
    decide
  rintro (h | ⟨target, hpath, -⟩)
  · exact htouched h
  · obtain ⟨first, hfirst, -⟩ := Relation.TransGen.head'_iff.mp hpath
    exact hnone first hfirst

theorem delta_frame_of_unrelated :
    advanced smallStale (smallConclusion.withHostStatus .stale 1) ∈
        smallAdvanced.entries ∧ Framed smallStale smallAdvanced := by
  obtain ⟨hentries, hframed⟩ :=
    delta_frame reached_smallStale smallAdvanced_of_delta
  exact ⟨hentries _ List.mem_cons_self not_concerned_smallConclusion, hframed⟩

/-- The second observation concerns another entry only, and yet the stale conclusion
has it behind its frontier now. -/
theorem frontier_moved_by_unrelated :
    Reached smallStale ∧
      applyWorkingDelta smallStale (smallDelta 4 smallUnrelated) =
        .ok smallAdvanced ∧
      smallConclusion.withHostStatus .stale 1 ∈ smallStale.entries ∧
      ¬ Concerned smallStale (smallDelta 4 smallUnrelated) (smallId 1) ∧
      smallConclusion.withHostStatus .stale 1 ∉ smallAdvanced.entries :=
  ⟨reached_smallStale, smallAdvanced_of_delta, List.mem_cons_self,
    not_concerned_smallConclusion, by decide⟩

end Peritus.Context.Frame
