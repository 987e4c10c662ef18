import Peritus.Context.Delta

/-!
What the reducer of the working model can do.  An accepted delta retains its
proposals beside the entries that it does not name, marks what the proposals
supersede, and invalidates; every other input keeps the bodies of the entries or
changes what a host knows of them.
-/

namespace Peritus.Context.Reduction

open Peritus.Types Checked Collections SortedTable Passes Node Working
open Invalidation Delta

/-! ### Proposals -/

/-- A proposal and the entry that is retained for it. -/
structure Retained (state : WorkingState) (entry retained : WorkingEntry) :
    Prop where
  id : retained.id = entry.id
  status : retained.status = entry.status
  links : retained.links = entry.links
  supersedes : retained.supersedes = entry.supersedes
  references : validateReferences state entry = .ok ()
  upsert : validateUpsert state entry = .ok ()

section Proposals

variable {state : WorkingState} {host : Host} {entry retained old : WorkingEntry}
variable {entries upserted : List WorkingEntry}

theorem retained_of_retainProposal
    (h : retainProposal state host entry = .ok retained) :
    Retained state entry retained := by
  simp only [retainProposal, bind_eq_ok_iff] at h
  obtain ⟨_, -, _, hreferences, _, hupsert, _, -, hretained⟩ := h
  cases host with
  | none =>
      cases hretained
      exact ⟨rfl, rfl, rfl, rfl, hreferences, hupsert⟩
  | some given =>
      simp only [bind_eq_ok_iff] at hretained
      obtain ⟨validity, -, hretained⟩ := hretained
      cases hretained
      exact ⟨rfl, rfl, rfl, rfl, hreferences, hupsert⟩

/-- What the checks of an upsert mean for the entry that it replaces. -/
theorem of_validateUpsert (h : validateUpsert state entry = .ok ())
    (hold : entryOf state.entries entry.id = some old) :
    old.status ≠ .superseded ∧
      (∀ previous, old.supersedes = some previous →
        entry.supersedes = some previous) ∧
      (old.status = .stale → hasNewSource old entry = true) := by
  simp only [validateUpsert, hold, ensure_bind_eq_ok_iff, ensure_eq_ok_iff,
    decide_eq_true_eq, Bool.or_eq_true] at h
  obtain ⟨hstatus, hsupersedes, hsource⟩ := h
  refine ⟨hstatus, ?_, fun hstale => hsource.resolve_left fun h => h hstale⟩
  intro previous hprevious
  rcases hsupersedes with hnone | hsame
  · rw [hprevious] at hnone
    cases hnone
  · rw [← hsame, hprevious]

theorem of_upsertEntry {maximum : Nat} (hsorted : Sorted WorkingEntry.id entries)
    (h : upsertEntry entries entry maximum = .ok upserted) :
    Sorted WorkingEntry.id upserted ∧
      ∀ b, b ∈ upserted ↔ b = entry ∨ b ∈ entries ∧ b.id ≠ entry.id := by
  unfold upsertEntry at h
  cases hfound : findEntry entries entry.id with
  | some position =>
      rw [hfound] at h
      cases h
      obtain ⟨previous, hget, hid⟩ := lookupIndex_eq_some hfound
      rw [set_eq_replaceRow hsorted hget hid.symm]
      refine ⟨sorted_replaceRow hsorted, ?_⟩
      intro b
      rw [mem_replaceRow hsorted (List.mem_of_getElem? hget) hid.symm, hid]
  | none =>
      rw [hfound] at h
      simp only [ensure_bind_eq_ok_iff] at h
      obtain ⟨-, h⟩ := h
      cases h
      have hfresh : ∀ a ∈ entries, a.id ≠ entry.id := by
        intro a ha hid
        obtain ⟨i, hi, -⟩ := lookupIndex_of_mem hsorted ha hid
        rw [findEntry, hi] at hfound
        cases hfound
      refine ⟨sorted_orderedInsert hsorted hfresh, ?_⟩
      intro b
      unfold insertEntry
      rw [(List.perm_orderedInsert _ _ _).mem_iff, List.mem_cons]
      apply or_congr_right
      exact ⟨fun hb => ⟨hb, hfresh b hb⟩, fun hb => hb.1⟩

/-- The retained proposals, and the entries of other identities. -/
theorem of_upsertEntries {proposals : List WorkingEntry}
    (hsorted : Sorted WorkingEntry.id entries)
    (hdistinct : (proposals.map WorkingEntry.id).Nodup)
    (h : upsertEntries state host proposals entries = .ok upserted) :
    Sorted WorkingEntry.id upserted ∧
      ∃ retained, List.Forall₂ (Retained state) proposals retained ∧
        ∀ b, b ∈ upserted ↔ b ∈ retained ∨
          b ∈ entries ∧ ∀ entry ∈ proposals, entry.id ≠ b.id := by
  induction proposals generalizing entries with
  | nil =>
      cases h
      exact ⟨hsorted, [], .nil, fun b => by simp⟩
  | cons entry rest ih =>
      simp only [upsertEntries, bind_eq_ok_iff] at h
      obtain ⟨kept, hkept, middle, hmiddle, hrest⟩ := h
      obtain ⟨hfresh, hdistinct⟩ := List.nodup_cons.mp hdistinct
      have hkept := retained_of_retainProposal hkept
      obtain ⟨hsorted', hmem⟩ := of_upsertEntry hsorted hmiddle
      obtain ⟨hsorted'', others, hothers, hmem'⟩ := ih hsorted' hdistinct hrest
      refine ⟨hsorted'', kept :: others, .cons hkept hothers, ?_⟩
      intro b
      rw [hmem', hmem, List.mem_cons, List.forall_mem_cons, hkept.id]
      constructor
      · rintro (hb | ⟨rfl | ⟨hb, hne⟩, hrest⟩)
        · exact .inl (.inr hb)
        · exact .inl (.inl rfl)
        · exact .inr ⟨hb, fun h => hne h.symm, hrest⟩
      · rintro ((rfl | hb) | ⟨hb, hne, hrest⟩)
        · refine .inr ⟨.inl rfl, ?_⟩
          intro other hother hid
          refine hfresh (List.mem_map.mpr ⟨other, hother, ?_⟩)
          rw [hid, hkept.id]
        · exact .inl hb
        · exact .inr ⟨.inr ⟨hb, fun h => hne h.symm⟩, hrest⟩

end Proposals

/-! ### Supersession -/

/-- One of the proposals supersedes the entry. -/
def Supersedes (proposals : List WorkingEntry) (id : ContextNodeId) : Prop :=
  ∃ entry ∈ proposals, entry.supersedes = some id

instance (proposals : List WorkingEntry) (id : ContextNodeId) :
    Decidable (Supersedes proposals id) :=
  inferInstanceAs (Decidable (∃ _ ∈ _, _))

def supersedeBy (proposals : List WorkingEntry) (entry : WorkingEntry) :
    WorkingEntry :=
  if Supersedes proposals entry.id then supersede entry else entry

section Supersession

variable {proposals originals entries superseded : List WorkingEntry}
variable {entry target : WorkingEntry} {previous : ContextNodeId}

@[simp] theorem id_supersedeBy : (supersedeBy proposals entry).id = entry.id := by
  unfold supersedeBy
  split <;> rfl

@[simp] theorem links_supersedeBy :
    (supersedeBy proposals entry).links = entry.links := by
  unfold supersedeBy
  split <;> rfl

@[simp] theorem supersedes_supersedeBy :
    (supersedeBy proposals entry).supersedes = entry.supersedes := by
  unfold supersedeBy
  split <;> rfl

theorem status_supersedeBy : (supersedeBy proposals entry).status = .superseded ↔
    entry.status = .superseded ∨ Supersedes proposals entry.id := by
  unfold supersedeBy
  split
  · rename_i h
    exact ⟨fun _ => .inr h, fun _ => rfl⟩
  · rename_i h
    exact ⟨.inl, fun hor => hor.resolve_right h⟩

theorem supersedeBy_cons_of_none (h : entry.supersedes = none) :
    supersedeBy (entry :: proposals) = supersedeBy proposals := by
  funext a
  have hsame : Supersedes (entry :: proposals) a.id ↔
      Supersedes proposals a.id := by
    unfold Supersedes
    simp [h]
  unfold supersedeBy
  simp only [hsame]

theorem map_supersedeBy_cons (h : entry.supersedes = some previous)
    (entries : List WorkingEntry) :
    (updateRow WorkingEntry.id previous supersede entries).map
        (supersedeBy proposals) =
      entries.map (supersedeBy (entry :: proposals)) := by
  unfold updateRow
  rw [List.map_map]
  apply List.map_congr_left
  intro a _
  rw [Function.comp_apply]
  by_cases ha : a.id = previous
  · have hfirst : Supersedes (entry :: proposals) a.id :=
      ⟨entry, List.mem_cons_self, by rw [h, ha]⟩
    rw [if_pos ha]
    unfold supersedeBy
    rw [if_pos hfirst]
    split <;> rfl
  · have hsame : Supersedes (entry :: proposals) a.id ↔
        Supersedes proposals a.id := by
      unfold Supersedes
      simp [h, Ne.symm ha]
    rw [if_neg ha]
    unfold supersedeBy
    simp only [hsame]

/-- The entry already had the pointer. -/
def Pointed (originals : List WorkingEntry) (id previous : ContextNodeId) : Prop :=
  ∃ original, entryOf originals id = some original ∧
    original.supersedes = some previous

theorem of_applySupersession (hsorted : Sorted WorkingEntry.id entries)
    (hprevious : entry.supersedes = some previous)
    (h : applySupersession entries originals entry = .ok superseded) :
    superseded = updateRow WorkingEntry.id previous supersede entries ∧
      ∃ replaced ∈ entries, replaced.id = previous ∧
        (replaced.status = .superseded → Pointed originals entry.id previous) := by
  simp only [applySupersession, hprevious] at h
  cases hfound : findEntry entries previous with
  | none =>
      simp only [hfound] at h
      cases h
  | some index =>
      cases hreplaced : entryOf entries previous with
      | none =>
          simp only [hfound, hreplaced] at h
          cases h
      | some replaced =>
          simp only [hfound, hreplaced] at h
          obtain ⟨hmem, hid⟩ := mem_of_lookup hreplaced
          by_cases hstatus : replaced.status = .superseded
          · rw [if_pos hstatus] at h
            cases horiginal : entryOf originals entry.id with
            | none =>
                rw [horiginal] at h
                cases h
            | some original =>
                rw [horiginal] at h
                simp only [ensure_bind_eq_ok_iff, decide_eq_true_eq] at h
                obtain ⟨hpointer, h⟩ := h
                cases h
                exact ⟨modify_eq_updateRow hsorted hfound, replaced, hmem, hid,
                  fun _ => ⟨original, horiginal, hpointer⟩⟩
          · rw [if_neg hstatus] at h
            cases h
            exact ⟨modify_eq_updateRow hsorted hfound, replaced, hmem, hid,
              fun h => absurd h hstatus⟩

/-- If both proposals name one entry, then the second did so before. -/
def Repeats (originals : List WorkingEntry) (first second : WorkingEntry) : Prop :=
  ∀ previous, first.supersedes = some previous →
    second.supersedes = some previous → Pointed originals second.id previous

/-- A target that is superseded when its turn comes had the pointer before. -/
structure Claimed (originals entries proposals : List WorkingEntry) : Prop where
  target : ∀ entry ∈ proposals, ∀ previous, entry.supersedes = some previous →
    ∃ replaced ∈ entries, replaced.id = previous ∧
      (replaced.status = .superseded → Pointed originals entry.id previous)
  once : proposals.Pairwise (Repeats originals)

theorem of_supersedeEntries (hsorted : Sorted WorkingEntry.id entries)
    (h : supersedeEntries originals proposals entries = .ok superseded) :
    superseded = entries.map (supersedeBy proposals) ∧
      Claimed originals entries proposals := by
  induction proposals generalizing entries with
  | nil =>
      cases h
      refine ⟨?_, ⟨fun _ hentry => absurd hentry List.not_mem_nil, .nil⟩⟩
      have hid : supersedeBy [] = id := by
        funext a
        exact if_neg fun ⟨_, hmem, _⟩ => List.not_mem_nil hmem
      rw [hid, List.map_id]
  | cons entry rest ih =>
      simp only [supersedeEntries, bind_eq_ok_iff] at h
      obtain ⟨middle, hmiddle, hrest⟩ := h
      cases hprevious : entry.supersedes with
      | none =>
          simp only [applySupersession, hprevious, Except.ok.injEq] at hmiddle
          subst hmiddle
          obtain ⟨rfl, hclaimed⟩ := ih hsorted hrest
          refine ⟨by rw [supersedeBy_cons_of_none hprevious], ?_, ?_⟩
          · intro other hother previous hother'
            rcases List.mem_cons.mp hother with rfl | hother
            · rw [hprevious] at hother'
              cases hother'
            · exact hclaimed.target other hother previous hother'
          · refine List.pairwise_cons.mpr ⟨?_, hclaimed.once⟩
            intro other _ previous hentry
            rw [hprevious] at hentry
            cases hentry
      | some previous =>
          obtain ⟨rfl, hreplaced⟩ := of_applySupersession hsorted hprevious hmiddle
          have hsorted' : Sorted WorkingEntry.id
              (updateRow WorkingEntry.id previous supersede entries) := by
            apply hsorted.map
            intro a
            split <;> rfl
          obtain ⟨rfl, hclaimed⟩ := ih hsorted' hrest
          refine ⟨map_supersedeBy_cons hprevious entries, ?_, ?_⟩
          · intro other hother target hother'
            rcases List.mem_cons.mp hother with rfl | hother
            · rw [hprevious, Option.some.injEq] at hother'
              subst hother'
              exact hreplaced
            · obtain ⟨found, hfound, hid, hpointed⟩ :=
                hclaimed.target other hother target hother'
              rcases mem_updateRow.mp hfound with ⟨a, ha, _, rfl⟩ | ⟨ha, _⟩
              · exact ⟨a, ha, hid, fun _ => hpointed rfl⟩
              · exact ⟨found, ha, hid, hpointed⟩
          · refine List.pairwise_cons.mpr ⟨?_, hclaimed.once⟩
            intro other hother target hentry hother'
            rw [hprevious, Option.some.injEq] at hentry
            subst hentry
            obtain ⟨found, hfound, hid, hpointed⟩ :=
              hclaimed.target other hother previous hother'
            rcases mem_updateRow.mp hfound with ⟨a, ha, _, rfl⟩ | ⟨ha, hne⟩
            · exact hpointed rfl
            · exact absurd hid hne

end Supersession

/-! ### Deltas -/

theorem of_validateProposals {previous : Option ContextNodeId}
    {entries : List WorkingEntry}
    (h : validateProposals previous entries = .ok ()) :
    Sorted WorkingEntry.id entries ∧
      (∀ entry ∈ entries, ∀ id, previous = some id → id < entry.id) ∧
      ∀ entry ∈ entries, unusable entry.status = false := by
  induction entries generalizing previous with
  | nil =>
      exact ⟨.nil, fun _ hmem => absurd hmem List.not_mem_nil,
        fun _ hmem => absurd hmem List.not_mem_nil⟩
  | cons entry rest ih =>
      simp only [validateProposals, ensure_bind_eq_ok_iff, Bool.not_eq_true',
        Bool.or_eq_false_iff] at h
      obtain ⟨⟨hstatus, -⟩, horder, hrest⟩ := h
      obtain ⟨hsorted, habove, husable⟩ := ih hrest
      have hbelow : ∀ id, previous = some id → id < entry.id := by
        rintro id rfl
        exact of_decide_eq_true horder
      refine ⟨List.pairwise_cons.mpr ⟨?_, hsorted⟩, ?_, ?_⟩
      · intro other hother
        exact habove other hother entry.id rfl
      · intro other hother id hid
        rcases List.mem_cons.mp hother with rfl | hother
        · exact hbelow id hid
        · exact lt_trans (hbelow id hid) (habove other hother entry.id rfl)
      · intro other hother
        rcases List.mem_cons.mp hother with rfl | hother
        · exact hstatus
        · exact husable other hother

/-- What an accepted delta makes of a state. -/
structure Reduced (state : WorkingState) (delta : WorkingDelta)
    (retained upserted : List WorkingEntry) (next : WorkingState) : Prop where
  proposals : List.Forall₂ (Retained state) delta.entries retained
  sorted : Sorted WorkingEntry.id upserted
  mem : ∀ b, b ∈ upserted ↔ b ∈ retained ∨
    b ∈ state.entries ∧ ∀ entry ∈ delta.entries, entry.id ≠ b.id
  graph : validateGraph upserted = .ok ()
  claimed : Claimed state.entries upserted delta.entries
  next : next = state.withEntries
    (invalidateEntries state.environment state.throughObservation
      (upserted.map (supersedeBy delta.entries))) (state.revision + 1)

theorem nextRevision_eq_ok_iff {current revision : Nat} :
    nextRevision current = .ok revision ↔
      current ≠ u64Max ∧ revision = current + 1 := by
  unfold nextRevision
  split
  · rename_i h
    exact ⟨fun h' => (by cases h'), fun h' => absurd h h'.1⟩
  · rename_i h
    exact ⟨fun h' => (by cases h'; exact ⟨h, rfl⟩), fun h' => by rw [h'.2]⟩

section Deltas

variable {state next : WorkingState} {delta : WorkingDelta} {host : Host}
variable {retained upserted : List WorkingEntry} {entry b : WorkingEntry}

theorem reduced_of_reduceDelta (hsorted : Sorted WorkingEntry.id state.entries)
    (h : reduceDelta state delta host = .ok next) :
    ∃ retained upserted, Reduced state delta retained upserted next := by
  simp only [reduceDelta, bind_eq_ok_iff] at h
  obtain ⟨_, -, _, -, _, -, _, -, revision, hrevision, upserted, hupserted, _,
    hgraph, superseded, hsuperseded, _, -, hnext⟩ := h
  obtain ⟨hproposals, -, -⟩ := of_validateProposals delta.canonical
  obtain ⟨hsorted', retained, hretained, hmem⟩ :=
    of_upsertEntries hsorted hproposals.nodup_map hupserted
  obtain ⟨rfl, hclaimed⟩ := of_supersedeEntries hsorted' hsuperseded
  obtain ⟨-, rfl⟩ := nextRevision_eq_ok_iff.mp hrevision
  cases hnext
  exact ⟨retained, upserted, hretained, hsorted', hmem, hgraph, hclaimed, rfl⟩

theorem exists_retained (h : Reduced state delta retained upserted next)
    (hproposal : entry ∈ delta.entries) :
    ∃ kept ∈ upserted, Retained state entry kept := by
  obtain ⟨kept, hkept, hrow⟩ := forall₂_mem_left h.proposals hproposal
  exact ⟨kept, (h.mem kept).mpr (.inl hkept), hrow⟩

theorem usable_of_delta (hmem : entry ∈ delta.entries) :
    unusable entry.status = false :=
  (of_validateProposals delta.canonical).2.2 entry hmem

end Deltas

/-! ### The other inputs -/

/-- The links are kept, and no entry is superseded or restored. -/
structure Bodied (entry after : WorkingEntry) : Prop where
  id : after.id = entry.id
  links : after.links = entry.links
  supersedes : after.supersedes = entry.supersedes
  status : after.status = .superseded ↔ entry.status = .superseded

theorem bodied_refl (entry : WorkingEntry) : Bodied entry entry :=
  ⟨rfl, rfl, rfl, .rfl⟩

theorem Bodied.trans {first second third : WorkingEntry} (h : Bodied first second)
    (h' : Bodied second third) : Bodied first third :=
  ⟨h'.id.trans h.id, h'.links.trans h.links, h'.supersedes.trans h.supersedes,
    h'.status.trans h.status⟩

section Inputs

variable {state next : WorkingState} {entries others : List WorkingEntry}
variable {environment : WorkingEnvironment} {through : Nat}
variable {entry after : WorkingEntry}

theorem bodied_of_invalidated
    (h : Invalidated entries environment through entry after) :
    Bodied entry after := by
  cases h with
  | kept => exact bodied_refl entry
  | refreshed hstale hfails =>
      refine ⟨rfl, rfl, rfl, ?_⟩
      rw [hstale]
      exact ⟨fun h => (by cases h), fun h => (by cases h)⟩
  | marked husable hdoomed =>
      refine ⟨rfl, rfl, rfl, ?_⟩
      constructor
      · intro h
        cases h
      · intro h
        rw [h] at husable
        cases husable

theorem bodied_invalidateEntries (environment : WorkingEnvironment) (through : Nat)
    (hsorted : Sorted WorkingEntry.id entries) :
    List.Forall₂ Bodied entries (invalidateEntries environment through entries) :=
  (invalidated_passes hsorted _).imp fun _ _ => bodied_of_invalidated

theorem sorted_of_bodied (hsorted : Sorted WorkingEntry.id entries)
    (h : List.Forall₂ Bodied entries others) : Sorted WorkingEntry.id others :=
  hsorted.of_forall₂ h fun _ _ => Bodied.id

theorem bodied_of_distrustEntries {previous : Option ContextNodeId}
    {ids : List ContextNodeId} (hsorted : Sorted WorkingEntry.id entries)
    (h : distrustEntries state previous ids entries = .ok others) :
    List.Forall₂ Bodied entries others := by
  induction ids generalizing previous entries with
  | nil =>
      cases h
      exact List.forall₂_same.mpr fun entry _ => bodied_refl entry
  | cons id rest ih =>
      simp only [distrustEntries, ensure_bind_eq_ok_iff] at h
      obtain ⟨-, h⟩ := h
      cases hfound : findEntry entries id with
      | none =>
          rw [hfound] at h
          cases h
      | some index =>
          rw [hfound] at h
          dsimp only at h
          rw [modify_eq_updateRow hsorted hfound] at h
          have hfirst : List.Forall₂ Bodied entries
              (updateRow WorkingEntry.id id (distrust state) entries) :=
            forall₂_updateRow bodied_refl fun _ _ _ => ⟨rfl, rfl, rfl, .rfl⟩
          exact forall₂_comp hfirst (ih (sorted_of_bodied hsorted hfirst) h)
            fun _ _ _ => Bodied.trans

/-- What an accepted input does to the entries. -/
inductive Moves (state next : WorkingState) : Prop
  | reduced (delta : WorkingDelta) (retained upserted : List WorkingEntry)
      (hreduced : Reduced state delta retained upserted next) : Moves state next
  | kept (hentries : next.entries = state.entries)
      (henvironment : next.environment = state.environment) : Moves state next
  | invalidated (middle : List WorkingEntry)
      (hmiddle : List.Forall₂ Bodied state.entries middle)
      (hentries : next.entries = invalidateEntries next.environment
        next.throughObservation middle) : Moves state next

theorem moves_of_ingest {binding : WorkingBinding} {source : ObservationSource}
    (h : ingestWorkingObservation state binding source = .ok next) :
    Moves state next := by
  simp only [ingestWorkingObservation, check_bind_eq_ok_iff] at h
  obtain ⟨-, h⟩ := h
  split at h
  · simp only [bind_eq_ok_iff] at h
    obtain ⟨previous, -, h⟩ := h
    split at h
    · cases h
      exact .kept rfl rfl
    · cases h
  · simp only [bind_eq_ok_iff] at h
    obtain ⟨_, -, _, -, _, -, revision, -, h⟩ := h
    cases h
    exact .kept rfl rfl

theorem moves_of_refresh {expectedRevision : Nat}
    (h : refreshWorkingState state expectedRevision environment = .ok next) :
    Moves state next := by
  simp only [refreshWorkingState, ensure_bind_eq_ok_iff] at h
  obtain ⟨-, -, -, -, h⟩ := h
  split at h
  · cases h
    exact .kept rfl rfl
  · simp only [bind_eq_ok_iff] at h
    obtain ⟨revision, -, h⟩ := h
    cases h
    exact .invalidated state.entries
      (List.forall₂_same.mpr fun entry _ => bodied_refl entry) rfl

theorem moves_of_invalidate {binding : WorkingBinding} {baseRevision : Nat}
    {ids : List ContextNodeId} (hsorted : Sorted WorkingEntry.id state.entries)
    (h : invalidate state binding baseRevision ids = .ok next) :
    Moves state next := by
  simp only [invalidate, bind_eq_ok_iff] at h
  obtain ⟨_, -, _, -, _, -, middle, hmiddle, revision, -, h⟩ := h
  cases h
  exact .invalidated middle (bodied_of_distrustEntries hsorted hmiddle) rfl

theorem moves_of_protocol {update : WorkingProtocolUpdate}
    (h : applyWorkingProtocol state update = .ok next) : Moves state next := by
  simp only [applyWorkingProtocol, bind_eq_ok_iff] at h
  obtain ⟨_, -, _, -, _, -, revision, -, h⟩ := h
  cases h
  exact .kept rfl rfl

theorem moves_of_reduceDelta {delta : WorkingDelta} {host : Host}
    (hsorted : Sorted WorkingEntry.id state.entries)
    (h : reduceDelta state delta host = .ok next) : Moves state next := by
  obtain ⟨retained, upserted, hreduced⟩ := reduced_of_reduceDelta hsorted h
  exact .reduced delta retained upserted hreduced

theorem moves_of_accepts {input : Input}
    (hsorted : Sorted WorkingEntry.id state.entries)
    (h : Accepts state input next) : Moves state next := by
  cases input with
  | limits limits =>
      simp only [Accepts, WorkingState.withLimits] at h
      split at h
      · cases h
      · cases h
        exact .kept rfl rfl
  | event event =>
      cases event with
      | observation binding source => exact moves_of_ingest h
      | refresh baseRevision environment => exact moves_of_refresh h
      | delta delta => exact moves_of_reduceDelta hsorted h
      | hostDelta delta dependencies sourceBinding =>
          exact moves_of_reduceDelta hsorted h
      | hostInvalidate binding baseRevision entries =>
          exact moves_of_invalidate hsorted h
      | protocol update => exact moves_of_protocol h

end Inputs

/-! ### The invariant -/

/-- Identities ascend, and invalidation has nothing left to mark. -/
structure Sound (state : WorkingState) : Prop where
  sorted : Sorted WorkingEntry.id state.entries
  settled : Settled
    (invalidateEntry state.environment state.throughObservation) state.entries

section Soundness

variable {state next : WorkingState} {delta : WorkingDelta}
variable {retained upserted : List WorkingEntry}

theorem Reduced.sorted_superseded (h : Reduced state delta retained upserted next) :
    Sorted WorkingEntry.id (upserted.map (supersedeBy delta.entries)) :=
  h.sorted.map fun _ => id_supersedeBy

theorem sound_of_invalidated {environment : WorkingEnvironment} {through : Nat}
    {middle : List WorkingEntry} (hsorted : Sorted WorkingEntry.id middle)
    (hentries : next.entries = invalidateEntries environment through middle)
    (henvironment : next.environment = environment) : Sound next := by
  subst henvironment
  constructor
  · rw [hentries]
    exact sorted_of_bodied hsorted (bodied_invalidateEntries _ _ hsorted)
  · rw [hentries]
    exact settled_frontier (settled_invalidateEntries _ _ _)

theorem sound_of_moves (hsound : Sound state) (h : Moves state next) :
    Sound next := by
  cases h with
  | reduced delta retained upserted hreduced =>
      rw [hreduced.next]
      exact sound_of_invalidated hreduced.sorted_superseded rfl rfl
  | kept hentries henvironment =>
      constructor
      · rw [hentries]
        exact hsound.sorted
      · rw [hentries, henvironment]
        exact settled_frontier hsound.settled
  | invalidated middle hmiddle hentries =>
      exact sound_of_invalidated (sorted_of_bodied hsound.sorted hmiddle) hentries
        rfl

theorem entries_of_opened (h : Opened state) : state.entries = [] := by
  obtain ⟨environment, limits, h⟩ := h
  unfold WorkingState.new at h
  split at h
  · cases h
  · cases h
    rfl

theorem sound_of_opened (h : Opened state) : Sound state := by
  have hempty := entries_of_opened h
  constructor
  · rw [hempty]
    exact .nil
  · rw [hempty]
    exact fun _ hmem => absurd hmem List.not_mem_nil

theorem sound_of_reached (h : Reached state) : Sound state := by
  refine h.invariant (fun _ => sound_of_opened) ?_
  intro state input next hsound haccepts
  exact sound_of_moves hsound (moves_of_accepts hsound.sorted haccepts)

end Soundness

end Peritus.Context.Reduction
