import Peritus.Context.Reduction

/-!
Supersession.  In every reachable state an entry is superseded exactly if one other
entry names it, and no input takes the name back: the reducer compares every new
name with the entries before the delta, and the elimination of the graph excludes
cycles of dependencies and names.
-/

namespace Peritus.Context.Supersession

open Collections SortedTable TransitionSystem Node Working Invalidation
open Delta Reduction

/-- An entry depends on another one, or supersedes it. -/
def Links (entries : List WorkingEntry) (id target : ContextNodeId) : Prop :=
  ∃ entry ∈ entries, entry.id = id ∧
    (target ∈ entry.links.dependsOn ∨ entry.supersedes = some target)

structure WellSuperseded (entries : List WorkingEntry) : Prop where
  superseded : ∀ entry ∈ entries, entry.status = .superseded ↔
    ∃! successor, successor ∈ entries ∧ successor.supersedes = some entry.id
  unique : ∀ first ∈ entries, ∀ second ∈ entries, ∀ previous,
    first.supersedes = some previous → second.supersedes = some previous →
      first = second
  acyclic : ∀ id, ¬ Relation.TransGen (Links entries) id id
  retained : ∀ id target, Links entries id target →
    ∃ entry ∈ entries, entry.id = target

/-- The entry is superseded by the successor. -/
def SupersededBy (entries : List WorkingEntry) (id successor : ContextNodeId) :
    Prop :=
  ∃ entry ∈ entries, entry.id = id ∧ entry.status = .superseded ∧
    ∃ other ∈ entries, other.id = successor ∧ other.supersedes = some id

/-! ### The invariant -/

structure Ordered (entries : List WorkingEntry) : Prop where
  named : ∀ entry ∈ entries, entry.status = .superseded ↔
    ∃ successor ∈ entries, successor.supersedes = some entry.id
  unique : ∀ first ∈ entries, ∀ second ∈ entries, ∀ previous,
    first.supersedes = some previous → second.supersedes = some previous →
      first = second
  ranked : ∃ rank : ContextNodeId → Nat, ∀ entry ∈ entries,
    ∀ target ∈ edges entry, rank entry.id < rank target
  retained : ∀ entry ∈ entries, ∀ target ∈ edges entry,
    ∃ other ∈ entries, other.id = target

section Invariants

variable {state next : WorkingState} {entries others : List WorkingEntry}
variable {entry other : WorkingEntry} {id target : ContextNodeId}

theorem mem_edges : target ∈ edges entry ↔
    target ∈ entry.links.dependsOn ∨ entry.supersedes = some target := by
  unfold edges
  rw [List.mem_append, Option.mem_toList]

theorem wellSuperseded_of_ordered (h : Ordered entries) :
    WellSuperseded entries where
  superseded := by
    intro entry hentry
    rw [h.named entry hentry]
    constructor
    · rintro ⟨successor, hmem, hnames⟩
      refine ⟨successor, ⟨hmem, hnames⟩, ?_⟩
      rintro other ⟨hother, hnames'⟩
      exact h.unique other hother successor hmem entry.id hnames' hnames
    · rintro ⟨successor, ⟨hmem, hnames⟩, -⟩
      exact ⟨successor, hmem, hnames⟩
  unique := h.unique
  acyclic := by
    obtain ⟨rank, hrank⟩ := h.ranked
    have hup : ∀ {id target}, Relation.TransGen (Links entries) id target →
        rank id < rank target := by
      intro id target hpath
      induction hpath with
      | single hlink =>
          obtain ⟨entry, hentry, rfl, htarget⟩ := hlink
          exact hrank entry hentry _ (mem_edges.mpr htarget)
      | tail _ hlink ih =>
          obtain ⟨entry, hentry, rfl, htarget⟩ := hlink
          exact lt_trans ih (hrank entry hentry _ (mem_edges.mpr htarget))
    intro id hcycle
    exact lt_irrefl _ (hup hcycle)
  retained := by
    rintro id target ⟨entry, hentry, -, htarget⟩
    exact h.retained entry hentry target (mem_edges.mpr htarget)

theorem edges_of_bodied (h : Bodied entry other) : edges other = edges entry := by
  unfold edges
  rw [h.links, h.supersedes]

theorem ordered_of_bodied (hsorted : Sorted WorkingEntry.id entries)
    (h : Ordered entries) (hbodied : List.Forall₂ Bodied entries others) :
    Ordered others where
  named := by
    intro after hafter
    obtain ⟨entry, hentry, hbody⟩ := forall₂_mem_right hbodied hafter
    rw [hbody.status, h.named entry hentry, hbody.id]
    constructor
    · rintro ⟨successor, hmem, hnames⟩
      obtain ⟨successor', hmem', hbody'⟩ := forall₂_mem_left hbodied hmem
      exact ⟨successor', hmem', hbody'.supersedes.trans hnames⟩
    · rintro ⟨successor', hmem', hnames⟩
      obtain ⟨successor, hmem, hbody'⟩ := forall₂_mem_right hbodied hmem'
      exact ⟨successor, hmem, hbody'.supersedes.symm.trans hnames⟩
  unique := by
    intro first' hfirst' second' hsecond' previous hnames hnames'
    obtain ⟨first, hfirst, hbody⟩ := forall₂_mem_right hbodied hfirst'
    obtain ⟨second, hsecond, hbody'⟩ := forall₂_mem_right hbodied hsecond'
    have hsame := h.unique first hfirst second hsecond previous
      (hbody.supersedes.symm.trans hnames) (hbody'.supersedes.symm.trans hnames')
    refine (sorted_of_bodied hsorted hbodied).inj hfirst' hsecond' ?_
    rw [hbody.id, hbody'.id, hsame]
  ranked := by
    obtain ⟨rank, hrank⟩ := h.ranked
    refine ⟨rank, ?_⟩
    intro after hafter target htarget
    obtain ⟨entry, hentry, hbody⟩ := forall₂_mem_right hbodied hafter
    rw [edges_of_bodied hbody] at htarget
    rw [hbody.id]
    exact hrank entry hentry target htarget
  retained := by
    intro after hafter target htarget
    obtain ⟨entry, hentry, hbody⟩ := forall₂_mem_right hbodied hafter
    rw [edges_of_bodied hbody] at htarget
    obtain ⟨other, hother, hid⟩ := h.retained entry hentry target htarget
    obtain ⟨other', hother', hbody'⟩ := forall₂_mem_left hbodied hother
    exact ⟨other', hother', hbody'.id.trans hid⟩

/-- The elimination of the graph finds every target, and a rank. -/
theorem of_validateGraph (hsorted : Sorted WorkingEntry.id entries)
    (h : validateGraph entries = .ok ()) :
    (∀ entry ∈ entries, ∀ target ∈ edges entry,
      ∃ other ∈ entries, other.id = target) ∧
    ∃ rank : ContextNodeId → Nat, ∀ entry ∈ entries, ∀ target ∈ edges entry,
      rank entry.id < rank target := by
  have hbound : ∀ id index, findEntry entries id = some index →
      index < (entries.map edges).length := by
    intro id index hfound
    obtain ⟨_, hget, -⟩ := lookupIndex_eq_some hfound
    rw [List.length_map]
    exact (List.getElem?_eq_some_iff.mp hget).1
  obtain ⟨hfound, rank, hrank⟩ := Elimination.of_validate hbound h
  have hrows : ∀ entry ∈ entries, ∀ target ∈ edges entry,
      ∃ row, findEntry entries target = some row := fun entry hentry target htarget =>
    Option.isSome_iff_exists.mp
      (hfound (edges entry) (List.mem_map_of_mem hentry) target htarget)
  refine ⟨?_, fun id => ((findEntry entries id).map rank).getD 0, ?_⟩
  · intro entry hentry target htarget
    obtain ⟨row, hrow⟩ := hrows entry hentry target htarget
    obtain ⟨other, hget, hid⟩ := lookupIndex_eq_some hrow
    exact ⟨other, List.mem_of_getElem? hget, hid⟩
  · intro entry hentry target htarget
    obtain ⟨row, hrow⟩ := hrows entry hentry target htarget
    obtain ⟨index, hindex, hget⟩ := lookupIndex_of_mem hsorted hentry rfl
    have hindex' : findEntry entries entry.id = some index := hindex
    have hlisted : (entries.map edges).getD index [] = edges entry := by
      rw [List.getD_eq_getElem?_getD, List.getElem?_map, hget]
      rfl
    change ((findEntry entries entry.id).map rank).getD 0 <
      ((findEntry entries target).map rank).getD 0
    rw [hrow, hindex']
    refine hrank index (List.mem_range.mpr (hbound _ _ hindex')) row ?_
    unfold Elimination.targetRows
    rw [hlisted]
    exact List.mem_filterMap.mpr ⟨target, htarget, hrow⟩

end Invariants

/-! ### A delta -/

section Deltas

variable {state next : WorkingState} {delta : WorkingDelta}
variable {retained upserted : List WorkingEntry} {entry other : WorkingEntry}
variable {previous : ContextNodeId}

/-- An entry of the table is retained for a proposal, or was there before. -/
theorem cases_of_mem (h : Reduced state delta retained upserted next)
    (hmem : entry ∈ upserted) :
    (∃ proposal ∈ delta.entries, Retained state proposal entry) ∨
      entry ∈ state.entries ∧ ∀ proposal ∈ delta.entries, proposal.id ≠ entry.id := by
  rcases (h.mem entry).mp hmem with hretained | hkept
  · obtain ⟨proposal, hproposal, hrow⟩ := forall₂_mem_right h.proposals hretained
    exact .inl ⟨proposal, hproposal, hrow⟩
  · exact .inr hkept

/-- What an entry names, its replacement names too. -/
theorem exists_named (hsound : Sound state)
    (h : Reduced state delta retained upserted next) (hmem : entry ∈ state.entries)
    (hnames : entry.supersedes = some previous) :
    ∃ kept ∈ upserted, kept.id = entry.id ∧ kept.supersedes = some previous := by
  by_cases hproposed : ∃ proposal ∈ delta.entries, proposal.id = entry.id
  · obtain ⟨proposal, hproposal, hid⟩ := hproposed
    obtain ⟨kept, hkept, hrow⟩ := exists_retained h hproposal
    have hold : entryOf state.entries proposal.id = some entry :=
      (entryOf_eq_some_iff hsound.sorted).mpr ⟨hmem, hid.symm⟩
    obtain ⟨-, hpointer, -⟩ := of_validateUpsert hrow.upsert hold
    exact ⟨kept, hkept, hrow.id.trans hid,
      hrow.supersedes.trans (hpointer previous hnames)⟩
  · refine ⟨entry, (h.mem entry).mpr (.inr ⟨hmem, ?_⟩), rfl, hnames⟩
    intro proposal hproposal hid
    exact hproposed ⟨proposal, hproposal, hid⟩

/-- A superseded entry cannot be proposed again. -/
theorem mem_of_superseded (hsound : Sound state)
    (h : Reduced state delta retained upserted next) (hmem : entry ∈ state.entries)
    (hstatus : entry.status = .superseded) : entry ∈ upserted := by
  refine (h.mem entry).mpr (.inr ⟨hmem, ?_⟩)
  intro proposal hproposal hid
  obtain ⟨kept, -, hrow⟩ := exists_retained h hproposal
  have hold : entryOf state.entries proposal.id = some entry :=
    (entryOf_eq_some_iff hsound.sorted).mpr ⟨hmem, hid.symm⟩
  exact (of_validateUpsert hrow.upsert hold).1 hstatus

theorem superseded_of_mem (h : Reduced state delta retained upserted next)
    (hmem : entry ∈ upserted) (hstatus : entry.status = .superseded) :
    entry ∈ state.entries := by
  rcases cases_of_mem h hmem with ⟨proposal, hproposal, hrow⟩ | ⟨hkept, -⟩
  · have husable := usable_of_delta hproposal
    rw [← hrow.status, hstatus] at husable
    cases husable
  · exact hkept

/-- What was named before the delta is superseded in the table. -/
theorem superseded_of_named (hsound : Sound state) (hordered : Ordered state.entries)
    (h : Reduced state delta retained upserted next) (hmem : entry ∈ state.entries)
    (hnames : entry.supersedes = some previous) :
    ∃ target ∈ upserted, target.id = previous ∧ target.status = .superseded := by
  obtain ⟨target, htarget, rfl⟩ := hordered.retained entry hmem previous
    (mem_edges.mpr (.inr hnames))
  have hstatus := (hordered.named target htarget).mpr ⟨entry, hmem, hnames⟩
  exact ⟨target, mem_of_superseded hsound h htarget hstatus, rfl, hstatus⟩

/-- A proposal that names what was named before had the name before. -/
theorem pointed_of_named (hsound : Sound state) (hordered : Ordered state.entries)
    (h : Reduced state delta retained upserted next) (hmem : entry ∈ state.entries)
    (hnames : entry.supersedes = some previous) (hproposal : other ∈ delta.entries)
    (hnames' : other.supersedes = some previous) : other.id = entry.id := by
  obtain ⟨target, htarget, rfl, hstatus⟩ :=
    superseded_of_named hsound hordered h hmem hnames
  obtain ⟨replaced, hreplaced, hid, hpointed⟩ :=
    h.claimed.target other hproposal target.id hnames'
  have hsame := h.sorted.inj hreplaced htarget hid
  subst hsame
  obtain ⟨original, horiginal, hpointer⟩ := hpointed hstatus
  obtain ⟨hmem', hid'⟩ := (entryOf_eq_some_iff hsound.sorted).mp horiginal
  rw [← hid', hordered.unique original hmem' entry hmem replaced.id hpointer hnames]

theorem unique_upserted (hsound : Sound state) (hordered : Ordered state.entries)
    (h : Reduced state delta retained upserted next) :
    ∀ first ∈ upserted, ∀ second ∈ upserted, ∀ previous,
      first.supersedes = some previous → second.supersedes = some previous →
        first = second := by
  intro first hfirst second hsecond previous hnames hnames'
  rcases cases_of_mem h hfirst with ⟨proposal, hproposal, hrow⟩ | ⟨hkept, hnone⟩
  · rcases cases_of_mem h hsecond with ⟨proposal', hproposal', hrow'⟩ | ⟨hkept', hnone'⟩
    · apply h.sorted.inj hfirst hsecond
      rw [hrow.id, hrow'.id]
      by_contra hne
      have hnamed := hrow.supersedes.symm.trans hnames
      have hnamed' := hrow'.supersedes.symm.trans hnames'
      -- the later of the two had the name before, and then so had the earlier one
      have hearlier : ∀ {earlier later : WorkingEntry}, earlier ∈ delta.entries →
          earlier.supersedes = some previous →
          Pointed state.entries later.id previous → earlier.id = later.id := by
        intro earlier later hearlier hearlier' hpointed
        obtain ⟨original, horiginal, hpointer⟩ := hpointed
        obtain ⟨hmem, hid⟩ := (entryOf_eq_some_iff hsound.sorted).mp horiginal
        rw [← hid]
        exact pointed_of_named hsound hordered h hmem hpointer hearlier hearlier'
      have hsymm : Std.Symm fun first second : WorkingEntry =>
          Repeats state.entries first second ∨ Repeats state.entries second first :=
        ⟨fun _ _ => Or.symm⟩
      have hpairs : delta.entries.Pairwise fun first second =>
          Repeats state.entries first second ∨ Repeats state.entries second first :=
        h.claimed.once.imp Or.inl
      have honce := hpairs.forall hproposal hproposal' fun heq => hne (by rw [heq])
      rcases honce with hpointed | hpointed
      · exact hne (hearlier hproposal hnamed (hpointed previous hnamed hnamed'))
      · exact hne
          (hearlier hproposal' hnamed' (hpointed previous hnamed' hnamed)).symm
    · have hid := pointed_of_named hsound hordered h hkept' hnames' hproposal
        (hrow.supersedes.symm.trans hnames)
      exact absurd hid (hnone' proposal hproposal)
  · rcases cases_of_mem h hsecond with ⟨proposal', hproposal', hrow'⟩ | ⟨hkept', -⟩
    · have hid := pointed_of_named hsound hordered h hkept hnames hproposal'
        (hrow'.supersedes.symm.trans hnames')
      exact absurd hid (hnone proposal' hproposal')
    · exact hordered.unique first hkept second hkept' previous hnames hnames'

theorem named_superseded (hsound : Sound state) (hordered : Ordered state.entries)
    (h : Reduced state delta retained upserted next) (hmem : entry ∈ upserted) :
    entry.status = .superseded ∨ Supersedes delta.entries entry.id ↔
      ∃ successor ∈ upserted, successor.supersedes = some entry.id := by
  constructor
  · rintro (hstatus | ⟨proposal, hproposal, hnames⟩)
    · have hmem' := superseded_of_mem h hmem hstatus
      obtain ⟨successor, hsuccessor, hnames⟩ :=
        (hordered.named entry hmem').mp hstatus
      obtain ⟨kept, hkept, -, hnames'⟩ := exists_named hsound h hsuccessor hnames
      exact ⟨kept, hkept, hnames'⟩
    · obtain ⟨kept, hkept, hrow⟩ := exists_retained h hproposal
      exact ⟨kept, hkept, hrow.supersedes.trans hnames⟩
  · rintro ⟨successor, hsuccessor, hnames⟩
    rcases cases_of_mem h hsuccessor with ⟨proposal, hproposal, hrow⟩ | ⟨hkept, -⟩
    · exact .inr ⟨proposal, hproposal, hrow.supersedes.symm.trans hnames⟩
    · obtain ⟨target, htarget, hid, hstatus⟩ :=
        superseded_of_named hsound hordered h hkept hnames
      have hsame := h.sorted.inj htarget hmem hid
      subst hsame
      exact .inl hstatus

theorem edges_supersedeBy (proposals : List WorkingEntry) (entry : WorkingEntry) :
    edges (supersedeBy proposals entry) = edges entry := by
  unfold edges
  rw [links_supersedeBy, supersedes_supersedeBy]

theorem ordered_of_reduced (hsound : Sound state) (hordered : Ordered state.entries)
    (h : Reduced state delta retained upserted next) :
    Ordered (upserted.map (supersedeBy delta.entries)) := by
  obtain ⟨hretained, rank, hrank⟩ := of_validateGraph h.sorted h.graph
  refine ⟨?_, ?_, ⟨rank, ?_⟩, ?_⟩
  · intro after hafter
    obtain ⟨entry, hentry, rfl⟩ := List.mem_map.mp hafter
    rw [status_supersedeBy, named_superseded hsound hordered h hentry,
      id_supersedeBy]
    constructor
    · rintro ⟨successor, hsuccessor, hnames⟩
      exact ⟨_, List.mem_map_of_mem hsuccessor,
        supersedes_supersedeBy.trans hnames⟩
    · rintro ⟨after', hafter', hnames⟩
      obtain ⟨successor, hsuccessor, rfl⟩ := List.mem_map.mp hafter'
      exact ⟨successor, hsuccessor, supersedes_supersedeBy.symm.trans hnames⟩
  · intro first' hfirst' second' hsecond' previous hnames hnames'
    obtain ⟨first, hfirst, rfl⟩ := List.mem_map.mp hfirst'
    obtain ⟨second, hsecond, rfl⟩ := List.mem_map.mp hsecond'
    rw [unique_upserted hsound hordered h first hfirst second hsecond previous
      (supersedes_supersedeBy.symm.trans hnames)
      (supersedes_supersedeBy.symm.trans hnames')]
  · intro after hafter target htarget
    obtain ⟨entry, hentry, rfl⟩ := List.mem_map.mp hafter
    rw [edges_supersedeBy] at htarget
    rw [id_supersedeBy]
    exact hrank entry hentry target htarget
  · intro after hafter target htarget
    obtain ⟨entry, hentry, rfl⟩ := List.mem_map.mp hafter
    rw [edges_supersedeBy] at htarget
    obtain ⟨other, hother, hid⟩ := hretained entry hentry target htarget
    exact ⟨_, List.mem_map_of_mem hother, id_supersedeBy.trans hid⟩

end Deltas

/-! ### Runs -/

section Runs

variable {state next later : WorkingState} {id successor : ContextNodeId}

theorem ordered_of_moves (hsound : Sound state) (hordered : Ordered state.entries)
    (h : Moves state next) : Ordered next.entries := by
  cases h with
  | reduced delta retained upserted hreduced =>
      rw [hreduced.next]
      exact ordered_of_bodied hreduced.sorted_superseded
        (ordered_of_reduced hsound hordered hreduced)
        (bodied_invalidateEntries _ _ hreduced.sorted_superseded)
  | kept hentries _ =>
      rw [hentries]
      exact hordered
  | invalidated middle hmiddle hentries =>
      have hsorted := sorted_of_bodied hsound.sorted hmiddle
      rw [hentries]
      exact ordered_of_bodied hsorted
        (ordered_of_bodied hsound.sorted hordered hmiddle)
        (bodied_invalidateEntries _ _ hsorted)

theorem supersededBy_of_bodied {entries others : List WorkingEntry}
    (hbodied : List.Forall₂ Bodied entries others)
    (h : SupersededBy entries id successor) : SupersededBy others id successor := by
  obtain ⟨entry, hentry, hid, hstatus, other, hother, hid', hnames⟩ := h
  obtain ⟨entry', hentry', hbody⟩ := forall₂_mem_left hbodied hentry
  obtain ⟨other', hother', hbody'⟩ := forall₂_mem_left hbodied hother
  exact ⟨entry', hentry', hbody.id.trans hid, hbody.status.mpr hstatus, other',
    hother', hbody'.id.trans hid', hbody'.supersedes.trans hnames⟩

theorem supersededBy_of_moves (hsound : Sound state) (h : Moves state next)
    (hby : SupersededBy state.entries id successor) :
    SupersededBy next.entries id successor := by
  cases h with
  | reduced delta retained upserted hreduced =>
      obtain ⟨entry, hentry, hid, hstatus, other, hother, hid', hnames⟩ := hby
      have hkept := mem_of_superseded hsound hreduced hentry hstatus
      obtain ⟨other', hother', hsame, hnames'⟩ :=
        exists_named hsound hreduced hother hnames
      rw [hreduced.next]
      refine supersededBy_of_bodied
        (bodied_invalidateEntries _ _ hreduced.sorted_superseded)
        ⟨_, List.mem_map_of_mem hkept, id_supersedeBy.trans hid,
          status_supersedeBy.mpr (.inl hstatus), _, List.mem_map_of_mem hother',
          id_supersedeBy.trans (hsame.trans hid'),
          supersedes_supersedeBy.trans hnames'⟩
  | kept hentries _ =>
      rw [hentries]
      exact hby
  | invalidated middle hmiddle hentries =>
      rw [hentries]
      exact supersededBy_of_bodied
        (bodied_invalidateEntries _ _ (sorted_of_bodied hsound.sorted hmiddle))
        (supersededBy_of_bodied hmiddle hby)

structure Superseding (state : WorkingState) : Prop where
  sound : Sound state
  ordered : Ordered state.entries

theorem superseding_of_opened (h : Opened state) : Superseding state := by
  refine ⟨sound_of_opened h, ?_⟩
  rw [entries_of_opened h]
  refine ⟨?_, ?_, ⟨fun _ => 0, ?_⟩, ?_⟩ <;>
    exact fun _ hmem => absurd hmem List.not_mem_nil

theorem superseding_of_accepts {input : Input} (h : Superseding state)
    (haccepts : Accepts state input next) : Superseding next := by
  have hmoves := moves_of_accepts h.sound.sorted haccepts
  exact ⟨sound_of_moves h.sound hmoves, ordered_of_moves h.sound h.ordered hmoves⟩

theorem superseding_of_reached (h : Reached state) : Superseding state := by
  refine h.invariant (fun _ => superseding_of_opened) ?_
  intro state input next hsuperseding haccepts
  exact superseding_of_accepts hsuperseding haccepts

theorem supersededBy_of_run {inputs : List Input} (hsound : Sound state)
    (hrun : Run Accepts state inputs later)
    (hby : SupersededBy state.entries id successor) :
    SupersededBy later.entries id successor := by
  induction hrun with
  | nil => exact hby
  | cons haccepts _ ih =>
      have hmoves := moves_of_accepts hsound.sorted haccepts
      exact ih (sound_of_moves hsound hmoves)
        (supersededBy_of_moves hsound hmoves hby)

/-- Supersession is unique and acyclic in every reachable state, and what is
superseded stays so, by the same successor, in every later one. -/
theorem supersession_permanent (h : Reached state) :
    WellSuperseded state.entries ∧
      ∀ inputs later, Run Accepts state inputs later → ∀ id successor,
        SupersededBy state.entries id successor →
          SupersededBy later.entries id successor := by
  obtain ⟨hsound, hordered⟩ := superseding_of_reached h
  exact ⟨wellSuperseded_of_ordered hordered, fun _ _ hrun _ _ hby =>
    supersededBy_of_run hsound hrun hby⟩

theorem supersession_permanent_of_successor :
    SupersededBy smallReplaced.entries (smallId 1) (smallId 2) ∧
      WellSuperseded smallReplaced.entries ∧
      ∀ inputs later, Run Accepts smallReplaced inputs later →
        SupersededBy later.entries (smallId 1) (smallId 2) := by
  have hby : SupersededBy smallReplaced.entries (smallId 1) (smallId 2) :=
    ⟨_, List.mem_cons_self, rfl, rfl, _, List.mem_cons_of_mem _ List.mem_cons_self,
      rfl, rfl⟩
  obtain ⟨hwell, hlater⟩ := supersession_permanent reached_smallReplaced
  exact ⟨hby, hwell, fun inputs later hrun => hlater inputs later hrun _ _ hby⟩

end Runs

end Peritus.Context.Supersession
