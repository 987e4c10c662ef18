import Peritus.Passes
import Peritus.Context.Working

/-!
Invalidation.  The passes over the entries compute the least set of stale ones that
holds the entries whose validity fails and those that depend on an entry which is
missing or not usable: an entry is stale after them exactly if it was before, or was
usable and some entry that it reaches is broken.
-/

namespace Peritus.Context.Invalidation

open Peritus.Types Collections SortedTable Passes Node Working

/-! ### The reducer -/

def findEntry (entries : List WorkingEntry) (id : ContextNodeId) : Option Nat :=
  lookupIndex WorkingEntry.id id entries

/-- The entry at the index that `findEntry` finds. -/
def entryOf (entries : List WorkingEntry) (id : ContextNodeId) :
    Option WorkingEntry :=
  lookup WorkingEntry.id id entries

def staleDependency (entries : List WorkingEntry) (entry : WorkingEntry) : Bool :=
  entry.links.dependsOn.any fun dependency =>
    match entryOf entries dependency with
    | none => true
    | some target => unusable target.status

section Reducer

variable (environment : WorkingEnvironment) (through : Nat)

/-- What the loop makes of an entry, and whether it is newly stale. -/
def invalidateEntry (entries : List WorkingEntry) (entry : WorkingEntry) :
    WorkingEntry × Bool :=
  let validityHolds := entry.validity.holds environment
  let isUnusable := unusable entry.status
  let dependencyStale :=
    !isUnusable && validityHolds && staleDependency entries entry
  let shouldStale := !isUnusable && (!validityHolds || dependencyStale)
  let refreshStale := decide (entry.status = .stale) && !validityHolds
  if refreshStale then (entry.withHostStatus .stale through, false)
  else if shouldStale then (entry.withHostStatus .stale through, true)
  else (entry, false)

def invalidateEntries (entries : List WorkingEntry) : List WorkingEntry :=
  passes (invalidateEntry environment through) entries.length entries

end Reducer

/-! ### The claim -/

/-- A retained entry depends on another one. -/
def DependsOn (entries : List WorkingEntry) (id target : ContextNodeId) : Prop :=
  ∃ entry, entryOf entries id = some entry ∧ target ∈ entry.links.dependsOn

/-- An entry is missing, or it is not usable, or its own validity fails. -/
def Broken (entries : List WorkingEntry) (environment : WorkingEnvironment)
    (id : ContextNodeId) : Prop :=
  ∀ entry, entryOf entries id = some entry →
    unusable entry.status = true ∨ entry.validity.holds environment = false

/-- The own validity of an entry fails, or an entry that it reaches is broken. -/
def Doomed (entries : List WorkingEntry) (environment : WorkingEnvironment)
    (entry : WorkingEntry) : Prop :=
  entry.validity.holds environment = false ∨
    ∃ target, Relation.TransGen (DependsOn entries) entry.id target ∧
      Broken entries environment target

/-- What invalidation makes of one of the entries. -/
structure Judged (entries : List WorkingEntry) (environment : WorkingEnvironment)
    (through : Nat) (entry after : WorkingEntry) : Prop where
  stale : after.status = .stale ↔ entry.status = .stale ∨
    unusable entry.status = false ∧ Doomed entries environment entry
  superseded : entry.status = .superseded → after.status = .superseded
  body : after = entry ∨ after = entry.withHostStatus .stale through

def statuses (entries : List WorkingEntry) : List WorkingEntryStatus :=
  entries.map WorkingEntry.status

/-! ### One visit -/

/-- An entry but for the frontier at which it became stale. -/
def frontless (entry : WorkingEntry) : WorkingEntry :=
  { entry with staleThrough := 0 }

def isUsable (entry : WorkingEntry) : Bool := !unusable entry.status

section Visits

variable {environment : WorkingEnvironment} {through : Nat}
  {entries entries' : List WorkingEntry} {entry entry' : WorkingEntry}

@[simp] theorem frontless_withHostStatus (status : WorkingEntryStatus) :
    frontless (entry.withHostStatus status through) =
      { frontless entry with status := status } := rfl

theorem status_of_frontless (h : frontless entry = frontless entry') :
    entry.status = entry'.status := by
  have hfield := congrArg WorkingEntry.status h
  exact hfield

theorem id_of_frontless (h : frontless entry = frontless entry') :
    entry.id = entry'.id := by
  have hfield := congrArg WorkingEntry.id h
  exact hfield

theorem links_of_frontless (h : frontless entry = frontless entry') :
    entry.links = entry'.links := by
  have hfield := congrArg WorkingEntry.links h
  exact hfield

theorem validity_of_frontless (h : frontless entry = frontless entry') :
    entry.validity = entry'.validity := by
  have hfield := congrArg WorkingEntry.validity h
  exact hfield

theorem statuses_of_frontless
    (h : entries'.map frontless = entries.map frontless) :
    statuses entries' = statuses entries := by
  have hstatus := congrArg (List.map WorkingEntry.status) h
  rw [List.map_map, List.map_map] at hstatus
  exact hstatus

theorem staleDependency_congr
    (hentries : entries.map frontless = entries'.map frontless)
    (hlinks : entry.links = entry'.links) :
    staleDependency entries entry = staleDependency entries' entry' := by
  unfold staleDependency
  rw [hlinks]
  refine List.any_congr rfl fun dependency => ?_
  have hfound : (entryOf entries dependency).map frontless =
      (entryOf entries' dependency).map frontless :=
    lookup_congr (fun _ _ => id_of_frontless) hentries
  cases hold : entryOf entries dependency with
  | none =>
      rw [hold, Option.map_none] at hfound
      rw [Option.map_eq_none_iff.mp hfound.symm]
  | some target =>
      rw [hold, Option.map_some] at hfound
      obtain ⟨target', htarget, hsame⟩ := Option.map_eq_some_iff.mp hfound.symm
      rw [htarget]
      dsimp only
      rw [status_of_frontless hsame]

/-- The three outcomes of a visit. -/
theorem invalidateEntry_cases (environment : WorkingEnvironment) (through : Nat)
    (entries : List WorkingEntry) (entry : WorkingEntry) :
    (entry.status = .stale ∧ entry.validity.holds environment = false ∧
      invalidateEntry environment through entries entry =
        (entry.withHostStatus .stale through, false)) ∨
    (unusable entry.status = false ∧
      (entry.validity.holds environment = false ∨
        staleDependency entries entry = true) ∧
      invalidateEntry environment through entries entry =
        (entry.withHostStatus .stale through, true)) ∨
    ((unusable entry.status = false → entry.validity.holds environment = true ∧
        staleDependency entries entry = false) ∧
      (entry.status = .stale → entry.validity.holds environment = true) ∧
      invalidateEntry environment through entries entry = (entry, false)) := by
  unfold invalidateEntry unusable
  cases entry.status <;> cases entry.validity.holds environment <;>
    cases staleDependency entries entry <;> simp

theorem newly_eq_true_iff :
    (invalidateEntry environment through entries entry).2 = true ↔
      unusable entry.status = false ∧
        (entry.validity.holds environment = false ∨
          staleDependency entries entry = true) := by
  unfold invalidateEntry unusable
  cases entry.status <;> cases entry.validity.holds environment <;>
    cases staleDependency entries entry <;> simp

theorem marks_invalidateEntry (environment : WorkingEnvironment) (through : Nat) :
    Marks (invalidateEntry environment through) frontless isUsable where
  congr := by
    intro entries entries' entry entry' hentries hentry
    rw [Bool.eq_iff_iff, newly_eq_true_iff, newly_eq_true_iff,
      status_of_frontless hentry, validity_of_frontless hentry,
      staleDependency_congr hentries (links_of_frontless hentry)]
  quiet := by
    intro entries entry hquiet
    rcases invalidateEntry_cases environment through entries entry with
      ⟨hstale, -, heq⟩ | ⟨-, -, heq⟩ | ⟨-, -, heq⟩
    · rw [heq]
      dsimp only
      rw [frontless_withHostStatus, ← hstale]
      rfl
    · rw [heq] at hquiet
      cases hquiet
    · rw [heq]
  before := by
    intro entries entry hnewly
    have husable := (newly_eq_true_iff.mp hnewly).1
    simp [isUsable, frontless, husable]
  after := by
    intro entries entry hnewly
    rcases invalidateEntry_cases environment through entries entry with
      ⟨-, -, heq⟩ | ⟨-, -, heq⟩ | ⟨-, -, heq⟩
    · rw [heq] at hnewly
      cases hnewly
    · rw [heq]
      rfl
    · rw [heq] at hnewly
      cases hnewly

theorem usableCount_le (entries : List WorkingEntry) :
    unmarkedCount frontless isUsable entries ≤ entries.length :=
  List.countP_le_length

theorem settled_invalidateEntries (environment : WorkingEnvironment)
    (through : Nat) (entries : List WorkingEntry) :
    Settled (invalidateEntry environment through)
      (invalidateEntries environment through entries) :=
  settled_passes (marks_invalidateEntry environment through)
    (usableCount_le entries)

/-- A settled list stays settled, whatever the frontier. -/
theorem settled_frontier {through' : Nat}
    (hsettled : Settled (invalidateEntry environment through) entries) :
    Settled (invalidateEntry environment through') entries := by
  intro entry hmem
  have hquiet := hsettled entry hmem
  rw [Bool.eq_false_iff, ne_eq, newly_eq_true_iff] at hquiet ⊢
  exact hquiet

end Visits

/-! ### What becomes stale -/

/-- What the visits have made of an entry of the list that they started from. -/
inductive Invalidated (entries : List WorkingEntry)
    (environment : WorkingEnvironment) (through : Nat) :
    WorkingEntry → WorkingEntry → Prop
  | kept (entry : WorkingEntry) :
      Invalidated entries environment through entry entry
  | refreshed (entry : WorkingEntry) (hstale : entry.status = .stale)
      (hfails : entry.validity.holds environment = false) :
      Invalidated entries environment through entry
        (entry.withHostStatus .stale through)
  | marked (entry : WorkingEntry) (husable : unusable entry.status = false)
      (hdoomed : Doomed entries environment entry) :
      Invalidated entries environment through entry
        (entry.withHostStatus .stale through)

section Reach

variable {environment : WorkingEnvironment} {through : Nat}
  {entries current : List WorkingEntry} {entry after : WorkingEntry}
  {id : ContextNodeId}

theorem id_of_invalidated
    (h : Invalidated entries environment through entry after) :
    after.id = entry.id := by
  cases h <;> rfl

theorem links_of_invalidated
    (h : Invalidated entries environment through entry after) :
    after.links = entry.links := by
  cases h <;> rfl

theorem validity_of_invalidated
    (h : Invalidated entries environment through entry after) :
    after.validity = entry.validity := by
  cases h <;> rfl

/-- What is still usable was left as it is. -/
theorem eq_of_usable (h : Invalidated entries environment through entry after)
    (husable : unusable after.status = false) : after = entry := by
  cases h with
  | kept => rfl
  | refreshed => cases husable
  | marked => cases husable

theorem entryOf_eq_some_iff (hsorted : Sorted WorkingEntry.id entries) :
    entryOf entries id = some entry ↔ entry ∈ entries ∧ entry.id = id :=
  lookup_eq_some_iff hsorted

theorem rel_entryOf (hsorted : Sorted WorkingEntry.id entries)
    (hcurrent : List.Forall₂ (Invalidated entries environment through) entries
      current) (id : ContextNodeId) :
    Option.Rel (Invalidated entries environment through) (entryOf entries id)
      (entryOf current id) :=
  rel_lookup hsorted hcurrent fun _ _ => id_of_invalidated

/-- An entry with a stale dependency reaches a broken one. -/
theorem doomed_of_staleDependency (hsorted : Sorted WorkingEntry.id entries)
    (hcurrent : List.Forall₂ (Invalidated entries environment through) entries
      current) (hmem : entry ∈ entries)
    (hdependency : staleDependency current entry = true) :
    Doomed entries environment entry := by
  obtain ⟨dependency, hlink, hfound⟩ := List.any_eq_true.mp hdependency
  have hstep : DependsOn entries entry.id dependency :=
    ⟨entry, (entryOf_eq_some_iff hsorted).mpr ⟨hmem, rfl⟩, hlink⟩
  have hrel := rel_entryOf hsorted hcurrent dependency
  cases htarget : entryOf entries dependency with
  | none =>
      refine .inr ⟨dependency, .single hstep, ?_⟩
      intro target h
      rw [htarget] at h
      cases h
  | some target =>
      have hbroken (h : unusable target.status = true ∨
          target.validity.holds environment = false) :
          Doomed entries environment entry := by
        refine .inr ⟨dependency, .single hstep, ?_⟩
        intro other hother
        rw [htarget, Option.some.injEq] at hother
        rw [← hother]
        exact h
      cases hnow : entryOf current dependency with
      | none =>
          rw [htarget, hnow] at hrel
          cases hrel
      | some now =>
          rw [htarget, hnow] at hrel
          rw [hnow] at hfound
          cases hrel with
          | some hinvalidated =>
              cases hinvalidated with
              | kept => exact hbroken (.inl hfound)
              | refreshed hstale hfails => exact hbroken (.inr hfails)
              | marked husable hdoomed =>
                  rcases hdoomed with hfails | ⟨last, hpath, hlast⟩
                  · exact hbroken (.inr hfails)
                  · have hid := ((entryOf_eq_some_iff hsorted).mp htarget).2
                    rw [hid] at hpath
                    exact .inr ⟨last, .head hstep hpath, hlast⟩

/-- One visit of the loop. -/
theorem invalidated_of_visit (hsorted : Sorted WorkingEntry.id entries)
    (hcurrent : List.Forall₂ (Invalidated entries environment through) entries
      current) {i : Nat} {a : WorkingEntry} (ha : current[i]? = some a) :
    List.Forall₂ (Invalidated entries environment through) entries
      (current.set i (invalidateEntry environment through current a).1) := by
  obtain ⟨entry, hentry, hrow⟩ := forall₂_get_right hcurrent ha
  have hmem := List.mem_of_getElem? hentry
  refine forall₂_set_right hcurrent hentry ?_
  rcases invalidateEntry_cases environment through current a with
    ⟨hstale, hfails, heq⟩ | ⟨husable, hreason, heq⟩ | ⟨-, -, heq⟩
  · rw [heq]
    rw [validity_of_invalidated hrow] at hfails
    cases hrow with
    | kept => exact .refreshed a hstale hfails
    | refreshed hbefore _ => exact .refreshed entry hbefore hfails
    | marked husable hdoomed => exact .marked entry husable hdoomed
  · rw [heq]
    have hsame := eq_of_usable hrow husable
    subst hsame
    refine .marked a husable ?_
    rcases hreason with hfails | hdependency
    · exact .inl hfails
    · exact doomed_of_staleDependency hsorted hcurrent hmem hdependency
  · rw [heq]
    exact hrow

theorem invalidated_passes (hsorted : Sorted WorkingEntry.id entries)
    (bound : Nat) :
    List.Forall₂ (Invalidated entries environment through) entries
      (passes (invalidateEntry environment through) bound entries) := by
  refine passes_invariant (fun current =>
    List.Forall₂ (Invalidated entries environment through) entries current)
    (fun current i a hcurrent ha => invalidated_of_visit hsorted hcurrent ha) ?_
    bound
  exact List.forall₂_same.mpr fun entry _ => .kept entry

/-- In a settled list, what a usable entry reaches is retained, usable and valid. -/
theorem intact_of_reached
    (hsettled : Settled (invalidateEntry environment through) current)
    (hentry : entryOf current id = some entry)
    (husable : unusable entry.status = false) {target : ContextNodeId}
    (hpath : Relation.TransGen (DependsOn current) id target) :
    ∃ reached, entryOf current target = some reached ∧
      unusable reached.status = false ∧
      reached.validity.holds environment = true := by
  have hcalm (other : WorkingEntry) (hmem : other ∈ current)
      (husable : unusable other.status = false) :
      other.validity.holds environment = true ∧
        staleDependency current other = false := by
    have hquiet := hsettled other hmem
    rw [Bool.eq_false_iff, ne_eq, newly_eq_true_iff, not_and_or, not_or] at hquiet
    simpa [husable] using hquiet
  have hnext (other : WorkingEntry) (hmem : other ∈ current)
      (husable : unusable other.status = false) (dependency : ContextNodeId)
      (hlink : dependency ∈ other.links.dependsOn) :
      ∃ reached, entryOf current dependency = some reached ∧
        unusable reached.status = false ∧
        reached.validity.holds environment = true := by
    have hnone := (hcalm other hmem husable).2
    unfold staleDependency at hnone
    rw [List.any_eq_false] at hnone
    have hgood := hnone dependency hlink
    cases hfound : entryOf current dependency with
    | none => simp [hfound] at hgood
    | some reached =>
        have hstatus : unusable reached.status = false := by
          simpa [hfound] using hgood
        exact ⟨reached, rfl, hstatus,
          (hcalm reached (mem_of_lookup hfound).1 hstatus).1⟩
  induction hpath with
  | single hstep =>
      obtain ⟨other, hother, hlink⟩ := hstep
      rw [hentry, Option.some.injEq] at hother
      subst hother
      exact hnext entry (mem_of_lookup hentry).1 husable _ hlink
  | tail _ hstep ih =>
      obtain ⟨reached, hreached, hstatus, -⟩ := ih
      obtain ⟨other, hother, hlink⟩ := hstep
      rw [hreached, Option.some.injEq] at hother
      subst hother
      exact hnext reached (mem_of_lookup hreached).1 hstatus _ hlink

/-- At the end, an entry that was usable and doomed is not usable any more. -/
theorem judged_of_invalidated (hsorted : Sorted WorkingEntry.id entries)
    (hcurrent : List.Forall₂ (Invalidated entries environment through) entries
      current)
    (hsettled : Settled (invalidateEntry environment through) current)
    (hafter : entryOf current entry.id = some after)
    (hrow : Invalidated entries environment through entry after) :
    Judged entries environment through entry after where
  superseded := by
    intro hsuperseded
    cases hrow with
    | kept => exact hsuperseded
    | refreshed hstale =>
        rw [hsuperseded] at hstale
        cases hstale
    | marked husable =>
        rw [hsuperseded] at husable
        cases husable
  body := by
    cases hrow with
    | kept => exact .inl rfl
    | refreshed | marked => exact .inr rfl
  stale := by
    constructor
    · intro hstale
      cases hrow with
      | kept => exact .inl hstale
      | refreshed hbefore => exact .inl hbefore
      | marked husable hdoomed => exact .inr ⟨husable, hdoomed⟩
    · rintro (hbefore | ⟨husable, hdoomed⟩)
      · cases hrow with
        | kept => exact hbefore
        | refreshed | marked => rfl
      · cases hrow with
        | refreshed | marked => rfl
        | kept =>
            -- a usable entry that is left is not doomed
            exfalso
            have hsorted' := hsorted.of_forall₂ hcurrent fun _ _ =>
              id_of_invalidated
            rcases hdoomed with hfails | ⟨target, hpath, hbroken⟩
            · have hquiet := hsettled entry (mem_of_lookup hafter).1
              rw [Bool.eq_false_iff, ne_eq, newly_eq_true_iff] at hquiet
              exact hquiet ⟨husable, .inl hfails⟩
            · have hpath' : Relation.TransGen (DependsOn current) entry.id target := by
                refine Relation.TransGen.mono ?_ _ _ hpath
                rintro id next ⟨other, hother, hlink⟩
                have hrel := rel_entryOf hsorted hcurrent id
                cases hnow : entryOf current id with
                | none =>
                    rw [hother, hnow] at hrel
                    cases hrel
                | some now =>
                    rw [hother, hnow] at hrel
                    cases hrel with
                    | some hinvalidated =>
                        refine ⟨now, hnow, ?_⟩
                        rw [links_of_invalidated hinvalidated]
                        exact hlink
              obtain ⟨reached, hreached, hstatus, hvalid⟩ :=
                intact_of_reached hsettled hafter husable hpath'
              have hrel := rel_entryOf hsorted hcurrent target
              cases hold : entryOf entries target with
              | none =>
                  rw [hold, hreached] at hrel
                  cases hrel
              | some other =>
                  rw [hold, hreached] at hrel
                  cases hrel with
                  | some hinvalidated =>
                      have hsame := eq_of_usable hinvalidated hstatus
                      subst hsame
                      rcases hbroken reached hold with hbad | hbad
                      · rw [hstatus] at hbad
                        cases hbad
                      · rw [hvalid] at hbad
                        cases hbad

/-- Invalidation is exact: further passes and a second application change no
status, and in a sorted list what is stale after it is what was stale before or was
usable and doomed. -/
theorem invalidation_exact (entries : List WorkingEntry)
    (environment : WorkingEnvironment) (through : Nat) :
    (∀ more, statuses (passes (invalidateEntry environment through)
        (entries.length + more) entries) =
      statuses (invalidateEntries environment through entries)) ∧
    (∀ later, statuses (invalidateEntries environment later
        (invalidateEntries environment through entries)) =
      statuses (invalidateEntries environment through entries)) ∧
    (Sorted WorkingEntry.id entries →
      List.Forall₂ (Judged entries environment through) entries
        (invalidateEntries environment through entries)) := by
  refine ⟨?_, ?_, ?_⟩
  · intro more
    exact statuses_of_frontless (view_passes_add
      (marks_invalidateEntry environment through) (usableCount_le entries) more)
  · intro later
    exact statuses_of_frontless (view_passes_of_settled
      (marks_invalidateEntry environment later)
      (settled_frontier (settled_invalidateEntries environment through entries)) _)
  · intro hsorted
    have hcurrent := @invalidated_passes environment through entries hsorted
      entries.length
    have hsettled := settled_invalidateEntries environment through entries
    have hsorted' := hsorted.of_forall₂ hcurrent fun _ _ => id_of_invalidated
    refine forall₂_iff_getElem?.mpr ⟨hcurrent.length_eq, ?_⟩
    intro i entry after hentry hafter
    have hrow := (forall₂_iff_getElem?.mp hcurrent).2 i entry after hentry hafter
    refine judged_of_invalidated hsorted hcurrent hsettled ?_ hrow
    exact (entryOf_eq_some_iff hsorted').mpr
      ⟨List.mem_of_getElem? hafter, id_of_invalidated hrow⟩

end Reach

/-! ### A chain against the order of the list -/

def smallId (value : Nat) : ContextNodeId := .ofNat value

def smallDigest (value : Nat) : Sha256Digest := .ofNat value

def smallObservation (value : Nat) : ObservationId :=
  if h : value ≠ 0 then ⟨value, h⟩ else ⟨1, Nat.one_ne_zero⟩

def smallLinks (source : Nat) (dependsOn : Option ContextNodeId) : WorkingLinks where
  supports := [smallObservation source]
  contradicts := []
  dependsOn := dependsOn.toList
  sourced := fun h => nomatch h.1
  canonical := by cases dependsOn <;> rfl

/-- An assertion that holds as long as the candidate is the given one. -/
def smallEntry (id : ContextNodeId) (links : WorkingLinks)
    (candidate : Option Sha256Digest) : WorkingEntry :=
  ⟨id, .assertion, .opened, ⟨[0x61], smallDigest 0, by decide⟩, links,
    ⟨none, candidate, [], false, WorkingValidity.ascending_nil⟩, none, none, none, 0⟩

def smallBinding : WorkingBinding :=
  ⟨smallId 1, smallId 1, smallId 1, .writer, 0⟩

def smallEnvironment (candidate : Sha256Digest) : WorkingEnvironment :=
  ⟨smallBinding, candidate, [], WorkingValidity.ascending_nil⟩

/-- The first entry depends on the second, and that one on the third, which holds
for another candidate only. -/
def smallChain : List WorkingEntry :=
  [smallEntry (smallId 1) (smallLinks 1 (smallId 2)) none,
    smallEntry (smallId 2) (smallLinks 1 (smallId 3)) none,
    smallEntry (smallId 3) (smallLinks 1 none) (some (smallDigest 1))]

theorem invalidation_exact_of_chain :
    statuses (invalidateEntries (smallEnvironment (smallDigest 0)) 1 smallChain) =
        [.stale, .stale, .stale] ∧
      List.Forall₂ (Judged smallChain (smallEnvironment (smallDigest 0)) 1)
        smallChain
        (invalidateEntries (smallEnvironment (smallDigest 0)) 1 smallChain) :=
  ⟨by decide, (invalidation_exact _ _ _).2.2 (ascending_iff.mp rfl)⟩

end Peritus.Context.Invalidation
