import Peritus.Collections
import Peritus.Review.Completion

/-!
Oscillation.  The report groups the cycles of a run by their binding, in the order
in which the bindings were first submitted for, and compares the last two groups.
They are the last two visits with a submission as long as no submission is made for
a binding that an earlier visit was submitted for.
-/

namespace Peritus.Review.Oscillation

open Peritus.Types Collections SortedTable State Canonical
open Reports Reducer Runs Edits Findings Completion

/-! ### The visits of a run -/

/-- The time that a run spends on a binding: its digest, and the submissions
accepted meanwhile. -/
structure Visit where
  digest : Sha256Digest
  submissions : List ReviewSubmission

namespace Visit

def findings (visit : Visit) : List Finding :=
  visit.submissions.flatMap ReviewSubmission.findings

def fingerprints (visit : Visit) : Finset Sha256Digest :=
  (visit.findings.map Finding.normalizedDigest).toFinset

/-- The rank of the greatest severity. -/
def severity (visit : Visit) : Option Nat :=
  (visit.findings.map fun finding => finding.severity.rank).max?

def isSubmitted (visit : Visit) : Bool := !visit.submissions.isEmpty

end Visit

def visitOf (visits : List Visit) : ReviewEventKind → List Visit
  | .runStarted binding _ | .revisionAdvanced binding =>
      ⟨binding.digest, []⟩ :: visits
  | .reviewSubmitted submission =>
      match visits with
      | [] => []
      | latest :: earlier =>
          { latest with submissions := latest.submissions ++ [submission] } ::
            earlier
  | _ => visits

/-- The visits of a run, the latest first. -/
def visits (events : List ReviewEvent) : List Visit :=
  events.foldl (fun visits event => visitOf visits event.kind) []

def submittedVisits (events : List ReviewEvent) : List Visit :=
  (visits events).filter Visit.isSubmitted

/-! ### The claim -/

/-- What the last two sets of fingerprints show, and the greatest severities. -/
def Shows (previous latest : Finset Sha256Digest) (before after : Option Nat) :
    OscillationKind → Prop
  | .repeatedFindingSet => latest.Nonempty ∧ previous = latest
  | .severityRegression =>
      ∃ low high, before = some low ∧ after = some high ∧ low < high
  | .severityStagnation => ∃ rank, before = some rank ∧ after = some rank
  | _ => False

/-- The kinds that a comparison of two visits can show. -/
def comparisons : List OscillationKind :=
  [.repeatedFindingSet, .severityStagnation, .severityRegression]

/-- A report shows what the last two submitted visits show, and no more. -/
def Detects (events : List ReviewEvent) (report : OscillationReport) : Prop :=
  ∀ kind ∈ comparisons, kind ∈ report.kinds ↔
    ∃ latest previous earlier,
      submittedVisits events = latest :: previous :: earlier ∧
        Shows previous.fingerprints latest.fingerprints previous.severity
          latest.severity kind

/-- No submission is made for a binding that an earlier visit was submitted for. -/
def NeverReturns (events : List ReviewEvent) : Prop :=
  ((submittedVisits events).map Visit.digest).Nodup

/-! ### Groups -/

def findingsOf (cycle : ReviewCycle) : List Finding :=
  cycle.submission.toList.flatMap ReviewSubmission.findings

/-- The group of the findings of one binding. -/
def groupOf (digest : Sha256Digest) (findings : List Finding) : BindingGroup :=
  findings.foldl BindingGroup.add ⟨digest, [], none⟩

section Groups

variable {digest : Sha256Digest} {findings : List Finding}
  {group : BindingGroup} {groups : List BindingGroup} {cycle : ReviewCycle}
  {cycles : List ReviewCycle} {visit : Visit}

theorem digest_foldl_add (findings : List Finding) (group : BindingGroup) :
    (findings.foldl BindingGroup.add group).digest = group.digest := by
  induction findings generalizing group with
  | nil => rfl
  | cons finding rest ih => exact ih (group.add finding)

@[simp] theorem digest_groupOf : (groupOf digest findings).digest = digest :=
  digest_foldl_add findings _

theorem fingerprints_foldl_add (findings : List Finding) (group : BindingGroup) :
    (findings.foldl BindingGroup.add group).fingerprints =
      group.fingerprints ++ findings.map Finding.normalizedDigest := by
  induction findings generalizing group with
  | nil => simp
  | cons finding rest ih =>
      rw [List.foldl_cons, ih]
      simp [BindingGroup.add]

theorem fingerprints_groupOf : (groupOf digest findings).fingerprints =
    findings.map Finding.normalizedDigest :=
  fingerprints_foldl_add findings _

theorem rank_maxSeverity (left right : FindingSeverity) :
    (maxSeverity left right).rank = max left.rank right.rank := by
  unfold maxSeverity
  split
  · next hle => rw [Nat.max_eq_right hle]
  · next hlt => rw [Nat.max_eq_left (by omega)]

theorem severity_foldl_add {severity : FindingSeverity}
    (hseverity : group.severity = some severity) :
    (findings.foldl BindingGroup.add group).severity.map FindingSeverity.rank =
      some ((findings.map fun finding => finding.severity.rank).foldl max
        severity.rank) := by
  induction findings generalizing group severity with
  | nil => simp [hseverity]
  | cons finding rest ih =>
      have hadded : (group.add finding).severity =
          some (maxSeverity severity finding.severity) := by
        simp [BindingGroup.add, hseverity]
      rw [List.foldl_cons, ih hadded, rank_maxSeverity]
      rfl

theorem severity_groupOf :
    (groupOf digest findings).severity.map FindingSeverity.rank =
      (findings.map fun finding => finding.severity.rank).max? := by
  cases findings with
  | nil => rfl
  | cons finding rest =>
      exact @severity_foldl_add rest (BindingGroup.add ⟨digest, [], none⟩ finding)
        finding.severity rfl

/-- The first submission of a binding opens its group. -/
theorem addCycle_new
    (hnew : ∀ group ∈ groups, group.digest ≠ cycle.assignment.bindingDigest) :
    addCycle groups cycle =
      groups ++ [groupOf cycle.assignment.bindingDigest (findingsOf cycle)] := by
  have hunknown : (groups.any fun group =>
      decide (group.digest = cycle.assignment.bindingDigest)) = false := by
    simpa using hnew
  unfold addCycle
  dsimp only
  rw [hunknown, if_neg Bool.false_ne_true, List.map_append]
  congr 1
  · refine (List.map_congr_left ?_).trans (List.map_id groups)
    intro group hmem
    rw [if_neg (hnew group hmem)]
    rfl
  · simp [groupOf, findingsOf]

/-- The next ones go to it as long as it is the last group. -/
theorem addCycle_last
    (hnew : ∀ group ∈ groups, group.digest ≠ cycle.assignment.bindingDigest)
    (hlast : group.digest = cycle.assignment.bindingDigest) :
    addCycle (groups ++ [group]) cycle =
      groups ++ [(findingsOf cycle).foldl BindingGroup.add group] := by
  have hknown : ((groups ++ [group]).any fun group =>
      decide (group.digest = cycle.assignment.bindingDigest)) = true := by
    simp [hlast]
  unfold addCycle
  dsimp only
  rw [hknown, if_pos rfl, List.map_append]
  congr 1
  · refine (List.map_congr_left ?_).trans (List.map_id groups)
    intro other hmem
    rw [if_neg (hnew other hmem)]
    rfl
  · simp [hlast, findingsOf]

theorem foldl_addCycle_last (hnew : ∀ group ∈ groups, group.digest ≠ digest)
    (hcycles : ∀ cycle ∈ cycles, cycle.assignment.bindingDigest = digest) :
    cycles.foldl addCycle (groups ++ [groupOf digest findings]) =
      groups ++ [groupOf digest (findings ++ cycles.flatMap findingsOf)] := by
  induction cycles generalizing findings with
  | nil => simp
  | cons cycle rest ih =>
      have hcycle := hcycles cycle List.mem_cons_self
      have hadded : (findingsOf cycle).foldl BindingGroup.add
          (groupOf digest findings) =
            groupOf digest (findings ++ findingsOf cycle) :=
        List.foldl_append.symm
      rw [List.foldl_cons, addCycle_last (by rwa [hcycle]) (by simp [hcycle]),
        hadded, List.flatMap_cons, ← List.append_assoc]
      exact ih fun other hmem => hcycles other (List.mem_cons_of_mem _ hmem)

/-- The cycles of a binding that was not submitted for before. -/
theorem foldl_addCycle (hnew : ∀ group ∈ groups, group.digest ≠ digest)
    (hcycles : ∀ cycle ∈ cycles, cycle.assignment.bindingDigest = digest)
    (hsome : cycles ≠ []) :
    cycles.foldl addCycle groups =
      groups ++ [groupOf digest (cycles.flatMap findingsOf)] := by
  cases cycles with
  | nil => exact absurd rfl hsome
  | cons cycle rest =>
      have hcycle := hcycles cycle List.mem_cons_self
      rw [List.foldl_cons, addCycle_new (by rwa [hcycle]), hcycle]
      exact foldl_addCycle_last hnew fun other hmem =>
        hcycles other (List.mem_cons_of_mem _ hmem)

end Groups

/-! ### What two groups show -/

theorem sortDedup_eq_iff {α : Type} [DecidableEq α] {key : α → Nat}
    (hinjective : Function.Injective key) {values values' : List α} :
    sortDedup key values = sortDedup key values' ↔
      ∀ a, a ∈ values ↔ a ∈ values' := by
  constructor
  · intro hsame a
    rw [← @mem_sortDedup _ _ key values, hsame, mem_sortDedup]
  · intro hmem
    have hsorted (values : List α) :
        (sortDedup key values).Pairwise fun a b => key a ≤ key b :=
      (List.pairwise_insertionSort (fun a b => key a ≤ key b) values).sublist
        (List.dedup_sublist _)
    have hperm : (sortDedup key values).Perm (sortDedup key values') := by
      refine (List.perm_ext_iff_of_nodup (List.nodup_dedup _)
        (List.nodup_dedup _)).mpr ?_
      intro a
      rw [← sortDedup, ← sortDedup, mem_sortDedup, mem_sortDedup]
      exact hmem a
    refine hperm.eq_of_pairwise ?_ (hsorted values) (hsorted values')
    intro a b _ _ hab hba
    exact hinjective (Nat.le_antisymm hab hba)

theorem toFinset_sortDedup {α : Type} [DecidableEq α] {key : α → Nat}
    (values : List α) : (sortDedup key values).toFinset = values.toFinset := by
  ext a
  rw [List.mem_toFinset, List.mem_toFinset, mem_sortDedup]

theorem value_injective : Function.Injective Sha256Digest.value := by
  rintro ⟨value, _⟩ ⟨value', _⟩ rfl
  rfl

section Compared

variable {group previous current : BindingGroup} {groups rest : List BindingGroup}
  {kind : OscillationKind}

/-- A group with its fingerprints in order, each once. -/
def tidied (group : BindingGroup) : BindingGroup :=
  { group with fingerprints := sortDedup Sha256Digest.value group.fingerprints }

def GroupsShow (previous current : BindingGroup) (kind : OscillationKind) : Prop :=
  Shows previous.fingerprints.toFinset current.fingerprints.toFinset
    (previous.severity.map FindingSeverity.rank)
    (current.severity.map FindingSeverity.rank) kind

theorem tidied_fingerprints_eq_iff :
    (tidied previous).fingerprints = (tidied current).fingerprints ↔
      previous.fingerprints.toFinset = current.fingerprints.toFinset := by
  rw [tidied, tidied, sortDedup_eq_iff value_injective, Finset.ext_iff]
  simp only [List.mem_toFinset]

theorem tidied_isEmpty_iff : (tidied current).fingerprints.isEmpty = false ↔
    current.fingerprints.toFinset.Nonempty := by
  rw [← @toFinset_sortDedup _ _ Sha256Digest.value, List.toFinset_nonempty_iff]
  cases h : sortDedup Sha256Digest.value current.fingerprints <;> simp [tidied, h]

theorem mem_comparedKinds_of_two (hkind : kind ∈ comparisons)
    (hgroups : groups.reverse = current :: previous :: rest) :
    kind ∈ comparedKinds (groups.map tidied) ↔
      GroupsShow previous current kind := by
  have hreverse : (groups.map tidied).reverse =
      tidied current :: tidied previous :: rest.map tidied := by
    rw [← List.map_reverse, hgroups]
    rfl
  have hbefore : (tidied previous).severity = previous.severity := rfl
  have hafter : (tidied current).severity = current.severity := rfl
  unfold comparedKinds GroupsShow
  rw [hreverse]
  dsimp only
  rw [hbefore, hafter, List.mem_append]
  simp only [comparisons, List.mem_cons, List.not_mem_nil, or_false] at hkind
  rcases hkind with rfl | rfl | rfl
  · simp only [Shows, ← tidied_isEmpty_iff, ← tidied_fingerprints_eq_iff]
    grind
  · cases previous.severity <;> cases current.severity <;> grind [Shows]
  · cases previous.severity <;> cases current.severity <;> grind [Shows]

theorem mem_comparedKinds (hkind : kind ∈ comparisons) :
    kind ∈ comparedKinds (groups.map tidied) ↔
      ∃ current previous rest, groups.reverse = current :: previous :: rest ∧
        GroupsShow previous current kind := by
  constructor
  · intro hmem
    cases hgroups : groups.reverse with
    | nil => simp [comparedKinds, ← List.map_reverse, hgroups] at hmem
    | cons current others =>
        cases others with
        | nil => simp [comparedKinds, ← List.map_reverse, hgroups] at hmem
        | cons previous rest =>
            exact ⟨current, previous, rest, rfl,
              (mem_comparedKinds_of_two hkind hgroups).mp hmem⟩
  · rintro ⟨current, previous, rest, hgroups, hshow⟩
    exact (mem_comparedKinds_of_two hkind hgroups).mpr hshow

theorem mem_kinds_iff {binding : ReviewBinding} {cycles : List ReviewCycle}
    {findings : List Finding} {ready : Bool} (hkind : kind ∈ comparisons) :
    kind ∈ (evaluateOscillation binding cycles findings ready).kinds ↔
      kind ∈ comparedKinds (bindingGroups cycles) := by
  have hother : kind ≠ .disagreement ∧ kind ≠ .reviewCyclesExhausted := by
    constructor <;> rintro rfl <;> simp [comparisons] at hkind
  unfold evaluateOscillation
  dsimp only
  rw [mem_sortDedup, List.mem_append, List.mem_append]
  constructor
  · rintro ((hmem | hmem) | hmem)
    · exact hmem
    · split at hmem
      · exact absurd (List.mem_singleton.mp hmem) hother.1
      · cases hmem
    · split at hmem
      · exact absurd (List.mem_singleton.mp hmem) hother.2
      · cases hmem
  · intro hmem
    exact .inl (.inl hmem)

end Compared

/-! ### The cycles of a visit -/

/-- The cycles of a visit: they are bound to its binding, and hold what was
submitted. -/
structure Recorded (block : List ReviewCycle) (visit : Visit) : Prop where
  digest : ∀ cycle ∈ block, cycle.assignment.bindingDigest = visit.digest
  submissions : ∀ submission, submission ∈ visit.submissions ↔
    ∃ cycle ∈ block, cycle.submission = some submission

/-- A group holds what was submitted in a visit. -/
structure Matches (group : BindingGroup) (visit : Visit) : Prop where
  digest : group.digest = visit.digest
  fingerprints : group.fingerprints.toFinset = visit.fingerprints
  severity : group.severity.map FindingSeverity.rank = visit.severity

def holdsSubmission (cycle : ReviewCycle) : Bool := cycle.submission.isSome

section Visits

variable {block : List ReviewCycle} {blocks : List (List ReviewCycle)}
  {visit : Visit} {visits : List Visit}

theorem filter_eq_nil_iff (hrecorded : Recorded block visit) :
    block.filter holdsSubmission = [] ↔ visit.isSubmitted = false := by
  rw [List.filter_eq_nil_iff]
  unfold Visit.isSubmitted
  rw [Bool.not_eq_false', List.isEmpty_iff, List.eq_nil_iff_forall_not_mem]
  constructor
  · intro hnone submission hmem
    obtain ⟨cycle, hcycle, hsubmission⟩ := (hrecorded.submissions _).mp hmem
    exact hnone cycle hcycle (by simp [holdsSubmission, hsubmission])
  · intro hempty cycle hmem hsome
    obtain ⟨submission, hsubmission⟩ := Option.isSome_iff_exists.mp hsome
    exact hempty submission
      ((hrecorded.submissions _).mpr ⟨cycle, hmem, hsubmission⟩)

theorem mem_findings_iff (hrecorded : Recorded block visit) {finding : Finding} :
    finding ∈ (block.filter holdsSubmission).flatMap findingsOf ↔
      finding ∈ visit.findings := by
  unfold Visit.findings
  rw [List.mem_flatMap, List.mem_flatMap]
  constructor
  · rintro ⟨cycle, hcycle, hfinding⟩
    obtain ⟨submission, hsubmission, hmem⟩ := List.mem_flatMap.mp hfinding
    refine ⟨submission, ?_, hmem⟩
    exact (hrecorded.submissions _).mpr ⟨cycle, List.mem_of_mem_filter hcycle,
      Option.mem_toList.mp hsubmission⟩
  · rintro ⟨submission, hsubmission, hmem⟩
    obtain ⟨cycle, hcycle, hsome⟩ := (hrecorded.submissions _).mp hsubmission
    refine ⟨cycle, List.mem_filter.mpr ⟨hcycle, ?_⟩, ?_⟩
    · rw [holdsSubmission, hsome]
      rfl
    · exact List.mem_flatMap.mpr ⟨submission, Option.mem_toList.mpr hsome, hmem⟩

/-- The greatest value depends on the values, not on their order. -/
theorem max?_congr {ranks ranks' : List Nat}
    (hsame : ∀ rank, rank ∈ ranks ↔ rank ∈ ranks') : ranks.max? = ranks'.max? := by
  ext rank
  rw [List.max?_eq_some_iff, List.max?_eq_some_iff, hsame]
  simp only [hsame]

theorem matches_of_recorded (hrecorded : Recorded block visit) :
    Matches (groupOf visit.digest
      ((block.filter holdsSubmission).flatMap findingsOf)) visit where
  digest := digest_groupOf
  fingerprints := by
    ext fingerprint
    rw [fingerprints_groupOf]
    unfold Visit.fingerprints
    simp only [List.mem_toFinset, List.mem_map, mem_findings_iff hrecorded]
  severity := by
    rw [severity_groupOf]
    refine max?_congr ?_
    intro rank
    simp only [List.mem_map, mem_findings_iff hrecorded]

/-- The groups are those of the submitted visits, as long as none of them is for
the binding of another. -/
theorem groups_of_recorded (hrecorded : List.Forall₂ Recorded blocks visits)
    (hnodup : ((visits.filter Visit.isSubmitted).map Visit.digest).Nodup) :
    List.Forall₂ Matches ((blocks.reverse.flatten.filter holdsSubmission).foldl
      addCycle []).reverse (visits.filter Visit.isSubmitted) := by
  induction hrecorded with
  | nil => exact .nil
  | @cons block visit blocks visits hblock hrest ih =>
      rw [List.reverse_cons, List.flatten_append, List.flatten_singleton,
        List.filter_append, List.foldl_append]
      cases hsubmitted : visit.isSubmitted with
      | false =>
          rw [List.filter_cons_of_neg (by simp [hsubmitted])] at hnodup ⊢
          rw [(filter_eq_nil_iff hblock).mpr hsubmitted]
          exact ih hnodup
      | true =>
          rw [List.filter_cons_of_pos hsubmitted] at hnodup ⊢
          rw [List.map_cons, List.nodup_cons] at hnodup
          have hgroups := ih hnodup.2
          have hnew : ∀ group ∈ (blocks.reverse.flatten.filter
              holdsSubmission).foldl addCycle [], group.digest ≠ visit.digest := by
            intro group hmem hdigest
            obtain ⟨other, hother, hmatches⟩ := forall₂_mem_left hgroups
              (List.mem_reverse.mpr hmem)
            refine hnodup.1 (List.mem_map.mpr ⟨other, hother, ?_⟩)
            rw [← hmatches.digest, hdigest]
          rw [foldl_addCycle hnew
            (fun cycle hmem => hblock.digest cycle (List.mem_of_mem_filter hmem))
            (fun hnil => by
              rw [(filter_eq_nil_iff hblock).mp hnil] at hsubmitted
              cases hsubmitted), List.reverse_append]
          exact .cons (matches_of_recorded hblock) hgroups

theorem shows_iff {group group' : BindingGroup} {visit' : Visit}
    {kind : OscillationKind} (hmatches : Matches group visit)
    (hmatches' : Matches group' visit') : GroupsShow group group' kind ↔
      Shows visit.fingerprints visit'.fingerprints visit.severity visit'.severity
        kind := by
  unfold GroupsShow
  rw [hmatches.fingerprints, hmatches'.fingerprints, hmatches.severity,
    hmatches'.severity]

/-- What the last two groups show is what the last two visits show. -/
theorem shown_iff {groups : List BindingGroup} {kind : OscillationKind}
    (hmatches : List.Forall₂ Matches groups visits) :
    (∃ current previous rest, groups = current :: previous :: rest ∧
      GroupsShow previous current kind) ↔
    ∃ latest previous earlier, visits = latest :: previous :: earlier ∧
      Shows previous.fingerprints latest.fingerprints previous.severity
        latest.severity kind := by
  constructor
  · rintro ⟨current, previous, rest, rfl, hshow⟩
    cases hmatches with
    | cons hlatest hothers =>
        cases hothers with
        | cons hprevious _ =>
            exact ⟨_, _, _, rfl, (shows_iff hprevious hlatest).mp hshow⟩
  · rintro ⟨latest, previous, earlier, rfl, hshow⟩
    cases hmatches with
    | cons hlatest hothers =>
        cases hothers with
        | cons hprevious _ =>
            exact ⟨_, _, _, rfl, (shows_iff hprevious hlatest).mpr hshow⟩

end Visits

/-! ### The visits of the events -/

section Events

variable {sha256 : List UInt8 → Sha256Digest} {state next : ReviewRunState}
  {event : ReviewEvent} {events : List ReviewEvent} {latest : Visit}
  {earlier : List Visit} {before since : List ReviewCycle}

theorem visits_append :
    visits (events ++ [event]) = visitOf (visits events) event.kind := by
  unfold visits
  rw [List.foldl_append]
  rfl

/-- An event that does not replace the binding goes to the latest visit. -/
theorem visitOf_of_kept {kind : ReviewEventKind} (hkept : isAdvance kind = false)
    (hstart : ∀ binding limits, kind ≠ .runStarted binding limits) :
    visitOf (latest :: earlier) kind =
      { latest with
        submissions := latest.submissions ++ (submissionOf kind).toList } ::
          earlier := by
  cases kind with
  | runStarted binding limits => exact absurd rfl (hstart binding limits)
  | revisionAdvanced binding => cases hkept
  | reviewSubmitted submission => rfl
  | _ => simp [visitOf, submissionOf]

/-- The binding of a run, after an event. -/
theorem binding_of_step (hrun : ReviewRun sha256 events state)
    (hstep : Steps sha256 state event next) :
    (∃ binding, event.kind = .revisionAdvanced binding ∧
      next.binding = binding ∧
      next.cycles = (replaceBinding state binding).cycles) ∨
    (isAdvance event.kind = false ∧ next.binding = state.binding ∧
      ∀ binding limits, event.kind ≠ .runStarted binding limits) := by
  obtain ⟨applied, hstepped⟩ := exists_stepped hrun hstep
  have hbinding : next.binding = applied.binding := by
    rw [hstepped.successor]
    rfl
  have hcycles : next.cycles = applied.cycles := by
    rw [hstepped.successor]
    rfl
  rw [hbinding, hcycles]
  have hchanges := hstepped.changes
  generalize event.kind = kind at hchanges ⊢
  cases hchanges with
  | advanced binding hvalid hfresh => exact .inl ⟨binding, rfl, rfl, rfl⟩
  | recorded kind findingId finding record waivers hrecorded =>
      refine .inr ⟨(untimed_of_recorded hrecorded).advance, rfl, ?_⟩
      rintro binding limits rfl
      cases hrecorded
  | answered kind canonical closed target snapshots opening closing hanswered =>
      refine .inr ⟨(untimed_of_answered hanswered).advance, rfl, ?_⟩
      rintro binding limits rfl
      cases hanswered
  | ended kind terminalKind cause hends =>
      refine .inr ⟨(untimed_of_ends hends).advance, rfl, ?_⟩
      rintro binding limits rfl
      cases hends
  | _ => exact .inr ⟨rfl, rfl, fun _ _ h => nomatch h⟩

theorem visits_of_start (hstart : Starts sha256 event state) :
    visits [event] = [⟨state.binding.digest, []⟩] := by
  obtain ⟨command, hstart⟩ := hstart
  obtain ⟨binding, limits, -, hkind, -, rfl⟩ := start_eq_ok hstart
  simp [visits, visitOf, hkind, sealState, genesis]

theorem submissions_of_start (hstart : Starts sha256 event state) :
    submissions [event] = [] := by
  obtain ⟨command, hstart⟩ := hstart
  obtain ⟨binding, limits, -, hkind, -, rfl⟩ := start_eq_ok hstart
  simp [submissions, sinceAdvance, List.rtakeWhile, isAdvance, submissionOf, hkind]

/-- The latest visit is that of the binding, with the submissions since then. -/
theorem visits_of_run (hrun : ReviewRun sha256 events state) :
    ∃ earlier, visits events =
      ⟨state.binding.digest, submissions events⟩ :: earlier := by
  refine run_induction (fun events state => ∃ earlier, visits events =
    ⟨state.binding.digest, submissions events⟩ :: earlier) ?_ ?_ hrun
  · intro first initial hstart
    refine ⟨[], ?_⟩
    rw [visits_of_start hstart, submissions_of_start hstart]
  · rintro events state event next hrun ⟨earlier, hvisits⟩ hstep
    rw [visits_append, hvisits]
    rcases binding_of_step hrun hstep with
      ⟨binding, hkind, hbinding, -⟩ | ⟨hkept, hbinding, hstart⟩
    · have hadvance : isAdvance event.kind = true := by rw [hkind]; rfl
      rw [(sinceAdvance_advance events hadvance).2, hkind, hbinding]
      exact ⟨_, rfl⟩
    · rw [visitOf_of_kept hkept hstart, submissions_append hkept, hbinding]
      exact ⟨earlier, rfl⟩

/-- A cycle is submitted once. -/
theorem nodup_submissions_of_run (hrun : ReviewRun sha256 events state) :
    ((submissions events).map ReviewSubmission.cycleId).Nodup := by
  refine run_induction (fun events _ =>
    ((submissions events).map ReviewSubmission.cycleId).Nodup) ?_ ?_ hrun
  · intro first initial hstart
    rw [submissions_of_start hstart]
    exact List.nodup_nil
  · intro events state event next hrun hnodup hstep
    cases hadvance : isAdvance event.kind with
    | true =>
        rw [(sinceAdvance_advance events hadvance).2]
        exact List.nodup_nil
    | false =>
        rw [submissions_append hadvance]
        cases hsubmission : submissionOf event.kind with
        | none =>
            rw [Option.toList_none, List.append_nil]
            exact hnodup
        | some submission =>
            obtain ⟨before, since, hsplit⟩ := split_of_run hrun
            obtain ⟨applied, hstepped⟩ := exists_stepped hrun hstep
            have hkind : event.kind = .reviewSubmitted submission := by
              cases h : event.kind <;> rw [h] at hsubmission <;> cases hsubmission
              rfl
            have hchanges := hstepped.changes
            rw [hkind] at hchanges
            have hunsubmitted : submissionFor events submission.cycleId = none := by
              cases hchanges with
              | submitted _ cycle hvalid hcycle hcurrent hphase =>
                  obtain ⟨hsince, hnone⟩ :=
                    fresh_of_assigned hsplit (mem_of_cycle hcycle) hphase
                  rw [← id_of_cycle hcycle,
                    ← (hsplit.fresh cycle hsince).submission, hnone]
              | recorded _ _ _ _ _ hrecorded => cases hrecorded
              | answered _ _ _ _ _ _ _ hanswered => cases hanswered
              | ended _ _ _ hends => cases hends
            rw [Option.toList_some, List.map_append, List.nodup_append']
            refine ⟨hnodup, List.nodup_singleton _, ?_⟩
            intro cycleId hmem hagain
            obtain ⟨other, hother, hid⟩ := List.mem_map.mp hmem
            refine List.find?_eq_none.mp hunsubmitted other hother ?_
            exact decide_eq_true (hid.trans (List.mem_singleton.mp hagain))

/-- The cycles since the binding was last replaced are those of the latest visit. -/
theorem recorded_since (hrun : ReviewRun sha256 events state)
    (hsplit : Split events state before since) :
    Recorded since ⟨state.binding.digest, submissions events⟩ where
  digest := fun cycle hmem => (hsplit.fresh cycle hmem).digest
  submissions := by
    intro submission
    constructor
    · intro hmem
      obtain ⟨cycle, hcycle, hid⟩ := hsplit.known submission hmem
      refine ⟨cycle, hcycle, ?_⟩
      rw [(hsplit.fresh cycle hcycle).submission, hid]
      cases hfound : submissionFor events submission.cycleId with
      | none =>
          have hmissing := List.find?_eq_none.mp hfound submission hmem
          exact absurd (decide_eq_true rfl) hmissing
      | some found =>
          unfold submissionFor at hfound
          have hsame : found.cycleId = submission.cycleId := by
            simpa using List.find?_some hfound
          rw [List.inj_on_of_nodup_map (nodup_submissions_of_run hrun)
            (List.mem_of_find?_eq_some hfound) hmem hsame]
    · rintro ⟨cycle, hcycle, hsubmission⟩
      rw [(hsplit.fresh cycle hcycle).submission] at hsubmission
      exact List.mem_of_find?_eq_some hsubmission

/-- A replaced binding changes neither what the cycles are bound to nor what was
submitted. -/
theorem recorded_map {block : List ReviewCycle} {visit : Visit}
    {update : ReviewCycle → ReviewCycle} (hrecorded : Recorded block visit)
    (hassignment : ∀ cycle, (update cycle).assignment = cycle.assignment)
    (hsubmission : ∀ cycle, (update cycle).submission = cycle.submission) :
    Recorded (block.map update) visit where
  digest := by
    intro cycle hmem
    obtain ⟨row, hrow, rfl⟩ := List.mem_map.mp hmem
    rw [hassignment]
    exact hrecorded.digest row hrow
  submissions := by
    intro submission
    rw [hrecorded.submissions]
    constructor
    · rintro ⟨cycle, hmem, hsome⟩
      exact ⟨update cycle, List.mem_map_of_mem hmem,
        (hsubmission cycle).trans hsome⟩
    · rintro ⟨cycle, hmem, hsome⟩
      obtain ⟨row, hrow, rfl⟩ := List.mem_map.mp hmem
      exact ⟨row, hrow, (hsubmission row).symm.trans hsome⟩

/-- The cycles of a run, by its visits. -/
theorem recorded_of_run (hrun : ReviewRun sha256 events state) :
    ∃ before since blocks earlier, Split events state before since ∧
      visits events = ⟨state.binding.digest, submissions events⟩ :: earlier ∧
      before = blocks.reverse.flatten ∧ List.Forall₂ Recorded blocks earlier := by
  refine run_induction (fun events state => ∃ before since blocks earlier,
    Split events state before since ∧
      visits events = ⟨state.binding.digest, submissions events⟩ :: earlier ∧
      before = blocks.reverse.flatten ∧ List.Forall₂ Recorded blocks earlier)
    ?_ ?_ hrun
  · intro first initial hstart
    refine ⟨[], [], [], [], split_of_start hstart, ?_, rfl, .nil⟩
    rw [visits_of_start hstart, submissions_of_start hstart]
  · rintro events state event next hrun
      ⟨before, since, blocks, earlier, hsplit, hvisits, hbefore, hblocks⟩ hstep
    have hnext := reviewRun_snoc hrun hstep
    obtain ⟨before', since', hsplit', hkept⟩ := split_of_step hrun hsplit hstep
    obtain ⟨earlier', hvisits'⟩ := visits_of_run hnext
    have hsame := hvisits'
    rw [visits_append, hvisits] at hsame
    rcases binding_of_step hrun hstep with
      ⟨binding, hkind, hbinding, hcycles⟩ | ⟨hadvance, hbinding, hstart⟩
    · -- the cycles of the latest visit are now one more block
      have hadvance : isAdvance event.kind = true := by rw [hkind]; rfl
      rw [hkind] at hsame
      have hearlier : earlier' = ⟨state.binding.digest, submissions events⟩ ::
          earlier := (congrArg List.tail hsame).symm
      have hsince : since' = [] := by
        have hnone := hsplit'.assigned
        rw [(sinceAdvance_advance events hadvance).1] at hnone
        exact List.map_eq_nil_iff.mp hnone
      have hmoved := hsplit'.cycles
      rw [hsince, List.append_nil, hcycles] at hmoved
      let update : ReviewCycle → ReviewCycle := fun cycle =>
        if cycle.assignment.bindingDigest = state.binding.digest then
          { cycle with phase := .invalidated }
        else cycle
      have hassignment : ∀ cycle, (update cycle).assignment = cycle.assignment := by
        intro cycle
        dsimp only [update]
        split <;> rfl
      have hsubmission : ∀ cycle, (update cycle).submission = cycle.submission := by
        intro cycle
        dsimp only [update]
        split <;> rfl
      refine ⟨before', since', (since :: blocks).map (List.map update), earlier',
        hsplit', hvisits', ?_, ?_⟩
      · rw [← hmoved, ← List.map_reverse, ← List.map_flatten, List.reverse_cons,
          List.flatten_append, List.flatten_singleton, ← hbefore, ← hsplit.cycles]
        rfl
      · rw [hearlier]
        refine List.forall₂_map_left_iff.mpr ?_
        refine List.Forall₂.imp (fun _ _ hrecorded =>
          recorded_map hrecorded hassignment hsubmission)
          (.cons (recorded_since hrun hsplit) hblocks)
    · rw [visitOf_of_kept hadvance hstart] at hsame
      have hearlier : earlier' = earlier := (congrArg List.tail hsame).symm
      refine ⟨before', since', blocks, earlier', hsplit', hvisits', ?_, ?_⟩
      · rw [hkept hadvance, hbefore]
      · rw [hearlier]
        exact hblocks

/-- A submission is held by cycles that the report looks at only. -/
theorem hasSubmission_eq (hsplit : Split events state before since)
    {cycle : ReviewCycle} (hmem : cycle ∈ state.cycles) :
    hasSubmission cycle = holdsSubmission cycle := by
  unfold hasSubmission holdsSubmission
  cases hsubmission : cycle.submission with
  | none => simp
  | some submission =>
      rw [hsplit.cycles] at hmem
      rcases List.mem_append.mp hmem with hmem | hmem
      · simp [hsplit.stale cycle hmem]
      · have hphase := (hsplit.fresh cycle hmem).phase.mpr (by simp [hsubmission])
        simp [hphase]

/-- Oscillation is detected in the runs that do not return to a binding: the
report of every state that they reach shows what the last two submitted visits
show. -/
theorem oscillation_detected (hrun : ReviewRun sha256 events state)
    (hreturns : NeverReturns events) : Detects events state.oscillation := by
  obtain ⟨before, since, blocks, earlier, hsplit, hvisits, hbefore, hblocks⟩ :=
    recorded_of_run hrun
  have hrecorded : List.Forall₂ Recorded (since :: blocks) (visits events) := by
    rw [hvisits]
    exact .cons (recorded_since hrun hsplit) hblocks
  have hcycles : state.cycles = (since :: blocks).reverse.flatten := by
    rw [hsplit.cycles, hbefore, List.reverse_cons, List.flatten_append,
      List.flatten_singleton]
  have hfilter : state.cycles.filter hasSubmission =
      (since :: blocks).reverse.flatten.filter holdsSubmission := by
    rw [← hcycles]
    exact List.filter_congr fun cycle hmem => hasSubmission_eq hsplit hmem
  have hgroups := groups_of_recorded hrecorded hreturns
  rw [← hfilter] at hgroups
  intro kind hkind
  rw [(reported_of_run hrun).oscillation, mem_kinds_iff hkind]
  exact (mem_comparedKinds hkind).trans (shown_iff hgroups)

end Events

/-! ### A run that returns -/

/-- A digest that tells short byte strings apart. -/
def byteSum (bytes : List UInt8) : Sha256Digest :=
  ⟨(bytes.map UInt8.toNat).sum % 256 ^ 32, Nat.mod_lt _ (by decide)⟩

def secondBinding : ReviewBinding :=
  let binding := { smallBinding byteSum with candidateDigest := .ofNat 1 }
  { binding with digest := bindingDigest byteSum binding }

/-- The digest of a finding binds its body, and not its identity. -/
def bodyDigest (severity : FindingSeverity) : Sha256Digest :=
  findingDigest byteSum { smallFinding (smallId 1) with severity := severity }

/-- The review of a cycle: one finding, which has the identity of the cycle. -/
def visitFinding (identity : OpaqueIdentifier) (severity : FindingSeverity) :
    Finding :=
  { smallFinding identity with
    origin := ⟨identity, smallId 2⟩
    sources := [⟨identity, smallId 2⟩]
    severity := severity
    normalizedDigest := bodyDigest severity }

def visitSubmission (identity : OpaqueIdentifier) (severity : FindingSeverity) :
    ReviewSubmission :=
  let submission : ReviewSubmission := ⟨identity, smallRevision, [⟨zeroDigest⟩],
    [visitFinding identity severity], zeroDigest⟩
  { submission with reviewDigest := submissionDigest byteSum submission }

def visitAssignment (identity : OpaqueIdentifier) (ordinal : Nat)
    (binding : ReviewBinding) : ReviewAssignment :=
  { smallAssignment with
    cycleId := identity
    ordinal := ordinal
    bindingDigest := binding.digest }

def visitFor (identity : OpaqueIdentifier) (binding : ReviewBinding)
    (severity : FindingSeverity) : Visit :=
  ⟨binding.digest, [visitSubmission identity severity]⟩

theorem fingerprints_visitFor (identity : OpaqueIdentifier)
    (binding : ReviewBinding) (severity : FindingSeverity) :
    (visitFor identity binding severity).fingerprints = {bodyDigest severity} := by
  simp [Visit.fingerprints, Visit.findings, visitFor, visitSubmission, visitFinding]

/-- A finding is submitted for a binding, and another one for the next. -/
def firstVisits (severity : FindingSeverity) : List Request :=
  [⟨smallId 2, smallId 2, .assignReviewer
      (visitAssignment (smallId 1) 1 (smallBinding byteSum))⟩,
    ⟨smallId 3, smallId 3, .submitReview (visitSubmission (smallId 1) severity)⟩,
    ⟨smallId 4, smallId 4, .advanceRevision secondBinding⟩,
    ⟨smallId 5, smallId 5, .assignReviewer
      (visitAssignment (smallId 2) 2 secondBinding)⟩,
    ⟨smallId 6, smallId 6, .submitReview (visitSubmission (smallId 2) .low)⟩]

/-- The first binding is submitted for again, with the finding of the second. -/
def returningVisits : List Request :=
  firstVisits .high ++
    [⟨smallId 7, smallId 7, .advanceRevision (smallBinding byteSum)⟩,
      ⟨smallId 8, smallId 8, .assignReviewer
        (visitAssignment (smallId 3) 3 (smallBinding byteSum))⟩,
      ⟨smallId 9, smallId 9, .submitReview (visitSubmission (smallId 3) .low)⟩]

/-- The visits of a run after its start, by its commands. -/
def visitsOf (first : Visit) (kinds : List ReviewCommandKind) : List Visit :=
  kinds.foldl (fun visits kind => match kind with
    | .startRun binding limits => visitOf visits (.runStarted binding limits)
    | .advanceRevision binding => visitOf visits (.revisionAdvanced binding)
    | .submitReview submission => visitOf visits (.reviewSubmitted submission)
    | _ => visits) [first]

theorem visits_cons {sha256 : List UInt8 → Sha256Digest} {first : ReviewEvent}
    {rest : List ReviewEvent} {initial : ReviewRunState}
    (hstart : Starts sha256 first initial) :
    visits (first :: rest) = visitsOf ⟨initial.binding.digest, []⟩
      (rest.map fun event => commandKind event.kind) := by
  have hfirst := visits_of_start hstart
  unfold visits at hfirst ⊢
  unfold visitsOf
  rw [← hfirst, List.foldl_map, List.foldl_cons, List.foldl_cons, List.foldl_nil]
  congr 1
  funext visits event
  cases event.kind <;> rfl

/-- A run of requests, with its visits. -/
theorem exists_run_of_attempts {requests : List Request} {next : ReviewRunState}
    (h : attempts byteSum (smallStart byteSum) requests = some next) :
    ∃ events, ReviewRun byteSum events next ∧ visits events =
      visitsOf ⟨(smallBinding byteSum).digest, []⟩ (requests.map Request.kind) := by
  obtain ⟨first, -, hfirst⟩ := reviewRun_smallStart byteSum
  obtain ⟨rest, -, hkinds, hrun⟩ := reviewRun_of_attempts hfirst h
  obtain ⟨_, initial, _, hstart, hnone, hsame⟩ := hfirst
  cases hsame
  cases hnone
  have hbinding : (smallStart byteSum).binding = smallBinding byteSum := by
    simp only [smallStart, sealState, genesis]
  refine ⟨_, hrun, ?_⟩
  rw [← hkinds, ← hbinding]
  exact visits_cons hstart

theorem kinds_firstVisits :
    (attempts byteSum (smallStart byteSum) (firstVisits .low)).map (fun state =>
      state.oscillation.kinds) =
        some [.repeatedFindingSet, .severityStagnation] := by
  decide +kernel

theorem digest_ne : secondBinding.digest ≠ (smallBinding byteSum).digest := by
  decide +kernel

theorem oscillation_detected_of_visits : ∃ events state,
    ReviewRun byteSum events state ∧ NeverReturns events ∧
      .repeatedFindingSet ∈ state.oscillation.kinds ∧
      Detects events state.oscillation := by
  obtain ⟨state, hstate, hkinds⟩ := Option.map_eq_some_iff.mp kinds_firstVisits
  obtain ⟨events, hrun, hvisits⟩ := exists_run_of_attempts hstate
  have hsubmitted : submittedVisits events =
      [visitFor (smallId 2) secondBinding .low,
        visitFor (smallId 1) (smallBinding byteSum) .low] := by
    rw [submittedVisits, hvisits]
    simp [visitsOf, firstVisits, visitOf, visitFor, Visit.isSubmitted]
  have hreturns : NeverReturns events := by
    unfold NeverReturns
    rw [hsubmitted]
    exact List.nodup_cons.mpr
      ⟨fun h => digest_ne (List.mem_singleton.mp h), List.nodup_singleton _⟩
  refine ⟨events, state, hrun, hreturns, ?_, oscillation_detected hrun hreturns⟩
  rw [hkinds]
  exact List.mem_cons_self

theorem kinds_returningVisits :
    (attempts byteSum (smallStart byteSum) returningVisits).map (fun state =>
      state.oscillation.kinds) = some [] := by
  decide +kernel

/-- The last two visits were submitted the same finding, and the report is empty. -/
theorem returned_set_undetected : ∃ events state latest previous earlier,
    ReviewRun byteSum events state ∧
      submittedVisits events = latest :: previous :: earlier ∧
      latest.fingerprints.Nonempty ∧
      previous.fingerprints = latest.fingerprints ∧
      previous.severity = some 1 ∧ latest.severity = some 1 ∧
      state.oscillation.kinds = [] := by
  obtain ⟨state, hstate, hkinds⟩ :=
    Option.map_eq_some_iff.mp kinds_returningVisits
  obtain ⟨events, hrun, hvisits⟩ := exists_run_of_attempts hstate
  refine ⟨events, state, visitFor (smallId 3) (smallBinding byteSum) .low,
    visitFor (smallId 2) secondBinding .low,
    [visitFor (smallId 1) (smallBinding byteSum) .high], hrun, ?_, ?_, ?_, rfl, rfl,
    hkinds⟩
  · rw [submittedVisits, hvisits]
    simp [visitsOf, returningVisits, firstVisits, visitOf, visitFor,
      Visit.isSubmitted]
  · rw [fingerprints_visitFor]
    exact Finset.singleton_nonempty _
  · rw [fingerprints_visitFor, fingerprints_visitFor]

end Peritus.Review.Oscillation
