import Peritus.Review.Findings

/-!
Completion.  A run that ends as completed rests on reviews assigned and submitted
since the binding was last replaced: a replaced binding leaves every cycle
invalidated, also if a later binding is the same again.
-/

namespace Peritus.Review.Completion

open Peritus.Types Checked SortedTable Disposition State Canonical
open Validation Reports Reducer Runs Edits Findings

/-! ### The reviews of the last binding -/

def isAdvance : ReviewEventKind → Bool
  | .revisionAdvanced _ => true
  | _ => false

def assignmentOf : ReviewEventKind → Option ReviewAssignment
  | .reviewerAssigned assignment => some assignment
  | _ => none

def submissionOf : ReviewEventKind → Option ReviewSubmission
  | .reviewSubmitted submission => some submission
  | _ => none

/-- The events after the last one that replaced the binding. -/
def sinceAdvance (events : List ReviewEvent) : List ReviewEvent :=
  events.rtakeWhile fun event => !isAdvance event.kind

def assignments (events : List ReviewEvent) : List ReviewAssignment :=
  (sinceAdvance events).filterMap fun event => assignmentOf event.kind

def submissions (events : List ReviewEvent) : List ReviewSubmission :=
  (sinceAdvance events).filterMap fun event => submissionOf event.kind

def submissionFor (events : List ReviewEvent) (cycleId : ReviewCycleId) :
    Option ReviewSubmission :=
  (submissions events).find? fun submission =>
    decide (submission.cycleId = cycleId)

/-- The assignments made since the binding was last replaced whose review was
submitted since then, each with its submission. -/
def reviews (events : List ReviewEvent) :
    List (ReviewAssignment × ReviewSubmission) :=
  (assignments events).filterMap fun assignment =>
    (submissionFor events assignment.cycleId).map fun submission =>
      (assignment, submission)

/-! ### The claim -/

/-- The reviews meet the quorum of a binding and each of its independence
dimensions. -/
structure Independent (binding : ReviewBinding)
    (reviews : List (ReviewAssignment × ReviewSubmission)) : Prop where
  bound : ∀ review ∈ reviews, review.1.bindingDigest = binding.digest ∧
    review.1.revision = binding.revision
  quorum : binding.reviewerQuorum ≤ reviews.length
  categories : ∀ required ∈ binding.requiredCategories,
    ∃ review ∈ reviews, required ∈ review.2.categories
  reviewers : binding.independence.distinctReviewers = true →
    (reviews.map fun review => review.1.reviewer.actorId).Nodup
  producer : binding.independence.independentFromProducer = true →
    ∀ review ∈ reviews, review.1.reviewer.independentFromProducer = true ∧
      review.1.reviewer.actorId ∉ binding.producerActors
  contexts : binding.independence.distinctContexts = true →
    (reviews.map fun review => review.1.reviewer.context).Nodup
  modelFamilies : binding.independence.distinctModelFamilies = true →
    (reviews.map fun review => review.1.reviewer.modelFamily).Nodup
  providers : binding.independence.distinctProviders = true →
    (reviews.map fun review => review.1.reviewer.provider).Nodup
  ancestry : binding.independence.noSharedAncestry = true →
    (reviews.map fun review => review.1.reviewer.ancestry).Nodup ∧
      ∀ review ∈ reviews,
        review.1.reviewer.ancestry ∉ binding.producerAncestries
  fresh : ∀ review ∈ reviews, review.1.freshContext = true ∧
    review.1.reviewer.context = review.1.contextPlanId.digest

/-- The closures of a finding. -/
def closures : List DispositionKind :=
  [.resolutionConfirmed, .invalidationConfirmed, .superseded, .waived]

structure Truthful (events : List ReviewEvent) (state : ReviewRunState) :
    Prop where
  independent : Independent state.binding (reviews events)
  findings : ∀ finding ∈ state.findings, state.findingIsCurrent finding = true →
    finding.currentDisposition ∈ closures
  calm : state.oscillation.kinds = []

/-! ### Fresh cycles -/

/-- A cycle of the last binding: it is bound to it, and submitted exactly if the
events since then submit it. -/
structure Fresh (events : List ReviewEvent) (binding : ReviewBinding)
    (cycle : ReviewCycle) : Prop where
  digest : cycle.assignment.bindingDigest = binding.digest
  revision : cycle.assignment.revision = binding.revision
  submission : cycle.submission = submissionFor events cycle.id
  phase : cycle.phase = .submitted ↔ cycle.submission ≠ none

/-- The cycles of a run: those of replaced bindings, and then the fresh ones. -/
structure Split (events : List ReviewEvent) (state : ReviewRunState)
    (before since : List ReviewCycle) : Prop where
  cycles : state.cycles = before ++ since
  stale : ∀ cycle ∈ before, cycle.phase = .invalidated
  assigned : since.map ReviewCycle.assignment = assignments events
  fresh : ∀ cycle ∈ since, Fresh events state.binding cycle
  known : ∀ submission ∈ submissions events,
    ∃ cycle ∈ since, cycle.id = submission.cycleId

section Events

variable {events : List ReviewEvent} {event : ReviewEvent}

theorem sinceAdvance_append : sinceAdvance (events ++ [event]) =
    if isAdvance event.kind then [] else sinceAdvance events ++ [event] := by
  unfold sinceAdvance
  rw [List.rtakeWhile_concat]
  cases isAdvance event.kind <;> simp

theorem assignments_append (hkept : isAdvance event.kind = false) :
    assignments (events ++ [event]) =
      assignments events ++ (assignmentOf event.kind).toList := by
  unfold assignments
  rw [sinceAdvance_append, hkept]
  cases h : assignmentOf event.kind <;> simp [h]

theorem submissions_append (hkept : isAdvance event.kind = false) :
    submissions (events ++ [event]) =
      submissions events ++ (submissionOf event.kind).toList := by
  unfold submissions
  rw [sinceAdvance_append, hkept]
  cases h : submissionOf event.kind <;> simp [h]

theorem submissionFor_append {cycleId : ReviewCycleId}
    (hkept : isAdvance event.kind = false)
    (hother : ∀ submission, submissionOf event.kind = some submission →
      submission.cycleId ≠ cycleId) :
    submissionFor (events ++ [event]) cycleId = submissionFor events cycleId := by
  unfold submissionFor
  rw [submissions_append hkept, List.find?_append]
  cases h : submissionOf event.kind with
  | none => simp
  | some submission =>
      have hne := hother submission h
      simp [hne]

theorem submissionFor_submitted {submission : ReviewSubmission}
    (hkind : event.kind = .reviewSubmitted submission)
    (hnone : submissionFor events submission.cycleId = none) :
    submissionFor (events ++ [event]) submission.cycleId = some submission := by
  unfold submissionFor at hnone ⊢
  rw [submissions_append (by rw [hkind]; rfl), List.find?_append, hnone, hkind]
  simp [submissionOf]

end Events

section Cycles

variable {sha256 : List UInt8 → Sha256Digest} {state next applied :
    ReviewRunState} {event : ReviewEvent} {events rest : List ReviewEvent}
  {before since : List ReviewCycle} {cycle : ReviewCycle}

theorem fresh_append (hkept : isAdvance event.kind = false)
    (hother : ∀ submission, submissionOf event.kind = some submission →
      submission.cycleId ≠ cycle.id)
    (hfresh : Fresh events state.binding cycle) :
    Fresh (events ++ [event]) state.binding cycle :=
  ⟨hfresh.digest, hfresh.revision,
    hfresh.submission.trans (submissionFor_append hkept hother).symm, hfresh.phase⟩

theorem sinceAdvance_advance (events : List ReviewEvent)
    (hadvance : isAdvance event.kind = true) :
    assignments (events ++ [event]) = [] ∧ submissions (events ++ [event]) = [] := by
  unfold assignments submissions
  rw [sinceAdvance_append, hadvance]
  exact ⟨rfl, rfl⟩

/-- An event that is about neither the binding, nor an assignment or a submission. -/
structure Untimed (kind : ReviewEventKind) : Prop where
  advance : isAdvance kind = false
  assignment : assignmentOf kind = none
  submission : submissionOf kind = none

theorem untimed_of_recorded {kind : ReviewEventKind}
    {row : FindingId × DispositionKind} (hrecorded : recorded kind = some row) :
    Untimed kind := by
  cases kind <;> first | exact ⟨rfl, rfl, rfl⟩ | cases hrecorded

theorem untimed_of_answered {kind : ReviewEventKind}
    {row : FindingId × List FindingId} (hanswered : answered kind = some row) :
    Untimed kind := by
  cases kind <;> first | exact ⟨rfl, rfl, rfl⟩ | cases hanswered

theorem untimed_of_ends {kind : ReviewEventKind}
    {row : ReviewTerminalKind × Sha256Digest} (hends : endsWith kind = some row) :
    Untimed kind := by
  cases kind <;> first | exact ⟨rfl, rfl, rfl⟩ | cases hends

/-- A step that leaves the cycles and the binding alone. -/
theorem split_of_untimed (hsplit : Split events state before since)
    (huntimed : Untimed event.kind) (hcycles : applied.cycles = state.cycles)
    (hbinding : applied.binding = state.binding) :
    Split (events ++ [event]) applied before since where
  cycles := hcycles.trans hsplit.cycles
  stale := hsplit.stale
  assigned := by
    rw [assignments_append huntimed.advance, huntimed.assignment, hsplit.assigned]
    simp
  fresh := by
    intro cycle hmem
    rw [hbinding]
    refine fresh_append huntimed.advance ?_ (hsplit.fresh cycle hmem)
    intro submission h
    rw [huntimed.submission] at h
    cases h
  known := by
    rw [submissions_append huntimed.advance, huntimed.submission]
    simpa using hsplit.known

theorem mem_of_cycle {cycleId : ReviewCycleId}
    (hcycle : state.cycle cycleId = some cycle) : cycle ∈ state.cycles :=
  List.mem_of_find?_eq_some hcycle

/-- An assigned cycle is fresh, and not submitted. -/
theorem fresh_of_assigned (hsplit : Split events state before since)
    (hmem : cycle ∈ state.cycles) (hphase : cycle.phase = .assigned) :
    cycle ∈ since ∧ cycle.submission = none := by
  rw [hsplit.cycles] at hmem
  have hsince : cycle ∈ since := by
    rcases List.mem_append.mp hmem with hmem | hmem
    · have hstale := hsplit.stale cycle hmem
      rw [hphase] at hstale
      cases hstale
    · exact hmem
  refine ⟨hsince, ?_⟩
  by_contra hsubmitted
  have hphase' := (hsplit.fresh cycle hsince).phase.mpr hsubmitted
  rw [hphase] at hphase'
  cases hphase'

/-- A step that updates an assigned cycle. -/
theorem split_of_update (update : ReviewCycle → ReviewCycle)
    (hordered : Ordered state) (hsplit : Split events state before since)
    (hadvance : isAdvance event.kind = false)
    (hassignment : assignmentOf event.kind = none)
    (hmem : cycle ∈ state.cycles) (hphase : cycle.phase = .assigned)
    (hkey : ∀ cycle, (update cycle).assignment = cycle.assignment)
    (hsubmission : ∀ submission, submissionOf event.kind = some submission →
      submission.cycleId = cycle.id)
    (hfresh : Fresh (events ++ [event]) state.binding (update cycle))
    (hcycles : applied.cycles =
      updateRow ReviewCycle.id cycle.id update state.cycles)
    (hbinding : applied.binding = state.binding) :
    Split (events ++ [event]) applied before
      (updateRow ReviewCycle.id cycle.id update since) := by
  have hinj : ∀ other ∈ state.cycles, other.id = cycle.id → other = cycle :=
    fun other hother hid =>
      List.inj_on_of_nodup_map hordered.cycles hother hmem hid
  have hsince := (fresh_of_assigned hsplit hmem hphase).1
  constructor
  · have hbefore : updateRow ReviewCycle.id cycle.id update before = before := by
      refine updateRow_of_forall_ne ?_
      intro other hother hid
      have hsame := hinj other (by
        rw [hsplit.cycles]
        exact List.mem_append_left _ hother) hid
      have hstale := hsplit.stale other hother
      rw [hsame, hphase] at hstale
      cases hstale
    rw [hcycles, hsplit.cycles]
    unfold updateRow at hbefore ⊢
    rw [List.map_append, hbefore]
  · exact hsplit.stale
  · rw [assignments_append hadvance, hassignment, Option.toList_none,
      List.append_nil, ← hsplit.assigned]
    simp only [updateRow, List.map_map]
    refine List.map_congr_left ?_
    intro other hother
    rw [Function.comp_apply]
    split
    · exact hkey other
    · rfl
  · intro other hother
    rw [hbinding]
    rcases mem_updateRow.mp hother with ⟨row, hrow, hid, rfl⟩ | ⟨hrow, hid⟩
    · have hsame := hinj row (by
        rw [hsplit.cycles]
        exact List.mem_append_right _ hrow) hid
      rw [hsame]
      exact hfresh
    · refine fresh_append hadvance ?_ (hsplit.fresh other hrow)
      intro submission h hagain
      exact hid (hagain.symm.trans (hsubmission submission h))
  · intro submission hsubmitted
    have hrow : ∀ row ∈ since, ∃ other ∈ updateRow ReviewCycle.id cycle.id update
        since, other.id = row.id := by
      intro row hrow
      refine ⟨_, List.mem_map_of_mem hrow, ?_⟩
      split
      · exact congrArg ReviewAssignment.cycleId (hkey row)
      · rfl
    rw [submissions_append hadvance, List.mem_append] at hsubmitted
    rcases hsubmitted with hold | hnew
    · obtain ⟨row, hmem, hid⟩ := hsplit.known submission hold
      obtain ⟨other, hother, hsame⟩ := hrow row hmem
      exact ⟨other, hother, hsame.trans hid⟩
    · obtain ⟨other, hother, hsame⟩ := hrow cycle hsince
      refine ⟨other, hother, ?_⟩
      rw [hsame, hsubmission submission (Option.mem_toList.mp hnew)]

/-- Only a new binding moves cycles to those of the replaced bindings. -/
theorem split_of_changes (hordered : Ordered state)
    (hsplit : Split events state before since)
    (h : Changes sha256 state event.id event.kind applied) :
    ∃ before' since', Split (events ++ [event]) applied before' since' ∧
      (isAdvance event.kind = false → before' = before) := by
  generalize hkind : event.kind = kind at h
  cases h with
  | advanced binding hvalid hfresh =>
      have hadvance : isAdvance event.kind = true := by rw [hkind]; rfl
      refine ⟨(replaceBinding state binding).cycles, [], ?_,
        fun h => nomatch h⟩
      obtain ⟨hassignments, hsubmissions⟩ := sinceAdvance_advance events hadvance
      constructor
      · rw [List.append_nil]
      · intro cycle hmem
        obtain ⟨row, hrow, rfl⟩ := List.mem_map.mp hmem
        split
        · rfl
        · next hother =>
            rw [hsplit.cycles] at hrow
            rcases List.mem_append.mp hrow with hrow | hrow
            · exact hsplit.stale row hrow
            · exact absurd (hsplit.fresh row hrow).digest hother
      · rw [hassignments]
        rfl
      · intro cycle hmem
        cases hmem
      · rw [hsubmissions]
        intro submission hmem
        cases hmem
  | assigned assignment hvalid hnew =>
      have hadvance : isAdvance event.kind = false := by rw [hkind]; rfl
      have hsubmission : submissionOf event.kind = none := by rw [hkind]; rfl
      simp only [validateAssignment, bind_eq_ok_iff, exists_unit_iff,
        ensure_eq_ok_iff, Bool.and_eq_true, decide_eq_true_eq] at hvalid
      obtain ⟨⟨⟨⟨⟨⟨⟨hdigest, hrevision⟩, -⟩, -⟩, -⟩, -⟩, -⟩, -⟩ := hvalid
      have hnone : submissionFor events assignment.cycleId = none := by
        refine List.find?_eq_none.mpr ?_
        intro submission hmem hid
        obtain ⟨cycle, hcycle, hsame⟩ := hsplit.known submission hmem
        refine List.find?_eq_none.mp hnew cycle ?_ ?_
        · rw [hsplit.cycles]
          exact List.mem_append_right _ hcycle
        · exact decide_eq_true (hsame.trans (of_decide_eq_true hid))
      have hskip : ∀ (cycle : ReviewCycle) (submission : ReviewSubmission),
          submissionOf event.kind = some submission →
            submission.cycleId ≠ cycle.id := by
        intro cycle submission h
        rw [hsubmission] at h
        cases h
      refine ⟨before, since ++ [⟨assignment, .assigned, none⟩], ?_, fun _ => rfl⟩
      constructor
      · rw [hsplit.cycles, List.append_assoc]
      · exact hsplit.stale
      · rw [assignments_append hadvance, hkind, List.map_append, hsplit.assigned]
        rfl
      · intro cycle hmem
        rcases List.mem_append.mp hmem with hmem | hmem
        · exact fresh_append hadvance (hskip cycle) (hsplit.fresh cycle hmem)
        · obtain rfl := List.mem_singleton.mp hmem
          refine ⟨hdigest, hrevision, ?_, ?_⟩
          · exact ((submissionFor_append hadvance (hskip _)).trans hnone).symm
          · exact ⟨fun h => (by cases h), fun h => absurd rfl h⟩
      · rw [submissions_append hadvance, hsubmission, Option.toList_none,
          List.append_nil]
        intro submission hmem
        obtain ⟨cycle, hcycle, hid⟩ := hsplit.known submission hmem
        exact ⟨cycle, List.mem_append_left _ hcycle, hid⟩
  | submitted submission cycle hvalid hcycle hcurrent hphase hrevision hnew =>
      have hadvance : isAdvance event.kind = false := by rw [hkind]; rfl
      have hmem := mem_of_cycle hcycle
      have hid := id_of_cycle hcycle
      obtain ⟨hsince, hnone⟩ := fresh_of_assigned hsplit hmem hphase
      have hfresh := hsplit.fresh cycle hsince
      refine ⟨before, _, split_of_update (fun cycle =>
          { cycle with submission := some submission, phase := .submitted })
        hordered hsplit hadvance (by rw [hkind]; rfl) hmem hphase (fun _ => rfl)
        ?_ ?_ (by rw [hid]) rfl, fun _ => rfl⟩
      · intro other hother
        rw [hkind] at hother
        cases hother
        exact hid.symm
      · refine ⟨hfresh.digest, hfresh.revision, ?_, ?_⟩
        · have hbefore := hnone.symm.trans hfresh.submission
          rw [hid] at hbefore
          have hafter := submissionFor_submitted hkind hbefore.symm
          rw [← hid] at hafter
          exact hafter.symm
        · exact ⟨fun _ => Option.some_ne_none _, fun _ => rfl⟩
  | cancelled cycleId cycle hcycle hcurrent hphase =>
      have huntimed : Untimed event.kind := by
        rw [hkind]
        exact ⟨rfl, rfl, rfl⟩
      have hmem := mem_of_cycle hcycle
      have hid := id_of_cycle hcycle
      obtain ⟨hsince, hnone⟩ := fresh_of_assigned hsplit hmem hphase
      have hskip : ∀ submission, submissionOf event.kind = some submission →
          submission.cycleId ≠ cycle.id := by
        intro submission h
        rw [huntimed.submission] at h
        cases h
      have hfresh :=
        fresh_append huntimed.advance hskip (hsplit.fresh cycle hsince)
      refine ⟨before, _, split_of_update
        (fun cycle => { cycle with phase := .cancelled }) hordered hsplit
        huntimed.advance huntimed.assignment hmem hphase (fun _ => rfl) ?_ ?_
        (by rw [hid]) rfl, fun _ => rfl⟩
      · intro submission h
        rw [huntimed.submission] at h
        cases h
      · refine ⟨hfresh.digest, hfresh.revision, hfresh.submission, ?_⟩
        exact ⟨fun h => (by cases h), fun h => absurd hnone h⟩
  | recorded kind recordedId found record waivers hrecorded =>
      rw [← hkind] at hrecorded
      exact ⟨before, since,
        split_of_untimed hsplit (untimed_of_recorded hrecorded) rfl rfl,
        fun _ => rfl⟩
  | answered kind canonical closed target snapshots opening closing hanswered =>
      rw [← hkind] at hanswered
      exact ⟨before, since,
        split_of_untimed hsplit (untimed_of_answered hanswered) rfl rfl,
        fun _ => rfl⟩
  | ended kind terminalKind cause hends =>
      rw [← hkind] at hends
      exact ⟨before, since,
        split_of_untimed hsplit (untimed_of_ends hends) rfl rfl, fun _ => rfl⟩
  | _ =>
      refine ⟨before, since, split_of_untimed hsplit ?_ rfl rfl, fun _ => rfl⟩
      rw [hkind]
      exact ⟨rfl, rfl, rfl⟩

theorem split_of_start (hstart : Starts sha256 event state) :
    Split [event] state [] [] := by
  obtain ⟨command, hstart⟩ := hstart
  obtain ⟨binding, limits, -, hkind, -, rfl⟩ := start_eq_ok hstart
  refine ⟨rfl, fun _ h => (by cases h), ?_, fun _ h => (by cases h), ?_⟩
  · simp [assignments, sinceAdvance, List.rtakeWhile, isAdvance, hkind,
      assignmentOf]
  · simp [submissions, sinceAdvance, List.rtakeWhile, isAdvance, hkind,
      submissionOf]

theorem split_of_step (hrun : ReviewRun sha256 events state)
    (hsplit : Split events state before since)
    (hstep : Steps sha256 state event next) :
    ∃ before' since', Split (events ++ [event]) next before' since' ∧
      (isAdvance event.kind = false → before' = before) := by
  obtain ⟨applied, hstepped⟩ := exists_stepped hrun hstep
  obtain ⟨before', since', hsplit', hkept⟩ :=
    split_of_changes (ordered_of_run hrun) hsplit hstepped.changes
  rw [hstepped.successor]
  exact ⟨before', since', ⟨hsplit'.cycles, hsplit'.stale, hsplit'.assigned,
    hsplit'.fresh, hsplit'.known⟩, hkept⟩

theorem split_of_run (hrun : ReviewRun sha256 events state) :
    ∃ before since, Split events state before since := by
  refine run_induction (fun events state =>
    ∃ before since, Split events state before since) ?_ ?_ hrun
  · intro first initial hstart
    exact ⟨[], [], split_of_start hstart⟩
  · rintro events state event next hrun ⟨before, since, hsplit⟩ hstep
    obtain ⟨before', since', hsplit', -⟩ := split_of_step hrun hsplit hstep
    exact ⟨before', since', hsplit'⟩

/-! ### The reviews that count -/

def counted (state : ReviewRunState) : List ReviewCycle :=
  state.cycles.filter (countsTowardQuorum state.binding)

theorem counted_of_fresh {binding : ReviewBinding}
    (hfresh : Fresh events binding cycle) :
    countsTowardQuorum binding cycle = cycle.submission.isSome := by
  unfold countsTowardQuorum
  rw [hfresh.digest, hfresh.revision]
  cases hsubmission : cycle.submission with
  | none => simp
  | some submission =>
      have hphase := hfresh.phase.mpr (by rw [hsubmission]; simp)
      simp [hphase]

/-- What the quorum counts is what was assigned and submitted since the binding
was last replaced. -/
theorem reviews_eq_counted (hsplit : Split events state before since) :
    reviews events = (counted state).filterMap fun cycle =>
      cycle.submission.map fun submission => (cycle.assignment, submission) := by
  have hbefore : before.filter (countsTowardQuorum state.binding) = [] := by
    refine List.filter_eq_nil_iff.mpr ?_
    intro cycle hmem hcounts
    simp [countsTowardQuorum, hsplit.stale cycle hmem] at hcounts
  unfold reviews counted
  rw [hsplit.cycles, List.filter_append, hbefore, List.nil_append,
    List.filterMap_filter, ← hsplit.assigned, List.filterMap_map]
  refine List.filterMap_congr ?_
  intro cycle hmem
  have hfresh := hsplit.fresh cycle hmem
  have hsubmission : submissionFor events cycle.assignment.cycleId =
      cycle.submission := hfresh.submission.symm
  rw [Function.comp_apply, hsubmission, counted_of_fresh hfresh]
  cases cycle.submission <;> rfl

theorem map_fst_filterMap {cycles : List ReviewCycle}
    (hsome : ∀ cycle ∈ cycles, cycle.submission.isSome = true) :
    (cycles.filterMap fun cycle => cycle.submission.map fun submission =>
      (cycle.assignment, submission)).map Prod.fst =
        cycles.map ReviewCycle.assignment := by
  induction cycles with
  | nil => rfl
  | cons cycle rest ih =>
      obtain ⟨submission, hsubmission⟩ :=
        Option.isSome_iff_exists.mp (hsome cycle List.mem_cons_self)
      have hrest := ih fun other hmem => hsome other (List.mem_cons_of_mem _ hmem)
      simp [hsubmission, hrest]

theorem isSome_of_counted (hmem : cycle ∈ counted state) :
    cycle.submission.isSome = true := by
  have hcounts := (List.mem_filter.mp hmem).2
  simp only [countsTowardQuorum, Bool.and_eq_true] at hcounts
  exact hcounts.2

theorem assignments_of_reviews (hsplit : Split events state before since) :
    (reviews events).map Prod.fst =
      (counted state).map ReviewCycle.assignment := by
  rw [reviews_eq_counted hsplit]
  exact map_fst_filterMap fun _ => isSome_of_counted

theorem mem_reviews (hsplit : Split events state before since)
    {review : ReviewAssignment × ReviewSubmission} : review ∈ reviews events ↔
      ∃ cycle ∈ counted state, cycle.assignment = review.1 ∧
        cycle.submission = some review.2 := by
  rw [reviews_eq_counted hsplit, List.mem_filterMap]
  refine exists_congr fun cycle => and_congr_right fun _ => ?_
  rw [Option.map_eq_some_iff]
  constructor
  · rintro ⟨submission, hsubmission, rfl⟩
    exact ⟨rfl, hsubmission⟩
  · rintro ⟨hassignment, hsubmission⟩
    refine ⟨review.2, hsubmission, ?_⟩
    rw [hassignment]

theorem map_reviews {α : Type} (field : ReviewAssignment → α)
    (hsplit : Split events state before since) :
    (reviews events).map (fun review => field review.1) =
      (counted state).map fun cycle => field cycle.assignment := by
  have hsame := congrArg (List.map field) (assignments_of_reviews hsplit)
  rw [List.map_map, List.map_map] at hsame
  exact hsame

theorem exists_counted (hsplit : Split events state before since)
    {review : ReviewAssignment × ReviewSubmission}
    (hmem : review ∈ reviews events) :
    ∃ cycle ∈ counted state, cycle.assignment = review.1 := by
  obtain ⟨cycle, hcycle, hassignment, -⟩ := (mem_reviews hsplit).mp hmem
  exact ⟨cycle, hcycle, hassignment⟩

/-- A complete quorum is one of independent reviews. -/
theorem independent_of_complete (hsplit : Split events state before since)
    (hcomplete : (evaluateQuorum state.binding state.cycles).complete = true) :
    Independent state.binding (reviews events) := by
  have hcounted : state.cycles.filter (countsTowardQuorum state.binding) =
      counted state := rfl
  simp only [QuorumReport.complete, evaluateQuorum, hcounted, Bool.and_eq_true,
    decide_eq_true_eq, Bool.or_eq_true, Bool.not_eq_true', List.all_eq_true,
    List.map_map, List.forall_mem_map, Function.comp_def] at hcomplete
  obtain ⟨⟨⟨⟨⟨⟨⟨⟨hquorum, hcategories⟩, hreviewers⟩, hproducer⟩, hcontexts⟩,
    hfamilies⟩, hproviders⟩, hancestry⟩, hfresh⟩ := hcomplete
  constructor
  · intro review hmem
    obtain ⟨cycle, hcycle, hassignment⟩ := exists_counted hsplit hmem
    have hcounts := (List.mem_filter.mp hcycle).2
    simp only [countsTowardQuorum, Bool.and_eq_true, decide_eq_true_eq] at hcounts
    rw [← hassignment]
    exact ⟨hcounts.1.1.2, hcounts.1.2⟩
  · have hlength := congrArg List.length (assignments_of_reviews hsplit)
    rw [List.length_map, List.length_map] at hlength
    rw [hlength]
    exact hquorum.trans (Nat.min_le_left _ _)
  · intro required hmem
    have hcovered := hcategories required hmem
    rw [mem_sortDedup, List.mem_flatMap] at hcovered
    obtain ⟨cycle, hcycle, hcategory⟩ := hcovered
    obtain ⟨submission, hsubmission, hcategory⟩ := List.mem_flatMap.mp hcategory
    exact ⟨(cycle.assignment, submission), (mem_reviews hsplit).mpr
      ⟨cycle, hcycle, rfl, Option.mem_toList.mp hsubmission⟩, hcategory⟩
  · intro hview
    rw [map_reviews (fun assignment => assignment.reviewer.actorId) hsplit]
    exact hreviewers.resolve_left (by simp [hview])
  · intro hview review hmem
    obtain ⟨cycle, hcycle, hassignment⟩ := exists_counted hsplit hmem
    rw [← hassignment]
    exact hproducer.resolve_left (by simp [hview]) cycle hcycle
  · intro hview
    rw [map_reviews (fun assignment => assignment.reviewer.context) hsplit]
    exact hcontexts.resolve_left (by simp [hview])
  · intro hview
    rw [map_reviews (fun assignment => assignment.reviewer.modelFamily) hsplit]
    exact hfamilies.resolve_left (by simp [hview])
  · intro hview
    rw [map_reviews (fun assignment => assignment.reviewer.provider) hsplit]
    exact hproviders.resolve_left (by simp [hview])
  · intro hview
    rw [map_reviews (fun assignment => assignment.reviewer.ancestry) hsplit]
    obtain ⟨hnodup, hforeign⟩ := hancestry.resolve_left (by simp [hview])
    refine ⟨hnodup, ?_⟩
    intro review hmem
    obtain ⟨cycle, hcycle, hassignment⟩ := exists_counted hsplit hmem
    rw [← hassignment]
    exact hforeign cycle hcycle
  · intro review hmem
    obtain ⟨cycle, hcycle, hassignment⟩ := exists_counted hsplit hmem
    rw [← hassignment]
    exact hfresh.2 cycle hcycle

end Cycles

/-! ### Completed runs -/

section Runs

variable {sha256 : List UInt8 → Sha256Digest} {state next applied :
    ReviewRunState} {event : ReviewEvent} {events rest : List ReviewEvent}

/-- The reports of a state are those of its cycles and findings. -/
structure Reported (state : ReviewRunState) : Prop where
  quorum : state.quorum = evaluateQuorum state.binding state.cycles
  oscillation : state.oscillation = evaluateOscillation state.binding state.cycles
    state.findings state.completionReady

theorem reported_of_run (hrun : ReviewRun sha256 events state) : Reported state := by
  refine run_induction (fun _ state => Reported state) ?_ ?_ hrun
  · rintro first initial ⟨command, hstart⟩
    obtain ⟨binding, limits, -, -, -, rfl⟩ := start_eq_ok hstart
    refine ⟨rfl, ?_⟩
    have hempty : (evaluateQuorum binding []).complete = false := by
      simp [QuorumReport.complete, evaluateQuorum]
    simp [sealState, genesis, ReviewRunState.completionReady, hempty]
  · intro events state event next hrun hreported hstep
    obtain ⟨applied, hstepped⟩ := exists_stepped hrun hstep
    rw [hstepped.successor]
    exact ⟨rfl, rfl⟩

theorem recompute_eq (hreported : Reported state) : recompute state = state := by
  obtain ⟨hquorum, hoscillation⟩ := hreported
  have hassessed : { state with
      quorum := evaluateQuorum state.binding state.cycles } = state := by
    rw [← hquorum]
  unfold recompute
  dsimp only
  rw [hassessed, ← hoscillation]
  exact hassessed

theorem quorum_of_completed (hrun : ReviewRun sha256 events state) :
    ∀ terminal, state.terminal = some terminal → terminal.kind = .completed →
      state.quorum.complete = true ∧ state.oscillation.triggered = false := by
  refine run_induction (fun _ state => ∀ terminal,
    state.terminal = some terminal → terminal.kind = .completed →
      state.quorum.complete = true ∧ state.oscillation.triggered = false)
    ?_ ?_ hrun
  · rintro first initial ⟨command, hstart⟩ terminal hterminal
    obtain ⟨binding, limits, -, -, -, rfl⟩ := start_eq_ok hstart
    cases hterminal
  · intro events state event next hrun _ hstep terminal hterminal hcompleted
    obtain ⟨applied, hstepped⟩ := exists_stepped hrun hstep
    have hnone := (terminated_of_run hrun).ended hstepped.unfinished
    rw [hstepped.successor] at hterminal ⊢
    have happlied : applied.terminal = some terminal := hterminal
    have hchanges := hstepped.changes
    generalize event.kind = kind at hchanges
    cases hchanges with
    | completed hcalm hquorum hconserved =>
        -- the reports of a terminal state are those it was finalized with
        have hreported : Reported (terminate sha256 state .completed zeroDigest) :=
          ⟨(reported_of_run hrun).quorum, (reported_of_run hrun).oscillation⟩
        have hsame := recompute_eq hreported
        rw [hsame]
        exact ⟨hquorum, hcalm⟩
    | ended kind terminalKind cause hends =>
        cases happlied
        cases kind <;> cases hends <;> cases hcompleted
    | oscillated htriggered =>
        cases happlied
        cases hcompleted
    | _ =>
        have hsome : state.terminal = some terminal := happlied
        rw [hnone] at hsome
        cases hsome

/-- A run that ends as completed is truthful: its current findings are closed, and
the reviews since the binding was last replaced are a quorum of independent ones. -/
theorem completion_truthful (hrun : ReviewRun sha256 events state)
    {terminal : ReviewTerminal} (hterminal : state.terminal = some terminal)
    (hcompleted : terminal.kind = .completed) : Truthful events state := by
  obtain ⟨before, since, hsplit⟩ := split_of_run hrun
  obtain ⟨hquorum, hcalm⟩ := quorum_of_completed hrun terminal hterminal hcompleted
  rw [(reported_of_run hrun).quorum] at hquorum
  refine ⟨independent_of_complete hsplit hquorum, ?_, ?_⟩
  · intro finding hmem hcurrent
    have hnone := (terminated_of_run hrun).conserved terminal hterminal hcompleted
    have hconserved := isConserved_of_current hnone hmem hcurrent
    unfold Finding.isConserved at hconserved
    cases hdisposition : finding.currentDisposition <;>
      simp_all [closures]
  · unfold OscillationReport.triggered at hcalm
    rw [Bool.not_eq_false', List.isEmpty_iff] at hcalm
    exact hcalm

end Runs

/-! ### A completed run -/

def advancedRevision : RevisionTuple :=
  ⟨smallId 1, smallId 1, smallId 1, .first, .ofNat 2, smallId 1, smallId 1⟩

def advancedFinding : Finding :=
  { smallFinding (smallId 2) with
    origin := ⟨smallId 2, smallId 2⟩
    sources := [⟨smallId 2, smallId 2⟩]
    revision := advancedRevision }

/-- A review with an open finding, which the next revision leaves behind; then a
review of that revision, whose finding is fixed and confirmed, and the end. -/
def smallCompletion : List Request :=
  [⟨smallId 2, smallId 2, .assignReviewer smallAssignment⟩,
    ⟨smallId 3, smallId 3, .submitReview ⟨smallId 1, smallRevision, [⟨zeroDigest⟩],
      [smallFinding (smallId 1)], zeroDigest⟩⟩,
    ⟨smallId 4, smallId 4, .advanceRevision
      { smallBinding (fun _ => zeroDigest) with revision := advancedRevision }⟩,
    ⟨smallId 5, smallId 5, .assignReviewer
      { smallAssignment with
        cycleId := smallId 2
        ordinal := 2
        revision := advancedRevision }⟩,
    ⟨smallId 6, smallId 6, .submitReview ⟨smallId 2, advancedRevision,
      [⟨zeroDigest⟩], [advancedFinding], zeroDigest⟩⟩,
    ⟨smallId 7, smallId 7, .recordFixerResponse (smallId 2)
      (.fixed (smallId 9) advancedRevision [smallId 1] zeroDigest)⟩,
    ⟨smallId 8, smallId 8, .confirmResolution (smallId 2)
      ⟨smallId 2, zeroDigest, [smallId 1], zeroDigest⟩⟩,
    ⟨smallId 9, smallId 9, .finalizeRun⟩]

theorem terminal_smallCompletion :
    (attempts (fun _ => zeroDigest) (smallStart fun _ => zeroDigest)
      smallCompletion).map (fun state => (state.terminal.map ReviewTerminal.kind,
        state.findings.map Finding.currentDisposition)) =
      some (some .completed, [.opened, .resolutionConfirmed]) := by
  cbv

theorem completion_truthful_of_review : ∃ events state terminal,
    ReviewRun (fun _ => zeroDigest) events state ∧
      state.findings.map Finding.currentDisposition =
        [.opened, .resolutionConfirmed] ∧
      state.terminal = some terminal ∧ terminal.kind = .completed ∧
      Truthful events state := by
  obtain ⟨state, hstate, hends⟩ :=
    Option.map_eq_some_iff.mp terminal_smallCompletion
  obtain ⟨hkind, hfindings⟩ := Prod.mk.inj hends
  obtain ⟨terminal, hterminal, hcompleted⟩ := Option.map_eq_some_iff.mp hkind
  obtain ⟨first, -, hstart⟩ := reviewRun_smallStart fun _ => zeroDigest
  obtain ⟨rest, -, -, hrun⟩ := reviewRun_of_attempts hstart hstate
  exact ⟨_, state, terminal, hrun, hfindings, hterminal, hcompleted,
    completion_truthful hrun hterminal hcompleted⟩

end Peritus.Review.Completion
