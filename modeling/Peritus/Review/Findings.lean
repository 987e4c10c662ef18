import Peritus.Chains
import Peritus.Review.Edits

/-!
The findings of a run.  A finding stays as it was admitted, and its history only
grows; a superseded finding points to the finding that answers it, and the chain of
answers ends at a finding that is still open to a closure of its own.
-/

namespace Peritus.Review.Findings

open Peritus.Types SortedTable TransitionSystem Chains Disposition State
open Canonical Reducer Runs Edits

/-- The findings that an event is about. -/
def names : ReviewEventKind → List FindingId
  | .reviewSubmitted submission => submission.findings.map Finding.id
  | .duplicatesReconciled canonical duplicates _ => canonical :: duplicates
  | .fixerResponseRecorded findingId _ | .waiverRequested findingId _
  | .resolutionConfirmed findingId _ | .invalidationConfirmed findingId _ =>
      [findingId]
  | .supersessionConfirmed findingId superseding _ => [superseding, findingId]
  | .waiverObserved waiver => [waiver.observation.findingId]
  | _ => []

/-- The two findings differ at most in their provenance and their history. -/
def SameBody (finding other : Finding) : Prop :=
  other = { finding with
    sources := other.sources
    evidence := other.evidence
    dispositions := other.dispositions
    supersededBy := other.supersededBy }

/-- What the events can have made of a finding. -/
structure Grows (events : List ReviewEvent) (finding grown : Finding) : Prop where
  body : SameBody finding grown
  sources : finding.sources ⊆ grown.sources
  evidence : finding.evidence ⊆ grown.evidence
  history : finding.dispositions <+: grown.dispositions
  superseded : finding.supersededBy ≠ none → grown = finding
  unnamed : (∀ event ∈ events, finding.id ∉ names event.kind) → grown = finding

/-- The finding that answers a finding. -/
def answer (state : ReviewRunState) (findingId : FindingId) : Option FindingId :=
  (state.finding findingId).bind Finding.supersededBy

/-- A finding stands for another: it is about the same and retains its
provenance. -/
structure Answers (finding answerer : Finding) : Prop where
  category : answerer.category = finding.category
  revision : answerer.revision = finding.revision
  sources : finding.sources ⊆ answerer.sources
  evidence : finding.evidence ⊆ answerer.evidence

/-- A finding is superseded exactly if it points to an answer. -/
def IsClosed (finding : Finding) : Prop :=
  finding.currentDisposition = .superseded ↔ finding.supersededBy ≠ none

/-- The findings of a state are linked: an answer stands for what it answers, and
the answers end. -/
structure Linked (state : ReviewRunState) : Prop where
  closed : ∀ finding ∈ state.findings, IsClosed finding
  answered : ∀ findingId answerId, answer state findingId = some answerId →
    ∃ finding answerer, state.finding findingId = some finding ∧
      state.finding answerId = some answerer ∧ Answers finding answerer
  ended : ∀ finding ∈ state.findings, ∃ rootId,
    Ends (answer state) finding.id rootId

/-- A finding as it was submitted, and as it is held since the event. -/
structure Holds (event : ReviewEvent) (submitted held : Finding) : Prop where
  body : SameBody submitted held
  sources : submitted.sources ⊆ held.sources
  evidence : submitted.evidence ⊆ held.evidence
  opened : ∃ opening, opening.eventId = event.id ∧ opening.kind = .opened ∧
    [opening] <+: held.dispositions

/-- The run is complete, or could be finalized as complete. -/
def Complete (state : ReviewRunState) : Prop :=
  state.completionReady = true ∨
    ∃ terminal, state.terminal = some terminal ∧ terminal.kind = .completed

/-- The closures of a finding that no other finding answers. -/
def ownClosures : List DispositionKind :=
  [.resolutionConfirmed, .invalidationConfirmed, .waived]

/-- The finding at the end of the answers to a finding. -/
structure Root (state : ReviewRunState) (findingId rootId : FindingId)
    (root : Finding) : Prop where
  ends : Ends (answer state) findingId rootId
  present : state.finding rootId = some root
  live : root.supersededBy = none
  retains : ∀ wayId, Follows (answer state) findingId wayId →
    ∃ onWay, state.finding wayId = some onWay ∧ Answers onWay root
  required : state.findingIsCurrent root = true → Complete state →
    root.currentDisposition ∈ ownClosures

/-- Every admitted finding is held; the answers have no cycle, and the answers to a
finding end at one finding. -/
structure Conserved (events : List ReviewEvent) (state : ReviewRunState) :
    Prop where
  admitted : ∀ event ∈ events, ∀ submission,
    event.kind = .reviewSubmitted submission →
      ∀ finding ∈ submission.findings, ∃ held,
        state.finding finding.id = some held ∧ Holds event finding held
  closed : ∀ findingId finding, state.finding findingId = some finding →
    IsClosed finding
  acyclic : ∀ findingId, ¬ Relation.TransGen
    (fun findingId answerId => answer state findingId = some answerId)
      findingId findingId
  rooted : ∀ findingId finding, state.finding findingId = some finding →
    ∃ rootId root, Root state findingId rootId root ∧
      ∀ otherId, Ends (answer state) findingId otherId → otherId = rootId

section Rows

variable {finding grown later : Finding} {events others : List ReviewEvent}
  {record : DispositionRecord} {snapshots : List Finding}

theorem mem_sortDedup {α : Type} [DecidableEq α] {key : α → Nat} {values : List α}
    {a : α} : a ∈ sortDedup key values ↔ a ∈ values := by
  unfold sortDedup
  rw [List.mem_dedup, List.mem_insertionSort]

theorem grows_refl (finding : Finding) : Grows events finding finding :=
  ⟨rfl, fun _ h => h, fun _ h => h, List.prefix_rfl, fun _ => rfl, fun _ => rfl⟩

theorem grows_trans (hfirst : Grows events finding grown)
    (hsecond : Grows others grown later) :
    Grows (events ++ others) finding later where
  body := by
    unfold SameBody
    rw [hsecond.body, hfirst.body]
  sources := fun _ h => hsecond.sources (hfirst.sources h)
  evidence := fun _ h => hsecond.evidence (hfirst.evidence h)
  history := hfirst.history.trans hsecond.history
  superseded := by
    intro hsuperseded
    have hgrown := hfirst.superseded hsuperseded
    subst hgrown
    exact hsecond.superseded hsuperseded
  unnamed := by
    intro hunnamed
    have hgrown := hfirst.unnamed fun event hmem =>
      hunnamed event (List.mem_append_left _ hmem)
    subst hgrown
    exact hsecond.unnamed fun event hmem =>
      hunnamed event (List.mem_append_right _ hmem)

/-- What a finding takes over from the findings merged into it. -/
structure Merged (snapshots : List Finding) (finding merged : Finding) : Prop where
  body : SameBody finding merged
  sources : finding.sources ⊆ merged.sources
  evidence : finding.evidence ⊆ merged.evidence
  history : finding.dispositions <+: merged.dispositions
  supersededBy : merged.supersededBy = finding.supersededBy
  retains : ∀ snapshot ∈ snapshots,
    snapshot.sources ⊆ merged.sources ∧ snapshot.evidence ⊆ merged.evidence

theorem merged_of_foldl (snapshots : List Finding) (finding : Finding) :
    Merged snapshots finding
      (snapshots.foldl Finding.mergeSourcesAndEvidence finding) := by
  induction snapshots generalizing finding with
  | nil =>
      exact ⟨rfl, fun _ h => h, fun _ h => h, List.prefix_rfl, rfl,
        fun _ h => by cases h⟩
  | cons snapshot rest ih =>
      have hrest := ih (finding.mergeSourcesAndEvidence snapshot)
      have hsources : ∀ source, source ∈ finding.sources ∨
          source ∈ snapshot.sources →
            source ∈ (finding.mergeSourcesAndEvidence snapshot).sources := by
        intro source hmem
        exact mem_sortDedup.mpr (List.mem_append.mpr hmem)
      have hevidence : ∀ evidence, evidence ∈ finding.evidence ∨
          evidence ∈ snapshot.evidence →
            evidence ∈ (finding.mergeSourcesAndEvidence snapshot).evidence := by
        intro evidence hmem
        exact mem_sortDedup.mpr (List.mem_append.mpr hmem)
      rw [List.foldl_cons]
      constructor
      · unfold SameBody
        rw [hrest.body]
        rfl
      · intro source hmem
        exact hrest.sources (hsources source (.inl hmem))
      · intro evidence hmem
        exact hrest.evidence (hevidence evidence (.inl hmem))
      · exact (List.prefix_append _ _).trans hrest.history
      · exact hrest.supersededBy
      · intro other hmem
        rcases List.mem_cons.mp hmem with rfl | hmem
        · exact ⟨fun source h => hrest.sources (hsources source (.inr h)),
            fun evidence h => hrest.evidence (hevidence evidence (.inr h))⟩
        · exact hrest.retains other hmem

theorem currentDisposition_of_push :
    (finding.pushDisposition record).currentDisposition = record.kind := by
  simp [Finding.currentDisposition, Finding.pushDisposition]

theorem answers_refl (finding : Finding) : Answers finding finding :=
  ⟨rfl, rfl, fun _ h => h, fun _ h => h⟩

theorem answers_trans {middle : Finding} (hfirst : Answers finding middle)
    (hsecond : Answers middle later) : Answers finding later :=
  ⟨hsecond.category.trans hfirst.category, hsecond.revision.trans hfirst.revision,
    fun _ h => hsecond.sources (hfirst.sources h),
    fun _ h => hsecond.evidence (hfirst.evidence h)⟩

theorem answers_of_grows (hgrows : Grows events finding grown) :
    Answers finding grown := by
  refine ⟨?_, ?_, hgrows.sources, hgrows.evidence⟩
  · rw [hgrows.body]
  · rw [hgrows.body]

end Rows

/-! ### One step -/

section Steps

variable {sha256 : List UInt8 → Sha256Digest} {state next applied :
    ReviewRunState} {event : ReviewEvent} {eventId : EventId}
  {kind : ReviewEventKind} {findingId answerId canonical : FindingId}
  {finding grown target : Finding} {closed : List FindingId}
  {snapshots : List Finding} {opening closing : DispositionRecord}

theorem mem_of_finding (hfinding : state.finding findingId = some finding) :
    finding ∈ state.findings :=
  (mem_of_lookup hfinding).1

theorem finding_of_map {update : Finding → Finding} (hordered : Ordered state)
    (hkey : ∀ finding, (update finding).id = finding.id)
    (happlied : applied.findings = state.findings.map update) :
    applied.finding findingId = (state.finding findingId).map update := by
  unfold ReviewRunState.finding
  rw [happlied, lookup_map hordered.findings hkey]

theorem answer_of_some (hfinding : state.finding findingId = some finding) :
    answer state findingId = finding.supersededBy := by
  unfold answer
  rw [hfinding, Option.bind_some]

theorem answer_of_none (hfinding : state.finding findingId = none) :
    answer state findingId = none := by
  unfold answer
  rw [hfinding, Option.bind_none]

theorem answer_of_map {update : Finding → Finding} (hordered : Ordered state)
    (hkey : ∀ finding, (update finding).id = finding.id)
    (happlied : applied.findings = state.findings.map update) :
    answer applied findingId =
      (state.finding findingId).bind (Finding.supersededBy ∘ update) := by
  unfold answer
  rw [finding_of_map hordered hkey happlied, Option.bind_map]

theorem live_of_unconserved (hlinked : Linked state)
    (hmem : finding ∈ state.findings) (hopen : finding.isConserved = false) :
    finding.supersededBy = none := by
  by_contra hsuperseded
  unfold Finding.isConserved at hopen
  rw [(hlinked.closed finding hmem).mpr hsuperseded] at hopen
  cases hopen

theorem recorded_ne_superseded {recordedKind : DispositionKind}
    (hrecorded : recorded kind = some (findingId, recordedKind)) :
    findingId ∈ names kind ∧ recordedKind ≠ .superseded := by
  have hresponse : ∀ response : FixerResponse, response.kind ≠ .superseded := by
    intro response
    cases response <;> exact fun h => by cases h
  cases kind <;> cases hrecorded <;>
    first
    | exact ⟨List.mem_singleton_self _, hresponse _⟩
    | exact ⟨List.mem_singleton_self _, fun h => by cases h⟩

theorem names_of_answered (hanswered : answered kind = some (canonical, closed)) :
    names kind = canonical :: closed := by
  cases kind <;> cases hanswered <;> rfl

/-- The target of a reconciliation. -/
theorem reconciled_target (hid : target.id = canonical) :
    reconciled canonical closed snapshots opening closing target =
      (snapshots.foldl Finding.mergeSourcesAndEvidence target).pushDisposition
        opening :=
  if_pos hid

theorem reconciled_closed (hself : canonical ∉ closed)
    (hmem : finding.id ∈ closed) :
    reconciled canonical closed snapshots opening closing finding =
      supersede canonical closing finding := by
  have hother : finding.id ≠ canonical := fun h => hself (h ▸ hmem)
  unfold reconciled
  rw [if_neg hother, if_pos hmem]

theorem reconciled_other (hother : finding.id ≠ canonical)
    (hmem : finding.id ∉ closed) :
    reconciled canonical closed snapshots opening closing finding = finding := by
  unfold reconciled
  rw [if_neg hother, if_neg hmem]

theorem grows_of_push {record : DispositionRecord}
    (hlive : finding.supersededBy = none) (hnamed : finding.id ∈ names event.kind) :
    Grows [event] finding (finding.pushDisposition record) where
  body := rfl
  sources := fun _ h => h
  evidence := fun _ h => h
  history := List.prefix_append _ _
  superseded := fun h => absurd hlive h
  unnamed := fun h => absurd hnamed (h event (List.mem_singleton_self _))

theorem grows_of_reconciled (hself : canonical ∉ closed)
    (hnamed : names event.kind = canonical :: closed)
    (hlive : finding.id ∈ canonical :: closed → finding.supersededBy = none) :
    Grows [event] finding
      (reconciled canonical closed snapshots opening closing finding) := by
  have habsurd : ∀ {grown : Finding}, finding.id ∈ canonical :: closed →
      (∀ other ∈ [event], finding.id ∉ names other.kind) → grown = finding := by
    intro grown hmem hunnamed
    have hmissing := hunnamed event (List.mem_singleton_self _)
    rw [hnamed] at hmissing
    exact absurd hmem hmissing
  by_cases hid : finding.id = canonical
  · have hmem : finding.id ∈ canonical :: closed := hid ▸ List.mem_cons_self
    have hmerged := merged_of_foldl snapshots finding
    rw [reconciled_target hid]
    constructor
    · unfold SameBody
      simp only [Finding.pushDisposition]
      rw [hmerged.body]
    · exact hmerged.sources
    · exact hmerged.evidence
    · exact hmerged.history.trans (List.prefix_append _ _)
    · exact fun h => absurd (hlive hmem) h
    · exact habsurd hmem
  · by_cases hclosed : finding.id ∈ closed
    · have hmem : finding.id ∈ canonical :: closed := List.mem_cons_of_mem _ hclosed
      rw [reconciled_closed hself hclosed]
      constructor
      · rfl
      · exact fun _ h => h
      · exact fun _ h => h
      · exact List.prefix_append _ _
      · exact fun h => absurd (hlive hmem) h
      · exact habsurd hmem
    · rw [reconciled_other hid hclosed]
      exact grows_refl finding

/-- The findings that are closed by an answer, each with the snapshot of it. -/
theorem exists_snapshot (hsnapshots : List.Forall₂ (fun identity snapshot =>
      state.finding identity = some snapshot ∧ Answerable state target snapshot)
      closed snapshots) (hmem : findingId ∈ closed) :
    ∃ snapshot ∈ snapshots, state.finding findingId = some snapshot ∧
      Answerable state target snapshot := by
  induction hsnapshots with
  | nil => cases hmem
  | cons hhead _ ih =>
      rcases List.mem_cons.mp hmem with rfl | hmem
      · exact ⟨_, List.mem_cons_self, hhead⟩
      · obtain ⟨snapshot, hsnapshot, hfound⟩ := ih hmem
        exact ⟨snapshot, List.mem_cons_of_mem _ hsnapshot, hfound⟩

/-- A finding that is present before a step is present after it. -/
theorem grown_of_changes (hordered : Ordered state) (hlinked : Linked state)
    (h : Changes sha256 state eventId event.kind applied)
    (hfinding : state.finding findingId = some finding) :
    ∃ grown, applied.finding findingId = some grown ∧
      Grows [event] finding grown := by
  have hid := id_of_finding hfinding
  have hmem := mem_of_finding hfinding
  have happlied := ordered_of_changes hordered h
  generalize hkind : event.kind = kind at h
  cases h with
  | submitted submission cycle hvalid hcycle hcurrent hphase hrevision hnew =>
      refine ⟨finding, (finding_eq_some_iff happlied).mpr ⟨?_, hid⟩,
        grows_refl finding⟩
      exact (List.mem_insertionSort _).mpr (List.mem_append_left _ hmem)
  | recorded kind recordedId recordedFinding record waivers hrecorded hfound hcurrent
      hopen hevent =>
      have hnamed := (recorded_ne_superseded hrecorded).1
      refine ⟨_, finding_of_map hordered ?_ rfl |>.trans
        (congrArg (Option.map _) hfinding), ?_⟩
      · intro finding
        split <;> rfl
      · split
        · next hsame =>
            have hrow : recordedFinding = finding := by
              rw [hid] at hsame
              rw [hsame, hfound, Option.some.injEq] at hfinding
              exact hfinding
            subst hrow
            refine grows_of_push (live_of_unconserved hlinked hmem hopen) ?_
            rw [hsame, hkind]
            exact hnamed
        · exact grows_refl finding
  | answered kind canonical closed target snapshots opening closing hanswered hself
      htarget hcurrent hlive hopened hsnapshots hopening hclosing =>
      refine ⟨_, finding_of_map hordered
        (fun _ => id_of_reconciled opening closing) rfl |>.trans
        (congrArg (Option.map _) hfinding), ?_⟩
      have hnamed : names event.kind = canonical :: closed := by
        rw [hkind]
        exact names_of_answered hanswered
      refine grows_of_reconciled hself hnamed ?_
      intro hmem
      rw [hid] at hmem
      rcases List.mem_cons.mp hmem with heq | hmem
      · rw [heq, htarget, Option.some.injEq] at hfinding
        rw [← hfinding]
        exact hlive
      · obtain ⟨snapshot, -, hfound, hanswerable⟩ := exists_snapshot hsnapshots hmem
        rw [hfinding, Option.some.injEq] at hfound
        rw [hfound]
        exact hanswerable.live
  | _ => exact ⟨finding, hfinding, grows_refl finding⟩

theorem mem_insertFindings {findings : List Finding} :
    finding ∈ (insertFindings state findings).findings ↔
      finding ∈ state.findings ∨ finding ∈ findings := by
  unfold insertFindings
  rw [List.mem_insertionSort, List.mem_append]

theorem answer_eq_some_iff (hordered : Ordered state) :
    answer state findingId = some answerId ↔ ∃ finding ∈ state.findings,
      finding.id = findingId ∧ finding.supersededBy = some answerId := by
  unfold answer
  rw [Option.bind_eq_some_iff]
  simp only [finding_eq_some_iff hordered, and_assoc]

theorem live_of_admitted {submission : ReviewSubmission} {reviewer : ActorId}
    (hbodies : ∀ finding ∈ submission.findings, finding.supersededBy = none)
    (hmem : finding ∈ admitted eventId submission reviewer) :
    finding.supersededBy = none ∧ finding.currentDisposition = .opened := by
  obtain ⟨body, hbody, rfl⟩ := List.mem_map.mp hmem
  exact ⟨hbodies body hbody, currentDisposition_of_push⟩

/-- A step that answers no finding keeps all the pointers. -/
theorem answer_of_unanswered (hordered : Ordered state)
    (h : Changes sha256 state eventId kind applied) (hanswered : answered kind = none) :
    answer applied = answer state := by
  have happlied := ordered_of_changes hordered h
  funext findingId
  cases h with
  | submitted submission cycle hvalid =>
      refine Option.ext fun answerId => ?_
      rw [answer_eq_some_iff happlied, answer_eq_some_iff hordered]
      have hbodies : ∀ finding ∈ submission.findings,
          finding.supersededBy = none :=
        fun finding hmem => ((submission_eq_ok hvalid).2 finding hmem).2.2.2.2
      constructor
      · rintro ⟨finding, hmem, hid, hsuperseded⟩
        rcases mem_insertFindings.mp hmem with hmem | hmem
        · exact ⟨finding, hmem, hid, hsuperseded⟩
        · rw [(live_of_admitted hbodies hmem).1] at hsuperseded
          cases hsuperseded
      · rintro ⟨finding, hmem, hid, hsuperseded⟩
        exact ⟨finding, mem_insertFindings.mpr (.inl hmem), hid, hsuperseded⟩
  | recorded kind recordedId recordedFinding record waivers =>
      refine (answer_of_map hordered ?_ rfl).trans ?_
      · intro finding
        split <;> rfl
      · unfold answer
        congr 1
        funext finding
        rw [Function.comp_apply]
        split <;> rfl
  | answered kind canonical closed target snapshots opening closing hsome =>
      rw [hsome] at hanswered
      cases hanswered
  | _ => rfl

/-- A step that answers findings adds a pointer from each of them. -/
theorem answer_of_answered (hordered : Ordered state)
    (h : Changes sha256 state eventId kind applied)
    (hanswered : answered kind = some (canonical, closed)) :
    answer applied = redirect (answer state) closed canonical := by
  funext findingId
  cases h with
  | answered kind found others target snapshots opening closing hsome hself htarget
      hcurrent hlive hopened hsnapshots =>
      rw [hanswered, Option.some.injEq, Prod.mk.injEq] at hsome
      obtain ⟨rfl, rfl⟩ := hsome
      rw [answer_of_map hordered (fun _ => id_of_reconciled opening closing) rfl]
      by_cases hmem : findingId ∈ closed
      · obtain ⟨snapshot, -, hsnapshot, -⟩ := exists_snapshot hsnapshots hmem
        rw [redirect_of_mem hmem, hsnapshot, Option.bind_some, Function.comp_apply,
          reconciled_closed hself (by rwa [id_of_finding hsnapshot])]
        rfl
      · rw [redirect_of_not_mem hmem]
        cases hfinding : state.finding findingId with
        | none => rw [answer_of_none hfinding, Option.bind_none]
        | some finding =>
            rw [answer_of_some hfinding, Option.bind_some, Function.comp_apply]
            have hid := id_of_finding hfinding
            by_cases hcanonical : findingId = canonical
            · rw [hcanonical] at hid
              rw [reconciled_target hid]
              exact (merged_of_foldl snapshots finding).supersededBy
            · rw [reconciled_other (by rwa [hid]) (by rwa [hid])]
  | recorded kind recordedId recordedFinding record waivers hrecorded =>
      cases kind <;> cases hanswered <;> cases hrecorded
  | ended kind terminalKind cause hends =>
      cases kind <;> cases hanswered <;> cases hends
  | _ => cases hanswered

theorem isClosed_of_live (hlive : finding.supersededBy = none)
    (hopen : finding.currentDisposition ≠ .superseded) : IsClosed finding :=
  ⟨fun h => absurd h hopen, fun h => absurd hlive h⟩

theorem isClosed_of_reconciled (hself : canonical ∉ closed)
    (hopening : opening.kind = .opened) (hclosing : closing.kind = .superseded)
    (hlive : finding.id = canonical → finding.supersededBy = none)
    (hfinding : IsClosed finding) :
    IsClosed (reconciled canonical closed snapshots opening closing finding) := by
  by_cases hid : finding.id = canonical
  · rw [reconciled_target hid]
    refine isClosed_of_live ?_ ?_
    · exact (merged_of_foldl snapshots finding).supersededBy.trans (hlive hid)
    · rw [currentDisposition_of_push, hopening]
      exact fun h => by cases h
  · by_cases hmem : finding.id ∈ closed
    · rw [reconciled_closed hself hmem]
      refine ⟨fun _ => Option.some_ne_none _, fun _ => ?_⟩
      exact currentDisposition_of_push.trans hclosing
    · rw [reconciled_other hid hmem]
      exact hfinding

theorem isClosed_of_changes (hordered : Ordered state) (hlinked : Linked state)
    (h : Changes sha256 state eventId kind applied) :
    ∀ finding ∈ applied.findings, IsClosed finding := by
  intro finding hmem
  cases h with
  | submitted submission cycle hvalid =>
      rcases mem_insertFindings.mp hmem with hmem | hmem
      · exact hlinked.closed finding hmem
      · have hbodies : ∀ finding ∈ submission.findings,
            finding.supersededBy = none :=
          fun finding hmem => ((submission_eq_ok hvalid).2 finding hmem).2.2.2.2
        obtain ⟨hlive, hopened⟩ := live_of_admitted hbodies hmem
        refine isClosed_of_live hlive ?_
        rw [hopened]
        exact fun h => by cases h
  | recorded kind recordedId found record waivers hrecorded hfound hcurrent hopen =>
      rcases mem_updateRow.mp hmem with ⟨row, hrow, hid, rfl⟩ | ⟨hrow, -⟩
      · have hsame := (finding_eq_some_iff hordered).mpr ⟨hrow, hid⟩
        rw [hfound, Option.some.injEq] at hsame
        subst hsame
        have hlive := live_of_unconserved hlinked hrow hopen
        refine isClosed_of_live hlive ?_
        rw [currentDisposition_of_push]
        exact (recorded_ne_superseded hrecorded).2
      · exact hlinked.closed finding hrow
  | answered kind canonical closed target snapshots opening closing hanswered hself
      htarget hcurrent hlive hopened hsnapshots hopening hclosing =>
      obtain ⟨row, hrow, rfl⟩ := List.mem_map.mp hmem
      refine isClosed_of_reconciled hself hopening.1 hclosing.1 ?_
        (hlinked.closed row hrow)
      intro hid
      have hsame := (finding_eq_some_iff hordered).mpr ⟨hrow, hid⟩
      rw [htarget, Option.some.injEq] at hsame
      rw [← hsame]
      exact hlive
  | _ => exact hlinked.closed finding hmem

/-- A finding that a step answers is retained by the answer. -/
theorem answers_of_answered (hordered : Ordered state)
    (h : Changes sha256 state eventId kind applied)
    (hanswered : answered kind = some (canonical, closed))
    (hmem : findingId ∈ closed) :
    ∃ finding answerer, applied.finding findingId = some finding ∧
      applied.finding canonical = some answerer ∧ Answers finding answerer := by
  cases h with
  | answered kind found others target snapshots opening closing hsome hself htarget
      hcurrent hlive hopened hsnapshots =>
      rw [hanswered, Option.some.injEq, Prod.mk.injEq] at hsome
      obtain ⟨rfl, rfl⟩ := hsome
      obtain ⟨snapshot, hsnapshot, hfound, hanswerable⟩ :=
        exists_snapshot hsnapshots hmem
      have hfinding := id_of_finding hfound
      have hmerged := merged_of_foldl snapshots target
      have hrow : ∀ id row, state.finding id = some row → ({ state with
          findings := state.findings.map (reconciled canonical closed snapshots
            opening closing) } : ReviewRunState).finding id =
          some (reconciled canonical closed snapshots opening closing row) := by
        intro id row hrow
        rw [finding_of_map hordered (fun _ => id_of_reconciled opening closing) rfl,
          hrow, Option.map_some]
      refine ⟨_, _, hrow findingId snapshot hfound, hrow canonical target htarget, ?_⟩
      rw [reconciled_closed hself (by rwa [hfinding]),
        reconciled_target (id_of_finding htarget)]
      constructor
      · rw [hmerged.body]
        exact hanswerable.category.symm
      · rw [hmerged.body]
        exact hanswerable.revision.symm
      · exact (hmerged.retains snapshot hsnapshot).1
      · exact (hmerged.retains snapshot hsnapshot).2
  | recorded kind recordedId recordedFinding record waivers hrecorded =>
      cases kind <;> cases hanswered <;> cases hrecorded
  | ended kind terminalKind cause hends =>
      cases kind <;> cases hanswered <;> cases hends
  | _ => cases hanswered

/-- Every pointer leads to a finding that stands for the one it leaves. -/
theorem answers_of_changes (hordered : Ordered state) (hlinked : Linked state)
    (h : Changes sha256 state eventId event.kind applied)
    (hanswer : answer applied findingId = some answerId) :
    ∃ finding answerer, applied.finding findingId = some finding ∧
      applied.finding answerId = some answerer ∧ Answers finding answerer := by
  have hkept : answer state findingId = some answerId →
      ∃ finding answerer, applied.finding findingId = some finding ∧
        applied.finding answerId = some answerer ∧ Answers finding answerer := by
    intro hold
    obtain ⟨finding, answerer, hfinding, hanswerer, hanswers⟩ :=
      hlinked.answered findingId answerId hold
    obtain ⟨grown, hgrown, hgrows⟩ :=
      grown_of_changes hordered hlinked h hfinding
    obtain ⟨later, hlater, hgrows'⟩ :=
      grown_of_changes hordered hlinked h hanswerer
    have hsame : grown = finding := by
      apply hgrows.superseded
      rw [answer_of_some hfinding] at hold
      rw [hold]
      exact Option.some_ne_none _
    subst hsame
    exact ⟨grown, later, hgrown, hlater,
      answers_trans hanswers (answers_of_grows hgrows')⟩
  cases hanswered : answered event.kind with
  | none =>
      rw [answer_of_unanswered hordered h hanswered] at hanswer
      exact hkept hanswer
  | some pair =>
      obtain ⟨canonical, closed⟩ := pair
      rw [answer_of_answered hordered h hanswered] at hanswer
      by_cases hmem : findingId ∈ closed
      · rw [redirect_of_mem hmem, Option.some.injEq] at hanswer
        subst hanswer
        exact answers_of_answered hordered h hanswered hmem
      · rw [redirect_of_not_mem hmem] at hanswer
        exact hkept hanswer

/-- Only ends are answered, and only by an end. -/
theorem unanswered_of_answered
    (hanswered : answered kind = some (canonical, closed))
    (h : Changes sha256 state eventId kind applied) :
    answer state canonical = none ∧ canonical ∉ closed ∧
      ∀ findingId ∈ closed, answer state findingId = none := by
  cases h with
  | answered kind found others target snapshots opening closing hsome hself htarget
      hcurrent hlive hopened hsnapshots =>
      rw [hanswered, Option.some.injEq, Prod.mk.injEq] at hsome
      obtain ⟨rfl, rfl⟩ := hsome
      refine ⟨(answer_of_some htarget).trans hlive, hself, ?_⟩
      intro findingId hmem
      obtain ⟨snapshot, -, hfound, hanswerable⟩ := exists_snapshot hsnapshots hmem
      exact (answer_of_some hfound).trans hanswerable.live
  | recorded kind recordedId recordedFinding record waivers hrecorded =>
      cases kind <;> cases hanswered <;> cases hrecorded
  | ended kind terminalKind cause hends =>
      cases kind <;> cases hanswered <;> cases hends
  | _ => cases hanswered

theorem linked_of_changes (hordered : Ordered state) (hlinked : Linked state)
    (h : Changes sha256 state eventId event.kind applied) : Linked applied := by
  have happlied := ordered_of_changes hordered h
  refine ⟨isClosed_of_changes hordered hlinked h,
    fun _ _ => answers_of_changes hordered hlinked h, ?_⟩
  intro finding hmem
  have hended : ∃ rootId, Ends (answer state) finding.id rootId := by
    cases hfinding : state.finding finding.id with
    | none => exact ⟨finding.id, ends_refl (answer_of_none hfinding)⟩
    | some before =>
        obtain ⟨rootId, hends⟩ := hlinked.ended before (mem_of_finding hfinding)
        rw [id_of_finding hfinding] at hends
        exact ⟨rootId, hends⟩
  obtain ⟨rootId, hends⟩ := hended
  cases hanswered : answered event.kind with
  | none =>
      rw [answer_of_unanswered hordered h hanswered]
      exact ⟨rootId, hends⟩
  | some pair =>
      obtain ⟨canonical, closed⟩ := pair
      obtain ⟨htarget, hself, hloose⟩ := unanswered_of_answered hanswered h
      rw [answer_of_answered hordered h hanswered]
      exact ⟨_, hends.redirect hloose hself htarget⟩

end Steps

/-! ### Runs -/

section Runs

variable {sha256 : List UInt8 → Sha256Digest} {state next applied :
    ReviewRunState} {event : ReviewEvent} {events rest : List ReviewEvent}
  {findingId : FindingId} {finding : Finding}

theorem findings_of_stepped (hstepped : Stepped sha256 state event next applied) :
    next.findings = applied.findings := by
  rw [hstepped.successor]
  rfl

theorem finding_of_stepped (hstepped : Stepped sha256 state event next applied) :
    next.finding = applied.finding := by
  unfold ReviewRunState.finding
  rw [findings_of_stepped hstepped]

theorem linked_of_run (hrun : ReviewRun sha256 events state) : Linked state := by
  refine run_induction (fun _ state => Linked state) ?_ ?_ hrun
  · rintro first initial ⟨command, hstart⟩
    obtain ⟨binding, limits, -, -, -, rfl⟩ := start_eq_ok hstart
    refine ⟨fun _ h => (by cases h), ?_, fun _ h => by cases h⟩
    intro findingId answerId h
    cases h
  · rintro events state event next hrun hlinked hstep
    obtain ⟨applied, hstepped⟩ := exists_stepped hrun hstep
    have happlied :=
      linked_of_changes (ordered_of_run hrun) hlinked hstepped.changes
    have hfinding := finding_of_stepped hstepped
    have hanswer : answer next = answer applied := by
      unfold answer
      rw [hfinding]
    constructor
    · rw [findings_of_stepped hstepped]
      exact happlied.closed
    · rw [hanswer, hfinding]
      exact happlied.answered
    · rw [hanswer, findings_of_stepped hstepped]
      exact happlied.ended

/-- A finding of a run is still there after more of the run, and has only grown. -/
theorem grown_of_run (hrun : ReviewRun sha256 events state)
    (hrest : Run (Steps sha256) state rest next)
    (hfinding : state.finding findingId = some finding) :
    ∃ grown, next.finding findingId = some grown ∧ Grows rest finding grown := by
  induction hrest generalizing events finding with
  | nil => exact ⟨finding, hfinding, grows_refl finding⟩
  | @cons state middle next event rest hstep _ ih =>
      obtain ⟨applied, hstepped⟩ := exists_stepped hrun hstep
      obtain ⟨grown, hgrown, hgrows⟩ := grown_of_changes (ordered_of_run hrun)
        (linked_of_run hrun) hstepped.changes hfinding
      rw [← finding_of_stepped hstepped] at hgrown
      obtain ⟨later, hlater, hgrows'⟩ := ih (reviewRun_snoc hrun hstep) hgrown
      exact ⟨later, hlater, grows_trans hgrows hgrows'⟩

/-! ### Admission -/

theorem holds_of_grows {submitted grown : Finding}
    (hholds : Holds event submitted finding) (hgrows : Grows events finding grown) :
    Holds event submitted grown where
  body := by
    unfold SameBody
    rw [hgrows.body, hholds.body]
  sources := fun _ h => hgrows.sources (hholds.sources h)
  evidence := fun _ h => hgrows.evidence (hholds.evidence h)
  opened := by
    obtain ⟨opening, hevent, hopened, hprefix⟩ := hholds.opened
    exact ⟨opening, hevent, hopened, hprefix.trans hgrows.history⟩

theorem holds_of_submitted {submission : ReviewSubmission}
    (hordered : Ordered state)
    (h : Changes sha256 state event.id (.reviewSubmitted submission) applied)
    (hmem : finding ∈ submission.findings) :
    ∃ held, applied.finding finding.id = some held ∧ Holds event finding held := by
  have happlied := ordered_of_changes hordered h
  cases h with
  | submitted _ cycle hvalid =>
      have hbody := (submission_eq_ok hvalid).2 finding hmem
      refine ⟨_, (finding_eq_some_iff happlied).mpr
        ⟨mem_insertFindings.mpr (.inr (List.mem_map_of_mem hmem)), rfl⟩, ?_⟩
      refine ⟨rfl, fun _ h => h, fun _ h => h, ?_⟩
      refine ⟨openRecord event.id submission cycle.assignment.reviewer.actorId
        finding, rfl, rfl, ?_⟩
      simp [Finding.pushDisposition, hbody.2.2.2.1]
  | recorded kind recordedId recordedFinding record waivers hrecorded =>
      cases hrecorded
  | answered kind canonical closed target snapshots opening closing hanswered =>
      cases hanswered
  | ended kind terminalKind cause hends => cases hends

theorem holds_of_run (hrun : ReviewRun sha256 events state) :
    ∀ event ∈ events, ∀ submission, event.kind = .reviewSubmitted submission →
      ∀ finding ∈ submission.findings, ∃ held,
        state.finding finding.id = some held ∧ Holds event finding held := by
  refine run_induction (fun events state => ∀ event ∈ events, ∀ submission,
    event.kind = .reviewSubmitted submission → ∀ finding ∈ submission.findings,
      ∃ held, state.finding finding.id = some held ∧ Holds event finding held)
    ?_ ?_ hrun
  · rintro first initial ⟨command, hstart⟩ event hmem submission hkind
    obtain ⟨binding, limits, -, hfirst, -⟩ := start_eq_ok hstart
    obtain rfl := List.mem_singleton.mp hmem
    rw [hfirst] at hkind
    cases hkind
  · intro events state event next hrun ih hstep other hmem submission hkind finding
      hfinding
    obtain ⟨applied, hstepped⟩ := exists_stepped hrun hstep
    rw [finding_of_stepped hstepped]
    rcases List.mem_append.mp hmem with hmem | hmem
    · obtain ⟨held, hheld, hholds⟩ := ih other hmem submission hkind finding hfinding
      obtain ⟨grown, hgrown, hgrows⟩ := grown_of_changes (ordered_of_run hrun)
        (linked_of_run hrun) hstepped.changes hheld
      exact ⟨grown, hgrown, holds_of_grows hholds hgrows⟩
    · obtain rfl := List.mem_singleton.mp hmem
      have hchanges := hstepped.changes
      rw [hkind] at hchanges
      exact holds_of_submitted (ordered_of_run hrun) hchanges hfinding

/-! ### Completion -/

/-- A run has a terminal exactly if it is over, and a completed one leaves no
current finding unconserved. -/
structure Terminated (state : ReviewRunState) : Prop where
  ended : state.phase ≠ .terminal → state.terminal = none
  conserved : ∀ terminal, state.terminal = some terminal →
    terminal.kind = .completed → state.unconservedCurrentFindings = []

theorem terminated_of_changes {kind : ReviewEventKind} {eventId : EventId}
    (hopen : state.phase ≠ .terminal) (hterminated : Terminated state)
    (h : Changes sha256 state eventId kind applied) : Terminated applied := by
  have hnone := hterminated.ended hopen
  cases h with
  | ended kind terminalKind cause hends =>
      refine ⟨fun h => absurd rfl h, ?_⟩
      intro terminal hterminal hcompleted
      cases hterminal
      cases kind <;> cases hends <;> cases hcompleted
  | oscillated htriggered =>
      refine ⟨fun h => absurd rfl h, ?_⟩
      intro terminal hterminal hcompleted
      cases hterminal
      cases hcompleted
  | completed hcalm hquorum hconserved =>
      exact ⟨fun h => absurd rfl h, fun _ _ _ => hconserved⟩
  | _ =>
      refine ⟨fun _ => hnone, ?_⟩
      intro terminal hterminal
      have hsome : state.terminal = some terminal := hterminal
      rw [hnone] at hsome
      cases hsome

theorem terminated_of_run (hrun : ReviewRun sha256 events state) :
    Terminated state := by
  refine run_induction (fun _ state => Terminated state) ?_ ?_ hrun
  · rintro first initial ⟨command, hstart⟩
    obtain ⟨binding, limits, -, -, -, rfl⟩ := start_eq_ok hstart
    exact ⟨fun _ => rfl, fun _ h => by cases h⟩
  · intro events state event next hrun hterminated hstep
    obtain ⟨applied, hstepped⟩ := exists_stepped hrun hstep
    have happlied := terminated_of_changes hstepped.unfinished hterminated
      hstepped.changes
    rw [hstepped.successor]
    exact ⟨happlied.ended, happlied.conserved⟩

theorem unconserved_of_complete (hrun : ReviewRun sha256 events state)
    (hcomplete : Complete state) : state.unconservedCurrentFindings = [] := by
  rcases hcomplete with hready | ⟨terminal, hterminal, hcompleted⟩
  · unfold ReviewRunState.completionReady at hready
    rw [Bool.and_eq_true, List.isEmpty_iff] at hready
    exact hready.2
  · exact (terminated_of_run hrun).conserved terminal hterminal hcompleted

theorem isConserved_of_current (hnone : state.unconservedCurrentFindings = [])
    (hmem : finding ∈ state.findings)
    (hcurrent : state.findingIsCurrent finding = true) :
    finding.isConserved = true := by
  unfold ReviewRunState.unconservedCurrentFindings at hnone
  rw [List.map_eq_nil_iff, List.filter_eq_nil_iff] at hnone
  have hconserved := hnone finding hmem
  rwa [hcurrent, Bool.true_and, Bool.not_eq_true', Bool.not_eq_false] at hconserved

theorem ownClosure_of_complete (hrun : ReviewRun sha256 events state)
    (hmem : finding ∈ state.findings) (hlive : finding.supersededBy = none)
    (hcurrent : state.findingIsCurrent finding = true)
    (hcomplete : Complete state) : finding.currentDisposition ∈ ownClosures := by
  have hconserved := isConserved_of_current (unconserved_of_complete hrun hcomplete)
    hmem hcurrent
  have hclosed := (linked_of_run hrun).closed finding hmem
  unfold Finding.isConserved at hconserved
  cases hdisposition : finding.currentDisposition with
  | superseded => exact absurd hlive (hclosed.mp hdisposition)
  | resolutionConfirmed | invalidationConfirmed | waived => simp [ownClosures]
  | _ =>
      rw [hdisposition] at hconserved
      cases hconserved

/-! ### The claim of a run -/

theorem answers_of_follows {wayId : FindingId} (hlinked : Linked state)
    (hfinding : state.finding findingId = some finding)
    (hfollows : Follows (answer state) findingId wayId) :
    ∃ onWay, state.finding wayId = some onWay ∧ Answers finding onWay := by
  induction hfollows with
  | refl => exact ⟨finding, hfinding, answers_refl finding⟩
  | tail _ hpointer ih =>
      obtain ⟨onWay, hway, hanswers⟩ := ih
      obtain ⟨left, answerer, hleft, hanswerer, hlast⟩ :=
        hlinked.answered _ _ hpointer
      rw [hway, Option.some.injEq] at hleft
      subst hleft
      exact ⟨answerer, hanswerer, answers_trans hanswers hlast⟩

theorem root_of_run (hrun : ReviewRun sha256 events state)
    (hfinding : state.finding findingId = some finding) :
    ∃ rootId root, Root state findingId rootId root := by
  have hlinked := linked_of_run hrun
  obtain ⟨rootId, hends⟩ := hlinked.ended finding (mem_of_finding hfinding)
  rw [id_of_finding hfinding] at hends
  obtain ⟨root, hroot, -⟩ := answers_of_follows hlinked hfinding hends.follows
  have hlive : root.supersededBy = none := (answer_of_some hroot).symm.trans hends.last
  refine ⟨rootId, root, hends, hroot, hlive, ?_, ?_⟩
  · intro wayId hfollows
    obtain ⟨onWay, hway, -⟩ := answers_of_follows hlinked hfinding hfollows
    obtain ⟨last, hlast, hanswers⟩ :=
      answers_of_follows hlinked hway (hends.of_follows hfollows).follows
    rw [hroot, Option.some.injEq] at hlast
    subst hlast
    exact ⟨onWay, hway, hanswers⟩
  · exact ownClosure_of_complete hrun (mem_of_finding hroot) hlive

theorem conserved_of_run (hrun : ReviewRun sha256 events state) :
    Conserved events state where
  admitted := holds_of_run hrun
  closed := fun _ finding hfinding =>
    (linked_of_run hrun).closed finding (mem_of_finding hfinding)
  acyclic := by
    intro findingId hcycle
    obtain ⟨answerId, hanswer, -⟩ := Relation.TransGen.head'_iff.mp hcycle
    obtain ⟨finding, -, hfinding, -⟩ :=
      (linked_of_run hrun).answered findingId answerId hanswer
    obtain ⟨rootId, root, hroot⟩ := root_of_run hrun hfinding
    exact hroot.ends.not_cycle hcycle
  rooted := by
    intro findingId finding hfinding
    obtain ⟨rootId, root, hroot⟩ := root_of_run hrun hfinding
    exact ⟨rootId, root, hroot, fun _ hends => hroot.ends.unique hends⟩

/-- A run conserves its findings: in every state they are held, linked without a
cycle, and answered by exactly one finding that is open to a closure of its own;
and whatever the run goes on with, they only grow, by the events that name them. -/
theorem findings_conserved (hrun : ReviewRun sha256 events state) :
    Conserved events state ∧
    ∀ rest next, Run (Steps sha256) state rest next →
      ∀ findingId finding, state.finding findingId = some finding →
        ∃ grown, next.finding findingId = some grown ∧
          Grows rest finding grown :=
  ⟨conserved_of_run hrun, fun _ _ hrest _ _ hfinding =>
    grown_of_run hrun hrest hfinding⟩

end Runs

/-! ### A run with a duplicate -/

def smallAssignment : ReviewAssignment where
  cycleId := smallId 1
  ordinal := 1
  bindingDigest := zeroDigest
  revision := smallRevision
  reviewer := ⟨smallId 2, zeroDigest, zeroDigest, zeroDigest, zeroDigest,
    zeroDigest, true⟩
  categories := [⟨zeroDigest⟩]
  contextPlanId := ⟨zeroDigest⟩
  freshContext := true
  independence := ⟨false, false, false, false, false, false, false⟩

def smallFinding (findingId : FindingId) : Finding where
  id := findingId
  origin := ⟨smallId 1, smallId 2⟩
  sources := [⟨smallId 1, smallId 2⟩]
  category := ⟨zeroDigest⟩
  severity := .high
  blocking := true
  confidence := 1
  requirements := []
  locations := []
  evidence := [smallId 1]
  description := "d"
  reproduction := "r"
  expectedBehavior := "e"
  remediation := "m"
  revision := smallRevision
  normalizedDigest := zeroDigest
  dispositions := []
  supersededBy := none

/-- Two findings are submitted, and the second is answered by the first. -/
def smallDuplicate : List Request :=
  [⟨smallId 2, smallId 2, .assignReviewer smallAssignment⟩,
    ⟨smallId 3, smallId 3, .submitReview ⟨smallId 1, smallRevision, [⟨zeroDigest⟩],
      [smallFinding (smallId 1), smallFinding (smallId 2)], zeroDigest⟩⟩,
    ⟨smallId 4, smallId 4,
      .reconcileDuplicates (smallId 1) [smallId 2] zeroDigest⟩]

theorem answer_smallDuplicate :
    (attempts (fun _ => zeroDigest) (smallStart fun _ => zeroDigest)
      smallDuplicate).map (fun state => answer state (smallId 2)) =
        some (some (smallId 1)) := by
  cbv

theorem findings_conserved_of_duplicate : ∃ events state,
    ReviewRun (fun _ => zeroDigest) events state ∧
      answer state (smallId 2) = some (smallId 1) ∧ Conserved events state ∧
      ∀ rest next, Run (Steps fun _ => zeroDigest) state rest next →
        ∀ findingId finding, state.finding findingId = some finding →
          ∃ grown, next.finding findingId = some grown ∧
            Grows rest finding grown := by
  obtain ⟨state, hstate, hanswer⟩ := Option.map_eq_some_iff.mp answer_smallDuplicate
  obtain ⟨first, -, hstart⟩ := reviewRun_smallStart fun _ => zeroDigest
  obtain ⟨rest, -, -, hrun⟩ := reviewRun_of_attempts hstart hstate
  exact ⟨_, state, hrun, hanswer, findings_conserved hrun⟩

end Peritus.Review.Findings
