import Peritus.Collections
import Peritus.Review.Estimates
import Peritus.Review.Findings

/-!
The size check of the commit path, and the runs that it never refuses: their
bindings, assignments and submissions are small enough for the constants of the
estimates.
-/

namespace Peritus.Review.Commit

open Peritus.Types Checked Collections SortedTable Disposition State
open Canonical Validation Reports Reducer Runs Edits Findings Wire Estimates
open Codec.Writer hiding canonical

/-! ### The check -/

/-- What a commit compares with the limits before it reaches the journal. -/
def checkSizes (command : ReviewCommand) (transition : ReviewTransition) :
    Except ReviewError Unit :=
  let limits := transition.state.limits
  ensure (!(decide (limits.payloadBytes < size (writeCommand command)) ||
      decide (limits.payloadBytes < size (writeEvent transition.event)) ||
      decide (limits.stateBytes < size (writeState transition.state))))
    (reject .journal
      ("canonical review command, event, or checkpoint exceeds its configured " ++
        "byte limit"))

section Accepted

variable (sha256 : List UInt8 → Sha256Digest)

/-- A command accepted after the events of a run, or as its start. -/
def Decides (history : List ReviewEvent) (command : ReviewCommand)
    (transition : ReviewTransition) : Prop :=
  (history = [] ∧ start sha256 command = .ok transition) ∨
    ∃ state, ReviewRun sha256 history state ∧
      decideCommand sha256 state command = .ok transition

variable {sha256} {state next applied : ReviewRunState} {eventId : EventId}
  {kind : ReviewCommandKind} {emitted : ReviewEventKind}
  {events history : List ReviewEvent} {command : ReviewCommand}
  {transition : ReviewTransition}

theorem checkSizes_eq_ok_iff :
    checkSizes command transition = .ok () ↔
      size (writeCommand command) ≤ transition.state.limits.payloadBytes ∧
      size (writeEvent transition.event) ≤
        transition.state.limits.payloadBytes ∧
      size (writeState transition.state) ≤
        transition.state.limits.stateBytes := by
  simp [checkSizes, and_assoc]

/-- What the sizes of an accepted transition depend on. -/
theorem decideCommand_eq_ok
    (h : decideCommand sha256 state command = .ok transition) :
    command.kind.isStart = false ∧
      command.expectedPreviousEvent = some state.lastEventId ∧
      transition.event.previousEvent = some state.lastEventId ∧
      estimatedPayloadBytes command.kind ≤ state.limits.payloadBytes ∧
      ∃ applied sequence, apply sha256 state command.eventId command.kind =
          .ok (applied, transition.event.kind) ∧
        estimatedEncodedBytes (recompute applied) ≤ applied.limits.stateBytes ∧
        transition.state = advance sha256 (recompute applied) sequence
          command.eventId command.commandId := by
  simp only [decideCommand, validateFences, bind_eq_ok_iff, exists_unit_iff,
    ensure_eq_ok_iff, Bool.and_eq_true, Bool.not_eq_true', decide_eq_true_eq,
    Except.ok.injEq] at h
  obtain ⟨⟨-, -, ⟨⟨⟨⟨⟨-, -⟩, -⟩, hprevious⟩, -⟩, -⟩, hstart⟩, hpayload,
    sequence, -, ⟨applied, emitted⟩, happlies, hbytes, rfl⟩ := h
  exact ⟨hstart, hprevious, rfl, hpayload, applied, sequence, happlies, hbytes,
    rfl⟩

theorem fresh_of_submission {submission : ReviewSubmission}
    {limits : ReviewLimits} {blocking : FindingSeverity}
    (h : validateSubmission sha256 limits submission blocking = .ok ()) :
    ∀ finding ∈ submission.findings, Fresh finding := by
  intro finding hmem
  obtain ⟨-, -, hsources, hdispositions, hlive⟩ :=
    (submission_eq_ok h).2 finding hmem
  refine ⟨?_, hdispositions, hlive⟩
  rw [hsources, List.length_singleton]

/-- A submission that is accepted, and the cycle it is for. -/
theorem submit_eq_ok {submission : ReviewSubmission}
    (h : submit sha256 state eventId submission = .ok (applied, emitted)) :
    validateSubmission sha256 state.limits submission
        state.binding.blockingSeverity = .ok () ∧
      ∃ cycle ∈ state.cycles, submission.categories ⊆
          cycle.assignment.categories ∧
        state.cycle submission.cycleId = some cycle ∧
        updateCycle (insertFindings state (admitted eventId submission
            cycle.assignment.reviewer.actorId)) submission.cycleId
          "submission cycle disappeared" (fun cycle =>
            { cycle with submission := some submission, phase := .submitted }) =
          .ok applied := by
  simp only [submit, bind_eq_ok_iff, exists_unit_iff, ensure_eq_ok_iff,
    cycleOf_eq_ok_iff, Bool.and_eq_true, decide_eq_true_eq,
    List.all_eq_true, Except.ok.injEq, Prod.mk.injEq] at h
  obtain ⟨hvalid, cycle, hcycle, ⟨⟨-, hcategories⟩, -⟩, -, _, hupdated, rfl,
    -⟩ := h
  exact ⟨hvalid, cycle, List.mem_of_find?_eq_some hcycle, hcategories, hcycle,
    hupdated⟩

theorem fresh_of_apply
    (h : apply sha256 state eventId kind = .ok (applied, emitted)) :
    ∀ submission, kind = .submitReview submission →
      ∀ finding ∈ submission.findings, Fresh finding := by
  rintro submission rfl
  simp only [apply, ensure_bind_eq_ok_iff, dispatch] at h
  exact fresh_of_submission (submit_eq_ok h.2).1

/-! ### Payloads -/

theorem size_of_decide
    (h : decideCommand sha256 state command = .ok transition) :
    size (writeCommand command) = 201 + kindSize command.kind ∧
      size (writeEvent transition.event) = 233 + kindSize command.kind := by
  obtain ⟨-, hprevious, hevent, -, applied, -, happlies, -⟩ :=
    decideCommand_eq_ok h
  rw [size_writeCommand, size_writeEvent, hprevious, hevent,
    commandKind_of_apply happlies]
  exact ⟨rfl, rfl⟩

theorem payload_lt (limits : ReviewLimits) : limits.payloadBytes < u64Max := by
  have hlimit := limits.ofPayloadBytes.2
  unfold u64Max
  omega

theorem estimated_of_decide
    (h : decideCommand sha256 state command = .ok transition) :
    Estimated command transition.event ↔ covered command.kind = true := by
  obtain ⟨hstart, -, -, hpayload, applied, -, happlies, -⟩ :=
    decideCommand_eq_ok h
  obtain ⟨hcommand, hevent⟩ := size_of_decide h
  have hexact := (saturates_estimatedPayloadBytes command.kind).eq_of_lt
    (Nat.lt_of_le_of_lt hpayload (payload_lt state.limits))
  rw [← kindSize_le_iff hstart (fresh_of_apply happlies), Estimated, hcommand,
    hevent, hexact]
  omega

theorem estimated_of_start (h : start sha256 command = .ok transition) :
    Estimated command transition.event ↔ covered command.kind = true := by
  obtain ⟨binding, limits, hkind, hevent, -⟩ := start_eq_ok h
  have hsmall : estimatedPayloadBytes command.kind ≤ bindingAllowance binding := by
    have h := saturates_estimatedPayloadBytes command.kind
    have hle : estimatedPayloadBytes command.kind ≤ u64Max := by
      rw [hkind]
      exact Nat.min_le_right _ _
    rw [hkind] at h hle ⊢
    unfold Saturating.Saturates at h
    rw [Nat.min_eq_left hle] at h
    rw [h]
    exact Nat.min_le_left _ _
  constructor
  · rintro ⟨-, hsize⟩
    have hgrown := Nat.le_trans hsize hsmall
    rw [size_writeEvent, hevent] at hgrown
    simp only [commandKind, kindSize, bindingSize, bindingAllowance] at hgrown
    omega
  · intro hcovered
    rw [hkind] at hcovered
    cases hcovered

theorem estimated_of_decides (h : Decides sha256 history command transition) :
    Estimated command transition.event ↔ covered command.kind = true := by
  rcases h with ⟨-, hstart⟩ | ⟨state, -, hdecide⟩
  · exact estimated_of_start hstart
  · exact estimated_of_decide hdecide

/-! ### The estimate of a state -/

theorem stateAllowance_advance (sequence : EventSequence)
    (commandId : CommandId) :
    stateAllowance (advance sha256 state sequence eventId commandId) =
      stateAllowance state + 16 := by
  simp only [stateAllowance, advance, sealState, List.length_append,
    List.length_singleton]
  omega

theorem state_lt (limits : ReviewLimits) :
    limits.stateBytes + 16 ≤ 16 * 1048576 := by
  have hlimit := limits.ofStateBytes.2
  omega

/-- What the reducer has compared with the state limit is exact. -/
theorem allowance_of_bytes {limits : ReviewLimits}
    (h : estimatedEncodedBytes state ≤ limits.stateBytes) :
    estimatedEncodedBytes state = stateAllowance state := by
  have hlimit := state_lt limits
  refine (saturates_estimatedEncodedBytes state).eq_of_lt ?_
  unfold u64Max
  omega

theorem allowance_of_run (hrun : ReviewRun sha256 events state) :
    stateAllowance state ≤ 16 * 1048576 := by
  refine run_induction (fun _ state => stateAllowance state ≤ 16 * 1048576)
    ?_ ?_ hrun
  · rintro first initial ⟨command, hstart⟩
    obtain ⟨binding, limits, -, -, -, rfl⟩ := start_eq_ok hstart
    simp [stateAllowance, sealState, genesis]
  · rintro events state event next - - hstep
    obtain ⟨applied, haccepted⟩ := exists_accepted hstep
    have hexact := allowance_of_bytes haccepted.bytes
    have hlimit := state_lt applied.limits
    have hbytes := haccepted.bytes
    rw [haccepted.successor, stateAllowance_advance, ← hexact]
    omega

theorem estimate_of_run (hrun : ReviewRun sha256 events state) :
    estimatedEncodedBytes state = stateAllowance state := by
  have hallowance := allowance_of_run hrun
  refine (saturates_estimatedEncodedBytes state).eq_of_exact_lt ?_
  unfold u64Max
  omega

theorem size_le_estimate_iff (hrun : ReviewRun sha256 events state) :
    size (writeState state) ≤ estimatedEncodedBytes state ↔ Balanced state := by
  have haccount := checkpointSize_add_room state
  rw [size_writeState, estimate_of_run hrun]
  unfold Estimates.Balanced
  omega

end Accepted

/-! ### Modest runs -/

/-- A command whose items are small enough for the constants of the estimate. -/
def isModest : ReviewCommandKind → Bool
  | .startRun binding _ | .advanceRevision binding =>
      decide (bindingOverhead binding
        + 64 * binding.requiredCategories.length ≤ 1504)
  | .assignReviewer assignment => decide (assignment.categories.length ≤ 7)
  | .submitReview submission => submission.findings.all fun finding =>
      decide (finding.locations.length ≤ 13)
  | _ => true

/-- A retained finding has room for itself and for its place in a terminal. -/
structure FindingFits (finding : Finding) : Prop where
  room : findingOverhead finding + 16 ≤ findingRoom finding
  records : ∀ record ∈ finding.dispositions, recordOverhead record ≤ 101

/-- A cycle has room, also once it is submitted. -/
structure CycleFits (required : List ReviewCategory) (cycle : ReviewCycle) :
    Prop where
  room : cycleOverhead cycle ≤ cycleRoom cycle
  narrow : cycle.assignment.categories.length ≤ 7
  assigned : cycle.assignment.categories ⊆ required
  submitted : ∀ submission, cycle.submission = some submission →
    submission.categories ⊆ required

/-- The reports of a run have room. -/
structure ReportsFit (required : List ReviewCategory) (quorum : QuorumReport)
    (oscillation : OscillationReport) : Prop where
  covered : quorum.coveredCategories.length ≤ required.length
  kinds : oscillation.kinds.length ≤ 4

/-- Every item of the run has room. -/
structure Roomy (state : ReviewRunState) : Prop where
  binding : bindingOverhead state.binding
    + 64 * state.binding.requiredCategories.length ≤ 1504
  reports : ReportsFit state.binding.requiredCategories state.quorum
    state.oscillation
  cycles : ∀ cycle ∈ state.cycles,
    CycleFits state.binding.requiredCategories cycle
  findings : ∀ finding ∈ state.findings, FindingFits finding
  terminal : ∀ terminal, state.terminal = some terminal →
    ReportsFit state.binding.requiredCategories terminal.quorum
        terminal.oscillation ∧
      terminal.unconservedFindings.length ≤ state.findings.length

section Roomy

variable {sha256 : List UInt8 → Sha256Digest} {state next applied merged :
    ReviewRunState} {eventId : EventId} {kind : ReviewCommandKind}
  {emitted : ReviewEventKind} {finding source : Finding}
  {record : DispositionRecord} {findingId canonical : FindingId}
  {detail : String} {required : List ReviewCategory} {cycle : ReviewCycle}

/-! ### Findings -/

theorem fits_of_push (hfits : FindingFits finding)
    (hrecord : recordOverhead record ≤ 101) :
    FindingFits (finding.pushDisposition record) := by
  obtain ⟨hroom, hrecords⟩ := hfits
  constructor
  · simp only [findingOverhead, findingRoom, Finding.pushDisposition,
      List.map_append, List.sum_append, List.map_singleton, List.sum_singleton,
      List.length_append, List.length_singleton] at hroom ⊢
    omega
  · intro found hmem
    rcases List.mem_append.mp hmem with hmem | hmem
    · exact hrecords found hmem
    · rw [List.mem_singleton.mp hmem]
      exact hrecord

/-- The record that closes a finding also pays for the name of its successor. -/
theorem fits_of_supersede (hfits : FindingFits finding)
    (hrecord : recordOverhead record ≤ 85) :
    FindingFits (supersede canonical record finding) := by
  obtain ⟨hroom, hrecords⟩ := hfits
  constructor
  · simp only [findingOverhead, findingRoom, supersede,
      Finding.pushDisposition, Finding.setSupersededBy, List.map_append,
      List.sum_append, List.map_singleton, List.sum_singleton,
      List.length_append, List.length_singleton, present_some] at hroom ⊢
    omega
  · intro found hmem
    rcases List.mem_append.mp hmem with hmem | hmem
    · exact hrecords found hmem
    · rw [List.mem_singleton.mp hmem]
      omega

theorem sum_recordOverhead_le {records : List DispositionRecord}
    (hrecords : ∀ record ∈ records, recordOverhead record ≤ 101) :
    (records.map recordOverhead).sum ≤ 101 * records.length := by
  induction records with
  | nil => exact Nat.le_refl 0
  | cons record rest ih =>
      obtain ⟨hfirst, hrest⟩ := List.forall_mem_cons.mp hrecords
      have hsum := ih hrest
      rw [List.map_cons, List.sum_cons, List.length_cons]
      omega

theorem fits_of_merge (hfits : FindingFits finding)
    (hsource : FindingFits source) :
    FindingFits (finding.mergeSourcesAndEvidence source) := by
  have hsum := sum_recordOverhead_le hsource.records
  obtain ⟨hroom, hrecords⟩ := hfits
  constructor
  · simp only [findingOverhead, findingRoom, Finding.mergeSourcesAndEvidence,
      List.map_append, List.sum_append, List.length_append] at hroom ⊢
    omega
  · intro found hmem
    rcases List.mem_append.mp hmem with hmem | hmem
    · exact hrecords found hmem
    · exact hsource.records found hmem

theorem fits_of_admitted (hfresh : Fresh finding)
    (hlocations : finding.locations.length ≤ 13)
    (hrecord : recordOverhead record ≤ 32) :
    FindingFits (finding.pushDisposition record) := by
  constructor
  · simp only [findingOverhead, findingRoom, Finding.pushDisposition,
      hfresh.dispositions, hfresh.live, List.nil_append, List.map_singleton,
      List.sum_singleton, List.length_singleton, present_none]
    omega
  · intro found hmem
    simp only [Finding.pushDisposition, hfresh.dispositions, List.nil_append,
      List.mem_singleton] at hmem
    rw [hmem]
    omega

theorem responseRecord_le (response : FixerResponse) :
    recordOverhead (responseRecord eventId response) ≤ 101 := by
  cases response <;>
    simp [recordOverhead, responseRecord, FixerResponse.superseding,
      FixerResponse.approvalRequestId, FixerResponse.authority,
      FixerResponse.evidenceRequirementId]

theorem fits_of_finding (hroomy : Roomy state)
    (hfinding : state.finding findingId = some finding) :
    FindingFits finding :=
  hroomy.findings finding (mem_of_lookup hfinding).1

theorem roomy_of_updateFinding {update : Finding → Finding}
    (hroomy : Roomy state)
    (hupdate : ∀ finding, FindingFits finding → FindingFits (update finding))
    (h : updateFinding state findingId detail update = .ok next) :
    Roomy next := by
  unfold updateFinding at h
  split at h
  · next index hindex =>
      cases h
      refine ⟨hroomy.binding, hroomy.reports, hroomy.cycles, ?_, ?_⟩
      · intro finding hmem
        obtain ⟨position, hposition⟩ := List.mem_iff_getElem?.mp hmem
        rw [List.getElem?_modify] at hposition
        obtain ⟨found, hfound, rfl⟩ := Option.map_eq_some_iff.mp hposition
        have hfits := hroomy.findings found (List.mem_of_getElem? hfound)
        split
        · exact hupdate found hfits
        · exact hfits
      · intro terminal hterminal
        obtain ⟨hreports, hlisted⟩ := hroomy.terminal terminal hterminal
        refine ⟨hreports, ?_⟩
        rw [List.length_modify]
        exact hlisted
  · cases h

theorem roomy_of_mergeAll {snapshots : List Finding} (hroomy : Roomy state)
    (hsnapshots : ∀ snapshot ∈ snapshots, FindingFits snapshot)
    (h : mergeAll canonical state snapshots = .ok next) : Roomy next := by
  induction snapshots generalizing state with
  | nil =>
      cases h
      exact hroomy
  | cons snapshot rest ih =>
      obtain ⟨hfirst, hrest⟩ := List.forall_mem_cons.mp hsnapshots
      obtain ⟨merged, hmerged, hnext⟩ := bind_eq_ok_iff.mp h
      refine ih (roomy_of_updateFinding hroomy ?_ hmerged) hrest hnext
      exact fun _ hfits => fits_of_merge hfits hfirst

theorem roomy_of_supersedeAll {closed : List FindingId} (hroomy : Roomy state)
    (hrecord : recordOverhead record ≤ 85)
    (h : supersedeAll canonical record state closed = .ok next) :
    Roomy next := by
  induction closed generalizing state with
  | nil =>
      cases h
      exact hroomy
  | cons duplicate rest ih =>
      obtain ⟨merged, hmerged, hnext⟩ := bind_eq_ok_iff.mp h
      refine ih (roomy_of_updateFinding hroomy ?_ hmerged) hnext
      exact fun _ hfits => fits_of_supersede hfits hrecord

theorem roomy_of_recordResponse {response : FixerResponse} {waiverOnly : Bool}
    (hroomy : Roomy state)
    (h : recordResponse state eventId findingId response waiverOnly =
      .ok next) : Roomy next := by
  simp only [recordResponse, bind_eq_ok_iff, exists_unit_iff] at h
  obtain ⟨-, -, finding, -, -, -, h⟩ := h
  have hupdate : ∀ finding, FindingFits finding → FindingFits
      (finding.pushDisposition (responseRecord eventId response)) :=
    fun _ hfits => fits_of_push hfits (responseRecord_le response)
  cases waiverOnly with
  | false => exact roomy_of_updateFinding hroomy hupdate h
  | true =>
      exact roomy_of_updateFinding hroomy hupdate (check_bind_eq_ok_iff.mp h).2

theorem roomy_of_confirm {confirmation : Confirmation}
    {pendingKind confirmedKind : DispositionKind} (hroomy : Roomy state)
    (h : confirm state eventId findingId confirmation pendingKind
      confirmedKind = .ok next) : Roomy next := by
  obtain ⟨actor, -, hnext⟩ := bind_eq_ok_iff.mp h
  refine roomy_of_updateFinding hroomy ?_ hnext
  intro finding hfits
  exact fits_of_push hfits (by simp [recordOverhead])

theorem roomy_of_observeWaiver {waiver : ObservedWaiver} (hroomy : Roomy state)
    (h : observeWaiver state eventId waiver = .ok (applied, emitted)) :
    Roomy applied := by
  simp only [observeWaiver, bind_eq_ok_iff, exists_unit_iff, Except.ok.injEq,
    Prod.mk.injEq] at h
  obtain ⟨-, -, -, -, -, -, -, -, -, -, -, waived, hwaived, rfl, -⟩ := h
  have hnext : Roomy waived := by
    refine roomy_of_updateFinding hroomy ?_ hwaived
    intro finding hfits
    exact fits_of_push hfits (by simp [recordOverhead])
  exact ⟨hnext.binding, hnext.reports, hnext.cycles, hnext.findings,
    hnext.terminal⟩

theorem roomy_of_reconcileDuplicates {duplicates : List FindingId}
    {digest : Sha256Digest} (hroomy : Roomy state)
    (h : reconcileDuplicates state eventId canonical duplicates digest =
      .ok next) : Roomy next := by
  simp only [reconcileDuplicates, bind_eq_ok_iff, exists_unit_iff] at h
  obtain ⟨-, -, target, -, -, snapshots, hsnapshots, -, merged, hmerged,
    reopened, hreopened, hnext⟩ := h
  have hfound : ∀ snapshot ∈ snapshots, FindingFits snapshot := by
    intro snapshot hmem
    obtain ⟨identity, -, hfinding, -⟩ := forall₂_mem_right
      (duplicatesOf_eq_ok hsnapshots) hmem
    exact fits_of_finding hroomy hfinding
  have hmerged' := roomy_of_mergeAll hroomy hfound hmerged
  have hreopened' : Roomy reopened := by
    refine roomy_of_updateFinding hmerged' ?_ hreopened
    intro finding hfits
    exact fits_of_push hfits (by simp [recordOverhead, reconciliationRecord])
  refine roomy_of_supersedeAll hreopened' ?_ hnext
  simp [recordOverhead, reconciliationRecord]

theorem roomy_of_confirmSupersession {superseding : FindingId}
    {confirmation : Confirmation} (hroomy : Roomy state)
    (h : confirmSupersession state eventId findingId superseding confirmation =
      .ok next) : Roomy next := by
  simp only [confirmSupersession, bind_eq_ok_iff, exists_unit_iff,
    findingOf_eq_ok_iff] at h
  obtain ⟨-, source, hsource, target, -, -, -, merged, hmerged, hnext⟩ := h
  have hfits := fits_of_finding hroomy hsource
  have hmerged' : Roomy merged := by
    refine roomy_of_updateFinding hroomy ?_ hmerged
    intro finding hfinding
    refine fits_of_push (fits_of_merge hfinding hfits) ?_
    simp [recordOverhead, reconciliationRecord]
  refine roomy_of_updateFinding hmerged' ?_ hnext
  intro finding hfinding
  exact fits_of_supersede hfinding (by simp [recordOverhead])

/-! ### Cycles -/

theorem length_le_of_subset {categories others : List ReviewCategory}
    (hcanonical : ascending categoryKey categories = true)
    (hsubset : categories ⊆ others) : categories.length ≤ others.length := by
  have hnodup : categories.Nodup :=
    (ascending_iff.mp hcanonical).nodup_map.of_map _
  exact (hnodup.subperm hsubset).length_le

theorem roomy_of_assign {assignment : ReviewAssignment} (hroomy : Roomy state)
    (hmodest : assignment.categories.length ≤ 7)
    (h : assign state assignment = .ok (applied, emitted)) :
    Roomy applied := by
  simp only [assign, validateAssignment, validateCategories, bind_eq_ok_iff,
    exists_unit_iff, ensure_eq_ok_iff, List.all_eq_true, decide_eq_true_eq,
    Except.ok.injEq, Prod.mk.injEq] at h
  obtain ⟨⟨-, -, hcategories⟩, -, rfl, -⟩ := h
  refine ⟨hroomy.binding, hroomy.reports, ?_, hroomy.findings, hroomy.terminal⟩
  intro cycle hmem
  rcases List.mem_append.mp hmem with hmem | hmem
  · exact hroomy.cycles cycle hmem
  · rw [List.mem_singleton.mp hmem]
    refine ⟨?_, hmodest, hcategories, (by rintro _ ⟨⟩)⟩
    simp only [cycleOverhead, cycleRoom, Option.map_none, Option.getD_none]
    omega

theorem fits_of_submission {submission : ReviewSubmission}
    (hfits : CycleFits required cycle)
    (hcanonical : ascending categoryKey submission.categories = true)
    (hsubset : submission.categories ⊆ cycle.assignment.categories)
    (hfresh : ∀ finding ∈ submission.findings, Fresh finding)
    (hmodest : ∀ finding ∈ submission.findings,
      finding.locations.length ≤ 13) :
    CycleFits required { cycle with
      submission := some submission, phase := .submitted } := by
  have hcategories := length_le_of_subset hcanonical hsubset
  have hnarrow := hfits.narrow
  have hfindings : (submission.findings.map findingOverhead).sum ≤
      (submission.findings.map findingRoom).sum := by
    refine sum_map_mono ?_
    intro finding hmem
    have hlocations := hmodest finding hmem
    simp only [findingOverhead, findingRoom, (hfresh finding hmem).dispositions,
      (hfresh finding hmem).live, present_none, List.map_nil, List.sum_nil]
    omega
  refine ⟨?_, hnarrow, hfits.assigned, ?_⟩
  · simp only [cycleOverhead, cycleRoom, submissionOverhead, submittedFindings,
      Option.map_some, Option.getD_some, Option.toList_some,
      List.flatMap_cons, List.flatMap_nil, List.append_nil]
    omega
  · rintro found hfound
    cases hfound
    exact fun _ hcategory => hfits.assigned (hsubset hcategory)

theorem canonical_of_submission {submission : ReviewSubmission}
    {limits : ReviewLimits} {blocking : FindingSeverity}
    (h : validateSubmission sha256 limits submission blocking = .ok ()) :
    ascending categoryKey submission.categories = true := by
  simp only [validateSubmission, State.canonical, bind_eq_ok_iff,
    exists_unit_iff, ensure_eq_ok_iff] at h
  exact h.2.1

theorem roomy_of_submit {submission : ReviewSubmission}
    (hordered : Ordered state) (hroomy : Roomy state)
    (hmodest : ∀ finding ∈ submission.findings, finding.locations.length ≤ 13)
    (h : submit sha256 state eventId submission = .ok (applied, emitted)) :
    Roomy applied := by
  obtain ⟨hvalid, cycle, hmem, hsubset, hcycle, hupdated⟩ := submit_eq_ok h
  have hfresh := fresh_of_submission hvalid
  rw [updateCycle_eq_ok (by exact hordered.cycles) hupdated]
  refine ⟨hroomy.binding, hroomy.reports, ?_, ?_, ?_⟩
  · intro found hfound
    obtain ⟨row, hrow, rfl⟩ := List.mem_map.mp hfound
    split
    · next hid =>
        have hsame : row = cycle := List.inj_on_of_nodup_map hordered.cycles
          hrow hmem (hid.trans (id_of_cycle hcycle).symm)
        subst hsame
        exact fits_of_submission (hroomy.cycles row hrow)
          (canonical_of_submission hvalid) hsubset hfresh hmodest
    · exact hroomy.cycles row hrow
  · intro finding hfinding
    rw [insertFindings, List.mem_insertionSort, List.mem_append] at hfinding
    rcases hfinding with hfinding | hfinding
    · exact hroomy.findings finding hfinding
    · obtain ⟨body, hbody, rfl⟩ := List.mem_map.mp hfinding
      refine fits_of_admitted (hfresh body hbody) (hmodest body hbody) ?_
      simp [recordOverhead, openRecord]
  · intro terminal hterminal
    obtain ⟨hreports, hlisted⟩ := hroomy.terminal terminal hterminal
    refine ⟨hreports, ?_⟩
    simp only [insertFindings, List.length_insertionSort, List.length_append]
    omega

theorem roomy_of_advanceRevision {binding : ReviewBinding}
    (hroomy : Roomy state)
    (hmodest : bindingOverhead binding
      + 64 * binding.requiredCategories.length ≤ 1504)
    (h : advanceRevision sha256 state binding = .ok (applied, emitted)) :
    Roomy applied := by
  simp only [advanceRevision, bind_eq_ok_iff, exists_unit_iff,
    ensure_eq_ok_iff, Bool.and_eq_true, decide_eq_true_eq, Except.ok.injEq,
    Prod.mk.injEq] at h
  obtain ⟨-, ⟨⟨⟨⟨⟨⟨⟨⟨-, -⟩, hrequired⟩, -⟩, -⟩, -⟩, -⟩, -⟩, -⟩, rfl, -⟩ := h
  have hreports := hroomy.reports
  have hcycles := hroomy.cycles
  have hterminal := hroomy.terminal
  rw [← hrequired] at hreports hcycles hterminal
  refine ⟨hmodest, hreports, ?_, hroomy.findings, hterminal⟩
  intro cycle hmem
  obtain ⟨row, hrow, rfl⟩ := List.mem_map.mp hmem
  have hfits := hcycles row hrow
  split
  · exact ⟨hfits.room, hfits.narrow, hfits.assigned, hfits.submitted⟩
  · exact hfits

theorem roomy_of_cancelCycle {cycleId : ReviewCycleId}
    (hordered : Ordered state) (hroomy : Roomy state)
    (h : cancelCycle state cycleId = .ok (applied, emitted)) :
    Roomy applied := by
  simp only [cancelCycle, bind_eq_ok_iff, exists_unit_iff, Except.ok.injEq,
    Prod.mk.injEq] at h
  obtain ⟨-, -, -, cancelled, hcancelled, rfl, -⟩ := h
  rw [updateCycle_eq_ok hordered.cycles hcancelled]
  refine ⟨hroomy.binding, hroomy.reports, ?_, hroomy.findings, hroomy.terminal⟩
  intro cycle hmem
  obtain ⟨row, hrow, rfl⟩ := List.mem_map.mp hmem
  have hfits := hroomy.cycles row hrow
  split
  · exact ⟨hfits.room, hfits.narrow, hfits.assigned, hfits.submitted⟩
  · exact hfits

/-! ### Terminals and reports -/

theorem roomy_of_phase (phase : ReviewRunPhase) (hroomy : Roomy state) :
    Roomy { state with phase := phase } :=
  ⟨hroomy.binding, hroomy.reports, hroomy.cycles, hroomy.findings,
    hroomy.terminal⟩

theorem roomy_of_terminate (terminalKind : ReviewTerminalKind)
    (cause : Sha256Digest) (hroomy : Roomy state) :
    Roomy (terminate sha256 state terminalKind cause) := by
  refine ⟨hroomy.binding, hroomy.reports, hroomy.cycles, hroomy.findings, ?_⟩
  rintro terminal hterminal
  cases hterminal
  refine ⟨hroomy.reports, ?_⟩
  simp only [makeTerminal, ReviewRunState.unconservedCurrentFindings,
    List.length_map]
  exact List.length_filter_le _ _

theorem length_comparedKinds (groups : List BindingGroup) :
    (comparedKinds groups).length ≤ 2 := by
  unfold comparedKinds
  split
  · rw [List.length_append]
    refine Nat.add_le_add (?_ : _ ≤ 1) (?_ : _ ≤ 1)
    · split <;> simp
    · split
      · split
        · simp
        · split <;> simp
      · simp
  · exact Nat.zero_le 2

theorem length_sortDedup_le {α : Type} [DecidableEq α] (key : α → Nat)
    (values : List α) : (sortDedup key values).length ≤ values.length := by
  unfold sortDedup
  refine (List.dedup_sublist _).length_le.trans ?_
  rw [List.length_insertionSort]

theorem length_kinds_le (binding : ReviewBinding) (cycles : List ReviewCycle)
    (findings : List Finding) (ready : Bool) :
    (evaluateOscillation binding cycles findings ready).kinds.length ≤ 4 := by
  unfold evaluateOscillation
  refine (length_sortDedup_le oscillationRank _).trans ?_
  have hcompared := length_comparedKinds (bindingGroups cycles)
  have hsingle : ∀ (condition : Bool) (kind : OscillationKind),
      (if condition then [kind] else []).length ≤ 1 := by
    intro condition kind
    cases condition <;> simp
  have hdisagreement := hsingle (findings.any (isDisputed binding)) .disagreement
  have hexhausted := hsingle (!ready && decide
    (binding.maximumCycles ≤ min cycles.length u16Max)) .reviewCyclesExhausted
  rw [List.length_append, List.length_append]
  omega

theorem roomy_recompute (hroomy : Roomy state) : Roomy (recompute state) := by
  refine ⟨hroomy.binding, ⟨?_, length_kinds_le _ _ _ _⟩, hroomy.cycles,
    hroomy.findings, hroomy.terminal⟩
  refine ((List.nodup_dedup _).subperm ?_).length_le
  intro category hcategory
  rw [List.mem_dedup, List.mem_insertionSort, List.mem_flatMap] at hcategory
  obtain ⟨cycle, hcycle, hmem⟩ := hcategory
  obtain ⟨submission, hsubmission, hcovered⟩ := List.mem_flatMap.mp hmem
  exact (hroomy.cycles cycle (List.mem_of_mem_filter hcycle)).submitted
    submission (Option.mem_toList.mp hsubmission) hcovered

/-! ### Commands and runs -/

theorem roomy_of_finalize (hroomy : Roomy state)
    (h : finalize sha256 state = .ok (applied, emitted)) : Roomy applied := by
  unfold finalize at h
  split at h
  · cases h
    exact roomy_of_terminate .needsHuman zeroDigest hroomy
  · simp only [ensure_bind_eq_ok_iff, Except.ok.injEq, Prod.mk.injEq] at h
    obtain ⟨-, -, rfl, -⟩ := h
    exact roomy_of_terminate .completed zeroDigest hroomy

theorem roomy_of_apply (hordered : Ordered state) (hroomy : Roomy state)
    (hmodest : isModest kind = true)
    (h : apply sha256 state eventId kind = .ok (applied, emitted)) :
    Roomy applied := by
  simp only [apply, ensure_bind_eq_ok_iff] at h
  obtain ⟨-, h⟩ := h
  cases kind with
  | startRun binding limits => cases h
  | advanceRevision binding =>
      exact roomy_of_advanceRevision hroomy (of_decide_eq_true hmodest) h
  | assignReviewer assignment =>
      exact roomy_of_assign hroomy (of_decide_eq_true hmodest) h
  | submitReview submission =>
      simp only [isModest, List.all_eq_true, decide_eq_true_eq] at hmodest
      exact roomy_of_submit hordered hroomy hmodest h
  | observeWaiver waiver => exact roomy_of_observeWaiver hroomy h
  | cancelCycle cycleId => exact roomy_of_cancelCycle hordered hroomy h
  | finalizeRun => exact roomy_of_finalize hroomy h
  | pauseRun =>
      simp only [dispatch, pause, ensure_bind_eq_ok_iff, Except.ok.injEq,
        Prod.mk.injEq] at h
      obtain ⟨-, rfl, -⟩ := h
      exact roomy_of_phase .paused hroomy
  | resumeRun =>
      simp only [dispatch, resume, ensure_bind_eq_ok_iff, Except.ok.injEq,
        Prod.mk.injEq] at h
      obtain ⟨-, rfl, -⟩ := h
      exact roomy_of_phase .active hroomy
  | cancelRun | exhaustBudget reason | failRun failure =>
      cases h
      exact roomy_of_terminate _ _ hroomy
  | reconcileDuplicates canonical duplicates digest =>
      obtain ⟨next, hnext, h⟩ := bind_eq_ok_iff.mp h
      cases h
      exact roomy_of_reconcileDuplicates hroomy hnext
  | recordFixerResponse findingId response
  | requestWaiver findingId response =>
      obtain ⟨next, hnext, h⟩ := bind_eq_ok_iff.mp h
      cases h
      exact roomy_of_recordResponse hroomy hnext
  | confirmResolution findingId confirmation
  | confirmInvalidation findingId confirmation =>
      obtain ⟨next, hnext, h⟩ := bind_eq_ok_iff.mp h
      cases h
      exact roomy_of_confirm hroomy hnext
  | confirmSupersession findingId superseding confirmation =>
      obtain ⟨actor, -, h⟩ := bind_eq_ok_iff.mp h
      obtain ⟨next, hnext, h⟩ := bind_eq_ok_iff.mp h
      cases h
      exact roomy_of_confirmSupersession hroomy hnext

theorem roomy_advance (sequence : EventSequence) (commandId : CommandId)
    (hroomy : Roomy state) :
    Roomy (advance sha256 state sequence eventId commandId) :=
  ⟨hroomy.binding, hroomy.reports, hroomy.cycles, hroomy.findings,
    hroomy.terminal⟩

variable {events history : List ReviewEvent} {command : ReviewCommand}
  {transition : ReviewTransition}

theorem roomy_of_start (h : start sha256 command = .ok transition)
    (hmodest : isModest command.kind = true) : Roomy transition.state := by
  obtain ⟨binding, limits, hkind, -, -, hstate⟩ := start_eq_ok h
  rw [hkind] at hmodest
  rw [hstate]
  refine ⟨of_decide_eq_true hmodest, ⟨Nat.zero_le _, length_kinds_le _ _ _ _⟩,
    List.forall_mem_nil _, List.forall_mem_nil _, ?_⟩
  intro terminal hterminal
  exact (Option.some_ne_none terminal hterminal.symm).elim

/-- What items of the run leave pays for the reports and for a terminal. -/
theorem overhead_of_roomy (hroomy : Roomy state) :
    overhead state + 16 ≤ room state := by
  have hcycles : (state.cycles.map cycleOverhead).sum ≤
      (state.cycles.map cycleRoom).sum :=
    sum_map_mono fun cycle hmem => (hroomy.cycles cycle hmem).room
  have hfindings : (state.findings.map findingOverhead).sum
      + 16 * state.findings.length ≤ (state.findings.map findingRoom).sum := by
    have hsum := sum_map_mono fun finding hmem =>
      (hroomy.findings finding hmem).room
    rw [List.sum_map_add, List.map_const', List.sum_replicate_nat] at hsum
    omega
  have hbinding := hroomy.binding
  have hcovered := hroomy.reports.covered
  have hkinds := hroomy.reports.kinds
  unfold overhead room
  cases hterminal : state.terminal with
  | none =>
      rw [Option.map_none, Option.getD_none]
      omega
  | some terminal =>
      obtain ⟨hreports, hlisted⟩ := hroomy.terminal terminal hterminal
      have hcovered' := hreports.covered
      have hkinds' := hreports.kinds
      simp only [Option.map_some, Option.getD_some, terminalSize, quorumSize,
        oscillationSize]
      omega

theorem roomy_of_run (hrun : ReviewRun sha256 events state)
    (hmodest : ∀ event ∈ events, isModest (commandKind event.kind) = true) :
    Roomy state := by
  revert hmodest
  refine run_induction (fun events state =>
    (∀ event ∈ events, isModest (commandKind event.kind) = true) →
      Roomy state) ?_ ?_ hrun
  · rintro first initial ⟨command, hstart⟩ hmodest
    obtain ⟨binding, limits, hkind, hfirst, -⟩ := start_eq_ok hstart
    refine roomy_of_start hstart ?_
    have hstarted := hmodest first (List.mem_singleton_self first)
    rw [hfirst] at hstarted
    rw [hkind]
    exact hstarted
  · intro events state event next hrun ih hstep hmodest
    obtain ⟨applied, hstepped⟩ := exists_stepped hrun hstep
    have hroomy := ih fun event hmem =>
      hmodest event (List.mem_append_left _ hmem)
    have hkind := hmodest event
      (List.mem_append_right _ (List.mem_singleton_self event))
    rw [hstepped.successor]
    exact roomy_advance _ _ (roomy_recompute
      (roomy_of_apply (ordered_of_run hrun) hroomy hkind hstepped.applies))

/-! ### Commits -/

theorem checkpointSize_advance (sequence : EventSequence)
    (commandId : CommandId) :
    checkpointSize (advance sha256 state sequence eventId commandId) =
      checkpointSize state + 16 := by
  simp only [checkpointSize, advance, sealState, List.length_append,
    List.length_singleton]
  omega

/-- A roomy state can even record the command after it was compared. -/
theorem checkpointSize_le (hroomy : Roomy state) {limits : ReviewLimits}
    (hbytes : estimatedEncodedBytes state ≤ limits.stateBytes) :
    checkpointSize state + 16 ≤ limits.stateBytes := by
  have haccount := checkpointSize_add_room state
  have hroom := overhead_of_roomy hroomy
  have hexact := allowance_of_bytes hbytes
  omega

theorem state_of_start (h : start sha256 command = .ok transition)
    (hmodest : isModest command.kind = true) :
    size (writeState transition.state) ≤ transition.state.limits.stateBytes := by
  have hroomy := roomy_of_start h hmodest
  have hbytes : estimatedEncodedBytes transition.state ≤
      transition.state.limits.stateBytes := by
    unfold start at h
    split at h
    · simp only [bind_eq_ok_iff, exists_unit_iff, ensure_eq_ok_iff,
        decide_eq_true_eq, Except.ok.injEq] at h
      obtain ⟨-, -, -, hbytes, rfl⟩ := h
      exact hbytes
    · cases h
  have hle := checkpointSize_le hroomy hbytes
  rw [size_writeState]
  omega

theorem state_of_decide (hrun : ReviewRun sha256 history state)
    (h : decideCommand sha256 state command = .ok transition)
    (hroomy : Roomy state) (hmodest : isModest command.kind = true) :
    size (writeState transition.state) ≤
      transition.state.limits.stateBytes := by
  obtain ⟨-, -, -, -, applied, sequence, happlies, hbytes, hstate⟩ :=
    decideCommand_eq_ok h
  have hassessed := roomy_recompute
    (roomy_of_apply (ordered_of_run hrun) hroomy hmodest happlies)
  rw [size_writeState, hstate, checkpointSize_advance]
  exact checkpointSize_le hassessed hbytes

theorem payload_of_decides (h : Decides sha256 history command transition) :
    estimatedPayloadBytes command.kind ≤
      transition.state.limits.payloadBytes := by
  rcases h with ⟨-, hstart⟩ | ⟨state, hrun, hdecide⟩
  · unfold start at hstart
    split at hstart
    · simp only [bind_eq_ok_iff, exists_unit_iff, ensure_eq_ok_iff,
        decide_eq_true_eq, Except.ok.injEq] at hstart
      obtain ⟨-, hpayload, -, -, rfl⟩ := hstart
      exact hpayload
    · cases hstart
  · obtain ⟨-, -, -, hpayload, applied, sequence, happlies, -, hstate⟩ :=
      decideCommand_eq_ok hdecide
    have hkept := kept_of_changes
      (changes_of_apply (ordered_of_run hrun) happlies)
    rw [hstate]
    show _ ≤ applied.limits.payloadBytes
    rw [hkept.limits]
    exact hpayload

theorem commandKind_of_decides (h : Decides sha256 history command transition) :
    commandKind transition.event.kind = command.kind := by
  rcases h with ⟨-, hstart⟩ | ⟨state, -, hdecide⟩
  · obtain ⟨binding, limits, hkind, hevent, -⟩ := start_eq_ok hstart
    rw [hkind, hevent]
    rfl
  · obtain ⟨-, -, -, -, applied, -, happlies, -⟩ := decideCommand_eq_ok hdecide
    exact commandKind_of_apply happlies

theorem command_le_event (h : Decides sha256 history command transition) :
    size (writeCommand command) ≤ size (writeEvent transition.event) := by
  have hkind := commandKind_of_decides h
  have hcommand := size_writeCommand command
  have hevent := size_writeEvent transition.event
  have hpresent := present_le command.expectedPreviousEvent 16
  rw [hkind] at hevent
  omega

theorem checkSizes_of_modest (h : Decides sha256 history command transition)
    (hmodest : ∀ event ∈ history ++ [transition.event],
      isModest (commandKind event.kind) = true) :
    checkSizes command transition = .ok () ↔
      size (writeEvent transition.event) ≤
        transition.state.limits.payloadBytes := by
  have hle := command_le_event h
  have hkind : isModest command.kind = true := by
    rw [← commandKind_of_decides h]
    exact hmodest _ (List.mem_append_right _ (List.mem_singleton_self _))
  have hstate : size (writeState transition.state) ≤
      transition.state.limits.stateBytes := by
    rcases h with ⟨-, hstart⟩ | ⟨state, hrun, hdecide⟩
    · exact state_of_start hstart hkind
    · refine state_of_decide hrun hdecide (roomy_of_run hrun ?_) hkind
      exact fun event hmem => hmodest event (List.mem_append_left _ hmem)
  rw [checkSizes_eq_ok_iff]
  constructor
  · exact fun hsizes => hsizes.2.1
  · exact fun hevent => ⟨hle.trans hevent, hevent, hstate⟩

end Roomy

/-! ### The estimates -/

/-- A command and its event are within the estimate exactly if the kind is
covered, and a checkpoint is within its own exactly if its parts of varying size
fit into what the constants leave.  They do in every state of every modest run;
and there a transition passes the size check exactly if its event does, as that
of every covered command does. -/
theorem size_estimates (sha256 : List UInt8 → Sha256Digest) :
    (∀ history command transition,
      Decides sha256 history command transition →
      (Estimated command transition.event ↔ covered command.kind = true)) ∧
    (∀ events state, ReviewRun sha256 events state →
      (size (writeState state) ≤ estimatedEncodedBytes state ↔
        Balanced state)) ∧
    (∀ events state, ReviewRun sha256 events state →
      (∀ event ∈ events, isModest (commandKind event.kind) = true) →
      size (writeState state) ≤ estimatedEncodedBytes state) ∧
    ∀ history command transition,
      Decides sha256 history command transition →
      (∀ event ∈ history ++ [transition.event],
        isModest (commandKind event.kind) = true) →
      (checkSizes command transition = .ok () ↔
        size (writeEvent transition.event) ≤
          transition.state.limits.payloadBytes) ∧
      (covered command.kind = true → checkSizes command transition = .ok ()) := by
  refine ⟨?_, ?_, ?_, ?_⟩
  · intro history command transition h
    exact estimated_of_decides h
  · intro events state hrun
    exact size_le_estimate_iff hrun
  · intro events state hrun hmodest
    have hroom := overhead_of_roomy (roomy_of_run hrun hmodest)
    rw [size_le_estimate_iff hrun]
    exact Nat.le_of_add_right_le hroom
  · intro history command transition h hmodest
    have hexact := checkSizes_of_modest h hmodest
    refine ⟨hexact, ?_⟩
    intro hcovered
    have hestimated := (estimated_of_decides h).mpr hcovered
    exact hexact.mpr (hestimated.2.trans (payload_of_decides h))

/-! ### Starts -/

def startCommand (binding : ReviewBinding) (limits : ReviewLimits) :
    ReviewCommand :=
  ⟨smallId 1, smallId 1, smallId 1, 0, none, zeroDigest, binding.revision,
    .startRun binding limits, genesis_predecessor⟩

theorem exists_start {sha256 : List UInt8 → Sha256Digest}
    {binding : ReviewBinding} {limits : ReviewLimits}
    (hvalid : validateBinding sha256 limits binding = .ok ())
    (hpayload : bindingPayload 512 binding ≤ limits.payloadBytes)
    (hstate : 2064 ≤ limits.stateBytes) :
    ∃ transition, start sha256 (startCommand binding limits) =
        .ok transition ∧
      transition.event.kind = .runStarted binding limits ∧
      transition.state = sealState sha256
        (genesis binding limits (smallId 1) (smallId 1) (smallId 1)) := by
  let started := sealState sha256
    (genesis binding limits (smallId 1) (smallId 1) (smallId 1))
  refine ⟨⟨⟨smallId 1, smallId 1, .first, none, smallId 1, binding.revision,
    zeroDigest, started.stateDigest, .runStarted binding limits⟩, started⟩, ?_,
    rfl, rfl⟩
  simp only [start, startCommand, bind_eq_ok_iff, exists_unit_iff,
    ensure_eq_ok_iff, decide_eq_true_eq, estimatedEncodedBytes_genesis]
  exact ⟨hvalid, decide_eq_true hpayload, by simp, hstate, rfl⟩

/-- An assignment and a review of two findings. -/
def smallReview : List Request := smallDuplicate.take 2

def smallReconciliation : Request :=
  ⟨smallId 4, smallId 4, .reconcileDuplicates (smallId 1) [smallId 2] zeroDigest⟩

theorem attempt_smallReconciliation :
    ((attempts (fun _ => zeroDigest) (smallStart fun _ => zeroDigest)
      smallReview).bind fun state =>
        attempt (fun _ => zeroDigest) state smallReconciliation).isSome = true := by
  cbv

theorem size_estimates_of_duplicate : ∃ events state command transition,
    ReviewRun (fun _ => zeroDigest) events state ∧
      events.tail.map (fun event => commandKind event.kind) =
        smallReview.map Request.kind ∧
      Decides (fun _ => zeroDigest) events command transition ∧
      command.kind = smallReconciliation.kind ∧
      Estimated command transition.event ∧
      size (writeState state) ≤ estimatedEncodedBytes state ∧
      Balanced state ∧ checkSizes command transition = .ok () := by
  obtain ⟨⟨first, initial⟩, hstart, hkind, hinitial⟩ := @exists_start
    (fun _ => zeroDigest) (smallBinding fun _ => zeroDigest) smallLimits rfl
    (by decide) (by decide)
  dsimp only at hkind hinitial
  subst hinitial
  have hstarted : ReviewRun (fun _ => zeroDigest) [first]
      (smallStart fun _ => zeroDigest) :=
    ⟨first, _, [], ⟨_, hstart⟩, .nil _, rfl⟩
  obtain ⟨next, hsome⟩ := Option.isSome_iff_exists.mp attempt_smallReconciliation
  obtain ⟨state, hstate, hnext⟩ := Option.bind_eq_some_iff.mp hsome
  obtain ⟨rest, -, hkinds, hrun⟩ := reviewRun_of_attempts hstarted hstate
  obtain ⟨event, -, -, hreconcile, command, hdecide⟩ := steps_of_attempt hnext
  have hdecides : Decides (fun _ => zeroDigest) ([first] ++ rest) command
      ⟨event, next⟩ := .inr ⟨_, hrun, hdecide⟩
  have hcommand : command.kind = smallReconciliation.kind := by
    rw [← commandKind_of_decides hdecides, hreconcile]
  have hmodest : ∀ event ∈ [first] ++ rest,
      isModest (commandKind event.kind) = true := by
    intro event hmem
    rcases List.mem_append.mp hmem with hmem | hmem
    · obtain rfl := List.mem_singleton.mp hmem
      rw [hkind]
      rfl
    · have hrequest := List.mem_map_of_mem
        (f := fun event => commandKind event.kind) hmem
      rw [hkinds] at hrequest
      exact (by decide : ∀ kind ∈ smallReview.map Request.kind,
        isModest kind = true) _ hrequest
  have hevent : isModest (commandKind event.kind) = true := by
    rw [hreconcile]
    rfl
  obtain ⟨hpayload, hexact, hstate, hcommit⟩ :=
    size_estimates fun _ => zeroDigest
  have hcovered : covered command.kind = true := by
    rw [hcommand]
    rfl
  have hbytes := hstate _ _ hrun hmodest
  refine ⟨_, _, _, _, hrun, hkinds, hdecides, hcommand,
    (hpayload _ _ _ hdecides).mpr hcovered, hbytes,
    (hexact _ _ hrun).mp hbytes, (hcommit _ _ _ hdecides ?_).2 hcovered⟩
  intro found hmem
  rcases List.mem_append.mp hmem with hmem | hmem
  · exact hmodest found hmem
  · obtain rfl := List.mem_singleton.mp hmem
    exact hevent

/-! ### A start of many ancestries -/

/-- Exactly what the estimates of the binding and of its genesis ask for. -/
def wideLimits : ReviewLimits :=
  { smallLimits with
    payloadBytes := 2480
    stateBytes := 2064
    ofPayloadBytes := by decide
    ofStateBytes := by decide }

def wideAncestries : List Sha256Digest :=
  List.ofFn fun ancestry : Fin 60 => ⟨ancestry, by omega⟩

def wideBinding : ReviewBinding :=
  { smallBinding fun _ => zeroDigest with
    producerAncestries := wideAncestries }

theorem length_wideAncestries : wideAncestries.length = 60 := List.length_ofFn

theorem valid_wideBinding :
    validateBinding (fun _ => zeroDigest) wideLimits wideBinding = .ok () := by
  have hascending : ascending Sha256Digest.value wideAncestries = true := by
    refine ascending_iff.mpr (List.pairwise_ofFn.mpr ?_)
    exact fun _ _ hlt => hlt
  have hnonempty : wideAncestries.isEmpty = false := by
    rw [List.isEmpty_eq_false_iff, ← List.length_pos_iff,
      length_wideAncestries]
    decide
  simp only [validateBinding, canonicalNonempty, State.canonical,
    bind_eq_ok_iff, exists_unit_iff, ensure_eq_ok_iff]
  refine ⟨rfl, rfl, ⟨rfl, rfl⟩, ⟨?_, hascending⟩, decide_eq_true rfl⟩
  exact congrArg not hnonempty

/-- The estimates admit a start whose event and whose genesis are both larger,
and whose commit is refused. -/
theorem start_exceeds_estimates : ∃ command transition,
    Decides (fun _ => zeroDigest) [] command transition ∧
      estimatedPayloadBytes command.kind < size (writeEvent transition.event) ∧
      estimatedEncodedBytes transition.state <
        size (writeState transition.state) ∧
      checkSizes command transition ≠ .ok () := by
  have hpayload : bindingPayload 512 wideBinding = 2480 := by
    simp [bindingPayload, wideBinding, smallBinding, length_wideAncestries,
      saturatingAdd, saturatingMul, u64Max]
  obtain ⟨⟨event, state⟩, hstart, hkind, hstate⟩ :=
    exists_start valid_wideBinding (Nat.le_of_eq hpayload) (Nat.le_refl 2064)
  dsimp only at hkind hstate
  have hbinding : bindingSize wideBinding = 2233 := by
    simp only [bindingSize, wideBinding, length_wideAncestries]
    rfl
  have hevent : 2501 ≤ size (writeEvent event) := by
    rw [size_writeEvent, hkind]
    simp only [commandKind, kindSize, hbinding]
    omega
  have hsize : 2373 ≤ size (writeState state) := by
    rw [size_writeState, hstate]
    unfold checkpointSize
    have hbound : bindingSize (sealState (fun _ => zeroDigest) (genesis
        wideBinding wideLimits (smallId 1) (smallId 1) (smallId 1))).binding =
          2233 := hbinding
    omega
  have hestimate : estimatedEncodedBytes state = 2064 := by
    rw [hstate]
    exact estimatedEncodedBytes_genesis
  refine ⟨_, _, .inl ⟨rfl, hstart⟩, ?_, ?_, ?_⟩
  · show bindingPayload 512 wideBinding < size (writeEvent event)
    omega
  · show estimatedEncodedBytes state < size (writeState state)
    omega
  · intro hsizes
    have hlimit := (checkSizes_eq_ok_iff.mp hsizes).2.1
    rw [hstate] at hlimit
    have hbound : size (writeEvent event) ≤ 2480 := hlimit
    omega

end Peritus.Review.Commit
