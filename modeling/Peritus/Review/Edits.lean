import Peritus.Review.Runs

/-!
What the handlers do: the change of the run that each accepted event stands for.
-/

namespace Peritus.Review.Edits

open Peritus.Types Checked SortedTable Disposition State Canonical
open Validation Reducer Runs

/-! ### Rows -/

/-- The findings of a submission, opened. -/
def admitted (eventId : EventId) (submission : ReviewSubmission)
    (reviewer : ActorId) : List Finding :=
  submission.findings.map fun finding =>
    finding.pushDisposition (openRecord eventId submission reviewer finding)

/-- A finding after `canonical` has answered the findings `closed`. -/
def reconciled (canonical : FindingId) (closed : List FindingId)
    (snapshots : List Finding) (opening closing : DispositionRecord)
    (finding : Finding) : Finding :=
  if finding.id = canonical then
    (snapshots.foldl Finding.mergeSourcesAndEvidence finding).pushDisposition
      opening
  else if finding.id ∈ closed then supersede canonical closing finding
  else finding

/-- The finding that an event adds one record to, and the kind of the record. -/
def recorded : ReviewEventKind → Option (FindingId × DispositionKind)
  | .fixerResponseRecorded findingId response => some (findingId, response.kind)
  | .waiverRequested findingId request => some (findingId, request.kind)
  | .resolutionConfirmed findingId _ => some (findingId, .resolutionConfirmed)
  | .invalidationConfirmed findingId _ => some (findingId, .invalidationConfirmed)
  | .waiverObserved waiver => some (waiver.observation.findingId, .waived)
  | _ => none

/-- The finding that answers others, and the findings that it answers. -/
def answered : ReviewEventKind → Option (FindingId × List FindingId)
  | .duplicatesReconciled canonical duplicates _ => some (canonical, duplicates)
  | .supersessionConfirmed findingId superseding _ =>
      some (superseding, [findingId])
  | _ => none

/-- The terminal of an event that ends a run whatever its findings. -/
def endsWith : ReviewEventKind → Option (ReviewTerminalKind × Sha256Digest)
  | .runCancelled => some (.cancelled, zeroDigest)
  | .budgetExhausted reason => some (.needsHuman, reason)
  | .runFailed failure => some (.failed, failure)
  | _ => none

/-- A finding can be answered by the finding `target`. -/
structure Answerable (state : ReviewRunState) (target snapshot : Finding) :
    Prop where
  current : state.findingIsCurrent snapshot = true
  category : snapshot.category = target.category
  revision : snapshot.revision = target.revision
  live : snapshot.supersededBy = none
  unconserved : snapshot.isConserved = false

/-- What an event does to the run, under the checks that its handler has made. -/
inductive Changes (sha256 : List UInt8 → Sha256Digest) (state : ReviewRunState)
    (eventId : EventId) : ReviewEventKind → ReviewRunState → Prop
  | advanced (binding : ReviewBinding)
      (hvalid : validateBinding sha256 state.limits binding = .ok ())
      (hfresh : binding.sameCandidate state.binding = false) :
      Changes sha256 state eventId (.revisionAdvanced binding)
        (replaceBinding state binding)
  | assigned (assignment : ReviewAssignment)
      (hvalid : validateAssignment state.limits assignment state.binding = .ok ())
      (hnew : state.cycle assignment.cycleId = none) :
      Changes sha256 state eventId (.reviewerAssigned assignment)
        { state with cycles := state.cycles ++ [⟨assignment, .assigned, none⟩] }
  | submitted (submission : ReviewSubmission) (cycle : ReviewCycle)
      (hvalid : validateSubmission sha256 state.limits submission
        state.binding.blockingSeverity = .ok ())
      (hcycle : state.cycle submission.cycleId = some cycle)
      (hcurrent : state.cycleIsCurrent cycle = true)
      (hphase : cycle.phase = .assigned)
      (hrevision : submission.revision = state.binding.revision)
      (hnew : ∀ finding ∈ submission.findings, state.finding finding.id = none) :
      Changes sha256 state eventId (.reviewSubmitted submission)
        { insertFindings state (admitted eventId submission
            cycle.assignment.reviewer.actorId) with
          cycles := updateRow ReviewCycle.id submission.cycleId (fun cycle =>
            { cycle with submission := some submission, phase := .submitted })
            state.cycles }
  | recorded (kind : ReviewEventKind) (findingId : FindingId) (finding : Finding)
      (record : DispositionRecord) (waivers : List ObservedWaiver)
      (hrecorded : recorded kind = some (findingId, record.kind))
      (hfinding : state.finding findingId = some finding)
      (hcurrent : state.findingIsCurrent finding = true)
      (hopen : finding.isConserved = false) (hevent : record.eventId = eventId) :
      Changes sha256 state eventId kind { state with
        findings := updateRow Finding.id findingId
          (fun finding => finding.pushDisposition record) state.findings
        waivers := waivers }
  | answered (kind : ReviewEventKind) (canonical : FindingId)
      (closed : List FindingId) (target : Finding) (snapshots : List Finding)
      (opening closing : DispositionRecord)
      (hanswered : answered kind = some (canonical, closed))
      (hself : canonical ∉ closed)
      (htarget : state.finding canonical = some target)
      (hcurrent : state.findingIsCurrent target = true)
      (hlive : target.supersededBy = none)
      (hopened : target.currentDisposition = .opened)
      (hsnapshots : List.Forall₂ (fun identity snapshot =>
        state.finding identity = some snapshot ∧
          Answerable state target snapshot) closed snapshots)
      (hopening : opening.kind = .opened ∧ opening.eventId = eventId)
      (hclosing : closing.kind = .superseded ∧ closing.eventId = eventId) :
      Changes sha256 state eventId kind { state with
        findings := state.findings.map
          (reconciled canonical closed snapshots opening closing) }
  | cancelled (cycleId : ReviewCycleId) (cycle : ReviewCycle)
      (hcycle : state.cycle cycleId = some cycle)
      (hcurrent : state.cycleIsCurrent cycle = true)
      (hphase : cycle.phase = .assigned) :
      Changes sha256 state eventId (.cycleCancelled cycleId) { state with
        cycles := updateRow ReviewCycle.id cycleId
          (fun cycle => { cycle with phase := .cancelled }) state.cycles }
  | paused (hphase : state.phase = .active) :
      Changes sha256 state eventId .runPaused { state with phase := .paused }
  | resumed (hphase : state.phase = .paused) :
      Changes sha256 state eventId .runResumed { state with phase := .active }
  | ended (kind : ReviewEventKind) (terminalKind : ReviewTerminalKind)
      (cause : Sha256Digest) (hends : endsWith kind = some (terminalKind, cause)) :
      Changes sha256 state eventId kind
        (terminate sha256 state terminalKind cause)
  | oscillated (htriggered : state.oscillation.triggered = true) :
      Changes sha256 state eventId .runFinalized
        (terminate sha256 state .needsHuman zeroDigest)
  | completed (hcalm : state.oscillation.triggered = false)
      (hquorum : state.quorum.complete = true)
      (hconserved : state.unconservedCurrentFindings = []) :
      Changes sha256 state eventId .runFinalized
        (terminate sha256 state .completed zeroDigest)

/-- What every handler leaves as it is. -/
structure Kept (state applied : ReviewRunState) : Prop where
  runId : applied.runId = state.runId
  limits : applied.limits = state.limits
  sequence : applied.sequence = state.sequence
  lastEventId : applied.lastEventId = state.lastEventId
  usedCommands : applied.usedCommands = state.usedCommands

/-- The tables of a run have distinct keys, and the findings are sorted. -/
structure Ordered (state : ReviewRunState) : Prop where
  findings : Sorted Finding.id state.findings
  cycles : (state.cycles.map ReviewCycle.id).Nodup

section Handlers

variable {sha256 : List UInt8 → Sha256Digest} {state next applied :
    ReviewRunState} {eventId : EventId} {kind : ReviewEventKind}
  {findingId canonical : FindingId} {finding target : Finding}
  {detail : String} {closed : List FindingId} {snapshots : List Finding}

/-! ### Lookups -/

theorem findingOf_eq_ok_iff :
    findingOf state findingId detail = .ok finding ↔
      state.finding findingId = some finding := by
  unfold findingOf
  split
  · next found hfound => rw [hfound, Except.ok.injEq, Option.some.injEq]
  · next hmissing => simp [hmissing]

theorem cycleOf_eq_ok_iff {cycleId : ReviewCycleId} {cycle : ReviewCycle} :
    cycleOf state cycleId detail = .ok cycle ↔
      state.cycle cycleId = some cycle := by
  unfold cycleOf
  split
  · next found hfound => rw [hfound, Except.ok.injEq, Option.some.injEq]
  · next hmissing => simp [hmissing]

theorem finding_eq_some_iff (hordered : Ordered state) :
    state.finding findingId = some finding ↔
      finding ∈ state.findings ∧ finding.id = findingId :=
  lookup_eq_some_iff hordered.findings

theorem id_of_finding (hfinding : state.finding findingId = some finding) :
    finding.id = findingId :=
  (mem_of_lookup hfinding).2

theorem id_of_cycle {cycleId : ReviewCycleId} {cycle : ReviewCycle}
    (hcycle : state.cycle cycleId = some cycle) : cycle.id = cycleId :=
  of_decide_eq_true (List.find?_eq_some_iff_append.mp hcycle).1

theorem updateFinding_eq_ok {update : Finding → Finding}
    (hordered : Ordered state)
    (h : updateFinding state findingId detail update = .ok next) :
    next = { state with
      findings := updateRow Finding.id findingId update state.findings } := by
  unfold updateFinding at h
  split at h
  · next index hindex =>
      rw [Except.ok.injEq] at h
      rw [← h, modify_eq_updateRow hordered.findings hindex]
  · cases h

theorem updateCycle_eq_ok {cycleId : ReviewCycleId}
    {update : ReviewCycle → ReviewCycle}
    (hunique : (state.cycles.map ReviewCycle.id).Nodup)
    (h : updateCycle state cycleId detail update = .ok next) :
    next = { state with
      cycles := updateRow ReviewCycle.id cycleId update state.cycles } := by
  unfold updateCycle at h
  split at h
  · next cycles hcycles =>
      rw [Except.ok.injEq] at h
      rw [← h, updateFirst_eq_updateRow hunique hcycles]
  · cases h

theorem ordered_of_map {update : Finding → Finding} (hordered : Ordered state)
    (hkey : ∀ finding, (update finding).id = finding.id) :
    Ordered { state with findings := state.findings.map update } :=
  ⟨hordered.findings.map hkey, hordered.cycles⟩

theorem ordered_of_updateRow {update : Finding → Finding}
    (hordered : Ordered state)
    (hkey : ∀ finding, (update finding).id = finding.id) :
    Ordered { state with
      findings := updateRow Finding.id findingId update state.findings } := by
  refine ordered_of_map hordered ?_
  intro finding
  split
  · exact hkey finding
  · rfl

/-! ### Cycles -/

theorem changes_of_advanceRevision {binding : ReviewBinding}
    (h : advanceRevision sha256 state binding = .ok (applied, kind)) :
    Changes sha256 state eventId kind applied := by
  simp only [advanceRevision, bind_eq_ok_iff, exists_unit_iff, ensure_eq_ok_iff,
    Bool.and_eq_true, Bool.not_eq_true', Except.ok.injEq, Prod.mk.injEq] at h
  obtain ⟨hvalid, ⟨-, hfresh⟩, rfl, rfl⟩ := h
  exact .advanced binding hvalid hfresh

theorem changes_of_assign {assignment : ReviewAssignment}
    (h : assign state assignment = .ok (applied, kind)) :
    Changes sha256 state eventId kind applied := by
  simp only [assign, bind_eq_ok_iff, exists_unit_iff, ensure_eq_ok_iff,
    Bool.and_eq_true, Option.isNone_iff_eq_none, Except.ok.injEq,
    Prod.mk.injEq] at h
  obtain ⟨hvalid, ⟨-, hnew⟩, rfl, rfl⟩ := h
  exact .assigned assignment hvalid hnew

theorem changes_of_submit {submission : ReviewSubmission}
    (hordered : Ordered state)
    (h : submit sha256 state eventId submission = .ok (applied, kind)) :
    Changes sha256 state eventId kind applied := by
  simp only [submit, bind_eq_ok_iff, exists_unit_iff, ensure_eq_ok_iff,
    cycleOf_eq_ok_iff, Bool.and_eq_true, decide_eq_true_eq, List.all_eq_true,
    Option.isNone_iff_eq_none, Except.ok.injEq, Prod.mk.injEq] at h
  obtain ⟨hvalid, cycle, hcycle, ⟨⟨⟨⟨hcurrent, hphase⟩, hrevision⟩, -⟩, -⟩,
    ⟨-, hnew⟩, submitted, hsubmitted, rfl, rfl⟩ := h
  rw [updateCycle_eq_ok (by exact hordered.cycles) hsubmitted]
  exact .submitted submission cycle hvalid hcycle hcurrent hphase hrevision hnew

theorem changes_of_cancelCycle {cycleId : ReviewCycleId}
    (hordered : Ordered state)
    (h : cancelCycle state cycleId = .ok (applied, kind)) :
    Changes sha256 state eventId kind applied := by
  simp only [cancelCycle, bind_eq_ok_iff, exists_unit_iff, ensure_eq_ok_iff,
    cycleOf_eq_ok_iff, Bool.and_eq_true, decide_eq_true_eq, Except.ok.injEq,
    Prod.mk.injEq] at h
  obtain ⟨cycle, hcycle, ⟨hcurrent, hphase⟩, cancelled, hcancelled, rfl, rfl⟩ := h
  rw [updateCycle_eq_ok hordered.cycles hcancelled]
  exact .cancelled cycleId cycle hcycle hcurrent hphase

/-! ### Findings -/

theorem isConserved_of_pending
    (hpending : finding.currentDisposition = .opened ∨
      finding.currentDisposition = .fixed ∨
      finding.currentDisposition = .disputed ∨
      finding.currentDisposition = .supersessionProposed ∨
      finding.currentDisposition = .waiverRequested) :
    finding.isConserved = false := by
  unfold Finding.isConserved
  rcases hpending with h | h | h | h | h <;> rw [h]

theorem currentDisposition_of_lastRecord {record : DispositionRecord}
    {error : ReviewError} (h : lastRecord finding error = .ok record) :
    finding.currentDisposition = record.kind := by
  unfold lastRecord at h
  unfold Finding.currentDisposition
  split at h
  · next last hlast =>
      rw [Except.ok.injEq] at h
      rw [hlast, h]
      rfl
  · cases h

theorem changes_of_recordResponse {response : FixerResponse} {waiverOnly : Bool}
    (hordered : Ordered state)
    (hrecorded : recorded kind = some (findingId, response.kind))
    (h : recordResponse state eventId findingId response waiverOnly = .ok next) :
    Changes sha256 state eventId kind next := by
  simp only [recordResponse, bind_eq_ok_iff, exists_unit_iff, ensure_eq_ok_iff,
    findingOf_eq_ok_iff, Bool.and_eq_true, decide_eq_true_eq] at h
  obtain ⟨-, -, finding, hfinding, ⟨⟨⟨⟨hcurrent, -⟩, hopened⟩, -⟩, -⟩, -, h⟩ := h
  have hnext : updateFinding state findingId "fixer response finding disappeared"
      (fun finding => finding.pushDisposition (responseRecord eventId response)) =
        .ok next := by
    cases waiverOnly with
    | false => exact h
    | true => exact (check_bind_eq_ok_iff.mp h).2
  rw [updateFinding_eq_ok hordered hnext]
  exact .recorded kind findingId finding (responseRecord eventId response)
    state.waivers hrecorded hfinding hcurrent
    (isConserved_of_pending (.inl hopened)) rfl

theorem validateConfirmation_eq_ok {confirmation : Confirmation}
    {pendingKind : DispositionKind} {related : Option FindingId} {actor : ActorId}
    (h : validateConfirmation state findingId confirmation pendingKind related =
      .ok actor) :
    ∃ finding, state.finding findingId = some finding ∧
      state.findingIsCurrent finding = true ∧
      finding.currentDisposition = pendingKind := by
  simp only [validateConfirmation, bind_eq_ok_iff, exists_unit_iff,
    ensure_eq_ok_iff, findingOf_eq_ok_iff, Bool.and_eq_true,
    decide_eq_true_eq] at h
  obtain ⟨-, finding, hfinding, pending, hlast, -, -, -, -,
    ⟨⟨⟨⟨⟨⟨⟨⟨⟨hcurrent, -⟩, -⟩, hkind⟩, -⟩, -⟩, -⟩, -⟩, -⟩, -⟩, -⟩ := h
  refine ⟨finding, hfinding, hcurrent, ?_⟩
  rw [currentDisposition_of_lastRecord hlast, hkind]

theorem changes_of_confirm {confirmation : Confirmation}
    {pendingKind confirmedKind : DispositionKind} (hordered : Ordered state)
    (hpending : pendingKind = .fixed ∨ pendingKind = .disputed)
    (hrecorded : recorded kind = some (findingId, confirmedKind))
    (h : confirm state eventId findingId confirmation pendingKind confirmedKind =
      .ok next) :
    Changes sha256 state eventId kind next := by
  simp only [confirm, bind_eq_ok_iff] at h
  obtain ⟨actor, hactor, hnext⟩ := h
  obtain ⟨finding, hfinding, hcurrent, hdisposition⟩ :=
    validateConfirmation_eq_ok hactor
  rw [updateFinding_eq_ok hordered hnext]
  refine .recorded kind findingId finding _ state.waivers hrecorded hfinding
    hcurrent (isConserved_of_pending ?_) rfl
  rw [hdisposition]
  rcases hpending with rfl | rfl <;> simp

theorem changes_of_observeWaiver {waiver : ObservedWaiver}
    (hordered : Ordered state)
    (h : observeWaiver state eventId waiver = .ok (applied, kind)) :
    Changes sha256 state eventId kind applied := by
  simp only [observeWaiver, bind_eq_ok_iff, exists_unit_iff, ensure_eq_ok_iff,
    findingOf_eq_ok_iff, Bool.and_eq_true, decide_eq_true_eq, Except.ok.injEq,
    Prod.mk.injEq] at h
  obtain ⟨finding, hfinding, request, hlast, -, -,
    ⟨⟨⟨⟨hcurrent, -⟩, hkind⟩, -⟩, -⟩, -, -, -, -, waived, hwaived, rfl, rfl⟩ := h
  rw [updateFinding_eq_ok hordered hwaived]
  refine .recorded _ _ finding _ _ rfl hfinding hcurrent
    (isConserved_of_pending ?_) rfl
  rw [currentDisposition_of_lastRecord hlast, hkind]
  simp

/-! ### Reconciliation -/

theorem id_of_merge (snapshots : List Finding) (finding : Finding) :
    (snapshots.foldl Finding.mergeSourcesAndEvidence finding).id = finding.id := by
  induction snapshots generalizing finding with
  | nil => rfl
  | cons snapshot rest ih => exact ih _

@[simp] theorem id_of_reconciled (opening closing : DispositionRecord) :
    (reconciled canonical closed snapshots opening closing finding).id =
      finding.id := by
  unfold reconciled
  split
  · exact id_of_merge snapshots finding
  · split <;> rfl

theorem mergeAll_eq_ok (hordered : Ordered state)
    (h : mergeAll canonical state snapshots = .ok next) :
    next = { state with
      findings := updateRow Finding.id canonical
        (fun finding => snapshots.foldl Finding.mergeSourcesAndEvidence finding)
        state.findings } := by
  induction snapshots generalizing state with
  | nil =>
      rw [mergeAll, Except.ok.injEq] at h
      rw [← h]
      simp [updateRow]
  | cons snapshot rest ih =>
      simp only [mergeAll, bind_eq_ok_iff] at h
      obtain ⟨merged, hmerged, hrest⟩ := h
      rw [updateFinding_eq_ok hordered hmerged] at hrest
      rw [ih (by exact ordered_of_updateRow hordered fun _ => rfl) hrest]
      simp only [updateRow, List.map_map]
      congr 1
      refine List.map_congr_left ?_
      intro finding hmem
      by_cases hid : finding.id = canonical <;>
        simp [hid, Finding.mergeSourcesAndEvidence]

theorem supersedeAll_eq_ok {record : DispositionRecord} (hordered : Ordered state)
    (hnodup : closed.Nodup)
    (h : supersedeAll canonical record state closed = .ok next) :
    next = { state with
      findings := state.findings.map fun finding =>
        if finding.id ∈ closed then supersede canonical record finding
        else finding } := by
  induction closed generalizing state with
  | nil =>
      rw [supersedeAll, Except.ok.injEq] at h
      rw [← h]
      simp
  | cons duplicate rest ih =>
      obtain ⟨hfresh, hnodup⟩ := List.nodup_cons.mp hnodup
      simp only [supersedeAll, bind_eq_ok_iff] at h
      obtain ⟨superseded, hsuperseded, hrest⟩ := h
      rw [updateFinding_eq_ok hordered hsuperseded] at hrest
      rw [ih (by exact ordered_of_updateRow hordered fun _ => rfl) hnodup hrest]
      simp only [updateRow, List.map_map]
      congr 1
      refine List.map_congr_left ?_
      intro finding hmem
      by_cases hid : finding.id = duplicate
      · have hkept : (supersede canonical record finding).id ∉ rest := by
          intro hagain
          apply hfresh
          rw [← hid]
          exact hagain
        simp [hid, hkept]
      · simp [hid]

theorem duplicatesOf_eq_ok (h : duplicatesOf state target.category
      target.revision closed = .ok snapshots) :
    List.Forall₂ (fun identity snapshot =>
      state.finding identity = some snapshot ∧
        Answerable state target snapshot) closed snapshots := by
  induction closed generalizing snapshots with
  | nil =>
      rw [duplicatesOf, Except.ok.injEq] at h
      rw [← h]
      exact .nil
  | cons identity rest ih =>
      simp only [duplicatesOf, duplicateOf, bind_eq_ok_iff, exists_unit_iff,
        ensure_eq_ok_iff, findingOf_eq_ok_iff, Bool.and_eq_true,
        decide_eq_true_eq, Option.isNone_iff_eq_none, Except.ok.injEq] at h
      obtain ⟨_, ⟨finding, hfinding,
        ⟨⟨⟨⟨hcurrent, hcategory⟩, hrevision⟩, hlive⟩, hopened⟩, rfl⟩, others,
        hothers, rfl⟩ := h
      exact .cons ⟨hfinding, hcurrent, hcategory, hrevision, hlive,
        isConserved_of_pending (.inl hopened)⟩ (ih hothers)

/-- The target is merged and opened again, and then the answered are closed. -/
theorem findings_of_answered (opening : Finding → DispositionRecord)
    {closing : DispositionRecord} {merged reopened : ReviewRunState}
    (hordered : Ordered state) (htarget : state.finding canonical = some target)
    (hself : canonical ∉ closed) (hnodup : closed.Nodup)
    (hmerged : mergeAll canonical state snapshots = .ok merged)
    (hreopened : updateFinding merged canonical detail
      (fun finding => finding.pushDisposition (opening finding)) = .ok reopened)
    (h : supersedeAll canonical closing reopened closed = .ok next) :
    next = { state with
      findings := state.findings.map (reconciled canonical closed snapshots
        (opening (snapshots.foldl Finding.mergeSourcesAndEvidence target))
        closing) } := by
  have hmerged' := mergeAll_eq_ok hordered hmerged
  have hordered' : Ordered merged := by
    rw [hmerged']
    exact ordered_of_updateRow hordered (id_of_merge snapshots)
  have hreopened' := updateFinding_eq_ok hordered' hreopened
  have hordered'' : Ordered reopened := by
    rw [hreopened']
    exact ordered_of_updateRow hordered' fun _ => rfl
  rw [supersedeAll_eq_ok hordered'' hnodup h, hreopened', hmerged']
  simp only [updateRow, List.map_map]
  congr 1
  refine List.map_congr_left ?_
  intro finding hmem
  unfold reconciled
  by_cases hid : finding.id = canonical
  · have hfound := (finding_eq_some_iff hordered).mpr ⟨hmem, hid⟩
    rw [htarget, Option.some.injEq] at hfound
    have hsame := id_of_merge snapshots finding
    simp [hid, hsame, hself, hfound, Finding.pushDisposition]
  · simp [hid]

theorem changes_of_reconcileDuplicates {digest : Sha256Digest}
    (hordered : Ordered state)
    (h : reconcileDuplicates state eventId canonical closed digest = .ok next) :
    Changes sha256 state eventId (.duplicatesReconciled canonical closed digest)
      next := by
  simp only [reconcileDuplicates, canonicalNonempty, State.canonical,
    bind_eq_ok_iff, exists_unit_iff, ensure_eq_ok_iff, findingOf_eq_ok_iff,
    Bool.and_eq_true, decide_eq_true_eq, Option.isNone_iff_eq_none] at h
  obtain ⟨⟨-, hascending⟩, hself, target, htarget, ⟨⟨hcurrent, hlive⟩, hopened⟩,
    snapshots, hsnapshots, -, merged, hmerged, reopened, hreopened, hnext⟩ := h
  have hnodup : closed.Nodup := (ascending_iff.mp hascending).nodup_map.of_map _
  rw [findings_of_answered (fun target => reconciliationRecord eventId .opened
    target.revision none digest) hordered htarget hself hnodup hmerged hreopened
    hnext]
  exact .answered _ canonical closed target snapshots _ _ rfl hself htarget
    hcurrent hlive hopened (duplicatesOf_eq_ok hsnapshots) ⟨rfl, rfl⟩ ⟨rfl, rfl⟩

theorem changes_of_confirmSupersession {superseding : FindingId}
    {confirmation : Confirmation} {actor : ActorId} (hordered : Ordered state)
    (hactor : validateConfirmation state findingId confirmation
      .supersessionProposed (some superseding) = .ok actor)
    (h : confirmSupersession state eventId findingId superseding confirmation =
      .ok next) :
    Changes sha256 state eventId
      (.supersessionConfirmed findingId superseding confirmation) next := by
  simp only [confirmSupersession, bind_eq_ok_iff, exists_unit_iff,
    ensure_eq_ok_iff, findingOf_eq_ok_iff, Bool.and_eq_true, decide_eq_true_eq,
    Option.isNone_iff_eq_none] at h
  obtain ⟨hself, source, hsource, target, htarget,
    ⟨⟨⟨⟨⟨⟨hsourceCurrent, hcurrent⟩, hrevision⟩, hcategory⟩, hsourceLive⟩, hlive⟩,
      hopened⟩, -, merged, hmerged, hnext⟩ := h
  obtain ⟨pending, hpending, -, hproposed⟩ := validateConfirmation_eq_ok hactor
  rw [hsource, Option.some.injEq] at hpending
  subst hpending
  have hmerged' := updateFinding_eq_ok hordered hmerged
  have hordered' : Ordered merged := by
    rw [hmerged']
    exact ordered_of_updateRow hordered fun _ => rfl
  have hnext' : next = { state with
      findings := state.findings.map (reconciled superseding [findingId] [source]
        (reconciliationRecord eventId .opened source.revision (some findingId)
          confirmation.confirmationDigest)
        ⟨eventId, .superseded, none, some confirmation.reviewerCycle,
          source.revision, confirmation.evidence, some superseding, none, none,
          none, confirmation.confirmationDigest⟩) } := by
    rw [updateFinding_eq_ok hordered' hnext, hmerged']
    simp only [updateRow, List.map_map]
    congr 1
    refine List.map_congr_left ?_
    intro finding hmem
    unfold reconciled
    by_cases hid : finding.id = superseding
    · have hother : ¬ superseding = findingId := fun h => hself h.symm
      simp [hid, hother, Finding.pushDisposition, Finding.mergeSourcesAndEvidence]
    · simp [hid]
  rw [hnext']
  refine .answered _ superseding [findingId] target [source] _ _ rfl ?_ htarget
    hcurrent hlive hopened (.cons ⟨hsource, ?_⟩ .nil) ⟨rfl, rfl⟩ ⟨rfl, rfl⟩
  · simpa using fun h => hself h.symm
  · refine ⟨hsourceCurrent, hcategory, hrevision, hsourceLive,
      isConserved_of_pending ?_⟩
    simp [hproposed]

/-! ### Commands -/

theorem changes_of_finalize (h : finalize sha256 state = .ok (applied, kind)) :
    Changes sha256 state eventId kind applied := by
  unfold finalize at h
  split at h
  · next htriggered =>
      cases h
      exact .oscillated htriggered
  · next hcalm =>
      simp only [ensure_bind_eq_ok_iff, List.isEmpty_iff, Except.ok.injEq,
        Prod.mk.injEq] at h
      obtain ⟨hquorum, hconserved, rfl, rfl⟩ := h
      exact .completed (Bool.eq_false_iff.mpr hcalm) hquorum hconserved

theorem changes_of_apply {command : ReviewCommandKind} (hordered : Ordered state)
    (h : apply sha256 state eventId command = .ok (applied, kind)) :
    Changes sha256 state eventId kind applied := by
  simp only [apply, ensure_bind_eq_ok_iff] at h
  obtain ⟨-, h⟩ := h
  cases command with
  | startRun binding limits => cases h
  | advanceRevision binding => exact changes_of_advanceRevision h
  | assignReviewer assignment => exact changes_of_assign h
  | submitReview submission => exact changes_of_submit hordered h
  | observeWaiver waiver => exact changes_of_observeWaiver hordered h
  | cancelCycle cycleId => exact changes_of_cancelCycle hordered h
  | finalizeRun => exact changes_of_finalize h
  | pauseRun =>
      simp only [dispatch, pause, ensure_bind_eq_ok_iff, decide_eq_true_eq,
        Except.ok.injEq, Prod.mk.injEq] at h
      obtain ⟨hphase, rfl, rfl⟩ := h
      exact .paused hphase
  | resumeRun =>
      simp only [dispatch, resume, ensure_bind_eq_ok_iff, decide_eq_true_eq,
        Except.ok.injEq, Prod.mk.injEq] at h
      obtain ⟨hphase, rfl, rfl⟩ := h
      exact .resumed hphase
  | cancelRun =>
      cases h
      exact .ended _ _ _ rfl
  | exhaustBudget reason =>
      cases h
      exact .ended _ _ _ rfl
  | failRun failure =>
      cases h
      exact .ended _ _ _ rfl
  | reconcileDuplicates canonical duplicates digest =>
      simp only [dispatch, withEvent, bind_eq_ok_iff, Except.ok.injEq,
        Prod.mk.injEq] at h
      obtain ⟨next, hnext, rfl, rfl⟩ := h
      exact changes_of_reconcileDuplicates hordered hnext
  | recordFixerResponse findingId response =>
      simp only [dispatch, withEvent, bind_eq_ok_iff, Except.ok.injEq,
        Prod.mk.injEq] at h
      obtain ⟨next, hnext, rfl, rfl⟩ := h
      exact changes_of_recordResponse hordered rfl hnext
  | requestWaiver findingId request =>
      simp only [dispatch, withEvent, bind_eq_ok_iff, Except.ok.injEq,
        Prod.mk.injEq] at h
      obtain ⟨next, hnext, rfl, rfl⟩ := h
      exact changes_of_recordResponse hordered rfl hnext
  | confirmResolution findingId confirmation =>
      simp only [dispatch, withEvent, bind_eq_ok_iff, Except.ok.injEq,
        Prod.mk.injEq] at h
      obtain ⟨next, hnext, rfl, rfl⟩ := h
      exact changes_of_confirm hordered (.inl rfl) rfl hnext
  | confirmInvalidation findingId confirmation =>
      simp only [dispatch, withEvent, bind_eq_ok_iff, Except.ok.injEq,
        Prod.mk.injEq] at h
      obtain ⟨next, hnext, rfl, rfl⟩ := h
      exact changes_of_confirm hordered (.inr rfl) rfl hnext
  | confirmSupersession findingId superseding confirmation =>
      simp only [dispatch, withEvent, bind_eq_ok_iff, Except.ok.injEq,
        Prod.mk.injEq] at h
      obtain ⟨actor, hactor, next, hnext, rfl, rfl⟩ := h
      exact changes_of_confirmSupersession hordered hactor hnext

end Handlers

section Steps

variable {sha256 : List UInt8 → Sha256Digest} {state next applied initial :
    ReviewRunState} {event first : ReviewEvent} {events rest : List ReviewEvent}
  {eventId : EventId} {kind : ReviewEventKind}

theorem kept_of_changes (h : Changes sha256 state eventId kind applied) :
    Kept state applied := by
  cases h <;> exact ⟨rfl, rfl, rfl, rfl, rfl⟩

theorem submission_eq_ok {limits : ReviewLimits} {submission : ReviewSubmission}
    {blocking : FindingSeverity}
    (h : validateSubmission sha256 limits submission blocking = .ok ()) :
    Sorted Finding.id submission.findings ∧ ∀ finding ∈ submission.findings,
      finding.revision = submission.revision ∧
        finding.origin.cycleId = submission.cycleId ∧
        finding.sources = [finding.origin] ∧ finding.dispositions = [] ∧
        finding.supersededBy = none := by
  simp only [validateSubmission, bind_eq_ok_iff, exists_unit_iff,
    ensure_eq_ok_iff, forEach_eq_ok_iff, Bool.and_eq_true, decide_eq_true_eq,
    List.isEmpty_iff, Option.isNone_iff_eq_none, ascending_iff] at h
  obtain ⟨-, -, hsorted, hfindings, -⟩ := h
  refine ⟨hsorted, ?_⟩
  intro finding hmem
  obtain ⟨-, ⟨⟨⟨⟨hrevision, hcycle⟩, -⟩, hsources⟩, hdispositions⟩, hlive⟩ :=
    hfindings finding hmem
  exact ⟨hrevision, hcycle, hsources, hdispositions, hlive⟩

theorem nodup_ids_of_updateRow {cycleId : ReviewCycleId}
    {update : ReviewCycle → ReviewCycle} (hordered : Ordered state)
    (hkey : ∀ cycle, (update cycle).id = cycle.id) :
    ((updateRow ReviewCycle.id cycleId update state.cycles).map
      ReviewCycle.id).Nodup := by
  have hids : (updateRow ReviewCycle.id cycleId update state.cycles).map
      ReviewCycle.id = state.cycles.map ReviewCycle.id := by
    simp only [updateRow, List.map_map]
    refine List.map_congr_left ?_
    intro cycle hmem
    rw [Function.comp_apply]
    split
    · exact hkey cycle
    · rfl
  rw [hids]
  exact hordered.cycles

theorem not_mem_of_finding {findingId : FindingId} (hordered : Ordered state)
    (hmissing : state.finding findingId = none) :
    findingId ∉ state.findings.map Finding.id := by
  intro hmem
  obtain ⟨finding, hfinding, hid⟩ := List.mem_map.mp hmem
  exact (lookup_eq_none_iff hordered.findings).mp hmissing finding hfinding hid

theorem sorted_of_insert {findings : List Finding} (hordered : Ordered state)
    (hsorted : Sorted Finding.id findings)
    (hnew : ∀ finding ∈ findings, state.finding finding.id = none) :
    Sorted Finding.id (insertFindings state findings).findings := by
  refine sorted_insertionSort ?_
  rw [List.map_append, List.nodup_append']
  refine ⟨hordered.findings.nodup_map, hsorted.nodup_map, ?_⟩
  intro findingId hmem hagain
  obtain ⟨finding, hfinding, rfl⟩ := List.mem_map.mp hagain
  exact not_mem_of_finding hordered (hnew finding hfinding) hmem

theorem sorted_admitted {submission : ReviewSubmission} {reviewer : ActorId}
    (hsorted : Sorted Finding.id submission.findings) :
    Sorted Finding.id (admitted eventId submission reviewer) :=
  hsorted.map fun _ => rfl

theorem admitted_new {submission : ReviewSubmission} {reviewer : ActorId}
    (hnew : ∀ finding ∈ submission.findings, state.finding finding.id = none) :
    ∀ finding ∈ admitted eventId submission reviewer,
      state.finding finding.id = none := by
  intro finding hmem
  obtain ⟨body, hbody, rfl⟩ := List.mem_map.mp hmem
  exact hnew body hbody

theorem ordered_of_changes (hordered : Ordered state)
    (h : Changes sha256 state eventId kind applied) : Ordered applied := by
  cases h with
  | advanced binding hvalid hfresh =>
      refine ⟨hordered.findings, ?_⟩
      have hids : (replaceBinding state binding).cycles.map ReviewCycle.id =
          state.cycles.map ReviewCycle.id := by
        simp only [replaceBinding, List.map_map]
        refine List.map_congr_left ?_
        intro cycle hmem
        rw [Function.comp_apply]
        split <;> rfl
      rw [hids]
      exact hordered.cycles
  | assigned assignment hvalid hnew =>
      refine ⟨hordered.findings, ?_⟩
      rw [List.map_append, List.nodup_append']
      refine ⟨hordered.cycles, List.nodup_singleton _, ?_⟩
      intro cycleId hmem hagain
      obtain ⟨cycle, hcycle, rfl⟩ := List.mem_map.mp hmem
      refine List.find?_eq_none.mp hnew cycle hcycle ?_
      exact decide_eq_true (List.mem_singleton.mp hagain)
  | submitted submission cycle hvalid hcycle hcurrent hphase hrevision hnew =>
      refine ⟨?_, nodup_ids_of_updateRow hordered fun _ => rfl⟩
      exact sorted_of_insert hordered (sorted_admitted (submission_eq_ok hvalid).1)
        (admitted_new hnew)
  | recorded kind findingId finding record waivers =>
      refine ⟨hordered.findings.map ?_, hordered.cycles⟩
      intro finding
      split <;> rfl
  | answered kind canonical closed target snapshots opening closing =>
      exact ordered_of_map hordered fun _ => id_of_reconciled opening closing
  | cancelled cycleId cycle hcycle hcurrent hphase =>
      exact ⟨hordered.findings, nodup_ids_of_updateRow hordered fun _ => rfl⟩
  | _ => exact ⟨hordered.findings, hordered.cycles⟩

/-! ### Runs -/

/-- A step is a change of the run, the reports recomputed and the cursor moved. -/
structure Stepped (sha256 : List UInt8 → Sha256Digest) (state : ReviewRunState)
    (event : ReviewEvent) (next applied : ReviewRunState) : Prop
    extends Accepted sha256 state event next applied where
  changes : Changes sha256 state event.id event.kind applied
  kept : Kept state applied
  ordered : Ordered next

theorem stepped_of_accepted (hordered : Ordered state)
    (haccepted : Accepted sha256 state event next applied) :
    Stepped sha256 state event next applied := by
  have hchanges := changes_of_apply hordered haccepted.applies
  have happlied := ordered_of_changes hordered hchanges
  refine ⟨haccepted, hchanges, kept_of_changes hchanges, ?_⟩
  rw [haccepted.successor]
  exact ⟨happlied.findings, happlied.cycles⟩

theorem ordered_of_run (hrun : ReviewRun sha256 events state) : Ordered state := by
  refine run_induction (fun _ state => Ordered state) ?_ ?_ hrun
  · rintro first initial ⟨command, hstart⟩
    obtain ⟨binding, limits, -, -, -, rfl⟩ := start_eq_ok hstart
    exact ⟨List.Pairwise.nil, List.nodup_nil⟩
  · rintro events state event next - hordered hstep
    obtain ⟨applied, haccepted⟩ := exists_accepted hstep
    exact (stepped_of_accepted hordered haccepted).ordered

theorem exists_stepped (hrun : ReviewRun sha256 events state)
    (hstep : Steps sha256 state event next) :
    ∃ applied, Stepped sha256 state event next applied := by
  obtain ⟨applied, haccepted⟩ := exists_accepted hstep
  exact ⟨applied, stepped_of_accepted (ordered_of_run hrun) haccepted⟩

/-- A run remembers the identities of its commands, and uses each once. -/
theorem usedCommands_of_run (hrun : ReviewRun sha256 events state) :
    state.usedCommands = events.map ReviewEvent.commandId ∧
      state.usedCommands.Nodup := by
  refine run_induction (fun events state =>
    state.usedCommands = events.map ReviewEvent.commandId ∧
      state.usedCommands.Nodup) ?_ ?_ hrun
  · rintro first initial ⟨command, hstart⟩
    obtain ⟨binding, limits, -, -, -, rfl⟩ := start_eq_ok hstart
    exact ⟨rfl, List.nodup_singleton _⟩
  · rintro events state event next hrun ⟨hused, hnodup⟩ hstep
    obtain ⟨applied, hstepped⟩ := exists_stepped hrun hstep
    have hnext : next.usedCommands = state.usedCommands ++ [event.commandId] := by
      rw [hstepped.successor, ← hstepped.kept.usedCommands]
      rfl
    rw [hnext]
    constructor
    · rw [hused, List.map_append, List.map_singleton]
    · rw [List.nodup_append']
      refine ⟨hnodup, List.nodup_singleton _, ?_⟩
      intro commandId hmem hagain
      rw [List.mem_singleton.mp hagain] at hmem
      exact hstepped.fresh hmem

end Steps

end Peritus.Review.Edits
