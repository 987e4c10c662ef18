import Peritus.Review.Runs
import Peritus.Review.Wire
import Peritus.Saturating

/-!
The estimates of a review run against the sizes that are written.  Below the
largest 64-bit number an estimate is a sum of allowances; what an item writes
beyond its allowance is its overhead, and what the allowance leaves is its room.
-/

namespace Peritus.Review.Estimates

open Peritus.Types Saturating State Reports Reducer Wire
open Codec.Writer hiding canonical

/-! ### Allowances -/

def textAllowance (finding : Finding) : Nat :=
  (finding.texts.map String.utf8ByteSize).sum

def pathAllowance (finding : Finding) : Nat :=
  (finding.locations.map fun location => location.path.utf8ByteSize).sum

/-- `findingBytes`, with sums that do not saturate. -/
def findingAllowance (finding : Finding) : Nat :=
  textAllowance finding + pathAllowance finding + finding.evidence.length * 16
    + finding.requirements.length * 32 + finding.sources.length * 32
    + finding.dispositions.length * 256
    + (finding.dispositions.map fun record => record.evidence.length * 16).sum
    + 512

def submittedFindings (cycle : ReviewCycle) : List Finding :=
  cycle.submission.toList.flatMap ReviewSubmission.findings

/-- `estimatedEncodedBytes`, with sums that do not saturate. -/
def stateAllowance (state : ReviewRunState) : Nat :=
  2048 + (state.findings.map findingAllowance).sum
    + ((state.cycles.flatMap submittedFindings).map findingAllowance).sum
    + state.cycles.length * 1024 + state.waivers.length * 256
    + state.usedCommands.length * 16

/-- What a submission is estimated at for one finding. -/
def submittedAllowance (finding : Finding) : Nat :=
  textAllowance finding + pathAllowance finding + finding.evidence.length * 16
    + 512

def bindingAllowance (binding : ReviewBinding) : Nat :=
  512 + binding.requiredCategories.length * 32
    + binding.producerActors.length * 16 + binding.producerAncestries.length * 32

/-- `estimatedPayloadBytes`, with sums that do not saturate. -/
def payloadAllowance : ReviewCommandKind → Nat
  | .startRun binding _ | .advanceRevision binding => bindingAllowance binding
  | .assignReviewer assignment => 512 + assignment.categories.length * 32
  | .submitReview submission =>
      512 + (submission.findings.map submittedAllowance).sum
  | .reconcileDuplicates _ duplicates _ => 512 + duplicates.length * 16
  | .recordFixerResponse _ response | .requestWaiver _ response =>
      512 + response.evidence.length * 16
  | .confirmResolution _ confirmation | .confirmInvalidation _ confirmation
  | .confirmSupersession _ _ confirmation =>
      512 + confirmation.evidence.length * 16
  | .observeWaiver _ | .cancelCycle _ | .cancelRun | .pauseRun | .resumeRun
  | .exhaustBudget _ | .failRun _ | .finalizeRun => 512

section Saturation

theorem saturates_saturatingMul (a b : Nat) :
    Saturates u64Max (a * b) (saturatingMul a b) :=
  (Saturates.refl u64Max (a * b)).cut

theorem saturates_saturatingSum {α : Type} {estimate allowance : α → Nat}
    (hestimate : ∀ a, Saturates u64Max (allowance a) (estimate a))
    (values : List α) {exact value : Nat} (h : Saturates u64Max exact value) :
    Saturates u64Max (exact + (values.map allowance).sum)
      (saturatingSum (values.map estimate) value) := by
  unfold saturatingSum
  rw [List.foldl_map]
  exact .foldl (fun _ _ a h => h.add (hestimate a)) values h

theorem saturates_textBytes (finding : Finding) :
    Saturates u64Max (textAllowance finding) (textBytes finding) := by
  have h := saturates_saturatingSum (fun text => Saturates.refl u64Max
    (String.utf8ByteSize text)) finding.texts (Saturates.refl u64Max 0)
  rw [Nat.zero_add] at h
  exact h

theorem saturates_pathBytes (finding : Finding) :
    Saturates u64Max (pathAllowance finding) (pathBytes finding) := by
  have h := saturates_saturatingSum (fun location : FindingLocation =>
    Saturates.refl u64Max location.path.utf8ByteSize) finding.locations
    (Saturates.refl u64Max 0)
  rw [Nat.zero_add] at h
  exact h

theorem saturates_findingBytes (finding : Finding) :
    Saturates u64Max (findingAllowance finding) (findingBytes finding) := by
  have hrecords := saturates_saturatingSum (fun record : DispositionRecord =>
    saturates_saturatingMul record.evidence.length 16) finding.dispositions
    (Saturates.refl u64Max 0)
  rw [Nat.zero_add] at hrecords
  exact ((((((saturates_textBytes finding).add
    (saturates_pathBytes finding)).add
    (saturates_saturatingMul _ 16)).add
    (saturates_saturatingMul _ 32)).add
    (saturates_saturatingMul _ 32)).add
    (saturates_saturatingMul _ 256)).add hrecords |>.add (.refl u64Max 512)

theorem saturates_estimatedEncodedBytes (state : ReviewRunState) :
    Saturates u64Max (stateAllowance state) (estimatedEncodedBytes state) := by
  have hretained := saturates_saturatingSum saturates_findingBytes
    state.findings (Saturates.refl u64Max 0)
  have hsubmitted := saturates_saturatingSum saturates_findingBytes
    (state.cycles.flatMap submittedFindings) (Saturates.refl u64Max 0)
  rw [Nat.zero_add] at hretained hsubmitted
  have hflat : (state.cycles.flatMap submittedFindings).map findingBytes =
      state.cycles.flatMap fun cycle =>
        cycle.submission.toList.flatMap fun submission =>
          submission.findings.map findingBytes := by
    simp only [submittedFindings, List.map_flatMap]
  rw [hflat] at hsubmitted
  exact (((((Saturates.refl u64Max 2048).add hretained).add hsubmitted).add
    (saturates_saturatingMul _ 1024)).add
    (saturates_saturatingMul _ 256)).add (saturates_saturatingMul _ 16)

theorem saturates_bindingPayload (binding : ReviewBinding) :
    Saturates u64Max (bindingAllowance binding) (bindingPayload 512 binding) :=
  (((Saturates.refl u64Max 512).add (saturates_saturatingMul _ 32)).add
    (saturates_saturatingMul _ 16)).add (saturates_saturatingMul _ 32)

theorem saturates_findingPayload (finding : Finding) {exact value : Nat}
    (h : Saturates u64Max exact value) :
    Saturates u64Max (exact + submittedAllowance finding)
      (findingPayload value finding) := by
  have hpayload := (((h.add (saturates_textBytes finding)).add
    (saturates_pathBytes finding)).add
    (saturates_saturatingMul finding.evidence.length 16)).add
    (.refl u64Max 512)
  have hsum : exact + submittedAllowance finding =
      exact + textAllowance finding + pathAllowance finding
        + finding.evidence.length * 16 + 512 := by
    unfold submittedAllowance
    omega
  rw [hsum]
  exact hpayload

theorem saturates_estimatedPayloadBytes (kind : ReviewCommandKind) :
    Saturates u64Max (payloadAllowance kind) (estimatedPayloadBytes kind) := by
  have hitems : ∀ count width,
      Saturates u64Max (512 + count * width)
        (saturatingAdd 512 (saturatingMul count width)) :=
    fun count width => (Saturates.refl u64Max 512).add
      (saturates_saturatingMul count width)
  cases kind with
  | startRun binding | advanceRevision binding =>
      exact saturates_bindingPayload binding
  | submitReview submission =>
      exact .foldl (fun _ _ finding h => saturates_findingPayload finding h)
        submission.findings (.refl u64Max 512)
  | assignReviewer | reconcileDuplicates | recordFixerResponse | requestWaiver
  | confirmResolution | confirmInvalidation | confirmSupersession =>
      exact hitems _ _
  | _ => exact .refl u64Max 512

end Saturation

/-! ### Overhead and room -/

/-- What a record writes for the parts that it may lack. -/
def recordOverhead (record : DispositionRecord) : Nat :=
  present record.actor 16 + present record.reviewerCycle 16
    + present record.relatedFinding 16 + present record.approvalRequestId 16
    + present record.authority 32 + present record.evidenceRequirementId 32

def findingOverhead (finding : Finding) : Nat :=
  20 * finding.locations.length + (finding.dispositions.map recordOverhead).sum
    + present finding.supersededBy 16

def findingRoom (finding : Finding) : Nat :=
  263 + 101 * finding.dispositions.length

def bindingOverhead (binding : ReviewBinding) : Nat :=
  waiverPolicySize binding.waiverPolicy
    + 32 * binding.requiredCategories.length
    + 16 * binding.producerActors.length
    + 32 * binding.producerAncestries.length

def submissionOverhead (submission : ReviewSubmission) : Nat :=
  152 + 32 * submission.categories.length
    + (submission.findings.map findingOverhead).sum

def cycleOverhead (cycle : ReviewCycle) : Nat :=
  32 * cycle.assignment.categories.length
    + (cycle.submission.map submissionOverhead).getD 0

def cycleRoom (cycle : ReviewCycle) : Nat :=
  655 + ((submittedFindings cycle).map findingRoom).sum

/-- What a checkpoint writes beyond the fixed parts of its items. -/
def overhead (state : ReviewRunState) : Nat :=
  bindingOverhead state.binding + (state.cycles.map cycleOverhead).sum
    + (state.findings.map findingOverhead).sum
    + 32 * state.quorum.coveredCategories.length
    + state.oscillation.kinds.length
    + (state.terminal.map terminalSize).getD 0

/-- What the constants of the estimate leave above those fixed parts. -/
def room (state : ReviewRunState) : Nat :=
  1620 + (state.cycles.map cycleRoom).sum + (state.findings.map findingRoom).sum

section Accounting

theorem dispositionSize_eq (record : DispositionRecord) :
    dispositionSize record =
      155 + (record.evidence.length * 16 + recordOverhead record) := by
  unfold dispositionSize recordOverhead
  omega

/-- Items of a fixed part `base` and of a rest that varies. -/
theorem sum_map_of_eq {α : Type} {base : Nat} {whole rest : α → Nat}
    (hwhole : ∀ a, whole a = base + rest a) (values : List α) :
    (values.map whole).sum =
      base * values.length + (values.map rest).sum := by
  induction values with
  | nil => rfl
  | cons a values ih =>
      simp only [List.map_cons, List.sum_cons, List.length_cons, ih, hwhole,
        Nat.mul_add_one]
      omega

/-- Written bytes and room make up allowance and overhead. -/
theorem findingSize_add_room (finding : Finding) :
    findingSize finding + findingRoom finding =
      findingAllowance finding + findingOverhead finding := by
  have hlocations : (finding.locations.map locationSize).sum =
      20 * finding.locations.length + pathAllowance finding :=
    sum_map_of_eq (fun _ => rfl) finding.locations
  have hrecords : (finding.dispositions.map dispositionSize).sum =
      155 * finding.dispositions.length
        + (finding.dispositions.map fun record =>
          record.evidence.length * 16).sum
        + (finding.dispositions.map recordOverhead).sum := by
    rw [sum_map_of_eq dispositionSize_eq, List.sum_map_add, Nat.add_assoc]
  simp only [findingSize, findingRoom, findingAllowance, findingOverhead,
    textAllowance, hlocations, hrecords]
  omega

theorem sum_findingSize (findings : List Finding) :
    (findings.map findingSize).sum + (findings.map findingRoom).sum =
      (findings.map findingAllowance).sum
        + (findings.map findingOverhead).sum := by
  simp only [← List.sum_map_add, findingSize_add_room]

theorem cycleSize_add_room (cycle : ReviewCycle) :
    cycleSize cycle + cycleRoom cycle =
      1024 + ((submittedFindings cycle).map findingAllowance).sum
        + cycleOverhead cycle := by
  obtain ⟨assignment, phase, submission⟩ := cycle
  cases submission with
  | none =>
      simp [cycleSize, cycleRoom, cycleOverhead, submittedFindings,
        assignmentSize]
      omega
  | some submission =>
      have hsum := sum_findingSize submission.findings
      simp [cycleSize, cycleRoom, cycleOverhead, submittedFindings,
        assignmentSize, submissionSize, submissionOverhead]
      omega

theorem sum_cycleSize (cycles : List ReviewCycle) :
    (cycles.map cycleSize).sum + (cycles.map cycleRoom).sum =
      cycles.length * 1024
        + ((cycles.flatMap submittedFindings).map findingAllowance).sum
        + (cycles.map cycleOverhead).sum := by
  induction cycles with
  | nil => rfl
  | cons cycle rest ih =>
      have hcycle := cycleSize_add_room cycle
      simp only [List.map_cons, List.sum_cons, List.length_cons,
        List.flatMap_cons, List.map_append, List.sum_append]
      omega

theorem checkpointSize_add_room (state : ReviewRunState) :
    checkpointSize state + room state = stateAllowance state + overhead state := by
  have hcycles := sum_cycleSize state.cycles
  have hfindings := sum_findingSize state.findings
  simp only [checkpointSize, room, stateAllowance, overhead, bindingSize,
    bindingOverhead, quorumSize, oscillationSize]
  omega

end Accounting

/-! ### The exact conditions -/

/-- The parts of varying size fit into what the constants leave. -/
def Balanced (state : ReviewRunState) : Prop := overhead state ≤ room state

/-- The commands whose estimate covers both of their payloads. -/
def covered : ReviewCommandKind → Bool
  | .startRun _ _ | .assignReviewer _ => false
  | .advanceRevision binding => decide (binding.waiverPolicy = .forbidden)
  | .submitReview submission =>
      decide (32 * submission.categories.length
        + (submission.findings.map fun finding =>
          32 * finding.requirements.length
            + 20 * finding.locations.length).sum ≤
        126 + 231 * submission.findings.length)
  | _ => true

/-- Both payloads of an accepted command are within its estimate. -/
def Estimated (command : ReviewCommand) (event : ReviewEvent) : Prop :=
  size (writeCommand command) ≤ estimatedPayloadBytes command.kind ∧
    size (writeEvent event) ≤ estimatedPayloadBytes command.kind

/-- A finding as it is submitted: one source, and no history. -/
structure Fresh (finding : Finding) : Prop where
  sources : finding.sources.length = 1
  dispositions : finding.dispositions = []
  live : finding.supersededBy = none

section Conditions

variable {kind : ReviewCommandKind}

theorem findingSize_of_fresh {finding : Finding} (hfresh : Fresh finding) :
    231 + findingSize finding =
      submittedAllowance finding + (32 * finding.requirements.length
        + 20 * finding.locations.length) := by
  have hlocations : (finding.locations.map locationSize).sum =
      20 * finding.locations.length + pathAllowance finding :=
    sum_map_of_eq (fun _ => rfl) finding.locations
  simp only [findingSize, submittedAllowance, textAllowance, hlocations,
    hfresh.sources, hfresh.dispositions, hfresh.live, present_none,
    List.map_nil, List.sum_nil]
  omega

theorem submissionSize_of_fresh {submission : ReviewSubmission}
    (hfresh : ∀ finding ∈ submission.findings, Fresh finding) :
    submissionSize submission + 231 * submission.findings.length =
      152 + 32 * submission.categories.length
        + (submission.findings.map submittedAllowance).sum
        + (submission.findings.map fun finding =>
          32 * finding.requirements.length
            + 20 * finding.locations.length).sum := by
  have hsum : 231 * submission.findings.length
        + (submission.findings.map findingSize).sum =
      (submission.findings.map submittedAllowance).sum
        + (submission.findings.map fun finding =>
          32 * finding.requirements.length
            + 20 * finding.locations.length).sum := by
    rw [← List.sum_map_add, ← sum_map_of_eq fun _ => rfl]
    refine congrArg List.sum (List.map_congr_left ?_)
    intro finding hmem
    exact findingSize_of_fresh (hfresh finding hmem)
  unfold submissionSize
  omega

theorem fixerSize_le (response : FixerResponse) :
    fixerSize response ≤ 225 + 16 * response.evidence.length := by
  cases response <;> simp only [fixerSize, FixerResponse.evidence] <;> omega

/-- A command after the start is covered exactly if its kind leaves 233 bytes for
the rest of the event. -/
theorem kindSize_le_iff (hstart : kind.isStart = false)
    (hfresh : ∀ submission, kind = .submitReview submission →
      ∀ finding ∈ submission.findings, Fresh finding) :
    233 + kindSize kind ≤ payloadAllowance kind ↔ covered kind = true := by
  cases kind with
  | startRun => cases hstart
  | advanceRevision binding =>
      cases hpolicy : binding.waiverPolicy <;>
        simp only [kindSize, bindingSize, payloadAllowance, bindingAllowance,
          covered, hpolicy, waiverPolicySize, decide_eq_true_eq, reduceCtorEq,
          iff_true, iff_false] <;>
        omega
  | assignReviewer assignment =>
      simp only [kindSize, assignmentSize, payloadAllowance, covered,
        Bool.false_eq_true, iff_false]
      omega
  | submitReview submission =>
      have hsize := submissionSize_of_fresh (hfresh submission rfl)
      simp only [kindSize, payloadAllowance, covered, decide_eq_true_eq]
      omega
  | recordFixerResponse findingId response
  | requestWaiver findingId response =>
      have hsize := fixerSize_le response
      simp only [kindSize, payloadAllowance, covered, iff_true]
      omega
  | _ =>
      simp only [kindSize, payloadAllowance, covered, iff_true]
      omega

end Conditions

end Peritus.Review.Estimates
