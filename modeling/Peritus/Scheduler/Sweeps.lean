import Peritus.Scheduler.Handlers

/-!
The handlers that touch many rows, as runs of edits: losing a worker with all
it runs, cancelling a tree of work, and a dispatch with the bypasses it counts.
-/

namespace Peritus.Scheduler.Sweeps

open Relation
open Peritus.Types Checked SortedTable Limits State Selection Mutation Reducer
open Invariant Edits Handlers

variable {sha256 : List UInt8 → Sha256Digest} {kind : SchedulerCommandKind}
variable {state next : SchedulerState} {event : SchedulerEventKind}
variable {record updated : WorkRecord} {worker : WorkerRecord}
variable {reservation : SchedulerReservation}

/-! ### Losing a worker -/

variable (sha256 kind) in
theorem edit_of_releaseOne (hsound : Sound state) {id : DispatchId}
    {failure : Sha256Digest} {outcome : LossOutcome}
    (h : releaseOne state id failure = .ok (next, outcome)) :
    Edit sha256 kind state next ∧ next.workers = state.workers ∧
      ∀ other ∈ next.reservations,
        other ∈ state.reservations ∧ other.dispatchId ≠ id := by
  unfold releaseOne at h
  split at h
  · cases h
  · rename_i reservation hfound
    obtain ⟨hreservation, rfl⟩ := mem_of_reservation hfound
    split at h
    · cases h
    · rename_i record hitem
      obtain ⟨hrecord, hid⟩ := mem_of_workItem hitem
      have hactive := hsound.owned.active hreservation hrecord hid
      have hkept : ∀ update : WorkUpdate, ∀ released,
          releaseWithUpdate state reservation.dispatchId reservation.workId
            update = some (released, next) →
          next.workers = state.workers ∧ ∀ other ∈ next.reservations,
            other ∈ state.reservations ∧
              other.dispatchId ≠ reservation.dispatchId := by
        intro update released hreleased
        rw [releaseWithUpdate_eq hsound hreservation hrecord hid] at hreleased
        cases hreleased
        exact ⟨rfl, fun other hother => mem_others.mp hother⟩
      have hheld : record.phase ≠ .cancelling →
          record.phase = .reserved ∨ record.phase = .running := by
        intro hne
        rcases isActive_iff.mp hactive with hphase | hphase | hphase
        · exact .inl hphase
        · exact .inr hphase
        · exact absurd hphase hne
      unfold classify at h
      by_cases hcancelling : record.phase = .cancelling
      · simp only [if_pos hcancelling] at h
        split at h <;> cases h
        rename_i hreleased
        exact ⟨edits_of_release hsound hreservation hrecord hid hreleased
          (.settle _ fun _ => rfl), hkept _ _ hreleased⟩
      · simp only [if_neg hcancelling] at h
        have hother : ∀ {terminal : WorkTerminal},
            record.phase = .cancelling → terminal = .cancelled :=
          fun hphase => absurd hphase hcancelling
        cases hrecovery : record.spec.recovery with
        | retrySafe =>
            simp only [hrecovery] at h
            by_cases hattempts :
                record.attemptsStarted < record.spec.maximumAttempts.get
            · simp only [if_pos hattempts] at h
              split at h <;> cases h
              rename_i hreleased
              exact ⟨edits_of_release hsound hreservation hrecord hid hreleased
                (.requeue (hheld hcancelling) hattempts), hkept _ _ hreleased⟩
            · simp only [if_neg hattempts] at h
              split at h <;> cases h
              rename_i hreleased
              exact ⟨edits_of_release hsound hreservation hrecord hid hreleased
                (.settle _ hother), hkept _ _ hreleased⟩
        | ambiguous =>
            simp only [hrecovery] at h
            split at h <;> cases h
            rename_i hreleased
            exact ⟨edits_of_release hsound hreservation hrecord hid hreleased
              (.settle _ hother), hkept _ _ hreleased⟩
        | fail =>
            simp only [hrecovery] at h
            split at h <;> cases h
            rename_i hreleased
            exact ⟨edits_of_release hsound hreservation hrecord hid hreleased
              (.settle _ hother), hkept _ _ hreleased⟩

variable (sha256 kind) in
/-- After a plan none of its dispatches is left. -/
theorem edits_of_releasePlan {plan : List (DispatchId × Sha256Digest)}
    {outcomes : List LossOutcome} (hsound : Sound state)
    (h : releasePlan state plan = .ok (next, outcomes)) :
    EditRun sha256 kind state next ∧ next.workers = state.workers ∧
      ∀ other ∈ next.reservations, other ∈ state.reservations ∧
        other.dispatchId ∉ plan.map Prod.fst := by
  induction plan generalizing state outcomes with
  | nil =>
      cases h
      exact ⟨.refl, rfl, fun other hother => ⟨hother, List.not_mem_nil⟩⟩
  | cons step rest ih =>
      obtain ⟨id, failure⟩ := step
      obtain ⟨⟨middle, outcome⟩, hone, hrest⟩ := bind_eq_ok_iff.mp h
      obtain ⟨⟨final, others⟩, hfinal, hpair⟩ := bind_eq_ok_iff.mp hrest
      cases hpair
      obtain ⟨hedit, hworkers, hkept⟩ :=
        edit_of_releaseOne sha256 kind hsound hone
      obtain ⟨hedits, hworkers', hkept'⟩ :=
        ih (sound_of_edit hsound hedit) hfinal
      refine ⟨.head hedit hedits, hworkers'.trans hworkers, ?_⟩
      intro other hother
      obtain ⟨hmiddle, hnot⟩ := hkept' other hother
      obtain ⟨hstate, hne⟩ := hkept other hmiddle
      refine ⟨hstate, ?_⟩
      rw [List.map_cons, List.mem_cons, not_or]
      exact ⟨hne, hnot⟩

theorem edits_of_applyWorkerLoss (hsound : Sound state) {id : WorkerId}
    {plan : List (DispatchId × Sha256Digest)}
    (hplan : plan.map Prod.fst = dispatchesForWorker state.reservations id)
    (h : applyWorkerLoss state id plan = .ok (next, event)) :
    EditRun sha256 kind state next := by
  unfold applyWorkerLoss at h
  split at h
  · cases h
  · rename_i worker hfound
    obtain ⟨hworker, rfl⟩ := mem_of_worker hfound
    split at h
    · cases h
    · obtain ⟨⟨released, outcomes⟩, hreleased, hlost⟩ := bind_eq_ok_iff.mp h
      obtain ⟨hedits, hworkers, hkept⟩ :=
        edits_of_releasePlan sha256 kind hsound hreleased
      have hsound' := sound_of_edits hsound hedits
      have hworker' : worker ∈ released.workers := hworkers ▸ hworker
      simp only [setWorkerPhase_eq hsound' hworker'] at hlost
      cases hlost
      refine hedits.tail (.worker .lost hworker' fun _ other hother heq => ?_)
      obtain ⟨hstate, hnot⟩ := hkept other hother
      rw [hplan] at hnot
      exact hnot (List.mem_map.mpr ⟨other,
        List.mem_filter.mpr ⟨hstate, decide_eq_true heq⟩, rfl⟩)

theorem edits_of_loseWorker (hsound : Sound state) {id : WorkerId}
    (h : loseWorker sha256 state id = .ok (next, event)) :
    EditRun sha256 kind state next := by
  unfold loseWorker at h
  dsimp only at h
  split at h <;> cases h
  rename_i happlied
  refine edits_of_applyWorkerLoss hsound ?_ happlied
  rw [List.map_map]
  exact List.map_id _

/-! ### Cancelling -/

/-- The other rows of a table survive the replacement of one. -/
theorem mem_of_replaced (hsound : Sound state) (hrecord : record ∈ state.work)
    (hid : updated.id = record.id) {other : WorkRecord}
    (hother : other ∈ state.work) (hne : other.id ≠ record.id) :
    other ∈ replaceRow WorkRecord.id updated state.work :=
  (mem_replaceRow hsound.work.sorted hrecord hid).mpr (.inr ⟨hother, hne⟩)

theorem edit_of_updateOne (hsound : Sound state) (hrecord : record ∈ state.work)
    (hopen : record.phase ≠ .terminal) :
    ∃ updated, Rewrite state.binding state.work record updated ∧
      updateOne state record.id =
        some { state with
          work := replaceRow WorkRecord.id updated state.work } := by
  unfold updateOne
  split
  · rename_i howned
    obtain ⟨reservation, hreservation, hid⟩ := List.any_eq_true.mp howned
    have hactive := hsound.owned.active hreservation hrecord
      (of_decide_eq_true hid).symm
    exact ⟨_, .cancelling hactive, updateWork_eq hsound hrecord _⟩
  · rename_i hunowned
    have hinactive : record.phase.isActive = false := by
      rw [Bool.eq_false_iff]
      intro hactive
      obtain ⟨reservation, hreservation, hid⟩ :=
        hsound.owned.owner hrecord hactive
      exact hunowned
        (List.any_eq_true.mpr ⟨reservation, hreservation, decide_eq_true hid⟩)
    exact ⟨_, .settle _ (waiting_of_not_active hinactive hopen) rfl,
      updateWork_eq hsound hrecord _⟩

theorem edits_of_applyUpdates {ids : List WorkId} (hsound : Sound state)
    (hnodup : ids.Nodup)
    (hopen : ∀ id ∈ ids, ∃ record ∈ state.work, record.id = id ∧
      record.phase ≠ .terminal) :
    EditRun sha256 kind state (applyUpdates state ids) := by
  induction ids generalizing state with
  | nil => exact .refl
  | cons id rest ih =>
      obtain ⟨hfirst, hrest⟩ := List.nodup_cons.mp hnodup
      obtain ⟨record, hrecord, rfl, hphase⟩ := hopen id List.mem_cons_self
      obtain ⟨updated, hrewrite, hnext⟩ :=
        edit_of_updateOne hsound hrecord hphase
      have hedit : Edit sha256 kind state
          { state with
            work := replaceRow WorkRecord.id updated state.work } :=
        .rewrite hrecord hrewrite
      rw [applyUpdates, hnext]
      refine .head hedit (ih (sound_of_edit hsound hedit) hrest ?_)
      intro other hother
      obtain ⟨found, hfound, hid, hne⟩ :=
        hopen other (List.mem_cons_of_mem _ hother)
      refine ⟨found, mem_of_replaced hsound hrecord
        (holds_of_rewrite hrewrite).1 hfound fun heq => hfirst ?_, hid, hne⟩
      rwa [← heq, hid]

theorem affected_spec (hsorted : Sorted WorkRecord.id state.work)
    {root : WorkId} {descendants : Bool} :
    (affected state.work root descendants).Nodup ∧
      ∀ id ∈ affected state.work root descendants, ∃ record ∈ state.work,
        record.id = id ∧ record.phase ≠ .terminal := by
  unfold affected
  constructor
  · exact (hsorted.sublist List.filter_sublist).nodup_map
  · intro id hid
    obtain ⟨record, hrecord, rfl⟩ := List.mem_map.mp hid
    obtain ⟨hmem, hkeep⟩ := List.mem_filter.mp hrecord
    exact ⟨record, hmem, rfl,
      of_decide_eq_true (Bool.and_eq_true_iff.mp hkeep).1⟩

theorem edits_of_cancel (hsound : Sound state) {root : WorkId}
    {descendants : Bool} (h : cancel state root descendants = .ok (next, event)) :
    EditRun sha256 kind state next := by
  unfold cancel at h
  split at h
  · cases h
  · split at h <;> cases h
    obtain ⟨hnodup, hopen⟩ := affected_spec hsound.work.sorted
    exact edits_of_applyUpdates hsound hnodup hopen

/-! ### Dispatching -/

theorem reserveSelectedAt_eq (hsound : Sound state) {workIndex workerIndex : Nat}
    {begun : WorkRecord} {attempt : AttemptNumber} {dispatchId : DispatchId}
    {dispatchToken : Sha256Digest}
    (hwork : state.work[workIndex]? = some record)
    (hworker : state.workers[workerIndex]? = some worker)
    (hbegin : record.tryBeginAttempt = some (attempt, begun))
    {reserved : SchedulerState} {taken : SchedulerReservation}
    (h : reserveSelectedAt state workIndex workerIndex dispatchId
      dispatchToken = some (taken, reserved)) :
    taken = selectedBy record worker attempt dispatchId dispatchToken ∧
      reserved = reservedBy state begun
        (selectedBy record worker attempt dispatchId dispatchToken) := by
  have hbegun : begun.id = record.id := by
    obtain ⟨_, _, rfl⟩ := tryBeginAttempt_eq_some hbegin
    rfl
  unfold reserveSelectedAt selectedReservation beginWorkAttemptAt at h
  simp only [hwork, hworker, hbegin, Option.bind_eq_bind, Option.bind_some] at h
  split at h
  · cases h
  · unfold incrementDispatchOrdinal at h
    split at h
    · simp only [Option.bind_some] at h
      cases h
      rw [reservedBy, set_eq_replaceRow hsound.work.sorted hwork hbegun]
      exact ⟨rfl, rfl⟩
    · cases h

theorem incrementedBypass_le {id : WorkId} {limit : Nat} :
    incrementedBypass state id limit ≤ limit := by
  unfold incrementedBypass
  split
  · exact Nat.le_refl _
  · exact Nat.min_le_right _ _

variable (sha256 kind) in
theorem edits_of_updateBypasses {ids : List WorkId} (selected : WorkId)
    (hsound : Sound state)
    (hopen : ∀ id ∈ ids, ∃ record ∈ state.work, record.id = id ∧
      record.phase ≠ .terminal) :
    EditRun sha256 kind state
      (updateBypasses selected state.binding.limits.bypassCount state ids) := by
  induction ids generalizing state with
  | nil => exact .refl
  | cons id rest ih =>
      obtain ⟨record, hrecord, rfl, hphase⟩ := hopen id List.mem_cons_self
      obtain ⟨value, hvalue, hbound⟩ : ∃ value,
          (if record.id = selected then 0
            else incrementedBypass state record.id
              state.binding.limits.bypassCount) = value ∧
          value ≤ state.binding.limits.bypassCount := by
        refine ⟨_, rfl, ?_⟩
        split
        · exact Nat.zero_le _
        · exact incrementedBypass_le
      have hedit : Edit sha256 kind state
          { state with
            work := replaceRow WorkRecord.id (record.setBypasses value)
              state.work } :=
        .rewrite hrecord (.bypass value hphase hbound)
      unfold updateBypasses
      dsimp only
      rw [hvalue, setWorkBypasses_eq hsound hrecord, Option.getD_some]
      refine .head hedit (ih (sound_of_edit hsound hedit) ?_)
      intro other hother
      obtain ⟨found, hfound, hid, hne⟩ :=
        hopen other (List.mem_cons_of_mem _ hother)
      have hkeeps : (record.setBypasses value).id = record.id := rfl
      by_cases hsame : found.id = record.id
      · refine ⟨record.setBypasses value,
          (mem_replaceRow hsound.work.sorted hrecord hkeeps).mpr (.inl rfl),
          ?_, hphase⟩
        rw [hkeeps, ← hsame, hid]
      · exact ⟨found, mem_of_replaced hsound hrecord hkeeps hfound hsame, hid,
          hne⟩

variable (sha256) in
theorem edits_of_dispatch (hsound : Sound state) {dispatchId : DispatchId}
    {dispatchToken : Sha256Digest}
    (h : dispatch state dispatchId dispatchToken = .ok (next, event)) :
    EditRun sha256 (.dispatchNext dispatchId dispatchToken) state next ∧
      dispatchId ∉ state.usedDispatches ∧ dispatchId ∈ next.usedDispatches := by
  unfold dispatch at h
  obtain ⟨_, h⟩ := ensure_bind_eq_ok_iff.mp h
  obtain ⟨⟨final, reservation⟩, hreserve, hpair⟩ := bind_eq_ok_iff.mp h
  cases hpair
  unfold reserveNext at hreserve
  simp only [ensure_bind_eq_ok_iff, decide_eq_true_eq] at hreserve
  obtain ⟨hroom, hfresh, hhistory, hselected⟩ := hreserve
  split at hselected
  · cases hselected
  · rename_i workIndex workerIndex hpair
    obtain ⟨record, worker, hwork, hworker, hfeasible⟩ :=
      feasible_of_selectNextForDispatch hpair
    simp only [hwork, ensure_bind_eq_ok_iff, decide_eq_true_eq] at hselected
    obtain ⟨hsmall, hattempts, _, hreserved⟩ := hselected
    have hbegin : ∃ attempt begun,
        record.tryBeginAttempt = some (attempt, begun) := by
      unfold WorkRecord.tryBeginAttempt
      rw [if_neg hsmall, dif_pos hattempts]
      exact ⟨_, _, rfl⟩
    obtain ⟨attempt, begun, hbegin⟩ := hbegin
    split at hreserved
    · cases hreserved
    · rename_i taken reserved hpair
      cases hreserved
      obtain ⟨rfl, rfl⟩ :=
        reserveSelectedAt_eq hsound hwork hworker hbegin hpair
      have hrecord := List.mem_of_getElem? hwork
      have hedit : Edit sha256 (.dispatchNext dispatchId dispatchToken) state
          (reservedBy state begun
            (selectedBy record worker attempt dispatchId dispatchToken)) :=
        .reserve rfl hroom hfresh hhistory hrecord
          (List.mem_of_getElem? hworker) hfeasible hbegin
      obtain ⟨_, _, hbegun⟩ := tryBeginAttempt_eq_some hbegin
      have hkeeps : begun.id = record.id := by
        rw [hbegun]
        rfl
      have hids : ∀ id ∈ (state.work.filter fun record =>
          decide (record.phase = .queued) &&
            isFeasible state record.spec.id).map WorkRecord.id,
          ∃ found ∈ (reservedBy state begun (selectedBy record worker attempt
            dispatchId dispatchToken)).work, found.id = id ∧
            found.phase ≠ .terminal := by
        intro id hid
        obtain ⟨found, hfound, rfl⟩ := List.mem_map.mp hid
        obtain ⟨hmem, hkeep⟩ := List.mem_filter.mp hfound
        have hqueued := of_decide_eq_true (Bool.and_eq_true_iff.mp hkeep).1
        by_cases hsame : found.id = record.id
        · refine ⟨begun, (mem_replaceRow hsound.work.sorted hrecord hkeeps).mpr
            (.inl rfl), hkeeps.trans hsame.symm, ?_⟩
          rw [hbegun]
          exact fun h => by cases h
        · refine ⟨found, mem_of_replaced hsound hrecord hkeeps hmem hsame, rfl,
            ?_⟩
          rw [hqueued]
          exact fun h => by cases h
      have hrest := edits_of_updateBypasses sha256
        (.dispatchNext dispatchId dispatchToken) record.spec.id
        (sound_of_edit hsound hedit) hids
      exact ⟨.head hedit hrest, hfresh,
        used_of_edits hrest _ (mem_insertAt.mpr (.inl rfl))⟩

end Peritus.Scheduler.Sweeps
