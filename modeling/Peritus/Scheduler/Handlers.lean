import Peritus.Scheduler.Edits

/-!
The handlers of the reducer as runs of edits: first what each mutation of the
state computes on sound tables, then the handlers one by one.
-/

namespace Peritus.Scheduler.Handlers

open Relation
open Peritus.Types Checked SortedTable Limits State Mutation Reducer
open Invariant Edits

variable {sha256 : List UInt8 → Sha256Digest} {kind : SchedulerCommandKind}
variable {state next : SchedulerState} {event : SchedulerEventKind}
variable {record : WorkRecord} {worker : WorkerRecord}
variable {reservation : SchedulerReservation}

/-! ### Mutations on sound tables -/

theorem updateWork_eq (hsound : Sound state) (hrecord : record ∈ state.work)
    (update : WorkUpdate) :
    updateWork state record.id update =
      some { state with
        work := replaceRow WorkRecord.id (update.apply record) state.work } := by
  unfold updateWork
  rw [updateFirst_eq_replaceRow hsound.work.sorted hrecord rfl
    (update.apply_id record)]
  rfl

theorem setWorkBypasses_eq (hsound : Sound state)
    (hrecord : record ∈ state.work) (value : Nat) :
    setWorkBypasses state record.id value =
      some { state with
        work := replaceRow WorkRecord.id (record.setBypasses value)
          state.work } := by
  unfold setWorkBypasses
  rw [updateFirst_eq_replaceRow (f := fun record => record.setBypasses value)
    hsound.work.sorted hrecord rfl rfl]
  rfl

theorem setWorkerPhase_eq (hsound : Sound state)
    (hworker : worker ∈ state.workers) (phase : WorkerPhase) :
    setWorkerPhase state worker.id phase =
      some { state with
        workers := replaceRow WorkerRecord.id { worker with phase }
          state.workers } := by
  obtain ⟨index, hindex, hget⟩ :=
    lookupIndex_of_mem hsound.served.sorted hworker rfl
  unfold setWorkerPhase SchedulerState.workerIndex
  rw [hindex]
  dsimp only
  rw [modify_eq_replaceRow (f := fun worker => { worker with phase })
    hsound.served.sorted hget rfl]

theorem releaseWithUpdate_eq (hsound : Sound state)
    (hreservation : reservation ∈ state.reservations)
    (hrecord : record ∈ state.work) (hid : record.id = reservation.workId)
    (update : WorkUpdate) :
    releaseWithUpdate state reservation.dispatchId reservation.workId update =
      some (reservation,
        { state with
          reservations := others SchedulerReservation.dispatchId reservation
            state.reservations
          work := replaceRow WorkRecord.id (update.apply record)
            state.work }) := by
  unfold releaseWithUpdate removeReservation updateWork
  rw [removeFirst_sorted hsound.ledger.reservations hreservation rfl, ← hid]
  simp only [Option.map_some, Option.bind_eq_bind, Option.bind_some]
  rw [updateFirst_eq_replaceRow hsound.work.sorted hrecord rfl
    (update.apply_id record)]
  rfl

theorem markReservationStarted_eq (hsound : Sound state)
    (hreservation : reservation ∈ state.reservations) :
    markReservationStarted state reservation.dispatchId =
      some { state with
        reservations := replaceRow SchedulerReservation.dispatchId
          { reservation with started := true } state.reservations } := by
  unfold markReservationStarted
  rw [updateFirst_eq_replaceRow
    (f := fun reservation => { reservation with started := true })
    hsound.ledger.reservations hreservation rfl rfl]
  rfl

/-! ### Finding the rows a command names -/

theorem mem_of_reservation {id : DispatchId}
    (h : state.reservation id = some reservation) :
    reservation ∈ state.reservations ∧ reservation.dispatchId = id :=
  mem_of_lookup h

theorem mem_of_workItem {id : WorkId} (h : state.workItem id = some record) :
    record ∈ state.work ∧ record.id = id :=
  mem_of_lookup h

theorem mem_of_worker {id : WorkerId} (h : state.worker id = some worker) :
    worker ∈ state.workers ∧ worker.id = id :=
  mem_of_lookup h

/-- The record that a live reservation names is retained. -/
theorem exists_held (hsound : Sound state)
    (hreservation : reservation ∈ state.reservations) :
    ∃ record ∈ state.work, record.id = reservation.workId := by
  obtain ⟨record, hrecord, hholds⟩ := hsound.owned.held reservation hreservation
  exact ⟨record, hrecord, hholds.id⟩

/-! ### Handlers of one edit -/

theorem edits_of_register (hsound : Sound state)
    {descriptor : WorkerDescriptor}
    (h : register state descriptor = .ok (next, event)) :
    EditRun sha256 (.registerWorker descriptor) state next := by
  unfold register at h
  simp only [check_bind_eq_ok_iff, ensure_eq_ok_iff, decide_eq_true_eq] at h
  obtain ⟨_, _, hroom, hfresh, hfits, hnext⟩ := h
  cases hnext
  have hnone := (lookup_eq_none_iff hsound.served.sorted).mp
    (Option.isNone_iff_eq_none.mp hfresh)
  exact .single (.register rfl hroom hnone hfits)

theorem workerPhase_eq_ok {id : WorkerId} {phase : WorkerPhase}
    (h : workerPhase state id = .ok phase) :
    ∃ worker ∈ state.workers, worker.id = id ∧ worker.phase = phase := by
  unfold workerPhase at h
  split at h
  · cases h
  · rename_i worker hfound
    cases h
    obtain ⟨hworker, hid⟩ := mem_of_worker hfound
    exact ⟨worker, hworker, hid, rfl⟩

theorem edits_of_phaseWorker (hsound : Sound state) {phase : WorkerPhase}
    {detail : String} {emitted : SchedulerEventKind}
    (hworker : worker ∈ state.workers)
    (hidle : phase = .lost ∨ phase = .removed →
      ∀ reservation ∈ state.reservations, reservation.workerId ≠ worker.id)
    (h : phaseWorker state worker.id phase detail emitted =
      .ok (next, event)) : EditRun sha256 kind state next := by
  unfold phaseWorker at h
  rw [setWorkerPhase_eq hsound hworker] at h
  cases h
  exact .single (.worker phase hworker hidle)

theorem not_owns_iff {id : WorkerId} : ownsReservation state id = false ↔
    ∀ reservation ∈ state.reservations, reservation.workerId ≠ id := by
  simp only [ownsReservation, List.any_eq_false, decide_eq_true_eq]

theorem edits_of_available (hsound : Sound state) {id : WorkerId}
    (h : available state id = .ok (next, event)) :
    EditRun sha256 kind state next := by
  unfold available at h
  obtain ⟨phase, hphase, hchecked⟩ := bind_eq_ok_iff.mp h
  simp only [ensure_bind_eq_ok_iff] at hchecked
  obtain ⟨_, _, hnext⟩ := hchecked
  obtain ⟨worker, hworker, rfl, _⟩ := workerPhase_eq_ok hphase
  exact edits_of_phaseWorker hsound hworker (by simp) hnext

theorem edits_of_drain (hsound : Sound state) {id : WorkerId}
    (h : drain state id = .ok (next, event)) :
    EditRun sha256 kind state next := by
  unfold drain at h
  obtain ⟨phase, hphase, hchecked⟩ := bind_eq_ok_iff.mp h
  obtain ⟨_, hnext⟩ := ensure_bind_eq_ok_iff.mp hchecked
  obtain ⟨worker, hworker, rfl, _⟩ := workerPhase_eq_ok hphase
  exact edits_of_phaseWorker hsound hworker (by simp) hnext

theorem edits_of_remove (hsound : Sound state) {id : WorkerId}
    (h : remove state id = .ok (next, event)) :
    EditRun sha256 kind state next := by
  unfold remove at h
  obtain ⟨phase, hphase, hchecked⟩ := bind_eq_ok_iff.mp h
  simp only [ensure_bind_eq_ok_iff, Bool.and_eq_true, Bool.not_eq_true']
    at hchecked
  obtain ⟨⟨_, hidle⟩, hnext⟩ := hchecked
  obtain ⟨worker, hworker, rfl, _⟩ := workerPhase_eq_ok hphase
  exact edits_of_phaseWorker hsound hworker
    (fun _ => not_owns_iff.mp hidle) hnext

theorem edits_of_admitWork (hopen : state.phase ≠ .terminal)
    {spec : WorkSpec} (h : admitWork state spec = .ok (next, event)) :
    EditRun sha256 (.admitWork spec) state next := by
  unfold admitWork at h
  rw [check_bind_eq_ok_iff] at h
  obtain ⟨hchecked, hnext⟩ := h
  unfold nextEnqueueOrdinal at hnext
  split at hnext
  · cases hnext
  · rename_i ordinal ordered hordinal
    split at hordinal
    · cases hordinal
      cases hnext
      exact .single (.admitted rfl hopen hchecked)
    · cases hordinal

/-- The record that the dispatch holds runs, whatever its phase was. -/
theorem acknowledgeStart_eq_ok (hsound : Sound state) {id : DispatchId}
    (h : acknowledgeStart state id = .ok (next, event)) :
    ∃ reservation record, state.reservation id = some reservation ∧
      state.workItem reservation.workId = some record ∧
      next =
        { state with
          reservations := replaceRow SchedulerReservation.dispatchId
            { reservation with started := true } state.reservations
          work := replaceRow WorkRecord.id (record.setPhase .running)
            state.work } := by
  unfold acknowledgeStart at h
  split at h <;> cases h
  rename_i happlied
  unfold applyAcknowledgeStartCommand at happlied
  split at happlied
  · cases happlied
  · rename_i reservation hfound
    obtain ⟨hreservation, rfl⟩ := mem_of_reservation hfound
    obtain ⟨record, hrecord, hid⟩ := exists_held hsound hreservation
    split at happlied
    · cases happlied
    · rw [markReservationStarted_eq hsound hreservation] at happlied
      dsimp only at happlied
      have hupdate : updateWork
          { state with
            reservations := replaceRow SchedulerReservation.dispatchId
              { reservation with started := true } state.reservations }
          reservation.workId (.phase .running) =
          some { state with
            reservations := replaceRow SchedulerReservation.dispatchId
              { reservation with started := true } state.reservations
            work := replaceRow WorkRecord.id (record.setPhase .running)
              state.work } := by
        have hplain := updateWork_eq hsound hrecord (.phase .running)
        unfold updateWork at hplain ⊢
        rw [hid] at hplain
        obtain ⟨work, hwork, hsome⟩ := Option.map_eq_some_iff.mp hplain
        dsimp only
        rw [hwork, Option.map_some]
        cases hsome
        rfl
      rw [hupdate] at happlied
      cases happlied
      exact ⟨reservation, record, hfound,
        lookup_of_mem hsound.work.sorted hrecord hid, rfl⟩

theorem edits_of_acknowledgeStart (hsound : Sound state) {id : DispatchId}
    (h : acknowledgeStart state id = .ok (next, event)) :
    EditRun sha256 (.acknowledgeStart id) state next := by
  obtain ⟨reservation, record, hfound, hitem, rfl⟩ :=
    acknowledgeStart_eq_ok hsound h
  obtain ⟨hreservation, rfl⟩ := mem_of_reservation hfound
  obtain ⟨hrecord, hid⟩ := mem_of_workItem hitem
  exact .single (.start rfl hreservation hrecord hid)

/-- A release of a held record is one edit. -/
theorem edits_of_release (hsound : Sound state)
    (hreservation : reservation ∈ state.reservations)
    (hrecord : record ∈ state.work) (hid : record.id = reservation.workId)
    {update : WorkUpdate} {released : SchedulerReservation}
    (h : releaseWithUpdate state reservation.dispatchId reservation.workId
      update = some (released, next))
    (hrelease : Release record (update.apply record)) :
    Edit sha256 kind state next := by
  rw [releaseWithUpdate_eq hsound hreservation hrecord hid] at h
  cases h
  exact .release hreservation hrecord hid hrelease

theorem edits_of_complete (hsound : Sound state) {id : DispatchId}
    {result : Sha256Digest} (h : complete state id result = .ok (next, event)) :
    EditRun sha256 kind state next := by
  unfold complete at h
  split at h <;> cases h
  rename_i happlied
  unfold applyCompleteCommand at happlied
  split at happlied
  · cases happlied
  · rename_i reservation hfound
    obtain ⟨hreservation, rfl⟩ := mem_of_reservation hfound
    split at happlied
    · cases happlied
    · rename_i record hitem
      obtain ⟨hrecord, hid⟩ := mem_of_workItem hitem
      split at happlied
      · cases happlied
      · rename_i hrunning
        push Not at hrunning
        split at happlied <;> cases happlied
        rename_i hreleased
        refine .single (edits_of_release hsound hreservation hrecord hid
          hreleased (.settle _ fun hcancelling => ?_))
        rw [hrunning.2] at hcancelling
        cases hcancelling

theorem edits_of_fail (hsound : Sound state) {id : DispatchId}
    {failure : Sha256Digest} {disposition : FailureDisposition}
    (h : fail state id failure disposition = .ok (next, event)) :
    EditRun sha256 kind state next := by
  unfold fail at h
  split at h <;> cases h
  rename_i happlied
  unfold applyFailCommand at happlied
  split at happlied
  · cases happlied
  · rename_i reservation hfound
    obtain ⟨hreservation, rfl⟩ := mem_of_reservation hfound
    split at happlied
    · cases happlied
    · rename_i record hitem
      obtain ⟨hrecord, hid⟩ := mem_of_workItem hitem
      split at happlied
      · cases happlied
      · rename_i hphases
        have hheld : record.phase = .reserved ∨ record.phase = .running := by
          by_contra hnone
          exact hphases (not_or.mp hnone)
        have hcancelled : ∀ {outcome : WorkTerminal},
            record.phase = .cancelling → outcome = .cancelled := by
          intro outcome hcancelling
          rcases hheld with hphase | hphase <;> rw [hphase] at hcancelling <;>
            cases hcancelling
        dsimp only at happlied
        split at happlied <;> cases happlied
        rename_i hreleased
        cases disposition with
        | retryable =>
            dsimp only at hreleased
            split at hreleased
            · rename_i hattempts
              exact .single (edits_of_release hsound hreservation hrecord hid
                hreleased (.retry failure hheld hattempts))
            · exact .single (edits_of_release hsound hreservation hrecord hid
                hreleased (.settle _ hcancelled))
        | failed =>
            exact .single (edits_of_release hsound hreservation hrecord hid
              hreleased (.settle _ hcancelled))
        | ambiguous =>
            exact .single (edits_of_release hsound hreservation hrecord hid
              hreleased (.settle _ hcancelled))

theorem edits_of_acknowledgeCancel (hsound : Sound state) {id : DispatchId}
    (h : acknowledgeCancel state id = .ok (next, event)) :
    EditRun sha256 kind state next := by
  unfold acknowledgeCancel at h
  split at h <;> cases h
  rename_i happlied
  unfold applyAcknowledgeCancellationCommand at happlied
  split at happlied
  · cases happlied
  · rename_i reservation hfound
    obtain ⟨hreservation, rfl⟩ := mem_of_reservation hfound
    split at happlied
    · cases happlied
    · rename_i record hitem
      obtain ⟨hrecord, hid⟩ := mem_of_workItem hitem
      split at happlied
      · cases happlied
      · split at happlied <;> cases happlied
        rename_i hreleased
        exact .single (edits_of_release hsound hreservation hrecord hid
          hreleased (.settle _ fun _ => rfl))

theorem edits_of_abandon (hsound : Sound state) {id : DispatchId}
    {cause : Sha256Digest} (h : abandon state id cause = .ok (next, event)) :
    EditRun sha256 kind state next := by
  unfold abandon at h
  split at h <;> cases h
  rename_i happlied
  unfold applyAbandonCommand at happlied
  split at happlied
  · cases happlied
  · rename_i reservation hfound
    obtain ⟨hreservation, rfl⟩ := mem_of_reservation hfound
    split at happlied
    · cases happlied
    · rename_i record hitem
      obtain ⟨hrecord, hid⟩ := mem_of_workItem hitem
      split at happlied <;> cases happlied
      rename_i hreleased
      exact .single (edits_of_release hsound hreservation hrecord hid
        hreleased (.settle _ fun hcancelling => if_pos hcancelling))

theorem edits_of_retry (hsound : Sound state) {id : WorkId}
    (h : retry state id = .ok (next, event)) :
    EditRun sha256 kind state next := by
  unfold retry at h
  split at h <;> cases h
  rename_i happlied
  unfold applyRetryCommand at happlied
  split at happlied
  · cases happlied
  · rename_i record hitem
    obtain ⟨hrecord, rfl⟩ := mem_of_workItem hitem
    split at happlied
    · cases happlied
    · rename_i hphase
      split at happlied
      · cases happlied
      · rename_i hattempts
        rw [queueWorkRetry, updateWork_eq hsound hrecord] at happlied
        cases happlied
        exact .single (.rewrite hrecord
          (.retry (not_not.mp hphase) (Nat.not_le.mp hattempts)))

theorem waiting_of_not_active {phase : WorkPhase}
    (hinactive : phase.isActive = false) (hterminal : phase ≠ .terminal) :
    phase = .waitingDependencies ∨ phase = .queued ∨ phase = .retryPending := by
  cases phase <;> simp_all [WorkPhase.isActive]

theorem edits_of_exhaust (hsound : Sound state) {id : WorkId}
    {cause : Sha256Digest} (h : exhaust state id cause = .ok (next, event)) :
    EditRun sha256 kind state next := by
  unfold exhaust at h
  split at h <;> cases h
  rename_i happlied
  unfold applyExhaustCommand at happlied
  split at happlied
  · cases happlied
  · rename_i record hitem
    obtain ⟨hrecord, rfl⟩ := mem_of_workItem hitem
    split at happlied
    · cases happlied
    · rename_i hphases
      push Not at hphases
      obtain ⟨hreserved, hrunning, hcancelling, hterminal⟩ := hphases
      have hinactive : record.phase.isActive = false := by
        rw [Bool.eq_false_iff]
        intro hactive
        rcases isActive_iff.mp hactive with hphase | hphase | hphase
        · exact hreserved hphase
        · exact hrunning hphase
        · exact hcancelling hphase
      rw [terminalizeWork, updateWork_eq hsound hrecord] at happlied
      cases happlied
      exact .single (.rewrite hrecord
        (.settle _ (waiting_of_not_active hinactive hterminal) rfl))

end Peritus.Scheduler.Handlers
