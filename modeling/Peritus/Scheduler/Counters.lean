import Peritus.Scheduler.Ownership

/-!
The bypass counters of the work table.  Every command but a dispatch leaves them
alone, and so does the refresh that follows.
-/

namespace Peritus.Scheduler.Counters

open Peritus.Types Checked SortedTable Limits State Mutation Reducer

section Counters

variable {sha256 : List UInt8 → Sha256Digest} {kind : SchedulerCommandKind}
variable {state next : SchedulerState} {emitted : SchedulerEventKind}

/-- The place of a record and how often it was passed over. -/
def counter (record : WorkRecord) : WorkId × Nat × Nat :=
  (record.id, record.enqueueOrdinal, record.bypasses)

def counters (state : SchedulerState) : List (WorkId × Nat × Nat) :=
  state.work.map counter

theorem counters_of_work (hwork : next.work = state.work) :
    counters next = counters state := by
  unfold counters
  rw [hwork]

theorem counters_updateFirst {p : WorkRecord → Bool}
    {f : WorkRecord → WorkRecord} {work updated : List WorkRecord}
    (hf : ∀ record, counter (f record) = counter record)
    (h : updateFirst p f work = some updated) :
    updated.map counter = work.map counter := by
  induction work generalizing updated with
  | nil => cases h
  | cons record rest ih =>
      unfold updateFirst at h
      split at h
      · cases h
        rw [List.map_cons, List.map_cons, hf record]
      · obtain ⟨found, hfound, rfl⟩ := Option.map_eq_some_iff.mp h
        rw [List.map_cons, List.map_cons, ih hfound]

theorem counters_updateWork {id : WorkId} {update : WorkUpdate}
    (h : updateWork state id update = some next) :
    counters next = counters state := by
  obtain ⟨work, hwork, rfl⟩ := Option.map_eq_some_iff.mp h
  exact counters_updateFirst (fun record => by cases update <;> rfl) hwork

theorem counters_getD_updateWork (id : WorkId) (update : WorkUpdate) :
    counters ((updateWork state id update).getD state) = counters state := by
  cases h : updateWork state id update with
  | none => rfl
  | some next => exact counters_updateWork h

theorem counters_releaseWithUpdate {dispatchId : DispatchId} {workId : WorkId}
    {update : WorkUpdate} {reservation : SchedulerReservation}
    (h : releaseWithUpdate state dispatchId workId update =
      some (reservation, next)) : counters next = counters state := by
  unfold releaseWithUpdate at h
  obtain ⟨⟨removed, released⟩, hremoved, h⟩ := Option.bind_eq_some_iff.mp h
  obtain ⟨updated, hupdated, h⟩ := Option.bind_eq_some_iff.mp h
  cases h
  obtain ⟨found, -, hpair⟩ := Option.map_eq_some_iff.mp hremoved
  cases hpair
  exact (counters_updateWork hupdated).trans rfl

theorem work_setWorkerPhase {id : WorkerId} {phase : WorkerPhase}
    (h : setWorkerPhase state id phase = some next) :
    next.work = state.work := by
  unfold setWorkerPhase at h
  split at h
  · cases h
    rfl
  · obtain ⟨workers, -, rfl⟩ := Option.map_eq_some_iff.mp h
    rfl

theorem work_refreshOneWorker (id : WorkerId) :
    (refreshOneWorker state id).work = state.work := by
  unfold refreshOneWorker
  split
  · rfl
  · split
    · rfl
    · rfl
    · rfl
    · cases h : setWorkerPhase state id _ with
      | none => rfl
      | some next => exact work_setWorkerPhase h

theorem counters_applyOne (change : DependencyChange) :
    counters (applyOne state change) = counters state := by
  unfold applyOne
  split
  · exact counters_getD_updateWork _ _
  · exact counters_getD_updateWork _ _
  · rfl

theorem counters_foldl_applyOne (changes : List DependencyChange)
    (state : SchedulerState) :
    counters (changes.foldl applyOne state) = counters state := by
  induction changes generalizing state with
  | nil => rfl
  | cons change rest ih =>
      exact (ih (applyOne state change)).trans (counters_applyOne change)

theorem counters_applyDependencyRound (state : SchedulerState) :
    counters (applyDependencyRound state).1 = counters state :=
  counters_foldl_applyOne (collectDependencyChanges state) state

theorem counters_propagateRounds (remaining : Nat) :
    counters (propagateRounds remaining state) = counters state := by
  induction remaining generalizing state with
  | zero => rfl
  | succ remaining ih =>
      unfold propagateRounds
      have hfirst := counters_applyDependencyRound state
      have hsecond := counters_applyDependencyRound
        (applyDependencyRound state).1
      dsimp only
      split
      · split
        · exact (ih.trans hsecond).trans hfirst
        · exact hsecond.trans hfirst
      · exact hfirst

/-- The refresh leaves the counters alone. -/
theorem counters_refresh : counters (refresh state) = counters state := by
  have hworkers : ∀ (ids : List WorkerId) (state : SchedulerState),
      (ids.foldl refreshOneWorker state).work = state.work := by
    intro ids
    induction ids with
    | nil => exact fun _ => rfl
    | cons id rest ih =>
        intro state
        exact (ih _).trans (work_refreshOneWorker id)
  unfold refresh refreshWorkerPhases
  have hwork := hworkers
    ((propagateDependencies state).workers.map WorkerRecord.id)
    (propagateDependencies state)
  exact (counters_of_work hwork).trans (counters_propagateRounds _)

/-- A handler that keeps the counters. -/
abbrev KeepsCounters (state : SchedulerState) (result : Handled) : Prop :=
  Satisfies (fun handled => counters handled.1 = counters state)
    (fun _ => True) result

theorem KeepsCounters.bind {α : Type} {x : Except SchedulerError α}
    {f : α → Handled} (hf : ∀ a, x = .ok a → KeepsCounters state (f a)) :
    KeepsCounters state (x >>= f) := by
  cases x with
  | error error => trivial
  | ok a => exact hf a rfl

theorem keeps_phaseWorker {workerId : WorkerId} {phase : WorkerPhase}
    {detail : String} :
    KeepsCounters state (phaseWorker state workerId phase detail emitted) := by
  unfold phaseWorker
  split
  · trivial
  · rename_i hset
    exact counters_of_work (work_setWorkerPhase hset)

theorem counters_releaseOne {dispatchId : DispatchId} {digest : Sha256Digest}
    {outcome : LossOutcome}
    (h : releaseOne state dispatchId digest = .ok (next, outcome)) :
    counters next = counters state := by
  unfold releaseOne at h
  split at h
  · cases h
  · split at h
    · cases h
    · dsimp only at h
      split at h
      · cases h
      · rename_i released hreleased
        cases h
        split at hreleased <;> exact counters_releaseWithUpdate hreleased

theorem counters_releasePlan {plan : List (DispatchId × Sha256Digest)}
    {outcomes : List LossOutcome}
    (h : releasePlan state plan = .ok (next, outcomes)) :
    counters next = counters state := by
  induction plan generalizing state outcomes with
  | nil =>
      cases h
      rfl
  | cons head rest ih =>
      obtain ⟨dispatchId, digest⟩ := head
      unfold releasePlan at h
      obtain ⟨⟨middle, outcome⟩, hone, h⟩ := bind_eq_ok_iff.mp h
      obtain ⟨⟨final, others⟩, hrest, h⟩ := bind_eq_ok_iff.mp h
      cases h
      exact (ih hrest).trans (counters_releaseOne hone)

theorem keeps_loseWorker (workerId : WorkerId) :
    KeepsCounters state (loseWorker sha256 state workerId) := by
  unfold loseWorker
  dsimp only
  split
  · rename_i handled hloss
    unfold applyWorkerLoss at hloss
    split at hloss
    · cases hloss
    · split at hloss
      · cases hloss
      · obtain ⟨⟨released, outcomes⟩, hplan, hloss⟩ := bind_eq_ok_iff.mp hloss
        dsimp only at hloss
        split at hloss
        · cases hloss
        · rename_i hset
          cases hloss
          exact (counters_of_work (work_setWorkerPhase hset)).trans
            (counters_releasePlan hplan)
  all_goals trivial

theorem counters_applyUpdates (ids : List WorkId) :
    counters (applyUpdates state ids) = counters state := by
  induction ids generalizing state with
  | nil => rfl
  | cons id rest ih =>
      unfold applyUpdates
      split
      · rfl
      · rename_i hone
        refine ih.trans ?_
        unfold updateOne at hone
        split at hone
        · exact counters_updateWork hone
        · exact counters_updateWork hone

theorem keeps_cancel (root : WorkId) (descendants : Bool) :
    KeepsCounters state (cancel state root descendants) := by
  unfold cancel
  split
  · trivial
  · split
    · trivial
    · exact counters_applyUpdates _

theorem keeps_acknowledgeStart (dispatchId : DispatchId) :
    KeepsCounters state (acknowledgeStart state dispatchId) := by
  unfold acknowledgeStart
  split
  · rename_i happlied
    unfold applyAcknowledgeStartCommand at happlied
    split at happlied
    · cases happlied
    · split at happlied
      · cases happlied
      · split at happlied
        · cases happlied
        · rename_i hmarked
          split at happlied
          · cases happlied
          · rename_i hrunning
            cases happlied
            obtain ⟨reservations, -, rfl⟩ := Option.map_eq_some_iff.mp hmarked
            exact (counters_updateWork hrunning).trans rfl
  all_goals trivial

theorem keeps_complete (dispatchId : DispatchId) (digest : Sha256Digest) :
    KeepsCounters state (complete state dispatchId digest) := by
  unfold complete
  split
  · rename_i happlied
    unfold applyCompleteCommand at happlied
    split at happlied
    · cases happlied
    · split at happlied
      · cases happlied
      · split at happlied
        · cases happlied
        · split at happlied
          · cases happlied
          · rename_i hreleased
            cases happlied
            exact counters_releaseWithUpdate hreleased
  all_goals trivial

theorem keeps_fail (dispatchId : DispatchId) (digest : Sha256Digest)
    (disposition : FailureDisposition) :
    KeepsCounters state (fail state dispatchId digest disposition) := by
  unfold fail
  split
  · rename_i happlied
    unfold applyFailCommand at happlied
    split at happlied
    · cases happlied
    · split at happlied
      · cases happlied
      · split at happlied
        · cases happlied
        · dsimp only at happlied
          split at happlied
          · cases happlied
          · rename_i hreleased
            cases happlied
            split at hreleased
            · split at hreleased <;>
                exact counters_releaseWithUpdate hreleased
            · exact counters_releaseWithUpdate hreleased
            · exact counters_releaseWithUpdate hreleased
  all_goals trivial

theorem keeps_acknowledgeCancel (dispatchId : DispatchId) :
    KeepsCounters state (acknowledgeCancel state dispatchId) := by
  unfold acknowledgeCancel
  split
  · rename_i happlied
    unfold applyAcknowledgeCancellationCommand at happlied
    split at happlied
    · cases happlied
    · split at happlied
      · cases happlied
      · split at happlied
        · cases happlied
        · split at happlied
          · cases happlied
          · rename_i hreleased
            cases happlied
            exact counters_releaseWithUpdate hreleased
  all_goals trivial

theorem keeps_abandon (dispatchId : DispatchId) (digest : Sha256Digest) :
    KeepsCounters state (abandon state dispatchId digest) := by
  unfold abandon
  split
  · rename_i happlied
    unfold applyAbandonCommand at happlied
    split at happlied
    · cases happlied
    · split at happlied
      · cases happlied
      · split at happlied
        · cases happlied
        · rename_i hreleased
          cases happlied
          exact counters_releaseWithUpdate hreleased
  all_goals trivial

theorem keeps_retry (workId : WorkId) :
    KeepsCounters state (retry state workId) := by
  unfold retry
  split
  · rename_i happlied
    unfold applyRetryCommand at happlied
    split at happlied
    · cases happlied
    · split at happlied
      · cases happlied
      · split at happlied
        · cases happlied
        · split at happlied
          · cases happlied
          · rename_i hqueued
            cases happlied
            exact counters_updateWork hqueued
  all_goals trivial

theorem keeps_exhaust (workId : WorkId) (digest : Sha256Digest) :
    KeepsCounters state (exhaust state workId digest) := by
  unfold exhaust
  split
  · rename_i happlied
    unfold applyExhaustCommand at happlied
    split at happlied
    · cases happlied
    · split at happlied
      · cases happlied
      · split at happlied
        · cases happlied
        · rename_i hexhausted
          cases happlied
          exact counters_updateWork hexhausted
  all_goals trivial

theorem keeps_phaseControl {found : Option SchedulerState} {detail : String}
    (hfound : ∀ next, found = some next → next.work = state.work) :
    KeepsCounters state (phaseControl found detail emitted) := by
  unfold phaseControl
  split
  · trivial
  · exact counters_of_work (hfound _ rfl)

def isDispatch : SchedulerCommandKind → Bool
  | .dispatchNext _ _ => true
  | _ => false

/-- Only a dispatch moves the counters, and an admission adds one. -/
theorem counters_of_apply (hkind : isDispatch kind = false)
    (h : apply sha256 state kind = .ok (next, emitted)) :
    ∀ row ∈ counters state, row ∈ counters next := by
  have hkeeps : (∃ spec, kind = .admitWork spec) ∨
      KeepsCounters state (apply sha256 state kind) := by
    cases kind with
    | startScheduler binding => exact .inr trivial
    | registerWorker descriptor =>
        exact .inr (KeepsCounters.bind fun _ _ => KeepsCounters.bind fun _ _ =>
          KeepsCounters.bind fun _ _ => KeepsCounters.bind fun _ _ =>
          KeepsCounters.bind fun _ _ => rfl)
    | setWorkerAvailable workerId =>
        exact .inr (KeepsCounters.bind fun _ _ => KeepsCounters.bind fun _ _ =>
          KeepsCounters.bind fun _ _ => keeps_phaseWorker)
    | drainWorker workerId =>
        exact .inr (KeepsCounters.bind fun _ _ => KeepsCounters.bind fun _ _ =>
          keeps_phaseWorker)
    | loseWorker workerId => exact .inr (keeps_loseWorker workerId)
    | removeWorker workerId =>
        exact .inr (KeepsCounters.bind fun _ _ => KeepsCounters.bind fun _ _ =>
          keeps_phaseWorker)
    | admitWork spec => exact .inl ⟨spec, rfl⟩
    | dispatchNext dispatchId dispatchToken => cases hkind
    | acknowledgeStart dispatchId =>
        exact .inr (keeps_acknowledgeStart dispatchId)
    | completeWork dispatchId digest =>
        exact .inr (keeps_complete dispatchId digest)
    | failWork dispatchId digest disposition =>
        exact .inr (keeps_fail dispatchId digest disposition)
    | retryWork workId => exact .inr (keeps_retry workId)
    | cancelWork workId => exact .inr (keeps_cancel workId false)
    | cancelWorkTree workId => exact .inr (keeps_cancel workId true)
    | acknowledgeCancellation dispatchId =>
        exact .inr (keeps_acknowledgeCancel dispatchId)
    | exhaustWork workId digest => exact .inr (keeps_exhaust workId digest)
    | abandonDispatch dispatchId digest =>
        exact .inr (keeps_abandon dispatchId digest)
    | pauseScheduler =>
        refine .inr (keeps_phaseControl fun next hnext => ?_)
        unfold pauseScheduler at hnext
        split at hnext <;> cases hnext <;> rfl
    | resumeScheduler =>
        refine .inr (keeps_phaseControl fun next hnext => ?_)
        unfold resumeScheduler at hnext
        split at hnext <;> cases hnext <;> rfl
    | drainScheduler =>
        refine .inr (keeps_phaseControl fun next hnext => ?_)
        unfold drainScheduler at hnext
        split at hnext <;> cases hnext <;> rfl
    | finalizeScheduler =>
        refine .inr ?_
        show KeepsCounters state (finalize sha256 state)
        unfold finalize
        split
        · rfl
        · trivial
  rcases hkeeps with ⟨spec, rfl⟩ | hkeeps
  · have hadmit : admitWork state spec = .ok (next, emitted) := h
    unfold admitWork at hadmit
    obtain ⟨-, -, hadmit⟩ := bind_eq_ok_iff.mp hadmit
    split at hadmit
    · cases hadmit
    · rename_i hordinal
      cases hadmit
      unfold nextEnqueueOrdinal at hordinal
      split at hordinal
      · cases hordinal
        intro row hrow
        obtain ⟨record, hrecord, rfl⟩ := List.mem_map.mp hrow
        exact List.mem_map.mpr ⟨record, mem_insertAt.mpr (.inr hrecord), rfl⟩
      · cases hordinal
  · have hsame : counters next = counters state := hkeeps.of_eq_ok h
    rw [hsame]
    exact fun _ hrow => hrow

end Counters

end Peritus.Scheduler.Counters
