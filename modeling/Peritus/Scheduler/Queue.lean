import Peritus.Scheduler.Propagation
import Peritus.Scheduler.Choice
import Peritus.Scheduler.Cancellation

/-!
How much of the queue is spoken for.  The count that admission checks includes
the work that reservations may give back, so that it never grows elsewhere; but
for one command: the start of work that is being cancelled brings it back.
-/

namespace Peritus.Scheduler.Queue

open Peritus.Types Checked TransitionSystem SortedTable Limits Resource State Mutation
open Canonical Reducer Invariant Edits Handlers Refresh Ownership Propagation Choice

variable {sha256 : List UInt8 → Sha256Digest} {kind : SchedulerCommandKind}
variable {state next : SchedulerState} {record updated : WorkRecord}
variable {measure : Measure}

/-! ### What a record counts for -/

theorem includes_of_rewrite {binding : SchedulerBinding}
    {work : List WorkRecord} (hrewrite : Rewrite binding work record updated)
    (hmeasure : includes updated measure = true) :
    includes record measure = true := by
  cases hrewrite with
  | ready hphase _ => simp [includes, hphase]
  | settle => simp [includes, WorkRecord.terminalize] at hmeasure
  | retry hphase _ => simp [includes, hphase]
  | cancelling hactive =>
      cases measure with
      | waiting => simp [includes, WorkRecord.setPhase] at hmeasure
      | recoveryPressure => simp [includes, WorkRecord.setPhase] at hmeasure
      | legacyOccupancy =>
          rcases isActive_iff.mp hactive with hphase | hphase | hphase <;>
            simp [includes, includes.active, hphase]
  | bypass => exact hmeasure

/-- What a reservation gives back was counted while it was held, but by the
measure that counts waiting work alone. -/
theorem includes_of_release (hwaiting : measure ≠ .waiting)
    (hrelease : Release record updated)
    (hmeasure : includes updated measure = true) :
    includes record measure = true := by
  have hheld : record.phase = .reserved ∨ record.phase = .running →
      record.attemptsStarted < record.spec.maximumAttempts.get →
      includes record measure = true := by
    intro hphase hattempts
    cases measure with
    | waiting => exact absurd rfl hwaiting
    | recoveryPressure =>
        rcases hphase with hphase | hphase <;>
          simp [includes, includes.active, hphase, hattempts]
    | legacyOccupancy =>
        rcases hphase with hphase | hphase <;>
          simp [includes, includes.active, hphase]
  cases hrelease with
  | requeue hphase hattempts => exact hheld hphase hattempts
  | retry _ hphase hattempts => exact hheld hphase hattempts
  | settle => simp [includes, WorkRecord.terminalize] at hmeasure

theorem includes_of_queued (hqueued : record.phase = .queued) :
    includes record measure = true := by
  simp [includes, hqueued]

/-- Whether the start of a record brings it back into the count. -/
def returns (record : WorkRecord) : Measure → Bool
  | .recoveryPressure => decide (record.phase = .cancelling ∧
      record.attemptsStarted < record.spec.maximumAttempts.get)
  | _ => false

theorem includes_start (hactive : record.phase.isActive = true) :
    includes (record.setPhase .running) measure =
      (includes record measure || returns record measure) := by
  rcases isActive_iff.mp hactive with hphase | hphase | hphase <;>
    cases measure <;>
    simp [includes, includes.active, returns, WorkRecord.setPhase, hphase] <;>
    rfl

theorem not_includes_of_returns (h : returns record measure = true) :
    includes record measure = false := by
  cases measure with
  | recoveryPressure =>
      simp only [returns, decide_eq_true_eq] at h
      simp [includes, h.1]
  | waiting => cases h
  | legacyOccupancy => cases h

/-! ### What an edit does to the count -/

theorem count_replaceRow_le (hsound : Sound state)
    (hrecord : record ∈ state.work) (hid : updated.id = record.id)
    (h : includes updated measure = true → includes record measure = true) :
    count (replaceRow WorkRecord.id updated state.work) measure ≤
      count state.work measure :=
  countP_replaceRow_le (fun record => includes record measure)
    hsound.work.sorted hrecord hid h

/-- The start of a record adds it to the count exactly if it returns. -/
theorem count_start (hsound : Sound state) (hrecord : record ∈ state.work)
    (hactive : record.phase.isActive = true) :
    count (replaceRow WorkRecord.id (record.setPhase .running) state.work)
        measure =
      count state.work measure + (if returns record measure then 1 else 0) := by
  have hid : (record.setPhase .running).id = record.id := rfl
  have hcount := countP_replaceRow (fun record => includes record measure)
    hsound.work.sorted hrecord hid
  simp only [includes_start hactive] at hcount
  unfold count
  cases hreturns : returns record measure with
  | false =>
      simp only [hreturns, Bool.or_false] at hcount ⊢
      simpa using hcount
  | true =>
      rw [not_includes_of_returns hreturns] at hcount
      simpa [hreturns] using hcount

/-- An admission may add one to the count, a start what it brings back, and no
other edit anything. -/
theorem count_of_edit (hsound : Sound state) (hwaiting : measure ≠ .waiting)
    (hstart : measure = .recoveryPressure →
      ∀ dispatchId, kind ≠ .acknowledgeStart dispatchId)
    (hedit : Edit sha256 kind state next) :
    count next.work measure ≤ count state.work measure ∨
      ∃ spec, kind = .admitWork spec ∧ checkAdmission state spec = .ok () ∧
        count next.work measure ≤ count state.work measure + 1 := by
  cases hedit with
  | worker => exact .inl le_rfl
  | register => exact .inl le_rfl
  | @admitted spec hadmits _ hchecked =>
      refine .inr ⟨spec, hadmits, hchecked, ?_⟩
      have hone : ∀ b : Bool, (if b then 1 else 0) ≤ 1 := by decide
      unfold admittedTo insertWork count
      rw [perm_insertAt.countP_eq, List.countP_cons]
      exact Nat.add_le_add_left (hone _) _
  | rewrite hrecord hrewrite =>
      exact .inl (count_replaceRow_le hsound hrecord
        (holds_of_rewrite hrewrite).1 (includes_of_rewrite hrewrite))
  | release hreservation hrecord hid hrelease =>
      have hactive := hsound.owned.active hreservation hrecord hid
      exact .inl (count_replaceRow_le hsound hrecord
        (rowStep_of_release hsound.work hrecord hactive hrelease).id
        (includes_of_release hwaiting hrelease))
  | start hacknowledges hreservation hrecord hid =>
      left
      have hactive := hsound.owned.active hreservation hrecord hid
      show count (replaceRow WorkRecord.id _ _) _ ≤ _
      rw [count_start hsound hrecord hactive]
      cases measure with
      | waiting => exact absurd rfl hwaiting
      | recoveryPressure => exact absurd hacknowledges (hstart rfl _)
      | legacyOccupancy => exact le_rfl
  | reserve _ _ _ _ hrecord _ hfeasible hbegin =>
      exact .inl (count_replaceRow_le hsound hrecord
        (rowStep_of_begin hsound.work hrecord hfeasible.queued hbegin).id
        fun _ => includes_of_queued hfeasible.queued)
  | control => exact .inl le_rfl
  | finalize => exact .inl le_rfl

/-! ### Reservations and active work -/

/-- There are no more active records than reservations. -/
theorem active_le_reservations (hsound : Sound state) :
    (state.work.countP fun record => record.phase.isActive) ≤
      state.reservations.length := by
  have hnodup : ((state.work.filter fun record =>
      record.phase.isActive).map WorkRecord.id).Nodup :=
    hsound.work.sorted.nodup_map.sublist (List.filter_sublist.map _)
  have hsubset : (state.work.filter fun record =>
      record.phase.isActive).map WorkRecord.id ⊆
      state.reservations.map SchedulerReservation.workId := by
    intro id hid
    obtain ⟨record, hrecord, rfl⟩ := List.mem_map.mp hid
    obtain ⟨hmem, hactive⟩ := List.mem_filter.mp hrecord
    obtain ⟨reservation, hreservation, hsame⟩ := hsound.owned.owner hmem hactive
    exact List.mem_map.mpr ⟨reservation, hreservation, hsame⟩
  have hlength := (List.subperm_of_subset hnodup hsubset).length_le
  rw [List.length_map, List.length_map] at hlength
  rwa [List.countP_eq_length_filter]

theorem legacy_eq (work : List WorkRecord) :
    count work .legacyOccupancy =
      count work .waiting + work.countP fun record => record.phase.isActive := by
  unfold count
  induction work with
  | nil => rfl
  | cons record rest ih =>
      rw [List.countP_cons, List.countP_cons, List.countP_cons, ih]
      cases hphase : record.phase <;>
        simp [includes, includes.active, WorkPhase.isActive, hphase] <;> omega

/-! ### The bound of a semantics -/

/-- The count that a semantics bounds. -/
def measured : SchedulerSemantics → Measure
  | .legacyQueueV1 => .legacyOccupancy
  | .strictRecoveryQueueV2 => .recoveryPressure

def room (binding : SchedulerBinding) : Nat :=
  match binding.semantics with
  | .legacyQueueV1 =>
      binding.limits.queuedWork + binding.limits.activeReservations
  | .strictRecoveryQueueV2 => binding.limits.queuedWork

theorem withinBounds_iff : withinBounds state = true ↔
    count state.work (measured state.binding.semantics) ≤ room state.binding := by
  unfold withinBounds admissionCount room measured
  cases hsemantics : state.binding.semantics <;> simp

theorem measured_ne_waiting (semantics : SchedulerSemantics) :
    measured semantics ≠ .waiting := by
  cases semantics <;> exact nofun

/-- Where admission finds a place, the bound leaves one. -/
theorem count_lt_room (hsound : Sound state) (hdispatchable : Dispatchable state)
    (hplace : admissionCount state < state.binding.limits.queuedWork) :
    count state.work (measured state.binding.semantics) < room state.binding := by
  unfold admissionCount at hplace
  unfold measured room
  cases hsemantics : state.binding.semantics with
  | legacyQueueV1 =>
      simp only [hsemantics] at hplace ⊢
      have hactive := active_le_reservations hsound
      have hreservations := hdispatchable.reservations
      rw [legacy_eq]
      omega
  | strictRecoveryQueueV2 =>
      simp only [hsemantics] at hplace ⊢
      exact hplace

theorem recovers_of_measured {semantics : SchedulerSemantics}
    (h : measured semantics = .recoveryPressure) :
    semantics = .strictRecoveryQueueV2 := by
  cases semantics with
  | legacyQueueV1 => cases h
  | strictRecoveryQueueV2 => rfl

theorem withinBounds_of_edit (hsound : Sound state)
    (hdispatchable : Dispatchable state) (hbounds : withinBounds state = true)
    (hstart : state.binding.semantics = .strictRecoveryQueueV2 →
      ∀ dispatchId, kind ≠ .acknowledgeStart dispatchId)
    (hedit : Edit sha256 kind state next) : withinBounds next = true := by
  have hbinding := binding_of_edits (.single hedit)
  rw [withinBounds_iff] at hbounds ⊢
  rw [hbinding]
  rcases count_of_edit hsound (measured_ne_waiting state.binding.semantics)
    (fun h => hstart (recovers_of_measured h)) hedit with
    hle | ⟨spec, -, hchecked, hle⟩
  · exact hle.trans hbounds
  · have hplace : admissionCount state < state.binding.limits.queuedWork := by
      unfold checkAdmission at hchecked
      simp only [ensure_bind_eq_ok_iff, decide_eq_true_eq] at hchecked
      exact hchecked.2.1.2
    exact hle.trans (count_lt_room hsound hdispatchable hplace)

theorem withinBounds_of_edits (hsound : Sound state)
    (hdispatchable : Dispatchable state) (hbounds : withinBounds state = true)
    (hstart : state.binding.semantics = .strictRecoveryQueueV2 →
      ∀ dispatchId, kind ≠ .acknowledgeStart dispatchId)
    (hedits : EditRun sha256 kind state next) :
    withinBounds next = true ∧ Dispatchable next := by
  induction hedits with
  | refl => exact ⟨hbounds, hdispatchable⟩
  | tail hbefore hlast ih =>
      have hsound' := sound_of_edits hsound hbefore
      refine ⟨withinBounds_of_edit hsound' ih.2 ih.1 ?_ hlast,
        dispatchable_of_edit hsound' ih.2 hlast⟩
      rw [binding_of_edits hbefore]
      exact hstart

/-! ### The start of cancelled work -/

/-- Whether a command starts work that is being cancelled and has an attempt
left, when the queue has no place for it. -/
def overfills (state : SchedulerState) (kind : SchedulerCommandKind) : Bool :=
  match kind with
  | .acknowledgeStart dispatchId =>
      match (state.reservation dispatchId).bind fun reservation =>
        state.workItem reservation.workId with
      | some record =>
          decide (state.binding.semantics = .strictRecoveryQueueV2) &&
            returns record .recoveryPressure &&
            decide (state.binding.limits.queuedWork ≤ admissionCount state)
      | none => false
  | _ => false

/-- At the fixed point of the refresh an acknowledged start makes nothing due. -/
theorem collect_start (hsound : Sound state)
    (hempty : collectDependencyChanges state = [])
    (hrecord : record ∈ state.work)
    (hwork : next.work =
      replaceRow WorkRecord.id (record.setPhase .running) state.work) :
    collectDependencyChanges next = [] := by
  have hid : (record.setPhase .running).id = record.id := rfl
  have hout : ∀ id, outcomeOf next id = outcomeOf state id := by
    intro id
    rw [outcomeOf, outcomeOf, SchedulerState.workItem, SchedulerState.workItem,
      hwork, lookup_replaceRow hsound.work.sorted]
    cases hfound : lookup WorkRecord.id id state.work with
    | none => rfl
    | some other =>
        obtain ⟨hother, -⟩ := mem_of_lookup hfound
        rw [Option.map_some, Option.bind_some, Option.bind_some]
        split
        · rename_i hsame
          rw [hsound.work.sorted.inj hother hrecord (hsame.trans hid)]
          rfl
        · rfl
  rw [List.eq_nil_iff_forall_not_mem]
  intro change hchange
  obtain ⟨found, hfound, hdue, -⟩ := mem_collectDependencyChanges.mp hchange
  rw [hwork] at hfound
  rcases (mem_replaceRow hsound.work.sorted hrecord hid).mp hfound with
    rfl | ⟨hold, -⟩
  · exact hdue (if_neg (by simp [WorkRecord.setPhase]))
  · have hmem : (⟨found.id, dependencyAction state found⟩ :
        DependencyChange) ∈ collectDependencyChanges state := by
      refine mem_collectDependencyChanges.mpr ⟨found, hold, ?_, rfl⟩
      rwa [dependencyAction, scan_congr hout] at hdue
    simp [hempty] at hmem

theorem work_of_refresh (hsound : Sound state)
    (hempty : collectDependencyChanges state = []) :
    (refresh state).work = state.work := by
  have hround := round_of_collected hempty
  have hrounds : propagateDependencies state = state := by
    unfold propagateDependencies
    cases state.work.length with
    | zero => rfl
    | succ remaining => simp [propagateRounds, hround]
  rw [refresh, hrounds]
  exact (edits_of_refreshWorkerPhases (fun _ => zeroDigest) .pauseScheduler
    hsound).2

/-! ### Nothing is dropped or turned away -/

/-- The rejection of work for which there is no place. -/
def queueFull : SchedulerError :=
  limit "work retention or queue limit reached"

theorem retained_of_edit (hsound : Sound state) (hedit : Edit sha256 kind state next)
    (hrecord : record ∈ state.work) :
    ∃ updated ∈ next.work, updated.id = record.id := by
  have hreplaced : ∀ {changed row : WorkRecord}, changed ∈ state.work →
      row.id = changed.id →
      ∃ updated ∈ replaceRow WorkRecord.id row state.work,
        updated.id = record.id := by
    intro changed row hchanged hid
    by_cases hsame : record.id = changed.id
    · exact ⟨row, (mem_replaceRow hsound.work.sorted hchanged hid).mpr (.inl rfl),
        hid.trans hsame.symm⟩
    · exact ⟨record, (mem_replaceRow hsound.work.sorted hchanged hid).mpr
        (.inr ⟨hrecord, hsame⟩), rfl⟩
  cases hedit with
  | worker => exact ⟨record, hrecord, rfl⟩
  | register => exact ⟨record, hrecord, rfl⟩
  | admitted => exact ⟨record, mem_insertAt.mpr (.inr hrecord), rfl⟩
  | rewrite hchanged hrewrite =>
      exact hreplaced hchanged (holds_of_rewrite hrewrite).1
  | release hreservation hchanged hid hrelease =>
      have hactive := hsound.owned.active hreservation hchanged hid
      exact hreplaced hchanged
        (rowStep_of_release hsound.work hchanged hactive hrelease).id
  | start _ _ hchanged _ => exact hreplaced hchanged rfl
  | reserve _ _ _ _ hchanged _ hfeasible hbegin =>
      exact hreplaced hchanged
        (rowStep_of_begin hsound.work hchanged hfeasible.queued hbegin).id
  | control => exact ⟨record, hrecord, rfl⟩
  | finalize => exact ⟨record, hrecord, rfl⟩

theorem retained_of_edits (hsound : Sound state)
    (hedits : EditRun sha256 kind state next) (hrecord : record ∈ state.work) :
    ∃ updated ∈ next.work, updated.id = record.id := by
  induction hedits with
  | refl => exact ⟨record, hrecord, rfl⟩
  | tail hbefore hlast ih =>
      obtain ⟨middle, hmiddle, hid⟩ := ih
      obtain ⟨updated, hupdated, hid'⟩ :=
        retained_of_edit (sound_of_edits hsound hbefore) hlast hmiddle
      exact ⟨updated, hupdated, hid'.trans hid⟩

theorem spares_workerPhase (workerId : WorkerId) :
    Satisfies (fun _ => True) (fun error => error ≠ queueFull)
      (workerPhase state workerId) := by
  unfold workerPhase
  split
  · exact satisfies_of_error rfl (by decide)
  · exact satisfies_of_ok rfl trivial

theorem spares_phaseWorker (workerId : WorkerId) (phase : WorkerPhase)
    (detail : String) (event : SchedulerEventKind) :
    Satisfies (fun _ => True) (fun error => error ≠ queueFull)
      (phaseWorker state workerId phase detail event) := by
  unfold phaseWorker
  split
  · refine satisfies_of_error rfl ?_
    simp [unknown, queueFull, limit, Limits.reject]
  · exact satisfies_of_ok rfl trivial

theorem spares_phaseControl (changed : Option SchedulerState) (detail : String)
    (event : SchedulerEventKind) :
    Satisfies (fun _ => True) (fun error => error ≠ queueFull)
      (phaseControl changed detail event) := by
  unfold phaseControl
  split
  · refine satisfies_of_error rfl ?_
    simp [illegal, queueFull, limit, Limits.reject]
  · exact satisfies_of_ok rfl trivial

theorem spares_validate (vector : ResourceVector) (maximumDimensions : Nat) :
    Satisfies (fun _ => True) (fun error => error ≠ queueFull)
      (vector.validate maximumDimensions) := by
  unfold ResourceVector.validate ResourceVector.new
  split
  · exact satisfies_of_error rfl (by decide)
  · split
    · exact satisfies_of_ok rfl trivial
    · exact satisfies_of_error rfl (by decide)

theorem spares_cancel (root : WorkId) (descendants : Bool) :
    Satisfies (fun _ => True) (fun error => error ≠ queueFull)
      (cancel state root descendants) := by
  unfold cancel
  split
  · exact satisfies_of_error rfl (by decide)
  · split
    · exact satisfies_of_error rfl (by decide)
    · exact satisfies_of_ok rfl trivial

theorem spares_reserveNext (dispatchId : DispatchId)
    (dispatchToken : Sha256Digest) :
    Satisfies (fun _ => True) (fun error => error ≠ queueFull)
      (reserveNext state dispatchId dispatchToken) := by
  unfold reserveNext
  refine satisfies_ensure_bind (by decide) fun _ => ?_
  refine satisfies_ensure_bind (by decide) fun _ => ?_
  refine satisfies_ensure_bind (by decide) fun _ => ?_
  split
  · exact satisfies_of_error rfl (by decide)
  · split
    · exact satisfies_of_error rfl (by decide)
    · refine satisfies_ensure_bind (by decide) fun _ => ?_
      refine satisfies_ensure_bind (by decide) fun _ => ?_
      refine satisfies_ensure_bind (by decide) fun _ => ?_
      split
      · exact satisfies_of_error rfl (by decide)
      · exact satisfies_of_ok rfl trivial

/-- No command but an admission is turned away because the queue is full. -/
theorem spares_queue (hkind : ∀ spec, kind ≠ .admitWork spec) :
    Satisfies (fun _ => True) (fun error => error ≠ queueFull)
      (apply sha256 state kind) := by
  cases kind with
  | startScheduler => exact satisfies_of_error rfl (by decide)
  | registerWorker descriptor =>
      refine satisfies_ensure_bind (by decide) fun _ => ?_
      apply (spares_validate descriptor.capacity _).bind
      rintro - - -
      refine satisfies_ensure_bind (by decide) fun _ => ?_
      refine satisfies_ensure_bind (by decide) fun _ => ?_
      exact satisfies_ensure_bind (by decide) fun _ => trivial
  | setWorkerAvailable workerId =>
      apply (spares_workerPhase workerId).bind
      rintro phase - -
      refine satisfies_ensure_bind (by decide) fun _ => ?_
      refine satisfies_ensure_bind (by decide) fun _ => ?_
      exact spares_phaseWorker _ _ _ _
  | drainWorker workerId =>
      apply (spares_workerPhase workerId).bind
      rintro phase - -
      refine satisfies_ensure_bind (by decide) fun _ => ?_
      exact spares_phaseWorker _ _ _ _
  | removeWorker workerId =>
      apply (spares_workerPhase workerId).bind
      rintro phase - -
      refine satisfies_ensure_bind (by decide) fun _ => ?_
      exact spares_phaseWorker _ _ _ _
  | loseWorker workerId =>
      show Satisfies _ _ (loseWorker sha256 state workerId)
      unfold loseWorker
      dsimp only
      split <;> first
        | exact satisfies_of_ok rfl trivial
        | exact satisfies_of_error rfl (by decide)
  | admitWork spec => exact absurd rfl (hkind spec)
  | dispatchNext dispatchId dispatchToken =>
      refine satisfies_ensure_bind (by decide) fun _ => ?_
      apply (spares_reserveNext dispatchId dispatchToken).bind
      rintro ⟨reserved, reservation⟩ - -
      exact trivial
  | acknowledgeStart dispatchId =>
      show Satisfies _ _ (acknowledgeStart state dispatchId)
      unfold acknowledgeStart
      split <;> first
        | exact satisfies_of_ok rfl trivial
        | exact satisfies_of_error rfl (by decide)
  | completeWork dispatchId resultDigest =>
      show Satisfies _ _ (complete state dispatchId resultDigest)
      unfold complete
      split <;> first
        | exact satisfies_of_ok rfl trivial
        | exact satisfies_of_error rfl (by decide)
  | failWork dispatchId failureDigest disposition =>
      show Satisfies _ _ (fail state dispatchId failureDigest disposition)
      unfold fail
      split <;> first
        | exact satisfies_of_ok rfl trivial
        | exact satisfies_of_error rfl (by decide)
  | retryWork workId =>
      show Satisfies _ _ (retry state workId)
      unfold retry
      split <;> first
        | exact satisfies_of_ok rfl trivial
        | exact satisfies_of_error rfl (by decide)
  | cancelWork workId => exact spares_cancel workId false
  | cancelWorkTree workId => exact spares_cancel workId true
  | acknowledgeCancellation dispatchId =>
      show Satisfies _ _ (acknowledgeCancel state dispatchId)
      unfold acknowledgeCancel
      split <;> first
        | exact satisfies_of_ok rfl trivial
        | exact satisfies_of_error rfl (by decide)
  | exhaustWork workId causeDigest =>
      show Satisfies _ _ (exhaust state workId causeDigest)
      unfold exhaust
      split <;> first
        | exact satisfies_of_ok rfl trivial
        | exact satisfies_of_error rfl (by decide)
  | abandonDispatch dispatchId causeDigest =>
      show Satisfies _ _ (abandon state dispatchId causeDigest)
      unfold abandon
      split <;> first
        | exact satisfies_of_ok rfl trivial
        | exact satisfies_of_error rfl (by decide)
  | pauseScheduler => exact spares_phaseControl _ _ _
  | resumeScheduler => exact spares_phaseControl _ _ _
  | drainScheduler => exact spares_phaseControl _ _ _
  | finalizeScheduler =>
      show Satisfies _ _ (finalize sha256 state)
      unfold finalize
      split
      · exact satisfies_of_ok rfl trivial
      · exact satisfies_of_error rfl (by decide)

/-! ### Accepted commands -/

variable {command : SchedulerCommand}

theorem overfills_eq_false (h : state.binding.semantics = .legacyQueueV1 ∨
    ∀ dispatchId, kind ≠ .acknowledgeStart dispatchId) :
    overfills state kind = false := by
  unfold overfills
  split
  · rcases h with hlegacy | hkind
    · split
      · simp [hlegacy]
      · rfl
    · exact absurd rfl (hkind _)
  · rfl

/-- From a state within its bound, a command leads out of it exactly if it
overfills the queue. -/
theorem withinBounds_step
    (hreach : Reachable (Started sha256) (Accepts sha256) state)
    (hbounds : withinBounds state = true)
    (haccepts : Accepts sha256 state command next) :
    withinBounds next = true ↔ overfills state command.kind = false := by
  have hsound := sound_of_reachable hreach
  have hdispatchable := dispatchable_of_reachable hreach
  have hbinding := binding_of_accepts hsound haccepts
  obtain ⟨applied, event, happlied, hedits, hrefresh, hwork, -, -⟩ :=
    edits_of_accepts hsound haccepts
  have hsame : withinBounds next = withinBounds (refresh applied) := by
    have hbinding' := binding_of_edits (hedits.trans hrefresh)
    unfold withinBounds admissionCount
    rw [hwork, hbinding, hbinding']
  rw [hsame]
  by_cases hplain : state.binding.semantics = .legacyQueueV1 ∨
      ∀ dispatchId, command.kind ≠ .acknowledgeStart dispatchId
  · refine iff_of_true ?_ (overfills_eq_false hplain)
    refine (withinBounds_of_edits hsound hdispatchable hbounds ?_
      (hedits.trans hrefresh)).1
    intro hstrict
    rcases hplain with hlegacy | hkind
    · rw [hstrict] at hlegacy
      cases hlegacy
    · exact hkind
  · push Not at hplain
    obtain ⟨hstrict, dispatchId, hkind⟩ := hplain
    have hsemantics : state.binding.semantics = .strictRecoveryQueueV2 := by
      cases hsemantics : state.binding.semantics with
      | legacyQueueV1 => exact absurd hsemantics hstrict
      | strictRecoveryQueueV2 => rfl
    rw [hkind] at happlied hedits ⊢
    obtain ⟨reservation, record, hreservation, hitem, happlied⟩ :=
      acknowledgeStart_eq_ok hsound happlied
    obtain ⟨hrecord, hid⟩ := mem_of_workItem hitem
    have hactive := hsound.owned.active (mem_of_reservation hreservation).1
      hrecord hid
    have hstarted : applied.work =
        replaceRow WorkRecord.id (record.setPhase .running) state.work := by
      rw [happlied]
    have hkept := work_of_refresh (sound_of_edits hsound hedits)
      (collect_start hsound (collect_of_reachable hreach) hrecord hstarted)
    have hcount : count (replaceRow WorkRecord.id (record.setPhase .running)
        state.work) .recoveryPressure = count state.work .recoveryPressure +
          (if returns record .recoveryPressure then 1 else 0) :=
      count_start hsound hrecord hactive
    have hroom : (refresh applied).binding = state.binding :=
      binding_of_edits (hedits.trans (edits_of_refresh sha256
        (.acknowledgeStart dispatchId) (sound_of_edits hsound hedits)).1)
    rw [withinBounds_iff] at hbounds ⊢
    rw [hroom, hkept, hstarted]
    unfold overfills admissionCount
    simp only [hsemantics, measured, room, hreservation, hitem,
      Option.bind_some, decide_true, Bool.true_and] at hbounds ⊢
    rw [hcount]
    cases returns record .recoveryPressure with
    | false => simpa using hbounds
    | true =>
        simp only [if_true, Bool.true_and, decide_eq_false_iff_not]
        omega

theorem withinBounds_of_started (h : Started sha256 state) :
    withinBounds state = true := by
  obtain ⟨command, transition, hstart, rfl⟩ := h
  obtain ⟨binding, -, -, hstate⟩ := start_eq_ok hstart
  rw [withinBounds_iff, hstate]
  exact Nat.zero_le _

/-- Accepted commands that do not overfill the queue. -/
def Careful (sha256 : List UInt8 → Sha256Digest) (state : SchedulerState)
    (command : SchedulerCommand) (next : SchedulerState) : Prop :=
  Accepts sha256 state command next ∧ overfills state command.kind = false

theorem withinBounds_of_careful {first : SchedulerState}
    {commands : List SchedulerCommand} (hstarted : Started sha256 first)
    (hrun : Run (Careful sha256) first commands state) :
    withinBounds state = true := by
  suffices hboth : Reachable (Started sha256) (Accepts sha256) state ∧
    withinBounds state = true from hboth.2
  refine @Run.invariant _ _ _ (fun state =>
    Reachable (Started sha256) (Accepts sha256) state ∧
      withinBounds state = true) ?_ _ _ _ hrun
    ⟨⟨_, [], hstarted, .nil _⟩, withinBounds_of_started hstarted⟩
  rintro middle command last ⟨hreach, hbounds⟩ ⟨haccepts, hcareful⟩
  exact ⟨hreach.snoc haccepts,
    (withinBounds_step hreach hbounds haccepts).mpr hcareful⟩

/-- The legacy bound needs no care. -/
theorem withinBounds_of_legacy
    (hreach : Reachable (Started sha256) (Accepts sha256) state) :
    state.binding.semantics = .legacyQueueV1 → withinBounds state = true := by
  suffices hboth : Reachable (Started sha256) (Accepts sha256) state ∧
    (state.binding.semantics = .legacyQueueV1 → withinBounds state = true) from
    hboth.2
  obtain ⟨first, commands, hstarted, hrun⟩ := hreach
  refine @Run.invariant _ _ _ (fun state =>
    Reachable (Started sha256) (Accepts sha256) state ∧
      (state.binding.semantics = .legacyQueueV1 → withinBounds state = true))
    ?_ _ _ _ hrun
    ⟨⟨_, [], hstarted, .nil _⟩, fun _ => withinBounds_of_started hstarted⟩
  rintro middle command last ⟨hreach, hbounds⟩ haccepts
  refine ⟨hreach.snoc haccepts, fun hlegacy => ?_⟩
  rw [binding_of_accepts (sound_of_reachable hreach) haccepts] at hlegacy
  exact (withinBounds_step hreach (hbounds hlegacy) haccepts).mpr
    (overfills_eq_false (.inl hlegacy))

/-- The queue stays within its bound, in a legacy scheduler always, and under
strict recovery in every run without a command that starts cancelled work with
attempts left while the queue is full: such a command, and no other, leads out
of the bound.  Work is never dropped, and only an admission can be turned away
for want of a place. -/
theorem queue_within_bounds :
    (∀ state, Reachable (Started sha256) (Accepts sha256) state →
      state.binding.semantics = .legacyQueueV1 → withinBounds state = true) ∧
    (∀ first commands state, Started sha256 first →
      Run (Careful sha256) first commands state → withinBounds state = true) ∧
    (∀ state command next,
      Reachable (Started sha256) (Accepts sha256) state →
      withinBounds state = true → Accepts sha256 state command next →
      (withinBounds next = true ↔ overfills state command.kind = false)) ∧
    (∀ state command next,
      Reachable (Started sha256) (Accepts sha256) state →
      Accepts sha256 state command next →
      ∀ record ∈ state.work, ∃ updated ∈ next.work, updated.id = record.id) ∧
    (∀ state kind, apply sha256 state kind = .error queueFull →
      ∃ spec, kind = .admitWork spec) := by
  refine ⟨fun _ => withinBounds_of_legacy,
    fun _ _ _ => withinBounds_of_careful,
    fun _ _ _ => withinBounds_step, ?_, ?_⟩
  · intro state command next hreach haccepts record hrecord
    have hsound := sound_of_reachable hreach
    obtain ⟨applied, event, -, hedits, hrefresh, hwork, -⟩ :=
      edits_of_accepts hsound haccepts
    rw [hwork]
    exact retained_of_edits hsound (hedits.trans hrefresh) hrecord
  · intro state kind herror
    by_contra hkind
    push Not at hkind
    exact (spares_queue hkind).of_eq_error herror rfl

/-! ### A full queue and a late start -/

def narrowLimits : SchedulerLimits :=
  { SchedulerLimits.production with
    queuedWork := 1
    checks := by decide
    queued := by decide
    active := SchedulerLimits.production.active }

def narrowBinding : SchedulerBinding :=
  { smallBinding with limits := narrowLimits, dimensions := by decide }

def narrowStart (sha256 : List UInt8 → Sha256Digest) : SchedulerState :=
  let state := SchedulerState.genesis narrowBinding (.ofNat 20) (.ofNat 20)
  { state with stateDigest := stateDigest sha256 state }

def narrowGenesis : SchedulerCommand :=
  { smallGenesis with
    kind := .startScheduler narrowBinding
    genesis := by decide }

theorem started_narrowStart (sha256 : List UInt8 → Sha256Digest) :
    Started sha256 (narrowStart sha256) := by
  have hstart : (start sha256 narrowGenesis).toOption.map (·.state) =
      some (narrowStart sha256) := by rfl
  obtain ⟨transition, hsome, hstate⟩ := Option.map_eq_some_iff.mp hstart
  exact ⟨narrowGenesis, transition, toOption_eq_some_iff.mp hsome, hstate⟩

def twiceWork (id : WorkId) : WorkSpec :=
  { smallWork with
    id
    maximumAttempts := .ofNat 2
    notSelf := smallWork_notSelf id
    otherParent := by simp [smallWork]
    dependencyBound := smallWork.dependencyBound
    attemptBound := by decide
    dimensions := by decide }

/-- One place in the queue: work is dispatched and cancelled, other work takes
its place, and only then the start is acknowledged. -/
def lateStarts : List Request :=
  [(.ofNat 21, .registerWorker smallWorker),
   (.ofNat 22, .admitWork (twiceWork (.ofNat 12))),
   (.ofNat 23, .dispatchNext (.ofNat 30) zeroDigest),
   (.ofNat 24, .cancelWork (.ofNat 12)),
   (.ofNat 25, .admitWork (twiceWork (.ofNat 13))),
   (.ofNat 26, .acknowledgeStart (.ofNat 30))]

theorem counted_lateStarts :
    (attempts (fun _ => zeroDigest) (narrowStart fun _ => zeroDigest)
      lateStarts).map withinBounds = some false ∧
    (attempts (fun _ => zeroDigest) (narrowStart fun _ => zeroDigest)
      (lateStarts.take 5)).map (fun state => (withinBounds state,
        overfills state (.acknowledgeStart ⟨30, by decide, by decide⟩))) =
      some (true, true) := by
  constructor
  · decide +kernel
  · decide +kernel

/-- Two pieces of work in a queue with one place. -/
theorem queue_overfilled :
    ¬ ∀ state, Reachable (Started fun _ => zeroDigest)
        (Accepts fun _ => zeroDigest) state → withinBounds state = true := by
  intro hclaim
  obtain ⟨state, hstate, hbounds⟩ :=
    Option.map_eq_some_iff.mp counted_lateStarts.1
  obtain ⟨commands, -, hrun⟩ := run_of_attempts hstate
  rw [hclaim state ⟨_, commands, started_narrowStart _, hrun⟩] at hbounds
  cases hbounds

/-- The acknowledgement of that start, whoever sends it, leads out of the
bound. -/
theorem queue_within_bounds_before_start : ∃ state,
    Reachable (Started fun _ => zeroDigest) (Accepts fun _ => zeroDigest)
      state ∧ withinBounds state = true ∧
    ∀ command next, command.kind =
        .acknowledgeStart ⟨30, by decide, by decide⟩ →
      Accepts (fun _ => zeroDigest) state command next →
      ¬ withinBounds next = true := by
  obtain ⟨state, hstate, hboth⟩ :=
    Option.map_eq_some_iff.mp counted_lateStarts.2
  obtain ⟨hbounds, hoverfills⟩ := Prod.mk.inj hboth
  obtain ⟨commands, -, hrun⟩ := run_of_attempts hstate
  have hreach : Reachable (Started fun _ => zeroDigest)
      (Accepts fun _ => zeroDigest) state :=
    ⟨_, commands, started_narrowStart _, hrun⟩
  refine ⟨state, hreach, hbounds, fun command next hkind haccepts => ?_⟩
  rw [(@queue_within_bounds fun _ => zeroDigest).2.2.1 state command next hreach
    hbounds haccepts, hkind, hoverfills]
  decide

end Peritus.Scheduler.Queue
