import Peritus.Scheduler.Invariant
import Peritus.Scheduler.Reducer

/-!
The edits that the handlers of the reducer are made of, each with the guard
under which a handler makes it.  Every edit keeps the tables sound.
-/

namespace Peritus.Scheduler.Edits

open Peritus.Types Checked SortedTable Limits State Selection
open Mutation Reducer Invariant

/-! ### Edits of one record -/

/-- A record changes and keeps its holder, or stays without one. -/
inductive Rewrite (binding : SchedulerBinding) (work : List WorkRecord)
    (record : WorkRecord) : WorkRecord → Prop
  | ready (hphase : record.phase = .waitingDependencies)
      (hready : Ready work record) :
      Rewrite binding work record (record.setPhase .queued)
  | settle (outcome : WorkTerminal)
      (hphase : record.phase = .waitingDependencies ∨ record.phase = .queued ∨
        record.phase = .retryPending)
      (hfailed : outcome.isSucceeded = false) :
      Rewrite binding work record (record.terminalize outcome)
  | retry (hphase : record.phase = .retryPending)
      (hattempts : record.attemptsStarted < record.spec.maximumAttempts.get) :
      Rewrite binding work record record.queueRetry
  | cancelling (hactive : record.phase.isActive = true) :
      Rewrite binding work record (record.setPhase .cancelling)
  | bypass (value : Nat) (hphase : record.phase ≠ .terminal)
      (hbound : value ≤ binding.limits.bypassCount) :
      Rewrite binding work record (record.setBypasses value)

/-- A record as its reservation gives it up. -/
inductive Release (record : WorkRecord) : WorkRecord → Prop
  | requeue (hphase : record.phase = .reserved ∨ record.phase = .running)
      (hattempts : record.attemptsStarted < record.spec.maximumAttempts.get) :
      Release record (record.setPhase .queued)
  | retry (cause : Sha256Digest)
      (hphase : record.phase = .reserved ∨ record.phase = .running)
      (hattempts : record.attemptsStarted < record.spec.maximumAttempts.get) :
      Release record (record.setRetryPending cause)
  | settle (outcome : WorkTerminal)
      (hcancelled : record.phase = .cancelling → outcome = .cancelled) :
      Release record (record.terminalize outcome)

section Rows

variable {binding : SchedulerBinding} {ordinal : Nat} {work : List WorkRecord}
variable {record next : WorkRecord} {reservation : SchedulerReservation}

theorem isActive_iff {phase : WorkPhase} : phase.isActive = true ↔
    phase = .reserved ∨ phase = .running ∨ phase = .cancelling := by
  cases phase <;> simp [WorkPhase.isActive]

theorem ne_of_isActive {phase : WorkPhase} (h : phase.isActive = true) :
    phase ≠ .terminal ∧ phase ≠ .retryPending ∧
      phase ≠ .waitingDependencies := by
  rcases isActive_iff.mp h with rfl | rfl | rfl <;> decide

theorem rowStep_of_rewrite (hwork : WorkSound binding ordinal work)
    (hrecord : record ∈ work) (hrewrite : Rewrite binding work record next) :
    RowStep binding work record next := by
  have hsound := hwork.records record hrecord
  cases hrewrite with
  | ready hphase hready =>
      exact rowStep_setPhase hwork hrecord (by rw [hphase]; decide)
        (by rw [hphase]; decide) ⟨by decide, by decide⟩ fun _ => hready
  | settle outcome hphase =>
      refine rowStep_terminalize hwork hrecord ?_ outcome
      rcases hphase with hphase | hphase | hphase <;> rw [hphase] <;> decide
  | retry hphase hattempts =>
      have hterminal : record.phase ≠ .terminal := by rw [hphase]; decide
      exact
        { spec := rfl
          ordinal := rfl
          sound :=
            { revision := hsound.revision
              request := hsound.request
              attempts := hsound.attempts
              bypasses := hsound.bypasses
              terminal := by
                simp [WorkRecord.queueRetry, hsound.not_settled hterminal]
              retry := by simp [WorkRecord.queueRetry] }
          terminal := fun _ h => h
          ready := fun _ _ => hwork.ready record hrecord
            (by rw [hphase]; decide) hterminal }
  | cancelling hactive =>
      obtain ⟨hterminal, hretry, hwaiting⟩ := ne_of_isActive hactive
      exact rowStep_setPhase hwork hrecord hterminal hretry
        ⟨by decide, by decide⟩ fun h => absurd h hwaiting
  | bypass value hphase hbound =>
      exact
        { spec := rfl
          ordinal := rfl
          sound := ⟨hsound.revision, hsound.request, hsound.attempts, hbound,
            hsound.terminal, hsound.retry⟩
          terminal := fun _ h => h
          ready := hwork.ready record hrecord }

theorem rowStep_of_release (hwork : WorkSound binding ordinal work)
    (hrecord : record ∈ work) (hactive : record.phase.isActive = true)
    (hrelease : Release record next) : RowStep binding work record next := by
  have hsound := hwork.records record hrecord
  obtain ⟨hterminal, hretry, hwaiting⟩ := ne_of_isActive hactive
  cases hrelease with
  | requeue hphase hattempts =>
      exact rowStep_setPhase hwork hrecord hterminal hretry
        ⟨by decide, by decide⟩ fun h => absurd h hwaiting
  | retry cause hphase hattempts =>
      exact
        { spec := rfl
          ordinal := rfl
          sound :=
            { revision := hsound.revision
              request := hsound.request
              attempts := hsound.attempts
              bypasses := hsound.bypasses
              terminal := by
                simp [WorkRecord.setRetryPending, hsound.not_settled hterminal]
              retry := by simp [WorkRecord.setRetryPending] }
          terminal := fun _ h => h
          ready := fun _ _ => hwork.ready record hrecord hwaiting hterminal }
  | settle outcome _ =>
      exact rowStep_terminalize hwork hrecord hterminal outcome

theorem tryBeginAttempt_eq_some {attempt : AttemptNumber}
    (h : record.tryBeginAttempt = some (attempt, next)) :
    record.attemptsStarted + 1 ≤ record.spec.maximumAttempts.get ∧
      attempt.get = record.attemptsStarted + 1 ∧
      next =
        { record with
          attemptsStarted := record.attemptsStarted + 1
          phase := .reserved
          retryCause := none } := by
  unfold WorkRecord.tryBeginAttempt at h
  split at h
  · cases h
  · split at h
    · rename_i hle
      cases h
      exact ⟨hle, rfl, rfl⟩
    · cases h

theorem rowStep_of_begin (hwork : WorkSound binding ordinal work)
    (hrecord : record ∈ work) (hqueued : record.phase = .queued)
    {attempt : AttemptNumber}
    (hbegin : record.tryBeginAttempt = some (attempt, next)) :
    RowStep binding work record next := by
  have hsound := hwork.records record hrecord
  obtain ⟨hle, _, rfl⟩ := tryBeginAttempt_eq_some hbegin
  have hterminal : record.phase ≠ .terminal := by rw [hqueued]; decide
  exact
    { spec := rfl
      ordinal := rfl
      sound :=
        { revision := hsound.revision
          request := hsound.request
          attempts := hle
          bypasses := hsound.bypasses
          terminal := by simp [hsound.not_settled hterminal]
          retry := by simp }
      terminal := fun _ h => h
      ready := fun _ _ => hwork.ready record hrecord
        (by rw [hqueued]; decide) hterminal }

/-- A rewritten record is held as before. -/
theorem holds_of_rewrite (hrewrite : Rewrite binding work record next) :
    next.id = record.id ∧ next.phase.isActive = record.phase.isActive ∧
      ∀ reservation, Holds reservation record → Holds reservation next := by
  cases hrewrite with
  | ready hphase _ =>
      refine ⟨rfl, by rw [hphase]; rfl, fun _ h => ?_⟩
      exact ⟨h.id, h.owner, h.revision, h.resources, h.attempt,
        fun h => (by cases h), fun h => (by cases h)⟩
  | settle outcome hphase =>
      refine ⟨rfl, ?_, fun _ h => ?_⟩
      · rcases hphase with hphase | hphase | hphase <;> rw [hphase] <;> rfl
      · exact ⟨h.id, h.owner, h.revision, h.resources, h.attempt,
          fun h => (by cases h), fun h => (by cases h)⟩
  | retry hphase _ =>
      refine ⟨rfl, by rw [hphase]; rfl, fun _ h => ?_⟩
      exact ⟨h.id, h.owner, h.revision, h.resources, h.attempt,
        fun h => (by cases h), fun h => (by cases h)⟩
  | cancelling hactive =>
      refine ⟨rfl, by rw [hactive]; rfl, fun _ h => ?_⟩
      exact ⟨h.id, h.owner, h.revision, h.resources, h.attempt,
        fun h => (by cases h), fun h => (by cases h)⟩
  | bypass value _ _ =>
      exact ⟨rfl, rfl, fun _ h => ⟨h.id, h.owner, h.revision, h.resources,
        h.attempt, h.reserved, h.running⟩⟩

theorem attempts_of_rewrite (hrewrite : Rewrite binding work record next) :
    next.attemptsStarted = record.attemptsStarted := by
  cases hrewrite <;> rfl

theorem inactive_of_release (hrelease : Release record next) :
    next.phase.isActive = false := by
  cases hrelease <;> rfl

theorem attempts_of_release (hrelease : Release record next) :
    next.attemptsStarted = record.attemptsStarted := by
  cases hrelease <;> rfl

end Rows

/-! ### Edits of a state -/

/-- The reservation of a selected pair. -/
def selectedBy (record : WorkRecord) (worker : WorkerRecord)
    (attempt : AttemptNumber) (dispatchId : DispatchId)
    (dispatchToken : Sha256Digest) : SchedulerReservation where
  workId := record.spec.id
  dispatchId := dispatchId
  workerId := worker.descriptor.id
  owner := record.spec.owner
  attempt := attempt
  revision := record.spec.revision
  resources := record.spec.request
  dispatchToken := dispatchToken
  started := false

def reservedBy (state : SchedulerState) (begun : WorkRecord)
    (reservation : SchedulerReservation) : SchedulerState :=
  insertReservation
    (retainDispatchIdentity
      { state with
        work := replaceRow WorkRecord.id begun state.work
        dispatchOrdinal := state.dispatchOrdinal + 1 }
      reservation.dispatchId)
    reservation

def admittedTo (state : SchedulerState) (spec : WorkSpec) : SchedulerState :=
  insertWork { state with enqueueOrdinal := state.enqueueOrdinal + 1 }
    (WorkRecord.new spec
      (if spec.dependencies = [] then .queued else .waitingDependencies)
      (state.enqueueOrdinal + 1))

section Edit

variable (sha256 : List UInt8 → Sha256Digest) (kind : SchedulerCommandKind)

inductive Edit (state : SchedulerState) : SchedulerState → Prop
  | worker {worker : WorkerRecord} (phase : WorkerPhase)
      (hworker : worker ∈ state.workers)
      (hidle : phase = .lost ∨ phase = .removed →
        ∀ reservation ∈ state.reservations, reservation.workerId ≠ worker.id) :
      Edit state
        { state with
          workers :=
            replaceRow WorkerRecord.id { worker with phase } state.workers }
  | register {descriptor : WorkerDescriptor}
      (hkind : kind = .registerWorker descriptor)
      (hroom : state.workers.length < state.binding.limits.workers)
      (hfresh : ∀ worker ∈ state.workers, worker.id ≠ descriptor.id)
      (hfits : descriptor.capacity.fitsWithin state.binding.capacity = true) :
      Edit state (insertWorker state ⟨descriptor, .available⟩)
  | admitted {spec : WorkSpec} (hkind : kind = .admitWork spec)
      (hopen : state.phase ≠ .terminal)
      (hchecked : checkAdmission state spec = .ok ()) :
      Edit state (admittedTo state spec)
  | rewrite {record next : WorkRecord} (hrecord : record ∈ state.work)
      (hrewrite : Rewrite state.binding state.work record next) :
      Edit state
        { state with work := replaceRow WorkRecord.id next state.work }
  | release {reservation : SchedulerReservation} {record next : WorkRecord}
      (hreservation : reservation ∈ state.reservations)
      (hrecord : record ∈ state.work) (hid : record.id = reservation.workId)
      (hrelease : Release record next) :
      Edit state
        { state with
          reservations := others SchedulerReservation.dispatchId reservation
            state.reservations
          work := replaceRow WorkRecord.id next state.work }
  | start {reservation : SchedulerReservation} {record : WorkRecord}
      (hkind : kind = .acknowledgeStart reservation.dispatchId)
      (hreservation : reservation ∈ state.reservations)
      (hrecord : record ∈ state.work) (hid : record.id = reservation.workId) :
      Edit state
        { state with
          reservations := replaceRow SchedulerReservation.dispatchId
            { reservation with started := true } state.reservations
          work := replaceRow WorkRecord.id (record.setPhase .running) state.work }
  | reserve {record begun : WorkRecord} {worker : WorkerRecord}
      {attempt : AttemptNumber} {dispatchId : DispatchId}
      {dispatchToken : Sha256Digest}
      (hkind : kind = .dispatchNext dispatchId dispatchToken)
      (hroom : state.reservations.length <
        state.binding.limits.activeReservations)
      (hfresh : dispatchId ∉ state.usedDispatches)
      (hhistory : state.usedDispatches.length < 65535)
      (hrecord : record ∈ state.work) (hworker : worker ∈ state.workers)
      (hfeasible : Feasible state record worker)
      (hbegin : record.tryBeginAttempt = some (attempt, begun)) :
      Edit state (reservedBy state begun
        (selectedBy record worker attempt dispatchId dispatchToken))
  | control {phase : SchedulerPhase} (hopen : state.phase ≠ .terminal)
      (hphase : phase ≠ .terminal) : Edit state { state with phase }
  | finalize (hterminal : state.allWorkTerminal = true)
      (hidle : state.reservations = []) :
      Edit state (setTerminal state (evaluate sha256 state.work))

abbrev EditRun : SchedulerState → SchedulerState → Prop :=
  Relation.ReflTransGen (Edit sha256 kind)

end Edit

/-! ### Soundness -/

section Soundness

variable {sha256 : List UInt8 → Sha256Digest} {kind : SchedulerCommandKind}
variable {state next : SchedulerState}

theorem work_of_rows (hsound : Sound state) {record updated : WorkRecord}
    (hrecord : record ∈ state.work)
    (hrow : RowStep state.binding state.work record updated) :
    WorkSound state.binding state.enqueueOrdinal
      (replaceRow WorkRecord.id updated state.work) :=
  workSound_of_rows hsound.work (rows_of_rowStep hsound.work hrecord hrow)

theorem ledger_of_rows (hsound : Sound state) {record updated : WorkRecord}
    (hrecord : record ∈ state.work) (hid : updated.id = record.id)
    (hattempts : updated.attemptsStarted = record.attemptsStarted) :
    Ledger { state with
      work := replaceRow WorkRecord.id updated state.work } where
  reservations := hsound.ledger.reservations
  dispatches := hsound.ledger.dispatches
  used := hsound.ledger.used
  enqueued := hsound.ledger.enqueued.trans length_replaceRow.symm
  dispatched := hsound.ledger.dispatched
  attempts := by
    have hsum := sum_replaceRow WorkRecord.attemptsStarted
      hsound.work.sorted hrecord hid
    have hold := hsound.ledger.attempts
    dsimp only
    omega

theorem sound_rewrite (hsound : Sound state) {record updated : WorkRecord}
    (hrecord : record ∈ state.work)
    (hrewrite : Rewrite state.binding state.work record updated) :
    Sound { state with
      work := replaceRow WorkRecord.id updated state.work } := by
  have hrow := rowStep_of_rewrite hsound.work hrecord hrewrite
  refine
    { work := work_of_rows hsound hrecord hrow
      owned := ?_
      served := hsound.served
      ledger := ledger_of_rows hsound hrecord hrow.id (attempts_of_rewrite hrewrite) }
  exact owned_of_rows hsound.owned
    (forall₂_replaceRow hsound.work.sorted hrecord hrow.id
      (fun _ _ => ⟨rfl, rfl, fun _ h => h⟩) (holds_of_rewrite hrewrite))
    fun _ _ h => h

theorem sound_release (hsound : Sound state)
    {reservation : SchedulerReservation} {record updated : WorkRecord}
    (hreservation : reservation ∈ state.reservations)
    (hrecord : record ∈ state.work) (hid : record.id = reservation.workId)
    (hrelease : Release record updated) :
    Sound { state with
      reservations := others SchedulerReservation.dispatchId reservation
        state.reservations
      work := replaceRow WorkRecord.id updated state.work } := by
  have hactive := hsound.owned.active hreservation hrecord hid
  have hrow := rowStep_of_release hsound.work hrecord hactive hrelease
  have hperm := perm_others hsound.ledger.reservations hreservation
  have hledger := ledger_of_rows hsound hrecord hrow.id
    (attempts_of_release hrelease)
  refine
    { work := work_of_rows hsound hrecord hrow
      owned := ?_
      served := served_of_release hsound.served hperm
      ledger :=
        { reservations := hsound.ledger.reservations.others
          dispatches := hledger.dispatches
          used := fun other hother =>
            hsound.ledger.used other (mem_others.mp hother).1
          enqueued := hledger.enqueued
          dispatched := hledger.dispatched
          attempts := hledger.attempts } }
  refine owned_of_transfer [reservation] [] hsound.owned hsound.work.sorted
    hrecord hrow.id hperm (List.Perm.refl _) ?_ (hsound.owned.others_ne hperm hrecord hid) ?_ ?_
  · intro other hother
    rw [List.mem_singleton.mp hother, hid]
  · intro other hother
    cases hother
  · rw [inactive_of_release hrelease]
    rfl

theorem sound_start (hsound : Sound state) {reservation : SchedulerReservation}
    {record : WorkRecord} (hreservation : reservation ∈ state.reservations)
    (hrecord : record ∈ state.work) (hid : record.id = reservation.workId) :
    Sound { state with
      reservations := replaceRow SchedulerReservation.dispatchId
        { reservation with started := true } state.reservations
      work := replaceRow WorkRecord.id (record.setPhase .running)
        state.work } := by
  obtain ⟨hterminal, hretry, hwaiting⟩ := ne_of_isActive
    (hsound.owned.active hreservation hrecord hid)
  have hrow : RowStep state.binding state.work record
      (record.setPhase .running) :=
    rowStep_setPhase hsound.work hrecord hterminal hretry
      ⟨by decide, by decide⟩ fun h => absurd h hwaiting
  have hsame : SchedulerReservation.dispatchId
      { reservation with started := true } = reservation.dispatchId := rfl
  have hperm := perm_others hsound.ledger.reservations hreservation
  have hperm' :=
    perm_replaceRow hsound.ledger.reservations hreservation hsame
  have hledger := ledger_of_rows hsound hrecord hrow.id rfl
  have hholds := hsound.owned.holds hsound.work.sorted hreservation hrecord hid
  refine
    { work := work_of_rows hsound hrecord hrow
      owned := ?_
      served := served_of_marked hsound.served hperm hperm' rfl rfl rfl
      ledger :=
        { reservations := sorted_replaceRow hsound.ledger.reservations
          dispatches := hledger.dispatches
          used := ?_
          enqueued := hledger.enqueued
          dispatched := hledger.dispatched
          attempts := hledger.attempts } }
  · refine owned_of_transfer [reservation]
      [{ reservation with started := true }] hsound.owned hsound.work.sorted hrecord hrow.id hperm hperm'
      ?_ (hsound.owned.others_ne hperm hrecord hid) ?_ rfl
    · intro other hother
      rw [List.mem_singleton.mp hother, hid]
    · intro other hother
      rw [List.mem_singleton.mp hother]
      exact ⟨hholds.id, hholds.owner, hholds.revision, hholds.resources,
        hholds.attempt, fun h => (by cases h), fun _ => rfl⟩
  · intro other hother
    rcases (mem_replaceRow hsound.ledger.reservations hreservation hsame).mp
      hother with rfl | ⟨hold, _⟩
    · exact hsound.ledger.used reservation hreservation
    · exact hsound.ledger.used other hold

theorem sorted_dispatchSlot {values : List DispatchId} {id : DispatchId}
    (hsorted : Sorted (fun id : DispatchId => id) values)
    (hfresh : id ∉ values) :
    Sorted (fun id : DispatchId => id)
      (insertAt (dispatchSlot values id) id values) := by
  refine sorted_insertAt hsorted (fun i value hi hget => ?_)
    fun i value hi hget => ?_
  · have hlt := (List.getElem?_eq_some_iff.mp hget).1
    have hnot := List.not_of_lt_findIdx hi
    have hvalue : values[i] = value :=
      (List.getElem?_eq_some_iff.mp hget).2
    rw [hvalue, decide_eq_false_iff_not, not_lt] at hnot
    exact lt_of_le_of_ne hnot fun heq =>
      hfresh (heq ▸ List.mem_of_getElem? hget)
  · have hlt := (List.getElem?_eq_some_iff.mp hget).1
    have hslot : dispatchSlot values id < values.length :=
      Nat.lt_of_le_of_lt hi hlt
    have hfirst : id < values[dispatchSlot values id] :=
      of_decide_eq_true (List.findIdx_getElem (w := hslot))
    rcases Nat.lt_or_eq_of_le hi with hlater | rfl
    · exact lt_trans hfirst
        (hsorted.lt hlater (List.getElem?_eq_getElem hslot) hget)
    · rw [List.getElem?_eq_getElem hslot, Option.some.injEq] at hget
      rwa [← hget]

theorem sound_reserve (hsound : Sound state) {record begun : WorkRecord}
    {worker : WorkerRecord} {attempt : AttemptNumber} {dispatchId : DispatchId}
    {dispatchToken : Sha256Digest} (hfresh : dispatchId ∉ state.usedDispatches)
    (hrecord : record ∈ state.work) (hworker : worker ∈ state.workers)
    (hfeasible : Feasible state record worker)
    (hbegin : record.tryBeginAttempt = some (attempt, begun)) :
    Sound (reservedBy state begun
      (selectedBy record worker attempt dispatchId dispatchToken)) := by
  have hrow := rowStep_of_begin hsound.work hrecord hfeasible.queued hbegin
  obtain ⟨hle, hattempt, rfl⟩ := tryBeginAttempt_eq_some hbegin
  have hunheld : ∀ other ∈ state.reservations, other.workId ≠ record.id := by
    have hzero := hsound.owned.owned record hrecord
    rw [hfeasible.queued] at hzero
    exact owners_eq_zero_iff.mp hzero
  have hfree : ∀ other ∈ state.reservations, other.dispatchId ≠ dispatchId :=
    fun other hother heq =>
      hfresh (heq ▸ hsound.ledger.used other hother)
  have hperm : (insertAt (slot SchedulerReservation.dispatchId dispatchId
      state.reservations)
      (selectedBy record worker attempt dispatchId dispatchToken)
      state.reservations).Perm
        (selectedBy record worker attempt dispatchId dispatchToken ::
          state.reservations) := perm_insertAt
  have hserved := served_of_reserve hsound.served hperm hworker hfeasible rfl
    rfl rfl
  refine
    { work := work_of_rows hsound hrecord hrow
      owned := ?_
      served := hserved
      ledger := ?_ }
  · refine owned_of_transfer []
      [selectedBy record worker attempt dispatchId dispatchToken]
      hsound.owned hsound.work.sorted hrecord hrow.id (List.Perm.refl _) hperm
      (fun other hother => by cases hother) hunheld ?_ rfl
    intro other hother
    rw [List.mem_singleton.mp hother]
    exact ⟨rfl, rfl, rfl, rfl, hattempt, fun _ => rfl, fun h => (by cases h)⟩
  · have hsum := sum_replaceRow WorkRecord.attemptsStarted
      hsound.work.sorted hrecord hrow.id
    have hold := hsound.ledger.attempts
    refine
      { reservations := sorted_insertAt_slot _ hsound.ledger.reservations hfree
        dispatches := sorted_dispatchSlot hsound.ledger.dispatches hfresh
        used := ?_
        enqueued := hsound.ledger.enqueued.trans length_replaceRow.symm
        dispatched := ?_
        attempts := ?_ }
    · intro other hother
      rcases mem_insertAt.mp hother with rfl | hkept
      · exact mem_insertAt.mpr (.inl rfl)
      · exact mem_insertAt.mpr (.inr (hsound.ledger.used other hkept))
    · exact (congrArg (· + 1) hsound.ledger.dispatched).trans
        length_insertAt.symm
    · refine length_insertAt.trans ?_
      dsimp only [reservedBy, insertReservation, retainDispatchIdentity]
        at hsum ⊢
      omega

/-! ### Admission -/

/-- What the checks of an admission establish. -/
structure Admissible (state : SchedulerState) (spec : WorkSpec) : Prop where
  room : state.work.length < state.binding.limits.retainedWork
  queue : admissionCount state < state.binding.limits.queuedWork
  fresh : ∀ record ∈ state.work, record.id ≠ spec.id
  revision : spec.revision = state.binding.revision
  fits : spec.request.fitsWithin state.binding.capacity = true
  dependencies : ∀ dependency ∈ spec.dependencies,
    ∃ record ∈ state.work, record.id = dependency
  parent : ∀ parent, spec.parent = some parent →
    ∃ record ∈ state.work, record.id = parent

theorem exists_of_workItem {id : WorkId}
    (h : (state.workItem id).isSome = true) :
    ∃ record ∈ state.work, record.id = id := by
  obtain ⟨record, hfound⟩ := Option.isSome_iff_exists.mp h
  exact ⟨record, mem_of_lookup hfound⟩

theorem admissible_of_checkAdmission {spec : WorkSpec}
    (hsorted : Sorted WorkRecord.id state.work)
    (h : checkAdmission state spec = .ok ()) : Admissible state spec := by
  unfold checkAdmission at h
  simp only [ensure_bind_eq_ok_iff, ensure_eq_ok_iff, decide_eq_true_eq] at h
  obtain ⟨_, ⟨hroom, hqueue⟩, hfresh, hrevision, hfits, hdependencies, hparent,
    _⟩ := h
  refine
    { room := hroom
      queue := hqueue
      fresh := (lookup_eq_none_iff hsorted).mp (Option.isNone_iff_eq_none.mp hfresh)
      revision := hrevision
      fits := hfits
      dependencies := fun dependency hdependency => exists_of_workItem
        (List.all_eq_true.mp hdependencies dependency hdependency)
      parent := fun parent hsome => ?_ }
  rw [hasRetainedParent, hsome] at hparent
  exact exists_of_workItem hparent

theorem sound_admit (hsound : Sound state) {spec : WorkSpec}
    (hadmissible : Admissible state spec) : Sound (admittedTo state spec) := by
  have hsorted := sorted_insertAt_slot
    (WorkRecord.new spec
      (if spec.dependencies = [] then .queued else .waitingDependencies)
      (state.enqueueOrdinal + 1)) hsound.work.sorted hadmissible.fresh
  have hinactive : (if spec.dependencies = [] then WorkPhase.queued
      else .waitingDependencies).isActive = false := by
    split <;> rfl
  have hunowned : owners state.reservations spec.id = 0 := by
    refine owners_eq_zero_iff.mpr fun reservation hreservation heq => ?_
    obtain ⟨record, hrecord, hholds⟩ :=
      hsound.owned.held reservation hreservation
    exact hadmissible.fresh record hrecord (hholds.id.trans heq)
  refine
    { work := workSound_insert hsound.work hsorted ?_ rfl
        hadmissible.dependencies hadmissible.parent ?_
      owned := ⟨?_, ?_⟩
      served := hsound.served
      ledger := ?_ }
  · refine ⟨hadmissible.revision, hadmissible.fits, Nat.zero_le _,
      Nat.zero_le _, ?_, ?_⟩ <;>
      simp only [WorkRecord.new] <;> split <;> simp
  · intro hwaiting
    by_contra hsome
    exact hwaiting (if_neg hsome)
  · intro reservation hreservation
    obtain ⟨record, hrecord, hholds⟩ :=
      hsound.owned.held reservation hreservation
    exact ⟨record, mem_insertAt.mpr (.inr hrecord), hholds⟩
  · intro record hrecord
    rcases mem_insertAt.mp hrecord with rfl | hold
    · exact hunowned.trans (by simp [WorkRecord.new, hinactive])
    · exact hsound.owned.owned record hold
  · refine
      { reservations := hsound.ledger.reservations
        dispatches := hsound.ledger.dispatches
        used := hsound.ledger.used
        enqueued := (congrArg (· + 1) hsound.ledger.enqueued).trans
          length_insertAt.symm
        dispatched := hsound.ledger.dispatched
        attempts := hsound.ledger.attempts.trans ?_ }
    refine ((List.Perm.sum_nat (perm_insertAt.map _)).trans ?_).symm
    rw [List.map_cons, List.sum_cons]
    exact Nat.zero_add _

/-! ### Every edit -/

theorem sound_of_edit (hsound : Sound state)
    (hedit : Edit sha256 kind state next) : Sound next := by
  cases hedit with
  | worker phase hworker hidle =>
      exact
        { work := hsound.work
          owned := hsound.owned
          served := served_of_phase hsound.served hworker hidle
          ledger := { hsound.ledger with } }
  | @register descriptor hkind hroom hfresh hfits =>
      have hsorted := sorted_insertAt_slot
        (⟨descriptor, .available⟩ : WorkerRecord) hsound.served.sorted hfresh
      exact
        { work := hsound.work
          owned := hsound.owned
          served := served_of_register hsound.served hsorted hfresh hfits
          ledger := { hsound.ledger with } }
  | admitted hkind hopen hchecked =>
      exact sound_admit hsound
        (admissible_of_checkAdmission hsound.work.sorted hchecked)
  | rewrite hrecord hrewrite => exact sound_rewrite hsound hrecord hrewrite
  | release hreservation hrecord hid hrelease =>
      exact sound_release hsound hreservation hrecord hid hrelease
  | start hkind hreservation hrecord hid =>
      exact sound_start hsound hreservation hrecord hid
  | reserve hkind hroom hfresh hhistory hrecord hworker hfeasible hbegin =>
      exact sound_reserve hsound hfresh hrecord hworker hfeasible hbegin
  | control hopen hphase => exact { hsound with ledger := { hsound.ledger with } }
  | finalize hterminal hidle =>
      exact { hsound with ledger := { hsound.ledger with } }

theorem sound_of_edits (hsound : Sound state)
    (hedits : EditRun sha256 kind state next) : Sound next := by
  induction hedits with
  | refl => exact hsound
  | tail _ hedit ih => exact sound_of_edit ih hedit

/-- The history of dispatches is never cut. -/
theorem used_of_edit (hedit : Edit sha256 kind state next) :
    ∀ id ∈ state.usedDispatches, id ∈ next.usedDispatches := by
  cases hedit with
  | reserve => exact fun id hid => mem_insertAt.mpr (.inr hid)
  | _ => exact fun id hid => hid

theorem used_of_edits (hedits : EditRun sha256 kind state next) :
    ∀ id ∈ state.usedDispatches, id ∈ next.usedDispatches := by
  induction hedits with
  | refl => exact fun id hid => hid
  | tail _ hedit ih => exact fun id hid => used_of_edit hedit id (ih id hid)

end Soundness

end Peritus.Scheduler.Edits
