import Peritus.Scheduler.Selection

/-!
What ties the three tables of a scheduler together: the work records among
themselves, the reservations that hold them, the workers that serve these, and
the history of dispatches.
-/

namespace Peritus.Scheduler.Invariant

open Peritus.Types Collections SortedTable Limits Resource State Selection

/-! ### Work records -/

structure RecordSound (binding : SchedulerBinding) (record : WorkRecord) :
    Prop where
  revision : record.spec.revision = binding.revision
  request : record.spec.request.fitsWithin binding.capacity = true
  attempts : record.attemptsStarted ≤ record.spec.maximumAttempts.get
  bypasses : record.bypasses ≤ binding.limits.bypassCount
  terminal : record.phase = .terminal ↔ record.terminal.isSome = true
  retry : record.phase = .retryPending ↔ record.retryCause.isSome = true

def Succeeded (work : List WorkRecord) (id : WorkId) : Prop :=
  ∃ record ∈ work, record.id = id ∧
    ∃ digest, record.terminal = some (.succeeded digest)

def Ready (work : List WorkRecord) (record : WorkRecord) : Prop :=
  ∀ dependency ∈ record.spec.dependencies, Succeeded work dependency

structure WorkSound (binding : SchedulerBinding) (ordinal : Nat)
    (work : List WorkRecord) : Prop where
  sorted : Sorted WorkRecord.id work
  records : ∀ record ∈ work, RecordSound binding record
  ordinals : ∀ record ∈ work, record.enqueueOrdinal ≤ ordinal
  dependencies : ∀ record ∈ work, ∀ dependency ∈ record.spec.dependencies,
    ∃ other ∈ work, other.id = dependency ∧
      other.enqueueOrdinal < record.enqueueOrdinal
  parents : ∀ record ∈ work, ∀ parent, record.spec.parent = some parent →
    ∃ other ∈ work, other.id = parent
  ready : ∀ record ∈ work, record.phase ≠ .waitingDependencies →
    record.phase ≠ .terminal → Ready work record

/-- How the row of a record may change while the table keeps its rows. -/
structure RowStep (binding : SchedulerBinding) (work : List WorkRecord)
    (record next : WorkRecord) : Prop where
  spec : next.spec = record.spec
  ordinal : next.enqueueOrdinal = record.enqueueOrdinal
  sound : RecordSound binding next
  terminal : ∀ outcome, record.terminal = some outcome →
    next.terminal = some outcome
  ready : next.phase ≠ .waitingDependencies → next.phase ≠ .terminal →
    Ready work next

section WorkRows

variable {binding : SchedulerBinding} {ordinal : Nat}
variable {work work' : List WorkRecord} {record next : WorkRecord}

theorem RecordSound.not_settled (hsound : RecordSound binding record)
    (hterminal : record.phase ≠ .terminal) : record.terminal = none := by
  cases hfound : record.terminal with
  | none => rfl
  | some outcome =>
      exact absurd (hsound.terminal.mpr (by rw [hfound]; rfl)) hterminal

theorem RecordSound.no_cause (hsound : RecordSound binding record)
    (hretry : record.phase ≠ .retryPending) : record.retryCause = none := by
  cases hfound : record.retryCause with
  | none => rfl
  | some cause =>
      exact absurd (hsound.retry.mpr (by rw [hfound]; rfl)) hretry

/-- A sound record stays sound in a phase that carries no payload. -/
theorem RecordSound.setPhase {phase : WorkPhase}
    (hsound : RecordSound binding record)
    (hterminal : record.phase ≠ .terminal)
    (hretry : record.phase ≠ .retryPending)
    (hphase : phase ≠ .terminal ∧ phase ≠ .retryPending) :
    RecordSound binding (record.setPhase phase) where
  revision := hsound.revision
  request := hsound.request
  attempts := hsound.attempts
  bypasses := hsound.bypasses
  terminal := by
    constructor
    · intro h
      exact absurd h hphase.1
    · intro h
      rw [WorkRecord.setPhase, hsound.not_settled hterminal] at h
      cases h
  retry := by
    constructor
    · intro h
      exact absurd h hphase.2
    · intro h
      rw [WorkRecord.setPhase, hsound.no_cause hretry] at h
      cases h

theorem RecordSound.terminalize (hsound : RecordSound binding record)
    (outcome : WorkTerminal) : RecordSound binding (record.terminalize outcome)
    where
  revision := hsound.revision
  request := hsound.request
  attempts := hsound.attempts
  bypasses := hsound.bypasses
  terminal := ⟨fun _ => rfl, fun _ => rfl⟩
  retry := ⟨fun h => (by cases h), fun h => (by cases h)⟩

theorem RowStep.id (hrow : RowStep binding work record next) :
    next.id = record.id :=
  congrArg WorkSpec.id hrow.spec

theorem RowStep.refl (hwork : WorkSound binding ordinal work)
    (hrecord : record ∈ work) : RowStep binding work record record where
  spec := rfl
  ordinal := rfl
  sound := hwork.records record hrecord
  terminal := fun _ h => h
  ready := hwork.ready record hrecord

theorem Succeeded.of_rows {id : WorkId}
    (hrows : List.Forall₂ (RowStep binding work) work work')
    (h : Succeeded work id) : Succeeded work' id := by
  obtain ⟨record, hrecord, hid, digest, hterminal⟩ := h
  obtain ⟨next, hnext, hrow⟩ := forall₂_mem_left hrows hrecord
  exact ⟨next, hnext, hrow.id.trans hid, digest, hrow.terminal _ hterminal⟩

theorem workSound_of_rows (hwork : WorkSound binding ordinal work)
    (hrows : List.Forall₂ (RowStep binding work) work work') :
    WorkSound binding ordinal work' where
  sorted := hwork.sorted.of_forall₂ hrows fun _ _ h => h.id
  records := by
    intro next hnext
    obtain ⟨record, _, hrow⟩ := forall₂_mem_right hrows hnext
    exact hrow.sound
  ordinals := by
    intro next hnext
    obtain ⟨record, hrecord, hrow⟩ := forall₂_mem_right hrows hnext
    rw [hrow.ordinal]
    exact hwork.ordinals record hrecord
  dependencies := by
    intro next hnext dependency hdependency
    obtain ⟨record, hrecord, hrow⟩ := forall₂_mem_right hrows hnext
    rw [hrow.spec] at hdependency
    obtain ⟨other, hother, hid, hlt⟩ :=
      hwork.dependencies record hrecord dependency hdependency
    obtain ⟨other', hother', hrow'⟩ := forall₂_mem_left hrows hother
    refine ⟨other', hother', hrow'.id.trans hid, ?_⟩
    rwa [hrow'.ordinal, hrow.ordinal]
  parents := by
    intro next hnext parent hparent
    obtain ⟨record, hrecord, hrow⟩ := forall₂_mem_right hrows hnext
    rw [hrow.spec] at hparent
    obtain ⟨other, hother, hid⟩ := hwork.parents record hrecord parent hparent
    obtain ⟨other', hother', hrow'⟩ := forall₂_mem_left hrows hother
    exact ⟨other', hother', hrow'.id.trans hid⟩
  ready := by
    intro next hnext hwaiting hterminal dependency hdependency
    obtain ⟨record, _, hrow⟩ := forall₂_mem_right hrows hnext
    exact (hrow.ready hwaiting hterminal dependency hdependency).of_rows hrows

theorem rowStep_setPhase {phase : WorkPhase}
    (hwork : WorkSound binding ordinal work) (hrecord : record ∈ work)
    (hterminal : record.phase ≠ .terminal)
    (hretry : record.phase ≠ .retryPending)
    (hphase : phase ≠ .terminal ∧ phase ≠ .retryPending)
    (hready : record.phase = .waitingDependencies → Ready work record) :
    RowStep binding work record (record.setPhase phase) where
  spec := rfl
  ordinal := rfl
  sound := (hwork.records record hrecord).setPhase hterminal hretry hphase
  terminal := fun _ h => h
  ready := by
    intro _ _
    by_cases hwaiting : record.phase = .waitingDependencies
    · exact hready hwaiting
    · exact hwork.ready record hrecord hwaiting hterminal

theorem rowStep_terminalize (hwork : WorkSound binding ordinal work)
    (hrecord : record ∈ work) (hterminal : record.phase ≠ .terminal)
    (outcome : WorkTerminal) :
    RowStep binding work record (record.terminalize outcome) where
  spec := rfl
  ordinal := rfl
  sound := (hwork.records record hrecord).terminalize outcome
  terminal := by
    intro found h
    rw [(hwork.records record hrecord).not_settled hterminal] at h
    cases h
  ready := fun _ h => absurd rfl h

/-- The rows of a table in which one record is replaced. -/
theorem rows_of_rowStep (hwork : WorkSound binding ordinal work)
    (hrecord : record ∈ work) (hrow : RowStep binding work record next) :
    List.Forall₂ (RowStep binding work) work
      (replaceRow WorkRecord.id next work) :=
  forall₂_replaceRow hwork.sorted hrecord hrow.id
    (fun _ hother => .refl hwork hother) hrow

theorem workSound_insert (hwork : WorkSound binding ordinal work)
    {position : Nat}
    (hsorted : Sorted WorkRecord.id (insertAt position record work))
    (hrecord : RecordSound binding record)
    (hordinal : record.enqueueOrdinal = ordinal + 1)
    (hdependencies : ∀ dependency ∈ record.spec.dependencies,
      ∃ other ∈ work, other.id = dependency)
    (hparent : ∀ parent, record.spec.parent = some parent →
      ∃ other ∈ work, other.id = parent)
    (hready : record.phase ≠ .waitingDependencies →
      record.spec.dependencies = []) :
    WorkSound binding (ordinal + 1) (insertAt position record work) where
  sorted := hsorted
  records := by
    intro other hother
    rcases mem_insertAt.mp hother with rfl | hold
    · exact hrecord
    · exact hwork.records other hold
  ordinals := by
    intro other hother
    rcases mem_insertAt.mp hother with rfl | hold
    · exact Nat.le_of_eq hordinal
    · exact Nat.le_succ_of_le (hwork.ordinals other hold)
  dependencies := by
    intro other hother dependency hdependency
    rcases mem_insertAt.mp hother with rfl | hold
    · obtain ⟨found, hfound, hid⟩ := hdependencies dependency hdependency
      refine ⟨found, mem_insertAt.mpr (.inr hfound), hid, ?_⟩
      rw [hordinal]
      exact Nat.lt_succ_of_le (hwork.ordinals found hfound)
    · obtain ⟨found, hfound, hrest⟩ :=
        hwork.dependencies other hold dependency hdependency
      exact ⟨found, mem_insertAt.mpr (.inr hfound), hrest⟩
  parents := by
    intro other hother parent hsome
    have hfound : ∃ found ∈ work, found.id = parent := by
      rcases mem_insertAt.mp hother with rfl | hold
      · exact hparent parent hsome
      · exact hwork.parents other hold parent hsome
    obtain ⟨found, hmem, hid⟩ := hfound
    exact ⟨found, mem_insertAt.mpr (.inr hmem), hid⟩
  ready := by
    intro other hother hwaiting hterminal dependency hdependency
    rcases mem_insertAt.mp hother with rfl | hold
    · rw [hready hwaiting] at hdependency
      cases hdependency
    · obtain ⟨found, hfound, hrest⟩ :=
        hwork.ready other hold hwaiting hterminal dependency hdependency
      exact ⟨found, mem_insertAt.mpr (.inr hfound), hrest⟩

end WorkRows

/-! ### Ownership -/

/-- A reservation and the record it holds. -/
structure Holds (reservation : SchedulerReservation) (record : WorkRecord) :
    Prop where
  id : record.id = reservation.workId
  owner : reservation.owner = record.spec.owner
  revision : reservation.revision = record.spec.revision
  resources : reservation.resources = record.spec.request
  attempt : reservation.attempt.get = record.attemptsStarted
  reserved : record.phase = .reserved → reservation.started = false
  running : record.phase = .running → reservation.started = true

def owners (reservations : List SchedulerReservation) (id : WorkId) : Nat :=
  reservations.countP fun reservation => decide (reservation.workId = id)

structure Owned (work : List WorkRecord)
    (reservations : List SchedulerReservation) : Prop where
  held : ∀ reservation ∈ reservations, ∃ record ∈ work, Holds reservation record
  owned : ∀ record ∈ work,
    owners reservations record.id = if record.phase.isActive then 1 else 0

section Ownership

variable {work work' : List WorkRecord} {record next : WorkRecord}
variable {reservations reservations' before after others :
  List SchedulerReservation} {reservation : SchedulerReservation} {id : WorkId}

theorem owners_append : owners (before ++ after) id =
    owners before id + owners after id :=
  List.countP_append

theorem owners_eq_zero_iff : owners reservations id = 0 ↔
    ∀ reservation ∈ reservations, reservation.workId ≠ id := by
  simp only [owners, List.countP_eq_zero, decide_eq_true_eq]

theorem owners_eq_length (h : ∀ reservation ∈ reservations,
    reservation.workId = id) : owners reservations id = reservations.length :=
  List.countP_eq_length.mpr fun reservation hmem =>
    decide_eq_true (h reservation hmem)

theorem owners_perm (h : reservations.Perm reservations') :
    owners reservations id = owners reservations' id :=
  h.countP_eq _

/-- The record of a reservation is held by it alone. -/
theorem Owned.active (howned : Owned work reservations)
    (hreservation : reservation ∈ reservations) (hrecord : record ∈ work)
    (hid : record.id = reservation.workId) : record.phase.isActive = true := by
  by_contra hinactive
  have hzero := howned.owned record hrecord
  rw [if_neg hinactive] at hzero
  exact owners_eq_zero_iff.mp hzero reservation hreservation hid.symm

theorem Owned.holds (howned : Owned work reservations)
    (hsorted : Sorted WorkRecord.id work)
    (hreservation : reservation ∈ reservations) (hrecord : record ∈ work)
    (hid : record.id = reservation.workId) : Holds reservation record := by
  obtain ⟨held, hheld, hholds⟩ := howned.held reservation hreservation
  rw [hsorted.inj hrecord hheld (hid.trans hholds.id.symm)]
  exact hholds

theorem Owned.owner (howned : Owned work reservations) (hrecord : record ∈ work)
    (hactive : record.phase.isActive = true) :
    ∃ reservation ∈ reservations, reservation.workId = record.id := by
  by_contra hnone
  have hone := howned.owned record hrecord
  rw [if_pos hactive, owners_eq_zero_iff.mpr fun reservation hmem hid =>
    hnone ⟨reservation, hmem, hid⟩] at hone
  cases hone

theorem Owned.others_ne (howned : Owned work reservations)
    (hperm : reservations.Perm (reservation :: others))
    (hrecord : record ∈ work) (hid : record.id = reservation.workId) :
    ∀ other ∈ others, other.workId ≠ record.id := by
  have hactive := howned.active (hperm.mem_iff.mpr List.mem_cons_self) hrecord
    hid
  have hone := howned.owned record hrecord
  rw [if_pos hactive, owners_perm hperm, owners, List.countP_cons,
    if_pos (decide_eq_true hid.symm)] at hone
  exact owners_eq_zero_iff.mp (Nat.succ.inj hone)

/-- Rows that keep their holders. -/
theorem owned_of_rows {R : WorkRecord → WorkRecord → Prop}
    (howned : Owned work reservations) (hrows : List.Forall₂ R work work')
    (hR : ∀ a b, R a b → b.id = a.id ∧ b.phase.isActive = a.phase.isActive ∧
      ∀ reservation, Holds reservation a → Holds reservation b) :
    Owned work' reservations where
  held := by
    intro reservation hmem
    obtain ⟨record, hrecord, hholds⟩ := howned.held reservation hmem
    obtain ⟨next, hnext, hrow⟩ := forall₂_mem_left hrows hrecord
    exact ⟨next, hnext, (hR _ _ hrow).2.2 reservation hholds⟩
  owned := by
    intro next hnext
    obtain ⟨record, hrecord, hrow⟩ := forall₂_mem_right hrows hnext
    obtain ⟨hid, hactive, _⟩ := hR _ _ hrow
    rw [hid, hactive]
    exact howned.owned record hrecord

/-- One record changes hands: its holders `before` become `after`, and the
other reservations hold other records. -/
theorem owned_of_transfer (before after : List SchedulerReservation)
    (howned : Owned work reservations)
    (hsorted : Sorted WorkRecord.id work) (hrecord : record ∈ work)
    (hid : next.id = record.id)
    (hperm : reservations.Perm (before ++ others))
    (hperm' : reservations'.Perm (after ++ others))
    (hbefore : ∀ reservation ∈ before, reservation.workId = record.id)
    (hothers : ∀ reservation ∈ others, reservation.workId ≠ record.id)
    (hafter : ∀ reservation ∈ after, Holds reservation next)
    (hlength : after.length = if next.phase.isActive then 1 else 0) :
    Owned (replaceRow WorkRecord.id next work) reservations' where
  held := by
    intro reservation hmem
    rcases List.mem_append.mp (hperm'.mem_iff.mp hmem) with hnew | hold
    · exact ⟨next, (mem_replaceRow hsorted hrecord hid).mpr (.inl rfl),
        hafter reservation hnew⟩
    · obtain ⟨held, hheld, hholds⟩ := howned.held reservation
        (hperm.mem_iff.mpr (List.mem_append_right _ hold))
      refine ⟨held, (mem_replaceRow hsorted hrecord hid).mpr
        (.inr ⟨hheld, ?_⟩), hholds⟩
      rw [hholds.id]
      exact hothers reservation hold
  owned := by
    intro other hother
    rw [owners_perm hperm', owners_append]
    rcases (mem_replaceRow hsorted hrecord hid).mp hother
      with rfl | ⟨hkept, hne⟩
    · rw [owners_eq_length fun reservation hmem => (hafter reservation hmem).id.symm,
        hlength, hid, owners_eq_zero_iff.mpr hothers, Nat.add_zero]
    · have hafter' : owners after other.id = 0 :=
        owners_eq_zero_iff.mpr fun reservation hmem heq => hne <| by
          rw [← heq, ← (hafter reservation hmem).id, hid]
      have hbefore' : owners before other.id = 0 :=
        owners_eq_zero_iff.mpr fun reservation hmem heq => hne <| by
          rw [← heq, hbefore reservation hmem]
      have hkeeps := howned.owned other hkept
      rw [owners_perm hperm, owners_append, hbefore'] at hkeeps
      rw [hafter']
      exact hkeeps

end Ownership

/-! ### Service -/

/-- A worker and a reservation it serves. -/
structure Serves (worker : WorkerRecord) (reservation : SchedulerReservation) :
    Prop where
  id : worker.id = reservation.workerId
  owner : reservation.owner = worker.descriptor.owner
  fits : reservation.resources.fitsWithin worker.descriptor.capacity = true
  live : worker.phase ≠ .lost ∧ worker.phase ≠ .removed

structure Served (binding : SchedulerBinding) (workers : List WorkerRecord)
    (reservations : List SchedulerReservation) : Prop where
  sorted : Sorted WorkerRecord.id workers
  fits : ∀ worker ∈ workers,
    worker.descriptor.capacity.fitsWithin binding.capacity = true
  served : ∀ reservation ∈ reservations,
    ∃ worker ∈ workers, Serves worker reservation
  concurrency : ∀ worker ∈ workers,
    (reservations.countP fun reservation =>
      decide (reservation.workerId = worker.id)) ≤
      worker.descriptor.concurrency
  onWorker : ∀ worker ∈ workers, ∀ kind,
    workerQuantityFrom worker.id kind reservations ≤
      worker.descriptor.capacity.quantity kind
  global : ∀ kind, globalQuantityFrom kind reservations ≤
    binding.capacity.quantity kind

section Service

variable {binding : SchedulerBinding} {workers workers' : List WorkerRecord}
variable {reservations reservations' : List SchedulerReservation}
variable {reservation : SchedulerReservation} {worker : WorkerId}
variable {kind : ResourceKind}

theorem globalQuantityFrom_eq : globalQuantityFrom kind reservations =
    (reservations.map fun reservation =>
      reservation.resources.quantity kind).sum := by
  induction reservations with
  | nil => rfl
  | cons reservation rest ih =>
      rw [globalQuantityFrom, ih, List.map_cons, List.sum_cons]

theorem workerQuantityFrom_eq : workerQuantityFrom worker kind reservations =
    (reservations.map fun reservation =>
      if reservation.workerId = worker then
        reservation.resources.quantity kind
      else 0).sum := by
  induction reservations with
  | nil => rfl
  | cons reservation rest ih =>
      rw [workerQuantityFrom, ih, List.map_cons, List.sum_cons]
      split <;> simp

theorem globalQuantityFrom_perm (h : reservations.Perm reservations') :
    globalQuantityFrom kind reservations =
      globalQuantityFrom kind reservations' := by
  rw [globalQuantityFrom_eq, globalQuantityFrom_eq]
  exact List.Perm.sum_nat (h.map _)

theorem workerQuantityFrom_perm (h : reservations.Perm reservations') :
    workerQuantityFrom worker kind reservations =
      workerQuantityFrom worker kind reservations' := by
  rw [workerQuantityFrom_eq, workerQuantityFrom_eq]
  exact List.Perm.sum_nat (h.map _)

theorem workerQuantityFrom_cons_le :
    workerQuantityFrom worker kind reservations ≤
      workerQuantityFrom worker kind (reservation :: reservations) := by
  rw [workerQuantityFrom]
  split <;> omega

/-- Fewer reservations are served by the same workers. -/
theorem served_of_release (hserved : Served binding workers reservations)
    (hperm : reservations.Perm (reservation :: reservations')) :
    Served binding workers reservations' where
  sorted := hserved.sorted
  fits := hserved.fits
  served := fun other hother =>
    hserved.served other (hperm.mem_iff.mpr (List.mem_cons_of_mem _ hother))
  concurrency := by
    intro served hmem
    have hle := hserved.concurrency served hmem
    rw [hperm.countP_eq, List.countP_cons] at hle
    exact Nat.le_trans (Nat.le_add_right _ _) hle
  onWorker := by
    intro served hmem kind
    have hle := hserved.onWorker served hmem kind
    rw [workerQuantityFrom_perm hperm] at hle
    exact Nat.le_trans workerQuantityFrom_cons_le hle
  global := by
    intro kind
    have hle := hserved.global kind
    rw [globalQuantityFrom_perm hperm, globalQuantityFrom] at hle
    omega

/-- A reservation is marked, and what it takes and from whom stays. -/
theorem served_of_marked {others : List SchedulerReservation}
    {marked : SchedulerReservation}
    (hserved : Served binding workers reservations)
    (hperm : reservations.Perm (reservation :: others))
    (hperm' : reservations'.Perm (marked :: others))
    (hworker : marked.workerId = reservation.workerId)
    (howner : marked.owner = reservation.owner)
    (hresources : marked.resources = reservation.resources) :
    Served binding workers reservations' where
  sorted := hserved.sorted
  fits := hserved.fits
  served := by
    intro other hother
    rcases List.mem_cons.mp (hperm'.mem_iff.mp hother) with rfl | hkept
    · obtain ⟨found, hfound, hserves⟩ := hserved.served reservation
        (hperm.mem_iff.mpr List.mem_cons_self)
      refine ⟨found, hfound, ?_⟩
      exact
        { id := hserves.id.trans hworker.symm
          owner := howner.trans hserves.owner
          fits := by rw [hresources]; exact hserves.fits
          live := hserves.live }
    · exact hserved.served other
        (hperm.mem_iff.mpr (List.mem_cons_of_mem _ hkept))
  concurrency := by
    intro found hfound
    have hle := hserved.concurrency found hfound
    rw [hperm.countP_eq, List.countP_cons] at hle
    rwa [hperm'.countP_eq, List.countP_cons, hworker]
  onWorker := by
    intro found hfound kind
    have hle := hserved.onWorker found hfound kind
    rw [workerQuantityFrom_perm hperm, workerQuantityFrom] at hle
    rwa [workerQuantityFrom_perm hperm', workerQuantityFrom, hworker,
      hresources]
  global := by
    intro kind
    have hle := hserved.global kind
    rw [globalQuantityFrom_perm hperm, globalQuantityFrom] at hle
    rwa [globalQuantityFrom_perm hperm', globalQuantityFrom, hresources]

/-- A feasible pair is served. -/
theorem served_of_reserve {state : SchedulerState} {record : WorkRecord}
    {found : WorkerRecord}
    (hserved : Served state.binding state.workers state.reservations)
    (hperm : reservations'.Perm (reservation :: state.reservations))
    (hfound : found ∈ state.workers) (hfeasible : Feasible state record found)
    (hworker : reservation.workerId = found.id)
    (howner : reservation.owner = record.spec.owner)
    (hresources : reservation.resources = record.spec.request) :
    Served state.binding state.workers reservations' where
  sorted := hserved.sorted
  fits := hserved.fits
  served := by
    intro other hother
    rcases List.mem_cons.mp (hperm.mem_iff.mp hother) with rfl | hkept
    · refine ⟨found, hfound, ?_⟩
      have hfits : other.resources.fitsWithin found.descriptor.capacity =
          true := by
        rw [hresources, fitsWithin_iff]
        intro kind
        have hle := quantity_add_le_of_entries kind
          (fun kind => workerQuantityFrom found.id kind state.reservations)
          hfeasible.onWorker (hserved.onWorker found hfound kind)
        omega
      exact
        { id := hworker.symm
          owner := howner.trans hfeasible.owner.symm
          fits := hfits
          live := by rw [hfeasible.available]; exact ⟨by decide, by decide⟩ }
    · exact hserved.served other hkept
  concurrency := by
    intro other hother
    have hle := hserved.concurrency other hother
    rw [hperm.countP_eq, List.countP_cons]
    split
    · rename_i hsame
      have hother' : other = found := hserved.sorted.inj hother hfound
        ((of_decide_eq_true hsame).symm.trans hworker)
      have hlt := hfeasible.concurrency
      rw [workerReservationCount, ← hother'] at hlt
      exact hlt
    · exact hle
  onWorker := by
    intro other hother kind
    have hle := hserved.onWorker other hother kind
    rw [workerQuantityFrom_perm hperm, workerQuantityFrom]
    split
    · rename_i hsame
      have hother' : other = found :=
        hserved.sorted.inj hother hfound (hsame.symm.trans hworker)
      subst hother'
      have hadd := quantity_add_le_of_entries kind
        (fun kind => workerQuantityFrom other.id kind state.reservations)
        hfeasible.onWorker hle
      rw [hresources]
      omega
    · exact hle
  global := by
    intro kind
    have hadd := quantity_add_le_of_entries kind
      (fun kind => globalQuantityFrom kind state.reservations)
      hfeasible.global (hserved.global kind)
    rw [globalQuantityFrom_perm hperm, globalQuantityFrom, hresources]
    omega

/-- A worker changes its phase, and is neither lost nor removed while it owns
anything. -/
theorem served_of_phase {record : WorkerRecord} {phase : WorkerPhase}
    (hserved : Served binding workers reservations) (hrecord : record ∈ workers)
    (hidle : phase = .lost ∨ phase = .removed →
      ∀ reservation ∈ reservations, reservation.workerId ≠ record.id) :
    Served binding
      (replaceRow WorkerRecord.id { record with phase } workers)
      reservations := by
  have hmem : ∀ {other}, other ∈ replaceRow WorkerRecord.id
      { record with phase } workers ↔
      other = { record with phase } ∨ other ∈ workers ∧ other.id ≠ record.id :=
    mem_replaceRow hserved.sorted hrecord rfl
  have hkept : ∀ other ∈ replaceRow WorkerRecord.id
      { record with phase } workers,
      ∃ prior ∈ workers, prior.descriptor = other.descriptor := by
    intro other hother
    rcases hmem.mp hother with rfl | ⟨hold, _⟩
    · exact ⟨record, hrecord, rfl⟩
    · exact ⟨other, hold, rfl⟩
  refine
    { sorted := sorted_replaceRow hserved.sorted
      fits := ?_, served := ?_, concurrency := ?_, onWorker := ?_
      global := hserved.global }
  · intro other hother
    obtain ⟨prior, hprior, hdescriptor⟩ := hkept other hother
    rw [← hdescriptor]
    exact hserved.fits prior hprior
  · intro reservation hreservation
    obtain ⟨found, hfound, hserves⟩ := hserved.served reservation hreservation
    by_cases hsame : found.id = record.id
    · obtain rfl := hserved.sorted.inj hfound hrecord hsame
      refine ⟨{ found with phase }, hmem.mpr (.inl rfl), hserves.id,
        hserves.owner, hserves.fits, ?_⟩
      constructor
      · intro hlost
        exact hidle (.inl hlost) reservation hreservation hserves.id.symm
      · intro hremoved
        exact hidle (.inr hremoved) reservation hreservation hserves.id.symm
    · exact ⟨found, hmem.mpr (.inr ⟨hfound, hsame⟩), hserves⟩
  · intro other hother
    obtain ⟨prior, hprior, hdescriptor⟩ := hkept other hother
    have hle := hserved.concurrency prior hprior
    unfold WorkerRecord.id at hle ⊢
    rwa [hdescriptor] at hle
  · intro other hother kind
    obtain ⟨prior, hprior, hdescriptor⟩ := hkept other hother
    have hle := hserved.onWorker prior hprior kind
    unfold WorkerRecord.id at hle ⊢
    rwa [hdescriptor] at hle

theorem served_of_register {record : WorkerRecord} {position : Nat}
    (hserved : Served binding workers reservations)
    (hsorted : Sorted WorkerRecord.id (insertAt position record workers))
    (hfresh : ∀ other ∈ workers, other.id ≠ record.id)
    (hfits : record.descriptor.capacity.fitsWithin binding.capacity = true) :
    Served binding (insertAt position record workers) reservations := by
  have hidle : ∀ reservation ∈ reservations,
      reservation.workerId ≠ record.id := by
    intro reservation hreservation heq
    obtain ⟨found, hfound, hserves⟩ := hserved.served reservation hreservation
    exact hfresh found hfound (hserves.id.trans heq)
  refine
    { sorted := hsorted
      fits := ?_, served := ?_, concurrency := ?_, onWorker := ?_
      global := hserved.global }
  · intro other hother
    rcases mem_insertAt.mp hother with rfl | hold
    · exact hfits
    · exact hserved.fits other hold
  · intro reservation hreservation
    obtain ⟨found, hfound, hserves⟩ := hserved.served reservation hreservation
    exact ⟨found, mem_insertAt.mpr (.inr hfound), hserves⟩
  · intro other hother
    rcases mem_insertAt.mp hother with rfl | hold
    · rw [List.countP_eq_zero.mpr fun reservation hmem h =>
        hidle reservation hmem (of_decide_eq_true h)]
      exact Nat.zero_le _
    · exact hserved.concurrency other hold
  · intro other hother kind
    rcases mem_insertAt.mp hother with rfl | hold
    · rw [workerQuantityFrom_eq, sum_map_eq_zero fun reservation hmem =>
        if_neg (hidle reservation hmem)]
      exact Nat.zero_le _
    · exact hserved.onWorker other hold kind

end Service

/-! ### The whole state -/

/-- The history of dispatches, beside the ordinals that count it. -/
structure Ledger (state : SchedulerState) : Prop where
  reservations : Sorted SchedulerReservation.dispatchId state.reservations
  dispatches : Sorted (fun id : DispatchId => id) state.usedDispatches
  used : ∀ reservation ∈ state.reservations,
    reservation.dispatchId ∈ state.usedDispatches
  enqueued : state.enqueueOrdinal = state.work.length
  dispatched : state.dispatchOrdinal = state.usedDispatches.length
  attempts : state.usedDispatches.length =
    (state.work.map WorkRecord.attemptsStarted).sum

structure Sound (state : SchedulerState) : Prop where
  work : WorkSound state.binding state.enqueueOrdinal state.work
  owned : Owned state.work state.reservations
  served : Served state.binding state.workers state.reservations
  ledger : Ledger state

theorem sound_genesis (binding : SchedulerBinding) (eventId : EventId)
    (commandId : CommandId) :
    Sound (SchedulerState.genesis binding eventId commandId) where
  work :=
    { sorted := .nil
      records := fun _ h => by cases h
      ordinals := fun _ h => by cases h
      dependencies := fun _ h => by cases h
      parents := fun _ h => by cases h
      ready := fun _ h => by cases h }
  owned := ⟨fun _ h => (by cases h), fun _ h => (by cases h)⟩
  served :=
    { sorted := .nil
      fits := fun _ h => by cases h
      served := fun _ h => by cases h
      concurrency := fun _ h => by cases h
      onWorker := fun _ h => by cases h
      global := fun _ => Nat.zero_le _ }
  ledger :=
    { reservations := .nil
      dispatches := .nil
      used := fun _ h => by cases h
      enqueued := rfl
      dispatched := rfl
      attempts := rfl }

end Peritus.Scheduler.Invariant
