import Peritus.Scheduler.Bypass
import Peritus.Scheduler.Capacity

/-!
The choice of the next dispatch.  The scan of the work table returns the first
record of least rank among those that some worker can take, with the first such
worker, and in a reachable state a dispatch of that pair goes through.
-/

namespace Peritus.Scheduler.Choice

open Peritus.Types Checked TransitionSystem SortedTable Limits State Selection
open Mutation Reducer Invariant Edits Ownership Bypass Capacity

variable {sha256 : List UInt8 → Sha256Digest} {kind : SchedulerCommandKind}
variable {state next : SchedulerState} {record updated : WorkRecord}

/-! ### Pairs that can run -/

/-- A record that a worker can take now, as the scan tests it. -/
structure CanRun (state : SchedulerState) (record : WorkRecord)
    (worker : WorkerRecord) : Prop where
  queued : record.phase = .queued
  global : globalFitsAfter state record.spec.request = true
  worker : workerIsFeasibleFor state record worker = true

theorem firstFeasibleWorker_eq_some_iff {workerIndex : Nat} :
    firstFeasibleWorker state record = some workerIndex ↔
      ∃ worker, state.workers[workerIndex]? = some worker ∧
        CanRun state record worker ∧
        ∀ earlier < workerIndex, ∀ other,
          state.workers[earlier]? = some other → ¬ CanRun state record other := by
  unfold firstFeasibleWorker
  split
  · rename_i hopen
    rw [List.findIdx?_eq_some_iff_getElem]
    constructor
    · rintro ⟨hlt, hfeasible, hfirst⟩
      refine ⟨_, List.getElem?_eq_getElem hlt, ⟨hopen.1, hopen.2, hfeasible⟩, ?_⟩
      intro earlier hearlier other hother hruns
      obtain ⟨hbound, rfl⟩ := List.getElem?_eq_some_iff.mp hother
      exact hfirst earlier hearlier hruns.worker
    · rintro ⟨worker, hworker, hruns, hfirst⟩
      obtain ⟨hlt, rfl⟩ := List.getElem?_eq_some_iff.mp hworker
      refine ⟨hlt, hruns.worker, fun earlier hearlier hfeasible => ?_⟩
      exact hfirst earlier hearlier _
        (List.getElem?_eq_getElem (hearlier.trans hlt))
        ⟨hopen.1, hopen.2, hfeasible⟩
  · rename_i hclosed
    constructor
    · intro h
      cases h
    · rintro ⟨worker, -, hruns, -⟩
      exact absurd ⟨hruns.queued, hruns.global⟩ hclosed

theorem isSome_firstFeasibleWorker_iff :
    (firstFeasibleWorker state record).isSome = true ↔
      ∃ worker ∈ state.workers, CanRun state record worker := by
  unfold firstFeasibleWorker
  split
  · rename_i hopen
    rw [List.findIdx?_isSome, List.any_eq_true]
    constructor
    · rintro ⟨worker, hworker, hfeasible⟩
      exact ⟨worker, hworker, hopen.1, hopen.2, hfeasible⟩
    · rintro ⟨worker, hworker, hruns⟩
      exact ⟨worker, hworker, hruns.worker⟩
  · rename_i hclosed
    constructor
    · intro h
      cases h
    · rintro ⟨worker, -, hruns⟩
      exact absurd ⟨hruns.queued, hruns.global⟩ hclosed

/-- With no more reservations than the check admits, a pair can run exactly if
the worker is free for the work and the request fits beside what is reserved. -/
theorem canRun_iff {worker : WorkerRecord}
    (hlength : state.reservations.length ≤ 4096) :
    CanRun state record worker ↔
      record.phase = .queued ∧ worker.phase = .available ∧
      worker.descriptor.owner = record.spec.owner ∧
      worker.descriptor.supports record.spec.executionClass = true ∧
      workerReservationCount state worker.id < worker.descriptor.concurrency ∧
      FitsBeside state.binding.capacity record.spec.request
        state.reservations ∧
      FitsBeside worker.descriptor.capacity record.spec.request
        (ofWorker worker.id state.reservations) := by
  rw [← globalFitsAfter_iff hlength, ← workerFitsAfter_iff hlength]
  constructor
  · rintro ⟨hqueued, hglobal, hworker⟩
    simp only [workerIsFeasibleFor, Bool.and_eq_true, decide_eq_true_eq]
      at hworker
    obtain ⟨⟨⟨⟨havailable, howner⟩, hsupports⟩, hcount⟩, hfits⟩ := hworker
    exact ⟨hqueued, havailable, howner, hsupports, hcount, hglobal, hfits⟩
  · rintro ⟨hqueued, havailable, howner, hsupports, hcount, hglobal, hfits⟩
    refine ⟨hqueued, hglobal, ?_⟩
    simp [workerIsFeasibleFor, havailable, howner, hsupports, hcount, hfits]

/-! ### The scan of the table -/

/-- The order of the scan: by rank, and then by place in the table. -/
def turn (state : SchedulerState) (workIndex : Nat) (record : WorkRecord) :
    (Nat ×ₗ Nat ×ₗ Nat ×ₗ Nat) ×ₗ Nat :=
  toLex (rank state record, workIndex)

/-- The candidate whose turn comes first among the rows below a bound. -/
structure Leads (state : SchedulerState) (bound : Nat) (candidate : Candidate) :
    Prop where
  earlier : candidate.workIndex < bound
  row : state.work[candidate.workIndex]? = some candidate.record
  worker : firstFeasibleWorker state candidate.record =
    some candidate.workerIndex
  least : ∀ i < bound, ∀ record, state.work[i]? = some record →
    (firstFeasibleWorker state record).isSome = true →
    turn state candidate.workIndex candidate.record ≤ turn state i record

/-- What the scan knows of the rows below a bound. -/
def Scanned (state : SchedulerState) (bound : Nat) (chosen : Option Candidate) :
    Prop :=
  match chosen with
  | none => ∀ i < bound, ∀ record, state.work[i]? = some record →
      firstFeasibleWorker state record = none
  | some candidate => Leads state bound candidate

theorem scanned_considerWork {bound : Nat} {chosen : Option Candidate}
    (h : Scanned state bound chosen) (hrow : state.work[bound]? = some record) :
    Scanned state (bound + 1) (considerWork state bound record chosen) := by
  unfold considerWork
  cases hfirst : firstFeasibleWorker state record with
  | none =>
      cases chosen with
      | none =>
          intro i hi other hother
          rcases Nat.lt_succ_iff_lt_or_eq.mp hi with hlt | rfl
          · exact h i hlt other hother
          · cases hrow.symm.trans hother
            exact hfirst
      | some current =>
          refine ⟨Nat.lt_succ_of_lt h.earlier, h.row, h.worker, ?_⟩
          intro i hi other hother hfeasible
          rcases Nat.lt_succ_iff_lt_or_eq.mp hi with hlt | rfl
          · exact h.least i hlt other hother hfeasible
          · cases hrow.symm.trans hother
            rw [hfirst] at hfeasible
            cases hfeasible
  | some workerIndex =>
      cases chosen with
      | none =>
          refine ⟨Nat.lt_succ_self _, hrow, hfirst, ?_⟩
          intro i hi other hother hfeasible
          rcases Nat.lt_succ_iff_lt_or_eq.mp hi with hlt | rfl
          · rw [h i hlt other hother] at hfeasible
            cases hfeasible
          · cases hrow.symm.trans hother
            exact le_rfl
      | some current =>
          dsimp only
          by_cases hprecedes : candidatePrecedes state record current.record
          · rw [if_pos hprecedes]
            have hlt : turn state bound record <
                turn state current.workIndex current.record :=
              Prod.Lex.toLex_lt_toLex.mpr
                (.inl (candidatePrecedes_iff.mp hprecedes))
            refine ⟨Nat.lt_succ_self _, hrow, hfirst, ?_⟩
            intro i hi other hother hfeasible
            rcases Nat.lt_succ_iff_lt_or_eq.mp hi with hbelow | rfl
            · exact hlt.le.trans (h.least i hbelow other hother hfeasible)
            · cases hrow.symm.trans hother
              exact le_rfl
          · rw [if_neg hprecedes]
            have hle : rank state current.record ≤ rank state record :=
              not_lt.mp fun hlt => hprecedes (candidatePrecedes_iff.mpr hlt)
            have hturn : turn state current.workIndex current.record ≤
                turn state bound record :=
              Prod.Lex.toLex_mono ⟨hle, h.earlier.le⟩
            refine ⟨Nat.lt_succ_of_lt h.earlier, h.row, h.worker, ?_⟩
            intro i hi other hother hfeasible
            rcases Nat.lt_succ_iff_lt_or_eq.mp hi with hbelow | rfl
            · exact h.least i hbelow other hother hfeasible
            · cases hrow.symm.trans hother
              exact hturn

theorem scanned_selectScan {bound : Nat} {records : List WorkRecord}
    {chosen : Option Candidate} (h : Scanned state bound chosen)
    (hrows : ∀ i, records[i]? = state.work[bound + i]?) :
    Scanned state (bound + records.length)
      (selectScan state bound records chosen) := by
  induction records generalizing bound chosen with
  | nil => exact h
  | cons record rest ih =>
      have hhead : state.work[bound]? = some record := (hrows 0).symm
      rw [List.length_cons, ← Nat.add_assoc, Nat.add_right_comm]
      apply ih (scanned_considerWork h hhead)
      intro i
      have hnext := hrows (i + 1)
      rw [List.getElem?_cons_succ] at hnext
      rw [hnext, Nat.add_assoc, Nat.add_comm 1 i]

theorem scanned_work (state : SchedulerState) :
    Scanned state state.work.length (selectScan state 0 state.work none) := by
  have hnone : Scanned state 0 none :=
    fun i hi => absurd hi (Nat.not_lt_zero i)
  have hrows : ∀ i : Nat, state.work[i]? = state.work[0 + i]? := by
    intro i
    rw [Nat.zero_add]
  have hscan := scanned_selectScan hnone hrows
  rwa [Nat.zero_add] at hscan

theorem Leads.unique {bound : Nat} {candidate other : Candidate}
    (h : Leads state bound candidate) (hother : Leads state bound other) :
    candidate = other := by
  have hturn : turn state candidate.workIndex candidate.record =
      turn state other.workIndex other.record := by
    apply le_antisymm
    · apply h.least _ hother.earlier _ hother.row
      rw [hother.worker]
      rfl
    · apply hother.least _ h.earlier _ h.row
      rw [h.worker]
      rfl
  obtain ⟨i, record, j⟩ := candidate
  obtain ⟨i', record', j'⟩ := other
  have hindex : i = i' := congrArg (fun pair => (ofLex pair).2) hturn
  subst hindex
  cases h.row.symm.trans hother.row
  cases h.worker.symm.trans hother.worker
  rfl

/-! ### The pair that is returned -/

/-- A record of least rank among those that can run, the first of that rank in
the table, with the first worker it can run on. -/
def FirstChoice (state : SchedulerState) (record : WorkRecord)
    (worker : WorkerRecord) : Prop :=
  ∃ workIndex workerIndex : Nat, state.work[workIndex]? = some record ∧
    state.workers[workerIndex]? = some worker ∧
    CanRun state record worker ∧
    (∀ (i : Nat) other, state.work[i]? = some other → i ≠ workIndex →
      (∃ taker ∈ state.workers, CanRun state other taker) →
      rank state record < rank state other ∨
        rank state record = rank state other ∧ workIndex < i) ∧
    ∀ earlier < workerIndex, ∀ other, state.workers[earlier]? = some other →
      ¬ CanRun state record other

/-- Records of one rank have one identity. -/
theorem id_of_rank_eq {other : WorkRecord}
    (h : rank state record = rank state other) :
    record.spec.id = other.spec.id := by
  have hplace : place record = place other :=
    congrArg (fun value => (ofLex value).2) h
  have hvalue : record.spec.id.value = other.spec.id.value :=
    congrArg (fun value => (ofLex (ofLex value).2).2) hplace
  exact OpaqueIdentifier.value_injective hvalue

theorem leads_iff {candidate : Candidate} :
    Leads state state.work.length candidate ↔
      state.work[candidate.workIndex]? = some candidate.record ∧
      firstFeasibleWorker state candidate.record =
        some candidate.workerIndex ∧
      ∀ i other, state.work[i]? = some other → i ≠ candidate.workIndex →
        (∃ taker ∈ state.workers, CanRun state other taker) →
        rank state candidate.record < rank state other ∨
          rank state candidate.record = rank state other ∧
            candidate.workIndex < i := by
  constructor
  · intro h
    refine ⟨h.row, h.worker, fun i other hother hne hruns => ?_⟩
    have hlt : i < state.work.length :=
      (List.getElem?_eq_some_iff.mp hother).1
    have hle := h.least i hlt other hother
      (isSome_firstFeasibleWorker_iff.mpr hruns)
    rcases Prod.Lex.toLex_le_toLex.mp hle with hless | ⟨hsame, hindex⟩
    · exact .inl hless
    · exact .inr ⟨hsame, lt_of_le_of_ne hindex hne.symm⟩
  · rintro ⟨hrow, hworker, hleast⟩
    refine ⟨(List.getElem?_eq_some_iff.mp hrow).1, hrow, hworker, ?_⟩
    intro i hi other hother hfeasible
    by_cases hsame : i = candidate.workIndex
    · subst hsame
      cases hrow.symm.trans hother
      exact le_rfl
    · apply Prod.Lex.toLex_le_toLex.mpr
      rcases hleast i other hother hsame
        (isSome_firstFeasibleWorker_iff.mp hfeasible) with hless | ⟨heq, hlt⟩
      · exact .inl hless
      · exact .inr ⟨heq, hlt.le⟩

theorem firstChoice_iff {worker : WorkerRecord} :
    FirstChoice state record worker ↔ ∃ candidate,
      Leads state state.work.length candidate ∧ candidate.record = record ∧
        state.workers[candidate.workerIndex]? = some worker := by
  constructor
  · rintro ⟨workIndex, workerIndex, hrow, hworker, hruns, hleast, hfirst⟩
    refine ⟨⟨workIndex, record, workerIndex⟩, ?_, rfl, hworker⟩
    exact leads_iff.mpr ⟨hrow, firstFeasibleWorker_eq_some_iff.mpr
      ⟨worker, hworker, hruns, hfirst⟩, hleast⟩
  · rintro ⟨candidate, hleads, rfl, hworker⟩
    obtain ⟨hrow, hfirst, hleast⟩ := leads_iff.mp hleads
    obtain ⟨found, hfound, hruns, hearlier⟩ :=
      firstFeasibleWorker_eq_some_iff.mp hfirst
    cases hworker.symm.trans hfound
    exact ⟨_, _, hrow, hworker, hruns, hleast, hearlier⟩

theorem scan_eq_some_iff {candidate : Candidate} :
    selectScan state 0 state.work none = some candidate ↔
      Leads state state.work.length candidate := by
  have hscanned := scanned_work state
  constructor
  · intro h
    rw [h] at hscanned
    exact hscanned
  · intro hleads
    cases hscan : selectScan state 0 state.work none with
    | none =>
        rw [hscan] at hscanned
        have hnone := hscanned _ hleads.earlier _ hleads.row
        rw [hleads.worker] at hnone
        cases hnone
    | some found =>
        rw [hscan] at hscanned
        rw [hleads.unique hscanned]

theorem selectNext_eq_some_iff {selection : Selection} :
    selectNext state = some selection ↔ ∃ record worker,
      FirstChoice state record worker ∧
        selection = ⟨record.spec.id, worker.descriptor.id⟩ := by
  unfold selectNext
  rw [Option.bind_eq_some_iff]
  constructor
  · rintro ⟨candidate, hscan, hpair⟩
    have hleads := scan_eq_some_iff.mp hscan
    obtain ⟨worker, hworker, -⟩ :=
      firstFeasibleWorker_eq_some_iff.mp hleads.worker
    rw [hleads.row, hworker] at hpair
    cases hpair
    exact ⟨candidate.record, worker,
      firstChoice_iff.mpr ⟨candidate, hleads, rfl, hworker⟩, rfl⟩
  · rintro ⟨record, worker, hchoice, rfl⟩
    obtain ⟨candidate, hleads, rfl, hworker⟩ := firstChoice_iff.mp hchoice
    refine ⟨candidate, scan_eq_some_iff.mpr hleads, ?_⟩
    rw [hleads.row, hworker]

theorem selectNext_eq_none_iff :
    selectNext state = none ↔ ∀ record ∈ state.work,
      ∀ worker ∈ state.workers, ¬ CanRun state record worker := by
  constructor
  · intro h record hrecord worker hworker hruns
    have hscanned := scanned_work state
    cases hscan : selectScan state 0 state.work none with
    | none =>
        rw [hscan] at hscanned
        obtain ⟨i, hi, hget⟩ := List.mem_iff_getElem.mp hrecord
        have hnone := hscanned i hi record (List.getElem?_eq_some_iff.mpr ⟨hi, hget⟩)
        have hsome := isSome_firstFeasibleWorker_iff.mpr ⟨worker, hworker, hruns⟩
        rw [hnone] at hsome
        cases hsome
    | some candidate =>
        have hleads := scan_eq_some_iff.mp hscan
        obtain ⟨found, hfound, -⟩ :=
          firstFeasibleWorker_eq_some_iff.mp hleads.worker
        have hchoice := firstChoice_iff.mpr ⟨candidate, hleads, rfl, hfound⟩
        rw [selectNext_eq_some_iff.mpr ⟨_, _, hchoice, rfl⟩] at h
        cases h
  · intro hnone
    rw [Option.eq_none_iff_forall_ne_some]
    rintro selection hsome
    obtain ⟨record, worker, hchoice, -⟩ := selectNext_eq_some_iff.mp hsome
    obtain ⟨workIndex, workerIndex, hrow, hworker, hruns, -⟩ := hchoice
    exact hnone record (List.mem_of_getElem? hrow) worker
      (List.mem_of_getElem? hworker) hruns

/-! ### Attempts left -/

/-- Work that waits or is queued has an attempt left, and the reservations are
no more than the scheduler allows. -/
structure Dispatchable (state : SchedulerState) : Prop where
  attempts : ∀ record ∈ state.work,
    record.phase = .waitingDependencies ∨ record.phase = .queued →
    record.attemptsStarted < record.spec.maximumAttempts.get
  reservations : state.reservations.length ≤
    state.binding.limits.activeReservations

theorem dispatchable_replaceRow (hsound : Sound state) (h : Dispatchable state)
    (hrecord : record ∈ state.work) (hid : updated.id = record.id)
    (hlength : next.reservations.length ≤
      state.binding.limits.activeReservations)
    (hupdated : updated.phase = .waitingDependencies ∨
      updated.phase = .queued →
      updated.attemptsStarted < updated.spec.maximumAttempts.get)
    (hbinding : next.binding = state.binding)
    (hwork : next.work = replaceRow WorkRecord.id updated state.work) :
    Dispatchable next := by
  constructor
  · intro other hother hphase
    rw [hwork] at hother
    rcases (mem_replaceRow hsound.work.sorted hrecord hid).mp hother with
      rfl | ⟨hold, -⟩
    · exact hupdated hphase
    · exact h.attempts other hold hphase
  · rwa [hbinding]

theorem attempts_of_rewritten {binding : SchedulerBinding}
    {work : List WorkRecord} (hrewrite : Rewrite binding work record updated)
    (hattempts : record.phase = .waitingDependencies ∨
      record.phase = .queued →
      record.attemptsStarted < record.spec.maximumAttempts.get) :
    updated.phase = .waitingDependencies ∨ updated.phase = .queued →
      updated.attemptsStarted < updated.spec.maximumAttempts.get := by
  intro hphase
  cases hrewrite with
  | ready hwaiting _ => exact hattempts (.inl hwaiting)
  | settle => rcases hphase with hphase | hphase <;> cases hphase
  | retry _ hleft => exact hleft
  | cancelling => rcases hphase with hphase | hphase <;> cases hphase
  | bypass => exact hattempts hphase

theorem attempts_of_released (hrelease : Release record updated) :
    updated.phase = .waitingDependencies ∨ updated.phase = .queued →
      updated.attemptsStarted < updated.spec.maximumAttempts.get := by
  intro hphase
  cases hrelease with
  | requeue _ hleft => exact hleft
  | retry => rcases hphase with hphase | hphase <;> cases hphase
  | settle => rcases hphase with hphase | hphase <;> cases hphase

theorem dispatchable_of_edit (hsound : Sound state) (h : Dispatchable state)
    (hedit : Edit sha256 kind state next) : Dispatchable next := by
  cases hedit with
  | worker => exact ⟨h.attempts, h.reservations⟩
  | register => exact ⟨h.attempts, h.reservations⟩
  | admitted =>
      refine ⟨fun record hrecord hphase => ?_, h.reservations⟩
      rcases mem_insertAt.mp hrecord with rfl | hold
      · exact WorkSpec.maximumAttempts _ |>.positive
      · exact h.attempts record hold hphase
  | rewrite hrecord hrewrite =>
      exact dispatchable_replaceRow hsound h hrecord
        (holds_of_rewrite hrewrite).1 h.reservations
        (attempts_of_rewritten hrewrite (h.attempts _ hrecord)) rfl rfl
  | release hreservation hrecord hid hrelease =>
      have hactive := hsound.owned.active hreservation hrecord hid
      have hrow := rowStep_of_release hsound.work hrecord hactive hrelease
      have hperm := perm_others hsound.ledger.reservations hreservation
      refine dispatchable_replaceRow hsound h hrecord hrow.id ?_
        (attempts_of_released hrelease) rfl rfl
      have hlength := hperm.length_eq
      have hbound := h.reservations
      rw [List.length_cons] at hlength
      show (others SchedulerReservation.dispatchId _ _).length ≤ _
      omega
  | @start reservation record _ hreservation hrecord hid =>
      have hsame : (record.setPhase .running).id = record.id := rfl
      refine dispatchable_replaceRow hsound h hrecord hsame ?_ ?_ rfl rfl
      · show (replaceRow SchedulerReservation.dispatchId _ _).length ≤ _
        rw [length_replaceRow]
        exact h.reservations
      · rintro (hphase | hphase) <;> cases hphase
  | reserve _ hroom _ _ hrecord _ hfeasible hbegin =>
      have hrow := rowStep_of_begin hsound.work hrecord hfeasible.queued hbegin
      refine dispatchable_replaceRow hsound h hrecord hrow.id ?_ ?_ rfl rfl
      · show (insertReservation _ _).reservations.length ≤ _
        rw [insertReservation, length_insertAt]
        exact hroom
      · obtain ⟨-, -, rfl⟩ := tryBeginAttempt_eq_some hbegin
        rintro (hphase | hphase) <;> cases hphase
  | control => exact ⟨h.attempts, h.reservations⟩
  | finalize => exact ⟨h.attempts, h.reservations⟩

theorem dispatchable_of_reachable
    (h : Reachable (Started sha256) (Accepts sha256) state) :
    Dispatchable state := by
  refine holds_of_reachable Dispatchable ?_ ?_ ?_ h
  · intro binding eventId commandId digest
    exact ⟨fun _ hrecord => (by cases hrecord), Nat.zero_le _⟩
  · intro kind first last hsound hdispatchable hedit
    exact dispatchable_of_edit hsound hdispatchable hedit
  · intro first sequence eventId commandId digest hdispatchable
    exact ⟨hdispatchable.attempts, hdispatchable.reservations⟩

/-! ### A dispatch of the pair -/

/-- The rejections of a dispatch after its selection was made. -/
def broken : List SchedulerError :=
  [limit "work attempt count overflowed",
   limit "work attempt bound is exhausted",
   unknown "selected dispatch admission disappeared"]

variable {dispatchId : DispatchId} {dispatchToken : Sha256Digest}

/-- A row with an attempt left can be reserved. -/
theorem reserveSelectedAt_eq_some {workIndex workerIndex : Nat}
    {worker : WorkerRecord} (hwork : state.work[workIndex]? = some record)
    (hworker : state.workers[workerIndex]? = some worker)
    (hattempts : record.attemptsStarted < record.spec.maximumAttempts.get)
    (hordinal : state.dispatchOrdinal < u64Max) :
    ∃ reservation reserved, reserveSelectedAt state workIndex workerIndex
        dispatchId dispatchToken = some (reservation, reserved) ∧
      reservation.workId = record.spec.id ∧
      reservation.workerId = worker.descriptor.id := by
  have hbound := record.spec.maximumAttempts.bound
  have hsmall : record.attemptsStarted ≠ 65535 := by omega
  have hopen : ¬ record.spec.maximumAttempts.get ≤ record.attemptsStarted :=
    Nat.not_le.mpr hattempts
  have hfree : state.dispatchOrdinal ≠ u64Max := Nat.ne_of_lt hordinal
  obtain ⟨attempt, begun, hbegin⟩ :
      ∃ attempt begun, record.tryBeginAttempt = some (attempt, begun) := by
    unfold WorkRecord.tryBeginAttempt
    rw [if_neg hsmall, dif_pos (Nat.succ_le_of_lt hattempts)]
    exact ⟨_, _, rfl⟩
  have hbegun : beginWorkAttemptAt state workIndex =
      some (attempt, { state with work := state.work.set workIndex begun }) := by
    simp only [beginWorkAttemptAt, hwork, hbegin, Option.bind_eq_bind,
      Option.bind_some]
  have hbroken : ¬ (record.attemptsStarted = 65535 ∨
      record.spec.maximumAttempts.get ≤ record.attemptsStarted ∨
      state.dispatchOrdinal = u64Max) := by
    rintro (h | h | h)
    · exact hsmall h
    · exact hopen h
    · exact hfree h
  unfold reserveSelectedAt selectedReservation
  simp only [hwork, hworker, hbegun, incrementDispatchOrdinal, if_neg hbroken,
    if_pos hordinal, Option.bind_eq_bind, Option.bind_some]
  exact ⟨_, _, rfl, rfl, rfl⟩

/-- The indices that are dispatched are those of the returned pair. -/
theorem selectNext_of_dispatch {workIndex workerIndex : Nat}
    (h : selectNextForDispatch state = some (workIndex, workerIndex)) :
    ∃ record worker, state.work[workIndex]? = some record ∧
      state.workers[workerIndex]? = some worker ∧
      CanRun state record worker ∧
      selectNext state = some ⟨record.spec.id, worker.descriptor.id⟩ := by
  obtain ⟨candidate, hscan, hpair⟩ := Option.map_eq_some_iff.mp h
  cases hpair
  have hleads := scan_eq_some_iff.mp hscan
  obtain ⟨worker, hworker, hruns, -⟩ :=
    firstFeasibleWorker_eq_some_iff.mp hleads.worker
  exact ⟨candidate.record, worker, hleads.row, hworker, hruns,
    selectNext_eq_some_iff.mpr ⟨_, worker,
      firstChoice_iff.mpr ⟨candidate, hleads, rfl, hworker⟩, rfl⟩⟩

theorem exists_of_selectNext {selection : Selection}
    (h : selectNext state = some selection) : ∃ workIndex workerIndex,
      selectNextForDispatch state = some (workIndex, workerIndex) := by
  obtain ⟨candidate, hscan, -⟩ := Option.bind_eq_some_iff.mp h
  exact ⟨_, _, Option.map_eq_some_iff.mpr ⟨candidate, hscan, rfl⟩⟩

/-- What a dispatch hands out: a reservation of the selected pair. -/
def HandsOut (state : SchedulerState) (event : SchedulerEventKind) : Prop :=
  ∃ selection reservation, selectNext state = some selection ∧
    event = .workReserved reservation ∧
    reservation.workId = selection.workId ∧
    reservation.workerId = selection.workerId

/-- The guards of a dispatch before its selection. -/
structure MayDispatch (state : SchedulerState) (dispatchId : DispatchId) :
    Prop where
  phase : state.phase = .active ∨ state.phase = .draining
  room : state.reservations.length < state.binding.limits.activeReservations
  fresh : dispatchId ∉ state.usedDispatches
  history : state.usedDispatches.length < 65535

variable (dispatchId dispatchToken) in
/-- Once a pair is selected nothing is missing: the work has an attempt left and
the ordinals cannot run out before the history does. -/
theorem reserve_of_selected (hsound : Sound state)
    (hdispatchable : Dispatchable state)
    (hhistory : state.usedDispatches.length < 65535)
    {workIndex workerIndex : Nat}
    (hselected : selectNextForDispatch state = some (workIndex, workerIndex)) :
    ∃ record reservation reserved,
      state.work[workIndex]? = some record ∧
      record.attemptsStarted ≠ 65535 ∧
      record.attemptsStarted + 1 ≤ record.spec.maximumAttempts.get ∧
      state.dispatchOrdinal ≠ u64Max ∧
      reserveSelectedAt state workIndex workerIndex dispatchId dispatchToken =
        some (reservation, reserved) ∧
      HandsOut state (.workReserved reservation) := by
  obtain ⟨record, worker, hwork, hworker, hruns, hnext⟩ :=
    selectNext_of_dispatch hselected
  have hattempts := hdispatchable.attempts record
    (List.mem_of_getElem? hwork) (.inr hruns.queued)
  have hbound := record.spec.maximumAttempts.bound
  have hordinal : state.dispatchOrdinal < u64Max := by
    rw [hsound.ledger.dispatched]
    exact hhistory.trans (by decide)
  obtain ⟨reservation, reserved, hreserved, hid, hid'⟩ :=
    reserveSelectedAt_eq_some hwork hworker hattempts hordinal
  exact ⟨record, reservation, reserved, hwork, by omega,
    Nat.succ_le_of_lt hattempts, Nat.ne_of_lt hordinal, hreserved,
    _, reservation, hnext, rfl, hid, hid'⟩

theorem satisfies_reserveNext (hsound : Sound state)
    (hdispatchable : Dispatchable state) :
    Satisfies (fun pair => HandsOut state (.workReserved pair.2))
      (fun error => error ∉ broken)
      (reserveNext state dispatchId dispatchToken) := by
  unfold reserveNext
  refine satisfies_ensure_bind (by decide) fun _ => ?_
  refine satisfies_ensure_bind (by decide) fun _ => ?_
  refine satisfies_ensure_bind (by decide) fun hhistory => ?_
  cases hselected : selectNextForDispatch state with
  | none => exact satisfies_of_error rfl (by decide)
  | some pair =>
      obtain ⟨workIndex, workerIndex⟩ := pair
      obtain ⟨record, reservation, reserved, hwork, hsmall, hattempts, hordinal,
        hreserved, hhands⟩ := reserve_of_selected dispatchId dispatchToken
          hsound hdispatchable (of_decide_eq_true hhistory) hselected
      simp only [hwork, hsmall, hattempts, hordinal, decide_true, ne_eq,
        not_false_eq_true, ensure_true, bind, Except.bind, hreserved]
      exact hhands

theorem satisfies_dispatch (hsound : Sound state)
    (hdispatchable : Dispatchable state) :
    Satisfies (fun result => HandsOut state result.2)
      (fun error => error ∉ broken)
      (dispatch state dispatchId dispatchToken) := by
  unfold dispatch
  refine satisfies_ensure_bind (by decide) fun _ => ?_
  apply (satisfies_reserveNext hsound hdispatchable).bind
  rintro ⟨applied, reservation⟩ - hhands
  exact hhands

theorem dispatch_eq_ok (hsound : Sound state)
    (hdispatchable : Dispatchable state) (hmay : MayDispatch state dispatchId)
    {selection : Selection} (hnext : selectNext state = some selection) :
    ∃ result, dispatch state dispatchId dispatchToken = .ok result := by
  obtain ⟨workIndex, workerIndex, hselected⟩ := exists_of_selectNext hnext
  obtain ⟨record, reservation, reserved, hwork, hsmall, hattempts, hordinal,
    hreserved, -⟩ := reserve_of_selected dispatchId dispatchToken hsound
      hdispatchable hmay.history hselected
  unfold dispatch reserveNext
  simp only [hmay.phase, hmay.room, hmay.fresh, hmay.history, hselected, hwork,
    hsmall, hattempts, hordinal, decide_true, ne_eq, not_false_eq_true,
    ensure_true, bind, Except.bind, hreserved]
  exact ⟨_, rfl⟩

/-- The command as a whole reports no broken selection either. -/
theorem satisfies_decideCommand {command : SchedulerCommand}
    (hsound : Sound state) (hdispatchable : Dispatchable state)
    (hkind : command.kind = .dispatchNext dispatchId dispatchToken) :
    Satisfies (fun transition => HandsOut state transition.event.kind)
      (fun error => error ∉ broken) (decideCommand sha256 state command) := by
  unfold decideCommand validateFences
  simp only [bind_assoc]
  refine satisfies_ensure_bind (by decide) fun _ => ?_
  refine satisfies_ensure_bind (by decide) fun _ => ?_
  refine satisfies_ensure_bind (by decide) fun _ => ?_
  have hsequence : Satisfies (fun _ => True) (fun error => error ∉ broken)
      (checkedNextSequence state.sequence) := by
    unfold checkedNextSequence
    split
    · exact satisfies_of_ok rfl trivial
    · exact satisfies_of_error rfl (by decide)
  apply hsequence.bind
  rintro sequence - -
  rw [hkind]
  apply (satisfies_dispatch hsound hdispatchable).bind
  rintro ⟨applied, event⟩ - hhands
  exact satisfies_ensure_bind (by decide) fun _ => hhands

/-- Selection is optimal: in any state the pair that is returned is the first
least record that can run with the first worker it can run on, and none is
returned exactly if nothing can run.  In a reachable state that record is the
only one of its rank, every queued record has an attempt left, and a dispatch
hands out the selected pair: it is never rejected for the work it selected. -/
theorem selection_optimal (state : SchedulerState) :
    (∀ selection, selectNext state = some selection ↔ ∃ record worker,
      FirstChoice state record worker ∧
        selection = ⟨record.spec.id, worker.descriptor.id⟩) ∧
    (selectNext state = none ↔ ∀ record ∈ state.work,
      ∀ worker ∈ state.workers, ¬ CanRun state record worker) ∧
    (Reachable (Started sha256) (Accepts sha256) state →
      (∀ record ∈ state.work, ∀ worker, CanRun state record worker ↔
        record.phase = .queued ∧ worker.phase = .available ∧
        worker.descriptor.owner = record.spec.owner ∧
        worker.descriptor.supports record.spec.executionClass = true ∧
        workerReservationCount state worker.id <
          worker.descriptor.concurrency ∧
        FitsBeside state.binding.capacity record.spec.request
          state.reservations ∧
        FitsBeside worker.descriptor.capacity record.spec.request
          (ofWorker worker.id state.reservations)) ∧
      (∀ record ∈ state.work, ∀ other ∈ state.work,
        rank state record = rank state other → record = other) ∧
      (∀ record ∈ state.work, record.phase = .queued →
        record.attemptsStarted < record.spec.maximumAttempts.get) ∧
      ∀ command dispatchId dispatchToken,
        command.kind = .dispatchNext dispatchId dispatchToken →
        Satisfies (fun transition => HandsOut state transition.event.kind)
          (fun error => error ∉ broken)
          (decideCommand sha256 state command) ∧
        (MayDispatch state dispatchId → (selectNext state).isSome = true →
          ∃ result, apply sha256 state command.kind = .ok result)) := by
  refine ⟨fun _ => selectNext_eq_some_iff, selectNext_eq_none_iff, ?_⟩
  intro hreach
  have hsound := sound_of_reachable hreach
  have hdispatchable := dispatchable_of_reachable hreach
  have hlength : state.reservations.length ≤ 4096 :=
    hdispatchable.reservations.trans
      state.binding.limits.le_production.2.2.2.2.2.1
  refine ⟨fun _ _ _ => canRun_iff hlength, ?_, ?_, ?_⟩
  · intro record hrecord other hother hrank
    exact hsound.work.sorted.inj hrecord hother (id_of_rank_eq hrank)
  · intro record hrecord hqueued
    exact hdispatchable.attempts record hrecord (.inr hqueued)
  · intro command dispatchId dispatchToken hkind
    refine ⟨satisfies_decideCommand hsound hdispatchable hkind, ?_⟩
    intro hmay hsome
    obtain ⟨selection, hnext⟩ := Option.isSome_iff_exists.mp hsome
    rw [hkind]
    exact dispatch_eq_ok hsound hdispatchable hmay hnext

/-! ### One queued record and one free worker -/

theorem selected_smallRequests :
    (attempts (fun _ => zeroDigest) (smallStart fun _ => zeroDigest)
      (smallRequests.take 2)).map (fun state =>
        (selectNext state, state.phase, state.reservations.length,
          state.usedDispatches)) =
      some (some ⟨smallWork.id, smallWorker.id⟩, .active, 0, []) := by
  decide +kernel

theorem selection_optimal_of_admitted : ∃ state,
    attempts (fun _ => zeroDigest) (smallStart fun _ => zeroDigest)
      (smallRequests.take 2) = some state ∧
    (∃ record worker, FirstChoice state record worker ∧
      record.spec.id = smallWork.id) ∧
    ∀ record ∈ state.work, record.phase = .queued →
      record.attemptsStarted < record.spec.maximumAttempts.get := by
  obtain ⟨state, hstate, hselected⟩ :=
    Option.map_eq_some_iff.mp selected_smallRequests
  obtain ⟨commands, -, hrun⟩ := run_of_attempts hstate
  have hreach : Reachable (Started fun _ => zeroDigest)
      (Accepts fun _ => zeroDigest) state :=
    ⟨_, commands, started_smallStart fun _ => zeroDigest, hrun⟩
  obtain ⟨hoptimal, -, hreachable⟩ :=
    @selection_optimal (fun _ => zeroDigest) state
  obtain ⟨record, worker, hchoice, hpair⟩ :=
    (hoptimal _).mp (Prod.mk.inj hselected).1
  refine ⟨state, hstate, ⟨record, worker, hchoice, ?_⟩,
    (hreachable hreach).2.2.1⟩
  exact (congrArg Selection.workId hpair).symm

end Peritus.Scheduler.Choice
