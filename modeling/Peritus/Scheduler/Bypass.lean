import Peritus.Scheduler.Counters

/-!
How often work that waits is passed over.  Each dispatch that passes it over
raises its bypass counter; at the limit only work that has reached the limit as
well can still come first.
-/

namespace Peritus.Scheduler.Bypass

open Peritus.Types Checked SortedTable Limits
open State Selection Mutation Reducer Invariant Edits Handlers Sweeps Ownership

/-! ### The selection order -/

section Order

variable {state : SchedulerState}

/-- By priority, ordinal and identity. -/
def place (record : WorkRecord) : Nat ×ₗ Nat ×ₗ Nat :=
  toLex (255 - record.spec.priority.toNat,
    toLex (record.enqueueOrdinal, record.spec.id.value))

/-- Aged work first. -/
def rank (state : SchedulerState) (record : WorkRecord) :
    Nat ×ₗ Nat ×ₗ Nat ×ₗ Nat :=
  toLex (if state.binding.limits.bypassCount ≤ record.bypasses then 0 else 1,
    place record)

theorem place_lt_iff {left right : WorkRecord} :
    place left < place right ↔
      right.spec.priority < left.spec.priority ∨
      left.spec.priority = right.spec.priority ∧
        (left.enqueueOrdinal < right.enqueueOrdinal ∨
          left.enqueueOrdinal = right.enqueueOrdinal ∧
            left.spec.id < right.spec.id) := by
  have hleft := left.spec.priority.toNat_lt
  have hright := right.spec.priority.toNat_lt
  have hid : left.spec.id < right.spec.id ↔
      left.spec.id.value < right.spec.id.value := Iff.rfl
  unfold place
  rw [Prod.Lex.toLex_lt_toLex, Prod.Lex.toLex_lt_toLex, UInt8.lt_iff_toNat_lt,
    ← UInt8.toNat_inj, hid]
  omega

theorem candidatePrecedes_iff {left right : WorkRecord} :
    candidatePrecedes state left right = true ↔
      rank state left < rank state right := by
  have hplace : ((if left.spec.priority ≠ right.spec.priority then
        decide (right.spec.priority < left.spec.priority)
      else if left.enqueueOrdinal ≠ right.enqueueOrdinal then
        decide (left.enqueueOrdinal < right.enqueueOrdinal)
      else decide (left.spec.id < right.spec.id)) = true) ↔
      place left < place right := by
    rw [place_lt_iff]
    by_cases hpriority : left.spec.priority = right.spec.priority
    · by_cases hordinal : left.enqueueOrdinal = right.enqueueOrdinal
      · simp [hpriority, hordinal]
      · simp [hpriority, hordinal]
    · simp [hpriority]
  unfold candidatePrecedes rank
  rw [Prod.Lex.toLex_lt_toLex, ← hplace]
  by_cases hleft : state.binding.limits.bypassCount ≤ left.bypasses
  · by_cases hright : state.binding.limits.bypassCount ≤ right.bypasses
    · simp [hleft, hright]
    · simp [hleft, hright]
  · by_cases hright : state.binding.limits.bypassCount ≤ right.bypasses
    · simp [hleft, hright]
    · simp [hleft, hright]

/-- What the scan keeps: no record seen so far precedes the chosen one. -/
def Least (state : SchedulerState) (seen : List WorkRecord)
    (chosen : Option Candidate) : Prop :=
  ∀ record ∈ seen, (firstFeasibleWorker state record).isSome = true →
    ∃ candidate, chosen = some candidate ∧
      ¬rank state record < rank state candidate.record

theorem least_considerWork {seen : List WorkRecord} {chosen : Option Candidate}
    (h : Least state seen chosen) (workIndex : Nat) (record : WorkRecord) :
    Least state (seen ++ [record])
      (considerWork state workIndex record chosen) := by
  intro other hother hfeasible
  unfold considerWork
  cases hfirst : firstFeasibleWorker state record with
  | none =>
      rcases List.mem_append.mp hother with hseen | hnew
      · exact h other hseen hfeasible
      · rw [List.mem_singleton.mp hnew, hfirst] at hfeasible
        cases hfeasible
  | some workerIndex =>
      cases chosen with
      | none =>
          refine ⟨_, rfl, ?_⟩
          rcases List.mem_append.mp hother with hseen | hnew
          · obtain ⟨_, hnone, _⟩ := h other hseen hfeasible
            cases hnone
          · rw [List.mem_singleton.mp hnew]
            exact lt_irrefl _
      | some current =>
          dsimp only
          have hseen : other ∈ seen →
              ¬rank state other < rank state current.record := fun hseen => by
            obtain ⟨_, hcurrent, hleast⟩ := h other hseen hfeasible
            cases hcurrent
            exact hleast
          by_cases hprecedes : candidatePrecedes state record current.record
          · rw [if_pos hprecedes]
            refine ⟨_, rfl, ?_⟩
            rcases List.mem_append.mp hother with hmem | hnew
            · intro hlt
              exact hseen hmem (hlt.trans (candidatePrecedes_iff.mp hprecedes))
            · rw [List.mem_singleton.mp hnew]
              exact lt_irrefl _
          · rw [if_neg hprecedes]
            refine ⟨_, rfl, ?_⟩
            rcases List.mem_append.mp hother with hmem | hnew
            · exact hseen hmem
            · rw [List.mem_singleton.mp hnew]
              exact fun hlt => hprecedes (candidatePrecedes_iff.mpr hlt)

theorem least_selectScan {seen records : List WorkRecord}
    {chosen : Option Candidate} {workIndex : Nat}
    (h : Least state seen chosen) :
    Least state (seen ++ records)
      (selectScan state workIndex records chosen) := by
  induction records generalizing seen chosen workIndex with
  | nil =>
      rw [List.append_nil]
      exact h
  | cons record rest ih =>
      rw [List.append_cons]
      exact ih (least_considerWork h workIndex record)

theorem feasible_of_selectScan {records : List WorkRecord}
    {chosen : Option Candidate} {candidate : Candidate} {workIndex : Nat}
    (hchosen : ∀ c, chosen = some c →
      (firstFeasibleWorker state c.record).isSome = true)
    (h : selectScan state workIndex records chosen = some candidate) :
    (firstFeasibleWorker state candidate.record).isSome = true := by
  induction records generalizing chosen workIndex with
  | nil => exact hchosen candidate h
  | cons record rest ih =>
      refine ih (fun c hc => ?_) h
      unfold considerWork at hc
      split at hc
      · exact hchosen c hc
      · rename_i workerIndex hfirst
        have hsome : (firstFeasibleWorker state record).isSome = true := by
          rw [hfirst]
          rfl
        split at hc
        · cases hc
          exact hsome
        · split at hc
          · cases hc
            exact hsome
          · exact hchosen c hc

/-- The work dispatched next: a feasible record that no feasible one
precedes. -/
theorem selected_least {workIndex workerIndex : Nat}
    (h : selectNextForDispatch state = some (workIndex, workerIndex)) :
    ∃ selected, state.work[workIndex]? = some selected ∧
      (firstFeasibleWorker state selected).isSome = true ∧
      ∀ record ∈ state.work,
        (firstFeasibleWorker state record).isSome = true →
        ¬rank state record < rank state selected := by
  obtain ⟨candidate, hscan, hpair⟩ := Option.map_eq_some_iff.mp h
  cases hpair
  obtain ⟨hwork, -⟩ := chosen_of_selectScan (fun i => by rw [Nat.zero_add])
    (fun c hc => by cases hc) hscan
  refine ⟨candidate.record, hwork,
    feasible_of_selectScan (fun c hc => by cases hc) hscan,
    fun record hrecord hfeasible => ?_⟩
  have hnone : Least state [] none := fun _ hmem => absurd hmem List.not_mem_nil
  obtain ⟨found, hfound, hleast⟩ :=
    least_selectScan hnone record hrecord hfeasible
  rw [hscan] at hfound
  cases hfound
  exact hleast

end Order

/-! ### Work never started -/

section Untried

variable {sha256 : List UInt8 → Sha256Digest} {kind : SchedulerCommandKind}
variable {state next : SchedulerState} {record updated : WorkRecord}
variable {work : List WorkRecord} {ordinal : Nat}

def untried (ordinal : Nat) (record : WorkRecord) : Bool :=
  decide (record.enqueueOrdinal ≤ ordinal ∧ record.attemptsStarted = 0 ∧
    record.phase ≠ .terminal)

/-- The work admitted up to an ordinal that may still start a first time. -/
def pending (ordinal : Nat) (work : List WorkRecord) : Nat :=
  work.countP (untried ordinal)

/-- How a record moves on. -/
structure Elapses (record updated : WorkRecord) : Prop where
  ordinal : updated.enqueueOrdinal = record.enqueueOrdinal
  attempts : record.attemptsStarted ≤ updated.attemptsStarted
  terminal : record.phase = .terminal → updated.phase = .terminal

theorem elapses_of_rewrite {binding : SchedulerBinding}
    (hrewrite : Rewrite binding work record updated) :
    Elapses record updated := by
  refine ⟨?_, (attempts_of_rewrite hrewrite).ge, fun hterminal => ?_⟩
  · cases hrewrite <;> rfl
  · cases hrewrite with
    | ready hphase _ => cases hterminal.symm.trans hphase
    | settle outcome _ => rfl
    | retry hphase _ => cases hterminal.symm.trans hphase
    | cancelling hactive =>
        rw [hterminal] at hactive
        cases hactive
    | bypass value hphase _ => exact absurd hterminal hphase

theorem elapses_of_release (hactive : record.phase.isActive = true)
    (hrelease : Release record updated) : Elapses record updated := by
  refine ⟨?_, (attempts_of_release hrelease).ge, fun hterminal => ?_⟩
  · cases hrelease <;> rfl
  · rw [hterminal] at hactive
    cases hactive

theorem untried_le (h : Elapses record updated)
    (huntried : untried ordinal updated = true) :
    untried ordinal record = true := by
  simp only [untried, decide_eq_true_eq] at huntried ⊢
  obtain ⟨hordinal, hattempts, hterminal⟩ := huntried
  have hle := h.attempts
  refine ⟨h.ordinal ▸ hordinal, by omega, fun hphase => ?_⟩
  exact hterminal (h.terminal hphase)

theorem pending_replaceRow_le (ordinal : Nat)
    (hsorted : Sorted WorkRecord.id work) (hrecord : record ∈ work)
    (hid : updated.id = record.id) (h : Elapses record updated) :
    pending ordinal (replaceRow WorkRecord.id updated work) ≤
      pending ordinal work :=
  countP_replaceRow_le (untried ordinal) hsorted hrecord hid (untried_le h)

theorem elapses_of_begin {attempt : AttemptNumber}
    (hqueued : record.phase = .queued)
    (hbegin : record.tryBeginAttempt = some (attempt, updated)) :
    updated.id = record.id ∧ Elapses record updated := by
  obtain ⟨-, -, rfl⟩ := tryBeginAttempt_eq_some hbegin
  exact ⟨rfl, rfl, Nat.le_succ _,
    fun hterminal => absurd (hqueued.symm.trans hterminal) nofun⟩

/-- Nothing but an admission adds work that was never started, and that comes
last. -/
theorem pending_of_edit (hsound : Sound state)
    (hordinal : ordinal ≤ state.enqueueOrdinal)
    (hedit : Edit sha256 kind state next) :
    pending ordinal next.work ≤ pending ordinal state.work ∧
      state.enqueueOrdinal ≤ next.enqueueOrdinal := by
  have hsorted := hsound.work.sorted
  cases hedit with
  | worker phase hworker hidle => exact ⟨le_rfl, le_rfl⟩
  | register hkind hroom hfresh hfits => exact ⟨le_rfl, le_rfl⟩
  | @admitted spec hkind hopen hchecked =>
      refine ⟨?_, Nat.le_succ _⟩
      have hlast : untried ordinal (WorkRecord.new spec
          (if spec.dependencies = [] then .queued else .waitingDependencies)
          (state.enqueueOrdinal + 1)) = false := by
        refine decide_eq_false fun h => ?_
        have hle : state.enqueueOrdinal + 1 ≤ ordinal := h.1
        omega
      unfold pending admittedTo insertWork
      rw [perm_insertAt.countP_eq, List.countP_cons, hlast]
      exact le_rfl
  | rewrite hrecord hrewrite =>
      exact ⟨pending_replaceRow_le ordinal hsorted hrecord
        (holds_of_rewrite hrewrite).1 (elapses_of_rewrite hrewrite), le_rfl⟩
  | release hreservation hrecord hid hrelease =>
      have hactive := hsound.owned.active hreservation hrecord hid
      have hsame := (rowStep_of_release hsound.work hrecord hactive hrelease).id
      exact ⟨pending_replaceRow_le ordinal hsorted hrecord hsame
        (elapses_of_release hactive hrelease), le_rfl⟩
  | start hkind hreservation hrecord hid =>
      have hactive := hsound.owned.active hreservation hrecord hid
      refine ⟨pending_replaceRow_le ordinal hsorted hrecord rfl
        ⟨rfl, le_rfl, fun hterminal => ?_⟩, le_rfl⟩
      rw [hterminal] at hactive
      cases hactive
  | reserve hkind hroom hfresh hhistory hrecord hworker hfeasible hbegin =>
      obtain ⟨hid, helapses⟩ := elapses_of_begin hfeasible.queued hbegin
      exact ⟨pending_replaceRow_le ordinal hsorted hrecord hid helapses, le_rfl⟩
  | control hopen hphase => exact ⟨le_rfl, le_rfl⟩
  | finalize hterminal hidle => exact ⟨le_rfl, le_rfl⟩

theorem pending_of_edits (hsound : Sound state)
    (hordinal : ordinal ≤ state.enqueueOrdinal)
    (hedits : EditRun sha256 kind state next) :
    pending ordinal next.work ≤ pending ordinal state.work ∧
      state.enqueueOrdinal ≤ next.enqueueOrdinal := by
  induction hedits with
  | refl => exact ⟨le_rfl, le_rfl⟩
  | tail hbefore hedit ih =>
      obtain ⟨hpending, hle⟩ := ih
      obtain ⟨hlast, hlast'⟩ := pending_of_edit
        (sound_of_edits hsound hbefore) (hordinal.trans hle) hedit
      exact ⟨hlast.trans hpending, hle.trans hlast'⟩

/-- Work never started occupies the queue under either measure. -/
theorem pending_le_admissionCount (hsound : Sound state) (ordinal : Nat) :
    pending ordinal state.work ≤ admissionCount state := by
  have hincludes : ∀ measure, ∀ record ∈ state.work,
      untried ordinal record = true → includes record measure = true := by
    intro measure record hrecord huntried
    simp only [untried, decide_eq_true_eq] at huntried
    obtain ⟨-, hattempts, hterminal⟩ := huntried
    have hinactive : record.phase.isActive = false := by
      by_contra hactive
      obtain ⟨reservation, hreservation, hid⟩ :=
        hsound.owned.owner hrecord (eq_true_of_ne_false hactive)
      have hholds := hsound.owned.holds hsound.work.sorted hreservation hrecord
        hid.symm
      have hattempt := hholds.attempt
      have hpositive := reservation.attempt.positive
      omega
    unfold includes
    cases hphase : record.phase with
    | terminal => exact absurd hphase hterminal
    | reserved => exact absurd (hphase ▸ hinactive) nofun
    | running => exact absurd (hphase ▸ hinactive) nofun
    | cancelling => exact absurd (hphase ▸ hinactive) nofun
    | _ => rfl
  unfold admissionCount
  split
  · exact List.countP_mono_left (hincludes .waiting)
  · exact List.countP_mono_left (hincludes .recoveryPressure)

/-- There is never more of it than the queue may hold. -/
def PendingBounded (state : SchedulerState) : Prop :=
  pending state.enqueueOrdinal state.work ≤ state.binding.limits.queuedWork

theorem pendingBounded_of_edit (hsound : Sound state)
    (hbounded : PendingBounded state) (hedit : Edit sha256 kind state next) :
    PendingBounded next := by
  have hpending := (pending_of_edit hsound le_rfl hedit).1
  cases hedit with
  | @admitted spec hkind hopen hchecked =>
      have hroom : admissionCount state < state.binding.limits.queuedWork := by
        unfold checkAdmission at hchecked
        simp only [ensure_bind_eq_ok_iff, decide_eq_true_eq] at hchecked
        exact hchecked.2.1.2
      have hbefore :=
        pending_le_admissionCount hsound (state.enqueueOrdinal + 1)
      have hone : ∀ b : Bool, (if b then 1 else 0) ≤ 1 := by decide
      show pending (state.enqueueOrdinal + 1) _ ≤ _
      unfold admittedTo insertWork pending
      rw [perm_insertAt.countP_eq, List.countP_cons]
      show pending (state.enqueueOrdinal + 1) state.work + _ ≤
        state.binding.limits.queuedWork
      exact (Nat.add_le_add hbefore (hone _)).trans hroom
  | _ => exact hpending.trans hbounded

end Untried

/-! ### What a dispatch passes over -/

def selectedWork (state : SchedulerState) : Option WorkId :=
  (selectNextForDispatch state).bind fun pair =>
    (state.work[pair.1]?).map WorkRecord.id

/-- The work that a dispatch looks at. -/
def waiting (state : SchedulerState) : List WorkId :=
  (state.work.filter fun record =>
    decide (record.phase = .queued) &&
      isFeasible state record.spec.id).map WorkRecord.id

/-- The work is queued, and some worker could take it now. -/
def waits (state : SchedulerState) (id : WorkId) : Bool :=
  (state.work.any fun record =>
    decide (record.id = id) && decide (record.phase = .queued)) &&
    isFeasible state id

section Dispatching

variable {sha256 : List UInt8 → Sha256Digest}
variable {state next : SchedulerState} {record : WorkRecord}
variable {event : SchedulerEventKind} {dispatchId : DispatchId}
variable {dispatchToken : Sha256Digest}

/-- The state that a dispatch leaves behind, and the work it selected. -/
structure Dispatched (sha256 : List UInt8 → Sha256Digest)
    (kind : SchedulerCommandKind) (state : SchedulerState)
    (selected : WorkRecord) (next : SchedulerState) : Prop where
  mem : selected ∈ state.work
  queued : selected.phase = .queued
  feasible : (firstFeasibleWorker state selected).isSome = true
  least : ∀ record ∈ state.work,
    (firstFeasibleWorker state record).isSome = true →
    ¬rank state record < rank state selected
  reserved : ∃ (begun : WorkRecord) (attempt : AttemptNumber)
    (reserved : SchedulerState),
    selected.tryBeginAttempt = some (attempt, begun) ∧
    Edit sha256 kind state reserved ∧
    reserved.binding = state.binding ∧
    reserved.work = replaceRow WorkRecord.id begun state.work ∧
    next = updateBypasses selected.id state.binding.limits.bypassCount reserved
      (waiting state)

variable (sha256) in
theorem dispatched_of_dispatch (hsound : Sound state)
    (h : dispatch state dispatchId dispatchToken = .ok (next, event)) :
    ∃ selected, selectedWork state = some selected.id ∧
      Dispatched sha256 (.dispatchNext dispatchId dispatchToken) state selected
        next := by
  unfold dispatch at h
  obtain ⟨_, h⟩ := ensure_bind_eq_ok_iff.mp h
  obtain ⟨⟨final, reservation⟩, hreserve, hpair⟩ := bind_eq_ok_iff.mp h
  cases hpair
  unfold reserveNext at hreserve
  simp only [ensure_bind_eq_ok_iff, decide_eq_true_eq] at hreserve
  obtain ⟨hroom, hfresh, hhistory, hselected⟩ := hreserve
  split at hselected
  · cases hselected
  · rename_i workIndex workerIndex hpair
    obtain ⟨record, worker, hwork, hworker, hfeasible⟩ :=
      feasible_of_selectNextForDispatch hpair
    obtain ⟨selected, hselectedWork, hsome, hleast⟩ := selected_least hpair
    cases hwork.symm.trans hselectedWork
    simp only [hwork, ensure_bind_eq_ok_iff, decide_eq_true_eq] at hselected
    obtain ⟨hsmall, hattempts, _, hreserved⟩ := hselected
    have hbegin : ∃ attempt begun,
        record.tryBeginAttempt = some (attempt, begun) := by
      unfold WorkRecord.tryBeginAttempt
      rw [if_neg hsmall, dif_pos hattempts]
      exact ⟨_, _, rfl⟩
    obtain ⟨attempt, begun, hbegin⟩ := hbegin
    split at hreserved
    · cases hreserved
    · rename_i taken reserved hpair'
      cases hreserved
      obtain ⟨rfl, rfl⟩ :=
        reserveSelectedAt_eq hsound hwork hworker hbegin hpair'
      have hrecord := List.mem_of_getElem? hwork
      refine ⟨record, ?_, hrecord, hfeasible.queued, hsome, hleast, begun,
        attempt, reservedBy state begun
          (selectedBy record worker attempt dispatchId dispatchToken),
        hbegin, ?_, rfl, rfl, rfl⟩
      · unfold selectedWork
        rw [hpair, Option.bind_some, hwork]
        rfl
      · exact .reserve rfl hroom hfresh hhistory hrecord
          (List.mem_of_getElem? hworker) hfeasible hbegin

theorem find_of_mem {work : List WorkRecord}
    (hsorted : Sorted WorkRecord.id work) (hrecord : record ∈ work) :
    work.find? (fun other => decide (other.spec.id = record.id)) =
      some record := by
  cases hfind : work.find? fun other => decide (other.spec.id = record.id) with
  | none =>
      have hnone := List.find?_eq_none.mp hfind record hrecord
      exact absurd (decide_eq_true rfl) hnone
  | some found =>
      have hfound := List.find?_some hfind
      have hid : found.id = record.id := of_decide_eq_true hfound
      rw [hsorted.inj (List.mem_of_find?_eq_some hfind) hrecord hid]

/-- A row with the place of another, passed over at least as often. -/
structure Later (record later : WorkRecord) : Prop where
  id : later.id = record.id
  ordinal : later.enqueueOrdinal = record.enqueueOrdinal
  bypasses : record.bypasses ≤ later.bypasses

theorem le_incrementedBypass (hsound : Sound state)
    (hrecord : record ∈ state.work) (limit : Nat) :
    min (record.bypasses + 1) limit ≤
      incrementedBypass state record.id limit := by
  unfold incrementedBypass
  rw [find_of_mem hsound.work.sorted hrecord]
  dsimp only
  split
  · exact le_rfl
  · rw [min_self]
    exact min_le_right _ _

/-- The counter of waiting work that was not selected goes up, or stands at the
limit. -/
theorem later_of_updateBypasses {ids : List WorkId} {selected : WorkId}
    (hsound : Sound state) (hnodup : ids.Nodup)
    (hopen : ∀ id ∈ ids, ∃ other ∈ state.work, other.id = id ∧
      other.phase ≠ .terminal)
    (hrecord : record ∈ state.work) (hne : record.id ≠ selected) :
    ∃ later ∈ (updateBypasses selected state.binding.limits.bypassCount state
        ids).work, Later record later ∧ (record.id ∈ ids →
      min (record.bypasses + 1) state.binding.limits.bypassCount ≤
        later.bypasses) := by
  induction ids generalizing state record with
  | nil => exact ⟨record, hrecord, ⟨rfl, rfl, le_rfl⟩, nofun⟩
  | cons id rest ih =>
      obtain ⟨hnew, hrest⟩ := List.nodup_cons.mp hnodup
      obtain ⟨other, hother, rfl, hphase⟩ := hopen id List.mem_cons_self
      obtain ⟨value, hvalue, hbound⟩ : ∃ value,
          (if other.id = selected then 0
            else incrementedBypass state other.id
              state.binding.limits.bypassCount) = value ∧
          value ≤ state.binding.limits.bypassCount := by
        refine ⟨_, rfl, ?_⟩
        split
        · exact Nat.zero_le _
        · exact incrementedBypass_le
      have hedit : Edit (fun _ => zeroDigest) .pauseScheduler state
          { state with
            work := replaceRow WorkRecord.id (other.setBypasses value)
              state.work } :=
        .rewrite hother (.bypass value hphase hbound)
      have hkeeps : (other.setBypasses value).id = other.id := rfl
      have hopen' : ∀ id ∈ rest, ∃ found ∈ replaceRow WorkRecord.id
          (other.setBypasses value) state.work, found.id = id ∧
          found.phase ≠ .terminal := by
        intro id hid
        obtain ⟨found, hfound, rfl, hne⟩ :=
          hopen id (List.mem_cons_of_mem _ hid)
        by_cases hsame : found.id = other.id
        · exact absurd (hsame ▸ hid) hnew
        · exact ⟨found, mem_of_replaced hsound hother hkeeps hfound hsame, rfl,
            hne⟩
      unfold updateBypasses
      dsimp only
      rw [hvalue, setWorkBypasses_eq hsound hother, Option.getD_some]
      by_cases hsame : record.id = other.id
      · cases hsound.work.sorted.inj hrecord hother hsame
        rw [if_neg hne] at hvalue
        have hraised := le_incrementedBypass hsound hrecord
          state.binding.limits.bypassCount
        rw [hvalue] at hraised
        have hmem := (mem_replaceRow hsound.work.sorted hrecord hkeeps).mpr
          (.inl rfl)
        obtain ⟨later, hlater, hfollows, -⟩ :=
          ih (sound_of_edit hsound hedit) hrest hopen' hmem hne
        have hle := hfollows.bypasses
        have hlimit := (hsound.work.records record hrecord).bypasses
        have hset : (record.setBypasses value).bypasses = value := rfl
        rw [hset] at hle
        refine ⟨later, hlater, ⟨hfollows.id, hfollows.ordinal, ?_⟩,
          fun _ => hraised.trans hle⟩
        omega
      · have hmem := mem_of_replaced hsound hother hkeeps hrecord hsame
        obtain ⟨later, hlater, hfollows, hpassed⟩ :=
          ih (sound_of_edit hsound hedit) hrest hopen' hmem hne
        refine ⟨later, hlater, hfollows, fun hin => ?_⟩
        rcases List.mem_cons.mp hin with heq | hin
        · exact absurd heq hsame
        · exact hpassed hin

theorem isFeasible_of_mem (hsound : Sound state) (hrecord : record ∈ state.work) :
    isFeasible state record.id = (firstFeasibleWorker state record).isSome := by
  unfold isFeasible
  rw [find_of_mem hsound.work.sorted hrecord]

theorem waits_iff (hsound : Sound state) (hrecord : record ∈ state.work) :
    waits state record.id = true ↔ record.phase = .queued ∧
      (firstFeasibleWorker state record).isSome = true := by
  unfold waits
  rw [isFeasible_of_mem hsound hrecord, Bool.and_eq_true, List.any_eq_true]
  constructor
  · rintro ⟨⟨other, hother, hqueued⟩, hfeasible⟩
    rw [Bool.and_eq_true, decide_eq_true_eq, decide_eq_true_eq] at hqueued
    cases hsound.work.sorted.inj hother hrecord hqueued.1
    exact ⟨hqueued.2, hfeasible⟩
  · rintro ⟨hqueued, hfeasible⟩
    refine ⟨⟨record, hrecord, ?_⟩, hfeasible⟩
    rw [decide_eq_true rfl, decide_eq_true hqueued]
    rfl

theorem mem_waiting (hsound : Sound state) (hrecord : record ∈ state.work)
    (hwaits : waits state record.id = true) : record.id ∈ waiting state := by
  obtain ⟨hqueued, hfeasible⟩ := (waits_iff hsound hrecord).mp hwaits
  refine List.mem_map.mpr ⟨record, List.mem_filter.mpr ⟨hrecord, ?_⟩, rfl⟩
  rw [Bool.and_eq_true]
  refine ⟨decide_eq_true hqueued, ?_⟩
  rw [← hfeasible]
  exact isFeasible_of_mem hsound hrecord

variable {kind : SchedulerCommandKind} {selected : WorkRecord}

/-- The work a dispatch looked at is still open in the state it reserved. -/
theorem open_of_reserved {reserved : SchedulerState} {begun : WorkRecord}
    {attempt : AttemptNumber} (hsound : Sound state)
    (hselected : selected ∈ state.work)
    (hbegin : selected.tryBeginAttempt = some (attempt, begun))
    (hwork : reserved.work = replaceRow WorkRecord.id begun state.work) :
    ∀ id ∈ waiting state, ∃ other ∈ reserved.work, other.id = id ∧
      other.phase ≠ .terminal := by
  intro id hid
  obtain ⟨found, hfound, rfl⟩ := List.mem_map.mp hid
  obtain ⟨hmem, hkeep⟩ := List.mem_filter.mp hfound
  have hqueued := of_decide_eq_true (Bool.and_eq_true_iff.mp hkeep).1
  have hkeeps : begun.id = selected.id ∧ begun.phase ≠ .terminal := by
    obtain ⟨-, -, rfl⟩ := tryBeginAttempt_eq_some hbegin
    exact ⟨rfl, nofun⟩
  rw [hwork]
  by_cases hsame : found.id = selected.id
  · refine ⟨begun, ?_, hkeeps.1.trans hsame.symm, hkeeps.2⟩
    exact (mem_replaceRow hsound.work.sorted hselected hkeeps.1).mpr (.inl rfl)
  · refine ⟨found, ?_, rfl, ?_⟩
    · exact mem_of_replaced hsound hselected hkeeps.1 hmem hsame
    rw [hqueued]
    exact WorkPhase.noConfusion

theorem later_of_dispatched (hsound : Sound state)
    (h : Dispatched sha256 kind state selected next)
    (hrecord : record ∈ state.work) (hne : record.id ≠ selected.id) :
    ∃ later ∈ next.work, Later record later ∧
      (waits state record.id = true →
        min (record.bypasses + 1) state.binding.limits.bypassCount ≤
          later.bypasses) := by
  obtain ⟨begun, attempt, reserved, hbegin, hedit, hbinding, hwork, rfl⟩ :=
    h.reserved
  have hopen := open_of_reserved hsound h.mem hbegin hwork
  have hid : begun.id = selected.id := (elapses_of_begin h.queued hbegin).1
  have hmem : record ∈ reserved.work := by
    rw [hwork]
    exact mem_of_replaced hsound h.mem hid hrecord hne
  have hnodup : (waiting state).Nodup :=
    hsound.work.sorted.nodup_map.sublist (List.filter_sublist.map _)
  obtain ⟨later, hlater, hfollows, hraised⟩ := later_of_updateBypasses
    (sound_of_edit hsound hedit) hnodup hopen hmem hne
  rw [hbinding] at hlater hraised
  exact ⟨later, hlater, hfollows, fun hwaits =>
    hraised (mem_waiting hsound hrecord hwaits)⟩

/-- The selected work leaves the work never started. -/
theorem pending_of_dispatched {ordinal : Nat} (hsound : Sound state)
    (hordinal : ordinal ≤ state.enqueueOrdinal)
    (h : Dispatched sha256 kind state selected next) :
    pending ordinal next.work + (if untried ordinal selected then 1 else 0) ≤
      pending ordinal state.work := by
  obtain ⟨begun, attempt, reserved, hbegin, hedit, hbinding, hwork, rfl⟩ :=
    h.reserved
  have hid : begun.id = selected.id := (elapses_of_begin h.queued hbegin).1
  have hstarted : untried ordinal begun = false := by
    obtain ⟨-, -, rfl⟩ := tryBeginAttempt_eq_some hbegin
    exact decide_eq_false fun h => Nat.succ_ne_zero _ h.2.1
  have hcount := countP_replaceRow (untried ordinal) hsound.work.sorted h.mem
    hid
  rw [hstarted, ← hwork] at hcount
  have hreserved := sound_of_edit hsound hedit
  have hrest := edits_of_updateBypasses sha256 kind selected.id hreserved
    (open_of_reserved hsound h.mem hbegin hwork)
  have hle := hordinal.trans (pending_of_edit hsound hordinal hedit).2
  have hlast := (pending_of_edits hreserved hle hrest).1
  rw [hbinding] at hlast
  have hzero : (if false = true then 1 else 0 : Nat) = 0 := rfl
  rw [hzero] at hcount
  exact (Nat.add_le_add_right hlast _).trans hcount.le

end Dispatching

end Peritus.Scheduler.Bypass
