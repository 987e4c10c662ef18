import Peritus.Scheduler.Ownership

/-!
Work that is being cancelled.  Every accepted command keeps it so or ends it as
cancelled, but for one: the start of a dispatch is acknowledged whatever the
phase of its record.
-/

namespace Peritus.Scheduler.Cancellation

open Peritus.Types TransitionSystem SortedTable Limits State Mutation Reducer
open Invariant Edits Handlers Refresh Ownership

/-- Cancelling, or cancelled for good. -/
def Revoked (record : WorkRecord) : Prop :=
  record.phase = .cancelling ∨
    record.phase = .terminal ∧ record.terminal = some .cancelled

/-- What is being cancelled in one state is still so in another. -/
def StaysRevoked (state next : SchedulerState) : Prop :=
  ∀ id record, state.workItem id = some record → Revoked record →
    ∃ updated, next.workItem id = some updated ∧ Revoked updated

/-- Whether a command acknowledges the start of work that is being cancelled. -/
def startsCancelling (state : SchedulerState) (kind : SchedulerCommandKind) :
    Bool :=
  match kind with
  | .acknowledgeStart dispatchId =>
      match (state.reservation dispatchId).bind fun reservation =>
        state.workItem reservation.workId with
      | some record => decide (record.phase = .cancelling)
      | none => false
  | _ => false

section Edits

variable {sha256 : List UInt8 → Sha256Digest} {kind : SchedulerCommandKind}
variable {state next : SchedulerState} {record updated : WorkRecord}

/-- The rows of one table, each revoked if the row it comes from was. -/
def KeepsRevoked (state next : SchedulerState) : Prop :=
  ∀ record ∈ state.work, Revoked record →
    ∃ updated ∈ next.work, updated.id = record.id ∧ Revoked updated

theorem KeepsRevoked.trans {last : SchedulerState}
    (hfirst : KeepsRevoked state next) (hsecond : KeepsRevoked next last) :
    KeepsRevoked state last := by
  intro record hrecord hrevoked
  obtain ⟨middle, hmiddle, hid, hstill⟩ := hfirst record hrecord hrevoked
  obtain ⟨updated, hupdated, hid', hstill'⟩ := hsecond middle hmiddle hstill
  exact ⟨updated, hupdated, hid'.trans hid, hstill'⟩

theorem keepsRevoked_of_same (hwork : next.work = state.work) :
    KeepsRevoked state next := fun record hrecord hrevoked =>
  ⟨record, hwork ▸ hrecord, rfl, hrevoked⟩

theorem keepsRevoked_replaceRow (hsound : Sound state)
    (hrecord : record ∈ state.work) (hid : updated.id = record.id)
    (hrevoked : Revoked record → Revoked updated)
    (hwork : next.work = replaceRow WorkRecord.id updated state.work) :
    KeepsRevoked state next := by
  intro other hother hstill
  rw [hwork]
  by_cases hsame : other.id = record.id
  · cases hsound.work.sorted.inj hother hrecord hsame
    exact ⟨updated,
      (mem_replaceRow hsound.work.sorted hrecord hid).mpr (.inl rfl), hid,
      hrevoked hstill⟩
  · exact ⟨other, (mem_replaceRow hsound.work.sorted hrecord hid).mpr
      (.inr ⟨hother, hsame⟩), rfl, hstill⟩

theorem revoked_of_rewrite {binding : SchedulerBinding} {work : List WorkRecord}
    (hrewrite : Rewrite binding work record updated)
    (hrevoked : Revoked record) : Revoked updated := by
  cases hrewrite with
  | ready hphase _ =>
      rcases hrevoked with h | ⟨h, _⟩ <;> rw [hphase] at h <;> cases h
  | settle outcome hphase =>
      rcases hrevoked with h | ⟨h, _⟩ <;> rw [h] at hphase <;>
        rcases hphase with hphase | hphase | hphase <;> cases hphase
  | retry hphase _ =>
      rcases hrevoked with h | ⟨h, _⟩ <;> rw [hphase] at h <;> cases h
  | cancelling _ => exact .inl rfl
  | bypass value _ _ => exact hrevoked

/-- A reservation gives up cancelling work only as cancelled. -/
theorem revoked_of_release (hactive : record.phase.isActive = true)
    (hrelease : Release record updated) (hrevoked : Revoked record) :
    Revoked updated := by
  have hcancelling : record.phase = .cancelling := by
    rcases hrevoked with h | ⟨h, _⟩
    · exact h
    · rw [h] at hactive
      cases hactive
  cases hrelease with
  | requeue hphase _ =>
      rcases hphase with h | h <;> rw [hcancelling] at h <;> cases h
  | retry cause hphase _ =>
      rcases hphase with h | h <;> rw [hcancelling] at h <;> cases h
  | settle outcome houtcome =>
      rw [houtcome hcancelling]
      exact .inr ⟨rfl, rfl⟩

/-- Every edit but the start of a dispatch. -/
theorem keepsRevoked_of_edit (hsound : Sound state)
    (hkind : ∀ dispatchId, kind ≠ .acknowledgeStart dispatchId)
    (hedit : Edit sha256 kind state next) : KeepsRevoked state next := by
  cases hedit with
  | worker => exact keepsRevoked_of_same rfl
  | register => exact keepsRevoked_of_same rfl
  | admitted =>
      intro record hrecord hrevoked
      exact ⟨record, mem_insertAt.mpr (.inr hrecord), rfl, hrevoked⟩
  | rewrite hrecord hrewrite =>
      exact keepsRevoked_replaceRow hsound hrecord
        (holds_of_rewrite hrewrite).1 (revoked_of_rewrite hrewrite) rfl
  | release hreservation hrecord hid hrelease =>
      have hactive := hsound.owned.active hreservation hrecord hid
      have hrow := rowStep_of_release hsound.work hrecord hactive hrelease
      exact keepsRevoked_replaceRow hsound hrecord hrow.id
        (revoked_of_release hactive hrelease) rfl
  | start hstart => exact absurd hstart (hkind _)
  | reserve _ _ _ _ hrecord _ hfeasible hbegin =>
      have hrow := rowStep_of_begin hsound.work hrecord hfeasible.queued hbegin
      refine keepsRevoked_replaceRow hsound hrecord hrow.id ?_ rfl
      intro hrevoked
      rcases hrevoked with h | ⟨h, _⟩ <;> rw [hfeasible.queued] at h <;> cases h
  | control => exact keepsRevoked_of_same rfl
  | finalize => exact keepsRevoked_of_same rfl

theorem keepsRevoked_of_edits (hsound : Sound state)
    (hkind : ∀ dispatchId, kind ≠ .acknowledgeStart dispatchId)
    (hedits : EditRun sha256 kind state next) : KeepsRevoked state next := by
  induction hedits with
  | refl => exact keepsRevoked_of_same rfl
  | tail hrun hedit ih =>
      exact ih.trans
        (keepsRevoked_of_edit (sound_of_edits hsound hrun) hkind hedit)

theorem keepsRevoked_of_refresh (hsound : Sound state) :
    KeepsRevoked state (refresh state) :=
  keepsRevoked_of_edits hsound (fun _ h => by cases h)
    (edits_of_refresh (fun _ => zeroDigest) .pauseScheduler hsound).1

end Edits

section Commands

variable {sha256 : List UInt8 → Sha256Digest}
variable {state next : SchedulerState} {command : SchedulerCommand}

theorem staysRevoked_iff (hsound : Sound state) (hsound' : Sound next) :
    StaysRevoked state next ↔ KeepsRevoked state next := by
  constructor
  · intro hstays record hrecord hrevoked
    obtain ⟨updated, hitem, hstill⟩ := hstays record.id record
      (lookup_of_mem hsound.work.sorted hrecord rfl) hrevoked
    obtain ⟨hupdated, hid⟩ := mem_of_workItem hitem
    exact ⟨updated, hupdated, hid, hstill⟩
  · intro hkeeps id record hitem hrevoked
    obtain ⟨hrecord, rfl⟩ := mem_of_workItem hitem
    obtain ⟨updated, hupdated, hid, hstill⟩ := hkeeps record hrecord hrevoked
    exact ⟨updated, lookup_of_mem hsound'.work.sorted hupdated hid, hstill⟩

/-- Acknowledged work runs in the successor, whatever its phase was. -/
theorem running_of_acknowledgeStart (hsound : Sound state)
    {dispatchId : DispatchId} {record : WorkRecord}
    {reservation : SchedulerReservation} {applied : SchedulerState}
    {event : SchedulerEventKind}
    (hreservation : state.reservation dispatchId = some reservation)
    (hitem : state.workItem reservation.workId = some record)
    (h : acknowledgeStart state dispatchId = .ok (applied, event)) :
    record.setPhase .running ∈ (refresh applied).work := by
  have hedits : EditRun (fun _ => zeroDigest) (.acknowledgeStart dispatchId)
      state applied := edits_of_acknowledgeStart hsound h
  obtain ⟨found, held, hfound, hheld, rfl⟩ := acknowledgeStart_eq_ok hsound h
  rw [hreservation] at hfound
  cases hfound
  rw [hitem] at hheld
  cases hheld
  obtain ⟨hrecord, _⟩ := mem_of_workItem hitem
  refine (edits_of_refresh (fun _ => zeroDigest) .pauseScheduler
    (sound_of_edits hsound hedits)).2 _ ?_ (fun h => by cases h)
    fun h => by cases h
  have hid : (record.setPhase .running).id = record.id := rfl
  exact (mem_replaceRow hsound.work.sorted hrecord hid).mpr (.inl rfl)

/-- An accepted command keeps all that is being cancelled exactly when it does
not acknowledge the start of such work. -/
theorem keepsRevoked_iff (hsound : Sound state)
    (h : Accepts sha256 state command next) :
    KeepsRevoked state next ↔ startsCancelling state command.kind = false := by
  have hsound' := sound_of_accepts hsound h
  obtain ⟨transition, hdecide, rfl⟩ := h
  obtain ⟨applied, hcommitted⟩ := committed_of_decideCommand hdecide
  obtain ⟨event, happlied⟩ := hcommitted.handled
  obtain ⟨sequence, _, hnext⟩ := hcommitted.committed
  have hedits := edits_of_apply hsound hcommitted.opened happlied
  have hrefresh := keepsRevoked_of_refresh (sound_of_edits hsound hedits)
  have hwork : transition.state.work = (refresh applied).work := by
    rw [hnext]
    rfl
  have hfinal : KeepsRevoked (refresh applied) transition.state :=
    keepsRevoked_of_same hwork
  cases hkind : command.kind with
  | acknowledgeStart dispatchId =>
      rw [hkind] at happlied hedits
      obtain ⟨reservation, record, hreservation, hitem, heq⟩ :=
        acknowledgeStart_eq_ok hsound happlied
      have hstarts : startsCancelling state (.acknowledgeStart dispatchId) =
          decide (record.phase = .cancelling) := by
        simp [startsCancelling, hreservation, hitem]
      obtain ⟨hrecord, hid⟩ := mem_of_workItem hitem
      rw [hstarts, decide_eq_false_iff_not]
      constructor
      · intro hkeeps hcancelling
        have hrunning := running_of_acknowledgeStart hsound hreservation hitem
          happlied
        obtain ⟨updated, hupdated, hsame, hrevoked⟩ :=
          hkeeps record hrecord (.inl hcancelling)
        rw [← hwork] at hrunning
        rw [hsound'.work.sorted.inj hupdated hrunning hsame] at hrevoked
        rcases hrevoked with hphase | ⟨hphase, _⟩ <;> cases hphase
      · intro hnot
        refine KeepsRevoked.trans ?_ (hrefresh.trans hfinal)
        have hsame : (record.setPhase .running).id = record.id := rfl
        refine keepsRevoked_replaceRow hsound hrecord hsame ?_ (by rw [heq])
        intro hrevoked
        have hactive := hsound.owned.active
          (mem_of_reservation hreservation).1 hrecord hid
        rcases hrevoked with hphase | ⟨hphase, _⟩
        · exact absurd hphase hnot
        · rw [hphase] at hactive
          cases hactive
  | _ =>
      refine iff_of_true ((keepsRevoked_of_edits hsound ?_ hedits).trans
        (hrefresh.trans hfinal)) rfl
      intro dispatchId
      rw [hkind]
      exact fun h => by cases h

theorem staysRevoked_of_run {commands : List SchedulerCommand}
    (hsound : Sound state)
    (hrun : Run (fun state command next => Accepts sha256 state command next ∧
      startsCancelling state command.kind = false) state commands next) :
    StaysRevoked state next := by
  induction hrun with
  | nil => exact fun id record hitem hrevoked => ⟨record, hitem, hrevoked⟩
  | cons hstep _ ih =>
      obtain ⟨haccepts, hquiet⟩ := hstep
      have hsound' := sound_of_accepts hsound haccepts
      have hfirst := (staysRevoked_iff hsound hsound').mpr
        ((keepsRevoked_iff hsound haccepts).mpr hquiet)
      intro id record hitem hrevoked
      obtain ⟨middle, hmiddle, hstill⟩ := hfirst id record hitem hrevoked
      exact ih hsound' id middle hmiddle hstill

/-- Cancellation is never revoked, but by an acknowledged start of work that is
being cancelled: one accepted command, and every run without such commands. -/
theorem cancellation_irrevocable
    (hreach : Reachable (Started sha256) (Accepts sha256) state) :
    (∀ command next, Accepts sha256 state command next →
      (StaysRevoked state next ↔
        startsCancelling state command.kind = false)) ∧
    ∀ commands next,
      Run (fun state command next => Accepts sha256 state command next ∧
        startsCancelling state command.kind = false) state commands next →
      StaysRevoked state next := by
  have hsound := sound_of_reachable hreach
  constructor
  · intro command next haccepts
    rw [staysRevoked_iff hsound (sound_of_accepts hsound haccepts)]
    exact keepsRevoked_iff hsound haccepts
  · intro commands next hrun
    exact staysRevoked_of_run hsound hrun

end Commands

/-! ### Cancelled before its start is acknowledged -/

def lateStart : List Request :=
  [(.ofNat 25, .acknowledgeStart (.ofNat 30))]

theorem running_lateStart (sha256 : List UInt8 → Sha256Digest) :
    ((attempts sha256 (smallStart sha256) smallRequests).bind fun state =>
      (attempts sha256 state lateStart).map fun next =>
        (state.work.map (·.phase), next.work.map (·.phase))) =
      some ([.cancelling], [.running]) := by
  cbv

/-- Whatever the hash, cancelling work is started again. -/
theorem cancelling_work_started :
    ¬ ∃ sha256, ∀ state,
      Reachable (Started sha256) (Accepts sha256) state →
      ∀ command next, Accepts sha256 state command next →
      StaysRevoked state next := by
  rintro ⟨sha256, hclaim⟩
  obtain ⟨state, hstate, hlate⟩ :=
    Option.bind_eq_some_iff.mp (running_lateStart sha256)
  obtain ⟨next, hnext, hphases⟩ := Option.map_eq_some_iff.mp hlate
  obtain ⟨hcancelling, hrunning⟩ := Prod.mk.inj hphases
  obtain ⟨commands, _, hrun⟩ := run_of_attempts hstate
  obtain ⟨command, -, haccepts⟩ := accepts_of_attempts hnext
  have hreach : Reachable (Started sha256) (Accepts sha256) state :=
    ⟨_, commands, started_smallStart sha256, hrun⟩
  have hsound := sound_of_reachable hreach
  have hsound' := sound_of_accepts hsound haccepts
  obtain ⟨record, hrecord, hphase⟩ := List.mem_map.mp
    (hcancelling ▸ List.mem_singleton_self WorkPhase.cancelling)
  obtain ⟨updated, hupdated, _, hrevoked⟩ :=
    (staysRevoked_iff hsound hsound').mp
      (hclaim state hreach command next haccepts) record hrecord (.inl hphase)
  have hrun' : updated.phase = .running := by
    have hmem := List.mem_map_of_mem (f := fun record => record.phase) hupdated
    rw [hrunning] at hmem
    exact List.mem_singleton.mp hmem
  rcases hrevoked with h | ⟨h, _⟩ <;> rw [hrun'] at h <;> cases h

theorem cancellation_irrevocable_of_acknowledged : ∃ state command next,
    Accepts (fun _ => zeroDigest) state command next ∧
      state.work.map (·.phase) = [.cancelling] ∧ StaysRevoked state next := by
  obtain ⟨commands, state, command, next, hrun, haccepts, hkind, hcancelling, -⟩ :=
    exists_smallAcknowledged fun _ => zeroDigest
  have hstays := ((cancellation_irrevocable
    ⟨_, commands, started_smallStart _, hrun⟩).1 command next haccepts).mpr
  refine ⟨state, command, next, haccepts, hcancelling, hstays ?_⟩
  rw [hkind]
  rfl

end Peritus.Scheduler.Cancellation
