import Peritus.Scheduler.Ownership

/-!
The history of a scheduler: each accepted dispatch is one attempt of one piece of
work, and work only advances.
-/

namespace Peritus.Scheduler.History

open Peritus.Types TransitionSystem SortedTable State Mutation Reducer Invariant Edits
open Refresh Ownership

variable {sha256 : List UInt8 → Sha256Digest} {kind : SchedulerCommandKind}
variable {state next : SchedulerState} {record updated : WorkRecord}
variable {commands : List SchedulerCommand}

/-! ### Attempts -/

/-- The attempts that all retained work has started. -/
def attemptsStarted (state : SchedulerState) : Nat :=
  (state.work.map WorkRecord.attemptsStarted).sum

theorem attemptsStarted_replaceRow (hsound : Sound state)
    (hrecord : record ∈ state.work) (hid : updated.id = record.id) :
    ((replaceRow WorkRecord.id updated state.work).map
        WorkRecord.attemptsStarted).sum + record.attemptsStarted =
      attemptsStarted state + updated.attemptsStarted := by
  rw [sum_replaceRow _ hsound.work.sorted hrecord hid]
  rfl

/-- Attempts and identities of dispatches grow together. -/
theorem attemptsStarted_of_edit (hsound : Sound state)
    (hattempts : attemptsStarted state = state.usedDispatches.length)
    (hedit : Edit sha256 kind state next) :
    attemptsStarted next = next.usedDispatches.length := by
  cases hedit with
  | admitted =>
      change ((insertWork _ _).work.map _).sum = _
      simp only [insertWork, (perm_insertAt.map _).sum_nat, List.map_cons, List.sum_cons]
      exact (Nat.zero_add _).trans hattempts
  | rewrite hrecord hrewrite =>
      have hsum := attemptsStarted_replaceRow hsound hrecord
        (holds_of_rewrite hrewrite).1
      rw [attempts_of_rewrite hrewrite] at hsum
      exact (Nat.add_right_cancel hsum).trans hattempts
  | release hreservation hrecord hid hrelease =>
      have hactive := hsound.owned.active hreservation hrecord hid
      have hsum := attemptsStarted_replaceRow hsound hrecord
        (rowStep_of_release hsound.work hrecord hactive hrelease).id
      rw [attempts_of_release hrelease] at hsum
      exact (Nat.add_right_cancel hsum).trans hattempts
  | @start reservation record _ _ hrecord =>
      have hsum := attemptsStarted_replaceRow hsound hrecord
        (show (record.setPhase .running).id = record.id from rfl)
      exact (Nat.add_right_cancel hsum).trans hattempts
  | reserve _ _ _ _ hrecord _ hfeasible hbegin =>
      have hsum := attemptsStarted_replaceRow hsound hrecord
        (rowStep_of_begin hsound.work hrecord hfeasible.queued hbegin).id
      obtain ⟨-, -, rfl⟩ := tryBeginAttempt_eq_some hbegin
      change ((replaceRow _ _ _).map _).sum = (insertAt _ _ state.usedDispatches).length
      rw [length_insertAt, ← hattempts]
      dsimp only at hsum
      omega
  | _ => exact hattempts

/-- A command adds no identity to the history, or that of its own dispatch. -/
theorem grown_of_edits (hedits : EditRun sha256 kind state next) :
    next.usedDispatches = state.usedDispatches ∨
      ∃ id token, kind = .dispatchNext id token ∧ id ∈ next.usedDispatches ∧
        next.usedDispatches.length = state.usedDispatches.length + 1 := by
  induction hedits with
  | refl => exact .inl rfl
  | tail _ hedit ih =>
      cases hedit with
      | reserve hkind _ hfresh =>
          rcases ih with hsame | ⟨id, token, hother, hmem, -⟩
          · refine .inr ⟨_, _, hkind, mem_insertAt.mpr (.inl rfl), ?_⟩
            rw [← hsame]
            exact length_insertAt
          · rw [hkind] at hother
            cases hother
            exact absurd hmem hfresh
      | _ => exact ih

theorem length_used_of_accepts (hsound : Sound state) {command : SchedulerCommand}
    (h : Accepts sha256 state command next) :
    next.usedDispatches.length =
      state.usedDispatches.length + (dispatched [command]).length := by
  have hnew := (used_of_accepts hsound h).2
  obtain ⟨transition, hdecide, rfl⟩ := h
  obtain ⟨applied, hcommitted⟩ := committed_of_decideCommand hdecide
  obtain ⟨hfirst, hrefresh⟩ := hcommitted.edits hsound
  obtain ⟨sequence, -, hnext⟩ := hcommitted.committed
  have hused : transition.state.usedDispatches = (refresh applied).usedDispatches := by
    rw [hnext]
    rfl
  rcases grown_of_edits (hfirst.trans hrefresh) with hsame | ⟨id, token, hkind, -, hlength⟩
  · have hnone : dispatched [command] = [] := by
      refine List.eq_nil_iff_forall_not_mem.mpr fun id hid => ?_
      rcases dispatched_cons hid with ⟨token, hkind⟩ | ⟨⟨⟩⟩
      obtain ⟨hfresh, hmem⟩ := hnew id token hkind
      rw [hused, hsame] at hmem
      exact hfresh hmem
    rw [hused, hsame, hnone]
    rfl
  · rw [hused, hlength]
    simp [dispatched, hkind]

theorem length_used_of_run (hsound : Sound state)
    (hrun : Run (Accepts sha256) state commands next) :
    next.usedDispatches.length =
      state.usedDispatches.length + (dispatched commands).length := by
  induction hrun with
  | nil => rfl
  | @cons state middle last command rest hstep _ ih =>
      have hcons : dispatched (command :: rest) =
          dispatched [command] ++ dispatched rest := List.filterMap_append (l := [command])
      rw [ih (sound_of_accepts hsound hstep), length_used_of_accepts hsound hstep,
        hcons, List.length_append, Nat.add_assoc]

/-! ### Advance -/

/-- What a record may become: it keeps its place and its attempts, and once settled
it does not change at all. -/
structure Advances (record later : WorkRecord) : Prop where
  spec : later.spec = record.spec
  ordinal : later.enqueueOrdinal = record.enqueueOrdinal
  attempts : record.attemptsStarted ≤ later.attemptsStarted
  settled : record.phase = .terminal → later = record

theorem Advances.refl (record : WorkRecord) : Advances record record :=
  ⟨rfl, rfl, le_rfl, fun _ => rfl⟩

theorem Advances.trans {first middle last : WorkRecord} (hfirst : Advances first middle)
    (hsecond : Advances middle last) : Advances first last where
  spec := hsecond.spec.trans hfirst.spec
  ordinal := hsecond.ordinal.trans hfirst.ordinal
  attempts := hfirst.attempts.trans hsecond.attempts
  settled hterminal := by
    have hsame := hfirst.settled hterminal
    rw [hsecond.settled (hsame ▸ hterminal), hsame]

/-- All work is still there, further on. -/
def WorkAdvances (state next : SchedulerState) : Prop :=
  ∀ record ∈ state.work, ∃ later ∈ next.work, Advances record later

theorem workAdvances_replaceRow (hsound : Sound state) (hrecord : record ∈ state.work)
    (hwork : next.work = replaceRow WorkRecord.id updated state.work)
    (hopen : record.phase ≠ .terminal) (hspec : updated.spec = record.spec)
    (hordinal : updated.enqueueOrdinal = record.enqueueOrdinal)
    (hattempts : record.attemptsStarted ≤ updated.attemptsStarted) :
    WorkAdvances state next := by
  have hid : updated.id = record.id := congrArg WorkSpec.id hspec
  intro other hother
  rw [hwork]
  by_cases hsame : other.id = record.id
  · cases hsound.work.sorted.inj hother hrecord hsame
    exact ⟨updated, (mem_replaceRow hsound.work.sorted hrecord hid).mpr (.inl rfl),
      hspec, hordinal, hattempts, fun h => absurd h hopen⟩
  · exact ⟨other, (mem_replaceRow hsound.work.sorted hrecord hid).mpr
      (.inr ⟨hother, hsame⟩), .refl other⟩

theorem workAdvances_of_edit (hsound : Sound state)
    (hedit : Edit sha256 kind state next) : WorkAdvances state next := by
  cases hedit with
  | admitted =>
      exact fun record hrecord => ⟨record, mem_insertAt.mpr (.inr hrecord), .refl _⟩
  | rewrite hrecord hrewrite =>
      have hrow := rowStep_of_rewrite hsound.work hrecord hrewrite
      refine workAdvances_replaceRow hsound hrecord rfl ?_ hrow.spec hrow.ordinal
        (attempts_of_rewrite hrewrite).ge
      intro hterminal
      cases hrewrite <;> simp_all [WorkPhase.isActive]
  | release hreservation hrecord hid hrelease =>
      have hactive := hsound.owned.active hreservation hrecord hid
      have hrow := rowStep_of_release hsound.work hrecord hactive hrelease
      exact workAdvances_replaceRow hsound hrecord rfl (ne_of_isActive hactive).1
        hrow.spec hrow.ordinal (attempts_of_release hrelease).ge
  | start _ hreservation hrecord hid =>
      have hactive := hsound.owned.active hreservation hrecord hid
      exact workAdvances_replaceRow hsound hrecord rfl (ne_of_isActive hactive).1 rfl
        rfl le_rfl
  | reserve _ _ _ _ hrecord _ hfeasible hbegin =>
      obtain ⟨-, -, rfl⟩ := tryBeginAttempt_eq_some hbegin
      refine workAdvances_replaceRow hsound hrecord rfl ?_ rfl rfl (Nat.le_succ _)
      rw [hfeasible.queued]
      decide
  | _ => exact fun record hrecord => ⟨record, hrecord, .refl _⟩

theorem workAdvances_of_edits (hsound : Sound state)
    (hedits : EditRun sha256 kind state next) : WorkAdvances state next := by
  induction hedits with
  | refl => exact fun record hrecord => ⟨record, hrecord, .refl _⟩
  | tail hbefore hlast ih =>
      intro record hrecord
      obtain ⟨middle, hmiddle, hfirst⟩ := ih record hrecord
      obtain ⟨later, hlater, hsecond⟩ :=
        workAdvances_of_edit (sound_of_edits hsound hbefore) hlast middle hmiddle
      exact ⟨later, hlater, hfirst.trans hsecond⟩

theorem workAdvances_of_run (hsound : Sound state)
    (hrun : Run (Accepts sha256) state commands next) : WorkAdvances state next := by
  induction hrun with
  | nil => exact fun record hrecord => ⟨record, hrecord, .refl _⟩
  | cons hstep _ ih =>
      intro record hrecord
      obtain ⟨applied, event, -, hedits, hrefresh, hwork, -⟩ :=
        edits_of_accepts hsound hstep
      obtain ⟨middle, hmiddle, hfirst⟩ :=
        workAdvances_of_edits hsound (hedits.trans hrefresh) record hrecord
      obtain ⟨later, hlater, hsecond⟩ :=
        ih (sound_of_accepts hsound hstep) middle (hwork ▸ hmiddle)
      exact ⟨later, hlater, hfirst.trans hsecond⟩

/-- In every run each accepted dispatch is one attempt of one piece of work, and
from any state on all work is kept, loses no attempt, and once settled is final. -/
theorem work_history {genesis : SchedulerState} {later : List SchedulerCommand}
    (hstarted : Started sha256 genesis)
    (hrun : Run (Accepts sha256) genesis commands state)
    (hrest : Run (Accepts sha256) state later next) :
    attemptsStarted state = (dispatched commands).length ∧ WorkAdvances state next := by
  have hreach : Reachable (Started sha256) (Accepts sha256) state :=
    ⟨genesis, commands, hstarted, hrun⟩
  constructor
  · have hused : attemptsStarted state = state.usedDispatches.length :=
      holds_of_reachable (fun state => attemptsStarted state = state.usedDispatches.length)
        (fun _ _ _ _ => rfl) (fun _ _ _ hsound => attemptsStarted_of_edit hsound)
        (fun _ _ _ _ _ h => h) hreach
    rw [hused, length_used_of_run (sound_of_started hstarted) hrun]
    obtain ⟨command, transition, hstart, rfl⟩ := hstarted
    obtain ⟨binding, -, -, hstate⟩ := start_eq_ok hstart
    rw [hstate]
    exact Nat.zero_add _
  · exact workAdvances_of_run (sound_of_reachable hreach) hrest

theorem work_history_of_acknowledged : ∃ commands command state next,
    Run (Accepts fun _ => zeroDigest) (smallStart fun _ => zeroDigest) commands state ∧
    Accepts (fun _ => zeroDigest) state command next ∧
    next.work.map (·.phase) = [.terminal] ∧
    attemptsStarted state = (dispatched commands).length ∧ WorkAdvances state next := by
  obtain ⟨commands, state, command, next, hrun, haccepts, -, -, hterminal⟩ :=
    exists_smallAcknowledged fun _ => zeroDigest
  exact ⟨commands, command, state, next, hrun, haccepts, hterminal,
    work_history (started_smallStart _) hrun (.cons haccepts (.nil next))⟩

end Peritus.Scheduler.History
