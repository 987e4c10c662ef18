import Peritus.Scheduler.Sweeps

/-!
The refresh after every command: dependency propagation reaches a state in
which nothing is due, and the phases of workers follow their reservations.
With it an accepted command is a run of edits.
-/

namespace Peritus.Scheduler.Refresh

open Relation
open Peritus.Types Checked Collections SortedTable Limits State Canonical
open Mutation Reducer Invariant Edits Handlers Sweeps

variable {sha256 : List UInt8 → Sha256Digest} {kind : SchedulerCommandKind}
variable {state next : SchedulerState} {record : WorkRecord}

/-! ### The scan of one record -/

/-- The outcome of a retained dependency, once it has one. -/
def outcomeOf (state : SchedulerState) (dependency : WorkId) :
    Option WorkTerminal :=
  (state.workItem dependency).bind WorkRecord.terminal

theorem succeeded_of_outcomeOf {dependency : WorkId} {digest : Sha256Digest}
    (h : outcomeOf state dependency = some (.succeeded digest)) :
    Succeeded state.work dependency := by
  obtain ⟨record, hitem, hterminal⟩ := Option.bind_eq_some_iff.mp h
  obtain ⟨hrecord, hid⟩ := mem_of_workItem hitem
  exact ⟨record, hrecord, hid, digest, hterminal⟩

theorem outcomeOf_of_succeeded (hsound : Sound state) {dependency : WorkId}
    (h : Succeeded state.work dependency) :
    ∃ digest, outcomeOf state dependency = some (.succeeded digest) := by
  obtain ⟨record, hrecord, hid, digest, hterminal⟩ := h
  refine ⟨digest, ?_⟩
  unfold outcomeOf SchedulerState.workItem
  rw [lookup_of_mem hsound.work.sorted hrecord hid]
  exact hterminal

variable {waiting allSuccess : Bool} {dependencies : List WorkId}

theorem dependencyScan_ready
    (h : dependencyScan state waiting dependencies allSuccess = .ready) :
    allSuccess = true ∧ waiting = true ∧
      ∀ dependency ∈ dependencies, Succeeded state.work dependency := by
  induction dependencies generalizing allSuccess with
  | nil =>
      unfold dependencyScan at h
      split at h
      · rename_i hboth
        rw [Bool.and_eq_true] at hboth
        exact ⟨hboth.1, hboth.2, fun _ hmem => by cases hmem⟩
      · cases h
  | cons dependency rest ih =>
      unfold dependencyScan at h
      split at h
      · rename_i digest hfound
        obtain ⟨hall, hwaiting, hrest⟩ := ih h
        exact ⟨hall, hwaiting, List.forall_mem_cons.mpr
          ⟨succeeded_of_outcomeOf hfound, hrest⟩⟩
      · cases h
      · cases (ih h).1

/-- Nothing is due: no dependency has failed, and work that waits still has
one that has not succeeded. -/
theorem dependencyScan_noChange
    (h : dependencyScan state waiting dependencies allSuccess = .noChange) :
    (∀ dependency ∈ dependencies, ∀ outcome,
      outcomeOf state dependency = some outcome → outcome.isSucceeded = true) ∧
      (allSuccess = true → waiting = true → ∃ dependency ∈ dependencies,
        outcomeOf state dependency = none) := by
  induction dependencies generalizing allSuccess with
  | nil =>
      unfold dependencyScan at h
      split at h
      · cases h
      · rename_i hboth
        refine ⟨fun _ hmem => (by cases hmem), fun hall hwaiting => ?_⟩
        rw [hall, hwaiting] at hboth
        exact absurd rfl hboth
  | cons dependency rest ih =>
      unfold dependencyScan at h
      split at h
      · rename_i digest hfound
        obtain ⟨hgood, hpending⟩ := ih h
        refine ⟨List.forall_mem_cons.mpr ⟨?_, hgood⟩, ?_⟩
        · intro outcome hsome
          rw [outcomeOf, hfound] at hsome
          cases hsome
          rfl
        · intro hall hwaiting
          obtain ⟨other, hother, hnone⟩ := hpending hall hwaiting
          exact ⟨other, List.mem_cons_of_mem _ hother, hnone⟩
      · cases h
      · rename_i hnone
        refine ⟨List.forall_mem_cons.mpr ⟨?_, (ih h).1⟩, fun _ _ =>
          ⟨dependency, List.mem_cons_self, hnone⟩⟩
        intro outcome hsome
        rw [outcomeOf, hnone] at hsome
        cases hsome

/-! ### One change -/

/-- A change that the dependencies of a record call for. -/
def Due (state : SchedulerState) (record : WorkRecord) :
    DependencyAction → Prop
  | .ready => record.phase = .waitingDependencies ∧ Ready state.work record
  | .failed _ => record.phase = .waitingDependencies ∨ record.phase = .queued
  | .noChange => False

theorem due_of_dependencyAction
    (hchange : dependencyAction state record ≠ .noChange) :
    Due state record (dependencyAction state record) := by
  unfold dependencyAction at hchange ⊢
  split at hchange
  · rename_i hphase
    rw [if_pos hphase]
    cases hscan : dependencyScan state
        (decide (record.phase = .waitingDependencies))
        record.spec.dependencies true with
    | noChange => exact absurd hscan hchange
    | ready =>
        obtain ⟨_, hwaiting, hready⟩ := dependencyScan_ready hscan
        exact ⟨of_decide_eq_true hwaiting, hready⟩
    | failed dependency => exact hphase
  · exact absurd rfl hchange

/-- How often dependency propagation can still change a record. -/
def weight (record : WorkRecord) : Nat :=
  match record.phase with
  | .waitingDependencies => 2
  | .queued => 1
  | _ => 0

def potential (state : SchedulerState) : Nat :=
  (state.work.map weight).sum

theorem applyOne_of_due (hsound : Sound state) (hrecord : record ∈ state.work)
    {action : DependencyAction} (hdue : Due state record action) :
    ∃ updated, Rewrite state.binding state.work record updated ∧
      weight updated < weight record ∧
      applyOne state ⟨record.id, action⟩ =
        { state with
          work := replaceRow WorkRecord.id updated state.work } := by
  unfold applyOne
  cases action with
  | noChange => exact hdue.elim
  | ready =>
      refine ⟨record.setPhase .queued, .ready hdue.1 hdue.2, ?_, ?_⟩
      · simp only [weight, hdue.1, WorkRecord.setPhase]
        decide
      · dsimp only
        rw [setWorkPhase, updateWork_eq hsound hrecord]
        rfl
  | failed dependency =>
      refine ⟨record.terminalize (.dependencyFailed dependency),
        .settle _ ?_ rfl, ?_, ?_⟩
      · rcases hdue with hphase | hphase
        · exact .inl hphase
        · exact .inr (.inl hphase)
      · rcases hdue with hphase | hphase <;>
          simp [weight, hphase, WorkRecord.terminalize]
      · dsimp only
        rw [terminalizeWork, updateWork_eq hsound hrecord]
        rfl

theorem phase_of_due {action : DependencyAction}
    (hdue : Due state record action) :
    record.phase = .waitingDependencies ∨ record.phase = .queued := by
  cases action with
  | noChange => exact hdue.elim
  | ready => exact .inl hdue.1
  | failed dependency => exact hdue

/-! ### Rounds -/

/-- What a run of dependency changes keeps besides soundness: the rows that no
dependency can move. -/
def KeepsSettled (state next : SchedulerState) : Prop :=
  ∀ record ∈ state.work, record.phase ≠ .waitingDependencies →
    record.phase ≠ .queued → record ∈ next.work

theorem KeepsSettled.trans {last : SchedulerState}
    (hfirst : KeepsSettled state next) (hsecond : KeepsSettled next last) :
    KeepsSettled state last := fun record hrecord hwaiting hqueued =>
  hsecond record (hfirst record hrecord hwaiting hqueued) hwaiting hqueued

/-- The changes of one round are due when their turn comes, because they are
about different records and success is never taken back. -/
theorem edits_of_changes {changes : List DependencyChange}
    (hsound : Sound state) (hnodup : (changes.map (·.workId)).Nodup)
    (hdue : ∀ change ∈ changes, ∃ record ∈ state.work,
      record.id = change.workId ∧ Due state record change.action) :
    EditRun sha256 kind state (changes.foldl applyOne state) ∧
      KeepsSettled state (changes.foldl applyOne state) ∧
      potential (changes.foldl applyOne state) + changes.length ≤
        potential state := by
  induction changes generalizing state with
  | nil => exact ⟨.refl, fun _ h _ _ => h, Nat.le_refl _⟩
  | cons change rest ih =>
      obtain ⟨id, action⟩ := change
      obtain ⟨hfirst, hrest⟩ := List.nodup_cons.mp hnodup
      obtain ⟨record, hrecord, rfl, haction⟩ := hdue _ List.mem_cons_self
      obtain ⟨updated, hrewrite, hweight, hnext⟩ :=
        applyOne_of_due hsound hrecord haction
      have hid := (holds_of_rewrite hrewrite).1
      have hedit : Edit sha256 kind state
          { state with
            work := replaceRow WorkRecord.id updated state.work } :=
        .rewrite hrecord hrewrite
      have hrows := rows_of_rowStep hsound.work hrecord
        (rowStep_of_rewrite hsound.work hrecord hrewrite)
      rw [List.foldl_cons, hnext]
      obtain ⟨hedits, hkeeps, hpotential⟩ :=
        ih (sound_of_edit hsound hedit) hrest fun other hother => by
          obtain ⟨found, hfound, hsame, hother'⟩ :=
            hdue other (List.mem_cons_of_mem _ hother)
          refine ⟨found, mem_of_replaced hsound hrecord hid hfound
            fun heq => hfirst (List.mem_map.mpr ⟨other, hother, ?_⟩), hsame, ?_⟩
          · rw [← hsame, heq]
          · cases hcase : other.action with
            | noChange => rw [hcase] at hother'; exact hother'.elim
            | ready =>
                rw [hcase] at hother'
                exact ⟨hother'.1, fun dependency hdependency =>
                  (hother'.2 dependency hdependency).of_rows hrows⟩
            | failed dependency =>
                rw [hcase] at hother'
                exact hother'
      refine ⟨.head hedit hedits, KeepsSettled.trans ?_ hkeeps, ?_⟩
      · intro other hother hwaiting hqueued
        refine mem_of_replaced hsound hrecord hid hother fun heq => ?_
        cases hsound.work.sorted.inj hother hrecord heq
        rcases phase_of_due haction with hphase | hphase
        · exact hwaiting hphase
        · exact hqueued hphase
      · have hsum := sum_replaceRow weight hsound.work.sorted hrecord hid
        unfold potential at hpotential ⊢
        rw [List.length_cons]
        dsimp only at hpotential
        omega

theorem mem_collectDependencyChanges {change : DependencyChange} :
    change ∈ collectDependencyChanges state ↔ ∃ record ∈ state.work,
      dependencyAction state record ≠ .noChange ∧
        change = ⟨record.id, dependencyAction state record⟩ := by
  unfold collectDependencyChanges
  rw [List.mem_filterMap]
  refine exists_congr fun record => and_congr_right fun _ => ?_
  split
  · rename_i hnone
    simp [hnone]
  · rename_i action hsome
    rw [Option.some.injEq]
    exact ⟨fun h => ⟨hsome, h.symm⟩, fun h => h.2.symm⟩

theorem collectDependencyChanges_ids :
    ((collectDependencyChanges state).map (·.workId)).Sublist
      (state.work.map WorkRecord.id) := by
  unfold collectDependencyChanges
  generalize hwork : state.work = work
  clear hwork
  induction work with
  | nil => exact .slnil
  | cons record rest ih =>
      rw [List.filterMap_cons]
      split
      · exact ih.cons _
      · rename_i change hchange
        split at hchange
        · cases hchange
        · cases hchange
          exact ih.cons_cons _

variable (sha256 kind) in
theorem edits_of_applyDependencyRound (hsound : Sound state) :
    EditRun sha256 kind state (applyDependencyRound state).1 ∧
      KeepsSettled state (applyDependencyRound state).1 ∧
      potential (applyDependencyRound state).1 +
        (collectDependencyChanges state).length ≤ potential state := by
  refine edits_of_changes hsound
    (hsound.work.sorted.nodup_map.sublist collectDependencyChanges_ids) ?_
  intro change hchange
  obtain ⟨record, hrecord, haction, rfl⟩ :=
    mem_collectDependencyChanges.mp hchange
  exact ⟨record, hrecord, rfl, due_of_dependencyAction haction⟩

theorem round_unchanged (h : (applyDependencyRound state).2 = false) :
    collectDependencyChanges state = [] ∧
      (applyDependencyRound state).1 = state := by
  have hempty : collectDependencyChanges state = [] := by
    simpa [applyDependencyRound] using h
  refine ⟨hempty, ?_⟩
  simp [applyDependencyRound, hempty]

theorem round_changed (h : (applyDependencyRound state).2 = true) :
    0 < (collectDependencyChanges state).length := by
  refine List.length_pos_of_ne_nil fun hempty => ?_
  simp [applyDependencyRound, hempty] at h

variable (sha256 kind) in
theorem edits_of_propagateRounds (remaining : Nat) (hsound : Sound state) :
    EditRun sha256 kind state (propagateRounds remaining state) ∧
      KeepsSettled state (propagateRounds remaining state) := by
  induction remaining generalizing state with
  | zero => exact ⟨.refl, fun _ h _ _ => h⟩
  | succ remaining ih =>
      obtain ⟨hfirst, hkeeps, _⟩ :=
        edits_of_applyDependencyRound sha256 kind hsound
      have hsound' := sound_of_edits hsound hfirst
      obtain ⟨hsecond, hkeeps', _⟩ :=
        edits_of_applyDependencyRound sha256 kind hsound'
      unfold propagateRounds
      dsimp only
      split
      · split
        · obtain ⟨hrest, hkeeps''⟩ := ih (sound_of_edits hsound' hsecond)
          exact ⟨(hfirst.trans hsecond).trans hrest,
            (hkeeps.trans hkeeps').trans hkeeps''⟩
        · exact ⟨hfirst.trans hsecond, hkeeps.trans hkeeps'⟩
      · exact ⟨hfirst, hkeeps⟩

theorem weight_le (record : WorkRecord) : weight record ≤ 2 := by
  unfold weight
  split <;> omega

theorem collect_eq_nil_of_potential (h : potential state = 0) :
    collectDependencyChanges state = [] := by
  rw [List.eq_nil_iff_forall_not_mem]
  intro change hchange
  obtain ⟨record, hrecord, haction, _⟩ :=
    mem_collectDependencyChanges.mp hchange
  have hzero : weight record ≤ 0 := h ▸ le_sum_map hrecord
  rcases phase_of_due (due_of_dependencyAction haction) with hphase | hphase <;>
    simp [weight, hphase] at hzero

/-- Two rounds for every unit of two: nothing is due any more. -/
theorem collect_propagateRounds {remaining : Nat} (hsound : Sound state)
    (hpotential : potential state ≤ 2 * remaining) :
    collectDependencyChanges (propagateRounds remaining state) = [] := by
  induction remaining generalizing state with
  | zero => exact collect_eq_nil_of_potential (Nat.le_zero.mp hpotential)
  | succ remaining ih =>
      obtain ⟨hfirst, _, hless⟩ := edits_of_applyDependencyRound
        (fun _ => zeroDigest) .pauseScheduler hsound
      have hsound' := sound_of_edits hsound hfirst
      obtain ⟨hsecond, _, hless'⟩ := edits_of_applyDependencyRound
        (fun _ => zeroDigest) .pauseScheduler hsound'
      unfold propagateRounds
      dsimp only
      split
      · rename_i hchanged
        split
        · rename_i hchanged'
          have hone := round_changed hchanged
          have htwo := round_changed hchanged'
          exact ih (sound_of_edits hsound' hsecond) (by omega)
        · rename_i hunchanged
          obtain ⟨hempty, hsame⟩ :=
            round_unchanged (Bool.eq_false_iff.mpr hunchanged)
          rw [hsame]
          exact hempty
      · rename_i hunchanged
        obtain ⟨hempty, hsame⟩ :=
          round_unchanged (Bool.eq_false_iff.mpr hunchanged)
        rw [hsame]
        exact hempty

theorem collect_propagateDependencies (hsound : Sound state) :
    collectDependencyChanges (propagateDependencies state) = [] := by
  refine collect_propagateRounds hsound ?_
  unfold potential
  refine (sum_map_mono fun record _ => weight_le record).trans ?_
  rw [List.map_const', List.sum_replicate_nat]
  omega

/-! ### Worker phases -/

variable (sha256 kind) in
theorem edits_of_refreshOneWorker (hsound : Sound state) (id : WorkerId) :
    EditRun sha256 kind state (refreshOneWorker state id) ∧
      (refreshOneWorker state id).work = state.work := by
  unfold refreshOneWorker
  split
  · exact ⟨.refl, rfl⟩
  · rename_i worker hfound
    obtain ⟨hworker, rfl⟩ := mem_of_worker hfound
    split
    · exact ⟨.refl, rfl⟩
    · exact ⟨.refl, rfl⟩
    · exact ⟨.refl, rfl⟩
    · rw [setWorkerPhase_eq hsound hworker, Option.getD_some]
      refine ⟨.single (.worker _ hworker fun hphase => ?_), rfl⟩
      split at hphase <;> rcases hphase with hphase | hphase <;> cases hphase

variable (sha256 kind) in
theorem edits_of_refreshWorkerPhases (hsound : Sound state) :
    EditRun sha256 kind state (refreshWorkerPhases state) ∧
      (refreshWorkerPhases state).work = state.work := by
  unfold refreshWorkerPhases
  generalize state.workers.map WorkerRecord.id = ids
  induction ids generalizing state with
  | nil => exact ⟨.refl, rfl⟩
  | cons id rest ih =>
      obtain ⟨hfirst, hwork⟩ :=
        edits_of_refreshOneWorker sha256 kind hsound id
      obtain ⟨hrest, hwork'⟩ := ih (sound_of_edits hsound hfirst)
      exact ⟨hfirst.trans hrest, hwork'.trans hwork⟩

variable (sha256 kind) in
theorem edits_of_refresh (hsound : Sound state) :
    EditRun sha256 kind state (refresh state) ∧
      KeepsSettled state (refresh state) := by
  obtain ⟨hdependencies, hkeeps⟩ := edits_of_propagateRounds sha256 kind
    state.work.length hsound
  obtain ⟨hworkers, hwork⟩ := edits_of_refreshWorkerPhases sha256
    kind (sound_of_edits hsound hdependencies)
  refine ⟨hdependencies.trans hworkers, ?_⟩
  intro record hrecord hwaiting hqueued
  rw [refresh, propagateDependencies, hwork]
  exact hkeeps record hrecord hwaiting hqueued

/-! ### Accepted commands -/

theorem edits_of_phaseControl {changed : Option SchedulerState}
    {detail : String} {emitted event : SchedulerEventKind}
    (hchanged : ∀ found, changed = some found →
      EditRun sha256 kind state found)
    (h : phaseControl changed detail emitted = .ok (next, event)) :
    EditRun sha256 kind state next := by
  unfold phaseControl at h
  split at h
  · cases h
  · rename_i found
    cases h
    exact hchanged next rfl

theorem edits_of_apply (hsound : Sound state) (hopen : state.phase ≠ .terminal)
    {event : SchedulerEventKind}
    (h : apply sha256 state kind = .ok (next, event)) :
    EditRun sha256 kind state next := by
  unfold apply at h
  cases kind with
  | startScheduler binding => cases h
  | registerWorker descriptor => exact edits_of_register hsound h
  | setWorkerAvailable workerId => exact edits_of_available hsound h
  | drainWorker workerId => exact edits_of_drain hsound h
  | loseWorker workerId => exact edits_of_loseWorker hsound h
  | removeWorker workerId => exact edits_of_remove hsound h
  | admitWork spec => exact edits_of_admitWork hopen h
  | dispatchNext dispatchId dispatchToken =>
      exact (edits_of_dispatch sha256 hsound h).1
  | acknowledgeStart dispatchId => exact edits_of_acknowledgeStart hsound h
  | completeWork dispatchId resultDigest => exact edits_of_complete hsound h
  | failWork dispatchId failureDigest disposition =>
      exact edits_of_fail hsound h
  | retryWork workId => exact edits_of_retry hsound h
  | cancelWork workId => exact edits_of_cancel hsound h
  | cancelWorkTree workId => exact edits_of_cancel hsound h
  | acknowledgeCancellation dispatchId =>
      exact edits_of_acknowledgeCancel hsound h
  | exhaustWork workId causeDigest => exact edits_of_exhaust hsound h
  | abandonDispatch dispatchId causeDigest => exact edits_of_abandon hsound h
  | pauseScheduler =>
      refine edits_of_phaseControl (fun found hfound => ?_) h
      unfold pauseScheduler at hfound
      split at hfound <;> cases hfound <;>
        exact .single (.control hopen (by decide))
  | resumeScheduler =>
      refine edits_of_phaseControl (fun found hfound => ?_) h
      unfold resumeScheduler at hfound
      split at hfound <;> cases hfound <;>
        exact .single (.control hopen (by decide))
  | drainScheduler =>
      refine edits_of_phaseControl (fun found hfound => ?_) h
      unfold drainScheduler at hfound
      split at hfound <;> cases hfound <;>
        exact .single (.control hopen (by decide))
  | finalizeScheduler =>
      dsimp only at h
      unfold finalize at h
      split at h
      · rename_i hready
        rw [Bool.and_eq_true, List.isEmpty_iff] at hready
        cases h
        exact .single (.finalize hready.1 hready.2)
      · cases h

/-- The commit after an accepted command. -/
structure Committed (sha256 : List UInt8 → Sha256Digest)
    (state : SchedulerState) (command : SchedulerCommand)
    (applied next : SchedulerState) : Prop where
  opened : state.phase ≠ .terminal
  history : state.usedCommands.length < 65535
  fresh : command.commandId ∉ state.usedCommands
  handled : ∃ event, apply sha256 state command.kind = .ok (applied, event)
  bytes : (refresh applied).estimatedEncodedBytes ≤
    (refresh applied).binding.limits.stateBytes
  committed : ∃ sequence : EventSequence,
    sequence.get = state.sequence.get + 1 ∧
    next =
      { advanceCursor (refresh applied) sequence command.eventId
          command.commandId with
        stateDigest := stateDigest sha256
          (advanceCursor (refresh applied) sequence command.eventId
            command.commandId) }

theorem committed_of_decideCommand {command : SchedulerCommand}
    {transition : SchedulerTransition}
    (h : decideCommand sha256 state command = .ok transition) :
    ∃ applied, Committed sha256 state command applied transition.state := by
  unfold decideCommand at h
  obtain ⟨hfences, h⟩ := check_bind_eq_ok_iff.mp h
  obtain ⟨sequence, hsequence, h⟩ := bind_eq_ok_iff.mp h
  obtain ⟨⟨applied, event⟩, happlied, h⟩ := bind_eq_ok_iff.mp h
  obtain ⟨hbytes, h⟩ := ensure_bind_eq_ok_iff.mp h
  cases h
  unfold validateFences at hfences
  simp only [ensure_bind_eq_ok_iff, ensure_eq_ok_iff, Bool.and_eq_true,
    decide_eq_true_eq] at hfences
  have hnext : sequence.get = state.sequence.get + 1 := by
    unfold checkedNextSequence at hsequence
    split at hsequence
    · rename_i hchecked
      cases hsequence
      exact PositiveNumber.checkedNext_eq_ok_iff.mp hchecked
    · cases hsequence
  exact ⟨applied,
    { opened := hfences.1
      history := hfences.2.1
      fresh := hfences.2.2.1.2
      handled := ⟨event, happlied⟩
      bytes := of_decide_eq_true hbytes
      committed := ⟨sequence, hnext, rfl⟩ }⟩

theorem Committed.edits {command : SchedulerCommand}
    {applied next : SchedulerState} (hsound : Sound state)
    (hcommitted : Committed sha256 state command applied next) :
    EditRun sha256 command.kind state applied ∧
      EditRun sha256 command.kind applied (refresh applied) := by
  obtain ⟨event, happlied⟩ := hcommitted.handled
  have hedits := edits_of_apply hsound hcommitted.opened happlied
  exact ⟨hedits, (edits_of_refresh sha256 command.kind
    (sound_of_edits hsound hedits)).1⟩

theorem sound_of_advanceCursor (hsound : Sound state) (sequence : EventSequence)
    (eventId : EventId) (commandId : CommandId) (digest : Sha256Digest) :
    Sound { advanceCursor state sequence eventId commandId with
      stateDigest := digest } :=
  { hsound with ledger := { hsound.ledger with } }

theorem sound_of_decideCommand {command : SchedulerCommand}
    {transition : SchedulerTransition} (hsound : Sound state)
    (h : decideCommand sha256 state command = .ok transition) :
    Sound transition.state := by
  obtain ⟨applied, hcommitted⟩ := committed_of_decideCommand h
  obtain ⟨hedits, hrefresh⟩ := hcommitted.edits hsound
  obtain ⟨sequence, _, hnext⟩ := hcommitted.committed
  rw [hnext]
  exact sound_of_advanceCursor
    (sound_of_edits hsound (hedits.trans hrefresh)) _ _ _ _

end Peritus.Scheduler.Refresh
