import Peritus.Scheduler.Ownership

/-!
The fixed point that the refresh after a command reaches.  In the state of an
accepted command nothing is due: queued work has all its dependencies, waiting
work lacks one that may still succeed, and a failure has ended everything that
depends on it, however long the chain.
-/

namespace Peritus.Scheduler.Propagation

open Relation
open Peritus.Types TransitionSystem SortedTable Limits State Mutation
open Reducer Invariant Edits Refresh Ownership

variable {sha256 : List UInt8 → Sha256Digest} {kind : SchedulerCommandKind}
variable {state next : SchedulerState} {work : List WorkRecord}
variable {record other updated : WorkRecord}

/-- Retained work that another record of the table names as a dependency. -/
def DependsOn (work : List WorkRecord) (record other : WorkRecord) : Prop :=
  record ∈ work ∧ other ∈ work ∧ other.id ∈ record.spec.dependencies

/-- Work that ended without success: failed, cancelled or given up. -/
def Failed (record : WorkRecord) : Prop :=
  ∃ outcome, record.terminal = some outcome ∧ outcome.isSucceeded = false

theorem Failed.not_succeeded (hsorted : Sorted WorkRecord.id work)
    (hrecord : record ∈ work) (hfailed : Failed record) :
    ¬ Succeeded work record.id := by
  rintro ⟨found, hfound, hid, digest, hterminal⟩
  obtain ⟨outcome, houtcome, hbad⟩ := hfailed
  cases hsorted.inj hfound hrecord hid
  rw [hterminal] at houtcome
  cases houtcome
  cases hbad

/-! ### Success is earned -/

/-- Work that succeeded had all its dependencies. -/
def Earned (work : List WorkRecord) : Prop :=
  ∀ record ∈ work, ∀ digest, record.terminal = some (.succeeded digest) →
    Ready work record

theorem earned_of_same (hearned : Earned state.work)
    (hwork : next.work = state.work) : Earned next.work := by
  rw [hwork]
  exact hearned

theorem earned_replaceRow (hsound : Sound state) (hearned : Earned state.work)
    (hrecord : record ∈ state.work)
    (hrow : RowStep state.binding state.work record updated)
    (hnew : ∀ digest, updated.terminal = some (.succeeded digest) →
      Ready state.work record) :
    Earned (replaceRow WorkRecord.id updated state.work) := by
  have hrows := rows_of_rowStep hsound.work hrecord hrow
  have hready : ∀ found ∈ replaceRow WorkRecord.id updated state.work,
      ∀ digest, found.terminal = some (.succeeded digest) →
        Ready state.work found := by
    intro found hfound digest hterminal
    rcases (mem_replaceRow hsound.work.sorted hrecord hrow.id).mp hfound with
      rfl | ⟨hold, -⟩
    · intro dependency hdependency
      rw [hrow.spec] at hdependency
      exact hnew digest hterminal dependency hdependency
    · exact hearned found hold digest hterminal
  intro found hfound digest hterminal dependency hdependency
  exact (hready found hfound digest hterminal dependency hdependency).of_rows
    hrows

theorem not_succeeded_of_isActive (hsound : Sound state)
    (hrecord : record ∈ state.work) (hactive : record.phase.isActive = true) :
    record.terminal = none ∧ Ready state.work record := by
  obtain ⟨hterminal, -, hwaiting⟩ := ne_of_isActive hactive
  exact ⟨(hsound.work.records record hrecord).not_settled hterminal,
    hsound.work.ready record hrecord hwaiting hterminal⟩

theorem earned_of_edit (hsound : Sound state) (hearned : Earned state.work)
    (hedit : Edit sha256 kind state next) : Earned next.work := by
  cases hedit with
  | worker => exact earned_of_same hearned rfl
  | register => exact earned_of_same hearned rfl
  | @admitted spec _ _ hchecked =>
      intro found hfound digest hterminal dependency hdependency
      rcases mem_insertAt.mp hfound with rfl | hold
      · cases hterminal
      · obtain ⟨succeeded, hsucceeded, hid, hsettled⟩ :=
          hearned found hold digest hterminal dependency hdependency
        exact ⟨succeeded, mem_insertAt.mpr (.inr hsucceeded), hid, hsettled⟩
  | rewrite hrecord hrewrite =>
      have hrow := rowStep_of_rewrite hsound.work hrecord hrewrite
      refine earned_replaceRow hsound hearned hrecord hrow ?_
      intro digest hterminal
      cases hrewrite with
      | ready hphase hready => exact hready
      | settle outcome _ hfailed =>
          cases hterminal
          cases hfailed
      | retry => exact hearned _ hrecord digest hterminal
      | cancelling => exact hearned _ hrecord digest hterminal
      | bypass => exact hearned _ hrecord digest hterminal
  | release hreservation hrecord hid hrelease =>
      have hactive := hsound.owned.active hreservation hrecord hid
      exact earned_replaceRow hsound hearned hrecord
        (rowStep_of_release hsound.work hrecord hactive hrelease)
        fun _ _ => (not_succeeded_of_isActive hsound hrecord hactive).2
  | start _ hreservation hrecord hid =>
      have hactive := hsound.owned.active hreservation hrecord hid
      obtain ⟨hterminal, hretry, hwaiting⟩ := ne_of_isActive hactive
      exact earned_replaceRow hsound hearned hrecord
        (rowStep_setPhase hsound.work hrecord hterminal hretry
          ⟨by decide, by decide⟩ fun h => absurd h hwaiting)
        fun _ _ => (not_succeeded_of_isActive hsound hrecord hactive).2
  | reserve _ _ _ _ hrecord _ hfeasible hbegin =>
      refine earned_replaceRow hsound hearned hrecord
        (rowStep_of_begin hsound.work hrecord hfeasible.queued hbegin) ?_
      intro _ _
      apply hsound.work.ready _ hrecord <;> rw [hfeasible.queued] <;> decide
  | control => exact earned_of_same hearned rfl
  | finalize => exact earned_of_same hearned rfl

theorem earned_of_reachable
    (h : Reachable (Started sha256) (Accepts sha256) state) :
    Earned state.work := by
  refine holds_of_reachable (fun state => Earned state.work) ?_ ?_ ?_ h
  · intro _ _ _ _ record hrecord
    cases hrecord
  · intro kind first last hsound hearned hedit
    exact earned_of_edit hsound hearned hedit
  · exact fun _ _ _ _ _ hearned => hearned

/-! ### Nothing is due -/

theorem scan_of_collected (hempty : collectDependencyChanges state = [])
    (hrecord : record ∈ state.work)
    (hphase : record.phase = .waitingDependencies ∨ record.phase = .queued) :
    dependencyScan state (decide (record.phase = .waitingDependencies))
      record.spec.dependencies true = .noChange := by
  have hnone : dependencyAction state record = .noChange := by
    by_contra hchange
    have hmem : (⟨record.id, dependencyAction state record⟩ :
        DependencyChange) ∈ collectDependencyChanges state :=
      mem_collectDependencyChanges.mpr ⟨record, hrecord, hchange, rfl⟩
    simp [hempty] at hmem
  rwa [dependencyAction, if_pos hphase] at hnone

theorem outcomeOf_of_failed (hsound : Sound state) (hother : other ∈ state.work)
    (hfailed : Failed other) : ∃ outcome,
      outcomeOf state other.id = some outcome ∧ outcome.isSucceeded = false := by
  obtain ⟨outcome, houtcome, hbad⟩ := hfailed
  refine ⟨outcome, ?_, hbad⟩
  simp [outcomeOf, SchedulerState.workItem,
    lookup_of_mem hsound.work.sorted hother rfl, houtcome]

/-- Open work at the fixed point has no failed dependency. -/
theorem not_failed_of_collected (hsound : Sound state)
    (hempty : collectDependencyChanges state = [])
    (hphase : record.phase = .waitingDependencies ∨ record.phase = .queued)
    (hdepends : DependsOn state.work record other) : ¬ Failed other := by
  intro hfailed
  obtain ⟨hrecord, hother, hdependency⟩ := hdepends
  obtain ⟨outcome, houtcome, hbad⟩ := outcomeOf_of_failed hsound hother hfailed
  have hgood := (dependencyScan_noChange
    (scan_of_collected hempty hrecord hphase)).1 _ hdependency outcome houtcome
  rw [hbad] at hgood
  cases hgood

theorem not_ready_of_collected (hsound : Sound state)
    (hempty : collectDependencyChanges state = [])
    (hrecord : record ∈ state.work)
    (hwaiting : record.phase = .waitingDependencies) :
    ¬ Ready state.work record := by
  intro hready
  obtain ⟨dependency, hdependency, hnone⟩ := (dependencyScan_noChange
    (scan_of_collected hempty hrecord (.inl hwaiting))).2 rfl
      (decide_eq_true hwaiting)
  obtain ⟨digest, hsome⟩ :=
    outcomeOf_of_succeeded hsound (hready dependency hdependency)
  rw [hnone] at hsome
  cases hsome

/-- At the fixed point a failure has ended what depends on it. -/
theorem failed_of_dependsOn (hsound : Sound state) (hearned : Earned state.work)
    (hempty : collectDependencyChanges state = [])
    (hdepends : DependsOn state.work record other) (hfailed : Failed other) :
    Failed record := by
  obtain ⟨hrecord, hother, hdependency⟩ := hdepends
  have hnot : ¬ Ready state.work record := fun hready =>
    hfailed.not_succeeded hsound.work.sorted hother (hready _ hdependency)
  have hterminal : record.phase = .terminal := by
    by_contra hopen
    by_cases hwaiting : record.phase = .waitingDependencies
    · exact not_failed_of_collected hsound hempty (.inl hwaiting)
        ⟨hrecord, hother, hdependency⟩ hfailed
    · exact hnot (hsound.work.ready record hrecord hwaiting hopen)
  obtain ⟨outcome, houtcome⟩ := Option.isSome_iff_exists.mp
    ((hsound.work.records record hrecord).terminal.mp hterminal)
  refine ⟨outcome, houtcome, ?_⟩
  rw [Bool.eq_false_iff]
  intro hsucceeded
  obtain ⟨digest, rfl⟩ : ∃ digest, outcome = .succeeded digest := by
    cases outcome with
    | succeeded digest => exact ⟨digest, rfl⟩
    | _ => cases hsucceeded
  exact hnot (hearned record hrecord digest houtcome)

theorem failed_of_transGen (hsound : Sound state) (hearned : Earned state.work)
    (hempty : collectDependencyChanges state = [])
    (hchain : TransGen (DependsOn state.work) record other)
    (hfailed : Failed other) : Failed record := by
  induction hchain with
  | single hdepends =>
      exact failed_of_dependsOn hsound hearned hempty hdepends hfailed
  | tail _ hdepends ih =>
      exact ih (failed_of_dependsOn hsound hearned hempty hdepends hfailed)

/-! ### The state of an accepted command -/

/-- The scan of a record reads the outcomes of its dependencies alone. -/
theorem scan_congr (h : ∀ id, outcomeOf next id = outcomeOf state id)
    (waiting : Bool) (dependencies : List WorkId) (allSuccess : Bool) :
    dependencyScan next waiting dependencies allSuccess =
      dependencyScan state waiting dependencies allSuccess := by
  unfold outcomeOf at h
  induction dependencies generalizing allSuccess with
  | nil => rfl
  | cons dependency rest ih =>
      simp only [dependencyScan, h, ih]

theorem collect_congr (hwork : next.work = state.work) :
    collectDependencyChanges next = collectDependencyChanges state := by
  have hout : ∀ id, outcomeOf next id = outcomeOf state id := by
    intro id
    rw [outcomeOf, outcomeOf, SchedulerState.workItem, SchedulerState.workItem,
      hwork]
  have hscan := scan_congr hout
  simp only [collectDependencyChanges, dependencyAction, hscan, hwork]

theorem round_of_collected (hempty : collectDependencyChanges state = []) :
    applyDependencyRound state = (state, false) := by
  simp [applyDependencyRound, hempty]

theorem collect_of_accepts {command : SchedulerCommand} (hsound : Sound state)
    (h : Accepts sha256 state command next) :
    collectDependencyChanges next = [] := by
  obtain ⟨applied, event, -, hedits, -, hwork, -⟩ := edits_of_accepts hsound h
  have hsound' := sound_of_edits hsound hedits
  have hworkers := edits_of_refreshWorkerPhases sha256 command.kind
    (sound_of_edits hsound'
      (edits_of_propagateRounds sha256 command.kind applied.work.length
        hsound').1)
  rw [collect_congr (hwork.trans hworkers.2)]
  exact collect_propagateDependencies hsound'

theorem collect_of_reachable
    (h : Reachable (Started sha256) (Accepts sha256) state) :
    collectDependencyChanges state = [] := by
  suffices hboth : Sound state ∧ collectDependencyChanges state = [] from
    hboth.2
  refine @Reachable.invariant _ _ _ _
    (fun state => Sound state ∧ collectDependencyChanges state = []) ?_ ?_ _ h
  · intro first hstarted
    refine ⟨sound_of_started hstarted, ?_⟩
    obtain ⟨command, transition, hstart, rfl⟩ := hstarted
    obtain ⟨binding, -, -, hstate⟩ := start_eq_ok hstart
    rw [hstate]
    rfl
  · rintro first command last ⟨hsound, -⟩ haccepts
    exact ⟨sound_of_accepts hsound haccepts, collect_of_accepts hsound haccepts⟩

/-- After every accepted command dependency propagation is at its fixed point:
queued work is ready, waiting work has no failed dependency and is not ready,
and a failure has reached all that depends on it.  Whatever command comes next,
the rounds that its refresh may make are enough: one more changes nothing. -/
theorem refresh_reaches_fixed_point
    (hreach : Reachable (Started sha256) (Accepts sha256) state) :
    (∀ record ∈ state.work,
      (record.phase = .queued → Ready state.work record) ∧
      (record.phase = .waitingDependencies →
        (∀ other, DependsOn state.work record other → ¬ Failed other) ∧
          ¬ Ready state.work record)) ∧
    (∀ record failed, TransGen (DependsOn state.work) record failed →
      Failed failed → Failed record) ∧
    (∀ kind applied event, state.phase ≠ .terminal →
      apply sha256 state kind = .ok (applied, event) →
      applyDependencyRound (propagateDependencies applied) =
        (propagateDependencies applied, false)) := by
  have hsound := sound_of_reachable hreach
  have hearned := earned_of_reachable hreach
  have hempty := collect_of_reachable hreach
  refine ⟨?_, ?_, ?_⟩
  · intro record hrecord
    constructor
    · intro hqueued
      apply hsound.work.ready record hrecord <;> rw [hqueued] <;> decide
    · intro hwaiting
      exact ⟨fun other hdepends =>
        not_failed_of_collected hsound hempty (.inl hwaiting) hdepends,
        not_ready_of_collected hsound hempty hrecord hwaiting⟩
  · intro record failed hchain hfailed
    exact failed_of_transGen hsound hearned hempty hchain hfailed
  · intro kind applied event hopen happlied
    exact round_of_collected (collect_propagateDependencies
      (sound_of_edits hsound (edits_of_apply hsound hopen happlied)))

/-! ### A chain that is cancelled at its end -/

def chainedWork (id dependency : OpaqueIdentifier)
    (hother : id ≠ dependency) : WorkSpec :=
  { smallWork with
    id
    dependencies := [dependency]
    canonical := List.pairwise_singleton _ _
    notSelf := by simpa using hother
    otherParent := by simp [smallWork]
    dependencyBound := (by decide : 1 ≤ 1024) }

/-- Two pieces of work, each depending on the one before, and the cancellation
of the first. -/
def chainRequests : List Request :=
  [(.ofNat 21, .registerWorker smallWorker),
   (.ofNat 22, .admitWork smallWork),
   (.ofNat 23, .admitWork (chainedWork (.ofNat 13) (.ofNat 12) (by decide))),
   (.ofNat 24, .admitWork (chainedWork (.ofNat 14) (.ofNat 13) (by decide))),
   (.ofNat 25, .cancelWork (.ofNat 12))]

theorem settled_chainRequests :
    (attempts (fun _ => zeroDigest) (smallStart fun _ => zeroDigest)
      chainRequests).map
        (fun state => state.work.map fun record =>
          (record.spec.dependencies.length, record.terminal)) =
      some [(0, some .cancelled),
        (1, some (.dependencyFailed ⟨12, by decide, by decide⟩)),
        (1, some (.dependencyFailed ⟨13, by decide, by decide⟩))] := by
  decide +kernel

theorem fixed_point_of_cancelled_chain : ∃ state,
    (attempts (fun _ => zeroDigest) (smallStart fun _ => zeroDigest)
      chainRequests) = some state ∧
    (∀ record failed, TransGen (DependsOn state.work) record failed →
      Failed failed → Failed record) := by
  obtain ⟨state, hstate, -⟩ :=
    Option.map_eq_some_iff.mp settled_chainRequests
  obtain ⟨commands, -, hrun⟩ := run_of_attempts hstate
  exact ⟨state, hstate, (refresh_reaches_fixed_point
    ⟨_, commands, started_smallStart fun _ => zeroDigest, hrun⟩).2.1⟩

end Peritus.Scheduler.Propagation
