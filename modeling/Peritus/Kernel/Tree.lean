import Peritus.Kernel.PostChecks

/-!
What keeps the tree of a session together.  Each command checks only the rows
next to the one it moves; the links between two neighbouring levels are what
every command keeps, and the liveness of the whole tree follows from them.
-/

namespace Peritus.Kernel.Tree

open Peritus.Types Collections State Reducer Validity Edits
open PauseClosure

/-! ### Links between neighbouring levels -/

/-- A run points at its live attempt and at nothing else. -/
structure RunsLinked (runs : List RunState) (attempts : List AttemptState) :
    Prop where
  live : ∀ attempt ∈ attempts, attempt.phase.isTerminal = false →
    ∃ run ∈ runs, run.id = attempt.runId ∧
      run.currentAttemptId = some attempt.id
  current : ∀ run ∈ runs, ∀ id, run.currentAttemptId = some id →
    run.phase.isTerminal = false ∧
      ∃ attempt ∈ attempts, attempt.id = id ∧ attempt.runId = run.id ∧
        attempt.phase.isTerminal = false ∧
        (run.phase = .fixing → attempt.phase = .fixing)
  fixing : ∀ run ∈ runs, run.phase = .fixing → run.currentAttemptId ≠ none

/-- A live turn is the only one of an active attempt. -/
structure TurnsLinked (attempts : List AttemptState) (turns : List TurnState) :
    Prop where
  active : ∀ turn ∈ turns, turn.phase.isTerminal = false →
    ∃ attempt ∈ attempts, attempt.id = turn.attemptId ∧ attempt.phase = .active
  single : ∀ turn ∈ turns, ∀ turn' ∈ turns, turn.phase.isTerminal = false →
    turn'.phase.isTerminal = false → turn.attemptId = turn'.attemptId →
    turn = turn'

/-- A live action belongs to a live turn. -/
def ActionsLinked (turns : List TurnState) (actions : List ActionState) : Prop :=
  ∀ action ∈ actions, action.phase.isTerminal = false →
    ∃ turn ∈ turns, turn.id = action.turnId ∧ turn.phase.isTerminal = false

structure Linked (state : KernelAggregate) : Prop where
  runs : RunsLinked state.runs state.attempts
  turns : TurnsLinked state.attempts state.turns
  actions : ActionsLinked state.turns state.actions

/-! ### Runs and attempts -/

section Runs

variable {runs : List RunState} {attempts : List AttemptState}

namespace RunsLinked

theorem currentOf (hlinked : RunsLinked runs attempts)
    (hunique : (runs.map (·.id)).Nodup) {run : RunState}
    {attempt : AttemptState} (hrun : run ∈ runs) (hattempt : attempt ∈ attempts)
    (hparent : attempt.runId = run.id)
    (hlive : attempt.phase.isTerminal = false) :
    run.currentAttemptId = some attempt.id := by
  obtain ⟨found, hfound, hid, hcurrent⟩ := hlinked.live attempt hattempt hlive
  rw [hparent] at hid
  rwa [eq_of_getElem?_of_unique hunique hfound hrun hid] at hcurrent

/-- The end of an attempt takes it from its run; any other move of the two
leaves them alive and linked. -/
theorem setCurrent (hlinked : RunsLinked runs attempts)
    (hrunIds : (runs.map (·.id)).Nodup)
    (hattemptIds : (attempts.map (·.id)).Nodup) {index attemptIndex : Nat}
    {run run' : RunState} {attempt attempt' : AttemptState}
    (hget : runs[index]? = some run)
    (hgetAttempt : attempts[attemptIndex]? = some attempt)
    (hcurrent : run.currentAttemptId = some attempt.id)
    (hid : run'.id = run.id) (hattemptId : attempt'.id = attempt.id)
    (hparent : attempt'.runId = attempt.runId)
    (hmove :
      run'.currentAttemptId = some attempt.id ∧ run'.phase.isTerminal = false ∧
          attempt'.phase.isTerminal = false ∧
          (run'.phase = .fixing → attempt'.phase = .fixing) ∨
        run'.currentAttemptId = none ∧ attempt'.phase.isTerminal = true ∧
          run'.phase ≠ .fixing) :
    RunsLinked (runs.set index run') (attempts.set attemptIndex attempt') := by
  have hrun := List.mem_of_getElem? hget
  have hattempt := List.mem_of_getElem? hgetAttempt
  obtain ⟨-, found, hfound, hfoundId, hfoundRun, -⟩ :=
    hlinked.current run hrun _ hcurrent
  have hsame := eq_of_getElem?_of_unique hattemptIds hfound hattempt hfoundId
  have hof : attempt.runId = run.id := by
    rw [← hsame]
    exact hfoundRun
  have hmemRun : ∀ {r : RunState}, r ∈ runs.set index run' ↔
      r = run' ∨ r ∈ runs ∧ r.id ≠ run.id :=
    mem_set_iff_of_nodup hrunIds hget hid
  have hmemAttempt : ∀ {a : AttemptState},
      a ∈ attempts.set attemptIndex attempt' ↔
        a = attempt' ∨ a ∈ attempts ∧ a.id ≠ attempt.id :=
    mem_set_iff_of_nodup hattemptIds hgetAttempt hattemptId
  refine ⟨?_, ?_, ?_⟩
  · intro a ha hlive
    rcases hmemAttempt.mp ha with rfl | ⟨ha, hne⟩
    · rcases hmove with ⟨hkept, -⟩ | ⟨-, hended, -⟩
      · refine ⟨run', hmemRun.mpr (.inl rfl), ?_, ?_⟩
        · rw [hid, hparent, hof]
        · rw [hkept, hattemptId]
      · rw [hended] at hlive
        cases hlive
    · obtain ⟨r, hr, hrid, hrcurrent⟩ := hlinked.live a ha hlive
      refine ⟨r, hmemRun.mpr (.inr ⟨hr, ?_⟩), hrid, hrcurrent⟩
      intro hsameId
      have hsameRun := eq_of_getElem?_of_unique hrunIds hr hrun hsameId
      rw [hsameRun, hcurrent] at hrcurrent
      exact hne (Option.some.inj hrcurrent).symm
  · intro r hr id hrcurrent
    rcases hmemRun.mp hr with rfl | ⟨hr, hne⟩
    · rcases hmove with ⟨hkept, hlive, hattemptLive, hfixing⟩ | ⟨hnone, -⟩
      · rw [hkept] at hrcurrent
        cases hrcurrent
        refine ⟨hlive, attempt', hmemAttempt.mpr (.inl rfl), hattemptId, ?_,
          hattemptLive, hfixing⟩
        rw [hparent, hof, hid]
      · rw [hnone] at hrcurrent
        cases hrcurrent
    · obtain ⟨hlive, a, ha, haid, hparentA, hrest⟩ :=
        hlinked.current r hr id hrcurrent
      refine ⟨hlive, a, hmemAttempt.mpr (.inr ⟨ha, ?_⟩), haid, hparentA, hrest⟩
      intro hsameId
      have hsameAttempt :=
        eq_of_getElem?_of_unique hattemptIds ha hattempt hsameId
      rw [hsameAttempt, hof] at hparentA
      exact hne hparentA.symm
  · intro r hr hphase
    rcases hmemRun.mp hr with rfl | ⟨hr, -⟩
    · rcases hmove with ⟨hkept, -⟩ | ⟨-, -, hother⟩
      · rw [hkept]
        nofun
      · exact absurd hphase hother
    · exact hlinked.fixing r hr hphase

/-- A run moves and keeps its attempt. -/
theorem setRun (hlinked : RunsLinked runs attempts)
    (hrunIds : (runs.map (·.id)).Nodup) {index : Nat} {run run' : RunState}
    (hget : runs[index]? = some run) (hid : run'.id = run.id)
    (hcurrent : run'.currentAttemptId = run.currentAttemptId)
    (hlive : run'.phase.isTerminal = false) (hphase : run'.phase ≠ .fixing) :
    RunsLinked (runs.set index run') attempts := by
  have hrun := List.mem_of_getElem? hget
  have hmemRun : ∀ {r : RunState}, r ∈ runs.set index run' ↔
      r = run' ∨ r ∈ runs ∧ r.id ≠ run.id :=
    mem_set_iff_of_nodup hrunIds hget hid
  refine ⟨?_, ?_, ?_⟩
  · intro a ha halive
    obtain ⟨r, hr, hrid, hrcurrent⟩ := hlinked.live a ha halive
    by_cases hsame : r.id = run.id
    · refine ⟨run', hmemRun.mpr (.inl rfl), hid.trans (hsame.symm.trans hrid), ?_⟩
      rw [hcurrent, ← eq_of_getElem?_of_unique hrunIds hr hrun hsame]
      exact hrcurrent
    · exact ⟨r, hmemRun.mpr (.inr ⟨hr, hsame⟩), hrid, hrcurrent⟩
  · intro r hr id hrcurrent
    rcases hmemRun.mp hr with rfl | ⟨hr, -⟩
    · rw [hcurrent] at hrcurrent
      obtain ⟨-, a, ha, haid, hparent, halive, -⟩ :=
        hlinked.current run hrun id hrcurrent
      exact ⟨hlive, a, ha, haid, hparent.trans hid.symm, halive,
        fun h => absurd h hphase⟩
    · exact hlinked.current r hr id hrcurrent
  · intro r hr hfixing
    rcases hmemRun.mp hr with rfl | ⟨hr, -⟩
    · exact absurd hfixing hphase
    · exact hlinked.fixing r hr hfixing

/-- An attempt moves and stays as alive as it was. -/
theorem setAttempt (hlinked : RunsLinked runs attempts)
    (hattemptIds : (attempts.map (·.id)).Nodup) {index : Nat}
    {attempt attempt' : AttemptState} (hget : attempts[index]? = some attempt)
    (hid : attempt'.id = attempt.id) (hparent : attempt'.runId = attempt.runId)
    (hbefore : attempt.phase.isTerminal = false)
    (hafter : attempt'.phase.isTerminal = false)
    (hphase : attempt.phase ≠ .fixing) :
    RunsLinked runs (attempts.set index attempt') := by
  have hattempt := List.mem_of_getElem? hget
  have hmemAttempt : ∀ {a : AttemptState},
      a ∈ attempts.set index attempt' ↔
        a = attempt' ∨ a ∈ attempts ∧ a.id ≠ attempt.id :=
    mem_set_iff_of_nodup hattemptIds hget hid
  refine ⟨?_, ?_, hlinked.fixing⟩
  · intro a ha hlive
    rcases hmemAttempt.mp ha with rfl | ⟨ha, -⟩
    · rw [hid, hparent]
      exact hlinked.live attempt hattempt hbefore
    · exact hlinked.live a ha hlive
  · intro r hr id hcurrent
    obtain ⟨hlive, a, ha, haid, haparent, halive, hfixing⟩ :=
      hlinked.current r hr id hcurrent
    refine ⟨hlive, ?_⟩
    by_cases hsame : a.id = attempt.id
    · have hsameAttempt := eq_of_getElem?_of_unique hattemptIds ha hattempt hsame
      subst hsameAttempt
      exact ⟨attempt', hmemAttempt.mpr (.inl rfl), hid.trans haid,
        hparent.trans haparent, hafter, fun h => absurd (hfixing h) hphase⟩
    · exact ⟨a, hmemAttempt.mpr (.inr ⟨ha, hsame⟩), haid, haparent, halive,
        hfixing⟩

theorem addRun (hlinked : RunsLinked runs attempts) {run : RunState}
    (hcurrent : run.currentAttemptId = none) (hphase : run.phase ≠ .fixing) :
    RunsLinked (runs ++ [run]) attempts := by
  refine ⟨?_, ?_, ?_⟩
  · intro a ha hlive
    obtain ⟨r, hr, h⟩ := hlinked.live a ha hlive
    exact ⟨r, List.mem_append_left _ hr, h⟩
  · intro r hr id hrcurrent
    rcases List.mem_append.mp hr with hr | hr
    · exact hlinked.current r hr id hrcurrent
    · rw [List.mem_singleton.mp hr, hcurrent] at hrcurrent
      cases hrcurrent
  · intro r hr hfixing
    rcases List.mem_append.mp hr with hr | hr
    · exact hlinked.fixing r hr hfixing
    · rw [List.mem_singleton.mp hr] at hfixing
      exact absurd hfixing hphase

/-- A run without an attempt starts one. -/
theorem addAttempt (hlinked : RunsLinked runs attempts)
    (hrunIds : (runs.map (·.id)).Nodup) {index : Nat} {run run' : RunState}
    {attempt : AttemptState} (hget : runs[index]? = some run)
    (hnone : run.currentAttemptId = none) (hid : run'.id = run.id)
    (hcurrent : run'.currentAttemptId = some attempt.id)
    (hparent : attempt.runId = run.id) (hlive : run'.phase.isTerminal = false)
    (hattemptLive : attempt.phase.isTerminal = false)
    (hphase : run'.phase ≠ .fixing) :
    RunsLinked (runs.set index run') (attempts ++ [attempt]) := by
  have hrun := List.mem_of_getElem? hget
  have hmemRun : ∀ {r : RunState}, r ∈ runs.set index run' ↔
      r = run' ∨ r ∈ runs ∧ r.id ≠ run.id :=
    mem_set_iff_of_nodup hrunIds hget hid
  refine ⟨?_, ?_, ?_⟩
  · intro a ha halive
    rcases List.mem_append.mp ha with ha | ha
    · obtain ⟨r, hr, hrid, hrcurrent⟩ := hlinked.live a ha halive
      refine ⟨r, hmemRun.mpr (.inr ⟨hr, ?_⟩), hrid, hrcurrent⟩
      intro hsame
      rw [eq_of_getElem?_of_unique hrunIds hr hrun hsame, hnone] at hrcurrent
      cases hrcurrent
    · rw [List.mem_singleton.mp ha]
      exact ⟨run', hmemRun.mpr (.inl rfl), hid.trans hparent.symm, hcurrent⟩
  · intro r hr id hrcurrent
    rcases hmemRun.mp hr with rfl | ⟨hr, -⟩
    · rw [hcurrent] at hrcurrent
      cases hrcurrent
      exact ⟨hlive, attempt, List.mem_append_right _ (List.mem_singleton_self _),
        rfl, hparent.trans hid.symm, hattemptLive, fun h => absurd h hphase⟩
    · obtain ⟨hrlive, a, ha, h⟩ := hlinked.current r hr id hrcurrent
      exact ⟨hrlive, a, List.mem_append_left _ ha, h⟩
  · intro r hr hfixing
    rcases hmemRun.mp hr with rfl | ⟨hr, -⟩
    · exact absurd hfixing hphase
    · exact hlinked.fixing r hr hfixing

/-- A run ends with all its attempts. -/
theorem endRun (hlinked : RunsLinked runs attempts)
    (hrunIds : (runs.map (·.id)).Nodup) {index : Nat} {run run' : RunState}
    {attempts' : List AttemptState} (hget : runs[index]? = some run)
    (hid : run'.id = run.id) (hnone : run'.currentAttemptId = none)
    (hphase : run'.phase ≠ .fixing)
    (hlive : ∀ attempt ∈ attempts', attempt.phase.isTerminal = false →
      attempt ∈ attempts ∧ attempt.runId ≠ run.id)
    (hkept : ∀ attempt ∈ attempts, attempt.runId ≠ run.id →
      attempt ∈ attempts') :
    RunsLinked (runs.set index run') attempts' := by
  have hmemRun : ∀ {r : RunState}, r ∈ runs.set index run' ↔
      r = run' ∨ r ∈ runs ∧ r.id ≠ run.id :=
    mem_set_iff_of_nodup hrunIds hget hid
  refine ⟨?_, ?_, ?_⟩
  · intro a ha halive
    obtain ⟨ha, hother⟩ := hlive a ha halive
    obtain ⟨r, hr, hrid, hrcurrent⟩ := hlinked.live a ha halive
    exact ⟨r, hmemRun.mpr (.inr ⟨hr, hrid ▸ hother⟩), hrid, hrcurrent⟩
  · intro r hr id hrcurrent
    rcases hmemRun.mp hr with rfl | ⟨hr, hne⟩
    · rw [hnone] at hrcurrent
      cases hrcurrent
    · obtain ⟨hrlive, a, ha, haid, hparent, h⟩ :=
        hlinked.current r hr id hrcurrent
      exact ⟨hrlive, a, hkept a ha (hparent ▸ hne), haid, hparent, h⟩
  · intro r hr hfixing
    rcases hmemRun.mp hr with rfl | ⟨hr, -⟩
    · exact absurd hfixing hphase
    · exact hlinked.fixing r hr hfixing

end RunsLinked

end Runs

/-! ### Turns and actions -/

section Turns

variable {attempts attempts' : List AttemptState}
variable {turns turns' : List TurnState} {actions actions' : List ActionState}

/-- No turn comes to life, and the attempts of live turns stay active. -/
theorem TurnsLinked.mono (hlinked : TurnsLinked attempts turns)
    (hturns : ∀ turn ∈ turns', turn.phase.isTerminal = false → turn ∈ turns)
    (hattempts : ∀ turn ∈ turns', turn.phase.isTerminal = false →
      ∀ attempt ∈ attempts, attempt.id = turn.attemptId →
        attempt.phase = .active →
        ∃ attempt' ∈ attempts', attempt'.id = attempt.id ∧
          attempt'.phase = .active) :
    TurnsLinked attempts' turns' := by
  constructor
  · intro turn hturn hlive
    obtain ⟨attempt, hattempt, hid, hactive⟩ :=
      hlinked.active turn (hturns turn hturn hlive) hlive
    obtain ⟨attempt', hattempt', hid', hactive'⟩ :=
      hattempts turn hturn hlive attempt hattempt hid hactive
    exact ⟨attempt', hattempt', hid'.trans hid, hactive'⟩
  · intro turn hturn turn' hturn' hlive hlive' hsame
    exact hlinked.single turn (hturns turn hturn hlive) turn'
      (hturns turn' hturn' hlive') hlive hlive' hsame

/-- An attempt that becomes or stays inactive has no live turn to lose. -/
theorem TurnsLinked.setAttempt (hlinked : TurnsLinked attempts turns)
    (hattemptIds : (attempts.map (·.id)).Nodup) {index : Nat}
    {attempt attempt' : AttemptState}
    (hget : attempts[index]? = some attempt) (hid : attempt'.id = attempt.id)
    (hmove : attempt'.phase = .active ∨ attempt.phase ≠ .active ∨
      ∀ turn ∈ turns', turn.phase.isTerminal = false →
        turn.attemptId ≠ attempt.id)
    (hturns : ∀ turn ∈ turns', turn.phase.isTerminal = false → turn ∈ turns) :
    TurnsLinked (attempts.set index attempt') turns' := by
  have hmem : ∀ {a : AttemptState}, a ∈ attempts.set index attempt' ↔
      a = attempt' ∨ a ∈ attempts ∧ a.id ≠ attempt.id :=
    mem_set_iff_of_nodup hattemptIds hget hid
  refine hlinked.mono hturns fun turn hturn hlive a ha hof hactive => ?_
  by_cases hsame : a.id = attempt.id
  · have hsameAttempt := eq_of_getElem?_of_unique hattemptIds ha
      (List.mem_of_getElem? hget) hsame
    subst hsameAttempt
    rcases hmove with hkept | hidle | hnone
    · exact ⟨attempt', hmem.mpr (.inl rfl), hid, hkept⟩
    · exact absurd hactive hidle
    · exact absurd hof.symm (hnone turn hturn hlive)
  · exact ⟨a, hmem.mpr (.inr ⟨ha, hsame⟩), rfl, hactive⟩

theorem TurnsLinked.addTurn (hlinked : TurnsLinked attempts turns)
    {attempt : AttemptState} {turn : TurnState} (hattempt : attempt ∈ attempts)
    (hactive : attempt.phase = .active) (hparent : turn.attemptId = attempt.id)
    (hnone : ∀ other ∈ turns, other.attemptId = attempt.id →
      other.phase.isTerminal = true) :
    TurnsLinked attempts (turns ++ [turn]) := by
  have hother : ∀ {other : TurnState}, other ∈ turns →
      other.phase.isTerminal = false → other.attemptId ≠ turn.attemptId := by
    intro other hmem hlive hsame
    rw [hnone other hmem (hsame.trans hparent)] at hlive
    cases hlive
  constructor
  · intro found hfound hlive
    rcases List.mem_append.mp hfound with hfound | hfound
    · exact hlinked.active found hfound hlive
    · rw [List.mem_singleton.mp hfound]
      exact ⟨attempt, hattempt, hparent.symm, hactive⟩
  · intro t ht t' ht' hlive hlive' hsame
    rcases List.mem_append.mp ht with ht | ht <;>
      rcases List.mem_append.mp ht' with ht' | ht'
    · exact hlinked.single t ht t' ht' hlive hlive' hsame
    · rw [List.mem_singleton.mp ht'] at hsame
      exact absurd hsame (hother ht hlive)
    · rw [List.mem_singleton.mp ht] at hsame
      exact absurd hsame.symm (hother ht' hlive')
    · rw [List.mem_singleton.mp ht, List.mem_singleton.mp ht']

/-- Live actions are old ones or children of live turns, and the turns of live
actions stay alive. -/
theorem ActionsLinked.mono (hlinked : ActionsLinked turns actions)
    (hactions : ∀ action ∈ actions', action.phase.isTerminal = false →
      ∃ old ∈ actions, old.turnId = action.turnId ∧
        old.phase.isTerminal = false)
    (hturns : ∀ action ∈ actions', action.phase.isTerminal = false →
      ∀ turn ∈ turns, turn.id = action.turnId →
        turn.phase.isTerminal = false → turn ∈ turns') :
    ActionsLinked turns' actions' := by
  intro action haction hlive
  obtain ⟨old, hold, hsame, holdLive⟩ := hactions action haction hlive
  obtain ⟨turn, hturn, hid, hturnLive⟩ := hlinked old hold holdLive
  exact ⟨turn, hturns action haction hlive turn hturn (hid.trans hsame) hturnLive,
    hid.trans hsame, hturnLive⟩

/-- A turn ends once none of its actions is live. -/
theorem ActionsLinked.setTurn (hlinked : ActionsLinked turns actions)
    (hturnIds : (turns.map (·.id)).Nodup) {index : Nat} {turn turn' : TurnState}
    (hget : turns[index]? = some turn) (hid : turn'.id = turn.id)
    (hactions : ∀ action ∈ actions', action.phase.isTerminal = false →
      action ∈ actions ∧ action.turnId ≠ turn.id) :
    ActionsLinked (turns.set index turn') actions' := by
  refine hlinked.mono ?_ ?_
  · intro action haction hlive
    exact ⟨action, (hactions action haction hlive).1, rfl, hlive⟩
  · intro action haction hlive t ht hof _
    refine (mem_set_iff_of_nodup hturnIds hget hid).mpr (.inr ⟨ht, ?_⟩)
    rw [hof]
    exact (hactions action haction hlive).2

theorem ActionsLinked.addAction (hlinked : ActionsLinked turns actions)
    {turn : TurnState} {action : ActionState} (hturn : turn ∈ turns)
    (hlive : turn.phase.isTerminal = false) (hparent : action.turnId = turn.id) :
    ActionsLinked turns (actions ++ [action]) := by
  intro found hfound hfoundLive
  rcases List.mem_append.mp hfound with hfound | hfound
  · exact hlinked found hfound hfoundLive
  · rw [List.mem_singleton.mp hfound]
    exact ⟨turn, hturn, hparent.symm, hlive⟩

end Turns

/-! ### Ended rows -/

section Ended

variable {α : Type} {belongs terminal : α → Bool} {ended : α → α}
variable {values : List α} {a : α}

/-- A row that is alive after the loop was there before and not selected. -/
theorem mem_of_ended (terminal : α → Bool)
    (hended : ∀ a, terminal (ended a) = true)
    (hmem : a ∈ values.map fun a =>
      if belongs a && !terminal a then ended a else a)
    (hlive : terminal a = false) : a ∈ values ∧ belongs a = false := by
  obtain ⟨old, hold, rfl⟩ := List.mem_map.mp hmem
  split at hlive
  · rw [hended] at hlive
    cases hlive
  · rename_i hkept
    rw [if_neg hkept]
    refine ⟨hold, ?_⟩
    simpa [hlive] using hkept

/-- A row that is not selected or already ended stays as it is. -/
theorem mem_ended_of_kept (hmem : a ∈ values)
    (hkept : belongs a = false ∨ terminal a = true) :
    a ∈ values.map fun a => if belongs a && !terminal a then ended a else a := by
  refine List.mem_map.mpr ⟨a, hmem, ?_⟩
  rcases hkept with h | h <;> simp [h]

end Ended

section EndedRows

variable {state : KernelAggregate}

theorem mem_of_endAttempts {belongs : AttemptState → Bool}
    {phase : AttemptPhase} {attempt : AttemptState}
    (hphase : phase.isTerminal = true)
    (hmem : attempt ∈ (endAttempts state belongs phase).attempts)
    (hlive : attempt.phase.isTerminal = false) :
    attempt ∈ state.attempts ∧ belongs attempt = false :=
  mem_of_ended (fun a : AttemptState => a.phase.isTerminal) (fun _ => hphase)
    hmem hlive

theorem mem_of_endTurns {belongs : TurnState → Bool} {phase : TurnPhase}
    {turn : TurnState} (hphase : phase.isTerminal = true)
    (hmem : turn ∈ (endTurns state belongs phase).turns)
    (hlive : turn.phase.isTerminal = false) :
    turn ∈ state.turns ∧ belongs turn = false :=
  mem_of_ended (fun t : TurnState => t.phase.isTerminal) (fun _ => hphase) hmem
    hlive

theorem mem_of_endActions {belongs : ActionState → Bool} {phase : ActionPhase}
    {action : ActionState} (hphase : phase.isTerminal = true)
    (hmem : action ∈ (endActions state belongs phase).actions)
    (hlive : action.phase.isTerminal = false) :
    action ∈ state.actions ∧ belongs action = false :=
  mem_of_ended (fun a : ActionState => a.phase.isTerminal) (fun _ => hphase)
    hmem hlive

end EndedRows

/-! ### Every edit keeps the links -/

section Edits

variable {before next : KernelAggregate} {applied : AppliedCommand}

theorem runsLinked_of_edit (hvalid : Valid before)
    (hlinked : RunsLinked before.runs before.attempts)
    (hedit : Edit before applied next) : RunsLinked next.runs next.attempts := by
  have hruns := hvalid.skeleton.runIds
  have hattempts := hvalid.attemptIds
  cases hedit with
  | runStarted _ _ _ _ hphase _ hcurrent =>
      refine hlinked.addRun hcurrent ?_
      rw [hphase]
      nofun
  | runPaused hget => exact hlinked.setRun hruns hget rfl rfl rfl nofun
  | runResumed hget => exact hlinked.setRun hruns hget rfl rfl rfl nofun
  | runEnded hget _ hterminal _ hattempt =>
      refine hlinked.endRun hruns hget rfl rfl ?_ ?_ ?_
      · rintro rfl
        cases hterminal
      · intro attempt hmem hlive
        obtain ⟨hmem, hother⟩ := mem_of_endAttempts hattempt hmem hlive
        exact ⟨hmem, of_decide_eq_false hother⟩
      · intro attempt hmem hother
        exact mem_ended_of_kept hmem (.inl (decide_eq_false hother))
  | attemptStarted hget _ hnone _ hparent hphase =>
      exact hlinked.addAttempt hruns hget hnone rfl rfl hparent rfl
        (hphase ▸ rfl) nofun
  | @attemptMoved index attemptIndex run attempt _ _ _ hget hgetAttempt hparent
      hmove =>
      have hlive : attempt.phase.isTerminal = false := by
        rcases hmove with ⟨-, h, -, -⟩ | ⟨-, h, -, -⟩ <;> rw [h] <;> rfl
      have hcurrent := hlinked.currentOf hruns (List.mem_of_getElem? hget)
        (List.mem_of_getElem? hgetAttempt) hparent hlive
      refine hlinked.setCurrent hruns hattempts hget hgetAttempt hcurrent rfl rfl
        rfl (.inl ⟨hcurrent, ?_⟩)
      rcases hmove with ⟨-, -, rfl, rfl⟩ | ⟨-, -, rfl, rfl⟩
      · exact ⟨rfl, rfl, nofun⟩
      · exact ⟨rfl, rfl, nofun⟩
  | attemptEnded hget hgetAttempt hparent _ hlive hended =>
      have hcurrent := hlinked.currentOf hruns (List.mem_of_getElem? hget)
        (List.mem_of_getElem? hgetAttempt) hparent hlive
      exact hlinked.setCurrent hruns hattempts hget hgetAttempt hcurrent rfl rfl
        rfl (.inr ⟨rfl, hended, nofun⟩)
  | reviewRequested _ hget _ _ hphase =>
      refine hlinked.setAttempt hattempts hget rfl rfl ?_ rfl ?_
      · rcases hphase with h | h <;> rw [h] <;> rfl
      · rcases hphase with h | h <;> rw [h] <;> nofun
  | acceptanceBegun hget hphase =>
      refine hlinked.setRun hruns hget rfl rfl (hphase ▸ rfl) ?_
      rw [hphase]
      nofun
  | accepted hrun hgetAttempt hcurrent =>
      exact hlinked.setCurrent hruns hattempts (run_found hrun).1 hgetAttempt
        hcurrent rfl rfl rfl (.inr ⟨rfl, rfl, nofun⟩)
  | needsChanges hrun hgetAttempt hcurrent =>
      exact hlinked.setCurrent hruns hattempts (run_found hrun).1 hgetAttempt
        hcurrent rfl rfl rfl (.inl ⟨hcurrent, rfl, rfl, fun _ => rfl⟩)
  | _ => exact hlinked

theorem turnsLinked_of_edit (hvalid : Valid before)
    (hlinked : TurnsLinked before.attempts before.turns)
    (hedit : Edit before applied next) :
    TurnsLinked next.attempts next.turns := by
  have hattempts := hvalid.attemptIds
  have hnoLive : ∀ {id : AttemptId}, before.hasLiveTurnForAttempt id = false →
      ∀ turn ∈ before.turns, turn.attemptId = id →
        turn.phase.isTerminal = true := by
    intro id hnone turn hturn hof
    have h := List.any_eq_false.mp hnone turn hturn
    simpa [hof] using h
  cases hedit with
  | runEnded _ _ _ _ _ hturn _ hofRun =>
      refine hlinked.mono ?_ ?_
      · intro turn hmem hlive
        exact (mem_of_endTurns hturn hmem hlive).1
      · intro turn hmem hlive attempt hattempt hid hactive
        obtain ⟨-, hother⟩ := mem_of_endTurns hturn hmem hlive
        refine ⟨attempt, mem_ended_of_kept hattempt (.inl ?_), rfl, hactive⟩
        refine decide_eq_false fun hrun => ?_
        rw [(hofRun turn).mpr ⟨attempt, hattempt, hid, hrun⟩] at hother
        cases hother
  | attemptStarted =>
      refine hlinked.mono (fun _ hmem _ => hmem) ?_
      intro turn _ _ attempt hattempt _ hactive
      exact ⟨attempt, List.mem_append_left _ hattempt, rfl, hactive⟩
  | attemptMoved _ hget _ _ hnone =>
      refine hlinked.setAttempt hattempts hget rfl ?_ fun _ hmem _ => hmem
      refine .inr (.inr fun turn hturn hlive hof => ?_)
      rw [hnoLive hnone turn hturn hof] at hlive
      cases hlive
  | attemptEnded _ hget _ _ _ _ hturn =>
      refine hlinked.setAttempt hattempts hget rfl (.inr (.inr ?_)) ?_
      · intro turn hmem hlive
        exact of_decide_eq_false (mem_of_endTurns hturn hmem hlive).2
      · intro turn hmem hlive
        exact (mem_of_endTurns hturn hmem hlive).1
  | turnStarted hmem hactive _ hnone hparent =>
      exact hlinked.addTurn hmem hactive hparent (hnoLive hnone)
  | turnCompleted hget =>
      refine hlinked.mono ?_ fun _ _ _ a ha _ h => ⟨a, ha, rfl, h⟩
      intro turn hmem hlive
      rcases mem_set hmem with rfl | hmem
      · cases hlive
      · exact hmem
  | turnEnded hget _ hended =>
      refine hlinked.mono ?_ fun _ _ _ a ha _ h => ⟨a, ha, rfl, h⟩
      intro turn hmem hlive
      rcases mem_set hmem with rfl | hmem
      · rw [hended] at hlive
        cases hlive
      · exact hmem
  | reviewRequested _ hget _ _ hphase =>
      refine hlinked.setAttempt hattempts hget rfl (.inr (.inl ?_))
        fun _ hmem _ => hmem
      rcases hphase with h | h <;> rw [h] <;> nofun
  | accepted _ hget _ _ _ hphase =>
      refine hlinked.setAttempt hattempts hget rfl (.inr (.inl ?_))
        fun _ hmem _ => hmem
      rw [hphase]
      nofun
  | needsChanges _ hget _ _ _ hphase =>
      refine hlinked.setAttempt hattempts hget rfl (.inr (.inl ?_))
        fun _ hmem _ => hmem
      rw [hphase]
      nofun
  | _ => exact hlinked

theorem actionsLinked_of_edit (hvalid : Valid before)
    (hlinked : ActionsLinked before.turns before.actions)
    (hedit : Edit before applied next) :
    ActionsLinked next.turns next.actions := by
  have hturns := hvalid.turnIds
  cases hedit with
  | @runEnded _ run _ _ _ _ _ _ _ _ _ _ _ _ _ haction hofRun hunder =>
      refine hlinked.mono ?_ ?_
      · intro action hmem hlive
        exact ⟨action, (mem_of_endActions haction hmem hlive).1, rfl, hlive⟩
      · intro action hmem hlive turn hturn hid _
        refine mem_ended_of_kept hturn (.inl (Bool.eq_false_iff.mpr ?_))
        intro hof
        have hbelongs := (hunder action).mpr
          ⟨turn, hturn, hid, (hofRun turn).mp hof⟩
        rw [(mem_of_endActions haction hmem hlive).2] at hbelongs
        cases hbelongs
  | attemptEnded _ _ _ _ _ _ _ haction hunder =>
      refine hlinked.mono ?_ ?_
      · intro action hmem hlive
        exact ⟨action, (mem_of_endActions haction hmem hlive).1, rfl, hlive⟩
      · intro action hmem hlive turn hturn hid _
        refine mem_ended_of_kept hturn (.inl (decide_eq_false ?_))
        intro hof
        have hbelongs := (hunder action).mpr ⟨turn, hturn, hid, hof⟩
        rw [(mem_of_endActions haction hmem hlive).2] at hbelongs
        cases hbelongs
  | turnStarted =>
      refine hlinked.mono (fun action hmem hlive => ⟨action, hmem, rfl, hlive⟩) ?_
      intro _ _ _ turn hturn _ _
      exact List.mem_append_left _ hturn
  | turnCompleted hget _ hnone =>
      refine hlinked.setTurn hturns hget rfl fun action hmem hlive => ⟨hmem, ?_⟩
      intro hof
      have h := List.any_eq_false.mp hnone action hmem
      simp [hof, hlive] at h
  | turnEnded hget _ _ haction =>
      refine hlinked.setTurn hturns hget rfl fun action hmem hlive => ?_
      obtain ⟨hmem, hother⟩ := mem_of_endActions haction hmem hlive
      exact ⟨hmem, of_decide_eq_false hother⟩
  | actionProposed hturn hphase _ hparent =>
      exact hlinked.addAction hturn (hphase ▸ rfl) hparent
  | actionMoved hget hlive _ hparent =>
      refine hlinked.mono ?_ fun _ _ _ turn hturn _ _ => hturn
      intro action hmem hactionLive
      rcases mem_set hmem with rfl | hmem
      · exact ⟨_, List.mem_of_getElem? hget, hparent.symm, hlive⟩
      · exact ⟨action, hmem, rfl, hactionLive⟩
  | _ => exact hlinked

theorem linked_of_edit (hvalid : Valid before) (hlinked : Linked before)
    (hedit : Edit before applied next) : Linked next :=
  ⟨runsLinked_of_edit hvalid hlinked.runs hedit,
    turnsLinked_of_edit hvalid hlinked.turns hedit,
    actionsLinked_of_edit hvalid hlinked.actions hedit⟩

end Edits

end Peritus.Kernel.Tree
