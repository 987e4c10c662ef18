import Peritus.Scheduler.Bypass
import Peritus.Scheduler.Replay

/-!
How often a run of the scheduler passes waiting work over.  The bound holds as
long as nothing that reached the limit later comes before work that waits at the
limit already.
-/

namespace Peritus.Scheduler.Starvation

open Peritus.Types Checked TransitionSystem Limits Resource State Selection
open Canonical Reducer Invariant Edits Ownership Counters Bypass

/-! ### What a run shows -/

/-- A state and the kind of the command that it accepts. -/
abbrev Observation := SchedulerState × SchedulerCommandKind

def Observes (sha256 : List UInt8 → Sha256Digest) (state : SchedulerState)
    (seen : Observation) (next : SchedulerState) : Prop :=
  seen.1 = state ∧ ∃ command, command.kind = seen.2 ∧
    Accepts sha256 state command next

def selects (id : WorkId) (seen : Observation) : Bool :=
  isDispatch seen.2 && decide (selectedWork seen.1 = some id)

/-- A dispatch of other work while this work is queued and feasible. -/
def passes (id : WorkId) (seen : Observation) : Bool :=
  isDispatch seen.2 && waits seen.1 id &&
    decide (selectedWork seen.1 ≠ some id)

/-- Work at the limit that comes before other work at the limit by its priority, or
with an attempt behind it. -/
structure Overtakes (state : SchedulerState) (other record : WorkRecord) :
    Prop where
  waits : waits state other.id = true
  aged : state.binding.limits.bypassCount ≤ other.bypasses
  precedes : candidatePrecedes state other record = true
  jumps : record.spec.priority < other.spec.priority ∨
    other.attemptsStarted ≠ 0

def Overtaken (state : SchedulerState) (id : WorkId) : Prop :=
  ∃ record ∈ state.work, record.id = id ∧ waits state id = true ∧
    state.binding.limits.bypassCount ≤ record.bypasses ∧
    ∃ other ∈ state.work, Overtakes state other record

/-- A dispatch does not meet the work overtaken. -/
def Fair (id : WorkId) (seen : Observation) : Prop :=
  isDispatch seen.2 = true → ¬Overtaken seen.1 id

instance (state : SchedulerState) (other record : WorkRecord) :
    Decidable (Overtakes state other record) :=
  decidable_of_iff
    (waits state other.id = true ∧
      state.binding.limits.bypassCount ≤ other.bypasses ∧
      candidatePrecedes state other record = true ∧
      (record.spec.priority < other.spec.priority ∨
        other.attemptsStarted ≠ 0))
    ⟨fun ⟨waits, aged, precedes, jumps⟩ => ⟨waits, aged, precedes, jumps⟩,
      fun h => ⟨h.waits, h.aged, h.precedes, h.jumps⟩⟩

instance (state : SchedulerState) (id : WorkId) :
    Decidable (Overtaken state id) :=
  inferInstanceAs (Decidable (∃ record ∈ state.work, record.id = id ∧
    waits state id = true ∧
    state.binding.limits.bypassCount ≤ record.bypasses ∧
    ∃ other ∈ state.work, Overtakes state other record))

instance (id : WorkId) (seen : Observation) : Decidable (Fair id seen) :=
  inferInstanceAs (Decidable (_ → ¬_))

/-! ### The dispatches that can still pass work over -/

def headroom (id : WorkId) (state : SchedulerState) : Nat :=
  match state.work.find? fun record => decide (record.spec.id = id) with
  | none => state.binding.limits.bypassCount + state.binding.limits.queuedWork
  | some record =>
      state.binding.limits.bypassCount - record.bypasses +
        pending record.enqueueOrdinal state.work

structure Orderly (state : SchedulerState) : Prop where
  sound : Sound state
  bounded : PendingBounded state

section Headroom

variable {sha256 : List UInt8 → Sha256Digest} {kind : SchedulerCommandKind}
variable {state next : SchedulerState} {record : WorkRecord} {id : WorkId}
variable {seen : Observation} {event : SchedulerEventKind}

theorem headroom_of_mem (hsound : Sound state) (hrecord : record ∈ state.work) :
    headroom record.id state =
      state.binding.limits.bypassCount - record.bypasses +
        pending record.enqueueOrdinal state.work := by
  unfold headroom
  rw [find_of_mem hsound.work.sorted hrecord]

theorem headroom_of_absent (habsent : ∀ record ∈ state.work, record.id ≠ id) :
    headroom id state = state.binding.limits.bypassCount +
      state.binding.limits.queuedWork := by
  have hnone : state.work.find? (fun record => decide (record.spec.id = id)) =
      none := by
    rw [List.find?_eq_none]
    intro record hrecord hid
    exact habsent record hrecord (of_decide_eq_true hid)
  unfold headroom
  rw [hnone]

theorem pending_mono {work : List WorkRecord} {ordinal later : Nat}
    (hle : ordinal ≤ later) : pending ordinal work ≤ pending later work := by
  refine List.countP_mono_left fun record _ huntried => ?_
  simp only [untried, decide_eq_true_eq] at huntried ⊢
  exact ⟨huntried.1.trans hle, huntried.2⟩

theorem headroom_le (horderly : Orderly state) (id : WorkId) :
    headroom id state ≤ state.binding.limits.bypassCount +
      state.binding.limits.queuedWork := by
  by_cases hmem : ∃ record ∈ state.work, record.id = id
  · obtain ⟨record, hrecord, rfl⟩ := hmem
    have hordinal := horderly.sound.work.ordinals record hrecord
    have hpending := (pending_mono hordinal).trans horderly.bounded
    rw [headroom_of_mem horderly.sound hrecord]
    omega
  · refine (headroom_of_absent fun record hrecord hid => ?_).le
    exact hmem ⟨record, hrecord, hid⟩

theorem orderly_of_edits (horderly : Orderly state)
    (hedits : EditRun sha256 kind state next) : Orderly next := by
  induction hedits with
  | refl => exact horderly
  | tail _ hedit ih =>
      exact ⟨sound_of_edit ih.sound hedit,
        pendingBounded_of_edit ih.sound ih.bounded hedit⟩

theorem orderly_of_accepts {command : SchedulerCommand}
    (horderly : Orderly state) (h : Accepts sha256 state command next) :
    Orderly next := by
  obtain ⟨applied, event, -, hedits, hrefresh, hwork, -, hbinding, hordinal⟩ :=
    edits_of_accepts horderly.sound h
  have hrefreshed := orderly_of_edits horderly (hedits.trans hrefresh)
  refine ⟨sound_of_accepts horderly.sound h, ?_⟩
  unfold PendingBounded
  rw [hwork, hbinding, hordinal]
  exact hrefreshed.bounded

/-- The rank of waiting work at the limit is above that of what passes it over,
which was therefore never started. -/
theorem untried_of_passed {selected : WorkRecord} (hsound : Sound state)
    (h : Dispatched sha256 kind state selected next)
    (hrecord : record ∈ state.work) (hne : record.id ≠ selected.id)
    (hwaits : waits state record.id = true)
    (haged : state.binding.limits.bypassCount ≤ record.bypasses)
    (hfair : ¬Overtaken state record.id) :
    untried record.enqueueOrdinal selected = true := by
  obtain ⟨-, hfeasible⟩ := (waits_iff hsound hrecord).mp hwaits
  have hle := not_lt.mp (h.least record hrecord hfeasible)
  have hlt : rank state selected < rank state record := by
    refine lt_of_le_of_ne hle fun hsame => hne ?_
    have hplace := congrArg (fun value => (ofLex value).2) hsame
    have hid := congrArg (fun value => (ofLex (ofLex value).2).2) hplace
    exact OpaqueIdentifier.value_injective hid.symm
  have hprecedes := candidatePrecedes_iff.mpr hlt
  unfold rank at hlt
  rw [Prod.Lex.toLex_lt_toLex, if_pos haged] at hlt
  have hselected : state.binding.limits.bypassCount ≤ selected.bypasses := by
    by_contra hyoung
    rw [if_neg hyoung] at hlt
    omega
  have hjumps : ¬(record.spec.priority < selected.spec.priority ∨
      selected.attemptsStarted ≠ 0) := by
    intro hjumps
    refine hfair ⟨record, hrecord, rfl, hwaits, haged, selected, h.mem, ?_,
      hselected, hprecedes, hjumps⟩
    exact (waits_iff hsound h.mem).mpr ⟨h.queued, h.feasible⟩
  rw [not_or, not_not] at hjumps
  rw [if_pos hselected] at hlt
  have hplace : place selected < place record :=
    hlt.elim (fun h => absurd h (lt_irrefl 0)) fun h => h.2
  rw [place_lt_iff] at hplace
  refine decide_eq_true ⟨?_, hjumps.2, ?_⟩
  · rcases hplace with hpriority | ⟨-, hordinal | ⟨hordinal, -⟩⟩
    · exact absurd hpriority hjumps.1
    · exact hordinal.le
    · exact hordinal.le
  · rw [h.queued]
    exact WorkPhase.noConfusion

theorem exists_of_counters {later : SchedulerState}
    (hrows : ∀ row ∈ counters state, row ∈ counters later)
    (hrecord : record ∈ state.work) :
    ∃ found ∈ later.work, found.id = record.id ∧
      found.enqueueOrdinal = record.enqueueOrdinal ∧
      found.bypasses = record.bypasses := by
  have hrow := hrows (counter record) (List.mem_map.mpr ⟨record, hrecord, rfl⟩)
  obtain ⟨found, hfound, hsame⟩ := List.mem_map.mp hrow
  simp only [counter, Prod.mk.injEq] at hsame
  exact ⟨found, hfound, hsame⟩

/-- The refresh and the commit move no counter and start no work. -/
structure Settled (applied next : SchedulerState) (ordinal : Nat) : Prop where
  rows : ∀ found ∈ applied.work, ∃ last ∈ next.work, last.id = found.id ∧
    last.enqueueOrdinal = found.enqueueOrdinal ∧ last.bypasses = found.bypasses
  pending : pending ordinal next.work ≤ pending ordinal applied.work

theorem settled_of_accepts {command : SchedulerCommand} {ordinal : Nat}
    (hsound : Sound state) (hordinal : ordinal ≤ state.enqueueOrdinal)
    (h : Accepts sha256 state command next) :
    ∃ applied event, apply sha256 state command.kind = .ok (applied, event) ∧
      EditRun sha256 command.kind state applied ∧
      Settled applied next ordinal := by
  obtain ⟨applied, event, happlied, hedits, hrefresh, hwork, -, -⟩ :=
    edits_of_accepts hsound h
  refine ⟨applied, event, happlied, hedits, fun found hfound => ?_, ?_⟩
  · rw [hwork]
    refine exists_of_counters (fun row hrow => ?_) hfound
    rw [counters_refresh]
    exact hrow
  · rw [hwork]
    exact (pending_of_edits (sound_of_edits hsound hedits)
      (hordinal.trans (pending_of_edits hsound hordinal hedits).2) hrefresh).1

theorem headroom_of_later {command : SchedulerCommand} (hsound : Sound state)
    (h : Accepts sha256 state command next) {last : WorkRecord}
    (hlast : last ∈ next.work) (hid : last.id = record.id)
    (hordinal : last.enqueueOrdinal = record.enqueueOrdinal) :
    headroom record.id next =
      state.binding.limits.bypassCount - last.bypasses +
        pending record.enqueueOrdinal next.work := by
  rw [← hid, headroom_of_mem (sound_of_accepts hsound h) hlast,
    binding_of_accepts hsound h, hordinal]

/-- Work that is not in the table is not passed over, and starts with all the
room there is. -/
theorem headroom_of_absent_step {command : SchedulerCommand}
    (horderly : Orderly state) (habsent : ∀ record ∈ state.work, record.id ≠ id)
    (h : Accepts sha256 state command next) :
    headroom id next + (if passes id (state, command.kind) then 1 else 0) ≤
      headroom id state := by
  have hwaits : waits state id = false := by
    unfold waits
    rw [Bool.and_eq_false_iff]
    refine .inl (List.any_eq_false.mpr fun record hrecord hqueued => ?_)
    rw [Bool.and_eq_true, decide_eq_true_eq] at hqueued
    exact habsent record hrecord hqueued.1
  have hpasses : passes id (state, command.kind) = false := by
    unfold passes
    rw [hwaits, Bool.and_false, Bool.false_and]
  have hle := headroom_le (orderly_of_accepts horderly h) id
  rw [binding_of_accepts horderly.sound h] at hle
  rw [hpasses, headroom_of_absent habsent]
  exact hle

theorem headroom_of_command {command : SchedulerCommand} (hsound : Sound state)
    (hkind : isDispatch command.kind = false) (hrecord : record ∈ state.work)
    (h : Accepts sha256 state command next) :
    headroom record.id next ≤ headroom record.id state := by
  have hordinal := hsound.work.ordinals record hrecord
  obtain ⟨applied, event, happlied, hedits, hsettled⟩ :=
    settled_of_accepts hsound hordinal h
  obtain ⟨found, hfound, hid, hplace, hcount⟩ :=
    exists_of_counters (counters_of_apply hkind happlied) hrecord
  obtain ⟨last, hlast, hid', hplace', hcount'⟩ := hsettled.rows found hfound
  have hpending := (pending_of_edits hsound hordinal hedits).1
  rw [headroom_of_later hsound h hlast (hid'.trans hid) (hplace'.trans hplace),
    headroom_of_mem hsound hrecord, hcount', hcount]
  exact Nat.add_le_add_left (hsettled.pending.trans hpending) _

/-- A dispatch that passes the work over raises its counter below the limit, and
at the limit it starts work that was never started before. -/
theorem headroom_of_dispatch {command : SchedulerCommand} (hsound : Sound state)
    (hkind : isDispatch command.kind = true) (hrecord : record ∈ state.work)
    (hselects : selects record.id (state, command.kind) = false)
    (hfair : Fair record.id (state, command.kind))
    (h : Accepts sha256 state command next) :
    headroom record.id next +
        (if passes record.id (state, command.kind) then 1 else 0) ≤
      headroom record.id state := by
  have hordinal := hsound.work.ordinals record hrecord
  obtain ⟨applied, event, happlied, hedits, hsettled⟩ :=
    settled_of_accepts hsound hordinal h
  obtain ⟨dispatchId, dispatchToken, hdispatch⟩ : ∃ dispatchId dispatchToken,
      command.kind = .dispatchNext dispatchId dispatchToken := by
    cases hcommand : command.kind with
    | dispatchNext dispatchId dispatchToken => exact ⟨_, _, rfl⟩
    | _ =>
        rw [hcommand] at hkind
        cases hkind
  rw [hdispatch] at happlied
  obtain ⟨selected, hselected, hdispatched⟩ :=
    dispatched_of_dispatch sha256 hsound happlied
  have hne : record.id ≠ selected.id := by
    intro hsame
    unfold selects at hselects
    dsimp only at hselects
    rw [hkind, hselected, hsame, decide_eq_true rfl] at hselects
    cases hselects
  obtain ⟨found, hfound, hfollows, hraised⟩ :=
    later_of_dispatched hsound hdispatched hrecord hne
  obtain ⟨last, hlast, hid, hplace, hcount⟩ := hsettled.rows found hfound
  have hpending := pending_of_dispatched hsound hordinal hdispatched
  have hsettles := hsettled.pending
  have hle := hfollows.bypasses
  rw [headroom_of_later hsound h hlast (hid.trans hfollows.id)
    (hplace.trans hfollows.ordinal), headroom_of_mem hsound hrecord, hcount]
  cases hwaits : waits state record.id with
  | false =>
      have hpasses : passes record.id (state, command.kind) = false := by
        unfold passes
        rw [hwaits, Bool.and_false, Bool.false_and]
      rw [if_neg (Bool.eq_false_iff.mp hpasses)]
      omega
  | true =>
      have hup := hraised hwaits
      by_cases haged : state.binding.limits.bypassCount ≤ record.bypasses
      · have huntried := untried_of_passed hsound hdispatched hrecord hne hwaits
          haged (hfair hkind)
        rw [if_pos huntried] at hpending
        split <;> omega
      · split <;> omega

/-- What one accepted command leaves of the dispatches that can still pass the
work over. -/
theorem headroom_of_observes (horderly : Orderly state)
    (hselects : selects id seen = false) (hfair : Fair id seen)
    (h : Observes sha256 state seen next) :
    headroom id next + (if passes id seen then 1 else 0) ≤
      headroom id state := by
  obtain ⟨before, kind⟩ := seen
  obtain ⟨rfl, command, rfl, haccepts⟩ := h
  dsimp only at haccepts
  by_cases hmem : ∃ record ∈ before.work, record.id = id
  · obtain ⟨record, hrecord, rfl⟩ := hmem
    cases hkind : isDispatch command.kind with
    | true =>
        exact headroom_of_dispatch horderly.sound hkind hrecord hselects hfair
          haccepts
    | false =>
        have hpasses : passes record.id (before, command.kind) = false := by
          unfold passes
          rw [hkind, Bool.false_and, Bool.false_and]
        rw [hpasses]
        exact headroom_of_command horderly.sound hkind hrecord haccepts
  · refine headroom_of_absent_step horderly (fun record hrecord hid => ?_)
      haccepts
    exact hmem ⟨record, hrecord, hid⟩

/-- A state under the limits that its genesis bound. -/
structure Continues (genesis state : SchedulerState) : Prop where
  orderly : Orderly state
  binding : state.binding = genesis.binding

theorem continues_of_started (h : Started sha256 state) :
    Continues state state := by
  refine ⟨⟨sound_of_started h, ?_⟩, rfl⟩
  obtain ⟨command, transition, hstart, rfl⟩ := h
  obtain ⟨binding, -, -, hstate⟩ := start_eq_ok hstart
  rw [hstate]
  exact Nat.zero_le _

theorem continues_of_accepts {genesis : SchedulerState}
    {command : SchedulerCommand} (hkeeps : Continues genesis state)
    (h : Accepts sha256 state command next) : Continues genesis next := by
  refine ⟨orderly_of_accepts hkeeps.orderly h, ?_⟩
  exact (binding_of_accepts hkeeps.orderly.sound h).trans hkeeps.binding

end Headroom

/-- Whatever a run does before and after, the dispatches that pass work over
while it is queued and feasible, up to the one that selects it, are bounded by
the limits bound at the start, as long as no dispatch meets it overtaken. -/
theorem bounded_bypass {sha256 : List UInt8 → Sha256Digest}
    {genesis before after : SchedulerState} {earlier : List SchedulerCommand}
    {seen : List Observation} (id : WorkId)
    (hstart : Started sha256 genesis)
    (hearlier : Run (Accepts sha256) genesis earlier before)
    (hrun : Run (Observes sha256) before seen after)
    (hselects : ∀ observed ∈ seen, selects id observed = false)
    (hfair : ∀ observed ∈ seen, Fair id observed) :
    seen.countP (passes id) ≤
      genesis.binding.limits.bypassCount + genesis.binding.limits.queuedWork := by
  have hkeeps : Continues genesis before := by
    refine hearlier.invariant (fun state command next hstate haccepts => ?_)
      (continues_of_started hstart)
    exact continues_of_accepts hstate haccepts
  have hcount : headroom id after + seen.countP (passes id) ≤
      headroom id before := by
    refine hrun.countP_le (headroom id)
      (fun observed => selects id observed = false ∧ Fair id observed)
      (fun state observed next horderly hobserves => ?_)
      (fun state observed next horderly hok hobserves => ?_) hkeeps.orderly
      fun observed hobserved => ⟨hselects observed hobserved,
        hfair observed hobserved⟩
    · obtain ⟨-, command, -, haccepts⟩ := hobserves
      exact orderly_of_accepts horderly haccepts
    · exact headroom_of_observes horderly hok.1 hok.2 hobserves
  have hle := headroom_le hkeeps.orderly id
  rw [hkeeps.binding] at hle
  omega

/-! ### Work that starves -/

def numbered (n : Fin 255) : OpaqueIdentifier :=
  ⟨n + 1, Nat.succ_ne_zero _, by omega⟩

def tightLimits : SchedulerLimits :=
  { SchedulerLimits.production with
    queuedWork := 3
    bypassCount := 1
    checks := by decide
    queued := by decide
    active := SchedulerLimits.production.active }

def tightBinding : SchedulerBinding :=
  { smallBinding with limits := tightLimits, dimensions := by decide }

def wideWorker : WorkerDescriptor :=
  { smallWorker with
    concurrency := 8
    concurrent := by decide
    bound := by decide }

/-- One unit of the eight. -/
def unitRequest : ResourceVector where
  entries := [⟨.ofNat 1, .ofNat 1⟩]
  nonempty := by decide
  canonical := List.pairwise_singleton _ _

def unitWork (id : WorkId) (priority : UInt8) : WorkSpec :=
  { smallWork with
    id
    priority
    request := unitRequest
    notSelf := List.not_mem_nil
    otherParent := nofun
    dimensions := by decide }

def tightStart (sha256 : List UInt8 → Sha256Digest) : SchedulerState :=
  let state := SchedulerState.genesis tightBinding (numbered 0) (numbered 0)
  { state with stateDigest := stateDigest sha256 state }

def tightGenesis : SchedulerCommand :=
  { smallGenesis with
    commandId := numbered 0
    eventId := numbered 0
    kind := .startScheduler tightBinding
    genesis := by decide }

/-- What a list of requests shows on its way. -/
def visits (sha256 : List UInt8 → Sha256Digest) :
    SchedulerState → List Request → List Observation
  | _, [] => []
  | state, (id, kind) :: rest =>
      (state, kind) :: match attempts sha256 state [(id, kind)] with
        | none => []
        | some next => visits sha256 next rest

section Visits

variable {sha256 : List UInt8 → Sha256Digest} {state next : SchedulerState}

theorem attempts_cons {request : Request} {rest : List Request}
    (h : attempts sha256 state (request :: rest) = some next) :
    ∃ middle, attempts sha256 state [request] = some middle ∧
      attempts sha256 middle rest = some next := by
  obtain ⟨id, kind⟩ := request
  unfold attempts at h
  split at h
  · rename_i hfences
    split at h
    · rename_i sequence applied event hsequence happlied
      split at h
      · rename_i hbytes
        refine ⟨_, ?_, h⟩
        unfold attempts
        rw [if_pos hfences, hsequence, happlied]
        exact if_pos hbytes
      · cases h
    · cases h
  · cases h

theorem run_of_visits {requests : List Request}
    (h : attempts sha256 state requests = some next) :
    Run (Observes sha256) state (visits sha256 state requests) next := by
  induction requests generalizing state with
  | nil =>
      cases h
      exact .nil next
  | cons request rest ih =>
      obtain ⟨middle, hfirst, hrest⟩ := attempts_cons h
      obtain ⟨id, kind⟩ := request
      obtain ⟨commands, hkinds, hrun⟩ := run_of_attempts hfirst
      unfold visits
      rw [hfirst]
      refine .cons ⟨rfl, ?_⟩ (ih hrest)
      cases hrun with
      | nil => cases hkinds
      | cons haccepts hnil =>
          obtain ⟨hkind, hempty⟩ := List.cons.inj hkinds
          cases List.map_eq_nil_iff.mp hempty
          cases hnil
          exact ⟨_, hkind, haccepts⟩

end Visits

theorem started_tightStart (sha256 : List UInt8 → Sha256Digest) :
    Started sha256 (tightStart sha256) := by
  have hstart : (start sha256 tightGenesis).toOption.map (·.state) =
      some (tightStart sha256) := by rfl
  obtain ⟨transition, hsome, hstate⟩ := Option.map_eq_some_iff.mp hstart
  exact ⟨tightGenesis, transition, toOption_eq_some_iff.mp hsome, hstate⟩

/-- Work without priority, and more urgent work that keeps arriving. -/
def crowd : List Request :=
  [(numbered 1, .registerWorker wideWorker),
   (numbered 2, .admitWork (unitWork (numbered 40) 0)),
   (numbered 3, .admitWork (unitWork (numbered 41) 1)),
   (numbered 4, .admitWork (unitWork (numbered 42) 1)),
   (numbered 5, .dispatchNext (numbered 61) zeroDigest),
   (numbered 6, .admitWork (unitWork (numbered 43) 1)),
   (numbered 7, .dispatchNext (numbered 62) zeroDigest),
   (numbered 8, .admitWork (unitWork (numbered 44) 1)),
   (numbered 9, .dispatchNext (numbered 63) zeroDigest),
   (numbered 10, .admitWork (unitWork (numbered 45) 1)),
   (numbered 11, .dispatchNext (numbered 64) zeroDigest),
   (numbered 12, .dispatchNext (numbered 65) zeroDigest)]

theorem crowd_passes :
    (attempts (fun _ => zeroDigest) (tightStart fun _ => zeroDigest)
      crowd).isSome = true ∧
    (visits (fun _ => zeroDigest) (tightStart fun _ => zeroDigest)
      crowd).countP (passes (numbered 40)) = 5 ∧
    ∀ observed ∈ visits (fun _ => zeroDigest) (tightStart fun _ => zeroDigest)
      crowd, selects (numbered 40) observed = false := by
  refine ⟨?_, ?_, ?_⟩
  · decide +kernel
  · decide +kernel
  · decide +kernel

/-- The limits allow four. -/
theorem crowd_starves : ¬∀ (sha256 : List UInt8 → Sha256Digest)
    (genesis before after : SchedulerState) (earlier : List SchedulerCommand)
    (seen : List Observation) (id : WorkId),
    Started sha256 genesis →
    Run (Accepts sha256) genesis earlier before →
    Run (Observes sha256) before seen after →
    (∀ observed ∈ seen, selects id observed = false) →
    seen.countP (passes id) ≤ genesis.binding.limits.bypassCount +
      genesis.binding.limits.queuedWork := by
  intro h
  obtain ⟨haccepted, hpasses, hselects⟩ := crowd_passes
  obtain ⟨after, hafter⟩ := Option.isSome_iff_exists.mp haccepted
  have hle := h _ _ _ after [] _ (numbered 40) (started_tightStart _) (.nil _)
    (run_of_visits hafter) hselects
  rw [hpasses] at hle
  exact absurd hle (by decide)

/-- Work of one priority, of which the last has waited to the limit at the second
dispatch. -/
def queue : List Request :=
  [(numbered 1, .registerWorker wideWorker),
   (numbered 2, .admitWork (unitWork (numbered 41) 0)),
   (numbered 3, .admitWork (unitWork (numbered 42) 0)),
   (numbered 4, .admitWork (unitWork (numbered 40) 0)),
   (numbered 5, .dispatchNext (numbered 61) zeroDigest),
   (numbered 6, .dispatchNext (numbered 62) zeroDigest)]

theorem queue_fair :
    (attempts (fun _ => zeroDigest) (tightStart fun _ => zeroDigest)
      queue).isSome = true ∧
    ∀ observed ∈ visits (fun _ => zeroDigest) (tightStart fun _ => zeroDigest)
      queue, selects (numbered 40) observed = false ∧
        Fair (numbered 40) observed := by
  constructor
  · decide +kernel
  · decide +kernel

theorem bounded_bypass_of_queue :
    (visits (fun _ => zeroDigest) (tightStart fun _ => zeroDigest)
      queue).countP (passes (numbered 40)) ≤ 1 + 3 := by
  obtain ⟨haccepted, hfair⟩ := queue_fair
  obtain ⟨after, hafter⟩ := Option.isSome_iff_exists.mp haccepted
  exact bounded_bypass (numbered 40) (started_tightStart _) (.nil _)
    (run_of_visits hafter) (fun observed hmem => (hfair observed hmem).1)
    fun observed hmem => (hfair observed hmem).2

end Peritus.Scheduler.Starvation
