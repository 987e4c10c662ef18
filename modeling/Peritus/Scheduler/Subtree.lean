import Peritus.Forest
import Peritus.Scheduler.Ownership

/-!
Cancelling a tree of work.  The identities it affects are found by passes over
the work table that add the children of what was reached, until a pass adds
nothing; they are the open records whose chain of parents meets the root, and
the update changes these and nothing else.
-/

namespace Peritus.Scheduler.Subtree

open Relation
open Peritus.Types Forest TransitionSystem SortedTable Limits State Mutation
open Reducer Invariant Edits Handlers Sweeps Ownership

/-! ### The set that the passes fill -/

section Identities

variable {values : List WorkId} {id other : WorkId}

abbrev Ascending (values : List WorkId) : Prop :=
  Sorted (fun id : WorkId => id) values

/-- What the search keeps: smaller identities below, no smaller ones above. -/
theorem lowerBoundFrom_spec (hsorted : Ascending values) {steps low high : Nat}
    (hlow : low ≤ high) (hhigh : high ≤ values.length)
    (hsteps : high - low ≤ steps)
    (hbelow : ∀ i < low, ∀ value, values[i]? = some value → value < id)
    (habove : ∀ i, high ≤ i → ∀ value, values[i]? = some value → ¬ value < id) :
    (∀ i < lowerBoundFrom values id steps low high, ∀ value,
        values[i]? = some value → value < id) ∧
      ∀ i, lowerBoundFrom values id steps low high ≤ i → ∀ value,
        values[i]? = some value → ¬ value < id := by
  induction steps generalizing low high with
  | zero =>
      have hsame : low = high := by omega
      subst hsame
      exact ⟨hbelow, habove⟩
  | succ steps ih =>
      unfold lowerBoundFrom
      by_cases hlt : low < high
      · have hmiddle : low + (high - low) / 2 < values.length := by omega
        have hget := List.getElem?_eq_getElem hmiddle
        rw [if_pos hlt]
        simp only [hget]
        split
        · rename_i hless
          refine ih (by omega) hhigh (by omega) ?_ habove
          intro i hi value hvalue
          rcases Nat.lt_succ_iff_lt_or_eq.mp hi with hbefore | rfl
          · exact (hsorted.lt hbefore hvalue hget).trans hless
          · rw [hget] at hvalue
            cases hvalue
            exact hless
        · rename_i hnot
          refine ih (by omega) (by omega) (by omega) hbelow ?_
          intro i hi value hvalue hless
          rcases Nat.lt_or_eq_of_le hi with hafter | rfl
          · exact hnot ((hsorted.lt hafter hget hvalue).trans hless)
          · rw [hget] at hvalue
            cases hvalue
            exact hnot hless
      · rw [if_neg hlt]
        have hsame : low = high := by omega
        subst hsame
        exact ⟨hbelow, habove⟩

theorem lowerBound_spec (hsorted : Ascending values) (id : WorkId) :
    (∀ i < lowerBound values id, ∀ value, values[i]? = some value →
        value < id) ∧
      ∀ i, lowerBound values id ≤ i → ∀ value, values[i]? = some value →
        ¬ value < id := by
  apply lowerBoundFrom_spec hsorted (Nat.zero_le _) le_rfl (Nat.sub_le _ _)
  · intro i hi
    exact absurd hi (Nat.not_lt_zero i)
  · intro i hi value hvalue
    rw [List.getElem?_eq_none hi] at hvalue
    cases hvalue

@[simp] theorem contains_iff (hsorted : Ascending values) :
    contains values id = true ↔ id ∈ values := by
  unfold contains
  rw [decide_eq_true_eq]
  constructor
  · exact List.mem_of_getElem?
  · intro hmem
    obtain ⟨j, hj⟩ := List.mem_iff_getElem?.mp hmem
    obtain ⟨hbelow, habove⟩ := lowerBound_spec hsorted id
    rcases Nat.lt_trichotomy j (lowerBound values id) with hlt | rfl | hgt
    · exact absurd (hbelow j hlt id hj) (lt_irrefl id)
    · exact hj
    · have hbound := hgt.trans (List.getElem?_eq_some_iff.mp hj).1
      have hget := List.getElem?_eq_getElem hbound
      exact absurd (hsorted.lt hgt hget hj) (habove _ le_rfl _ hget)

theorem insertId_of_mem (hsorted : Ascending values) (hmem : id ∈ values) :
    insertId values id = (values, false) :=
  if_pos ((contains_iff hsorted).mpr hmem)

/-- A fresh identity goes to its place. -/
theorem insertId_of_not_mem (hsorted : Ascending values) (hnew : id ∉ values) :
    (insertId values id).2 = true ∧ Ascending (insertId values id).1 ∧
      ∀ other, other ∈ (insertId values id).1 ↔ other = id ∨ other ∈ values := by
  have hnot : ¬ contains values id = true :=
    fun h => hnew ((contains_iff hsorted).mp h)
  obtain ⟨hbelow, habove⟩ := lowerBound_spec hsorted id
  rw [insertId, if_neg hnot]
  refine ⟨rfl, ?_, fun other => mem_insertAt⟩
  apply sorted_insertAt hsorted
  · exact fun i value hi => hbelow i hi value
  · intro i value hi hvalue
    refine lt_of_le_of_ne (not_lt.mp (habove i hi value hvalue)) ?_
    rintro rfl
    exact hnew (List.mem_of_getElem? hvalue)

end Identities

/-! ### One pass -/

section Passes

variable {work : List WorkRecord} {record : WorkRecord}
variable {reached : List WorkId} {changed : Bool}

/-- The turn of one record in a pass. -/
def visit (pair : List WorkId × Bool) (record : WorkRecord) :
    List WorkId × Bool :=
  match record.spec.parent with
  | none => pair
  | some parent =>
      if contains pair.1 parent then
        ((insertId pair.1 record.id).1,
          pair.2 || (insertId pair.1 record.id).2)
      else pair

/-- The children of a set are in it. -/
def Holds (work : List WorkRecord) (reached : List WorkId) : Prop :=
  ∀ record ∈ work, ∀ parent, record.spec.parent = some parent →
    parent ∈ reached → record.id ∈ reached

/-- A record either changes nothing, because it is no child of what was
reached or was reached before, or it is added. -/
theorem visit_spec (hsorted : Ascending reached) (changed : Bool)
    (record : WorkRecord) :
    (visit (reached, changed) record = (reached, changed) ∧
      Holds [record] reached) ∨
    ∃ parent added, record.spec.parent = some parent ∧ parent ∈ reached ∧
      record.id ∉ reached ∧ visit (reached, changed) record = (added, true) ∧
      Ascending added ∧
      ∀ id, id ∈ added ↔ id = record.id ∨ id ∈ reached := by
  unfold visit
  cases hparent : record.spec.parent with
  | none =>
      refine .inl ⟨rfl, ?_⟩
      simp [Holds, hparent]
  | some parent =>
      dsimp only
      by_cases hmem : parent ∈ reached
      · rw [if_pos ((contains_iff hsorted).mpr hmem)]
        by_cases hold : record.id ∈ reached
        · rw [insertId_of_mem hsorted hold, Bool.or_false]
          refine .inl ⟨rfl, ?_⟩
          simp [Holds, hold]
        · obtain ⟨hadded, hascending, hmembers⟩ :=
            insertId_of_not_mem hsorted hold
          rw [hadded, Bool.or_true]
          exact .inr ⟨parent, _, rfl, hmem, hold, rfl, hascending, hmembers⟩
      · rw [if_neg fun h => hmem ((contains_iff hsorted).mp h)]
        refine .inl ⟨rfl, ?_⟩
        simp [Holds, hparent, hmem]

/-- What a pass does to what was reached. -/
structure Passed (work : List WorkRecord) (reached : List WorkId)
    (changed : Bool) (result : List WorkId × Bool) : Prop where
  ascending : Ascending result.1
  retains : reached ⊆ result.1
  origin : ∀ within : WorkId → Prop,
    (∀ record ∈ work, ∀ parent, record.spec.parent = some parent →
      within parent → within record.id) →
    (∀ id ∈ reached, within id) → ∀ id ∈ result.1, within id
  grows : result.2 = true → changed = true ∨ reached.length < result.1.length
  closed : result.2 = false → changed = false ∧ result.1 = reached ∧
    Holds work reached

theorem passed_foldl (hsorted : Ascending reached) (work : List WorkRecord)
    (changed : Bool) :
    Passed work reached changed (work.foldl visit (reached, changed)) := by
  induction work generalizing reached changed with
  | nil =>
      exact ⟨hsorted, List.Subset.refl _, fun _ _ hwithin => hwithin, .inl,
        fun h => ⟨h, rfl, fun _ hmem => by cases hmem⟩⟩
  | cons record rest ih =>
      rw [List.foldl_cons]
      rcases visit_spec hsorted changed record with
        ⟨hvisit, hheld⟩ | ⟨parent, added, hparent, hmem, hnew, hvisit, hascending,
          hmembers⟩
      · rw [hvisit]
        have hrest := ih hsorted changed
        refine ⟨hrest.ascending, hrest.retains, ?_, hrest.grows, ?_⟩
        · intro within hwork
          exact hrest.origin within fun other hother =>
            hwork other (List.mem_cons_of_mem _ hother)
        · intro hunchanged
          obtain ⟨hbefore, hsame, hholds⟩ := hrest.closed hunchanged
          exact ⟨hbefore, hsame, List.forall_mem_cons.mpr
            ⟨hheld record List.mem_cons_self, hholds⟩⟩
      · rw [hvisit]
        have hrest := ih hascending true
        have hsubset : reached ⊆ added :=
          fun id hid => (hmembers id).mpr (.inr hid)
        refine ⟨hrest.ascending, fun id hid => hrest.retains (hsubset hid), ?_,
          ?_, ?_⟩
        · intro within hwork hwithin
          refine hrest.origin within (fun other hother =>
            hwork other (List.mem_cons_of_mem _ hother)) fun id hid => ?_
          rcases (hmembers id).mp hid with rfl | hold
          · exact hwork record List.mem_cons_self parent hparent
              (hwithin parent hmem)
          · exact hwithin id hold
        · intro _
          right
          have hadds : (record.id :: reached) ⊆
              (rest.foldl visit (added, true)).1 := by
            intro id hid
            refine hrest.retains ((hmembers id).mpr ?_)
            exact List.mem_cons.mp hid
          have hnodup : (record.id :: reached).Nodup :=
            List.nodup_cons.mpr ⟨hnew, hsorted.imp ne_of_lt⟩
          exact (List.subperm_of_subset hnodup hadds).length_le
        · intro hunchanged
          cases (hrest.closed hunchanged).1

theorem passed_closurePass (hsorted : Ascending reached)
    (work : List WorkRecord) :
    Passed work reached false (closurePass work reached) :=
  passed_foldl hsorted work false

/-! ### The passes together -/

/-- Identities from the table, beside the root. -/
def Within (work : List WorkRecord) (root : WorkId) (reached : List WorkId) :
    Prop :=
  reached ⊆ root :: work.map WorkRecord.id

variable {root : WorkId}

theorem Within.passed {result : List WorkId × Bool}
    (hwithin : Within work root reached)
    (hpassed : Passed work reached changed result) :
    Within work root result.1 := by
  apply hpassed.origin (· ∈ root :: work.map WorkRecord.id)
  · intro record hrecord parent _ _
    exact List.mem_cons_of_mem _ (List.mem_map_of_mem hrecord)
  · exact fun id hid => hwithin hid

theorem Within.length_le (hwithin : Within work root reached)
    (hsorted : Ascending reached) : reached.length ≤ work.length + 1 := by
  have hnodup : reached.Nodup := hsorted.imp ne_of_lt
  have hlength := (List.subperm_of_subset hnodup hwithin).length_le
  simpa using hlength

/-- With a pass for every identity that may still be added, the last pass adds
nothing. -/
theorem closureLoop_spec {passes : Nat} (hsorted : Ascending reached)
    (hwithin : Within work root reached)
    (henough : work.length + 2 ≤ passes + reached.length) :
    Ascending (closureLoop work passes reached) ∧
      reached ⊆ closureLoop work passes reached ∧
      (∀ within : WorkId → Prop,
        (∀ record ∈ work, ∀ parent, record.spec.parent = some parent →
          within parent → within record.id) →
        (∀ id ∈ reached, within id) →
        ∀ id ∈ closureLoop work passes reached, within id) ∧
      Holds work (closureLoop work passes reached) := by
  induction passes generalizing reached with
  | zero =>
      have hlength := hwithin.length_le hsorted
      omega
  | succ passes ih =>
      have hpassed := passed_closurePass hsorted work
      unfold closureLoop
      dsimp only
      split
      · rename_i hchanged
        have hgrows := (hpassed.grows hchanged).resolve_left (by decide)
        obtain ⟨hascending, hretains, horigin, hholds⟩ :=
          ih hpassed.ascending (hwithin.passed hpassed) (by omega)
        refine ⟨hascending, fun id hid => hretains (hpassed.retains hid), ?_,
          hholds⟩
        intro within hwork hreached
        exact horigin within hwork (hpassed.origin within hwork hreached)
      · rename_i hunchanged
        obtain ⟨-, hsame, hholds⟩ :=
          hpassed.closed (Bool.eq_false_iff.mpr hunchanged)
        rw [hsame]
        exact ⟨hsorted, List.Subset.refl _, fun _ _ hwithin => hwithin, hholds⟩

/-- Passes beyond these change nothing. -/
theorem closureLoop_enough {passes more : Nat} (hsorted : Ascending reached)
    (hwithin : Within work root reached)
    (henough : work.length + 2 ≤ passes + reached.length)
    (hmore : passes ≤ more) :
    closureLoop work more reached = closureLoop work passes reached := by
  induction passes generalizing reached more with
  | zero =>
      have hlength := hwithin.length_le hsorted
      omega
  | succ passes ih =>
      obtain ⟨more, rfl⟩ := Nat.exists_eq_add_of_lt hmore
      rw [show passes + more + 1 = (passes + more) + 1 from rfl]
      have hpassed := passed_closurePass hsorted work
      unfold closureLoop
      dsimp only
      split
      · rename_i hchanged
        have hgrows := (hpassed.grows hchanged).resolve_left (by decide)
        exact ih hpassed.ascending (hwithin.passed hpassed) (by omega)
          (Nat.le_add_right _ _)
      · rfl

/-- A closed set is a fixed point of the pass. -/
theorem closurePass_of_holds (hsorted : Ascending reached)
    (hholds : Holds work reached) : closurePass work reached = (reached, false) := by
  have hpassed := passed_closurePass hsorted work
  have hsame : (closurePass work reached).2 = false := by
    rw [Bool.eq_false_iff]
    intro hchanged
    have hgrows := (hpassed.grows hchanged).resolve_left (by decide)
    have hback : (closurePass work reached).1 ⊆ reached := by
      apply hpassed.origin (· ∈ reached) hholds
      exact fun id hid => hid
    have hlength := (List.subperm_of_subset
      (hpassed.ascending.imp ne_of_lt) hback).length_le
    omega
  obtain ⟨-, hfirst, -⟩ := hpassed.closed hsame
  exact Prod.ext hfirst hsame

/-- The parent of a retained record. -/
def parentOf (work : List WorkRecord) (id : WorkId) : Option WorkId :=
  (lookup WorkRecord.id id work).bind fun record => record.spec.parent

theorem parentOf_of_mem (hwork : Sorted WorkRecord.id work)
    (hrecord : record ∈ work) :
    parentOf work record.id = record.spec.parent := by
  rw [parentOf, lookup_of_mem hwork hrecord rfl]
  rfl

theorem closure_spec (work : List WorkRecord) (root : WorkId) :
    Ascending (closure work root) ∧ root ∈ closure work root ∧
      (∀ within : WorkId → Prop,
        (∀ record ∈ work, ∀ parent, record.spec.parent = some parent →
          within parent → within record.id) → within root →
        ∀ id ∈ closure work root, within id) ∧
      Holds work (closure work root) := by
  have hsorted : Ascending [root] := List.pairwise_singleton _ _
  have hwithin : Within work root [root] := by simp [Within]
  obtain ⟨hascending, hretains, horigin, hholds⟩ :=
    closureLoop_spec hsorted hwithin (le_of_eq rfl)
  refine ⟨hascending, hretains (List.mem_singleton_self root), ?_, hholds⟩
  intro within hwork hroot
  exact horigin within hwork fun id hid => (List.mem_singleton.mp hid) ▸ hroot

/-- The passes find exactly what lies under the root. -/
theorem mem_closure_iff (hwork : Sorted WorkRecord.id work) {id : WorkId} :
    id ∈ closure work root ↔ Ancestor (parentOf work) id root := by
  obtain ⟨-, hroot, horigin, hholds⟩ := closure_spec work root
  constructor
  · apply horigin fun id => Ancestor (parentOf work) id root
    · intro record hrecord parent hparent habove
      exact ancestor_of_parent
        ((parentOf_of_mem hwork hrecord).trans hparent) habove
    · exact .refl _ root
  · intro hancestor
    induction hancestor using ReflTransGen.head_induction_on with
    | refl => exact hroot
    | head hparent _ ih =>
        obtain ⟨record, hfound, hnext⟩ := Option.bind_eq_some_iff.mp hparent
        obtain ⟨hrecord, rfl⟩ := mem_of_lookup hfound
        exact hholds record hrecord _ hnext ih

end Passes

/-! ### The update -/

section Update

variable {sha256 : List UInt8 → Sha256Digest}
variable {state next : SchedulerState} {record : WorkRecord}

/-- A cancelled record: it waits for its reservation to be given up, or is
settled at once if it has none. -/
def cancelled (reservations : List SchedulerReservation) (record : WorkRecord) :
    WorkRecord :=
  if isActive reservations record.id then record.setPhase .cancelling
  else record.terminalize .cancelled

def cancelledAmong (reservations : List SchedulerReservation)
    (targets : List WorkId) (record : WorkRecord) : WorkRecord :=
  if record.id ∈ targets then cancelled reservations record else record

theorem cancelled_id (reservations : List SchedulerReservation)
    (record : WorkRecord) : (cancelled reservations record).id = record.id := by
  unfold cancelled
  split <;> rfl

theorem updateOne_eq (hsound : Sound state) (hrecord : record ∈ state.work) :
    updateOne state record.id =
      some { state with
        work := replaceRow WorkRecord.id (cancelled state.reservations record)
          state.work } := by
  unfold updateOne cancelled
  split
  · exact updateWork_eq hsound hrecord (.phase .cancelling)
  · exact updateWork_eq hsound hrecord (.terminal .cancelled)

/-- The update changes the targets, each once, and no other row. -/
theorem applyUpdates_eq {targets : List WorkId} (hsound : Sound state)
    (hnodup : targets.Nodup)
    (hopen : ∀ id ∈ targets, ∃ record ∈ state.work, record.id = id ∧
      record.phase ≠ .terminal) :
    applyUpdates state targets =
      { state with
        work := state.work.map
          (cancelledAmong state.reservations targets) } := by
  induction targets generalizing state with
  | nil =>
      have hsame : cancelledAmong state.reservations [] = id := by
        funext record
        exact if_neg List.not_mem_nil
      rw [hsame, List.map_id]
      rfl
  | cons id rest ih =>
      obtain ⟨hfirst, hrest⟩ := List.nodup_cons.mp hnodup
      obtain ⟨record, hrecord, rfl, hphase⟩ := hopen id List.mem_cons_self
      obtain ⟨updated, hrewrite, hnext⟩ :=
        edit_of_updateOne hsound hrecord hphase
      have hedit : Edit (fun _ => zeroDigest) .pauseScheduler state
          { state with
            work := replaceRow WorkRecord.id updated state.work } :=
        .rewrite hrecord hrewrite
      have hopen' : ∀ id ∈ rest, ∃ found ∈
          replaceRow WorkRecord.id updated state.work,
          found.id = id ∧ found.phase ≠ .terminal := by
        intro other hother
        obtain ⟨found, hfound, hid, hne⟩ :=
          hopen other (List.mem_cons_of_mem _ hother)
        refine ⟨found, mem_of_replaced hsound hrecord
          (holds_of_rewrite hrewrite).1 hfound fun heq => hfirst ?_, hid, hne⟩
        rwa [← heq, hid]
      have hrecursive := ih (sound_of_edit hsound hedit) hrest hopen'
      have hnext' := updateOne_eq hsound hrecord
      rw [hnext] at hnext'
      have hwork : replaceRow WorkRecord.id updated state.work =
          replaceRow WorkRecord.id (cancelled state.reservations record)
            state.work :=
        congrArg SchedulerState.work (Option.some.inj hnext')
      rw [applyUpdates, hnext]
      dsimp only at hrecursive ⊢
      rw [hrecursive, hwork]
      unfold replaceRow
      rw [List.map_map]
      refine congrArg (fun work => { state with work := work })
        (List.map_congr_left fun other hother => ?_)
      rw [Function.comp_apply, cancelled_id]
      unfold cancelledAmong
      by_cases hsame : other.id = record.id
      · cases hsound.work.sorted.inj hother hrecord hsame
        rw [if_pos rfl, cancelled_id, if_neg hfirst,
          if_pos List.mem_cons_self]
      · rw [if_neg hsame]
        simp only [List.mem_cons, hsame, false_or]

/-- What lies under the root and is still open, in the order of identities. -/
theorem affected_iff (hsound : Sound state) (root : WorkId) :
    Ascending (affected state.work root true) ∧
      ∀ id, id ∈ affected state.work root true ↔ ∃ record ∈ state.work,
        record.id = id ∧ record.phase ≠ .terminal ∧
          Ancestor (parentOf state.work) id root := by
  unfold affected
  constructor
  · exact List.pairwise_map.mpr (hsound.work.sorted.sublist List.filter_sublist)
  · intro id
    rw [List.mem_map]
    refine exists_congr fun record => ?_
    rw [List.mem_filter, if_pos rfl, Bool.and_eq_true, decide_eq_true_eq,
      contains_iff (closure_spec state.work root).1,
      mem_closure_iff hsound.work.sorted]
    constructor
    · rintro ⟨⟨hrecord, hopen, habove⟩, rfl⟩
      exact ⟨hrecord, rfl, hopen, habove⟩
    · rintro ⟨hrecord, rfl, hopen, habove⟩
      exact ⟨⟨hrecord, hopen, habove⟩, rfl⟩

theorem cancel_eq_ok (hsound : Sound state) {root : WorkId}
    (hitem : state.workItem root = some record)
    (hopen : record.phase ≠ .terminal) :
    cancel state root true =
      .ok ({ state with
          work := state.work.map (cancelledAmong state.reservations
            (affected state.work root true)) },
        .workCancelled root true (affected state.work root true)) := by
  have hnodup : (affected state.work root true).Nodup :=
    (affected_spec hsound.work.sorted).1
  have hretained : ∀ id ∈ affected state.work root true,
      ∃ record ∈ state.work, record.id = id ∧ record.phase ≠ .terminal :=
    (affected_spec hsound.work.sorted).2
  unfold cancel
  rw [hitem]
  dsimp only
  rw [if_neg hopen, applyUpdates_eq hsound hnodup hretained]

/-- Cancelling a tree affects exactly what is under its root: the open records
whose chain of parents meets it, in the order of identities; each waits for its
reservation or is settled, and no other record, reservation or worker changes.
The passes that find them end, whatever the parents are. -/
theorem cancellation_exact
    (hreach : Reachable (Started sha256) (Accepts sha256) state)
    (root : WorkId) :
    (∀ record, state.workItem root = some record →
      record.phase ≠ .terminal → ∃ targets : List WorkId,
        apply sha256 state (.cancelWorkTree root) =
          .ok ({ state with
              work := state.work.map
                (cancelledAmong state.reservations targets) },
            .workCancelled root true targets) ∧
        targets.Pairwise (· < ·) ∧
        ∀ id, id ∈ targets ↔ ∃ record ∈ state.work, record.id = id ∧
          record.phase ≠ .terminal ∧
            Ancestor (parentOf state.work) id root) ∧
    (∀ work : List WorkRecord,
      closurePass work (closure work root) = (closure work root, false) ∧
      ∀ passes, work.length + 1 ≤ passes →
        closureLoop work passes [root] = closure work root) := by
  have hsound := sound_of_reachable hreach
  constructor
  · intro record hitem hopen
    obtain ⟨hascending, hmembers⟩ := affected_iff hsound root
    exact ⟨_, cancel_eq_ok hsound hitem hopen, hascending, hmembers⟩
  · intro work
    obtain ⟨hascending, -, -, hholds⟩ := closure_spec work root
    refine ⟨closurePass_of_holds hascending hholds, fun passes hpasses => ?_⟩
    have hwithin : Within work root [root] := by simp [Within]
    exact closureLoop_enough (List.pairwise_singleton _ _) hwithin
      (le_of_eq rfl) hpasses

end Update

/-! ### A root with a child, beside other work -/

def childWork (id : WorkId) (parent : Option WorkId)
    (hother : parent ≠ some id) : WorkSpec :=
  { smallWork with
    id
    parent
    otherParent := hother
    notSelf := smallWork_notSelf id
    dependencyBound := smallWork.dependencyBound }

/-- The root is dispatched before its tree is cancelled. -/
def treeRequests : List Request :=
  [(.ofNat 21, .registerWorker smallWorker),
   (.ofNat 22, .admitWork smallWork),
   (.ofNat 23, .admitWork (childWork (.ofNat 13) (some (.ofNat 12)) (by decide))),
   (.ofNat 24, .admitWork (childWork (.ofNat 14) none (by decide))),
   (.ofNat 25, .dispatchNext (.ofNat 30) zeroDigest)]

theorem affected_treeRequests :
    (attempts (fun _ => zeroDigest) (smallStart fun _ => zeroDigest)
      treeRequests).map (fun state =>
        (state.work.map (·.phase),
          (state.workItem smallWork.id).map (·.phase),
          affected state.work smallWork.id true)) =
      some ([.reserved, .queued, .queued], some .reserved,
        [⟨12, by decide, by decide⟩, ⟨13, by decide, by decide⟩]) := by
  decide +kernel

theorem cancellation_exact_of_tree : ∃ state targets,
    attempts (fun _ => zeroDigest) (smallStart fun _ => zeroDigest)
      treeRequests = some state ∧
    apply (fun _ => zeroDigest) state (.cancelWorkTree smallWork.id) =
      .ok ({ state with
          work := state.work.map
            (cancelledAmong state.reservations targets) },
        .workCancelled smallWork.id true targets) := by
  obtain ⟨state, hstate, hshape⟩ :=
    Option.map_eq_some_iff.mp affected_treeRequests
  obtain ⟨commands, -, hrun⟩ := run_of_attempts hstate
  obtain ⟨-, hrest⟩ := Prod.mk.inj hshape
  obtain ⟨hroot, -⟩ := Prod.mk.inj hrest
  obtain ⟨record, hitem, hphase⟩ := Option.map_eq_some_iff.mp hroot
  obtain ⟨targets, happlied, -⟩ := (cancellation_exact
    ⟨_, commands, started_smallStart fun _ => zeroDigest, hrun⟩
    smallWork.id).1 record hitem (by rw [hphase]; decide)
  exact ⟨state, targets, hstate, happlied⟩

end Peritus.Scheduler.Subtree
