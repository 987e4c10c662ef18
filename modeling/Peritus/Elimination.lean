import Peritus.Checked

/-!
Elimination of sources.  The vertices of a finite graph are rows of a table, and an
edge names its target by a key.  A queue starts with the rows that no edge enters; a
row taken from it gives up its edges, and a target left without any joins the queue.
If every row is taken, then the graph has no cycle.
-/

namespace Peritus.Elimination

open Checked

/-! ### Peeling -/

section Peeling

variable {ι : Type*} [DecidableEq ι] (targets : ι → List ι)

/-- Vertices that no edge from a remaining vertex enters are taken away one by one
until there are none. -/
inductive Peels : List ι → List ι → Prop
  | done {left : List ι} (hblocked : ∀ v ∈ left, v ∈ left.flatMap targets) :
      Peels left left
  | step {rest left : List ι} {source : ι} (hsource : source ∈ rest)
      (hfree : source ∉ rest.flatMap targets)
      (hpeels : Peels (rest.erase source) left) : Peels rest left

/-- Every edge from one of the vertices goes up. -/
def Ascends (rank : ι → Nat) (rest : List ι) : Prop :=
  ∀ u ∈ rest, ∀ v ∈ targets u, rank u < rank v

variable {targets} {rest left : List ι}

theorem ascends_of_peels (h : Peels targets rest left) (hleft : left = []) :
    ∃ rank, Ascends targets rank rest := by
  induction h with
  | done _ =>
      subst hleft
      exact ⟨fun _ => 0, fun u hu => absurd hu List.not_mem_nil⟩
  | @step rest left source hsource hfree hpeels ih =>
      obtain ⟨rank, hrank⟩ := ih hleft
      refine ⟨fun v => if v = source then 0 else rank v + 1, ?_⟩
      intro u hu v hv
      have hv' : v ≠ source := by
        rintro rfl
        exact hfree (List.mem_flatMap.mpr ⟨u, hu, hv⟩)
      by_cases hu' : u = source
      · simp only [if_pos hu', if_neg hv']
        omega
      · have hlt := hrank u ((List.mem_erase_of_ne hu').mpr hu) v hv
        simp only [if_neg hu', if_neg hv']
        omega

end Peeling

/-! ### The queue -/

section Queue

variable {κ ε : Type} (find : κ → Option Nat) (limit : Nat)
variable (missing overflow cycle : ε)

/-- One more for the target of each edge. -/
def countEdges : List κ → List Nat → Except ε (List Nat)
  | [], incoming => .ok incoming
  | edge :: rest, incoming =>
      match find edge with
      | none => .error missing
      | some target =>
          if incoming[target]? = some limit then .error overflow
          else countEdges rest (incoming.modify target (· + 1))

/-- One less for the target of each edge, which is ready when none is left. -/
def releaseEdges : List κ → List Nat × List Nat → Except ε (List Nat × List Nat)
  | [], state => .ok state
  | edge :: rest, (incoming, ready) =>
      match find edge with
      | none => .error missing
      | some target =>
          match incoming[target]? with
          | some (left + 1) =>
              releaseEdges rest (incoming.set target left,
                if left = 0 then ready ++ [target] else ready)
          | _ => .error cycle

/-- How many rows are taken from the queue. -/
def eliminate (edges : List (List κ)) :
    Nat → Nat → List Nat × List Nat → Except ε Nat
  | 0, count, _ => .ok count
  | _ + 1, count, (_, []) => .ok count
  | fuel + 1, count, (incoming, selected :: ready) => do
      let state ← releaseEdges find missing cycle (edges.getD selected [])
        (incoming, ready)
      eliminate edges fuel (count + 1) state

def zeroIndices (incoming : List Nat) : List Nat :=
  (List.range incoming.length).filter fun i => incoming[i]? = some 0

/-- No row is taken twice, so that their number is fuel enough. -/
def validate (edges : List (List κ)) : Except ε Unit := do
  let incoming ← countEdges find limit missing overflow edges.flatten
    (List.replicate edges.length 0)
  let count ← eliminate find missing cycle edges edges.length 0
    (incoming, zeroIndices incoming)
  ensure (decide (count = edges.length)) cycle

end Queue

/-! ### Counts -/

/-- For each row, how often it is in the list. -/
def counts (n : Nat) (remaining : List Nat) : List Nat :=
  (List.range n).map fun v => remaining.count v

section Counts

variable {n v : Nat} {remaining : List Nat}

@[simp] theorem length_counts : (counts n remaining).length = n := by
  simp [counts]

theorem getElem?_counts (hv : v < n) :
    (counts n remaining)[v]? = some (remaining.count v) := by
  simp [counts, hv]

theorem counts_congr {others : List Nat} (h : remaining.Perm others) :
    counts n remaining = counts n others := by
  unfold counts
  apply List.map_congr_left
  intro v _
  exact h.count_eq v

theorem modify_counts : (counts n remaining).modify v (· + 1) =
    counts n (v :: remaining) := by
  apply List.ext_getElem?
  intro i
  rw [List.getElem?_modify]
  by_cases hi : i < n
  · rw [getElem?_counts hi, getElem?_counts hi, List.count_cons]
    by_cases h : v = i
    · simp [h]
    · simp [h]
  · rw [List.getElem?_eq_none (by rw [length_counts]; omega),
      List.getElem?_eq_none (by rw [length_counts]; omega)]
    rfl

theorem set_counts (hv : v < n) :
    (counts n (v :: remaining)).set v (remaining.count v) =
      counts n remaining := by
  apply List.ext_getElem?
  intro i
  rw [List.getElem?_set]
  by_cases h : v = i
  · subst h
    rw [if_pos rfl, length_counts, if_pos hv, getElem?_counts hv]
  · rw [if_neg h]
    by_cases hi : i < n
    · rw [getElem?_counts hi, getElem?_counts hi, List.count_cons]
      simp [h]
    · rw [List.getElem?_eq_none (by rw [length_counts]; omega),
        List.getElem?_eq_none (by rw [length_counts]; omega)]

theorem replicate_eq_counts : List.replicate n 0 = counts n [] := by
  simp [counts]

theorem mem_zeroIndices : v ∈ zeroIndices (counts n remaining) ↔
    v < n ∧ v ∉ remaining := by
  unfold zeroIndices
  rw [List.mem_filter, List.mem_range, length_counts]
  apply and_congr_right
  intro hv
  rw [getElem?_counts hv]
  simp [List.count_eq_zero]

end Counts

/-! ### The run of the queue -/

section Runs

variable {κ ε : Type} {find : κ → Option Nat} {limit n : Nat}
variable {missing overflow cycle : ε} {edges : List (List κ)}

theorem of_countEdges {listed : List κ} {remaining incoming : List Nat}
    (h : countEdges find limit missing overflow listed (counts n remaining) =
      .ok incoming) :
    (∀ edge ∈ listed, (find edge).isSome) ∧
      incoming = counts n (listed.filterMap find ++ remaining) := by
  induction listed generalizing remaining with
  | nil =>
      cases h
      exact ⟨fun edge hedge => absurd hedge List.not_mem_nil, rfl⟩
  | cons edge rest ih =>
      simp only [countEdges] at h
      cases htarget : find edge with
      | none =>
          rw [htarget] at h
          cases h
      | some target =>
          rw [htarget] at h
          by_cases hlimit : (counts n remaining)[target]? = some limit
          · simp only [if_pos hlimit] at h
            cases h
          · simp only [if_neg hlimit, modify_counts] at h
            obtain ⟨hfound, rfl⟩ := ih h
            refine ⟨?_, ?_⟩
            · intro other hother
              rcases List.mem_cons.mp hother with rfl | hother
              · exact Option.isSome_iff_exists.mpr ⟨target, htarget⟩
              · exact hfound other hother
            · rw [List.filterMap_cons_some htarget]
              exact counts_congr List.perm_middle

theorem releaseEdges_counts (hbound : ∀ edge target, find edge = some target →
      target < n) {listed : List κ} (hfound : ∀ edge ∈ listed, (find edge).isSome)
    (missing cycle : ε) (remaining ready : List Nat) :
    ∃ released, releaseEdges find missing cycle listed
        (counts n (listed.filterMap find ++ remaining), ready) =
          .ok (counts n remaining, ready ++ released) ∧
      released.Nodup ∧
      ∀ v, v ∈ released ↔ v ∈ listed.filterMap find ∧ v ∉ remaining := by
  induction listed generalizing ready with
  | nil => exact ⟨[], by simp [releaseEdges], List.nodup_nil, by simp⟩
  | cons edge rest ih =>
      obtain ⟨target, htarget⟩ :=
        Option.isSome_iff_exists.mp (hfound edge List.mem_cons_self)
      have hlt := hbound edge target htarget
      obtain ⟨released, hrun, hnodup, hmem⟩ := ih
        (fun other hother => hfound other (List.mem_cons_of_mem _ hother))
        (if (rest.filterMap find ++ remaining).count target = 0
          then ready ++ [target] else ready)
      have hstep : releaseEdges find missing cycle (edge :: rest)
          (counts n ((edge :: rest).filterMap find ++ remaining), ready) =
          releaseEdges find missing cycle rest
            (counts n (rest.filterMap find ++ remaining),
              if (rest.filterMap find ++ remaining).count target = 0
                then ready ++ [target] else ready) := by
        rw [List.filterMap_cons_some htarget, List.cons_append]
        simp only [releaseEdges, htarget, getElem?_counts hlt, List.count_cons_self,
          set_counts hlt]
      rw [hstep, hrun, List.filterMap_cons_some htarget]
      by_cases hlast : (rest.filterMap find ++ remaining).count target = 0
      · have hnew : target ∉ rest.filterMap find ∧ target ∉ remaining := by
          rw [List.count_eq_zero, List.mem_append, not_or] at hlast
          exact hlast
        refine ⟨target :: released, by rw [if_pos hlast]; simp, ?_, ?_⟩
        · exact List.nodup_cons.mpr ⟨fun h => hnew.1 ((hmem target).mp h).1, hnodup⟩
        · intro v
          rw [List.mem_cons, List.mem_cons, hmem]
          constructor
          · rintro (rfl | ⟨hv, hrest⟩)
            · exact ⟨.inl rfl, hnew.2⟩
            · exact ⟨.inr hv, hrest⟩
          · rintro ⟨rfl | hv, hrest⟩
            · exact .inl rfl
            · exact .inr ⟨hv, hrest⟩
      · refine ⟨released, by rw [if_neg hlast], hnodup, ?_⟩
        intro v
        rw [hmem, List.mem_cons]
        constructor
        · rintro ⟨hv, hrest⟩
          exact ⟨.inr hv, hrest⟩
        · rintro ⟨rfl | hv, hrest⟩
          · rw [List.count_eq_zero, not_not, List.mem_append] at hlast
            exact ⟨hlast.resolve_right hrest, hrest⟩
          · exact ⟨hv, hrest⟩

variable (find edges) in
/-- The rows that the edges of a row enter. -/
def targetRows (row : Nat) : List Nat := (edges.getD row []).filterMap find

/-- The queue holds the remaining rows that no edge of a remaining row enters. -/
structure Frontier (find : κ → Option Nat) (edges : List (List κ))
    (rest ready : List Nat) : Prop where
  nodup : rest.Nodup
  distinct : ready.Nodup
  inner : ∀ v ∈ rest.flatMap (targetRows find edges), v ∈ rest
  ready : ∀ v, v ∈ ready ↔ v ∈ rest ∧ v ∉ rest.flatMap (targetRows find edges)

theorem frontier_step {rest ready released : List Nat} {selected : Nat}
    (h : Frontier find edges rest (selected :: ready)) (hnodup : released.Nodup)
    (hreleased : ∀ v, v ∈ released ↔ v ∈ targetRows find edges selected ∧
      v ∉ (rest.erase selected).flatMap (targetRows find edges)) :
    Frontier find edges (rest.erase selected) (ready ++ released) := by
  obtain ⟨hselected, hfree⟩ := (h.ready selected).mp List.mem_cons_self
  have hsplit : ∀ v, v ∈ rest.flatMap (targetRows find edges) ↔
      v ∈ targetRows find edges selected ∨
        v ∈ (rest.erase selected).flatMap (targetRows find edges) := by
    intro v
    rw [((List.perm_cons_erase hselected).flatMap_right _).mem_iff,
      List.flatMap_cons, List.mem_append]
  have hkept : ∀ v ∈ rest, v ≠ selected → v ∈ rest.erase selected :=
    fun v hv hne => (List.mem_erase_of_ne hne).mpr hv
  have hother : ∀ v ∈ rest.flatMap (targetRows find edges), v ≠ selected := by
    rintro v hv rfl
    exact hfree hv
  obtain ⟨hunselected, hdistinct⟩ := List.nodup_cons.mp h.distinct
  have hqueued : ∀ v ∈ ready, v ∈ rest ∧
      v ∉ rest.flatMap (targetRows find edges) :=
    fun v hv => (h.ready v).mp (List.mem_cons_of_mem _ hv)
  refine ⟨h.nodup.erase _, ?_, ?_, ?_⟩
  · refine List.nodup_append.mpr ⟨hdistinct, hnodup, ?_⟩
    rintro v hv w hw rfl
    exact (hqueued v hv).2 ((hsplit v).mpr (.inl ((hreleased v).mp hw).1))
  · intro v hv
    have hv' := (hsplit v).mpr (.inr hv)
    exact hkept v (h.inner v hv') (hother v hv')
  · intro v
    rw [List.mem_append, hreleased]
    constructor
    · rintro (hv | ⟨hv, hrest⟩)
      · obtain ⟨hmem, hfree'⟩ := hqueued v hv
        refine ⟨hkept v hmem ?_, fun h' => hfree' ((hsplit v).mpr (.inr h'))⟩
        rintro rfl
        exact hunselected hv
      · have hv' := (hsplit v).mpr (.inl hv)
        exact ⟨hkept v (h.inner v hv') (hother v hv'), hrest⟩
    · rintro ⟨hmem, hrest⟩
      by_cases hv : v ∈ targetRows find edges selected
      · exact .inr ⟨hv, hrest⟩
      · obtain ⟨hne, hmem'⟩ := h.nodup.mem_erase_iff.mp hmem
        have hready := (h.ready v).mpr
          ⟨hmem', fun h' => ((hsplit v).mp h').elim hv hrest⟩
        exact .inl ((List.mem_cons.mp hready).resolve_left hne)

/-- However much fuel there is, the rows taken are those that peeling takes. -/
theorem eliminate_counts
    (hbound : ∀ edge target, find edge = some target → target < n)
    (hfound : ∀ row, ∀ edge ∈ edges.getD row [], (find edge).isSome)
    (missing cycle : ε) {rest ready : List Nat}
    (h : Frontier find edges rest ready) (count : Nat) :
    ∃ left, Peels (targetRows find edges) rest left ∧
      ∀ fuel, rest.length ≤ fuel →
        ∃ taken, taken + left.length = rest.length ∧
          eliminate find missing cycle edges fuel count
            (counts n (rest.flatMap (targetRows find edges)), ready) =
              .ok (count + taken) := by
  induction hlength : rest.length generalizing rest ready count with
  | zero =>
      obtain rfl := List.length_eq_zero_iff.mp hlength
      have hready : ready = [] := List.eq_nil_iff_forall_not_mem.mpr fun v hv =>
        List.not_mem_nil ((h.ready v).mp hv).1
      subst hready
      refine ⟨[], .done fun v hv => absurd hv List.not_mem_nil, ?_⟩
      intro fuel _
      refine ⟨0, rfl, ?_⟩
      cases fuel <;> rfl
  | succ size ih =>
      cases ready with
      | nil =>
          refine ⟨rest, .done ?_, ?_⟩
          · intro v hv
            by_contra hfree
            exact List.not_mem_nil ((h.ready v).mpr ⟨hv, hfree⟩)
          · intro fuel hfuel
            refine ⟨0, by omega, ?_⟩
            cases fuel <;> rfl
      | cons selected ready =>
          obtain ⟨hselected, hfree⟩ := (h.ready selected).mp List.mem_cons_self
          obtain ⟨released, hrun, hnodup, hmem⟩ := releaseEdges_counts hbound
            (hfound selected) missing cycle
            ((rest.erase selected).flatMap (targetRows find edges)) ready
          obtain ⟨left, hpeels, hrest⟩ := ih (frontier_step h hnodup hmem)
            (count + 1) (by rw [List.length_erase_of_mem hselected]; omega)
          refine ⟨left, .step hselected hfree hpeels, ?_⟩
          intro fuel hfuel
          cases fuel with
          | zero => omega
          | succ fuel =>
              obtain ⟨taken, htaken, heliminate⟩ := hrest fuel (by omega)
              refine ⟨taken + 1, by omega, ?_⟩
              have hcounts : counts n (rest.flatMap (targetRows find edges)) =
                  counts n (targetRows find edges selected ++
                    (rest.erase selected).flatMap (targetRows find edges)) :=
                counts_congr ((List.perm_cons_erase hselected).flatMap_right _)
              rw [eliminate, hcounts, targetRows, hrun]
              change eliminate find missing cycle edges fuel (count + 1) _ = _
              rw [heliminate]
              congr 1
              omega

theorem flatMap_targetRows :
    (List.range edges.length).flatMap (targetRows find edges) =
      edges.flatten.filterMap find := by
  have hrows : (List.range edges.length).map (fun row => edges.getD row []) =
      edges := by
    apply List.ext_getElem
    · simp
    · intro i _ hi
      simp [hi]
  calc (List.range edges.length).flatMap (targetRows find edges)
      _ = (((List.range edges.length).map fun row => edges.getD row []).map
            fun listed => listed.filterMap find).flatten := by
          rw [List.map_map]
          rfl
      _ = edges.flatten.filterMap find := by
          rw [hrows, List.filterMap_flatten]

theorem of_validate (hbound : ∀ edge target, find edge = some target →
      target < edges.length)
    (h : validate find limit missing overflow cycle edges = .ok ()) :
    (∀ listed ∈ edges, ∀ edge ∈ listed, (find edge).isSome) ∧
      ∃ rank, Ascends (targetRows find edges) rank (List.range edges.length) := by
  simp only [validate, bind_eq_ok_iff, ensure_eq_ok_iff, decide_eq_true_eq] at h
  obtain ⟨incoming, hincoming, count, hcount, hall⟩ := h
  rw [replicate_eq_counts] at hincoming
  obtain ⟨hfound, rfl⟩ := of_countEdges hincoming
  have hrows : ∀ listed ∈ edges, ∀ edge ∈ listed, (find edge).isSome :=
    fun listed hlisted edge hedge =>
      hfound edge (List.mem_flatten.mpr ⟨listed, hlisted, hedge⟩)
  refine ⟨hrows, ?_⟩
  have hgetD : ∀ row, ∀ edge ∈ edges.getD row [], (find edge).isSome := by
    intro row edge hedge
    rw [List.getD_eq_getElem?_getD] at hedge
    cases hrow : edges[row]? with
    | none =>
        rw [hrow] at hedge
        exact absurd hedge List.not_mem_nil
    | some listed =>
        rw [hrow] at hedge
        exact hrows listed (List.mem_of_getElem? hrow) edge hedge
  have hinner : ∀ v ∈ edges.flatten.filterMap find, v < edges.length := by
    intro v hv
    obtain ⟨edge, _, htarget⟩ := List.mem_filterMap.mp hv
    exact hbound edge v htarget
  have hfrontier : Frontier find edges (List.range edges.length)
      (zeroIndices (counts edges.length (edges.flatten.filterMap find))) := by
    refine ⟨List.nodup_range, List.nodup_range.filter _, ?_, ?_⟩
    · intro v hv
      rw [flatMap_targetRows] at hv
      exact List.mem_range.mpr (hinner v hv)
    · intro v
      rw [mem_zeroIndices, flatMap_targetRows, List.mem_range]
  obtain ⟨left, hpeels, hrun⟩ :=
    eliminate_counts hbound hgetD missing cycle hfrontier 0
  obtain ⟨taken, htaken, heliminate⟩ := hrun edges.length (by simp)
  rw [flatMap_targetRows] at heliminate
  rw [List.append_nil, heliminate] at hcount
  have hcount' : 0 + taken = count := Except.ok.inj hcount
  rw [List.length_range] at htaken
  exact ascends_of_peels hpeels (List.length_eq_zero_iff.mp (by omega))

end Runs

end Peritus.Elimination
