import Peritus.Collections

/-!
Passes over a list that update it in place, each entry in the light of the whole
list, until a pass marks nothing more.  If an entry is marked once only, as many
passes as there are entries are enough.
-/

namespace Peritus.Passes

open Collections

variable {α β : Type*}

/-! ### The loop -/

section Loop

-- `visit values a` is the entry that replaces `a`, and whether it is newly marked
variable (visit : List α → α → α × Bool)

def visitAt (values : List α × Bool) (i : Nat) : List α × Bool :=
  match values.1[i]? with
  | none => values
  | some a =>
      (values.1.set i (visit values.1 a).1, values.2 || (visit values.1 a).2)

def pass (values : List α) : List α × Bool :=
  (List.range values.length).foldl (visitAt visit) (values, false)

/-- At most `bound` passes. -/
def passes : Nat → List α → List α
  | 0, values => values
  | bound + 1, values =>
      if (pass visit values).2 then passes bound (pass visit values).1
      else (pass visit values).1

end Loop

/-! ### Invariants -/

section Invariants

variable {visit : List α → α → α × Bool} {values : List α}

/-- The visits of the first `n` entries. -/
theorem visits_induction (inv : Nat → List α × Bool → Prop)
    (hstart : inv 0 (values, false))
    (hvisit : ∀ i current, i < values.length → inv i current →
      inv (i + 1) (visitAt visit current i)) :
    inv values.length (pass visit values) := by
  have hupto : ∀ n, n ≤ values.length →
      inv n ((List.range n).foldl (visitAt visit) (values, false)) := by
    intro n
    induction n with
    | zero => exact fun _ => hstart
    | succ n ih =>
        intro hle
        rw [List.range_succ, List.foldl_append]
        exact hvisit n _ hle (ih (Nat.le_of_succ_le hle))
  exact hupto values.length le_rfl

/-- What every visit preserves, the passes preserve. -/
theorem pass_invariant (inv : List α → Prop)
    (hvisit : ∀ current i a, inv current → current[i]? = some a →
      inv (current.set i (visit current a).1)) (hstart : inv values) :
    inv (pass visit values).1 := by
  refine visits_induction (fun _ current => inv current.1) hstart ?_
  intro i current _ hcurrent
  unfold visitAt
  split
  · exact hcurrent
  · next a ha => exact hvisit current.1 i a hcurrent ha

theorem passes_invariant (inv : List α → Prop)
    (hvisit : ∀ current i a, inv current → current[i]? = some a →
      inv (current.set i (visit current a).1)) (hstart : inv values)
    (bound : Nat) : inv (passes visit bound values) := by
  induction bound generalizing values with
  | zero => exact hstart
  | succ bound ih =>
      have hpass := pass_invariant inv hvisit hstart
      unfold passes
      split
      · exact ih hpass
      · exact hpass

@[simp] theorem length_visitAt (current : List α × Bool) (i : Nat) :
    (visitAt visit current i).1.length = current.1.length := by
  unfold visitAt
  split
  · rfl
  · exact List.length_set

/-- What every visit leaves behind, one pass leaves behind everywhere. -/
theorem forall_pass {good : α → Prop}
    (hvisit : ∀ current a, good (visit current a).1) :
    ∀ a ∈ (pass visit values).1, good a := by
  have hinv := @visits_induction _ visit values
    (fun n current => current.1.length = values.length ∧
      ∀ i a, i < n → current.1[i]? = some a → good a)
    ⟨rfl, fun _ _ hi => absurd hi (Nat.not_lt_zero _)⟩ (by
      rintro n current _ ⟨hlength, hgood⟩
      refine ⟨(length_visitAt current n).trans hlength, ?_⟩
      intro i a hi ha
      unfold visitAt at ha
      split at ha
      · rename_i hnone
        rcases Nat.lt_succ_iff_lt_or_eq.mp hi with hlt | rfl
        · exact hgood i a hlt ha
        · rw [hnone] at ha
          cases ha
      · rename_i b hb
        dsimp only at ha
        rw [List.getElem?_set] at ha
        split at ha
        · split at ha
          · cases ha
            exact hvisit current.1 b
          · cases ha
        · rename_i hne
          exact hgood i a (by omega) ha)
  intro a ha
  obtain ⟨i, hi⟩ := List.mem_iff_getElem?.mp ha
  have hlt := (List.getElem?_eq_some_iff.mp hi).1
  exact hinv.2 i a (by rw [hinv.1] at hlt; exact hlt) hi

theorem forall_passes {good : α → Prop}
    (hvisit : ∀ current a, good (visit current a).1) (bound : Nat) :
    ∀ a ∈ passes visit (bound + 1) values, good a := by
  have hpass := @forall_pass _ visit values good hvisit
  unfold passes
  split
  · refine passes_invariant (fun current => ∀ a ∈ current, good a) ?_ hpass bound
    intro current i a hcurrent _ b hb
    rcases List.mem_or_eq_of_mem_set hb with hb | rfl
    · exact hcurrent b hb
    · exact hvisit current a
  · exact hpass

end Invariants

/-! ### Marks -/

/-- Whether a visit marks an entry depends on a view of the entries, a visit that
does not mark leaves the view as it is, and a marked entry stays marked. -/
structure Marks (visit : List α → α → α × Bool) (view : α → β)
    (unmarked : β → Bool) : Prop where
  congr : ∀ values values' a a', values.map view = values'.map view →
    view a = view a' → (visit values a).2 = (visit values' a').2
  quiet : ∀ values a, (visit values a).2 = false →
    view (visit values a).1 = view a
  before : ∀ values a, (visit values a).2 = true → unmarked (view a) = true
  after : ∀ values a, (visit values a).2 = true →
    unmarked (view (visit values a).1) = false

/-- No visit would mark an entry. -/
def Settled (visit : List α → α → α × Bool) (values : List α) : Prop :=
  ∀ a ∈ values, (visit values a).2 = false

section Marks

variable {visit : List α → α → α × Bool} {view : α → β} {unmarked : β → Bool}
  {values values' : List α}

def unmarkedCount (view : α → β) (unmarked : β → Bool) (values : List α) : Nat :=
  values.countP fun a => unmarked (view a)

theorem Settled.of_view (hmarks : Marks visit view unmarked)
    (hsettled : Settled visit values) (hview : values'.map view = values.map view) :
    Settled visit values' := by
  intro a' ha'
  obtain ⟨a, ha, hsame⟩ : ∃ a ∈ values, view a = view a' := by
    have hmem := List.mem_map_of_mem (f := view) ha'
    rw [hview] at hmem
    obtain ⟨a, ha, hsame⟩ := List.mem_map.mp hmem
    exact ⟨a, ha, hsame⟩
  rw [hmarks.congr values' values a' a hview hsame.symm]
  exact hsettled a ha

/-- A pass that marks nothing leaves the view as it is, and nothing to mark. -/
theorem view_of_quiet (hmarks : Marks visit view unmarked)
    (hquiet : (pass visit values).2 = false) :
    (pass visit values).1.map view = values.map view ∧ Settled visit values := by
  have hall : (pass visit values).2 = false →
      (pass visit values).1.map view = values.map view ∧
        ∀ i < values.length, ∀ a, values[i]? = some a →
          (visit values a).2 = false := by
    refine visits_induction (fun n current => current.2 = false →
      current.1.map view = values.map view ∧
        ∀ i < n, ∀ a, values[i]? = some a → (visit values a).2 = false)
      (fun _ => ⟨rfl, fun _ h => absurd h (Nat.not_lt_zero _)⟩) ?_
    intro i current hi hcurrent hquiet
    unfold visitAt at hquiet ⊢
    have hget : current.1.map view = values.map view →
        current.1[i]?.map view = values[i]?.map view := by
      intro hview
      rw [← List.getElem?_map, hview, List.getElem?_map]
    split at hquiet
    · next hnone =>
        obtain ⟨hview, hbefore⟩ := hcurrent hquiet
        have hsame := hget hview
        rw [hnone, List.getElem?_eq_getElem hi] at hsame
        cases hsame
    · next a ha =>
        simp only [Bool.or_eq_false_iff] at hquiet
        obtain ⟨hview, hbefore⟩ := hcurrent hquiet.1
        have hsame := hget hview
        rw [ha, Option.map_some] at hsame
        refine ⟨?_, ?_⟩
        · rw [map_set_of_eq ha (hmarks.quiet _ _ hquiet.2), hview]
        · intro j hj b hb
          rcases Nat.lt_succ_iff_lt_or_eq.mp hj with hlt | rfl
          · exact hbefore j hlt b hb
          · rw [hb, Option.map_some, Option.some.injEq] at hsame
            rw [← hmarks.congr _ _ a b hview hsame]
            exact hquiet.2
  obtain ⟨hview, hsettled⟩ := hall hquiet
  refine ⟨hview, ?_⟩
  intro a ha
  obtain ⟨i, hi⟩ := List.mem_iff_getElem?.mp ha
  obtain ⟨hlt, -⟩ := List.getElem?_eq_some_iff.mp hi
  exact hsettled i hlt a hi

theorem unmarked_of_visit (hmarks : Marks visit view unmarked) {a : α} :
    unmarked (view (visit values a).1) = true → unmarked (view a) = true := by
  intro hafter
  cases hmarked : (visit values a).2 with
  | true => exact hmarks.before values a hmarked
  | false => rwa [hmarks.quiet values a hmarked] at hafter

/-- The entries left to mark; a pass that marks leaves fewer. -/
theorem unmarkedCount_pass (hmarks : Marks visit view unmarked) :
    unmarkedCount view unmarked (pass visit values).1 +
        (pass visit values).2.toNat ≤
      unmarkedCount view unmarked values := by
  refine visits_induction (fun _ current =>
    unmarkedCount view unmarked current.1 + current.2.toNat ≤
      unmarkedCount view unmarked values) (Nat.le_refl _) ?_
  intro i current _ hcurrent
  unfold visitAt
  split
  · exact hcurrent
  · next a ha =>
      have hle : unmarkedCount view unmarked
          (current.1.set i (visit current.1 a).1) ≤
            unmarkedCount view unmarked current.1 :=
        countP_set_le ha fun h => unmarked_of_visit hmarks h
      by_cases hmarked : (visit current.1 a).2 = true
      · have hlt : unmarkedCount view unmarked
            (current.1.set i (visit current.1 a).1) <
              unmarkedCount view unmarked current.1 := by
          obtain ⟨hlt, rfl⟩ := List.getElem?_eq_some_iff.mp ha
          have hbefore := hmarks.before _ _ hmarked
          have hafter := hmarks.after _ _ hmarked
          have hpos : 0 < unmarkedCount view unmarked current.1 :=
            List.countP_pos_iff.mpr ⟨_, List.getElem_mem hlt, hbefore⟩
          unfold unmarkedCount at hpos ⊢
          rw [List.countP_set hlt, if_pos hbefore, if_neg (by simp [hafter])]
          omega
        have hone : (current.2 || (visit current.1 a).2).toNat ≤ 1 :=
          Bool.toNat_le _
        dsimp only
        omega
      · dsimp only
        rw [Bool.eq_false_of_not_eq_true hmarked, Bool.or_false]
        omega

/-- As many passes as there are entries to mark leave nothing to mark. -/
theorem settled_passes (hmarks : Marks visit view unmarked) {bound : Nat}
    (hbound : unmarkedCount view unmarked values ≤ bound) :
    Settled visit (passes visit bound values) := by
  induction bound generalizing values with
  | zero =>
      intro a ha
      by_contra hmarked
      have hbefore := hmarks.before _ _ (Bool.not_eq_false _ ▸ hmarked)
      have hpos : 0 < unmarkedCount view unmarked values :=
        List.countP_pos_iff.mpr ⟨a, ha, hbefore⟩
      omega
  | succ bound ih =>
      have hcount := @unmarkedCount_pass _ _ visit view unmarked values hmarks
      unfold passes
      split
      · next hchanged =>
          rw [hchanged, Bool.toNat_true] at hcount
          exact ih (by omega)
      · next hquiet =>
          obtain ⟨hview, hsettled⟩ :=
            view_of_quiet hmarks (Bool.eq_false_of_not_eq_true hquiet)
          exact hsettled.of_view hmarks hview

/-- Further passes leave the view of a settled list as it is. -/
theorem quiet_of_settled (hmarks : Marks visit view unmarked)
    (hsettled : Settled visit values) :
    (pass visit values).2 = false ∧
      (pass visit values).1.map view = values.map view := by
  refine visits_induction (fun _ current => current.2 = false ∧
    current.1.map view = values.map view) ⟨rfl, rfl⟩ ?_
  rintro i current _ ⟨hquiet, hview⟩
  unfold visitAt
  split
  · exact ⟨hquiet, hview⟩
  · next a ha =>
      have hunmarked : (visit current.1 a).2 = false :=
        hsettled.of_view hmarks hview a (List.mem_of_getElem? ha)
      refine ⟨?_, ?_⟩
      · rw [hquiet, hunmarked]
        rfl
      · rw [map_set_of_eq ha (hmarks.quiet _ _ hunmarked), hview]

theorem view_passes_of_settled (hmarks : Marks visit view unmarked)
    (hsettled : Settled visit values) (bound : Nat) :
    (passes visit bound values).map view = values.map view := by
  cases bound with
  | zero => rfl
  | succ bound =>
      obtain ⟨hquiet, hview⟩ := quiet_of_settled hmarks hsettled
      unfold passes
      rw [hquiet, if_neg Bool.false_ne_true]
      exact hview

/-- Passes beyond those that are enough change nothing of the view. -/
theorem view_passes_add (hmarks : Marks visit view unmarked) {bound : Nat}
    (hbound : unmarkedCount view unmarked values ≤ bound) (more : Nat) :
    (passes visit (bound + more) values).map view =
      (passes visit bound values).map view := by
  induction bound generalizing values with
  | zero =>
      rw [Nat.zero_add]
      exact view_passes_of_settled hmarks (settled_passes hmarks hbound) more
  | succ bound ih =>
      have hcount := @unmarkedCount_pass _ _ visit view unmarked values hmarks
      rw [Nat.succ_add]
      unfold passes
      split
      · next hchanged =>
          rw [hchanged, Bool.toNat_true] at hcount
          exact ih (by omega)
      · rfl

end Marks

end Peritus.Passes
