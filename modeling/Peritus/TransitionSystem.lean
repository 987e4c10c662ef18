import Mathlib

/-!
Labelled transition systems and their finite runs.  Nothing here depends on a
particular machine: a reducer is used through its step relation, and the rules
below turn what one step preserves into what a whole run preserves.
-/

namespace Peritus.TransitionSystem

variable {σ α : Type*}

/-- A finite run of a labelled step relation. -/
inductive Run (step : σ → α → σ → Prop) : σ → List α → σ → Prop
  | nil (s : σ) : Run step s [] s
  | cons {s m t : σ} {a : α} {as : List α} :
      step s a m → Run step m as t → Run step s (a :: as) t

variable {step : σ → α → σ → Prop}

theorem Run.append {s m t : σ} {as bs : List α}
    (hfirst : Run step s as m) (hsecond : Run step m bs t) :
    Run step s (as ++ bs) t := by
  induction hfirst with
  | nil => exact hsecond
  | cons hstep _ ih => exact .cons hstep (ih hsecond)

theorem Run.snoc {s m t : σ} {as : List α} {a : α}
    (hrun : Run step s as m) (hstep : step m a t) :
    Run step s (as ++ [a]) t :=
  hrun.append (.cons hstep (.nil t))

theorem Run.exists_of_append {s t : σ} {as bs : List α}
    (hrun : Run step s (as ++ bs) t) :
    ∃ m, Run step s as m ∧ Run step m bs t := by
  induction as generalizing s with
  | nil => exact ⟨s, .nil s, hrun⟩
  | cons a as ih =>
      rcases hrun with _ | ⟨hstep, hrest⟩
      obtain ⟨m, hleft, hright⟩ := ih hrest
      exact ⟨m, .cons hstep hleft, hright⟩

/-- The invariant rule: what every step preserves, every run preserves. -/
theorem Run.invariant {inv : σ → Prop}
    (hstep : ∀ s a t, inv s → step s a t → inv t)
    {s t : σ} {as : List α} (hrun : Run step s as t) (hs : inv s) : inv t := by
  induction hrun with
  | nil => exact hs
  | cons h _ ih => exact ih (hstep _ _ _ hs h)

/-- The invariant rule for a relation between the two ends of a run. -/
theorem Run.relates {rel : σ → σ → Prop}
    (hrefl : ∀ s, rel s s) (htrans : ∀ s m t, rel s m → rel m t → rel s t)
    (hstep : ∀ s a t, step s a t → rel s t)
    {s t : σ} {as : List α} (hrun : Run step s as t) : rel s t := by
  induction hrun with
  | nil => exact hrefl _
  | cons h _ ih => exact htrans _ _ _ (hstep _ _ _ h) ih

/-- The rule for an obligation: what every step keeps or discharges, a run that
ends without it has discharged. -/
theorem Run.keeps_or_emits {inv kept : σ → Prop} {emits : α → Prop}
    (hinv : ∀ s a t, inv s → step s a t → inv t)
    (hstep : ∀ s a t, inv s → kept s → step s a t → kept t ∨ emits a)
    {s t : σ} {as : List α} (hrun : Run step s as t) (hs : inv s)
    (hkept : kept s) : kept t ∨ ∃ a ∈ as, emits a := by
  induction hrun with
  | nil => exact .inl hkept
  | cons h _ ih =>
      rcases hstep _ _ _ hs hkept h with hkept | hemits
      · rcases ih (hinv _ _ _ hs h) hkept with hkept | ⟨a, hmem, hemits⟩
        · exact .inl hkept
        · exact .inr ⟨a, List.mem_cons_of_mem _ hmem, hemits⟩
      · exact .inr ⟨_, List.mem_cons_self, hemits⟩

/-- The invariant rule with the log of the run. -/
theorem Run.log_invariant {inv : List α → σ → Prop}
    (hstep : ∀ log s a t, inv log s → step s a t → inv (log ++ [a]) t)
    {s t : σ} {log as : List α} (hrun : Run step s as t) (hs : inv log s) :
    inv (log ++ as) t := by
  induction hrun generalizing log with
  | nil =>
      rw [List.append_nil]
      exact hs
  | cons h _ ih =>
      have hmid := ih (hstep _ _ _ _ hs h)
      rw [List.append_assoc] at hmid
      exact hmid

/-- The counting rule: a rank that no step raises, and that a counted step
lowers, bounds how often a run takes one. -/
theorem Run.countP_le {inv : σ → Prop} {counted : α → Bool}
    (rank : σ → Nat) (ok : α → Prop) (hinv : ∀ s a t, inv s → step s a t → inv t)
    (hstep : ∀ s a t, inv s → ok a → step s a t →
      rank t + (if counted a then 1 else 0) ≤ rank s)
    {s t : σ} {as : List α} (hrun : Run step s as t) (hs : inv s)
    (hok : ∀ a ∈ as, ok a) : rank t + as.countP counted ≤ rank s := by
  induction hrun with
  | nil => exact Nat.le_refl _
  | @cons s m t a as h _ ih =>
      have hfirst := hstep s a m hs (hok a List.mem_cons_self) h
      have hrest := ih (hinv s a m hs h)
        fun b hb => hok b (List.mem_cons_of_mem a hb)
      rw [List.countP_cons]
      omega

/-- The states a run can reach from an initial state. -/
def Reachable (init : σ → Prop) (step : σ → α → σ → Prop) (t : σ) : Prop :=
  ∃ s as, init s ∧ Run step s as t

theorem Reachable.invariant {init inv : σ → Prop}
    (hinit : ∀ s, init s → inv s)
    (hstep : ∀ s a t, inv s → step s a t → inv t)
    {t : σ} (hreach : Reachable init step t) : inv t := by
  obtain ⟨s, as, hs, hrun⟩ := hreach
  exact hrun.invariant hstep (hinit s hs)

theorem Reachable.snoc {init : σ → Prop} {s t : σ} {a : α}
    (hreach : Reachable init step s) (hstep : step s a t) :
    Reachable init step t := by
  obtain ⟨s₀, as, hs₀, hrun⟩ := hreach
  exact ⟨s₀, as ++ [a], hs₀, hrun.snoc hstep⟩

end Peritus.TransitionSystem
