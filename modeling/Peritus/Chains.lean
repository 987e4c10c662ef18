import Mathlib

/-!
Chains of pointers: every item points to at most one other, a chain is followed
until it points nowhere, and loose ends are tied to another chain.
-/

namespace Peritus.Chains

variable {κ : Type*}

/-- `b` is reached from `a` by following pointers. -/
def Follows (next : κ → Option κ) : κ → κ → Prop :=
  Relation.ReflTransGen fun a b => next a = some b

/-- The pointers from `a` lead to `b`, which points nowhere. -/
structure Ends (next : κ → Option κ) (a b : κ) : Prop where
  follows : Follows next a b
  last : next b = none

/-- The items of `loose` point to `target`. -/
def redirect [DecidableEq κ] (next : κ → Option κ) (loose : List κ) (target : κ) :
    κ → Option κ :=
  fun a => if a ∈ loose then some target else next a

section Chains

variable {next : κ → Option κ} {a b c : κ}

theorem ends_refl (hlast : next a = none) : Ends next a a :=
  ⟨.refl, hlast⟩

theorem ends_of_pointer (hpointer : next a = some b) (hends : Ends next b c) :
    Ends next a c :=
  ⟨.head hpointer hends.follows, hends.last⟩

theorem eq_of_follows_last (hlast : next a = none) (hfollows : Follows next a b) :
    b = a := by
  rcases Relation.ReflTransGen.cases_head hfollows with h | ⟨c, hpointer, -⟩
  · exact h.symm
  · rw [hlast] at hpointer
    cases hpointer

/-- Every item on the way ends where the chain ends. -/
theorem Ends.of_follows (hends : Ends next a c) (hfollows : Follows next a b) :
    Ends next b c := by
  have hunique : Relator.RightUnique fun a b => next a = some b := by
    intro a b b' hb hb'
    exact Option.some.inj (hb.symm.trans hb')
  rcases Relation.ReflTransGen.total_of_right_unique hunique hends.follows
    hfollows with h | h
  · rw [eq_of_follows_last hends.last h]
    exact ends_refl hends.last
  · exact ⟨h, hends.last⟩

theorem Ends.unique (hends : Ends next a b) (hends' : Ends next a c) : c = b :=
  eq_of_follows_last hends.last (hends'.of_follows hends.follows).follows

/-- A chain that ends does not come back. -/
theorem Ends.not_cycle (hends : Ends next a b) :
    ¬ Relation.TransGen (fun a b => next a = some b) a a := by
  obtain ⟨hfollows, hlast⟩ := hends
  induction hfollows using Relation.ReflTransGen.head_induction_on with
  | refl =>
      intro hcycle
      obtain ⟨c, hpointer, -⟩ := Relation.TransGen.head'_iff.mp hcycle
      rw [hlast] at hpointer
      cases hpointer
  | head hpointer _ ih =>
      intro hcycle
      obtain ⟨c, hpointer', hback⟩ := Relation.TransGen.head'_iff.mp hcycle
      rw [hpointer, Option.some.injEq] at hpointer'
      subst hpointer'
      exact ih (Relation.TransGen.tail' hback hpointer)

section Redirect

variable [DecidableEq κ] {loose : List κ} {target : κ}

theorem redirect_of_mem (hmem : a ∈ loose) :
    redirect next loose target a = some target :=
  if_pos hmem

theorem redirect_of_not_mem (hmem : a ∉ loose) :
    redirect next loose target a = next a :=
  if_neg hmem

/-- Tying loose ends to a target that points nowhere leaves every chain with an
end: its old one, or the target. -/
theorem Ends.redirect (hends : Ends next a b) (hloose : ∀ c ∈ loose, next c = none)
    (hself : target ∉ loose) (htarget : next target = none) :
    Ends (redirect next loose target) a (if b ∈ loose then target else b) := by
  obtain ⟨hfollows, hlast⟩ := hends
  induction hfollows using Relation.ReflTransGen.head_induction_on with
  | refl =>
      by_cases hmem : b ∈ loose
      · rw [if_pos hmem]
        refine ends_of_pointer (redirect_of_mem hmem) (ends_refl ?_)
        rw [redirect_of_not_mem hself, htarget]
      · rw [if_neg hmem]
        refine ends_refl ?_
        rw [redirect_of_not_mem hmem, hlast]
  | @head c d hpointer _ ih =>
      have hkept : c ∉ loose := by
        intro hmem
        rw [hloose c hmem] at hpointer
        cases hpointer
      refine ends_of_pointer ?_ ih
      rw [redirect_of_not_mem hkept, hpointer]

end Redirect

end Chains

end Peritus.Chains
