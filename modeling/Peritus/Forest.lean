import Mathlib

/-!
Trees given by parent pointers.  Climbing from a node reaches a chain of
ancestors; a rank that decreases towards the parent keeps the chain from coming
back, so at most one child of a node lies on it.
-/

namespace Peritus.Forest

open Relation

variable {ι : Type*}

/-- `y` is `x` or one of the nodes above it. -/
def Ancestor (parent : ι → Option ι) : ι → ι → Prop :=
  ReflTransGen fun x y => parent x = some y

/-- Parents come before their children. -/
def Ranked (parent : ι → Option ι) (rank : ι → ℕ) : Prop :=
  ∀ x y, parent x = some y → rank y < rank x

variable {parent : ι → Option ι} {rank : ι → ℕ} {x y z p : ι}

theorem Ancestor.refl (parent : ι → Option ι) (x : ι) : Ancestor parent x x :=
  ReflTransGen.refl

theorem ancestor_of_parent (hparent : parent x = some p)
    (hancestor : Ancestor parent p y) : Ancestor parent x y :=
  ReflTransGen.head hparent hancestor

theorem Ancestor.above (hancestor : Ancestor parent x y)
    (hparent : parent y = some p) : Ancestor parent x p :=
  ReflTransGen.tail hancestor hparent

theorem ancestor_iff_of_parent (hparent : parent x = some p) :
    Ancestor parent x y ↔ x = y ∨ Ancestor parent p y := by
  unfold Ancestor
  rw [ReflTransGen.cases_head_iff, hparent]
  simp only [Option.some.injEq, exists_eq_left']

theorem ancestor_iff_of_root (hroot : parent x = none) :
    Ancestor parent x y ↔ x = y := by
  unfold Ancestor
  rw [ReflTransGen.cases_head_iff, hroot]
  simp

theorem Ancestor.rank_le (hranked : Ranked parent rank)
    (hancestor : Ancestor parent x y) : rank y ≤ rank x := by
  induction hancestor with
  | refl => exact Nat.le_refl _
  | tail _ hparent ih => exact Nat.le_trans (Nat.le_of_lt (hranked _ _ hparent)) ih

/-- Nothing above a node's parent is the node itself. -/
theorem ne_of_ancestor_parent (hranked : Ranked parent rank)
    (hparent : parent x = some p) (hancestor : Ancestor parent p y) :
    y ≠ x := by
  rintro rfl
  exact Nat.not_le_of_lt (hranked _ _ hparent) (hancestor.rank_le hranked)

theorem ancestor_comparable (hy : Ancestor parent x y)
    (hz : Ancestor parent x z) :
    Ancestor parent y z ∨ Ancestor parent z y :=
  ReflTransGen.total_of_right_unique
    (fun _ _ _ h₁ h₂ => Option.some.inj (h₁.symm.trans h₂)) hy hz

/-- One chain passes through at most one child of a node. -/
theorem sibling_eq (hranked : Ranked parent rank) (hy : Ancestor parent x y)
    (hz : Ancestor parent x z) (hyp : parent y = some p)
    (hzp : parent z = some p) : y = z := by
  wlog hyz : Ancestor parent y z generalizing y z
  · exact (this hz hy hzp hyp
      ((ancestor_comparable hy hz).resolve_left hyz)).symm
  rcases (ancestor_iff_of_parent hyp).mp hyz with rfl | hpz
  · rfl
  · exact absurd rfl (ne_of_ancestor_parent hranked hzp hpz)

/-- A node strictly above `x` is reached through one of its children. -/
theorem exists_child_of_ancestor (hancestor : Ancestor parent x p)
    (hne : x ≠ p) : ∃ c, Ancestor parent x c ∧ parent c = some p := by
  rcases ReflTransGen.cases_tail hancestor with rfl | ⟨c, hc, hparent⟩
  · exact absurd rfl hne
  · exact ⟨c, hc, hparent⟩

theorem ancestor_ne_of_child (hranked : Ranked parent rank)
    (hancestor : Ancestor parent x y) (hparent : parent y = some p) :
    p ≠ x := by
  rintro rfl
  exact Nat.not_le_of_lt (hranked _ _ hparent) (hancestor.rank_le hranked)

/-- Pointers that agree on a set closed under parents have the same chains from
inside it. -/
theorem ancestor_congr {parent' : ι → Option ι} (inside : ι → Prop)
    (hclosed : ∀ a b, inside a → parent a = some b → inside b)
    (hagree : ∀ a, inside a → parent' a = parent a) (hx : inside x) :
    Ancestor parent' x y ↔ Ancestor parent x y := by
  constructor
  · intro hancestor
    have hboth : Ancestor parent x y ∧ inside y := by
      induction hancestor with
      | refl => exact ⟨.refl parent x, hx⟩
      | tail _ hparent ih =>
          rw [hagree _ ih.2] at hparent
          exact ⟨ih.1.above hparent, hclosed _ _ ih.2 hparent⟩
    exact hboth.1
  · intro hancestor
    have hboth : Ancestor parent' x y ∧ inside y := by
      induction hancestor with
      | refl => exact ⟨.refl parent' x, hx⟩
      | tail _ hparent ih =>
          exact ⟨ih.1.above ((hagree _ ih.2).trans hparent),
            hclosed _ _ ih.2 hparent⟩
    exact hboth.1

theorem Ancestor.inside (inside : ι → Prop)
    (hclosed : ∀ a b, inside a → parent a = some b → inside b)
    (hancestor : Ancestor parent x y) (hx : inside x) : inside y := by
  induction hancestor with
  | refl => exact hx
  | tail _ hparent ih => exact hclosed _ _ ih hparent

end Peritus.Forest
