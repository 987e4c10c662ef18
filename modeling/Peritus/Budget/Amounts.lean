import Peritus.Checked
import Peritus.Types

/-!
Budget amounts: five `u64` dimensions with checked, dimension-wise arithmetic.
Everything after this module speaks of an amount through `get`.
-/

namespace Peritus.Budget.Amounts

open Peritus.Types Checked

@[ext]
structure ResourceQuantity where
  get : Nat
  bound : get ≤ u64Max

instance : DecidableEq ResourceQuantity := fun _ _ =>
  decidable_of_iff _ ResourceQuantity.ext_iff.symm

inductive BudgetDimension
  | modelTokens
  | providerCostMicrounits
  | activeEffectMilliseconds
  | attempts
  | retries
deriving DecidableEq

structure BudgetDimensionSet where
  modelTokens : Bool
  providerCost : Bool
  activeEffect : Bool
  attempts : Bool
  retries : Bool
deriving DecidableEq

def BudgetDimensionSet.empty : BudgetDimensionSet :=
  ⟨false, false, false, false, false⟩

inductive ArithmeticKind
  | overflow
  | underflow
deriving DecidableEq

structure AmountArithmeticError where
  kind : ArithmeticKind
  dimension : BudgetDimension
deriving DecidableEq

@[ext]
structure BudgetAmounts where
  modelTokens : ResourceQuantity
  providerCostMicrounits : ResourceQuantity
  activeEffectMilliseconds : ResourceQuantity
  attempts : ResourceQuantity
  retries : ResourceQuantity
deriving DecidableEq

def addQuantity (left right : ResourceQuantity) (dimension : BudgetDimension) :
    Except AmountArithmeticError ResourceQuantity :=
  if h : left.get + right.get ≤ u64Max then .ok ⟨left.get + right.get, h⟩
  else .error ⟨.overflow, dimension⟩

def subQuantity (left right : ResourceQuantity) (dimension : BudgetDimension) :
    Except AmountArithmeticError ResourceQuantity :=
  if right.get ≤ left.get then
    .ok ⟨left.get - right.get, (Nat.sub_le _ _).trans left.bound⟩
  else .error ⟨.underflow, dimension⟩

namespace BudgetAmounts

def zero : BudgetAmounts :=
  ⟨⟨0, Nat.zero_le _⟩, ⟨0, Nat.zero_le _⟩, ⟨0, Nat.zero_le _⟩, ⟨0, Nat.zero_le _⟩,
    ⟨0, Nat.zero_le _⟩⟩

def quantity (amounts : BudgetAmounts) : BudgetDimension → ResourceQuantity
  | .modelTokens => amounts.modelTokens
  | .providerCostMicrounits => amounts.providerCostMicrounits
  | .activeEffectMilliseconds => amounts.activeEffectMilliseconds
  | .attempts => amounts.attempts
  | .retries => amounts.retries

/-- The units of one dimension. -/
def get (amounts : BudgetAmounts) (dimension : BudgetDimension) : Nat :=
  (amounts.quantity dimension).get

def isZero (amounts : BudgetAmounts) : Bool :=
  decide (amounts.modelTokens.get = 0)
    && decide (amounts.providerCostMicrounits.get = 0)
    && decide (amounts.activeEffectMilliseconds.get = 0)
    && decide (amounts.attempts.get = 0)
    && decide (amounts.retries.get = 0)

def fitsWithin (amounts ceiling : BudgetAmounts) : Bool :=
  decide (amounts.modelTokens.get ≤ ceiling.modelTokens.get)
    && decide (amounts.providerCostMicrounits.get ≤
        ceiling.providerCostMicrounits.get)
    && decide (amounts.activeEffectMilliseconds.get ≤
        ceiling.activeEffectMilliseconds.get)
    && decide (amounts.attempts.get ≤ ceiling.attempts.get)
    && decide (amounts.retries.get ≤ ceiling.retries.get)

def exceedingDimensions (amounts ceiling : BudgetAmounts) :
    BudgetDimensionSet :=
  { modelTokens := decide (amounts.modelTokens.get > ceiling.modelTokens.get)
    providerCost := decide (amounts.providerCostMicrounits.get >
      ceiling.providerCostMicrounits.get)
    activeEffect := decide (amounts.activeEffectMilliseconds.get >
      ceiling.activeEffectMilliseconds.get)
    attempts := decide (amounts.attempts.get > ceiling.attempts.get)
    retries := decide (amounts.retries.get > ceiling.retries.get) }

def checkedAdd (left right : BudgetAmounts) :
    Except AmountArithmeticError BudgetAmounts := do
  let modelTokens ←
    addQuantity left.modelTokens right.modelTokens .modelTokens
  let providerCostMicrounits ← addQuantity left.providerCostMicrounits
    right.providerCostMicrounits .providerCostMicrounits
  let activeEffectMilliseconds ← addQuantity left.activeEffectMilliseconds
    right.activeEffectMilliseconds .activeEffectMilliseconds
  let attempts ← addQuantity left.attempts right.attempts .attempts
  let retries ← addQuantity left.retries right.retries .retries
  return ⟨modelTokens, providerCostMicrounits, activeEffectMilliseconds,
    attempts, retries⟩

def checkedSub (left right : BudgetAmounts) :
    Except AmountArithmeticError BudgetAmounts := do
  let modelTokens ←
    subQuantity left.modelTokens right.modelTokens .modelTokens
  let providerCostMicrounits ← subQuantity left.providerCostMicrounits
    right.providerCostMicrounits .providerCostMicrounits
  let activeEffectMilliseconds ← subQuantity left.activeEffectMilliseconds
    right.activeEffectMilliseconds .activeEffectMilliseconds
  let attempts ← subQuantity left.attempts right.attempts .attempts
  let retries ← subQuantity left.retries right.retries .retries
  return ⟨modelTokens, providerCostMicrounits, activeEffectMilliseconds,
    attempts, retries⟩

@[simp] theorem get_zero (dimension : BudgetDimension) :
    zero.get dimension = 0 := by
  cases dimension <;> rfl

theorem get_le (amounts : BudgetAmounts) (dimension : BudgetDimension) :
    amounts.get dimension ≤ u64Max :=
  (amounts.quantity dimension).bound

theorem ext_get {left right : BudgetAmounts}
    (h : ∀ dimension, left.get dimension = right.get dimension) :
    left = right := by
  apply BudgetAmounts.ext <;> apply ResourceQuantity.ext
  · exact h .modelTokens
  · exact h .providerCostMicrounits
  · exact h .activeEffectMilliseconds
  · exact h .attempts
  · exact h .retries

theorem forall_dimension {p : BudgetDimension → Prop} :
    (∀ dimension, p dimension) ↔
      p .modelTokens ∧ p .providerCostMicrounits ∧
        p .activeEffectMilliseconds ∧ p .attempts ∧ p .retries := by
  constructor
  · intro h
    exact ⟨h _, h _, h _, h _, h _⟩
  · rintro ⟨h₁, h₂, h₃, h₄, h₅⟩ dimension
    cases dimension <;> assumption

theorem isZero_iff {amounts : BudgetAmounts} :
    amounts.isZero = true ↔ ∀ dimension, amounts.get dimension = 0 := by
  rw [forall_dimension]
  simp [isZero, get, quantity, and_assoc]

theorem fitsWithin_iff {amounts ceiling : BudgetAmounts} :
    amounts.fitsWithin ceiling = true ↔
      ∀ dimension, amounts.get dimension ≤ ceiling.get dimension := by
  rw [forall_dimension]
  simp [fitsWithin, get, quantity, and_assoc]

theorem addQuantity_eq_ok_iff {left right sum : ResourceQuantity}
    {dimension : BudgetDimension} :
    addQuantity left right dimension = .ok sum ↔
      sum.get = left.get + right.get := by
  unfold addQuantity
  have hbound := sum.bound
  split
  · rw [Except.ok.injEq]
    exact ⟨fun h => h ▸ rfl, fun h => ResourceQuantity.ext h.symm⟩
  · constructor
    · intro h
      cases h
    · intro h
      omega

theorem subQuantity_eq_ok_iff {left right difference : ResourceQuantity}
    {dimension : BudgetDimension} :
    subQuantity left right dimension = .ok difference ↔
      left.get = right.get + difference.get := by
  unfold subQuantity
  split
  · rw [Except.ok.injEq]
    constructor
    · rintro rfl
      dsimp only
      omega
    · intro h
      apply ResourceQuantity.ext
      dsimp only
      omega
  · constructor
    · intro h
      cases h
    · intro h
      omega

theorem checkedAdd_eq_ok_iff {left right sum : BudgetAmounts} :
    checkedAdd left right = .ok sum ↔
      ∀ dimension,
        sum.get dimension = left.get dimension + right.get dimension := by
  rw [forall_dimension]
  simp only [checkedAdd, bind_eq_ok_iff, addQuantity_eq_ok_iff, pure_eq_ok_iff]
  constructor
  · rintro ⟨_, h₁, _, h₂, _, h₃, _, h₄, _, h₅, rfl⟩
    exact ⟨h₁, h₂, h₃, h₄, h₅⟩
  · rintro ⟨h₁, h₂, h₃, h₄, h₅⟩
    exact ⟨_, h₁, _, h₂, _, h₃, _, h₄, _, h₅, rfl⟩

theorem checkedSub_eq_ok_iff {left right difference : BudgetAmounts} :
    checkedSub left right = .ok difference ↔
      ∀ dimension, left.get dimension =
        right.get dimension + difference.get dimension := by
  rw [forall_dimension]
  simp only [checkedSub, bind_eq_ok_iff, subQuantity_eq_ok_iff, pure_eq_ok_iff]
  constructor
  · rintro ⟨_, h₁, _, h₂, _, h₃, _, h₄, _, h₅, rfl⟩
    exact ⟨h₁, h₂, h₃, h₄, h₅⟩
  · rintro ⟨h₁, h₂, h₃, h₄, h₅⟩
    exact ⟨_, h₁, _, h₂, _, h₃, _, h₄, _, h₅, rfl⟩

theorem exists_get {f : BudgetDimension → Nat} (h : ∀ d, f d ≤ u64Max) :
    ∃ amounts : BudgetAmounts, ∀ d, amounts.get d = f d :=
  ⟨⟨⟨_, h .modelTokens⟩, ⟨_, h .providerCostMicrounits⟩,
    ⟨_, h .activeEffectMilliseconds⟩, ⟨_, h .attempts⟩, ⟨_, h .retries⟩⟩,
    fun d => by cases d <;> rfl⟩

theorem exists_checkedAdd (left right : BudgetAmounts)
    (h : ∀ dimension,
      left.get dimension + right.get dimension ≤ u64Max) :
    ∃ sum, checkedAdd left right = .ok sum := by
  obtain ⟨sum, hsum⟩ := exists_get h
  exact ⟨sum, checkedAdd_eq_ok_iff.mpr hsum⟩

theorem exists_checkedSub (left right : BudgetAmounts)
    (h : ∀ dimension, right.get dimension ≤ left.get dimension) :
    ∃ difference, checkedSub left right = .ok difference := by
  have hbound : ∀ d, left.get d - right.get d ≤ u64Max := fun d =>
    (Nat.sub_le _ _).trans (left.get_le d)
  obtain ⟨difference, hdifference⟩ := exists_get hbound
  refine ⟨difference, checkedSub_eq_ok_iff.mpr fun d => ?_⟩
  have := h d
  have := hdifference d
  omega

/-- Checked addition fails only by overflow of one dimension. -/
theorem checkedAdd_error {left right : BudgetAmounts}
    {error : AmountArithmeticError} (h : checkedAdd left right = .error error) :
    error.kind = .overflow := by
  have hquantity : ∀ {l r : ResourceQuantity} {d : BudgetDimension}
      {e : AmountArithmeticError},
      addQuantity l r d = .error e → e.kind = .overflow := by
    intro l r d e he
    unfold addQuantity at he
    split at he <;> cases he
    rfl
  unfold checkedAdd at h
  iterate 5
    rcases bind_eq_error h with h | ⟨_, -, h⟩
    · exact hquantity h
  cases h

end BudgetAmounts

structure BudgetLimits where
  amounts : BudgetAmounts
deriving DecidableEq

end Peritus.Budget.Amounts
