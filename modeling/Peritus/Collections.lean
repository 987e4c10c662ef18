import Mathlib

/-!
Linear lookups, in-place updates and totals of lists: what a `while` scan over a
vector finds, and what an indexed assignment changes.
-/

namespace Peritus.Collections

universe u

variable {α : Type u}

/-- The first match of a scan, with its index. -/
def findIndexed (p : α → Bool) : List α → Option (Nat × α)
  | [] => none
  | a :: rest =>
      if p a then some (0, a)
      else (findIndexed p rest).map fun found => (found.1 + 1, found.2)

theorem findIndexed_eq_some {p : α → Bool} {values : List α} {i : Nat} {a : α}
    (h : findIndexed p values = some (i, a)) :
    values[i]? = some a ∧ p a = true ∧
      ∀ j < i, ∀ b, values[j]? = some b → p b = false := by
  induction values generalizing i with
  | nil => cases h
  | cons head rest ih =>
      unfold findIndexed at h
      split at h
      · rename_i hhead
        cases h
        exact ⟨rfl, hhead, fun j hj => absurd hj (Nat.not_lt_zero j)⟩
      · rename_i hhead
        obtain ⟨found, hfound, hpair⟩ := Option.map_eq_some_iff.mp h
        cases hpair
        obtain ⟨hget, hp, hbefore⟩ := ih hfound
        refine ⟨by simpa using hget, hp, fun j hj b hb => ?_⟩
        cases j with
        | zero =>
            cases hb
            exact Bool.eq_false_iff.mpr hhead
        | succ j => exact hbefore j (Nat.lt_of_succ_lt_succ hj) b (by simpa using hb)

theorem findIndexed_eq_none {p : α → Bool} {values : List α} :
    findIndexed p values = none ↔ ∀ a ∈ values, p a = false := by
  induction values with
  | nil => simp [findIndexed]
  | cons head rest ih =>
      unfold findIndexed
      cases hhead : p head <;> simp [hhead, ih]

theorem findIndexed_mem {p : α → Bool} {values : List α} {i : Nat} {a : α}
    (h : findIndexed p values = some (i, a)) : a ∈ values :=
  List.mem_of_getElem? (findIndexed_eq_some h).1

theorem mem_set {values : List α} {i : Nat} {a b : α}
    (h : b ∈ values.set i a) : b = a ∨ b ∈ values := by
  rcases List.mem_or_eq_of_mem_set h with hmem | heq
  · exact .inr hmem
  · exact .inl heq

theorem findIndexed_take {p : α → Bool} {values : List α} {limit i : Nat}
    {a : α} (h : findIndexed p (values.take limit) = some (i, a)) :
    i < limit ∧ values[i]? = some a ∧ p a = true := by
  obtain ⟨hget, hp, _⟩ := findIndexed_eq_some h
  rw [List.getElem?_take] at hget
  split at hget
  · rename_i hlimit
    exact ⟨hlimit, hget, hp⟩
  · cases hget

/-- With unique keys a scan by key finds every element. -/
theorem findIndexed_of_unique {κ : Type*} [DecidableEq κ] {key : α → κ}
    {values : List α} (hunique : (values.map key).Nodup) {i : Nat} {a : α}
    (hget : values[i]? = some a) :
    findIndexed (fun b => decide (key b = key a)) values = some (i, a) := by
  induction values generalizing i with
  | nil => cases hget
  | cons head rest ih =>
      rw [List.map_cons, List.nodup_cons] at hunique
      unfold findIndexed
      cases i with
      | zero =>
          cases hget
          simp
      | succ i =>
          have hrest : rest[i]? = some a := by simpa using hget
          have hne : key head ≠ key a := fun heq =>
            hunique.1 (heq ▸ List.mem_map_of_mem (List.mem_of_getElem? hrest))
          simp [hne, ih hunique.2 hrest]

/-- Keys are unique if no element repeats the key of an earlier one. -/
theorem nodup_map_iff_take {κ : Type*} {key : α → κ} {values : List α} :
    (values.map key).Nodup ↔
      ∀ i a, values[i]? = some a → ∀ b ∈ values.take i, key b ≠ key a := by
  rw [List.Nodup, List.pairwise_map, List.pairwise_iff_getElem]
  constructor
  · intro h i a hget b hb
    obtain ⟨hi, rfl⟩ := List.getElem?_eq_some_iff.mp hget
    obtain ⟨j, hj, rfl⟩ := List.mem_iff_getElem.mp hb
    rw [List.length_take] at hj
    rw [List.getElem_take]
    exact h j i (by omega) hi (by omega)
  · intro h i j hi hj hij
    refine h j _ (List.getElem?_eq_getElem hj) _ ?_
    exact List.mem_iff_getElem.mpr
      ⟨i, by rw [List.length_take]; omega, by rw [List.getElem_take]⟩

theorem eq_of_getElem?_of_unique {κ : Type*} {key : α → κ} {values : List α}
    (hunique : (values.map key).Nodup) {a b : α} (ha : a ∈ values)
    (hb : b ∈ values) (hkey : key a = key b) : a = b :=
  List.inj_on_of_nodup_map hunique ha hb hkey

/-- Replacing an element by one with the same image. -/
theorem map_set_of_eq {β : Type*} {g : α → β} {values : List α} {i : Nat}
    {a b : α} (hget : values[i]? = some a) (hg : g b = g a) :
    (values.set i b).map g = values.map g := by
  refine List.ext_getElem? fun j => ?_
  rw [List.getElem?_map, List.getElem?_set, List.getElem?_map]
  by_cases hij : i = j
  · subst hij
    obtain ⟨hi, -⟩ := List.getElem?_eq_some_iff.mp hget
    rw [if_pos rfl, if_pos hi, hget, Option.map_some, Option.map_some, hg]
  · rw [if_neg hij]

theorem countP_set_le {p : α → Bool} {values : List α} {i : Nat} {a b : α}
    (hget : values[i]? = some a) (hp : p b = true → p a = true) :
    (values.set i b).countP p ≤ values.countP p := by
  obtain ⟨hi, rfl⟩ := List.getElem?_eq_some_iff.mp hget
  rw [List.countP_set hi]
  by_cases hb : p b = true
  · have hpos : 0 < values.countP p :=
      List.countP_pos_iff.mpr ⟨_, List.getElem_mem hi, hp hb⟩
    rw [if_pos hb, if_pos (hp hb)]
    omega
  · rw [if_neg hb]
    omega

/-- The elements of a list with distinct keys after one was replaced. -/
theorem mem_set_iff_of_nodup {κ : Type*} {key : α → κ} {values : List α}
    (hunique : (values.map key).Nodup) {i : Nat} {a b row : α}
    (hget : values[i]? = some a) (hkey : key row = key a) :
    b ∈ values.set i row ↔ b = row ∨ b ∈ values ∧ key b ≠ key a := by
  obtain ⟨hi, rfl⟩ := List.getElem?_eq_some_iff.mp hget
  constructor
  · intro hb
    obtain ⟨j, hj, hjb⟩ := List.mem_iff_getElem?.mp hb |>.imp fun j h =>
      List.getElem?_eq_some_iff.mp h
    rw [List.getElem_set] at hjb
    by_cases hij : i = j
    · rw [if_pos hij] at hjb
      exact .inl hjb.symm
    · rw [if_neg hij] at hjb
      rw [List.length_set] at hj
      refine .inr ⟨hjb ▸ List.getElem_mem hj, ?_⟩
      intro hsame
      have hj' : j < (values.map key).length := by simpa using hj
      have hi' : i < (values.map key).length := by simpa using hi
      have hkeys : (values.map key)[i] = (values.map key)[j] := by
        rw [List.getElem_map, List.getElem_map, hjb, hsame]
      exact hij (hunique.getElem_inj_iff.mp hkeys)
  · rintro (rfl | ⟨hb, hne⟩)
    · exact List.mem_set hi _
    · obtain ⟨j, hj, rfl⟩ := List.mem_iff_getElem.mp hb
      refine List.mem_iff_getElem.mpr ⟨j, by simpa using hj, ?_⟩
      rw [List.getElem_set, if_neg]
      rintro rfl
      exact hne rfl

section Keys

variable {κ : Type*} [DecidableEq κ] {key : α → κ} {values : List α} {k : κ}

theorem findIndexed_key_eq_some {i : Nat} {a : α}
    (h : findIndexed (fun b => decide (key b = k)) values = some (i, a)) :
    values[i]? = some a ∧ a ∈ values ∧ key a = k := by
  obtain ⟨hget, hkey, -⟩ := findIndexed_eq_some h
  exact ⟨hget, List.mem_of_getElem? hget, of_decide_eq_true hkey⟩

theorem findIndexed_key_isNone_iff :
    (findIndexed (fun b => decide (key b = k)) values).isSome = false ↔
      ∀ a ∈ values, key a ≠ k := by
  rw [← Bool.not_eq_true, Option.isSome_iff_ne_none, not_not,
    findIndexed_eq_none]
  simp only [decide_eq_false_iff_not, ne_eq]

/-- With distinct keys a scan by key is membership. -/
theorem findIndexed_key_iff (hunique : (values.map key).Nodup) {a : α} :
    (∃ i, findIndexed (fun b => decide (key b = k)) values = some (i, a)) ↔
      a ∈ values ∧ key a = k := by
  constructor
  · rintro ⟨i, h⟩
    exact (findIndexed_key_eq_some h).2
  · rintro ⟨ha, rfl⟩
    obtain ⟨i, hi, rfl⟩ := List.mem_iff_getElem.mp ha
    exact ⟨i, findIndexed_of_unique hunique (List.getElem?_eq_getElem hi)⟩

end Keys

/-! ### Position-wise relations -/

section Forall₂

variable {β : Type*} {R : α → β → Prop} {values : List α} {values' : List β}

theorem forall₂_iff_getElem? :
    List.Forall₂ R values values' ↔ values.length = values'.length ∧
      ∀ (i : Nat) (a : α) (b : β), values[i]? = some a →
        values'[i]? = some b → R a b := by
  rw [List.forall₂_iff_get]
  refine and_congr_right fun hlength => ?_
  constructor
  · intro h i a b ha hb
    obtain ⟨hi, rfl⟩ := List.getElem?_eq_some_iff.mp ha
    obtain ⟨hi', rfl⟩ := List.getElem?_eq_some_iff.mp hb
    exact h i hi hi'
  · intro h i hi hi'
    exact h i _ _ (List.getElem?_eq_getElem hi) (List.getElem?_eq_getElem hi')

theorem forall₂_get_left (hrel : List.Forall₂ R values values') {i : Nat}
    {a : α} (ha : values[i]? = some a) :
    ∃ b, values'[i]? = some b ∧ R a b := by
  obtain ⟨hlength, hall⟩ := forall₂_iff_getElem?.mp hrel
  have hi := hlength ▸ (List.getElem?_eq_some_iff.mp ha).1
  exact ⟨_, List.getElem?_eq_getElem hi,
    hall i a _ ha (List.getElem?_eq_getElem hi)⟩

theorem forall₂_get_right (hrel : List.Forall₂ R values values') {i : Nat}
    {b : β} (hb : values'[i]? = some b) :
    ∃ a, values[i]? = some a ∧ R a b := by
  obtain ⟨hlength, hall⟩ := forall₂_iff_getElem?.mp hrel
  have hi := hlength ▸ (List.getElem?_eq_some_iff.mp hb).1
  exact ⟨_, List.getElem?_eq_getElem hi,
    hall i _ b (List.getElem?_eq_getElem hi) hb⟩

theorem forall₂_mem_right (hrel : List.Forall₂ R values values') {b : β}
    (hb : b ∈ values') : ∃ a ∈ values, R a b := by
  obtain ⟨i, hget⟩ := List.mem_iff_getElem?.mp hb
  obtain ⟨a, ha, hR⟩ := forall₂_get_right hrel hget
  exact ⟨a, List.mem_of_getElem? ha, hR⟩

theorem forall₂_mem_left (hrel : List.Forall₂ R values values') {a : α}
    (ha : a ∈ values) : ∃ b ∈ values', R a b := by
  obtain ⟨i, hget⟩ := List.mem_iff_getElem?.mp ha
  obtain ⟨b, hb, hR⟩ := forall₂_get_left hrel hget
  exact ⟨b, List.mem_of_getElem? hb, hR⟩

theorem map_eq_of_forall₂ {κ : Type*} {f : α → κ} {g : β → κ}
    (hrel : List.Forall₂ R values values') (h : ∀ a b, R a b → g b = f a) :
    values'.map g = values.map f := by
  induction hrel with
  | nil => rfl
  | cons hhead _ ih => rw [List.map_cons, List.map_cons, h _ _ hhead, ih]

theorem findIndexed_of_forall₂ {p : α → Bool} {q : β → Bool}
    (hrel : List.Forall₂ R values values') (h : ∀ a b, R a b → q b = p a)
    {i : Nat} {a : α} (hfind : findIndexed p values = some (i, a)) :
    ∃ b, findIndexed q values' = some (i, b) ∧ R a b := by
  induction hrel generalizing i with
  | nil => cases hfind
  | @cons head head' rest rest' hhead _ ih =>
      unfold findIndexed at hfind ⊢
      rw [h _ _ hhead]
      split at hfind
      · rename_i hp
        cases hfind
        exact ⟨head', if_pos hp, hhead⟩
      · rename_i hp
        obtain ⟨⟨j, found⟩, hfound, hpair⟩ := Option.map_eq_some_iff.mp hfind
        cases hpair
        obtain ⟨b, hb, hR⟩ := ih hfound
        exact ⟨b, by rw [if_neg hp, hb]; rfl, hR⟩

theorem findIndexed_isSome_of_forall₂ {p : α → Bool} {q : β → Bool}
    (hrel : List.Forall₂ R values values') (h : ∀ a b, R a b → q b = p a) :
    findIndexed q values' = none ↔ findIndexed p values = none := by
  rw [findIndexed_eq_none, findIndexed_eq_none]
  constructor
  · intro hnone a ha
    obtain ⟨i, hget⟩ := List.mem_iff_getElem?.mp ha
    obtain ⟨b, hb, hR⟩ := forall₂_get_left hrel hget
    rw [← h a b hR]
    exact hnone b (List.mem_of_getElem? hb)
  · intro hnone b hb
    obtain ⟨a, ha, hR⟩ := forall₂_mem_right hrel hb
    rw [h a b hR]
    exact hnone a ha

end Forall₂

theorem forall₂_comp {β γ : Type*} {R : α → β → Prop} {S : β → γ → Prop}
    {T : α → γ → Prop} {l : List α} {m : List β} {n : List γ}
    (hlm : List.Forall₂ R l m) (hmn : List.Forall₂ S m n)
    (h : ∀ a b c, R a b → S b c → T a c) : List.Forall₂ T l n := by
  induction hlm generalizing n with
  | nil => cases hmn; exact .nil
  | cons hab _ ih =>
      cases hmn with
      | cons hbc hrest => exact .cons (h _ _ _ hab hbc) (ih hrest)

/-- An assignment relates every other position to itself. -/
theorem forall₂_set_of {R : α → α → Prop} {values : List α} {i : Nat} {a b : α}
    (hget : values[i]? = some a)
    (hrefl : ∀ j c, j ≠ i → values[j]? = some c → R c c) (hR : R a b) :
    List.Forall₂ R values (values.set i b) := by
  rw [forall₂_iff_getElem?]
  refine ⟨List.length_set.symm, fun j c c' hc hc' => ?_⟩
  rw [List.getElem?_set] at hc'
  split at hc'
  · rename_i hij
    subst hij
    split at hc'
    · cases hc'
      cases hget.symm.trans hc
      exact hR
    · cases hc'
  · rename_i hij
    cases hc.symm.trans hc'
    exact hrefl j c (Ne.symm hij) hc

theorem forall₂_set {R : α → α → Prop} {values : List α} {i : Nat} {a b : α}
    (hget : values[i]? = some a) (hrefl : ∀ c, R c c) (hR : R a b) :
    List.Forall₂ R values (values.set i b) :=
  forall₂_set_of hget (fun _ c _ _ => hrefl c) hR

/-- An assignment on the right, of what its row is related to. -/
theorem forall₂_set_right {β : Type*} {R : α → β → Prop} {values : List α}
    {values' : List β} (hrel : List.Forall₂ R values values') {i : Nat} {a : α}
    {b : β} (hget : values[i]? = some a) (hR : R a b) :
    List.Forall₂ R values (values'.set i b) := by
  rw [forall₂_iff_getElem?] at hrel ⊢
  refine ⟨hrel.1.trans List.length_set.symm, ?_⟩
  intro j c c' hc hc'
  rw [List.getElem?_set] at hc'
  split at hc'
  · next hij =>
      subst hij
      split at hc'
      · cases hc'
        cases hget.symm.trans hc
        exact hR
      · cases hc'
  · exact hrel.2 j c c' hc hc'

theorem eq_of_key_of_getElem? {κ : Type*} [DecidableEq κ] {key : α → κ}
    {values : List α} (hunique : (values.map key).Nodup) {i j : Nat} {a b : α}
    (ha : values[i]? = some a) (hb : values[j]? = some b)
    (hkey : key a = key b) : i = j ∧ a = b := by
  have hfindA := findIndexed_of_unique hunique ha
  have hfindB := findIndexed_of_unique hunique hb
  rw [hkey, hfindB] at hfindA
  cases hfindA
  exact ⟨rfl, rfl⟩

/-! ### Totals -/

theorem le_sum_map {w : α → Nat} {values : List α} {a : α} (ha : a ∈ values) :
    w a ≤ (values.map w).sum := by
  induction values with
  | nil => cases ha
  | cons head rest ih =>
      rw [List.map_cons, List.sum_cons]
      rcases List.mem_cons.mp ha with rfl | hrest
      · omega
      · have := ih hrest
        omega

theorem sum_map_eq_zero {w : α → Nat} {values : List α}
    (h : ∀ a ∈ values, w a = 0) : (values.map w).sum = 0 := by
  induction values with
  | nil => rfl
  | cons head rest ih =>
      rw [List.forall_mem_cons] at h
      rw [List.map_cons, List.sum_cons, h.1, ih h.2]

theorem sum_map_mono {w w' : α → Nat} {values : List α}
    (h : ∀ a ∈ values, w a ≤ w' a) :
    (values.map w).sum ≤ (values.map w').sum := by
  induction values with
  | nil => exact Nat.le_refl 0
  | cons head rest ih =>
      rw [List.forall_mem_cons] at h
      simp only [List.map_cons, List.sum_cons]
      exact Nat.add_le_add h.1 (ih h.2)

theorem sum_map_set {w : α → Nat} {values : List α} {i : Nat} {a b : α}
    (hget : values[i]? = some a) :
    ((values.set i b).map w).sum + w a = (values.map w).sum + w b := by
  induction values generalizing i with
  | nil => cases hget
  | cons head rest ih =>
      cases i with
      | zero =>
          cases hget
          simp only [List.set_cons_zero, List.map_cons, List.sum_cons]
          omega
      | succ i =>
          have hrest := ih (i := i) (by simpa using hget)
          simp only [List.set_cons_succ, List.map_cons, List.sum_cons]
          omega

/-- A total changes by what its one entry under a unique key changes. -/
theorem sum_map_add_single {κ : Type*} [DecidableEq κ] {key : α → κ}
    {w w' : α → Nat} {values : List α} {k : κ} {x : Nat}
    (hunique : (values.map key).Nodup)
    (hw : ∀ a ∈ values, w' a = w a + if key a = k then x else 0)
    (hmem : k ∈ values.map key) :
    (values.map w').sum = (values.map w).sum + x := by
  induction values with
  | nil => cases hmem
  | cons head rest ih =>
      rw [List.map_cons, List.nodup_cons] at hunique
      rw [List.forall_mem_cons] at hw
      simp only [List.map_cons, List.sum_cons]
      rw [hw.1]
      rcases List.mem_cons.mp hmem with rfl | hrest
      · have hsame : rest.map w' = rest.map w := by
          refine List.map_congr_left fun a ha => ?_
          rw [hw.2 a ha, if_neg, Nat.add_zero]
          rintro heq
          exact hunique.1 (heq ▸ List.mem_map_of_mem ha)
        rw [hsame, if_pos rfl]
        omega
      · have hne : key head ≠ k := fun heq => hunique.1 (heq ▸ hrest)
        rw [ih hunique.2 hw.2 hrest, if_neg hne]
        omega

/-- What is owned weighs as much as its owners, each counted as often as it
owns something. -/
theorem sum_map_eq_sum_countP {κ β : Type*} [DecidableEq κ] {key : α → κ}
    {owner : β → κ} {w : α → Nat} {v : β → Nat} {values : List α}
    {owned : List β} (hunique : (values.map key).Nodup)
    (howner : ∀ b ∈ owned, ∃ a ∈ values, key a = owner b ∧ v b = w a) :
    (owned.map v).sum =
      (values.map fun a =>
        w a * owned.countP fun b => decide (owner b = key a)).sum := by
  induction owned with
  | nil =>
      refine (sum_map_eq_zero fun a _ => ?_).symm
      rw [List.countP_nil, Nat.mul_zero]
  | cons b rest ih =>
      rw [List.forall_mem_cons] at howner
      obtain ⟨⟨a, ha, hkey, hweight⟩, hrest⟩ := howner
      rw [List.map_cons, List.sum_cons, ih hrest, Nat.add_comm]
      symm
      rw [hweight]
      refine sum_map_add_single hunique (fun c hc => ?_)
        (List.mem_map_of_mem ha)
      rw [List.countP_cons, Nat.mul_add]
      congr 1
      by_cases hsame : key c = key a
      · have hc' : c = a := List.inj_on_of_nodup_map hunique hc ha hsame
        rw [hc', if_pos rfl, if_pos (decide_eq_true hkey.symm), Nat.mul_one]
      · have hne : owner b ≠ key c := fun h => hsame (h.symm.trans hkey.symm)
        rw [if_neg hsame, if_neg (by simpa using hne), Nat.mul_zero]

/-- Each value weighs one if its key has come up before, so what the weights
leave of the length is the number of keys. -/
theorem sum_map_add_card {κ : Type*} [DecidableEq κ] {key : α → κ} {w : α → Nat}
    {values : List α}
    (hrepeat : ∀ i a, values[i]? = some a →
      key a ∈ (values.take i).map key → w a = 1)
    (hfirst : ∀ i a, values[i]? = some a →
      key a ∉ (values.take i).map key → w a = 0) :
    (values.map w).sum + (values.map key).toFinset.card = values.length := by
  induction values using List.reverseRecOn with
  | nil => rfl
  | append_singleton values a ih =>
      have hearlier : ∀ i b, values[i]? = some b →
          (values ++ [a])[i]? = some b ∧
            (values ++ [a]).take i = values.take i := by
        intro i b hget
        have hi := (List.getElem?_eq_some_iff.mp hget).1
        exact ⟨(List.getElem?_append_left hi).trans hget,
          List.take_append_of_le_length (Nat.le_of_lt hi)⟩
      have hsum := ih
        (fun i b hget hmem => by
          obtain ⟨hget', htake⟩ := hearlier i b hget
          exact hrepeat i b hget' (htake ▸ hmem))
        (fun i b hget hmem => by
          obtain ⟨hget', htake⟩ := hearlier i b hget
          exact hfirst i b hget' (htake ▸ hmem))
      have hlast : (values ++ [a])[values.length]? = some a := by simp
      have hrepeat' := hrepeat _ a hlast
      have hfirst' := hfirst _ a hlast
      rw [List.take_left] at hrepeat' hfirst'
      rw [List.map_append, List.map_append, List.sum_append,
        List.toFinset_append, List.length_append]
      simp only [List.map_singleton, List.sum_singleton, List.toFinset_cons,
        List.toFinset_nil, insert_empty_eq, List.length_singleton]
      rw [Finset.union_comm, ← Finset.insert_eq]
      by_cases hmem : key a ∈ values.map key
      · rw [Finset.insert_eq_of_mem (List.mem_toFinset.mpr hmem), hrepeat' hmem]
        omega
      · rw [Finset.card_insert_of_notMem (mt List.mem_toFinset.mp hmem),
          hfirst' hmem]
        omega

/-- A total changes by the same amount at every entry that a test picks. -/
theorem sum_map_add_filter {w w' : α → Nat} {p : α → Bool} {values : List α}
    {x : Nat} (hw : ∀ a ∈ values, w' a = w a + if p a then x else 0) :
    (values.map w').sum =
      (values.map w).sum + x * (values.filter p).length := by
  induction values with
  | nil => rfl
  | cons head rest ih =>
      rw [List.forall_mem_cons] at hw
      simp only [List.map_cons, List.sum_cons, List.filter_cons]
      rw [hw.1, ih hw.2]
      split
      · rw [List.length_cons, Nat.mul_succ]
        omega
      · omega

theorem sum_map_of_forall₂ {β : Type*} {R : α → β → Prop} {w : α → Nat}
    {w' : β → Nat} {values : List α} {values' : List β}
    (hrel : List.Forall₂ R values values')
    (hw : ∀ a b, a ∈ values → R a b → w' b = w a) :
    (values'.map w').sum = (values.map w).sum := by
  induction hrel with
  | nil => rfl
  | cons hhead _ ih =>
      simp only [List.map_cons, List.sum_cons]
      rw [hw _ _ List.mem_cons_self hhead,
        ih fun a b ha => hw a b (List.mem_cons_of_mem _ ha)]

/-- An update that clears a property of one element, and gives it to none. -/
theorem countP_map_lt {p : α → Bool} {f : α → α} {values : List α}
    (hf : ∀ a ∈ values, p (f a) = true → p a = true)
    (hclears : ∃ a ∈ values, p a = true ∧ p (f a) ≠ true) :
    (values.map f).countP p < values.countP p := by
  induction values with
  | nil =>
      obtain ⟨a, ha, -⟩ := hclears
      cases ha
  | cons first rest ih =>
      obtain ⟨hfirst, hrest⟩ := List.forall_mem_cons.mp hf
      have hle : (rest.map f).countP p ≤ rest.countP p := by
        rw [List.countP_map]
        exact List.countP_mono_left hrest
      obtain ⟨a, ha, hbefore, hafter⟩ := hclears
      rw [List.map_cons, List.countP_cons, List.countP_cons]
      rcases List.mem_cons.mp ha with rfl | ha
      · rw [if_neg hafter, if_pos hbefore]
        omega
      · have hless := ih hrest ⟨a, ha, hbefore, hafter⟩
        by_cases h : p (f first) = true
        · rw [if_pos h, if_pos (hfirst h)]
          omega
        · rw [if_neg h]
          omega

end Peritus.Collections
