import Mathlib

/-!
Words over a linear order and the words that continue them.  In a list of words
in strictly ascending lexicographic order a word need not stand next to a
continuation of it: the words that go on with a lesser letter come between.
-/

namespace Peritus.Words

variable {α : Type*} [LinearOrder α]

/-- The longer word goes on with the separator after the word. -/
def Extends (separator : α) (word longer : List α) : Prop :=
  ∃ rest, longer = word ++ separator :: rest

/-- The other word goes on with a letter below the separator after the word. -/
def Undercuts (separator : α) (word other : List α) : Prop :=
  ∃ letter rest, letter < separator ∧ other = word ++ letter :: rest

theorem lt_append_cons (word rest : List α) (letter : α) :
    word < word ++ letter :: rest := by
  induction word with
  | nil => exact List.nil_lt_cons letter rest
  | cons head word ih => exact List.cons_lt_cons_iff.mpr (.inr ⟨rfl, ih⟩)

theorem Extends.lt {separator : α} {word longer : List α}
    (h : Extends separator word longer) : word < longer := by
  obtain ⟨rest, rfl⟩ := h
  exact lt_append_cons word rest separator

theorem Undercuts.lt {separator : α} {word other : List α}
    (h : Undercuts separator word other) : word < other := by
  obtain ⟨letter, rest, -, rfl⟩ := h
  exact lt_append_cons word rest letter

theorem Undercuts.lt_extends {separator : α} {word other longer : List α}
    (hunder : Undercuts separator word other)
    (hextends : Extends separator word longer) : other < longer := by
  obtain ⟨letter, tail, hletter, rfl⟩ := hunder
  obtain ⟨rest, rfl⟩ := hextends
  apply List.append_left_lt
  exact List.cons_lt_cons_iff.mpr (.inl hletter)

/-- Whatever lies between a word and a continuation of it continues it too. -/
theorem between_extends {separator : α} {word other longer : List α}
    (hextends : Extends separator word longer) (hlow : word < other)
    (hhigh : other ≤ longer) :
    Extends separator word other ∨ Undercuts separator word other := by
  obtain ⟨rest, rfl⟩ := hextends
  induction word generalizing other with
  | nil =>
      cases other with
      | nil => exact absurd hlow (lt_irrefl _)
      | cons letter tail =>
          rcases lt_trichotomy letter separator with hletter | rfl | hletter
          · exact .inr ⟨letter, tail, hletter, rfl⟩
          · exact .inl ⟨tail, rfl⟩
          · exfalso
            apply absurd hhigh
            apply not_le_of_gt
            exact List.cons_lt_cons_iff.mpr (.inl hletter)
  | cons head word ih =>
      cases other with
      | nil => exact absurd hlow (List.not_lt_nil _)
      | cons letter tail =>
          rcases List.cons_lt_cons_iff.mp hlow with hletter | ⟨rfl, htail⟩
          · exfalso
            apply absurd hhigh
            apply not_le_of_gt
            exact List.cons_lt_cons_iff.mpr (.inl hletter)
          · have hrest : tail ≤ word ++ separator :: rest := by
              apply le_of_not_gt
              intro hover
              apply absurd hhigh
              apply not_le_of_gt
              exact List.cons_lt_cons_iff.mpr (.inr ⟨rfl, hover⟩)
            rcases ih htail hrest with ⟨t, rfl⟩ | ⟨c, t, hc, rfl⟩
            · exact .inl ⟨t, rfl⟩
            · exact .inr ⟨c, t, hc, rfl⟩

/-- What the neighbours of an ascending list of words show of it: no word is
continued by its neighbour exactly if every word that is continued in the list
is also undercut in it. -/
theorem isChain_not_extends_iff (separator : α) {words : List (List α)}
    (hsorted : words.Pairwise (· < ·)) :
    words.IsChain (fun word next => ¬ Extends separator word next) ↔
      ∀ word ∈ words, (∃ longer ∈ words, Extends separator word longer) →
        ∃ other ∈ words, Undercuts separator word other := by
  induction words with
  | nil => simp
  | cons first rest ih =>
      obtain ⟨hfirst, hrest⟩ := List.pairwise_cons.mp hsorted
      cases rest with
      | nil =>
          constructor
          · rintro - word hword ⟨longer, hlonger, hextends⟩
            rw [List.mem_singleton.mp hword, List.mem_singleton.mp hlonger]
              at hextends
            exact absurd hextends.lt (lt_irrefl _)
          · intro
            exact .singleton first
      | cons second rest =>
          rw [List.isChain_cons_cons, ih hrest]
          have hsecond := hfirst second List.mem_cons_self
          constructor
          · rintro ⟨hnext, hchain⟩ word hword ⟨longer, hlonger, hextends⟩
            rcases List.mem_cons.mp hword with rfl | hword
            · rcases List.mem_cons.mp hlonger with rfl | hlonger
              · exact absurd hextends.lt (lt_irrefl _)
              · have hhigh : second ≤ longer := by
                  rcases List.mem_cons.mp hlonger with rfl | hlonger
                  · exact le_refl _
                  · exact le_of_lt
                      ((List.pairwise_cons.mp hrest).1 longer hlonger)
                rcases between_extends hextends hsecond hhigh with h | h
                · exact absurd h hnext
                · exact ⟨second, by simp, h⟩
            · have hlater := hfirst word hword
              have hlonger' : longer ∈ second :: rest := by
                rcases List.mem_cons.mp hlonger with rfl | hlonger
                · exact absurd (hextends.lt.trans hlater) (lt_irrefl _)
                · exact hlonger
              obtain ⟨other, hother, hunder⟩ :=
                hchain word hword ⟨longer, hlonger', hextends⟩
              exact ⟨other, List.mem_cons_of_mem _ hother, hunder⟩
          · intro hall
            constructor
            · intro hextends
              obtain ⟨other, hother, hunder⟩ := hall first List.mem_cons_self
                ⟨second, by simp, hextends⟩
              have hlow := hunder.lt
              have hhigh := hunder.lt_extends hextends
              rcases List.mem_cons.mp hother with rfl | hother
              · exact absurd hlow (lt_irrefl _)
              · rcases List.mem_cons.mp hother with rfl | hother
                · exact absurd hhigh (lt_irrefl _)
                · have hover := (List.pairwise_cons.mp hrest).1 other hother
                  exact absurd (hover.trans hhigh) (lt_irrefl _)
            · rintro word hword ⟨longer, hlonger, hextends⟩
              obtain ⟨other, hother, hunder⟩ :=
                hall word (List.mem_cons_of_mem _ hword)
                  ⟨longer, List.mem_cons_of_mem _ hlonger, hextends⟩
              rcases List.mem_cons.mp hother with rfl | hother
              · exact absurd ((hfirst word hword).trans hunder.lt)
                  (lt_irrefl _)
              · exact ⟨other, hother, hunder⟩

end Peritus.Words
