import Mathlib

/-!
Encoders whose output shows where it ends.  Nothing here depends on what is
encoded: two texts that start with an encoding each and agree agree on what was
encoded and on the rest.
-/

namespace Peritus.Delimited

variable {α β : Type*}

/-- The encoding is known from any text that starts with it and goes on as
allowed. -/
def Delimits (goesOn : List β → Prop) (encode : α → List β) : Prop :=
  ∀ ⦃a b : α⦄ ⦃r s : List β⦄, goesOn r → goesOn s →
    encode a ++ r = encode b ++ s → a = b ∧ r = s

/-- Any text may follow. -/
abbrev Anything : List β → Prop := fun _ => True

/-- The text does not start with a letter of a kind. -/
def Stops (kind : β → Bool) (text : List β) : Prop :=
  ∀ letter ∈ text.head?, kind letter = false

theorem stops_nil (kind : β → Bool) : Stops kind [] := by
  rintro letter ⟨⟩

theorem stops_cons {kind : β → Bool} {letter : β} (text : List β)
    (h : kind letter = false) : Stops kind (letter :: text) := by
  rintro _ ⟨⟩
  exact h

theorem Delimits.injective {goesOn : List β → Prop} {encode : α → List β}
    (h : Delimits goesOn encode) (hnil : goesOn []) :
    Function.Injective encode := by
  intro a b hab
  refine (h hnil hnil ?_).1
  rw [List.append_nil, List.append_nil, hab]

/-- The longest run of letters of a kind at the start of a text. -/
theorem eq_of_run {kind : β → Bool} {first second r s : List β}
    (hfirst : ∀ letter ∈ first, kind letter = true)
    (hsecond : ∀ letter ∈ second, kind letter = true)
    (hr : Stops kind r) (hs : Stops kind s) (h : first ++ r = second ++ s) :
    first = second ∧ r = s := by
  have hrun : ∀ {letters rest : List β},
      (∀ letter ∈ letters, kind letter = true) → Stops kind rest →
      (letters ++ rest).takeWhile kind = letters := by
    intro letters rest hletters hrest
    have hnone : rest.takeWhile kind = [] := by
      cases rest with
      | nil => rfl
      | cons letter rest => simp [hrest letter rfl]
    rw [List.takeWhile_append_of_pos hletters, hnone, List.append_nil]
  have hsame : first = second := by
    rw [← hrun hfirst hr, h, hrun hsecond hs]
  subst hsame
  exact ⟨rfl, List.append_cancel_left h⟩

/-- Encodings one after the other, where nothing follows. -/
theorem Delimits.flatMap_injective {encode : α → List β}
    (hencode : Delimits Anything encode) (hne : ∀ a, encode a ≠ []) :
    Function.Injective fun values : List α => values.flatMap encode := by
  intro values
  induction values with
  | nil =>
      intro others h
      cases others with
      | nil => rfl
      | cons other others =>
          obtain ⟨hempty, -⟩ := List.append_eq_nil_iff.mp h.symm
          exact absurd hempty (hne other)
  | cons value values ih =>
      intro others h
      cases others with
      | nil =>
          obtain ⟨hempty, -⟩ := List.append_eq_nil_iff.mp h
          exact absurd hempty (hne value)
      | cons other others =>
          obtain ⟨rfl, hrest⟩ := hencode trivial trivial h
          rw [ih hrest]

/-- A list of encodings up to a letter that none of them starts with. -/
theorem delimits_closed {encode : α → List β} {close : β}
    (hencode : Delimits Anything encode)
    (hopen : ∀ a, ∃ letter rest, encode a = letter :: rest ∧ letter ≠ close) :
    Delimits Anything fun values : List α =>
      values.flatMap encode ++ [close] := by
  intro values
  induction values with
  | nil =>
      intro others r s _ _ h
      cases others with
      | nil => exact ⟨rfl, List.cons.inj h |>.2⟩
      | cons other others =>
          obtain ⟨letter, rest, hletter, hne⟩ := hopen other
          simp only [List.flatMap_nil, List.flatMap_cons, hletter,
            List.nil_append, List.cons_append] at h
          exact absurd (List.cons.inj h).1.symm hne
  | cons value values ih =>
      intro others r s _ _ h
      cases others with
      | nil =>
          obtain ⟨letter, rest, hletter, hne⟩ := hopen value
          simp only [List.flatMap_nil, List.flatMap_cons, hletter,
            List.nil_append, List.cons_append] at h
          exact absurd (List.cons.inj h).1 hne
      | cons other others =>
          simp only [List.flatMap_cons, List.append_assoc] at h
          obtain ⟨rfl, hrest⟩ := hencode trivial trivial h
          rw [← List.append_assoc, ← List.append_assoc] at hrest
          obtain ⟨rfl, hr⟩ := ih trivial trivial hrest
          exact ⟨rfl, hr⟩

end Peritus.Delimited
