import Mathlib

/-!
Early-return computations.  A reducer of the repository is a sequence of checks
in `Result`; these rules take an accepted run of one apart check by check.
-/

namespace Peritus.Checked

universe u v

variable {ε : Type u} {α β : Type v}

/-- `if !condition { return Err(error) }`. -/
def ensure (condition : Bool) (error : ε) : Except ε Unit :=
  if condition then .ok () else .error error

@[simp] theorem ensure_eq_ok_iff {condition : Bool} {error : ε} {u' : Unit} :
    ensure condition error = .ok u' ↔ condition = true := by
  unfold ensure
  cases condition <;> simp

@[simp] theorem ensure_true (error : ε) : ensure true error = .ok () := rfl

@[simp] theorem ensure_false (error : ε) : ensure false error = .error error := rfl

theorem bind_eq_ok_iff {x : Except ε α} {f : α → Except ε β} {b : β} :
    x >>= f = .ok b ↔ ∃ a, x = .ok a ∧ f a = .ok b := by
  cases x with
  | error e => exact ⟨fun h => (by cases h), fun ⟨_, h, _⟩ => (by cases h)⟩
  | ok a => exact ⟨fun h => ⟨a, rfl, h⟩, fun ⟨_, h, hf⟩ => (by cases h; exact hf)⟩

/-- Two continuations that agree on the result of a computation. -/
theorem ok_bind {a : α} {f : α → Except ε β} : ((.ok a : Except ε α) >>= f) = f a :=
  rfl

theorem error_bind {error : ε} {f : α → Except ε β} :
    ((.error error : Except ε α) >>= f) = .error error :=
  rfl

theorem bind_congr_of_ok {x : Except ε α} {f g : α → Except ε β}
    (h : ∀ a, x = .ok a → f a = g a) : x >>= f = x >>= g := by
  cases x with
  | error e => rfl
  | ok a => exact h a rfl

theorem bind_eq_error {x : Except ε α} {f : α → Except ε β} {error : ε}
    (h : x >>= f = .error error) :
    x = .error error ∨ ∃ a, x = .ok a ∧ f a = .error error := by
  cases x with
  | error found =>
      cases h
      exact .inl rfl
  | ok a => exact .inr ⟨a, rfl, h⟩

/-- The result of a check carries no information. -/
theorem exists_unit_iff {p : Unit → Prop} : (∃ checked, p checked) ↔ p () :=
  ⟨fun ⟨_, h⟩ => h, fun h => ⟨(), h⟩⟩

/-- A check computes nothing: only its success is observed. -/
theorem check_bind_eq_ok_iff {γ : Type} {x : Except ε Unit}
    {f : Unit → Except ε γ} {c : γ} :
    x >>= f = .ok c ↔ x = .ok () ∧ f () = .ok c := by
  rw [bind_eq_ok_iff]
  exact ⟨fun ⟨_, hx, hf⟩ => ⟨hx, hf⟩, fun ⟨hx, hf⟩ => ⟨(), hx, hf⟩⟩

theorem ensure_bind_eq_ok_iff {γ : Type} {condition : Bool} {error : ε}
    {f : Unit → Except ε γ} {c : γ} :
    ensure condition error >>= f = .ok c ↔ condition = true ∧ f () = .ok c := by
  cases condition with
  | false => exact ⟨fun h => (by cases h), fun h => (by cases h.1)⟩
  | true => exact ⟨fun h => ⟨rfl, h⟩, fun h => h.2⟩

@[simp] theorem pure_eq_ok_iff {a b : α} :
    (pure a : Except ε α) = .ok b ↔ a = b := by
  exact ⟨fun h => Except.ok.inj h, fun h => congrArg Except.ok h⟩

theorem mapError_eq_ok_iff {ε' : Type u} {x : Except ε α} {f : ε → ε'} {a : α} :
    x.mapError f = .ok a ↔ x = .ok a := by
  cases x with
  | error e => exact ⟨fun h => (by cases h), fun h => (by cases h)⟩
  | ok b => exact ⟨fun h => (by cases h; rfl), fun h => (by cases h; rfl)⟩

theorem toOption_eq_some_iff {x : Except ε α} {a : α} :
    x.toOption = some a ↔ x = .ok a := by
  cases x with
  | error e => exact ⟨fun h => (by cases h), fun h => (by cases h)⟩
  | ok b =>
      change some b = some a ↔ _
      rw [Option.some.injEq, Except.ok.injEq]

theorem exists_ok_of_toOption_isSome {x : Except ε α}
    (h : x.toOption.isSome = true) : ∃ a, x = .ok a := by
  obtain ⟨a, ha⟩ := Option.isSome_iff_exists.mp h
  exact ⟨a, toOption_eq_some_iff.mp ha⟩

/-! ### Postconditions

A computation satisfies `post` and `fail` if its result, whichever it is, does. -/

def Satisfies (post : α → Prop) (fail : ε → Prop) : Except ε α → Prop
  | .ok a => post a
  | .error e => fail e

theorem satisfies_of_ok {post : α → Prop} {fail : ε → Prop} {x : Except ε α}
    {a : α} (hx : x = .ok a) (hpost : post a) : Satisfies post fail x := by
  rw [hx]
  exact hpost

theorem satisfies_of_error {post : α → Prop} {fail : ε → Prop}
    {x : Except ε α} {e : ε} (hx : x = .error e) (hfail : fail e) :
    Satisfies post fail x := by
  rw [hx]
  exact hfail

theorem Satisfies.bind {post : β → Prop} {mid : α → Prop} {fail : ε → Prop}
    {x : Except ε α} {f : α → Except ε β} (hx : Satisfies mid fail x)
    (hf : ∀ a, x = .ok a → mid a → Satisfies post fail (f a)) :
    Satisfies post fail (x >>= f) := by
  cases x with
  | error e => exact hx
  | ok a => exact hf a rfl hx

/-- A postcondition that says nothing of failures needs no check of its own. -/
theorem satisfies_bind {post : β → Prop} {x : Except ε α} {f : α → Except ε β}
    (hf : ∀ a, x = .ok a → Satisfies post (fun _ => True) (f a)) :
    Satisfies post (fun _ => True) (x >>= f) := by
  cases x with
  | error e => trivial
  | ok a => exact hf a rfl

theorem satisfies_bind_of_ok {post : β → Prop} {fail : ε → Prop}
    {x : Except ε α} {f : α → Except ε β} {a : α} (hx : x = .ok a)
    (hf : Satisfies post fail (f a)) : Satisfies post fail (x >>= f) := by
  rw [hx]
  exact hf

theorem satisfies_ensure_bind {γ : Type} {post : γ → Prop} {fail : ε → Prop}
    {condition : Bool} {error : ε} {f : Unit → Except ε γ} (hfail : fail error)
    (hf : condition = true → Satisfies post fail (f ())) :
    Satisfies post fail (ensure condition error >>= f) := by
  cases condition with
  | false => exact hfail
  | true => exact hf rfl

theorem ensure_satisfies {fail : ε → Prop} {condition : Bool} {error : ε}
    (hfail : fail error) :
    Satisfies (fun _ => True) fail (ensure condition error) := by
  cases condition with
  | false => exact hfail
  | true => trivial

theorem Satisfies.of_eq_ok {post : α → Prop} {fail : ε → Prop} {x : Except ε α}
    {a : α} (h : Satisfies post fail x) (hx : x = .ok a) : post a := by
  rw [hx] at h
  exact h

theorem Satisfies.of_eq_error {post : α → Prop} {fail : ε → Prop}
    {x : Except ε α} {e : ε} (h : Satisfies post fail x) (hx : x = .error e) :
    fail e := by
  rw [hx] at h
  exact h

theorem Satisfies.imp {post post' : α → Prop} {fail fail' : ε → Prop}
    {x : Except ε α} (h : Satisfies post fail x)
    (hpost : ∀ a, post a → post' a) (hfail : ∀ e, fail e → fail' e) :
    Satisfies post' fail' x := by
  cases x with
  | error e => exact hfail e h
  | ok a => exact hpost a h

theorem Satisfies.or_left {post : α → Prop} {fail fail' : ε → Prop}
    {x : Except ε α} (h : Satisfies post fail x) :
    Satisfies post (fun e => fail e ∨ fail' e) x :=
  h.imp (fun _ h => h) fun _ h => .inl h

/-- `while index < values.len() { check(values[index])?; index += 1 }`. -/
def forEach (check : α → Except ε Unit) : List α → Except ε Unit
  | [] => .ok ()
  | a :: rest => do
      check a
      forEach check rest

theorem forEach_eq_ok_iff {check : α → Except ε Unit} {values : List α} :
    forEach check values = .ok () ↔ ∀ a ∈ values, check a = .ok () := by
  induction values with
  | nil => simp [forEach]
  | cons a rest ih =>
      simp only [forEach, check_bind_eq_ok_iff, ih, List.forall_mem_cons]

theorem forEach_range_eq_ok_iff {check : Nat → Except ε Unit} {n : Nat} :
    forEach check (List.range n) = .ok () ↔ ∀ i < n, check i = .ok () := by
  simp only [forEach_eq_ok_iff, List.mem_range]

end Peritus.Checked
