import Mathlib.Tactic.Common

/-!
Results of computations that can fail: when a sequence of them succeeds, what a failure
of the sequence says about its parts, and when two sequences go alike.
-/

namespace Except

variable {ε ε' α β : Type}

@[simp] theorem ok_bind (a : α) (f : α → Except ε β) : (Except.ok a >>= f) = f a := rfl

@[simp] theorem error_bind (e : ε) (f : α → Except ε β) :
    (Except.error e >>= f) = .error e := rfl

@[simp] theorem pure_eq_ok (a : α) : (pure a : Except ε α) = .ok a := rfl

/-- A sequence succeeds if its first part does and the rest does on its result. -/
theorem bind_eq_ok {x : Except ε α} {f : α → Except ε β} {b : β} :
    x >>= f = .ok b ↔ ∃ a, x = .ok a ∧ f a = .ok b := by
  cases x with
  | error e => simp
  | ok a => simp

/-- A sequence fails if its first part does or the rest does on its result. -/
theorem bind_eq_error {x : Except ε α} {f : α → Except ε β} {e : ε} :
    x >>= f = .error e ↔ x = .error e ∨ ∃ a, x = .ok a ∧ f a = .error e := by
  cases x with
  | error e' => simp
  | ok a => simp

@[simp] theorem mapError_eq_ok {x : Except ε α} {f : ε → ε'} {a : α} :
    x.mapError f = .ok a ↔ x = .ok a := by
  cases x <;> simp [Except.mapError]

theorem exists_of_any_toOption {x : Except ε α} {p : α → Bool}
    (h : x.toOption.any p = true) : ∃ a, x = .ok a ∧ p a = true := by
  cases x with
  | error e => cases h
  | ok a => exact ⟨a, rfl, h⟩

/-- Two computations with the same image return together, with results of the same image. -/
theorem exists_of_map_eq {γ : Type} {x : Except ε α} {y : Except ε β} {f : α → γ} {g : β → γ}
    (h : f <$> x = g <$> y) {a : α} (ha : x = .ok a) : ∃ b, y = .ok b ∧ g b = f a := by
  subst ha
  cases y with
  | error e => cases h
  | ok b => exact ⟨b, rfl, (Except.ok.inj h).symm⟩

/-! ### Returning -/

/-- The computation does not fail. -/
def Returns (x : Except ε α) : Prop := ∃ a, x = .ok a

@[simp] theorem returns_ok (a : α) : Returns (.ok a : Except ε α) := ⟨a, rfl⟩

@[simp] theorem not_returns_error (e : ε) : ¬ Returns (.error e : Except ε α) := by
  rintro ⟨a, h⟩
  cases h

@[simp] theorem returns_pure (a : α) : Returns (pure a : Except ε α) := ⟨a, rfl⟩

/-- A sequence returns if its first part does and the rest does on its result. -/
theorem returns_bind_iff {x : Except ε α} {f : α → Except ε β} :
    Returns (x >>= f) ↔ Returns x ∧ ∀ a, x = .ok a → Returns (f a) := by
  cases x with
  | error e => simp
  | ok a => simp

/-- The rest of a sequence that always returns does not matter. -/
theorem returns_bind_of_returns {x : Except ε α} {f : α → Except ε β}
    (h : ∀ a, x = .ok a → Returns (f a)) : Returns (x >>= f) ↔ Returns x := by
  rw [returns_bind_iff]
  exact and_iff_left h

theorem returns_mapError_iff {x : Except ε α} {f : ε → ε'} :
    Returns (x.mapError f) ↔ Returns x := by
  simp [Returns]

theorem returns_ite_error {c : Prop} [Decidable c] {e : ε} {x : Except ε α} :
    Returns (if c then .error e else x) ↔ ¬ c ∧ Returns x := by
  split
  · next h => simp [h]
  · next h => simp [h]

/-! ### Computations that go alike -/

variable {α' β' : Type} {R : α → β → Prop} {S : α' → β' → Prop}

/-- The computations fail with the same error, or return related results. -/
inductive Alike (R : α → β → Prop) : Except ε α → Except ε β → Prop
  | ok {a : α} {b : β} (h : R a b) : Alike R (.ok a) (.ok b)
  | error (e : ε) : Alike R (.error e) (.error e)

/-- Sequences go alike if their first parts do, and the rests do on related results. -/
theorem Alike.bind {x : Except ε α} {y : Except ε β} {f : α → Except ε α'} {g : β → Except ε β'}
    (h : Alike R x y)
    (hrest : ∀ a b, x = .ok a → y = .ok b → R a b → Alike S (f a) (g b)) :
    Alike S (x >>= f) (y >>= g) := by
  cases h with
  | ok hab => exact hrest _ _ rfl rfl hab
  | error e => exact .error e

theorem Alike.mono {R' : α → β → Prop} {x : Except ε α} {y : Except ε β} (h : Alike R x y)
    (himp : ∀ a b, x = .ok a → y = .ok b → R a b → R' a b) : Alike R' x y := by
  cases h with
  | ok hab => exact .ok (himp _ _ rfl rfl hab)
  | error e => exact .error e

theorem Alike.mapError {x : Except ε α} {y : Except ε β} (h : Alike R x y) (f : ε → ε') :
    Alike R (x.mapError f) (y.mapError f) := by
  cases h with
  | ok hab => exact .ok hab
  | error e => exact .error (f e)

theorem alike_map (f : α → β) (x : Except ε α) : Alike (fun a b => b = f a) x (f <$> x) := by
  cases x with
  | ok a => exact .ok rfl
  | error e => exact .error e

theorem alike_self {R : α → α → Prop} {x : Except ε α} (h : ∀ a, x = .ok a → R a a) :
    Alike R x x := by
  cases x with
  | ok a => exact .ok (h a rfl)
  | error e => exact .error e

theorem Alike.eq {x y : Except ε α} (h : Alike Eq x y) : x = y := by
  cases h with
  | ok hab => rw [hab]
  | error e => rfl

/-- What one of them returns is related to what the other one does. -/
theorem Alike.exists_of_ok {x : Except ε α} {y : Except ε β} (h : Alike R x y) {a : α}
    (ha : x = .ok a) : ∃ b, y = .ok b ∧ R a b := by
  subst ha
  cases h with
  | ok hab => exact ⟨_, rfl, hab⟩

end Except
