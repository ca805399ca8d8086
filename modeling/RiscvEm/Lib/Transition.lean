import Mathlib.Logic.Relation
import Mathlib.Order.Lattice
import Mathlib.Tactic.Common

/-!
Runs of a transition system: the states that can be reached, properties that every
step keeps, and quantities that can only change in certain steps.
-/

namespace Transition

variable {α β : Type*} {I P : α → Prop} {R R' : α → α → Prop}

def Reachable (I : α → Prop) (R : α → α → Prop) (a : α) : Prop :=
  ∃ a₀, I a₀ ∧ Relation.ReflTransGen R a₀ a

theorem Reachable.of_init {a : α} (h : I a) : Reachable I R a := ⟨a, h, .refl⟩

theorem Reachable.tail {a b : α} (h : Reachable I R a) (hab : R a b) : Reachable I R b := by
  obtain ⟨a₀, h₀, hrun⟩ := h
  exact ⟨a₀, h₀, hrun.tail hab⟩

/-- A property that holds initially and is kept by every step holds of every
reachable state. -/
theorem Reachable.invariant {a : α} (h : Reachable I R a) (hinit : ∀ a, I a → P a)
    (hstep : ∀ a b, P a → R a b → P b) : P a := by
  obtain ⟨a₀, h₀, hrun⟩ := h
  induction hrun with
  | refl => exact hinit a₀ h₀
  | tail _ hbc ih => exact hstep _ _ ih hbc

/-- A system whose steps are runs of another one reaches no other states. -/
theorem Reachable.of_steps (hsteps : ∀ a b, R' a b → Relation.ReflTransGen R a b) {a : α}
    (h : Reachable I R' a) : Reachable I R a := by
  obtain ⟨a₀, h₀, hrun⟩ := h
  refine ⟨a₀, h₀, ?_⟩
  induction hrun with
  | refl => exact .refl
  | tail _ hbc ih => exact ih.trans (hsteps _ _ hbc)

/-- A quantity that is higher at the end of a run was raised by one of its steps. -/
theorem exists_step_lt [LinearOrder β] (f : α → β) {a b : α}
    (hrun : Relation.ReflTransGen R a b) (h : f a < f b) :
    ∃ c d, Relation.ReflTransGen R a c ∧ R c d ∧ Relation.ReflTransGen R d b ∧ f c < f d := by
  induction hrun with
  | refl => exact absurd h (lt_irrefl _)
  | @tail c d hac hcd ih =>
      rcases lt_or_ge (f c) (f d) with hlt | hge
      · exact ⟨c, d, hac, hcd, .refl, hlt⟩
      · obtain ⟨c', d', hac', hstep, hdc, hlt⟩ := ih (lt_of_lt_of_le h hge)
        exact ⟨c', d', hac', hstep, hdc.tail hcd, hlt⟩

/-! ### Executable steps -/

variable {ℓ : Type*} {exec : ℓ → α → Option α}

def trace (exec : ℓ → α → Option α) : List ℓ → α → Option α
  | [], a => some a
  | l :: rest, a => (exec l a).bind (trace exec rest)

theorem trace_reaches (hexec : ∀ l a b, exec l a = some b → R a b) {ls : List ℓ} {a b : α}
    (h : trace exec ls a = some b) : Relation.ReflTransGen R a b := by
  induction ls generalizing a with
  | nil =>
      obtain rfl := Option.some.inj h
      exact .refl
  | cons l rest ih =>
      obtain ⟨c, hstep, hrest⟩ := Option.bind_eq_some_iff.mp h
      exact .head (hexec l a c hstep) (ih hrest)

/-- A test that succeeds after a list of steps is met by a state of a run. -/
theorem exists_of_trace (hexec : ∀ l a b, exec l a = some b → R a b) {ls : List ℓ} {a : α}
    {test : α → Bool} (h : (trace exec ls a).any test = true) :
    ∃ b, Relation.ReflTransGen R a b ∧ test b = true := by
  cases htrace : trace exec ls a with
  | none =>
      rw [htrace] at h
      cases h
  | some b =>
      rw [htrace] at h
      exact ⟨b, trace_reaches hexec htrace, h⟩

end Transition
