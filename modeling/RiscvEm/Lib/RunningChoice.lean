import Mathlib.Data.List.Induction
import Mathlib.Order.BoundedOrder.Basic
import Mathlib.Order.Lattice
import Mathlib.Tactic.Common

/-!
A scan that keeps a running choice: the last element that was at least as large as what
had been stored for the choice before it. What is stored for an element may be less than
its full size.
-/

namespace RunningChoice

variable {α β : Type} [LinearOrder α] [LinearOrder β] (full stored : α → β)

/-- One element of the scan. The second component is what is stored for the choice. -/
def step (c : α × β) (x : α) : α × β := if c.2 ≤ full x then (x, stored x) else c

/-- The element that a scan in ascending order ends with: nothing that comes after it
reaches what is stored for it, and whatever before it has more stored than its size is
reached by something between them. -/
structure Chosen (p : α → Prop) (b : α) : Prop where
  mem : p b
  after : ∀ m, p m → b < m → full m < stored b
  before : ∀ m, p m → m < b → full b < stored m → ∃ m', p m' ∧ m < m' ∧ m' < b ∧
    stored m ≤ full m'

theorem Chosen.unique {p : α → Prop} {b b' : α} (h : Chosen full stored p b)
    (h' : Chosen full stored p b') : b = b' := by
  have hle : ∀ {b b'}, Chosen full stored p b → Chosen full stored p b' → ¬ b < b' := by
    intro b b' h h' hlt
    obtain ⟨m, hm, hbm, -, hreach⟩ := h'.before b h.mem hlt (h.after b' h'.mem hlt)
    exact absurd (h.after m hm hbm) (not_lt_of_ge hreach)
  rcases lt_trichotomy b b' with hlt | heq | hlt
  · exact absurd hlt (hle h h')
  · exact heq
  · exact absurd hlt (hle h' h)

variable {full stored}

theorem Chosen.append {xs : List α} {b x : α} (hle : ∀ a, stored a ≤ full a)
    (hx : ∀ a ∈ xs, a < x) (h : Chosen full stored (· ∈ xs) b) :
    (stored b ≤ full x → Chosen full stored (· ∈ xs ++ [x]) x) ∧
      (full x < stored b → Chosen full stored (· ∈ xs ++ [x]) b) := by
  have hold {a : α} (ha : a ∈ xs) : a ∈ xs ++ [x] := List.mem_append_left _ ha
  have hcases {a : α} (ha : a ∈ xs ++ [x]) : a ∈ xs ∨ a = x := by
    rcases List.mem_append.mp ha with ha | ha
    · exact .inl ha
    · exact .inr (List.mem_singleton.mp ha)
  constructor
  · intro hreach
    refine ⟨List.mem_append_right _ (List.mem_singleton_self x), fun m hm hlt => ?_,
      fun m hm hlt hmore => ?_⟩
    · rcases hcases hm with hm | rfl
      · exact absurd hlt (not_lt_of_gt (hx m hm))
      · exact absurd hlt (lt_irrefl _)
    · have hm' : m ∈ xs := (hcases hm).resolve_right (ne_of_lt hlt)
      rcases lt_trichotomy m b with hmb | rfl | hbm
      · -- the old choice reaches `m`, or something before the old choice does
        by_cases hb : stored m ≤ full b
        · exact ⟨b, hold h.mem, hmb, hx b h.mem, hb⟩
        · obtain ⟨m', hm'', hlow, hhigh, hr⟩ := h.before m hm' hmb (lt_of_not_ge hb)
          exact ⟨m', hold hm'', hlow, lt_trans hhigh (hx b h.mem), hr⟩
      · exact absurd hmore (not_lt_of_ge hreach)
      · have hbelow := lt_of_le_of_lt (hle m) (h.after m hm' hbm)
        exact absurd hmore (not_lt_of_gt (lt_of_lt_of_le hbelow hreach))
  · intro hless
    refine ⟨hold h.mem, fun m hm hlt => ?_, fun m hm hlt hmore => ?_⟩
    · rcases hcases hm with hm | rfl
      · exact h.after m hm hlt
      · exact hless
    · have hm' : m ∈ xs := by
        refine (hcases hm).resolve_right ?_
        rintro rfl
        exact absurd hlt (not_lt_of_gt (hx b h.mem))
      obtain ⟨m', hm'', hlow, hhigh, hr⟩ := h.before m hm' hlt hmore
      exact ⟨m', hold hm'', hlow, hhigh, hr⟩

/-- A scan in ascending order from the least value ends with the chosen element, if there
was any element. -/
theorem foldl_step [OrderBot β] (hle : ∀ a, stored a ≤ full a) (a₀ : α) (xs : List α)
    (hxs : xs.Pairwise (· < ·)) :
    (xs = [] ∧ xs.foldl (step full stored) (a₀, ⊥) = (a₀, ⊥)) ∨
      ∃ b, Chosen full stored (· ∈ xs) b ∧
        xs.foldl (step full stored) (a₀, ⊥) = (b, stored b) := by
  induction xs using List.reverseRecOn with
  | nil => exact .inl ⟨rfl, rfl⟩
  | append_singleton xs x ih =>
      rw [List.pairwise_append] at hxs
      obtain ⟨hpairwise, -, hlast⟩ := hxs
      have hx : ∀ a ∈ xs, a < x := fun a ha => hlast a ha x (List.mem_singleton_self x)
      right
      rw [List.foldl_append, List.foldl_cons, List.foldl_nil]
      rcases ih hpairwise with ⟨rfl, hinit⟩ | ⟨b, hchosen, hfold⟩
      · rw [hinit, step, if_pos bot_le]
        refine ⟨x, ⟨List.mem_singleton_self x, fun m hm hlt => ?_, fun m hm hlt => ?_⟩, rfl⟩
        · exact absurd hlt (by rw [List.mem_singleton.mp hm]; exact lt_irrefl _)
        · exact absurd hlt (by rw [List.mem_singleton.mp hm]; exact lt_irrefl _)
      · rw [hfold, step]
        obtain ⟨hnew, hold⟩ := hchosen.append hle hx
        split
        · next hreach => exact ⟨x, hnew hreach, rfl⟩
        · next hless => exact ⟨b, hold (lt_of_not_ge hless), rfl⟩

end RunningChoice
