import Mathlib.Order.WellFounded
import Mathlib.Tactic.Common

/-!
Decisions by the first matching rule of an ordered list, and when two readings of
the same rules decide alike.
-/

namespace FirstMatch

variable {ι β : Type*} [LinearOrder ι] {M M' G G' : ι → Prop} {k : ι}

def First (M : ι → Prop) (k : ι) : Prop := M k ∧ ∀ j < k, ¬ M j

def Decides (M G : ι → Prop) : Prop := ∃ k, First M k ∧ G k

def DecidesAfter (k : ι) (M G : ι → Prop) : Prop := Decides (fun j => k < j ∧ M j) G

theorem First.unique (h : First M k) {k' : ι} (h' : First M k') : k = k' := by
  rcases lt_trichotomy k k' with hlt | heq | hgt
  · exact absurd h.1 (h'.2 k hlt)
  · exact heq
  · exact absurd h'.1 (h.2 k' hgt)

theorem First.decides_iff (h : First M k) : Decides M G ↔ G k := by
  constructor
  · rintro ⟨k', hk', hgrant⟩
    rw [h.unique hk']
    exact hgrant
  · exact fun hgrant => ⟨k, h, hgrant⟩

theorem decides_iff_after (hbefore : ∀ j < k, ¬ M j) (hk : ¬ M k) :
    Decides M G ↔ DecidesAfter k M G := by
  have hpass : ∀ j, M j ↔ k < j ∧ M j := by
    intro j
    constructor
    · intro hj
      refine ⟨lt_of_not_ge fun hle => ?_, hj⟩
      rcases lt_or_eq_of_le hle with hlt | rfl
      · exact hbefore j hlt hj
      · exact hk hj
    · exact fun hj => hj.2
  have heq : M = fun j => k < j ∧ M j := funext fun j => propext (hpass j)
  rw [DecidesAfter, ← heq]

/-- In a sorted list with all rules, a search finds the result of the first rule that
has one. -/
theorem findSome?_eq_some_iff_first {l : List ι} (hsorted : l.Pairwise (· < ·))
    (hall : ∀ a, a ∈ l) {f : ι → Option β} {b : β} :
    l.findSome? f = some b ↔ ∃ k, f k = some b ∧ ∀ j < k, f j = none := by
  rw [List.findSome?_eq_some_iff]
  constructor
  · rintro ⟨before, k, after, rfl, hk, hnone⟩
    obtain ⟨-, htail, -⟩ := List.pairwise_append.mp hsorted
    refine ⟨k, hk, fun j hj => ?_⟩
    rcases List.mem_append.mp (hall j) with hbefore | hafter
    · exact hnone j hbefore
    · rcases List.mem_cons.mp hafter with rfl | hmem
      · exact absurd hj (lt_irrefl _)
      · exact absurd hj (lt_asymm ((List.pairwise_cons.mp htail).1 j hmem))
  · rintro ⟨k, hk, hnone⟩
    obtain ⟨before, after, rfl⟩ := List.append_of_mem (hall k)
    obtain ⟨-, -, hcross⟩ := List.pairwise_append.mp hsorted
    exact ⟨before, k, after, rfl, hk, fun j hj => hnone j (hcross j hj k List.mem_cons_self)⟩

section Readings

variable (M M' G G')

def Alike (k : ι) : Prop := (M k ↔ M' k) ∧ (M k → (G k ↔ G' k))

/-- Only one reading matches, and for the other one a later rule makes up for it. -/
def MadeGood (k : ι) : Prop :=
  (M k ∧ ¬ M' k ∧ (G k ↔ DecidesAfter k M' G')) ∨
    (¬ M k ∧ M' k ∧ (DecidesAfter k M G ↔ G' k))

end Readings

/-- Two readings decide alike just when they agree on the first rule that matches
for one of them, or a later rule makes up for the difference. -/
theorem decides_iff_decides [WellFoundedLT ι] :
    (Decides M G ↔ Decides M' G') ↔
      ∀ k, First (fun j => M j ∨ M' j) k → Alike M M' G G' k ∨ MadeGood M M' G G' k := by
  constructor
  · rintro heq k ⟨hk, hbefore⟩
    have hno : ∀ j < k, ¬ M j := fun j hj hM => hbefore j hj (.inl hM)
    have hno' : ∀ j < k, ¬ M' j := fun j hj hM => hbefore j hj (.inr hM)
    by_cases hM : M k
    · by_cases hM' : M' k
      · rw [First.decides_iff ⟨hM, hno⟩, First.decides_iff ⟨hM', hno'⟩] at heq
        exact .inl ⟨iff_of_true hM hM', fun _ => heq⟩
      · rw [First.decides_iff ⟨hM, hno⟩, decides_iff_after hno' hM'] at heq
        exact .inr (.inl ⟨hM, hM', heq⟩)
    · have hM' : M' k := hk.resolve_left hM
      rw [First.decides_iff ⟨hM', hno'⟩, decides_iff_after hno hM] at heq
      exact .inr (.inr ⟨hM, hM', heq⟩)
  · intro h
    by_cases hany : ∃ k, M k ∨ M' k
    · obtain ⟨k, hk, hmin⟩ := WellFounded.has_min (wellFounded_lt (α := ι)) {j | M j ∨ M' j} hany
      have hfirst : First (fun j => M j ∨ M' j) k := ⟨hk, fun j hj hM => hmin j hM hj⟩
      have hno : ∀ j < k, ¬ M j := fun j hj hM => hfirst.2 j hj (.inl hM)
      have hno' : ∀ j < k, ¬ M' j := fun j hj hM => hfirst.2 j hj (.inr hM)
      rcases h k hfirst with ⟨hmatch, hgrant⟩ | ⟨hM, hM', heq⟩ | ⟨hM, hM', heq⟩
      · have hM : M k := hk.elim id hmatch.mpr
        rw [First.decides_iff ⟨hM, hno⟩, First.decides_iff ⟨hmatch.mp hM, hno'⟩]
        exact hgrant hM
      · rw [First.decides_iff ⟨hM, hno⟩, decides_iff_after hno' hM']
        exact heq
      · rw [First.decides_iff ⟨hM', hno'⟩, decides_iff_after hno hM]
        exact heq
    · have hnone : ¬ Decides M G := fun ⟨k, hk, _⟩ => hany ⟨k, .inl hk.1⟩
      have hnone' : ¬ Decides M' G' := fun ⟨k, hk, _⟩ => hany ⟨k, .inr hk.1⟩
      exact iff_of_false hnone hnone'

end FirstMatch
