import Mathlib.Algebra.Group.Nat.Defs
import Mathlib.Data.Nat.Notation
import Mathlib.Tactic.Common

/-!
Contiguous ranges of addresses, as exact integers, and the range tests that a
machine makes on words of a fixed width.
-/

/-- The `size` addresses from `start` on. -/
structure Region where
  start : ℕ
  size : ℕ
  deriving DecidableEq

namespace Region

def Contains (r : Region) (a len : ℕ) : Prop := r.start ≤ a ∧ a + len ≤ r.start + r.size

/-- Some of the `len` addresses from `a` on belong to the region. -/
def Meets (r : Region) (a len : ℕ) : Prop := max r.start a < min (r.start + r.size) (a + len)

def Apart (r r' : Region) : Prop :=
  r.start + r.size ≤ r'.start ∨ r'.start + r'.size ≤ r.start

instance (r : Region) (a len : ℕ) : Decidable (r.Contains a len) :=
  inferInstanceAs (Decidable (_ ∧ _))

instance (r : Region) (a len : ℕ) : Decidable (r.Meets a len) :=
  inferInstanceAs (Decidable (_ < _))

instance (r r' : Region) : Decidable (r.Apart r') := inferInstanceAs (Decidable (_ ∨ _))

/-- A nonempty access inside one region misses every region apart from it. -/
theorem Apart.not_contains {r r' : Region} (hapart : r.Apart r') {a len : ℕ}
    (hlen : 0 < len) (h : r.Contains a len) : ¬ r'.Contains a len := by
  rintro ⟨hlow', hhigh'⟩
  obtain ⟨hlow, hhigh⟩ := h
  rcases hapart with happ | happ
  · omega
  · omega

/-! ### Tests on words -/

section Words

variable {n : ℕ} {addr start size : BitVec n}

def ofWords (start size : BitVec n) : Region := ⟨start.toNat, size.toNat⟩

theorem toNat_end (h : start.toNat + size.toNat < 2 ^ n) :
    (start + size).toNat = start.toNat + size.toNat := by
  rw [BitVec.toNat_add, Nat.mod_eq_of_lt h]

theorem toNat_add_ofNat {len : ℕ} (h : addr.toNat + len < 2 ^ n) :
    (addr + BitVec.ofNat n len).toNat = addr.toNat + len := by
  rw [BitVec.toNat_add, BitVec.toNat_ofNat, Nat.mod_eq_of_lt (by omega : len < 2 ^ n),
    Nat.mod_eq_of_lt h]

theorem contains_iff_le_add {len : ℕ} (hregion : start.toNat + size.toNat < 2 ^ n)
    (haccess : addr.toNat + len < 2 ^ n) :
    start ≤ addr ∧ addr + BitVec.ofNat n len ≤ start + size ↔
      (ofWords start size).Contains addr.toNat len := by
  rw [BitVec.le_def, BitVec.le_def, toNat_add_ofNat haccess, toNat_end hregion]
  exact Iff.rfl

/-- The offset of a contained access leaves room for all of it. -/
theorem Contains.offset_le {len : ℕ} (h : (ofWords start size).Contains addr.toNat len) :
    (addr - start).toNat + len ≤ size.toNat := by
  obtain ⟨hlow, hhigh⟩ := h
  simp only [ofWords] at hlow hhigh
  rw [BitVec.toNat_sub_of_le (BitVec.le_def.mpr hlow)]
  omega

end Words

end Region
