import Mathlib.Algebra.Group.Nat.Defs
import Mathlib.Tactic.Common

/-!
Bits and fields of words: single-bit masks, runs of ones, writing a field, and
words that agree outside a mask.
-/

namespace BitField

variable {n : Nat}

/-! ### Masks -/

theorem getLsbD_one_shiftLeft {i : Nat} (hi : i < n) (k : Nat) :
    (1#n <<< i).getLsbD k = decide (k = i) := by
  by_cases hk : k = i
  · subst hk
    simp [hi]
  · rcases Nat.lt_or_gt_of_ne hk with hlt | hgt
    · simp [BitVec.getLsbD_shiftLeft, hk, hlt]
    · have hne : k - i ≠ 0 := by omega
      simp [BitVec.getLsbD_shiftLeft, BitVec.getLsbD_one, hk, hne]

theorem getLsbD_ones (l k : Nat) :
    (BitVec.ofNat n (2 ^ l - 1)).getLsbD k = (decide (k < n) && decide (k < l)) := by
  rw [BitVec.getLsbD_ofNat, Nat.testBit_two_pow_sub_one]

/-- Two words have a common bit if their conjunction is not zero. -/
theorem and_ne_zero_iff {v m : BitVec n} :
    v &&& m ≠ 0#n ↔ ∃ k, v.getLsbD k = true ∧ m.getLsbD k = true := by
  constructor
  · intro h
    by_contra hnone
    apply h
    apply BitVec.eq_of_getLsbD_eq
    intro k hk
    by_contra hbit
    apply hnone
    refine ⟨k, ?_⟩
    simpa using hbit
  · rintro ⟨k, hv, hm⟩ h
    have hbit := congrArg (fun x => x.getLsbD k) h
    simp [hv, hm] at hbit

/-- A single-bit test reads the bit, also past the end of the word. -/
theorem and_one_shiftLeft_eq_zero (v : BitVec n) (i : Nat) :
    v &&& (1#n <<< i) = 0#n ↔ v.getLsbD i = false := by
  by_cases hi : i < n
  · rw [← not_iff_not, ← Ne, and_ne_zero_iff]
    simp [getLsbD_one_shiftLeft hi]
  · have hge : n ≤ i := by omega
    simp [BitVec.shiftLeft_eq_zero hge, BitVec.getLsbD_of_ge v i hge]

/-! ### Fields -/

/-- The word `v` with the bits of `mask` from bit `i` on taken from `value`. -/
def write (v : BitVec n) (i : Nat) (value mask : BitVec n) : BitVec n :=
  (v &&& ~~~(mask <<< i)) ||| ((value &&& mask) <<< i)

theorem getLsbD_write (v value mask : BitVec n) (i k : Nat) :
    (write v i value mask).getLsbD k =
      if i ≤ k ∧ k < n ∧ mask.getLsbD (k - i) = true then value.getLsbD (k - i)
      else v.getLsbD k := by
  simp only [write, BitVec.getLsbD_or, BitVec.getLsbD_and, BitVec.getLsbD_not,
    BitVec.getLsbD_shiftLeft]
  by_cases hk : k < n
  · by_cases hi : i ≤ k
    · have hnot : ¬ k < i := by omega
      cases hm : mask.getLsbD (k - i) <;> simp [hk, hi, hnot]
    · have hlt : k < i := by omega
      simp [hk, hi, hlt]
  · have hv : v.getLsbD k = false := BitVec.getLsbD_of_ge v k (by omega)
    simp [hk, hv]

/-- A word with its low bits clear, and another one in their place. -/
theorem toNat_or_low {v off : BitVec n} {k : Nat} (hv : v.toNat % 2 ^ k = 0)
    (hoff : off.toNat < 2 ^ k) : (v ||| off).toNat = v.toNat + off.toNat := by
  have hdiv : v.toNat = v.toNat / 2 ^ k * 2 ^ k := by
    have hsplit := Nat.div_add_mod' v.toNat (2 ^ k)
    omega
  rw [BitVec.toNat_or, hdiv, ← Nat.shiftLeft_eq, ← Nat.shiftLeft_add_eq_or_of_lt hoff]

theorem toNat_or_high {v high : BitVec n} {k : Nat} (hv : v.toNat < 2 ^ k)
    (hhigh : high.toNat % 2 ^ k = 0) : (v ||| high).toNat = v.toNat + high.toNat := by
  rw [BitVec.or_comm, toNat_or_low hhigh hv, Nat.add_comm]

theorem toNat_and_ones (v : BitVec n) {m : BitVec n} {k : Nat} (hm : m.toNat = 2 ^ k - 1) :
    (v &&& m).toNat = v.toNat % 2 ^ k := by
  rw [BitVec.toNat_and, hm, Nat.and_two_pow_sub_one_eq_mod]

/-! ### Words that agree outside a mask -/

def AgreeOff (mask v v' : BitVec n) : Prop := v &&& ~~~mask = v' &&& ~~~mask

theorem AgreeOff.refl (mask v : BitVec n) : AgreeOff mask v v := rfl

theorem agreeOff_iff {mask v v' : BitVec n} :
    AgreeOff mask v v' ↔ ∀ k, mask.getLsbD k = false → v.getLsbD k = v'.getLsbD k := by
  constructor
  · intro h k hk
    by_cases hn : k < n
    · have hbit := congrArg (fun x => x.getLsbD k) h
      simpa only [BitVec.getLsbD_and, BitVec.getLsbD_not, hk, hn, decide_true, Bool.not_false,
        Bool.and_true] using hbit
    · rw [BitVec.getLsbD_of_ge v k (by omega), BitVec.getLsbD_of_ge v' k (by omega)]
  · intro h
    apply BitVec.eq_of_getLsbD_eq
    intro k hk
    simp only [BitVec.getLsbD_and, BitVec.getLsbD_not]
    cases hm : mask.getLsbD k with
    | false => rw [h k hm]
    | true => simp

/-- Where the mask has no low bits, the words have the same remainder. -/
theorem AgreeOff.mod_eq {mask v v' : BitVec n} (h : AgreeOff mask v v') {k : Nat}
    (hmask : mask.toNat % 2 ^ k = 0) : v.toNat % 2 ^ k = v'.toNat % 2 ^ k := by
  apply Nat.eq_of_testBit_eq
  intro i
  rw [Nat.testBit_mod_two_pow, Nat.testBit_mod_two_pow]
  by_cases hi : i < k
  · have hbit : mask.getLsbD i = false := by
      have hzero := congrArg (fun x => x.testBit i) hmask
      rw [← BitVec.testBit_toNat]
      simpa [Nat.testBit_mod_two_pow, hi] using hzero
    have hagree : v.getLsbD i = v'.getLsbD i := agreeOff_iff.mp h i hbit
    rw [BitVec.testBit_toNat, BitVec.testBit_toNat, hagree]
  · simp [hi]

theorem agreeOff_replace (mask v value : BitVec n) :
    AgreeOff mask v ((v &&& ~~~mask) ||| (value &&& mask)) := by
  rw [agreeOff_iff]
  intro k hk
  simp only [BitVec.getLsbD_or, BitVec.getLsbD_and, BitVec.getLsbD_not, hk]
  by_cases hn : k < n
  · simp [hn]
  · simp [BitVec.getLsbD_of_ge v k (Nat.not_lt.mp hn)]

theorem agreeOff_set (mask v value : BitVec n) : AgreeOff mask v (v ||| (value &&& mask)) := by
  rw [agreeOff_iff]
  intro k hk
  simp only [BitVec.getLsbD_or, BitVec.getLsbD_and, hk, Bool.and_false, Bool.or_false]

theorem agreeOff_clear (mask v value : BitVec n) :
    AgreeOff mask v (v &&& ~~~(value &&& mask)) := by
  rw [agreeOff_iff]
  intro k hk
  simp only [BitVec.getLsbD_and, BitVec.getLsbD_not, hk]
  by_cases hn : k < n
  · simp [hn]
  · simp [BitVec.getLsbD_of_ge v k (Nat.not_lt.mp hn)]

/-- A word without bits outside the mask agrees with one that has none either. -/
theorem agreeOff_masked_iff (mask v value : BitVec n) :
    AgreeOff mask v (value &&& mask) ↔ v &&& ~~~mask = 0#n := by
  have hzero : (value &&& mask) &&& ~~~mask = 0#n := by
    rw [BitVec.and_assoc, BitVec.and_not_self]
    exact BitVec.and_zero ..
  rw [AgreeOff, hzero]

end BitField
