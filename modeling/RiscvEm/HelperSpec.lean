import RiscvEm.Helper
import RiscvEm.Lib.BitField

/-!
The helper macros bit by bit.
-/

namespace RiscvEm

variable {n : Nat}

theorem checkBit_eq_getLsbD (v : BitVec n) (nbit : Nat) : checkBit v nbit = v.getLsbD nbit := by
  rw [checkBit, Bool.eq_iff_iff, bne_iff_ne, Ne, BitField.and_one_shiftLeft_eq_zero,
    Bool.not_eq_false]

theorem getLsbD_assignXlenBit {n : Nat} (hn : 0 < n) (v b : BitVec n) (i k : Nat) (hi : i < n) :
    (assignXlenBit v i b).getLsbD k = if k = i then b.getLsbD 0 else v.getLsbD k := by
  have hwrite : assignXlenBit v i b = BitField.write v i b 1#n := rfl
  rw [hwrite, BitField.getLsbD_write]
  by_cases hk : k = i
  · subst hk
    simp [hi, hn]
  · rw [if_neg hk]
    split
    · next h =>
        obtain ⟨hle, -, hmask⟩ := h
        have hzero : 0 < n ∧ k - i = 0 := by simpa [BitVec.getLsbD_one] using hmask
        omega
    · rfl

theorem getLsbD_clearBit {n : Nat} (v : BitVec n) {i : Nat} (hi : i < n) (k : Nat) :
    (clearBit v i).getLsbD k = if k = i then false else v.getLsbD k := by
  rw [clearBit, BitVec.getLsbD_and, BitVec.getLsbD_not, BitField.getLsbD_one_shiftLeft hi]
  by_cases hk : k < n
  · by_cases hki : k = i
    · simp [hki]
    · simp [hk, hki]
  · simp [BitVec.getLsbD_of_ge v k (Nat.not_lt.mp hk)]

theorem getLsbD_assign_two {n : Nat} (v value : BitVec n) {i : Nat} (hi : i + 1 < n) (k : Nat) :
    (assignXlenValueWithinReg v i value 0x3).getLsbD k =
      if k = i ∨ k = i + 1 then value.getLsbD (k - i) else v.getLsbD k := by
  have hwrite : assignXlenValueWithinReg v i value 0x3 = BitField.write v i value 0x3 := rfl
  have hones : ∀ j, (0x3#n).getLsbD j = (decide (j < n) && decide (j < 2)) :=
    BitField.getLsbD_ones 2
  rw [hwrite, BitField.getLsbD_write, BitVec.ofNat_eq_ofNat, hones]
  by_cases hk : k = i ∨ k = i + 1
  · rw [if_pos hk, if_pos]
    simp only [Bool.and_eq_true, decide_eq_true_eq]
    omega
  · rw [if_neg hk, if_neg]
    simp only [Bool.and_eq_true, decide_eq_true_eq]
    omega

theorem getLsbD_assign_one {n : Nat} (v value : BitVec n) {i : Nat} (hi : i < n) (k : Nat) :
    (assignXlenValueWithinReg v i value 0x1).getLsbD k =
      if k = i then value.getLsbD 0 else v.getLsbD k :=
  getLsbD_assignXlenBit (by omega) v value i k hi

/-! ### Reading a field -/

theorem allOnes_ushiftRight (n : Nat) {length : Nat} (hlen : length ≤ n) :
    BitVec.allOnes n >>> (n - length) = BitVec.ofNat n (2 ^ length - 1) := by
  apply BitVec.eq_of_getLsbD_eq
  intro k hk
  rw [BitVec.getLsbD_ushiftRight, BitVec.getLsbD_allOnes, BitField.getLsbD_ones,
    Bool.eq_iff_iff]
  simp only [Bool.and_eq_true, decide_eq_true_eq]
  omega

theorem toNat_extract (v : BitVec n) (start : Nat) {length : Nat} (hlen : length ≤ n) :
    (extract v start length).toNat = v.toNat / 2 ^ start % 2 ^ length := by
  have hpow : 2 ^ length ≤ 2 ^ n := Nat.pow_le_pow_right (by decide) hlen
  have hpos : 0 < 2 ^ length := Nat.pow_pos (by decide)
  rw [extract, allOnes_ushiftRight n hlen, BitVec.toNat_and, BitVec.toNat_ofNat,
    Nat.mod_eq_of_lt (by omega : 2 ^ length - 1 < 2 ^ n), BitVec.toNat_ushiftRight,
    Nat.shiftRight_eq_div_pow, Nat.and_two_pow_sub_one_eq_mod]

theorem toNat_getLsbD (v : BitVec n) (k : Nat) :
    (v.getLsbD k).toNat = v.toNat / 2 ^ k % 2 := by
  rw [BitVec.getLsbD, Nat.toNat_testBit]

theorem toNat_extract_one (v : BitVec n) (start : Nat) (hn : 1 ≤ n) :
    (extract v start 1).toNat = (v.getLsbD start).toNat := by
  rw [toNat_extract v start hn, toNat_getLsbD, Nat.pow_one]

theorem toNat_extract_two (v : BitVec n) (start : Nat) (hn : 2 ≤ n) :
    (extract v start 2).toNat = (v.getLsbD start).toNat + 2 * (v.getLsbD (start + 1)).toNat := by
  have hnext : v.toNat / 2 ^ (start + 1) = v.toNat / 2 ^ start / 2 := by
    rw [Nat.pow_succ, Nat.div_div_eq_div_mul]
  rw [toNat_extract v start hn, toNat_getLsbD, toNat_getLsbD, hnext]
  omega

end RiscvEm
