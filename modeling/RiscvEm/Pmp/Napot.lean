import RiscvEm.HelperSpec
import RiscvEm.Pmp.Basic

/-!
The decoding of NAPOT address registers: the trailing ones give the size, the bits
above them the base. For the sizes whose shift fits an `int` it undoes the encoding.
-/

namespace RiscvEm

variable {w : Xlen} {n : Nat}

/-- The number of ones below the lowest zero of a word. -/
def trailingOnes (v : BitVec n) : Nat :=
  ((List.range n).find? fun i => !v.getLsbD i).getD n

theorem trailingOnes_spec {v : BitVec n} (hv : v ≠ BitVec.allOnes n) :
    trailingOnes v < n ∧ v.getLsbD (trailingOnes v) = false ∧
      (∀ j, j < trailingOnes v → v.getLsbD j = true) ∧
      findFirstBitSet (~~~v) = trailingOnes v + 1 := by
  have hzero : ∃ i, i < n ∧ v.getLsbD i = false := by
    by_contra hnone
    apply hv
    apply BitVec.eq_of_getLsbD_eq
    intro i hi
    rw [BitVec.getLsbD_allOnes, decide_eq_true hi]
    by_contra hbit
    exact hnone ⟨i, hi, Bool.eq_false_iff.mpr hbit⟩
  cases hfind : (List.range n).find? fun i => !v.getLsbD i with
  | none =>
      obtain ⟨i, hi, hbit⟩ := hzero
      have hset := List.find?_range_eq_none.mp hfind i hi
      rw [hbit] at hset
      cases hset
  | some k =>
      have hk : trailingOnes v = k := by
        rw [trailingOnes, hfind]
        rfl
      obtain ⟨hbit, hmem, hbefore⟩ := List.find?_range_eq_some.mp hfind
      have hkn := List.mem_range.mp hmem
      rw [hk]
      refine ⟨hkn, by simpa using hbit, fun j hj => by simpa using hbefore j hj, ?_⟩
      have hnot : (List.range n).find? (~~~v).getLsbD = some k := by
        rw [List.find?_range_eq_some]
        refine ⟨?_, hmem, fun j hj => ?_⟩
        · rw [BitVec.getLsbD_not, decide_eq_true hkn]
          exact hbit
        · rw [BitVec.getLsbD_not, decide_eq_true (by omega : j < n)]
          exact hbefore j hj
      rw [findFirstBitSet, hnot]

theorem toNat_mod_trailingOnes {v : BitVec n} (hv : v ≠ BitVec.allOnes n) :
    v.toNat % 2 ^ (trailingOnes v + 1) = 2 ^ trailingOnes v - 1 := by
  obtain ⟨-, hbit, hbelow, -⟩ := trailingOnes_spec hv
  apply Nat.eq_of_testBit_eq
  intro j
  rw [Nat.testBit_mod_two_pow, Nat.testBit_two_pow_sub_one]
  rcases Nat.lt_trichotomy j (trailingOnes v) with hlt | rfl | hgt
  · have hj : v.toNat.testBit j = true := hbelow j hlt
    rw [hj, decide_eq_true hlt, decide_eq_true (by omega : j < trailingOnes v + 1)]
    rfl
  · have hj : v.toNat.testBit (trailingOnes v) = false := hbit
    rw [hj, Bool.and_false, decide_eq_false (Nat.lt_irrefl _)]
  · rw [decide_eq_false (by omega : ¬ j < trailingOnes v + 1),
      decide_eq_false (by omega : ¬ j < trailingOnes v)]
    rfl

/-! ### The routines of the source -/

/-- The size that the shift of an `int` gives, sign-extended to an address. -/
def shiftedSize (w : Xlen) (count : Nat) : Nat :=
  if count % 32 = 31 then 2 ^ w.bits - 2 ^ 31 else 2 ^ (count % 32)

theorem shiftedSize_lt (w : Xlen) (count : Nat) : shiftedSize w count < 2 ^ w.bits := by
  have hlarge : 2 ^ 32 ≤ 2 ^ w.bits := w.two_pow_le
  have hcount := Nat.mod_lt count (by decide : 0 < 32)
  rw [shiftedSize]
  split
  · omega
  · have hpow : 2 ^ (count % 32) < 2 ^ 32 := Nat.pow_lt_pow_right (by decide) hcount
    omega

theorem toNat_intShift_signExtend (count : Nat) :
    ((intShift count).signExtend w.bits).toNat = shiftedSize w count := by
  have hlarge : 2 ^ 32 ≤ 2 ^ w.bits := w.two_pow_le
  have hcount := Nat.mod_lt count (by decide : 0 < 32)
  have hone : (1#32).toNat = 1 := rfl
  have hpow : 2 ^ (count % 32) < 2 ^ 32 := Nat.pow_lt_pow_right (by decide) hcount
  have hval : (intShift count).toNat = 2 ^ (count % 32) := by
    rw [intShift, BitVec.toNat_shiftLeft, Nat.shiftLeft_eq, hone, Nat.one_mul]
    exact Nat.mod_eq_of_lt hpow
  have hmsb : (intShift count).msb = decide (count % 32 = 31) := by
    rw [BitVec.msb_eq_decide, hval, decide_eq_decide]
    constructor
    · intro hle
      by_contra hne
      have hlt : 2 ^ (count % 32) < 2 ^ 31 := Nat.pow_lt_pow_right (by decide) (by omega)
      omega
    · intro heq
      exact Nat.pow_le_pow_right (by decide) (Nat.le_of_eq heq.symm)
  rw [BitVec.toNat_signExtend, BitVec.toNat_setWidth, hval, hmsb, shiftedSize,
    Nat.mod_eq_of_lt (by omega)]
  by_cases htop : count % 32 = 31
  · rw [if_pos htop, decide_eq_true htop, if_pos rfl, htop]
    omega
  · rw [if_neg htop, decide_eq_false htop, if_neg Bool.false_ne_true, Nat.add_zero]

theorem shiftedSize_eq_iff {count : Nat} (hcount : count < w.bits) :
    shiftedSize w count = 2 ^ count ↔ w = .rv32 ∨ count < 31 := by
  rw [shiftedSize]
  cases w with
  | rv32 =>
      have hmod : count % 32 = count := Nat.mod_eq_of_lt hcount
      rw [hmod]
      refine iff_of_true ?_ (.inl rfl)
      split
      case isTrue heq =>
        rw [heq]
        rfl
      case isFalse => rfl
  | rv64 =>
      rw [or_iff_right (by decide : ¬ Xlen.rv64 = .rv32)]
      constructor
      · intro heq
        by_contra hlarge
        have hlarge := Nat.le_of_not_lt hlarge
        split at heq
        case isTrue htop =>
          have hcases : count = 31 ∨ count = 63 := by
            have hbits : count < 64 := hcount
            omega
          rcases hcases with rfl | rfl
          · exact absurd heq (by decide)
          · exact absurd heq (by decide)
        case isFalse htop =>
          have hless : 2 ^ (count % 32) < 2 ^ count :=
            Nat.pow_lt_pow_right (by decide) (by omega)
          omega
      · intro hsmall
        rw [Nat.mod_eq_of_lt (by omega), if_neg (by omega)]

theorem toNat_napotSize {p : RvUintXlen w} (hp : p ≠ BitVec.allOnes w.bits) :
    (getPmpNapotSizeFromPmpaddr p).toNat = shiftedSize w (trailingOnes p + 3) := by
  obtain ⟨-, -, -, hfirst⟩ := trailingOnes_spec hp
  rw [getPmpNapotSizeFromPmpaddr, hfirst, toNat_intShift_signExtend]

/-- The start that is made of a NAPOT register: the ones of the shifted size are taken off. -/
def shiftedStart (p : RvUintXlen w) : Nat :=
  let size := shiftedSize w (trailingOnes p + 3)
  let ones := if size = 1 then 2 ^ (w.bits - 2) - 1 else (size / 2 - 1) / 4
  4 * (2 ^ w.bits - ones + p.toNat) % 2 ^ w.bits

theorem toNat_napotAddr {p : RvUintXlen w} (hp : p ≠ BitVec.allOnes w.bits) :
    (getPmpNapotAddrFromPmpaddr p).toNat = shiftedStart p := by
  have hlarge : 2 ^ 32 ≤ 2 ^ w.bits := w.two_pow_le
  have hquarter : 2 ^ w.bits = 4 * 2 ^ (w.bits - 2) := by
    cases w with
    | rv32 | rv64 => rfl
  have hsize := toNat_napotSize hp
  have htwo : (2 : RvUintXlen w).toNat = 2 := w.toNat_ofNat (by decide)
  have hone : (1 : RvUintXlen w).toNat = 1 := w.toNat_ofNat (by decide)
  have hhalf : (getPmpNapotSizeFromPmpaddr p / 2).toNat =
      shiftedSize w (trailingOnes p + 3) / 2 := by
    rw [BitVec.toNat_udiv, hsize, htwo]
  have hmask : ((getPmpNapotSizeFromPmpaddr p / 2 - 1) >>> 2).toNat =
      if shiftedSize w (trailingOnes p + 3) = 1 then 2 ^ (w.bits - 2) - 1
      else (shiftedSize w (trailingOnes p + 3) / 2 - 1) / 4 := by
    have hlt := shiftedSize_lt w (trailingOnes p + 3)
    have hpos : 0 < shiftedSize w (trailingOnes p + 3) := by
      rw [shiftedSize]
      split
      · omega
      · exact Nat.pow_pos (by decide)
    rw [BitVec.toNat_ushiftRight, BitVec.toNat_sub, hhalf, hone, Nat.shiftRight_eq_div_pow]
    generalize shiftedSize w (trailingOnes p + 3) = size at hlt hpos ⊢
    split
    · rw [Nat.mod_eq_of_lt (by omega)]
      omega
    · have hsum : 2 ^ w.bits - 1 + size / 2 = 2 ^ w.bits + (size / 2 - 1) := by omega
      rw [hsum, Nat.add_mod_left, Nat.mod_eq_of_lt (by omega)]
  show (((p - (getPmpNapotSizeFromPmpaddr p / 2 - 1) >>> 2)) <<< 2).toNat = _
  rw [BitVec.toNat_shiftLeft, Nat.shiftLeft_eq, BitVec.toNat_sub, hmask, shiftedStart,
    Nat.mod_mul_mod, Nat.mul_comm]

/-- The base is the register without its trailing ones, where the size is decoded as the
register says. -/
theorem toNat_napotAddr_of_size {p : RvUintXlen w} (hp : p ≠ BitVec.allOnes w.bits)
    (hsize : (getPmpNapotSizeFromPmpaddr p).toNat = 2 ^ (trailingOnes p + 3)) :
    (getPmpNapotAddrFromPmpaddr p).toNat =
      4 * (p.toNat / 2 ^ (trailingOnes p + 1) * 2 ^ (trailingOnes p + 1)) % 2 ^ w.bits := by
  have hmod := toNat_mod_trailingOnes hp
  have hlarge : 2 ^ 32 ≤ 2 ^ w.bits := w.two_pow_le
  generalize trailingOnes p = k at *
  have hk : 2 ^ (k + 3) = 8 * 2 ^ k := by rw [Nat.pow_add, Nat.mul_comm]
  have hk1 : 2 ^ (k + 1) = 2 * 2 ^ k := by rw [Nat.pow_add, Nat.mul_comm]
  have hpos : 0 < 2 ^ k := Nat.pow_pos (by decide)
  have htwo : (2 : RvUintXlen w).toNat = 2 := w.toNat_ofNat (by decide)
  have hone : (1 : RvUintXlen w).toNat = 1 := w.toNat_ofNat (by decide)
  have hhalf : (getPmpNapotSizeFromPmpaddr p / 2).toNat = 4 * 2 ^ k := by
    rw [BitVec.toNat_udiv, hsize, htwo]
    omega
  have hmask : ((getPmpNapotSizeFromPmpaddr p / 2 - 1) >>> 2).toNat = 2 ^ k - 1 := by
    rw [BitVec.toNat_ushiftRight, BitVec.toNat_sub_of_le
      (BitVec.le_def.mpr (by rw [hhalf, hone]; omega)), hhalf, hone, Nat.shiftRight_eq_div_pow]
    omega
  have hsplit := Nat.div_add_mod p.toNat (2 ^ (k + 1))
  rw [hmod, Nat.mul_comm] at hsplit
  have hsub : (p - (getPmpNapotSizeFromPmpaddr p / 2 - 1) >>> 2).toNat =
      p.toNat / 2 ^ (k + 1) * 2 ^ (k + 1) := by
    rw [BitVec.toNat_sub_of_le (BitVec.le_def.mpr (by rw [hmask]; omega)), hmask]
    omega
  show (((p - (getPmpNapotSizeFromPmpaddr p / 2 - 1) >>> 2)) <<< 2).toNat = _
  rw [BitVec.toNat_shiftLeft, hsub, Nat.shiftLeft_eq, Nat.mul_comm _ (2 ^ 2)]

/-! ### Encoded regions -/

def pmpSetNapotAddr (base size : RvUintXlen w) : RvUintXlen w := (base + (size / 2 - 1)) >>> 2

structure NapotDecoded (k : Nat) (base : RvUintXlen w) : Prop where
  size : getPmpNapotSizeFromPmpaddr (pmpSetNapotAddr base (BitVec.ofNat w.bits (2 ^ k))) =
    BitVec.ofNat w.bits (2 ^ k)
  addr : getPmpNapotAddrFromPmpaddr (pmpSetNapotAddr base (BitVec.ofNat w.bits (2 ^ k))) = base

/-- The position of the lowest zero is the number of the ones below it. -/
theorem trailingOnes_eq {v : BitVec n} {j : Nat} (hj : j < n)
    (hmod : v.toNat % 2 ^ (j + 1) = 2 ^ j - 1) : v ≠ BitVec.allOnes n ∧ trailingOnes v = j := by
  have hbits (i : Nat) (hi : i < j + 1) : v.getLsbD i = decide (i < j) := by
    have htest : (v.toNat % 2 ^ (j + 1)).testBit i = v.toNat.testBit i := by
      rw [Nat.testBit_mod_two_pow, decide_eq_true hi, Bool.true_and]
    rw [hmod, Nat.testBit_two_pow_sub_one] at htest
    exact htest.symm
  have hzero : v.getLsbD j = false := by
    rw [hbits j (Nat.lt_succ_self j)]
    exact decide_eq_false (Nat.lt_irrefl j)
  have hne : v ≠ BitVec.allOnes n := by
    rintro rfl
    rw [BitVec.getLsbD_allOnes, decide_eq_true hj] at hzero
    cases hzero
  obtain ⟨-, hfirst, hbelow, -⟩ := trailingOnes_spec hne
  refine ⟨hne, ?_⟩
  rcases Nat.lt_trichotomy (trailingOnes v) j with hlt | heq | hgt
  · rw [hbits _ (by omega), decide_eq_true hlt] at hfirst
    cases hfirst
  · exact heq
  · rw [hbelow j hgt] at hzero
    cases hzero

/-- The encoded register: the base above a zero, and the ones below it. -/
theorem toNat_pmpSetNapotAddr {k m : Nat} {base : RvUintXlen w} (hk : k + 3 < w.bits)
    (hbase : base.toNat = m * 2 ^ (k + 3)) :
    (pmpSetNapotAddr base (BitVec.ofNat w.bits (2 ^ (k + 3)))).toNat =
      m * 2 ^ (k + 1) + (2 ^ k - 1) := by
  have hlarge : 2 ^ 32 ≤ 2 ^ w.bits := w.two_pow_le
  have hpow : 2 ^ (k + 3) < 2 ^ w.bits := Nat.pow_lt_pow_right (by decide) hk
  have hsplit : 2 ^ w.bits = 2 ^ (w.bits - (k + 3)) * 2 ^ (k + 3) := by
    rw [← Nat.pow_add, Nat.sub_add_cancel (Nat.le_of_lt hk)]
  have hpos : 0 < 2 ^ (k + 3) := Nat.pow_pos (by decide)
  -- a multiple of the size below the top leaves room for the whole region
  have hroom : m * 2 ^ (k + 3) + 2 ^ (k + 3) ≤ 2 ^ w.bits := by
    have hlt := base.isLt
    rw [hbase, hsplit] at hlt
    have hm : m + 1 ≤ 2 ^ (w.bits - (k + 3)) := Nat.lt_of_mul_lt_mul_right hlt
    calc m * 2 ^ (k + 3) + 2 ^ (k + 3) = (m + 1) * 2 ^ (k + 3) := (Nat.succ_mul _ _).symm
      _ ≤ 2 ^ (w.bits - (k + 3)) * 2 ^ (k + 3) := Nat.mul_le_mul_right _ hm
      _ = 2 ^ w.bits := hsplit.symm
  have htwo : (2 : RvUintXlen w).toNat = 2 := w.toNat_ofNat (by decide)
  have hone : (1 : RvUintXlen w).toNat = 1 := w.toNat_ofNat (by decide)
  have hk3 : 2 ^ (k + 3) = 8 * 2 ^ k := by rw [Nat.pow_add, Nat.mul_comm]
  have hk1 : 2 ^ (k + 1) = 2 * 2 ^ k := by rw [Nat.pow_add, Nat.mul_comm]
  have hmul : m * 2 ^ (k + 3) = 4 * (m * 2 ^ (k + 1)) := by
    rw [hk3, hk1, Nat.mul_left_comm m 8, Nat.mul_left_comm m 2]
    omega
  have hhalf : (BitVec.ofNat w.bits (2 ^ (k + 3)) / 2).toNat = 4 * 2 ^ k := by
    rw [BitVec.toNat_udiv, BitVec.toNat_ofNat, Nat.mod_eq_of_lt hpow, htwo]
    omega
  have hlow : (BitVec.ofNat w.bits (2 ^ (k + 3)) / 2 - 1).toNat = 4 * 2 ^ k - 1 := by
    rw [BitVec.toNat_sub_of_le (BitVec.le_def.mpr (by rw [hhalf, hone]; omega)), hhalf, hone]
  rw [pmpSetNapotAddr, BitVec.toNat_ushiftRight, BitVec.toNat_add, hlow, hbase,
    Nat.mod_eq_of_lt (by omega), Nat.shiftRight_eq_div_pow]
  omega

/-- Decoding undoes encoding on the 32-bit build, and on the 64-bit build for the sizes up
to `2 ^ 30`. -/
theorem napotDecoded_iff {k : Nat} (hk : 3 ≤ k) (hk' : k < w.bits) {base : RvUintXlen w}
    (hbase : 2 ^ k ∣ base.toNat) : NapotDecoded k base ↔ w = .rv32 ∨ k < 31 := by
  obtain ⟨j, rfl⟩ : ∃ j, k = j + 3 := ⟨k - 3, by omega⟩
  obtain ⟨m, hm⟩ := hbase
  have hpos : 0 < 2 ^ j := Nat.pow_pos (by decide)
  have hk1 : 2 ^ (j + 1) = 2 * 2 ^ j := by rw [Nat.pow_add, Nat.mul_comm]
  have hk3 : 2 ^ (j + 3) = 4 * 2 ^ (j + 1) := by rw [Nat.pow_add, Nat.pow_add]; omega
  have hpow : 2 ^ (j + 3) < 2 ^ w.bits := Nat.pow_lt_pow_right (by decide) hk'
  have hencoded := toNat_pmpSetNapotAddr (m := m) hk' (by rw [hm, Nat.mul_comm])
  obtain ⟨hne, hones⟩ := trailingOnes_eq (v := pmpSetNapotAddr base (BitVec.ofNat w.bits _))
    (by omega : j < w.bits) (by rw [hencoded, Nat.mul_add_mod_of_lt (by omega)])
  have hsize := toNat_napotSize hne
  rw [hones] at hsize
  rw [← shiftedSize_eq_iff hk', ← hsize]
  constructor
  · intro h
    rw [h.size, BitVec.toNat_ofNat, Nat.mod_eq_of_lt hpow]
  · intro hsize
    have habove : 4 * ((m * 2 ^ (j + 1) + (2 ^ j - 1)) / 2 ^ (j + 1) * 2 ^ (j + 1)) =
        base.toNat := by
      rw [Nat.mul_comm m, Nat.mul_add_div (by omega), Nat.div_eq_of_lt (by omega), Nat.add_zero,
        hm, hk3, Nat.mul_assoc, Nat.mul_comm m]
    have haddr := toNat_napotAddr_of_size hne (by rw [hsize, hones])
    refine ⟨BitVec.eq_of_toNat_eq ?_, BitVec.eq_of_toNat_eq ?_⟩
    · rw [hsize, BitVec.toNat_ofNat, Nat.mod_eq_of_lt hpow]
    · rw [haddr, hones, hencoded, habove, Nat.mod_eq_of_lt base.isLt]

/-- Four kibibytes from `0x1000` on. -/
theorem napotDecoded_iff_page : NapotDecoded (w := .rv64) 12 0x1000 :=
  (napotDecoded_iff (by decide) (by decide) (by decide)).mpr (.inr (by decide))

/-- The lower four gibibytes are not decoded as they were encoded. -/
theorem four_gibibytes_not_decoded :
    ¬ ∀ (w : Xlen) (k : Nat) (base : RvUintXlen w), 3 ≤ k → k < w.bits → 2 ^ k ∣ base.toNat →
      base.toNat + 2 ^ k ≤ 2 ^ w.bits → NapotDecoded k base := by
  intro h
  have hsize := (h .rv64 32 0 (by decide) (by decide) (by decide) (by decide)).size
  exact absurd hsize (by decide)

end RiscvEm
