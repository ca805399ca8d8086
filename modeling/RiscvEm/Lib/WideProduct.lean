import Mathlib.Algebra.Order.Ring.Abs
import Mathlib.Algebra.Order.Ring.Int
import Mathlib.Tactic.LinearCombination
import Mathlib.Tactic.Linarith
import Mathlib.Tactic.Ring

/-!
Products of two words in two words.

The unsigned product is put together from four products of half words, with the carry out
of the middle column. The signed products are the same words with the high one corrected for
each negative operand; they agree with the product up to a multiple of the range of both
words, and a product that fits is then exact.
-/

namespace WideProduct

/-! ### Four products of half words -/

section Columns

variable {B : Nat}

/-- The columns of the schoolbook product: what leaves the middle one is carried up, and
the two lower columns lose nothing else. -/
theorem columns (hB : 0 < B) (p0 p1 p2 p3 : Nat) :
    (p3 + p1 / B + p2 / B + (p0 / B + p1 % B + p2 % B) / B) * (B * B) +
        (p0 + p1 * B + p2 * B) % (B * B) =
      p0 + (p1 + p2) * B + p3 * (B * B) := by
  -- the middle column, its digit and its carry
  generalize hT : p0 / B + p1 % B + p2 % B = T
  have h0 := Nat.mod_add_div p0 B
  have h1 := Nat.mod_add_div p1 B
  have h2 := Nat.mod_add_div p2 B
  have hTsplit := Nat.mod_add_div T B
  have hdigits : p0 % B + T % B * B < B * B := by
    have hlow : p0 % B < B := Nat.mod_lt _ hB
    have hmid : T % B + 1 ≤ B := Nat.mod_lt _ hB
    calc p0 % B + T % B * B < B + T % B * B := Nat.add_lt_add_right hlow _
      _ = (T % B + 1) * B := by ring
      _ ≤ B * B := Nat.mul_le_mul_right B hmid
  have hlower : p0 + p1 * B + p2 * B =
      (B * B) * (p1 / B + p2 / B + T / B) + (p0 % B + T % B * B) := by
    calc p0 + p1 * B + p2 * B
        = (p0 % B + B * (p0 / B)) + (p1 % B + B * (p1 / B)) * B +
            (p2 % B + B * (p2 / B)) * B := by rw [h0, h1, h2]
      _ = p0 % B + (p0 / B + p1 % B + p2 % B) * B + (B * B) * (p1 / B + p2 / B) := by ring
      _ = p0 % B + (T % B + B * (T / B)) * B + (B * B) * (p1 / B + p2 / B) := by
          rw [hT, hTsplit]
      _ = (B * B) * (p1 / B + p2 / B + T / B) + (p0 % B + T % B * B) := by ring
  have hmod : (p0 + p1 * B + p2 * B) % (B * B) = p0 % B + T % B * B := by
    rw [hlower, Nat.mul_add_mod, Nat.mod_eq_of_lt hdigits]
  calc (p3 + p1 / B + p2 / B + T / B) * (B * B) + (p0 + p1 * B + p2 * B) % (B * B)
      = p3 * (B * B) + ((B * B) * (p1 / B + p2 / B + T / B) + (p0 % B + T % B * B)) := by
        rw [hmod]
        ring
    _ = p0 + (p1 + p2) * B + p3 * (B * B) := by
        rw [← hlower]
        ring

theorem halves (B aHi aLo bHi bLo : Nat) :
    aLo * bLo + (aLo * bHi + aHi * bLo) * B + aHi * bHi * (B * B) =
      (aHi * B + aLo) * (bHi * B + bLo) := by ring

theorem split (B a : Nat) : a / B * B + a % B = a := Nat.div_add_mod' a B

theorem middle_lt (p1 p2 : Nat) {p0 : Nat} (hB : 4 ≤ B) (hp0 : p0 < B * B) :
    p0 / B + p1 % B + p2 % B < B * B ∧ (p0 / B + p1 % B + p2 % B) / B < B := by
  have hpos : 0 < B := by omega
  have h0 : p0 / B < B := Nat.div_lt_of_lt_mul hp0
  have h1 : p1 % B < B := Nat.mod_lt _ hpos
  have h2 : p2 % B < B := Nat.mod_lt _ hpos
  have hsum : p0 / B + p1 % B + p2 % B < B * 4 := by omega
  have hle : B * 4 ≤ B * B := Nat.mul_le_mul_left B hB
  exact ⟨by omega, Nat.lt_of_lt_of_le (Nat.div_lt_of_lt_mul hsum) hB⟩

end Columns

/-! ### Signed products -/

section Signed

variable {n : Nat} {a b hi lo : BitVec n} {p : Int}

/-- The two words agree with the integer, up to multiples of their common range. -/
def Agrees (p : Int) (hi lo : BitVec n) : Prop :=
  (2 ^ n * 2 ^ n : Int) ∣ hi.toNat * 2 ^ n + lo.toNat - p

theorem agrees_of_eq (h : hi.toNat * 2 ^ n + lo.toNat = a.toNat * b.toNat) :
    Agrees (a.toNat * b.toNat) hi lo := by
  have hcast : (hi.toNat * 2 ^ n + lo.toNat : Int) = a.toNat * b.toNat := by exact_mod_cast h
  rw [Agrees, hcast, sub_self]
  exact dvd_zero _

/-- A word and its number, or any number that it stands for. -/
theorem dvd_toNat_sub (a b : BitVec n) : (2 ^ n : Int) ∣ (a - b).toNat - (a.toNat - b.toNat) := by
  have hb := b.isLt
  have hcast : ((2 ^ n - b.toNat + a.toNat : Nat) : Int) = 2 ^ n - b.toNat + a.toNat := by
    rw [Nat.cast_add, Nat.cast_sub (Nat.le_of_lt hb)]
    push_cast
    rfl
  rw [BitVec.toNat_sub, Int.natCast_emod, hcast]
  push_cast
  have hmod := Int.emod_add_mul_ediv ((2 : Int) ^ n - b.toNat + a.toNat) (2 ^ n)
  exact ⟨1 - (2 ^ n - b.toNat + a.toNat) / 2 ^ n, by linarith⟩

theorem dvd_toInt_sub_toNat (a : BitVec n) : (2 ^ n : Int) ∣ a.toInt - a.toNat := by
  rw [BitVec.toInt_eq_toNat_cond]
  split
  · rw [sub_self]
    exact dvd_zero _
  · exact ⟨-1, by push_cast; ring⟩

theorem toInt_eq_toNat_sub (a : BitVec n) :
    a.toInt = a.toNat - if a.toInt < 0 then 2 ^ n else 0 := by
  have hlt := a.isLt
  have hcast : (a.toNat : Int) < 2 ^ n := by exact_mod_cast hlt
  rw [BitVec.toInt_eq_toNat_cond]
  by_cases hsmall : 2 * a.toNat < 2 ^ n
  · rw [if_pos hsmall, if_neg (by omega)]
    ring
  · rw [if_neg hsmall]
    push_cast
    rw [if_pos (by linarith)]

/-- Taking a word off the high one takes any number that it stands for off the integer. -/
theorem Agrees.sub (h : Agrees p hi lo) (b : BitVec n) {x : Int}
    (hx : (2 ^ n : Int) ∣ x - b.toNat) : Agrees (p - 2 ^ n * x) (hi - b) lo := by
  obtain ⟨k, hk⟩ := h
  obtain ⟨j, hj⟩ := dvd_toNat_sub hi b
  obtain ⟨i, hi'⟩ := hx
  have hhigh : ((hi - b).toNat : Int) = 2 ^ n * j + (hi.toNat - b.toNat) := by linarith
  have hword : x = 2 ^ n * i + b.toNat := by linarith
  refine ⟨j + k + i, ?_⟩
  rw [hhigh, hword]
  linear_combination hk

theorem Agrees.signed_left (h : Agrees (a.toNat * p) hi lo) (hb : (2 ^ n : Int) ∣ p - b.toNat) :
    Agrees (a.toInt * p) (if a.toInt < 0 then hi - b else hi) lo := by
  have hvalue := toInt_eq_toNat_sub a
  by_cases hneg : a.toInt < 0
  · rw [if_pos hneg] at hvalue ⊢
    have hsub := h.sub b hb
    have heq : a.toNat * p - 2 ^ n * p = a.toInt * p := by
      rw [hvalue]
      ring
    rwa [heq] at hsub
  · rw [if_neg hneg, sub_zero] at hvalue
    rw [if_neg hneg, hvalue]
    exact h

theorem Agrees.signed (h : Agrees (a.toNat * b.toNat) hi lo) :
    Agrees (a.toInt * b.toInt)
      (if b.toInt < 0 then (if a.toInt < 0 then hi - b else hi) - a
        else if a.toInt < 0 then hi - b else hi) lo := by
  have hleft := h.signed_left (by rw [sub_self]; exact dvd_zero _)
  rw [mul_comm] at hleft
  have hboth := hleft.signed_left (dvd_toInt_sub_toNat a)
  rwa [mul_comm] at hboth

/-- Half the range of one word times the range of the other. -/
theorem abs_two_mul_lt {x y : Int} (hx : |2 * x| ≤ 2 ^ n) (hy : |y| < 2 ^ n) :
    |2 * (x * y)| < 2 ^ n * 2 ^ n := by
  have hpow : (0 : Int) < 2 ^ n := by positivity
  calc |2 * (x * y)| = |2 * x| * |y| := by rw [← abs_mul, mul_assoc]
    _ ≤ 2 ^ n * |y| := mul_le_mul_of_nonneg_right hx (abs_nonneg y)
    _ < 2 ^ n * 2 ^ n := mul_lt_mul_of_pos_left hy hpow

theorem abs_two_mul_toInt_le (a : BitVec n) : |2 * a.toInt| ≤ 2 ^ n := by
  have hmin : -2 ^ n ≤ 2 * a.toInt := BitVec.le_two_mul_toInt
  have hmax : 2 * a.toInt ≤ 2 ^ n - 1 := BitVec.two_mul_toInt_le
  exact abs_le.mpr ⟨by linarith, by linarith⟩

theorem abs_toInt_lt (a : BitVec n) : |a.toInt| < 2 ^ n := by
  have hpow : (0 : Int) < 2 ^ n := by positivity
  have hle := abs_two_mul_toInt_le a
  rw [abs_mul, abs_two] at hle
  have hpos := abs_nonneg a.toInt
  linarith

theorem abs_toNat_lt (a : BitVec n) : |(a.toNat : Int)| < 2 ^ n := by
  rw [Nat.abs_cast]
  exact_mod_cast a.isLt

/-- A product that fits the two words is exact, with the high word signed. -/
theorem Agrees.exact (hn : 0 < n) (h : Agrees p hi lo) (hfits : |2 * p| < 2 ^ n * 2 ^ n) :
    hi.toInt * 2 ^ n + lo.toNat = p := by
  obtain ⟨k, hk⟩ := h
  obtain ⟨j, hj⟩ := dvd_toInt_sub_toNat hi
  have hlo : (lo.toNat : Int) < 2 ^ n := by exact_mod_cast lo.isLt
  have hlo' : (0 : Int) ≤ lo.toNat := Int.natCast_nonneg _
  have hpow : (0 : Int) < 2 ^ n := by positivity
  have hmin : -2 ^ n ≤ 2 * hi.toInt := BitVec.le_two_mul_toInt
  have hmax : 2 * hi.toInt ≤ 2 ^ n - 2 := by
    have heven : (2 : Int) ^ n = 2 * 2 ^ (n - 1) := by rw [← pow_succ', Nat.sub_add_cancel hn]
    have hle : 2 * hi.toInt ≤ 2 ^ n - 1 := BitVec.two_mul_toInt_le
    omega
  have hdvd : (2 ^ n * 2 ^ n : Int) ∣ hi.toInt * 2 ^ n + lo.toNat - p := by
    refine ⟨k + j, ?_⟩
    have hword : hi.toInt = 2 ^ n * j + hi.toNat := by linarith
    rw [hword]
    linear_combination hk
  obtain ⟨hlow, hhigh⟩ := abs_lt.mp hfits
  -- both are within half the range of the words, so they differ by less than the range
  have hupper : 2 * hi.toInt * 2 ^ n ≤ (2 ^ n - 2) * 2 ^ n :=
    mul_le_mul_of_nonneg_right hmax hpow.le
  have hlower : -2 ^ n * 2 ^ n ≤ 2 * hi.toInt * 2 ^ n :=
    mul_le_mul_of_nonneg_right hmin hpow.le
  have habs : |hi.toInt * 2 ^ n + lo.toNat - p| < 2 ^ n * 2 ^ n := by
    rw [abs_lt]
    exact ⟨by linarith, by linarith⟩
  have hzero := Int.eq_zero_of_abs_lt_dvd hdvd habs
  linarith

theorem toInt_eq_ediv (h : hi.toInt * 2 ^ n + lo.toNat = p) : hi.toInt = p / 2 ^ n := by
  have hpow : (2 : Int) ^ n ≠ 0 := by positivity
  have hlo : (lo.toNat : Int) < 2 ^ n := by exact_mod_cast lo.isLt
  rw [← h, Int.add_comm, Int.add_mul_ediv_right _ _ hpow,
    Int.ediv_eq_zero_of_lt (Int.natCast_nonneg _) hlo, zero_add]

theorem toNat_eq_div {p : Nat} (h : hi.toNat * 2 ^ n + lo.toNat = p) : hi.toNat = p / 2 ^ n := by
  rw [← h, Nat.add_comm, Nat.add_mul_div_right _ _ (Nat.two_pow_pos n), Nat.div_eq_of_lt lo.isLt,
    Nat.zero_add]

end Signed

end WideProduct
