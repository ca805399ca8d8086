import RiscvEm.Helper
import RiscvEm.Soc.Bus

/-!
Registers as bytes: the devices copy the bytes of an access into and out of arrays of
words.
-/

namespace RiscvEm

variable {k : Nat}

def wordBytes (words : Nat → BitVec (8 * k)) : Memory :=
  fun a => BitVec.ofNat 8 ((words (a / k)).toNat / 256 ^ (a % k))

/-- The words of an array of bytes. -/
def bytesWords (k : Nat) (mem : Memory) : Nat → BitVec (8 * k) :=
  fun i => BitVec.ofNat (8 * k) (leNat ((List.range k).map fun j => mem (k * i + j)))

def writeWords (words : Nat → BitVec (8 * k)) (address : Nat) (value : List Byte) (len : Nat) :
    Nat → BitVec (8 * k) :=
  bytesWords k ((wordBytes words).write address value len)

theorem leBytes_eq_map (k v : Nat) :
    leBytes k v = (List.range k).map fun j => BitVec.ofNat 8 (v / 256 ^ j) := by
  induction k generalizing v with
  | zero => rfl
  | succ k ih =>
      rw [leBytes, ih, List.range_succ_eq_map, List.map_cons, List.map_map, Nat.pow_zero,
        Nat.div_one]
      congr 1
      refine List.map_congr_left fun j _ => ?_
      rw [Function.comp_apply, Nat.div_div_eq_div_mul, Nat.pow_succ']

theorem map_wordBytes (hk : 0 < k) (words : Nat → BitVec (8 * k)) (i : Nat) :
    ((List.range k).map fun j => wordBytes words (k * i + j)) = leBytes k (words i).toNat := by
  rw [leBytes_eq_map]
  refine List.map_congr_left fun j hj => ?_
  have hjk : j < k := List.mem_range.mp hj
  rw [wordBytes, Nat.mul_add_div hk, Nat.div_eq_of_lt hjk, Nat.add_zero, Nat.mul_add_mod,
    Nat.mod_eq_of_lt hjk]

theorem leLoad_leBytes (k v : Nat) : leLoad k (leBytes k v) = BitVec.ofNat (8 * k) v := by
  have hpow : 2 ^ (8 * k) = 256 ^ k := Nat.pow_mul 2 8 k
  refine BitVec.eq_of_toNat_eq ?_
  rw [leLoad, List.take_of_length_le (Nat.le_of_eq (length_leBytes k v)), leNat_leBytes,
    BitVec.toNat_ofNat, BitVec.toNat_ofNat, hpow, Nat.mod_mod]

theorem ofNat_leNat_word (v : BitVec (8 * k)) :
    BitVec.ofNat (8 * k) (leNat (leBytes k v.toNat)) = v := by
  have hpow : 256 ^ k = 2 ^ (8 * k) := by
    rw [Nat.pow_mul]
  rw [leNat_leBytes, hpow, Nat.mod_eq_of_lt v.isLt, BitVec.ofNat_toNat, BitVec.setWidth_eq]

theorem wordBytes_bytesWords (hk : 0 < k) (mem : Memory) : wordBytes (bytesWords k mem) = mem := by
  funext a
  have hlength : ((List.range k).map fun j => mem (k * (a / k) + j)).length = k := by
    rw [List.length_map, List.length_range]
  have hbytes : ((List.range k).map fun j => wordBytes (bytesWords k mem) (k * (a / k) + j)) =
      (List.range k).map fun j => mem (k * (a / k) + j) := by
    have hlt : leNat ((List.range k).map fun j => mem (k * (a / k) + j)) < 2 ^ (8 * k) := by
      have hbound := leNat_lt ((List.range k).map fun j => mem (k * (a / k) + j))
      rwa [hlength, show 256 ^ k = 2 ^ (8 * k) from (Nat.pow_mul 2 8 k).symm] at hbound
    rw [map_wordBytes hk, bytesWords, BitVec.toNat_ofNat, Nat.mod_eq_of_lt hlt]
    conv_rhs => rw [← leBytes_leNat ((List.range k).map _), hlength]
  have hbyte := List.map_inj_left.mp hbytes (a % k) (List.mem_range.mpr (Nat.mod_lt a hk))
  rwa [Nat.div_add_mod] at hbyte

/-- A word outside the bytes that are written keeps its value. -/
theorem writeWords_of_disjoint (hk : 0 < k) {words : Nat → BitVec (8 * k)} {address len i : Nat}
    {value : List Byte} (h : k * i + k ≤ address ∨ address + len ≤ k * i) :
    writeWords words address value len i = words i := by
  have hbytes :
      ((List.range k).map fun j => (wordBytes words).write address value len (k * i + j)) =
        (List.range k).map fun j => wordBytes words (k * i + j) := by
    refine List.map_congr_left fun j hj => ?_
    have hjk : j < k := List.mem_range.mp hj
    exact if_neg (by omega)
  rw [writeWords, bytesWords, hbytes, map_wordBytes hk, ofNat_leNat_word]

theorem writeWords_aligned (hk : 0 < k) (words : Nat → BitVec (8 * k)) (i : Nat)
    {value : List Byte} (hlen : value.length = k) :
    writeWords words (k * i) value k = Function.update words i (leLoad k value) := by
  funext j
  by_cases hj : j = i
  · subst hj
    rw [Function.update_self, writeWords, bytesWords, (wordBytes words).map_write (k * j) hlen,
      leLoad, List.take_of_length_le (Nat.le_of_eq hlen)]
  · rw [Function.update_of_ne hj]
    refine writeWords_of_disjoint hk ?_
    rcases Nat.lt_or_gt_of_ne hj with h | h
    · left
      calc k * j + k = k * (j + 1) := (Nat.mul_succ k j).symm
        _ ≤ k * i := Nat.mul_le_mul_left k h
    · right
      calc k * i + k = k * (i + 1) := (Nat.mul_succ k i).symm
        _ ≤ k * j := Nat.mul_le_mul_left k h

theorem read_aligned (hk : 0 < k) (words : Nat → BitVec (8 * k)) (i : Nat) (value : List Byte) :
    (wordBytes words).read (k * i) value k = leBytes k (words i).toNat ++ value.drop k := by
  rw [Memory.read, map_wordBytes hk]

end RiscvEm
