import RiscvEm.Types

/-!
The helper macros and inline functions of `riscv_helper.h` and
`riscv_xlen_specifics.h`.
-/

namespace RiscvEm

variable {w : Xlen} {n : Nat}

def checkBit (v : BitVec n) (nbit : Nat) : Bool := (v &&& (1#n <<< nbit)) != 0#n

/-- `CLEAR_BIT`. The mask is an `int` in the source; its sign extension sets
the high bits, so that it clears one bit at either width. -/
def clearBit (v : BitVec n) (nbit : Nat) : BitVec n := v &&& ~~~(1#n <<< nbit)

def assignXlenBit (outVar : BitVec n) (nbit : Nat) (bitValue : BitVec n) : BitVec n :=
  (outVar &&& ~~~(1#n <<< nbit)) ||| ((bitValue &&& 1#n) <<< nbit)

def assignXlenValueWithinReg (outVar : BitVec n) (nbit : Nat) (value mask : BitVec n) :
    BitVec n :=
  (outVar &&& ~~~(mask <<< nbit)) ||| ((value &&& mask) <<< nbit)

/-- `extract8`, `extract32` and `extractxlen`, at the width of the value. -/
def extract (value : BitVec n) (start length : Nat) : BitVec n :=
  (value >>> start) &&& (BitVec.allOnes n >>> (n - length))

/-- `__builtin_ffsl`: one more than the index of the lowest set bit, 0 if there
is none. -/
def findFirstBitSet (v : BitVec n) : Nat :=
  match (List.range n).find? v.getLsbD with
  | some i => i + 1
  | none => 0

/-- `1 << count` on an `int`. A count of 32 or more is undefined in C; the
host's shift instruction uses the low five bits of the count. -/
def intShift (count : Nat) : BitVec 32 := 1#32 <<< (count % 32)

/-- `GEN_SIGNEX_FUNC`: a signed bit-field of `bit + 1` bits. -/
def signexBit (bit : Nat) (input : BitVec n) : BitVec n :=
  (input.setWidth (bit + 1)).signExtend n

/-- The schoolbook product on half words shared by `umul64wide` and
`umul32wide`; the pair is `(hi, lo)`. -/
def umulWide (half : Nat) (a b : BitVec n) : BitVec n × BitVec n :=
  let low (v : BitVec n) : BitVec n := (v.setWidth half).setWidth n
  let aLo := low a
  let aHi := a >>> half
  let bLo := low b
  let bHi := b >>> half
  let p0 := aLo * bLo
  let p1 := aLo * bHi
  let p2 := aHi * bLo
  let p3 := aHi * bHi
  let cy := low ((p0 >>> half + low p1 + low p2) >>> half)
  (p3 + p1 >>> half + p2 >>> half + cy, p0 + p1 <<< half + p2 <<< half)

/-- The signed product from the unsigned one, shared by `mul64wide` and
`mul32wide`. -/
def mulWide (half : Nat) (a b : BitVec n) : BitVec n × BitVec n :=
  let (hi, lo) := umulWide half a b
  let hi := if a.toInt < 0 then hi - b else hi
  let hi := if b.toInt < 0 then hi - a else hi
  (hi, lo)

/-- The product of a signed and an unsigned word, shared by `mulhsu64wide` and
`mulhsu32wide`. -/
def mulhsuWide (half : Nat) (a b : BitVec n) : BitVec n × BitVec n :=
  let (hi, lo) := umulWide half a b
  (if a.toInt < 0 then hi - b else hi, lo)

def umul64wide : BitVec 64 → BitVec 64 → BitVec 64 × BitVec 64 := umulWide 32

def umul32wide : BitVec 32 → BitVec 32 → BitVec 32 × BitVec 32 := umulWide 16

def mul64wide : BitVec 64 → BitVec 64 → BitVec 64 × BitVec 64 := mulWide 32

def mul32wide : BitVec 32 → BitVec 32 → BitVec 32 × BitVec 32 := mulWide 16

def mulhsu64wide : BitVec 64 → BitVec 64 → BitVec 64 × BitVec 64 := mulhsuWide 32

def mulhsu32wide : BitVec 32 → BitVec 32 → BitVec 32 × BitVec 32 := mulhsuWide 16

def umul : (w : Xlen) → RvUintXlen w → RvUintXlen w → RvUintXlen w × RvUintXlen w
  | .rv32 => umul32wide
  | .rv64 => umul64wide

def mul : (w : Xlen) → RvUintXlen w → RvUintXlen w → RvUintXlen w × RvUintXlen w
  | .rv32 => mul32wide
  | .rv64 => mul64wide

def mulhsu : (w : Xlen) → RvUintXlen w → RvUintXlen w → RvUintXlen w × RvUintXlen w
  | .rv32 => mulhsu32wide
  | .rv64 => mulhsu64wide

def shiftOpMask : Xlen → Nat
  | .rv32 => 0x1F
  | .rv64 => 0x3F

def xlenIntMin : (w : Xlen) → RvUintXlen w
  | .rv32 => 0x80000000
  | .rv64 => 0x8000000000000000

/-! ### Bytes of a buffer -/

/-- The little-endian bytes of a value, as `memcpy` from a variable sees them. -/
def leBytes : Nat → Nat → List Byte
  | 0, _ => []
  | k + 1, v => BitVec.ofNat 8 v :: leBytes k (v / 256)

/-- The value of little-endian bytes, as `memcpy` to a variable stores it. -/
def leNat : List Byte → Nat
  | [] => 0
  | b :: bs => b.toNat + 256 * leNat bs

def leLoad (k : Nat) (bytes : List Byte) : BitVec (8 * k) :=
  BitVec.ofNat (8 * k) (leNat (bytes.take k))

@[simp] theorem length_leBytes (k v : Nat) : (leBytes k v).length = k := by
  induction k generalizing v with
  | zero => rfl
  | succ k ih => simp [leBytes, ih]

theorem leNat_leBytes (k v : Nat) : leNat (leBytes k v) = v % 256 ^ k := by
  induction k generalizing v with
  | zero => simp [leBytes, leNat, Nat.mod_one]
  | succ k ih =>
      have hsplit : v % (256 * 256 ^ k) = v % 256 + 256 * (v / 256 % 256 ^ k) := Nat.mod_mul
      have hpow : 256 ^ (k + 1) = 256 * 256 ^ k := Nat.pow_succ'
      rw [leBytes, leNat, ih, BitVec.toNat_ofNat, hpow, hsplit]

theorem leBytes_leNat (bytes : List Byte) : leBytes bytes.length (leNat bytes) = bytes := by
  induction bytes with
  | nil => rfl
  | cons b rest ih =>
      have hdiv : (b.toNat + 256 * leNat rest) / 256 = leNat rest := by
        rw [Nat.add_mul_div_left _ _ (by decide), Nat.div_eq_of_lt b.isLt, Nat.zero_add]
      have hmod : BitVec.ofNat 8 (b.toNat + 256 * leNat rest) = b := by
        refine BitVec.eq_of_toNat_eq ?_
        rw [BitVec.toNat_ofNat, Nat.add_mul_mod_self_left]
        exact Nat.mod_eq_of_lt b.isLt
      rw [List.length_cons, leBytes, leNat, hdiv, hmod, ih]

theorem leNat_take (k : Nat) (bytes : List Byte) :
    leNat (bytes.take k) = leNat bytes % 256 ^ k := by
  induction k generalizing bytes with
  | zero => rw [List.take_zero, Nat.pow_zero, Nat.mod_one, leNat]
  | succ k ih =>
      cases bytes with
      | nil => rw [List.take_nil, leNat, Nat.zero_mod]
      | cons b bytes =>
          have hsplit : leNat (b :: bytes) % (256 * 256 ^ k) =
              leNat (b :: bytes) % 256 + 256 * (leNat (b :: bytes) / 256 % 256 ^ k) := Nat.mod_mul
          have hb := b.isLt
          have hlow : leNat (b :: bytes) % 256 = b.toNat := by
            rw [leNat]
            omega
          have hhigh : leNat (b :: bytes) / 256 = leNat bytes := by
            rw [leNat]
            omega
          rw [List.take_succ_cons, leNat, ih, Nat.pow_succ', hsplit, hlow, hhigh]

theorem leNat_lt (bytes : List Byte) : leNat bytes < 256 ^ bytes.length := by
  have htake := leNat_take bytes.length bytes
  rw [List.take_length] at htake
  rw [htake]
  exact Nat.mod_lt _ (Nat.pow_pos (by decide))

/-- A variable read back from the bytes it was stored as. -/
theorem ofNat_leNat_leBytes (v : RvUintXlen w) :
    BitVec.ofNat w.bits (leNat ((leBytes w.bytes v.toNat).take w.bytes)) = v := by
  have htake : (leBytes w.bytes v.toNat).take w.bytes = leBytes w.bytes v.toNat :=
    List.take_of_length_le (by simp)
  have hpow : 256 ^ w.bytes = 2 ^ w.bits := by cases w <;> rfl
  rw [htake, leNat_leBytes, hpow, Nat.mod_eq_of_lt v.isLt, BitVec.ofNat_toNat,
    BitVec.setWidth_eq]

end RiscvEm
