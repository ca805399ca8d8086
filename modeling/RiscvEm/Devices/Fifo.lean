import RiscvEm.Helper
import RiscvEm.Lib.BitField
import RiscvEm.Lib.Except
import RiscvEm.Lib.Queue

/-!
The byte FIFO of `fifo.c`.

The array behind `data` is part of the state and its length is a parameter. The fields
`mask` and `size`, which no code changes after `fifo_init`, follow from it. The counters
`in` and `out` run freely and are masked where they index the array.
-/

namespace RiscvEm

/-- `fifo_t` with its array of `size` bytes. -/
structure Fifo (size : Nat) where
  inIdx : BitVec 32 := 0
  outIdx : BitVec 32 := 0
  data : Nat → Byte := fun _ => 0

namespace Fifo

variable {size : Nat}

def mask (_ : Fifo size) : BitVec 32 := BitVec.ofNat 32 size - 1

def unused (f : Fifo size) : BitVec 32 := (f.mask + 1) - (f.inIdx - f.outIdx)

def free (f : Fifo size) : BitVec 32 := f.unused

def len (f : Fifo size) : BitVec 32 := f.inIdx - f.outIdx

def isEmpty (f : Fifo size) : Bool := f.inIdx == f.outIdx

def isFull (f : Fifo size) : Bool := f.mask.ult f.len

def reset (f : Fifo size) : Fifo size := { f with inIdx := 0, outIdx := 0 }

/-! ### Copies -/

/-- `memcpy` of `count` bytes from the array. -/
def load (f : Fifo size) (off count : Nat) : Except Halt (List Byte) :=
  if off + count ≤ size then .ok ((List.range count).map fun i => f.data (off + i))
  else .error .outOfBounds

def store (f : Fifo size) (off : Nat) (bytes : List Byte) : Except Halt (Fifo size) :=
  if off + bytes.length ≤ size then
    .ok { f with
      data := fun i =>
        if off ≤ i ∧ i < off + bytes.length then bytes.getD (i - off) 0 else f.data i }
  else .error .outOfBounds

def firstPart (f : Fifo size) (len off : BitVec 32) : BitVec 32 :=
  let l := (f.mask + 1) - off
  if len < l then len else l

def copyOut (f : Fifo size) (len off : BitVec 32) : Except Halt (List Byte) := do
  let off := off &&& f.mask
  let l := f.firstPart len off
  let first ← f.load off.toNat l.toNat
  let second ← f.load 0 (len - l).toNat
  return first ++ second

def copyIn (f : Fifo size) (src : List Byte) (off : BitVec 32) : Except Halt (Fifo size) := do
  let off := off &&& f.mask
  let l := f.firstPart (BitVec.ofNat 32 src.length) off
  let f ← f.store off.toNat (src.take l.toNat)
  f.store 0 (src.drop l.toNat)

def outPeek (f : Fifo size) (n : BitVec 32) : Except Halt (List Byte) :=
  let l := f.inIdx - f.outIdx
  f.copyOut (if l < n then l else n) f.outIdx

end Fifo

def fifoOut {size : Nat} (f : Fifo size) (n : Nat) : Except Halt (List Byte × Fifo size) := do
  let bytes ← f.outPeek (BitVec.ofNat 32 n)
  return (bytes, { f with outIdx := f.outIdx + BitVec.ofNat 32 bytes.length })

def fifoIn {size : Nat} (f : Fifo size) (buf : List Byte) : Except Halt (Nat × Fifo size) := do
  let len := min buf.length f.unused.toNat
  let f ← f.copyIn (buf.take len) f.inIdx
  return (len, { f with inIdx := f.inIdx + BitVec.ofNat 32 len })

/-- `fifo_init` on an array of `size` bytes. -/
def fifoInit {size : Nat} (data : Nat → Byte) : Fifo size :=
  { inIdx := 0, outIdx := 0, data := data }

/-- `fifo_put`; the result is whether the byte fitted. -/
def fifoPut {size : Nat} (f : Fifo size) (val : Byte) : Except Halt (Bool × Fifo size) :=
  if f.isFull then .ok (false, f)
  else do
    let f ← f.store (f.inIdx &&& f.mask).toNat [val]
    return (true, { f with inIdx := f.inIdx + 1 })

def fifoGet {size : Nat} (f : Fifo size) : Except Halt (Option Byte × Fifo size) :=
  if f.isEmpty then .ok (none, f)
  else do
    let bytes ← f.load (f.outIdx &&& f.mask).toNat 1
    return (bytes.head?, { f with outIdx := f.outIdx + 1 })

/-! ### Copies of at most one array length -/

namespace Fifo

variable {k : Nat} (f : Fifo (2 ^ k))

/-- The array can be as long as the counters can count. -/
theorem toNat_mask (hk : k < 32) : f.mask.toNat = 2 ^ k - 1 := by
  have hpos : 0 < 2 ^ k := Nat.pow_pos (by decide)
  have hlt : 2 ^ k < 2 ^ 32 := Nat.pow_lt_pow_right (by decide) hk
  rw [mask, BitVec.toNat_sub, BitVec.toNat_ofNat, Nat.mod_eq_of_lt hlt]
  have hone : (1 : BitVec 32).toNat = 1 := rfl
  rw [hone]
  omega

theorem toNat_and_mask (hk : k < 32) (off : BitVec 32) :
    (off &&& f.mask).toNat = off.toNat % 2 ^ k :=
  BitField.toNat_and_ones off (f.toNat_mask hk)

theorem toNat_and_mask_lt (hk : k < 32) (off : BitVec 32) : (off &&& f.mask).toNat < 2 ^ k := by
  rw [f.toNat_and_mask hk]
  exact Nat.mod_lt _ (Nat.pow_pos (by decide))

theorem toNat_firstPart (hk : k < 32) {off : BitVec 32} (hoff : off.toNat < 2 ^ k)
    (len : BitVec 32) : (f.firstPart len off).toNat = min len.toNat (2 ^ k - off.toNat) := by
  have hlt : 2 ^ k < 2 ^ 32 := Nat.pow_lt_pow_right (by decide) hk
  have hend : ((f.mask + 1) - off).toNat = 2 ^ k - off.toNat := by
    have hone : (1 : BitVec 32).toNat = 1 := rfl
    rw [BitVec.toNat_sub, BitVec.toNat_add, f.toNat_mask hk, hone]
    omega
  simp only [firstPart, BitVec.lt_def, hend]
  split
  · omega
  · rw [hend]
    omega

theorem load_eq {off count : Nat} (h : off + count ≤ 2 ^ k) :
    f.load off count = .ok ((List.range count).map fun i => f.data (off + i)) := by
  rw [load, if_pos h]

/-- A copy of at most the whole array stays inside it and reads the ring. -/
theorem copyOut_eq (hk : k < 32) {len : BitVec 32} (hlen : len.toNat ≤ 2 ^ k)
    (off : BitVec 32) : f.copyOut len off = .ok (Ring.read (2 ^ k) f.data off.toNat len.toNat) := by
  have hoff := f.toNat_and_mask_lt hk off
  have hpart := f.toNat_firstPart hk hoff len
  have hrest : (len - f.firstPart len (off &&& f.mask)).toNat =
      len.toNat - (f.firstPart len (off &&& f.mask)).toNat := by
    rw [BitVec.toNat_sub]
    omega
  have hfirst : (off &&& f.mask).toNat + (f.firstPart len (off &&& f.mask)).toNat ≤ 2 ^ k := by
    omega
  have hsecond : 0 + (len - f.firstPart len (off &&& f.mask)).toNat ≤ 2 ^ k := by omega
  have hstart : off.toNat % 2 ^ k = (off &&& f.mask).toNat % 2 ^ k := by
    rw [f.toNat_and_mask hk, Nat.mod_mod]
  simp only [copyOut]
  rw [f.load_eq hfirst, Except.ok_bind, f.load_eq hsecond, Except.ok_bind, hpart, hrest, hpart,
    Ring.read_congr_start f.data hstart, Ring.read_split f.data hoff hlen]
  simp only [Nat.zero_add, Except.pure_eq_ok]

theorem store_eq {off : Nat} {bytes : List Byte} (h : off + bytes.length ≤ 2 ^ k) :
    f.store off bytes = .ok { f with data := Ring.place f.data off bytes } := by
  have hplace : Ring.place f.data off bytes = fun i =>
      if off ≤ i ∧ i < off + bytes.length then bytes.getD (i - off) 0 else f.data i := by
    funext i
    rw [Ring.place]
    by_cases hle : off ≤ i
    · rw [if_pos hle]
      by_cases hlt : i < off + bytes.length
      · rw [if_pos ⟨hle, hlt⟩, List.getD_eq_getElem?_getD,
          List.getElem?_eq_getElem (by omega), Option.getD_some, Option.getD_some]
      · rw [if_neg (fun h => hlt h.2), List.getElem?_eq_none (by omega), Option.getD_none]
    · rw [if_neg hle, if_neg (fun h => hle h.1)]
  rw [store, if_pos h, hplace]

/-- A copy of at most the whole array stays inside it and writes the ring. -/
theorem copyIn_eq (hk : k < 32) {src : List Byte} (hsrc : src.length ≤ 2 ^ k)
    (off : BitVec 32) :
    f.copyIn src off = .ok { f with data := Ring.write (2 ^ k) f.data off.toNat src } := by
  have hlt : 2 ^ k < 2 ^ 32 := Nat.pow_lt_pow_right (by decide) hk
  have hoff := f.toNat_and_mask_lt hk off
  have hlen : (BitVec.ofNat 32 src.length).toNat = src.length := by
    rw [BitVec.toNat_ofNat]
    exact Nat.mod_eq_of_lt (by omega)
  have hpart := f.toNat_firstPart hk hoff (BitVec.ofNat 32 src.length)
  rw [hlen] at hpart
  have hstart : off.toNat % 2 ^ k = (off &&& f.mask).toNat % 2 ^ k := by
    rw [f.toNat_and_mask hk, Nat.mod_mod]
  rw [Ring.write_congr_start f.data hstart]
  simp only [copyIn, hpart]
  generalize (off &&& f.mask).toNat = start at hoff
  rw [f.store_eq (by rw [List.length_take]; omega), Except.ok_bind,
    store_eq _ (by rw [List.length_drop]; omega)]
  rw [Ring.write_split f.data hoff hsrc]

end Fifo

section Single

variable {size k : Nat} (f : Fifo size)

theorem exists_fifoOut_one (hsize : size = 2 ^ k) (hk : k < 32) :
    ∃ bytes f', fifoOut f 1 = .ok (bytes, f') := by
  subst hsize
  have hpos : 0 < 2 ^ k := Nat.pow_pos (by decide)
  have hone : (1#32).toNat = 1 := rfl
  have hlen : (if f.inIdx - f.outIdx < 1#32 then f.inIdx - f.outIdx else 1#32).toNat ≤ 2 ^ k := by
    split
    · next h =>
        rw [BitVec.lt_def, hone] at h
        omega
    · rw [hone]
      omega
  exact ⟨_, _, by rw [fifoOut, Fifo.outPeek, f.copyOut_eq hk hlen f.outIdx]; rfl⟩

theorem exists_fifoIn_one (hsize : size = 2 ^ k) (hk : k < 32) (b : Byte) :
    ∃ len f', fifoIn f [b] = .ok (len, f') := by
  subst hsize
  have hpos : 0 < 2 ^ k := Nat.pow_pos (by decide)
  have hlen : ([b].take (min [b].length f.unused.toNat)).length ≤ 2 ^ k := by
    rw [List.length_take, List.length_singleton]
    omega
  exact ⟨_, _, by rw [fifoIn, f.copyIn_eq hk hlen f.inIdx]; rfl⟩

end Single

end RiscvEm
