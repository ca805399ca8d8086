import RiscvEm.Devices.Fifo
import RiscvEm.Lib.Simulation

/-!
The FIFO as a bounded queue.

The bytes between the two counters, read around the array, are a queue of at most
`size` bytes, and every call is the call of that queue.
-/

namespace RiscvEm

/-! ### The queue -/

inductive FifoCall
  | put (val : Byte)
  | get
  | putAll (buf : List Byte)
  | getUpTo (n : Nat)
  | peek (n : BitVec 32)
  | reset

abbrev FifoResult := Nat × List Byte

def queueIn (capacity : Nat) (buf q : List Byte) : FifoResult × List Byte :=
  ((min buf.length (capacity - q.length), []), q ++ buf.take (capacity - q.length))

def queueOut (n : Nat) (q : List Byte) : FifoResult × List Byte :=
  ((min n q.length, q.take n), q.drop n)

def queueCall (capacity : Nat) : FifoCall → List Byte → FifoResult × List Byte
  | .putAll buf, q => queueIn capacity buf q
  | .getUpTo n, q => queueOut n q
  | .peek n, q => ((queueOut n.toNat q).1, q)
  | .put val, q => queueIn capacity [val] q
  | .get, q => queueOut 1 q
  | .reset, _ => ((0, []), [])

def fifoCall {size : Nat} : FifoCall → Fifo size → Except Halt (FifoResult × Fifo size)
  | .putAll buf, f => do
      let (count, f) ← fifoIn f buf
      return ((count, []), f)
  | .getUpTo n, f => do
      let (bytes, f) ← fifoOut f n
      return ((bytes.length, bytes), f)
  | .peek n, f => do
      let bytes ← f.outPeek n
      return ((bytes.length, bytes), f)
  | .put val, f => do
      let (ret, f) ← fifoPut f val
      return ((ret.toNat, []), f)
  | .get, f => do
      let (byte, f) ← fifoGet f
      return ((byte.toList.length, byte.toList), f)
  | .reset, f => .ok ((0, []), f.reset)

def FifoCall.Short : FifoCall → Prop
  | .putAll buf => buf.length < 2 ^ 32
  | .getUpTo n => n < 2 ^ 32
  | _ => True

namespace Fifo

variable {k : Nat} {f : Fifo (2 ^ k)} {q : List Byte}

structure Holds (f : Fifo (2 ^ k)) (q : List Byte) : Prop where
  length_eq : q.length = f.len.toNat
  length_le : q.length ≤ 2 ^ k
  contents : Ring.read (2 ^ k) f.data f.outIdx.toNat q.length = q

def bytes {size : Nat} (f : Fifo size) : List Byte :=
  Ring.read size f.data f.outIdx.toNat f.len.toNat

theorem Holds.bytes_eq (hf : f.Holds q) : f.bytes = q := by
  rw [bytes, ← hf.length_eq, hf.contents]

structure Reports (f : Fifo (2 ^ k)) (q : List Byte) : Prop where
  isEmpty : f.isEmpty = decide (q.length = 0)
  isFull : f.isFull = decide (q.length = 2 ^ k)
  len : f.len.toNat = q.length
  free : f.free.toNat = 2 ^ k - q.length

/-! ### Counters -/

theorem toNat_inIdx (hf : f.Holds q) : f.inIdx.toNat = (f.outIdx.toNat + q.length) % 2 ^ 32 := by
  have hlen := hf.length_eq
  have hin := f.inIdx.isLt
  rw [len, BitVec.toNat_sub] at hlen
  omega

theorem toNat_unused (hk : k < 32) (hf : f.Holds q) : f.unused.toNat = 2 ^ k - q.length := by
  have hlt : 2 ^ k < 2 ^ 32 := Nat.pow_lt_pow_right (by decide) hk
  have hpos : 0 < 2 ^ k := Nat.pow_pos (by decide)
  have hle := hf.length_le
  have hlen : (f.inIdx - f.outIdx).toNat = q.length := hf.length_eq.symm
  have hone : (1 : BitVec 32).toNat = 1 := rfl
  rw [unused, BitVec.toNat_sub, BitVec.toNat_add, f.toNat_mask hk, hone, hlen]
  omega

theorem Holds.reports (hk : k < 32) (hf : f.Holds q) : f.Reports q := by
  have hlt : 2 ^ k < 2 ^ 32 := Nat.pow_lt_pow_right (by decide) hk
  have hpos : 0 < 2 ^ k := Nat.pow_pos (by decide)
  have hle := hf.length_le
  have hlen := hf.length_eq
  constructor
  case isEmpty =>
    have hin := toNat_inIdx hf
    rw [Fifo.isEmpty, Bool.eq_iff_iff, beq_iff_eq, decide_eq_true_iff, ← BitVec.toNat_inj, hin]
    omega
  case isFull =>
    rw [Fifo.isFull, Bool.eq_iff_iff, BitVec.ult, decide_eq_true_iff, decide_eq_true_iff,
      f.toNat_mask hk, ← hlen]
    omega
  case len => exact hlen.symm
  case free => exact toNat_unused hk hf

/-! ### Bytes put in and taken out -/

/-- A position is the same cell before and after the counter wraps. -/
theorem mod_counter (hk : k < 32) (n : Nat) : n % 2 ^ 32 % 2 ^ k = n % 2 ^ k :=
  Nat.mod_mod_of_dvd n (Nat.pow_dvd_pow 2 (Nat.le_of_lt hk))

theorem Holds.append (hk : k < 32) (hf : f.Holds q) {src : List Byte}
    (hfit : q.length + src.length ≤ 2 ^ k) :
    ({ f with
      data := Ring.write (2 ^ k) f.data f.inIdx.toNat src
      inIdx := f.inIdx + BitVec.ofNat 32 src.length } : Fifo (2 ^ k)).Holds (q ++ src) := by
  have hlt : 2 ^ k < 2 ^ 32 := Nat.pow_lt_pow_right (by decide) hk
  have hlen := hf.length_eq
  have hstart : f.inIdx.toNat % 2 ^ k = (f.outIdx.toNat + q.length) % 2 ^ k := by
    rw [toNat_inIdx hf, mod_counter hk]
  rw [len, BitVec.toNat_sub] at hlen
  constructor
  case length_eq =>
    show (q ++ src).length = (f.inIdx + BitVec.ofNat 32 src.length - f.outIdx).toNat
    rw [List.length_append, BitVec.toNat_sub, BitVec.toNat_add, BitVec.toNat_ofNat]
    omega
  case length_le => rwa [List.length_append]
  case contents =>
    have hold := Ring.read_write_before f.data f.outIdx.toNat hfit
    have hnew := Ring.read_write f.data (f.outIdx.toNat + q.length) (by omega : src.length ≤ 2 ^ k)
    rw [hf.contents] at hold
    rw [List.length_append, Ring.read_add, Ring.write_congr_start f.data hstart, hold, hnew]

theorem Holds.drop (hk : k < 32) (hf : f.Holds q) {n : Nat} (hn : n ≤ q.length) :
    ({ f with outIdx := f.outIdx + BitVec.ofNat 32 n } : Fifo (2 ^ k)).Holds (q.drop n) := by
  have hlt : 2 ^ k < 2 ^ 32 := Nat.pow_lt_pow_right (by decide) hk
  have hle := hf.length_le
  have hlen := hf.length_eq
  have hn' : (BitVec.ofNat 32 n).toNat = n := by
    rw [BitVec.toNat_ofNat]
    exact Nat.mod_eq_of_lt (by omega)
  have hstart : (f.outIdx + BitVec.ofNat 32 n).toNat % 2 ^ k = (f.outIdx.toNat + n) % 2 ^ k := by
    rw [BitVec.toNat_add, hn', mod_counter hk]
  rw [len, BitVec.toNat_sub] at hlen
  constructor
  case length_eq =>
    show (q.drop n).length = (f.inIdx - (f.outIdx + BitVec.ofNat 32 n)).toNat
    rw [List.length_drop, BitVec.toNat_sub, BitVec.toNat_add, hn']
    omega
  case length_le =>
    rw [List.length_drop]
    omega
  case contents =>
    have hread : (Ring.read (2 ^ k) f.data f.outIdx.toNat q.length).drop n =
        Ring.read (2 ^ k) f.data (f.outIdx.toNat + n) (q.length - n) :=
      Ring.drop_read f.data f.outIdx.toNat q.length n
    rw [hf.contents] at hread
    rw [List.length_drop, Ring.read_congr_start f.data hstart, ← hread]

/-! ### The calls -/

theorem outPeek_eq (hk : k < 32) (hf : f.Holds q) (n : BitVec 32) :
    f.outPeek n = .ok (q.take n.toNat) := by
  have hlen : (f.inIdx - f.outIdx).toNat = q.length := hf.length_eq.symm
  have hle := hf.length_le
  have hmin : (if f.inIdx - f.outIdx < n then f.inIdx - f.outIdx else n).toNat =
      min n.toNat q.length := by
    split
    · next h =>
        rw [BitVec.lt_def, hlen] at h
        omega
    · next h =>
        rw [BitVec.lt_def, hlen] at h
        omega
  have hread : (Ring.read (2 ^ k) f.data f.outIdx.toNat q.length).take n.toNat =
      Ring.read (2 ^ k) f.data f.outIdx.toNat (min n.toNat q.length) :=
    Ring.take_read f.data f.outIdx.toNat q.length n.toNat
  rw [hf.contents] at hread
  simp only [outPeek]
  rw [f.copyOut_eq hk (by rw [hmin]; omega), hmin, hread]

theorem fifoOut_eq (hk : k < 32) (hf : f.Holds q) {n : Nat} (hn : n < 2 ^ 32) :
    ∃ f', fifoOut f n = .ok (q.take n, f') ∧ f'.Holds (q.drop n) := by
  have hn' : (BitVec.ofNat 32 n).toNat = n := by
    rw [BitVec.toNat_ofNat]
    exact Nat.mod_eq_of_lt hn
  have htake : (q.take n).length = min n q.length := List.length_take
  have hdrop : q.drop n = q.drop (min n q.length) := by
    rcases Nat.le_total n q.length with h | h
    · rw [Nat.min_eq_left h]
    · rw [Nat.min_eq_right h, List.drop_eq_nil_of_le h, List.drop_length]
  refine ⟨_, by rw [fifoOut, outPeek_eq hk hf, hn']; rfl, ?_⟩
  rw [hdrop, htake]
  exact hf.drop hk (Nat.min_le_right _ _)

theorem fifoIn_eq (hk : k < 32) (hf : f.Holds q) (buf : List Byte) :
    ∃ f', fifoIn f buf = .ok (min buf.length (2 ^ k - q.length), f') ∧
      f'.Holds (q ++ buf.take (2 ^ k - q.length)) := by
  have hle := hf.length_le
  have htake : buf.take (min buf.length (2 ^ k - q.length)) = buf.take (2 ^ k - q.length) := by
    rw [Nat.min_comm, ← List.take_take, List.take_length]
  have hlen : (buf.take (2 ^ k - q.length)).length = min buf.length (2 ^ k - q.length) := by
    rw [List.length_take, Nat.min_comm]
  have hfit : q.length + (buf.take (2 ^ k - q.length)).length ≤ 2 ^ k := by omega
  have hholds := hf.append hk hfit
  rw [hlen] at hholds
  refine ⟨_, ?_, hholds⟩
  simp only [fifoIn, toNat_unused hk hf, htake]
  rw [f.copyIn_eq hk (by omega)]
  rfl

theorem fifoPut_eq (hk : k < 32) (hf : f.Holds q) (val : Byte) :
    ∃ f', fifoPut f val = .ok (decide (q.length < 2 ^ k), f') ∧
      f'.Holds (q ++ [val].take (2 ^ k - q.length)) := by
  have hle := hf.length_le
  have hfull := (hf.reports hk).isFull
  by_cases hq : q.length = 2 ^ k
  · refine ⟨f, ?_, ?_⟩
    · rw [fifoPut, hfull, decide_eq_true hq, if_pos rfl, decide_eq_false (by omega)]
    · rw [hq, Nat.sub_self, List.take_zero, List.append_nil]
      exact hf
  · have hfit : q.length + [val].length ≤ 2 ^ k := by
      rw [List.length_singleton]
      omega
    have htake : [val].take (2 ^ k - q.length) = [val] :=
      List.take_of_length_le (by rw [List.length_singleton]; omega)
    have hindex := f.toNat_and_mask_lt hk f.inIdx
    have hwrite :=
      Ring.write_singleton f.data f.inIdx.toNat val (Nat.pow_pos (by decide) : 0 < 2 ^ k)
    refine ⟨_, ?_, by rw [htake]; exact hf.append hk hfit⟩
    rw [fifoPut, hfull, decide_eq_false hq, if_neg (by decide),
      f.store_eq (by rw [List.length_singleton]; omega), decide_eq_true (by omega),
      f.toNat_and_mask hk, ← hwrite]
    rfl

theorem fifoGet_eq (hk : k < 32) (hf : f.Holds q) :
    ∃ f', fifoGet f = .ok (q.head?, f') ∧ f'.Holds (q.drop 1) := by
  have hempty := (hf.reports hk).isEmpty
  cases q with
  | nil =>
      refine ⟨f, ?_, hf⟩
      rw [fifoGet, hempty, if_pos (by decide)]
      rfl
  | cons b rest =>
      have hindex := f.toNat_and_mask_lt hk f.outIdx
      have hread : Ring.read (2 ^ k) f.data f.outIdx.toNat 1 = [b] := by
        have htake : (Ring.read (2 ^ k) f.data f.outIdx.toNat (b :: rest).length).take 1 =
            Ring.read (2 ^ k) f.data f.outIdx.toNat (min 1 (b :: rest).length) :=
          Ring.take_read f.data f.outIdx.toNat (b :: rest).length 1
        rw [hf.contents] at htake
        simpa using htake.symm
      have hbyte : f.data (f.outIdx.toNat % 2 ^ k) = b := by
        rw [Ring.read_singleton] at hread
        exact List.singleton_inj.mp hread
      refine ⟨_, ?_, hf.drop hk (by simp)⟩
      rw [fifoGet, hempty, if_neg (by simp), f.load_eq (by omega), f.toNat_and_mask hk]
      simp only [Except.ok_bind, List.range_one, List.map_singleton, Nat.add_zero, hbyte]
      rfl

theorem Holds.empty (data : Nat → Byte) : (fifoInit data : Fifo (2 ^ k)).Holds [] where
  length_eq := by simp [len, fifoInit]
  length_le := Nat.zero_le _
  contents := rfl

/-! ### Refinement -/

/-- Every call of the FIFO is the call of the queue. -/
theorem fifoCall_refines (hk : k < 32) :
    Simulation.Refines fifoCall (queueCall (2 ^ k)) FifoCall.Short
      (Holds : Fifo (2 ^ k) → List Byte → Prop) := by
  intro call f q hshort hf
  cases call with
  | putAll buf =>
      obtain ⟨f', hin, hf'⟩ := fifoIn_eq hk hf buf
      exact ⟨f', by rw [fifoCall, hin]; rfl, hf'⟩
  | getUpTo n =>
      obtain ⟨f', hout, hf'⟩ := fifoOut_eq hk hf hshort
      refine ⟨f', ?_, hf'⟩
      rw [fifoCall, hout, queueCall, queueOut, ← List.length_take]
      rfl
  | peek n =>
      refine ⟨f, ?_, hf⟩
      rw [fifoCall, outPeek_eq hk hf, queueCall, queueOut, ← List.length_take]
      rfl
  | put val =>
      obtain ⟨f', hput, hf'⟩ := fifoPut_eq hk hf val
      refine ⟨f', ?_, hf'⟩
      have hcount : (decide (q.length < 2 ^ k)).toNat = min [val].length (2 ^ k - q.length) := by
        rw [List.length_singleton]
        by_cases h : q.length < 2 ^ k
        · rw [decide_eq_true h, Nat.min_eq_left (by omega)]
          rfl
        · rw [decide_eq_false h, Nat.sub_eq_zero_of_le (by omega)]
          rfl
      rw [fifoCall, hput, queueCall, queueIn, ← hcount]
      rfl
  | get =>
      obtain ⟨f', hget, hf'⟩ := fifoGet_eq hk hf
      refine ⟨f', ?_, hf'⟩
      rw [fifoCall, hget, queueCall, queueOut]
      cases q <;> rfl
  | reset => exact ⟨f.reset, rfl, .empty f.data⟩

end Fifo

/-- The FIFO refines a bounded queue: after every sequence of calls on a FIFO of `2 ^ k`
bytes the results were those of the queue, no index was out of bounds, and the bytes
between the counters and all queries are those of the queue. -/
theorem fifo_refines_queue {k : Nat} (hk : k ≤ 31) (data : Nat → Byte) {calls : List FifoCall}
    (hshort : ∀ call ∈ calls, call.Short) :
    ∃ f : Fifo (2 ^ k),
      Simulation.calls fifoCall calls (fifoInit data) =
        .ok ((Simulation.specCalls (queueCall (2 ^ k)) calls []).1, f) ∧
      f.Holds (Simulation.specCalls (queueCall (2 ^ k)) calls []).2 ∧
      f.Reports (Simulation.specCalls (queueCall (2 ^ k)) calls []).2 := by
  have hk' : k < 32 := by omega
  obtain ⟨f, hcalls, hf⟩ := (Fifo.fifoCall_refines hk').calls hshort (Fifo.Holds.empty data)
  exact ⟨f, hcalls, hf, hf.reports hk'⟩

/-- Four bytes put into 16 and two taken out. -/
theorem fifo_refines_queue_four_in_two_out :
    ∃ f : Fifo (2 ^ 4),
      Simulation.calls fifoCall
          [.putAll [42], .putAll [43], .putAll [44], .putAll [45], .getUpTo 1, .getUpTo 1]
          (fifoInit fun _ => 0) =
        .ok ([(1, []), (1, []), (1, []), (1, []), (1, [42]), (1, [43])], f) ∧
      f.len.toNat = 2 := by
  have hshort : ∀ call ∈ [FifoCall.putAll [42], .putAll [43], .putAll [44], .putAll [45],
      .getUpTo 1, .getUpTo 1], call.Short := by
    simp [FifoCall.Short]
  obtain ⟨f, hcalls, -, hreports⟩ := fifo_refines_queue (by decide : 4 ≤ 31) (fun _ => 0) hshort
  exact ⟨f, hcalls, hreports.len⟩

end RiscvEm
