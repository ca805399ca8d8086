import Mathlib.Tactic.Common

/-!
Queues: a circular array read and written as a list, and what flows through a queue.

The cells are indexed by numbers below the size of the ring, and a position may lie any
number of turns ahead.
-/

namespace Ring

variable {α : Type*} {size : Nat}

/-- The `len` cells from `start` on. -/
def read (size : Nat) (data : Nat → α) (start len : Nat) : List α :=
  (List.range len).map fun j => data ((start + j) % size)

/-- How far cell `i` lies after `start`. -/
def offset (size start i : Nat) : Nat := (i + (size - start % size)) % size

/-- The cells after `src` has been written from `start` on. -/
def write (size : Nat) (data : Nat → α) (start : Nat) (src : List α) : Nat → α := fun i =>
  if i < size then src[offset size start i]?.getD (data i) else data i

/-! ### Positions -/

theorem offset_of_le {start i : Nat} (hi : i < size) (h : start % size ≤ i) :
    offset size start i = i - start % size := by
  have hstart : start % size < size := Nat.mod_lt _ (by omega)
  have hsum : i + (size - start % size) = i - start % size + size := by omega
  rw [offset, hsum, Nat.add_mod_right, Nat.mod_eq_of_lt (by omega)]

theorem offset_of_lt {start i : Nat} (hi : i < size) (h : i < start % size) :
    offset size start i = i + size - start % size := by
  have hstart : start % size < size := Nat.mod_lt _ (by omega)
  rw [offset, Nat.mod_eq_of_lt (by omega)]
  omega

theorem offset_index {start j : Nat} (hj : j < size) :
    offset size start ((start + j) % size) = j := by
  have hpos : 0 < size := by omega
  have hstart : start % size < size := Nat.mod_lt _ hpos
  have hmod : (start + j) % size = (start % size + j) % size := (Nat.mod_add_mod start size j).symm
  by_cases hwrap : start % size + j < size
  · rw [hmod, Nat.mod_eq_of_lt hwrap, offset_of_le hwrap (by omega)]
    omega
  · have hback : (start % size + j) % size = start % size + j - size := by
      rw [Nat.mod_eq_sub_mod (by omega), Nat.mod_eq_of_lt (by omega)]
    rw [hmod, hback, offset_of_lt (by omega) (by omega)]
    omega

/-! ### Reading -/

@[simp] theorem length_read (data : Nat → α) (start len : Nat) :
    (read size data start len).length = len := by
  rw [read, List.length_map, List.length_range]

theorem getElem_read (data : Nat → α) (start len : Nat) {j : Nat}
    (hj : j < (read size data start len).length) :
    (read size data start len)[j] = data ((start + j) % size) := by
  simp [read]

theorem read_congr {data data' : Nat → α} {start start' len : Nat}
    (h : ∀ j < len, data ((start + j) % size) = data' ((start' + j) % size)) :
    read size data start len = read size data' start' len := by
  refine List.map_congr_left fun j hj => ?_
  exact h j (List.mem_range.mp hj)

theorem read_congr_start (data : Nat → α) {start start' : Nat} (h : start % size = start' % size)
    (len : Nat) : read size data start len = read size data start' len := by
  refine read_congr fun j _ => ?_
  rw [← Nat.mod_add_mod start size j, h, Nat.mod_add_mod]

theorem read_add (data : Nat → α) (start m n : Nat) :
    read size data start (m + n) = read size data start m ++ read size data (start + m) n := by
  rw [read, read, read, List.range_add, List.map_append, List.map_map]
  refine congrArg _ (List.map_congr_left fun j _ => ?_)
  rw [Function.comp_apply, Nat.add_assoc]

theorem take_read (data : Nat → α) (start len n : Nat) :
    (read size data start len).take n = read size data start (min n len) := by
  rw [read, read, ← List.map_take, List.take_range]

theorem drop_read (data : Nat → α) (start len n : Nat) :
    (read size data start len).drop n = read size data (start + n) (len - n) := by
  by_cases h : n ≤ len
  · have hsplit : len = n + (len - n) := by omega
    have hlen : (read size data start n).length = n := length_read data start n
    rw [hsplit, read_add, List.drop_append_of_le_length (Nat.le_of_eq hlen.symm)]
    rw [List.drop_eq_nil_of_le (Nat.le_of_eq hlen), List.nil_append, Nat.add_sub_cancel_left]
  · rw [List.drop_eq_nil_of_le (by rw [length_read]; omega), Nat.sub_eq_zero_of_le (by omega)]
    rfl

/-- A read of at most one turn, split at the end of the array. -/
theorem read_split (data : Nat → α) {start len : Nat} (hstart : start < size)
    (hlen : len ≤ size) :
    read size data start len =
      (List.range (min len (size - start))).map (fun i => data (start + i)) ++
        (List.range (len - min len (size - start))).map data := by
  have hsplit : len = min len (size - start) + (len - min len (size - start)) := by omega
  have hfirst : read size data start (min len (size - start)) =
      (List.range (min len (size - start))).map fun i => data (start + i) := by
    refine List.map_congr_left fun j hj => ?_
    have hj' := List.mem_range.mp hj
    rw [Nat.mod_eq_of_lt (by omega)]
  have hsecond : read size data (start + min len (size - start))
      (len - min len (size - start)) =
        (List.range (len - min len (size - start))).map data := by
    refine List.map_congr_left fun j hj => ?_
    have hj' := List.mem_range.mp hj
    have hwrap : start + min len (size - start) + j = j + size := by omega
    rw [hwrap, Nat.add_mod_right, Nat.mod_eq_of_lt (by omega)]
  rw [hsplit, read_add, ← hsplit, hfirst, hsecond]

/-! ### Writing -/

theorem write_congr_start (data : Nat → α) {start start' : Nat}
    (h : start % size = start' % size) (src : List α) :
    write size data start src = write size data start' src := by
  have hoffset : ∀ i, offset size start i = offset size start' i := fun i => by
    rw [offset, offset, h]
  funext i
  simp only [write, hoffset]

theorem write_index (data : Nat → α) (start : Nat) {src : List α} {j : Nat} (hj : j < src.length)
    (hsize : src.length ≤ size) : write size data start src ((start + j) % size) = src[j] := by
  have hoffset : offset size start ((start + j) % size) = j := offset_index (by omega)
  have hlt : (start + j) % size < size := Nat.mod_lt _ (by omega)
  rw [write, if_pos hlt, hoffset, List.getElem?_eq_getElem hj, Option.getD_some]

theorem read_write (data : Nat → α) (start : Nat) {src : List α} (hsize : src.length ≤ size) :
    read size (write size data start src) start src.length = src := by
  refine List.ext_getElem (length_read _ _ _) fun j hj hj' => ?_
  rw [getElem_read, write_index data start hj' hsize]

theorem read_write_before (data : Nat → α) (start : Nat) {len : Nat} {src : List α}
    (hsize : len + src.length ≤ size) :
    read size (write size data (start + len) src) start len = read size data start len := by
  refine read_congr fun j hj => ?_
  -- cell `j` lies `size - len + j` after the first one that is written
  have hindex : (start + j) % size = (start + len + (size - len + j)) % size := by
    have hsum : start + len + (size - len + j) = start + j + size := by omega
    rw [hsum, Nat.add_mod_right]
  have hoffset : offset size (start + len) ((start + j) % size) = size - len + j := by
    rw [hindex]
    exact offset_index (by omega)
  have hlt : (start + j) % size < size := Nat.mod_lt _ (by omega)
  rw [write, if_pos hlt, hoffset, List.getElem?_eq_none (by omega), Option.getD_none]

def place (data : Nat → α) (start : Nat) (src : List α) : Nat → α := fun i =>
  if start ≤ i then src[i - start]?.getD (data i) else data i

/-- A write of at most one turn, split at the end of the array. -/
theorem write_split (data : Nat → α) {start : Nat} {src : List α} (hstart : start < size)
    (hlen : src.length ≤ size) :
    write size data start src =
      place (place data start (src.take (min src.length (size - start)))) 0
        (src.drop (min src.length (size - start))) := by
  obtain ⟨l, hl⟩ : ∃ l, min src.length (size - start) = l := ⟨_, rfl⟩
  have hmod : start % size = start := Nat.mod_eq_of_lt hstart
  funext i
  rw [hl, write, place, if_pos (Nat.zero_le i), Nat.sub_zero, List.getElem?_drop]
  by_cases hle : start ≤ i
  · -- not before the start: the first part, or no part at all
    rw [List.getElem?_eq_none (by omega : src.length ≤ l + i), Option.getD_none, place,
      if_pos hle, List.getElem?_take]
    by_cases hi : i < size
    · rw [if_pos hi, offset_of_le hi (by omega), hmod]
      split
      · rfl
      · rw [List.getElem?_eq_none (by omega)]
    · rw [if_neg hi, if_neg (by omega), Option.getD_none]
  · -- before the start: the second part, where there is one
    rw [if_pos (by omega), offset_of_lt (by omega) (by omega), hmod, place, if_neg hle]
    by_cases hfits : src.length ≤ size - start
    · rw [List.getElem?_eq_none (by omega), List.getElem?_eq_none (by omega)]
    · have hindex : l + i = i + size - start := by omega
      rw [hindex]

theorem write_singleton (data : Nat → α) (start : Nat) (v : α) (hsize : 0 < size) :
    write size data start [v] = place data (start % size) [v] := by
  have hstart : start % size < size := Nat.mod_lt _ hsize
  have hfirst : min [v].length (size - start % size) = 1 := by
    rw [List.length_singleton]
    omega
  have hempty : ∀ data : Nat → α, place data 0 [] = data := fun data => by
    funext i
    simp [place]
  rw [write_congr_start data (Nat.mod_mod start size).symm,
    write_split data hstart (by rwa [List.length_singleton]), hfirst]
  exact hempty _

theorem read_singleton (data : Nat → α) (start : Nat) :
    read size data start 1 = [data (start % size)] := by
  simp [read]

end Ring

/-! ### What flows through a queue -/

/-- A queue that holds `q` takes in `ins`, gives out `outs` and then holds `q'`. -/
def QueueFlow {α : Type} (q ins outs q' : List α) : Prop := q ++ ins = outs ++ q'

namespace QueueFlow

variable {α : Type} {q q' q'' ins ins' outs outs' : List α}

theorem refl (q : List α) : QueueFlow q [] [] q := List.append_nil q

theorem push (q ins : List α) : QueueFlow q ins [] (q ++ ins) := rfl

theorem pop (outs q : List α) : QueueFlow (outs ++ q) [] outs q := List.append_nil _

theorem trans (h : QueueFlow q ins outs q') (h' : QueueFlow q' ins' outs' q'') :
    QueueFlow q (ins ++ ins') (outs ++ outs') q'' := by
  rw [QueueFlow] at h h' ⊢
  calc q ++ (ins ++ ins') = outs ++ q' ++ ins' := by rw [← List.append_assoc, h]
    _ = outs ++ (outs' ++ q'') := by rw [List.append_assoc, h']
    _ = outs ++ outs' ++ q'' := (List.append_assoc _ _ _).symm

end QueueFlow
