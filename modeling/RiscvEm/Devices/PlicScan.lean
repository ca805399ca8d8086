import RiscvEm.Devices.Plic
import RiscvEm.HelperSpec

/-!
Which number `plic_update` reports: that of the counter at an enabled, pending and
unclaimed bit. The counter stands still over the words that are passed over, so that
it names the bit only if there were none.
-/

namespace RiscvEm

/-! ### Sources as bits -/

theorem checkBit_assignU32Bit (v : BitVec 32) {n : Nat} (hn : n < 32) (b : Bool) (m : Nat) :
    checkBit (assignU32Bit v n b) m = if m = n then b else checkBit v m := by
  rw [checkBit_eq_getLsbD, checkBit_eq_getLsbD, assignU32Bit, BitVec.getLsbD_or,
    BitVec.getLsbD_and, BitVec.getLsbD_not, BitField.getLsbD_one_shiftLeft hn]
  cases b with
  | false =>
      by_cases hm : m = n
      · simp [hm]
      · by_cases hlt : m < 32
        · simp [hm, hlt]
        · simp [hm, hlt, BitVec.getLsbD_of_ge v m (by omega)]
  | true =>
      rw [if_pos rfl, BitField.getLsbD_one_shiftLeft hn]
      by_cases hm : m = n
      · simp [hm]
      · by_cases hlt : m < 32
        · simp [hm, hlt]
        · simp [hm, hlt, BitVec.getLsbD_of_ge v m (by omega)]

/-- The bit of a source in an array of words. -/
def sourceBit (words : Fin nrPendingRegs → BitVec 32) (id : Nat) : Bool :=
  if h : id / 32 < nrPendingRegs then checkBit (words ⟨id / 32, h⟩) (id % 32) else false

theorem sourceBit_eq (words : Fin nrPendingRegs → BitVec 32) (i : Fin nrPendingRegs) {j : Nat}
    (hj : j < 32) : sourceBit words (32 * i + j) = checkBit (words i) j := by
  have hdiv : (32 * i.val + j) / 32 = i := by omega
  have hmod : (32 * i.val + j) % 32 = j := by omega
  rw [sourceBit, dif_pos (by rw [hdiv]; exact i.isLt)]
  simp only [hdiv, hmod]

theorem sourceBit_assign (words : Fin nrPendingRegs → BitVec 32) {id : Nat}
    (h : id / 32 < nrPendingRegs) (b : Bool) (id' : Nat) :
    sourceBit (assignArrayBit words ⟨id / 32, h⟩ (id % 32) b) id' =
      if id' = id then b else sourceBit words id' := by
  rw [sourceBit, sourceBit]
  by_cases h' : id' / 32 < nrPendingRegs
  · rw [dif_pos h', dif_pos h', assignArrayBit]
    by_cases hdiv : id' / 32 = id / 32
    · have hreg : (⟨id' / 32, h'⟩ : Fin nrPendingRegs) = ⟨id / 32, h⟩ := Fin.ext hdiv
      rw [hreg, Function.update_self, checkBit_assignU32Bit _ (Nat.mod_lt _ (by decide))]
      have hiff : id' % 32 = id % 32 ↔ id' = id := by omega
      simp only [hiff]
    · have hreg : (⟨id' / 32, h'⟩ : Fin nrPendingRegs) ≠ ⟨id / 32, h⟩ :=
        fun heq => hdiv (Fin.mk.inj heq)
      have hne : id' ≠ id := fun heq => hdiv (by rw [heq])
      rw [Function.update_of_ne hreg, if_neg hne]
  · have hne : id' ≠ id := fun heq => h' (by rw [heq]; exact h)
    rw [dif_neg h', dif_neg h', if_neg hne]

namespace Plic

variable {plic : Plic}

/-- `plic_update` passes over a word without an enabled or without a pending source. -/
def passedOver (plic : Plic) (i : Fin nrEnableRegs) : Prop :=
  plic.enableBits i = 0 ∨ plic.pendingBits i = 0

instance passedOverDecidable (plic : Plic) (i : Fin nrEnableRegs) : Decidable (plic.passedOver i) :=
  inferInstanceAs (Decidable (_ ∨ _))

/-- The counter when the words before number `n` have been looked at. -/
def countBefore (plic : Plic) (n : Nat) : Nat :=
  32 * (((List.finRange nrEnableRegs).take n).filter fun k => ¬ plic.passedOver k).length

/-- A source that is enabled, pending and not claimed. -/
def Claimable (plic : Plic) (i : Fin nrEnableRegs) (j : Nat) : Prop :=
  checkBit (plic.enableBits i) j = true ∧ checkBit (plic.pendingBits i) j = true ∧
    checkBit (plic.claimedBits i) j = false

/-- The threshold lets the source through under the number that the counter has there. -/
def Counted (plic : Plic) (i : Fin nrEnableRegs) (j : Nat) : Prop :=
  plic.Claimable i j ∧ plic.priorityThreshold ≤ plic.prio (plic.countBefore i + j)

instance countedDecidable (plic : Plic) (i : Fin nrEnableRegs) (j : Nat) :
    Decidable (plic.Counted i j) :=
  inferInstanceAs (Decidable ((_ ∧ _ ∧ _) ∧ _))

/-! ### The inner loop -/

/-- After the first `n` bits of word `i`. -/
structure ScannedBits (plic : Plic) (i : Fin nrEnableRegs) (start : PlicScan) (n : Nat)
    (scan : PlicScan) : Prop where
  count : scan.irqIdCount = start.irqIdCount + n
  others : ∀ k, k ≠ i → scan.pendingBits k = start.pendingBits k
  ahead : ∀ j, n ≤ j → checkBit (scan.pendingBits i) j = checkBit (start.pendingBits i) j
  selected : scan.irqToTrigger = start.irqToTrigger ∨ ∃ j, j < n ∧
    checkBit (plic.enableBits i) j = true ∧ checkBit (start.pendingBits i) j = true ∧
      checkBit (plic.claimedBits i) j = false ∧ scan.irqToTrigger = start.irqIdCount + j ∧
        plic.priorityThreshold ≤ plic.prio scan.irqToTrigger

theorem ScannedBits.selected_succ {i : Fin nrEnableRegs} {start scan : PlicScan} {n : Nat}
    (h : plic.ScannedBits i start n scan) :
    scan.irqToTrigger = start.irqToTrigger ∨ ∃ j, j < n + 1 ∧
      checkBit (plic.enableBits i) j = true ∧ checkBit (start.pendingBits i) j = true ∧
        checkBit (plic.claimedBits i) j = false ∧ scan.irqToTrigger = start.irqIdCount + j ∧
          plic.priorityThreshold ≤ plic.prio scan.irqToTrigger :=
  h.selected.imp_right fun ⟨j, hj, hrest⟩ => ⟨j, by omega, hrest⟩

theorem ScannedBits.step {i : Fin nrEnableRegs} {start scan : PlicScan} {n : Nat} (hn : n < 32)
    (h : plic.ScannedBits i start n scan) :
    plic.ScannedBits i start (n + 1) (plicScanBit plic i scan n) := by
  have hcount : scan.irqIdCount + 1 = start.irqIdCount + (n + 1) := by
    rw [h.count]
    rfl
  have hahead (j : Nat) (hj : n + 1 ≤ j) := h.ahead j (by omega)
  rw [plicScanBit]
  split
  · next htest =>
      simp only [Bool.and_eq_true, decide_eq_true_eq] at htest
      obtain ⟨⟨henabled, hpending⟩, hthreshold⟩ := htest
      split
      · -- a claimed source loses its pending bit
        refine ⟨hcount, fun k hk => ?_, fun j hj => ?_, h.selected_succ⟩
        · rw [← h.others k hk]
          exact Function.update_of_ne hk _ _
        · rw [← hahead j hj]
          show checkBit (assignArrayBit scan.pendingBits i n false i) j = _
          rw [assignArrayBit, Function.update_self, checkBit_assignU32Bit _ hn,
            if_neg (by omega)]
      · next hclaimed =>
          split
          · -- the highest priority so far
            refine ⟨hcount, h.others, hahead, .inr ⟨n, by omega, henabled, ?_, ?_, h.count,
              hthreshold⟩⟩
            · rw [← h.ahead n (Nat.le_refl n)]
              exact hpending
            · exact Bool.eq_false_iff.mpr hclaimed
          · exact ⟨hcount, h.others, hahead, h.selected_succ⟩
  · exact ⟨hcount, h.others, hahead, h.selected_succ⟩

theorem scannedBits (plic : Plic) (i : Fin nrEnableRegs) (start : PlicScan) {n : Nat}
    (hn : n ≤ 32) :
    plic.ScannedBits i start n ((List.range n).foldl (plicScanBit plic i) start) := by
  induction n with
  | zero => exact ⟨rfl, fun _ _ => rfl, fun _ _ => rfl, .inl rfl⟩
  | succ n ih =>
      rw [List.range_succ, List.foldl_append]
      exact (ih (by omega)).step (by omega)

/-! ### The outer loop -/

/-- After the first `n` words. -/
structure ScannedWords (plic : Plic) (n : Nat) (scan : PlicScan) : Prop where
  count : scan.irqIdCount = plic.countBefore n
  ahead : ∀ k : Fin nrEnableRegs, n ≤ k → scan.pendingBits k = plic.pendingBits k
  selected : scan.irqToTrigger = 0 ∨ ∃ i j, j < 32 ∧ plic.Counted i j ∧
    scan.irqToTrigger = plic.countBefore i + j

theorem finRange_take_succ (i : Fin nrEnableRegs) :
    (List.finRange nrEnableRegs).take (i + 1) = (List.finRange nrEnableRegs).take i ++ [i] := by
  rw [List.take_add_one]
  simp

/-- The counter is not advanced for a word that is passed over. -/
theorem countBefore_passedOver {i : Fin nrEnableRegs} (h : plic.passedOver i) :
    plic.countBefore (i + 1) = plic.countBefore i := by
  rw [countBefore, finRange_take_succ, List.filter_append,
    List.filter_cons_of_neg (by simpa using h)]
  simp [countBefore]

theorem countBefore_succ {i : Fin nrEnableRegs} (h : ¬ plic.passedOver i) :
    plic.countBefore (i + 1) = plic.countBefore i + 32 := by
  rw [countBefore, finRange_take_succ, List.filter_append,
    List.filter_cons_of_pos (by simpa using h), List.length_append]
  rfl

theorem ScannedWords.step {scan : PlicScan} (i : Fin nrEnableRegs)
    (h : plic.ScannedWords i scan) : plic.ScannedWords (i + 1) (plicScanWord plic scan i) := by
  have hsame : scan.pendingBits i = plic.pendingBits i := h.ahead i (Nat.le_refl _)
  rw [plicScanWord, hsame]
  split
  · next hpassed =>
      have hcount : plic.countBefore (i + 1) = plic.countBefore i :=
        countBefore_passedOver hpassed
      refine ⟨by rw [hcount, h.count], fun k hk => h.ahead k (by omega), h.selected⟩
  · next hpassed =>
      have hcount : plic.countBefore (i + 1) = plic.countBefore i + 32 :=
        countBefore_succ hpassed
      have hbits := scannedBits plic i scan (Nat.le_refl 32)
      refine ⟨by rw [hcount, hbits.count, h.count], fun k hk => ?_, ?_⟩
      · rw [hbits.others k fun heq => by rw [heq] at hk; omega]
        exact h.ahead k (by omega)
      · rcases hbits.selected with hkept | ⟨j, hj, henabled, hpending, hclaimed, hsel, hthreshold⟩
        · rw [hkept]
          exact h.selected
        · rw [hsame] at hpending
          rw [h.count] at hsel
          rw [hsel] at hthreshold
          exact .inr ⟨i, j, hj, ⟨⟨henabled, hpending, hclaimed⟩, hthreshold⟩, hsel⟩

theorem scannedWords (plic : Plic) {n : Nat} (hn : n ≤ nrEnableRegs) :
    plic.ScannedWords n (((List.finRange nrEnableRegs).take n).foldl (plicScanWord plic)
      { pendingBits := plic.pendingBits }) := by
  induction n with
  | zero => exact ⟨rfl, fun _ _ => rfl, .inl rfl⟩
  | succ n ih =>
      have htake : (List.finRange nrEnableRegs).take (n + 1) =
          (List.finRange nrEnableRegs).take n ++ [⟨n, hn⟩] := finRange_take_succ ⟨n, hn⟩
      rw [htake, List.foldl_append]
      exact ScannedWords.step ⟨n, hn⟩ (ih (by omega))

/-- What is reported is the number that the counter has at a claimable source. -/
theorem plicScan_selected (plic : Plic) :
    (plicScan plic).irqToTrigger = 0 ∨ ∃ i j, j < 32 ∧ plic.Counted i j ∧
      (plicScan plic).irqToTrigger = plic.countBefore i + j := by
  have h := (scannedWords plic (Nat.le_refl nrEnableRegs)).selected
  rwa [List.take_of_length_le (by simp)] at h

theorem countBefore_le (plic : Plic) (n : Nat) : plic.countBefore n ≤ 32 * n := by
  have hfilter := List.length_filter_le (fun k => decide (¬ plic.passedOver k))
    ((List.finRange nrEnableRegs).take n)
  have htake : ((List.finRange nrEnableRegs).take n).length ≤ n := List.length_take_le _ _
  rw [countBefore]
  omega

/-- The counter names the bit where no word before it is passed over. -/
theorem countBefore_eq_iff (plic : Plic) (i : Fin nrEnableRegs) :
    plic.countBefore i = 32 * i ↔ ∀ k, k < i → ¬ plic.passedOver k := by
  have hlength : ((List.finRange nrEnableRegs).take i).length = i := by
    rw [List.length_take, List.length_finRange]
    omega
  have hmem (k : Fin nrEnableRegs) : k ∈ (List.finRange nrEnableRegs).take i ↔ k < i := by
    rw [List.mem_take_iff_getElem]
    constructor
    · rintro ⟨m, hm, rfl⟩
      rw [List.getElem_finRange, Fin.lt_def]
      simp at hm ⊢
      omega
    · intro hk
      exact ⟨k, by simp; omega, by simp⟩
  rw [countBefore, Nat.mul_right_inj (by decide)]
  constructor
  · intro h k hk
    have hall := List.length_filter_eq_length_iff.mp (h.trans hlength.symm) k ((hmem k).mpr hk)
    simpa using hall
  · intro h
    rw [List.length_filter_eq_length_iff.mpr fun k hk => by simpa using h k ((hmem k).mp hk),
      hlength]

end Plic

end RiscvEm
