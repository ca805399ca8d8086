import RiscvEm.Devices.PlicClaims
import RiscvEm.Lib.RunningChoice
import Mathlib.Data.Finset.Max
import Mathlib.Order.Nat

/-!
Which source `plic_update` selects, against the rule of the controller: the highest
priority, and among equals the lowest number.

The loops keep a running choice over the numbers that the counter has at the enabled,
pending and unclaimed bits, with the priority of the choice in eight bits.
-/

namespace RiscvEm

namespace Plic

variable {plic : Plic}

/-! ### The rule -/

/-- An eligible source that no other one precedes, by its priority or, at the same
priority, by its number. Source 0 does not exist. -/
structure Best (plic : Plic) (id : Nat) : Prop where
  pos : 1 ≤ id
  eligible : plic.Eligible id
  precedes : ∀ other, 1 ≤ other → plic.Eligible other → other ≠ id →
    plic.prio other < plic.prio id ∨ (plic.prio other = plic.prio id ∧ id < other)

structure SelectsBest (plic : Plic) : Prop where
  best : ∀ id, 1 ≤ id → ((plicUpdate plic).1 = 1 ∧ (plicUpdate plic).2.claimComplete.toNat = id ↔
    plic.Best id)
  nothing : (∀ id, 1 ≤ id → ¬ plic.Eligible id) →
    (plicUpdate plic).1 = 0 ∧ (plicUpdate plic).2.claimComplete = 0

/-! ### The numbers that are compared -/

/-- The number that the counter has at some bit that is counted. -/
def Numbered (plic : Plic) (m : Nat) : Prop :=
  ∃ i j, j < 32 ∧ plic.Counted i j ∧ m = plic.countBefore i + j

def fullPrio (plic : Plic) (m : Nat) : Nat := (plic.prio m).toNat

/-- What `highest_prio` holds of it. -/
def storedPrio (plic : Plic) (m : Nat) : Nat := plic.fullPrio m % 2 ^ 8

/-- The number is the one that the scan ends with. -/
def ChosenNumber (plic : Plic) : Nat → Prop :=
  RunningChoice.Chosen plic.fullPrio plic.storedPrio plic.Numbered

def wordNumbers (plic : Plic) (i : Fin nrEnableRegs) : List Nat :=
  ((List.range 32).filter fun j => plic.Counted i j).map (plic.countBefore i + ·)

def numbers (plic : Plic) : List Nat := (List.finRange nrEnableRegs).flatMap plic.wordNumbers

theorem mem_wordNumbers {i : Fin nrEnableRegs} {m : Nat} :
    m ∈ plic.wordNumbers i ↔ ∃ j, j < 32 ∧ plic.Counted i j ∧ m = plic.countBefore i + j := by
  simp only [wordNumbers, List.mem_map, List.mem_filter, List.mem_range, decide_eq_true_eq]
  constructor
  · rintro ⟨j, ⟨hj, hcounted⟩, rfl⟩
    exact ⟨j, hj, hcounted, rfl⟩
  · rintro ⟨j, hj, hcounted, rfl⟩
    exact ⟨j, ⟨hj, hcounted⟩, rfl⟩

theorem mem_numbers {m : Nat} : m ∈ plic.numbers ↔ plic.Numbered m := by
  simp only [numbers, List.mem_flatMap, List.mem_finRange, true_and, mem_wordNumbers]
  exact Iff.rfl

theorem checkBit_zero_word {k : Nat} : checkBit (0 : BitVec 32) k = false := by
  rw [checkBit_eq_getLsbD, BitVec.ofNat_eq_ofNat, BitVec.getLsbD_zero]

theorem Claimable.not_passedOver {i : Fin nrEnableRegs} {j : Nat} (h : plic.Claimable i j) :
    ¬ plic.passedOver i := by
  rintro (hzero | hzero)
  · have henabled := h.1
    rw [hzero, checkBit_zero_word] at henabled
    cases henabled
  · have hpending := h.2.1
    rw [hzero, checkBit_zero_word] at hpending
    cases hpending

theorem countBefore_mono {m n : Nat} (h : m ≤ n) : plic.countBefore m ≤ plic.countBefore n := by
  have hsub : ((List.finRange nrEnableRegs).take m).Sublist
      ((List.finRange nrEnableRegs).take n) := List.take_sublist_take_left h
  exact Nat.mul_le_mul_left 32 (hsub.filter _).length_le

theorem numbers_pairwise (plic : Plic) : plic.numbers.Pairwise (· < ·) := by
  rw [numbers, List.pairwise_flatMap]
  constructor
  · intro i _
    rw [wordNumbers, List.pairwise_map]
    refine (List.pairwise_lt_range.filter _).imp fun h => ?_
    exact Nat.add_lt_add_left h _
  · refine (List.pairwise_lt_finRange nrEnableRegs).imp fun {i i'} hlt m hm m' hm' => ?_
    obtain ⟨j, hj, hcounted, rfl⟩ := mem_wordNumbers.mp hm
    obtain ⟨j', -, -, rfl⟩ := mem_wordNumbers.mp hm'
    have hsucc := countBefore_succ hcounted.1.not_passedOver
    have hmono : plic.countBefore (i + 1) ≤ plic.countBefore i' :=
      countBefore_mono (Nat.succ_le_of_lt hlt)
    omega

/-! ### The loops as a running choice -/

def choice (scan : PlicScan) : Nat × Nat := (scan.irqToTrigger, scan.highestPrio.toNat)

theorem choice_plicScanBit (plic : Plic) (i : Fin nrEnableRegs) (scan : PlicScan) (j : Nat) :
    choice (plicScanBit plic i scan j) =
      if (checkBit (plic.enableBits i) j = true ∧ checkBit (scan.pendingBits i) j = true ∧
          checkBit (plic.claimedBits i) j = false) ∧
          plic.priorityThreshold ≤ plic.prio scan.irqIdCount then
        RunningChoice.step plic.fullPrio plic.storedPrio (choice scan) scan.irqIdCount
      else choice scan := by
  have hcompare : scan.highestPrio.setWidth 32 ≤ plic.prio scan.irqIdCount ↔
      scan.highestPrio.toNat ≤ plic.fullPrio scan.irqIdCount := by
    rw [BitVec.le_def, BitVec.toNat_setWidth_of_le (by decide), fullPrio]
  rw [plicScanBit]
  by_cases htest : checkBit (plic.enableBits i) j = true ∧
      checkBit (scan.pendingBits i) j = true ∧
      plic.priorityThreshold ≤ plic.prio scan.irqIdCount
  · obtain ⟨henabled, hpending, hthreshold⟩ := htest
    rw [if_pos (by rw [henabled, hpending, decide_eq_true hthreshold]; rfl)]
    cases hclaimed : checkBit (plic.claimedBits i) j with
    | true =>
        rw [if_pos rfl, if_neg (fun h => by cases h.1.2.2)]
        rfl
    | false =>
        have hcond : (checkBit (plic.enableBits i) j = true ∧
            checkBit (scan.pendingBits i) j = true ∧ false = false) ∧
              plic.priorityThreshold ≤ plic.prio scan.irqIdCount :=
          ⟨⟨henabled, hpending, rfl⟩, hthreshold⟩
        rw [if_neg Bool.false_ne_true, if_pos hcond, RunningChoice.step]
        by_cases hle : scan.highestPrio.setWidth 32 ≤ plic.prio scan.irqIdCount
        · rw [if_pos hle, if_pos (show (choice scan).2 ≤ _ from hcompare.mp hle)]
          simp only [choice, storedPrio, fullPrio, BitVec.toNat_setWidth]
        · rw [if_neg hle, if_neg (show ¬ (choice scan).2 ≤ _ from mt hcompare.mpr hle)]
          rfl
  · rw [if_neg (fun h => htest ?_), if_neg (fun h => htest ⟨h.1.1, h.1.2.1, h.2⟩)]
    · rfl
    · simp only [Bool.and_eq_true, decide_eq_true_eq] at h
      exact ⟨h.1.1, h.1.2, h.2⟩

/-- The choice after the first `n` bits of a word that is looked at with its pending bits
untouched. -/
theorem choice_scannedBits (i : Fin nrEnableRegs) {start : PlicScan}
    (hcount : start.irqIdCount = plic.countBefore i)
    (hpending : start.pendingBits i = plic.pendingBits i) {n : Nat} (hn : n ≤ 32) :
    choice ((List.range n).foldl (plicScanBit plic i) start) =
      (((List.range n).filter fun j => plic.Counted i j).map (plic.countBefore i + ·)).foldl
        (RunningChoice.step plic.fullPrio plic.storedPrio) (choice start) := by
  induction n with
  | zero => rfl
  | succ n ih =>
      have hbits := scannedBits plic i start (show n ≤ 32 by omega)
      rw [List.range_succ, List.foldl_append, List.filter_append, List.map_append,
        List.foldl_append, ← ih (by omega)]
      simp only [List.foldl_cons, List.foldl_nil]
      rw [choice_plicScanBit, hbits.count, hbits.ahead n (Nat.le_refl n), hcount, hpending]
      by_cases hcounted : plic.Counted i n
      · rw [List.filter_cons_of_pos (by simpa using hcounted)]
        exact if_pos hcounted
      · rw [List.filter_cons_of_neg (by simpa using hcounted)]
        exact if_neg hcounted

theorem choice_scannedWords (plic : Plic) {n : Nat} (hn : n ≤ nrEnableRegs) :
    choice (((List.finRange nrEnableRegs).take n).foldl (plicScanWord plic)
        { pendingBits := plic.pendingBits }) =
      (((List.finRange nrEnableRegs).take n).flatMap plic.wordNumbers).foldl
        (RunningChoice.step plic.fullPrio plic.storedPrio) (0, ⊥) := by
  induction n with
  | zero => rfl
  | succ n ih =>
      have hwords := scannedWords plic (show n ≤ nrEnableRegs by omega)
      have hsame := hwords.ahead ⟨n, hn⟩ (Nat.le_refl n)
      have htake : (List.finRange nrEnableRegs).take (n + 1) =
          (List.finRange nrEnableRegs).take n ++ [⟨n, hn⟩] := finRange_take_succ ⟨n, hn⟩
      rw [htake, List.foldl_append, List.flatMap_append, List.foldl_append, ← ih (by omega)]
      simp only [List.foldl_cons, List.foldl_nil, List.flatMap_cons, List.flatMap_nil,
        List.append_nil]
      rw [plicScanWord, hsame]
      split
      · next hpassed =>
          -- a word that is passed over has no number to compare
          have hnone : plic.wordNumbers ⟨n, hn⟩ = [] := by
            refine List.eq_nil_iff_forall_not_mem.mpr fun m hm => ?_
            obtain ⟨j, -, hcounted, -⟩ := mem_wordNumbers.mp hm
            exact hcounted.1.not_passedOver hpassed
          rw [hnone]
          rfl
      · exact choice_scannedBits ⟨n, hn⟩ hwords.count hsame (Nat.le_refl 32)

theorem storedPrio_le (plic : Plic) (m : Nat) : plic.storedPrio m ≤ plic.fullPrio m :=
  Nat.mod_le _ _

/-- The scan ends with the chosen number, or with 0 if there is no number at all. -/
theorem plicScan_chosen (plic : Plic) :
    ((∀ m, ¬ plic.Numbered m) ∧ (plicScan plic).irqToTrigger = 0) ∨
      plic.ChosenNumber (plicScan plic).irqToTrigger := by
  have hscan := choice_scannedWords plic (Nat.le_refl nrEnableRegs)
  rw [List.take_of_length_le (by simp)] at hscan
  have hfold := RunningChoice.foldl_step plic.storedPrio_le 0 plic.numbers plic.numbers_pairwise
  have hmem : (· ∈ plic.numbers) = plic.Numbered := funext fun m => propext mem_numbers
  rcases hfold with ⟨hnil, hinit⟩ | ⟨b, hchosen, hfold⟩
  · refine .inl ⟨fun m hm => ?_, congrArg Prod.fst (hscan.trans hinit)⟩
    rw [← mem_numbers, hnil] at hm
    cases hm
  · right
    have hb : (plicScan plic).irqToTrigger = b := congrArg Prod.fst (hscan.trans hfold)
    rw [hb, ChosenNumber, ← hmem]
    exact hchosen

theorem plicScan_eq_iff {b : Nat} (hb : 1 ≤ b) :
    (plicScan plic).irqToTrigger = b ↔ plic.ChosenNumber b := by
  rcases plicScan_chosen plic with ⟨hnone, hzero⟩ | hchosen
  · refine iff_of_false (by omega) fun h => hnone b h.mem
  · constructor
    · rintro rfl
      exact hchosen
    · exact fun h => RunningChoice.Chosen.unique _ _ hchosen h

/-- With no priority at number 0 the scan ends there only for want of another number. -/
theorem plicScan_eq_zero_iff (hzero : plic.priority 0 = 0) :
    (plicScan plic).irqToTrigger = 0 ↔ ∀ m, plic.Numbered m → m = 0 := by
  have hprio : plic.storedPrio 0 = 0 := by
    have hp : plic.prio 0 = 0 := hzero
    rw [storedPrio, fullPrio, hp]
    rfl
  rcases plicScan_chosen plic with ⟨hnone, hscan⟩ | hchosen
  · exact iff_of_true hscan fun m hm => absurd hm (hnone m)
  · constructor
    · intro hscan m hm
      rw [hscan] at hchosen
      by_contra hne
      have hless := hchosen.after m hm (Nat.pos_of_ne_zero hne)
      rw [hprio] at hless
      exact absurd hless (Nat.not_lt_zero _)
    · exact fun h => h _ hchosen.mem

/-! ### The selection -/

theorem plicUpdate_iff (plic : Plic) :
    (∀ id, 1 ≤ id → ((plicUpdate plic).1 = 1 ∧ (plicUpdate plic).2.claimComplete.toNat = id ↔
      (plicScan plic).irqToTrigger = id)) ∧
    ((plicUpdate plic).1 = 0 ∧ (plicUpdate plic).2.claimComplete = 0 ↔
      (plicScan plic).irqToTrigger = 0) := by
  have hlt := plicScan_irqToTrigger_lt plic
  rw [plicUpdate]
  by_cases hpos : 0 < (plicScan plic).irqToTrigger
  · simp only [if_pos hpos]
    constructor
    · intro id _
      rw [BitVec.toNat_ofNat, Nat.mod_eq_of_lt (by omega)]
      exact and_iff_right trivial
    · exact iff_of_false (fun h => absurd h.1 (by decide)) (by omega)
  · simp only [if_neg hpos]
    constructor
    · intro id hid
      exact iff_of_false (fun h => absurd h.1 (by decide)) (by omega)
    · exact iff_of_true ⟨trivial, trivial⟩ (by omega)

theorem Eligible.lt {id : Nat} (h : plic.Eligible id) : id < 256 := by
  by_contra hge
  have henabled := h.enabled
  rw [sourceBit, dif_neg (show ¬ id / 32 < nrPendingRegs by simp only [nrPendingRegs]; omega)]
    at henabled
  cases henabled

theorem exists_best {id : Nat} (hid : 1 ≤ id) (h : plic.Eligible id) : ∃ b, plic.Best b := by
  classical
  -- priority and number as one number
  let key (k : Nat) : Nat := plic.fullPrio k * 256 + (255 - k)
  let eligible := (Finset.range 256).filter fun k => 1 ≤ k ∧ plic.Eligible k
  have hmem : ∀ k, k ∈ eligible ↔ 1 ≤ k ∧ plic.Eligible k := by
    intro k
    rw [Finset.mem_filter, Finset.mem_range]
    exact and_iff_right_of_imp fun hk => hk.2.lt
  obtain ⟨b, hb, hmax⟩ := Finset.exists_max_image eligible key ⟨id, (hmem id).mpr ⟨hid, h⟩⟩
  obtain ⟨hpos, heligible⟩ := (hmem b).mp hb
  refine ⟨b, hpos, heligible, fun other hother hel hne => ?_⟩
  have hkey : plic.fullPrio other * 256 + (255 - other) ≤ plic.fullPrio b * 256 + (255 - b) :=
    hmax other ((hmem other).mpr ⟨hother, hel⟩)
  have hlt := heligible.lt
  have hlt' := hel.lt
  rw [BitVec.lt_def, ← BitVec.toNat_inj]
  simp only [fullPrio] at hkey
  omega

/-- `plic_update` selects by the rule just where the best source is the number that the
running choice ends with, and where it has nothing but the number 0 to choose from when
there is no eligible source. -/
theorem selectsBest_iff (hzero : plic.priority 0 = 0) :
    plic.SelectsBest ↔ (∀ b, plic.Best b → plic.ChosenNumber b) ∧
      ((∀ id, 1 ≤ id → ¬ plic.Eligible id) → ∀ m, plic.Numbered m → m = 0) := by
  obtain ⟨hreport, hnothing⟩ := plicUpdate_iff plic
  constructor
  · intro h
    constructor
    · intro b hb
      rw [← plicScan_eq_iff hb.pos, ← hreport b hb.pos]
      exact (h.best b hb.pos).mpr hb
    · intro hnone
      rw [← plicScan_eq_zero_iff hzero, ← hnothing]
      exact h.nothing hnone
  · rintro ⟨hbest, hnone⟩
    constructor
    case best =>
      intro id hid
      rw [hreport id hid]
      constructor
      · intro hscan
        by_cases hel : ∃ k, 1 ≤ k ∧ plic.Eligible k
        · obtain ⟨k, hk, hel⟩ := hel
          obtain ⟨b, hb⟩ := exists_best hk hel
          rw [← hscan, (plicScan_eq_iff hb.pos).mpr (hbest b hb)]
          exact hb
        · have hscan' := (plicScan_eq_zero_iff hzero).mpr
            (hnone fun k hk hel' => hel ⟨k, hk, hel'⟩)
          omega
      · exact fun hb => (plicScan_eq_iff hid).mpr (hbest id hb)
    case nothing =>
      intro h
      exact hnothing.mpr ((plicScan_eq_zero_iff hzero).mpr (hnone h))

/-- Sources 1 and 2 are enabled and pending at one priority. -/
def tied : Plic :=
  { priority := fun i => if i.val = 1 ∨ i.val = 2 then 1 else 0
    pendingBits := fun i => if i.val = 0 then 0x6 else 0
    enableBits := fun i => if i.val = 0 then 0x6 else 0 }

/-- Sources 1 and 10 are enabled and pending, source 1 at the higher priority. -/
def ranked : Plic :=
  { priority := fun i => if i.val = 1 then 2 else if i.val = 10 then 1 else 0
    pendingBits := fun i => if i.val = 0 then 0x402 else 0
    enableBits := fun i => if i.val = 0 then 0x402 else 0 }

theorem selectsBest_iff_ranked : ranked.SelectsBest := by
  have hnumbers : ranked.numbers = [1, 10] := by decide
  have heligible {id : Nat} (h : ranked.Eligible id) : id = 1 ∨ id = 10 := by
    have hbound : id < 256 := by
      by_contra hlarge
      have hword : ¬ id / 32 < nrPendingRegs := by
        show ¬ id / 32 < 8
        omega
      have hpending := h.pending
      rw [sourceBit, dif_neg hword] at hpending
      cases hpending
    have hall : ∀ id < 256, sourceBit ranked.enableBits id = true → id = 1 ∨ id = 10 := by
      decide +kernel
    exact hall id hbound h.enabled
  have hone : ranked.Eligible 1 := ⟨by decide, by decide, by decide, by decide⟩
  refine (selectsBest_iff rfl).mpr ⟨fun b hb => ?_, fun hnone => absurd hone (hnone 1 (by decide))⟩
  rcases heligible hb.eligible with rfl | rfl
  · refine ⟨mem_numbers.mp (by rw [hnumbers]; decide), fun m hm hlt => ?_, fun m hm hlt => ?_⟩
    · have hmem := mem_numbers.mpr hm
      rw [hnumbers] at hmem
      simp only [List.mem_cons, List.not_mem_nil, or_false] at hmem
      obtain rfl : m = 10 := by omega
      decide
    · have hmem := mem_numbers.mpr hm
      rw [hnumbers] at hmem
      simp only [List.mem_cons, List.not_mem_nil, or_false] at hmem
      omega
  · -- source 10 is preceded
    exact absurd (hb.precedes 1 (by decide) hone (by decide)) (by decide)

/-- Of two sources with one priority the higher number is reported. -/
theorem tie_to_higher_number :
    ¬ ∀ plic : Plic, plic.priority 0 = 0 → plic.SelectsBest := by
  intro h
  have hreport : (plicUpdate tied).1 = 1 ∧ (plicUpdate tied).2.claimComplete.toNat = 2 := by
    decide
  have hbest : tied.Best 2 := ((h tied rfl).best 2 (by decide)).mp hreport
  have heligible : tied.Eligible 1 := ⟨by decide, by decide, by decide, by decide⟩
  exact absurd (hbest.precedes 1 (by decide) heligible (by decide)) (by decide)

end Plic

end RiscvEm
