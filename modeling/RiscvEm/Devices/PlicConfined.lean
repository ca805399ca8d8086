import RiscvEm.Devices.Touches
import RiscvEm.Lib.Region

/-!
Accesses to the registers of the interrupt controller: when they stay inside the array
that the offset belongs to, and inside the value that is passed.

The byte pointer is looked up for the first byte, and used with the length of the access
and, for the value that is looked at, with a length of four.
-/

namespace RiscvEm

open Logged

variable {w : Xlen}

namespace Plic

/-! ### Arrays -/

def arrayAt (address : Nat) : Option Region :=
  if address < 0x400 then some ⟨0, 0x400⟩
  else if offsWithin address 0x1000 0x20 then some ⟨4 * pendingWord, 0x20⟩
  else if offsWithin address 0x2000 0x20 then some ⟨4 * enableWord, 0x20⟩
  else if offsWithin address 0x200000 0x4 then some ⟨4 * thresholdWord, 0x4⟩
  else if offsWithin address 0x200004 0x4 then some ⟨4 * claimWord, 0x4⟩
  else none

def bytesLeft (address : Nat) : Option Nat :=
  if address < 0x400 then if 0x4 ≤ address then some (0x400 - address) else none
  else if offsWithin address 0x1000 0x20 then some (0x1000 + 0x20 - address)
  else if offsWithin address 0x2000 0x20 then some (0x2000 + 0x20 - address)
  else if offsWithin address 0x200000 0x4 then some (0x200000 + 0x4 - address)
  else if offsWithin address 0x200004 0x4 then some (0x200004 + 0x4 - address)
  else none

structure PointsInto (address u8Ptr : Nat) (isClaimComplete : Bool) (array : Region)
    (left : Nat) : Prop where
  start_le : array.start ≤ u8Ptr
  add_left : u8Ptr + left = array.start + array.size
  left_pos : 0 < left
  le_claim : u8Ptr + left ≤ 4 * claimWord + 4
  claim_start : isClaimComplete = true → 4 ≤ left → address = 0x200004 ∧ u8Ptr = 4 * claimWord
  claim_of_start : address = 0x200004 → isClaimComplete = true

variable {address u8Ptr : Nat} {isClaimComplete : Bool}

theorem pointsInto_window {offs size base : Nat} (hin : offsWithin address offs size = true)
    (hend : base + size ≤ 4 * claimWord + 4)
    (hclaim : isClaimComplete = true → offs = 0x200004 ∧ size = 4 ∧ base = 4 * claimWord)
    (hstart : address = 0x200004 → isClaimComplete = true) :
    PointsInto address (base + (address - offs)) isClaimComplete ⟨base, size⟩
      (offs + size - address) := by
  rw [offsWithin, Bool.and_eq_true, decide_eq_true_eq, decide_eq_true_eq] at hin
  obtain ⟨hlow, hhigh⟩ := hin
  have hsum : base + (address - offs) + (offs + size - address) = base + size := by omega
  refine ⟨Nat.le_add_right _ _, hsum, by omega, hsum ▸ hend, fun hc hleft => ?_, hstart⟩
  obtain ⟨rfl, rfl, rfl⟩ := hclaim hc
  exact ⟨by omega, by omega⟩

theorem PointsInto.contains {array : Region} {left n : Nat}
    (h : PointsInto address u8Ptr isClaimComplete array left) (hn : n ≤ left) :
    array.Contains u8Ptr n :=
  ⟨h.start_le, Nat.le_trans (Nat.add_le_add_left hn _) (Nat.le_of_eq h.add_left)⟩

theorem PointsInto.end_le {array : Region} {left n : Nat}
    (h : PointsInto address u8Ptr isClaimComplete array left) (hn : n ≤ left) :
    u8Ptr + n ≤ 4 * nrWords := by
  have hstruct : 4 * claimWord + 4 ≤ 4 * nrWords := by decide
  have hclaim := h.le_claim
  omega

/-- The identifier that is looked at, where all of it is in the register. -/
theorem PointsInto.leNat_claimBytes {array : Region} {left : Nat}
    (h : PointsInto address u8Ptr isClaimComplete array left) (plic : Plic)
    (hclaim : isClaimComplete = true) (hleft : 4 ≤ left) :
    leNat ((wordBytes plic.words).read u8Ptr [] 4) = plic.claimComplete.toNat := by
  rw [(h.claim_start hclaim hleft).2, plic.leNat_claimBytes]

theorem getU8RegPtr_pointsInto (h : getU8RegPtr address = some (u8Ptr, isClaimComplete)) :
    ∃ array left, arrayAt address = some array ∧ bytesLeft address = some left ∧
      PointsInto address u8Ptr isClaimComplete array left := by
  rw [getU8RegPtr] at h
  rw [arrayAt, bytesLeft]
  split_ifs at h ⊢ with hlow hreg hpending henable hthreshold hclaim
  all_goals obtain ⟨rfl, rfl⟩ := Prod.mk.inj (Option.some.inj h)
  -- the offset of the claim register is in no other window
  · refine ⟨_, _, rfl, rfl, Nat.zero_le _, ?_, by omega, ?_,
      fun hc => (Bool.false_ne_true hc).elim, by omega⟩
    · show address + (0x400 - address) = 0 + 0x400
      omega
    · rw [show 4 * claimWord = 1092 from rfl]
      omega
  · refine ⟨_, _, rfl, rfl, pointsInto_window hpending (by decide) nofun ?_⟩
    rintro rfl
    exact absurd hpending (by decide)
  · refine ⟨_, _, rfl, rfl, pointsInto_window henable (by decide) nofun ?_⟩
    rintro rfl
    exact absurd henable (by decide)
  · refine ⟨_, _, rfl, rfl, pointsInto_window hthreshold (by decide) nofun ?_⟩
    rintro rfl
    exact absurd hthreshold (by decide)
  · exact ⟨_, _, rfl, rfl, pointsInto_window hclaim (by decide) (fun _ => ⟨rfl, rfl, rfl⟩)
      fun _ => rfl⟩

theorem bytesLeft_eq_none (h : getU8RegPtr address = none) : bytesLeft address = none := by
  rw [getU8RegPtr] at h
  rw [bytesLeft]
  grind

structure Sane (plic : Plic) : Prop where
  priority : ∀ i, (plic.priority i).toNat ≤ 7
  threshold : plic.priorityThreshold.toNat ≤ 7

theorem sane_checkSanity (plic : Plic) : (plicCheckSanity plic).Sane := by
  constructor
  · intro i
    rw [plicCheckSanity, BitVec.toNat_and]
    exact Nat.and_le_right
  · rw [plicCheckSanity, BitVec.toNat_and]
    exact Nat.and_le_right

theorem sane_claim {plic plic' : Plic} {tmpVal : Nat} (h : plicClaim plic tmpVal = .ok plic') :
    plic'.Sane ↔ plic.Sane := by
  rw [plicClaim] at h
  split at h
  · split at h
    · obtain rfl := Except.ok.inj h
      exact ⟨fun hs => ⟨hs.priority, hs.threshold⟩, fun hs => ⟨hs.priority, hs.threshold⟩⟩
    · obtain rfl := Except.ok.inj h
      exact Iff.rfl
  · cases h

end Plic

/-! ### What an access touches -/

section Touches

variable {plic : Plic} {privLevel : PrivilegeLevel} {accessType : BusAccessType}
  {address : RvUintXlen w} {value : List Byte} {len u8Ptr : Nat} {isClaimComplete : Bool}

theorem plicBusTouching_none (hreg : getU8RegPtr address.toNat = none) :
    plicBusTouching plic privLevel accessType address value len = pure (.ok, value, plic) := by
  rw [plicBusTouching, hreg]

theorem mem_log_plic_write (plic : Plic) (privLevel : PrivilegeLevel) (value : List Byte)
    (hreg : getU8RegPtr address.toNat = some (u8Ptr, isClaimComplete))
    (hwrite : accessType = .write) (hend : u8Ptr + len ≤ 4 * Plic.nrWords) (t : Touch) :
    t ∈ (plicBusTouching plic privLevel accessType address value len).log ↔
      t = .loadValue len ∨ t = .storeReg u8Ptr len ∨ t = .loadValue 4 ∨
        (isClaimComplete = true ∧ 4 ≤ value.length ∧
          t = .claimedBits (leNat (value.take 4) / 32)) := by
  rw [plicBusTouching, hreg]
  simp only [if_pos hwrite, mem_log_bind, log_copyIn, result_copyIn, if_neg (Nat.not_lt.mpr hend),
    log_emit, result_emit, List.mem_cons, List.not_mem_nil, or_false, Except.ok.injEq,
    exists_eq_left', or_assoc]
  cases isClaimComplete with
  | false => simp
  | true =>
      by_cases hvalue : 4 ≤ value.length
      · simp [hvalue, Nat.not_lt.mpr hvalue, plicCompleteTouching]
      · simp [hvalue, Nat.lt_of_not_le hvalue]

theorem mem_log_plic_claim {tmpVal : Nat} {t : Touch} :
    t ∈ (plicClaimTouching plic tmpVal).log ↔ t = .pendingBits (tmpVal / 32) ∨
      (t = .claimedBits (tmpVal / 32) ∧ ∃ h : tmpVal / 32 < nrClaimedBitsRegs,
        checkBit (plic.pendingBits ⟨tmpVal / 32, h⟩) (tmpVal % 32) = true) := by
  rw [plicClaimTouching, log_emit_bind, List.mem_cons]
  refine or_congr_right ?_
  split
  · next hreg =>
      split
      · next hpending => simp [hreg, hpending]
      · next hpending => simp [hpending]
  · next hreg => simp [hreg]

theorem mem_log_plic_read (plic : Plic) (privLevel : PrivilegeLevel) (value : List Byte)
    (hreg : getU8RegPtr address.toNat = some (u8Ptr, isClaimComplete))
    (hread : accessType ≠ .write) (hend : u8Ptr + len ≤ 4 * Plic.nrWords) (t : Touch) :
    t ∈ (plicBusTouching plic privLevel accessType address value len).log ↔
      t = .loadReg u8Ptr len ∨ t = .storeValue len ∨ t = .loadReg u8Ptr 4 ∨
        (isClaimComplete = true ∧
          t ∈ (plicClaimTouching plic (leNat ((wordBytes plic.words).read u8Ptr [] 4))).log) := by
  rw [plicBusTouching, hreg]
  simp only [if_neg hread, mem_log_bind, log_copyOut, result_copyOut,
    if_neg (Nat.not_lt.mpr hend), log_emit, result_emit, List.mem_cons, List.not_mem_nil, or_false,
    Except.ok.injEq, exists_eq_left', or_assoc]
  cases isClaimComplete with
  | false => simp
  | true => simp

end Touches

/-! ### Confinement -/

/-- The access touches bytes of the array that the offset belongs to, words of the arrays
of bits and bytes of the value that is passed only, and leaves levels behind. -/
structure PlicConfined (access : Logged Touch Halt (RvRet × List Byte × Plic))
    (address len : Nat) : Prop where
  registers : ∀ start n, .loadReg start n ∈ access.log ∨ .storeReg start n ∈ access.log →
    ∃ array, Plic.arrayAt address = some array ∧ array.Contains start n
  indices : ∀ i, .pendingBits i ∈ access.log ∨ .claimedBits i ∈ access.log → i < 8
  value : ∀ n, .loadValue n ∈ access.log ∨ .storeValue n ∈ access.log → n ≤ len
  sane : ∃ value' plic', access.result = .ok (.ok, value', plic') ∧ plic'.Sane

/-- The four bytes that are looked at and all bytes of the access belong to the array and,
for a write, to the value; the identifier at the claim register has a bit; and a state that
is not written holds levels already. -/
def Plic.Fits (plic : Plic) (accessType : BusAccessType) (address : Nat) (value : List Byte)
    (len : Nat) : Prop :=
  match bytesLeft address with
  | none => plic.Sane
  | some left =>
      if accessType = .write then
        4 ≤ len ∧ len ≤ left ∧ (address = 0x200004 → leNat (value.take 4) < 256)
      else
        4 ≤ left ∧ len ≤ left ∧ (address = 0x200004 → plic.claimComplete.toNat < 256) ∧ plic.Sane

section Confined

variable {plic : Plic} {privLevel : PrivilegeLevel} {accessType : BusAccessType}
  {address : RvUintXlen w} {value : List Byte} {len u8Ptr left : Nat} {isClaimComplete : Bool}
  {array : Region}

theorem plicBusAccess_write_sane (plic : Plic) (privLevel : PrivilegeLevel)
    (hreg : getU8RegPtr address.toNat = some (u8Ptr, isClaimComplete))
    (hwrite : accessType = .write) (hend : u8Ptr + len ≤ 4 * Plic.nrWords)
    (hid : isClaimComplete = true → 4 ≤ value.length ∧ leNat (value.take 4) < 256) :
    ∃ plic', plicBusAccess plic privLevel accessType address value len = .ok (.ok, value, plic') ∧
      plic'.Sane := by
  simp only [plicBusAccess, hreg, if_neg (Nat.not_lt.mpr hend), if_pos hwrite]
  cases isClaimComplete with
  | false => exact ⟨_, rfl, Plic.sane_checkSanity _⟩
  | true =>
      obtain ⟨hlen, hlt⟩ := hid rfl
      have hindex : leNat (value.take 4) / 32 < nrClaimedBitsRegs := Nat.div_lt_of_lt_mul hlt
      simp only [if_true, if_neg (Nat.not_lt.mpr hlen), plicComplete, dif_pos hindex]
      exact ⟨_, rfl, Plic.sane_checkSanity _⟩

theorem plicBusAccess_read_sane (plic : Plic) (privLevel : PrivilegeLevel) (value : List Byte)
    (hreg : getU8RegPtr address.toNat = some (u8Ptr, isClaimComplete))
    (hread : accessType ≠ .write) (hend : u8Ptr + len ≤ 4 * Plic.nrWords)
    (hid : isClaimComplete = true →
      leNat ((wordBytes plic.words).read u8Ptr [] 4) / 32 < nrClaimedBitsRegs) :
    ∃ value' plic', plicBusAccess plic privLevel accessType address value len =
      .ok (.ok, value', plic') ∧ (plic'.Sane ↔ plic.Sane) := by
  simp only [plicBusAccess, hreg, if_neg (Nat.not_lt.mpr hend), if_neg hread]
  cases isClaimComplete with
  | false => exact ⟨_, _, rfl, Iff.rfl⟩
  | true =>
      obtain ⟨plic', hclaim⟩ : ∃ plic',
          plicClaim plic (leNat ((wordBytes plic.words).read u8Ptr [] 4)) = .ok plic' := by
        rw [plicClaim, dif_pos (hid rfl)]
        split
        · exact ⟨_, rfl⟩
        · exact ⟨_, rfl⟩
      simp only [if_true, hclaim, Except.ok_bind]
      exact ⟨_, _, rfl, Plic.sane_claim hclaim⟩

/-- The bytes behind the pointer that are touched belong to the array. -/
theorem PlicConfined.le_left {access : Logged Touch Halt (RvRet × List Byte × Plic)} {n start : Nat}
    (h : PlicConfined access start len) (harray : Plic.arrayAt start = some array)
    (hpoints : Plic.PointsInto start u8Ptr isClaimComplete array left)
    (hmem : .loadReg u8Ptr n ∈ access.log ∨ .storeReg u8Ptr n ∈ access.log) : n ≤ left := by
  obtain ⟨array', harray', -, hcontains⟩ := h.registers u8Ptr n hmem
  obtain rfl := Option.some.inj (harray.symm.trans harray')
  have hsum := hpoints.add_left
  omega

theorem PlicConfined.sane_of_result {access : Logged Touch Halt (RvRet × List Byte × Plic)}
    {start : Nat} {value' : List Byte} {plic' : Plic} (h : PlicConfined access start len)
    (hresult : access.result = .ok (.ok, value', plic')) : plic'.Sane := by
  obtain ⟨value'', plic'', hresult', hsane⟩ := h.sane
  rw [hresult] at hresult'
  obtain ⟨-, hstate⟩ := Prod.mk.inj (Except.ok.inj hresult')
  obtain ⟨-, rfl⟩ := Prod.mk.inj hstate
  exact hsane

theorem plicWrite_fits (hreg : getU8RegPtr address.toNat = some (u8Ptr, isClaimComplete))
    (harray : Plic.arrayAt address.toNat = some array)
    (hpoints : Plic.PointsInto address.toNat u8Ptr isClaimComplete array left)
    (hwrite : accessType = .write) (hvalue : len ≤ value.length)
    (h : PlicConfined (plicBusTouching plic privLevel accessType address value len)
      address.toNat len) :
    4 ≤ len ∧ len ≤ left ∧ (address.toNat = 0x200004 → leNat (value.take 4) < 256) := by
  have hstore : .storeReg u8Ptr len ∈
      (plicBusTouching plic privLevel accessType address value len).log := by
    simp only [plicBusTouching, hreg, if_pos hwrite, mem_log_bind, log_copyIn]
    exact .inl (List.mem_cons_of_mem _ List.mem_cons_self)
  have hleft : len ≤ left := h.le_left harray hpoints (.inr hstore)
  have hlog := mem_log_plic_write plic privLevel value hreg hwrite (hpoints.end_le hleft)
  have hlen : 4 ≤ len := h.value 4 (.inl ((hlog _).mpr (.inr (.inr (.inl rfl)))))
  refine ⟨hlen, hleft, fun hstart => ?_⟩
  have hindex := h.indices _ (.inr ((hlog _).mpr (.inr (.inr (.inr
    ⟨hpoints.claim_of_start hstart, Nat.le_trans hlen hvalue, rfl⟩)))))
  exact (Nat.div_lt_iff_lt_mul (by decide)).mp hindex

theorem plicWrite_confined (hreg : getU8RegPtr address.toNat = some (u8Ptr, isClaimComplete))
    (harray : Plic.arrayAt address.toNat = some array)
    (hpoints : Plic.PointsInto address.toNat u8Ptr isClaimComplete array left)
    (hwrite : accessType = .write) (hvalue : len ≤ value.length) (hlen : 4 ≤ len)
    (hleft : len ≤ left) (hid : address.toNat = 0x200004 → leNat (value.take 4) < 256) :
    PlicConfined (plicBusTouching plic privLevel accessType address value len)
      address.toNat len := by
  have hend := hpoints.end_le hleft
  have hlog := mem_log_plic_write plic privLevel value hreg hwrite hend
  have hid' (hc : isClaimComplete = true) : leNat (value.take 4) < 256 :=
    hid (hpoints.claim_start hc (Nat.le_trans hlen hleft)).1
  constructor
  case registers =>
    intro start n hmem
    simp only [hlog, reduceCtorEq, Touch.storeReg.injEq, false_or, and_false, or_false] at hmem
    obtain ⟨rfl, rfl⟩ := hmem
    exact ⟨array, harray, hpoints.contains hleft⟩
  case indices =>
    intro i hmem
    simp only [hlog, reduceCtorEq, Touch.claimedBits.injEq, false_or, and_false, or_false] at hmem
    obtain ⟨hc, -, rfl⟩ := hmem
    exact Nat.div_lt_of_lt_mul (hid' hc)
  case value =>
    intro n hmem
    simp only [hlog, reduceCtorEq, Touch.loadValue.injEq, false_or, and_false, or_false] at hmem
    rcases hmem with rfl | rfl
    · exact Nat.le_refl _
    · exact hlen
  case sane =>
    obtain ⟨plic', hresult, hsane⟩ := plicBusAccess_write_sane plic privLevel hreg hwrite hend
      fun hc => ⟨Nat.le_trans hlen hvalue, hid' hc⟩
    exact ⟨value, plic', (result_plicBusTouching plic).trans hresult, hsane⟩

theorem plicRead_fits (hreg : getU8RegPtr address.toNat = some (u8Ptr, isClaimComplete))
    (harray : Plic.arrayAt address.toNat = some array)
    (hpoints : Plic.PointsInto address.toNat u8Ptr isClaimComplete array left)
    (hread : accessType ≠ .write)
    (h : PlicConfined (plicBusTouching plic privLevel accessType address value len)
      address.toNat len) :
    4 ≤ left ∧ len ≤ left ∧ (address.toNat = 0x200004 → plic.claimComplete.toNat < 256) ∧
      plic.Sane := by
  have hload : .loadReg u8Ptr len ∈
      (plicBusTouching plic privLevel accessType address value len).log := by
    simp only [plicBusTouching, hreg, if_neg hread, mem_log_bind, log_copyOut]
    exact .inl List.mem_cons_self
  have hleft : len ≤ left := h.le_left harray hpoints (.inl hload)
  have hend := hpoints.end_le hleft
  have hlog := mem_log_plic_read plic privLevel value hreg hread hend
  have hfour : 4 ≤ left :=
    h.le_left harray hpoints (.inl ((hlog _).mpr (.inr (.inr (.inl rfl)))))
  have hindex (hc : isClaimComplete = true) :
      leNat ((wordBytes plic.words).read u8Ptr [] 4) / 32 < 8 :=
    h.indices _ (.inl ((hlog _).mpr (.inr (.inr (.inr
      ⟨hc, mem_log_plic_claim.mpr (.inl rfl)⟩)))))
  refine ⟨hfour, hleft, fun hstart => ?_, ?_⟩
  · have hc := hpoints.claim_of_start hstart
    rw [← hpoints.leNat_claimBytes plic hc hfour]
    exact (Nat.div_lt_iff_lt_mul (by decide)).mp (hindex hc)
  · obtain ⟨value', plic', hresult, hsane⟩ := plicBusAccess_read_sane plic privLevel value hreg
      hread hend hindex
    exact hsane.mp (h.sane_of_result ((result_plicBusTouching plic).trans hresult))

theorem plicRead_confined (hreg : getU8RegPtr address.toNat = some (u8Ptr, isClaimComplete))
    (harray : Plic.arrayAt address.toNat = some array)
    (hpoints : Plic.PointsInto address.toNat u8Ptr isClaimComplete array left)
    (hread : accessType ≠ .write) (hfour : 4 ≤ left) (hleft : len ≤ left)
    (hid : address.toNat = 0x200004 → plic.claimComplete.toNat < 256) (hstate : plic.Sane) :
    PlicConfined (plicBusTouching plic privLevel accessType address value len)
      address.toNat len := by
  have hend := hpoints.end_le hleft
  have hlog := mem_log_plic_read plic privLevel value hreg hread hend
  have hindex (hc : isClaimComplete = true) :
      leNat ((wordBytes plic.words).read u8Ptr [] 4) / 32 < 8 := by
    rw [hpoints.leNat_claimBytes plic hc hfour]
    exact Nat.div_lt_of_lt_mul (hid (hpoints.claim_start hc hfour).1)
  constructor
  case registers =>
    intro start n hmem
    simp only [hlog, mem_log_plic_claim, reduceCtorEq, Touch.loadReg.injEq, false_or, false_and,
      and_false, or_false] at hmem
    rcases hmem with ⟨rfl, rfl⟩ | ⟨rfl, rfl⟩
    · exact ⟨array, harray, hpoints.contains hleft⟩
    · exact ⟨array, harray, hpoints.contains hfour⟩
  case indices =>
    intro i hmem
    simp only [hlog, mem_log_plic_claim, reduceCtorEq, Touch.pendingBits.injEq,
      Touch.claimedBits.injEq, false_or, false_and, or_false] at hmem
    rcases hmem with ⟨hc, rfl⟩ | ⟨hc, rfl, -⟩
    · exact hindex hc
    · exact hindex hc
  case value =>
    intro n hmem
    simp only [hlog, mem_log_plic_claim, reduceCtorEq, Touch.storeValue.injEq, false_or,
      false_and, and_false, or_false] at hmem
    exact Nat.le_of_eq hmem
  case sane =>
    obtain ⟨value', plic', hresult, hsane⟩ := plicBusAccess_read_sane plic privLevel value hreg
      hread hend hindex
    exact ⟨value', plic', (result_plicBusTouching plic).trans hresult, hsane.mpr hstate⟩

/-- Exactly the accesses that fit are confined. -/
theorem plicConfined_iff (plic : Plic) (privLevel : PrivilegeLevel) (accessType : BusAccessType)
    (address : RvUintXlen w) (hvalue : len ≤ value.length) :
    PlicConfined (plicBusTouching plic privLevel accessType address value len) address.toNat len ↔
      plic.Fits accessType address.toNat value len := by
  cases hreg : getU8RegPtr address.toNat with
  | none =>
      rw [plicBusTouching_none hreg, Plic.Fits, Plic.bytesLeft_eq_none hreg]
      constructor
      · exact fun h => h.sane_of_result rfl
      · intro hsane
        exact ⟨by simp, by simp, by simp, value, plic, rfl, hsane⟩
  | some reg =>
      obtain ⟨u8Ptr, isClaimComplete⟩ := reg
      obtain ⟨array, left, harray, hleft, hpoints⟩ := Plic.getU8RegPtr_pointsInto hreg
      rw [Plic.Fits, hleft]
      by_cases hwrite : accessType = .write
      · simp only [if_pos hwrite]
        constructor
        · exact plicWrite_fits hreg harray hpoints hwrite hvalue
        · rintro ⟨hlen, hle, hid⟩
          exact plicWrite_confined hreg harray hpoints hwrite hvalue hlen hle hid
      · simp only [if_neg hwrite]
        constructor
        · exact plicRead_fits hreg harray hpoints hwrite
        · rintro ⟨hfour, hle, hid, hstate⟩
          exact plicRead_confined hreg harray hpoints hwrite hfour hle hid hstate

end Confined

theorem plicConfined_iff_priority :
    PlicConfined (plicBusTouching {} .machine .write (4 : RvUintXlen .rv64) [1, 0, 0, 0] 4)
      (4 : RvUintXlen .rv64).toNat 4 := by
  refine (plicConfined_iff {} .machine .write 4 (by decide)).mpr ?_
  have hleft : Plic.bytesLeft (4 : RvUintXlen .rv64).toNat = some 1020 := by decide
  rw [Plic.Fits, hleft]
  exact ⟨by decide, by decide, by decide⟩

/-- Eight bytes at the threshold also store the claim register. -/
theorem threshold_write_not_confined :
    ¬ ∀ (plic : Plic) (privLevel : PrivilegeLevel) (accessType : BusAccessType)
      (address : RvUintXlen .rv64) (value : List Byte) (len : Nat), len ∈ [1, 2, 4, 8] →
        address.toNat + len ≤ plicSizeBytes → value.length = len →
          PlicConfined (plicBusTouching plic privLevel accessType address value len)
            address.toNat len := by
  intro h
  have hconfined := h {} .machine .write 0x200000 (List.replicate 8 0) 8 (by decide) (by decide)
    rfl
  have hstore : .storeReg 1088 8 ∈ (plicBusTouching {} .machine .write
      (0x200000 : RvUintXlen .rv64) (List.replicate 8 0) 8).log := by
    decide
  obtain ⟨array, harray, -, hend⟩ := hconfined.registers 1088 8 (.inr hstore)
  obtain rfl := Option.some.inj harray
  exact absurd hend (by decide)

end RiscvEm
