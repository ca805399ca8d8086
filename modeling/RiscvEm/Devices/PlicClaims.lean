import RiscvEm.Devices.PlicScan
import RiscvEm.Lib.Except
import RiscvEm.Lib.Transition

/-!
The claim protocol of the interrupt controller over runs: sources that change level,
updates, and aligned accesses of four bytes with an update between any two of them.
-/

namespace RiscvEm

variable {w : Xlen}

/-! ### Aligned accesses -/

inductive PlicReg
  | priority (i : Fin nrPrioMemRegs)
  | enable (i : Fin nrEnableRegs)
  | threshold
  | claim
  deriving DecidableEq

def PlicReg.offset : PlicReg → Nat
  | priority i => 4 * i
  | enable i => 0x2000 + 4 * i
  | threshold => 0x200000
  | claim => 0x200004

/-- An aligned access of four bytes: the bytes that are passed back, and the controller
after it. -/
def plicAccess (w : Xlen) (plic : Plic) (privLevel : PrivilegeLevel)
    (accessType : BusAccessType) (reg : PlicReg) (value : List Byte) :
    Except Halt (List Byte × Plic) := do
  let (_, value, plic) ← plicBusAccess plic privLevel accessType
    (BitVec.ofNat w.bits reg.offset) value 4
  return (value, plic)

theorem PlicReg.toNat_offset (reg : PlicReg) :
    (BitVec.ofNat w.bits reg.offset).toNat = reg.offset := by
  have hlt : reg.offset < 2 ^ 32 := by
    cases reg with
    | priority i =>
        have hi : i.val < 256 := i.isLt
        rw [offset]
        omega
    | enable i =>
        have hi : i.val < 8 := i.isLt
        rw [offset]
        omega
    | threshold => decide
    | claim => decide
  exact w.toNat_ofNat hlt

theorem getU8RegPtr_claim :
    getU8RegPtr PlicReg.claim.offset = some (4 * Plic.claimWord, true) := rfl

theorem getU8RegPtr_other {reg : PlicReg} (hreg : reg ≠ .claim) :
    getU8RegPtr reg.offset = none ∨
      ∃ word, word < Plic.claimWord ∧ getU8RegPtr reg.offset = some (4 * word, false) := by
  cases reg with
  | priority i =>
      have hi : i.val < 256 := i.isLt
      rw [PlicReg.offset, getU8RegPtr, if_pos (by omega)]
      split
      · exact .inr ⟨i, Nat.lt_of_lt_of_le i.isLt (by decide), rfl⟩
      · exact .inl rfl
  | enable i =>
      have hi : i.val < 8 := i.isLt
      have hlt : Plic.enableWord + i.val < Plic.claimWord :=
        calc Plic.enableWord + i.val
            < Plic.enableWord + nrEnableRegs := Nat.add_lt_add_left i.isLt _
          _ ≤ Plic.claimWord := by decide
      have hwithin : offsWithin (0x2000 + 4 * i) 0x2000 0x20 = true := by
        rw [offsWithin]
        simp
        omega
      have hpending : offsWithin (0x2000 + 4 * i) 0x1000 0x20 = false := by
        rw [offsWithin]
        simp
        omega
      refine .inr ⟨Plic.enableWord + i, hlt, ?_⟩
      rw [PlicReg.offset, getU8RegPtr, if_neg (by omega), hpending, if_neg (by decide), hwithin,
        if_pos rfl, Nat.add_sub_cancel_left, Nat.mul_add]
  | threshold => exact .inr ⟨Plic.thresholdWord, by decide, rfl⟩
  | claim => exact absurd rfl hreg

section Accesses

variable {plic plic' : Plic} {privLevel : PrivilegeLevel} {value bytes : List Byte}

theorem plicAccess_read_claim (hvalue : value.length = 4)
    (h : plicAccess w plic privLevel .read .claim value = .ok (bytes, plic')) :
    leNat bytes = plic.claimComplete.toNat ∧
      plicClaim plic plic.claimComplete.toNat = .ok plic' := by
  have hread : (wordBytes plic.words).read (4 * Plic.claimWord) value 4 =
      (wordBytes plic.words).read (4 * Plic.claimWord) [] 4 := by
    rw [Memory.read, Memory.read, List.drop_of_length_le (Nat.le_of_eq hvalue), List.drop_nil]
  simp only [plicAccess, plicBusAccess, PlicReg.toNat_offset, getU8RegPtr_claim, hread,
    plic.leNat_claimBytes] at h
  rw [if_neg (by decide), if_neg (by decide), if_pos trivial] at h
  obtain ⟨access, haccess, h⟩ := Except.bind_eq_ok.mp h
  obtain ⟨plic₁, hclaim, haccess⟩ := Except.bind_eq_ok.mp haccess
  obtain rfl := Except.ok.inj haccess
  obtain ⟨rfl, rfl⟩ := Prod.mk.inj (Except.ok.inj h)
  exact ⟨plic.leNat_claimBytes, hclaim⟩

theorem plicAccess_read_other {reg : PlicReg} (hreg : reg ≠ .claim)
    (h : plicAccess w plic privLevel .read reg value = .ok (bytes, plic')) : plic' = plic := by
  obtain ⟨access, haccess, h⟩ := Except.bind_eq_ok.mp h
  obtain ⟨-, rfl⟩ := Prod.mk.inj (Except.ok.inj h)
  rw [plicBusAccess, PlicReg.toNat_offset] at haccess
  rcases getU8RegPtr_other hreg with hnone | ⟨word, hword, hsome⟩
  · rw [hnone] at haccess
    rw [← Except.ok.inj haccess]
  · simp only [hsome] at haccess
    split at haccess
    · cases haccess
    · rw [if_neg (by decide)] at haccess
      rw [← Except.ok.inj haccess]

theorem Plic.words_claimed (plic : Plic) (i : Fin nrClaimedBitsRegs) :
    plic.words (claimedWord + i) = plic.claimedBits i := by
  have hregs : nrPendingRegs = 8 ∧ nrEnableRegs = 8 := ⟨rfl, rfl⟩
  have hpending : pendingWord = 256 := rfl
  have henable : enableWord = 264 := rfl
  have hthreshold : thresholdWord = 272 := rfl
  have hclaim : claimWord = 273 := rfl
  have hclaimed : claimedWord = 274 := rfl
  have hindex : claimedWord + i.val - claimedWord = i.val := Nat.add_sub_cancel_left _ _
  rw [words, dif_neg (by omega), dif_neg (by omega), dif_neg (by omega), if_neg (by omega),
    if_neg (by omega), dif_pos (by rw [hindex]; exact i.isLt)]
  exact congrArg plic.claimedBits (Fin.ext hindex)

/-- A write of a word before the claimed bits leaves them. -/
theorem claimedBits_ofWords_writeWords (plic : Plic) {word : Nat} (hword : word ≤ Plic.claimWord)
    (value : List Byte) :
    (Plic.ofWords (writeWords plic.words (4 * word) value 4)).claimedBits = plic.claimedBits := by
  funext i
  have hclaimed : Plic.claimedWord = Plic.claimWord + 1 := rfl
  show writeWords plic.words (4 * word) value 4 (Plic.claimedWord + i) = _
  rw [writeWords_of_disjoint (by decide) (.inr (by omega)), Plic.words_claimed]

theorem plicAccess_write_other {reg : PlicReg} (hreg : reg ≠ .claim)
    (h : plicAccess w plic privLevel .write reg value = .ok (bytes, plic')) :
    plic'.claimedBits = plic.claimedBits := by
  obtain ⟨access, haccess, h⟩ := Except.bind_eq_ok.mp h
  obtain ⟨-, rfl⟩ := Prod.mk.inj (Except.ok.inj h)
  rw [plicBusAccess, PlicReg.toNat_offset] at haccess
  rcases getU8RegPtr_other hreg with hnone | ⟨word, hword, hsome⟩
  · rw [hnone] at haccess
    rw [← Except.ok.inj haccess]
  · simp only [hsome] at haccess
    split at haccess
    · cases haccess
    · rw [if_pos trivial, if_neg (by decide)] at haccess
      rw [← Except.ok.inj haccess]
      exact claimedBits_ofWords_writeWords plic (Nat.le_of_lt hword) _

theorem plicAccess_write_claim (hvalue : value.length = 4) (hid : leNat value < 256)
    (h : plicAccess w plic privLevel .write .claim value = .ok (bytes, plic')) (id : Nat) :
    sourceBit plic'.claimedBits id =
      if id = leNat value then false else sourceBit plic.claimedBits id := by
  have hreg : leNat value / 32 < nrClaimedBitsRegs := Nat.div_lt_of_lt_mul hid
  obtain ⟨access, haccess, h⟩ := Except.bind_eq_ok.mp h
  obtain ⟨-, rfl⟩ := Prod.mk.inj (Except.ok.inj h)
  rw [plicBusAccess, PlicReg.toNat_offset] at haccess
  simp only [getU8RegPtr_claim, List.take_of_length_le (Nat.le_of_eq hvalue), hvalue,
    plicComplete, dif_pos hreg] at haccess
  rw [if_neg (by decide), if_pos trivial, if_pos trivial, if_neg (by decide)] at haccess
  rw [← Except.ok.inj haccess]
  show sourceBit (assignArrayBit _ ⟨leNat value / 32, hreg⟩ (leNat value % 32) false) id = _
  rw [claimedBits_ofWords_writeWords plic (Nat.le_refl _), sourceBit_assign _ hreg]

end Accesses

/-! ### Runs -/

inductive PlicEvent
  /-- `plic_update` is called in this state. -/
  | updated (plic : Plic)
  /-- A read of the claim register returns this number. -/
  | claimed (id : Nat)
  /-- This number is written back to the claim register. -/
  | completed (id : Nat)
  | accessed

structure PlicRun where
  plic : Plic := {}
  history : List PlicEvent := []

def lastUpdate : List PlicEvent → Plic
  | [] => {}
  | .updated plic :: _ => plic
  | _ :: rest => lastUpdate rest

/-- A source has been claimed and not been completed since. -/
def Outstanding (id : Nat) : List PlicEvent → Prop
  | [] => False
  | .claimed id' :: rest => id' = id ∨ Outstanding id rest
  | .completed id' :: rest => id' ≠ id ∧ Outstanding id rest
  | _ :: rest => Outstanding id rest

instance outstandingDecidable (id : Nat) :
    (history : List PlicEvent) → Decidable (Outstanding id history)
  | [] => .isFalse not_false
  | .updated _ :: rest => outstandingDecidable id rest
  | .claimed _ :: rest =>
      have := outstandingDecidable id rest
      inferInstanceAs (Decidable (_ ∨ _))
  | .completed _ :: rest =>
      have := outstandingDecidable id rest
      inferInstanceAs (Decidable (_ ∧ _))
  | .accessed :: rest => outstandingDecidable id rest

/-- No access has been made since the last update. -/
def MayAccess : List PlicEvent → Prop
  | [] => True
  | .updated _ :: _ => True
  | _ => False

instance mayAccessDecidable : (history : List PlicEvent) → Decidable (MayAccess history)
  | [] => .isTrue trivial
  | .updated _ :: _ => .isTrue trivial
  | .claimed _ :: _ => .isFalse id
  | .completed _ :: _ => .isFalse id
  | .accessed :: _ => .isFalse id

def PlicReg.readEvent (bytes : List Byte) : PlicReg → PlicEvent
  | claim => .claimed (leNat bytes)
  | _ => .accessed

def PlicReg.writeEvent (bytes : List Byte) : PlicReg → PlicEvent
  | claim => .completed (leNat bytes)
  | _ => .accessed

inductive PlicOp
  | updatePending (interruptId : Fin nrPrioMemRegs) (pending : Byte)
  | update
  | read (privLevel : PrivilegeLevel) (reg : PlicReg) (buffer : List Byte)
  | write (privLevel : PrivilegeLevel) (reg : PlicReg) (value : List Byte)

/-- Two accesses have an update between them, and what is written back is below 256. -/
def PlicOp.Allowed (s : PlicRun) : PlicOp → Prop
  | updatePending _ _ | update => True
  | read _ _ buffer => MayAccess s.history ∧ buffer.length = 4
  | write _ reg value =>
      MayAccess s.history ∧ value.length = 4 ∧ (reg = .claim → leNat value < 256)

instance PlicOp.allowedDecidable (s : PlicRun) : (op : PlicOp) → Decidable (op.Allowed s)
  | updatePending _ _ => .isTrue trivial
  | update => .isTrue trivial
  | read _ _ _ => inferInstanceAs (Decidable (_ ∧ _))
  | write _ _ _ => inferInstanceAs (Decidable (_ ∧ _ ∧ _))

def PlicOp.exec (w : Xlen) (s : PlicRun) : PlicOp → Except Halt PlicRun
  | updatePending interruptId pending =>
      .ok { s with plic := plicUpdatePending s.plic interruptId pending }
  | update => .ok ⟨(plicUpdate s.plic).2, .updated s.plic :: s.history⟩
  | read privLevel reg buffer => do
      let (bytes, plic) ← plicAccess w s.plic privLevel .read reg buffer
      return ⟨plic, reg.readEvent bytes :: s.history⟩
  | write privLevel reg value => do
      let (_, plic) ← plicAccess w s.plic privLevel .write reg value
      return ⟨plic, reg.writeEvent value :: s.history⟩

def PlicStep (w : Xlen) (s s' : PlicRun) : Prop :=
  ∃ op : PlicOp, op.Allowed s ∧ op.exec w s = .ok s'

def PlicRun.Initial (s : PlicRun) : Prop := s = {}

/-! ### The protocol -/

/-- A source that may be reported. -/
structure Plic.Eligible (plic : Plic) (id : Nat) : Prop where
  enabled : sourceBit plic.enableBits id = true
  pending : sourceBit plic.pendingBits id = true
  unclaimed : sourceBit plic.claimedBits id = false
  threshold : plic.priorityThreshold ≤ plic.prio id

def ClaimsOk : List PlicEvent → Prop
  | [] => True
  | .claimed id :: rest =>
      (id ≠ 0 → (lastUpdate rest).Eligible id ∧ ¬ Outstanding id rest) ∧ ClaimsOk rest
  | _ :: rest => ClaimsOk rest

/-- No word that is passed over comes before a source that is counted under a number. -/
def Plic.CountsOwn (plic : Plic) : Prop :=
  ∀ i, ∀ j < 32, plic.Counted i j → plic.countBefore i + j ≠ 0 → ∀ k, k < i → ¬ plic.passedOver k

/-- If the claim register reports a source, those that competed at the last update were
counted under their own numbers, and the one that is reported is still pending. -/
def ClaimGuard (s : PlicRun) : Prop :=
  s.plic.claimComplete ≠ 0 → (lastUpdate s.history).CountsOwn ∧
    sourceBit s.plic.pendingBits s.plic.claimComplete.toNat = true

instance claimGuardDecidable (s : PlicRun) : Decidable (ClaimGuard s) :=
  inferInstanceAs (Decidable (_ → (∀ i, ∀ j < 32, _ → _ → ∀ k, k < i → ¬ (_ ∨ _)) ∧ _))

/-- The condition on a step: a read of the claim register is made where the condition
above holds. -/
def PlicOp.Guarded (s : PlicRun) : PlicOp → Prop
  | read _ reg _ => reg = .claim → ClaimGuard s
  | _ => True

instance PlicOp.guardedDecidable (s : PlicRun) : (op : PlicOp) → Decidable (op.Guarded s)
  | updatePending _ _ => .isTrue trivial
  | update => .isTrue trivial
  | read _ _ _ => inferInstanceAs (Decidable (_ → _))
  | write _ _ _ => .isTrue trivial

def GuardedPlicStep (w : Xlen) (s s' : PlicRun) : Prop :=
  ∃ op : PlicOp, (op.Allowed s ∧ op.Guarded s) ∧ op.exec w s = .ok s'

/-- Between the accesses the claim register holds what the last update reported, and
the sources that are outstanding are marked as claimed. -/
structure PlicRun.Consistent (s : PlicRun) : Prop where
  reported : MayAccess s.history →
    s.plic.claimComplete = BitVec.ofNat 32 (plicScan (lastUpdate s.history)).irqToTrigger
  claimedBits : MayAccess s.history →
    s.plic.claimedBits = (lastUpdate s.history).claimedBits
  outstanding : ∀ id, id ≠ 0 → Outstanding id s.history →
    sourceBit s.plic.claimedBits id = true
  claims : ClaimsOk s.history

theorem plicUpdate_claimComplete (plic : Plic) :
    (plicUpdate plic).2.claimComplete = BitVec.ofNat 32 (plicScan plic).irqToTrigger := by
  rw [plicUpdate]
  split
  · rfl
  · next h =>
      rw [Nat.eq_zero_of_not_pos h]
      rfl

theorem plicUpdate_claimedBits (plic : Plic) :
    (plicUpdate plic).2.claimedBits = plic.claimedBits := by
  rw [plicUpdate]
  split <;> rfl

theorem Plic.Counted.eligible {plic : Plic} {i : Fin nrEnableRegs} {j : Nat} (hj : j < 32)
    (h : plic.Counted i j) (hown : ∀ k, k < i → ¬ plic.passedOver k) :
    plic.Eligible (plic.countBefore i + j) := by
  obtain ⟨⟨henabled, hpending, hclaimed⟩, hthreshold⟩ := h
  refine ⟨?_, ?_, ?_, hthreshold⟩
  · rw [(plic.countBefore_eq_iff i).mpr hown, sourceBit_eq _ i hj]
    exact henabled
  · rw [(plic.countBefore_eq_iff i).mpr hown, sourceBit_eq _ i hj]
    exact hpending
  · rw [(plic.countBefore_eq_iff i).mpr hown, sourceBit_eq _ i hj]
    exact hclaimed

theorem plicScan_irqToTrigger_lt (plic : Plic) : (plicScan plic).irqToTrigger < 256 := by
  rcases plic.plicScan_selected with h | ⟨i, j, hj, -, hnumber⟩
  · rw [h]
    decide
  · have hi : i.val < 8 := i.isLt
    have hcount := plic.countBefore_le i
    omega

/-- A claim marks the source if it is pending, and nothing otherwise. -/
theorem plicClaim_claimedBits {plic plic' : Plic} {id : Nat} (h : plicClaim plic id = .ok plic')
    (id' : Nat) : sourceBit plic'.claimedBits id' =
      if id' = id ∧ sourceBit plic.pendingBits id = true then true
      else sourceBit plic.claimedBits id' := by
  rw [plicClaim] at h
  split at h
  · next hreg =>
      have hpending : sourceBit plic.pendingBits id =
          checkBit (plic.pendingBits ⟨id / 32, hreg⟩) (id % 32) := dif_pos hreg
      rw [hpending]
      split at h
      · next hbit =>
          obtain rfl := Except.ok.inj h
          simp only [hbit, and_true]
          exact sourceBit_assign plic.claimedBits hreg true id'
      · next hbit =>
          obtain rfl := Except.ok.inj h
          rw [if_neg fun hboth => hbit hboth.2]
  · cases h

theorem plicScan_eligible {plic : Plic} (hown : plic.CountsOwn)
    (hne : (plicScan plic).irqToTrigger ≠ 0) : plic.Eligible (plicScan plic).irqToTrigger := by
  rcases plic.plicScan_selected with h | ⟨i, j, hj, hcounted, hnumber⟩
  · exact absurd h hne
  · rw [hnumber] at hne ⊢
    exact hcounted.eligible hj (hown i j hj hcounted hne)

/-! ### Steps -/

theorem PlicRun.Consistent.eligible {s : PlicRun} (h : s.Consistent)
    (haccess : MayAccess s.history) (hguard : ClaimGuard s)
    (hne : s.plic.claimComplete.toNat ≠ 0) :
    (lastUpdate s.history).Eligible s.plic.claimComplete.toNat ∧
      sourceBit s.plic.pendingBits s.plic.claimComplete.toNat = true := by
  have hnumber : s.plic.claimComplete.toNat = (plicScan (lastUpdate s.history)).irqToTrigger := by
    have hlt := plicScan_irqToTrigger_lt (lastUpdate s.history)
    rw [h.reported haccess, BitVec.toNat_ofNat, Nat.mod_eq_of_lt (by omega)]
  have hreported : s.plic.claimComplete ≠ 0 := by
    intro heq
    rw [heq] at hne
    exact hne rfl
  obtain ⟨hown, hpending⟩ := hguard hreported
  refine ⟨?_, hpending⟩
  rw [hnumber] at hne ⊢
  exact plicScan_eligible hown hne

theorem PlicRun.Consistent.claim {s : PlicRun} (h : s.Consistent) (haccess : MayAccess s.history)
    (hguard : ClaimGuard s) {privLevel : PrivilegeLevel} {buffer bytes : List Byte} {plic : Plic}
    (hbuffer : buffer.length = 4)
    (hread : plicAccess w s.plic privLevel .read .claim buffer = .ok (bytes, plic)) :
    PlicRun.Consistent ⟨plic, .claimed (leNat bytes) :: s.history⟩ := by
  obtain ⟨hid, hclaim⟩ := plicAccess_read_claim hbuffer hread
  have hbits := plicClaim_claimedBits hclaim
  rw [hid]
  refine ⟨nofun, nofun, fun id hne hout => ?_, fun hne => ?_, h.claims⟩
  · -- what the claim returns is marked as claimed, if it was pending
    rw [hbits]
    rcases hout with rfl | hout
    · rw [if_pos ⟨rfl, (h.eligible haccess hguard hne).2⟩]
    · split
      · rfl
      · exact h.outstanding id hne hout
  · obtain ⟨heligible, -⟩ := h.eligible haccess hguard hne
    refine ⟨heligible, fun hout => ?_⟩
    have hset := h.outstanding _ hne hout
    rw [h.claimedBits haccess, heligible.unclaimed] at hset
    cases hset

theorem PlicRun.Consistent.step {s s' : PlicRun} (h : s.Consistent)
    (hstep : GuardedPlicStep w s s') : s'.Consistent := by
  obtain ⟨op, ⟨hallowed, hguard⟩, hexec⟩ := hstep
  cases op with
  | updatePending interruptId pending =>
      obtain rfl := Except.ok.inj hexec
      exact ⟨h.reported, h.claimedBits, h.outstanding, h.claims⟩
  | update =>
      obtain rfl := Except.ok.inj hexec
      refine ⟨fun _ => plicUpdate_claimComplete s.plic, fun _ => plicUpdate_claimedBits s.plic,
        fun id hid hout => ?_, h.claims⟩
      show sourceBit (plicUpdate s.plic).2.claimedBits id = true
      rw [plicUpdate_claimedBits]
      exact h.outstanding id hid hout
  | read privLevel reg buffer =>
      obtain ⟨haccess, hbuffer⟩ := hallowed
      obtain ⟨⟨bytes, plic⟩, hread, hexec⟩ := Except.bind_eq_ok.mp hexec
      obtain rfl := Except.ok.inj hexec
      by_cases hreg : reg = .claim
      · subst hreg
        exact h.claim haccess (hguard rfl) hbuffer hread
      · obtain rfl := plicAccess_read_other hreg hread
        have hevent : reg.readEvent bytes = .accessed := by
          cases reg <;> first | rfl | exact absurd rfl hreg
        rw [hevent]
        exact ⟨nofun, nofun, h.outstanding, h.claims⟩
  | write privLevel reg value =>
      obtain ⟨haccess, hvalue, hid⟩ := hallowed
      obtain ⟨⟨bytes, plic⟩, hwrite, hexec⟩ := Except.bind_eq_ok.mp hexec
      obtain rfl := Except.ok.inj hexec
      by_cases hreg : reg = .claim
      · -- a completion releases its own source only
        subst hreg
        refine ⟨nofun, nofun, fun id hne hout => ?_, h.claims⟩
        obtain ⟨hother, hout⟩ : leNat value ≠ id ∧ Outstanding id s.history := hout
        show sourceBit plic.claimedBits id = true
        rw [plicAccess_write_claim hvalue (hid rfl) hwrite, if_neg hother.symm]
        exact h.outstanding id hne hout
      · have hevent : reg.writeEvent value = .accessed := by
          cases reg <;> first | rfl | exact absurd rfl hreg
        rw [hevent]
        refine ⟨nofun, nofun, fun id hne hout => ?_, h.claims⟩
        show sourceBit plic.claimedBits id = true
        rw [plicAccess_write_other hreg hwrite]
        exact h.outstanding id hne hout

/-- Along a run whose claims meet the condition, every source that a claim returned was
eligible at the last update and not outstanding. -/
theorem guarded_claims_ok (w : Xlen) {s : PlicRun}
    (h : Transition.Reachable PlicRun.Initial (GuardedPlicStep w) s) : ClaimsOk s.history := by
  have hconsistent : s.Consistent := by
    refine Transition.Reachable.invariant h ?_ fun a b ha hab => ha.step hab
    rintro a rfl
    refine ⟨fun _ => ?_, fun _ => rfl, nofun, trivial⟩
    have hzero : (plicScan {}).irqToTrigger = 0 := by decide
    show (0 : BitVec 32) = BitVec.ofNat 32 (plicScan {}).irqToTrigger
    rw [hzero]
    rfl
  exact hconsistent.claims

/-! ### Particular runs -/

/-- A step that is tried: it is made if it is allowed and the access does not fail. -/
def PlicOp.tryExec (w : Xlen) (op : PlicOp) (s : PlicRun) : Option PlicRun :=
  if op.Allowed s then (op.exec w s).toOption else none

theorem PlicOp.exec_of_tryExec {op : PlicOp} {s s' : PlicRun} (h : op.tryExec w s = some s') :
    op.Allowed s ∧ op.exec w s = .ok s' := by
  rw [tryExec] at h
  split at h
  · next hallowed =>
      cases hexec : op.exec w s with
      | error e =>
          rw [hexec] at h
          cases h
      | ok s₁ =>
          rw [hexec] at h
          exact ⟨hallowed, congrArg Except.ok (Option.some.inj h)⟩
  · cases h

/-- Source `id` is enabled by a write to its word, becomes pending, and is reported. -/
def raiseOps (id : Fin nrPrioMemRegs) : List PlicOp :=
  [ .write .machine (.enable ⟨id / 32, Nat.div_lt_of_lt_mul id.isLt⟩)
      (leBytes 4 (2 ^ (id.val % 32))),
    .updatePending id 1, .update ]

def readClaim : PlicOp := .read .machine .claim [0, 0, 0, 0]

def latestClaim : List PlicEvent → Option Nat
  | .claimed id :: _ => some id
  | _ => none

theorem guarded_claims_ok_uart :
    ∃ s : PlicRun, latestClaim s.history = some 10 ∧ ClaimsOk s.history := by
  have htrace : (Transition.trace (fun (op : PlicOp) s =>
      if op.Guarded s then op.tryExec .rv32 s else none) (raiseOps 10 ++ [readClaim]) {}).any
        (fun s => latestClaim s.history == some 10) = true := by
    decide
  obtain ⟨s, hrun, htest⟩ := Transition.exists_of_trace (R := GuardedPlicStep .rv32)
    (fun op s s' h => by
      split at h
      · next hguard =>
          obtain ⟨hallowed, hexec⟩ := PlicOp.exec_of_tryExec h
          exact ⟨op, ⟨hallowed, hguard⟩, hexec⟩
      · cases h) htrace
  exact ⟨s, eq_of_beq htest, guarded_claims_ok .rv32 ⟨{}, rfl, hrun⟩⟩

/-- Source 40 is enabled and pending, and the claim register returns 8. -/
theorem claim_of_disabled_source :
    ¬ ∀ s, Transition.Reachable PlicRun.Initial (PlicStep .rv32) s → ClaimsOk s.history := by
  intro h
  have htrace : (Transition.trace (PlicOp.tryExec .rv32)
      (raiseOps 40 ++ [readClaim]) {}).any (fun s => match s.history with
        | .claimed id :: rest => id != 0 && !sourceBit (lastUpdate rest).enableBits id
        | _ => false) = true := by
    decide
  obtain ⟨s, hrun, htest⟩ := Transition.exists_of_trace (R := PlicStep .rv32)
    (fun op _ _ h => ⟨op, PlicOp.exec_of_tryExec h⟩) htrace
  have hok := h s ⟨{}, rfl, hrun⟩
  split at htest
  · next id rest hhistory =>
      rw [hhistory] at hok
      simp only [Bool.and_eq_true, bne_iff_ne, Bool.not_eq_true'] at htest
      have henabled := (hok.1 htest.1).1.enabled
      rw [htest.2] at henabled
      cases henabled
  · cases htest

/-- A source that is withdrawn between the update and the claim is returned without
being marked, and is returned again when it is raised again. -/
theorem withdrawn_source_claimed_twice : ∃ s, Transition.Reachable PlicRun.Initial
    (PlicStep .rv32) s ∧ latestClaim s.history = some 10 ∧ Outstanding 10 s.history.tail := by
  have htrace : (Transition.trace (PlicOp.tryExec .rv32)
      (raiseOps 10 ++ [.updatePending 10 0, readClaim, .updatePending 10 1, .update, readClaim])
        {}).any (fun s => latestClaim s.history == some 10 &&
          decide (Outstanding 10 s.history.tail)) = true := by
    decide
  obtain ⟨s, hrun, htest⟩ := Transition.exists_of_trace (R := PlicStep .rv32)
    (fun op _ _ h => ⟨op, PlicOp.exec_of_tryExec h⟩) htrace
  rw [Bool.and_eq_true] at htest
  exact ⟨s, ⟨{}, rfl, hrun⟩, eq_of_beq htest.1, of_decide_eq_true htest.2⟩

end RiscvEm
