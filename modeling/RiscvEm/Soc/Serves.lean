import RiscvEm.Lib.Except
import RiscvEm.Soc.System

/-!
The accesses that the system answers: those to an address range of the table, at an
offset, with a length and with a value that the device behind the range takes.
-/

namespace RiscvEm

open Except (Returns)

variable {w : Xlen}

/-! ### The devices -/

def Clint.Serves (address len : Nat) : Prop :=
  match getU8ArrIndexOffs address with
  | none => True
  | some arrIndexOffs => address % 8 + arrIndexOffs + len ≤ 24

theorem clintBusAccess_returns_iff {clint : Clint} {privLevel : PrivilegeLevel}
    {accessType : BusAccessType} {address : RvUintXlen w} {value : List Byte} {len : Nat} :
    Returns (clintBusAccess clint privLevel accessType address value len) ↔
      Clint.Serves address.toNat len := by
  rw [clintBusAccess, Clint.Serves]
  cases getU8ArrIndexOffs address.toNat with
  | none => exact iff_of_true (Except.returns_ok _) trivial
  | some arrIndexOffs =>
      simp only [Except.returns_ite_error, Nat.not_lt]
      refine and_iff_left ?_
      split
      · exact Except.returns_ok _
      · exact Except.returns_ok _

/-- The access lies within the structure, if it begins at a register; the claim register
holds, and a completion writes, an identifier below 256 in four bytes. -/
def Plic.Serves (plic : Plic) (accessType : BusAccessType) (address : Nat) (value : List Byte)
    (len : Nat) : Prop :=
  match getU8RegPtr address with
  | none => True
  | some (u8Ptr, isClaimComplete) =>
      u8Ptr + len ≤ 4 * Plic.nrWords ∧
        (isClaimComplete = true →
          if accessType = .write then 4 ≤ value.length ∧ leNat (value.take 4) < 256
          else leNat ((wordBytes plic.words).read u8Ptr [] 4) < 256)

theorem plicComplete_returns_iff {plic : Plic} {tmpVal : Nat} :
    Returns (plicComplete plic tmpVal) ↔ tmpVal < 256 := by
  have hdiv : tmpVal / 32 < nrClaimedBitsRegs ↔ tmpVal < 256 := Nat.div_lt_iff_lt_mul (by decide)
  rw [plicComplete]
  split
  · next h => exact iff_of_true (Except.returns_ok _) (hdiv.mp h)
  · next h => exact iff_of_false (Except.not_returns_error _) fun hlt => h (hdiv.mpr hlt)

theorem plicClaim_returns_iff {plic : Plic} {tmpVal : Nat} :
    Returns (plicClaim plic tmpVal) ↔ tmpVal < 256 := by
  have hdiv : tmpVal / 32 < nrClaimedBitsRegs ↔ tmpVal < 256 := Nat.div_lt_iff_lt_mul (by decide)
  rw [plicClaim]
  split
  · next h =>
      refine iff_of_true ?_ (hdiv.mp h)
      split
      · exact Except.returns_ok _
      · exact Except.returns_ok _
  · next h => exact iff_of_false (Except.not_returns_error _) fun hlt => h (hdiv.mpr hlt)

theorem plicBusAccess_returns_iff {plic : Plic} {privLevel : PrivilegeLevel}
    {accessType : BusAccessType} {address : RvUintXlen w} {value : List Byte} {len : Nat} :
    Returns (plicBusAccess plic privLevel accessType address value len) ↔
      plic.Serves accessType address.toNat value len := by
  rw [plicBusAccess, Plic.Serves]
  cases getU8RegPtr address.toNat with
  | none => simp
  | some reg =>
      obtain ⟨u8Ptr, isClaimComplete⟩ := reg
      simp only [Except.returns_ite_error, Nat.not_lt]
      refine and_congr_right fun _ => ?_
      cases isClaimComplete with
      | false =>
          refine iff_of_true ?_ (by simp)
          split
          · exact Except.returns_ok _
          · exact Except.returns_ok _
      | true =>
          by_cases hwrite : accessType = .write
          · simp only [hwrite, if_true, forall_const]
            split
            · next h => exact iff_of_false (Except.not_returns_error _) (by omega)
            · next h =>
                rw [Except.returns_bind_of_returns fun _ _ => Except.returns_pure _,
                  plicComplete_returns_iff]
                exact (and_iff_right (by omega)).symm
          · simp only [hwrite, if_false, if_true, forall_const]
            rw [Except.returns_bind_of_returns fun _ _ => Except.returns_pure _,
              plicClaim_returns_iff]

def SimpleUart.Serves (address len : Nat) : Prop := len = 1 ∧ address < 2

theorem simpleUartBusAccess_returns_iff {uart : SimpleUart} {privLevel : PrivilegeLevel}
    {accessType : BusAccessType} {address : RvUintXlen w} {value : List Byte} {len : Nat} :
    Returns (simpleUartBusAccess uart privLevel accessType address value len) ↔
      SimpleUart.Serves address.toNat len := by
  rw [simpleUartBusAccess, SimpleUart.Serves]
  simp only [Except.returns_ite_error, not_not]
  refine and_congr_right fun _ => ?_
  split
  · split
    · next h =>
        obtain ⟨n, f', hin⟩ :=
          exists_fifoIn_one (k := 0) uart.txFifo rfl (by decide) (value.headD 0)
        rw [h, hin]
        exact iff_of_true (Except.returns_ok _) (by decide)
    · next h => exact iff_of_true (Except.returns_ok _) (by rw [h]; decide)
    · next _ h0 h1 =>
        refine iff_of_false (Except.not_returns_error _) fun hlt => ?_
        grind
  · split
    · next h =>
        obtain ⟨bytes, f', hout⟩ := exists_fifoOut_one (k := 0) uart.rxFifo rfl (by decide)
        rw [h, hout]
        exact iff_of_true (Except.returns_ok _) (by decide)
    · next h => exact iff_of_true (Except.returns_ok _) (by rw [h]; decide)
    · next _ h0 h1 =>
        refine iff_of_false (Except.not_returns_error _) fun hlt => ?_
        grind

/-- One byte, to a register that exists in this direction, and no request for DMA. A read needs
a buffer for a whole `rv_uint_xlen`, but at the divisor latch, where nothing is stored. -/
def UartNs8250.Serves (w : Xlen) (uart : UartNs8250) (accessType : BusAccessType) (address : Nat)
    (value : List Byte) (len : Nat) : Prop :=
  len = 1 ∧
    if accessType = .write then
      address ≤ regMcr ∧ (address = regFcr → checkBit (value.headD 0) 3 = false)
    else address ≤ regMsr ∧
      (w.bytes ≤ value.length ∨ uart.dlab = true ∧ address ≤ regIerLatchHi)

theorem uartWrite_returns_iff {uart : UartNs8250} {address : Nat} {valU8 : Byte} :
    Returns (uartWrite uart address valU8) ↔
      address ≤ regMcr ∧ (address = regFcr → checkBit valU8 3 = false) := by
  rw [uartWrite.eq_def]
  split
  · refine iff_of_true ?_ ⟨by decide, fun h => absurd h (by decide)⟩
    split
    · exact Except.returns_ok _
    · obtain ⟨n, f', hin⟩ := exists_fifoIn_one (k := 4) uart.txFifo rfl (by decide) valU8
      rw [hin]
      exact Except.returns_ok _
  · refine iff_of_true ?_ ⟨by decide, fun h => absurd h (by decide)⟩
    split
    · exact Except.returns_ok _
    · exact Except.returns_ok _
  · rw [Except.returns_ite_error, Bool.not_eq_true]
    simp only [Except.returns_ok, and_true, forall_const]
    exact (and_iff_right (by decide)).symm
  · exact iff_of_true (Except.returns_ok _) ⟨by decide, fun h => absurd h (by decide)⟩
  · exact iff_of_true (Except.returns_ok _) ⟨by decide, fun h => absurd h (by decide)⟩
  · next _ h0 h1 h2 h3 h4 =>
      refine iff_of_false (Except.not_returns_error _) ?_
      rintro ⟨hle, -⟩
      have hlt : address < 5 := Nat.lt_succ_of_le hle
      grind

theorem uartRead_returns_iff {uart : UartNs8250} {address : Nat} :
    Returns (uartRead uart address) ↔ address ≤ regMsr := by
  rw [uartRead.eq_def]
  split
  · refine iff_of_true ?_ (by decide)
    split
    · exact Except.returns_ok _
    · obtain ⟨bytes, f', hout⟩ := exists_fifoOut_one (k := 4) uart.rxFifo rfl (by decide)
      rw [hout]
      exact Except.returns_ok _
  · refine iff_of_true ?_ (by decide)
    split
    · exact Except.returns_ok _
    · exact Except.returns_ok _
  · exact iff_of_true (Except.returns_ok _) (by decide)
  · exact iff_of_true (Except.returns_ok _) (by decide)
  · exact iff_of_true (Except.returns_ok _) (by decide)
  · exact iff_of_true (Except.returns_ok _) (by decide)
  · exact iff_of_true (Except.returns_ok _) (by decide)
  · next _ h0 h1 h2 h3 h4 h5 h6 =>
      refine iff_of_false (Except.not_returns_error _) fun hle => ?_
      have hlt : address < 7 := Nat.lt_succ_of_le hle
      grind

/-- A read that returns stores a value, but at the divisor latch. -/
theorem uartRead_eq_none_iff {uart uart' : UartNs8250} {address : Nat} {outval : Option Byte}
    (h : uartRead uart address = .ok (outval, uart')) :
    outval = none ↔ uart.dlab = true ∧ address ≤ regIerLatchHi := by
  have hstored {v : Byte} {uart : UartNs8250} (haddress : ¬ address ≤ regIerLatchHi) :
      some v = none ↔ uart.dlab = true ∧ address ≤ regIerLatchHi :=
    iff_of_false (Option.some_ne_none v) fun hlatch => haddress hlatch.2
  rw [uartRead.eq_def] at h
  split at h
  · split at h
    · next hdlab =>
        obtain ⟨rfl, -⟩ := Prod.mk.inj (Except.ok.inj h)
        exact iff_of_true rfl ⟨hdlab, by decide⟩
    · next hdlab =>
        obtain ⟨⟨bytes, rxFifo⟩, -, hrest⟩ := Except.bind_eq_ok.mp h
        obtain ⟨rfl, -⟩ := Prod.mk.inj (Except.ok.inj hrest)
        exact iff_of_false (Option.some_ne_none _) fun hlatch => hdlab hlatch.1
  · split at h
    · next hdlab =>
        obtain ⟨rfl, -⟩ := Prod.mk.inj (Except.ok.inj h)
        exact iff_of_true rfl ⟨hdlab, by decide⟩
    · next hdlab =>
        obtain ⟨rfl, -⟩ := Prod.mk.inj (Except.ok.inj h)
        exact iff_of_false (Option.some_ne_none _) fun hlatch => hdlab hlatch.1
  · obtain ⟨rfl, -⟩ := Prod.mk.inj (Except.ok.inj h)
    exact hstored (by decide)
  · obtain ⟨rfl, -⟩ := Prod.mk.inj (Except.ok.inj h)
    exact hstored (by decide)
  · obtain ⟨rfl, -⟩ := Prod.mk.inj (Except.ok.inj h)
    exact hstored (by decide)
  · obtain ⟨rfl, -⟩ := Prod.mk.inj (Except.ok.inj h)
    exact hstored (by decide)
  · obtain ⟨rfl, -⟩ := Prod.mk.inj (Except.ok.inj h)
    exact hstored (by decide)
  · cases h

theorem uartBusAccess_returns_iff {uart : UartNs8250} {privLevel : PrivilegeLevel}
    {accessType : BusAccessType} {address : RvUintXlen w} {value : List Byte} {len : Nat} :
    Returns (uartBusAccess uart privLevel accessType address value len) ↔
      uart.Serves w accessType address.toNat value len := by
  rw [uartBusAccess, UartNs8250.Serves]
  simp only [Except.returns_ite_error, not_not]
  refine and_congr_right fun _ => ?_
  split
  · rw [Except.returns_bind_of_returns fun _ _ => Except.returns_pure _, uartWrite_returns_iff]
  · rw [Except.returns_bind_iff, uartRead_returns_iff]
    refine and_congr_right fun haddress => ?_
    have hreturns : Returns (uartRead uart address.toNat) := uartRead_returns_iff.mpr haddress
    obtain ⟨⟨outval, uart'⟩, hread⟩ := hreturns
    rw [← uartRead_eq_none_iff hread]
    simp only [hread, Except.ok.injEq, forall_eq']
    cases outval with
    | none => exact iff_of_true (Except.returns_ok _) (.inr rfl)
    | some v =>
        simp only [Except.returns_ite_error, Nat.not_lt, reduceCtorEq, or_false]
        exact and_iff_left (Except.returns_ok _)

/-! ### The bus -/

def Devices.Serves (w : Xlen) (useSimpleUart : Bool) (devices : Devices)
    (accessType : BusAccessType) (offset : Nat) (value : List Byte) (len : Nat) :
    BusTarget → Prop
  | .ram => offset + len ≤ ramSizeBytes
  | .mrom => offset + len ≤ mromSizeBytes
  | .fromMem => offset + len ≤ fromSizeBytes
  | .clint => Clint.Serves offset len
  | .plic => devices.plic.Serves accessType offset value len
  | .uart =>
      if useSimpleUart then SimpleUart.Serves offset len
      else devices.uart8250.Serves w accessType offset value len

def SocServes (useSimpleUart : Bool) (soc : RvSoc Devices) (accessType : BusAccessType)
    (address : RvUintXlen w) (value : List Byte) (len : Nat) : Prop :=
  ∃ index entry offset,
    dispatch (rvSocInitMemAccessCbs w useSimpleUart) address len = some (index, entry, offset) ∧
      soc.devices.Serves w useSimpleUart accessType offset.toNat value len entry.target

theorem memoryBusAccess_returns_iff {size : Nat} {mem : Memory} {privLevel : PrivilegeLevel}
    {accessType : BusAccessType} {address : RvUintXlen w} {value : List Byte} {len : Nat} :
    Returns (memoryBusAccess size mem privLevel accessType address value len) ↔
      address.toNat + len ≤ size := by
  rw [memoryBusAccess]
  simp only [Except.returns_ite_error, Nat.not_lt]
  refine and_iff_left ?_
  split
  · exact Except.returns_ok _
  · exact Except.returns_ok _

theorem socBusAccess_returns_iff (useSimpleUart : Bool) (soc : RvSoc Devices)
    (privLevel : PrivilegeLevel) (accessType : BusAccessType) (address : RvUintXlen w)
    (value : List Byte) (len : Nat) :
    Returns (socBusAccess useSimpleUart soc privLevel accessType address value len) ↔
      SocServes useSimpleUart soc accessType address value len := by
  rw [socBusAccess, rvSocBusAccess, SocServes]
  cases hdispatch : dispatch (rvSocInitMemAccessCbs w useSimpleUart) address len with
  | none =>
      refine iff_of_false (Except.not_returns_error _) ?_
      rintro ⟨index, entry, offset, h, -⟩
      cases h
  | some found =>
      obtain ⟨index, entry, offset⟩ := found
      have hserves : (∃ index' entry' offset', some (index, entry, offset) =
            some (index', entry', offset') ∧ soc.devices.Serves w useSimpleUart accessType
              offset'.toNat value len entry'.target) ↔
          soc.devices.Serves w useSimpleUart accessType offset.toNat value len entry.target := by
        constructor
        · rintro ⟨_, _, _, heq, h⟩
          obtain ⟨rfl, rfl, rfl⟩ := by simpa using heq
          exact h
        · exact fun h => ⟨index, entry, offset, rfl, h⟩
      rw [hserves]
      simp only [busTargetAccess]
      cases htarget : entry.target with
      | ram =>
          simp only [Devices.Serves]
          rw [Except.returns_bind_of_returns fun _ _ => Except.returns_pure _,
            memoryBusAccess_returns_iff]
      | mrom =>
          simp only [Devices.Serves]
          rw [Except.returns_bind_of_returns fun _ _ => Except.returns_pure _,
            memoryBusAccess_returns_iff]
      | fromMem =>
          simp only [Devices.Serves]
          rw [Except.returns_bind_of_returns fun _ _ => Except.returns_pure _,
            memoryBusAccess_returns_iff]
      | clint =>
          simp only [Devices.Serves, deviceAccess]
          rw [Except.returns_bind_of_returns fun _ _ => Except.returns_pure _,
            Except.returns_bind_of_returns fun _ _ => Except.returns_pure _,
            clintBusAccess_returns_iff]
      | plic =>
          simp only [Devices.Serves, deviceAccess]
          rw [Except.returns_bind_of_returns fun _ _ => Except.returns_pure _,
            Except.returns_bind_of_returns fun _ _ => Except.returns_pure _,
            plicBusAccess_returns_iff]
      | uart =>
          simp only [Devices.Serves, deviceAccess]
          rw [Except.returns_bind_of_returns fun _ _ => Except.returns_pure _]
          split
          · rw [Except.returns_bind_of_returns fun _ _ => Except.returns_pure _,
              simpleUartBusAccess_returns_iff]
          · rw [Except.returns_bind_of_returns fun _ _ => Except.returns_pure _,
              uartBusAccess_returns_iff]

end RiscvEm
