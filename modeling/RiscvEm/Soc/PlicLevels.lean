import RiscvEm.Core.Behind
import RiscvEm.Devices.PlicConfined
import RiscvEm.Soc.UartStreams

/-!
The levels of the interrupt controller over the runs of the system. A write sanitizes them,
and neither a read nor an update changes one.
-/

namespace RiscvEm

variable {w : Xlen} {useSimpleUart : Bool}

/-! ### The controller -/

theorem plicBusAccess_sane {plic : Plic} {privLevel : PrivilegeLevel} {accessType : BusAccessType}
    {address : RvUintXlen w} {value : List Byte} {len : Nat} {r : RvRet × List Byte × Plic}
    (h : plicBusAccess plic privLevel accessType address value len = .ok r) (hsane : plic.Sane) :
    r.2.2.Sane := by
  rw [plicBusAccess] at h
  cases hreg : getU8RegPtr address.toNat with
  | none =>
      rw [hreg] at h
      obtain rfl := Except.ok.inj h
      exact hsane
  | some found =>
      obtain ⟨u8Ptr, isClaimComplete⟩ := found
      simp only [hreg] at h
      split at h
      · cases h
      · split at h
        -- a write, with the identifier that it completes, a short one or none
        · split at h
          · split at h
            · cases h
            · obtain ⟨plic', -, h⟩ := Except.bind_eq_ok.mp h
              obtain rfl := Except.ok.inj h
              exact Plic.sane_checkSanity plic'
          · obtain rfl := Except.ok.inj h
            exact Plic.sane_checkSanity _
        · split at h
          · obtain ⟨plic', hclaim, h⟩ := Except.bind_eq_ok.mp h
            obtain rfl := Except.ok.inj h
            exact (Plic.sane_claim hclaim).mpr hsane
          · obtain rfl := Except.ok.inj h
            exact hsane

theorem sane_plicUpdatePending {plic : Plic} (h : plic.Sane) (interruptId : Fin nrPrioMemRegs)
    (pending : Byte) : (plicUpdatePending plic interruptId pending).Sane :=
  ⟨h.priority, h.threshold⟩

theorem sane_plicUpdate {plic : Plic} (h : plic.Sane) : (plicUpdate plic).2.Sane := by
  rw [plicUpdate]
  split
  · exact ⟨h.priority, h.threshold⟩
  · exact ⟨h.priority, h.threshold⟩

theorem Plic.sane_init : ({} : Plic).Sane := ⟨fun _ => Nat.zero_le _, Nat.zero_le _⟩

/-! ### The bus -/

def KeepsLevels (soc soc' : RvSoc Devices) : Prop :=
  soc.devices.plic.Sane → soc'.devices.plic.Sane

instance isPreorder_keepsLevels : IsPreorder (RvSoc Devices) KeepsLevels where
  refl _ := id
  trans _ _ _ h h' := h' ∘ h

theorem deviceAccess_sane {target : BusTarget} {devices : Devices} {privLevel : PrivilegeLevel}
    {accessType : BusAccessType} {offset : RvUintXlen w} {value : List Byte} {len : Nat}
    {r : RvRet × List Byte × Devices}
    (h : deviceAccess useSimpleUart target devices privLevel accessType offset value len = .ok r)
    (hsane : devices.plic.Sane) : r.2.2.plic.Sane := by
  cases target with
  | ram | mrom | fromMem => cases h
  | clint =>
      obtain ⟨clint, -, h⟩ := Except.bind_eq_ok.mp h
      obtain rfl := Except.ok.inj h
      exact hsane
  | plic =>
      obtain ⟨plic, haccess, h⟩ := Except.bind_eq_ok.mp h
      obtain rfl := Except.ok.inj h
      exact plicBusAccess_sane haccess hsane
  | uart =>
      cases useSimpleUart with
      | true =>
          obtain ⟨uart, -, h⟩ := Except.bind_eq_ok.mp h
          obtain rfl := Except.ok.inj h
          exact hsane
      | false =>
          obtain ⟨uart8250, -, h⟩ := Except.bind_eq_ok.mp h
          obtain rfl := Except.ok.inj h
          exact hsane

theorem respects_keepsLevels (accessType : BusAccessType) (len : Nat) :
    Respects (w := w) (socBusAccess useSimpleUart) KeepsLevels accessType len := by
  intro soc privLevel address value r h hsane
  rw [socBusAccess, rvSocBusAccess] at h
  cases hdispatch : dispatch (rvSocInitMemAccessCbs w useSimpleUart) address len with
  | none =>
      rw [hdispatch] at h
      cases h
  | some found =>
      obtain ⟨index, entry, offset⟩ := found
      simp only [hdispatch] at h
      -- the memories leave the devices as they are
      cases htarget : entry.target with
      | ram | mrom | fromMem =>
          rw [htarget] at h
          obtain ⟨mem, -, h⟩ := Except.bind_eq_ok.mp h
          obtain rfl := Except.ok.inj h
          exact hsane
      | clint | plic | uart =>
          rw [htarget] at h
          obtain ⟨b, haccess, h⟩ := Except.bind_eq_ok.mp h
          obtain rfl := Except.ok.inj h
          exact deviceAccess_sane haccess hsane

/-! ### Runs -/

section Runs

variable {devices devices' : Devices} {s s' : RvCore w (RvSoc Devices)}

theorem uartUpdateOf_plic {irq : Byte} {printed : List Byte}
    (h : uartUpdateOf useSimpleUart devices = .ok (irq, printed, devices')) :
    devices'.plic = devices.plic := by
  cases useSimpleUart with
  | true =>
      obtain ⟨uart, -, h⟩ := Except.bind_eq_ok.mp h
      cases h
      rfl
  | false =>
      obtain ⟨uart8250, -, h⟩ := Except.bind_eq_ok.mp h
      cases h
      rfl

theorem addRxChar_plic {x : Byte} (h : addRxChar useSimpleUart devices x = .ok devices') :
    devices'.plic = devices.plic := by
  cases useSimpleUart with
  | true =>
      obtain ⟨uart, -, h⟩ := Except.bind_eq_ok.mp h
      obtain rfl := Except.ok.inj h
      rfl
  | false =>
      obtain ⟨uart8250, -, h⟩ := Except.bind_eq_ok.mp h
      obtain rfl := Except.ok.inj h
      rfl

theorem updateDevices_sane {mei mti msi : Byte} {printed : List Byte}
    (h : updateDevices useSimpleUart devices = .ok (mei, mti, msi, printed, devices'))
    (hsane : devices.plic.Sane) : devices'.plic.Sane := by
  obtain ⟨⟨irq, printed', updated⟩, huart, hrest⟩ := Except.bind_eq_ok.mp h
  rw [← uartUpdateOf_plic huart] at hsane
  simp only [Except.pure_eq_ok, Except.ok.injEq, Prod.mk.injEq] at hrest
  obtain ⟨-, -, -, -, rfl⟩ := hrest
  exact sane_plicUpdate (sane_plicUpdatePending hsane 10 irq)

theorem rvSocRound_sane {printed : List Byte}
    (h : rvSocRound useSimpleUart s = .ok (printed, s')) (hsane : s.priv.devices.plic.Sane) :
    s'.priv.devices.plic.Sane := by
  rw [rvSocRound_eq] at h
  obtain ⟨s₁, hcore, hupdate⟩ := Except.bind_eq_ok.mp h
  have hafter : s₁.priv.devices.plic.Sane :=
    rvCoreRun_behind_all respects_keepsLevels hcore hsane
  obtain ⟨⟨mei, mti, msi, printed', devices⟩, hdevices, hrest⟩ := Except.bind_eq_ok.mp hupdate
  obtain ⟨s₂, hinterrupts, hrest⟩ := Except.bind_eq_ok.mp hrest
  obtain ⟨rfl, rfl⟩ := Prod.mk.inj (Except.ok.inj hrest)
  rw [rvCoreProcessInterrupts_frame hinterrupts]
  exact updateDevices_sane (liftM_eq_ok.mp hdevices) hafter

/-- In every state of every run the priorities and the threshold are levels. -/
theorem SocReachable.plic_sane (h : SocReachable useSimpleUart s) :
    s.priv.devices.plic.Sane := by
  refine Transition.Reachable.invariant (P := fun s => s.priv.devices.plic.Sane) h ?_ ?_
  · rintro s ⟨fw, dtb, initrd, hinit⟩
    rw [rvSocInit_devices hinit]
    exact Plic.sane_init
  · intro s s' hsane hstep
    cases hstep with
    | round hround => exact rvSocRound_sane hround hsane
    | arrival harrival =>
        have hsame := addRxChar_plic harrival
        rwa [← hsame] at hsane

end Runs

end RiscvEm
