import RiscvEm.Core.Returns
import RiscvEm.Soc.Serves

/-!
What a guest can do to stop the emulator: the exact condition under which an accepted
instruction comes back to the main loop.
-/

namespace RiscvEm

open Except (Returns)

variable {w : Xlen} {σ : Type}

/-- The call returns, with its instruction completed or with a trap pending. -/
def ReturnsToLoop (busAccess : BusAccessFunc w σ) (s : RvCore w σ) : Prop :=
  ∃ s', rvCoreRun busAccess s = .ok s' ∧
    (s'.syncTrapPending = true ∨
      ∃ cb d e, Executes busAccess s cb d ∧ cb.handler busAccess d = .ok e ∧
        s' = advance (e.setX 0 0))

def Accepted (busAccess : BusAccessFunc w σ) (s : RvCore w σ) : Prop :=
  ∀ f, rvCoreFetch busAccess s.atFetch = .ok (.ok, f) → searchWord w f.instruction ≠ none

/-! ### Refused fetches -/

theorem prepareSyncTrap_pending (s : RvCore w σ) (cause tval : RvUintXlen w) :
    (prepareSyncTrap s cause tval).syncTrapPending = true := by
  rw [prepareSyncTrap]
  split
  · next h => exact h
  · rfl

/-- A callback that returns returns `rv_ok`. -/
def NeverErr (busAccess : BusAccessFunc w σ) : Prop :=
  ∀ priv privLevel accessType addr value len r,
    busAccess priv privLevel accessType addr value len = .ok r → r.1 = .ok

/-- On a bus that reports no error of its own, a fetch that fails leaves a trap pending. -/
theorem rvCoreFetch_err_pending {busAccess : BusAccessFunc w σ} (hbus : NeverErr busAccess)
    {s f : RvCore w σ} (h : rvCoreFetch busAccess s = .ok (.err, f)) :
    f.syncTrapPending = true := by
  obtain ⟨bytes, s₁, haccess, rfl⟩ := rvCoreFetch_eq_ok.mp h
  rw [storeInstruction_syncTrapPending]
  obtain ⟨physAddr, s₂, -, ⟨-, -, -, rfl⟩ | ⟨phys, -, hphys⟩⟩ := mmuCheckedBusAccess_cases haccess
  · exact prepareSyncTrap_pending _ _ _
  · rcases pmpCheckedBusAccess_cases hphys with ⟨-, -, -, rfl⟩ | ⟨-, hok, -⟩
    · exact prepareSyncTrap_pending _ _ _
    · cases hbus _ _ _ _ _ _ _ hok

theorem returnsToLoop_iff {busAccess : BusAccessFunc w σ} (hbus : NeverErr busAccess)
    {s : RvCore w σ} : ReturnsToLoop busAccess s ↔ Returns (rvCoreRun busAccess s) := by
  constructor
  · rintro ⟨s', hrun, -⟩
    exact ⟨s', hrun⟩
  · rintro ⟨s', hrun⟩
    refine ⟨s', hrun, ?_⟩
    rcases rvCoreRun_cases hrun with ⟨f, hfetch, rfl⟩ | hexec
    · have hpending : f.syncTrapPending = true := rvCoreFetch_err_pending hbus hfetch
      exact .inl hpending
    · exact .inr hexec

/-! ### The bus of the system -/

def RetOk {α : Type} (x : Except Halt (RvRet × α)) : Prop := ∀ r, x = .ok r → r.1 = .ok

theorem retOk_ok {α : Type} (a : α) : RetOk (.ok (.ok, a) : Except Halt (RvRet × α)) := by
  intro r h
  obtain rfl := Except.ok.inj h
  rfl

theorem retOk_error {α : Type} (e : Halt) : RetOk (.error e : Except Halt (RvRet × α)) := by
  intro r h
  cases h

theorem retOk_bind {α β : Type} {x : Except Halt α} {f : α → Except Halt (RvRet × β)}
    (h : ∀ a, x = .ok a → RetOk (f a)) : RetOk (x >>= f) := by
  intro r hr
  obtain ⟨a, ha, hf⟩ := Except.bind_eq_ok.mp hr
  exact h a ha r hf

theorem RetOk.pass {α β : Type} {x : Except Halt (RvRet × α)}
    {f : RvRet × α → Except Halt (RvRet × β)} (hx : RetOk x) (hf : ∀ a, RetOk (f (.ok, a))) :
    RetOk (x >>= f) := by
  refine retOk_bind fun r hr => ?_
  have hret : r = (.ok, r.2) := Prod.ext (hx r hr) rfl
  rw [hret]
  exact hf r.2

section Callbacks

variable {privLevel : PrivilegeLevel} {accessType : BusAccessType} {address : RvUintXlen w}
  {value : List Byte} {len : Nat}

theorem memoryBusAccess_retOk {size : Nat} {mem : Memory} :
    RetOk (memoryBusAccess size mem privLevel accessType address value len) := by
  rw [memoryBusAccess]
  split
  · exact retOk_error _
  · split
    · exact retOk_ok _
    · exact retOk_ok _

theorem clintBusAccess_retOk {clint : Clint} :
    RetOk (clintBusAccess clint privLevel accessType address value len) := by
  rw [clintBusAccess]
  split
  · exact retOk_ok _
  · simp only
    split
    · exact retOk_error _
    · split
      · exact retOk_ok _
      · exact retOk_ok _

theorem plicBusAccess_retOk {plic : Plic} :
    RetOk (plicBusAccess plic privLevel accessType address value len) := by
  rw [plicBusAccess]
  split
  · exact retOk_ok _
  · simp only
    split
    · exact retOk_error _
    · split
      · split
        · split
          · exact retOk_error _
          · exact retOk_bind fun _ _ => retOk_ok _
        · exact retOk_ok _
      · split
        · exact retOk_bind fun _ _ => retOk_ok _
        · exact retOk_ok _

theorem simpleUartBusAccess_retOk {uart : SimpleUart} :
    RetOk (simpleUartBusAccess uart privLevel accessType address value len) := by
  rw [simpleUartBusAccess]
  split
  · exact retOk_error _
  · split
    · simp only
      split
      · exact retOk_bind fun _ _ => retOk_ok _
      · exact retOk_ok _
      · exact retOk_error _
    · split
      · exact retOk_bind fun _ _ => retOk_ok _
      · exact retOk_ok _
      · exact retOk_error _

theorem uartBusAccess_retOk {uart : UartNs8250} :
    RetOk (uartBusAccess uart privLevel accessType address value len) := by
  rw [uartBusAccess]
  split
  · exact retOk_error _
  · split
    · exact retOk_bind fun _ _ => retOk_ok _
    · refine retOk_bind ?_
      rintro ⟨outval, uart'⟩ -
      cases outval with
      | none => exact retOk_ok _
      | some v =>
          simp only
          split
          · exact retOk_error _
          · exact retOk_ok _

end Callbacks

theorem socBusAccess_neverErr (useSimpleUart : Bool) :
    NeverErr (w := w) (socBusAccess useSimpleUart) := by
  intro soc privLevel accessType address value len
  show RetOk (socBusAccess useSimpleUart soc privLevel accessType address value len)
  rw [socBusAccess, rvSocBusAccess]
  split
  · next index entry tmpAddr hdispatch =>
      simp only [busTargetAccess]
      cases entry.target with
      | ram => exact memoryBusAccess_retOk.pass fun _ => retOk_ok _
      | mrom => exact memoryBusAccess_retOk.pass fun _ => retOk_ok _
      | fromMem => exact memoryBusAccess_retOk.pass fun _ => retOk_ok _
      | clint =>
          refine RetOk.pass ?_ fun _ => retOk_ok _
          exact clintBusAccess_retOk.pass fun _ => retOk_ok _
      | plic =>
          refine RetOk.pass ?_ fun _ => retOk_ok _
          exact plicBusAccess_retOk.pass fun _ => retOk_ok _
      | uart =>
          refine RetOk.pass ?_ fun _ => retOk_ok _
          cases useSimpleUart with
          | true => exact simpleUartBusAccess_retOk.pass fun _ => retOk_ok _
          | false => exact uartBusAccess_retOk.pass fun _ => retOk_ok _
  · exact retOk_error _

/-! ### The condition -/

/-- An instruction that the decoder accepts comes back to the main loop just if the
accesses that it makes lie in the ranges of the bus and are answered by what is behind
them, its target is aligned, its CSR is in the table, it is not a return at the reserved
mode, and it is not `URET`. -/
theorem accepted_returns_iff (useSimpleUart : Bool) {s : RvCore w (RvSoc Devices)}
    (haccept : Accepted (socBusAccess useSimpleUart) s) :
    ReturnsToLoop (socBusAccess useSimpleUart) s ↔
      s.Ends (socBusAccess useSimpleUart) (SocServes useSimpleUart) := by
  rw [returnsToLoop_iff (socBusAccess_neverErr useSimpleUart)]
  exact rvCoreRun_returns_iff (socBusAccess_returns_iff useSimpleUart) haccept

/-- A firmware that begins with `URET`. -/
def uretFirmware : List Byte := leBytes 4 0x00200073

theorem exists_accepted_of_rounds {firmware : List Byte} {rounds : Nat}
    {p : RvCore .rv64 (RvSoc Devices) → Bool}
    (h : ((rvSocInit .rv64 firmware none none).toOption.any fun init =>
      (rvSocRounds false rounds init).toOption.any fun s =>
        p s && (rvCoreFetch (socBusAccess false) s.atFetch).toOption.any fun f =>
          (searchWord .rv64 f.2.instruction).isSome) = true) :
    ∃ s, SocReachable false s ∧ Accepted (socBusAccess false) s ∧ p s = true := by
  obtain ⟨init, hinit, hrounds⟩ := Except.exists_of_any_toOption h
  obtain ⟨s, hrounds, hs⟩ := Except.exists_of_any_toOption hrounds
  rw [Bool.and_eq_true] at hs
  obtain ⟨hp, hfetch⟩ := hs
  obtain ⟨f, hfetch, hsearch⟩ := Except.exists_of_any_toOption hfetch
  refine ⟨s, ⟨init, ⟨_, _, _, hinit⟩, rvSocRounds_reaches hrounds⟩, ?_, hp⟩
  intro f' hfetch'
  obtain rfl := Except.ok.inj (hfetch.symm.trans hfetch')
  exact Option.isSome_iff_ne_none.mp hsearch

/-- The state in which the reset vector has jumped to the firmware. -/
theorem exists_uret_reached :
    ∃ s : RvCore .rv64 (RvSoc Devices), SocReachable false s ∧ Accepted (socBusAccess false) s ∧
      ¬ Returns (rvCoreRun (socBusAccess false) s) := by
  have hcheck : ((rvSocInit .rv64 uretFirmware none none).toOption.any fun init =>
      (rvSocRounds false 6 init).toOption.any fun s =>
        (rvCoreRun (socBusAccess false) s).toOption.isNone &&
        (rvCoreFetch (socBusAccess false) s.atFetch).toOption.any fun f =>
          (searchWord .rv64 f.2.instruction).isSome) = true := by
    decide +kernel
  obtain ⟨s, hreach, haccept, hstop⟩ := exists_accepted_of_rounds hcheck
  refine ⟨s, hreach, haccept, ?_⟩
  rintro ⟨s', hrun⟩
  rw [hrun] at hstop
  cases hstop

/-- The state in which the reset vector loads the address of the device tree. -/
theorem exists_load_reached :
    ∃ s : RvCore .rv64 (RvSoc Devices), SocReachable false s ∧ Accepted (socBusAccess false) s ∧
      (∃ d, Executes (socBusAccess false) s .ld d) ∧
      Returns (rvCoreRun (socBusAccess false) s) := by
  have hcheck : ((rvSocInit .rv64 uretFirmware none none).toOption.any fun init =>
      (rvSocRounds false 3 init).toOption.any fun s =>
        ((executesAny (socBusAccess false) s fun cb _ => cb == .ld) &&
          (rvCoreRun (socBusAccess false) s).toOption.isSome) &&
        (rvCoreFetch (socBusAccess false) s.atFetch).toOption.any fun f =>
          (searchWord .rv64 f.2.instruction).isSome) = true := by
    decide +kernel
  obtain ⟨s, hreach, haccept, hcheck⟩ := exists_accepted_of_rounds hcheck
  obtain ⟨hload, hrun⟩ := Bool.and_eq_true_iff.mp hcheck
  obtain ⟨cb, d, hexec, hcb⟩ := exists_of_executesAny hload
  obtain rfl := eq_of_beq hcb
  refine ⟨s, hreach, haccept, ⟨d, hexec⟩, ?_⟩
  cases h : rvCoreRun (socBusAccess false) s with
  | ok s' => exact ⟨s', rfl⟩
  | error e =>
      rw [h] at hrun
      cases hrun

/-- The load of the reset vector comes back to the main loop, so it ends; the `URET` that
the reset vector jumps to does not end. -/
theorem accepted_returns_iff_uret :
    (∃ s : RvCore .rv64 (RvSoc Devices), SocReachable false s ∧
      Accepted (socBusAccess false) s ∧ (∃ d, Executes (socBusAccess false) s .ld d) ∧
      s.Ends (socBusAccess false) (SocServes false)) ∧
    ∃ s : RvCore .rv64 (RvSoc Devices), SocReachable false s ∧ Accepted (socBusAccess false) s ∧
      ¬ s.Ends (socBusAccess false) (SocServes false) := by
  constructor
  · obtain ⟨s, hreach, haccept, hload, hreturns⟩ := exists_load_reached
    have hback : ReturnsToLoop (socBusAccess false) s :=
      (returnsToLoop_iff (socBusAccess_neverErr false)).mpr hreturns
    exact ⟨s, hreach, haccept, hload, (accepted_returns_iff false haccept).mp hback⟩
  · obtain ⟨s, hreach, haccept, hstop⟩ := exists_uret_reached
    refine ⟨s, hreach, haccept, fun hends => hstop ?_⟩
    obtain ⟨s', hrun, -⟩ := (accepted_returns_iff false haccept).mpr hends
    exact ⟨s', hrun⟩

/-- `URET` waits for ever. -/
theorem uret_never_returns :
    ¬ ∀ (useSimpleUart : Bool) (s : RvCore .rv64 (RvSoc Devices)), SocReachable useSimpleUart s →
      Accepted (socBusAccess useSimpleUart) s → ReturnsToLoop (socBusAccess useSimpleUart) s := by
  intro h
  obtain ⟨s, hreach, haccept, hstop⟩ := exists_uret_reached
  obtain ⟨s', hrun, -⟩ := h false s hreach haccept
  exact hstop ⟨s', hrun⟩

end RiscvEm
