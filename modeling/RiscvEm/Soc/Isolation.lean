import RiscvEm.Core.BelowMachine
import RiscvEm.Soc.PhysMemory
import RiscvEm.Soc.Runs

/-!
What the PMP is there for. As long as the system runs below machine mode, the bytes of the
memories that no entry makes writable stay as they are, and those that no entry makes
readable or executable have no effect on what the system does.
-/

namespace RiscvEm

variable {w : Xlen} {useSimpleUart : Bool}

/-! ### One access -/

def Unwritten (pmp : Pmp w) (soc soc' : RvSoc Devices) : Prop :=
  ∀ a, ¬ PmpCovers pmp .write a → soc'.byteAt a = soc.byteAt a

/-- The systems differ only in bytes that no entry makes readable or executable. -/
structure SameVisible (pmp : Pmp w) (soc soc' : RvSoc Devices) : Prop where
  devices : soc'.devices = soc.devices
  bytes : ∀ a, PmpCovers pmp .read a ∨ PmpCovers pmp .instr a → soc'.byteAt a = soc.byteAt a

section Accesses

variable {pmp : Pmp w} {p : PrivilegeLevel} {t : BusAccessType} {addr : RvUintXlen w}
  {len : Nat}

theorem socBusAccess_unwritten (hp : p ≠ .machine) (hlen : 0 < len ∧ len ≤ 8)
    (hgrant : pmpMemCheck pmp p addr len t = .ok) {soc soc' : RvSoc Devices} {value : List Byte}
    {r : RvRet × List Byte × RvSoc Devices} (hsoc : Unwritten pmp soc soc')
    (h : socBusAccess useSimpleUart soc' p t addr value len = .ok r) :
    Unwritten pmp soc r.2.2 := by
  intro a ha
  rcases rvSocBusAccess_route useSimpleUart (deviceAccess useSimpleUart) addr hlen with
    ⟨e, hnone⟩ | ⟨hend, hmapped | ⟨target, offset, hdevice⟩⟩
  · rw [socBusAccess, hnone] at h
    cases h
  · rw [socBusAccess, rvSocBusAccess_mapped _ _ _ _ _ hlen.1 hmapped] at h
    split at h
    · next htype =>
        obtain rfl := Except.ok.inj h
        have hout : ¬ (addr.toNat ≤ a ∧ a < addr.toNat + len) := fun hin => ha (htype ▸
          pmpCovers_of_granted hp hlen (Nat.le_of_lt hend) hgrant hin.1 hin.2)
        rw [soc'.byteAt_writeBytes hmapped, if_neg hout]
        exact hsoc a ha
    · obtain rfl := Except.ok.inj h
      exact hsoc a ha
  · rw [socBusAccess, hdevice] at h
    cases haccess : deviceAccess useSimpleUart target soc'.devices p t offset value len with
    | error e =>
        rw [haccess] at h
        cases h
    | ok r' =>
        rw [haccess] at h
        obtain rfl := Except.ok.inj h
        exact hsoc a ha

/-- A granted access answers the same and leads to systems that look the same. -/
theorem socBusAccess_sameVisible (hp : p ≠ .machine) (hlen : 0 < len ∧ len ≤ 8)
    (hgrant : pmpMemCheck pmp p addr len t = .ok) {soc soc' : RvSoc Devices}
    (hsoc : SameVisible pmp soc soc') (value : List Byte) :
    Except.Alike (fun r r' => r'.1 = r.1 ∧ r'.2.1 = r.2.1 ∧ SameVisible pmp r.2.2 r'.2.2)
      (socBusAccess useSimpleUart soc p t addr value len)
      (socBusAccess useSimpleUart soc' p t addr value len) := by
  rcases rvSocBusAccess_route useSimpleUart (deviceAccess useSimpleUart) addr hlen with
    ⟨e, hnone⟩ | ⟨hend, hmapped | ⟨target, offset, hdevice⟩⟩
  · rw [socBusAccess, hnone, hnone]
    exact .error e
  · rw [socBusAccess, rvSocBusAccess_mapped _ _ _ _ _ hlen.1 hmapped,
      rvSocBusAccess_mapped _ _ _ _ _ hlen.1 hmapped]
    by_cases htype : t = .write
    · rw [if_pos htype, if_pos htype]
      refine .ok ⟨rfl, rfl, ?_, fun a ha => ?_⟩
      · rw [RvSoc.devices_writeBytes, RvSoc.devices_writeBytes, hsoc.devices]
      · rw [soc.byteAt_writeBytes hmapped, soc'.byteAt_writeBytes hmapped, hsoc.bytes a ha]
    · rw [if_neg htype, if_neg htype]
      have hbytes : soc'.bytesAt addr.toNat len = soc.bytesAt addr.toNat len := by
        refine List.map_congr_left fun i hi => ?_
        have hcovers := pmpCovers_of_granted hp hlen (Nat.le_of_lt hend) hgrant
          (Nat.le_add_right addr.toNat i) (Nat.add_lt_add_left (List.mem_range.mp hi) _)
        rw [hsoc.bytes]
        cases t with
        | read => exact .inl hcovers
        | instr => exact .inr hcovers
        | write => exact absurd rfl htype
      exact .ok ⟨rfl, by rw [hbytes], hsoc⟩
  · rw [socBusAccess, hdevice, hdevice, hsoc.devices]
    cases deviceAccess useSimpleUart target soc.devices p t offset value len with
    | error e => exact .error e
    | ok r => exact .ok ⟨rfl, rfl, rfl, hsoc.bytes⟩

end Accesses

/-! ### One event -/

/-- The system as machine mode has left it: it is below machine mode, and has the rights of
its mode. -/
structure Confined (s : RvCore w (RvSoc Devices)) : Prop where
  table : TableKept s.csrRegs
  below : s.BelowMachine
  mprvClear : s.MprvClear

theorem Confined.ne_machine {s : RvCore w (RvSoc Devices)} (h : Confined s)
    {p : PrivilegeLevel} (hp : p = s.currPrivMode ∨ p = s.dataMode) : p ≠ .machine := by
  rw [dataMode_of_mprvClear h.mprvClear, or_self] at hp
  rw [hp]
  exact h.below.ne_machine

section Events

variable {s s' : RvCore w (RvSoc Devices)}

theorem rvSocRound_setupKept {printed : List Byte} (h : Confined s)
    (hround : rvSocRound useSimpleUart s = .ok (printed, s')) :
    SetupKept s s' ∧ TableKept s'.csrRegs := by
  obtain ⟨s₁, mei, mti, msi, devices, hrun, -, hint⟩ := rvSocRound_cases hround
  have hkept : SetupKept s s₁ := rvCoreRun_setupKept h.table h.below hrun
  have hbehind : SetupKept s₁ { s₁ with priv := { s₁.priv with devices := devices } } :=
    .of_trap rfl rfl
  refine ⟨(hkept.trans hbehind).trans (rvCoreProcessInterrupts_setupKept hint), ?_⟩
  have htable : TableKept s₁.csrRegs := h.table.rvCoreRun hrun
  rw [rvCoreProcessInterrupts_frame hint]
  exact htable

theorem SocEvent.setupKept {e : SocEvent} {printed : List Byte} (h : Confined s)
    (hexec : e.exec useSimpleUart s = .ok (printed, s')) :
    SetupKept s s' ∧ TableKept s'.csrRegs := by
  cases e with
  | round => exact rvSocRound_setupKept h hexec
  | arrival x =>
      obtain ⟨devices, -, hexec⟩ := Except.bind_eq_ok.mp hexec
      obtain ⟨-, rfl⟩ := Prod.mk.inj (Except.ok.inj hexec)
      exact ⟨.of_trap rfl rfl, h.table⟩

theorem SocEvent.unwritten {e : SocEvent} {printed : List Byte} (h : Confined s)
    (hexec : e.exec useSimpleUart s = .ok (printed, s')) : Unwritten s.pmp s.priv s'.priv := by
  cases e with
  | round =>
      obtain ⟨s₁, mei, mti, msi, devices, hrun, -, hint⟩ := rvSocRound_cases hexec
      have hcall : Unwritten s.pmp s.priv s₁.priv := by
        refine rvCoreRun_keeps (Q := Unwritten s.pmp s.priv) ?_ (fun _ _ => rfl) hrun
        intro soc p t addr value len r hsoc hreach haccess
        exact socBusAccess_unwritten (h.ne_machine hreach.mode) hreach.length hreach.granted hsoc
          haccess
      rw [rvCoreProcessInterrupts_frame hint]
      exact hcall
  | arrival x =>
      obtain ⟨devices, -, hexec⟩ := Except.bind_eq_ok.mp hexec
      obtain ⟨-, rfl⟩ := Prod.mk.inj (Except.ok.inj hexec)
      exact fun _ _ => rfl

theorem SocEvent.exec_alike (e : SocEvent) (h : Confined s)
    (hs : Beside (SameVisible s.pmp) s s') :
    Except.Alike (fun r r' => r'.1 = r.1 ∧ Beside (SameVisible s.pmp) r.2 r'.2)
      (e.exec useSimpleUart s) (e.exec useSimpleUart s') := by
  cases e with
  | round =>
      have hbus : BusAlike (SameVisible s.pmp) s (socBusAccess useSimpleUart)
          (socBusAccess useSimpleUart) := by
        intro soc soc' p t addr value len hsoc hreach
        exact socBusAccess_sameVisible (h.ne_machine hreach.mode) hreach.length hreach.granted
          hsoc value
      refine (rvCoreRun_alike hs hbus).bind fun s₁ s₁' _ _ h₁ => ?_
      obtain ⟨soc, hsoc, rfl⟩ := h₁.exists_priv
      have hdevices : (s₁.withPriv soc).priv.devices = s₁.priv.devices := hsoc.devices
      rw [hdevices]
      refine Except.Alike.bind (R := Eq) (Except.alike_self fun _ _ => rfl) ?_
      rintro ⟨mei, mti, msi, printed, devices⟩ _ - - rfl
      have hupdated : Beside (SameVisible s.pmp)
          { s₁ with priv := { s₁.priv with devices := devices } }
          { s₁ with priv := { soc with devices := devices } } := ⟨rfl, rfl, hsoc.bytes⟩
      refine ((indifferent_rvCoreProcessInterrupts mei mti msi).alike hupdated).bind ?_
      exact fun _ _ _ _ h₂ => .ok ⟨rfl, h₂⟩
  | arrival x =>
      obtain ⟨soc, hsoc, rfl⟩ := hs.exists_priv
      have hdevices : (s.withPriv soc).priv.devices = s.priv.devices := hsoc.devices
      simp only [SocEvent.exec, hdevices]
      refine Except.Alike.bind (R := Eq) (Except.alike_self fun _ _ => rfl) ?_
      rintro devices _ - - rfl
      exact .ok ⟨rfl, rfl, rfl, hsoc.bytes⟩

end Events

/-! ### Runs -/

/-- Every event of the run happens below machine mode. The last one may be a trap into
machine mode. -/
def StaysBelow (useSimpleUart : Bool) : List SocEvent → RvCore w (RvSoc Devices) → Prop
  | [], _ => True
  | e :: rest, s => s.BelowMachine ∧ ∀ printed s', e.exec useSimpleUart s = .ok (printed, s') →
      StaysBelow useSimpleUart rest s'

instance decidableStaysBelow (useSimpleUart : Bool) :
    (events : List SocEvent) → (s : RvCore w (RvSoc Devices)) →
      Decidable (StaysBelow useSimpleUart events s)
  | [], _ => .isTrue trivial
  | e :: rest, s =>
      match hexec : e.exec useSimpleUart s with
      | .error _ => decidable_of_iff s.BelowMachine
          ⟨fun h => ⟨h, fun _ _ h' =>
            (Except.noConfusion rfl rfl (heq_of_eq (hexec.symm.trans h')))⟩,
            fun h => h.1⟩
      | .ok r =>
          have := decidableStaysBelow useSimpleUart rest r.2
          decidable_of_iff (s.BelowMachine ∧ StaysBelow useSimpleUart rest r.2)
            ⟨fun h => ⟨h.1, fun _ _ h' => by
              obtain rfl := Except.ok.inj (hexec.symm.trans h')
              exact h.2⟩, fun h => ⟨h.1, h.2 r.1 r.2 hexec⟩⟩

section Runs

variable {s s' : RvCore w (RvSoc Devices)} {events : List SocEvent}

theorem rvSocEvents_unwritten (htable : TableKept s.csrRegs) (hclear : s.MprvClear)
    (hbelow : StaysBelow useSimpleUart events s) {outs : List (List Byte)}
    (h : rvSocEvents useSimpleUart events s = .ok (outs, s')) :
    s'.pmp = s.pmp ∧ Unwritten s.pmp s.priv s'.priv := by
  induction events generalizing s outs with
  | nil =>
      obtain ⟨-, rfl⟩ := Prod.mk.inj (Except.ok.inj h)
      exact ⟨rfl, fun _ _ => rfl⟩
  | cons e rest ih =>
      rw [rvSocEvents_cons] at h
      obtain ⟨⟨out, s₁⟩, hexec, h⟩ := Except.bind_eq_ok.mp h
      obtain ⟨⟨outs', s₂⟩, hrest, h⟩ := Except.bind_eq_ok.mp h
      obtain ⟨-, rfl⟩ := Prod.mk.inj (Except.ok.inj h)
      have hs : Confined s := ⟨htable, hbelow.1, hclear⟩
      obtain ⟨hkept, htable₁⟩ := SocEvent.setupKept hs hexec
      obtain ⟨hpmp, hbytes⟩ := ih htable₁ (hkept.mprvClear hclear) (hbelow.2 out s₁ hexec) hrest
      rw [hkept.pmp] at hpmp hbytes
      refine ⟨hpmp, fun a ha => ?_⟩
      calc s₂.priv.byteAt a = s₁.priv.byteAt a := hbytes a ha
        _ = s.priv.byteAt a := SocEvent.unwritten hs hexec a ha

theorem rvSocEvents_alike (htable : TableKept s.csrRegs) (hclear : s.MprvClear)
    (hbelow : StaysBelow useSimpleUart events s) (h : Beside (SameVisible s.pmp) s s') :
    Except.Alike (fun r r' => r'.1 = r.1 ∧ Beside (SameVisible s.pmp) r.2 r'.2)
      (rvSocEvents useSimpleUart events s) (rvSocEvents useSimpleUart events s') := by
  induction events generalizing s s' with
  | nil => exact .ok ⟨rfl, h⟩
  | cons e rest ih =>
      have hs : Confined s := ⟨htable, hbelow.1, hclear⟩
      rw [rvSocEvents_cons, rvSocEvents_cons]
      refine (SocEvent.exec_alike e hs h).bind ?_
      rintro ⟨out, s₁⟩ ⟨out', s₁'⟩ hexec - ⟨hout, h₁⟩
      obtain rfl : out = out' := hout.symm
      obtain ⟨hkept, htable₁⟩ := SocEvent.setupKept hs hexec
      rw [← hkept.pmp] at h₁ ⊢
      refine (ih htable₁ (hkept.mprvClear hclear) (hbelow.2 out s₁ hexec) h₁).bind ?_
      rintro ⟨outs, s₂⟩ ⟨outs', s₂'⟩ - - ⟨houts, h₂⟩
      obtain rfl : outs = outs' := houts.symm
      exact .ok ⟨rfl, h₂⟩

/-- Integrity: as long as the system runs below machine mode, the PMP registers and the
bytes of the memories that no entry makes writable stay as they are. -/
theorem pmp_protects_memory (hs : SocReachable useSimpleUart s) (hclear : s.MprvClear)
    (hbelow : StaysBelow useSimpleUart events s) {outs : List (List Byte)}
    (h : rvSocEvents useSimpleUart events s = .ok (outs, s')) :
    s'.pmp = s.pmp ∧
      ∀ a, ¬ PmpCovers s.pmp .write a → s'.priv.byteAt a = s.priv.byteAt a :=
  rvSocEvents_unwritten hs.core.tableKept hclear hbelow h

end Runs

/-- Machine mode gives user mode the first four kibibytes of the RAM, where user mode then
stores a word and tries to load one from beyond. -/
def pmpFirmware : List Byte :=
  [0x200000B7, 0x1FF08093, 0x3B009073,       -- pmpaddr0
    0x01F00113, 0x3A011073,                   -- pmpcfg0: NAPOT, all accesses
    0x800001B7, 0x02418213, 0x34121073,       -- mepc
    0x30200073,                               -- mret
    0x1041A023, 0x80001337, 0x00032283].flatMap (leBytes 4)

def userStart (s : RvCore .rv32 (RvSoc Devices)) : Bool :=
  !s.status.getLsbD trapXstatusMprvBit &&
    decide (StaysBelow false [.round, .round, .round] s) &&
    decide (¬ PmpCovers s.pmp .read 0x80002000 ∧ ¬ PmpCovers s.pmp .instr 0x80002000)

theorem exists_userStart : ∃ s : RvCore .rv32 (RvSoc Devices), SocReachable false s ∧
    userStart s = true ∧
      ∃ outs s', rvSocEvents false [.round, .round, .round] s = .ok (outs, s') := by
  have hcheck : ((rvSocInit .rv32 pmpFirmware none none).toOption.any fun init =>
      (rvSocRounds false 15 init).toOption.any fun s => userStart s &&
        (rvSocEvents false [.round, .round, .round] s).toOption.any fun _ => true) = true := by
    decide +kernel
  obtain ⟨init, hinit, hrounds⟩ := Except.exists_of_any_toOption hcheck
  obtain ⟨s, hrounds, hs⟩ := Except.exists_of_any_toOption hrounds
  rw [Bool.and_eq_true] at hs
  obtain ⟨r, hr, -⟩ := Except.exists_of_any_toOption hs.2
  exact ⟨s, ⟨init, ⟨_, _, _, hinit⟩, rvSocRounds_reaches hrounds⟩, hs.1, r.1, r.2, hr⟩

theorem pmp_protects_memory_user : ∃ (s s' : RvCore .rv32 (RvSoc Devices))
    (outs : List (List Byte)), rvSocEvents false [.round, .round, .round] s = .ok (outs, s') ∧
      s'.pmp = s.pmp ∧ ∀ a, ¬ PmpCovers s.pmp .write a → s'.priv.byteAt a = s.priv.byteAt a := by
  obtain ⟨s, hreach, hstart, outs, s', hrun⟩ := exists_userStart
  simp only [userStart, Bool.and_eq_true, Bool.not_eq_true', decide_eq_true_eq] at hstart
  exact ⟨s, s', outs, hrun, pmp_protects_memory hreach hstart.1.1 hstart.1.2 hrun⟩

section Runs

variable {s s' : RvCore w (RvSoc Devices)} {events : List SocEvent}

/-- Confidentiality: a second system that differs in bytes of the memories that no entry
makes readable or executable prints the same, stops where the first one stops, and is in
the same state up to those bytes after the same events. -/
theorem pmp_hides_memory (hs : SocReachable useSimpleUart s) (hclear : s.MprvClear)
    (hbelow : StaysBelow useSimpleUart events s) {soc : RvSoc Devices}
    (hsoc : SameVisible s.pmp s.priv soc) :
    Except.Alike (fun r r' => r'.1 = r.1 ∧ r'.2 = r.2.withPriv r'.2.priv ∧
        SameVisible s.pmp r.2.priv r'.2.priv)
      (rvSocEvents useSimpleUart events s)
      (rvSocEvents useSimpleUart events (s.withPriv soc)) := by
  refine (rvSocEvents_alike hs.core.tableKept hclear hbelow (beside_withPriv s hsoc)).mono ?_
  exact fun _ _ _ _ h => ⟨h.1, h.2.core, h.2.priv⟩

end Runs

/-- A byte beyond what user mode may read is another one. -/
theorem pmp_hides_memory_user : ∃ s : RvCore .rv32 (RvSoc Devices),
    Except.Alike (fun r r' => r'.1 = r.1 ∧ r'.2 = r.2.withPriv r'.2.priv ∧
        SameVisible s.pmp r.2.priv r'.2.priv)
      (rvSocEvents false [.round, .round, .round] s)
      (rvSocEvents false [.round, .round, .round]
        (s.withPriv (s.priv.writeBytes 0x80002000 [0xAA] 1))) := by
  obtain ⟨s, hreach, hstart, -⟩ := exists_userStart
  simp only [userStart, Bool.and_eq_true, Bool.not_eq_true', decide_eq_true_eq] at hstart
  obtain ⟨⟨hclear, hbelow⟩, hread, hinstr⟩ := hstart
  refine ⟨s, pmp_hides_memory hreach hclear hbelow ⟨s.priv.devices_writeBytes _ _ _, ?_⟩⟩
  intro a ha
  rw [s.priv.byteAt_writeBytes (by decide), if_neg]
  rintro ⟨hlow, hhigh⟩
  obtain rfl : a = 0x80002000 := by omega
  exact ha.elim hread hinstr

end RiscvEm
