import RiscvEm.Core.Erasure
import RiscvEm.Core.FaultCauses
import RiscvEm.Core.RoundTrip
import RiscvEm.Soc.Translation

/-!
The atomic operations on words of the RAM: the load, the combination and the store of one
instruction, whatever registers it names.
-/

namespace RiscvEm

variable {w : Xlen} {σ : Type}

/-! ### The operations -/

def ExecutionCb.amoOp {n : Nat} (old src : BitVec n) : ExecutionCb → BitVec n
  | .amoaddW | .amoaddD => old + src
  | .amoxorW | .amoxorD => old ^^^ src
  | .amoandW | .amoandD => old &&& src
  | .amoorW | .amoorD => old ||| src
  | .amominW | .amominD => if old.toInt < src.toInt then old else src
  | .amomaxW | .amomaxD => if src.toInt < old.toInt then old else src
  | .amominuW | .amominuD => if old.toNat < src.toNat then old else src
  | .amomaxuW | .amomaxuD => if src.toNat < old.toNat then old else src
  | _ => src

section Handlers

/-- The handler loads a word with sign extension and stores what the low bytes of `rd` and of
the other operand combine to. -/
def AmoShape (busAccess : BusAccessFunc w σ) (len : Nat) (handler amoLoad : Handler w σ)
    (combine : BitVec (8 * len) → BitVec (8 * len) → BitVec (8 * len)) : Prop :=
  amoLoad = load busAccess len (fun v => v.signExtend w.bits) ∧
    ∃ op, handler = amo busAccess len (load busAccess len fun v => v.signExtend w.bits) op ∧
      ∀ old src, op old src =
        (combine (old.setWidth (8 * len)) (src.setWidth (8 * len))).toNat

variable (busAccess : BusAccessFunc w σ)

/-- A word that was extended to a register and cut again. -/
theorem setWidth_signExtend_word {n : Nat} (hn : n ≤ w.bits) (old : BitVec n) :
    (old.signExtend w.bits).setWidth n = old := by
  apply BitVec.eq_of_getLsbD_eq
  intro i hi
  have hwide : i < w.bits := Nat.lt_of_lt_of_le hi hn
  rw [BitVec.getLsbD_setWidth, BitVec.getLsbD_signExtend]
  simp [hi, hwide]

theorem amoShape_word {op combine : BitVec 32 → BitVec 32 → BitVec 32}
    (h : ∀ old src, op old src = combine old src) :
    AmoShape busAccess 4 (amoW busAccess op) (instrLw busAccess) combine := by
  refine ⟨rfl, _, rfl, fun old src => ?_⟩
  rw [h]

theorem amoShape_double (busAccess : BusAccessFunc .rv64 σ)
    {op combine : BitVec 64 → BitVec 64 → BitVec 64} (h : ∀ old src, op old src = combine old src) :
    AmoShape busAccess 8 (amoD busAccess op) (instrLd busAccess) combine := by
  have hextend : (fun v : BitVec 64 => v.setWidth 64) = fun v => v.signExtend 64 := by
    funext v
    rw [BitVec.setWidth_eq, BitVec.signExtend_eq]
  have hload : instrLd busAccess = load busAccess 8 fun v => v.signExtend 64 :=
    congrArg (load busAccess 8) hextend
  refine ⟨hload, _, congrArg (fun l => amo busAccess 8 l _) hload, fun old src => ?_⟩
  show (op old src).toNat = (combine (old.setWidth 64) (src.setWidth 64)).toNat
  rw [h, BitVec.setWidth_eq, BitVec.setWidth_eq]

theorem ite_slt {n : Nat} (a b x y : BitVec n) :
    (if a.slt b then x else y) = if a.toInt < b.toInt then x else y :=
  if_congr (by rw [BitVec.slt, decide_eq_true_eq]) rfl rfl

theorem ite_ult {n : Nat} (a b x y : BitVec n) :
    (if a.ult b then x else y) = if a.toNat < b.toNat then x else y :=
  if_congr (by rw [BitVec.ult, decide_eq_true_eq]) rfl rfl

theorem handler_amoShape {cb : ExecutionCb} (hcb : cb.kind = .amo)
    (hw : cb.accessLen = 8 → w = .rv64) :
    AmoShape busAccess cb.accessLen (cb.handler busAccess) (cb.amoLoad busAccess) cb.amoOp := by
  -- the handlers are opened by their equations, so that the shapes match as they stand
  by_cases hlen : cb.accessLen = 8
  · obtain rfl := hw hlen
    rw [ExecutionCb.amoLoad, if_pos hlen]
    cases cb <;> first
      | (cases hcb; done)
      | (cases hlen; done)
      | simp only [ExecutionCb.handler, ExecutionCb.accessLen, instrAmoswapD, instrAmoaddD,
          instrAmoxorD, instrAmoandD, instrAmoorD, instrAmominD, instrAmomaxD, instrAmominuD,
          instrAmomaxuD]
    all_goals with_reducible refine amoShape_double busAccess fun a b => ?_
    case amominD => exact ite_slt a b a b
    case amomaxD => exact ite_slt b a a b
    case amominuD => exact ite_ult a b a b
    case amomaxuD => exact ite_ult b a a b
    all_goals rfl
  · rw [ExecutionCb.amoLoad, if_neg hlen]
    cases cb <;> first
      | (cases hcb; done)
      | exact absurd rfl hlen
      | simp only [ExecutionCb.handler, ExecutionCb.accessLen, instrAmoswapW, instrAmoaddW,
          instrAmoxorW, instrAmoandW, instrAmoorW, instrAmominW, instrAmomaxW, instrAmominuW,
          instrAmomaxuW]
    all_goals with_reducible refine amoShape_word busAccess fun a b => ?_
    case amominW => exact ite_slt a b a b
    case amomaxW => exact ite_slt b a a b
    case amominuW => exact ite_ult a b a b
    case amomaxuW => exact ite_ult b a a b
    all_goals rfl

/-- The word of an atomic operation fits a register. -/
theorem amo_accessLen_le {cb : ExecutionCb} (hcb : cb.kind = .amo)
    (hw : cb.accessLen = 8 → w = .rv64) : 8 * cb.accessLen ≤ w.bits := by
  by_cases hlen : cb.accessLen = 8
  · obtain rfl := hw hlen
    exact Nat.le_of_eq (congrArg (8 * ·) hlen)
  · have hfour : cb.accessLen = 4 := by
      cases cb <;> first | (cases hcb; done) | rfl | exact absurd rfl hlen
    rw [hfour]
    exact w.bits_ge

end Handlers

/-! ### Accesses that are not refused -/

def TranslatesTo (busAccess : BusAccessFunc w σ) (s : RvCore w σ) (accessType : BusAccessType)
    (addr phys : RvUintXlen w) : Prop :=
  ∃ physAddr s', mmuVirtToPhys busAccess s (checkMprvOverride s accessType) addr accessType
      (checkBit s.status trapXstatusMxrBit) (checkBit s.status trapXstatusSumBit) =
        .ok (some physAddr, s') ∧
    phys = physAddr.setWidth w.bits

/-- An access that is not refused is translated, and granted by the PMP. -/
theorem granted_of_accessRefusal {busAccess : BusAccessFunc w σ} {s : RvCore w σ}
    {accessType : BusAccessType} {addr : RvUintXlen w} {len : Nat}
    (h : accessRefusal busAccess s accessType addr len = .ok none) :
    ∃ physAddr s', mmuVirtToPhys busAccess s (checkMprvOverride s accessType) addr accessType
        (checkBit s.status trapXstatusMxrBit) (checkBit s.status trapXstatusSumBit) =
          .ok (some physAddr, s') ∧
      ¬ pmpMemCheck s.pmp (checkMprvOverride s accessType) (physAddr.setWidth w.bits) len
        accessType = .err := by
  rw [accessRefusal] at h
  obtain ⟨r, -, h⟩ := Except.bind_eq_ok.mp h
  cases r with
  | some pteAddr => cases h
  | none =>
      obtain ⟨⟨physAddr, s'⟩, htrans, h⟩ := Except.bind_eq_ok.mp h
      cases physAddr with
      | none => cases h
      | some physAddr =>
          simp only at h
          split at h
          · cases h
          · next hgrant => exact ⟨physAddr, s', htrans, hgrant⟩

/-- What a store to a register changes is not looked at by an access. -/
theorem unseen_setX (r : RegIndex) (v : RvUintXlen w) :
    Unseen (fun s : RvCore w σ => s.setX r v) where
  currPrivMode _ := rfl
  pmp _ := rfl
  trap _ := rfl
  satpReg _ := rfl
  priv _ := rfl
  setPriv _ _ := rfl
  syncTrap s cause tval := by
    rw [prepareSyncTrap, prepareSyncTrap]
    show _ = if s.syncTrapPending then _ else _
    split <;> rfl

theorem TranslatesTo.setX {busAccess : BusAccessFunc w σ} {s : RvCore w σ}
    {accessType : BusAccessType} {addr phys : RvUintXlen w}
    (h : TranslatesTo busAccess s accessType addr phys) (htype : accessType ≠ .instr)
    (r : RegIndex) (v : RvUintXlen w) :
    TranslatesTo busAccess (s.setX r v) accessType addr phys := by
  obtain ⟨physAddr, s', htrans, hphys⟩ := h
  have hsame := mmuVirtToPhys_unseen (unseen_setX r v) busAccess s (checkMprvOverride s accessType)
    addr htype (checkBit s.status trapXstatusMxrBit) (checkBit s.status trapXstatusSumBit)
  rw [htrans] at hsame
  exact ⟨physAddr, s'.setX r v, hsame, hphys⟩

section Ram

variable {useSimpleUart : Bool} {s : RvCore w (RvSoc Devices)} {addr phys : RvUintXlen w}
  {len : Nat}

theorem mmuCheckedBusAccess_ram_read
    (htrans : TranslatesTo (socBusAccess useSimpleUart) s .read addr phys) (hlen : 0 < len)
    (hram : InRam phys len)
    (hgrant : accessRefusal (socBusAccess useSimpleUart) s .read addr len = .ok none)
    (value : List Byte) :
    mmuCheckedBusAccess (socBusAccess useSimpleUart) s .read addr value len =
      .ok (.ok, s.priv.ram.read (ramIndex phys) value len, s) := by
  obtain ⟨physAddr, s', htrans, rfl⟩ := htrans
  obtain ⟨physAddr', s'', htrans', hpmp⟩ := granted_of_accessRefusal hgrant
  obtain ⟨hphys, rfl⟩ := Prod.mk.inj (Except.ok.inj (htrans.symm.trans htrans'))
  obtain rfl := Option.some.inj hphys
  obtain rfl := mmuVirtToPhys_into_ram (by decide) htrans hram
  have hread : BusAccessType.read ≠ .write := by decide
  have hbus := rvSocBusAccess_ram_read useSimpleUart (deviceAccess useSimpleUart) s'.priv
    (checkMprvOverride s' .read) value hread hlen hram
  rw [← socBusAccess] at hbus
  simp only [mmuCheckedBusAccess, htrans, Except.ok_bind, pmpCheckedBusAccess, if_neg hpmp, hbus,
    Except.pure_eq_ok]

/-- A store to an address from which a load finds the RAM. -/
theorem mmuCheckedBusAccess_ram_write
    (htrans : TranslatesTo (socBusAccess useSimpleUart) s .read addr phys) (hlen : 0 < len)
    (hram : InRam phys len)
    (hgrant : accessRefusal (socBusAccess useSimpleUart) s .write addr len = .ok none)
    (value : List Byte) :
    mmuCheckedBusAccess (socBusAccess useSimpleUart) s .write addr value len =
      .ok (.ok, value, { s with
        priv := { s.priv with ram := s.priv.ram.write (ramIndex phys) value len } }) := by
  obtain ⟨physAddr, s', htrans, rfl⟩ := htrans
  obtain rfl := mmuVirtToPhys_into_ram (by decide) htrans hram
  obtain ⟨physAddr', s'', htrans', hpmp⟩ := granted_of_accessRefusal hgrant
  have hmode : checkMprvOverride s' .write = checkMprvOverride s' .read := rfl
  -- both accesses are translated by the same walk
  obtain ⟨stored, hstored, hsame⟩ := mmuVirtToPhys_store_of_load htrans
  rw [hmode] at htrans'
  obtain ⟨rfl, rfl⟩ := Prod.mk.inj (Except.ok.inj (htrans'.symm.trans hstored))
  obtain rfl := hsame physAddr' rfl
  have hbus := rvSocBusAccess_ram_write useSimpleUart (deviceAccess useSimpleUart) s''.priv
    (checkMprvOverride s'' .write) value hlen hram
  rw [← socBusAccess] at hbus
  rw [← hmode] at htrans'
  simp only [mmuCheckedBusAccess, htrans', Except.ok_bind, pmpCheckedBusAccess, if_neg hpmp, hbus,
    Except.pure_eq_ok]

end Ram

/-! ### The instruction -/

def ramWord (len : Nat) (soc : RvSoc Devices) (address : RvUintXlen w) : BitVec (8 * len) :=
  leLoad len (soc.ram.read (ramIndex address) [] len)

/-- What an atomic operation on the word at `phys` does: the word is combined with the low
bytes of `x[rs2]`, its old value is extended into `rd`, and nothing else changes in the
memories and the registers. -/
structure AmoEffect (cb : ExecutionCb) (rd rs2 : RegIndex) (phys : RvUintXlen w)
    (s s' : RvCore w (RvSoc Devices)) : Prop where
  word : ramWord cb.accessLen s'.priv phys =
    cb.amoOp (ramWord cb.accessLen s.priv phys) ((s.x rs2).setWidth (8 * cb.accessLen))
  otherBytes : ∀ a, a < ramIndex phys ∨ ramIndex phys + cb.accessLen ≤ a →
    s'.priv.ram a = s.priv.ram a
  otherMemories : s'.priv.mrom = s.priv.mrom ∧ s'.priv.fromMem = s.priv.fromMem
  destination : rd ≠ 0 → s'.x rd = (ramWord cb.accessLen s.priv phys).signExtend w.bits
  otherRegisters : ∀ r, r ≠ 0 → r ≠ rd → s'.x r = s.x r
  zeroRegister : s'.x 0 = 0

theorem accessLen_pos (cb : ExecutionCb) : 0 < cb.accessLen := by
  cases cb <;> decide

section Instruction

variable {useSimpleUart : Bool} {s d : RvCore w (RvSoc Devices)} {cb : ExecutionCb}
  {rd rs1 rs2 : RegIndex}

/-- The operands of the executed instruction are those of its word. -/
theorem Executes.operands {busAccess : BusAccessFunc w σ} {s d : RvCore w σ}
    (h : Executes busAccess s cb d) (henc : Encodes w cb (.r rd rs1 rs2) d.instruction) :
    d.rd = rd ∧ d.rs1 = rs1 ∧ d.rs2 = rs2 := by
  obtain ⟨f, -, hdecode, -⟩ := h
  have hinstr : f.instruction = d.instruction := by rw [rvCoreDecode_frame hdecode]
  obtain ⟨d', hdecode', -, hrd, hrs1, hrs2, -⟩ :=
    rvCoreDecode_operands henc (fun _ _ => nofun) hinstr
  obtain rfl := Except.ok.inj (hdecode.symm.trans hdecode')
  exact ⟨hrd, hrs1, hrs2⟩

theorem amo_ram {phys : RvUintXlen w} {old : BitVec (8 * cb.accessLen)} (hcb : cb.kind = .amo)
    (hw : cb.accessLen = 8 → w = .rv64) (haddr : effectiveAddress d = d.x d.rs1)
    (htrans : TranslatesTo (socBusAccess useSimpleUart) d .read (d.x d.rs1) phys)
    (hram : InRam phys cb.accessLen) (hold : ramWord cb.accessLen d.priv phys = old)
    (hload : accessRefusal (socBusAccess useSimpleUart) d .read (d.x d.rs1) cb.accessLen = .ok none)
    (hstore : ∀ m, cb.amoLoad (socBusAccess useSimpleUart) d = .ok m →
      accessRefusal (socBusAccess useSimpleUart) m .write (d.x d.rs1) cb.accessLen = .ok none) :
    cb.handler (socBusAccess useSimpleUart) d =
      .ok { d.setX d.rd (old.signExtend w.bits) with
        priv := { d.priv with
          ram := d.priv.ram.write (ramIndex phys)
            (leBytes cb.accessLen (cb.amoOp old ((d.x d.rs2).setWidth (8 * cb.accessLen))).toNat)
            cb.accessLen } } := by
  obtain ⟨hamoLoad, op, hhandler, hop⟩ := handler_amoShape (socBusAccess useSimpleUart) hcb hw
  have hlen := accessLen_pos cb
  have hword : leLoad cb.accessLen (d.priv.ram.read (ramIndex phys) (leBytes cb.accessLen 0)
      cb.accessLen) = old := by
    rw [← hold, ramWord, leLoad, leLoad, take_memoryRead _ _ _ [] (Nat.le_refl _)]
  have hread := mmuCheckedBusAccess_ram_read htrans hlen hram hload (leBytes cb.accessLen 0)
  have hloaded : load (socBusAccess useSimpleUart) cb.accessLen (fun v => v.signExtend w.bits) d =
      .ok (d.setX d.rd (old.signExtend w.bits)) := by
    refine load_eq_ok.mpr ⟨.ok, _, d, by rw [haddr]; exact hread, ?_⟩
    rw [if_pos rfl, hword]
  -- the loaded register is not looked at by the translation of the store
  have htrans' := htrans.setX (by decide) d.rd (old.signExtend w.bits)
  have hgrant := hstore _ (hamoLoad ▸ hloaded)
  have hvalue : op ((d.setX d.rd (old.signExtend w.bits)).x d.rd) (d.x d.rs2) =
      (cb.amoOp old ((d.x d.rs2).setWidth (8 * cb.accessLen))).toNat := by
    rw [RvCore.setX_x, Function.update_self, hop,
      setWidth_signExtend_word (amo_accessLen_le hcb hw)]
  have hrd : (d.setX d.rd (old.signExtend w.bits)).rd = d.rd := rfl
  rw [hhandler, amo_eq_ok]
  refine ⟨_, hloaded, .ok,
    leBytes cb.accessLen (cb.amoOp old ((d.x d.rs2).setWidth (8 * cb.accessLen))).toNat, ?_⟩
  rw [hrd, hvalue]
  exact mmuCheckedBusAccess_ram_write htrans' hlen hram hgrant _

/-- The atomic operations: where the address lies in the RAM and neither access is refused,
the word and the destination register are exchanged as the instruction says, and every other
byte and register stays, whatever registers coincide. -/
theorem amo_semantics {phys : RvUintXlen w} (hcb : cb.kind = .amo)
    (hexec : Executes (socBusAccess useSimpleUart) s cb d)
    (henc : Encodes w cb (.r rd rs1 rs2) d.instruction)
    (htrans : TranslatesTo (socBusAccess useSimpleUart) d .read (s.x rs1) phys)
    (hram : InRam phys cb.accessLen)
    (hload : accessRefusal (socBusAccess useSimpleUart) d .read (s.x rs1) cb.accessLen = .ok none)
    (hstore : ∀ m, cb.amoLoad (socBusAccess useSimpleUart) d = .ok m →
      accessRefusal (socBusAccess useSimpleUart) m .write (s.x rs1) cb.accessLen = .ok none) :
    ∃ s', rvCoreRun (socBusAccess useSimpleUart) s = .ok s' ∧ AmoEffect cb rd rs2 phys s s' := by
  obtain ⟨rfl, rfl, rfl⟩ := hexec.operands henc
  have hx : d.x = s.x := by rw [hexec.frame]
  obtain ⟨hsame, hmrom, hfrom⟩ : SameMemories s.priv d.priv :=
    hexec.behind (respects_sameMemories (by decide)) (respects_sameMemories (by decide))
  have hold : ramWord cb.accessLen d.priv phys = ramWord cb.accessLen s.priv phys := by
    rw [ramWord, ramWord, hsame]
  have haddr := hexec.atomic_address (ExecutionCb.atomic_of_kind (.inr (.inr hcb)))
  rw [← hx] at htrans hload
  have hstore' : ∀ m, cb.amoLoad (socBusAccess useSimpleUart) d = .ok m →
      accessRefusal (socBusAccess useSimpleUart) m .write (d.x d.rs1) cb.accessLen = .ok none := by
    intro m hm
    rw [hx]
    exact hstore m hm
  obtain ⟨e, hhandler, hpriv, hregs⟩ : ∃ e, cb.handler (socBusAccess useSimpleUart) d = .ok e ∧
      e.priv = { d.priv with
        ram := d.priv.ram.write (ramIndex phys)
          (leBytes cb.accessLen (cb.amoOp (ramWord cb.accessLen s.priv phys)
            ((d.x d.rs2).setWidth (8 * cb.accessLen))).toNat) cb.accessLen } ∧
      e.x = Function.update d.x d.rd ((ramWord cb.accessLen s.priv phys).signExtend w.bits) :=
    ⟨_, amo_ram hcb (hexec.amo_width hcb) haddr htrans hram hold hload hstore', rfl, rfl⟩
  rw [hx] at hpriv hregs
  have hram' : (advance (e.setX 0 0)).priv = e.priv := rfl
  have hregs' : (advance (e.setX 0 0)).x = Function.update e.x 0 0 := rfl
  refine ⟨_, hexec.run hhandler, ?_⟩
  constructor
  case word =>
    rw [hram', hpriv, ramWord, Memory.read_write _ _ (length_leBytes _ _), List.drop_nil,
      List.append_nil, leLoad, List.take_of_length_le (Nat.le_of_eq (length_leBytes _ _)),
      ofNat_leNat_word]
  case otherBytes =>
    intro a ha
    have houtside : ¬ (ramIndex phys ≤ a ∧ a < ramIndex phys + cb.accessLen) := by omega
    simp only [hram', hpriv, Memory.write, if_neg houtside, hsame]
  case otherMemories =>
    rw [hram', hpriv]
    exact ⟨hmrom, hfrom⟩
  case destination =>
    intro hrd
    rw [hregs', Function.update_of_ne hrd, hregs, Function.update_self]
  case otherRegisters =>
    intro r hr hrd
    rw [hregs', Function.update_of_ne hr, hregs, Function.update_of_ne hrd]
  case zeroRegister => rw [hregs', Function.update_self]

end Instruction

/-- `amoadd.w x1, x2, (x1)` in the RAM, on a word of the RAM. -/
def addInRam : RvCore .rv32 (RvSoc Devices) :=
  { rvCoreInit {
      ram := fun a => if a = 0x10 then 7 else (leBytes 4 0x0020A0AF).getD a 0, devices := {} } with
    pc := 0x80000000
    x := fun r => if r = 1 then 0x80000010 else if r = 2 then 5 else 0 }

theorem amo_semantics_add :
    ∃ s', rvCoreRun (socBusAccess false) addInRam = .ok s' ∧
      AmoEffect .amoaddW 1 2 0x80000010 addInRam s' := by
  have hcheck : executesAny (socBusAccess false) addInRam (fun cb d =>
        cb == .amoaddW && d.instruction == 0x0020A0AF &&
        (mmuVirtToPhys (socBusAccess false) d (checkMprvOverride d .read) (addInRam.x 1) .read
          (checkBit d.status trapXstatusMxrBit) (checkBit d.status trapXstatusSumBit)).toOption.any
            (fun r => r.1 == some 0x80000010) &&
        (accessRefusal (socBusAccess false) d .read (addInRam.x 1) 4).toOption.any (· == none) &&
        (ExecutionCb.amoLoad (socBusAccess false) .amoaddW d).toOption.any fun m =>
          (accessRefusal (socBusAccess false) m .write (addInRam.x 1) 4).toOption.any (· == none)) =
            true := by
    decide +kernel
  obtain ⟨cb, d, hexec, hd⟩ := exists_of_executesAny hcheck
  simp only [Bool.and_eq_true, beq_iff_eq] at hd
  obtain ⟨⟨⟨⟨rfl, hword⟩, htrans⟩, hload⟩, hstore⟩ := hd
  obtain ⟨⟨physAddr, d'⟩, htrans, hphys⟩ := Except.exists_of_any_toOption htrans
  obtain rfl := beq_iff_eq.mp hphys
  obtain ⟨r, hload, hr⟩ := Except.exists_of_any_toOption hload
  obtain rfl : r = none := beq_iff_eq.mp hr
  have henc : Encodes .rv32 .amoaddW (.r 1 1 2) d.instruction := by
    have hmem : (ExecutionCb.amoaddW, 2#3, 0#5) ∈ amoCodes .rv32 := by decide
    rw [hword]
    exact Encodes.amo hmem 0 0 1 1 2
  obtain ⟨m, hm, hstore⟩ := Except.exists_of_any_toOption hstore
  obtain ⟨r, hstore, hr⟩ := Except.exists_of_any_toOption hstore
  obtain rfl : r = none := beq_iff_eq.mp hr
  refine amo_semantics rfl hexec henc ⟨_, d', htrans, rfl⟩ (by decide) hload ?_
  intro m' hm'
  obtain rfl := Except.ok.inj (hm.symm.trans hm')
  exact hstore

end RiscvEm
