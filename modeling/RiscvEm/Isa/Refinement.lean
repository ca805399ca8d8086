import RiscvEm.Isa.Handlers

/-!
The emulator refines the instruction set: in every address space a call of `rv_core_run`
makes the step of the machine, with its program counter, its registers, its memory and its
reservation, and leaves the rest of the core and the devices alone.
-/

namespace RiscvEm

variable {w : Xlen} {useSimpleUart : Bool} {A : AddressSpace w useSimpleUart}

/-! ### The states that stand for each other -/

def RvCore.reservation {σ : Type} (s : RvCore w σ) : Option (RvUintXlen w) :=
  if s.lrValid then some s.lrAddress else none

/-- The core and the address space represent the machine. -/
structure Represents (A : AddressSpace w useSimpleUart) (m : IsaState w)
    (s : RvCore w (RvSoc Devices)) : Prop where
  pc : s.pc = m.pc
  x : s.x = m.x
  mem : A.Sees m.mem s
  reservation : s.reservation = m.reservation

structure Undisturbed (s s' : RvCore w (RvSoc Devices)) : Prop where
  currPrivMode : s'.currPrivMode = s.currPrivMode
  trap : s'.trap = s.trap
  pmp : s'.pmp = s.pmp
  satpReg : s'.mmu.satpReg = s.mmu.satpReg
  syncTrapPending : s'.syncTrapPending = s.syncTrapPending
  devices : s'.priv.devices = s.priv.devices

theorem Undisturbed.refl (s : RvCore w (RvSoc Devices)) : Undisturbed s s :=
  ⟨rfl, rfl, rfl, rfl, rfl, rfl⟩

theorem Undisturbed.trans {s s' s'' : RvCore w (RvSoc Devices)} (h : Undisturbed s s')
    (h' : Undisturbed s' s'') : Undisturbed s s'' :=
  ⟨h'.currPrivMode.trans h.currPrivMode, h'.trap.trans h.trap, h'.pmp.trans h.pmp,
    h'.satpReg.trans h.satpReg, h'.syncTrapPending.trans h.syncTrapPending,
    h'.devices.trans h.devices⟩

theorem Undisturbed.sameView {s s' : RvCore w (RvSoc Devices)} (h : Undisturbed s s') :
    SameView s s' := by
  refine .of_status h.currPrivMode ?_ h.pmp h.satpReg
  rw [RvCore.status, RvCore.status, h.trap]

/-- What a handler leaves is the machine after its step, once the call has written the
zero register and the program counter. -/
structure Performs (A : AddressSpace w useSimpleUart) (m' : IsaState w)
    (d e : RvCore w (RvSoc Devices)) : Prop where
  pc : (if e.nextPc ≠ 0 then e.nextPc else e.pc + 4) = m'.pc
  x : Function.update e.x 0 0 = m'.x
  mem : A.Sees m'.mem e
  reservation : e.reservation = m'.reservation
  undisturbed : Undisturbed d e

theorem IsaState.update_zero (m : IsaState w) : Function.update m.x 0 0 = m.x :=
  Function.update_eq_self_iff.mpr m.zero.symm

theorem accessLen_bounds (cb : ExecutionCb) : 0 < cb.accessLen ∧ cb.accessLen ≤ 8 := by
  cases cb <;> decide

theorem Represents.mem_of_same {m : IsaState w} {s s' : RvCore w (RvSoc Devices)}
    (h : Represents A m s) (hview : SameView s s') (hpriv : s'.priv.byteAt = s.priv.byteAt) :
    A.Sees m.mem s' := A.of_same h.mem hview hpriv

/-! ### One instruction -/

section Handlers

variable {m : IsaState w} {d e : RvCore w (RvSoc Devices)} {cb : ExecutionCb}

theorem performs_value (hrep : Represents A m d) (hnext : d.nextPc = 0) {rd : RegIndex}
    {v : RvUintXlen w} (hrd : d.rd = rd) (he : Writes d e v) :
    Performs A (m.setX rd v).next d e := by
  rw [he]
  refine ⟨?_, ?_, hrep.mem_of_same (.of_status rfl rfl rfl rfl) rfl, hrep.reservation,
    rfl, rfl, rfl, rfl, rfl, rfl⟩
  · show (if d.nextPc ≠ 0 then d.nextPc else d.pc + 4) = m.pc + 4
    rw [if_neg (not_not.mpr hnext), hrep.pc]
  · show Function.update (Function.update d.x d.rd v) 0 0 =
      Function.update (Function.update m.x rd v) 0 0
    rw [hrep.x, hrd]

theorem writes_setX (d : RvCore w (RvSoc Devices)) (v : RvUintXlen w) :
    Writes d (d.setX d.rd v) v := rfl

theorem offset_aligned (m : IsaState w) {offset : RvUintXlen w}
    (h : (m.pc + offset).toNat % 4 = 0) : addrMisaligned offset = false := by
  rw [addrMisaligned_eq, decide_eq_false_iff_not, not_not]
  exact (aligned_of_add h).mpr m.aligned

theorem instrJal_performs (hrep : Represents A m d) {rd : RegIndex} {offset : RvUintXlen w}
    (hrd : d.rd = rd) (hoffset : d.jumpOffset = offset) (h : (m.pc + offset).toNat % 4 = 0)
    (hpc : m.pc + offset ≠ 0) :
    ∃ e, instrJal d = .ok e ∧ Performs A ((m.setX rd (m.pc + 4)).goto (m.pc + offset) h) d e := by
  subst hrd hoffset
  refine ⟨_, instrJal_eq (offset_aligned m h), ?_⟩
  refine ⟨?_, ?_, hrep.mem_of_same (.of_status rfl rfl rfl rfl) rfl, hrep.reservation,
    rfl, rfl, rfl, rfl, rfl, rfl⟩
  · show (if d.pc + d.jumpOffset ≠ 0 then d.pc + d.jumpOffset else d.pc + 4) = m.pc + d.jumpOffset
    rw [hrep.pc, if_pos hpc]
  · show Function.update (Function.update d.x d.rd (d.pc + 4)) 0 0 =
      Function.update (Function.update m.x d.rd (m.pc + 4)) 0 0
    rw [hrep.x, hrep.pc]

theorem instrJalr_performs (hrep : Represents A m d) {rd rs1 : RegIndex} {offset : RvUintXlen w}
    (hrd : d.rd = rd) (hrs1 : d.rs1 = rs1) (hoffset : signedImmediate d = offset)
    (h : ((m.x rs1 + offset) &&& ~~~1#w.bits).toNat % 4 = 0)
    (hpc : (m.x rs1 + offset) &&& ~~~1#w.bits ≠ 0) :
    ∃ e, instrJalr d = .ok e ∧ Performs A ((m.setX rd (m.pc + 4)).goto _ h) d e := by
  subst hrd hrs1 hoffset
  have htarget : clearBit (d.x d.rs1 + signedImmediate d) 0 =
      (m.x d.rs1 + signedImmediate d) &&& ~~~1#w.bits := by
    rw [clearBit_zero, hrep.x]
  have haligned : addrMisaligned (clearBit (d.x d.rs1 + signedImmediate d) 0) = false := by
    rw [addrMisaligned_eq, htarget, decide_eq_false_iff_not, not_not]
    exact h
  refine ⟨_, instrJalr_eq haligned, ?_⟩
  refine ⟨?_, ?_, hrep.mem_of_same (.of_status rfl rfl rfl rfl) rfl, hrep.reservation,
    rfl, rfl, rfl, rfl, rfl, rfl⟩
  · show (if clearBit (d.x d.rs1 + signedImmediate d) 0 ≠ 0 then
      clearBit (d.x d.rs1 + signedImmediate d) 0 else d.pc + 4) = _
    rw [htarget, if_pos hpc]
    rfl
  · show Function.update (Function.update d.x d.rd (d.pc + 4)) 0 0 =
      Function.update (Function.update m.x d.rd (m.pc + 4)) 0 0
    rw [hrep.x, hrep.pc]

/-- A handler that changes nothing goes on with the next instruction. -/
theorem performs_next (hrep : Represents A m d) (hnext : d.nextPc = 0) : Performs A m.next d d := by
  refine ⟨?_, ?_, hrep.mem, hrep.reservation, .refl d⟩
  · rw [if_neg (not_not.mpr hnext), hrep.pc]
    rfl
  · rw [hrep.x]
    exact m.update_zero

theorem branch_performs (hrep : Represents A m d) {rs1 rs2 : RegIndex} {offset : RvUintXlen w}
    (hrs1 : d.rs1 = rs1) (hrs2 : d.rs2 = rs2) (hoffset : d.jumpOffset = offset)
    (htaken : cb.branchTaken (m.x rs1) (m.x rs2) = some true)
    (h : (m.pc + offset).toNat % 4 = 0) (hpc : m.pc + offset ≠ 0) :
    ∃ e, cb.handler (socBusAccess useSimpleUart) d = .ok e ∧
      Performs A (m.goto (m.pc + offset) h) d e := by
  subst hrs1 hrs2 hoffset
  rw [← hrep.x] at htaken
  have hcheck : ¬ addrMisaligned d.jumpOffset = true := by
    rw [offset_aligned m h]
    decide
  have hhandler := (handler_branch (socBusAccess useSimpleUart) htaken).2.2
  rw [if_pos rfl, if_neg hcheck] at hhandler
  refine ⟨_, hhandler, ?_⟩
  refine ⟨?_, ?_, hrep.mem_of_same (.of_status rfl rfl rfl rfl) rfl, hrep.reservation,
    rfl, rfl, rfl, rfl, rfl, rfl⟩
  · show (if d.pc + d.jumpOffset ≠ 0 then d.pc + d.jumpOffset else d.pc + 4) = m.pc + d.jumpOffset
    rw [hrep.pc, if_pos hpc]
  · show Function.update d.x 0 0 = m.x
    rw [hrep.x]
    exact m.update_zero

/-! Loads and stores -/

variable {rd rs1 rs2 : RegIndex}

/-- The variables of a translation are not seen by the program. -/
theorem Represents.of_mmu (hrep : Represents A m d) {mmu : Mmu w}
    (h : mmu.satpReg = d.mmu.satpReg) : Represents A m { d with mmu := mmu } :=
  ⟨hrep.pc, hrep.x, hrep.mem_of_same (.of_status rfl rfl rfl h) rfl, hrep.reservation⟩

theorem Performs.of_mmu {m' : IsaState w} {mmu : Mmu w} (h : mmu.satpReg = d.mmu.satpReg)
    (he : Performs A m' { d with mmu := mmu } e) : Performs A m' d e := by
  have hquiet := he.undisturbed
  exact ⟨he.pc, he.x, he.mem, he.reservation, hquiet.currPrivMode, hquiet.trap, hquiet.pmp,
    hquiet.satpReg.trans h, hquiet.syncTrapPending, hquiet.devices⟩

theorem load_performs (hrep : Represents A m d) (hnext : d.nextPc = 0)
    {ext : BitVec (8 * cb.accessLen) → RvUintXlen w} {a : RvUintXlen w} (hrd : d.rd = rd)
    (ha : effectiveAddress d = a) (h : m.Present a.toNat cb.accessLen)
    (hread : A.grants .read a.toNat cb.accessLen) :
    ∃ e, load (socBusAccess useSimpleUart) cb.accessLen ext d = .ok e ∧
      Performs A (m.setX rd (ext (m.word cb.accessLen a.toNat))).next d e := by
  subst ha
  obtain ⟨mmu, hsatp, hload⟩ := A.load hrep.mem ext (accessLen_bounds cb) h hread
  refine ⟨_, hload, .of_mmu hsatp ?_⟩
  exact performs_value (hrep.of_mmu hsatp) hnext hrd (writes_setX _ _)

theorem store_performs (hrep : Represents A m d) (hnext : d.nextPc = 0) {a : RvUintXlen w}
    (hrs2 : d.rs2 = rs2) (ha : effectiveAddress d = a) (h : m.Present a.toNat cb.accessLen)
    (hwrite : A.grants .write a.toNat cb.accessLen) :
    ∃ e, store (socBusAccess useSimpleUart) cb.accessLen d = .ok e ∧
      Performs A (m.store a.toNat cb.accessLen (m.x rs2).toNat).next d e := by
  subst ha hrs2
  obtain ⟨soc, hdevices, hstore, hsees⟩ := A.store hrep.mem (accessLen_bounds cb) h hwrite
  refine ⟨_, hstore, ?_⟩
  rw [← hrep.x]
  refine ⟨?_, ?_, hsees, hrep.reservation, rfl, rfl, rfl, rfl, rfl, hdevices⟩
  · show (if d.nextPc ≠ 0 then d.nextPc else d.pc + 4) = m.pc + 4
    rw [if_neg (not_not.mpr hnext), hrep.pc]
  · show Function.update d.x 0 0 = m.x
    rw [hrep.x]
    exact m.update_zero

/-! Atomic instructions -/

theorem loadReserved_performs (hrep : Represents A m d) (hnext : d.nextPc = 0)
    {ext : BitVec (8 * cb.accessLen) → RvUintXlen w} (hrd : d.rd = rd) (hrs1 : d.rs1 = rs1)
    (ha : effectiveAddress d = m.x rs1) (h : m.Present (m.x rs1).toNat cb.accessLen)
    (hread : A.grants .read (m.x rs1).toNat cb.accessLen) :
    ∃ e, loadReserved (load (socBusAccess useSimpleUart) cb.accessLen ext) d = .ok e ∧
      Performs A ((m.setX rd (ext (m.word cb.accessLen (m.x rs1).toNat))).reserve
        (some (m.x rs1))).next d e := by
  subst hrd hrs1
  have haddr : effectiveAddress d.reserve = m.x d.rs1 := ha
  have hmem : A.Sees m.mem d.reserve :=
    hrep.mem_of_same (.of_status rfl rfl rfl rfl) rfl
  obtain ⟨mmu, hsatp, hload⟩ := A.load hmem ext (accessLen_bounds cb)
    (by rw [haddr]; exact h) (by rw [haddr]; exact hread)
  rw [haddr] at hload
  rw [loadReserved_eq]
  refine ⟨_, hload, ?_⟩
  refine ⟨?_, ?_, A.of_same hmem (.of_status rfl rfl rfl hsatp) rfl, ?_,
    rfl, rfl, rfl, hsatp, rfl, rfl⟩
  · show (if d.nextPc ≠ 0 then d.nextPc else d.pc + 4) = m.pc + 4
    rw [if_neg (not_not.mpr hnext), hrep.pc]
  · show Function.update (Function.update d.x d.rd _) 0 0 =
      Function.update (Function.update m.x d.rd _) 0 0
    rw [hrep.x]
  · show some (d.x d.rs1) = some (m.x d.rs1)
    rw [hrep.x]

theorem reserved_iff (hrep : Represents A m d) :
    d.reserved ↔ m.reservation = some (m.x d.rs1) := by
  rw [← hrep.reservation, ← hrep.x, RvCore.reservation, RvCore.reserved]
  cases d.lrValid <;> simp

theorem storeConditional_performs (hrep : Represents A m d) (hnext : d.nextPc = 0)
    (hrd : d.rd = rd) (hrs1 : d.rs1 = rs1) (hrs2 : d.rs2 = rs2)
    (ha : effectiveAddress d = m.x rs1) (hreserved : m.reservation = some (m.x rs1))
    (h : m.Present (m.x rs1).toNat cb.accessLen)
    (hwrite : A.grants .write (m.x rs1).toNat cb.accessLen) :
    ∃ e, storeConditional (store (socBusAccess useSimpleUart) cb.accessLen) d = .ok e ∧
      Performs A (((m.store (m.x rs1).toNat cb.accessLen (m.x rs2).toNat).setX rd 0).reserve
        none).next d e := by
  subst hrd hrs1 hrs2
  obtain ⟨soc, hdevices, hstore, hsees⟩ := A.store hrep.mem (accessLen_bounds cb)
    (by rw [ha]; exact h) (by rw [ha]; exact hwrite)
  rw [ha] at hsees
  have hheld : d.lrValid = true ∧ d.lrAddress = d.x d.rs1 := (reserved_iff hrep).mpr hreserved
  rw [storeConditional, if_pos hheld, hstore]
  refine ⟨_, rfl, ?_⟩
  rw [← hrep.x] at hsees ⊢
  refine ⟨?_, ?_, A.of_same hsees (.of_status rfl rfl rfl rfl) rfl, rfl,
    rfl, rfl, rfl, rfl, rfl, hdevices⟩
  · show (if d.nextPc ≠ 0 then d.nextPc else d.pc + 4) = m.pc + 4
    rw [if_neg (not_not.mpr hnext), hrep.pc]
  · show Function.update (Function.update d.x d.rd 0) 0 0 =
      Function.update (Function.update m.x d.rd 0) 0 0
    rw [hrep.x]

theorem noStore_performs (hrep : Represents A m d) (hnext : d.nextPc = 0) {store : Handler w _}
    (hrd : d.rd = rd) (hrs1 : d.rs1 = rs1) (hreserved : m.reservation ≠ some (m.x rs1)) :
    ∃ e, storeConditional store d = .ok e ∧
      Performs A ((m.setX rd 1).reserve none).next d e := by
  subst hrd hrs1
  rw [storeConditional_of_not_reserved (mt (reserved_iff hrep).mp hreserved)]
  refine ⟨_, rfl, ?_⟩
  refine ⟨?_, ?_, hrep.mem_of_same (.of_status rfl rfl rfl rfl) rfl, rfl,
    rfl, rfl, rfl, rfl, rfl, rfl⟩
  · show (if d.nextPc ≠ 0 then d.nextPc else d.pc + 4) = m.pc + 4
    rw [if_neg (not_not.mpr hnext), hrep.pc]
  · show Function.update (Function.update d.x d.rd 1) 0 0 =
      Function.update (Function.update m.x d.rd 1) 0 0
    rw [hrep.x]

theorem amo_performs (hrep : Represents A m d) (hnext : d.nextPc = 0) (hcb : cb.kind = .amo)
    (hw : cb.accessLen = 8 → w = .rv64) (hrd : d.rd = rd) (hrs1 : d.rs1 = rs1)
    (hrs2 : d.rs2 = rs2) (ha : effectiveAddress d = m.x rs1)
    (h : m.Present (m.x rs1).toNat cb.accessLen)
    (hread : A.grants .read (m.x rs1).toNat cb.accessLen)
    (hwrite : A.grants .write (m.x rs1).toNat cb.accessLen) :
    ∃ e, cb.handler (socBusAccess useSimpleUart) d = .ok e ∧
      Performs A ((m.store (m.x rs1).toNat cb.accessLen (cb.amoOp
        (m.word cb.accessLen (m.x rs1).toNat) ((m.x rs2).setWidth _)).toNat).setX rd
          ((m.word cb.accessLen (m.x rs1).toNat).signExtend w.bits)).next d e := by
  subst hrd hrs1 hrs2
  have hlen := accessLen_bounds cb
  obtain ⟨-, op, hhandler, hop⟩ := handler_amoShape (socBusAccess useSimpleUart) hcb hw
  obtain ⟨mmu, hsatp, hload⟩ := A.load hrep.mem (fun v => v.signExtend w.bits) hlen
    (by rw [ha]; exact h) (by rw [ha]; exact hread)
  rw [ha] at hload
  -- the register that was loaded is combined with the old source register
  have hvalue (v : BitVec (8 * cb.accessLen)) :
      op (({ d with mmu := mmu }.setX d.rd (v.signExtend w.bits)).x d.rd) (d.x d.rs2) =
        (cb.amoOp v ((m.x d.rs2).setWidth _)).toNat := by
    rw [RvCore.setX_x, Function.update_self, hop,
      setWidth_signExtend_word (amo_accessLen_le hcb hw), hrep.x]
  have hloaded : A.Sees m.mem ({ d with mmu := mmu }.setX d.rd
      ((m.word cb.accessLen (m.x d.rs1).toNat).signExtend w.bits)) :=
    hrep.mem_of_same (.of_status rfl rfl rfl hsatp) rfl
  obtain ⟨soc, hdevices, hstore, hsees⟩ := A.write hloaded hlen h hwrite
    (cb.amoOp (m.word cb.accessLen (m.x d.rs1).toNat) ((m.x d.rs2).setWidth _)).toNat
  rw [← hvalue, ← hrep.x] at hstore
  rw [← hrep.x] at hload
  rw [hhandler]
  refine ⟨_, amo_eq_ok.mpr ⟨_, hload, .ok, _, hstore⟩, ?_⟩
  refine ⟨?_, ?_, A.of_same hsees ?_ rfl, hrep.reservation,
    rfl, rfl, rfl, hsatp, rfl, hdevices⟩
  · show (if d.nextPc ≠ 0 then d.nextPc else d.pc + 4) = m.pc + 4
    rw [if_neg (not_not.mpr hnext), hrep.pc]
  · show Function.update (Function.update d.x d.rd _) 0 0 =
      Function.update (Function.update m.x d.rd _) 0 0
    rw [hrep.x]
  · exact .of_status rfl rfl rfl rfl

/-! All instructions -/

theorem effectiveAddress_eq (hrep : Represents A m d) {offset : RvUintXlen w} (hrs1 : d.rs1 = rs1)
    (hoffset : signedImmediate d = offset) : effectiveAddress d = m.x rs1 + offset := by
  rw [effectiveAddress, hrep.x, hrs1, hoffset]

theorem effectiveAddress_register (hrep : Represents A m d) (hrs1 : d.rs1 = rs1)
    (himm : d.immediate = 0) : effectiveAddress d = m.x rs1 := by
  have hzero : signedImmediate d = 0 := by
    rw [signedImmediate, himm]
    cases w <;> rfl
  rw [effectiveAddress_eq hrep hrs1 hzero, BitVec.ofNat_eq_ofNat, BitVec.add_zero]

theorem handler_performs {m' : IsaState w} {o : Operands} {word : BitVec 32}
    (henc : Encodes w cb o word) (hrep : Represents A m d) (hnext : d.nextPc = 0)
    (ho : o.DecodedTo d) (hexec : IsaExec A.grants m cb o m')
    (hpc : m'.pc ≠ 0) :
    ∃ e, cb.handler (socBusAccess useSimpleUart) d = .ok e ∧ Performs A m' d e := by
  have hx : d.x 0 = 0 := by
    rw [hrep.x]
    exact m.zero
  cases hexec with
  | value h =>
      rw [← hrep.pc, ← hrep.x] at h
      obtain ⟨hrd, e, hhandler, he⟩ :=
        handler_integer (socBusAccess useSimpleUart) henc hx ho h
      exact ⟨e, hhandler, performs_value hrep hnext hrd he⟩
  | word h =>
      rw [← hrep.x] at h
      obtain ⟨hrd, hhandler⟩ := handler_word (socBusAccess useSimpleUart) henc hx ho h
      exact ⟨_, hhandler, performs_value hrep hnext hrd (writes_setX d _)⟩
  | high h =>
      rw [← hrep.x] at h
      obtain ⟨hrd, hhandler⟩ := handler_high (socBusAccess useSimpleUart) ho h
      exact ⟨_, hhandler, performs_value hrep hnext hrd (writes_setX d _)⟩
  | jal h =>
      obtain ⟨hrd, hoffset⟩ := ho
      exact instrJal_performs hrep hrd hoffset h hpc
  | jalr h =>
      obtain ⟨hrd, hrs1, hoffset⟩ := ho
      exact instrJalr_performs hrep hrd hrs1 hoffset h hpc
  | branch htaken h =>
      obtain ⟨hrs1, hrs2, hoffset⟩ := ho
      exact branch_performs hrep hrs1 hrs2 hoffset htaken h hpc
  | noBranch htaken =>
      obtain ⟨rfl, rfl, -⟩ := ho
      rw [← hrep.x] at htaken
      exact ⟨d, (handler_branch (socBusAccess useSimpleUart) htaken).2.2,
        performs_next hrep hnext⟩
  | load hcb h hread =>
      obtain ⟨hrd, hrs1, hoffset⟩ := ho
      rw [handler_loadExt (socBusAccess useSimpleUart) hcb henc.rv64_of_double]
      exact load_performs hrep hnext hrd (effectiveAddress_eq hrep hrs1 hoffset) h hread
  | store hcb h hwrite =>
      obtain ⟨hrs1, hrs2, hoffset⟩ := ho
      rw [handler_store (socBusAccess useSimpleUart) hcb]
      exact store_performs hrep hnext hrs2 (effectiveAddress_eq hrep hrs1 hoffset) h hwrite
  | loadReserved hcb h hread =>
      obtain ⟨hrd, hrs1, -, himm⟩ := ho
      rw [handler_loadReservedExt (socBusAccess useSimpleUart) hcb henc.rv64_of_double]
      exact loadReserved_performs hrep hnext hrd hrs1
        (effectiveAddress_register hrep hrs1 himm) h hread
  | storeConditional hcb hreserved h hwrite =>
      obtain ⟨hrd, hrs1, hrs2, himm⟩ := ho
      rw [handler_storeConditional (socBusAccess useSimpleUart) hcb]
      exact storeConditional_performs hrep hnext hrd hrs1 hrs2
        (effectiveAddress_register hrep hrs1 himm) hreserved h hwrite
  | noStore hcb hreserved =>
      obtain ⟨hrd, hrs1, -⟩ := ho
      rw [handler_storeConditional (socBusAccess useSimpleUart) hcb]
      exact noStore_performs hrep hnext hrd hrs1 hreserved
  | amo hcb h hread hwrite =>
      obtain ⟨hrd, hrs1, hrs2, himm⟩ := ho
      exact amo_performs hrep hnext hcb henc.rv64_of_double hrd hrs1 hrs2
        (effectiveAddress_register hrep hrs1 himm) h hread hwrite
  | fence => exact ⟨d, rfl, performs_next hrep hnext⟩

end Handlers

/-! ### One call -/

section Calls

variable {m m' : IsaState w} {s d : RvCore w (RvSoc Devices)} {cb : ExecutionCb} {o : Operands}

theorem Represents.of_decode (hrep : Represents A m s) (h : DecodeFrame s d) :
    Represents A m d := by
  rw [h]
  exact ⟨hrep.pc, hrep.x, hrep.mem_of_same (.of_status rfl rfl rfl rfl) rfl,
    hrep.reservation⟩

/-- The word that was fetched is not part of the machine. -/
theorem Represents.storeInstruction (hrep : Represents A m s) (bytes : List Byte) :
    Represents A m (storeInstruction s bytes) := by
  have hview : SameView s (RiscvEm.storeInstruction s bytes) := by
    cases w <;> exact .of_status rfl rfl rfl rfl
  have hpriv : (RiscvEm.storeInstruction s bytes).priv.byteAt = s.priv.byteAt := by
    cases w <;> rfl
  have hmem := hrep.mem_of_same hview hpriv
  cases w <;> exact ⟨hrep.pc, hrep.x, hmem, hrep.reservation⟩

/-- The operands of the machine are all decoded, as SFENCE.VMA is not among its
instructions. -/
theorem IsaExec.operands_ne {grants : AccessRights} (h : IsaExec grants m cb o m') :
    ∀ rs1 rs2, o ≠ .rs1rs2 rs1 rs2 := by
  rintro rs1 rs2 rfl
  cases h with
  | value h => cases h
  | word h => cases hcb : wordInstructions.lookup cb <;> simp [isaWord, hcb] at h
  | high h => cases cb <;> cases h

/-- The word at the program counter is fetched and decoded, and nothing else happens
before its handler. -/
theorem exists_executes (hrep : Represents A m s) (hfetch : m.Present m.pc.toNat w.bytes)
    (hgrant : A.grants .instr m.pc.toNat w.bytes)
    (henc : Encodes w cb o (m.word 4 m.pc.toNat)) (hne : ∀ rs1 rs2, o ≠ .rs1rs2 rs1 rs2) :
    ∃ d, Executes (socBusAccess useSimpleUart) s cb d ∧ Represents A m d ∧ Undisturbed s d ∧
      d.nextPc = 0 ∧ o.DecodedTo d := by
  have hwidth : 0 < w.bytes ∧ w.bytes ≤ 8 := by cases w <;> decide
  have hfour : 4 ≤ w.bytes := by cases w <;> decide
  have hpc : s.atFetch.pc = m.pc := hrep.pc
  have hmem : A.Sees m.mem s.atFetch := hrep.mem_of_same (.of_status rfl rfl rfl rfl) rfl
  have hfetch' : m.Present s.atFetch.pc.toNat w.bytes := by
    rw [hpc]
    exact hfetch
  have hgrant' : A.grants .instr s.atFetch.pc.toNat w.bytes := by
    rw [hpc]
    exact hgrant
  obtain ⟨mmu, hsatp, haccess⟩ := A.read hmem (by decide) hwidth hfetch' hgrant'
    (instructionBytes s.atFetch)
  have hfetched := rvCoreFetch_eq_ok.mpr ⟨_, _, haccess, rfl⟩
  obtain ⟨bytes, hbytes⟩ : ∃ bytes, memBytes m.mem s.atFetch.pc.toNat w.bytes ++
    (instructionBytes s.atFetch).drop w.bytes = bytes := ⟨_, rfl⟩
  rw [hbytes] at hfetched
  have hword : (storeInstruction { s.atFetch with mmu := mmu } bytes).instruction =
      m.word 4 m.pc.toNat := by
    have hstored : (storeInstruction { s.atFetch with mmu := mmu } bytes).instruction =
        leLoad 4 bytes := by
      cases w <;> rfl
    rw [hstored, ← hbytes, hpc]
    exact leLoad_memBytes m hfour _ _
  obtain ⟨d, hdecode, hcb, hoperands⟩ := rvCoreDecode_operands henc hne hword
  have hframe := rvCoreDecode_frame hdecode
  refine ⟨d, ⟨_, hfetched, hdecode, hcb⟩, ?_, ?_, ?_, hoperands⟩
  · refine Represents.of_decode ?_ hframe
    have hrep' : Represents A m { s.atFetch with mmu := mmu } :=
      ⟨hrep.pc, hrep.x, A.of_same hmem (.of_status rfl rfl rfl hsatp) rfl, hrep.reservation⟩
    exact hrep'.storeInstruction bytes
  · rw [hframe]
    cases w <;> exact ⟨rfl, rfl, rfl, hsatp, rfl, rfl⟩
  · rw [hframe]
    cases w <;> rfl

theorem Performs.represents {e : RvCore w (RvSoc Devices)} (h : Performs A m' d e) :
    Represents A m' (advance (e.setX 0 0)) ∧ Undisturbed d (advance (e.setX 0 0)) :=
  ⟨⟨h.pc, h.x, A.of_same h.mem (.of_status rfl rfl rfl rfl) rfl, h.reservation⟩,
    h.undisturbed.currPrivMode, h.undisturbed.trap, h.undisturbed.pmp, h.undisturbed.satpReg,
    h.undisturbed.syncTrapPending, h.undisturbed.devices⟩

/-- A call makes the step of the machine. A jump to address zero is not made, which the
emulator does not tell from no jump. -/
theorem rvCoreRun_isaStep (hrep : Represents A m s) (hfetch : m.Present m.pc.toNat w.bytes)
    (hgrant : A.grants .instr m.pc.toNat w.bytes) (hstep : IsaStep A.grants m m')
    (hpc : m'.pc ≠ 0) :
    ∃ s', rvCoreRun (socBusAccess useSimpleUart) s = .ok s' ∧ Represents A m' s' ∧
      Undisturbed s s' := by
  obtain ⟨-, -, cb, o, henc, hexec⟩ := hstep
  obtain ⟨d, hd, hrepd, hquiet, hnext, hoperands⟩ := exists_executes hrep hfetch hgrant henc
    hexec.operands_ne
  obtain ⟨e, hhandler, hperforms⟩ := handler_performs henc hrepd hnext hoperands hexec hpc
  obtain ⟨hrep', hquiet'⟩ := hperforms.represents
  exact ⟨_, hd.run hhandler, hrep', hquiet.trans hquiet'⟩

end Calls

end RiscvEm
