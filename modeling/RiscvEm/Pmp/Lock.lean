import RiscvEm.Pmp.Basic
import RiscvEm.HelperSpec

/-!
What a locked entry of the protection registers keeps under any sequence of writes.
-/

namespace RiscvEm

variable {w : Xlen}

inductive PmpWrite (w : Xlen)
  | cfg (currPriv : PrivilegeLevel) (regIndex : Fin (pmpNrCfgRegs w)) (csrVal : RvUintXlen w)
  | addr (currPriv : PrivilegeLevel) (regIndex : Fin 16) (csrVal : RvUintXlen w)

def Pmp.write (pmp : Pmp w) : PmpWrite w → Pmp w
  | .cfg currPriv regIndex csrVal => (pmpWriteCsrCfg pmp currPriv regIndex.val csrVal).2
  | .addr currPriv regIndex csrVal => (pmpWriteCsrAddr pmp currPriv regIndex csrVal).2

def Pmp.Locked (pmp : Pmp w) (i : Fin 16) : Prop := checkBit (pmp.cfg i) pmpCfgLBit = true

structure EntryKept (i : Fin 16) (pmp pmp' : Pmp w) : Prop where
  cfg : pmp'.cfg i = pmp.cfg i
  addr : pmp'.addr i = pmp.addr i
  /-- the lower bound of a TOR range is in the register below -/
  below : addrMode (pmp.cfg i) = .tor → ∀ j : Fin 16, j.val + 1 = i.val → pmp'.addr j = pmp.addr j

theorem EntryKept.refl (i : Fin 16) (pmp : Pmp w) : EntryKept i pmp pmp :=
  ⟨rfl, rfl, fun _ _ _ => rfl⟩

theorem EntryKept.trans {i : Fin 16} {a b c : Pmp w} (hab : EntryKept i a b)
    (hbc : EntryKept i b c) : EntryKept i a c := by
  refine ⟨hbc.cfg.trans hab.cfg, hbc.addr.trans hab.addr, fun htor j hj => ?_⟩
  have htor' : addrMode (b.cfg i) = .tor := by
    rw [hab.cfg]
    exact htor
  exact (hbc.below htor' j hj).trans (hab.below htor j hj)

theorem EntryKept.locked {i : Fin 16} {pmp pmp' : Pmp w} (h : EntryKept i pmp pmp')
    (hlock : pmp.Locked i) : pmp'.Locked i := by
  rw [Pmp.Locked, h.cfg]
  exact hlock

theorem Pmp.byte_cfg (pmp : Pmp w) (i : Fin 16) : pmp.byte i.val = pmp.cfg i := by
  rw [Pmp.byte, dif_pos i.isLt]

/-! ### One write -/

/-- A configuration byte is only written while its entry is not locked. -/
theorem pmpWriteCsrCfg_kept {pmp : Pmp w} {i : Fin 16} (hlock : pmp.Locked i)
    (currPriv : PrivilegeLevel) (regIndex : Nat) (csrVal : RvUintXlen w) :
    EntryKept i pmp (pmpWriteCsrCfg pmp currPriv regIndex csrVal).2 := by
  rw [Pmp.Locked] at hlock
  rw [pmpWriteCsrCfg]
  split
  · exact .refl i pmp
  · refine ⟨?_, rfl, fun _ _ _ => rfl⟩
    simp [hlock]

def LockedTor (cfg : Byte) : Prop := addrMode cfg = .tor ∧ checkBit cfg pmpCfgLBit = true

instance decidableLockedTor (cfg : Byte) : Decidable (LockedTor cfg) :=
  inferInstanceAs (Decidable (addrMode cfg = .tor ∧ checkBit cfg pmpCfgLBit = true))

/-- The register is written, unless its entry is locked or the byte after that of its entry
is one of a locked TOR entry. -/
theorem pmpWriteCsrAddr_machine (pmp : Pmp w) (i : Fin 16) (csrVal : RvUintXlen w) :
    pmpWriteCsrAddr pmp .machine i csrVal =
      (.ok, if LockedTor (pmp.byte (i.val + 1)) ∨ checkBit (pmp.cfg i) pmpCfgLBit then pmp
        else { pmp with addr := Function.update pmp.addr i csrVal }) := by
  have hbytes : 0 < w.bytes := by cases w <;> decide
  have hindex : i.val / w.bytes * w.bytes + i.val % w.bytes = i.val := Nat.div_add_mod' _ _
  have hnext : i.val / w.bytes * w.bytes + (i.val % w.bytes + 1) = i.val + 1 := by omega
  -- the guard is made on the index within one word, which is below eight
  have hsmall : i.val % w.bytes < pmpNrAddrRegs - 1 := by
    have hlt := Nat.mod_lt i.val hbytes
    have hword : w.bytes ≤ 8 := by cases w <;> decide
    have hregs : pmpNrAddrRegs = 16 := rfl
    omega
  simp only [pmpWriteCsrAddr, hnext, hindex, hsmall, true_and, ne_eq, not_true_eq_false, if_false,
    Pmp.byte_cfg]
  by_cases hbelow : addrMode (pmp.byte (i.val + 1)) = .tor ∧
      checkBit (pmp.byte (i.val + 1)) pmpCfgLBit = true
  · have htor : LockedTor (pmp.byte (i.val + 1)) := hbelow
    rw [if_pos hbelow, if_pos (Or.inl htor)]
  · by_cases hown : checkBit (pmp.cfg i) pmpCfgLBit = true
    · rw [if_neg hbelow, if_pos hown, if_pos (Or.inr hown)]
    · have hfree : ¬ (LockedTor (pmp.byte (i.val + 1)) ∨ checkBit (pmp.cfg i) pmpCfgLBit = true) :=
        not_or.mpr ⟨hbelow, hown⟩
      rw [if_neg hbelow, if_neg hown, if_neg hfree]

/-- A write that takes effect finds its own entry unlocked, and the next entry is not
a locked TOR entry. -/
theorem pmpWriteCsrAddr_cases (pmp : Pmp w) (currPriv : PrivilegeLevel) (regIndex : Fin 16)
    (csrVal : RvUintXlen w) :
    (pmpWriteCsrAddr pmp currPriv regIndex csrVal).2 = pmp ∨
      ((pmpWriteCsrAddr pmp currPriv regIndex csrVal).2 =
          { pmp with addr := Function.update pmp.addr regIndex csrVal } ∧
        ¬ pmp.Locked regIndex ∧
        ∀ i : Fin 16, regIndex.val + 1 = i.val → addrMode (pmp.cfg i) = .tor →
          ¬ pmp.Locked i) := by
  by_cases hmachine : currPriv = .machine
  · subst hmachine
    rw [pmpWriteCsrAddr_machine]
    split
    · exact .inl rfl
    · next hfree =>
        obtain ⟨hbelow, hown⟩ := not_or.mp hfree
        refine .inr ⟨rfl, hown, fun i hi htor hlock => hbelow ?_⟩
        rw [hi, Pmp.byte_cfg]
        exact ⟨htor, hlock⟩
  · left
    rw [pmpWriteCsrAddr, if_pos hmachine]

theorem pmpWriteCsrAddr_kept {pmp : Pmp w} {i : Fin 16} (hlock : pmp.Locked i)
    (currPriv : PrivilegeLevel) (regIndex : Fin 16) (csrVal : RvUintXlen w) :
    EntryKept i pmp (pmpWriteCsrAddr pmp currPriv regIndex csrVal).2 := by
  rcases pmpWriteCsrAddr_cases pmp currPriv regIndex csrVal with hsame | ⟨hwrite, hown, hbelow⟩
  · rw [hsame]
    exact .refl i pmp
  · rw [hwrite]
    refine ⟨rfl, ?_, fun htor j hj => ?_⟩
    · have hne : i ≠ regIndex := by
        rintro rfl
        exact hown hlock
      exact Function.update_of_ne hne _ _
    · have hne : j ≠ regIndex := by
        rintro rfl
        exact hbelow i hj htor hlock
      exact Function.update_of_ne hne _ _

theorem Pmp.write_kept {pmp : Pmp w} {i : Fin 16} (hlock : pmp.Locked i) (op : PmpWrite w) :
    EntryKept i pmp (pmp.write op) := by
  cases op with
  | cfg currPriv regIndex csrVal => exact pmpWriteCsrCfg_kept hlock currPriv regIndex.val csrVal
  | addr currPriv regIndex csrVal => exact pmpWriteCsrAddr_kept hlock currPriv regIndex csrVal

/-! ### Sequences of writes -/

theorem Pmp.writes_kept {pmp : Pmp w} {i : Fin 16} (hlock : pmp.Locked i)
    (ops : List (PmpWrite w)) : EntryKept i pmp (ops.foldl Pmp.write pmp) := by
  induction ops generalizing pmp with
  | nil => exact .refl i pmp
  | cons op rest ih =>
      have hstep := Pmp.write_kept hlock op
      exact hstep.trans (ih (hstep.locked hlock))

/-- A locked entry keeps its configuration and its address register forever, and the
lower bound of its range with them. -/
theorem pmp_lock_permanent {pmp : Pmp w} {i : Fin 16} (hlock : pmp.Locked i)
    (ops : List (PmpWrite w)) :
    (ops.foldl Pmp.write pmp).cfg i = pmp.cfg i ∧
      (ops.foldl Pmp.write pmp).addr i = pmp.addr i ∧
      (addrMode (pmp.cfg i) = .tor → 0 < i.val →
        (ops.foldl Pmp.write pmp).addr (i - 1) = pmp.addr (i - 1)) := by
  have hkept := Pmp.writes_kept hlock ops
  refine ⟨hkept.cfg, hkept.addr, fun htor hpos => hkept.below htor (i - 1) ?_⟩
  omega

/-- The TOR entry 8 of a 64-bit build, whose byte is the first of the second
configuration word. -/
def lockedTorPmp : Pmp .rv64 := { cfg := Function.update (fun _ => 0) 8 0x8F }

def lockedTorWrites : List (PmpWrite .rv64) :=
  [.cfg .machine ⟨1, by decide⟩ 0, .addr .machine 7 0x4321]

theorem pmp_lock_permanent_tor :
    (lockedTorWrites.foldl Pmp.write lockedTorPmp).cfg 8 = lockedTorPmp.cfg 8 ∧
      (lockedTorWrites.foldl Pmp.write lockedTorPmp).addr 8 = lockedTorPmp.addr 8 ∧
      (addrMode (lockedTorPmp.cfg 8) = .tor → 0 < (8 : Fin 16).val →
        (lockedTorWrites.foldl Pmp.write lockedTorPmp).addr (8 - 1) =
          lockedTorPmp.addr (8 - 1)) := by
  have hlock : lockedTorPmp.Locked 8 := by
    unfold Pmp.Locked
    decide
  exact pmp_lock_permanent hlock lockedTorWrites

end RiscvEm
