import Mathlib.Order.Fin.Basic
import RiscvEm.Lib.FirstMatch
import RiscvEm.Lib.Region
import RiscvEm.Pmp.Napot

/-!
The decision of `pmp_mem_check` below machine mode, read two ways: by the ranges that
the registers stand for, as exact integers, and by the two end bytes of the access
that the source tests against sums of words. The readings differ for ranges at the
top of the address space, for very large NAPOT ranges and for ranges between the two
ends of the access.
-/

namespace RiscvEm

variable {w : Xlen}

/-! ### The exact reading -/

def napotRegion (p : RvUintXlen w) : Region :=
  if p = BitVec.allOnes w.bits then ⟨0, 2 ^ w.bits⟩
  else
    let block := 2 ^ (trailingOnes p + 1)
    ⟨4 * (p.toNat / block * block), 4 * block⟩

def pmpRegion (pmp : Pmp w) (i : Fin 16) : PmpAddrMatching → Region
  | .off => ⟨0, 0⟩
  | .tor =>
      let bottom := if i = 0 then 0 else 4 * (pmp.addr (i - 1)).toNat
      ⟨bottom, 4 * (pmp.addr i).toNat - bottom⟩
  | .na4 => ⟨4 * (pmp.addr i).toNat, 4⟩
  | .napot => napotRegion (pmp.addr i)

section Readings

variable (pmp : Pmp w) (addr : RvUintXlen w) (len : Nat) (accessType : BusAccessType)

def Permits (i : Fin 16) : Prop := (pmp.cfg i).getLsbD accessType.toNat = true

def RangeMatches (i : Fin 16) : Prop :=
  addrMode (pmp.cfg i) ≠ .off ∧ (pmpRegion pmp i (addrMode (pmp.cfg i))).Meets addr.toNat len

def RangeGrants (i : Fin 16) : Prop :=
  (pmpRegion pmp i (addrMode (pmp.cfg i))).Contains addr.toNat len ∧ Permits pmp accessType i

/-! ### The reading of the source -/

def WordWithin (byteAddr : RvUintXlen w) (i : Fin 16) : Prop :=
  let (start, size) := pmpAddrStartSize pmp i (addrMode (pmp.cfg i))
  addrWithin byteAddr start size = true

/-- `addr_end`. -/
def lastByte : RvUintXlen w := addr + (BitVec.ofNat w.bits len - 1)

def EndsMatch (i : Fin 16) : Prop :=
  addrMode (pmp.cfg i) ≠ .off ∧ (WordWithin pmp addr i ∨ WordWithin pmp (lastByte addr len) i)

/-- Both end bytes are within the entry, and the entry grants the access. -/
def EndsGrant (i : Fin 16) : Prop :=
  (WordWithin pmp addr i ∧ WordWithin pmp (lastByte addr len) i) ∧ Permits pmp accessType i

end Readings

theorem checkBit_low_three (cfg : Byte) (accessType : BusAccessType) :
    checkBit (cfg &&& 0x7) accessType.toNat = cfg.getLsbD accessType.toNat := by
  rw [checkBit_eq_getLsbD, BitVec.getLsbD_and]
  cases accessType <;> simp [BusAccessType.toNat]

/-- One entry below machine mode: it decides if an end byte is within it, and then
grants the access if both are and the permission is given. -/
theorem pmpEntryCheck_eq (pmp : Pmp w) {p : PrivilegeLevel} (hp : p ≠ .machine)
    (addr : RvUintXlen w) (len : Nat) (accessType : BusAccessType) (i : Fin 16) :
    (pmpEntryCheck pmp p addr len accessType i = none ↔ ¬ EndsMatch pmp addr len i) ∧
      (pmpEntryCheck pmp p addr len accessType i = some .ok ↔
        EndsMatch pmp addr len i ∧ EndsGrant pmp addr len accessType i) := by
  simp only [pmpEntryCheck, checkBit_low_three, hp, false_and, if_false, EndsMatch, EndsGrant,
    WordWithin, lastByte, Permits]
  by_cases hoff : addrMode (pmp.cfg i) = .off
  · simp [hoff]
  · rw [if_neg hoff]
    cases addrWithin addr (pmpAddrStartSize pmp i (addrMode (pmp.cfg i))).1
        (pmpAddrStartSize pmp i (addrMode (pmp.cfg i))).2 <;>
      cases addrWithin (addr + (BitVec.ofNat w.bits len - 1))
          (pmpAddrStartSize pmp i (addrMode (pmp.cfg i))).1
          (pmpAddrStartSize pmp i (addrMode (pmp.cfg i))).2 <;>
        cases (pmp.cfg i).getLsbD accessType.toNat <;> simp [hoff]

/-- Below machine mode the first entry with an end byte of the access decides. -/
theorem pmpMemCheck_eq_ok_iff (pmp : Pmp w) {p : PrivilegeLevel} (hp : p ≠ .machine)
    (addr : RvUintXlen w) (len : Nat) (accessType : BusAccessType) :
    pmpMemCheck pmp p addr len accessType = .ok ↔
      FirstMatch.Decides (EndsMatch pmp addr len) (EndsGrant pmp addr len accessType) := by
  have hsearch := FirstMatch.findSome?_eq_some_iff_first (List.pairwise_lt_finRange 16)
    List.mem_finRange (f := pmpEntryCheck pmp p addr len accessType) (b := .ok)
  have hcheck : pmpMemCheck pmp p addr len accessType = .ok ↔
      (List.finRange 16).findSome? (pmpEntryCheck pmp p addr len accessType) = some .ok := by
    rw [pmpMemCheck]
    cases (List.finRange 16).findSome? (pmpEntryCheck pmp p addr len accessType) with
    | none => simp [hp]
    | some ret => simp
  rw [hcheck, hsearch]
  refine exists_congr fun k => ?_
  rw [(pmpEntryCheck_eq pmp hp addr len accessType k).2, FirstMatch.First]
  constructor
  · rintro ⟨⟨hmatch, hgrant⟩, hbefore⟩
    exact ⟨⟨hmatch, fun j hj => (pmpEntryCheck_eq pmp hp addr len accessType j).1.mp
      (hbefore j hj)⟩, hgrant⟩
  · rintro ⟨⟨hmatch, hbefore⟩, hgrant⟩
    exact ⟨⟨hmatch, hgrant⟩, fun j hj =>
      (pmpEntryCheck_eq pmp hp addr len accessType j).1.mpr (hbefore j hj)⟩

/-! ### The ranges as the words hold them -/

theorem toNat_lastByte {addr : RvUintXlen w} {len : Nat} (hlen : 0 < len) (hlen' : len ≤ 8)
    (hend : addr.toNat + len ≤ 2 ^ w.bits) :
    (lastByte addr len).toNat = addr.toNat + len - 1 := by
  have hlarge : 2 ^ 32 ≤ 2 ^ w.bits := w.two_pow_le
  have hlenNat : (BitVec.ofNat w.bits len).toNat = len := w.toNat_ofNat (by omega)
  have hone : (1 : RvUintXlen w).toNat = 1 := w.toNat_ofNat (by decide)
  have hsub : (BitVec.ofNat w.bits len - 1).toNat = len - 1 := by
    rw [BitVec.toNat_sub_of_le (BitVec.le_def.mpr (by rw [hlenNat, hone]; exact hlen)), hlenNat,
      hone]
  rw [lastByte, BitVec.toNat_add, hsub, Nat.mod_eq_of_lt (by omega)]
  omega

theorem addrWithin_iff {b start size : RvUintXlen w} {bottom top : Nat}
    (hstart : start.toNat = bottom) (hend : (start + size).toNat = top) :
    addrWithin b start size = true ↔ bottom ≤ b.toNat ∧ b.toNat < top := by
  rw [addrWithin, Bool.and_eq_true, decide_eq_true_eq, decide_eq_true_eq, BitVec.le_def,
    BitVec.lt_def, hstart, hend]

def pmpBottom (pmp : Pmp w) (i : Fin 16) : PmpAddrMatching → Nat
  | .off => 0
  | .tor => if i = 0 then 0 else 4 * (pmp.addr (i - 1)).toNat
  | .na4 => 4 * (pmp.addr i).toNat
  | .napot => (napotRegion (pmp.addr i)).start

def pmpTop (pmp : Pmp w) (i : Fin 16) : PmpAddrMatching → Nat
  | .off => 0
  | .tor => 4 * (pmp.addr i).toNat
  | .na4 => 4 * (pmp.addr i).toNat + 4
  | .napot => (napotRegion (pmp.addr i)).start + (napotRegion (pmp.addr i)).size

theorem pmpRegion_eq (pmp : Pmp w) (i : Fin 16) (mode : PmpAddrMatching) :
    pmpRegion pmp i mode =
      ⟨pmpBottom pmp i mode, pmpTop pmp i mode - pmpBottom pmp i mode⟩ := by
  cases mode with
  | off | tor => rfl
  | na4 => simp only [pmpRegion, pmpBottom, pmpTop, Nat.add_sub_cancel_left]
  | napot => simp only [pmpRegion, pmpBottom, pmpTop, Nat.add_sub_cancel_left]

def entryBottom (pmp : Pmp w) (i : Fin 16) : Nat := pmpBottom pmp i (addrMode (pmp.cfg i))

def entryTop (pmp : Pmp w) (i : Fin 16) : Nat := pmpTop pmp i (addrMode (pmp.cfg i))

/-- The shift of an `int` does not give the size of the NAPOT range. -/
def NapotSizeLost (p : RvUintXlen w) : Prop :=
  (match w with | .rv32 => 32 | .rv64 => 31) ≤ trailingOnes p + 3

def PlainEntry (pmp : Pmp w) (i : Fin 16) : Prop :=
  addrMode (pmp.cfg i) = .napot →
    pmp.addr i ≠ BitVec.allOnes w.bits ∧ ¬ NapotSizeLost (pmp.addr i)

/-- The first address that `pmp_mem_check` sees in an entry. -/
def seenBottom (pmp : Pmp w) (i : Fin 16) : Nat :=
  if addrMode (pmp.cfg i) = .napot then
    if pmp.addr i = BitVec.allOnes w.bits then 0 else shiftedStart (pmp.addr i)
  else entryBottom pmp i % 2 ^ w.bits

def seenTop (pmp : Pmp w) (i : Fin 16) : Nat :=
  if addrMode (pmp.cfg i) = .napot then
    if pmp.addr i = BitVec.allOnes w.bits then 2 ^ w.bits - 1
    else (shiftedStart (pmp.addr i) + shiftedSize w (trailingOnes (pmp.addr i) + 3)) % 2 ^ w.bits
  else entryTop pmp i % 2 ^ w.bits

section Ends

variable {pmp : Pmp w} {i : Fin 16}

theorem inUse_of_napot (hmode : addrMode (pmp.cfg i) = .napot) : addrMode (pmp.cfg i) ≠ .off := by
  rw [hmode]
  decide

/-- The source tests a byte against the bounds that it sees. -/
theorem wordWithin_iff (hoff : addrMode (pmp.cfg i) ≠ .off) (b : RvUintXlen w) :
    WordWithin pmp b i ↔ seenBottom pmp i ≤ b.toNat ∧ b.toNat < seenTop pmp i := by
  have hshift (p : RvUintXlen w) : (p <<< 2).toNat = 4 * p.toNat % 2 ^ w.bits := by
    rw [BitVec.toNat_shiftLeft, Nat.shiftLeft_eq, Nat.mul_comm]
  rw [WordWithin, seenBottom, seenTop, entryBottom, entryTop]
  cases hmode : addrMode (pmp.cfg i) with
  | off => exact absurd hmode hoff
  | tor =>
      simp only [pmpAddrStartSize, pmpBottom, pmpTop, reduceCtorEq, if_false]
      refine addrWithin_iff ?_ ?_
      · split
        · rw [Nat.zero_mod]
          rfl
        · exact hshift _
      · rw [BitVec.add_comm, BitVec.sub_add_cancel]
        exact hshift _
  | na4 =>
      have hfour : (4 : RvUintXlen w).toNat = 4 := w.toNat_ofNat (by decide)
      simp only [pmpAddrStartSize, pmpBottom, pmpTop, reduceCtorEq, if_false]
      refine addrWithin_iff (hshift _) ?_
      rw [BitVec.toNat_add, hshift, hfour, Nat.mod_add_mod]
  | napot =>
      simp only [pmpAddrStartSize, if_true]
      by_cases hall : pmp.addr i = BitVec.allOnes w.bits
      · simp only [hall, if_true]
        refine addrWithin_iff rfl ?_
        rw [BitVec.toNat_add, BitVec.toNat_allOnes]
        exact (Nat.zero_add _).symm ▸ Nat.mod_eq_of_lt (by have := Nat.two_pow_pos w.bits; omega)
      · simp only [hall, if_false]
        refine addrWithin_iff (toNat_napotAddr hall) ?_
        rw [BitVec.toNat_add, toNat_napotAddr hall, toNat_napotSize hall]

/-- The entry of the whole address space covers every byte but the last. -/
theorem wordWithin_all (hmode : addrMode (pmp.cfg i) = .napot)
    (hp : pmp.addr i = BitVec.allOnes w.bits) (b : RvUintXlen w) :
    WordWithin pmp b i ↔ b.toNat < 2 ^ w.bits - 1 := by
  rw [wordWithin_iff (inUse_of_napot hmode), seenBottom, seenTop, if_pos hmode, if_pos hmode,
    if_pos hp, if_pos hp,
    and_iff_right (Nat.zero_le _)]

/-- The bounds of a range are seen modulo the size of the address space. -/
theorem seen_of_plain (hplain : PlainEntry pmp i) :
    seenBottom pmp i = entryBottom pmp i % 2 ^ w.bits ∧
      seenTop pmp i = entryTop pmp i % 2 ^ w.bits := by
  rw [seenBottom, seenTop]
  by_cases hmode : addrMode (pmp.cfg i) = .napot
  · obtain ⟨hall, hkept⟩ := hplain hmode
    have hsize : shiftedSize w (trailingOnes (pmp.addr i) + 3) =
        2 ^ (trailingOnes (pmp.addr i) + 3) := by
      cases w with
      | rv32 => exact (shiftedSize_eq_iff (Nat.lt_of_not_le hkept)).mpr (.inl rfl)
      | rv64 =>
          have hsmall : trailingOnes (pmp.addr i) + 3 < 31 := Nat.lt_of_not_le hkept
          exact (shiftedSize_eq_iff (Nat.lt_trans hsmall (by decide))).mpr (.inr hsmall)
    have hbase := toNat_napotAddr_of_size hall ((toNat_napotSize hall).trans hsize)
    rw [toNat_napotAddr hall] at hbase
    have hblock : 4 * 2 ^ (trailingOnes (pmp.addr i) + 1) =
        2 ^ (trailingOnes (pmp.addr i) + 3) := by
      rw [Nat.pow_add _ _ 3, Nat.pow_add _ _ 1]
      omega
    rw [entryBottom, entryTop, hmode]
    simp only [pmpBottom, pmpTop, napotRegion, hall, if_false, if_true]
    rw [hbase, hsize, Nat.mod_add_mod, hblock]
    exact ⟨rfl, rfl⟩
  · rw [if_neg hmode, if_neg hmode]
    exact ⟨rfl, rfl⟩

end Ends

section Seen

variable (pmp : Pmp w) (addr : RvUintXlen w) (len : Nat) (accessType : BusAccessType)

/-- An end byte of the access is between the bounds that are seen. -/
def SeenMatches (i : Fin 16) : Prop :=
  addrMode (pmp.cfg i) ≠ .off ∧
    (seenBottom pmp i ≤ addr.toNat ∧ addr.toNat < seenTop pmp i ∨
      seenBottom pmp i ≤ addr.toNat + len - 1 ∧ addr.toNat + len - 1 < seenTop pmp i)

def SeenGrants (i : Fin 16) : Prop :=
  ((seenBottom pmp i ≤ addr.toNat ∧ addr.toNat < seenTop pmp i) ∧
    seenBottom pmp i ≤ addr.toNat + len - 1 ∧ addr.toNat + len - 1 < seenTop pmp i) ∧
    Permits pmp accessType i

variable {addr len}

/-- Below machine mode the first entry with an end byte between the bounds that are seen
decides. -/
theorem pmpMemCheck_eq_ok_iff_seen {p : PrivilegeLevel} (hp : p ≠ .machine) (hlen : 0 < len)
    (hlen' : len ≤ 8) (hend : addr.toNat + len ≤ 2 ^ w.bits) :
    pmpMemCheck pmp p addr len accessType = .ok ↔
      FirstMatch.Decides (SeenMatches pmp addr len) (SeenGrants pmp addr len accessType) := by
  have hlast := toNat_lastByte hlen hlen' hend
  have hmatches (i : Fin 16) : EndsMatch pmp addr len i ↔ SeenMatches pmp addr len i := by
    rw [EndsMatch, SeenMatches]
    refine and_congr_right fun hoff => ?_
    rw [wordWithin_iff hoff, wordWithin_iff hoff, hlast]
  have hgrants (i : Fin 16) (hoff : addrMode (pmp.cfg i) ≠ .off) :
      EndsGrant pmp addr len accessType i ↔ SeenGrants pmp addr len accessType i := by
    rw [EndsGrant, SeenGrants, wordWithin_iff hoff, wordWithin_iff hoff, hlast]
  rw [pmpMemCheck_eq_ok_iff pmp hp, funext fun i => propext (hmatches i)]
  exact exists_congr fun k => and_congr_right fun hk => hgrants k hk.1.1

end Seen

/-! ### Entries that are misjudged -/

/-- With the bounds `lo` and `hi`, of which only the ends of an access are tested, the access
is judged as with the bounds `bottom` and `top`. -/
def AlikeBounds (lo hi bottom top a len : Nat) (permits : Prop) : Prop :=
  let first := lo ≤ a ∧ a < hi
  let last := lo ≤ a + len - 1 ∧ a + len - 1 < hi
  (first ∨ last ↔ bottom < top ∧ bottom < a + len ∧ a < top) ∧
    (first ∨ last → ((first ∧ last) ∧ permits ↔ (bottom ≤ a ∧ a + len ≤ top) ∧ permits))

section Bounds

variable {lo hi bottom top a len n : Nat} {permits : Prop}

/-- With the right bounds only a range strictly between the ends is overlooked. -/
theorem not_alikeBounds_between (hlen : 0 < len) :
    ¬ AlikeBounds bottom top bottom top a len permits ↔
      a < bottom ∧ bottom < top ∧ top < a + len := by
  rw [AlikeBounds]
  by_cases hpermits : permits
  · simp only [hpermits, and_true]
    omega
  · simp only [hpermits, and_false, iff_self, implies_true, and_true]
    omega

/-- A range beyond the top has no byte of the access. -/
theorem not_alikeBounds_start (hend : a + len ≤ n) (hbottom : n ≤ bottom) :
    ¬ AlikeBounds lo hi bottom top a len permits ↔
      (lo ≤ a ∧ a < hi) ∨ (lo ≤ a + len - 1 ∧ a + len - 1 < hi) := by
  rw [AlikeBounds]
  by_cases hpermits : permits
  · simp only [hpermits, and_true]
    omega
  · simp only [hpermits, and_false, iff_self, implies_true, and_true]
    omega

/-- With a range up to the top the access has to stay below its end as it is seen. -/
theorem not_alikeBounds_end (hlen : 0 < len) (hend : a + len ≤ n) (htop : n ≤ top)
    (hbottom : bottom < n) : ¬ AlikeBounds bottom hi bottom top a len permits ↔
      bottom < a + len ∧ hi < a + len ∧ (permits ∨ ¬ (bottom ≤ a ∧ a < hi)) := by
  rw [AlikeBounds]
  by_cases hpermits : permits
  · simp only [hpermits, and_true, true_or]
    omega
  · simp only [hpermits, and_false, iff_self, implies_true, and_true, false_or]
    omega

/-- All addresses, but for the last one that is not seen. -/
theorem not_alikeBounds_all (hlen : 0 < len) (hend : a + len ≤ n) :
    ¬ AlikeBounds 0 (n - 1) 0 n a len permits ↔ a + len = n ∧ (permits ∨ len = 1) := by
  rw [AlikeBounds]
  by_cases hpermits : permits
  · simp only [hpermits, and_true, true_or]
    omega
  · simp only [hpermits, and_false, iff_self, implies_true, and_true, false_or]
    omega

end Bounds

section Misjudged

variable (pmp : Pmp w) (addr : RvUintXlen w) (len : Nat) (accessType : BusAccessType)

/-- An entry in use that `pmp_mem_check` does not judge by its range. -/
inductive Misjudged (i : Fin 16) : Prop
  /-- The range lies strictly between the ends of the access. -/
  | between (hoff : addrMode (pmp.cfg i) ≠ .off) (hplain : PlainEntry pmp i)
      (htop : entryTop pmp i < 2 ^ w.bits)
      (hinside : addr.toNat < entryBottom pmp i ∧ entryBottom pmp i < entryTop pmp i ∧
        entryTop pmp i < addr.toNat + len)
  /-- The range reaches the top of the address space: the address behind it has wrapped, and
  the access goes beyond that. -/
  | topWraps (hoff : addrMode (pmp.cfg i) ≠ .off) (hplain : PlainEntry pmp i)
      (hbottom : entryBottom pmp i < 2 ^ w.bits) (htop : 2 ^ w.bits ≤ entryTop pmp i)
      (hbeyond : entryBottom pmp i < addr.toNat + len ∧
        entryTop pmp i % 2 ^ w.bits < addr.toNat + len)
      (hcut : Permits pmp accessType i ∨
        ¬ (entryBottom pmp i ≤ addr.toNat ∧ addr.toNat < entryTop pmp i % 2 ^ w.bits))
  /-- The range begins above the address space, and has wrapped onto an end of the access. -/
  | bottomWraps (hoff : addrMode (pmp.cfg i) ≠ .off) (hplain : PlainEntry pmp i)
      (hbottom : 2 ^ w.bits ≤ entryBottom pmp i)
      (hends : (entryBottom pmp i % 2 ^ w.bits ≤ addr.toNat ∧
          addr.toNat < entryTop pmp i % 2 ^ w.bits) ∨
        (entryBottom pmp i % 2 ^ w.bits ≤ addr.toNat + len - 1 ∧
          addr.toNat + len - 1 < entryTop pmp i % 2 ^ w.bits))
  /-- The entry is for all addresses, and the access has the last byte. -/
  | lastByte (hmode : addrMode (pmp.cfg i) = .napot) (hall : pmp.addr i = BitVec.allOnes w.bits)
      (hend : addr.toNat + len = 2 ^ w.bits) (hcut : Permits pmp accessType i ∨ len = 1)
  /-- The shift has lost the size of the range, and the bounds that are left judge the access
  otherwise. -/
  | sizeLost (hmode : addrMode (pmp.cfg i) = .napot) (hall : pmp.addr i ≠ BitVec.allOnes w.bits)
      (hlost : NapotSizeLost (pmp.addr i))
      (hother : ¬ AlikeBounds (seenBottom pmp i) (seenTop pmp i) (entryBottom pmp i)
        (entryTop pmp i) addr.toNat len (Permits pmp accessType i))

def EntryAlike : Fin 16 → Prop :=
  FirstMatch.Alike (SeenMatches pmp addr len) (RangeMatches pmp addr len)
    (SeenGrants pmp addr len accessType) (RangeGrants pmp addr len accessType)

variable {pmp addr len accessType} {i : Fin 16}

theorem Misjudged.inUse (h : Misjudged pmp addr len accessType i) :
    addrMode (pmp.cfg i) ≠ .off := by
  cases h with
  | between hoff => exact hoff
  | topWraps hoff => exact hoff
  | bottomWraps hoff => exact hoff
  | lastByte hmode => exact inUse_of_napot hmode
  | sizeLost hmode => exact inUse_of_napot hmode

theorem entryAlike_iff (hlen : 0 < len) (hoff : addrMode (pmp.cfg i) ≠ .off) :
    EntryAlike pmp addr len accessType i ↔ AlikeBounds (seenBottom pmp i) (seenTop pmp i)
      (entryBottom pmp i) (entryTop pmp i) addr.toNat len (Permits pmp accessType i) := by
  have hmeets : RangeMatches pmp addr len i ↔ entryBottom pmp i < entryTop pmp i ∧
      entryBottom pmp i < addr.toNat + len ∧ addr.toNat < entryTop pmp i := by
    rw [RangeMatches, and_iff_right hoff]
    simp only [pmpRegion_eq, Region.Meets, entryBottom, entryTop]
    omega
  have hcontains : (pmpRegion pmp i (addrMode (pmp.cfg i))).Contains addr.toNat len ↔
      entryBottom pmp i ≤ addr.toNat ∧ addr.toNat + len ≤ entryTop pmp i := by
    simp only [pmpRegion_eq, Region.Contains, entryBottom, entryTop]
    omega
  rw [EntryAlike, FirstMatch.Alike, SeenMatches, and_iff_right hoff, SeenGrants, RangeGrants,
    hmeets, hcontains, AlikeBounds]

theorem entryAlike_plain (hlen : 0 < len) (hoff : addrMode (pmp.cfg i) ≠ .off)
    (hplain : PlainEntry pmp i) :
    EntryAlike pmp addr len accessType i ↔ AlikeBounds (entryBottom pmp i % 2 ^ w.bits)
      (entryTop pmp i % 2 ^ w.bits) (entryBottom pmp i) (entryTop pmp i) addr.toNat len
      (Permits pmp accessType i) := by
  obtain ⟨hlo, hhi⟩ := seen_of_plain hplain
  rw [entryAlike_iff hlen hoff, hlo, hhi]

section Kinds

variable (hlen : 0 < len) (hend : addr.toNat + len ≤ 2 ^ w.bits)

include hlen hend

theorem not_entryAlike_all (hmode : addrMode (pmp.cfg i) = .napot)
    (hall : pmp.addr i = BitVec.allOnes w.bits) : ¬ EntryAlike pmp addr len accessType i ↔
      addr.toNat + len = 2 ^ w.bits ∧ (Permits pmp accessType i ∨ len = 1) := by
  have hbottom : entryBottom pmp i = 0 := by
    rw [entryBottom, hmode, pmpBottom, napotRegion, if_pos hall]
  have htop : entryTop pmp i = 2 ^ w.bits := by
    rw [entryTop, hmode, pmpTop, napotRegion, if_pos hall, Nat.zero_add]
  rw [entryAlike_iff hlen (inUse_of_napot hmode), hbottom, htop, seenBottom, seenTop,
    if_pos hmode, if_pos hmode,
    if_pos hall, if_pos hall, not_alikeBounds_all hlen hend]

/-- The entries that are misjudged are those that the two readings judge differently. -/
theorem misjudged_iff : Misjudged pmp addr len accessType i ↔
    addrMode (pmp.cfg i) ≠ .off ∧ ¬ EntryAlike pmp addr len accessType i := by
  constructor
  · intro h
    refine ⟨h.inUse, ?_⟩
    cases h with
    | between hoff hplain htop hinside =>
        have hbottom := Nat.lt_trans hinside.2.1 htop
        rw [entryAlike_plain hlen hoff hplain, Nat.mod_eq_of_lt hbottom,
          Nat.mod_eq_of_lt htop]
        exact (not_alikeBounds_between hlen).mpr hinside
    | topWraps hoff hplain hbottom htop hbeyond hcut =>
        rw [entryAlike_plain hlen hoff hplain, Nat.mod_eq_of_lt hbottom]
        exact (not_alikeBounds_end hlen hend htop hbottom).mpr ⟨hbeyond.1, hbeyond.2, hcut⟩
    | bottomWraps hoff hplain hbottom hends =>
        rw [entryAlike_plain hlen hoff hplain]
        exact (not_alikeBounds_start hend hbottom).mpr hends
    | lastByte hmode hall hlast hcut =>
        exact (not_entryAlike_all hlen hend hmode hall).mpr ⟨hlast, hcut⟩
    | sizeLost hmode hall hlost hother =>
        rw [entryAlike_iff hlen (inUse_of_napot hmode)]
        exact hother
  · rintro ⟨hoff, hother⟩
    have hofPlain (hplain : PlainEntry pmp i) : Misjudged pmp addr len accessType i := by
      rw [entryAlike_plain hlen hoff hplain] at hother
      by_cases hbottom : entryBottom pmp i < 2 ^ w.bits
      · rw [Nat.mod_eq_of_lt hbottom] at hother
        by_cases htop : entryTop pmp i < 2 ^ w.bits
        · rw [Nat.mod_eq_of_lt htop] at hother
          exact .between hoff hplain htop ((not_alikeBounds_between hlen).mp hother)
        · have htop := Nat.le_of_not_lt htop
          obtain ⟨hfirst, hlast, hcut⟩ := (not_alikeBounds_end hlen hend htop hbottom).mp hother
          exact .topWraps hoff hplain hbottom htop ⟨hfirst, hlast⟩ hcut
      · have hbottom := Nat.le_of_not_lt hbottom
        exact .bottomWraps hoff hplain hbottom ((not_alikeBounds_start hend hbottom).mp hother)
    by_cases hmode : addrMode (pmp.cfg i) = .napot
    · by_cases hall : pmp.addr i = BitVec.allOnes w.bits
      · obtain ⟨hlast, hcut⟩ := (not_entryAlike_all hlen hend hmode hall).mp hother
        exact .lastByte hmode hall hlast hcut
      · by_cases hlost : NapotSizeLost (pmp.addr i)
        · rw [entryAlike_iff hlen (inUse_of_napot hmode)] at hother
          exact .sizeLost hmode hall hlost hother
        · exact hofPlain fun _ => ⟨hall, hlost⟩
    · exact hofPlain fun h => absurd h hmode

end Kinds

end Misjudged

/-! ### The decision -/

/-- The first entry that is misjudged, where no entry before it has a byte of the access. -/
def FirstMisjudged (pmp : Pmp w) (addr : RvUintXlen w) (len : Nat) (accessType : BusAccessType)
    (k : Fin 16) : Prop :=
  Misjudged pmp addr len accessType k ∧
    ∀ j < k, ¬ RangeMatches pmp addr len j ∧ ¬ Misjudged pmp addr len accessType j

section First

variable {pmp : Pmp w} {addr : RvUintXlen w} {len : Nat} {accessType : BusAccessType} {k : Fin 16}
  (hlen : 0 < len) (hend : addr.toNat + len ≤ 2 ^ w.bits)

include hlen hend

theorem FirstMisjudged.first (h : FirstMisjudged pmp addr len accessType k) :
    FirstMatch.First (fun j => SeenMatches pmp addr len j ∨ RangeMatches pmp addr len j) k := by
  refine ⟨?_, fun j hj hmatch => ?_⟩
  · by_contra hnone
    obtain ⟨hseen, hrange⟩ := not_or.mp hnone
    exact ((misjudged_iff hlen hend).mp h.1).2
      ⟨iff_of_false hseen hrange, fun hk => absurd hk hseen⟩
  · obtain ⟨hrange, hjudged⟩ := h.2 j hj
    have hseen := hmatch.resolve_right hrange
    rw [misjudged_iff hlen hend, and_iff_right hseen.1, not_not] at hjudged
    exact hrange (hjudged.1.mp hseen)

theorem firstMisjudged_of_first
    (hk : FirstMatch.First (fun j => SeenMatches pmp addr len j ∨ RangeMatches pmp addr len j) k)
    (hother : ¬ EntryAlike pmp addr len accessType k) :
    FirstMisjudged pmp addr len accessType k := by
  have hoff : addrMode (pmp.cfg k) ≠ .off := hk.1.elim (fun h => h.1) fun h => h.1
  refine ⟨(misjudged_iff hlen hend).mpr ⟨hoff, hother⟩, fun j hj => ?_⟩
  obtain ⟨hseen, hrange⟩ := not_or.mp (hk.2 j hj)
  refine ⟨hrange, fun hjudged => ?_⟩
  exact ((misjudged_iff hlen hend).mp hjudged).2
    ⟨iff_of_false hseen hrange, fun hj => absurd hj hseen⟩

end First

/-- The entries behind make up for the one that is misjudged. -/
inductive MadeGoodBehind (pmp : Pmp w) (addr : RvUintXlen w) (len : Nat)
    (accessType : BusAccessType) (k : Fin 16) : Prop
  /-- The entry is overlooked: among those behind it, the first with an end byte between the
  bounds that are seen gives the answer that it should have given. -/
  | overlooked (hk : ¬ SeenMatches pmp addr len k)
      (hbehind : FirstMatch.DecidesAfter k (SeenMatches pmp addr len)
        (SeenGrants pmp addr len accessType) ↔ RangeGrants pmp addr len accessType k)
  /-- The range of the entry has no byte of the access: among those behind it, the first that
  has one would give the answer that it has given. -/
  | seenOnly (hk : ¬ RangeMatches pmp addr len k)
      (hbehind : SeenGrants pmp addr len accessType k ↔
        FirstMatch.DecidesAfter k (RangeMatches pmp addr len) (RangeGrants pmp addr len accessType))

/-- The check decides by the ranges just if no entry that the access comes to is misjudged, or
those behind the first one that is make up for it. -/
theorem pmpMemCheck_exact_iff (pmp : Pmp w) {p : PrivilegeLevel}
    (hp : p = .supervisor ∨ p = .user) (addr : RvUintXlen w) {len : Nat}
    (hlen : len ∈ [1, 2, 4, 8]) (hend : addr.toNat + len ≤ 2 ^ w.bits)
    (accessType : BusAccessType) :
    (pmpMemCheck pmp p addr len accessType = .ok ↔
        FirstMatch.Decides (RangeMatches pmp addr len) (RangeGrants pmp addr len accessType)) ↔
      ∀ k, FirstMisjudged pmp addr len accessType k →
        MadeGoodBehind pmp addr len accessType k := by
  have hne : p ≠ .machine := by
    rcases hp with rfl | rfl
    · decide
    · decide
  have hpos : 0 < len ∧ len ≤ 8 := by
    simp only [List.mem_cons, List.not_mem_nil, or_false] at hlen
    omega
  rw [pmpMemCheck_eq_ok_iff_seen pmp accessType hne hpos.1 hpos.2 hend,
    FirstMatch.decides_iff_decides]
  constructor
  · intro h k hk
    have hfirst := hk.first hpos.1 hend
    rcases h k hfirst with halike | ⟨-, hno, heq⟩ | ⟨hno, -, heq⟩
    · exact absurd halike ((misjudged_iff hpos.1 hend).mp hk.1).2
    · exact .seenOnly hno heq
    · exact .overlooked hno heq
  · intro h k hfirst
    by_cases halike : EntryAlike pmp addr len accessType k
    · exact .inl halike
    · have hk := firstMisjudged_of_first hpos.1 hend hfirst halike
      cases h k hk with
      | overlooked hno heq => exact .inr (.inr ⟨hno, hfirst.1.resolve_left hno, heq⟩)
      | seenOnly hno heq => exact .inr (.inl ⟨hfirst.1.resolve_right hno, hno, heq⟩)

/-- One readable range from the bottom of memory up to the address of the register. -/
def torPmp (top : RvUintXlen .rv32) : Pmp .rv32 :=
  { cfg := Function.update (fun _ => 0) 0 0x09, addr := Function.update (fun _ => 0) 0 top }

/-- A word in the lower half of the address space, which is one readable range. -/
theorem pmpMemCheck_exact_iff_tor :
    FirstMatch.Decides (RangeMatches (torPmp 0x20000000) 0x1000 4)
      (RangeGrants (torPmp 0x20000000) 0x1000 4 .read) := by
  have hnone (k : Fin 16) : ¬ Misjudged (torPmp 0x20000000) 0x1000 4 .read k := by
    rw [misjudged_iff (by decide) (by decide)]
    rintro ⟨hoff, hother⟩
    have honly : ∀ k, addrMode ((torPmp 0x20000000).cfg k) ≠ .off → k = 0 := by decide
    obtain rfl := honly k hoff
    have hlo : seenBottom (torPmp 0x20000000) 0 = entryBottom (torPmp 0x20000000) 0 := by decide
    have hhi : seenTop (torPmp 0x20000000) 0 = entryTop (torPmp 0x20000000) 0 := by decide
    rw [entryAlike_iff (by decide) hoff, hlo, hhi] at hother
    exact absurd ((not_alikeBounds_between (by decide)).mp hother).1 (by decide)
  have hexact := (pmpMemCheck_exact_iff (torPmp 0x20000000) (.inr rfl : PrivilegeLevel.user = _ ∨ _)
    0x1000 (by decide : 4 ∈ [1, 2, 4, 8]) (by decide) .read).mpr fun k hk => absurd hk.1 (hnone k)
  exact hexact.mp (by decide)

/-- A range up to the top of the address space grants no access: its last address
plus one wraps to zero. -/
theorem top_range_refused :
    ¬ ∀ (pmp : Pmp .rv32) (p : PrivilegeLevel) (addr : RvUintXlen .rv32) (len : Nat)
        (accessType : BusAccessType),
      p = .supervisor ∨ p = .user → len ∈ [1, 2, 4, 8] → addr.toNat + len ≤ 2 ^ Xlen.rv32.bits →
        (pmpMemCheck pmp p addr len accessType = .ok ↔
          FirstMatch.Decides (RangeMatches pmp addr len)
            (RangeGrants pmp addr len accessType)) := by
  intro h
  have hrefused : pmpMemCheck (torPmp 0x40000000) .user 0 4 .read = .err := by
    decide
  have hmode : addrMode ((torPmp 0x40000000).cfg 0) = .tor := by decide
  have hregion : pmpRegion (torPmp 0x40000000) 0 .tor = ⟨0, 2 ^ 32⟩ := rfl
  have hmatch : RangeMatches (torPmp 0x40000000) 0 4 0 := by
    rw [RangeMatches, hmode, hregion]
    exact ⟨by decide, by decide⟩
  have hgrant : RangeGrants (torPmp 0x40000000) 0 4 .read 0 := by
    rw [RangeGrants, hmode, hregion]
    exact ⟨by decide, rfl⟩
  have hnone : ∀ j : Fin 16, ¬ j < 0 := fun j => Fin.not_lt_zero j
  have hexact := (h (torPmp 0x40000000) .user 0 4 .read (.inr rfl) (by decide) (by decide)).mpr
    ⟨0, ⟨hmatch, fun j hj => absurd hj (hnone j)⟩, hgrant⟩
  rw [hrefused] at hexact
  cases hexact

end RiscvEm
