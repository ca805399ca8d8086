import RiscvEm.Core.Sv32

/-!
Accesses that reach over the end of a page. The translation is made once, for the
first byte, and the bytes that follow are taken from the physical addresses that
follow.
-/

namespace RiscvEm

variable {w : Xlen} {σ : Type}

/-! ### The accesses that a bus serves -/

structure BusTouch (w : Xlen) where
  accessType : BusAccessType
  addr : RvUintXlen w
  len : Nat
  deriving DecidableEq

def loggedBus (busAccess : BusAccessFunc w σ) : BusAccessFunc w (σ × List (BusTouch w)) :=
  fun priv privLevel accessType addr value len => do
    let (ret, value, st) ← busAccess priv.1 privLevel accessType addr value len
    return (ret, value,
      (st, if ret = .ok then priv.2 ++ [⟨accessType, addr, len⟩] else priv.2))

theorem loggedBus_eq_ok {busAccess : BusAccessFunc w σ} {priv priv' : σ × List (BusTouch w)}
    {privLevel : PrivilegeLevel} {accessType : BusAccessType} {addr : RvUintXlen w}
    {value value' : List Byte} {len : Nat} {ret : RvRet} :
    loggedBus busAccess priv privLevel accessType addr value len = .ok (ret, value', priv') ↔
      busAccess priv.1 privLevel accessType addr value len = .ok (ret, value', priv'.1) ∧
        priv'.2 = if ret = .ok then priv.2 ++ [⟨accessType, addr, len⟩] else priv.2 := by
  rw [loggedBus, Except.bind_eq_ok]
  constructor
  · rintro ⟨⟨ret', bytes, st⟩, hbus, h⟩
    simp only [Except.pure_eq_ok, Except.ok.injEq, Prod.mk.injEq] at h
    obtain ⟨rfl, rfl, rfl⟩ := h
    exact ⟨hbus, rfl⟩
  · rintro ⟨hbus, hlog⟩
    refine ⟨_, hbus, ?_⟩
    simp only [Except.pure_eq_ok, ← hlog]

/-! ### Translations within a page -/

def byteTranslation (busAccess : BusAccessFunc w σ) (s : RvCore w σ)
    (accessType : BusAccessType) (va : RvUintXlen w) :
    Except Halt (Option (BitVec 64) × RvCore w σ) :=
  mmuVirtToPhys busAccess s (checkMprvOverride s accessType) va accessType
    (checkBit s.status trapXstatusMxrBit) (checkBit s.status trapXstatusSumBit)

def TranslationActive (s : RvCore w σ) (accessType : BusAccessType) : Prop :=
  ¬ (checkMprvOverride s accessType = .machine ∨ satpMode s.mmu.satpReg = 0)

/-- The walk looks at the page numbers of the address only. -/
theorem mmuWalk_congr {busAccess : BusAccessFunc w σ} {p : PrivilegeLevel}
    {va va' : RvUintXlen w} {i : Nat} (h : ∀ j ≤ i, vpn va j = vpn va' j)
    (a pte : RvUintXlen w) (s : RvCore w σ) :
    mmuWalk busAccess p va i a pte s = mmuWalk busAccess p va' i a pte s := by
  induction i generalizing a pte s with
  | zero => rw [mmuWalk, mmuWalk, h 0 (Nat.le_refl 0)]
  | succ i ih =>
      have hrest := ih fun j hj => h j (Nat.le_succ_of_le hj)
      rw [mmuWalk, mmuWalk, h (i + 1) (Nat.le_refl _)]
      simp only [hrest]

/-- The leaf is found at the level where the walk starts or below. -/
theorem mmuWalk_level_le {busAccess : BusAccessFunc w σ} {p : PrivilegeLevel}
    {va a pte : RvUintXlen w} {i : Nat} {s s' : RvCore w σ} {l : Nat × RvUintXlen w}
    (h : mmuWalk busAccess p va i a pte s = .ok (some l, s')) : l.1 ≤ i := by
  induction i generalizing a pte s with
  | zero =>
      obtain ⟨_, _, _, _, hcases⟩ := mmuWalk_eq_ok h
      rcases hcases with ⟨-, hl, -⟩ | ⟨-, -, hl, -⟩ | ⟨-, -, -, hl, -⟩ | ⟨-, -, _, hj, -⟩
      · cases hl
      · obtain rfl := Option.some.inj hl
        exact Nat.le_refl _
      · cases hl
      · omega
  | succ i ih =>
      obtain ⟨_, _, _, _, hcases⟩ := mmuWalk_eq_ok h
      rcases hcases with ⟨-, hl, -⟩ | ⟨-, -, hl, -⟩ | ⟨-, -, -, hl, -⟩ | ⟨-, -, _, hj, hwalk⟩
      · cases hl
      · obtain rfl := Option.some.inj hl
        exact Nat.le_refl _
      · cases hl
      · obtain rfl := Nat.succ.inj hj
        exact Nat.le_succ_of_le (ih hwalk)

theorem toNat_add_inPage {va : BitVec 32} {k : Nat} (hk : va.toNat % 4096 + k < 4096) :
    (va + BitVec.ofNat 32 k).toNat = va.toNat + k := by
  have hva := va.isLt
  rw [BitVec.toNat_add, BitVec.toNat_ofNat]
  omega

theorem vpn_inPage {va : BitVec 32} {k : Nat} (hk : va.toNat % 4096 + k < 4096) {i : Nat}
    (hi : i ≤ 1) :
    vpn (w := .rv32) (va + BitVec.ofNat 32 k) i = vpn (w := .rv32) va i := by
  apply BitVec.eq_of_toNat_eq
  rw [toNat_vpn, toNat_vpn, Sv32.vpn, Sv32.vpn, toNat_add_inPage hk]
  rcases Nat.le_one_iff_eq_zero_or_eq_one.mp hi with rfl | rfl
  · omega
  · omega

theorem toNat_leafAddress_inPage {va pte : BitVec 32} {k i : Nat} (hi : i ≤ 1)
    (haligned : 0 < i → Sv32.ppn pte % 2 ^ 10 = 0) (hk : va.toNat % 4096 + k < 4096) :
    (leafAddress (va + BitVec.ofNat 32 k) i pte).toNat = (leafAddress va i pte).toNat + k := by
  rw [toNat_leafAddress hi haligned, toNat_leafAddress hi haligned, toNat_add_inPage hk]
  rcases Nat.le_one_iff_eq_zero_or_eq_one.mp hi with rfl | rfl
  · omega
  · omega

/-- What a translation that is made says of the physical address. -/
theorem byteTranslation_some {busAccess : BusAccessFunc .rv32 σ} {s s₁ : RvCore .rv32 σ}
    {accessType : BusAccessType} {va : BitVec 32} {pa : BitVec 64}
    (hactive : TranslationActive s accessType)
    (h : byteTranslation busAccess s accessType va = .ok (some pa, s₁)) :
    pa.toNat < 2 ^ 32 ∧ pa.toNat % 4096 = va.toNat % 4096 := by
  rcases mmuVirtToPhys_cases h with ⟨hbare, -, -⟩ | ⟨-, leaf, _, hwalk, hpa, -⟩
  · exact absurd hbare hactive
  · obtain ⟨l, hl, hchecks⟩ := Option.bind_eq_some_iff.mp hpa.symm
    subst hl
    obtain ⟨-, -, hgrants, rfl⟩ := mmuLeaf_eq_some_iff.mp hchecks
    rw [toNat_leafAddress (mmuWalk_level_le hwalk) hgrants.aligned]
    have hlevel := mmuWalk_level_le hwalk
    have haligned := hgrants.aligned
    rcases Nat.le_one_iff_eq_zero_or_eq_one.mp hlevel with hi | hi
    · rw [hi]
      omega
    · rw [hi] at haligned ⊢
      have hzero := haligned (by decide)
      omega

theorem byteTranslation_inPage {busAccess : BusAccessFunc .rv32 σ} {s s₁ : RvCore .rv32 σ}
    {accessType : BusAccessType} {va : BitVec 32} {k : Nat} {out : Option (BitVec 64)}
    (hactive : TranslationActive s accessType) (hk : va.toNat % 4096 + k < 4096)
    (h : byteTranslation busAccess s accessType va = .ok (out, s₁)) :
    ∃ out' s₂, byteTranslation busAccess s accessType (va + BitVec.ofNat 32 k) =
        .ok (out', s₂) ∧
      ∀ pa, out = some pa → ∃ pa', out' = some pa' ∧ pa'.toNat = pa.toNat + k := by
  rcases mmuVirtToPhys_cases h with ⟨hbare, -, -⟩ | ⟨-, leaf, _, hwalk, hpa, -⟩
  · exact absurd hbare hactive
  · have hsame := @mmuWalk_congr _ _ busAccess (checkMprvOverride s accessType) _ _ 1
      (fun j hj => vpn_inPage hk hj)
      ((s.mmu.satpReg &&& 0x3FFFFF) * 4096) 0 s
    have hwalk' := hwalk
    rw [← hsame] at hwalk'
    obtain ⟨s₂, htrans⟩ := mmuVirtToPhys_of_walk accessType (checkBit s.status trapXstatusMxrBit)
      (checkBit s.status trapXstatusSumBit) hactive hwalk'
    refine ⟨_, s₂, htrans, fun pa hout => ?_⟩
    rw [hpa] at hout
    obtain ⟨l, hl, hchecks⟩ := Option.bind_eq_some_iff.mp hout
    subst hl
    obtain ⟨huser, hsupervisor, hgrants, rfl⟩ := mmuLeaf_eq_some_iff.mp hchecks
    exact ⟨_, mmuLeaf_eq_some_iff.mpr ⟨huser, hsupervisor, hgrants, rfl⟩,
      toNat_leafAddress_inPage (mmuWalk_level_le hwalk) hgrants.aligned hk⟩

/-! ### Every byte through its own translation -/

section EachByte

variable (busAccess : BusAccessFunc .rv32 σ) (s : RvCore .rv32 (σ × List (BusTouch .rv32)))
  (accessType : BusAccessType) (va : BitVec 32) (value : List Byte) (len : Nat)

/-- The access is made, in one call of the bus, to the physical addresses of its bytes,
and a byte without one makes it fail before it touches anything. What the bus serves
for the walk of the first byte comes before in the log. -/
def EachByteTranslated : Prop :=
  ∀ ret value' s',
    mmuCheckedBusAccess (loggedBus busAccess) s accessType va value len =
      .ok (ret, value', s') →
    ∃ out s₁, byteTranslation (loggedBus busAccess) s accessType va = .ok (out, s₁) ∧
      (ret = .ok → ∃ addr, s'.priv.2 = s₁.priv.2 ++ [⟨accessType, addr, len⟩] ∧
        ∀ k < len, ∃ pa s₂, byteTranslation (loggedBus busAccess) s accessType
          (va + BitVec.ofNat 32 k) = .ok (some pa, s₂) ∧ pa.toNat = addr.toNat + k) ∧
      ((∃ k < len, ∃ s₂, byteTranslation (loggedBus busAccess) s accessType
          (va + BitVec.ofNat 32 k) = .ok (none, s₂)) →
        ret = .err ∧ s'.priv.2 = s₁.priv.2)

/-- The page of the first byte is mapped for the access, and neither the PMP nor the bus
refuses the physical address of that byte. -/
def Served : Prop :=
  ∃ pa s₁ value' st, byteTranslation (loggedBus busAccess) s accessType va = .ok (some pa, s₁) ∧
    pmpMemCheck s₁.pmp (checkMprvOverride s accessType) (pa.setWidth 32) len accessType = .ok ∧
    busAccess s₁.priv.1 (checkMprvOverride s accessType) accessType (pa.setWidth 32) value len =
      .ok (.ok, value', st)

def nextPage : BitVec 32 := BitVec.ofNat 32 (4096 * (va.toNat / 4096 + 1))

def NextPageFollows : Prop :=
  ∃ pa s₁ pa' s₂, byteTranslation (loggedBus busAccess) s accessType va = .ok (some pa, s₁) ∧
    byteTranslation (loggedBus busAccess) s accessType (nextPage va) = .ok (some pa', s₂) ∧
    pa'.toNat / 4096 = pa.toNat / 4096 + 1

end EachByte

/-- The bytes after the end of the page of `va` are bytes of the next page. -/
theorem add_eq_nextPage_add {va : BitVec 32} {k : Nat} (hk : 4096 ≤ va.toNat % 4096 + k) :
    va + BitVec.ofNat 32 k = nextPage va + BitVec.ofNat 32 (va.toNat % 4096 + k - 4096) := by
  have hva := va.isLt
  apply BitVec.eq_of_toNat_eq
  rw [nextPage, BitVec.toNat_add, BitVec.toNat_add, BitVec.toNat_ofNat, BitVec.toNat_ofNat,
    BitVec.toNat_ofNat]
  omega

theorem nextPage_offset (va : BitVec 32) : (nextPage va).toNat % 4096 = 0 := by
  rw [nextPage, BitVec.toNat_ofNat]
  omega

section EachByte

variable {busAccess : BusAccessFunc .rv32 σ} {s : RvCore .rv32 (σ × List (BusTouch .rv32))}
  {accessType : BusAccessType} {va : BitVec 32} {value : List Byte} {len : Nat}

/-- An access that is served is one call of the bus, at the address of the first byte. -/
theorem Served.access (h : Served busAccess s accessType va value len) :
    ∃ pa s₁ value' s', byteTranslation (loggedBus busAccess) s accessType va =
        .ok (some pa, s₁) ∧
      mmuCheckedBusAccess (loggedBus busAccess) s accessType va value len =
        .ok (.ok, value', s') ∧
      s'.priv.2 = s₁.priv.2 ++ [⟨accessType, pa.setWidth 32, len⟩] := by
  obtain ⟨pa, s₁, value', st, htrans, hpmp, hbus⟩ := h
  have hlogged : loggedBus busAccess s₁.priv (checkMprvOverride s accessType) accessType
      (pa.setWidth 32) value len =
        .ok (.ok, value', (st, s₁.priv.2 ++ [⟨accessType, pa.setWidth 32, len⟩])) :=
    loggedBus_eq_ok.mpr ⟨hbus, rfl⟩
  refine ⟨pa, s₁, value',
    { s₁ with priv := (st, s₁.priv.2 ++ [⟨accessType, pa.setWidth 32, len⟩]) }, htrans, ?_, rfl⟩
  rw [byteTranslation] at htrans
  simp only [mmuCheckedBusAccess, htrans, Except.ok_bind, pmpCheckedBusAccess]
  rw [if_neg (by rw [hpmp]; decide)]
  simp only [hlogged, Except.ok_bind]
  rfl

/-- An access that is not served fails and leaves the log as the walk left it. -/
theorem access_cases {ret : RvRet} {value' : List Byte}
    {s' : RvCore .rv32 (σ × List (BusTouch .rv32))}
    (h : mmuCheckedBusAccess (loggedBus busAccess) s accessType va value len =
      .ok (ret, value', s')) :
    ∃ out s₁, byteTranslation (loggedBus busAccess) s accessType va = .ok (out, s₁) ∧
      ((ret = .err ∧ s'.priv.2 = s₁.priv.2) ∨
        (ret = .ok ∧ Served busAccess s accessType va value len ∧
          ∃ pa, out = some pa ∧
            s'.priv.2 = s₁.priv.2 ++ [⟨accessType, pa.setWidth 32, len⟩])) := by
  obtain ⟨out, s₁, htrans, ⟨-, hret, -, hs'⟩ | ⟨pa, rfl, haccess⟩⟩ := mmuCheckedBusAccess_cases h
  · refine ⟨out, s₁, htrans, .inl ⟨hret, ?_⟩⟩
    rw [hs', prepareSyncTrap_priv]
  · refine ⟨some pa, s₁, htrans, ?_⟩
    rcases pmpCheckedBusAccess_cases haccess with ⟨-, hret, -, hs'⟩ | ⟨hpmp, hbus, -⟩
    · left
      refine ⟨hret, ?_⟩
      rw [hs', prepareSyncTrap_priv]
    · obtain ⟨hserve, hlog⟩ := loggedBus_eq_ok.mp hbus
      cases ret with
      | err => exact .inl ⟨rfl, hlog⟩
      | ok => exact .inr ⟨rfl, ⟨pa, s₁, value', s'.priv.1, htrans, hpmp, hserve⟩, pa, rfl, hlog⟩

/-- Where the access stays in one page, or the next page follows, each byte has the
physical address that the access takes it from. -/
theorem eachByte_of_follows {pa : BitVec 64} {s₁ : RvCore .rv32 (σ × List (BusTouch .rv32))}
    (hactive : TranslationActive s accessType) (hlen : len ≤ 4096)
    (htrans : byteTranslation (loggedBus busAccess) s accessType va = .ok (some pa, s₁))
    (h : va.toNat % 4096 + len ≤ 4096 ∨ NextPageFollows busAccess s accessType va) :
    ∀ k < len, ∃ pa' s₂, byteTranslation (loggedBus busAccess) s accessType
      (va + BitVec.ofNat 32 k) = .ok (some pa', s₂) ∧ pa'.toNat = pa.toNat + k := by
  intro k hk
  by_cases hin : va.toNat % 4096 + k < 4096
  · obtain ⟨out, s₂, htrans', hout⟩ := byteTranslation_inPage hactive hin htrans
    obtain ⟨pa', rfl, hpa'⟩ := hout pa rfl
    exact ⟨pa', s₂, htrans', hpa'⟩
  · -- the byte lies in the next page, at the distance of the first byte from its end
    rcases h with hfit | ⟨pa₀, _, pa₁, s₃, htrans₀, hnext, hframe⟩
    · omega
    · rw [htrans] at htrans₀
      obtain ⟨hpa, -⟩ := Prod.mk.inj (Except.ok.inj htrans₀)
      obtain rfl := Option.some.inj hpa
      have hoff := nextPage_offset va
      have hk' : (nextPage va).toNat % 4096 + (va.toNat % 4096 + k - 4096) < 4096 := by omega
      obtain ⟨out, s₂, htrans', hout⟩ := byteTranslation_inPage hactive hk' hnext
      obtain ⟨pa', rfl, hpa'⟩ := hout pa₁ rfl
      have hfirst := (byteTranslation_some hactive htrans).2
      have hsecond := (byteTranslation_some hactive hnext).2
      refine ⟨pa', s₂, ?_, ?_⟩
      · rw [add_eq_nextPage_add (by omega)]
        exact htrans'
      · omega

end EachByte

/-- Each byte of an access goes through its own translation just when the access stays
in one page, or is not served at all, or the next page happens to be mapped to the
frame that follows. -/
theorem eachByteTranslated_iff {busAccess : BusAccessFunc .rv32 σ}
    {s : RvCore .rv32 (σ × List (BusTouch .rv32))} {accessType : BusAccessType}
    (hactive : TranslationActive s accessType) {len : Nat} (hlen : len ≤ 4096) (va : BitVec 32)
    (value : List Byte) :
    EachByteTranslated busAccess s accessType va value len ↔
      va.toNat % 4096 + len ≤ 4096 ∨ ¬ Served busAccess s accessType va value len ∨
        NextPageFollows busAccess s accessType va := by
  constructor
  · intro heach
    by_cases hfit : va.toNat % 4096 + len ≤ 4096
    · exact .inl hfit
    · refine .inr (or_iff_not_imp_left.mpr fun hserved => ?_)
      obtain ⟨pa, s₁, value', s', htrans, haccess, hlog⟩ := (not_not.mp hserved).access
      obtain ⟨out, s₁', htrans', hbytes, -⟩ := heach _ _ _ haccess
      rw [htrans] at htrans'
      obtain ⟨rfl, rfl⟩ := Prod.mk.inj (Except.ok.inj htrans')
      obtain ⟨addr, hlog', hall⟩ := hbytes rfl
      have haddr : pa.setWidth 32 = addr := by
        have htouch := List.append_cancel_left (hlog.symm.trans hlog')
        simpa using htouch
      -- the first byte of the next page
      obtain ⟨pa', s₂, hnext, hpa'⟩ := hall (4096 - va.toNat % 4096) (by omega)
      rw [add_eq_nextPage_add (by omega)] at hnext
      obtain ⟨hbound, hoff⟩ := byteTranslation_some hactive htrans
      have haddrNat : addr.toNat = pa.toNat := by
        rw [← haddr, BitVec.toNat_setWidth]
        exact Nat.mod_eq_of_lt hbound
      have hzero : va.toNat % 4096 + (4096 - va.toNat % 4096) - 4096 = 0 := by omega
      rw [hzero, BitVec.add_zero] at hnext
      exact ⟨pa, s₁, pa', s₂, htrans, hnext, by omega⟩
  · intro h ret value' s' haccess
    obtain ⟨out, s₁, htrans, ⟨hret, hlog⟩ | ⟨hret, hserved, pa, rfl, hlog⟩⟩ :=
      access_cases haccess
    · refine ⟨out, s₁, htrans, fun hok => ?_, fun _ => ⟨hret, hlog⟩⟩
      rw [hret] at hok
      cases hok
    · have hall := eachByte_of_follows hactive hlen htrans
        (h.imp_right fun hr => hr.resolve_left (not_not_intro hserved))
      refine ⟨_, s₁, htrans, fun _ => ⟨pa.setWidth 32, hlog, fun k hk => ?_⟩, ?_⟩
      · obtain ⟨pa', s₂, htrans', hpa'⟩ := hall k hk
        refine ⟨pa', s₂, htrans', ?_⟩
        rw [hpa', BitVec.toNat_setWidth,
          Nat.mod_eq_of_lt (byteTranslation_some hactive htrans).1]
      · rintro ⟨k, hk, s₂, hnone⟩
        obtain ⟨pa', s₂', hsome, -⟩ := hall k hk
        rw [hnone] at hsome
        cases hsome

/-- Two pages that follow each other, mapped to frames that do not. -/
def scatteredWords (addr : Nat) : BitVec 32 :=
  if addr = 0x1000 then 0x801
  else if addr = 0x2048 then 0x104F
  else if addr = 0x204C then 0x244F
  else 0

def scatteredCore : RvCore .rv32 (Unit × List (BusTouch .rv32)) :=
  { currPrivMode := .supervisor
    pc := 0
    priv := ((), [])
    pmp := mappedCore.pmp
    mmu := mappedCore.mmu }

theorem scatteredCore_active : TranslationActive scatteredCore .read := by
  rw [TranslationActive]
  decide

/-- The last word of the first of the two pages. -/
theorem eachByteTranslated_iff_scattered :
    EachByteTranslated (wordBus scatteredWords) scatteredCore .read 0x12FFC [0, 0, 0, 0] 4 :=
  (eachByteTranslated_iff scatteredCore_active (by decide) 0x12FFC [0, 0, 0, 0]).mpr
    (.inl (by decide))

/-- A word that reaches over the end of a page is read from the frame of its first
byte and the one that follows in physical memory. -/
theorem page_crossing_access :
    ¬ ∀ (busAccess : BusAccessFunc .rv32 Unit) (s : RvCore .rv32 (Unit × List (BusTouch .rv32)))
        (accessType : BusAccessType) (va : BitVec 32) (value : List Byte) (len : Nat),
      len ∈ [1, 2, 4] → TranslationActive s accessType →
        EachByteTranslated busAccess s accessType va value len := by
  intro h
  have htranslated : ∀ k pa, (byteTranslation (loggedBus (wordBus scatteredWords)) scatteredCore
      .read (0x12FFE + BitVec.ofNat 32 k)).toOption.any (fun out => out.1 == some pa) = true →
        ∃ s₁, byteTranslation (loggedBus (wordBus scatteredWords)) scatteredCore .read
          (0x12FFE + BitVec.ofNat 32 k) = .ok (some pa, s₁) := by
    intro k pa hany
    obtain ⟨⟨out, s₁⟩, htrans, hout⟩ := Except.exists_of_any_toOption hany
    have hpa : out = some pa := by simpa using hout
    rw [hpa] at htrans
    exact ⟨s₁, htrans⟩
  obtain ⟨_, hfirst⟩ := htranslated 0 0x4FFE (by decide)
  obtain ⟨_, hthird⟩ := htranslated 2 0x9000 (by decide)
  have hdone : (mmuCheckedBusAccess (loggedBus (wordBus scatteredWords)) scatteredCore .read
      0x12FFE [0, 0, 0, 0] 4).toOption.any (fun out => out.1 == .ok) = true := by
    decide
  obtain ⟨⟨ret, value', s'⟩, haccess, hret⟩ := Except.exists_of_any_toOption hdone
  have hok : ret = .ok := by simpa using hret
  obtain ⟨_, _, _, hbytes, _⟩ := h (wordBus scatteredWords) scatteredCore .read 0x12FFE
    [0, 0, 0, 0] 4 (by decide) scatteredCore_active ret value' s' haccess
  obtain ⟨addr, -, hall⟩ := hbytes hok
  obtain ⟨pa, _, htrans, hpa⟩ := hall 0 (by decide)
  obtain ⟨pa', _, htrans', hpa'⟩ := hall 2 (by decide)
  rw [hfirst] at htrans
  rw [hthird] at htrans'
  obtain rfl := Option.some.inj (Prod.mk.inj (Except.ok.inj htrans)).1
  obtain rfl := Option.some.inj (Prod.mk.inj (Except.ok.inj htrans')).1
  have hnear : (0x9000 : BitVec 64).toNat = (0x4FFE : BitVec 64).toNat + 2 := by omega
  exact absurd hnear (by decide)

end RiscvEm
