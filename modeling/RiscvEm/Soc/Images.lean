import RiscvEm.Soc.Ram
import RiscvEm.Soc.System

/-!
The images that `rv_soc_init` loads: the firmware at the start of the RAM, and the device tree
below its end.
-/

namespace RiscvEm

variable {w : Xlen} {fw : List Byte} {dtb initrd : Option (List Byte)}
  {s : RvCore w (RvSoc Devices)}

/-! ### What is loaded -/

theorem writeMemFromFile_eq_ok {contents : List Byte} {mem mem' : Memory} {start : Nat}
    {memSize : Int} (h : writeMemFromFile contents mem start memSize = .ok mem') :
    contents.length ≤ memSize ∧ mem' = mem.write start contents contents.length := by
  rw [writeMemFromFile] at h
  split at h
  · cases h
  · next hsize => exact ⟨by omega, (Except.ok.inj h).symm⟩

def ramWithDtb : Option (List Byte) → Memory
  | some contents =>
      Memory.write (fun _ => 0) (fdtAddrOf contents.length - BitVec.ofNat 64 ramBaseAddr).toNat
        contents contents.length
  | none => fun _ => 0

theorem rvSocInit_ram (h : rvSocInit w fw dtb initrd = .ok s) :
    fw.length ≤ ramSizeBytes ∧ s.priv.ram = (ramWithDtb dtb).write 0 fw fw.length := by
  simp only [rvSocInit] at h
  cases dtb <;> cases initrd
  -- the initial file system goes to a memory of its own
  all_goals
    obtain ⟨ram, hdtb, h⟩ := Except.bind_eq_ok.mp h
    obtain ⟨loaded, hfw, h⟩ := Except.bind_eq_ok.mp h
    obtain ⟨fromMem, -, h⟩ := Except.bind_eq_ok.mp h
    obtain rfl := Except.ok.inj h
    obtain ⟨hsize, rfl⟩ := writeMemFromFile_eq_ok hfw
    refine ⟨Int.ofNat_le.mp hsize, ?_⟩
  case none.none | none.some =>
    obtain rfl := Except.ok.inj hdtb
    rfl
  case some.none | some.some =>
    obtain ⟨-, rfl⟩ := writeMemFromFile_eq_ok hdtb
    rfl

theorem toNat_fdtAddrOf {fdtSize : Nat} (hsize : fdtSize ≤ ramSizeBytes) :
    (fdtAddrOf fdtSize).toNat =
      ramBaseAddr + (ramSizeBytes - fdtSize) / 0x1000000 * 0x1000000 := by
  have hword : (BitVec.ofNat 64 fdtSize).toNat = fdtSize := by
    rw [BitVec.toNat_ofNat]
    exact Nat.mod_eq_of_lt (Nat.lt_of_le_of_lt hsize (by decide))
  have hend : (BitVec.ofNat 64 (ramBaseAddr + ramSizeBytes)).toNat =
      ramBaseAddr + ramSizeBytes := by decide
  have hbelow : (BitVec.ofNat 64 (ramBaseAddr + ramSizeBytes) - BitVec.ofNat 64 fdtSize).toNat =
      ramBaseAddr + ramSizeBytes - fdtSize := by
    rw [BitVec.toNat_sub_of_le (BitVec.le_def.mpr (by omega)), hword, hend]
  have hunit : (0x1000000 : BitVec 64).toNat = 0x1000000 := by decide
  rw [fdtAddrOf, BitVec.toNat_mul, BitVec.toNat_udiv, hbelow, hunit]
  simp only [ramBaseAddr, ramSizeBytes] at hsize ⊢
  omega

theorem toNat_dtbOffset {fdtSize : Nat} (hsize : fdtSize ≤ ramSizeBytes) :
    (fdtAddrOf fdtSize - BitVec.ofNat 64 ramBaseAddr).toNat =
      (fdtAddrOf fdtSize).toNat - ramBaseAddr := by
  have hbase : (BitVec.ofNat 64 ramBaseAddr).toNat = ramBaseAddr := by decide
  have hstart := toNat_fdtAddrOf hsize
  rw [BitVec.toNat_sub_of_le (BitVec.le_def.mpr (by omega)), hbase]

/-- What is left of the RAM behind the start of a device tree has room for it. -/
theorem le_dtbSpace {fdtSize : Nat} (hsize : fdtSize ≤ ramSizeBytes) :
    (fdtSize : Int) ≤ (BitVec.ofNat 64 ramSizeBytes -
      (fdtAddrOf fdtSize - BitVec.ofNat 64 ramBaseAddr)).toInt := by
  have hram : (BitVec.ofNat 64 ramSizeBytes).toNat = ramSizeBytes := by decide
  have hoffset := toNat_dtbOffset hsize
  rw [toNat_fdtAddrOf hsize, Nat.add_sub_cancel_left] at hoffset
  have hspace : (BitVec.ofNat 64 ramSizeBytes -
      (fdtAddrOf fdtSize - BitVec.ofNat 64 ramBaseAddr)).toNat =
        ramSizeBytes - (ramSizeBytes - fdtSize) / 0x1000000 * 0x1000000 := by
    rw [BitVec.toNat_sub_of_le (BitVec.le_def.mpr (by omega)), hram, hoffset]
  have hsmall : 2 * ramSizeBytes < 2 ^ 64 := by decide
  rw [BitVec.toInt_eq_toNat_of_lt (by omega), hspace]
  omega

/-- The size checks let every device tree and every firmware pass that fits the RAM alone. -/
theorem exists_rvSocInit (w : Xlen) {contents : List Byte} (hfw : fw.length ≤ ramSizeBytes)
    (hdtb : contents.length ≤ ramSizeBytes) :
    ∃ s, rvSocInit w fw (some contents) none = .ok s := by
  have hspace := not_lt.mpr (le_dtbSpace hdtb)
  have hfw' : ¬ (ramSizeBytes : Int) < fw.length := by omega
  simp only [rvSocInit, Option.map_some, Option.getD_some, writeMemFromFile, if_neg hspace,
    if_neg hfw', Except.ok_bind, Except.pure_eq_ok]
  exact ⟨_, rfl⟩

/-! ### What is left of the images -/

/-- Bytes that a write does not reach are read as before. -/
theorem Memory.read_write_apart (mem : Memory) {a b m len : Nat} (value buffer : List Byte)
    (h : a + m ≤ b ∨ b + len ≤ a) :
    (mem.write a value m).read b buffer len = mem.read b buffer len := by
  rw [Memory.read, Memory.read]
  congr 1
  refine List.map_congr_left fun i hi => ?_
  have hlt : i < len := List.mem_range.mp hi
  rw [Memory.write, if_neg (by omega)]

def dtbRegion (contents : List Byte) : Region :=
  ⟨(fdtAddrOf contents.length).toNat, contents.length⟩

def fwRegion (fw : List Byte) : Region := ⟨ramBaseAddr, fw.length⟩

def ramBytes (ram : Memory) (r : Region) : List Byte := ram.read (r.start - ramBaseAddr) [] r.size

/-- The images are there: the firmware at the start of the RAM, and a device tree at its
address, inside the RAM and with no address of the firmware. -/
structure ImagesSurvive (ram : Memory) (fw : List Byte) (dtb : Option (List Byte)) : Prop where
  firmware : ramBytes ram (fwRegion fw) = fw
  deviceTree : ∀ contents, dtb = some contents → ramBytes ram (dtbRegion contents) = contents
  inRam : ∀ contents, dtb = some contents →
    ramRegion.Contains (dtbRegion contents).start (dtbRegion contents).size
  apart : ∀ contents, dtb = some contents →
    ¬ (fwRegion fw).Meets (dtbRegion contents).start (dtbRegion contents).size

/-- The device tree fits the RAM, and the firmware fits below the address that this leaves
for the device tree. -/
def FitsBelow (fwSize fdtSize : Nat) : Prop :=
  fdtSize ≤ ramSizeBytes ∧ fwSize ≤ (ramSizeBytes - fdtSize) / 0x1000000 * 0x1000000

theorem FitsBelow.dtb_start {fwSize fdtSize : Nat} (h : FitsBelow fwSize fdtSize) :
    fwSize ≤ (fdtAddrOf fdtSize).toNat - ramBaseAddr := by
  rw [toNat_fdtAddrOf h.1, Nat.add_sub_cancel_left]
  exact h.2

theorem ramBytes_dtb {contents : List Byte} (h : FitsBelow fw.length contents.length) :
    ramBytes ((ramWithDtb (some contents)).write 0 fw fw.length) (dtbRegion contents) =
      contents := by
  have hbelow : 0 + fw.length ≤ (fdtAddrOf contents.length).toNat - ramBaseAddr :=
    (Nat.zero_add _).symm ▸ h.dtb_start
  rw [ramBytes, dtbRegion, Memory.read_write_apart _ _ _ (.inl hbelow), ramWithDtb,
    toNat_dtbOffset h.1,
    Memory.read_write _ _ rfl, List.drop_nil, List.append_nil]

/-- Images that are there do not get in each other's way. -/
theorem ImagesSurvive.fitsBelow {ram : Memory} {contents : List Byte}
    (hfw : fw.length ≤ ramSizeBytes) (h : ImagesSurvive ram fw (some contents)) :
    FitsBelow fw.length contents.length := by
  obtain ⟨hlow, hhigh⟩ := h.inRam contents rfl
  have hapart := h.apart contents rfl
  simp only [ramRegion, dtbRegion] at hlow hhigh
  have hsize : contents.length ≤ ramSizeBytes := by omega
  have hstart := toNat_fdtAddrOf hsize
  simp only [Region.Meets, fwRegion, dtbRegion, hstart] at hapart
  refine ⟨hsize, ?_⟩
  -- an empty device tree lies at the end of the RAM
  simp only [ramSizeBytes] at *
  omega

/-- Of the images that are accepted the firmware is always there. The device tree is there if
and only if it fits the RAM and the firmware ends below it. -/
theorem imagesSurvive_iff (h : rvSocInit w fw dtb initrd = .ok s) :
    ImagesSurvive s.priv.ram fw dtb ↔
      ∀ contents, dtb = some contents → FitsBelow fw.length contents.length := by
  obtain ⟨hfw, hram⟩ := rvSocInit_ram h
  constructor
  · rintro hsurvive contents rfl
    exact hsurvive.fitsBelow hfw
  · intro hfits
    constructor
    case firmware =>
      rw [hram, ramBytes, fwRegion, Nat.sub_self, Memory.read_write _ _ rfl, List.drop_nil,
        List.append_nil]
    case deviceTree =>
      rintro contents rfl
      rw [hram]
      exact ramBytes_dtb (hfits contents rfl)
    case inRam =>
      rintro contents rfl
      obtain ⟨hsize, -⟩ := hfits contents rfl
      have hstart := toNat_fdtAddrOf hsize
      simp only [Region.Contains, ramRegion, dtbRegion, hstart]
      omega
    case apart =>
      rintro contents rfl
      obtain ⟨hsize, hbelow⟩ := hfits contents rfl
      have hstart := toNat_fdtAddrOf hsize
      simp only [Region.Meets, fwRegion, dtbRegion, hstart]
      omega

/-- A device tree above a firmware of one word, both far below their bounds. -/
theorem imagesSurvive_iff_small :
    ∃ s, rvSocInit .rv64 [0x6F, 0, 0, 0] (some [0xD0]) none = .ok s ∧
      ImagesSurvive s.priv.ram [0x6F, 0, 0, 0] (some [0xD0]) := by
  have hfw : [0x6F#8, 0, 0, 0].length ≤ ramSizeBytes := by decide
  have hdtb : [0xD0#8].length ≤ ramSizeBytes := by decide
  obtain ⟨s, h⟩ := exists_rvSocInit .rv64 hfw hdtb
  refine ⟨s, h, (imagesSurvive_iff h).mpr fun contents hcontents => ?_⟩
  obtain rfl := Option.some.inj hcontents
  exact ⟨by decide, by decide⟩

/-- A firmware that reaches the last 16 MiB of the RAM is accepted and written over the device
tree that lies there. -/
theorem firmware_over_dtb :
    ¬ ∀ (fw contents : List Byte) (s : RvCore .rv32 (RvSoc Devices)),
      rvSocInit .rv32 fw (some contents) none = .ok s →
      ImagesSurvive s.priv.ram fw (some contents) := by
  intro hall
  have hfw : (List.replicate 0x7000001 0x13#8).length = 0x7000001 := List.length_replicate
  have hdtb : [0xD0#8].length ≤ ramSizeBytes := by decide
  obtain ⟨s, h⟩ := exists_rvSocInit .rv32 (hfw.le.trans (by decide)) hdtb
  have hfits := (hall _ _ s h).fitsBelow (hfw.le.trans (by decide))
  rw [hfw] at hfits
  exact absurd hfits.2 (by decide)

end RiscvEm
