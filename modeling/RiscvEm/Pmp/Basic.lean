import RiscvEm.Helper

/-!
Physical memory protection: the registers and the routines of `pmp.c`.

The configuration registers are kept as the sixteen bytes that the source reads
and writes them as; the word `cfg[i]` holds the bytes `i * sizeof(rv_uint_xlen)`
and up, lowest byte first. The address registers follow them in memory.
-/

namespace RiscvEm

def pmpNrAddrRegs : Nat := 16

instance neZeroNrAddrRegs : NeZero 16 := ⟨by decide⟩

def pmpNrCfgRegs : Xlen → Nat
  | .rv32 => 4
  | .rv64 => 2

/-! ### Fields of a configuration byte -/

def pmpCfgLBit : Nat := 7
def pmpCfgABitOffs : Nat := 3

inductive PmpAddrMatching | off | tor | na4 | napot
  deriving DecidableEq, Inhabited

def PmpAddrMatching.ofField (a : Nat) : PmpAddrMatching :=
  match a % 4 with
  | 0 => off
  | 1 => tor
  | 2 => na4
  | _ => napot

structure Pmp (w : Xlen) where
  cfg : Fin 16 → Byte := fun _ => 0
  addr : Fin 16 → RvUintXlen w := fun _ => 0

variable {w : Xlen}

/-- The byte `n` of the register block: past the configuration bytes come those
of the first address registers. -/
def Pmp.byte (pmp : Pmp w) (n : Nat) : Byte :=
  if h : n < 16 then pmp.cfg ⟨n, h⟩
  else (pmp.addr (Fin.ofNat 16 ((n - 16) / w.bytes))).extractLsb' (8 * ((n - 16) % w.bytes)) 8

/-- The byte `i` of `new_val_ptr`. -/
def byteOf (v : RvUintXlen w) (i : Nat) : Byte := v.extractLsb' (8 * i) 8

def pmpReadCsrCfg (pmp : Pmp w) (regIndex : Nat) : RvUintXlen w :=
  BitVec.ofNat w.bits
    (leNat ((List.range w.bytes).map fun i => pmp.byte (regIndex * w.bytes + i)))

def pmpWriteCsrCfg (pmp : Pmp w) (currPriv : PrivilegeLevel) (regIndex : Nat)
    (csrVal : RvUintXlen w) : RvRet × Pmp w :=
  if currPriv ≠ .machine then (.err, pmp)
  else
    (.ok, { pmp with
      cfg := fun n =>
        if n.val / w.bytes = regIndex ∧ !checkBit (pmp.cfg n) pmpCfgLBit then
          byteOf csrVal (n.val % w.bytes)
        else pmp.cfg n })

def pmpReadCsrAddr (pmp : Pmp w) (regIndex : Fin 16) : RvUintXlen w := pmp.addr regIndex

def addrMode (cfg : Byte) : PmpAddrMatching :=
  .ofField (extract cfg pmpCfgABitOffs 2).toNat

def pmpWriteCsrAddr (pmp : Pmp w) (currPriv : PrivilegeLevel) (regIndex : Fin 16)
    (csrVal : RvUintXlen w) : RvRet × Pmp w :=
  let cfgRegIdx := regIndex.val / w.bytes
  let cfgIdx := regIndex.val % w.bytes
  let cfgPtr (i : Nat) : Byte := pmp.byte (cfgRegIdx * w.bytes + i)
  if currPriv ≠ .machine then (.err, pmp)
  -- the test against the number of address registers is made on the index
  -- within one configuration word, so that it always holds
  else if cfgIdx < pmpNrAddrRegs - 1 ∧ addrMode (cfgPtr (cfgIdx + 1)) = .tor ∧
      checkBit (cfgPtr (cfgIdx + 1)) pmpCfgLBit then (.ok, pmp)
  else if checkBit (cfgPtr cfgIdx) pmpCfgLBit then (.ok, pmp)
  else (.ok, { pmp with addr := Function.update pmp.addr regIndex csrVal })

/-- The shift is an `int` shift; its result is widened to `rv_uint_xlen`. -/
def getPmpNapotSizeFromPmpaddr (addr : RvUintXlen w) : RvUintXlen w :=
  (intShift (findFirstBitSet (~~~addr) + 2)).signExtend w.bits

def getPmpNapotAddrFromPmpaddr (addr : RvUintXlen w) : RvUintXlen w :=
  let size := getPmpNapotSizeFromPmpaddr addr
  let mask := (size / 2 - 1) >>> 2
  (addr - mask) <<< 2

/-- `pmp_addr_start` and `pmp_addr_size` as `pmp_mem_check` computes them for an
entry that is not off. -/
def pmpAddrStartSize (pmp : Pmp w) (i : Fin 16) : PmpAddrMatching → RvUintXlen w × RvUintXlen w
  | .tor =>
      let start := if i = 0 then 0#w.bits else pmp.addr (i - 1) <<< 2
      (start, pmp.addr i <<< 2 - start)
  | .napot =>
      if pmp.addr i = BitVec.allOnes w.bits then (0, BitVec.allOnes w.bits)
      else (getPmpNapotAddrFromPmpaddr (pmp.addr i), getPmpNapotSizeFromPmpaddr (pmp.addr i))
  | .na4 => (pmp.addr i <<< 2, 4)
  | .off => (0, 0)

/-- `ADDR_WITHIN`, with the sum taken at the width of an address. -/
def addrWithin (addr start size : RvUintXlen w) : Bool := start ≤ addr && addr < start + size

/-- The body of the two nested loops of `pmp_mem_check` for one entry: the result
if the entry decides, `none` if the search goes on. -/
def pmpEntryCheck (pmp : Pmp w) (currPriv : PrivilegeLevel) (addr : RvUintXlen w) (len : Nat)
    (accessType : BusAccessType) (i : Fin 16) : Option RvRet :=
  let cfg := pmp.cfg i
  -- only locked entries are looked at in machine mode
  if currPriv = .machine ∧ !checkBit cfg pmpCfgLBit then none
  else if addrMode cfg = .off then none
  else
    let (start, size) := pmpAddrStartSize pmp i (addrMode cfg)
    let allowed : Bool := checkBit (cfg &&& 0x7) accessType.toNat
    let addrEnd := addr + (BitVec.ofNat w.bits len - 1)
    let lowerAddrMatch := addrWithin addr start size
    let upperAddrMatch := addrWithin addrEnd start size
    if lowerAddrMatch && !upperAddrMatch || upperAddrMatch && !lowerAddrMatch then
      some (if currPriv = .machine ∧ allowed then .ok else .err)
    else if upperAddrMatch && lowerAddrMatch then some (if allowed then .ok else .err)
    else none

/-- The two nested loops visit the entries in order; the first that decides wins.
If none does the access is granted in machine mode only. -/
def pmpMemCheck (pmp : Pmp w) (currPriv : PrivilegeLevel) (addr : RvUintXlen w) (len : Nat)
    (accessType : BusAccessType) : RvRet :=
  match (List.finRange 16).findSome? (pmpEntryCheck pmp currPriv addr len accessType) with
  | some ret => ret
  | none => if currPriv = .machine then .ok else .err

end RiscvEm
