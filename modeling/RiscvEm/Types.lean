import Mathlib.Algebra.GroupWithZero.Nat
import Mathlib.Logic.Function.Basic
import Mathlib.Tactic.Common

/-!
The types every part of the emulator shares: the two builds, privilege levels,
return codes, bus accesses, and the ways a call can fail to return.
-/

namespace RiscvEm

/-- The build, as selected by the `RV64` macro. -/
inductive Xlen | rv32 | rv64
  deriving DecidableEq, Inhabited

abbrev Xlen.bits : Xlen → Nat
  | .rv32 => 32
  | .rv64 => 64

abbrev Xlen.bytes : Xlen → Nat
  | .rv32 => 4
  | .rv64 => 8

@[simp] theorem Xlen.bits_rv32 : Xlen.bits .rv32 = 32 := rfl

@[simp] theorem Xlen.bits_rv64 : Xlen.bits .rv64 = 64 := rfl

theorem Xlen.bits_ge (w : Xlen) : 32 ≤ w.bits := by cases w <;> decide

theorem Xlen.two_pow_le (w : Xlen) : 2 ^ 32 ≤ 2 ^ w.bits :=
  Nat.pow_le_pow_right (by decide) w.bits_ge

/-- A number of 32 bits is a word of either width. -/
theorem Xlen.toNat_ofNat (w : Xlen) {n : Nat} (h : n < 2 ^ 32) :
    (BitVec.ofNat w.bits n).toNat = n := by
  rw [BitVec.toNat_ofNat, Nat.mod_eq_of_lt (Nat.lt_of_lt_of_le h w.two_pow_le)]

abbrev RvUintXlen (w : Xlen) := BitVec w.bits

abbrev Byte := BitVec 8

def mromBaseAddr : Nat := 0x1000

inductive RvRet | ok | err
  deriving DecidableEq, Inhabited

/-- `privilege_level`. The negative value exists in the source so that
down-counting loops can step below user mode. -/
inductive PrivilegeLevel | unknown | user | supervisor | reserved | machine
  deriving DecidableEq, Inhabited

namespace PrivilegeLevel

/-- The value of the C enumerator. -/
def toInt : PrivilegeLevel → Int
  | unknown => -1
  | user => 0
  | supervisor => 1
  | reserved => 2
  | machine => 3

def ofField (n : Nat) : PrivilegeLevel :=
  match n % 4 with
  | 0 => user
  | 1 => supervisor
  | 2 => reserved
  | _ => machine

instance : LE PrivilegeLevel := ⟨fun a b => a.toInt ≤ b.toInt⟩

instance : LT PrivilegeLevel := ⟨fun a b => a.toInt < b.toInt⟩

instance (a b : PrivilegeLevel) : Decidable (a ≤ b) :=
  inferInstanceAs (Decidable (a.toInt ≤ b.toInt))

instance (a b : PrivilegeLevel) : Decidable (a < b) :=
  inferInstanceAs (Decidable (a.toInt < b.toInt))

theorem le_def {a b : PrivilegeLevel} : a ≤ b ↔ a.toInt ≤ b.toInt := Iff.rfl

theorem lt_def {a b : PrivilegeLevel} : a < b ↔ a.toInt < b.toInt := Iff.rfl

@[simp] theorem le_rfl' (a : PrivilegeLevel) : a ≤ a := Int.le_refl _

/-- `priv_level_max`, one past the last mode. -/
def max : Int := 4

def Legal (p : PrivilegeLevel) : Prop := p = user ∨ p = supervisor ∨ p = machine

instance (p : PrivilegeLevel) : Decidable p.Legal :=
  inferInstanceAs (Decidable (p = user ∨ p = supervisor ∨ p = machine))

theorem Legal.user_le {p : PrivilegeLevel} (h : p.Legal) : user ≤ p := by
  rcases h with rfl | rfl | rfl <;> decide

end PrivilegeLevel

inductive BusAccessType | read | write | instr
  deriving DecidableEq, Inhabited

/-- The value of the C enumerator, used as a shift count. -/
def BusAccessType.toNat : BusAccessType → Nat
  | .read => 0
  | .write => 1
  | .instr => 2

inductive DieMsg
  | addrMisaligned
  | unknownInstruction (instruction : BitVec 32) (pc cycle : Nat)
  | invalidAddress (address len : Nat)
  | uartSingleByte
  | uartWriteReg (address : Nat)
  | uartReadReg (address : Nat)
  | uartDmaMode
  | fileTooLarge (size memSize : Nat)
  deriving DecidableEq

inductive Halt
  /-- `die_msg`: the process prints the message and exits. -/
  | die (msg : DieMsg)
  /-- `while(1);` -/
  | hang
  /-- a null callback is called -/
  | nullCallback
  /-- an array is indexed past its end -/
  | outOfBounds
  deriving DecidableEq

/-- The ways a call into the core can fail to return. Only the core looks up trap
registers, so that the last one cannot come from a bus callback. -/
inductive Stop
  | halt (h : Halt)
  /-- the null result of `get_priv_regs` is dereferenced -/
  | nullPrivRegs
  deriving DecidableEq

instance : MonadLift (Except Halt) (Except Stop) := ⟨Except.mapError .halt⟩

/-- `bus_access_func`: the state behind `priv`, the access, the bytes of the
caller's buffer and the length give the return code, the buffer and the state
afterwards. -/
abbrev BusAccessFunc (w : Xlen) (σ : Type) :=
  σ → PrivilegeLevel → BusAccessType → RvUintXlen w → List Byte → Nat →
    Except Halt (RvRet × List Byte × σ)

end RiscvEm
