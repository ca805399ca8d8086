import RiscvEm.Devices.PlicConfined
import RiscvEm.Soc.Serves

/-!
What the callbacks behind the bus do with the buffer of the caller: a read is to store the
bytes of the access, all of them and no others, and a write is to load no others and to
store none.
-/

namespace RiscvEm

open Logged
open Except (Returns)

variable {w : Xlen} {σ : Type}

/-! ### The callbacks of the table -/

def busTargetTouching (useSimpleUart : Bool) (target : BusTarget) :
    TouchingFunc w (RvSoc Devices) := fun soc privLevel accessType offset value len =>
  match target with
  | .ram => do
      let (ret, value, mem) ←
        memoryBusTouching ramSizeBytes soc.ram privLevel accessType offset value len
      return (ret, value, { soc with ram := mem })
  | .mrom => do
      let (ret, value, mem) ←
        memoryBusTouching mromSizeBytes soc.mrom privLevel accessType offset value len
      return (ret, value, { soc with mrom := mem })
  | .fromMem => do
      let (ret, value, mem) ←
        memoryBusTouching fromSizeBytes soc.fromMem privLevel accessType offset value len
      return (ret, value, { soc with fromMem := mem })
  | .clint => do
      let (ret, value, clint) ←
        clintBusTouching soc.devices.clint privLevel accessType offset value len
      return (ret, value, { soc with devices := { soc.devices with clint := clint } })
  | .plic => do
      let (ret, value, plic) ←
        plicBusTouching soc.devices.plic privLevel accessType offset value len
      return (ret, value, { soc with devices := { soc.devices with plic := plic } })
  | .uart =>
      if useSimpleUart then do
        let (ret, value, uart) ←
          simpleUartBusTouching soc.devices.uart privLevel accessType offset value len
        return (ret, value, { soc with devices := { soc.devices with uart := uart } })
      else do
        let (ret, value, uart8250) ←
          uartBusTouching soc.devices.uart8250 privLevel accessType offset value len
        return (ret, value, { soc with devices := { soc.devices with uart8250 := uart8250 } })

theorem result_busTargetTouching (useSimpleUart : Bool) (target : BusTarget) (soc : RvSoc Devices)
    (privLevel : PrivilegeLevel) (accessType : BusAccessType) (offset : RvUintXlen w)
    (value : List Byte) (len : Nat) :
    (busTargetTouching useSimpleUart target soc privLevel accessType offset value len).result =
      busTargetAccess (deviceAccess useSimpleUart) target soc privLevel accessType offset value
        len := by
  cases target with
  | ram | mrom | fromMem =>
      simp only [busTargetTouching, busTargetAccess, result_bind, result_memoryBusTouching,
        result_pure, Except.pure_eq_ok]
  | clint =>
      simp only [busTargetTouching, busTargetAccess, deviceAccess, result_bind,
        result_clintBusTouching, result_pure, Except.pure_eq_ok, bind_assoc, Except.ok_bind]
  | plic =>
      simp only [busTargetTouching, busTargetAccess, deviceAccess, result_bind,
        result_plicBusTouching, result_pure, Except.pure_eq_ok, bind_assoc, Except.ok_bind]
  | uart =>
      cases useSimpleUart with
      | true =>
          simp only [busTargetTouching, busTargetAccess, deviceAccess, if_true, result_bind,
            result_simpleUartBusTouching, result_pure, Except.pure_eq_ok, bind_assoc,
            Except.ok_bind]
      | false =>
          simp only [busTargetTouching, busTargetAccess, deviceAccess, Bool.false_eq_true, if_false,
            result_bind, result_uartBusTouching, result_pure, Except.pure_eq_ok, bind_assoc,
            Except.ok_bind]

/-! ### The contract -/

def LoadsByte (log : List Touch) (i : Nat) : Prop := ∃ n, .loadValue n ∈ log ∧ i < n

def StoresByte (log : List Touch) (i : Nat) : Prop := ∃ n, .storeValue n ∈ log ∧ i < n

/-- A read stores the first `len` bytes of the buffer, a write loads no others and stores
none. -/
def BufferContract (log : List Touch) (accessType : BusAccessType) (len : Nat) : Prop :=
  if accessType = .write then ∀ i, (LoadsByte log i → i < len) ∧ ¬ StoresByte log i
  else ∀ i, StoresByte log i ↔ i < len

/-- The callback does not stop the emulator with a message. -/
def Accepts {α : Type} (x : Except Halt α) : Prop := ∀ msg, x ≠ .error (.die msg)

theorem Accepts.of_bind {α β : Type} {x : Except Halt α} {f : α → Except Halt β}
    (h : Accepts (x >>= f)) : Accepts x := by
  rintro msg rfl
  exact h msg rfl

/-- The accesses that keep the contract, by what is behind the entry. -/
def KeepsBuffer (useSimpleUart : Bool) (accessType : BusAccessType) (offset len : Nat) :
    BusTarget → Prop
  | .ram | .mrom | .fromMem => True
  | .clint => accessType = .write ∨ len = 0 ∨ getU8ArrIndexOffs offset ≠ none
  | .plic =>
      if accessType = .write then getU8RegPtr offset = none ∨ 4 ≤ len
      else len = 0 ∨ getU8RegPtr offset ≠ none
  | .uart => accessType = .write ∨ useSimpleUart = true

section Callbacks

variable {log : List Touch} {privLevel : PrivilegeLevel} {accessType : BusAccessType}
  {offset : RvUintXlen w} {value : List Byte} {len : Nat}

theorem bufferContract_of_write (hwrite : accessType = .write)
    (hload : ∀ n, .loadValue n ∈ log → n ≤ len) (hstore : ∀ n, .storeValue n ∉ log) :
    BufferContract log accessType len := by
  rw [BufferContract, if_pos hwrite]
  intro i
  constructor
  · rintro ⟨n, hmem, hi⟩
    exact Nat.lt_of_lt_of_le hi (hload n hmem)
  · rintro ⟨n, hmem, -⟩
    exact hstore n hmem

theorem bufferContract_of_read (hread : accessType ≠ .write)
    (hstore : ∀ n, .storeValue n ∈ log ↔ n = len) : BufferContract log accessType len := by
  rw [BufferContract, if_neg hread]
  intro i
  constructor
  · rintro ⟨n, hmem, hi⟩
    rwa [(hstore n).mp hmem] at hi
  · intro hi
    exact ⟨len, (hstore len).mpr rfl, hi⟩

theorem bufferContract_read_nil (hread : accessType ≠ .write) (hstore : ∀ n, .storeValue n ∉ log) :
    BufferContract log accessType len ↔ len = 0 := by
  rw [BufferContract, if_neg hread]
  constructor
  · intro h
    by_contra hlen
    obtain ⟨n, hmem, -⟩ := (h 0).mpr (Nat.pos_of_ne_zero hlen)
    exact hstore n hmem
  · rintro rfl i
    refine iff_of_false ?_ (Nat.not_lt_zero i)
    rintro ⟨n, hmem, -⟩
    exact hstore n hmem

theorem bufferContract_memory (size : Nat) (mem : Memory) : BufferContract
    (memoryBusTouching size mem privLevel accessType offset value len).log accessType len := by
  by_cases hwrite : accessType = .write
  · refine bufferContract_of_write hwrite ?_ ?_ <;> simp [memoryBusTouching, hwrite]
  · refine bufferContract_of_read hwrite ?_
    simp [memoryBusTouching, hwrite]

theorem bufferContract_clint_iff (clint : Clint) : BufferContract
    (clintBusTouching clint privLevel accessType offset value len).log accessType len ↔
      accessType = .write ∨ len = 0 ∨ getU8ArrIndexOffs offset.toNat ≠ none := by
  by_cases hwrite : accessType = .write
  · refine iff_of_true ?_ (.inl hwrite)
    refine bufferContract_of_write hwrite ?_ ?_ <;>
      · cases hreg : getU8ArrIndexOffs offset.toNat <;> simp [clintBusTouching, hwrite, hreg]
  · cases hreg : getU8ArrIndexOffs offset.toNat with
    | none =>
        rw [bufferContract_read_nil hwrite (by simp [clintBusTouching, hreg])]
        simp [hwrite]
    | some arrIndexOffs =>
        refine iff_of_true (bufferContract_of_read hwrite ?_) (by simp)
        simp [clintBusTouching, hwrite, hreg]

/-- The loads and stores of the buffer at a register, also where the access leaves the
structure. -/
theorem plic_write_values {plic : Plic} {u8Ptr : Nat} {isClaimComplete : Bool}
    (hreg : getU8RegPtr offset.toNat = some (u8Ptr, isClaimComplete))
    (hwrite : accessType = .write) {n : Nat} :
    (.loadValue n ∈ (plicBusTouching plic privLevel accessType offset value len).log →
      n = len ∨ n = 4) ∧
    .storeValue n ∉ (plicBusTouching plic privLevel accessType offset value len).log := by
  -- a completion does not touch the buffer
  have hrest (plic : Plic) (t : Touch) (ht : ∀ irqReg, t ≠ .claimedBits irqReg) : t ∉ (do
      let plic ← if isClaimComplete then
          if value.length < 4 then quiet (.error .outOfBounds)
          else plicCompleteTouching plic (leNat (value.take 4))
        else pure plic
      return (.ok, value, plicCheckSanity plic) :
        Logged Touch Halt (RvRet × List Byte × Plic)).log := by
    cases isClaimComplete with
    | false => simp
    | true =>
        by_cases hvalue : value.length < 4
        · simp [hvalue]
        · simp [hvalue, plicCompleteTouching, ht]
  simp only [plicBusTouching, hreg, if_pos hwrite, mem_log_bind, log_copyIn, log_emit,
    List.mem_cons, List.not_mem_nil, or_false, reduceCtorEq, false_or, Touch.loadValue.injEq]
  constructor
  · rintro (hlen | ⟨_, -, hfour | ⟨_, -, hmem⟩⟩)
    · exact .inl hlen
    · exact .inr hfour
    · exact absurd hmem (hrest _ _ (by simp))
  · rintro ⟨_, -, _, -, hmem⟩
    exact absurd hmem (hrest _ _ (by simp))

theorem plic_read_values {plic : Plic} {u8Ptr : Nat} {isClaimComplete : Bool}
    (hreg : getU8RegPtr offset.toNat = some (u8Ptr, isClaimComplete))
    (hread : accessType ≠ .write) {n : Nat} :
    .storeValue n ∈ (plicBusTouching plic privLevel accessType offset value len).log ↔ n = len := by
  simp only [plicBusTouching, hreg, if_neg hread, mem_log_bind, log_copyOut, log_emit]
  cases isClaimComplete with
  | false => simp
  | true => simp [mem_log_plic_claim]

theorem bufferContract_plic_iff (plic : Plic) : BufferContract
    (plicBusTouching plic privLevel accessType offset value len).log accessType len ↔
      if accessType = .write then getU8RegPtr offset.toNat = none ∨ 4 ≤ len
      else len = 0 ∨ getU8RegPtr offset.toNat ≠ none := by
  cases hreg : getU8RegPtr offset.toNat with
  | none =>
      have hlog : (plicBusTouching plic privLevel accessType offset value len).log = [] := by
        rw [plicBusTouching_none hreg, log_pure]
      by_cases hwrite : accessType = .write
      · rw [if_pos hwrite]
        exact iff_of_true (bufferContract_of_write hwrite (by simp [hlog]) (by simp [hlog]))
          (.inl rfl)
      · rw [if_neg hwrite, bufferContract_read_nil hwrite (by simp [hlog])]
        simp
  | some reg =>
      obtain ⟨u8Ptr, isClaimComplete⟩ := reg
      by_cases hwrite : accessType = .write
      · rw [if_pos hwrite, or_iff_right (Option.some_ne_none _)]
        constructor
        · intro h
          by_contra hlen
          -- the four bytes of `tmp_val` are loaded behind the copy, which stays in the structure
          obtain ⟨array, left, -, -, hpoints⟩ := Plic.getU8RegPtr_pointsInto hreg
          have hstruct : 4 * Plic.claimWord + 7 ≤ 4 * Plic.nrWords := by decide
          have hleft := hpoints.left_pos
          have hclaim := hpoints.le_claim
          have hload : .loadValue 4 ∈
              (plicBusTouching plic privLevel accessType offset value len).log :=
            (mem_log_plic_write plic privLevel value hreg hwrite (by omega) _).mpr
              (.inr (.inr (.inl rfl)))
          rw [BufferContract, if_pos hwrite] at h
          exact hlen ((h 3).1 ⟨4, hload, by decide⟩)
        · intro hlen
          refine bufferContract_of_write hwrite (fun n hmem => ?_)
            fun n => (plic_write_values hreg hwrite).2
          rcases (plic_write_values hreg hwrite).1 hmem with rfl | rfl
          · exact Nat.le_refl _
          · exact hlen
      · rw [if_neg hwrite]
        exact iff_of_true (bufferContract_of_read hwrite fun n => plic_read_values hreg hwrite)
          (.inr (Option.some_ne_none _))

theorem bufferContract_simpleUart (uart : SimpleUart)
    (haccepts : Accepts (simpleUartBusAccess uart privLevel accessType offset value len)) :
    BufferContract (simpleUartBusTouching uart privLevel accessType offset value len).log
      accessType len := by
  have hlen : len = 1 := by
    by_contra hlen
    exact haccepts .uartSingleByte (by rw [simpleUartBusAccess, if_pos hlen])
  subst hlen
  by_cases hwrite : accessType = .write
  · refine bufferContract_of_write hwrite ?_ ?_ <;> simp [simpleUartBusTouching, hwrite]
  · have hreg : offset.toNat < 2 := by
      by_contra hreg
      refine haccepts (.uartReadReg offset.toNat) ?_
      rw [simpleUartBusAccess, if_neg (fun h => h rfl), if_neg hwrite]
      split
      · omega
      · omega
      · rfl
    obtain ⟨answer, hanswer⟩ :
        Returns (simpleUartBusAccess uart privLevel accessType offset value 1) :=
      simpleUartBusAccess_returns_iff.mpr ⟨rfl, hreg⟩
    refine bufferContract_of_read hwrite ?_
    simp [simpleUartBusTouching, hwrite, hanswer]

theorem bufferContract_uart_iff (uart : UartNs8250)
    (haccepts : Accepts (uartBusAccess uart privLevel accessType offset value len)) :
    BufferContract (uartBusTouching uart privLevel accessType offset value len).log
      accessType len ↔ accessType = .write := by
  have hlen : len = 1 := by
    by_contra hlen
    exact haccepts .uartSingleByte (by rw [uartBusAccess, if_pos hlen])
  subst hlen
  by_cases hwrite : accessType = .write
  · refine iff_of_true ?_ hwrite
    refine bufferContract_of_write hwrite ?_ ?_ <;> simp [uartBusTouching, hwrite]
  · refine iff_of_false ?_ hwrite
    have hbytes : 1 < w.bytes := by cases w <;> decide
    cases hanswer : uartRead uart offset.toNat with
    | error e =>
        rw [bufferContract_read_nil hwrite (by simp [uartBusTouching, hwrite, hanswer])]
        exact Nat.one_ne_zero
    | ok answer =>
        obtain ⟨outval, uart'⟩ := answer
        cases outval with
        | none =>
            rw [bufferContract_read_nil hwrite (by simp [uartBusTouching, hwrite, hanswer])]
            exact Nat.one_ne_zero
        | some v =>
            -- the second byte is stored as well
            intro h
            rw [BufferContract, if_neg hwrite] at h
            exact Nat.lt_irrefl 1 ((h 1).mp ⟨w.bytes, by simp [uartBusTouching, hwrite, hanswer],
              hbytes⟩)

end Callbacks

/-! ### The buffer that is returned -/

section Returned

variable {privLevel : PrivilegeLevel} {accessType : BusAccessType} {offset : RvUintXlen w}
  {value : List Byte} {len : Nat}

def KeepsUnstored {σ : Type} (value : List Byte)
    (access : Logged Touch Halt (RvRet × List Byte × σ)) : Prop :=
  ∀ answer, access.result = .ok answer → ∀ i, ¬ StoresByte access.log i →
    answer.2.1[i]? = value[i]?

theorem keepsUnstored_of_same {σ : Type} {access : Logged Touch Halt (RvRet × List Byte × σ)}
    (h : ∀ answer, access.result = .ok answer → answer.2.1 = value) :
    KeepsUnstored value access := by
  intro answer hanswer i _
  rw [h answer hanswer]

theorem keepsUnstored_of_overwrite {σ : Type} {n : Nat}
    {access : Logged Touch Halt (RvRet × List Byte × σ)}
    (h : ∀ answer, access.result = .ok answer → .storeValue n ∈ access.log ∧
      ∃ bytes : List Byte, bytes.length = n ∧ answer.2.1 = bytes ++ value.drop n) :
    KeepsUnstored value access := by
  intro answer hanswer i hi
  obtain ⟨hmem, bytes, rfl, hvalue⟩ := h answer hanswer
  have hle : bytes.length ≤ i := Nat.le_of_not_lt fun hlt => hi ⟨_, hmem, hlt⟩
  rw [hvalue, List.getElem?_append_right hle, List.getElem?_drop, Nat.add_sub_cancel' hle]

/-- The state that is stored with the answer does not matter. -/
theorem KeepsUnstored.bind {σ σ' : Type} {access : Logged Touch Halt (RvRet × List Byte × σ)}
    {f : RvRet × List Byte × σ → Logged Touch Halt (RvRet × List Byte × σ')}
    (h : KeepsUnstored value access)
    (hf : ∀ answer, ∃ state, f answer = pure (answer.1, answer.2.1, state)) :
    KeepsUnstored value (access >>= f) := by
  intro answer hanswer i hi
  have hnil (a : RvRet × List Byte × σ) : (f a).log = [] := by
    obtain ⟨state, hstate⟩ := hf a
    rw [hstate, log_pure]
  rw [log_bind_of_nil hnil] at hi
  rw [result_bind] at hanswer
  obtain ⟨answer', hanswer', hrest⟩ := Except.bind_eq_ok.mp hanswer
  obtain ⟨state, hstate⟩ := hf answer'
  rw [hstate, result_pure] at hrest
  obtain rfl := Except.ok.inj hrest
  exact h answer' hanswer' i hi

theorem keepsUnstored_memory (size : Nat) (mem : Memory) :
    KeepsUnstored value (memoryBusTouching size mem privLevel accessType offset value len) := by
  by_cases hwrite : accessType = .write
  · refine keepsUnstored_of_same fun answer h => ?_
    rw [result_memoryBusTouching, memoryBusAccess, if_pos hwrite] at h
    split at h
    · cases h
    · rw [← Except.ok.inj h]
  · refine keepsUnstored_of_overwrite (n := len) fun answer h => ⟨?_, ?_⟩
    · simp [memoryBusTouching, hwrite]
    · rw [result_memoryBusTouching, memoryBusAccess, if_neg hwrite] at h
      split at h
      · cases h
      · rw [← Except.ok.inj h]
        exact ⟨_, by simp, rfl⟩

theorem keepsUnstored_clint (clint : Clint) :
    KeepsUnstored value (clintBusTouching clint privLevel accessType offset value len) := by
  cases hreg : getU8ArrIndexOffs offset.toNat with
  | none =>
      refine keepsUnstored_of_same fun answer h => ?_
      simp only [clintBusTouching, hreg, result_pure] at h
      rw [← Except.ok.inj h]
  | some arrIndexOffs =>
      by_cases hwrite : accessType = .write
      · refine keepsUnstored_of_same fun answer h => ?_
        simp only [result_clintBusTouching, clintBusAccess, hreg, if_pos hwrite] at h
        split at h
        · cases h
        · rw [← Except.ok.inj h]
      · refine keepsUnstored_of_overwrite (n := len) fun answer h => ⟨?_, ?_⟩
        · simp [clintBusTouching, hreg, hwrite]
        · simp only [result_clintBusTouching, clintBusAccess, hreg, if_neg hwrite] at h
          split at h
          · cases h
          · rw [← Except.ok.inj h]
            exact ⟨_, by simp, rfl⟩

theorem keepsUnstored_plic (plic : Plic) :
    KeepsUnstored value (plicBusTouching plic privLevel accessType offset value len) := by
  cases hreg : getU8RegPtr offset.toNat with
  | none =>
      refine keepsUnstored_of_same fun answer h => ?_
      rw [plicBusTouching_none hreg, result_pure] at h
      rw [← Except.ok.inj h]
  | some reg =>
      obtain ⟨u8Ptr, isClaimComplete⟩ := reg
      by_cases hwrite : accessType = .write
      · refine keepsUnstored_of_same fun answer h => ?_
        simp only [result_plicBusTouching, plicBusAccess, hreg, if_pos hwrite] at h
        repeat' split at h
        · cases h
        · cases h
        · obtain ⟨_, -, hanswer⟩ := Except.bind_eq_ok.mp h
          rw [← Except.ok.inj hanswer]
        · rw [← Except.ok.inj h]
      · refine keepsUnstored_of_overwrite (n := len) fun answer h => ⟨?_, ?_⟩
        · exact (plic_read_values hreg hwrite).mpr rfl
        · simp only [result_plicBusTouching, plicBusAccess, hreg, if_neg hwrite] at h
          repeat' split at h
          · cases h
          · obtain ⟨_, -, hanswer⟩ := Except.bind_eq_ok.mp h
            rw [← Except.ok.inj hanswer]
            exact ⟨_, by simp, rfl⟩
          · rw [← Except.ok.inj h]
            exact ⟨_, by simp, rfl⟩

theorem keepsUnstored_simpleUart (uart : SimpleUart) :
    KeepsUnstored value (simpleUartBusTouching uart privLevel accessType offset value len) := by
  by_cases hlen : len = 1
  · subst hlen
    by_cases hwrite : accessType = .write
    · refine keepsUnstored_of_same fun answer h => ?_
      simp only [result_simpleUartBusTouching, simpleUartBusAccess, ne_eq, not_true_eq_false,
        if_false, if_pos hwrite] at h
      split at h
      · obtain ⟨_, -, hanswer⟩ := Except.bind_eq_ok.mp h
        rw [← Except.ok.inj hanswer]
      · rw [← Except.ok.inj h]
      · cases h
    · refine keepsUnstored_of_overwrite (n := 1) fun answer h => ⟨?_, ?_⟩
      · rw [result_simpleUartBusTouching] at h
        simp [simpleUartBusTouching, hwrite, h]
      · simp only [result_simpleUartBusTouching, simpleUartBusAccess, ne_eq, not_true_eq_false,
          if_false, if_neg hwrite] at h
        split at h
        · obtain ⟨⟨bytes, _⟩, -, hanswer⟩ := Except.bind_eq_ok.mp h
          rw [← Except.ok.inj hanswer]
          exact ⟨[bytes.headD 0], rfl, rfl⟩
        · rw [← Except.ok.inj h]
          exact ⟨[uart.status], rfl, rfl⟩
        · cases h
  · refine keepsUnstored_of_same fun answer h => ?_
    rw [result_simpleUartBusTouching, simpleUartBusAccess, if_pos hlen] at h
    cases h

theorem keepsUnstored_uart (uart : UartNs8250) :
    KeepsUnstored value (uartBusTouching uart privLevel accessType offset value len) := by
  by_cases hlen : len = 1
  · subst hlen
    by_cases hwrite : accessType = .write
    · refine keepsUnstored_of_same fun answer h => ?_
      simp only [result_uartBusTouching, uartBusAccess, ne_eq, not_true_eq_false, if_false,
        if_pos hwrite] at h
      obtain ⟨_, -, hanswer⟩ := Except.bind_eq_ok.mp h
      rw [← Except.ok.inj hanswer]
    · cases hread : uartRead uart offset.toNat with
      | error e =>
          refine keepsUnstored_of_same fun answer h => ?_
          simp [uartBusTouching, hwrite, hread] at h
      | ok outcome =>
          obtain ⟨outval, uart'⟩ := outcome
          cases outval with
          | none =>
              refine keepsUnstored_of_same fun answer h => ?_
              simp only [result_uartBusTouching, uartBusAccess, ne_eq, not_true_eq_false, if_false,
                if_neg hwrite, hread, Except.ok_bind] at h
              rw [← Except.ok.inj h]
          | some v =>
              refine keepsUnstored_of_overwrite (n := w.bytes) fun answer h => ⟨?_, ?_⟩
              · simp [uartBusTouching, hwrite, hread]
              · simp only [result_uartBusTouching, uartBusAccess, ne_eq, not_true_eq_false,
                  if_false, if_neg hwrite, hread, Except.ok_bind] at h
                split at h
                · cases h
                · rw [← Except.ok.inj h]
                  exact ⟨leBytes w.bytes v.toNat, length_leBytes _ _, rfl⟩
  · refine keepsUnstored_of_same fun answer h => ?_
    rw [result_uartBusTouching, uartBusAccess, if_pos hlen] at h
    cases h

/-- Whatever is behind the entry, the bytes of the buffer that the log does not call stored
are returned as they were. -/
theorem keepsUnstored_busTarget (useSimpleUart : Bool) (target : BusTarget)
    (soc : RvSoc Devices) : KeepsUnstored value
      (busTargetTouching useSimpleUart target soc privLevel accessType offset value len) := by
  cases target with
  | ram | mrom | fromMem => exact (keepsUnstored_memory _ _).bind fun _ => ⟨_, rfl⟩
  | clint => exact (keepsUnstored_clint _).bind fun _ => ⟨_, rfl⟩
  | plic => exact (keepsUnstored_plic _).bind fun _ => ⟨_, rfl⟩
  | uart =>
      cases useSimpleUart with
      | true => exact (keepsUnstored_simpleUart _).bind fun _ => ⟨_, rfl⟩
      | false => exact (keepsUnstored_uart _).bind fun _ => ⟨_, rfl⟩

end Returned

/-! ### The accesses that keep the contract -/

/-- Of the accesses that are accepted exactly these keep the contract. -/
theorem bufferContract_iff (useSimpleUart : Bool) (target : BusTarget) (soc : RvSoc Devices)
    (privLevel : PrivilegeLevel) {accessType : BusAccessType} {offset : RvUintXlen w}
    {value : List Byte} {len : Nat}
    (haccepts : Accepts (busTargetAccess (deviceAccess useSimpleUart) target soc privLevel
      accessType offset value len)) :
    BufferContract (busTargetTouching useSimpleUart target soc privLevel accessType offset value
        len).log accessType len ↔
      KeepsBuffer useSimpleUart accessType offset.toNat len target := by
  cases target with
  | ram | mrom | fromMem =>
      rw [busTargetTouching, log_bind_of_nil fun _ => rfl]
      exact iff_of_true (bufferContract_memory _ _) trivial
  | clint =>
      rw [busTargetTouching, log_bind_of_nil fun _ => rfl]
      exact bufferContract_clint_iff soc.devices.clint
  | plic =>
      rw [busTargetTouching, log_bind_of_nil fun _ => rfl]
      exact bufferContract_plic_iff soc.devices.plic
  | uart =>
      cases useSimpleUart with
      | true =>
          simp only [busTargetAccess, deviceAccess, if_true] at haccepts
          simp only [busTargetTouching, if_true]
          rw [log_bind_of_nil fun _ => rfl]
          exact iff_of_true (bufferContract_simpleUart soc.devices.uart haccepts.of_bind.of_bind)
            (.inr rfl)
      | false =>
          simp only [busTargetAccess, deviceAccess, Bool.false_eq_true, if_false] at haccepts
          simp only [busTargetTouching, Bool.false_eq_true, if_false]
          rw [log_bind_of_nil fun _ => rfl, KeepsBuffer, or_iff_left Bool.false_ne_true]
          exact bufferContract_uart_iff soc.devices.uart8250 haccepts.of_bind.of_bind

theorem bufferContract_iff_msip :
    BufferContract (busTargetTouching true .clint { devices := {} } .machine .read
        (0 : RvUintXlen .rv64) [0, 0, 0, 0] 4).log .read 4 :=
  (bufferContract_iff true .clint { devices := {} } .machine fun _ h => by cases h).mpr
    (.inr (.inr (by decide)))

/-- The 8250 stores a whole word at a buffer of one byte. -/
theorem lsr_read_past_buffer :
    ¬ ∀ (useSimpleUart : Bool) (target : BusTarget) (soc : RvSoc Devices)
      (privLevel : PrivilegeLevel) (accessType : BusAccessType) (offset : RvUintXlen .rv64)
      (value : List Byte) (len : Nat), value.length = len →
        Accepts (busTargetAccess (deviceAccess useSimpleUart) target soc privLevel accessType
          offset value len) →
        BufferContract (busTargetTouching useSimpleUart target soc privLevel accessType offset
          value len).log accessType len := by
  intro h
  have hcontract := h false .uart { devices := {} } .machine .read 5 [0] 1 rfl
    fun _ h => by cases h
  have hstore : .storeValue 8 ∈ (busTargetTouching false .uart { devices := {} } .machine .read
      (5 : RvUintXlen .rv64) [0] 1).log := by
    decide
  rw [BufferContract, if_neg (show ¬ BusAccessType.read = .write by decide)] at hcontract
  exact absurd ((hcontract 1).mp ⟨8, hstore, by decide⟩) (Nat.lt_irrefl 1)

end RiscvEm
