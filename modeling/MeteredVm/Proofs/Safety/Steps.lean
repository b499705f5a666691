import MeteredVm.Proofs.Machine.Steps
import MeteredVm.Proofs.Safety.Decoding
import MeteredVm.Proofs.Safety.Memory

/-!
Steps of a machine with every operation on their way checked. An instruction may name any register here, and a register
that there is not crashes it, as does every word that is cut out of its buffer at the wrong place. The main statement is
that no step of a machine with well-formed memory crashes, whatever its program is and wherever it is executed, and that
memory stays well-formed.
-/

set_option autoImplicit false
set_option relaxedAutoImplicit false

namespace MeteredVm

open AddressSpace Checked

namespace LittleEndian

private theorem take_write (n : Nat) {count width : Nat} (le : count ≤ width) :
    (write n width).take count = write n count := by
  induction width generalizing n count with
  | zero =>
    obtain rfl := Nat.le_zero.mp le
    rfl
  | succ width ih =>
    cases count with
    | zero => rfl
    | succ count => rw [write, write, List.take_succ_cons, ih (n / 256) (Nat.le_of_succ_le_succ le)]

private theorem value_zeroes (count : Nat) : value (List.replicate count 0) = 0 := by
  induction count with
  | zero => rfl
  | succ count ih =>
    rw [List.replicate_succ, value, ih]
    rfl

private theorem value_append_zeroes (bytes : List UInt8) (count : Nat) :
    value (bytes ++ List.replicate count 0) = value bytes := by
  induction bytes with
  | nil => exact value_zeroes count
  | cons byte rest ih => rw [List.cons_append, value, ih, value]

end LittleEndian

private theorem toList_overwrite_blank {bytes : List UInt8} {size : Nat} (le : bytes.length ≤ size) :
    (overwrite (Array.replicate size 0) 0 bytes).toList = bytes ++ List.replicate (size - bytes.length) 0 := by
  apply List.ext_getElem?
  intro i
  rw [Array.getElem?_toList, getElem?_overwrite, Array.size_replicate, List.getElem?_append]
  by_cases inside : i < bytes.length
  · rw [if_pos (by omega), if_pos inside, Nat.sub_zero]
  · rw [if_neg (by omega), if_neg inside, Array.getElem?_replicate, List.getElem?_replicate]
    have same : i < size ↔ i - bytes.length < size - bytes.length := by omega
    simp only [same]

private theorem Memory.size_loadInto {memory : Memory} {buffer bytes : Array UInt8} {address : UInt64}
    (loaded : memory.loadInto buffer address = .ok bytes) : bytes.size = buffer.size := by
  unfold loadInto at loaded
  split at loaded
  · cases loaded
  · obtain rfl := Except.ok.inj loaded
    exact memory.pages.size_read _ buffer

namespace Machine.Checked

def assign (machine : Machine) (dst : Nat) (value : UInt64) (next : UInt32) : Except Crash Machine := do
  let registers ← writeRegister machine.registers dst value
  return { machine with registers, pc := next }

def indirectAddress (base : UInt64) (offset : Int32) : UInt32 := (base + offset.toInt64.toUInt64).toUInt32

/-- Loads a register from memory, by way of the first bytes of a buffer of eight. -/
def loadFrom (machine : Machine) (kind : LoadKind) (dst : Nat) (address next : UInt32) : Except Crash Machine := do
  let buffer := Array.replicate 8 0
  let part ← slice buffer 0 kind.width
  match ← Memory.Checked.loadInto machine.memory part address.toUInt64 with
  | .error _ => return machine.stop .panic
  | .ok bytes =>
    let word ← copyInto buffer 0 kind.width bytes
    assign machine dst (kind.extend (UInt64.ofNat (LittleEndian.value word.toList))) next

/-- Stores the first of the eight bytes of a word to memory. -/
def storeTo (machine : Machine) (kind : StoreKind) (value : UInt64) (address next : UInt32) : Except Crash Machine := do
  let bytes ← slice (LittleEndian.write value.toNat 8).toArray 0 kind.width
  match ← Memory.Checked.store machine.memory address.toUInt64 bytes with
  | .error _ => return machine.stop .panic
  | .ok memory => return { machine with memory, pc := next }

/-- Grows the heap by what a register says, if that is a word of 32 bits. -/
def growHeap (machine : Machine) (dst : Nat) (size : UInt64) (next : UInt32) : Except Crash Machine := do
  match ← grown with
  | some (previous, memory) =>
    let after ← assign machine dst (UInt64.ofNat previous) next
    return { after with memory }
  | none => assign machine dst 0 next
where
  grown : Except Crash (Option (Nat × Memory)) :=
    if size.toNat < AddressSpace.size then Memory.Checked.grow machine.memory size.toUInt32 else .ok none

def execute (machine : Machine) (next : UInt32) : Instruction Nat → Except Crash Machine
  | .trap => .ok (machine.stop .panic)
  | .fallthrough => .ok { machine with pc := next }
  | .ecalli index => .ok { machine with pc := next, status := .hostCall index }
  | .loadImm64 dst value => assign machine dst value next
  | .jump target => .ok (machine.jumpTo target)
  | .jumpInd base offset => do
    let base ← readRegister machine.registers base
    let target := (base + offset.toUInt64).toUInt32
    return if target = haltAddress then machine.stop .halt else machine.jumpTo target
  | .loadImm dst value => assign machine dst value.toInt64.toUInt64 next
  | .load kind dst address => loadFrom machine kind dst address next
  | .store kind src address => do
    let value ← readRegister machine.registers src
    storeTo machine kind value address next
  | .moveReg dst src => do
    let value ← readRegister machine.registers src
    assign machine dst value next
  | .sbrk dst size => do
    let size ← readRegister machine.registers size
    growHeap machine dst size next
  | .storeInd kind src base offset => do
    let value ← readRegister machine.registers src
    let base ← readRegister machine.registers base
    storeTo machine kind value (indirectAddress base offset) next
  | .loadInd kind dst base offset => do
    let base ← readRegister machine.registers base
    loadFrom machine kind dst (indirectAddress base offset) next
  | .addImm64 dst src value => do
    let word ← readRegister machine.registers src
    assign machine dst (word + value.toInt64.toUInt64) next
  | .branch condition a b target => do
    let a ← readRegister machine.registers a
    let b ← readRegister machine.registers b
    return if condition.holds a b then machine.jumpTo target else { machine with pc := next }
  | .alu op dst a b => do
    let a ← readRegister machine.registers a
    let b ← readRegister machine.registers b
    assign machine dst (op.apply a b) next

def step (machine : Machine) : Except Crash Machine :=
  if machine.status ≠ .continuing then .ok machine
  else do
    match ← Checked.decode machine.program machine.pc with
    | .error _ => return machine.stop .panic
    | .ok (instruction, next) =>
      let gas := machine.gas.deduct machine.instructionGas.toUInt64
      let paid := { machine with gas }
      if gas.isOverdrawn then return paid.stop .outOfGas else execute paid next instruction

variable {machine : Machine}

private theorem assign_eq (dst : Reg) (value : UInt64) (next : UInt32) :
    assign machine dst.val value next = .ok (machine.assign dst value next) := by
  rw [assign, writeRegister_eq]
  rfl

private theorem loadFrom_eq (kind : LoadKind) (dst : Reg) (address next : UInt32) :
    loadFrom machine kind dst.val address next = .ok (machine.loadFrom kind dst address next) := by
  have width := kind.width_le
  have part : slice (Array.replicate 8 0) 0 kind.width = .ok (Array.replicate kind.width 0) := by
    rw [slice_eq (Nat.zero_le _) (by simpa using width)]
    simp [Nat.min_eq_left width]
  have counted : (Array.replicate kind.width (0 : UInt8)).size < UInt64.size := by
    rw [Array.size_replicate]
    exact Nat.lt_of_le_of_lt width (by decide)
  have same : (UInt64.ofNat kind.width).toNat = kind.width :=
    UInt64.toNat_ofNat_of_lt' (Nat.lt_of_le_of_lt width (by decide))
  rw [loadFrom, part, ok_bind, Memory.Checked.loadInto_eq counted, ok_bind, Machine.loadFrom, Memory.load_eq_loadInto,
    same]
  cases loaded : machine.memory.loadInto (Array.replicate kind.width 0) address.toUInt64 with
  | error error => rfl
  | ok bytes =>
    have size : bytes.size = kind.width := by rw [Memory.size_loadInto loaded, Array.size_replicate]
    have short : bytes.toList.length ≤ 8 := by rwa [Array.length_toList, size]
    have copied : copyInto (Array.replicate 8 0) 0 kind.width bytes =
        .ok (overwrite (Array.replicate 8 0) 0 bytes.toList) :=
      copyInto_eq (by simpa using width) (by omega)
    -- the bytes of the buffer that were not loaded are zero, so they do not count
    simp only [copied, ok_bind, assign_eq, toList_overwrite_blank short, LittleEndian.value_append_zeroes]

private theorem storeTo_eq (kind : StoreKind) (value : UInt64) (address next : UInt32) :
    storeTo machine kind value address next = .ok (machine.storeTo kind value address next) := by
  have width := kind.width_le
  have bytes : slice (LittleEndian.write value.toNat 8).toArray 0 kind.width =
      .ok (LittleEndian.write value.toNat kind.width).toArray := by
    rw [slice_eq (Nat.zero_le _) (by simpa [LittleEndian.length_write] using width)]
    refine congrArg Except.ok (Array.ext' ?_)
    simp [List.extract_eq_take_drop, LittleEndian.take_write _ width]
  have counted : (LittleEndian.write value.toNat kind.width).toArray.size < UInt64.size := by
    rw [List.size_toArray, LittleEndian.length_write]
    exact Nat.lt_of_le_of_lt width (by decide)
  rw [storeTo, bytes, ok_bind, Memory.Checked.store_eq counted, ok_bind, Machine.storeTo]
  cases machine.memory.store address.toUInt64 (LittleEndian.write value.toNat kind.width) with
  | error error => rfl
  | ok memory => rfl

private theorem growHeap_eq (formed : machine.memory.WellFormed) (dst : Reg) (size : UInt64) (next : UInt32) :
    growHeap machine dst.val size next = .ok (machine.growHeap dst size next) := by
  unfold growHeap growHeap.grown Machine.growHeap
  by_cases fits : size.toNat < AddressSpace.size
  · rw [if_pos fits, if_pos fits, Memory.Checked.grow_eq formed, ok_bind]
    cases machine.memory.grow size.toUInt32 with
    | none => exact assign_eq dst 0 next
    | some found =>
      dsimp only
      rw [assign_eq, ok_bind]
      rfl
  · rw [if_neg fits, if_neg fits, ok_bind]
    exact assign_eq dst 0 next

private theorem execute_eq (formed : machine.memory.WellFormed) (next : UInt32) (instruction : Instruction Reg) :
    execute machine next (instruction.map Fin.val) = .ok (machine.execute next instruction) := by
  cases instruction with
  | trap => rfl
  | fallthrough => rfl
  | ecalli index => rfl
  | loadImm64 dst value => exact assign_eq dst value next
  | jump target => rfl
  | jumpInd base offset =>
    simp only [Instruction.map, execute, readRegister_eq, ok_bind]
    rfl
  | loadImm dst value => exact assign_eq dst _ next
  | load kind dst address => exact loadFrom_eq kind dst address next
  | store kind src address =>
    simp only [Instruction.map, execute, readRegister_eq, ok_bind]
    exact storeTo_eq kind _ address next
  | moveReg dst src =>
    simp only [Instruction.map, execute, readRegister_eq, ok_bind]
    exact assign_eq dst _ next
  | sbrk dst size =>
    simp only [Instruction.map, execute, readRegister_eq, ok_bind]
    exact growHeap_eq formed dst _ next
  | storeInd kind src base offset =>
    simp only [Instruction.map, execute, readRegister_eq, ok_bind]
    exact storeTo_eq kind _ _ next
  | loadInd kind dst base offset =>
    simp only [Instruction.map, execute, readRegister_eq, ok_bind]
    exact loadFrom_eq kind dst _ next
  | addImm64 dst src value =>
    simp only [Instruction.map, execute, readRegister_eq, ok_bind]
    exact assign_eq dst _ next
  | branch condition a b target =>
    simp only [Instruction.map, execute, readRegister_eq, ok_bind]
    rfl
  | alu op dst a b =>
    simp only [Instruction.map, execute, readRegister_eq, ok_bind]
    exact assign_eq dst _ next

theorem step_eq (formed : machine.memory.WellFormed) : step machine = .ok machine.step := by
  unfold step Machine.step
  by_cases stopped : machine.status ≠ .continuing
  · rw [if_pos stopped, if_pos stopped]
  rw [if_neg stopped, if_neg stopped, decode_eq, ok_bind]
  cases MeteredVm.decode machine.program machine.pc with
  | error error => rfl
  | ok found =>
    obtain ⟨instruction, next⟩ := found
    have paid : (machine.pay machine.instructionGas.toUInt64).memory.WellFormed := formed
    simp only [Except.map]
    split
    · rfl
    · exact execute_eq paid next instruction

end Machine.Checked

theorem Machine.Steps.wellFormed {machine after : Machine} (steps : machine.Steps after)
    (formed : machine.memory.WellFormed) : after.memory.WellFormed := by
  cases steps with
  | stays => exact formed
  | undecodable => exact formed
  | unaffordable => exact formed
  | executes instruction next after running decoded affordable executed =>
    cases executed with
    | goesOn registers pc => exact formed
    | ends status final => exact formed
    | asks index pc => exact formed
    | stores address bytes memory pc asked stored => exact formed.store stored
    | grows length previous memory registers pc grown => exact formed.grow grown

end MeteredVm
