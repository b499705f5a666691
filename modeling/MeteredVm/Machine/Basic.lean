import MeteredVm.Gas
import MeteredVm.Instruction.Decoding
import MeteredVm.Memory.Basic

/-!
The machine: a program, a program counter, registers, memory and a gas counter, with a status that says whether it
runs on. A step decodes the instruction at the program counter, pays for it, and then executes it; a step that does
not run on leaves everything but the status and the gas as it was, except that a host call leaves the program counter
behind its instruction.
-/

set_option autoImplicit false
set_option relaxedAutoImplicit false

namespace MeteredVm

inductive Status where
  | continuing
  | halt
  | panic
  | outOfGas
  /-- It waits until the host call with an index is served. -/
  | hostCall (index : UInt32)
deriving DecidableEq, Repr

namespace Status

def isTerminal : Status → Bool
  | .halt | .panic | .outOfGas => true
  | .continuing | .hostCall _ => false

def pendingCall? : Status → Option UInt32
  | .hostCall index => some index
  | .continuing | .halt | .panic | .outOfGas => none

end Status

structure Machine where
  program : Array UInt8
  pc : UInt32
  registers : Registers
  memory : Memory
  gas : GasCounter
  status : Status
  instructionGas : UInt32

namespace Machine

def defaultInstructionGas : UInt32 := 1

def idle (instructionGas : UInt32) : Machine where
  program := #[]
  pc := 0
  registers := .zero
  memory := .empty
  gas := .new 0
  status := .continuing
  instructionGas := instructionGas

instance : Inhabited Machine := ⟨idle defaultInstructionGas⟩

/-- Prepares the execution of a program; registers and memory that are not given are blank. -/
def reset (machine : Machine) (program : Array UInt8) (pc : UInt32) (gas : UInt64)
    (registers : Option Registers) (memory : Option Memory) : Machine where
  program := program
  pc := pc
  registers := registers.getD .zero
  memory := memory.getD .empty
  gas := .new gas
  status := .continuing
  instructionGas := machine.instructionGas

def gasUsed (machine : Machine) : Nat := machine.gas.used

def stop (machine : Machine) (status : Status) : Machine := { machine with status }

def assign (machine : Machine) (dst : Reg) (value : UInt64) (next : UInt32) : Machine :=
  { machine with registers := machine.registers.set dst value, pc := next }

/-- Moves to an offset of the code; there is none at or behind its end. -/
def jumpTo (machine : Machine) (target : UInt32) : Machine :=
  if target.toNat < machine.program.size then { machine with pc := target }
  else machine.stop .panic

/-- The address at a signed distance from a register, within the 32-bit address space. -/
def indirectAddress (machine : Machine) (base : Reg) (offset : Int32) : UInt32 :=
  (machine.registers.get base + offset.toInt64.toUInt64).toUInt32

def loadFrom (machine : Machine) (kind : LoadKind) (dst : Reg) (address : UInt32) (next : UInt32) : Machine :=
  match machine.memory.load address.toUInt64 (UInt64.ofNat kind.width) with
  | .error _ => machine.stop .panic
  | .ok bytes =>
    machine.assign dst (kind.extend (UInt64.ofNat (LittleEndian.value bytes.toList))) next

def storeTo (machine : Machine) (kind : StoreKind) (value : UInt64) (address : UInt32) (next : UInt32) : Machine :=
  match machine.memory.store address.toUInt64 (LittleEndian.write value.toNat kind.width) with
  | .error _ => machine.stop .panic
  | .ok memory => { machine with memory, pc := next }

/-- Grows the heap and moves on; the register receives where the heap ended before, or zero if it cannot grow. -/
def growHeap (machine : Machine) (dst : Reg) (size : UInt64) (next : UInt32) : Machine :=
  let grown := if size.toNat < AddressSpace.size then machine.memory.grow size.toUInt32 else none
  match grown with
  | some (previous, memory) => { machine.assign dst (UInt64.ofNat previous) next with memory }
  | none => machine.assign dst 0 next

/-- Executes an instruction that is followed by the one at `next`. -/
def execute (machine : Machine) (next : UInt32) : Instruction Reg → Machine
  | .trap => machine.stop .panic
  | .fallthrough => { machine with pc := next }
  | .ecalli index => { machine with pc := next, status := .hostCall index }
  | .loadImm64 dst value => machine.assign dst value next
  | .jump target => machine.jumpTo target
  | .jumpInd base offset =>
    let target := (machine.registers.get base + offset.toUInt64).toUInt32
    if target = AddressSpace.haltAddress then machine.stop .halt else machine.jumpTo target
  | .loadImm dst value => machine.assign dst value.toInt64.toUInt64 next
  | .load kind dst address => machine.loadFrom kind dst address next
  | .store kind src address => machine.storeTo kind (machine.registers.get src) address next
  | .moveReg dst src => machine.assign dst (machine.registers.get src) next
  | .sbrk dst size => machine.growHeap dst (machine.registers.get size) next
  | .storeInd kind src base offset =>
    machine.storeTo kind (machine.registers.get src) (machine.indirectAddress base offset) next
  | .loadInd kind dst base offset => machine.loadFrom kind dst (machine.indirectAddress base offset) next
  | .addImm64 dst src value =>
    machine.assign dst (machine.registers.get src + value.toInt64.toUInt64) next
  | .branch condition a b target =>
    if condition.holds (machine.registers.get a) (machine.registers.get b) then machine.jumpTo target
    else { machine with pc := next }
  | .alu op dst a b =>
    machine.assign dst (op.apply (machine.registers.get a) (machine.registers.get b)) next

/-- Executes one instruction, if the machine runs. -/
def step (machine : Machine) : Machine :=
  if machine.status ≠ .continuing then machine
  else
    match decode machine.program machine.pc with
    | .error _ => machine.stop .panic
    | .ok (instruction, next) =>
      let gas := machine.gas.deduct machine.instructionGas.toUInt64
      let paid := { machine with gas }
      if gas.isOverdrawn then paid.stop .outOfGas else paid.execute next instruction

/-- Lets a machine run on after a host call was served. -/
def resume (machine : Machine) : Machine :=
  match machine.status with
  | .hostCall _ => machine.stop .continuing
  | .continuing | .halt | .panic | .outOfGas => machine

/-- Deducts a price, and ends the execution if that overdraws the counter. -/
def chargeGas (machine : Machine) (cost : GasCost) : Machine × Except GasError Unit :=
  let (gas, verdict) := machine.gas.chargeCost cost
  let charged := { machine with gas }
  match verdict with
  | .ok () => (charged, .ok ())
  | .error error => (charged.stop .outOfGas, .error error)

end Machine

end MeteredVm
