import MeteredVm.Machine.Basic

/-!
What one step of a machine can do, case by case. The main statements say what an instruction makes of a machine that
paid for it, and what a step makes of any machine; what holds of steps is read off these cases.
-/

set_option autoImplicit false
set_option relaxedAutoImplicit false

namespace MeteredVm

theorem GasCounter.isOverdrawn_deduct_narrow (counter : GasCounter) (amount : UInt32) :
    (counter.deduct amount.toUInt64).isOverdrawn = false ↔ (amount.toNat : Int) ≤ counter.balance := by
  have narrow := amount.toNat_lt
  rw [isOverdrawn, decide_eq_false_iff_not, Int.not_lt]
  simp only [deduct, minBalance, maxGas, UInt32.toNat_toUInt64]
  omega

namespace Machine

def pay (machine : Machine) (amount : UInt64) : Machine := { machine with gas := machine.gas.deduct amount }

/-- Where an instruction is to write to memory, and which bytes. -/
def storeRequest? (machine : Machine) : Instruction Reg → Option (UInt64 × List UInt8)
  | .store kind src address => some (address.toUInt64, bytes kind src)
  | .storeInd kind src base offset => some ((machine.indirectAddress base offset).toUInt64, bytes kind src)
  | _ => none
where
  bytes (kind : StoreKind) (src : Reg) : List UInt8 :=
    LittleEndian.write (machine.registers.get src).toNat kind.width

/-- What an instruction makes of a machine. -/
inductive Executes (machine : Machine) (instruction : Instruction Reg) : Machine → Prop where
  | goesOn (registers : Registers) (pc : UInt32) : Executes machine instruction { machine with registers, pc }
  | ends (status : Status) (final : status = .halt ∨ status = .panic) :
      Executes machine instruction (machine.stop status)
  | asks (index pc : UInt32) : Executes machine instruction { machine with pc, status := .hostCall index }
  | stores (address : UInt64) (bytes : List UInt8) (memory : Memory) (pc : UInt32)
      (asked : machine.storeRequest? instruction = some (address, bytes))
      (stored : machine.memory.store address bytes = .ok memory) :
      Executes machine instruction { machine with memory, pc }
  | grows (length : UInt32) (previous : Nat) (memory : Memory) (registers : Registers) (pc : UInt32)
      (grown : machine.memory.grow length = some (previous, memory)) :
      Executes machine instruction { machine with memory, registers, pc }

section

variable (machine : Machine) (instruction : Instruction Reg)

private theorem jumpTo_executes (target : UInt32) : machine.Executes instruction (machine.jumpTo target) := by
  unfold jumpTo
  split
  · exact .goesOn machine.registers target
  · exact .ends .panic (Or.inr rfl)

private theorem loadFrom_executes (kind : LoadKind) (dst : Reg) (address next : UInt32) :
    machine.Executes instruction (machine.loadFrom kind dst address next) := by
  unfold loadFrom
  cases machine.memory.load address.toUInt64 (UInt64.ofNat kind.width) with
  | error error => exact .ends .panic (Or.inr rfl)
  | ok bytes => exact .goesOn _ next

private theorem storeTo_executes (kind : StoreKind) (src : Reg) (address next : UInt32)
    (asked : machine.storeRequest? instruction = some (address.toUInt64, storeRequest?.bytes machine kind src)) :
    machine.Executes instruction (machine.storeTo kind (machine.registers.get src) address next) := by
  rw [storeTo, ← storeRequest?.bytes]
  cases stored : machine.memory.store address.toUInt64 (storeRequest?.bytes machine kind src) with
  | error error => exact .ends .panic (Or.inr rfl)
  | ok memory => exact .stores address.toUInt64 _ memory next asked stored

private theorem growHeap_executes (dst : Reg) (size : UInt64) (next : UInt32) :
    machine.Executes instruction (machine.growHeap dst size next) := by
  unfold growHeap
  by_cases fits : size.toNat < AddressSpace.size
  · simp only [fits, if_true]
    cases grown : machine.memory.grow size.toUInt32 with
    | none => exact .goesOn _ next
    | some found => exact .grows size.toUInt32 found.1 found.2 _ next grown
  · simp only [fits, if_false]
    exact .goesOn _ next

end

theorem execute_executes (machine : Machine) (next : UInt32) (instruction : Instruction Reg) :
    machine.Executes instruction (machine.execute next instruction) := by
  cases instruction with
  | trap => exact .ends .panic (Or.inr rfl)
  | fallthrough => exact .goesOn machine.registers next
  | ecalli index => exact .asks index next
  | loadImm64 dst value => exact .goesOn _ next
  | loadImm dst value => exact .goesOn _ next
  | moveReg dst src => exact .goesOn _ next
  | addImm64 dst src value => exact .goesOn _ next
  | alu op dst a b => exact .goesOn _ next
  | jump target => exact machine.jumpTo_executes _ target
  | jumpInd base offset =>
    simp only [execute]
    split
    · exact .ends .halt (Or.inl rfl)
    · exact machine.jumpTo_executes _ _
  | branch condition a b target =>
    simp only [execute]
    split
    · exact machine.jumpTo_executes _ target
    · exact .goesOn machine.registers next
  | load kind dst address => exact machine.loadFrom_executes _ kind dst address next
  | loadInd kind dst base offset => exact machine.loadFrom_executes _ kind dst _ next
  | store kind src address => exact machine.storeTo_executes _ kind src address next rfl
  | storeInd kind src base offset => exact machine.storeTo_executes _ kind src _ next rfl
  | sbrk dst size => exact machine.growHeap_executes _ dst _ next

/-- What a step makes of a machine. -/
inductive Steps (machine : Machine) : Machine → Prop where
  | stays (stopped : machine.status ≠ .continuing) : Steps machine machine
  /-- There is no instruction, and nothing is paid. -/
  | undecodable (error : DecodeError) (running : machine.status = .continuing)
      (failed : decode machine.program machine.pc = .error error) : Steps machine (machine.stop .panic)
  /-- The instruction is not executed, since its price overdraws the counter. -/
  | unaffordable (instruction : Instruction Reg) (next : UInt32) (running : machine.status = .continuing)
      (decoded : decode machine.program machine.pc = .ok (instruction, next))
      (overdrawn : (machine.pay machine.instructionGas.toUInt64).gas.isOverdrawn = true) :
      Steps machine ((machine.pay machine.instructionGas.toUInt64).stop .outOfGas)
  | executes (instruction : Instruction Reg) (next : UInt32) (after : Machine)
      (running : machine.status = .continuing)
      (decoded : decode machine.program machine.pc = .ok (instruction, next))
      (affordable : (machine.pay machine.instructionGas.toUInt64).gas.isOverdrawn = false)
      (executed : (machine.pay machine.instructionGas.toUInt64).Executes instruction after) : Steps machine after

theorem step_steps (machine : Machine) : machine.Steps machine.step := by
  unfold step
  split
  · rename_i stopped
    exact .stays stopped
  · rename_i running
    rw [ne_eq, Decidable.not_not] at running
    cases decoded : decode machine.program machine.pc with
    | error error => exact .undecodable error running decoded
    | ok found =>
      obtain ⟨instruction, next⟩ := found
      cases paid : (machine.gas.deduct machine.instructionGas.toUInt64).isOverdrawn with
      | true =>
        simp only [paid, if_true]
        exact .unaffordable instruction next running decoded paid
      | false =>
        simp only [paid, Bool.false_eq_true, if_false]
        exact .executes instruction next _ running decoded paid (execute_executes _ next instruction)

theorem step_of_undecodable {machine : Machine} {error : DecodeError} (running : machine.status = .continuing)
    (failed : decode machine.program machine.pc = .error error) : machine.step = machine.stop .panic := by
  simp [step, running, failed]

theorem step_of_affordable {machine : Machine} {instruction : Instruction Reg} {next : UInt32}
    (running : machine.status = .continuing) (decoded : decode machine.program machine.pc = .ok (instruction, next))
    (paid : (machine.pay machine.instructionGas.toUInt64).gas.isOverdrawn = false) :
    machine.step = (machine.pay machine.instructionGas.toUInt64).execute next instruction := by
  have left : (machine.gas.deduct machine.instructionGas.toUInt64).isOverdrawn = false := paid
  simp [step, running, decoded, left, pay]

theorem step_of_overdrawn {machine : Machine} {instruction : Instruction Reg} {next : UInt32}
    (running : machine.status = .continuing) (decoded : decode machine.program machine.pc = .ok (instruction, next))
    (unpaid : (machine.pay machine.instructionGas.toUInt64).gas.isOverdrawn = true) :
    machine.step = (machine.pay machine.instructionGas.toUInt64).stop .outOfGas := by
  have missing : (machine.gas.deduct machine.instructionGas.toUInt64).isOverdrawn = true := unpaid
  simp [step, running, decoded, missing, pay]

theorem chargeGas_of_overdrawn {machine : Machine} {cost : GasCost}
    (h : (machine.pay cost.amount).gas.isOverdrawn = true) :
    machine.chargeGas cost =
      ((machine.pay cost.amount).stop .outOfGas, .error (.outOfGas (machine.pay cost.amount).gas.balance)) := by
  have failed : (machine.gas.deduct cost.amount).isOverdrawn = true := h
  simp only [chargeGas, GasCounter.chargeCost, GasCounter.charge, GasCounter.verdict, failed, if_true]
  rfl

theorem chargeGas_of_affordable {machine : Machine} {cost : GasCost}
    (h : (machine.pay cost.amount).gas.isOverdrawn = false) :
    machine.chargeGas cost = (machine.pay cost.amount, .ok ()) := by
  have paid : (machine.gas.deduct cost.amount).isOverdrawn = false := h
  simp only [chargeGas, GasCounter.chargeCost, GasCounter.charge, GasCounter.verdict, paid, Bool.false_eq_true,
    if_false]
  rfl

end Machine

end MeteredVm
