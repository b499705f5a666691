import MeteredVm.Proofs.Machine.Effects
import MeteredVm.Proofs.Machine.Steps

/-!
How single steps end. The main statement says of every step, by the effect of its instruction, when it panics, halts,
asks for a host call, runs out of gas or goes on and where, and that a step which ends an execution leaves the program
counter, the registers and memory alone.
-/

set_option autoImplicit false
set_option relaxedAutoImplicit false

namespace MeteredVm.Machine

open AddressSpace

/-- The effects that fail: a trap, an access that memory does not grant, a jump to where there is no code. -/
def Fails (machine : Machine) : Effect → Prop
  | .trap => True
  | .load kind _ address => ¬ machine.memory.Grants .read address kind.width
  | .store kind _ address => ¬ machine.memory.Grants .write address kind.width
  | .jump target => machine.program.size ≤ target
  | .ask _ | .halt | .compute => False

/-- An indirect jump to the address that halts, which is no jump whatever the code is. -/
def Halts (machine : Machine) (instruction : Instruction Reg) : Prop :=
  ∃ base offset, instruction = .jumpInd base offset ∧ machine.indirectTarget base offset = haltAddress.toNat

/-- Where execution goes on after an effect, if it does. -/
def Effect.place (next : UInt32) : Effect → Nat
  | .jump target => target
  | _ => next.toNat

private theorem effect_eq_halt_iff {machine : Machine} {instruction : Instruction Reg} :
    machine.effect instruction = .halt ↔ machine.Halts instruction := by
  cases instruction with
  | jumpInd base offset =>
    simp only [effect, Halts]
    split
    · rename_i same
      exact iff_of_true rfl ⟨base, offset, rfl, same⟩
    · rename_i other
      refine iff_of_false (by simp) ?_
      rintro ⟨base', offset', is, same⟩
      obtain ⟨rfl, rfl⟩ := Instruction.jumpInd.inj is
      exact other same
  | branch condition a b target =>
    rcases machine.effect_branch condition a b target with ⟨-, jumps⟩ | ⟨-, computes⟩
    · simp [jumps, Halts]
    · simp [computes, Halts]
  | _ => simp [effect, Halts]

private theorem effect_eq_ask_iff {machine : Machine} {instruction : Instruction Reg} {index : UInt32} :
    machine.effect instruction = .ask index ↔ instruction = .ecalli index := by
  cases instruction with
  | jumpInd base offset =>
    simp only [effect]
    split <;> simp
  | branch condition a b target =>
    rcases machine.effect_branch condition a b target with ⟨-, jumps⟩ | ⟨-, computes⟩
    · simp [jumps]
    · simp [computes]
  | _ => simp [effect]

namespace Becomes

variable {machine after : Machine} {next : UInt32} {effect : Effect} (becomes : machine.Becomes next effect after)

include becomes

private theorem gas_eq : after.gas = machine.gas := by cases becomes <;> rfl

private theorem pc_of_hostCall (running : machine.status = .continuing) {index : UInt32}
    (asks : after.status = .hostCall index) : after.pc = next := by
  cases becomes with
  | asks => rfl
  | loads => exact absurd (running.symm.trans asks) nofun
  | stores => exact absurd (running.symm.trans asks) nofun
  | jumps => exact absurd (running.symm.trans asks) nofun
  | computes => exact absurd (running.symm.trans asks) nofun
  | _ => cases asks

private theorem place_of_continuing (runs : after.status = .continuing) : after.pc.toNat = effect.place next := by
  cases becomes with
  | loads => rfl
  | stores => rfl
  | jumps => rfl
  | computes => rfl
  | _ => cases runs

variable (running : machine.status = .continuing)

include running

private theorem panic_iff : after.status = .panic ↔ machine.Fails effect := by
  cases becomes with
  | traps => exact iff_of_true rfl trivial
  | missesLoad denied => exact iff_of_true rfl denied
  | missesStore denied => exact iff_of_true rfl denied
  | missesJump outside => exact iff_of_true rfl outside
  | asks => exact iff_of_false nofun id
  | halts => exact iff_of_false nofun id
  | computes => exact iff_of_false (by simp [running]) id
  | loads granted => exact iff_of_false (by simp [assign, running]) fun denied => denied granted
  | stores memory granted => exact iff_of_false (by simp [running]) fun denied => denied granted
  | jumps pc inside => exact iff_of_false (by simp [running]) (Nat.not_le_of_lt inside)

private theorem halt_iff : after.status = .halt ↔ effect = .halt := by
  cases becomes <;> simp [stop, assign, running]

private theorem hostCall_iff (index : UInt32) : after.status = .hostCall index ↔ effect = .ask index := by
  cases becomes <;> simp [stop, assign, running]

private theorem status_ne_outOfGas : after.status ≠ .outOfGas := by
  cases becomes <;> simp [stop, assign, running]

private theorem continuing_iff :
    after.status = .continuing ↔ ¬ machine.Fails effect ∧ effect ≠ .halt ∧ ∀ index, effect ≠ .ask index := by
  have exhausted := becomes.status_ne_outOfGas running
  rw [← becomes.panic_iff running, ne_eq, ← becomes.halt_iff running]
  simp only [ne_eq, ← becomes.hostCall_iff running]
  cases status : after.status with
  | outOfGas => exact absurd status exhausted
  | _ => simp

theorem unchanged_of_terminal (ended : after.status.isTerminal = true) :
    after.pc = machine.pc ∧ after.registers = machine.registers ∧ after.memory = machine.memory := by
  cases becomes with
  | traps => exact ⟨rfl, rfl, rfl⟩
  | missesLoad => exact ⟨rfl, rfl, rfl⟩
  | missesStore => exact ⟨rfl, rfl, rfl⟩
  | missesJump => exact ⟨rfl, rfl, rfl⟩
  | halts => exact ⟨rfl, rfl, rfl⟩
  | asks => cases ended
  | loads => simp [assign, running, Status.isTerminal] at ended
  | stores => simp [running, Status.isTerminal] at ended
  | jumps => simp [running, Status.isTerminal] at ended
  | computes => simp [running, Status.isTerminal] at ended

end Becomes

private theorem fails_pay (machine : Machine) (amount : UInt64) (effect : Effect) :
    (machine.pay amount).Fails effect ↔ machine.Fails effect := by
  cases effect <;> rfl

theorem gas_pay_of_affordable {machine : Machine}
    (enough : (machine.instructionGas.toNat : Int) ≤ machine.gas.balance) :
    (machine.pay machine.instructionGas.toUInt64).gas =
      ⟨machine.gas.initial, machine.gas.balance - machine.instructionGas.toNat⟩ := by
  have narrow := machine.instructionGas.toNat_lt
  have amount : min machine.instructionGas.toUInt64.toNat GasCounter.maxGas = machine.instructionGas.toNat := by
    rw [UInt32.toNat_toUInt64, GasCounter.maxGas]
    omega
  have above : GasCounter.minBalance ≤ machine.gas.balance - machine.instructionGas.toNat := by
    rw [GasCounter.minBalance]
    omega
  simp only [pay, GasCounter.deduct, amount, Int.max_eq_right above]

/-- How a step ends. Without an instruction it panics and nothing is paid; if the counter does not cover the price, the
step ends for want of gas. Otherwise exactly the price is deducted, and the effect of the instruction decides: the step
panics if that fails, halts on an indirect jump to the address that halts, waits behind an `ecalli`, and goes on in all
other cases, at the target of a jump or behind the instruction. A step that ends an execution leaves the program
counter, the registers and memory as they were. -/
theorem steps_end_as_their_effects_say (machine : Machine) (running : machine.status = .continuing) :
    (∀ error, decode machine.program machine.pc = .error error → machine.step = machine.stop .panic) ∧
    (∀ instruction next, decode machine.program machine.pc = .ok (instruction, next) →
      (machine.gas.balance < machine.instructionGas.toNat → machine.step.status = .outOfGas) ∧
      (machine.instructionGas.toNat ≤ machine.gas.balance →
        machine.step.gas = ⟨machine.gas.initial, machine.gas.balance - machine.instructionGas.toNat⟩ ∧
        (machine.step.status = .panic ↔ machine.Fails (machine.effect instruction)) ∧
        (machine.step.status = .halt ↔ machine.Halts instruction) ∧
        (∀ index, (machine.step.status = .hostCall index ↔ instruction = .ecalli index) ∧
          (machine.step.status = .hostCall index → machine.step.pc = next)) ∧
        (machine.step.status = .continuing ↔ ¬ machine.Fails (machine.effect instruction) ∧
          ¬ machine.Halts instruction ∧ ∀ index, instruction ≠ .ecalli index) ∧
        (machine.step.status = .continuing →
          machine.step.pc.toNat = (machine.effect instruction).place next))) ∧
    (machine.step.status.isTerminal = true →
      machine.step.pc = machine.pc ∧ machine.step.registers = machine.registers ∧
        machine.step.memory = machine.memory) := by
  have executed : ∀ instruction next, decode machine.program machine.pc = .ok (instruction, next) →
      (machine.instructionGas.toNat : Int) ≤ machine.gas.balance →
        (machine.pay machine.instructionGas.toUInt64).Becomes next (machine.effect instruction) machine.step := by
    intro instruction next decoded enough
    have paid := (machine.gas.isOverdrawn_deduct_narrow machine.instructionGas).mpr enough
    rw [step_of_affordable running decoded paid]
    exact execute_becomes _ next instruction
  have unpaid : ∀ instruction next, decode machine.program machine.pc = .ok (instruction, next) →
      machine.gas.balance < machine.instructionGas.toNat →
        machine.step = (machine.pay machine.instructionGas.toUInt64).stop .outOfGas := by
    intro instruction next decoded missing
    have overdrawn := mt (machine.gas.isOverdrawn_deduct_narrow machine.instructionGas).mp (Int.not_le.mpr missing)
    exact step_of_overdrawn running decoded (Bool.not_eq_false _ ▸ overdrawn)
  refine ⟨fun error failed => step_of_undecodable running failed, fun instruction next decoded =>
    ⟨fun missing => ?_, fun enough => ?_⟩, fun ended => ?_⟩
  · rw [unpaid instruction next decoded missing]
    rfl
  · have becomes := executed instruction next decoded enough
    have paidRunning : (machine.pay machine.instructionGas.toUInt64).status = .continuing := running
    have sameEffect : (machine.pay machine.instructionGas.toUInt64).Fails (machine.effect instruction) ↔
        machine.Fails (machine.effect instruction) := machine.fails_pay _ _
    refine ⟨becomes.gas_eq.trans (gas_pay_of_affordable enough), (becomes.panic_iff paidRunning).trans sameEffect,
      (becomes.halt_iff paidRunning).trans effect_eq_halt_iff, fun index =>
      ⟨(becomes.hostCall_iff paidRunning index).trans effect_eq_ask_iff, becomes.pc_of_hostCall paidRunning⟩, ?_,
      becomes.place_of_continuing⟩
    rw [becomes.continuing_iff paidRunning, sameEffect, ne_eq, effect_eq_halt_iff]
    simp only [ne_eq, effect_eq_ask_iff]
  · cases decoded : decode machine.program machine.pc with
    | error error =>
      rw [step_of_undecodable running decoded]
      exact ⟨rfl, rfl, rfl⟩
    | ok found =>
      by_cases enough : (machine.instructionGas.toNat : Int) ≤ machine.gas.balance
      · have becomes := executed found.1 found.2 decoded enough
        exact becomes.unchanged_of_terminal running ended
      · rw [unpaid found.1 found.2 decoded (Int.not_le.mp enough)]
        exact ⟨rfl, rfl, rfl⟩

/-- A code of four instructions, each paid for: a load from memory that is not mapped panics, an `ecalli` waits behind
itself, an indirect jump to the address that halts does halt, and a branch that compares 0 with 9 is taken. With less
gas than the price nothing is executed. -/
theorem steps_end_as_their_effects_say_of_four_instructions :
    let machine := fun pc gas =>
      (Machine.idle 3).reset #[57, 2, 0, 0, 1, 0, 10, 7, 0, 0, 0, 50, 4, 0, 0, 255, 255, 172, 0x53, 6, 0, 0, 0] pc gas
        (some (Registers.zero.set 5 9)) none
    ((machine 0 5).step.status = .panic ∧ (machine 0 5).step.gas = ⟨5, 2⟩ ∧ (machine 0 5).step.pc = 0) ∧
      ((machine 6 5).step.status = .hostCall 7 ∧ (machine 6 5).step.pc = 11) ∧
      ((machine 11 5).step.status = .halt ∧ (machine 11 5).step.pc = 11) ∧
      ((machine 17 5).step.status = .continuing ∧ (machine 17 5).step.pc.toNat = 6) ∧
      (machine 11 2).step.status = .outOfGas := by
  intro machine
  have load := steps_end_as_their_effects_say (machine 0 5) rfl
  have call := steps_end_as_their_effects_say (machine 6 5) rfl
  have halt := steps_end_as_their_effects_say (machine 11 5) rfl
  have branch := steps_end_as_their_effects_say (machine 17 5) rfl
  have poor := steps_end_as_their_effects_say (machine 11 2) rfl
  have decodedLoad : decode (machine 0 5).program 0 = .ok (.load .i32 2 0x10000, 6) := by decide +kernel
  have decodedCall : decode (machine 6 5).program 6 = .ok (.ecalli 7, 11) := by decide +kernel
  have decodedHalt : decode (machine 11 5).program 11 = .ok (.jumpInd 4 0xFFFF0000, 17) := by decide +kernel
  have decodedBranch : decode (machine 17 5).program 17 = .ok (.branch .ltU 3 5 6, 23) := by decide +kernel
  have unmapped : (machine 0 5).Fails (.load .i32 2 0x10000) := by
    rintro ⟨-, allowed⟩
    have readable := (Memory.flat_allows _ _ _).mp (allowed 0x10000 (by decide) (by decide))
    revert readable
    decide +kernel
  have jumps : (machine 17 5).effect (.branch .ltU 3 5 6) = .jump 6 := by
    rcases (machine 17 5).effect_branch .ltU 3 5 6 with ⟨-, taken⟩ | ⟨fails, -⟩
    · exact taken
    · exact absurd (by decide +kernel : (0 : Nat) < 9) fails
  have inside : ¬ (machine 17 5).Fails (.jump 6) := by
    show ¬ (23 : Nat) ≤ 6
    decide
  have noHalt : ¬ (machine 17 5).Halts (.branch .ltU 3 5 6) := by
    rintro ⟨base, offset, is, -⟩
    cases is
  have loads := (load.2.1 _ _ decodedLoad).2 (by decide)
  have calls := (call.2.1 _ _ decodedCall).2 (by decide)
  have halts := (halt.2.1 _ _ decodedHalt).2 (by decide)
  have branches := (branch.2.1 _ _ decodedBranch).2 (by decide)
  rw [jumps] at branches
  have panicked := loads.2.1.mpr unmapped
  have asked := (calls.2.2.2.1 7).1.mpr rfl
  have halted := halts.2.2.1.mpr ⟨4, 0xFFFF0000, rfl, by decide +kernel⟩
  have goesOn := branches.2.2.2.2.1.mpr ⟨inside, noHalt, nofun⟩
  refine ⟨⟨panicked, loads.1, (load.2.2 (by rw [panicked]; rfl)).1⟩, ⟨asked, (calls.2.2.2.1 7).2 asked⟩,
    ⟨halted, (halt.2.2 (by rw [halted]; rfl)).1⟩, ⟨goesOn, branches.2.2.2.2.2 goesOn⟩,
    (poor.2.1 _ _ decodedHalt).1 (by decide)⟩

end MeteredVm.Machine
