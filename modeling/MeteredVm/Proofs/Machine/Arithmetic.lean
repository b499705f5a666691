import MeteredVm.Proofs.Instruction.Extent
import MeteredVm.Proofs.Machine.Classification
import Mathlib.Data.Int.ModEq

/-!
The arithmetic of the register instructions. What an instruction computes is said in exact integers, or bit by bit, and
a register can hold one word only that stands for it. The main statement is that a step leaves this word in the
register of its destination, whichever registers the operands came from, and changes nothing else but the gas and the
program counter.
-/

set_option autoImplicit false
set_option relaxedAutoImplicit false

namespace MeteredVm

/-- What an instruction computes from the words of its operands. -/
inductive Computation where
  /-- An integer, of which 64 bits are kept. -/
  | wide (exact : Int)
  /-- An integer, of which 32 bits are kept and extended by their sign. -/
  | narrow (exact : Int)
  /-- A combination of two words, bit by bit. -/
  | bitwise (combine : Bool → Bool → Bool) (a b : UInt64)

namespace Computation

/-- Whether a word stands for what is computed. -/
def Yields (value : UInt64) : Computation → Prop
  | wide exact => (value.toNat : Int) ≡ exact [ZMOD UInt64.size]
  | narrow exact =>
    (-2147483648 ≤ value.toInt64.toInt ∧ value.toInt64.toInt < 2147483648) ∧
      value.toInt64.toInt ≡ exact [ZMOD UInt32.size]
  | bitwise combine a b => ∀ i < 64, value.toNat.testBit i = combine (a.toNat.testBit i) (b.toNat.testBit i)

instance decidableYields (value : UInt64) : (computation : Computation) → Decidable (computation.Yields value)
  | wide exact => inferInstanceAs (Decidable (_ ≡ exact [ZMOD _]))
  | narrow exact => inferInstanceAs (Decidable ((_ ∧ _) ∧ _ ≡ exact [ZMOD _]))
  | bitwise combine a b => inferInstanceAs (Decidable (∀ i < 64, _ = combine (a.toNat.testBit i) (b.toNat.testBit i)))

end Computation

def AluOp.computation (op : AluOp) (a b : UInt64) : Computation :=
  match op with
  | .add32 => .narrow (a.toNat + b.toNat)
  | .sub32 => .narrow (a.toNat - b.toNat)
  | .add64 => .wide (a.toNat + b.toNat)
  | .sub64 => .wide (a.toNat - b.toNat)
  | .mul64 => .wide (a.toNat * b.toNat)
  | .and => .bitwise (· && ·) a b
  | .xor => .bitwise (· ^^ ·) a b
  | .or => .bitwise (· || ·) a b

/-- The destination of a register instruction and what it computes from the registers as they are before it. -/
def Registers.computation? (registers : Registers) : Instruction Reg → Option (Reg × Computation)
  | .loadImm dst value => some (dst, .wide value.toInt)
  | .loadImm64 dst value => some (dst, .wide value.toNat)
  | .moveReg dst src => some (dst, .wide (registers.get src).toNat)
  | .addImm64 dst src value => some (dst, .wide ((registers.get src).toNat + value.toInt))
  | .alu op dst a b => some (dst, op.computation (registers.get a) (registers.get b))
  | _ => none

private theorem toInt_toInt64_modEq (value : UInt64) : value.toInt64.toInt ≡ value.toNat [ZMOD UInt64.size] := by
  have reading : value.toInt64.toInt = (value.toNat : Int).bmod UInt64.size := BitVec.toInt_eq_toNat_bmod _
  rw [reading]
  exact Int.bmod_emod

private theorem toInt_toInt32_modEq (value : UInt32) : value.toInt32.toInt ≡ value.toNat [ZMOD UInt32.size] := by
  have reading : value.toInt32.toInt = (value.toNat : Int).bmod UInt32.size := BitVec.toInt_eq_toNat_bmod _
  rw [reading]
  exact Int.bmod_emod

namespace Computation

private theorem Yields.unique {computation : Computation} {one other : UInt64} (first : computation.Yields one)
    (second : computation.Yields other) : other = one := by
  cases computation with
  | wide exact =>
    have same : (other.toNat : Int) ≡ one.toNat [ZMOD UInt64.size] := second.trans first.symm
    apply UInt64.toNat_inj.mp
    exact Nat.ModEq.eq_of_lt_of_lt (Int.natCast_modEq_iff.mp same) other.toNat_lt one.toNat_lt
  | narrow exact =>
    obtain ⟨⟨low, high⟩, residue⟩ := first
    obtain ⟨⟨low', high'⟩, residue'⟩ := second
    -- two integers less than 2 ^ 32 apart with the same residue are the same
    have same : other.toInt64.toInt = one.toInt64.toInt := by
      have congruent : other.toInt64.toInt % 4294967296 = one.toInt64.toInt % 4294967296 :=
        residue'.trans residue.symm
      omega
    have words := congrArg Int64.toUInt64 (Int64.toInt_inj.mp same)
    simpa using words
  | bitwise combine a b =>
    apply UInt64.toNat_inj.mp
    apply Nat.eq_of_testBit_eq
    intro i
    rcases Nat.lt_or_ge i 64 with inside | beyond
    · rw [first i inside, second i inside]
    · have small : ∀ value : UInt64, value.toNat < 2 ^ i := fun value =>
        Nat.lt_of_lt_of_le value.toNat_lt (Nat.pow_le_pow_right (by decide) beyond)
      rw [Nat.testBit_lt_two_pow (small other), Nat.testBit_lt_two_pow (small one)]

/-- A 32-bit result extended by its sign stands for the integer that it is a residue of. -/
private theorem yields_signExtend {value : UInt32} {exact : Int}
    (residue : (value.toNat : Int) ≡ exact [ZMOD UInt32.size]) :
    (narrow exact).Yields (Registers.signExtend value) := by
  have reading : (Registers.signExtend value).toInt64.toInt = value.toInt32.toInt := by
    rw [Registers.signExtend, Int64.toInt64_toUInt64, Int32.toInt_toInt64]
  rw [Yields, reading]
  exact ⟨⟨value.toInt32.le_toInt, value.toInt32.toInt_lt⟩, (toInt_toInt32_modEq value).trans residue⟩

private theorem yields_apply (op : AluOp) (a b : UInt64) : (op.computation a b).Yields (op.apply a b) := by
  cases op with
  | add32 =>
    apply yields_signExtend
    rw [UInt32.toNat_add, UInt64.toNat_toUInt32, UInt64.toNat_toUInt32, Int.ModEq, UInt32.size]
    omega
  | sub32 =>
    apply yields_signExtend
    rw [UInt32.toNat_sub, UInt64.toNat_toUInt32, UInt64.toNat_toUInt32, Int.ModEq, UInt32.size]
    omega
  | add64 =>
    rw [AluOp.computation, AluOp.apply, Yields, UInt64.toNat_add, Int.ModEq, UInt64.size]
    omega
  | sub64 =>
    rw [AluOp.computation, AluOp.apply, Yields, UInt64.toNat_sub, Int.ModEq, UInt64.size]
    have small := b.toNat_lt
    omega
  | mul64 =>
    rw [AluOp.computation, AluOp.apply, Yields, UInt64.toNat_mul]
    push_cast
    exact Int.mod_modEq _ _
  | and =>
    intro i _
    rw [AluOp.apply, UInt64.toNat_and, Nat.testBit_and]
  | xor =>
    intro i _
    rw [AluOp.apply, UInt64.toNat_xor, Nat.testBit_xor]
  | or =>
    intro i _
    rw [AluOp.apply, UInt64.toNat_or, Nat.testBit_or]

end Computation

private theorem AluOp.apply_of_low {op : AluOp} (narrow : op = .add32 ∨ op = .sub32) {a b a' b' : UInt64}
    (first : a'.toUInt32 = a.toUInt32) (second : b'.toUInt32 = b.toUInt32) : op.apply a' b' = op.apply a b := by
  rcases narrow with rfl | rfl
  · rw [apply, apply, first, second]
  · rw [apply, apply, first, second]

namespace Machine

private theorem execute_of_computation {machine : Machine} {instruction : Instruction Reg} {dst : Reg}
    {computation : Computation} (computes : machine.registers.computation? instruction = some (dst, computation))
    (next : UInt32) :
    ∃ value, computation.Yields value ∧ machine.execute next instruction = machine.assign dst value next := by
  cases instruction with
  | loadImm target value =>
    cases computes
    refine ⟨value.toInt64.toUInt64, ?_, rfl⟩
    rw [Computation.Yields, toNat_toUInt64_int64, Int32.toInt_toInt64]
    exact Int.mod_modEq _ _
  | loadImm64 target value =>
    cases computes
    exact ⟨value, Int.ModEq.refl _, rfl⟩
  | moveReg target src =>
    cases computes
    exact ⟨machine.registers.get src, Int.ModEq.refl _, rfl⟩
  | addImm64 target src value =>
    cases computes
    refine ⟨machine.registers.get src + value.toInt64.toUInt64, ?_, rfl⟩
    have distance := toNat_toUInt64_int64 value.toInt64
    rw [Int32.toInt_toInt64] at distance
    rw [Computation.Yields, UInt64.toNat_add, Int.ModEq, UInt64.size]
    omega
  | alu op target a b =>
    cases computes
    exact ⟨op.apply _ _, Computation.yields_apply op _ _, rfl⟩
  | _ => cases computes

section

variable {machine : Machine} {instruction : Instruction Reg} {next : UInt32}
  (running : machine.status = .continuing) (decoded : decode machine.program machine.pc = .ok (instruction, next))
  (enough : (machine.instructionGas.toNat : Int) ≤ machine.gas.balance)

include running decoded enough

private theorem step_of_enough :
    machine.step = (machine.pay machine.instructionGas.toUInt64).execute next instruction :=
  step_of_affordable running decoded ((machine.gas.isOverdrawn_deduct_narrow machine.instructionGas).mpr enough)

/-- Arithmetic. Let an instruction compute something of a register file for a destination, and let a running machine
with gas for a step decode it. After the step the destination holds the one word that stands for what the instruction
computes of the registers as they were before the step: the residue of an exact integer, the 32-bit residue extended by
its sign, or two words combined bit by bit. The two readings of a register are the same residue. A 32-bit operation does
not look at the high halves of its operands. The other registers, the memory and the status stay as they were, the step
pays its price, and the program counter is behind the instruction. -/
theorem register_instructions_compute_integers {dst : Reg} {computation : Computation}
    (computes : machine.registers.computation? instruction = some (dst, computation)) :
    (∀ value, computation.Yields value ↔ value = machine.step.registers.get dst) ∧
    (∀ r, (machine.step.registers.getSigned r).toInt ≡ (machine.step.registers.get r).toNat [ZMOD UInt64.size]) ∧
    (∀ op a b, instruction = .alu op dst a b → op = .add32 ∨ op = .sub32 → ∀ registers : Registers,
      registers.getLow a = machine.registers.getLow a → registers.getLow b = machine.registers.getLow b →
        ({ machine with registers } : Machine).step.registers.get dst = machine.step.registers.get dst) ∧
    (∀ r, r ≠ dst → machine.step.registers.get r = machine.registers.get r) ∧
    machine.step.memory = machine.memory ∧ machine.step.status = .continuing ∧
    machine.step.gas = ⟨machine.gas.initial, machine.gas.balance - machine.instructionGas.toNat⟩ ∧
    machine.step.pc = next ∧ next = UInt32.ofNat (machine.pc.toNat + instruction.mnemonic.size) := by
  have stepped := step_of_enough running decoded enough
  have paidComputes : (machine.pay machine.instructionGas.toUInt64).registers.computation? instruction =
      some (dst, computation) := computes
  obtain ⟨word, yields, executed⟩ := execute_of_computation paidComputes next
  rw [executed] at stepped
  have written : machine.step.registers = machine.registers.set dst word := by
    rw [stepped]
    rfl
  refine ⟨fun value => ?_, fun r => toInt_toInt64_modEq _, ?_, fun r other => ?_, ?_, ?_, ?_, ?_,
    (extent_of_decode decoded).2⟩
  · rw [written, Registers.get_set_self]
    constructor
    · intro stands
      exact yields.unique stands
    · rintro rfl
      exact yields
  · rintro op a b rfl narrow registers first second
    have elsewhere : ({ machine with registers } : Machine).step = _ := step_of_enough running decoded enough
    have here := step_of_enough running decoded enough
    rw [elsewhere, here, execute, execute, assign, assign, Registers.get_set_self, Registers.get_set_self]
    exact AluOp.apply_of_low narrow first second
  · rw [written, Registers.get_set_of_ne _ other.symm]
  · rw [stepped]
    rfl
  · rw [stepped]
    exact running
  · rw [stepped]
    exact gas_pay_of_affordable enough
  · rw [stepped]
    rfl

end

/-- A machine about to double the low half of a register in place. -/
def doubling : Machine :=
  (idle 1).reset #[190, 0x11, 1] 0 5 (some (Registers.zero.set (.numbered 1) 0x940000000)) none

/-- The double of 2 ^ 30 is the least signed 32-bit integer. -/
theorem register_instructions_compute_integers_in_place :
    decode doubling.program 0 = .ok (.alu .add32 1 1 1, 3) ∧
      (Computation.narrow 0x1280000000).Yields (doubling.step.registers.get 1) ∧
      doubling.step.registers.get 1 = 0xFFFFFFFF80000000 := by
  have decoded : decode doubling.program 0 = .ok (.alu .add32 1 1 1, 3) := by decide +kernel
  have computes : doubling.registers.computation? (.alu .add32 1 1 1) = some (1, .narrow 0x1280000000) := by
    rfl
  have law := register_instructions_compute_integers rfl decoded (by decide) computes
  refine ⟨decoded, (law.1 _).mpr rfl, ((law.1 _).mp ?_).symm⟩
  decide +kernel

end Machine

end MeteredVm
