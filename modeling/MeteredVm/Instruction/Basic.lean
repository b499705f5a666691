import MeteredVm.Registers

/-!
The instructions of the machine, as a type over the form of their register operands: a decoded instruction names
registers of the machine, an instruction to be assembled names any number.
-/

set_option autoImplicit false
set_option relaxedAutoImplicit false

namespace MeteredVm

inductive LoadKind where
  | u8 | i8 | u16 | i16 | u32 | i32 | u64
deriving DecidableEq, Repr

namespace LoadKind

/-- All kinds, in the order of their opcodes. -/
def all : List LoadKind := [.u8, .i8, .u16, .i16, .u32, .i32, .u64]

def width : LoadKind → Nat
  | .u8 | .i8 => 1
  | .u16 | .i16 => 2
  | .u32 | .i32 => 4
  | .u64 => 8

/-- Extends a zero-padded word by its sign where the kind is signed. -/
def extend (kind : LoadKind) (raw : UInt64) : UInt64 :=
  match kind with
  | .i8 => raw.toUInt8.toInt8.toInt64.toUInt64
  | .i16 => raw.toUInt16.toInt16.toInt64.toUInt64
  | .i32 => raw.toUInt32.toInt32.toInt64.toUInt64
  | .u8 | .u16 | .u32 | .u64 => raw

theorem width_pos (kind : LoadKind) : 0 < kind.width := by cases kind <;> decide

theorem width_le (kind : LoadKind) : kind.width ≤ 8 := by cases kind <;> decide

end LoadKind

inductive StoreKind where
  | u8 | u16 | u32 | u64
deriving DecidableEq, Repr

namespace StoreKind

def all : List StoreKind := [.u8, .u16, .u32, .u64]

def width : StoreKind → Nat
  | .u8 => 1
  | .u16 => 2
  | .u32 => 4
  | .u64 => 8

theorem width_pos (kind : StoreKind) : 0 < kind.width := by cases kind <;> decide

theorem width_le (kind : StoreKind) : kind.width ≤ 8 := by cases kind <;> decide

end StoreKind

inductive BranchCondition where
  | eq | ne | ltU | geU
deriving DecidableEq, Repr

namespace BranchCondition

def all : List BranchCondition := [.eq, .ne, .ltU, .geU]

/-- Whether the condition holds of two words, compared as unsigned numbers. -/
def holds (condition : BranchCondition) (a b : UInt64) : Bool :=
  match condition with
  | .eq => a == b
  | .ne => a != b
  | .ltU => a < b
  | .geU => b ≤ a

/-- The comparison of numbers that a condition stands for. -/
def Compares : BranchCondition → Nat → Nat → Prop
  | .eq, m, n => m = n
  | .ne, m, n => m ≠ n
  | .ltU, m, n => m < n
  | .geU, m, n => n ≤ m

theorem holds_iff (condition : BranchCondition) (a b : UInt64) :
    condition.holds a b = true ↔ condition.Compares a.toNat b.toNat := by
  cases condition with
  | eq => exact beq_iff_eq.trans UInt64.toNat_inj.symm
  | ne => exact bne_iff_ne.trans (not_congr UInt64.toNat_inj.symm)
  | ltU => exact decide_eq_true_iff.trans UInt64.lt_iff_toNat_lt
  | geU => exact decide_eq_true_iff.trans UInt64.le_iff_toNat_le

end BranchCondition

inductive AluOp where
  | add32 | sub32 | add64 | sub64 | mul64 | and | xor | or
deriving DecidableEq, Repr

namespace AluOp

def all : List AluOp := [.add32, .sub32, .add64, .sub64, .mul64, .and, .xor, .or]

/-- The result of an operation: 32-bit operations act on the low halves and extend their result by its sign, 64-bit
operations wrap. -/
def apply (op : AluOp) (a b : UInt64) : UInt64 :=
  match op with
  | .add32 => Registers.signExtend (a.toUInt32 + b.toUInt32)
  | .sub32 => Registers.signExtend (a.toUInt32 - b.toUInt32)
  | .add64 => a + b
  | .sub64 => a - b
  | .mul64 => a * b
  | .and => a &&& b
  | .xor => a ^^^ b
  | .or => a ||| b

end AluOp

/-- An instruction whose register operands have the form `ρ`. -/
inductive Instruction (ρ : Type) where
  | trap
  | fallthrough
  | ecalli (index : UInt32)
  | loadImm64 (dst : ρ) (value : UInt64)
  | jump (target : UInt32)
  | jumpInd (base : ρ) (offset : UInt32)
  | loadImm (dst : ρ) (value : Int32)
  | load (kind : LoadKind) (dst : ρ) (address : UInt32)
  | store (kind : StoreKind) (src : ρ) (address : UInt32)
  | moveReg (dst src : ρ)
  | sbrk (dst size : ρ)
  | storeInd (kind : StoreKind) (src base : ρ) (offset : Int32)
  | loadInd (kind : LoadKind) (dst base : ρ) (offset : Int32)
  | addImm64 (dst src : ρ) (value : Int32)
  | branch (condition : BranchCondition) (a b : ρ) (target : UInt32)
  | alu (op : AluOp) (dst a b : ρ)
deriving DecidableEq, Repr

namespace Instruction

def map {ρ σ : Type} (f : ρ → σ) : Instruction ρ → Instruction σ
  | .trap => .trap
  | .fallthrough => .fallthrough
  | .ecalli index => .ecalli index
  | .loadImm64 dst value => .loadImm64 (f dst) value
  | .jump target => .jump target
  | .jumpInd base offset => .jumpInd (f base) offset
  | .loadImm dst value => .loadImm (f dst) value
  | .load kind dst address => .load kind (f dst) address
  | .store kind src address => .store kind (f src) address
  | .moveReg dst src => .moveReg (f dst) (f src)
  | .sbrk dst size => .sbrk (f dst) (f size)
  | .storeInd kind src base offset => .storeInd kind (f src) (f base) offset
  | .loadInd kind dst base offset => .loadInd kind (f dst) (f base) offset
  | .addImm64 dst src value => .addImm64 (f dst) (f src) value
  | .branch condition a b target => .branch condition (f a) (f b) target
  | .alu op dst a b => .alu op (f dst) (f a) (f b)

@[simp] theorem map_id {ρ : Type} (instruction : Instruction ρ) : instruction.map id = instruction := by
  cases instruction <;> rfl

theorem map_map {ρ σ τ : Type} (f : ρ → σ) (g : σ → τ) (instruction : Instruction ρ) :
    (instruction.map f).map g = instruction.map (g ∘ f) := by
  cases instruction <;> rfl

end Instruction

/-- What an opcode stands for: an instruction without its operands. -/
inductive Mnemonic where
  | trap
  | fallthrough
  | ecalli
  | loadImm64
  | jump
  | jumpInd
  | loadImm
  | load (kind : LoadKind)
  | store (kind : StoreKind)
  | moveReg
  | sbrk
  | storeInd (kind : StoreKind)
  | loadInd (kind : LoadKind)
  | addImm64
  | branch (condition : BranchCondition)
  | alu (op : AluOp)
deriving DecidableEq, Repr

def Instruction.mnemonic {ρ : Type} : Instruction ρ → Mnemonic
  | .trap => .trap
  | .fallthrough => .fallthrough
  | .ecalli _ => .ecalli
  | .loadImm64 _ _ => .loadImm64
  | .jump _ => .jump
  | .jumpInd _ _ => .jumpInd
  | .loadImm _ _ => .loadImm
  | .load kind _ _ => .load kind
  | .store kind _ _ => .store kind
  | .moveReg _ _ => .moveReg
  | .sbrk _ _ => .sbrk
  | .storeInd kind _ _ _ => .storeInd kind
  | .loadInd kind _ _ _ => .loadInd kind
  | .addImm64 _ _ _ => .addImm64
  | .branch condition _ _ _ => .branch condition
  | .alu op _ _ _ => .alu op

/-- How the operands of an instruction are laid out behind its opcode. -/
inductive OperandClass where
  | none
  | imm
  | regImm64
  | regImm
  | twoRegs
  | twoRegsImm
  /-- A byte of two registers and a register byte. -/
  | threeRegs
deriving DecidableEq, Repr

/-- The length of an instruction with operands of a class, opcode included. -/
def OperandClass.size : OperandClass → Nat
  | .none => 1
  | .imm => 5
  | .regImm64 => 10
  | .regImm => 6
  | .twoRegs => 2
  | .twoRegsImm => 6
  | .threeRegs => 3

namespace Mnemonic

def operandClass : Mnemonic → OperandClass
  | .trap | .fallthrough => .none
  | .ecalli | .jump => .imm
  | .loadImm64 => .regImm64
  | .jumpInd | .loadImm | .load _ | .store _ => .regImm
  | .moveReg | .sbrk => .twoRegs
  | .storeInd _ | .loadInd _ | .addImm64 | .branch _ => .twoRegsImm
  | .alu _ => .threeRegs

def size (mnemonic : Mnemonic) : Nat := mnemonic.operandClass.size

def opcode : Mnemonic → UInt8
  | .trap => 0
  | .fallthrough => 1
  | .ecalli => 10
  | .loadImm64 => 20
  | .jump => 40
  | .jumpInd => 50
  | .loadImm => 51
  | .load .u8 => 52
  | .load .i8 => 53
  | .load .u16 => 54
  | .load .i16 => 55
  | .load .u32 => 56
  | .load .i32 => 57
  | .load .u64 => 58
  | .store .u8 => 59
  | .store .u16 => 60
  | .store .u32 => 61
  | .store .u64 => 62
  | .moveReg => 100
  | .sbrk => 101
  | .storeInd .u8 => 120
  | .storeInd .u16 => 121
  | .storeInd .u32 => 122
  | .storeInd .u64 => 123
  | .loadInd .u8 => 124
  | .loadInd .i8 => 125
  | .loadInd .u16 => 126
  | .loadInd .i16 => 127
  | .loadInd .u32 => 128
  | .loadInd .i32 => 129
  | .loadInd .u64 => 130
  | .addImm64 => 149
  | .branch .eq => 170
  | .branch .ne => 171
  | .branch .ltU => 172
  | .branch .geU => 173
  | .alu .add32 => 190
  | .alu .sub32 => 191
  | .alu .add64 => 200
  | .alu .sub64 => 201
  | .alu .mul64 => 202
  | .alu .and => 210
  | .alu .xor => 211
  | .alu .or => 212

def ofOpcode? (opcode : UInt8) : Option Mnemonic :=
  match opcode.toNat with
  | 0 => some .trap
  | 1 => some .fallthrough
  | 10 => some .ecalli
  | 20 => some .loadImm64
  | 40 => some .jump
  | 50 => some .jumpInd
  | 51 => some .loadImm
  | 52 => some (.load .u8)
  | 53 => some (.load .i8)
  | 54 => some (.load .u16)
  | 55 => some (.load .i16)
  | 56 => some (.load .u32)
  | 57 => some (.load .i32)
  | 58 => some (.load .u64)
  | 59 => some (.store .u8)
  | 60 => some (.store .u16)
  | 61 => some (.store .u32)
  | 62 => some (.store .u64)
  | 100 => some .moveReg
  | 101 => some .sbrk
  | 120 => some (.storeInd .u8)
  | 121 => some (.storeInd .u16)
  | 122 => some (.storeInd .u32)
  | 123 => some (.storeInd .u64)
  | 124 => some (.loadInd .u8)
  | 125 => some (.loadInd .i8)
  | 126 => some (.loadInd .u16)
  | 127 => some (.loadInd .i16)
  | 128 => some (.loadInd .u32)
  | 129 => some (.loadInd .i32)
  | 130 => some (.loadInd .u64)
  | 149 => some .addImm64
  | 170 => some (.branch .eq)
  | 171 => some (.branch .ne)
  | 172 => some (.branch .ltU)
  | 173 => some (.branch .geU)
  | 190 => some (.alu .add32)
  | 191 => some (.alu .sub32)
  | 200 => some (.alu .add64)
  | 201 => some (.alu .sub64)
  | 202 => some (.alu .mul64)
  | 210 => some (.alu .and)
  | 211 => some (.alu .xor)
  | 212 => some (.alu .or)
  | _ => none

@[simp] theorem ofOpcode?_opcode (mnemonic : Mnemonic) : ofOpcode? mnemonic.opcode = some mnemonic := by
  cases mnemonic with
  | load kind => cases kind <;> rfl
  | store kind => cases kind <;> rfl
  | storeInd kind => cases kind <;> rfl
  | loadInd kind => cases kind <;> rfl
  | branch condition => cases condition <;> rfl
  | alu op => cases op <;> rfl
  | _ => rfl

end Mnemonic

end MeteredVm
