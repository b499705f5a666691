import MeteredVm.AddressSpace
import MeteredVm.Instruction.Basic
import MeteredVm.LittleEndian

/-!
The written form of instructions, and the assembler that appends them to a code. Register operands are any numbers,
of which the low four bits are written.
-/

set_option autoImplicit false
set_option relaxedAutoImplicit false

namespace MeteredVm

/-- The byte that names two registers, the first in its low half and the second in its high half. -/
def registerByte (low high : Nat) : UInt8 := UInt8.ofNat (low % 16 + 16 * (high % 16))

def immediateBytes (value : UInt32) : List UInt8 := LittleEndian.write value.toNat 4

namespace Instruction

def operandBytes : Instruction Nat → List UInt8
  | .trap | .fallthrough => []
  | .ecalli index => immediateBytes index
  | .loadImm64 dst value => registerByte dst 0 :: LittleEndian.write value.toNat 8
  | .jump target => immediateBytes target
  | .jumpInd base offset => registerByte base 0 :: immediateBytes offset
  | .loadImm dst value => registerByte dst 0 :: immediateBytes value.toUInt32
  | .load _ dst address => registerByte dst 0 :: immediateBytes address
  | .store _ src address => registerByte src 0 :: immediateBytes address
  | .moveReg dst src => [registerByte dst src]
  | .sbrk dst size => [registerByte dst size]
  | .storeInd _ src base offset => registerByte src base :: immediateBytes offset.toUInt32
  | .loadInd _ dst base offset => registerByte dst base :: immediateBytes offset.toUInt32
  | .addImm64 dst src value => registerByte dst src :: immediateBytes value.toUInt32
  | .branch _ a b target => registerByte a b :: immediateBytes target
  | .alu _ dst a b => [registerByte a b, registerByte dst 0]

def encode (instruction : Instruction Nat) : List UInt8 :=
  instruction.mnemonic.opcode :: instruction.operandBytes

theorem length_encode (instruction : Instruction Nat) :
    instruction.encode.length = instruction.mnemonic.size := by
  cases instruction <;>
    simp [encode, operandBytes, immediateBytes, LittleEndian.length_write, mnemonic, Mnemonic.size,
      Mnemonic.operandClass, OperandClass.size]

end Instruction

inductive Statement where
  | single (instruction : Instruction Nat)
  /-- The two instructions that halt the machine through register 0. -/
  | halt
  /-- Bytes taken as they are. -/
  | raw (bytes : Array UInt8)

def haltSequence : List (Instruction Nat) :=
  [.loadImm64 0 AddressSpace.haltAddress.toUInt64, .jumpInd 0 0]

def Statement.encode : Statement → List UInt8
  | .single instruction => instruction.encode
  | .halt => haltSequence.flatMap Instruction.encode
  | .raw bytes => bytes.toList

structure Assembler where
  code : Array UInt8

namespace Assembler

def empty : Assembler := ⟨#[]⟩

def pc (assembler : Assembler) : UInt32 := UInt32.ofNat assembler.code.size

def emit (assembler : Assembler) (statement : Statement) : Assembler :=
  ⟨assembler.code ++ statement.encode⟩

def emitAll (assembler : Assembler) (statements : List Statement) : Assembler :=
  statements.foldl emit assembler

/-- The offsets behind each of the statements, when they are appended in order. -/
def offsets (assembler : Assembler) : List Statement → List UInt32
  | [] => []
  | statement :: rest =>
    let next := assembler.emit statement
    next.pc :: next.offsets rest

end Assembler

def assemble (statements : List Statement) : Array UInt8 := (Assembler.empty.emitAll statements).code

end MeteredVm
