import MeteredVm.Instruction.Basic
import MeteredVm.LittleEndian

/-!
Decoding. A code is a string of bytes in which any offset may be asked for the instruction that starts there. The
operands are read one after another from a cursor, and an operand that passes the end of the code truncates the
instruction.
-/

set_option autoImplicit false
set_option relaxedAutoImplicit false

namespace MeteredVm

inductive DecodeError where
  | pcOutOfRange (pc : UInt32) (length : Nat)
  | unknownOpcode (opcode : UInt8) (pc : UInt32)
  | truncated (pc : UInt32)
deriving DecidableEq, Repr

def DecodeError.message : DecodeError → String
  | .pcOutOfRange pc length =>
    "Program counter " ++ toString pc.toNat ++ " is outside the code (" ++ toString length ++ " bytes)"
  | .unknownOpcode opcode pc => "Unknown opcode " ++ toString opcode.toNat ++ " at " ++ toString pc.toNat
  | .truncated pc => "Truncated instruction at " ++ toString pc.toNat

/-- The register named by four bits: the four highest names all mean the last register. -/
def Reg.ofNibble (nibble : Nat) : Reg := ⟨min nibble 12, by omega⟩

/-- Reads an operand at an offset of a code and moves the offset behind it, or finds that the code ends first. -/
def OperandReader (α : Type) : Type := Array UInt8 → Nat → Option (α × Nat)

namespace OperandReader

instance : Monad OperandReader where
  pure a := fun _ offset => some (a, offset)
  bind reader next := fun code offset =>
    match reader code offset with
    | none => none
    | some (a, offset) => next a code offset

@[inline] def byte : OperandReader UInt8 := fun code offset =>
  if h : offset < code.size then some (code[offset], offset + 1) else none

@[inline] def number (width : Nat) : OperandReader Nat := fun code offset =>
  if offset + width ≤ code.size then
    some (LittleEndian.read (fun i => code.getD i 0) offset width, offset + width)
  else none

@[inline] def word32 : OperandReader UInt32 := UInt32.ofNat <$> number 4

@[inline] def signed32 : OperandReader Int32 := UInt32.toInt32 <$> word32

@[inline] def word64 : OperandReader UInt64 := UInt64.ofNat <$> number 8

/-- Reads a byte that names two registers. -/
@[inline] def registers : OperandReader (Reg × Reg) :=
  (fun b => (Reg.ofNibble (b.toNat % 16), Reg.ofNibble (b.toNat / 16))) <$> byte

/-- Reads a byte that names one register in its low half. -/
@[inline] def register : OperandReader Reg := Prod.fst <$> registers

end OperandReader

open OperandReader in
def Mnemonic.operands : Mnemonic → OperandReader (Instruction Reg)
  | .trap => pure .trap
  | .fallthrough => pure .fallthrough
  | .ecalli => do return .ecalli (← word32)
  | .loadImm64 => do
    let dst ← register
    return .loadImm64 dst (← word64)
  | .jump => do return .jump (← word32)
  | .jumpInd => do
    let base ← register
    return .jumpInd base (← word32)
  | .loadImm => do
    let dst ← register
    return .loadImm dst (← signed32)
  | .load kind => do
    let dst ← register
    return .load kind dst (← word32)
  | .store kind => do
    let src ← register
    return .store kind src (← word32)
  | .moveReg => do
    let (dst, src) ← registers
    return .moveReg dst src
  | .sbrk => do
    let (dst, size) ← registers
    return .sbrk dst size
  | .storeInd kind => do
    let (src, base) ← registers
    return .storeInd kind src base (← signed32)
  | .loadInd kind => do
    let (dst, base) ← registers
    return .loadInd kind dst base (← signed32)
  | .addImm64 => do
    let (dst, src) ← registers
    return .addImm64 dst src (← signed32)
  | .branch condition => do
    let (a, b) ← registers
    return .branch condition a b (← word32)
  | .alu op => do
    let (a, b) ← registers
    let dst ← register
    return .alu op dst a b

/-- The instruction at an offset of a code and the offset behind it. -/
def decode (code : Array UInt8) (pc : UInt32) : Except DecodeError (Instruction Reg × UInt32) :=
  match byte code pc.toNat with
  | none => .error (.pcOutOfRange pc code.size)
  | some (opcode, cursor) =>
    match Mnemonic.ofOpcode? opcode with
    | none => .error (.unknownOpcode opcode pc)
    | some mnemonic =>
      match mnemonic.operands code cursor with
      | none => .error (.truncated pc)
      | some (instruction, next) => .ok (instruction, UInt32.ofNat next)
where
  byte (code : Array UInt8) (offset : Nat) : Option (UInt8 × Nat) := OperandReader.byte code offset

/-- The instructions met by decoding from an offset on, each with the offset behind it, and what ended them. -/
def disassemble (code : Array UInt8) (pc : UInt32) : List (Instruction Reg × UInt32) × Option DecodeError :=
  match decode code pc with
  | .error error => ([], some error)
  | .ok (instruction, next) =>
    if _h : pc.toNat < next.toNat ∧ next.toNat ≤ code.size then
      let (rest, stop) := disassemble code next
      ((instruction, next) :: rest, stop)
    else ([(instruction, next)], none)
termination_by code.size - pc.toNat
decreasing_by omega

end MeteredVm
