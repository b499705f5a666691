import MeteredVm.Instruction.Decoding
import MeteredVm.Instruction.Encoding
import Mathlib.Tactic.Common

/-!
Operands are read back as they were written. A reader is said to read some bytes as a value if it does so wherever
the bytes stand in a code; said this way, the parts of an instruction compose without their offsets.
-/

set_option autoImplicit false
set_option relaxedAutoImplicit false

namespace MeteredVm

private theorem LittleEndian.read_between (before bytes after : List UInt8) :
    read (fun i => (before ++ bytes ++ after).toArray.getD i 0) before.length bytes.length = value bytes := by
  induction bytes generalizing before with
  | nil => rfl
  | cons byte rest ih =>
    have shifted := ih (before ++ [byte])
    have same : before ++ [byte] ++ rest ++ after = before ++ byte :: rest ++ after := by simp
    have here : (before ++ byte :: rest ++ after).toArray.getD before.length 0 = byte := by simp
    rw [same, List.length_append, List.length_singleton] at shifted
    rw [List.length_cons, read, value, here, shifted]

namespace OperandReader

variable {α β : Type}

/-- The reader takes the bytes, wherever they stand in a code, to the value. -/
def Reads (reader : OperandReader α) (bytes : List UInt8) (value : α) : Prop :=
  ∀ before after : List UInt8,
    reader (before ++ bytes ++ after).toArray before.length = some (value, before.length + bytes.length)

theorem Reads.pure (value : α) : Reads (pure value) [] value := fun _ _ => rfl

theorem Reads.bind {reader : OperandReader α} {next : α → OperandReader β} {front rest : List UInt8} {a : α} {b : β}
    (head : Reads reader front a) (tail : Reads (next a) rest b) : Reads (reader >>= next) (front ++ rest) b := by
  intro before after
  have first := head before (rest ++ after)
  have second := tail (before ++ front) after
  have same : before ++ (front ++ rest) ++ after = before ++ front ++ rest ++ after := by
    simp only [List.append_assoc]
  rw [← List.append_assoc] at first
  rw [List.length_append] at second
  simp only [Bind.bind, same, first, second, List.length_append, Nat.add_assoc]

theorem Reads.map {reader : OperandReader α} {bytes : List UInt8} {a : α} (f : α → β) (head : Reads reader bytes a) :
    Reads (f <$> reader) bytes (f a) := by
  have both : Reads (reader >>= fun a => Pure.pure (f a)) (bytes ++ []) (f a) := head.bind (Reads.pure (f a))
  rwa [List.append_nil] at both

theorem reads_byte (byte : UInt8) : Reads OperandReader.byte [byte] byte := by
  intro before after
  have inside : before.length < (before ++ [byte] ++ after).toArray.size := by simp
  simp [OperandReader.byte]

private theorem reads_number (n width : Nat) :
    Reads (number width) (LittleEndian.write n width) (n % LittleEndian.bound width) := by
  intro before after
  have between := LittleEndian.read_between before (LittleEndian.write n width) after
  rw [LittleEndian.length_write, LittleEndian.value_write] at between
  have inside : before.length + width ≤ (before ++ LittleEndian.write n width ++ after).toArray.size := by
    simp only [List.size_toArray, List.length_append, LittleEndian.length_write]
    omega
  rw [number, if_pos inside, between, LittleEndian.length_write]

theorem reads_word32 (word : UInt32) : Reads word32 (immediateBytes word) word := by
  have read := (reads_number word.toNat 4).map UInt32.ofNat
  have whole : word.toNat % LittleEndian.bound 4 = word.toNat := Nat.mod_eq_of_lt word.toNat_lt
  rwa [whole, UInt32.ofNat_toNat] at read

private theorem reads_signed32 (word : Int32) : Reads signed32 (immediateBytes word.toUInt32) word :=
  (reads_word32 word.toUInt32).map UInt32.toInt32

theorem reads_word64 (word : UInt64) : Reads word64 (LittleEndian.write word.toNat 8) word := by
  have read := (reads_number word.toNat 8).map UInt64.ofNat
  have whole : word.toNat % LittleEndian.bound 8 = word.toNat := Nat.mod_eq_of_lt word.toNat_lt
  rwa [whole, UInt64.ofNat_toNat] at read

end OperandReader

/-- The register that a written register operand names. -/
def Reg.written (operand : Nat) : Reg := Reg.ofNibble (operand % 16)

namespace OperandReader

private theorem reads_registers (low high : Nat) :
    Reads registers [registerByte low high] (Reg.written low, Reg.written high) := by
  have halves := (reads_byte (registerByte low high)).map
    fun b => (Reg.ofNibble (b.toNat % 16), Reg.ofNibble (b.toNat / 16))
  have spelled : (registerByte low high).toNat = low % 16 + 16 * (high % 16) := by
    rw [registerByte, UInt8.toNat_ofNat']
    omega
  have lowHalf : (registerByte low high).toNat % 16 = low % 16 := by omega
  have highHalf : (registerByte low high).toNat / 16 = high % 16 := by omega
  rw [lowHalf, highHalf] at halves
  exact halves

private theorem reads_register (operand : Nat) : Reads register [registerByte operand 0] (Reg.written operand) :=
  (reads_registers operand 0).map Prod.fst

end OperandReader

open OperandReader in
/-- The operands that an instruction writes are those its mnemonic reads, registers by the low four bits. -/
theorem Instruction.reads_operands (instruction : Instruction Nat) :
    Reads instruction.mnemonic.operands instruction.operandBytes (instruction.map Reg.written) := by
  cases instruction with
  | trap => exact .pure _
  | fallthrough => exact .pure _
  | ecalli index => exact (reads_word32 index).map _
  | loadImm64 dst value => exact (reads_register dst).bind ((reads_word64 value).map _)
  | jump target => exact (reads_word32 target).map _
  | jumpInd base offset => exact (reads_register base).bind ((reads_word32 offset).map _)
  | loadImm dst value => exact (reads_register dst).bind ((reads_signed32 value).map _)
  | load kind dst address => exact (reads_register dst).bind ((reads_word32 address).map _)
  | store kind src address => exact (reads_register src).bind ((reads_word32 address).map _)
  | moveReg dst src => exact (reads_registers dst src).map _
  | sbrk dst size => exact (reads_registers dst size).map _
  | storeInd kind src base offset => exact (reads_registers src base).bind ((reads_signed32 offset).map _)
  | loadInd kind dst base offset => exact (reads_registers dst base).bind ((reads_signed32 offset).map _)
  | addImm64 dst src value => exact (reads_registers dst src).bind ((reads_signed32 value).map _)
  | branch condition a b target => exact (reads_registers a b).bind ((reads_word32 target).map _)
  -- The destination stands behind the sources, in a byte of its own.
  | alu op dst a b => exact (reads_registers a b).bind ((reads_register dst).map _)

end MeteredVm
