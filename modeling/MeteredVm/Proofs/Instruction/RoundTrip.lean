import MeteredVm.Proofs.Instruction.Extent
import MeteredVm.Proofs.Instruction.Operands
import Mathlib.Data.List.Basic

/-!
Assembling and decoding. Of a text without raw bytes, decoding at the offset before each emitted instruction gives
that instruction and the offset behind it, and decoding behind the last one finds the end of the code.
-/

set_option autoImplicit false
set_option relaxedAutoImplicit false

namespace MeteredVm

theorem decode_encode (before after : List UInt8) (instruction : Instruction Nat)
    (reachable : before.length < UInt32.size) :
    decode (before ++ instruction.encode ++ after).toArray (UInt32.ofNat before.length) =
      .ok (instruction.map Reg.written, UInt32.ofNat (before.length + instruction.encode.length)) := by
  have offset : (UInt32.ofNat before.length).toNat = before.length := UInt32.toNat_ofNat_of_lt' reachable
  have opcode := OperandReader.reads_byte instruction.mnemonic.opcode before (instruction.operandBytes ++ after)
  have operands := instruction.reads_operands (before ++ [instruction.mnemonic.opcode]) after
  have codeAtOpcode : before ++ instruction.encode ++ after =
      before ++ [instruction.mnemonic.opcode] ++ (instruction.operandBytes ++ after) := by
    simp [Instruction.encode]
  have codeAtOperands : before ++ instruction.encode ++ after =
      before ++ [instruction.mnemonic.opcode] ++ instruction.operandBytes ++ after := by
    simp [Instruction.encode]
  rw [← codeAtOpcode] at opcode
  rw [← codeAtOperands, List.length_append] at operands
  simp only [decode, decode.byte, offset, opcode, Mnemonic.ofOpcode?_opcode, operands]
  simp only [Instruction.encode, List.length_cons, List.length_nil, Nat.add_assoc, Nat.add_comm 1]

private theorem decode_at_end (code : Array UInt8) (reachable : code.size < UInt32.size) :
    decode code (UInt32.ofNat code.size) = .error (.pcOutOfRange (UInt32.ofNat code.size) code.size) := by
  have offset : (UInt32.ofNat code.size).toNat = code.size := UInt32.toNat_ofNat_of_lt' reachable
  exact decode_of_outside (Nat.le_of_eq offset.symm)

namespace Statement

/-- The instructions that a statement emits, one after the other. -/
def instructions : Statement → List (Instruction Nat)
  | .single instruction => [instruction]
  | .halt => haltSequence
  | .raw _ => []

/-- Whether a statement emits bytes that need not be instructions. -/
def isRaw : Statement → Bool
  | .raw _ => true
  | _ => false

private theorem encode_eq_flatMap {statement : Statement} (symbolic : statement.isRaw = false) :
    statement.encode = statement.instructions.flatMap Instruction.encode := by
  cases statement with
  | single instruction => exact (List.flatMap_singleton _ _).symm
  | halt => rfl
  | raw bytes => cases symbolic

end Statement

namespace Assembler

/-- The assembler behind the first `count` of some instructions, emitted one by one into an empty one. -/
def emitted (instructions : List (Instruction Nat)) (count : Nat) : Assembler :=
  empty.emitAll ((instructions.take count).map .single)

theorem code_emitAll (assembler : Assembler) (statements : List Statement) :
    (assembler.emitAll statements).code.toList = assembler.code.toList ++ statements.flatMap Statement.encode := by
  induction statements generalizing assembler with
  | nil => simp [emitAll]
  | cons statement rest ih =>
    have later := ih (assembler.emit statement)
    rw [emitAll, List.foldl_cons, List.flatMap_cons]
    rw [emitAll] at later
    rw [later, emit, Array.toList_appendList, List.append_assoc]

private theorem code_emitAll_symbolic {statements : List Statement}
    (symbolic : ∀ statement ∈ statements, ¬statement.isRaw) :
    (empty.emitAll statements).code.toList =
      (statements.flatMap Statement.instructions).flatMap Instruction.encode := by
  have each : ∀ statement ∈ statements,
      statement.encode = statement.instructions.flatMap Instruction.encode := fun statement member =>
    Statement.encode_eq_flatMap (Bool.eq_false_iff.2 (symbolic statement member))
  rw [code_emitAll, empty, List.flatMap_assoc]
  exact List.flatMap_congr each

private theorem code_emitted (instructions : List (Instruction Nat)) (count : Nat) :
    (emitted instructions count).code.toList = (instructions.take count).flatMap Instruction.encode := by
  rw [emitted, code_emitAll, empty, List.nil_append, List.flatMap_map]
  rfl

private theorem pc_emitted (instructions : List (Instruction Nat)) (count : Nat) :
    (emitted instructions count).pc = UInt32.ofNat ((instructions.take count).flatMap Instruction.encode).length := by
  rw [pc, ← Array.length_toList, code_emitted]

private theorem pc_between_statements {statements : List Statement}
    (symbolic : ∀ statement ∈ statements, ¬statement.isRaw) (count : Nat) : (empty.emitAll (statements.take count)).pc =
      (emitted (statements.flatMap Statement.instructions)
        ((statements.take count).flatMap Statement.instructions).length).pc := by
  have prior : (empty.emitAll (statements.take count)).code.toList =
      ((statements.take count).flatMap Statement.instructions).flatMap Instruction.encode :=
    code_emitAll_symbolic fun statement member => symbolic statement (List.mem_of_mem_take member)
  have whole : statements.flatMap Statement.instructions = (statements.take count).flatMap Statement.instructions ++
      (statements.drop count).flatMap Statement.instructions := by
    rw [← List.flatMap_append, List.take_append_drop]
  rw [pc_emitted, whole, List.take_left, pc, ← Array.length_toList, prior]

private theorem decode_at_emitted {instructions : List (Instruction Nat)}
    (fits : (instructions.flatMap Instruction.encode).length < UInt32.size) {i : Nat}
    (inside : i < instructions.length) :
    decode (instructions.flatMap Instruction.encode).toArray (emitted instructions i).pc =
      .ok (instructions[i].map Reg.written, (emitted instructions (i + 1)).pc) := by
  have parts : instructions.take i ++ instructions[i] :: instructions.drop (i + 1) = instructions := by
    rw [← List.drop_eq_getElem_cons inside, List.take_append_drop]
  have code : instructions.flatMap Instruction.encode = (instructions.take i).flatMap Instruction.encode ++
      instructions[i].encode ++ (instructions.drop (i + 1)).flatMap Instruction.encode := by
    conv_lhs => rw [← parts]
    rw [List.flatMap_append, List.flatMap_cons, List.append_assoc]
  have next : ((instructions.take (i + 1)).flatMap Instruction.encode).length =
      ((instructions.take i).flatMap Instruction.encode).length + instructions[i].encode.length := by
    rw [List.take_succ_eq_append_getElem inside, List.flatMap_append, List.length_append, List.flatMap_singleton]
  -- only offsets below the size of the address space are told apart by the program counter
  have reachable : ((instructions.take i).flatMap Instruction.encode).length < UInt32.size := by
    rw [code, List.length_append, List.length_append] at fits
    omega
  rw [pc_emitted, pc_emitted, next, code]
  exact decode_encode _ _ _ reachable

end Assembler

theorem Reg.val_written (operand : Nat) : (Reg.written operand : Nat) = min (operand % 16) 12 := rfl

/-- In the code of a text without raw bytes, each emitted instruction is found between the offsets before and after
it, with its registers taken by the low four bits and at most 12, and behind the last one the code ends. -/
theorem assembled_instructions_are_decoded (statements : List Statement)
    (symbolic : ∀ statement ∈ statements, ¬statement.isRaw) (fits : (assemble statements).size ≤ 4294967295) :
    let code := assemble statements
    let instructions := statements.flatMap Statement.instructions
    let pc := fun count => (Assembler.emitted instructions count).pc
    (Assembler.emitted instructions instructions.length).code = code ∧
    pc 0 = 0 ∧
    (∀ count, (Assembler.empty.emitAll (statements.take count)).pc =
      pc ((statements.take count).flatMap Statement.instructions).length) ∧
    (∀ (i : Nat) (inside : i < instructions.length),
      decode code (pc i) = .ok (instructions[i].map Reg.written, pc (i + 1))) ∧
    decode code (pc instructions.length) =
      .error (.pcOutOfRange (pc instructions.length) (pc instructions.length).toNat) ∧
    (∀ operand, (Reg.written operand : Nat) = min (operand % 16) 12) ∧
    ∀ operand < 13, (Reg.written operand : Nat) = operand := by
  intro code instructions pc
  have codeBytes : code = (instructions.flatMap Instruction.encode).toArray := by
    rw [← Array.toList_inj, List.toList_toArray]
    exact Assembler.code_emitAll_symbolic symbolic
  have size : code.size = (instructions.flatMap Instruction.encode).length := by rw [codeBytes, List.size_toArray]
  have short : code.size < UInt32.size := Nat.lt_succ_of_le fits
  have last : pc instructions.length = UInt32.ofNat code.size := by
    have emitted := Assembler.pc_emitted instructions instructions.length
    rwa [List.take_length, ← size] at emitted
  refine ⟨?_, rfl, ?_, ?_, ?_, Reg.val_written, ?_⟩
  · rw [codeBytes, ← Array.toList_inj, Assembler.code_emitted, List.take_length]
  · exact Assembler.pc_between_statements symbolic
  · intro i inside
    rw [codeBytes]
    exact Assembler.decode_at_emitted (size ▸ short) inside
  · have number : (UInt32.ofNat code.size).toNat = code.size := UInt32.toNat_ofNat_of_lt' short
    rw [last, number]
    exact decode_at_end code short
  · intro operand small
    rw [Reg.val_written]
    omega

theorem assembled_instructions_are_decoded_beyond_last_register :
    let statements : List Statement :=
      [.single (.loadImm 1 (-5)), .single (.alu .add64 3 14 18), .halt, .single (.branch .ltU 29 7 6)]
    decode (assemble statements) 0 = .ok (.loadImm 1 (-5), 6) ∧
    decode (assemble statements) 6 = .ok (.alu .add64 3 12 2, 9) ∧
    decode (assemble statements) 9 = .ok (.loadImm64 0 AddressSpace.haltAddress.toUInt64, 19) ∧
    decode (assemble statements) 25 = .ok (.branch .ltU 12 7 6, 31) ∧
    decode (assemble statements) 31 = .error (.pcOutOfRange 31 31) := by
  intro statements
  obtain ⟨-, -, -, each, behind, -⟩ :=
    assembled_instructions_are_decoded statements (by decide) (by decide)
  exact ⟨each 0 (by decide), each 1 (by decide), each 2 (by decide), each 4 (by decide), behind⟩

end MeteredVm
