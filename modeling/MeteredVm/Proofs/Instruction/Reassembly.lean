import MeteredVm.Proofs.Instruction.Grammar
import MeteredVm.Proofs.Instruction.RoundTrip

/-!
Assembling what was decoded. A decoded instruction is written with the bytes that it was read from, except that a half
of a register byte that names no register is cleared, and one that names a register beyond the last names the last. A
code that decodes to its end is therefore decoded as before after its instructions were assembled again.
-/

set_option autoImplicit false
set_option relaxedAutoImplicit false

namespace MeteredVm

/-- How many registers the byte at a position of an instruction names, if it is a register byte. -/
def OperandClass.registersAt? : OperandClass → Nat → Option Nat
  | .regImm64, 1 | .regImm, 1 => some 1
  | .twoRegs, 1 | .twoRegsImm, 1 | .threeRegs, 1 => some 2
  | .threeRegs, 2 => some 1
  | _, _ => Option.none

/-- The byte at a position of an instruction without the freedom that register bytes leave: the half that names no
register is zero, and a name beyond the last register is the name of the last. -/
def OperandClass.canonicalByte (kind : OperandClass) (position : Nat) (byte : UInt8) : UInt8 :=
  match kind.registersAt? position with
  | Option.none => byte
  | some count => UInt8.ofNat (min (byte.toNat % 16) 12 + if count = 2 then 16 * min (byte.toNat / 16) 12 else 0)

/-- The line of an assembly text that writes a decoded instruction. -/
def Instruction.statement (instruction : Instruction Reg) : Statement := .single (instruction.map Fin.val)

/-- The instructions of a code, assembled again. -/
def reassemble (code : Array UInt8) : Array UInt8 :=
  assemble ((disassemble code 0).1.map fun found => found.1.statement)

namespace LittleEndian

private theorem value_lt (bytes : List UInt8) : value bytes < bound bytes.length := by
  induction bytes with
  | nil => exact Nat.zero_lt_one
  | cons byte rest ih =>
    have small := byte.toNat_lt
    simp only [value, bound, List.length_cons]
    omega

private theorem write_value (bytes : List UInt8) : write (value bytes) bytes.length = bytes := by
  induction bytes with
  | nil => rfl
  | cons byte rest ih =>
    have small := byte.toNat_lt
    have low : (byte.toNat + 256 * value rest) % 256 = byte.toNat := by omega
    have high : (byte.toNat + 256 * value rest) / 256 = value rest := by omega
    rw [List.length_cons, write, value, low, high, ih, UInt8.ofNat_toNat]

end LittleEndian

namespace OperandReader

variable {α β γ : Type} {kind : OperandClass} {position width rest : Nat}

/-- Whatever bytes stand at a position of an instruction, the reader takes them, and what it found is written in their
canonical form. -/
def Respells (reader : OperandReader α) (kind : OperandClass) (position width : Nat) (write : α → List UInt8) : Prop :=
  ∀ bytes : List UInt8, bytes.length = width →
    ∃ value, Reads reader bytes value ∧ write value = bytes.mapIdx fun i => kind.canonicalByte (position + i)

private theorem Respells.nothing {value : α} {write : α → List UInt8} (silent : write value = []) :
    Respells (pure value) kind position 0 write := by
  intro bytes length
  obtain rfl := List.eq_nil_of_length_eq_zero length
  exact ⟨value, .pure value, silent⟩

private theorem Respells.map {reader : OperandReader α} {write : α → List UInt8} {write' : β → List UInt8} (f : α → β)
    (head : Respells reader kind position width write) (same : ∀ value, write' (f value) = write value) :
    Respells (f <$> reader) kind position width write' := by
  intro bytes length
  obtain ⟨value, read, written⟩ := head bytes length
  exact ⟨f value, read.map f, (same value).trans written⟩

private theorem Respells.seq {first : OperandReader α} {second : OperandReader β} {write : α → List UInt8}
    {write' : β → List UInt8} {both : γ → List UInt8} (f : α → β → γ)
    (head : Respells first kind position width write) (tail : Respells second kind (position + width) rest write')
    (same : ∀ a b, both (f a b) = write a ++ write' b) :
    Respells (first >>= fun a => f a <$> second) kind position (width + rest) both := by
  intro bytes length
  have front : (bytes.take width).length = width := by
    rw [List.length_take]
    omega
  have back : (bytes.drop width).length = rest := by
    rw [List.length_drop]
    omega
  obtain ⟨a, read, written⟩ := head _ front
  obtain ⟨b, read', written'⟩ := tail _ back
  refine ⟨f a b, ?_, ?_⟩
  · rw [← bytes.take_append_drop width]
    exact read.bind (read'.map (f a))
  · have split : (bytes.take width ++ bytes.drop width).mapIdx (fun i => kind.canonicalByte (position + i)) =
        (bytes.take width).mapIdx (fun i => kind.canonicalByte (position + i)) ++
          (bytes.drop width).mapIdx fun i => kind.canonicalByte (position + (i + (bytes.take width).length)) :=
      List.mapIdx_append
    rw [List.take_append_drop, front] at split
    have place : ∀ i, position + width + i = position + (i + width) := by
      intro i
      omega
    simp only [same, written, written', split, place]

private theorem mapIdx_canonicalByte (plain : ∀ i < width, kind.registersAt? (position + i) = none) {bytes : List UInt8}
    (length : bytes.length = width) : (bytes.mapIdx fun i => kind.canonicalByte (position + i)) = bytes := by
  apply List.ext_getElem (List.length_mapIdx)
  intro i _ inside
  rw [List.getElem_mapIdx, OperandClass.canonicalByte, plain i (length ▸ inside)]

private theorem respells_word32 (plain : ∀ i < 4, kind.registersAt? (position + i) = none) :
    Respells word32 kind position 4 immediateBytes := by
  intro bytes length
  have small := LittleEndian.value_lt bytes
  have written := LittleEndian.write_value bytes
  rw [length] at small written
  have back : immediateBytes (UInt32.ofNat (LittleEndian.value bytes)) = bytes := by
    rw [immediateBytes, UInt32.toNat_ofNat_of_lt' small, written]
  have read := reads_word32 (UInt32.ofNat (LittleEndian.value bytes))
  rw [back] at read
  exact ⟨_, read, back.trans (mapIdx_canonicalByte plain length).symm⟩

private theorem respells_signed32 (plain : ∀ i < 4, kind.registersAt? (position + i) = none) :
    Respells signed32 kind position 4 fun value => immediateBytes value.toUInt32 :=
  (respells_word32 plain).map _ fun _ => rfl

private theorem respells_word64 (plain : ∀ i < 8, kind.registersAt? (position + i) = none) :
    Respells word64 kind position 8 fun value => LittleEndian.write value.toNat 8 := by
  intro bytes length
  have small := LittleEndian.value_lt bytes
  have written := LittleEndian.write_value bytes
  rw [length] at small written
  have back : LittleEndian.write (UInt64.ofNat (LittleEndian.value bytes)).toNat 8 = bytes := by
    rw [UInt64.toNat_ofNat_of_lt' small, written]
  have read := reads_word64 (UInt64.ofNat (LittleEndian.value bytes))
  rw [back] at read
  exact ⟨_, read, back.trans (mapIdx_canonicalByte plain length).symm⟩

private theorem respells_registers (named : kind.registersAt? position = some 2) :
    Respells registers kind position 1 fun found => [registerByte found.1 found.2] := by
  intro bytes length
  obtain ⟨byte, rfl⟩ := List.length_eq_one_iff.mp length
  refine ⟨(Reg.ofNibble (byte.toNat % 16), Reg.ofNibble (byte.toNat / 16)), (reads_byte byte).map _, ?_⟩
  have small := byte.toNat_lt
  have low : min (byte.toNat % 16) 12 % 16 = min (byte.toNat % 16) 12 := by omega
  have high : min (byte.toNat / 16) 12 % 16 = min (byte.toNat / 16) 12 := by omega
  simp only [List.mapIdx_cons, List.mapIdx_nil, Nat.add_zero, OperandClass.canonicalByte, named, if_true, registerByte,
    Reg.ofNibble, low, high]

private theorem respells_register (named : kind.registersAt? position = some 1) :
    Respells register kind position 1 fun found => [registerByte found 0] := by
  intro bytes length
  obtain ⟨byte, rfl⟩ := List.length_eq_one_iff.mp length
  refine ⟨Reg.ofNibble (byte.toNat % 16), ((reads_byte byte).map _).map Prod.fst, ?_⟩
  have low : min (byte.toNat % 16) 12 % 16 = min (byte.toNat % 16) 12 := by omega
  simp [OperandClass.canonicalByte, named, registerByte, Reg.ofNibble, low]

private theorem respells_operands (mnemonic : Mnemonic) :
    Respells mnemonic.operands mnemonic.operandClass 1 (mnemonic.size - 1)
      fun instruction => (instruction.map Fin.val).operandBytes := by
  have imm : ∀ i < 4, OperandClass.imm.registersAt? (1 + i) = none := by decide
  have regImm64 : ∀ i < 8, OperandClass.regImm64.registersAt? (1 + 1 + i) = none := by decide
  have regImm : ∀ i < 4, OperandClass.regImm.registersAt? (1 + 1 + i) = none := by decide
  have twoRegsImm : ∀ i < 4, OperandClass.twoRegsImm.registersAt? (1 + 1 + i) = none := by decide
  cases mnemonic with
  | trap => exact .nothing rfl
  | fallthrough => exact .nothing rfl
  | ecalli => exact (respells_word32 imm).map _ fun _ => by rfl
  | loadImm64 => exact (respells_register rfl).seq _ (respells_word64 regImm64) fun _ _ => by rfl
  | jump => exact (respells_word32 imm).map _ fun _ => by rfl
  | jumpInd => exact (respells_register rfl).seq _ (respells_word32 regImm) fun _ _ => by rfl
  | loadImm => exact (respells_register rfl).seq _ (respells_signed32 regImm) fun _ _ => by rfl
  | load kind => exact (respells_register rfl).seq _ (respells_word32 regImm) fun _ _ => by rfl
  | store kind => exact (respells_register rfl).seq _ (respells_word32 regImm) fun _ _ => by rfl
  | moveReg => exact (respells_registers rfl).map _ fun _ => by rfl
  | sbrk => exact (respells_registers rfl).map _ fun _ => by rfl
  | storeInd kind => exact (respells_registers rfl).seq _ (respells_signed32 twoRegsImm) fun _ _ => by rfl
  | loadInd kind => exact (respells_registers rfl).seq _ (respells_signed32 twoRegsImm) fun _ _ => by rfl
  | addImm64 => exact (respells_registers rfl).seq _ (respells_signed32 twoRegsImm) fun _ _ => by rfl
  | branch condition => exact (respells_registers rfl).seq _ (respells_word32 twoRegsImm) fun _ _ => by rfl
  | alu op => exact (respells_registers rfl).seq _ (respells_register rfl) fun _ _ => by rfl

end OperandReader

private theorem Instruction.statement_map_written (instruction : Instruction Reg) :
    (instruction.map Fin.val).map Reg.written = instruction := by
  have same : Reg.written ∘ Fin.val = id := by
    funext r
    apply Fin.ext
    rw [Function.comp_apply, Reg.val_written, id_eq]
    omega
  rw [Instruction.map_map, same, Instruction.map_id]

@[simp] private theorem Instruction.encode_statement (instruction : Instruction Reg) :
    instruction.statement.encode = instruction.mnemonic.opcode :: (instruction.map Fin.val).operandBytes := by
  have same : (instruction.map Fin.val).mnemonic = instruction.mnemonic := by
    cases instruction <;> rfl
  rw [statement, Statement.encode, encode, same]

/-- The bytes of a decoded instruction are the canonical form of those it was decoded from. -/
private theorem encode_of_decode {code : Array UInt8} {pc next : UInt32} {instruction : Instruction Reg}
    (decoded : decode code pc = .ok (instruction, next)) :
    instruction.statement.encode =
      ((code.toList.drop pc.toNat).take instruction.mnemonic.size).mapIdx
        instruction.mnemonic.operandClass.canonicalByte := by
  obtain ⟨opcode, found, named, whole, read, -⟩ := reads_of_decode decoded
  have pos := instruction.mnemonic.size_pos
  obtain ⟨size, size_eq⟩ : ∃ size, instruction.mnemonic.size = size + 1 := ⟨_, (Nat.succ_pred_eq_of_pos pos).symm⟩
  have inside : pc.toNat < code.toList.length := by
    rw [Array.length_toList]
    omega
  have first : code.toList[pc.toNat] = opcode := by
    rw [← Array.getElem?_toList, List.getElem?_eq_getElem inside] at found
    exact Option.some.inj found
  have front : (code.toList.take (pc.toNat + 1)).length = pc.toNat + 1 := by
    rw [List.length_take]
    omega
  have length : ((code.toList.drop (pc.toNat + 1)).take size).length = size := by
    rw [List.length_take, List.length_drop, Array.length_toList]
    omega
  -- The operands are read out of the middle of the code, so they are what their bytes alone are read as.
  obtain ⟨again, reads, written⟩ := OperandReader.respells_operands instruction.mnemonic
    ((code.toList.drop (pc.toNat + 1)).take size) (by rw [length, size_eq, Nat.add_sub_cancel])
  have whole_code : code.toList.take (pc.toNat + 1) ++ (code.toList.drop (pc.toNat + 1)).take size ++
      (code.toList.drop (pc.toNat + 1)).drop size = code.toList := by
    rw [List.append_assoc, List.take_append_drop, List.take_append_drop]
  have there := reads (code.toList.take (pc.toNat + 1)) ((code.toList.drop (pc.toNat + 1)).drop size)
  rw [whole_code, front, Array.toArray_toList, read] at there
  obtain rfl : instruction = again := (Prod.mk.inj (Option.some.inj there)).1
  change (instruction.map Fin.val).operandBytes = _ at written
  have plain : instruction.mnemonic.operandClass.canonicalByte 0 opcode = opcode := by
    cases instruction.mnemonic.operandClass <;> rfl
  have spelled : (fun i => instruction.mnemonic.operandClass.canonicalByte (i + 1)) =
      fun i => instruction.mnemonic.operandClass.canonicalByte (1 + i) := by
    funext i
    rw [Nat.add_comm]
  rw [Instruction.encode_statement, Mnemonic.opcode_of_ofOpcode? named, written, size_eq,
    List.drop_eq_getElem_cons inside, List.take_succ_cons, List.mapIdx_cons, first, plain, spelled]

private theorem length_encode_statement (instruction : Instruction Reg) :
    instruction.statement.encode.length = instruction.mnemonic.size := by
  have same : (instruction.map Fin.val).mnemonic = instruction.mnemonic := by
    cases instruction <;> rfl
  rw [Instruction.statement, Statement.encode, Instruction.length_encode, same]

/-- Written at any offset of any code, a decoded instruction is decoded there again. -/
private theorem decode_statement (before after : List UInt8) (instruction : Instruction Reg)
    (reachable : before.length < UInt32.size) :
    decode (before ++ instruction.statement.encode ++ after).toArray (UInt32.ofNat before.length) =
      .ok (instruction, UInt32.ofNat (before.length + instruction.statement.encode.length)) := by
  have decoded := decode_encode before after (instruction.map Fin.val) reachable
  rw [Instruction.statement_map_written] at decoded
  exact decoded

def respelled (found : List (Instruction Reg × UInt32)) : List UInt8 := found.flatMap fun one => one.1.statement.encode

private theorem toList_reassemble (code : Array UInt8) :
    (reassemble code).toList = respelled (disassemble code 0).1 := by
  rw [reassemble, assemble, Assembler.code_emitAll, Assembler.empty, List.nil_append, List.flatMap_map]
  rfl

section

variable {code : Array UInt8} (fits : code.size ≤ 4294967295) {place : UInt32} {length : Nat}

include fits

private theorem outside_of_decode {pc : UInt32} (failed : decode code pc = .error (.pcOutOfRange place length)) :
    code.size ≤ pc.toNat ∧ place = pc ∧ length = code.size := by
  have verdict := decode_verdict fits pc
  rw [failed] at verdict
  cases verdict with
  | outside outside => exact ⟨outside, rfl, rfl⟩

private theorem disassemble_respelled (pc : UInt32) (inside : pc.toNat ≤ code.size)
    (ends : (disassemble code pc).2 = some (.pcOutOfRange place length)) (before : List UInt8)
    (reaches : before.length = pc.toNat) :
    let again := (before ++ respelled (disassemble code pc).1).toArray
    again.size = code.size ∧ disassemble again pc = disassemble code pc ∧
      ∀ offset ∈ pc :: (disassemble code pc).1.map Prod.snd, decode again offset = decode code offset := by
  fun_induction disassemble code pc generalizing before with
  | case1 pc error failed =>
    obtain rfl : error = .pcOutOfRange place length := Option.some.inj ends
    obtain ⟨outside, rfl, rfl⟩ := outside_of_decode fits failed
    intro again
    have size : again.size = code.size := by
      rw [List.size_toArray, respelled, List.flatMap_nil, List.append_nil]
      omega
    have behind : decode again place = .error (.pcOutOfRange place code.size) := by
      rw [decode_of_outside (by omega), size]
    refine ⟨size, by rw [disassemble, behind], fun offset here => ?_⟩
    rw [List.map_nil, List.mem_singleton] at here
    rw [here, behind, failed]
  | case2 pc instruction next decoded onwards rest stop later ih =>
    obtain ⟨size, stands⟩ := stands_of_decode fits decoded
    have extent := extent_of_decode decoded
    rw [later] at ih
    have front : (before ++ instruction.statement.encode).length = next.toNat := by
      have wide : pc.toNat + instruction.mnemonic.size < UInt32.size := by
        unfold UInt32.size
        omega
      rw [List.length_append, length_encode_statement, reaches, extent.2, UInt32.toNat_ofNat_of_lt' wide]
    obtain ⟨same, onward, kept⟩ := ih onwards.2 ends (before ++ instruction.statement.encode) front
    intro again
    have split : again = (before ++ instruction.statement.encode ++ respelled rest).toArray := by
      rw [List.append_assoc]
      rfl
    have first : decode again pc = .ok (instruction, next) := by
      have decoded' := decode_statement before (respelled rest) instruction (reaches ▸ pc.toNat_lt)
      rwa [← split, reaches, UInt32.ofNat_toNat, ← reaches, ← List.length_append, front, UInt32.ofNat_toNat] at decoded'
    rw [← split] at same onward kept
    refine ⟨same, ?_, fun offset here => ?_⟩
    · rw [disassemble, first]
      simp only [onwards, same, onward, and_self, dite_true]
    · rcases List.mem_cons.mp here with rfl | further
      · rw [first, decoded]
      · exact kept offset further
  | case3 pc instruction next decoded stays => cases ends

end

/-- What was decoded is assembled to its canonical form. The bytes of a decoded instruction are as many as it was
decoded from and decode to it wherever they stand; each is the byte that stood there, with a cleared half where it named
no register and the last register where it named one beyond. Of a code that decodes to its end, assembling the
instructions again keeps all of them with their offsets, and so all targets of jumps; doing it twice changes nothing
more. -/
theorem decoded_code_is_reassembled (code : Array UInt8) (fits : code.size ≤ 4294967295) :
    (∀ pc instruction next, decode code pc = .ok (instruction, next) →
      let bytes := assemble [instruction.statement]
      pc.toNat + bytes.size = next.toNat ∧
      decode bytes 0 = .ok (instruction, next - pc) ∧
      (∀ before after : List UInt8, before.length < UInt32.size →
        decode (before ++ bytes.toList ++ after).toArray (UInt32.ofNat before.length) =
          .ok (instruction, UInt32.ofNat (before.length + bytes.size))) ∧
      (∀ assembler : Assembler, (assembler.emit instruction.statement).code = assembler.code ++ bytes) ∧
      ∀ i < bytes.size,
        bytes[i]? = code[pc.toNat + i]?.map (instruction.mnemonic.operandClass.canonicalByte i)) ∧
    ∀ place length, (disassemble code 0).2 = some (.pcOutOfRange place length) →
      (reassemble code).size = code.size ∧
      disassemble (reassemble code) 0 = disassemble code 0 ∧
      (∀ offset ∈ 0 :: (disassemble code 0).1.map Prod.snd,
        decode (reassemble code) offset = decode code offset) ∧
      reassemble (reassemble code) = reassemble code := by
  constructor
  · intro pc instruction next decoded bytes
    have spelled : bytes = instruction.statement.encode.toArray := by
      rw [← Array.toList_inj]
      exact (Assembler.code_emitAll .empty [instruction.statement]).trans (List.append_nil _)
    obtain ⟨whole, behind⟩ := extent_of_decode decoded
    have size : bytes.size = instruction.mnemonic.size := by
      rw [spelled, List.size_toArray, length_encode_statement]
    have wide : pc.toNat + instruction.mnemonic.size < UInt32.size := by
      unfold UInt32.size
      omega
    have next_eq : next.toNat = pc.toNat + instruction.mnemonic.size := by
      rw [behind, UInt32.toNat_ofNat_of_lt' wide]
    have anywhere : ∀ before after : List UInt8, before.length < UInt32.size →
        decode (before ++ bytes.toList ++ after).toArray (UInt32.ofNat before.length) =
          .ok (instruction, UInt32.ofNat (before.length + bytes.size)) := by
      intro before after reachable
      rw [spelled]
      exact decode_statement before after instruction reachable
    have distance : UInt32.ofNat (0 + bytes.size) = next - pc := by
      have le : pc ≤ next := by
        rw [UInt32.le_iff_toNat_le]
        omega
      rw [← UInt32.toNat_inj, UInt32.toNat_sub_of_le _ _ le, UInt32.toNat_ofNat_of_lt' (by omega)]
      omega
    refine ⟨by omega, ?_, anywhere, fun assembler => ?_, fun i inside => ?_⟩
    · have alone := anywhere [] [] (by decide)
      rw [List.nil_append, List.append_nil, Array.toArray_toList, List.length_nil, distance] at alone
      exact alone
    · rw [spelled, Assembler.emit, ← Array.toList_inj, Array.toList_appendList, Array.toList_append,
        List.toList_toArray]
    · have taken : i < instruction.mnemonic.size := size ▸ inside
      rw [spelled, encode_of_decode decoded, List.getElem?_toArray, List.getElem?_mapIdx,
        List.getElem?_take_of_lt taken, List.getElem?_drop, Array.getElem?_toList]
  · intro place length ends
    obtain ⟨size, same, kept⟩ := disassemble_respelled fits 0 (Nat.zero_le _) ends [] rfl
    rw [List.nil_append, ← toList_reassemble, Array.toArray_toList] at size same kept
    refine ⟨size, same, kept, ?_⟩
    rw [reassemble, same, ← reassemble]

/-- A code with two bytes that are not canonical: a constant for register 3, with a half of the register byte unused
but set, and a product for a register beyond the last. -/
theorem decoded_code_is_reassembled_with_spare_bits :
    let code : Array UInt8 := #[51, 0xF3, 7, 0, 0, 0, 202, 0x32, 0x7E]
    code.size ≤ 4294967295 ∧ (disassemble code 0).2 = some (.pcOutOfRange 9 9) ∧
      decode code 6 = .ok (.alu .mul64 12 2 3, 9) ∧ decode (reassemble code) 6 = decode code 6 ∧
      (assemble [Instruction.statement (.alu .mul64 12 2 3)])[2]? = some 12 ∧
      reassemble code = #[51, 3, 7, 0, 0, 0, 202, 0x32, 12] ∧ reassemble (reassemble code) = reassemble code := by
  intro code
  have fits : code.size ≤ 4294967295 := by decide
  have met : disassemble code 0 =
      ([(.loadImm 3 7, 6), (.alu .mul64 12 2 3, 9)], some (.pcOutOfRange 9 9)) := by decide +kernel
  have product : decode code 6 = .ok (.alu .mul64 12 2 3, 9) := by decide +kernel
  obtain ⟨single, all⟩ := decoded_code_is_reassembled code fits
  have ends : (disassemble code 0).2 = some (.pcOutOfRange 9 9) := congrArg Prod.snd met
  obtain ⟨size, same, kept, twice⟩ := all 9 9 ends
  obtain ⟨-, -, -, -, bytes⟩ := single 6 _ 9 product
  have there : (6 : UInt32) ∈ 0 :: (disassemble code 0).1.map Prod.snd := by
    rw [met]
    decide
  exact ⟨fits, ends, product, kept 6 there, (bytes 2 (by decide)).trans (by decide +kernel), by decide +kernel, twice⟩

end MeteredVm
