import MeteredVm.Instruction.Decoding
import Mathlib.Tactic.Common

/-!
How much of a code an instruction takes. A reader of operands takes a fixed number of bytes and fails only where the
code has fewer left, so an instruction that is decoded lies within the code and is as long as its mnemonic says.
-/

set_option autoImplicit false
set_option relaxedAutoImplicit false

namespace MeteredVm

namespace OperandReader

variable {α β : Type}

/-- The reader takes a fixed number of bytes to a value of some kind, and fails exactly where fewer are left. -/
structure Takes (reader : OperandReader α) (width : Nat) (kind : α → Prop) : Prop where
  whole : ∀ code offset, offset + width ≤ code.size →
    ∃ value, kind value ∧ reader code offset = some (value, offset + width)
  short : ∀ code offset, offset ≤ code.size → code.size < offset + width → reader code offset = none

private theorem Takes.pure {kind : α → Prop} {value : α} (h : kind value) : Takes (pure value) 0 kind where
  whole _ _ _ := ⟨value, h, rfl⟩
  short _ _ inside outside := absurd inside (Nat.not_le_of_lt outside)

private theorem Takes.bind {reader : OperandReader α} {next : α → OperandReader β} {width rest : Nat} {kind : α → Prop}
    {kind' : β → Prop} (head : Takes reader width kind) (tail : ∀ value, kind value → Takes (next value) rest kind') :
    Takes (reader >>= next) (width + rest) kind' where
  whole := by
    intro code offset inside
    obtain ⟨value, holds, read⟩ := head.whole code offset (by omega)
    obtain ⟨last, holds', read'⟩ := (tail value holds).whole code (offset + width) (by omega)
    refine ⟨last, holds', ?_⟩
    simp only [Bind.bind, read, read', Nat.add_assoc]
  short := by
    intro code offset inside outside
    by_cases enough : offset + width ≤ code.size
    · obtain ⟨value, holds, read⟩ := head.whole code offset enough
      have cut := (tail value holds).short code (offset + width) enough (by omega)
      simp only [Bind.bind, read, cut]
    · have cut := head.short code offset inside (by omega)
      simp only [Bind.bind, cut]

private theorem Takes.map {reader : OperandReader α} {width : Nat} {kind : α → Prop} {kind' : β → Prop} (f : α → β)
    (head : Takes reader width kind) (keeps : ∀ value, kind value → kind' (f value)) :
    Takes (f <$> reader) width kind' := by
  have both : Takes (reader >>= fun value => Pure.pure (f value)) (width + 0) kind' :=
    head.bind fun value holds => Takes.pure (keeps value holds)
  exact both

abbrev Any : α → Prop := fun _ => True

private theorem takes_byte : Takes byte 1 Any where
  whole code offset inside := ⟨code[offset], trivial, dif_pos inside⟩
  short _ _ _ outside := dif_neg (by omega)

private theorem takes_number (width : Nat) : Takes (number width) width Any where
  whole _ _ inside := ⟨_, trivial, if_pos inside⟩
  short _ _ _ outside := if_neg (by omega)

private theorem takes_word32 : Takes word32 4 Any := (takes_number 4).map _ fun _ _ => trivial

private theorem takes_signed32 : Takes signed32 4 Any := takes_word32.map _ fun _ _ => trivial

private theorem takes_word64 : Takes word64 8 Any := (takes_number 8).map _ fun _ _ => trivial

private theorem takes_registers : Takes registers 1 Any := takes_byte.map _ fun _ _ => trivial

private theorem takes_register : Takes register 1 Any := takes_registers.map _ fun _ _ => trivial

end OperandReader

open OperandReader in
private theorem Mnemonic.takes_operands (mnemonic : Mnemonic) :
    Takes mnemonic.operands (mnemonic.size - 1) (fun instruction => instruction.mnemonic = mnemonic) := by
  cases mnemonic with
  | trap => exact .pure rfl
  | fallthrough => exact .pure rfl
  | ecalli => exact takes_word32.map _ fun _ _ => by rfl
  | loadImm64 => exact takes_register.bind fun _ _ => takes_word64.map _ fun _ _ => by rfl
  | jump => exact takes_word32.map _ fun _ _ => by rfl
  | jumpInd => exact takes_register.bind fun _ _ => takes_word32.map _ fun _ _ => by rfl
  | loadImm => exact takes_register.bind fun _ _ => takes_signed32.map _ fun _ _ => by rfl
  | load kind => exact takes_register.bind fun _ _ => takes_word32.map _ fun _ _ => by rfl
  | store kind => exact takes_register.bind fun _ _ => takes_word32.map _ fun _ _ => by rfl
  | moveReg => exact takes_registers.map _ fun _ _ => by rfl
  | sbrk => exact takes_registers.map _ fun _ _ => by rfl
  | storeInd kind => exact takes_registers.bind fun _ _ => takes_signed32.map _ fun _ _ => by rfl
  | loadInd kind => exact takes_registers.bind fun _ _ => takes_signed32.map _ fun _ _ => by rfl
  | addImm64 => exact takes_registers.bind fun _ _ => takes_signed32.map _ fun _ _ => by rfl
  | branch condition => exact takes_registers.bind fun _ _ => takes_word32.map _ fun _ _ => by rfl
  | alu op => exact takes_registers.bind fun _ _ => takes_register.map _ fun _ _ => by rfl

theorem Mnemonic.size_pos (mnemonic : Mnemonic) : 0 < mnemonic.size := by
  unfold size OperandClass.size
  split <;> decide

section

variable {code : Array UInt8} {pc : UInt32} {opcode : UInt8} {mnemonic : Mnemonic}

theorem decode_of_outside (outside : code.size ≤ pc.toNat) : decode code pc = .error (.pcOutOfRange pc code.size) := by
  have nothing : decode.byte code pc.toNat = none := dif_neg (Nat.not_lt.mpr outside)
  rw [decode, nothing]

theorem decode_of_unlisted (found : code[pc.toNat]? = some opcode) (unlisted : Mnemonic.ofOpcode? opcode = none) :
    decode code pc = .error (.unknownOpcode opcode pc) := by
  obtain ⟨inside, rfl⟩ := Array.getElem?_eq_some_iff.mp found
  have first : decode.byte code pc.toNat = some (code[pc.toNat], pc.toNat + 1) := dif_pos inside
  simp only [decode, first, unlisted]

variable (found : code[pc.toNat]? = some opcode) (named : Mnemonic.ofOpcode? opcode = some mnemonic)

include found named

theorem decode_of_named {outcome : Option (Instruction Reg × Nat)}
    (read : mnemonic.operands code (pc.toNat + 1) = outcome) :
    decode code pc = (outcome.map fun found => (found.1, UInt32.ofNat found.2)).elim (.error (.truncated pc)) .ok := by
  obtain ⟨inside, rfl⟩ := Array.getElem?_eq_some_iff.mp found
  have first : decode.byte code pc.toNat = some (code[pc.toNat], pc.toNat + 1) := dif_pos inside
  simp only [decode, first, named, read]
  cases outcome <;> rfl

theorem decode_of_cut (cut : code.size < pc.toNat + mnemonic.size) : decode code pc = .error (.truncated pc) := by
  have inside := (Array.getElem?_eq_some_iff.mp found).1
  have pos := mnemonic.size_pos
  have short := mnemonic.takes_operands.short code (pc.toNat + 1) inside (by omega)
  exact decode_of_named found named short

theorem decode_of_whole (whole : pc.toNat + mnemonic.size ≤ code.size) :
    ∃ instruction : Instruction Reg, instruction.mnemonic = mnemonic ∧
      mnemonic.operands code (pc.toNat + 1) = some (instruction, pc.toNat + mnemonic.size) ∧
      decode code pc = .ok (instruction, UInt32.ofNat (pc.toNat + mnemonic.size)) := by
  have pos := mnemonic.size_pos
  obtain ⟨instruction, same, read⟩ := mnemonic.takes_operands.whole code (pc.toNat + 1) (by omega)
  have behind : pc.toNat + 1 + (mnemonic.size - 1) = pc.toNat + mnemonic.size := by omega
  rw [behind] at read
  exact ⟨instruction, same, read, decode_of_named found named read⟩

end

theorem reads_of_decode {code : Array UInt8} {pc next : UInt32} {instruction : Instruction Reg}
    (decoded : decode code pc = .ok (instruction, next)) :
    ∃ opcode, code[pc.toNat]? = some opcode ∧ Mnemonic.ofOpcode? opcode = some instruction.mnemonic ∧
      pc.toNat + instruction.mnemonic.size ≤ code.size ∧
      instruction.mnemonic.operands code (pc.toNat + 1) =
        some (instruction, pc.toNat + instruction.mnemonic.size) ∧
      next = UInt32.ofNat (pc.toNat + instruction.mnemonic.size) := by
  cases found : code[pc.toNat]? with
  | none =>
    rw [decode_of_outside (Array.getElem?_eq_none_iff.mp found)] at decoded
    cases decoded
  | some opcode =>
    cases named : Mnemonic.ofOpcode? opcode with
    | none =>
      rw [decode_of_unlisted found named] at decoded
      cases decoded
    | some mnemonic =>
      by_cases whole : pc.toNat + mnemonic.size ≤ code.size
      · obtain ⟨instruction', rfl, read, decoded'⟩ := decode_of_whole found named whole
        obtain ⟨rfl, rfl⟩ := Prod.mk.inj (Except.ok.inj (decoded'.symm.trans decoded))
        exact ⟨opcode, rfl, named, whole, read, rfl⟩
      · rw [decode_of_cut found named (Nat.lt_of_not_le whole)] at decoded
        cases decoded

/-- An instruction that is decoded lies within the code, and the next one is sought behind it. -/
theorem extent_of_decode {code : Array UInt8} {pc next : UInt32} {instruction : Instruction Reg}
    (decoded : decode code pc = .ok (instruction, next)) :
    pc.toNat + instruction.mnemonic.size ≤ code.size ∧
      next = UInt32.ofNat (pc.toNat + instruction.mnemonic.size) := by
  obtain ⟨opcode, -, -, whole, -, behind⟩ := reads_of_decode decoded
  exact ⟨whole, behind⟩

end MeteredVm
