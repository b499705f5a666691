import MeteredVm.Proofs.Instruction.Extent
import MeteredVm.Proofs.Safety.Decoding

/-!
The grammar of codes. Opcodes are listed by the class of their operands, and the class fixes how long an instruction is.
The main statement says which offsets of a code hold an instruction, which failure is reported at the others, and that
an instruction is made of its own bytes alone.
-/

set_option autoImplicit false
set_option relaxedAutoImplicit false

namespace MeteredVm

namespace OperandClass

def all : List OperandClass := [.none, .imm, .regImm64, .regImm, .twoRegs, .twoRegsImm, .threeRegs]

/-- The opcodes whose operands are of a class. -/
def opcodes : OperandClass → List Nat
  | .none => [0, 1]
  | .imm => [10, 40]
  | .regImm64 => [20]
  | .regImm => [50, 51, 52, 53, 54, 55, 56, 57, 58, 59, 60, 61, 62]
  | .twoRegs => [100, 101]
  | .twoRegsImm => [120, 121, 122, 123, 124, 125, 126, 127, 128, 129, 130, 149, 170, 171, 172, 173]
  | .threeRegs => [190, 191, 200, 201, 202, 210, 211, 212]

/-- The length of the instructions of an opcode, if it is listed. -/
def sizeOf? (opcode : UInt8) : Option Nat := (all.find? fun kind => opcode.toNat ∈ kind.opcodes).map size

end OperandClass

namespace Mnemonic

private theorem size_ofOpcode? (opcode : UInt8) : (ofOpcode? opcode).map size = OperandClass.sizeOf? opcode :=
  forall_byte (fun opcode => (ofOpcode? opcode).map size = OperandClass.sizeOf? opcode) (by decide +kernel) opcode

theorem opcode_of_ofOpcode? {opcode : UInt8} {mnemonic : Mnemonic} (named : ofOpcode? opcode = some mnemonic) :
    mnemonic.opcode = opcode := by
  have back : (ofOpcode? opcode).all fun mnemonic => mnemonic.opcode == opcode :=
    forall_byte (fun opcode => (ofOpcode? opcode).all fun mnemonic => mnemonic.opcode == opcode)
      (by decide +kernel) opcode
  rw [named] at back
  exact beq_iff_eq.mp back

private theorem unlisted_iff {opcode : UInt8} : OperandClass.sizeOf? opcode = none ↔ ofOpcode? opcode = none := by
  rw [← size_ofOpcode?, Option.map_eq_none_iff]

private theorem listed_iff {opcode : UInt8} {size : Nat} : OperandClass.sizeOf? opcode = some size ↔
    ∃ mnemonic, ofOpcode? opcode = some mnemonic ∧ mnemonic.size = size := by
  rw [← size_ofOpcode?, Option.map_eq_some_iff]

end Mnemonic

namespace OperandReader

variable {α β : Type}

/-- What the reader finds depends on the bytes that it takes and on nothing else: where they stand again, in the same
code or in another, it finds the same. -/
def Local (reader : OperandReader α) (width : Nat) : Prop :=
  ∀ code offset value behind, reader code offset = some (value, behind) →
    behind = offset + width ∧
      ∀ (other : Array UInt8) (place : Nat), (∀ i < width, other[place + i]? = code[offset + i]?) →
        reader other place = some (value, place + width)

private theorem Local.pure (value : α) : Local (pure value) 0 := by
  intro code offset found behind read
  obtain ⟨rfl, rfl⟩ := Prod.mk.inj (Option.some.inj read)
  exact ⟨rfl, fun _ _ _ => rfl⟩

private theorem Local.bind {reader : OperandReader α} {next : α → OperandReader β} {width rest : Nat}
    (head : Local reader width) (tail : ∀ value, Local (next value) rest) : Local (reader >>= next) (width + rest) := by
  intro code offset last behind read
  simp only [Bind.bind] at read
  cases first : reader code offset with
  | none => simp [first] at read
  | some found =>
    obtain ⟨value, middle⟩ := found
    simp only [first] at read
    obtain ⟨rfl, again⟩ := head code offset value middle first
    obtain ⟨rfl, again'⟩ := tail value code _ last behind read
    refine ⟨Nat.add_assoc .., fun other place same => ?_⟩
    have front := again other place fun i inside => same i (by omega)
    have back := again' other (place + width) fun i inside => by
      have byte := same (width + i) (by omega)
      rwa [← Nat.add_assoc, ← Nat.add_assoc] at byte
    simp only [Bind.bind, front, back, Nat.add_assoc]

private theorem Local.map {reader : OperandReader α} {width : Nat} (f : α → β) (head : Local reader width) :
    Local (f <$> reader) width := by
  have both : Local (reader >>= fun value => Pure.pure (f value)) (width + 0) := head.bind fun value => .pure (f value)
  exact both

private theorem local_byte : Local byte 1 := by
  intro code offset value behind read
  unfold byte at read
  split at read
  · rename_i inside
    obtain ⟨rfl, rfl⟩ := Prod.mk.inj (Option.some.inj read)
    refine ⟨rfl, fun other place same => ?_⟩
    have there : other[place]? = some code[offset] := by simpa [inside] using same 0 (by decide)
    obtain ⟨fits, byte⟩ := Array.getElem?_eq_some_iff.mp there
    rw [OperandReader.byte, dif_pos fits, byte]
  · cases read

private theorem local_number {width : Nat} (pos : 0 < width) : Local (number width) width := by
  intro code offset value behind read
  unfold number at read
  split at read
  · rename_i inside
    obtain ⟨rfl, rfl⟩ := Prod.mk.inj (Option.some.inj read)
    refine ⟨rfl, fun other place same => ?_⟩
    have last := same (width - 1) (by omega)
    rw [Array.getElem?_eq_getElem (by omega : offset + (width - 1) < code.size)] at last
    obtain ⟨fits, -⟩ := Array.getElem?_eq_some_iff.mp last
    have bytes : ∀ i < width, other.getD (place + i) 0 = code.getD (offset + i) 0 := fun i within => by
      simp only [Array.getD_eq_getD_getElem?, same i within]
    have spelled : LittleEndian.read (fun i => other.getD i 0) place width =
        LittleEndian.read (fun i => code.getD i 0) offset width := LittleEndian.read_congr bytes
    rw [number, if_pos (by omega), spelled]
  · cases read

private theorem local_word32 : Local word32 4 := (local_number (by decide)).map _

private theorem local_signed32 : Local signed32 4 := local_word32.map _

private theorem local_word64 : Local word64 8 := (local_number (by decide)).map _

private theorem local_registers : Local registers 1 := local_byte.map _

private theorem local_register : Local register 1 := local_registers.map _

end OperandReader

open OperandReader in
private theorem Mnemonic.local_operands (mnemonic : Mnemonic) : Local mnemonic.operands (mnemonic.size - 1) := by
  cases mnemonic with
  | trap => exact .pure _
  | fallthrough => exact .pure _
  | ecalli => exact local_word32.map _
  | loadImm64 => exact local_register.bind fun _ => local_word64.map _
  | jump => exact local_word32.map _
  | jumpInd => exact local_register.bind fun _ => local_word32.map _
  | loadImm => exact local_register.bind fun _ => local_signed32.map _
  | load kind => exact local_register.bind fun _ => local_word32.map _
  | store kind => exact local_register.bind fun _ => local_word32.map _
  | moveReg => exact local_registers.map _
  | sbrk => exact local_registers.map _
  | storeInd kind => exact local_registers.bind fun _ => local_signed32.map _
  | loadInd kind => exact local_registers.bind fun _ => local_signed32.map _
  | addImm64 => exact local_registers.bind fun _ => local_signed32.map _
  | branch condition => exact local_registers.bind fun _ => local_word32.map _
  | alu op => exact local_registers.bind fun _ => local_register.map _

def Instruction.registers {ρ : Type} : Instruction ρ → List ρ
  | .trap | .fallthrough | .ecalli _ | .jump _ => []
  | .loadImm64 dst _ | .loadImm dst _ | .load _ dst _ => [dst]
  | .jumpInd base _ => [base]
  | .store _ src _ => [src]
  | .moveReg dst src | .addImm64 dst src _ => [dst, src]
  | .sbrk dst size => [dst, size]
  | .storeInd _ src base _ => [src, base]
  | .loadInd _ dst base _ => [dst, base]
  | .branch _ a b _ => [a, b]
  | .alu _ dst a b => [dst, a, b]

private theorem Instruction.registers_map {ρ σ : Type} (f : ρ → σ) (instruction : Instruction ρ) :
    (instruction.map f).registers = instruction.registers.map f := by
  cases instruction <;> rfl

private theorem decode_again {code : Array UInt8} {pc : UInt32} {opcode : UInt8} {mnemonic : Mnemonic}
    {instruction : Instruction Reg} (found : code[pc.toNat]? = some opcode)
    (named : Mnemonic.ofOpcode? opcode = some mnemonic)
    (read : mnemonic.operands code (pc.toNat + 1) = some (instruction, pc.toNat + mnemonic.size))
    (other : Array UInt8) (place : UInt32)
    (same : ∀ i < mnemonic.size, other[place.toNat + i]? = code[pc.toNat + i]?) :
    decode other place = .ok (instruction, UInt32.ofNat (place.toNat + mnemonic.size)) := by
  have pos := mnemonic.size_pos
  obtain ⟨-, again⟩ := mnemonic.local_operands code _ instruction _ read
  have foundAgain : other[place.toNat]? = some opcode := (same 0 pos).trans found
  have readAgain := again other (place.toNat + 1) fun i inside => by
    have byte := same (1 + i) (by omega)
    rwa [← Nat.add_assoc, ← Nat.add_assoc] at byte
  have behind : place.toNat + 1 + (mnemonic.size - 1) = place.toNat + mnemonic.size := by omega
  rw [behind] at readAgain
  exact decode_of_named foundAgain named readAgain

/-- An instruction of some size stands at an offset of a code, before `next`. -/
structure Stands (code : Array UInt8) (pc : UInt32) (instruction : Instruction Reg) (next : UInt32) (size : Nat) :
    Prop where
  opcode : code[pc.toNat]? = some instruction.mnemonic.opcode
  listed : OperandClass.sizeOf? instruction.mnemonic.opcode = some size
  next_eq : next.toNat = pc.toNat + size
  progress : pc < next
  inside : next.toNat ≤ code.size
  numbered : Checked.decode code pc = .ok (.ok (instruction.map Fin.val, next))
  registers : ∀ r ∈ (instruction.map Fin.val).registers, r < 13
  /-- Wherever its bytes stand again, so does the instruction. -/
  again : ∀ (other : Array UInt8) (place : UInt32), (∀ i < size, other[place.toNat + i]? = code[pc.toNat + i]?) →
    decode other place = .ok (instruction, UInt32.ofNat (place.toNat + size))

/-- What decoding comes to by the grammar. -/
inductive GrammarVerdict (code : Array UInt8) (pc : UInt32) : Except DecodeError (Instruction Reg × UInt32) → Prop where
  | outside (outside : code.size ≤ pc.toNat) : GrammarVerdict code pc (.error (.pcOutOfRange pc code.size))
  | unlisted {opcode : UInt8} (found : code[pc.toNat]? = some opcode)
      (unlisted : OperandClass.sizeOf? opcode = none) : GrammarVerdict code pc (.error (.unknownOpcode opcode pc))
  | cut {opcode : UInt8} {size : Nat} (found : code[pc.toNat]? = some opcode)
      (listed : OperandClass.sizeOf? opcode = some size) (cut : code.size < pc.toNat + size) :
      GrammarVerdict code pc (.error (.truncated pc))
  | stands {instruction : Instruction Reg} {next : UInt32} {size : Nat}
      (stands : Stands code pc instruction next size) : GrammarVerdict code pc (.ok (instruction, next))

section

variable {code : Array UInt8} (fits : code.size ≤ 4294967295)

include fits

theorem decode_verdict (pc : UInt32) : GrammarVerdict code pc (decode code pc) := by
  cases found : code[pc.toNat]? with
  | none =>
    have outside := Array.getElem?_eq_none_iff.mp found
    rw [decode_of_outside outside]
    exact .outside outside
  | some opcode =>
    cases named : Mnemonic.ofOpcode? opcode with
    | none =>
      rw [decode_of_unlisted found named]
      exact .unlisted found (Mnemonic.unlisted_iff.mpr named)
    | some mnemonic =>
      have listed := Mnemonic.listed_iff.mpr ⟨mnemonic, named, rfl⟩
      by_cases whole : pc.toNat + mnemonic.size ≤ code.size
      · obtain ⟨instruction, rfl, read, decoded⟩ := decode_of_whole found named whole
        have again := decode_again found named read
        have opcode := Mnemonic.opcode_of_ofOpcode? named
        have behind : (UInt32.ofNat (pc.toNat + instruction.mnemonic.size)).toNat =
            pc.toNat + instruction.mnemonic.size :=
          UInt32.toNat_ofNat_of_lt' (by unfold UInt32.size; omega)
        have pos := instruction.mnemonic.size_pos
        rw [← opcode] at found listed
        have numbered := Checked.decode_eq code pc
        rw [decoded] at numbered ⊢
        refine .stands ⟨found, listed, behind, ?_, ?_, numbered, ?_, again⟩
        · rw [UInt32.lt_iff_toNat_lt, behind]
          omega
        · rw [behind]
          exact whole
        · intro r named
          rw [Instruction.registers_map, List.mem_map] at named
          obtain ⟨register, -, rfl⟩ := named
          exact register.isLt
      · have cut := Nat.lt_of_not_le whole
        rw [decode_of_cut found named cut]
        exact .cut found listed cut

theorem stands_of_decode {pc next : UInt32} {instruction : Instruction Reg}
    (decoded : decode code pc = .ok (instruction, next)) : ∃ size, Stands code pc instruction next size := by
  have verdict := decode_verdict fits pc
  rw [decoded] at verdict
  cases verdict with
  | stands stands => exact ⟨_, stands⟩

private theorem decoding_stops (trail : Nat → UInt32) :
    ∃ i ≤ code.size, ∀ instruction, decode code (trail i) ≠ .ok (instruction, trail (i + 1)) := by
  by_contra endless
  push Not at endless
  have far : ∀ i ≤ code.size + 1, i ≤ (trail i).toNat := by
    intro i
    induction i with
    | zero => exact fun _ => Nat.zero_le _
    | succ i ih =>
      intro le
      obtain ⟨instruction, decoded⟩ := endless i (Nat.le_of_succ_le_succ le)
      obtain ⟨size, stands⟩ := stands_of_decode fits decoded
      have further := UInt32.lt_iff_toNat_lt.mp stands.progress
      have before := ih (by omega)
      omega
  obtain ⟨instruction, decoded⟩ := endless code.size (Nat.le_refl _)
  obtain ⟨size, stands⟩ := stands_of_decode fits decoded
  have beyond := far (code.size + 1) (Nat.le_refl _)
  have within := stands.inside
  omega

private theorem disassemble_stops (pc : UInt32) : ∃ error, (disassemble code pc).2 = some error := by
  fun_induction disassemble code pc with
  | case1 pc error failed => exact ⟨error, rfl⟩
  | case2 pc instruction next decoded onwards rest stop later ih =>
    rw [later] at ih
    exact ih
  | case3 pc instruction next decoded stays =>
    obtain ⟨size, stands⟩ := stands_of_decode fits decoded
    exact absurd ⟨UInt32.lt_iff_toNat_lt.mp stands.progress, stands.inside⟩ stays

end

/-- The decoder accepts what the grammar says. At an offset outside the code it reports that, else an opcode that is
not listed, however few bytes follow, else an instruction that the code cuts short, and in no other case anything of the
kind; where a listed opcode has all of its bytes, an instruction stands, which these bytes alone determine. Decoding on
from any offset ends. -/
theorem decoder_accepts_the_grammar (code : Array UInt8) (fits : code.size ≤ 4294967295) (pc : UInt32) :
    (∀ place length, decode code pc = .error (.pcOutOfRange place length) ↔
      code.size ≤ pc.toNat ∧ place = pc ∧ length = code.size) ∧
    (∀ opcode place, decode code pc = .error (.unknownOpcode opcode place) ↔
      code[pc.toNat]? = some opcode ∧ OperandClass.sizeOf? opcode = none ∧ place = pc) ∧
    (∀ place, decode code pc = .error (.truncated place) ↔ place = pc ∧ ∃ opcode size,
      code[pc.toNat]? = some opcode ∧ OperandClass.sizeOf? opcode = some size ∧ code.size < pc.toNat + size) ∧
    ((∃ instruction next, decode code pc = .ok (instruction, next)) ↔ ∃ opcode size,
      code[pc.toNat]? = some opcode ∧ OperandClass.sizeOf? opcode = some size ∧ pc.toNat + size ≤ code.size) ∧
    (∀ instruction next, decode code pc = .ok (instruction, next) → ∃ size, Stands code pc instruction next size) ∧
    (∀ trail : Nat → UInt32, ∃ i ≤ code.size, ∀ instruction,
      decode code (trail i) ≠ .ok (instruction, trail (i + 1))) ∧
    ∃ error, (disassemble code pc).2 = some error := by
  have verdict := decode_verdict fits pc
  refine ⟨fun place length => ⟨fun failed => ?_, ?_⟩, fun opcode place => ⟨fun failed => ?_, ?_⟩,
    fun place => ⟨fun failed => ?_, ?_⟩, ⟨?_, ?_⟩, fun _ _ => stands_of_decode fits, decoding_stops fits,
    disassemble_stops fits pc⟩
  · rw [failed] at verdict
    cases verdict with
    | outside outside => exact ⟨outside, rfl, rfl⟩
  · rintro ⟨outside, rfl, rfl⟩
    exact decode_of_outside outside
  · rw [failed] at verdict
    cases verdict with
    | unlisted found unlisted => exact ⟨found, unlisted, rfl⟩
  · rintro ⟨found, unlisted, rfl⟩
    exact decode_of_unlisted found (Mnemonic.unlisted_iff.mp unlisted)
  · rw [failed] at verdict
    cases verdict with
    | cut found listed cut => exact ⟨rfl, _, _, found, listed, cut⟩
  · rintro ⟨rfl, opcode, size, found, listed, cut⟩
    obtain ⟨mnemonic, named, rfl⟩ := Mnemonic.listed_iff.mp listed
    exact decode_of_cut found named cut
  · rintro ⟨instruction, next, decoded⟩
    obtain ⟨size, stands⟩ := stands_of_decode fits decoded
    exact ⟨_, size, stands.opcode, stands.listed, stands.next_eq ▸ stands.inside⟩
  · rintro ⟨opcode, size, found, listed, whole⟩
    obtain ⟨mnemonic, named, rfl⟩ := Mnemonic.listed_iff.mp listed
    obtain ⟨instruction, -, -, decoded⟩ := decode_of_whole found named whole
    exact ⟨instruction, _, decoded⟩

/-- An addition that names a register beyond the last one, a byte that is no opcode, and an `ecalli` that is cut short.
The addition is the same at another offset of another code. -/
theorem decoder_accepts_the_grammar_of_short_code :
    let code : Array UInt8 := #[190, 0x2F, 3, 77, 10, 1, 2]
    code.size ≤ 4294967295 ∧ decode code 0 = .ok (.alu .add32 3 12 2, 3) ∧
      decode code 3 = .error (.unknownOpcode 77 3) ∧ decode code 4 = .error (.truncated 4) ∧
      decode code 7 = .error (.pcOutOfRange 7 7) ∧
      decode #[1, 190, 0x2F, 3, 0] 1 = .ok (.alu .add32 3 12 2, 4) := by
  intro code
  have fits : code.size ≤ 4294967295 := by decide
  have decoded : decode code 0 = .ok (.alu .add32 3 12 2, 3) := by decide +kernel
  have addition := decoder_accepts_the_grammar code fits 0
  have noOpcode := decoder_accepts_the_grammar code fits 3
  have call := decoder_accepts_the_grammar code fits 4
  have behind := decoder_accepts_the_grammar code fits 7
  obtain ⟨size, stands⟩ := addition.2.2.2.2.1 _ _ decoded
  have three : size = 3 := by
    have listed : OperandClass.sizeOf? 190 = some size := stands.listed
    have table : OperandClass.sizeOf? 190 = some 3 := by decide +kernel
    exact Option.some.inj (listed.symm.trans table)
  subst three
  exact ⟨fits, decoded, (noOpcode.2.1 77 3).mpr ⟨rfl, by decide +kernel, rfl⟩,
    (call.2.2.1 4).mpr ⟨rfl, 10, 5, rfl, by decide +kernel, by decide⟩,
    (behind.1 7 7).mpr ⟨by decide, rfl, rfl⟩, stands.again #[1, 190, 0x2F, 3, 0] 1 (by decide)⟩

end MeteredVm
