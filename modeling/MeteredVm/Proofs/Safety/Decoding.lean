import MeteredVm.Instruction.Decoding
import MeteredVm.Proofs.Memory.Copying
import MeteredVm.Proofs.Safety.Checks

/-!
Decoding with every operation on its way checked: the arithmetic of the cursor, the copies of operands, the distances
of opcodes from the first of their family. Registers are named by any numbers here, so that it shows that those decoded
name one. The main statement is that decoding never crashes, at any offset of any bytes, and finds the same.
-/

set_option autoImplicit false
set_option relaxedAutoImplicit false

namespace MeteredVm

private theorem LittleEndian.read_eq_value (byteAt : Nat → UInt8) (start width : Nat) :
    read byteAt start width = value ((List.range width).map fun i => byteAt (start + i)) := by
  induction width generalizing start with
  | zero => rfl
  | succ width ih =>
    have rest : ((List.range width).map Nat.succ).map (fun i => byteAt (start + i)) =
        (List.range width).map fun i => byteAt (start + 1 + i) := by
      rw [List.map_map]
      refine List.map_congr_left fun i _ => congrArg byteAt ?_
      omega
    rw [read, ih, List.range_succ_eq_map, List.map_cons, rest]
    rfl

theorem forall_byte (holds : UInt8 → Prop) (all : ∀ n < 256, holds (UInt8.ofNat n)) (byte : UInt8) : holds byte := by
  have this := all byte.toNat byte.toNat_lt
  rwa [UInt8.ofNat_toNat] at this

private theorem overwrite_whole {buffer : Array UInt8} {bytes : List UInt8} (same : buffer.size = bytes.length) :
    (overwrite buffer 0 bytes).toList = bytes := by
  apply List.ext_getElem?
  intro i
  rw [Array.getElem?_toList, getElem?_overwrite]
  by_cases inside : i < bytes.length
  · rw [if_pos (by omega), Nat.sub_zero]
  · have outside : bytes[i]? = none := by
      rw [List.getElem?_eq_none_iff]
      omega
    rw [if_neg (by omega), outside, Array.getElem?_eq_none_iff]
    omega

namespace Checked

def Reader (α : Type) : Type := Array UInt8 → Nat → Except Crash (Option (α × Nat))

namespace Reader

instance : Monad Reader where
  pure a := fun _ cursor => .ok (some (a, cursor))
  bind reader next := fun code cursor =>
    match reader code cursor with
    | .error crash => .error crash
    | .ok none => .ok none
    | .ok (some (a, cursor)) => next a code cursor

/-- Reads nothing, but does something that may crash. -/
def check {α : Type} (work : Except Crash α) : Reader α := fun _ cursor => do
  let value ← work
  return some (value, cursor)

def take (width : Nat) : Reader (Array UInt8) := fun code cursor => do
  let stop ← add UInt64.size cursor width
  if stop ≤ code.size then
    let bytes ← copyInto (Array.replicate width 0) 0 width (code.extract cursor stop)
    return some (bytes, stop)
  else return none

def byte : Reader UInt8 := do
  let bytes ← take 1
  check (item bytes 0)
where
  item (bytes : Array UInt8) (index : Nat) : Except Crash UInt8 :=
    if inside : index < bytes.size then .ok bytes[index] else .error .index

def number (width : Nat) : Reader Nat := (fun bytes => LittleEndian.value bytes.toList) <$> take width

def word32 : Reader UInt32 := UInt32.ofNat <$> number 4

def signed32 : Reader Int32 := UInt32.toInt32 <$> word32

def word64 : Reader UInt64 := UInt64.ofNat <$> number 8

def clamp (nibble : Nat) : Except Crash Nat := do
  let last ← subtract 13 1
  return min nibble last

def registers : Reader (Nat × Nat) := do
  let byte ← byte
  let low ← check (clamp (byte.toNat % 16))
  let high ← check (clamp (byte.toNat / 16))
  return (low, high)

def register : Reader Nat := Prod.fst <$> registers

/-- The checked reader does what another does, up to the form of what is read, and takes no more than so many bytes. -/
structure Follows {α β : Type} (checked : Reader β) (plain : OperandReader α) (width : Nat) (form : α → β) : Prop where
  same : ∀ code cursor, cursor + width < UInt64.size →
    checked code cursor = .ok ((plain code cursor).map fun found => (form found.1, found.2))
  near : ∀ code cursor value next, plain code cursor = some (value, next) → next ≤ cursor + width

namespace Follows

variable {α β γ δ : Type} {checked : Reader β} {plain : OperandReader α} {width : Nat} {form : α → β}

private theorem pure {a : α} {b : β} (same : form a = b) : Follows (Pure.pure b) (Pure.pure a) 0 form where
  same code cursor _ := by
    subst same
    rfl
  near code cursor value next found := by
    obtain ⟨-, rfl⟩ := Prod.mk.inj (Option.some.inj found)
    exact Nat.le_refl _

private theorem bind {next' : β → Reader δ} {next : α → OperandReader γ} {rest : Nat} {form' : γ → δ}
    (head : Follows checked plain width form) (tail : ∀ value, Follows (next' (form value)) (next value) rest form') :
    Follows (checked >>= next') (plain >>= next) (width + rest) form' where
  same code cursor room := by
    have first := head.same code cursor (by omega)
    simp only [Bind.bind, first]
    cases read : plain code cursor with
    | none => rfl
    | some found =>
      have near := head.near code cursor found.1 found.2 read
      exact (tail found.1).same code found.2 (by omega)
  near code cursor value last found := by
    simp only [Bind.bind] at found
    cases read : plain code cursor with
    | none =>
      rw [read] at found
      cases found
    | some first =>
      rw [read] at found
      have before := head.near code cursor first.1 first.2 read
      have after := (tail first.1).near code first.2 value last found
      omega

private theorem map {change' : β → δ} {change : α → γ} {form' : γ → δ} (head : Follows checked plain width form)
    (commutes : ∀ value, form' (change value) = change' (form value)) :
    Follows (change' <$> checked) (change <$> plain) width form' := by
  have both : Follows (checked >>= fun b => Pure.pure (change' b)) (plain >>= fun a => Pure.pure (change a)) (width + 0)
      form' := head.bind fun value => .pure (commutes value)
  exact both

private theorem of_le {more : Nat} (le : width ≤ more) (follows : Follows checked plain width form) :
    Follows checked plain more form where
  same code cursor room := follows.same code cursor (by omega)
  near code cursor value next found := Nat.le_trans (follows.near code cursor value next found) (by omega)

end Follows

private theorem take_eq {width cursor : Nat} (code : Array UInt8) (room : cursor + width < UInt64.size) :
    take width code cursor = .ok (if cursor + width ≤ code.size then
      some (((List.range width).map fun i => code.getD (cursor + i) 0).toArray, cursor + width) else none) := by
  rw [take, add_eq room, ok_bind]
  by_cases inside : cursor + width ≤ code.size
  · have length : (code.extract cursor (cursor + width)).toList.length = width := by
      rw [Array.length_toList, Array.size_extract]
      omega
    have copied : (overwrite (Array.replicate width 0) 0 (code.extract cursor (cursor + width)).toList).toList =
        (List.range width).map fun i => code.getD (cursor + i) 0 := by
      rw [overwrite_whole (Array.size_replicate.trans length.symm)]
      apply List.ext_getElem?
      intro i
      by_cases here : i < width
      · have within : cursor + i < code.size := by omega
        simp [here, within]
      · have above : ¬i < min (cursor + width) code.size - cursor := by omega
        rw [Array.getElem?_toList, Array.getElem?_extract, if_neg above]
        simp [here]
    have target : width ≤ (Array.replicate width (0 : UInt8)).size := Nat.le_of_eq Array.size_replicate.symm
    have source : 0 + (code.extract cursor (cursor + width)).size = width := by
      rw [Nat.zero_add, ← Array.length_toList]
      exact length
    rw [if_pos inside, if_pos inside, copyInto_eq target source, ← copied]
    rfl
  · rw [if_neg inside, if_neg inside]
    rfl

private theorem follows_byte : Follows byte OperandReader.byte 1 id where
  same code cursor room := by
    have taken := take_eq code room
    by_cases inside : cursor < code.size
    · have first : code.getD cursor 0 = code[cursor] := by simp [inside]
      rw [if_pos (Nat.succ_le_of_lt inside)] at taken
      rw [OperandReader.byte, dif_pos inside, ← first]
      simp only [byte, Bind.bind, taken]
      rfl
    · rw [if_neg (by omega)] at taken
      rw [OperandReader.byte, dif_neg inside]
      simp only [byte, Bind.bind, taken]
      rfl
  near code cursor value next found := by
    unfold OperandReader.byte at found
    split at found
    · obtain ⟨-, rfl⟩ := Prod.mk.inj (Option.some.inj found)
      exact Nat.le_refl _
    · cases found

private theorem follows_number (width : Nat) : Follows (number width) (OperandReader.number width) width id where
  same code cursor room := by
    have taken := take_eq code room
    rw [OperandReader.number, LittleEndian.read_eq_value]
    by_cases inside : cursor + width ≤ code.size
    · rw [if_pos inside] at taken
      rw [if_pos inside]
      simp only [number, Functor.map, taken]
      rfl
    · rw [if_neg inside] at taken
      rw [if_neg inside]
      simp only [number, Functor.map, taken]
      rfl
  near code cursor value next found := by
    unfold OperandReader.number at found
    split at found
    · obtain ⟨-, rfl⟩ := Prod.mk.inj (Option.some.inj found)
      exact Nat.le_refl _
    · cases found

private theorem follows_word32 : Follows word32 OperandReader.word32 4 id := (follows_number 4).map fun _ => rfl

private theorem follows_signed32 : Follows signed32 OperandReader.signed32 4 id := follows_word32.map fun _ => rfl

private theorem follows_word64 : Follows word64 OperandReader.word64 8 id := (follows_number 8).map fun _ => rfl

private theorem follows_registers :
    Follows registers OperandReader.registers 1 fun pair => (pair.1.val, pair.2.val) := by
  change Follows registers (OperandReader.byte >>= fun byte =>
    Pure.pure (Reg.ofNibble (byte.toNat % 16), Reg.ofNibble (byte.toNat / 16))) (1 + 0) _
  exact follows_byte.bind fun byte => .pure rfl

private theorem follows_register :
    Follows register OperandReader.register 1 Fin.val := follows_registers.map fun _ => rfl

end Reader

/-- What an opcode stands for. Loads and stores are numbered from the first of their family. -/
def mnemonic? (opcode : UInt8) : Except Crash (Option Mnemonic) :=
  let op := opcode.toNat
  if 52 ≤ op ∧ op ≤ 58 then do
    let number ← subtract op 52
    return some (.load (loadKind number))
  else if 59 ≤ op ∧ op ≤ 62 then do
    let number ← subtract op 59
    return some (.store (storeKind number))
  else if 120 ≤ op ∧ op ≤ 123 then do
    let number ← subtract op 120
    return some (.storeInd (storeKind number))
  else if 124 ≤ op ∧ op ≤ 130 then do
    let number ← subtract op 124
    return some (.loadInd (loadKind number))
  else .ok (Mnemonic.ofOpcode? opcode)
where
  loadKind (number : Nat) : LoadKind := LoadKind.all.getD number .u64
  storeKind (number : Nat) : StoreKind := StoreKind.all.getD number .u64

open Reader in
def operands : Mnemonic → Reader (Instruction Nat)
  | .trap => pure .trap
  | .fallthrough => pure .fallthrough
  | .ecalli => do return .ecalli (← word32)
  | .loadImm64 => do
    let dst ← register
    return .loadImm64 dst (← word64)
  | .jump => do return .jump (← word32)
  | .jumpInd => do
    let base ← register
    return .jumpInd base (← word32)
  | .loadImm => do
    let dst ← register
    return .loadImm dst (← signed32)
  | .load kind => do
    let dst ← register
    return .load kind dst (← word32)
  | .store kind => do
    let src ← register
    return .store kind src (← word32)
  | .moveReg => do
    let (dst, src) ← registers
    return .moveReg dst src
  | .sbrk => do
    let (dst, size) ← registers
    return .sbrk dst size
  | .storeInd kind => do
    let (src, base) ← registers
    return .storeInd kind src base (← signed32)
  | .loadInd kind => do
    let (dst, base) ← registers
    return .loadInd kind dst base (← signed32)
  | .addImm64 => do
    let (dst, src) ← registers
    return .addImm64 dst src (← signed32)
  | .branch condition => do
    let (a, b) ← registers
    return .branch condition a b (← word32)
  | .alu op => do
    let (a, b) ← registers
    let dst ← register
    return .alu op dst a b

def decode (code : Array UInt8) (pc : UInt32) : Except Crash (Except DecodeError (Instruction Nat × UInt32)) :=
  if code.size ≤ pc.toNat then .ok (.error (.pcOutOfRange pc code.size))
  else do
    match ← Reader.byte code pc.toNat with
    | none => return .error (.truncated pc)
    | some (opcode, cursor) =>
      match ← mnemonic? opcode with
      | none => return .error (.unknownOpcode opcode pc)
      | some mnemonic =>
        match ← operands mnemonic code cursor with
        | none => return .error (.truncated pc)
        | some (instruction, next) => return .ok (instruction, UInt32.ofNat next)

private theorem mnemonic?_eq (opcode : UInt8) : mnemonic? opcode = .ok (Mnemonic.ofOpcode? opcode) :=
  forall_byte (fun opcode => mnemonic? opcode = .ok (Mnemonic.ofOpcode? opcode)) (by decide +kernel) opcode

open Reader in
private theorem follows_operands (mnemonic : Mnemonic) :
    Follows (operands mnemonic) mnemonic.operands 9 (Instruction.map Fin.val) := by
  have imm : 4 + 0 ≤ 9 := by decide
  have regImm : 1 + (4 + 0) ≤ 9 := by decide
  have regImm64 : 1 + (8 + 0) ≤ 9 := by decide
  have twoRegs : 1 + 0 ≤ 9 := by decide
  have threeRegs : 1 + (1 + 0) ≤ 9 := by decide
  cases mnemonic with
  | trap => exact .of_le (Nat.zero_le 9) (.pure rfl)
  | fallthrough => exact .of_le (Nat.zero_le 9) (.pure rfl)
  | ecalli => exact .of_le imm (follows_word32.bind fun _ => .pure rfl)
  | loadImm64 => exact .of_le regImm64 (follows_register.bind fun _ => follows_word64.bind fun _ => .pure rfl)
  | jump => exact .of_le imm (follows_word32.bind fun _ => .pure rfl)
  | jumpInd => exact .of_le regImm (follows_register.bind fun _ => follows_word32.bind fun _ => .pure rfl)
  | loadImm => exact .of_le regImm (follows_register.bind fun _ => follows_signed32.bind fun _ => .pure rfl)
  | load kind => exact .of_le regImm (follows_register.bind fun _ => follows_word32.bind fun _ => .pure rfl)
  | store kind => exact .of_le regImm (follows_register.bind fun _ => follows_word32.bind fun _ => .pure rfl)
  | moveReg => exact .of_le twoRegs (follows_registers.bind fun ⟨_, _⟩ => .pure rfl)
  | sbrk => exact .of_le twoRegs (follows_registers.bind fun ⟨_, _⟩ => .pure rfl)
  | storeInd kind => exact .of_le regImm (follows_registers.bind fun ⟨_, _⟩ => follows_signed32.bind fun _ => .pure rfl)
  | loadInd kind => exact .of_le regImm (follows_registers.bind fun ⟨_, _⟩ => follows_signed32.bind fun _ => .pure rfl)
  | addImm64 => exact .of_le regImm (follows_registers.bind fun ⟨_, _⟩ => follows_signed32.bind fun _ => .pure rfl)
  | branch condition =>
    exact .of_le regImm (follows_registers.bind fun ⟨_, _⟩ => follows_word32.bind fun _ => .pure rfl)
  | alu op => exact .of_le threeRegs (follows_registers.bind fun ⟨_, _⟩ => follows_register.bind fun _ => .pure rfl)

theorem decode_eq (code : Array UInt8) (pc : UInt32) : decode code pc =
    .ok ((MeteredVm.decode code pc).map fun found => (found.1.map Fin.val, found.2)) := by
  have small := pc.toNat_lt
  unfold decode MeteredVm.decode
  by_cases outside : code.size ≤ pc.toNat
  · have nothing : decode.byte code pc.toNat = none := dif_neg (Nat.not_lt.mpr outside)
    rw [if_pos outside, nothing]
    rfl
  have room : pc.toNat + 1 < UInt64.size := by
    unfold UInt64.size
    omega
  have opcode : decode.byte code pc.toNat = some (code[pc.toNat], pc.toNat + 1) := dif_pos (Nat.not_le.mp outside)
  have read : Reader.byte code pc.toNat = .ok (some (code[pc.toNat], pc.toNat + 1)) := by
    rw [Reader.follows_byte.same code pc.toNat room, ← decode.byte, opcode]
    rfl
  rw [if_neg outside, read, opcode]
  dsimp only [ok_bind]
  rw [mnemonic?_eq, ok_bind]
  cases Mnemonic.ofOpcode? code[pc.toNat] with
  | none => rfl
  | some mnemonic =>
    have behind : pc.toNat + 1 + 9 < UInt64.size := by
      unfold UInt64.size
      omega
    dsimp only
    rw [(follows_operands mnemonic).same code (pc.toNat + 1) behind, ok_bind]
    cases mnemonic.operands code (pc.toNat + 1) with
    | none => rfl
    | some found => rfl

end Checked

end MeteredVm
