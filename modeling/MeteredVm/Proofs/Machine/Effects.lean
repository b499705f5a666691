import MeteredVm.Machine.Basic
import MeteredVm.Proofs.Memory.FlatMap

/-!
What instructions do to a machine. An instruction names the address of a load, a store or a jump directly or by a
distance from a register; what it does then depends on the address alone, so instructions are sorted by their effect.
The main statement says what a machine becomes by the effect of an instruction, memory seen as a flat map.
-/

set_option autoImplicit false
set_option relaxedAutoImplicit false

namespace MeteredVm

open AddressSpace

theorem toNat_toUInt64_int64 (value : Int64) :
    (value.toUInt64.toNat : Int) = value.toInt % 18446744073709551616 := by
  have reading : value.toInt = (value.toUInt64.toNat : Int).bmod 18446744073709551616 := BitVec.toInt_eq_toNat_bmod _
  have small := value.toUInt64.toNat_lt
  have same : value.toInt % ((18446744073709551616 : Nat) : Int) =
      (value.toUInt64.toNat : Int) % ((18446744073709551616 : Nat) : Int) := by
    rw [reading, Int.bmod_emod]
  omega

namespace Memory

/-- A range lies in the address space, and each of its bytes may be used in a way. -/
def Grants (memory : Memory) (use : Use) (address width : Nat) : Prop :=
  address + width ≤ size ∧ memory.Allows use address width

private theorem fault?_eq_none_iff_grants (memory : Memory) (use : Use) (address : UInt32) {width : Nat}
    (pos : 0 < width) (short : width ≤ 8) :
    memory.fault? use address.toUInt64 (UInt64.ofNat width) = none ↔ memory.Grants use address.toNat width := by
  have count : (UInt64.ofNat width).toNat = width := UInt64.toNat_ofNat_of_lt' (Nat.lt_of_le_of_lt short (by decide))
  have nonempty : width ≠ 0 := by omega
  rw [fault?_eq_none_iff, count, UInt32.toNat_toUInt64, Grants]
  simp only [nonempty, false_or]

section

variable {memory : Memory} {address : UInt32} {width : Nat} (pos : 0 < width) (short : width ≤ 8)

include pos short

private theorem load_of_grants (granted : memory.Grants .read address.toNat width) :
    memory.load address.toUInt64 (UInt64.ofNat width) = .ok (Cell.bytes memory.flat address.toNat width) := by
  have bounded : width < UInt64.size := Nat.lt_of_le_of_lt short (by decide)
  have faultless := (memory.fault?_eq_none_iff_grants .read address pos short).mpr granted
  rw [load_flat faultless, UInt64.toNat_ofNat_of_lt' bounded, UInt32.toNat_toUInt64]

private theorem load_of_denied (denied : ¬ memory.Grants .read address.toNat width) :
    ∃ error, memory.load address.toUInt64 (UInt64.ofNat width) = .error error := by
  have faulty := mt (memory.fault?_eq_none_iff_grants .read address pos short).mp denied
  obtain ⟨error, fault⟩ := Option.ne_none_iff_exists'.mp faulty
  refine ⟨error, ?_⟩
  rw [load, fault]

private theorem store_of_grants {bytes : List UInt8} (count : bytes.length = width)
    (granted : memory.Grants .write address.toNat width) :
    ∃ after, memory.store address.toUInt64 bytes = .ok after ∧
      after.flat = Cell.written memory.flat address.toNat bytes := by
  have bounded : width < UInt64.size := Nat.lt_of_le_of_lt short (by decide)
  have faultless := (memory.fault?_eq_none_iff_grants .write address pos short).mpr granted
  rw [← count] at bounded faultless
  obtain ⟨after, stored, flat, -⟩ := flat_store bounded faultless
  rw [UInt32.toNat_toUInt64] at flat
  exact ⟨after, stored, flat⟩

private theorem store_of_denied {bytes : List UInt8} (count : bytes.length = width)
    (denied : ¬ memory.Grants .write address.toNat width) :
    ∃ error, memory.store address.toUInt64 bytes = .error error := by
  have faulty := mt (memory.fault?_eq_none_iff_grants .write address pos short).mp denied
  obtain ⟨error, fault⟩ := Option.ne_none_iff_exists'.mp faulty
  refine ⟨error, ?_⟩
  rw [store, count, fault]

end

end Memory

namespace Machine

/-- The address at a signed distance from a register, counted in the integers and reduced to the address space. -/
def effective (machine : Machine) (base : Reg) (offset : Int32) : Nat :=
  (((machine.registers.get base).toNat + offset.toInt) % UInt32.size).toNat

/-- The code offset at a distance from a register, counted in the integers and reduced to 32 bits. -/
def indirectTarget (machine : Machine) (base : Reg) (offset : UInt32) : Nat :=
  ((machine.registers.get base).toNat + offset.toNat) % UInt32.size

/-- What an instruction is about to do. -/
inductive Effect where
  /-- It panics, whatever the machine is. -/
  | trap
  | ask (index : UInt32)
  | load (kind : LoadKind) (dst : Reg) (address : Nat)
  | store (kind : StoreKind) (src : Reg) (address : Nat)
  | jump (target : Nat)
  | halt
  /-- At most registers and the heap change, and execution goes on behind the instruction. -/
  | compute
deriving DecidableEq

/-- The effect of an instruction. A branch that is not taken computes nothing, and an indirect jump to the address that
halts is no jump. -/
def effect (machine : Machine) : Instruction Reg → Effect
  | .trap => .trap
  | .ecalli index => .ask index
  | .load kind dst address => .load kind dst address.toNat
  | .loadInd kind dst base offset => .load kind dst (machine.effective base offset)
  | .store kind src address => .store kind src address.toNat
  | .storeInd kind src base offset => .store kind src (machine.effective base offset)
  | .jump target => .jump target.toNat
  | .jumpInd base offset =>
    if machine.indirectTarget base offset = haltAddress.toNat then .halt else .jump (machine.indirectTarget base offset)
  | .branch condition a b target =>
    if condition.holds (machine.registers.get a) (machine.registers.get b) then .jump target.toNat else .compute
  | _ => .compute

/-- A branch jumps exactly if the numbers in its registers compare as its condition says. -/
theorem effect_branch (machine : Machine) (condition : BranchCondition) (a b : Reg) (target : UInt32) :
    (condition.Compares (machine.registers.get a).toNat (machine.registers.get b).toNat ∧
      machine.effect (.branch condition a b target) = .jump target.toNat) ∨
    (¬ condition.Compares (machine.registers.get a).toNat (machine.registers.get b).toNat ∧
      machine.effect (.branch condition a b target) = .compute) := by
  rw [← condition.holds_iff]
  by_cases holds : condition.holds (machine.registers.get a) (machine.registers.get b) = true
  · exact .inl ⟨holds, if_pos holds⟩
  · exact .inr ⟨holds, if_neg holds⟩

/-- The word that a load finds: its bytes in the flat map, least significant first, extended as its kind says. -/
def loadedWord (machine : Machine) (kind : LoadKind) (a : Nat) : UInt64 :=
  kind.extend (UInt64.ofNat (LittleEndian.value (Cell.bytes machine.memory.flat a kind.width).toList))

/-- What a machine becomes by an effect, where `next` is the offset behind the instruction. -/
inductive Becomes (machine : Machine) (next : UInt32) : Effect → Machine → Prop where
  | traps : Becomes machine next .trap (machine.stop .panic)
  | asks (index : UInt32) : Becomes machine next (.ask index) { machine with pc := next, status := .hostCall index }
  | loads {kind : LoadKind} {dst : Reg} {a : Nat} (granted : machine.memory.Grants .read a kind.width) :
      Becomes machine next (.load kind dst a) (machine.assign dst (machine.loadedWord kind a) next)
  | missesLoad {kind : LoadKind} {dst : Reg} {a : Nat} (denied : ¬ machine.memory.Grants .read a kind.width) :
      Becomes machine next (.load kind dst a) (machine.stop .panic)
  | stores {kind : StoreKind} {src : Reg} {a : Nat} (memory : Memory)
      (granted : machine.memory.Grants .write a kind.width)
      (written : memory.flat = Cell.written machine.memory.flat a
        (LittleEndian.write (machine.registers.get src).toNat kind.width)) :
      Becomes machine next (.store kind src a) { machine with memory, pc := next }
  | missesStore {kind : StoreKind} {src : Reg} {a : Nat} (denied : ¬ machine.memory.Grants .write a kind.width) :
      Becomes machine next (.store kind src a) (machine.stop .panic)
  | jumps (pc : UInt32) (inside : pc.toNat < machine.program.size) :
      Becomes machine next (.jump pc.toNat) { machine with pc }
  | missesJump {target : Nat} (outside : machine.program.size ≤ target) :
      Becomes machine next (.jump target) (machine.stop .panic)
  | halts : Becomes machine next .halt (machine.stop .halt)
  | computes (registers : Registers) (memory : Memory) :
      Becomes machine next .compute { machine with registers, memory, pc := next }

section

variable (machine : Machine)

theorem toNat_indirectAddress (base : Reg) (offset : Int32) :
    (machine.indirectAddress base offset).toNat = machine.effective base offset := by
  have distance := toNat_toUInt64_int64 offset.toInt64
  rw [Int32.toInt_toInt64] at distance
  rw [indirectAddress, effective, UInt64.toNat_toUInt32, UInt64.toNat_add, UInt32.size]
  omega

private theorem toNat_indirect_target (base : Reg) (offset : UInt32) :
    (machine.registers.get base + offset.toUInt64).toUInt32.toNat = machine.indirectTarget base offset := by
  rw [indirectTarget, UInt64.toNat_toUInt32, UInt64.toNat_add, UInt32.toNat_toUInt64, UInt32.size]
  omega

variable (next : UInt32)

private theorem jumpTo_becomes (target : UInt32) :
    machine.Becomes next (.jump target.toNat) (machine.jumpTo target) := by
  unfold jumpTo
  split
  · rename_i inside
    exact .jumps target inside
  · rename_i outside
    exact .missesJump (Nat.le_of_not_lt outside)

private theorem loadFrom_becomes (kind : LoadKind) (dst : Reg) (address : UInt32) :
    machine.Becomes next (.load kind dst address.toNat) (machine.loadFrom kind dst address next) := by
  rw [loadFrom]
  by_cases granted : machine.memory.Grants .read address.toNat kind.width
  · rw [Memory.load_of_grants kind.width_pos kind.width_le granted]
    exact .loads granted
  · obtain ⟨error, failed⟩ := Memory.load_of_denied kind.width_pos kind.width_le granted
    rw [failed]
    exact .missesLoad granted

private theorem storeTo_becomes (kind : StoreKind) (src : Reg) (address : UInt32) :
    machine.Becomes next (.store kind src address.toNat)
      (machine.storeTo kind (machine.registers.get src) address next) := by
  have count := LittleEndian.length_write (machine.registers.get src).toNat kind.width
  rw [storeTo]
  by_cases granted : machine.memory.Grants .write address.toNat kind.width
  · obtain ⟨memory, stored, written⟩ := Memory.store_of_grants kind.width_pos kind.width_le count granted
    rw [stored]
    exact .stores memory granted written
  · obtain ⟨error, failed⟩ := Memory.store_of_denied kind.width_pos kind.width_le count granted
    rw [failed]
    exact .missesStore granted

private theorem growHeap_becomes (dst : Reg) (size : UInt64) :
    machine.Becomes next .compute (machine.growHeap dst size next) := by
  simp only [growHeap]
  split
  · exact .computes _ _
  · exact .computes _ machine.memory

theorem execute_becomes (instruction : Instruction Reg) :
    machine.Becomes next (machine.effect instruction) (machine.execute next instruction) := by
  cases instruction with
  | trap => exact .traps
  | ecalli index => exact .asks index
  | fallthrough => exact .computes machine.registers machine.memory
  | loadImm64 dst value => exact .computes _ machine.memory
  | loadImm dst value => exact .computes _ machine.memory
  | moveReg dst src => exact .computes _ machine.memory
  | addImm64 dst src value => exact .computes _ machine.memory
  | alu op dst a b => exact .computes _ machine.memory
  | sbrk dst size => exact machine.growHeap_becomes next dst _
  | load kind dst address => exact machine.loadFrom_becomes next kind dst address
  | store kind src address => exact machine.storeTo_becomes next kind src address
  | loadInd kind dst base offset =>
    rw [effect, ← toNat_indirectAddress]
    exact machine.loadFrom_becomes next kind dst _
  | storeInd kind src base offset =>
    rw [effect, ← toNat_indirectAddress]
    exact machine.storeTo_becomes next kind src _
  | jump target => exact machine.jumpTo_becomes next target
  | jumpInd base offset =>
    simp only [effect, execute, ← toNat_indirect_target, UInt32.toNat_inj]
    split
    · exact .halts
    · exact machine.jumpTo_becomes next _
  | branch condition a b target =>
    simp only [effect, execute]
    split
    · exact machine.jumpTo_becomes next target
    · exact .computes machine.registers machine.memory

end

end Machine

end MeteredVm
