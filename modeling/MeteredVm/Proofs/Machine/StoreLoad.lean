import MeteredVm.Proofs.Machine.Effects
import MeteredVm.Proofs.Machine.Steps
import Mathlib.Algebra.BigOperators.Ring.Finset
import Mathlib.Tactic.Ring

/-!
Loads behind stores. The main statement says which word a load finds when a store went before it, byte by byte and for
every overlap of the two ranges, and how a load reads these bytes as a number.
-/

set_option autoImplicit false
set_option relaxedAutoImplicit false

namespace MeteredVm

open Finset

namespace LittleEndian

private theorem getElem_write (n width : Nat) {k : Nat} (inside : k < (write n width).length) :
    (write n width)[k] = UInt8.ofNat (n / 256 ^ k % 256) := by
  induction width generalizing n k with
  | zero => exact absurd inside (Nat.not_lt_zero k)
  | succ width ih =>
    cases k with
    | zero => simp [write]
    | succ k =>
      have rest := ih (n / 256) (Nat.lt_of_succ_lt_succ inside)
      simp only [write, List.getElem_cons_succ, rest, Nat.div_div_eq_div_mul, Nat.pow_succ']

private theorem value_ofFn (f : Nat → UInt8) (width : Nat) :
    value (List.ofFn fun i : Fin width => f i) = ∑ j ∈ range width, (f j).toNat * 256 ^ j := by
  induction width generalizing f with
  | zero => rfl
  | succ width ih =>
    have rest := ih fun j => f (j + 1)
    rw [List.ofFn_succ, value, sum_range_succ', Nat.pow_zero, Nat.mul_one, Nat.add_comm]
    simp only [Fin.val_succ, Fin.val_zero, rest, mul_sum]
    congr 1
    refine sum_congr rfl fun j _ => ?_
    ring

private theorem sum_bytes_lt (f : Nat → Nat) (width : Nat) (bytes : ∀ j, f j < 256) :
    ∑ j ∈ range width, f j * 256 ^ j < 256 ^ width := by
  induction width with
  | zero => simp
  | succ width ih =>
    have last : f width * 256 ^ width ≤ 255 * 256 ^ width := Nat.mul_le_mul_right _ (Nat.le_of_lt_succ (bytes width))
    rw [sum_range_succ, Nat.pow_succ]
    omega

end LittleEndian

namespace LoadKind

def isSigned : LoadKind → Bool
  | .i8 | .i16 | .i32 => true
  | .u8 | .u16 | .u32 | .u64 => false

/-- The integer that the loaded bits stand for: two's complement in the width of a signed kind. -/
def reading (kind : LoadKind) (n : Nat) : Int :=
  if kind.isSigned ∧ 256 ^ kind.width ≤ 2 * n then n - 256 ^ kind.width else n

private theorem reading_of_signed {kind : LoadKind} (signed : kind.isSigned = true) {n : Nat}
    (small : n < 256 ^ kind.width) :
    kind.reading n = (n : Int).bmod (256 ^ kind.width) := by
  obtain ⟨half, even⟩ : 2 ∣ 256 ^ kind.width := Dvd.dvd.trans (by decide) (dvd_pow_self 256 kind.width_pos.ne')
  have power : (256 : Int) ^ kind.width = ((2 * half : Nat) : Int) := by
    rw [← even, Nat.cast_pow]
    rfl
  have whole : (n : Int) % ((2 * half : Nat) : Int) = n := Int.emod_eq_of_lt (by omega) (by omega)
  rw [Int.bmod_def, reading, power, even, whole]
  simp only [signed, true_and]
  split <;> split <;> omega

private theorem extend_of_signed {kind : LoadKind} (signed : kind.isSigned = true) (raw : UInt64) :
    ∃ bits : Int64, kind.extend raw = bits.toUInt64 ∧ bits.toInt = (raw.toNat : Int).bmod (256 ^ kind.width) := by
  cases kind with
  | i8 =>
    have narrow : raw.toUInt8.toInt8.toInt = (raw.toUInt8.toNat : Int).bmod 256 := BitVec.toInt_eq_toNat_bmod _
    refine ⟨raw.toUInt8.toInt8.toInt64, rfl, ?_⟩
    rw [Int8.toInt_toInt64, narrow, UInt64.toNat_toUInt8]
    exact Int.emod_bmod raw.toNat 256
  | i16 =>
    have narrow : raw.toUInt16.toInt16.toInt = (raw.toUInt16.toNat : Int).bmod 65536 := BitVec.toInt_eq_toNat_bmod _
    refine ⟨raw.toUInt16.toInt16.toInt64, rfl, ?_⟩
    rw [Int16.toInt_toInt64, narrow, UInt64.toNat_toUInt16]
    exact Int.emod_bmod raw.toNat 65536
  | i32 =>
    have narrow : raw.toUInt32.toInt32.toInt = (raw.toUInt32.toNat : Int).bmod 4294967296 :=
      BitVec.toInt_eq_toNat_bmod _
    refine ⟨raw.toUInt32.toInt32.toInt64, rfl, ?_⟩
    rw [Int32.toInt_toInt64, narrow, UInt64.toNat_toUInt32]
    exact Int.emod_bmod raw.toNat 4294967296
  | _ => cases signed

private theorem extend_of_unsigned {kind : LoadKind} (unsigned : kind.isSigned = false) (raw : UInt64) :
    kind.extend raw = raw := by
  cases kind with
  | i8 => cases unsigned
  | i16 => cases unsigned
  | i32 => cases unsigned
  | _ => rfl

private theorem extend_eq (kind : LoadKind) {n : Nat} (small : n < 256 ^ kind.width) :
    kind.extend (UInt64.ofNat n) = UInt64.ofInt (kind.reading n) := by
  have word : ((UInt64.ofInt (kind.reading n)).toNat : Int) = kind.reading n % 2 ^ 64 := by
    rw [UInt64.ofInt, UInt64.toNat_ofNat']
    omega
  have fits : 256 ^ kind.width ≤ 2 ^ 64 := by cases kind <;> decide
  have whole : (UInt64.ofNat n).toNat = n := UInt64.toNat_ofNat_of_lt' (Nat.lt_of_lt_of_le small fits)
  apply UInt64.toNat_inj.mp
  cases signed : kind.isSigned with
  | true =>
    obtain ⟨bits, extended, low⟩ := extend_of_signed signed (UInt64.ofNat n)
    have residue := toNat_toUInt64_int64 bits
    rw [low, whole, ← reading_of_signed signed small] at residue
    rw [extended]
    omega
  | false =>
    have plain : kind.reading n = n := by simp [reading, signed]
    rw [extend_of_unsigned signed, whole]
    omega

end LoadKind

private theorem Cell.value_bytes (cells : Nat → Cell) (a width : Nat) :
    LittleEndian.value (bytes cells a width).toList = ∑ j ∈ range width, (cells (a + j)).byte.toNat * 256 ^ j := by
  rw [bytes, Array.toList_ofFn]
  exact LittleEndian.value_ofFn (fun j => (cells (a + j)).byte) width

namespace Memory

/-- The byte at an address when the low bytes of a word went before to the addresses from `start` on: a byte of the word
inside of that range, and what memory held outside. -/
def byteAfter (memory : Memory) (start width : Nat) (word : UInt64) (a : Nat) : Nat :=
  if start ≤ a ∧ a < start + width then word.toNat / 256 ^ (a - start) % 256 else (memory.byteAt a).toNat

private theorem byteAfter_lt (memory : Memory) (start width : Nat) (word : UInt64) (a : Nat) :
    memory.byteAfter start width word a < 256 := by
  unfold byteAfter
  split
  · exact Nat.mod_lt _ (by decide)
  · exact (memory.byteAt a).toNat_lt

private theorem byte_written (memory : Memory) (start width : Nat) (word : UInt64) (a : Nat) :
    (Cell.written memory.flat start (LittleEndian.write word.toNat width) a).byte.toNat =
      memory.byteAfter start width word a := by
  have count := LittleEndian.length_write word.toNat width
  unfold Cell.written byteAfter
  simp only [count]
  split
  · simp only [LittleEndian.getElem_write, UInt8.toNat_ofNat', Nat.mod_mod]
  · rw [flat_byte]

end Memory

namespace Machine

def Effect.Accesses : Effect → Prop
  | .load .. | .store .. => True
  | .trap | .ask _ | .jump _ | .halt | .compute => False

/-- The word that a load finds at an address when a store of a register went before. -/
def wordAfter (machine : Machine) (stored : StoreKind) (src : Reg) (a : Nat) (loaded : LoadKind) (b : Nat) : UInt64 :=
  .ofInt (loaded.reading
    (∑ j ∈ range loaded.width, machine.memory.byteAfter a stored.width (machine.registers.get src) (b + j) * 256 ^ j))

/-- A machine behind a store that did not fail, whatever was paid since. -/
structure Stored (machine : Machine) (next : UInt32) (kind : StoreKind) (src : Reg) (a : Nat) (after : Machine) :
    Prop where
  program : after.program = machine.program
  pc : after.pc = next
  registers : after.registers = machine.registers
  flat : after.memory.flat =
    Cell.written machine.memory.flat a (LittleEndian.write (machine.registers.get src).toNat kind.width)

private theorem Becomes.of_load {machine after : Machine} {next : UInt32} {kind : LoadKind} {dst : Reg} {a : Nat}
    (becomes : machine.Becomes next (.load kind dst a) after) (runs : after.status = .continuing) :
    after = machine.assign dst (machine.loadedWord kind a) next := by
  cases becomes with
  | loads granted => rfl
  | missesLoad denied => cases runs

private theorem effect_congr {machine other : Machine} (same : other.registers = machine.registers)
    (instruction : Instruction Reg) : other.effect instruction = machine.effect instruction := by
  unfold effect effective indirectTarget
  rw [same]

section

variable {machine : Machine} {instruction : Instruction Reg} {a : Nat}

private theorem execute_of_load {kind : LoadKind} {dst : Reg} (loads : machine.effect instruction = .load kind dst a)
    (next : UInt32) : machine.execute next instruction = machine.loadFrom kind dst (.ofNat a) next := by
  cases instruction with
  | load kind' dst' address =>
    obtain ⟨rfl, rfl, rfl⟩ := Effect.load.inj loads
    rw [UInt32.ofNat_toNat]
    rfl
  | loadInd kind' dst' base offset =>
    obtain ⟨rfl, rfl, rfl⟩ := Effect.load.inj loads
    rw [← toNat_indirectAddress, UInt32.ofNat_toNat]
    rfl
  | jumpInd base offset => simp only [effect] at loads; split at loads <;> cases loads
  | branch condition x y target =>
    rcases machine.effect_branch condition x y target with ⟨-, jumps⟩ | ⟨-, computes⟩
    · cases jumps.symm.trans loads
    · cases computes.symm.trans loads
  | _ => cases loads

private theorem execute_of_store {kind : StoreKind} {src : Reg}
    (stores : machine.effect instruction = .store kind src a) (next : UInt32) :
    machine.execute next instruction = machine.storeTo kind (machine.registers.get src) (.ofNat a) next := by
  cases instruction with
  | store kind' src' address =>
    obtain ⟨rfl, rfl, rfl⟩ := Effect.store.inj stores
    rw [UInt32.ofNat_toNat]
    rfl
  | storeInd kind' src' base offset =>
    obtain ⟨rfl, rfl, rfl⟩ := Effect.store.inj stores
    rw [← toNat_indirectAddress, UInt32.ofNat_toNat]
    rfl
  | jumpInd base offset => simp only [effect] at stores; split at stores <;> cases stores
  | branch condition x y target =>
    rcases machine.effect_branch condition x y target with ⟨-, jumps⟩ | ⟨-, computes⟩
    · cases jumps.symm.trans stores
    · cases computes.symm.trans stores
  | _ => cases stores

end

/-- Instructions with the same access, whether it names its address or a distance, do the same and fail alike. -/
private theorem execute_eq_of_same_access {machine : Machine} {one other : Instruction Reg}
    (same : machine.effect one = machine.effect other) (accesses : (machine.effect one).Accesses) (next : UInt32) :
    machine.execute next one = machine.execute next other := by
  cases effect : machine.effect one with
  | load kind dst a => rw [execute_of_load effect, execute_of_load (same.symm.trans effect)]
  | store kind src a => rw [execute_of_store effect, execute_of_store (same.symm.trans effect)]
  | _ =>
    rw [effect] at accesses
    cases accesses

private theorem fault?_of_store {machine : Machine} {storing : Instruction Reg} {kind : StoreKind} {src : Reg} {a : Nat}
    (stores : machine.effect storing = .store kind src a) (next : UInt32) :
    (machine.execute next storing).memory.fault? = machine.memory.fault? := by
  rw [execute_of_store stores, storeTo]
  split
  · rfl
  · rename_i memory stored
    exact Memory.fault?_congr (Memory.pageAccess_of_store stored)

private theorem loadFrom_panics_iff {machine : Machine} (running : machine.status = .continuing) (kind : LoadKind)
    (dst : Reg) (address next : UInt32) :
    (machine.loadFrom kind dst address next).status = .panic ↔
      machine.memory.fault? .read address.toUInt64 (UInt64.ofNat kind.width) ≠ none := by
  rw [Option.ne_none_iff_exists', loadFrom]
  simp only [← Memory.load_eq_error_iff]
  cases machine.memory.load address.toUInt64 (UInt64.ofNat kind.width) with
  | error error => exact iff_of_true rfl ⟨error, rfl⟩
  | ok bytes => simp [assign, running]

private theorem execute_of_continuing {machine : Machine} (runs : machine.step.status = .continuing) :
    machine.status = .continuing ∧ ∃ instruction next, decode machine.program machine.pc = .ok (instruction, next) ∧
      machine.step = (machine.pay machine.instructionGas.toUInt64).execute next instruction := by
  have running : machine.status = .continuing := by
    by_contra stopped
    have stays : machine.step = machine := if_pos stopped
    exact stopped (stays ▸ runs)
  refine ⟨running, ?_⟩
  cases decoded : decode machine.program machine.pc with
  | error error =>
    rw [step_of_undecodable running decoded] at runs
    cases runs
  | ok found =>
    cases paid : (machine.pay machine.instructionGas.toUInt64).gas.isOverdrawn with
    | true =>
      rw [step_of_overdrawn running decoded paid] at runs
      cases runs
    | false => exact ⟨found.1, found.2, rfl, step_of_affordable running decoded paid⟩

section

variable {machine between : Machine} {next behind : UInt32} {storing loading : Instruction Reg} {s : StoreKind}
  {src : Reg} {a : Nat} {l : LoadKind} {dst : Reg} {b : Nat}

private theorem stored_of_continuing (stores : machine.effect storing = .store s src a)
    (stored : (machine.execute next storing).status = .continuing) :
    machine.status = .continuing ∧ machine.Stored next s src a (machine.execute next storing) := by
  have becomes := machine.execute_becomes next storing
  rw [stores] at becomes
  generalize machine.execute next storing = after at becomes stored
  cases becomes with
  | stores memory granted written => exact ⟨stored, rfl, rfl, rfl, written⟩
  | missesStore denied => cases stored

private theorem Stored.registers_of_load (stored : machine.Stored next s src a between)
    (loads : machine.effect loading = .load l dst b)
    (loaded : (between.execute behind loading).status = .continuing) :
    (between.execute behind loading).registers = machine.registers.set dst (machine.wordAfter s src a l b) := by
  have becomes := between.execute_becomes behind loading
  rw [effect_congr stored.registers, loads] at becomes
  have small := LittleEndian.sum_bytes_lt
    (fun j => machine.memory.byteAfter a s.width (machine.registers.get src) (b + j)) l.width
    fun j => Memory.byteAfter_lt _ _ _ _ _
  have word : between.loadedWord l b = machine.wordAfter s src a l b := by
    simp only [loadedWord, Cell.value_bytes, stored.flat, Memory.byte_written, l.extend_eq small, wordAfter]
  rw [becomes.of_load loaded, assign, stored.registers, word]

end

/-- Loads behind stores. When a store is executed and then a load, and neither fails, the register receives the word
whose bytes are those of the stored register where the load meets the store, and those that memory held before
elsewhere, extended by its sign if the load is a signed one; so it is for two steps of any program that go on. An access
that names its address and one that names a distance from a register do the same and fail alike if they come to the same
address. No store changes which loads fail, nor how. -/
theorem loads_find_what_was_stored (machine : Machine) :
    (∀ storing loading s src a l dst b next behind,
      machine.effect storing = .store s src a → machine.effect loading = .load l dst b →
      (machine.execute next storing).status = .continuing →
      ((machine.execute next storing).execute behind loading).status = .continuing →
        ((machine.execute next storing).execute behind loading).registers =
          machine.registers.set dst (machine.wordAfter s src a l b)) ∧
    (∀ storing loading s src a l dst b next behind,
      machine.effect storing = .store s src a → machine.effect loading = .load l dst b →
      decode machine.program machine.pc = .ok (storing, next) →
      decode machine.program next = .ok (loading, behind) → machine.step.step.status = .continuing →
        machine.step.step.registers = machine.registers.set dst (machine.wordAfter s src a l b)) ∧
    (∀ one other, machine.effect one = machine.effect other → (machine.effect one).Accesses →
      ∀ next, machine.execute next one = machine.execute next other) ∧
    ∀ storing s src a next, machine.effect storing = .store s src a →
      (∀ address length error, (machine.execute next storing).memory.load address length = .error error ↔
        machine.memory.load address length = .error error) ∧
      ∀ loading l dst b behind, machine.effect loading = .load l dst b →
        (machine.execute next storing).status = .continuing →
          (((machine.execute next storing).execute behind loading).status = .panic ↔
            (machine.execute behind loading).status = .panic) := by
  refine ⟨?_, ?_, fun one other same accesses next => execute_eq_of_same_access same accesses next, ?_⟩
  · intro storing loading s src a l dst b next behind stores loads went loaded
    obtain ⟨-, stored⟩ := stored_of_continuing stores went
    exact stored.registers_of_load loads loaded
  · intro storing loading s src a l dst b next behind stores loads decodedStore decodedLoad runs
    obtain ⟨went, loading', behind', decodedSecond, second⟩ := execute_of_continuing runs
    obtain ⟨-, storing', next', decodedFirst, first⟩ := execute_of_continuing went
    obtain ⟨rfl, rfl⟩ := Prod.mk.inj (Except.ok.inj (decodedStore.symm.trans decodedFirst))
    rw [first] at went
    have storesPaid : (machine.pay machine.instructionGas.toUInt64).effect storing = .store s src a :=
      (effect_congr rfl storing).trans stores
    obtain ⟨-, stored⟩ := stored_of_continuing storesPaid went
    rw [← first] at stored
    rw [stored.program, stored.pc] at decodedSecond
    obtain ⟨rfl, rfl⟩ := Prod.mk.inj (Except.ok.inj (decodedLoad.symm.trans decodedSecond))
    have paid : machine.Stored next s src a (machine.step.pay machine.step.instructionGas.toUInt64) :=
      ⟨stored.program, stored.pc, stored.registers, stored.flat⟩
    rw [second] at runs ⊢
    exact paid.registers_of_load loads runs
  · intro storing s src a next stores
    have faults := fault?_of_store stores next
    refine ⟨fun address length error => ?_, fun loading l dst b behind loads went => ?_⟩
    · rw [Memory.load_eq_error_iff, Memory.load_eq_error_iff, faults]
    · obtain ⟨running, stored⟩ := stored_of_continuing stores went
      rw [execute_of_load ((effect_congr stored.registers loading).trans loads), execute_of_load loads,
        loadFrom_panics_iff went, loadFrom_panics_iff running, faults]

/-- A machine about to store four bytes across the end of a page and to load four bytes from the second of them on, with
the base of the load beyond 32 bits. -/
def straddling : Machine :=
  let pages := ((∅ : PageTable).insert 17 ((Page.zeroed .write).overwrite 2 [0x80])).insert 16 (Page.zeroed .write)
  (idle 1).reset #[61, 2, 254, 15, 1, 0, 129, 19, 252, 255, 255, 255] 0 5
    (some ((Registers.zero.set 1 0x700011003).set 2 0xAABBCCDD44332211)) (some ⟨pages, 0, 0⟩)

/-- Three of the bytes that it loads are of the stored word, and the sign is in the byte behind them. -/
theorem loads_find_what_was_stored_across_pages :
    decode straddling.program 0 = .ok (.store .u32 2 0x10FFE, 6) ∧
      decode straddling.program 6 = .ok (.loadInd .i32 3 1 (-4), 12) ∧
      straddling.step.step.registers.get 3 = 0xFFFFFFFF80443322 := by
  have storing : decode straddling.program 0 = .ok (.store .u32 2 0x10FFE, 6) := by decide +kernel
  have loading : decode straddling.program 6 = .ok (.loadInd .i32 3 1 (-4), 12) := by decide +kernel
  have loads : straddling.effect (.loadInd .i32 3 1 (-4)) = .load .i32 3 0x10FFF := by decide +kernel
  have runs : straddling.step.step.status = .continuing := by decide +kernel
  have law := (loads_find_what_was_stored straddling).2.1 _ _ .u32 2 0x10FFE .i32 3 0x10FFF 6 12 rfl loads storing
    loading runs
  refine ⟨storing, loading, ?_⟩
  rw [law, Registers.get_set_self]
  decide +kernel

end Machine

end MeteredVm
