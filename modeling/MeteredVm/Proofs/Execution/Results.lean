import MeteredVm.Proofs.Execution.Endings
import MeteredVm.Proofs.Memory.FlatMap
import Mathlib.Data.Finset.Prod
import Mathlib.Order.Interval.Finset.Nat

/-!
The results of executions. A program that halts points at its output by two registers, whose words may be anything. The
main statement says which result is read off the machine at the end of an execution; the output is all of the range that
the registers name, or nothing, and no buffer is made for it that is longer than the memory that backs the range.
-/

set_option autoImplicit false
set_option relaxedAutoImplicit false

namespace MeteredVm

open AddressSpace HostCall

namespace Memory

private theorem length_le_of_allows {memory : Memory} {use : Use} {address length : Nat}
    (allowed : memory.Allows use address length) : length ≤ pageSize * memory.mappedPages := by
  -- an address is found again from its page and its place in there, so there are no more addresses than such places
  let addresses := Finset.Ico address (address + length)
  let places := memory.pages.keys.toFinset ×ˢ Finset.range pageSize
  have placed : ∀ a ∈ addresses, (pageOf a, a % pageSize) ∈ places := by
    intro a among
    obtain ⟨low, high⟩ := Finset.mem_Ico.mp among
    have mapped := mem_of_flat_allows (allowed a low high)
    apply Finset.mem_product.mpr
    constructor
    · exact List.mem_toFinset.mpr (Std.ExtTreeMap.mem_keys.mpr mapped)
    · exact Finset.mem_range.mpr (Nat.mod_lt a (by decide))
  have apart : Set.InjOn (fun a => (pageOf a, a % pageSize)) addresses := by
    intro a _ b _ same
    obtain ⟨page, place⟩ := Prod.mk.inj same
    rw [← Nat.div_add_mod a pageSize, ← Nat.div_add_mod b pageSize, place]
    exact congrArg (fun page => pageSize * page + b % pageSize) page
  have pages : memory.pages.keys.toFinset.card ≤ memory.mappedPages :=
    Nat.le_trans (List.toFinset_card_le _) (Nat.le_of_eq Std.ExtTreeMap.length_keys)
  calc
    length = addresses.card := by rw [Nat.card_Ico, Nat.add_sub_cancel_left]
    _ ≤ places.card := Finset.card_le_card_of_injOn _ placed apart
    _ = memory.pages.keys.toFinset.card * pageSize := by rw [Finset.card_product, Finset.card_range]
    _ ≤ memory.mappedPages * pageSize := Nat.mul_le_mul_right _ pages
    _ = pageSize * memory.mappedPages := Nat.mul_comm _ _

end Memory

namespace Machine

/-- Where the output of a halted program starts. -/
def outputAddress (machine : Machine) : Nat := (machine.registers.get outputAddressRegister).toNat

/-- The number of bytes in the output of a halted program. -/
def outputLength (machine : Machine) : Nat := (machine.registers.get outputLengthRegister).toNat

structure NamesOutput (machine : Machine) : Prop where
  nonempty : 0 < machine.outputLength
  inside : machine.outputAddress + machine.outputLength ≤ size
  readable : machine.memory.Allows .read machine.outputAddress machine.outputLength

section

variable {machine : Machine}

private theorem namesOutput_iff :
    machine.NamesOutput ↔ ¬ (machine.registers.get outputLengthRegister = 0 ∨
      ¬ machine.memory.isReadable (machine.registers.get outputAddressRegister)
        (machine.registers.get outputLengthRegister) = true) := by
  have empty : machine.registers.get outputLengthRegister = 0 ↔ machine.outputLength = 0 := UInt64.toNat_inj.symm
  rw [not_or, not_not, Memory.isReadable, Option.isNone_iff_eq_none, Memory.fault?_eq_none_iff, empty]
  constructor
  · intro names
    exact ⟨Nat.ne_of_gt names.nonempty, .inr ⟨names.inside, names.readable⟩⟩
  · rintro ⟨nonempty, nothing | ⟨inside, readable⟩⟩
    · exact absurd nothing nonempty
    · exact ⟨Nat.pos_of_ne_zero nonempty, inside, readable⟩

private theorem NamesOutput.load_eq (names : machine.NamesOutput) :
    machine.memory.load (machine.registers.get outputAddressRegister) (machine.registers.get outputLengthRegister) =
      .ok (Cell.bytes machine.memory.flat machine.outputAddress machine.outputLength) :=
  Memory.load_flat ((machine.memory.fault?_eq_none_iff .read _ _).mpr (.inr ⟨names.inside, names.readable⟩))

private theorem NamesOutput.output_eq (names : machine.NamesOutput) :
    machine.output = Cell.bytes machine.memory.flat machine.outputAddress machine.outputLength := by
  unfold output
  dsimp only
  rw [if_neg (namesOutput_iff.mp names), names.load_eq]

private theorem output_of_not_namesOutput (nameless : ¬ machine.NamesOutput) : machine.output = #[] :=
  if_pos (not_not.mp (mt namesOutput_iff.mpr nameless))

private theorem size_output_le (machine : Machine) : machine.output.size ≤ pageSize * machine.memory.mappedPages := by
  by_cases names : machine.NamesOutput
  · rw [names.output_eq, Cell.bytes, Array.size_ofFn]
    exact Memory.length_le_of_allows names.readable
  · rw [output_of_not_namesOutput names]
    exact Nat.zero_le _

end

end Machine

namespace Dispatcher

variable {ε : Type}

private theorem run?_of_terminal (dispatcher : Dispatcher ε) {machine : Machine}
    (ended : machine.status.isTerminal = true) :
    dispatcher.run? machine = some ⟨machine, #[]⟩ :=
  dispatcher.run?_eq_some_iff.mpr ⟨ended, 0, Nat.zero_le _, rfl⟩

/-- The result of an execution. Where it ends the status is a final one, the outcome is what the status says, and the
gas is what the machine has used. The output of a program that halted is all of the range that its registers name, if
the range has bytes and all of them can be read, and else it is empty; it has no more bytes than the pages that are
backed. A buffer is made only for a range that can be read, and then copying into it succeeds. If the machine is run
again, nothing happens to it. -/
theorem result_is_read_off_the_end (dispatcher : Dispatcher ε) (machine : Machine) :
    (∀ last, dispatcher.run? machine = some last → dispatcher.Ends machine last) ∧
    ∀ last, dispatcher.Ends machine last →
      let ended := last.machine
      ended.status.isTerminal = true ∧
      (ended.status = .halt ∧ ended.result = ⟨.halt ended.output, ended.gasUsed⟩ ∨
        ended.status = .outOfGas ∧ ended.result = ⟨.outOfGas, ended.gasUsed⟩ ∨
        ended.status = .panic ∧ ended.result = ⟨.panic, ended.gasUsed⟩) ∧
      (ended.NamesOutput →
        ended.output = Cell.bytes ended.memory.flat ended.outputAddress ended.outputLength) ∧
      (¬ ended.NamesOutput → ended.output = #[]) ∧
      ended.output.size ≤ pageSize * ended.memory.mappedPages ∧
      (let address := ended.registers.get outputAddressRegister
        let length := ended.registers.get outputLengthRegister
        length ≠ 0 → ended.memory.isReadable address length = true →
          ended.memory.load address length = .ok ended.output ∧
            length.toNat ≤ pageSize * ended.memory.mappedPages) ∧
      ∀ again : Dispatcher ε, again.run? ended = some ⟨ended, #[]⟩ := by
  refine ⟨fun last => dispatcher.ends_of_run?, ?_⟩
  intro last ends ended
  have terminal : ended.status.isTerminal = true := ends.1
  refine ⟨terminal, ?_, Machine.NamesOutput.output_eq, Machine.output_of_not_namesOutput, ended.size_output_le, ?_,
    fun again => again.run?_of_terminal terminal⟩
  · rw [Machine.result]
    cases status : ended.status with
    | halt => exact .inl ⟨rfl, rfl⟩
    | outOfGas => exact .inr (.inl ⟨rfl, rfl⟩)
    | panic => exact .inr (.inr ⟨rfl, rfl⟩)
    | continuing => simp [status, Status.isTerminal] at terminal
    | hostCall index => simp [status, Status.isTerminal] at terminal
  · intro address length nonempty readable
    have names : ended.NamesOutput := Machine.namesOutput_iff.mpr (not_or.mpr ⟨nonempty, not_not.mpr readable⟩)
    exact ⟨names.load_eq.trans (congrArg Except.ok names.output_eq.symm), Memory.length_le_of_allows names.readable⟩

/-- A machine about to halt with two bytes across the end of a page as its output. -/
def pointing : Machine :=
  let pages := ((∅ : PageTable).insert 17 ((Page.zeroed .read).overwrite 0 [8])).insert 16
    ((Page.zeroed .write).overwrite 4095 [7])
  let registers := ((Registers.zero.set (.numbered 1) 0xFFFF0000).set outputAddressRegister 0x10FFF).set
    outputLengthRegister 2
  (Machine.idle 1).reset #[50, 1, 0, 0, 0, 0] 0 5 (some registers) (some ⟨pages, 0, 0⟩)

/-- The output is the last byte of the one page and the first byte of the other. -/
theorem result_is_read_off_the_end_across_pages :
    let quiet : Dispatcher Unit := ⟨⟨[], by decide⟩, 10⟩
    ∃ last, quiet.run? pointing = some last ∧ quiet.Ends pointing last ∧
      last.machine.registers.get outputLengthRegister ≠ 0 ∧
      last.machine.memory.isReadable (last.machine.registers.get outputAddressRegister)
        (last.machine.registers.get outputLengthRegister) = true ∧
      last.machine.result = ⟨.halt #[7, 8], 1⟩ := by
  intro quiet
  obtain ⟨ends, ending⟩ := result_is_read_off_the_end quiet pointing
  have reads : (quiet.run? pointing).map (fun last =>
      let ended := last.machine
      let address := ended.registers.get outputAddressRegister
      let length := ended.registers.get outputLengthRegister
      ((ended.status, ended.gasUsed), (length, ended.memory.isReadable address length),
        ended.memory.load address length)) = some ((.halt, 1), (2, true), .ok #[7, 8]) := by decide +kernel
  obtain ⟨last, ran, found⟩ := Option.map_eq_some_iff.mp reads
  simp only [Prod.mk.injEq] at found
  obtain ⟨⟨status, used⟩, ⟨two, readable⟩, loaded⟩ := found
  have nonempty : last.machine.registers.get outputLengthRegister ≠ 0 := by
    rw [two]
    decide
  obtain ⟨-, results, -, -, -, copied, -⟩ := ending last (ends last ran)
  obtain ⟨succeeds, -⟩ := copied nonempty readable
  refine ⟨last, ran, ends last ran, nonempty, readable, ?_⟩
  rcases results with ⟨-, result⟩ | ⟨other, -⟩ | ⟨other, -⟩
  · rw [result, used, Except.ok.inj (succeeds.symm.trans loaded)]
  · exact absurd (status.symm.trans other) (by decide)
  · exact absurd (status.symm.trans other) (by decide)

end Dispatcher

end MeteredVm
