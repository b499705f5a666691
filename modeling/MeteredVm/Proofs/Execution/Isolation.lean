import MeteredVm.Proofs.Execution.Moments
import MeteredVm.Proofs.Memory.Heap

/-!
What an execution can do to the memory it was given. Whatever the program and its host calls are, memory changes only
by their stores that succeed and by the growth of the heap, so read-only pages keep their bytes and no page outside of
the heap changes its access.
-/

set_option autoImplicit false
set_option relaxedAutoImplicit false

namespace MeteredVm

open AddressSpace

variable {ε : Type}

/-- What happens next is that these bytes are stored at this address, with success. -/
inductive Moment.Stores (moment : Moment ε) (address : UInt64) (bytes : List UInt8) : Prop where
  | guest (instruction : Instruction Reg) (next : UInt32) (memory : Memory) (free : moment.handler = none)
      (running : moment.machine.status = .continuing)
      (decoded : decode moment.machine.program moment.machine.pc = .ok (instruction, next))
      (affordable : (moment.machine.pay moment.machine.instructionGas.toUInt64).gas.isOverdrawn = false)
      (asked : moment.machine.storeRequest? instruction = some (address, bytes))
      (stored : moment.machine.memory.store address bytes = .ok memory)
  | host (payload : Payload) (rest : Except MemoryError Unit → HostProgram ε (Option HostVerdict)) (memory : Memory)
      (held : moment.handler = some (.store address payload rest)) (same : payload.bytes = bytes)
      (stored : Memory.Host.store moment.machine.memory address payload.bytes = .ok memory)

/-- What becomes of memory from one moment to the next. -/
inductive Moment.Touches (moment : Moment ε) : Memory → Prop where
  | kept : Touches moment moment.machine.memory
  | stored (address : UInt64) (bytes : List UInt8) (after : Memory) (counted : bytes.length < UInt64.size)
      (stores : moment.Stores address bytes) (stored : moment.machine.memory.store address bytes = .ok after) :
      Touches moment after
  | grown (length : UInt32) (previous : Nat) (after : Memory)
      (grown : moment.machine.memory.grow length = some (previous, after)) : Touches moment after

private theorem Machine.length_of_storeRequest? {machine : Machine} {instruction : Instruction Reg} {address : UInt64}
    {bytes : List UInt8} (asked : machine.storeRequest? instruction = some (address, bytes)) : bytes.length ≤ 8 := by
  have width : ∀ kind : StoreKind, kind.width ≤ 8 := by
    intro kind
    cases kind <;> decide
  cases instruction with
  | store kind src address =>
    obtain ⟨-, rfl⟩ := Prod.mk.inj (Option.some.inj asked)
    rw [storeRequest?.bytes, LittleEndian.length_write]
    exact width kind
  | storeInd kind src base offset =>
    obtain ⟨-, rfl⟩ := Prod.mk.inj (Option.some.inj asked)
    rw [storeRequest?.bytes, LittleEndian.length_write]
    exact width kind
  | _ => cases asked

private theorem HostProgram.touches_next {moment : Moment ε} {program : HostProgram ε (Option HostVerdict)}
    (held : moment.handler = some program) : moment.Touches (program.next moment.machine.view).2.1.memory := by
  cases program with
  | store address payload rest =>
    simp only [next]
    cases stored : Memory.Host.store moment.machine.view.memory address payload.bytes with
    | error error => exact .kept
    | ok memory =>
      exact .stored address payload.bytes memory payload.counted (.host payload rest memory held rfl stored)
        (Memory.store_of_host_store stored)
  | _ => exact .kept

private theorem Machine.memory_conclude (machine : Machine) (verdict : Option HostVerdict) :
    (machine.conclude verdict).memory = machine.memory := congrArg GuestView.memory (machine.view_conclude verdict)

namespace Dispatcher

private theorem Ticks.touches {dispatcher : Dispatcher ε} {moment after : Moment ε}
    (ticks : dispatcher.Ticks moment after) :
    moment.Touches after.machine.memory := by
  cases ticks with
  | rests => exact .kept
  | overdraws => exact .kept
  | refuses => exact .kept
  | begins => exact .kept
  | concludes verdict held =>
    change moment.Touches (moment.machine.conclude verdict).memory
    rw [Machine.memory_conclude]
    exact .kept
  | serves program rest view reports held asking served =>
    have touched := HostProgram.touches_next held
    rw [served] at touched
    exact touched
  | steps machine free running stepped =>
    cases stepped with
    | stays => exact .kept
    | undecodable => exact .kept
    | unaffordable => exact .kept
    | executes instruction next after running decoded affordable executed =>
      cases executed with
      | goesOn registers pc => exact .kept
      | ends status final => exact .kept
      | asks index pc => exact .kept
      | stores address bytes memory pc asked stored =>
        -- Paying changes neither the registers nor the memory that a store looks at.
        have request : moment.machine.storeRequest? instruction = some (address, bytes) := by
          cases instruction <;> exact asked
        have short := Machine.length_of_storeRequest? asked
        have counted : bytes.length < UInt64.size := by
          unfold UInt64.size
          omega
        exact .stored address bytes memory counted
          (.guest instruction next memory free running decoded affordable request stored) stored
      | grows length previous memory registers pc grown => exact .grown length previous memory grown

end Dispatcher

private theorem Moment.Touches.extends {moment : Moment ε} {after : Memory} (touches : moment.Touches after)
    (ready : moment.machine.memory.HeapReady) : moment.machine.memory.Extends after := by
  cases touches with
  | kept => exact .refl ready
  | stored address bytes after counted stores stored => exact (Memory.store_spec counted stored).1 ready
  | grown length previous after grown => exact (Memory.grow_spec ready grown).1

private theorem Moment.Touches.byteAt {moment : Moment ε} {after : Memory} (touches : moment.Touches after)
    (ready : moment.machine.memory.HeapReady) {a : Nat} (changed : after.byteAt a ≠ moment.machine.memory.byteAt a) :
    moment.machine.memory.pageAccess (pageOf a) = .write ∧
      ∃ address bytes, moment.Stores address bytes ∧ address.toNat ≤ a ∧ a < address.toNat + bytes.length := by
  cases touches with
  | kept => exact absurd rfl changed
  | stored address bytes after counted stores stored =>
    obtain ⟨writes, covered⟩ := (Memory.store_spec counted stored).2 a changed
    exact ⟨writes, address, bytes, stores, covered⟩
  | grown length previous after grown => exact absurd ((Memory.grow_spec ready grown).2 a) changed

namespace Dispatcher

variable (dispatcher : Dispatcher ε) {machine : Machine}

private theorem touches_moments (n : Nat) :
    (dispatcher.moments machine n).Touches (dispatcher.moments machine (n + 1)).machine.memory := by
  rw [moments_succ]
  exact (dispatcher.tick_ticks _).touches

private theorem extends_moments (ready : machine.memory.HeapReady) {n m : Nat} (le : n ≤ m) :
    (dispatcher.moments machine n).machine.memory.Extends (dispatcher.moments machine m).machine.memory := by
  have start : ∀ n, machine.memory.Extends (dispatcher.moments machine n).machine.memory := by
    intro n
    induction n with
    | zero => exact .refl ready
    | succ n ih => exact ih.trans ((dispatcher.touches_moments n).extends ih.ready)
  induction m, le using Nat.le_induction with
  | base => exact .refl (start n).ready
  | succ m _ ih => exact ih.trans ((dispatcher.touches_moments m).extends ih.ready)

/-- A byte that is no longer what it was at the beginning has been stored to, in a page that could be written. -/
private theorem stored_of_changed (ready : machine.memory.HeapReady) {n a : Nat}
    (changed : (dispatcher.moments machine n).machine.memory.byteAt a ≠ machine.memory.byteAt a) :
    ∃ k < n, (dispatcher.moments machine k).machine.memory.pageAccess (pageOf a) = .write ∧
      ∃ address bytes, (dispatcher.moments machine k).Stores address bytes ∧
        address.toNat ≤ a ∧ a < address.toNat + bytes.length := by
  induction n with
  | zero => exact absurd rfl changed
  | succ n ih =>
    -- either the last tick changed the byte, and stored to it, or it was no longer what it was before that
    by_cases before : (dispatcher.moments machine n).machine.memory.byteAt a = machine.memory.byteAt a
    · rw [← before] at changed
      have now := (dispatcher.extends_moments ready (Nat.zero_le n)).ready
      exact ⟨n, Nat.lt_succ_self n, (dispatcher.touches_moments n).byteAt now changed⟩
    · obtain ⟨k, earlier, stored⟩ := ih before
      exact ⟨k, by omega, stored⟩

/-- An execution is confined to the memory it was given. Whatever its program and its host calls do, at every moment:
the bytes of read-only pages are what they were; the pages of the heap that are in use can be written, the others
cannot be used yet, and all other pages grant what they granted; no range in the reserved pages is accessible; the
ceiling of the heap stays and its top never falls; and a byte is what it was unless a store that succeeded covered it.
The states between instructions and host calls, of machines that run with or without host calls, are such moments. -/
theorem memory_is_isolated {layout : Layout} {heapStart heapEnd : Nat} {memory : Memory}
    (closed : layout.finish heapStart heapEnd = .ok memory) (given : machine.memory = memory) :
    let now := fun n => (dispatcher.moments machine n).machine.memory
    (∀ n a, memory.pageAccess (pageOf a) = .read → (now n).byteAt a = memory.byteAt a) ∧
    (∀ n page, (now n).pageAccess page =
      if heapStart ≤ page * pageSize ∧ page * pageSize < (now n).top then .write else memory.pageAccess page) ∧
    (∀ page, heapStart ≤ page * pageSize → page * pageSize < heapEnd →
      memory.pageAccess page = .none ∧ ∀ a, pageOf a = page → memory.byteAt a = 0) ∧
    (∀ n address length, address.toNat < reservedBytes → length ≠ 0 →
      (now n).isReadable address length = false ∧ (now n).isWriteable address length = false) ∧
    (∀ n, (now n).heapEnd = heapEnd ∧ heapStart ≤ (now n).top ∧ (now n).top ≤ heapEnd) ∧
    (∀ n m, n ≤ m → (now n).top ≤ (now m).top) ∧
    (∀ n a, (now n).byteAt a ≠ memory.byteAt a → ∃ k < n, ∃ address bytes,
      (dispatcher.moments machine k).Stores address bytes ∧ address.toNat ≤ a ∧ a < address.toNat + bytes.length) ∧
    (∀ k, ∃ n, dispatcher.moments machine n = Execution.moment ⟨Machine.step^[k] machine, #[]⟩) ∧
    ∀ k, ∃ n, dispatcher.moments machine n = (dispatcher.advance^[k] ⟨machine, #[]⟩).moment := by
  intro now
  subst given
  obtain ⟨ready, rfl, rfl⟩ := Layout.heapReady_of_finish closed
  have extended : ∀ n, machine.memory.Extends (now n) := fun n => dispatcher.extends_moments ready (Nat.zero_le n)
  refine ⟨fun n a readOnly => ?_, fun n => (extended n).access, fun page => ready.heap_is_blank,
    fun n address length reserved nonempty => ⟨?_, ?_⟩, fun n => ⟨(extended n).heapEnd, (extended n).top_le, ?_⟩,
    fun n m le => (dispatcher.extends_moments ready le).top_le, fun n a changed => ?_,
    dispatcher.exists_moment_of_steps machine, dispatcher.exists_moment_of_advances machine⟩
  · by_contra changed
    obtain ⟨k, -, writes, -⟩ := dispatcher.stored_of_changed ready changed
    rw [(extended k).readOnly ready readOnly] at writes
    cases writes
  · rw [Memory.isReadable, Option.isNone_eq_false_iff, Option.isSome_iff_ne_none]
    exact Memory.fault?_of_reserved _ .read reserved nonempty
  · rw [Memory.isWriteable, Option.isNone_eq_false_iff, Option.isSome_iff_ne_none]
    exact Memory.fault?_of_reserved _ .write reserved nonempty
  · rw [← (extended n).heapEnd]
    exact (extended n).ready.ordered
  · obtain ⟨k, earlier, -, stored⟩ := dispatcher.stored_of_changed ready changed
    exact ⟨k, earlier, stored⟩

/-- A page that can only be read, below a heap of sixteen pages. -/
def readBelowHeap : Layout := ⟨(∅ : PageTable).insert 32 (Page.zeroed .read)⟩

/-- A program that gains two pages for its heap and stores a byte in the first of them. -/
theorem memory_is_isolated_from_growing_program :
    let memory : Memory := ⟨readBelowHeap.pages, 0x30000, 0x40000⟩
    let program := #[51, 1, 7, 0x10, 0, 0, 101, 0x12, 59, 1, 0, 0, 3, 0, 0]
    let dispatcher : Dispatcher Unit := ⟨Registry.empty, 0⟩
    let started := (Machine.idle 1).reset program 0 100 none (some memory)
    let now := fun n => (dispatcher.moments started n).machine.memory
    readBelowHeap.finish 0x30000 0x40000 = .ok memory ∧ (now 3).top = 0x32000 ∧
      (memory.pageAccess 49 = .none ∧ (now 3).pageAccess 49 = .write) ∧
      (now 3).byteAt 0x20000 = memory.byteAt 0x20000 ∧
      ∃ k < 3, ∃ address bytes, (dispatcher.moments started k).Stores address bytes ∧
        address.toNat ≤ 0x30000 ∧ 0x30000 < address.toNat + bytes.length := by
  intro memory program dispatcher started now
  have closed : readBelowHeap.finish 0x30000 0x40000 = .ok memory := rfl
  have given : started.memory = memory := rfl
  have top : (now 3).top = 0x32000 := by decide
  have gained : 0x30000 ≤ 49 * pageSize ∧ 49 * pageSize < (now 3).top := by
    rw [top]
    decide
  have changed : (now 3).byteAt 0x30000 ≠ memory.byteAt 0x30000 := by decide +kernel
  obtain ⟨readOnly, access, heap, -, -, -, stored, -⟩ := memory_is_isolated dispatcher closed given
  have page := access 3 49
  rw [if_pos gained] at page
  exact ⟨closed, top, ⟨(heap 49 (by decide) (by decide)).1, page⟩, readOnly 3 0x20000 (by decide),
    stored 3 0x30000 changed⟩

end Dispatcher

end MeteredVm
