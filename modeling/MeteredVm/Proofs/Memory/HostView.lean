import MeteredVm.Proofs.Memory.Representation

/-!
Memory as host calls see it. Their view has a check of its own for the range of an access, made before that of memory,
and its own way with ranges that have no bytes. The main statement is that this makes no difference: through the view
every access and every question is answered as memory answers it, and leaves the same memory behind.
-/

set_option autoImplicit false
set_option relaxedAutoImplicit false

namespace MeteredVm.Memory

open AddressSpace

namespace Host

variable {memory : Memory} {address length : UInt64}

private theorem rangeEnd?_isSome_iff :
    (rangeEnd? address length).isSome = true ↔ address.toNat + length.toNat ≤ size := by
  have wide := address.toNat_lt
  have wide' := length.toNat_lt
  unfold rangeEnd? size
  simp only [UInt64.lt_iff_toNat_lt, UInt64.toNat_add]
  -- the sum wraps exactly if it comes out below the address
  split
  · exact iff_of_false nofun (by omega)
  · split
    · exact iff_of_false nofun (by omega)
    · exact iff_of_true rfl (by omega)

private theorem checkRange_of_fits (fits : address.toNat + length.toNat ≤ size) :
    checkRange address length = .ok () := by
  obtain ⟨stop, found⟩ := Option.isSome_iff_exists.mp (rangeEnd?_isSome_iff.mpr fits)
  rw [checkRange, found]

private theorem checkRange_of_passes (passes : size < address.toNat + length.toNat) :
    checkRange address length = .error (.outOfBounds address.toNat length.toNat) := by
  have nowhere : rangeEnd? address length = none := by
    rw [← Option.not_isSome_iff_eq_none, rangeEnd?_isSome_iff]
    omega
  rw [checkRange, nowhere]

private theorem checkRange_bind {α : Type} {use : Use} {outcome : Except MemoryError α} (nonempty : length ≠ 0)
    (refused : ∀ error, memory.fault? use address length = some error → outcome = .error error) :
    (checkRange address length >>= fun _ => outcome) = outcome := by
  rcases Nat.lt_or_ge size (address.toNat + length.toNat) with passes | fits
  · have fault := memory.fault?_of_passes use (toNat_pos_of_ne_zero nonempty) passes
    rw [checkRange_of_passes passes, refused _ fault]
    rfl
  · rw [checkRange_of_fits fits]
    rfl

private theorem store_eq {bytes : List UInt8} (counted : bytes.length < UInt64.size) :
    store memory address bytes = memory.store address bytes := by
  cases bytes with
  | nil => exact (memory.store_nil address).symm
  | cons byte rest =>
    have nonempty : UInt64.ofNat (byte :: rest).length ≠ 0 := by
      intro nothing
      have count := UInt64.toNat_ofNat_of_lt' counted
      rw [nothing] at count
      cases count
    exact checkRange_bind nonempty fun error => (memory.store_eq_error_iff address _ error).mpr

private theorem loadInto_eq {buffer : Array UInt8} (counted : buffer.size < UInt64.size) :
    loadInto memory buffer address = memory.loadInto buffer address := by
  by_cases empty : buffer.isEmpty = true
  · obtain rfl := Array.isEmpty_iff.mp empty
    exact (memory.loadInto_empty address).symm
  · have nonempty : UInt64.ofNat buffer.size ≠ 0 := by
      intro nothing
      have count := UInt64.toNat_ofNat_of_lt' counted
      rw [nothing] at count
      exact empty (Array.isEmpty_iff_size_eq_zero.mpr count.symm)
    rw [loadInto, if_neg empty]
    exact checkRange_bind nonempty fun error => (memory.loadInto_eq_error_iff buffer address error).mpr

theorem load_eq : load memory address length = memory.load address length := by
  by_cases nothing : length = 0
  · subst nothing
    rw [Memory.load_eq_loadInto]
    exact (memory.loadInto_empty address).symm
  · rw [load, if_neg nothing]
    exact checkRange_bind nothing fun error => (memory.load_eq_error_iff address length error).mpr

private theorem load_eq_loadInto :
    load memory address length = loadInto memory (Array.replicate length.toNat 0) address := by
  have counted : (Array.replicate length.toNat (0 : UInt8)).size < UInt64.size := by
    rw [Array.size_replicate]
    exact length.toNat_lt
  rw [load_eq, loadInto_eq counted, Memory.load_eq_loadInto]

private theorem usable_eq (use : Use) :
    (length == 0 || (rangeEnd? address length).isSome && (memory.fault? use address length).isNone) =
      (memory.fault? use address length).isNone := by
  rw [Bool.eq_iff_iff, Bool.or_eq_true, Bool.and_eq_true, beq_iff_eq, rangeEnd?_isSome_iff, Option.isNone_iff_eq_none,
    fault?_eq_none_iff, ← UInt64.toNat_inj, UInt64.toNat_zero]
  tauto

theorem isReadable_eq : isReadable memory address length = memory.isReadable address length := usable_eq .read

private theorem isWriteable_eq :
    isWriteable memory address length = memory.isWriteable address length := usable_eq .write

end Host

/-- The operation on memory itself that does what an operation through the view is to do. -/
def Operation.direct : Operation → Operation
  | .hostStore address bytes => .store address bytes
  | .hostLoad address length => .load (Array.replicate length.toNat 0) address
  | operation => operation

private theorem perform_direct (memory : Memory) {operation : Operation}
    (counted : ∀ address bytes, operation = .hostStore address bytes → bytes.length < UInt64.size) :
    memory.perform operation.direct = memory.perform operation := by
  unfold perform
  congr 1
  cases operation with
  | hostStore address bytes =>
    simp only [Operation.direct, attempt]
    rw [Host.store_eq (counted address bytes rfl)]
  | hostLoad address length =>
    simp only [Operation.direct, attempt]
    rw [Host.load_eq, load_eq_loadInto]
  | store address bytes => rfl
  | load buffer address => rfl
  | grow length => rfl
  | reset => rfl

private theorem performAll_direct (memory : Memory) {operations : List Operation}
    (counted : ∀ address bytes, .hostStore address bytes ∈ operations → bytes.length < UInt64.size) :
    (operations.map Operation.direct).foldl perform memory = operations.foldl perform memory := by
  induction operations generalizing memory with
  | nil => rfl
  | cons operation rest ih =>
    have first : memory.perform operation.direct = memory.perform operation := by
      refine memory.perform_direct fun address bytes is => ?_
      exact counted address bytes (is ▸ List.mem_cons_self)
    rw [List.map_cons, List.foldl_cons, List.foldl_cons, first]
    exact ih _ fun address bytes later => counted address bytes (List.mem_cons_of_mem _ later)

/-- The view of host calls agrees with memory. For every memory and every 64-bit address: a store of any bytes, a load
into any buffer or of any length, and both questions are answered through the view as memory answers them, errors and
their fields included; a range that has bytes and passes the end of the address space is refused, even if its end wraps
around to a low address; a range without bytes is accepted anywhere; and any history of operations leaves the memory
that it would leave if none of them had gone through the view. -/
theorem host_view_agrees_with_memory (memory : Memory) (address : UInt64) :
    (∀ bytes : List UInt8, bytes.length < UInt64.size →
      Host.store memory address bytes = memory.store address bytes) ∧
    (∀ buffer : Array UInt8, buffer.size < UInt64.size →
      Host.loadInto memory buffer address = memory.loadInto buffer address) ∧
    (∀ length : UInt64,
      Host.load memory address length = memory.load address length ∧
      Host.load memory address length = Host.loadInto memory (Array.replicate length.toNat 0) address ∧
      Host.isReadable memory address length = memory.isReadable address length ∧
      Host.isWriteable memory address length = memory.isWriteable address length) ∧
    (∀ length : UInt64, length ≠ 0 → size < address.toNat + length.toNat →
      (∀ bytes : List UInt8, bytes.length = length.toNat →
        Host.store memory address bytes = .error (.outOfBounds address.toNat length.toNat)) ∧
      (∀ buffer : Array UInt8, buffer.size = length.toNat →
        Host.loadInto memory buffer address = .error (.outOfBounds address.toNat length.toNat)) ∧
      Host.load memory address length = .error (.outOfBounds address.toNat length.toNat) ∧
      Host.isReadable memory address length = false ∧ Host.isWriteable memory address length = false) ∧
    (Host.store memory address [] = .ok memory ∧ Host.loadInto memory #[] address = .ok #[] ∧
      Host.load memory address 0 = .ok #[] ∧ Host.isReadable memory address 0 = true ∧
      Host.isWriteable memory address 0 = true) ∧
    ∀ operations : List Operation,
      (∀ address bytes, .hostStore address bytes ∈ operations → bytes.length < UInt64.size) →
        (operations.map Operation.direct).foldl perform memory = operations.foldl perform memory := by
  refine ⟨fun bytes counted => Host.store_eq counted, fun buffer counted => Host.loadInto_eq counted,
    fun length => ⟨Host.load_eq, Host.load_eq_loadInto, Host.isReadable_eq, Host.isWriteable_eq⟩,
    fun length nonempty passes => ?_, ⟨rfl, rfl, rfl, rfl, rfl⟩, fun operations => memory.performAll_direct⟩
  have fault : ∀ use, memory.fault? use address length = some (.outOfBounds address.toNat length.toNat) :=
    fun use => memory.fault?_of_passes use (toNat_pos_of_ne_zero nonempty) passes
  refine ⟨fun bytes count => ?_, fun buffer count => ?_, ?_, ?_, ?_⟩
  · have same : UInt64.ofNat bytes.length = length := by rw [count, UInt64.ofNat_toNat]
    rw [Host.store_eq (count ▸ length.toNat_lt), store_eq_error_iff, same]
    exact fault .write
  · have same : UInt64.ofNat buffer.size = length := by rw [count, UInt64.ofNat_toNat]
    rw [Host.loadInto_eq (count ▸ length.toNat_lt), loadInto_eq_error_iff, same]
    exact fault .read
  · rw [Host.load_eq, load_eq_error_iff]
    exact fault .read
  · rw [Host.isReadable_eq, isReadable, fault .read]
    rfl
  · rw [Host.isWriteable_eq, isWriteable, fault .write]
    rfl

/-- A page that can be written, followed by one that can only be read. A store across their border is refused for the
second page, one across the end of the 64-bit range is refused for its range, although its end wraps around to an
address that could be written, and no bytes can be written anywhere. -/
theorem host_view_agrees_with_memory_beyond_address_space :
    [1, 2].length < UInt64.size ∧
      Host.store writtenThenRead 0x10FFF [1, 2] = .error (.pageFault 0x11000) ∧
      ((0x10800 : UInt64) ≠ 0 ∧ size < (0xFFFFFFFFFFFFFFFF : UInt64).toNat + (0x10800 : UInt64).toNat) ∧
      Host.load writtenThenRead 0xFFFFFFFFFFFFFFFF 0x10800 = .error (.outOfBounds 0xFFFFFFFFFFFFFFFF 0x10800) ∧
      Host.isWriteable writtenThenRead 0xFFFFFFFFFFFFFFFF 0x10800 = false ∧
      Host.store writtenThenRead 0xFFFFFFFFFFFFFFFF [] = .ok writtenThenRead := by
  have short : [(1 : UInt8), 2].length < UInt64.size := by decide
  have wild : (0x10800 : UInt64) ≠ 0 ∧ size < (0xFFFFFFFFFFFFFFFF : UInt64).toNat + (0x10800 : UInt64).toNat := by
    decide
  have across : writtenThenRead.fault? .write 0x10FFF 2 = some (.pageFault 0x11000) := by decide +kernel
  obtain ⟨store, -⟩ := host_view_agrees_with_memory writtenThenRead 0x10FFF
  obtain ⟨-, -, -, passes, empty, -⟩ := host_view_agrees_with_memory writtenThenRead 0xFFFFFFFFFFFFFFFF
  obtain ⟨-, -, load, -, isWriteable⟩ := passes 0x10800 wild.1 wild.2
  refine ⟨short, ?_, wild, load, isWriteable, empty.1⟩
  rw [store _ short, store_eq_error_iff]
  exact across

end MeteredVm.Memory
