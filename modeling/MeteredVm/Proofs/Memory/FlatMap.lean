import MeteredVm.Proofs.Memory.Copying
import Mathlib.Data.Nat.Find

/-!
Paged memory seen as a flat map from addresses to bytes with their access. The main statement says that storing, loading
and asking are what they would be on that map, one byte at a time, whatever pages a range touches.
-/

set_option autoImplicit false
set_option relaxedAutoImplicit false

namespace MeteredVm

open AddressSpace

/-- What a flat memory holds at an address. -/
@[ext] structure Cell where
  access : Access
  byte : UInt8
deriving DecidableEq, Repr

/-- Whether a cell may be used in a way: a cell that can be written can be read too. -/
def Cell.Allows (cell : Cell) : Use → Prop
  | .read => cell.access = .read ∨ cell.access = .write
  | .write => cell.access = .write

/-- The flat map after bytes were written from an address on: these cells hold the bytes, and nothing else changes. -/
def Cell.written (cells : Nat → Cell) (address : Nat) (bytes : List UInt8) (a : Nat) : Cell :=
  if h : address ≤ a ∧ a < address + bytes.length then ⟨(cells a).access, bytes[a - address]⟩ else cells a

@[simp] private theorem Cell.written_nil (cells : Nat → Cell) (address : Nat) :
    Cell.written cells address [] = cells := by
  funext a
  rw [Cell.written, dif_neg]
  rw [List.length_nil]
  omega

def Cell.bytes (cells : Nat → Cell) (address length : Nat) : Array UInt8 :=
  Array.ofFn fun i : Fin length => (cells (address + i)).byte

namespace Memory

/-- The cell at an address. Where there is no page, and in the reserved region, nothing is accessible. -/
def flat (memory : Memory) (address : Nat) : Cell :=
  match memory.pages[address / pageSize]? with
  | none => ⟨.none, 0⟩
  | some page => ⟨if address < reservedBytes then .none else page.access, page.get address⟩

def Allows (memory : Memory) (use : Use) (address length : Nat) : Prop :=
  ∀ a, address ≤ a → a < address + length → (memory.flat a).Allows use

def FirstDenied (memory : Memory) (use : Use) (address length a : Nat) : Prop :=
  (address ≤ a ∧ a < address + length) ∧ ¬(memory.flat a).Allows use ∧
    ∀ b, address ≤ b → b < a → (memory.flat b).Allows use

/-- What the flat map makes of an attempt to use a range: it is refused because the range passes the end of the address
space, or else at its first byte that may not be used, or else it succeeds with a good result. -/
structure Answers {α : Type} (memory : Memory) (use : Use) (address length : Nat)
    (outcome : Except MemoryError α) (good : α → Prop) : Prop where
  outOfBounds : outcome = .error (.outOfBounds address length) ↔ 0 < length ∧ size < address + length
  pageFault : ∀ a, outcome = .error (.pageFault a) ↔
    address + length ≤ size ∧ memory.FirstDenied use address length a
  granted : length = 0 ∨ address + length ≤ size ∧ memory.Allows use address length →
    ∃ result, outcome = .ok result ∧ good result

/-- The memory that an attempt to store leaves behind. All checks come before the first write, so a refused attempt has
no memory of its own to leave: its result is the error alone, and what was there stays by the form of the result. -/
def leftByStore (memory : Memory) (address : UInt64) (bytes : List UInt8) : Memory :=
  match memory.store address bytes with
  | .ok after => after
  | .error _ => memory

/-- The buffer that an attempt to load leaves behind; a refused one has none of its own, as with stores. -/
def leftByLoad (memory : Memory) (buffer : Array UInt8) (address : UInt64) : Array UInt8 :=
  match memory.loadInto buffer address with
  | .ok filled => filled
  | .error _ => buffer

theorem flat_byte (memory : Memory) (a : Nat) : (memory.flat a).byte = memory.byteAt a := by
  unfold flat byteAt PageTable.byteAt pageOf
  cases memory.pages[a / pageSize]? <;> rfl

theorem flat_access (memory : Memory) (a : Nat) : (memory.flat a).access = memory.pageAccess (pageOf a) := by
  have reserved : a < reservedBytes ↔ a / pageSize < reservedPages := by
    unfold reservedBytes reservedPages pageSize
    omega
  unfold flat pageAccess pageOf
  cases memory.pages[a / pageSize]? with
  | none => simp
  | some page => simp only [reserved]

theorem flat_allows (memory : Memory) (use : Use) (a : Nat) :
    (memory.flat a).Allows use ↔ (memory.pageAccess (pageOf a)).grants use = true := by
  rw [← flat_access]
  cases use <;> cases h : (memory.flat a).access <;>
    simp [Cell.Allows, Access.grants, Access.canRead, Access.canWrite, h]

theorem mem_of_flat_allows {memory : Memory} {use : Use} {a : Nat} (h : (memory.flat a).Allows use) :
    pageOf a ∈ memory.pages := by
  rw [Std.ExtTreeMap.mem_iff_isSome_getElem?]
  unfold flat at h
  cases found : memory.pages[a / pageSize]? with
  | none => cases use <;> simp [found, Cell.Allows] at h
  | some page => simp [pageOf, found]

theorem firstDenied?_eq_find? (memory : Memory) (use : Use) (first count : Nat) :
    memory.firstDenied? use first count =
      (List.range' first count).find? fun page => !(memory.pageAccess page).grants use := by
  induction count generalizing first with
  | zero => rfl
  | succ count ih =>
    rw [firstDenied?, List.range'_succ, List.find?_cons, ih]
    cases (memory.pageAccess first).grants use <;> rfl

theorem firstDenied?_eq_some_iff (memory : Memory) (use : Use) (first count page : Nat) :
    memory.firstDenied? use first count = some page ↔
      (first ≤ page ∧ page < first + count) ∧ (memory.pageAccess page).grants use = false ∧
        ∀ earlier, first ≤ earlier → earlier < page → (memory.pageAccess earlier).grants use = true := by
  rw [firstDenied?_eq_find?, List.find?_range'_eq_some, List.mem_range'_1]
  simp only [Bool.not_eq_true', Bool.not_not]
  exact and_left_comm

private theorem exists_firstDenied {memory : Memory} {use : Use} {address length : Nat}
    (h : ¬memory.Allows use address length) : ∃ a, memory.FirstDenied use address length a := by
  classical
  have failing : ∃ a, (address ≤ a ∧ a < address + length) ∧ ¬(memory.flat a).Allows use := by
    by_contra nowhere
    refine h fun a low high => ?_
    by_contra denied
    exact nowhere ⟨a, ⟨low, high⟩, denied⟩
  obtain ⟨range, denied⟩ := Nat.find_spec failing
  refine ⟨Nat.find failing, range, denied, fun b low before => ?_⟩
  by_contra deniedBefore
  exact Nat.find_min failing before ⟨⟨low, by omega⟩, deniedBefore⟩

/-- The first byte that may not be used starts the first page that denies the use, or the range. -/
private theorem firstDenied_iff (memory : Memory) (use : Use) {start stop : Nat} (h : start < stop) (a : Nat) :
    memory.FirstDenied use start (stop - start) a ↔
      ∃ page, memory.firstDenied? use (pageOf start) (pageOf (stop - 1) + 1 - pageOf start) = some page ∧
        a = max (page * pageSize) start := by
  have total : start + (stop - start) = stop := by omega
  simp only [firstDenied?_eq_some_iff, FirstDenied, flat_allows, total]
  constructor
  · rintro ⟨⟨low, high⟩, denied, before⟩
    have page : pageOf start ≤ pageOf a ∧ pageOf a ≤ pageOf (stop - 1) := by
      unfold pageOf pageSize
      omega
    refine ⟨pageOf a, ⟨⟨page.1, by omega⟩, by simpa using denied, fun earlier from_ until_ => ?_⟩, ?_⟩
    · -- The earlier page is judged by its first byte that lies in the range.
      have inside : pageOf (max (earlier * pageSize) start) = earlier ∧ max (earlier * pageSize) start < a := by
        unfold pageOf pageSize at *
        omega
      have granted := before (max (earlier * pageSize) start) (Nat.le_max_right _ _) inside.2
      rwa [inside.1] at granted
    · have inside : pageOf (max (pageOf a * pageSize) start) = pageOf a ∧ max (pageOf a * pageSize) start ≤ a := by
        unfold pageOf pageSize at *
        omega
      rcases Nat.eq_or_lt_of_le inside.2 with same | earlier
      · exact same.symm
      · have granted := before _ (Nat.le_max_right _ _) earlier
        rw [inside.1] at granted
        exact absurd granted denied
  · rintro ⟨page, ⟨⟨low, high⟩, denied, before⟩, rfl⟩
    have inside : pageOf (max (page * pageSize) start) = page ∧ max (page * pageSize) start < stop := by
      unfold pageOf pageSize at *
      omega
    have refused : ¬(memory.pageAccess (pageOf (max (page * pageSize) start))).grants use = true := by
      rw [inside.1, denied]
      exact Bool.false_ne_true
    refine ⟨⟨Nat.le_max_right _ _, inside.2⟩, refused, fun b from_ until_ => ?_⟩
    apply before
    all_goals
      unfold pageOf pageSize at *
      omega

theorem checkBounds_of_fits {address length : UInt64} (h : 0 < length.toNat)
    (fits : address.toNat + length.toNat ≤ size) :
    ∃ start stop, checkBounds address length = .ok (start, stop) ∧ start.toNat = address.toNat ∧
      stop.toNat = address.toNat + length.toNat := by
  unfold size at fits
  have sum : (address + length).toNat = address.toNat + length.toNat := by
    rw [UInt64.toNat_add, Nat.mod_eq_of_lt (by omega)]
  have word : address.toNat + length.toNat < UInt64.size := by
    unfold UInt64.size
    omega
  refine ⟨address.toUInt32, address + length, ?_, ?_, sum⟩
  · rw [checkBounds, checkedAdd?, if_pos word]
    simp only [sum, size, fits, if_true]
  · rw [UInt64.toNat_toUInt32, Nat.mod_eq_of_lt (by omega)]

theorem checkBounds_of_passes {address length : UInt64} (passes : size < address.toNat + length.toNat) :
    checkBounds address length = .error (.outOfBounds address.toNat length.toNat) := by
  unfold checkBounds checkedAdd?
  split
  · rename_i stop found
    split_ifs at found with word
    have sum : stop.toNat = address.toNat + length.toNat := by
      rw [← Option.some.inj found, UInt64.toNat_add]
      exact Nat.mod_eq_of_lt word
    rw [if_neg (by omega)]
    rfl
  · rfl

theorem toNat_pos_of_ne_zero {length : UInt64} (nonempty : length ≠ 0) : 0 < length.toNat := by
  rw [Nat.pos_iff_ne_zero, ne_eq, ← UInt64.toNat_zero, UInt64.toNat_inj]
  exact nonempty

private theorem fault?_of_empty (memory : Memory) (use : Use) {address length : UInt64} (h : length.toNat = 0) :
    memory.fault? use address length = none := by
  have zero : length = 0 := UInt64.toNat_inj.mp h
  simp [fault?, zero]

theorem fault?_of_passes (memory : Memory) (use : Use) {address length : UInt64} (h : 0 < length.toNat)
    (passes : size < address.toNat + length.toNat) :
    memory.fault? use address length = some (.outOfBounds address.toNat length.toNat) := by
  have nonempty : length ≠ 0 := by
    rintro rfl
    exact Nat.lt_irrefl 0 h
  rw [fault?, if_neg nonempty, checkBounds_of_passes passes]

private theorem fault?_of_fits (memory : Memory) (use : Use) {address length : UInt64} (h : 0 < length.toNat)
    (fits : address.toNat + length.toNat ≤ size) (error : MemoryError) :
    memory.fault? use address length = some error ↔
      ∃ a, error = .pageFault a ∧ memory.FirstDenied use address.toNat length.toNat a := by
  obtain ⟨start, stop, checked, startEq, stopEq⟩ := checkBounds_of_fits h fits
  have nonempty : length ≠ 0 := by
    rintro rfl
    exact Nat.lt_irrefl 0 h
  have scan := memory.firstDenied_iff use (show address.toNat < address.toNat + length.toNat by omega)
  rw [Nat.add_sub_cancel_left] at scan
  simp only [fault?, nonempty, if_false, checked, accessFault?, startEq, stopEq, Option.map_eq_some_iff, scan]
  constructor
  · rintro ⟨page, found, rfl⟩
    exact ⟨_, rfl, page, found, rfl⟩
  · rintro ⟨a, rfl, page, found, rfl⟩
    exact ⟨page, found, rfl⟩

private theorem fault?_eq_outOfBounds_iff (memory : Memory) (use : Use) (address length : UInt64) :
    memory.fault? use address length = some (.outOfBounds address.toNat length.toNat) ↔
      0 < length.toNat ∧ size < address.toNat + length.toNat := by
  rcases Nat.eq_zero_or_pos length.toNat with empty | nonempty
  · simp [fault?_of_empty memory use empty, empty]
  · rcases Nat.lt_or_ge size (address.toNat + length.toNat) with passes | fits
    · simp [fault?_of_passes memory use nonempty passes, nonempty, passes]
    · simp [fault?_of_fits memory use nonempty fits, Nat.not_lt.mpr fits]

private theorem fault?_eq_pageFault_iff (memory : Memory) (use : Use) (address length : UInt64) (a : Nat) :
    memory.fault? use address length = some (.pageFault a) ↔
      address.toNat + length.toNat ≤ size ∧ memory.FirstDenied use address.toNat length.toNat a := by
  rcases Nat.eq_zero_or_pos length.toNat with empty | nonempty
  · have nowhere : ¬memory.FirstDenied use address.toNat length.toNat a := by
      rintro ⟨⟨low, high⟩, -⟩
      omega
    simp [fault?_of_empty memory use empty, nowhere]
  · rcases Nat.lt_or_ge size (address.toNat + length.toNat) with passes | fits
    · simp [fault?_of_passes memory use nonempty passes, Nat.not_le.mpr passes]
    · simp [fault?_of_fits memory use nonempty fits, fits]

/-- Exactly the ranges without bytes, and those that fit and may be used throughout, are found faultless. -/
theorem fault?_eq_none_iff (memory : Memory) (use : Use) (address length : UInt64) :
    memory.fault? use address length = none ↔
      length.toNat = 0 ∨ address.toNat + length.toNat ≤ size ∧ memory.Allows use address.toNat length.toNat := by
  rcases Nat.eq_zero_or_pos length.toNat with empty | nonempty
  · simp [fault?_of_empty memory use empty, empty]
  · have notEmpty : length.toNat ≠ 0 := by omega
    rcases Nat.lt_or_ge size (address.toNat + length.toNat) with passes | fits
    · simp [fault?_of_passes memory use nonempty passes, notEmpty, Nat.not_le.mpr passes]
    · simp only [Option.eq_none_iff_forall_ne_some, ne_eq, fault?_of_fits memory use nonempty fits, notEmpty, fits,
        true_and, false_or]
      constructor
      · intro faultless
        by_contra denied
        obtain ⟨a, first⟩ := exists_firstDenied denied
        exact faultless _ ⟨a, rfl, first⟩
      · rintro allowed error ⟨a, -, ⟨low, high⟩, denied, -⟩
        exact denied (allowed a low high)

/-- An operation that is refused for the faults of its range and for nothing else answers as the flat map does. -/
private theorem answers_of_fault? {α : Type} {memory : Memory} {use : Use} {address length : UInt64}
    {outcome : Except MemoryError α} {good : α → Prop}
    (refused : ∀ error, outcome = .error error ↔ memory.fault? use address length = some error)
    (served : memory.fault? use address length = none → ∃ result, outcome = .ok result ∧ good result) :
    memory.Answers use address.toNat length.toNat outcome good where
  outOfBounds := (refused _).trans (memory.fault?_eq_outOfBounds_iff use address length)
  pageFault a := (refused _).trans (memory.fault?_eq_pageFault_iff use address length a)
  granted h := served ((memory.fault?_eq_none_iff use address length).mpr h)

theorem store_eq_error_iff (memory : Memory) (address : UInt64) (bytes : List UInt8) (error : MemoryError) :
    memory.store address bytes = .error error ↔
      memory.fault? .write address (UInt64.ofNat bytes.length) = some error := by
  unfold store
  cases memory.fault? .write address (UInt64.ofNat bytes.length) <;> simp

theorem loadInto_eq_error_iff (memory : Memory) (buffer : Array UInt8) (address : UInt64) (error : MemoryError) :
    memory.loadInto buffer address = .error error ↔
      memory.fault? .read address (UInt64.ofNat buffer.size) = some error := by
  unfold loadInto
  cases memory.fault? .read address (UInt64.ofNat buffer.size) <;> simp

theorem pageAccess_eq (memory : Memory) (page : Nat) :
    memory.pageAccess page =
      if page < reservedPages then .none else (memory.pages[page]?.map Page.access).getD .none := by
  unfold pageAccess
  cases memory.pages[page]? <;> rfl

theorem pageAccess_of_store {memory after : Memory} {address : UInt64} {bytes : List UInt8}
    (stored : memory.store address bytes = .ok after) (page : Nat) :
    after.pageAccess page = memory.pageAccess page := by
  unfold store at stored
  split at stored
  · cases stored
  · rw [← Except.ok.inj stored, pageAccess_eq, pageAccess_eq, PageTable.access_write]

theorem fault?_congr {memory other : Memory} (same : ∀ page, memory.pageAccess page = other.pageAccess page) :
    memory.fault? = other.fault? := by
  funext use address length
  unfold fault? accessFault?
  simp only [firstDenied?_eq_find?, same]

private theorem flat_write (memory : Memory) {address : Nat} {bytes : List UInt8}
    (allowed : memory.Allows .write address bytes.length) :
    { memory with pages := memory.pages.write address bytes.toArray }.flat =
      Cell.written memory.flat address bytes := by
  funext a
  have access : ({ memory with pages := memory.pages.write address bytes.toArray }.flat a).access =
      (memory.flat a).access := by
    rw [flat_access, flat_access, pageAccess_eq, pageAccess_eq, PageTable.access_write]
  have byte := PageTable.byteAt_write memory.pages address a bytes.toArray
  apply Cell.ext
  · rw [access, Cell.written]
    split <;> rfl
  · rw [flat_byte, byteAt, byte, Cell.written]
    split
    · rename_i covered
      rw [dif_pos (by simpa using covered.2)]
      have inside : a - address < bytes.length := by
        have := covered.2.2
        rw [List.size_toArray] at this
        omega
      simp [inside]
    · rename_i missed
      rw [dif_neg, ← byteAt, flat_byte]
      rintro ⟨low, high⟩
      exact missed ⟨mem_of_flat_allows (allowed a low high), low, by simpa using high⟩

theorem toNat_toUInt32_of_fits {address : UInt64} {length : Nat} (h : 0 < length)
    (fits : address.toNat + length ≤ size) : address.toUInt32.toNat = address.toNat := by
  unfold size at fits
  rw [UInt64.toNat_toUInt32, Nat.mod_eq_of_lt (by omega)]

theorem store_nil (memory : Memory) (address : UInt64) : memory.store address [] = .ok memory := by
  have faultless : memory.fault? .write address (UInt64.ofNat ([] : List UInt8).length) = none :=
    fault?_of_empty memory .write rfl
  rw [store, faultless]
  simp [PageTable.write]

theorem loadInto_empty (memory : Memory) (address : UInt64) : memory.loadInto #[] address = .ok #[] := by
  have faultless : memory.fault? .read address (UInt64.ofNat (#[] : Array UInt8).size) = none :=
    fault?_of_empty memory .read rfl
  rw [loadInto, faultless]
  simp [PageTable.read]

theorem flat_store {memory : Memory} {address : UInt64} {bytes : List UInt8} (bounded : bytes.length < UInt64.size)
    (faultless : memory.fault? .write address (UInt64.ofNat bytes.length) = none) :
    ∃ after, memory.store address bytes = .ok after ∧
      after.flat = Cell.written memory.flat address.toNat bytes ∧ after.top = memory.top ∧
      after.heapEnd = memory.heapEnd := by
  rcases Nat.eq_zero_or_pos bytes.length with empty | nonempty
  · obtain rfl := List.eq_nil_of_length_eq_zero empty
    exact ⟨memory, memory.store_nil address, (Cell.written_nil _ _).symm, rfl, rfl⟩
  · have granted := (memory.fault?_eq_none_iff .write address _).mp faultless
    rw [UInt64.toNat_ofNat_of_lt' bounded] at granted
    obtain ⟨fits, allowed⟩ := granted.resolve_left (by omega)
    refine ⟨{ memory with pages := memory.pages.write address.toNat bytes.toArray }, ?_, flat_write memory allowed, rfl,
      rfl⟩
    rw [store, faultless, toNat_toUInt32_of_fits nonempty fits]

private theorem loadInto_flat {memory : Memory} {buffer : Array UInt8} {address : UInt64}
    (bounded : buffer.size < UInt64.size) (faultless : memory.fault? .read address (UInt64.ofNat buffer.size) = none) :
    memory.loadInto buffer address = .ok (Cell.bytes memory.flat address.toNat buffer.size) := by
  rcases Nat.eq_zero_or_pos buffer.size with empty | nonempty
  · obtain rfl := Array.eq_empty_of_size_eq_zero empty
    rw [loadInto_empty]
    simp [Cell.bytes]
  · have granted := (memory.fault?_eq_none_iff .read address _).mp faultless
    rw [UInt64.toNat_ofNat_of_lt' bounded] at granted
    obtain ⟨fits, allowed⟩ := granted.resolve_left (by omega)
    rw [loadInto, faultless, toNat_toUInt32_of_fits nonempty fits]
    refine congrArg Except.ok (Array.ext_getElem? fun i => ?_)
    rw [PageTable.getElem?_read, Cell.bytes]
    by_cases inside : i < buffer.size
    · have mapped : pageOf (address.toNat + i) ∈ memory.pages :=
        mem_of_flat_allows (allowed _ (by omega) (by omega))
      simp [inside, mapped, flat_byte, byteAt]
    · simp [inside]

theorem load_eq_loadInto (memory : Memory) (address length : UInt64) :
    memory.load address length = memory.loadInto (Array.replicate length.toNat 0) address := by
  have same : UInt64.ofNat (Array.replicate length.toNat (0 : UInt8)).size = length := by
    rw [Array.size_replicate, UInt64.ofNat_toNat]
  unfold load
  cases faulty : memory.fault? .read address length with
  | none => rfl
  | some error => rw [loadInto, same, faulty]

theorem load_flat {memory : Memory} {address length : UInt64} (faultless : memory.fault? .read address length = none) :
    memory.load address length = .ok (Cell.bytes memory.flat address.toNat length.toNat) := by
  have filled := @loadInto_flat memory (Array.replicate length.toNat 0) address
  rw [Array.size_replicate, UInt64.ofNat_toNat] at filled
  rw [load_eq_loadInto]
  exact filled length.toNat_lt faultless

theorem load_eq_error_iff (memory : Memory) (address length : UInt64) (error : MemoryError) :
    memory.load address length = .error error ↔ memory.fault? .read address length = some error := by
  rw [load_eq_loadInto, loadInto_eq_error_iff, Array.size_replicate, UInt64.ofNat_toNat]

private theorem fault?_isNone_iff {α : Type} {memory : Memory} {use : Use} {address length : UInt64}
    {outcome : Except MemoryError α}
    (refused : ∀ error, outcome = .error error ↔ memory.fault? use address length = some error) :
    (memory.fault? use address length).isNone = true ↔ ∃ result, outcome = .ok result := by
  rw [Option.isNone_iff_eq_none, Option.eq_none_iff_forall_ne_some]
  cases outcome with
  | ok result => simpa using fun error => (not_congr (refused error)).mp (by simp)
  | error error => simpa using ⟨error, (refused error).mp rfl⟩

/-- Storing, loading and asking are on paged memory what they are on its flat map. For every memory and every 64-bit
address: stores and loads of any length are refused, or succeed, as `Answers` says; a store that succeeds writes exactly
its bytes, and a load finds exactly the bytes of its range; a refused attempt leaves the memory and the buffer alone,
since it only gives an error back; an access without bytes does nothing; and the two questions are answered by whether
the access would succeed. -/
theorem paged_memory_refines_flat_map (memory : Memory) (address : UInt64) :
    (∀ bytes : List UInt8, bytes.length < UInt64.size →
      memory.Answers .write address.toNat bytes.length (memory.store address bytes) fun after =>
        after.flat = Cell.written memory.flat address.toNat bytes ∧ after.top = memory.top ∧
          after.heapEnd = memory.heapEnd) ∧
    (∀ buffer : Array UInt8, buffer.size < UInt64.size →
      memory.Answers .read address.toNat buffer.size (memory.loadInto buffer address) fun filled =>
        filled = Cell.bytes memory.flat address.toNat buffer.size) ∧
    (∀ length : UInt64,
      memory.Answers .read address.toNat length.toNat (memory.load address length) fun loaded =>
        loaded = Cell.bytes memory.flat address.toNat length.toNat) ∧
    (∀ bytes error, memory.store address bytes = .error error → memory.leftByStore address bytes = memory) ∧
    (∀ buffer error, memory.loadInto buffer address = .error error → memory.leftByLoad buffer address = buffer) ∧
    (memory.store address [] = .ok memory ∧ memory.loadInto #[] address = .ok #[] ∧
      memory.load address 0 = .ok #[]) ∧
    ∀ length : UInt64,
      (∀ buffer : Array UInt8, buffer.size = length.toNat →
        (memory.isReadable address length = true ↔ ∃ filled, memory.loadInto buffer address = .ok filled)) ∧
      ∀ bytes : List UInt8, bytes.length = length.toNat →
        (memory.isWriteable address length = true ↔ ∃ after, memory.store address bytes = .ok after) := by
  have loads : ∀ buffer : Array UInt8, buffer.size < UInt64.size →
      memory.Answers .read address.toNat buffer.size (memory.loadInto buffer address) fun filled =>
        filled = Cell.bytes memory.flat address.toNat buffer.size := by
    intro buffer bounded
    have filled : memory.fault? .read address (UInt64.ofNat buffer.size) = none →
        ∃ filled, memory.loadInto buffer address = .ok filled ∧
          filled = Cell.bytes memory.flat address.toNat buffer.size :=
      fun faultless => ⟨_, loadInto_flat bounded faultless, rfl⟩
    have answers := answers_of_fault? (memory.loadInto_eq_error_iff buffer address) filled
    rwa [UInt64.toNat_ofNat_of_lt' bounded] at answers
  refine ⟨fun bytes bounded => ?_, loads, fun length => ?_, fun bytes error refused => ?_,
    fun buffer error refused => ?_, ⟨memory.store_nil address, memory.loadInto_empty address, ?_⟩, fun length =>
    ⟨fun buffer count => ?_, fun bytes count => ?_⟩⟩
  · have answers := answers_of_fault? (memory.store_eq_error_iff address bytes) (flat_store bounded)
    rwa [UInt64.toNat_ofNat_of_lt' bounded] at answers
  · have answers := loads (Array.replicate length.toNat 0) (by simpa using length.toNat_lt)
    rwa [Array.size_replicate, ← load_eq_loadInto] at answers
  · rw [leftByStore, refused]
  · rw [leftByLoad, refused]
  · rw [load_eq_loadInto]
    exact memory.loadInto_empty address
  · have same : UInt64.ofNat buffer.size = length := by rw [count, UInt64.ofNat_toNat]
    exact fault?_isNone_iff (same ▸ memory.loadInto_eq_error_iff buffer address)
  · have same : UInt64.ofNat bytes.length = length := by rw [count, UInt64.ofNat_toNat]
    exact fault?_isNone_iff (same ▸ memory.store_eq_error_iff address bytes)

/-- A memory with a page that can be written, followed by one that can only be read. -/
def writtenThenRead : Memory where
  pages := ((∅ : PageTable).insert 17 (Page.zeroed .read)).insert 16 (Page.zeroed .write)
  top := 0
  heapEnd := 0

/-- Two bytes at the end of the first of those pages are refused at the first byte of the second. -/
theorem paged_memory_refines_flat_map_across_pages :
    [1, 2].length < UInt64.size ∧ writtenThenRead.store 0x10FFF [1, 2] = .error (.pageFault 0x11000) := by
  have short : [(1 : UInt8), 2].length < UInt64.size := by decide
  have writes : writtenThenRead.pages[16]? = some (Page.zeroed .write) := by
    simp [writtenThenRead]
  have reads : writtenThenRead.pages[17]? = some (Page.zeroed .read) := by
    simp [writtenThenRead, Std.ExtTreeMap.getElem_insert]
  refine ⟨short, (((paged_memory_refines_flat_map writtenThenRead 0x10FFF).1 [1, 2] short).pageFault 0x11000).mpr ?_⟩
  refine ⟨by decide, ⟨by decide, by decide⟩, ?_, fun b low high => ?_⟩
  · simp [flat, Cell.Allows, Page.zeroed, reservedBytes, pageSize, reads]
  · obtain rfl : b = 0x10FFF := by
      have : 0x10FFF ≤ b := low
      omega
    simp [flat, Cell.Allows, Page.zeroed, reservedBytes, pageSize, writes]

end Memory

end MeteredVm
