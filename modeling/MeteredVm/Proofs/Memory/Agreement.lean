import MeteredVm.Proofs.Memory.Staging

/-!
Bytes get into pages in three ways: as the contents of a range that is staged, as data written into staged pages, and
by a store into the memory that a layout is closed to. Each copies in rounds of its own and checks the range in its own
way. The main statement is that it makes no difference which of them is taken.
-/

set_option autoImplicit false
set_option relaxedAutoImplicit false

namespace MeteredVm

open AddressSpace

/-- The error of a layout that cannot take data at an address, where a memory refuses to store it there. -/
def LayoutError.ofRefusal (address : Nat) : MemoryError → LayoutError
  | .outOfBounds _ _ => .unconfiguredData address
  | .pageFault x => .unconfiguredData x

namespace Layout

private theorem firstUnstaged?_eq_none {layout : Layout} {first count : Nat}
    (staged : ∀ page, first ≤ page → page < first + count → page ∈ layout.pages) :
    layout.firstUnstaged? first count = none := by
  rw [firstUnstaged?_eq_find?, List.find?_range'_eq_none]
  intro page low high
  rw [Bool.not_not]
  exact staged page low high

private theorem stage_then_setData {layout after : Layout} {use : Use} {start stop : Nat} {contents : Array UInt8}
    (staged : layout.stage use start stop contents = .ok after) :
    ∃ blank, layout.stage use start stop #[] = .ok blank ∧ blank.setData start contents.toList = .ok after := by
  obtain ⟨range, aligned, unreserved, fits, free, rfl⟩ := stage_eq_ok_iff.mp staged
  refine ⟨_, stage_eq_ok_iff.mpr ⟨range, aligned, unreserved, Nat.zero_le _, free, rfl⟩, ?_⟩
  by_cases nothing : contents.toList = []
  · obtain rfl := Array.toList_eq_nil_iff.mp nothing
    rfl
  have pos : 0 < contents.size := by
    rw [← Array.length_toList]
    exact List.length_pos_iff.mpr nothing
  have within : start + contents.toList.length ≤ size := by
    rw [Array.length_toList]
    omega
  rw [setData_of_fits _ nothing within, firstUnstaged?_eq_none]
  · refine congrArg (fun pages => Except.ok (Layout.mk pages)) (PageTable.ext_cell? fun a => ?_)
    rw [cell?_writeData, cell?_insertPages _ _ _ aligned, cell?_insertPages _ _ _ aligned]
    by_cases inside : start ≤ a ∧ a < stop
    · rw [if_pos inside, if_pos inside, Option.map_some, Cell.rewritten, if_pos inside.1,
        Array.getD_eq_getD_getElem?, Array.getD_eq_getD_getElem?, List.getD_eq_getElem?_getD, Array.getElem?_toList]
      rfl
    · have missed : ¬(start ≤ a ∧ a < start + contents.toList.length) := by
        rw [Array.length_toList]
        omega
      rw [if_neg inside, if_neg inside]
      cases layout.pages.cell? a with
      | none => rfl
      | some cell => rw [Option.map_some, Cell.rewritten_of_outside missed]
  · intro page low high
    rw [Array.length_toList] at high
    have inside : pageOf start ≤ page ∧ page < pageOf start + (pageOf stop - pageOf start) := by
      unfold pageOf pageSize at *
      omega
    rw [Std.ExtTreeMap.mem_iff_isSome_getElem?, getElem?_insertPages, if_pos inside]
    rfl

private theorem write_eq_writeData (pages : PageTable) (address : Nat) (data : List UInt8) :
    pages.write address data.toArray = writeData pages address data := by
  apply PageTable.ext_cell?
  intro a
  rw [PageTable.cell?_write, cell?_writeData]

private theorem heapFault?_congr {one two : Layout} (same : ∀ page, one.pages.contains page = two.pages.contains page) :
    one.heapFault? = two.heapFault? := by
  funext start stop
  unfold heapFault?
  simp only [firstStaged?_eq_find?, same]

private theorem contains_writeData (pages : PageTable) (address : Nat) (data : List UInt8) (page : Nat) :
    (writeData pages address data).contains page = pages.contains page := by
  rw [← Std.ExtTreeMap.isSome_getElem?_eq_contains, ← Std.ExtTreeMap.isSome_getElem?_eq_contains,
    ← Option.isSome_map, access_writeData, Option.isSome_map]

private theorem firstDenied?_eq_firstUnstaged? {layout : Layout} {memory : Memory} (same : memory.pages = layout.pages)
    (proper : layout.pages.Proper)
    (writable : ∀ (n : Nat) (page : Page), layout.pages[n]? = some page → page.access = .write) (first count : Nat) :
    memory.firstDenied? .write first count = layout.firstUnstaged? first count := by
  have grants : ∀ page, (memory.pageAccess page).grants .write = layout.pages.contains page := by
    intro page
    rw [Memory.pageAccess_eq, same, ← Std.ExtTreeMap.isSome_getElem?_eq_contains]
    cases found : layout.pages[page]? with
    | none => split <;> rfl
    | some backed =>
      have above := (proper page backed found).1.1
      rw [if_neg (Nat.not_lt.mpr above), Option.map_some, writable page backed found]
      rfl
  rw [Memory.firstDenied?_eq_find?, firstUnstaged?_eq_find?]
  simp only [grants]

end Layout

private theorem Memory.store_of_fits (memory : Memory) {address : UInt64} {bytes : List UInt8} (nonempty : bytes ≠ [])
    (fits : address.toNat + bytes.length ≤ size) :
    memory.store address bytes =
      match memory.firstDenied? .write (pageOf address.toNat)
        (pageOf (address.toNat + bytes.length - 1) + 1 - pageOf address.toNat) with
      | some page => .error (.pageFault (max (page * pageSize) address.toNat))
      | none => .ok { memory with pages := memory.pages.write address.toNat bytes.toArray } := by
  have pos : 0 < bytes.length := List.length_pos_iff.mpr nonempty
  have counted : (UInt64.ofNat bytes.length).toNat = bytes.length := by
    apply UInt64.toNat_ofNat_of_lt'
    unfold size at fits
    unfold UInt64.size
    omega
  have counts : UInt64.ofNat bytes.length ≠ 0 := by
    intro zero
    rw [zero, UInt64.toNat_zero] at counted
    omega
  obtain ⟨start, stop, checked, startEq, stopEq⟩ := checkBounds_of_fits (counted ▸ pos) (counted.symm ▸ fits)
  rw [counted] at stopEq
  rw [store, fault?, if_neg counts, checked, toNat_toUInt32_of_fits pos fits]
  dsimp only [accessFault?]
  rw [startEq, stopEq]
  cases memory.firstDenied? .write (pageOf address.toNat)
    (pageOf (address.toNat + bytes.length - 1) + 1 - pageOf address.toNat) <;> rfl

namespace Layout

/-- To stage a range with contents is to stage it blank and to write the contents as data. And where everything that
is staged can be written, data that is written before the layout is closed and the same bytes stored after it leave
the same memory; if one of them is refused so is the other, for the same byte. -/
theorem copying_paths_agree {steps : List LayoutStep} {layout : Layout}
    (applied : Layout.empty.applyAll steps = .ok layout) :
    (∀ use start stop contents after, layout.stage use start stop contents = .ok after →
      (layout.stage use start stop #[] >>= (·.setData start contents.toList)) = .ok after) ∧
    ((∀ (n : Nat) (page : Page), layout.pages[n]? = some page → page.access = .write) →
      ∀ heapStart heapEnd memory, layout.finish heapStart heapEnd = .ok memory →
        ∀ (address : UInt64) (data : List UInt8), data.length < UInt64.size →
          (layout.setData address.toNat data >>= (·.finish heapStart heapEnd)) =
            (memory.store address data).mapError (.ofRefusal address.toNat)) := by
  constructor
  · intro use start stop contents after staged
    obtain ⟨blank, blankly, written⟩ := stage_then_setData staged
    rw [blankly]
    exact written
  · intro writable heapStart heapEnd memory closed address data counted
    obtain ⟨faultless, rfl⟩ := finish_eq_ok_iff.mp closed
    by_cases nothing : data = []
    · subst nothing
      rw [Memory.store_nil]
      exact closed
    rcases Nat.lt_or_ge size (address.toNat + data.length) with passes | fits
    · have length : (UInt64.ofNat data.length).toNat = data.length := UInt64.toNat_ofNat_of_lt' counted
      have pos : 0 < (UInt64.ofNat data.length).toNat := length.symm ▸ List.length_pos_iff.mpr nothing
      have refused := Memory.fault?_of_passes ⟨layout.pages, heapStart, heapEnd⟩ .write pos (length.symm ▸ passes)
      rw [Memory.store, refused, setData_of_passes layout nothing passes]
      rfl
    · rw [setData_of_fits _ nothing fits, Memory.store_of_fits _ nothing fits,
        firstDenied?_eq_firstUnstaged? rfl (proper_of_applyAll .empty applied) writable]
      cases layout.firstUnstaged? (pageOf address.toNat)
          (pageOf (address.toNat + data.length - 1) + 1 - pageOf address.toNat) with
      | some page => rfl
      | none =>
        change finish _ heapStart heapEnd = _
        rw [finish, heapFault?_congr (contains_writeData layout.pages address.toNat data), faultless,
          ← write_eq_writeData]
        rfl

/-- Two pages that can be written. Contents may follow behind them, bytes across their border are stored as they are
written, and bytes that run out of them or out of the address space are refused both ways. -/
theorem copying_paths_agree_on_writable_pages :
    ∃ layout memory after, Layout.empty.applyAll [.stage .write 0x10000 0x12000 #[1]] = .ok layout ∧
      layout.finish 0x20000 0x24000 = .ok memory ∧
      layout.stage .read 0x12000 0x14000 #[5, 6] = .ok after ∧
      (layout.stage .read 0x12000 0x14000 #[] >>= (·.setData 0x12000 [5, 6])) = .ok after ∧
      (layout.setData 0x10FFF [2, 3] >>= (·.finish 0x20000 0x24000)) =
        (memory.store 0x10FFF [2, 3]).mapError (.ofRefusal 0x10FFF) ∧
      (layout.setData 0x11FFF [2, 3] >>= (·.finish 0x20000 0x24000)) = .error (.unconfiguredData 0x12000) ∧
      (layout.setData 0xFFFFFFFF [2, 3] >>= (·.finish 0x20000 0x24000)) = .error (.unconfiguredData 0xFFFFFFFF) := by
  let layout : Layout := ⟨insertPages ∅ .write #[1] 0x10 0 2⟩
  let memory : Memory := ⟨layout.pages, 0x20000, 0x24000⟩
  have applied : Layout.empty.applyAll [.stage .write 0x10000 0x12000 #[1]] = .ok layout := by
    have staged : Layout.empty.stage .write 0x10000 0x12000 #[1] = .ok layout :=
      stage_eq_ok_iff.mpr ⟨by decide, by decide, by decide, by decide, by decide +kernel, rfl⟩
    rw [applyAll, apply, staged]
    rfl
  have closed : layout.finish 0x20000 0x24000 = .ok memory := finish_eq_ok_iff.mpr ⟨by decide +kernel, rfl⟩
  have writable : ∀ (n : Nat) (page : Page), layout.pages[n]? = some page → page.access = .write := by
    intro n page backed
    rw [getElem?_insertPages] at backed
    split at backed
    · obtain rfl := Option.some.inj backed
      rfl
    · rw [Std.ExtTreeMap.getElem?_empty] at backed
      cases backed
  have staged : layout.stage .read 0x12000 0x14000 #[5, 6] = .ok ⟨insertPages layout.pages .read #[5, 6] 0x12 0 2⟩ :=
    stage_eq_ok_iff.mpr ⟨by decide, by decide, by decide, by decide, by decide +kernel, rfl⟩
  obtain ⟨restaged, stores⟩ := copying_paths_agree applied
  have agree := stores writable _ _ memory closed
  have faults : memory.store 0x11FFF [2, 3] = .error (.pageFault 0x12000) :=
    (memory.store_eq_error_iff _ _ _).mpr (by decide +kernel)
  have passes : memory.store 0xFFFFFFFF [2, 3] = .error (.outOfBounds 0xFFFFFFFF 2) :=
    (memory.store_eq_error_iff _ _ _).mpr (by decide +kernel)
  refine ⟨layout, memory, _, applied, closed, staged, restaged _ _ _ _ _ staged, agree 0x10FFF [2, 3] (by decide),
    ?_, ?_⟩
  · exact (agree 0x11FFF [2, 3] (by decide)).trans (by rw [faults]; rfl)
  · exact (agree 0xFFFFFFFF [2, 3] (by decide)).trans (by rw [passes]; rfl)

end Layout

end MeteredVm
