import MeteredVm.Proofs.Memory.Representation

/-!
Page tables by their cells. Each way of copying bytes into pages, chunk by chunk, page by page or round by round, does
the same to the cell at any one address, and tables with the same cells are equal.
-/

set_option autoImplicit false
set_option relaxedAutoImplicit false

namespace MeteredVm

open AddressSpace

def Cell.rewritten (start : Nat) (bytes : List UInt8) (a : Nat) (cell : Cell) : Cell :=
  if start ≤ a then { cell with byte := bytes.getD (a - start) cell.byte } else cell

theorem Cell.rewritten_of_outside {start a : Nat} {bytes : List UInt8}
    (outside : ¬(start ≤ a ∧ a < start + bytes.length)) (cell : Cell) : cell.rewritten start bytes a = cell := by
  unfold rewritten
  split
  · have beyond : bytes[a - start]? = none := by
      rw [List.getElem?_eq_none_iff]
      omega
    rw [List.getD_eq_getElem?_getD, beyond]
    rfl
  · rfl

@[simp] theorem Cell.rewritten_nil (start a : Nat) (cell : Cell) : cell.rewritten start [] a = cell := by
  apply rewritten_of_outside
  rw [List.length_nil]
  omega

private theorem Cell.rewritten_take_drop (start count a : Nat) (bytes : List UInt8) (cell : Cell) :
    (cell.rewritten start (bytes.take count) a).rewritten (start + count) (bytes.drop count) a =
      cell.rewritten start bytes a := by
  by_cases before : start + count ≤ a
  · have skipped : ¬(start ≤ a ∧ a < start + (bytes.take count).length) := by
      rw [List.length_take]
      omega
    have place : count + (a - (start + count)) = a - start := by omega
    rw [rewritten_of_outside skipped, rewritten, rewritten, if_pos before, if_pos (by omega)]
    simp only [List.getD_eq_getElem?_getD, List.getElem?_drop, place]
  · rw [rewritten, if_neg before, rewritten, rewritten]
    split
    · have taken : a - start < count := by omega
      simp only [List.getD_eq_getElem?_getD, List.getElem?_take_of_lt taken]
    · rfl

private theorem Page.ext_get {one two : Page} (access : one.access = two.access)
    (bytes : ∀ i < pageSize, one.get i = two.get i) : one = two := by
  obtain ⟨access', vector⟩ := one
  obtain ⟨access'', vector'⟩ := two
  obtain rfl : access' = access'' := access
  refine congrArg (Page.mk access') (Vector.ext fun i inside => ?_)
  have byte := bytes i inside
  have place : i % 4096 = i := Nat.mod_eq_of_lt inside
  simp only [get, place] at byte
  exact byte

namespace PageTable

variable (pages : PageTable)

/-- The cell at an address, if its page is backed. -/
def cell? (a : Nat) : Option Cell := pages[pageOf a]?.map fun page => ⟨page.access, page.get a⟩

theorem isSome_cell?_iff (a : Nat) : (pages.cell? a).isSome ↔ pageOf a ∈ pages := by
  rw [cell?, Option.isSome_map, Std.ExtTreeMap.mem_iff_isSome_getElem?]

private theorem cell?_eq (a : Nat) :
    pages.cell? a = (pages[pageOf a]?.map Page.access).map fun access => ⟨access, pages.byteAt a⟩ := by
  unfold cell? byteAt
  cases pages[pageOf a]? <;> rfl

theorem pageOf_mul (n : Nat) : pageOf (n * pageSize) = n := by
  unfold pageOf pageSize
  omega

theorem access_eq (n : Nat) : pages[n]?.map Page.access = (pages.cell? (n * pageSize)).map Cell.access := by
  rw [cell?, pageOf_mul, Option.map_map]
  rfl

theorem ext_cell? {one two : PageTable} (same : ∀ a, one.cell? a = two.cell? a) : one = two := by
  apply Std.ExtTreeMap.ext_getElem?
  intro n
  have cells : ∀ i < pageSize, one[n]?.map (fun page => (⟨page.access, page.get i⟩ : Cell)) =
      two[n]?.map fun page => ⟨page.access, page.get i⟩ := by
    intro i inside
    have place : pageOf (n * pageSize + i) = n ∧ (n * pageSize + i) % pageSize = i % pageSize := by
      unfold pageOf pageSize at *
      omega
    have here := same (n * pageSize + i)
    unfold cell? at here
    simpa only [place.1, Page.get_congr _ place.2] using here
  have first := cells 0 (by decide)
  cases found : one[n]? with
  | none =>
    rw [found, Option.map_none] at first
    exact (Option.map_eq_none_iff.mp first.symm).symm
  | some page =>
    rw [found, Option.map_some] at first
    obtain ⟨page', found', equal⟩ := Option.map_eq_some_iff.mp first.symm
    rw [found']
    refine congrArg some (Page.ext_get (congrArg Cell.access equal).symm fun i inside => ?_)
    have here := cells i inside
    rw [found, found', Option.map_some, Option.map_some] at here
    exact congrArg Cell.byte (Option.some.inj here)

theorem cell?_write (start a : Nat) (bytes : Array UInt8) :
    (pages.write start bytes).cell? a = (pages.cell? a).map (Cell.rewritten start bytes.toList a) := by
  rw [cell?_eq, cell?_eq, access_write, byteAt_write]
  simp only [Std.ExtTreeMap.mem_iff_isSome_getElem?]
  cases found : pages[pageOf a]? with
  | none => rfl
  | some page =>
    simp only [Option.map_some, Option.isSome_some, true_and]
    by_cases covered : start ≤ a ∧ a < start + bytes.size
    · have inside : a - start < bytes.size := by omega
      simp only [covered, and_self, if_true, Cell.rewritten, Array.getD_eq_getD_getElem?, List.getD_eq_getElem?_getD,
        Array.getElem?_toList, Array.getElem?_eq_getElem inside, Option.getD_some]
    · have outside : ¬(start ≤ a ∧ a < start + bytes.toList.length) := covered
      rw [if_neg covered, Cell.rewritten_of_outside outside]

private theorem cell?_modify_overwrite (start a : Nat) {bytes : List UInt8}
    (fits : start % pageSize + bytes.length ≤ pageSize) :
    PageTable.cell? (pages.modify (pageOf start) fun page => page.overwrite (start % pageSize) bytes) a =
      (pages.cell? a).map (Cell.rewritten start bytes a) := by
  have covers : pageOf start = pageOf a ∧ start % pageSize ≤ a % pageSize ∧
      a % pageSize < start % pageSize + bytes.length ↔ start ≤ a ∧ a < start + bytes.length := by
    unfold pageOf pageSize at *
    omega
  unfold cell?
  rw [Std.ExtTreeMap.getElem?_modify]
  by_cases here : pageOf start = pageOf a
  · rw [if_pos (Nat.compare_eq_eq.mpr here), here]
    cases found : pages[pageOf a]? with
    | none => rfl
    | some page =>
      simp only [Option.map_some, Page.get_overwrite, Page.access_overwrite, Option.some.injEq]
      by_cases covered : start ≤ a ∧ a < start + bytes.length
      · have place : a % pageSize - start % pageSize = a - start := by
          unfold pageOf pageSize at *
          omega
        have inside : a - start < bytes.length := by omega
        rw [if_pos (covers.mpr covered).2, Cell.rewritten, if_pos covered.1, place]
        simp only [List.getD_eq_getElem?_getD, List.getElem?_eq_getElem inside, Option.getD_some]
      · rw [if_neg (fun both => covered (covers.mp ⟨here, both⟩)), Cell.rewritten_of_outside covered]
  · have outside : ¬(start ≤ a ∧ a < start + bytes.length) := fun inside => here (covers.mpr inside).1
    rw [if_neg (by simpa using here)]
    cases found : pages[pageOf a]? with
    | none => rfl
    | some page => rw [Option.map_some, Option.map_some, Cell.rewritten_of_outside outside]

end PageTable

namespace Layout

theorem cell?_writeData (pages : PageTable) (start a : Nat) (data : List UInt8) :
    (writeData pages start data).cell? a = (pages.cell? a).map (Cell.rewritten start data a) := by
  induction pages, start, data using writeData.induct with
  | case1 pages start data nothing =>
    obtain rfl := List.isEmpty_iff.mp nothing
    rw [writeData, if_pos nothing]
    cases pages.cell? a with
    | none => rfl
    | some cell => rw [Option.map_some, Cell.rewritten_nil]
  | case2 pages start data some room written ih =>
    have fits : start % pageSize + (data.take room).length ≤ pageSize := by
      have inside : start % pageSize < pageSize := Nat.mod_lt _ (by decide)
      rw [List.length_take]
      omega
    rw [writeData, if_neg some, ih, pages.cell?_modify_overwrite start a fits, Option.map_map]
    refine congrArg (fun f => (pages.cell? a).map f) (funext fun cell => ?_)
    exact Cell.rewritten_take_drop start room a data cell

private theorem get_filledPage (use : Use) (contents : Array UInt8) (offset a : Nat) :
    (filledPage use contents offset).get a = contents.getD (offset + a % pageSize) 0 := by
  have inside : a % pageSize < pageSize := Nat.mod_lt _ (by decide)
  have reach : (contents.extract offset (offset + pageSize)).toList.length =
      min (offset + pageSize) contents.size - offset := by
    rw [Array.length_toList, Array.size_extract]
  rw [filledPage, Page.get_overwrite, reach, Array.getD_eq_getD_getElem?]
  split
  · rename_i covered
    rw [List.getD_eq_getElem?_getD, Array.getElem?_toList, Array.getElem?_extract, if_pos (by omega), Nat.sub_zero]
  · rename_i missed
    have beyond : contents[offset + a % pageSize]? = none := by
      rw [Array.getElem?_eq_none_iff]
      omega
    rw [beyond, Memory.get_zeroed]
    rfl

theorem cell?_insertPages (pages : PageTable) (use : Use) (contents : Array UInt8) {start stop : Nat}
    (aligned : start % pageSize = 0 ∧ stop % pageSize = 0) (a : Nat) :
    (insertPages pages use contents (pageOf start) 0 (pageOf stop - pageOf start)).cell? a =
      if start ≤ a ∧ a < stop then some ⟨use.access, contents.getD (a - start) 0⟩ else pages.cell? a := by
  have range : pageOf start ≤ pageOf a ∧ pageOf a < pageOf start + (pageOf stop - pageOf start) ↔
      start ≤ a ∧ a < stop := by
    unfold pageOf pageSize at *
    omega
  simp only [PageTable.cell?, getElem?_insertPages, range]
  split
  · have place : 0 + (pageOf a - pageOf start) * pageSize + a % pageSize = a - start := by
      unfold pageOf pageSize at *
      omega
    rw [Option.map_some, get_filledPage, place]
    rfl
  · rfl

end Layout

end MeteredVm
