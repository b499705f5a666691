import MeteredVm.Memory.Basic
import Mathlib.Tactic.Common

/-!
What copying does to single bytes. Writing changes the bytes of a range that lie in pages and no others, and reading
finds them again; both hold for ranges that start and end anywhere in a page and cross any number of pages.
-/

set_option autoImplicit false
set_option relaxedAutoImplicit false

namespace MeteredVm

open AddressSpace

theorem getElem?_overwrite (buffer : Array UInt8) (offset i : Nat) (bytes : List UInt8) :
    (overwrite buffer offset bytes)[i]? =
      if offset ≤ i ∧ i < offset + bytes.length ∧ i < buffer.size then bytes[i - offset]?
      else buffer[i]? := by
  induction bytes generalizing buffer offset with
  | nil =>
    have empty : ¬(offset ≤ i ∧ i < offset + ([] : List UInt8).length ∧ i < buffer.size) := by
      simp only [List.length_nil]
      omega
    rw [if_neg empty, overwrite]
  | cons byte rest ih =>
    rw [overwrite, ih, Array.getElem?_setIfInBounds, Array.size_setIfInBounds]
    rcases Nat.lt_trichotomy i offset with before | here | behind
    · have outside : ¬offset ≤ i := by omega
      have outsideRest : ¬offset + 1 ≤ i := by omega
      have other : offset ≠ i := by omega
      simp [outside, outsideRest, other]
    · subst here
      have outsideRest : ¬i + 1 ≤ i := by omega
      by_cases inside : i < buffer.size
      · simp [inside, outsideRest]
      · simp [inside]
    · have other : offset ≠ i := by omega
      have shift : i - offset = i - (offset + 1) + 1 := by omega
      have covered : offset + 1 ≤ i ∧ i < offset + 1 + rest.length ∧ i < buffer.size ↔
          offset ≤ i ∧ i < offset + (byte :: rest).length ∧ i < buffer.size := by
        simp only [List.length_cons]
        omega
      simp only [covered, other, shift, List.getElem?_cons_succ, if_false]

namespace Page

@[simp] theorem access_overwrite (page : Page) (offset : Nat) (bytes : List UInt8) :
    (page.overwrite offset bytes).access = page.access :=
  rfl

theorem getElem?_bytes (page : Page) (a : Nat) :
    page.bytes.toArray[a % pageSize]? = some (page.get a) := by
  have inside : a % pageSize < 4096 := Nat.mod_lt a (by decide)
  rw [Array.getElem?_eq_getElem (by simpa using inside)]
  rfl

theorem get_congr (page : Page) {a b : Nat} (h : a % pageSize = b % pageSize) : page.get a = page.get b := by
  have same := getElem?_bytes page a
  rw [h, getElem?_bytes] at same
  exact (Option.some.inj same).symm

theorem get_overwrite (page : Page) (offset a : Nat) (bytes : List UInt8) :
    (page.overwrite offset bytes).get a =
      if offset ≤ a % pageSize ∧ a % pageSize < offset + bytes.length then bytes.getD (a % pageSize - offset) 0
      else page.get a := by
  have inside : a % pageSize < page.bytes.toArray.size := by
    rw [Vector.size_toArray]
    exact Nat.mod_lt a (by decide)
  have after := getElem?_bytes (page.overwrite offset bytes) a
  have before := getElem?_bytes page a
  simp only [overwrite, getElem?_overwrite, inside, and_true, before] at after
  split
  · rename_i covered
    rw [if_pos covered] at after
    rw [List.getD_eq_getElem?_getD, after, Option.getD_some]
    rfl
  · rename_i missed
    rw [if_neg missed] at after
    exact (Option.some.inj after).symm

@[simp] theorem length_slice (page : Page) (offset length : Nat) : (page.slice offset length).length = length := by
  simp [slice]

theorem getElem?_slice (page : Page) {offset length i : Nat} (h : i < length) :
    (page.slice offset length)[i]? = some (page.get (offset + i)) := by
  simp [slice, h]

end Page

namespace PageTable

variable (pages : PageTable)

theorem getElem?_writeChunk (bytes : Array UInt8) (chunk : Chunk) (page : Nat) :
    (pages.writeChunk bytes chunk)[page]? =
      if chunk.page = page then
        pages[page]?.map fun p =>
          p.overwrite chunk.inPage (bytes.extract chunk.offset (chunk.offset + chunk.length)).toList
      else pages[page]? := by
  simp only [writeChunk, Std.ExtTreeMap.getElem?_modify, Nat.compare_eq_eq]
  split
  · rename_i here
    subst here
    rfl
  · rfl

@[simp] theorem mem_writeChunk (bytes : Array UInt8) (chunk : Chunk) (page : Nat) :
    page ∈ pages.writeChunk bytes chunk ↔ page ∈ pages :=
  Std.ExtTreeMap.mem_modify

private theorem access_writeChunk (bytes : Array UInt8) (chunk : Chunk) (page : Nat) :
    (pages.writeChunk bytes chunk)[page]?.map Page.access = pages[page]?.map Page.access := by
  rw [getElem?_writeChunk]
  split
  · rw [Option.map_map]
    rfl
  · rfl

private theorem byteAt_writeChunk (bytes : Array UInt8) (start a : Nat) {offset : Nat} (h : offset < bytes.size) :
    (pages.writeChunk bytes (.startingAt start bytes.size offset)).byteAt a =
      if pageOf a ∈ pages ∧ start + offset ≤ a ∧
          a < start + (offset + (Chunk.startingAt start bytes.size offset).length) then
        bytes.getD (a - start) 0
      else pages.byteAt a := by
  obtain ⟨covers, place⟩ := Chunk.startingAt_covers start h a
  obtain ⟨-, -, fits⟩ := Chunk.startingAt_bounds start h
  have own : (Chunk.startingAt start bytes.size offset).offset = offset := rfl
  generalize Chunk.startingAt start bytes.size offset = chunk at *
  have count : (bytes.extract offset (offset + chunk.length)).toList.length = chunk.length := by
    simp only [Array.length_toList, Array.size_extract]
    omega
  simp only [← covers, byteAt, getElem?_writeChunk, own, Std.ExtTreeMap.mem_iff_isSome_getElem?]
  cases found : pages[pageOf a]? with
  | none => simp
  | some page =>
    by_cases here : chunk.page = pageOf a
    · simp only [here, true_and, if_true, Option.map_some, Option.isSome_some, Page.get_overwrite, count]
      split
      · rename_i covered
        have inside := covers.mp ⟨here, covered⟩
        have shift : offset + (a % pageSize - chunk.inPage) = a - start := by
          rw [place here inside.1]
          omega
        have below : a % pageSize - chunk.inPage < min (offset + chunk.length) bytes.size - offset := by omega
        simp only [List.getD_eq_getElem?_getD, Array.getElem?_toList, Array.getElem?_extract, below, if_true, shift,
          Array.getD_eq_getD_getElem?]
      · rfl
    · simp [here]

private theorem writeChunks_spec (bytes : Array UInt8) (start offset a : Nat) :
    let after : PageTable := (Chunk.split start bytes.size offset).foldl (writeChunk · bytes) pages
    after.byteAt a =
        (if pageOf a ∈ pages ∧ start + offset ≤ a ∧ a < start + bytes.size then bytes.getD (a - start) 0
        else pages.byteAt a) ∧
      ∀ page : Nat, after[page]?.map Page.access = pages[page]?.map Page.access := by
  induction offset using Chunk.split.induct start bytes.size generalizing pages with
  | case1 offset more ih =>
    have bounds := Chunk.startingAt_bounds start more
    have first := byteAt_writeChunk pages bytes start a more
    have kept := access_writeChunk pages bytes (.startingAt start bytes.size offset)
    obtain ⟨rest, keptRest⟩ := ih (pages.writeChunk bytes (.startingAt start bytes.size offset))
    rw [Chunk.split, if_pos more, List.foldl_cons]
    refine ⟨?_, fun page => (keptRest page).trans (kept page)⟩
    by_cases mapped : pageOf a ∈ pages
    · simp only [rest, first, mem_writeChunk, mapped, true_and]
      split_ifs <;> first | rfl | omega
    · simp only [rest, first, mem_writeChunk, mapped, false_and, if_false]
  | case2 offset done =>
    have nothing : ¬(start + offset ≤ a ∧ a < start + bytes.size) := by omega
    rw [Chunk.split, if_neg done]
    simp [nothing]

theorem byteAt_write (address a : Nat) (bytes : Array UInt8) :
    (pages.write address bytes).byteAt a =
      if pageOf a ∈ pages ∧ address ≤ a ∧ a < address + bytes.size then bytes.getD (a - address) 0
      else pages.byteAt a := by
  exact (writeChunks_spec pages bytes address 0 a).1

theorem access_write (address page : Nat) (bytes : Array UInt8) :
    (pages.write address bytes)[page]?.map Page.access = pages[page]?.map Page.access :=
  (writeChunks_spec pages bytes address 0 0).2 page

@[simp] theorem size_readChunk (buffer : Array UInt8) (chunk : Chunk) :
    (pages.readChunk buffer chunk).size = buffer.size := by
  unfold readChunk
  split <;> simp

private theorem getElem?_readChunk (buffer : Array UInt8) (start i : Nat) {offset : Nat} (h : offset < buffer.size) :
    (pages.readChunk buffer (.startingAt start buffer.size offset))[i]? =
      if pageOf (start + i) ∈ pages ∧ offset ≤ i ∧
          i < offset + (Chunk.startingAt start buffer.size offset).length then
        some (pages.byteAt (start + i))
      else buffer[i]? := by
  obtain ⟨covers, place⟩ := Chunk.startingAt_covers start h (start + i)
  obtain ⟨-, -, fits⟩ := Chunk.startingAt_bounds start h
  have own : (Chunk.startingAt start buffer.size offset).offset = offset := rfl
  generalize Chunk.startingAt start buffer.size offset = chunk at *
  by_cases covered : offset ≤ i ∧ i < offset + chunk.length
  · have inside : i < buffer.size := by omega
    obtain ⟨here, inPage, -⟩ := covers.mpr (by omega)
    have position := place here (by omega)
    simp only [readChunk, byteAt, here, covered, and_self, and_true, Std.ExtTreeMap.mem_iff_isSome_getElem?]
    cases found : pages[pageOf (start + i)]? with
    | none => simp
    | some page =>
      have reduced : (chunk.inPage + (i - offset)) % pageSize = (start + i) % pageSize := by
        have : chunk.inPage + (i - offset) = (start + i) % pageSize := by omega
        rw [this, Nat.mod_mod]
      have taken : i - offset < chunk.length := by omega
      simp only [own, getElem?_overwrite, Page.length_slice, covered, inside, and_self, if_true,
        Page.getElem?_slice page taken, page.get_congr reduced, Option.isSome_some]
  · have missed : ¬(pageOf (start + i) ∈ pages ∧ offset ≤ i ∧ i < offset + chunk.length) := fun h => covered h.2
    rw [if_neg missed, readChunk]
    split
    · rw [getElem?_overwrite, own, Page.length_slice, if_neg (fun h => covered ⟨h.1, h.2.1⟩)]
    · rfl

private theorem readChunks_spec (buffer : Array UInt8) (start offset i : Nat) :
    let after := (Chunk.split start buffer.size offset).foldl pages.readChunk buffer
    after.size = buffer.size ∧
      after[i]? =
        if pageOf (start + i) ∈ pages ∧ offset ≤ i ∧ i < buffer.size then some (pages.byteAt (start + i))
        else buffer[i]? := by
  generalize count : buffer.size = length
  induction offset using Chunk.split.induct start length generalizing buffer with
  | case1 offset more ih =>
    subst count
    have bounds := Chunk.startingAt_bounds start more
    have first := getElem?_readChunk pages buffer start i more
    obtain ⟨size, rest⟩ := ih (pages.readChunk buffer (.startingAt start buffer.size offset)) (by simp)
    rw [Chunk.split, if_pos more, List.foldl_cons]
    refine ⟨size, ?_⟩
    by_cases mapped : pageOf (start + i) ∈ pages
    · simp only [rest, first, mapped, true_and]
      split_ifs <;> first | rfl | omega
    · simp only [rest, first, mapped, false_and, if_false]
  | case2 offset done =>
    have nothing : ¬(offset ≤ i ∧ i < length) := by omega
    rw [Chunk.split, if_neg done]
    simp [nothing, count]

@[simp] theorem size_read (address : Nat) (buffer : Array UInt8) :
    (pages.read address buffer).size = buffer.size :=
  (readChunks_spec pages buffer address 0 0).1

theorem getElem?_read (address i : Nat) (buffer : Array UInt8) :
    (pages.read address buffer)[i]? =
      if pageOf (address + i) ∈ pages ∧ i < buffer.size then some (pages.byteAt (address + i)) else buffer[i]? := by
  have spec := (readChunks_spec pages buffer address 0 i).2
  simp only [Nat.zero_le, true_and] at spec
  exact spec

end PageTable

end MeteredVm
