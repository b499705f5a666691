import MeteredVm.Memory.Layout
import MeteredVm.Proofs.Memory.FlatMap

/-!
What can become of a memory. A store rewrites bytes of pages that can be written, the growth of the heap turns pages
that nobody could use into pages of zeroes, and nothing else ever happens to the pages or to the bounds of the heap.
-/

set_option autoImplicit false
set_option relaxedAutoImplicit false

namespace MeteredVm

open AddressSpace

namespace Memory

/-- What is left of the heap can be had: it is made of whole pages above the reserved ones, none of which is backed. -/
structure HeapReady (memory : Memory) : Prop where
  topAligned : memory.top % pageSize = 0
  endAligned : memory.heapEnd % pageSize = 0
  ordered : memory.top ≤ memory.heapEnd
  unreserved : memory.top < memory.heapEnd → reservedBytes ≤ memory.top
  unbacked : ∀ page, memory.top ≤ page * pageSize → page * pageSize < memory.heapEnd → memory.pages[page]? = none

end Memory

namespace Layout

theorem firstStaged?_eq_find? (layout : Layout) (first count : Nat) :
    layout.firstStaged? first count = (List.range' first count).find? fun page => layout.pages.contains page := by
  induction count generalizing first with
  | zero => rfl
  | succ count ih =>
    rw [firstStaged?, List.range'_succ, List.find?_cons, ih]
    cases layout.pages.contains first <;> rfl

theorem firstUnstaged?_eq_find? (layout : Layout) (first count : Nat) :
    layout.firstUnstaged? first count = (List.range' first count).find? fun page => !layout.pages.contains page := by
  induction count generalizing first with
  | zero => rfl
  | succ count ih =>
    rw [firstUnstaged?, List.range'_succ, List.find?_cons, ih]
    cases layout.pages.contains first <;> rfl

theorem firstStaged?_eq_none_iff (layout : Layout) (first count : Nat) :
    layout.firstStaged? first count = none ↔
      ∀ page, first ≤ page → page < first + count → layout.pages[page]? = none := by
  have unbacked : ∀ page, (!layout.pages.contains page) = true ↔ layout.pages[page]? = none := by
    intro page
    rw [← Option.not_isSome_iff_eq_none, Std.ExtTreeMap.isSome_getElem?_eq_contains, Bool.not_eq_true,
      Bool.not_eq_true']
  simp only [firstStaged?_eq_find?, List.find?_range'_eq_none, unbacked]

private theorem heap_of_faultless {layout : Layout} {start stop : Nat}
    (faultless : layout.heapFault? start stop = none) :
    (start % pageSize = 0 ∧ stop % pageSize = 0) ∧ start ≤ stop ∧
      (start < stop → reservedBytes ≤ start ∧
        layout.firstStaged? (pageOf start) (pageOf stop - pageOf start) = none) := by
  unfold heapFault? at faultless
  split_ifs at faultless with misaligned outside nothing reserved
  all_goals
    simp only [isAligned, beq_iff_eq, not_or, Decidable.not_not] at misaligned
    refine ⟨misaligned, by omega, fun less => ?_⟩
  · omega
  · refine ⟨by omega, ?_⟩
    cases staged : layout.firstStaged? (pageOf start) (pageOf stop - pageOf start) with
    | none => rfl
    | some page =>
      simp only [staged] at faultless
      cases faultless

theorem finish_eq_ok_iff {layout : Layout} {start stop : Nat} {memory : Memory} :
    layout.finish start stop = .ok memory ↔
      layout.heapFault? start stop = none ∧ ⟨layout.pages, start, stop⟩ = memory := by
  unfold finish
  cases layout.heapFault? start stop with
  | none => simp only [Except.ok.injEq, true_and]
  | some fault => exact iff_of_false nofun fun both => nomatch both.1

theorem heapReady_of_finish {layout : Layout} {start stop : Nat} {memory : Memory}
    (closed : layout.finish start stop = .ok memory) :
    memory.HeapReady ∧ memory.top = start ∧ memory.heapEnd = stop := by
  obtain ⟨faultless, rfl⟩ := finish_eq_ok_iff.mp closed
  obtain ⟨⟨startAligned, stopAligned⟩, ordered, growable⟩ := heap_of_faultless faultless
  refine ⟨⟨startAligned, stopAligned, ordered, fun less => (growable less).1, fun page low high => ?_⟩, rfl, rfl⟩
  change start ≤ page * pageSize at low
  change page * pageSize < stop at high
  have free := (growable (by omega)).2
  rw [firstStaged?_eq_none_iff] at free
  apply free page
  all_goals
    unfold pageOf pageSize at *
    omega

end Layout

namespace Memory

theorem get_zeroed (access : Access) (offset : Nat) : (Page.zeroed access).get offset = 0 := by
  have inside : offset % 4096 < 4096 := Nat.mod_lt offset (by decide)
  change (Vector.replicate 4096 (0 : UInt8))[offset % 4096] = 0
  exact Vector.getElem_replicate inside

private theorem getElem?_mapZeroed (pages : PageTable) (first count page : Nat) :
    (mapZeroed pages first count)[page]? =
      if (first ≤ page ∧ page < first + count) ∧ pages[page]? = none then some (Page.zeroed .write)
      else pages[page]? := by
  induction count generalizing pages first with
  | zero =>
    rw [mapZeroed, if_neg]
    omega
  | succ count ih =>
    rw [mapZeroed, ih, Std.ExtTreeMap.getElem?_insertIfNew]
    by_cases here : first = page
    · subst here
      cases found : pages[first]? with
      | none =>
        have absent : first ∉ pages := by
          rw [Std.ExtTreeMap.mem_iff_isSome_getElem?, found]
          simp
        simp [absent]
      | some old =>
        have present : first ∈ pages := by
          rw [Std.ExtTreeMap.mem_iff_isSome_getElem?, found]
          rfl
        simp [present]
    · have apart : ¬compare first page = .eq := by simpa using here
      simp only [apart, false_and, if_false]
      by_cases fresh : pages[page]? = none
      · have range : first + 1 ≤ page ∧ page < first + 1 + count ↔ first ≤ page ∧ page < first + (count + 1) := by omega
        simp only [fresh, and_true, range]
      · simp only [fresh, and_false, if_false]

/-- What grew out of a memory by stores and by growth of its heap, as far as access goes: the pages that the heap
gained can be written, and all others grant what they granted. -/
structure Extends (start now : Memory) : Prop where
  ready : now.HeapReady
  heapEnd : now.heapEnd = start.heapEnd
  top_le : start.top ≤ now.top
  access : ∀ page, now.pageAccess page =
    if start.top ≤ page * pageSize ∧ page * pageSize < now.top then .write else start.pageAccess page

theorem Extends.refl {memory : Memory} (ready : memory.HeapReady) : memory.Extends memory where
  ready := ready
  heapEnd := rfl
  top_le := Nat.le_refl _
  access page := by
    rw [if_neg]
    omega

theorem Extends.trans {first second third : Memory} (one : first.Extends second) (two : second.Extends third) :
    first.Extends third where
  ready := two.ready
  heapEnd := two.heapEnd.trans one.heapEnd
  top_le := Nat.le_trans one.top_le two.top_le
  access page := by
    have low := one.top_le
    have high := two.top_le
    rw [two.access, one.access]
    by_cases late : second.top ≤ page * pageSize ∧ page * pageSize < third.top
    · rw [if_pos late, if_pos (by omega)]
    · rw [if_neg late]
      by_cases early : first.top ≤ page * pageSize ∧ page * pageSize < second.top
      · rw [if_pos early, if_pos (by omega)]
      · rw [if_neg early, if_neg (by omega)]

theorem HeapReady.heap_is_blank {memory : Memory} (ready : memory.HeapReady) {page : Nat}
    (low : memory.top ≤ page * pageSize) (high : page * pageSize < memory.heapEnd) :
    memory.pageAccess page = .none ∧ ∀ a, pageOf a = page → memory.byteAt a = 0 := by
  have unbacked := ready.unbacked page low high
  constructor
  · rw [pageAccess_eq, unbacked]
    split <;> rfl
  · rintro a rfl
    rw [byteAt, PageTable.byteAt, unbacked]

theorem Extends.readOnly {start now : Memory} (ready : start.HeapReady) (extended : start.Extends now) {page : Nat}
    (readOnly : start.pageAccess page = .read) : now.pageAccess page = .read := by
  rw [extended.access, if_neg, readOnly]
  rintro ⟨low, high⟩
  have ordered := extended.ready.ordered
  have blank := ready.heap_is_blank low (by rw [← extended.heapEnd]; omega)
  rw [readOnly] at blank
  cases blank.1

/-- The memory whose heap has grown by a length, rounded up to whole pages. -/
def grownBy (memory : Memory) (length : UInt32) : Memory :=
  { memory with
    pages := mapZeroed memory.pages (pageOf memory.top) (pageOf (ceilToPage length.toNat))
    top := memory.top + ceilToPage length.toNat }

section

variable {memory : Memory} (ready : memory.HeapReady) (length : UInt32)

include ready

/-- Rounding up where the heap would end is the same as rounding up the request, and a request for no bytes is like any
other. -/
theorem grow_of_ready :
    memory.grow length =
      if memory.top + ceilToPage length.toNat ≤ memory.heapEnd then some (memory.top, memory.grownBy length)
      else none := by
  have aligned := ready.topAligned
  have target : ceilToPage (memory.top + length.toNat) = memory.top + ceilToPage length.toNat := by
    unfold ceilToPage pageSize at *
    omega
  have count :
      pageOf (memory.top + ceilToPage length.toNat) - pageOf memory.top = pageOf (ceilToPage length.toNat) := by
    unfold pageOf ceilToPage pageSize at *
    omega
  unfold grow
  by_cases nothing : length = 0
  · subst nothing
    have room : memory.top + ceilToPage (0 : UInt32).toNat ≤ memory.heapEnd := ready.ordered
    rw [if_pos rfl, if_pos room]
    rfl
  · rw [if_neg nothing]
    dsimp only
    rw [target, count]
    by_cases room : memory.top + ceilToPage length.toNat ≤ memory.heapEnd
    · rw [if_neg (Nat.not_lt.mpr room), if_pos room]
      rfl
    · rw [if_pos (Nat.lt_of_not_le room), if_neg room]

variable {length}

theorem grow_eq_some_iff {previous : Nat} {after : Memory} :
    memory.grow length = some (previous, after) ↔
      memory.top + ceilToPage length.toNat ≤ memory.heapEnd ∧ memory.top = previous ∧
        memory.grownBy length = after := by
  rw [grow_of_ready ready]
  by_cases room : memory.top + ceilToPage length.toNat ≤ memory.heapEnd
  · rw [if_pos room, Option.some.injEq, Prod.mk.injEq]
    exact (and_iff_right room).symm
  · rw [if_neg room]
    exact iff_of_false nofun fun both => room both.1

variable (room : memory.top + ceilToPage length.toNat ≤ memory.heapEnd)

include room

theorem fresh_of_room (page : Nat) (low : pageOf memory.top ≤ page)
    (high : page < pageOf memory.top + pageOf (ceilToPage length.toNat)) : memory.pages[page]? = none := by
  have aligned := ready.topAligned
  apply ready.unbacked page
  all_goals
    unfold pageOf ceilToPage pageSize at *
    omega

theorem getElem?_grownBy (page : Nat) :
    (memory.grownBy length).pages[page]? =
      if memory.top ≤ page * pageSize ∧ page * pageSize < memory.top + ceilToPage length.toNat then
        some (Page.zeroed .write)
      else memory.pages[page]? := by
  have aligned := ready.topAligned
  have gained : pageOf memory.top ≤ page ∧ page < pageOf memory.top + pageOf (ceilToPage length.toNat) ↔
      memory.top ≤ page * pageSize ∧ page * pageSize < memory.top + ceilToPage length.toNat := by
    unfold pageOf ceilToPage pageSize at *
    omega
  rw [grownBy, getElem?_mapZeroed]
  by_cases inside : pageOf memory.top ≤ page ∧ page < pageOf memory.top + pageOf (ceilToPage length.toNat)
  · rw [if_pos ⟨inside, fresh_of_room ready room page inside.1 inside.2⟩, if_pos (gained.mp inside)]
  · rw [if_neg (fun both => inside both.1), if_neg (fun both => inside (gained.mpr both))]

end

theorem grow_spec {memory after : Memory} {length : UInt32} {previous : Nat} (ready : memory.HeapReady)
    (grown : memory.grow length = some (previous, after)) :
    memory.Extends after ∧ ∀ a, after.byteAt a = memory.byteAt a := by
  obtain ⟨room, rfl, rfl⟩ := (grow_eq_some_iff ready).mp grown
  have pages := getElem?_grownBy ready room
  have newTop : (memory.grownBy length).top = memory.top + ceilToPage length.toNat := rfl
  have grows : memory.top ≤ (memory.grownBy length).top := Nat.le_add_right _ _
  have bottom : memory.top < memory.heapEnd → reservedBytes ≤ memory.top := ready.unreserved
  refine ⟨⟨⟨?_, ready.endAligned, room, fun less => ?_, ?_⟩, rfl, grows, ?_⟩, ?_⟩
  · have aligned := ready.topAligned
    have rounded := ceilToPage_mod length.toNat
    unfold pageSize at *
    omega
  · change (memory.grownBy length).top < memory.heapEnd at less
    exact Nat.le_trans (bottom (Nat.lt_of_le_of_lt grows less)) grows
  · intro page low high
    rw [pages, if_neg (by omega)]
    exact ready.unbacked page (Nat.le_trans grows low) high
  · intro page
    rw [pageAccess_eq, pageAccess_eq, pages, newTop]
    by_cases inside : memory.top ≤ page * pageSize ∧ page * pageSize < memory.top + ceilToPage length.toNat
    · have free : ¬page < reservedPages := by
        have above := bottom (by omega)
        unfold reservedPages reservedBytes pageSize at *
        omega
      rw [if_pos inside, if_pos inside, if_neg free]
      rfl
    · rw [if_neg inside, if_neg inside]
  · intro a
    rw [byteAt, byteAt, PageTable.byteAt, PageTable.byteAt, pages]
    by_cases inside : memory.top ≤ pageOf a * pageSize ∧ pageOf a * pageSize < memory.top + ceilToPage length.toNat
    · rw [if_pos inside, ready.unbacked _ inside.1 (Nat.lt_of_lt_of_le inside.2 room)]
      exact get_zeroed _ _
    · rw [if_neg inside]

theorem store_spec {memory after : Memory} {address : UInt64} {bytes : List UInt8}
    (counted : bytes.length < UInt64.size) (stored : memory.store address bytes = .ok after) :
    (memory.HeapReady → memory.Extends after) ∧
      ∀ a, after.byteAt a ≠ memory.byteAt a →
        memory.pageAccess (pageOf a) = .write ∧ address.toNat ≤ a ∧ a < address.toNat + bytes.length := by
  have faultless : memory.fault? .write address (UInt64.ofNat bytes.length) = none := by
    rw [Option.eq_none_iff_forall_ne_some]
    intro error faulty
    rw [(memory.store_eq_error_iff address bytes error).mpr faulty] at stored
    cases stored
  have after_eq : after = { memory with pages := memory.pages.write address.toUInt32.toNat bytes.toArray } := by
    rw [store, faultless] at stored
    exact (Except.ok.inj stored).symm
  have accesses : ∀ page : Nat, after.pages[page]?.map Page.access = memory.pages[page]?.map Page.access := by
    intro page
    rw [after_eq]
    exact PageTable.access_write _ _ _ _
  constructor
  · intro ready
    have top : after.top = memory.top := by rw [after_eq]
    have heapEnd : after.heapEnd = memory.heapEnd := by rw [after_eq]
    refine ⟨⟨?_, ?_, ?_, ?_, ?_⟩, heapEnd, Nat.le_of_eq top.symm, ?_⟩
    · rw [top]
      exact ready.topAligned
    · rw [heapEnd]
      exact ready.endAligned
    · rw [top, heapEnd]
      exact ready.ordered
    · rw [top, heapEnd]
      exact ready.unreserved
    · intro page low high
      rw [top] at low
      rw [heapEnd] at high
      have access := accesses page
      rwa [ready.unbacked page low high, Option.map_none, Option.map_eq_none_iff] at access
    · intro page
      rw [top, if_neg (by omega), pageAccess_eq, pageAccess_eq, accesses]
  · intro a changed
    obtain ⟨result, same, flat, -, -⟩ := flat_store counted faultless
    obtain rfl : result = after := Except.ok.inj (same.symm.trans stored)
    rw [← flat_byte, ← flat_byte, flat, Cell.written] at changed
    by_cases covered : address.toNat ≤ a ∧ a < address.toNat + bytes.length
    · have granted := (memory.fault?_eq_none_iff .write address _).mp faultless
      rw [UInt64.toNat_ofNat_of_lt' counted] at granted
      obtain ⟨-, allowed⟩ := granted.resolve_left (by omega)
      have writes : (memory.flat a).access = .write := allowed a covered.1 covered.2
      exact ⟨memory.flat_access a ▸ writes, covered⟩
    · rw [dif_neg covered] at changed
      exact absurd rfl changed

theorem store_of_host_store {memory after : Memory} {address : UInt64} {bytes : List UInt8}
    (stored : Host.store memory address bytes = .ok after) : memory.store address bytes = .ok after := by
  cases bytes with
  | nil =>
    obtain rfl : memory = after := Except.ok.inj stored
    exact memory.store_nil address
  | cons byte rest =>
    have nonempty : (byte :: rest).isEmpty = false := rfl
    generalize byte :: rest = bytes at stored nonempty ⊢
    cases checked : Host.checkRange address (UInt64.ofNat bytes.length) with
    | error error => simp [Host.store, nonempty, checked, bind, Except.bind] at stored
    | ok range => simpa [Host.store, nonempty, checked, bind, Except.bind] using stored

theorem fault?_of_reserved (memory : Memory) (use : Use) {address length : UInt64}
    (reserved : address.toNat < reservedBytes) (nonempty : length ≠ 0) : memory.fault? use address length ≠ none := by
  have positive := toNat_pos_of_ne_zero nonempty
  rw [ne_eq, fault?_eq_none_iff]
  rintro (empty | ⟨-, allowed⟩)
  · omega
  · have first := allowed address.toNat (Nat.le_refl _) (by omega)
    have page : pageOf address.toNat < reservedPages := by
      unfold pageOf pageSize reservedPages reservedBytes at *
      omega
    rw [flat_allows, pageAccess_eq, if_pos page] at first
    cases use <;> cases first

end Memory

end MeteredVm
