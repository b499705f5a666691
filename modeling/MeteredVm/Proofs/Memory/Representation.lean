import MeteredVm.Proofs.Memory.Heap

/-!
The representation of memory. A memory that comes of a layout backs only pages of the address space above the reserved
ones, none without access, and its heap is page aligned and in front of unbacked pages. The main statement is that no
sequence of operations on it, whether they succeed or fail, ever changes that.
-/

set_option autoImplicit false
set_option relaxedAutoImplicit false

namespace MeteredVm

open AddressSpace

/-- Every page that is backed lies in the address space above the reserved pages, and can be used in some way. -/
def PageTable.Proper (pages : PageTable) : Prop :=
  ∀ (n : Nat) (page : Page), pages[n]? = some page →
    (reservedPages ≤ n ∧ (n + 1) * pageSize ≤ size) ∧ (page.access = .read ∨ page.access = .write)

namespace PageTable.Proper

theorem empty : Proper ∅ := by
  intro n page backed
  rw [Std.ExtTreeMap.getElem?_empty] at backed
  cases backed

private theorem of_access {pages after : PageTable} (proper : pages.Proper)
    (same : ∀ n : Nat, after[n]?.map Page.access = pages[n]?.map Page.access) : after.Proper := by
  intro n page backed
  have access := same n
  rw [backed, Option.map_some] at access
  obtain ⟨old, before, equal⟩ := Option.map_eq_some_iff.mp access.symm
  rw [← equal]
  exact proper n old before

private theorem write {pages : PageTable} (proper : pages.Proper) (address : Nat) (bytes : Array UInt8) :
    (pages.write address bytes).Proper :=
  proper.of_access fun n => pages.access_write address n bytes

end PageTable.Proper

private theorem Use.access_usable (use : Use) : use.access = .read ∨ use.access = .write := by
  cases use with
  | read => exact Or.inl rfl
  | write => exact Or.inr rfl

namespace Layout

theorem getElem?_insertPages (pages : PageTable) (use : Use) (contents : Array UInt8) (first offset count n : Nat) :
    (insertPages pages use contents first offset count)[n]? =
      if first ≤ n ∧ n < first + count then some (filledPage use contents (offset + (n - first) * pageSize))
      else pages[n]? := by
  induction count generalizing pages first offset with
  | zero =>
    rw [insertPages, if_neg]
    omega
  | succ count ih =>
    rw [insertPages, ih, Std.ExtTreeMap.getElem?_insert]
    by_cases here : first = n
    · subst here
      have outside : ¬(first + 1 ≤ first ∧ first < first + 1 + count) := by omega
      have inside : first ≤ first ∧ first < first + (count + 1) := by omega
      rw [if_neg outside, if_pos inside, if_pos (Nat.compare_eq_eq.mpr rfl), Nat.sub_self, Nat.zero_mul, Nat.add_zero]
    · have apart : ¬compare first n = .eq := by simpa using here
      have range : first + 1 ≤ n ∧ n < first + 1 + count ↔ first ≤ n ∧ n < first + (count + 1) := by omega
      rw [if_neg apart]
      simp only [range]
      split
      · have shift : offset + pageSize + (n - (first + 1)) * pageSize = offset + (n - first) * pageSize := by
          unfold pageSize
          omega
        rw [shift]
      · rfl

theorem access_writeData (pages : PageTable) (address : Nat) (data : List UInt8) (n : Nat) :
    (writeData pages address data)[n]?.map Page.access = pages[n]?.map Page.access := by
  induction pages, address, data using writeData.induct with
  | case1 pages address data nothing => rw [writeData, if_pos nothing]
  | case2 pages address data some room written ih =>
    rw [writeData, if_neg some]
    refine ih.trans ?_
    rw [Std.ExtTreeMap.getElem?_modify]
    split
    · rename_i here
      obtain rfl : pageOf address = n := by simpa using here
      cases pages[pageOf address]? with
      | none => rfl
      | some page => rfl
    · rfl

theorem stage_eq_ok_iff {layout after : Layout} {use : Use} {start stop : Nat} {contents : Array UInt8} :
    layout.stage use start stop contents = .ok after ↔
      (start < stop ∧ stop ≤ size) ∧ (start % pageSize = 0 ∧ stop % pageSize = 0) ∧ reservedBytes ≤ start ∧
        contents.size ≤ stop - start ∧ layout.firstStaged? (pageOf start) (pageOf stop - pageOf start) = none ∧
        ⟨insertPages layout.pages use contents (pageOf start) 0 (pageOf stop - pageOf start)⟩ = after := by
  unfold stage
  split_ifs with badRange misaligned reserved long
  · exact iff_of_false (fun impossible => by cases impossible) fun right => by omega
  all_goals simp only [isAligned, beq_iff_eq] at misaligned
  iterate 3 exact iff_of_false (fun impossible => by cases impossible) fun right => by omega
  · have inOrder : (start < stop ∧ stop ≤ size) ∧ (start % pageSize = 0 ∧ stop % pageSize = 0) ∧
        reservedBytes ≤ start ∧ contents.size ≤ stop - start := by omega
    dsimp only
    cases layout.firstStaged? (pageOf start) (pageOf stop - pageOf start) with
    | some page => exact iff_of_false (fun impossible => by cases impossible) fun right => by cases right.2.2.2.2.1
    | none => simp only [Except.ok.injEq, inOrder, and_self, true_and]

private theorem proper_of_stage {layout after : Layout} {use : Use} {start stop : Nat} {contents : Array UInt8}
    (proper : layout.pages.Proper) (staged : layout.stage use start stop contents = .ok after) :
    after.pages.Proper := by
  obtain ⟨range, aligned, unreserved, -, -, rfl⟩ := stage_eq_ok_iff.mp staged
  intro n page backed
  simp only [getElem?_insertPages] at backed
  split at backed
  · rename_i inside
    obtain rfl := Option.some.inj backed
    refine ⟨?_, use.access_usable⟩
    unfold pageOf pageSize size reservedPages reservedBytes at *
    omega
  · exact proper n page backed

theorem setData_of_passes (layout : Layout) {address : Nat} {data : List UInt8} (nonempty : data ≠ [])
    (passes : size < address + data.length) : layout.setData address data = .error (.unconfiguredData address) := by
  have present : ¬data.isEmpty := fun empty => nonempty (List.isEmpty_iff.mp empty)
  rw [setData, if_neg present, if_pos passes]

theorem setData_of_fits (layout : Layout) {address : Nat} {data : List UInt8} (nonempty : data ≠ [])
    (fits : address + data.length ≤ size) :
    layout.setData address data =
      match layout.firstUnstaged? (pageOf address) (pageOf (address + data.length - 1) + 1 - pageOf address) with
      | some page => .error (.unconfiguredData (max (page * pageSize) address))
      | none => .ok ⟨writeData layout.pages address data⟩ := by
  have present : ¬data.isEmpty := fun empty => nonempty (List.isEmpty_iff.mp empty)
  unfold setData
  refine (if_neg present).trans ((if_neg (Nat.not_lt.mpr fits)).trans ?_)
  rfl

theorem proper_of_apply {layout after : Layout} {step : LayoutStep} (proper : layout.pages.Proper)
    (applied : layout.apply step = .ok after) : after.pages.Proper := by
  cases step with
  | stage use start stop contents => exact proper_of_stage proper applied
  | setData address data =>
    change layout.setData address data.toList = .ok after at applied
    by_cases nothing : data.toList = []
    · rw [nothing] at applied
      obtain rfl := Except.ok.inj applied
      exact proper
    rcases Nat.lt_or_ge size (address + data.toList.length) with passes | fits
    · rw [setData_of_passes layout nothing passes] at applied
      cases applied
    · rw [setData_of_fits layout nothing fits] at applied
      split at applied
      · cases applied
      · obtain rfl := Except.ok.inj applied
        exact proper.of_access fun n => access_writeData layout.pages address data.toList n

theorem proper_of_applyAll {layout after : Layout} {steps : List LayoutStep} (proper : layout.pages.Proper)
    (applied : layout.applyAll steps = .ok after) : after.pages.Proper := by
  induction steps generalizing layout with
  | nil =>
    obtain rfl := Except.ok.inj applied
    exact proper
  | cons step rest ih =>
    rw [applyAll] at applied
    split at applied
    · cases applied
    · rename_i next first
      exact ih (proper_of_apply proper first) applied

private theorem stop_le_of_finish {layout : Layout} {start stop : Nat} {memory : Memory}
    (closed : layout.finish start stop = .ok memory) : stop ≤ size := by
  have faultless := (finish_eq_ok_iff.mp closed).1
  unfold heapFault? at faultless
  split_ifs at faultless <;> omega

end Layout

namespace Memory

/-- What holds of every memory that comes of a layout, whatever is done to it afterwards. -/
structure WellFormed (memory : Memory) : Prop extends memory.HeapReady where
  proper : memory.pages.Proper
  bounded : memory.heapEnd ≤ size

/-- A memory before anything is done to it: an empty one, or one that was laid out. -/
inductive Fresh : Memory → Prop where
  | empty : Fresh .empty
  | laidOut (steps : List LayoutStep) (heapStart heapEnd : Nat) (memory : Memory)
      (built : Layout.build steps heapStart heapEnd = .ok memory) : Fresh memory

/-- What is done to a memory, by the machine that owns it or through the view of a host call. -/
inductive Operation where
  | store (address : UInt64) (bytes : List UInt8)
  | load (buffer : Array UInt8) (address : UInt64)
  | grow (length : UInt32)
  | reset
  | hostStore (address : UInt64) (bytes : List UInt8)
  | hostLoad (address length : UInt64)

/-- What an operation makes of a memory, if it does not fail. Loading changes nothing. -/
def attempt (memory : Memory) : Operation → Option Memory
  | .store address bytes => (memory.store address bytes).toOption
  | .load buffer address => (memory.loadInto buffer address).toOption.map fun _ => memory
  | .grow length => (memory.grow length).map Prod.snd
  | .reset => some .empty
  | .hostStore address bytes => (Host.store memory address bytes).toOption
  | .hostLoad address length => (Host.load memory address length).toOption.map fun _ => memory

/-- Performs an operation. One that fails gives no memory back, so the memory stays as it was by the form of the
result. -/
def perform (memory : Memory) (operation : Operation) : Memory := (memory.attempt operation).getD memory

theorem Fresh.wellFormed {memory : Memory} (fresh : memory.Fresh) : memory.WellFormed := by
  cases fresh with
  | empty =>
    refine ⟨⟨rfl, rfl, Nat.le_refl _, fun impossible => absurd impossible (Nat.lt_irrefl 0), ?_⟩, .empty, Nat.zero_le _⟩
    intro page _ above
    exact absurd above (Nat.not_lt_zero _)
  | laidOut steps heapStart heapEnd memory built =>
    unfold Layout.build at built
    split at built
    · cases built
    · rename_i layout staged
      obtain ⟨ready, -, stop⟩ := Layout.heapReady_of_finish built
      have proper : layout.pages.Proper := Layout.proper_of_applyAll .empty staged
      have pages : memory.pages = layout.pages := (Layout.finish_eq_ok_iff.mp built).2 ▸ rfl
      exact ⟨ready, pages ▸ proper, stop ▸ Layout.stop_le_of_finish built⟩

namespace WellFormed

variable {memory after : Memory}

theorem store {address : UInt64} {bytes : List UInt8} (formed : memory.WellFormed)
    (stored : memory.store address bytes = .ok after) : after.WellFormed := by
  unfold Memory.store at stored
  split at stored
  · cases stored
  · obtain rfl := Except.ok.inj stored
    obtain ⟨⟨topAligned, endAligned, ordered, unreserved, unbacked⟩, proper, bounded⟩ := formed
    refine ⟨⟨topAligned, endAligned, ordered, unreserved, fun page low high => ?_⟩, proper.write _ _, bounded⟩
    have access := memory.pages.access_write address.toUInt32.toNat page bytes.toArray
    rwa [unbacked page low high, Option.map_none, Option.map_eq_none_iff] at access

theorem grow {length : UInt32} {previous : Nat} (formed : memory.WellFormed)
    (grown : memory.grow length = some (previous, after)) : after.WellFormed := by
  have ready := formed.toHeapReady
  have extended := (grow_spec ready grown).1
  obtain ⟨room, rfl, rfl⟩ := (grow_eq_some_iff ready).mp grown
  refine ⟨extended.ready, fun n page backed => ?_, formed.bounded⟩
  rw [getElem?_grownBy ready room] at backed
  split at backed
  · -- a page that the heap gained: the heap starts above the reserved pages, for it had something left to gain
    rename_i inside
    have bounded := formed.bounded
    have above := formed.unreserved (by omega)
    have aligned := ready.topAligned
    have rounded := ceilToPage_mod length.toNat
    obtain rfl := Option.some.inj backed
    refine ⟨?_, Or.inr rfl⟩
    unfold reservedBytes reservedPages pageSize size at *
    omega
  · exact formed.proper n page backed

private theorem eq_ok_of_toOption {outcome : Except MemoryError Memory} (succeeded : outcome.toOption = some after) :
    outcome = .ok after := by
  cases outcome with
  | error error => cases succeeded
  | ok result => exact congrArg Except.ok (Option.some.inj succeeded)

theorem perform (formed : memory.WellFormed) (operation : Operation) : (memory.perform operation).WellFormed := by
  have kept : ∀ result, memory.attempt operation = some result → result.WellFormed := by
    intro result attempted
    cases operation with
    | store address bytes => exact formed.store (eq_ok_of_toOption attempted)
    | hostStore address bytes => exact formed.store (store_of_host_store (eq_ok_of_toOption attempted))
    | load buffer address =>
      obtain ⟨-, -, rfl⟩ := Option.map_eq_some_iff.mp attempted
      exact formed
    | hostLoad address length =>
      obtain ⟨-, -, rfl⟩ := Option.map_eq_some_iff.mp attempted
      exact formed
    | grow length =>
      obtain ⟨⟨previous, grown⟩, found, rfl⟩ := Option.map_eq_some_iff.mp attempted
      exact formed.grow found
    | reset =>
      obtain rfl := Option.some.inj attempted
      exact Fresh.empty.wellFormed
  unfold Memory.perform
  cases attempted : memory.attempt operation with
  | none => exact formed
  | some result => exact kept result attempted

theorem performAll (formed : memory.WellFormed) (operations : List Operation) :
    (operations.foldl Memory.perform memory).WellFormed := by
  induction operations generalizing memory with
  | nil => exact formed
  | cons operation rest ih => exact ih (formed.perform operation)

end WellFormed

/-- Whatever is done to a memory that was empty or laid out, successfully or not: its pages are whole, lie between the
reserved ones and the end of the address space, and can be read or written; its heap starts and ends at page boundaries
of the address space; no page between the top of the heap and its ceiling is backed; and a heap that can still grow
starts above the reserved pages. -/
theorem representation_is_kept {memory : Memory} (fresh : memory.Fresh) (operations : List Operation) :
    let now := operations.foldl perform memory
    (∀ (n : Nat) (page : Page), now.pages[n]? = some page →
      (16 ≤ n ∧ n < 1048576) ∧ (page.access = .read ∨ page.access = .write) ∧ page.bytes.toArray.size = 4096) ∧
    (now.top % 4096 = 0 ∧ now.heapEnd % 4096 = 0) ∧
    (now.top ≤ now.heapEnd ∧ now.heapEnd ≤ 4294967296) ∧
    (∀ n, now.top / 4096 ≤ n → n < now.heapEnd / 4096 → now.pages[n]? = none) ∧
    (now.top < now.heapEnd → 65536 ≤ now.top) := by
  intro now
  have formed : now.WellFormed := fresh.wellFormed.performAll operations
  clear_value now
  obtain ⟨⟨topAligned, endAligned, ordered, unreserved, unbacked⟩, proper, bounded⟩ := formed
  refine ⟨fun n page backed => ?_, ⟨topAligned, endAligned⟩, ⟨ordered, bounded⟩, fun n low high => ?_, unreserved⟩
  · obtain ⟨⟨above, below⟩, usable⟩ := proper n page backed
    refine ⟨⟨above, ?_⟩, usable, page.bytes.size_toArray⟩
    unfold pageSize size at below
    omega
  · unfold pageSize at *
    exact unbacked n (by omega) (by omega)

/-- A memory with a stack of two pages and an empty heap of four. A store crosses into the second page of the stack,
another passes its end and is refused, the heap grows by two pages and then fails to pass its ceiling, and a host call
reads it. -/
theorem representation_is_kept_through_refusals :
    let operations : List Operation :=
      [.store 0x10FFF [1, 2], .store 0x11FFF [1, 2], .grow 5000, .grow 9000, .hostLoad 0x20000 1]
    ∃ memory, memory.Fresh ∧ (operations.foldl perform memory).top = 0x22000 ∧
      (operations.foldl perform memory).pages[0x22]? = none ∧
      ∀ (n : Nat) (page : Page), (operations.foldl perform memory).pages[n]? = some page → 16 ≤ n ∧ n < 1048576 := by
  intro operations
  let steps : List LayoutStep := [.stage .write 0x10000 0x12000 #[7]]
  have bounds : (Layout.build steps 0x20000 0x24000).toOption.map (fun memory =>
      ((operations.foldl perform memory).top, (operations.foldl perform memory).heapEnd)) =
        some (0x22000, 0x24000) := by decide +kernel
  cases built : Layout.build steps 0x20000 0x24000 with
  | error error =>
    rw [built] at bounds
    cases bounds
  | ok memory =>
    rw [built] at bounds
    obtain ⟨top, heapEnd⟩ := Prod.mk.inj (Option.some.inj bounds)
    have fresh : memory.Fresh := .laidOut steps 0x20000 0x24000 memory built
    obtain ⟨pages, -, -, unbacked, -⟩ := representation_is_kept fresh operations
    refine ⟨memory, fresh, top, unbacked 0x22 ?_ ?_, fun n page backed => (pages n page backed).1⟩
    · rw [top]
    · rw [heapEnd]
      decide

end Memory

end MeteredVm
