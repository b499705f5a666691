import MeteredVm.Proofs.Machine.Steps
import MeteredVm.Proofs.Memory.Staging

/-!
The growth of the heap. A request is rounded up to whole pages, and it is granted just as long as the heap stays below
its ceiling. Stores and loads in between change neither the heap nor which pages are backed, so the regions that are
granted lie one behind the other, in pages that nothing was ever staged in, and the number of backed pages keeps count
of them.
-/

set_option autoImplicit false
set_option relaxedAutoImplicit false

namespace MeteredVm

open AddressSpace

structure Region where
  start : Nat
  stop : Nat
deriving DecidableEq, Repr

namespace Region

def Holds (region : Region) (a : Nat) : Prop := region.start ≤ a ∧ a < region.stop

def Disjoint (one other : Region) : Prop := ∀ a, ¬(one.Holds a ∧ other.Holds a)

/-- Regions of whole pages, each of which starts where the one before it stops. -/
inductive Tiles : Nat → Nat → List Region → Prop where
  | nil (place : Nat) : Tiles place place []
  | cons {start middle stop : Nat} {rest : List Region} (aligned : 4096 ∣ start ∧ 4096 ∣ middle)
      (nonempty : start < middle) (others : Tiles middle stop rest) : Tiles start stop (⟨start, middle⟩ :: rest)

namespace Tiles

variable {start middle stop : Nat} {regions others : List Region}

private theorem append (tiles : Tiles start middle regions) (behind : Tiles middle stop others) :
    Tiles start stop (regions ++ others) := by
  induction tiles with
  | nil place => exact behind
  | cons aligned nonempty rest ih => exact .cons aligned nonempty (ih behind)

private theorem le (tiles : Tiles start stop regions) : start ≤ stop := by
  induction tiles with
  | nil place => exact Nat.le_refl _
  | cons aligned nonempty rest ih => exact Nat.le_trans (Nat.le_of_lt nonempty) ih

private theorem dvd (tiles : Tiles start stop regions) : 4096 ∣ stop - start := by
  induction tiles with
  | nil place => exact ⟨0, Nat.sub_self _⟩
  | cons aligned nonempty rest ih =>
    have high := rest.le
    omega

private theorem bounds (tiles : Tiles start stop regions) :
    ∀ region ∈ regions, (4096 ∣ region.start ∧ 4096 ∣ region.stop) ∧ start ≤ region.start ∧ region.stop ≤ stop := by
  induction tiles with
  | nil place => exact nofun
  | cons aligned nonempty rest ih =>
    intro region member
    cases member with
    | head => exact ⟨aligned, Nat.le_refl _, rest.le⟩
    | tail _ member =>
      obtain ⟨whole, low, high⟩ := ih region member
      exact ⟨whole, Nat.le_trans (Nat.le_of_lt nonempty) low, high⟩

private theorem pairwise (tiles : Tiles start stop regions) : regions.Pairwise Disjoint := by
  induction tiles with
  | nil place => exact .nil
  | cons aligned nonempty rest ih =>
    refine .cons (fun region member a both => ?_) ih
    obtain ⟨⟨-, before⟩, ⟨behind, -⟩⟩ := both
    have low := (rest.bounds region member).2.1
    dsimp only at before
    omega

end Tiles

end Region

namespace PageTable

private theorem size_write (pages : PageTable) (address : Nat) (bytes : Array UInt8) :
    (pages.write address bytes).size = pages.size := by
  unfold write
  induction Chunk.split address bytes.size 0 generalizing pages with
  | nil => rfl
  | cons chunk rest ih => rw [List.foldl_cons, ih, writeChunk, Std.ExtTreeMap.size_modify]

end PageTable

namespace Memory

private theorem size_mapZeroed {pages : PageTable} {first count : Nat}
    (fresh : ∀ page, first ≤ page → page < first + count → pages[page]? = none) :
    (mapZeroed pages first count).size = pages.size + count := by
  induction count generalizing pages first with
  | zero => rfl
  | succ count ih =>
    have absent : first ∉ pages := by
      rw [Std.ExtTreeMap.mem_iff_isSome_getElem?, fresh first (Nat.le_refl _) (by omega)]
      exact Bool.false_ne_true
    rw [mapZeroed, ih, Std.ExtTreeMap.size_insertIfNew, if_neg absent]
    · omega
    · intro page low high
      have apart : ¬(compare first page = .eq ∧ first ∉ pages) := by
        rintro ⟨same, -⟩
        rw [Nat.compare_eq_eq] at same
        omega
      rw [Std.ExtTreeMap.getElem?_insertIfNew, if_neg apart]
      exact fresh page (by omega) (by omega)

private theorem ceilToPage_pos {length : UInt32} (nonzero : length ≠ 0) : 0 < ceilToPage length.toNat := by
  have pos : 0 < length.toNat := by
    rw [Nat.pos_iff_ne_zero, ne_eq, ← UInt32.toNat_zero, UInt32.toNat_inj]
    exact nonzero
  exact Nat.lt_of_lt_of_le pos (ceilToPage_bounds length.toNat).1

private theorem mappedPages_grownBy {memory : Memory} (ready : memory.HeapReady) {length : UInt32}
    (room : memory.top + ceilToPage length.toNat ≤ memory.heapEnd) :
    (memory.grownBy length).mappedPages = memory.mappedPages + pageOf (ceilToPage length.toNat) :=
  size_mapZeroed (fresh_of_room ready room)

/-- The region that an operation gains, where it asks for some bytes and is granted them. -/
def granted (memory : Memory) : Operation → List Region
  | .grow length =>
    if length = 0 then []
    else
      match memory.grow length with
      | some (previous, after) => [⟨previous, after.top⟩]
      | none => []
  | _ => []

def grantedBy (memory : Memory) : List Operation → List Region
  | [] => []
  | operation :: rest => memory.granted operation ++ (memory.perform operation).grantedBy rest

/-- What a history makes of the heap: it ends where the regions end that were gained, and these are counted. -/
structure Grew (start : Memory) (regions : List Region) (now : Memory) : Prop where
  heapEnd : now.heapEnd = start.heapEnd
  tiles : Region.Tiles start.top now.top regions
  mapped : now.mappedPages = start.mappedPages + (now.top - start.top) / pageSize

private theorem Grew.refl (memory : Memory) : memory.Grew [] memory where
  heapEnd := rfl
  tiles := .nil _
  mapped := by rw [Nat.sub_self, Nat.zero_div, Nat.add_zero]

private theorem Grew.trans {start middle now : Memory} {regions others : List Region}
    (early : start.Grew regions middle) (late : middle.Grew others now) : start.Grew (regions ++ others) now where
  heapEnd := late.heapEnd.trans early.heapEnd
  tiles := early.tiles.append late.tiles
  mapped := by
    have low := early.tiles.le
    have high := late.tiles.le
    have whole := early.tiles.dvd
    rw [late.mapped, early.mapped]
    unfold pageSize at *
    omega

private theorem pages_of_store {memory : Memory} {address : UInt64} {bytes : List UInt8}
    {outcome : Except MemoryError Memory}
    (stores : ∀ after, outcome = .ok after → memory.store address bytes = .ok after) :
    ∃ pages : PageTable, outcome.toOption.getD memory = { memory with pages } ∧ pages.size = memory.pages.size := by
  cases outcome with
  | error error => exact ⟨memory.pages, rfl, rfl⟩
  | ok after =>
    have stored := stores after rfl
    unfold store at stored
    split at stored
    · cases stored
    · exact ⟨_, (Except.ok.inj stored).symm, PageTable.size_write _ _ _⟩

private theorem perform_eq_of_no_grow (memory : Memory) {operation : Operation} (kept : operation ≠ .reset)
    (other : ∀ length, operation ≠ .grow length) :
    memory.granted operation = [] ∧
      ∃ pages : PageTable, memory.perform operation = { memory with pages } ∧ pages.size = memory.pages.size := by
  have loaded : ∀ found : Option (Array UInt8), (found.map fun _ => memory).getD memory = memory := by
    intro found
    cases found <;> rfl
  cases operation with
  | store address bytes => exact ⟨rfl, pages_of_store fun after stored => stored⟩
  | hostStore address bytes => exact ⟨rfl, pages_of_store fun after stored => store_of_host_store stored⟩
  | load buffer address => exact ⟨rfl, memory.pages, loaded _, rfl⟩
  | hostLoad address length => exact ⟨rfl, memory.pages, loaded _, rfl⟩
  | grow length => exact absurd rfl (other length)
  | reset => exact absurd rfl kept

private theorem grew_grownBy {memory : Memory} (ready : memory.HeapReady) {length : UInt32} (nonzero : length ≠ 0)
    (room : memory.top + ceilToPage length.toNat ≤ memory.heapEnd) :
    memory.Grew [⟨memory.top, memory.top + ceilToPage length.toNat⟩] (memory.grownBy length) where
  heapEnd := rfl
  tiles := by
    have aligned := ready.topAligned
    have rounded := ceilToPage_mod length.toNat
    have pos := ceilToPage_pos nonzero
    refine .cons ?_ ?_ (.nil _)
    all_goals
      unfold pageSize at *
      omega
  mapped := by
    rw [mappedPages_grownBy ready room, grownBy, Nat.add_sub_cancel_left]
    rfl

private theorem grew_perform {memory : Memory} (ready : memory.HeapReady) {operation : Operation}
    (kept : operation ≠ .reset) :
    memory.Grew (memory.granted operation) (memory.perform operation) := by
  by_cases request : ∃ length, operation = .grow length
  · obtain ⟨length, rfl⟩ := request
    rw [granted, perform, attempt, grow_of_ready ready]
    split_ifs with nothing room room
    · subst nothing
      exact .refl memory
    · exact .refl memory
    · exact grew_grownBy ready nothing room
    · exact .refl memory
  · obtain ⟨gained, pages, performed, size⟩ := memory.perform_eq_of_no_grow kept fun length same =>
      request ⟨length, same⟩
    rw [gained, performed]
    refine ⟨rfl, .nil _, ?_⟩
    rw [Nat.sub_self, Nat.zero_div, Nat.add_zero]
    exact size

private theorem grew_performAll {memory : Memory} (formed : memory.WellFormed) {operations : List Operation}
    (kept : .reset ∉ operations) : memory.Grew (memory.grantedBy operations) (operations.foldl perform memory) := by
  induction operations generalizing memory with
  | nil => exact .refl memory
  | cons operation rest ih =>
    -- what the first operation gains ends where the rest begin to gain
    have first := grew_perform formed.toHeapReady (List.ne_of_not_mem_cons kept).symm
    exact first.trans (ih (formed.perform operation) (List.not_mem_of_not_mem_cons kept))

private theorem grow_verdict {memory : Memory} (ready : memory.HeapReady) (length : UInt32) :
    let amount := ceilToPage length.toNat
    ((∃ previous after, memory.grow length = some (previous, after)) ↔ memory.top + amount ≤ memory.heapEnd) ∧
      (∀ previous after, memory.grow length = some (previous, after) →
        previous = memory.top ∧ after.top = memory.top + amount ∧ after.heapEnd = memory.heapEnd ∧
          ∀ page, if memory.top ≤ page * pageSize ∧ page * pageSize < memory.top + amount then
              memory.pages[page]? = none ∧ after.pages[page]? = some (Page.zeroed .write) ∧
                after.pageAccess page = .write
            else after.pages[page]? = memory.pages[page]?) ∧
      (memory.grow length = none → memory.perform (.grow length) = memory) := by
  intro amount
  refine ⟨?_, fun previous after grown => ?_, fun refused => ?_⟩
  · simp only [grow_eq_some_iff ready]
    exact ⟨fun ⟨_, _, room, _⟩ => room, fun room => ⟨_, _, room, rfl, rfl⟩⟩
  · obtain ⟨room, rfl, rfl⟩ := (grow_eq_some_iff ready).mp grown
    refine ⟨rfl, rfl, rfl, fun page => ?_⟩
    have table := getElem?_grownBy ready room page
    split
    · rename_i inside
      rw [if_pos inside] at table
      have unreserved := ready.unreserved (by omega)
      have usable : ¬page < reservedPages := by
        unfold reservedBytes pageSize at *
        unfold reservedPages
        omega
      refine ⟨ready.unbacked page inside.1 (Nat.lt_of_lt_of_le inside.2 room), table, ?_⟩
      rw [pageAccess_eq, if_neg usable, table]
      rfl
    · rename_i outside
      rw [if_neg outside] at table
      exact table
  · rw [perform, attempt, refused]
    rfl

private theorem Grew.unbacked {start now : Memory} {regions : List Region} (grew : start.Grew regions now)
    (ready : start.HeapReady) (ordered : now.top ≤ now.heapEnd) {region : Region} (member : region ∈ regions) {a : Nat}
    (held : region.Holds a) : start.pages[pageOf a]? = none := by
  obtain ⟨-, low, high⟩ := grew.tiles.bounds region member
  obtain ⟨from_, until_⟩ := held
  have aligned := ready.topAligned
  have ceiling := grew.heapEnd
  apply ready.unbacked
  all_goals
    unfold pageOf pageSize at *
    omega

private theorem previous_of_grow {memory after : Memory} (formed : memory.WellFormed) {length : UInt32}
    (nonzero : length ≠ 0) {previous : Nat} (grown : memory.grow length = some (previous, after)) :
    previous = memory.top ∧ 0 < previous ∧ previous < UInt64.size := by
  obtain ⟨room, rfl, -⟩ := (grow_eq_some_iff formed.toHeapReady).mp grown
  have pos := ceilToPage_pos nonzero
  have unreserved := formed.unreserved (by omega)
  have bounded := formed.bounded
  refine ⟨rfl, Nat.lt_of_lt_of_le (by decide) unreserved, ?_⟩
  unfold size at bounded
  unfold UInt64.size
  omega

end Memory

private theorem Machine.growHeap_answers {machine : Machine} (formed : machine.memory.WellFormed) (dst : Reg)
    {request : UInt64} (nonzero : request ≠ 0) (next : UInt32) :
    let after := machine.growHeap dst request next
    let answer := after.registers.get dst
    (answer = 0 ↔ 4294967296 ≤ request.toNat ∨ machine.memory.grow request.toUInt32 = none) ∧
      (answer = 0 → after.memory = machine.memory) ∧
      (answer ≠ 0 → answer.toNat = machine.memory.top ∧
        machine.memory.grow request.toUInt32 = some (machine.memory.top, after.memory)) := by
  unfold growHeap
  by_cases fits : request.toNat < size
  · dsimp only
    rw [if_pos fits]
    unfold size at fits
    have below : ¬4294967296 ≤ request.toNat := Nat.not_le_of_lt fits
    cases grown : machine.memory.grow request.toUInt32 with
    | none => exact ⟨iff_of_true (Registers.get_set_self _ _ _) (Or.inr rfl), fun _ => rfl,
        fun other => absurd (Registers.get_set_self _ _ _) other⟩
    | some result =>
      obtain ⟨previous, memory⟩ := result
      have asked : request.toUInt32 ≠ 0 := by
        intro zero
        have number := congrArg UInt32.toNat zero
        rw [UInt64.toNat_toUInt32, Nat.mod_eq_of_lt fits] at number
        exact nonzero (UInt64.toNat_inj.mp number)
      obtain ⟨rfl, pos, small⟩ := Memory.previous_of_grow formed asked grown
      have read : (UInt64.ofNat machine.memory.top).toNat = machine.memory.top := UInt64.toNat_ofNat_of_lt' small
      have answered : ((machine.registers.set dst (UInt64.ofNat machine.memory.top)).get dst) ≠ 0 := by
        intro zero
        rw [Registers.get_set_self] at zero
        rw [zero] at read
        exact absurd read (Nat.ne_of_lt pos)
      refine ⟨iff_of_false answered ?_, fun zero => absurd zero answered, fun _ => ⟨?_, rfl⟩⟩
      · rintro (wide | refused)
        · exact below wide
        · cases refused
      · exact (congrArg UInt64.toNat (Registers.get_set_self _ _ _)).trans read
  · dsimp only
    rw [if_neg fits]
    exact ⟨iff_of_true (Registers.get_set_self _ _ _) (Or.inl (Nat.not_lt.mp fits)), fun _ => rfl,
      fun other => absurd (Registers.get_set_self _ _ _) other⟩

namespace Memory

/-- The heap of a memory that was laid out, after any stores, loads and requests. A request is granted just if the heap,
longer by whole pages, stays below its ceiling; it then gains exactly these pages, blank and writable, and a refused
request changes nothing. The regions that were granted tile the heap up to its top in whole pages, apart from each other
and from all that was staged, and the backed pages are those staged and those granted. A program that asks for some
bytes is answered with zero if they are refused or too many for 32 bits, and otherwise with the old top. -/
theorem heap_grows_by_whole_pages {steps : List LayoutStep} {layout : Layout} {heapStart heapEnd : Nat}
    {memory : Memory} (applied : Layout.empty.applyAll steps = .ok layout)
    (closed : layout.finish heapStart heapEnd = .ok memory) (operations : List Operation)
    (kept : .reset ∉ operations) :
    let now := operations.foldl perform memory
    let regions := memory.grantedBy operations
    (∀ length : UInt32,
      let amount := (length.toNat + 4095) / 4096 * 4096
      ((∃ previous after, now.grow length = some (previous, after)) ↔ now.top + amount ≤ heapEnd) ∧
      (∀ previous after, now.grow length = some (previous, after) →
        previous = now.top ∧ after.top = now.top + amount ∧ after.heapEnd = heapEnd ∧
        ∀ page, if now.top ≤ page * 4096 ∧ page * 4096 < now.top + amount then
            now.pages[page]? = none ∧ after.pages[page]? = some (Page.zeroed .write) ∧ after.pageAccess page = .write
          else after.pages[page]? = now.pages[page]?) ∧
      (now.grow length = none → now.perform (.grow length) = now)) ∧
    ((∀ region ∈ regions, 4096 ∣ region.start ∧ 4096 ∣ region.stop) ∧ Region.Tiles heapStart now.top regions ∧
      regions.Pairwise Region.Disjoint ∧
      ∀ region ∈ regions, ∀ a, region.Holds a → ¬Layout.IsStaged steps a) ∧
    now.mappedPages = layout.pages.size + (now.top - heapStart) / 4096 ∧
    ∀ (machine : Machine) (dst src : Reg) (next : UInt32), machine.memory = now → machine.status = .continuing →
      decode machine.program machine.pc = .ok (.sbrk dst src, next) →
      (machine.pay machine.instructionGas.toUInt64).gas.isOverdrawn = false → machine.registers.get src ≠ 0 →
      let request := machine.registers.get src
      let answer := machine.step.registers.get dst
      (answer = 0 ↔ 4294967296 ≤ request.toNat ∨ now.grow request.toUInt32 = none) ∧
        (answer = 0 → machine.step.memory = now) ∧
        (answer ≠ 0 → answer.toNat = now.top ∧ now.grow request.toUInt32 = some (now.top, machine.step.memory)) := by
  intro now regions
  have described : Layout.Describes steps layout := Layout.Describes.empty.applyAll applied
  have built : Layout.build steps heapStart heapEnd = .ok memory := by
    rw [Layout.build, applied]
    exact closed
  have formed : memory.WellFormed := (Fresh.laidOut steps heapStart heapEnd memory built).wellFormed
  have nowFormed : now.WellFormed := formed.performAll operations
  have grew : memory.Grew regions now := grew_performAll formed kept
  obtain ⟨-, rfl⟩ := Layout.finish_eq_ok_iff.mp closed
  have ceiling : now.heapEnd = heapEnd := grew.heapEnd
  clear_value now regions
  refine ⟨fun length => ?_, ⟨fun region member => (grew.tiles.bounds region member).1, grew.tiles, grew.tiles.pairwise,
    fun region member a held staged => ?_⟩, grew.mapped, ?_⟩
  · rw [← ceiling]
    exact grow_verdict nowFormed.toHeapReady length
  · have unbacked := grew.unbacked formed.toHeapReady nowFormed.ordered member held
    rw [← described.pageOf_mem_iff, Std.ExtTreeMap.mem_iff_isSome_getElem?, unbacked] at staged
    cases staged
  · rintro machine dst src next rfl running decoded paid nonzero
    have stepped := Machine.step_of_affordable running decoded paid
    intro request answer
    have paidFormed : (machine.pay machine.instructionGas.toUInt64).memory.WellFormed := nowFormed
    have answers := Machine.growHeap_answers paidFormed dst nonzero next
    rw [show answer = (machine.step.registers.get dst) from rfl, stepped]
    exact answers

/-- A machine about to ask for as much more of its heap as all of its registers say. -/
def asking (request : UInt64) (memory : Memory) : Machine :=
  (Machine.idle 1).reset #[101, 0x43] 0 5 (some (Registers.ofFn fun _ => request)) (some memory)

private theorem asking_runs (request : UInt64) (memory : Memory) :
    (asking request memory).memory = memory ∧ (asking request memory).status = .continuing ∧
      decode (asking request memory).program (asking request memory).pc = .ok (.sbrk 3 4, 2) ∧
      ((asking request memory).pay (asking request memory).instructionGas.toUInt64).gas.isOverdrawn = false ∧
      (asking request memory).registers.get 4 = request := by
  have decoded : decode #[101, 0x43] 0 = .ok (.sbrk 3 4, 2) := by decide +kernel
  exact ⟨rfl, rfl, decoded, rfl, Registers.get_ofFn _ _⟩

/-- A heap of four pages behind a stack of two. Two of its pages are granted, a request for nothing gains no region and
one for three more pages is refused; a program that asks for a byte is then answered with the top, and one that asks for
more bytes than 32 bits can count is answered with zero. -/
theorem heap_grows_by_whole_pages_between_stores :
    let steps : List LayoutStep := [.stage .write 0x10000 0x12000 #[7]]
    let operations : List Operation :=
      [.grow 5000, .store 0x20FFF [1, 2], .grow 0, .grow 9000, .hostLoad 0x20000 1]
    ∃ layout memory, Layout.empty.applyAll steps = .ok layout ∧ layout.finish 0x20000 0x24000 = .ok memory ∧
      let now := operations.foldl perform memory
      memory.grantedBy operations = [⟨0x20000, 0x22000⟩] ∧ now.perform (.grow 9000) = now ∧ now.mappedPages = 4 ∧
        (∀ a, 0x20000 ≤ a → a < 0x22000 → ¬Layout.IsStaged steps a) ∧
        ((asking 1 now).step.registers.get 3).toNat = 0x22000 ∧
        (asking 0x100000001 now).step.registers.get 3 = 0 := by
  intro steps operations
  let layout : Layout := ⟨Layout.insertPages ∅ .write #[7] 0x10 0 2⟩
  let memory : Memory := ⟨layout.pages, 0x20000, 0x24000⟩
  have applied : Layout.empty.applyAll steps = .ok layout := by
    have staged : Layout.empty.stage .write 0x10000 0x12000 #[7] = .ok layout :=
      Layout.stage_eq_ok_iff.mpr ⟨by decide, by decide, by decide, by decide, by decide +kernel, rfl⟩
    rw [Layout.applyAll, Layout.apply, staged]
    rfl
  have closed : layout.finish 0x20000 0x24000 = .ok memory := Layout.finish_eq_ok_iff.mpr ⟨by decide +kernel, rfl⟩
  have top : (operations.foldl perform memory).top = 0x22000 := by decide +kernel
  have granted : memory.grantedBy operations = [⟨0x20000, 0x22000⟩] := by decide +kernel
  have count : layout.pages.size = 2 := by decide +kernel
  have law := heap_grows_by_whole_pages applied closed operations (by simp [operations])
  refine ⟨layout, memory, applied, closed, ?_⟩
  clear_value layout memory
  obtain ⟨requests, ⟨-, -, -, apart⟩, mapped, asks⟩ := law
  rw [granted] at apart
  generalize operations.foldl perform memory = now at top requests mapped asks ⊢
  have full : now.grow 9000 = none := by
    rw [Option.eq_none_iff_forall_ne_some]
    intro result grown
    have room := (requests 9000).1.mp ⟨_, _, grown⟩
    rw [top] at room
    exact absurd room (by decide)
  obtain ⟨previous, after, grown⟩ := (requests 1).1.mpr (by rw [top]; decide)
  obtain ⟨holds, runs, decoded, paid, read⟩ := asking_runs 1 now
  have one := asks _ 3 4 2 holds runs decoded paid (by rw [read]; decide)
  rw [read] at one
  obtain ⟨holds, runs, decoded, paid, read⟩ := asking_runs 0x100000001 now
  have wide := asks _ 3 4 2 holds runs decoded paid (by rw [read]; decide)
  rw [read] at wide
  refine ⟨granted, (requests 9000).2.2 full, ?_, fun a low high => ?_, ?_, wide.1.mpr (Or.inl (by decide))⟩
  · rw [mapped, count, top]
  · exact apart ⟨0x20000, 0x22000⟩ (List.mem_singleton_self _) a ⟨low, high⟩
  · rw [← top]
    refine (one.2.2 fun zero => ?_).1
    rcases one.1.mp zero with wide | refused
    · exact absurd wide (by decide)
    · cases grown.symm.trans refused

end Memory

end MeteredVm
