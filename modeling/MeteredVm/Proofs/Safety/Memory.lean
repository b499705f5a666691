import MeteredVm.Proofs.Memory.Representation
import MeteredVm.Proofs.Safety.Checks

/-!
Memory with every operation on its way checked: the arithmetic on addresses and page numbers, the parts of pages and of
buffers that are copied, and that each page that is copied from or to is there as a whole. The main statements say that
no access to a memory crashes, whatever the address, and that no growth of a heap does, if the memory is well-formed.
-/

set_option autoImplicit false
set_option relaxedAutoImplicit false

namespace MeteredVm

open AddressSpace Checked

namespace Chunk.Checked

def startingAt (start length offset : Nat) : Except Crash Chunk := do
  let address ← add UInt64.size start offset
  let page ← narrow UInt32.size (pageOf address)
  let inPage := address % pageSize
  let room ← subtract pageSize inPage
  let left ← subtract length offset
  return ⟨page, inPage, offset, min room left⟩

def split (start length offset : Nat) : Except Crash (List Chunk) :=
  if offset < length then
    match startingAt start length offset with
    | .error crash => .error crash
    | .ok chunk =>
      if 0 < chunk.length then
        match add UInt64.size offset chunk.length with
        | .error crash => .error crash
        | .ok _ => do
          let rest ← split start length (offset + chunk.length)
          return chunk :: rest
      else .error .stalled
  else .ok []
termination_by length - offset

variable {start length offset : Nat}

private theorem startingAt_eq (inside : offset < length) (fits : start + length ≤ size) :
    startingAt start length offset = .ok (.startingAt start length offset) := by
  unfold size at fits
  have address : start + offset < UInt64.size := by
    unfold UInt64.size
    omega
  have page : pageOf (start + offset) < UInt32.size := by
    unfold pageOf pageSize UInt32.size
    omega
  have inPage : (start + offset) % pageSize ≤ pageSize := Nat.le_of_lt (Nat.mod_lt _ (by decide))
  rw [startingAt, add_eq address, ok_bind, narrow_eq page, ok_bind]
  dsimp only
  rw [subtract_eq inPage, ok_bind, subtract_eq (Nat.le_of_lt inside), ok_bind]
  rfl

private theorem split_eq (fits : 0 < length → start + length ≤ size) (offset : Nat) :
    split start length offset = .ok (Chunk.split start length offset) := by
  induction offset using Chunk.split.induct start length with
  | case1 offset more ih =>
    have inAddressSpace := fits (by omega)
    obtain ⟨pos, -, within⟩ := Chunk.startingAt_bounds start more
    have next : offset + (Chunk.startingAt start length offset).length < UInt64.size := by
      unfold size at inAddressSpace
      unfold UInt64.size
      omega
    have parts : Chunk.split start length offset = Chunk.startingAt start length offset ::
        Chunk.split start length (offset + (Chunk.startingAt start length offset).length) := by
      rw [Chunk.split, if_pos more]
    rw [split, if_pos more, startingAt_eq more inAddressSpace, parts]
    simp only [pos, if_true, add_eq next, ih, ok_bind]
    rfl
  | case2 offset done => rw [split, if_neg done, Chunk.split, if_neg done]

end Chunk.Checked

private theorem Chunk.exists_of_mem_split {start length origin : Nat} {chunk : Chunk}
    (member : chunk ∈ split start length origin) :
    ∃ offset < length, chunk = startingAt start length offset := by
  induction origin using Chunk.split.induct start length with
  | case1 origin more ih =>
    rw [split, if_pos more] at member
    rcases List.mem_cons.mp member with first | later
    · exact ⟨origin, more, first⟩
    · exact ih later
  | case2 origin done =>
    rw [split, if_neg done] at member
    cases member

private theorem Page.slice_eq_extract (page : Page) {offset length : Nat} (inside : offset + length ≤ pageSize) :
    page.slice offset length = (page.bytes.toArray.extract offset (offset + length)).toList := by
  apply List.ext_getElem?
  intro i
  by_cases here : i < length
  · have reduced : (offset + i) % pageSize = offset + i := Nat.mod_eq_of_lt (by omega)
    have byte := page.getElem?_bytes (offset + i)
    rw [reduced] at byte
    have below : i < min (offset + length) page.bytes.toArray.size - offset := by
      rw [Vector.size_toArray]
      unfold pageSize at inside
      omega
    rw [getElem?_slice page here, Array.getElem?_toList, Array.getElem?_extract, if_pos below, byte]
  · have missing : (page.slice offset length)[i]? = none := by
      rw [List.getElem?_eq_none_iff, length_slice]
      omega
    have above : ¬i < min (offset + length) page.bytes.toArray.size - offset := by omega
    rw [missing, Array.getElem?_toList, Array.getElem?_extract, if_neg above]

/-- A chunk can be copied between its page and a buffer of a size: the page is there, and both have its bytes. -/
structure Chunk.Copies (chunk : Chunk) (pages : PageTable) (count : Nat) : Prop where
  backed : chunk.page ∈ pages
  inPage : chunk.inPage + chunk.length ≤ pageSize
  inBuffer : chunk.offset + chunk.length ≤ count
  counted : count < UInt64.size

namespace Chunk.Copies

variable {chunk : Chunk} {pages : PageTable} {count start offset : Nat}

private theorem startingAt (inside : offset < count) (fits : start + count ≤ size)
    (backed : pageOf (start + offset) ∈ pages) :
    (Chunk.startingAt start count offset).Copies pages count where
  backed := backed
  inPage := (Chunk.startingAt_bounds start inside).2.1
  inBuffer := (Chunk.startingAt_bounds start inside).2.2
  counted := by
    unfold size at fits
    unfold UInt64.size
    omega

private theorem exists_page (copies : chunk.Copies pages count) : ∃ page, pages[chunk.page]? = some page :=
  Option.isSome_iff_exists.mp (Std.ExtTreeMap.mem_iff_isSome_getElem?.mp copies.backed)

private theorem le_size (copies : chunk.Copies pages count) (page : Page) :
    chunk.inPage + chunk.length ≤ page.bytes.toArray.size := by
  rw [Vector.size_toArray]
  exact copies.inPage

private theorem stop_lt (copies : chunk.Copies pages count) :
    chunk.offset + chunk.length < UInt64.size ∧ chunk.inPage + chunk.length < UInt64.size := by
  obtain ⟨-, inPage, inBuffer, counted⟩ := copies
  refine ⟨Nat.lt_of_le_of_lt inBuffer counted, ?_⟩
  unfold pageSize at inPage
  unfold UInt64.size
  omega

end Chunk.Copies

namespace PageTable.Checked

def writeChunk (bytes : Array UInt8) (pages : PageTable) (chunk : Chunk) : Except Crash PageTable :=
  match pages[chunk.page]? with
  | none => .error .page
  | some page => do
    let stop ← add UInt64.size chunk.offset chunk.length
    let stopInPage ← add UInt64.size chunk.inPage chunk.length
    let source ← slice bytes chunk.offset stop
    let contents ← copyInto page.bytes.toArray chunk.inPage stopInPage source
    if whole : contents.size = 4096 then return pages.insert chunk.page { page with bytes := ⟨contents, whole⟩ }
    else throw .page

def readChunk (pages : PageTable) (buffer : Array UInt8) (chunk : Chunk) : Except Crash (Array UInt8) :=
  match pages[chunk.page]? with
  | none => .error .page
  | some page => do
    let stop ← add UInt64.size chunk.offset chunk.length
    let stopInPage ← add UInt64.size chunk.inPage chunk.length
    let source ← slice page.bytes.toArray chunk.inPage stopInPage
    copyInto buffer chunk.offset stop source

variable {pages : PageTable} {buffer : Array UInt8} {chunk : Chunk}

private theorem writeChunk_eq (copies : chunk.Copies pages buffer.size) :
    writeChunk buffer pages chunk = .ok (pages.writeChunk buffer chunk) := by
  obtain ⟨page, found⟩ := copies.exists_page
  have stop := copies.stop_lt
  have source := slice_eq (Nat.le_add_right chunk.offset chunk.length) copies.inBuffer
  have sourceSize : (buffer.extract chunk.offset (chunk.offset + chunk.length)).size = chunk.length := by
    have inBuffer := copies.inBuffer
    rw [Array.size_extract]
    omega
  have contents := copyInto_eq (copies.le_size page) (by rw [sourceSize])
  have whole : (overwrite page.bytes.toArray chunk.inPage
      (buffer.extract chunk.offset (chunk.offset + chunk.length)).toList).size = 4096 := by
    rw [size_overwrite, Vector.size_toArray]
  simp only [writeChunk, found, add_eq stop.1, add_eq stop.2, source, contents, ok_bind, whole, dite_true]
  -- the table is updated in two different ways, so it is compared page by page
  refine congrArg Except.ok (Std.ExtTreeMap.ext_getElem? fun other => ?_)
  rw [getElem?_writeChunk, Std.ExtTreeMap.getElem?_insert]
  by_cases same : chunk.page = other
  · subst same
    rw [if_pos (Nat.compare_eq_eq.mpr rfl), if_pos rfl, found]
    rfl
  · have apart : ¬compare chunk.page other = .eq := by simpa using same
    rw [if_neg apart, if_neg same]

private theorem readChunk_eq (copies : chunk.Copies pages buffer.size) :
    readChunk pages buffer chunk = .ok (pages.readChunk buffer chunk) := by
  obtain ⟨page, found⟩ := copies.exists_page
  have stop := copies.stop_lt
  have source := slice_eq (Nat.le_add_right chunk.inPage chunk.length) (copies.le_size page)
  have sourceSize : (page.bytes.toArray.extract chunk.inPage (chunk.inPage + chunk.length)).size = chunk.length := by
    have room := copies.le_size page
    rw [Array.size_extract]
    omega
  have contents := copyInto_eq copies.inBuffer (by rw [sourceSize])
  simp only [readChunk, found, add_eq stop.1, add_eq stop.2, source, contents, ok_bind, PageTable.readChunk,
    page.slice_eq_extract copies.inPage]

end PageTable.Checked

namespace Memory.Checked

def accessFault? (memory : Memory) (use : Use) (start : UInt32) (stop : UInt64) :
    Except Crash (Option MemoryError) := do
  let first := pageOf start.toNat
  let lastByte ← subtract stop.toNat 1
  let last ← narrow UInt32.size (pageOf lastByte)
  match memory.firstDenied? use first (last + 1 - first) with
  | none => return none
  | some page =>
    let address ← multiply UInt32.size page pageSize
    return some (.pageFault (max address start.toNat))

def fault? (memory : Memory) (use : Use) (address length : UInt64) : Except Crash (Option MemoryError) :=
  if length = 0 then .ok none
  else
    match checkBounds address length with
    | .error error => .ok (some error)
    | .ok (start, stop) => accessFault? memory use start stop

def isUsable (memory : Memory) (use : Use) (address length : UInt64) : Except Crash Bool := do
  let fault ← fault? memory use address length
  return fault.isNone

def store (memory : Memory) (address : UInt64) (bytes : Array UInt8) : Except Crash (Except MemoryError Memory) := do
  match ← fault? memory .write address (UInt64.ofNat bytes.size) with
  | some error => return .error error
  | none =>
    let chunks ← Chunk.Checked.split address.toUInt32.toNat bytes.size 0
    let pages ← chunks.foldlM (PageTable.Checked.writeChunk bytes) memory.pages
    return .ok { memory with pages }

def loadInto (memory : Memory) (buffer : Array UInt8) (address : UInt64) :
    Except Crash (Except MemoryError (Array UInt8)) := do
  match ← fault? memory .read address (UInt64.ofNat buffer.size) with
  | some error => return .error error
  | none =>
    let chunks ← Chunk.Checked.split address.toUInt32.toNat buffer.size 0
    let filled ← chunks.foldlM (PageTable.Checked.readChunk memory.pages) buffer
    return .ok filled

def pageCount (length : Nat) : Except Crash Nat :=
  if length % pageSize = 0 then .ok (length / pageSize) else add UInt64.size (length / pageSize) 1

def alignToPage (address : Nat) : Except Crash Nat := do
  let count ← pageCount address
  multiply UInt64.size count pageSize

def grow (memory : Memory) (length : UInt32) : Except Crash (Option (Nat × Memory)) :=
  if length = 0 then .ok (some (memory.top, memory))
  else do
    let newTop ← alignToPage (← add UInt64.size memory.top length.toNat)
    if memory.heapEnd < newTop then return none
    else
      let first ← narrow UInt32.size (pageOf memory.top)
      let last ← narrow UInt32.size (pageOf newTop)
      return some (memory.top, { memory with pages := mapZeroed memory.pages first (last - first), top := newTop })

variable {memory : Memory}

theorem fault?_eq (memory : Memory) (use : Use) (address length : UInt64) :
    fault? memory use address length = .ok (memory.fault? use address length) := by
  unfold fault? Memory.fault?
  by_cases nothing : length = 0
  · rw [if_pos nothing, if_pos nothing]
  rw [if_neg nothing, if_neg nothing]
  have nonempty := Memory.toNat_pos_of_ne_zero nothing
  rcases Nat.lt_or_ge size (address.toNat + length.toNat) with passes | fits
  · rw [checkBounds_of_passes passes]
  obtain ⟨start, stop, checked, -, stopEq⟩ := checkBounds_of_fits nonempty fits
  rw [checked]
  dsimp only
  have positive : 1 ≤ stop.toNat := by omega
  have last : pageOf (stop.toNat - 1) < UInt32.size := by
    unfold pageOf pageSize UInt32.size
    unfold size at fits
    omega
  rw [accessFault?, subtract_eq positive, ok_bind, narrow_eq last, ok_bind, Memory.accessFault?]
  cases denied : memory.firstDenied? use (pageOf start.toNat) (pageOf (stop.toNat - 1) + 1 - pageOf start.toNat) with
  | none => rfl
  | some page =>
    -- the page that denies the use is one of the range, so its address is one of 32 bits
    obtain ⟨⟨low, high⟩, -⟩ := (memory.firstDenied?_eq_some_iff ..).mp denied
    have product : page * pageSize < UInt32.size := by
      unfold pageOf pageSize UInt32.size at *
      unfold size at fits
      omega
    simp only [multiply_eq product, ok_bind]
    rfl

private theorem range_of_faultless {use : Use} {address : UInt64} {count : Nat} (counted : count < UInt64.size)
    (faultless : memory.fault? use address (UInt64.ofNat count) = none) (pos : 0 < count) :
    address.toUInt32.toNat + count ≤ size ∧
      ∀ offset < count, pageOf (address.toUInt32.toNat + offset) ∈ memory.pages := by
  have granted := (memory.fault?_eq_none_iff use address _).mp faultless
  rw [UInt64.toNat_ofNat_of_lt' counted] at granted
  obtain ⟨fits, allowed⟩ := granted.resolve_left (by omega)
  rw [toNat_toUInt32_of_fits pos fits]
  exact ⟨fits, fun offset inside => mem_of_flat_allows (allowed _ (by omega) (by omega))⟩

theorem store_eq {address : UInt64} {bytes : Array UInt8} (counted : bytes.size < UInt64.size) :
    store memory address bytes = .ok (memory.store address bytes.toList) := by
  rw [store, fault?_eq, ok_bind, Memory.store, Array.length_toList]
  cases faultless : memory.fault? .write address (UInt64.ofNat bytes.size) with
  | some error => rfl
  | none =>
    have range := range_of_faultless counted faultless
    have rounds : (Chunk.split address.toUInt32.toNat bytes.size 0).foldlM (PageTable.Checked.writeChunk bytes)
        memory.pages = .ok (memory.pages.write address.toUInt32.toNat bytes) := by
      refine foldlM_eq (fun pages => ∀ offset < bytes.size, pageOf (address.toUInt32.toNat + offset) ∈ pages) ?_ ?_
      · intro pages backed chunk member
        obtain ⟨offset, inside, rfl⟩ := Chunk.exists_of_mem_split member
        have fits := (range (Nat.zero_lt_of_lt inside)).1
        refine ⟨PageTable.Checked.writeChunk_eq (.startingAt inside fits (backed offset inside)),
          fun other within => ?_⟩
        rw [PageTable.mem_writeChunk]
        exact backed other within
      · intro offset inside
        exact (range (Nat.zero_lt_of_lt inside)).2 offset inside
    simp only [Chunk.Checked.split_eq fun pos => (range pos).1, rounds, ok_bind, Array.toArray_toList]
    rfl

theorem loadInto_eq {buffer : Array UInt8} {address : UInt64} (counted : buffer.size < UInt64.size) :
    loadInto memory buffer address = .ok (memory.loadInto buffer address) := by
  rw [loadInto, fault?_eq, ok_bind, Memory.loadInto]
  cases faultless : memory.fault? .read address (UInt64.ofNat buffer.size) with
  | some error => rfl
  | none =>
    have range := range_of_faultless counted faultless
    have rounds : (Chunk.split address.toUInt32.toNat buffer.size 0).foldlM
        (PageTable.Checked.readChunk memory.pages) buffer =
          .ok (memory.pages.read address.toUInt32.toNat buffer) := by
      refine foldlM_eq (fun filled => filled.size = buffer.size) ?_ rfl
      intro filled same chunk member
      obtain ⟨offset, inside, rfl⟩ := Chunk.exists_of_mem_split member
      obtain ⟨fits, backed⟩ := range (Nat.zero_lt_of_lt inside)
      have present := backed offset inside
      rw [← same] at inside fits ⊢
      exact ⟨PageTable.Checked.readChunk_eq (.startingAt inside fits present), memory.pages.size_readChunk _ _⟩
    simp only [Chunk.Checked.split_eq fun pos => (range pos).1, rounds, ok_bind]
    rfl

private theorem alignToPage_eq {address : Nat} (fits : ceilToPage address < UInt64.size) :
    alignToPage address = .ok (ceilToPage address) := by
  have count : pageCount address = .ok ((address + (pageSize - 1)) / pageSize) := by
    unfold pageCount
    unfold ceilToPage at fits
    unfold pageSize UInt64.size at *
    by_cases whole : address % 4096 = 0
    · have same : address / 4096 = (address + (4096 - 1)) / 4096 := by omega
      rw [if_pos whole, same]
    · have more : address / 4096 + 1 = (address + (4096 - 1)) / 4096 := by omega
      rw [if_neg whole, add_eq (by omega), more]
  rw [alignToPage, count, ok_bind, multiply_eq fits]
  rfl

theorem grow_eq (formed : memory.WellFormed) (length : UInt32) : grow memory length = .ok (memory.grow length) := by
  have ordered := formed.ordered
  have bounded := formed.bounded
  have small := length.toNat_lt
  unfold size at bounded
  unfold grow Memory.grow
  by_cases nothing : length = 0
  · rw [if_pos nothing, if_pos nothing]
  have stop : memory.top + length.toNat < UInt64.size := by
    unfold UInt64.size
    omega
  have rounded : ceilToPage (memory.top + length.toNat) < UInt64.size := by
    have high := (ceilToPage_bounds (memory.top + length.toNat)).2
    unfold pageSize at high
    unfold UInt64.size
    omega
  rw [if_neg nothing, if_neg nothing, add_eq stop, ok_bind, alignToPage_eq rounded, ok_bind]
  dsimp only
  generalize ceilToPage (memory.top + length.toNat) = newTop
  by_cases full : memory.heapEnd < newTop
  · rw [if_pos full, if_pos full]
    rfl
  · have pages : pageOf memory.top < UInt32.size ∧ pageOf newTop < UInt32.size := by
      unfold pageOf pageSize UInt32.size
      omega
    rw [if_neg full, if_neg full, narrow_eq pages.1, ok_bind, narrow_eq pages.2]
    rfl

end Memory.Checked

namespace Memory.Host.Checked

def store (memory : Memory) (address : UInt64) (bytes : Array UInt8) : Except Crash (Except MemoryError Memory) :=
  if bytes.isEmpty then .ok (.ok memory)
  else
    match checkRange address (UInt64.ofNat bytes.size) with
    | .error error => .ok (.error error)
    | .ok () => Memory.Checked.store memory address bytes

def load (memory : Memory) (address length : UInt64) : Except Crash (Except MemoryError (Array UInt8)) := do
  let buffer ← allocate length.toNat
  if buffer.isEmpty then return .ok buffer
  else
    match checkRange address (UInt64.ofNat buffer.size) with
    | .error error => return .error error
    | .ok () => Memory.Checked.loadInto memory buffer address

def isUsable (memory : Memory) (use : Use) (address length : UInt64) : Except Crash Bool :=
  if length = 0 then .ok true
  else if (rangeEnd? address length).isSome then Memory.Checked.isUsable memory use address length
  else .ok false

variable {memory : Memory}

theorem store_eq {address : UInt64} {bytes : Array UInt8} (counted : bytes.size < UInt64.size) :
    store memory address bytes = .ok (Host.store memory address bytes.toList) := by
  unfold store Host.store
  by_cases nothing : bytes.isEmpty = true
  · have same : bytes.toList.isEmpty = true := by rwa [Array.isEmpty_toList]
    rw [if_pos nothing, if_pos same]
    rfl
  · have same : ¬bytes.toList.isEmpty = true := by rwa [Array.isEmpty_toList]
    rw [if_neg nothing, if_neg same, Array.length_toList]
    cases checkRange address (UInt64.ofNat bytes.size) with
    | error error => rfl
    | ok within => exact Memory.Checked.store_eq counted

theorem load_eq {address length : UInt64} (small : length.toNat < 9223372036854775808) :
    load memory address length = .ok (Host.load memory address length) := by
  have size : (Array.replicate length.toNat (0 : UInt8)).size = length.toNat := Array.size_replicate
  have counted : UInt64.ofNat (Array.replicate length.toNat (0 : UInt8)).size = length := by
    rw [size, UInt64.ofNat_toNat]
  rw [load, allocate_eq small, ok_bind, counted]
  unfold Host.load
  by_cases nothing : length = 0
  · subst nothing
    rfl
  · have present : ¬(Array.replicate length.toNat (0 : UInt8)).isEmpty = true := by
      rw [Array.isEmpty_iff_size_eq_zero, size, ← UInt64.toNat_zero, UInt64.toNat_inj]
      exact nothing
    rw [if_neg present, if_neg nothing, Memory.load_eq_loadInto]
    cases checkRange address length with
    | error error => rfl
    | ok within =>
      refine Memory.Checked.loadInto_eq ?_
      rw [size]
      exact length.toNat_lt

theorem isUsable_eq (use : Use) (address length : UInt64) : isUsable memory use address length =
    .ok (length == 0 || (rangeEnd? address length).isSome && (memory.fault? use address length).isNone) := by
  unfold isUsable
  by_cases nothing : length = 0
  · subst nothing
    rfl
  · rw [if_neg nothing]
    cases (rangeEnd? address length).isSome with
    | false => simp [nothing]
    | true => simp [nothing, Memory.Checked.isUsable, Memory.Checked.fault?_eq, pure, Except.pure]

end Memory.Host.Checked

end MeteredVm
