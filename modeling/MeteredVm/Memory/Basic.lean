import MeteredVm.Memory.Chunk
import MeteredVm.Text.Hexadecimal
import Std.Data.ExtTreeMap

/-!
Paged guest memory. Only some pages are backed by bytes; the others, and the reserved pages at the bottom, grant no
access. An access is checked as a whole, first that its range fits the address space and then page by page, before
anything is written. The heap grows upwards from its top to its ceiling in whole pages.
-/

set_option autoImplicit false
set_option relaxedAutoImplicit false

namespace MeteredVm

open AddressSpace

inductive Access where
  | none | read | write
deriving DecidableEq, Repr

namespace Access

/-- Pages that can be written can be read too. -/
def canRead : Access → Bool
  | .none => false
  | .read | .write => true

def canWrite : Access → Bool
  | .none | .read => false
  | .write => true

end Access

inductive Use where
  | read | write
deriving DecidableEq, Repr

/-- The least access that allows a use. -/
def Use.access : Use → Access
  | .read => .read
  | .write => .write

def Access.grants (access : Access) : Use → Bool
  | .read => access.canRead
  | .write => access.canWrite

abbrev PageBytes := Vector UInt8 4096

def PageBytes.zero : PageBytes := Vector.replicate 4096 0

/-- A page that is backed by bytes. -/
structure Page where
  access : Access
  bytes : PageBytes
deriving DecidableEq

namespace Page

def zeroed (access : Access) : Page := ⟨access, PageBytes.zero⟩

/-- The byte at an offset, counted modulo the page size. -/
def get (page : Page) (offset : Nat) : UInt8 :=
  page.bytes.get ⟨offset % 4096, Nat.mod_lt offset (by decide)⟩

def slice (page : Page) (offset length : Nat) : List UInt8 :=
  (List.range length).map fun i => page.get (offset + i)

/-- Overwrites bytes from an offset on; those that would pass the end of the page are dropped. -/
def overwrite (page : Page) (offset : Nat) (bytes : List UInt8) : Page :=
  { page with bytes := ⟨MeteredVm.overwrite page.bytes.toArray offset bytes, by simp⟩ }

end Page

abbrev PageTable := Std.ExtTreeMap Nat Page compare

namespace PageTable

/-- The byte at an address, zero where there is no page. -/
def byteAt (pages : PageTable) (address : Nat) : UInt8 :=
  match pages[pageOf address]? with
  | some page => page.get address
  | none => 0

/-- Writes the part of some bytes that a chunk names, if there is a page. -/
def writeChunk (pages : PageTable) (bytes : Array UInt8) (chunk : Chunk) : PageTable :=
  pages.modify chunk.page fun page =>
    page.overwrite chunk.inPage (bytes.extract chunk.offset (chunk.offset + chunk.length)).toList

def write (pages : PageTable) (address : Nat) (bytes : Array UInt8) : PageTable :=
  (Chunk.split address bytes.size 0).foldl (writeChunk · bytes) pages

def readChunk (pages : PageTable) (buffer : Array UInt8) (chunk : Chunk) : Array UInt8 :=
  match pages[chunk.page]? with
  | some page => overwrite buffer chunk.offset (page.slice chunk.inPage chunk.length)
  | none => buffer

def read (pages : PageTable) (address : Nat) (buffer : Array UInt8) : Array UInt8 :=
  (Chunk.split address buffer.size 0).foldl pages.readChunk buffer

end PageTable

inductive MemoryError where
  | outOfBounds (address length : Nat)
  /-- A page of the range lacks the access; `address` is the first byte of the range without it. -/
  | pageFault (address : Nat)
deriving DecidableEq, Repr

def MemoryError.message : MemoryError → String
  | .outOfBounds address length =>
    "Out of bounds access: address " ++ Text.hexadecimal address ++ ", length " ++ toString length
  | .pageFault address => "Page fault at " ++ Text.hexadecimal address

structure Memory where
  pages : PageTable
  /-- Where the heap ends now. -/
  top : Nat
  /-- Where the heap must end. -/
  heapEnd : Nat

namespace Memory

def empty : Memory := ⟨∅, 0, 0⟩

instance : Inhabited Memory := ⟨empty⟩

def pageAccess (memory : Memory) (page : Nat) : Access :=
  if page < reservedPages then .none
  else
    match memory.pages[page]? with
    | some page => page.access
    | none => .none

def mappedPages (memory : Memory) : Nat := memory.pages.size

def byteAt (memory : Memory) (address : Nat) : UInt8 := memory.pages.byteAt address

/-- The first of some consecutive pages that may not be used in a way. -/
def firstDenied? (memory : Memory) (use : Use) (page : Nat) : Nat → Option Nat
  | 0 => none
  | count + 1 =>
    if (memory.pageAccess page).grants use then memory.firstDenied? use (page + 1) count
    else some page

/-- Checks a range that has bytes against the address space; its end is found in 64 bits. -/
def checkBounds (address length : UInt64) : Except MemoryError (UInt32 × UInt64) :=
  match checkedAdd? address length with
  | some stop => if stop.toNat ≤ size then .ok (address.toUInt32, stop) else .error refusal
  | none => .error refusal
where
  refusal : MemoryError := .outOfBounds address.toNat length.toNat

def accessFault? (memory : Memory) (use : Use) (start : UInt32) (stop : UInt64) : Option MemoryError :=
  let first := pageOf start.toNat
  let last := pageOf (stop.toNat - 1)
  (memory.firstDenied? use first (last + 1 - first)).map fun page =>
    .pageFault (max (page * pageSize) start.toNat)

/-- What is wrong with using a range, if anything. No range without bytes is ever wrong. -/
def fault? (memory : Memory) (use : Use) (address length : UInt64) : Option MemoryError :=
  if length = 0 then none
  else
    match checkBounds address length with
    | .error error => some error
    | .ok (start, stop) => memory.accessFault? use start stop

def store (memory : Memory) (address : UInt64) (bytes : List UInt8) : Except MemoryError Memory :=
  match memory.fault? .write address (UInt64.ofNat bytes.length) with
  | some error => .error error
  | none => .ok { memory with pages := memory.pages.write address.toUInt32.toNat bytes.toArray }

def loadInto (memory : Memory) (buffer : Array UInt8) (address : UInt64) : Except MemoryError (Array UInt8) :=
  match memory.fault? .read address (UInt64.ofNat buffer.size) with
  | some error => .error error
  | none => .ok (memory.pages.read address.toUInt32.toNat buffer)

/-- Reads bytes from an address on. There is no buffer for a range that cannot be read. -/
def load (memory : Memory) (address length : UInt64) : Except MemoryError (Array UInt8) :=
  match memory.fault? .read address length with
  | some error => .error error
  | none => memory.loadInto (Array.replicate length.toNat 0) address

def isReadable (memory : Memory) (address length : UInt64) : Bool :=
  (memory.fault? .read address length).isNone

def isWriteable (memory : Memory) (address length : UInt64) : Bool :=
  (memory.fault? .write address length).isNone

/-- Backs consecutive pages by zeroes that can be written, except those that are backed already. -/
def mapZeroed (pages : PageTable) (page : Nat) : Nat → PageTable
  | 0 => pages
  | count + 1 => mapZeroed (pages.insertIfNew page (Page.zeroed .write)) (page + 1) count

/-- Grows the heap by a length rounded up to whole pages, and returns where it ended before; refuses to pass the
ceiling. -/
def grow (memory : Memory) (length : UInt32) : Option (Nat × Memory) :=
  if length = 0 then some (memory.top, memory)
  else
    let newTop := ceilToPage (memory.top + length.toNat)
    if memory.heapEnd < newTop then none
    else
      let first := pageOf memory.top
      let pages := mapZeroed memory.pages first (pageOf newTop - first)
      some (memory.top, { memory with pages, top := newTop })

end Memory

/-!
The view of memory that is handed to host calls. Addresses and lengths come from 64-bit registers, so the range is
checked in 64 bits before the pages are looked at.
-/

namespace Memory.Host

/-- The end of a range, unless it passes the 64-bit range or the address space. -/
def rangeEnd? (address length : UInt64) : Option UInt64 :=
  let sum := address + length
  if sum < address then none
  else if size < sum.toNat then none
  else some sum

def checkRange (address length : UInt64) : Except MemoryError Unit :=
  match rangeEnd? address length with
  | some _ => .ok ()
  | none => .error (.outOfBounds address.toNat length.toNat)

def store (memory : Memory) (address : UInt64) (bytes : List UInt8) : Except MemoryError Memory := do
  if bytes.isEmpty then return memory
  checkRange address (UInt64.ofNat bytes.length)
  memory.store address bytes

def loadInto (memory : Memory) (buffer : Array UInt8) (address : UInt64) : Except MemoryError (Array UInt8) := do
  if buffer.isEmpty then return buffer
  checkRange address (UInt64.ofNat buffer.size)
  memory.loadInto buffer address

def load (memory : Memory) (address length : UInt64) : Except MemoryError (Array UInt8) := do
  if length = 0 then return #[]
  checkRange address length
  memory.load address length

def isReadable (memory : Memory) (address length : UInt64) : Bool :=
  length == 0 || (rangeEnd? address length).isSome && memory.isReadable address length

def isWriteable (memory : Memory) (address length : UInt64) : Bool :=
  length == 0 || (rangeEnd? address length).isSome && memory.isWriteable address length

end Memory.Host

end MeteredVm
