import MeteredVm.Memory.Basic

/-!
Staging of the memory that a run starts with: page ranges are staged with their access and contents, bytes are then
written anywhere in staged pages, and the layout is closed together with the bounds of its heap.
-/

set_option autoImplicit false
set_option relaxedAutoImplicit false

namespace MeteredVm

open AddressSpace

inductive HeapFault where
  | notAligned
  /-- The heap ends before it starts, or outside the address space. -/
  | outside
  | reserved
  | overlap
deriving DecidableEq, Repr

def HeapFault.reason : HeapFault → String
  | .notAligned => "not page aligned"
  | .outside => "inverted or beyond the address space"
  | .reserved => "overlaps the reserved region"
  | .overlap => "overlaps configured pages"

def HeapFault.ofReason? (words : String) : Option HeapFault :=
  [notAligned, outside, reserved, overlap].find? fun fault => fault.reason == words

inductive LayoutError where
  | notPageAligned (start stop : Nat)
  | invalidRange (start stop : Nat)
  | reservedRegion (start stop : Nat)
  | pageAlreadyConfigured (page : Nat)
  | contentsTooLong (size capacity : Nat)
  | unconfiguredData (address : Nat)
  | invalidHeap (start stop : Nat) (fault : HeapFault)
deriving DecidableEq, Repr

def LayoutError.message : LayoutError → String
  | .notPageAligned start stop => "Range " ++ range start stop ++ " is not page aligned"
  | .invalidRange start stop => "Invalid range " ++ range start stop
  | .reservedRegion start stop => "Range " ++ range start stop ++ " overlaps the reserved region"
  | .pageAlreadyConfigured page => "Page " ++ toString page ++ " is already configured"
  | .contentsTooLong size capacity => "Contents too long: " ++ toString size ++ " > " ++ toString capacity
  | .unconfiguredData address => "Data at " ++ Text.hexadecimal address ++ " is outside configured pages"
  | .invalidHeap start stop fault => "Invalid heap " ++ range start stop ++ ": " ++ fault.reason
where
  range (start stop : Nat) : String := Text.hexadecimal start ++ ".." ++ Text.hexadecimal stop

structure Layout where
  pages : PageTable

namespace Layout

def empty : Layout := ⟨∅⟩

def firstStaged? (layout : Layout) (page : Nat) : Nat → Option Nat
  | 0 => none
  | count + 1 => if layout.pages.contains page then some page else layout.firstStaged? (page + 1) count

def firstUnstaged? (layout : Layout) (page : Nat) : Nat → Option Nat
  | 0 => none
  | count + 1 => if layout.pages.contains page then layout.firstUnstaged? (page + 1) count else some page

/-- The page that holds the contents from an offset on, as far as it can, padded with zeroes. -/
def filledPage (use : Use) (contents : Array UInt8) (offset : Nat) : Page :=
  (Page.zeroed use.access).overwrite 0 (contents.extract offset (offset + pageSize)).toList

/-- Inserts consecutive pages, which take the contents page by page. -/
def insertPages (pages : PageTable) (use : Use) (contents : Array UInt8) (page offset : Nat) : Nat → PageTable
  | 0 => pages
  | count + 1 =>
    insertPages (pages.insert page (filledPage use contents offset)) use contents (page + 1)
      (offset + pageSize) count

/-- Stages the pages of a range for a use, filled with the contents and then with zeroes. -/
def stage (layout : Layout) (use : Use) (start stop : Nat) (contents : Array UInt8) :
    Except LayoutError Layout :=
  if stop ≤ start ∨ size < stop then .error (.invalidRange start stop)
  else if ¬ isAligned start ∨ ¬ isAligned stop then .error (.notPageAligned start stop)
  else if start < reservedBytes then .error (.reservedRegion start stop)
  else if stop - start < contents.size then .error (.contentsTooLong contents.size (stop - start))
  else
    let first := pageOf start
    let count := pageOf stop - first
    match layout.firstStaged? first count with
    | some page => .error (.pageAlreadyConfigured page)
    | none => .ok ⟨insertPages layout.pages use contents first 0 count⟩

/-- Writes bytes from an address on; each round writes as many as its page can hold. -/
def writeData (pages : PageTable) (address : Nat) (data : List UInt8) : PageTable :=
  if data.isEmpty then pages
  else
    let room := pageSize - address % pageSize
    let written := pages.modify (pageOf address) fun page =>
      page.overwrite (address % pageSize) (data.take room)
    writeData written (address + room) (data.drop room)
termination_by data.length
decreasing_by
  rename_i h
  have : 0 < data.length := by simpa [List.length_pos_iff] using h
  have : address % pageSize < pageSize := Nat.mod_lt _ (by decide)
  simp only [List.length_drop]
  omega

/-- Writes bytes into staged pages, whatever access they grant. -/
def setData (layout : Layout) (address : Nat) (data : List UInt8) : Except LayoutError Layout :=
  if data.isEmpty then .ok layout
  else if size < address + data.length then .error (.unconfiguredData address)
  else
    let first := pageOf address
    let last := pageOf (address + data.length - 1)
    match layout.firstUnstaged? first (last + 1 - first) with
    | some page => .error (.unconfiguredData (max (page * pageSize) address))
    | none => .ok ⟨writeData layout.pages address data⟩

def heapFault? (layout : Layout) (start stop : Nat) : Option HeapFault :=
  if ¬ isAligned start ∨ ¬ isAligned stop then some .notAligned
  else if stop < start ∨ size < stop then some .outside
  else if start = stop then none
  else if start < reservedBytes then some .reserved
  else
    let first := pageOf start
    match layout.firstStaged? first (pageOf stop - first) with
    | some _ => some .overlap
    | none => none

/-- Closes the layout with a heap that may grow from `start` to `stop`; an empty heap never grows. -/
def finish (layout : Layout) (start stop : Nat) : Except LayoutError Memory :=
  match layout.heapFault? start stop with
  | some fault => .error (.invalidHeap start stop fault)
  | none => .ok ⟨layout.pages, start, stop⟩

end Layout

inductive LayoutStep where
  | stage (use : Use) (start stop : Nat) (contents : Array UInt8)
  | setData (address : Nat) (data : Array UInt8)

namespace Layout

def apply (layout : Layout) : LayoutStep → Except LayoutError Layout
  | .stage use start stop contents => layout.stage use start stop contents
  | .setData address data => layout.setData address data.toList

/-- Performs steps in order up to the first that fails. -/
def applyAll (layout : Layout) : List LayoutStep → Except LayoutError Layout
  | [] => .ok layout
  | step :: rest =>
    match layout.apply step with
    | .error error => .error error
    | .ok next => next.applyAll rest

/-- The memory that steps and a heap describe. -/
def build (steps : List LayoutStep) (heapStart heapEnd : Nat) : Except LayoutError Memory :=
  match empty.applyAll steps with
  | .error error => .error error
  | .ok layout => layout.finish heapStart heapEnd

end Layout

end MeteredVm
