/-!
The guest address space: its size, its division into pages, and the two regions that no page may ever open.
-/

set_option autoImplicit false
set_option relaxedAutoImplicit false

namespace MeteredVm.AddressSpace

def size : Nat := 4294967296

def pageSize : Nat := 4096

/-- The pages at the bottom of the address space that are never accessible, so that small addresses always fault. -/
def reservedPages : Nat := 16

def reservedBytes : Nat := 65536

def haltAddress : UInt32 := 4294901760

def pageOf (address : Nat) : Nat := address / pageSize

/-- The least multiple of the page size that is not below an address. -/
def ceilToPage (address : Nat) : Nat := (address + (pageSize - 1)) / pageSize * pageSize

def isAligned (address : Nat) : Bool := address % pageSize == 0

def checkedAdd? (a b : UInt64) : Option UInt64 :=
  if a.toNat + b.toNat < UInt64.size then some (a + b) else none

/-- Rounding up in 64 bits. No start of a page is above an address that lies inside the last page of the 64-bit range.
-/
def alignToPage? (address : UInt64) : Option UInt64 :=
  let rounded := ceilToPage address.toNat
  if rounded < UInt64.size then some (UInt64.ofNat rounded) else none

theorem size_eq : size = 1048576 * pageSize := rfl

theorem ceilToPage_bounds (address : Nat) :
    address ≤ ceilToPage address ∧ ceilToPage address < address + pageSize := by
  unfold ceilToPage pageSize
  omega

theorem ceilToPage_mod (address : Nat) : ceilToPage address % pageSize = 0 := by
  simp [ceilToPage]

theorem ceilToPage_of_aligned {address : Nat} (h : address % pageSize = 0) : ceilToPage address = address := by
  unfold ceilToPage pageSize at *
  omega

end MeteredVm.AddressSpace
