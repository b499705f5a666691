import MeteredVm.AddressSpace

/-!
Copying between pages and the buffers of a caller. A range of addresses is split at page boundaries into chunks, each of
which lies in one page and in one part of the buffer. The main statement says that a chunk has bytes and stays inside
its page.
-/

set_option autoImplicit false
set_option relaxedAutoImplicit false

namespace MeteredVm

open AddressSpace

def overwrite (buffer : Array UInt8) (offset : Nat) : List UInt8 → Array UInt8
  | [] => buffer
  | byte :: rest => overwrite (buffer.setIfInBounds offset byte) (offset + 1) rest

@[simp] theorem size_overwrite (buffer : Array UInt8) (offset : Nat) (bytes : List UInt8) :
    (overwrite buffer offset bytes).size = buffer.size := by
  induction bytes generalizing buffer offset with
  | nil => rfl
  | cons byte rest ih => simp [overwrite, ih]

/-- A part of a range that lies in one page. -/
structure Chunk where
  page : Nat
  /-- Where the part starts in the page. -/
  inPage : Nat
  /-- Where the part starts in the range. -/
  offset : Nat
  length : Nat
deriving DecidableEq, Repr

namespace Chunk

/-- The part of a range that starts at an offset and ends with the page or the range. -/
def startingAt (start length offset : Nat) : Chunk where
  page := pageOf (start + offset)
  inPage := (start + offset) % pageSize
  offset := offset
  length := min (pageSize - (start + offset) % pageSize) (length - offset)

theorem startingAt_bounds (start : Nat) {length offset : Nat} (h : offset < length) :
    0 < (startingAt start length offset).length ∧
      (startingAt start length offset).inPage + (startingAt start length offset).length ≤ pageSize ∧
      offset + (startingAt start length offset).length ≤ length := by
  simp only [startingAt, pageSize]
  omega

theorem startingAt_covers (start : Nat) {length offset : Nat} (h : offset < length) (a : Nat) :
    let chunk := startingAt start length offset
    (chunk.page = pageOf a ∧ chunk.inPage ≤ a % pageSize ∧ a % pageSize < chunk.inPage + chunk.length ↔
        start + offset ≤ a ∧ a < start + (offset + chunk.length)) ∧
      (chunk.page = pageOf a → start + offset ≤ a → a % pageSize - chunk.inPage = a - (start + offset)) := by
  simp only [startingAt, pageOf, pageSize]
  omega

/-- Splits a range at page boundaries, from an offset in it on. -/
def split (start length offset : Nat) : List Chunk :=
  if offset < length then
    startingAt start length offset :: split start length (offset + (startingAt start length offset).length)
  else []
termination_by length - offset
decreasing_by
  rename_i h
  have := startingAt_bounds start h
  omega

@[simp] theorem split_zero (start : Nat) : split start 0 0 = [] := by
  rw [split, if_neg (Nat.lt_irrefl 0)]

end Chunk

end MeteredVm
