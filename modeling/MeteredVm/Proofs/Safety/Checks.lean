import MeteredVm.Memory.Chunk
import MeteredVm.Registers
import Mathlib.Tactic.Common

/-!
Operations that can bring down the program that runs a machine. A sum may not fit its word, an index or a slice may be
out of range, bytes may not fit where they are copied to, and a buffer may be larger than any that can be had. Here each
of these answers with the crash, so that what is composed of them tells whether one can happen.
-/

set_option autoImplicit false
set_option relaxedAutoImplicit false

namespace MeteredVm

/-- What brings the program down that runs a machine. -/
inductive Crash where
  | overflow
  | index
  /-- A slice passes the end of its bytes, or ends before it starts. -/
  | slice
  /-- Bytes are copied to a slice of another length. -/
  | lengths
  /-- A page has no bytes, or not as many as a page has. -/
  | page
  /-- A buffer takes more than half of the 64-bit range. -/
  | capacity
  /-- A loop makes no progress. -/
  | stalled
deriving DecidableEq, Repr

namespace Checked

section

variable {α β : Type}

@[simp] theorem ok_bind (a : α) (next : α → Except Crash β) : (Except.ok a >>= next) = next a := rfl

/-- A loop in which no round crashes does what its rounds do, as long as they keep what they rely on. -/
theorem foldlM_eq {round : β → α → Except Crash β} {plain : β → α → β} (kept : β → Prop) {items : List α} {state : β}
    (rounds : ∀ state, kept state → ∀ item ∈ items, round state item = .ok (plain state item) ∧ kept (plain state item))
    (holds : kept state) : items.foldlM round state = .ok (items.foldl plain state) := by
  induction items generalizing state with
  | nil => rfl
  | cons item rest ih =>
    obtain ⟨done, next⟩ := rounds state holds item List.mem_cons_self
    rw [List.foldlM_cons, done, ok_bind, List.foldl_cons]
    exact ih (fun state kept item later => rounds state kept item (List.mem_cons_of_mem _ later)) next

end

section Arithmetic

variable {bound a b : Nat}

def add (bound a b : Nat) : Except Crash Nat := if a + b < bound then .ok (a + b) else .error .overflow

def multiply (bound a b : Nat) : Except Crash Nat := if a * b < bound then .ok (a * b) else .error .overflow

def subtract (a b : Nat) : Except Crash Nat := if b ≤ a then .ok (a - b) else .error .overflow

/-- A number that is put into a shorter word, which may lose nothing of it. -/
def narrow (bound a : Nat) : Except Crash Nat := if a < bound then .ok a else .error .overflow

/-- A difference of 128-bit words with a sign. -/
def subtractSigned (a b : Int) : Except Crash Int :=
  if -170141183460469231731687303715884105728 ≤ a - b ∧ a - b < 170141183460469231731687303715884105728 then
    .ok (a - b)
  else .error .overflow

theorem add_eq (fits : a + b < bound) : add bound a b = .ok (a + b) := if_pos fits

theorem multiply_eq (fits : a * b < bound) : multiply bound a b = .ok (a * b) := if_pos fits

theorem subtract_eq (le : b ≤ a) : subtract a b = .ok (a - b) := if_pos le

theorem narrow_eq (fits : a < bound) : narrow bound a = .ok a := if_pos fits

end Arithmetic

section Bytes

variable {bytes source : Array UInt8} {start stop : Nat}

def slice (bytes : Array UInt8) (start stop : Nat) : Except Crash (Array UInt8) :=
  if start ≤ stop ∧ stop ≤ bytes.size then .ok (bytes.extract start stop) else .error .slice

/-- Copies bytes to a slice of the same length. -/
def copyInto (bytes : Array UInt8) (start stop : Nat) (source : Array UInt8) : Except Crash (Array UInt8) := do
  let target ← slice bytes start stop
  if target.size = source.size then return overwrite bytes start source.toList else throw .lengths

def allocate (length : Nat) : Except Crash (Array UInt8) :=
  if length < 9223372036854775808 then .ok (Array.replicate length 0) else .error .capacity

theorem slice_eq (ordered : start ≤ stop) (inside : stop ≤ bytes.size) :
    slice bytes start stop = .ok (bytes.extract start stop) := if_pos ⟨ordered, inside⟩

theorem copyInto_eq (inside : stop ≤ bytes.size) (same : start + source.size = stop) :
    copyInto bytes start stop source = .ok (overwrite bytes start source.toList) := by
  have ordered : start ≤ stop := by omega
  have lengths : (bytes.extract start stop).size = source.size := by
    rw [Array.size_extract]
    omega
  rw [copyInto, slice_eq ordered inside, ok_bind, if_pos lengths]
  rfl

theorem allocate_eq {length : Nat} (small : length < 9223372036854775808) :
    allocate length = .ok (Array.replicate length 0) := if_pos small

end Bytes

section Words

variable (registers : Registers)

def readRegister (index : Nat) : Except Crash UInt64 :=
  if named : index < 13 then .ok (registers.get ⟨index, named⟩) else .error .index

def writeRegister (index : Nat) (value : UInt64) : Except Crash Registers :=
  if named : index < 13 then .ok (registers.set ⟨index, named⟩ value) else .error .index

@[simp] theorem readRegister_eq (r : Reg) : readRegister registers r.val = .ok (registers.get r) := dif_pos r.isLt

@[simp] theorem writeRegister_eq (r : Reg) (value : UInt64) :
    writeRegister registers r.val value = .ok (registers.set r value) := dif_pos r.isLt

end Words

end Checked

end MeteredVm
