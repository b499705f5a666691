/-!
Little-endian integers: the number spelled by consecutive bytes, least significant byte first, and the bytes that
spell a number. The main statement is that reading what was written gives the number back, reduced to the width.
-/

set_option autoImplicit false
set_option relaxedAutoImplicit false

namespace MeteredVm.LittleEndian

/-- The number spelled by `width` bytes of `byteAt` from `start` on. -/
def read (byteAt : Nat → UInt8) (start : Nat) : Nat → Nat
  | 0 => 0
  | width + 1 => (byteAt start).toNat + 256 * read byteAt (start + 1) width

/-- The `width` bytes that spell a number; what does not fit is dropped. -/
def write (value : Nat) : Nat → List UInt8
  | 0 => []
  | width + 1 => UInt8.ofNat (value % 256) :: write (value / 256) width

def value : List UInt8 → Nat
  | [] => 0
  | b :: rest => b.toNat + 256 * value rest

/-- The least number that `width` bytes cannot spell. -/
def bound : Nat → Nat
  | 0 => 1
  | width + 1 => 256 * bound width

theorem length_write (n width : Nat) : (write n width).length = width := by
  induction width generalizing n with
  | zero => rfl
  | succ width ih => simp [write, ih]

theorem read_congr {f g : Nat → UInt8} {i j width : Nat} (h : ∀ k, k < width → f (i + k) = g (j + k)) :
    read f i width = read g j width := by
  induction width generalizing i j with
  | zero => rfl
  | succ width ih =>
    have h0 := h 0 (Nat.succ_pos width)
    have hrest := ih (i := i + 1) (j := j + 1) (fun k hk => by
      have := h (k + 1) (by omega)
      simpa [Nat.add_assoc, Nat.add_comm 1 k] using this)
    simp only [Nat.add_zero] at h0
    simp [read, h0, hrest]

theorem value_write (n width : Nat) : value (write n width) = n % bound width := by
  induction width generalizing n with
  | zero => simp [write, value, bound, Nat.mod_one]
  | succ width ih =>
    have hmod : n % 256 < 256 := Nat.mod_lt _ (by decide)
    have hsplit : n % (256 * bound width) = n % 256 + 256 * (n / 256 % bound width) := Nat.mod_mul
    simp only [write, value, bound, ih, hsplit, UInt8.toNat_ofNat']
    omega

end MeteredVm.LittleEndian
