/-!
UTF-8. A byte string falls into the characters that it spells and into maximal beginnings of characters that are
broken off or could not be completed; each such piece, and each byte that starts no character, is one fault. The main
statement is that every step consumes something, so that decoding ends.
-/

set_option autoImplicit false
set_option relaxedAutoImplicit false

namespace MeteredVm.Text.Utf8

/-- What the first byte of a character announces. -/
structure Lead where
  /-- The bits of the character that the byte itself holds. -/
  bits : Nat
  more : Nat
  /-- The least byte that may follow at once. -/
  low : Nat
  high : Nat

/-- What a byte announces as the first of a character, unless it is none. Overlong spellings, surrogates and numbers
above the last character are excluded by the range of the second byte. -/
def lead? (b : Nat) : Option Lead :=
  if b < 0x80 then some ⟨b, 0, 0x80, 0xBF⟩
  else if b < 0xC2 then none
  else if b < 0xE0 then some ⟨b % 0x20, 1, 0x80, 0xBF⟩
  else if b = 0xE0 then some ⟨b % 0x10, 2, 0xA0, 0xBF⟩
  else if b = 0xED then some ⟨b % 0x10, 2, 0x80, 0x9F⟩
  else if b < 0xF0 then some ⟨b % 0x10, 2, 0x80, 0xBF⟩
  else if b = 0xF0 then some ⟨b % 0x08, 3, 0x90, 0xBF⟩
  else if b < 0xF4 then some ⟨b % 0x08, 3, 0x80, 0xBF⟩
  else if b = 0xF4 then some ⟨b % 0x08, 3, 0x80, 0x8F⟩
  else none

/-- Reads the bytes that have to follow; the result is a number, or a fault if one of them does not fit. -/
def follow (bits : Nat) : Nat → Nat → Nat → List UInt8 → Option Nat × List UInt8
  | 0, _, _, rest => (some bits, rest)
  | _ + 1, _, _, [] => (none, [])
  | more + 1, low, high, b :: rest =>
    if low ≤ b.toNat ∧ b.toNat ≤ high then follow (bits * 0x40 + b.toNat % 0x40) more 0x80 0xBF rest
    else (none, b :: rest)

private theorem length_follow (bits more low high : Nat) (bytes : List UInt8) :
    (follow bits more low high bytes).2.length ≤ bytes.length := by
  induction more generalizing bits low high bytes with
  | zero => simp [follow]
  | succ more ih =>
    cases bytes with
    | nil => simp [follow]
    | cons b rest =>
      simp only [follow]
      split
      · exact Nat.le_trans (ih ..) (Nat.le_succ _)
      · simp

def first (b : UInt8) (rest : List UInt8) : Option Char × List UInt8 :=
  match lead? b.toNat with
  | none => (none, rest)
  | some lead =>
    let (number?, rest) := follow lead.bits lead.more lead.low lead.high rest
    (number?.map Char.ofNat, rest)

private theorem length_first (b : UInt8) (rest : List UInt8) : (first b rest).2.length ≤ rest.length := by
  unfold first
  split
  · exact Nat.le_refl _
  · exact length_follow ..

/-- The characters and faults of a byte string in order; a fault is `none`. -/
def pieces : List UInt8 → List (Option Char)
  | [] => []
  | b :: rest =>
    let next := first b rest
    next.1 :: pieces next.2
termination_by bytes => bytes.length
decreasing_by exact Nat.lt_succ_of_le (length_first b rest)

/-- The text of a byte string, with the replacement character for each fault. -/
def decodeLossy (bytes : Array UInt8) : String :=
  String.ofList ((pieces bytes.toList).map fun piece => piece.getD '\uFFFD')

def decode? (bytes : Array UInt8) : Option String :=
  ((pieces bytes.toList).mapM id).map String.ofList

def encode (text : String) : Array UInt8 := text.toUTF8.data

end MeteredVm.Text.Utf8
