/-!
Hexadecimal text: numbers written with the sign `0x`, and byte strings as pairs of digits.
-/

set_option autoImplicit false
set_option relaxedAutoImplicit false

namespace MeteredVm.Text

/-- A number in lower-case hexadecimal digits behind `0x`, without padding. -/
def hexadecimal (n : Nat) : String := "0x" ++ String.ofList (Nat.toDigits 16 n)

def hexDigit (n : Nat) : Char := "0123456789abcdef".toList.getD n '0'

/-- The number that a hexadecimal digit of either case stands for. -/
def hexDigitValue? (c : Char) : Option Nat :=
  if '0' ≤ c ∧ c ≤ '9' then some (c.toNat - '0'.toNat)
  else if 'a' ≤ c ∧ c ≤ 'f' then some (c.toNat - 'a'.toNat + 10)
  else if 'A' ≤ c ∧ c ≤ 'F' then some (c.toNat - 'A'.toNat + 10)
  else none

def hexPairs (bytes : List UInt8) : List Char :=
  bytes.flatMap fun b => [hexDigit (b.toNat / 16), hexDigit (b.toNat % 16)]

def hexBytes (bytes : Array UInt8) : String := String.ofList (hexPairs bytes.toList)

inductive HexError where
  | oddLength
  | invalidCharacter (byte : UInt8) (position : Nat)
deriving DecidableEq, Repr

/-- A character between single quotes, spelled so that it can be read: control characters, invisible characters, quotes
and backslashes below the 256th character are escaped. -/
def quotedCharacter (c : Char) : String :=
  let n := c.toNat
  let body :=
    if c = '\x00' then "\\0"
    else if c = '\t' then "\\t"
    else if c = '\n' then "\\n"
    else if c = '\r' then "\\r"
    else if c = '\'' then "\\'"
    else if c = '\\' then "\\\\"
    else if n < 0x20 ∨ (0x7F ≤ n ∧ n ≤ 0xA0) ∨ n = 0xAD then
      "\\u\x7b" ++ String.ofList (Nat.toDigits 16 n) ++ "\x7d"
    else c.toString
  "'" ++ body ++ "'"

def HexError.message : HexError → String
  | .oddLength => "Odd number of digits"
  | .invalidCharacter byte position =>
    "Invalid character " ++ quotedCharacter (Char.ofNat byte.toNat) ++ " at position " ++ toString position

/-- Reads pairs of digits, where `position` counts the bytes before them. -/
def readHexPairs (position : Nat) : List UInt8 → Except HexError (List UInt8)
  | high :: low :: rest =>
    match hexDigitValue? (Char.ofNat high.toNat) with
    | none => .error (.invalidCharacter high position)
    | some x =>
      match hexDigitValue? (Char.ofNat low.toNat) with
      | none => .error (.invalidCharacter low (position + 1))
      | some y => (readHexPairs (position + 2) rest).map (UInt8.ofNat (16 * x + y) :: ·)
  | [_] => .error .oddLength
  | [] => .ok []

/-- The byte string that a text of hexadecimal digits, given by its bytes, stands for. -/
def readHex (text : Array UInt8) : Except HexError (Array UInt8) :=
  if text.size % 2 = 1 then .error .oddLength else (readHexPairs 0 text.toList).map List.toArray

end MeteredVm.Text
