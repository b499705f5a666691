/-!
Decimal numbers as they are typed: unsigned numbers, which are digits, perhaps behind a plus sign, and nothing else; and
the texts of real numbers.
-/

set_option autoImplicit false
set_option relaxedAutoImplicit false

namespace MeteredVm.Text

/-- The number that a string of at least one decimal digit spells. -/
def readDigits? : List Char → Option Nat
  | [] => none
  | digits =>
    if digits.all Char.isDigit then
      some (digits.foldl (fun n c => 10 * n + (c.toNat - '0'.toNat)) 0)
    else none

/-- The number that is typed as digits, perhaps behind a plus sign, if it is below a bound. -/
def readUnsigned? (bound : Nat) (text : List Char) : Option Nat :=
  let digits := match text with
    | '+' :: rest => rest
    | _ => text
  match readDigits? digits with
  | some n => if n < bound then some n else none
  | none => none

/-! ### Real numbers -/

def withoutSign (text : List Char) : List Char :=
  match text with
  | '+' :: rest | '-' :: rest => rest
  | _ => text

/-- Whether a text is an exponent, or empty. -/
def isExponent : List Char → Bool
  | [] => true
  | c :: rest =>
    let digits := withoutSign rest
    (c == 'e' || c == 'E') && !digits.isEmpty && digits.all Char.isDigit

/-- Splits a text behind the digits of a fraction; there are none without a point. -/
def splitFraction (text : List Char) : List Char × List Char :=
  match text with
  | '.' :: rest => rest.span Char.isDigit
  | _ => ([], text)

/-- Whether a text is a number without a sign: digits and a fraction, of which either may be left out, and perhaps an
exponent. -/
def isUnsignedReal (text : List Char) : Bool :=
  let (whole, rest) := text.span Char.isDigit
  let (fraction, rest) := splitFraction rest
  !(whole.isEmpty && fraction.isEmpty) && isExponent rest

/-- The words, in letters of either case, for what is no finite number. -/
def unboundedNames : List String := ["inf", "infinity", "nan"]

/-- Whether a text is a real number, or one of the words for what is none, perhaps behind a sign. -/
def isReal (text : List Char) : Bool :=
  let body := withoutSign text
  isUnsignedReal body || unboundedNames.any fun name => name.toList == body.map Char.toLower

end MeteredVm.Text
