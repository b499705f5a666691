import MeteredVm.Text.Decimal
import MeteredVm.Text.Hexadecimal
import MeteredVm.Toml.Document

/-!
The grammar of TOML documents: blanks and comments, keys, strings, numbers, dates, arrays, inline tables, and the
lines of which a document consists. Values nest at most as deep as `depthLimit` allows.
-/

set_option autoImplicit false
set_option relaxedAutoImplicit false

namespace MeteredVm.Toml.Grammar

open Reader

/-- Values and dotted keys nest to less than this depth. -/
def depthLimit : Nat := 80

def isSpace (c : Char) : Bool := c == ' ' || c == '\t'

/-- Characters that may stand in comments: all but control characters other than the tab. -/
def isPrintable (c : Char) : Bool := c == '\t' || (0x20 ≤ c.toNat && c.toNat != 0x7F)

def spaces : Reader Unit := (fun _ => ()) <$> span isSpace

def newline : Reader Unit := orElse (char '\n') (word ['\r', '\n'])

def comment : Reader Unit := do
  char '#'
  let _ ← span isPrintable
  return ()

def blanks : Reader Unit := do
  let _ ← many (choice [(fun _ => ()) <$> satisfy isSpace, newline, comment])
  return ()

def lineTrailing : Reader Unit := do
  spaces
  let _ ← optional comment
  orElse newline eof

/-! ### Strings -/

def isBasicChar (c : Char) : Bool := isPrintable c && c != '"' && c != '\\'

def isLiteralChar (c : Char) : Bool := isPrintable c && c != '\''

def scalar (count : Nat) : Reader Char := do
  let digits ← exactly (fun c => (Text.hexDigitValue? c).isSome) count
  let n := digits.foldl (fun n c => 16 * n + (Text.hexDigitValue? c).getD 0) 0
  if n.isValidChar then return Char.ofNat n else fail

def escaped : Reader Char := do
  char '\\'
  match ← satisfy fun _ => true with
  | 'b' => return '\x08'
  | 't' => return '\t'
  | 'n' => return '\n'
  | 'f' => return '\x0c'
  | 'r' => return '\r'
  | '"' => return '"'
  | '\\' => return '\\'
  | 'u' => scalar 4
  | 'U' => scalar 8
  | _ => fail

def basicString : Reader (List Char) := do
  char '"'
  let body ← many (orElse (satisfy isBasicChar) escaped)
  char '"'
  return body

def literalString : Reader (List Char) := do
  char '\''
  let body ← span isLiteralChar
  char '\''
  return body

/-- A backslash that ends a line, with all blanks that follow it. -/
def continuedLine : Reader (List Char) := do
  char '\\'
  spaces
  newline
  let _ ← many (orElse ((fun _ => ()) <$> satisfy isSpace) newline)
  return []

/-- The quotes that belong to the body of a string over several lines: one or two in front of something else. -/
def innerQuotes (quote : Char) : Reader (List Char) := do
  let run ← span (· == quote)
  if run.isEmpty || 3 ≤ run.length then fail else return run

/-- The end of a string over several lines: three quotes, behind at most two that belong to the body. -/
def closingQuotes (quote : Char) : Reader (List Char) := do
  let run ← span (· == quote)
  if 3 ≤ run.length && run.length ≤ 5 then return run.drop 3 else fail

/-- A string over several lines, of pieces between three quotes on either side; a line end behind the first three is
skipped. -/
def multiLine (quote : Char) (piece : Reader (List Char)) : Reader (List Char) := do
  word [quote, quote, quote]
  let _ ← optional newline
  let body ← many (choice [piece, (fun _ => ['\n']) <$> newline, innerQuotes quote])
  let quotes ← closingQuotes quote
  return body.flatten ++ quotes

def multiLineBasic : Reader (List Char) :=
  multiLine '"' (choice [List.singleton <$> satisfy isBasicChar, continuedLine, List.singleton <$> escaped])

def multiLineLiteral : Reader (List Char) := multiLine '\'' (List.singleton <$> satisfy isLiteralChar)

def string : Reader String :=
  String.ofList <$> choice [multiLineBasic, basicString, multiLineLiteral, literalString]

/-! ### Keys -/

def isBareChar (c : Char) : Bool := c.isAlphanum || c == '-' || c == '_'

def bareKey : Reader (List Char) := do
  let chars ← span isBareChar
  if chars.isEmpty then fail else return chars

def simpleKey : Reader String := String.ofList <$> choice [basicString, literalString, bareKey]

/-- A key of one or more parts between dots. -/
def key : Reader (List String) := do
  let parts ← separated
    (do
      spaces
      let part ← simpleKey
      spaces
      return part)
    (char '.')
  if parts.length < depthLimit then return parts else fail

/-! ### Numbers -/

/-- Digits with single underscores between them. -/
def digits (isDigit : Char → Bool) : Reader (List Char) := do
  let first ← satisfy isDigit
  let rest ← many do
    let _ ← optional (char '_')
    satisfy isDigit
  return first :: rest

/-- A sign, if there is one; whether it is a minus. -/
def sign : Reader Bool := do
  match ← optional (satisfy fun c => c == '+' || c == '-') with
  | some c => return c == '-'
  | none => return false

def numberOf (base : Nat) (chars : List Char) : Nat :=
  chars.foldl (fun n c => base * n + (Text.hexDigitValue? c).getD 0) 0

/-- Decimal digits without a leading zero. -/
def decimalDigits : Reader (List Char) := do
  let all ← orElse
    (do
      let first ← satisfy fun c => '1' ≤ c && c ≤ '9'
      let rest ← many do
        let _ ← optional (char '_')
        satisfy Char.isDigit
      return first :: rest)
    (List.singleton <$> satisfy Char.isDigit)
  return all

def bounded (n : Int) : Reader Value :=
  if -9223372036854775808 ≤ n ∧ n ≤ 9223372036854775807 then return .integer n else fail

/-- An integer to a base that is named by a letter. -/
def based (letter : Char) (base : Nat) : Reader Value := do
  word ['0', letter]
  let chars ← digits fun c => match Text.hexDigitValue? c with
    | some n => n < base
    | none => false
  bounded (numberOf base chars)

def integer : Reader Value :=
  choice [based 'x' 16, based 'o' 8, based 'b' 2, do
    let negative ← sign
    let chars ← decimalDigits
    let n : Int := numberOf 10 chars
    bounded (if negative then -n else n)]

def exponent : Reader Int := do
  let _ ← satisfy fun c => c == 'e' || c == 'E'
  let negative ← sign
  let n : Int := numberOf 10 (← digits Char.isDigit)
  return if negative then -n else n

def withZeroes (n : Nat) : Nat → Nat
  | 0 => n
  | count + 1 => 10 * withZeroes n count

/-- The least number whose nearest 64-bit float is infinite. -/
def leastInfinite : Nat := 1 <<< 1024 - 1 <<< 970

/-- Whether a decimal number is so large that the nearest 64-bit float is infinite. -/
def overflowsFloat (mantissa : Nat) (exponent : Int) : Bool :=
  if mantissa = 0 then false
  else
    match exponent with
    | .ofNat e => if 400 < e then true else decide (leastInfinite ≤ withZeroes mantissa e)
    | .negSucc e =>
      -- A mantissa of `d` digits is below one followed by `d` zeroes, so a larger exponent cannot be reached.
      let digits := (Nat.toDigits 10 mantissa).length
      if digits ≤ e + 1 then false else decide (withZeroes leastInfinite (e + 1) ≤ mantissa)

/-- A float with a fraction or an exponent; it may not be infinite. -/
def decimalFloat : Reader Unit := do
  let negative ← sign
  let whole ← decimalDigits
  let (fraction, exponent) ← orElse
    (do return (([] : List Char), ← exponent))
    (do
      char '.'
      let fraction ← digits Char.isDigit
      let e ← optional exponent
      return (fraction, e.getD 0))
  if !negative && overflowsFloat (numberOf 10 (whole ++ fraction)) (exponent - fraction.length) then fail
  else return ()

/-- A float that is no number. -/
def specialFloat : Reader Unit := do
  let _ ← sign
  orElse (word "inf".toList) (word "nan".toList)

def float : Reader Value := do
  let (_, chars) ← written (orElse decimalFloat specialFloat)
  return .float (String.ofList chars)

/-! ### Dates and times -/

/-- A number of a fixed count of digits within bounds. -/
def field (count low high : Nat) : Reader Nat := do
  let n := numberOf 10 (← exactly Char.isDigit count)
  if low ≤ n ∧ n ≤ high then return n else fail

def daysOf (year month : Nat) : Nat :=
  if month = 2 then
    if year % 4 = 0 ∧ (year % 100 ≠ 0 ∨ year % 400 = 0) then 29 else 28
  else if month = 4 ∨ month = 6 ∨ month = 9 ∨ month = 11 then 30
  else 31

def date : Reader Unit := do
  let year ← field 4 0 9999
  char '-'
  let month ← field 2 1 12
  char '-'
  let day ← field 2 1 31
  if day ≤ daysOf year month then return () else fail

/-- A time of day, which may be a leap second. -/
def time : Reader Unit := do
  let _ ← field 2 0 23
  char ':'
  let _ ← field 2 0 59
  char ':'
  let _ ← field 2 0 60
  let _ ← optional do
    char '.'
    let _ ← satisfy Char.isDigit
    span Char.isDigit
  return ()

def offset : Reader Unit :=
  orElse ((fun _ => ()) <$> satisfy fun c => c == 'Z' || c == 'z') do
    let _ ← satisfy fun c => c == '+' || c == '-'
    let _ ← field 2 0 23
    char ':'
    let _ ← field 2 0 59
    return ()

def dateTime : Reader Value := do
  let (_, chars) ← written <| orElse
    (do
      date
      let _ ← optional do
        let _ ← satisfy fun c => c == 'T' || c == 't' || c == ' '
        time
        optional offset
      return ())
    time
  return .dateTime (String.ofList chars)

/-! ### Values -/

def atom : Reader Value := do
  match ← peek? with
  | some c =>
    if c == '"' || c == '\'' then .string <$> string
    else if c == '+' || c == '-' || c.isDigit then choice [dateTime, float, integer]
    else if c == 't' then (fun _ => .boolean true) <$> word "true".toList
    else if c == 'f' then (fun _ => .boolean false) <$> word "false".toList
    else if c == 'i' || c == 'n' then float
    else fail
  | none => fail

/-- An array; its items may stand on several lines, and a comma may follow the last one. -/
def array (item : Reader Value) : Reader Value := do
  char '['
  let items ← optional (separated
    (do
      blanks
      let value ← item
      blanks
      return value)
    (char ','))
  if items.isSome then
    let _ ← optional (char ',')
  blanks
  char ']'
  return .array (items.getD [])

def entry (item : Reader Value) : Reader (List String × Value) := do
  let path ← key
  char '='
  spaces
  let value ← item
  return (path, value)

/-- A table on one line. -/
def inlineTable (item : Reader Value) : Reader Value := do
  char '\x7b'
  let entries ← optional (separated
    (do
      let e ← entry item
      spaces
      return e)
    (char ','))
  spaces
  char '\x7d'
  match Entries.ofList? (entries.getD []) with
  | some table => return .table (Entries.toValues table)
  | none => fail

def valueTo : Nat → Reader Value
  | 0 => atom
  | depth + 1 => do
    match ← peek? with
    | some '[' => array (valueTo depth)
    | some '\x7b' => inlineTable (valueTo depth)
    | _ => atom

def value : Reader Value := valueTo (depthLimit - 1)

/-! ### Documents -/

def line : Reader (Option Line) := do
  match ← peek? with
  | some '#' =>
    comment
    orElse newline eof
    return none
  | some '[' =>
    char '['
    let result ← orElse
      (do
        char '['
        let path ← key
        word [']', ']']
        return Line.tableElement path)
      (do
        let path ← key
        char ']'
        return Line.table path)
    lineTrailing
    return some result
  | some '\n' | some '\r' =>
    newline
    return none
  | _ =>
    let (path, v) ← entry value
    lineTrailing
    return some (.entry path v)

def lines : Reader (List Line) := do
  let _ ← optional (char '\uFEFF')
  spaces
  let all ← many do
    let l ← line
    spaces
    return l
  eof
  return all.filterMap id

end Grammar

def parse? (text : String) : Option (List (String × Value)) :=
  match Grammar.lines text.toList with
  | some (lines, _) => Document.ofLines? lines
  | none => none

end MeteredVm.Toml
