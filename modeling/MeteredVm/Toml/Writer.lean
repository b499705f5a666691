/-!
The written form of TOML values. A text is written between double quotes if that needs no escapes but for tabs; else
between single quotes, else over several lines, and with escapes only if none of these forms can hold it. For this
choice runs of quotes are counted, in a byte: a text with a longer run cannot be written.
-/

set_option autoImplicit false
set_option relaxedAutoImplicit false

namespace MeteredVm.Toml.Writer

def longestRun (c : Char) (chars : List Char) : Nat :=
  (chars.foldl (fun (run : Nat × Nat) d =>
    let current := if d == c then run.1 + 1 else 0
    (current, max run.2 current)) (0, 0)).2

/-- Whether a character can only be written by an escape: all control characters but the tab and the line end. -/
def needsEscape (c : Char) : Bool :=
  c != '\t' && c != '\n' && (c.toNat < 0x20 || c.toNat == 0x7F)

def fourDigits (n : Nat) : List Char :=
  let digits := "0123456789ABCDEF".toList
  [n / 4096 % 16, n / 256 % 16, n / 16 % 16, n % 16].map fun d => digits.getD d '0'

/-- The characters between double quotes, where up to `freeQuotes` double quotes in a row stand for themselves and
`quotes` of them have just been written. -/
def escapedBody (freeQuotes : Nat) (keepLines : Bool) (quotes : Nat) : List Char → List Char
  | [] => []
  | c :: rest =>
    if c == '"' then
      if quotes < freeQuotes then '"' :: escapedBody freeQuotes keepLines (quotes + 1) rest
      else '\\' :: '"' :: escapedBody freeQuotes keepLines 0 rest
    else
      let written :=
        if c == '\\' then ['\\', '\\']
        else if c == '\x08' then ['\\', 'b']
        else if c == '\t' then ['\\', 't']
        else if c == '\n' then if keepLines then ['\n'] else ['\\', 'n']
        else if c == '\x0c' then ['\\', 'f']
        else if c == '\r' then ['\\', 'r']
        else if needsEscape c then '\\' :: 'u' :: fourDigits c.toNat
        else [c]
      written ++ escapedBody freeQuotes keepLines 0 rest

def basic (chars : List Char) : List Char := '"' :: escapedBody 0 false 0 chars ++ ['"']

/-- The line end that is written, and skipped by readers, before a text that holds line ends. -/
def leadingLine (chars : List Char) : List Char := if chars.contains '\n' then ['\n'] else []

def multiLineBasic (chars : List Char) : List Char :=
  ['"', '"', '"'] ++ leadingLine chars ++ escapedBody 2 true 0 chars ++ ['"', '"', '"']

def literal (chars : List Char) : List Char := '\'' :: chars ++ ['\'']

def multiLineLiteral (chars : List Char) : List Char :=
  ['\'', '\'', '\''] ++ leadingLine chars ++ chars ++ ['\'', '\'', '\'']

def string (text : String) : String :=
  let chars := text.toList
  let codes := chars.any needsEscape
  let lines := chars.contains '\n'
  let backslash := chars.contains '\\'
  let doubles := longestRun '"' chars
  let singles := longestRun '\'' chars
  String.ofList <|
    if !codes && !backslash && doubles == 0 && !lines then basic chars
    else if !codes && singles == 0 && !lines then literal chars
    else if !codes && !backslash && doubles ≤ 2 then multiLineBasic chars
    else if !codes && singles ≤ 2 then multiLineLiteral chars
    else if lines then multiLineBasic chars
    else basic chars

/-- The length of the longest run of quotes in a text that can be written. -/
def maxQuoteRun : Nat := 255

def string? (text : String) : Option String :=
  let chars := text.toList
  if maxQuoteRun < longestRun '"' chars || maxQuoteRun < longestRun '\'' chars then none else some (string text)

def entry (key value : String) : String := key ++ " = " ++ value ++ "\n"

def header (name : String) : String := "\n[" ++ name ++ "]\n"

end MeteredVm.Toml.Writer
