import MeteredVm.Pattern.Basic
import MeteredVm.Text.Alphanumeric
import MeteredVm.Text.Blank
import MeteredVm.Text.Hexadecimal

/-!
Reading of patterns. A pattern stands in a field of a log filter and therefore holds no comma, no closing brace and no
equals sign; whatever is written with one of these, such as a counted repetition, can never be completed.
-/

set_option autoImplicit false
set_option relaxedAutoImplicit false

namespace MeteredVm.Pattern

/-! ### Blanks and comments -/

/-- What follows blanks and comments; a comment lasts from a hash sign to the end of its line. -/
def afterBlanks (inComment : Bool) : List Char → List Char
  | [] => []
  | c :: rest =>
    if inComment then afterBlanks (c != '\n') rest
    else if Text.isBlank c then afterBlanks false rest
    else if c == '#' then afterBlanks true rest
    else c :: rest

def skip (blanks : Bool) (text : List Char) : List Char := if blanks then afterBlanks false text else text

/-- The first character that is no blank and does not start a comment; the first one in a comment counts too. -/
def firstSolid? (inComment : Bool) : List Char → Option Char
  | [] => none
  | c :: rest =>
    if Text.isBlank c then firstSolid? inComment rest
    else if c == '#' && !inComment then firstSolid? true rest
    else some c

/-- The character that a dash between two characters of a set leads to. -/
def behindDash? (blanks : Bool) (text : List Char) : Option Char :=
  if blanks then firstSolid? false text else text.head?

/-! ### Escapes -/

/-- Reads hexadecimal digits, between which there may be blanks where they mean nothing. -/
def hexDigits (blanks : Bool) : Nat → List Char → Option (List Char × List Char)
  | 0, text => some ([], text)
  | _ + 1, [] => none
  | count + 1, c :: rest => do
    let _ ← Text.hexDigitValue? c
    let (digits, rest) ← hexDigits blanks count (skip blanks rest)
    return (c :: digits, rest)

def numbered (blanks : Bool) (count : Nat) (text : List Char) : Option (Literal × List Char) := do
  let (digits, rest) ← hexDigits blanks count (skip blanks text)
  let number := digits.foldl (fun n c => 16 * n + (Text.hexDigitValue? c).getD 0) 0
  if number.isValidChar then return (⟨Char.ofNat number, count == 2⟩, rest) else none

/-- Whether a backslash makes a character stand for itself: all ASCII characters that are no letters, no digits and no
angle brackets. -/
def isEscapable (c : Char) : Bool := c.toNat < 0x80 && !c.isAlphanum && c != '<' && c != '>'

/-- Reads what stands behind a backslash. Properties of characters are not known. -/
def escape (blanks : Bool) : List Char → Option (Pattern × List Char)
  | [] => none
  | c :: rest =>
    match c with
    | 'x' => spelled 2 rest
    | 'u' => spelled 4 rest
    | 'U' => spelled 8 rest
    | 'd' | 's' | 'w' => some (.kind false, rest)
    | 'D' | 'S' | 'W' => some (.kind true, rest)
    | 'a' => some (.literal ⟨'\x07', false⟩, rest)
    | 'f' => some (.literal ⟨'\x0c', false⟩, rest)
    | 't' => some (.literal ⟨'\t', false⟩, rest)
    | 'n' => some (.literal ⟨'\n', false⟩, rest)
    | 'r' => some (.literal ⟨'\r', false⟩, rest)
    | 'v' => some (.literal ⟨'\x0b', false⟩, rest)
    | 'A' | 'z' => some (.place false, rest)
    | 'b' => if rest.head? == some '\x7b' then none else some (.place true, rest)
    | 'B' | '<' | '>' => some (.place true, rest)
    | _ => if isEscapable c then some (.literal ⟨c, false⟩, rest) else none
where
  spelled (count : Nat) (text : List Char) : Option (Pattern × List Char) :=
    (numbered blanks count text).map fun found => (.literal found.1, found.2)

/-! ### Sets -/

def CharSet.ofParts : List CharSet → CharSet
  | [] => .empty
  | [part] => part
  | parts => .union parts

/-- What stands before an operator, if there is one, combined with what stands behind it. -/
def CharSet.behind (left : Option CharSet) (right : CharSet) : CharSet :=
  match left with
  | none => right
  | some left => .combined left right

def classNames : List String :=
  ["alnum", "alpha", "ascii", "blank", "cntrl", "digit", "graph", "lower", "print", "punct", "space", "upper", "word",
    "xdigit"]

/-- Skips the sign that turns a set into its complement, and tells whether it is there. -/
def negation (blanks : Bool) (text : List Char) : Bool × List Char :=
  match skip blanks text with
  | '^' :: rest => (true, rest)
  | rest => (false, rest)

/-- Reads a class that has a name, of which the opening bracket has been read. -/
def namedClass? : List Char → Option (CharSet × List Char)
  | ':' :: text =>
    let (negated, text) := negation false text
    let name := text.takeWhile (· != ':')
    match text.drop name.length with
    | ':' :: ']' :: rest => if classNames.contains (String.ofList name) then some (.ascii negated, rest) else none
    | _ => none
  | _ => none

def setCharacter (blanks : Bool) : List Char → Option (Pattern × List Char)
  | [] => none
  | c :: rest => if c == '\\' then escape blanks rest else some (.literal ⟨c, false⟩, rest)

/-- What a single character or an escape is in a set; a place is no part of one. -/
def CharSet.single? : Pattern → Option CharSet
  | .literal char => some (.literal char)
  | .kind negated => some (.kind negated)
  | _ => none

/-- The characters from one to another one, which does not come before it. -/
def CharSet.range? : Pattern → Pattern → Option CharSet
  | .literal first, .literal last => if first.char ≤ last.char then some (.range first last) else none
  | _, _ => none

/-- Reads a character, an escape or a range. A dash before the end of a set or before another dash makes no range. -/
def setItem (blanks : Bool) (text : List Char) : Option (CharSet × List Char) := do
  let (first, rest) ← setCharacter blanks text
  match skip blanks rest with
  | '-' :: behind =>
    if behindDash? blanks behind == some ']' || behindDash? blanks behind == some '-' then
      return (← CharSet.single? first, '-' :: behind)
    else
      let (last, rest) ← setCharacter blanks (skip blanks behind)
      return (← CharSet.range? first last, rest)
  | rest => return (← CharSet.single? first, rest)

def isOperator (c : Char) (rest : List Char) : Bool :=
  (c == '&' || c == '-' || c == '~') && rest.head? == some c

/-- Reads a set up to the bracket that closes it. There may be dashes or a closing bracket at its start, which stand for
themselves: `opening` tells that nothing but dashes has been read. The set before the last operator is `left`, and
`parts` have been read behind it. Every turn reads something, so there are no more turns than characters. -/
def setBody (blanks : Bool) : Nat → Bool → Option CharSet → List CharSet → List Char → Option (CharSet × List Char)
  | 0, _, _, _, _ => none
  | fuel + 1, opening, left, parts, text =>
    match skip blanks text with
    | [] => none
    | c :: rest =>
      if opening && (c == '-' || (c == ']' && parts.isEmpty)) then
        setBody blanks fuel (c == '-') left (parts ++ [.literal ⟨c, false⟩]) rest
      else if c == ']' then some (.behind left (.ofParts parts), rest)
      else if isOperator c rest then
        setBody blanks fuel false (some (.behind left (.ofParts parts))) [] (rest.drop 1)
      else
        let part :=
          if c == '[' then
            match namedClass? rest with
            | some found => some found
            | none =>
              let (negated, inner) := negation blanks rest
              (setBody blanks fuel true none [] inner).map fun found => (.nested negated found.1, found.2)
          else setItem blanks (c :: rest)
        match part with
        | none => none
        | some (part, rest) => setBody blanks fuel false left (parts ++ [part]) rest

def bracketed (blanks : Bool) (text : List Char) : Option (Pattern × List Char) :=
  let (negated, inner) := negation blanks text
  (setBody blanks (inner.length + 1) true none [] inner).map fun found => (.set negated found.1, found.2)

/-! ### Groups -/

def Flag.ofLetter? : Char → Option Flag
  | 'i' => some .ignoreCase
  | 'm' => some .multiLine
  | 's' => some .dotMatchesLineEnd
  | 'U' => some .swapGreed
  | 'u' => some .unicode
  | 'R' => some .carriageReturns
  | 'x' => some .ignoreBlanks
  | _ => none

/-- Reads flags up to the colon or the parenthesis behind them, which is returned with them. A dash turns off the flags
behind it, of which there is at least one; no flag is given twice. -/
def flagsUpTo (enabled dangling : Bool) (flags : Flags) : List Char → Option (Flags × Char × List Char)
  | [] => none
  | c :: rest =>
    if c == ':' || c == ')' then if dangling then none else some (flags, c, rest)
    else if c == '-' then if enabled then flagsUpTo false true flags rest else none
    else
      match Flag.ofLetter? c with
      | none => none
      | some flag =>
        if flags.any fun given => given.1 == flag then none
        else flagsUpTo enabled false (flags ++ [(flag, enabled)]) rest

def isGroupName : List Char → Bool
  | [] => false
  | first :: others =>
    (first == '_' || Text.isAlphabetic first) &&
      others.all fun c => c == '_' || c == '.' || c == '[' || c == ']' || Text.isAlphanumeric c

def groupName (text : List Char) : Option (List Char × List Char) :=
  let name := text.takeWhile (· != '>')
  match text.drop name.length with
  | _ :: rest => if isGroupName name then some (name, rest) else none
  | [] => none

inductive Opening where
  | flags (flags : Flags)
  | group (flags : Flags) (name : Option (List Char))

def opening (text : List Char) : Option (Opening × List Char) :=
  match text with
  | '?' :: 'P' :: '<' :: rest | '?' :: '<' :: rest =>
    (groupName rest).map fun found => (.group [] (some found.1), found.2)
  | '?' :: rest =>
    match flagsUpTo true false [] rest with
    | none => none
    | some (flags, closing, rest) =>
      if closing == ':' then some (.group flags none, rest)
      else if flags.isEmpty then none
      else some (.flags flags, rest)
  | _ => some (.group [] none, text)

/-! ### Patterns -/

def ofParts : List Pattern → Pattern
  | [] => .empty
  | [part] => part
  | parts => .sequence parts

def ofBranches : List Pattern → Pattern
  | [branch] => branch
  | branches => .alternation branches

def isRepeatable : Pattern → Bool
  | .empty | .setFlags _ => false
  | _ => true

/-- Whether flags make blanks mean nothing, if they say something about it. -/
def ignoresBlanks (flags : Flags) (blanks : Bool) : Bool := (flags.lookup .ignoreBlanks).getD blanks

structure Progress where
  blanks : Bool
  /-- The names of all groups so far. -/
  names : List (List Char)
  branches : List Pattern
  /-- The parts of the branch that is being read, the last one first. -/
  parts : List Pattern

namespace Progress

def add (progress : Progress) (part : Pattern) : Progress := { progress with parts := part :: progress.parts }

def branch (progress : Progress) : Pattern := ofParts progress.parts.reverse

def nextBranch (progress : Progress) : Progress :=
  { progress with branches := progress.branches ++ [progress.branch], parts := [] }

def result (progress : Progress) : Pattern := ofBranches (progress.branches ++ [progress.branch])

def repeat? (progress : Progress) : Option Progress :=
  match progress.parts with
  | [] => none
  | part :: parts => if isRepeatable part then some { progress with parts := .repetition part :: parts } else none

/-- Notes the name of a group, which no other group has. -/
def declare? (progress : Progress) : Option (List Char) → Option Progress
  | none => some progress
  | some name => if progress.names.contains name then none else some { progress with names := name :: progress.names }

end Progress

/-- Reads a part that is neither a group nor repeated: a set, an escape, a dot, a place or a character. -/
def atom (blanks : Bool) (c : Char) (rest : List Char) : Option (Pattern × List Char) :=
  match c with
  | '[' => bracketed blanks rest
  | '\\' => escape blanks rest
  | '.' => some (.dot, rest)
  | '^' | '$' => some (.place false, rest)
  | _ => if c == '\x7b' then none else some (.literal ⟨c, false⟩, rest)

/-- Reads up to the parenthesis that closes a group or, outside of groups, up to the end. Every turn reads something, so
there are no more turns than characters. -/
def groupBody (inGroup : Bool) : Nat → Progress → List Char → Option (Progress × List Char)
  | 0, _, _ => none
  | fuel + 1, progress, text =>
    match skip progress.blanks text with
    | [] => if inGroup then none else some (progress, [])
    | c :: rest =>
      if c == ')' then if inGroup then some (progress, rest) else none
      else if c == '|' then groupBody inGroup fuel progress.nextBranch rest
      else if c == '?' || c == '*' || c == '+' then
        match progress.repeat? with
        | none => none
        | some progress => groupBody inGroup fuel progress (if rest.head? == some '?' then rest.drop 1 else rest)
      else if c == '(' then
        match opening (skip progress.blanks rest) with
        | none => none
        | some (.flags flags, rest) =>
          let progress := { progress with blanks := ignoresBlanks flags progress.blanks }
          groupBody inGroup fuel (progress.add (.setFlags flags)) rest
        | some (.group flags name, rest) =>
          match progress.declare? name with
          | none => none
          | some progress =>
            match groupBody true fuel ⟨ignoresBlanks flags progress.blanks, progress.names, [], []⟩ rest with
            | none => none
            | some (inner, rest) =>
              let progress := { progress with names := inner.names }
              groupBody inGroup fuel (progress.add (.group flags inner.result)) rest
      else
        match atom progress.blanks c rest with
        | none => none
        | some (part, rest) => groupBody inGroup fuel (progress.add part) rest

def parse? (text : List Char) : Option Pattern :=
  (groupBody false (text.length + 1) ⟨false, [], [], []⟩ text).map fun found => found.1.result

end MeteredVm.Pattern
