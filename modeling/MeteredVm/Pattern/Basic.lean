/-!
Patterns: regular expressions that a value in a log filter may have to match. A pattern is kept as it is written, for
it is only asked whether it can be used.
-/

set_option autoImplicit false
set_option relaxedAutoImplicit false

namespace MeteredVm

structure Pattern.Literal where
  char : Char
  /-- It is spelled as a byte, by two hexadecimal digits. -/
  isByte : Bool
deriving DecidableEq, Repr

inductive Pattern.CharSet where
  | empty
  | literal (char : Literal)
  | range (first last : Literal)
  /-- A class of ASCII characters that has a name, such as the letters, or its complement. -/
  | ascii (negated : Bool)
  /-- The digits, the blanks, or the characters of words, or a complement of these. -/
  | kind (negated : Bool)
  | nested (negated : Bool) (body : CharSet)
  | union (parts : List CharSet)
  /-- What an operator makes of two sets. -/
  | combined (left right : CharSet)

/-- What can be turned on and off for a part of a pattern. -/
inductive Pattern.Flag where
  | ignoreCase
  | multiLine
  | dotMatchesLineEnd
  | swapGreed
  /-- Characters are those of Unicode; otherwise they are bytes. -/
  | unicode
  | carriageReturns
  /-- Blanks and comments in the pattern mean nothing. -/
  | ignoreBlanks
deriving DecidableEq, Repr

/-- Flags and whether each is turned on. -/
abbrev Pattern.Flags := List (Pattern.Flag × Bool)

inductive Pattern where
  | empty
  /-- Flags for what follows in the same group. -/
  | setFlags (flags : Pattern.Flags)
  | literal (char : Pattern.Literal)
  | dot
  /-- A place, which may be the boundary of a word. -/
  | place (isWordBoundary : Bool)
  /-- A digit, a blank, or a character of words, or anything else. -/
  | kind (negated : Bool)
  | set (negated : Bool) (body : Pattern.CharSet)
  | repetition (body : Pattern)
  /-- A group, with flags that hold within it. -/
  | group (flags : Pattern.Flags) (body : Pattern)
  | alternation (branches : List Pattern)
  | sequence (parts : List Pattern)

namespace Pattern

mutual

/-- How deep sets are nested in a set. -/
def CharSet.depth : CharSet → Nat
  | .empty | .literal _ | .range _ _ | .ascii _ | .kind _ => 0
  | .nested _ body => body.depth + 1
  | .union parts => CharSet.depthOfAll parts + 1
  | .combined left right => max left.depth right.depth + 1

def CharSet.depthOfAll : List CharSet → Nat
  | [] => 0
  | part :: rest => max part.depth (CharSet.depthOfAll rest)

end

mutual

/-- How deep patterns and sets are nested in a pattern. -/
def depth : Pattern → Nat
  | .empty | .setFlags _ | .literal _ | .dot | .place _ | .kind _ => 0
  | .set _ body => body.depth + 1
  | .repetition body => body.depth + 1
  | .group _ body => body.depth + 1
  | .alternation branches => depthOfAll branches + 1
  | .sequence parts => depthOfAll parts + 1

def depthOfAll : List Pattern → Nat
  | [] => 0
  | part :: rest => max part.depth (depthOfAll rest)

end

end Pattern

end MeteredVm
