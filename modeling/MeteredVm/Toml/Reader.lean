/-!
Reading from a list of characters: a reader takes what it reads from the front, or fails. Choices try the second reader
from where the first one started.
-/

set_option autoImplicit false
set_option relaxedAutoImplicit false

namespace MeteredVm.Toml

/-- Reads a value from the front of a text and leaves the rest, or fails. -/
def Reader (α : Type) : Type := List Char → Option (α × List Char)

namespace Reader

variable {α β : Type}

instance : Monad Reader where
  pure a := fun text => some (a, text)
  bind reader next := fun text =>
    match reader text with
    | none => none
    | some (a, rest) => next a rest

def fail : Reader α := fun _ => none

def orElse (first second : Reader α) : Reader α := fun text =>
  match first text with
  | some result => some result
  | none => second text

def choice : List (Reader α) → Reader α
  | [] => fail
  | reader :: rest => orElse reader (choice rest)

def optional (reader : Reader α) : Reader (Option α) := orElse (some <$> reader) (pure none)

/-- The next character, without reading it. -/
def peek? : Reader (Option Char) := fun text => some (text.head?, text)

def satisfy (p : Char → Bool) : Reader Char
  | c :: rest => if p c then some (c, rest) else none
  | [] => none

def char (c : Char) : Reader Unit := (fun _ => ()) <$> satisfy (· == c)

def word : List Char → Reader Unit
  | [] => pure ()
  | c :: rest => do
    char c
    word rest

def span (p : Char → Bool) : Reader (List Char) := fun text => some (text.takeWhile p, text.dropWhile p)

def exactly (p : Char → Bool) : Nat → Reader (List Char)
  | 0 => pure []
  | count + 1 => do
    let c ← satisfy p
    let rest ← exactly p count
    return c :: rest

def eof : Reader Unit
  | [] => some ((), [])
  | _ :: _ => none

/-- Reads repeatedly, at most `fuel` times, until the reader fails. -/
def manyUpTo (reader : Reader α) : Nat → Reader (List α)
  | 0 => pure []
  | fuel + 1 => fun text =>
    match reader text with
    | none => some ([], text)
    | some (a, rest) => ((a :: ·) <$> manyUpTo reader fuel) rest

/-- Reads repeatedly until the reader fails. A reader that always reads something cannot be used more often than the
text has characters. -/
def many (reader : Reader α) : Reader (List α) := fun text => manyUpTo reader text.length text

def separated (reader : Reader α) (separator : Reader Unit) : Reader (List α) := do
  let first ← reader
  let rest ← many do
    separator
    reader
  return first :: rest

/-- Reads a value together with the characters that were read. -/
def written (reader : Reader α) : Reader (α × List Char) := fun text =>
  match reader text with
  | none => none
  | some (a, rest) => some ((a, text.take (text.length - rest.length)), rest)

end Reader

end MeteredVm.Toml
