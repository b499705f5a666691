/-!
Parts of a text that are given by byte offsets, as if the text was spelled in UTF-8. An offset inside a character marks
no part.
-/

set_option autoImplicit false
set_option relaxedAutoImplicit false

namespace MeteredVm.Text

/-- Splits a text behind a number of bytes, unless that is inside a character or behind the end. -/
def splitBytes? : Nat → List Char → Option (List Char × List Char)
  | 0, text => some ([], text)
  | _ + 1, [] => none
  | count + 1, c :: rest =>
    if c.utf8Size ≤ count + 1 then
      (splitBytes? (count + 1 - c.utf8Size) rest).map fun halves => (c :: halves.1, halves.2)
    else none

/-- The part of a text between two byte offsets, unless one of them is inside a character or behind the end. -/
def byteSlice? (text : List Char) (start stop : Nat) : Option (List Char) :=
  match splitBytes? start text with
  | none => none
  | some (_, rest) => (splitBytes? (stop - start) rest).map Prod.fst

def byteSuffix? (text : List Char) (start : Nat) : Option (List Char) :=
  (splitBytes? start text).map Prod.snd

end MeteredVm.Text
