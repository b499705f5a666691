import MeteredVm.Pattern.Reading

/-!
Which patterns can be used. Characters are those of Unicode unless a pattern says that they are bytes; but the
properties of Unicode are not known, so digits, blanks and words cannot be told from other characters, letters have no
other case, and words have no boundaries. Where characters are bytes, a pattern has to keep to those of ASCII.
-/

set_option autoImplicit false
set_option relaxedAutoImplicit false

namespace MeteredVm.Pattern

inductive Refusal where
  | malformed
  | wordBoundary
deriving DecidableEq, Repr

def Refusal.message : Refusal → String
  | .malformed => "error building NFA"
  | .wordBoundary =>
    "unsupported regex feature for DFAs: cannot build DFAs for regexes with Unicode word boundaries; " ++
      "switch to ASCII word boundaries, or heuristically enable Unicode word boundaries or use a different regex engine"

structure Mode where
  ignoreCase : Bool
  unicode : Bool
deriving DecidableEq, Repr

namespace Mode

def standard : Mode := ⟨false, true⟩

def change (mode : Mode) (flags : Flags) : Mode :=
  ⟨(flags.lookup .ignoreCase).getD mode.ignoreCase, (flags.lookup .unicode).getD mode.unicode⟩

def allows (mode : Mode) (c : Literal) : Bool :=
  if mode.unicode then !mode.ignoreCase else !c.isByte || c.char.toNat < 0x80

def allowsInSet (mode : Mode) (c : Literal) : Bool :=
  if mode.unicode then !mode.ignoreCase else c.char.toNat < 0x80

/-- Whether the complement of a set, or else the set, may be asked for. -/
def allowsSet (mode : Mode) (negated : Bool) : Bool := mode.unicode || !negated

/-- Whether a digit, a blank or a character of words may be asked for, or anything else. -/
def allowsKind (mode : Mode) (negated : Bool) : Bool := !mode.unicode && !negated

end Mode

mutual

def CharSet.isUsable (mode : Mode) : CharSet → Bool
  | .empty => true
  | .literal c => mode.allowsInSet c
  | .range first last => mode.allowsInSet first && mode.allowsInSet last
  | .ascii negated => if mode.unicode then !mode.ignoreCase else !negated
  | .kind negated => mode.allowsKind negated
  | .nested negated body => mode.allowsSet negated && body.isUsable mode
  | .union parts => CharSet.areUsable mode parts
  | .combined left right => left.isUsable mode && right.isUsable mode

def CharSet.areUsable (mode : Mode) : List CharSet → Bool
  | [] => true
  | part :: rest => part.isUsable mode && CharSet.areUsable mode rest

end

mutual

/-- Whether all parts of a pattern that have no parts of their own pass a test in the modes in which they stand; and the
mode of what follows the pattern in the same group. -/
def checkAtoms (test : Mode → Pattern → Bool) (mode : Mode) : Pattern → Bool × Mode
  | .setFlags flags => (true, mode.change flags)
  | .repetition body => checkAtoms test mode body
  | .group flags body => ((checkAtoms test (mode.change flags) body).1, mode)
  | .alternation branches => checkAllAtoms test mode branches
  | .sequence parts => checkAllAtoms test mode parts
  | .empty => (test mode .empty, mode)
  | .literal c => (test mode (.literal c), mode)
  | .dot => (test mode .dot, mode)
  | .place isWordBoundary => (test mode (.place isWordBoundary), mode)
  | .kind negated => (test mode (.kind negated), mode)
  | .set negated body => (test mode (.set negated body), mode)

def checkAllAtoms (test : Mode → Pattern → Bool) (mode : Mode) : List Pattern → Bool × Mode
  | [] => (true, mode)
  | part :: rest =>
    let (passes, mode) := checkAtoms test mode part
    let (restPasses, mode) := checkAllAtoms test mode rest
    (passes && restPasses, mode)

end

/-- Whether a part that has no parts of its own can be used, if boundaries of words can. -/
def isUsableAtom (mode : Mode) : Pattern → Bool
  | .literal c => mode.allows c
  | .dot => mode.unicode
  | .kind negated => mode.allowsKind negated
  | .set negated body => mode.allowsSet negated && body.isUsable mode
  | _ => true

/-- Whether a part that has no parts of its own is anything but the boundary of a word. -/
def isNoWordBoundary (mode : Mode) : Pattern → Bool
  | .place isWordBoundary => !(mode.unicode && isWordBoundary)
  | _ => true

def maxDepth : Nat := 250

def check (text : List Char) : Except Refusal Unit :=
  match parse? text with
  | none => .error .malformed
  | some pattern =>
    if maxDepth < pattern.depth then .error .malformed
    else if !(checkAtoms isUsableAtom .standard pattern).1 then .error .malformed
    else if !(checkAtoms isNoWordBoundary .standard pattern).1 then .error .wordBoundary
    else .ok ()

end MeteredVm.Pattern
