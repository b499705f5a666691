import MeteredVm.Pattern.Acceptance
import MeteredVm.Text.ByteSlice
import MeteredVm.Text.Decimal

/-!
Log filters: lists of directives between commas. A directive is a level, or a target and a span in brackets, of which
either may be left out, and perhaps a level behind an equals sign. A span is a name and perhaps a field in braces. Only
whether a filter is well formed matters here.

White space around a directive does not count when its parts are looked for, but it is still there when they are cut out
at the offsets where they were found. A part may therefore start too early, or even inside a character.
-/

set_option autoImplicit false
set_option relaxedAutoImplicit false

namespace MeteredVm.Node.LogFilter

inductive Error where
  | level
  | directive
  | pattern (refusal : Pattern.Refusal)
  /-- A part would start or end inside a character. -/
  | splitCharacter
deriving DecidableEq, Repr

def Error.message : Error → String
  | .level =>
    "error parsing level filter: expected one of \"off\", \"error\", \"warn\", \"info\", \"debug\", \"trace\", " ++
      "or a number 0-5"
  | .directive => "invalid filter directive"
  | .pattern refusal => "invalid field filter: " ++ refusal.message
  | .splitCharacter => "a part of the directive ends inside a character"

def levelNames : List String := ["off", "error", "warn", "info", "debug", "trace"]

/-- Whether a text is a level: a number up to five, or a name in letters of either case. -/
def isLevel (text : List Char) : Bool :=
  (Text.readUnsigned? 6 text).isSome || levelNames.any fun name => name.toList == text.map Char.toLower

/-- Accepts a level; an empty text stands for all levels. -/
def checkLevel (text : List Char) : Except Error Unit :=
  if text.isEmpty || isLevel text then .ok () else .error .level

/-- Whether a text is a value that is compared as it is: a truth value or a number. -/
def isPlainValue (text : List Char) : Bool :=
  text == "true".toList || text == "false".toList || Text.isReal text

/-- Accepts the value that a field must have: one that is compared as it is, or a pattern. -/
def checkValue (text : List Char) : Except Error Unit :=
  if isPlainValue text then .ok () else (Pattern.check text).mapError .pattern

/-- Accepts a field, which has a name and perhaps a value behind an equals sign. Another equals sign ends the value. -/
def checkField (text : List Char) : Except Error Unit :=
  if text.isEmpty then .error .directive
  else
    match text.dropWhile (· != '=') with
    | [] => .ok ()
    | _ :: value => checkValue (value.takeWhile (· != '='))

/-- Where in a directive a reader is. -/
inductive Place where
  | start
  /-- In a target, or in a level that stands alone. -/
  | name
  /-- In the name of a span, which starts at a byte offset. -/
  | span (offset : Nat)
  | field (offset : Nat)
  /-- Behind the fields of a span. -/
  | fields
  | behindSpan
  | level (offset : Nat)
deriving DecidableEq, Repr

def part (directive : List Char) (start stop : Nat) : Except Error (List Char) :=
  match Text.byteSlice? directive start stop with
  | none => .error .splitCharacter
  | some part => .ok part

def lastPart (directive : List Char) (start : Nat) : Except Error (List Char) :=
  match Text.byteSuffix? directive start with
  | none => .error .splitCharacter
  | some part => .ok part

/-- The place behind a character that is found at a byte offset. The parts that it ends are cut out and accepted. -/
def Place.next (directive : List Char) (place : Place) (offset : Nat) (c : Char) : Except Error Place :=
  match place with
  | .start =>
    if c = '[' then .ok (.span (offset + 1))
    else if c = '-' || c = ':' || c = '_' || Text.isAlphanumeric c then .ok .name
    else .error .directive
  | .name =>
    if c = '=' then (part directive 0 offset).map fun _ => .level (offset + 1)
    else if c = '[' then (part directive 0 offset).map fun _ => .span (offset + 1)
    else .ok .name
  | .span origin =>
    if c = ']' then (part directive origin offset).map fun _ => .behindSpan
    else if c = '\x7b' then (part directive origin offset).map fun _ => .field (offset + 1)
    else .ok (.span origin)
  | .field origin =>
    if c = '\x7d' then
      match part directive origin offset with
      | .error error => .error error
      | .ok text => (checkField text).map fun _ => .fields
    else .ok (.field origin)
  | .fields => if c = ']' then .ok .behindSpan else .error .directive
  | .behindSpan => if c = '=' then .ok (.level (offset + 1)) else .error .directive
  | .level origin => .ok (.level origin)

def Place.run (directive : List Char) (place : Place) (offset : Nat) : List Char → Except Error Place
  | [] => .ok place
  | c :: rest =>
    match place.next directive offset c with
    | .error error => .error error
    | .ok next => next.run directive (offset + c.utf8Size) rest

def checkDirective (directive : List Char) : Except Error Unit :=
  match Place.start.run directive 0 (Text.trimmed directive) with
  | .error error => .error error
  | .ok (.level start) =>
    match lastPart directive start with
    | .error error => .error error
    | .ok level => checkLevel level
  | .ok .name | .ok .behindSpan => .ok ()
  | .ok .start | .ok (.span _) | .ok (.field _) | .ok .fields => .error .directive

def checkAll : List (List Char) → Except Error Unit
  | [] => .ok ()
  | directive :: rest =>
    match checkDirective directive with
    | .error error => .error error
    | .ok () => checkAll rest

def check (filter : String) : Except Error Unit :=
  checkAll ((filter.toList.splitOn ',').filter fun directive => !directive.isEmpty)

end MeteredVm.Node.LogFilter
