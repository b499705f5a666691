import MeteredVm.Toml.Reader
import MeteredVm.Toml.Value

/-!
How the lines of a document build its tables. A table may be named in passing by the header of a table below it and
be given its own header later; a table built by dotted keys may be extended by dotted keys only; a table in an array
is always the last one. Nothing may be defined twice.
-/

set_option autoImplicit false
set_option relaxedAutoImplicit false

namespace MeteredVm.Toml

/-- How a table came to be. -/
structure Origin where
  /-- It was only named in passing. -/
  isImplicit : Bool
  /-- It was built by dotted keys. -/
  isDotted : Bool
deriving DecidableEq, Repr

def Origin.header : Origin := ⟨false, false⟩

/-- What a key stands for while tables are being built. -/
inductive Node where
  | value (value : Value)
  | table (origin : Origin) (entries : List (String × Node))
  | tables (elements : List (List (String × Node)))

/-- Keys and what they stand for, in the order of their first appearance. -/
abbrev Entries := List (String × Node)

mutual

def Node.toValue : Node → Value
  | .value value => value
  | .table _ entries => .table (Entries.toValues entries)
  | .tables elements => .array (Entries.elementValues elements)

def Entries.toValues : List (String × Node) → List (String × Value)
  | [] => []
  | (key, node) :: rest => (key, node.toValue) :: Entries.toValues rest

def Entries.elementValues : List (List (String × Node)) → List Value
  | [] => []
  | entries :: rest => .table (Entries.toValues entries) :: Entries.elementValues rest

end

namespace Entries

def replace (key : String) (node : Node) (entries : Entries) : Entries :=
  entries.map fun entry => if entry.1 == key then (key, node) else entry

/-- Changes the table at a path. Tables on the way are made where there are none; with dotted keys, tables under their
own headers are not entered. -/
def change (dotted : Bool) (f : Origin → Entries → Option Entries) :
    List String → Origin → Entries → Option Entries
  | [], origin, entries => f origin entries
  | key :: path, _, entries =>
    match entries.lookup key with
    | none => do
      let below ← change dotted f path ⟨true, dotted⟩ []
      return entries ++ [(key, .table ⟨true, dotted⟩ below)]
    | some (.value _) => none
    | some (.table origin below) =>
      if dotted && !origin.isImplicit then none
      else do
        let below ← change dotted f path origin below
        return replace key (.table origin below) entries
    | some (.tables elements) =>
      match elements.getLast? with
      | none => none
      | some last => do
        let below ← change dotted f path .header last
        return replace key (.tables (elements.dropLast ++ [below])) entries

def add (key : String) (node : Node) (entries : Entries) : Option Entries :=
  if (entries.lookup key).isSome then none else some (entries ++ [(key, node)])

/-- Adds a value under a dotted key. The table that receives it must have been built by dotted keys, unless the key
has one part only. -/
def define (entries : Entries) (path : List String) (value : Value) : Option Entries :=
  match path.getLast? with
  | none => none
  | some key =>
    let tablePath := path.dropLast
    let receive (origin : Origin) (below : Entries) : Option Entries :=
      if origin.isDotted == tablePath.isEmpty then none else add key (.value value) below
    change true receive tablePath .header entries

def ofList? (pairs : List (List String × Value)) : Option Entries :=
  pairs.foldlM (fun entries pair => entries.define pair.1 pair.2) []

end Entries

inductive Line where
  | entry (path : List String) (value : Value)
  | table (path : List String)
  /-- The header of the next table of an array. -/
  | tableElement (path : List String)

structure Document where
  root : Entries
  current : Entries
  /-- The path of the current table; it is empty above the first header. -/
  path : List String
  isElement : Bool

namespace Document

def atParent (root : Entries) (path : List String) (f : String → Entries → Option Entries) : Option Entries :=
  match path.getLast? with
  | none => none
  | some key => Entries.change false (fun _ entries => f key entries) path.dropLast .header root

/-- Puts the current table in its place. -/
def close (document : Document) : Option Entries :=
  if document.path.isEmpty then some document.current
  else
    atParent document.root document.path fun key entries =>
      if document.isElement then
        match entries.lookup key with
        | none => some (entries ++ [(key, .tables [document.current])])
        | some (.tables elements) => some (Entries.replace key (.tables (elements ++ [document.current])) entries)
        | some _ => none
      else Entries.add key (.table .header document.current) entries

def find? : List String → Entries → Option Node
  | [], _ => none
  | [key], entries => entries.lookup key
  | key :: path, entries =>
    match entries.lookup key with
    | some (.table _ below) => find? path below
    | some (.tables elements) =>
      match elements.getLast? with
      | some last => find? path last
      | none => none
    | _ => none

/-- Starts the table under a header. A table that was only named in passing keeps what it has. -/
def openTable (root : Entries) (path : List String) : Option Document := do
  match find? path root with
  | none =>
    let root ← atParent root path fun _ entries => some entries
    return ⟨root, [], path, false⟩
  | some (.table origin entries) =>
    if origin.isImplicit && !origin.isDotted then
      let root ← atParent root path fun key siblings => some (siblings.filter fun entry => entry.1 != key)
      return ⟨root, entries, path, false⟩
    else none
  | some _ => none

def openElement (root : Entries) (path : List String) : Option Document :=
  match find? path root with
  | none | some (.tables _) => do
    let root ← atParent root path fun _ entries => some entries
    return ⟨root, [], path, true⟩
  | some _ => none

def extend (document : Document) : Line → Option Document
  | .entry path value => do
    let current ← document.current.define path value
    return { document with current }
  | .table path => do openTable (← document.close) path
  | .tableElement path => do openElement (← document.close) path

def ofLines? (lines : List Line) : Option (List (String × Value)) := do
  let document ← lines.foldlM extend (⟨[], [], [], false⟩ : Document)
  return Entries.toValues (← document.close)

end Document

end MeteredVm.Toml
