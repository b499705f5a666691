/-!
Access to files: what the node asks of a file system, the errors it may answer with, and a file system that is a plain
value. That one has the usual directories, the null device and the files that are put into it; other directories exist
only as far as files lie in them.
-/

set_option autoImplicit false
set_option relaxedAutoImplicit false

namespace MeteredVm.Node

inductive FileError where
  | notFound
  | isDirectory
  | notDirectory
  | nameTooLong
  /-- The path holds a character that no file system takes. -/
  | zeroCharacter
  | notText
  | other (words : String)
deriving DecidableEq, Repr

def FileError.message : FileError → String
  | .notFound => "No such file or directory (os error 2)"
  | .isDirectory => "Is a directory (os error 21)"
  | .notDirectory => "Not a directory (os error 20)"
  | .nameTooLong => "File name too long (os error 36)"
  | .zeroCharacter => "file name contained an unexpected NUL byte"
  | .notText => "stream did not contain valid UTF-8"
  | .other words => words

structure FileAccess (m : Type → Type) where
  read : String → m (Except FileError (Array UInt8))
  write : String → Array UInt8 → m (Except FileError Unit)
  /-- Makes sure that a file can be appended to. -/
  openAppend : String → m (Except FileError Unit)

def pathParts (path : String) : List String := path.splitOn "/"

def goesUp (path : String) : Bool := (pathParts path).contains ".."

/-- Files by the names on the way to them from the root. -/
structure FileTree where
  files : List (List String × Array UInt8)

namespace FileTree

/-- The directory that paths start from which do not start with a slash. -/
def workingDirectory : List String := ["tmp", "work"]

def usualDirectories : List (List String) :=
  [] :: workingDirectory ::
    ["bin", "boot", "dev", "etc", "home", "lib", "media", "mnt", "opt", "proc", "root", "run", "sbin", "srv", "sys",
      "tmp", "usr", "var"].map ([·])

/-- The device that is empty and swallows what is written to it. -/
def nullDevice : List String := ["dev", "null"]

def maxPathLength : Nat := 4095

def maxNameLength : Nat := 255

def empty : FileTree := ⟨[]⟩

/-- Files that lie in the working directory, by their paths from there. -/
def ofFiles (files : List (String × Array UInt8)) : FileTree :=
  ⟨files.map fun file =>
    (workingDirectory ++ (pathParts file.1).filter fun part => !part.isEmpty && part != ".", file.2)⟩

inductive Place where
  | directory
  | file (contents : Array UInt8)
  | nullDevice
  | nothing

def find (tree : FileTree) (names : List String) : Place :=
  if names = nullDevice then .nullDevice
  else
    match tree.files.lookup names with
    | some contents => .file contents
    | none =>
      if usualDirectories.contains names || tree.files.any fun file => names.isPrefixOf file.1 then .directory
      else .nothing

def findIn (tree : FileTree) (directory : List String) (name : String) : Except FileError Place :=
  if maxNameLength < name.utf8ByteSize then .error .nameTooLong else .ok (tree.find (directory ++ [name]))

def enter (tree : FileTree) (directory : List String) (part : String) : Except FileError (List String) :=
  if part = "." then .ok directory
  else if part = ".." then .ok directory.dropLast
  else
    match tree.findIn directory part with
    | .error error => .error error
    | .ok .directory => .ok (directory ++ [part])
    | .ok .nothing => .error .notFound
    | .ok (.file _) | .ok .nullDevice => .error .notDirectory

def walk (tree : FileTree) (directory : List String) : List String → Except FileError (List String)
  | [] => .ok directory
  | part :: rest =>
    match tree.enter directory part with
    | .error error => .error error
    | .ok next => tree.walk next rest

/-- The directory that a path leads to, and the name in it at which the path ends. A path that ends at a directory as
such, as one to the root does, has no such name. -/
def resolve (tree : FileTree) (path : String) : Except FileError (List String × Option String) :=
  if path.contains '\x00' then .error .zeroCharacter
  else if path.isEmpty then .error .notFound
  else if maxPathLength < path.utf8ByteSize then .error .nameTooLong
  else
    let origin := if path.startsWith "/" then [] else workingDirectory
    let parts := (pathParts path).filter fun part => !part.isEmpty
    match parts.getLast? with
    | none => .ok (origin, none)
    | some last =>
      match tree.walk origin parts.dropLast with
      | .error error => .error error
      | .ok directory =>
        if last = "." || last = ".." then (tree.enter directory last).map fun directory => (directory, none)
        else .ok (directory, some last)

/-- Whether a path must end at a directory. -/
def asksForDirectory (path : String) : Bool := path.endsWith "/"

def read (tree : FileTree) (path : String) : Except FileError (Array UInt8) :=
  match tree.resolve path with
  | .error error => .error error
  | .ok (_, none) => .error .isDirectory
  | .ok (directory, some name) =>
    match tree.findIn directory name with
    | .error error => .error error
    | .ok .nothing => .error .notFound
    | .ok .directory => .error .isDirectory
    | .ok .nullDevice => if asksForDirectory path then .error .notDirectory else .ok #[]
    | .ok (.file contents) => if asksForDirectory path then .error .notDirectory else .ok contents

def put (tree : FileTree) (names : List String) (contents : Array UInt8) : FileTree :=
  ⟨(names, contents) :: tree.files.filter fun file => file.1 != names⟩

/-- Makes or replaces a file; `change` says what becomes of the contents that are there. A path that must end at a
directory is refused before its last name is looked up. -/
def update (tree : FileTree) (path : String) (change : Array UInt8 → Array UInt8) : Except FileError FileTree :=
  match tree.resolve path with
  | .error error => .error error
  | .ok (_, none) => .error .isDirectory
  | .ok (directory, some name) =>
    if asksForDirectory path then .error .isDirectory
    else
      match tree.findIn directory name with
      | .error error => .error error
      | .ok .directory => .error .isDirectory
      | .ok .nullDevice => .ok tree
      | .ok .nothing => .ok (tree.put (directory ++ [name]) (change #[]))
      | .ok (.file contents) => .ok (tree.put (directory ++ [name]) (change contents))

/-- Runs a change of the files and answers whether it could be made. -/
def attempt (change : FileTree → Except FileError FileTree) : StateM FileTree (Except FileError Unit) := fun tree =>
  match change tree with
  | .ok next => (.ok (), next)
  | .error error => (.error error, tree)

def access : FileAccess (StateM FileTree) where
  read path := fun tree => (tree.read path, tree)
  write path contents := attempt fun tree => tree.update path fun _ => contents
  openAppend path := attempt fun tree => tree.update path id

end FileTree

end MeteredVm.Node
