import MeteredVm.Node.Files
import MeteredVm.Node.Settings

/-!
Settings in files. Paths that go up are refused before anything is read or written.
-/

set_option autoImplicit false
set_option relaxedAutoImplicit false

namespace MeteredVm.Node

inductive SettingsFileError where
  | traversal
  | unreadable (path : String) (error : FileError)
  | malformed (path : String)
  | unwritable (path : String) (error : FileError)
  | unprintable
deriving DecidableEq, Repr

def SettingsFileError.message : SettingsFileError → String
  | .traversal => "Invalid path: directory traversal detected"
  | .unreadable path error => "Failed to read config file '" ++ path ++ "': " ++ error.message
  | .malformed path => "Failed to parse config file '" ++ path ++ "': "
  | .unwritable path error => "Failed to write config file '" ++ path ++ "': " ++ error.message
  | .unprintable => "The settings hold too many quotes in a row"

namespace Settings

def ofContents (path : String) (contents : Array UInt8) : Except SettingsFileError Settings :=
  match Text.Utf8.decode? contents with
  | none => .error (.unreadable path .notText)
  | some document =>
    match parse? document with
    | none => .error (.malformed path)
    | some settings => .ok settings

variable {m : Type → Type} [Monad m]

def load (files : FileAccess m) (path : String) : m (Except SettingsFileError Settings) := do
  if goesUp path then return .error .traversal
  match ← files.read path with
  | .error error => return .error (.unreadable path error)
  | .ok contents => return ofContents path contents

def save (settings : Settings) (files : FileAccess m) (path : String) : m (Except SettingsFileError Unit) := do
  if goesUp path then return .error .traversal
  match settings.render? with
  | none => return .error .unprintable
  | some document =>
    match ← files.write path (Text.Utf8.encode document) with
    | .error error => return .error (.unwritable path error)
    | .ok () => return .ok ()

end Settings

end MeteredVm.Node
