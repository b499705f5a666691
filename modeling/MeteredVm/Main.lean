import MeteredVm.Node.CommandLine

/-!
The command line of the node, on the files and the environment of its process.
-/

set_option autoImplicit false
set_option relaxedAutoImplicit false

namespace MeteredVm.Main

open Node

def fileError (error : IO.Error) : FileError :=
  match error with
  | .noFileOrDirectory .. => .notFound
  | .inappropriateType _ 20 _ => .notDirectory
  | .inappropriateType _ 21 _ => .isDirectory
  | .invalidArgument _ 36 _ => .nameTooLong
  | other => .other (toString other)

/-- Runs an action on files and answers with its failure as a value. -/
def attempt {α : Type} (action : IO α) : IO (Except FileError α) := do
  match ← action.toBaseIO with
  | .ok value => return .ok value
  | .error error => return .error (fileError error)

def files : FileAccess IO where
  read path := attempt do return (← IO.FS.readBinFile path).data
  write path contents := attempt (IO.FS.writeBinFile path ⟨contents⟩)
  openAppend path := attempt do
    let _ ← IO.FS.Handle.mk path .append
    return ()

end MeteredVm.Main

def main (arguments : List String) : IO UInt32 := do
  let level ← IO.getEnv "TESSERA_LOG"
  let report ← MeteredVm.Node.CommandLine.run MeteredVm.Main.files level arguments
  for message in report.messages do
    IO.eprintln message
  IO.print report.output
  if let some error := report.error then
    IO.eprintln ("Error: " ++ error.message)
  return UInt32.ofNat report.exitCode
