import MeteredVm.Node.Arguments
import MeteredVm.Node.LogFilter
import MeteredVm.Node.Runner
import MeteredVm.Node.SettingsFile

/-!
What the node does with its command line: it reads its settings, lets the arguments override them, checks them, makes
sure that it can log, and performs the command. The first step that fails ends it.
-/

set_option autoImplicit false
set_option relaxedAutoImplicit false

namespace MeteredVm.Node

inductive CommandError where
  | settingsFile (error : SettingsFileError)
  | unprintable
  | settings (error : SettingsError)
  | logFilter (error : LogFilter.Error)
  | logFile (path : String) (error : FileError)
  | program (path : String) (error : FileError)
  | input (error : Text.HexError)
  | run (error : RunError)
deriving DecidableEq, Repr

def CommandError.message : CommandError → String
  | .settingsFile error => error.message
  | .unprintable => SettingsFileError.unprintable.message
  | .settings error => error.message
  | .logFilter error => error.message
  | .logFile path error => "Failed to open log file '" ++ path ++ "': " ++ error.message
  | .program path error => "Failed to read program '" ++ path ++ "': " ++ error.message
  | .input error => "Invalid input hex: " ++ error.message
  | .run error => error.message

/-- Whether a failure breaks the command off before it can say why. -/
def CommandError.isAbrupt : CommandError → Bool
  | .unprintable | .settingsFile .unprintable | .logFilter .splitCharacter | .run (.pool _) | .run .tooManyRuns => true
  | _ => false

structure Report where
  exitCode : Nat
  output : String
  /-- Why the command failed, if it says so. -/
  error : Option CommandError
  /-- The messages of the programs that were run. -/
  messages : List String

namespace Report

def success (output : String) (messages : List String) : Report := ⟨0, output, none, messages⟩

def failure (error : CommandError) : Report :=
  if error.isAbrupt then ⟨101, "", none, []⟩ else ⟨1, "", some error, []⟩

def usage : Report := ⟨2, "", none, []⟩

/-- The first line of a text; a carriage return at its end belongs to the line end. -/
def firstLine (text : List Char) : List Char :=
  let line := text.takeWhile (· != '\n')
  if line.getLast? == some '\r' then line.dropLast else line

def errorLine? (report : Report) : Option String :=
  report.error.map fun error => String.ofList (firstLine error.message.toList)

end Report

namespace CommandLine

def versionLine : String := "tessera-node 0.1.0\n"

def helpText : String := "Usage: tessera-node [OPTIONS] <COMMAND>\n"

/-- The settings after the arguments have overridden them. -/
def override (settings : Settings) (arguments : Arguments) : Settings :=
  let level := arguments.logLevel.getD settings.logging.level
  let format := if arguments.jsonLogs then "json" else settings.logging.format
  let poolCapacity := match arguments.command with
    | .run _ _ _ _ (some capacity) => capacity
    | .run _ _ _ _ none | .config _ => settings.vm.poolCapacity
  { settings with
    logging := { settings.logging with level, format }
    vm := { settings.vm with poolCapacity } }

def withoutSign : List Char → List Char
  | '0' :: 'x' :: rest => withoutSign rest
  | text => text

def readInput (text : String) : Except Text.HexError (Array UInt8) :=
  Text.readHex (Text.Utf8.encode (String.ofList (withoutSign text.toList)))

def summary (run : Nat) (result : ExecutionResult) : String :=
  let outcome := match result.outcome with
    | .halt output => "halt 0x" ++ Text.hexBytes output
    | .outOfGas => "out of gas"
    | .panic => "panic"
  "run " ++ toString run ++ ": " ++ outcome ++ " (gas used " ++ toString result.gasUsed ++ ")\n"

/-- The lines that tell how runs ended, counted from `first`. -/
def summaries (first : Nat) : List ExecutionResult → String
  | [] => ""
  | result :: rest => summary first result ++ summaries (first + 1) rest

def runProgram (config : VmConfig) (code input : Array UInt8) (gas : Option Nat) (runs : Nat) : Report :=
  match Runner.ofConfig config with
  | .error error => .failure (.run error)
  | .ok runner =>
    match (runner.runMany code input gas runs).1 with
    | .error error => .failure (.run error)
    | .ok batch => .success (summaries 0 batch.results) batch.messages

def inputOf : Option String → Except Text.HexError (Array UInt8)
  | none => .ok #[]
  | some text => readInput text

variable {m : Type → Type} [Monad m]

def settingsOf (files : FileAccess m) : Option String → m (Except SettingsFileError Settings)
  | none => return .ok .standard
  | some path => Settings.load files path

def prepareLog (files : FileAccess m) (logging : LogSettings) : m (Except CommandError Unit) := do
  match LogFilter.check logging.level with
  | .error error => return .error (.logFilter error)
  | .ok () =>
    match logging.logFile with
    | none => return .ok ()
    | some path =>
      match ← files.openAppend path with
      | .error error => return .error (.logFile path error)
      | .ok () => return .ok ()

def execute (files : FileAccess m) (settings : Settings) : Command → m Report
  | .run program input gas runs _ => do
    match ← files.read program with
    | .error error => return .failure (.program program error)
    | .ok code =>
      match inputOf input with
      | .error error => return .failure (.input error)
      | .ok input => return runProgram settings.vm code input gas runs
  | .config none =>
    match settings.render? with
    | none => return .failure .unprintable
    | some document => return .success document []
  | .config (some path) => do
    match ← settings.save files path with
    | .error error => return .failure (.settingsFile error)
    | .ok () => return .success "" []

def perform (files : FileAccess m) (arguments : Arguments) : m Report := do
  match ← settingsOf files arguments.config with
  | .error error => return .failure (.settingsFile error)
  | .ok loaded =>
    let settings := override loaded arguments
    match settings.validate with
    | .error error => return .failure (.settings error)
    | .ok () =>
      match ← prepareLog files settings.logging with
      | .error error => return .failure error
      | .ok () => execute files settings arguments.command

def run (files : FileAccess m) (level : Option String) (arguments : List String) : m Report :=
  match Arguments.parse level arguments with
  | .usage => return .usage
  | .help => return .success helpText []
  | .version => return .success versionLine []
  | .perform arguments => perform files arguments

end CommandLine

end MeteredVm.Node
