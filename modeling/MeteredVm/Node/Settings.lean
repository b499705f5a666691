import MeteredVm.Config
import MeteredVm.Text.Blank
import MeteredVm.Text.Utf8
import MeteredVm.Toml.Grammar
import MeteredVm.Toml.Writer

/-!
The settings of the node: its name, the settings of the execution core, and how it logs. They are read from and
written to TOML documents. Keys that are left out keep their standard values, and unknown keys are ignored.
-/

set_option autoImplicit false
set_option relaxedAutoImplicit false

namespace MeteredVm.Node

structure LogSettings where
  /-- A level or filter directives. -/
  level : String
  logFile : Option String
  format : String
deriving DecidableEq, Repr

structure Settings where
  name : String
  vm : VmConfig
  logging : LogSettings
deriving DecidableEq, Repr

inductive SettingsError where
  | emptyName
  | vm (error : VmError)
  | unknownFormat (format : String)
deriving DecidableEq, Repr

def SettingsError.message : SettingsError → String
  | .emptyName => "Node name cannot be empty"
  | .vm error => error.message
  | .unknownFormat format => "Unknown log format '" ++ format ++ "', expected json or pretty"

namespace LogSettings

def standard : LogSettings := ⟨"info", none, "pretty"⟩

def isJson (settings : LogSettings) : Bool := settings.format == "json"

end LogSettings

namespace Settings

def standard : Settings := ⟨"tessera-node", .standard, .standard⟩

instance : Inhabited Settings := ⟨standard⟩

def validate (settings : Settings) : Except SettingsError Unit :=
  if (Text.trimmed settings.name.toList).isEmpty then .error .emptyName
  else
    match settings.vm.validate with
    | .error error => .error (.vm error)
    | .ok () =>
      if settings.logging.format == "pretty" || settings.logging.format == "json" then .ok ()
      else .error (.unknownFormat settings.logging.format)

/-! ### Reading -/

def text? : Toml.Value → Option String
  | .string text => some text
  | _ => none

def natural? : Toml.Value → Option Nat
  | .integer n => if 0 ≤ n then some n.toNat else none
  | _ => none

def word32? (value : Toml.Value) : Option UInt32 := do
  let n ← natural? value
  if n < 4294967296 then some (UInt32.ofNat n) else none

/-- The values of the named fields of a record. A record is a table of its fields, or an array of them in order; a date
is a record of which no field is known. -/
def fields? (names : List String) : Toml.Value → Option (List (String × Toml.Value))
  | .table entries => some entries
  | .array items => some (names.zip items)
  | .dateTime _ => some []
  | .string _ | .integer _ | .boolean _ | .float _ => none

def field {α : Type} (entries : List (String × Toml.Value)) (name : String) (standard : α)
    (read : Toml.Value → Option α) : Option α :=
  match entries.lookup name with
  | none => some standard
  | some value => read value

def vmFields : List String :=
  ["pool_capacity", "default_gas", "instruction_gas", "unknown_host_call_gas", "max_code_size"]

def vm? (value : Toml.Value) : Option VmConfig := do
  let entries ← fields? vmFields value
  let base := VmConfig.standard
  let poolCapacity ← field entries "pool_capacity" base.poolCapacity natural?
  let defaultGas ← field entries "default_gas" base.defaultGas natural?
  let instructionGas ← field entries "instruction_gas" base.instructionGas word32?
  let unknownCallGas ← field entries "unknown_host_call_gas" base.unknownCallGas word32?
  let maxCodeSize ← field entries "max_code_size" base.maxCodeSize natural?
  return ⟨poolCapacity, defaultGas, instructionGas, unknownCallGas, maxCodeSize⟩

def logFields : List String := ["level", "log_file", "format"]

def logging? (value : Toml.Value) : Option LogSettings := do
  let entries ← fields? logFields value
  let base := LogSettings.standard
  let level ← field entries "level" base.level text?
  let logFile ← field entries "log_file" base.logFile fun value => some <$> text? value
  let format ← field entries "format" base.format text?
  return ⟨level, logFile, format⟩

def parse? (document : String) : Option Settings := do
  let entries ← Toml.parse? document
  let name ← field entries "name" standard.name text?
  let vm ← field entries "pvm" standard.vm vm?
  let logging ← field entries "logging" standard.logging logging?
  return ⟨name, vm, logging⟩

/-! ### Writing -/

/-- The document of settings, if all texts in them can be written. -/
def render? (settings : Settings) : Option String := do
  let vm := settings.vm
  let logging := settings.logging
  let number (n : Nat) : String := toString n
  let name ← Toml.Writer.string? settings.name
  let level ← Toml.Writer.string? logging.level
  let logFile ← match logging.logFile with
    | some file => Toml.Writer.entry "log_file" <$> Toml.Writer.string? file
    | none => some ""
  let format ← Toml.Writer.string? logging.format
  return String.join [
    Toml.Writer.entry "name" name,
    Toml.Writer.header "pvm",
    Toml.Writer.entry "pool_capacity" (number vm.poolCapacity),
    Toml.Writer.entry "default_gas" (number vm.defaultGas),
    Toml.Writer.entry "instruction_gas" (number vm.instructionGas.toNat),
    Toml.Writer.entry "unknown_host_call_gas" (number vm.unknownCallGas.toNat),
    Toml.Writer.entry "max_code_size" (number vm.maxCodeSize),
    Toml.Writer.header "logging",
    Toml.Writer.entry "level" level,
    logFile,
    Toml.Writer.entry "format" format]

end Settings

end MeteredVm.Node
