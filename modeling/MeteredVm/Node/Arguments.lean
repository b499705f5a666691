import MeteredVm.Text.Decimal

/-!
The arguments of the command line. Options may be given before the command, which all commands share, or behind it;
each is given at most once in either place, and what is given behind the command counts. Arguments are read from left
to right, and the first fault or the first request for help or for the version decides.
-/

set_option autoImplicit false
set_option relaxedAutoImplicit false

namespace MeteredVm.Node

inductive Command where
  | run (program : String) (input : Option String) (gas : Option Nat) (runs : Nat) (poolCapacity : Option Nat)
  | config (output : Option String)
deriving DecidableEq, Repr

structure Arguments where
  config : Option String
  logLevel : Option String
  jsonLogs : Bool
  command : Command
deriving DecidableEq, Repr

inductive Request where
  | perform (arguments : Arguments)
  | help
  | version
  | usage
deriving DecidableEq, Repr

namespace Arguments

inductive Scope where
  | top
  | run
  | config
deriving DecidableEq, Repr

inductive Name where
  | config | logLevel | jsonLogs | help | version | program | input | gas | runs | poolCapacity | output
deriving DecidableEq, Repr

/-- What an option takes. -/
inductive Kind where
  | switch
  | text
  | path
  | number
deriving DecidableEq, Repr

def Name.kind : Name → Kind
  | .jsonLogs | .help | .version => .switch
  | .config | .program | .output => .path
  | .logLevel | .input => .text
  | .gas | .runs | .poolCapacity => .number

def Name.long : Name → String
  | .config => "config"
  | .logLevel => "log-level"
  | .jsonLogs => "json-logs"
  | .help => "help"
  | .version => "version"
  | .program => "program"
  | .input => "input"
  | .gas => "gas"
  | .runs => "runs"
  | .poolCapacity => "pool-capacity"
  | .output => "output"

def Name.short? : Name → Option Char
  | .config => some 'c'
  | .logLevel => some 'l'
  | .help => some 'h'
  | .version => some 'V'
  | .program => some 'p'
  | .input => some 'i'
  | .gas => some 'g'
  | .runs => some 'r'
  | .output => some 'o'
  | .jsonLogs | .poolCapacity => none

def Scope.names : Scope → List Name
  | .top => [.config, .logLevel, .jsonLogs, .help, .version]
  | .run => [.program, .input, .gas, .runs, .poolCapacity, .config, .logLevel, .jsonLogs, .help]
  | .config => [.output, .config, .logLevel, .jsonLogs, .help]

def numberBound : Nat := 18446744073709551616

def Kind.accepts (kind : Kind) (value : List Char) : Bool :=
  match kind with
  | .switch => false
  | .text => true
  | .path => !value.isEmpty
  | .number => (Text.readUnsigned? numberBound value).isSome

/-- Whether an argument can be the value of the option before it. -/
def isValue : List Char → Bool
  | '-' :: _ :: _ => false
  | _ => true

structure Progress where
  scope : Scope
  outer : List (Name × List Char)
  inner : List (Name × List Char)

namespace Progress

def start : Progress := ⟨.top, [], []⟩

def given (progress : Progress) : List (Name × List Char) :=
  if progress.scope = .top then progress.outer else progress.inner

def record (progress : Progress) (name : Name) (value : List Char) : Option Progress :=
  if (progress.given.lookup name).isSome then none
  else if progress.scope = .top then some { progress with outer := (name, value) :: progress.outer }
  else some { progress with inner := (name, value) :: progress.inner }

/-- The value of an option that may be given in either place. -/
def shared? (progress : Progress) (name : Name) : Option (List Char) :=
  progress.inner.lookup name <|> progress.outer.lookup name

def number? (progress : Progress) (name : Name) : Option Nat :=
  progress.inner.lookup name >>= Text.readUnsigned? numberBound

def text? (progress : Progress) (name : Name) : Option String := (progress.inner.lookup name).map String.ofList

def finish (progress : Progress) (level : Option String) : Request :=
  let perform (command : Command) : Request :=
    .perform {
      config := (progress.shared? .config).map String.ofList
      logLevel := (progress.shared? .logLevel).map String.ofList <|> level
      jsonLogs := (progress.shared? .jsonLogs).isSome
      command }
  match progress.scope with
  | .top => .usage
  | .config => perform (.config (progress.text? .output))
  | .run =>
    match progress.text? .program with
    | none => .usage
    | some program =>
      perform (.run program (progress.text? .input) (progress.number? .gas) ((progress.number? .runs).getD 1)
        (progress.number? .poolCapacity))

end Progress

/-- An argument that is an option: its name, and the value that is part of the argument. -/
inductive Spelled where
  | known (name : Name) (attached : Option (List Char))
  | unknown
  | plain
  /-- It ends the options. -/
  | stop

def classify (scope : Scope) : List Char → Spelled
  | ['-', '-'] => .stop
  | '-' :: '-' :: body =>
    let spelling := String.ofList (body.takeWhile (· != '='))
    let attached := match body.dropWhile (· != '=') with
      | _ :: value => some value
      | [] => none
    match scope.names.find? fun name => name.long == spelling with
    | some name => .known name attached
    | none => .unknown
  | '-' :: c :: body =>
    let attached := match body with
      | [] => none
      | '=' :: value => some value
      | value => some value
    match scope.names.find? fun name => name.short? == some c with
    | some name => .known name attached
    | none => .unknown
  | _ => .plain

def command? (argument : List Char) : Option Scope :=
  if argument == "run".toList then some .run
  else if argument == "config".toList then some .config
  else none

/-- What the arguments behind `help` ask for. -/
def helpOn : List (List Char) → Request
  | [] => .help
  | [topic] => if (command? topic).isSome || topic == "help".toList then .help else .usage
  | _ => .usage

/-- Reads arguments from left to right; `level` is the log level of the environment. -/
def read (level : Option String) (progress : Progress) : List (List Char) → Request
  | [] => progress.finish level
  | argument :: rest =>
    match classify progress.scope argument with
    | .unknown => .usage
    | .stop => if rest.isEmpty then progress.finish level else .usage
    | .plain =>
      if progress.scope = .top then
        if argument == "help".toList then helpOn rest
        else
          match command? argument with
          | some scope => read level { progress with scope } rest
          | none => .usage
      else .usage
    | .known .help attached => if attached.isNone || isShort argument then .help else .usage
    | .known .version attached => if attached.isNone || isShort argument then .version else .usage
    | .known name (some value) =>
      if name.kind.accepts value then
        match progress.record name value with
        | some progress => read level progress rest
        | none => .usage
      else .usage
    | .known name none =>
      if name.kind = .switch then
        match progress.record name [] with
        | some progress => read level progress rest
        | none => .usage
      else
        match rest with
        | [] => .usage
        | value :: rest =>
          if isValue value && name.kind.accepts value then
            match progress.record name value with
            | some progress => read level progress rest
            | none => .usage
          else .usage
where
  isShort : List Char → Bool
    | '-' :: '-' :: _ => false
    | _ => true

def parse (level : Option String) (arguments : List String) : Request :=
  read level .start (arguments.map String.toList)

end Arguments

end MeteredVm.Node
