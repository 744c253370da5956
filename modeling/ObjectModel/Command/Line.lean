import ObjectModel.Command.Basic
import ObjectModel.Text.Numeral

/-!
The command line. Options come first, with one dash or two; a value follows an equals sign or is
the next argument. Two dashes alone end the options, and so does the first argument that is none.
Exactly one command is left. A run is a function of the file system and the arguments.
-/

namespace ObjectModel.CommandLine

inductive Flag where
  | config
  | output
  | verbosity
deriving DecidableEq, Repr

def Flag.all : List Flag := [.config, .output, .verbosity]

def Flag.name : Flag → Text
  | .config => "config"
  | .output => "o"
  | .verbosity => "v"

structure Settings where
  config : Text := []
  output : Text := []
  verbosity : Int := -1
deriving DecidableEq, Repr

inductive FlagError where
  | help
  | badSyntax (argument : Text)
  | undefined (name : Text)
  | needsArgument (flag : Flag)
  | badNumber (value : Text) (flag : Flag) (cause : Text.NumeralError)
deriving DecidableEq, Repr

def FlagError.message : FlagError → Text
  | .help => []
  | .badSyntax argument => "bad flag syntax: " ++ argument ++ "\n"
  | .undefined name => "flag provided but not defined: -" ++ name ++ "\n"
  | .needsArgument flag => "flag needs an argument: -" ++ flag.name ++ "\n"
  | .badNumber value flag cause =>
    let reason : Text := match cause with
      | .malformed => "parse error"
      | .outOfRange => "value out of range"
    "invalid value " ++ Text.quoted value ++ " for flag -" ++ flag.name ++ ": " ++ reason ++ "\n"

inductive Argument where
  | operand
  | endOfFlags
  | malformed
  | flag (name : Text) (value : Option Text)
deriving DecidableEq, Repr

/-- Splits the text of an option at its first equals sign, which is not its first byte. -/
def splitValue (text : Text) : Text × Option Text :=
  let name := text.take 1 ++ (text.drop 1).takeWhile (· != 0x3D)
  match text.drop name.length with
  | [] => (name, none)
  | _ :: value => (name, some value)

def classifyName (text : Text) : Argument :=
  match text with
  | [] | 0x2D :: _ | 0x3D :: _ => .malformed
  | _ =>
    let (name, value) := splitValue text
    .flag name value

def classify (argument : Text) : Argument :=
  match argument with
  | [0x2D, 0x2D] => .endOfFlags
  | 0x2D :: 0x2D :: rest => classifyName rest
  | 0x2D :: b :: rest => classifyName (b :: rest)
  | _ => .operand

def setFlag (s : Settings) (flag : Flag) (value : Text) : Except FlagError Settings :=
  match flag with
  | .config => .ok { s with config := value }
  | .output => .ok { s with output := value }
  | .verbosity =>
    match Text.readInteger value with
    | .ok n => .ok { s with verbosity := n }
    | .error cause => .error (.badNumber value flag cause)

def readFlags (s : Settings) : List Text → Except FlagError (Settings × List Text)
  | [] => .ok (s, [])
  | argument :: rest =>
    match classify argument with
    | .operand => .ok (s, argument :: rest)
    | .endOfFlags => .ok (s, rest)
    | .malformed => .error (.badSyntax argument)
    | .flag name value =>
      match Flag.all.find? (·.name == name) with
      | none =>
        .error (if name == Text.ofString "h" || name == Text.ofString "help" then .help
          else .undefined name)
      | some flag =>
        match value with
        | some value => do readFlags (← setFlag s flag value) rest
        | none =>
          match rest with
          | [] => .error (.needsArgument flag)
          | value :: rest => do readFlags (← setFlag s flag value) rest

def usage : Text :=
  "Usage: jrt [options] <command>\n\nCommands:\n" ++
  "  classes    List the runtime's classes and their vtable layouts\n" ++
  "  snapshot   Write a CBOR snapshot of the class metadata\n" ++
  "  demo       Run the built-in demo program\n" ++
  "\nOptions:\n" ++
  "  -config string\n" ++
  "    \tPath to jrt.toml (default: search upward from the working directory)\n" ++
  "  -o string\n    \tOutput file for 'snapshot' (default: stdout)\n" ++
  "  -v int\n    \tLog verbosity (overrides the configuration) (default -1)\n"

structure Report where
  exitCode : Nat
  output : Text := []
  errors : Text := []
  files : FileSystem
  messages : List Message := []
  /-- The file that the messages go to, empty when they go with the errors. -/
  logPath : Text := []

/-- Makes sure that the log file of a configuration can be written, if it names one. -/
def openLog (fs : FileSystem) (c : Config) : Except PathError FileSystem :=
  if c.logPath.isEmpty then .ok fs else fs.touch c.logPath

def complaint (message : Text) : Text := "Error: " ++ message ++ "\n"

def logComplaint (path : Text) (cause : PathError) : Text :=
  "log file error: open " ++ path ++ ": " ++ cause.message ++ "\n"

/-- The verbosity of the settings, if given, takes the place of the configured one. -/
def Settings.override (s : Settings) (c : Config) : Config :=
  if 0 ≤ s.verbosity then { c with verbosity := Int64.ofInt s.verbosity } else c

def executeWith (fs : FileSystem) (c : Config) (s : Settings) (command : Text) :
    Action Report := do
  Action.applyConfig c
  match ← Action.runCommand fs command s.output with
  | .error e =>
    return { exitCode := 1, errors := complaint e.message, files := fs, logPath := c.logPath }
  | .ok result =>
    return { exitCode := 0, output := result.output, files := result.files, logPath := c.logPath }

def execute (fs : FileSystem) (s : Settings) (command : Text) : Action Report := do
  match ← Action.chooseConfig fs s.config with
  | .error e => return { exitCode := 1, errors := complaint e.message, files := fs }
  | .ok c =>
    match openLog fs c with
    | .error cause =>
      return { exitCode := 1, errors := logComplaint c.logPath cause, files := fs }
    | .ok fs => executeWith fs (s.override c) s command

def executeAlone (fs : FileSystem) (s : Settings) (command : Text) : Report :=
  match (execute fs s command).run {} with
  | (.ok report, w) => { report with messages := w.messages.toList }
  | (.error _, w) => { exitCode := 2, files := fs, messages := w.messages.toList }

def run (fs : FileSystem) (arguments : List Text) : Report :=
  match readFlags {} arguments with
  | .error .help => { exitCode := 0, errors := usage, files := fs }
  | .error e => { exitCode := 2, errors := e.message ++ usage, files := fs }
  | .ok (s, [command]) => executeAlone fs s command
  | .ok _ => { exitCode := 2, errors := usage, files := fs }

end ObjectModel.CommandLine
