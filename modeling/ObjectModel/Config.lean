import ObjectModel.FileSystem.Basic
import ObjectModel.Operation
import ObjectModel.Text.Quoted
import ObjectModel.Toml.Document

/-!
Run-time configuration. A configuration document has a table for arrays and one for the log. Names
match their settings in any letter case, values must have the type of their setting, and keys that
match nothing are reported as warnings. Where a document writes one setting in several letter cases,
any of them may count; here the last one does. The nearest document at or above a directory is the
one that counts there.
-/

namespace ObjectModel

structure Config where
  allowZeroLength : Bool := false
  verbosity : Int64 := 0
  logPath : Text := []
  path : Text := []
deriving DecidableEq, Repr

inductive LoadError where
  | unreadable (path : Text) (cause : FileSystem.ReadError)
  | malformed (path : Text)
  | negativeVerbosity (path : Text)
deriving DecidableEq, Repr

def LoadError.message : LoadError → Text
  | .unreadable path (.cannotOpen cause) =>
    "cannot read " ++ path ++ ": open " ++ path ++ ": " ++ cause.message
  | .unreadable path (.cannotRead cause) =>
    "cannot read " ++ path ++ ": read " ++ path ++ ": " ++ cause.message
  | .malformed path => "parse error in " ++ path
  | .negativeVerbosity path => path ++ ": log verbosity must not be negative"

namespace Config

def fileName : Text := "jrt.toml"

/-- The lower-case form under which names are compared: capital letters and the two letters outside
ASCII that are variants of ASCII ones fold to small letters. -/
def foldPiece : Text.Piece → Text.Piece
  | .scalar 0x17F => .scalar 0x73
  | .scalar 0x212A => .scalar 0x6B
  | .scalar code => .scalar (if 0x41 ≤ code ∧ code ≤ 0x5A then code + 0x20 else code)
  | p => p

def sameName (name key : Text) : Bool :=
  (Text.pieces name).map foldPiece == (Text.pieces key).map foldPiece

abbrev Reading := Config × List Toml.Key

def readArrays (table : Text) (r : Reading) (entry : Text × Toml.Node) : Option Reading :=
  let (key, value) := entry
  let (c, used) := r
  if sameName "allow-zero-length" key then
    match value with
    | .boolean b => some ({ c with allowZeroLength := b }, [table, key] :: used)
    | _ => none
  else some r

def readLog (table : Text) (r : Reading) (entry : Text × Toml.Node) : Option Reading :=
  let (key, value) := entry
  let (c, used) := r
  if sameName "verbosity" key then
    match value with
    | .integer n => some ({ c with verbosity := Int64.ofInt n }, [table, key] :: used)
    | _ => none
  else if sameName "path" key then
    match value with
    | .text t => some ({ c with logPath := t }, [table, key] :: used)
    | _ => none
  else some r

def readTop (r : Reading) (entry : Text × Toml.Node) : Option Reading :=
  let (key, value) := entry
  let (c, used) := r
  let inside (read : Text → Reading → Text × Toml.Node → Option Reading) : Option Reading :=
    match value with
    | .table entries => entries.foldlM (read key) (c, [key] :: used)
    | _ => none
  if sameName "arrays" key then inside readArrays
  else if sameName "log" key then inside readLog
  else some r

/-- The configuration a document describes, with its unknown keys in writing order. -/
def ofDocument (d : Toml.Document) : Option (Config × List Toml.Key) := do
  let (c, used) ← d.root.foldlM readTop ({}, [])
  return (c, d.keys.filter fun key => !used.contains key)

def parse (t : Text) : Option (Config × List Toml.Key) := do ofDocument (← Toml.Document.read t)

def options (c : Config) : Options := { allowZeroLength := c.allowZeroLength }

end Config

namespace Action

/-- Reads a configuration file, with a warning for each unknown key. -/
def loadConfig (fs : FileSystem) (path : Text) : Action (Except LoadError Config) := do
  match fs.read path with
  | .error cause => return .error (.unreadable path cause)
  | .ok content =>
    match Config.parse content with
    | none => return .error (.malformed path)
    | some (c, unknown) =>
      unknown.forM fun key =>
        log .warning .config (path ++ ": unknown key " ++ Toml.renderKey key)
      if c.verbosity < 0 then return .error (.negativeVerbosity path)
      return .ok { c with path := Path.ofParts (Path.absoluteParts fs.workingDirectory path) }

def loadConfigIn (fs : FileSystem) (directory : Text) : Action (Except LoadError Config) :=
  loadConfig fs (Path.join directory Config.fileName)

end Action

namespace Config

/-- The configuration file of the nearest directory that has one, at or above the given one. -/
def nearest? (fs : FileSystem) (directory : Text) : Option Text :=
  let candidates := (Path.ancestors (Path.absoluteParts fs.workingDirectory directory)).map
    fun l => Path.ofParts (l ++ [fileName])
  candidates.find? fs.exists?

end Config

namespace Action

def findConfig (fs : FileSystem) (directory : Text) :
    Action (Except LoadError (Option Config)) := do
  match Config.nearest? fs directory with
  | none => return .ok none
  | some path => return (← loadConfig fs path).map some

/-- The configuration to run with: the file named, else the nearest one, else the default. -/
def chooseConfig (fs : FileSystem) (path : Text) : Action (Except LoadError Config) := do
  if path.isEmpty then return (← findConfig fs Path.dot).map (·.getD {})
  else loadConfig fs path

/-- Puts a configuration into force: first the log's threshold, then the options. -/
def applyConfig (c : Config) : Action Unit := do
  modify fun w => { w with threshold := Severity.ofVerbosity c.verbosity.toInt }
  setOptions c.options
  log .info .config ("applied configuration from " ++ Text.quoted c.path)

end Action

end ObjectModel
