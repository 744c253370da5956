import ObjectModel.Command.Demo
import ObjectModel.Command.Listing
import ObjectModel.Config
import ObjectModel.Snapshot.Encoding

/-!
The commands: listing the classes, writing a snapshot of them, and the demonstration. A command
gives what it writes to the output, and the file system as it leaves it.
-/

namespace ObjectModel

inductive CommandError where
  | unknown (name : Text)
  | cannotWrite (path : Text) (cause : PathError)
  | uncaught (exception : Text)
deriving DecidableEq, Repr

def CommandError.message : CommandError → Text
  | .unknown name => "unknown command " ++ Text.quoted name
  | .cannotWrite path cause =>
    "cannot write " ++ path ++ ": open " ++ path ++ ": " ++ cause.message
  | .uncaught exception => "demo: uncaught " ++ exception

structure CommandResult where
  output : Text
  files : FileSystem

namespace Action

/-- Writes a snapshot of the classes to a file, or to the output when no file is named. -/
def writeSnapshot (fs : FileSystem) (path : Text) :
    Action (Except CommandError CommandResult) := do
  let encoded := Snapshot.encode (some (Snapshot.capture (← get)))
  if path.isEmpty then return .ok ⟨encoded, fs⟩
  match fs.write path encoded with
  | .ok files => return .ok ⟨[], files⟩
  | .error cause => return .error (.cannotWrite path cause)

/-- Runs the demonstration, whose exceptions become errors. -/
def runDemo (fs : FileSystem) : Action (Except CommandError CommandResult) :=
  tryCatch (do return .ok ⟨← demo, fs⟩) fun
    | .thrown e => do return .error (.uncaught ((← get).exceptionText e))
    | fault => throw fault

def runCommand (fs : FileSystem) (name output : Text) :
    Action (Except CommandError CommandResult) := do
  if name == Text.ofString "classes" then
    bootstrap
    return .ok ⟨(← get).listing, fs⟩
  else if name == Text.ofString "snapshot" then
    bootstrap
    writeSnapshot fs output
  else if name == Text.ofString "demo" then runDemo fs
  else return .error (.unknown name)

end Action

end ObjectModel
