import ObjectModel.Command.Line

/-!
The program. It looks at the files that a run can depend on, carries the run out on that picture,
and puts what the run wrote into place.
-/

namespace ObjectModel.Program

def string? (t : Text) : Option String := String.fromUTF8? ⟨t.toArray⟩

def lookAt (fs : FileSystem) (place : Location) : IO FileSystem := do
  let some path := string? (Path.ofParts place) | return fs
  let path := (← IO.currentDir) / path
  if ← path.isDir then return fs.put place .directory
  else if ← path.pathExists then
    return fs.put place (.file (← IO.FS.readBinFile path).data.toList)
  else return fs

def lookAlong (fs : FileSystem) (path : Text) : IO FileSystem :=
  (Path.visited (fs.start path) (Path.parts path)).foldlM lookAt fs

/-- The configuration files that a run may read. -/
def configPaths (fs : FileSystem) (s : CommandLine.Settings) : List Text :=
  if s.config.isEmpty then
    (Path.ancestors fs.workingDirectory).map fun l => Path.ofParts (l ++ [Config.fileName])
  else [s.config]

def look (s : CommandLine.Settings) : IO FileSystem := do
  let here := Path.cleanParts (Text.ofString (← IO.currentDir).toString)
  let fs : FileSystem := { workingDirectory := here }
  let fs ← (Path.ofParts here :: configPaths fs s ++ [s.output]).foldlM lookAlong fs
  match ((Action.chooseConfig fs s.config).run {}).1 with
  | .ok (.ok c) => lookAlong fs c.logPath
  | _ => return fs

def store (before after : FileSystem) : IO Unit :=
  after.entries.forM fun (place, entry) => do
    match entry, string? (Path.ofParts place) with
    | .file content, some path =>
      if before.entry? place != some entry then IO.FS.writeBinFile path ⟨content.toArray⟩
    | _, _ => return ()

/-- Writes messages to the log file, or with the errors where there is none. -/
def writeLog (r : CommandLine.Report) : IO Unit := do
  let lines := r.messages.flatMap fun m => m.line ++ [0x0A]
  match string? r.logPath with
  | some path =>
    if path.isEmpty then (← IO.getStderr).write ⟨lines.toArray⟩
    else
      let log ← IO.FS.Handle.mk path .append
      log.write ⟨lines.toArray⟩
  | none => return ()

def run (arguments : List Text) : IO UInt32 := do
  let s := match CommandLine.readFlags {} arguments with
    | .ok (s, _) => s
    | .error _ => {}
  let before ← look s
  let report := CommandLine.run before arguments
  store before report.files
  writeLog report
  (← IO.getStdout).write ⟨report.output.toArray⟩
  (← IO.getStderr).write ⟨report.errors.toArray⟩
  return UInt32.ofNat report.exitCode

end ObjectModel.Program

def main (arguments : List String) : IO UInt32 :=
  ObjectModel.Program.run (arguments.map ObjectModel.Text.ofString)
