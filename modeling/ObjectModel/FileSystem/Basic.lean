import ObjectModel.FileSystem.Path

/-!
A file system: files and directories by the parts of their absolute paths, and a working directory.
A path is resolved part by part; each part but the last must lead to a directory. The root is always
a directory.
-/

namespace ObjectModel

inductive FileEntry where
  | directory
  | file (content : Text)
deriving DecidableEq, Repr

inductive PathError where
  | missing
  | notDirectory
  | isDirectory
  | nameTooLong
  | invalid
deriving DecidableEq, Repr

def PathError.message : PathError → Text
  | .missing => "no such file or directory"
  | .notDirectory => "not a directory"
  | .isDirectory => "is a directory"
  | .nameTooLong => "file name too long"
  | .invalid => "invalid argument"

/-- A place in the tree: the parts of its absolute path. -/
abbrev Location := List Text

structure FileSystem where
  entries : List (Location × FileEntry) := []
  workingDirectory : Location := []
deriving DecidableEq, Repr

namespace FileSystem

def entry? (fs : FileSystem) (l : Location) : Option FileEntry :=
  if l.isEmpty then some .directory else fs.entries.lookup l

def isDirectory (fs : FileSystem) (l : Location) : Bool := fs.entry? l == some .directory

def put (fs : FileSystem) (l : Location) (e : FileEntry) : FileSystem :=
  { fs with entries := (l, e) :: fs.entries.filter fun (m, _) => m != l }

def maxName : Nat := 255

def maxPath : Nat := 4095

def checkPath (path : Text) : Except PathError Unit :=
  if path.contains 0 then .error .invalid
  else if path.isEmpty then .error .missing
  else if maxPath < path.length then .error .nameTooLong
  else .ok ()

def start (fs : FileSystem) (path : Text) : Location :=
  if Path.isAbsolute path then [] else fs.workingDirectory

def walk (fs : FileSystem) (l : Location) : List Text → Except PathError Location
  | [] => .ok l
  | part :: rest =>
    if !fs.isDirectory l then .error .notDirectory
    else if part.isEmpty || part == Path.dot then fs.walk l rest
    else if part == Path.dotDot then fs.walk l.dropLast rest
    else if maxName < part.length then .error .nameTooLong
    else if (fs.entry? (l ++ [part])).isNone then .error .missing
    else fs.walk (l ++ [part]) rest

def resolve (fs : FileSystem) (path : Text) : Except PathError Location := do
  checkPath path
  fs.walk (fs.start path) (Path.parts path)

def exists? (fs : FileSystem) (path : Text) : Bool := (fs.resolve path).isOk

/-- Why a file cannot be read: it cannot be opened, or it can and is no file. -/
inductive ReadError where
  | cannotOpen (cause : PathError)
  | cannotRead (cause : PathError)
deriving DecidableEq, Repr

def read (fs : FileSystem) (path : Text) : Except ReadError Text :=
  match fs.resolve path with
  | .error cause => .error (.cannotOpen cause)
  | .ok l =>
    match fs.entry? l with
    | some (.file content) => .ok content
    | _ => .error (.cannotRead .isDirectory)

/-- The place where a file may be written: below an existing directory, and not itself one. -/
def resolveForWriting (fs : FileSystem) (path : Text) : Except PathError Location := do
  checkPath path
  let ps := (Path.parts path).reverse
  let trailing := ps.takeWhile List.isEmpty
  match ps.drop trailing.length with
  | [] => throw .isDirectory
  | last :: before =>
    let parent ← fs.walk (fs.start path) before.reverse
    if !fs.isDirectory parent then throw .notDirectory
    if !trailing.isEmpty || last == Path.dot || last == Path.dotDot then throw .isDirectory
    if maxName < last.length then throw .nameTooLong
    let l := parent ++ [last]
    if fs.isDirectory l then throw .isDirectory
    return l

def write (fs : FileSystem) (path content : Text) : Except PathError FileSystem := do
  return fs.put (← fs.resolveForWriting path) (.file content)

/-- Makes sure that a file exists, without changing one that does. -/
def touch (fs : FileSystem) (path : Text) : Except PathError FileSystem := do
  let l ← fs.resolveForWriting path
  return if (fs.entry? l).isSome then fs else fs.put l (.file [])

def makeAlong (fs : FileSystem) (l : Location) : List Text → Except PathError FileSystem
  | [] => if fs.isDirectory l then .ok fs else .error .notDirectory
  | part :: rest =>
    if !fs.isDirectory l then .error .notDirectory
    else if part.isEmpty || part == Path.dot then fs.makeAlong l rest
    else if part == Path.dotDot then fs.makeAlong l.dropLast rest
    else if maxName < part.length then .error .nameTooLong
    else
      let next := l ++ [part]
      let fs := if (fs.entry? next).isNone then fs.put next .directory else fs
      fs.makeAlong next rest

def makeDirectory (fs : FileSystem) (path : Text) : Except PathError FileSystem := do
  checkPath path
  fs.makeAlong (fs.start path) (Path.parts path)

def writeWithParents (fs : FileSystem) (path content : Text) : Except PathError FileSystem := do
  checkPath path
  let fs ← fs.makeAlong (fs.start path) (Path.parts path).dropLast
  fs.write path content

end FileSystem

end ObjectModel
