import ObjectModel.Text.Basic

/-!
Paths as text. Parts are separated by slashes. The clean form of a path has no empty parts, no dots
and no double dots that a part before them takes back; the shortest clean path is a dot.
-/

namespace ObjectModel.Path

def slash : UInt8 := 0x2F

def dot : Text := "."

def dotDot : Text := ".."

def isAbsolute (path : Text) : Bool := path.head? == some slash

def parts (path : Text) : List Text := path.splitOn slash

/-- Takes one more part into the clean parts so far, the last of which comes first. -/
def push (absolute : Bool) (stack : List Text) (part : Text) : List Text :=
  if part.isEmpty || part == dot then stack
  else if part == dotDot then
    match stack with
    | last :: rest => if last == dotDot then part :: stack else rest
    | [] => if absolute then [] else [part]
  else part :: stack

def cleanParts (path : Text) : List Text :=
  ((parts path).foldl (push (isAbsolute path)) []).reverse

def joinParts (ps : List Text) : Text := [slash].intercalate ps

def ofParts (ps : List Text) : Text := slash :: joinParts ps

def clean (path : Text) : Text :=
  let ps := cleanParts path
  if isAbsolute path then ofParts ps
  else if ps.isEmpty then dot
  else joinParts ps

/-- The clean path of a name below a directory; an empty directory stands for none. -/
def join (directory name : Text) : Text :=
  if directory.isEmpty then clean name
  else if name.isEmpty then clean directory
  else clean (directory ++ slash :: name)

def absoluteParts (directory : List Text) (path : Text) : List Text :=
  if isAbsolute path then cleanParts path
  else cleanParts (ofParts directory ++ slash :: path)

/-- The places that the parts of a path lead through, from a starting place on. -/
def visited (place : List Text) : List Text → List (List Text)
  | [] => [place]
  | part :: rest =>
    place :: visited
      (if part.isEmpty || part == dot then place
        else if part == dotDot then place.dropLast
        else place ++ [part]) rest

/-- A directory and the directories above it, nearest first. -/
def ancestors (directory : List Text) : List (List Text) :=
  (List.range (directory.length + 1)).reverse.map directory.take

end ObjectModel.Path
