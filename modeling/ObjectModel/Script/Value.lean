import ObjectModel.Script.Syntax

/-!
What steps of a script give: values that variables can hold, and failures that are reported and
bound to nothing.
-/

namespace ObjectModel.Script

inductive Failure where
  | load (cause : LoadError)
  | command (cause : CommandError)
  | refused (cause : Snapshot.Refusal)
  | cannotMake (path : Text) (cause : PathError)
  | cannotWrite (path : Text) (cause : PathError)
deriving DecidableEq, Repr

def Failure.message : Failure → Text
  | .load cause => cause.message
  | .command cause => cause.message
  | .refused cause => cause.message
  | .cannotMake path cause => "mkdir " ++ path ++ ": " ++ cause.message
  | .cannotWrite path cause => "open " ++ path ++ ": " ++ cause.message

inductive Value where
  | nothing
  | handle (handle : Handle)
  | table (table : Option DispatchTable)
  | row (grid : ObjectId) (index : Int32)
  | flag (value : Bool)
  | number (value : Int)
  | text (value : Text)
  | element (value : Element)
  | elements (values : List Element)
  | extent (rows columns : Nat)
  | classes (ids : List ClassId)
  | classReport (id : ClassId)
  | tableReport (ids : List ClassId) (has : Bool)
  | kindReport (code : KindCode)
  | destroyed (objects : List (Text × Handle))
  | content (bytes : Option Text)
  | encoding (bytes : Text)
  | config (config : Option Config)
  | snapshot (snapshot : Option Snapshot)
  | descriptor (descriptor : Option Descriptor)
  | search (found : Handle) (success : Bool)
  /-- What the steps of an attempt gave, and the exception that ended it. -/
  | attempt (done : List (Except Failure Value)) (fault : Option ObjectId)
  /-- How a run of the program ended, with the content of a file that was asked for. -/
  | report (report : CommandLine.Report) (file : Option (Option Text))

/-- The value of an array element that was read: the handle it holds, or the element itself. -/
def Value.ofElement : Element → Value
  | .ref h => .handle h
  | e => .element e

abbrev Reply := Except Failure Value

end ObjectModel.Script
