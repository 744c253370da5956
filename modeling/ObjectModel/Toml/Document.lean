import ObjectModel.Toml.Parser
import Std.Data.HashSet

/-!
Building the tables of a document. A table comes into being by a header, by a dotted key, or on the
way to either. One that came into being on the way is implicit and may be defined once more; any
other second definition is refused. Keys are listed in the order in which they are written, each
time they are written.
-/

namespace ObjectModel.Toml

inductive Node where
  | text (value : Text)
  | integer (value : Int)
  | boolean (value : Bool)
  | other
  | array
  | table (entries : List (Text × Node))
  /-- An array of tables, latest first. -/
  | tables (elements : List (List (Text × Node)))

abbrev Entries := List (Text × Node)

namespace Entries

def get? (t : Entries) (key : Text) : Option Node := t.lookup key

def put (key : Text) (value : Node) : Entries → Entries
  | [] => [(key, value)]
  | (k, v) :: rest => if k == key then (key, value) :: rest else (k, v) :: put key value rest

end Entries

/-- The table that entries are added to under a node: a table, or the latest of several. -/
def Node.current? : Node → Option Entries
  | .table t => some t
  | .tables (t :: _) => some t
  | _ => none

def Node.withCurrent (t : Entries) : Node → Node
  | .tables (_ :: rest) => .tables (t :: rest)
  | _ => .table t

def Entries.updateAt (f : Entries → Option Entries) : Key → Entries → Option Entries
  | [], t => f t
  | part :: path, t => do
    let node ← t.get? part
    let inner ← updateAt f path (← node.current?)
    return t.put part (node.withCurrent inner)

/-- Makes the tables on the way to a key where they are missing, and tells the keys of those it
made. The parts walked so far come latest first. -/
def Entries.makeAlong (walked : Key) : Key → Entries → Option (Entries × List Key)
  | [], t => some (t, [])
  | part :: rest, t =>
    match t.get? part with
    | none => do
      let (inner, made) ← makeAlong (part :: walked) rest []
      return (t.put part (.table inner), (part :: walked).reverse :: made)
    | some node => do
      let (inner, made) ← makeAlong (part :: walked) rest (← node.current?)
      return (t.put part (node.withCurrent inner), made)

structure Draft where
  root : Entries := []
  context : Key := []
  implicit : Std.HashSet Key := {}
  arrays : Std.HashSet Key := {}
  /-- The keys written so far, latest first. -/
  written : List Key := []

abbrev Build := StateT Draft Option

namespace Build

def refuse {α : Type} : Build α := fun _ => none

def markImplicit (key : Key) : Build Unit :=
  modify fun d => { d with implicit := d.implicit.insert key }

def unmarkImplicit (key : Key) : Build Unit :=
  modify fun d => { d with implicit := d.implicit.erase key }

/-- Notes whether the value of a key of the context is an array. The empty key stands for the
context itself. -/
def noteArray (key : Text) (isArray : Bool) : Build Unit :=
  modify fun d =>
    let path := if key.isEmpty then (if d.context.isEmpty then [[]] else d.context)
      else d.context ++ [key]
    { d with arrays := if isArray then d.arrays.insert path else d.arrays.erase path }

def write (key : Key) : Build Unit := modify fun d => { d with written := key :: d.written }

def enter (context : Key) : Build Unit := modify fun d => { d with context }

def update (path : Key) (f : Entries → Option Entries) : Build Unit := do
  let d ← get
  match d.root.updateAt f path with
  | some root => set { d with root }
  | none => refuse

def tableAt (path : Key) : Build Entries := do
  let find (t : Entries) (part : Text) : Option Entries := (t.get? part).bind Node.current?
  match path.foldlM find (← get).root with
  | some t => return t
  | none => refuse

/-- Sets a key of the context. An existing value is kept if it is implicit, replaced if it is an
implicit array, and otherwise must not be defined again. -/
def assign (key : Text) (value : Node) : Build Unit := do
  let context := (← get).context
  let path := context ++ [key]
  let t ← tableAt context
  if (t.get? key).isSome then
    let d ← get
    let replaces := d.arrays.contains path
    if !d.implicit.contains path then refuse
    unmarkImplicit path
    if replaces then update context fun t => some (t.put key value)
  else update context fun t => some (t.put key value)

def makeParents (key : Key) : Build Unit := do
  let d ← get
  match d.root.makeAlong [] key with
  | some (root, made) =>
    set { d with root, implicit := made.foldl Std.HashSet.insert d.implicit }
  | none => refuse

def appendTable (key : Text) (t : Entries) : Option Entries :=
  match t.get? key with
  | none => some (t.put key (.tables [[]]))
  | some (.tables elements) => some (t.put key (.tables ([] :: elements)))
  | some _ => none

def openTable (key : Key) (inArray : Bool) : Build Unit := do
  let parents := key.dropLast
  let name := key.getLastD []
  makeParents parents
  enter parents
  if inArray then update parents (appendTable name) else assign name (.table [])
  enter key

def openDotted : Key → Build Unit
  | [] => return ()
  | part :: rest => do
    let path := (← get).context ++ [part]
    markImplicit path
    openTable path false
    openDotted rest

def putDotted (value : Node) : Key → Entries → Option Entries
  | [], _ => none
  | [key], t => some (t.put key value)
  | part :: rest, t =>
    match t.get? part with
    | none => do return t.put part (.table (← putDotted value rest []))
    | some (.table inner) => do return t.put part (.table (← putDotted value rest inner))
    | some _ => none

def isArray : Expr → Bool
  | .array _ => true
  | _ => false

mutual

def evaluate (key : Text) (inArray : Bool) : Expr → Build Node
  | .text value => return .text value
  | .integer value => return .integer value
  | .boolean value => return .boolean value
  | .float | .moment => return .other
  | .array items => do
    noteArray key true
    evaluateItems key items
    return .array
  | .table entries => do
    let outer := (← get).context
    let inner := outer ++ [key]
    markImplicit inner
    openTable inner inArray
    let t ← evaluateEntries inner [] entries
    enter outer
    return .table t

def evaluateItems (key : Text) : List Expr → Build Unit
  | [] => return ()
  | item :: rest => do
    let _ ← evaluate key true item
    evaluateItems key rest

/-- Assigns the entries of an inline table, each starting from the table's context. -/
def evaluateEntries (context : Key) (t : Entries) : List (Key × Expr) → Build Entries
  | [] => return t
  | (key, value) :: rest => do
    enter context
    let name := key.getLastD []
    openDotted key.dropLast
    write ((← get).context ++ [name])
    let node ← evaluate name false value
    assign name node
    noteArray name (isArray value)
    match putDotted node key t with
    | some t => evaluateEntries context t rest
    | none => refuse

end

def statement : Statement → Build Unit
  | .header key => do
    openTable key false
    noteArray [] false
    write key
  | .arrayHeader key => do
    openTable key true
    noteArray [] false
    write key
  | .assign key value => do
    let outer := (← get).context
    let _ ← evaluateEntries outer [] [(key, value)]
    enter outer

end Build

structure Document where
  root : Entries
  keys : List Key

/-- Reads a document, or nothing when it is malformed or defines something twice. -/
def Document.read (t : Text) : Option Document := do
  let statements ← parse t
  let (_, d) ← (statements.forM Build.statement).run {}
  return ⟨d.root, d.written.reverse⟩

end ObjectModel.Toml
