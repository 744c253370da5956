import ObjectModel.Script.Value

/-!
Evaluating operands. A session is a world, a file system and the variables of a script. Evaluation
stops at a fault of the world or at a variable that is not bound to a value of the right sort; what
was done before stays done.
-/

namespace ObjectModel.Script

structure Session where
  world : World := {}
  files : FileSystem := {}
  /-- The variables, latest binding first. -/
  bindings : List (Name × Value) := []

inductive Stop where
  | fault (fault : Fault)
  | unknownVariable (name : Name)
  /-- A variable or operand holds a value of another sort. -/
  | unsuitable
deriving DecidableEq, Repr

abbrev Eval := ExceptT Stop (StateM Session)

namespace Eval

def act {α : Type} (action : Action α) : Eval α :=
  ExceptT.mk do
    let s ← get
    let (result, world) := action.run s.world
    set { s with world }
    return result.mapError Stop.fault

def world : Eval World := do return (← get).world

def valueOf (name : Name) : Eval Value := do
  match (← get).bindings.lookup name with
  | some v => return v
  | none => throw (.unknownVariable name)

def classOfHandle (h : Handle) : Eval (Option ClassId) := do
  match h with
  | .null | .typedNull _ => return none
  | .blankFlat => throw .unsuitable
  | .object id _ =>
    match (← world).body? id with
    | some (.metaclass c) => return some c
    | _ => throw .unsuitable

def namedClass : NamedClass → Action ClassId
  | .core which => Action.coreClass which
  | .primitive which => Action.primitiveClass which
  | .point => Action.pointClass
  | .colorPoint => Action.colorPointClass
  | .alphaPoint => Action.alphaPointClass
  | .list => Action.listClass

def classOperand : ClassExpr → Eval (Option ClassId)
  | .null => return none
  | .variable name => do
    match ← valueOf name with
    | .handle h => classOfHandle h
    | _ => throw .unsuitable
  | .named which => some <$> act (namedClass which)
  | .kind code => some <$> act do Action.kindClass (← Action.kindOfCode code)
  | .array component => do
    let c ← classOperand component
    some <$> act do Action.arrayClass (← Action.classOperand c)
  | .grid component => do
    let c ← classOperand component
    some <$> act do Action.gridClass (← Action.classOperand c)
  | .registered key => do return (← world).find? key

/-- The handle of a class, a typed null for a missing one. -/
def classHandle (c : Option ClassId) : Eval Handle := do
  match c.bind (← world).class? with
  | some k => return .object k.object .metaclass
  | none => return .typedNull .metaclass

def refOperand : RefExpr → Eval Handle
  | .null => return .null
  | .variable name => do
    match ← valueOf name with
    | .handle h => return h
    | .nothing => return .null
    | _ => throw .unsuitable
  | .typedNull view => return .typedNull view
  | .string text => do return .object (← act (Action.newString text)) .string
  | .metaclass c => do classHandle (← classOperand c)

/-- An operand of a definite type; anything else counts as null. -/
def viewOperand (view : View) (e : RefExpr) : Eval (Option ObjectId) := do
  return (← refOperand e).as? view

def tableOfClass (c : Option ClassId) : Action (Option DispatchTable) := do
  return (← Action.classOf (← Action.demand c)).table

def tableOperand : TableExpr → Eval (Option DispatchTable)
  | .null => return none
  | .variable name => do
    match ← valueOf name with
    | .table t => return t
    | .nothing | .handle .null => return none
    | _ => throw .unsuitable
  | .ofClass c => do act (tableOfClass (← classOperand c))

def someTable (e : TableExpr) : Eval DispatchTable := do act (Action.demand (← tableOperand e))

def snapshotOperand : SnapshotExpr → Eval (Option Snapshot)
  | .null => return none
  | .variable name => do
    match ← valueOf name with
    | .snapshot s => return s
    | .nothing => return none
    | _ => throw .unsuitable
  | .literal s => return some s

def configOperand (name : Name) : Eval Config := do
  match ← valueOf name with
  | .config c => act (Action.demand c)
  | _ => throw .unsuitable

def arrayOperand (e : RefExpr) : Eval ObjectId := do
  let h ← refOperand e
  act (Action.checkNotNull h)
  match h with
  | .object id .array => return id
  | _ => throw .unsuitable

def gridOperand (e : RefExpr) : Eval ObjectId := do
  let h ← refOperand e
  act (Action.checkNotNull h)
  match h with
  | .object id .grid => return id
  | _ => throw .unsuitable

def rowOperand (name : Name) : Eval (ObjectId × Int32) := do
  match ← valueOf name with
  | .row grid index => return (grid, index)
  | _ => throw .unsuitable

def storedHandle : StoredExpr → Eval Handle
  | .word name => refOperand (.variable name)
  | .ref e => refOperand e
  | _ => return .null

def storedNumber : StoredExpr → Int
  | .number n => n
  | .word t =>
    match Text.readDecimal t with
    | .ok n => n
    | .error _ => 0
  | _ => 0

def storedBits : StoredExpr → Nat
  | .word t => t.foldl (fun n b => 16 * n + (Text.digitValue b).getD 0) 0
  | _ => 0

/-- Reads a stored value as an element. A handle of another type than the element's becomes the
null of that type. -/
def storedElement (type : ElementType) (e : StoredExpr) : Eval Element := do
  match type with
  | .boolean => return .boolean (match e with | .flag b => b | _ => false)
  | .byte => return .byte (Int8.ofInt (storedNumber e))
  | .char => return .char (UInt16.ofNat (storedNumber e % 65536).toNat)
  | .short => return .short (Int16.ofInt (storedNumber e))
  | .int => return .int (Int32.ofInt (storedNumber e))
  | .long => return .long (Int64.ofInt (storedNumber e))
  | .float => return .float (UInt32.ofNat (storedBits e))
  | .double => return .double (UInt64.ofNat (storedBits e))
  | .text => return .text (match e with | .word t => t | _ => [])
  | .object => return .ref (← storedHandle e)
  | .string => typed .string (← storedHandle e)
  | .point => typed .point (← storedHandle e)
where
  typed (view : View) (h : Handle) : Eval Element :=
    match h.as? view with
    | some id => return .ref (.object id view)
    | none => return .ref (.typedNull view)

end Eval

end ObjectModel.Script
