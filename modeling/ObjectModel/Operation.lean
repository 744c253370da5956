import ObjectModel.Class.Definition

/-!
Operations on handles. The default operations read the object behind a handle: its identity and the
class of its dispatch table. The four dispatched operations follow the static type of the handle,
so a view answers with the operations of its own type. Releasing runs the destructor of the
object's table and then marks the object, so that it is not released again.
-/

namespace ObjectModel

def Body.coordinates? : Body → Option (Int32 × Int32)
  | .point x y | .colorPoint x y _ | .alphaPoint x y _ _ => some (x, y)
  | _ => none

/-- The colour of a coloured point, none when it has no colour. -/
def Body.color? : Body → Option ObjectId
  | .colorPoint _ _ color | .alphaPoint _ _ color _ => color
  | _ => none

def Body.alpha? : Body → Option Int32
  | .alphaPoint _ _ _ alpha => some alpha
  | _ => none

def Obj.withoutStorage (o : Obj) : Obj :=
  match o.body with
  | .array cells => { o with body := .array { cells with storage := [] } }
  | .grid cells => { o with body := .grid { cells with storage := [] } }
  | _ => o

def Obj.asReleased (o : Obj) : Obj := { o with released := true }

namespace Action

/-- The object a handle refers to. The blank flat value refers to none. -/
def referent (h : Handle) : Action (Option ObjectId) :=
  match h with
  | .object id _ => return some id
  | .blankFlat => return none
  | .null | .typedNull _ => crash .nullDereference

def target (h : Handle) : Action ObjectId := do demand (← referent h)

/-- The contents of a string, none standing for a null string. -/
def stringContent (s : Option ObjectId) : Action Content := do
  demand ((← get).content? (← demand s))

def stringText (s : Option ObjectId) : Action Text := do return (← stringContent s).text

/-- The contents of a string, a null string reading as the word null. -/
def printedContent (s : Option ObjectId) : Action Content :=
  match s with
  | none => return .ofText "null"
  | some _ => stringContent s

def printedText (s : Option ObjectId) : Action Text := do return (← printedContent s).text

def concat (s other : Option ObjectId) : Action ObjectId := do
  let left ← stringContent s
  let right ← printedContent other
  newContent (left ++ right)

def objectHashCode (h : Handle) : Action Int32 := do return identity (← target h)

/-- Do two handles refer to the same object? Nothing is the same as null. -/
def objectEquals (h other : Handle) : Action Bool := do
  if other.isNull then return false
  let this ← referent h
  let that ← referent other
  return this == that

def objectGetClass (h : Handle) : Action (Option ClassId) := do
  let o ← object (← target h)
  owner o.table

def hashCode (h : Handle) : Action Int32 := do
  let id ← target h
  let o ← object id
  match h, o.body with
  | .object _ .string, .string c => return c.text.hash
  | .object _ view, body =>
    match view.isPoint, body.coordinates? with
    | true, some (x, y) => return 31 * x + y
    | _, _ => return identity id
  | _, _ => return identity id

/-- The class name and the hash code in hexadecimal, joined by an at sign. -/
def objectToString (h : Handle) : Action ObjectId := do
  let name ← className (← objectGetClass h)
  let hash ← hashCode h
  newString (name ++ "@" ++ Text.numeral 16 hash.toUInt32.toNat)

def pointToString (x y : Int32) : Action ObjectId :=
  newString ("(" ++ Text.ofInt x.toInt ++ "," ++ Text.ofInt y.toInt ++ ")")

def toString (h : Handle) : Action ObjectId := do
  let id ← target h
  let o ← object id
  match h, o.body with
  | .object _ .string, .string _ => return id
  | .object _ .metaclass, .metaclass c =>
    let k ← classOf c
    if k.shape.isPrimitive then return k.nameObject else newString ("class " ++ k.name)
  | .object _ .exception, .exception k message => newString (exceptionText k message)
  | .object _ .point, body =>
    let (x, y) ← demand body.coordinates?
    pointToString x y
  | .object _ .colorPoint, body | .object _ .alphaPoint, body =>
    let (x, y) ← demand body.coordinates?
    let position ← pointToString x y
    let color ← newString (" " ++ (← printedText body.color?))
    concat (some position) (some color)
  | _, _ => objectToString h

def stringEquals (s : Option ObjectId) (other : Handle) : Action Bool := do
  match other.as? .string with
  | none => return false
  | some that => return (← stringText s) == (← stringText (some that))

def equals (h other : Handle) : Action Bool := do
  match h with
  | .object id .string => stringEquals (some id) other
  | .object id .alphaPoint =>
    match other.as? .alphaPoint with
    | none => return false
    | some that => return (← object id).body.alpha? == (← object that).body.alpha?
  | _ => objectEquals h other

def horizontal (h : Handle) : Action Int32 := do
  let o ← object (← target h)
  let (x, _) ← demand o.body.coordinates?
  return match h with
    | .object _ .alphaPoint => -x
    | _ => x

/-- Is the object an instance of the class? Null is an instance of nothing. -/
def isInstance (k : Option ClassId) (h : Handle) : Action Bool := do
  if h.isNull then return false
  let c ← objectGetClass h
  return (← get).isSubclassOf c k

def outermost (h : Handle) : Action Handle := do
  let id ← target h
  return .object id (← object id).body.view

def dropStorage (h : Handle) : Action Unit :=
  match h with
  | .object id .array | .object id .grid => modify fun w => w.modifyObject id Obj.withoutStorage
  | .typedNull .array | .typedNull .grid => crash .nullDereference
  | _ => return ()

def runDestructor (d : Destructor) (h : Handle) : Action Unit :=
  match d with
  | .dropStorage => dropStorage h
  | .fail => raise .runtime "destructor"
  | .record name => modify fun w => { w with destroyed := w.destroyed.push (name, h) }

/-- Runs the destructor of an object's own table, if it has one. -/
def destroy (o : Obj) (h : Handle) : Action Unit :=
  match o.table.destructor? with
  | some d => runDestructor d h
  | none => return ()

def reportRelease (id : ObjectId) (o : Obj) : Action Bool := do
  let name ← className (← owner o.table)
  log .debug .runtime
    ("released " ++ name ++ "@" ++ Text.numeral 16 (identity id).toUInt32.toNat)
  return true

/-- What is left of a release once the destructor has run: the object is marked and reported. -/
def finishRelease (id : ObjectId) (o : Obj) : Action Bool := do
  modify fun w => w.modifyObject id Obj.asReleased
  reportRelease id o

/-- Releases an object whose destructor does whatever `destructor` does. Null and released objects
are left alone. -/
def releaseWith (destructor : Obj → Handle → Action Unit) (h : Handle) : Action Bool := do
  if h.isNull then return false
  let id ← target h
  let o ← object id
  if o.released then return false
  destructor o h
  finishRelease id o

def release (h : Handle) : Action Bool := releaseWith destroy h

def setOptions (options : Options) : Action Unit := do
  modify fun w => { w with options }
  log .debug .runtime
    ("options: allow zero-length arrays = " ++ Text.ofBool options.allowZeroLength)

end Action

end ObjectModel
