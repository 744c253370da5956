import ObjectModel.Operation

/-!
Arrays of one and two dimensions. A constructor makes the array class, then checks the element type
and the dimensions. Reads and writes check their indices, row before column; writes into arrays of
references then check the element against the component class of the array. Once the storage is
dropped an index within bounds crashes.
-/

namespace ObjectModel

namespace ElementType

/-- The element type used for a class when none is named. -/
def ofClass (c : Class) : ElementType :=
  match c.shape with
  | .primitive => ((Primitive.named? c.name).map Primitive.element).getD .object
  | _ => .object

end ElementType

def Obj.setElement (i : Nat) (value : Element) (o : Obj) : Obj :=
  match o.body with
  | .array c => { o with body := .array { c with storage := c.storage.set i value } }
  | _ => o

def Obj.setGridElement (i j : Nat) (value : Element) (o : Obj) : Obj :=
  match o.body with
  | .grid g =>
    { o with body := .grid { g with storage := g.storage.modify i fun row => row.set j value } }
  | _ => o

namespace Action

/-- An array of references needs elements that can be objects. -/
def checkElement (element : ElementType) (c : Class) : Action Unit :=
  if c.shape.isPrimitive || element.holdsObjects then return ()
  else crash (.unfitElement c.name element)

/-- Dimensions are positive, or zero where the options allow it. -/
def checkDimension (n : Int32) : Action Unit := do
  let options := (← get).options
  if n < 0 ∨ (n = 0 ∧ options.allowZeroLength = false) then
    raise .negativeArraySize (Text.ofInt n.toInt)

def fitsComponent (k : Class) (value : Handle) : Action Bool :=
  match k.shape.component? with
  | none => return false
  | some component => isInstance (some component) value

/-- Null may be stored anywhere; an object must be an instance of the array's component class. -/
def checkStore (array value : Handle) : Action Unit := do
  if value.isNull then return ()
  checkNotNull array
  let k ← classOf (← demand (← objectGetClass array))
  if !(← fitsComponent k value) then raise .arrayStore (← className (← objectGetClass value))

def checkStoreIf (checked : Bool) (array value : Handle) : Action Unit :=
  if checked then checkStore array value else return ()

def elementFor (element : Option ElementType) (c : Class) : ElementType :=
  element.getD (.ofClass c)

def newArray (element : Option ElementType) (component : Option ClassId) (n : Int32) :
    Action ObjectId := do
  let c ← classOperand component
  let arrays ← arrayClass c
  let k ← classOf c
  let e := elementFor element k
  checkElement e k
  checkDimension n
  initialise ((← get).table? arrays) (.array (.blank e n.toInt.toNat !k.shape.isPrimitive))

def newGrid (element : Option ElementType) (component : Option ClassId) (n m : Int32) :
    Action ObjectId := do
  let c ← classOperand component
  let grids ← gridClass c
  let k ← classOf c
  let e := elementFor element k
  checkElement e k
  checkDimension n
  checkDimension m
  initialise ((← get).table? grids)
    (.grid (.blank e n.toInt.toNat m.toInt.toNat !k.shape.isPrimitive))

def cells (id : ObjectId) : Action Cells := do
  match (← object id).body with
  | .array c => return c
  | _ => crash .nullDereference

def gridCells (id : ObjectId) : Action Grid := do
  match (← object id).body with
  | .grid g => return g
  | _ => crash .nullDereference

/-- The element of a list at an index, which crashes where there is none. -/
def element {α : Type} (xs : List α) (index : Int32) : Action α :=
  match xs[index.toInt.toNat]? with
  | some x => return x
  | none => crash (.indexOutOfRange index.toInt xs.length)

def arrayGet (id : ObjectId) (i : Int32) : Action Element := do
  let c ← cells id
  checkIndex .arrayIndexOutOfBounds i c.length
  element c.storage i

def arraySet (id : ObjectId) (i : Int32) (value : Element) : Action Unit := do
  let c ← cells id
  checkIndex .arrayIndexOutOfBounds i c.length
  checkStoreIf c.checked (.object id .array) value.handle
  let _ ← element c.storage i
  modify fun w => w.modifyObject id (Obj.setElement i.toInt.toNat value)

def gridGet (id : ObjectId) (i j : Int32) : Action Element := do
  let g ← gridCells id
  checkIndex .arrayIndexOutOfBounds i g.rows
  checkIndex .arrayIndexOutOfBounds j g.columns
  element (← element g.storage i) j

def gridSet (id : ObjectId) (i j : Int32) (value : Element) : Action Unit := do
  let g ← gridCells id
  checkIndex .arrayIndexOutOfBounds i g.rows
  checkIndex .arrayIndexOutOfBounds j g.columns
  checkStoreIf g.checked (.object id .grid) value.handle
  let _ ← element (← element g.storage i) j
  modify fun w => w.modifyObject id (Obj.setGridElement i.toInt.toNat j.toInt.toNat value)

/-- Checks the index of a row that is about to be handed out. -/
def gridRow (id : ObjectId) (i : Int32) : Action Unit := do
  let g ← gridCells id
  checkIndex .arrayIndexOutOfBounds i g.rows

def charAt (s : Option ObjectId) (i : Int32) : Action UInt8 := do
  let c ← stringContent s
  checkIndex .indexOutOfBounds i c.length
  match c.byte? i.toInt.toNat with
  | some b => return b
  | none => crash (.indexOutOfRange i.toInt c.length)

def stringLength (s : Option ObjectId) : Action Int32 := do
  return Int32.ofNat (← stringContent s).length

end Action

end ObjectModel
