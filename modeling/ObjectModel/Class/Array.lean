import ObjectModel.Exception

/-!
Array classes. The class of one-dimensional arrays of a component is named by a bracket and the
component's descriptor; two-dimensional arrays have two brackets and a key of their own. Arrays of
references extend the array class of the root class, arrays of primitives the root class itself.
-/

namespace ObjectModel

/-- The element code of a class in names of array classes. -/
def Class.descriptor (c : Class) : Text :=
  match c.shape with
  | .primitive => ((Primitive.named? c.name).map Primitive.letter).getD []
  | .array _ _ _ => c.name
  | _ => "L" ++ c.name ++ ";"

def Class.arrayName (rank : Rank) (c : Class) : Text := rank.brackets ++ c.descriptor

def Class.arrayKey (rank : Rank) (c : Class) : Text := rank.key (c.arrayName rank)

namespace Action

def arrayTable (c : ClassId) : Option DispatchTable :=
  some (.extend (some .object) ⟨.known c, some .dropStorage, []⟩)

def registerArray (rank : Rank) (component superclass : ClassId) (c : Class) : Action ClassId :=
  register (c.arrayName rank) (.array rank component superclass) arrayTable

def objectArrayClass : Action ClassId := do
  let root ← objectClass
  registerArray .one root root (← classOf root)

def objectGridClass : Action ClassId := do
  let root ← objectClass
  let rows ← objectArrayClass
  registerArray .two root rows (← classOf root)

def arraySuperclass (component : ClassId) (c : Class) : Action ClassId := do
  let root ← objectClass
  if c.shape.isPrimitive || component == root then return root else objectArrayClass

def gridSuperclass (component : ClassId) (c : Class) : Action ClassId := do
  let rows ← objectArrayClass
  let root ← objectClass
  if c.shape.isPrimitive || component == root then return rows else objectGridClass

/-- The class of arrays of a component, made under the superclass that the action finds. -/
def findArrayClass (rank : Rank) (superclass : ClassId → Class → Action ClassId)
    (component : ClassId) : Action ClassId := do
  let c ← classOf component
  match (← get).find? (c.arrayKey rank) with
  | some found => return found
  | none => registerArray rank component (← superclass component c) c

def arrayClass (component : ClassId) : Action ClassId :=
  findArrayClass .one arraySuperclass component

def gridClass (component : ClassId) : Action ClassId := findArrayClass .two gridSuperclass component

def classOperand (c : Option ClassId) : Action ClassId :=
  match c with
  | some c => return c
  | none => raise .nullPointer []

end Action

end ObjectModel
