import ObjectModel.Class.Table

/-!
The built-in classes: the root class, strings, class objects, the eight primitive types and the
exception kinds. Each comes into being when it is first asked for, superclasses first, under its
name in the table of classes; a class already registered under that name is used as it is.
-/

namespace ObjectModel

inductive Primitive where
  | boolean
  | byte
  | char
  | short
  | int
  | long
  | float
  | double
deriving DecidableEq, Repr

namespace Primitive

def all : List Primitive := [.boolean, .byte, .char, .short, .int, .long, .float, .double]

def name : Primitive → Text
  | .boolean => "boolean"
  | .byte => "byte"
  | .char => "char"
  | .short => "short"
  | .int => "int"
  | .long => "long"
  | .float => "float"
  | .double => "double"

def letter : Primitive → Text
  | .boolean => "Z"
  | .byte => "B"
  | .char => "C"
  | .short => "S"
  | .int => "I"
  | .long => "J"
  | .float => "F"
  | .double => "D"

def element : Primitive → ElementType
  | .boolean => .boolean
  | .byte => .byte
  | .char => .char
  | .short => .short
  | .int => .int
  | .long => .long
  | .float => .float
  | .double => .double

def named? (name : Text) : Option Primitive := all.find? fun p => p.name == name

end Primitive

namespace Action

def objectClass : Action ClassId :=
  register (Core.name .object) .root fun _ => some (Core.table .object)

def classUnderObject (which : Core) : Action ClassId := do
  let root ← objectClass
  register which.name (.derived root) fun _ => some which.table

def coreClass : Core → Action ClassId
  | .object => objectClass
  | .string => classUnderObject .string
  | .metaclass => classUnderObject .metaclass

def primitiveClass (p : Primitive) : Action ClassId := register p.name .primitive fun _ => none

/-- The class of a kind, given the class of the kind above it (or the root class). -/
def kindClassUnder (superclass : ClassId) (k : Kind) : Action ClassId := do
  let inherited := (← get).table? superclass
  register k.name (.derived superclass) fun c =>
    some (.extend inherited ⟨.known c, none, k.slots⟩)

def kindClass (k : Kind) : Action ClassId := do
  (k :: k.above).reverse.foldlM kindClassUnder (← objectClass)

def owner (t : DispatchTable) : Action (Option ClassId) :=
  match t.own.owner with
  | .absent => crash .nullDereference
  | .null => return none
  | .core which => some <$> coreClass which
  | .known c => return some c

def bootstrap : Action Unit := do
  let _ ← coreClass .object
  let _ ← coreClass .string
  let _ ← coreClass .metaclass
  Primitive.all.forM fun p => discard (primitiveClass p)
  Kind.all.forM fun k => discard (kindClass k)
  log .info .runtime
    ("bootstrapped " ++ Text.ofNat (← get).classes.size ++ " classes")

end Action

end ObjectModel
