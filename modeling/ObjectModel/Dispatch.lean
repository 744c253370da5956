import ObjectModel.Text.Basic

/-!
Dispatch tables. A table is built level by level: the root level comes last, and each level names
the slots it defines or overrides, may supply a destructor, and says which class it belongs to. The
slot layout and the effective destructor are read off the levels.
-/

namespace ObjectModel

/-- Position of an object in allocation order, counted from zero. -/
abbrev ObjectId := Nat

/-- Position of a class in creation order, counted from zero. -/
abbrev ClassId := Nat

/-- The classes whose tables exist before the classes themselves. -/
inductive Core where
  | object
  | string
  | metaclass
deriving DecidableEq, Repr

def Core.name : Core → Text
  | .object => "java.lang.Object"
  | .string => "java.lang.String"
  | .metaclass => "java.lang.Class"

/-- The class a table belongs to: never given, given as null, one of the core classes (created when
first asked for), or a class of the table of classes. -/
inductive Owner where
  | absent
  | null
  | core (which : Core)
  | known (id : ClassId)
deriving DecidableEq, Repr

/-- The destructors that dispatch tables are given: that of arrays, one that fails and one that
leaves a record. Releasing with any other behaviour is `Action.releaseWith`. -/
inductive Destructor where
  /-- Array storage is dropped; other objects are left alone. -/
  | dropStorage
  | fail
  | record (name : Text)
deriving DecidableEq, Repr

structure Level where
  owner : Owner
  destructor : Option Destructor
  names : List Text
deriving DecidableEq, Repr

/-- A dispatch table: its own level, and the levels it extends, nearest first. -/
structure DispatchTable where
  own : Level
  inherited : List Level
deriving DecidableEq, Repr

namespace DispatchTable

/-- Appends the names that a layout lacks, in order; a name already present keeps its position. -/
def extendLayout (layout : List Text) (names : List Text) : List Text :=
  names.foldl (fun slots s => if slots.contains s then slots else slots ++ [s]) layout

/-- The slot layout of a stack of levels, nearest level first. -/
def layout : List Level → List Text
  | [] => []
  | level :: rest => extendLayout (layout rest) level.names

def levels (t : DispatchTable) : List Level := t.own :: t.inherited

def slots (t : DispatchTable) : List Text := layout t.levels

/-- The destructor supplied at the nearest level that supplies one. -/
def destructor? (t : DispatchTable) : Option Destructor := t.levels.findSome? Level.destructor

def parent? (t : DispatchTable) : Option DispatchTable :=
  match t.inherited with
  | [] => none
  | level :: rest => some ⟨level, rest⟩

def extend (parent : Option DispatchTable) (own : Level) : DispatchTable :=
  ⟨own, (parent.map levels).getD []⟩

def index? (t : DispatchTable) (slot : Text) : Option Nat := t.slots.idxOf? slot

def overrides (t : DispatchTable) (slot : Text) : Bool := t.own.names.contains slot

def extendsLayout (t other : DispatchTable) : Bool := other.slots.isPrefixOf t.slots

def object : DispatchTable :=
  extend none ⟨.core .object, none, ["hashCode", "equals", "getClass", "toString"]⟩

def string : DispatchTable :=
  extend (some object)
    ⟨.core .string, none, ["hashCode", "equals", "toString", "length", "charAt"]⟩

def metaclass : DispatchTable :=
  extend (some object)
    ⟨.core .metaclass, none, ["toString", "getName", "getSuperclass", "isPrimitive", "isArray",
      "getComponentType", "isInstance"]⟩

end DispatchTable

def Core.table : Core → DispatchTable
  | .object => .object
  | .string => .string
  | .metaclass => .metaclass

end ObjectModel
