import ObjectModel.Dispatch
import ObjectModel.RecordType

/-!
Handles are what programs hold. A handle is null, a null of a definite type, the blank flat value,
or a view of an object: the whole object, or one of the ancestors embedded in it. Which ancestors
these are follows from the fields of its type. Array elements are machine words, text or handles.
-/

namespace ObjectModel

inductive View where
  | plain
  | string
  | metaclass
  | exception
  | point
  | colorPoint
  | alphaPoint
  | bare
  | flat
  | list
  | array
  | grid
deriving DecidableEq, Repr

namespace RecordType

/-- The header of an object: its table, the whole object, its identity and its mark. It is no object
itself. -/
def header : RecordType View := .mk none [.reference false, .reference false, .plain, .plain]

/-- An object that consists of its header and other fields. -/
def headed (view : View) (others : List (Field (RecordType View))) : RecordType View :=
  .mk (some view) (.record true header :: others)

def point : RecordType View := headed .point [.plain, .plain]

def colorPoint : RecordType View := .mk (some .colorPoint) [.record true point, .reference false]

def alphaPoint : RecordType View := .mk (some .alphaPoint) [.record true colorPoint, .plain]

end RecordType

namespace View

/-- The record type that the whole object of a view has. -/
def type : View → RecordType View
  | .plain => .headed .plain []
  | .string => .headed .string [.plain]
  | .metaclass => .headed .metaclass
    [.reference false, .reference false, .reference false, .plain, .plain, .reference false]
  | .exception => .headed .exception [.plain, .plain]
  | .point => .point
  | .colorPoint => .colorPoint
  | .alphaPoint => .alphaPoint
  | .bare => .headed .bare []
  | .flat => .mk (some .flat) [.reference true]
  | .list => .headed .list [.plain, .reference false]
  | .array => .headed .array [.plain, .reference false, .plain]
  | .grid => .headed .grid [.plain, .plain, .reference false, .plain]

/-- The views embedded in an object of this type, nearest first. -/
def embedded (v : View) : List View := v.type.ancestors

/-- Flat objects are held by value, all others by reference. -/
def isReference (v : View) : Bool := v != .flat

def isPoint : View → Bool
  | .point | .colorPoint | .alphaPoint => true
  | _ => false

end View

inductive Handle where
  | null
  | typedNull (view : View)
  /-- The flat value that refers to no object. It is not null. -/
  | blankFlat
  | object (id : ObjectId) (view : View)
deriving DecidableEq, Repr

namespace Handle

def isNull : Handle → Bool
  | .null | .typedNull _ => true
  | .blankFlat | .object _ _ => false

/-- The object behind a handle whose static type is the given view. -/
def as? (view : View) : Handle → Option ObjectId
  | .object id v => if v = view then some id else none
  | _ => none

end Handle

inductive ElementType where
  | boolean
  | byte
  | char
  | short
  | int
  | long
  | float
  | double
  | object
  | string
  | point
  /-- Bare text, which is no object. -/
  | text
deriving DecidableEq, Repr

namespace ElementType

def holdsObjects : ElementType → Bool
  | .object | .string | .point => true
  | _ => false

def machineName : ElementType → Text
  | .boolean => "bool"
  | .byte => "int8"
  | .char => "uint16"
  | .short => "int16"
  | .int => "int32"
  | .long => "int64"
  | .float => "float32"
  | .double => "float64"
  | .text => "string"
  | .object => "rt.Object"
  | .string => "*rt.String"
  | .point => "*main.point"

end ElementType

/-- An array element. Floating-point elements are kept as their bits. -/
inductive Element where
  | boolean (value : Bool)
  | byte (value : Int8)
  | char (value : UInt16)
  | short (value : Int16)
  | int (value : Int32)
  | long (value : Int64)
  | float (bits : UInt32)
  | double (bits : UInt64)
  | text (value : Text)
  | ref (handle : Handle)
deriving DecidableEq, Repr

namespace Element

def zero : ElementType → Element
  | .boolean => .boolean false
  | .byte => .byte 0
  | .char => .char 0
  | .short => .short 0
  | .int => .int 0
  | .long => .long 0
  | .float => .float 0
  | .double => .double 0
  | .text => .text []
  | .object => .ref .null
  | .string => .ref (.typedNull .string)
  | .point => .ref (.typedNull .point)

/-- The handle an element stands for in a store check; a machine word stands for none. -/
def handle : Element → Handle
  | .ref h => h
  | _ => .null

end Element

end ObjectModel
