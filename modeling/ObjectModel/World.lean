import ObjectModel.Kind
import ObjectModel.Handle
import ObjectModel.Text.Content

/-!
The state of a run: the objects in allocation order, the classes in creation order, the options in
force, the log and the record kept by destructors. An action may fail; a failed action keeps the
changes it made before failing. Every object gets its identity number when it is allocated, and the
numbers count allocations without gap.
-/

namespace ObjectModel

/-- Array contents. The length outlives the storage, which a release drops. -/
structure Cells where
  element : ElementType
  length : Nat
  /-- Are stores checked against the component class? -/
  checked : Bool
  storage : List Element
deriving DecidableEq, Repr

structure Grid where
  element : ElementType
  rows : Nat
  columns : Nat
  checked : Bool
  storage : List (List Element)
deriving DecidableEq, Repr

def Cells.blank (element : ElementType) (length : Nat) (checked : Bool) : Cells :=
  ⟨element, length, checked, List.replicate length (.zero element)⟩

def Grid.blank (element : ElementType) (rows columns : Nat) (checked : Bool) : Grid :=
  ⟨element, rows, columns, checked, List.replicate rows (List.replicate columns (.zero element))⟩

inductive Body where
  | plain
  | string (content : Content)
  | metaclass (id : ClassId)
  | exception (kind : Kind) (message : Text)
  | point (x y : Int32)
  | colorPoint (x y : Int32) (color : Option ObjectId)
  | alphaPoint (x y : Int32) (color : Option ObjectId) (alpha : Int32)
  | bare
  | flat
  | list (item : Int32) (next : Option ObjectId)
  | array (cells : Cells)
  | grid (cells : Grid)
deriving DecidableEq, Repr

def Body.view : Body → View
  | .plain => .plain
  | .string _ => .string
  | .metaclass _ => .metaclass
  | .exception _ _ => .exception
  | .point _ _ => .point
  | .colorPoint _ _ _ => .colorPoint
  | .alphaPoint _ _ _ _ => .alphaPoint
  | .bare => .bare
  | .flat => .flat
  | .list _ _ => .list
  | .array _ => .array
  | .grid _ => .grid

structure Obj where
  table : DispatchTable
  body : Body
  released : Bool := false
deriving DecidableEq, Repr

inductive Rank where
  | one
  | two
deriving DecidableEq, Repr

def Rank.toNat : Rank → Nat
  | .one => 1
  | .two => 2

def Rank.brackets : Rank → Text
  | .one => "["
  | .two => "[["

/-- The key of an array class. A two-dimensional array class shares its name with an array of
arrays, so its key is marked. -/
def Rank.key (rank : Rank) (name : Text) : Text :=
  match rank with
  | .one => name
  | .two => "2d:" ++ name

inductive Shape where
  | root
  | primitive
  | derived (superclass : ClassId)
  | array (rank : Rank) (component superclass : ClassId)
deriving DecidableEq, Repr

namespace Shape

def superclass? : Shape → Option ClassId
  | .root | .primitive => none
  | .derived s | .array _ _ s => some s

def component? : Shape → Option ClassId
  | .array _ c _ => some c
  | _ => none

def dimensions : Shape → Nat
  | .array rank _ _ => rank.toNat
  | _ => 0

def isPrimitive : Shape → Bool
  | .primitive => true
  | _ => false

/-- The key of a class in the table: its name, except for array classes with a key of their own. -/
def key (shape : Shape) (name : Text) : Text :=
  match shape with
  | .array rank _ _ => rank.key name
  | _ => name

end Shape

/-- A class: its name, the string object that holds the name, the class's own object, its place in
the hierarchy, and the dispatch table of its instances. -/
structure Class where
  name : Text
  nameObject : ObjectId
  object : ObjectId
  shape : Shape
  table : Option DispatchTable
deriving DecidableEq, Repr

def Class.key (c : Class) : Text := c.shape.key c.name

structure Options where
  allowZeroLength : Bool := false
deriving DecidableEq, Repr

inductive Severity where
  | critical
  | error
  | warning
  | notice
  | info
  | debug
deriving DecidableEq, Repr

namespace Severity

def rank : Severity → Nat
  | .critical => 1
  | .error => 2
  | .warning => 3
  | .notice => 4
  | .info => 5
  | .debug => 6

def name : Severity → Text
  | .critical => "Critical"
  | .error => "Error"
  | .warning => "Warning"
  | .notice => "Notice"
  | .info => "Info"
  | .debug => "Debug"

/-- The least grave severity that a verbosity lets through; none when it silences everything. -/
def ofVerbosity (v : Int) : Option Severity :=
  if 2 ≤ v then some .debug
  else if v = 1 then some .info
  else if v = 0 then some .notice
  else if v = -1 then some .warning
  else if v = -2 then some .error
  else if v = -3 then some .critical
  else none

def passes (s : Severity) (threshold : Option Severity) : Bool :=
  match threshold with
  | none => false
  | some t => s.rank ≤ t.rank

end Severity

inductive Logger where
  | runtime
  | config
deriving DecidableEq, Repr

def Logger.name : Logger → Text
  | .runtime => "jrt.rt"
  | .config => "jrt.config"

structure Message where
  severity : Severity
  logger : Logger
  text : Text
deriving DecidableEq, Repr

def Message.line (m : Message) : Text := m.severity.name ++ " " ++ m.logger.name ++ ": " ++ m.text

structure World where
  objects : Array Obj := #[]
  classes : Array Class := #[]
  options : Options := {}
  threshold : Option Severity := none
  messages : Array Message := #[]
  destroyed : Array (Text × Handle) := #[]

inductive Crash where
  | nullTable
  | nullInstance
  | initialisedTwice
  | cannotExtend (name : Text)
  | alreadyDefined (name superclass : Text)
  | unfitElement (component : Text) (element : ElementType)
  | nullDereference
  | indexOutOfRange (index : Int) (length : Nat)
deriving DecidableEq, Repr

def Crash.message : Crash → Text
  | .nullTable => "rt: Header.Init with nil vtable"
  | .nullInstance => "rt: Header.Init with nil instance"
  | .initialisedTwice => "rt: Header.Init called twice"
  | .cannotExtend name => "rt: cannot extend " ++ name
  | .alreadyDefined name superclass =>
    "rt: class " ++ name ++ " already defined with superclass " ++ superclass
  | .unfitElement component element =>
    "rt: array of " ++ component ++ " needs an element type implementing Object, got "
      ++ element.machineName
  | .nullDereference => "runtime error: invalid memory address or nil pointer dereference"
  | .indexOutOfRange index length =>
    "runtime error: index out of range [" ++ Text.ofInt index ++ "] with length "
      ++ Text.ofNat length

inductive Fault where
  | thrown (exception : ObjectId)
  | crash (cause : Crash)
deriving DecidableEq, Repr

/-- A computation on the world that may fail, keeping what it has done so far. -/
abbrev Action := ExceptT Fault (StateM World)

/-- The identity number of an object: its place in allocation order, as a signed 32-bit number. -/
def identity (id : ObjectId) : Int32 := Int32.ofNat (id + 1)

namespace World

def object? (w : World) (id : ObjectId) : Option Obj := w.objects[id]?

def class? (w : World) (c : ClassId) : Option Class := w.classes[c]?

def modifyObject (w : World) (id : ObjectId) (f : Obj → Obj) : World :=
  { w with objects := w.objects.modify id f }

def body? (w : World) (id : ObjectId) : Option Body := (w.object? id).map Obj.body

def content? (w : World) (id : ObjectId) : Option Content :=
  match w.body? id with
  | some (.string c) => some c
  | _ => none

def text? (w : World) (id : ObjectId) : Option Text := (w.content? id).map Content.text

end World

namespace Action

def crash {α : Type} (cause : Crash) : Action α := throw (.crash cause)

def log (severity : Severity) (logger : Logger) (text : Text) : Action Unit :=
  modify fun w =>
    if severity.passes w.threshold then
      { w with messages := w.messages.push ⟨severity, logger, text⟩ }
    else w

def allocate (table : DispatchTable) (body : Body) : Action ObjectId := do
  let w ← get
  set { w with objects := w.objects.push { table, body } }
  return w.objects.size

def initialise (table : Option DispatchTable) (body : Body) : Action ObjectId :=
  match table with
  | none => crash .nullTable
  | some t => allocate t body

def newContent (c : Content) : Action ObjectId := allocate .string (.string c)

def newString (t : Text) : Action ObjectId := newContent t

def object (id : ObjectId) : Action Obj := do
  match (← get).object? id with
  | some o => return o
  | none => crash .nullDereference

def classOf (c : ClassId) : Action Class := do
  match (← get).class? c with
  | some k => return k
  | none => crash .nullDereference

def demand {α : Type} (value : Option α) : Action α :=
  match value with
  | some a => return a
  | none => crash .nullDereference

end Action

end ObjectModel
