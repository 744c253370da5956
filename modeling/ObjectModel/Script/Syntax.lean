import ObjectModel.Command.Line
import ObjectModel.Snapshot.Decoding

/-!
Scripts drive the object model step by step. A step performs one operation on operands and may bind
its result, or the exception it ends with, to a variable. Operands are expressions: evaluating one
may create classes, allocate strings, or fail.
-/

namespace ObjectModel.Script

abbrev Name := Text

/-- The classes a script can name, created when they are first used. -/
inductive NamedClass where
  | core (which : Core)
  | primitive (which : Primitive)
  | point
  | colorPoint
  | alphaPoint
  | list
deriving DecidableEq, Repr

inductive ClassExpr where
  | null
  | variable (name : Name)
  | named (which : NamedClass)
  | kind (code : KindCode)
  | array (component : ClassExpr)
  | grid (component : ClassExpr)
  | registered (key : Text)
deriving DecidableEq, Repr

inductive RefExpr where
  | null
  | variable (name : Name)
  | typedNull (view : View)
  | string (text : Text)
  | metaclass (c : ClassExpr)
deriving DecidableEq, Repr

inductive TableExpr where
  | null
  | variable (name : Name)
  | ofClass (c : ClassExpr)
deriving DecidableEq, Repr

inductive SnapshotExpr where
  | null
  | variable (name : Name)
  | literal (snapshot : Snapshot)
deriving DecidableEq, Repr

/-- A value to be stored in an array, read at the element type of the array. -/
inductive StoredExpr where
  | blank
  | flag (value : Bool)
  | number (value : Int)
  /-- A numeral, the bits of a float, bare text, or the name of a variable. -/
  | word (text : Text)
  | ref (operand : RefExpr)
deriving DecidableEq, Repr

inductive ExceptionSource where
  | nowhere
  /-- A bare kind, which is an error but no exception. -/
  | kind (code : KindCode)
  | operand (operand : RefExpr)
deriving DecidableEq, Repr

inductive ObjectOp where
  | newObject
  | newString (text : Text)
  | newPoint (x y : Int32)
  | newColorPoint (x y : Int32) (color : RefExpr)
  | newAlphaPoint (x y : Int32) (color : RefExpr) (alpha : Int32)
  | newList (next : RefExpr) (item : Int32)
  | newBare (c : ClassExpr)
  | newBareOf (table : TableExpr)
  | newAlphaPointOf (table : TableExpr) (x y : Int32) (color : RefExpr) (alpha : Int32)
  | newFlat (c : ClassExpr)
  | view (operand : RefExpr) (view : View)
  | value (operand : RefExpr)
  /-- Initialises an object once more, or null. -/
  | initialise (operand : RefExpr) (table : TableExpr)
  | hashCode (operand : RefExpr)
  | getClass (operand : RefExpr)
  | toString (operand : RefExpr)
  | equals (operand other : RefExpr)
  | objectHashCode (operand : RefExpr)
  | objectGetClass (operand : RefExpr)
  | objectToString (operand : RefExpr)
  | objectEquals (operand other : RefExpr)
  | horizontal (operand : RefExpr)
  | isNull (operand : RefExpr)
  | checkNotNull (operand : RefExpr)
  | release (operand : RefExpr)
  | outermost (operand : RefExpr)
  | tableOf (operand : RefExpr)
  | isReleased (operand : RefExpr)
  | destroyed
  | cast (c : ClassExpr) (operand : RefExpr) (target : CastTarget)

inductive StringOp where
  | length (operand : RefExpr)
  | charAt (operand : RefExpr) (index : Int32)
  | concat (operand other : RefExpr)
  | text (operand : RefExpr)
  | equals (operand : RefExpr) (other : RefExpr)
  | hash (operand : RefExpr)
  | itself (operand : RefExpr)

inductive ClassOp where
  | value (c : ClassExpr)
  | report (c : ClassExpr)
  | define (name : Text) (superclass : ClassExpr) (slots : List Text)
  | isInstance (c : ClassExpr) (operand : RefExpr)
  | isSubclassOf (c other : ClassExpr)
  | bootstrap
  | all
  | count
  | has (key : Text)
  /-- What an empty table of classes says about a key. -/
  | emptyTable (key : Text)

inductive TableOp where
  | new (owner : Option ClassExpr) (parent : TableExpr) (destructor : Option Destructor)
      (slots : List Text)
  | value (table : TableExpr)
  | owner (table : TableExpr)
  | parent (table : TableExpr)
  | count (table : TableExpr)
  | index (table : TableExpr) (slot : Text)
  | overrides (table : TableExpr) (slot : Text)
  | extendsLayout (table other : TableExpr)
  | hasDestructor (table : TableExpr)
  | destroy (table : TableExpr) (operand : RefExpr)

inductive ArrayOp where
  | newArray (element : Option ElementType) (c : ClassExpr) (length : Int32)
  | newGrid (element : Option ElementType) (c : ClassExpr) (rows columns : Int32)
  | length (array : RefExpr)
  | get (array : RefExpr) (index : Int32)
  | set (array : RefExpr) (index : Int32) (value : StoredExpr)
  | elements (array : RefExpr)
  | extent (grid : RefExpr)
  | getAt (grid : RefExpr) (row column : Int32)
  | setAt (grid : RefExpr) (row column : Int32) (value : StoredExpr)
  | row (grid : RefExpr) (index : Int32)
  | rowLength (row : Name)
  | rowGet (row : Name) (column : Int32)
  | rowSet (row : Name) (column : Int32) (value : StoredExpr)
  | checkStore (array value : RefExpr)

inductive ExceptionOp where
  | new (code : KindCode) (message : Text)
  | throw (code : KindCode) (message : Text)
  | kindReport (code : KindCode)
  | kindIsA (code other : KindCode)
  | sameKind (code other : KindCode)
  | kindOf (operand : RefExpr)
  | message (operand : RefExpr)
  | text (operand : RefExpr)
  /-- Is the exception of a kind? Without a kind it is of none. -/
  | isA (operand : RefExpr) (code : Option KindCode)
  | find (source : ExceptionSource)

inductive ConfigOp where
  | setOptions (allowZeroLength : Bool)
  | options
  | makeDirectory (path : Text)
  | writeFile (path content : Text)
  | fileContent (path : Text)
  | default
  /-- Writes a configuration file and reads it. -/
  | parse (content : Text)
  | loadIn (directory : Text)
  | load (path : Text)
  | find (start : Text)
  | choose (path : Text)
  | optionsOf (config : Name)
  | apply (config : Name)

inductive SnapshotOp where
  | describe (c : ClassExpr)
  | capture
  | value (snapshot : SnapshotExpr)
  | encode (snapshot : SnapshotExpr)
  | decode (input : Text)
  | lookup (snapshot : SnapshotExpr) (name : Text) (dimensions : Int64)

inductive CommandOp where
  | run (command output : Text)
  | program (arguments : List Text) (files : List (Text × Text)) (directory : Option Text)
      (result : Option Text)

inductive Op where
  | object (op : ObjectOp)
  | string (op : StringOp)
  | classes (op : ClassOp)
  | table (op : TableOp)
  | array (op : ArrayOp)
  | exception (op : ExceptionOp)
  | config (op : ConfigOp)
  | snapshot (op : SnapshotOp)
  | command (op : CommandOp)

/-- A step of a script, with the variables for its result and for the exception it ends with. -/
inductive Step where
  | perform (op : Op) (result caught : Option Name)
  /-- Steps up to the first exception, which is caught. -/
  | attempt (body : List Step) (result caught : Option Name)

end ObjectModel.Script
