import ObjectModel.Cast

/-!
Sample classes: points, points with a colour, points with a colour and an opacity, and linked
lists. Their classes are defined on first use, superclasses first.
-/

namespace ObjectModel

inductive Sample where
  | point
  | colorPoint
  | alphaPoint
  | list
deriving DecidableEq, Repr

namespace Sample

def name : Sample → Text
  | .point => "test.Point"
  | .colorPoint => "test.ColorPoint"
  | .alphaPoint => "test.AlphaPoint"
  | .list => "List"

def slots : Sample → List Text
  | .point => ["hashCode", "toString", "getX"]
  | .colorPoint => ["toString", "getColor"]
  | .alphaPoint => ["equals", "getX", "getAlpha"]
  | .list => []

end Sample

namespace Action

def sampleClass (s : Sample) (superclass : Option ClassId) : Action ClassId :=
  defineClass s.name superclass s.slots

def pointClass : Action ClassId := sampleClass .point none

def colorPointClass : Action ClassId := do sampleClass .colorPoint (some (← pointClass))

def alphaPointClass : Action ClassId := do sampleClass .alphaPoint (some (← colorPointClass))

def listClass : Action ClassId := sampleClass .list none

/-- Allocates an instance of a class that the action finds. -/
def newInstance (find : Action ClassId) (body : Body) : Action ObjectId := do
  let c ← find
  initialise ((← get).table? c) body

def newPoint (x y : Int32) : Action ObjectId := newInstance pointClass (.point x y)

def newColorPoint (x y : Int32) (color : Option ObjectId) : Action ObjectId :=
  newInstance colorPointClass (.colorPoint x y color)

def newAlphaPoint (x y : Int32) (color : Option ObjectId) (alpha : Int32) : Action ObjectId :=
  newInstance alphaPointClass (.alphaPoint x y color alpha)

def newList (item : Int32) (next : Option ObjectId) : Action ObjectId :=
  newInstance listClass (.list item next)

end Action

end ObjectModel
