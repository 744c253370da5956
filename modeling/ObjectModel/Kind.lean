import ObjectModel.Text.Basic

/-!
The closed hierarchy of exception kinds. A kind lists the kinds above it, nearest first, and is-a
holds between a kind and itself or any kind above it. Kinds have one-byte codes; codes outside the
hierarchy are named by their number and relate to nothing.
-/

namespace ObjectModel

inductive Kind where
  | throwable
  | exception
  | runtime
  | nullPointer
  | negativeArraySize
  | arrayStore
  | classCast
  | indexOutOfBounds
  | arrayIndexOutOfBounds
deriving DecidableEq, Repr

namespace Kind

def all : List Kind :=
  [.throwable, .exception, .runtime, .nullPointer, .negativeArraySize, .arrayStore, .classCast,
    .indexOutOfBounds, .arrayIndexOutOfBounds]

def name : Kind → Text
  | .throwable => "java.lang.Throwable"
  | .exception => "java.lang.Exception"
  | .runtime => "java.lang.RuntimeException"
  | .nullPointer => "java.lang.NullPointerException"
  | .negativeArraySize => "java.lang.NegativeArraySizeException"
  | .arrayStore => "java.lang.ArrayStoreException"
  | .classCast => "java.lang.ClassCastException"
  | .indexOutOfBounds => "java.lang.IndexOutOfBoundsException"
  | .arrayIndexOutOfBounds => "java.lang.ArrayIndexOutOfBoundsException"

/-- The kinds above a kind, nearest first. -/
def above : Kind → List Kind
  | .throwable => []
  | .exception => [.throwable]
  | .runtime => [.exception, .throwable]
  | .nullPointer | .negativeArraySize | .arrayStore | .classCast | .indexOutOfBounds =>
    [.runtime, .exception, .throwable]
  | .arrayIndexOutOfBounds => [.indexOutOfBounds, .runtime, .exception, .throwable]

def parent? (k : Kind) : Option Kind := k.above.head?

def isA (k other : Kind) : Bool := k == other || k.above.contains other

def slots : Kind → List Text
  | .throwable => ["toString", "getMessage"]
  | _ => []

def code : Kind → UInt8
  | .throwable => 0
  | .exception => 1
  | .runtime => 2
  | .nullPointer => 3
  | .negativeArraySize => 4
  | .arrayStore => 5
  | .classCast => 6
  | .indexOutOfBounds => 7
  | .arrayIndexOutOfBounds => 8

end Kind

/-- A one-byte kind code, which need not belong to the hierarchy. -/
abbrev KindCode := UInt8

namespace KindCode

def kind? (c : KindCode) : Option Kind := Kind.all[c.toNat]?

def name (c : KindCode) : Text :=
  match kind? c with
  | some k => k.name
  | none => "Kind(" ++ Text.ofNat c.toNat ++ ")"

def parent? (c : KindCode) : Option Kind := (kind? c).bind Kind.parent?

def isA (c other : KindCode) : Bool :=
  match kind? c, kind? other with
  | some k, some l => k.isA l
  | _, _ => false

end KindCode

end ObjectModel
