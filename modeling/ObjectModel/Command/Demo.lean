import ObjectModel.Sample

/-!
The demonstration program: values of several types and a few statements, printed through string
objects. Every string it prints is an object that it allocates.
-/

namespace ObjectModel.Action

def append (s : ObjectId) (t : Text) : Action ObjectId := do
  let other ← newString t
  concat (some s) (some other)

def joined (first : Text) (rest : List Text) : Action ObjectId := do
  rest.foldlM append (← newString first)

def printed (s : ObjectId) : Action Text := do
  checkNotNull (.object s .string)
  stringText (some s)

def printedLine (s : ObjectId) : Action Text := return (← printed s) ++ "\n"

def elementNumeral (array : ObjectId) (i : Int32) : Action Text := do
  match ← arrayGet array i with
  | .int n => return Text.ofInt n.toInt
  | _ => crash .nullDereference

def demoArray : Action Text := do
  let a ← newArray (some .int) (some (← primitiveClass .int)) 3
  arraySet a 0 (.int 2)
  arraySet a 1 (.int 9)
  arraySet a 2 (.int 0)
  let s ← newString "    a is \x7b"
  let s ← append s (← elementNumeral a 0)
  let s ← append s ", "
  let s ← append s (← elementNumeral a 1)
  let s ← append s ", "
  let s ← append s (← elementNumeral a 2)
  printedLine (← append s "\x7d")

def demoList : Action Text := do
  let l ← newList 4 none
  checkNotNull (.object l .list)
  match (← object l).body with
  | .list item _ =>
    printedLine (← joined "    l is \x7b item=" [Text.ofInt item.toInt, ", next=null \x7d"])
  | _ => crash .nullDereference

def demoTypes : Action Text := do
  let title ← printedLine (← newString "  Some Types")
  let s ← newString "hello"
  let quoted ← concat (some (← newString "    s is \"")) (some s)
  let word ← printedLine (← append quoted "\"")
  let letter ← printedLine (← joined "    c is '" ["g", "'"])
  let flag ← printedLine (← joined "    b is " [Text.ofBool true])
  let int ← printedLine (← joined "    i is " [Text.ofInt 14])
  let float ← printedLine (← joined "    f is " ["3.141"])
  let array ← demoArray
  let list ← demoList
  return title ++ word ++ letter ++ flag ++ int ++ float ++ array ++ list

def doubleUntil (limit : Nat) : (fuel : Nat) → Nat → Nat
  | 0, n => n
  | fuel + 1, n => if n < limit then doubleUntil limit fuel (n + n) else n

def demoStatements : Action Text := do
  let title ← printedLine (← newString "  Some Statements")
  let doubled ← printedLine (← joined "    i is " [Text.ofNat (2 * 4)])
  let j := doubleUntil 1000 1000 1
  let reached ← printedLine (← joined "    j is " [Text.ofNat j])
  let compared ← printedLine (← newString
    (if j < 300000 then "    j < 300,000" else "    j >= 300,000"))
  let count ← printed (← newString "    countdown")
  let counts ← (List.range 10).mapM fun i => do
    printed (← joined " " [Text.ofNat (10 - i)])
  return title ++ doubled ++ reached ++ compared ++ count ++ counts.flatten ++ "\n"

def demo : Action Text := return (← demoTypes) ++ (← demoStatements)

end ObjectModel.Action
