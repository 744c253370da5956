import ObjectModel.Class.Builtin

/-!
Exceptions are objects. Throwing allocates one, after the classes of its kind and the kinds above,
and ends the action with it.
-/

namespace ObjectModel

def exceptionText (k : Kind) (message : Text) : Text :=
  if message.isEmpty then k.name else k.name ++ ": " ++ message

namespace World

def exception? (w : World) (id : ObjectId) : Option (Kind × Text) :=
  match w.body? id with
  | some (.exception k message) => some (k, message)
  | _ => none

/-- The text of an exception object, empty for other objects. -/
def exceptionText (w : World) (id : ObjectId) : Text :=
  match w.exception? id with
  | some (k, message) => ObjectModel.exceptionText k message
  | none => []

end World

namespace Action

def newException (k : Kind) (message : Text) : Action ObjectId := do
  let c ← kindClass k
  initialise ((← get).table? c) (.exception k message)

def raise {α : Type} (k : Kind) (message : Text) : Action α := do
  let e ← newException k message
  log .debug .runtime ("throw " ++ exceptionText k message)
  throw (.thrown e)

/-- The kind of a code; a code outside the hierarchy crashes. -/
def kindOfCode (code : KindCode) : Action Kind :=
  match code.kind? with
  | some k => return k
  | none => crash (.indexOutOfRange code.toNat Kind.all.length)

def checkNotNull (h : Handle) : Action Unit :=
  if h.isNull then raise .nullPointer [] else return ()

def checkIndex (k : Kind) (index : Int32) (length : Nat) : Action Unit :=
  if 0 ≤ index.toInt ∧ index.toInt < length then return ()
  else raise k ("index " ++ Text.ofInt index.toInt ++ " out of bounds for length "
    ++ Text.ofNat length)

end Action

end ObjectModel
