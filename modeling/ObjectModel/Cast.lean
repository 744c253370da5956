import ObjectModel.Array

/-!
Checked casts. A cast names a class and a target type. Null casts to the null of the target type.
Otherwise the object must be an instance of the class, and the target must be the type of the
handle, of the whole object, or of an ancestor embedded in it; the result is that handle. Ancestors
are looked for only under a type of references: an interface is implemented by the whole object or
not at all.
-/

namespace ObjectModel

inductive CastTarget where
  | any
  | shape
  | view (view : View)
  | array (element : ElementType)
  | grid (element : ElementType)
deriving DecidableEq, Repr

namespace CastTarget

def elementName : ElementType → Text
  | .object => "github.com/chazu/jrt/rt.Object"
  | element => element.machineName

def name : CastTarget → Text
  | .any | .shape => "<nil>"
  | .view .plain => "*rt.BaseObject"
  | .view .string => "*rt.String"
  | .view .metaclass => "*rt.Class"
  | .view .exception => "*rt.SignaledException"
  | .view .point => "*main.point"
  | .view .colorPoint => "*main.colorPoint"
  | .view .alphaPoint => "*main.alphaPoint"
  | .view .bare => "*main.instance"
  | .view .flat => "main.flat"
  | .view .list => "*main.list"
  | .view .array => "*rt.Array"
  | .view .grid => "*rt.Array2D"
  | .array element => "*rt.Array[" ++ elementName element ++ "]"
  | .grid element => "*rt.Array2D[" ++ elementName element ++ "]"

def null : CastTarget → Handle
  | .any | .shape => .null
  | .view .flat => .blankFlat
  | .view v => .typedNull v
  | .array _ => .typedNull .array
  | .grid _ => .typedNull .grid

def accepts (t : CastTarget) (view : View) (body : Body) : Bool :=
  match t, body with
  | .any, _ => true
  | .shape, _ => view.isPoint
  | .view v, _ => view == v
  | .array e, .array cells => view == .array && cells.element == e
  | .grid e, .grid cells => view == .grid && cells.element == e
  | _, _ => false

/-- Is the target a type of references? Interfaces and flat objects are not. -/
def isReference : CastTarget → Bool
  | .any | .shape => false
  | .view v => v.isReference
  | .array _ | .grid _ => true

/-- The first view of an object that is of the target type: the one at hand, the whole object, then
the embedded ancestors. -/
def viewOf? (t : CastTarget) (view : View) (body : Body) : Option View :=
  if t.accepts view body then some view
  else if t.accepts body.view body then some body.view
  else if t.isReference && body.view.isReference then
    body.view.embedded.find? fun v => t.accepts v body
  else none

theorem viewOf?_some {t : CastTarget} {here v : View} {body : Body}
    (chosen : t.viewOf? here body = some v) :
    v ∈ here :: body.view :: body.view.embedded ∧ t.accepts v body = true := by
  unfold viewOf? at chosen
  split at chosen
  · rename_i accepted
    cases chosen
    exact ⟨List.mem_cons_self, accepted⟩
  · split at chosen
    · rename_i accepted
      cases chosen
      exact ⟨List.mem_cons_of_mem _ List.mem_cons_self, accepted⟩
    · split at chosen
      · have inside := List.mem_of_find?_eq_some chosen
        have accepted := List.find?_some chosen
        exact ⟨List.mem_cons_of_mem _ (List.mem_cons_of_mem _ inside), accepted⟩
      · cases chosen

end CastTarget

def Handle.viewOn (h : Handle) (body : Body) : View :=
  match h with
  | .object _ v => v
  | _ => body.view

namespace Action

def checkInstance (c : ClassId) (h : Handle) : Action Unit := do
  if !(← isInstance (some c) h) then
    let actual ← className (← objectGetClass h)
    let wanted ← className (some c)
    raise .classCast ("class " ++ actual ++ " cannot be cast to class " ++ wanted)

def represent (t : CastTarget) (h : Handle) : Action Handle := do
  let id ← target h
  let o ← object id
  match t.viewOf? (h.viewOn o.body) o.body with
  | some v => return .object id v
  | none =>
    let actual ← className (← objectGetClass h)
    raise .classCast ("class " ++ actual ++ " cannot be represented as " ++ t.name)

def cast (t : CastTarget) (k : Option ClassId) (h : Handle) : Action Handle := do
  let c ← classOperand k
  if h.isNull then return t.null
  checkInstance c h
  represent t h

end Action

end ObjectModel
