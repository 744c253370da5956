import ObjectModel.Class.Array

/-!
Classes defined by programs. A definition names a class, its superclass (the root class when none
is given) and the slots its instances add. Defining a name again with the same superclass gives
the first class; with another superclass it crashes.
-/

namespace ObjectModel.Action

def orObjectClass (c : Option ClassId) : Action ClassId :=
  match c with
  | some c => return c
  | none => objectClass

def defineClass (name : Text) (superclass : Option ClassId) (slots : List Text) :
    Action ClassId := do
  let parent ← orObjectClass superclass
  let p ← classOf parent
  match p.table with
  | none => crash (.cannotExtend p.name)
  | some inherited =>
    let c ← register name (.derived parent) fun c =>
      some (.extend (some inherited) ⟨.known c, none, slots⟩)
    let actual := (← get).superclass? c
    if actual = some parent then return c
    else crash (.alreadyDefined name (← className actual))

end ObjectModel.Action
