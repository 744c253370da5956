import ObjectModel.World

/-!
The table of classes. Classes stand in creation order and are found by key. Registering a key that
is taken returns the class that holds it; otherwise the class is created together with the string
of its name, which is allocated first.
-/

namespace ObjectModel

namespace World

def find? (w : World) (key : Text) : Option ClassId := w.classes.findIdx? fun c => c.key == key

def superclass? (w : World) (c : ClassId) : Option ClassId :=
  (w.class? c).bind fun k => k.shape.superclass?

def table? (w : World) (c : ClassId) : Option DispatchTable := (w.class? c).bind Class.table

/-- The superclasses of a class, nearest first. A superclass is always created before its
subclasses, so the walk moves towards the front of the table. -/
def superclasses (w : World) (c : ClassId) : List ClassId :=
  match w.superclass? c with
  | none => []
  | some s => if s < c then s :: superclasses w s else []
termination_by c

/-- The number of steps from a class to the top. -/
def depth (w : World) (c : ClassId) : Nat :=
  match w.superclass? c with
  | none => 0
  | some s => if s < c then depth w s + 1 else 0
termination_by c

/-- Does the walk from one class to the top meet the other? -/
def isSubclass (w : World) (c d : ClassId) : Bool :=
  c == d || match w.superclass? c with
    | none => false
    | some s => if s < c then isSubclass w s d else false
termination_by c

theorem depth_eq_length (w : World) (c : ClassId) : w.depth c = (w.superclasses c).length := by
  fun_induction superclasses w c with
  | case1 c top => simp [depth, top]
  | case2 c s above earlier ih => simp [depth.eq_def w c, above, earlier, ih]
  | case3 c s above later => simp [depth, above, later]

theorem isSubclass_eq (w : World) (c d : ClassId) :
    w.isSubclass c d = (c == d || (w.superclasses c).contains d) := by
  fun_induction superclasses w c with
  | case1 c top => simp [isSubclass, top]
  | case2 c s above earlier ih =>
    rw [List.contains_cons, BEq.comm (a := d)]
    simp [isSubclass.eq_def w c, above, earlier, ih]
  | case3 c s above later => simp [isSubclass, above, later]

/-- The subclass test where either class may be missing: a missing class is related to none. -/
def isSubclassOf (w : World) (c d : Option ClassId) : Bool :=
  match c, d with
  | some c, some d => w.isSubclass c d
  | _, _ => false

end World

namespace Action

/-- Creates a class at the end of the table. Its dispatch table may refer to the class itself. -/
def create (name : Text) (shape : Shape) (table : ClassId → Option DispatchTable) :
    Action ClassId := do
  let nameObject ← newString name
  let id := (← get).classes.size
  let object ← allocate .metaclass (.metaclass id)
  modify fun w =>
    { w with classes := w.classes.push ⟨name, nameObject, object, shape, table id⟩ }
  log .debug .runtime ("defined class " ++ name)
  return id

/-- The class under the key of this name and shape, created if there is none. -/
def register (name : Text) (shape : Shape) (table : ClassId → Option DispatchTable) :
    Action ClassId := do
  match (← get).find? (shape.key name) with
  | some c => return c
  | none => create name shape table

def className (c : Option ClassId) : Action Text := do
  let k ← classOf (← demand c)
  return k.name

end Action

end ObjectModel
