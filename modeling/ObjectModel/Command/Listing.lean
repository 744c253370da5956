import ObjectModel.Snapshot.Basic

/-!
The listing of classes: for each class a line with its name, its superclass, its component and
whether it is primitive, and a line with the slots of its instances where it can have instances.
-/

namespace ObjectModel.World

def listSuperclass (w : World) (c : Class) : Text :=
  match c.shape.superclass? with
  | none => []
  | some s => " extends " ++ w.nameOf (some s)

def listComponent (w : World) (c : Class) : Text :=
  match c.shape.component? with
  | none => []
  | some k =>
    " (component " ++ w.nameOf (some k) ++ ", " ++ Text.ofNat c.shape.dimensions ++ "D)"

def listSlots (c : Class) : Text :=
  match c.table with
  | none => []
  | some t => "    slots: " ++ (Text.ofString ", ").intercalate t.slots ++ "\n"

def listClass (w : World) (c : Class) : Text :=
  c.name ++ w.listSuperclass c ++ w.listComponent c
    ++ (if c.shape.isPrimitive then Text.ofString " (primitive)" else []) ++ "\n" ++ listSlots c

def listing (w : World) : Text := w.classes.toList.flatMap w.listClass

end ObjectModel.World
