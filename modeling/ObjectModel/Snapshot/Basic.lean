import ObjectModel.Class.Table

/-!
Snapshots describe the table of classes: one descriptor for each class, in creation order, with
the names of its superclass and component and the slot layout of its instances. An absent name is
empty. Snapshots read from elsewhere may hold any descriptors, or no list at all.
-/

namespace ObjectModel

structure Descriptor where
  name : Text := []
  superclass : Text := []
  component : Text := []
  primitive : Bool := false
  dimensions : Int64 := 0
  slots : Option (List Text) := none
deriving DecidableEq, Repr

structure Snapshot where
  version : Int64 := 0
  classes : Option (List Descriptor) := none
deriving DecidableEq, Repr

namespace World

def nameOf (w : World) (c : Option ClassId) : Text :=
  ((c.bind w.class?).map Class.name).getD []

def describe (w : World) (c : Class) : Descriptor where
  name := c.name
  superclass := w.nameOf c.shape.superclass?
  component := w.nameOf c.shape.component?
  primitive := c.shape.isPrimitive
  dimensions := Int64.ofNat c.shape.dimensions
  slots := c.table.map DispatchTable.slots

end World

namespace Snapshot

/-- The version of the snapshots taken here, and the only one accepted on reading. -/
def currentVersion : Int64 := 1

def capture (w : World) : Snapshot where
  version := currentVersion
  classes := some (w.classes.toList.map w.describe)

/-- The first descriptor with this name and number of dimensions. -/
def lookup (s : Snapshot) (name : Text) (dimensions : Int64) : Option Descriptor :=
  (s.classes.getD []).find? fun d => d.name == name && d.dimensions == dimensions

end Snapshot

end ObjectModel
