import ObjectModel.Snapshot.Basic
import ObjectModel.Snapshot.Item

/-!
Snapshots as binary items. A snapshot is a map from 1 to its version and from 2 to its list of
descriptors; a descriptor is a map from 1 to its name and from 2 to 6 to those of its other fields
that are not empty. Keys ascend, so every snapshot has exactly one encoding.
-/

namespace ObjectModel

namespace Item

def null : Item := .simple 22

def ofBool (b : Bool) : Item := .simple (if b then 21 else 20)

def ofText (t : Text) : Item := .text [t]

def ofInt (n : Int) : Item :=
  if 0 ≤ n then .unsigned n.toNat else .negative (-1 - n).toNat

/-- A map entry that is left out when its value is empty. -/
def entryUnless (empty : Bool) (key : Nat) (value : Item) : List Item :=
  if empty then [] else [.unsigned key, value]

end Item

namespace Descriptor

def toItem (d : Descriptor) : Item :=
  let slots := d.slots.getD []
  .map (Item.entryUnless false 1 (.ofText d.name)
    ++ Item.entryUnless d.superclass.isEmpty 2 (.ofText d.superclass)
    ++ Item.entryUnless d.component.isEmpty 3 (.ofText d.component)
    ++ Item.entryUnless (!d.primitive) 4 (.ofBool d.primitive)
    ++ Item.entryUnless (d.dimensions == 0) 5 (.ofInt d.dimensions.toInt)
    ++ Item.entryUnless slots.isEmpty 6 (.array (slots.map .ofText)))

end Descriptor

namespace Snapshot

def toItem (s : Snapshot) : Item :=
  .map [.unsigned 1, .ofInt s.version.toInt, .unsigned 2,
    match s.classes with
    | none => .null
    | some ds => .array (ds.map Descriptor.toItem)]

def encode (s : Option Snapshot) : Text :=
  match s with
  | none => Item.null.encode
  | some s => s.toItem.encode

end Snapshot

end ObjectModel
