import ObjectModel.Snapshot.Encoding
import ObjectModel.Text.Numeral
import ObjectModel.Text.Utf8

/-!
Reading snapshots. The input must be one well-formed item. A record is read from a map: keys are
field numbers or their decimal numerals, the first occurrence of a field counts, and unknown keys
are passed over with their values. Null leaves a field empty. Tags are looked through, except that
the tags of big numbers make a byte string an integer. The first problem in reading order is the
one reported, and a version other than the current one is refused last.
-/

namespace ObjectModel

namespace Item

inductive Mismatch where
  | wrongType
  | invalidText
  /-- A tag stands before an item it may not stand before. -/
  | misusedTag
deriving DecidableEq, Repr

inductive Content where
  | integer (value : Int)
  | text (value : Text)
  | array (items : List Item)
  | map (entries : List Item)
  | simple (value : Nat)
  | other

/-- Joins the chunks of a text, each of which must be UTF-8 by itself. -/
def joinText (chunks : List Text) : Except Mismatch Text :=
  if chunks.all Text.isUtf8 then .ok chunks.flatten else .error .invalidText

def content : Item → Except Mismatch Content
  | .unsigned n => .ok (.integer n)
  | .negative n => .ok (.integer (-1 - n))
  | .bytes _ => .ok .other
  | .text chunks => do return .text (← joinText chunks)
  | .array items => .ok (.array items)
  | .map entries => .ok (.map entries)
  | .simple value => .ok (.simple value)
  | .float _ _ => .ok .other
  | .tag 0 (.text chunks) => do return .text (← joinText chunks)
  | .tag 0 _ => .error .misusedTag
  | .tag 1 (.unsigned n) => .ok (.integer n)
  | .tag 1 (.negative n) => .ok (.integer (-1 - n))
  | .tag 1 (.float _ _) => .ok .other
  | .tag 1 _ => .error .misusedTag
  | .tag 2 (.bytes chunks) => .ok (.integer (bigEndian chunks.flatten))
  | .tag 2 _ => .error .misusedTag
  | .tag 3 (.bytes chunks) => .ok (.integer (-1 - bigEndian chunks.flatten))
  | .tag 3 _ => .error .misusedTag
  | .tag _ item => content item

def isVoid (value : Nat) : Bool := value == 22 || value == 23

/-- A signed 64-bit integer. Simple values other than the truth values count by their number. -/
def toInt64 (item : Item) : Except Mismatch Int64 := do
  match ← item.content with
  | .integer n =>
    if -Text.signedLimit ≤ n ∧ n < Text.signedLimit then return Int64.ofInt n
    else throw .wrongType
  | .simple value =>
    if isVoid value then return 0
    else if value = 20 ∨ value = 21 then throw .wrongType
    else return Int64.ofNat value
  | _ => throw .wrongType

def toBool (item : Item) : Except Mismatch Bool := do
  match ← item.content with
  | .simple value =>
    if value = 20 ∨ isVoid value then return false
    else if value = 21 then return true
    else throw .wrongType
  | _ => throw .wrongType

def toText (item : Item) : Except Mismatch Text := do
  match ← item.content with
  | .text t => return t
  | .simple value => if isVoid value then return [] else throw .wrongType
  | _ => throw .wrongType

def toList {α : Type} (read : Item → Except Mismatch α) (item : Item) :
    Except Mismatch (Option (List α)) := do
  match ← item.content with
  | .array items => return some (← items.mapM read)
  | .simple value => if isVoid value then return none else throw .wrongType
  | _ => throw .wrongType

/-- The number of the field that a key names, none when it can name no field. -/
def fieldNumber : Item → Except Mismatch (Option Nat)
  | .unsigned n => .ok (some n)
  | .negative n => if n < Text.signedLimit then .ok none else .error .wrongType
  | .text chunks => do
    let name ← joinText chunks
    return (List.range 7).find? fun n => name == Text.ofNat n
  | _ => .error .wrongType

/-- Reads a record: the fields of a map, one after another, into a record that starts out blank.
Null gives the blank record. -/
def toRecord {α : Type} (blank : α) (field : α → Nat → Item → Except Mismatch α) (item : Item) :
    Except Mismatch α := do
  match ← item.content with
  | .map entries => fields blank entries
  | .simple value => if isVoid value then return blank else throw .wrongType
  | _ => throw .wrongType
where
  fields (record : α) : List Item → Except Mismatch α
    | key :: value :: rest => do
      match ← key.fieldNumber with
      | some n => fields (← field record n value) rest
      | none => fields record rest
    | _ => .ok record

end Item

namespace Descriptor

structure Draft where
  name : Option Text := none
  superclass : Option Text := none
  component : Option Text := none
  primitive : Option Bool := none
  dimensions : Option Int64 := none
  slots : Option (Option (List Text)) := none

def Draft.field (d : Draft) (number : Nat) (value : Item) : Except Item.Mismatch Draft := do
  match number with
  | 1 => if d.name.isSome then return d else return { d with name := some (← value.toText) }
  | 2 =>
    if d.superclass.isSome then return d
    else return { d with superclass := some (← value.toText) }
  | 3 =>
    if d.component.isSome then return d
    else return { d with component := some (← value.toText) }
  | 4 =>
    if d.primitive.isSome then return d
    else return { d with primitive := some (← value.toBool) }
  | 5 =>
    if d.dimensions.isSome then return d
    else return { d with dimensions := some (← value.toInt64) }
  | 6 =>
    if d.slots.isSome then return d
    else return { d with slots := some (← value.toList Item.toText) }
  | _ => return d

/-- Fields that were not read are empty. -/
def Draft.finish (d : Draft) : Descriptor where
  name := d.name.getD []
  superclass := d.superclass.getD []
  component := d.component.getD []
  primitive := d.primitive.getD false
  dimensions := d.dimensions.getD 0
  slots := d.slots.getD none

def ofItem (item : Item) : Except Item.Mismatch Descriptor :=
  Draft.finish <$> item.toRecord {} Draft.field

end Descriptor

namespace Snapshot

structure Draft where
  version : Option Int64 := none
  classes : Option (Option (List Descriptor)) := none

def Draft.field (s : Draft) (number : Nat) (value : Item) : Except Item.Mismatch Draft := do
  match number with
  | 1 =>
    if s.version.isSome then return s
    else return { s with version := some (← value.toInt64) }
  | 2 =>
    if s.classes.isSome then return s
    else return { s with classes := some (← value.toList Descriptor.ofItem) }
  | _ => return s

def Draft.finish (s : Draft) : Snapshot where
  version := s.version.getD 0
  classes := s.classes.getD none

def ofItem (item : Item) : Except Item.Mismatch Snapshot :=
  Draft.finish <$> item.toRecord {} Draft.field

inductive Refusal where
  | malformed (cause : Item.Malformed)
  | mismatch (cause : Item.Mismatch)
  | version (found : Int64)
deriving DecidableEq, Repr

def Refusal.message : Refusal → Text
  | .malformed _ => "meta: unmarshal snapshot: malformed item"
  | .mismatch _ => "meta: unmarshal snapshot: unexpected item"
  | .version found => "meta: unsupported snapshot version " ++ Text.ofInt found.toInt

def decode (input : Text) : Except Refusal Snapshot :=
  match Item.read input with
  | .error cause => .error (.malformed cause)
  | .ok item =>
    match ofItem item with
    | .error cause => .error (.mismatch cause)
    | .ok s => if s.version = currentVersion then .ok s else .error (.version s.version)

end Snapshot

end ObjectModel
