import Mathlib.Logic.Relation
import ObjectModel.Proofs.World
import ObjectModel.Sample

/-!
The ways in which a world changes. Every action is a sequence of these changes: a class is created,
an object is allocated, an array element is replaced, an object is released, a setting or a message
is recorded. Each change says what holds at the moment it is made, so an invariant of all reachable
worlds is proved once per change. Changes that a program asks for by name are events, and a policy
says which events may occur.
-/

namespace ObjectModel

def Kind.superclassKey (k : Kind) : Text := (k.parent?.map Kind.name).getD (Core.name .object)

def Sample.superclassKey : Sample → Text
  | .point | .list => Core.name .object
  | .colorPoint => Sample.name .point
  | .alphaPoint => Sample.name .colorPoint

def rootDescriptor : Text := "L" ++ Core.name .object ++ ";"

def Rank.rootKey (rank : Rank) : Text := rank.key (rank.brackets ++ rootDescriptor)

def Rank.baseKey : Rank → Text
  | .one => Core.name .object
  | .two => Rank.rootKey .one

def Class.arraySuperclassKey (rank : Rank) (c : Class) : Text :=
  if c.shape.isPrimitive || c.shape == .root then rank.baseKey else rank.rootKey

/-- A handle leads to an object of which it is a view, or to no object. -/
def Handle.Valid (w : World) (h : Handle) : Prop :=
  ∀ id v, h = .object id v → ∃ o, w.object? id = some o ∧ v ∈ o.body.view :: o.body.view.embedded

/-- The classes that the levels of a table name exist. -/
def DispatchTable.Valid (w : World) (t : DispatchTable) : Prop :=
  ∀ level ∈ t.levels, ∀ c, level.owner = .known c → c < w.classes.size

def Element.hasType (e : Element) (type : ElementType) : Bool :=
  match type, e with
  | .boolean, .boolean _ | .byte, .byte _ | .char, .char _ | .short, .short _ | .int, .int _
  | .long, .long _ | .float, .float _ | .double, .double _ | .text, .text _ => true
  | .object, .ref _ => true
  | .string, .ref (.typedNull .string) | .string, .ref (.object _ .string) => true
  | .point, .ref (.typedNull .point) | .point, .ref (.object _ .point) => true
  | _, _ => false

namespace World

def classOf? (w : World) (id : ObjectId) : Option ClassId :=
  (w.object? id).bind fun o => w.owner? o.table

/-- What a store check admits into an array: null, and instances of the component class of the
array's own class. -/
inductive Fits (w : World) (array : ObjectId) : Handle → Prop where
  | null {h : Handle} (null : h.isNull = true) : Fits w array h
  | member {a component c : ClassId} {k : Class} {id : ObjectId} {v : View}
      (arrays : w.classOf? array = some a) (known : w.class? a = some k)
      (holds : k.shape.component? = some component) (element : w.classOf? id = some c)
      (below : w.isSubclass c component = true) : Fits w array (.object id v)

end World

inductive Event where
  | define (name : Text) (superclass : ClassId) (slots : List Text)
  | store (array : ObjectId) (index : Nat) (value : Element)
  | storeAt (grid : ObjectId) (row column : Nat) (value : Element)
  | drop (object : ObjectId)
  | release (object : ObjectId)
  | record (name : Text) (handle : Handle)
  | options (options : Options)
  | threshold (threshold : Option Severity)

/-- Which events may occur in which worlds. -/
structure Policy where
  allows : World → Event → Prop

/-- The sample classes may always be defined. -/
class Policy.Samples (P : Policy) : Prop where
  allow : ∀ {w : World} {s : Sample} {c : ClassId}, w.find? s.superclassKey = some c →
    P.allows w (.define s.name c s.slots)

def Policy.any : Policy := ⟨fun _ _ => True⟩

def Policy.quiet : Policy :=
  ⟨fun w e => ∃ s c, w.find? (Sample.superclassKey s) = some c ∧ e = .define s.name c s.slots⟩

instance : Policy.Samples .any := ⟨fun _ => trivial⟩

instance : Policy.Samples .quiet := ⟨fun {_ s c} above => ⟨s, c, above, rfl⟩⟩

/-- The ways in which classes come into being: name, shape and dispatch table of the new class. A
definition by a program is an event, the others happen on first use. -/
inductive Creation (w : World) :
    Option Event → Text → Shape → (ClassId → Option DispatchTable) → Prop where
  | root : Creation w none (Core.name .object) .root fun _ => some (Core.table .object)
  | core {root : ClassId} (which : Core) (below : which ≠ .object)
      (above : w.find? (Core.name .object) = some root) :
      Creation w none which.name (.derived root) fun _ => some which.table
  | primitive (p : Primitive) : Creation w none p.name .primitive fun _ => none
  | kind {s : ClassId} {t : DispatchTable} (k : Kind) (above : w.find? k.superclassKey = some s)
      (inherited : w.table? s = some t) :
      Creation w none k.name (.derived s) fun c =>
        some (.extend (some t) ⟨.known c, none, k.slots⟩)
  | array {component s : ClassId} {k : Class} (rank : Rank)
      (known : w.class? component = some k)
      (above : w.find? (k.arraySuperclassKey rank) = some s) :
      Creation w none (k.arrayName rank) (.array rank component s) Action.arrayTable
  | definition {s : ClassId} {t : DispatchTable} (name : Text) (slots : List Text)
      (inherited : w.table? s = some t) :
      Creation w (some (.define name s slots)) name (.derived s) fun c =>
        some (.extend (some t) ⟨.known c, none, slots⟩)

def Body.InOrder (w : World) : Body → Prop
  | .point _ _ | .bare | .flat => True
  | .colorPoint _ _ color | .alphaPoint _ _ color _ =>
    ∀ s ∈ color, ∃ t, w.body? s = some (.string t)
  | .list _ next => ∀ l ∈ next, ∃ item rest, w.body? l = some (.list item rest)
  | _ => False

inductive Allocation (w : World) : DispatchTable → Body → Prop where
  | plain : Allocation w .object .plain
  | string (content : Content) : Allocation w .string (.string content)
  | exception {c : ClassId} {t : DispatchTable} (k : Kind) (message : Text)
      (found : w.find? k.name = some c) (own : w.table? c = some t) :
      Allocation w t (.exception k message)
  | member {t : DispatchTable} {body : Body} (valid : t.Valid w) (sound : body.InOrder w) :
      Allocation w t body
  | array {c a : ClassId} {k : Class} {t : DispatchTable} (e : ElementType) (n : Nat)
      (fit : (k.shape.isPrimitive || e.holdsObjects) = true)
      (known : w.class? c = some k) (found : w.find? (k.arrayKey .one) = some a)
      (own : w.table? a = some t) :
      Allocation w t (.array (.blank e n !k.shape.isPrimitive))
  | grid {c a : ClassId} {k : Class} {t : DispatchTable} (e : ElementType) (n m : Nat)
      (fit : (k.shape.isPrimitive || e.holdsObjects) = true)
      (known : w.class? c = some k) (found : w.find? (k.arrayKey .two) = some a)
      (own : w.table? a = some t) :
      Allocation w t (.grid (.blank e n m !k.shape.isPrimitive))

inductive Change (P : Policy) : World → World → Prop where
  | log {w : World} (m : Message) : Change P w (w.logged m)
  | allocate {w : World} {table : DispatchTable} {body : Body} (born : Allocation w table body) :
      Change P w (w.push table body)
  | create {w : World} {cause : Option Event} {name : Text} {shape : Shape}
      {table : ClassId → Option DispatchTable} (fresh : w.find? (shape.key name) = none)
      (made : Creation w cause name shape table) (allowed : ∀ e ∈ cause, P.allows w e) :
      Change P w (w.pushClass name shape table)
  | store {w : World} {id i : Nat} {cells : Cells} {value : Element}
      (held : w.body? id = some (.array cells)) (inside : i < cells.storage.length)
      (typed : value.hasType cells.element = true) (valid : value.handle.Valid w)
      (fits : cells.checked = true → w.Fits id value.handle)
      (allowed : P.allows w (.store id i value)) :
      Change P w (w.modifyObject id (Obj.setElement i value))
  | storeAt {w : World} {id i j : Nat} {cells : Grid} {row : List Element} {value : Element}
      (held : w.body? id = some (.grid cells)) (here : cells.storage[i]? = some row)
      (inside : j < row.length) (typed : value.hasType cells.element = true)
      (valid : value.handle.Valid w) (fits : cells.checked = true → w.Fits id value.handle)
      (allowed : P.allows w (.storeAt id i j value)) :
      Change P w (w.modifyObject id (Obj.setGridElement i j value))
  | drop {w : World} (id : ObjectId) (allowed : P.allows w (.drop id)) :
      Change P w (w.modifyObject id Obj.withoutStorage)
  | release {w : World} (id : ObjectId) (allowed : P.allows w (.release id)) :
      Change P w (w.modifyObject id Obj.asReleased)
  | record {w : World} (name : Text) (h : Handle) (allowed : P.allows w (.record name h)) :
      Change P w { w with destroyed := w.destroyed.push (name, h) }
  | options {w : World} (options : Options) (allowed : P.allows w (.options options)) :
      Change P w { w with options }
  | threshold {w : World} (threshold : Option Severity)
      (allowed : P.allows w (.threshold threshold)) :
      Change P w { w with threshold }

def Evolves (P : Policy) : World → World → Prop := Relation.ReflTransGen (Change P)

end ObjectModel
