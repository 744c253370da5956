import ObjectModel.Array

/-!
Views of a world: what a class or an object lookup gives after each way of changing the world, and
how the class lookup by key relates to the order of creation.
-/

namespace ObjectModel

/-- Bodies that differ at most in what an array holds. -/
inductive Body.Kin : Body → Body → Prop where
  | same (b : Body) : Kin b b
  | array (cells : Cells) (storage : List Element) :
      Kin (.array cells) (.array { cells with storage })
  | grid (cells : Grid) (storage : List (List Element)) :
      Kin (.grid cells) (.grid { cells with storage })

/-- How an array is laid out: its rank, the type of its elements and whether stores are checked. -/
structure Format where
  rank : Rank
  element : ElementType
  checked : Bool
deriving DecidableEq, Repr

namespace Body

def format? : Body → Option Format
  | .array cells => some ⟨.one, cells.element, cells.checked⟩
  | .grid cells => some ⟨.two, cells.element, cells.checked⟩
  | _ => none

def elements : Body → List Element
  | .array cells => cells.storage
  | .grid cells => cells.storage.flatten
  | _ => []

end Body

def World.element? (w : World) (id : ObjectId) : Option ElementType :=
  ((w.body? id).bind Body.format?).map Format.element

namespace Body.Kin

theorem format?_eq {a b : Body} (kin : Kin a b) : b.format? = a.format? := by
  cases kin <;> rfl

theorem view_eq {a b : Body} (kin : Kin a b) : b.view = a.view := by
  cases kin <;> rfl

theorem trans {a b c : Body} (first : Kin a b) (second : Kin b c) : Kin a c := by
  cases first with
  | same => exact second
  | array cells storage =>
    cases second with
    | same => exact .array cells storage
    | array _ storage' => exact .array cells storage'
  | grid cells storage =>
    cases second with
    | same => exact .grid cells storage
    | grid _ storage' => exact .grid cells storage'

theorem eq_of_plain {a b : Body} (kin : Kin a b) (plain : a.view ≠ .array ∧ a.view ≠ .grid) :
    b = a := by
  cases kin with
  | same => rfl
  | array => exact absurd rfl plain.1
  | grid => exact absurd rfl plain.2

end Body.Kin

theorem Obj.setElement_table (i : Nat) (value : Element) (o : Obj) :
    (o.setElement i value).table = o.table := by
  unfold setElement
  split <;> rfl

theorem Obj.setElement_kin (i : Nat) (value : Element) (o : Obj) :
    o.body.Kin (o.setElement i value).body := by
  unfold setElement
  split
  · rename_i cells held
    rw [held]
    exact .array cells _
  · exact .same _

theorem Obj.setGridElement_table (i j : Nat) (value : Element) (o : Obj) :
    (o.setGridElement i j value).table = o.table := by
  unfold setGridElement
  split <;> rfl

theorem Obj.setGridElement_kin (i j : Nat) (value : Element) (o : Obj) :
    o.body.Kin (o.setGridElement i j value).body := by
  unfold setGridElement
  split
  · rename_i cells held
    rw [held]
    exact .grid cells _
  · exact .same _

theorem Obj.withoutStorage_table (o : Obj) : o.withoutStorage.table = o.table := by
  unfold withoutStorage
  split <;> rfl

theorem Obj.withoutStorage_kin (o : Obj) : o.body.Kin o.withoutStorage.body := by
  unfold withoutStorage
  split
  · rename_i cells held
    rw [held]
    exact .array cells _
  · rename_i cells held
    rw [held]
    exact .grid cells _
  · exact .same _

namespace World

def push (w : World) (table : DispatchTable) (body : Body) : World :=
  { w with objects := w.objects.push { table, body } }

/-- The world with one more class, after the string of its name and its own object. -/
def pushClass (w : World) (name : Text) (shape : Shape)
    (table : ClassId → Option DispatchTable) : World :=
  let id := w.classes.size
  let named := w.push .string (.string name)
  let whole := named.push .metaclass (.metaclass id)
  { whole with
    classes := w.classes.push ⟨name, w.objects.size, w.objects.size + 1, shape, table id⟩ }

/-- The world after a message, which is kept if its severity passes the threshold. -/
def logged (w : World) (m : Message) : World :=
  if m.severity.passes w.threshold then { w with messages := w.messages.push m } else w

section Objects
variable (w : World)

theorem object?_push (table : DispatchTable) (body : Body) (id : ObjectId) :
    (w.push table body).object? id =
      if id = w.objects.size then some { table, body } else w.object? id :=
  Array.getElem?_push

theorem object?_pushClass (name : Text) (shape : Shape)
    (table : ClassId → Option DispatchTable) (id : ObjectId) :
    (w.pushClass name shape table).object? id =
      if id = w.objects.size + 1 then
        some { table := .metaclass, body := .metaclass w.classes.size }
      else if id = w.objects.size then some { table := .string, body := .string name }
      else w.object? id := by
  have size : (w.push .string (.string name)).objects.size = w.objects.size + 1 :=
    Array.size_push _
  have outer := (w.push .string (.string name)).object?_push .metaclass
    (.metaclass w.classes.size) id
  rw [size, w.object?_push] at outer
  exact outer

theorem object?_modifyObject (f : Obj → Obj) (id j : ObjectId) :
    (w.modifyObject id f).object? j = if id = j then (w.object? j).map f else w.object? j :=
  Array.getElem?_modify

theorem lt_of_object? {id : ObjectId} {o : Obj} (found : w.object? id = some o) :
    id < w.objects.size :=
  (Array.getElem?_eq_some_iff.mp found).1

theorem body?_of_object? {w : World} {id : ObjectId} {o : Obj} (found : w.object? id = some o) :
    w.body? id = some o.body := by
  rw [body?, found, Option.map_some]

theorem body_of_object? {w : World} {id : ObjectId} {o : Obj} {body : Body}
    (held : w.body? id = some body) (found : w.object? id = some o) : o.body = body := by
  rw [body?, found] at held
  exact Option.some.inj held

end Objects

section Classes
variable {w : World}

theorem lt_of_class? {c : ClassId} {k : Class} (known : w.class? c = some k) :
    c < w.classes.size :=
  (Array.getElem?_eq_some_iff.mp known).1

theorem class?_of_lt {c : ClassId} (below : c < w.classes.size) : ∃ k, w.class? c = some k :=
  ⟨w.classes[c], Array.getElem?_eq_getElem below⟩

theorem class?_pushClass (name : Text) (shape : Shape)
    (table : ClassId → Option DispatchTable) (c : ClassId) :
    (w.pushClass name shape table).class? c =
      if c = w.classes.size then
        some ⟨name, w.objects.size, w.objects.size + 1, shape, table w.classes.size⟩
      else w.class? c :=
  Array.getElem?_push

theorem find?_pushClass (name : Text) (shape : Shape)
    (table : ClassId → Option DispatchTable) (key : Text) :
    (w.pushClass name shape table).find? key =
      (w.find? key).or (if shape.key name == key then some w.classes.size else none) :=
  Array.findIdx?_push

theorem classes_logged (m : Message) : (w.logged m).classes = w.classes := by
  unfold logged
  split <;> rfl

theorem find?_some {key : Text} {c : ClassId} (found : w.find? key = some c) :
    ∃ k, w.class? c = some k ∧ k.key = key := by
  obtain ⟨below, holds, _⟩ := Array.findIdx?_eq_some_iff_getElem.mp found
  exact ⟨w.classes[c], Array.getElem?_eq_getElem below, eq_of_beq holds⟩

theorem lt_of_find? {key : Text} {c : ClassId} (found : w.find? key = some c) :
    c < w.classes.size := by
  obtain ⟨k, known, _⟩ := find?_some found
  exact lt_of_class? known

theorem find?_injective {key key' : Text} {c : ClassId} (found : w.find? key = some c)
    (found' : w.find? key' = some c) : key = key' := by
  obtain ⟨k, known, rfl⟩ := find?_some found
  obtain ⟨l, known', rfl⟩ := find?_some found'
  rw [known] at known'
  cases known'
  rfl

theorem table?_of_class? {c : ClassId} {k : Class} (known : w.class? c = some k) :
    w.table? c = k.table := by
  simp [table?, known]

theorem superclass?_of_class? {c : ClassId} {k : Class} (known : w.class? c = some k) :
    w.superclass? c = k.shape.superclass? := by
  simp [superclass?, known]

theorem class?_of_table? {c : ClassId} {t : DispatchTable} (has : w.table? c = some t) :
    ∃ k, w.class? c = some k ∧ k.table = some t := by
  simpa [table?, Option.bind_eq_some_iff] using has

end Classes

def Knows (w : World) (c : Option ClassId) : Prop := ∀ k, c = some k → k < w.classes.size

theorem knows_some {w : World} {c : ClassId} (below : c < w.classes.size) : w.Knows (some c) := by
  rintro _ ⟨rfl⟩
  exact below

/-- The class that a dispatch table belongs to, if it exists already. -/
def owner? (w : World) (t : DispatchTable) : Option ClassId :=
  match t.own.owner with
  | .known c => some c
  | .core which => w.find? which.name
  | .absent | .null => none

end World

end ObjectModel
