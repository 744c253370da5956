import ObjectModel.Proofs.Growth

/-!
The invariant of worlds. Every class can be found under its own key and is what one of the ways of
creating classes makes, after its superclass and its component; every object is what one of the ways
of allocating objects makes, up to the contents of arrays; and every array element has passed the
store check. Each change keeps the invariant, so it holds of all worlds that evolve from the empty
one.
-/

namespace ObjectModel

namespace World

/-- A class is made in one of the known ways, out of classes that stand before it. -/
structure Made (w : World) (c : ClassId) (k : Class) : Prop where
  creation : ∃ cause table, Creation w cause k.name k.shape table ∧ k.table = table c
  superclass : ∀ {s}, k.shape.superclass? = some s → s < c
  component : ∀ {d}, k.shape.component? = some d → d < c

/-- The object of a class and the string of its name belong to it. -/
def Linked (w : World) (c : ClassId) (k : Class) : Prop :=
  w.body? k.nameObject = some (.string k.name) ∧ w.body? k.object = some (.metaclass c)

/-- An object comes from one of the known allocations, or is the object of a class. -/
inductive Born (w : World) (id : ObjectId) (o : Obj) : Prop where
  | allocation {body : Body} (born : Allocation w o.table body) (kin : body.Kin o.body)
  | metaclass {c : ClassId} {k : Class} (known : w.class? c = some k) (own : k.object = id)
      (table : o.table = .metaclass) (body : o.body = .metaclass c)

/-- An element that is in order for an array of this layout. -/
structure Stored (w : World) (array : ObjectId) (type : ElementType) (checked : Bool)
    (e : Element) : Prop where
  typed : e.hasType type = true
  valid : e.handle.Valid w
  fits : checked = true → w.Fits array e.handle

def Filled (w : World) (id : ObjectId) : Body → Prop
  | .array cells => ∀ e ∈ cells.storage, w.Stored id cells.element cells.checked e
  | .grid cells => ∀ row ∈ cells.storage, ∀ e ∈ row, w.Stored id cells.element cells.checked e
  | _ => True

structure WellFormed (w : World) : Prop where
  keyed : ∀ {c k}, w.class? c = some k → w.find? k.key = some c
  made : ∀ {c k}, w.class? c = some k → w.Made c k
  linked : ∀ {c k}, w.class? c = some k → w.Linked c k
  born : ∀ {id o}, w.object? id = some o → w.Born id o
  filled : ∀ {id o}, w.object? id = some o → w.Filled id o.body

end World

section Persistence
variable {w w' : World}

theorem World.Made.mono {c : ClassId} {k : Class} (made : w.Made c k) (grown : Grows w w') :
    w'.Made c k := by
  obtain ⟨cause, table, creation, own⟩ := made.creation
  exact ⟨⟨cause, table, creation.mono grown, own⟩, made.superclass, made.component⟩

theorem World.Linked.mono {c : ClassId} {k : Class} (linked : w.Linked c k) (grown : Grows w w') :
    w'.Linked c k :=
  ⟨grown.body? linked.1 (by simp [Body.view]), grown.body? linked.2 (by simp [Body.view])⟩

theorem World.Born.mono {id : ObjectId} {o o' : Obj} (born : w.Born id o) (grown : Grows w w')
    (table : o'.table = o.table) (kin : o.body.Kin o'.body) : w'.Born id o' := by
  cases born with
  | allocation birth same =>
    rw [← table] at birth
    exact .allocation (birth.mono grown) (same.trans kin)
  | metaclass known own same body =>
    have plain : o.body.view ≠ .array ∧ o.body.view ≠ .grid := by simp [body, Body.view]
    have kept := (kin.eq_of_plain plain).trans body
    exact .metaclass (grown.class? known) own (table.trans same) kept

theorem World.Stored.mono {array : ObjectId} {type : ElementType} {checked : Bool} {e : Element}
    (stored : w.Stored array type checked e) (grown : Grows w w') :
    w'.Stored array type checked e :=
  ⟨stored.typed, stored.valid.mono grown, fun check => (stored.fits check).mono grown⟩

theorem World.Filled.mono {id : ObjectId} {body : Body} (filled : w.Filled id body)
    (grown : Grows w w') : w'.Filled id body := by
  cases body with
  | array cells => exact fun e member => (filled e member).mono grown
  | grid cells => exact fun row member e inside => (filled row member e inside).mono grown
  | _ => trivial

end Persistence

theorem Creation.superclass_lt {w : World} {cause : Option Event} {name : Text} {shape : Shape}
    {table : ClassId → Option DispatchTable} (made : Creation w cause name shape table)
    {s : ClassId} (above : shape.superclass? = some s) : s < w.classes.size := by
  have of_table {c : ClassId} {t : DispatchTable} (has : w.table? c = some t) :
      c < w.classes.size := by
    obtain ⟨k, known, _⟩ := World.class?_of_table? has
    exact World.lt_of_class? known
  cases made with
  | root => cases above
  | core which below found => cases above; exact World.lt_of_find? found
  | primitive p => cases above
  | kind k found inherited => cases above; exact of_table inherited
  | array rank known found => cases above; exact World.lt_of_find? found
  | definition name slots inherited => cases above; exact of_table inherited

theorem Creation.component_lt {w : World} {cause : Option Event} {name : Text} {shape : Shape}
    {table : ClassId → Option DispatchTable} (made : Creation w cause name shape table)
    {d : ClassId} (holds : shape.component? = some d) : d < w.classes.size := by
  cases made with
  | array rank known found => cases holds; exact World.lt_of_class? known
  | _ => cases holds

theorem World.stored_zero (w : World) (array : ObjectId) (type : ElementType) (checked : Bool) :
    w.Stored array type checked (.zero type) := by
  have null : (Element.zero type).handle.isNull = true := by cases type <;> rfl
  refine ⟨by cases type <;> rfl, ?_, fun _ => .null null⟩
  intro id v same
  rw [same] at null
  cases null

theorem Allocation.filled_new {w : World} {table : DispatchTable} {body : Body}
    (born : Allocation w table body) (id : ObjectId) : w.Filled id body := by
  cases born with
  | array e n =>
    intro x member
    rw [List.eq_of_mem_replicate member]
    exact w.stored_zero id e _
  | grid e n m =>
    intro row member x inside
    rw [List.eq_of_mem_replicate member] at inside
    rw [List.eq_of_mem_replicate inside]
    exact w.stored_zero id e _
  | member valid sound =>
    cases body with
    | array => exact sound.elim
    | grid => exact sound.elim
    | _ => trivial
  | _ => trivial

namespace World

/-- A change that leaves the classes alone keeps the invariant if every object is in order after it.
-/
theorem WellFormed.frame {w w' : World} (well : w.WellFormed) (grown : Grows w w')
    (classes : w'.classes = w.classes)
    (objects : ∀ {id o}, w'.object? id = some o → w'.Born id o ∧ w'.Filled id o.body) :
    w'.WellFormed := by
  have back {c : ClassId} {k : Class} (known : w'.class? c = some k) : w.class? c = some k := by
    rw [World.class?, classes] at known
    exact known
  exact {
    keyed := fun known => grown.find? (well.keyed (back known))
    made := fun known => (well.made (back known)).mono grown
    linked := fun known => (well.linked (back known)).mono grown
    born := fun found => (objects found).1
    filled := fun found => (objects found).2 }

theorem WellFormed.of_eq {w w' : World} (well : w.WellFormed) (classes : w'.classes = w.classes)
    (objects : w'.objects = w.objects) : w'.WellFormed := by
  have grown : Grows w w' := .of_eq classes objects
  refine well.frame grown classes ?_
  intro id o found
  rw [World.object?, objects] at found
  exact ⟨(well.born found).mono grown rfl (.same _), (well.filled found).mono grown⟩

theorem WellFormed.push {w : World} (well : w.WellFormed) {table : DispatchTable} {body : Body}
    (born : Allocation w table body) : (w.push table body).WellFormed := by
  have grown := Grows.push w table body
  refine well.frame grown rfl ?_
  intro id o found
  rw [object?_push] at found
  split at found
  · cases found
    refine ⟨.allocation (born.mono grown) (.same _), ?_⟩
    have empty := born.filled_new id
    exact empty.mono grown
  · exact ⟨(well.born found).mono grown rfl (.same _), (well.filled found).mono grown⟩

/-- Changing one object in place keeps the invariant if it keeps the object's kind and leaves its
elements in order. -/
theorem WellFormed.modifyObject {w : World} (well : w.WellFormed) {id : ObjectId} {f : Obj → Obj}
    (table : ∀ o, (f o).table = o.table) (kin : ∀ o : Obj, o.body.Kin (f o).body)
    (filled : ∀ {o}, w.object? id = some o → w.Filled id (f o).body) :
    (w.modifyObject id f).WellFormed := by
  have grown := Grows.modifyObject w id f table kin
  refine well.frame grown rfl ?_
  intro j o found
  rw [object?_modifyObject] at found
  split at found
  · rename_i same
    subst same
    obtain ⟨old, held, rfl⟩ := Option.map_eq_some_iff.mp found
    exact ⟨(well.born held).mono grown (table old) (kin old), (filled held).mono grown⟩
  · exact ⟨(well.born found).mono grown rfl (.same _), (well.filled found).mono grown⟩

theorem Filled.setElement {w : World} {id i : Nat} {o : Obj} {value : Element} {cells : Cells}
    (filled : w.Filled id o.body) (held : o.body = .array cells)
    (stored : w.Stored id cells.element cells.checked value) :
    w.Filled id (o.setElement i value).body := by
  rw [held] at filled
  simp only [Obj.setElement, held]
  intro e member
  rcases List.mem_or_eq_of_mem_set member with old | new
  · exact filled e old
  · rw [new]
    exact stored

theorem Filled.setGridElement {w : World} {id i j : Nat} {o : Obj} {value : Element} {cells : Grid}
    (filled : w.Filled id o.body) (held : o.body = .grid cells)
    (stored : w.Stored id cells.element cells.checked value) :
    w.Filled id (o.setGridElement i j value).body := by
  rw [held] at filled
  simp only [Obj.setGridElement, held]
  intro row member e inside
  obtain ⟨n, here⟩ := List.getElem?_of_mem member
  rw [List.getElem?_modify] at here
  obtain ⟨old, there, rfl⟩ := Option.map_eq_some_iff.mp here
  have listed := List.mem_of_getElem? there
  split at inside
  · rcases List.mem_or_eq_of_mem_set inside with kept | new
    · exact filled old listed e kept
    · rw [new]
      exact stored
  · exact filled old listed e inside

theorem filled_withoutStorage (w : World) (id : ObjectId) (o : Obj) :
    w.Filled id o.withoutStorage.body := by
  unfold Obj.withoutStorage
  split
  · intro e member
    cases member
  · intro row member
    cases member
  · rename_i notArray notGrid
    cases held : o.body with
    | array cells => exact absurd held (notArray cells)
    | grid cells => exact absurd held (notGrid cells)
    | _ => trivial

theorem WellFormed.pushClass {w : World} (well : w.WellFormed) {cause : Option Event} {name : Text}
    {shape : Shape} {table : ClassId → Option DispatchTable}
    (fresh : w.find? (shape.key name) = none) (made : Creation w cause name shape table) :
    (w.pushClass name shape table).WellFormed := by
  have grown := Grows.pushClass w name shape table
  have objects := w.object?_pushClass name shape table
  have newClass : (w.pushClass name shape table).class? w.classes.size =
      some ⟨name, w.objects.size, w.objects.size + 1, shape, table w.classes.size⟩ := by
    rw [class?_pushClass, if_pos rfl]
  -- A class of the new world is the one just made, or an old one.
  have split {c : ClassId} {k : Class} (known : (w.pushClass name shape table).class? c = some k) :
      (c = w.classes.size ∧
        k = ⟨name, w.objects.size, w.objects.size + 1, shape, table w.classes.size⟩) ∨
      w.class? c = some k := by
    rw [class?_pushClass] at known
    split at known
    · exact .inl ⟨‹_›, (Option.some.inj known).symm⟩
    · exact .inr known
  constructor
  · intro c k known
    rcases split known with ⟨rfl, rfl⟩ | old
    · rw [find?_pushClass]
      simp only [Class.key, fresh, Option.none_or, beq_self_eq_true, if_true]
    · exact grown.find? (well.keyed old)
  · intro c k known
    rcases split known with ⟨rfl, rfl⟩ | old
    · exact ⟨⟨cause, table, made.mono grown, rfl⟩, made.superclass_lt, made.component_lt⟩
    · exact (well.made old).mono grown
  · intro c k known
    rcases split known with ⟨rfl, rfl⟩ | old
    · have next : w.objects.size ≠ w.objects.size + 1 := Nat.ne_of_lt (Nat.lt_succ_self _)
      constructor
      · rw [World.body?, objects, if_neg next, if_pos rfl]
        rfl
      · rw [World.body?, objects, if_pos rfl]
        rfl
    · exact (well.linked old).mono grown
  · intro id o found
    rw [objects] at found
    split at found
    · rename_i here
      cases found
      exact .metaclass newClass here.symm rfl rfl
    · split at found
      · cases found
        exact .allocation (.string name) (.same _)
      · exact (well.born found).mono grown rfl (.same _)
  · intro id o found
    rw [objects] at found
    split at found
    · cases found
      trivial
    · split at found
      · cases found
        trivial
      · exact (well.filled found).mono grown

theorem wellFormed_empty (threshold : Option Severity) : WellFormed { threshold } :=
  ⟨fun known => (nomatch known), fun known => (nomatch known), fun known => (nomatch known),
    fun found => (nomatch found), fun found => (nomatch found)⟩

end World

theorem Change.wellFormed {P : Policy} {w w' : World} (change : Change P w w')
    (well : w.WellFormed) : w'.WellFormed := by
  cases change with
  | log m =>
    unfold World.logged
    split
    · exact well.of_eq rfl rfl
    · exact well
  | allocate born => exact well.push born
  | create fresh made _ => exact well.pushClass fresh made
  | store held _ typed valid fits _ =>
    refine well.modifyObject (Obj.setElement_table _ _) (Obj.setElement_kin _ _) ?_
    intro o found
    have body := World.body_of_object? held found
    exact (well.filled found).setElement body ⟨typed, valid, fits⟩
  | storeAt held _ _ typed valid fits _ =>
    refine well.modifyObject (Obj.setGridElement_table _ _ _) (Obj.setGridElement_kin _ _ _) ?_
    intro o found
    have body := World.body_of_object? held found
    exact (well.filled found).setGridElement body ⟨typed, valid, fits⟩
  | drop id _ =>
    exact well.modifyObject Obj.withoutStorage_table Obj.withoutStorage_kin
      fun {o} _ => w.filled_withoutStorage id o
  | release id _ =>
    exact well.modifyObject (fun _ => rfl) (fun _ => .same _) well.filled
  | record _ _ _ => exact well.of_eq rfl rfl
  | options _ _ => exact well.of_eq rfl rfl
  | threshold _ _ => exact well.of_eq rfl rfl

theorem Evolves.wellFormed {P : Policy} {w w' : World} (run : Evolves P w w')
    (well : w.WellFormed) : w'.WellFormed := by
  induction run with
  | refl => exact well
  | tail _ change ih => exact change.wellFormed ih

end ObjectModel
