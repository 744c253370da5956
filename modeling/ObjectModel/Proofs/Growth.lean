import ObjectModel.Proofs.Change

/-!
A world only grows: classes are added behind the ones that are there, and an object keeps its place,
its dispatch table and all of its body but the contents of an array. What a change relied on when it
was made therefore still holds in every later world.
-/

namespace ObjectModel

/-- Every object of `w` is in `w'` as it was. -/
def World.Still (w w' : World) : Prop := ∀ id o, w.object? id = some o → w'.object? id = some o

namespace World.Still

theorem refl (w : World) : w.Still w := fun _ _ found => found

theorem of_eq {w w' : World} (objects : w'.objects = w.objects) : w.Still w' := by
  intro id o found
  rw [World.object?, objects]
  exact found

theorem push (w : World) (table : DispatchTable) (body : Body) : w.Still (w.push table body) := by
  intro id o found
  rw [World.object?_push, if_neg (Nat.ne_of_lt (w.lt_of_object? found))]
  exact found

theorem pushClass (w : World) (name : Text) (shape : Shape)
    (table : ClassId → Option DispatchTable) : w.Still (w.pushClass name shape table) := by
  intro id o found
  have below := w.lt_of_object? found
  have notClass : id ≠ w.objects.size + 1 := Nat.ne_of_lt (Nat.lt_succ_of_lt below)
  have notName : id ≠ w.objects.size := Nat.ne_of_lt below
  rw [World.object?_pushClass, if_neg notClass, if_neg notName]
  exact found

theorem logged (w : World) (m : Message) : w.Still (w.logged m) := by
  unfold World.logged
  split
  · exact of_eq rfl
  · exact refl w

theorem body? {w w' : World} (still : w.Still w') {id : ObjectId} {body : Body}
    (has : w.body? id = some body) : w'.body? id = some body := by
  obtain ⟨o, found, rfl⟩ := Option.map_eq_some_iff.mp has
  rw [World.body?, still id o found]
  rfl

end World.Still

/-- The classes of `w` come first in `w'`, and its objects keep their places and kinds. -/
structure Grows (w w' : World) : Prop where
  classes : ∃ more, w'.classes = w.classes ++ more
  objects : ∀ {id o}, w.object? id = some o →
    ∃ o', w'.object? id = some o' ∧ o'.table = o.table ∧ o.body.Kin o'.body

namespace Grows

theorem refl (w : World) : Grows w w :=
  ⟨⟨#[], by simp⟩, fun {_ o} found => ⟨o, found, rfl, .same _⟩⟩

theorem trans {w₁ w₂ w₃ : World} (first : Grows w₁ w₂) (second : Grows w₂ w₃) : Grows w₁ w₃ := by
  constructor
  · obtain ⟨more, eq⟩ := first.classes
    obtain ⟨more', eq'⟩ := second.classes
    exact ⟨more ++ more', by rw [eq', eq, Array.append_assoc]⟩
  · intro id o found
    obtain ⟨o₂, found₂, table₂, kin₂⟩ := first.objects found
    obtain ⟨o₃, found₃, table₃, kin₃⟩ := second.objects found₂
    exact ⟨o₃, found₃, table₃.trans table₂, kin₂.trans kin₃⟩

theorem of_still {w w' : World} (classes : ∃ more, w'.classes = w.classes ++ more)
    (still : w.Still w') : Grows w w' :=
  ⟨classes, fun {id o} found => ⟨o, still id o found, rfl, .same _⟩⟩

theorem of_eq {w w' : World} (classes : w'.classes = w.classes) (objects : w'.objects = w.objects) :
    Grows w w' :=
  of_still ⟨#[], by simp [classes]⟩ (.of_eq objects)

theorem push (w : World) (table : DispatchTable) (body : Body) : Grows w (w.push table body) :=
  of_still ⟨#[], by simp [World.push]⟩ (.push w table body)

theorem pushClass (w : World) (name : Text) (shape : Shape)
    (table : ClassId → Option DispatchTable) : Grows w (w.pushClass name shape table) :=
  of_still ⟨_, Array.push_eq_append⟩ (.pushClass w name shape table)

theorem modifyObject (w : World) (id : ObjectId) (f : Obj → Obj)
    (table : ∀ o, (f o).table = o.table) (kin : ∀ o : Obj, o.body.Kin (f o).body) :
    Grows w (w.modifyObject id f) := by
  refine ⟨⟨#[], by simp [World.modifyObject]⟩, ?_⟩
  intro j o found
  rw [World.object?_modifyObject, found]
  split
  · exact ⟨f o, rfl, table o, kin o⟩
  · exact ⟨o, rfl, rfl, .same _⟩

theorem logged (w : World) (m : Message) : Grows w (w.logged m) :=
  of_still ⟨#[], by simp [World.classes_logged]⟩ (.logged w m)

end Grows

theorem Change.grows {P : Policy} {w w' : World} (change : Change P w w') : Grows w w' := by
  cases change with
  | log m => exact .logged w m
  | allocate => exact .push w _ _
  | create => exact .pushClass w _ _ _
  | store => exact .modifyObject w _ _ (Obj.setElement_table _ _) (Obj.setElement_kin _ _)
  | storeAt =>
    exact .modifyObject w _ _ (Obj.setGridElement_table _ _ _) (Obj.setGridElement_kin _ _ _)
  | drop => exact .modifyObject w _ _ Obj.withoutStorage_table Obj.withoutStorage_kin
  | release => exact .modifyObject w _ _ (fun _ => rfl) (fun _ => .same _)
  | record => exact .of_eq rfl rfl
  | options => exact .of_eq rfl rfl
  | threshold => exact .of_eq rfl rfl

theorem Evolves.grows {P : Policy} {w w' : World} (run : Evolves P w w') : Grows w w' := by
  induction run with
  | refl => exact .refl w
  | tail _ change ih => exact ih.trans change.grows

/-- A change that no program asked for leaves the objects as they are. -/
theorem Change.still {w w' : World} (change : Change .quiet w w') : w.Still w' := by
  cases change with
  | log m => exact .logged w m
  | allocate => exact .push w _ _
  | create => exact .pushClass w _ _ _
  | store _ _ _ _ _ allowed => obtain ⟨_, _, _, impossible⟩ := allowed; cases impossible
  | storeAt _ _ _ _ _ _ allowed => obtain ⟨_, _, _, impossible⟩ := allowed; cases impossible
  | drop _ allowed => obtain ⟨_, _, _, impossible⟩ := allowed; cases impossible
  | release _ allowed => obtain ⟨_, _, _, impossible⟩ := allowed; cases impossible
  | record => exact .of_eq rfl
  | options => exact .of_eq rfl
  | threshold => exact .of_eq rfl

theorem Evolves.still {w w' : World} (run : Evolves .quiet w w') : w.Still w' := by
  intro id o found
  induction run with
  | refl => exact found
  | tail _ change ih => exact change.still id o ih

section Persistence
variable {w w' : World}

namespace Grows

theorem size_le (grown : Grows w w') : w.classes.size ≤ w'.classes.size := by
  obtain ⟨more, eq⟩ := grown.classes
  rw [eq, Array.size_append]
  exact Nat.le_add_right _ _

theorem class? (grown : Grows w w') {c : ClassId} {k : Class} (known : w.class? c = some k) :
    w'.class? c = some k := by
  obtain ⟨more, eq⟩ := grown.classes
  rw [World.class?, eq, Array.getElem?_append_left (World.lt_of_class? known)]
  exact known

theorem absent (grown : Grows w w') {id : ObjectId} (missing : w'.object? id = none) :
    w.object? id = none := by
  rw [Option.eq_none_iff_forall_ne_some]
  intro o found
  obtain ⟨o', found', _⟩ := grown.objects found
  rw [missing] at found'
  cases found'

theorem find? (grown : Grows w w') {key : Text} {c : ClassId} (found : w.find? key = some c) :
    w'.find? key = some c := by
  obtain ⟨more, eq⟩ := grown.classes
  have found' : w.classes.findIdx? (fun k => k.key == key) = some c := found
  rw [World.find?, eq, Array.findIdx?_append, found']
  rfl

theorem table? (grown : Grows w w') {c : ClassId} {t : DispatchTable}
    (has : w.table? c = some t) : w'.table? c = some t := by
  obtain ⟨k, known, own⟩ := World.class?_of_table? has
  rw [World.table?_of_class? (grown.class? known), own]

theorem class?_eq (grown : Grows w w') {c : ClassId} (below : c < w.classes.size) :
    w'.class? c = w.class? c := by
  obtain ⟨k, known⟩ := World.class?_of_lt below
  rw [known, grown.class? known]

theorem owner? (grown : Grows w w') {t : DispatchTable} {c : ClassId}
    (resolved : w.owner? t = some c) : w'.owner? t = some c := by
  unfold World.owner? at resolved ⊢
  split at resolved
  · exact resolved
  · exact grown.find? resolved
  · contradiction
  · contradiction

theorem classOf? (grown : Grows w w') {id : ObjectId} {c : ClassId}
    (has : w.classOf? id = some c) : w'.classOf? id = some c := by
  obtain ⟨o, found, resolved⟩ := Option.bind_eq_some_iff.mp has
  obtain ⟨o', found', table, _⟩ := grown.objects found
  refine Option.bind_eq_some_iff.mpr ⟨o', found', ?_⟩
  rw [table]
  exact grown.owner? resolved

theorem kin (grown : Grows w w') {id : ObjectId} {body : Body} (has : w.body? id = some body) :
    ∃ body', w'.body? id = some body' ∧ body.Kin body' := by
  obtain ⟨o, found, rfl⟩ := Option.map_eq_some_iff.mp has
  obtain ⟨o', found', _, kin⟩ := grown.objects found
  exact ⟨o'.body, World.body?_of_object? found', kin⟩

/-- A body without array contents stays. -/
theorem body? (grown : Grows w w') {id : ObjectId} {body : Body} (has : w.body? id = some body)
    (plain : body.view ≠ .array ∧ body.view ≠ .grid) : w'.body? id = some body := by
  obtain ⟨body', has', kin⟩ := grown.kin has
  rw [has', kin.eq_of_plain plain]

theorem element? (grown : Grows w w') {id : ObjectId} {e : ElementType}
    (holds : w.element? id = some e) : w'.element? id = some e := by
  obtain ⟨f, formed, rfl⟩ := Option.map_eq_some_iff.mp holds
  obtain ⟨body, has, formed⟩ := Option.bind_eq_some_iff.mp formed
  obtain ⟨body', has', kin⟩ := grown.kin has
  rw [World.element?, has', Option.bind_some, kin.format?_eq, formed, Option.map_some]

theorem superclasses_eq (grown : Grows w w') (c : ClassId) (below : c < w.classes.size) :
    w'.superclasses c = w.superclasses c := by
  induction c using Nat.strongRecOn with
  | ind c ih =>
    have same : w'.superclass? c = w.superclass? c := by
      simp only [World.superclass?, grown.class?_eq below]
    rw [World.superclasses, World.superclasses, same]
    cases w.superclass? c with
    | none => rfl
    | some s =>
      by_cases earlier : s < c
      · simp only [if_pos earlier, ih s earlier (Nat.lt_trans earlier below)]
      · simp only [if_neg earlier]

theorem isSubclass (grown : Grows w w') {c d : ClassId} (below : w.isSubclass c d = true) :
    w'.isSubclass c d = true := by
  by_cases known : c < w.classes.size
  · rw [World.isSubclass_eq, grown.superclasses_eq c known, ← World.isSubclass_eq]
    exact below
  · -- A class that does not exist has no superclasses, so it can only be `d` itself.
    have missing : w.class? c = none := Array.getElem?_eq_none (Nat.le_of_not_lt known)
    have alone : w.superclasses c = [] := by
      rw [World.superclasses, World.superclass?, missing]
      rfl
    rw [World.isSubclass_eq, alone] at below
    rw [World.isSubclass_eq]
    simp only [List.contains_nil, Bool.or_false] at below
    rw [below, Bool.true_or]

end Grows

theorem Handle.Valid.mono {h : Handle} (valid : h.Valid w) (grown : Grows w w') : h.Valid w' := by
  intro id v same
  obtain ⟨o, found, view⟩ := valid id v same
  obtain ⟨o', found', _, kin⟩ := grown.objects found
  exact ⟨o', found', by rw [kin.view_eq]; exact view⟩

theorem DispatchTable.Valid.mono {t : DispatchTable} (valid : t.Valid w) (grown : Grows w w') :
    t.Valid w' :=
  fun level member c own => Nat.lt_of_lt_of_le (valid level member c own) grown.size_le

theorem Body.InOrder.mono {body : Body} (sound : body.InOrder w) (grown : Grows w w') :
    body.InOrder w' := by
  have strings {color : Option ObjectId} (ok : ∀ s ∈ color, ∃ t, w.body? s = some (.string t)) :
      ∀ s ∈ color, ∃ t, w'.body? s = some (.string t) := by
    intro s member
    obtain ⟨t, has⟩ := ok s member
    exact ⟨t, grown.body? has (by simp [Body.view])⟩
  cases body with
  | colorPoint => exact strings sound
  | alphaPoint => exact strings sound
  | list =>
    intro l member
    obtain ⟨item, rest, has⟩ := sound l member
    exact ⟨item, rest, grown.body? has (by simp [Body.view])⟩
  | _ => exact sound

theorem Creation.mono {cause : Option Event} {name : Text} {shape : Shape}
    {table : ClassId → Option DispatchTable} (made : Creation w cause name shape table)
    (grown : Grows w w') : Creation w' cause name shape table := by
  cases made with
  | root => exact .root
  | core which below above => exact .core which below (grown.find? above)
  | primitive p => exact .primitive p
  | kind k above inherited => exact .kind k (grown.find? above) (grown.table? inherited)
  | array rank known above => exact .array rank (grown.class? known) (grown.find? above)
  | definition name slots inherited => exact .definition name slots (grown.table? inherited)

theorem Allocation.mono {table : DispatchTable} {body : Body} (born : Allocation w table body)
    (grown : Grows w w') : Allocation w' table body := by
  cases born with
  | plain => exact .plain
  | string content => exact .string content
  | exception k message found own =>
    exact .exception k message (grown.find? found) (grown.table? own)
  | member valid sound => exact .member (valid.mono grown) (sound.mono grown)
  | array e n fit known found own =>
    exact .array e n fit (grown.class? known) (grown.find? found) (grown.table? own)
  | grid e n m fit known found own =>
    exact .grid e n m fit (grown.class? known) (grown.find? found) (grown.table? own)

theorem World.Fits.mono {array : ObjectId} {h : Handle} (fits : w.Fits array h)
    (grown : Grows w w') : w'.Fits array h := by
  cases fits with
  | null null => exact .null null
  | member arrays known holds element below =>
    exact .member (grown.classOf? arrays) (grown.class? known) holds (grown.classOf? element)
      (grown.isSubclass below)

end Persistence

end ObjectModel
