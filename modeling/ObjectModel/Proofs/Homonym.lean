import ObjectModel.Proofs.Ancestry

/-!
Two classes with one name. No descriptor tells them apart: of any two such classes, either one may
be the superclass of a further class, with the same slots in the same order, and either of two array
classes the component of a further array class, and the snapshot is the same. So a snapshot
determines the hierarchy up to such classes and no further.
-/

namespace ObjectModel

namespace DispatchTable

theorem extendLayout_of_subset (names : List Text) {layout : List Text} (has : names ⊆ layout) :
    extendLayout layout names = layout := by
  induction names with
  | nil => rfl
  | cons name rest ih =>
    obtain ⟨first, others⟩ := List.cons_subset.mp has
    change extendLayout (if layout.contains name then layout else layout ++ [name]) rest = layout
    rw [if_pos (List.contains_iff_mem.mpr first)]
    exact ih others

theorem extendLayout_of_disjoint (names : List Text) {layout : List Text}
    (nodup : (layout ++ names).Nodup) : extendLayout layout names = layout ++ names := by
  induction names generalizing layout with
  | nil => exact (List.append_nil layout).symm
  | cons name rest ih =>
    have new : name ∉ layout := by
      intro member
      exact (List.nodup_append.mp nodup).2.2 name member name List.mem_cons_self rfl
    change extendLayout (if layout.contains name then layout else layout ++ [name]) rest = _
    rw [if_neg (fun member => new (List.contains_iff_mem.mp member))]
    rw [List.append_cons] at nodup
    rw [List.append_cons layout name rest]
    exact ih nodup

/-- Where one layout begins with the other it does not matter which one is extended. -/
theorem extendLayout_comm {layout names : List Text} (begins : layout <+: names)
    (nodup : names.Nodup) : extendLayout layout names = extendLayout names layout := by
  obtain ⟨more, rfl⟩ := begins
  have known : extendLayout layout layout = layout :=
    extendLayout_of_subset layout (List.Subset.refl layout)
  calc extendLayout layout (layout ++ more)
      = extendLayout (extendLayout layout layout) more := List.foldl_append
    _ = layout ++ more := by rw [known, extendLayout_of_disjoint more nodup]
    _ = extendLayout (layout ++ more) layout :=
      (extendLayout_of_subset layout (List.subset_append_left layout more)).symm

end DispatchTable

namespace World

section Homonyms
variable {w w' : World} {c d : ClassId} {k l : Class}

theorem Homonyms.symm (named : w.Homonyms c d) : w.Homonyms d c := by
  obtain ⟨different, k, l, known, known', name⟩ := named
  exact ⟨different.symm, l, k, known', known, name.symm⟩

theorem array_of_grid (grid : k.shape.dimensions = 2) : ∃ e s, k.shape = .array .two e s := by
  cases shape : k.shape with
  | array rank e s =>
    cases rank with
    | one =>
      rw [shape] at grid
      cases grid
    | two => exact ⟨e, s, rfl⟩
  | _ =>
    rw [shape] at grid
    cases grid

theorem WellFormed.homonym_not_plain (well : w.WellFormed) (known : w.class? c = some k)
    (named : w.Homonyms c d) : ¬ k.name.IsPlain := by
  have grid {c : ClassId} {k : Class} (known : w.class? c = some k)
      (two : k.shape.dimensions = 2) : ¬ k.name.IsPlain := by
    obtain ⟨e, s, shape⟩ := array_of_grid two
    obtain ⟨m, -, name, -⟩ := (well.made known).array_name shape
    rw [name]
    exact m.arrayName_not_plain .two
  obtain ⟨-, k', l, there, there', name⟩ := id named
  rw [known] at there
  cases there
  have apart := well.homonyms_apart known there' named
  by_cases two : k.shape.dimensions = 2
  · exact grid known two
  · rw [name]
    exact grid there' (by_contra fun other => two (apart.mpr other))

/-- A class that shares its name is no primitive type. -/
theorem WellFormed.homonym_table (well : w.WellFormed) (known : w.class? c = some k)
    (named : w.Homonyms c d) : ∃ t, k.table = some t := by
  have made := well.made known
  apply Option.ne_none_iff_exists'.mp
  intro missing
  obtain ⟨p, name⟩ := made.primitive_name (made.table_none_iff.mp missing)
  apply well.homonym_not_plain known named
  rw [name]
  exact p.name_plain

theorem WellFormed.homonym_layouts (well : w.WellFormed) (known : w.class? c = some k)
    (known' : w.class? d = some l) (named : w.Homonyms c d) {t u : DispatchTable}
    (own : k.table = some t) (own' : l.table = some u) :
    DispatchTable.extendLayout t.slots u.slots = DispatchTable.extendLayout u.slots t.slots := by
  -- The two-dimensional class has the layout of plain objects, with which all layouts begin.
  have begins {c d : ClassId} {k l : Class} {t u : DispatchTable} (known : w.class? c = some k)
      (known' : w.class? d = some l) (own : k.table = some t) (own' : l.table = some u)
      (two : k.shape.dimensions = 2) : t.slots <+: u.slots := by
    obtain ⟨e, s, shape⟩ := array_of_grid two
    rw [(well.made known).array_table shape] at own
    cases own
    apply well.object_slots_prefix d
    rw [table?_of_class? known', own']
  have apart := well.homonyms_apart known known' named
  by_cases two : k.shape.dimensions = 2
  · exact DispatchTable.extendLayout_comm (begins known known' own own' two) u.slots_nodup
  · have two' : l.shape.dimensions = 2 := by_contra fun other => two (apart.mpr other)
    exact (DispatchTable.extendLayout_comm (begins known' known own' own two') t.slots_nodup).symm

end Homonyms

section Capture
variable {w w' : World}

theorem class?_pushed (w : World) (name : Text) (shape : Shape)
    (table : ClassId → Option DispatchTable) (m : Message) :
    ((w.pushClass name shape table).logged m).class? w.classes.size =
      some ⟨name, w.objects.size, w.objects.size + 1, shape, table w.classes.size⟩ := by
  rw [class?, classes_logged, ← class?, class?_pushClass, if_pos rfl]

theorem nameOf_grown (grown : Grows w w') {c : Option ClassId} (inside : w.Knows c) :
    w'.nameOf c = w.nameOf c := by
  cases c with
  | none => rfl
  | some c =>
    obtain ⟨k, known⟩ := class?_of_lt (inside c rfl)
    rw [nameOf_some known, nameOf_some (grown.class? known)]

theorem WellFormed.describe_grown (well : w.WellFormed) (grown : Grows w w') {c : ClassId}
    {k : Class} (known : w.class? c = some k) : w'.describe k = w.describe k := by
  have made := well.made known
  have below := lt_of_class? known
  have superclass : w'.nameOf k.shape.superclass? = w.nameOf k.shape.superclass? :=
    nameOf_grown grown fun s above => Nat.lt_trans (made.superclass above) below
  have component : w'.nameOf k.shape.component? = w.nameOf k.shape.component? :=
    nameOf_grown grown fun d holds => Nat.lt_trans (made.component holds) below
  rw [describe, describe, superclass, component]

/-- The descriptor of a class that is about to be created. -/
def describeNew (w : World) (name : Text) (shape : Shape) (table : Option DispatchTable) :
    Descriptor where
  name
  superclass := w.nameOf shape.superclass?
  component := w.nameOf shape.component?
  primitive := shape.isPrimitive
  dimensions := Int64.ofNat shape.dimensions
  slots := table.map DispatchTable.slots

theorem describeNew_derived (w : World) (name : Text) (c s : ClassId) (t : DispatchTable)
    (slots : List Text) :
    w.describeNew name (.derived s) (some (.extend (some t) ⟨.known c, none, slots⟩)) =
      { name, superclass := w.nameOf (some s),
        slots := some (DispatchTable.extendLayout t.slots slots) } :=
  rfl

theorem describeNew_array (w : World) (name : Text) (rank : Rank) (c d s : ClassId) :
    w.describeNew name (.array rank d s) (Action.arrayTable c) =
      { name, superclass := w.nameOf (some s), component := w.nameOf (some d),
        dimensions := Int64.ofNat rank.toNat, slots := some DispatchTable.object.slots } :=
  rfl

/-- Creating a class adds its descriptor to the snapshot. -/
theorem WellFormed.capture_pushClass (well : w.WellFormed) {cause : Option Event} {name : Text}
    {shape : Shape} {table : ClassId → Option DispatchTable}
    (made : Creation w cause name shape table) (m : Message) :
    Snapshot.capture ((w.pushClass name shape table).logged m) =
      ⟨Snapshot.currentVersion, some (w.classes.toList.map w.describe ++
        [w.describeNew name shape (table w.classes.size)])⟩ := by
  have grown : Grows w ((w.pushClass name shape table).logged m) :=
    (Grows.pushClass w name shape table).trans (.logged _ m)
  have listed : ((w.pushClass name shape table).logged m).classes.toList = w.classes.toList ++
      [⟨name, w.objects.size, w.objects.size + 1, shape, table w.classes.size⟩] := by
    rw [classes_logged]
    exact Array.toList_push
  have old : ∀ k ∈ w.classes.toList,
      ((w.pushClass name shape table).logged m).describe k = w.describe k := by
    intro k member
    obtain ⟨c, known⟩ := Array.getElem?_of_mem (Array.mem_toList_iff.mp member)
    exact well.describe_grown grown known
  have superclass := nameOf_grown grown fun _ => made.superclass_lt
  have component := nameOf_grown grown fun _ => made.component_lt
  simp only [Snapshot.capture, listed, List.map_append, List.map_congr_left old, List.map_cons,
    List.map_nil, describe, describeNew, superclass, component]

end Capture

end World

namespace Action

section Runs
variable {w w₁ : World} {a b : ClassId} {k l : Class}

/-- A definition under a free name, below a class with a dispatch table, makes the class. -/
theorem defineClass_new {name : Text} {t : DispatchTable} (known : w.class? a = some k)
    (inherited : k.table = some t) (absent : w.find? name = none) (slots : List Text) :
    (defineClass name (some a) slots).run w = (.ok w.classes.size,
      (w.pushClass name (.derived a) fun c =>
        some (.extend (some t) ⟨.known c, none, slots⟩)).logged
        ⟨.debug, .runtime, "defined class " ++ name⟩) := by
  have registered : (registerDefined name a t slots).run w = _ := register_fresh absent
  apply defineClass_registered rfl known inherited registered
  exact World.superclass?_of_class? (w.class?_pushed _ _ _ _)

def superclassFor : Rank → ClassId → Class → Action ClassId
  | .one => arraySuperclass
  | .two => gridSuperclass

theorem superclassFor_ends {P : Policy} {E : Fault → World → Prop} (rank : Rank)
    (known : w.class? a = some k) :
    Ends P (superclassFor rank a k) w
      (fun s w' => w'.find? (k.arraySuperclassKey rank) = some s ∧ w.Adds rootKeys w') E := by
  cases rank with
  | one => exact arraySuperclass_ends known
  | two => exact gridSuperclass_ends known

/-- Arrays of arrays have the same superclass whatever they are arrays of. -/
theorem superclassFor_array (well : w.WellFormed) (rank : Rank) (known : w.class? a = some k)
    (known' : w.class? b = some l) {e e' : ClassId} (array : k.shape.component? = some e)
    (array' : l.shape.component? = some e') :
    (superclassFor rank a k).run w = (superclassFor rank b l).run w := by
  have high {w' : World} (well' : w'.WellFormed) (grown : Grows w w') {r c d : ClassId} {m : Class}
      (root : w'.find? (Core.name .object) = some r) (there : w.class? c = some m)
      (holds : m.shape.component? = some d) : (m.shape.isPrimitive || c == r) = false := by
    obtain ⟨rank', s, shape⟩ := Shape.eq_array_of_component holds
    have other : c ≠ r := by
      intro same
      have top := (well'.eq_root_iff root (grown.class? there)).mp same
      rw [shape] at top
      cases top
    simp [shape, Shape.isPrimitive, other]
  cases rank with
  | one =>
    obtain ⟨r, w', ran, run, root, -⟩ := (objectClass_ends (P := .quiet)).returns well
    have well' := run.wellFormed well
    simp only [superclassFor, arraySuperclass, run_bind, ran, high well' run.grows root known array,
      high well' run.grows root known' array']
  | two =>
    obtain ⟨rows, w', ran, run, -⟩ := (objectArrayClass_ends (P := .quiet)).returns well
    have well' := run.wellFormed well
    obtain ⟨r, w'', ran', run', root, -⟩ := (objectClass_ends (P := .quiet)).returns well'
    have well'' := run'.wellFormed well'
    have grown := run.grows.trans run'.grows
    simp only [superclassFor, gridSuperclass, run_bind, ran, ran',
      high well'' grown root known array, high well'' grown root known' array']

theorem arraysOf_new {rank : Rank} {s : ClassId} (known : w.class? a = some k)
    (absent : w.find? (k.arrayKey rank) = none)
    (above : (superclassFor rank a k).run w = (.ok s, w₁))
    (absent₁ : w₁.find? (k.arrayKey rank) = none) :
    (arraysOf rank a).run w = (.ok w₁.classes.size,
      (w₁.pushClass (k.arrayName rank) (.array rank a s) arrayTable).logged
        ⟨.debug, .runtime, "defined class " ++ k.arrayName rank⟩) := by
  have registered : (registerArray rank a s k).run w₁ = _ := register_fresh absent₁
  have found : arraysOf rank a = findArrayClass rank (superclassFor rank) a := by
    cases rank <;> rfl
  rw [found, findArrayClass, run_bind, run_classOf known]
  dsimp only
  rw [run_get_bind, absent]
  dsimp only
  rw [run_bind, above]
  exact registered

/-- Finding the superclass of arrays of arrays makes no class of arrays of arrays. -/
theorem superclassFor_returns (well : w.WellFormed) (rank : Rank) (known : w.class? a = some k)
    {e : ClassId} (array : k.shape.component? = some e)
    (absent : w.find? (k.arrayKey rank) = none) :
    ∃ s w₁, (superclassFor rank a k).run w = (.ok s, w₁) ∧ Evolves .quiet w w₁ ∧
      w₁.find? rank.rootKey = some s ∧ w₁.find? (k.arrayKey rank) = none := by
  obtain ⟨s, w₁, ran, run, above, adds⟩ :=
    (superclassFor_ends (P := .quiet) rank known).returns well
  rw [Class.arraySuperclassKey_array array] at above
  refine ⟨s, w₁, ran, run, above, ?_⟩
  rw [Option.eq_none_iff_forall_ne_some]
  intro c found
  rcases adds _ c found with before | rooted
  · rw [absent] at before
    cases before
  · exact (well.made known).arrayKey_unrooted array rank rooted

end Runs

end Action

namespace Script

def ClassExpr.arrays : Rank → ClassExpr → ClassExpr
  | .one, e => .array e
  | .two, e => .grid e

section Steps
variable {s : Session}

theorem Session.run_of_ok {op : Op} {v : Value} {s' : Session}
    (ran : (Eval.perform op).run s = (.ok (.ok v), s')) :
    (s.run (.perform op none none)).2 = s' := by
  have performed : s.performOp op none = (.reply (.ok v), s') := by
    rw [performOp, ran]
    rfl
  simp only [run, runInner, performed]

theorem Eval.ofClass_run (c : Option ClassId) (s : Session) :
    ∃ h, (Eval.ofClass c).run s = (.ok (.ok (.handle h)), s) := by
  have handle : ∃ h, (Eval.classHandle c).run s = (.ok h, s) := by
    have read : Eval.world.run s = (.ok s.world, s) := rfl
    unfold Eval.classHandle
    rw [run_bind, read]
    dsimp only
    cases c.bind s.world.class? with
    | none => exact ⟨_, rfl⟩
    | some k => exact ⟨_, rfl⟩
  obtain ⟨h, ran⟩ := handle
  refine ⟨h, ?_⟩
  rw [Eval.ofClass, run_bind, ran]
  rfl

/-- A step that defines a class below a registered one. -/
theorem Session.run_define {key name : Text} {slots : List Text} {c : ClassId} {w : World}
    (ran : (Action.defineClass name (s.world.find? key) slots).run s.world = (.ok c, w)) :
    (s.run (.perform (.classes (.define name (.registered key) slots)) none none)).2 =
      { s with world := w } := by
  obtain ⟨h, shown⟩ := Eval.ofClass_run (some c) { s with world := w }
  apply run_of_ok (v := .handle h)
  change (Eval.act (Action.defineClass name (s.world.find? key) slots) >>= fun c =>
    Eval.ofClass (some c)).run s = _
  rw [run_bind, Eval.run_act, ran]
  exact shown

/-- A step that asks for the arrays of a registered class. -/
theorem Session.run_arrays {key : Text} {rank : Rank} {a c : ClassId} {w : World}
    (found : s.world.find? key = some a)
    (ran : (Action.arraysOf rank a).run s.world = (.ok c, w)) :
    (s.run (.perform (.classes (.value (.arrays rank (.registered key)))) none none)).2 =
      { s with world := w } := by
  obtain ⟨h, shown⟩ := Eval.ofClass_run (some c) { s with world := w }
  apply run_of_ok (v := .handle h)
  have evaluated : (Eval.classOperand (.arrays rank (.registered key))).run s =
      (.ok (some c), { s with world := w }) := by
    have asked (f : ClassId → Action ClassId) (ran : (f a).run s.world = (.ok c, w)) :
        (some <$> Eval.act (do f (← Action.classOperand (s.world.find? key))) :
          Eval (Option ClassId)).run s = (.ok (some c), { s with world := w }) := by
      have called : (do f (← Action.classOperand (some a)) : Action ClassId).run s.world =
          (.ok c, w) := ran
      rw [found, map_eq_pure_bind, run_bind, Eval.run_act, called]
      rfl
    cases rank with
    | one => exact asked Action.arrayClass ran
    | two => exact asked Action.gridClass ran
  change (Eval.classOperand (.arrays rank (.registered key)) >>= Eval.ofClass).run s = _
  rw [run_bind, evaluated]
  exact shown

/-- Two classes with one name are confused as superclasses. The slots of each are given to the class
below the other, so that the layouts agree. -/
theorem Session.Valid.define_confuses (valid : s.Valid) {a b : ClassId}
    (named : s.world.Homonyms a b) {name : Text} (absent : s.world.find? name = none) :
    ∃ one other : Step,
      Snapshot.capture (s.run one).2.world = Snapshot.capture (s.run other).2.world ∧
      (s.run one).2.world.superclass? s.world.classes.size = some a ∧
      (s.run other).2.world.superclass? s.world.classes.size = some b := by
  have well := valid.well
  obtain ⟨-, k, l, known, known', title⟩ := id named
  obtain ⟨t, own⟩ := well.homonym_table known named
  obtain ⟨u, own'⟩ := well.homonym_table known' named.symm
  have inherited : s.world.table? a = some t := by rw [World.table?_of_class? known, own]
  have inherited' : s.world.table? b = some u := by rw [World.table?_of_class? known', own']
  have one := Action.defineClass_new known own absent u.slots
  have other := Action.defineClass_new known' own' absent t.slots
  rw [← well.keyed known] at one
  rw [← well.keyed known'] at other
  refine ⟨.perform (.classes (.define name (.registered k.key) u.slots)) none none,
    .perform (.classes (.define name (.registered l.key) t.slots)) none none, ?_⟩
  rw [run_define one, run_define other]
  refine ⟨?_, World.superclass?_of_class? (World.class?_pushed _ _ _ _ _),
    World.superclass?_of_class? (World.class?_pushed _ _ _ _ _)⟩
  have layouts := well.homonym_layouts known known' named own own'
  have superclass : s.world.nameOf (some a) = s.world.nameOf (some b) := by
    rw [World.nameOf_some known, World.nameOf_some known', title]
  rw [well.capture_pushClass (.definition name u.slots inherited),
    well.capture_pushClass (.definition name t.slots inherited')]
  rw [World.describeNew_derived, World.describeNew_derived, superclass, layouts]

/-- Two array classes with one name are confused as components, unless the class of arrays of that
name exists already. -/
theorem Session.Valid.arrays_confuse (valid : s.Valid) {a b : ClassId} {k : Class}
    (named : s.world.Homonyms a b) (known : s.world.class? a = some k)
    (array : (s.world.component? a).isSome) (array' : (s.world.component? b).isSome) {rank : Rank}
    (absent : s.world.find? (k.arrayKey rank) = none) :
    ∃ (one other : Step) (n : ClassId),
      Snapshot.capture (s.run one).2.world = Snapshot.capture (s.run other).2.world ∧
      (s.run one).2.world.component? n = some a ∧ (s.run other).2.world.component? n = some b := by
  have well := valid.well
  obtain ⟨-, k', l, there, known', title⟩ := named
  rw [known] at there
  cases there
  rw [World.component?_of_class? known, Option.isSome_iff_exists] at array
  rw [World.component?_of_class? known', Option.isSome_iff_exists] at array'
  obtain ⟨e, holds⟩ := array
  obtain ⟨e', holds'⟩ := array'
  have arrayName : l.arrayName rank = k.arrayName rank := by
    obtain ⟨_, _, shape⟩ := Shape.eq_array_of_component holds
    obtain ⟨_, _, shape'⟩ := Shape.eq_array_of_component holds'
    rw [Class.arrayName, Class.arrayName, Class.descriptor_of_array shape,
      Class.descriptor_of_array shape', title]
  have arrayKey : l.arrayKey rank = k.arrayKey rank := by
    rw [Class.arrayKey, Class.arrayKey, arrayName]
  obtain ⟨t, w₁, ran, run, above, absent₁⟩ :=
    Action.superclassFor_returns well rank known holds absent
  have ran' := ran
  rw [Action.superclassFor_array well rank known known' holds holds'] at ran'
  have one := Action.arraysOf_new known absent ran absent₁
  rw [← arrayKey] at absent absent₁
  have other := Action.arraysOf_new known' absent ran' absent₁
  refine ⟨.perform (.classes (.value (.arrays rank (.registered k.key)))) none none,
    .perform (.classes (.value (.arrays rank (.registered l.key)))) none none,
    w₁.classes.size, ?_⟩
  rw [run_arrays (well.keyed known) one, run_arrays (well.keyed known') other]
  refine ⟨?_, World.component?_of_class? (World.class?_pushed _ _ _ _ _),
    World.component?_of_class? (World.class?_pushed _ _ _ _ _)⟩
  have well₁ := run.wellFormed well
  have known₁ := run.grows.class? known
  have known₁' := run.grows.class? known'
  have component : w₁.nameOf (some a) = w₁.nameOf (some b) := by
    rw [World.nameOf_some known₁, World.nameOf_some known₁', title]
  have above' : w₁.find? (l.arraySuperclassKey rank) = some t := by
    rw [Class.arraySuperclassKey_array holds', above]
  rw [← Class.arraySuperclassKey_array holds] at above
  rw [well₁.capture_pushClass (.array rank known₁ above),
    well₁.capture_pushClass (.array rank known₁' above'), World.describeNew_array,
    World.describeNew_array, component, arrayName]

end Steps

/-- In every session that a script reaches, the snapshot determines the hierarchy up to classes that
share a name, of which exactly one is two-dimensional. It determines no more: of any two classes
that share a name, either one may be the superclass of a further class without a difference in the
snapshot, and either of two array classes the component of a further array class. -/
theorem Session.Reachable.ancestry_of_capture {s : Session} (reached : s.Reachable) :
    (∀ s' : Session, s'.Reachable → Snapshot.capture s'.world = Snapshot.capture s.world →
      s.world.SameHierarchy s'.world) ∧
    (∀ a b k l, s.world.class? a = some k → s.world.class? b = some l → s.world.Homonyms a b →
      (k.shape.dimensions = 2 ↔ l.shape.dimensions ≠ 2)) ∧
    (∀ a b name, s.world.Homonyms a b → s.world.find? name = none → ∃ one other : Step,
      Snapshot.capture (s.run one).2.world = Snapshot.capture (s.run other).2.world ∧
      (s.run one).2.world.superclass? s.world.classes.size = some a ∧
      (s.run other).2.world.superclass? s.world.classes.size = some b) ∧
    ∀ a b k rank, s.world.Homonyms a b → s.world.class? a = some k →
      (s.world.component? a).isSome → (s.world.component? b).isSome →
      s.world.find? (k.arrayKey rank) = none → ∃ (one other : Step) (n : ClassId),
        Snapshot.capture (s.run one).2.world = Snapshot.capture (s.run other).2.world ∧
        (s.run one).2.world.component? n = some a ∧
        (s.run other).2.world.component? n = some b := by
  have valid := reached.valid
  refine ⟨?_, ?_, ?_, ?_⟩
  · intro s' reached' same
    exact Snapshot.Alike.sameHierarchy ⟨valid.well, reached'.valid.well, same⟩
  · intro a b k l known known' named
    exact valid.well.homonyms_apart known known' named
  · intro a b name named absent
    exact valid.define_confuses named absent
  · intro a b k rank named known array array' absent
    exact valid.arrays_confuse named known array array' absent

/-- A script that makes arrays of arrays and two-dimensional arrays of the same elements. -/
def rowsAndGrid : List Step :=
  [.perform (.classes (.value (.array (.array (.named (.primitive .int)))))) none none,
    .perform (.classes (.value (.grid (.named (.primitive .int))))) none none]

theorem ancestry_of_capture_rowsAndGrid :
    let s := ((Session.withVerbosity {} 0).runAll rowsAndGrid).2
    s.Reachable ∧ s.world.Homonyms 4 5 ∧ ∃ one other : Step,
      (s.run one).2.Reachable ∧ (s.run other).2.Reachable ∧
      Snapshot.capture (s.run other).2.world = Snapshot.capture (s.run one).2.world ∧
      (s.run one).2.world.superclass? 6 = some 4 ∧ (s.run other).2.world.superclass? 6 = some 5 ∧
      (s.run one).2.world.SameHierarchy (s.run other).2.world := by
  intro s
  have reached : s.Reachable := (Session.Reachable.start {} 0).runAll rowsAndGrid
  have names : (s.world.class? 4).map Class.name = some "[[I" ∧
      (s.world.class? 5).map Class.name = some "[[I" := by decide +kernel
  obtain ⟨k, known, name⟩ := Option.map_eq_some_iff.mp names.1
  obtain ⟨l, known', name'⟩ := Option.map_eq_some_iff.mp names.2
  have named : s.world.Homonyms 4 5 := ⟨by decide, k, l, known, known', name.trans name'.symm⟩
  have free : s.world.find? "Matrix" = none := by decide +kernel
  have size : s.world.classes.size = 6 := by decide +kernel
  obtain ⟨one, other, same, below, below'⟩ :=
    reached.ancestry_of_capture.2.2.1 4 5 "Matrix" named free
  rw [size] at below below'
  exact ⟨reached, named, one, other, reached.step one, reached.step other, same.symm, below, below',
    (reached.step one).ancestry_of_capture.1 _ (reached.step other) same.symm⟩

end Script

end ObjectModel
