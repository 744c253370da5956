import ObjectModel.Proofs.Definition

/-!
Definitions under names in use. Whether such a definition returns the class under the name depends
on the superclass of the class alone, neither on the slots nor on what kind of class it is. A
conflict is reported with the name of the actual superclass; the root class and the primitive types
have none, and there the report itself fails.
-/

namespace ObjectModel

namespace World

/-- The class that a definition is to extend, the root class when none is given, if it is there. -/
def parent? (w : World) (superclass : Option ClassId) : Option ClassId :=
  superclass.or (w.find? (Core.name .object))

/-- The world after the root class has been created. -/
def rooted (w : World) : World :=
  (w.pushClass (Core.name .object) .root fun _ => some .object).logged
    ⟨.debug, .runtime, "defined class " ++ Core.name .object⟩

/-- The class is below the one that a definition is to extend. -/
def Extends (w : World) (c : ClassId) (superclass : Option ClassId) : Prop :=
  ∃ p, w.parent? superclass = some p ∧ w.superclass? c = some p

/-- The end of a definition under the name of the class `c`. -/
structure Redefinition (w : World) (name : Text) (c : ClassId) (superclass : Option ClassId)
    (ran : Except Fault ClassId × World) : Prop where
  returns_iff : (∃ d w', ran = (.ok d, w')) ↔ w.Extends c superclass
  returned : ∀ {d w'}, ran = (.ok d, w') → d = c ∧ w' = w
  conflict : ∀ {q}, w.superclass? c = some q → ¬ w.Extends c superclass →
    ∃ l cause, w.class? q = some l ∧ ran = (.error (.crash cause), w) ∧
      cause.message = "rt: class " ++ name ++ " already defined with superclass " ++ l.name
  /-- Without a superclass to name the report fails, after the root class may have been created. -/
  top : w.superclass? c = none → ran = (.error (.crash .nullDereference),
    if (w.parent? superclass).isSome then w else w.rooted)
  top_iff : w.superclass? c = none ↔
    ∃ k, w.class? c = some k ∧ (k.shape.isPrimitive = true ∨ k.name = Core.name .object)

section Parents
variable {w : World} {superclass : Option ClassId}

theorem grows_rooted (w : World) : Grows w w.rooted :=
  (Grows.pushClass w _ _ _).trans (.logged _ _)

/-- Before there is a root class all classes are primitive types. -/
theorem WellFormed.primitive_of_unrooted (well : w.WellFormed)
    (absent : w.find? (Core.name .object) = none) {c : ClassId} {k : Class}
    (known : w.class? c = some k) : k.shape = .primitive := by
  by_contra reference
  obtain ⟨r, there⟩ := well.root_found known reference
  simp [absent] at there

theorem WellFormed.parent_table (well : w.WellFormed) {p : ClassId}
    (given : ∀ c ∈ superclass, ∃ t, w.table? c = some t) (parent : w.parent? superclass = some p) :
    ∃ t, w.table? p = some t := by
  cases superclass with
  | some c =>
    cases parent
    exact given p rfl
  | none => exact well.table_of_find parent (Core.name_ne_primitive .object)

end Parents

end World

namespace Action
variable {w w' : World} {name : Text} {superclass : Option ClassId} {slots : List Text}
  {c p q : ClassId}

theorem run_orObjectClass (parent : w.parent? superclass = some p) :
    (orObjectClass superclass).run w = (.ok p, w) := by
  cases superclass with
  | some c =>
    cases parent
    rfl
  | none => exact register_found parent

theorem run_orObjectClass_unrooted (absent : w.parent? superclass = none) :
    (orObjectClass superclass).run w = (.ok w.classes.size, w.rooted) := by
  cases superclass with
  | some c => cases absent
  | none => exact register_fresh absent

theorem defineClass_again {t : DispatchTable}
    (above : (orObjectClass superclass).run w = (.ok p, w')) (inherited : w'.table? p = some t)
    (found : w'.find? name = some c) :
    (defineClass name superclass slots).run w = (confirmSuperclass name c p).run w' := by
  obtain ⟨l, known, own⟩ := World.class?_of_table? inherited
  rw [defineClass_run above known own, run_bind, registerDefined, register_found found]

theorem confirmSuperclass_other {l : Class} (below : w.superclass? c = some q)
    (known : w.class? q = some l) (other : q ≠ p) :
    (confirmSuperclass name c p).run w = (.error (.crash (.alreadyDefined name l.name)), w) := by
  unfold confirmSuperclass
  rw [run_get_bind, below, if_neg (by simpa using other), run_bind, run_className known]
  rfl

theorem confirmSuperclass_top (top : w.superclass? c = none) :
    (confirmSuperclass name c p).run w = (.error (.crash .nullDereference), w) := by
  unfold confirmSuperclass
  rw [run_get_bind, top, if_neg (by simp)]
  rfl

section Redefinitions
variable (slots) (well : w.WellFormed) (found : w.find? name = some c)
  (given : ∀ s ∈ superclass, ∃ t, w.table? s = some t)
include well found given

theorem defineClass_confirms (parent : w.parent? superclass = some p) :
    (defineClass name superclass slots).run w = (confirmSuperclass name c p).run w := by
  obtain ⟨t, inherited⟩ := well.parent_table given parent
  exact defineClass_again (run_orObjectClass parent) inherited found

theorem defineClass_same (below : w.Extends c superclass) :
    (defineClass name superclass slots).run w = (.ok c, w) := by
  obtain ⟨p, parent, above⟩ := below
  rw [defineClass_confirms slots well found given parent]
  exact confirmSuperclass_same above

omit given in
/-- Without a root class to extend, the definition creates it; the class under the name is a
primitive type. -/
theorem defineClass_unrooted (absent : w.parent? superclass = none) :
    w.superclass? c = none ∧ (defineClass name superclass slots).run w =
      (.error (.crash .nullDereference), w.rooted) := by
  obtain ⟨k, known, -⟩ := World.find?_some found
  have unrooted : w.find? (Core.name .object) = none := (Option.or_eq_none_iff.mp absent).2
  have primitive := well.primitive_of_unrooted unrooted known
  have grown := w.grows_rooted
  have top {w' : World} (there : w'.class? c = some k) : w'.superclass? c = none := by
    simp [World.superclass?_of_class? there, primitive, Shape.superclass?]
  have new : w.rooted.table? w.classes.size = some .object := by
    simp [World.table?, World.rooted, World.class?, World.classes_logged, World.pushClass]
  refine ⟨top known, ?_⟩
  rw [defineClass_again (run_orObjectClass_unrooted absent) new (grown.find? found)]
  exact confirmSuperclass_top (top (grown.class? known))

theorem defineClass_top (top : w.superclass? c = none) :
    (defineClass name superclass slots).run w = (.error (.crash .nullDereference),
      if (w.parent? superclass).isSome then w else w.rooted) := by
  cases parent : w.parent? superclass with
  | none => exact (defineClass_unrooted slots well found parent).2
  | some p =>
    rw [defineClass_confirms slots well found given parent]
    exact confirmSuperclass_top top

theorem defineClass_conflict (above : w.superclass? c = some q) (other : ¬ w.Extends c superclass) :
    ∃ l, w.class? q = some l ∧ (defineClass name superclass slots).run w =
      (.error (.crash (.alreadyDefined name l.name)), w) := by
  obtain ⟨k, known, -⟩ := World.find?_some found
  obtain ⟨l, there⟩ := well.superclass_there known (World.superclass?_of_class? known ▸ above)
  refine ⟨l, there, ?_⟩
  cases parent : w.parent? superclass with
  | none =>
    have top := (defineClass_unrooted slots well found parent).1
    simp [above] at top
  | some p =>
    rw [defineClass_confirms slots well found given parent]
    apply confirmSuperclass_other above there
    rintro rfl
    exact other ⟨q, parent, above⟩

theorem extends_of_defineClass {d : ClassId}
    (ran : (defineClass name superclass slots).run w = (.ok d, w')) : w.Extends c superclass := by
  by_contra other
  cases above : w.superclass? c with
  | none =>
    rw [defineClass_top slots well found given above] at ran
    cases ran
  | some q =>
    obtain ⟨l, -, conflict⟩ := defineClass_conflict slots well found given above other
    rw [conflict] at ran
    cases ran

end Redefinitions

end Action

namespace Script

/-- In every session that a script reaches, a definition under a name in use returns the class under
the name if that extends the given class, and otherwise crashes; the table of classes stays as it
was, but for the root class. -/
theorem Session.Reachable.redefinition_decided {s : Session} (reached : s.Reachable) {name : Text}
    {c : ClassId} (found : s.world.find? name = some c) {superclass : Option ClassId}
    (given : ∀ p ∈ superclass, ∃ t, s.world.table? p = some t) (slots : List Text) :
    s.world.Redefinition name c superclass
      ((Action.defineClass name superclass slots).run s.world) := by
  have well := reached.valid.well
  obtain ⟨k, known, -⟩ := World.find?_some found
  have returns (below : s.world.Extends c superclass) :=
    Action.defineClass_same slots well found given below
  have returned {d : ClassId} {w : World}
      (ran : (Action.defineClass name superclass slots).run s.world = (.ok d, w)) :=
    Action.extends_of_defineClass slots well found given ran
  constructor
  case returns_iff =>
    constructor
    · rintro ⟨d, w, ran⟩
      exact returned ran
    · intro below
      exact ⟨c, s.world, returns below⟩
  case returned =>
    intro d w ran
    rw [returns (returned ran)] at ran
    cases ran
    exact ⟨rfl, rfl⟩
  case conflict =>
    intro q above other
    obtain ⟨l, there, ran⟩ := Action.defineClass_conflict slots well found given above other
    exact ⟨l, _, there, ran, rfl⟩
  case top => exact Action.defineClass_top slots well found given
  case top_iff =>
    rw [World.superclass?_of_class? known, well.superclass?_none_iff known]
    simp [known]

/-- A script that makes a primitive type, then a two-dimensional array class and all above it. -/
def intAndGrid : List Step :=
  [.perform (.classes (.value (.named (.primitive .int)))) none none,
    .perform (.classes (.value (.grid (.named (.primitive .int))))) none none]

/-- The report on the primitive type fails, at first with the root class created. The grid class is
returned to a definition that extends its superclass, and one that extends the root class is told of
the conflict. -/
theorem redefinition_decided_intAndGrid :
    let first := ((Session.withVerbosity {} 2).runAll (intAndGrid.take 1)).2
    let s := ((Session.withVerbosity {} 2).runAll intAndGrid).2
    (first.world.find? "int" = some 0 ∧ first.world.superclass? 0 = none ∧
      first.world.parent? none = none ∧
      first.world.Redefinition "int" 0 none
        ((Action.defineClass "int" none ["draw"]).run first.world)) ∧
    s.world.find? "2d:[[I" = some 3 ∧ s.world.superclass? 3 = some 2 ∧
      s.world.parent? none = some 1 ∧ (∃ t, s.world.table? 2 = some t) ∧
      s.world.Redefinition "2d:[[I" 3 (some 2)
        ((Action.defineClass "2d:[[I" (some 2) ["draw"]).run s.world) ∧
      s.world.Redefinition "2d:[[I" 3 none
        ((Action.defineClass "2d:[[I" none []).run s.world) := by
  intro first s
  have reached : first.Reachable := (Session.Reachable.start {} 2).runAll _
  have reached' : s.Reachable := (Session.Reachable.start {} 2).runAll _
  have found : first.world.find? "int" = some 0 := by decide +kernel
  have found' : s.world.find? "2d:[[I" = some 3 := by decide +kernel
  have extended : ∃ t, s.world.table? 2 = some t :=
    Option.isSome_iff_exists.mp (by decide +kernel)
  refine ⟨⟨found, by decide +kernel, by decide +kernel, ?_⟩, found', by decide +kernel,
    by decide +kernel, extended, ?_, ?_⟩
  · exact reached.redefinition_decided found (by simp) _
  · exact reached'.redefinition_decided found' (by simpa using extended) _
  · exact reached'.redefinition_decided found' (by simp) _

end Script

end ObjectModel
