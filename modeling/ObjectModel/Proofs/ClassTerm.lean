import ObjectModel.Proofs.Definition
import ObjectModel.Proofs.Layout
import ObjectModel.Snapshot.Basic

/-!
Class expressions. A class is asked for by an expression over the built-in classes, the array
classes and definitions. What its descriptor will be can be read off the expression alone;
evaluating the expression finds the class or creates it, together with all it is made of, and once
that has happened evaluating it again changes nothing.
-/

namespace ObjectModel

inductive ClassTerm where
  | builtin (b : Builtin)
  | array (rank : Rank) (component : ClassTerm)
  | define (name : Text) (superclass : ClassTerm) (slots : List Text)
deriving DecidableEq

def ClassTerm.evaluate : ClassTerm → Action ClassId
  | .builtin b => b.find
  | .array rank component => do Action.arraysOf rank (← component.evaluate)
  | .define name superclass slots => do
    Action.defineClass name (some (← superclass.evaluate)) slots

/-- The class, or the root class if there is none, is what the expression gives in the world. -/
def ClassTerm.Gives (E : ClassTerm) (w : World) : Option ClassId → Prop
  | some c => (E.evaluate.run w).1 = .ok c
  | none => E = .builtin (.core .object)

instance (E : ClassTerm) (w : World) (c : Option ClassId) : Decidable (E.Gives w c) := by
  cases c <;> unfold ClassTerm.Gives <;> infer_instance

/-- The slots of the instances of a kind, those of the kinds above it first. -/
def Kind.layout (k : Kind) : List Text :=
  (k :: k.above).reverse.foldl (fun layout k => DispatchTable.extendLayout layout k.slots)
    DispatchTable.object.slots

def Builtin.descriptor : Builtin → Descriptor
  | .core .object => { name := Core.name .object, slots := some DispatchTable.object.slots }
  | .core which =>
    { name := which.name, superclass := Core.name .object, slots := some which.table.slots }
  | .primitive p => { name := p.name, primitive := true }
  | .kind k => { name := k.name, superclass := k.superclassKey, slots := some k.layout }

def Rank.rootName (rank : Rank) : Text := rank.brackets ++ rootDescriptor

def Rank.baseName : Rank → Text
  | .one => Core.name .object
  | .two => Rank.rootName .one

namespace Descriptor

/-- The element code of a described class in names of array classes. -/
def code (d : Descriptor) : Text :=
  if d.dimensions ≠ 0 then d.name
  else if d.primitive then ((Primitive.named? d.name).map Primitive.letter).getD []
  else "L" ++ d.name ++ ";"

def key (d : Descriptor) : Text := if d.dimensions = 2 then "2d:" ++ d.name else d.name

/-- The descriptor of the class of arrays of a described class. -/
def arrays (rank : Rank) (d : Descriptor) : Descriptor where
  name := rank.brackets ++ d.code
  superclass := if d.primitive || d.name == Core.name .object then rank.baseName else rank.rootName
  component := d.name
  dimensions := Int64.ofNat rank.toNat
  slots := some DispatchTable.object.slots

end Descriptor

/-- The descriptor of the class that an expression stands for, or the name of the primitive type
that it tries to extend. -/
def ClassTerm.describe : ClassTerm → Except Text Descriptor
  | .builtin b => .ok b.descriptor
  | .array rank component => do return (← component.describe).arrays rank
  | .define name superclass slots => do
    let d ← superclass.describe
    match d.slots with
    | none => .error d.name
    | some layout =>
      return { name, superclass := d.name, slots := some (DispatchTable.extendLayout layout slots) }

namespace Action

/-- In this world and all later ones the action gives the result and changes nothing. -/
def Settled {α : Type} (a : Action α) (r : Except Fault α) (w : World) : Prop :=
  ∀ w', Grows w w' → a.run w' = (r, w')

section Settling
variable {α β : Type} {w w' : World}

theorem Settled.mono {a : Action α} {r : Except Fault α} (settled : a.Settled r w)
    (grown : Grows w w') : a.Settled r w' :=
  fun w'' later => settled w'' (grown.trans later)

theorem Settled.run {a : Action α} {r : Except Fault α} (settled : a.Settled r w) :
    a.run w = (r, w) :=
  settled w (.refl w)

theorem Settled.bind {a : Action α} {f : α → Action β} {x : α} {r : Except Fault β}
    (first : a.Settled (.ok x) w) (next : (f x).Settled r w) : (a >>= f).Settled r w := by
  intro w' grown
  rw [run_bind, first w' grown]
  exact next w' grown

theorem Settled.bind_error {a : Action α} {f : α → Action β} {e : Fault}
    (first : a.Settled (.error e) w) : (a >>= f).Settled (.error e) w := by
  intro w' grown
  rw [run_bind, first w' grown]

theorem register_settled {name : Text} {shape : Shape} {table : ClassId → Option DispatchTable}
    {c : ClassId} (found : w.find? (shape.key name) = some c) :
    (register name shape table).Settled (.ok c) w :=
  fun _ grown => register_found (grown.find? found)

theorem objectClass_settled {r : ClassId} (ran : objectClass.run w = (.ok r, w')) :
    Grows w w' ∧ objectClass.Settled (.ok r) w' := by
  obtain ⟨grown, found⟩ := register_ok ran
  exact ⟨grown, register_settled found⟩

theorem classUnderObject_settled {which : Core} {c : ClassId}
    (ran : (classUnderObject which).run w = (.ok c, w')) :
    (classUnderObject which).Settled (.ok c) w' := by
  obtain ⟨r, w₁, above, registered⟩ := run_bind_ok ran
  obtain ⟨-, root⟩ := objectClass_settled above
  obtain ⟨grown, found⟩ := register_ok registered
  exact (root.mono grown).bind (register_settled found)

theorem run_kindClassUnder (s : ClassId) (k : Kind) (w : World) :
    (kindClassUnder s k).run w = (register k.name (.derived s) fun c =>
      some (.extend (w.table? s) ⟨.known c, none, k.slots⟩)).run w := by
  unfold kindClassUnder
  rw [run_get_bind]

theorem kindClassUnder_settled {s c : ClassId} {k : Kind}
    (ran : (kindClassUnder s k).run w = (.ok c, w')) :
    Grows w w' ∧ (kindClassUnder s k).Settled (.ok c) w' := by
  rw [run_kindClassUnder] at ran
  obtain ⟨grown, found⟩ := register_ok ran
  refine ⟨grown, fun w'' later => ?_⟩
  rw [run_kindClassUnder]
  exact register_found (later.find? found)

theorem kindClasses_settled {kinds : List Kind} {s c : ClassId}
    (ran : (kinds.foldlM kindClassUnder s).run w = (.ok c, w')) :
    Grows w w' ∧ (kinds.foldlM kindClassUnder s).Settled (.ok c) w' := by
  induction kinds generalizing s w with
  | nil =>
    cases ran
    exact ⟨.refl _, fun _ _ => rfl⟩
  | cons k rest ih =>
    rw [List.foldlM_cons] at ran ⊢
    obtain ⟨d, w₁, first, others⟩ := run_bind_ok ran
    obtain ⟨grown₁, settled₁⟩ := kindClassUnder_settled first
    obtain ⟨grown, settled⟩ := ih others
    exact ⟨grown₁.trans grown, (settled₁.mono grown).bind settled⟩

end Settling

end Action

/-- A built-in class that was found is found again. -/
theorem Builtin.find_settled {b : Builtin} {w w' : World} {c : ClassId}
    (ran : b.find.run w = (.ok c, w')) : b.find.Settled (.ok c) w' := by
  rcases b with (_ | _ | _) | p | k
  · exact (Action.objectClass_settled ran).2
  · exact Action.classUnderObject_settled ran
  · exact Action.classUnderObject_settled ran
  · exact Action.register_settled (Action.register_ok ran).2
  · obtain ⟨r, w₁, above, kinds⟩ := run_bind_ok ran
    obtain ⟨-, root⟩ := Action.objectClass_settled above
    obtain ⟨grown, settled⟩ := Action.kindClasses_settled kinds
    exact (root.mono grown).bind settled

section Terms
variable {w : World}

theorem Action.arraysOf_ends {P : Policy} {E : Fault → World → Prop} (rank : Rank) {c : ClassId}
    {k : Class} (known : w.class? c = some k) :
    Ends P (arraysOf rank c) w (fun a w' => w'.find? (k.arrayKey rank) = some a) E := by
  cases rank with
  | one => exact (arrayClass_ends known).imp fun _ _ _ _ made => made.found
  | two => exact (gridClass_ends known).imp fun _ _ _ _ made => made.found

theorem Action.arraysOf_settled {rank : Rank} {c a : ClassId} {k : Class}
    (known : w.class? c = some k) (found : w.find? (k.arrayKey rank) = some a) :
    (arraysOf rank c).Settled (.ok a) w := by
  have settled (superclass : ClassId → Class → Action ClassId) :
      (findArrayClass rank superclass c).Settled (.ok a) w := by
    intro w' grown
    unfold findArrayClass
    rw [run_bind, run_classOf (grown.class? known)]
    dsimp only
    rw [run_get_bind, grown.find? found]
    rfl
  cases rank with
  | one => exact settled arraySuperclass
  | two => exact settled gridSuperclass

theorem Action.defineClass_settled {name : Text} {slots : List Text} {p c : ClassId} {l : Class}
    {t : DispatchTable} (known : w.class? p = some l) (inherited : l.table = some t)
    (found : w.find? name = some c) (below : w.superclass? c = some p) :
    (defineClass name (some p) slots).Settled (.ok c) w := by
  intro w' grown
  obtain ⟨k, there, shape⟩ := Option.bind_eq_some_iff.mp below
  refine defineClass_registered rfl (grown.class? known) inherited
    (register_found (grown.find? found)) ?_
  rw [World.superclass?_of_class? (grown.class? there), shape]

theorem Action.defineClass_refused {name : Text} {slots : List Text} {p : ClassId} {l : Class}
    (known : w.class? p = some l) (primitive : l.table = none) :
    (defineClass name (some p) slots).Settled (.error (.crash (.cannotExtend l.name))) w :=
  fun _ grown => defineClass_below_primitive rfl (grown.class? known) primitive

end Terms

end ObjectModel
