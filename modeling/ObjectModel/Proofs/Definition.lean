import ObjectModel.Proofs.Origin

/-!
Definitions step by step. A definition finds its superclass, refuses a primitive one, registers the
class and checks that the class under the name has that superclass. What it does is read off from
runs of these parts.
-/

namespace ObjectModel

theorem run_bind_ok {ε σ α β : Type} {a : ExceptT ε (StateM σ) α}
    {f : α → ExceptT ε (StateM σ) β}
    {s s' : σ} {y : β} (ran : (a >>= f).run s = (.ok y, s')) :
    ∃ x s₁, a.run s = (.ok x, s₁) ∧ (f x).run s₁ = (.ok y, s') := by
  rw [run_bind] at ran
  cases first : a.run s with
  | mk result s₁ =>
    rw [first] at ran
    cases result with
    | error e => cases ran
    | ok x => exact ⟨x, s₁, rfl, ran⟩

namespace Action
variable {w w' : World}

theorem run_classOf {c : ClassId} {k : Class} (known : w.class? c = some k) :
    (classOf c).run w = (.ok k, w) := by
  unfold classOf
  rw [run_get_bind, known]
  rfl

theorem run_className {c : ClassId} {k : Class} (known : w.class? c = some k) :
    (className (some c)).run w = (.ok k.name, w) := by
  unfold className
  rw [run_bind]
  change (do let k ← classOf c; return k.name : Action Text).run w = _
  rw [run_bind, run_classOf known]
  rfl

theorem class?_of_run_classOf {c : ClassId} {k : Class} (ran : (classOf c).run w = (.ok k, w')) :
    w.class? c = some k ∧ w = w' := by
  unfold classOf at ran
  rw [run_get_bind] at ran
  cases known : w.class? c with
  | none =>
    rw [known] at ran
    cases ran
  | some l =>
    rw [known] at ran
    cases ran
    exact ⟨rfl, rfl⟩

theorem register_fresh {name : Text} {shape : Shape} {table : ClassId → Option DispatchTable}
    (absent : w.find? (shape.key name) = none) :
    (register name shape table).run w = (.ok w.classes.size,
      (w.pushClass name shape table).logged ⟨.debug, .runtime, "defined class " ++ name⟩) := by
  unfold register
  rw [run_get_bind, absent]
  exact run_create w name shape table

/-- Registering a class adds at most that class, which is then found under its key. -/
theorem register_ok {name : Text} {shape : Shape} {table : ClassId → Option DispatchTable}
    {c : ClassId} (ran : (register name shape table).run w = (.ok c, w')) :
    Grows w w' ∧ w'.find? (shape.key name) = some c := by
  cases found : w.find? (shape.key name) with
  | some d =>
    rw [register_found found] at ran
    cases ran
    exact ⟨.refl w, found⟩
  | none =>
    rw [register_fresh found] at ran
    cases ran
    refine ⟨(Grows.pushClass w name shape table).trans (.logged _ _), ?_⟩
    rw [World.find?, World.classes_logged, ← World.find?, World.find?_pushClass, found]
    simp

section Definitions
variable {name : Text} {superclass : Option ClassId} {slots : List Text} {c p : ClassId}
  {w₁ : World} {l : Class} {t : DispatchTable}

/-- The class under the name of a definition, created with the slots if there is none. -/
def registerDefined (name : Text) (p : ClassId) (t : DispatchTable) (slots : List Text) :
    Action ClassId :=
  register name (.derived p) fun c => some (.extend (some t) ⟨.known c, none, slots⟩)

theorem defineClass_below_primitive (above : (orObjectClass superclass).run w = (.ok p, w₁))
    (known : w₁.class? p = some l) (primitive : l.table = none) :
    (defineClass name superclass slots).run w = (.error (.crash (.cannotExtend l.name)), w₁) := by
  unfold defineClass
  rw [run_bind, above]
  dsimp only
  rw [run_bind, run_classOf known]
  dsimp only
  rw [primitive]
  rfl

/-- The last part of a definition: the class under the name has to have the superclass. -/
def confirmSuperclass (name : Text) (c p : ClassId) : Action ClassId := do
  let actual := (← get).superclass? c
  if actual = some p then return c
  else crash (.alreadyDefined name (← className actual))

theorem confirmSuperclass_same (below : w.superclass? c = some p) :
    (confirmSuperclass name c p).run w = (.ok c, w) := by
  unfold confirmSuperclass
  rw [run_get_bind, if_pos below]
  rfl

theorem defineClass_run (above : (orObjectClass superclass).run w = (.ok p, w₁))
    (known : w₁.class? p = some l) (inherited : l.table = some t) :
    (defineClass name superclass slots).run w =
      (registerDefined name p t slots >>= fun c => confirmSuperclass name c p).run w₁ := by
  unfold defineClass
  rw [run_bind, above]
  dsimp only
  rw [run_bind, run_classOf known]
  dsimp only
  rw [inherited]
  rfl

theorem defineClass_registered (above : (orObjectClass superclass).run w = (.ok p, w₁))
    (known : w₁.class? p = some l) (inherited : l.table = some t)
    (registered : (registerDefined name p t slots).run w₁ = (.ok c, w'))
    (below : w'.superclass? c = some p) :
    (defineClass name superclass slots).run w = (.ok c, w') := by
  rw [defineClass_run above known inherited, run_bind, registered]
  exact confirmSuperclass_same below

/-- A definition that returns has found or made its class below the superclass it was given. -/
theorem defineClass_ok (ran : (defineClass name superclass slots).run w = (.ok c, w')) :
    ∃ p w₁ l t, (orObjectClass superclass).run w = (.ok p, w₁) ∧ w₁.class? p = some l ∧
      l.table = some t ∧ (registerDefined name p t slots).run w₁ = (.ok c, w') ∧
      w'.superclass? c = some p := by
  obtain ⟨p, w₁, above, rest⟩ := run_bind_ok ran
  obtain ⟨l, w₂, read, rest⟩ := run_bind_ok rest
  obtain ⟨known, rfl⟩ := class?_of_run_classOf read
  cases inherited : l.table with
  | none =>
    rw [inherited] at rest
    cases rest
  | some t =>
    rw [inherited] at rest
    obtain ⟨d, w₃, registered, rest⟩ := run_bind_ok rest
    rw [run_get_bind] at rest
    dsimp only at rest
    split at rest
    · rename_i below
      cases rest
      exact ⟨p, w₁, l, t, above, known, inherited, registered, below⟩
    · obtain ⟨_, w₄, _, rest⟩ := run_bind_ok rest
      cases rest

end Definitions

end Action

end ObjectModel
