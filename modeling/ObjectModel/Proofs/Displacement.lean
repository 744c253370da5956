import ObjectModel.Proofs.Definition

/-!
Definitions under built-in names. A built-in class is found by its name and taken as it is, so a
definition that comes before its first use takes its place, for good. Objects whose table exists
before their class, strings and class objects, then carry another table than their class; exceptions
and arrays take the table of their class and always agree with it. Once a built-in class is there no
definition changes it.
-/

namespace ObjectModel

theorem Sample.name_ne_builtin (s : Sample) (b : Builtin) : s.name ≠ b.name := by
  have each : ∀ b ∈ Builtin.all, s.name ≠ b.name := by
    cases s <;> decide
  exact each b b.mem_all

/-- Anything may happen but a definition under the name of the built-in class. -/
def Policy.sparing (b : Builtin) : Policy := ⟨fun _ e => ∀ s slots, e ≠ .define b.name s slots⟩

theorem Policy.sparing_steady (b : Builtin) : (Policy.sparing b).Steady :=
  fun _ allowed => allowed

theorem Policy.sparing_spares (b : Builtin) (w : World) (s : ClassId) (slots : List Text) :
    ¬ (Policy.sparing b).allows w (.define b.name s slots) :=
  fun allowed => allowed s slots rfl

instance (b : Builtin) : (Policy.sparing b).Samples where
  allow := by
    intro w s c _ d slots same
    exact s.name_ne_builtin b (Event.define.inj same).1

theorem Policy.permits_sparing {b : Builtin} {begun : World} {op : Script.Op}
    (other : ∀ superclass slots, op ≠ .classes (.define b.name superclass slots)) :
    (Policy.sparing b).Permits begun op := by
  rintro w e causes s slots rfl
  unfold Script.Op.Causes at causes
  split at causes <;> simp_all

namespace World

/-- The class that an object answers with has the table that the object carries. -/
def Agrees (w : World) (id : ObjectId) (o : Obj) : Prop :=
  ∀ v, ∃ c w', (Action.objectGetClass (.object id v)).run w = (.ok (some c), w') ∧
    w'.table? c = some o.table

section Objects
variable {w : World} {id : ObjectId} {o : Obj}

/-- Strings and class objects carry a fixed table, exceptions and arrays that of some class. -/
theorem WellFormed.table_of_body (well : w.WellFormed) (found : w.object? id = some o) :
    match o.body with
    | .string _ => o.table = .string
    | .metaclass _ => o.table = .metaclass
    | .exception _ _ | .array _ | .grid _ => ∃ c, w.table? c = some o.table
    | _ => True := by
  cases well.born found with
  | metaclass _ _ table body =>
    rw [body]
    exact table
  | @allocation body born kin =>
    generalize o.table = table at born ⊢
    generalize o.body = held at kin ⊢
    cases born with
    | plain =>
      cases kin
      trivial
    | string =>
      cases kin
      rfl
    | exception _ _ _ own =>
      cases kin
      exact ⟨_, own⟩
    | member _ sound =>
      cases kin with
      | same =>
        cases body with
        | string | metaclass | exception | array | grid => cases sound
        | _ => trivial
      | array => cases sound
      | grid => cases sound
    | array _ _ _ _ _ own =>
      cases kin <;> exact ⟨_, own⟩
    | grid _ _ _ _ _ _ own =>
      cases kin <;> exact ⟨_, own⟩

theorem WellFormed.agrees_of_table (well : w.WellFormed) (found : w.object? id = some o)
    {c : ClassId} (has : w.table? c = some o.table) : w.Agrees id o := by
  have resolved : w.classOf? id = some c := by
    rw [classOf?, found]
    exact well.owner_of_table has
  exact fun v => ⟨c, w, well.getClass_resolved resolved v, has⟩

theorem keeps_iff {b : Builtin} {c : ClassId} {k : Class} (found : w.find? b.name = some c)
    (known : w.class? c = some k) : w.Keeps b ↔ b.Assigned w c k := by
  constructor
  · intro keeps
    exact keeps found known
  · intro assigned c' k' found' known'
    rw [found] at found'
    cases found'
    rw [known] at known'
    cases known'
    exact assigned

/-- Finding a built-in class neither displaces it nor restores it. -/
theorem WellFormed.find_kept (well : w.WellFormed) (b : Builtin) :
    ∃ c w', b.find.run w = (.ok c, w') ∧ w'.WellFormed ∧ w'.find? b.name = some c ∧
      (w'.Keeps b ↔ w.Keeps b) := by
  obtain ⟨c, w', ran, run, there⟩ := (Builtin.find_ends (P := .sparing b) b).returns well
  refine ⟨c, w', ran, run.wellFormed well, there, run.grows.keeps well, ?_⟩
  exact run.keeps (Policy.sparing_steady b) (Policy.sparing_spares b) well

theorem core_table_owner (which : Core) : which.table.own.owner = .core which := by
  cases which <;> rfl

theorem WellFormed.core_table_iff (well : w.WellFormed) {which : Core} {c : ClassId}
    (found : w.find? which.name = some c) :
    w.table? c = some which.table ↔ w.Keeps (.core which) := by
  obtain ⟨k, known, key⟩ := find?_some found
  rw [table?_of_class? known, keeps_iff found known]
  constructor
  · intro has
    obtain ⟨cause, table, creation, own⟩ := (well.made known).creation
    cases cause with
    | none => exact Builtin.assigned_of_creation creation own key
    | some e =>
      -- The table of a defined class belongs to that class, not to a core class.
      generalize k.shape = shape at creation
      generalize k.name = name at creation
      cases creation with
      | definition _ _ _ =>
        have owned := core_table_owner which
        rw [has] at own
        rw [Option.some.inj own] at owned
        cases owned
  · exact Builtin.core_table_of_assigned

theorem getClass_core {which : Core} (found : w.object? id = some o) (table : o.table = which.table)
    (v : View) {c : ClassId} {w' : World} (ran : (Action.coreClass which).run w = (.ok c, w')) :
    (Action.objectGetClass (.object id v)).run w = (.ok (some c), w') := by
  unfold Action.objectGetClass
  rw [run_bind]
  change (Action.object id >>= fun o => Action.owner o.table).run w = _
  rw [run_bind, Action.run_object found]
  dsimp only
  rw [table, Action.owner, core_table_owner]
  dsimp only
  rw [map_eq_pure_bind, run_bind, ran]
  rfl

/-- A string or class object agrees with its class exactly if the built-in class was kept. -/
theorem WellFormed.agrees_core_iff (well : w.WellFormed) {which : Core}
    (found : w.object? id = some o) (table : o.table = which.table) :
    w.Agrees id o ↔ w.Keeps (.core which) := by
  obtain ⟨c, w', ran, well', there, kept⟩ := well.find_kept (.core which)
  rw [← kept, ← well'.core_table_iff there]
  constructor
  · intro agrees
    obtain ⟨c', w'', ran', has⟩ := agrees .plain
    rw [getClass_core found table .plain ran] at ran'
    cases ran'
    rw [has, table]
  · intro has v
    exact ⟨c, w', getClass_core found table v ran, by rw [has, table]⟩

theorem WellFormed.agrees_of_body (well : w.WellFormed) (found : w.object? id = some o) :
    match o.body with
    | .string _ => w.Agrees id o ↔ w.Keeps (.core .string)
    | .metaclass _ => w.Agrees id o ↔ w.Keeps (.core .metaclass)
    | .exception _ _ | .array _ | .grid _ => w.Agrees id o
    | _ => True := by
  have table := well.table_of_body found
  cases held : o.body <;> rw [held] at table
  case string => exact well.agrees_core_iff found table
  case metaclass => exact well.agrees_core_iff found table
  case exception | array | grid =>
    obtain ⟨c, has⟩ := table
    exact well.agrees_of_table found has
  all_goals trivial

end Objects

end World

section Definitions
variable {w w' : World} {name : Text} {slots : List Text} {superclass : Option ClassId}
  {c : ClassId}

/-- A definition under a name that is not in use makes the class, with a table of its own. -/
theorem Action.defineClass_fresh (well : w.WellFormed) (absent : w.find? name = none)
    (unrooted : name ∉ rootKeys) (ran : (defineClass name superclass slots).run w = (.ok c, w')) :
    w'.find? name = some c ∧ ∃ k s t, w'.class? c = some k ∧ k.shape = .derived s ∧
      w'.table? s = some t ∧ k.table = some (.extend (some t) ⟨.known c, none, slots⟩) := by
  obtain ⟨p, w₁, l, t, above, known, inherited, registered, -⟩ := defineClass_ok ran
  have absent₁ : w₁.find? name = none := by
    cases superclass with
    | some s =>
      cases above
      exact absent
    | none =>
      -- Finding the root class adds no name but that of the root class.
      obtain ⟨-, -, adds⟩ := (objectClass_ends (P := .any) (E := fun _ _ => True)).of_ok well above
      rw [Option.eq_none_iff_forall_ne_some]
      intro d there
      rcases adds name d there with before | root
      · rw [absent] at before
        cases before
      · exact unrooted root
  obtain ⟨grown, found⟩ := register_ok registered
  rw [registerDefined, register_fresh absent₁] at registered
  cases registered
  have new := World.class?_pushClass (w := w₁) name (.derived p)
    (fun c => some (.extend (some t) ⟨.known c, none, slots⟩)) w₁.classes.size
  rw [if_pos rfl] at new
  have has : w₁.table? p = some t := by rw [World.table?_of_class? known, inherited]
  rw [World.class?, World.classes_logged, ← World.class?]
  exact ⟨found, _, p, t, new, rfl, grown.table? has, rfl⟩

/-- The name of the root class cannot be defined: there is a root class by the time its superclass
is found. -/
theorem Action.defineClass_root (well : w.WellFormed)
    (absent : w.find? (Core.name .object) = none) :
    (defineClass (Core.name .object) superclass slots).run w ≠ (.ok c, w') := by
  intro ran
  obtain ⟨p, w₁, l, t, above, known, inherited, registered, below⟩ := defineClass_ok ran
  cases superclass with
  | some s =>
    cases above
    obtain ⟨r, there⟩ := well.root_found known (well.not_primitive_of_table known inherited)
    rw [absent] at there
    cases there
  | none =>
    obtain ⟨run, there, -⟩ := (objectClass_ends (P := .any) (E := fun _ _ => True)).of_ok well above
    have well₁ := run.wellFormed well
    obtain ⟨k, root, shape, -⟩ := well₁.root_of_find there
    rw [registerDefined, register_found there] at registered
    cases registered
    rw [World.superclass?_of_class? root, shape] at below
    cases below

theorem World.WellFormed.keeps_root (well : w.WellFormed) : w.Keeps (.core .object) := by
  intro c k found known
  obtain ⟨l, there, shape, -, table⟩ := well.root_of_find found
  rw [known] at there
  cases there
  exact ⟨shape, table⟩

theorem Builtin.name_unrooted {b : Builtin} (proper : b ≠ .core .object) : b.name ∉ rootKeys := by
  have each : ∀ b ∈ Builtin.all, b ≠ .core .object → b.name ∉ rootKeys := by decide
  exact each b b.mem_all proper

/-- A definition under a built-in name that is not in use takes the place of the built-in class,
unless it defines a kind of exception exactly as it is built in. -/
theorem World.WellFormed.keeps_defined_iff (well : w.WellFormed) {b : Builtin}
    (absent : w.find? b.name = none)
    (ran : (Action.defineClass b.name superclass slots).run w = (.ok c, w')) :
    w'.Keeps b ↔ ∃ kind, b = .kind kind ∧ w'.superclass? c = w'.find? kind.superclassKey ∧
      slots = kind.slots := by
  by_cases rooted : b = .core .object
  · subst rooted
    exact absurd ran (Action.defineClass_root well absent)
  · obtain ⟨found, k, s, t, known, shape, inherited, table⟩ :=
      Action.defineClass_fresh well absent (Builtin.name_unrooted rooted) ran
    have below : w'.superclass? c = some s := by
      rw [superclass?_of_class? known, shape]
      rfl
    rw [keeps_iff found known, below]
    constructor
    · intro assigned
      rcases b with which | p | kind
      · -- The table of a defined class belongs to that class, not to a core class.
        have own := Builtin.core_table_of_assigned assigned
        have owned := core_table_owner which
        rw [table] at own
        rw [← Option.some.inj own] at owned
        cases owned
      · obtain ⟨primitive, -⟩ := assigned
        rw [shape] at primitive
        cases primitive
      · obtain ⟨s', t', above, -, shape', table'⟩ := assigned
        rw [shape] at shape'
        cases shape'
        rw [table] at table'
        exact ⟨kind, rfl, above.symm, congrArg (·.own.names) (Option.some.inj table')⟩
    · rintro ⟨kind, rfl, above, rfl⟩
      exact ⟨s, t, above.symm, inherited, shape, table⟩

/-- A definition under a name in use returns the class under the name, if it returns. -/
theorem Action.defineClass_found {d : ClassId} (well : w.WellFormed) (found : w.find? name = some d)
    (ran : (defineClass name superclass slots).run w = (.ok c, w')) : c = d := by
  obtain ⟨p, w₁, l, t, above, -, -, registered, -⟩ := defineClass_ok ran
  have found₁ : w₁.find? name = some d := by
    cases superclass with
    | some s =>
      cases above
      exact found
    | none =>
      obtain ⟨run, -⟩ := (objectClass_ends (P := .any) (E := fun _ _ => True)).of_ok well above
      exact run.grows.find? found
  rw [registerDefined, register_found found₁] at registered
  cases registered
  rfl

end Definitions

namespace Script

theorem Session.Valid.keeps_run {s : Session} (valid : s.Valid) {b : Builtin}
    (kept : s.world.Keeps b) (step : Step) (displaced : ¬ (s.run step).2.world.Keeps b) :
    s.world.find? b.name = none ∧
      ∃ superclass slots, step.Uses (.classes (.define b.name superclass slots)) := by
  have run := (run_moves (P := .any) step valid fun _ _ _ _ _ _ => trivial).evolved
  constructor
  · rw [Option.eq_none_iff_forall_ne_some]
    intro c found
    obtain ⟨k, known, -⟩ := World.find?_some found
    apply displaced
    rw [World.keeps_iff (run.grows.find? found) (run.grows.class? known)]
    exact (kept found known).mono run.grows
  · by_contra unused
    apply displaced
    have permitted : ∀ op, step.Uses op → ∀ w, (Policy.sparing b).Permits w op := by
      intro op uses w
      apply Policy.permits_sparing
      rintro superclass slots rfl
      exact unused ⟨superclass, slots, uses⟩
    exact (run_moves step valid permitted).evolved.keeps (Policy.sparing_steady b)
      (Policy.sparing_spares b) valid.well kept

/-- In every session that a script reaches, the accessor of a built-in class returns the class that
is assigned to it exactly if the class was kept. A step displaces it only by defining its name
before its first use, and for good; every such definition displaces it, unless it repeats a kind of
exception, and a definition after the first use returns the class as it is. The root class is always
kept. Exceptions and arrays always agree with their class, strings and class objects exactly if that
was kept. -/
theorem Session.Reachable.builtin_kept_iff {s : Session} (reached : s.Reachable) (b : Builtin) :
    (∃ c k w, b.find.run s.world = (.ok c, w) ∧ w.find? b.name = some c ∧ w.class? c = some k ∧
      (b.Assigned w c k ↔ s.world.Keeps b)) ∧
    (∀ step, (s.run step).2.world.Keeps b → s.world.Keeps b) ∧
    (∀ step, s.world.Keeps b → ¬ (s.run step).2.world.Keeps b → s.world.find? b.name = none ∧
      ∃ superclass slots, step.Uses (.classes (.define b.name superclass slots))) ∧
    (∀ superclass slots c w,
      (Action.defineClass b.name superclass slots).run s.world = (.ok c, w) →
        (∀ d, s.world.find? b.name = some d → c = d) ∧
        (s.world.find? b.name = none → (w.Keeps b ↔ ∃ kind, b = .kind kind ∧
          w.superclass? c = w.find? kind.superclassKey ∧ slots = kind.slots))) ∧
    s.world.Keeps (.core .object) ∧
    ∀ id o, s.world.object? id = some o →
      match o.body with
      | .string _ => s.world.Agrees id o ↔ s.world.Keeps (.core .string)
      | .metaclass _ => s.world.Agrees id o ↔ s.world.Keeps (.core .metaclass)
      | .exception _ _ | .array _ | .grid _ => s.world.Agrees id o
      | _ => True := by
  have valid := reached.valid
  have well := valid.well
  refine ⟨?_, ?_, ?_, ?_, well.keeps_root, ?_⟩
  · obtain ⟨c, w, ran, -, there, kept⟩ := well.find_kept b
    obtain ⟨k, known, -⟩ := World.find?_some there
    rw [World.keeps_iff there known] at kept
    exact ⟨c, k, w, ran, there, known, kept⟩
  · intro step
    have run := (run_moves (P := .any) step valid fun _ _ _ _ _ _ => trivial).evolved
    exact run.grows.keeps well
  · intro step kept displaced
    exact valid.keeps_run kept step displaced
  · intro superclass slots c w ran
    constructor
    · intro d found
      exact Action.defineClass_found well found ran
    · intro absent
      exact well.keeps_defined_iff absent ran
  · intro id o found
    exact well.agrees_of_body found

/-- A script that defines the class of strings, then makes a string. -/
def takenString : List Step :=
  [.perform (.classes (.define (Core.name .string) .null ["draw"])) none none,
    .perform (.object (.newString "a")) (some "s") none]

theorem builtin_kept_iff_takenString :
    let s := ((Session.withVerbosity {} 0).runAll takenString).2
    s.Reachable ∧ ¬ s.world.Keeps (.core .string) ∧
      ∃ o, s.world.object? 4 = some o ∧ o.body = .string "a" ∧ ¬ s.world.Agrees 4 o := by
  intro s
  have reached : s.Reachable := (Session.Reachable.start {} 0).runAll takenString
  have found : s.world.find? (Core.name .string) = some 1 := by decide +kernel
  have displaced : ¬ s.world.Keeps (.core .string) := by
    rw [← reached.valid.well.core_table_iff found]
    decide +kernel
  have made : (s.world.object? 4).map Obj.body = some (.string "a") := by decide +kernel
  obtain ⟨o, there, body⟩ := Option.map_eq_some_iff.mp made
  have agrees := (reached.builtin_kept_iff (.core .string)).2.2.2.2.2 4 o there
  rw [body] at agrees
  exact ⟨reached, displaced, o, there, body, fun agree => displaced (agrees.mp agree)⟩

end Script

end ObjectModel
