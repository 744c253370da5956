import ObjectModel.Proofs.Description
import ObjectModel.Proofs.Trail

/-!
Descriptors of classes in runs that keep to fixed definitions. If no definition uses a built-in name
or the key of an array class, and every name is always defined below the same superclass expression
and with the same slots, then the class that an expression gives is described by the expression
alone: it does not matter which classes exist already, in which order they came, or which of the
other operations brought them about.
-/

namespace ObjectModel

/-- A superclass expression and slots. -/
structure Definition where
  superclass : ClassTerm
  slots : List Text
deriving DecidableEq

/-- The expression uses the names that it defines as the definitions say. -/
def ClassTerm.Within (find? : Text → Option Definition) : ClassTerm → Prop
  | .builtin _ => True
  | .array _ component => component.Within find?
  | .define name superclass slots =>
    find? name = some ⟨superclass, slots⟩ ∧ superclass.Within find?

instance ClassTerm.Within.decidable (find? : Text → Option Definition) :
    (E : ClassTerm) → Decidable (E.Within find?)
  | .builtin _ => .isTrue trivial
  | .array _ component => Within.decidable find? component
  | .define _ superclass _ =>
    have := Within.decidable find? superclass
    inferInstanceAs (Decidable (_ ∧ _))

def ClassTerm.point : ClassTerm :=
  .define (Sample.name .point) (.builtin (.core .object)) (Sample.slots .point)

def ClassTerm.colorPoint : ClassTerm :=
  .define (Sample.name .colorPoint) .point (Sample.slots .colorPoint)

/-- The superclass expression of a sample class. -/
def Sample.superclass : Sample → ClassTerm
  | .point | .list => .builtin (.core .object)
  | .colorPoint => .point
  | .alphaPoint => .colorPoint

/-- What the classes of a program are defined as, the sample classes among them. Their names are
neither built-in names nor keys of array classes. -/
structure Definitions where
  find? : Text → Option Definition
  plain : ∀ {name d}, find? name = some d → name.IsPlain
  fresh : ∀ {name d}, find? name = some d → ∀ b : Builtin, name ≠ b.name
  closed : ∀ {name d}, find? name = some d → d.superclass.Within find?
  samples : ∀ s : Sample, find? s.name = some ⟨s.superclass, s.slots⟩

namespace Definitions

/-- A class may be defined as the definitions say, below the class under the key that its superclass
expression stands for; all else may happen. -/
def policy (Γ : Definitions) : Policy where
  allows w
    | .define name s slots => ∃ d e, Γ.find? name = some d ∧ d.slots = slots ∧
      d.superclass.describe = .ok e ∧ w.find? e.key = some s
    | _ => True

theorem policy_steady (Γ : Definitions) : Γ.policy.Steady := by
  intro w w' e grown allowed
  cases e with
  | define name s slots =>
    obtain ⟨d, e, used, same, described, found⟩ := allowed
    exact ⟨d, e, used, same, described, grown.find? found⟩
  | _ => trivial

instance (Γ : Definitions) : Γ.policy.Samples where
  allow := by
    intro w s c above
    cases s with
    | point => exact ⟨_, _, Γ.samples .point, rfl, rfl, above⟩
    | colorPoint => exact ⟨_, _, Γ.samples .colorPoint, rfl, rfl, above⟩
    | alphaPoint => exact ⟨_, _, Γ.samples .alphaPoint, rfl, rfl, above⟩
    | list => exact ⟨_, _, Γ.samples .list, rfl, rfl, above⟩

/-- Every class was made in a way that the definitions allow. -/
structure Governs (Γ : Definitions) (w : World) : Prop where
  well : w.WellFormed
  made : ∀ {c k}, w.class? c = some k → w.MadeBy Γ.policy c k

section Governed
variable {Γ : Definitions} {w w' : World}

theorem Governs.evolve (governed : Γ.Governs w) (run : Evolves Γ.policy w w') : Γ.Governs w' := by
  refine ⟨run.wellFormed governed.well, fun known => ?_⟩
  rcases run.madeBy Γ.policy_steady known with old | made
  · exact (governed.made old).mono Γ.policy_steady run.grows
  · exact made

theorem Governs.keeps (governed : Γ.Governs w) (b : Builtin) : w.Keeps b := by
  intro c k found known
  obtain ⟨k', known', key⟩ := World.find?_some found
  rw [known] at known'
  cases known'
  refine (governed.made known).assigned ?_ key
  rintro _ s slots ⟨d, e, used, -⟩
  exact Γ.fresh used b rfl

theorem Governs.plainNames (governed : Γ.Governs w) : w.PlainNames := by
  intro k member simple
  obtain ⟨c, known⟩ := Array.getElem?_of_mem member
  obtain ⟨cause, table, creation, own, allowed⟩ := governed.made known
  generalize k.shape = shape at creation simple
  generalize k.name = name at creation ⊢
  cases creation with
  | root => exact Core.name_plain .object
  | core which => exact which.name_plain
  | primitive p => exact p.name_plain
  | kind k => exact k.name_plain
  | array => cases simple
  | definition _ slots inherited =>
    obtain ⟨d, e, used, -⟩ := allowed _ rfl
    exact Γ.plain used

/-- The class under a name of the definitions was defined as they say. -/
theorem Governs.defined (governed : Γ.Governs w) {name : Text} {d : Definition}
    (used : Γ.find? name = some d) {c : ClassId} {k : Class} (found : w.find? name = some c)
    (known : w.class? c = some k) :
    ∃ s t e, d.superclass.describe = .ok e ∧ w.find? e.key = some s ∧ w.table? s = some t ∧
      k.shape = .derived s ∧ k.table = some (.extend (some t) ⟨.known c, none, d.slots⟩) := by
  obtain ⟨k', known', key⟩ := World.find?_some found
  rw [known] at known'
  cases known'
  obtain ⟨cause, table, creation, own, allowed⟩ := governed.made known
  rw [Class.key] at key
  rw [own]
  generalize k.shape = shape at creation key ⊢
  generalize k.name = title at creation key
  cases creation with
  | root => exact absurd key.symm (Γ.fresh used (.core .object))
  | core which => exact absurd key.symm (Γ.fresh used (.core which))
  | primitive p => exact absurd key.symm (Γ.fresh used (.primitive p))
  | kind kind => exact absurd key.symm (Γ.fresh used (.kind kind))
  | array rank => exact absurd key ((Γ.plain used).ne_arrayKey rank _)
  | definition _ slots inherited =>
    obtain rfl : title = name := key
    obtain ⟨d', e, used', rfl, described, above⟩ := allowed _ rfl
    rw [used] at used'
    cases used'
    exact ⟨_, _, e, described, above, inherited, rfl, rfl⟩

/-- A definition as they say returns the class of the name, below its superclass. -/
theorem Governs.defines (governed : Γ.Governs w) {name : Text} {d : Definition}
    (used : Γ.find? name = some d) {e : Descriptor} (described : d.superclass.describe = .ok e)
    {p : ClassId} {l : Class} {t : DispatchTable} (above : w.find? e.key = some p)
    (known : w.class? p = some l) (inherited : l.table = some t) :
    ∃ c w', (Action.defineClass name (some p) d.slots).run w = (.ok c, w') ∧
      w'.superclass? c = some p := by
  cases found : w.find? name with
  | some c =>
    obtain ⟨k, there, -⟩ := World.find?_some found
    obtain ⟨s, u, e', described', above', -, shape, -⟩ := governed.defined used found there
    rw [described] at described'
    cases described'
    rw [above] at above'
    cases above'
    have below : w.superclass? c = some p := by
      rw [World.superclass?_of_class? there, shape]
      rfl
    have registered : (Action.registerDefined name p t d.slots).run w = _ :=
      Action.register_found found
    exact ⟨c, w, Action.defineClass_registered rfl known inherited registered below, below⟩
  | none =>
    have registered : (Action.registerDefined name p t d.slots).run w = _ :=
      Action.register_fresh found
    have has : w.table? p = some t := by rw [World.table?_of_class? known, inherited]
    have contract := Action.register_ends (P := .any) (E := fun _ _ => True)
      (.definition name d.slots has) fun _ _ => trivial
    obtain ⟨-, -, -, before | ⟨k, there, shape⟩⟩ := contract.of_ok governed.well registered
    · have impossible := found.symm.trans before
      cases impossible
    · have below := World.superclass?_of_class? there
      rw [shape] at below
      exact ⟨_, _, Action.defineClass_registered rfl known inherited registered below, below⟩

end Governed

end Definitions

/-- A class under the key of the descriptor is described by it. -/
def World.Shows (w : World) (d : Descriptor) : Prop :=
  ∀ ⦃c k⦄, w.find? d.key = some c → w.class? c = some k → w.describe k = d

namespace ClassTerm

/-- Evaluating the expression gives the class under the key of the descriptor, or fails at the
primitive type, as the definitions allow and for good. -/
def Yields (Γ : Definitions) (E : ClassTerm) (w : World) : Except Text Descriptor → Prop
  | .ok d => ∃ c w', E.evaluate.run w = (.ok c, w') ∧ Evolves Γ.policy w w' ∧
    E.evaluate.Settled (.ok c) w' ∧ w'.find? d.key = some c
  | .error name => ∃ w', E.evaluate.run w = (.error (.crash (.cannotExtend name)), w') ∧
    Evolves Γ.policy w w' ∧ E.evaluate.Settled (.error (.crash (.cannotExtend name))) w'

/-- In every world that the definitions govern the expression stands for this descriptor. -/
structure Denotes (Γ : Definitions) (E : ClassTerm) (r : Except Text Descriptor) : Prop where
  yields : ∀ {w}, Γ.Governs w → E.Yields Γ w r
  shows : ∀ {w d}, Γ.Governs w → r = .ok d → w.Shows d

section Terms
variable {Γ : Definitions}

theorem denotes_builtin (b : Builtin) : (builtin b).Denotes Γ (.ok b.descriptor) := by
  have key : b.descriptor.key = b.name := by
    rcases b with (_ | _ | _) | _ | _ <;> rfl
  constructor
  · intro w governed
    obtain ⟨c, w', ran, run, found⟩ := (Builtin.find_ends (P := Γ.policy) b).returns governed.well
    exact ⟨c, w', ran, run, Builtin.find_settled ran, key ▸ found⟩
  · intro w d governed same c k found known
    cases same
    rw [key] at found
    exact governed.well.describe_builtin governed.keeps found known

theorem Denotes.returns {E : ClassTerm} {d : Descriptor} (denotes : E.Denotes Γ (.ok d)) {w : World}
    (governed : Γ.Governs w) :
    ∃ c k w', E.evaluate.run w = (.ok c, w') ∧ Evolves Γ.policy w w' ∧
      E.evaluate.Settled (.ok c) w' ∧ w'.find? d.key = some c ∧ w'.class? c = some k ∧
      w'.describe k = d := by
  obtain ⟨c, w', ran, run, settled, found⟩ := denotes.yields governed
  obtain ⟨k, known, -⟩ := World.find?_some found
  have shown := denotes.shows (governed.evolve run) rfl found known
  exact ⟨c, k, w', ran, run, settled, found, known, shown⟩

theorem Denotes.of_array {component : ClassTerm} {d : Descriptor}
    (inner : component.Denotes Γ (.ok d)) (rank : Rank) :
    (array rank component).Denotes Γ (.ok (d.arrays rank)) := by
  constructor
  · intro w governed
    obtain ⟨c, k, w₁, ran, run, settled, -, known, rfl⟩ := inner.returns governed
    obtain ⟨a, w₂, arrays, run', found⟩ :=
      (Action.arraysOf_ends (P := Γ.policy) rank known).returns (governed.evolve run).well
    refine ⟨a, w₂, ?_, run.trans run', ?_, ?_⟩
    · rw [evaluate, run_bind, ran]
      exact arrays
    · exact (settled.mono run'.grows).bind
        (Action.arraysOf_settled (run'.grows.class? known) found)
    · rw [Descriptor.arrays_key, World.describe_code]
      exact found
  · intro w e governed same a l found known
    cases same
    have well := governed.well
    have plain := governed.plainNames
    rw [Descriptor.arrays_key] at found
    obtain ⟨l', b, s, m, known', shape, inside, code⟩ := well.array_of_key plain found
    rw [known] at known'
    cases known'
    -- The component has the element code of the class that its expression gives.
    obtain ⟨c, k, w₁, -, run, -, -, there, rfl⟩ := inner.returns governed
    rw [World.describe_code] at code
    obtain ⟨name, primitive⟩ := (run.wellFormed well).name_of_descriptor
      (run.grows.class? inside) there code
    rw [well.describe_array plain known shape inside]
    apply Descriptor.arrays_congr name primitive
    rw [World.describe_code, World.describe_code, code]

theorem Denotes.of_define {superclass : ClassTerm} {d : Descriptor} {layout : List Text}
    (inner : superclass.Denotes Γ (.ok d)) (described : superclass.describe = .ok d)
    (slotted : d.slots = some layout) {name : Text} {slots : List Text}
    (used : Γ.find? name = some ⟨superclass, slots⟩) :
    (define name superclass slots).Denotes Γ (.ok
      { name, superclass := d.name, slots := some (DispatchTable.extendLayout layout slots) }) := by
  constructor
  · intro w governed
    obtain ⟨p, l, w₁, ran, run, settled, above, known, rfl⟩ := inner.returns governed
    obtain ⟨t, inherited, -⟩ := Option.map_eq_some_iff.mp slotted
    obtain ⟨c, w₂, defined, below⟩ :=
      (governed.evolve run).defines used described above known inherited
    have contract : Action.Orderly Γ.policy (Action.defineClass name (some p) slots) w₁
        (fun c w' => w'.find? name = some c) := by
      apply Action.defineClass_ends
      rintro s w' grown (given | ⟨missing, -⟩)
      · cases given
        exact ⟨_, _, used, rfl, described, grown.find? above⟩
      · cases missing
    obtain ⟨run', found⟩ := contract.of_ok (governed.evolve run).well defined
    refine ⟨c, w₂, ?_, run.trans run', ?_, found⟩
    · rw [evaluate, run_bind, ran]
      exact defined
    · exact (settled.mono run'.grows).bind
        (Action.defineClass_settled (run'.grows.class? known) inherited found below)
  · intro w e governed same c k found known
    cases same
    obtain ⟨s, t, e, described', above, inherited, shape, table⟩ :=
      governed.defined used found known
    rw [described] at described'
    cases described'
    obtain ⟨l, there, -⟩ := World.find?_some above
    cases inner.shows governed rfl above there
    have title := governed.well.name_of_find (Γ.plain used) found known
    rw [World.describe_derived shape there table, title]
    have has := World.table?_of_class? there
    rw [inherited] at has
    have slots := slotted
    rw [World.describe, ← has] at slots
    cases slots
    rfl

theorem Denotes.of_primitive {superclass : ClassTerm} {d : Descriptor}
    (inner : superclass.Denotes Γ (.ok d)) (unslotted : d.slots = none) (name : Text)
    (slots : List Text) : (define name superclass slots).Denotes Γ (.error d.name) := by
  refine ⟨?_, fun _ impossible => nomatch impossible⟩
  intro w governed
  obtain ⟨p, l, w₁, ran, run, settled, -, known, rfl⟩ := inner.returns governed
  have primitive : l.table = none := Option.map_eq_none_iff.mp unslotted
  have refused : (Action.defineClass name (some p) slots).Settled _ w₁ :=
    Action.defineClass_refused known primitive
  refine ⟨w₁, ?_, run, settled.bind refused⟩
  rw [evaluate, run_bind, ran]
  exact refused.run

theorem Denotes.of_error {E inner : ClassTerm} {name : Text}
    (failed : inner.Denotes Γ (.error name)) {next : ClassId → Action ClassId}
    (evaluates : E.evaluate = inner.evaluate >>= next) : E.Denotes Γ (.error name) := by
  refine ⟨?_, fun _ impossible => nomatch impossible⟩
  intro w governed
  obtain ⟨w', ran, run, settled⟩ := failed.yields governed
  refine ⟨w', ?_, run, ?_⟩
  · rw [evaluates, run_bind, ran]
  · rw [evaluates]
    exact settled.bind_error

/-- An expression over the definitions stands for the descriptor that is read off it. -/
theorem Within.denotes {E : ClassTerm} (within : E.Within Γ.find?) : E.Denotes Γ E.describe := by
  induction E with
  | builtin b => exact denotes_builtin b
  | array rank component ih =>
    have inner := ih within
    rw [describe]
    cases described : component.describe with
    | error name =>
      rw [described] at inner
      exact inner.of_error rfl
    | ok d =>
      rw [described] at inner
      exact inner.of_array rank
  | define name superclass slots ih =>
    have inner := ih within.2
    rw [describe]
    cases described : superclass.describe with
    | error name =>
      rw [described] at inner
      exact inner.of_error rfl
    | ok d =>
      rw [described] at inner
      dsimp only [bind, Except.bind]
      cases slotted : d.slots with
      | none => exact inner.of_primitive slotted name slots
      | some layout => exact inner.of_define described slotted within.1

/-- The class that an expression over the definitions gives is under the key of its descriptor, and
was there before if it existed before. -/
theorem Within.find_key {E : ClassTerm} (within : E.Within Γ.find?) {w : World}
    (governed : Γ.Governs w) {c : ClassId} (gives : (E.evaluate.run w).1 = .ok c)
    (old : c < w.classes.size) : ∃ d, E.describe = .ok d ∧ w.find? d.key = some c := by
  have denotes := within.denotes
  cases described : E.describe with
  | error name =>
    rw [described] at denotes
    obtain ⟨w', ran, -⟩ := denotes.yields governed
    rw [ran] at gives
    cases gives
  | ok d =>
    rw [described] at denotes
    obtain ⟨c', w', ran, run, -, found⟩ := denotes.yields governed
    rw [ran] at gives
    cases gives
    obtain ⟨k, known, key⟩ := World.find?_some found
    obtain ⟨k', known'⟩ := World.class?_of_lt old
    have same := (run.grows.class? known').symm.trans known
    cases same
    refine ⟨d, rfl, ?_⟩
    rw [← key]
    exact governed.well.keyed known'

end Terms

end ClassTerm

namespace Script

/-- A definition begun in the session is one of the definitions: its name is among them, its slots
are the same, and its superclass operand evaluates to the class that the superclass expression
gives. Nothing is asked of the other operations. -/
def Op.Follows (Γ : Definitions) (s : Session) : Op → Prop
  | .classes (.define name superclass slots) =>
    ∀ parent ∈ ((Eval.classOperand superclass).run s).1.toOption, ∃ d ∈ Γ.find? name,
      d.slots = slots ∧ d.superclass.Gives ((Eval.classOperand superclass).run s).2.world parent
  | _ => True

instance (Γ : Definitions) (s : Session) (op : Op) : Decidable (op.Follows Γ s) := by
  unfold Op.Follows
  split <;> infer_instance

section Following
variable {Γ : Definitions} {s : Session}

theorem permits_policy {op : Op}
    (other : ∀ name superclass slots, op ≠ .classes (.define name superclass slots)) :
    Γ.policy.Permits s.world op := by
  intro w e causes
  unfold Op.Causes at causes
  split at causes
  · exact absurd rfl (other _ _ _)
  all_goals trivial

/-- The superclass that is looked for is under the key of the superclass expression. -/
theorem superclass_under_key {E : ClassTerm} (within : E.Within Γ.find?) {w : World}
    (governed : Γ.Governs w) {parent : Option ClassId} (gives : E.Gives w parent)
    (valid : w.Knows parent) : ∃ e, E.describe = .ok e ∧ ∀ p w', Grows w w' →
      (parent = some p ∨ parent = none ∧ w'.find? (Core.name .object) = some p) →
      w'.find? e.key = some p := by
  cases parent with
  | none =>
    cases gives
    refine ⟨_, rfl, ?_⟩
    rintro p w' - (impossible | ⟨-, found⟩)
    · cases impossible
    · exact found
  | some c =>
    obtain ⟨e, described, found⟩ := within.find_key governed gives (valid c rfl)
    refine ⟨e, described, ?_⟩
    rintro p w' grown (given | ⟨impossible, -⟩)
    · cases given
      exact grown.find? found
    · cases impossible

theorem define_ends {name : Text} {superclass : ClassExpr} {slots : List Text}
    (follows : (Op.classes (.define name superclass slots)).Follows Γ s)
    (governed : Γ.Governs s.world) :
    Eval.Ends Γ.policy (Eval.classes (.define name superclass slots)) s Answers := by
  intro valid
  have operand : Eval.Ends Γ.policy (Eval.classOperand superclass) s (fun c w => w.Knows c) :=
    Eval.classOperand_ends superclass
  refine operand.bind_run (fun parent s' ran _ knows => ?_) valid
  have evolved := (operand valid).1
  rw [Op.Follows, ran] at follows
  rw [ran] at evolved
  obtain ⟨d, used, same, gives⟩ := follows parent rfl
  obtain ⟨e, described, above⟩ :=
    superclass_under_key (Γ.closed used) (governed.evolve evolved) gives knows
  have contract : Action.Orderly Γ.policy (Action.defineClass name parent slots) s'.world
      (fun c w' => w'.find? name = some c) := by
    apply Action.defineClass_ends
    intro p w' grown origin
    exact ⟨d, e, used, same, described, above p w' grown origin⟩
  exact (Eval.Ends.act contract).andThen fun c _ => Eval.ofClass_ends (some c)

/-- Whatever an operation does that keeps to the definitions, it leaves a world that they govern. -/
theorem Op.Follows.governs {op : Op} (follows : op.Follows Γ s) (valid : s.Valid)
    (governed : Γ.Governs s.world) (result : Option Name) :
    Γ.Governs (s.performOp op result).2.world := by
  have ends : Eval.Ends Γ.policy (Eval.perform op) s Answers := by
    by_cases defines : ∃ name superclass slots, op = .classes (.define name superclass slots)
    · obtain ⟨name, superclass, slots, rfl⟩ := defines
      exact define_ends follows governed
    · apply Eval.perform_ends
      apply permits_policy
      intro name superclass slots same
      exact defines ⟨name, superclass, slots, same⟩
  exact governed.evolve (Session.Moves.of_ends valid ends result).evolved

theorem Session.Runs.governs {s' : Session} {done : List Performed} (run : s.Runs done s')
    (valid : s.Valid) (governed : Γ.Governs s.world)
    (follows : ∀ p ∈ done, p.op.Follows Γ p.before) : Γ.Governs s'.world := by
  induction run with
  | refl => exact governed
  | perform run op result ih =>
    have before := ih fun p member => follows p (List.mem_append_left _ member)
    have last : op.Follows Γ _ := follows _ (List.mem_append_right _ (List.mem_singleton_self _))
    exact last.governs (run.valid valid) before result
  | bind _ name _ ih =>
    rw [Session.bind_world]
    exact ih follows

end Following

def shapeTerm : ClassTerm := .define "Shape" (.builtin (.core .object)) ["draw"]

def boardTerm : ClassTerm := .define "Board" (.array .two shapeTerm) ["at", "equals"]

/-- Shapes below the root class, boards below the two-dimensional arrays of shapes, and the sample
classes. -/
def boardEntries : List (Text × Definition) :=
  ("Shape", ⟨.builtin (.core .object), ["draw"]⟩) ::
    ("Board", ⟨.array .two shapeTerm, ["at", "equals"]⟩) ::
    [Sample.point, .colorPoint, .alphaPoint, .list].map fun s => (s.name, ⟨s.superclass, s.slots⟩)

theorem boardEntries_sound {name : Text} {d : Definition}
    (found : boardEntries.lookup name = some d) : name.IsPlain ∧
      (∀ b ∈ Builtin.all, name ≠ b.name) ∧ d.superclass.Within (boardEntries.lookup ·) := by
  have each : ∀ e ∈ boardEntries, e.1.IsPlain ∧ (∀ b ∈ Builtin.all, e.1 ≠ b.name) ∧
      e.2.superclass.Within (boardEntries.lookup ·) := by
    decide +kernel
  obtain ⟨before, after, entries, -⟩ := List.lookup_eq_some_iff.mp found
  exact each (name, d) (entries ▸ List.mem_append_right before List.mem_cons_self)

def boards : Definitions where
  find? name := boardEntries.lookup name
  plain found := (boardEntries_sound found).1
  fresh found b := (boardEntries_sound found).2.1 b b.mem_all
  closed found := (boardEntries_sound found).2.2
  samples s := by
    cases s <;> decide

/-- A script that asks for an array class, defines shapes and boards until a fault ends the attempt,
releases an object, creates the built-in classes and defines shapes once more. -/
def crowdedBoards : List Step :=
  [.perform (.classes (.value (.array (.named (.primitive .int))))) none none,
    .attempt [
      .perform (.classes (.define "Shape" .null ["draw"])) (some "shape") none,
      .perform (.classes (.define "Board" (.grid (.variable "shape")) ["at", "equals"])) none none,
      .perform (.string (.length .null)) none none] none (some "fault"),
    .perform (.object .newObject) (some "object") none,
    .perform (.object (.release (.variable "object"))) none none,
    .perform (.classes .bootstrap) none none,
    .perform (.classes (.define "Shape" (.named (.core .object)) ["draw"])) none none]

end Script

end ObjectModel
