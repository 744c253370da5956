import ObjectModel.Proofs.Description
import ObjectModel.Proofs.Displacement
import ObjectModel.Proofs.Views

/-!
Exception kinds and exception classes. The kinds form a hierarchy of their own, and each has a
class, found by its name and created when it is first asked for. As long as no definition makes a
class under a built-in name the classes repeat the hierarchy of the kinds: the superclasses of the
class of a kind are the classes of the kinds above it and the root class, so an exception is an
instance of exactly these classes.
-/

namespace ObjectModel

namespace Kind

theorem above_of_parent {k p : Kind} (parent : k.parent? = some p) : k.above = p :: p.above := by
  cases k <;> cases parent <;> rfl

theorem above_of_top {k : Kind} (top : k.parent? = none) : k.above = [] := by
  cases k <;> first | rfl | cases top

theorem isA_iff {k other : Kind} : k.isA other = true ↔ other = k ∨ other ∈ k.above := by
  rw [isA, Bool.or_eq_true, beq_iff_eq, List.contains_iff_mem, eq_comm]

theorem code_kind? (k : Kind) : KindCode.kind? k.code = some k := by
  cases k <;> rfl

theorem code_isA (k other : Kind) : KindCode.isA k.code other.code = k.isA other := by
  simp [KindCode.isA, code_kind?]

/-- The codes below nine are the codes of the kinds. -/
theorem eq_code {code : KindCode} (below : code < 9) : ∃ k : Kind, code = k.code := by
  have each : ∀ n : Fin 9, ∃ k ∈ Kind.all, UInt8.ofNat n.val = k.code := by decide
  have bound : code.toNat < 9 := below
  obtain ⟨k, -, same⟩ := each ⟨code.toNat, bound⟩
  exact ⟨k, by rw [← same, UInt8.ofNat_toNat]⟩

end Kind

/-- Anything may happen but a definition under a built-in name. -/
def Policy.native : Policy := ⟨fun _ e => ∀ (b : Builtin) s slots, e ≠ .define b.name s slots⟩

/-- Definitions use a built-in name only if it was in use before. -/
def Policy.nativeSince (begun : World) : Policy :=
  ⟨fun _ e => ∀ (b : Builtin) s slots, e = .define b.name s slots → begun.find? b.name ≠ none⟩

instance (begun : World) : (Policy.nativeSince begun).Samples where
  allow := by
    intro w s c _ b d slots same
    exact absurd (Event.define.inj same).1 (s.name_ne_builtin b)

theorem Policy.permits_nativeSince {begun w : World} {op : Script.Op}
    (used : ∀ (b : Builtin) superclass slots, op = .classes (.define b.name superclass slots) →
      begun.find? b.name ≠ none) : (Policy.nativeSince begun).Permits w op := by
  intro _ e causes b s slots same
  unfold Script.Op.Causes at causes
  split at causes
  · obtain ⟨rfl, rfl⟩ := causes
    obtain ⟨name, -, -⟩ := Event.define.inj same
    exact used b _ _ (by rw [name])
  all_goals contradiction

section Definitions
variable {begun w w' : World} {b : Builtin}

/-- A definition under a name in use makes no class. -/
theorem Change.native (change : Change (.nativeSince begun) w w') (grown : Grows begun w) :
    Change .native w w' := by
  cases change with
  | log m => exact .log m
  | allocate born => exact .allocate born
  | create fresh made allowed =>
    refine .create fresh made ?_
    rintro e cause b s slots rfl
    cases cause
    cases made with
    | definition _ _ _ =>
      obtain ⟨c, found⟩ := Option.ne_none_iff_exists'.mp (allowed _ rfl b s slots rfl)
      have taken := grown.find? found
      have free : w.find? b.name = none := fresh
      rw [free] at taken
      cases taken
  | store held inside typed valid fits => exact .store held inside typed valid fits nofun
  | storeAt held here inside typed valid fits =>
    exact .storeAt held here inside typed valid fits nofun
  | drop id => exact .drop id nofun
  | release id => exact .release id nofun
  | record name h => exact .record name h nofun
  | options o => exact .options o nofun
  | threshold t => exact .threshold t nofun

theorem Evolves.native (run : Evolves (.nativeSince begun) begun w) : Evolves .native begun w := by
  induction run with
  | refl => exact .refl
  | tail _ change ih => exact .tail ih (change.native (Evolves.grows ih))

theorem Evolves.keeps_native (run : Evolves .native w w') (well : w.WellFormed)
    (kept : w.Keeps b) : w'.Keeps b := by
  refine run.keeps (fun _ allowed => allowed) ?_ well kept
  intro _ s slots allowed
  exact allowed b s slots rfl

end Definitions

namespace World

section Classes
variable {w : World} {c d : ClassId}

theorem WellFormed.superclasses_root (well : w.WellFormed)
    (found : w.find? (Core.name .object) = some c) : w.superclasses c = [] := by
  obtain ⟨k, known, shape, -⟩ := well.root_of_find found
  apply superclasses_top
  rw [superclass?_of_class? known, shape]
  rfl

/-- The superclasses of the class of a kind are the classes of the kinds above it, nearest first,
and the root class. -/
theorem WellFormed.superclasses_kind (well : w.WellFormed) (kept : ∀ k, w.Keeps (.kind k))
    (kind : Kind) {c : ClassId} (found : w.find? kind.name = some c) :
    ∃ cs r, w.superclasses c = cs ++ [r] ∧ w.find? (Core.name .object) = some r ∧
      kind.above.map (fun k => w.find? k.name) = cs.map some := by
  obtain ⟨k, known, -⟩ := find?_some found
  obtain ⟨s, t, higher, -, shape, -⟩ := kept kind found known
  have above : w.Above c s := by
    rw [Above, superclass?_of_class? known, shape]
    rfl
  rw [well.superclasses_above above]
  rw [Kind.superclassKey] at higher
  cases parent : kind.parent? with
  | none =>
    rw [parent] at higher
    refine ⟨[], s, ?_, higher, ?_⟩
    · rw [well.superclasses_root higher]
      rfl
    · rw [Kind.above_of_top parent]
      rfl
  | some p =>
    rw [parent] at higher
    have shorter := Kind.above_length parent
    obtain ⟨cs, r, chain, root, classes⟩ := superclasses_kind well kept p higher
    refine ⟨s :: cs, r, ?_, root, ?_⟩
    · rw [chain]
      rfl
    · have first : w.find? p.name = some s := higher
      rw [Kind.above_of_parent parent]
      simp [first, classes]
termination_by kind.above.length

/-- The class of a kind is below the root class, the classes of the kinds that it is, and nothing
else. -/
theorem WellFormed.isSubclass_kind (well : w.WellFormed) (kept : ∀ k, w.Keeps (.kind k))
    {kind : Kind} (found : w.find? kind.name = some c) : w.isSubclass c d = true ↔
      w.find? (Core.name .object) = some d ∨
        ∃ k, kind.isA k = true ∧ w.find? k.name = some d := by
  obtain ⟨cs, r, chain, root, classes⟩ := well.superclasses_kind kept kind found
  have own : c = d ↔ w.find? kind.name = some d := by simp [found]
  have middle : d ∈ cs ↔ ∃ k ∈ kind.above, w.find? k.name = some d := by
    have member : some d ∈ kind.above.map (fun k => w.find? k.name) ↔ d ∈ cs := by simp [classes]
    rw [← member, List.mem_map]
  have top : d = r ↔ w.find? (Core.name .object) = some d := by simp [root, eq_comm]
  simp only [isSubclass_eq, chain, Bool.or_eq_true, beq_iff_eq, List.contains_iff_mem,
    List.mem_append, List.mem_singleton, own, middle, top, Kind.isA_iff]
  grind

theorem WellFormed.isSubclass_kinds (well : w.WellFormed) (kept : ∀ k, w.Keeps (.kind k))
    {kind k : Kind} (found : w.find? kind.name = some c) (found' : w.find? k.name = some d) :
    w.isSubclass c d = kind.isA k := by
  rw [Bool.eq_iff_iff, well.isSubclass_kind kept found]
  constructor
  · rintro (root | ⟨k', isA, same⟩)
    · have name : (Builtin.core .object).name = (Builtin.kind k).name :=
        find?_injective root found'
      cases Builtin.name_injective name
    · have name : (Builtin.kind k').name = (Builtin.kind k).name := find?_injective same found'
      cases Builtin.name_injective name
      exact isA
  · intro isA
    exact .inr ⟨k, isA, found'⟩

/-- An exception has the class under the name of its kind. -/
theorem WellFormed.classOf_exception (well : w.WellFormed) {id : ObjectId} {kind : Kind}
    {message : Text} (made : w.exception? id = some (kind, message)) :
    ∃ c, w.classOf? id = some c ∧ w.find? kind.name = some c := by
  unfold exception? at made
  split at made
  · rename_i k m held
    cases made
    obtain ⟨o, there, body⟩ := Option.map_eq_some_iff.mp held
    cases well.born there with
    | metaclass _ _ _ other =>
      rw [body] at other
      cases other
    | allocation born kin =>
      rw [body] at kin
      cases kin
      rw [classOf?, there, Option.bind_some]
      generalize o.table = table at born
      cases born with
      | @exception c _ _ _ found own => exact ⟨c, well.owner_of_table own, found⟩
      | member _ sound => cases sound
  · cases made

end Classes

end World

namespace Action
variable {w : World}

theorem kindClasses_found {kinds : List Kind} (s : ClassId)
    (found : ∀ k ∈ kinds, ∃ c, w.find? k.name = some c) :
    ∃ c, (kinds.foldlM kindClassUnder s).run w = (.ok c, w) := by
  induction kinds generalizing s with
  | nil => exact ⟨s, rfl⟩
  | cons k rest ih =>
    obtain ⟨c, there⟩ := found k List.mem_cons_self
    obtain ⟨d, others⟩ := ih c fun k member => found k (List.mem_cons_of_mem _ member)
    refine ⟨d, ?_⟩
    rw [List.foldlM_cons, run_bind, run_kindClassUnder, register_found there]
    exact others

/-- Asking for the class of a kind that has one changes nothing: the kinds above have theirs. -/
theorem kindClass_found (well : w.WellFormed) (kept : ∀ k, w.Keeps (.kind k)) {kind : Kind}
    {c : ClassId} (found : w.find? kind.name = some c) : (kindClass kind).run w = (.ok c, w) := by
  obtain ⟨cs, r, -, root, classes⟩ := well.superclasses_kind kept kind found
  have above : ∀ k ∈ kind.above.reverse, ∃ d, w.find? k.name = some d := by
    intro k member
    have mapped : w.find? k.name ∈ cs.map some := by
      rw [← classes]
      exact List.mem_map_of_mem (List.mem_reverse.mp member)
    obtain ⟨d, -, there⟩ := List.mem_map.mp mapped
    exact ⟨d, there.symm⟩
  obtain ⟨s, ran⟩ := kindClasses_found r above
  unfold kindClass
  rw [run_bind, objectClass, register_found root]
  dsimp only
  rw [List.reverse_cons, List.foldlM_append, run_bind, ran]
  dsimp only
  rw [List.foldlM_cons, run_bind, run_kindClassUnder, register_found found]
  rfl

theorem kindClass_iff (well : w.WellFormed) (kept : ∀ k, w.Keeps (.kind k)) {kind : Kind}
    {c : ClassId} : (kindClass kind).run w = (.ok c, w) ↔ w.find? kind.name = some c := by
  constructor
  · intro ran
    exact ((kindClass_ends (P := .any) (E := fun _ _ => True) kind).of_ok well ran).2
  · exact kindClass_found well kept

theorem objectClass_iff {c : ClassId} :
    objectClass.run w = (.ok c, w) ↔ w.find? (Core.name .object) = some c := by
  constructor
  · intro ran
    exact (register_ok ran).2
  · intro found
    unfold objectClass
    exact register_found found

end Action

namespace Script

theorem Eval.run_exceptionParts {w : World} {id : ObjectId} {kind : Kind} {message : Text}
    (made : w.exception? id = some (kind, message)) :
    (exceptionParts (some id)).run w = (.ok (kind, message), w) := by
  unfold exceptionParts
  rw [run_get_bind]
  change (Action.demand (w.exception? id)).run w = _
  rw [made]
  rfl

/-- The sessions that scripts reach without making a class of their own under a built-in name. -/
inductive Session.Native : Session → Prop where
  | start (files : FileSystem) (verbosity : Int) :
      Native (Session.withVerbosity { files } verbosity)
  | step {s : Session} (native : Native s) (step : Step)
      (own : Evolves .native s.world (s.run step).2.world) : Native (s.run step).2

namespace Session.Native
variable {s : Session}

theorem reachable (native : s.Native) : s.Reachable := by
  induction native with
  | start files verbosity => exact .start files verbosity
  | step _ step _ reached => exact reached.step step

theorem keeps (native : s.Native) (b : Builtin) : s.world.Keeps b := by
  induction native with
  | start files verbosity =>
    intro c k found
    exact absurd (World.lt_of_find? found) (Nat.not_lt_zero c)
  | step native step own kept => exact own.keeps_native native.reachable.valid.well kept

/-- A step that defines built-in names only where they are in use makes no class under one. -/
theorem step_of_used (native : s.Native) (step : Step)
    (used : ∀ (b : Builtin) superclass slots,
      step.Uses (.classes (.define b.name superclass slots)) → s.world.find? b.name ≠ none) :
    (s.run step).2.Native := by
  have permitted : ∀ op, step.Uses op → ∀ w, (Policy.nativeSince s.world).Permits w op := by
    intro op uses w
    apply Policy.permits_nativeSince
    rintro b superclass slots rfl
    exact used b superclass slots uses
  exact native.step step (run_moves step native.reachable.valid permitted).evolved.native

/-- In every session that a script reaches without making a class of its own under a built-in name,
kinds and classes agree on every exception: its class is the class of its kind, under the name of
the kind; it is an instance of the class of a kind, which may be created for the question, exactly
if it is of that kind; and of the classes that exist it is an instance of the root class and the
classes of the kinds that its own kind is, and of no other. -/
theorem kinds_classes_agree (native : s.Native) {id : ObjectId} {kind : Kind} {message : Text}
    (made : s.world.exception? id = some (kind, message)) (v : View) :
    (∃ c, (Action.objectGetClass (.object id v)).run s.world = (.ok (some c), s.world) ∧
      (Action.kindClass kind).run s.world = (.ok c, s.world) ∧
      (Action.className (some c)).run s.world = (.ok kind.name, s.world)) ∧
    (∀ code : KindCode, code < 9 →
      (do return KindCode.isA (← Eval.exceptionParts (some id)).1.code code : Action Bool).run
        s.world = (.ok (KindCode.isA kind.code code), s.world) ∧
      ∃ c w, (do Action.kindClass (← Action.kindOfCode code) : Action ClassId).run s.world =
          (.ok c, w) ∧
        (Action.isInstance (some c) (.object id v)).run w =
          (.ok (KindCode.isA kind.code code), w)) ∧
    ∀ d, ∃ b, (Action.isInstance (some d) (.object id v)).run s.world = (.ok b, s.world) ∧
      (b = true ↔ Action.objectClass.run s.world = (.ok d, s.world) ∨
        ∃ k, kind.isA k = true ∧ (Action.kindClass k).run s.world = (.ok d, s.world)) := by
  have well := native.reachable.valid.well
  have kept (k : Kind) := native.keeps (.kind k)
  obtain ⟨c, resolved, found⟩ := well.classOf_exception made
  have classed := well.getClass_resolved resolved v
  refine ⟨?_, ?_, ?_⟩
  · obtain ⟨l, known, -⟩ := World.find?_some found
    refine ⟨c, classed, Action.kindClass_found well kept found, ?_⟩
    rw [Action.run_className known, well.name_of_find kind.name_plain found known]
  · intro code below
    obtain ⟨k, rfl⟩ := Kind.eq_code below
    constructor
    · rw [run_bind, Eval.run_exceptionParts made]
      rfl
    · obtain ⟨d, w, ran, run, there⟩ :=
        (Action.kindClass_ends (P := .native) (E := fun _ _ => False) k).returns well
      have well' := run.wellFormed well
      have grown := run.grows
      have kept' (k : Kind) := run.keeps_native well (kept k)
      refine ⟨d, w, ?_, ?_⟩
      · rw [Action.kindOfCode, Kind.code_kind?]
        exact ran
      · rw [Action.isInstance_classed (well'.getClass_resolved (grown.classOf? resolved) v)]
        rw [World.isSubclassOf, well'.isSubclass_kinds kept' (grown.find? found) there,
          Kind.code_isA]
  · intro d
    refine ⟨s.world.isSubclass c d, Action.isInstance_classed classed (some d), ?_⟩
    simp only [well.isSubclass_kind kept found, Action.objectClass_iff,
      Action.kindClass_iff well kept]

end Session.Native

/-- A script that makes an exception, defines the name of a class above its own once more, defines a
class below that of a kind, and then fails a bounds check, which makes the class of a lower kind. -/
def extendedKinds : List Step :=
  [.perform (.exception (.new 3 "n")) (some "e") none,
    .perform (.classes (.define "java.lang.Throwable" .null [])) none none,
    .perform (.classes (.define "app.Failure" (.kind 7) ["draw"])) none none,
    .perform (.array (.newArray none (.named (.primitive .int)) 1)) (some "a") none,
    .perform (.array (.get (.variable "a") 5)) none (some "f")]

theorem failure_ne_builtin (b : Builtin) : b.name ≠ "app.Failure" := by
  have each : ∀ b ∈ Builtin.all, b.name ≠ "app.Failure" := by decide
  exact each b b.mem_all

theorem extendedKinds_native : ((Session.withVerbosity {} 0).runAll extendedKinds).2.Native := by
  have next {op : Op} {result caught : Option Name} {s : Session} (native : s.Native)
      (used : ∀ (b : Builtin) superclass slots, op = .classes (.define b.name superclass slots) →
        s.world.find? b.name ≠ none) : (s.run (.perform op result caught)).2.Native := by
    refine native.step_of_used _ fun b superclass slots uses => ?_
    cases uses
    exact used b superclass slots rfl
  refine next (next (next (next (next (.start {} 0) nofun) ?_) ?_) nofun) nofun
  · intro b superclass slots same
    have name : (Builtin.kind .throwable).name = b.name :=
      (ClassOp.define.inj (Op.classes.inj same)).1
    cases Builtin.name_injective name
    decide +kernel
  · intro b superclass slots same
    exact absurd (ClassOp.define.inj (Op.classes.inj same)).1.symm (failure_ne_builtin b)

theorem kinds_classes_agree_extendedKinds :
    let s := ((Session.withVerbosity {} 0).runAll extendedKinds).2
    s.Native ∧ (s.world.exception? 22).map Prod.fst = some .arrayIndexOutOfBounds ∧
      s.world.find? (Kind.name .indexOutOfBounds) = some 5 ∧
      s.world.find? "app.Failure" = some 6 ∧
      (Action.isInstance (some 5) (.object 22 .exception)).run s.world = (.ok true, s.world) ∧
      (Action.isInstance (some 6) (.object 22 .exception)).run s.world = (.ok false, s.world) := by
  intro s
  have native : s.Native := extendedKinds_native
  have well := native.reachable.valid.well
  have kept (k : Kind) := native.keeps (.kind k)
  have kind : (s.world.exception? 22).map Prod.fst = some .arrayIndexOutOfBounds := by
    decide +kernel
  obtain ⟨⟨_, message⟩, made, rfl⟩ := Option.map_eq_some_iff.mp kind
  obtain ⟨-, -, instances⟩ := native.kinds_classes_agree made .exception
  have above : s.world.find? (Kind.name .indexOutOfBounds) = some 5 := by decide +kernel
  have below : s.world.find? "app.Failure" = some 6 := by decide +kernel
  refine ⟨native, kind, above, below, ?_, ?_⟩
  · obtain ⟨b, ran, instance_iff⟩ := instances 5
    rw [ran, instance_iff.mpr (.inr ⟨.indexOutOfBounds, rfl, ?_⟩)]
    exact Action.kindClass_found well kept above
  · obtain ⟨b, ran, instance_iff⟩ := instances 6
    have apart : b ≠ true := by
      intro holds
      have other (b : Builtin) : s.world.find? b.name ≠ some 6 := by
        intro found
        exact failure_ne_builtin b (World.find?_injective found below)
      rcases instance_iff.mp holds with root | ⟨k, -, found⟩
      · exact other (.core .object) (Action.objectClass_iff.mp root)
      · exact other (.kind k) ((Action.kindClass_iff well kept).mp found)
    rw [ran, Bool.eq_false_iff.mpr apart]

end Script

end ObjectModel
