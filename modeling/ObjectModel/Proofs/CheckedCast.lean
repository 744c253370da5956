import ObjectModel.Proofs.Views

/-!
What a cast decides. It checks two things that are independent of each other: that the class of the
object is below the given class, and that the object can be held as the target type, which depends
on its contents, the fields of its type and the handle alone. It returns exactly if both hold, and
then the handle it returns refers to the same object. An object that has a class makes it fail in no
other way than by a class cast exception.
-/

namespace ObjectModel

namespace CastTarget

/-- The type is that of the view, on an object with these contents. -/
inductive TypeOf (body : Body) : CastTarget → View → Prop where
  | view (v : View) : TypeOf body (.view v) v
  | array {cells : Cells} (holds : body = .array cells) : TypeOf body (.array cells.element) .array
  | grid {cells : Grid} (holds : body = .grid cells) : TypeOf body (.grid cells.element) .grid

/-- The type is an interface that the view implements. -/
inductive ImplementedBy : CastTarget → View → Prop where
  | any (v : View) : ImplementedBy .any v
  | shape {v : View} (point : v.isPoint = true) : ImplementedBy .shape v

/-- An object with these contents, held by a view, can be held as the type: the type is that of the
view or of the whole object, an interface that one of them implements, or the type of an ancestor
embedded in the whole, however deep. -/
def Represents (t : CastTarget) (v : View) (body : Body) : Prop :=
  TypeOf body t v ∨ TypeOf body t body.view ∨ ImplementedBy t v ∨ ImplementedBy t body.view ∨
    ∃ u, body.view.type.HasAncestor u ∧ TypeOf body t u

section Views
variable {t : CastTarget} {v u : View} {body : Body}

theorem accepts_iff : t.accepts v body = true ↔ TypeOf body t v ∨ ImplementedBy t v := by
  constructor
  · intro accepted
    cases t with
    | any => exact .inr (.any v)
    | shape => exact .inr (.shape accepted)
    | view u =>
      cases eq_of_beq accepted
      exact .inl (.view v)
    | array e =>
      cases body with
      | array cells =>
        obtain ⟨own, element⟩ := Bool.and_eq_true_iff.mp accepted
        cases eq_of_beq own
        cases eq_of_beq element
        exact .inl (.array rfl)
      | _ => cases accepted
    | grid e =>
      cases body with
      | grid cells =>
        obtain ⟨own, element⟩ := Bool.and_eq_true_iff.mp accepted
        cases eq_of_beq own
        cases eq_of_beq element
        exact .inl (.grid rfl)
      | _ => cases accepted
  · rintro (typed | implemented)
    · cases typed with
      | view => simp [accepts]
      | array holds => simp [accepts, holds]
      | grid holds => simp [accepts, holds]
    · cases implemented with
      | any => simp [accepts]
      | shape point => simp [accepts, point]

theorem TypeOf.concrete (typed : TypeOf body t v) : t.Concrete := by
  cases typed <;> trivial

/-- Nothing is looked for among the ancestors under an interface. -/
theorem ImplementedBy.not_isReference (implemented : ImplementedBy t v) :
    t.isReference = false := by
  cases implemented <;> rfl

theorem viewOf?_of_ancestor (ancestor : body.view.type.HasAncestor u) (typed : TypeOf body t u)
    (first : ¬ t.accepts v body = true) (whole : ¬ t.accepts body.view body = true) :
    (t.viewOf? v body).isSome := by
  have inside : u ∈ body.view.embedded := RecordType.mem_ancestors_iff.mpr ancestor
  have accepted := accepts_iff.mpr (.inl typed)
  rw [viewOf?, if_neg first, if_neg whole, if_pos (typed.concrete.isReference inside accepted),
    List.find?_isSome]
  exact ⟨u, inside, accepted⟩

theorem ancestor_of_viewOf? (chosen : t.viewOf? v body = some u)
    (first : ¬ t.accepts v body = true) (whole : ¬ t.accepts body.view body = true) :
    body.view.type.HasAncestor u ∧ TypeOf body t u := by
  rw [viewOf?, if_neg first, if_neg whole] at chosen
  split at chosen
  · rename_i references
    have accepted := List.find?_some chosen
    refine ⟨RecordType.mem_ancestors_iff.mp (List.mem_of_find?_eq_some chosen), ?_⟩
    rcases accepts_iff.mp accepted with typed | implemented
    · exact typed
    · rw [implemented.not_isReference] at references
      cases references
  · cases chosen

/-- The search finds a view exactly if the object can be held as the type. -/
theorem viewOf?_isSome_iff : (t.viewOf? v body).isSome ↔ t.Represents v body := by
  by_cases first : t.accepts v body = true
  · have represents : t.Represents v body := by
      rcases accepts_iff.mp first with typed | implemented
      · exact .inl typed
      · exact .inr (.inr (.inl implemented))
    simp [viewOf?, first, represents]
  · by_cases whole : t.accepts body.view body = true
    · have represents : t.Represents v body := by
        rcases accepts_iff.mp whole with typed | implemented
        · exact .inr (.inl typed)
        · exact .inr (.inr (.inr (.inl implemented)))
      simp [viewOf?, first, whole, represents]
    · constructor
      · intro some
        obtain ⟨u, chosen⟩ := Option.isSome_iff_exists.mp some
        exact .inr (.inr (.inr (.inr ⟨u, ancestor_of_viewOf? chosen first whole⟩)))
      · rintro (typed | typed | implemented | implemented | ⟨u, ancestor, typed⟩)
        · exact absurd (accepts_iff.mpr (.inl typed)) first
        · exact absurd (accepts_iff.mpr (.inl typed)) whole
        · exact absurd (accepts_iff.mpr (.inr implemented)) first
        · exact absurd (accepts_iff.mpr (.inr implemented)) whole
        · exact viewOf?_of_ancestor ancestor typed first whole

theorem viewOf?_fits (chosen : t.viewOf? v body = some u) :
    TypeOf body t u ∨ ImplementedBy t u :=
  accepts_iff.mp (viewOf?_some chosen).2

/-- A handle that is of the type already is taken as it is. -/
theorem viewOf?_self (fits : TypeOf body t v ∨ ImplementedBy t v) : t.viewOf? v body = some v := by
  simp [viewOf?, accepts_iff.mpr fits]

end Views

end CastTarget

namespace World

/-- How a cast of the object `o`, held by the view `v`, to the class `d` and the type `t` ends. -/
structure CheckedCast (w : World) (t : CastTarget) (d : ClassId) (id : ObjectId) (v : View)
    (o : Obj) : Prop where
  returns_iff : (∃ r w', (Action.cast t (some d) (.object id v)).run w = (.ok r, w')) ↔
    (∃ w', (Action.isInstance (some d) (.object id v)).run w = (.ok true, w')) ∧
      t.Represents v o.body
  /-- The result is of the type and refers to the object: it is the same object, of the same class
  and with the same identity. -/
  returned : ∀ {r w'}, (Action.cast t (some d) (.object id v)).run w = (.ok r, w') →
    (Action.isInstance (some d) (.object id v)).run w = (.ok true, w') ∧ ∃ u c,
      r = .object id u ∧ r.Valid w' ∧ (CastTarget.TypeOf o.body t u ∨ t.ImplementedBy u) ∧
      (CastTarget.TypeOf o.body t v ∨ t.ImplementedBy v → u = v) ∧
      (Action.objectEquals r (.object id v)).run w' = (.ok true, w') ∧
      (Action.objectGetClass (.object id v)).run w = (.ok (some c), w') ∧
      (Action.objectGetClass r).run w' = (.ok (some c), w') ∧
      (Action.objectHashCode (.object id v)).run w = (.ok (identity id), w) ∧
      (Action.objectHashCode r).run w' = (.ok (identity id), w')
  refused : o.table.Classed →
    ¬ ((∃ w', (Action.isInstance (some d) (.object id v)).run w = (.ok true, w')) ∧
      t.Represents v o.body) →
    ∃ c w' k l, (Action.objectGetClass (.object id v)).run w = (.ok (some c), w') ∧
      w'.class? c = some k ∧ w'.class? d = some l ∧
      (Action.cast t (some d) (.object id v)).Throws w .classCast
        (if w'.isSubclass c d then "class " ++ k.name ++ " cannot be represented as " ++ t.name
          else "class " ++ k.name ++ " cannot be cast to class " ++ l.name)
  unclassed : ¬ o.table.Classed →
    (Action.cast t (some d) (.object id v)).run w = (.error (.crash .nullDereference), w)

end World

namespace Action
variable {w w' : World} {id : ObjectId} {o : Obj} {c d : ClassId} {k l : Class} {v : View}
  {t : CastTarget}

theorem isInstance_true_iff (ran : (objectGetClass (.object id v)).run w = (.ok (some c), w'))
    {w₁ : World} : (isInstance (some d) (.object id v)).run w = (.ok true, w₁) ↔
      w₁ = w' ∧ w'.isSubclass c d = true := by
  rw [isInstance_classed ran]
  constructor
  · intro same
    obtain ⟨below, rfl⟩ := Prod.mk.inj same
    exact ⟨rfl, Except.ok.inj below⟩
  · rintro ⟨rfl, below⟩
    rw [← below]
    rfl

/-- An object without a class is an instance of no class. -/
theorem isInstance_unclassed (found : w.object? id = some o) (unclassed : ¬ o.table.Classed) :
    (isInstance (some d) (.object id v)).run w = (.ok false, w) ∨
      (isInstance (some d) (.object id v)).run w = (.error (.crash .nullDereference), w) := by
  have asked : (isInstance (some d) (.object id v)).run w =
      (objectGetClass (.object id v) >>= fun c => do
        return (← get).isSubclassOf c (some d)).run w := rfl
  rw [asked, run_bind, run_getClass found]
  rcases owner_unclassed unclassed with none | crash
  · rw [none]
    exact .inl rfl
  · rw [crash]
    exact .inr rfl

theorem cast_unclassed (found : w.object? id = some o) (unclassed : ¬ o.table.Classed) :
    (cast t (some d) (.object id v)).run w = (.error (.crash .nullDereference), w) := by
  have own : (objectGetClass (.object id v)).run w = (owner o.table).run w := run_getClass found v
  have checked : (checkInstance d (.object id v)).run w =
      (.error (.crash .nullDereference), w) := by
    unfold checkInstance
    rcases isInstance_unclassed (d := d) (v := v) found unclassed with no | crash
    · rw [run_bind, no]
      dsimp only
      simp only [Bool.not_false, if_true]
      rw [run_bind, own]
      rcases owner_unclassed (w := w) unclassed with none | crash
      · rw [none]
        rfl
      · rw [crash]
    · rw [run_bind, crash]
  rw [cast_object, run_bind, checked]

section Classed
variable (well : w.WellFormed) (found : w.object? id = some o)
  (ran : (objectGetClass (.object id v)).run w = (.ok (some c), w'))
include well found ran

theorem cast_returns_iff {r : Handle} {w₁ : World} (known : w.class? d = some l) :
    (cast t (some d) (.object id v)).run w = (.ok r, w₁) ↔
      w'.isSubclass c d = true ∧ w₁ = w' ∧ ∃ u, r = .object id u ∧ t.viewOf? v o.body = some u := by
  obtain ⟨run, -, -, k, own⟩ := getClass_settled well ran
  constructor
  · intro returned
    cases below : w'.isSubclass c d with
    | false =>
      obtain ⟨e, w₂, thrown, -⟩ := cast_apart (t := t) well ran below own (run.grows.class? known)
      rw [thrown] at returned
      cases returned
    | true =>
      cases chosen : t.viewOf? v o.body with
      | none =>
        obtain ⟨e, w₂, thrown, -⟩ := cast_unrepresented well found ran below own chosen
        rw [thrown] at returned
        cases returned
      | some u =>
        rw [cast_represented well found ran below chosen] at returned
        cases returned
        exact ⟨rfl, rfl, u, rfl, rfl⟩
  · rintro ⟨below, rfl, u, rfl, chosen⟩
    exact cast_represented well found ran below chosen

theorem cast_refused (known : w.class? d = some l)
    (refused : ¬ (w'.isSubclass c d = true ∧ t.Represents v o.body)) :
    ∃ k l, w'.class? c = some k ∧ w'.class? d = some l ∧
      (cast t (some d) (.object id v)).Throws w .classCast
        (if w'.isSubclass c d then "class " ++ k.name ++ " cannot be represented as " ++ t.name
          else "class " ++ k.name ++ " cannot be cast to class " ++ l.name) := by
  obtain ⟨run, -, -, k, own⟩ := getClass_settled well ran
  refine ⟨k, l, own, run.grows.class? known, ?_⟩
  cases below : w'.isSubclass c d with
  | false => exact cast_apart well ran below own (run.grows.class? known)
  | true =>
    apply cast_unrepresented well found ran below own
    rw [← Option.not_isSome_iff_eq_none, CastTarget.viewOf?_isSome_iff]
    intro represented
    exact refused ⟨below, represented⟩

end Classed

end Action

namespace World
variable {w w' : World} {id : ObjectId} {o : Obj} {c d : ClassId} {l : Class} {v : View}

theorem WellFormed.checkedCast_classed (well : w.WellFormed) (valid : (Handle.object id v).Valid w)
    (found : w.object? id = some o) (known : w.class? d = some l) (classed : o.table.Classed)
    (t : CastTarget) : w.CheckedCast t d id v o := by
  obtain ⟨c, w', own⟩ := Action.owner_classed well classed
  have ran : (Action.objectGetClass (.object id v)).run w = (.ok (some c), w') :=
    (Action.run_getClass found v).trans own
  obtain ⟨-, well', resolved, -⟩ := Action.getClass_settled well ran
  have returns (r : Handle) (w₁ : World) :
      (Action.cast t (some d) (.object id v)).run w = (.ok r, w₁) ↔ _ :=
    Action.cast_returns_iff well found ran known
  constructor
  case returns_iff =>
    simp only [returns, Action.isInstance_true_iff ran, ← CastTarget.viewOf?_isSome_iff,
      Option.isSome_iff_exists]
    constructor
    · rintro ⟨_, _, below, rfl, u, rfl, chosen⟩
      exact ⟨⟨_, rfl, below⟩, u, chosen⟩
    · rintro ⟨⟨_, rfl, below⟩, u, chosen⟩
      exact ⟨.object id u, _, below, rfl, u, rfl, chosen⟩
  case returned =>
    intro r w₁ cast
    have result := ((Action.cast_ends (P := .any) t (some d) valid).of_ok well cast).2
    obtain ⟨below, rfl, u, rfl, chosen⟩ := (returns r w₁).mp cast
    refine ⟨(Action.isInstance_true_iff ran).mpr ⟨rfl, below⟩, u, c, rfl, result,
      CastTarget.viewOf?_fits chosen, ?_, Action.objectEquals_self u v, ran,
      well'.getClass_resolved resolved u, rfl, rfl⟩
    intro fits
    rw [CastTarget.viewOf?_self fits] at chosen
    exact (Option.some.inj chosen).symm
  case refused =>
    intro _ refused
    simp only [Action.isInstance_true_iff ran, exists_eq_left] at refused
    obtain ⟨k, l, thrown⟩ := Action.cast_refused well found ran known refused
    exact ⟨c, w', k, l, ran, thrown⟩
  case unclassed =>
    intro unclassed
    exact absurd classed unclassed

theorem checkedCast_unclassed (found : w.object? id = some o) (unclassed : ¬ o.table.Classed)
    (t : CastTarget) (d : ClassId) : w.CheckedCast t d id v o := by
  have crashed := Action.cast_unclassed (t := t) (d := d) (v := v) found unclassed
  constructor
  case returns_iff =>
    constructor
    · rintro ⟨r, w', returned⟩
      rw [crashed] at returned
      cases returned
    · rintro ⟨⟨w', holds⟩, -⟩
      rcases Action.isInstance_unclassed (d := d) (v := v) found unclassed with no | crash
      · rw [no] at holds
        cases holds
      · rw [crash] at holds
        cases holds
  case returned =>
    intro r w' returned
    rw [crashed] at returned
    cases returned
  case refused =>
    intro classed
    exact absurd classed unclassed
  case unclassed => exact fun _ => crashed

end World

namespace Script

/-- In every session that a script reaches, a cast to no class throws, even of null, and null passes
every other cast. A cast of an object gives a handle of the same object if it is an instance of the
class and can be held as the type; otherwise it throws if the object has a class, as all objects
with the table of a class do. -/
theorem Session.Reachable.cast_decided {s : Session} (reached : s.Reachable) (t : CastTarget)
    {h : Handle} (valid : h.Valid s.world) :
    (Action.cast t none h).Throws s.world .nullPointer [] ∧
    ∀ d < s.world.classes.size,
      (h.isNull = true → (Action.cast t (some d) h).run s.world = (.ok t.null, s.world)) ∧
      (h = .blankFlat → (Action.cast t (some d) h).run s.world =
        (.error (.crash .nullDereference), s.world)) ∧
      ∀ id v, h = .object id v → ∃ o, s.world.object? id = some o ∧ s.world.CheckedCast t d id v o ∧
        ((∃ c, s.world.table? c = some o.table) → o.table.Classed) := by
  have well := reached.valid.well
  refine ⟨(Action.raise_throws well .nullPointer []).first, fun d below => ⟨?_, ?_, ?_⟩⟩
  · intro null
    cases h with
    | null => rfl
    | typedNull view => rfl
    | blankFlat => cases null
    | object id v => cases null
  · rintro rfl
    rfl
  · rintro id v rfl
    obtain ⟨o, found, -⟩ := valid id v rfl
    obtain ⟨l, known⟩ := World.class?_of_lt below
    refine ⟨o, found, ?_, fun ⟨c, table⟩ => well.classed_of_table table⟩
    by_cases classed : o.table.Classed
    · exact well.checkedCast_classed valid found known classed t
    · exact World.checkedCast_unclassed found classed t d

/-- A script that makes a layered point, and an object that carries the table of strings but holds
no text. -/
def disguisedObject : List Step :=
  [.perform (.object (.newAlphaPoint 1 2 .null 3)) none none,
    .perform (.object (.newBareOf (.ofClass (.named (.core .string))))) none none]

/-- The innermost part of the point casts to the whole; the other object is an instance of the class
of strings that cannot be held as a string. -/
theorem cast_decided_disguisedObject :
    let s := ((Session.withVerbosity {} 0).runAll disguisedObject).2
    s.Reachable ∧ (Handle.object 8 .point).Valid s.world ∧ (Handle.object 11 .bare).Valid s.world ∧
    4 < s.world.classes.size ∧
    (∃ w, (Action.cast (.view .alphaPoint) (some 3) (.object 8 .point)).run s.world =
      (.ok (.object 8 .alphaPoint), w)) ∧
    (Action.isInstance (some 4) (.object 11 .bare)).run s.world = (.ok true, s.world) ∧
    ∃ message, (Action.cast (.view .string) (some 4) (.object 11 .bare)).Throws s.world .classCast
      message := by
  intro s
  have reached : s.Reachable := (Session.Reachable.start {} 0).runAll disguisedObject
  have well := reached.valid.well
  have whole : (s.world.body? 8).map Body.view = some .alphaPoint := by decide +kernel
  have bare : (s.world.body? 11).map Body.view = some .bare := by decide +kernel
  have part : (Handle.object 8 .point).Valid s.world := World.handle_valid_view whole (by decide)
  have other : (Handle.object 11 .bare).Valid s.world := World.handle_valid_view bare (by decide)
  have belongs (id : ObjectId) (c : ClassId) (v : View) (resolved : s.world.classOf? id = some c)
      (below : s.world.isSubclass c c = true) :
      (Action.isInstance (some c) (.object id v)).run s.world = (.ok true, s.world) :=
    (Action.isInstance_true_iff (well.getClass_resolved resolved v)).mpr ⟨rfl, below⟩
  have disguised := belongs 11 4 .bare (by decide +kernel) (by decide +kernel)
  refine ⟨reached, part, other, by decide +kernel, ?_, disguised, ?_⟩
  · obtain ⟨-, casts⟩ := reached.cast_decided (.view .alphaPoint) part
    obtain ⟨o, found, cast, -⟩ := (casts 3 (by decide +kernel)).2.2 8 .point rfl
    have view : o.body.view = .alphaPoint := by simpa [World.body?, found] using whole
    have holds := belongs 8 3 .point (by decide +kernel) (by decide +kernel)
    obtain ⟨r, w, ran⟩ := cast.returns_iff.mpr ⟨⟨_, holds⟩, .inr (.inl (view ▸ .view _))⟩
    obtain ⟨-, u, -, rfl, -, typed | implemented, -⟩ := cast.returned ran
    · cases typed
      exact ⟨w, ran⟩
    · cases implemented
  · obtain ⟨-, casts⟩ := reached.cast_decided (.view .string) other
    obtain ⟨o, found, cast, classed⟩ := (casts 4 (by decide +kernel)).2.2 11 .bare rfl
    have view : o.body.view = .bare := by simpa [World.body?, found] using bare
    have table : s.world.table? 4 = some o.table := by
      have same : s.world.table? 4 = (s.world.object? 11).map Obj.table := by decide +kernel
      rw [same, found, Option.map_some]
    obtain ⟨c, w, k, l, -, -, -, thrown⟩ := cast.refused (classed ⟨4, table⟩) (by
      rintro ⟨-, represented⟩
      rw [CastTarget.Represents, view] at represented
      rcases represented with typed | typed | implemented | implemented | ⟨u, inner, -⟩
      · cases typed
      · cases typed
      · cases implemented
      · cases implemented
      · exact List.not_mem_nil (RecordType.mem_ancestors_iff.mpr inner))
    exact ⟨_, thrown⟩

end Script

end ObjectModel
