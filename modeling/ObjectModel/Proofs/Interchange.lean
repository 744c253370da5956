import ObjectModel.Proofs.Release
import ObjectModel.Proofs.Reachable

/-!
Views of one object. What concerns the object as a whole, its identity, its class and what follows
from them, is the same through all of its views, and so is a cast to a type that is no interface.
A release through one view is a release through all, with one exception: a destructor that fails
leaves the object unreleased, so the next release fails as well, through whatever view.
-/

namespace ObjectModel

/-- Two handles that no operation on an object as a whole tells apart. -/
structure World.Interchangeable (w : World) (h h' : Handle) : Prop where
  hashCode : (Action.objectHashCode h).run w = (Action.objectHashCode h').run w
  getClass : (Action.objectGetClass h).run w = (Action.objectGetClass h').run w
  isInstance : ∀ k, (Action.isInstance k h).run w = (Action.isInstance k h').run w
  same : (Action.objectEquals h h').run w = (.ok true, w)
  equals : ∀ x, (Action.objectEquals h x).run w = (Action.objectEquals h' x).run w
  equals_to : ∀ x, (Action.objectEquals x h).run w = (Action.objectEquals x h').run w
  checkStore : ∀ array, (Action.checkStore array h).run w = (Action.checkStore array h').run w
  released : (do return (← Action.object (← Action.target h)).released : Action Bool).run w =
    (do return (← Action.object (← Action.target h')).released : Action Bool).run w
  cast : ∀ {t : CastTarget}, t.Concrete → ∀ k,
    (Action.cast t k h).run w = (Action.cast t k h').run w

/-- How releases of the object `o` through one view and then through another end. -/
structure World.ReleasedThrough (w : World) (id : ObjectId) (o : Obj) (v v' : View) : Prop where
  /-- Unless the destructor fails, the second release finds the object released, also if the first
  one did not return. -/
  again : o.released = true ∨ o.table.destructor? ≠ some .fail →
    ∀ r w', (Action.release (.object id v)).run w = (r, w') →
      (Action.release (.object id v')).run w' = (.ok false, w')
  fails : o.released = false → o.table.destructor? = some .fail →
    (Action.release (.object id v)).Throws w .runtime "destructor" ∧
      ∀ r w', (Action.release (.object id v)).run w = (r, w') → w'.object? id = some o ∧
        (Action.release (.object id v')).Throws w' .runtime "destructor"

theorem World.WellFormed.releasedThrough {w : World} (well : w.WellFormed) {id : ObjectId} {o : Obj}
    (found : w.object? id = some o) (v v' : View) : w.ReleasedThrough id o v v' := by
  constructor
  · intro proper r w' ran
    obtain ⟨o', after, -, marked⟩ := Action.release_object well found v
    rw [ran] at after
    exact Action.release_released after (marked.mpr proper) v'
  · intro fresh fails
    obtain ⟨throws, kept⟩ := Action.release_throws well found fresh fails v
    refine ⟨throws, fun r w' ran => ?_⟩
    have well' := Action.release_wellFormed well id v
    rw [ran] at kept well'
    exact ⟨kept, (Action.release_throws well' kept fresh fails v').1⟩

namespace Script

/-- In every session that a script reaches, the views of an object are interchangeable: through any
two of them it has the same identity, class and state and the same casts. Releasing it through one
of them makes a release through the other return false, unless its destructor fails: then both
releases fail. If the object has a class, a cast of it to a type that is no interface gives the same
view of the object through both or throws the same exception through both, and casting it from one
view to the other and back gives the first. -/
theorem Session.Reachable.views_interchangeable {s : Session} (reached : s.Reachable)
    {id : ObjectId} {v v' : View} (valid : (Handle.object id v).Valid s.world)
    (valid' : (Handle.object id v').Valid s.world) :
    s.world.Interchangeable (.object id v) (.object id v') ∧
    (∃ o, s.world.object? id = some o ∧ s.world.ReleasedThrough id o v v') ∧
    (∀ c d t w, (Action.objectGetClass (.object id v)).run s.world = (.ok (some c), w) →
      d < s.world.classes.size → t.Concrete →
        (∃ u, (Action.cast t (some d) (.object id v)).run s.world = (.ok (.object id u), w) ∧
          (Action.cast t (some d) (.object id v')).run s.world = (.ok (.object id u), w)) ∨
        ∃ message, (Action.cast t (some d) (.object id v)).Throws s.world .classCast message ∧
          (Action.cast t (some d) (.object id v')).Throws s.world .classCast message) ∧
    (∀ c d d' w, (Action.objectGetClass (.object id v)).run s.world = (.ok (some c), w) →
      w.isSubclass c d = true → w.isSubclass c d' = true →
        (Action.cast (.view v') (some d) (.object id v)).run s.world = (.ok (.object id v'), w) ∧
        (Action.cast (.view v) (some d') (.object id v')).run w = (.ok (.object id v), w)) := by
  have well := reached.valid.well
  have casts {t : CastTarget} (concrete : t.Concrete) (k : Option ClassId) :=
    Action.cast_view well concrete valid valid' k
  obtain ⟨o, found, own⟩ := valid id v rfl
  obtain ⟨o', found', own'⟩ := valid' id v' rfl
  rw [found] at found'
  cases found'
  refine ⟨?_, ⟨o, found, well.releasedThrough found v v'⟩, ?_, ?_⟩
  · exact {
      hashCode := rfl
      getClass := rfl
      isInstance := fun _ => rfl
      same := Action.objectEquals_self v v'
      equals := fun _ => rfl
      equals_to := fun _ => rfl
      checkStore := fun _ => rfl
      released := rfl
      cast := casts }
  · intro c d t w ran below concrete
    obtain ⟨l, known⟩ := World.class?_of_lt below
    have same := casts concrete (some d)
    rcases Action.cast_classed well found ran known with ⟨u, given⟩ | ⟨message, throws⟩
    · exact .inl ⟨u, given, same.symm.trans given⟩
    · obtain ⟨e, w', ended, exception⟩ := throws
      exact .inr ⟨message, ⟨e, w', ended, exception⟩, e, w', same.symm.trans ended, exception⟩
  · intro c d d' w ran below below'
    obtain ⟨run, well', resolved, -⟩ := Action.getClass_settled well ran
    have again := well'.getClass_resolved resolved v'
    exact ⟨Action.cast_to_view well found own own' ran below,
      Action.cast_to_view well' (run.still id o found) own' own again below'⟩

/-- A script that makes two points with a colour and an alpha value. The table of the first has a
destructor that leaves a record, that of the second has one that fails. -/
def layeredPoints : List Step :=
  [.perform (.table (.new (some (.named .alphaPoint)) (.ofClass (.named .alphaPoint))
      (some (.record "gone")) [])) (some "recording") none,
    .perform (.table (.new (some (.named .alphaPoint)) (.ofClass (.named .alphaPoint))
      (some .fail) [])) (some "failing") none,
    .perform (.object (.newAlphaPointOf (.variable "recording") 1 2 .null 3)) none none,
    .perform (.object (.newAlphaPointOf (.variable "failing") 1 2 .null 3)) none none]

theorem views_interchangeable_layeredPoints :
    let s := ((Session.withVerbosity {} 0).runAll layeredPoints).2
    s.Reachable ∧ (∀ id, id = 8 ∨ id = 9 →
      (Handle.object id .alphaPoint).Valid s.world ∧ (Handle.object id .point).Valid s.world ∧
      s.world.Interchangeable (.object id .alphaPoint) (.object id .point) ∧
      (Action.cast (.view .point) (some 1) (.object id .alphaPoint)).run s.world =
        (.ok (.object id .point), s.world) ∧
      (Action.cast (.view .alphaPoint) (some 3) (.object id .point)).run s.world =
        (.ok (.object id .alphaPoint), s.world)) ∧
    (∀ r w, (Action.release (.object 8 .alphaPoint)).run s.world = (r, w) →
      (Action.release (.object 8 .point)).run w = (.ok false, w)) ∧
    ∀ r w, (Action.release (.object 9 .alphaPoint)).run s.world = (r, w) →
      (Action.release (.object 9 .point)).Throws w .runtime "destructor" := by
  intro s
  have reached : s.Reachable := (Session.Reachable.start {} 0).runAll layeredPoints
  have well := reached.valid.well
  have views (id : ObjectId) (whole : (s.world.body? id).map Body.view = some .alphaPoint) :
      (Handle.object id .alphaPoint).Valid s.world ∧ (Handle.object id .point).Valid s.world :=
    ⟨World.handle_valid_view whole (by decide), World.handle_valid_view whole (by decide)⟩
  have recording := views 8 (by decide +kernel)
  have failing := views 9 (by decide +kernel)
  have first := reached.views_interchangeable recording.1 recording.2
  have second := reached.views_interchangeable failing.1 failing.2
  have classed (id : ObjectId) (resolved : s.world.classOf? id = some 3) (v : View) :=
    well.getClass_resolved resolved v
  have above : s.world.isSubclass 3 1 = true ∧ s.world.isSubclass 3 3 = true := by decide +kernel
  have destructors : (s.world.object? 8).map (fun o => (o.released, o.table.destructor?)) =
        some (false, some (.record "gone")) ∧
      (s.world.object? 9).map (fun o => (o.released, o.table.destructor?)) =
        some (false, some .fail) := by
    decide +kernel
  refine ⟨reached, ?_, ?_, ?_⟩
  · rintro id (rfl | rfl)
    · have back := first.2.2.2 3 1 3 s.world (classed 8 (by decide +kernel) _) above.1 above.2
      exact ⟨recording.1, recording.2, first.1, back.1, back.2⟩
    · have back := second.2.2.2 3 1 3 s.world (classed 9 (by decide +kernel) _) above.1 above.2
      exact ⟨failing.1, failing.2, second.1, back.1, back.2⟩
  · intro r w ran
    obtain ⟨o, found, released⟩ := first.2.1
    have told := destructors.1
    rw [found] at told
    have supplied : o.table.destructor? = some (.record "gone") :=
      congrArg Prod.snd (Option.some.inj told)
    exact released.again (.inr (by rw [supplied]; decide)) r w ran
  · intro r w ran
    obtain ⟨o, found, released⟩ := second.2.1
    have told := destructors.2
    rw [found] at told
    obtain ⟨fresh, fails⟩ := Prod.mk.inj (Option.some.inj told)
    exact ((released.fails fresh fails).2 r w ran).2

end Script

end ObjectModel
