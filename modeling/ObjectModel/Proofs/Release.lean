import ObjectModel.Proofs.Frame
import ObjectModel.Proofs.Views

/-!
What a release does. It runs the destructor first, whatever that is, and marks the object only when
the destructor has returned. A destructor that fails therefore leaves the object unreleased, and one
that releases its object again is entered once more by that release, although it returns.
-/

namespace ObjectModel.Action

section Marking
variable {w w' : World} {id : ObjectId} {o : Obj}

theorem run_finishRelease (id : ObjectId) (o : Obj) (w : World) : (finishRelease id o).run w =
    (reportRelease id o).run (w.modifyObject id Obj.asReleased) :=
  rfl

theorem object?_marked (found : w.object? id = some o) :
    (w.modifyObject id Obj.asReleased).object? id = some o.asReleased := by
  simp [World.object?_modifyObject, found]

theorem wellFormed_marked (well : w.WellFormed) (id : ObjectId) :
    (w.modifyObject id Obj.asReleased).WellFormed :=
  (Change.release (P := .any) id trivial).wellFormed well

theorem finishRelease_wellFormed (well : w.WellFormed) (id : ObjectId) (o : Obj) :
    ((finishRelease id o).run w).2.WellFormed := by
  have marked := wellFormed_marked well id
  rw [run_finishRelease]
  exact ((reportRelease_ends (P := .any) id o) marked).1.wellFormed marked

/-- Whatever its end, the rest of a release leaves the object marked. -/
theorem finishRelease_object (well : w.WellFormed) {held : Obj} (found : w.object? id = some held)
    (o : Obj) : ((finishRelease id o).run w).2.object? id = some held.asReleased := by
  have still := ((reportRelease_ends (P := .quiet) id o) (wellFormed_marked well id)).1.still
  rw [run_finishRelease]
  exact still id _ (object?_marked found)

theorem finishRelease_destroyed (well : w.WellFormed) (id : ObjectId) (o : Obj) :
    ((finishRelease id o).run w).2.destroyed = w.destroyed := by
  let marked := w.modifyObject id Obj.asReleased
  have run := (reportRelease_ends (P := .framing marked none) id o) (wellFormed_marked well id)
  rw [run_finishRelease]
  exact (run.1.framed (.refl marked none)).destroyed rfl

theorem finishRelease_returns (well : w.WellFormed) {held : Obj} (found : w.object? id = some held)
    (same : held.table = o.table) (classed : o.table.Classed) :
    ∃ w', (finishRelease id o).run w = (.ok true, w') := by
  have well' := wellFormed_marked well id
  obtain ⟨c, w₁, own⟩ := owner_classed well' classed
  have asked : (objectGetClass (.object id .plain)).run (w.modifyObject id Obj.asReleased) =
      (.ok (some c), w₁) := by
    rw [run_getClass (object?_marked found), ← own, ← same]
    rfl
  obtain ⟨-, -, -, k, known⟩ := getClass_settled well' asked
  rw [run_finishRelease, reportRelease, run_bind, own]
  dsimp only
  rw [run_bind, run_className known]
  exact ⟨_, rfl⟩

theorem finishRelease_crashes (id : ObjectId) (unclassed : ¬ o.table.Classed) (w : World) :
    (finishRelease id o).run w =
      (.error (.crash .nullDereference), w.modifyObject id Obj.asReleased) := by
  rw [run_finishRelease, reportRelease, run_bind]
  rcases owner_unclassed unclassed with none | crash
  · rw [none]
    rfl
  · rw [crash]

end Marking

section Destructors
variable {w w' : World} {id : ObjectId} {o : Obj} {v : View}
  {destructor : Obj → Handle → Action Unit}

theorem run_releaseWith (destructor : Obj → Handle → Action Unit) (found : w.object? id = some o)
    (v : View) : (releaseWith destructor (.object id v)).run w =
      if o.released then (.ok false, w)
      else (destructor o (.object id v) >>= fun _ => finishRelease id o).run w := by
  unfold releaseWith
  simp only [Handle.isNull, Bool.false_eq_true, if_false]
  rw [run_bind]
  change (object id >>= _).run w = _
  rw [run_bind, run_object found]
  dsimp only
  split <;> rfl

theorem releaseWith_released (destructor : Obj → Handle → Action Unit)
    (found : w.object? id = some o) (released : o.released = true) (v : View) :
    (releaseWith destructor (.object id v)).run w = (.ok false, w) := by
  rw [run_releaseWith destructor found, if_pos released]

section Fresh
variable (found : w.object? id = some o) (fresh : o.released = false)
include found fresh

theorem releaseWith_fault {e : Fault}
    (ran : (destructor o (.object id v)).run w = (.error e, w')) :
    (releaseWith destructor (.object id v)).run w = (.error e, w') := by
  rw [run_releaseWith destructor found, fresh]
  simp only [Bool.false_eq_true, if_false]
  rw [run_bind, ran]

/-- Once the destructor has returned, what is left of the release is to mark and report it. -/
theorem releaseWith_finishes (ran : (destructor o (.object id v)).run w = (.ok ⟨⟩, w')) :
    (releaseWith destructor (.object id v)).run w = (finishRelease id o).run w' := by
  rw [run_releaseWith destructor found, fresh]
  simp only [Bool.false_eq_true, if_false]
  rw [run_bind, ran]

end Fresh

/-- A destructor that leaves a record each time it is entered, and releases its object again until
it has been entered `again` times more. -/
def reentering (name : Text) : Nat → Obj → Handle → Action Unit
  | 0, _, h => runDestructor (.record name) h
  | again + 1, _, h => do
    runDestructor (.record name) h
    let _ ← releaseWith (reentering name again) h

/-- The release of an object with a class returns true and marks it, however often its destructor
releases the object again. Each of these releases enters the destructor, as the object is not yet
marked. -/
theorem releaseWith_reentering (name : Text) (v : View) (again : Nat) :
    ∀ {w : World}, w.WellFormed → w.object? id = some o → o.released = false → o.table.Classed →
      ∃ w' o', (releaseWith (reentering name again) (.object id v)).run w = (.ok true, w') ∧
        w'.WellFormed ∧ w'.object? id = some o' ∧ o'.table = o.table ∧ o'.released = true ∧
        w'.destroyed.toList =
          w.destroyed.toList ++ List.replicate (again + 1) (name, .object id v) := by
  -- The rest of a release, whose destructor has left this world.
  have finishes {w₁ : World} {held : Obj} (well : w₁.WellFormed) (found : w₁.object? id = some held)
      (same : held.table = o.table) (classed : o.table.Classed) : ∃ w',
        (finishRelease id o).run w₁ = (.ok true, w') ∧ w'.WellFormed ∧
          w'.object? id = some held.asReleased ∧ w'.destroyed = w₁.destroyed := by
    obtain ⟨w', ran⟩ := finishRelease_returns well found same classed
    have well' := finishRelease_wellFormed well id o
    have marked := finishRelease_object well found o
    have kept := finishRelease_destroyed well id o
    rw [ran] at well' marked kept
    exact ⟨w', ran, well', marked, kept⟩
  induction again with
  | zero =>
    intro w well found fresh classed
    have recorded := (Change.record (P := .any) name (.object id v) trivial).wellFormed well
    obtain ⟨w', ran, well', marked, kept⟩ := finishes recorded found rfl classed
    refine ⟨w', o.asReleased, ?_, well', marked, rfl, rfl, ?_⟩
    · rw [← ran]
      exact releaseWith_finishes found fresh rfl
    · simp [kept]
  | succ again ih =>
    intro w well found fresh classed
    have recorded := (Change.record (P := .any) name (.object id v) trivial).wellFormed well
    obtain ⟨w₁, o₁, inner, well₁, found₁, table, -, entries⟩ := ih recorded found fresh classed
    obtain ⟨w', ran, well', marked, kept⟩ := finishes well₁ found₁ table classed
    refine ⟨w', o₁.asReleased, ?_, well', marked, table, rfl, ?_⟩
    · rw [← ran]
      apply releaseWith_finishes found fresh
      rw [reentering, run_bind]
      change (releaseWith (reentering name again) (.object id v) >>= _).run _ = _
      rw [run_bind, inner]
      rfl
    · rw [kept, entries]
      simp [List.replicate_succ]

end Destructors

section Releases
variable {w w' : World} {id : ObjectId} {o : Obj} {v : View} {d : Destructor}

theorem destroy_some (supplied : o.table.destructor? = some d) (h : Handle) :
    destroy o h = runDestructor d h := by
  rw [destroy, supplied]

theorem destroy_none (unsupplied : o.table.destructor? = none) (h : Handle) :
    destroy o h = pure ⟨⟩ := by
  rw [destroy, unsupplied]

theorem runDestructor_returns (proper : d ≠ .fail) (id : ObjectId) (v : View) (w : World) :
    ∃ w', (runDestructor d (.object id v)).run w = (.ok ⟨⟩, w') := by
  cases d with
  | dropStorage => cases v <;> exact ⟨_, rfl⟩
  | fail => exact absurd rfl proper
  | record name => exact ⟨_, rfl⟩

/-- Of the destructors only one fails. -/
theorem runDestructor_fault_iff (well : w.WellFormed) (d : Destructor) (id : ObjectId) (v : View) :
    (∃ e w', (runDestructor d (.object id v)).run w = (.error e, w')) ↔ d = .fail := by
  constructor
  · rintro ⟨e, w', ran⟩
    by_contra proper
    obtain ⟨w₁, returned⟩ := runDestructor_returns proper id v w
    rw [returned] at ran
    cases ran
  · rintro rfl
    obtain ⟨e, w', thrown, -⟩ := raise_throws (α := Unit) well .runtime "destructor"
    exact ⟨.thrown e, w', thrown⟩

theorem runDestructor_object (well : w.WellFormed) (found : w.object? id = some o)
    {r : Except Fault Unit} (ran : (runDestructor d (.object id v)).run w = (r, w')) :
    w'.WellFormed ∧ ∃ o', w'.object? id = some o' ∧ o'.table = o.table := by
  have any : Policy.AllowsDestructor .any (.object id v) :=
    fun _ => ⟨fun _ _ _ => trivial, fun _ => trivial⟩
  have run := ((runDestructor_ends (w := w) d any) well).1
  rw [ran] at run
  obtain ⟨o', found', table, -⟩ := run.grows.objects found
  exact ⟨run.wellFormed well, o', found', table⟩

/-- A destructor that fails leaves the object as it was. -/
theorem runDestructor_fault (well : w.WellFormed) (found : w.object? id = some o) {e : Fault}
    (ran : (runDestructor d (.object id v)).run w = (.error e, w')) :
    d = .fail ∧ w'.object? id = some o := by
  have fails := (runDestructor_fault_iff well d id v).mp ⟨e, w', ran⟩
  subst fails
  have contract : Orderly .quiet (raise .runtime "destructor" : Action Unit) w (fun _ _ => True) :=
    raise_orderly _ _
  have still := (contract well).1.still
  rw [show (raise .runtime "destructor" : Action Unit).run w = (.error e, w') from ran] at still
  exact ⟨rfl, still id o found⟩

theorem release_wellFormed (well : w.WellFormed) (id : ObjectId) (v : View) :
    ((release (.object id v)).run w).2.WellFormed := by
  have contract : Orderly .any (release (.object id v)) w (fun _ _ => True) :=
    release_ends (fun _ => ⟨fun _ _ _ => trivial, fun _ => trivial⟩) fun _ _ _ _ => trivial
  exact (contract well).1.wellFormed well

theorem release_released (found : w.object? id = some o) (released : o.released = true)
    (v : View) : (release (.object id v)).run w = (.ok false, w) :=
  releaseWith_released destroy found released v

section Fresh
variable (well : w.WellFormed) (found : w.object? id = some o) (fresh : o.released = false)
include found fresh

theorem release_fault {e : Fault} (supplied : o.table.destructor? = some d)
    (ran : (runDestructor d (.object id v)).run w = (.error e, w')) :
    (release (.object id v)).run w = (.error e, w') := by
  apply releaseWith_fault found fresh
  rw [destroy_some supplied, ran]

include well

/-- If the destructor returns, the object is there as it was or emptied when it is marked. -/
theorem release_finishes (returns : ∀ d ∈ o.table.destructor?, ∃ w₁,
      (runDestructor d (.object id v)).run w = (.ok ⟨⟩, w₁)) :
    ∃ w₁ held, w₁.WellFormed ∧ w₁.object? id = some held ∧ held.table = o.table ∧
      (release (.object id v)).run w = (finishRelease id o).run w₁ := by
  cases supplied : o.table.destructor? with
  | none =>
    refine ⟨w, o, well, found, rfl, releaseWith_finishes found fresh ?_⟩
    rw [destroy_none supplied]
    rfl
  | some d =>
    obtain ⟨w₁, ran⟩ := returns d supplied
    obtain ⟨well₁, held, found₁, table⟩ := runDestructor_object well found ran
    refine ⟨w₁, held, well₁, found₁, table, releaseWith_finishes found fresh ?_⟩
    rw [destroy_some supplied, ran]

/-- A destructor that fails makes the release fail, and leaves the object as it was. -/
theorem release_throws (fails : o.table.destructor? = some .fail) (v : View) :
    (release (.object id v)).Throws w .runtime "destructor" ∧
      ((release (.object id v)).run w).2.object? id = some o := by
  obtain ⟨e, w₁, thrown, exception⟩ := raise_throws (α := Unit) well .runtime "destructor"
  have ran : (runDestructor .fail (.object id v)).run w = (.error (.thrown e), w₁) := thrown
  have released := release_fault found fresh fails ran
  refine ⟨⟨e, w₁, released, exception⟩, ?_⟩
  rw [released]
  exact (runDestructor_fault well found ran).2

end Fresh

/-- A release leaves the object released, unless its destructor fails. -/
theorem release_object (well : w.WellFormed) (found : w.object? id = some o) (v : View) :
    ∃ o', ((release (.object id v)).run w).2.object? id = some o' ∧ o'.table = o.table ∧
      (o'.released = true ↔ o.released = true ∨ o.table.destructor? ≠ some .fail) := by
  cases before : o.released with
  | true =>
    rw [release_released found before]
    exact ⟨o, found, rfl, by simp [before]⟩
  | false =>
    by_cases fails : o.table.destructor? = some .fail
    · exact ⟨o, (release_throws well found before fails v).2, rfl, by simp [before, fails]⟩
    · have returns : ∀ d ∈ o.table.destructor?, ∃ w₁,
          (runDestructor d (.object id v)).run w = (.ok ⟨⟩, w₁) := by
        intro d supplied
        apply runDestructor_returns
        rintro rfl
        exact fails supplied
      obtain ⟨w₁, held, well₁, found₁, table, ran⟩ := release_finishes well found before returns
      rw [ran]
      exact ⟨_, finishRelease_object well₁ found₁ o, table, by simp [Obj.asReleased, fails]⟩

end Releases

end ObjectModel.Action
