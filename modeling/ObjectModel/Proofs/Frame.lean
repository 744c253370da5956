import ObjectModel.Proofs.Growth

/-!
What changes leave alone. A world is framed by an earlier one if the objects that were there and the
settings are as they were, all but the object of one handle that may be named. Objects of which the
handle is none are touched by no change except a store into an object that is new. Whatever the
changes, an object that has been released stays so.
-/

namespace ObjectModel

/-- A position in an array, of one dimension or of two. -/
inductive Place where
  | cell (i : Nat)
  | square (i j : Nat)
deriving DecidableEq, Repr

def Body.at? : Body → Place → Option Element
  | .array cells, .cell i => cells.storage[i]?
  | .grid cells, .square i j => cells.storage[i]?.bind fun row => row[j]?
  | _, _ => none

namespace Obj

def put (p : Place) (value : Element) (o : Obj) : Obj :=
  match p with
  | .cell i => o.setElement i value
  | .square i j => o.setGridElement i j value

theorem put_released (p : Place) (value : Element) (o : Obj) :
    (o.put p value).released = o.released := by
  cases p with
  | cell i =>
    change (o.setElement i value).released = o.released
    unfold setElement
    split <;> rfl
  | square i j =>
    change (o.setGridElement i j value).released = o.released
    unfold setGridElement
    split <;> rfl

theorem withoutStorage_released (o : Obj) : o.withoutStorage.released = o.released := by
  unfold withoutStorage
  split <;> rfl

theorem at?_setElement {i : Nat} {q : Place} (other : q ≠ .cell i) (value : Element) (o : Obj) :
    (o.setElement i value).body.at? q = o.body.at? q := by
  unfold setElement
  split
  · rename_i cells held
    rw [held]
    cases q with
    | cell k =>
      have apart : i ≠ k := fun same => other (congrArg Place.cell same.symm)
      exact List.getElem?_set_ne apart
    | square k l => rfl
  · rfl

theorem at?_setGridElement {i j : Nat} {q : Place} (other : q ≠ .square i j) (value : Element)
    (o : Obj) : (o.setGridElement i j value).body.at? q = o.body.at? q := by
  unfold setGridElement
  split
  · rename_i cells held
    rw [held]
    cases q with
    | cell k => rfl
    | square k l =>
      simp only [Body.at?, List.getElem?_modify]
      by_cases row : i = k
      · have apart : j ≠ l := fun same => other (by rw [row, same])
        cases cells.storage[k]? with
        | none => rfl
        | some elements => simp [row, List.getElem?_set_ne apart]
      · simp [row]
  · rfl

/-- A store changes no other position. -/
theorem at?_put {p q : Place} (other : q ≠ p) (value : Element) (o : Obj) :
    (o.put p value).body.at? q = o.body.at? q := by
  cases p with
  | cell i => exact at?_setElement other value o
  | square i j => exact at?_setGridElement other value o

end Obj

/-- Apart from the object of the handle, if one is given, the objects of `w` are in `w'` as they
were, and the settings too. Without a handle, no destructor has left a record either. -/
structure World.Framed (w : World) (target : Option Handle) (w' : World) : Prop where
  objects : ∀ id o, (∀ v, target ≠ some (.object id v)) → w.object? id = some o →
    w'.object? id = some o
  options : w'.options = w.options
  threshold : w'.threshold = w.threshold
  destroyed : target = none → w'.destroyed = w.destroyed

/-- The events that keep to the frame of the world in which a run was begun. -/
def Policy.framing (begun : World) (target : Option Handle) : Policy where
  allows _ e :=
    match e with
    | .define _ _ _ => True
    | .store id _ _ => begun.object? id = none
    | .drop id | .release id => ∃ v, target = some (.object id v)
    | .record _ h => target = some h
    | .storeAt _ _ _ _ | .options _ | .threshold _ => False

instance (begun : World) (target : Option Handle) : (Policy.framing begun target).Samples :=
  ⟨fun _ => trivial⟩

namespace World.Framed
variable {w w₁ w₂ : World} {target : Option Handle}

theorem refl (w : World) (target : Option Handle) : w.Framed target w :=
  ⟨fun _ _ _ found => found, rfl, rfl, fun _ => rfl⟩

theorem still (framed : w.Framed none w₁) : w.Still w₁ := by
  intro id o found
  exact framed.objects id o (fun v impossible => nomatch impossible) found

theorem weaken (framed : w.Framed none w₁) : w.Framed target w₁ :=
  ⟨fun id o _ found => framed.still id o found, framed.options, framed.threshold,
    fun _ => framed.destroyed rfl⟩

theorem step (framed : w.Framed target w₁) (still : w₁.Still w₂)
    (options : w₂.options = w₁.options) (threshold : w₂.threshold = w₁.threshold)
    (destroyed : w₂.destroyed = w₁.destroyed) : w.Framed target w₂ where
  objects id o spared found := still id o (framed.objects id o spared found)
  options := options.trans framed.options
  threshold := threshold.trans framed.threshold
  destroyed none := destroyed.trans (framed.destroyed none)

theorem logged (framed : w.Framed target w₁) (m : Message) : w.Framed target (w₁.logged m) := by
  unfold World.logged
  split
  · exact framed.step (.of_eq rfl) rfl rfl rfl
  · exact framed

theorem modifyObject (framed : w.Framed target w₁) {id : ObjectId} (f : Obj → Obj)
    (outside : (∀ v, target ≠ some (.object id v)) → w.object? id = none) :
    w.Framed target (w₁.modifyObject id f) where
  objects other o spared found := by
    have apart : id ≠ other := by
      rintro rfl
      rw [outside spared] at found
      cases found
    rw [World.object?_modifyObject, if_neg apart]
    exact framed.objects other o spared found
  options := framed.options
  threshold := framed.threshold
  destroyed := framed.destroyed

end World.Framed

section Runs
variable {begun w w' : World} {target : Option Handle} {P : Policy} {id : ObjectId} {o : Obj}

theorem Change.framed (change : Change (.framing begun target) w w')
    (before : begun.Framed target w) : begun.Framed target w' := by
  cases change with
  | log m => exact before.logged m
  | allocate => exact before.step (.push w _ _) rfl rfl rfl
  | create => exact before.step (.pushClass w _ _ _) rfl rfl rfl
  | store _ _ _ _ _ fresh => exact before.modifyObject _ fun _ => fresh
  | storeAt _ _ _ _ _ _ impossible => cases impossible
  | drop id allowed =>
    obtain ⟨v, named⟩ := allowed
    exact before.modifyObject _ fun spared => absurd named (spared v)
  | release id allowed =>
    obtain ⟨v, named⟩ := allowed
    exact before.modifyObject _ fun spared => absurd named (spared v)
  | record name h named =>
    exact ⟨before.objects, before.options, before.threshold, fun none => by
      rw [none] at named
      cases named⟩
  | options _ impossible => cases impossible
  | threshold _ impossible => cases impossible

theorem Evolves.framed (run : Evolves (.framing begun target) w w')
    (before : begun.Framed target w) : begun.Framed target w' := by
  induction run with
  | refl => exact before
  | tail _ change ih => exact change.framed ih

theorem Change.released (change : Change P w w') (found : w.object? id = some o)
    (released : o.released = true) : ∃ o', w'.object? id = some o' ∧ o'.released = true := by
  have modified {j : ObjectId} {f : Obj → Obj} (kept : (f o).released = true) :
      ∃ o', (w.modifyObject j f).object? id = some o' ∧ o'.released = true := by
    rw [World.object?_modifyObject, found]
    split
    · exact ⟨f o, rfl, kept⟩
    · exact ⟨o, rfl, released⟩
  cases change with
  | log m => exact ⟨o, World.Still.logged w m id o found, released⟩
  | allocate => exact ⟨o, World.Still.push w _ _ id o found, released⟩
  | create => exact ⟨o, World.Still.pushClass w _ _ _ id o found, released⟩
  | store => exact modified ((Obj.put_released (.cell _) _ o).trans released)
  | storeAt => exact modified ((Obj.put_released (.square _ _) _ o).trans released)
  | drop => exact modified (o.withoutStorage_released.trans released)
  | release => exact modified rfl
  | record | options | threshold => exact ⟨o, found, released⟩

theorem Evolves.released (run : Evolves P w w') (found : w.object? id = some o)
    (released : o.released = true) : ∃ o', w'.object? id = some o' ∧ o'.released = true := by
  induction run with
  | refl => exact ⟨o, found, released⟩
  | tail _ change ih =>
    obtain ⟨o', found', released'⟩ := ih
    exact change.released found' released'

theorem Evolves.marked (run : Evolves P w w') {o' : Obj} (found : w.object? id = some o)
    (found' : w'.object? id = some o') (changed : o'.released ≠ o.released) :
    o'.released = true := by
  cases before : o.released with
  | false =>
    rw [before] at changed
    simpa using changed
  | true =>
    obtain ⟨_, found'', released⟩ := run.released found before
    rw [found'] at found''
    cases found''
    exact released

theorem Change.unmarked (spared : ∀ w, ¬ P.allows w (.release id)) (change : Change P w w')
    (found : w'.object? id = some o) (released : o.released = true) :
    ∃ o', w.object? id = some o' ∧ o'.released = true := by
  have modified {j : ObjectId} {f : Obj → Obj} (kept : ∀ o, (f o).released = o.released)
      (found : (w.modifyObject j f).object? id = some o) :
      ∃ o', w.object? id = some o' ∧ o'.released = true := by
    rw [World.object?_modifyObject] at found
    split at found
    · obtain ⟨o', before, rfl⟩ := Option.map_eq_some_iff.mp found
      exact ⟨o', before, (kept o').symm.trans released⟩
    · exact ⟨o, found, released⟩
  cases change with
  | log m =>
    unfold World.logged at found
    split at found <;> exact ⟨o, found, released⟩
  | allocate =>
    rw [World.object?_push] at found
    split at found
    · cases found
      cases released
    · exact ⟨o, found, released⟩
  | create =>
    rw [World.object?_pushClass] at found
    split at found
    · cases found
      cases released
    · split at found
      · cases found
        cases released
      · exact ⟨o, found, released⟩
  | store => exact modified (Obj.put_released (.cell _) _) found
  | storeAt => exact modified (Obj.put_released (.square _ _) _) found
  | drop => exact modified Obj.withoutStorage_released found
  | release j allowed =>
    have apart : j ≠ id := by
      rintro rfl
      exact spared w allowed
    rw [World.object?_modifyObject, if_neg apart] at found
    exact ⟨o, found, released⟩
  | record | options | threshold => exact ⟨o, found, released⟩

/-- Without a release of it an object does not become released. -/
theorem Evolves.unmarked (spared : ∀ w, ¬ P.allows w (.release id)) (run : Evolves P w w')
    (found : w'.object? id = some o) (released : o.released = true) :
    ∃ o', w.object? id = some o' ∧ o'.released = true := by
  induction run generalizing o with
  | refl => exact ⟨o, found, released⟩
  | tail _ change ih =>
    obtain ⟨o', before, released'⟩ := change.unmarked spared found released
    exact ih before released'

end Runs

end ObjectModel
