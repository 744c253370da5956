import ObjectModel.Proofs.Hierarchy

/-!
Contracts of actions. A contract says how an action that is run in a well-formed world ends: the
world has evolved under the policy, a result satisfies one condition and a fault another, both in
the world that is left. Contracts compose along the sequencing of actions; the next action may rely
on everything that growth preserves.
-/

namespace ObjectModel

def Fault.Valid (e : Fault) (w : World) : Prop :=
  match e with
  | .thrown id => ∃ k message, w.body? id = some (.exception k message)
  | .crash _ => True

section Runs
variable {ε σ α β : Type}

theorem run_bind (a : ExceptT ε (StateM σ) α) (f : α → ExceptT ε (StateM σ) β) (s : σ) :
    (a >>= f).run s =
      match a.run s with
      | (.ok x, s') => (f x).run s'
      | (.error e, s') => (.error e, s') := by
  change (ExceptT.bind a f).run s = _
  simp only [ExceptT.bind, ExceptT.run, ExceptT.mk, bind, StateT.bind, ExceptT.bindCont]
  cases a s with
  | mk result s' => cases result <;> rfl

theorem run_get_bind (f : σ → ExceptT ε (StateM σ) α) (s : σ) : (get >>= f).run s = (f s).run s :=
  rfl

theorem run_tryCatch (a : ExceptT ε (StateM σ) α) (f : ε → ExceptT ε (StateM σ) α) (s : σ) :
    (tryCatch a f).run s =
      match a.run s with
      | (.ok x, s') => (.ok x, s')
      | (.error e, s') => (f e).run s' := by
  change (ExceptT.tryCatch a f).run s = _
  simp only [ExceptT.tryCatch, ExceptT.run, ExceptT.mk, bind, StateT.bind]
  cases a s with
  | mk result s' => cases result <;> rfl

/-- What a run must come to: a condition on results, one on errors. -/
def Concludes (Q : α → σ → Prop) (E : ε → σ → Prop) : Except ε α × σ → Prop
  | (.ok x, s) => Q x s
  | (.error e, s) => E e s

namespace Concludes
variable {Q R : α → σ → Prop} {S : β → σ → Prop} {E F : ε → σ → Prop}

theorem imp {r : Except ε α × σ} (result : Concludes Q E r) (returns : ∀ x s, Q x s → R x s)
    (stops : ∀ e s, E e s → F e s) : Concludes R F r := by
  cases r with
  | mk r s =>
    cases r with
    | ok x => exact returns x s result
    | error e => exact stops e s result

theorem of_state {p : σ → Prop} {r : Except ε α × σ} (holds : p r.2) :
    Concludes (fun _ s => p s) (fun _ s => p s) r := by
  cases r with
  | mk r s => cases r <;> exact holds

theorem bind {a : ExceptT ε (StateM σ) α} {f : α → ExceptT ε (StateM σ) β} {s : σ}
    (first : Concludes (fun x s' => Concludes S E ((f x).run s')) E (a.run s)) :
    Concludes S E ((a >>= f).run s) := by
  rw [run_bind]
  cases ran : a.run s with
  | mk r s' =>
    rw [ran] at first
    cases r <;> exact first

end Concludes

end Runs

namespace Action

theorem run_create (w : World) (name : Text) (shape : Shape)
    (table : ClassId → Option DispatchTable) :
    (create name shape table).run w = (.ok w.classes.size,
      (w.pushClass name shape table).logged
        ⟨.debug, .runtime, "defined class " ++ name⟩) := by
  have size : (w.push .string (.string name)).objects.size = w.objects.size + 1 :=
    Array.size_push _
  rw [World.pushClass, ← size]
  rfl

/-- Run in the world `w`, if it is well formed, the action evolves it and ends as described. -/
def Ends {α : Type} (P : Policy) (a : Action α) (w : World) (Q : α → World → Prop)
    (E : Fault → World → Prop) : Prop :=
  w.WellFormed → Evolves P w (a.run w).2 ∧ Concludes Q E (a.run w)

/-- A contract with no more to say about faults than that exceptions are exceptions. -/
abbrev Orderly {α : Type} (P : Policy) (a : Action α) (w : World) (Q : α → World → Prop) : Prop :=
  Ends P a w Q Fault.Valid

namespace Ends
variable {α β : Type} {P : Policy} {w : World} {Q : α → World → Prop} {E : Fault → World → Prop}

theorem bind {a : Action α} {f : α → Action β} {R : β → World → Prop} (first : Ends P a w Q E)
    (next : ∀ x w', w'.WellFormed → Grows w w' → Q x w' → Ends P (f x) w' R E) :
    Ends P (a >>= f) w R E := by
  intro well
  obtain ⟨evolved, result⟩ := first well
  rw [run_bind]
  cases ran : a.run w with
  | mk r w' =>
    rw [ran] at evolved result
    cases r with
    | error e => exact ⟨evolved, result⟩
    | ok x =>
      have well' := evolved.wellFormed well
      obtain ⟨evolved', result'⟩ := next x w' well' evolved.grows result well'
      exact ⟨evolved.trans evolved', result'⟩

theorem andThen {a : Action α} {f : α → Action β} {R : β → World → Prop} (first : Ends P a w Q E)
    (next : ∀ x w', Ends P (f x) w' R E) : Ends P (a >>= f) w R E :=
  first.bind fun x w' _ _ _ => next x w'

/-- What comes after an action that leaves the world as it is starts in the same world. -/
theorem read {a : Action α} {f : α → Action β} {H : α → Prop} {R : β → World → Prop}
    (first : Ends P a w (fun x w' => H x ∧ w = w') E) (next : ∀ x, H x → Ends P (f x) w R E) :
    Ends P (a >>= f) w R E := by
  refine first.bind fun x w' _ _ holds => ?_
  obtain ⟨holds, rfl⟩ := holds
  exact next x holds

theorem observe {a : Action α} {f : α → Action β} {R : β → World → Prop}
    (first : Ends P a w (fun _ w' => w = w') E) (next : ∀ x, Ends P (f x) w R E) :
    Ends P (a >>= f) w R E := by
  refine first.bind fun x w' _ _ same => ?_
  cases same
  exact next x

theorem tryCatch {a : Action α} {f : Fault → Action α} {E' : Fault → World → Prop}
    (ends : Ends P a w Q E)
    (handled : ∀ e w', w'.WellFormed → Grows w w' → E e w' → Ends P (f e) w' Q E') :
    Ends P (tryCatch a f) w Q E' := by
  intro well
  obtain ⟨evolved, result⟩ := ends well
  rw [run_tryCatch]
  cases ran : a.run w with
  | mk r w' =>
    rw [ran] at evolved result
    cases r with
    | ok x => exact ⟨evolved, result⟩
    | error e =>
      have well' := evolved.wellFormed well
      obtain ⟨evolved', result'⟩ := handled e w' well' evolved.grows result well'
      exact ⟨evolved.trans evolved', result'⟩

theorem imp {a : Action α} {R : α → World → Prop} (ends : Ends P a w Q E)
    (weaker : ∀ x w', w'.WellFormed → Grows w w' → Q x w' → R x w') : Ends P a w R E := by
  intro well
  obtain ⟨evolved, result⟩ := ends well
  refine ⟨evolved, ?_⟩
  cases ran : a.run w with
  | mk r w' =>
    rw [ran] at evolved result
    cases r with
    | error e => exact result
    | ok x => exact weaker x w' (evolved.wellFormed well) evolved.grows result

theorem pure {x : α} (holds : w.WellFormed → Q x w) : Ends P (pure x) w Q E :=
  fun well => ⟨.refl, holds well⟩

theorem throw {e : Fault} (holds : E e w) : Ends P (throw e) w Q E :=
  fun _ => ⟨.refl, holds⟩

theorem of_wellFormed {a : Action α} (ends : w.WellFormed → Ends P a w Q E) : Ends P a w Q E :=
  fun well => ends well well

theorem get_bind {f : World → Action α} (next : Ends P (f w) w Q E) : Ends P (get >>= f) w Q E :=
  bind (Q := fun x w' => x = w ∧ w = w') (fun _ => ⟨.refl, rfl, rfl⟩)
    fun _ _ _ _ same => same.1 ▸ same.2 ▸ next

/-- An action that needs no permission leaves every object as it is. -/
theorem still {a : Action α} (ends : ∀ P, Ends P a w Q E) :
    Ends P a w (fun x w' => Q x w' ∧ w.Still w') E := by
  intro well
  obtain ⟨evolved, result⟩ := ends P well
  -- The run is the same under every policy, so the strictest one tells what it does to objects.
  have unmoved := (ends .quiet well).1.still
  refine ⟨evolved, ?_⟩
  cases ran : a.run w with
  | mk r w' =>
    rw [ran] at result unmoved
    cases r with
    | error e => exact result
    | ok x => exact ⟨result, unmoved⟩

theorem returns {a : Action α} (ends : Ends P a w Q fun _ _ => False) (well : w.WellFormed) :
    ∃ x w', a.run w = (.ok x, w') ∧ Evolves P w w' ∧ Q x w' := by
  obtain ⟨evolved, result⟩ := ends well
  cases ran : a.run w with
  | mk r w' =>
    rw [ran] at evolved result
    cases r with
    | error e => cases result
    | ok x => exact ⟨x, w', rfl, evolved, result⟩

theorem of_ok {a : Action α} (ends : Ends P a w Q E) (well : w.WellFormed) {x : α} {w' : World}
    (ran : a.run w = (.ok x, w')) : Evolves P w w' ∧ Q x w' := by
  obtain ⟨evolved, result⟩ := ends well
  rw [ran] at evolved result
  exact ⟨evolved, result⟩

theorem modify {f : World → World} {Q : PUnit → World → Prop} (change : Change P w (f w))
    (holds : Q ⟨⟩ (f w)) : Ends P (modify f) w Q E :=
  fun _ => ⟨.single change, holds⟩

end Ends

section Basic
variable {P : Policy} {w : World} {E : Fault → World → Prop}

theorem crash_ends {α : Type} {Q : α → World → Prop} (cause : Crash) :
    Orderly P (crash cause) w Q :=
  .throw trivial

theorem log_ends (severity : Severity) (logger : Logger) (text : Text) :
    Ends P (log severity logger text) w (fun _ _ => True) E :=
  .modify (.log ⟨severity, logger, text⟩) trivial

theorem allocate_ends {table : DispatchTable} {body : Body} (born : Allocation w table body) :
    Ends P (allocate table body) w
      (fun id w' => w'.object? id = some { table, body } ∧ w.object? id = none) E := by
  intro _
  refine ⟨.single (.allocate born), ?_, Array.getElem?_eq_none (Nat.le_refl _)⟩
  change (w.push table body).object? w.objects.size = _
  rw [World.object?_push, if_pos rfl]

theorem newContent_ends (c : Content) :
    Ends P (newContent c) w (fun id w' => w'.body? id = some (.string c)) E := by
  refine (allocate_ends (.string c)).imp fun id w' _ _ new => ?_
  rw [World.body?, new.1]
  rfl

theorem newString_ends (t : Text) :
    Ends P (newString t) w (fun id w' => w'.body? id = some (.string t)) E :=
  newContent_ends t

theorem object_ends (id : ObjectId) :
    Orderly P (object id) w (fun o w' => w.object? id = some o ∧ w = w') := by
  refine .get_bind ?_
  split
  · rename_i o found
    exact .pure fun _ => ⟨found, rfl⟩
  · exact crash_ends _

theorem classOf_ends {c : ClassId} {k : Class} (known : w.class? c = some k) :
    Ends P (classOf c) w (fun k' w' => k' = k ∧ w = w') E := by
  refine .get_bind ?_
  rw [known]
  exact .pure fun _ => ⟨rfl, rfl⟩

theorem classOf_orderly (c : ClassId) :
    Orderly P (classOf c) w (fun k w' => w.class? c = some k ∧ w = w') := by
  refine .get_bind ?_
  split
  · rename_i k known
    exact .pure fun _ => ⟨known, rfl⟩
  · exact crash_ends _

theorem demand_ends {α : Type} (value : Option α) :
    Orderly P (demand value) w (fun x w' => value = some x ∧ w = w') := by
  cases value with
  | none => exact crash_ends _
  | some x => exact .pure fun _ => ⟨rfl, rfl⟩

theorem className_ends (c : Option ClassId) : Orderly P (className c) w (fun _ _ => True) := by
  refine (demand_ends c).andThen fun c _ => ?_
  exact (classOf_orderly c).andThen fun _ _ => .pure fun _ => trivial

end Basic

end Action

end ObjectModel
