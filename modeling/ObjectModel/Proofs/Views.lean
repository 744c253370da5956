import ObjectModel.Proofs.Definition
import ObjectModel.Proofs.Embedding

/-!
Casts and the views of one object. At most one view of an object is of a given type that is no
interface, so a cast to the type finds that view from wherever it starts, or none. A cast of an
object that has a class ends with a view of it or with a class cast exception.
-/

namespace ObjectModel

namespace CastTarget

/-- A type that at most one view of an object has; interfaces are none. -/
def Concrete : CastTarget → Prop
  | .any | .shape => False
  | .view _ | .array _ | .grid _ => True

section Views
variable {t : CastTarget} {v u : View} {body : Body}

theorem Concrete.accepts_unique (concrete : t.Concrete) (one : t.accepts v body = true)
    (other : t.accepts u body = true) : v = u := by
  cases t with
  | any => cases concrete
  | shape => cases concrete
  | view z =>
    have same : v = z := eq_of_beq one
    have same' : u = z := eq_of_beq other
    rw [same, same']
  | array e =>
    cases body with
    | array cells =>
      have same : v = .array := eq_of_beq (Bool.and_eq_true_iff.mp one).1
      have same' : u = .array := eq_of_beq (Bool.and_eq_true_iff.mp other).1
      rw [same, same']
    | _ => cases one
  | grid e =>
    cases body with
    | grid cells =>
      have same : v = .grid := eq_of_beq (Bool.and_eq_true_iff.mp one).1
      have same' : u = .grid := eq_of_beq (Bool.and_eq_true_iff.mp other).1
      rw [same, same']
    | _ => cases one

/-- What is embedded is held by reference, as is the whole. -/
theorem Concrete.isReference (concrete : t.Concrete) (inside : v ∈ body.view.embedded)
    (accepted : t.accepts v body = true) : (t.isReference && body.view.isReference) = true := by
  have references : v.isReference = true ∧ body.view.isReference = true := by
    rw [View.embedded_eq] at inside
    grind [View.isReference]
  cases t with
  | any => cases concrete
  | shape => cases concrete
  | view z =>
    obtain rfl : v = z := eq_of_beq accepted
    simp [isReference, references]
  | array e => simp [isReference, references]
  | grid e => simp [isReference, references]

/-- The view that a cast gives does not depend on the view that it starts from. -/
theorem Concrete.viewOf?_iff (concrete : t.Concrete)
    (own : v ∈ body.view :: body.view.embedded) : t.viewOf? v body = some u ↔
      u ∈ body.view :: body.view.embedded ∧ t.accepts u body = true := by
  constructor
  · intro chosen
    obtain ⟨member, accepted⟩ := viewOf?_some chosen
    rcases List.mem_cons.mp member with rfl | member
    · exact ⟨own, accepted⟩
    · exact ⟨member, accepted⟩
  · rintro ⟨member, accepted⟩
    have unique {z : View} (also : t.accepts z body = true) : z = u :=
      concrete.accepts_unique also accepted
    unfold viewOf?
    split
    · rename_i first
      rw [unique first]
    · split
      · rename_i whole
        rw [unique whole]
      · rename_i whole
        have inside : u ∈ body.view.embedded := by
          rcases List.mem_cons.mp member with rfl | inside
          · exact absurd accepted whole
          · exact inside
        rw [if_pos (concrete.isReference inside accepted)]
        cases chosen : body.view.embedded.find? fun z => t.accepts z body with
        | none => exact absurd accepted (List.find?_eq_none.mp chosen u inside)
        | some z =>
          have also := List.find?_some chosen
          rw [unique also]

end Views

end CastTarget

namespace World

variable {w : World} {id : ObjectId} {o : Obj}

theorem WellFormed.classOf?_lt (well : w.WellFormed) {c : ClassId}
    (resolved : w.classOf? id = some c) : c < w.classes.size := by
  obtain ⟨o, found, own⟩ := Option.bind_eq_some_iff.mp resolved
  have valid := well.object_table_valid found
  unfold owner? at own
  split at own
  · rename_i known
    cases own
    exact valid o.table.own List.mem_cons_self c known
  · exact lt_of_find? own
  · cases own
  · cases own

theorem handle_valid_view {v whole : View} (has : (w.body? id).map Body.view = some whole)
    (own : v ∈ whole :: whole.embedded) : (Handle.object id v).Valid w := by
  obtain ⟨body, held, rfl⟩ := Option.map_eq_some_iff.mp has
  obtain ⟨o, found, rfl⟩ := Option.map_eq_some_iff.mp held
  rintro _ _ ⟨rfl⟩
  exact ⟨o, found, own⟩

end World

namespace Action

/-- The action ends by throwing an exception of this kind with this message. -/
def Throws {α : Type} (a : Action α) (w : World) (k : Kind) (message : Text) : Prop :=
  ∃ e w', a.run w = (.error (.thrown e), w') ∧ w'.exception? e = some (k, message)

section Runs
variable {α β : Type} {w w' : World} {id : ObjectId} {o : Obj} {c : ClassId} {k : Class}

theorem raise_throws (well : w.WellFormed) (kind : Kind) (message : Text) :
    (raise kind message : Action α).Throws w kind message := by
  have contract : Ends .quiet (raise kind message : Action α) w (fun _ _ => False)
      (fun e w' => ∃ id, e = .thrown id ∧ w'.body? id = some (.exception kind message)) :=
    raise_ends kind message fun id _ _ new => ⟨id, rfl, new⟩
  obtain ⟨-, ended⟩ := contract well
  cases ran : (raise kind message : Action α).run w with
  | mk r w' =>
    rw [ran] at ended
    cases r with
    | ok x => cases ended
    | error e =>
      obtain ⟨id, rfl, has⟩ := ended
      exact ⟨id, w', ran, by rw [World.exception?, has]⟩

theorem Throws.after {a : Action α} {f : α → Action β} {x : α} {kind : Kind} {message : Text}
    (ran : a.run w = (.ok x, w')) (throws : (f x).Throws w' kind message) :
    (a >>= f).Throws w kind message := by
  obtain ⟨e, w'', ended, exception⟩ := throws
  refine ⟨e, w'', ?_, exception⟩
  rw [run_bind, ran]
  exact ended

theorem Throws.first {a : Action α} {f : α → Action β} {kind : Kind} {message : Text}
    (throws : a.Throws w kind message) : (a >>= f).Throws w kind message := by
  obtain ⟨e, w', ended, exception⟩ := throws
  refine ⟨e, w', ?_, exception⟩
  rw [run_bind, ended]

/-- Asking for the class of an object leaves a world in which it is known. -/
theorem getClass_settled (well : w.WellFormed) {v : View}
    (ran : (objectGetClass (.object id v)).run w = (.ok (some c), w')) :
    Evolves .quiet w w' ∧ w'.WellFormed ∧ w'.classOf? id = some c ∧
      ∃ k, w'.class? c = some k := by
  obtain ⟨run, _, _, same, resolved⟩ := (objectGetClass_ends (P := .quiet) _).of_ok well ran
  cases same
  have well' := run.wellFormed well
  exact ⟨run, well', resolved, World.class?_of_lt (well'.classOf?_lt resolved)⟩

theorem objectEquals_self (v v' : View) :
    (objectEquals (.object id v) (.object id v')).run w = (.ok true, w) := by
  change (Except.ok (some id == some id), w) = _
  rw [beq_self_eq_true]

theorem isInstance_classed {v : View}
    (ran : (objectGetClass (.object id v)).run w = (.ok (some c), w')) (d : Option ClassId) :
    (isInstance d (.object id v)).run w = (.ok (w'.isSubclassOf (some c) d), w') := by
  change (do let c ← objectGetClass (.object id v); return (← get).isSubclassOf c d :
    Action Bool).run w = _
  rw [run_bind, ran]
  rfl

end Runs

section Casts
variable {w w' : World} {id : ObjectId} {o : Obj} {c d : ClassId} {k l : Class} {v v' : View}
  {t : CastTarget}

theorem run_represent (found : w.object? id = some o) :
    (represent t (.object id v)).run w =
      match t.viewOf? v o.body with
      | some u => (.ok (.object id u), w)
      | none => (do
          let actual ← className (← objectGetClass (.object id v))
          raise .classCast ("class " ++ actual ++ " cannot be represented as " ++ t.name) :
          Action Handle).run w := by
  change (do
    let o ← object id
    match t.viewOf? v o.body with
    | some u => return .object id u
    | none =>
      let actual ← className (← objectGetClass (.object id v))
      raise .classCast ("class " ++ actual ++ " cannot be represented as " ++ t.name) :
    Action Handle).run w = _
  rw [run_bind, run_object found]
  dsimp only
  split
  · rfl
  · rfl

theorem represent_view (concrete : t.Concrete) (found : w.object? id = some o)
    (own : v ∈ o.body.view :: o.body.view.embedded)
    (own' : v' ∈ o.body.view :: o.body.view.embedded) :
    (represent t (.object id v)).run w = (represent t (.object id v')).run w := by
  have same : t.viewOf? v o.body = t.viewOf? v' o.body := by
    apply Option.ext
    intro u
    rw [concrete.viewOf?_iff own, concrete.viewOf?_iff own']
  rw [run_represent found, run_represent found, same]
  rfl

theorem cast_object (t : CastTarget) (d : ClassId) (id : ObjectId) (v : View) :
    cast t (some d) (.object id v) =
      (checkInstance d (.object id v) >>= fun _ => represent t (.object id v)) :=
  rfl

/-- A cast to a type that is no interface ends in the same way through all views of an object. -/
theorem cast_view (well : w.WellFormed) (concrete : t.Concrete)
    (valid : (Handle.object id v).Valid w) (valid' : (Handle.object id v').Valid w)
    (target : Option ClassId) :
    (cast t target (.object id v)).run w = (cast t target (.object id v')).run w := by
  cases target with
  | none =>
    obtain ⟨e, w', ran, -⟩ : (classOperand none).Throws w .nullPointer [] := raise_throws well _ _
    rw [cast, cast, run_bind, run_bind, ran]
  | some c =>
    rw [cast_object, cast_object]
    change _ = (checkInstance c (.object id v) >>= fun _ => represent t (.object id v')).run w
    have grown := ((checkInstance_ends (P := .any) c (.object id v)) well).1.grows
    rw [run_bind, run_bind]
    cases ran : (checkInstance c (.object id v)).run w with
    | mk r w' =>
      rw [ran] at grown
      cases r with
      | error e => rfl
      | ok x =>
        obtain ⟨o, found, own⟩ := valid.mono grown id v rfl
        obtain ⟨o', found', own'⟩ := valid'.mono grown id v' rfl
        rw [found] at found'
        cases found'
        exact represent_view concrete found own own'

theorem checkInstance_below (ran : (objectGetClass (.object id v)).run w = (.ok (some c), w'))
    (below : w'.isSubclass c d = true) : (checkInstance d (.object id v)).run w = (.ok ⟨⟩, w') := by
  unfold checkInstance
  rw [run_bind, isInstance_classed ran]
  simp only [World.isSubclassOf, below]
  rfl

theorem checkInstance_apart (well : w.WellFormed)
    (ran : (objectGetClass (.object id v)).run w = (.ok (some c), w'))
    (apart : w'.isSubclass c d = false) (own : w'.class? c = some k)
    (known : w'.class? d = some l) :
    (checkInstance d (.object id v)).Throws w .classCast
      ("class " ++ k.name ++ " cannot be cast to class " ++ l.name) := by
  obtain ⟨-, well', resolved, -⟩ := getClass_settled well ran
  unfold checkInstance
  apply Throws.after (isInstance_classed ran (some d))
  simp only [World.isSubclassOf, apart]
  apply Throws.after (well'.getClass_resolved resolved v)
  apply Throws.after (run_className own)
  apply Throws.after (run_className known)
  exact raise_throws well' _ _

theorem represent_throws (well : w.WellFormed) (resolved : w.classOf? id = some c)
    (own : w.class? c = some k) (found : w.object? id = some o)
    (none : t.viewOf? v o.body = none) :
    (represent t (.object id v)).Throws w .classCast
      ("class " ++ k.name ++ " cannot be represented as " ++ t.name) := by
  have throws : (do
      let actual ← className (← objectGetClass (.object id v))
      raise .classCast ("class " ++ actual ++ " cannot be represented as " ++ t.name) :
      Action Handle).Throws w .classCast
        ("class " ++ k.name ++ " cannot be represented as " ++ t.name) := by
    apply Throws.after (well.getClass_resolved resolved v)
    apply Throws.after (run_className own)
    exact raise_throws well _ _
  obtain ⟨e, w', ended, exception⟩ := throws
  refine ⟨e, w', ?_, exception⟩
  rw [run_represent found, none]
  exact ended

section Classed
variable (well : w.WellFormed) (found : w.object? id = some o)
  (ran : (objectGetClass (.object id v)).run w = (.ok (some c), w'))
include well found ran

theorem cast_represented {u : View} (below : w'.isSubclass c d = true)
    (chosen : t.viewOf? v o.body = some u) :
    (cast t (some d) (.object id v)).run w = (.ok (.object id u), w') := by
  have found' := (getClass_settled well ran).1.still id o found
  rw [cast_object, run_bind, checkInstance_below ran below]
  dsimp only
  rw [run_represent found', chosen]

theorem cast_unrepresented (below : w'.isSubclass c d = true) (own : w'.class? c = some k)
    (none : t.viewOf? v o.body = none) :
    (cast t (some d) (.object id v)).Throws w .classCast
      ("class " ++ k.name ++ " cannot be represented as " ++ t.name) := by
  obtain ⟨run, well', resolved, -⟩ := getClass_settled well ran
  rw [cast_object]
  apply Throws.after (checkInstance_below ran below)
  exact represent_throws well' resolved own (run.still id o found) none

omit found in
theorem cast_apart (apart : w'.isSubclass c d = false) (own : w'.class? c = some k)
    (known : w'.class? d = some l) :
    (cast t (some d) (.object id v)).Throws w .classCast
      ("class " ++ k.name ++ " cannot be cast to class " ++ l.name) := by
  rw [cast_object]
  exact (checkInstance_apart well ran apart own known).first

/-- A cast of an object that has a class gives a view of it or throws. -/
theorem cast_classed (known : w.class? d = some l) :
    (∃ u, (cast t (some d) (.object id v)).run w = (.ok (.object id u), w')) ∨
      ∃ message, (cast t (some d) (.object id v)).Throws w .classCast message := by
  obtain ⟨run, -, -, k, own⟩ := getClass_settled well ran
  cases below : w'.isSubclass c d with
  | false => exact .inr ⟨_, cast_apart well ran below own (run.grows.class? known)⟩
  | true =>
    cases chosen : t.viewOf? v o.body with
    | none => exact .inr ⟨_, cast_unrepresented well found ran below own chosen⟩
    | some u => exact .inl ⟨u, cast_represented well found ran below chosen⟩

end Classed

/-- Casting an object to one of its views gives that view. -/
theorem cast_to_view (well : w.WellFormed) (found : w.object? id = some o)
    (own : v ∈ o.body.view :: o.body.view.embedded)
    (own' : v' ∈ o.body.view :: o.body.view.embedded)
    (ran : (objectGetClass (.object id v)).run w = (.ok (some c), w'))
    (below : w'.isSubclass c d = true) :
    (cast (.view v') (some d) (.object id v)).run w = (.ok (.object id v'), w') := by
  have concrete : (CastTarget.view v').Concrete := trivial
  have chosen : (CastTarget.view v').viewOf? v o.body = some v' :=
    (concrete.viewOf?_iff own).mpr ⟨own', beq_self_eq_true v'⟩
  exact cast_represented well found ran below chosen

end Casts

end Action

end ObjectModel
