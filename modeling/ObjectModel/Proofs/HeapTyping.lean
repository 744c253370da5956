import ObjectModel.Proofs.ArrayClass

/-!
Typing of the heap. Every element of an array of references is null or an instance of the component
class of the array's own class, and stays so: the class of an object never changes, and a subclass
remains one.
-/

namespace ObjectModel

theorem Element.ref_of_hasType {e : Element} {type : ElementType} (typed : e.hasType type = true)
    (objects : type.holdsObjects = true) : ∃ h, e = .ref h := by
  cases e with
  | ref h => exact ⟨h, rfl⟩
  | _ => cases type <;> cases objects <;> cases typed

namespace World

section Arrays
variable {w : World} {id : ObjectId}

/-- An array was made for a class, and its own class is the one registered for arrays of it. -/
theorem WellFormed.array_born (well : w.WellFormed) {o : Obj} {f : Format}
    (found : w.object? id = some o) (formed : o.body.format? = some f) :
    ∃ c k a, w.class? c = some k ∧ w.find? (k.arrayKey f.rank) = some a ∧
      w.classOf? id = some a ∧ f.checked = !k.shape.isPrimitive ∧
      (k.shape.isPrimitive || f.element.holdsObjects) = true := by
  have own : w.classOf? id = w.owner? o.table := by
    rw [classOf?, found]
    rfl
  rw [own]
  cases well.born found with
  | metaclass _ _ _ body =>
    rw [body] at formed
    cases formed
  | @allocation body born kin =>
    rw [kin.format?_eq] at formed
    generalize o.table = table at born
    cases born with
    | array e n fit known registered own =>
      cases formed
      exact ⟨_, _, _, known, registered, well.owner_of_table own, rfl, fit⟩
    | grid e n m fit known registered own =>
      cases formed
      exact ⟨_, _, _, known, registered, well.owner_of_table own, rfl, fit⟩
    | member _ sound =>
      cases body with
      | array => cases sound
      | grid => cases sound
      | _ => cases formed
    | _ => cases formed

theorem Filled.stored {body : Body} {f : Format} (filled : w.Filled id body)
    (formed : body.format? = some f) {e : Element} (member : e ∈ body.elements) :
    w.Stored id f.element f.checked e := by
  cases body with
  | array cells =>
    cases formed
    exact filled e member
  | grid cells =>
    cases formed
    obtain ⟨row, here, inside⟩ := List.mem_flatten.mp member
    exact filled row here e inside
  | _ => cases formed

theorem WellFormed.isInstance_below (well : w.WellFormed) {c d : ClassId} (v : View)
    (resolved : w.classOf? id = some c) (below : w.isSubclass c d = true) :
    (Action.isInstance (some d) (.object id v)).run w = (.ok true, w) := by
  unfold Action.isInstance
  rw [if_neg (by simp [Handle.isNull]), run_bind, well.getClass_resolved resolved]
  dsimp only
  rw [run_get_bind, isSubclassOf, below]
  rfl

theorem WellFormed.checked_of_component (well : w.WellFormed) {o : Obj} {f : Format}
    (found : w.object? id = some o) (formed : o.body.format? = some f) {a d : ClassId}
    {k m : Class} (resolved : w.classOf? id = some a) (known : w.class? a = some k)
    (holds : k.shape.component? = some d) (inside : w.class? d = some m)
    (reference : m.shape ≠ .primitive) : f.checked = true := by
  obtain ⟨c, l, a', given, registered, own, checked, _⟩ := well.array_born found formed
  rw [resolved] at own
  cases own
  rw [checked, Bool.not_eq_true']
  -- A primitive type and the component would have the same descriptor.
  cases primitive : l.shape with
  | primitive =>
    cases shape : k.shape with
    | array rank d' s =>
      rw [shape] at holds
      cases holds
      have keys := find?_injective (well.find_array known shape inside) registered
      obtain ⟨e, n, one, other⟩ :=
        (well.sameType_iff inside given).mpr (Rank.key_injective keys).2
      have simple : w.Nested c c 0 := .element given (by rw [primitive]; rfl)
      obtain ⟨rfl, rfl⟩ := simple.unique other
      rw [one.eq_of_zero rfl, given] at inside
      cases inside
      exact absurd primitive reference
    | _ => rw [shape] at holds; cases holds
  | _ => rfl

end Arrays

end World

/-- In every session that a script reaches, each array has a class, and in an array of references
every element is null or passes the instance test of the component of that class. -/
theorem Script.Session.Reachable.elements_fit {s : Script.Session} (reached : s.Reachable)
    {id : ObjectId} {o : Obj} {f : Format} (found : s.world.object? id = some o)
    (formed : o.body.format? = some f) :
    ∃ a k, (∀ v, (Action.objectGetClass (.object id v)).run s.world = (.ok (some a), s.world)) ∧
      s.world.class? a = some k ∧
      (∀ d m, k.shape.component? = some d → s.world.class? d = some m → m.shape ≠ .primitive →
        f.checked = true) ∧
      (f.checked = true → ∀ e ∈ o.body.elements, ∃ h, e = .ref h ∧ (h.isNull = true ∨
        ∃ d, k.shape.component? = some d ∧
          (Action.isInstance (some d) h).run s.world = (.ok true, s.world))) := by
  have well := reached.valid.well
  obtain ⟨c, l, a, given, registered, resolved, checked, fit⟩ := well.array_born found formed
  obtain ⟨k, known, _⟩ := World.find?_some registered
  refine ⟨a, k, well.getClass_resolved resolved, known, ?_, ?_⟩
  · intro d m holds inside reference
    exact well.checked_of_component found formed resolved known holds inside reference
  · intro reference e member
    have stored := (well.filled found).stored formed member
    have objects : f.element.holdsObjects = true := by
      rw [reference, eq_comm, Bool.not_eq_true'] at checked
      rw [checked, Bool.false_or] at fit
      exact fit
    obtain ⟨h, rfl⟩ := Element.ref_of_hasType stored.typed objects
    refine ⟨h, rfl, ?_⟩
    cases stored.fits reference with
    | null null => exact .inl null
    | member arrays known' holds element below =>
      rw [resolved] at arrays
      cases arrays
      rw [known] at known'
      cases known'
      exact .inr ⟨_, holds, well.isInstance_below _ element below⟩

namespace Script

/-- A script that stores a point and a view of it, fails to store a string, and releases the
point. -/
def pointArray : List Step :=
  [.perform (.object (.newColorPoint 1 2 (.string "red"))) (some "p") none,
    .perform (.array (.newArray none (.named .point) 3)) (some "a") none,
    .perform (.array (.set (.variable "a") 0 (.ref (.variable "p")))) none none,
    .perform (.object (.view (.variable "p") .point)) (some "q") none,
    .perform (.array (.set (.variable "a") 1 (.ref (.variable "q")))) none none,
    .perform (.array (.set (.variable "a") 2 (.ref (.string "blue")))) none (some "x"),
    .perform (.object (.release (.variable "p"))) none none]

theorem elements_fit_pointArray :
    let s := ((Session.withVerbosity {} 0).runAll pointArray).2
    s.Reachable ∧ ∃ o a k d, s.world.object? 12 = some o ∧
      o.body.format? = some ⟨.one, .object, true⟩ ∧
      o.body.elements = [.ref (.object 7 .colorPoint), .ref (.object 7 .point), .ref .null] ∧
      (Action.objectGetClass (.object 12 .array)).run s.world = (.ok (some a), s.world) ∧
      s.world.class? a = some k ∧ k.shape.component? = some d ∧
      (Action.isInstance (some d) (.object 7 .point)).run s.world = (.ok true, s.world) := by
  intro s
  have reached : s.Reachable := (Session.Reachable.start {} 0).runAll pointArray
  have shown : (s.world.object? 12).map (fun o => (o.body.format?, o.body.elements)) =
      some (some ⟨.one, .object, true⟩,
        [.ref (.object 7 .colorPoint), .ref (.object 7 .point), .ref .null]) := by decide +kernel
  obtain ⟨o, found, both⟩ := Option.map_eq_some_iff.mp shown
  obtain ⟨formed, stored⟩ := Prod.mk.inj both
  obtain ⟨a, k, resolved, known, _, fits⟩ := reached.elements_fit found formed
  obtain ⟨h, same, fit⟩ := fits rfl (.ref (.object 7 .point)) (by rw [stored]; simp)
  cases same
  rcases fit with null | ⟨d, holds, test⟩
  · cases null
  · exact ⟨reached, o, a, k, d, found, formed, stored, resolved .array, known, holds, test⟩

end Script

end ObjectModel
