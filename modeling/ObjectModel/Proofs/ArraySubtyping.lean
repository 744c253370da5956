import ObjectModel.Proofs.ArrayClass
import ObjectModel.Proofs.Inheritance

/-!
Subtypes among array classes. Where no defined class takes the key of an array class, the classes
above an array class are at most three: the class of two-dimensional arrays of the root class, the
class of its one-dimensional arrays, and the root class. Which of them are above it depends on the
rank and on whether the component is primitive, however deep the component is nested.
-/

namespace ObjectModel.World

/-- The class goes by this name and has so many dimensions. -/
def Called (w : World) (c : ClassId) (name : Text) (dimensions : Nat) : Prop :=
  ∃ k, w.class? c = some k ∧ k.name = name ∧ k.shape.dimensions = dimensions

/-- A class of objects or of arrays, not a primitive type. -/
def IsReference (w : World) (c : ClassId) : Prop :=
  ∃ k, w.class? c = some k ∧ k.shape ≠ .primitive

section Names
variable {w : World} {c r : ClassId}

theorem WellFormed.called_object_iff (well : w.WellFormed)
    (found : w.find? (Core.name .object) = some r) :
    w.Called c "java.lang.Object" 0 ↔ c = r := by
  constructor
  · rintro ⟨k, known, name, -⟩
    exact (well.eq_root_iff found known).mpr ((well.root_iff known).mpr name)
  · rintro rfl
    obtain ⟨k, known, root, name, -⟩ := well.root_of_find found
    exact ⟨k, known, name, by rw [root]; rfl⟩

/-- A class with the descriptor of the root class is the root class. -/
theorem WellFormed.eq_root_of_descriptor (well : w.WellFormed)
    (found : w.find? (Core.name .object) = some r) {k : Class} (known : w.class? c = some k)
    (same : k.descriptor = rootDescriptor) : c = r := by
  obtain ⟨l, there, root, name, -⟩ := well.root_of_find found
  have descriptor : l.descriptor = rootDescriptor := by
    rw [Class.descriptor, root, name]
    rfl
  apply well.eq_of_rootDescriptor there descriptor
  rw [well.sameType_iff known there, same, descriptor]

/-- The class under the key for arrays of the root class is the class of these arrays. -/
theorem WellFormed.rootArray_shape (well : w.WellFormed) (plain : w.PlainNames)
    (found : w.find? (Core.name .object) = some r) {rank : Rank} {a : ClassId}
    (here : w.find? rank.rootKey = some a) :
    ∃ l s, w.class? a = some l ∧ l.name = rank.brackets ++ rootDescriptor ∧
      l.shape = .array rank r s ∧ w.find? rank.baseKey = some s := by
  obtain ⟨l, d, s, m, known, shape, inside, descriptor⟩ := well.array_of_key plain here
  obtain rfl := well.eq_root_of_descriptor found inside descriptor
  obtain ⟨m', inside', name, above⟩ := (well.made known).array_name shape
  rw [inside] at inside'
  cases inside'
  rw [Action.root_arraySuperclassKey ((well.eq_root_iff found inside).mp rfl)] at above
  exact ⟨l, s, known, by rw [name, Class.arrayName, descriptor], shape, above⟩

theorem WellFormed.called_rootArray_iff (well : w.WellFormed) (plain : w.PlainNames)
    (found : w.find? (Core.name .object) = some r) (rank : Rank) :
    w.Called c (rank.brackets ++ rootDescriptor) rank.toNat ↔ w.find? rank.rootKey = some c := by
  constructor
  · rintro ⟨k, known, name, dimensions⟩
    have key : k.key = rank.rootKey := by
      rw [(key_eq_of_dimensions k).2, name, dimensions]
      cases rank <;> rfl
    exact key ▸ well.keyed known
  · intro here
    obtain ⟨l, s, known, name, shape, -⟩ := well.rootArray_shape plain found here
    exact ⟨l, known, name, by rw [shape]; rfl⟩

end Names

section Chains
variable {w : World} {a d s r : ClassId}

/-- What a class is a subclass of, besides itself, its superclass is. -/
theorem WellFormed.isSubclass_above (well : w.WellFormed) (above : w.Above a s) :
    w.isSubclass a d = true ↔ d = a ∨ w.isSubclass s d = true := by
  rw [isSubclass_iff, isSubclass_iff, well.superclasses_above above, List.mem_cons]

theorem WellFormed.isSubclass_of_root (well : w.WellFormed)
    (found : w.find? (Core.name .object) = some r) : w.isSubclass r d = true ↔ d = r := by
  obtain ⟨k, known, root, -⟩ := well.root_of_find found
  have top : w.superclass? r = none := by
    rw [superclass?_of_class? known, root]
    rfl
  rw [isSubclass_iff, superclasses_top top, List.mem_singleton]

theorem above_of_array {k : Class} {rank : Rank} {e : ClassId} (known : w.class? a = some k)
    (shape : k.shape = .array rank e s) : w.Above a s := by
  rw [Above, superclass?_of_class? known, shape]
  rfl

theorem WellFormed.isSubclass_of_rootArray (well : w.WellFormed) (plain : w.PlainNames)
    (found : w.find? (Core.name .object) = some r)
    (here : w.find? (Rank.rootKey .one) = some a) :
    w.isSubclass a d = true ↔ d = a ∨ d = r := by
  obtain ⟨l, s, known, -, shape, above⟩ := well.rootArray_shape plain found here
  obtain rfl : r = s := Option.some.inj (found.symm.trans above)
  rw [well.isSubclass_above (above_of_array known shape), well.isSubclass_of_root found]

theorem WellFormed.isSubclass_of_rootGrid (well : w.WellFormed) (plain : w.PlainNames)
    (found : w.find? (Core.name .object) = some r) (here : w.find? (Rank.rootKey .two) = some a) :
    w.isSubclass a d = true ↔ d = a ∨ w.find? (Rank.rootKey .one) = some d ∨ d = r := by
  obtain ⟨l, s, known, -, shape, above⟩ := well.rootArray_shape plain found here
  have rows : w.find? (Rank.rootKey .one) = some s := above
  rw [well.isSubclass_above (above_of_array known shape),
    well.isSubclass_of_rootArray plain found rows, rows, Option.some.injEq, eq_comm (a := s)]

/-- The classes above an array class, by the keys of the classes that may be. -/
theorem WellFormed.isSubclass_of_array (well : w.WellFormed) (plain : w.PlainNames)
    (found : w.find? (Core.name .object) = some r) {k : Class} {rank : Rank} {e : ClassId}
    (known : w.class? a = some k) (shape : k.shape = .array rank e s) (d : ClassId) :
    w.isSubclass a d = true ↔ d = a ∨ d = r ∨
      w.find? (Rank.rootKey .one) = some d ∧ (rank = .two ∨ w.IsReference e) ∨
      w.find? (Rank.rootKey .two) = some d ∧ rank = .two ∧ w.IsReference e := by
  obtain ⟨m, inside, -, above⟩ := (well.made known).array_name shape
  have reference : w.IsReference e ↔ m.shape ≠ .primitive := by simp [IsReference, inside]
  rw [reference, well.isSubclass_above (above_of_array known shape)]
  unfold Class.arraySuperclassKey at above
  cases component : m.shape with
  | root =>
    -- The class is itself the class of arrays of the root class.
    have own := well.find_array known shape inside
    rw [Action.root_arrayKey component ((well.root_iff inside).mp component)] at own
    rw [← well.isSubclass_above (above_of_array known shape)]
    cases rank with
    | one =>
      rw [well.isSubclass_of_rootArray plain found own, own]
      grind
    | two =>
      rw [well.isSubclass_of_rootGrid plain found own, own]
      grind
  | primitive =>
    rw [component] at above
    cases rank with
    | one =>
      obtain rfl : r = s := Option.some.inj (found.symm.trans above)
      rw [well.isSubclass_of_root found]
      grind
    | two =>
      have rows : w.find? (Rank.rootKey .one) = some s := above
      rw [well.isSubclass_of_rootArray plain found rows, rows]
      grind
  | _ =>
    rw [component] at above
    have arrays : w.find? rank.rootKey = some s := above
    cases rank with
    | one =>
      rw [well.isSubclass_of_rootArray plain found arrays, arrays]
      grind
    | two =>
      rw [well.isSubclass_of_rootGrid plain found arrays, arrays]
      grind

end Chains

section Consequences
variable {w : World} {a d s e f t p : ClassId} {k l : Class} {rank : Rank}

theorem WellFormed.root_of_array (well : w.WellFormed) (known : w.class? a = some k)
    (shape : k.shape = .array rank e s) : ∃ r, w.find? (Core.name .object) = some r :=
  well.root_found known (by simp [shape])

/-- A derived class is not above an array class. -/
theorem WellFormed.not_isSubclass_derived (well : w.WellFormed) (plain : w.PlainNames)
    (known : w.class? a = some k) (shape : k.shape = .array rank e s)
    (there : w.class? d = some l) (derived : l.shape = .derived p) :
    w.isSubclass a d = false := by
  obtain ⟨r, found⟩ := well.root_of_array known shape
  have array {rank : Rank} (here : w.find? rank.rootKey = some d) : False := by
    obtain ⟨m, s, there', -, shape', -⟩ := well.rootArray_shape plain found here
    rw [there] at there'
    cases there'
    rw [derived] at shape'
    cases shape'
  rw [← Bool.not_eq_true, well.isSubclass_of_array plain found known shape]
  rintro (rfl | rfl | ⟨rows, -⟩ | ⟨grids, -⟩)
  · rw [known] at there
    cases there
    rw [shape] at derived
    cases derived
  · have top := (well.eq_root_iff found there).mp rfl
    rw [derived] at top
    cases top
  · exact array rows
  · exact array grids

/-- One-dimensional array classes are subclasses only if their components are. -/
theorem WellFormed.isSubclass_component (well : w.WellFormed) (plain : w.PlainNames)
    (known : w.class? a = some k) (shape : k.shape = .array .one e s)
    (there : w.class? d = some l) (shape' : l.shape = .array .one f t)
    (below : w.isSubclass a d = true) : w.isSubclass e f = true := by
  obtain ⟨r, found⟩ := well.root_of_array known shape
  rw [well.isSubclass_of_array plain found known shape] at below
  rcases below with rfl | rfl | ⟨rows, single | ⟨m, inside, reference⟩⟩ | ⟨-, single, -⟩
  · rw [known] at there
    cases there
    rw [shape] at shape'
    cases shape'
    exact isSubclass_iff.mpr List.mem_cons_self
  · have top := (well.eq_root_iff found there).mp rfl
    rw [shape'] at top
    cases top
  · cases single
  · -- The components of the class above are of the root class.
    obtain ⟨l', t', there', -, component, -⟩ := well.rootArray_shape plain found rows
    rw [there] at there'
    cases there'
    rw [shape'] at component
    cases component
    obtain ⟨r', found', below⟩ := well.isSubclass_root inside reference
    rw [found] at found'
    cases found'
    exact below
  · cases single

end Consequences

/-- Which classes are above the array classes, and what follows for defined classes and for
components. -/
structure ArraySubtyping (w : World) : Prop where
  subclass_iff : ∀ {a k rank e s}, w.class? a = some k → k.shape = .array rank e s → ∀ d,
    (w.isSubclass a d = true ↔ d = a ∨ w.Called d "java.lang.Object" 0 ∨
      w.Called d "[Ljava.lang.Object;" 1 ∧ (rank = .two ∨ w.IsReference e) ∨
      w.Called d "[[Ljava.lang.Object;" 2 ∧ rank = .two ∧ w.IsReference e)
  /-- Definitions make derived classes, and none of these is above an array class. -/
  derived_apart : ∀ {a k rank e s d l p}, w.class? a = some k → k.shape = .array rank e s →
    w.class? d = some l → l.shape = .derived p → w.isSubclass a d = false
  component_below : ∀ {a k e s b l f t}, w.class? a = some k → k.shape = .array .one e s →
    w.class? b = some l → l.shape = .array .one f t → w.isSubclass a b = true →
    w.isSubclass e f = true

end ObjectModel.World

namespace ObjectModel.Script

/-- In every session that a script reaches with plain names, the classes above an array class are
those that its rank and its component give. -/
theorem Session.Reachable.array_subtyping {s : Session} (reached : s.Reachable)
    (plain : s.world.PlainNames) : s.world.ArraySubtyping := by
  have well := reached.valid.well
  constructor
  case subclass_iff =>
    intro a k rank e s known shape d
    obtain ⟨r, found⟩ := well.root_of_array known shape
    have one := well.called_rootArray_iff plain found (c := d) .one
    have two := well.called_rootArray_iff plain found (c := d) .two
    rw [well.isSubclass_of_array plain found known shape, well.called_object_iff found, ← one,
      ← two]
    rfl
  case derived_apart => exact well.not_isSubclass_derived plain
  case component_below => exact well.isSubclass_component plain

/-- A script that defines a class, and makes two-dimensional arrays of arrays of it and arrays of
two-dimensional arrays of integers. -/
def shapeArrays : List Step :=
  [.perform (.classes (.define "Shape" .null ["draw"])) (some "k") none,
    .perform (.classes (.value (.grid (.array (.variable "k"))))) none none,
    .perform (.classes (.value (.array (.grid (.named (.primitive .int)))))) none none]

theorem array_subtyping_shapeArrays :
    let s := ((Session.withVerbosity {} 0).runAll shapeArrays).2
    s.Reachable ∧ s.world.PlainNames ∧ s.world.ArraySubtyping ∧
      s.world.superclasses 5 = [4, 2, 0] ∧ s.world.isSubclass 5 4 = true ∧
      s.world.isSubclass 5 1 = false ∧ s.world.isSubclass 3 2 = true ∧
      s.world.isSubclass 1 0 = true := by
  intro s
  have reached : s.Reachable := (Session.Reachable.start {} 0).runAll shapeArrays
  have plain : s.world.PlainNames := by decide +kernel
  have subtyping := reached.array_subtyping plain
  have shapes : s.world.classes.map Class.shape = #[.root, .derived 0, .array .one 0 0,
      .array .one 1 2, .array .two 0 2, .array .two 3 4, .primitive, .array .two 6 2,
      .array .one 7 2] := by decide +kernel
  have look (c : ClassId) :
      (s.world.class? c).map Class.shape = (s.world.classes.map Class.shape)[c]? :=
    Array.getElem?_map.symm
  rw [shapes] at look
  obtain ⟨_, defined, derived⟩ := Option.map_eq_some_iff.mp (look 1)
  obtain ⟨_, rows, shape₂⟩ := Option.map_eq_some_iff.mp (look 2)
  obtain ⟨_, shapeRow, shape₃⟩ := Option.map_eq_some_iff.mp (look 3)
  obtain ⟨_, grid, shape₅⟩ := Option.map_eq_some_iff.mp (look 5)
  have below : s.world.isSubclass 3 2 = true := by decide +kernel
  refine ⟨reached, plain, subtyping, by decide +kernel, by decide +kernel, ?_, below, ?_⟩
  · exact subtyping.derived_apart grid shape₅ defined derived
  · exact subtyping.component_below shapeRow shape₃ rows shape₂ below

end ObjectModel.Script
