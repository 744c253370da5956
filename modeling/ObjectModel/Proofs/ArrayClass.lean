import ObjectModel.Proofs.Descriptor

/-!
Array classes and their components. As long as no defined class takes the key of an array class, the
class of arrays of `c` has a component of the same type as `c`. It need not be `c` itself: arrays of
a two-dimensional array class and arrays of a class of arrays of arrays share their key, so they are
one class, and its component is the one it was first made for.
-/

namespace ObjectModel

/-- Only array classes have names that look like the key of an array class. -/
def World.PlainNames (w : World) : Prop :=
  ∀ k ∈ w.classes, k.shape.component? = none → k.name.IsPlain

instance (w : World) : Decidable w.PlainNames := inferInstanceAs (Decidable (∀ k ∈ w.classes, _))

section Plain
variable {w w' : World}

theorem Change.plainNames (plain : w.PlainNames) (change : Change .quiet w w') :
    w'.PlainNames := by
  cases change with
  | log m =>
    rw [World.PlainNames, World.classes_logged]
    exact plain
  | create fresh made allowed =>
    intro k member simple
    rcases Array.mem_push.mp member with before | rfl
    · exact plain k before simple
    · dsimp only at simple ⊢
      cases made with
      | root => exact Core.name_plain .object
      | core which => exact which.name_plain
      | primitive p => exact p.name_plain
      | kind k => exact k.name_plain
      | array => cases simple
      | definition name slots =>
        obtain ⟨s, c, _, same⟩ := allowed _ rfl
        cases same
        exact s.name_plain
  | _ => exact plain

theorem Evolves.plainNames (plain : w.PlainNames) (run : Evolves .quiet w w') :
    w'.PlainNames := by
  induction run with
  | refl => exact plain
  | tail _ change ih => exact change.plainNames ih

end Plain

section Keys

theorem Rank.key_injective {rank rank' : Rank} {d d' : Text}
    (same : rank.key (rank.brackets ++ d) = rank'.key (rank'.brackets ++ d')) :
    rank = rank' ∧ d = d' := by
  cases rank <;> cases rank'
  · exact ⟨rfl, List.append_cancel_left same⟩
  · exact absurd (List.cons.inj same).1 (by decide)
  · exact absurd (List.cons.inj same).1 (by decide)
  · exact ⟨rfl, List.append_cancel_left (List.append_cancel_left same)⟩

variable {w : World}

/-- Whatever is registered under the key of an array class is an array class of that rank, of a
component with the descriptor that the key shows. -/
theorem World.WellFormed.array_of_key (well : w.WellFormed) (plain : w.PlainNames) {rank : Rank}
    {descriptor : Text} {a : ClassId}
    (found : w.find? (rank.key (rank.brackets ++ descriptor)) = some a) :
    ∃ l d s m, w.class? a = some l ∧ l.shape = .array rank d s ∧ w.class? d = some m ∧
      m.descriptor = descriptor := by
  obtain ⟨l, known, key⟩ := find?_some found
  unfold Class.key at key
  cases shape : l.shape with
  | array rank' d s =>
    obtain ⟨m, inside, name, _⟩ := (well.made known).array_name shape
    rw [shape, name] at key
    obtain ⟨rfl, same⟩ := Rank.key_injective key
    exact ⟨l, d, s, m, known, shape, inside, same⟩
  | _ =>
    have named := plain l (Array.mem_of_getElem? known) (by rw [shape]; rfl)
    rw [shape] at key
    rw [show l.name = _ from key] at named
    exact absurd named (rank.key_not_plain descriptor)

end Keys

namespace World

/-- An array class of the rank was made for another class of the same type. -/
def Shadowed (w : World) (rank : Rank) (c : ClassId) : Prop :=
  ∃ a l d s, w.class? a = some l ∧ l.shape = .array rank d s ∧ w.SameType d c ∧ d ≠ c

/-- The class `a` of `w'` stands for arrays of `c`, asked for in `w`: its component has the type of
`c`, and it is `c` itself unless `c` was shadowed. -/
def StandsFor (w w' : World) (rank : Rank) (a c : ClassId) : Prop :=
  ∃ l d s, w'.class? a = some l ∧ l.shape = .array rank d s ∧ w'.SameType d c ∧
    (d = c ↔ ¬ w.Shadowed rank c)

section Components
variable {w w' : World}

theorem WellFormed.not_shadowed (well : w.WellFormed) {rank : Rank} {c e : ClassId} {n : Nat}
    (nested : w.Nested c e n) (few : n ≤ 1) : ¬ w.Shadowed rank c := by
  rintro ⟨a, l, d, s, _, _, ⟨e', n', one, other⟩, different⟩
  obtain ⟨rfl, rfl⟩ := nested.unique other
  exact different (well.eq_of_nested few one other)

theorem WellFormed.eq_of_rootDescriptor (well : w.WellFormed) {c d : ClassId} {k : Class}
    (known : w.class? c = some k) (root : k.descriptor = rootDescriptor)
    (same : w.SameType d c) : d = c := by
  obtain ⟨e, n, one, other⟩ := same
  obtain ⟨m, last, _⟩ := other.element_class
  have shown := other.descriptor_eq well last known
  have none : n = 0 := by
    cases n with
    | zero => rfl
    | succ n =>
      rw [root] at shown
      exact absurd (List.cons.inj shown).1 (by decide)
  rw [one.eq_of_zero none, other.eq_of_zero none]

theorem descriptor_of_rootKey {k : Class} {rank : Rank} (rooted : k.arrayKey rank ∈ rootKeys) :
    k.descriptor = rootDescriptor := by
  simp only [rootKeys, List.mem_cons, List.not_mem_nil, or_false] at rooted
  rcases rooted with plain | one | two
  · exact absurd plain ((Core.name_plain .object).ne_arrayKey rank k)
  · exact (Rank.key_injective one).2
  · exact (Rank.key_injective two).2

end Components

end World

theorem ArrayClassFor.standsFor {rank : Rank} {c a : ClassId} {k : Class} {w w' : World}
    (made : ArrayClassFor rank c k w a w') (well : w.WellFormed) (well' : w'.WellFormed)
    (plain : w'.PlainNames) (grown : Grows w w') (known : w.class? c = some k) :
    w.StandsFor w' rank a c := by
  obtain ⟨l, d, s, m, there, shape, inside, descriptor⟩ := well'.array_of_key plain made.found
  have same : w'.SameType d c := (well'.sameType_iff inside (grown.class? known)).mpr descriptor
  refine ⟨l, d, s, there, shape, same, ?_, ?_⟩
  · -- An array class of the same type has the same key, so it is this one.
    rintro rfl ⟨a₀, l₀, d₀, s₀, there₀, shape₀, same₀, different⟩
    obtain ⟨m₀, inside₀, _, _⟩ := (well.made there₀).array_name shape₀
    have found := grown.find? (well.find_array there₀ shape₀ inside₀)
    rw [Class.arrayKey, Class.arrayName, (well.sameType_iff inside₀ known).mp same₀] at found
    have one : a₀ = a := Option.some.inj (found.symm.trans made.found)
    rw [← one, grown.class? there₀] at there
    cases there
    rw [shape₀] at shape
    cases shape
    exact different rfl
  · -- The class was there before, or it is an array of the root class, or it was made for `c`.
    intro free
    rcases made.origin with before | rooted | ⟨l', s', new, shape'⟩
    · obtain ⟨l', there', _⟩ := World.find?_some before
      have again := grown.class? there'
      rw [there] at again
      cases again
      obtain ⟨m', inside', _, _⟩ := (well.made there').array_name shape
      have again := grown.class? inside'
      rw [inside] at again
      cases again
      by_cases equal : d = c
      · exact equal
      · exact absurd ⟨a, l, d, s, there', shape, (well.sameType_iff inside' known).mpr descriptor,
          equal⟩ free
    · have root := World.descriptor_of_rootKey rooted
      exact well'.eq_of_rootDescriptor (grown.class? known) root same
    · rw [there] at new
      cases new
      rw [shape] at shape'
      cases shape'
      rfl

theorem ArrayClassFor.eq_iff {rank : Rank} {c d a b : ClassId} {k l : Class} {w₀ w₁ w w' : World}
    (one : ArrayClassFor rank c k w₀ a w) (other : ArrayClassFor rank d l w₁ b w')
    (grown : Grows w w') : b = a ↔ l.descriptor = k.descriptor := by
  have found := grown.find? one.found
  constructor
  · rintro rfl
    exact (Rank.key_injective (World.find?_injective other.found found)).2
  · intro same
    have again := other.found
    rw [Class.arrayKey, Class.arrayName, same] at again
    exact Option.some.inj (again.symm.trans found)

namespace Action

def arraysOf : Rank → ClassId → Action ClassId
  | .one => arrayClass
  | .two => gridClass

inductive Constructs (c : ClassId) : Rank → Action ObjectId → Prop where
  | array (element : Option ElementType) (n : Int32) :
      Constructs c .one (newArray element (some c) n)
  | grid (element : Option ElementType) (n m : Int32) :
      Constructs c .two (newGrid element (some c) n m)

section Arrays
variable {w w' : World} {rank : Rank} {c : ClassId} {k : Class}

theorem arraysOf_returns (well : w.WellFormed) (rank : Rank) (known : w.class? c = some k) :
    ∃ a w', (arraysOf rank c).run w = (.ok a, w') ∧ Evolves .quiet w w' ∧
      ArrayClassFor rank c k w a w' := by
  cases rank with
  | one => exact (arrayClass_ends known).returns well
  | two => exact (gridClass_ends known).returns well

theorem Constructs.belongs {make : Action ObjectId} (constructs : Constructs c rank make)
    (well : w.WellFormed) (known : w.class? c = some k) {id : ObjectId}
    (ran : make.run w = (.ok id, w')) :
    Evolves .quiet w w' ∧ ∃ a, ArrayClassFor rank c k w a w' ∧ w'.classOf? id = some a := by
  have valid := World.knows_some (World.lt_of_class? known)
  cases constructs with
  | array element n =>
    obtain ⟨evolved, _, l, a, same, there, made, own, _⟩ := (newArray_ends valid).of_ok well ran
    cases same
    rw [evolved.grows.class? known] at there
    cases there
    exact ⟨evolved, a, made, own⟩
  | grid element n m =>
    obtain ⟨evolved, _, l, a, same, there, made, own, _⟩ := (newGrid_ends valid).of_ok well ran
    cases same
    rw [evolved.grows.class? known] at there
    cases there
    exact ⟨evolved, a, made, own⟩

end Arrays

end Action

/-- In every session that a script reaches with plain names, array classes stand for the classes
they are asked for, two classes share their array class exactly if they have the same type, and a
new array belongs to the class that stands for its component. The component of an array class is
the class asked for, exactly unless that class is shadowed, which needs two dimensions. -/
theorem Script.Session.Reachable.array_standsFor {s : Script.Session} (reached : s.Reachable)
    (plain : s.world.PlainNames) (rank : Rank) {c : ClassId} (below : c < s.world.classes.size) :
    (∃ a w, (Action.arraysOf rank c).run s.world = (.ok a, w) ∧ s.world.StandsFor w rank a c ∧
      ∀ d, d < w.classes.size → ∃ b w', (Action.arraysOf rank d).run w = (.ok b, w') ∧
        (b = a ↔ w.SameType d c)) ∧
    (∀ make id w, Action.Constructs c rank make → make.run s.world = (.ok id, w) →
      ∃ a, s.world.StandsFor w rank a c ∧
        ∀ v, (Action.objectGetClass (.object id v)).run w = (.ok (some a), w)) ∧
    ∀ e n, s.world.Nested c e n → n ≤ 1 → ¬ s.world.Shadowed rank c := by
  have well := reached.valid.well
  obtain ⟨k, known⟩ := World.class?_of_lt below
  refine ⟨?_, ?_, fun e n nested few => well.not_shadowed nested few⟩
  · obtain ⟨a, w, ran, evolved, made⟩ := Action.arraysOf_returns well rank known
    have well' := evolved.wellFormed well
    refine ⟨a, w, ran, made.standsFor well well' (evolved.plainNames plain) evolved.grows known, ?_⟩
    intro d inside
    obtain ⟨l, there⟩ := World.class?_of_lt inside
    obtain ⟨b, w', ran', evolved', made'⟩ := Action.arraysOf_returns well' rank there
    refine ⟨b, w', ran', ?_⟩
    rw [well'.sameType_iff there (evolved.grows.class? known)]
    exact made.eq_iff made' evolved'.grows
  · intro make id w constructs ran
    obtain ⟨evolved, a, made, own⟩ := constructs.belongs well known ran
    have well' := evolved.wellFormed well
    exact ⟨a, made.standsFor well well' (evolved.plainNames plain) evolved.grows known,
      well'.getClass_resolved own⟩

namespace Script

/-- A script that makes arrays of arrays of arrays, then a two-dimensional array class. -/
def cubes : List Step :=
  [.perform (.classes (.value (.array (.array (.array (.named (.primitive .int))))))) none none,
    .perform (.classes (.value (.grid (.named (.primitive .int))))) none none]

theorem array_standsFor_cubes :
    let s := ((Session.withVerbosity {} 0).runAll cubes).2
    s.Reachable ∧ s.world.PlainNames ∧ s.world.Shadowed .one 6 ∧ ∃ a w l d above,
      (Action.arraysOf .one 6).run s.world = (.ok a, w) ∧ w.class? a = some l ∧
      l.shape = .array .one d above ∧ w.SameType d 6 ∧ d ≠ 6 := by
  intro s
  have reached : s.Reachable := (Session.Reachable.start {} 0).runAll cubes
  have plain : s.world.PlainNames := by decide +kernel
  have shapes : s.world.classes.map Class.shape = #[.primitive, .root, .array .one 0 1,
      .array .one 1 1, .array .one 2 3, .array .one 4 3, .array .two 0 3] := by decide +kernel
  have look (c : ClassId) :
      (s.world.class? c).map Class.shape = (s.world.classes.map Class.shape)[c]? :=
    Array.getElem?_map.symm
  rw [shapes] at look
  obtain ⟨_, int, shape₀⟩ := Option.map_eq_some_iff.mp (look 0)
  obtain ⟨_, row, shape₂⟩ := Option.map_eq_some_iff.mp (look 2)
  obtain ⟨_, rows, shape₄⟩ := Option.map_eq_some_iff.mp (look 4)
  obtain ⟨cube, known, shape₅⟩ := Option.map_eq_some_iff.mp (look 5)
  obtain ⟨_, grid, shape₆⟩ := Option.map_eq_some_iff.mp (look 6)
  have element : s.world.Nested 0 0 0 := .element int (by rw [shape₀]; rfl)
  have shadowed : s.world.Shadowed .one 6 :=
    ⟨5, cube, 4, 3, known, shape₅,
      ⟨0, 2, .array rows shape₄ (.array row shape₂ element), .array grid shape₆ element⟩, by decide⟩
  obtain ⟨⟨a, w, ran, ⟨l, d, above, there, shape, same, free⟩, _⟩, _⟩ :=
    reached.array_standsFor plain .one (World.lt_of_class? grid)
  exact ⟨reached, plain, shadowed, a, w, l, d, above, ran, there, shape, same,
    fun equal => free.mp equal shadowed⟩

end Script

end ObjectModel
