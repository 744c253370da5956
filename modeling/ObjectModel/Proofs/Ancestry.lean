import ObjectModel.Proofs.Capture
import ObjectModel.Proofs.Description

/-!
What a snapshot says about the hierarchy. Descriptors give superclasses and components by name, and
one name may stand for two classes, one of them two-dimensional. Tables of classes with the same
snapshot agree on the place of every superclass and component up to such a pair, and they agree on
the superclasses of all array classes.
-/

namespace ObjectModel

theorem Rank.toNat_injective {rank rank' : Rank} (same : rank.toNat = rank'.toNat) :
    rank = rank' := by
  cases rank with
  | one =>
    cases rank' with
    | one => rfl
    | two => cases same
  | two =>
    cases rank' with
    | one => cases same
    | two => rfl

theorem Class.arraySuperclassKey_array {k : Class} {e : ClassId}
    (holds : k.shape.component? = some e) (rank : Rank) :
    k.arraySuperclassKey rank = rank.rootKey := by
  obtain ⟨rank', s, shape⟩ := Shape.eq_array_of_component holds
  simp [arraySuperclassKey, shape, Shape.isPrimitive]

theorem World.Made.arrayKey_unrooted {w : World} {c e : ClassId} {k : Class} (made : w.Made c k)
    (holds : k.shape.component? = some e) (rank : Rank) : k.arrayKey rank ∉ rootKeys := by
  intro rooted
  obtain ⟨rank', s, shape⟩ := Shape.eq_array_of_component holds
  obtain ⟨rest, bracket⟩ := made.descriptor_bracket shape
  rw [World.descriptor_of_rootKey rooted] at bracket
  exact absurd (List.cons.inj bracket).1 (by decide)

namespace World

/-- Two classes with one name. -/
def Homonyms (w : World) (c d : ClassId) : Prop :=
  c ≠ d ∧ ∃ k l, w.class? c = some k ∧ w.class? d = some l ∧ k.name = l.name

/-- References that are the same, or that lead to two classes with one name. -/
inductive Resembles (w : World) : Option ClassId → Option ClassId → Prop where
  | same (c : Option ClassId) : Resembles w c c
  | homonyms {c d : ClassId} (named : w.Homonyms c d) : Resembles w (some c) (some d)

def component? (w : World) (c : ClassId) : Option ClassId :=
  (w.class? c).bind fun k => k.shape.component?

/-- Two tables of classes that differ at most in which one of two classes with one name is a
superclass of a class that is no array, or the component of arrays of arrays. -/
structure SameHierarchy (w w' : World) : Prop where
  size : w'.classes.size = w.classes.size
  superclass : ∀ i, w.Resembles (w.superclass? i) (w'.superclass? i)
  component : ∀ i, w.Resembles (w.component? i) (w'.component? i)
  array_superclass : ∀ {i}, (w.component? i).isSome → w'.superclass? i = w.superclass? i
  component_array : ∀ {i d d'}, w.component? i = some d → w'.component? i = some d' → d ≠ d' →
    (w.component? d).isSome ∧ (w'.component? d').isSome
  superclasses : ∀ {i}, (∀ c ∈ w.superclasses i, ∀ d, ¬ w.Homonyms c d) →
    w'.superclasses i = w.superclasses i

section Names
variable {w : World} {c d : ClassId} {k l : Class}

theorem component?_of_class? (known : w.class? c = some k) :
    w.component? c = k.shape.component? := by
  simp [component?, known]

theorem WellFormed.eq_of_key (well : w.WellFormed) (known : w.class? c = some k)
    (known' : w.class? d = some l) (same : k.key = l.key) : c = d := by
  have found := well.keyed known
  rw [same, well.keyed known'] at found
  exact (Option.some.inj found).symm

/-- Of two classes with one name exactly one is two-dimensional. -/
theorem WellFormed.homonyms_apart (well : w.WellFormed) (known : w.class? c = some k)
    (known' : w.class? d = some l) (named : w.Homonyms c d) :
    k.shape.dimensions = 2 ↔ l.shape.dimensions ≠ 2 := by
  obtain ⟨different, k', l', there, there', name⟩ := named
  rw [known] at there
  rw [known'] at there'
  cases there
  cases there'
  have keys : k.key ≠ l.key := fun same => different (well.eq_of_key known known' same)
  rw [(key_eq_of_dimensions k).2, (key_eq_of_dimensions l).2, name] at keys
  constructor
  · intro two two'
    rw [if_pos two, if_pos two'] at keys
    exact keys rfl
  · intro other
    by_contra two
    rw [if_neg two, if_neg other] at keys
    exact keys rfl

theorem component?_none_iff (k : Class) : k.shape.component? = none ↔ k.shape.dimensions = 0 := by
  cases k.shape with
  | array rank e s => cases rank <;> simp [Shape.component?, Shape.dimensions, Rank.toNat]
  | _ => simp [Shape.component?, Shape.dimensions]

end Names

end World

namespace Snapshot

/-- Worlds with the same snapshot. -/
structure Alike (w w' : World) : Prop where
  well : w.WellFormed
  well' : w'.WellFormed
  same : capture w' = capture w

section Describe
variable {w w' : World} {k k' : Class}

theorem dimensions_iff (w : World) (k : Class) {n : Nat} (few : n ≤ 2) :
    (w.describe k).dimensions = Int64.ofNat n ↔ k.shape.dimensions = n := by
  refine ⟨?_, congrArg Int64.ofNat⟩
  have small : ∀ n ≤ 2, ∀ m ≤ 2, Int64.ofNat m = Int64.ofNat n → m = n := by decide
  exact small n few _ (World.key_eq_of_dimensions k).1

theorem dimensions_of_describe (same : w'.describe k' = w.describe k) :
    k'.shape.dimensions = k.shape.dimensions :=
  (dimensions_iff w' k' (World.key_eq_of_dimensions k).1).mp (congrArg Descriptor.dimensions same)

theorem key_of_describe (same : w'.describe k' = w.describe k) : k'.key = k.key := by
  have name : k'.name = k.name := congrArg Descriptor.name same
  rw [(World.key_eq_of_dimensions k').2, (World.key_eq_of_dimensions k).2,
    dimensions_of_describe same, name]

end Describe

namespace Alike
variable {w w' : World} {i : ClassId} {k k' : Class}

theorem symm (alike : Alike w w') : Alike w' w := ⟨alike.well', alike.well, alike.same.symm⟩

theorem descriptors (alike : Alike w w') (i : ClassId) :
    (w'.class? i).map w'.describe = (w.class? i).map w.describe := by
  have lists : w'.classes.toList.map w'.describe = w.classes.toList.map w.describe :=
    Option.some.inj (congrArg Snapshot.classes alike.same)
  have here := congrArg (·[i]?) lists
  simp only [List.getElem?_map, Array.getElem?_toList] at here
  exact here

theorem counterpart (alike : Alike w w') (known : w.class? i = some k) :
    ∃ k', w'.class? i = some k' ∧ w'.describe k' = w.describe k := by
  have here := alike.descriptors i
  rw [known, Option.map_some] at here
  exact Option.map_eq_some_iff.mp here

theorem describe_eq (alike : Alike w w') (known : w.class? i = some k)
    (known' : w'.class? i = some k') : w'.describe k' = w.describe k := by
  obtain ⟨l, there, same⟩ := alike.counterpart known
  rw [known'] at there
  cases there
  exact same

theorem size_eq (alike : Alike w w') : w'.classes.size = w.classes.size := by
  have lists : w'.classes.toList.map w'.describe = w.classes.toList.map w.describe :=
    Option.some.inj (congrArg Snapshot.classes alike.same)
  simpa using congrArg List.length lists

theorem find? (alike : Alike w w') {key : Text} {c : ClassId} (found : w.find? key = some c) :
    w'.find? key = some c := by
  obtain ⟨k, known, rfl⟩ := World.find?_some found
  obtain ⟨k', known', same⟩ := alike.counterpart known
  rw [← key_of_describe same]
  exact alike.well'.keyed known'

/-- References with the same name in both worlds lead to the same class, or to two with one name. -/
theorem resembles_of_name (alike : Alike w w') {c d : ClassId} {k l : Class}
    (known : w.class? c = some k) (known' : w'.class? d = some l) (name : l.name = k.name) :
    w.Resembles (some c) (some d) := by
  by_cases equal : c = d
  · rw [equal]
    exact .same _
  · obtain ⟨m, there, same⟩ := alike.symm.counterpart known'
    have title : m.name = l.name := congrArg Descriptor.name same
    exact .homonyms ⟨equal, k, m, known, there, (title.trans name).symm⟩

theorem superclass_resembles (alike : Alike w w') (i : ClassId) :
    w.Resembles (w.superclass? i) (w'.superclass? i) := by
  cases known : w.class? i with
  | none =>
    have missing := alike.descriptors i
    rw [known, Option.map_none, Option.map_eq_none_iff] at missing
    simp only [World.superclass?, known, missing, Option.bind_none]
    exact .same none
  | some k =>
    obtain ⟨k', known', same⟩ := alike.counterpart known
    rw [World.superclass?_of_class? known, World.superclass?_of_class? known']
    have name : k'.name = k.name := congrArg Descriptor.name same
    have primitive : k'.shape.isPrimitive = k.shape.isPrimitive :=
      congrArg Descriptor.primitive same
    have written : w'.nameOf k'.shape.superclass? = w.nameOf k.shape.superclass? :=
      congrArg Descriptor.superclass same
    have top := alike.well.superclass?_none_iff known
    have top' := alike.well'.superclass?_none_iff known'
    rw [name, primitive, ← top] at top'
    cases above : k.shape.superclass? with
    | none =>
      rw [top'.mpr above]
      exact .same none
    | some s =>
      cases above' : k'.shape.superclass? with
      | none =>
        have impossible := top'.mp above'
        rw [above] at impossible
        cases impossible
      | some s' =>
        obtain ⟨l, there⟩ := alike.well.superclass_there known above
        obtain ⟨l', there'⟩ := alike.well'.superclass_there known' above'
        rw [above, above', World.nameOf_some there, World.nameOf_some there'] at written
        exact alike.resembles_of_name there there' written

/-- The class in the place of an array class is an array class of the same rank, of a component with
the same name and element code. -/
theorem array_counterpart (alike : Alike w w') (known : w.class? i = some k) {rank : Rank}
    {d s : ClassId} (shape : k.shape = .array rank d s) :
    ∃ l k' d' s' l', w.class? d = some l ∧ w'.class? i = some k' ∧
      k'.shape = .array rank d' s' ∧ w'.class? d' = some l' ∧ l'.name = l.name ∧
      l'.descriptor = l.descriptor ∧ w.find? (l.arraySuperclassKey rank) = some s ∧
      w'.find? (l'.arraySuperclassKey rank) = some s' := by
  obtain ⟨l, inside, name, above⟩ := (alike.well.made known).array_name shape
  obtain ⟨k', known', same⟩ := alike.counterpart known
  have dimensions := dimensions_of_describe same
  rw [shape] at dimensions
  cases shape' : k'.shape with
  | array rank' d' s' =>
    rw [shape'] at dimensions
    obtain rfl : rank' = rank := Rank.toNat_injective dimensions
    obtain ⟨l', inside', name', above'⟩ := (alike.well'.made known').array_name shape'
    have names : k'.name = k.name := congrArg Descriptor.name same
    rw [name, name'] at names
    have written : w'.nameOf k'.shape.component? = w.nameOf k.shape.component? :=
      congrArg Descriptor.component same
    rw [shape, shape'] at written
    have component : l'.name = l.name :=
      (World.nameOf_some inside').symm.trans (written.trans (World.nameOf_some inside))
    exact ⟨l, k', d', s', l', inside, known', shape', inside', component,
      List.append_cancel_left names, above, above'⟩
  | _ =>
    rw [shape'] at dimensions
    exact absurd dimensions (Nat.ne_of_lt rank.toNat_pos)

theorem simple_of_descriptor (alike : Alike w w') {d d' : ClassId} {l l' : Class}
    (inside : w.class? d = some l) (inside' : w'.class? d' = some l')
    (same : l'.descriptor = l.descriptor) (simple : l.shape.component? = none) :
    l'.shape.component? = none := by
  obtain ⟨b, rest, begins, letter⟩ := (alike.well.made inside).descriptor_cons simple
  cases holds : l'.shape.component? with
  | none => rfl
  | some e =>
    obtain ⟨rank, s, shape⟩ := Shape.eq_array_of_component holds
    obtain ⟨rest', bracket⟩ := (alike.well'.made inside').descriptor_bracket shape
    rw [begins, bracket] at same
    exact absurd (List.cons.inj same).1.symm letter

/-- A component that is no array stands in the same place. -/
theorem eq_of_simple (alike : Alike w w') {d d' : ClassId} {l l' : Class}
    (inside : w.class? d = some l) (inside' : w'.class? d' = some l') (name : l'.name = l.name)
    (simple : l.shape.component? = none) (simple' : l'.shape.component? = none) : d' = d := by
  have key {m : Class} (simple : m.shape.component? = none) : m.key = m.name := by
    have zero := (World.component?_none_iff m).mp simple
    rw [(World.key_eq_of_dimensions m).2, zero]
    rfl
  have found := alike.find? (alike.well.keyed inside)
  have found' := alike.well'.keyed inside'
  rw [key simple] at found
  rw [key simple', name, found] at found'
  exact (Option.some.inj found').symm

theorem arraySuperclassKey_eq (alike : Alike w w') {d d' : ClassId} {l l' : Class}
    (inside : w.class? d = some l) (inside' : w'.class? d' = some l') (name : l'.name = l.name)
    (same : l'.descriptor = l.descriptor) (rank : Rank) :
    l'.arraySuperclassKey rank = l.arraySuperclassKey rank := by
  cases simple : l.shape.component? with
  | none =>
    have simple' := alike.simple_of_descriptor inside inside' same simple
    obtain rfl := alike.eq_of_simple inside inside' name simple simple'
    have primitive : l'.shape.isPrimitive = l.shape.isPrimitive :=
      congrArg Descriptor.primitive (alike.describe_eq inside inside')
    have root : (l'.shape == .root) = (l.shape == .root) := by
      rw [Bool.eq_iff_iff, beq_iff_eq, beq_iff_eq, alike.well'.root_iff inside',
        alike.well.root_iff inside, name]
    rw [Class.arraySuperclassKey, Class.arraySuperclassKey, primitive, root]
  | some e =>
    cases simple' : l'.shape.component? with
    | none =>
      have impossible := alike.symm.simple_of_descriptor inside' inside same.symm simple'
      rw [simple] at impossible
      cases impossible
    | some e' =>
      rw [Class.arraySuperclassKey_array simple, Class.arraySuperclassKey_array simple']

theorem component_resembles (alike : Alike w w') (i : ClassId) :
    w.Resembles (w.component? i) (w'.component? i) := by
  cases known : w.class? i with
  | none =>
    have missing := alike.descriptors i
    rw [known, Option.map_none, Option.map_eq_none_iff] at missing
    simp only [World.component?, known, missing, Option.bind_none]
    exact .same none
  | some k =>
    rw [World.component?_of_class? known]
    cases holds : k.shape.component? with
    | none =>
      obtain ⟨k', known', same⟩ := alike.counterpart known
      have zero := (World.component?_none_iff k).mp holds
      rw [← dimensions_of_describe same] at zero
      rw [World.component?_of_class? known', (World.component?_none_iff k').mpr zero]
      exact .same none
    | some d =>
      obtain ⟨rank, s, shape⟩ := Shape.eq_array_of_component holds
      obtain ⟨l, k', d', s', l', inside, known', shape', inside', name, -⟩ :=
        alike.array_counterpart known shape
      rw [World.component?_of_class? known', shape']
      exact alike.resembles_of_name inside inside' name

/-- Components that stand in different places are arrays themselves. -/
theorem component_array (alike : Alike w w') {d d' : ClassId} (holds : w.component? i = some d)
    (holds' : w'.component? i = some d') (different : d ≠ d') : (w.component? d).isSome := by
  obtain ⟨k, known, component⟩ := Option.bind_eq_some_iff.mp holds
  obtain ⟨rank, s, shape⟩ := Shape.eq_array_of_component component
  obtain ⟨l, k', e', s', l', inside, known', shape', inside', name, same, -⟩ :=
    alike.array_counterpart known shape
  rw [World.component?_of_class? known', shape'] at holds'
  cases holds'
  rw [World.component?_of_class? inside]
  cases simple : l.shape.component? with
  | some e => rfl
  | none =>
    have simple' := alike.simple_of_descriptor inside inside' same simple
    exact absurd (alike.eq_of_simple inside inside' name simple simple').symm different

/-- The superclass of an array class stands in the same place. -/
theorem array_superclass (alike : Alike w w') (array : (w.component? i).isSome) :
    w'.superclass? i = w.superclass? i := by
  obtain ⟨d, holds⟩ := Option.isSome_iff_exists.mp array
  obtain ⟨k, known, component⟩ := Option.bind_eq_some_iff.mp holds
  obtain ⟨rank, s, shape⟩ := Shape.eq_array_of_component component
  obtain ⟨l, k', d', s', l', inside, known', shape', inside', name, same, above, above'⟩ :=
    alike.array_counterpart known shape
  rw [alike.arraySuperclassKey_eq inside inside' name same, alike.find? above] at above'
  rw [World.superclass?_of_class? known, World.superclass?_of_class? known', shape, shape']
  exact above'.symm

/-- A class none of whose superclasses shares its name has the same superclasses. -/
theorem superclasses_eq (alike : Alike w w') (i : ClassId)
    (single : ∀ c ∈ w.superclasses i, ∀ d, ¬ w.Homonyms c d) :
    w'.superclasses i = w.superclasses i := by
  induction i using Nat.strongRecOn with
  | ind i ih =>
    have near := alike.superclass_resembles i
    have next := single
    rw [World.superclasses] at next
    rw [World.superclasses, World.superclasses]
    generalize w'.superclass? i = other at near ⊢
    cases above : w.superclass? i with
    | none =>
      rw [above] at near
      cases near
      rfl
    | some s =>
      have earlier := alike.well.lt_of_above above
      rw [above] at near next
      simp only [if_pos earlier, List.forall_mem_cons] at next
      cases near with
      | same => simp only [if_pos earlier, ih s earlier next.2]
      | homonyms named => exact absurd named (next.1 _)

theorem sameHierarchy (alike : Alike w w') : w.SameHierarchy w' where
  size := alike.size_eq
  superclass := alike.superclass_resembles
  component := alike.component_resembles
  array_superclass := alike.array_superclass
  component_array := fun holds holds' different =>
    ⟨alike.component_array holds holds' different,
      alike.symm.component_array holds' holds different.symm⟩
  superclasses := fun {i} => alike.superclasses_eq i

end Alike

end Snapshot

end ObjectModel
