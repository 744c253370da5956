import ObjectModel.Proofs.Homonym

/-!
Snapshots as catalogues. A snapshot lists every class once, in the order of creation, and name and
dimensions lead to the one place of a class. What a descriptor refers to by name stands before it,
so one pass over a snapshot links every class to its superclass and its component. Only where two
classes have the name referred to may the pass take the other one of them.
-/

namespace ObjectModel

namespace Snapshot

/-- The place of the first descriptor with this name and number of dimensions. -/
def position? (s : Snapshot) (name : Text) (dimensions : Int64) : Option ClassId :=
  s.descriptors.findIdx? fun d => d.name == name && d.dimensions == dimensions

theorem lookup_eq (s : Snapshot) (name : Text) (dimensions : Int64) :
    s.lookup name dimensions = (s.position? name dimensions).bind (s.descriptors[·]?) :=
  List.find?_eq_bind_findIdx?_getElem?

/-- The places of the classes that a class refers to. -/
structure Links where
  superclass : Option ClassId
  component : Option ClassId
deriving DecidableEq, Repr

/-- The place of a class with this name, and of a two-dimensional one if there is one. -/
def resolve (earlier : List Descriptor) (name : Text) : Option ClassId :=
  (earlier.findIdx? fun d => d.name == name && d.dimensions == 2).or
    (earlier.findIdx? fun d => d.name == name)

/-- What a name refers to where there is a reference. Fails on a name that has not been read. -/
def follow (earlier : List Descriptor) (present : Bool) (name : Text) :
    Option (Option ClassId) :=
  if present then (resolve earlier name).map some else some none

/-- The root class and the primitive types have no superclass. -/
def linksOf (earlier : List Descriptor) (d : Descriptor) : Option Links := do
  let superclass ← follow earlier (!(d.primitive || d.name == Core.name .object)) d.superclass
  let component ← follow earlier (d.dimensions != 0) d.component
  return ⟨superclass, component⟩

/-- One pass over descriptors, each of which is linked to those read before it. -/
def linkFrom (earlier : List Descriptor) : List Descriptor → Option (List Links)
  | [] => some []
  | d :: rest => do
    let here ← linksOf earlier d
    let later ← linkFrom (earlier ++ [d]) rest
    return here :: later

def link (s : Snapshot) : Option (List Links) := linkFrom [] s.descriptors

theorem descriptor_of_findIdx {ds : List Descriptor} {p : Descriptor → Bool} {i : Nat}
    (found : ds.findIdx? p = some i) : ∃ d, ds[i]? = some d ∧ p d = true := by
  obtain ⟨inside, holds, -⟩ := List.findIdx?_eq_some_iff_getElem.mp found
  exact ⟨_, List.getElem?_eq_getElem inside, holds⟩

/-- A name that has been read is found, and if a two-dimensional class has it, then such a one. -/
theorem resolve_read {earlier : List Descriptor} {name : Text} {d : Descriptor}
    (read : d ∈ earlier) (named : d.name = name) :
    ∃ i e, resolve earlier name = some i ∧ earlier[i]? = some e ∧ e.name = name ∧
      (d.dimensions = 2 → e.dimensions = 2) := by
  unfold resolve
  cases grid : earlier.findIdx? fun d => d.name == name && d.dimensions == 2 with
  | some i =>
    obtain ⟨e, there, holds⟩ := descriptor_of_findIdx grid
    rw [Bool.and_eq_true, beq_iff_eq, beq_iff_eq] at holds
    exact ⟨i, e, rfl, there, holds.1, fun _ => holds.2⟩
  | none =>
    have flat : d.dimensions ≠ 2 := by
      intro two
      have holds := List.findIdx?_eq_none_iff.mp grid d read
      simp [named, two] at holds
    cases any : earlier.findIdx? fun d => d.name == name with
    | some i =>
      obtain ⟨e, there, holds⟩ := descriptor_of_findIdx any
      exact ⟨i, e, rfl, there, beq_iff_eq.mp holds, fun two => absurd two flat⟩
    | none =>
      have holds := List.findIdx?_eq_none_iff.mp any d read
      simp [named] at holds

/-- If every descriptor can be linked to those before it, then the pass succeeds, and what holds of
the links of each descriptor holds of the links in its place. -/
theorem linkFrom_returns {P : Nat → Links → Prop} (earlier rest : List Descriptor)
    (each : ∀ i d, rest[i]? = some d →
      ∃ l, linksOf (earlier ++ rest.take i) d = some l ∧ P (earlier.length + i) l) :
    ∃ links, linkFrom earlier rest = some links ∧ links.length = rest.length ∧
      ∀ i l, links[i]? = some l → P (earlier.length + i) l := by
  -- What has been read grows at its end, so that places count from the beginning.
  induction rest generalizing earlier with
  | nil => exact ⟨[], rfl, rfl, fun i l there => by cases there⟩
  | cons d rest ih =>
    obtain ⟨here, first, holds⟩ := each 0 d rfl
    rw [List.take_zero, List.append_nil] at first
    obtain ⟨later, linked, length, others⟩ := ih (earlier ++ [d]) fun i e there => by
      obtain ⟨l, next, holds⟩ := each (i + 1) e there
      rw [List.take_succ_cons, List.append_cons] at next
      rw [List.length_append, List.length_singleton, Nat.add_assoc, Nat.add_comm 1]
      exact ⟨l, next, holds⟩
    refine ⟨here :: later, ?_, congrArg (· + 1) length, ?_⟩
    · rw [linkFrom, first, linked]
      rfl
    · intro i l there
      cases i with
      | zero =>
        cases there
        exact holds
      | succ i =>
        have next := others i l there
        rwa [List.length_append, List.length_singleton, Nat.add_assoc, Nat.add_comm 1] at next

theorem link_returns {P : Nat → Links → Prop} {s : Snapshot}
    (each : ∀ i d, s.descriptors[i]? = some d →
      ∃ l, linksOf (s.descriptors.take i) d = some l ∧ P i l) :
    ∃ links, s.link = some links ∧ links.length = s.descriptors.length ∧
      ∀ i l, links[i]? = some l → P i l := by
  have pass := linkFrom_returns (P := P) [] s.descriptors
  simp only [List.nil_append, List.length_nil, Nat.zero_add] at pass
  exact pass each

end Snapshot

namespace World
open Snapshot

/-- What a pass over a snapshot finds for a reference of class `c`: an earlier class that is the one
referred to, or another one with the same name. A two-dimensional class is not mistaken. -/
structure Found (w : World) (c : ClassId) (reference found : Option ClassId) : Prop where
  earlier : ∀ d ∈ found, d < c
  resembles : w.Resembles reference found
  grid : ∀ {d l}, reference = some d → w.class? d = some l → l.shape.dimensions = 2 →
    found = reference

/-- Links that give the hierarchy of a world up to classes with one name. -/
structure LinkedBy (w : World) (links : List Links) : Prop where
  length : links.length = w.classes.size
  superclass : ∀ {c l}, links[c]? = some l → w.Found c (w.superclass? c) l.superclass
  component : ∀ {c l}, links[c]? = some l → w.Found c (w.component? c) l.component
  array_superclass : ∀ {c l}, links[c]? = some l → (w.component? c).isSome →
    l.superclass = w.superclass? c
  exact : (∀ c d, ¬ w.Homonyms c d) → ∀ {c : ClassId} {l : Links}, links[c]? = some l →
    l = ⟨w.superclass? c, w.component? c⟩

/-- A reference of class `c` leads to an earlier class, and its descriptor has the name given for
the reference. -/
def Recorded (w : World) (s : Snapshot) (c : ClassId) (reference : Option ClassId) (name : Text) :
    Prop :=
  ∀ d ∈ reference, d < c ∧ ∃ l, w.class? d = some l ∧ s.descriptors[d]? = some (w.describe l) ∧
    (w.describe l).name = name

structure CataloguedBy (w : World) (s : Snapshot) : Prop where
  listed : s.classes = some s.descriptors
  one_each : s.descriptors.length = w.classes.size
  in_order : ∀ {c k}, w.class? c = some k → s.descriptors[c]? = some (w.describe k)
  position : ∀ {c k}, w.class? c = some k →
    s.position? k.name (Int64.ofNat k.shape.dimensions) = some c
  lookup_iff : ∀ {name n d}, s.lookup name n = some d ↔ ∃ c k, w.class? c = some k ∧
    k.name = name ∧ Int64.ofNat k.shape.dimensions = n ∧ d = w.describe k
  /-- Name and dimensions are those of one descriptor only. -/
  unambiguous : ∀ {i j : ClassId} {d e : Descriptor}, s.descriptors[i]? = some d →
    s.descriptors[j]? = some e → d.name = e.name → d.dimensions = e.dimensions → i = j
  superclass : ∀ {c k}, w.class? c = some k →
    w.Recorded s c k.shape.superclass? (w.describe k).superclass
  component : ∀ {c k}, w.class? c = some k →
    w.Recorded s c k.shape.component? (w.describe k).component
  linked : ∃ links, s.link = some links ∧ w.LinkedBy links

section Catalogue
variable {w : World} {c d : ClassId} {k l : Class}

theorem getElem?_capture (w : World) (c : ClassId) :
    (capture w).descriptors[c]? = (w.class? c).map w.describe := by
  simp [descriptors, capture, class?]

theorem listed_capture (known : w.class? c = some k) :
    (capture w).descriptors[c]? = some (w.describe k) := by
  rw [getElem?_capture, known, Option.map_some]

theorem class_of_listed {e : Descriptor} (listed : (capture w).descriptors[c]? = some e) :
    ∃ k, w.class? c = some k ∧ w.describe k = e := by
  rw [getElem?_capture] at listed
  exact Option.map_eq_some_iff.mp listed

theorem WellFormed.eq_of_dimensions (well : w.WellFormed) (known : w.class? c = some k)
    (known' : w.class? d = some l) (name : k.name = l.name)
    (dimensions : k.shape.dimensions = l.shape.dimensions) : c = d := by
  apply well.eq_of_key known known'
  rw [(key_eq_of_dimensions k).2, (key_eq_of_dimensions l).2, name, dimensions]

theorem WellFormed.eq_of_listed (well : w.WellFormed) {e e' : Descriptor}
    (listed : (capture w).descriptors[c]? = some e)
    (listed' : (capture w).descriptors[d]? = some e')
    (name : e.name = e'.name) (dimensions : e.dimensions = e'.dimensions) : c = d := by
  obtain ⟨k, known, rfl⟩ := class_of_listed listed
  obtain ⟨l, known', rfl⟩ := class_of_listed listed'
  refine well.eq_of_dimensions known known' name ?_
  exact (dimensions_iff w k (key_eq_of_dimensions l).1).mp dimensions

theorem WellFormed.position (well : w.WellFormed) (known : w.class? c = some k) :
    (capture w).position? k.name (Int64.ofNat k.shape.dimensions) = some c := by
  have listed := listed_capture known
  obtain ⟨inside, own⟩ := List.getElem?_eq_some_iff.mp listed
  refine List.findIdx?_eq_some_iff_getElem.mpr ⟨inside, ?_, ?_⟩
  · rw [own, Bool.and_eq_true, beq_iff_eq, beq_iff_eq]
    exact ⟨rfl, rfl⟩
  · intro j before holds
    rw [Bool.and_eq_true, beq_iff_eq, beq_iff_eq] at holds
    have there := List.getElem?_eq_getElem (Nat.lt_trans before inside)
    exact Nat.ne_of_lt before (well.eq_of_listed there listed holds.1 holds.2)

theorem WellFormed.lookup_iff (well : w.WellFormed) {name : Text} {n : Int64} {e : Descriptor} :
    (capture w).lookup name n = some e ↔ ∃ c k, w.class? c = some k ∧ k.name = name ∧
      Int64.ofNat k.shape.dimensions = n ∧ e = w.describe k := by
  rw [lookup_eq]
  constructor
  · intro found
    obtain ⟨c, place, listed⟩ := Option.bind_eq_some_iff.mp found
    obtain ⟨e', there, holds⟩ := descriptor_of_findIdx place
    rw [listed] at there
    cases there
    obtain ⟨k, known, rfl⟩ := class_of_listed listed
    rw [Bool.and_eq_true, beq_iff_eq, beq_iff_eq] at holds
    exact ⟨c, k, known, holds.1, holds.2, rfl⟩
  · rintro ⟨c, k, known, rfl, rfl, rfl⟩
    rw [well.position known]
    exact listed_capture known

theorem recorded {reference : Option ClassId} (known : w.class? c = some k)
    (before : ∀ {d}, reference = some d → d < c) :
    w.Recorded (capture w) c reference (w.nameOf reference) := by
  rintro d rfl
  obtain ⟨l, there⟩ := class?_of_lt (Nat.lt_trans (before rfl) (lt_of_class? known))
  exact ⟨before rfl, l, there, listed_capture there, (nameOf_some there).symm⟩

/-- A reference by name is followed to the class itself, or to another one with its name. -/
theorem WellFormed.follow_found (well : w.WellFormed) {reference : Option ClassId} {present : Bool}
    (known : w.class? c = some k) (before : ∀ {d}, reference = some d → d < c)
    (is : present = reference.isSome) : ∃ found,
      follow ((capture w).descriptors.take c) present (w.nameOf reference) = some found ∧
        w.Found c reference found := by
  subst is
  cases reference with
  | none =>
    refine ⟨none, rfl, ?_, .same none, ?_⟩
    · intro d found
      cases found
    · intro d l reference
      cases reference
  | some d =>
    obtain ⟨-, l, there, listed, name⟩ := recorded known before d rfl
    have read : w.describe l ∈ (capture w).descriptors.take c := by
      apply List.mem_of_getElem? (i := d)
      rw [List.getElem?_take, if_pos (before rfl), listed]
    obtain ⟨i, e, place, listed', name', grid⟩ := resolve_read read name
    rw [List.getElem?_take] at listed'
    split at listed'
    case isFalse => cases listed'
    case isTrue earlier =>
    obtain ⟨m, there', rfl⟩ := class_of_listed listed'
    have title : l.name = m.name := name.trans name'.symm
    refine ⟨some i, ?_, ?_, ?_, ?_⟩
    · rw [follow, Option.isSome_some, if_pos rfl, place, Option.map_some]
    · intro j found
      cases found
      exact earlier
    · by_cases same : d = i
      · exact same ▸ .same _
      · exact .homonyms ⟨same, l, m, there, there', title⟩
    · intro d' l' reference known' two
      cases reference
      rw [there] at known'
      cases known'
      have two' := (dimensions_iff w m (Nat.le_refl 2)).mp
        (grid ((dimensions_iff w l (Nat.le_refl 2)).mpr two))
      rw [well.eq_of_dimensions there there' title (two.trans two'.symm)]

theorem Found.eq {reference found : Option ClassId} (is : w.Found c reference found)
    (single : ∀ c d, ¬ w.Homonyms c d) : found = reference := by
  obtain ⟨-, resembles, -⟩ := is
  cases resembles with
  | same => rfl
  | homonyms named => exact absurd named (single _ _)

theorem arraySuperclassKey_mem (rank : Rank) (k : Class) :
    k.arraySuperclassKey rank ∈ rootKeys := by
  unfold Class.arraySuperclassKey
  split <;> cases rank <;> simp [rootKeys, Rank.baseKey]

theorem not_brackets_prefix : ∀ key ∈ rootKeys, ¬ Rank.brackets .two <+: key := by
  decide

/-- Of two classes with one name, none but the two-dimensional one is above an array class. -/
theorem WellFormed.grid_above_array (well : w.WellFormed) (known : w.class? c = some k)
    {rank : Rank} {e s : ClassId} (shape : k.shape = .array rank e s)
    (there : w.class? s = some l) (named : w.Homonyms s d) : l.shape.dimensions = 2 := by
  obtain ⟨m, -, -, found⟩ := (well.made known).array_name shape
  obtain ⟨l', there', key⟩ := find?_some found
  rw [there] at there'
  cases there'
  by_contra flat
  obtain ⟨-, l', o, there', other, name⟩ := id named
  rw [there] at there'
  cases there'
  have grid : o.shape.dimensions = 2 :=
    by_contra fun flat' => flat ((well.homonyms_apart there other named).mpr flat')
  obtain ⟨e', s', shape'⟩ := array_of_grid grid
  obtain ⟨m', -, name', -⟩ := (well.made other).array_name shape'
  -- A class that is not two-dimensional has its name as its key, and no key above an array class
  -- begins like the name of a two-dimensional class.
  have begins : Rank.brackets .two <+: l.key := by
    rw [(key_eq_of_dimensions l).2, if_neg flat, name, name']
    exact List.prefix_append _ _
  exact not_brackets_prefix l.key (key ▸ arraySuperclassKey_mem rank m) begins

theorem WellFormed.linksOf_found (well : w.WellFormed) (known : w.class? c = some k) :
    ∃ links, linksOf ((capture w).descriptors.take c) (w.describe k) = some links ∧
      w.Found c k.shape.superclass? links.superclass ∧
      w.Found c k.shape.component? links.component := by
  have above : (!(k.shape.isPrimitive || k.name == Core.name .object)) =
      k.shape.superclass?.isSome := by
    rw [Bool.eq_iff_iff, Option.isSome_iff_ne_none, Ne, well.superclass?_none_iff known]
    simp
  have inside : ((w.describe k).dimensions != 0) = k.shape.component?.isSome := by
    rw [Bool.eq_iff_iff, Option.isSome_iff_ne_none, Ne, component?_none_iff, bne_iff_ne, Ne]
    exact not_congr (dimensions_iff w k (Nat.zero_le 2))
  obtain ⟨superclass, one, found⟩ := well.follow_found known (well.made known).superclass above
  obtain ⟨component, other, found'⟩ := well.follow_found known (well.made known).component inside
  refine ⟨⟨superclass, component⟩, ?_, found, found'⟩
  calc linksOf ((capture w).descriptors.take c) (w.describe k)
    _ = (follow ((capture w).descriptors.take c)
          (!(k.shape.isPrimitive || k.name == Core.name .object))
          (w.nameOf k.shape.superclass?)).bind fun superclass =>
        (follow ((capture w).descriptors.take c) ((w.describe k).dimensions != 0)
          (w.nameOf k.shape.component?)).bind fun component =>
        some ⟨superclass, component⟩ := rfl
    _ = some ⟨superclass, component⟩ := by
      rw [one, Option.bind_some, other, Option.bind_some]

theorem length_capture (w : World) : (capture w).descriptors.length = w.classes.size := by
  simp [descriptors, capture]

theorem WellFormed.array_superclass_found (well : w.WellFormed) {found : Option ClassId}
    (is : w.Found c (w.superclass? c) found) (array : (w.component? c).isSome) :
    found = w.superclass? c := by
  obtain ⟨e, holds⟩ := Option.isSome_iff_exists.mp array
  obtain ⟨k, known, component⟩ := Option.bind_eq_some_iff.mp holds
  obtain ⟨rank, s, shape⟩ := Shape.eq_array_of_component component
  have above : w.superclass? c = some s := by
    rw [superclass?_of_class? known, shape]
    rfl
  obtain ⟨-, resembles, grid⟩ := is
  rw [above] at resembles grid ⊢
  cases resembles with
  | same => rfl
  | homonyms named =>
    obtain ⟨-, l, -, there, -⟩ := id named
    exact grid rfl there (well.grid_above_array known shape there named)

theorem WellFormed.link_capture (well : w.WellFormed) :
    ∃ links, (capture w).link = some links ∧ w.LinkedBy links := by
  obtain ⟨links, linked, length, each⟩ := link_returns
    (P := fun c l => w.Found c (w.superclass? c) l.superclass ∧
      w.Found c (w.component? c) l.component)
    fun c e (listed : (capture w).descriptors[c]? = some e) => by
      obtain ⟨k, known, rfl⟩ := class_of_listed listed
      rw [superclass?_of_class? known, component?_of_class? known]
      exact well.linksOf_found known
  refine ⟨links, linked, ?_⟩
  constructor
  case length => rw [length, length_capture]
  case superclass => exact fun there => (each _ _ there).1
  case component => exact fun there => (each _ _ there).2
  case array_superclass =>
    exact fun there array => well.array_superclass_found (each _ _ there).1 array
  case exact =>
    intro single c l there
    obtain ⟨above, inside⟩ := each c l there
    rw [← above.eq single, ← inside.eq single]

end Catalogue

end World

/-- In every session that a script reaches, the snapshot is a catalogue of the classes. -/
theorem Script.Session.Reachable.capture_catalogues {s : Script.Session} (reached : s.Reachable) :
    s.world.CataloguedBy (Snapshot.capture s.world) := by
  have well := reached.valid.well
  constructor
  case listed => rfl
  case one_each => exact World.length_capture s.world
  case in_order => exact World.listed_capture
  case position => exact well.position
  case lookup_iff => exact well.lookup_iff
  case unambiguous => exact well.eq_of_listed
  case superclass => exact fun known => World.recorded known (well.made known).superclass
  case component => exact fun known => World.recorded known (well.made known).component
  case linked => exact well.link_capture

namespace Script

/-- A script that makes arrays of arrays, two-dimensional arrays with the same name as these, and a
class below the former, which the pass places below the latter. -/
def rowsAndBoards : List Step :=
  [.perform (.classes (.value (.array (.array (.named (.core .object)))))) none none,
    .perform (.classes (.value (.grid (.named (.core .string))))) none none,
    .perform (.classes (.define "Rows" (.array (.array (.named (.core .object)))) ["row"])) none
      none]

theorem capture_catalogues_rowsAndBoards :
    let s := ((Session.withVerbosity {} 0).runAll rowsAndBoards).2
    let snapshot := Snapshot.capture s.world
    s.Reachable ∧ snapshot.position? "[[Ljava.lang.Object;" 1 = some 2 ∧
      snapshot.position? "[[Ljava.lang.Object;" 2 = some 4 ∧ s.world.superclass? 6 = some 2 ∧
      snapshot.link.map (List.map Snapshot.Links.superclass) =
        some [none, some 0, some 1, some 0, some 1, some 4, some 4] ∧
      s.world.CataloguedBy snapshot := by
  intro s snapshot
  have reached : s.Reachable := (Session.Reachable.start {} 0).runAll rowsAndBoards
  exact ⟨reached, by decide +kernel, by decide +kernel, by decide +kernel, by decide +kernel,
    reached.capture_catalogues⟩

end Script

end ObjectModel
