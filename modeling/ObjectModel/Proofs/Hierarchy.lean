import ObjectModel.Proofs.Names
import ObjectModel.Proofs.WellFormed

/-!
The class hierarchy of a well-formed world. Only primitive types lack a dispatch table, every other
class leads up to the one root class, and the table of a class belongs to that class.
-/

namespace ObjectModel.World

section Class
variable {w : World} {c : ClassId} {k : Class}

theorem Made.table_none_iff (made : w.Made c k) : k.table = none ↔ k.shape = .primitive := by
  obtain ⟨cause, table, creation, own⟩ := made.creation
  rw [own]
  generalize k.shape = shape at creation
  generalize k.name = name at creation
  cases creation <;> simp [Action.arrayTable]

theorem Made.primitive_name (made : w.Made c k) (primitive : k.shape = .primitive) :
    ∃ p : Primitive, k.name = p.name := by
  obtain ⟨cause, table, creation, _⟩ := made.creation
  rw [primitive] at creation
  generalize k.name = name at creation ⊢
  cases creation with
  | primitive p => exact ⟨p, rfl⟩

theorem Made.root_name (made : w.Made c k) (root : k.shape = .root) :
    k.name = Core.name .object ∧ k.table = some .object := by
  obtain ⟨cause, table, creation, own⟩ := made.creation
  rw [root] at creation
  rw [own]
  generalize k.name = name at creation ⊢
  cases creation with
  | root => exact ⟨rfl, rfl⟩

theorem Made.array_name (made : w.Made c k) {rank : Rank} {d s : ClassId}
    (array : k.shape = .array rank d s) :
    ∃ l, w.class? d = some l ∧ k.name = l.arrayName rank ∧
      w.find? (l.arraySuperclassKey rank) = some s := by
  obtain ⟨cause, table, creation, _⟩ := made.creation
  rw [array] at creation
  generalize k.name = name at creation ⊢
  cases creation with
  | array rank known above => exact ⟨_, known, rfl, above⟩

theorem WellFormed.find_array (well : w.WellFormed) {a d s : ClassId} {l m : Class}
    {rank : Rank} (known : w.class? a = some l) (shape : l.shape = .array rank d s)
    (inside : w.class? d = some m) : w.find? (m.arrayKey rank) = some a := by
  obtain ⟨m', same, name, _⟩ := (well.made known).array_name shape
  rw [inside] at same
  cases same
  have key : l.key = m.arrayKey rank := by rw [Class.key, shape, name]; rfl
  exact key ▸ well.keyed known

theorem WellFormed.not_primitive_of_table (well : w.WellFormed) (known : w.class? c = some k)
    {t : DispatchTable} (has : k.table = some t) : k.shape ≠ .primitive := by
  intro primitive
  have none := (well.made known).table_none_iff.mpr primitive
  rw [none] at has
  cases has

theorem WellFormed.not_primitive_of_key (well : w.WellFormed) (known : w.class? c = some k)
    (other : ∀ p : Primitive, k.key ≠ p.name) : k.shape ≠ .primitive := by
  intro primitive
  obtain ⟨p, name⟩ := (well.made known).primitive_name primitive
  apply other p
  rw [Class.key, primitive, ← name]
  rfl

theorem WellFormed.table_of_find (well : w.WellFormed) {key : Text} (found : w.find? key = some c)
    (other : ∀ p : Primitive, key ≠ p.name) : ∃ t, w.table? c = some t := by
  obtain ⟨k, known, rfl⟩ := find?_some found
  have reference := well.not_primitive_of_key known other
  rw [table?_of_class? known]
  cases has : k.table with
  | none => exact absurd ((well.made known).table_none_iff.mp has) reference
  | some t => exact ⟨t, rfl⟩

end Class

def Above (w : World) (c s : ClassId) : Prop := w.superclass? c = some s

theorem WellFormed.lt_of_above {w : World} (well : w.WellFormed) {c s : ClassId}
    (above : w.Above c s) : s < c := by
  obtain ⟨k, known, has⟩ := Option.bind_eq_some_iff.mp above
  exact (well.made known).superclass has

theorem superclasses_top {w : World} {c : ClassId} (top : w.superclass? c = none) :
    w.superclasses c = [] := by
  rw [superclasses, top]

theorem WellFormed.superclasses_above {w : World} (well : w.WellFormed) {c s : ClassId}
    (above : w.Above c s) : w.superclasses c = s :: w.superclasses s := by
  rw [superclasses, above]
  simp only [if_pos (well.lt_of_above above)]

theorem Made.superclass_reference {w : World} (well : w.WellFormed) {c s : ClassId} {k l : Class}
    (made : w.Made c k) (above : k.shape.superclass? = some s) (known : w.class? s = some l) :
    l.shape ≠ .primitive := by
  have of_key {key : Text} (found : w.find? key = some s)
      (other : ∀ p : Primitive, key ≠ p.name) : l.shape ≠ .primitive := by
    obtain ⟨l', known', rfl⟩ := find?_some found
    rw [known] at known'
    cases known'
    exact well.not_primitive_of_key known other
  have of_table {t : DispatchTable} (has : w.table? s = some t) : l.shape ≠ .primitive := by
    rw [table?_of_class? known] at has
    exact well.not_primitive_of_table known has
  obtain ⟨cause, table, creation, _⟩ := made.creation
  generalize k.shape = shape at creation above
  generalize k.name = name at creation
  cases creation with
  | root => cases above
  | core which below found => cases above; exact of_key found (Core.name_ne_primitive _)
  | primitive p => cases above
  | kind kind found inherited => cases above; exact of_table inherited
  | array rank member found =>
    cases above
    exact of_key found (Class.arraySuperclassKey_ne_primitive rank _)
  | definition _ slots inherited => cases above; exact of_table inherited

/-- Every class but the primitive types leads up to a root class. -/
theorem WellFormed.leads_to_root {w : World} (well : w.WellFormed) (c : ClassId) :
    ∀ {k}, w.class? c = some k → k.shape ≠ .primitive →
      ∃ r l, Relation.ReflTransGen w.Above c r ∧ w.class? r = some l ∧ l.shape = .root ∧ r ≤ c := by
  induction c using Nat.strongRecOn with
  | ind c ih =>
    intro k known reference
    cases above : k.shape.superclass? with
    | none =>
      have root : k.shape = .root := by
        cases shape : k.shape with
        | root => rfl
        | primitive => exact absurd shape reference
        | derived => rw [shape] at above; cases above
        | array => rw [shape] at above; cases above
      exact ⟨c, k, .refl, known, root, Nat.le_refl c⟩
    | some s =>
      have made := well.made known
      have earlier := made.superclass above
      obtain ⟨l, knownAbove⟩ := class?_of_lt (Nat.lt_trans earlier (lt_of_class? known))
      obtain ⟨r, top, chain, knownTop, root, atMost⟩ :=
        ih s earlier knownAbove (made.superclass_reference well above knownAbove)
      have step : w.Above c s := by
        rw [Above, superclass?_of_class? known, above]
      exact ⟨r, top, .head step chain, knownTop, root, Nat.le_trans atMost (Nat.le_of_lt earlier)⟩

theorem WellFormed.root_of_find {w : World} (well : w.WellFormed) {r : ClassId}
    (found : w.find? (Core.name .object) = some r) :
    ∃ k, w.class? r = some k ∧ k.shape = .root ∧ k.name = Core.name .object ∧
      k.table = some .object := by
  obtain ⟨k, known, key⟩ := find?_some found
  have reference := well.not_primitive_of_key known (key ▸ Core.name_ne_primitive .object)
  -- The root class at the end of the chain has the key in question, so it is `r` itself.
  obtain ⟨r', l, _, knownTop, root, _⟩ := well.leads_to_root r known reference
  have name := (well.made knownTop).root_name root
  have same := well.keyed knownTop
  rw [Class.key, root] at same
  simp only [Shape.key, name.1, found, Option.some.injEq] at same
  subst same
  exact ⟨l, knownTop, root, name⟩

theorem WellFormed.eq_root_iff {w : World} (well : w.WellFormed) {r c : ClassId} {k : Class}
    (found : w.find? (Core.name .object) = some r) (known : w.class? c = some k) :
    c = r ↔ k.shape = .root := by
  constructor
  · rintro rfl
    obtain ⟨k', known', root, _⟩ := well.root_of_find found
    rw [known] at known'
    cases known'
    exact root
  · intro root
    have key := well.keyed known
    rw [Class.key, root] at key
    simp only [Shape.key, ((well.made known).root_name root).1, found, Option.some.injEq] at key
    exact key.symm

theorem WellFormed.owner_of_table {w : World} (well : w.WellFormed) {c : ClassId}
    {t : DispatchTable} (has : w.table? c = some t) : w.owner? t = some c := by
  obtain ⟨k, known, own⟩ := class?_of_table? has
  have key := well.keyed known
  obtain ⟨cause, table, creation, made⟩ := (well.made known).creation
  rw [made] at own
  rw [Class.key] at key
  generalize k.shape = shape at creation key
  generalize k.name = name at creation key
  cases creation with
  | root => cases own; exact key
  | core which below above =>
    cases own
    cases which with
    | object => exact absurd rfl below
    | string => exact key
    | metaclass => exact key
  | primitive p => cases own
  | kind => cases own; rfl
  | array => cases own; rfl
  | definition => cases own; rfl

section Validity
variable {w : World}

theorem valid_core (which : Core) : which.table.Valid w := by
  intro level member c own
  cases which <;> simp [Core.table, DispatchTable.object, DispatchTable.string,
    DispatchTable.metaclass, DispatchTable.extend, DispatchTable.levels] at member <;>
    rcases member with rfl | rfl <;> cases own

theorem valid_extend {parent : Option DispatchTable} {level : Level}
    (valid : ∀ t ∈ parent, t.Valid w) (own : ∀ c, level.owner = .known c → c < w.classes.size) :
    (DispatchTable.extend parent level).Valid w := by
  intro l member d owned
  rcases List.mem_cons.mp member with rfl | inherited
  · exact own d owned
  · cases parent with
    | none => cases inherited
    | some t => exact valid t rfl l inherited d owned

theorem valid_parent {t parent : DispatchTable} (valid : t.Valid w)
    (above : t.parent? = some parent) : parent.Valid w := by
  intro l member
  unfold DispatchTable.parent? at above
  split at above
  · cases above
  · rename_i level rest inherited
    cases above
    refine valid l (List.mem_cons_of_mem _ ?_)
    rw [inherited]
    exact member

theorem WellFormed.table_valid (well : w.WellFormed) (c : ClassId) :
    ∀ {t}, w.table? c = some t → t.Valid w := by
  induction c using Nat.strongRecOn with
  | ind c ih =>
    intro t has
    obtain ⟨k, known, own⟩ := class?_of_table? has
    have extended {t : DispatchTable} {destructor : Option Destructor} {names : List Text}
        (valid : t.Valid w) :
        (DispatchTable.extend (some t) ⟨.known c, destructor, names⟩).Valid w := by
      refine valid_extend ?_ ?_
      · rintro _ ⟨rfl⟩
        exact valid
      · rintro _ ⟨rfl⟩
        exact lt_of_class? known
    have earlier {s : ClassId} := (well.made known).superclass (s := s)
    obtain ⟨cause, table, creation, made⟩ := (well.made known).creation
    rw [made] at own
    generalize k.shape = shape at creation earlier
    generalize k.name = name at creation
    cases creation with
    | root => cases own; exact valid_core .object
    | core which => cases own; exact valid_core which
    | primitive => cases own
    | kind _ _ inherited => cases own; exact extended (ih _ (earlier rfl) inherited)
    | array => cases own; exact extended (valid_core .object)
    | definition _ _ inherited =>
      cases own
      exact extended (ih _ (earlier rfl) inherited)

theorem WellFormed.object_table_valid (well : w.WellFormed) {id : ObjectId} {o : Obj}
    (found : w.object? id = some o) : o.table.Valid w := by
  cases well.born found with
  | metaclass _ _ table _ => rw [table]; exact valid_core .metaclass
  | allocation born _ =>
    generalize o.table = table at born
    cases born with
    | plain => exact valid_core .object
    | string => exact valid_core .string
    | exception _ _ _ own => exact well.table_valid _ own
    | member valid _ => exact valid
    | array _ _ _ _ _ own => exact well.table_valid _ own
    | grid _ _ _ _ _ _ own => exact well.table_valid _ own

theorem WellFormed.metaclass_lt (well : w.WellFormed) {id : ObjectId} {c : ClassId}
    (holds : w.body? id = some (.metaclass c)) : c < w.classes.size := by
  obtain ⟨o, found, held⟩ := Option.map_eq_some_iff.mp holds
  cases well.born found with
  | metaclass known _ _ body =>
    rw [held] at body
    cases body
    exact lt_of_class? known
  | allocation born kin =>
    rw [held] at kin
    cases kin
    generalize o.table = table at born
    cases born with
    | member _ sound => cases sound

end Validity

end ObjectModel.World
