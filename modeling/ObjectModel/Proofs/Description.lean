import ObjectModel.Proofs.ClassTerm

/-!
What classes are described as. As long as the built-in names keep their classes, a built-in class
has one descriptor for good. The descriptor of a defined class follows from that of its superclass,
and, as long as no other class takes the name of an array class, the descriptor of an array class
from that of its component.
-/

namespace ObjectModel

theorem Shape.eq_array_of_component {shape : Shape} {e : ClassId}
    (holds : shape.component? = some e) : ∃ rank s, shape = .array rank e s := by
  cases shape with
  | array rank d s =>
    cases holds
    exact ⟨rank, s, rfl⟩
  | _ => cases holds

section Descriptors
variable {w : World} {c d : ClassId} {k l : Class}

theorem World.describe_code (w : World) (k : Class) : (w.describe k).code = k.descriptor := by
  unfold Descriptor.code Class.descriptor World.describe
  cases k.shape with
  | array rank component superclass => cases rank <;> rfl
  | _ => rfl

theorem Class.descriptor_of_array {rank : Rank} {e s : ClassId}
    (shape : k.shape = .array rank e s) : k.descriptor = k.name := by
  rw [Class.descriptor, shape]

theorem World.Made.descriptor_bracket (made : w.Made c k) {rank : Rank} {e s : ClassId}
    (shape : k.shape = .array rank e s) : ∃ rest, k.descriptor = 0x5B :: rest := by
  obtain ⟨m, -, name, -⟩ := made.array_name shape
  rw [Class.descriptor_of_array shape, name, Class.arrayName]
  cases rank <;> exact ⟨_, rfl⟩

/-- Classes with the same element code have the same name, and both are primitive or neither is. -/
theorem World.WellFormed.name_of_descriptor (well : w.WellFormed) (known : w.class? c = some k)
    (known' : w.class? d = some l) (same : k.descriptor = l.descriptor) :
    k.name = l.name ∧ k.shape.isPrimitive = l.shape.isPrimitive := by
  have made := well.made known
  have made' := well.made known'
  have apart {c d : ClassId} {k l : Class} (made : w.Made c k) (simple : k.shape.component? = none)
      (made' : w.Made d l) {rank : Rank} {e s : ClassId} (shape : l.shape = .array rank e s) :
      k.descriptor ≠ l.descriptor := by
    obtain ⟨b, rest, begins, letter⟩ := made.descriptor_cons simple
    obtain ⟨rest', bracket⟩ := made'.descriptor_bracket shape
    rw [begins, bracket]
    intro same
    exact letter (List.cons.inj same).1
  cases simple : k.shape.component? with
  | none =>
    cases simple' : l.shape.component? with
    | none =>
      have one := well.eq_of_descriptor known known' simple simple' same
      rw [one, known'] at known
      cases known
      exact ⟨rfl, rfl⟩
    | some e =>
      obtain ⟨rank, s, shape⟩ := Shape.eq_array_of_component simple'
      exact absurd same (apart made simple made' shape)
  | some e =>
    obtain ⟨rank, s, shape⟩ := Shape.eq_array_of_component simple
    cases simple' : l.shape.component? with
    | none => exact absurd same.symm (apart made' simple' made shape)
    | some e' =>
      obtain ⟨rank', s', shape'⟩ := Shape.eq_array_of_component simple'
      rw [Class.descriptor_of_array shape, Class.descriptor_of_array shape'] at same
      exact ⟨same, by rw [shape, shape']; rfl⟩

theorem World.nameOf_some (known : w.class? c = some k) : w.nameOf (some c) = k.name := by
  rw [World.nameOf, Option.bind_some, known]
  rfl

theorem World.describe_derived {s : ClassId} {t : DispatchTable} (shape : k.shape = .derived s)
    (above : w.class? s = some l) (table : k.table = some t) :
    w.describe k = { name := k.name, superclass := l.name, slots := some t.slots } := by
  have superclass : w.nameOf k.shape.superclass? = l.name := by
    rw [shape]
    exact nameOf_some above
  unfold describe
  rw [superclass, shape, table]
  rfl

theorem World.WellFormed.name_of_find (well : w.WellFormed) {name : Text} (plain : name.IsPlain)
    (found : w.find? name = some c) (known : w.class? c = some k) : k.name = name := by
  obtain ⟨k', known', key⟩ := World.find?_some found
  rw [known] at known'
  cases known'
  rw [Class.key] at key
  cases shape : k.shape with
  | array rank e s =>
    obtain ⟨m, -, held, -⟩ := (well.made known).array_name shape
    rw [shape, held] at key
    exact absurd key (plain.ne_arrayKey rank m)
  | _ =>
    rw [shape] at key
    exact key

end Descriptors

theorem Kind.layout_eq (k : Kind) : k.layout = DispatchTable.extendLayout
    ((k.parent?.map layout).getD DispatchTable.object.slots) k.slots := by
  cases k <;> rfl

theorem Kind.superclassKey_plain (k : Kind) : k.superclassKey.IsPlain := by
  cases k <;> decide

theorem Kind.above_length {k p : Kind} (parent : k.parent? = some p) :
    p.above.length < k.above.length := by
  cases k <;> cases parent <;> decide

section Builtins
variable {w : World} {c : ClassId} {k : Class}

theorem World.WellFormed.slots_of_root (well : w.WellFormed) {t : DispatchTable}
    (found : w.find? (Core.name .object) = some c) (has : w.table? c = some t) :
    t = .object := by
  obtain ⟨l, known, -, -, table⟩ := well.root_of_find found
  rw [World.table?_of_class? known, table] at has
  exact (Option.some.inj has).symm

/-- The layout of a kind is that of its parent with the slots of the kind. -/
theorem World.WellFormed.slots_of_kind (well : w.WellFormed) (kept : ∀ b, w.Keeps b) (kind : Kind)
    {c : ClassId} {t : DispatchTable} (found : w.find? kind.name = some c)
    (has : w.table? c = some t) : t.slots = kind.layout := by
  obtain ⟨l, known, own⟩ := World.class?_of_table? has
  obtain ⟨s, u, above, inherited, -, table⟩ := kept (.kind kind) found known
  rw [own] at table
  have slots : t.slots = DispatchTable.extendLayout u.slots kind.slots := by
    rw [Option.some.inj table]
    rfl
  have parent : u.slots = (kind.parent?.map Kind.layout).getD DispatchTable.object.slots := by
    rw [Kind.superclassKey] at above
    cases higher : kind.parent? with
    | none =>
      rw [higher] at above
      rw [well.slots_of_root above inherited]
      rfl
    | some p =>
      rw [higher] at above
      have shorter := Kind.above_length higher
      exact slots_of_kind well kept p above inherited
  rw [slots, parent, ← Kind.layout_eq]
termination_by kind.above.length

/-- A world that keeps the built-in classes describes them as they are built in. -/
theorem World.WellFormed.describe_builtin (well : w.WellFormed) (kept : ∀ b, w.Keeps b)
    {b : Builtin} (found : w.find? b.name = some c) (known : w.class? c = some k) :
    w.describe k = b.descriptor := by
  have assigned := kept b found known
  have name := well.name_of_find b.name_plain found known
  have below {key : Text} {s : ClassId} {t : DispatchTable} (plain : key.IsPlain)
      (above : w.find? key = some s) (shape : k.shape = .derived s) (table : k.table = some t) :
      w.describe k = { name := b.name, superclass := key, slots := some t.slots } := by
    obtain ⟨l, there, -⟩ := find?_some above
    rw [describe_derived shape there table, name, well.name_of_find plain above there]
  rcases b with (_ | _ | _) | p | kind
  · obtain ⟨shape, table⟩ := assigned
    simp only [describe, name, shape, table, Builtin.descriptor]
    rfl
  · obtain ⟨root, above, shape, table⟩ := assigned
    exact below (Core.name_plain .object) above shape table
  · obtain ⟨root, above, shape, table⟩ := assigned
    exact below (Core.name_plain .object) above shape table
  · obtain ⟨shape, table⟩ := assigned
    simp only [describe, name, shape, table, Builtin.descriptor]
    rfl
  · obtain ⟨s, t, above, -, shape, table⟩ := assigned
    rw [below kind.superclassKey_plain above shape table]
    have has := table?_of_class? known
    rw [table] at has
    rw [well.slots_of_kind kept kind found has]
    rfl

end Builtins

section Arrays
variable {w : World} {rank : Rank} {c d s : ClassId} {k m : Class}

theorem World.WellFormed.name_of_rootKey (well : w.WellFormed) (plain : w.PlainNames)
    (found : w.find? rank.rootKey = some s) : w.nameOf (some s) = rank.rootName := by
  obtain ⟨l, e, s', m', known, shape, inside, element⟩ := well.array_of_key plain found
  obtain ⟨m'', inside', name, -⟩ := (well.made known).array_name shape
  rw [inside] at inside'
  cases inside'
  rw [nameOf_some known, name, Class.arrayName, element]
  rfl

theorem World.WellFormed.name_of_arraySuperclass (well : w.WellFormed) (plain : w.PlainNames)
    (inside : w.class? d = some m) (above : w.find? (m.arraySuperclassKey rank) = some s) :
    w.nameOf (some s) = if m.shape.isPrimitive || m.name == Core.name .object then rank.baseName
      else rank.rootName := by
  have root : (m.name == Core.name .object) = (m.shape == .root) := by
    rw [Bool.eq_iff_iff, beq_iff_eq, beq_iff_eq]
    exact (well.root_iff inside).symm
  rw [root]
  unfold Class.arraySuperclassKey at above
  split at above
  · rename_i low
    rw [if_pos low]
    cases rank with
    | one =>
      obtain ⟨l, known, -, name, -⟩ := well.root_of_find above
      rw [nameOf_some known, name]
      rfl
    | two => exact well.name_of_rootKey plain above
  · rename_i high
    rw [if_neg high]
    exact well.name_of_rootKey plain above

/-- The descriptor of an array class follows from that of its component. -/
theorem World.WellFormed.describe_array (well : w.WellFormed) (plain : w.PlainNames)
    (known : w.class? c = some k) (shape : k.shape = .array rank d s)
    (inside : w.class? d = some m) : w.describe k = (w.describe m).arrays rank := by
  have made := well.made known
  obtain ⟨m', inside', name, above⟩ := made.array_name shape
  rw [inside] at inside'
  cases inside'
  have superclass := well.name_of_arraySuperclass plain inside above
  have component := nameOf_some inside
  rw [Descriptor.arrays, w.describe_code]
  unfold describe
  simp only [shape, Shape.superclass?, Shape.component?, superclass, component, name,
    made.array_table shape]
  rfl

theorem Descriptor.arrays_congr {one other : Descriptor} (name : one.name = other.name)
    (primitive : one.primitive = other.primitive) (code : one.code = other.code) (rank : Rank) :
    one.arrays rank = other.arrays rank := by
  unfold arrays
  rw [name, primitive, code]

theorem Descriptor.arrays_key (rank : Rank) (d : Descriptor) :
    (d.arrays rank).key = rank.key (rank.brackets ++ d.code) := by
  cases rank <;> rfl

end Arrays

end ObjectModel
