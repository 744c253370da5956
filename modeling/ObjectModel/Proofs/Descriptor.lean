import ObjectModel.Proofs.ClassTable

/-!
Descriptors and types. The type of a class is its element class together with the number of its
dimensions, counted through arrays of arrays. Two classes have the same descriptor exactly if they
have the same type; a two-dimensional array and an array of arrays of the same elements do.
-/

namespace ObjectModel

theorem Rank.toNat_pos (rank : Rank) : 0 < rank.toNat := by
  cases rank <;> decide

namespace World

/-- The class `c` is an array type of `n` dimensions in all over the element class `e`. -/
inductive Nested (w : World) : ClassId → ClassId → Nat → Prop where
  | element {c : ClassId} {k : Class} (known : w.class? c = some k)
      (simple : k.shape.component? = none) : Nested w c c 0
  | array {c d s e : ClassId} {k : Class} {rank : Rank} {n : Nat} (known : w.class? c = some k)
      (shape : k.shape = .array rank d s) (inner : Nested w d e n) : Nested w c e (rank.toNat + n)

/-- Two classes with the same elements and the same number of dimensions. -/
def SameType (w : World) (c d : ClassId) : Prop := ∃ e n, w.Nested c e n ∧ w.Nested d e n

section Types
variable {w : World}

theorem WellFormed.nested (well : w.WellFormed) (c : ClassId) :
    ∀ {k}, w.class? c = some k → ∃ e n, w.Nested c e n := by
  induction c using Nat.strongRecOn with
  | ind c ih =>
    intro k known
    cases shape : k.shape with
    | array rank d s =>
      obtain ⟨l, inside, _, _⟩ := (well.made known).array_name shape
      have earlier : d < c := (well.made known).component (by rw [shape]; rfl)
      obtain ⟨e, n, nested⟩ := ih d earlier inside
      exact ⟨e, _, .array known shape nested⟩
    | _ => exact ⟨c, 0, .element known (by rw [shape]; rfl)⟩

theorem Nested.element_class {c e : ClassId} {n : Nat} (nested : w.Nested c e n) :
    ∃ m, w.class? e = some m ∧ m.shape.component? = none := by
  induction nested with
  | element known simple => exact ⟨_, known, simple⟩
  | array _ _ _ ih => exact ih

theorem Nested.unique {c e e' : ClassId} {n n' : Nat} (one : w.Nested c e n)
    (other : w.Nested c e' n') : e = e' ∧ n = n' := by
  induction one generalizing n' with
  | element known simple =>
    cases other with
    | element => exact ⟨rfl, rfl⟩
    | array known' shape _ =>
      rw [known] at known'
      cases known'
      rw [shape] at simple
      cases simple
  | array known shape _ ih =>
    cases other with
    | element known' simple =>
      rw [known] at known'
      cases known'
      rw [shape] at simple
      cases simple
    | array known' shape' inner =>
      rw [known] at known'
      cases known'
      rw [shape] at shape'
      cases shape'
      obtain ⟨rfl, rfl⟩ := ih inner
      exact ⟨rfl, rfl⟩

theorem Nested.eq_of_zero {c e : ClassId} {n : Nat} (nested : w.Nested c e n) (none : n = 0) :
    c = e := by
  cases nested with
  | element => rfl
  | array => exact absurd none (Nat.ne_of_gt (Nat.add_pos_left (Rank.toNat_pos _) _))

theorem Nested.eq_of_one {c e : ClassId} {n : Nat} (nested : w.Nested c e n) (single : n = 1) :
    ∃ k s, w.class? c = some k ∧ k.shape = .array .one e s := by
  cases nested with
  | element => cases single
  | @array _ d s _ k rank n known shape inner =>
    cases rank with
    | one =>
      have last := inner.eq_of_zero (Nat.add_left_cancel single)
      exact ⟨k, s, known, last ▸ shape⟩
    | two =>
      have more : 2 ≤ Rank.two.toNat + n := Nat.le_add_right 2 n
      rw [single] at more
      cases more with
      | step impossible => cases impossible

theorem WellFormed.eq_of_nested (well : w.WellFormed) {c d e : ClassId} {n : Nat} (few : n ≤ 1)
    (one : w.Nested c e n) (other : w.Nested d e n) : c = d := by
  rcases Nat.le_one_iff_eq_zero_or_eq_one.mp few with none | single
  · rw [one.eq_of_zero none, other.eq_of_zero none]
  · obtain ⟨k, s, known, shape⟩ := one.eq_of_one single
    obtain ⟨l, s', known', shape'⟩ := other.eq_of_one single
    obtain ⟨m, inside, _⟩ := one.element_class
    have found := well.find_array known shape inside
    rw [well.find_array known' shape' inside] at found
    exact (Option.some.inj found).symm

end Types

end World

theorem Rank.brackets_eq (rank : Rank) : rank.brackets = List.replicate rank.toNat 0x5B := by
  cases rank <;> decide

theorem World.Nested.descriptor_eq {w : World} (well : w.WellFormed) {c e : ClassId} {n : Nat}
    (nested : w.Nested c e n) {m : Class} (last : w.class? e = some m) :
    ∀ {k}, w.class? c = some k → k.descriptor = List.replicate n 0x5B ++ m.descriptor := by
  induction nested with
  | element known simple =>
    intro k own
    rw [last] at own
    cases own
    rfl
  | array known shape _ ih =>
    intro k own
    rw [known] at own
    cases own
    obtain ⟨l, inside, name, _⟩ := (well.made known).array_name shape
    rw [Class.descriptor, shape]
    dsimp only
    rw [name, Class.arrayName, ih last inside, Rank.brackets_eq, ← List.append_assoc,
      List.replicate_append_replicate]

theorem Primitive.letter_injective {p q : Primitive} (same : p.letter = q.letter) : p = q := by
  revert same
  cases p <;> cases q <;> decide

theorem Primitive.letter_ne (p : Primitive) (t : Text) : p.letter ≠ "L" ++ t ++ ";" := by
  intro same
  cases p <;> exact absurd (List.cons.inj same).1 (by decide)

theorem World.Made.descriptor_simple {w : World} {c : ClassId} {k : Class} (made : w.Made c k)
    (simple : k.shape.component? = none) :
    (∃ p : Primitive, k.name = p.name ∧ k.descriptor = p.letter) ∨
      k.descriptor = "L" ++ k.name ++ ";" := by
  unfold Class.descriptor
  cases shape : k.shape with
  | array => rw [shape] at simple; cases simple
  | primitive =>
    obtain ⟨p, name⟩ := made.primitive_name shape
    refine .inl ⟨p, name, ?_⟩
    rw [name]
    cases p <;> rfl
  | root => exact .inr rfl
  | derived => exact .inr rfl

theorem World.Made.descriptor_cons {w : World} {c : ClassId} {k : Class} (made : w.Made c k)
    (simple : k.shape.component? = none) : ∃ b rest, k.descriptor = b :: rest ∧ b ≠ 0x5B := by
  rcases made.descriptor_simple simple with ⟨p, _, letter⟩ | reference
  · rw [letter]
    cases p <;> exact ⟨_, [], rfl, by decide⟩
  · rw [reference]
    exact ⟨0x4C, _, rfl, by decide⟩

theorem World.WellFormed.eq_of_descriptor {w : World} (well : w.WellFormed) {c d : ClassId}
    {k l : Class} (known : w.class? c = some k) (known' : w.class? d = some l)
    (simple : k.shape.component? = none) (simple' : l.shape.component? = none)
    (same : k.descriptor = l.descriptor) : c = d := by
  have key {k : Class} (simple : k.shape.component? = none) : k.key = k.name := by
    unfold Class.key
    cases shape : k.shape with
    | array => rw [shape] at simple; cases simple
    | _ => rfl
  have named : k.name = l.name := by
    rcases (well.made known).descriptor_simple simple with ⟨p, name, letter⟩ | reference <;>
      rcases (well.made known').descriptor_simple simple' with ⟨q, name', letter'⟩ | reference'
    · rw [letter, letter'] at same
      rw [name, name', Primitive.letter_injective same]
    · rw [letter, reference'] at same
      exact absurd same (p.letter_ne l.name)
    · rw [reference, letter'] at same
      exact absurd same.symm (q.letter_ne k.name)
    · rw [reference, reference'] at same
      exact List.append_cancel_left (List.append_cancel_right same)
  have found := well.keyed known
  rw [key simple, named, ← key simple', well.keyed known'] at found
  exact (Option.some.inj found).symm

/-- Where brackets stop, texts that agree have the same number of brackets. -/
theorem bracketed_injective {b b' : UInt8} {rest rest' : Text} (letter : b ≠ 0x5B)
    (letter' : b' ≠ 0x5B) : ∀ {n m : Nat},
    List.replicate n 0x5B ++ b :: rest = List.replicate m 0x5B ++ b' :: rest' →
      n = m ∧ b :: rest = b' :: rest'
  | 0, 0, same => ⟨rfl, same⟩
  | 0, _ + 1, same => absurd (List.cons.inj same).1 letter
  | _ + 1, 0, same => absurd (List.cons.inj same).1.symm letter'
  | n + 1, m + 1, same => by
    obtain ⟨count, rest⟩ := bracketed_injective letter letter' (List.cons.inj same).2
    exact ⟨congrArg (· + 1) count, rest⟩

/-- Classes have the same descriptor exactly if they have the same type. -/
theorem World.WellFormed.sameType_iff {w : World} (well : w.WellFormed) {c d : ClassId}
    {k l : Class} (known : w.class? c = some k) (known' : w.class? d = some l) :
    w.SameType c d ↔ k.descriptor = l.descriptor := by
  constructor
  · rintro ⟨e, n, one, other⟩
    obtain ⟨m, last, _⟩ := one.element_class
    rw [one.descriptor_eq well last known, other.descriptor_eq well last known']
  · intro same
    obtain ⟨e, n, one⟩ := well.nested c known
    obtain ⟨e', n', other⟩ := well.nested d known'
    obtain ⟨m, last, simple⟩ := one.element_class
    obtain ⟨m', last', simple'⟩ := other.element_class
    obtain ⟨b, rest, begins, letter⟩ := (well.made last).descriptor_cons simple
    obtain ⟨b', rest', begins', letter'⟩ := (well.made last').descriptor_cons simple'
    -- Both descriptors are brackets before a letter, so brackets and elements agree separately.
    rw [one.descriptor_eq well last known, other.descriptor_eq well last' known', begins,
      begins'] at same
    obtain ⟨count, tail⟩ := bracketed_injective letter letter' same
    have elements := well.eq_of_descriptor last last' simple simple' (by rw [begins, begins', tail])
    exact ⟨e, n, one, elements ▸ count ▸ other⟩

end ObjectModel
