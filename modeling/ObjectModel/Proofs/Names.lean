import ObjectModel.Proofs.Change

/-!
Names and keys of classes. None of the built-in names looks like the key of an array class, which
begins with a bracket or with the mark of two-dimensional arrays, and no superclass is looked for
under the name of a primitive type.
-/

namespace ObjectModel

/-- A text that begins neither with a bracket nor with the mark of two-dimensional arrays. -/
def Text.IsPlain (t : Text) : Prop := ¬ Text.ofString "[" <+: t ∧ ¬ Text.ofString "2d:" <+: t

instance (t : Text) : Decidable t.IsPlain := inferInstanceAs (Decidable (¬ _ ∧ ¬ _))

theorem Core.name_plain (which : Core) : which.name.IsPlain := by
  cases which <;> decide

theorem Kind.name_plain (k : Kind) : k.name.IsPlain := by
  cases k <;> decide

theorem Primitive.name_plain (p : Primitive) : p.name.IsPlain := by
  cases p <;> decide

theorem Sample.name_plain (s : Sample) : s.name.IsPlain := by
  cases s <;> decide

theorem Rank.key_not_plain (rank : Rank) (d : Text) :
    ¬ (rank.key (rank.brackets ++ d)).IsPlain := by
  intro plain
  cases rank with
  | one => exact plain.1 (List.prefix_append _ _)
  | two => exact plain.2 (List.prefix_append _ _)

theorem Rank.bracket_prefix (rank : Rank) : Text.ofString "[" <+: rank.brackets := by
  cases rank <;> decide

theorem Class.arrayName_not_plain (rank : Rank) (c : Class) : ¬ (c.arrayName rank).IsPlain :=
  fun plain => plain.1 (rank.bracket_prefix.trans (List.prefix_append _ _))

theorem Class.arrayKey_not_plain (rank : Rank) (c : Class) : ¬ (c.arrayKey rank).IsPlain :=
  rank.key_not_plain c.descriptor

theorem Text.IsPlain.ne_arrayKey {name : Text} (plain : name.IsPlain) (rank : Rank) (c : Class) :
    c.arrayKey rank ≠ name := by
  intro same
  rw [← same] at plain
  exact c.arrayKey_not_plain rank plain

theorem Core.name_ne_primitive (which : Core) (p : Primitive) : which.name ≠ p.name := by
  cases which <;> cases p <;> decide

theorem Kind.name_ne_primitive (k : Kind) (p : Primitive) : k.name ≠ p.name := by
  cases k <;> cases p <;> decide

theorem Kind.superclassKey_ne_primitive (k : Kind) (p : Primitive) : k.superclassKey ≠ p.name := by
  cases k <;> cases p <;> decide

theorem Rank.rootKey_ne_primitive (rank : Rank) (p : Primitive) : rank.rootKey ≠ p.name := by
  intro same
  have plain := p.name_plain
  rw [← same] at plain
  exact rank.key_not_plain rootDescriptor plain

theorem Rank.baseKey_ne_primitive (rank : Rank) (p : Primitive) : rank.baseKey ≠ p.name := by
  cases rank with
  | one => exact Core.name_ne_primitive .object p
  | two => exact Rank.rootKey_ne_primitive .one p

theorem Class.arraySuperclassKey_ne_primitive (rank : Rank) (c : Class) (p : Primitive) :
    c.arraySuperclassKey rank ≠ p.name := by
  unfold arraySuperclassKey
  split
  · exact rank.baseKey_ne_primitive p
  · exact rank.rootKey_ne_primitive p

end ObjectModel
