import ObjectModel.Proofs.Codec
import ObjectModel.Proofs.Reader

/-!
Damaged snapshots. Wherever the bytes of a snapshot are cut, the reader finds that they end too
early, because its answers persist and the whole is read to its last byte; bytes behind the whole
are left over. A list that is too long is reported instead as soon as its length has been read.
-/

namespace ObjectModel

namespace Item

section Damage
variable {depth : Nat} {item : Item}

/-- An encoded item that is cut short is not read, whatever is left of it. -/
theorem Writable.read_cut (writable : Writable depth item) (shallow : depth ≤ maxDepth)
    {front rest : Text} (whole : item.encode = front ++ rest) (lost : rest ≠ [])
    (some_byte : front ≠ []) :
    read front = .error .truncated ∨ item.Overlong ∧ read front = .error .tooManyElements := by
  have room : 4 * front.length + 4 ≤ 4 * item.encode.length + 4 := by
    rw [whole, List.length_append]
    omega
  have persists := readItem_persists room 0 front rest
  have reads := writable.readsBack (4 * item.encode.length + 4) 0 [] (by omega) (by omega)
  rw [List.append_nil] at reads
  rw [← whole] at persists
  rw [read_of_ne_nil some_byte]
  by_cases long : item.Overlong
  · rw [reads.1 long] at persists
    generalize readItem (4 * front.length + 4) 0 front = answer at persists
    cases persists with
    | refused => exact .inr ⟨long, rfl⟩
    | cut => exact .inl rfl
  · rw [reads.2 long] at persists
    generalize readItem (4 * front.length + 4) 0 front = answer at persists
    cases answer with
    | error cause =>
      cases persists with
      | cut => exact .inl rfl
    | ok read =>
      obtain ⟨-, again⟩ := persists.of_ok
      simp only [Except.ok.injEq, Prod.mk.injEq] at again
      exact absurd (List.append_eq_nil_iff.mp again.2.symm).2 lost

/-- What follows an encoded item is left over. -/
theorem Writable.read_extended (writable : Writable depth item) (shallow : depth ≤ maxDepth)
    {extra : Text} (some_byte : extra ≠ []) :
    (item.Overlong → read (item.encode ++ extra) = .error .tooManyElements) ∧
    (¬ item.Overlong → read (item.encode ++ extra) = .error .leftover) := by
  have longer : item.encode ++ extra ≠ [] := List.append_ne_nil_of_right_ne_nil _ some_byte
  have reads := writable.readsBack (4 * (item.encode ++ extra).length + 4) 0 extra
    (by rw [List.length_append]; omega) (by omega)
  rw [read_of_ne_nil longer]
  constructor
  · intro long
    rw [reads.1 long]
    rfl
  · intro short
    have left : extra.isEmpty = false := by simpa using some_byte
    rw [reads.2 short]
    simp [bind, Except.bind, left, throw, throwThe, MonadExceptOf.throw]

end Damage

end Item

namespace Snapshot

/-- The item that is written for a snapshot; a missing snapshot is null. -/
def item (s : Option Snapshot) : Item := (s.map toItem).getD .null

/-- All lists in the snapshot, if there is one, are short enough for the reader. -/
def AllShort (s : Option Snapshot) : Prop := ∀ t ∈ s, t.Short

section Items
variable {s : Option Snapshot}

theorem encode_item (s : Option Snapshot) : encode s = (item s).encode := by
  cases s <;> rfl

theorem writable_item (sized : ∀ t ∈ s, t.Sized) : Item.Writable 4 (item s) := by
  cases s with
  | none => exact .simple (by decide)
  | some t => exact (sized t rfl).writable

theorem overlong_item : (item s).Overlong ↔ ¬ AllShort s := by
  cases s with
  | none => simp [item, AllShort, Item.null]
  | some t => simp [item, AllShort, overlong_toItem]

theorem decode_malformed {input : Text} {cause : Item.Malformed}
    (refused : Item.read input = .error cause) : decode input = .error (.malformed cause) := by
  rw [decode, refused]

/-- The undamaged bytes are one item, unless a list is too long. -/
theorem read_encode (sized : ∀ t ∈ s, t.Sized) (short : AllShort s) :
    Item.read (encode s) = .ok (item s) := by
  rw [encode_item]
  apply ((writable_item sized).read_encode (by decide)).2
  rw [overlong_item]
  exact not_not_intro short

theorem not_malformed {input : Text} {item : Item} (read : Item.read input = .ok item)
    (cause : Item.Malformed) : decode input ≠ .error (.malformed cause) := by
  rw [decode, read]
  dsimp only
  split
  · simp
  · split <;> simp

end Items

/-- The bytes of a snapshot are refused as soon as something is missing at their end or follows
them, and what is wrong is told; undamaged, they are refused as malformed only if a list is too
long. So the bytes of one snapshot are never those of another with something behind them. -/
theorem damage_refused {s : Option Snapshot} (sized : ∀ t ∈ s, t.Sized) :
    decode [] = .error (.malformed .empty) ∧
    (∀ front rest, encode s = front ++ rest → front ≠ [] → rest ≠ [] →
      decode front = .error (.malformed .truncated) ∨
        ¬ AllShort s ∧ decode front = .error (.malformed .tooManyElements)) ∧
    (∀ extra, extra ≠ [] →
      (AllShort s → decode (encode s ++ extra) = .error (.malformed .leftover)) ∧
      (¬ AllShort s → decode (encode s ++ extra) = .error (.malformed .tooManyElements))) ∧
    (AllShort s → ∀ cause, decode (encode s) ≠ .error (.malformed cause)) ∧
    ∀ (t : Option Snapshot) (extra : Text), (∀ u ∈ t, u.Sized) → encode t = encode s ++ extra →
      extra = [] := by
  have writable := writable_item sized
  refine ⟨rfl, ?_, ?_, fun short => not_malformed (read_encode sized short), ?_⟩
  · intro front rest whole some_byte lost
    rw [encode_item] at whole
    rcases writable.read_cut (by decide) whole lost some_byte with cut | ⟨long, refused⟩
    · exact .inl (decode_malformed cut)
    · exact .inr ⟨overlong_item.mp long, decode_malformed refused⟩
  · intro extra some_byte
    obtain ⟨long, short⟩ := writable.read_extended (by decide) some_byte
    rw [overlong_item] at long short
    rw [encode_item]
    exact ⟨fun fits => decode_malformed (short (not_not_intro fits)),
      fun fails => decode_malformed (long fails)⟩
  · intro t extra sized' same
    rw [encode_item, encode_item] at same
    apply Eq.symm
    apply And.right
    apply (writable_item sized').decipherable 4 (item s) [] extra writable
    rw [List.append_nil, same]

/-- The snapshot of one class with one slot, cut in the name of the class. -/
theorem damage_refused_pointClass :
    let s : Snapshot := ⟨1, some [{ name := "Point", slots := some ["draw"] }]⟩
    s.Sized ∧ AllShort (some s) ∧ (encode (some s)).length = 20 ∧
      decode ((encode (some s)).take 11) = .error (.malformed .truncated) ∧
      decode (encode (some s) ++ [0x00]) = .error (.malformed .leftover) ∧
      ∀ cause, decode (encode (some s)) ≠ .error (.malformed cause) := by
  intro s
  have sized : s.Sized := by
    constructor
    · decide
    · intro d member
      rw [List.mem_singleton.mp member]
      constructor <;> decide
  have short : AllShort (some s) := by
    rintro t ⟨rfl⟩
    decide
  have one {t : Snapshot} (member : t ∈ some s) : t.Sized := by
    cases member
    exact sized
  obtain ⟨-, cut, extended, whole, -⟩ := damage_refused fun t => one
  refine ⟨sized, short, by decide +kernel, ?_, (extended [0x00] (by decide)).1 short, whole short⟩
  apply (cut _ ((encode (some s)).drop 11) (List.take_append_drop 11 _).symm (by decide +kernel)
    (by decide +kernel)).resolve_right
  intro fails
  exact fails.1 short

end Snapshot

end ObjectModel
