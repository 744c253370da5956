import Mathlib.Algebra.Group.Nat.Defs
import ObjectModel.Proofs.ArrayAccess
import ObjectModel.Proofs.Content

/-!
Reading strings by position. A position leads to a byte exactly if it is within the text, and every
other position is refused. The length that a string reports is the length of its text only as far
as a signed 32-bit number goes: from there on it bounds no longer the positions that lead to a byte,
nor do the lengths of two strings add up to that of the joined string.
-/

namespace ObjectModel

/-- A length is reported as it is unless it exceeds the signed 32-bit numbers. -/
theorem toInt_ofNat_iff (n : Nat) : (Int32.ofNat n).toInt = n ↔ n < 2 ^ 31 := by
  constructor
  · intro same
    have most := (Int32.ofNat n).toInt_lt
    omega
  · exact Int32.toInt_ofNat_of_lt

theorem bounded_iff_reported (n : Nat) :
    (∀ i : Int32, Bounded i n ↔ 0 ≤ i ∧ i < Int32.ofNat n) ↔ n < 2 ^ 31 := by
  constructor
  · intro agree
    by_contra large
    -- The greatest index is within bounds, but no number of its type is greater.
    have greatest : Int32.maxValue.toInt = 2147483647 := by decide
    have last : Bounded Int32.maxValue n := by
      rw [Bounded, greatest]
      omega
    have below := Int32.lt_iff_toInt_lt.mp ((agree _).mp last).2
    have most := (Int32.ofNat n).toInt_lt
    omega
  · intro small i
    have zero : (0 : Int32).toInt = 0 := rfl
    rw [Int32.le_iff_toInt_le, Int32.lt_iff_toInt_lt, (toInt_ofNat_iff n).mpr small, zero]
    exact Iff.rfl

theorem Bounded.byte {i : Int32} {t : Text} (within : Bounded i t.length) :
    ∃ b, t[i.toInt.toNat]? = some b := by
  have inside : i.toInt.toNat < t.length := by
    obtain ⟨least, most⟩ := within
    omega
  exact ⟨_, List.getElem?_eq_getElem inside⟩

namespace Action

/-- The length that a string reports bounds its positions: those from zero on and below it lead to a
byte, and all others are refused. -/
def IndexedByLength (w : World) (id : ObjectId) : Prop :=
  ∃ n, (stringLength (some id)).run w = (.ok n, w) ∧ ∀ i : Int32,
    (0 ≤ i ∧ i < n → ∃ b, (charAt (some id) i).run w = (.ok b, w)) ∧
    (¬ (0 ≤ i ∧ i < n) → ∃ message, (charAt (some id) i).Refuses w .indexOutOfBounds message)

section Access
variable {w : World} {id : ObjectId} {t : Text} {i : Int32}

theorem run_stringLength (has : w.text? id = some t) :
    (stringLength (some id)).run w = (.ok (Int32.ofNat t.length), w) := by
  obtain ⟨c, held, rfl⟩ := World.content_of_text? has
  unfold stringLength
  rw [run_bind, run_stringContent held, ← c.length_eq]
  rfl

theorem run_charAt {b : UInt8} (has : w.text? id = some t) (within : Bounded i t.length)
    (here : t[i.toInt.toNat]? = some b) : (charAt (some id) i).run w = (.ok b, w) := by
  obtain ⟨c, held, rfl⟩ := World.content_of_text? has
  unfold charAt
  rw [run_bind, run_stringContent held]
  dsimp only
  rw [run_bind, c.length_eq, run_checkIndex within]
  dsimp only
  rw [c.byte?_eq, here]
  rfl

theorem charAt_refuses (well : w.WellFormed) (has : w.text? id = some t)
    (out : ¬ Bounded i t.length) :
    (charAt (some id) i).Refuses w .indexOutOfBounds (boundsText i t.length) := by
  obtain ⟨c, held, rfl⟩ := World.content_of_text? has
  have refused := checkIndex_refuses (k := .indexOutOfBounds) well out
  rw [← c.length_eq] at refused ⊢
  exact .read (run_stringContent held) refused.first

theorem not_refuses_of_ok {α : Type} {a : Action α} {x : α} {w' : World}
    (ran : a.run w = (.ok x, w')) {k : Kind} {message : Text} : ¬ a.Refuses w k message := by
  rintro ⟨e, w'', ended, -⟩
  rw [ran] at ended
  cases ended

theorem charAt_ok_iff (well : w.WellFormed) (has : w.text? id = some t) (b : UInt8) :
    (charAt (some id) i).run w = (.ok b, w) ↔
      Bounded i t.length ∧ t[i.toInt.toNat]? = some b := by
  constructor
  · intro ran
    have within : Bounded i t.length := by
      by_contra out
      exact not_refuses_of_ok ran (charAt_refuses well has out)
    obtain ⟨b', here⟩ := within.byte
    have ran' := run_charAt has within here
    rw [ran] at ran'
    cases ran'
    exact ⟨within, here⟩
  · rintro ⟨within, here⟩
    exact run_charAt has within here

theorem indexedByLength_iff (well : w.WellFormed) (has : w.text? id = some t) :
    IndexedByLength w id ↔ t.length < 2 ^ 31 := by
  rw [← bounded_iff_reported]
  constructor
  · rintro ⟨n, reported, indexed⟩ i
    rw [run_stringLength has] at reported
    cases reported
    constructor
    · intro within
      obtain ⟨b, here⟩ := within.byte
      by_contra out
      obtain ⟨message, refused⟩ := (indexed i).2 out
      exact not_refuses_of_ok (run_charAt has within here) refused
    · intro inside
      obtain ⟨b, ran⟩ := (indexed i).1 inside
      exact ((charAt_ok_iff well has b).mp ran).1
  · intro agree
    refine ⟨_, run_stringLength has, fun i => ⟨fun inside => ?_, fun out => ?_⟩⟩
    · have within := (agree i).mpr inside
      obtain ⟨b, here⟩ := within.byte
      exact ⟨b, run_charAt has within here⟩
    · exact ⟨_, charAt_refuses well has fun within => out ((agree i).mp within)⟩

/-- Joining makes a new string, of the one text followed by the other. -/
theorem run_concat_text {other : Option ObjectId} (has : w.text? id = some t)
    (spelt : ∀ s ∈ other, w.IsString s) : ∃ new w', (concat (some id) other).run w = (.ok new, w') ∧
      w.object? new = none ∧ w'.text? new = some (t ++ w.printed other) ∧ Grows w w' := by
  obtain ⟨c, held, rfl⟩ := World.content_of_text? has
  refine ⟨_, _, run_concat held spelt, Array.getElem?_eq_none (Nat.le_refl _), ?_, .push w _ _⟩
  rw [World.text?_of_content? (World.content?_new _), Content.text_append,
    World.text_printedContent]

end Access

end Action

namespace Script

/-- In every session that a script reaches, and for every string, a position leads to the byte of
the text there, and a position outside of the text is refused. The string reports the length of its
text as a signed 32-bit number, which bounds the positions exactly if the text has less than
`2 ^ 31` bytes. Joining a string with another one, or with null, which counts as the word, makes a
string of both texts. The length that it reports is the sum of the two lengths as 32-bit numbers
wrap, and it is the number of bytes of both texts exactly if that is below `2 ^ 31`. -/
theorem Session.Reachable.string_positions {s : Session} (reached : s.Reachable) {id : ObjectId}
    {t : Text} (has : s.world.text? id = some t) :
    (Action.stringLength (some id)).run s.world = (.ok (Int32.ofNat t.length), s.world) ∧
    (∀ i, (∀ b, (Action.charAt (some id) i).run s.world = (.ok b, s.world) ↔
        Bounded i t.length ∧ t[i.toInt.toNat]? = some b) ∧
      (¬ Bounded i t.length → (Action.charAt (some id) i).Refuses s.world .indexOutOfBounds
        (Action.boundsText i t.length))) ∧
    (Action.IndexedByLength s.world id ↔ t.length < 2 ^ 31) ∧
    ∀ other, (∀ o ∈ other, s.world.IsString o) → ∃ new w' n,
      (Action.concat (some id) other).run s.world = (.ok new, w') ∧
      w'.text? new = some (t ++ s.world.printed other) ∧
      (Action.stringLength (some new)).run w' = (.ok n, w') ∧
      n = Int32.ofNat t.length + Int32.ofNat (s.world.printed other).length ∧
      (n.toInt = t.length + (s.world.printed other).length ↔
        t.length + (s.world.printed other).length < 2 ^ 31) := by
  have well := reached.valid.well
  refine ⟨Action.run_stringLength has, fun i => ⟨Action.charAt_ok_iff well has,
    Action.charAt_refuses well has⟩, Action.indexedByLength_iff well has, fun other spelt => ?_⟩
  obtain ⟨new, w', joined, -, text, -⟩ := Action.run_concat_text has spelt
  refine ⟨new, w', _, joined, text, Action.run_stringLength text, ?_, ?_⟩
  · rw [List.length_append, Int32.ofNat_add]
  · rw [List.length_append, ← toInt_ofNat_iff, Int.natCast_add]

/-- A script that joins a string with itself over and over, until it is longer than a string can
report. -/
def doubledString : List Step :=
  .perform (.object (.newString "a")) (some "s") none ::
    List.replicate 31 (.perform (.string (.concat (.variable "s") (.variable "s"))) (some "s") none)

theorem string_positions_doubledString :
    let s := ((Session.withVerbosity {} 0).runAll doubledString).2
    s.Reachable ∧
    (∃ half, s.world.text? 30 = some half ∧ half.length = 1073741824 ∧
      Action.IndexedByLength s.world 30 ∧
      ∃ new w' n, (Action.concat (some 30) (some 30)).run s.world = (.ok new, w') ∧
        w'.text? new = some (half ++ half) ∧
        (Action.stringLength (some new)).run w' = (.ok n, w') ∧
        n.toInt ≠ half.length + half.length) ∧
    ∃ whole, s.world.text? 31 = some whole ∧ whole.length = 2147483648 ∧
      (Action.stringLength (some 31)).run s.world = (.ok (-2147483648), s.world) ∧
      (Action.charAt (some 31) 0).run s.world = (.ok 97, s.world) ∧
      (Action.charAt (some 31) (-1)).Refuses s.world .indexOutOfBounds
        "index -1 out of bounds for length 2147483648" ∧
      ¬ Action.IndexedByLength s.world 31 := by
  intro s
  have reached : s.Reachable := (Session.Reachable.start {} 0).runAll doubledString
  have measured : [30, 31].map (fun id => (s.world.content? id).map fun c =>
      (c.length, c.byte? 0)) = [some (1073741824, some 97), some (2147483648, some 97)] := by
    decide +kernel
  obtain ⟨smaller, rest⟩ := List.cons.inj measured
  obtain ⟨larger, -⟩ := List.cons.inj rest
  obtain ⟨c, held, sizes⟩ := Option.map_eq_some_iff.mp smaller
  obtain ⟨d, held', sizes'⟩ := Option.map_eq_some_iff.mp larger
  have length : c.text.length = 1073741824 := c.length_eq ▸ (Prod.ext_iff.mp sizes).1
  have length' : d.text.length = 2147483648 := d.length_eq ▸ (Prod.ext_iff.mp sizes').1
  have first : d.text[0]? = some 97 := d.byte?_eq 0 ▸ (Prod.ext_iff.mp sizes').2
  have half := World.text?_of_content? held
  have whole := World.text?_of_content? held'
  obtain ⟨-, -, indexed, joins⟩ := reached.string_positions half
  obtain ⟨reported, positions, notIndexed, -⟩ := reached.string_positions whole
  have printed : s.world.printed (some 30) = c.text := by rw [World.printed, half]; rfl
  obtain ⟨new, w', n, joined, text, size, -, counted⟩ := joins (some 30) (by
    rintro _ ⟨rfl⟩
    exact ⟨c, World.content?_iff.mp held⟩)
  rw [printed] at text counted
  rw [length'] at reported positions notIndexed
  refine ⟨reached, ⟨c.text, half, length, indexed.mpr (by omega), new, w', n, joined, text, size,
    ?_⟩, d.text, whole, length', reported, ?_, ?_, ?_⟩
  · intro sum
    have small := counted.mp sum
    omega
  · exact ((positions 0).1 97).mpr ⟨by decide, first⟩
  · exact (positions (-1)).2 (by decide)
  · intro indexed
    have small := notIndexed.mp indexed
    omega

end Script

end ObjectModel
