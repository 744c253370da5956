import Mathlib.Algebra.BigOperators.Fin
import ObjectModel.Proofs.Dispatch
import ObjectModel.Proofs.StringAccess

/-!
Hash codes of strings. The hash code is computed byte by byte and wraps at every step. It is the
value of a polynomial over the integers, of which the bytes are the coefficients, reduced once at
the end; so the hash code of a joined string is made up of those of its parts.
-/

namespace ObjectModel

theorem ofInt_pow (base : Int) (n : Nat) : Int32.ofInt (base ^ n) = Int32.ofInt base ^ n := by
  induction n with
  | zero =>
    rw [pow_zero, Int32.pow_zero]
    rfl
  | succ n ih => rw [pow_succ, Int32.ofInt_mul, ih, Int32.pow_succ]

namespace Text

/-- The value at 31 of the polynomial whose coefficients are the bytes, the last one without a
factor. -/
def polynomial (t : Text) : Int :=
  ∑ i : Fin t.length, (t[i].toNat : Int) * 31 ^ (t.length - 1 - i)

theorem polynomial_cons (b : UInt8) (t : Text) :
    polynomial (b :: t) = b.toNat * 31 ^ t.length + t.polynomial := by
  have split : polynomial (b :: t) = b.toNat * 31 ^ t.length +
      ∑ i : Fin t.length, (t[i].toNat : Int) * 31 ^ (t.length - (i + 1)) :=
    Fin.sum_univ_succ fun i : Fin (t.length + 1) =>
      (((b :: t)[i]).toNat : Int) * 31 ^ (t.length - i)
  rw [split, polynomial]
  simp only [Nat.sub_sub, Nat.add_comm 1]

/-- What the bytes make of a value that stands before them. -/
theorem foldl_hash (t : Text) (h : Int32) :
    t.foldl (fun h b => 31 * h + Int32.ofNat b.toNat) h = h * 31 ^ t.length + t.hash := by
  unfold hash
  induction t generalizing h with
  | nil =>
    rw [List.length_nil, Int32.pow_zero]
    grind
  | cons b t ih =>
    rw [List.foldl_cons, List.foldl_cons, ih, ih (31 * 0 + _), List.length_cons, Int32.pow_succ]
    grind

theorem hash_append (t u : Text) : hash (t ++ u) = t.hash * 31 ^ u.length + u.hash := by
  rw [hash, List.foldl_append, foldl_hash]
  rfl

theorem hash_eq_polynomial (t : Text) : t.hash = Int32.ofInt t.polynomial := by
  induction t with
  | nil => rfl
  | cons b t ih =>
    have first : hash [b] = Int32.ofInt b.toNat := by
      rw [Int32.ofInt_eq_ofNat]
      change 31 * 0 + Int32.ofNat b.toNat = _
      grind
    calc hash (b :: t)
      _ = hash [b] * 31 ^ t.length + hash t := hash_append [b] t
      _ = Int32.ofInt b.toNat * Int32.ofInt (31 ^ t.length) + Int32.ofInt (polynomial t) := by
        rw [first, ih, ofInt_pow]
        rfl
      _ = Int32.ofInt (polynomial (b :: t)) := by
        rw [← Int32.ofInt_mul, ← Int32.ofInt_add, polynomial_cons]

end Text

theorem Action.run_hashCode_string {w : World} {id : ObjectId} {t : Text}
    (has : w.text? id = some t) :
    (dispatched hashCode (.object id .string)).run w = (.ok t.hash, w) := by
  obtain ⟨c, held, rfl⟩ := World.content_of_text? has
  obtain ⟨o, found, body⟩ := Option.map_eq_some_iff.mp (World.content?_iff.mp held)
  change (hashCode (.object id .string)).run w = _
  unfold hashCode
  rw [run_bind, run_target]
  dsimp only
  rw [run_bind, run_object found]
  simp only [body]
  rfl

/-- The hash code of a string is the polynomial of its bytes over the integers, reduced to a signed
32-bit number. The hash code of two joined strings is that of the first, times 31 to the power of
the length of the second, plus that of the second, where everything wraps. -/
theorem World.string_hash {w : World} {id : ObjectId} {t : Text} (has : w.text? id = some t) :
    (∃ hash, (Action.dispatched Action.hashCode (.object id .string)).run w = (.ok hash, w) ∧
      hash.toInt = t.polynomial.bmod (2 ^ 32)) ∧
    ∀ {other u}, w.text? other = some u → ∃ new w' one two,
      (Action.dispatched Action.hashCode (.object id .string)).run w = (.ok one, w) ∧
      (Action.dispatched Action.hashCode (.object other .string)).run w = (.ok two, w) ∧
      (Action.concat (some id) (some other)).run w = (.ok new, w') ∧
      w'.text? new = some (t ++ u) ∧
      (Action.dispatched Action.hashCode (.object new .string)).run w' =
        (.ok (one * 31 ^ u.length + two), w') := by
  refine ⟨⟨_, Action.run_hashCode_string has, ?_⟩, fun {other u} has' => ?_⟩
  · rw [Text.hash_eq_polynomial, Int32.toInt_ofInt]
    rfl
  · obtain ⟨c, held, -⟩ := World.content_of_text? has'
    have printed : w.printed (some other) = u := by rw [World.printed, has']; rfl
    have spelt : ∀ s ∈ some other, w.IsString s := by
      rintro _ ⟨rfl⟩
      exact ⟨c, World.content?_iff.mp held⟩
    obtain ⟨new, w', joined, -, text, -⟩ := Action.run_concat_text has spelt
    rw [printed] at text
    refine ⟨new, w', _, _, Action.run_hashCode_string has, Action.run_hashCode_string has', joined,
      text, ?_⟩
    rw [Action.run_hashCode_string text, Text.hash_append]

/-- A script that makes a string of eight bytes with the top bit set, and a word. -/
def Script.highBytes : List Step :=
  [.perform (.object (.newString (List.replicate 8 255))) none none,
    .perform (.object (.newString "hello")) none none]

theorem Script.string_hash_highBytes :
    let w := ((Session.withVerbosity {} 0).runAll highBytes).2.world
    w.text? 0 = some (List.replicate 8 255) ∧ w.text? 1 = some "hello" ∧
    Text.polynomial (List.replicate 8 255) = 7249573818240 ∧
    (∃ hash, (Action.dispatched Action.hashCode (.object 0 .string)).run w = (.ok hash, w) ∧
      hash.toInt = -330977408) ∧
    ∃ new w' one two,
      (Action.dispatched Action.hashCode (.object 1 .string)).run w = (.ok one, w) ∧
      (Action.dispatched Action.hashCode (.object 0 .string)).run w = (.ok two, w) ∧
      (Action.concat (some 1) (some 0)).run w = (.ok new, w') ∧
      (Action.dispatched Action.hashCode (.object new .string)).run w' =
        (.ok (one * 31 ^ 8 + two), w') := by
  intro w
  have high : w.text? 0 = some (List.replicate 8 255) := by decide +kernel
  have word : w.text? 1 = some "hello" := by decide +kernel
  have value : Text.polynomial (List.replicate 8 255) = 7249573818240 := by decide +kernel
  obtain ⟨⟨hash, ran, reduced⟩, -⟩ := World.string_hash high
  obtain ⟨-, joins⟩ := World.string_hash word
  obtain ⟨new, w', one, two, ran₁, ran₂, joined, -, composed⟩ := joins high
  refine ⟨high, word, value, ⟨hash, ran, ?_⟩, new, w', one, two, ran₁, ran₂, joined, composed⟩
  rw [reduced, value]
  decide

end ObjectModel
