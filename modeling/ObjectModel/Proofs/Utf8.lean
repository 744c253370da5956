import Mathlib.Tactic.SplitIfs
import ObjectModel.Text.Utf8

/-!
Valid text. A text is read without stray bytes exactly if it is a sequence of Unicode scalar values
in their UTF-8 form.
-/

namespace ObjectModel.Text

/-- The text is a sequence of scalar values, written one after another. -/
def IsUtf8 (t : Text) : Prop :=
  ∃ codes : List Nat, (∀ code ∈ codes, isScalarValue code = true) ∧ t = codes.flatMap encodeScalar

theorem isScalarValue_iff {code : Nat} :
    isScalarValue code = true ↔ code < 0xD800 ∨ 0xE000 ≤ code ∧ code < 0x110000 := by
  simp [isScalarValue]

theorem isContinuation_iff {b : UInt8} :
    isContinuation b = true ↔ 0x80 ≤ b.toNat ∧ b.toNat ≤ 0xBF := by
  simp [isContinuation, UInt8.le_iff_toNat_le]

theorem ofNat_eq {n : Nat} {b : UInt8} (same : n = b.toNat) : UInt8.ofNat n = b := by
  rw [same, UInt8.ofNat_toNat]

theorem toNat_ite (b v x y : UInt8) :
    (if b = v then x else y).toNat = if b.toNat = v.toNat then x.toNat else y.toNat := by
  rw [apply_ite UInt8.toNat]
  simp only [UInt8.toNat_inj]

/-- The bytes with which a scalar value of two, three or four bytes begins. -/
def leadsTwo (b : UInt8) : Bool := 0xC2 ≤ b && b ≤ 0xDF

@[inherit_doc leadsTwo]
def leadsThree (b c : UInt8) : Bool :=
  0xE0 ≤ b && b ≤ 0xEF && (if b = 0xE0 then 0xA0 else 0x80) ≤ c &&
    c ≤ if b = 0xED then 0x9F else 0xBF

@[inherit_doc leadsTwo]
def leadsFour (b c : UInt8) : Bool :=
  0xF0 ≤ b && b ≤ 0xF4 && (if b = 0xF0 then 0x90 else 0x80) ≤ c &&
    c ≤ if b = 0xF4 then 0x8F else 0xBF

theorem firstPiece_eq (b : UInt8) (rest : Text) :
    firstPiece b rest =
      if b < 0x80 then (.scalar b.toNat, 0)
      else match rest with
        | c :: tail =>
          if leadsTwo b && isContinuation c then (.scalar (b.toNat % 32 * 64 + payload c), 1)
          else match tail with
            | d :: tail =>
              if leadsThree b c && isContinuation d then
                (.scalar (b.toNat % 16 * 4096 + payload c * 64 + payload d), 2)
              else match tail with
                | e :: _ =>
                  if leadsFour b c && isContinuation d && isContinuation e then
                    (.scalar (b.toNat % 8 * 262144 + payload c * 4096 + payload d * 64 + payload e),
                      3)
                  else (.stray b, 0)
                | [] => (.stray b, 0)
            | [] => (.stray b, 0)
        | [] => (.stray b, 0) := by
  rfl

theorem leadsTwo_iff {b : UInt8} : leadsTwo b = true ↔ 0xC2 ≤ b.toNat ∧ b.toNat ≤ 0xDF := by
  simp [leadsTwo, UInt8.le_iff_toNat_le]

theorem leadsThree_iff {b c : UInt8} :
    leadsThree b c = true ↔ 0xE0 ≤ b.toNat ∧ b.toNat ≤ 0xEF ∧ 0x80 ≤ c.toNat ∧ c.toNat ≤ 0xBF ∧
      (b.toNat = 0xE0 → 0xA0 ≤ c.toNat) ∧ (b.toNat = 0xED → c.toNat ≤ 0x9F) := by
  simp only [leadsThree, Bool.and_eq_true, decide_eq_true_eq, UInt8.le_iff_toNat_le, toNat_ite,
    UInt8.reduceToNat]
  split_ifs <;> omega

theorem leadsFour_iff {b c : UInt8} :
    leadsFour b c = true ↔ 0xF0 ≤ b.toNat ∧ b.toNat ≤ 0xF4 ∧ 0x80 ≤ c.toNat ∧ c.toNat ≤ 0xBF ∧
      (b.toNat = 0xF0 → 0x90 ≤ c.toNat) ∧ (b.toNat = 0xF4 → c.toNat ≤ 0x8F) := by
  simp only [leadsFour, Bool.and_eq_true, decide_eq_true_eq, UInt8.le_iff_toNat_le, toNat_ite,
    UInt8.reduceToNat]
  split_ifs <;> omega

section Forms
variable {b c d e : UInt8}

theorem encodeScalar_one (lead : b < 0x80) :
    isScalarValue b.toNat = true ∧ encodeScalar b.toNat = [b] := by
  have lead : b.toNat < 0x80 := UInt8.lt_iff_toNat_lt.mp lead
  rw [isScalarValue_iff]
  constructor
  · omega
  · simp [encodeScalar, lead]

theorem encodeScalar_two (lead : leadsTwo b = true) (second : isContinuation c = true) :
    isScalarValue (b.toNat % 32 * 64 + payload c) = true ∧
      encodeScalar (b.toNat % 32 * 64 + payload c) = [b, c] := by
  rw [leadsTwo_iff] at lead
  rw [isContinuation_iff] at second
  rw [isScalarValue_iff, payload, encodeScalar]
  constructor
  · omega
  · rw [if_neg (by omega), if_pos (by omega)]
    simp only [List.cons.injEq, and_true]
    exact ⟨ofNat_eq (by omega), ofNat_eq (by omega)⟩

/-- Three bytes hold the values from U+0800 on, except for the surrogates. -/
theorem encodeScalar_three (lead : leadsThree b c = true) (third : isContinuation d = true) :
    isScalarValue (b.toNat % 16 * 4096 + payload c * 64 + payload d) = true ∧
      encodeScalar (b.toNat % 16 * 4096 + payload c * 64 + payload d) = [b, c, d] := by
  rw [leadsThree_iff] at lead
  rw [isContinuation_iff] at third
  rw [isScalarValue_iff, payload, payload, encodeScalar]
  constructor
  · omega
  · rw [if_neg (by omega), if_neg (by omega), if_pos (by omega)]
    simp only [List.cons.injEq, and_true]
    exact ⟨ofNat_eq (by omega), ofNat_eq (by omega), ofNat_eq (by omega)⟩

theorem encodeScalar_four (lead : leadsFour b c = true) (third : isContinuation d = true)
    (fourth : isContinuation e = true) :
    isScalarValue (b.toNat % 8 * 262144 + payload c * 4096 + payload d * 64 + payload e) = true ∧
      encodeScalar (b.toNat % 8 * 262144 + payload c * 4096 + payload d * 64 + payload e) =
        [b, c, d, e] := by
  rw [leadsFour_iff] at lead
  rw [isContinuation_iff] at third fourth
  rw [isScalarValue_iff, payload, payload, payload, encodeScalar]
  constructor
  · omega
  · rw [if_neg (by omega), if_neg (by omega), if_neg (by omega)]
    simp only [List.cons.injEq, and_true]
    exact ⟨ofNat_eq (by omega), ofNat_eq (by omega), ofNat_eq (by omega), ofNat_eq (by omega)⟩

theorem firstPiece_one (lead : b.toNat < 0x80) (rest : Text) :
    firstPiece b rest = (.scalar b.toNat, 0) := by
  rw [firstPiece_eq, if_pos (UInt8.lt_iff_toNat_lt.mpr lead)]

theorem not_ascii (lead : 0x80 ≤ b.toNat) : ¬ b < 0x80 := by
  rw [UInt8.lt_iff_toNat_lt]
  exact Nat.not_lt_of_le lead

theorem firstPiece_two (lead : leadsTwo b = true) (second : isContinuation c = true) (rest : Text) :
    firstPiece b (c :: rest) = (.scalar (b.toNat % 32 * 64 + payload c), 1) := by
  have bounds := leadsTwo_iff.mp lead
  rw [firstPiece_eq, if_neg (not_ascii (by omega))]
  simp only [lead, second, Bool.and_self, if_true]

theorem firstPiece_three (lead : leadsThree b c = true) (third : isContinuation d = true)
    (rest : Text) :
    firstPiece b (c :: d :: rest) =
      (.scalar (b.toNat % 16 * 4096 + payload c * 64 + payload d), 2) := by
  have bounds := leadsThree_iff.mp lead
  have notTwo : leadsTwo b = false := by
    rw [← Bool.not_eq_true, leadsTwo_iff]
    omega
  rw [firstPiece_eq, if_neg (not_ascii (by omega))]
  simp only [notTwo, lead, third, Bool.false_and, Bool.and_self, Bool.false_eq_true, if_false,
    if_true]

theorem firstPiece_four (lead : leadsFour b c = true) (third : isContinuation d = true)
    (fourth : isContinuation e = true) (rest : Text) :
    firstPiece b (c :: d :: e :: rest) =
      (.scalar (b.toNat % 8 * 262144 + payload c * 4096 + payload d * 64 + payload e), 3) := by
  have bounds := leadsFour_iff.mp lead
  have notTwo : leadsTwo b = false := by
    rw [← Bool.not_eq_true, leadsTwo_iff]
    omega
  have notThree : leadsThree b c = false := by
    rw [← Bool.not_eq_true, leadsThree_iff]
    omega
  rw [firstPiece_eq, if_neg (not_ascii (by omega))]
  simp only [notTwo, notThree, lead, third, fourth, Bool.false_and, Bool.and_self,
    Bool.false_eq_true, if_false, if_true]

end Forms

/-- A scalar value is only read from its own encoding. -/
theorem eq_encodeScalar_of_firstPiece {b : UInt8} {rest : Text} {code more : Nat}
    (read : firstPiece b rest = (.scalar code, more)) :
    isScalarValue code = true ∧ b :: rest = encodeScalar code ++ rest.drop more := by
  rw [firstPiece_eq] at read
  split at read
  · rename_i lead
    obtain ⟨rfl, rfl⟩ : b.toNat = code ∧ 0 = more := by simpa using read
    obtain ⟨scalar, encoded⟩ := encodeScalar_one lead
    rw [encoded]
    exact ⟨scalar, rfl⟩
  · split at read
    · split at read
      · rename_i form
        rw [Bool.and_eq_true] at form
        obtain ⟨rfl, rfl⟩ : _ = code ∧ 1 = more := by simpa using read
        obtain ⟨scalar, encoded⟩ := encodeScalar_two form.1 form.2
        rw [encoded]
        exact ⟨scalar, rfl⟩
      · split at read
        · split at read
          · rename_i form
            rw [Bool.and_eq_true] at form
            obtain ⟨rfl, rfl⟩ : _ = code ∧ 2 = more := by simpa using read
            obtain ⟨scalar, encoded⟩ := encodeScalar_three form.1 form.2
            rw [encoded]
            exact ⟨scalar, rfl⟩
          · split at read
            · split at read
              · rename_i form
                rw [Bool.and_eq_true, Bool.and_eq_true] at form
                obtain ⟨rfl, rfl⟩ : _ = code ∧ 3 = more := by simpa using read
                obtain ⟨scalar, encoded⟩ := encodeScalar_four form.1.1 form.1.2 form.2
                rw [encoded]
                exact ⟨scalar, rfl⟩
              · simp at read
            · simp at read
        · simp at read
    · simp at read

theorem toNat_ofNat {n : Nat} (byte : n < 0x100) : (UInt8.ofNat n).toNat = n := by
  rw [UInt8.toNat_ofNat']
  omega

theorem isContinuation_ofNat {n : Nat} (small : n < 64) :
    isContinuation (UInt8.ofNat (0x80 + n)) = true := by
  rw [isContinuation_iff, toNat_ofNat (by omega)]
  omega

/-- The encoding of a scalar value is read as that value, whatever follows. -/
theorem firstPiece_encodeScalar {code : Nat} (scalar : isScalarValue code = true) :
    ∃ b tail, encodeScalar code = b :: tail ∧
      ∀ rest, firstPiece b (tail ++ rest) = (.scalar code, tail.length) := by
  rw [isScalarValue_iff] at scalar
  dsimp only [encodeScalar]
  split_ifs with one two three
  · have lead := toNat_ofNat (Nat.lt_trans one (by decide : 0x80 < 0x100))
    refine ⟨_, _, rfl, fun rest => ?_⟩
    rw [List.nil_append, firstPiece_one (by omega), lead]
    rfl
  · have lead := toNat_ofNat (by omega : 0xC0 + code / 64 < 0x100)
    have second := toNat_ofNat (by omega : 0x80 + code % 64 < 0x100)
    refine ⟨_, _, rfl, fun rest => ?_⟩
    rw [List.singleton_append, firstPiece_two (leadsTwo_iff.mpr (by omega))
      (isContinuation_ofNat (by omega)), payload, lead, second]
    congr
    omega
  · have lead := toNat_ofNat (by omega : 0xE0 + code / 4096 < 0x100)
    have second := toNat_ofNat (by omega : 0x80 + code / 64 % 64 < 0x100)
    have third := toNat_ofNat (by omega : 0x80 + code % 64 < 0x100)
    refine ⟨_, _, rfl, fun rest => ?_⟩
    rw [List.cons_append, List.singleton_append,
      firstPiece_three (leadsThree_iff.mpr (by omega)) (isContinuation_ofNat (by omega)),
      payload, payload, lead, second, third]
    congr
    omega
  · have lead := toNat_ofNat (by omega : 0xF0 + code / 262144 < 0x100)
    have second := toNat_ofNat (by omega : 0x80 + code / 4096 % 64 < 0x100)
    have third := toNat_ofNat (by omega : 0x80 + code / 64 % 64 < 0x100)
    have fourth := toNat_ofNat (by omega : 0x80 + code % 64 < 0x100)
    refine ⟨_, _, rfl, fun rest => ?_⟩
    rw [List.cons_append, List.cons_append, List.singleton_append,
      firstPiece_four (leadsFour_iff.mpr (by omega)) (isContinuation_ofNat (by omega))
        (isContinuation_ofNat (by omega)), payload, payload, payload, lead, second, third, fourth]
    congr
    omega

theorem pieces_encodeScalar {code : Nat} (scalar : isScalarValue code = true) (rest : Text) :
    pieces (encodeScalar code ++ rest) = .scalar code :: pieces rest := by
  obtain ⟨b, tail, encoded, read⟩ := firstPiece_encodeScalar scalar
  rw [encoded, List.cons_append, pieces, read rest]
  dsimp only
  rw [List.drop_left]

@[simp]
theorem isUtf8_nil : isUtf8 [] = true := by
  rw [isUtf8, pieces]
  rfl

/-- The check for stray bytes accepts exactly the valid texts. -/
theorem isUtf8_iff {t : Text} : t.isUtf8 = true ↔ IsUtf8 t := by
  constructor
  · intro valid
    induction t using pieces.induct with
    | case1 => exact ⟨[], by simp, rfl⟩
    | case2 b rest piece more read ih =>
      rw [isUtf8, pieces, read, List.all_cons, Bool.and_eq_true] at valid
      obtain ⟨codes, scalars, tail⟩ := ih valid.2
      cases piece with
      | stray => simp [Piece.isScalar] at valid
      | scalar code =>
        obtain ⟨scalar, whole⟩ := eq_encodeScalar_of_firstPiece read
        rw [tail] at whole
        exact ⟨code :: codes, List.forall_mem_cons.mpr ⟨scalar, scalars⟩, whole⟩
  · rintro ⟨codes, scalars, rfl⟩
    induction codes with
    | nil => exact isUtf8_nil
    | cons code codes ih =>
      have later := ih fun c mem => scalars c (List.mem_cons_of_mem _ mem)
      rw [isUtf8] at later
      rw [isUtf8, List.flatMap_cons, pieces_encodeScalar (scalars code List.mem_cons_self),
        List.all_cons, later]
      rfl

theorem IsUtf8.nil : IsUtf8 [] := isUtf8_iff.mp isUtf8_nil

theorem IsUtf8.of_ascii {t : Text} (ascii : ∀ b ∈ t, b < 0x80) : t.IsUtf8 := by
  induction t with
  | nil => exact .nil
  | cons b rest ih =>
    obtain ⟨first, later⟩ := List.forall_mem_cons.mp ascii
    obtain ⟨codes, scalars, tail⟩ := ih later
    obtain ⟨scalar, encoded⟩ := encodeScalar_one first
    exact ⟨b.toNat :: codes, List.forall_mem_cons.mpr ⟨scalar, scalars⟩, by
      rw [List.flatMap_cons, encoded, ← tail]
      rfl⟩

end ObjectModel.Text
