import ObjectModel.Text.Basic

/-!
Numerals of base sixteen. A numeral consists of digits in lower case, and a zero begins it only if
it is the whole numeral. The number that it stands for has no other numeral, and it is written as
this one; so what is written can be read back, and different numbers are written differently.
-/

namespace ObjectModel.Text

/-- The digits of base sixteen, each at the position of its value. -/
def hexDigits : Text := "0123456789abcdef"

/-- What a digit makes of the value of the digits before it. -/
def hexStep (n : Nat) (b : UInt8) : Nat := 16 * n + hexDigits.idxOf b

/-- The text is the numeral of the number. -/
structure IsHexadecimal (t : Text) (n : Nat) : Prop where
  nonempty : t ≠ []
  digits : ∀ b ∈ t, b ∈ hexDigits
  leading : t.head? = some 0x30 → t = [0x30]
  value : t.foldl hexStep 0 = n

/-- The byte of a digit as it is written. -/
def hexByte (d : Nat) : UInt8 := UInt8.ofNat (Nat.digitChar d).toNat

theorem hexDigits_eq : hexDigits = (List.range 16).map hexByte := by decide

theorem idxOf_hexByte : ∀ d < 16, hexDigits.idxOf (hexByte d) = d := by decide

theorem mem_hexDigits_iff {b : UInt8} : b ∈ hexDigits ↔ ∃ d < 16, hexByte d = b := by
  simp [hexDigits_eq]

section Numerals
variable {n d : Nat} {t : Text}

theorem hexStep_hexByte (n : Nat) (small : d < 16) : hexStep n (hexByte d) = 16 * n + d := by
  rw [hexStep, idxOf_hexByte d small]

theorem numeral_of_lt (small : n < 16) : numeral 16 n = [hexByte n] := by
  rw [numeral, Nat.toDigits_of_lt_base small]
  rfl

theorem numeral_of_le (large : 16 ≤ n) :
    numeral 16 n = numeral 16 (n / 16) ++ [hexByte (n % 16)] := by
  rw [numeral, Nat.toDigits_of_base_le (by decide) large, List.map_append]
  rfl

/-- A digit that is written behind the numeral of a positive number makes another numeral. -/
theorem numeral_append_digit (positive : 0 < n) (small : d < 16) :
    numeral 16 n ++ [hexByte d] = numeral 16 (16 * n + d) := by
  rw [← numeral_of_lt small, numeral, numeral, numeral, ← List.map_append,
    Nat.toDigits_append_toDigits (by decide) positive small]

theorem numeral_append (positive : 0 < n) (digits : ∀ b ∈ t, b ∈ hexDigits) :
    numeral 16 n ++ t = numeral 16 (t.foldl hexStep n) := by
  induction t generalizing n with
  | nil => simp
  | cons b rest ih =>
    obtain ⟨digit, others⟩ := List.forall_mem_cons.mp digits
    obtain ⟨d, small, rfl⟩ := mem_hexDigits_iff.mp digit
    calc numeral 16 n ++ hexByte d :: rest
      _ = numeral 16 n ++ [hexByte d] ++ rest := by simp
      _ = numeral 16 (16 * n + d) ++ rest := by rw [numeral_append_digit positive small]
      _ = numeral 16 (rest.foldl hexStep (16 * n + d)) := ih (by omega) others
      _ = numeral 16 ((hexByte d :: rest).foldl hexStep n) := by
        rw [List.foldl_cons, hexStep_hexByte n small]

theorem IsHexadecimal.eq_numeral (numerical : t.IsHexadecimal n) : t = numeral 16 n := by
  obtain ⟨nonempty, digits, leading, rfl⟩ := numerical
  cases t with
  | nil => exact absurd rfl nonempty
  | cons b rest =>
    obtain ⟨digit, others⟩ := List.forall_mem_cons.mp digits
    obtain ⟨d, small, rfl⟩ := mem_hexDigits_iff.mp digit
    by_cases zero : d = 0
    · subst zero
      rw [leading rfl]
      decide
    · have first : hexStep 0 (hexByte d) = d := by
        rw [hexStep_hexByte 0 small]
        omega
      rw [List.foldl_cons, first, ← numeral_append (Nat.pos_of_ne_zero zero) others,
        numeral_of_lt small, List.singleton_append]

theorem numeral_isHexadecimal (n : Nat) : (numeral 16 n).IsHexadecimal n := by
  induction n using Nat.strongRecOn with
  | ind n ih =>
    by_cases small : n < 16
    · rw [numeral_of_lt small]
      refine ⟨List.cons_ne_nil _ _, ?_, ?_, ?_⟩
      · intro b member
        exact mem_hexDigits_iff.mpr ⟨n, small, (List.mem_singleton.mp member).symm⟩
      · intro zero
        rw [Option.some.inj zero]
      · rw [List.foldl_cons, List.foldl_nil, hexStep_hexByte 0 small]
        omega
    · have last : n % 16 < 16 := Nat.mod_lt n (by decide)
      obtain ⟨nonempty, digits, leading, value⟩ := ih (n / 16) (by omega)
      rw [numeral_of_le (Nat.le_of_not_lt small)]
      refine ⟨by simp, ?_, ?_, ?_⟩
      · intro b member
        rcases List.mem_append.mp member with before | behind
        · exact digits b before
        · exact mem_hexDigits_iff.mpr ⟨_, last, (List.mem_singleton.mp behind).symm⟩
      · -- A zero in front would be the whole of the numeral before the last digit.
        intro zero
        have first := List.head?_eq_some_head nonempty
        rw [List.head?_append, first, Option.some_or] at zero
        rw [leading (first.trans zero)] at value
        have none : n / 16 = 0 := value.symm
        omega
      · rw [List.foldl_append, value, List.foldl_cons, List.foldl_nil, hexStep_hexByte _ last]
        omega

/-- What is written for a number is its numeral, and there is no other. -/
theorem isHexadecimal_iff : t.IsHexadecimal n ↔ t = numeral 16 n :=
  ⟨IsHexadecimal.eq_numeral, fun same => same ▸ numeral_isHexadecimal n⟩

theorem numeral_injective {m : Nat} (same : numeral 16 m = numeral 16 n) : m = n := by
  have value := (numeral_isHexadecimal m).value
  rw [same] at value
  exact value.symm.trans (numeral_isHexadecimal n).value

end Numerals

end ObjectModel.Text
