/-!
Text is a finite sequence of bytes. Class names, slot names, messages and string contents are all
text, and nothing requires them to be valid UTF-8. Numerals are written in lower case, without
superfluous zeros.
-/

namespace ObjectModel

/-- A byte sequence; lengths, indices and hashes count bytes. -/
abbrev Text := List UInt8

namespace Text

def ofString (s : String) : Text := s.toByteArray.data.toList

instance : Coe String Text := ⟨ofString⟩

def numeral (base n : Nat) : Text := (Nat.toDigits base n).map fun c => UInt8.ofNat c.toNat

def ofNat (n : Nat) : Text := numeral 10 n

def ofInt (n : Int) : Text :=
  if n < 0 then ofString "-" ++ ofNat n.natAbs else ofNat n.natAbs

def ofBool (b : Bool) : Text := if b then ofString "true" else ofString "false"

def paddedHex (width n : Nat) : Text :=
  let digits := numeral 16 n
  List.replicate (width - digits.length) 0x30 ++ digits

/-- The polynomial hash with multiplier 31, reduced to 32 bits at every byte. -/
def hash (t : Text) : Int32 := t.foldl (fun h b => 31 * h + Int32.ofNat b.toNat) 0

/-- The pieces of `t` between occurrences of `separator`; there is always at least one. -/
def splitOn (separator : UInt8) : Text → List Text
  | [] => [[]]
  | b :: rest =>
    if b = separator then [] :: splitOn separator rest
    else match splitOn separator rest with
      | [] => [[b]]
      | piece :: pieces => (b :: piece) :: pieces

end Text

end ObjectModel
