import ObjectModel.Text.Utf8
import ObjectModel.Text.Printable

/-!
Quoted text. A quoted form is enclosed in double quotes; quotes and backslashes are escaped,
printable characters stand for themselves, control characters have short escapes or two hexadecimal
digits, stray bytes have two hexadecimal digits, and other characters four or eight.
-/

namespace ObjectModel.Text

/-- The one-letter escapes of control characters. -/
def shortEscape (code : Nat) : Option UInt8 :=
  match code with
  | 7 => some 0x61
  | 8 => some 0x62
  | 9 => some 0x74
  | 10 => some 0x6E
  | 11 => some 0x76
  | 12 => some 0x66
  | 13 => some 0x72
  | _ => none

def quotePiece : Piece → Text
  | .stray byte => ofString "\\x" ++ paddedHex 2 byte.toNat
  | .scalar code =>
    if code = 0x22 || code = 0x5C then 0x5C :: encodeScalar code
    else if isPrintable code then encodeScalar code
    else match shortEscape code with
      | some letter => [0x5C, letter]
      | none =>
        if code < 0x20 || code = 0x7F then ofString "\\x" ++ paddedHex 2 code
        else if code < 0x10000 then ofString "\\u" ++ paddedHex 4 code
        else ofString "\\U" ++ paddedHex 8 code

def quoted (t : Text) : Text := 0x22 :: (pieces t).flatMap quotePiece ++ [0x22]

end ObjectModel.Text
