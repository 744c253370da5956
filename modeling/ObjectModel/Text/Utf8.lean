import ObjectModel.Text.Basic

/-!
Reading text as UTF-8. `pieces` splits any text into scalar values and stray bytes, so it is total;
text is valid when no byte is stray. Over-long forms, surrogates and values above U+10FFFF are
stray byte by byte.
-/

namespace ObjectModel.Text

/-- A piece of text: one Unicode scalar value, or one byte that begins no valid sequence. -/
inductive Piece where
  | scalar (code : Nat)
  | stray (byte : UInt8)
deriving DecidableEq, Repr

def isContinuation (b : UInt8) : Bool := 0x80 ≤ b && b ≤ 0xBF

def payload (b : UInt8) : Nat := b.toNat % 64

/-- The first piece of non-empty text, with the number of bytes that follow its first byte. -/
def firstPiece (b : UInt8) (rest : Text) : Piece × Nat :=
  if b < 0x80 then (.scalar b.toNat, 0)
  else match rest with
    | c :: tail =>
      if 0xC2 ≤ b && b ≤ 0xDF && isContinuation c then
        (.scalar (b.toNat % 32 * 64 + payload c), 1)
      else match tail with
        | d :: tail =>
          let lowest : UInt8 := if b = 0xE0 then 0xA0 else 0x80
          let highest : UInt8 := if b = 0xED then 0x9F else 0xBF
          if 0xE0 ≤ b && b ≤ 0xEF && lowest ≤ c && c ≤ highest && isContinuation d then
            (.scalar (b.toNat % 16 * 4096 + payload c * 64 + payload d), 2)
          else match tail with
            | e :: _ =>
              let lowest : UInt8 := if b = 0xF0 then 0x90 else 0x80
              let highest : UInt8 := if b = 0xF4 then 0x8F else 0xBF
              if 0xF0 ≤ b && b ≤ 0xF4 && lowest ≤ c && c ≤ highest && isContinuation d
                  && isContinuation e then
                (.scalar (b.toNat % 8 * 262144 + payload c * 4096 + payload d * 64 + payload e), 3)
              else (.stray b, 0)
            | [] => (.stray b, 0)
        | [] => (.stray b, 0)
    | [] => (.stray b, 0)

def pieces : Text → List Piece
  | [] => []
  | b :: rest =>
    let (piece, more) := firstPiece b rest
    piece :: pieces (rest.drop more)
termination_by t => t.length
decreasing_by simp only [List.length_drop, List.length_cons]; omega

def Piece.isScalar : Piece → Bool
  | .scalar _ => true
  | .stray _ => false

def isUtf8 (t : Text) : Bool := (pieces t).all Piece.isScalar

def encodeScalar (code : Nat) : Text :=
  let byte (n : Nat) : UInt8 := UInt8.ofNat n
  if code < 0x80 then [byte code]
  else if code < 0x800 then [byte (0xC0 + code / 64), byte (0x80 + code % 64)]
  else if code < 0x10000 then
    [byte (0xE0 + code / 4096), byte (0x80 + code / 64 % 64), byte (0x80 + code % 64)]
  else
    [byte (0xF0 + code / 262144), byte (0x80 + code / 4096 % 64), byte (0x80 + code / 64 % 64),
      byte (0x80 + code % 64)]

def isScalarValue (code : Nat) : Bool := code < 0xD800 || (0xE000 ≤ code && code < 0x110000)

end ObjectModel.Text
