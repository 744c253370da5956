import ObjectModel.Text.Basic

/-!
Reading integers. A numeral may carry a sign and one of the base markers `0x`, `0o`, `0b` or a
leading zero for base eight; underscores may separate digits. A decimal numeral has neither markers
nor underscores. The value must fit in 64 signed bits.
-/

namespace ObjectModel.Text

inductive NumeralError where
  | malformed
  | outOfRange
deriving DecidableEq, Repr

def signedLimit : Nat := 0x8000000000000000

def lowerByte (b : UInt8) : UInt8 := if 0x41 ≤ b && b ≤ 0x5A then b + 0x20 else b

def digitValue (b : UInt8) : Option Nat :=
  let c := lowerByte b
  if 0x30 ≤ c && c ≤ 0x39 then some (c.toNat - 0x30)
  else if 0x61 ≤ c && c ≤ 0x7A then some (c.toNat - 0x61 + 10)
  else none

/-- The base that a numeral announces, with the digits that follow the announcement. -/
def announcedBase : Text → Nat × Text
  | 0x30 :: marker :: digit :: rest =>
    if lowerByte marker = 0x62 then (2, digit :: rest)
    else if lowerByte marker = 0x6F then (8, digit :: rest)
    else if lowerByte marker = 0x78 then (16, digit :: rest)
    else (8, marker :: digit :: rest)
  | 0x30 :: rest => (8, rest)
  | digits => (10, digits)

/-- Accumulates digits, passing over underscores. A value that leaves 64 bits is out of range as
soon as it does, whatever follows. -/
def magnitude (base : Nat) : Text → Nat → Except NumeralError Nat
  | [], n => .ok n
  | b :: rest, n =>
    if b = 0x5F then magnitude base rest n
    else match digitValue b with
      | none => .error .malformed
      | some d =>
        if base ≤ d then .error .malformed
        else if 2 * signedLimit ≤ n * base + d then .error .outOfRange
        else magnitude base rest (n * base + d)

inductive LastSeen where
  | start
  | digit
  | underscore
  | other
deriving DecidableEq, Repr

def underscoreScan (hexadecimal : Bool) : LastSeen → Text → Bool
  | last, [] => last != .underscore
  | last, b :: rest =>
    let c := lowerByte b
    if (0x30 ≤ c && c ≤ 0x39) || (hexadecimal && 0x61 ≤ c && c ≤ 0x66) then
      underscoreScan hexadecimal .digit rest
    else if b = 0x5F then last == .digit && underscoreScan hexadecimal .underscore rest
    else last != .underscore && underscoreScan hexadecimal .other rest

/-- Every underscore of an unsigned numeral stands between digits, a base marker counting as one. -/
def underscoresSeparate : Text → Bool
  | 0x30 :: marker :: rest =>
    let m := lowerByte marker
    if m = 0x62 || m = 0x6F || m = 0x78 then underscoreScan (m == 0x78) .digit rest
    else underscoreScan false .start (0x30 :: marker :: rest)
  | digits => underscoreScan false .start digits

/-- Splits a sign off; the flag tells a minus. -/
def splitSign : Text → Bool × Text
  | 0x2B :: rest => (false, rest)
  | 0x2D :: rest => (true, rest)
  | digits => (false, digits)

def signed (negative : Bool) (n : Nat) : Except NumeralError Int :=
  if negative then (if n ≤ signedLimit then .ok (-n) else .error .outOfRange)
  else if n < signedLimit then .ok n else .error .outOfRange

def readInteger (t : Text) : Except NumeralError Int :=
  let (negative, digits) := splitSign t
  if digits.isEmpty then .error .malformed
  else
    let (base, body) := announcedBase digits
    match magnitude base body 0 with
    | .error e => .error e
    | .ok n =>
      if body.contains 0x5F && !underscoresSeparate digits then .error .malformed
      else signed negative n

/-- Reads a signed 64-bit integer in base ten; zeros may lead, and nothing separates digits. -/
def readDecimal (t : Text) : Except NumeralError Int :=
  let (negative, digits) := splitSign t
  if digits.isEmpty || digits.contains 0x5F then .error .malformed
  else
    match magnitude 10 digits 0 with
    | .error e => .error e
    | .ok n => signed negative n

end ObjectModel.Text
